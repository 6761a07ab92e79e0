import Cbps.Obex.Requests
import Cbps.Obex.Unicode

/-!
# Allocating packets

What `obexNewPacket` returns and what it leaves behind. Its result is the room that is left for headers, so a packet
that takes all the room there is looks like a failure, though its header is claimed: `newPacket_atomic_iff`. A response
of the server then stays behind unsent, `sendResponse_empty_iff`.

`Room s 0` says that the packet lies inside what is claimed and under the limit; every function that frames or sends
keeps it.
-/

namespace Cbps.Obex

open Option

variable {s t : Session} {pkt : List UInt8} {len size : ℕ} {opcode : UInt8}

/-! ### A new packet -/

/-- The Connection ID header of a session, if it has one. -/
def connIDHeader (s : Session) : List UInt8 :=
  if s.connID ≠ obexInvalidUint32 then uint32Header obexConnectidHdr s.connID else []

/-- A session without a packet has room for none. -/
theorem Room.of_empty (h : s.pktLen = 0) : Room s 0 := ⟨by omega, by omega, by omega⟩

/-- The size of a packet's header by its opcode. -/
def pktBaseLen (opcode : UInt8) : ℕ :=
  if opcode = obexSetPath then obexPktSetpathHdrSize
  else if opcode = obexConnectOpcode then obexPktConnectHdrSize
  else obexPktHdrSize

theorem three_le_pktBaseLen (opcode : UInt8) : 3 ≤ pktBaseLen opcode := by
  rw [pktBaseLen]
  split
  · decide
  · split <;> decide

theorem pktHdrLen_eq (s : Session) (opcode : UInt8) :
    pktHdrLen s opcode = pktBaseLen opcode + (connIDHeader s).length := by
  rw [pktHdrLen, connIDHeader]
  split <;> rfl

/-- A new packet is refused where a packet is under way or the room is too small. -/
theorem obexNewPacket_refused (h : s.pktLen ≠ 0 ∨ obexSinkSlack s < pktHdrLen s opcode + size) :
    obexNewPacket s size opcode = (0, s) := by
  rw [obexNewPacket]
  by_cases hpkt : s.pktLen = 0
  · rw [if_neg (not_not_intro hpkt)]
    exact if_pos (h.resolve_left (not_not_intro hpkt))
  · exact if_pos hpkt

/-- Otherwise its header is claimed, and the result is the room behind it. -/
theorem obexNewPacket_claimed (hpkt : s.pktLen = 0) (h : pktHdrLen s opcode + size ≤ obexSinkSlack s) :
    ∃ t, obexNewPacket s size opcode = (obexSinkSlack s - pktHdrLen s opcode, t) ∧ Framed s t ∧
      t.pktLen = pktHdrLen s opcode ∧ Room t size ∧ ∃ header, t.packet = header ++ connIDHeader s := by
  have hempty : Room s 0 := .of_empty hpkt
  have hroom : Room s (pktHdrLen s opcode + size) := (room_iff_sinkSlack hempty _).mpr h
  have hsize := pktHdrLen_eq s opcode
  have hlimit := hroom.limit
  have hsink := hroom.sink
  have hfits := s.sink.fits
  obtain ⟨k, hclaim, -, hlen, hbuffer, -⟩ := obexSinkClaim_room (hroom.mono (Nat.le_add_right _ _))
  -- the session with the header claimed, up to the Connection ID
  generalize hu : (s.setSink k).setPktLen (pktBaseLen opcode) = u
  have hframed : Framed s u := hu ▸ (Framed.setSink s k).trans (Framed.setPktLen _ _)
  have hupkt : u.pktLen = pktBaseLen opcode := by rw [← hu]; rfl
  have huroom : Room u ((connIDHeader s).length + size) := by
    subst hu
    refine ⟨?_, ?_, ?_⟩
    · change pktBaseLen opcode ≤ k.claimed.length
      omega
    · change pktBaseLen opcode + _ ≤ s.maxPktLen
      omega
    · change pktBaseLen opcode + _ ≤ k.claimed.length + k.slack
      omega
  have hleft : u16 ((obexSinkSlack s : ℤ) - (pktHdrLen s opcode : ℤ)) = obexSinkSlack s - pktHdrLen s opcode := by
    have hslack := obexSinkSlack_eq hempty
    rw [u16]
    omega
  have hadd : ∃ t, Appended u t (connIDHeader s) ∧
      (if s.connID ≠ obexInvalidUint32 then
        (obexAddUint32Header ((s.setSink k).setPktLen (pktHdrLen s opcode - obexUintHdrSize)) obexConnectidHdr
          s.connID).2
      else (s.setSink k).setPktLen (pktHdrLen s opcode)) = t := by
    by_cases hconn : s.connID ≠ obexInvalidUint32
    · have hheader : connIDHeader s = uint32Header obexConnectidHdr s.connID := if_pos hconn
      have hbase : pktHdrLen s opcode - obexUintHdrSize = pktBaseLen opcode := by
        rw [hsize, hheader]
        exact Nat.add_sub_cancel _ _
      obtain ⟨t, ht, happ⟩ := obexAddUint32Header_appended (huroom.mono (by rw [hheader]; exact Nat.le_add_right _ _))
        obexConnectidHdr s.connID
      rw [if_pos hconn, hbase, hu, ht, hheader]
      exact ⟨t, happ, rfl⟩
    · have hheader : connIDHeader s = [] := if_neg hconn
      rw [if_neg hconn, hsize, hheader, List.length_nil, Nat.add_zero, hu]
      exact ⟨u, .nil huroom.packet, rfl⟩
  obtain ⟨t, happ, ht⟩ := hadd
  refine ⟨t, ?_, hframed.trans happ.framed, ?_, happ.room huroom, u.packet, happ.packet⟩
  · rw [obexNewPacket, if_neg (not_not_intro hpkt)]
    dsimp only
    rw [if_neg (Nat.not_lt.mpr h), hclaim]
    dsimp only
    rw [if_pos rfl, ← ht, hleft]
    rfl
  · rw [happ.pktLen, hupkt, hsize]

/-- What `obexNewPacket` is meant to do: it returns a count, with the header claimed, or 0 with nothing changed. -/
def AtomicNewPacket (s : Session) (size : ℕ) (opcode : UInt8) : Prop :=
  let (allocLen, t) := obexNewPacket s size opcode
  allocLen ≠ 0 ∧ t.pktLen = pktHdrLen s opcode ∧ t.pktLen ≤ t.sink.claimed.length ∨
    allocLen = 0 ∧ t.pktLen = s.pktLen

/-- The room there is is just what the header of a packet takes. -/
def ExactFit (s : Session) (size : ℕ) (opcode : UInt8) : Prop :=
  s.pktLen = 0 ∧ size = 0 ∧ obexSinkSlack s = pktHdrLen s opcode

/-- The allocation is atomic, but for the packet that takes all the room there is. -/
theorem newPacket_atomic_iff (s : Session) (size : ℕ) (opcode : UInt8) :
    AtomicNewPacket s size opcode ↔ ¬ ExactFit s size opcode := by
  have hpos : 0 < pktHdrLen s opcode := by
    have hbase := three_le_pktBaseLen opcode
    rw [pktHdrLen_eq]
    omega
  by_cases hrefused : s.pktLen ≠ 0 ∨ obexSinkSlack s < pktHdrLen s opcode + size
  · rw [AtomicNewPacket, obexNewPacket_refused hrefused]
    refine iff_of_true (.inr ⟨rfl, rfl⟩) ?_
    rintro ⟨hpkt, rfl, hslack⟩
    rcases hrefused with h | h
    · exact h hpkt
    · omega
  · obtain ⟨hpkt, hle⟩ := not_or.mp hrefused
    rw [not_not] at hpkt
    obtain ⟨t, ht, -, hlen, hroom, -⟩ := obexNewPacket_claimed hpkt (Nat.le_of_not_lt hle)
    rw [AtomicNewPacket, ht, ExactFit]
    dsimp only
    constructor
    · rintro (⟨hne, -⟩ | ⟨-, hsame⟩) ⟨-, -, hslack⟩
      · omega
      · omega
    · intro hfit
      refine .inl ⟨fun hzero => hfit ⟨hpkt, ?_, ?_⟩, hlen, hroom.packet⟩
      · omega
      · omega

/-! ### What does not touch the packet -/

/-- The packet, its limit and the sink are as they were. -/
structure SamePacket (s t : Session) : Prop where
  pktLen : t.pktLen = s.pktLen
  maxPktLen : t.maxPktLen = s.maxPktLen
  sink : t.sink = s.sink

theorem Room.same (h : Room s 0) (hst : SamePacket s t) : Room t 0 := by
  obtain ⟨hpkt, hmax, hsink⟩ := hst
  exact ⟨by rw [hpkt, hsink]; exact h.packet, by rw [hpkt, hmax]; exact h.limit,
    by rw [hpkt, hsink]; exact h.sink⟩

namespace SamePacket

theorem refl (s : Session) : SamePacket s s := ⟨rfl, rfl, rfl⟩

theorem trans {u : Session} (h : SamePacket s t) (h' : SamePacket t u) : SamePacket s u :=
  ⟨h'.pktLen.trans h.pktLen, h'.maxPktLen.trans h.maxPktLen, h'.sink.trans h.sink⟩

theorem emit (s : Session) (e : Effect) : SamePacket s (s.emit e) := ⟨rfl, rfl, rfl⟩

theorem setState (s : Session) (st : ObexState) : SamePacket s (s.setState st) := ⟨rfl, rfl, rfl⟩

theorem setSource (s : Session) (octets : List UInt8) : SamePacket s (s.setSource octets) := ⟨rfl, rfl, rfl⟩

theorem deleteSessionInd (s : Session) : SamePacket s (obexDeleteSessionInd s) := by
  rw [obexDeleteSessionInd]
  split
  · exact ⟨rfl, rfl, rfl⟩
  · exact ⟨rfl, rfl, rfl⟩

theorem connectCfm (s : Session) (status : ObexStatus) : SamePacket s (obexConnectCfm s status) := by
  rw [obexConnectCfm]
  split
  · exact ⟨rfl, rfl, rfl⟩
  · split
    · exact (emit s _).trans (deleteSessionInd _)
    · exact ⟨rfl, rfl, rfl⟩

theorem sourceEmpty (s : Session) : SamePacket s (obexSourceEmpty s) := by
  obtain ⟨source, srcUsed, es, heq, -⟩ := obexSourceEmpty_eq s
  rw [heq]
  exact ⟨rfl, rfl, rfl⟩

theorem deleteSessionTask (s : Session) : SamePacket s (obexDeleteSessionTask s) := by
  rw [obexDeleteSessionTask]
  split
  · exact ⟨rfl, rfl, rfl⟩
  · split
    · exact ⟨rfl, rfl, rfl⟩
    · exact ⟨rfl, rfl, rfl⟩

theorem handleRfcommDisconnect (s : Session) : SamePacket s (obexHandleRfcommDisconnect s) := by
  rw [obexHandleRfcommDisconnect]
  split
  · exact ((emit s _).trans (setState _ _)).trans (deleteSessionInd _)
  · exact ((emit s _).trans (setState _ _)).trans (deleteSessionTask _)

variable {r : Bool × ℕ × Session}

theorem authenticateResponse {pktLen : ℕ}
    (h : authenticateResponse s pkt len pktLen = some r) : SamePacket s r.2.2 := by
  rw [Obex.authenticateResponse] at h
  split at h
  · obtain ⟨⟨digest, n⟩, -, rfl⟩ := map_eq_some_iff.mp h
    rcases digest with - | digest
    · exact refl s
    · exact ⟨rfl, rfl, rfl⟩
  · rw [← some.inj h]
    exact refl s

theorem authenticateSession (h : obexAuthenticateSession s pkt len = some r) :
    SamePacket s r.2.2 := by
  rw [obexAuthenticateSession] at h
  split at h
  · rw [← some.inj h]
    exact refl s
  · split at h
    · dsimp only at h
      generalize ht : (if s.isObexInConnect then obexAuthReqInd s else s) = t at h
      have hst : SamePacket s t := by
        rw [← ht]
        split
        · exact emit s _
        · exact refl s
      obtain ⟨⟨digest, n⟩, -, hr⟩ := bind_eq_some_iff.mp h
      rcases digest with - | digest
      · rw [← some.inj hr]
        exact hst
      · exact (hst.trans (emit t _)).trans (authenticateResponse hr)
    · exact authenticateResponse h

end SamePacket

/-! ### What keeps the packet in its bounds -/

theorem pktLen_flushPacket (s : Session) (opcode : UInt8) : (obexFlushPacket s opcode).pktLen = 0 := by
  rw [obexFlushPacket, obexObjFlush, if_pos rfl]
  rfl

theorem pktLen_objFlush (s : Session) (out : Bool) : (obexObjFlush s out).pktLen = 0 := by
  rw [obexObjFlush]
  split <;> rfl

/-- Claimed octets that a header is going to take, without another look at the limit, lie under it. -/
def Fits (s : Session) (len : ℕ) : Prop := obexSinkSpace s ≥ len → s.pktLen + len ≤ s.maxPktLen

theorem obexSinkClaim_cases (h : Room s 0) (hfits : Fits s len) : obexSinkClaim s len = (false, s) ∨ Room s len := by
  have hpacket := h.packet
  by_cases hspace : obexSinkSpace s ≥ len
  · right
    have hclaimed : obexSinkSpace s = s.sink.claimed.length - s.pktLen := rfl
    exact ⟨hpacket, hfits hspace, by omega⟩
  · by_cases hslack : len > obexSinkSlack s
    · left
      rw [obexSinkClaim]
      dsimp only
      rw [if_neg hspace, if_pos hslack]
    · exact .inr ((room_iff_sinkSlack h _).mpr (Nat.le_of_not_lt hslack))

/-- `obexAddUnicodeHeader`, where it returns at all, is refused or appends its header. -/
theorem obexAddUnicodeHeader_cases {hdr before : UInt8} {str : List UInt8} {r : Bool × Session} (h : Room s 0)
    (hr : obexAddUnicodeHeader s hdr str before = some r) : r = (false, s) ∨
      ∃ t, r = (true, t) ∧ Appended s t (seqHeader hdr (textAt str (unicodeLength str before) str.length)) ∧
        Room t 0 := by
  by_cases hslack : obexSinkSlack s < unicodeLength str before + obexSeqHdrSize
  · left
    rw [obexAddUnicodeHeader] at hr
    dsimp only at hr
    rw [if_pos hslack] at hr
    exact (some.inj hr).symm
  · right
    have hroom : Room s (unicodeLength str before + 3) := (room_iff_sinkSlack h _).mpr (Nat.le_of_not_lt hslack)
    by_cases h256 : str.length < 256
    · obtain ⟨t, ht, happ⟩ := obexAddUnicodeHeader_appended h256 hroom hdr
      refine ⟨t, some.inj (hr.symm.trans ht), happ, happ.room (hroom.mono ?_)⟩
      rw [length_seqHeader, length_textAt (two_mul_le_unicodeLength before (by omega)) h256]
    · -- the copy loop never returns
      obtain ⟨t, hempty, -⟩ := obexAddEmptyHeader_appended (hroom.mono (Nat.le_add_left _ _)) hdr
      rw [obexAddUnicodeHeader] at hr
      dsimp only at hr
      rw [if_neg hslack, hempty] at hr
      dsimp only at hr
      rw [if_pos rfl, unicodeLoop_long (Nat.le_of_not_lt h256)] at hr
      exact absurd hr (by simp)

namespace Room

theorem ite {c : Prop} [Decidable c] (ht : Room s 0) (hu : Room t 0) : Room (if c then s else t) 0 := by
  split
  · exact ht
  · exact hu

theorem flushPacket (s : Session) (opcode : UInt8) : Room (obexFlushPacket s opcode) 0 :=
  .of_empty (pktLen_flushPacket s opcode)

theorem newPacket (h : Room s 0) (size : ℕ) (opcode : UInt8) : Room (obexNewPacket s size opcode).2 0 := by
  by_cases hrefused : s.pktLen ≠ 0 ∨ obexSinkSlack s < pktHdrLen s opcode + size
  · rw [obexNewPacket_refused hrefused]
    exact h
  · obtain ⟨hpkt, hle⟩ := not_or.mp hrefused
    obtain ⟨t, ht, -, -, hroom, -⟩ := obexNewPacket_claimed (not_not.mp hpkt) (Nat.le_of_not_lt hle)
    rw [ht]
    exact hroom.mono (Nat.zero_le _)

theorem addUint32Header (h : Room s 0) (hfits : Fits s obexUintHdrSize) (value : ℕ) :
    Room (obexAddUint32Header s opcode value).2 0 := by
  rcases obexSinkClaim_cases h hfits with hclaim | hroom
  · rw [obexAddUint32Header, hclaim]
    exact h
  · obtain ⟨t, ht, happ⟩ := obexAddUint32Header_appended hroom opcode value
    rw [ht]
    exact happ.room hroom

theorem addEmptyHeader (h : Room s 0) (hdr : UInt8) (hfits : Fits s (u16 (obexSeqHdrSize + size))) :
    Room (obexAddEmptyHeader s hdr size).2 0 := by
  rw [obexAddEmptyHeader]
  dsimp only
  generalize u16 ((obexSeqHdrSize : ℤ) + (size : ℤ)) = hdrLen at hfits ⊢
  rcases obexSinkClaim_cases h hfits with hclaim | hroom
  · rw [hclaim]
    exact h
  · obtain ⟨k, hclaim, -, hlen, hbuffer, -⟩ := obexSinkClaim_room hroom
    have hlimit := hroom.limit
    have hfits := k.fits
    have hu16 : u16 ((s.pktLen : ℤ) + (hdrLen : ℤ)) = s.pktLen + hdrLen := by
      rw [u16]
      omega
    rw [hclaim]
    dsimp only
    rw [if_pos rfl]
    refine ⟨?_, ?_, ?_⟩
    · change u16 ((s.pktLen : ℤ) + (hdrLen : ℤ)) ≤ _
      rw [hu16]
      simpa [Session.store, Session.setSink, Session.setPktLen, Sink.store] using hlen
    · change u16 ((s.pktLen : ℤ) + (hdrLen : ℤ)) ≤ s.maxPktLen
      omega
    · change u16 ((s.pktLen : ℤ) + (hdrLen : ℤ)) ≤ _
      rw [hu16]
      refine Nat.le_trans ?_ (Nat.le_add_right _ _)
      simpa [Session.store, Session.setSink, Session.setPktLen, Sink.store] using hlen

theorem addSeqHeader (h : Room s 0) (hdr : UInt8) (src : List UInt8) : Room (obexAddSeqHeader s hdr src).2 0 := by
  rcases obexAddSeqHeader_cases h hdr src with heq | ⟨t, heq, -, hroom⟩
  · rw [heq]
    exact h
  · rw [heq]
    exact hroom

theorem addUnicodeHeader {hdr before : UInt8} {str : List UInt8} {r : Bool × Session} (h : Room s 0)
    (hr : obexAddUnicodeHeader s hdr str before = some r) : Room r.2 0 := by
  rcases obexAddUnicodeHeader_cases h hr with rfl | ⟨t, rfl, -, hroom⟩
  · exact h
  · exact hroom

end Room

/-! ### Responses -/

/-- A response leaves nothing of a packet behind, but for the header that takes all the room there is. -/
theorem sendResponse_empty_iff (s : Session) (response : ObexStatus) :
    (obexSendResponse s response).pktLen = 0 ↔ ¬ ExactFit s 0 obexPut := by
  rw [obexSendResponse]
  generalize (if response = ObexStatus.success then ObexStatus.remoteSuccess
    else if response < ObexStatus.continue then ObexStatus.unknownError else response) = octet
  have hstate : ∀ u : Session, (if octet = ObexStatus.continue then u else u.setState .connected).pktLen = u.pktLen := by
    intro u
    split <;> rfl
  dsimp only
  rw [hstate]
  by_cases hpkt : s.pktLen = 0
  · rw [if_neg (not_not_intro hpkt)]
    by_cases hrefused : obexSinkSlack s < pktHdrLen s obexPut + 0
    · rw [obexNewPacket_refused (.inr hrefused)]
      refine iff_of_true hpkt ?_
      rintro ⟨-, -, hslack⟩
      omega
    · obtain ⟨t, ht, -, hlen, -⟩ := obexNewPacket_claimed hpkt (Nat.le_of_not_lt hrefused)
      have hbase := three_le_pktBaseLen obexPut
      have hsize := pktHdrLen_eq s obexPut
      rw [ht, ExactFit]
      dsimp only
      by_cases hleft : obexSinkSlack s - pktHdrLen s obexPut ≠ 0
      · rw [if_pos (decide_eq_true hleft)]
        refine iff_of_true (pktLen_flushPacket _ _) ?_
        rintro ⟨-, -, hslack⟩
        omega
      · rw [if_neg (by simpa using hleft), hlen]
        refine iff_of_false (by omega) (not_not_intro ⟨hpkt, rfl, by omega⟩)
  · rw [if_pos hpkt, if_pos rfl]
    exact iff_of_true (pktLen_flushPacket _ _) fun h => hpkt h.1

end Cbps.Obex
