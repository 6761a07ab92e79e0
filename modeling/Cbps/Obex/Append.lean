import Cbps.Obex.Frame

/-!
# Appending to the outgoing packet

`Room s n` says that `n` more octets fit into the packet, in the sink and under the packet
size, and `Appended s t octets` that `t` is `s` with these octets behind its packet. A header
function in a session with room for its header returns TRUE and appends it.
-/

namespace Cbps.Obex

open Lib List

open Lib (writeAt)

/-! ### Room -/

/-- The packet lies in the claimed octets, and `total` more octets fit behind it. -/
structure Room (s : Session) (total : ℕ) : Prop where
  packet : s.pktLen ≤ s.sink.claimed.length
  limit : s.pktLen + total ≤ s.maxPktLen
  sink : s.pktLen + total ≤ s.sink.claimed.length + s.sink.slack

variable {s : Session}

theorem Room.mono {m n : ℕ} (h : Room s n) (hmn : m ≤ n) : Room s m where
  packet := h.packet
  limit := Nat.le_trans (Nat.add_le_add_left hmn _) h.limit
  sink := Nat.le_trans (Nat.add_le_add_left hmn _) h.sink

theorem obexSinkSlack_eq (h : Room s 0) :
    obexSinkSlack s = min s.maxPktLen (s.sink.claimed.length + s.sink.slack) - s.pktLen := by
  have hfits := s.sink.fits
  have hlimit := h.limit
  have hsink := h.sink
  have hsum : u16 ((s.sink.slack : ℤ) + (s.sink.claimed.length : ℤ)) =
      s.sink.claimed.length + s.sink.slack := by
    rw [u16]
    omega
  rw [obexSinkSlack]
  simp only [hsum]
  split
  · rw [u16]
    omega
  · rw [u16]
    omega

/-- What `obexSinkSlack` admits is room. -/
theorem room_iff_sinkSlack (h : Room s 0) (n : ℕ) :
    Room s n ↔ n ≤ obexSinkSlack s := by
  have hlimit := h.limit
  have hsink := h.sink
  rw [obexSinkSlack_eq h]
  refine ⟨fun hn => ?_, fun hn => ⟨h.packet, by omega, by omega⟩⟩
  have := hn.limit
  have := hn.sink
  omega

/-- A claim with room succeeds, keeps the packet and makes the octets accessible. -/
theorem obexSinkClaim_room {len : ℕ} (h : Room s len) :
    ∃ k, obexSinkClaim s len = (true, s.setSink k) ∧
      k.claimed.take s.pktLen = s.packet ∧ s.pktLen + len ≤ k.claimed.length ∧
      k.claimed.length + k.slack = s.sink.claimed.length + s.sink.slack ∧
      (obexSinkSpace s ≥ len → k = s.sink) := by
  have hpacket := h.packet
  have hsink := h.sink
  have hfits := s.sink.fits
  have hspace : obexSinkSpace s = s.sink.claimed.length - s.pktLen := rfl
  rw [obexSinkClaim]
  by_cases hge : obexSinkSpace s ≥ len
  · refine ⟨s.sink, ?_, rfl, by omega, rfl, fun _ => rfl⟩
    simp only [if_pos hge]
    rfl
  · have hslack : ¬ len > obexSinkSlack s := by
      have := (room_iff_sinkSlack (h.mono (Nat.zero_le _)) len).mp h
      omega
    have hextra : u16 ((len : ℤ) - (u16 (obexSinkSpace s) : ℤ)) =
        len - (s.sink.claimed.length - s.pktLen) := by
      rw [u16, u16]
      omega
    have hle : len - (s.sink.claimed.length - s.pktLen) ≤ s.sink.slack := by omega
    have hlast : s.sink.claimed.length ≠ obexInvalidUint16 := by
      rw [obexInvalidUint16]
      omega
    simp only [if_neg hge, if_neg hslack, hextra, Sink.claim, dif_pos hle]
    refine ⟨_, Prod.ext (decide_eq_true hlast) rfl, ?_, ?_, ?_, fun hc => absurd hc hge⟩
    · rw [take_append_of_le_length hpacket]
      rfl
    · rw [length_append, length_replicate]
      omega
    · simp only [length_append, length_replicate]
      omega

/-! ### Appending to the packet -/

/-- `t` is `s` with `octets` appended to the packet, in the same buffer. -/
structure Appended (s t : Session) (octets : List UInt8) : Prop where
  framed : Framed s t
  pktLen : t.pktLen = s.pktLen + octets.length
  packet : t.packet = s.packet ++ octets
  claimed : t.pktLen ≤ t.sink.claimed.length
  buffer : t.sink.claimed.length + t.sink.slack = s.sink.claimed.length + s.sink.slack

theorem Appended.nil (h : s.pktLen ≤ s.sink.claimed.length) : Appended s s [] where
  framed := Framed.refl s
  pktLen := rfl
  packet := (append_nil _).symm
  claimed := h
  buffer := rfl

theorem Appended.trans {s t u : Session} {xs ys : List UInt8} (h : Appended s t xs)
    (h' : Appended t u ys) : Appended s u (xs ++ ys) where
  framed := h.framed.trans h'.framed
  pktLen := by rw [h'.pktLen, h.pktLen, length_append, Nat.add_assoc]
  packet := by rw [h'.packet, h.packet, append_assoc]
  claimed := h'.claimed
  buffer := h'.buffer.trans h.buffer

theorem Framed.maxPktLen_eq {s t : Session} (h : Framed s t) : t.maxPktLen = s.maxPktLen := by
  obtain ⟨n, k, rfl⟩ := h
  rfl

/-- Appending uses up the room. -/
theorem Appended.room {s t : Session} {octets : List UInt8} {n : ℕ} (h : Appended s t octets)
    (hroom : Room s (octets.length + n)) : Room t n := by
  have hlimit := hroom.limit
  have hsink := hroom.sink
  have hlen := h.pktLen
  have hbuffer := h.buffer
  have hmax := h.framed.maxPktLen_eq
  exact ⟨h.claimed, by omega, by omega⟩

/-- Claiming and storing at the end of the packet appends. -/
theorem appended_store {k : Sink} (octets : List UInt8)
    (hpacket : k.claimed.take s.pktLen = s.packet)
    (hlen : s.pktLen + octets.length ≤ k.claimed.length)
    (hbuffer : k.claimed.length + k.slack = s.sink.claimed.length + s.sink.slack) :
    Appended s (((s.setSink k).store s.pktLen octets).setPktLen
      (u16 (s.pktLen + octets.length))) octets := by
  have hfits := k.fits
  have hu16 : u16 ((s.pktLen : ℤ) + (octets.length : ℤ)) = s.pktLen + octets.length := by
    rw [u16]
    omega
  refine ⟨?_, hu16, ?_, ?_, ?_⟩
  · exact (Framed.setSink s k).trans ((Framed.store _ _ _).trans (Framed.setPktLen _ _))
  · rw [hu16, ← hpacket]
    exact take_writeAt_end hlen
  · rw [hu16]
    exact Nat.le_trans hlen (Nat.le_of_eq (length_writeAt _ _ _).symm)
  · rw [← hbuffer]
    exact congrArg (· + k.slack) (length_writeAt _ _ _)

/-- The octets of a header with a length field. -/
def seqHeader (hdr : UInt8) (body : List UInt8) : List UInt8 :=
  hdr :: (uint16ToUint8 (body.length + obexSeqHdrSize) ++ body)

def uint32Header (op : UInt8) (value : ℕ) : List UInt8 :=
  [op, UInt8.ofNat (value / 2 ^ 24), UInt8.ofNat (value / 2 ^ 16), UInt8.ofNat (value / 2 ^ 8),
    UInt8.ofNat value]

@[simp] theorem length_seqHeader (hdr : UInt8) (body : List UInt8) :
    (seqHeader hdr body).length = body.length + 3 := by
  simp [seqHeader, uint16ToUint8]

@[simp] theorem length_uint32Header (op : UInt8) (value : ℕ) :
    (uint32Header op value).length = 5 := rfl

theorem obexAddUint32Header_appended (h : Room s 5) (op : UInt8) (value : ℕ) :
    ∃ t, obexAddUint32Header s op value = (true, t) ∧ Appended s t (uint32Header op value) := by
  obtain ⟨k, hclaim, hpacket, hlen, hbuffer, -⟩ := obexSinkClaim_room h
  rw [obexAddUint32Header, show obexUintHdrSize = 5 from rfl, hclaim]
  exact ⟨_, rfl, appended_store (uint32Header op value) hpacket hlen hbuffer⟩

theorem obexAddUint8Header_appended (h : Room s 2) (op value : UInt8) :
    ∃ t, obexAddUint8Header s op value = (true, t) ∧ Appended s t [op, value] := by
  obtain ⟨k, hclaim, hpacket, hlen, hbuffer, -⟩ := obexSinkClaim_room h
  rw [obexAddUint8Header, show obexByteHdrSize = 2 from rfl, hclaim]
  exact ⟨_, rfl, appended_store [op, value] hpacket hlen hbuffer⟩

theorem obexAddEmptyHeader_appended (h : Room s 3) (hdr : UInt8) :
    ∃ t, obexAddEmptyHeader s hdr 0 = (true, t) ∧ Appended s t [hdr, 0, 3] := by
  obtain ⟨k, hclaim, hpacket, hlen, hbuffer, -⟩ := obexSinkClaim_room h
  rw [obexAddEmptyHeader, show u16 (obexSeqHdrSize + (0 : ℕ)) = 3 from rfl, hclaim]
  exact ⟨_, rfl, appended_store [hdr, 0, 3] hpacket hlen hbuffer⟩

/-- Correcting the length field of the header that ends the packet. -/
theorem appended_length {s t : Session} {hdr a b : UInt8} {body : List UInt8}
    (h : Appended s t (hdr :: a :: b :: body)) (hs : s.pktLen ≤ s.sink.claimed.length) (x : ℕ) :
    Appended s (t.store (s.pktLen + 1) (uint16ToUint8 x)) (hdr :: (uint16ToUint8 x ++ body)) := by
  have hplen : s.packet.length = s.pktLen := length_take_of_le hs
  have hpacket := h.packet
  refine ⟨h.framed.trans (Framed.store _ _ _), h.pktLen, ?_, ?_, ?_⟩
  · have hstore : (t.store (s.pktLen + 1) (uint16ToUint8 x)).packet =
        writeAt t.packet (s.pktLen + 1) (uint16ToUint8 x) := take_writeAt_comm _ _ _ _
    rw [hstore, hpacket, ← hplen, writeAt_append_right]
    rfl
  · exact Nat.le_trans h.claimed (Nat.le_of_eq (length_writeAt _ _ _).symm)
  · rw [← h.buffer]
    exact congrArg (· + t.sink.slack) (length_writeAt _ _ _)

/-- `obexAddSeqHeader` appends its header. -/
theorem obexAddSeqHeader_appended {src : List UInt8} (h : Room s (src.length + 3))
    (hdr : UInt8) :
    ∃ t, obexAddSeqHeader s hdr src = (true, t) ∧ Appended s t (seqHeader hdr src) := by
  have hfits := s.sink.fits
  have hsink := h.sink
  obtain ⟨t, hempty, happ⟩ := obexAddEmptyHeader_appended (h.mono (by omega)) hdr
  have hslack := (room_iff_sinkSlack (h.mono (Nat.zero_le _)) _).mp h
  have hroom : Room t src.length := happ.room (by rw [Nat.add_comm]; exact h)
  have hsize : u16 ((src.length : ℤ) + (obexSeqHdrSize : ℤ)) = src.length + obexSeqHdrSize := by
    rw [u16, obexSeqHdrSize]
    omega
  rw [obexAddSeqHeader, if_neg (by rw [obexSeqHdrSize]; omega)]
  simp only [hempty, hsize, if_true]
  refine ⟨_, rfl, ?_⟩
  have hdest : s.pktLen + 3 = t.pktLen := happ.pktLen.symm
  refine appended_length (a := 0) (b := 3) ?_ h.packet _
  change Appended s _ ([hdr, 0, 3] ++ src)
  refine happ.trans ?_
  by_cases hspace : obexSinkSpace t ≠ 0
  · obtain ⟨k, hclaim, hpacket, hlen, hbuffer, -⟩ := obexSinkClaim_room hroom
    rw [if_pos hspace, hclaim, hdest]
    exact appended_store src hpacket hlen hbuffer
  · have hend : t.sink.claimed.length = t.pktLen := by
      have := hroom.packet
      rw [obexSinkSpace] at hspace
      omega
    have hmove : src.length ≤ t.sink.slack := by
      have := hroom.sink
      omega
    have hu16 : u16 ((t.pktLen : ℤ) + (src.length : ℤ)) = t.pktLen + src.length := by
      have := t.sink.fits
      rw [u16]
      omega
    have hclaimed : (t.sink.move src).claimed = t.packet ++ src := by
      rw [Sink.move, dif_pos hmove, Session.packet, take_of_length_le (Nat.le_of_eq hend)]
    rw [if_neg hspace]
    refine ⟨(Framed.setSink _ _).trans (Framed.setPktLen _ _), hu16, ?_, ?_, ?_⟩
    · change (t.sink.move src).claimed.take (u16 ((t.pktLen : ℤ) + (src.length : ℤ))) = _
      rw [hclaimed]
      refine take_of_length_le ?_
      rw [length_append, Session.packet, length_take_of_le hroom.packet]
      exact Nat.le_of_eq hu16.symm
    · change u16 ((t.pktLen : ℤ) + (src.length : ℤ)) ≤ (t.sink.move src).claimed.length
      rw [hclaimed, length_append, Session.packet, length_take_of_le hroom.packet]
      exact Nat.le_of_eq hu16
    · change (t.sink.move src).claimed.length + (t.sink.move src).slack = _
      rw [Sink.move, dif_pos hmove]
      simp only [length_append]
      omega

/-- A header is appended or, if it does not fit, nothing happens. -/
theorem obexAddSeqHeader_cases (h : Room s 0) (hdr : UInt8) (src : List UInt8) :
    obexAddSeqHeader s hdr src = (false, s) ∨
      ∃ t, obexAddSeqHeader s hdr src = (true, t) ∧ Appended s t (seqHeader hdr src) ∧
        Room t 0 := by
  by_cases hslack : obexSinkSlack s < src.length + obexSeqHdrSize
  · left
    rw [obexAddSeqHeader, if_pos hslack]
  · right
    have hroom : Room s (src.length + 3) :=
      (room_iff_sinkSlack h _).mpr (Nat.le_of_not_lt hslack)
    obtain ⟨t, ht, happ⟩ := obexAddSeqHeader_appended hroom hdr
    exact ⟨t, ht, happ, happ.room (by rw [length_seqHeader]; exact hroom)⟩

/-! ### Starting and flushing a packet -/

/-- A new packet of a session without a connection ID is its header. -/
theorem obexNewPacket_room {s t : Session} {size n : ℕ} {opcode : UInt8} (hpkt : s.pktLen = 0)
    (hconn : s.connID = obexInvalidUint32) (h : obexNewPacket s size opcode = (n, t))
    (hn : n ≠ 0) :
    Framed s t ∧ t.pktLen = pktHdrLen s opcode ∧ Room t size := by
  have hempty : Room s 0 := ⟨by omega, by omega, by omega⟩
  rw [obexNewPacket, if_neg (by simp [hpkt])] at h
  dsimp only at h
  split at h
  · exact absurd (congrArg Prod.fst h).symm hn
  · rename_i hslack
    have hroom := (room_iff_sinkSlack hempty _).mpr (Nat.le_of_not_lt hslack)
    obtain ⟨k, hclaim, -, hlen, hbuffer, -⟩ := obexSinkClaim_room (hroom.mono (Nat.le_add_right _ _))
    have hlimit := hroom.limit
    have hsink := hroom.sink
    rw [hclaim] at h
    obtain ⟨-, rfl⟩ := Prod.mk.inj h
    have hconn' : (s.setSink k).connID = obexInvalidUint32 := hconn
    rw [if_neg (not_not_intro hconn')]
    refine ⟨(Framed.setSink s k).trans (Framed.setPktLen _ _), rfl, ?_, ?_, ?_⟩
    · change pktHdrLen s opcode ≤ k.claimed.length
      omega
    · change pktHdrLen s opcode + size ≤ s.maxPktLen
      omega
    · change pktHdrLen s opcode + size ≤ k.claimed.length + k.slack
      omega

theorem Room.store {n : ℕ} (h : Room s n) (off : ℕ) (octets : List UInt8) :
    Room (s.store off octets) n := by
  have hlen : (s.store off octets).sink.claimed.length = s.sink.claimed.length :=
    length_writeAt _ _ _
  have hpacket := h.packet
  have hsink := h.sink
  refine ⟨?_, h.limit, ?_⟩
  · rw [hlen]
    exact hpacket
  · rw [hlen]
    exact hsink

/-- `obexSourceEmpty` works on the source only, and may wake the session up. -/
theorem obexSourceEmpty_eq (s : Session) : ∃ source srcUsed es, obexSourceEmpty s =
    { s with source := source, srcUsed := srcUsed, log := s.log ++ es } ∧
      ∀ e ∈ es, e = .moreData := by
  have hdrop : ∃ source srcUsed, (if s.srcUsed ≠ 0 then (s.sourceDrop s.srcUsed).setSrcUsed 0
      else s) = { s with source := source, srcUsed := srcUsed } := by
    split
    · exact ⟨_, _, rfl⟩
    · exact ⟨s.source, s.srcUsed, rfl⟩
  obtain ⟨source, srcUsed, hdrop⟩ := hdrop
  rw [obexSourceEmpty, hdrop]
  split
  · exact ⟨source, srcUsed, [.moreData], rfl, fun e he => mem_singleton.mp he⟩
  · exact ⟨source, srcUsed, [], by rw [append_nil], by simp⟩

theorem obexObjFlush_eq (h : s.pktLen ≤ s.sink.claimed.length) :
    ∃ k, obexObjFlush s true =
      { s with sink := k, pktLen := 0, log := s.log ++ [.flushed s.packet] } := by
  rw [obexObjFlush, if_pos rfl, Sink.flush, if_pos h]
  exact ⟨_, rfl⟩

/-- Overwriting the first three octets of a packet. -/
theorem packet_store_store (h : s.pktLen ≤ s.sink.claimed.length)
    (h3 : 3 ≤ s.pktLen) (op a b : UInt8) :
    ((s.store 0 [op]).store 1 [a, b]).packet = op :: a :: b :: s.packet.drop 3 := by
  have hlen : s.packet.length = s.pktLen := length_take_of_le h
  have htake : ((s.store 0 [op]).store 1 [a, b]).packet =
      writeAt (writeAt s.packet 0 [op]) 1 [a, b] := by
    change (writeAt (writeAt s.sink.claimed 0 [op]) 1 [a, b]).take s.pktLen = _
    rw [take_writeAt_comm, take_writeAt_comm]
    rfl
  rw [htake]
  match hpacket : s.packet with
  | [] | [_] | [_, _] => simp [hpacket] at hlen; omega
  | x :: y :: z :: rest => rfl

/-- A packet goes out with its opcode and its length, and the next one starts empty. -/
theorem obexFlushPacket_eq (h : s.pktLen ≤ s.sink.claimed.length)
    (h3 : 3 ≤ s.pktLen) (opcode : UInt8) : ∃ source srcUsed k es, obexFlushPacket s opcode =
      { s with
        source := source, srcUsed := srcUsed, sink := k, pktLen := 0
        log := s.log ++ es ++
          [.flushed (opcode :: (uint16ToUint8 s.pktLen ++ s.packet.drop 3))] } ∧
      ∀ e ∈ es, e = .moreData := by
  obtain ⟨source, srcUsed, es, heq, hes⟩ := obexSourceEmpty_eq s
  rw [obexFlushPacket, heq]
  generalize ht : ({ s with source := source, srcUsed := srcUsed, log := s.log ++ es } : Session) = t
  have hclaimed : t.pktLen ≤ t.sink.claimed.length := by
    rw [← ht]
    exact h
  have hlen : ((t.store 0 [opcode]).store 1 (uint16ToUint8 t.pktLen)).sink.claimed.length =
      t.sink.claimed.length := (length_writeAt _ _ _).trans (length_writeAt _ _ _)
  obtain ⟨k, hk⟩ := obexObjFlush_eq (s := (t.store 0 [opcode]).store 1 (uint16ToUint8 t.pktLen))
    (Nat.le_trans hclaimed (Nat.le_of_eq hlen.symm))
  refine ⟨source, srcUsed, k, es, hk.trans ?_, hes⟩
  rw [uint16ToUint8, packet_store_store hclaimed (by rw [← ht]; exact h3), ← ht]
  rfl

end Cbps.Obex
