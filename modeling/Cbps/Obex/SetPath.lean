import Cbps.Obex.Allocation
import Cbps.Obex.History
import Cbps.Obex.Scan

/-!
# SETPATH from the client to the server

The client puts the direction into octet 3 of a SETPATH packet, behind the opcode and the length, and the folder name
into a Name header at its end, `setPathSent_eq`. The server takes the direction from octet 0, which is the opcode, and
looks for the name from there on. So every SETPATH is indicated as one to the root, `setPathInd_final`, and the two
agree exactly where it is one: `setPathAgrees_iff`.
-/

namespace Cbps.Obex

open List Option

open Lib (writeAt)

variable {c s t : Session} {flags : ObexFolderPath} {folderName pkt beyond : List UInt8}

/-! ### What the client sends -/

/-- The folder name that a request sends: none to the root. -/
def sentName (flags : ObexFolderPath) (folderName : List UInt8) : List UInt8 :=
  if flags = .folderRoot then [] else folderName

/-- The flags that a request sends: the way to the root is the one into a folder without a name. -/
def sentFlags (flags : ObexFolderPath) : ObexFolderPath := if flags = .folderRoot then .folderIn else flags

/-- A request that sends a packet. -/
def SetPathSent (c : Session) (flags : ObexFolderPath) (folderName pkt : List UInt8) : Prop :=
  ∃ t es, obexSetPathRequest c flags folderName = some t ∧ t.log = c.log ++ es ∧ .flushed pkt ∈ es

/-- The Name header of a request, with the name as it is copied. -/
def nameHeader (name : List UInt8) : List UInt8 :=
  if name = [] then [obexNameHdr, 0, 3] else seqHeader obexNameHdr (textAt name (unicodeLength name 0) name.length)

/-- A SETPATH packet. -/
def setPathPacket (connID : List UInt8) (flag : UInt8) (name : List UInt8) : List UInt8 :=
  obexSetPath :: (uint16ToUint8 (5 + (connID ++ name).length) ++ flag :: 0 :: (connID ++ name))

/-- A claim that succeeds makes the octets accessible, with or without room for them. -/
theorem obexSinkClaim_true {len : ℕ} (h : Room s 0) (hclaim : obexSinkClaim s len = (true, t)) :
    ∃ k, t = s.setSink k ∧ k.claimed.take s.pktLen = s.packet ∧ s.pktLen + len ≤ k.claimed.length ∧
      k.claimed.length + k.slack = s.sink.claimed.length + s.sink.slack := by
  by_cases hspace : obexSinkSpace s ≥ len
  · rw [obexSinkClaim] at hclaim
    dsimp only at hclaim
    rw [if_pos hspace] at hclaim
    have hclaimed : obexSinkSpace s = s.sink.claimed.length - s.pktLen := rfl
    exact ⟨s.sink, (Prod.mk.inj hclaim).2.symm, rfl, by omega, rfl⟩
  · have hfits : Fits s len := fun h => absurd h hspace
    rcases obexSinkClaim_cases h hfits with heq | hroom
    · rw [heq] at hclaim
      exact absurd (Prod.mk.inj hclaim).1 (by decide)
    · obtain ⟨k, heq, hpacket, hlen, hbuffer, -⟩ := obexSinkClaim_room hroom
      rw [heq] at hclaim
      exact ⟨k, (Prod.mk.inj hclaim).2.symm, hpacket, hlen, hbuffer⟩

/-- The Name header that a request adds, if it is added. -/
theorem appended_nameHeader {name : List UInt8} (h : Room s 0)
    (hadd : obexAddNameHdr s (if name = [] then none else some (name, 0)) = some (true, t)) :
    Appended s t (nameHeader name) := by
  by_cases hname : name = []
  · rw [if_pos hname] at hadd
    rw [nameHeader, if_pos hname]
    have hempty : obexAddEmptyHeader s obexNameHdr 0 = (true, t) := some.inj hadd
    rw [obexAddEmptyHeader, show u16 (obexSeqHdrSize + (0 : ℕ)) = 3 from rfl] at hempty
    dsimp only at hempty
    rcases hclaim : obexSinkClaim s 3 with ⟨_ | _, u⟩
    · rw [hclaim] at hempty
      exact absurd (Prod.mk.inj hempty).1 (by decide)
    · obtain ⟨k, rfl, hpacket, hlen, hbuffer⟩ := obexSinkClaim_true h hclaim
      rw [hclaim] at hempty
      obtain ⟨-, rfl⟩ := Prod.mk.inj hempty
      exact appended_store [obexNameHdr, 0, 3] hpacket hlen hbuffer
  · rw [if_neg hname] at hadd
    rw [nameHeader, if_neg hname]
    have hunicode : obexAddUnicodeHeader s obexNameHdr name 0 = some (true, t) := hadd
    rcases obexAddUnicodeHeader_cases h hunicode with heq | ⟨u, heq, happ, -⟩
    · exact absurd (Prod.mk.inj heq).1 (by decide)
    · obtain ⟨-, rfl⟩ := Prod.mk.inj heq
      exact happ

theorem packet_store (s : Session) (off : ℕ) (octets : List UInt8) :
    (s.store off octets).packet = writeAt s.packet off octets :=
  Lib.take_writeAt_comm _ _ _ _

theorem packet_newPacket {size : ℕ} (hn : (obexNewPacket c size obexSetPath).1 ≠ 0)
    (ht : (obexNewPacket c size obexSetPath).2 = t) :
    Room t 0 ∧ ∃ header, header.length = 5 ∧ t.packet = header ++ connIDHeader c := by
  by_cases hrefused : c.pktLen ≠ 0 ∨ obexSinkSlack c < pktHdrLen c obexSetPath + size
  · rw [obexNewPacket_refused hrefused] at hn
    exact absurd rfl hn
  · obtain ⟨hpkt, hle⟩ := not_or.mp hrefused
    obtain ⟨u, hu, -, hlen, hroom, header, hheader⟩ := obexNewPacket_claimed (not_not.mp hpkt) (Nat.le_of_not_lt hle)
    rw [hu] at ht
    obtain rfl : u = t := ht
    refine ⟨hroom.mono (Nat.zero_le _), header, ?_, hheader⟩
    have hpacket : u.packet.length = u.pktLen := length_take_of_le hroom.packet
    rw [hheader, hlen, pktHdrLen_eq, length_append] at hpacket
    exact Nat.add_right_cancel hpacket

/-- A framed packet with its flags goes out. -/
theorem log_setPathReq {header : List UInt8} {connID name : List UInt8} {flag : UInt8}
    (hclaimed : s.pktLen ≤ s.sink.claimed.length) (hheader : header.length = 5) (hpacket : s.packet = header ++ (connID ++ name)) (hconnected : s.isObexConnected) :
    ∃ es, (obexSetPathReq s flag).log = s.log ++ es ++ [.flushed (setPathPacket connID flag name)] ∧
      ∀ e ∈ es, e = .moreData := by
  have hlen : s.packet.length = s.pktLen := length_take_of_le hclaimed
  have h3 : 3 ≤ s.pktLen := by
    rw [← hlen, hpacket, length_append]
    omega
  have hstore : (s.store 3 [flag, 0]).sink.claimed.length = s.sink.claimed.length := Lib.length_writeAt _ _ _
  obtain ⟨source, srcUsed, k, es, heq, hes⟩ :=
    @obexFlushPacket_eq (s.store 3 [flag, 0]) (Nat.le_trans hclaimed (Nat.le_of_eq hstore.symm)) h3 obexSetPath
  rw [obexSetPathReq, if_pos hconnected, heq]
  refine ⟨es, ?_, hes⟩
  have hstored : (s.store 3 [flag, 0]).packet.drop 3 = flag :: 0 :: (connID ++ name) := by
    rw [packet_store, hpacket]
    match header, hheader with
    | [a, b, c, d, e], _ => rfl
  have hsize : (s.store 3 [flag, 0]).pktLen = 5 + (connID ++ name).length := by
    change s.pktLen = _
    rw [← hlen, hpacket, length_append, hheader]
  rw [hstored, hsize]
  rfl

/-- A request sends at most one packet: the header, the Connection ID and the name. -/
theorem setPathSent_eq (hsent : SetPathSent c flags folderName pkt) :
    pkt = setPathPacket (connIDHeader c) (sentFlags flags).toUInt8 (nameHeader (sentName flags folderName)) := by
  obtain ⟨t, es, ht, hlog, hpkt⟩ := hsent
  rw [obexSetPathRequest] at ht
  dsimp only at ht
  rw [← sentName, ← sentFlags] at ht
  generalize sentName flags folderName = name at ht ⊢
  generalize (sentFlags flags).toUInt8 = flag at ht ⊢
  -- a confirmation is not a packet
  have hrefused : ∀ m, t.log ≠ c.log ++ [.app m] := by
    intro m h
    rw [hlog, append_cancel_left_eq] at h
    rw [h] at hpkt
    exact absurd (mem_singleton.mp hpkt) (by simp)
  have hframed := Framed.newPacket c (u16 (name.length * 2)) obexSetPath
  split at ht
  · obtain ⟨n, k, heq⟩ := hframed
    obtain rfl := some.inj ht
    refine absurd ?_ (hrefused (.statusCfm .setPathCfm ObexStatus.failure 0))
    rw [heq]
    rfl
  · next hn =>
    obtain ⟨hroom, header, hheader, hpacket⟩ := packet_newPacket hn rfl
    generalize (obexNewPacket c (u16 (name.length * 2)) obexSetPath).2 = u at ht hframed hroom hpacket
    obtain ⟨⟨ok, v⟩, hv, rfl⟩ := map_eq_some_iff.mp ht
    have huv : Framed u v := by
      by_cases hname : name = []
      · rw [if_pos hname] at hv
        have hempty := Framed.addEmptyHeader u obexNameHdr 0
        rw [some.inj hv] at hempty
        exact hempty
      · rw [if_neg hname] at hv
        exact Framed.addUnicodeHeader hv
    have hvlog : v.log = c.log := by
      obtain ⟨n, k, rfl⟩ := hframed.trans huv
      rfl
    rcases ok with _ | _
    · refine absurd ?_ (hrefused (.statusCfm .setPathCfm ObexStatus.failure 0))
      rw [← hvlog]
      rfl
    · have happ := appended_nameHeader hroom hv
      by_cases hconnected : v.isObexConnected
      · have hvpacket : v.packet = header ++ (connIDHeader c ++ nameHeader name) := by
          rw [happ.packet, hpacket, List.append_assoc]
        obtain ⟨more, hsentlog, hmore⟩ := @log_setPathReq _ _ _ _ flag happ.claimed hheader hvpacket hconnected
        dsimp only at hlog
        rw [if_pos rfl, hsentlog, hvlog, List.append_assoc, append_cancel_left_eq] at hlog
        rw [← hlog] at hpkt
        rcases mem_append.mp hpkt with hmem | hmem
        · exact absurd (hmore _ hmem) (by simp)
        · exact Effect.flushed.inj (mem_singleton.mp hmem)
      · refine absurd ?_ (hrefused (.statusCfm .setPathCfm ObexStatus.invalidCommand 0))
        dsimp only
        rw [if_pos rfl, obexSetPathReq, if_neg hconnected, ← hvlog]
        rfl

/-! ### What the server indicates -/

/-- The direction in a flags octet. -/
def pathOf (octet : UInt8) : ObexFolderPath :=
  if octet &&& 0x03 = 0 then .newFolder
  else if octet &&& 0x03 = 1 then .folderRoot
  else if octet &&& 0x03 = 2 then .folderIn
  else .folderOut

/-- The direction that the application reads: the `bool` of the message, in the place of an `ObexFolderPath`. -/
def indicatedPath (final : Bool) : ObexFolderPath := if final then .folderRoot else .newFolder

/-- The indication is what the packet asks for. For the parent only the direction counts; no name stands for the root;
else the direction is that of the flags, and the last octets of the packet, handed to the application, are the name. -/
def Indicates (pkt name : List UInt8) (final : Bool) (hdrsLen : ℕ) : Prop :=
  if pathOf (pkt.getD 3 0) = .folderOut then indicatedPath final = .folderOut
  else if name = [] then indicatedPath final = .folderRoot ∧ hdrsLen = 0
  else indicatedPath final = pathOf (pkt.getD 3 0) ∧ pkt.drop (pkt.length - hdrsLen) = unicodeText name

/-- **The promise**: the server indicates what the packet asks for, whatever lies behind the packet. -/
def SetPathAgrees (s : Session) (pkt name : List UInt8) : Prop :=
  ∀ beyond, ∃ t final hdrsLen, obexHandleSetPathRequest s (pkt ++ beyond) pkt.length = some (hdrsLen, t) ∧
    .app (.commandInd .setPathInd final hdrsLen) ∈ t.log.drop s.log.length ∧ Indicates pkt name final hdrsLen

/-- Every SETPATH is indicated as one to the root: the opcode is taken for the flags. -/
theorem setPathInd_final {len n hdrsLen : ℕ} {final : Bool} (hop : pkt.getD 0 0 = obexSetPath)
    (ht : obexHandleSetPathRequest s pkt len = some (n, t))
    (hind : .app (.commandInd .setPathInd final hdrsLen) ∈ t.log.drop s.log.length) : final = true := by
  have hpath : (pkt.getD 0 0 &&& 0x03).toNat = 1 := by
    rw [hop]
    decide
  have hone : ∀ n, t = obexCommandInd (s.setState .setpath) .setPathInd true n → final = true := by
    rintro n rfl
    change _ ∈ List.drop s.log.length (s.log ++ [_]) at hind
    rw [drop_left] at hind
    exact (AppMessage.commandInd.inj (Effect.app.inj (mem_singleton.mp hind))).2.1
  have hnone : ∀ response, t = obexSendResponse s response → final = true := by
    rintro response rfl
    obtain ⟨u, ⟨m, source, srcUsed, n, k, es, rfl, hes⟩, heq⟩ := obexSendResponse_eq s response
    have hlog : (obexSendResponse s response).log = s.log ++ es := by
      rw [heq]
      split <;> rfl
    rw [hlog, drop_left] at hind
    exact absurd (hes _ hind) Bool.false_ne_true
  rw [obexHandleSetPathRequest] at ht
  split at ht
  · obtain ⟨⟨valid, m⟩, -, ht⟩ := bind_eq_some_iff.mp ht
    dsimp only at ht
    split at ht
    · rw [hpath, if_neg (by decide)] at ht
      obtain ⟨⟨name, k⟩, -, heq⟩ := map_eq_some_iff.mp ht
      dsimp only at heq
      split at heq
      all_goals exact hone _ (Prod.mk.inj heq).2.symm
    · exact hnone _ (Prod.mk.inj (some.inj ht)).2.symm
  · exact hnone _ (Prod.mk.inj (some.inj ht)).2.symm

/-! ### Where they agree -/

theorem getUint32Header_connID (h32 : s.connID < 2 ^ 32) (rest : List UInt8) (hconn : s.connID ≠ obexInvalidUint32) :
    obexGetUint32Header (connIDHeader s ++ rest) 8 obexConnectidHdr = some s.connID := by
  have hheader : connIDHeader s = uint32Header obexConnectidHdr s.connID := if_pos hconn
  have hfetch : obexFetchHeader (connIDHeader s ++ rest) 8 obexConnectidHdr = some 0 := by
    refine (obexFetchHeader_eq_some_iff (by decide)).mpr ⟨.start, by decide, ?_⟩
    rw [hheader]
    rfl
  rw [obexGetUint32Header, hfetch, map_some, if_neg (by decide), hheader]
  simp only [uint32Header, List.cons_append, getD_cons_succ, getD_cons_zero, UInt8.toNat_ofNat']
  refine congrArg some ?_
  omega

theorem getUint32Header_name (rest : List UInt8) :
    obexGetUint32Header ([obexNameHdr, 0, 3] ++ rest) 3 obexConnectidHdr = some obexInvalidUint32 := by
  have hsize : hdrSizeAt ([obexNameHdr, 0, 3] ++ rest) 0 = 3 :=
    hdrSizeAt_seq (show isByteHdr obexNameHdr = false by decide) (show isUintHdr obexNameHdr = false by decide)
  have hfetch : obexFetchHeader ([obexNameHdr, 0, 3] ++ rest) 3 obexConnectidHdr = some obexInvalidUint16 := by
    rw [obexFetchHeader, fetchLoop_eq_search]
    refine (Lib.search_eq_some_iff (by decide) fetchTurn_lt (Nat.le_succ _)).mpr ⟨3, .next .start ?_, ?_⟩
    · exact fetchTurn_inr_iff.mpr ⟨⟨by decide, (by decide : obexNameHdr ≠ obexConnectidHdr)⟩, by rw [hsize]; rfl⟩
    · rw [fetchTurn, if_neg (Nat.lt_irrefl 3)]
  rw [obexGetUint32Header, hfetch]
  rfl

/-- A packet without a folder name is validated, with the Connection ID or without. -/
theorem validate_empty {flag : UInt8} (h32 : s.connID < 2 ^ 32) (beyond : List UInt8) :
    obexValidateConnectionID s (setPathPacket (connIDHeader s) flag [obexNameHdr, 0, 3] ++ beyond)
      (setPathPacket (connIDHeader s) flag [obexNameHdr, 0, 3]).length = some (true, 3) := by
  have hop : (setPathPacket (connIDHeader s) flag [obexNameHdr, 0, 3] ++ beyond).getD 0 0 = obexSetPath := rfl
  have hdrop : (setPathPacket (connIDHeader s) flag [obexNameHdr, 0, 3] ++ beyond).drop obexPktSetpathHdrSize =
      connIDHeader s ++ ([obexNameHdr, 0, 3] ++ beyond) := by
    simp [setPathPacket, uint16ToUint8, obexPktSetpathHdrSize]
  have hlen : (setPathPacket (connIDHeader s) flag [obexNameHdr, 0, 3]).length = 5 + (connIDHeader s).length + 3 := by
    simp only [setPathPacket, uint16ToUint8, length_cons, length_append, length_nil]
    omega
  rw [obexValidateConnectionID]
  dsimp only
  rw [if_neg (by rw [hlen, obexPktSetpathHdrSize]; omega), if_pos hop, hdrop, hlen]
  by_cases hconn : s.connID ≠ obexInvalidUint32
  · have hheader : (connIDHeader s).length = 5 := by rw [connIDHeader, if_pos hconn]; rfl
    have hbehind : u16 (((5 + (connIDHeader s).length + 3 : ℕ) : ℤ) - (obexPktSetpathHdrSize : ℤ)) = 8 := by
      rw [hheader]
      decide
    rw [hbehind, getUint32Header_connID h32 _ hconn, map_some, if_pos hconn, decide_eq_true rfl]
    rfl
  · have hheader : connIDHeader s = [] := if_neg hconn
    rw [hheader, nil_append]
    have hbehind : u16 (((5 + ([] : List UInt8).length + 3 : ℕ) : ℤ) - (obexPktSetpathHdrSize : ℤ)) = 3 := by decide
    rw [hbehind, getUint32Header_name, map_some, if_neg (not_not_intro rfl),
      decide_eq_true (not_not.mp hconn)]

/-- The scan for the name comes to the length, takes its low octet for a header and the flags for its length. -/
theorem getSeqHeader_empty {flag low high : UInt8} (hlow : low = 8 ∨ low = 13) (rest : List UInt8) :
    obexGetSeqHeader (obexSetPath :: high :: low :: flag :: 0 :: rest) 3 obexNameHdr =
      if flag = 0 then none else some (none, 0) := by
  generalize hpkt : obexSetPath :: high :: low :: flag :: 0 :: rest = pkt
  have hsize : hdrSizeAt pkt 2 = 256 * flag.toNat := by
    subst hpkt
    rcases hlow with rfl | rfl
    · exact hdrSizeAt_seq (show isByteHdr 8 = false by decide) (show isUintHdr 8 = false by decide)
    · exact hdrSizeAt_seq (show isByteHdr 13 = false by decide) (show isUintHdr 13 = false by decide)
  have hfirst : fetchTurn pkt 3 obexNameHdr 0 = .inr 2 := by
    subst hpkt
    have hopcode : hdrSizeAt (obexSetPath :: high :: low :: flag :: 0 :: rest) 0 = 2 :=
      hdrSizeAt_byte (show isByteHdr obexSetPath by decide)
    exact fetchTurn_inr_iff.mpr ⟨⟨by decide, (by decide : obexSetPath ≠ obexNameHdr)⟩, by rw [hopcode]; rfl⟩
  have hsecond : fetchTurn pkt 3 obexNameHdr 2 = .inr (2 + 256 * flag.toNat) := by
    refine fetchTurn_inr_iff.mpr ⟨⟨by decide, ?_⟩, ?_⟩
    · subst hpkt
      rcases hlow with rfl | rfl
      · exact (by decide : (8 : UInt8) ≠ obexNameHdr)
      · exact (by decide : (13 : UInt8) ≠ obexNameHdr)
    · have hflag := flag.toNat_lt
      rw [hsize]
      exact u16_of_lt (n := 2 + 256 * flag.toNat) (by omega)
  rw [obexGetSeqHeader, obexFetchHeader, fetchLoop_eq_search]
  by_cases hflag : flag = 0
  · subst hflag
    rw [if_pos rfl, (Lib.search_eq_none_iff (by decide) fetchTurn_lt (Nat.le_succ _)).mpr]
    · rfl
    · intro p hp
      have hstays : p = 0 ∨ p = 2 := by
        refine hp.keeps (I := fun p => p = 0 ∨ p = 2) (.inl rfl) ?_
        rintro p q (rfl | rfl) hq
        · exact .inr (Sum.inr.inj (hq.symm.trans hfirst))
        · exact .inr (Sum.inr.inj (hq.symm.trans hsecond))
      rcases hstays with rfl | rfl
      · exact ⟨_, hfirst⟩
      · exact ⟨_, hsecond⟩
  · have hpos : 0 < flag.toNat := Nat.pos_of_ne_zero fun h => hflag (UInt8.toNat_inj.mp h)
    have hend : fetchTurn pkt 3 obexNameHdr (2 + 256 * flag.toNat) = .inl obexInvalidUint16 := by
      rw [fetchTurn, if_neg (by omega)]
    rw [if_neg hflag, (Lib.search_eq_some_iff (by decide) fetchTurn_lt (Nat.le_succ _)).mpr
      ⟨_, .next (.next .start hfirst) hsecond, hend⟩]
    rfl

/-- What becomes of a packet without a folder name: the handler never returns, or it indicates the root. -/
theorem handleSetPath_empty {flag : UInt8} (hready : s.isObexReady) (h32 : s.connID < 2 ^ 32) (beyond : List UInt8) :
    obexHandleSetPathRequest s (setPathPacket (connIDHeader s) flag [obexNameHdr, 0, 3] ++ beyond)
      (setPathPacket (connIDHeader s) flag [obexNameHdr, 0, 3]).length =
      if flag = 0 then none else some (0, obexCommandInd (s.setState .setpath) .setPathInd true 0) := by
  have hlow : UInt8.ofNat (5 + (connIDHeader s ++ [obexNameHdr, 0, 3]).length) = 8 ∨
      UInt8.ofNat (5 + (connIDHeader s ++ [obexNameHdr, 0, 3]).length) = 13 := by
    rw [connIDHeader]
    split
    · exact .inr rfl
    · exact .inl rfl
  have hname := @getSeqHeader_empty flag _ (UInt8.ofNat ((5 + (connIDHeader s ++ [obexNameHdr, 0, 3]).length) / 256))
    hlow (connIDHeader s ++ [obexNameHdr, 0, 3] ++ beyond)
  have hpath : (obexSetPath &&& 0x03).toNat = 1 := by decide
  have hop : (setPathPacket (connIDHeader s) flag [obexNameHdr, 0, 3] ++ beyond).getD 0 0 = obexSetPath := rfl
  rw [obexHandleSetPathRequest, if_pos hready, validate_empty h32 beyond, bind_some]
  dsimp only
  rw [if_pos rfl, hop, hpath, if_neg (by decide)]
  have hscan : obexGetSeqHeader (setPathPacket (connIDHeader s) flag [obexNameHdr, 0, 3] ++ beyond) 3 obexNameHdr =
      if flag = 0 then none else some (none, 0) := hname
  rw [hscan]
  split <;> rfl

theorem pathOf_toUInt8 (flags : ObexFolderPath) : pathOf flags.toUInt8 = flags := by
  cases flags <;> rfl

/-- **SETPATH.** The server indicates what the client asked for exactly if that is the root: the request asks for it, or
goes into a folder without a name. -/
theorem setPathAgrees_iff (hsent : SetPathSent c flags folderName pkt) (hready : s.isObexReady)
    (hconn : s.connID = c.connID) (h32 : c.connID < 2 ^ 32) :
    SetPathAgrees s pkt (sentName flags folderName) ↔
      flags = .folderRoot ∨ flags = .folderIn ∧ folderName = [] := by
  have hpkt := setPathSent_eq hsent
  have hheader : connIDHeader s = connIDHeader c := by rw [connIDHeader, connIDHeader, hconn]
  have hflag : pathOf (pkt.getD 3 0) = sentFlags flags := by
    rw [hpkt]
    exact pathOf_toUInt8 _
  rw [← hheader] at hpkt
  rw [← hconn] at h32
  constructor
  · intro hagrees
    obtain ⟨t, final, n, ht, hind, hindicates⟩ := hagrees []
    obtain rfl : final = true := setPathInd_final (by rw [hpkt]; rfl) ht hind
    rw [Indicates, hflag] at hindicates
    split at hindicates
    · cases hindicates
    · next hout =>
      split at hindicates
      · next hname =>
        -- the way into a new folder without a name is never answered
        rw [hpkt, hname, nameHeader, if_pos rfl, handleSetPath_empty hready h32] at ht
        cases flags with
        | newFolder => cases ht
        | folderRoot => exact .inl rfl
        | folderIn => exact .inr ⟨rfl, hname⟩
        | folderOut => exact absurd rfl hout
      · next hname =>
        cases flags with
        | folderRoot => exact absurd rfl hname
        | newFolder => cases hindicates.1
        | folderIn => cases hindicates.1
        | folderOut => exact absurd rfl hout
  · intro hroot beyond
    have hname : sentName flags folderName = [] ∧ sentFlags flags = .folderIn := by
      rcases hroot with rfl | ⟨rfl, rfl⟩
      · exact ⟨rfl, rfl⟩
      · exact ⟨rfl, rfl⟩
    rw [hname.2] at hflag hpkt
    rw [hname.1] at hpkt ⊢
    refine ⟨obexCommandInd (s.setState .setpath) .setPathInd true 0, true, 0, ?_, ?_, ?_⟩
    · rw [hpkt, nameHeader, if_pos rfl, handleSetPath_empty hready h32, if_neg (by decide)]
    · change _ ∈ List.drop s.log.length (s.log ++ [_])
      rw [drop_left]
      exact mem_singleton.mpr rfl
    · rw [Indicates, hflag, if_neg (by decide), if_pos rfl]
      exact ⟨rfl, rfl⟩

/-- A session in `obex_connected`, with nothing under way. -/
def connectedSession (role : ObexRole) (connID : ℕ) : Session :=
  { obexCreateSession role none ⟨[], 600, by decide⟩ [] with state := .connected, connID }

/-- The SETPATH to the root, with a Connection ID. -/
theorem setPathAgrees_iff_root : SetPathAgrees (connectedSession .rfcommServer 7)
    [0x85, 0, 13, 2, 0, 0xCB, 0, 0, 0, 7, 0x01, 0, 3] [] := by
  have hruns : (obexSetPathRequest (connectedSession .rfcommClient 7) .folderRoot [0x61]).any fun t =>
      decide (t.log = [.flushed [0x85, 0, 13, 2, 0, 0xCB, 0, 0, 0, 7, 0x01, 0, 3]]) := by
    decide
  obtain ⟨t, ht, hlog⟩ := (Option.any_eq_true _ _).mp hruns
  have hsent : SetPathSent (connectedSession .rfcommClient 7) .folderRoot [0x61]
      [0x85, 0, 13, 2, 0, 0xCB, 0, 0, 0, 7, 0x01, 0, 3] :=
    ⟨t, _, ht, of_decide_eq_true hlog, mem_singleton.mpr rfl⟩
  exact (setPathAgrees_iff (s := connectedSession .rfcommServer 7) hsent rfl rfl (by decide)).mpr (.inl rfl)

/-- The SETPATH to the parent is indicated as one to the root. -/
theorem not_setPathAgrees : ¬ ∀ c s flags folderName pkt, SetPathSent c flags folderName pkt → s.isObexReady →
    s.connID = c.connID → SetPathAgrees s pkt (sentName flags folderName) := by
  intro h
  have hruns : (obexSetPathRequest (connectedSession .rfcommClient 7) .folderOut []).any fun t =>
      decide (t.log = [.flushed [0x85, 0, 13, 3, 0, 0xCB, 0, 0, 0, 7, 0x01, 0, 3]]) := by
    decide
  obtain ⟨t, ht, hlog⟩ := (Option.any_eq_true _ _).mp hruns
  obtain ⟨t, final, n, hhandled, hind, hindicates⟩ := h (connectedSession .rfcommClient 7)
    (connectedSession .rfcommServer 7) .folderOut [] _
    ⟨t, _, ht, of_decide_eq_true hlog, mem_singleton.mpr rfl⟩ rfl rfl []
  obtain rfl : final = true := setPathInd_final rfl hhandled hind
  cases hindicates

end Cbps.Obex
