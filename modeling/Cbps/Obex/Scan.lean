import Cbps.Lib.Search
import Cbps.Obex.Packet
import Mathlib.Data.Set.Basic

/-!
# Where the header scan goes

The scan of `obexFetchHeader` as a search among the offsets of a packet. It goes on by the length that a header declares
for itself, in sixteen bits, so that it can stand still, or wrap around and come back; `scan_iff` says when it does
neither. An accessor reads the octets that the scan looks at, and those of the header it finds;
`accessors_inside_iff` says when all of them, and the value they return, lie inside the packet.
-/

namespace Cbps.Obex

open Cbps.Lib (Visits search)

variable {pkt : List UInt8} {len : ℕ} {opcode tag : UInt8} {p q off : ℕ}

/-! ### The scan as a search -/

/-- The size that the header at an offset has by its class or declares for itself. -/
def hdrSizeAt (pkt : List UInt8) (p : ℕ) : ℕ :=
  if isByteHdr (pkt.getD p 0) then obexByteHdrSize
  else if isUintHdr (pkt.getD p 0) then obexUintHdrSize
  else uint8ToUint16 pkt (p + 1)

theorem hdrSizeAt_byte (h : isByteHdr (pkt.getD p 0)) : hdrSizeAt pkt p = obexByteHdrSize := if_pos h

theorem hdrSizeAt_seq (hbyte : isByteHdr (pkt.getD p 0) = false) (huint : isUintHdr (pkt.getD p 0) = false) :
    hdrSizeAt pkt p = uint8ToUint16 pkt (p + 1) := by
  rw [hdrSizeAt, hbyte, huint]
  rfl

/-- One turn of the loop of `obexFetchHeader`. -/
def fetchTurn (pkt : List UInt8) (len : ℕ) (opcode : UInt8) (p : ℕ) : ℕ ⊕ ℕ :=
  if len > p then
    if pkt.getD p 0 = opcode then .inl p else .inr (u16 (p + hdrSizeAt pkt p))
  else .inl obexInvalidUint16

theorem fetchLoop_eq_search (fuel p : ℕ) :
    fetchLoop pkt len opcode fuel p = search (fetchTurn pkt len opcode) fuel p := by
  induction fuel generalizing p with
  | zero => rfl
  | succ fuel ih =>
    rw [fetchLoop, search, fetchTurn, hdrSizeAt]
    by_cases hlen : len > p
    · by_cases hop : pkt.getD p 0 = opcode
      · simp only [if_pos hlen, if_pos hop]
      · simp only [if_pos hlen, if_neg hop]
        split
        · exact ih _
        · split
          · exact ih _
          · exact ih _
    · simp only [if_neg hlen]

/-- The offsets that the scan comes to. -/
abbrev Scanned (pkt : List UInt8) (len : ℕ) (opcode : UInt8) : ℕ → Prop := Visits (fetchTurn pkt len opcode) 0

/-- The scan passes over the header at an offset. -/
def Passes (pkt : List UInt8) (len : ℕ) (opcode : UInt8) (p : ℕ) : Prop := p < len ∧ pkt.getD p 0 ≠ opcode

/-- The scan stops at the header at an offset. -/
def Found (pkt : List UInt8) (len : ℕ) (opcode : UInt8) (p : ℕ) : Prop :=
  Scanned pkt len opcode p ∧ p < len ∧ pkt.getD p 0 = opcode

theorem fetchTurn_inr_iff : fetchTurn pkt len opcode p = .inr q ↔
    Passes pkt len opcode p ∧ u16 (p + hdrSizeAt pkt p) = q := by
  rw [fetchTurn, Passes]
  by_cases hlen : len > p
  · by_cases hop : pkt.getD p 0 = opcode
    · rw [if_pos hlen, if_pos hop]
      exact iff_of_false (by simp) fun h => h.1.2 hop
    · rw [if_pos hlen, if_neg hop, Sum.inr.injEq]
      exact (and_iff_right ⟨hlen, hop⟩).symm
  · rw [if_neg hlen]
    exact iff_of_false (by simp) fun h => hlen h.1.1

theorem fetchTurn_lt (p q : ℕ) (h : fetchTurn pkt len opcode p = .inr q) : q < 65536 := by
  rw [← (fetchTurn_inr_iff.mp h).2]
  exact u16_lt _

theorem uint8ToUint16_lt (mem : List UInt8) (off : ℕ) : uint8ToUint16 mem off < 65536 := by
  have hhigh := (mem.getD off 0).toNat_lt
  have hlow := (mem.getD (off + 1) 0).toNat_lt
  rw [uint8ToUint16]
  omega

theorem hdrSizeAt_lt (pkt : List UInt8) (p : ℕ) : hdrSizeAt pkt p < 65536 := by
  rw [hdrSizeAt]
  split
  · decide
  · split
    · decide
    · exact uint8ToUint16_lt _ _

theorem scanned_lt (h : Scanned pkt len opcode p) : p < 65536 :=
  h.keeps (by omega) fun _ _ _ => fetchTurn_lt _ _

/-- The scan returns an offset exactly if it stops there. -/
theorem obexFetchHeader_eq_some_iff (hoff : off ≠ obexInvalidUint16) :
    obexFetchHeader pkt len opcode = some off ↔ Found pkt len opcode off := by
  rw [obexFetchHeader, fetchLoop_eq_search,
    Lib.search_eq_some_iff (show _ < 65536 by omega) fetchTurn_lt (by omega)]
  constructor
  · rintro ⟨p, hp, hturn⟩
    rw [fetchTurn] at hturn
    split at hturn
    · next hlt =>
      split at hturn
      · next hop =>
        obtain rfl := Sum.inl.inj hturn
        exact ⟨hp, hlt, hop⟩
      · exact absurd hturn (by simp)
    · exact absurd (Sum.inl.inj hturn).symm hoff
  · rintro ⟨hp, hlt, hop⟩
    exact ⟨off, hp, by rw [fetchTurn, if_pos hlt, if_pos hop]⟩

/-- A scan that stays on one offset never returns. -/
theorem obexFetchHeader_stuck (hpass : Passes pkt len opcode 0) (hzero : hdrSizeAt pkt 0 = 0) :
    obexFetchHeader pkt len opcode = none := by
  have hturn : fetchTurn pkt len opcode 0 = .inr 0 := fetchTurn_inr_iff.mpr ⟨hpass, by rw [hzero]; rfl⟩
  rw [obexFetchHeader, fetchLoop_eq_search,
    Lib.search_eq_none_iff (show _ < 65536 by omega) fetchTurn_lt (by omega)]
  intro p hp
  have hzero : p = 0 := by
    refine hp.keeps (I := fun p => p = 0) rfl fun p q hp h => ?_
    rw [hp, hturn] at h
    exact (Sum.inr.inj h).symm
  exact ⟨0, hzero ▸ hturn⟩

/-! ### The scan ends -/

/-- **The promise** of a scan: it returns, and its offset only grows. -/
def ScanEnds (pkt : List UInt8) (len : ℕ) (opcode : UInt8) : Prop :=
  obexFetchHeader pkt len opcode ≠ none ∧
    ∀ p q, Scanned pkt len opcode p → fetchTurn pkt len opcode p = .inr q → p < q

/-- The headers in front of the first one with the opcode, as their sizes line them up. -/
inductive Lined (pkt : List UInt8) (len : ℕ) (opcode : UInt8) : ℕ → Prop
  | first : Lined pkt len opcode 0
  | next {p : ℕ} : Lined pkt len opcode p → Passes pkt len opcode p → Lined pkt len opcode (p + hdrSizeAt pkt p)

/-- A scan ends, and only grows, exactly if no header that it passes is empty or ends behind offset 65535. -/
theorem scan_iff (pkt : List UInt8) (len : ℕ) (opcode : UInt8) :
    ScanEnds pkt len opcode ↔ ∀ p, Lined pkt len opcode p → Passes pkt len opcode p →
      hdrSizeAt pkt p ≠ 0 ∧ p + hdrSizeAt pkt p < 65536 := by
  have hsize := hdrSizeAt_lt pkt
  constructor
  · rintro ⟨-, hgrows⟩
    -- a turn that grows has not wrapped around
    have hturn : ∀ p, Scanned pkt len opcode p → Passes pkt len opcode p →
        hdrSizeAt pkt p ≠ 0 ∧ p + hdrSizeAt pkt p < 65536 ∧ Scanned pkt len opcode (p + hdrSizeAt pkt p) := by
      intro p hp hpass
      have hnext := fetchTurn_inr_iff.mpr ⟨hpass, rfl⟩
      have hlt := hgrows p _ hp hnext
      have hp16 := scanned_lt hp
      have hpsize := hsize p
      have hsum : p + hdrSizeAt pkt p < 65536 := by
        by_contra hwrap
        have hmod : u16 (p + hdrSizeAt pkt p) = p + hdrSizeAt pkt p - 65536 := by
          rw [u16]
          omega
        omega
      have heq : u16 (p + hdrSizeAt pkt p) = p + hdrSizeAt pkt p := u16_of_lt hsum
      refine ⟨fun hzero => ?_, hsum, ?_⟩
      · rw [heq, hzero] at hlt
        omega
      · rw [← heq]
        exact .next hp hnext
    have hscanned : ∀ p, Lined pkt len opcode p → Scanned pkt len opcode p := by
      intro p hp
      induction hp with
      | first => exact .start
      | next _ hpass ih => exact (hturn _ ih hpass).2.2
    intro p hp hpass
    have h := hturn p (hscanned p hp) hpass
    exact ⟨h.1, h.2.1⟩
  · intro hlined
    have hnext : ∀ p, Lined pkt len opcode p → ∀ q, fetchTurn pkt len opcode p = .inr q →
        q = p + hdrSizeAt pkt p ∧ p < q ∧ Lined pkt len opcode q := by
      intro p hp q hq
      obtain ⟨hpass, rfl⟩ := fetchTurn_inr_iff.mp hq
      obtain ⟨hzero, hsum⟩ := hlined p hp hpass
      have heq : u16 (p + hdrSizeAt pkt p) = p + hdrSizeAt pkt p := u16_of_lt hsum
      rw [heq]
      exact ⟨rfl, by omega, .next hp hpass⟩
    have hscanned : ∀ p, Scanned pkt len opcode p → Lined pkt len opcode p := by
      intro p hp
      exact hp.keeps .first fun p q hp hq => (hnext p hp q hq).2.2
    have hgrows : ∀ p q, Scanned pkt len opcode p → fetchTurn pkt len opcode p = .inr q → p < q :=
      fun p q hp hq => (hnext p (hscanned p hp) q hq).2.1
    refine ⟨?_, hgrows⟩
    rw [obexFetchHeader, fetchLoop_eq_search]
    exact Lib.search_ne_none (show _ < 65536 by omega) fetchTurn_lt (by omega) hgrows

/-- A Name header with a length field of zero, in front of nothing: the scan for a Connection ID never returns. -/
theorem not_scanEnds : ¬∀ pkt len opcode, len < 65536 → ScanEnds pkt len opcode := by
  intro h
  refine (h [obexNameHdr, 0, 0] 3 obexConnectidHdr (by decide)).1 (obexFetchHeader_stuck ?_ ?_)
  · exact ⟨by decide, by decide⟩
  · decide

/-! ### The accessors stay inside the packet -/

/-- The octets that the scan looks at: the class of each header it comes to, and the length field of a sequence that it
passes. -/
def fetchReads (pkt : List UInt8) (len : ℕ) (opcode : UInt8) : Set ℕ :=
  {q | ∃ p, Scanned pkt len opcode p ∧ p < len ∧ (q = p ∨
    pkt.getD p 0 ≠ opcode ∧ isByteHdr (pkt.getD p 0) = false ∧ isUintHdr (pkt.getD p 0) = false ∧
      (q = p + 1 ∨ q = p + 2))}

/-- The octets behind the first of a header that was found, as many as are given. -/
def foundReads (pkt : List UInt8) (len : ℕ) (opcode : UInt8) (n : ℕ) : Set ℕ :=
  {q | ∃ off, obexFetchHeader pkt len opcode = some off ∧ off ≠ obexInvalidUint16 ∧ off < q ∧ q ≤ off + n}

def uint32Reads (pkt : List UInt8) (len : ℕ) (opcode : UInt8) : Set ℕ :=
  fetchReads pkt len opcode ∪ foundReads pkt len opcode 4

def uint8Reads (pkt : List UInt8) (len : ℕ) (opcode : UInt8) : Set ℕ :=
  fetchReads pkt len opcode ∪ foundReads pkt len opcode 1

def seqReads (pkt : List UInt8) (len : ℕ) (opcode : UInt8) : Set ℕ :=
  fetchReads pkt len opcode ∪ foundReads pkt len opcode 2

/-- One turn of the loop of `obexGetTLVHeaderValue`. -/
def tlvTurn (pkt : List UInt8) (pktLen : ℕ) (tag : UInt8) (offset : ℕ) : (Option ℕ × ℕ) ⊕ ℕ :=
  let dataOffset := u16 (offset + obexTlvHdrSize)
  if dataOffset < pktLen then
    let size := (pkt.getD (offset + 1) 0).toNat
    if pkt.getD offset 0 = tag ∧ size ≤ pktLen - dataOffset then .inl (some (offset + 2), size)
    else .inr (u16 (offset + size + obexTlvHdrSize))
  else .inl (none, 0)

theorem tlvLoop_eq_search (fuel p : ℕ) : tlvLoop pkt len tag fuel p = search (tlvTurn pkt len tag) fuel p := by
  induction fuel generalizing p with
  | zero => rfl
  | succ fuel ih =>
    rw [tlvLoop, search, tlvTurn]
    dsimp only
    split
    · split
      · rfl
      · exact ih _
    · rfl

/-- The offsets that the search for a tag comes to. -/
abbrev TlvScanned (pkt : List UInt8) (len : ℕ) (tag : UInt8) : ℕ → Prop := Visits (tlvTurn pkt len tag) 0

/-- The octets that the search for a tag looks at: the tag and the length of each element it comes to. -/
def tlvReads (pkt : List UInt8) (len : ℕ) (tag : UInt8) : Set ℕ :=
  {q | ∃ p, TlvScanned pkt len tag p ∧ u16 (p + obexTlvHdrSize) < len ∧ (q = p ∨ q = p + 1)}

/-- The octets that `obexValidateConnectionID` reads, of the packet and of the headers behind its own. -/
def validateReads (pkt : List UInt8) (len : ℕ) : Set ℕ :=
  let isSetPath := pkt.getD 0 0 = obexSetPath
  if isSetPath ∧ len < obexPktSetpathHdrSize then {0}
  else
    let hdrSize := if isSetPath then obexPktSetpathHdrSize else obexPktHdrSize
    {0} ∪ (fun q => hdrSize + q) '' uint32Reads (pkt.drop hdrSize) (u16 (len - hdrSize)) obexConnectidHdr

/-- All octets that are read lie inside the packet. -/
def Inside (reads : Set ℕ) (len : ℕ) : Prop := ∀ q ∈ reads, q < len

/-- The value that is returned lies inside the packet. -/
def ValueInside (result : Option (Option ℕ × ℕ)) (len : ℕ) : Prop :=
  ∀ value length, result = some (some value, length) → value + length ≤ len

/-- **The promise** of the accessors: none reads outside the packet or returns a value that does not lie in it. -/
structure AccessorsInside (pkt : List UInt8) (len : ℕ) (opcode : UInt8) : Prop where
  fetch : Inside (fetchReads pkt len opcode) len
  uint32 : Inside (uint32Reads pkt len opcode) len
  uint8 : Inside (uint8Reads pkt len opcode) len
  seq : Inside (seqReads pkt len opcode) len ∧ ValueInside (obexGetSeqHeader pkt len opcode) len
  tlv : Inside (tlvReads pkt len opcode) len ∧ ValueInside (obexGetTLVHeaderValue pkt len opcode) len
  validate : Inside (validateReads pkt len) len

/-- The sequences that the scan passes have their length field in the packet. -/
def Whole (pkt : List UInt8) (len : ℕ) (opcode : UInt8) : Prop :=
  ∀ p, Scanned pkt len opcode p → Passes pkt len opcode p → isByteHdr (pkt.getD p 0) = false →
    isUintHdr (pkt.getD p 0) = false → p + 3 ≤ len

/-- The header that is found has its octets in the packet. -/
def Complete (pkt : List UInt8) (len : ℕ) (opcode : UInt8) (n : ℕ) : Prop :=
  ∀ off, Found pkt len opcode off → off + n ≤ len

theorem inside_fetchReads : Inside (fetchReads pkt len opcode) len ↔ Whole pkt len opcode := by
  constructor
  · intro h p hp hpass hbyte huint
    have hlast := h (p + 2) ⟨p, hp, hpass.1, .inr ⟨hpass.2, hbyte, huint, .inr rfl⟩⟩
    omega
  · rintro h q ⟨p, hp, hlt, rfl | ⟨hop, hbyte, huint, hq⟩⟩
    · exact hlt
    · have hwhole := h p hp ⟨hlt, hop⟩ hbyte huint
      omega

theorem found_lt (h : Found pkt len opcode off) (hlen : len < 65536) : off ≠ obexInvalidUint16 := by
  have hlt := h.2.1
  rw [obexInvalidUint16]
  omega

theorem inside_foundReads {n : ℕ} (hlen : len < 65536) :
    Inside (foundReads pkt len opcode n) len ↔ Complete pkt len opcode (n + 1) := by
  constructor
  · intro h off hfound
    have hoff := found_lt hfound hlen
    rcases n with - | n
    · exact hfound.2.1
    · have hlast := h (off + (n + 1)) ⟨off, (obexFetchHeader_eq_some_iff hoff).mpr hfound, hoff, by omega, le_rfl⟩
      omega
  · rintro h q ⟨off, hfetch, hoff, hq, hn⟩
    have hcomplete := h off ((obexFetchHeader_eq_some_iff hoff).mp hfetch)
    omega

theorem inside_union {a b : Set ℕ} : Inside (a ∪ b) len ↔ Inside a len ∧ Inside b len := by
  constructor
  · exact fun h => ⟨fun q hq => h q (.inl hq), fun q hq => h q (.inr hq)⟩
  · rintro ⟨ha, hb⟩ q (hq | hq)
    · exact ha q hq
    · exact hb q hq

theorem inside_found {n : ℕ} (hlen : len < 65536) :
    Inside (fetchReads pkt len opcode ∪ foundReads pkt len opcode n) len ↔
      Whole pkt len opcode ∧ Complete pkt len opcode (n + 1) := by
  rw [inside_union, inside_fetchReads, inside_foundReads hlen]

/-- The value of a sequence lies in the packet if its length field counts the header, and no more than the packet. -/
theorem seq_inside (hlen : len < 65536) :
    Inside (seqReads pkt len opcode) len ∧ ValueInside (obexGetSeqHeader pkt len opcode) len ↔
      Whole pkt len opcode ∧ ∀ off, Found pkt len opcode off →
        3 ≤ uint8ToUint16 pkt (off + 1) ∧ off + uint8ToUint16 pkt (off + 1) ≤ len := by
  rw [seqReads, inside_found hlen, and_assoc]
  refine and_congr_right fun _ => ?_
  have hvalue : ∀ off, Found pkt len opcode off → obexGetSeqHeader pkt len opcode =
      some (some (off + 3), u16 (uint8ToUint16 pkt (off + 1) - 3)) := by
    intro off hfound
    have hoff := found_lt hfound hlen
    rw [obexGetSeqHeader, (obexFetchHeader_eq_some_iff hoff).mpr hfound, Option.map_some, if_neg hoff]
    rfl
  have hfield : ∀ off n : ℕ, n < 65536 →
      (off + 3 ≤ len ∧ off + 3 + u16 (n - obexSeqHdrSize) ≤ len ↔ 3 ≤ n ∧ off + n ≤ len) := by
    intro off n hn
    rw [obexSeqHdrSize, u16]
    rcases Nat.lt_or_ge n 3 with hlt | hge
    · -- the length wraps around
      omega
    · omega
  constructor
  · rintro ⟨hcomplete, hinside⟩ off hfound
    exact (hfield off _ (uint8ToUint16_lt pkt _)).mp ⟨hcomplete off hfound, hinside _ _ (hvalue off hfound)⟩
  · intro hcover
    have hboth := fun off hfound => (hfield off _ (uint8ToUint16_lt pkt (off + 1))).mpr (hcover off hfound)
    refine ⟨fun off hfound => (hboth off hfound).1, fun value length hresult => ?_⟩
    rw [obexGetSeqHeader] at hresult
    obtain ⟨off, hfetch, hresult⟩ := Option.map_eq_some_iff.mp hresult
    split at hresult
    · exact absurd hresult (by simp)
    · next hoff =>
      obtain ⟨hv, hl⟩ := Prod.mk.inj hresult
      rw [← Option.some.inj hv, ← hl]
      exact (hboth off ((obexFetchHeader_eq_some_iff hoff).mp hfetch)).2

theorem tlvTurn_lt (p q : ℕ) (h : tlvTurn pkt len tag p = .inr q) : q < 65536 := by
  rw [tlvTurn] at h
  dsimp only at h
  split at h
  · split at h
    · exact absurd h (by simp)
    · rw [← Sum.inr.inj h]
      exact u16_lt _
  · exact absurd h (by simp)

/-- The search for a tag stays inside where its offset does not come to the last two of sixteen bits. -/
theorem tlv_inside (hlen : len < 65536) :
    Inside (tlvReads pkt len tag) len ∧ ValueInside (obexGetTLVHeaderValue pkt len tag) len ↔
      ∀ p, TlvScanned pkt len tag p → u16 (p + obexTlvHdrSize) < len → p < 65534 := by
  have hdata : ∀ p : ℕ, p < 65534 → u16 (p + obexTlvHdrSize) = p + 2 :=
    fun p hp => u16_of_lt (n := p + 2) (by omega)
  constructor
  · rintro ⟨hreads, -⟩ p hp hlt
    have hlast := hreads (p + 1) ⟨p, hp, hlt, .inr rfl⟩
    omega
  · intro h
    constructor
    · rintro q ⟨p, hp, hlt, hq⟩
      have hp' := h p hp hlt
      rw [hdata p hp'] at hlt
      omega
    · intro value length hresult
      rw [obexGetTLVHeaderValue, tlvLoop_eq_search,
        Lib.search_eq_some_iff (show _ < 65536 by omega) tlvTurn_lt (by omega)] at hresult
      obtain ⟨p, hp, hturn⟩ := hresult
      rw [tlvTurn] at hturn
      dsimp only at hturn
      split at hturn
      · next hlt =>
        have hp' := h p hp hlt
        rw [hdata p hp'] at hlt hturn
        split at hturn
        · next hfound =>
          obtain ⟨hv, hl⟩ := Prod.mk.inj (Sum.inl.inj hturn)
          rw [← Option.some.inj hv, ← hl]
          omega
        · exact absurd hturn (by simp)
      · exact absurd hturn (by simp)

/-- The validation of the Connection ID stays inside where the packet is as long as its own header. -/
theorem validate_inside (pkt : List UInt8) (hlen : len < 65536) :
    Inside (validateReads pkt len) len ↔
      if pkt.getD 0 0 = obexSetPath ∧ len < obexPktSetpathHdrSize then 0 < len
      else
        let hdrSize := if pkt.getD 0 0 = obexSetPath then obexPktSetpathHdrSize else obexPktHdrSize
        hdrSize ≤ len ∧ Whole (pkt.drop hdrSize) (len - hdrSize) obexConnectidHdr ∧
          Complete (pkt.drop hdrSize) (len - hdrSize) obexConnectidHdr obexUintHdrSize := by
  rw [validateReads]
  dsimp only
  split
  · exact ⟨fun h => h 0 rfl, fun h q hq => hq ▸ h⟩
  · generalize hhdr : (if pkt.getD 0 0 = obexSetPath then obexPktSetpathHdrSize else obexPktHdrSize) = hdrSize
    have hpos : 0 < hdrSize := by
      rw [← hhdr]
      split <;> decide
    have hsmall : hdrSize ≤ 5 := by
      rw [← hhdr]
      split <;> decide
    rw [inside_union]
    have hbehind : Inside ((fun q => hdrSize + q) ''
        uint32Reads (pkt.drop hdrSize) (u16 (len - hdrSize)) obexConnectidHdr) len ↔ ∀ q ∈ uint32Reads (pkt.drop hdrSize) (u16 (len - hdrSize)) obexConnectidHdr, hdrSize + q < len :=
      Set.forall_mem_image
    rw [hbehind]
    rcases Nat.lt_or_ge len hdrSize with hshort | hlong
    · -- the length wraps around, and the first octet behind the header is looked at
      refine iff_of_false (fun h => ?_) fun h => by omega
      have hwrap : 0 < u16 ((len : ℤ) - hdrSize) := by
        rw [u16]
        omega
      have hfirst := h.2 0 (.inl ⟨0, .start, hwrap, .inl rfl⟩)
      omega
    · have hsub : u16 ((len : ℤ) - hdrSize) = len - hdrSize := by
        rw [u16]
        omega
      rw [hsub, and_iff_right hlong]
      have hinside := @inside_found (pkt.drop hdrSize) (len - hdrSize) obexConnectidHdr 4 (by omega)
      refine Iff.trans ?_ hinside
      constructor
      · rintro ⟨-, h⟩ q hq
        have hlt := h q hq
        omega
      · intro h
        refine ⟨fun q hq => ?_, fun q hq => ?_⟩
        · rw [Set.mem_singleton_iff.mp hq]
          omega
        · have hlt := h q hq
          omega

end Cbps.Obex
