import Cbps.Lib.Search
import Cbps.Lib.TagValues
import Cbps.Pbapc.Client

/-!
# List responses

The responses to the requests for a phonebook or a listing carry a block of application parameters, each a tag, a length
and a value. `handlePullListResp` looks in it for the size of the phonebook and the number of new missed calls, and hands
the body on.

The position in the block has eight bits, and a parameter is taken to have the length that its tag asks for. A read outside
of the block is the fault `outside`; the scan never meets it (`scanTurn_eq`). The fault `endless` is a scan that never
returns: the position comes back to a place where it was (`Loops`).
-/

namespace Cbps.Pbapc

open Lib List Option

/-- The parts of the identifiers of the OBEX headers that carry a body. -/
inductive BodyHdr
  | body
  | endBody
deriving DecidableEq, Repr

/-- The requests that are answered with a list. -/
inductive ListId
  | pullPhonebookCfm
  | pullVcardListingCfm
deriving DecidableEq, Repr

/-- A source, zero for none. -/
abbrev Source := ℕ

/-- `PBAPC_PULL_PHONEBOOK_CFM_T`, with the identifier it is sent under. -/
structure PullListCfm where
  id : ListId
  deviceId : ℕ
  status : LibStatus
  pbookSize : ℕ
  newMissCalls : ℕ
  src : Source
  dataLen : ℕ
deriving DecidableEq, Repr

inductive ScanFault
  | outside
  | endless
deriving DecidableEq, Repr

/-! ### The scan -/

def appPhonebookSize : UInt8 := 8

def appNewMissedCalls : UInt8 := 9

def wordAppParamLen : ℕ := 4

def byteAppParamLen : ℕ := 3

/-- An octet of the block. -/
def readParam (appParam : List UInt8) (i : ℕ) : Except ScanFault UInt8 :=
  match appParam[i]? with
  | some octet => .ok octet
  | none => .error .outside

/-- The variables of the scan. -/
structure Scan where
  offset : ℕ
  pbSize : ℕ
  newMissCall : ℕ
deriving DecidableEq, Repr

/-- One turn of the scan. -/
def scanTurn (appParam : List UInt8) (s : Scan) : Except ScanFault (Option Scan) :=
  if s.offset < appParam.length then do
    let tag ← readParam appParam s.offset
    if tag = appPhonebookSize ∧ s.offset + wordAppParamLen ≤ appParam.length then
      let high ← readParam appParam (s.offset + 2)
      let low ← readParam appParam (s.offset + 3)
      pure (some { s with
        offset := (s.offset + wordAppParamLen) % 256
        pbSize := high.toNat * 256 + low.toNat })
    else if tag = appNewMissedCalls ∧ s.offset + byteAppParamLen ≤ appParam.length then
      let count ← readParam appParam (s.offset + 2)
      pure (some { s with offset := (s.offset + byteAppParamLen) % 256, newMissCall := count.toNat })
    else pure none
  else pure none

/-- The scan of a block. The turns that it is given are enough for every scan that ends. -/
def scanParams (appParam : List UInt8) : Except ScanFault Scan :=
  Lib.loop .endless (scanTurn appParam) 256 ⟨0, 0, 0⟩

/-- Handle the response. `mapped` is the block that `ObexObjMapHdrValue` finds in the source, and `filter` what
`ObexObjFilterHdrValue` gives for a header: the source of its value, and a length. -/
def handlePullListResp (deviceId : ℕ) (id : ListId) (status : LibStatus) (src : Source) (mapped : Option (List UInt8))
    (filter : BodyHdr → Source × ℕ) : Except ScanFault PullListCfm :=
  if status = .pending ∨ status = .success then do
    let hdr := if status = .pending then BodyHdr.body else BodyHdr.endBody
    let s ← match mapped with
      | some appParam => scanParams appParam
      | none => pure ⟨0, 0, 0⟩
    pure ⟨id, deviceId, status, s.pbSize, s.newMissCall, (filter hdr).1, (filter hdr).2⟩
  else pure ⟨id, deviceId, status, 0, 0, src, 0⟩

/-! ### The promise -/

/-- The number that a value stands for, the highest octet first. -/
def number (value : List UInt8) : ℕ := value.foldl (fun n octet => n * 256 + octet.toNat) 0

/-- The size of a phonebook and the number of missed calls have their lengths, and no tag stands twice. -/
structure WellFormed (params : List TagValue) : Prop where
  nodup : (params.map TagValue.tag).Nodup
  size {e : TagValue} (he : e ∈ params) (htag : e.tag = appPhonebookSize) : e.value.length = 2
  calls {e : TagValue} (he : e ∈ params) (htag : e.tag = appNewMissedCalls) : e.value.length = 1

/-- The number under a tag, zero without one. -/
def numberUnder (tag : UInt8) (params : List TagValue) : ℕ :=
  match params.find? fun e => e.tag = tag with
  | some e => number e.value
  | none => 0

/-- **The promise** for a block: the response is handled without a read outside of the block, its body is handed on, and
the numbers of a well-formed block are found. -/
def Reports (block : List UInt8) : Prop :=
  ∀ (deviceId : ℕ) (id : ListId) (status : LibStatus) (src : Source) (filter : BodyHdr → Source × ℕ),
    status = .pending ∨ status = .success →
      ∃ m, handlePullListResp deviceId id status src (some block) filter = .ok m ∧
        (m.src, m.dataLen) = filter (if status = .pending then .body else .endBody) ∧
          ∀ params, block = TagValue.encode params → WellFormed params →
            m.pbookSize = numberUnder appPhonebookSize params ∧ m.newMissCalls = numberUnder appNewMissedCalls params

/-- The length of the parameter at a position, if the scan knows it and it is complete. -/
def paramAt (block : List UInt8) (p : ℕ) : Option ℕ :=
  if block[p]? = some appPhonebookSize ∧ p + wordAppParamLen ≤ block.length then some wordAppParamLen
  else if block[p]? = some appNewMissedCalls ∧ p + byteAppParamLen ≤ block.length then some byteAppParamLen
  else none

/-- Some positions, the first one among them, all hold parameters that lead to each other, modulo 256. -/
def Loops (block : List UInt8) : Prop :=
  ∃ S : ℕ → Prop, S 0 ∧ ∀ p, S p → ∃ n, paramAt block p = some n ∧ S ((p + n) % 256)

/-- The tags that the scan knows. -/
def Known (e : TagValue) : Prop := e.tag = appPhonebookSize ∨ e.tag = appNewMissedCalls

instance (e : TagValue) : Decidable (Known e) := inferInstanceAs (Decidable (_ ∨ _))

/-- A number that is looked for stands in front of every other parameter, or is zero. -/
def InFront (params : List TagValue) : Prop :=
  ∀ front other back, params = front ++ other :: back → ¬ Known other → ∀ e ∈ back, Known e → number e.value = 0

/-! ### One turn -/

variable {appParam : List UInt8}

theorem readParam_of_getElem? {i : ℕ} {octet : UInt8} (h : appParam[i]? = some octet) :
    readParam appParam i = .ok octet := by rw [readParam, h]

theorem exists_readParam {i : ℕ} (h : i < appParam.length) :
    ∃ octet, readParam appParam i = .ok octet ∧ appParam[i]? = some octet :=
  ⟨_, readParam_of_getElem? (List.getElem?_eq_getElem h), List.getElem?_eq_getElem h⟩

/-- The positions move as the parameters say, and no turn reads outside of the block. -/
def positionTurn (block : List UInt8) (p : ℕ) : Unit ⊕ ℕ :=
  match paramAt block p with
  | some n => .inr ((p + n) % 256)
  | none => .inl ()

variable {block : List UInt8}

theorem positionTurn_of_none {p : ℕ} (h : paramAt block p = none) : positionTurn block p = .inl () := by
  rw [positionTurn, h]

theorem positionTurn_of_some {p n : ℕ} (h : paramAt block p = some n) :
    positionTurn block p = .inr ((p + n) % 256) := by rw [positionTurn, h]

/-- What a turn does at a position. -/
theorem scanTurn_eq (block : List UInt8) (s : Scan) :
    (paramAt block s.offset = none ∧ scanTurn block s = .ok none) ∨
      ∃ n s', paramAt block s.offset = some n ∧ scanTurn block s = .ok (some s') ∧ s'.offset = (s.offset + n) % 256 := by
  rw [scanTurn, paramAt]
  by_cases hlt : s.offset < block.length
  · obtain ⟨tag, hread, htag⟩ := exists_readParam hlt
    rw [if_pos hlt, hread, htag, ok_bind]
    simp only [some.injEq]
    by_cases hsize : tag = appPhonebookSize ∧ s.offset + wordAppParamLen ≤ block.length
    · obtain ⟨high, hhigh, -⟩ := exists_readParam (show s.offset + 2 < block.length from Nat.le_of_succ_le hsize.2)
      obtain ⟨low, hlow, -⟩ := exists_readParam (show s.offset + 3 < block.length from hsize.2)
      rw [if_pos hsize, if_pos hsize, hhigh, ok_bind, hlow, ok_bind]
      exact .inr ⟨_, _, rfl, rfl, rfl⟩
    · rw [if_neg hsize, if_neg hsize]
      by_cases hcalls : tag = appNewMissedCalls ∧ s.offset + byteAppParamLen ≤ block.length
      · obtain ⟨count, hcount, -⟩ := exists_readParam (show s.offset + 2 < block.length from hcalls.2)
        rw [if_pos hcalls, if_pos hcalls, hcount, ok_bind]
        exact .inr ⟨_, _, rfl, rfl, rfl⟩
      · rw [if_neg hcalls, if_neg hcalls]
        exact .inl ⟨rfl, rfl⟩
  · have hnone : block[s.offset]? = none := List.getElem?_eq_none (Nat.le_of_not_lt hlt)
    rw [if_neg hlt, hnone, if_neg fun h => some_ne_none _ h.1.symm, if_neg fun h => some_ne_none _ h.1.symm]
    exact .inl ⟨rfl, rfl⟩

/-- The scan ends exactly if its positions do not lead to each other. -/
theorem scanParams_cases (block : List UInt8) :
    (Loops block ∧ scanParams block = .error .endless) ∨ (¬ Loops block ∧ ∃ s, scanParams block = .ok s) := by
  have hbound (p q : ℕ) (h : positionTurn block p = .inr q) : q < 256 := by
    rcases hparam : paramAt block p with - | n
    · rw [positionTurn_of_none hparam] at h
      exact absurd h Sum.inl_ne_inr
    · rw [positionTurn_of_some hparam] at h
      exact Sum.inr.inj h ▸ Nat.mod_lt _ (by decide)
  have hclosed : Lib.search (positionTurn block) 256 0 = none ↔ Loops block := by
    rw [search_eq_none_iff_closed (by decide) hbound (Nat.le_refl _)]
    refine exists_congr fun S => and_congr_right fun _ => forall₂_congr fun p _ => ?_
    rcases hparam : paramAt block p with - | n
    · rw [positionTurn_of_none hparam]
      simp
    · rw [positionTurn_of_some hparam]
      simp
  have hfollows := @Lib.loop_follows Scan ScanFault .endless (scanTurn block) (positionTurn block) Scan.offset (fun s hs => ?_) (fun s q hs => ?_) 256 ⟨0, 0, 0⟩
  · rcases hfollows with ⟨hnone, hloop⟩ | ⟨hsome, hloop⟩
    · exact .inl ⟨hclosed.mp hnone, hloop⟩
    · exact .inr ⟨fun h => hsome (hclosed.mpr h), hloop⟩
  · rcases scanTurn_eq block s with ⟨-, hturn⟩ | ⟨n, -, hparam, -, -⟩
    · exact hturn
    · rw [positionTurn_of_some hparam] at hs
      exact absurd hs Sum.inr_ne_inl
  · rcases scanTurn_eq block s with ⟨hparam, -⟩ | ⟨n, s', hparam, hturn, hoffset⟩
    · rw [positionTurn_of_none hparam] at hs
      exact absurd hs Sum.inl_ne_inr
    · rw [positionTurn_of_some hparam] at hs
      exact ⟨s', hturn, hoffset.trans (Sum.inr.inj hs)⟩

/-! ### Well-formed blocks -/

section

variable {params front : List TagValue} {e : TagValue}

theorem WellFormed.tail (h : WellFormed (e :: params)) : WellFormed params where
  nodup := (nodup_cons.mp h.nodup).2
  size he := h.size (mem_cons_of_mem _ he)
  calls he := h.calls (mem_cons_of_mem _ he)

theorem WellFormed.prefix_of {back : List TagValue} (h : WellFormed (front ++ back)) : WellFormed front where
  nodup := by
    have hnodup := h.nodup
    rw [map_append] at hnodup
    exact hnodup.of_append_left
  size he := h.size (mem_append_left _ he)
  calls he := h.calls (mem_append_left _ he)

/-- The variables after a parameter that the scan knows. -/
def Scan.take (s : Scan) (e : TagValue) : Scan :=
  if e.tag = appPhonebookSize then { s with offset := s.offset + e.octets.length, pbSize := number e.value }
  else { s with offset := s.offset + e.octets.length, newMissCall := number e.value }

theorem Scan.take_offset (s : Scan) (e : TagValue) : (s.take e).offset = s.offset + e.octets.length := by
  rw [Scan.take]
  split <;> rfl

theorem length_eq_two {value : List UInt8} (h : value.length = 2) : ∃ high low, value = [high, low] := by
  match value, h with
  | [high, low], _ => exact ⟨high, low, rfl⟩

theorem length_eq_one {value : List UInt8} (h : value.length = 1) : ∃ octet, value = [octet] := by
  match value, h with
  | [octet], _ => exact ⟨octet, rfl⟩

/-- A turn takes the parameter behind some octets. -/
theorem scanTurn_entry (hformed : WellFormed [e]) (hknown : Known e) (before back : List UInt8) (s : Scan)
    (hoffset : s.offset = before.length) (hsmall : before.length + e.octets.length < 256) :
    scanTurn (before ++ (e.octets ++ back)) s = .ok (some (s.take e)) := by
  have htag := readParam_of_getElem? (TagValue.getElem?_entry before e back)
  have hlength : (before ++ (e.octets ++ back)).length = before.length + (e.octets.length + back.length) := by
    rw [length_append, length_append]
  have hfirst (i : ℕ) {octet : UInt8} (h : e.value[i]? = some octet) :
      readParam (before ++ (e.octets ++ back)) (before.length + 2 + i) = .ok octet :=
    readParam_of_getElem? ((TagValue.getElem?_entry_value before e back (List.getElem?_eq_some_iff.mp h).1).trans h)
  rw [scanTurn, hoffset, htag, ok_bind, hlength, Scan.take, hoffset]
  rw [TagValue.length_octets] at hsmall ⊢
  rw [if_pos (show before.length < before.length + (e.value.length + 2 + back.length) by omega)]
  by_cases hsize : e.tag = appPhonebookSize
  · have hvalue := hformed.size mem_cons_self hsize
    obtain ⟨high, low, hoctets⟩ := length_eq_two hvalue
    rw [hvalue] at hsmall ⊢
    rw [if_pos ⟨hsize, by unfold wordAppParamLen; omega⟩, if_pos hsize]
    have hhigh := hfirst 0 (show _ = some high by rw [hoctets]; rfl)
    have hlow := hfirst 1 (show _ = some low by rw [hoctets]; rfl)
    rw [Nat.add_zero] at hhigh
    rw [hhigh, ok_bind, show before.length + 3 = before.length + 2 + 1 from rfl, hlow, ok_bind,
      show before.length + wordAppParamLen = before.length + 4 from rfl, Nat.mod_eq_of_lt hsmall, hoctets, number]
    simp
  · have hcalls : e.tag = appNewMissedCalls := hknown.resolve_left hsize
    have hvalue := hformed.calls mem_cons_self hcalls
    obtain ⟨octet, hoctets⟩ := length_eq_one hvalue
    rw [hvalue] at hsmall ⊢
    rw [if_neg fun h => hsize h.1, if_neg hsize, if_pos ⟨hcalls, by unfold byteAppParamLen; omega⟩]
    have hcount := hfirst 0 (show _ = some octet by rw [hoctets]; rfl)
    rw [Nat.add_zero] at hcount
    rw [hcount, ok_bind, show before.length + byteAppParamLen = before.length + 3 from rfl, Nat.mod_eq_of_lt hsmall,
      hoctets, number]
    simp

theorem scanTurn_stop {s : Scan} (h : paramAt block s.offset = none) : scanTurn block s = .ok none := by
  rcases scanTurn_eq block s with ⟨-, hturn⟩ | ⟨n, -, hparam, -⟩
  · exact hturn
  · exact absurd (h.symm.trans hparam) (some_ne_none n).symm

/-- The scan takes all parameters up to one that it does not know. -/
theorem scan_front (hformed : WellFormed front) (hknown : ∀ e ∈ front, Known e) (before tail : List UInt8) (s : Scan)
    (hoffset : s.offset = before.length) (hsmall : before.length + (TagValue.encode front).length < 256)
    (hstop : paramAt (before ++ (TagValue.encode front ++ tail))
      (before.length + (TagValue.encode front).length) = none) {n : ℕ} (hn : front.length < n) :
    Lib.loop .endless (scanTurn (before ++ (TagValue.encode front ++ tail))) n s = .ok (front.foldl Scan.take s) := by
  induction front generalizing before s n with
  | nil =>
    obtain ⟨n, rfl⟩ := Nat.exists_eq_succ_of_ne_zero (Nat.ne_zero_of_lt hn)
    rw [TagValue.encode_nil, length_nil, Nat.add_zero] at hstop
    exact loop_stop (scanTurn_stop (hoffset ▸ hstop)) n
  | cons e front ih =>
    obtain ⟨n, rfl⟩ := Nat.exists_eq_succ_of_ne_zero (Nat.ne_zero_of_lt hn)
    rw [TagValue.encode_cons, length_append] at hsmall hstop
    rw [TagValue.encode_cons]
    rw [List.append_assoc] at hstop ⊢
    have hone : WellFormed [e] := @WellFormed.prefix_of [e] front hformed
    rw [loop_turn (scanTurn_entry hone (hknown e mem_cons_self) before _ s hoffset (by omega)), foldl_cons]
    have hrest := ih hformed.tail (fun x hx => hknown x (mem_cons_of_mem _ hx)) (before ++ e.octets) (s.take e)
      (by rw [Scan.take_offset, hoffset, length_append]) (by rw [length_append]; omega)
      (by rwa [length_append, List.append_assoc, Nat.add_assoc]) (Nat.lt_of_succ_lt_succ hn)
    rwa [List.append_assoc] at hrest

/-- What the scan has found under a tag that it knows. -/
def Scan.under (tag : UInt8) (s : Scan) : ℕ := if tag = appPhonebookSize then s.pbSize else s.newMissCall

theorem Scan.take_under {tag : UInt8} (htag : tag = appPhonebookSize ∨ tag = appNewMissedCalls) (hknown : Known e) (s : Scan) :
    (s.take e).under tag = if e.tag = tag then number e.value else s.under tag := by
  have hne : appNewMissedCalls ≠ appPhonebookSize := by decide
  rw [Scan.take, Scan.under, Scan.under]
  rcases htag with rfl | rfl <;> rcases hknown with h | h <;> simp [h, hne, hne.symm]

/-- What is found is what stands under the tag. -/
theorem foldl_take_under {tag : UInt8} (htag : tag = appPhonebookSize ∨ tag = appNewMissedCalls)
    (hnodup : (front.map TagValue.tag).Nodup) (hknown : ∀ e ∈ front, Known e) (s : Scan) :
    (front.foldl Scan.take s).under tag = ((front.find? fun e => e.tag = tag).map fun e => number e.value).getD (s.under tag) := by
  induction front generalizing s with
  | nil => rfl
  | cons e front ih =>
    rw [map_cons, nodup_cons] at hnodup
    rw [foldl_cons, ih hnodup.2 (fun x hx => hknown x (mem_cons_of_mem _ hx)),
      Scan.take_under htag (hknown e mem_cons_self), List.find?_cons]
    by_cases he : e.tag = tag
    · -- The tag does not stand behind its own entry.
      have hnone : front.find? (fun e => e.tag = tag) = none := by
        refine List.find?_eq_none.mpr fun x hx hsame => hnodup.1 ?_
        rw [he, ← of_decide_eq_true hsame]
        exact List.mem_map_of_mem hx
      rw [hnone, if_pos he, decide_eq_true he]
      rfl
    · rw [if_neg he, decide_eq_false he]

/-- Of the parameters that the scan knows there are two at most. -/
theorem length_known (hnodup : (front.map TagValue.tag).Nodup) (hknown : ∀ e ∈ front, Known e) : front.length ≤ 2 := by
  have hsubset : front.map TagValue.tag ⊆ [appPhonebookSize, appNewMissedCalls] := by
    intro tag htag
    obtain ⟨e, he, rfl⟩ := List.mem_map.mp htag
    rcases hknown e he with h | h <;> simp [h]
  have hle := (subperm_of_subset hnodup hsubset).length_le
  rwa [length_map] at hle

theorem length_encode_known (hformed : WellFormed front) (hknown : ∀ e ∈ front, Known e) :
    (TagValue.encode front).length ≤ 4 * front.length := by
  induction front with
  | nil => exact Nat.zero_le _
  | cons e front ih =>
    have hrest := ih hformed.tail fun x hx => hknown x (mem_cons_of_mem _ hx)
    have hone : e.value.length ≤ 2 := by
      rcases hknown e mem_cons_self with h | h
      · exact Nat.le_of_eq (hformed.size mem_cons_self h)
      · exact Nat.le_succ_of_le (Nat.le_of_eq (hformed.calls mem_cons_self h))
    rw [TagValue.encode_cons, length_append, TagValue.length_octets, length_cons]
    omega

/-- A well-formed block ends behind the parameters that the scan knows, or goes on with another one. -/
theorem exists_front (params : List TagValue) : ∃ front rest, params = front ++ rest ∧ (∀ e ∈ front, Known e) ∧
    (rest = [] ∨ ∃ other back, rest = other :: back ∧ ¬ Known other) := by
  induction params with
  | nil => exact ⟨[], [], rfl, fun _ h => absurd h not_mem_nil, .inl rfl⟩
  | cons e params ih =>
    by_cases hknown : Known e
    · obtain ⟨front, rest, rfl, hfront, hrest⟩ := ih
      exact ⟨e :: front, rest, rfl, forall_mem_cons.mpr ⟨hknown, hfront⟩, hrest⟩
    · exact ⟨[], e :: params, rfl, fun _ h => absurd h not_mem_nil, .inr ⟨e, params, rfl, hknown⟩⟩

variable {rest : List TagValue}

/-- What the scan of a well-formed block finds. -/
theorem scanParams_encode (hformed : WellFormed (front ++ rest)) (hknown : ∀ e ∈ front, Known e)
    (hrest : rest = [] ∨ ∃ other back, rest = other :: back ∧ ¬ Known other) :
    scanParams (TagValue.encode (front ++ rest)) = .ok (front.foldl Scan.take ⟨0, 0, 0⟩) := by
  have hfront := hformed.prefix_of
  have htwo := length_known hfront.nodup hknown
  have hshort := length_encode_known hfront hknown
  have hstop : paramAt ([] ++ (TagValue.encode front ++ TagValue.encode rest))
      (([] : List UInt8).length + (TagValue.encode front).length) = none := by
    rw [nil_append, length_nil, Nat.zero_add, paramAt]
    rcases hrest with rfl | ⟨other, back, rfl, hother⟩
    · have hend : (TagValue.encode front ++ TagValue.encode [])[(TagValue.encode front).length]? = none :=
        List.getElem?_eq_none (by rw [TagValue.encode_nil, append_nil])
      rw [hend, if_neg fun h => some_ne_none _ h.1.symm, if_neg fun h => some_ne_none _ h.1.symm]
    · have htag := TagValue.getElem?_entry (TagValue.encode front) other (TagValue.encode back)
      rw [TagValue.encode_cons, htag, if_neg fun h => hother (.inl (some.inj h.1)),
        if_neg fun h => hother (.inr (some.inj h.1))]
  rw [TagValue.encode_append, scanParams]
  exact scan_front hfront hknown [] _ ⟨0, 0, 0⟩ rfl (by rw [length_nil]; omega) hstop (by omega)

theorem numberUnder_append (tag : UInt8) (rest : List TagValue) :
    numberUnder tag (front ++ rest) = (((front.find? fun e => e.tag = tag).or (rest.find? fun e => e.tag = tag)).map
      fun e => number e.value).getD 0 := by
  rw [numberUnder, List.find?_append]
  cases (front.find? fun e => e.tag = tag).or (rest.find? fun e => e.tag = tag) <;> rfl

/-- What stands behind a parameter that the scan does not know is not in front. -/
theorem mem_rest {front' back rest : List TagValue} {other : TagValue} (hknown : ∀ e ∈ front, Known e)
    (hsame : front ++ rest = front' ++ other :: back) (hother : ¬ Known other) (he : e ∈ back) : e ∈ rest := by
  rcases append_eq_append_iff.mp hsame with ⟨middle, -, hrest⟩ | ⟨middle, hfront, hback⟩
  · rw [hrest]
    exact mem_append_right _ (mem_cons_of_mem _ he)
  · cases middle with
    | nil =>
      rw [nil_append] at hback
      exact hback ▸ mem_cons_of_mem _ he
    | cons x middle =>
      obtain ⟨rfl, -⟩ := List.cons.inj hback
      exact absurd (hknown other (hfront ▸ mem_append_right _ mem_cons_self)) hother

/-- The numbers are found exactly if they stand in front. -/
theorem found_iff (hformed : WellFormed (front ++ rest)) (hknown : ∀ e ∈ front, Known e)
    (hrest : rest = [] ∨ ∃ other back, rest = other :: back ∧ ¬ Known other) :
    (∀ tag, tag = appPhonebookSize ∨ tag = appNewMissedCalls →
        (front.foldl Scan.take ⟨0, 0, 0⟩).under tag = numberUnder tag (front ++ rest)) ↔ InFront (front ++ rest) := by
  have hfound {tag : UInt8} (htag : tag = appPhonebookSize ∨ tag = appNewMissedCalls) :
      (front.foldl Scan.take ⟨0, 0, 0⟩).under tag =
        ((front.find? fun e => e.tag = tag).map fun e => number e.value).getD 0 := by
    rw [foldl_take_under htag hformed.prefix_of.nodup hknown]
    congr 1
    rw [Scan.under]
    exact ite_self 0
  have hnodup := hformed.nodup
  rw [map_append, nodup_append] at hnodup
  constructor
  · intro hall front' other back hsame hother e he hknownE
    have herest := mem_rest hknown hsame hother he
    have hfront : front.find? (fun x => x.tag = e.tag) = none := by
      refine List.find?_eq_none.mpr fun x hx htag => ?_
      exact hnodup.2.2 _ (List.mem_map_of_mem hx) _ (List.mem_map_of_mem herest) (of_decide_eq_true htag)
    have hequal := hall e.tag hknownE
    rw [hfound hknownE, numberUnder_append, hfront, none_or] at hequal
    cases hfind : rest.find? fun x => x.tag = e.tag with
    | none => exact absurd (List.find?_eq_none.mp hfind e herest) (by simp)
    | some x =>
      have htag : x.tag = e.tag := by simpa using List.find?_some hfind
      obtain rfl : x = e := inj_on_of_nodup_map hnodup.2.1 (mem_of_find?_eq_some hfind) herest htag
      rw [hfind] at hequal
      exact hequal.symm
  · intro hinFront tag htag
    rw [hfound htag, numberUnder_append]
    cases hfront : front.find? fun x => x.tag = tag with
    | some x => rfl
    | none =>
      rw [none_or]
      cases hfind : rest.find? fun x => x.tag = tag with
      | none => rfl
      | some x =>
        have hx : x.tag = tag := by simpa using List.find?_some hfind
        have hknownX : Known x := by
          rw [Known, hx]
          exact htag
        rcases hrest with rfl | ⟨other, back, rfl, hother⟩
        · exact absurd hfind (some_ne_none x).symm
        · rcases mem_cons.mp (mem_of_find?_eq_some hfind) with rfl | hback
          · exact absurd hknownX hother
          · exact (hinFront front other back rfl hother x hback hknownX).symm

end

/-! ### The claim -/

/-- A block is reported exactly if its scan ends, and the numbers of a well-formed one stand in front. -/
theorem reports_iff (block : List UInt8) :
    Reports block ↔
      ¬ Loops block ∧ ∀ params, block = Lib.TagValue.encode params → WellFormed params → InFront params := by
  have hhandle {s : Scan} (hscan : scanParams block = .ok s) (deviceId : ℕ) (id : ListId) (status : LibStatus) (src : Source)
      (filter : BodyHdr → Source × ℕ) (hstatus : status = .pending ∨ status = .success) :
      handlePullListResp deviceId id status src (some block) filter =
        .ok ⟨id, deviceId, status, s.pbSize, s.newMissCall, (filter (if status = .pending then .body else .endBody)).1,
          (filter (if status = .pending then .body else .endBody)).2⟩ := by
    rw [handlePullListResp, if_pos hstatus]
    dsimp only
    rw [hscan]
    rfl
  have hunder (s : Scan) (params : List TagValue) :
      (s.pbSize = numberUnder appPhonebookSize params ∧ s.newMissCall = numberUnder appNewMissedCalls params) ↔
        ∀ tag, tag = appPhonebookSize ∨ tag = appNewMissedCalls → s.under tag = numberUnder tag params := by
    have hcalls : s.under appNewMissedCalls = s.newMissCall := if_neg (by decide)
    constructor
    · rintro ⟨hsize, hnumber⟩ tag (rfl | rfl)
      · exact hsize
      · exact hcalls.trans hnumber
    · intro h
      exact ⟨h _ (.inl rfl), hcalls.symm.trans (h _ (.inr rfl))⟩
  have hscanned {s : Scan} (hscan : scanParams block = .ok s) {params : List TagValue}
      (hblock : block = TagValue.encode params) (hformed : WellFormed params) :
      (s.pbSize = numberUnder appPhonebookSize params ∧ s.newMissCall = numberUnder appNewMissedCalls params) ↔
        InFront params := by
    obtain ⟨front, rest, rfl, hknown, hrest⟩ := exists_front params
    rw [hblock, scanParams_encode hformed hknown hrest] at hscan
    rw [hunder, ← Except.ok.inj hscan]
    exact found_iff hformed hknown hrest
  rcases scanParams_cases block with ⟨hloops, hendless⟩ | ⟨hends, s, hscan⟩
  · refine iff_of_false (fun hreports => ?_) fun h => h.1 hloops
    obtain ⟨m, hm, -⟩ := hreports 0 .pullPhonebookCfm .success 0 (fun _ => (0, 0)) (.inr rfl)
    rw [handlePullListResp, if_pos (.inr rfl)] at hm
    dsimp only at hm
    rw [hendless, error_bind] at hm
    exact absurd hm (by simp)
  · rw [and_iff_right hends]
    constructor
    · intro hreports params hblock hformed
      obtain ⟨m, hm, -, hfound⟩ := hreports 0 .pullPhonebookCfm .success 0 (fun _ => (0, 0)) (.inr rfl)
      rw [hhandle hscan _ _ _ _ _ (.inr rfl)] at hm
      rw [← Except.ok.inj hm] at hfound
      exact (hscanned hscan hblock hformed).mp (hfound params hblock hformed)
    · intro hfront deviceId id status src filter hstatus
      refine ⟨_, hhandle hscan deviceId id status src filter hstatus, rfl, fun params hblock hformed => ?_⟩
      exact (hscanned hscan hblock hformed).mpr (hfront params hblock hformed)

/-- 66 times the size of the phonebook, in 264 octets. -/
def repeatedSize : List UInt8 := (List.range 264).map fun i => if i % 4 = 0 then 8 else if i % 4 = 1 then 2 else 0

theorem loops_repeatedSize : Loops repeatedSize := by
  refine ⟨fun p => p % 4 = 0 ∧ p < 256, ⟨rfl, by decide⟩, fun p hp => ⟨wordAppParamLen, ?_, ?_⟩⟩
  · have hlength : repeatedSize.length = 264 := by rw [repeatedSize, length_map, length_range]
    have htag : repeatedSize[p]? = some appPhonebookSize := by
      rw [repeatedSize, List.getElem?_map, List.getElem?_range (by omega), map_some, if_pos hp.1]
      rfl
    exact if_pos ⟨htag, by rw [hlength]; exact Nat.le_trans (Nat.add_le_add_right hp.2.le 4) (by decide)⟩
  · unfold wordAppParamLen
    omega

/-- Every block is reported. -/
def AlwaysReports : Prop := ∀ block : List UInt8, block.length < 65536 → Reports block

/-- A block of 264 octets is scanned forever, and a size behind another parameter is not found. -/
theorem not_alwaysReports : ¬ AlwaysReports ∧ ¬ Reports [1, 1, 0, 8, 2, 0, 5] := by
  constructor
  · intro halways
    have hlength : repeatedSize.length = 264 := by rw [repeatedSize, length_map, length_range]
    obtain ⟨m, hm, -⟩ := halways repeatedSize (by rw [hlength]; decide) 0 .pullPhonebookCfm .success 0 (fun _ => (0, 0)) (.inr rfl)
    rcases scanParams_cases repeatedSize with ⟨-, hendless⟩ | ⟨hends, -⟩
    · rw [handlePullListResp, if_pos (.inr rfl)] at hm
      dsimp only at hm
      rw [hendless, error_bind] at hm
      exact absurd hm (by simp)
    · exact hends loops_repeatedSize
  · intro hreports
    obtain ⟨m, hm, -, hfound⟩ := hreports 0 .pullPhonebookCfm .success 0 (fun _ => (0, 0)) (.inr rfl)
    have hsize := (hfound [⟨1, [0], by decide⟩, ⟨8, [0, 5], by decide⟩] rfl ⟨by decide, by decide, by decide⟩).1
    obtain rfl := Except.ok.inj hm
    exact absurd hsize (by decide)

end Cbps.Pbapc
