import Cbps.SdpParse.Inserts
import Cbps.SdpParse.Profiles

/-!
# The service name

`SdpParseGetServiceName` copies the service name into an array, and `SdpParseInsertServiceName` writes a shorter name over
it and fills the rest with spaces. Both take the octet in front of the value for its length. This is the last octet of the
size field, and the length, since a service record has no more than 255 octets.
-/

namespace Cbps.SdpParse

open List

open Service
open Lib (Reads)

variable (mem : ℕ → UInt8)

/-! ### The code -/

/-- The length of the old name, which stands in front of the name. -/
def nameLength (value : Region) : ℕ := regionReadUnsigned mem ⟨value.begin - 1, value.begin⟩ % 256

/-- `SdpParseGetServiceName`: the result, `length_service_name`, and the characters that have been written into the array,
if it has not been replaced by `NULL`. -/
def sdpParseGetServiceName (sizeServiceName : ℕ) (record : Region) : Except Fault (Bool × ℕ × Option (List UInt8)) := do
  match ← findAttribute mem 0x0100 .textString record with
  | none => return (false, 0, none)
  | some value =>
    if nameLength mem value ≠ 0 ∧ sizeServiceName ≠ 0 then
      let length := if nameLength mem value > sizeServiceName - 1 then sizeServiceName - 1 else nameLength mem value
      -- the region grows with every character, and the last octet is kept of its number
      let chars := (List.range length).map fun k =>
        UInt8.ofNat (regionReadUnsigned mem ⟨value.begin, value.begin + 1 + k⟩)
      return (true, (length + 1) % 256, some (chars ++ [0]))
    else return (false, 0, none)

/-- A loop of `SdpParseInsertServiceName`, which writes characters into regions of one octet. -/
def writeChars : (ℕ → UInt8) → ℕ → List UInt8 → ℕ → UInt8
  | mem, _, [] => mem
  | mem, begin, c :: chars => writeChars (regionWriteUnsigned mem ⟨begin, begin + 1⟩ c.toNat) (begin + 1) chars

/-- `SdpParseInsertServiceName`. -/
def sdpParseInsertServiceName (name : List UInt8) (record : Region) : Except Fault (Bool × (ℕ → UInt8)) := do
  let size := name.length % 256
  if size ≤ 32 ∧ size > 0 then
    match ← findAttribute mem 0x0100 .textString record with
    | none => return (false, mem)
    | some value =>
      if size ≤ nameLength mem value then
        return (true, writeChars (writeChars mem value.begin (name.take size)) (value.begin + size)
          (List.replicate (nameLength mem value - size) 0x20))
      else return (false, mem)
  else return (false, mem)

/-! ### Names -/

variable {mem} {record v : Region}

/-- The first attribute for the service name is a text string; its size has a field of its own. -/
def HasName (mem : ℕ → UInt8) (record : Region) (e : DataElement) : Prop :=
  ∃ front a back, record.octets mem = Service.record (front ++ a :: back) ∧ (∀ b ∈ front, b.number ≠ 0x0100) ∧
    a.number = 0x0100 ∧ a.value = e ∧ e.type = .textString ∧ 5 ≤ e.head.toNat % 8

/-- **The promise** of `SdpParseGetServiceName`: as many characters of the name as the array has room for, and a zero; no
octet behind the name is looked at. -/
def GetsName (mem : ℕ → UInt8) (sizeServiceName : ℕ) (record v : Region) (t : List UInt8) : Prop :=
  Reads (fun mem => sdpParseGetServiceName mem sizeServiceName record) mem record.begin v.end
    (true, min t.length (sizeServiceName - 1) + 1, some (t.take (min t.length (sizeServiceName - 1)) ++ [0]))

/-- A name with spaces up to the length of the old one. -/
def padded (name old : List UInt8) : List UInt8 := name ++ List.replicate (old.length - name.length) 0x20

/-! ### Single octets -/

/-- The last octet of the number in a region. -/
theorem last_octet (mem : ℕ → UInt8) (b k : ℕ) : UInt8.ofNat (regionReadUnsigned mem ⟨b, b + 1 + k⟩) = mem (b + k) := by
  have hoctets : (⟨b, b + 1 + k⟩ : Region).octets mem = (⟨b, b + k⟩ : Region).octets mem ++ [mem (b + k)] := by
    have hlen : b + 1 + k - b = k + 1 := by omega
    simp only [Region.octets, hlen, Nat.add_sub_cancel_left, range_succ, map_append, map_cons, map_nil]
  have hlt := (mem (b + k)).toNat_lt
  rw [regionReadUnsigned_eq, hoctets, bigEndian_concat]
  refine UInt8.toNat_inj.mp ?_
  change (bigEndian ((⟨b, b + k⟩ : Region).octets mem) * 256 + (mem (b + k)).toNat) % 4294967296 % 256 = _
  omega

theorem write_octet (mem : ℕ → UInt8) (b : ℕ) (c : UInt8) :
    regionWriteUnsigned mem ⟨b, b + 1⟩ c.toNat = Function.update mem b c := by
  have hc : UInt8.ofNat c.toNat = c := UInt8.ofNat_toNat
  rw [regionWriteUnsigned]
  simp only [Nat.add_sub_cancel_left, writeUnsigned, Nat.add_zero, hc]

theorem writeChars_append (begin : ℕ) (chars chars' : List UInt8) :
    writeChars (writeChars mem begin chars) (begin + chars.length) chars' = writeChars mem begin (chars ++ chars') := by
  induction chars generalizing mem begin with
  | nil => rfl
  | cons c chars ih =>
    rw [writeChars, cons_append, writeChars, ← ih, length_cons, Nat.add_assoc, Nat.add_comm 1]

theorem writeChars_outside {begin i : ℕ} {chars : List UInt8} (h : ¬ (begin ≤ i ∧ i < begin + chars.length)) :
    writeChars mem begin chars i = mem i := by
  induction chars generalizing mem begin with
  | nil => rfl
  | cons c chars ih =>
    rw [length_cons] at h
    rw [writeChars, ih (by omega), write_octet, Function.update_of_ne (by omega)]

theorem octets_writeChars (begin : ℕ) (chars : List UInt8) :
    (⟨begin, begin + chars.length⟩ : Region).octets (writeChars mem begin chars) = chars := by
  induction chars generalizing mem begin with
  | nil => simp [Region.octets]
  | cons c chars ih =>
    have hrest := @ih (regionWriteUnsigned mem ⟨begin, begin + 1⟩ c.toNat) (begin + 1)
    have hfirst : writeChars (regionWriteUnsigned mem ⟨begin, begin + 1⟩ c.toNat) (begin + 1) chars begin = c := by
      rw [writeChars_outside (by omega), write_octet, Function.update_self]
    simp only [Region.octets, Nat.add_sub_cancel_left] at hrest
    rw [writeChars]
    simp only [Region.octets, Nat.add_sub_cancel_left, length_cons, range_succ_eq_map, map_cons,
      map_map, Nat.add_zero]
    rw [hfirst]
    refine congrArg _ (Eq.trans (map_congr_left fun i _ => ?_) hrest)
    change writeChars _ _ _ (begin + (i + 1)) = _
    rw [Nat.add_assoc, Nat.add_comm 1]

/-! ### Getting the name -/

/-- The characters that are copied. -/
theorem copied (mem : ℕ → UInt8) (v : Region) {n : ℕ} (hn : n ≤ v.end - v.begin) :
    (List.range n).map (fun k => UInt8.ofNat (regionReadUnsigned mem ⟨v.begin, v.begin + 1 + k⟩)) =
      (v.octets mem).take n := by
  rw [Region.octets, ← map_take, take_range, Nat.min_eq_left hn]
  exact map_congr_left fun k _ => last_octet mem v.begin k

/-- What is copied of a name with its length in front. -/
theorem getServiceName_eq (hfind : findAttribute mem 0x0100 .textString record = .ok (some v))
    (hlength : nameLength mem v = v.end - v.begin) {s : ℕ} (hs : s < 256) :
    sdpParseGetServiceName mem s record = .ok (if v.octets mem ≠ [] ∧ 0 < s then
      (true, min (v.octets mem).length (s - 1) + 1,
        some ((v.octets mem).take (min (v.octets mem).length (s - 1)) ++ [0])) else (false, 0, none)) := by
  have hcond : (nameLength mem v ≠ 0 ∧ s ≠ 0) ↔ v.octets mem ≠ [] ∧ 0 < s := by
    rw [hlength, ← @length_octets mem, Nat.pos_iff_ne_zero]
    exact and_congr_left' (not_congr length_eq_zero_iff)
  have hmin : (if nameLength mem v > s - 1 then s - 1 else nameLength mem v) = min (v.octets mem).length (s - 1) := by
    rw [hlength, length_octets]
    split <;> omega
  rw [sdpParseGetServiceName, hfind, Lib.ok_bind]
  dsimp only
  rw [hmin, copied mem v (by rw [length_octets]; exact Nat.min_le_left _ _)]
  by_cases hc : v.octets mem ≠ [] ∧ 0 < s
  · have hlt : min (v.octets mem).length (s - 1) + 1 < 256 := by omega
    rw [if_pos (hcond.mpr hc), if_pos hc, Nat.mod_eq_of_lt hlt]
    rfl
  · rw [if_neg (fun h => hc (hcond.mp h)), if_neg hc]
    rfl

/-- A name with its length in front is got, and nothing behind it is looked at. -/
theorem getsName_of_find (hsmall : record.Small) (hfind : findAttribute mem 0x0100 .textString record = .ok (some v))
    (hlength : nameLength mem v = v.end - v.begin) {s : ℕ} (hs : s < 256) (hpos : 0 < s) (hne : v.octets mem ≠ []) :
    GetsName mem s record v (v.octets mem) := by
  obtain ⟨result, hresult, hfound⟩ := findAttribute_locates mem 0x0100 .textString hsmall
  have hat := hfound v (Except.ok.inj (hresult.symm.trans hfind))
  obtain ⟨hbegin, hle, -⟩ := hat.inside
  intro mem' hmem
  have hfind' : findAttribute mem' 0x0100 .textString record = .ok (some v) :=
    hat.reads mem' fun i hi hi' => hmem i hi (Nat.lt_of_lt_of_le hi' hle)
  have hoctets : v.octets mem' = v.octets mem :=
    octets_congr fun i hi hi' => hmem i (Nat.le_trans (Nat.le_of_lt hbegin) hi) hi'
  have hfront : (⟨v.begin - 1, v.begin⟩ : Region).octets mem' = (⟨v.begin - 1, v.begin⟩ : Region).octets mem :=
    octets_congr fun i hi hi' => hmem i (by dsimp only at hi; omega) (Nat.lt_of_lt_of_le hi' hle)
  have hlength' : nameLength mem' v = v.end - v.begin := by
    rw [← hlength, nameLength, nameLength, regionReadUnsigned_eq, regionReadUnsigned_eq, hfront]
  dsimp only
  rw [getServiceName_eq hfind' hlength' hs, hoctets, if_pos ⟨hne, hpos⟩]

/-! ### The name in its record -/

/-- The last octet of a size field is the size, if it is below 256. -/
theorem exists_last {e : DataElement} (hhead : 5 ≤ e.head.toNat % 8) (hlen : e.value.length ≤ 255) :
    ∃ l b, e.field = l ++ [b] ∧ b.toNat = e.value.length := by
  have hwidth : 0 < e.field.length := by
    rw [e.length_field, fieldWidth]
    have hlt := Nat.mod_lt e.head.toNat (show 0 < 8 by decide)
    obtain h | h | h : e.head.toNat % 8 = 5 ∨ e.head.toNat % 8 = 6 ∨ e.head.toNat % 8 = 7 := by omega
    all_goals rw [h]; decide
  have hdeclared : e.value.length = bigEndian e.field := by
    rw [e.length_value, declared]
    have hlt := Nat.mod_lt e.head.toNat (show 0 < 8 by decide)
    obtain h | h | h : e.head.toNat % 8 = 5 ∨ e.head.toNat % 8 = 6 ∨ e.head.toNat % 8 = 7 := by omega
    all_goals rw [h]; rfl
  rcases eq_nil_or_concat e.field with hnil | ⟨l, b, hfield⟩
  · rw [hnil] at hwidth
    cases hwidth
  · refine ⟨l, b, hfield.trans concat_eq_append, ?_⟩
    have hb := b.toNat_lt
    rw [hfield, concat_eq_append, bigEndian_concat] at hdeclared
    omega

/-- The name is found, with its length in front. -/
theorem find_name (hsmall : record.Small) (hshort : record.end - record.begin ≤ 255) {e : DataElement}
    (h : HasName mem record e) : ∃ v, findAttribute mem 0x0100 .textString record = .ok (some v) ∧
      v.octets mem = e.value ∧ nameLength mem v = v.end - v.begin := by
  obtain ⟨front, a, back, hoctets, hfront, ha, rfl, htype, hhead⟩ := h
  obtain ⟨next, hfind, htype', hat, -, -⟩ := find_first hsmall hoctets hfront ha
  obtain ⟨hin, hsmall'⟩ := value_in hoctets
  have hvalue : next.value.octets mem = a.value.value := by rw [hat, octets_region hin]
  refine ⟨next.value, ?_, hvalue, ?_⟩
  · rw [findAttribute, hfind, Lib.ok_bind]
    exact if_pos ⟨rfl, htype'.trans htype⟩
  · have hle := hin.length_le
    rw [length_octets, a.value.length_octets, Region.skip] at hle
    dsimp only at hle
    obtain ⟨l, b, hfield, hb⟩ := exists_last hhead (by omega)
    obtain ⟨post, hpost⟩ := hin
    have hpart := @octets_part mem (record.skip (Service.record front ++ a.id.octets).length) (1 + l.length) 1 (by
      rw [← hpost, DataElement.octets, hfield]
      simp
      omega)
    have hbehind : a.value.octets ++ post = (a.value.head :: l) ++ ([b] ++ (a.value.value ++ post)) := by
      rw [DataElement.octets, hfield]
      simp
    have hone : (1 + l.length) = (a.value.head :: l).length := by rw [length_cons, Nat.add_comm]
    rw [← hpost, hbehind, hone, drop_left] at hpart
    have hbefore : (⟨next.value.begin - 1, next.value.begin⟩ : Region).octets mem = [b] := by
      have hregion : (⟨next.value.begin - 1, next.value.begin⟩ : Region) =
          ⟨(record.skip (Service.record front ++ a.id.octets).length).begin + (a.value.head :: l).length,
            (record.skip (Service.record front ++ a.id.octets).length).begin + (a.value.head :: l).length + 1⟩ := by
        rw [hat, DataElement.region, hfield, Region.mk.injEq]
        simp only [length_append, length_cons, length_nil]
        exact ⟨by omega, by omega⟩
      rw [hregion, hpart]
      rfl
    have hb' : bigEndian [b] = b.toNat := by simp [bigEndian]
    have hlt := b.toNat_lt
    rw [nameLength, regionReadUnsigned_eq, hbefore, hb', ← @length_octets mem, hvalue, ← hb]
    omega

/-! ### Inserting a name -/

/-- The record after an insertion. -/
theorem insertServiceName_eq (hfind : findAttribute mem 0x0100 .textString record = .ok (some v))
    (hlength : nameLength mem v = v.end - v.begin) {name : List UInt8} (hname : name.length < 256) :
    sdpParseInsertServiceName mem name record =
      .ok (if (name.length ≤ 32 ∧ name.length > 0) ∧ name.length ≤ v.end - v.begin then
        (true, writeChars mem v.begin (padded name (v.octets mem))) else (false, mem)) := by
  rw [sdpParseInsertServiceName, Nat.mod_eq_of_lt hname]
  by_cases hsize : name.length ≤ 32 ∧ name.length > 0
  · rw [if_pos hsize, hfind, Lib.ok_bind]
    dsimp only
    rw [hlength]
    by_cases hfits : name.length ≤ v.end - v.begin
    · rw [if_pos hfits, if_pos ⟨hsize, hfits⟩, take_length, writeChars_append, padded, length_octets]
      rfl
    · rw [if_neg hfits, if_neg (fun h => hfits h.2)]
      rfl
  · rw [if_neg hsize, if_neg (fun h => hsize h.1)]
    rfl

theorem length_padded {name old : List UInt8} (h : name.length ≤ old.length) : (padded name old).length = old.length := by
  rw [padded, length_append, length_replicate]
  omega

/-- The name is copied into the array as far as there is room, and a name that has been inserted is got with spaces up to the
old length; nothing behind the name is looked at or changed. -/
theorem serviceName_kept (mem : ℕ → UInt8) (record : Region) (e : DataElement) (hle : record.begin ≤ record.end)
    (hshort : record.end - record.begin ≤ 255) (h : HasName mem record e) :
    ∃ v, findAttribute mem 0x0100 .textString record = .ok (some v) ∧ v.octets mem = e.value ∧
      (∀ s, s < 256 → if e.value ≠ [] ∧ 0 < s then GetsName mem s record v e.value
        else sdpParseGetServiceName mem s record = .ok (false, 0, none)) ∧
      ∀ name : List UInt8, name.length < 256 →
        if (name.length ≤ 32 ∧ name.length > 0) ∧ name.length ≤ e.value.length then
          ∃ mem', sdpParseInsertServiceName mem name record = .ok (true, mem') ∧
            (∀ i, ¬ (v.begin ≤ i ∧ i < v.end) → mem' i = mem i) ∧
            ∀ s, 0 < s → s < 256 → GetsName mem' s record v (padded name e.value)
        else sdpParseInsertServiceName mem name record = .ok (false, mem) := by
  have hsmall : record.Small := ⟨hle, Nat.le_trans hshort (by decide)⟩
  obtain ⟨v, hfind, hvalue, hlength⟩ := find_name hsmall hshort h
  have hlen : v.end - v.begin = e.value.length := by rw [← hvalue, length_octets]
  refine ⟨v, hfind, hvalue, fun s hs => ?_, fun name hname => ?_⟩
  · have hget := getServiceName_eq hfind hlength hs
    rw [hvalue] at hget
    by_cases hc : e.value ≠ [] ∧ 0 < s
    · rw [if_pos hc, ← hvalue]
      exact getsName_of_find hsmall hfind hlength hs hc.2 (hvalue ▸ hc.1)
    · rw [if_neg hc]
      rwa [if_neg hc] at hget
  · have hinsert := insertServiceName_eq hfind hlength hname
    rw [hvalue, hlen] at hinsert
    by_cases hc : (name.length ≤ 32 ∧ name.length > 0) ∧ name.length ≤ e.value.length
    · rw [if_pos hc]
      rw [if_pos hc] at hinsert
      obtain ⟨result, hresult, hfound⟩ := findAttribute_locates mem 0x0100 .textString hsmall
      obtain ⟨hbegin, hmid, -⟩ := (hfound v (Except.ok.inj (hresult.symm.trans hfind))).inside
      have hend : v.begin + (padded name e.value).length = v.end := by
        rw [length_padded hc.2]
        omega
      have houtside : ∀ i, ¬ (v.begin ≤ i ∧ i < v.end) → writeChars mem v.begin (padded name e.value) i = mem i :=
        fun i hi => writeChars_outside (hend.symm ▸ hi)
      refine ⟨_, hinsert, houtside, fun s hpos hs => ?_⟩
      have hfind' : findAttribute (writeChars mem v.begin (padded name e.value)) 0x0100 .textString record = .ok (some v) :=
        (hfound v (Except.ok.inj (hresult.symm.trans hfind))).reads _ fun i _ hi => houtside i fun hi' => by omega
      have hoctets : v.octets (writeChars mem v.begin (padded name e.value)) = padded name e.value := by
        have hwritten := @octets_writeChars mem v.begin (padded name e.value)
        rwa [hend] at hwritten
      have hfront : (⟨v.begin - 1, v.begin⟩ : Region).octets (writeChars mem v.begin (padded name e.value)) =
          (⟨v.begin - 1, v.begin⟩ : Region).octets mem :=
        octets_congr fun i _ hi => houtside i fun hi' => by dsimp only at hi; omega
      have hlength' : nameLength (writeChars mem v.begin (padded name e.value)) v = v.end - v.begin := by
        rw [← hlength, nameLength, nameLength, regionReadUnsigned_eq, regionReadUnsigned_eq, hfront]
      have hgets := getsName_of_find hsmall hfind' hlength' hs hpos (by
        rw [hoctets, ← length_pos_iff_ne_nil, length_padded hc.2]
        omega)
      rwa [hoctets] at hgets
    · rw [if_neg hc]
      rwa [if_neg hc] at hinsert

/-- A record with a service name of five characters. -/
def namedRecord (i : ℕ) : UInt8 := [0x09, 0x01, 0x00, 0x25, 0x05, 0x48, 0x65, 0x6C, 0x6C, 0x6F].getD i 0

/-- The name is copied, and can be replaced. -/
theorem kept_namedRecord : ∃ v, findAttribute namedRecord 0x0100 .textString ⟨0, 10⟩ = .ok (some v) ∧
    GetsName namedRecord 4 ⟨0, 10⟩ v [0x48, 0x65, 0x6C, 0x6C, 0x6F] ∧
      ∃ mem', sdpParseInsertServiceName namedRecord [0x48, 0x69] ⟨0, 10⟩ = .ok (true, mem') ∧
        GetsName mem' 9 ⟨0, 10⟩ v [0x48, 0x69, 0x20, 0x20, 0x20] := by
  obtain ⟨v, hfind, -, hget, hinsert⟩ := serviceName_kept namedRecord ⟨0, 10⟩
    ⟨0x25, [0x05], [0x48, 0x65, 0x6C, 0x6C, 0x6F], rfl, rfl⟩ (by decide) (by decide)
    ⟨[], ⟨⟨0x09, [], [0x01, 0x00], rfl, rfl⟩, ⟨0x25, [0x05], [0x48, 0x65, 0x6C, 0x6C, 0x6F], rfl, rfl⟩, by decide, rfl⟩, [],
      by decide, fun b hb => (not_mem_nil hb).elim, by decide, rfl, by decide, by decide⟩
  have hget' := hget 4 (by decide)
  rw [if_pos ⟨by decide, by decide⟩] at hget'
  have hinsert' := hinsert [0x48, 0x69] (by decide)
  rw [if_pos ⟨by decide, by decide⟩] at hinsert'
  obtain ⟨mem', hmem', -, hgets⟩ := hinsert'
  exact ⟨v, hfind, hget', mem', hmem', hgets 9 (by decide) (by decide)⟩

/-- An empty name is refused, and the array is lost. -/
theorem not_getsName : ∃ mem record e v, HasName mem record e ∧
    findAttribute mem 0x0100 .textString record = .ok (some v) ∧ ¬ GetsName mem 4 record v e.value := by
  refine ⟨fun i => [0x09, 0x01, 0x00, 0x25, 0x00].getD i 0, ⟨0, 5⟩, ⟨0x25, [0x00], [], rfl, rfl⟩, ⟨5, 5⟩,
    ⟨[], ⟨⟨0x09, [], [0x01, 0x00], rfl, rfl⟩, ⟨0x25, [0x00], [], rfl, rfl⟩, by decide, rfl⟩, [],
      by decide, fun b hb => (not_mem_nil hb).elim, by decide, rfl, by decide, by decide⟩, by decide, fun h => ?_⟩
  have hfalse : sdpParseGetServiceName (fun i => [0x09, 0x01, 0x00, 0x25, 0x00].getD i 0) 4 ⟨0, 5⟩ =
      .ok (false, 0, none) := by decide
  have heq := h.eq
  dsimp only at heq
  rw [hfalse] at heq
  cases heq

end Cbps.SdpParse
