import Cbps.Lib.Masks
import Mathlib.Data.List.Zip

/-!
# The numbering of the wide-band speech codecs

`CodecsInfo` holds the mask of the supported codecs and one codec id for each bit that is set, in ascending order of the
bits. `WbsCodecMaskToCodecId` and `WbsCodecIdToCodecMask` shift a test mask over the sixteen bits and move an index into the
list of ids along; a read of the list outside of it is `none`.

The index counts the positions of the mask. The way from an id to its mask skips the clear bits before the first codec
(`codecIdToCodecMask_eq`). The way from a mask to its id does not: it moves the index along at the first codec, unless that
is the codec of the bit 0.
-/

namespace Cbps.Wbs

open List Option

open Cbps.Lib (positions)

/-- The identifier of a codec. -/
abbrev WbsCodec := ℕ

/-- The supported codecs and their ids. -/
structure CodecsInfo where
  codecs : BitVec 16
  codec_ids : List WbsCodec
deriving DecidableEq, Repr

/-! ### The two functions -/

/-- Whether a bit of a mask is set. -/
def tests (mask test_mask : BitVec 16) : Bool := mask &&& test_mask != 0

/-- The loop of `WbsCodecMaskToCodecId`: the index at which the codec is found. -/
def findIndex (codecs codec_mask : BitVec 16) : ℕ → BitVec 16 → ℕ → Option ℕ
  | 0, _, _ => none
  | left + 1, test_mask, codec_index =>
    if tests codec_mask test_mask then some codec_index
    else findIndex codecs codec_mask left (test_mask <<< 1)
      (if tests codecs (test_mask <<< 1) then codec_index + 1 else codec_index)

/-- The codec id of a codec mask, zero when the mask is empty; `none` is a read outside of the list. -/
def wbsCodecMaskToCodecId (info : CodecsInfo) (codec_mask : BitVec 16) : Option WbsCodec :=
  match findIndex info.codecs codec_mask 16 1 0 with
  | some codec_index => info.codec_ids[codec_index]?
  | none => some 0

/-- The loop of `WbsCodecIdToCodecMask`. -/
def findMask (info : CodecsInfo) (codec_id : WbsCodec) : ℕ → BitVec 16 → ℕ → Bool → Option (BitVec 16)
  | 0, _, _, _ => some 0
  | left + 1, test_mask, codec_index, first_bit_found =>
    if !first_bit_found && !tests info.codecs test_mask then
      findMask info codec_id left (test_mask <<< 1) codec_index first_bit_found
    else
      -- The id is read in front of the test of the bit.
      info.codec_ids[codec_index]?.bind fun listed =>
        if listed = codec_id ∧ tests info.codecs test_mask then some test_mask
        else findMask info codec_id left (test_mask <<< 1)
          (if tests info.codecs (test_mask <<< 1) then codec_index + 1 else codec_index) true

/-- The codec mask of a codec id, zero when the id is not listed; `none` is a read outside of the list. -/
def wbsCodecIdToCodecMask (info : CodecsInfo) (codec_id : WbsCodec) : Option (BitVec 16) :=
  findMask info codec_id 16 1 0 false

/-! ### The promise -/

/-- One id for each codec, none of them twice. -/
structure CodecsInfo.Listed (info : CodecsInfo) : Prop where
  nodup : info.codec_ids.Nodup
  length : info.codec_ids.length = (positions info.codecs).length

/-- **The promise**: the two functions number the codecs by the ranks of their bits. -/
structure Numbered (info : CodecsInfo) : Prop where
  toId {rank b : ℕ} (h : (positions info.codecs)[rank]? = some b) :
    ∃ id, info.codec_ids[rank]? = some id ∧ wbsCodecMaskToCodecId info (BitVec.twoPow 16 b) = some id
  toMask {rank b : ℕ} (h : (positions info.codecs)[rank]? = some b) :
    ∃ id, info.codec_ids[rank]? = some id ∧ wbsCodecIdToCodecMask info id = some (BitVec.twoPow 16 b)
  maskToMask {b : ℕ} (h : info.codecs.getLsbD b = true) :
    ∃ id, wbsCodecMaskToCodecId info (BitVec.twoPow 16 b) = some id ∧
      wbsCodecIdToCodecMask info id = some (BitVec.twoPow 16 b)
  idToId {id : WbsCodec} (h : id ∈ info.codec_ids) :
    ∃ mask, wbsCodecIdToCodecMask info id = some mask ∧ wbsCodecMaskToCodecId info mask = some id
  unlisted {id : WbsCodec} (h : id ∉ info.codec_ids) : wbsCodecIdToCodecMask info id = some 0

/-! ### Positions from a bit on -/

/-- The positions of a mask among `n` bits from the bit `k` on. -/
def positionsFrom (m : BitVec 16) (k n : ℕ) : List ℕ := (List.range' k n).filter m.getLsbD

theorem positionsFrom_zero (m : BitVec 16) : positionsFrom m 0 16 = positions m := by
  rw [positionsFrom, positions, range_eq_range']

variable {m : BitVec 16}

theorem positionsFrom_succ_of_set {k : ℕ} (n : ℕ) (h : m.getLsbD k = true) :
    positionsFrom m k (n + 1) = k :: positionsFrom m (k + 1) n := by
  rw [positionsFrom, range'_succ, filter_cons_of_pos h, positionsFrom]

theorem positionsFrom_succ_of_clear {k : ℕ} (n : ℕ) (h : m.getLsbD k = false) :
    positionsFrom m k (n + 1) = positionsFrom m (k + 1) n := by
  rw [positionsFrom, range'_succ, filter_cons_of_neg (by rw [h]; exact Bool.false_ne_true), positionsFrom]

theorem le_of_mem_positionsFrom {k n b : ℕ} (h : b ∈ positionsFrom m k n) : k ≤ b := by
  rw [positionsFrom, mem_filter, mem_range'_1] at h
  exact h.1.1

theorem tests_twoPow (m : BitVec 16) {k : ℕ} (hk : k < 16) : tests m (BitVec.twoPow 16 k) = m.getLsbD k := by
  rw [tests, BitVec.and_twoPow]
  cases hbit : m.getLsbD k with
  | false => rfl
  | true =>
    refine bne_iff_ne.mpr fun hzero => ?_
    have hset := congrArg (fun x => BitVec.getLsbD x k) hzero
    simp [hk] at hset

theorem twoPow_shiftLeft (k : ℕ) : BitVec.twoPow 16 k <<< 1 = BitVec.twoPow 16 (k + 1) := by
  rw [BitVec.twoPow, BitVec.twoPow, BitVec.shiftLeft_add]

/-! ### The way from a mask to its id -/

theorem findIndex_found (codecs : BitVec 16) {b : ℕ} (hb : b < 16) (n i : ℕ) :
    findIndex codecs (BitVec.twoPow 16 b) (n + 1) (BitVec.twoPow 16 b) i = some i := by
  rw [findIndex, tests_twoPow _ hb, BitVec.getLsbD_twoPow]
  simp [hb]

theorem findIndex_other (codecs : BitVec 16) {b k : ℕ} (hk : k < 16) (hne : b ≠ k) (n i : ℕ) :
    findIndex codecs (BitVec.twoPow 16 b) (n + 1) (BitVec.twoPow 16 k) i =
      findIndex codecs (BitVec.twoPow 16 b) n (BitVec.twoPow 16 (k + 1))
        (if tests codecs (BitVec.twoPow 16 (k + 1)) then i + 1 else i) := by
  have htest : tests (BitVec.twoPow 16 b) (BitVec.twoPow 16 k) = false := by
    rw [tests_twoPow _ hk, BitVec.getLsbD_twoPow]
    simp [hne]
  rw [findIndex, htest, if_neg Bool.false_ne_true, twoPow_shiftLeft]

/-- A codec above the tested bit is found behind the index, as far as it stands behind the bit. -/
theorem findIndex_behind (codecs : BitVec 16) (n k i j b : ℕ) (hk : k + n < 16)
    (h : (positionsFrom codecs (k + 1) n)[j]? = some b) :
    findIndex codecs (BitVec.twoPow 16 b) (n + 1) (BitVec.twoPow 16 k) i = some (i + j + 1) := by
  induction n generalizing k i j with
  | zero => exact absurd h (some_ne_none b).symm
  | succ n ih =>
    have hle : k + 1 ≤ b := le_of_mem_positionsFrom (mem_of_getElem? h)
    have hne : b ≠ k := Nat.ne_of_gt hle
    have hnext : k + 1 + n < 16 := by omega
    rw [findIndex_other codecs (by omega) hne, tests_twoPow codecs (by omega)]
    cases hbit : codecs.getLsbD (k + 1) with
    | false =>
      rw [positionsFrom_succ_of_clear n hbit] at h
      exact ih (k + 1) i j hnext h
    | true =>
      rw [positionsFrom_succ_of_set n hbit] at h
      rw [if_pos rfl]
      cases j with
      | zero =>
        -- The tested bit is the codec.
        obtain rfl : k + 1 = b := some.inj h
        exact findIndex_found codecs (by omega) n (i + 1)
      | succ j =>
        rw [ih (k + 1) (i + 1) j hnext h]
        exact congrArg some (by omega)

variable {info : CodecsInfo}

theorem twoPow_zero : (1 : BitVec 16) = BitVec.twoPow 16 0 := rfl

variable {rank b : ℕ}

/-- With the codec of the bit 0, the index of a codec is its rank. -/
theorem codecMaskToCodecId_of_set (hset : info.codecs.getLsbD 0 = true)
    (h : (positions info.codecs)[rank]? = some b) :
    wbsCodecMaskToCodecId info (BitVec.twoPow 16 b) = info.codec_ids[rank]? := by
  rw [← positionsFrom_zero, positionsFrom_succ_of_set 15 hset] at h
  rw [wbsCodecMaskToCodecId, twoPow_zero]
  cases rank with
  | zero =>
    obtain rfl : 0 = b := some.inj h
    rw [findIndex_found info.codecs (by decide) 15 0]
  | succ rank =>
    rw [findIndex_behind info.codecs 15 0 0 rank b (by decide) h, Nat.zero_add]

/-- Without it, the index is one behind. -/
theorem codecMaskToCodecId_of_clear (hclear : info.codecs.getLsbD 0 = false)
    (h : (positions info.codecs)[rank]? = some b) :
    wbsCodecMaskToCodecId info (BitVec.twoPow 16 b) = info.codec_ids[rank + 1]? := by
  rw [← positionsFrom_zero, positionsFrom_succ_of_clear 15 hclear] at h
  rw [wbsCodecMaskToCodecId, twoPow_zero, findIndex_behind info.codecs 15 0 0 rank b (by decide) h, Nat.zero_add]

/-! ### The way from an id to its mask -/

/-- The mask of an id in a list of ids and bits. -/
def maskOf (codec_id : WbsCodec) (entries : List (WbsCodec × ℕ)) : BitVec 16 :=
  match entries.find? fun entry => entry.1 = codec_id with
  | some entry => BitVec.twoPow 16 entry.2
  | none => 0

theorem maskOf_cons (codec_id id : WbsCodec) (b : ℕ) (entries : List (WbsCodec × ℕ)) :
    maskOf codec_id ((id, b) :: entries) =
      if id = codec_id then BitVec.twoPow 16 b else maskOf codec_id entries := by
  rw [maskOf, List.find?_cons]
  by_cases heq : id = codec_id
  · simp [heq]
  · simp [heq, maskOf]

/-- The bit is tested with the id at the index, and the codecs above it with the ids behind. -/
theorem findMask_behind (codec_id : WbsCodec) (n k i : ℕ) (id : WbsCodec) (hk : k + n < 16)
    (hid : info.codec_ids[i]? = some id)
    (hlength : info.codec_ids.length = i + 1 + (positionsFrom info.codecs (k + 1) n).length) :
    findMask info codec_id (n + 1) (BitVec.twoPow 16 k) i true =
      some (if id = codec_id ∧ info.codecs.getLsbD k = true then BitVec.twoPow 16 k
        else maskOf codec_id ((info.codec_ids.drop (i + 1)).zip (positionsFrom info.codecs (k + 1) n))) := by
  induction n generalizing k i id with
  | zero =>
    rw [findMask, tests_twoPow _ (show k < 16 from hk), hid]
    change (if id = codec_id ∧ info.codecs.getLsbD k = true then _ else some 0) = _
    rw [positionsFrom, range'_zero, filter_nil, zip_nil_right]
    split <;> rfl
  | succ n ih =>
    have hnext : k + 1 + n < 16 := by omega
    rw [findMask, tests_twoPow _ (by omega), hid, twoPow_shiftLeft, tests_twoPow _ (by omega)]
    change (if id = codec_id ∧ info.codecs.getLsbD k = true then _ else findMask _ _ _ _ _ _) = _
    by_cases hfound : id = codec_id ∧ info.codecs.getLsbD k = true
    · rw [if_pos hfound, if_pos hfound]
    · rw [if_neg hfound, if_neg hfound]
      cases hbit : info.codecs.getLsbD (k + 1) with
      | false =>
        rw [positionsFrom_succ_of_clear n hbit] at hlength ⊢
        rw [if_neg Bool.false_ne_true, ih (k + 1) i id hnext hid hlength, hbit]
        simp
      | true =>
        rw [positionsFrom_succ_of_set n hbit, length_cons] at hlength
        have hlt : i + 1 < info.codec_ids.length := by omega
        rw [if_pos rfl, ih (k + 1) (i + 1) _ hnext (List.getElem?_eq_getElem hlt) (by omega), hbit,
          positionsFrom_succ_of_set n hbit, drop_eq_getElem_cons hlt, zip_cons_cons, maskOf_cons]
        simp

theorem findMask_first (codec_id : WbsCodec) (n k : ℕ) (hk : k + n ≤ 16)
    (hlength : info.codec_ids.length = (positionsFrom info.codecs k n).length) :
    findMask info codec_id n (BitVec.twoPow 16 k) 0 false =
      some (maskOf codec_id (info.codec_ids.zip (positionsFrom info.codecs k n))) := by
  induction n generalizing k with
  | zero =>
    rw [positionsFrom, range'_zero, filter_nil, zip_nil_right]
    rfl
  | succ n ih =>
    cases hbit : info.codecs.getLsbD k with
    | false =>
      rw [positionsFrom_succ_of_clear n hbit] at hlength ⊢
      rw [findMask, tests_twoPow _ (by omega), hbit, twoPow_shiftLeft]
      exact ih (k + 1) (by omega) hlength
    | true =>
      rw [positionsFrom_succ_of_set n hbit, length_cons] at hlength
      have hlt : 0 < info.codec_ids.length := by omega
      have hfound : findMask info codec_id (n + 1) (BitVec.twoPow 16 k) 0 false =
          findMask info codec_id (n + 1) (BitVec.twoPow 16 k) 0 true := by
        rw [findMask, findMask, tests_twoPow _ (by omega), hbit]
        rfl
      rw [hfound, findMask_behind codec_id n k 0 _ (by omega) (List.getElem?_eq_getElem hlt) (by omega), hbit,
        positionsFrom_succ_of_set n hbit]
      conv_rhs => rw [← drop_zero (l := info.codec_ids), drop_eq_getElem_cons hlt, zip_cons_cons, maskOf_cons]
      simp

/-- Every id is looked up in the whole list. -/
theorem codecIdToCodecMask_eq (hlength : info.codec_ids.length = (positions info.codecs).length) (codec_id : WbsCodec) :
    wbsCodecIdToCodecMask info codec_id = some (maskOf codec_id (info.codec_ids.zip (positions info.codecs))) := by
  rw [← positionsFrom_zero] at hlength ⊢
  exact findMask_first codec_id 16 0 (by decide) hlength

theorem maskOf_unlisted {codec_id : WbsCodec} {ids : List WbsCodec} (h : codec_id ∉ ids) (bits : List ℕ) :
    maskOf codec_id (ids.zip bits) = 0 := by
  have hnone : (ids.zip bits).find? (fun entry => entry.1 = codec_id) = none := by
    refine List.find?_eq_none.mpr fun entry hentry heq => h ?_
    rw [← of_decide_eq_true heq]
    exact (of_mem_zip hentry).1
  rw [maskOf, hnone]

/-- An id that is listed once has the bit at its own rank. -/
theorem maskOf_listed {ids : List WbsCodec} (hnodup : ids.Nodup) {bits : List ℕ} {codec_id : WbsCodec}
    (hid : ids[rank]? = some codec_id) (hb : bits[rank]? = some b) :
    maskOf codec_id (ids.zip bits) = BitVec.twoPow 16 b := by
  have hentry : (codec_id, b) ∈ ids.zip bits :=
    mem_of_getElem? (List.getElem?_zip_eq_some.mpr ⟨hid, hb⟩)
  rw [maskOf]
  cases hfind : (ids.zip bits).find? fun entry => entry.1 = codec_id with
  | none => exact absurd (List.find?_eq_none.mp hfind _ hentry) (by simp)
  | some entry =>
    obtain ⟨other, hother⟩ := List.getElem?_of_mem (mem_of_find?_eq_some hfind)
    obtain ⟨hotherId, hotherBit⟩ := List.getElem?_zip_eq_some.mp hother
    -- The entry stands at the rank of the id, which is listed once.
    have hsame : entry.1 = codec_id := by simpa using List.find?_some hfind
    have hrank : other = rank :=
      (List.getElem?_inj (List.getElem?_eq_some_iff.mp hotherId).1 hnodup).mp (by rw [hotherId, hid, hsame])
    rw [hrank, hb] at hotherBit
    exact congrArg (BitVec.twoPow 16) (some.inj hotherBit).symm

/-! ### The two ways together -/

theorem CodecsInfo.Listed.exists_id (hlisted : info.Listed) (h : (positions info.codecs)[rank]? = some b) :
    ∃ id, info.codec_ids[rank]? = some id ∧ wbsCodecIdToCodecMask info id = some (BitVec.twoPow 16 b) := by
  have hlt : rank < info.codec_ids.length := hlisted.length ▸ (List.getElem?_eq_some_iff.mp h).1
  refine ⟨_, List.getElem?_eq_getElem hlt, ?_⟩
  rw [codecIdToCodecMask_eq hlisted.length, maskOf_listed hlisted.nodup (List.getElem?_eq_getElem hlt) h]

theorem CodecsInfo.Listed.exists_bit (hlisted : info.Listed) {id : WbsCodec} (h : id ∈ info.codec_ids) :
    ∃ rank b : ℕ, info.codec_ids[rank]? = some id ∧ (positions info.codecs)[rank]? = some b := by
  obtain ⟨rank, hrank⟩ := List.getElem?_of_mem h
  have hlt : rank < (positions info.codecs).length := hlisted.length ▸ (List.getElem?_eq_some_iff.mp hrank).1
  exact ⟨rank, _, hrank, List.getElem?_eq_getElem hlt⟩

theorem numbered_of_set (hlisted : info.Listed) (hset : info.codecs.getLsbD 0 = true) : Numbered info where
  toId {rank b} h := by
    obtain ⟨id, hid, -⟩ := hlisted.exists_id h
    exact ⟨id, hid, (codecMaskToCodecId_of_set hset h).trans hid⟩
  toMask h := hlisted.exists_id h
  maskToMask {b} h := by
    obtain ⟨rank, hrank⟩ := List.getElem?_of_mem (Lib.mem_positions.mpr h)
    obtain ⟨id, hid, hmask⟩ := hlisted.exists_id hrank
    exact ⟨id, (codecMaskToCodecId_of_set hset hrank).trans hid, hmask⟩
  idToId {id} h := by
    obtain ⟨rank, b, hid, hb⟩ := hlisted.exists_bit h
    refine ⟨BitVec.twoPow 16 b, ?_, (codecMaskToCodecId_of_set hset hb).trans hid⟩
    rw [codecIdToCodecMask_eq hlisted.length, maskOf_listed hlisted.nodup hid hb]
  unlisted h := by rw [codecIdToCodecMask_eq hlisted.length, maskOf_unlisted h]

theorem numbered_of_none (hlisted : info.Listed) (hnone : info.codecs = 0) : Numbered info := by
  have hpositions : positions info.codecs = [] := Lib.positions_eq_nil.mpr hnone
  have hids : info.codec_ids = [] := length_eq_zero_iff.mp (hlisted.length.trans (congrArg _ hpositions))
  constructor
  · intro rank b h
    rw [hpositions] at h
    exact absurd h (some_ne_none b).symm
  · intro rank b h
    rw [hpositions] at h
    exact absurd h (some_ne_none b).symm
  · intro b h
    exact absurd (hpositions ▸ Lib.mem_positions.mpr h) not_mem_nil
  · intro id h
    exact absurd (hids ▸ h) not_mem_nil
  · intro id h
    rw [codecIdToCodecMask_eq hlisted.length, maskOf_unlisted h]

/-- The codecs are numbered by their ranks exactly if there is none, or the one of the bit 0 is among them. -/
theorem numbered_iff (hlisted : info.Listed) : Numbered info ↔ info.codecs = 0 ∨ info.codecs.getLsbD 0 = true := by
  constructor
  · intro hnumbered
    by_contra hneither
    obtain ⟨hcodecs, hclear⟩ := not_or.mp hneither
    -- The first codec gets the second id.
    obtain ⟨b, bits, hpositions⟩ := exists_cons_of_ne_nil fun h => hcodecs (Lib.positions_eq_nil.mp h)
    have hfirst : (positions info.codecs)[0]? = some b := by rw [hpositions, List.getElem?_cons_zero]
    obtain ⟨id, hid, hmask⟩ := hnumbered.toId hfirst
    rw [codecMaskToCodecId_of_clear (Bool.eq_false_iff.mpr hclear) hfirst] at hmask
    have hlt := (List.getElem?_eq_some_iff.mp hid).1
    have hsame := (List.getElem?_inj hlt hlisted.nodup).mp (hid.trans hmask.symm)
    exact absurd hsame (Nat.succ_ne_zero 0).symm
  · rintro (hnone | hset)
    · exact numbered_of_none hlisted hnone
    · exact numbered_of_set hlisted hset

/-- The two codecs of the profile. -/
theorem numbered_iff_profile : Numbered ⟨0x3, [1, 2]⟩ ↔ (0x3 : BitVec 16) = 0 ∨ (0x3 : BitVec 16).getLsbD 0 = true :=
  numbered_iff ⟨by decide, by decide⟩

/-- Every list of ids is numbered. -/
def AlwaysNumbered : Prop := ∀ info : CodecsInfo, info.Listed → Numbered info

/-- One codec at the bit 1: its id is read behind the list. -/
theorem not_alwaysNumbered : ¬ AlwaysNumbered := by
  intro halways
  obtain ⟨id, -, hmask⟩ := (halways ⟨0x2, [2]⟩ ⟨by decide, by decide⟩).toId (show (positions (0x2 : BitVec 16))[0]? = some 1 by decide)
  have hnone : wbsCodecMaskToCodecId ⟨0x2, [2]⟩ (BitVec.twoPow 16 1) = none := by decide
  exact some_ne_none id (hmask.symm.trans hnone)

end Cbps.Wbs
