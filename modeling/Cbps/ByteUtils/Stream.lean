import Mathlib.Data.List.Basic
import Mathlib.Data.List.GetD
import Mathlib.Logic.Function.Basic

/-!
# Packed octets

The setters of `byte_utils.c` see a buffer as 16-bit words, with two octets in each word: the octet of an even index above,
the one of an odd index below. `ByteUtilsMemCpyToStream` sees the same buffer through a pointer to `u8`, one octet wide, and
reads the element `i / 2` of it, shifted down by eight bits for an even `i`.

The order of the octets of a word in memory is a parameter (`Endian`). All setters are sequences of `byteUtilsSet1Byte`
(`Append.set_eq`), and a packed buffer holds the octet `i` at the address `place e i` (`Packed`). The reader gives the
octets back exactly if they are zero, apart from the octet 1 where words have their lower octet first
(`streamed_iff`).
-/

namespace Cbps.ByteUtils

open Function

abbrev Octet := BitVec 8

/-- The octets from the start of a buffer on. -/
abbrev Memory := ℕ → Octet

/-- The order of the octets of a word. -/
inductive Endian
  | little
  | big
deriving DecidableEq, Repr

/-! ### The functions -/

/-- The address of the upper octet of the word `index`. -/
def upper : Endian → ℕ → ℕ
  | .little, index => 2 * index + 1
  | .big, index => 2 * index

/-- The address of the lower octet of the word `index`. -/
def lower : Endian → ℕ → ℕ
  | .little, index => 2 * index
  | .big, index => 2 * index + 1

/-- A read through a pointer to `u16`. -/
def readWord (e : Endian) (mem : Memory) (index : ℕ) : BitVec 16 := mem (upper e index) ++ mem (lower e index)

/-- A write through a pointer to `u16`. -/
def writeWord (e : Endian) (mem : Memory) (index : ℕ) (val : BitVec 16) : Memory :=
  Function.update (Function.update mem (upper e index) ((val >>> 8).setWidth 8)) (lower e index) (val.setWidth 8)

/-- Set the octet `byteIndex`, and return the number of octets. -/
def byteUtilsSet1Byte (e : Endian) (dst : Memory) (byteIndex : ℕ) (val : Octet) : Memory × ℕ :=
  if byteIndex % 2 ≠ 0 then
    (writeWord e dst (byteIndex / 2) (readWord e dst (byteIndex / 2) ||| val.setWidth 16), 1)
  else
    (writeWord e dst (byteIndex / 2) (val.setWidth 16 <<< 8), 1)

/-- Set two octets from `byteIndex` on. -/
def byteUtilsSet2Bytes (e : Endian) (dst : Memory) (byteIndex : ℕ) (val : BitVec 16) : Memory × ℕ :=
  if byteIndex % 2 ≠ 0 then
    (writeWord e (writeWord e dst (byteIndex / 2) (readWord e dst (byteIndex / 2) ||| val >>> 8)) (byteIndex / 2 + 1)
      (val <<< 8), 2)
  else
    (writeWord e dst (byteIndex / 2) val, 2)

/-- Set four octets from `byteIndex` on; the index is of 16 bits. -/
def byteUtilsSet4Bytes (e : Endian) (dst : Memory) (byteIndex : ℕ) (val : BitVec 32) : Memory × ℕ :=
  let (dst, set) := byteUtilsSet2Bytes e dst byteIndex ((val >>> 16).setWidth 16)
  ((byteUtilsSet2Bytes e dst ((byteIndex + set) % 65536) (val.setWidth 16)).1, 4)

/-- Pack a stream into a buffer. -/
def byteUtilsMemCpyFromStream (e : Endian) (dst : Memory) (src : List Octet) : Memory :=
  src.zipIdx.foldl (fun dst x => (byteUtilsSet1Byte e dst x.2 x.1).1) dst

/-- The stream that is read from a buffer. -/
def byteUtilsMemCpyToStream (src : Memory) (size : ℕ) : List Octet :=
  (List.range size).map fun i => if i % 2 ≠ 0 then src (i / 2) else src (i / 2) >>> 8

/-- A call of one of the setters. -/
inductive Append
  | one (val : Octet)
  | two (val : BitVec 16)
  | four (val : BitVec 32)
deriving DecidableEq, Repr

/-- The octets of a value, the highest first. -/
def Append.octets : Append → List Octet
  | .one val => [val]
  | .two val => [(val >>> 8).setWidth 8, val.setWidth 8]
  | .four val => [(val >>> 24).setWidth 8, (val >>> 16).setWidth 8, (val >>> 8).setWidth 8, val.setWidth 8]

/-- The call at an index. -/
def Append.set (e : Endian) (dst : Memory) (byteIndex : ℕ) : Append → Memory × ℕ
  | .one val => byteUtilsSet1Byte e dst byteIndex val
  | .two val => byteUtilsSet2Bytes e dst byteIndex val
  | .four val => byteUtilsSet4Bytes e dst byteIndex val

/-- Calls at consecutive indices, each behind what the one before has set. -/
def appendAll (e : Endian) : Memory → ℕ → List Append → Memory
  | dst, _, [] => dst
  | dst, byteIndex, a :: as => appendAll e (a.set e dst byteIndex).1 (byteIndex + (a.set e dst byteIndex).2) as

/-! ### Octets of words -/

theorem setWidth_shiftLeft (val : BitVec 16) : ((val <<< 8) >>> 8).setWidth 8 = val.setWidth 8 := by
  refine BitVec.eq_of_getLsbD_eq fun i hi => ?_
  simp only [BitVec.getLsbD_setWidth, BitVec.getLsbD_ushiftRight, BitVec.getLsbD_shiftLeft, hi,
    show 8 + i < 16 by omega, show ¬ 8 + i < 8 by omega, decide_true, decide_false, Bool.not_false, Bool.true_and,
    Nat.add_sub_cancel_left]

theorem setWidth_shiftLeft_low (val : BitVec 16) : (val <<< 8).setWidth 8 = 0 := by
  refine BitVec.eq_of_getLsbD_eq fun i hi => ?_
  simp [hi]

theorem setWidth_shiftRight (val : BitVec 16) : ((val >>> 8) >>> 8).setWidth 8 = 0 := by
  refine BitVec.eq_of_getLsbD_eq fun i hi => ?_
  simp

theorem setWidth_setWidth (val : Octet) : (val.setWidth 16).setWidth 8 = val := by
  refine BitVec.eq_of_getLsbD_eq fun i hi => ?_
  simp [hi]

theorem setWidth_setWidth_shiftRight (val : Octet) : ((val.setWidth 16) >>> 8).setWidth 8 = 0 := by
  refine BitVec.eq_of_getLsbD_eq fun i hi => ?_
  simp

theorem setWidth_or_low (a b : Octet) (val : BitVec 16) : ((a ++ b) ||| val).setWidth 8 = b ||| val.setWidth 8 := by
  refine BitVec.eq_of_getLsbD_eq fun i hi => ?_
  simp only [BitVec.getLsbD_setWidth, BitVec.getLsbD_or, BitVec.getLsbD_append, hi, decide_true, Bool.true_and, if_true]

theorem setWidth_or_high (a b : Octet) (val : BitVec 16) :
    (((a ++ b) ||| val) >>> 8).setWidth 8 = a ||| (val >>> 8).setWidth 8 := by
  refine BitVec.eq_of_getLsbD_eq fun i hi => ?_
  simp only [BitVec.getLsbD_setWidth, BitVec.getLsbD_ushiftRight, BitVec.getLsbD_or, BitVec.getLsbD_append, hi,
    decide_true, Bool.true_and, show ¬ 8 + i < 8 by omega, if_false, Nat.add_sub_cancel_left]

theorem octet_shiftRight (val : BitVec 32) :
    (((val >>> 16).setWidth 16) >>> 8).setWidth 8 = ((val >>> 24).setWidth 8 : Octet) := by
  refine BitVec.eq_of_getLsbD_eq fun i hi => ?_
  simp only [BitVec.getLsbD_setWidth, BitVec.getLsbD_ushiftRight, hi, show 8 + i < 16 by omega, decide_true,
    Bool.true_and, ← Nat.add_assoc]

theorem octet_shiftRight_zero (val : BitVec 32) : ((val.setWidth 16) >>> 8).setWidth 8 = ((val >>> 8).setWidth 8 : Octet) := by
  refine BitVec.eq_of_getLsbD_eq fun i hi => ?_
  simp only [BitVec.getLsbD_setWidth, BitVec.getLsbD_ushiftRight, hi, show 8 + i < 16 by omega, decide_true, Bool.true_and]

theorem octet_setWidth (val : BitVec 32) : (val.setWidth 16).setWidth 8 = (val.setWidth 8 : Octet) := by
  refine BitVec.eq_of_getLsbD_eq fun i hi => ?_
  simp only [BitVec.getLsbD_setWidth, hi, show i < 16 by omega, decide_true, Bool.true_and]

/-! ### Octet by octet -/

/-- The address of the octet `i` of a packed buffer. -/
def place : Endian → ℕ → ℕ
  | .little, i => if i % 2 = 0 then i + 1 else i - 1
  | .big, i => i

theorem place_even (i : ℕ) (h : i % 2 = 0) : place .little i = i + 1 := if_pos h

theorem place_odd (i : ℕ) (h : i % 2 = 1) : place .little i = i - 1 := if_neg (by omega)

theorem place_place (e : Endian) (i : ℕ) : place e (place e i) = i := by
  cases e with
  | little =>
    rcases Nat.mod_two_eq_zero_or_one i with h | h
    · rw [place_even i h, place_odd (i + 1) (by omega), Nat.add_sub_cancel]
    · rw [place_odd i h, place_even (i - 1) (by omega)]
      omega
  | big => rfl

theorem place_injective (e : Endian) : Function.Injective (place e) :=
  Function.LeftInverse.injective (place_place e)

theorem upper_eq (e : Endian) (index : ℕ) : upper e index = place e (2 * index) := by
  cases e with
  | little => exact (place_even _ (Nat.mul_mod_right 2 index)).symm
  | big => rfl

theorem lower_eq (e : Endian) (index : ℕ) : lower e index = place e (2 * index + 1) := by
  cases e with
  | little => exact (place_odd (2 * index + 1) (by omega)).symm
  | big => rfl

section

variable (e : Endian) (dst : Memory) {byteIndex : ℕ}

/-- What a word does to the buffer. -/
theorem writeWord_eq {index : ℕ} (h : 2 * index = byteIndex) (val : BitVec 16) :
    writeWord e dst index val = Function.update (Function.update dst (place e byteIndex) ((val >>> 8).setWidth 8))
      (place e (byteIndex + 1)) (val.setWidth 8) := by
  rw [writeWord, upper_eq, lower_eq, h]

/-- What a word does that is merged with the one there. -/
theorem writeWord_or {index : ℕ} (h : 2 * index + 1 = byteIndex) {val : BitVec 16} (hval : (val >>> 8).setWidth 8 = (0 : Octet)) :
    writeWord e dst index (readWord e dst index ||| val) =
      Function.update dst (place e byteIndex) (dst (place e byteIndex) ||| val.setWidth 8) := by
  rw [writeWord, readWord, upper_eq, lower_eq, h, setWidth_or_high, setWidth_or_low, hval]
  have hupper : dst (place e (2 * index)) ||| (0 : Octet) = dst (place e (2 * index)) := BitVec.or_zero
  rw [hupper, update_eq_self]

/-- What an octet of even index does to the buffer. -/
theorem set1Byte_even (h : byteIndex % 2 = 0) (val : Octet) :
    byteUtilsSet1Byte e dst byteIndex val =
      (Function.update (Function.update dst (place e byteIndex) val) (place e (byteIndex + 1)) 0, 1) := by
  rw [byteUtilsSet1Byte, if_neg (not_not.mpr h), writeWord_eq e dst (show 2 * (byteIndex / 2) = byteIndex by omega),
    setWidth_shiftLeft, setWidth_shiftLeft_low, setWidth_setWidth]

/-- What an octet of odd index does to the buffer. -/
theorem set1Byte_odd (h : byteIndex % 2 = 1) (val : Octet) :
    byteUtilsSet1Byte e dst byteIndex val =
      (Function.update dst (place e byteIndex) (dst (place e byteIndex) ||| val), 1) := by
  rw [byteUtilsSet1Byte, if_pos (by omega), writeWord_or e dst (show 2 * (byteIndex / 2) + 1 = byteIndex by omega)
    (setWidth_setWidth_shiftRight val), setWidth_setWidth]

end

/-! ### Every setter sets octets -/

/-- Octets at consecutive indices. -/
def setOctets (e : Endian) : Memory → ℕ → List Octet → Memory
  | dst, _, [] => dst
  | dst, byteIndex, val :: vals => setOctets e (byteUtilsSet1Byte e dst byteIndex val).1 (byteIndex + 1) vals

theorem setOctets_append (e : Endian) (dst : Memory) (byteIndex : ℕ) (vals vals' : List Octet) :
    setOctets e dst byteIndex (vals ++ vals') = setOctets e (setOctets e dst byteIndex vals) (byteIndex + vals.length) vals' := by
  induction vals generalizing dst byteIndex with
  | nil => rfl
  | cons val vals ih =>
    rw [List.cons_append, setOctets, ih, setOctets, List.length_cons, Nat.add_assoc, Nat.add_comm 1]

theorem set2Bytes_eq (e : Endian) (dst : Memory) (byteIndex : ℕ) (val : BitVec 16) :
    byteUtilsSet2Bytes e dst byteIndex val = (setOctets e dst byteIndex [(val >>> 8).setWidth 8, val.setWidth 8], 2) := by
  rw [setOctets, setOctets, setOctets]
  rcases Nat.mod_two_eq_zero_or_one byteIndex with h | h
  · -- The second octet is merged with the zero that the first one has left.
    have hzero : (0 : Octet) ||| val.setWidth 8 = val.setWidth 8 := BitVec.zero_or
    rw [byteUtilsSet2Bytes, if_neg (not_not.mpr h), writeWord_eq e dst (show 2 * (byteIndex / 2) = byteIndex by omega),
      set1Byte_even e dst h, set1Byte_odd e _ (show (byteIndex + 1) % 2 = 1 by omega)]
    dsimp only
    rw [update_self, hzero, update_idem]
  · rw [byteUtilsSet2Bytes, if_pos (by omega), set1Byte_odd e dst h, set1Byte_even e _ (show (byteIndex + 1) % 2 = 0 by omega),
      writeWord_or e dst (show 2 * (byteIndex / 2) + 1 = byteIndex by omega) (setWidth_shiftRight val),
      writeWord_eq e _ (show 2 * (byteIndex / 2 + 1) = byteIndex + 1 by omega), setWidth_shiftLeft, setWidth_shiftLeft_low]

theorem Append.set_eq (e : Endian) (dst : Memory) {byteIndex : ℕ} (a : Append) (h : byteIndex + a.octets.length < 65536) :
    a.set e dst byteIndex = (setOctets e dst byteIndex a.octets, a.octets.length) := by
  cases a with
  | one val =>
    rw [Append.set, Append.octets, setOctets, setOctets]
    rcases Nat.mod_two_eq_zero_or_one byteIndex with hi | hi
    · rw [set1Byte_even e dst hi]
      rfl
    · rw [set1Byte_odd e dst hi]
      rfl
  | two val => exact set2Bytes_eq e dst byteIndex val
  | four val =>
    change byteIndex + 4 < 65536 at h
    rw [Append.set, byteUtilsSet4Bytes, set2Bytes_eq]
    dsimp only
    rw [set2Bytes_eq, Nat.mod_eq_of_lt (by omega), octet_shiftRight, octet_setWidth, octet_setWidth, octet_shiftRight_zero]
    exact Prod.ext (setOctets_append e dst byteIndex [(val >>> 24).setWidth 8, (val >>> 16).setWidth 8] _).symm rfl

theorem appendAll_eq (e : Endian) (dst : Memory) {byteIndex : ℕ} (as : List Append)
    (h : byteIndex + (as.flatMap Append.octets).length < 65536) :
    appendAll e dst byteIndex as = setOctets e dst byteIndex (as.flatMap Append.octets) := by
  induction as generalizing dst byteIndex with
  | nil => rfl
  | cons a as ih =>
    rw [List.flatMap_cons, List.length_append] at h
    rw [appendAll, a.set_eq e dst (by omega), List.flatMap_cons, setOctets_append]
    exact ih _ (by omega)

theorem memCpyFromStream_eq (e : Endian) (dst : Memory) (src : List Octet) :
    byteUtilsMemCpyFromStream e dst src = setOctets e dst 0 src := by
  have hloop : ∀ (k : ℕ) (dst : Memory),
      (src.zipIdx k).foldl (fun dst x => (byteUtilsSet1Byte e dst x.2 x.1).1) dst = setOctets e dst k src := by
    induction src with
    | nil => exact fun _ _ => rfl
    | cons val vals ih => exact fun k dst => ih (k + 1) _
  exact hloop 0 dst

/-! ### Packed buffers -/

/-- The octets are packed from the start of the buffer on, with a zero below an odd last one. -/
structure Packed (e : Endian) (mem : Memory) (octets : List Octet) : Prop where
  octet {i : ℕ} (h : i < octets.length) : mem (place e i) = octets.getD i 0
  rest (h : octets.length % 2 = 1) : mem (place e octets.length) = 0

theorem packed_nil (e : Endian) (mem : Memory) : Packed e mem [] where
  octet h := absurd h (Nat.not_lt_zero _)
  rest h := absurd h (by decide)

variable {mem : Memory}

/-- One octet more. -/
theorem Packed.concat {e : Endian} {octets : List Octet} (h : Packed e mem octets) (val : Octet) :
    Packed e (byteUtilsSet1Byte e mem octets.length val).1 (octets ++ [val]) := by
  have hne {i : ℕ} (hi : i < octets.length) : place e i ≠ place e octets.length :=
    (place_injective e).ne (Nat.ne_of_lt hi)
  have hlast : (octets ++ [val]).getD octets.length 0 = val := by
    rw [List.getD_append_right _ _ _ _ (Nat.le_refl _), Nat.sub_self, List.getD_cons_zero]
  have hlength : (octets ++ [val]).length = octets.length + 1 := List.length_append
  rcases Nat.mod_two_eq_zero_or_one octets.length with heven | hodd
  · rw [set1Byte_even e mem heven]
    dsimp only
    constructor
    · intro i hi
      rw [hlength] at hi
      rw [update_of_ne ((place_injective e).ne (Nat.ne_of_lt hi))]
      rcases Nat.lt_succ_iff_lt_or_eq.mp hi with hlt | rfl
      · rw [update_of_ne (hne hlt), h.octet hlt, List.getD_append _ _ _ _ hlt]
      · rw [update_self, hlast]
    · intro _
      rw [hlength, update_self]
  · -- The octet is merged with the zero below the last one.
    have hzero : (0 : Octet) ||| val = val := BitVec.zero_or
    rw [set1Byte_odd e mem hodd, h.rest hodd, hzero]
    dsimp only
    constructor
    · intro i hi
      rw [hlength] at hi
      rcases Nat.lt_succ_iff_lt_or_eq.mp hi with hlt | rfl
      · rw [update_of_ne (hne hlt), h.octet hlt, List.getD_append _ _ _ _ hlt]
      · rw [update_self, hlast]
    · intro hnext
      rw [hlength] at hnext
      omega

theorem Packed.setOctets {e : Endian} {octets : List Octet} (h : Packed e mem octets) (vals : List Octet) :
    Packed e (ByteUtils.setOctets e mem octets.length vals) (octets ++ vals) := by
  induction vals generalizing mem octets with
  | nil => rwa [ByteUtils.setOctets, List.append_nil]
  | cons val vals ih =>
    have hnext := ih (h.concat val)
    rwa [List.length_append, List.length_singleton, List.append_assoc, List.singleton_append] at hnext

theorem packed_setOctets (e : Endian) (mem : Memory) (octets : List Octet) : Packed e (setOctets e mem 0 octets) octets :=
  (packed_nil e mem).setOctets octets

/-! ### The reader -/

/-- The octets that the reader gives back. -/
def Readable (e : Endian) (octets : List Octet) : Prop :=
  ∀ i, i < octets.length → (e = .little ∧ i = 1) ∨ octets.getD i 0 = 0

theorem getD_toStream (mem : Memory) {n i : ℕ} (h : i < n) :
    (byteUtilsMemCpyToStream mem n).getD i 0 = if i % 2 ≠ 0 then mem (i / 2) else 0 := by
  have hshift : mem (i / 2) >>> 8 = 0 := BitVec.ushiftRight_eq_zero (Nat.le_refl 8)
  rw [byteUtilsMemCpyToStream, List.getD_eq_getElem?_getD, List.getElem?_map, List.getElem?_range h, Option.map_some,
    Option.getD_some, hshift]

theorem toStream_eq_iff (mem : Memory) (octets : List Octet) :
    byteUtilsMemCpyToStream mem octets.length = octets ↔
      ∀ i, i < octets.length → octets.getD i 0 = if i % 2 ≠ 0 then mem (i / 2) else 0 := by
  have hlength : (byteUtilsMemCpyToStream mem octets.length).length = octets.length := by
    rw [byteUtilsMemCpyToStream, List.length_map, List.length_range]
  constructor
  · intro heq i hi
    rw [← getD_toStream mem hi, heq]
  · intro h
    refine List.ext_getElem hlength fun i hi hi' => ?_
    rw [← List.getD_eq_getElem _ 0 hi, ← List.getD_eq_getElem _ 0 hi', getD_toStream mem hi', h i hi']

/-- From the octet 3 on, the octet that is read in the place of one of odd index stands before it. -/
theorem place_half {e : Endian} {i : ℕ} (hodd : i % 2 = 1) (hthree : 3 ≤ i) :
    place e (i / 2) < i ∧ ¬ (e = .little ∧ place e (i / 2) = 1) := by
  cases e with
  | big => exact ⟨Nat.div_lt_self (by omega) (by decide), fun h => absurd h.1 (by decide)⟩
  | little =>
    rcases Nat.mod_two_eq_zero_or_one (i / 2) with h | h
    · rw [place_even _ h]
      omega
    · rw [place_odd _ h]
      omega

/-- The octets that a packed buffer gives back. -/
theorem Packed.toStream_eq_iff {e : Endian} {octets : List Octet} (h : Packed e mem octets) :
    byteUtilsMemCpyToStream mem octets.length = octets ↔ Readable e octets := by
  rw [ByteUtils.toStream_eq_iff]
  have hread {i : ℕ} (hi : place e i < octets.length) : mem i = octets.getD (place e i) 0 := by
    have hoctet := h.octet hi
    rwa [place_place] at hoctet
  constructor
  · intro hall i
    -- Strong induction: an octet is zero because the one that is read in its place is.
    induction i using Nat.strongRecOn with
    | ind i ih =>
      intro hi
      have hvalue := hall i hi
      rcases Nat.mod_two_eq_zero_or_one i with heven | hodd
      · rw [if_neg (not_not.mpr heven)] at hvalue
        exact .inr hvalue
      · rw [if_pos (by omega)] at hvalue
        rcases Nat.lt_or_ge i 3 with hlt | hthree
        · obtain rfl : i = 1 := by omega
          cases e with
          | little => exact .inl ⟨rfl, rfl⟩
          | big =>
            refine .inr (hvalue.trans ((hread (Nat.lt_of_succ_lt hi)).trans ?_))
            exact hall 0 (Nat.lt_of_succ_lt hi)
        · obtain ⟨hlt, hne⟩ := place_half (e := e) hodd hthree
          rw [hread (Nat.lt_trans hlt hi)] at hvalue
          exact .inr (hvalue.trans ((ih _ hlt (Nat.lt_trans hlt hi)).resolve_left hne))
  · intro hreadable i hi
    rcases Nat.mod_two_eq_zero_or_one i with heven | hodd
    · rw [if_neg (not_not.mpr heven)]
      refine (hreadable i hi).resolve_left ?_
      rintro ⟨-, rfl⟩
      exact absurd heven (by decide)
    · rw [if_pos (by omega)]
      rcases Nat.lt_or_ge i 3 with hlt | hthree
      · obtain rfl : i = 1 := by omega
        cases e with
        | little => exact (h.octet hi).symm
        | big =>
          have hzero := h.octet (Nat.lt_of_succ_lt hi)
          rw [(hreadable 1 hi).resolve_left fun hlittle => absurd hlittle.1 (by decide)]
          rw [(hreadable 0 (Nat.lt_of_succ_lt hi)).resolve_left fun hlittle => absurd hlittle.1 (by decide)] at hzero
          exact hzero.symm
      · obtain ⟨hlt, hne⟩ := place_half (e := e) hodd hthree
        rw [hread (Nat.lt_trans hlt hi), (hreadable _ (Nat.lt_trans hlt hi)).resolve_left hne]
        refine (hreadable i hi).resolve_left ?_
        rintro ⟨-, rfl⟩
        exact absurd hthree (by decide)

/-- Appended values are read back exactly if their octets are readable, and so is a stream that is packed and read
back. -/
theorem streamed_iff (e : Endian) (mem : Memory) (as : List Append) (stream : List Octet)
    (happend : (as.flatMap Append.octets).length < 65536) :
    (byteUtilsMemCpyToStream (appendAll e mem 0 as) (as.flatMap Append.octets).length = as.flatMap Append.octets ↔
        Readable e (as.flatMap Append.octets)) ∧
      (byteUtilsMemCpyToStream (byteUtilsMemCpyFromStream e mem stream) stream.length = stream ↔ Readable e stream) := by
  constructor
  · rw [appendAll_eq e mem as (by rwa [Nat.zero_add])]
    exact (packed_setOctets e mem _).toStream_eq_iff
  · rw [memCpyFromStream_eq]
    exact (packed_setOctets e mem stream).toStream_eq_iff

/-- Three octets in two calls, and a stream of one octet. -/
theorem streamed_iff_pair :
    (byteUtilsMemCpyToStream (appendAll .little (fun _ => 0) 0 [.one 0, .two 0x0700]) 3 = [0, 7, 0] ↔
        Readable .little [0, 7, 0]) ∧
      (byteUtilsMemCpyToStream (byteUtilsMemCpyFromStream .little (fun _ => 0) [1]) 1 = [1] ↔ Readable .little [1]) :=
  streamed_iff .little (fun _ => 0) [.one 0, .two 0x0700] [1] (by decide)

/-- Every sequence of values and every stream is read back. -/
def AlwaysStreamed (e : Endian) : Prop :=
  ∀ (mem : Memory) (as : List Append) (stream : List Octet), (as.flatMap Append.octets).length < 65536 →
    byteUtilsMemCpyToStream (appendAll e mem 0 as) (as.flatMap Append.octets).length = as.flatMap Append.octets ∧
      byteUtilsMemCpyToStream (byteUtilsMemCpyFromStream e mem stream) stream.length = stream

/-- The octet 1 of a stream of one octet comes back as 0. -/
theorem not_alwaysStreamed : ¬ AlwaysStreamed .little ∧ ¬ AlwaysStreamed .big := by
  constructor
  · intro halways
    exact absurd (halways (fun _ => 0) [] [1] (by decide)).2 (by decide)
  · intro halways
    exact absurd (halways (fun _ => 0) [] [1] (by decide)).2 (by decide)

end Cbps.ByteUtils
