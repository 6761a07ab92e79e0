import Mathlib.Data.BitVec
import Mathlib.Data.Nat.Bitwise
import Mathlib.Tactic.Ring

/-!
# Bit fields of machine words

Words that are put together from narrower fields by shifting and OR-ing. Over `BitVec`, a field
above the bits of another one adds up with it. Over `ℕ`, `orFields k start fields` is the loop
`w |= (fields[i] & mask) << (k * i)` started with the word `start`, and `fieldAt k w i` reads
the `i`-th field of `k` bits back: `fieldAt_orFields` says that what the word held before the
loop stays OR-ed into every field.
-/

namespace Cbps.Lib

/-! ### Words of fixed width -/

/-- A field above `k` low bits adds up with them. -/
theorem toNat_shiftLeft_or {w k : ℕ} {x y : BitVec w} (hx : x.toNat * 2 ^ k < 2 ^ w)
    (hy : y.toNat < 2 ^ k) : ((x <<< k) ||| y).toNat = x.toNat * 2 ^ k + y.toNat := by
  rw [BitVec.toNat_or, BitVec.toNat_shiftLeft, Nat.shiftLeft_eq, Nat.mod_eq_of_lt hx,
    ← Nat.shiftLeft_eq, Nat.shiftLeft_add_eq_or_of_lt hy]

/-- Masking the low `k` bits is taking the remainder. -/
theorem toNat_and_mask {w k : ℕ} {x mask : BitVec w} (hmask : mask.toNat = 2 ^ k - 1) :
    (x &&& mask).toNat = x.toNat % 2 ^ k := by
  rw [BitVec.toNat_and, hmask, Nat.and_two_pow_sub_one_eq_mod]

/-! ### Equal fields in a row -/

/-- The `i`-th field of `k` bits. -/
def fieldAt (k w i : ℕ) : ℕ := (w >>> (k * i)) &&& (2 ^ k - 1)

/-- OR the fields into the word `start`, the first one lowest. -/
def orFields (k start : ℕ) (fields : List ℕ) : ℕ :=
  fields.zipIdx.foldl (fun w (d, i) => w ||| (d &&& (2 ^ k - 1)) <<< (k * i)) start

variable {k : ℕ}

theorem fieldAt_or (v w i : ℕ) : fieldAt k (v ||| w) i = fieldAt k v i ||| fieldAt k w i := by
  rw [fieldAt, Nat.shiftRight_or_distrib, Nat.and_or_distrib_right]
  rfl

@[simp] theorem fieldAt_zero (i : ℕ) : fieldAt k 0 i = 0 := by simp [fieldAt]

/-- A word with one field. -/
theorem fieldAt_shiftLeft {d : ℕ} (hd : d < 2 ^ k) (n i : ℕ) :
    fieldAt k (d <<< (k * n)) i = if i = n then d else 0 := by
  rw [fieldAt, Nat.and_two_pow_sub_one_eq_mod, Nat.shiftRight_eq_div_pow, Nat.shiftLeft_eq]
  rcases Nat.lt_trichotomy i n with hlt | rfl | hlt
  · -- the field lies above the one that is read
    obtain ⟨m, rfl⟩ := Nat.exists_eq_add_of_lt hlt
    rw [if_neg (by omega), show k * (i + m + 1) = k * i + k * m + k by ring, pow_add, pow_add,
      show d * (2 ^ (k * i) * 2 ^ (k * m) * 2 ^ k) = (d * 2 ^ (k * m) * 2 ^ k) * 2 ^ (k * i) by ring,
      Nat.mul_div_cancel _ (Nat.two_pow_pos _), Nat.mul_mod_left]
  · rw [if_pos rfl, Nat.mul_div_cancel _ (Nat.two_pow_pos _), Nat.mod_eq_of_lt hd]
  · -- the field lies below the one that is read
    obtain ⟨m, rfl⟩ := Nat.exists_eq_add_of_lt hlt
    rw [if_neg (by omega), Nat.div_eq_of_lt, Nat.zero_mod]
    calc d * 2 ^ (k * n) < 2 ^ k * 2 ^ (k * n) := Nat.mul_lt_mul_of_pos_right hd (Nat.two_pow_pos _)
      _ = 2 ^ (k * (n + 1)) := by rw [← pow_add]; congr 1; ring
      _ ≤ 2 ^ (k * (n + m + 1)) := Nat.pow_le_pow_right (by omega) (Nat.mul_le_mul_left k (by omega))

theorem orFields_concat (start : ℕ) (fields : List ℕ) (d : ℕ) :
    orFields k start (fields ++ [d]) =
      orFields k start fields ||| (d &&& (2 ^ k - 1)) <<< (k * fields.length) := by
  simp [orFields, List.zipIdx_append]

/-- Reading a field back: what was there before is still OR-ed in. -/
theorem fieldAt_orFields (start : ℕ) (fields : List ℕ) (i : ℕ) :
    fieldAt k (orFields k start fields) i =
      fieldAt k start i ||| (fields.getD i 0 &&& (2 ^ k - 1)) := by
  induction fields using List.reverseRecOn with
  | nil => simp [orFields]
  | append_singleton fields d ih =>
    have hd : d &&& (2 ^ k - 1) < 2 ^ k := by
      rw [Nat.and_two_pow_sub_one_eq_mod]
      exact Nat.mod_lt _ (Nat.two_pow_pos k)
    rw [orFields_concat, fieldAt_or, ih, fieldAt_shiftLeft hd]
    rcases Nat.lt_trichotomy i fields.length with hi | rfl | hi
    · rw [if_neg (by omega), Nat.or_zero, List.getD_append _ _ _ _ hi]
    · simp
    · rw [if_neg (by omega), Nat.or_zero, List.getD_eq_default _ _ (by omega),
        List.getD_eq_default _ _ (by simp; omega)]

/-- In a cleared word every field comes back. -/
theorem fieldAt_orFields_zero {fields : List ℕ} {i : ℕ} (h : fields.getD i 0 < 2 ^ k) :
    fieldAt k (orFields k 0 fields) i = fields.getD i 0 := by
  rw [fieldAt_orFields, fieldAt_zero, Nat.zero_or, Nat.and_two_pow_sub_one_eq_mod,
    Nat.mod_eq_of_lt h]

/-- The entries of a list, read by their indices up to a bound. -/
theorem filterMap_range_getElem? {α : Type*} (l : List α) {n : ℕ} (h : l.length ≤ n) :
    (List.range n).filterMap (fun i => l[i]?) = l := by
  obtain ⟨k, rfl⟩ := Nat.exists_eq_add_of_le h
  clear h
  induction l generalizing k with
  | nil => simp
  | cons a l ih =>
    have htail : (List.range (l.length + k)).filterMap (fun i => (a :: l)[i + 1]?) = l := by simpa using ih k
    rw [List.length_cons, Nat.add_right_comm, List.range_succ_eq_map, List.filterMap_cons, List.filterMap_map]
    exact congrArg _ htail

end Cbps.Lib
