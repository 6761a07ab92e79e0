import Mathlib.Data.List.Nodup
import Mathlib.Data.Nat.Notation

/-!
# Masks

The positions of the bits that are set in a bit vector of any width. A mask that is applied filters
positions, and the usual test for a power of two is a test for one position.
-/

namespace Cbps.Lib

open List

/-- What a filter leaves of a list without duplicates. -/
theorem filter_eq_singleton {α : Type*} {as : List α} (has : as.Nodup) {p : α → Bool} {a : α}
    (ha : a ∈ as) (h : ∀ b ∈ as, p b = true ↔ b = a) : as.filter p = [a] := by
  refine perm_singleton.mp ((perm_ext_iff_of_nodup (has.filter p)
    (nodup_singleton a)).mpr fun b => ?_)
  rw [mem_filter, mem_singleton]
  exact ⟨fun hb => (h b hb.1).mp hb.2, fun hb => hb ▸ ⟨ha, (h a ha).mpr rfl⟩⟩

variable {w : ℕ}

/-- The positions of the bits that are set. -/
def positions (m : BitVec w) : List ℕ := (List.range w).filter m.getLsbD

theorem nodup_positions (m : BitVec w) : (positions m).Nodup := nodup_range.filter _

variable {m : BitVec w}

theorem mem_positions {i : ℕ} : i ∈ positions m ↔ m.getLsbD i = true := by
  rw [positions, mem_filter, mem_range]
  exact ⟨And.right, fun h => ⟨BitVec.lt_of_getLsbD h, h⟩⟩

theorem positions_eq_nil : positions m = [] ↔ m = 0 := by
  constructor
  · intro h
    refine BitVec.eq_of_getLsbD_eq fun i _ => ?_
    rw [BitVec.ofNat_eq_ofNat, BitVec.getLsbD_zero]
    by_contra hset
    exact not_mem_nil (h ▸ mem_positions.mpr (eq_true_of_ne_false hset))
  · rintro rfl
    refine filter_eq_nil_iff.mpr fun i _ => ?_
    rw [BitVec.ofNat_eq_ofNat, BitVec.getLsbD_zero]
    exact Bool.false_ne_true

theorem positions_eq_singleton {k : ℕ} :
    positions m = [k] ↔ k < w ∧ m = BitVec.twoPow w k := by
  constructor
  · intro h
    have hk : m.getLsbD k = true := mem_positions.mp (h ▸ mem_singleton_self k)
    refine ⟨BitVec.lt_of_getLsbD hk, BitVec.eq_of_getLsbD_eq fun i hi => ?_⟩
    have hiff : m.getLsbD i = true ↔ i = k := by rw [← mem_positions, h, mem_singleton]
    rw [BitVec.getLsbD_twoPow, Bool.eq_iff_iff, hiff]
    simp [BitVec.lt_of_getLsbD hk, eq_comm]
  · rintro ⟨hk, rfl⟩
    refine filter_eq_singleton nodup_range (mem_range.mpr hk) fun i _ => ?_
    rw [BitVec.getLsbD_twoPow]
    simp [hk, eq_comm]

/-- The usual test for a power of two finds one position. -/
theorem isPowerOfTwo_iff :
    m ≠ 0 ∧ m &&& (m - 1) = 0 ↔ ∃ k, positions m = [k] := by
  have hnat : m ≠ 0 ∧ m &&& (m - 1) = 0 ↔ m.toNat ≠ 0 ∧ m.toNat &&& (m.toNat - 1) = 0 := by
    by_cases hzero : m = 0
    · subst hzero
      exact iff_of_false (fun h => h.1 rfl) (fun h => h.1 BitVec.toNat_zero)
    · have hpos : m.toNat ≠ 0 := fun h => hzero (BitVec.eq_of_toNat_eq (h.trans BitVec.toNat_zero.symm))
      have hw : 0 < w := by
        by_contra hw
        obtain rfl : w = 0 := Nat.eq_zero_of_not_pos hw
        exact hzero (BitVec.eq_of_zero_length rfl)
      have hone : (1 : BitVec w) ≤ m := by
        rw [BitVec.le_def, BitVec.ofNat_eq_ofNat, BitVec.toNat_ofNat,
          Nat.mod_eq_of_lt (Nat.one_lt_two_pow (Nat.pos_iff_ne_zero.mp hw))]
        exact Nat.one_le_iff_ne_zero.mpr hpos
      refine and_congr (iff_of_true hzero hpos) ?_
      rw [← BitVec.toNat_inj, BitVec.toNat_and, BitVec.toNat_sub_of_le hone, BitVec.ofNat_eq_ofNat,
        BitVec.ofNat_eq_ofNat, BitVec.toNat_zero, BitVec.toNat_ofNat,
        Nat.mod_eq_of_lt (Nat.one_lt_two_pow (Nat.pos_iff_ne_zero.mp hw))]
  rw [hnat, Nat.ne_zero_and_sub_one_eq_zero_iff_isPowerOfTwo]
  constructor
  · rintro ⟨k, hk⟩
    have hlt : 2 ^ k < 2 ^ w := hk ▸ m.isLt
    have hkw : k < w := (Nat.pow_lt_pow_iff_right (by decide)).mp hlt
    refine ⟨k, positions_eq_singleton.mpr ⟨hkw, BitVec.eq_of_toNat_eq ?_⟩⟩
    rw [hk, BitVec.toNat_twoPow_of_lt hkw]
  · rintro ⟨k, hk⟩
    obtain ⟨hkw, rfl⟩ := positions_eq_singleton.mp hk
    exact ⟨k, BitVec.toNat_twoPow_of_lt hkw⟩

/-! ### Two values in one field -/

theorem packed_and (mask a b : BitVec w) : ((a &&& mask) ||| (b &&& ~~~mask)) &&& mask = a &&& mask := by
  ext i hi
  simp only [BitVec.getElem_and, BitVec.getElem_or, BitVec.getElem_not]
  cases mask[i] <;> simp

theorem packed_and_not (mask a b : BitVec w) : ((a &&& mask) ||| (b &&& ~~~mask)) &&& ~~~mask = b &&& ~~~mask := by
  ext i hi
  simp only [BitVec.getElem_and, BitVec.getElem_or, BitVec.getElem_not]
  cases mask[i] <;> simp

end Cbps.Lib
