import Mathlib.Data.Int.Notation
import Mathlib.Data.Nat.Notation
import Mathlib.Logic.Basic

/-!
# Double exponential smoothing

The average and the trend of a sequence of readings, in integers: a reading counts one tenth of the average, and a change
of the average one half of the trend. Exact numbers would never take the average out of the range of the readings; the
rounding of the integers takes it out by six at most (`Within.smoothed`). The invariant behind this is that the average
with its trend added stays near the range as well.
-/

namespace Cbps.Lib

/-- The average and the trend after one more reading. -/
def smoothed (x : ℤ × ℤ) (reading : ℤ) : ℤ × ℤ :=
  let value := (9 * x.1 + (x.2 + reading) + 5).tdiv 10
  (value, (x.2 + (value - x.1)).tdiv 2)

/-- The average of a sequence of readings. -/
def average (first : ℕ) (rest : List ℕ) : ℤ × ℤ :=
  rest.foldl (fun x (reading : ℕ) => smoothed x reading) (first, 0)

theorem average_append (first : ℕ) (rest : List ℕ) (reading : ℕ) :
    average first (rest ++ [reading]) = smoothed (average first rest) reading := List.foldl_append

/-- An average of readings from `lo` to `hi`. -/
structure Within (lo hi : ℤ) (x : ℤ × ℤ) : Prop where
  ge : lo - 5 ≤ x.1
  le : x.1 ≤ hi + 6
  trend_ge : lo - 6 ≤ x.1 + x.2
  trend_le : x.1 + x.2 ≤ hi + 7

variable {lo hi reading : ℤ} {x : ℤ × ℤ}

/-- The rounding of the average, which is not negative. -/
theorem smoothed_fst_bounds (h : 0 ≤ 9 * x.1 + (x.2 + reading) + 5) :
    9 * x.1 + (x.2 + reading) - 4 ≤ 10 * (smoothed x reading).1 ∧
      10 * (smoothed x reading).1 ≤ 9 * x.1 + (x.2 + reading) + 5 := by
  have hdiv : (smoothed x reading).1 = (9 * x.1 + (x.2 + reading) + 5) / 10 := Int.tdiv_eq_ediv_of_nonneg h
  omega

/-- The rounding of the trend. -/
theorem smoothed_snd_bounds (x : ℤ × ℤ) (reading : ℤ) :
    x.2 + ((smoothed x reading).1 - x.1) - 1 ≤ 2 * (smoothed x reading).2 ∧
      2 * (smoothed x reading).2 ≤ x.2 + ((smoothed x reading).1 - x.1) + 1 := by
  have hdiv : (smoothed x reading).2 = (x.2 + ((smoothed x reading).1 - x.1)).tdiv 2 := rfl
  rcases Int.le_total 0 (x.2 + ((smoothed x reading).1 - x.1)) with hpos | hneg
  · rw [Int.tdiv_eq_ediv_of_nonneg hpos] at hdiv
    omega
  · have hflip := Int.neg_tdiv (x.2 + ((smoothed x reading).1 - x.1)) 2
    rw [Int.tdiv_eq_ediv_of_nonneg (Int.neg_nonneg_of_nonpos hneg)] at hflip
    omega

/-- The first reading is its own average. -/
theorem within_single (h : lo ≤ reading ∧ reading ≤ hi) : Within lo hi (reading, 0) :=
  ⟨by omega, by omega, by omega, by omega⟩

/-- **Smoothing keeps the average near the range of the readings.** -/
theorem Within.smoothed (h : Within lo hi x) (hreading : lo ≤ reading ∧ reading ≤ hi)
    (hpos : 0 ≤ 9 * x.1 + (x.2 + reading) + 5) : Within lo hi (smoothed x reading) := by
  obtain ⟨hge, hle, htge, htle⟩ := h
  have hvalue := smoothed_fst_bounds hpos
  have htrend := smoothed_snd_bounds x reading
  exact ⟨by omega, by omega, by omega, by omega⟩

end Cbps.Lib
