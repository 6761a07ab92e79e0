import Cbps.Tdl.Store

/-!
# What the loops over the index do

On the word-addressed target an index of entries below sixteen survives packing. The shift
loops of `update_trusted_device_index` and `delete_from_trusted_device_list` are then described
by the list they leave: an entry in front of the others, or one entry less and a free one at
the end.
-/

namespace Cbps.Tdl

open List

/-! ### Packing -/

@[simp] theorem length_readTrustedDeviceIndex (t : Target) (s : Store) :
    (readTrustedDeviceIndex t s).length = maxNoDevicesToManage := by
  rw [readTrustedDeviceIndex]
  split <;> simp

/-- Only the index key matters for reading the index. -/
theorem readTrustedDeviceIndex_congr {t : Target} {s s' : Store} (h : s'.index = s.index) :
    readTrustedDeviceIndex t s' = readTrustedDeviceIndex t s := by
  rw [readTrustedDeviceIndex, readTrustedDeviceIndex, h]

variable {order : List ℕ}

/-- An index of entries below sixteen is read back as it was stored. -/
theorem readTrustedDeviceIndex_store (s : Store)
    (hlen : order.length = maxNoDevicesToManage) (hlt : ∀ pos ∈ order, pos < 16) :
    readTrustedDeviceIndex .wordAddressed (storeTrustedDeviceIndex .wordAddressed s order) =
      order := by
  have hget : ∀ i, order.getD i 0 < 2 ^ 4 := fun i => by
    rcases Nat.lt_or_ge i order.length with hi | hi
    · rw [getD_eq_getElem _ _ hi]
      exact hlt _ (getElem_mem hi)
    · rw [getD_eq_default _ _ hi]
      omega
  apply ext_getElem (by simp [hlen])
  intro i hi hi'
  have hi8 : i < 8 := by simpa [maxNoDevicesToManage] using hi
  simp only [readTrustedDeviceIndex, storeTrustedDeviceIndex, clearedWord1, getElem_map,
    getElem_range]
  split
  · -- the entry lies in the first word
    have hdiv : i % 4 = i := by omega
    have htake : (order.take 4).getD i 0 = order.getD i 0 := by
      simp [getD_eq_getElem?_getD, show i < 4 by omega]
    rw [hdiv, Lib.fieldAt_orFields_zero (by rw [htake]; exact hget i), htake,
      getD_eq_getElem _ _ hi']
  · -- the entry lies in the second word
    have hdrop : (order.drop 4).getD (i % 4) 0 = order.getD i 0 := by
      simp [getD_eq_getElem?_getD, List.getElem?_drop, show 4 + i % 4 = i by omega]
    rw [Lib.fieldAt_orFields_zero (by rw [hdrop]; exact hget i), hdrop,
      getD_eq_getElem _ _ hi']

/-! ### Shifting -/

/-- The loop of `update_trusted_device_index` after `k` turns. -/
private theorem getElem?_shiftDown_turns {idx k : ℕ} (hidx : idx < order.length)
    (hk : k ≤ idx) (j : ℕ) :
    ((List.range k).foldl
      (fun order i => order.set (idx - i) (order.getD (idx - i - 1) tdiUnused)) order)[j]? =
      if idx - k < j ∧ j ≤ idx then order[j - 1]? else order[j]? := by
  induction k generalizing j with
  | zero => grind
  | succ k ih =>
    rw [range_succ, foldl_append]
    simp only [foldl_cons, foldl_nil]
    have ih' := ih (by omega)
    grind

/-- The record at `pos` comes to the front, and the one that was at `idx` goes. -/
theorem set_shiftDown {idx : ℕ} (hidx : idx < order.length) (pos : ℕ) :
    (shiftDown order idx).set 0 pos = pos :: (order.take idx ++ order.drop (idx + 1)) := by
  have hloop := getElem?_shiftDown_turns hidx (Nat.le_refl idx)
  apply ext_getElem?
  intro j
  have hj := hloop j
  rw [← shiftDown] at hj
  cases j with
  | zero => grind
  | succ j => grind

/-- The loop of `delete_from_trusted_device_list` after `k` turns. -/
private theorem getElem?_shiftUp_turns {idx k : ℕ}
    (hk : idx + k < order.length) (j : ℕ) :
    ((List.range' idx k).foldl
      (fun order i => order.set i (order.getD (i + 1) tdiUnused)) order)[j]? =
      if idx ≤ j ∧ j < idx + k then order[j + 1]? else order[j]? := by
  induction k generalizing j with
  | zero => grind
  | succ k ih =>
    rw [range'_concat, foldl_append]
    simp only [foldl_cons, foldl_nil, Nat.one_mul]
    have ih' := ih (by omega)
    grind

@[simp] theorem length_shiftUp (order : List ℕ) (idx last : ℕ) :
    (shiftUp order idx last).length = order.length := by
  have hfold : ∀ (is : List ℕ) (order : List ℕ), (is.foldl
      (fun order i => order.set i (order.getD (i + 1) tdiUnused)) order).length = order.length := by
    intro is
    induction is with
    | nil => exact fun order => rfl
    | cons i is ih => exact fun order => by rw [foldl_cons, ih, length_set]
  exact hfold _ order

/-- The entry at `idx` goes, and the free one comes in at `last`. -/
theorem set_shiftUp {idx last : ℕ} (hidx : idx ≤ last)
    (hlast : last < order.length) :
    (shiftUp order idx last).set last tdiUnused =
      order.take idx ++ (order.take (last + 1)).drop (idx + 1) ++
        tdiUnused :: order.drop (last + 1) := by
  have hin : idx + (last - idx) < order.length := by omega
  have hlen : (shiftUp order idx last).length = order.length := length_shiftUp ..
  apply ext_getElem?
  intro j
  have hloop := getElem?_shiftUp_turns hin j
  rw [← shiftUp, Nat.add_sub_cancel' hidx] at hloop
  have hbefore : (order.take idx).length = idx := by rw [length_take]; omega
  have hafter : ((order.take (last + 1)).drop (idx + 1)).length = last - idx := by
    rw [length_drop, length_take]
    omega
  rw [List.getElem?_set, hloop]
  rcases Nat.lt_trichotomy j last with hj | rfl | hj
  · rw [if_neg (by omega), List.getElem?_append_left (by rw [length_append]; omega)]
    rcases Nat.lt_or_ge j idx with hji | hji
    · rw [if_neg (by omega), List.getElem?_append_left (by omega), List.getElem?_take_of_lt hji]
    · rw [if_pos ⟨hji, hj⟩, List.getElem?_append_right (by omega), List.getElem?_drop,
        List.getElem?_take_of_lt (by omega)]
      congr 1
      omega
  · rw [if_pos rfl, if_pos (by omega), List.getElem?_append_right (by rw [length_append]; omega)]
    simp [hbefore, hafter, hidx]
  · rw [if_neg (by omega), if_neg (by omega),
      List.getElem?_append_right (by rw [length_append]; omega), length_append, hbefore,
      hafter, show j - (idx + (last - idx)) = (j - last - 1) + 1 by omega, List.getElem?_cons_succ,
      List.getElem?_drop]
    congr 1
    omega

end Cbps.Tdl
