import Mathlib.Data.Finset.Card
import Mathlib.Data.Fintype.Card
import Mathlib.Logic.Function.Basic

/-!
# Tables with a key in every slot

A table gives every slot of a finite type an entry. An entry is used or free, and a used one is found by its key.
`occupied` is the set of the used slots: to claim a free slot adds one, to release a used slot takes one away.
`KeysDistinct` says that no two used slots have the same key, so that a look-up finds the entry that was meant.
-/

namespace Cbps.Lib

open Function

variable {ι α κ : Type*} [DecidableEq ι] (used : ι → α → Prop) (key : α → κ)

/-- No two used slots have the same key. -/
def KeysDistinct (t : ι → α) : Prop :=
  ∀ i j, used i (t i) → used j (t j) → key (t i) = key (t j) → i = j

variable {used key} {t : ι → α} {i : ι} {a : α}

/-- A slot that is claimed under a new key. -/
theorem KeysDistinct.claim (h : KeysDistinct used key t) (hnew : ∀ j, used j (t j) → key (t j) ≠ key a) :
    KeysDistinct used key (Function.update t i a) := by
  intro j k hj hk hkey
  by_cases hji : j = i <;> by_cases hki : k = i
  · rw [hji, hki]
  · subst hji
    rw [update_of_ne hki] at hk hkey
    rw [update_self] at hkey
    exact absurd hkey.symm (hnew k hk)
  · subst hki
    rw [update_of_ne hji] at hj hkey
    rw [update_self] at hkey
    exact absurd hkey (hnew j hj)
  · rw [update_of_ne hji] at hj hkey
    rw [update_of_ne hki] at hk hkey
    exact h j k hj hk hkey

/-- A slot that is released. -/
theorem KeysDistinct.release (h : KeysDistinct used key t) (ha : ¬used i a) :
    KeysDistinct used key (Function.update t i a) := by
  intro j k hj hk hkey
  have hne : ∀ l, used l (Function.update t i a l) → l ≠ i := by
    rintro l hl rfl
    rw [update_self] at hl
    exact ha hl
  have hji := hne j hj
  have hki := hne k hk
  rw [update_of_ne hji] at hj hkey
  rw [update_of_ne hki] at hk hkey
  exact h j k hj hk hkey

/-- An entry that is changed under its key. -/
theorem KeysDistinct.touch (h : KeysDistinct used key t) (hkey : key a = key (t i))
    (hused : used i a → used i (t i)) : KeysDistinct used key (Function.update t i a) := by
  have hsame : ∀ l, used l (Function.update t i a l) →
      used l (t l) ∧ key (Function.update t i a l) = key (t l) := by
    intro l hl
    by_cases hli : l = i
    · subst hli
      rw [update_self] at hl ⊢
      exact ⟨hused hl, hkey⟩
    · rw [update_of_ne hli] at hl ⊢
      exact ⟨hl, rfl⟩
  intro j k hj hk hjk
  obtain ⟨hj, hkj⟩ := hsame j hj
  obtain ⟨hk, hkk⟩ := hsame k hk
  exact h j k hj hk (hkj.symm.trans (hjk.trans hkk))

section Occupied

variable [Fintype ι] [∀ i a, Decidable (used i a)]

variable (used) in
/-- The used slots. -/
def occupied (t : ι → α) : Finset ι := Finset.univ.filter fun i => used i (t i)

omit [DecidableEq ι] in
theorem mem_occupied : i ∈ occupied used t ↔ used i (t i) := by
  rw [occupied, Finset.mem_filter]
  exact and_iff_right (Finset.mem_univ i)

theorem occupied_claim (ha : used i a) :
    occupied used (Function.update t i a) = insert i (occupied used t) := by
  ext j
  rw [Finset.mem_insert, mem_occupied, mem_occupied]
  by_cases hji : j = i
  · subst hji
    rw [update_self]
    exact ⟨fun _ => Or.inl rfl, fun _ => ha⟩
  · rw [update_of_ne hji]
    exact ⟨Or.inr, fun h => h.resolve_left hji⟩

theorem occupied_release (ha : ¬used i a) :
    occupied used (Function.update t i a) = (occupied used t).erase i := by
  ext j
  rw [Finset.mem_erase, mem_occupied, mem_occupied]
  by_cases hji : j = i
  · subst hji
    rw [update_self]
    exact ⟨fun h => absurd h ha, fun h => absurd rfl h.1⟩
  · rw [update_of_ne hji]
    exact ⟨fun h => ⟨hji, h⟩, fun h => h.2⟩

/-- To claim a free slot adds one. -/
theorem card_occupied_claim (hfree : ¬used i (t i)) (ha : used i a) :
    (occupied used (Function.update t i a)).card = (occupied used t).card + 1 := by
  rw [occupied_claim ha]
  exact Finset.card_insert_of_notMem fun h => hfree (mem_occupied.mp h)

/-- To release a used slot takes one away. -/
theorem card_occupied_release (hused : used i (t i)) (ha : ¬used i a) :
    (occupied used t).card = (occupied used (Function.update t i a)).card + 1 := by
  rw [occupied_release ha]
  exact (Finset.card_erase_add_one (mem_occupied.mpr hused)).symm

/-- An entry that is changed and stays used or free. -/
theorem occupied_touch (h : used i a ↔ used i (t i)) :
    occupied used (Function.update t i a) = occupied used t := by
  ext j
  rw [mem_occupied, mem_occupied]
  by_cases hji : j = i
  · subst hji
    rw [update_self]
    exact h
  · rw [update_of_ne hji]

end Occupied

end Cbps.Lib
