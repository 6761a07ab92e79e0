import Mathlib.Data.List.Basic

/-!
# Parts of a list with their offsets

A long list is transferred in parts, each with the offset of its first element. `Tiles` says that the parts cover
the list in order, without gap or overlap. `Tiles.concat` adds a part at the end, and `Tiles.offset` says where a
part in the middle has to be.
-/

namespace Cbps.Lib

open List

variable {α : Type*}

/-- The parts cover the list, the first one at `start`. -/
def Tiles : ℕ → List (ℕ × List α) → List α → Prop
  | _, [], v => v = []
  | start, (offset, xs) :: parts, v =>
    offset = start ∧ xs <+: v ∧ Tiles (start + xs.length) parts (v.drop xs.length)

variable {start o : ℕ} {parts parts' : List (ℕ × List α)} {v xs : List α}

/-- The parts together are the list. -/
theorem Tiles.flatten (h : Tiles start parts v) : parts.flatMap Prod.snd = v := by
  induction parts generalizing start v with
  | nil => exact Eq.symm h
  | cons part parts ih =>
    obtain ⟨-, ⟨rest, rfl⟩, hparts⟩ := h
    rw [drop_left] at hparts
    rw [flatMap_cons, ih hparts]

/-- One more part. -/
theorem Tiles.concat (h : Tiles start parts v) (ho : o = start + v.length) :
    Tiles start (parts ++ [(o, xs)]) (v ++ xs) := by
  induction parts generalizing start v with
  | nil =>
    obtain rfl : v = [] := h
    exact ⟨ho, prefix_rfl, drop_length⟩
  | cons part parts ih =>
    obtain ⟨hpart, ⟨rest, rfl⟩, hparts⟩ := h
    rw [drop_left] at hparts
    refine ⟨hpart, ⟨rest ++ xs, (append_assoc ..).symm⟩, ?_⟩
    rw [append_assoc, drop_left]
    refine ih hparts ?_
    rw [ho, length_append, Nat.add_assoc]

/-- A part is where those before it end. -/
theorem Tiles.offset (h : Tiles start (parts ++ (o, xs) :: parts') v) :
    o = start + (parts.flatMap Prod.snd).length := by
  induction parts generalizing start v with
  | nil => exact h.1
  | cons part parts ih =>
    rw [ih h.2.2, flatMap_cons, length_append, Nat.add_assoc]

end Cbps.Lib
