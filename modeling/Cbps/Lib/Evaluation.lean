import Mathlib.Computability.StateTransition

/-!
# Runs to the end

`StateTransition.eval f s` is the state in which a run of `f` from `s` ends, if it ends. A step of the run does not
change it, and what every step keeps holds at the end.
-/

namespace Cbps.Lib

open StateTransition

variable {σ : Type*} {f : σ → Option σ} {s t u : σ}

theorem eval_step (h : f s = some t) : eval f s = eval f t :=
  reaches_eval (Relation.ReflTransGen.single h)

theorem mem_eval_of_none (h : f s = none) : t ∈ eval f s ↔ t = s := by
  constructor
  · intro ht
    exact Part.mem_unique ht (mem_eval.mpr ⟨Relation.ReflTransGen.refl, h⟩)
  · rintro rfl
    exact mem_eval.mpr ⟨Relation.ReflTransGen.refl, h⟩

/-- The last step of a run. -/
theorem mem_eval_last (h : f s = some t) (ht : f t = none) : u ∈ eval f s ↔ u = t := by
  rw [eval_step h]
  exact mem_eval_of_none ht

/-- What every step keeps holds at the end. -/
theorem keeps_of_mem_eval {P : σ → Prop} (hstep : ∀ a b, P a → f a = some b → P b) (hs : P s)
    (ht : t ∈ eval f s) : P t := by
  have hreaches := (mem_eval.mp ht).1
  clear ht
  induction hreaches with
  | refl => exact hs
  | tail _ hlast ih => exact hstep _ _ ih hlast

/-- A run that never leaves the states in which something is to be done does not end. -/
theorem not_mem_eval {P : σ → Prop} (hstep : ∀ a b, P a → f a = some b → P b) (hbusy : ∀ a, P a → f a ≠ none)
    (hs : P s) : t ∉ eval f s := fun ht => hbusy t (keeps_of_mem_eval hstep hs ht) (mem_eval.mp ht).2

end Cbps.Lib
