import Mathlib.Data.List.Basic
import Mathlib.Data.List.Infix
import Mathlib.Data.Option.Basic

/-!
# Runs of a partial step function

A system is a step function `step : σ → ε → Option σ` on an arbitrary state type, driven by
an arbitrary event type; `none` says that the step never returns. `run` folds it over a
finite list of events.

`RunMeets step ok` says that every step a run takes is allowed by the guard `ok`, which sees
the state **before** the step and the event. The one induction of the library is
`run_invariant`: an invariant that every guarded step preserves holds at the end of every
guarded run. Histories (`run_append`, `RunMeets.append`) let a caller speak about a state
reached on the way.
-/

namespace Cbps.Lib

open Option

variable {σ ε : Type*} (step : σ → ε → Option σ)

/-- Run a list of events, stopping at the first step that does not return. -/
def run : σ → List ε → Option σ
  | s, [] => some s
  | s, e :: es => (step s e).bind fun s' => run s' es

/-- Every step that the run takes from `s` is allowed by `ok`. -/
def RunMeets (ok : σ → ε → Prop) : σ → List ε → Prop
  | _, [] => True
  | s, e :: es => ok s e ∧ ∀ s', step s e = some s' → RunMeets ok s' es

@[simp] theorem run_nil (s : σ) : run step s [] = some s := rfl

variable {step}

variable {es : List ε} {s : σ} {e : ε}

theorem run_cons :
    run step s (e :: es) = (step s e).bind fun s' => run step s' es := rfl

theorem run_cons_eq_some {s t : σ} :
    run step s (e :: es) = some t ↔ ∃ s', step s e = some s' ∧ run step s' es = some t := by
  rw [run_cons, bind_eq_some_iff]

theorem RunMeets.head {ok : σ → ε → Prop}
    (h : RunMeets step ok s (e :: es)) : ok s e := h.1

theorem RunMeets.tail {ok : σ → ε → Prop} {s s' : σ}
    (h : RunMeets step ok s (e :: es)) (hs : step s e = some s') : RunMeets step ok s' es :=
  h.2 s' hs

/-- A decidable guard can be checked along a run. -/
instance decidableRunMeets (ok : σ → ε → Prop) [∀ s e, Decidable (ok s e)] :
    ∀ (s : σ) (es : List ε), Decidable (RunMeets step ok s es)
  | _, [] => .isTrue trivial
  | s, e :: es =>
    match h : step s e with
    | none => decidable_of_iff (ok s e)
        ⟨fun hok => ⟨hok, fun s' hs' => absurd (h.symm.trans hs') (by simp)⟩, fun hok => hok.1⟩
    | some t =>
      haveI := decidableRunMeets ok t es
      decidable_of_iff (ok s e ∧ RunMeets step ok t es)
        ⟨fun hok => ⟨hok.1, fun s' hs' => some.inj (h.symm.trans hs') ▸ hok.2⟩,
          fun hok => ⟨hok.1, hok.2 t h⟩⟩

/-- A weaker guard is met by the same runs. -/
theorem RunMeets.mono {ok ok' : σ → ε → Prop} (hok : ∀ s e, ok s e → ok' s e)
    (h : RunMeets step ok s es) : RunMeets step ok' s es := by
  induction es generalizing s with
  | nil => trivial
  | cons e es ih => exact ⟨hok _ _ h.head, fun s' hs => ih (h.tail hs)⟩

/-- A guard that is weaker in every state of the run is met by the same run. -/
theorem RunMeets.imp {ok ok' : σ → ε → Prop} {I : σ → Prop} (hkeep : ∀ s e s', I s → step s e = some s' → I s')
    (himp : ∀ s e, I s → ok s e → ok' s e) (hs : I s) (h : RunMeets step ok s es) :
    RunMeets step ok' s es := by
  induction es generalizing s with
  | nil => trivial
  | cons e es ih => exact ⟨himp _ _ hs h.head, fun s' hs' => ih (hkeep _ _ _ hs hs') (h.tail hs')⟩

/-- A guard that sees the event only is a condition on the list of events. -/
theorem runMeets_of_forall {P : ε → Prop} (h : ∀ e ∈ es, P e) (s : σ) :
    RunMeets step (fun _ e => P e) s es := by
  induction es generalizing s with
  | nil => trivial
  | cons e es ih =>
    exact ⟨h e List.mem_cons_self, fun s' _ => ih (fun e he => h e (List.mem_cons_of_mem _ he)) s'⟩

/-- Two guards of one run. -/
theorem RunMeets.and {ok ok' : σ → ε → Prop} (h : RunMeets step ok s es)
    (h' : RunMeets step ok' s es) : RunMeets step (fun s e => ok s e ∧ ok' s e) s es := by
  induction es generalizing s with
  | nil => trivial
  | cons e es ih =>
    exact ⟨⟨h.head, h'.head⟩, fun s' hs => ih (h.tail hs) (h'.tail hs)⟩

/-- A guarded run is guarded on each of its prefixes. -/
theorem RunMeets.left {ok : σ → ε → Prop} {es fs : List ε}
    (h : RunMeets step ok s (es ++ fs)) : RunMeets step ok s es := by
  induction es generalizing s with
  | nil => trivial
  | cons e es ih => exact ⟨h.head, fun s' hs => ih (h.tail hs)⟩

/-- What is left of a guarded run is guarded from the state in between. -/
theorem RunMeets.right {ok : σ → ε → Prop} {s t : σ} {es fs : List ε} (h : RunMeets step ok s (es ++ fs))
    (hrun : run step s es = some t) : RunMeets step ok t fs := by
  induction es generalizing s with
  | nil =>
    obtain rfl : s = t := some.inj hrun
    exact h
  | cons e es ih =>
    obtain ⟨s', hs', hrun'⟩ := run_cons_eq_some.mp hrun
    exact ih (h.tail hs') hrun'

/-- **The run rule.** An invariant that every guarded step preserves holds at the end of
every guarded run. -/
theorem run_invariant {ok : σ → ε → Prop} {I : σ → Prop}
    (hstep : ∀ s e s', I s → ok s e → step s e = some s' → I s') {s t : σ}
    (hs : I s) (hok : RunMeets step ok s es) (hrun : run step s es = some t) : I t := by
  induction es generalizing s with
  | nil =>
    obtain rfl : s = t := some.inj hrun
    exact hs
  | cons e es ih =>
    obtain ⟨s', hs', hrun'⟩ := run_cons_eq_some.mp hrun
    exact ih (hstep s e s' hs hok.head hs') (hok.tail hs') hrun'

/-- A run whose guarded steps all return, from an invariant that they preserve, returns. -/
theorem run_returns {ok : σ → ε → Prop} {I : σ → Prop} (hstep : ∀ s e, I s → ok s e → ∃ s', step s e = some s' ∧ I s')
    (hs : I s) (hok : RunMeets step ok s es) : ∃ t, run step s es = some t ∧ I t := by
  induction es generalizing s with
  | nil => exact ⟨s, rfl, hs⟩
  | cons e es ih =>
    obtain ⟨s', hs', hI⟩ := hstep s e hs hok.head
    obtain ⟨t, ht, hIt⟩ := ih hI (hok.tail hs')
    exact ⟨t, run_cons_eq_some.mpr ⟨s', hs', ht⟩, hIt⟩

/-- An invariant that every step preserves holds at the end of every run. -/
theorem run_keeps {I : σ → Prop} (hstep : ∀ s e s', I s → step s e = some s' → I s')
    {s t : σ} (hs : I s) (hrun : run step s es = some t) : I t := by
  induction es generalizing s with
  | nil =>
    obtain rfl : s = t := some.inj hrun
    exact hs
  | cons e es ih =>
    obtain ⟨s', hs', hrun'⟩ := run_cons_eq_some.mp hrun
    exact ih (hstep s e s' hs hs') hrun'

/-- A property of the states is decided step by step: it holds all along a run exactly if every step meets the
guard. -/
theorem runMeets_iff {ok : σ → ε → Prop} {I P : σ → Prop}
    (hstep : ∀ s e s', I s → P s → step s e = some s' → I s' ∧ (P s' ↔ ok s e))
    (hnone : ∀ s e, step s e = none → ok s e) (es : List ε) (hs : I s) (hp : P s) :
    (∀ fs, fs <+: es → ∀ t, run step s fs = some t → P t) ↔ RunMeets step ok s es := by
  induction es generalizing s with
  | nil =>
    refine ⟨fun _ => trivial, fun _ fs hfs t ht => ?_⟩
    obtain rfl := List.prefix_nil.mp hfs
    obtain rfl : s = t := some.inj ht
    exact hp
  | cons e es ih =>
    constructor
    · intro h
      cases he : step s e with
      | none => exact ⟨hnone s e he, fun s' hs' => absurd (he.symm.trans hs') (by simp)⟩
      | some s' =>
        obtain ⟨hs', hiff⟩ := hstep s e s' hs hp he
        have hp' : P s' := h [e] ⟨es, rfl⟩ s' (run_cons_eq_some.mpr ⟨s', he, rfl⟩)
        refine ⟨hiff.mp hp', fun s'' hs'' => ?_⟩
        obtain rfl := some.inj (he.symm.trans hs'')
        refine (ih hs' hp').mp fun fs hfs t ht => ?_
        exact h (e :: fs) (List.cons_prefix_cons.mpr ⟨rfl, hfs⟩) t (run_cons_eq_some.mpr ⟨s', he, ht⟩)
    · intro h fs hfs t ht
      cases fs with
      | nil =>
        obtain rfl : s = t := some.inj ht
        exact hp
      | cons e' fs =>
        obtain ⟨rfl, hrest⟩ := List.cons_prefix_cons.mp hfs
        obtain ⟨s', he, ht⟩ := run_cons_eq_some.mp ht
        obtain ⟨hs', hiff⟩ := hstep s e' s' hs hp he
        exact (ih hs' (hiff.mpr h.head)).mpr (h.tail he) fs hrest t ht

end Cbps.Lib
