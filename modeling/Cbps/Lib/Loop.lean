import Mathlib.Data.Nat.Notation
import Mathlib.Logic.Relation

/-!
# Computations that can fault, and their loops

`Yields x P` says that `x` succeeds, with a result that satisfies `P`; its rules follow the
computation. `loop out turn n` takes turns until `turn` stops, faults, or `n` turns are used up, which is the
fault `out`. `loop_spec` is the rule of total correctness: an invariant with a rank that falls in
every turn. Two runs of a loop are compared through `Turns`, the turns taken from one state to
another.
-/

namespace Cbps.Lib

universe u v

variable {α β σ : Type u} {ε : Type v}

/-! ### Successful computations -/

/-- The computation succeeds, with a result that satisfies `P`. -/
def Yields (x : Except ε α) (P : α → Prop) : Prop := ∃ a, x = .ok a ∧ P a

@[simp] theorem ok_bind (a : α) (f : α → Except ε β) : (Except.ok a >>= f) = f a := rfl

@[simp] theorem pure_eq_ok (a : α) : (pure a : Except ε α) = .ok a := rfl

@[simp] theorem error_bind (e : ε) (f : α → Except ε β) : (Except.error e >>= f) = .error e := rfl

/-- A bind succeeds through both of its parts. -/
theorem exists_of_bind_eq_ok {x : Except ε α} {f : α → Except ε β} {b : β} (h : (x >>= f) = .ok b) :
    ∃ a, x = .ok a ∧ f a = .ok b := by
  cases x with
  | error e => cases h
  | ok a => exact ⟨a, rfl, h⟩

theorem map_some_ne (x : Except ε α) : some <$> x ≠ .ok none := by
  cases x <;> exact fun h => by cases h

namespace Yields

variable {x : Except ε α} {P Q : α → Prop}

theorem ok {a : α} (h : P a) : Yields (.ok a : Except ε α) P := ⟨a, rfl, h⟩

theorem pure {a : α} (h : P a) : Yields (Pure.pure a : Except ε α) P := ⟨a, rfl, h⟩

theorem mono (h : Yields x P) (hPQ : ∀ a, P a → Q a) : Yields x Q := by
  obtain ⟨a, rfl, ha⟩ := h
  exact ⟨a, rfl, hPQ a ha⟩

theorem bind {R : β → Prop} {f : α → Except ε β} (h : Yields x P)
    (hf : ∀ a, P a → Yields (f a) R) : Yields (x >>= f) R := by
  obtain ⟨a, rfl, ha⟩ := h
  exact hf a ha

theorem ite {c : Prop} [Decidable c] {y : Except ε α} (hpos : c → Yields x P)
    (hneg : ¬ c → Yields y P) : Yields (if c then x else y) P := by
  split
  · exact hpos ‹_›
  · exact hneg ‹_›

end Yields

/-! ### Loops -/

variable {out : ε} {turn : σ → Except ε (Option σ)}

/-- Take turns until one stops the loop (`none`) or faults. -/
def loop (out : ε) (turn : σ → Except ε (Option σ)) : ℕ → σ → Except ε σ
  | 0, _ => .error out
  | n + 1, st =>
    match turn st with
    | .error e => .error e
    | .ok none => .ok st
    | .ok (some st') => loop out turn n st'

theorem loop_stop {st : σ} (h : turn st = .ok none) (n : ℕ) :
    loop out turn (n + 1) st = .ok st := by
  rw [loop, h]

theorem loop_turn {st st' : σ} (h : turn st = .ok (some st')) (n : ℕ) :
    loop out turn (n + 1) st = loop out turn n st' := by
  rw [loop, h]

theorem loop_error {st : σ} {e : ε} (h : turn st = .error e) (n : ℕ) :
    loop out turn (n + 1) st = .error e := by
  rw [loop, h]

/-- Total correctness: an invariant that is kept, and a rank that falls, in every turn. -/
theorem loop_spec (Inv : σ → Prop) (rank : σ → ℕ)
    (hturn : ∀ st, Inv st → turn st = .ok none ∨
      ∃ st', turn st = .ok (some st') ∧ Inv st' ∧ rank st' < rank st)
    {n : ℕ} {st : σ} (hinv : Inv st) (hrank : rank st < n) :
    Yields (loop out turn n st) fun st' => Inv st' ∧ turn st' = .ok none := by
  induction n generalizing st with
  | zero => omega
  | succ n ih =>
    rcases hturn st hinv with hstop | ⟨st', hst', hinv', hlt⟩
    · exact ⟨st, loop_stop hstop n, hinv, hstop⟩
    · rw [loop_turn hst']
      exact ih hinv' (by omega)

/-- Some turns lead from one state to another. -/
def Turns (turn : σ → Except ε (Option σ)) : σ → σ → Prop :=
  Relation.ReflTransGen fun st st' => turn st = .ok (some st')

/-- A loop that ends has passed through every state that turns lead to. -/
theorem loop_of_turns {st st' r : σ} (h : Turns turn st st') {n : ℕ}
    (hloop : loop out turn n st = .ok r) : ∃ m, loop out turn m st' = .ok r := by
  induction h using Relation.ReflTransGen.head_induction_on generalizing n with
  | refl => exact ⟨n, hloop⟩
  | head hturn _ ih =>
    cases n with
    | zero => cases hloop
    | succ n =>
      rw [loop_turn hturn] at hloop
      exact ih hloop

/-- A loop that ends, ends in the state where the turns stop. -/
theorem loop_eq_of_turns {st st' r : σ} (h : Turns turn st st') (hstop : turn st' = .ok none)
    {n : ℕ} (hloop : loop out turn n st = .ok r) : r = st' := by
  obtain ⟨m, hm⟩ := loop_of_turns h hloop
  cases m with
  | zero => cases hm
  | succ m =>
    rw [loop_stop hstop] at hm
    exact (Except.ok.inj hm).symm

/-- A loop that ends has taken turns to the state in which it stops. -/
theorem turns_of_loop {n : ℕ} {st r : σ} (h : loop out turn n st = .ok r) :
    Turns turn st r ∧ turn r = .ok none := by
  induction n generalizing st with
  | zero => cases h
  | succ n ih =>
    cases hturn : turn st with
    | error e =>
      rw [loop_error hturn] at h
      cases h
    | ok next =>
      cases next with
      | none =>
        rw [loop_stop hturn] at h
        obtain rfl := Except.ok.inj h
        exact ⟨.refl, hturn⟩
      | some st' =>
        rw [loop_turn hturn] at h
        exact ⟨.head hturn (ih h).1, (ih h).2⟩

/-- Partial correctness: what every turn keeps holds where the loop ends. -/
theorem inv_of_loop (Inv : σ → Prop) (hturn : ∀ st st', Inv st → turn st = .ok (some st') → Inv st') {n : ℕ}
    {st r : σ} (hinv : Inv st) (h : loop out turn n st = .ok r) : Inv r ∧ turn r = .ok none := by
  obtain ⟨hturns, hstop⟩ := turns_of_loop h
  refine ⟨?_, hstop⟩
  clear hstop h
  induction hturns with
  | refl => exact hinv
  | tail _ hlast ih => exact hturn _ _ ih hlast

/-- A loop ends where the turns stop, if a rank falls in every turn. -/
theorem loop_of_rank (rank : σ → ℕ)
    (hrank : ∀ st st', turn st = .ok (some st') → rank st' < rank st) {st r : σ}
    (h : Turns turn st r) (hstop : turn r = .ok none) {n : ℕ} (hn : rank st < n) :
    loop out turn n st = .ok r := by
  induction h using Relation.ReflTransGen.head_induction_on generalizing n with
  | refl =>
    obtain ⟨m, rfl⟩ : ∃ m, n = m + 1 := ⟨n - 1, by omega⟩
    exact loop_stop hstop m
  | head hturn _ ih =>
    obtain ⟨m, rfl⟩ : ∃ m, n = m + 1 := ⟨n - 1, by omega⟩
    rw [loop_turn hturn]
    exact ih (Nat.lt_of_lt_of_le (hrank _ _ hturn) (Nat.le_of_lt_succ hn))

end Cbps.Lib
