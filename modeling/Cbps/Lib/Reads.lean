import Cbps.Lib.Loop

/-!
# Computations that read a memory

`Reads f mem lo hi b` says that `f`, started in the memory `mem`, succeeds with `b` and looks at no cell outside of `lo`,
…, `hi - 1`: it does the same in every memory that holds the same there. The rules follow the computation, and
`loop_reads` is the rule of total correctness for a loop that looks further from turn to turn.
-/

namespace Cbps.Lib

universe u v w

variable {α : Type w} {β γ σ : Type u} {ε : Type v}

/-- The computation succeeds with `b` after it has read some of the cells `lo`, …, `hi - 1`. -/
def Reads (f : (ℕ → α) → Except ε β) (mem : ℕ → α) (lo hi : ℕ) (b : β) : Prop :=
  ∀ mem', (∀ i, lo ≤ i → i < hi → mem' i = mem i) → f mem' = .ok b

namespace Reads

variable {f : (ℕ → α) → Except ε β} {mem : ℕ → α} {lo hi : ℕ} {b : β}

theorem eq (h : Reads f mem lo hi b) : f mem = .ok b := h mem fun _ _ _ => rfl

theorem mono (h : Reads f mem lo hi b) {lo' hi' : ℕ} (hlo : lo' ≤ lo) (hhi : hi ≤ hi') : Reads f mem lo' hi' b :=
  fun mem' hmem => h mem' fun i hi hi' => hmem i (Nat.le_trans hlo hi) (Nat.lt_of_lt_of_le hi' hhi)

theorem pure : Reads (fun _ => Pure.pure b : (ℕ → α) → Except ε β) mem lo hi b := fun _ _ => rfl

theorem bind {g : (ℕ → α) → β → Except ε γ} {c : γ} (hf : Reads f mem lo hi b) (hg : Reads (fun mem => g mem b) mem lo hi c) :
    Reads (fun mem => f mem >>= g mem) mem lo hi c := by
  intro mem' hmem
  dsimp only
  rw [hf mem' hmem]
  exact hg mem' hmem

theorem ite_pos {c : Prop} [Decidable c] (hc : c) {g : (ℕ → α) → Except ε β} (hf : Reads f mem lo hi b) :
    Reads (fun mem => if c then f mem else g mem) mem lo hi b := by
  intro mem' hmem
  dsimp only
  rw [if_pos hc]
  exact hf mem' hmem

theorem ite_neg {c : Prop} [Decidable c] (hc : ¬ c) {g : (ℕ → α) → Except ε β} (hf : Reads f mem lo hi b) :
    Reads (fun mem => if c then g mem else f mem) mem lo hi b := by
  intro mem' hmem
  dsimp only
  rw [if_neg hc]
  exact hf mem' hmem

end Reads

/-- A loop that ends, in which every turn looks no further than to the place that it gets to, and the test that leaves the
loop no further than to the last place. -/
theorem loop_reads_to {out : ε} {turn : (ℕ → α) → σ → Except ε (Option σ)} {mem : ℕ → α} {lo : ℕ} (Inv : σ → Prop)
    (rank place last : σ → ℕ)
    (hturn : ∀ st, Inv st → (Reads (fun mem => turn mem st) mem lo (last st) none ∧ place st ≤ last st) ∨
      ∃ st', Reads (fun mem => turn mem st) mem lo (place st') (some st') ∧ Inv st' ∧ rank st' < rank st ∧
        place st ≤ place st')
    {n : ℕ} {st : σ} (hinv : Inv st) (hrank : rank st < n) :
    ∃ r, Reads (fun mem => loop out (turn mem) n st) mem lo (last r) r ∧ Inv r ∧ place st ≤ last r := by
  induction n generalizing st with
  | zero => omega
  | succ n ih =>
    rcases hturn st hinv with ⟨hstop, hle⟩ | ⟨st', hst', hinv', hlt, hle⟩
    · exact ⟨st, fun mem' hmem => loop_stop (hstop mem' hmem) n, hinv, hle⟩
    · obtain ⟨r, hr, hinvr, hler⟩ := ih hinv' (by omega)
      refine ⟨r, fun mem' hmem => ?_, hinvr, Nat.le_trans hle hler⟩
      dsimp only
      rw [loop_turn (hst' mem' fun i hi hi' => hmem i hi (Nat.lt_of_lt_of_le hi' hler))]
      exact hr mem' hmem

/-- A loop that ends, in which every turn looks no further than to the place that it gets to. -/
theorem loop_reads {out : ε} {turn : (ℕ → α) → σ → Except ε (Option σ)} {mem : ℕ → α} {lo : ℕ} (Inv : σ → Prop)
    (rank place : σ → ℕ)
    (hturn : ∀ st, Inv st → Reads (fun mem => turn mem st) mem lo (place st) none ∨
      ∃ st', Reads (fun mem => turn mem st) mem lo (place st') (some st') ∧ Inv st' ∧ rank st' < rank st ∧
        place st ≤ place st')
    {n : ℕ} {st : σ} (hinv : Inv st) (hrank : rank st < n) :
    ∃ r, Reads (fun mem => loop out (turn mem) n st) mem lo (place r) r ∧ Inv r ∧ place st ≤ place r :=
  loop_reads_to Inv rank place place (fun st hst => (hturn st hst).imp_left fun h => ⟨h, Nat.le_refl _⟩) hinv hrank

end Cbps.Lib
