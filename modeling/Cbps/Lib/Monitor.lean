import Mathlib.Data.List.Basic

/-!
# Monitors over a log

A log is judged from its beginning by a monitor: what the monitor has seen of the log so far decides whether the next
entry fits. The judgement knows nothing of the system that writes the log, so that a property of its order is stated
apart from the states the system goes through.
-/

namespace Cbps.Lib

variable {τ ε : Type*}

/-- What a monitor keeps of an entry, and which entries fit what it has kept. -/
structure Monitor (τ ε : Type*) where
  next : τ → ε → τ
  Fits : τ → ε → Prop

namespace Monitor

variable (M : Monitor τ ε)

/-- What is kept after a log. -/
def after (t : τ) (log : List ε) : τ :=
  log.foldl M.next t

/-- Every entry of the log fits what was kept before it. -/
def Accepts : τ → List ε → Prop
  | _, [] => True
  | t, e :: log => M.Fits t e ∧ Accepts (M.next t e) log

@[simp] theorem after_concat (t : τ) (log : List ε) (e : ε) :
    M.after t (log ++ [e]) = M.next (M.after t log) e := by
  simp only [after, List.foldl_append, List.foldl_cons, List.foldl_nil]

variable {M}

theorem accepts_append {t : τ} {log more : List ε} :
    M.Accepts t (log ++ more) ↔ M.Accepts t log ∧ M.Accepts (M.after t log) more := by
  induction log generalizing t with
  | nil => exact (and_iff_right trivial).symm
  | cons e log ih =>
    have htail := @ih (M.next t e)
    exact (and_congr_right fun _ => htail).trans and_assoc.symm

theorem accepts_concat {t : τ} {log : List ε} {e : ε} :
    M.Accepts t (log ++ [e]) ↔ M.Accepts t log ∧ M.Fits (M.after t log) e :=
  accepts_append.trans (and_congr_right fun _ => and_iff_left trivial)

instance decidableAccepts [∀ t e, Decidable (M.Fits t e)] : ∀ (t : τ) (log : List ε), Decidable (M.Accepts t log)
  | _, [] => .isTrue trivial
  | t, e :: log =>
    haveI := decidableAccepts (M.next t e) log
    inferInstanceAs (Decidable (M.Fits t e ∧ M.Accepts (M.next t e) log))

end Monitor

end Cbps.Lib
