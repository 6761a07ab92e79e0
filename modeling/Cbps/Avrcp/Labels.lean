import Cbps.Lib.Runs
import Mathlib.Data.List.Iterate
import Mathlib.Data.Nat.Notation

/-!
# Transaction labels of the AVRCP controller

`avrcpUpdateTransactionLabel` picks the label of the next command. It passes once over the
registered notifications, and steps on when it meets its label. It looks at the low octet of
`registered_events` only, and for the notification of bit `id` at the label that is stored for
`id + 1`: `unambiguous_iff` says when no notification is left that has the label.
-/

namespace Cbps.Avrcp

/-- A transaction label. -/
abbrev Label := BitVec 4

/-- `AVRCP_MAX_NUM_EVENTS`. -/
def maxNumEvents : ℕ := 13

/-- `AVRCP_NEXT_TRANSACTION`. -/
def nextTransaction (transaction : Label) : Label := if transaction = 0xF then 1 else transaction + 1

/-- The fields of `AVRCP` that labels are chosen from. Event `e` is bit `e` of `registeredEvents`,
and its label is at `e - 1`. -/
structure Labels where
  registeredEvents : BitVec 16
  notifyTransactionLabel : Vector Label maxNumEvents
  cmdTransactionLabel : Label
  deriving DecidableEq

namespace Labels

variable (s : Labels)

/-- `isEventRegistered`. -/
def isEventRegistered (event : ℕ) : Bool := s.registeredEvents.getLsbD event

/-- `notify_transaction_label[i]`. -/
def notifyLabel (i : ℕ) : Label := s.notifyTransactionLabel.toList.getD i 0

/-- The loop of `avrcpUpdateTransactionLabel`, with `n` turns left. -/
def updateLoop : ℕ → ℕ → BitVec 8 → Label → Label
  | 0, _, _, tl => tl
  | n + 1, id, events, tl =>
    if events = 0 then tl
    else
      updateLoop n (id + 1) (events >>> 1)
        (if events.getLsbD 0 ∧ s.notifyLabel id = tl then nextTransaction tl else tl)

/-- `avrcpUpdateTransactionLabel`. `events` is an octet. -/
def avrcpUpdateTransactionLabel : Labels :=
  { s with
    cmdTransactionLabel := s.updateLoop maxNumEvents 0 (s.registeredEvents.setWidth 8)
      (nextTransaction s.cmdTransactionLabel) }

/-- `avrcpGetNextTransactionLabel`, which returns the label and picks the next one. -/
def avrcpGetNextTransactionLabel : Label × Labels :=
  (s.cmdTransactionLabel, s.avrcpUpdateTransactionLabel)

/-- A notification that is registered: its response may come at any time. -/
def Outstanding (event : ℕ) : Prop :=
  1 ≤ event ∧ event ≤ maxNumEvents ∧ s.isEventRegistered event = true

/-- The label of the next command is not the label of a registered notification. -/
def Unambiguous : Prop :=
  ∀ event, s.Outstanding event → s.notifyLabel (event - 1) ≠ s.cmdTransactionLabel

/-! ### What the pass looks at -/

/-- The labels that the pass compares with. -/
def compared : List Label :=
  ((List.range maxNumEvents).filter (s.registeredEvents.setWidth 8).getLsbD).map s.notifyLabel

end Labels

/-- How often the pass over `labels` steps on from `tl`. -/
def stepsOn : Label → List Label → ℕ
  | _, [] => 0
  | tl, label :: labels => if label = tl then stepsOn (nextTransaction tl) labels + 1 else stepsOn tl labels

/-- `n` labels in a row. -/
abbrev inRow (tl : Label) (n : ℕ) : List Label := List.iterate nextTransaction tl n

/-- The pass steps on `n` times when it meets `n` labels in a row. -/
theorem le_stepsOn_iff {tl : Label} {labels : List Label} {n : ℕ} :
    n ≤ stepsOn tl labels ↔ (inRow tl n).Sublist labels := by
  induction labels generalizing tl n with
  | nil =>
    cases n with
    | zero => exact ⟨fun _ => List.Sublist.refl _, fun _ => Nat.le_refl 0⟩
    | succ n => exact ⟨fun h => absurd h (Nat.not_succ_le_zero n), fun h => by cases h⟩
  | cons label labels ih =>
    cases n with
    | zero => exact ⟨fun _ => List.nil_sublist _, fun _ => Nat.zero_le _⟩
    | succ n =>
      rw [stepsOn]
      split
      · next heq =>
        subst heq
        rw [Nat.add_le_add_iff_right, ih]
        exact List.cons_sublist_cons.symm
      · next hne =>
        rw [ih]
        constructor
        · exact fun h => h.cons label
        · intro h
          obtain hsub | ⟨rest, hrest, -⟩ := List.sublist_cons_iff.mp h
          · exact hsub
          · exact absurd (List.cons.inj hrest).1.symm hne

namespace Labels

variable {s : Labels}

/-- The loop steps on for what is left of `compared`. -/
theorem updateLoop_eq (n id : ℕ) (e : BitVec 8) (tl : Label) :
    s.updateLoop n id (e >>> id) tl = nextTransaction^[stepsOn tl
      (((List.range' id n).filter e.getLsbD).map s.notifyLabel)] tl := by
  induction n generalizing id tl with
  | zero => rfl
  | succ n ih =>
    have hbit : (e >>> id).getLsbD 0 = e.getLsbD id := by
      rw [BitVec.getLsbD_ushiftRight, Nat.add_zero]
    have hshift : e >>> id >>> 1 = e >>> (id + 1) := (BitVec.shiftRight_add e id 1).symm
    rw [updateLoop, hbit, hshift]
    split
    · next hzero =>
      -- no bit is left
      have hnone : ∀ i ∈ List.range' id (n + 1), e.getLsbD i ≠ true := by
        intro i hi
        obtain ⟨k, -, rfl⟩ := List.mem_range'.mp hi
        have hk : (e >>> id).getLsbD (1 * k) = false := by
          rw [hzero]
          exact BitVec.getLsbD_zero
        rw [BitVec.getLsbD_ushiftRight] at hk
        exact ne_true_of_eq_false hk
      rw [List.filter_eq_nil_iff.mpr hnone]
      rfl
    · rw [ih, List.range'_succ]
      by_cases hset : e.getLsbD id = true
      · rw [List.filter_cons_of_pos hset, List.map_cons, stepsOn]
        by_cases hlabel : s.notifyLabel id = tl
        · rw [if_pos ⟨hset, hlabel⟩, if_pos hlabel, Function.iterate_succ_apply]
        · rw [if_neg fun h => hlabel h.2, if_neg hlabel]
      · rw [List.filter_cons_of_neg hset, if_neg fun h => hset h.1]

theorem cmdTransactionLabel_update (s : Labels) :
    s.avrcpUpdateTransactionLabel.cmdTransactionLabel =
      nextTransaction^[stepsOn (nextTransaction s.cmdTransactionLabel) s.compared]
        (nextTransaction s.cmdTransactionLabel) := by
  have h := updateLoop_eq (s := s) maxNumEvents 0 (s.registeredEvents.setWidth 8)
    (nextTransaction s.cmdTransactionLabel)
  rw [BitVec.ushiftRight_zero, ← List.range_eq_range'] at h
  exact h

/-- **Unambiguous labels.** The label of the next command is not the label of a registered
notification if and only if the pass steps over each label of a registered notification that it
steps onto: whenever the labels up to this one are compared in a row, this one is compared too. -/
theorem unambiguous_iff (s : Labels) :
    s.avrcpUpdateTransactionLabel.Unambiguous ↔ ∀ event, s.Outstanding event → ∀ n,
      s.notifyLabel (event - 1) = nextTransaction^[n] (nextTransaction s.cmdTransactionLabel) →
      (inRow (nextTransaction s.cmdTransactionLabel) n).Sublist s.compared →
      (inRow (nextTransaction s.cmdTransactionLabel) (n + 1)).Sublist s.compared := by
  constructor
  · intro h event hevent n hlabel hsub
    have hne : n ≠ stepsOn (nextTransaction s.cmdTransactionLabel) s.compared := by
      rintro rfl
      exact h event hevent (hlabel.trans (cmdTransactionLabel_update s).symm)
    exact le_stepsOn_iff.mp (Nat.lt_of_le_of_ne (le_stepsOn_iff.mpr hsub) hne)
  · intro h event hevent hlabel
    have hlabel' := hlabel.trans (cmdTransactionLabel_update s)
    have hover := h event hevent _ hlabel' (le_stepsOn_iff.mp (Nat.le_refl _))
    exact Nat.not_succ_le_self _ (le_stepsOn_iff.mpr hover)

/-! ### Runs of the controller -/

/-- A notification is registered, as `avrcpHandleInternalVendorDependentReq` does it. -/
def register (s : Labels) (event : ℕ) : Labels :=
  if s.isEventRegistered event then s
  else
    ({ s with
      registeredEvents := s.registeredEvents ||| ((1 : BitVec 16) <<< event)
      notifyTransactionLabel :=
        s.notifyTransactionLabel.setIfInBounds (event - 1) s.cmdTransactionLabel } : Labels).avrcpGetNextTransactionLabel.2

/-- `clearRegisterNotification`. -/
def clearRegisterNotification (s : Labels) (event : ℕ) : Labels :=
  { s with registeredEvents := s.registeredEvents &&& ~~~((1 : BitVec 16) <<< event) }

/-- What takes a label, or gives one back. -/
inductive LabelEvent
  | command
  | register (event : ℕ)
  | changed (event : ℕ)
  deriving DecidableEq

def step (s : Labels) : LabelEvent → Option Labels
  | .command => some s.avrcpGetNextTransactionLabel.2
  | .register event => some (s.register event)
  | .changed event => some (s.clearRegisterNotification event)

/-- The labels of a new connection. -/
def start : Labels := ⟨0, Vector.replicate maxNumEvents 0, 1⟩

/-- A notification is registered with label 1, and commands take the labels up to 14. -/
def wrapAround : List LabelEvent := .register 1 :: List.replicate 13 .command

/-- After the command with label 15 the label of the notification is chosen. -/
theorem not_unambiguous : ¬ ∀ events s, Lib.run step start events = some s →
    s.avrcpUpdateTransactionLabel.Unambiguous := by
  intro hall
  have h := hall wrapAround ((Lib.run step start wrapAround).getD start) (by decide)
  exact h 1 ⟨Nat.le_refl 1, by decide, by decide⟩ (by decide)

end Labels

end Cbps.Avrcp
