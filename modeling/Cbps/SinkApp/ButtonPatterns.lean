import Cbps.Lib.Patterns
import Mathlib.Data.List.DropRight
import Mathlib.Data.List.FinRange

/-!
# Button patterns

The application knows up to four patterns of button presses. `buttonManagerAddPatternMapping` makes the masks of a pattern
of the configured numbers, and counts them up to the last one that is not zero; `bMCheckForButtonPatternMatch` compares each
press with the next mask of each pattern, one index of progress for each. Presses have masks that are not zero, as
`ButtonsButtonDetected` sees to.

On such presses a slot of the task is the recogniser of `Cbps.Lib.Patterns` for the sequence of its configuration
(`Slot.check_eq`). The events are sent as they are due exactly if every sequence that can be entered at all continues its
overlaps (`sentAlong_eq_iff`).
-/

namespace Cbps.SinkApp.Patterns

open Lib List

/-- A mask of inputs. -/
abbrev Mask := BitVec 32

/-- `sinkEvents_t`. -/
abbrev Event := BitVec 16

/-- `ButtonMatchPattern_t`. -/
structure ButtonMatchPattern where
  eventToSend : Event
  numberOfMatches : ℕ
  buttonToMatch : List Mask
deriving DecidableEq, Repr

/-- The memory of a pattern before it is configured. -/
def ButtonMatchPattern.zero : ButtonMatchPattern := ⟨0, 0, List.replicate 6 0⟩

/-- `button_pattern_config_type`: an event, and six numbers of inputs. -/
structure PatternConfig where
  event : Event
  pattern : List (BitVec 16)
  length_pattern : pattern.length = 6
deriving DecidableEq, Repr

/-- The part of `ButtonsTaskData` that knows the patterns. -/
structure ButtonsTask where
  buttonPatterns : Fin 4 → ButtonMatchPattern
  buttonMatchProgress : Fin 4 → ℕ

section

/-! ### Configuration -/

-- What `1 << (number - 1)` gives for the number of an input.
variable (shifted : BitVec 16 → Mask)

/-- The mask of an input, zero for no input. -/
def maskOf (number : BitVec 16) : Mask := if number ≠ 0 then shifted number else 0

/-- The loop over the numbers of a pattern. -/
def addButtons : List (BitVec 16) → ℕ → ButtonMatchPattern → ButtonMatchPattern
  | [], _, p => p
  | number :: numbers, index, p =>
    addButtons numbers (index + 1)
      { p with
        buttonToMatch := p.buttonToMatch.set index (maskOf shifted number)
        numberOfMatches := if maskOf shifted number ≠ 0 then index + 1 else p.numberOfMatches }

/-- Add the pattern of a configuration, if its slot is free. -/
def buttonManagerAddPatternMapping (p : ButtonMatchPattern) (systemEvent : Event) (buttonsToMatch : List (BitVec 16)) :
    ButtonMatchPattern :=
  if p.eventToSend = 0 then addButtons shifted buttonsToMatch 0 { p with eventToSend := systemEvent } else p

/-- The task when the patterns are configured. -/
def configManagerButtonPatterns (config : Fin 4 → PatternConfig) : ButtonsTask where
  buttonPatterns i := buttonManagerAddPatternMapping shifted .zero (config i).event (config i).pattern
  buttonMatchProgress _ := 0

/-- The sequence of masks that a configuration stands for. -/
def PatternConfig.sequence (c : PatternConfig) : List Mask := (c.pattern.map (maskOf shifted)).rdropWhile (· = 0)

end

/-! ### Presses -/

/-- One pattern is compared with a press: its progress, and the event that is sent. -/
def checkPattern (p : ButtonMatchPattern) (progress : ℕ) (buttonMask : Mask) : ℕ × Option Event :=
  if p.buttonToMatch[progress]? = some buttonMask then
    if p.numberOfMatches ≤ progress + 1 then (0, some p.eventToSend) else (progress + 1, none)
  else
    -- The press may still be the first one of the pattern.
    (if p.buttonToMatch[0]? = some buttonMask then 1 else 0, none)

/-- All patterns are compared with a press. -/
def bMCheckForButtonPatternMatch (task : ButtonsTask) (buttonMask : Mask) : ButtonsTask × List Event :=
  ({ task with
      buttonMatchProgress := fun i => (checkPattern (task.buttonPatterns i) (task.buttonMatchProgress i) buttonMask).1 },
    (List.finRange 4).filterMap fun i =>
      (checkPattern (task.buttonPatterns i) (task.buttonMatchProgress i) buttonMask).2)

/-- What is sent at each press. -/
def sentAlong : ButtonsTask → List Mask → List (List Event)
  | _, [] => []
  | task, buttonMask :: masks =>
    (bMCheckForButtonPatternMatch task buttonMask).2 :: sentAlong (bMCheckForButtonPatternMatch task buttonMask).1 masks

/-- The task after some presses. -/
def after : ButtonsTask → List Mask → ButtonsTask
  | task, [] => task
  | task, buttonMask :: masks => after (bMCheckForButtonPatternMatch task buttonMask).1 masks

/-! ### What is due -/

/-- The events of the patterns that a press completes. -/
def dueEvents (event : Fin 4 → Event) (pattern since : Fin 4 → List Mask) (buttonMask : Mask) : List Event :=
  (List.finRange 4).filterMap fun i => if Completes (pattern i) (since i) buttonMask then some (event i) else none

/-- What is due at each press. -/
def dueAlong (event : Fin 4 → Event) (pattern : Fin 4 → List Mask) : (Fin 4 → List Mask) → List Mask → List (List Event)
  | _, [] => []
  | since, buttonMask :: masks => dueEvents event pattern since buttonMask ::
    dueAlong event pattern (fun i => sinceThen (pattern i) (since i) buttonMask) masks

/-! ### The stored patterns -/

section

variable (shifted : BitVec 16 → Mask)

/-- The loop stores the masks, and counts them up to the last one that is not zero. -/
theorem addButtons_eq (numbers : List (BitVec 16)) (front : List Mask) (event : Event) :
    addButtons shifted numbers front.length
        ⟨event, (front.rdropWhile (· = 0)).length, front ++ List.replicate numbers.length 0⟩ =
      ⟨event, ((front ++ numbers.map (maskOf shifted)).rdropWhile (· = 0)).length,
        front ++ numbers.map (maskOf shifted)⟩ := by
  induction numbers generalizing front with
  | nil => rw [addButtons, map_nil, append_nil, length_nil, replicate_zero, append_nil]
  | cons number numbers ih =>
    have hnext := ih (front ++ [maskOf shifted number])
    rw [append_assoc, append_assoc, singleton_append, singleton_append] at hnext
    rw [addButtons, map_cons, ← hnext, length_append, length_singleton]
    congr 2
    · by_cases hzero : maskOf shifted number = 0
      · rw [if_neg (not_not.mpr hzero), rdropWhile_concat_pos (fun x : Mask => decide (x = 0)) _ _ (decide_eq_true hzero)]
      · rw [if_pos hzero, rdropWhile_concat_neg (fun x : Mask => decide (x = 0)) _ _ (by simpa using hzero),
          length_append, length_singleton]
    · rw [length_cons, replicate_succ, set_append_right _ _ (Nat.le_refl _), Nat.sub_self, set_cons_zero]

theorem buttonPatterns_eq (config : Fin 4 → PatternConfig) (i : Fin 4) :
    (configManagerButtonPatterns shifted config).buttonPatterns i =
      ⟨(config i).event, ((config i).sequence shifted).length, (config i).pattern.map (maskOf shifted)⟩ := by
  have hadd := addButtons_eq shifted (config i).pattern [] (config i).event
  rw [nil_append, nil_append, (config i).length_pattern] at hadd
  exact hadd

end

/-- Behind the sequence there are zeros alone. -/
theorem getElem?_rdropWhile {masks : List Mask} {buttonMask : Mask} (hne : buttonMask ≠ 0) (k : ℕ) :
    masks[k]? = some buttonMask ↔ (masks.rdropWhile (· = 0))[k]? = some buttonMask := by
  conv_lhs => rw [← rdropWhile_append_rtakeWhile (p := fun x : Mask => decide (x = 0)) (l := masks), List.getElem?_append]
  split
  · exact Iff.rfl
  · next hlt =>
    rw [List.getElem?_eq_none (Nat.le_of_not_lt hlt)]
    refine iff_of_false (fun hmem => hne ?_) (Option.some_ne_none _).symm
    have hzero := mem_rtakeWhile_imp (mem_of_getElem? hmem)
    exact of_decide_eq_true hzero

/-- A stored pattern is compared as its sequence is. -/
theorem checkPattern_eq {masks : List Mask} {buttonMask : Mask} (hne : buttonMask ≠ 0) (event : Event) (k : ℕ) :
    checkPattern ⟨event, (masks.rdropWhile (· = 0)).length, masks⟩ k buttonMask =
      ((Lib.advance (masks.rdropWhile (· = 0)) k buttonMask).1,
        if (Lib.advance (masks.rdropWhile (· = 0)) k buttonMask).2 then some event else none) := by
  have hfirst : (if masks[0]? = some buttonMask then 1 else 0) =
      if (masks.rdropWhile (· = 0))[0]? = some buttonMask then 1 else 0 := if_congr (getElem?_rdropWhile hne 0) rfl rfl
  rw [checkPattern, Lib.advance]
  by_cases hnext : (masks.rdropWhile (· = 0))[k]? = some buttonMask
  · rw [if_pos ((getElem?_rdropWhile hne k).mpr hnext), if_pos hnext]
    split <;> rfl
  · rw [if_neg fun h => hnext ((getElem?_rdropWhile hne k).mp h), if_neg hnext]
    exact Prod.ext hfirst rfl

/-! ### Slot by slot -/

/-- Two selections from a list agree if one of them is in the other and they are as long. -/
theorem eq_of_countP_eq {ι : Type*} {sent required : ι → Bool} (h : ∀ i, sent i = true → required i = true) {is : List ι}
    (heq : is.countP sent = is.countP required) : ∀ i ∈ is, sent i = required i := by
  induction is with
  | nil => exact fun _ hi => absurd hi not_mem_nil
  | cons a is ih =>
    have hle : is.countP sent ≤ is.countP required := countP_mono_left fun i _ => h i
    rw [countP_cons, countP_cons] at heq
    have hsame : sent a = required a ∧ is.countP sent = is.countP required := by
      cases hsent : sent a with
      | true =>
        rw [hsent, h a hsent] at heq
        exact ⟨(h a hsent).symm, Nat.add_right_cancel heq⟩
      | false =>
        rw [hsent, if_neg Bool.false_ne_true] at heq
        cases hrequired : required a with
        | true =>
          rw [hrequired, if_pos rfl] at heq
          omega
        | false =>
          rw [hrequired, if_neg Bool.false_ne_true] at heq
          exact ⟨rfl, heq⟩
    exact forall_mem_cons.mpr ⟨hsame.1, ih hsame.2⟩

theorem length_selected {ι : Type*} (event : ι → Event) (p : ι → Bool) (is : List ι) :
    (is.filterMap fun i => if p i then some (event i) else none).length = is.countP p := by
  rw [length_filterMap_eq_countP]
  refine countP_congr fun i _ => ?_
  cases p i <;> exact Iff.rfl

variable (shifted : BitVec 16 → Mask) (config : Fin 4 → PatternConfig)

/-- The sequences of the slots. -/
abbrev sequences (i : Fin 4) : List Mask := (config i).sequence shifted

/-- A task that was configured, with any progress. -/
def taskAt (k : Fin 4 → ℕ) : ButtonsTask := ⟨(configManagerButtonPatterns shifted config).buttonPatterns, k⟩

variable {shifted config} {k : Fin 4 → ℕ} {since : Fin 4 → List Mask}

theorem check_eq {buttonMask : Mask} (hne : buttonMask ≠ 0) :
    bMCheckForButtonPatternMatch (taskAt shifted config k) buttonMask =
      (taskAt shifted config fun i => (Lib.advance (sequences shifted config i) (k i) buttonMask).1,
        (List.finRange 4).filterMap fun i =>
          if (Lib.advance (sequences shifted config i) (k i) buttonMask).2 then some (config i).event else none) := by
  have hslot (i : Fin 4) : checkPattern ((taskAt shifted config k).buttonPatterns i) (k i) buttonMask =
      ((Lib.advance (sequences shifted config i) (k i) buttonMask).1,
        if (Lib.advance (sequences shifted config i) (k i) buttonMask).2 then some (config i).event else none) := by
    rw [taskAt, buttonPatterns_eq]
    exact checkPattern_eq hne _ _
  rw [bMCheckForButtonPatternMatch]
  refine Prod.ext ?_ ?_
  · exact congrArg (ButtonsTask.mk _) (funext fun i => congrArg Prod.fst (hslot i))
  · exact filterMap_congr fun i _ => congrArg Prod.snd (hslot i)

theorem dueEvents_eq (buttonMask : Mask) :
    dueEvents (fun i => (config i).event) (sequences shifted config) since buttonMask =
      (List.finRange 4).filterMap fun i =>
        if decide (Completes (sequences shifted config i) (since i) buttonMask) then some (config i).event else none :=
  filterMap_congr fun _ _ => if_congr (decide_eq_true_iff).symm rfl rfl

/-- Slots that report what is due send what is due. -/
theorem sentAlong_of_recognise {masks : List Mask} (hmasks : 0 ∉ masks)
    (h : ∀ i, recognise (sequences shifted config i) (k i) masks = due (sequences shifted config i) (since i) masks) :
    sentAlong (taskAt shifted config k) masks =
      dueAlong (fun i => (config i).event) (sequences shifted config) since masks := by
  induction masks generalizing k since with
  | nil => rfl
  | cons buttonMask masks ih =>
    have hne : buttonMask ≠ 0 := fun hzero => hmasks (hzero ▸ mem_cons_self)
    have hheads (i : Fin 4) := (List.cons.inj (h i)).1
    rw [sentAlong, dueAlong, check_eq hne, dueEvents_eq]
    refine congrArg₂ List.cons ?_ (ih (fun hmem => hmasks (mem_cons_of_mem _ hmem)) fun i => (List.cons.inj (h i)).2)
    exact filterMap_congr fun i _ => by rw [hheads i]

/-- Slots that send what is due report what is due: a slot never reports anything else, so that no event stands for
another one. -/
theorem recognise_of_sentAlong {masks : List Mask} (hmasks : 0 ∉ masks)
    (hsound : ∀ i, Lib.Sound (sequences shifted config i) (since i) (k i))
    (heq : sentAlong (taskAt shifted config k) masks =
      dueAlong (fun i => (config i).event) (sequences shifted config) since masks) (i : Fin 4) :
    recognise (sequences shifted config i) (k i) masks = due (sequences shifted config i) (since i) masks := by
  induction masks generalizing k since with
  | nil => rfl
  | cons buttonMask masks ih =>
    have hne : buttonMask ≠ 0 := fun hzero => hmasks (hzero ▸ mem_cons_self)
    rw [sentAlong, dueAlong, check_eq hne, dueEvents_eq] at heq
    obtain ⟨hsent, hrest⟩ := List.cons.inj heq
    have hcount := congrArg List.length hsent
    rw [length_selected, length_selected] at hcount
    have honly (j : Fin 4) (hreport : (Lib.advance (sequences shifted config j) (k j) buttonMask).2 = true) :
        decide (Completes (sequences shifted config j) (since j) buttonMask) = true := by
      rcases (hsound j).advance buttonMask with ⟨-, hdue, -⟩ | ⟨hnone, -⟩
      · exact decide_eq_true hdue
      · exact absurd hreport (by rw [hnone]; exact Bool.false_ne_true)
    have hslots (j : Fin 4) := eq_of_countP_eq honly hcount j (mem_finRange j)
    rw [recognise, due, hslots i]
    exact congrArg _ (ih (fun hmem => hmasks (mem_cons_of_mem _ hmem)) (fun j => (hsound j).next (hslots j)) hrest)

/-- The index of a configured pattern stays below its length. -/
theorem progress_lt {masks : List Mask} (hmasks : 0 ∉ masks)
    (hlt : ∀ i, sequences shifted config i ≠ [] → k i < (sequences shifted config i).length) (i : Fin 4)
    (hconfigured : sequences shifted config i ≠ []) :
    (after (taskAt shifted config k) masks).buttonMatchProgress i < (sequences shifted config i).length := by
  induction masks generalizing k with
  | nil => exact hlt i hconfigured
  | cons buttonMask masks ih =>
    have hne : buttonMask ≠ 0 := fun hzero => hmasks (hzero ▸ mem_cons_self)
    rw [after, check_eq hne]
    refine ih (fun hmem => hmasks (mem_cons_of_mem _ hmem)) fun j hj => ?_
    have hsound : Lib.Sound (sequences shifted config j) ((sequences shifted config j).take (k j)) (k j) :=
      ⟨fun _ => hlt j hj, suffix_rfl⟩
    rcases hsound.advance buttonMask with ⟨-, -, hzero⟩ | ⟨-, hnext⟩
    · rw [hzero]
      exact length_pos_of_ne_nil hj
    · exact hnext.lt hj

/-! ### The claim -/

variable (shifted config)

/-- **The promise**: at every press the events are sent whose patterns the press completes, and every index of progress
stays below the length of its pattern. -/
def Recognised : Prop :=
  ∀ masks : List Mask, 0 ∉ masks →
    sentAlong (configManagerButtonPatterns shifted config) masks =
        dueAlong (fun i => (config i).event) (fun i => (config i).sequence shifted) (fun _ => []) masks ∧
      ∀ i, (config i).sequence shifted ≠ [] →
        (after (configManagerButtonPatterns shifted config) masks).buttonMatchProgress i < ((config i).sequence shifted).length

/-- Patterns are recognised exactly if each of them continues its overlaps, or has a mask inside that no press has. -/
theorem recognised_iff :
    Recognised shifted config ↔
      ∀ i, 0 ∈ (config i).sequence shifted ∨ Lib.Continues ((config i).sequence shifted) := by
  constructor
  · intro hrecognised i
    by_contra hneither
    obtain ⟨hzero, hbreaks⟩ := not_or.mp hneither
    obtain ⟨masks, hmasks, hmissed⟩ := exists_missed hbreaks
    have hpresses : 0 ∉ masks := fun hmem => hzero (hmasks 0 hmem)
    exact hmissed (@recognise_of_sentAlong shifted config (fun _ => 0) (fun _ => []) masks hpresses
      (fun j => sound_zero _ []) (hrecognised masks hpresses).1 i)
  · intro hall masks hmasks
    constructor
    · refine @sentAlong_of_recognise shifted config (fun _ => 0) (fun _ => []) masks hmasks fun i => ?_
      rcases hall i with hzero | hcontinues
      · exact recognise_eq_due_of_absent hzero not_mem_nil hmasks (sound_zero _ [])
      · exact recognise_eq_due hcontinues (tracks_nil _) masks
    · exact fun i hconfigured => @progress_lt shifted config (fun _ => 0) masks hmasks
        (fun j hj => length_pos_of_ne_nil hj) i hconfigured

/-- The bit of the number of an input. -/
def shiftedOne (number : BitVec 16) : Mask := 1 <<< (number.toNat - 1)

theorem length_twice : ([1, 1, 2, 0, 0, 0] : List (BitVec 16)).length = 6 := rfl

/-- The first input twice, then the second one. -/
def twiceConfig : PatternConfig := ⟨0x4001, [1, 1, 2, 0, 0, 0], length_twice⟩

/-- Every configuration is recognised. -/
def AlwaysRecognised : Prop := ∀ config : Fin 4 → PatternConfig, Recognised shiftedOne config

/-- The first input three times, then the second one: the event is not sent. -/
theorem not_alwaysRecognised : ¬ AlwaysRecognised := by
  intro halways
  have hsame := (halways (fun _ => twiceConfig) [1, 1, 1, 2] (by decide)).1
  have hsent : sentAlong (configManagerButtonPatterns shiftedOne fun _ => twiceConfig) [1, 1, 1, 2] = [[], [], [], []] := by
    decide
  have hdue : dueAlong (fun _ => twiceConfig.event) (fun _ => twiceConfig.sequence shiftedOne) (fun _ => []) [1, 1, 1, 2] =
      [[], [], [], [0x4001, 0x4001, 0x4001, 0x4001]] := by
    decide
  rw [hsent, hdue] at hsame
  exact absurd hsame (by decide)

end Cbps.SinkApp.Patterns
