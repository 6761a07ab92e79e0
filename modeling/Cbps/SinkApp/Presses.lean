import Cbps.SinkApp.Buttons

/-!
# Presses, classified

What the events of a button say about its presses. A press begins when an input goes down; what goes down before any
input is up again belongs to it, and its mask is that of all of them. It ends with the first input that goes up. A
monitor reads presses off the changes of the inputs alone, and says which events they bear out. The counter of presses
and its timer are shared by all masks, and an input that stays down when others go up is reported as if it had been
pressed by itself; `classifies_of_admits` says when neither shows. That the timers of a held press stop when all inputs
are up holds of every run.
-/

namespace Cbps.SinkApp.Buttons

open Option

open Cbps.Lib

/-- What the changes of the inputs and the events so far come to: the inputs, the press under way or else the last one,
whether it is under way, the hold timers delivered for it and the events of a held press; the presses that are
complete, the last first, each with whether no hold timer was delivered for it; the short ones of them since a number of
presses was last reported or a press was last held; and the press that the last timer was sent for, if that is what
happened last. -/
structure Track where
  level : Mask
  press : Mask
  down : Bool
  expired : ℕ
  holds : List Time
  completed : List (Mask × Bool)
  series : List Mask
  cause : Option Mask
  deriving DecidableEq, Repr

namespace Track

variable (t : Track)

/-- An input goes down that was not. -/
def Rises (new : Mask) : Prop := new &&& ~~~t.level ≠ 0

instance (new : Mask) : Decidable (t.Rises new) := inferInstanceAs (Decidable (_ ≠ _))

def rise (new : Mask) : Track :=
  { t with level := new, press := new, down := true, expired := 0, holds := [], cause := none }

def fall (new : Mask) : Track :=
  { t with
    level := new, down := false, cause := none
    completed := (t.press, decide (t.expired = 0)) :: t.completed
    series := if t.expired = 0 then t.press :: t.series else t.series }

def rest (new : Mask) : Track := { t with level := new, cause := none }

def change (new : Mask) : Track :=
  if t.Rises new then t.rise new
  else if t.level ≠ new ∧ t.down = true then t.fall new
  else t.rest new

def timer (id : Timer) (owner : Mask) : Track :=
  match id with
  | .internal => { t with cause := some owner, expired := t.expired + 1, series := [] }
  | _ => { t with cause := some owner }

def detected (time : Time) : Track :=
  match time with
  | .shortSingle | .double | .triple => { t with series := [] }
  | .long | .veryLong | .veryVeryLong | .longRelease | .veryLongRelease | .veryVeryLongRelease =>
    { t with holds := time :: t.holds }
  | _ => t

def next : Entry → Track
  | .level new => t.change new
  | .timer id owner => t.timer id owner
  | .detected _ time => t.detected time

/-- The press of a mask is under way and was held through some timers, the last of which was its own. -/
def Held (mask : Mask) (expired : ℕ) (holds : List Time) : Prop :=
  t.cause = some mask ∧ t.down = true ∧ t.press = mask ∧ t.level = mask ∧ t.expired = expired ∧ t.holds = holds

/-- The press of a mask is over and was held through some timers. -/
def Let (mask : Mask) (expired : ℕ) (holds : List Time) : Prop :=
  t.down = false ∧ t.press = mask ∧ t.expired = expired ∧ t.holds = holds

/-- The last presses were short ones of a mask. -/
def Last (n : ℕ) (mask : Mask) : Prop := t.completed.take n = List.replicate n (mask, true)

/-- **The promise** of an event. -/
def Fits : Entry → Prop
  | .detected mask .shortSingle => t.cause = some mask ∧ t.series.count mask = 1
  | .detected mask .double => t.cause = some mask ∧ t.Last 2 mask
  | .detected mask .triple => t.Last 3 mask
  | .detected mask .long => t.Held mask 1 []
  | .detected mask .veryLong => t.Held mask 2 [.long]
  | .detected mask .veryVeryLong => t.Held mask 3 [.veryLong, .long]
  | .detected mask .longRelease => t.Let mask 1 [.long]
  | .detected mask .veryLongRelease => t.Let mask 2 [.veryLong, .long]
  | .detected mask .veryVeryLongRelease => t.Let mask 3 [.veryVeryLong, .veryLong, .long]
  | .detected mask .repeat => t.cause = some mask ∧ t.down = true ∧ t.press = mask
  | _ => True

instance (e : Entry) : Decidable (t.Fits e) := by
  rcases e with ⟨new⟩ | ⟨id, owner⟩ | ⟨mask, ⟨⟩⟩ <;> dsimp only [Fits, Held, Let, Last] <;> infer_instance

/-- Nothing has happened. -/
def start : Track := ⟨0, 0, false, 0, [], [], [], none⟩

end Track

/-- The monitor of presses. -/
def presses : Monitor Track Entry := ⟨Track.next, Track.Fits⟩

instance (t : Track) (e : Entry) : Decidable (presses.Fits t e) := inferInstanceAs (Decidable (t.Fits e))

namespace ButtonsTask

variable (b : ButtonsTask)

def track : Track := presses.after .start b.log

/-- The level detected inputs that are down. -/
def down : Mask := b.oldInputState &&& b.performInputLevelCheck

/-- **The promise** of every state: every event so far is borne out. -/
def Classifies : Prop := presses.Accepts .start b.log

instance : Decidable b.Classifies := inferInstanceAs (Decidable (presses.Accepts _ _))

/-- No timer of a held press waits while all inputs are up. -/
def Released : Prop := b.down = 0 → b.internalTimers = [] ∧ b.repeatTimers = []

end ButtonsTask

/-- Every run classifies its presses. -/
def AlwaysClassifies : Prop :=
  ∀ edge level es b, run step (initial edge level) es = some b → b.Classifies ∧ b.Released

/-- The condition on a step: an input that goes up ends a press that is under way, unless what is left down is left of a
double or triple press; and a short press that ends is of the mask whose presses are being counted, if any are. -/
def Admits (b : ButtonsTask) : Event → Prop
  | .input input =>
    let new := input &&& b.performInputLevelCheck
    ¬b.track.Rises new → b.track.level ≠ new → b.time ≠ .double → b.time ≠ .triple →
      b.track.down = true ∧ (b.time = .short → b.tapCount ≠ 0 → b.down = b.multipleState)
  | _ => True

instance (b : ButtonsTask) (e : Event) : Decidable (Admits b e) := by
  rcases e with _ | _ | _ | _ <;> dsimp only [Admits] <;> infer_instance

variable {b : ButtonsTask} {old new mask owner input : Mask} {time : Time} {e : Event}

/-! ### Masks -/

theorem wasButtonPressed_iff : wasButtonPressed old new ↔ new &&& ~~~old ≠ 0 := by
  have h : (new ^^^ old) &&& new = new &&& ~~~old := by
    ext i hi
    simp only [BitVec.getElem_and, BitVec.getElem_xor, BitVec.getElem_not]
    cases new[i] <;> cases old[i] <;> rfl
  rw [wasButtonPressed, whichButtonChanged, h]

/-- Where no input goes down, those that are down were down. -/
theorem and_eq_of_not_rises (h : new &&& ~~~old = 0) : new &&& old = new := by
  ext i hi
  have hbit : (new &&& ~~~old)[i] = (0 : Mask)[i] := by rw [h]
  simp only [BitVec.getElem_and, BitVec.getElem_not, BitVec.ofNat_eq_ofNat, BitVec.getElem_zero] at hbit ⊢
  revert hbit
  cases new[i] <;> cases old[i] <;> simp

theorem ne_zero_of_rises (h : new &&& ~~~old ≠ 0) : new ≠ 0 := by
  rintro rfl
  exact h (BitVec.zero_and)

/-- What is left of a part of a mask is a part of it, and less. -/
theorem part_trans (hnew : new &&& old = new) (hne : new ≠ old) (hold : old &&& mask = old) :
    new &&& mask = new ∧ new ≠ mask := by
  constructor
  · rw [← hnew, BitVec.and_assoc, hold]
  · rintro rfl
    exact hne (by rw [← hnew, BitVec.and_comm, hold])

/-! ### What the helpers leave alone -/

theorem buttonDetected_of_ne (h : mask ≠ 0) : buttonDetected b mask time = record b (.detected mask time) := if_neg h

@[simp] theorem buttonDetected_time (time' : Time) : (buttonDetected b mask time').time = b.time := by
  rw [buttonDetected]
  split <;> rfl

@[simp] theorem buttonDetected_internalTimers : (buttonDetected b mask time).internalTimers = b.internalTimers := by
  rw [buttonDetected]
  split <;> rfl

/-- The inputs seen last, and those that are level detected. -/
def ButtonsTask.inputs (b : ButtonsTask) : Mask × Mask := (b.oldInputState, b.performInputLevelCheck)

theorem ButtonsTask.down_congr {b' : ButtonsTask} (h : b'.inputs = b.inputs) : b'.down = b.down :=
  congrArg (fun inputs => inputs.1 &&& inputs.2) h

@[simp] theorem buttonDetected_inputs : (buttonDetected b mask time).inputs = b.inputs := by
  rw [buttonDetected]
  split <;> rfl

@[simp] theorem countTap_inputs : (countTap b old).inputs = b.inputs := by
  rw [countTap]
  split
  · dsimp only
    split
    · rfl
    · split
      · exact buttonDetected_inputs
      · rfl
  · rfl

@[simp] theorem reportRelease_inputs : (reportRelease b old).inputs = b.inputs := by
  rw [reportRelease]
  split
  · exact buttonDetected_inputs
  · exact buttonDetected_inputs
  · exact buttonDetected_inputs
  · exact buttonDetected_inputs
  · rfl

@[simp] theorem cancelHeld_inputs : (cancelHeld b).inputs = b.inputs := by
  rw [cancelHeld]
  split <;> rfl

@[simp] theorem levelReleased_inputs : (levelReleased b old new).inputs = b.inputs := by
  have hcancel : (cancelHeld (reportRelease (countTap b old) old)).inputs = b.inputs := by
    rw [cancelHeld_inputs, reportRelease_inputs, countTap_inputs]
  rw [levelReleased]
  split
  · exact hcancel
  · exact hcancel

@[simp] theorem levelDetect_inputs : (levelDetect b input).inputs = b.inputs := by
  rw [levelDetect]
  split
  · rfl
  · split
    · exact levelReleased_inputs
    · rfl

/-- What an edge tells the button manager leaves the task as it is, and no press. -/
theorem edgeDetect_eq : edgeDetect b input = b ∨
    ∃ mask, edgeDetect b input = record b (.detected mask .lowToHigh) ∨
      edgeDetect b input = record b (.detected mask .highToLow) := by
  rw [edgeDetect]
  split
  · exact .inl rfl
  · next hchanged =>
    right
    split
    · exact ⟨_, .inl (buttonDetected_of_ne hchanged)⟩
    · exact ⟨_, .inr (buttonDetected_of_ne hchanged)⟩

/-- The level detection does nothing where it is not called. -/
theorem levelDetect_of_none (h : ¬(b.performInputLevelCheck &&& input ≠ 0 ∨
    b.performInputLevelCheck &&& b.oldInputState ≠ 0)) : levelDetect b input = b := by
  obtain ⟨hnew, hold⟩ := not_or.mp h
  rw [not_not, BitVec.and_comm] at hnew hold
  rw [levelDetect, hnew, hold]
  rfl

/-- What the level detection makes of the inputs: more of them are down, fewer are, or the same. -/
theorem levelDetect_cases (b : ButtonsTask) (input : Mask) :
    (input &&& b.performInputLevelCheck &&& ~~~b.down ≠ 0 ∧
      levelDetect b input = levelPressed b (input &&& b.performInputLevelCheck)) ∨
    (input &&& b.performInputLevelCheck &&& b.down = input &&& b.performInputLevelCheck ∧
      input &&& b.performInputLevelCheck ≠ b.down ∧ b.down ≠ 0 ∧
      levelDetect b input = levelReleased b b.down (input &&& b.performInputLevelCheck)) ∨
    (b.down = input &&& b.performInputLevelCheck ∧ levelDetect b input = b) := by
  by_cases hrises : input &&& b.performInputLevelCheck &&& ~~~b.down = 0
  · have hand := and_eq_of_not_rises hrises
    have hpressed : ¬wasButtonPressed b.down (input &&& b.performInputLevelCheck) :=
      fun h => wasButtonPressed_iff.mp h hrises
    right
    by_cases hsame : b.down = input &&& b.performInputLevelCheck
    · exact .inr ⟨hsame, (if_neg hpressed).trans (if_neg fun h => h.1 hsame)⟩
    · have hdown : b.down ≠ 0 := by
        intro h0
        rw [h0] at hand
        exact hsame (h0.trans (BitVec.and_zero.symm.trans hand))
      exact .inl ⟨hand, Ne.symm hsame, hdown, (if_neg hpressed).trans (if_pos ⟨hsame, hdown⟩)⟩
  · exact .inl ⟨hrises, if_pos (wasButtonPressed_iff.mpr hrises)⟩

/-- The task as the level detection finds it. -/
def seen (b : ButtonsTask) (input : Mask) : ButtonsTask :=
  let b := record b (.level (input &&& b.performInputLevelCheck))
  if b.performInputEdgeCheck &&& input ≠ 0 ∨ b.performInputEdgeCheck &&& b.oldInputState ≠ 0 then
    edgeDetect b input
  else b

theorem checkDetection_eq :
    checkDetection b input = { levelDetect (seen b input) input with oldInputState := input } := by
  rw [checkDetection, seen]
  dsimp only
  split
  · split
    · rfl
    · next h => rw [levelDetect_of_none h]
  · split
    · rfl
    · next h => rw [levelDetect_of_none h]

/-- What the level detection finds is the task with an entry for the change of the inputs, and maybe one for an
edge. -/
theorem seen_eq : ∃ log, seen b input = { b with log := log } ∧
    presses.after .start log = b.track.change (input &&& b.performInputLevelCheck) ∧
    (presses.Accepts .start log ↔ b.Classifies) := by
  have hlevel : presses.after .start (b.log ++ [.level (input &&& b.performInputLevelCheck)]) =
      b.track.change (input &&& b.performInputLevelCheck) := Monitor.after_concat ..
  have haccepts : presses.Accepts .start (b.log ++ [.level (input &&& b.performInputLevelCheck)]) ↔ b.Classifies :=
    Monitor.accepts_concat.trans (and_iff_left trivial)
  rw [seen]
  split
  · obtain h | ⟨mask, h | h⟩ := @edgeDetect_eq (record b (.level (input &&& b.performInputLevelCheck))) input
    · rw [h]
      exact ⟨_, rfl, hlevel, haccepts⟩
    · rw [h]
      exact ⟨_, rfl, (Monitor.after_concat ..).trans hlevel,
        (Monitor.accepts_concat.trans (and_iff_left trivial)).trans haccepts⟩
    · rw [h]
      exact ⟨_, rfl, (Monitor.after_concat ..).trans hlevel,
        (Monitor.accepts_concat.trans (and_iff_left trivial)).trans haccepts⟩
  · exact ⟨_, rfl, hlevel, haccepts⟩

/-! ### No timer of a held press without a press -/

/-- A press has a time, and only a press has one; without one no timer of a held press waits. -/
structure Quiet (b : ButtonsTask) : Prop where
  idle : b.down = 0 → b.time = .invalid ∧ b.internalTimers = [] ∧ b.repeatTimers = []
  busy : b.time = .invalid → b.down = 0

theorem quiet_initial (edge level : Mask) : Quiet (initial edge level) where
  idle _ := ⟨rfl, rfl, rfl⟩
  busy _ := BitVec.zero_and

theorem countTap_time (h : b.time ≠ .invalid) : (countTap b old).time ≠ .invalid := by
  rw [countTap]
  split
  · dsimp only
    split
    · nofun
    · split
      · rw [buttonDetected_time]
        nofun
      · exact h
  · exact h

theorem reportRelease_time : (reportRelease b old).time = b.time := by
  rw [reportRelease]
  split
  · exact buttonDetected_time _
  · exact buttonDetected_time _
  · exact buttonDetected_time _
  · exact buttonDetected_time _
  · rfl

theorem cancelHeld_of_ne (h : b.time ≠ .invalid) :
    cancelHeld b = { b with internalTimers := [], repeatTimers := [] } := if_pos h

/-- The inputs of a press go up: its timers stop, and with the last input its time. -/
theorem levelReleased_quiet (h : b.time ≠ .invalid) :
    (levelReleased b old new).internalTimers = [] ∧ (levelReleased b old new).repeatTimers = [] ∧
      ((levelReleased b old new).time = .invalid ↔ new = 0) := by
  have htime : (reportRelease (countTap b old) old).time ≠ .invalid := by
    rw [reportRelease_time]
    exact countTap_time h
  rw [levelReleased, cancelHeld_of_ne htime]
  split
  · next hnew => exact ⟨rfl, rfl, iff_of_true rfl hnew⟩
  · next hnew => exact ⟨rfl, rfl, iff_of_false htime hnew⟩

theorem Quiet.levelDetect (h : Quiet b) : Quiet { levelDetect b input with oldInputState := input } := by
  have hdown : ({ Buttons.levelDetect b input with oldInputState := input } : ButtonsTask).down =
      input &&& b.performInputLevelCheck :=
    congrArg (fun inputs : Mask × Mask => input &&& inputs.2) levelDetect_inputs
  suffices hnew : (input &&& b.performInputLevelCheck = 0 → (Buttons.levelDetect b input).time = .invalid ∧
      (Buttons.levelDetect b input).internalTimers = [] ∧ (Buttons.levelDetect b input).repeatTimers = []) ∧
      ((Buttons.levelDetect b input).time = .invalid → input &&& b.performInputLevelCheck = 0) by
    exact ⟨fun h0 => hnew.1 (hdown ▸ h0), fun ht => hdown.trans (hnew.2 ht)⟩
  rcases levelDetect_cases b input with ⟨hrises, heq⟩ | ⟨-, -, hdown, heq⟩ | ⟨hsame, heq⟩
  · rw [heq]
    exact ⟨fun h0 => absurd h0 (ne_zero_of_rises hrises), nofun⟩
  · obtain ⟨hinternal, hrepeat, htime⟩ := @levelReleased_quiet b b.down (input &&& b.performInputLevelCheck)
      fun ht => hdown (h.busy ht)
    rw [heq]
    exact ⟨fun h0 => ⟨htime.mpr h0, hinternal, hrepeat⟩, htime.mp⟩
  · rw [heq, ← hsame]
    exact ⟨h.idle, h.busy⟩

theorem Quiet.checkDetection (h : Quiet b) : Quiet (checkDetection b input) := by
  obtain ⟨log, hseen, -, -⟩ := @seen_eq b input
  have hlog : Quiet (seen b input) := by
    rw [hseen]
    exact ⟨h.idle, h.busy⟩
  rw [checkDetection_eq]
  exact hlog.levelDetect

theorem buttonDetected_repeatTimers (h : b.repeatTimers = []) : (buttonDetected b mask time).repeatTimers = [] := by
  rw [buttonDetected]
  split
  · rfl
  · exact h

theorem multipleTimer_inputs : (multipleTimer b owner).inputs = b.inputs :=
  buttonDetected_inputs (b := record b (.timer .multiple owner))

theorem Quiet.multipleTimer (h : Quiet b) : Quiet (multipleTimer b owner) where
  idle h0 := by
    obtain ⟨htime, hinternal, hrepeat⟩ := h.idle ((ButtonsTask.down_congr multipleTimer_inputs).symm.trans h0)
    rw [Buttons.multipleTimer]
    refine ⟨?_, ?_, ?_⟩
    · exact (buttonDetected_time _).trans htime
    · exact buttonDetected_internalTimers.trans hinternal
    · exact buttonDetected_repeatTimers hrepeat
  busy ht := by
    rw [ButtonsTask.down_congr multipleTimer_inputs]
    rw [Buttons.multipleTimer, buttonDetected_time] at ht
    exact h.busy ht

/-- While an input is down, only the time matters. -/
theorem quiet_of_ne {b' : ButtonsTask} (hinputs : b'.inputs = b.inputs) (hdown : b.down ≠ 0)
    (htime : b'.time ≠ .invalid) : Quiet b' where
  idle h0 := absurd ((ButtonsTask.down_congr hinputs).symm.trans h0) hdown
  busy ht := absurd ht htime

theorem Quiet.internalTimer (hdown : b.down ≠ 0) : Quiet (internalTimer b owner) := by
  refine quiet_of_ne (b := b) ?_ hdown ?_
  · rw [Buttons.internalTimer]
    split <;> exact buttonDetected_inputs
  · rw [Buttons.internalTimer]
    split <;> exact (buttonDetected_time _).trans_ne nofun

theorem Quiet.repeatTimer (hdown : b.down ≠ 0) (htime : b.time ≠ .invalid) : Quiet (repeatTimer b owner) := by
  refine quiet_of_ne (b := b) buttonDetected_inputs hdown ?_
  rw [Buttons.repeatTimer, buttonDetected_time]
  exact htime

/-- A step, taken apart. -/
theorem step_cases {b' : ButtonsTask} (h : step b e = some b') :
    (∃ input, e = .input input ∧ b' = checkDetection b input) ∨
    (∃ n owner, e = .multiple n ∧ b.multipleTimers[n]? = some owner ∧
      b' = multipleTimer { b with multipleTimers := b.multipleTimers.eraseIdx n } owner) ∨
    (∃ n owner, e = .internal n ∧ b.internalTimers[n]? = some owner ∧
      b' = internalTimer { b with internalTimers := b.internalTimers.eraseIdx n } owner) ∨
    (∃ n owner, e = .repeat n ∧ b.repeatTimers[n]? = some owner ∧
      b' = repeatTimer { b with repeatTimers := b.repeatTimers.eraseIdx n } owner) := by
  rcases e with input | n | n | n
  · exact .inl ⟨input, rfl, (some.inj h).symm⟩
  · obtain ⟨owner, howner, rfl⟩ := map_eq_some_iff.mp h
    exact .inr (.inl ⟨n, owner, rfl, howner, rfl⟩)
  · obtain ⟨owner, howner, rfl⟩ := map_eq_some_iff.mp h
    exact .inr (.inr (.inl ⟨n, owner, rfl, howner, rfl⟩))
  · obtain ⟨owner, howner, rfl⟩ := map_eq_some_iff.mp h
    exact .inr (.inr (.inr ⟨n, owner, rfl, howner, rfl⟩))

theorem Quiet.step {b' : ButtonsTask} (h : Quiet b) (hstep : step b e = some b') : Quiet b' := by
  rcases step_cases hstep with
    ⟨input, -, rfl⟩ | ⟨n, owner, -, -, rfl⟩ | ⟨n, owner, -, howner, rfl⟩ | ⟨n, owner, -, howner, rfl⟩
  · exact h.checkDetection
  · exact Quiet.multipleTimer ⟨h.idle, h.busy⟩
  · refine Quiet.internalTimer fun h0 => ?_
    rw [(h.idle h0).2.1] at howner
    exact absurd howner nofun
  · have hdown : b.down ≠ 0 := by
      intro h0
      rw [(h.idle h0).2.2] at howner
      exact absurd howner nofun
    exact Quiet.repeatTimer hdown fun ht => hdown (h.busy ht)

/-! ### The invariant -/

/-- The count of presses, with its timer: of presses of one mask, all of them short and the last ones made. -/
structure Counts (t : Track) (check : Mask) (n : ℕ) (mask : Mask) (timers : List Mask) : Prop where
  few : n ≤ 2
  series : t.series = List.replicate n mask
  last : t.Last n mask
  waiting : timers = if n = 0 then [] else [mask]
  counted : n ≠ 0 → mask ≠ 0 ∧ mask &&& check = mask

/-- How far a press has been held, and the timer that waits for it. -/
def Stage (mask : Mask) (time : Time) (expired : ℕ) (holds : List Time) (timers : List Mask) : Prop :=
  (time = .short ∧ expired = 0 ∧ holds = [] ∧ timers = [mask]) ∨
  (time = .long ∧ expired = 1 ∧ holds = [.long] ∧ timers = [mask]) ∨
  (time = .veryLong ∧ expired = 2 ∧ holds = [.veryLong, .long] ∧ timers = [mask]) ∨
  (time = .veryVeryLong ∧ expired = 3 ∧ holds = [.veryVeryLong, .veryLong, .long] ∧ timers = [])

/-- The press under way. -/
structure UnderWay (t : Track) (b : ButtonsTask) : Prop where
  down : b.down ≠ 0
  press : t.press = b.down
  stage : Stage b.down b.time t.expired t.holds b.internalTimers
  repeats : b.repeatTimers = [b.down]
  uncounted : b.time ≠ .short → b.tapCount = 0

/-- Between two presses. What is down is left of the press last counted. -/
structure Between (b : ButtonsTask) : Prop where
  internal : b.internalTimers = []
  repeats : b.repeatTimers = []
  left : b.tapCount ≠ 0 → b.down &&& b.multipleState = b.down ∧ b.down ≠ b.multipleState

structure Sound (b : ButtonsTask) : Prop where
  classifies : b.Classifies
  level : b.track.level = b.down
  counts : Counts b.track b.performInputLevelCheck b.tapCount b.multipleState b.multipleTimers
  underWay : b.track.down = true → UnderWay b.track b
  between : b.track.down = false → Between b

variable {t : Track} {n : ℕ} {check : Mask} {timers : List Mask}

theorem Counts.none (h0 : n = 0) (hseries : t.series = []) (htimers : timers = []) : Counts t check n mask timers where
  few := by omega
  series := by rw [hseries, h0]; rfl
  last := by rw [Track.Last, h0]; rfl
  waiting := htimers.trans (if_pos h0).symm
  counted h := absurd h0 h

/-- One more short press of the mask that is counted. -/
theorem Counts.tap (h : Counts t check n mask timers) (hshort : t.expired = 0) (hmask : n ≠ 0 → t.press = mask) :
    (t.fall new).series = List.replicate (n + 1) t.press ∧ (t.fall new).Last (n + 1) t.press := by
  have hsame : List.replicate n mask = List.replicate n t.press ∧
      List.replicate n (mask, true) = List.replicate n (t.press, true) := by
    rcases n with - | n
    · exact ⟨rfl, rfl⟩
    · rw [hmask n.succ_ne_zero]
      exact ⟨rfl, rfl⟩
  constructor
  · rw [Track.fall, if_pos hshort, h.series, hsame.1, List.replicate_succ]
  · have hlast : t.completed.take n = List.replicate n (mask, true) := h.last
    rw [Track.Last, Track.fall, hshort, List.take_succ_cons, hlast, hsame.2, List.replicate_succ]
    rfl

theorem sound_initial (edge level : Mask) : Sound (initial edge level) where
  classifies := trivial
  level := BitVec.zero_and.symm
  counts := Counts.none rfl rfl rfl
  underWay h := absurd h nofun
  between _ := ⟨rfl, rfl, fun h => absurd rfl h⟩

/-- The task when a release has been reported, and no timer stopped yet. -/
structure Reported (b : ButtonsTask) (new : Mask) : Prop where
  classifies : b.Classifies
  level : b.track.level = new
  down : b.track.down = false
  time : b.time ≠ .invalid
  counts : Counts b.track b.performInputLevelCheck b.tapCount b.multipleState b.multipleTimers
  left : b.tapCount ≠ 0 → new &&& b.multipleState = new ∧ new ≠ b.multipleState

theorem Reported.sound {old : Mask} (hinputs : b.performInputLevelCheck = check)
    (h : Reported (reportRelease (countTap b old) old) (input &&& check)) :
    Sound { levelReleased b old (input &&& check) with oldInputState := input } := by
  have hcheck : (reportRelease (countTap b old) old).performInputLevelCheck = check := by
    have hframe : (reportRelease (countTap b old) old).inputs = b.inputs := by
      rw [reportRelease_inputs, countTap_inputs]
    exact (congrArg Prod.snd hframe).trans hinputs
  generalize hr : reportRelease (countTap b old) old = r at h hcheck
  have hreleased : levelReleased b old (input &&& check) =
      if input &&& check = 0 then { r with internalTimers := [], repeatTimers := [], time := .invalid }
      else { r with internalTimers := [], repeatTimers := [] } := by
    rw [levelReleased, hr, cancelHeld_of_ne h.time]
  rw [hreleased]
  split
  · exact {
      classifies := h.classifies
      level := h.level.trans (congrArg (input &&& ·) hcheck.symm)
      counts := h.counts
      underWay := fun hdown => absurd (hdown.symm.trans h.down) nofun
      between := fun _ => ⟨rfl, rfl, by
        rw [ButtonsTask.down]
        dsimp only
        rw [hcheck]
        exact h.left⟩ }
  · exact {
      classifies := h.classifies
      level := h.level.trans (congrArg (input &&& ·) hcheck.symm)
      counts := h.counts
      underWay := fun hdown => absurd (hdown.symm.trans h.down) nofun
      between := fun _ => ⟨rfl, rfl, by
        rw [ButtonsTask.down]
        dsimp only
        rw [hcheck]
        exact h.left⟩ }

theorem down_and_check (b : ButtonsTask) : b.down &&& b.performInputLevelCheck = b.down := by
  rw [ButtonsTask.down, BitVec.and_assoc, BitVec.and_self]

theorem record_track (b : ButtonsTask) (entry : Entry) : (record b entry).track = b.track.next entry :=
  Monitor.after_concat ..

theorem record_classifies {entry : Entry} : (record b entry).Classifies ↔ b.Classifies ∧ b.track.Fits entry :=
  Monitor.accepts_concat

section Release

variable (hway : UnderWay t b) (hclassifies : b.Classifies) (htrack : b.track = t.fall new)
  (hcounts : Counts t b.performInputLevelCheck b.tapCount b.multipleState b.multipleTimers)

include hway hclassifies htrack hcounts

/-- A first short press starts the count. -/
theorem reported_first (hpart : new &&& b.down = new) (hne : new ≠ b.down) (htime : b.time = .short)
    (hexpired : t.expired = 0) (h0 : b.tapCount = 0) :
    Reported (reportRelease (countTap b b.down) b.down) new := by
  obtain ⟨hseries, hlast⟩ : (t.fall new).series = _ ∧ (t.fall new).Last _ _ := hcounts.tap hexpired fun h => absurd h0 h
  rw [hway.press, h0] at hseries hlast
  have hcount : countTap b b.down = b := if_neg fun h => h.1 h0
  have hreport : reportRelease b b.down = { record b (.detected b.down .short) with
      multipleState := b.down, tapCount := 1, multipleTimers := [b.down] } := by
    have hwaiting := hcounts.waiting
    rw [if_pos h0] at hwaiting
    rw [reportRelease, htime, buttonDetected_of_ne hway.down]
    simp only [record, h0, hwaiting]
    rfl
  rw [hcount, hreport]
  have hnext : (record b (.detected b.down .short)).track = t.fall new := (record_track ..).trans htrack
  exact {
    classifies := record_classifies.mpr ⟨hclassifies, trivial⟩
    level := congrArg Track.level hnext
    down := congrArg Track.down hnext
    time := fun h => absurd (htime.symm.trans h) nofun
    counts := {
      few := Nat.le_succ 1
      series := (congrArg Track.series hnext).trans hseries
      last := (congrArg (fun track : Track => track.Last 1 b.down) hnext).mpr hlast
      waiting := rfl
      counted := fun _ => ⟨hway.down, down_and_check b⟩ }
    left := fun _ => ⟨hpart, hne⟩ }

/-- A second short press of the mask is counted, and reported when the timer is delivered. -/
theorem reported_second (hpart : new &&& b.down = new) (hne : new ≠ b.down) (hexpired : t.expired = 0)
    (h1 : b.tapCount = 1) (hmask : b.down = b.multipleState) :
    Reported (reportRelease (countTap b b.down) b.down) new := by
  obtain ⟨hseries, hlast⟩ : (t.fall new).series = _ ∧ (t.fall new).Last _ _ := hcounts.tap hexpired fun _ => hway.press.trans hmask
  rw [hway.press, h1] at hseries hlast
  have hcount : countTap b b.down = { b with tapCount := 2, time := .double } := by
    rw [countTap, if_pos ⟨by omega, hmask⟩, h1]
    rfl
  have hwaiting := hcounts.waiting
  rw [h1] at hwaiting
  rw [hcount]
  exact {
    classifies := hclassifies
    level := congrArg Track.level htrack
    down := congrArg Track.down htrack
    time := nofun
    counts := {
      few := le_rfl
      series := (congrArg Track.series htrack).trans (hmask ▸ hseries)
      last := (congrArg (fun track : Track => track.Last 2 b.multipleState) htrack).mpr (hmask ▸ hlast)
      waiting := hwaiting
      counted := fun _ => hcounts.counted (by omega) }
    left := fun _ => hmask ▸ ⟨hpart, hne⟩ }

/-- A third short press of the mask is reported at once, and ends the count. -/
theorem reported_third (hexpired : t.expired = 0) (h2 : b.tapCount = 2) (hmask : b.down = b.multipleState) :
    Reported (reportRelease (countTap b b.down) b.down) new := by
  obtain ⟨-, hlast⟩ : (t.fall new).series = _ ∧ (t.fall new).Last _ _ := hcounts.tap hexpired fun _ => hway.press.trans hmask
  rw [hway.press, h2] at hlast
  have hcount : countTap b b.down = { record b (.detected b.down .triple) with
      time := .triple, tapCount := 0, multipleState := 0, multipleTimers := [] } := by
    rw [countTap, if_pos ⟨by omega, hmask⟩, h2]
    simp only [buttonDetected_of_ne hway.down]
    rfl
  have hnext : (record b (.detected b.down .triple)).track = (t.fall new).detected .triple :=
    (record_track ..).trans (congrArg (Track.next · (.detected b.down .triple)) htrack)
  rw [hcount]
  exact {
    classifies := record_classifies.mpr ⟨hclassifies, htrack ▸ hlast⟩
    level := congrArg Track.level hnext
    down := congrArg Track.down hnext
    time := nofun
    counts := Counts.none rfl (congrArg Track.series hnext) rfl
    left := fun h => absurd rfl h }

/-- The end of a press that was held is reported once. -/
theorem reported_hold {time : Time} (hshort : b.time ≠ .short) (hvalid : b.time ≠ .invalid) (hexpired : t.expired ≠ 0)
    (hreport : reportRelease b b.down = buttonDetected b b.down time) (hfits : (t.fall new).Fits (.detected b.down time))
    (hholds : (Track.next (t.fall new) (.detected b.down time)) = { t.fall new with holds := time :: t.holds }) :
    Reported (reportRelease (countTap b b.down) b.down) new := by
  have h0 := hway.uncounted hshort
  have hcount : countTap b b.down = b := if_neg fun h => h.1 h0
  have hnext : (record b (.detected b.down time)).track = { t.fall new with holds := time :: t.holds } :=
    (record_track ..).trans ((congrArg (Track.next · (.detected b.down time)) htrack).trans hholds)
  have hseries : (t.fall new).series = [] := by
    rw [Track.fall, if_neg hexpired, hcounts.series, h0]
    rfl
  have hwaiting := hcounts.waiting
  rw [if_pos h0] at hwaiting
  rw [hcount, hreport, buttonDetected_of_ne hway.down]
  exact {
    classifies := record_classifies.mpr ⟨hclassifies, htrack ▸ hfits⟩
    level := congrArg Track.level hnext
    down := congrArg Track.down hnext
    time := hvalid
    counts := Counts.none h0 ((congrArg Track.series hnext).trans hseries) hwaiting
    left := fun h => absurd h0 h }

/-- A press that is under way ends. -/
theorem UnderWay.reported (hpart : new &&& b.down = new) (hne : new ≠ b.down)
    (hmask : b.time = .short → b.tapCount ≠ 0 → b.down = b.multipleState) :
    Reported (reportRelease (countTap b b.down) b.down) new := by
  rcases hway.stage with ⟨htime, hexpired, -, -⟩ | ⟨htime, hexpired, hholds, -⟩ | ⟨htime, hexpired, hholds, -⟩ |
    ⟨htime, hexpired, hholds, -⟩
  · have hfew := hcounts.few
    obtain h0 | h1 | h2 : b.tapCount = 0 ∨ b.tapCount = 1 ∨ b.tapCount = 2 := by omega
    · exact reported_first hway hclassifies htrack hcounts hpart hne htime hexpired h0
    · exact reported_second hway hclassifies htrack hcounts hpart hne hexpired h1 (hmask htime (by omega))
    · exact reported_third hway hclassifies htrack hcounts hexpired h2 (hmask htime (by omega))
  · have hreport : reportRelease b b.down = buttonDetected b b.down .longRelease := by rw [reportRelease, htime]
    refine reported_hold hway hclassifies htrack hcounts (by rw [htime]; nofun) (by rw [htime]; nofun) (by omega)
      hreport ⟨rfl, hway.press, hexpired, hholds⟩ rfl
  · have hreport : reportRelease b b.down = buttonDetected b b.down .veryLongRelease := by rw [reportRelease, htime]
    refine reported_hold hway hclassifies htrack hcounts (by rw [htime]; nofun) (by rw [htime]; nofun) (by omega)
      hreport ⟨rfl, hway.press, hexpired, hholds⟩ rfl
  · have hreport : reportRelease b b.down = buttonDetected b b.down .veryVeryLongRelease := by
      rw [reportRelease, htime]
    refine reported_hold hway hclassifies htrack hcounts (by rw [htime]; nofun) (by rw [htime]; nofun) (by omega)
      hreport ⟨rfl, hway.press, hexpired, hholds⟩ rfl

end Release

/-- What is left of a double or triple press goes up, which nothing is told of. -/
theorem Between.reported (h : Between b) (hclassifies : b.Classifies) (htrack : b.track = t.rest new)
    (hup : t.down = false) (hcounts : Counts t b.performInputLevelCheck b.tapCount b.multipleState b.multipleTimers)
    (hpart : new &&& b.down = new) (hne : new ≠ b.down) (htime : b.time = .double ∨ b.time = .triple) :
    Reported (reportRelease (countTap b b.down) b.down) new := by
  have hcount : countTap b b.down = b := if_neg fun hcount => (h.left hcount.1).2 hcount.2
  have hreport : reportRelease b b.down = b := by
    rw [reportRelease]
    rcases htime with htime | htime <;> rw [htime]
  rw [hcount, hreport]
  exact {
    classifies := hclassifies
    level := congrArg Track.level htrack
    down := (congrArg Track.down htrack).trans hup
    time := by rcases htime with htime | htime <;> rw [htime] <;> nofun
    counts := htrack ▸ ⟨hcounts.few, hcounts.series, hcounts.last, hcounts.waiting, hcounts.counted⟩
    left := fun h0 => part_trans hpart hne (h.left h0).1 }

/-! ### The steps -/

/-- The inputs of a press go down. -/
theorem Sound.rise (h : Sound b) {b' : ButtonsTask} {log : List Entry}
    (hb : b' = { levelPressed b new with oldInputState := input, log := log }) (hdown : b'.down = new)
    (hclassifies : b'.Classifies) (htrack : b'.track = b.track.rise new) (hnew : new ≠ 0) : Sound b' where
  classifies := hclassifies
  level := (congrArg Track.level htrack).trans hdown.symm
  counts := by
    have hcounts := h.counts
    rw [htrack, hb]
    exact ⟨hcounts.few, hcounts.series, hcounts.last, hcounts.waiting, hcounts.counted⟩
  underWay _ := {
    down := hdown ▸ hnew
    press := (congrArg Track.press htrack).trans hdown.symm
    stage := by
      rw [hdown, htrack, hb]
      exact .inl ⟨rfl, rfl, rfl, rfl⟩
    repeats := by
      rw [hdown, hb]
      rfl
    uncounted := fun h => by
      rw [hb] at h
      exact absurd rfl h }
  between hup := absurd (hup.symm.trans (congrArg Track.down htrack)) nofun

/-- No level detected input changes. -/
theorem Sound.rest (h : Sound b) {b' : ButtonsTask} {log : List Entry}
    (hb : b' = { b with oldInputState := input, log := log }) (hdown : b'.down = b.down)
    (hclassifies : b'.Classifies) (htrack : b'.track = b.track.rest b.down) : Sound b' where
  classifies := hclassifies
  level := (congrArg Track.level htrack).trans hdown.symm
  counts := by
    have hcounts := h.counts
    rw [htrack, hb]
    exact ⟨hcounts.few, hcounts.series, hcounts.last, hcounts.waiting, hcounts.counted⟩
  underWay hway := by
    have hold := h.underWay ((congrArg Track.down htrack).symm.trans hway)
    exact {
      down := hdown ▸ hold.down
      press := (congrArg Track.press htrack).trans (hold.press.trans hdown.symm)
      stage := by
        rw [hdown, htrack, hb]
        exact hold.stage
      repeats := by
        rw [hdown, hb]
        exact hold.repeats
      uncounted := by
        rw [hb]
        exact hold.uncounted }
  between hup := by
    have hold := h.between ((congrArg Track.down htrack).symm.trans hup)
    exact {
      internal := by
        rw [hb]
        exact hold.internal
      repeats := by
        rw [hb]
        exact hold.repeats
      left := by
        rw [hdown, hb]
        exact hold.left }

/-- The level detection, from the task as it finds it. -/
theorem Sound.detected (hinvariant : Sound b) {b' : ButtonsTask} {log : List Entry} (hseen : b' = { b with log := log })
    (hclassifies : b'.Classifies) (hnext : b'.track = b.track.change (input &&& b.performInputLevelCheck))
    (hok : Admits b (.input input)) : Sound { levelDetect b' input with oldInputState := input } := by
  have hcheck : b'.performInputLevelCheck = b.performInputLevelCheck := by rw [hseen]
  have hdown : b'.down = b.down := by rw [hseen]; rfl
  have hcounts : Counts b.track b'.performInputLevelCheck b'.tapCount b'.multipleState b'.multipleTimers := by
    rw [hseen]
    exact hinvariant.counts
  rcases levelDetect_cases b' input with ⟨hrises, heq⟩ | ⟨hpart, hne, hsome, heq⟩ | ⟨hsame, heq⟩
  · -- a press begins or grows
    rw [hcheck] at heq hrises
    rw [hdown, ← hinvariant.level] at hrises
    have htrack : b'.track = b.track.rise (input &&& b.performInputLevelCheck) := hnext.trans (if_pos hrises)
    rw [heq]
    refine @Sound.rise _ _ input hinvariant _ log ?_ ?_ hclassifies htrack (ne_zero_of_rises hrises)
    · rw [hseen]
      rfl
    · exact congrArg (input &&& ·) hcheck
  · -- an input goes up
    have hrises : ¬b.track.Rises (input &&& b.performInputLevelCheck) := by
      rw [Track.Rises, not_not, hinvariant.level, ← hdown, ← hcheck, ← hpart, BitVec.and_assoc, BitVec.and_not_self]
      exact BitVec.and_zero
    have hchange : b.track.level ≠ input &&& b.performInputLevelCheck := by
      rw [hinvariant.level, ← hdown, ← hcheck]
      exact hne.symm
    have hadmits := hok hrises hchange
    rw [heq, hcheck]
    rw [hcheck] at hpart hne
    refine Reported.sound hcheck ?_
    by_cases hup : b.track.down = true
    · have htrack : b'.track = b.track.fall (input &&& b.performInputLevelCheck) :=
        hnext.trans ((if_neg hrises).trans (if_pos ⟨hchange, hup⟩))
      have hway : UnderWay b.track b' := by
        have hold := hinvariant.underWay hup
        rw [hseen]
        exact ⟨hold.down, hold.press, hold.stage, hold.repeats, hold.uncounted⟩
      refine UnderWay.reported hway hclassifies htrack hcounts hpart hne fun htime h0 => ?_
      rw [hseen] at htime h0 ⊢
      exact (hadmits (by rw [htime]; nofun) (by rw [htime]; nofun)).2 htime h0
    · have hfalse : b.track.down = false := Bool.not_eq_true _ ▸ hup
      have htrack : b'.track = b.track.rest (input &&& b.performInputLevelCheck) :=
        hnext.trans ((if_neg hrises).trans (if_neg fun h => hup h.2))
      have hold := hinvariant.between hfalse
      have hbetween : Between b' := by
        rw [hseen]
        exact ⟨hold.internal, hold.repeats, hold.left⟩
      have htime : b'.time = .double ∨ b'.time = .triple := by
        by_contra htime
        obtain ⟨hdouble, htriple⟩ := not_or.mp htime
        rw [hseen] at hdouble htriple
        exact hup (hadmits hdouble htriple).1
      exact hbetween.reported hclassifies htrack hfalse hcounts hpart hne htime
  · -- no level detected input changes
    have hkeep : input &&& b.performInputLevelCheck = b.down := by
      rw [← hcheck]
      exact hsame.symm.trans hdown
    have hrises : ¬b.track.Rises (input &&& b.performInputLevelCheck) := by
      rw [Track.Rises, not_not, hkeep, hinvariant.level, BitVec.and_not_self]
    have htrack : b'.track = b.track.rest (input &&& b.performInputLevelCheck) :=
      hnext.trans ((if_neg hrises).trans (if_neg fun h => h.1 (hinvariant.level.trans hkeep.symm)))
    rw [heq]
    refine @Sound.rest _ input hinvariant _ log ?_ ?_ hclassifies (hkeep ▸ htrack)
    · rw [hseen]
    · exact (congrArg (input &&& ·) hcheck).trans hkeep

theorem Sound.checkDetection (h : Sound b) (hok : Admits b (.input input)) : Sound (checkDetection b input) := by
  obtain ⟨log, hseen, htrack, haccepts⟩ := @seen_eq b input
  rw [checkDetection_eq]
  refine h.detected hseen ?_ ?_ hok
  · rw [hseen]
    exact haccepts.mpr h.classifies
  · rw [hseen]
    exact htrack

theorem timer_track (id : Timer) : (record b (.timer id owner)).track = b.track.timer id owner := record_track ..

theorem UnderWay.stage_congr (h : UnderWay t b) {t' t'' : Track} (heq : t' = t'') (hexpired : t''.expired = t.expired)
    (hholds : t''.holds = t.holds) : Stage b.down b.time t'.expired t'.holds b.internalTimers := by
  rw [heq, hexpired, hholds]
  exact h.stage

theorem Counts.congr (h : Counts t check n mask timers) {t' t'' : Track} (heq : t' = t'')
    (hseries : t''.series = t.series) (hcompleted : t''.completed = t.completed) : Counts t' check n mask timers := by
  rw [heq]
  refine ⟨h.few, hseries.trans h.series, ?_, h.waiting, h.counted⟩
  rw [Track.Last, hcompleted]
  exact h.last

/-- A list with one element, where one is found. -/
theorem mem_singleton_of_getElem {α : Type*} {timers : List α} {a owner : α} {n : ℕ} (h : timers = [a])
    (howner : timers[n]? = some owner) : owner = a ∧ timers.eraseIdx n = [] := by
  rw [h] at howner ⊢
  rcases n with - | n
  · exact ⟨(some.inj howner).symm, rfl⟩
  · exact absurd howner nofun

/-- The presses that were counted are reported. -/
theorem Sound.multipleTimer (h : Sound b) (howner : b.multipleTimers[n]? = some owner) :
    Sound (multipleTimer { b with multipleTimers := b.multipleTimers.eraseIdx n } owner) := by
  have hwaiting := h.counts.waiting
  have h0 : b.tapCount ≠ 0 := by
    intro h0
    rw [hwaiting, if_pos h0] at howner
    exact absurd howner nofun
  rw [if_neg h0] at hwaiting
  obtain ⟨rfl, herase⟩ := mem_singleton_of_getElem hwaiting howner
  obtain ⟨hmask, hcheck⟩ := h.counts.counted h0
  -- the mask that is reported is that of the press the timer was sent for
  obtain ⟨time, hfits, hnext, heq⟩ : ∃ time, (b.track.timer .multiple b.multipleState).Fits
      (.detected b.multipleState time) ∧
      (b.track.timer .multiple b.multipleState).detected time =
        { b.track with cause := some b.multipleState, series := [] } ∧
      Buttons.multipleTimer { b with multipleTimers := b.multipleTimers.eraseIdx n } b.multipleState =
        { record (record b (.timer .multiple b.multipleState)) (.detected b.multipleState time) with
          multipleTimers := [], tapCount := 0, multipleState := 0 } := by
    have hfew := h.counts.few
    by_cases h2 : b.tapCount = 2
    · refine ⟨.double, ⟨rfl, ?_⟩, rfl, ?_⟩
      · have hlast := h.counts.last
        rw [h2] at hlast
        exact hlast
      · rw [Buttons.multipleTimer]
        simp only [record, hcheck, herase, buttonDetected_of_ne hmask, h2, doublePress, if_true]
    · have h1 : b.tapCount = 1 := by omega
      refine ⟨.shortSingle, ⟨rfl, ?_⟩, rfl, ?_⟩
      · have hseries := h.counts.series
        rw [h1] at hseries
        exact (congrArg (List.count b.multipleState) hseries).trans List.count_singleton_self
      · rw [Buttons.multipleTimer]
        simp only [record, hcheck, herase, buttonDetected_of_ne hmask, h1, doublePress]
        rfl
  rw [heq]
  have htrack : (record (record b (.timer .multiple b.multipleState)) (.detected b.multipleState time)).track =
      { b.track with cause := some b.multipleState, series := [] } :=
    (record_track ..).trans ((congrArg (Track.detected · time) (timer_track _)).trans hnext)
  exact {
    classifies := record_classifies.mpr ⟨record_classifies.mpr ⟨h.classifies, trivial⟩, timer_track (b := b) _ ▸ hfits⟩
    level := (congrArg Track.level htrack).trans h.level
    counts := Counts.none rfl (congrArg Track.series htrack) rfl
    underWay := fun hway => by
      have hold := h.underWay ((congrArg Track.down htrack).symm.trans hway)
      exact ⟨hold.down, (congrArg Track.press htrack).trans hold.press, hold.stage_congr htrack rfl rfl, hold.repeats,
        fun _ => rfl⟩
    between := fun hup => by
      have hold := h.between ((congrArg Track.down htrack).symm.trans hup)
      exact ⟨hold.internal, hold.repeats, fun h => absurd rfl h⟩ }

/-- How long a press has been held is reported, and what timer waits for it next. -/
theorem UnderWay.next (h : UnderWay t b) (howner : b.internalTimers[n]? = some owner) :
    ∃ time timers, owner = b.down ∧
      internalTimer { b with internalTimers := b.internalTimers.eraseIdx n } owner =
        record { record b (.timer .internal b.down) with
          multipleState := 0, tapCount := 0, multipleTimers := [], internalTimers := timers, time := time }
          (.detected b.down time) ∧
      (t.timer .internal b.down).detected time =
        { t with cause := some b.down, expired := t.expired + 1, series := [], holds := time :: t.holds } ∧
      Stage b.down time (t.expired + 1) (time :: t.holds) timers ∧
      (t.level = b.down → t.down = true → (t.timer .internal b.down).Fits (.detected b.down time)) := by
  have hreport : ∀ b' : ButtonsTask, ∀ time, b'.down = b.down →
      buttonDetected b' (b'.oldInputState &&& b'.performInputLevelCheck) time = record b' (.detected b.down time) := by
    intro b' time hb'
    rw [← hb']
    exact buttonDetected_of_ne fun h0 => h.down (hb'.symm.trans h0)
  rcases h.stage with ⟨htime, hexpired, hholds, htimers⟩ | ⟨htime, hexpired, hholds, htimers⟩ |
    ⟨htime, hexpired, hholds, htimers⟩ | ⟨-, -, -, htimers⟩
  · obtain ⟨rfl, herase⟩ := mem_singleton_of_getElem htimers howner
    refine ⟨.long, [b.down], rfl, ?_, rfl, .inr (.inl ⟨rfl, by rw [hexpired], by rw [hholds], rfl⟩), ?_⟩
    · rw [internalTimer, herase]
      simp only [record, htime]
      exact hreport _ _ rfl
    · exact fun hlevel hup => ⟨rfl, hup, h.press, hlevel, congrArg (· + 1) hexpired, hholds⟩
  · obtain ⟨rfl, herase⟩ := mem_singleton_of_getElem htimers howner
    refine ⟨.veryLong, [b.down], rfl, ?_, rfl, .inr (.inr (.inl ⟨rfl, by rw [hexpired], by rw [hholds], rfl⟩)), ?_⟩
    · rw [internalTimer, herase]
      simp only [record, htime]
      exact hreport _ _ rfl
    · exact fun hlevel hup => ⟨rfl, hup, h.press, hlevel, congrArg (· + 1) hexpired, hholds⟩
  · obtain ⟨rfl, herase⟩ := mem_singleton_of_getElem htimers howner
    refine ⟨.veryVeryLong, [], rfl, ?_, rfl, .inr (.inr (.inr ⟨rfl, by rw [hexpired], by rw [hholds], rfl⟩)), ?_⟩
    · rw [internalTimer, herase]
      simp only [record, htime]
      exact hreport _ _ rfl
    · exact fun hlevel hup => ⟨rfl, hup, h.press, hlevel, congrArg (· + 1) hexpired, hholds⟩
  · rw [htimers] at howner
    exact absurd howner nofun

/-- The timer of a held press says how long it is held by now. -/
theorem Sound.internalTimer (h : Sound b) (howner : b.internalTimers[n]? = some owner) :
    Sound (internalTimer { b with internalTimers := b.internalTimers.eraseIdx n } owner) := by
  have hup : b.track.down = true := by
    by_contra hup
    rw [(h.between (Bool.not_eq_true _ ▸ hup)).internal] at howner
    exact absurd howner nofun
  have hway := h.underWay hup
  obtain ⟨time, timers, rfl, heq, hnext, hstage, hfits⟩ := hway.next howner
  have htrack := (record_track { record b (.timer .internal b.down) with
      multipleState := 0, tapCount := 0, multipleTimers := [], internalTimers := timers, time := time }
      (.detected b.down time)).trans ((congrArg (Track.detected · time) (timer_track _)).trans hnext)
  rw [heq]
  exact {
    classifies := record_classifies.mpr ⟨record_classifies.mpr ⟨h.classifies, trivial⟩,
      timer_track (b := b) _ ▸ hfits h.level hup⟩
    level := (congrArg Track.level htrack).trans h.level
    counts := Counts.none rfl (congrArg Track.series htrack) rfl
    underWay := fun _ => {
      down := hway.down
      press := (congrArg Track.press htrack).trans hway.press
      stage := by
        rw [htrack]
        exact hstage
      repeats := hway.repeats
      uncounted := fun _ => rfl }
    between := fun h => absurd (((congrArg Track.down htrack).trans hup).symm.trans h) nofun }

theorem Sound.repeatTimer (h : Sound b) (howner : b.repeatTimers[n]? = some owner) :
    Sound (repeatTimer { b with repeatTimers := b.repeatTimers.eraseIdx n } owner) := by
  have hup : b.track.down = true := by
    by_contra hup
    rw [(h.between (Bool.not_eq_true _ ▸ hup)).repeats] at howner
    exact absurd howner nofun
  have hway := h.underWay hup
  obtain ⟨rfl, herase⟩ := mem_singleton_of_getElem hway.repeats howner
  have heq : Buttons.repeatTimer { b with repeatTimers := b.repeatTimers.eraseIdx n } b.down =
      record { record b (.timer .repeat b.down) with repeatTimers := [b.down] } (.detected b.down .repeat) := by
    rw [Buttons.repeatTimer, herase]
    exact buttonDetected_of_ne hway.down
  have htrack : (record (record b (.timer .repeat b.down)) (.detected b.down .repeat)).track =
      { b.track with cause := some b.down } :=
    (record_track ..).trans (congrArg (Track.detected · .repeat) (timer_track _))
  rw [heq]
  exact {
    classifies := record_classifies.mpr ⟨record_classifies.mpr ⟨h.classifies, trivial⟩,
      timer_track (b := b) _ ▸ ⟨rfl, hup, hway.press⟩⟩
    level := (congrArg Track.level htrack).trans h.level
    counts := h.counts.congr htrack rfl rfl
    underWay := fun _ => {
      down := hway.down
      press := (congrArg Track.press htrack).trans hway.press
      stage := hway.stage_congr htrack rfl rfl
      repeats := rfl
      uncounted := hway.uncounted }
    between := fun h => absurd (((congrArg Track.down htrack).trans hup).symm.trans h) nofun }

theorem Sound.step (h : Sound b) {b' : ButtonsTask} (hok : Admits b e) (hstep : step b e = some b') : Sound b' := by
  rcases step_cases hstep with
    ⟨input, rfl, rfl⟩ | ⟨n, owner, -, howner, rfl⟩ | ⟨n, owner, -, howner, rfl⟩ | ⟨n, owner, -, howner, rfl⟩
  · exact h.checkDetection hok
  · exact h.multipleTimer howner
  · exact h.internalTimer howner
  · exact h.repeatTimer howner

/-! ### Runs -/

/-- No run leaves a timer of a held press waiting while all inputs are up. In a run whose steps are all admitted, every
event is borne out by the presses. -/
theorem classifies_of_admits (edge level : Mask) (es : List Event) (b : ButtonsTask)
    (hrun : run step (initial edge level) es = some b) :
    b.Released ∧ (RunMeets step Admits (initial edge level) es → b.Classifies) := by
  constructor
  · have hquiet : Quiet b :=
      run_keeps (fun _ _ _ hold hstep => hold.step hstep) (quiet_initial edge level) hrun
    exact fun hdown => (hquiet.idle hdown).2
  · intro hmeets
    have hsound : Sound b :=
      run_invariant (fun _ _ _ hold hok hstep => hold.step hok hstep) (sound_initial edge level) hmeets hrun
    exact hsound.classifies

/-- Two buttons pressed together twice, then one held and let go. -/
theorem classifies_of_admits_pressed : ∃ b, run step (initial 0 3)
    [.input 1, .input 3, .input 0, .input 3, .input 1, .input 0, .multiple 0, .input 2, .internal 0, .repeat 0,
      .input 0] = some b ∧ b.Released ∧ b.Classifies := by
  have hruns : ((run step (initial 0 3) [.input 1, .input 3, .input 0, .input 3, .input 1, .input 0, .multiple 0,
      .input 2, .internal 0, .repeat 0, .input 0]).any fun _ => true) = true := by decide
  obtain ⟨b, hb, -⟩ := (any_eq_true _ _).mp hruns
  obtain ⟨hreleased, hclassifies⟩ := classifies_of_admits 0 3 _ b hb
  exact ⟨b, hb, hreleased, hclassifies (by decide)⟩

/-- One button is pressed, then another before the timer of the first press is delivered: the button manager is told of
a double press of the second. -/
theorem not_alwaysClassifies : ¬AlwaysClassifies := by
  intro halways
  have hruns : (run step (initial 0 3) [.input 1, .input 0, .input 2, .input 0, .multiple 0]).any
      fun b => decide (¬b.Classifies) := by decide
  obtain ⟨b, hb, h⟩ := (any_eq_true _ _).mp hruns
  exact of_decide_eq_true h (halways 0 3 _ b hb).1

end Cbps.SinkApp.Buttons
