import Cbps.Lib.Runs
import Cbps.Lib.Monitor
import Mathlib.Algebra.Ring.Nat

/-!
# Buttons

How the application makes presses of the changes of its inputs, and the timers that it shares among them. The inputs
come translated: a mask with a bit for each button that is down. The messages that a timer leaves in the queue carry
nothing in the source; here each stands as the mask of the press it was sent for, and a handler does not look at it
beyond writing it down. The log is what the button manager is told, among the inputs and the timers it is told after.
-/

namespace Cbps.SinkApp.Buttons

/-- A mask of inputs. -/
abbrev Mask := BitVec 32

/-- `ButtonsTime_t`. -/
inductive Time
  | invalid
  | short
  | long
  | veryLong
  | double
  | repeat
  | lowToHigh
  | highToLow
  | shortSingle
  | longRelease
  | veryLongRelease
  | veryVeryLong
  | veryVeryLongRelease
  | triple
  deriving DecidableEq, Repr

/-- `ButtonsIntMsg_t`, the timers. -/
inductive Timer
  | multiple
  | internal
  | repeat
  deriving DecidableEq, Repr

/-- What happens: the level detected inputs are now those of a mask, a timer sent for the press of a mask is delivered,
the button manager is told. -/
inductive Entry
  | level (new : Mask)
  | timer (id : Timer) (owner : Mask)
  | detected (mask : Mask) (time : Time)
  deriving DecidableEq, Repr

/-- `ButtonsTaskData`, with the messages waiting. -/
structure ButtonsTask where
  performInputEdgeCheck : Mask
  performInputLevelCheck : Mask
  oldInputState : Mask
  multipleState : Mask
  tapCount : ℕ
  time : Time
  multipleTimers : List Mask
  internalTimers : List Mask
  repeatTimers : List Mask
  log : List Entry
  deriving DecidableEq, Repr

/-- `DOUBLE_PRESS` and `TRIPLE_PRESS`. -/
def doublePress : ℕ := 2
def triplePress : ℕ := 3

/-- The counter has eight bits. -/
def tapCountNext (tapCount : ℕ) : ℕ := (tapCount + 1) % 256

variable (b : ButtonsTask) (old new mask owner : Mask)

def record (e : Entry) : ButtonsTask := { b with log := b.log ++ [e] }

def whichButtonChanged : Mask := new ^^^ old

def wasButtonPressed : Prop := whichButtonChanged old new &&& new ≠ 0

instance : Decidable (wasButtonPressed old new) := inferInstanceAs (Decidable (_ ≠ _))

/-- `ButtonsButtonDetected`. -/
def buttonDetected (time : Time) : ButtonsTask :=
  if mask = 0 then { b with repeatTimers := [] } else record b (.detected mask time)

/-- `ButtonsLevelDetect`, of a press: the timers are those of the new press. -/
def levelPressed : ButtonsTask :=
  { b with internalTimers := [new], repeatTimers := [new], time := .short }

/-- `ButtonsLevelDetect`, of a release, as far as it counts the presses of one mask. -/
def countTap : ButtonsTask :=
  if b.tapCount ≠ 0 ∧ old = b.multipleState then
    let b := { b with tapCount := tapCountNext b.tapCount }
    if b.tapCount = doublePress then { b with time := .double }
    else if b.tapCount = triplePress then
      { buttonDetected { b with time := .triple } old .triple with
        multipleState := 0, tapCount := 0, multipleTimers := [] }
    else b
  else b

/-- `ButtonsLevelDetect`, of a release, as far as it reports it. A short press starts the timer of multiple presses, and
leaves the timers that wait. -/
def reportRelease : ButtonsTask :=
  match b.time with
  | .short =>
    let b := buttonDetected b old .short
    { b with
      multipleState := old, tapCount := tapCountNext b.tapCount, multipleTimers := b.multipleTimers ++ [old] }
  | .long => buttonDetected b old .longRelease
  | .veryLong => buttonDetected b old .veryLongRelease
  | .veryVeryLong => buttonDetected b old .veryVeryLongRelease
  | _ => b

def cancelHeld : ButtonsTask :=
  if b.time ≠ .invalid then { b with internalTimers := [], repeatTimers := [] } else b

def levelReleased : ButtonsTask :=
  let b := cancelHeld (reportRelease (countTap b old) old)
  if new = 0 then { b with time := .invalid } else b

/-- `ButtonsLevelDetect`. -/
def levelDetect (input : Mask) : ButtonsTask :=
  let new := input &&& b.performInputLevelCheck
  let old := b.oldInputState &&& b.performInputLevelCheck
  if wasButtonPressed old new then levelPressed b new
  else if old ≠ new ∧ old ≠ 0 then levelReleased b old new
  else b

/-- `ButtonsEdgeDetect`. -/
def edgeDetect (input : Mask) : ButtonsTask :=
  let new := input &&& b.performInputEdgeCheck
  let old := b.oldInputState &&& b.performInputEdgeCheck
  let changed := whichButtonChanged old new
  if changed = 0 then b
  else if new &&& changed ≠ 0 then buttonDetected b changed .lowToHigh
  else buttonDetected b changed .highToLow

/-- `ButtonsCheckDetection`, with the inputs translated. -/
def checkDetection (input : Mask) : ButtonsTask :=
  let b := record b (.level (input &&& b.performInputLevelCheck))
  let b :=
    if b.performInputEdgeCheck &&& input ≠ 0 ∨ b.performInputEdgeCheck &&& b.oldInputState ≠ 0 then
      edgeDetect b input
    else b
  let b :=
    if b.performInputLevelCheck &&& input ≠ 0 ∨ b.performInputLevelCheck &&& b.oldInputState ≠ 0 then
      levelDetect b input
    else b
  { b with oldInputState := input }

/-- `ButtonsMessageHandler`, of `B_MULTIPLE_TIMER`. -/
def multipleTimer : ButtonsTask :=
  let b := record b (.timer .multiple owner)
  let mask := b.multipleState &&& b.performInputLevelCheck
  let b := buttonDetected b mask (if b.tapCount = doublePress then .double else .shortSingle)
  { b with tapCount := 0, multipleState := 0 }

/-- `ButtonsMessageHandler`, of `B_INTERNAL_TIMER`. -/
def internalTimer : ButtonsTask :=
  let b := record b (.timer .internal owner)
  let b := { b with multipleState := 0, tapCount := 0, multipleTimers := [] }
  let b :=
    match b.time with
    | .veryLong => { b with time := .veryVeryLong }
    | .long => { b with internalTimers := b.internalTimers ++ [owner], time := .veryLong }
    | _ => { b with internalTimers := b.internalTimers ++ [owner], time := .long }
  buttonDetected b (b.oldInputState &&& b.performInputLevelCheck) b.time

/-- `ButtonsMessageHandler`, of `B_REPEAT_TIMER`. -/
def repeatTimer : ButtonsTask :=
  let b := record b (.timer .repeat owner)
  let b := { b with repeatTimers := b.repeatTimers ++ [owner] }
  buttonDetected b (b.oldInputState &&& b.performInputLevelCheck) .repeat

/-- A change of the inputs, or the delivery of one of the messages waiting. -/
inductive Event
  | input (input : Mask)
  | multiple (n : ℕ)
  | internal (n : ℕ)
  | repeat (n : ℕ)
  deriving DecidableEq, Repr

def step : Event → Option ButtonsTask
  | .input input => some (checkDetection b input)
  | .multiple n => b.multipleTimers[n]?.map (multipleTimer { b with multipleTimers := b.multipleTimers.eraseIdx n })
  | .internal n => b.internalTimers[n]?.map (internalTimer { b with internalTimers := b.internalTimers.eraseIdx n })
  | .repeat n => b.repeatTimers[n]?.map (repeatTimer { b with repeatTimers := b.repeatTimers.eraseIdx n })

/-- Before the first look at the inputs, with the masks of the configuration. -/
def initial (edge level : Mask) : ButtonsTask := ⟨edge, level, 0, 0, 0, .invalid, [], [], [], []⟩

end Cbps.SinkApp.Buttons
