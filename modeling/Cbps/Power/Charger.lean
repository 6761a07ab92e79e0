import Mathlib.Algebra.Ring.Nat
import Mathlib.Data.Int.Notation
import Mathlib.Data.Nat.Notation
import Mathlib.Logic.Basic
import Cbps.Lib.Runs

/-!
# The battery charger

The charger part of the power library: the state it derives from the hardware, the boost, the regulation of the current
by the temperature of the power management unit, and the monitor request that it sends to itself. The hardware, the
message queue and the client are part of the state: the current and the boost that were set last, the monitor requests
pending, and the indications sent. The charger is read twice in one monitor event, so an event carries two readings.
-/

namespace Cbps.Power

/-- `charger_status`; `other` is any value that is none of these. -/
inductive ChargerStatus
  | trickleCharge
  | fastCharge
  | disabledError
  | standby
  | noPower
  | other
  deriving DecidableEq, Repr

/-- `power_charger_state`. The order counts. -/
inductive ChargerState
  | disconnected
  | disabled
  | trickle
  | justConnected
  | fast
  | boostInternal
  | boostExternal
  | complete
  deriving DecidableEq, Repr

/-- `power_boost_enable`. -/
inductive BoostEnable
  | disabled
  | internalEnabled
  | externalEnabled
  deriving DecidableEq, Repr

/-- `power_chg_cycle`. -/
inductive ChgCycle
  | incomplete
  | complete
  | notified
  deriving DecidableEq, Repr

/-- `power_pmu_temp_mon_config`. -/
structure PmuConfig where
  minChargeI : ℕ
  maxChargeI : ℕ
  chargerIStep : ℕ
  noIncrITemp : ℕ
  decrITemp : ℕ
  monitorPeriodActive : ℕ
  monitorPeriodIdle : ℕ
  monitorPeriodNopwr : ℕ
  deriving DecidableEq, Repr

/-- The fields are 8 bits wide, and the least current is not more than the largest. -/
structure PmuConfig.Valid (c : PmuConfig) : Prop where
  order : c.minChargeI ≤ c.maxChargeI
  max : c.maxChargeI ≤ 255
  step : c.chargerIStep ≤ 255

/-- What `VmGetTemperatureBySensor` gives for a sensor that does not exist. -/
def invalidSensor : ℤ := -32766

/-- What it gives for a temperature that could not be read. -/
def invalidTemperature : ℤ := -32767

/-- A re-enabling of the charger by the library: whether the application has it enabled, and the state seen. -/
structure Enabling where
  appEnabled : Bool
  state : ChargerState
  deriving DecidableEq, Repr

/-- The library's record, and around it the hardware, the queue, the client and the application. -/
structure Charger where
  chgState : ChargerState
  chgBoost : BoostEnable
  chgCycleComplete : ChgCycle
  initCfmSent : Bool
  pmuMonEnabled : Bool
  chargerITarget : ℕ
  chargerISetting : ℕ
  /-- The current given to the hardware last. -/
  current : Option ℕ
  /-- Whether the hardware is enabled, and its boosts. -/
  enabled : Bool
  internalBoost : Bool
  externalBoost : Bool
  /-- Monitor requests in the queue. -/
  pending : ℕ
  indications : List ChargerState
  /-- The last enable or disable of the application. -/
  appEnabled : Bool
  enablings : List Enabling
  /-- The changes of the state since the library was initialised. -/
  changes : List ChargerState
  deriving DecidableEq, Repr

/-- The current is regulated if a period has been set. -/
def PmuConfig.monitored (c : PmuConfig) : Bool :=
  decide (c.monitorPeriodActive ≠ 0 ∨ c.monitorPeriodIdle ≠ 0 ∨ c.monitorPeriodNopwr ≠ 0)

/-- The record as `PowerInit` sets it up. -/
def Charger.initial (pmuMonEnabled : Bool) : Charger where
  chgState := .disconnected
  chgBoost := .disabled
  chgCycleComplete := .incomplete
  initCfmSent := false
  pmuMonEnabled := pmuMonEnabled
  chargerITarget := 0
  chargerISetting := 0
  current := none
  enabled := true
  internalBoost := false
  externalBoost := false
  pending := 0
  indications := []
  appEnabled := true
  enablings := []
  changes := []

/-- The readings of one monitor event: the status for the state, then the status and the temperature for the current. -/
structure Readings where
  status : ChargerStatus
  managed : ChargerStatus
  temperature : ℤ
  deriving DecidableEq, Repr

/-! ### The current -/

def u8 (n : ℕ) : ℕ := n % 2 ^ 8

/-- The status at which the battery is being charged. -/
def ChargerStatus.charging : ChargerStatus → Bool
  | .disabledError | .standby | .noPower => false
  | _ => true

/-- The current that `powerChargerReadingMgr` finds. -/
def newChargerCurrent (c : PmuConfig) (setting target : ℕ) (status : ChargerStatus) (temperature : ℤ) : ℕ :=
  let i := u8 setting
  let i := if i > target then u8 target else i
  if status.charging then
    if temperature = invalidSensor then u8 target
    else if temperature = invalidTemperature then c.minChargeI
    else if i > target ∨ temperature ≥ c.decrITemp then
      let i := if i ≥ c.chargerIStep then i - c.chargerIStep else c.minChargeI
      if i < c.minChargeI then c.minChargeI else i
    else if i < target ∧ temperature < c.noIncrITemp then
      let i := u8 (i + c.chargerIStep)
      let i := if i > target then u8 target else i
      if i > c.maxChargeI then c.maxChargeI else i
    else i
  else c.minChargeI

/-- The period to the next monitor event. -/
def monitorPeriod (c : PmuConfig) : ChargerStatus → ℕ
  | .disabledError | .standby => c.monitorPeriodIdle
  | .noPower => c.monitorPeriodNopwr
  | _ => c.monitorPeriodActive

variable (c : PmuConfig)

/-- `powerChargerReadingMgr`, without the period it returns. -/
def Charger.powerChargerReadingMgr (p : Charger) (r : Readings) : Charger :=
  let new := newChargerCurrent c p.chargerISetting p.chargerITarget r.managed r.temperature
  if new ≠ p.chargerISetting then { p with chargerISetting := new, current := some new } else p

/-- `PowerChargerSetCurrent`. -/
def Charger.powerChargerSetCurrent (p : Charger) (current : ℕ) : Charger :=
  if p.pmuMonEnabled then
    let p := { p with chargerITarget := u8 current }
    if u8 current < p.chargerISetting then { p with chargerISetting := u8 current, current := some (u8 current) } else p
  else { p with current := some (u8 current) }

/-! ### The state -/

namespace Charger

/-- `powerChargerGetState`. -/
def powerChargerGetState (p : Charger) : ChargerStatus → ChargerState
  | .trickleCharge => .trickle
  | .fastCharge => .fast
  | .disabledError => .disabled
  | .standby => .complete
  | .noPower => .disconnected
  | .other => p.chgState

/-- `powerChargerReset`: off, and on again if the recorded state is not the disabled one. `seen` is the new state. -/
def powerChargerReset (p : Charger) (seen : ChargerState) : Charger :=
  let p := { p with enabled := false }
  if p.chgState ≠ .disabled then { p with enabled := true, enablings := p.enablings ++ [⟨p.appEnabled, seen⟩] } else p

/-- `powerChargerDisableBoost`. The recorded state is still the old one. -/
def powerChargerDisableBoost (p : Charger) (seen : ChargerState) : Charger :=
  if p.chgState = .boostInternal then { p with internalBoost := false }.powerChargerReset seen
  else if p.chgState = .boostExternal then { p with externalBoost := false }
  else p

/-- A change that counts: those between the fast and the boost states do not. -/
def Changed (old new : ChargerState) : Prop :=
  old ≠ new ∧ (old.ctorIdx < ChargerState.fast.ctorIdx ∨ new.ctorIdx < ChargerState.fast.ctorIdx ∨ old = .complete ∨
    new = .complete)

instance (old new : ChargerState) : Decidable (Changed old new) := by
  unfold Changed
  infer_instance

/-- A change of the state: the boost is switched, and the new state recorded. -/
def change (p : Charger) (new : ChargerState) : Charger :=
  let new := if p.chgState = .disconnected then .justConnected else new
  if new = .fast then
    match p.chgBoost with
    | .internalEnabled =>
      { p with internalBoost := true, chgCycleComplete := .complete, chgState := .boostInternal }
    | .externalEnabled =>
      { p with externalBoost := true, chgCycleComplete := .complete, chgState := .boostExternal }
    | .disabled => { p.powerChargerDisableBoost new with chgCycleComplete := .complete, chgState := .fast }
  else { p.powerChargerDisableBoost new with chgCycleComplete := .complete, chgState := new }

/-- The state that an indication names: the new one after a change, the one read otherwise. -/
def handled (p : Charger) (status : ChargerStatus) : Charger × ChargerState :=
  let new := p.powerChargerGetState status
  if Changed p.chgState new then
    let p := p.change new
    ({ p with changes := if p.initCfmSent then p.changes ++ [p.chgState] else p.changes }, p.chgState)
  else (p, new)

/-- The indication, if one is due and the client has been told that the library is initialised. -/
def indicate (p : Charger) (state : ChargerState) : Charger :=
  if p.initCfmSent ∧ p.chgCycleComplete = .complete then
    { p with indications := p.indications ++ [state], chgCycleComplete := .notified }
  else p

/-- `powerChargerHandleMonitorReq`. -/
def powerChargerHandleMonitorReq (p : Charger) (r : Readings) : Charger :=
  let (p, new) := p.handled r.status
  let p := p.indicate new
  let p' := if p.pmuMonEnabled then p.powerChargerReadingMgr c r else p
  let period :=
    if p.pmuMonEnabled then monitorPeriod c r.managed else if p.chgState = .disconnected then 0 else 1000
  if period ≠ 0 then { p' with pending := p'.pending + 1 } else p'

end Charger

/-! ### Runs -/

/-- What happens: calls of the application, a monitor request that is delivered, and the end of the initialisation. -/
inductive Event
  | setCurrent (current : ℕ)
  | setBoost (boost : BoostEnable)
  | enable (enable : Bool)
  | monitor (r : Readings)
  | monitorReq (r : Readings)
  | initComplete
  deriving DecidableEq, Repr

/-- The readings of a monitor event. -/
def Event.readings : Event → Option Readings
  | .monitor r | .monitorReq r => some r
  | _ => none

def Charger.step (p : Charger) : Event → Option Charger
  | .setCurrent current => some (p.powerChargerSetCurrent current)
  | .setBoost boost => some { p with chgBoost := boost }
  | .enable enable => some { p with enabled := enable, appEnabled := enable }
  -- `MessageCancelFirst` takes one request out of the queue
  | .monitor r => some (Charger.powerChargerHandleMonitorReq c { p with pending := p.pending - 1 } r)
  | .monitorReq r =>
    if p.pending = 0 then none
    else some (Charger.powerChargerHandleMonitorReq c { p with pending := p.pending - 1 } r)
  | .initComplete => some { p with initCfmSent := true }

end Cbps.Power
