import Cbps.Lib.Smoothing
import Cbps.Power.Charger
import Mathlib.Data.List.Basic
import Mathlib.Logic.Function.Basic

/-!
# Monitoring the battery

The monitor of the power library: it asks the ADC for the reference, the thermistor, the battery and the charger voltage,
each after its own period, converts what comes back into millivolts, smooths the voltage of the battery, and tells the
client which level each value has. The library is initialised when each of the four inputs has been read, or has no period.

The queue of the library's messages, the readings the ADC is asked for and what the client gets are part of the state. A
step is `none` where the code panics, divides by zero or sends a message that nobody has filled in. The charger part is in
`Cbps.Power.Charger`; here it is the state that it leaves.
-/

namespace Cbps.Power

/-- The inputs, in the order in which a result is compared with them; each has a bit of `power_init_mask`. -/
inductive Input
  | vref
  | vthm
  | vbat
  | vchg
deriving DecidableEq, Repr

def Input.all : List Input := [.vref, .vthm, .vbat, .vchg]

theorem Input.mem_all (i : Input) : i ∈ Input.all := by
  cases i <;> decide

/-- `power_adc`. -/
structure Adc where
  source : ℕ
  periodChg : ℕ
  periodNoChg : ℕ
deriving DecidableEq, Repr

/-- `power_vbat_limit`. -/
structure VbatLimit where
  notifyPeriod : ℕ
  limit : ℕ
deriving DecidableEq, Repr

/-- `power_config`, and what the platform is: whether it is a `BC5MM`, the last source on the ADC of the reference, and
`VmReadVrefConstant`. -/
structure PowerConfig where
  adc : Input → Adc
  vbatLimits : Vector VbatLimit 6
  vthmLimits : Vector ℕ 7
  vthmDelay : ℕ
  rawLimits : Bool
  drivePio : Bool
  vchgLimit : ℕ
  bc5mm : Bool
  adcselVref : ℕ
  vrefConstant : ℕ

/-- The messages of the library to itself, other than the charger's. -/
inductive Request
  | vrefReq
  | vbatReq
  | vchgReq
  | vthmReq
  | vbatNotifyReq
  | vthmSetup
deriving DecidableEq, Repr

/-- `voltage_reading`. -/
structure Reading where
  voltage : ℕ
  level : ℕ
deriving DecidableEq, Repr

/-- What the client gets; the confirmation is the successful one. -/
inductive ClientMessage
  | initCfm (vthm vbat vchg : Reading) (state : ChargerState)
  | batteryVoltageInd (vbat : Reading)
  | batteryTemperatureInd (vthm : Reading)
  | chargerVoltageInd (vchg : Reading)
deriving DecidableEq, Repr

/-- `power_type`, the queue with the delays of its messages, the sources that the ADC has been asked for, the pin of the
thermistor and the messages sent to the client. -/
structure PowerType where
  ready : Input → Bool
  cfmSent : Bool
  chgState : ChargerState
  vref : ℕ
  vbat : ℕ
  vbatTrend : ℤ
  vchg : ℕ
  vthm : ℕ
  queue : List (Request × ℕ)
  asked : List ℕ
  thermistorDriven : Bool
  sent : List ClientMessage
  /-- Recorded only: the inputs that have been read or found without a period. -/
  taken : Input → Bool
  /-- Recorded only: the millivolts of the battery since the average was last restarted. -/
  averaged : List ℕ

def defaultVoltage : ℕ := 0xFFFF

def u16 (x : ℤ) : ℕ := (x % 65536).toNat

def i16 (x : ℤ) : ℤ := (x + 32768) % 65536 - 32768

namespace PowerType

variable (config : PowerConfig) (s : PowerType)

/-! ### Levels -/

theorem findIdx_take_lt {α : Type*} (p : α → Bool) (as : List α) (n : ℕ) : (as.take n).findIdx p < n + 1 :=
  Nat.lt_succ_of_le (Nat.le_trans List.findIdx_le_length (List.length_take_le n as))

/-- The level of the battery; there is a region behind the last of five limits. -/
def powerBatteryGetVoltageLevel : Fin 6 :=
  ⟨(config.vbatLimits.toList.take 5).findIdx fun l => l.limit = 0xFF ∨ s.vbat < l.limit * 0x14, findIdx_take_lt _ _ 5⟩

def powerBatteryGetTemperatureLevel : ℕ :=
  config.vthmLimits.toList.findIdx fun limit => limit = 0xFFFF ∨ s.vthm < limit

def powerChargerGetVoltageLevel : ℕ := if s.vchg ≥ config.vchgLimit then 1 else 0

/-- The value and its level; nothing is filled in before the first reading. -/
def powerBatteryGetVoltage : Option Reading :=
  if s.ready .vbat then some ⟨s.vbat, s.powerBatteryGetVoltageLevel config⟩ else none

def powerBatteryGetTemperature : Option Reading :=
  if s.ready .vthm then some ⟨s.vthm, s.powerBatteryGetTemperatureLevel config⟩ else none

def powerChargerGetVoltage : Option Reading :=
  if s.ready .vchg then some ⟨s.vchg, s.powerChargerGetVoltageLevel config⟩ else none

/-! ### The queue -/

/-- `MessageSendLater` to the library itself. -/
def post (r : Request) (delay : ℕ) : PowerType := { s with queue := s.queue ++ [(r, delay)] }

def setReady (i : Input) : PowerType := { s with ready := Function.update s.ready i true }

def powerMonitorStart : PowerType :=
  (((s.post .vrefReq 0).post .vthmSetup 0).post .vchgReq 0).post .vbatReq 0

def powerMonitorRestart : PowerType :=
  powerMonitorStart { s with queue := s.queue.filter fun m => m.1 = .vbatNotifyReq }

def powerMonitorSetThermistorPio (drive : Bool) : PowerType :=
  if config.drivePio then { s with thermistorDriven := drive } else s

/-! ### The readings -/

/-- The next indication without a change; its period counts in units of ten seconds. -/
def powerBatteryQueueVoltageInd (level : Fin 6) : PowerType :=
  let notifyPeriod := config.vbatLimits[level].notifyPeriod
  let s := { s with queue := s.queue.eraseP fun m => m.1 = .vbatNotifyReq }
  if notifyPeriod ≠ 0 then s.post .vbatNotifyReq (1000 * (10 * notifyPeriod)) else s

def powerBatterySendVoltageInd : Option PowerType := do
  let vbat ← s.powerBatteryGetVoltage config
  let s := s.powerBatteryQueueVoltageInd config (s.powerBatteryGetVoltageLevel config)
  pure { s with sent := s.sent ++ [.batteryVoltageInd vbat] }

def powerBatterySendTemperatureInd : Option PowerType := do
  let vthm ← s.powerBatteryGetTemperature config
  pure { s with sent := s.sent ++ [.batteryTemperatureInd vthm] }

/-- The average is restarted by the first reading, and while the voltage is none of a real battery. -/
def restarts : Bool := s.vbat = defaultVoltage ∨ s.vbat ≤ 100

def powerBatterySmoothVoltageReading (reading : ℕ) : PowerType :=
  if s.restarts then { s with vbat := reading, vbatTrend := 0 }
  else
    let old := i16 s.vbat
    let vbat := u16 ((9 * old + (s.vbatTrend + reading) + 5).tdiv 10)
    { s with vbat := vbat, vbatTrend := i16 ((s.vbatTrend + i16 (vbat - old)).tdiv 2) }

def powerBatteryHandleVoltageReading (reading : ℕ) : Option PowerType :=
  let s' := s.powerBatterySmoothVoltageReading reading
  if s.ready .vbat then
    if s'.powerBatteryGetVoltageLevel config ≠ s.powerBatteryGetVoltageLevel config then
      s'.powerBatterySendVoltageInd config
    else some s'
  else some ((s'.powerBatteryQueueVoltageInd config (s'.powerBatteryGetVoltageLevel config)).setReady .vbat)

def powerBatteryHandleTemperatureReading (reading : ℕ) : Option PowerType :=
  let s' := { s with vthm := reading }
  if s.ready .vthm then
    if s'.powerBatteryGetTemperatureLevel config ≠ s.powerBatteryGetTemperatureLevel config then
      s'.powerBatterySendTemperatureInd config
    else some s'
  else some (s'.setReady .vthm)

def powerChargerHandleVoltageReading (reading : ℕ) : PowerType :=
  let s' := { s with vchg := reading }
  if s.ready .vchg then
    if s.powerChargerGetVoltageLevel config ≠ s'.powerChargerGetVoltageLevel config then
      { s' with sent := s'.sent ++ [.chargerVoltageInd ⟨reading, s'.powerChargerGetVoltageLevel config⟩] }
    else s'
  else s'.setReady .vchg

/-! ### The messages -/

/-- The confirmation; a charger that was connected before has the monitoring restarted. -/
def powerInitComplete : Option PowerType := do
  let vchg ← s.powerChargerGetVoltage config
  let vbat ← s.powerBatteryGetVoltage config
  let vthm ← s.powerBatteryGetTemperature config
  let s := { s with cfmSent := true }
  let s := if s.chgState ≠ .disconnected then s.powerMonitorRestart else s
  pure { s with sent := s.sent ++ [.initCfm vthm vbat vchg s.chgState] }

/-- The period of an input, which depends on the charger. -/
def period (i : Input) : ℕ :=
  if s.chgState = .disconnected then (config.adc i).periodNoChg else (config.adc i).periodChg

/-- The flag says whether the message is dealt with; `id` is queued for the next reading. `accepted` is what `AdcRequest`
returns. -/
def powerMonitorReadAdcNow (id : Request) (i : Input) (accepted : Bool) : PowerType × Bool :=
  let period := 1000 * s.period config i
  if period = 0 then ({ s.setReady i with taken := Function.update s.taken i true }, true)
  else if i = .vref ∨ s.ready .vref then
    if accepted then ({ s with asked := s.asked ++ [(config.adc i).source] }.post id period, true) else (s, false)
  else (s, false)

/-- The conversion of a reading into millivolts. -/
def millivolts (source reading : ℕ) : Option ℕ :=
  if config.bc5mm ∨ source ≤ config.adcselVref then
    if s.vref = 0 then none else some (config.vrefConstant * reading / s.vref)
  else some (reading * 1350 / 1024)

/-- What is read next for a request, and what is tried again if it cannot be read now. -/
def read (again id : Request) (i : Input) (accepted : Bool) : PowerType :=
  let (s, done) := s.powerMonitorReadAdcNow config id i accepted
  if done then s else s.post again 0

/-- `powerMonitorHandler` for a message of the library. -/
def handleRequest (accepted : Bool) : Request → Option PowerType
  | .vrefReq => some (s.read config .vrefReq .vrefReq .vref accepted)
  | .vbatReq => some (s.read config .vbatReq .vbatReq .vbat accepted)
  | .vchgReq => some (s.read config .vchgReq .vchgReq .vchg accepted)
  | .vthmSetup => some ((s.powerMonitorSetThermistorPio config true).post .vthmReq config.vthmDelay)
  | .vthmReq => some (s.read config .vthmReq .vthmSetup .vthm accepted)
  | .vbatNotifyReq => s.powerBatterySendVoltageInd config

/-- Whether the mask is `POWER_INIT_COMPLETE`. -/
def isComplete : Bool := Input.all.all s.ready && !s.cfmSent

/-- A result is that of the first input with its source. What is stored of the millivolts has sixteen bits. -/
def handleReading (source reading : ℕ) : Option PowerType :=
  if source = (config.adc .vref).source then some ({ s with vref := reading }.setReady .vref)
  else do
    let res ← s.millivolts config source reading
    if source = (config.adc .vthm).source then
      (s.powerMonitorSetThermistorPio config false).powerBatteryHandleTemperatureReading config
        (if config.rawLimits then reading else u16 res)
    else if source = (config.adc .vbat).source then
      let s' ← s.powerBatteryHandleVoltageReading config (u16 res)
      pure { s' with averaged := if s.restarts then [res] else s.averaged ++ [res] }
    else if source = (config.adc .vchg).source then some (s.powerChargerHandleVoltageReading config (u16 res))
    else none

/-- `powerMonitorHandler` for `MESSAGE_ADC_RESULT`. -/
def handleResult (source reading : ℕ) : Option PowerType := do
  let s' ← s.handleReading config source reading
  let s' := { s' with taken := fun i => s'.taken i || decide ((config.adc i).source = source) }
  if s'.isComplete then s'.powerInitComplete config else pure s'

/-- What `powerChargerHandleMonitorReq` does here: a charger that is connected or disconnected has the monitoring restarted
once the library is initialised. -/
def chargerChanged (state : ChargerState) : PowerType :=
  let s' := { s with chgState := state }
  if state ≠ s.chgState ∧ (s.chgState = .disconnected ∨ state = .disconnected) ∧ s.cfmSent then s'.powerMonitorRestart
  else s'

end PowerType

/-! ### Runs -/

/-- The state after `PowerInit`. -/
def PowerType.initial : PowerType :=
  .powerMonitorStart {
    ready := fun _ => false, cfmSent := false, chgState := .disconnected, vref := defaultVoltage, vbat := defaultVoltage,
    vbatTrend := 0, vchg := defaultVoltage, vthm := defaultVoltage, queue := [], asked := [], thermistorDriven := false,
    sent := [], taken := fun _ => false, averaged := [] }

/-- What happens: a message of the library is delivered, with the answer of the ADC to a request, the ADC has a result, and
the charger part finds a state. -/
inductive MonitorEvent
  | deliver (r : Request) (accepted : Bool)
  | result (source reading : ℕ)
  | charger (state : ChargerState)
deriving DecidableEq, Repr

/-- One message is taken out of the queue, and a result is one that the ADC was asked for. -/
def PowerType.step (config : PowerConfig) (s : PowerType) : MonitorEvent → Option PowerType
  | .deliver r accepted =>
    PowerType.handleRequest config { s with queue := s.queue.eraseP fun m => m.1 = r } accepted r
  | .result source reading => PowerType.handleResult config { s with asked := s.asked.erase source } source reading
  | .charger state => some (s.chargerChanged state)

end Cbps.Power
