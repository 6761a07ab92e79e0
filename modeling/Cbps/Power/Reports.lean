import Cbps.Lib.Runs
import Cbps.Power.Monitor

/-!
# What the client is told

In every run of the monitor the client gets one confirmation once the four inputs have been read or found without a period,
the voltage of the battery is the smoothing of the exact readings and stays near their range, and after the confirmation
the level of each value that was reported last is the level that the value has.

The invariant `Kept` says so of a state; `Handled` is what a result leaves behind.
-/

namespace Cbps.Power

open List Option Function

open Lib

/-! ### The promise -/

/-- The level of an input in a message. -/
def ClientMessage.level : Input → ClientMessage → Option ℕ
  | .vthm, .initCfm vthm _ _ _ => some vthm.level
  | .vthm, .batteryTemperatureInd vthm => some vthm.level
  | .vbat, .initCfm _ vbat _ _ => some vbat.level
  | .vbat, .batteryVoltageInd vbat => some vbat.level
  | .vchg, .initCfm _ _ vchg _ => some vchg.level
  | .vchg, .chargerVoltageInd vchg => some vchg.level
  | _, _ => none

def ClientMessage.isInitCfm : ClientMessage → Bool
  | .initCfm .. => true
  | _ => false

/-- The level of an input that was reported last. -/
def reported (i : Input) (sent : List ClientMessage) : Option ℕ := (sent.filterMap (·.level i)).getLast?

namespace PowerType

variable (config : PowerConfig) (s : PowerType)

/-- The level of the current value. The reference has none. -/
def level : Input → ℕ
  | .vref => 0
  | .vthm => s.powerBatteryGetTemperatureLevel config
  | .vbat => s.powerBatteryGetVoltageLevel config
  | .vchg => s.powerChargerGetVoltageLevel config

/-- **The promise** for a state. -/
structure Reports : Prop where
  confirmed : s.sent.countP (·.isInitCfm) = if Input.all.all s.taken then 1 else 0
  exact : ∀ first rest, s.averaged = first :: rest →
    ((s.vbat : ℤ), s.vbatTrend) = average first rest
  near : ∀ lo hi : ℤ, s.averaged ≠ [] → (∀ reading ∈ s.averaged, lo ≤ reading ∧ reading ≤ hi) →
    lo - ((hi - lo) / 9 + 10) ≤ s.vbat ∧ s.vbat ≤ hi + ((hi - lo) / 9 + 10)
  reported : s.cfmSent = true → ∀ i, i ≠ .vref → reported i s.sent = some (s.level config i)

/-- A message is delivered when it is in the queue, and the ADC gives ten bits for a source that it was asked for. -/
def Allowed : MonitorEvent → Prop
  | .deliver r _ => r ∈ s.queue.map Prod.fst
  | .result source reading => source ∈ s.asked ∧ reading < 1024
  | .charger _ => True

/-- A request does not find the last input without a period. A result is converted with a reference that is not zero, and no
other input of the same source is still waiting; the millivolts of the battery fit their sixteen bits, and the average
fifteen. -/
def Admits : MonitorEvent → Prop
  | .deliver r _ => ∀ i ∈ Input.all, (r, i) ∈ [(Request.vrefReq, Input.vref), (.vthmReq, .vthm), (.vbatReq, .vbat), (.vchgReq, .vchg)] →
      s.period config i = 0 → s.ready i = true ∨ ∃ j ∈ Input.all, j ≠ i ∧ s.ready j = false
  | .result source reading =>
    (∀ i ∈ Input.all, ∀ j ∈ Input.all, i.ctorIdx < j.ctorIdx → (config.adc i).source = source → (config.adc j).source = source →
      s.ready j = true) ∧
    (source ≠ (config.adc .vref).source → s.millivolts config source reading ≠ none) ∧
    (source = (config.adc .vbat).source → ∀ mv ∈ s.millivolts config source reading,
      mv < 65536 ∧ (s.vbat = defaultVoltage ∨ s.vbat < 32768))
  | .charger _ => True

instance (e : MonitorEvent) : Decidable (s.Allowed e) := by
  cases e <;> unfold Allowed <;> infer_instance

instance (e : MonitorEvent) : Decidable (s.Admits config e) := by
  cases e <;> unfold Admits <;> infer_instance

end PowerType

/-- The promise for all runs. -/
def AlwaysReports : Prop :=
  ∀ config es, RunMeets (PowerType.step config) PowerType.Allowed .initial es →
    ∃ s, run (PowerType.step config) .initial es = some s ∧ s.Reports config

/-! ### The average -/

/-- The voltage and its trend are the smoothing of the readings. -/
structure Averaged (vbat : ℕ) (trend : ℤ) (readings : List ℕ) : Prop where
  empty : readings = [] → vbat = defaultVoltage
  exact : ∀ first rest, readings = first :: rest → ((vbat : ℤ), trend) = average first rest
  within : ∀ lo hi : ℤ, readings ≠ [] → (∀ reading ∈ readings, lo ≤ reading ∧ reading ≤ hi) → Within lo hi (vbat, trend)
  small : ∀ reading ∈ readings, reading < 65536
  trend_ge : -8000 ≤ trend
  trend_le : trend ≤ 8000

theorem averaged_initial : Averaged defaultVoltage 0 [] where
  empty := fun _ => rfl
  exact := fun _ _ h => absurd h (cons_ne_nil _ _).symm
  within := fun _ _ h _ => absurd rfl h
  small := fun _ h => absurd h not_mem_nil
  trend_ge := by decide
  trend_le := by decide

theorem averaged_single {reading : ℕ} (h : reading < 65536) : Averaged reading 0 [reading] where
  empty := fun h => absurd h (cons_ne_nil _ _)
  exact := by
    rintro first rest hreadings
    obtain ⟨rfl, rfl⟩ := List.cons.inj hreadings
    rfl
  within := fun lo hi _ hall => within_single (hall reading mem_cons_self)
  small := fun r hr => mem_singleton.mp hr ▸ h
  trend_ge := by decide
  trend_le := by decide

variable {vbat reading : ℕ} {trend : ℤ} {readings : List ℕ}

theorem u16_of_lt {x : ℤ} (h : 0 ≤ x) (h' : x < 65536) : (u16 x : ℤ) = x := by
  rw [u16, Int.emod_eq_of_lt h h', Int.toNat_of_nonneg h]

theorem i16_of_lt {x : ℤ} (h : -32768 ≤ x) (h' : x < 32768) : i16 x = x := by
  rw [i16, Int.emod_eq_of_lt (by omega) (by omega)]
  omega

/-- One more reading: the sum is not negative, and the average and the trend stay in their bits. -/
theorem Averaged.bounds (h : Averaged vbat trend readings) (hne : readings ≠ []) (hlow : 100 < vbat) (hhigh : vbat < 32768)
    (hreading : reading < 65536) :
    0 ≤ 9 * (vbat : ℤ) + (trend + reading) + 5 ∧
      0 ≤ (smoothed (vbat, trend) reading).1 ∧ (smoothed (vbat, trend) reading).1 < 65536 ∧
      -8000 ≤ (smoothed (vbat, trend) reading).1 - vbat ∧ (smoothed (vbat, trend) reading).1 - vbat ≤ 8000 ∧
      -8000 ≤ (smoothed (vbat, trend) reading).2 ∧ (smoothed (vbat, trend) reading).2 ≤ 8000 := by
  have hsmall : ∀ r ∈ readings, (0 : ℤ) ≤ r ∧ (r : ℤ) ≤ 65535 := by
    intro r hr
    have := h.small r hr
    omega
  have hge : (0 : ℤ) - 6 ≤ vbat + trend := (h.within 0 65535 hne hsmall).trend_ge
  have htrend := And.intro h.trend_ge h.trend_le
  have hpos : 0 ≤ 9 * (vbat : ℤ) + (trend + reading) + 5 := by omega
  have hvalue : 9 * (vbat : ℤ) + (trend + reading) - 4 ≤ 10 * (smoothed (vbat, trend) reading).1 ∧
      10 * (smoothed (vbat, trend) reading).1 ≤ 9 * (vbat : ℤ) + (trend + reading) + 5 := smoothed_fst_bounds hpos
  have hchange : trend + ((smoothed (vbat, trend) reading).1 - vbat) - 1 ≤ 2 * (smoothed (vbat, trend) reading).2 ∧
      2 * (smoothed (vbat, trend) reading).2 ≤ trend + ((smoothed (vbat, trend) reading).1 - vbat) + 1 := smoothed_snd_bounds ..
  refine ⟨hpos, by omega, by omega, by omega, by omega, by omega, by omega⟩

/-- The average of one more reading. -/
theorem Averaged.append (h : Averaged vbat trend readings) (hne : readings ≠ []) (hlow : 100 < vbat) (hhigh : vbat < 32768)
    (hreading : reading < 65536) :
    Averaged (smoothed (vbat, trend) reading).1.toNat (smoothed (vbat, trend) reading).2 (readings ++ [reading]) := by
  obtain ⟨hpos, hge, -, -, -, htge, htle⟩ := h.bounds hne hlow hhigh hreading
  have hvalue := Int.toNat_of_nonneg hge
  refine ⟨fun h => absurd h (append_ne_nil_of_right_ne_nil _ (cons_ne_nil _ _)), ?_, ?_, ?_, htge, htle⟩
  · intro first rest hreadings
    obtain ⟨first', rest', rfl⟩ := exists_cons_of_ne_nil hne
    rw [List.cons_append] at hreadings
    obtain ⟨rfl, rfl⟩ := List.cons.inj hreadings
    rw [hvalue, average_append, ← h.exact first' rest' rfl]
  · intro lo hi _ hall
    have hold : ∀ r ∈ readings, lo ≤ r ∧ r ≤ hi := fun r hr => hall r (mem_append_left _ hr)
    have hnew := (h.within lo hi hne hold).smoothed (hall reading (mem_append_right _ mem_cons_self)) hpos
    rw [hvalue]
    exact hnew
  · intro r hr
    rcases mem_append.mp hr with hold | hnew
    · exact h.small r hold
    · exact mem_singleton.mp hnew ▸ hreading

/-- The code smooths as the exact integers do. -/
theorem Averaged.smooth {s : PowerType} (h : Averaged s.vbat s.vbatTrend s.averaged) {mv : ℕ} (hmv : mv < 65536)
    (hvbat : s.vbat = defaultVoltage ∨ s.vbat < 32768) :
    Averaged (s.powerBatterySmoothVoltageReading (u16 mv)).vbat (s.powerBatterySmoothVoltageReading (u16 mv)).vbatTrend
      (if s.restarts then [mv] else s.averaged ++ [mv]) := by
  have hcast : u16 mv = mv := Int.ofNat_inj.mp (u16_of_lt (Int.natCast_nonneg mv) (by omega))
  rw [hcast, PowerType.powerBatterySmoothVoltageReading]
  by_cases hrestarts : s.restarts = true
  · rw [if_pos hrestarts, if_pos hrestarts]
    exact averaged_single hmv
  · rw [if_neg hrestarts, if_neg hrestarts]
    have hnot : ¬(s.vbat = defaultVoltage ∨ s.vbat ≤ 100) := fun h => hrestarts (decide_eq_true h)
    have hne : s.averaged ≠ [] := fun hnil => hnot (.inl (h.empty hnil))
    have hhigh : s.vbat < 32768 := hvbat.resolve_left fun h => hnot (.inl h)
    have hlow : 100 < s.vbat := by omega
    obtain ⟨-, hge, hlt, hcge, hcle, htge, htle⟩ := h.bounds hne hlow hhigh hmv
    have hold : i16 s.vbat = s.vbat := i16_of_lt (by omega) (by omega)
    have hvalue := u16_of_lt hge hlt
    have hchange := i16_of_lt (x := (smoothed (s.vbat, s.vbatTrend) mv).1 - s.vbat) (by omega) (by omega)
    have htrend := i16_of_lt (x := (smoothed (s.vbat, s.vbatTrend) mv).2) (by omega) (by omega)
    have happend := h.append hne hlow hhigh hmv
    have hstored : u16 (smoothed (s.vbat, s.vbatTrend) mv).1 = (smoothed (s.vbat, s.vbatTrend) mv).1.toNat :=
      Int.ofNat_inj.mp (hvalue.trans (Int.toNat_of_nonneg hge).symm)
    dsimp only
    rw [hold]
    change Averaged (u16 (smoothed (s.vbat, s.vbatTrend) mv).1)
      (i16 ((s.vbatTrend + i16 (u16 (smoothed (s.vbat, s.vbatTrend) mv).1 - s.vbat)).tdiv 2)) _
    rw [hvalue, hchange, hstored]
    change Averaged _ (i16 (smoothed (s.vbat, s.vbatTrend) mv).2) _
    rw [htrend]
    exact happend

/-! ### What was reported -/

variable {i : Input} {sent : List ClientMessage}

theorem reported_append_some {m : ClientMessage} {l : ℕ} (h : m.level i = some l) :
    reported i (sent ++ [m]) = some l := by
  rw [reported, filterMap_append, filterMap_cons_some h, filterMap_nil]
  exact List.getLast?_concat

theorem reported_append_none {m : ClientMessage} (h : m.level i = none) :
    reported i (sent ++ [m]) = reported i sent := by
  rw [reported, filterMap_append, filterMap_cons_none h, filterMap_nil, append_nil]
  rfl

namespace PowerType

variable {config : PowerConfig} {s s' : PowerType}

/-- What holds in every state that is reached. -/
structure Kept (config : PowerConfig) (s : PowerType) : Prop where
  ready : s.ready = s.taken
  cfmSent : s.cfmSent = Input.all.all s.ready
  confirmed : s.sent.countP (·.isInitCfm) = if s.cfmSent then 1 else 0
  reported : s.cfmSent = true → ∀ i, i ≠ .vref → reported i s.sent = some (s.level config i)
  notify : ∀ m ∈ s.queue, m.1 = .vbatNotifyReq → s.ready .vbat = true
  asked : ∀ source ∈ s.asked, ∃ i, (config.adc i).source = source
  averaged : Averaged s.vbat s.vbatTrend s.averaged

/-- The queue gets no indication that has nothing to say. -/
def Notifies (s : PowerType) : Prop := ∀ m ∈ s.queue, m.1 = .vbatNotifyReq → s.ready .vbat = true

theorem Kept.reports (h : s.Kept config) : s.Reports config where
  confirmed := by rw [h.confirmed, h.cfmSent, h.ready]
  exact := h.averaged.exact
  near := by
    intro lo hi hne hall
    have hwithin := h.averaged.within lo hi hne hall
    obtain ⟨first, rest, hreadings⟩ := exists_cons_of_ne_nil hne
    have hrange := hall first (hreadings ▸ mem_cons_self)
    have hge : lo - 5 ≤ s.vbat := hwithin.ge
    have hle : (s.vbat : ℤ) ≤ hi + 6 := hwithin.le
    omega
  reported := h.reported

/-- What a result of an input leaves. -/
structure Handled (config : PowerConfig) (s s' : PowerType) (i : Input) : Prop where
  ready : s'.ready = Function.update s.ready i true
  cfmSent : s'.cfmSent = s.cfmSent
  chgState : s'.chgState = s.chgState
  taken : s'.taken = s.taken
  asked : s'.asked = s.asked
  others : ∀ j, j ≠ i → s'.level config j = s.level config j
  sent : (s'.sent = s.sent ∧ (s.ready i = true → s'.level config i = s.level config i)) ∨
    ∃ m : ClientMessage, s'.sent = s.sent ++ [m] ∧ m.isInitCfm = false ∧ m.level i = some (s'.level config i) ∧
      ∀ j, j ≠ i → m.level j = none
  notify : s.Notifies → s'.Notifies

/-! ### The handlers -/

theorem update_ready {ready : Input → Bool} (h : ready i = true) : Function.update ready i true = ready := by
  rw [← h, update_eq_self]

theorem Notifies.post (h : s.Notifies) {r : Request} {delay : ℕ} (hr : r = .vbatNotifyReq → s.ready .vbat = true) :
    (s.post r delay).Notifies := by
  intro m hm hnotify
  rcases mem_append.mp hm with hold | hnew
  · exact h m hold hnotify
  · obtain rfl := mem_singleton.mp hnew
    exact hr hnotify

theorem Notifies.start (h : s.Notifies) : s.powerMonitorStart.Notifies := by
  refine Notifies.post (Notifies.post (Notifies.post (Notifies.post h ?_) ?_) ?_) ?_ <;>
    exact fun h => absurd h (by decide)

theorem Notifies.restart (h : s.Notifies) : s.powerMonitorRestart.Notifies :=
  Notifies.start fun m hm => h m (mem_filter.mp hm).1

/-- Queueing the indication changes the queue only. -/
theorem queueVoltageInd_eq (config : PowerConfig) (s : PowerType) (level : Fin 6) :
    ∃ queue, s.powerBatteryQueueVoltageInd config level = { s with queue := queue } := by
  rw [powerBatteryQueueVoltageInd]
  split <;> exact ⟨_, rfl⟩

theorem setThermistorPio_eq (config : PowerConfig) (s : PowerType) (drive : Bool) :
    ∃ driven, s.powerMonitorSetThermistorPio config drive = { s with thermistorDriven := driven } := by
  rw [powerMonitorSetThermistorPio]
  split
  · exact ⟨drive, rfl⟩
  · exact ⟨s.thermistorDriven, rfl⟩

/-- The indication of the battery's voltage. -/
theorem sendVoltageInd_eq (config : PowerConfig) (s : PowerType) (hready : s.ready .vbat = true) :
    ∃ queue, s.powerBatterySendVoltageInd config = some { s with
        queue := queue
        sent := s.sent ++ [.batteryVoltageInd ⟨s.vbat, s.powerBatteryGetVoltageLevel config⟩] } := by
  obtain ⟨queue, hqueue⟩ := queueVoltageInd_eq config s (s.powerBatteryGetVoltageLevel config)
  refine ⟨queue, ?_⟩
  rw [powerBatterySendVoltageInd, powerBatteryGetVoltage, if_pos hready, hqueue]
  rfl

theorem handled_vref (reading : ℕ) : Handled config s ({ s with vref := reading }.setReady .vref) .vref where
  ready := rfl
  cfmSent := rfl
  chgState := rfl
  taken := rfl
  asked := rfl
  others := fun j _ => by cases j <;> rfl
  sent := .inl ⟨rfl, fun _ => rfl⟩
  notify := fun h m hm hnotify => h m hm hnotify

theorem handled_temperature (config : PowerConfig) (s : PowerType) (reading : ℕ) :
    ∃ s', s.powerBatteryHandleTemperatureReading config reading = some s' ∧ Handled config s s' .vthm ∧
      (Averaged s.vbat s.vbatTrend s.averaged → Averaged s'.vbat s'.vbatTrend s'.averaged) := by
  have hothers : ∀ j, j ≠ .vthm → level config { s with vthm := reading } j = s.level config j := fun j hj => by
    cases j <;> first | rfl | exact absurd rfl hj
  rw [powerBatteryHandleTemperatureReading]
  by_cases hready : s.ready .vthm = true
  · rw [if_pos hready]
    split
    · rw [powerBatterySendTemperatureInd, powerBatteryGetTemperature, if_pos hready]
      refine ⟨_, rfl, ⟨(update_ready hready).symm, rfl, rfl, rfl, rfl, hothers, .inr ⟨_, rfl, rfl, rfl, ?_⟩, fun h => h⟩, fun h => h⟩
      exact fun j hj => by cases j <;> first | rfl | exact absurd rfl hj
    · exact ⟨_, rfl, ⟨(update_ready hready).symm, rfl, rfl, rfl, rfl, hothers,
        .inl ⟨rfl, fun _ => Decidable.not_not.mp ‹_›⟩, fun h => h⟩, fun h => h⟩
  · rw [if_neg hready]
    exact ⟨_, rfl, ⟨rfl, rfl, rfl, rfl, rfl, hothers, .inl ⟨rfl, fun h => absurd h hready⟩,
      fun h m hm hnotify => h m hm hnotify⟩, fun h => h⟩

theorem handled_charger (config : PowerConfig) (s : PowerType) (reading : ℕ) :
    ∃ s', s.powerChargerHandleVoltageReading config reading = s' ∧ Handled config s s' .vchg ∧
      (Averaged s.vbat s.vbatTrend s.averaged → Averaged s'.vbat s'.vbatTrend s'.averaged) := by
  have hothers : ∀ j, j ≠ .vchg → level config { s with vchg := reading } j = s.level config j := fun j hj => by
    cases j <;> first | rfl | exact absurd rfl hj
  rw [powerChargerHandleVoltageReading]
  dsimp only
  by_cases hready : s.ready .vchg = true
  · rw [if_pos hready]
    split
    · refine ⟨_, rfl, ⟨(update_ready hready).symm, rfl, rfl, rfl, rfl, hothers, .inr ⟨_, rfl, rfl, rfl, ?_⟩, fun h => h⟩, fun h => h⟩
      exact fun j hj => by cases j <;> first | rfl | exact absurd rfl hj
    · exact ⟨_, rfl, ⟨(update_ready hready).symm, rfl, rfl, rfl, rfl, hothers,
        .inl ⟨rfl, fun _ => Eq.symm (Decidable.not_not.mp ‹_›)⟩, fun h => h⟩, fun h => h⟩
  · rw [if_neg hready]
    exact ⟨_, rfl, ⟨rfl, rfl, rfl, rfl, rfl, hothers, .inl ⟨rfl, fun h => absurd h hready⟩,
      fun h m hm hnotify => h m hm hnotify⟩, fun h => h⟩

/-- Smoothing changes the voltage and the trend only. -/
theorem smoothVoltageReading_eq (s : PowerType) (reading : ℕ) :
    ∃ vbat trend, s.powerBatterySmoothVoltageReading reading = { s with vbat := vbat, vbatTrend := trend } := by
  rw [powerBatterySmoothVoltageReading]
  split <;> exact ⟨_, _, rfl⟩

theorem handled_battery (config : PowerConfig) (s : PowerType) (reading : ℕ) :
    ∃ s', s.powerBatteryHandleVoltageReading config reading = some s' ∧ Handled config s s' .vbat ∧
      s'.vbat = (s.powerBatterySmoothVoltageReading reading).vbat ∧
      s'.vbatTrend = (s.powerBatterySmoothVoltageReading reading).vbatTrend := by
  rw [powerBatteryHandleVoltageReading]
  obtain ⟨vbat, trend, hsmooth⟩ := smoothVoltageReading_eq s reading
  rw [hsmooth]
  have hothers : ∀ j, j ≠ .vbat → level config { s with vbat := vbat, vbatTrend := trend } j = s.level config j := fun j hj => by
    cases j <;> first | rfl | exact absurd rfl hj
  by_cases hready : s.ready .vbat = true
  · rw [if_pos hready]
    split
    · obtain ⟨queue, hsend⟩ :=
        sendVoltageInd_eq config { s with vbat := vbat, vbatTrend := trend } hready
      rw [hsend]
      refine ⟨_, rfl, ⟨(update_ready hready).symm, rfl, rfl, rfl, rfl, hothers, .inr ⟨_, rfl, rfl, rfl, ?_⟩,
        fun _ _ _ _ => hready⟩, rfl, rfl⟩
      exact fun j hj => by cases j <;> first | rfl | exact absurd rfl hj
    · exact ⟨_, rfl, ⟨(update_ready hready).symm, rfl, rfl, rfl, rfl, hothers,
        .inl ⟨rfl, fun _ => congrArg Fin.val (Decidable.not_not.mp ‹_›)⟩, fun h => h⟩, rfl, rfl⟩
  · rw [if_neg hready]
    obtain ⟨queue, hqueue⟩ := queueVoltageInd_eq config { s with vbat := vbat, vbatTrend := trend }
      (powerBatteryGetVoltageLevel config { s with vbat := vbat, vbatTrend := trend })
    rw [hqueue]
    exact ⟨_, rfl, ⟨rfl, rfl, rfl, rfl, rfl, hothers, .inl ⟨rfl, fun h => absurd h hready⟩,
      fun _ _ _ _ => show Function.update s.ready .vbat true .vbat = true from update_self ..⟩, rfl, rfl⟩

/-! ### The steps -/

theorem all_eq_true_iff {f : Input → Bool} : Input.all.all f = true ↔ ∀ i, f i = true := by
  rw [List.all_eq_true]
  exact ⟨fun h i => h i i.mem_all, fun h i _ => h i⟩

/-- Another queue. -/
theorem Kept.setQueue (h : s.Kept config) {queue : List (Request × ℕ)} (hqueue : Notifies { s with queue := queue }) :
    Kept config { s with queue := queue } :=
  ⟨h.ready, h.cfmSent, h.confirmed, h.reported, hqueue, h.asked, h.averaged⟩

/-- The confirmation, once every input is ready. -/
theorem initComplete_eq (config : PowerConfig) (hready : ∀ i, s.ready i = true) :
    ∃ queue, s.powerInitComplete config = some { s with
        cfmSent := true
        queue := queue
        sent := s.sent ++ [.initCfm ⟨s.vthm, s.level config .vthm⟩ ⟨s.vbat, s.level config .vbat⟩
          ⟨s.vchg, s.level config .vchg⟩ s.chgState] } := by
  rw [powerInitComplete, powerChargerGetVoltage, powerBatteryGetVoltage, powerBatteryGetTemperature, if_pos (hready _),
    if_pos (hready _), if_pos (hready _)]
  by_cases hstate : s.chgState = .disconnected
  · refine ⟨s.queue, ?_⟩
    simp only [bind_eq_bind, bind_some, hstate, ne_eq, not_true, if_false]
    rfl
  · refine ⟨(powerMonitorRestart { s with cfmSent := true }).queue, ?_⟩
    simp only [bind_eq_bind, bind_some, ne_eq, hstate, not_false_eq_true, if_true]
    rfl

/-- **A result.** Its input is taken, and with the last one the client gets the confirmation. -/
theorem Kept.result {source : ℕ} (h : s.Kept config) (hhandled : Handled config s s' i)
    (haveraged : Averaged s'.vbat s'.vbatTrend s'.averaged) (hsource : (config.adc i).source = source)
    (hothers : ∀ j, j ≠ i → (config.adc j).source = source → s.ready j = true) {t : PowerType}
    (ht : t = { s' with taken := fun j => s'.taken j || decide ((config.adc j).source = source) }) :
    ∃ u, (if t.isComplete then t.powerInitComplete config else some t) = some u ∧ u.Kept config := by
  have hready : t.ready = t.taken := by
    funext j
    rw [ht]
    change s'.ready j = (s'.taken j || decide ((config.adc j).source = source))
    rw [hhandled.ready, hhandled.taken, ← h.ready]
    by_cases hj : j = i
    · rw [hj, update_self, decide_eq_true hsource, Bool.or_true]
    · rw [update_of_ne hj]
      by_cases hsame : (config.adc j).source = source
      · rw [hothers j hj hsame, Bool.true_or]
      · rw [decide_eq_false hsame, Bool.or_false]
  have hcfm : t.cfmSent = s.cfmSent := ht ▸ hhandled.cfmSent
  have hkeeps : ∀ j, s.ready j = true → t.ready j = true := by
    intro j hj
    rw [ht]
    change s'.ready j = true
    rw [hhandled.ready, update_apply]
    split
    · rfl
    · exact hj
  have hnotify : t.Notifies := ht ▸ hhandled.notify h.notify
  have hasked : ∀ source ∈ t.asked, ∃ i, (config.adc i).source = source := by
    rw [show t.asked = s.asked from ht ▸ hhandled.asked]
    exact h.asked
  have haveraged' : Averaged t.vbat t.vbatTrend t.averaged := ht ▸ haveraged
  have hlevel : ∀ j, t.level config j = s'.level config j := by
    intro j
    rw [ht]
    cases j <;> rfl
  have hsent := hhandled.sent
  rw [show s'.sent = t.sent from ht ▸ rfl] at hsent
  have hcount : t.sent.countP (·.isInitCfm) = if s.cfmSent then 1 else 0 := by
    rw [← h.confirmed]
    obtain ⟨heq, -⟩ | ⟨m, heq, hm, -, -⟩ := hsent
    · rw [heq]
    · rw [heq, countP_append, countP_singleton, hm]
      rfl
  by_cases hcomplete : t.isComplete = true
  · obtain ⟨hall, hnot⟩ := (Bool.and_eq_true _ _).mp hcomplete
    rw [Bool.not_eq_true'] at hnot
    have hall' := all_eq_true_iff.mp hall
    obtain ⟨queue, hqueue⟩ := initComplete_eq config hall'
    rw [if_pos hcomplete, hqueue]
    refine ⟨_, rfl, ⟨hready, hall.symm, ?_, ?_, fun _ _ _ => hall' .vbat, hasked, haveraged'⟩⟩
    · change List.countP (·.isInitCfm) (t.sent ++ [_]) = 1
      rw [countP_append, hcount, ← hcfm, hnot]
      rfl
    · intro _ j hj
      cases j
      · exact absurd rfl hj
      · exact reported_append_some rfl
      · exact reported_append_some rfl
      · exact reported_append_some rfl
  · rw [if_neg hcomplete]
    refine ⟨t, rfl, ⟨hready, ?_, ?_, ?_, hnotify, hasked, haveraged'⟩⟩
    · rw [hcfm]
      cases hsent : s.cfmSent with
      | true =>
        rw [h.cfmSent, all_eq_true_iff] at hsent
        exact (all_eq_true_iff.mpr fun j => hkeeps j (hsent j)).symm
      | false =>
        rw [isComplete, hcfm, hsent, Bool.not_false, Bool.and_true] at hcomplete
        exact ((Bool.not_eq_true _).mp hcomplete).symm
    · rw [hcount, hcfm]
    · intro hdone j hj
      rw [hcfm] at hdone
      have hold := h.reported hdone
      have hi : s.ready i = true := by
        rw [h.cfmSent, all_eq_true_iff] at hdone
        exact hdone i
      rw [hlevel]
      obtain ⟨heq, hsame⟩ | ⟨m, heq, -, hm, hnone⟩ := hsent
      · rw [heq, hold j hj]
        by_cases hji : j = i
        · rw [hji, hsame hi]
        · rw [hhandled.others j hji]
      · rw [heq]
        by_cases hji : j = i
        · rw [hji]
          exact reported_append_some hm
        · rw [reported_append_none (hnone j hji), hold j hj, hhandled.others j hji]

/-- A request that does not find the last input without a period. -/
theorem Kept.read (h : s.Kept config) {again id : Request} (hagain : again ≠ .vbatNotifyReq)
    (hid : id ≠ .vbatNotifyReq) (accepted : Bool)
    (hadmits : s.period config i = 0 → s.ready i = true ∨ ∃ j ∈ Input.all, j ≠ i ∧ s.ready j = false) :
    (s.read config again id i accepted).Kept config := by
  have hretry : (s.post again 0).Kept config := h.setQueue (Notifies.post h.notify fun h => absurd h hagain)
  rw [PowerType.read, powerMonitorReadAdcNow]
  dsimp only
  by_cases hperiod : 1000 * s.period config i = 0
  · rw [if_pos hperiod]
    rcases hadmits (by omega) with hready | ⟨j, -, hj, hwaits⟩
    · rw [setReady, update_ready hready, update_ready (h.ready ▸ hready)]
      exact h
    · -- an input still waits, before and after
      have hnot : ∀ {f : Input → Bool}, f j = false → Input.all.all f = false := by
        intro f hf
        rw [Bool.eq_false_iff, ne_eq, all_eq_true_iff]
        exact fun hall => absurd (hall j) (by rw [hf]; decide)
      have hcfm : s.cfmSent = false := h.cfmSent.trans (hnot hwaits)
      refine ⟨?_, ?_, h.confirmed, fun hdone => absurd (hcfm.symm.trans hdone) (by decide), ?_, h.asked, h.averaged⟩
      · exact congrArg (Function.update · i true) h.ready
      · exact hcfm.trans (hnot ((update_of_ne hj ..).trans hwaits)).symm
      · intro m hm hnotify
        change Function.update s.ready i true .vbat = true
        rw [update_apply, h.notify m hm hnotify, ite_self]
  · rw [if_neg hperiod]
    split
    · cases accepted with
      | false => exact hretry
      | true =>
        refine ⟨h.ready, h.cfmSent, h.confirmed, h.reported, Notifies.post h.notify fun h => absurd h hid, ?_, h.averaged⟩
        intro source hsource
        rcases mem_append.mp hsource with hold | hnew
        · exact h.asked source hold
        · exact ⟨i, (mem_singleton.mp hnew).symm⟩
    · exact hretry

/-- A message that is delivered. -/
theorem Kept.deliver (h : s.Kept config) {r : Request} {accepted : Bool} (hallowed : s.Allowed (.deliver r accepted))
    (hadmits : s.Admits config (.deliver r accepted)) :
    ∃ s', s.step config (.deliver r accepted) = some s' ∧ s'.Kept config := by
  have hrest : Kept config { s with queue := s.queue.eraseP fun m => m.1 = r } :=
    h.setQueue fun m hm => h.notify m (mem_of_mem_eraseP hm)
  have hread {i : Input} (hi : (r, i) ∈ [(Request.vrefReq, Input.vref), (.vthmReq, .vthm), (.vbatReq, .vbat), (.vchgReq, .vchg)]) :=
    hadmits i i.mem_all hi
  cases r with
  | vrefReq | vbatReq | vchgReq | vthmReq => exact ⟨_, rfl, hrest.read (by decide) (by decide) accepted (hread (by decide))⟩
  | vthmSetup =>
    obtain ⟨driven, hdriven⟩ := setThermistorPio_eq config { s with queue := s.queue.eraseP fun m => m.1 = .vthmSetup } true
    refine ⟨_, rfl, ?_⟩
    rw [hdriven]
    exact ⟨hrest.ready, hrest.cfmSent, hrest.confirmed, hrest.reported,
      Notifies.post hrest.notify fun h => absurd h (by decide), hrest.asked, hrest.averaged⟩
  | vbatNotifyReq =>
    obtain ⟨m, hm, hnotify⟩ := List.mem_map.mp hallowed
    have hready := h.notify m hm hnotify
    obtain ⟨queue, hsend⟩ := sendVoltageInd_eq config { s with queue := s.queue.eraseP fun m => m.1 = .vbatNotifyReq }
      hready
    refine ⟨_, hsend, hrest.ready, hrest.cfmSent, ?_, ?_, fun _ _ _ => hready, hrest.asked, hrest.averaged⟩
    · rw [← h.confirmed]
      change List.countP _ (s.sent ++ [_]) = _
      rw [countP_append]
      rfl
    · intro hdone j hj
      have hold := h.reported hdone j hj
      cases j
      · exact absurd rfl hj
      · exact (reported_append_none rfl).trans hold
      · exact reported_append_some rfl
      · exact (reported_append_none rfl).trans hold

/-- The charger is found in a state. -/
theorem Kept.charger (h : s.Kept config) (state : ChargerState) : (s.chargerChanged state).Kept config := by
  have hstate : Kept config { s with chgState := state } :=
    ⟨h.ready, h.cfmSent, h.confirmed, h.reported, h.notify, h.asked, h.averaged⟩
  rw [chargerChanged]
  split
  · exact hstate.setQueue (Notifies.restart hstate.notify)
  · exact hstate

/-- The pin of the thermistor is not looked at. -/
theorem Handled.of_thermistor {driven : Bool} (h : Handled config { s with thermistorDriven := driven } s' i) :
    Handled config s s' i := by
  have hlevel : level config { s with thermistorDriven := driven } = s.level config := by
    funext j
    cases j <;> rfl
  obtain ⟨hready, hcfm, hstate, htaken, hasked, hothers, hsent, hnotify⟩ := h
  rw [hlevel] at hothers hsent
  exact ⟨hready, hcfm, hstate, htaken, hasked, hothers, hsent, hnotify⟩

/-- Nor is what is only recorded. -/
theorem Handled.recorded {averaged : List ℕ} (h : Handled config s s' i) :
    Handled config s { s' with averaged := averaged } i := by
  have hlevel : level config { s' with averaged := averaged } = s'.level config := by
    funext j
    cases j <;> rfl
  obtain ⟨hready, hcfm, hstate, htaken, hasked, hothers, hsent, hnotify⟩ := h
  rw [← hlevel] at hothers hsent
  exact ⟨hready, hcfm, hstate, htaken, hasked, hothers, hsent, hnotify⟩

/-- A reading is handled by the first input with its source. -/
theorem Kept.handleReading (h : s.Kept config) {source reading : ℕ} (hsource : ∃ i, (config.adc i).source = source)
    (hadmits : s.Admits config (.result source reading)) :
    ∃ s' i, s.handleReading config source reading = some s' ∧ Handled config s s' i ∧ (config.adc i).source = source ∧
      (∀ j, j ≠ i → (config.adc j).source = source → s.ready j = true) ∧
      Averaged s'.vbat s'.vbatTrend s'.averaged := by
  obtain ⟨hshared, hconvert, hbattery⟩ := hadmits
  have hothers {i : Input} (hi : (config.adc i).source = source)
      (hfirst : ∀ j : Input, j.ctorIdx < i.ctorIdx → (config.adc j).source ≠ source) (j : Input) (hj : j ≠ i)
      (hsame : (config.adc j).source = source) : s.ready j = true := by
    rcases Nat.lt_trichotomy j.ctorIdx i.ctorIdx with hlt | heq | hgt
    · exact absurd hsame (hfirst j hlt)
    · exact absurd heq (by cases i <;> cases j <;> first | exact absurd rfl hj | decide)
    · exact hshared i i.mem_all j j.mem_all hgt hi hsame
  rw [PowerType.handleReading]
  by_cases hvref : source = (config.adc .vref).source
  · rw [if_pos hvref]
    exact ⟨_, .vref, rfl, handled_vref reading, hvref.symm, hothers hvref.symm fun j hj => absurd hj (Nat.not_lt_zero _),
      h.averaged⟩
  obtain ⟨mv, hmv⟩ := ne_none_iff_exists'.mp (hconvert hvref)
  rw [if_neg hvref, hmv]
  simp only [bind_eq_bind, bind_some]
  by_cases hvthm : source = (config.adc .vthm).source
  · rw [if_pos hvthm]
    obtain ⟨driven, hdriven⟩ := setThermistorPio_eq config s false
    rw [hdriven]
    obtain ⟨s', hs', hhandled, haveraged⟩ := handled_temperature config { s with thermistorDriven := driven }
      (if config.rawLimits then reading else u16 mv)
    refine ⟨s', .vthm, hs', hhandled.of_thermistor, hvthm.symm, hothers hvthm.symm ?_, haveraged h.averaged⟩
    exact fun j hj => by cases j <;> first | exact Ne.symm hvref | exact absurd hj (by decide)
  rw [if_neg hvthm]
  by_cases hvbat : source = (config.adc .vbat).source
  · rw [if_pos hvbat]
    obtain ⟨s', hs', hhandled, hvoltage, htrend⟩ := handled_battery config s (u16 mv)
    obtain ⟨hsmall, hfits⟩ := hbattery hvbat mv hmv
    rw [hs']
    refine ⟨_, .vbat, rfl, hhandled.recorded, hvbat.symm, hothers hvbat.symm ?_, ?_⟩
    · exact fun j hj => by
        cases j <;> first | exact Ne.symm hvref | exact Ne.symm hvthm | exact absurd hj (by decide)
    · change Averaged s'.vbat s'.vbatTrend _
      rw [hvoltage, htrend]
      exact h.averaged.smooth hsmall hfits
  rw [if_neg hvbat]
  have hvchg : source = (config.adc .vchg).source := by
    obtain ⟨i, hi⟩ := hsource
    cases i with
    | vref => exact absurd hi.symm hvref
    | vthm => exact absurd hi.symm hvthm
    | vbat => exact absurd hi.symm hvbat
    | vchg => exact hi.symm
  rw [if_pos hvchg]
  obtain ⟨s', hs', hhandled, haveraged⟩ := handled_charger config s (u16 mv)
  refine ⟨s', .vchg, congrArg some hs', hhandled, hvchg.symm, hothers hvchg.symm ?_, haveraged h.averaged⟩
  exact fun j hj => by
    cases j <;> first | exact Ne.symm hvref | exact Ne.symm hvthm | exact Ne.symm hvbat | exact absurd hj (by decide)

/-- **A step.** Whatever is admitted returns, and keeps the promise. -/
theorem Kept.step (h : s.Kept config) (e : MonitorEvent) (hallowed : s.Allowed e) (hadmits : s.Admits config e) :
    ∃ s', s.step config e = some s' ∧ s'.Kept config := by
  cases e with
  | deliver r accepted => exact h.deliver hallowed hadmits
  | charger state => exact ⟨_, rfl, h.charger state⟩
  | result source reading =>
    have hrest : Kept config { s with asked := s.asked.erase source } :=
      ⟨h.ready, h.cfmSent, h.confirmed, h.reported, h.notify, fun r hr => h.asked r (mem_of_mem_erase hr), h.averaged⟩
    obtain ⟨s', i, hs', hhandled, hi, hothers, haveraged⟩ := hrest.handleReading (h.asked source hallowed.1) hadmits
    rw [PowerType.step, handleResult, hs']
    exact hrest.result hhandled haveraged hi hothers rfl

theorem kept_initial : PowerType.initial.Kept config where
  ready := rfl
  cfmSent := rfl
  confirmed := rfl
  reported := fun h => absurd h (by decide)
  notify := by decide
  asked := fun _ h => absurd h not_mem_nil
  averaged := averaged_initial

end PowerType

/-- **The reports.** Every run whose steps meet the condition returns, and the promise is kept in the state it comes to. -/
theorem reports_of_run (config : PowerConfig) {es : List MonitorEvent}
    (h : RunMeets (PowerType.step config) (fun s e => s.Allowed e ∧ s.Admits config e) .initial es) :
    ∃ s, run (PowerType.step config) .initial es = some s ∧ s.Reports config := by
  obtain ⟨s, hrun, hkept⟩ := run_returns (fun s e hs he => PowerType.Kept.step hs e he.1 he.2) PowerType.kept_initial h
  exact ⟨s, hrun, hkept.reports⟩

/-- Four inputs with these periods. -/
def fourInputs (period : ℕ) : PowerConfig where
  adc := fun
    | .vref => ⟨0, period, period⟩
    | .vthm => ⟨1, period, period⟩
    | .vbat => ⟨10, period, period⟩
    | .vchg => ⟨11, period, period⟩
  vbatLimits := .replicate 6 ⟨6, 50⟩
  vthmLimits := .replicate 7 0xFFFF
  vthmDelay := 5
  rawLimits := false
  drivePio := true
  vchgLimit := 4000
  bc5mm := false
  adcselVref := 5
  vrefConstant := 1250

/-- A reading of every input, and another one of the battery. -/
theorem reports_fourInputs : ∃ s, run (PowerType.step (fourInputs 60)) .initial
    [.deliver .vrefReq true, .result 0 900, .deliver .vthmSetup true, .deliver .vthmReq true, .result 1 500,
      .deliver .vbatReq true, .result 10 800, .deliver .vchgReq true, .result 11 300, .deliver .vbatReq true, .result 10 700] =
        some s ∧ s.Reports (fourInputs 60) :=
  reports_of_run (fourInputs 60) (by decide)

/-- Four inputs without a period: no result comes after them. -/
theorem not_alwaysReports_unconfigured : ¬AlwaysReports := by
  intro h
  obtain ⟨s, hrun, hreports⟩ := h (fourInputs 0)
    [.deliver .vrefReq true, .deliver .vbatReq true, .deliver .vchgReq true, .deliver .vthmSetup true, .deliver .vthmReq true]
    (by decide)
  have hend : (run (PowerType.step (fourInputs 0)) .initial
      [.deliver .vrefReq true, .deliver .vbatReq true, .deliver .vchgReq true, .deliver .vthmSetup true,
        .deliver .vthmReq true]).map (fun s => (s.sent, Input.all.all s.taken)) = some ([], true) := by
    decide
  rw [hrun] at hend
  obtain ⟨hsent, htaken⟩ := Prod.mk.inj (some.inj hend)
  have hcount := hreports.confirmed
  rw [hsent, if_pos htaken] at hcount
  exact absurd hcount (by decide)

end Cbps.Power
