import Cbps.Power.Charger

/-!
# The regulation of the charger current

What is promised of the current over a run: the stored setting is what the hardware was given last, it stays within its
bounds, it does not rise in the warm, and in the cool it rises to its target. The code does not always keep it. Without
a sensor the target is set as it is, above the largest current; a setting below the least current is raised to it
whatever the temperature; the 8-bit sum of setting and step wraps around; and the temperature at which the current is
lowered may be below the one at which it is no longer raised. `regulates_of_run` says that in every run whose steps
avoid these, the promise is kept.
-/

namespace Cbps.Power

open Option

open Cbps.Lib

variable {c : PmuConfig} {p p' : Charger} {e : Event} {r : Readings}

/-- Charging, with a temperature that is read and below the one at which the current is no longer raised. -/
def Readings.Cool (c : PmuConfig) (r : Readings) : Prop :=
  r.managed.charging = true ∧ r.temperature ≠ invalidSensor ∧ r.temperature ≠ invalidTemperature ∧
    r.temperature < c.noIncrITemp

instance (c : PmuConfig) (r : Readings) : Decidable (r.Cool c) := by
  unfold Readings.Cool
  infer_instance

/-- **The promise** in a state, where `ok` says which steps are considered. -/
structure Regulates (ok : Charger → Event → Prop) (c : PmuConfig) (p : Charger) : Prop where
  stored : p.current.getD 0 = p.chargerISetting
  bounded : p.chargerISetting ≤ c.maxChargeI
  target : ∀ e r p', ok p e → e.readings = some r → p.step c e = some p' →
    p'.chargerISetting ≤ max p'.chargerITarget c.minChargeI
  warm : ∀ e r p', ok p e → e.readings = some r → p.step c e = some p' → c.noIncrITemp ≤ r.temperature →
    p'.chargerISetting ≤ p.chargerISetting
  cool : ∀ e r p', ok p e → e.readings = some r → p.step c e = some p' → 0 < c.chargerIStep → r.Cool c →
    min p.chargerISetting p.chargerITarget ≤ p'.chargerISetting
  reaches : ∀ es p', 0 < c.chargerIStep → (∀ e ∈ es, ∃ r, e.readings = some r ∧ r.Cool c) →
    RunMeets (Charger.step c) ok p es → 255 ≤ es.length → run (Charger.step c) p es = some p' →
    p'.chargerISetting = min p.chargerITarget c.maxChargeI

/-- Every run keeps the promise. -/
def AlwaysRegulates : Prop :=
  ∀ c : PmuConfig, c.Valid → ∀ es p, run (Charger.step c) (.initial c.monitored) es = some p →
    Regulates (fun _ _ => True) c p

/-- The condition on a step. -/
def AdmitsCurrent (c : PmuConfig) (p : Charger) (e : Event) : Prop :=
  c.monitored = true ∧ ∀ r ∈ e.readings,
    (r.managed.charging = true → r.temperature = invalidSensor → p.chargerITarget ≤ c.maxChargeI) ∧
      (c.noIncrITemp ≤ r.temperature → (r.managed.charging = true → c.decrITemp ≤ r.temperature) →
        c.minChargeI ≤ p.chargerISetting) ∧
        (0 < c.chargerIStep → r.Cool c → r.temperature < c.decrITemp ∧
          (p.chargerISetting < p.chargerITarget → p.chargerISetting + c.chargerIStep ≤ 255))

instance (c : PmuConfig) (p : Charger) (e : Event) : Decidable (AdmitsCurrent c p e) := by
  unfold AdmitsCurrent
  infer_instance

/-! ### The current that a monitor event finds -/

theorem u8_of_le {n : ℕ} (h : n ≤ 255) : u8 n = n := Nat.mod_eq_of_lt (by omega)

variable {setting target : ℕ}

theorem newChargerCurrent_of_not_charging (h : r.managed.charging = false) :
    newChargerCurrent c setting target r.managed r.temperature = c.minChargeI := by
  simp [newChargerCurrent, h]

/-- Without a sensor the target is set. -/
theorem newChargerCurrent_sensor (h : r.managed.charging = true)
    (hsensor : r.temperature = invalidSensor) (ht : target ≤ 255) :
    newChargerCurrent c setting target r.managed r.temperature = target := by
  simp [newChargerCurrent, h, hsensor, u8_of_le ht]

theorem newChargerCurrent_unread (h : r.managed.charging = true)
    (hunread : r.temperature = invalidTemperature) :
    newChargerCurrent c setting target r.managed r.temperature = c.minChargeI := by
  have hne : invalidTemperature ≠ invalidSensor := by decide
  simp [newChargerCurrent, h, hunread, hne]

/-- With a reading the current is lowered, raised or left, from the smaller of setting and target. -/
theorem newChargerCurrent_read (h : r.managed.charging = true)
    (hsensor : r.temperature ≠ invalidSensor) (hread : r.temperature ≠ invalidTemperature) (hs : setting ≤ 255)
    (ht : target ≤ 255) :
    newChargerCurrent c setting target r.managed r.temperature =
      if c.decrITemp ≤ r.temperature then max (min setting target - c.chargerIStep) c.minChargeI
      else if setting < target ∧ r.temperature < c.noIncrITemp then
        min (min (u8 (setting + c.chargerIStep)) target) c.maxChargeI
      else min setting target := by
  have hmin : (if u8 setting > target then u8 target else u8 setting) = min setting target := by
    rw [u8_of_le hs, u8_of_le ht]
    split <;> omega
  have hle : ¬ min setting target > target := by omega
  simp only [newChargerCurrent, h, if_true, if_neg hsensor, if_neg hread, hmin, hle, false_or, ge_iff_le]
  by_cases hdecr : (c.decrITemp : ℤ) ≤ r.temperature
  · rw [if_pos hdecr, if_pos hdecr]
    split <;> split <;> omega
  · rw [if_neg hdecr, if_neg hdecr]
    by_cases hraise : setting < target ∧ r.temperature < c.noIncrITemp
    · have hs' : min setting target = setting := by omega
      rw [if_pos hraise, if_pos ⟨hs'.trans_lt hraise.1, hraise.2⟩, hs', u8_of_le ht]
      generalize u8 (setting + c.chargerIStep) = i
      split <;> split <;> omega
    · have hraise' : ¬ (min setting target < target ∧ r.temperature < c.noIncrITemp) := by omega
      rw [if_neg hraise, if_neg hraise']

/-- What the current is after a monitor event, in general: from the least and the largest current, the target and the
setting. -/
theorem newChargerCurrent_le (hs : setting ≤ c.maxChargeI) (hvalid : c.Valid) (ht : target ≤ 255)
    (hsensor : r.managed.charging = true → r.temperature = invalidSensor → target ≤ c.maxChargeI) :
    newChargerCurrent c setting target r.managed r.temperature ≤ c.maxChargeI ∧
      newChargerCurrent c setting target r.managed r.temperature ≤ max target c.minChargeI := by
  have horder := hvalid.order
  have hmax := hvalid.max
  cases hcharging : r.managed.charging with
  | false =>
    rw [newChargerCurrent_of_not_charging hcharging]
    omega
  | true =>
    by_cases hinvalid : r.temperature = invalidSensor
    · rw [newChargerCurrent_sensor hcharging hinvalid ht]
      exact ⟨hsensor hcharging hinvalid, le_max_left _ _⟩
    by_cases hunread : r.temperature = invalidTemperature
    · rw [newChargerCurrent_unread hcharging hunread]
      omega
    rw [newChargerCurrent_read hcharging hinvalid hunread (hs.trans hmax) ht]
    split
    · omega
    · split <;> omega

/-- In the warm it does not rise, unless it is below the least current where it is lowered. -/
theorem newChargerCurrent_warm (hs : setting ≤ 255) (ht : target ≤ 255)
    (hwarm : (c.noIncrITemp : ℤ) ≤ r.temperature)
    (hmin : (r.managed.charging = true → (c.decrITemp : ℤ) ≤ r.temperature) → c.minChargeI ≤ setting) :
    newChargerCurrent c setting target r.managed r.temperature ≤ setting := by
  have hneg : (0 : ℤ) ≤ c.noIncrITemp := Int.natCast_nonneg _
  cases hcharging : r.managed.charging with
  | false =>
    rw [newChargerCurrent_of_not_charging hcharging]
    exact hmin fun h => absurd h (by simp [hcharging])
  | true =>
    have hsensor : r.temperature ≠ invalidSensor := by rw [invalidSensor]; omega
    have hread : r.temperature ≠ invalidTemperature := by rw [invalidTemperature]; omega
    rw [newChargerCurrent_read hcharging hsensor hread hs ht]
    split
    · next hdecr =>
      have := hmin fun _ => hdecr
      omega
    · rw [if_neg (by omega)]
      omega

/-- In the cool it rises by a step, to the target or the largest current at most. -/
theorem newChargerCurrent_cool (hs : setting ≤ 255) (ht : target ≤ 255) (hcool : r.Cool c)
    (hdecr : r.temperature < c.decrITemp) (hstep : setting < target → setting + c.chargerIStep ≤ 255) :
    newChargerCurrent c setting target r.managed r.temperature =
      if setting < target then min (min (setting + c.chargerIStep) target) c.maxChargeI else target := by
  obtain ⟨hcharging, hsensor, hread, hno⟩ := hcool
  rw [newChargerCurrent_read hcharging hsensor hread hs ht, if_neg (by omega)]
  by_cases hlt : setting < target
  · rw [if_pos ⟨hlt, hno⟩, if_pos hlt, u8_of_le (hstep hlt)]
  · rw [if_neg (fun h => hlt h.1), if_neg hlt]
    omega

/-! ### One step -/

/-- The fields of the regulation. -/
def Charger.regulation (p : Charger) : Bool × ℕ × ℕ × Option ℕ :=
  (p.pmuMonEnabled, p.chargerITarget, p.chargerISetting, p.current)

theorem regulation_powerChargerReset (p : Charger) (seen : ChargerState) :
    (p.powerChargerReset seen).regulation = p.regulation := by
  unfold Charger.powerChargerReset
  dsimp only
  split <;> rfl

theorem regulation_powerChargerDisableBoost (p : Charger) (seen : ChargerState) :
    (p.powerChargerDisableBoost seen).regulation = p.regulation := by
  unfold Charger.powerChargerDisableBoost
  split
  · exact regulation_powerChargerReset _ seen
  · split <;> rfl

theorem regulation_change (p : Charger) (new : ChargerState) : (p.change new).regulation = p.regulation := by
  unfold Charger.change
  dsimp only
  generalize (if p.chgState = .disconnected then ChargerState.justConnected else new) = seen
  by_cases hfast : seen = .fast
  · rw [if_pos hfast]
    cases p.chgBoost with
    | internalEnabled => rfl
    | externalEnabled => rfl
    | disabled => exact regulation_powerChargerDisableBoost p seen
  · rw [if_neg hfast]
    exact regulation_powerChargerDisableBoost p _

/-- The state and the boost do not touch the current. -/
theorem regulation_indicate (p : Charger) (r : Readings) :
    ((p.handled r.status).1.indicate (p.handled r.status).2).regulation = p.regulation := by
  have hhandled : (p.handled r.status).1.regulation = p.regulation := by
    unfold Charger.handled
    dsimp only
    split
    · exact regulation_change p _
    · rfl
  unfold Charger.indicate
  split
  · exact hhandled
  · exact hhandled

/-- The current that has been set, where the stored setting is the last one given. -/
structure Charger.Set (c : PmuConfig) (p : Charger) : Prop where
  enabled : p.pmuMonEnabled = true
  target : p.chargerITarget ≤ 255
  stored : p.current.getD 0 = p.chargerISetting
  bounded : p.chargerISetting ≤ c.maxChargeI

theorem powerChargerReadingMgr_stored (hstored : p.current.getD 0 = p.chargerISetting) :
    (p.powerChargerReadingMgr c r).chargerISetting =
        newChargerCurrent c p.chargerISetting p.chargerITarget r.managed r.temperature ∧
      (p.powerChargerReadingMgr c r).current.getD 0 = (p.powerChargerReadingMgr c r).chargerISetting := by
  unfold Charger.powerChargerReadingMgr
  dsimp only
  split
  · exact ⟨rfl, rfl⟩
  · next hsame => exact ⟨(not_not.mp hsame).symm, hstored⟩

theorem powerChargerReadingMgr_frame :
    (p.powerChargerReadingMgr c r).pmuMonEnabled = p.pmuMonEnabled ∧
      (p.powerChargerReadingMgr c r).chargerITarget = p.chargerITarget := by
  unfold Charger.powerChargerReadingMgr
  dsimp only
  split <;> exact ⟨rfl, rfl⟩

/-- A monitor event, as far as the current goes. -/
theorem powerChargerHandleMonitorReq_regulation (p : Charger) (hmon : p.pmuMonEnabled = true) (r : Readings) :
    ∃ q : Charger, q.regulation = p.regulation ∧
      (p.powerChargerHandleMonitorReq c r).regulation = (q.powerChargerReadingMgr c r).regulation := by
  have hq := regulation_indicate p r
  obtain ⟨q, hqdef⟩ : ∃ q, q = (p.handled r.status).1.indicate (p.handled r.status).2 := ⟨_, rfl⟩
  rw [← hqdef] at hq
  have henabled : q.pmuMonEnabled = true := (congrArg Prod.fst hq).trans hmon
  refine ⟨q, hq, ?_⟩
  unfold Charger.powerChargerHandleMonitorReq
  dsimp only
  rw [← hqdef, if_pos henabled, if_pos henabled]
  split <;> rfl

/-- **A monitor event.** The setting becomes the current found, and so does what the hardware was given. -/
theorem Charger.Set.monitor (hset : p.Set c) (he : e.readings = some r) (h : p.step c e = some p') :
    p'.pmuMonEnabled = true ∧ p'.chargerITarget = p.chargerITarget ∧
      p'.chargerISetting = newChargerCurrent c p.chargerISetting p.chargerITarget r.managed r.temperature ∧
        p'.current.getD 0 = p'.chargerISetting := by
  have hp' : p' = Charger.powerChargerHandleMonitorReq c { p with pending := p.pending - 1 } r := by
    cases e with
    | monitor r' =>
      obtain rfl := some.inj he
      exact (some.inj h).symm
    | monitorReq r' =>
      obtain rfl := some.inj he
      simp only [Charger.step] at h
      split at h
      · cases h
      · exact (some.inj h).symm
    | setCurrent _ => cases he
    | setBoost _ => cases he
    | enable _ => cases he
    | initComplete => cases he
  obtain ⟨q, hq, hq'⟩ :=
    powerChargerHandleMonitorReq_regulation (c := c) { p with pending := p.pending - 1 } hset.enabled r
  rw [← hp'] at hq'
  simp only [Charger.regulation, Prod.mk.injEq] at hq hq'
  obtain ⟨henabled, htarget, hsetting, hcurrent⟩ := hq
  obtain ⟨henabled', htarget', hsetting', hcurrent'⟩ := hq'
  have hstored : q.current.getD 0 = q.chargerISetting := by rw [hcurrent, hsetting, hset.stored]
  obtain ⟨hnew, hgiven⟩ := powerChargerReadingMgr_stored (c := c) (r := r) hstored
  obtain ⟨hframe, hframe'⟩ := powerChargerReadingMgr_frame (c := c) (p := q) (r := r)
  refine ⟨?_, ?_, ?_, ?_⟩
  · rw [henabled', hframe, henabled, hset.enabled]
  · rw [htarget', hframe', htarget]
  · rw [hsetting', hnew, hsetting, htarget]
  · rw [hcurrent', hsetting', hgiven]

theorem u8_le (n : ℕ) : u8 n ≤ 255 := Nat.le_of_lt_succ (Nat.mod_lt n (by decide))

/-- **One step** that the condition admits. -/
theorem Charger.Set.step (hvalid : c.Valid) (hset : p.Set c) (hok : AdmitsCurrent c p e)
    (h : p.step c e = some p') : p'.Set c := by
  cases hr : e.readings with
  | some r =>
    obtain ⟨henabled, htarget, hsetting, hstored⟩ := hset.monitor hr h
    refine ⟨henabled, htarget ▸ hset.target, hstored, ?_⟩
    rw [hsetting]
    exact (newChargerCurrent_le hset.bounded hvalid hset.target ((hok.2 r hr).1)).1
  | none =>
    cases e with try obtain rfl := some.inj h
    | setCurrent current =>
      unfold Charger.powerChargerSetCurrent
      rw [if_pos hset.enabled]
      dsimp only
      split
      · next hlt => exact ⟨hset.enabled, u8_le current, rfl, hlt.le.trans hset.bounded⟩
      · exact ⟨hset.enabled, u8_le current, hset.stored, hset.bounded⟩
    | setBoost boost | enable enable | initComplete =>
      exact ⟨hset.enabled, hset.target, hset.stored, hset.bounded⟩
    | monitor r => cases hr
    | monitorReq r => cases hr

theorem set_initial (hmon : c.monitored = true) : (Charger.initial c.monitored).Set c where
  enabled := hmon
  target := Nat.zero_le _
  stored := rfl
  bounded := Nat.zero_le _

/-! ### The rise to the target -/

/-- **A run in the cool**: the setting is the target, the largest current, or has risen by one with every event. -/
theorem rises (hvalid : c.Valid) (hstep : 0 < c.chargerIStep) {es : List Event} (hset : p.Set c)
    (hcool : ∀ e ∈ es, ∃ r, e.readings = some r ∧ r.Cool c) (hok : RunMeets (Charger.step c) (AdmitsCurrent c) p es)
    (hrun : run (Charger.step c) p es = some p') :
    p'.chargerITarget = p.chargerITarget ∧
      (p.chargerISetting ≤ p.chargerITarget →
        min (p.chargerISetting + es.length) (min p.chargerITarget c.maxChargeI) ≤ p'.chargerISetting ∧
          p'.chargerISetting ≤ min p.chargerITarget c.maxChargeI) ∧
        (p.chargerITarget < p.chargerISetting → es ≠ [] → p'.chargerISetting = p.chargerITarget) := by
  induction es generalizing p with
  | nil =>
    obtain rfl : p = p' := some.inj hrun
    have := hset.bounded
    refine ⟨rfl, fun hle => ?_, fun _ hne => absurd rfl hne⟩
    rw [List.length_nil]
    omega
  | cons e es ih =>
    obtain ⟨q, hq, hrun⟩ := run_cons_eq_some.mp hrun
    obtain ⟨r, hr, hcool_r⟩ := hcool e List.mem_cons_self
    have hadmits := (hok.head.2 r hr).2.2 hstep hcool_r
    obtain ⟨-, htarget, hsetting, -⟩ := hset.monitor hr hq
    rw [newChargerCurrent_cool (hset.bounded.trans hvalid.max) hset.target hcool_r hadmits.1 hadmits.2] at hsetting
    obtain ⟨ihtarget, ihrises, -⟩ :=
      ih (hset.step hvalid hok.head hq) (fun e he => hcool e (List.mem_cons_of_mem _ he)) (hok.tail hq) hrun
    have hbounded := hset.bounded
    have hle : q.chargerISetting ≤ q.chargerITarget := by
      rw [hsetting, htarget]
      split <;> omega
    obtain ⟨hlower, hupper⟩ := ihrises hle
    rw [htarget] at ihtarget hlower hupper
    rw [List.length_cons]
    refine ⟨ihtarget, fun hbelow => ⟨?_, hupper⟩, fun habove _ => ?_⟩
    · rw [hsetting] at hlower
      split at hlower <;> omega
    · rw [if_neg (by omega)] at hsetting
      omega

/-- A state with the current set keeps the promise. -/
theorem Charger.Set.regulates (hvalid : c.Valid) (hset : p.Set c) : Regulates (AdmitsCurrent c) c p where
  stored := hset.stored
  bounded := hset.bounded
  target e r p' hok hr h := by
    obtain ⟨-, htarget, hsetting, -⟩ := hset.monitor hr h
    rw [hsetting, htarget]
    exact (newChargerCurrent_le hset.bounded hvalid hset.target ((hok.2 r hr).1)).2
  warm e r p' hok hr h hwarm := by
    obtain ⟨-, -, hsetting, -⟩ := hset.monitor hr h
    rw [hsetting]
    exact newChargerCurrent_warm (hset.bounded.trans hvalid.max) hset.target hwarm ((hok.2 r hr).2.1 hwarm)
  cool e r p' hok hr h hstep hcool := by
    obtain ⟨hdecr, hsum⟩ := (hok.2 r hr).2.2 hstep hcool
    have hbounded := hset.bounded
    obtain ⟨-, -, hsetting, -⟩ := hset.monitor hr h
    rw [hsetting, newChargerCurrent_cool (hbounded.trans hvalid.max) hset.target hcool hdecr hsum]
    split <;> omega
  reaches es p' hstep hcool hok hlong hrun := by
    have hbounded := hset.bounded
    have htarget := hset.target
    obtain ⟨-, hrises, hfalls⟩ := rises hvalid hstep hset hcool hok hrun
    by_cases hle : p.chargerISetting ≤ p.chargerITarget
    · obtain ⟨hlower, hupper⟩ := hrises hle
      omega
    · have hne : es ≠ [] := by
        rintro rfl
        exact absurd hlong (by simp)
      rw [hfalls (Nat.lt_of_not_le hle) hne]
      omega

/-- **The regulation.** In every run whose steps meet the condition the promise is kept, in every state reached. -/
theorem regulates_of_run (hvalid : c.Valid) {es : List Event}
    (hok : RunMeets (Charger.step c) (AdmitsCurrent c) (.initial c.monitored) es)
    (hrun : run (Charger.step c) (.initial c.monitored) es = some p) : Regulates (AdmitsCurrent c) c p := by
  by_cases hmon : c.monitored = true
  · refine Charger.Set.regulates hvalid ?_
    exact run_invariant (fun q e q' hq hadmits h => Charger.Set.step hvalid hq hadmits h) (set_initial hmon) hok hrun
  -- without monitoring the condition admits no step
  · have hnone : es = [] := by
      cases es with
      | nil => rfl
      | cons e es => exact absurd hok.head.1 hmon
    subst hnone
    obtain rfl : Charger.initial c.monitored = p := some.inj hrun
    refine ⟨rfl, Nat.zero_le _, ?_, ?_, ?_, ?_⟩
    · exact fun e r p' hok' => absurd hok'.1 hmon
    · exact fun e r p' hok' => absurd hok'.1 hmon
    · exact fun e r p' hok' => absurd hok'.1 hmon
    · intro es' p' _ _ hok' hlong
      cases es' with
      | nil => exact absurd hlong (by simp)
      | cons e es' => exact absurd hok'.head.1 hmon

/-- A configuration with a step of 20 mA between 10 and 200. -/
def steps20 : PmuConfig := ⟨10, 200, 20, 40, 50, 1000, 2000, 0⟩

/-- A target, a step up in the cool and one down in the heat. -/
theorem regulates_steps20 : ∃ p, run (Charger.step steps20) (.initial steps20.monitored)
    [.setCurrent 150, .monitor ⟨.fastCharge, .fastCharge, 25⟩, .monitorReq ⟨.fastCharge, .fastCharge, 55⟩] = some p ∧
      Regulates (AdmitsCurrent steps20) steps20 p := by
  have hok : RunMeets (Charger.step steps20) (AdmitsCurrent steps20) (.initial steps20.monitored)
      [.setCurrent 150, .monitor ⟨.fastCharge, .fastCharge, 25⟩,
        .monitorReq ⟨.fastCharge, .fastCharge, 55⟩] := by
    decide
  obtain ⟨p, hp⟩ : ∃ p, run (Charger.step steps20) (.initial steps20.monitored)
      [.setCurrent 150, .monitor ⟨.fastCharge, .fastCharge, 25⟩,
        .monitorReq ⟨.fastCharge, .fastCharge, 55⟩] = some p :=
    isSome_iff_exists.mp (by decide)
  exact ⟨p, hp, regulates_of_run ⟨by decide, by decide, by decide⟩ hok hp⟩

/-- Without a sensor the target is given to the hardware, here 250 where 200 is the largest current. -/
theorem not_alwaysRegulates : ¬ AlwaysRegulates := by
  intro h
  obtain ⟨p, hp, hcurrent⟩ : ∃ p, run (Charger.step steps20) (.initial steps20.monitored)
      [.setCurrent 250, .monitor ⟨.fastCharge, .fastCharge, invalidSensor⟩] = some p ∧ p.chargerISetting = 250 := by
    have hruns : (run (Charger.step steps20) (.initial steps20.monitored)
        [.setCurrent 250, .monitor ⟨.fastCharge, .fastCharge, invalidSensor⟩]).any
          fun p => decide (p.chargerISetting = 250) := by decide
    obtain ⟨p, hp, hcurrent⟩ := (any_eq_true _ _).mp hruns
    exact ⟨p, hp, of_decide_eq_true hcurrent⟩
  have hbounded := (h steps20 ⟨by decide, by decide, by decide⟩ _ p hp).bounded
  rw [hcurrent] at hbounded
  exact absurd hbounded (by decide)

end Cbps.Power
