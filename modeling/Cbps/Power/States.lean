import Cbps.Power.Charger

/-!
# The state of the charger and its boost

What is promised of the charger over a run: a boost is on in the hardware exactly in its boost state, the library does
not enable a charger that the application or an error has disabled, every change seen after the initialisation is
indicated once and in order, and one monitor request is pending while a charger is attached. Boost and indications are
always right. Two things go wrong. On leaving the internal boost the charger is switched off and on again, and the test
that should spare a disabled charger looks at the state being left, which is the boost state. And with regulation a
monitor event whose period is zero is the last one, attached or not. `follows_iff` says that a run keeps the promise in
all its states exactly if no step of it does one of these.
-/

namespace Cbps.Power

open Option

open Cbps.Lib

variable {c : PmuConfig} {p p' : Charger} {e : Event} {r : Readings}

/-- **The promise** in a state. An indication may be owed for a change seen before the end of the initialisation. -/
structure Follows (p : Charger) : Prop where
  internal : p.internalBoost = true ↔ p.chgState = .boostInternal
  external : p.externalBoost = true ↔ p.chgState = .boostExternal
  enables : ∀ e ∈ p.enablings, e.appEnabled = true ∧ e.state ≠ .disabled
  told : ∃ owed : List ChargerState, owed.length ≤ 1 ∧ p.indications = owed ++ p.changes
  pending : p.chgState ≠ .disconnected → p.pending = 1

/-- Every run keeps the promise. -/
def AlwaysFollows : Prop :=
  ∀ c : PmuConfig, c.Valid → ∀ es p, run (Charger.step c) (.initial c.monitored) es = some p → Follows p

/-- The readings of a monitor event, if it takes place. -/
def Charger.reads (p : Charger) : Event → Option Readings
  | .monitor r => some r
  | .monitorReq r => if p.pending = 0 then none else some r
  | _ => none

/-- The condition on a step. -/
def AdmitsState (c : PmuConfig) (p : Charger) (e : Event) : Prop :=
  ∀ r ∈ p.reads e,
    (p.chgState = .boostInternal → r.status ≠ .fastCharge → r.status ≠ .other →
      p.appEnabled = true ∧ r.status ≠ .disabledError) ∧
      (c.monitored = true → r.status ≠ .noPower → (r.status = .other → p.chgState ≠ .disconnected) →
        monitorPeriod c r.managed ≠ 0)

/-! ### A change -/

/-- The fields that a change of the state leaves alone. -/
def Charger.surroundings (p : Charger) : Bool × Bool × ℕ × List ChargerState × List ChargerState :=
  (p.initCfmSent, p.pmuMonEnabled, p.pending, p.indications, p.changes)

/-- What a change from `p` to `q` does, where `seen` is the state found. -/
structure Changes (p q : Charger) (seen : ChargerState) : Prop where
  surroundings : q.surroundings = p.surroundings
  cycle : q.chgCycleComplete = .complete
  internal : q.internalBoost = true ↔ q.chgState = .boostInternal
  external : q.externalBoost = true ↔ q.chgState = .boostExternal
  connected : q.chgState = .disconnected ↔ seen = .disconnected
  enablings : q.enablings = if p.chgState = .boostInternal then p.enablings ++ [⟨p.appEnabled, seen⟩] else p.enablings

/-- Neither boost state is left for the fast state. -/
theorem Charger.Changed.fast {old : ChargerState} (h : Charger.Changed old .fast) : old ≠ .boostInternal ∧ old ≠ .boostExternal := by
  revert h
  cases old <;> decide

/-- Switching the boost off, with the state recorded after it. -/
theorem changes_powerChargerDisableBoost (hinternal : p.internalBoost = true ↔ p.chgState = .boostInternal)
    (hexternal : p.externalBoost = true ↔ p.chgState = .boostExternal) {seen : ChargerState}
    (hseen : seen ≠ .boostInternal ∧ seen ≠ .boostExternal) :
    Changes p { p.powerChargerDisableBoost seen with chgCycleComplete := .complete, chgState := seen } seen := by
  unfold Charger.powerChargerDisableBoost
  by_cases hin : p.chgState = .boostInternal
  · have hex : p.chgState ≠ .boostExternal := by simp [hin]
    have hon : p.chgState ≠ .disabled := by simp [hin]
    unfold Charger.powerChargerReset
    rw [if_pos hin]
    dsimp only
    rw [if_pos hon]
    exact {
      surroundings := rfl
      cycle := rfl
      internal := by simp [hseen.1]
      external := by simpa [hseen.2] using mt hexternal.mp hex
      connected := Iff.rfl
      enablings := (if_pos hin).symm }
  · have hoff : p.internalBoost = false := by simpa using mt hinternal.mp hin
    rw [if_neg hin]
    by_cases hex : p.chgState = .boostExternal
    · rw [if_pos hex]
      exact ⟨rfl, rfl, by simp [hoff, hseen.1], by simp [hseen.2], Iff.rfl, (if_neg hin).symm⟩
    · have hoff' : p.externalBoost = false := by simpa using mt hexternal.mp hex
      rw [if_neg hex]
      exact ⟨rfl, rfl, by simp [hoff, hseen.1], by simp [hoff', hseen.2], Iff.rfl, (if_neg hin).symm⟩

/-- **A change.** -/
theorem changes_change (hinternal : p.internalBoost = true ↔ p.chgState = .boostInternal)
    (hexternal : p.externalBoost = true ↔ p.chgState = .boostExternal) {new : ChargerState}
    (hnew : new ≠ .boostInternal ∧ new ≠ .boostExternal) (h : Charger.Changed p.chgState new) :
    Changes p (p.change new) (if p.chgState = .disconnected then .justConnected else new) := by
  obtain ⟨seen, hseen⟩ : ∃ seen, seen = if p.chgState = .disconnected then ChargerState.justConnected else new :=
    ⟨_, rfl⟩
  have hplain : seen ≠ .boostInternal ∧ seen ≠ .boostExternal := by
    rw [hseen]
    split
    · decide
    · exact hnew
  unfold Charger.change
  dsimp only
  rw [← hseen]
  by_cases hfast : seen = .fast
  · rw [if_pos hfast]
    -- the boost is switched on only from a state that is not a boost state
    have hold : p.chgState ≠ .boostInternal ∧ p.chgState ≠ .boostExternal := by
      split at hseen
      · exact absurd (hseen.symm.trans hfast) (by decide)
      · exact Charger.Changed.fast (hseen.symm.trans hfast ▸ h)
    have hin : p.internalBoost = false := by simpa using mt hinternal.mp hold.1
    have hex : p.externalBoost = false := by simpa using mt hexternal.mp hold.2
    cases p.chgBoost with
    | internalEnabled =>
      exact ⟨rfl, rfl, by simp, by simp [hex], by simp [hfast], (if_neg hold.1).symm⟩
    | externalEnabled =>
      exact ⟨rfl, rfl, by simp [hin], by simp, by simp [hfast], (if_neg hold.1).symm⟩
    | disabled =>
      subst hfast
      exact changes_powerChargerDisableBoost hinternal hexternal hplain
  · rw [if_neg hfast]
    exact changes_powerChargerDisableBoost hinternal hexternal hplain

/-! ### A monitor event -/

/-- What holds in every run: the part of the promise that is kept, and what it rests on. -/
structure Charger.Kept (c : PmuConfig) (p : Charger) : Prop where
  monitored : p.pmuMonEnabled = c.monitored
  internal : p.internalBoost = true ↔ p.chgState = .boostInternal
  external : p.externalBoost = true ↔ p.chgState = .boostExternal
  told : ∃ owed : List ChargerState, owed.length ≤ 1 ∧ p.indications = owed ++ p.changes
  -- with a change to be indicated none has been indicated since the initialisation
  silent : p.initCfmSent = false ∨ p.chgCycleComplete = .complete → p.indications = [] ∧ p.changes = []
  pending : p.pending ≤ 1

theorem kept_initial : (Charger.initial c.monitored).Kept c where
  monitored := rfl
  internal := iff_of_false Bool.false_ne_true ChargerState.noConfusion
  external := iff_of_false Bool.false_ne_true ChargerState.noConfusion
  told := ⟨[], Nat.zero_le 1, rfl⟩
  silent _ := ⟨rfl, rfl⟩
  pending := Nat.zero_le 1

/-- The states read are no boost states, unless nothing new is read. -/
theorem powerChargerGetState_cases (p : Charger) (status : ChargerStatus) :
    p.powerChargerGetState status = p.chgState ∨
      p.powerChargerGetState status ≠ .boostInternal ∧ p.powerChargerGetState status ≠ .boostExternal := by
  cases status with
  | other => exact .inl rfl
  | _ => exact .inr ⟨ChargerState.noConfusion, ChargerState.noConfusion⟩

/-- The state found by a monitor event and the record with it, before the current is regulated. -/
structure Finds (p q : Charger) (seen : ChargerState) : Prop where
  monitored : q.pmuMonEnabled = p.pmuMonEnabled
  pending : q.pending = p.pending
  initCfmSent : q.initCfmSent = p.initCfmSent
  internal : q.internalBoost = true ↔ q.chgState = .boostInternal
  external : q.externalBoost = true ↔ q.chgState = .boostExternal
  told : ∃ owed : List ChargerState, owed.length ≤ 1 ∧ q.indications = owed ++ q.changes
  silent : q.initCfmSent = false ∨ q.chgCycleComplete = .complete → q.indications = [] ∧ q.changes = []
  connected : q.chgState = .disconnected ↔ seen = .disconnected
  enablings : q.enablings =
    if Charger.Changed p.chgState seen ∧ p.chgState = .boostInternal then p.enablings ++ [⟨p.appEnabled, seen⟩]
    else p.enablings

/-- With an indication due or not, nothing else changes. -/
theorem finds_unchanged (hkept : p.Kept c) {seen : ChargerState} (h : ¬ Charger.Changed p.chgState seen) :
    Finds p (p.indicate seen) seen := by
  have hconnected : p.chgState = .disconnected ↔ seen = .disconnected := by
    revert h
    cases p.chgState <;> cases seen <;> decide
  have henablings := (if_neg fun hboth => h hboth.1 : (if Charger.Changed p.chgState seen ∧ p.chgState = .boostInternal
    then p.enablings ++ [⟨p.appEnabled, seen⟩] else p.enablings) = p.enablings).symm
  unfold Charger.indicate
  split
  · next hdue =>
    obtain ⟨hnone, hchanges⟩ := hkept.silent (.inr hdue.2)
    refine ⟨rfl, rfl, rfl, hkept.internal, hkept.external, ⟨[seen], le_refl 1, ?_⟩, ?_, hconnected, henablings⟩
    · dsimp only
      rw [hnone, hchanges]
      rfl
    · rintro (hinit | hcycle)
      · exact absurd (hdue.1.symm.trans hinit) (by decide)
      · cases hcycle
  · exact ⟨rfl, rfl, rfl, hkept.internal, hkept.external, hkept.told, hkept.silent, hconnected, henablings⟩

/-- A change is recorded and, after the initialisation, indicated. -/
theorem finds_changed (hkept : p.Kept c) {new : ChargerState} (hnew : new ≠ .boostInternal ∧ new ≠ .boostExternal)
    (h : Charger.Changed p.chgState new) {q : Charger} (hq : q = p.change new) :
    Finds p (Charger.indicate { q with changes := if q.initCfmSent then q.changes ++ [q.chgState] else q.changes }
      q.chgState) new := by
  obtain ⟨hsurroundings, hcycle, hinternal, hexternal, hconnected, henablings⟩ :=
    hq ▸ changes_change hkept.internal hkept.external hnew h
  simp only [Charger.surroundings, Prod.mk.injEq] at hsurroundings
  obtain ⟨hinit, hmonitored, hpending, hindications, hchanges⟩ := hsurroundings
  have hconnected' : q.chgState = .disconnected ↔ new = .disconnected := by
    rw [hconnected]
    split
    · next hold => exact ⟨fun hne => absurd hne (by decide), fun hne => absurd (hold.trans hne.symm) h.1⟩
    · exact Iff.rfl
  have henablings' : q.enablings =
      if Charger.Changed p.chgState new ∧ p.chgState = .boostInternal then p.enablings ++ [⟨p.appEnabled, new⟩]
      else p.enablings := by
    rw [henablings]
    by_cases hin : p.chgState = .boostInternal
    · have hold : p.chgState ≠ .disconnected := by simp [hin]
      rw [if_pos hin, if_neg hold]
      exact (if_pos ⟨h, hin⟩).symm
    · rw [if_neg hin, if_neg fun hboth => hin hboth.2]
  unfold Charger.indicate
  by_cases hsent : q.initCfmSent = true
  · rw [if_pos ⟨hsent, hcycle⟩]
    refine ⟨hmonitored, hpending, hinit, hinternal, hexternal, ?_, ?_, hconnected', henablings'⟩
    · obtain ⟨owed, howed, htold⟩ := hkept.told
      refine ⟨owed, howed, ?_⟩
      dsimp only
      rw [if_pos hsent, hindications, hchanges, htold, List.append_assoc]
    · rintro (hinit' | hcycle')
      · exact absurd (hsent.symm.trans hinit') (by decide)
      · cases hcycle'
  · obtain ⟨hnone, hnochange⟩ := hkept.silent (.inl (by rw [← hinit]; simpa using hsent))
    rw [if_neg fun hboth => hsent hboth.1]
    have hlists : q.indications = [] ∧ (if q.initCfmSent then q.changes ++ [q.chgState] else q.changes) = [] :=
      ⟨hindications.trans hnone, (if_neg hsent).trans (hchanges.trans hnochange)⟩
    exact ⟨hmonitored, hpending, hinit, hinternal, hexternal,
      ⟨[], Nat.zero_le 1, hlists.1.trans hlists.2.symm⟩, fun _ => hlists, hconnected', henablings'⟩

/-- **A monitor event**, but for the current. -/
theorem finds_handled (hkept : p.Kept c) (status : ChargerStatus) :
    Finds p ((p.handled status).1.indicate (p.handled status).2) (p.powerChargerGetState status) := by
  unfold Charger.handled
  dsimp only
  by_cases h : Charger.Changed p.chgState (p.powerChargerGetState status)
  · rw [if_pos h]
    have hnew := (powerChargerGetState_cases p status).resolve_left fun hsame => h.1 hsame.symm
    exact finds_changed hkept hnew h rfl
  · rw [if_neg h]
    exact finds_unchanged hkept h

/-! ### One step -/

/-- What one monitor event does to the state, the pending requests and the enablings. -/
structure Monitored (c : PmuConfig) (p p' : Charger) (r : Readings) : Prop where
  kept : p'.Kept c
  connected : p'.chgState = .disconnected ↔ p.powerChargerGetState r.status = .disconnected
  enablings : p'.enablings =
    if Charger.Changed p.chgState (p.powerChargerGetState r.status) ∧ p.chgState = .boostInternal
    then p.enablings ++ [⟨p.appEnabled, p.powerChargerGetState r.status⟩] else p.enablings
  pending : p'.pending =
    if (if c.monitored then monitorPeriod c r.managed else if p'.chgState = .disconnected then 0 else 1000) = 0
    then 0 else 1

theorem monitored_powerChargerHandleMonitorReq (hkept : p.Kept c) (hnone : p.pending = 0) (r : Readings) :
    Monitored c p (p.powerChargerHandleMonitorReq c r) r := by
  obtain ⟨q, hq⟩ : ∃ q, q = (p.handled r.status).1.indicate (p.handled r.status).2 := ⟨_, rfl⟩
  have hfinds := finds_handled hkept r.status
  rw [← hq] at hfinds
  obtain ⟨hmonitored, hpending, -, hinternal, hexternal, htold, hsilent, hconnected, henablings⟩ := hfinds
  have hmonitored' : q.pmuMonEnabled = c.monitored := hmonitored.trans hkept.monitored
  have hpending' : q.pending = 0 := hpending.trans hnone
  -- the regulation of the current leaves the rest alone
  obtain ⟨current, setting, hmgr⟩ : ∃ current setting,
      (if q.pmuMonEnabled then q.powerChargerReadingMgr c r else q) =
        { q with current := current, chargerISetting := setting } := by
    split
    · unfold Charger.powerChargerReadingMgr
      dsimp only
      split
      · exact ⟨_, _, rfl⟩
      · exact ⟨q.current, q.chargerISetting, rfl⟩
    · exact ⟨q.current, q.chargerISetting, rfl⟩
  unfold Charger.powerChargerHandleMonitorReq
  dsimp only
  rw [← hq, hmgr, hmonitored']
  by_cases hperiod :
      (if c.monitored = true then monitorPeriod c r.managed else if q.chgState = .disconnected then 0 else 1000) = 0
  · rw [if_neg (not_not.mpr hperiod)]
    exact {
      kept := ⟨rfl, hinternal, hexternal, htold, hsilent, hpending'.trans_le (Nat.zero_le 1)⟩
      connected := hconnected
      enablings := henablings
      pending := hpending'.trans (if_pos hperiod).symm }
  · rw [if_pos hperiod]
    have hone : q.pending + 1 = 1 := by rw [hpending']
    exact {
      kept := ⟨rfl, hinternal, hexternal, htold, hsilent, hone.le⟩
      connected := hconnected
      enablings := henablings
      pending := hone.trans (if_neg hperiod).symm }

/-- When a monitor event leaves a charger attached, its period is what counts. -/
theorem Monitored.pending_iff (h : Monitored c p p' r) :
    (p'.chgState ≠ .disconnected → p'.pending = 1) ↔
      (c.monitored = true → r.status ≠ .noPower → (r.status = .other → p.chgState ≠ .disconnected) →
        monitorPeriod c r.managed ≠ 0) := by
  have hread : p'.chgState = .disconnected ↔ r.status = .noPower ∨ r.status = .other ∧ p.chgState = .disconnected := by
    rw [h.connected]
    cases r.status <;> simp [Charger.powerChargerGetState]
  have hattached : p'.chgState ≠ .disconnected ↔
      r.status ≠ .noPower ∧ (r.status = .other → p.chgState ≠ .disconnected) := by
    rw [Ne, hread, not_or, not_and]
  constructor
  · intro hpending hmonitored hpower hother hzero
    have hone := hpending (hattached.mpr ⟨hpower, hother⟩)
    rw [h.pending, if_pos hmonitored, if_pos hzero] at hone
    cases hone
  · intro hperiod hstate
    obtain ⟨hpower, hother⟩ := hattached.mp hstate
    rw [h.pending, if_neg hstate]
    by_cases hmonitored : c.monitored = true
    · rw [if_pos hmonitored, if_neg (hperiod hmonitored hpower hother)]
    · rw [if_neg hmonitored]
      rfl

/-- When the boost is left, the state before the event is what the reset tests. -/
theorem Monitored.enablings_iff (h : Monitored c p p' r)
    (henables : ∀ e ∈ p.enablings, e.appEnabled = true ∧ e.state ≠ .disabled) :
    (∀ e ∈ p'.enablings, e.appEnabled = true ∧ e.state ≠ .disabled) ↔
      (p.chgState = .boostInternal → r.status ≠ .fastCharge → r.status ≠ .other →
        p.appEnabled = true ∧ r.status ≠ .disabledError) := by
  have hleft (hin : p.chgState = .boostInternal) :
      Charger.Changed p.chgState (p.powerChargerGetState r.status) ↔ r.status ≠ .fastCharge ∧ r.status ≠ .other := by
    rw [hin]
    cases r.status <;> simp [Charger.powerChargerGetState, Charger.Changed, ChargerState.ctorIdx, hin]
  have hdisabled (hother : r.status ≠ .other) :
      p.powerChargerGetState r.status ≠ .disabled ↔ r.status ≠ .disabledError := by
    revert hother
    cases r.status <;> simp [Charger.powerChargerGetState]
  rw [h.enablings]
  by_cases hin : p.chgState = .boostInternal
  · by_cases hchanged : r.status ≠ .fastCharge ∧ r.status ≠ .other
    · rw [if_pos ⟨(hleft hin).mpr hchanged, hin⟩, List.forall_mem_append, List.forall_mem_singleton]
      rw [hdisabled hchanged.2]
      exact ⟨fun hall _ _ _ => hall.2, fun hall => ⟨henables, hall hin hchanged.1 hchanged.2⟩⟩
    · rw [if_neg fun hboth => hchanged ((hleft hin).mp hboth.1)]
      exact iff_of_true henables fun _ hfast hother => absurd ⟨hfast, hother⟩ hchanged
  · rw [if_neg fun hboth => hin hboth.2]
    exact iff_of_true henables fun hin' => absurd hin' hin

/-- **One step**: it keeps what is always kept, and the promise exactly if the condition admits it. -/
theorem kept_step (hkept : p.Kept c) (hfollows : Follows p) (h : p.step c e = some p') :
    p'.Kept c ∧ (Follows p' ↔ AdmitsState c p e) := by
  cases hr : p.reads e with
  | some r =>
    have hmonitored : Monitored c { p with pending := p.pending - 1 } p' r := by
      have hpending := hkept.pending
      have hkept' : Charger.Kept c { p with pending := p.pending - 1 } :=
        { hkept with pending := (Nat.sub_le p.pending 1).trans hpending }
      have hnone : p.pending - 1 = 0 := by omega
      have hp' : p' = Charger.powerChargerHandleMonitorReq c { p with pending := p.pending - 1 } r := by
        cases e with
        | monitor r' =>
          obtain rfl := some.inj hr
          exact (some.inj h).symm
        | monitorReq r' =>
          simp only [Charger.reads] at hr
          simp only [Charger.step] at h
          split at hr
          · cases hr
          · next hsome =>
            obtain rfl := some.inj hr
            rw [if_neg hsome] at h
            exact (some.inj h).symm
        | setCurrent _ => cases hr
        | setBoost _ => cases hr
        | enable _ => cases hr
        | initComplete => cases hr
      rw [hp']
      exact monitored_powerChargerHandleMonitorReq hkept' hnone r
    have hkept' := hmonitored.kept
    refine ⟨hkept', ?_⟩
    have henables := hmonitored.enablings_iff hfollows.enables
    have hpending := hmonitored.pending_iff
    constructor
    · intro hfollows' r' hr'
      obtain rfl := some.inj (hr.symm.trans hr')
      exact ⟨henables.mp hfollows'.enables, hpending.mp hfollows'.pending⟩
    · intro hadmits
      obtain ⟨hboost, hperiod⟩ := hadmits r hr
      exact ⟨hkept'.internal, hkept'.external, henables.mpr hboost, hkept'.told, hpending.mpr hperiod⟩
  | none =>
    have hadmits : AdmitsState c p e := fun r' hr' => absurd (hr.symm.trans hr') (by simp)
    obtain ⟨hmonitored, hinternal, hexternal, htold, hsilent, hpending⟩ := hkept
    cases e with try obtain rfl := some.inj h
    | setCurrent current =>
      unfold Charger.powerChargerSetCurrent
      dsimp only
      split
      · split
        · exact ⟨⟨hmonitored, hinternal, hexternal, htold, hsilent, hpending⟩,
            iff_of_true ⟨hinternal, hexternal, hfollows.enables, htold, hfollows.pending⟩ hadmits⟩
        · exact ⟨⟨hmonitored, hinternal, hexternal, htold, hsilent, hpending⟩,
            iff_of_true ⟨hinternal, hexternal, hfollows.enables, htold, hfollows.pending⟩ hadmits⟩
      · exact ⟨⟨hmonitored, hinternal, hexternal, htold, hsilent, hpending⟩,
          iff_of_true ⟨hinternal, hexternal, hfollows.enables, htold, hfollows.pending⟩ hadmits⟩
    | setBoost boost | enable enable =>
      exact ⟨⟨hmonitored, hinternal, hexternal, htold, hsilent, hpending⟩,
        iff_of_true ⟨hinternal, hexternal, hfollows.enables, htold, hfollows.pending⟩ hadmits⟩
    | initComplete =>
      refine ⟨⟨hmonitored, hinternal, hexternal, htold, ?_, hpending⟩,
        iff_of_true ⟨hinternal, hexternal, hfollows.enables, htold, hfollows.pending⟩ hadmits⟩
      rintro (hfalse | hcycle)
      · cases hfalse
      · exact hsilent (.inr hcycle)
    | monitor r => cases hr
    | monitorReq r =>
      simp only [Charger.reads] at hr
      simp only [Charger.step] at h
      split at hr
      · next hnone => rw [if_pos hnone] at h; cases h
      · cases hr

theorem follows_initial : Follows (.initial c.monitored) where
  internal := iff_of_false Bool.false_ne_true ChargerState.noConfusion
  external := iff_of_false Bool.false_ne_true ChargerState.noConfusion
  enables _ he := absurd he (by simp [Charger.initial])
  told := ⟨[], Nat.zero_le 1, rfl⟩
  pending hne := absurd rfl hne

/-- A step that does not take place is admitted. -/
theorem admitsState_of_none (h : p.step c e = none) : AdmitsState c p e := by
  cases e with
  | monitorReq r =>
    simp only [Charger.step] at h
    split at h
    · next hnone =>
      have hreads : p.reads (.monitorReq r) = none := if_pos hnone
      exact fun r' hr' => absurd (hreads.symm.trans hr') (by simp)
    · cases h
  | setCurrent _ => cases h
  | setBoost _ => cases h
  | enable _ => cases h
  | monitor _ => cases h
  | initComplete => cases h

/-- **The charger.** A run keeps the promise in every state it reaches exactly if every step meets the condition. -/
theorem follows_iff (c : PmuConfig) (es : List Event) :
    (∀ fs, fs <+: es → ∀ p, run (Charger.step c) (.initial c.monitored) fs = some p → Follows p) ↔
      RunMeets (Charger.step c) (AdmitsState c) (.initial c.monitored) es :=
  runMeets_iff (fun _ _ _ hkept hfollows h => kept_step hkept hfollows h) (fun _ _ h => admitsState_of_none h) es
    kept_initial follows_initial

/-- A configuration without regulation. -/
def unregulated : PmuConfig := ⟨0, 0, 0, 0, 0, 0, 0, 0⟩

/-- The application disables the charger while it boosts. When the charge is complete it is enabled again. -/
theorem not_alwaysFollows : ¬ AlwaysFollows := by
  intro h
  have hruns : (run (Charger.step unregulated) (.initial unregulated.monitored)
      [.initComplete, .setBoost .internalEnabled, .monitor ⟨.fastCharge, .fastCharge, 0⟩,
        .monitorReq ⟨.fastCharge, .fastCharge, 0⟩, .enable false, .monitorReq ⟨.standby, .standby, 0⟩]).any
        fun p => decide (p.enablings = [⟨false, .complete⟩] ∧ p.enabled = true) := by decide
  obtain ⟨p, hp, henabled⟩ := (any_eq_true _ _).mp hruns
  have hfollows := h unregulated ⟨by decide, by decide, by decide⟩ _ p hp
  have hentry := hfollows.enables ⟨false, .complete⟩ (by rw [(of_decide_eq_true henabled).1]; exact .head _)
  exact absurd hentry.1 (by decide)

end Cbps.Power
