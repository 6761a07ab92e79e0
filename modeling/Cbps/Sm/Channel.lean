import Cbps.Sm.Manager

/-!
# One `DM_SM_INIT_REQ` at a time

All settings go to the stack in a `DM_SM_INIT_REQ`, and its confirm is dispatched on `sm_init_msg`. `Channel` says
that at most one of them is outstanding and that `sm_init_msg` and `setSecurityModeLock` belong to it. A step keeps it
if it sends a `DM_SM_INIT_REQ` only while none is outstanding, which the lock does not ensure: a request for the
default security level does not take it. All other handlers are `Quiet`: they leave the lock, `sm_init_msg` and the
recorded mode alone, and post set-mode requests of the library at most.
-/

namespace Cbps.Sm

open List Option

open Tdl (Bdaddr TypedBdaddr)

/-! ### Handlers that leave the settings alone -/

/-- An effect that is no matter of the settings, or posts a set-mode request of the library. -/
def Effect.Quiet : Effect → Prop
  | .initReq _ | .securityLevelCfm .. | .secModeConfigCfm .. | .panic => False
  | .setScModeReq req => req.theAppTask = cmTask
  | _ => True

/-- What a handler of an authentication does to the settings. -/
structure Quiet (sm : SmState) (r : SmState × List Effect) : Prop where
  mode : r.1.securityMode = sm.securityMode
  msg : r.1.smInitMsg = sm.smInitMsg
  lock : r.1.setSecurityModeLock = sm.setSecurityModeLock
  effects : ∀ e ∈ r.2, e.Quiet

namespace Quiet

variable {sm sm' : SmState} {r : SmState × List Effect}

theorem nothing (sm : SmState) : Quiet sm (sm, []) := ⟨rfl, rfl, rfl, by simp⟩

/-- Further effects. -/
theorem add (h : Quiet sm r) (effects : List Effect) (he : ∀ e ∈ effects, e.Quiet) :
    Quiet sm (r.1, effects ++ r.2) := by
  refine ⟨h.mode, h.msg, h.lock, fun e hmem => ?_⟩
  rcases mem_append.mp hmem with hmem | hmem
  · exact he e hmem
  · exact h.effects e hmem

theorem trans (h : Quiet sm (sm', r.2)) {r' : SmState × List Effect} (h' : Quiet sm' r') :
    Quiet sm (r'.1, r.2 ++ r'.2) := by
  refine ⟨h'.mode.trans h.mode, h'.msg.trans h.msg, h'.lock.trans h.lock, fun e hmem => ?_⟩
  rcases mem_append.mp hmem with hmem | hmem
  · exact h.effects e hmem
  · exact h'.effects e hmem

theorem connectionSendAuthenticateCfm_quiet (task : Task) (cfm : AuthenticateCfm) :
    ∀ e ∈ connectionSendAuthenticateCfm task cfm, e.Quiet := by
  intro e he
  rw [connectionSendAuthenticateCfm] at he
  split at he
  · cases he
  · obtain rfl := mem_singleton.mp he
    trivial

theorem failureCfm_quiet (sm : SmState) (status : AuthenticationStatus) : ∀ e ∈ failureCfm sm status, e.Quiet := by
  rw [failureCfm]
  split
  · simp
  · exact connectionSendAuthenticateCfm_quiet _ _

theorem endLink_quiet (sm : SmState) (status : AuthenticationStatus) : ∀ e ∈ endLink sm status, e.Quiet := by
  intro e he
  rw [endLink] at he
  split at he
  · obtain rfl := mem_singleton.mp he
    trivial
  · split at he <;> (obtain rfl := mem_singleton.mp he; trivial)

theorem endAuthentication_quiet (sm : SmState) (status : AuthenticationStatus) :
    Quiet sm (endAuthentication sm status) := by
  have hboth : ∀ e ∈ failureCfm sm status ++ endLink sm status, e.Quiet := by
    intro e he
    rcases mem_append.mp he with he | he
    · exact failureCfm_quiet sm status e he
    · exact endLink_quiet sm status e he
  rw [endAuthentication]
  split
  · exact ⟨rfl, rfl, rfl, hboth⟩
  · refine ⟨rfl, rfl, rfl, fun e he => ?_⟩
    rcases mem_append.mp he with he | he
    · exact hboth e he
    · obtain rfl := mem_singleton.mp he
      exact rfl

theorem handleBredrKey_quiet (theAppTask : Task) (sm : SmState) (addr : Bdaddr) (words : List ℕ) :
    Quiet sm (handleBredrKey theAppTask sm addr words).2 := by
  have hended : Quiet sm (if sm.securityMode.bonds ∧ bredrKeyType words = .legacy then endAuthentication sm .success
      else (sm, [])) := by
    split
    · exact endAuthentication_quiet sm .success
    · exact nothing sm
  refine ⟨hended.mode, hended.msg, hended.lock, fun e he => ?_⟩
  rcases mem_append.mp he with he | he
  · exact hended.effects e he
  · exact connectionSendAuthenticateCfm_quiet _ _ e he

theorem handleBredrKeys_quiet (theAppTask : Task) (addr : Bdaddr) (keys : List (List ℕ)) (h : Quiet sm r) :
    Quiet sm (handleBredrKeys theAppTask addr keys r) := by
  induction keys generalizing r with
  | nil => exact h
  | cons words keys ih =>
    obtain ⟨sm', effects⟩ := r
    exact ih (Quiet.trans (r := (sm', effects)) h (handleBredrKey_quiet theAppTask sm' addr words))

theorem connectionHandleSmBondingCfm_quiet (sm : SmState) (addr : Bdaddr) (status : ℕ) :
    Quiet sm (connectionHandleSmBondingCfm sm addr status) := by
  rw [connectionHandleSmBondingCfm]
  split
  · exact endAuthentication_quiet ..
  · exact nothing sm

theorem blePairingComplete_quiet (theAppTask : Task) (sm : SmState) : Quiet sm (blePairingComplete theAppTask sm) := by
  refine ⟨rfl, rfl, rfl, fun e he => ?_⟩
  obtain rfl := mem_singleton.mp he
  trivial

theorem pairingFailed_quiet (theAppTask : Task) (sm : SmState) (addr : Bdaddr) (status : ℕ) :
    Quiet sm (pairingFailed theAppTask sm addr status) := by
  rw [pairingFailed]
  split
  · refine ⟨rfl, rfl, rfl, fun e he => ?_⟩
    dsimp only at he
    split at he
    · exact connectionSendAuthenticateCfm_quiet _ _ e he
    · cases he
  · exact nothing sm

theorem simplePairingComplete_quiet (theAppTask : Task) (sm : SmState) (addr : Bdaddr) (status : ℕ) :
    Quiet sm (simplePairingComplete theAppTask sm addr status) := by
  have hfailed := pairingFailed_quiet theAppTask sm addr status
  simp only [simplePairingComplete]
  split
  · exact hfailed
  · exact Quiet.trans hfailed (endAuthentication_quiet ..)

theorem connectionHandleDmAclOpenCfm_quiet (sm : SmState) (addr : Bdaddr) (success : Bool) :
    Quiet sm (connectionHandleDmAclOpenCfm sm addr success) := by
  rw [connectionHandleDmAclOpenCfm]
  split
  · exact nothing sm
  · split
    · refine ⟨rfl, rfl, rfl, fun e he => ?_⟩
      dsimp only at he
      split at he
      · obtain rfl := mem_singleton.mp he
        trivial
      · cases he
    · exact endAuthentication_quiet ..

theorem connectionHandleDmAclOpenInd_quiet (sm : SmState) (status : ℕ) :
    Quiet sm (connectionHandleDmAclOpenInd sm status) := by
  rw [connectionHandleDmAclOpenInd]
  split
  · refine (endAuthentication_quiet sm .timeout).add [.cancelTimeout] fun e he => ?_
    obtain rfl := mem_singleton.mp he
    trivial
  · exact nothing sm

theorem connectionHandleDmAclClosedInd_quiet (sm : SmState) (addr : Bdaddr) :
    Quiet sm (connectionHandleDmAclClosedInd sm addr) := by
  rw [connectionHandleDmAclClosedInd]
  split
  · exact endAuthentication_quiet ..
  · exact nothing sm

theorem connectionHandleReadLocalOobDataCfm_quiet (sm : SmState) (status : ℕ) :
    Quiet sm (connectionHandleReadLocalOobDataCfm sm status) := by
  refine ⟨rfl, rfl, rfl, fun e he => ?_⟩
  rw [connectionHandleReadLocalOobDataCfm] at he
  dsimp only at he
  split at he
  · cases he
  · obtain rfl := mem_singleton.mp he
    trivial

theorem connectionHandleCancelAuthenticationReq_quiet (version : BtVersion) (sm : SmState) (task : Task)
    (force : Bool) : Quiet sm (sm, connectionHandleCancelAuthenticationReq version sm task force) := by
  refine ⟨rfl, rfl, rfl, fun e he => ?_⟩
  dsimp only at he
  rw [connectionHandleCancelAuthenticationReq] at he
  split at he
  · cases he
  · split at he
    · obtain rfl := mem_singleton.mp he
      trivial
    · split at he
      · obtain rfl := mem_singleton.mp he
        trivial
      · cases he

theorem connectionHandleAuthenticationReq_quiet {req : AuthenticationReq}
    (h : connectionHandleAuthenticationReq sm req = some r) : Quiet sm r := by
  rw [connectionHandleAuthenticationReq] at h
  split at h
  · cases h
  · dsimp only at h
    split at h <;> obtain rfl := some.inj h
    · exact ⟨rfl, rfl, rfl, by simp [Effect.Quiet]⟩
    · exact ⟨rfl, rfl, rfl, by simp [Effect.Quiet, connectionSmSetSecurityMode]⟩

theorem connectionHandleReadLocalOobDataReq_quiet {version : BtVersion} {task : Task}
    (h : connectionHandleReadLocalOobDataReq version sm task = some r) : Quiet sm r := by
  rw [connectionHandleReadLocalOobDataReq] at h
  split at h
  · split at h
    · cases h
    · obtain rfl := some.inj h
      exact ⟨rfl, rfl, rfl, by simp [Effect.Quiet]⟩
  · obtain rfl := some.inj h
    exact ⟨rfl, rfl, rfl, by simp [Effect.Quiet]⟩

end Quiet

/-- Quiet effects post set-mode requests of the library at most. -/
theorem Settings.foldl_effect_of_quiet (o : Occasion) {effects : List Effect} (h : ∀ e ∈ effects, e.Quiet)
    (w : Settings) : ∃ posts : List SetScModeReq, (∀ req ∈ posts, req.theAppTask = cmTask) ∧
      effects.foldl (Settings.effect o) w = { w with posted := w.posted ++ posts } := by
  induction effects generalizing w with
  | nil => exact ⟨[], by simp, by simp⟩
  | cons e effects ih =>
    have he := h e mem_cons_self
    obtain ⟨posts, hposts, hfold⟩ := ih (fun e' he' => h e' (mem_cons_of_mem _ he')) (w.effect o e)
    rw [foldl_cons, hfold]
    cases e with
    | setScModeReq req =>
      refine ⟨req :: posts, ?_, ?_⟩
      · intro req' hreq'
        rcases mem_cons.mp hreq' with rfl | hmem
        · exact he
        · exact hposts req' hmem
      · simp [Settings.effect]
    | initReq _ | securityLevelCfm | secModeConfigCfm | panic => exact absurd he id
    | _ => exact ⟨posts, hposts, rfl⟩

/-! ### What clients and the stack promise -/

/-- Clients are tasks other than the library's own, and devices have an address that is not zero. -/
def Promised : Input → Prop
  | .setMode task _ _ | .readOob task => task ≠ 0 ∧ task ≠ cmTask
  | .config req => req.theAppTask ≠ 0 ∧ req.theAppTask ≠ cmTask
  | .authenticate req => (req.task ≠ 0 ∧ req.task ≠ cmTask) ∧ bdaddrIsZero req.bdAddr = false
  | .aclOpenCfm addr _ | .aclOpenedInd addr _ | .aclClosedInd addr | .bondingCfm addr _ | .keysInd _ addr _
  | .simplePairingComplete addr _ => bdaddrIsZero addr = false
  | _ => True

instance (e : Input) : Decidable (Promised e) := by
  unfold Promised
  split <;> infer_instance

/-! ### Requests for a setting -/

namespace SettingReq

/-- The `sm_init_msg` of a request. -/
def msg : SettingReq → SmInitMsg
  | .setMode _ => .smInitSetSecurityMode
  | .config _ => .smInitSetSecurityConfig

/-- The `DM_SM_INIT_REQ` of a request. -/
def initReq : SettingReq → InitReq
  | .setMode req => {
      securityMode := some (connectionConvertSecurityMode req.mode)
      mode3Enc := some req.mode3Enc
      debugMode := some false
      legacyAutoPair := some true }
  | .config req => {
      debugMode := some req.debugKeys
      legacyAutoPair := some req.legacyAutoPairKeyMissing
      writeAuthEnable := some req.writeAuthEnable }

/-- Is the request confirmed at once, since the firmware does not support it? -/
def Refused (version : BtVersion) : SettingReq → Prop
  | .setMode _ => False
  | .config _ => version = .bluetoothUnknown

instance (version : BtVersion) (req : SettingReq) : Decidable (req.Refused version) := by
  unfold Refused
  split <;> infer_instance

/-- A set-mode request is recorded when it is handled, but not during an authentication. -/
def record (sm : SmState) : SettingReq → SmState
  | .setMode req => if sm.authReqLock = 0 then { sm with securityMode := req.mode, encMode := req.mode3Enc } else sm
  | .config _ => sm

/-- The state in which a request is outstanding. -/
def take (sm : SmState) (req : SettingReq) : SmState :=
  { req.record sm with smInitMsg := req.msg, setSecurityModeLock := req.task }

end SettingReq

variable {theAppTask : Task} {version : BtVersion}

/-- A request is refused, put back, or sent to the stack. -/
theorem settingHandler_eq (sm : SmState) (req : SettingReq) : Manager.settingHandler version sm req =
    if req.Refused version then some (sm, [req.answer unsupportedCfm])
    else if sm.setSecurityModeLock ≠ 0 then none
    else some (req.take sm, [.initReq req.initReq]) := by
  cases req with
  | setMode req =>
    rw [if_neg (show ¬ (SettingReq.setMode req).Refused version from id)]
    rfl
  | config req => rfl

/-- Whose request it is: one that a client made, by its number, or a set-mode request of the library. -/
def Known (asked : List SettingReq) (id : Option ℕ) (req : SettingReq) : Prop :=
  match id with
  | none => ∃ mode mode3Enc, req = .setMode ⟨cmTask, mode, mode3Enc⟩
  | some n => asked[n]? = some req ∧ req.task ≠ 0 ∧ req.task ≠ cmTask

variable {req : SettingReq} {asked : List SettingReq} {id : Option ℕ}

theorem Known.concat (h : Known asked id req)
    (req' : SettingReq) : Known (asked ++ [req']) id req := by
  cases id with
  | none => exact h
  | some n =>
    obtain ⟨hget, htask⟩ := h
    obtain ⟨hn, _⟩ := List.getElem?_eq_some_iff.mp hget
    exact ⟨by rw [List.getElem?_append_left hn, hget], htask⟩

theorem Known.new (htask : req.task ≠ 0 ∧ req.task ≠ cmTask) :
    Known (asked ++ [req]) (some asked.length) req := ⟨by simp, htask⟩

theorem Known.task_ne_zero (h : Known asked id req) :
    req.task ≠ 0 := by
  cases id with
  | none =>
    obtain ⟨mode, mode3Enc, rfl⟩ := h
    exact Nat.one_ne_zero
  | some n => exact h.2.1

/-! ### The invariant -/

/-- What the outstanding `DM_SM_INIT_REQ` says about the state. -/
def Init.Owns (sm : SmState) (asked : List SettingReq) (p : Init) : Prop :=
  match p.cause with
  | .defaultLevel => sm.smInitMsg = .smInitSetSecurityDefault ∧ sm.setSecurityModeLock = 0 ∧
      ∃ level, p.req = { securityLevelDefault := some level }
  | .setting id req => Known asked id req ∧ sm.smInitMsg = req.msg ∧ sm.setSecurityModeLock = req.task ∧
      p.req = req.initReq

/-- At most one `DM_SM_INIT_REQ` is outstanding, and `sm_init_msg` and the lock belong to it. -/
def Slot (sm : SmState) (asked : List SettingReq) : List Init → Prop
  | [] => sm.smInitMsg = .smInitSetNone ∧ sm.setSecurityModeLock = 0
  | [p] => p.Owns sm asked
  | _ => False

/-- The numbers of the requests that wait or are answered. -/
def Settings.places (w : Settings) : List ℕ :=
  w.confirms.filterMap SettingCfm.id ++ w.held.filterMap Prod.fst ++ w.inits.filterMap fun p => p.cause.id

/-- Every request is confirmed in kind, to its task, by the status of its own `DM_SM_INIT_REQ`, and each is held,
outstanding or confirmed once. -/
structure Channel (m : Manager) : Prop where
  posted : ∀ req ∈ m.settings.posted, req.theAppTask = cmTask
  held : ∀ x ∈ m.settings.held, Known m.settings.asked x.1 x.2
  slot : Slot m.sm m.settings.asked m.settings.inits
  confirms : ∀ c ∈ m.settings.confirms, ∃ id req, c.id = some id ∧ m.settings.asked[id]? = some req ∧
    c.sent = req.answer c.cfm
  places : m.settings.places.Perm (List.range m.settings.asked.length)
  running : m.panicked = false

/-- What a step without a matter of settings leaves of them. -/
structure QuietStep (m m' : Manager) : Prop where
  mode : m'.sm.securityMode = m.sm.securityMode
  msg : m'.sm.smInitMsg = m.sm.smInitMsg
  lock : m'.sm.setSecurityModeLock = m.sm.setSecurityModeLock
  settings : ∃ posts : List SetScModeReq, (∀ req ∈ posts, req.theAppTask = cmTask) ∧
    m'.settings = { m.settings with posted := m.settings.posted ++ posts }
  panicked : m'.panicked = m.panicked

theorem Quiet.step {m m' : Manager} {r : SmState × List Effect} {o : Occasion} (h : Quiet m.sm r)
    (hsm : m'.sm = r.1) (hsettings : m'.settings = r.2.foldl (Settings.effect o) m.settings)
    (hpanicked : m'.panicked = (m.panicked || r.2.contains .panic)) : QuietStep m m' := by
  obtain ⟨posts, hposts, hfold⟩ := Settings.foldl_effect_of_quiet o h.effects m.settings
  refine ⟨hsm ▸ h.mode, hsm ▸ h.msg, hsm ▸ h.lock, ⟨posts, hposts, hsettings.trans hfold⟩, ?_⟩
  have hno : r.2.contains .panic = false := by
    rw [contains_eq_mem, decide_eq_false_iff_not]
    exact fun hmem => h.effects _ hmem
  rw [hpanicked, hno, Bool.or_false]

theorem QuietStep.of_same {m m' : Manager} (hsm : m'.sm = m.sm) (hsettings : m'.settings = m.settings)
    (hpanicked : m'.panicked = m.panicked) : QuietStep m m' :=
  ⟨by rw [hsm], by rw [hsm], by rw [hsm], ⟨[], by simp, by rw [hsettings]; simp⟩, hpanicked⟩

/-- The steps that are a matter of settings. -/
def Input.isSetting : Input → Prop
  | .setMode .. | .config _ | .defaultLevel _ | .heldSetting _ | .postedMode | .initCfm _ => True
  | _ => False

namespace Manager

variable {m m' : Manager} {e : Input}

theorem handleAuthenticate_quiet (id : ℕ) (req : AuthenticationReq) : QuietStep m (m.handleAuthenticate id req) := by
  rw [handleAuthenticate]
  split
  · exact .of_same rfl rfl rfl
  · rename_i h
    exact (Quiet.connectionHandleAuthenticationReq_quiet h).step rfl rfl rfl

theorem handleReadOob_quiet (task : Task) : QuietStep m (m.handleReadOob version task) := by
  rw [handleReadOob]
  split
  · exact .of_same rfl rfl rfl
  · rename_i h
    exact (Quiet.connectionHandleReadLocalOobDataReq_quiet h).step rfl rfl rfl

/-- All other steps are quiet. -/
theorem step_quiet (he : ¬ e.isSetting) (h : step theAppTask version m e = some m') : QuietStep m m' := by
  cases e with try obtain rfl := some.inj h
  | setMode | config | defaultLevel | heldSetting | postedMode | initCfm => exact absurd trivial he
  | authenticate req =>
    have hquiet := handleAuthenticate_quiet
      (m := { m with sessions := { m.sessions with asked := m.sessions.asked ++ [req] } }) m.sessions.asked.length req
    exact ⟨hquiet.mode, hquiet.msg, hquiet.lock, hquiet.settings, hquiet.panicked⟩
  | readOob task => exact handleReadOob_quiet task
  | heldAuth n =>
    rw [step] at h
    split at h
    · cases h
    · obtain ⟨w, _, rfl⟩ := map_eq_some_iff.mp h
      have hquiet : ∀ m0 : Manager, QuietStep m0 (handleWaiting version m0 w) := by
        intro m0
        cases w with
        | authenticate id req => exact handleAuthenticate_quiet id req
        | readOob task => exact handleReadOob_quiet task
      have hstep := hquiet { m with sessions := { m.sessions with held := m.sessions.held.eraseIdx n } }
      exact ⟨hstep.mode, hstep.msg, hstep.lock, hstep.settings, hstep.panicked⟩
  | cancel task force =>
    exact (Quiet.connectionHandleCancelAuthenticationReq_quiet version m.sm task force).step rfl rfl rfl
  | oobCfm status =>
    rw [step] at h
    split at h
    · cases h
    · obtain rfl := some.inj h
      exact (Quiet.connectionHandleReadLocalOobDataCfm_quiet m.sm status).step rfl rfl rfl
  | aclOpenCfm addr success =>
    exact (Quiet.connectionHandleDmAclOpenCfm_quiet m.sm addr success).step rfl rfl rfl
  | aclOpenedInd addr status => exact (Quiet.connectionHandleDmAclOpenInd_quiet m.sm status).step rfl rfl rfl
  | aclClosedInd addr => exact (Quiet.connectionHandleDmAclClosedInd_quiet m.sm addr).step rfl rfl rfl
  | bondingCfm addr status =>
    exact (Quiet.connectionHandleSmBondingCfm_quiet m.sm addr status).step rfl rfl rfl
  | keysInd taddr addr keys =>
    refine (Quiet.handleBredrKeys_quiet theAppTask addr keys ?_).step rfl rfl rfl
    cases taddr with
    | none => exact Quiet.nothing m.sm
    | some taddr => exact ⟨rfl, rfl, rfl, by simp⟩
  | simplePairingComplete addr status =>
    exact (Quiet.simplePairingComplete_quiet theAppTask m.sm addr status).step rfl rfl rfl
  | bleSimplePairingComplete =>
    exact (Quiet.blePairingComplete_quiet theAppTask m.sm).step (o := .request) rfl rfl rfl
  | timeout n =>
    obtain ⟨id, _, rfl⟩ := map_eq_some_iff.mp h
    exact (Quiet.endAuthentication_quiet m.sm .timeout).step rfl rfl rfl

end Manager

/-! ### Steps -/

namespace Channel

variable {m m' : Manager}

theorem quiet (h : Channel m) (hstep : QuietStep m m') : Channel m' := by
  obtain ⟨posts, hposts, hsettings⟩ := hstep.settings
  refine ⟨?_, ?_, ?_, ?_, ?_, hstep.panicked.trans h.running⟩
  · intro req hreq
    rw [hsettings] at hreq
    rcases mem_append.mp hreq with hmem | hmem
    · exact h.posted req hmem
    · exact hposts req hmem
  · rw [hsettings]
    exact h.held
  · have hslot := h.slot
    rw [hsettings]
    change Slot m'.sm m.settings.asked m.settings.inits
    revert hslot
    match m.settings.inits with
    | [] => exact fun hslot => ⟨hstep.msg.trans hslot.1, hstep.lock.trans hslot.2⟩
    | [p] =>
      intro hslot
      simp only [Slot, Init.Owns] at hslot ⊢
      split at hslot
      · exact ⟨hstep.msg.trans hslot.1, hstep.lock.trans hslot.2.1, hslot.2.2⟩
      · exact ⟨hslot.1, hstep.msg.trans hslot.2.1, hstep.lock.trans hslot.2.2.1, hslot.2.2.2⟩
    | _ :: _ :: _ => exact fun hslot => hslot.elim
  · rw [hsettings]
    exact h.confirms
  · rw [hsettings]
    exact h.places

/-- The sessions play no part. -/
theorem of_settings (h : Channel m) (hsm : m'.sm = m.sm) (hsettings : m'.settings = m.settings)
    (hpanicked : m'.panicked = m.panicked) : Channel m' := by
  refine ⟨hsettings ▸ h.posted, hsettings ▸ h.held, ?_, hsettings ▸ h.confirms, hsettings ▸ h.places,
    hpanicked.trans h.running⟩
  rw [hsm, hsettings]
  exact h.slot

/-- While the lock is taken by a request, that request is outstanding; while it is free, no such request is. -/
theorem lock_iff (h : Channel m) :
    m.sm.setSecurityModeLock ≠ 0 ↔ ∃ p ∈ m.settings.inits, p.cause ≠ .defaultLevel := by
  have hslot := h.slot
  revert hslot
  match m.settings.inits with
  | [] =>
    intro hslot
    simp [hslot.2]
  | [p] =>
    intro hslot
    simp only [Slot, Init.Owns] at hslot
    split at hslot
    · rename_i hcause
      simp [hslot.2.1, hcause]
    · rename_i id req hcause
      simp [hslot.2.2.1, hcause, hslot.1.task_ne_zero]
  | _ :: _ :: _ => exact fun hslot => hslot.elim

/-- A request is handled: refused, put back or sent. It is one of those that are not placed yet. -/
theorem handleSetting (hposted : ∀ req ∈ m.settings.posted, req.theAppTask = cmTask)
    (hheld : ∀ x ∈ m.settings.held, Known m.settings.asked x.1 x.2)
    (hslot : Slot m.sm m.settings.asked m.settings.inits)
    (hconfirms : ∀ c ∈ m.settings.confirms, ∃ id req, c.id = some id ∧ m.settings.asked[id]? = some req ∧
      c.sent = req.answer c.cfm)
    (hplaces : (id.toList ++ m.settings.places).Perm (List.range m.settings.asked.length))
    (hrunning : m.panicked = false) (hknown : Known m.settings.asked id req)
    (hfree : m.sm.setSecurityModeLock = 0 → ¬ req.Refused version → m.settings.inits = []) :
    Channel (m.handleSetting version id req) := by
  rw [Manager.handleSetting, settingHandler_eq]
  by_cases href : req.Refused version
  · -- the client is told at once that the firmware does not support it
    rw [if_pos href]
    cases req with
    | setMode req => exact href.elim
    | config req =>
      cases id with
      | none =>
        obtain ⟨mode, mode3Enc, hreq⟩ := hknown
        cases hreq
      | some n =>
        refine ⟨hposted, hheld, hslot, ?_, ?_, ?_⟩
        · intro c hc
          rcases mem_append.mp hc with hmem | hmem
          · exact hconfirms c hmem
          · obtain rfl := mem_singleton.mp hmem
            exact ⟨n, .config req, rfl, hknown.1, rfl⟩
        · refine List.Perm.trans ?_ hplaces
          simp only [Settings.places, Manager.after, foldl_cons, foldl_nil, SettingReq.answer,
            Settings.effect, filterMap_append, Occasion.id, toList_some]
          simp only [List.append_assoc, singleton_append]
          exact perm_middle
        · simpa [Manager.after, SettingReq.answer] using hrunning
  rw [if_neg href]
  by_cases hlock : m.sm.setSecurityModeLock = 0
  · -- the request takes the lock
    rw [if_neg (not_not.mpr hlock)]
    have hinits := hfree hlock href
    refine ⟨hposted, hheld, ?_, hconfirms, ?_, ?_⟩
    · have hnew : ((m.after (.setting id req) (req.take m.sm, [.initReq req.initReq])).settings.inits) =
          [⟨.setting id req, req.initReq⟩] := by
        simp [Manager.after, Settings.effect, hinits, Occasion.cause]
      rw [hnew]
      exact ⟨hknown, rfl, rfl, rfl⟩
    · refine List.Perm.trans ?_ hplaces
      simp only [Settings.places, Manager.after, foldl_cons, foldl_nil, Settings.effect, hinits,
        nil_append, Occasion.cause, filterMap_nil, append_nil]
      cases id with
      | none => exact List.Perm.of_eq (by simp [Cause.id])
      | some n =>
        have hlast := perm_append_singleton n
          (m.settings.confirms.filterMap SettingCfm.id ++ m.settings.held.filterMap Prod.fst)
        simpa [Cause.id] using hlast
    · simpa [Manager.after] using hrunning
  · -- the request waits for the lock
    rw [if_pos hlock]
    refine ⟨hposted, ?_, hslot, hconfirms, ?_, hrunning⟩
    · intro x hx
      rcases mem_append.mp hx with hmem | hmem
      · exact hheld x hmem
      · obtain rfl := mem_singleton.mp hmem
        exact hknown
    · refine List.Perm.trans ?_ hplaces
      simp only [Settings.places, filterMap_append, List.append_assoc]
      cases id with
      | none => exact List.Perm.of_eq (by simp)
      | some n =>
        have hmiddle : (m.settings.confirms.filterMap SettingCfm.id ++ m.settings.held.filterMap Prod.fst ++
            n :: m.settings.inits.filterMap fun p => p.cause.id).Perm (n :: (m.settings.confirms.filterMap
              SettingCfm.id ++ m.settings.held.filterMap Prod.fst ++ m.settings.inits.filterMap
                fun p => p.cause.id)) := perm_middle
        simpa using hmiddle

end Channel

/-! ### The confirm of a `DM_SM_INIT_REQ` -/

theorem handleInternalSetSecurityModeCfm_quiet (sm : SmState) (cfm : InitCfm) :
    Quiet sm (handleInternalSetSecurityModeCfm sm cfm) := by
  rw [handleInternalSetSecurityModeCfm]
  split
  · split
    · exact ⟨rfl, rfl, rfl, by simp⟩
    · exact ⟨rfl, rfl, rfl, by simp [Effect.Quiet]⟩
  · exact Quiet.nothing sm

/-- The confirms that a client gets for an answered `DM_SM_INIT_REQ`. -/
def Cause.confirms (cfm : InitCfm) : Cause → List SettingCfm
  | .setting (some n) req => [⟨some n, cfm, req.answer cfm⟩]
  | _ => []

theorem Cause.confirms_of_id_none {cause : Cause} (h : cause.id = none) (cfm : InitCfm) : cause.confirms cfm = [] := by
  cases cause with
  | defaultLevel => rfl
  | setting id req =>
    obtain rfl : id = none := h
    rfl

/-- The confirm is dispatched to the handler of the request that is outstanding. -/
structure Answers (sm : SmState) (p : Init) (cfm : InitCfm) (r : SmState × List Effect) : Prop where
  mode : r.1.securityMode = sm.securityMode
  msg : r.1.smInitMsg = .smInitSetNone
  lock : r.1.setSecurityModeLock = 0
  client : ∀ n req, p.cause = .setting (some n) req → r.2 = [req.answer cfm]
  library : p.cause.id = none → ∀ e ∈ r.2, e.Quiet

theorem Init.Owns.answers {sm : SmState} {p : Init} (h : p.Owns sm asked) (cfm : InitCfm) :
    Answers sm p cfm (initCfmReady sm cfm) := by
  rw [Init.Owns] at h
  split at h
  · rename_i hcause
    obtain ⟨hmsg, hlock, _⟩ := h
    simp only [initCfmReady, hmsg]
    refine ⟨rfl, rfl, hlock, ?_, fun _ e he => absurd he not_mem_nil⟩
    intro n req hreq
    rw [hcause] at hreq
    cases hreq
  · rename_i id req hcause
    obtain ⟨hknown, hmsg, hlock, _⟩ := h
    cases id with
    | none =>
      obtain ⟨mode, mode3Enc, rfl⟩ := hknown
      have hquiet := handleInternalSetSecurityModeCfm_quiet sm cfm
      have hown : sm.setSecurityModeLock = cmTask := hlock
      simp only [initCfmReady, hmsg, SettingReq.msg, connectionHandleSetSecurityModeCfm, if_pos hown]
      refine ⟨hquiet.mode, rfl, rfl, ?_, fun _ => hquiet.effects⟩
      intro n req hreq
      rw [hcause] at hreq
      cases hreq
    | some n =>
      obtain ⟨_, hne, hcm⟩ := hknown
      rw [← hlock] at hne hcm
      have hclient : ∀ n' req', p.cause = .setting (some n') req' → req' = req := by
        intro n' req' hreq
        rw [hcause] at hreq
        cases hreq
        rfl
      have hlib : p.cause.id = none → False := by
        intro hnone
        rw [hcause] at hnone
        cases hnone
      cases req with
      | setMode req =>
        simp only [initCfmReady, hmsg, SettingReq.msg, connectionHandleSetSecurityModeCfm, if_neg hcm, if_neg hne]
        refine ⟨rfl, rfl, rfl, ?_, fun hnone => (hlib hnone).elim⟩
        intro n' req' hreq
        rw [hclient n' req' hreq, SettingReq.answer, hlock]
        rfl
      | config req =>
        have hfree : ¬ (sm.setSecurityModeLock = 0 ∨ sm.setSecurityModeLock = cmTask) := not_or.mpr ⟨hne, hcm⟩
        simp only [initCfmReady, hmsg, SettingReq.msg, connectionHandleConfigureSecurityCfm, if_neg hfree]
        refine ⟨rfl, rfl, rfl, ?_, fun hnone => (hlib hnone).elim⟩
        intro n' req' hreq
        rw [hclient n' req' hreq, SettingReq.answer, hlock]
        rfl

namespace Channel

variable {m m' : Manager} {p : Init} {rest : List Init} {cfm : InitCfm}

/-- Where one is answered, it was the only one. -/
theorem owns (h : Channel m) (hinits : m.settings.inits = p :: rest) :
    rest = [] ∧ p.Owns m.sm m.settings.asked := by
  have hslot := h.slot
  rw [hinits] at hslot
  cases rest with
  | nil => exact ⟨rfl, hslot⟩
  | cons _ _ => exact hslot.elim

/-- The settings after the answer: the stack's options and the last accepted mode, and a confirm to the client, if a
client made the request. -/
theorem settings_answerInit (h : Channel m) (hinits : m.settings.inits = p :: rest) (cfm : InitCfm) :
    ∃ posts : List SetScModeReq, (∀ req ∈ posts, req.theAppTask = cmTask) ∧
      (m.answerInit p rest cfm).settings =
        { m.settings with
          inits := []
          posted := m.settings.posted ++ posts
          confirms := m.settings.confirms ++ p.cause.confirms cfm
          accepted := if cfm.status = 0 then acceptMode m.settings.accepted p.cause else m.settings.accepted
          stack := if cfm.status = 0 then m.settings.stack.set p.req else m.settings.stack
          wanted := if cfm.status = 0 then m.settings.wanted.ask p.cause else m.settings.wanted } := by
  obtain ⟨rfl, howns⟩ := h.owns hinits
  have hans := howns.answers cfm
  cases hid : p.cause.id with
  | none =>
    obtain ⟨posts, hposts, hfold⟩ := Settings.foldl_effect_of_quiet (.initCfm p.cause.id cfm) (hans.library hid)
      (if cfm.status = 0 then
        { m.settings with
          inits := []
          accepted := acceptMode m.settings.accepted p.cause
          stack := m.settings.stack.set p.req
          wanted := m.settings.wanted.ask p.cause }
      else { m.settings with inits := [] })
    refine ⟨posts, hposts, ?_⟩
    rw [Cause.confirms_of_id_none hid, Manager.answerInit, Manager.after]
    dsimp only
    rw [hfold]
    split <;> simp
  | some n =>
    have hcause : ∃ req, p.cause = .setting (some n) req := by
      cases hp : p.cause with
      | defaultLevel =>
        rw [hp] at hid
        cases hid
      | setting id req =>
        rw [hp] at hid
        exact ⟨req, by rw [show id = some n from hid]⟩
    obtain ⟨req, hcause⟩ := hcause
    refine ⟨[], by simp, ?_⟩
    rw [Manager.answerInit, Manager.after]
    dsimp only
    rw [hans.client n req hcause, hcause]
    cases req <;> (split <;> simp [SettingReq.answer, Settings.effect, Occasion.id, Occasion.cfm, Cause.id,
      Cause.confirms])

theorem panicked_answerInit (h : Channel m) (hinits : m.settings.inits = p :: rest) :
    (m.answerInit p rest cfm).panicked = false := by
  obtain ⟨rfl, howns⟩ := h.owns hinits
  have hans := howns.answers cfm
  have hno : (initCfmReady m.sm cfm).2.contains .panic = false := by
    rw [contains_eq_mem, decide_eq_false_iff_not]
    intro hmem
    cases hcause : p.cause with
    | defaultLevel => exact hans.library (by rw [hcause]; rfl) _ hmem
    | setting id req =>
      cases id with
      | none => exact hans.library (by rw [hcause]; rfl) _ hmem
      | some n =>
        rw [hans.client n req hcause] at hmem
        cases req <;> simp [SettingReq.answer] at hmem
  rw [Manager.answerInit, Manager.after]
  dsimp only
  rw [hno, Bool.or_false]
  exact h.running

theorem answerInit (h : Channel m) (hinits : m.settings.inits = p :: rest) : Channel (m.answerInit p rest cfm) := by
  obtain ⟨rfl, howns⟩ := h.owns hinits
  have hans := howns.answers cfm
  obtain ⟨posts, hposts, hsettings⟩ := h.settings_answerInit hinits cfm
  have hplaces := h.places
  refine ⟨?_, ?_, ?_, ?_, ?_, h.panicked_answerInit hinits⟩
  · intro req hreq
    rw [hsettings] at hreq
    rcases mem_append.mp hreq with hmem | hmem
    · exact h.posted req hmem
    · exact hposts req hmem
  · rw [hsettings]
    exact h.held
  · rw [hsettings]
    exact ⟨hans.msg, hans.lock⟩
  · rw [hsettings]
    intro c hc
    rcases mem_append.mp hc with hmem | hmem
    · exact h.confirms c hmem
    · cases hcause : p.cause with
      | defaultLevel =>
        rw [hcause] at hmem
        cases hmem
      | setting id req =>
        rw [hcause] at hmem
        rw [Init.Owns, hcause] at howns
        cases id with
        | none => cases hmem
        | some n =>
          obtain rfl := mem_singleton.mp hmem
          exact ⟨n, req, rfl, howns.1.1, rfl⟩
  · rw [hsettings]
    rw [Settings.places, hinits] at hplaces
    refine List.Perm.trans ?_ hplaces
    simp only [Settings.places, filterMap_append, filterMap_nil, append_nil]
    cases hcause : p.cause with
    | defaultLevel => exact List.Perm.of_eq (by simp [hcause, Cause.confirms, Cause.id])
    | setting id req =>
      cases id with
      | none => exact List.Perm.of_eq (by simp [hcause, Cause.confirms, Cause.id])
      | some n =>
        have hmiddle : (m.settings.confirms.filterMap SettingCfm.id ++ ([n] ++
            m.settings.held.filterMap Prod.fst)).Perm (m.settings.confirms.filterMap SettingCfm.id ++
              (m.settings.held.filterMap Prod.fst ++ [n])) :=
          perm_append_comm.append_left _
        simpa [hcause, Cause.confirms, Cause.id] using hmiddle

end Channel

/-! ### The condition -/

/-- The set-mode or config request that a step hands to its handler. -/
def Manager.handles (m : Manager) : Input → Option (Option ℕ × SettingReq)
  | .setMode task mode encMode => some (some m.settings.asked.length, .setMode ⟨task, mode, encMode⟩)
  | .config req => some (some m.settings.asked.length, .config req)
  | .heldSetting n => m.settings.held[n]?
  | .postedMode => m.settings.posted.head?.map fun req => (none, .setMode req)
  | _ => none

/-- The set-mode or config request that a step sends to the stack. -/
def Manager.sends (version : BtVersion) (m : Manager) (e : Input) : Option (Option ℕ × SettingReq) :=
  (m.handles e).filter fun x => m.sm.setSecurityModeLock = 0 ∧ ¬ x.2.Refused version

/-- A `DM_SM_INIT_REQ` is sent only while none is outstanding. -/
def OneAtATime (version : BtVersion) (m : Manager) (e : Input) : Prop :=
  ((m.sends version e).isSome → m.settings.inits = []) ∧
    match e with
    | .defaultLevel req => req.levelKnown → req.protocolUnknown → m.settings.inits = []
    | _ => True

instance (version : BtVersion) (m : Manager) (e : Input) : Decidable (OneAtATime version m e) := by
  unfold OneAtATime
  split <;> infer_instance

namespace Channel

variable {m m' : Manager} {e : Input}

theorem free_of_handles (hok : OneAtATime version m e)
    (h : m.handles e = some (id, req)) (hlock : m.sm.setSecurityModeLock = 0) (href : ¬ req.Refused version) :
    m.settings.inits = [] := by
  refine hok.1 ?_
  rw [Manager.sends, h]
  simp [hlock, href]

theorem ask (h : Channel m) (htask : req.task ≠ 0 ∧ req.task ≠ cmTask)
    (hfree : m.sm.setSecurityModeLock = 0 → ¬ req.Refused version → m.settings.inits = []) :
    Channel (m.askSetting version req) := by
  refine handleSetting h.posted (fun x hx => (h.held x hx).concat req) ?_ ?_ ?_ h.running (.new htask) hfree
  · have hslot := h.slot
    change Slot m.sm (m.settings.asked ++ [req]) m.settings.inits
    revert hslot
    match m.settings.inits with
    | [] => exact id
    | [p] =>
      intro hslot
      simp only [Slot, Init.Owns] at hslot ⊢
      split at hslot
      · exact hslot
      · exact ⟨hslot.1.concat req, hslot.2⟩
    | _ :: _ :: _ => exact fun hslot => hslot.elim
  · intro c hc
    obtain ⟨n, req', hid, hget, hsent⟩ := h.confirms c hc
    obtain ⟨hn, _⟩ := List.getElem?_eq_some_iff.mp hget
    exact ⟨n, req', hid, by rw [List.getElem?_append_left hn, hget], hsent⟩
  · have hlen : (m.settings.asked ++ [req]).length = m.settings.asked.length + 1 := by simp
    dsimp only
    rw [hlen, range_succ]
    exact (List.Perm.cons _ h.places).trans (perm_append_singleton _ _).symm

theorem held_eraseIdx (h : Channel m) {n : ℕ}
    (hget : m.settings.held[n]? = some (id, req))
    (hfree : m.sm.setSecurityModeLock = 0 → ¬ req.Refused version → m.settings.inits = []) :
    Channel (Manager.handleSetting version
      { m with settings := { m.settings with held := m.settings.held.eraseIdx n } } id req) := by
  obtain ⟨hn, hn'⟩ := List.getElem?_eq_some_iff.mp hget
  refine handleSetting h.posted (fun x hx => h.held x (mem_of_mem_eraseIdx hx)) h.slot h.confirms ?_ h.running
    (h.held (id, req) (mem_of_getElem? hget)) hfree
  have hperm : m.settings.held.Perm ((id, req) :: m.settings.held.eraseIdx n) :=
    hn' ▸ (getElem_cons_eraseIdx_perm hn).symm
  have hids := hperm.filterMap Prod.fst
  refine List.Perm.trans ?_ h.places
  rw [Settings.places, Settings.places]
  -- the request moves from its place among the held ones to the front
  have hcons : ((id, req) :: m.settings.held.eraseIdx n).filterMap Prod.fst =
      id.toList ++ (m.settings.held.eraseIdx n).filterMap Prod.fst := by
    cases id <;> rfl
  rw [hcons] at hids
  dsimp only
  refine List.Perm.trans ?_ ((hids.symm.append_left _).append_right _)
  simp only [← List.append_assoc]
  exact (perm_append_comm.append_right _).append_right _

/-- A request for the default security level. -/
theorem defaultLevel (h : Channel m) {req : SetSspSecurityLevelReq}
    (hfree : req.levelKnown → req.protocolUnknown → m.settings.inits = []) :
    Channel (m.after .defaultLevel (handleSetSspSecurityLevelReq m.sm req)) := by
  rw [handleSetSspSecurityLevelReq]
  split
  · rename_i hlevel
    split
    · rename_i hprotocol
      have hinits := hfree hlevel hprotocol
      have hslot := h.slot
      have hplaces := h.places
      rw [hinits] at hslot
      refine ⟨h.posted, h.held, ?_, h.confirms, ?_, ?_⟩
      · simp only [Manager.after, foldl_cons, foldl_nil, Settings.effect, hinits, nil_append,
          Occasion.cause]
        exact ⟨rfl, hslot.2, _, rfl⟩
      · rw [Settings.places, hinits] at hplaces
        simpa [Settings.places, Manager.after, Settings.effect, hinits, Occasion.cause, Cause.id] using hplaces
      · simpa [Manager.after] using h.running
    · exact h.quiet ((Quiet.nothing m.sm).add [.registerReq req.securityLevel]
        (by simp [Effect.Quiet]) |>.step (o := .defaultLevel) rfl rfl rfl)
  · exact h.quiet ((Quiet.nothing m.sm).step (o := .defaultLevel) rfl rfl rfl)

/-- **The step rule.** -/
theorem step (h : Channel m) (hpromised : Promised e) (hok : OneAtATime version m e)
    (hstep : Manager.step theAppTask version m e = some m') : Channel m' := by
  cases e with
  | setMode task mode encMode | config req =>
    obtain rfl := some.inj hstep
    exact h.ask hpromised (free_of_handles hok rfl)
  | defaultLevel req =>
    obtain rfl := some.inj hstep
    exact h.defaultLevel hok.2
  | heldSetting n =>
    rw [Manager.step] at hstep
    split at hstep
    · cases hstep
    · obtain ⟨⟨id, req⟩, hget, rfl⟩ := map_eq_some_iff.mp hstep
      exact h.held_eraseIdx hget (free_of_handles hok hget)
  | postedMode =>
    rw [Manager.step] at hstep
    split at hstep
    · cases hstep
    · rename_i req rest hposted
      obtain rfl := some.inj hstep
      have hmem : ∀ req' ∈ req :: rest, req'.theAppTask = cmTask := hposted ▸ h.posted
      obtain ⟨task, mode, mode3Enc⟩ := req
      obtain rfl : task = cmTask := hmem _ mem_cons_self
      have hhandles : m.handles .postedMode = some (none, .setMode ⟨cmTask, mode, mode3Enc⟩) := by
        rw [Manager.handles, hposted]
        rfl
      exact handleSetting (fun req' hreq' => hmem req' (mem_cons_of_mem _ hreq')) h.held h.slot h.confirms
        h.places h.running ⟨mode, mode3Enc, rfl⟩ (free_of_handles (m := m) hok hhandles)
  | initCfm cfm =>
    rw [Manager.step] at hstep
    split at hstep
    · cases hstep
    · rename_i p rest hinits
      obtain rfl := some.inj hstep
      exact h.answerInit hinits
  | _ => exact h.quiet (Manager.step_quiet (by exact id) hstep)

end Channel

/-! ### The first state -/

/-- The options after the initialisation. -/
def Options.initial : Options := ⟨false, true, .aclOwnerNone⟩

/-- The state in which the library is ready, with the settings it was initialised with. -/
def Manager.ready (mode : DmSecurityMode) (encMode : ℕ) (options : Options) : Manager where
  sm := { securityMode := mode, encMode := encMode }
  settings := { accepted := mode, stack := options, wanted := options }

theorem channel_ready (mode : DmSecurityMode) (encMode : ℕ) (options : Options) :
    Channel (.ready mode encMode options) :=
  ⟨by simp [Manager.ready], by simp [Manager.ready], ⟨rfl, rfl⟩, by simp [Manager.ready], .refl _, rfl⟩

/-- **Every setting is answered once**, whatever its mode and its options, as long as a `DM_SM_INIT_REQ` is sent only while
none is outstanding. -/
theorem channel_of_run {theAppTask : Task} {version : BtVersion} {mode : DmSecurityMode} {encMode : ℕ}
    {options : Options} {es : List Input} {m : Manager}
    (hok : Lib.RunMeets (Manager.step theAppTask version) (fun m e => Promised e ∧ OneAtATime version m e)
      (.ready mode encMode options) es)
    (hrun : Lib.run (Manager.step theAppTask version) (.ready mode encMode options) es = some m) :
    Channel m ∧ m.settings.inits.length ≤ 1 ∧ (m.settings.held = [] → m.settings.inits = [] →
      (m.settings.confirms.filterMap SettingCfm.id).Perm (List.range m.settings.asked.length)) := by
  have h : Channel m := Lib.run_invariant (fun _ _ _ h hok hstep => h.step hok.1 hok.2 hstep)
    (channel_ready mode encMode options) hok hrun
  refine ⟨h, ?_, fun hheld hinits => ?_⟩
  · rcases hinits : m.settings.inits with - | ⟨p, - | ⟨q, rest⟩⟩
    · exact Nat.zero_le 1
    · exact Nat.le_refl 1
    · have hslot := h.slot
      rw [hinits] at hslot
      exact hslot.elim
  · have hplaces := h.places
    rwa [Settings.places, hheld, hinits, filterMap_nil, filterMap_nil, append_nil, append_nil] at hplaces

theorem channel_setMode : ∃ m, Lib.run (Manager.step 2 .bluetooth4_0) (.ready .secMode4Ssp 0 .initial)
    [.setMode 2 .secMode2Service 1, .initCfm ⟨0, .always, true⟩] = some m ∧ Channel m :=
  ⟨_, rfl, (@channel_of_run 2 .bluetooth4_0 .secMode4Ssp 0 .initial
    [.setMode 2 .secMode2Service 1, .initCfm ⟨0, .always, true⟩] _ (by decide) rfl).1⟩

end Cbps.Sm
