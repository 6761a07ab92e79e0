import Cbps.Sm.Channel

/-!
# Settings are answered in kind and kept

Over a run of requests for settings and of authentications, `Kept` is what a client relies on: one confirm of its own
kind for each request, the lock while a request is outstanding, the recorded mode, and the options as they were asked
for last. The code does not keep it. A request for the default security level overwrites `sm_init_msg` under another
request; a set-mode request is recorded when it is made and not when it is accepted, and not at all while an
authentication is active; and it puts back the debug mode and automatic pairing, which it does not mention.
`kept_of_run` says that in every run whose steps avoid these, `Kept` holds in every state.
-/

namespace Cbps.Sm

open Option

variable {theAppTask : Task} {version : BtVersion} {m m' : Manager} {e : Input}

/-- **What clients rely on.** -/
structure Kept (m : Manager) : Prop where
  confirms : ∀ c ∈ m.settings.confirms, ∃ id req, c.id = some id ∧ m.settings.asked[id]? = some req ∧
    c.sent = req.answer c.cfm
  once : m.settings.places.Perm (List.range m.settings.asked.length)
  lock : m.sm.setSecurityModeLock ≠ 0 ↔ ∃ p ∈ m.settings.inits, p.cause ≠ .defaultLevel
  mode : (∀ p ∈ m.settings.inits, ∀ n req, p.cause ≠ .setting (some n) (.setMode req)) →
    m.sm.securityMode = m.settings.accepted
  options : m.settings.stack = m.settings.wanted
  running : m.panicked = false

/-! ### The condition -/

/-- A client's set-mode request during an authentication asks for the recorded mode, and so does one of the library
after it. -/
def KeepsMode (sm : SmState) : Option ℕ × SettingReq → Prop
  | (some _, .setMode req) => sm.authReqLock ≠ 0 → req.mode = sm.securityMode
  | (none, .setMode req) => sm.authReqLock = 0 → req.mode = sm.securityMode
  | (_, .config _) => True

instance (sm : SmState) (x : Option ℕ × SettingReq) : Decidable (KeepsMode sm x) := by
  unfold KeepsMode
  split <;> infer_instance

/-- A set-mode request is accepted only while neither the debug mode nor a missing automatic pairing is asked for,
and a client's is rejected only if it asks for the mode that is in force. -/
def KeepsOptions (w : Settings) (cfm : InitCfm) (p : Init) : Prop :=
  match p.cause with
  | .setting id (.setMode req) =>
    (cfm.status = 0 → w.wanted.debugMode = false ∧ w.wanted.legacyAutoPair = true) ∧
      (cfm.status ≠ 0 → id.isSome → req.mode = w.accepted)
  | _ => True

instance (w : Settings) (cfm : InitCfm) (p : Init) : Decidable (KeepsOptions w cfm p) := by
  rcases p with ⟨⟨id, req⟩ | _, _⟩
  · rcases req with ⟨⟩ <;> dsimp only [KeepsOptions] <;> infer_instance
  · exact .isTrue trivial

/-- The condition on a step. -/
def AdmitsSetting (version : BtVersion) (m : Manager) (e : Input) : Prop :=
  OneAtATime version m e ∧ (∀ x ∈ (m.sends version e).toList, KeepsMode m.sm x) ∧
    match e with
    | .initCfm cfm => ∀ p ∈ m.settings.inits.head?.toList, KeepsOptions m.settings cfm p
    | _ => True

instance (version : BtVersion) (m : Manager) (e : Input) : Decidable (AdmitsSetting version m e) := by
  rcases e with ⟨⟩ <;> dsimp only [AdmitsSetting] <;> infer_instance

/-! ### The invariant -/

/-- The mode that is to be recorded: the accepted one, or the one that will be if the stack accepts it. -/
def Settings.recorded (w : Settings) : DmSecurityMode :=
  match w.inits with
  | [] => w.accepted
  | p :: _ => acceptMode w.accepted p.cause

/-- Only a client's set-mode request that is accepted changes the accepted mode. -/
theorem acceptMode_eq {mode : DmSecurityMode} {cause : Cause}
    (h : ∀ n req, cause = .setting (some n) (.setMode req) → req.mode = mode) : acceptMode mode cause = mode := by
  cases cause with
  | defaultLevel => rfl
  | setting id req =>
    cases id with
    | none => rfl
    | some n =>
      cases req with
      | config req => rfl
      | setMode req => exact h n req rfl

/-- The invariant of the settings. -/
structure Settled (m : Manager) : Prop where
  channel : Channel m
  mode : m.sm.securityMode = m.settings.recorded
  options : m.settings.stack = m.settings.wanted

theorem Settled.kept (h : Settled m) : Kept m := by
  refine ⟨h.channel.confirms, h.channel.places, h.channel.lock_iff, ?_, h.options, h.channel.running⟩
  intro hno
  rw [h.mode, Settings.recorded]
  split
  · rfl
  · rename_i p rest hinits
    have hp := hno p (by rw [hinits]; exact List.mem_cons_self)
    exact acceptMode_eq fun n req hcause => absurd hcause (hp n req)

/-! ### Steps -/

theorem accepted_quiet (hstep : QuietStep m m') :
    m'.settings.recorded = m.settings.recorded ∧ m'.settings.stack = m.settings.stack ∧
      m'.settings.wanted = m.settings.wanted := by
  obtain ⟨posts, _, hsettings⟩ := hstep.settings
  rw [hsettings]
  exact ⟨rfl, rfl, rfl⟩

/-- The mode after a request was handled. -/
theorem mode_handleSetting {id : Option ℕ} {req : SettingReq} (hmode : m.sm.securityMode = m.settings.recorded)
    (hfree : m.sm.setSecurityModeLock = 0 → ¬ req.Refused version →
      m.settings.inits = [] ∧ KeepsMode m.sm (id, req)) :
    (m.handleSetting version id req).sm.securityMode = (m.handleSetting version id req).settings.recorded := by
  rw [Manager.handleSetting, settingHandler_eq]
  by_cases href : req.Refused version
  · rw [if_pos href]
    cases req with
    | setMode req => exact href.elim
    | config req => exact hmode
  rw [if_neg href]
  by_cases hlock : m.sm.setSecurityModeLock = 0
  · rw [if_neg (not_not.mpr hlock)]
    obtain ⟨hinits, hkeeps⟩ := hfree hlock href
    have haccepted : m.sm.securityMode = m.settings.accepted := by rw [hmode, Settings.recorded, hinits]
    have hnew : (m.after (.setting id req) (req.take m.sm, [.initReq req.initReq])).settings.recorded =
        acceptMode m.settings.accepted (.setting id req) := by
      simp [Manager.after, Settings.effect, hinits, Settings.recorded, Occasion.cause]
    dsimp only
    rw [hnew]
    cases req with
    | config req =>
      cases id <;> exact haccepted
    | setMode req =>
      change (SettingReq.record m.sm (.setMode req)).securityMode = _
      rw [SettingReq.record]
      cases id with
      | some n =>
        split
        · rfl
        · rename_i hauth
          exact (hkeeps hauth).symm
      | none =>
        split
        · rename_i hauth
          exact (hkeeps hauth).trans haccepted
        · exact haccepted
  · rw [if_pos hlock]
    exact hmode

theorem options_handleSetting (version : BtVersion) (m : Manager) (id : Option ℕ) (req : SettingReq) :
    (m.handleSetting version id req).settings.stack = m.settings.stack ∧
      (m.handleSetting version id req).settings.wanted = m.settings.wanted := by
  rw [Manager.handleSetting, settingHandler_eq]
  split
  · exact ⟨rfl, rfl⟩
  · rename_i r hr
    split at hr
    · obtain rfl := some.inj hr
      cases req <;> exact ⟨rfl, rfl⟩
    · split at hr
      · cases hr
      · obtain rfl := some.inj hr
        exact ⟨rfl, rfl⟩

/-- An accepted `DM_SM_INIT_REQ` leaves the options as they were asked for, unless it puts them back. -/
theorem set_eq_ask {asked : List SettingReq} {p : Init} {cfm : InitCfm} {w : Settings} {sm : SmState}
    (howns : p.Owns sm asked) (hkeeps : KeepsOptions w cfm p) (hstatus : cfm.status = 0) (h : w.stack = w.wanted) :
    w.stack.set p.req = w.wanted.ask p.cause := by
  rw [Init.Owns] at howns
  rw [KeepsOptions] at hkeeps
  cases hcause : p.cause with
  | defaultLevel =>
    rw [hcause] at howns
    obtain ⟨_, _, level, hreq⟩ := howns
    rw [hreq, h]
    rfl
  | setting id req =>
    rw [hcause] at howns hkeeps
    rw [howns.2.2.2, h]
    cases req with
    | config req => rfl
    | setMode req =>
      obtain ⟨hdebug, hpair⟩ := hkeeps.1 hstatus
      simp only [Options.set, SettingReq.initReq, Options.ask, getD_some, getD_none]
      rw [← hdebug, ← hpair]

theorem Settled.answerInit (h : Settled m) {p : Init} {rest : List Init} {cfm : InitCfm}
    (hinits : m.settings.inits = p :: rest) (hkeeps : KeepsOptions m.settings cfm p) :
    Settled (m.answerInit p rest cfm) := by
  obtain ⟨rfl, howns⟩ := h.channel.owns hinits
  obtain ⟨posts, _, hsettings⟩ := h.channel.settings_answerInit hinits cfm
  have hmode : (m.answerInit p [] cfm).sm.securityMode = m.settings.recorded :=
    (howns.answers cfm).mode.trans h.mode
  have hrecorded : m.settings.recorded = acceptMode m.settings.accepted p.cause := by
    rw [Settings.recorded, hinits]
  refine ⟨h.channel.answerInit hinits, ?_, ?_⟩
  · rw [hmode, hrecorded, hsettings]
    simp only [Settings.recorded]
    split
    · rfl
    · -- the stack rejects a request, whose mode may be recorded already
      rename_i hstatus
      refine acceptMode_eq fun n req hcause => ?_
      rw [KeepsOptions, hcause] at hkeeps
      exact hkeeps.2 hstatus rfl
  · rw [hsettings]
    dsimp only
    split
    · rename_i hstatus
      exact set_eq_ask howns hkeeps hstatus h.options
    · exact h.options

theorem keepsMode_of_handles {id : Option ℕ} {req : SettingReq} (hok : AdmitsSetting version m e)
    (h : m.handles e = some (id, req)) (hlock : m.sm.setSecurityModeLock = 0) (href : ¬ req.Refused version) :
    m.settings.inits = [] ∧ KeepsMode m.sm (id, req) := by
  refine ⟨Channel.free_of_handles hok.1 h hlock href, hok.2.1 (id, req) ?_⟩
  rw [Manager.sends, h]
  simp [hlock, href]

theorem Settled.step (h : Settled m) (hpromised : Promised e) (hok : AdmitsSetting version m e)
    (hstep : Manager.step theAppTask version m e = some m') : Settled m' := by
  have hchannel := h.channel.step hpromised hok.1 hstep
  -- a request that is handled in a state with the same settings
  have hhandled : ∀ (m0 : Manager) (id : Option ℕ) (req : SettingReq), m0.handleSetting version id req = m' →
      m.handles e = some (id, req) → m0.sm = m.sm → m0.settings.inits = m.settings.inits →
      m0.settings.accepted = m.settings.accepted → m0.settings.stack = m.settings.stack →
      m0.settings.wanted = m.settings.wanted → Settled m' := by
    intro m0 id req heq hhandles hsm hinits haccepted hstack hwanted
    have hmode : m0.sm.securityMode = m0.settings.recorded := by
      rw [hsm, h.mode, Settings.recorded, Settings.recorded, hinits, haccepted]
    refine ⟨hchannel, ?_, ?_⟩
    · rw [← heq]
      refine mode_handleSetting hmode fun hlock href => ?_
      rw [hsm] at hlock ⊢
      rw [hinits]
      exact keepsMode_of_handles hok hhandles hlock href
    · obtain ⟨hs, hw⟩ := options_handleSetting version m0 id req
      rw [← heq, hs, hw, hstack, hwanted]
      exact h.options
  cases e with
  | setMode task mode encMode | config req =>
    exact hhandled _ _ _ (some.inj hstep) rfl rfl rfl rfl rfl rfl
  | heldSetting n =>
    rw [Manager.step] at hstep
    split at hstep
    · cases hstep
    · obtain ⟨⟨id, req⟩, hget, heq⟩ := map_eq_some_iff.mp hstep
      exact hhandled _ id req heq hget rfl rfl rfl rfl rfl
  | postedMode =>
    rw [Manager.step] at hstep
    split at hstep
    · cases hstep
    · rename_i req rest hposted
      have hhandles : m.handles .postedMode = some (none, .setMode req) := by
        rw [Manager.handles, hposted]
        rfl
      exact hhandled _ none (.setMode req) (some.inj hstep) hhandles rfl rfl rfl rfl rfl
  | defaultLevel req =>
    obtain rfl := some.inj hstep
    refine ⟨hchannel, ?_, ?_⟩
    · rw [handleSetSspSecurityLevelReq]
      split
      · rename_i hlevel
        split
        · rename_i hprotocol
          have hinits := hok.1.2 hlevel hprotocol
          have hmode := h.mode
          rw [Settings.recorded, hinits] at hmode
          simpa [Manager.after, Settings.effect, hinits, Settings.recorded, Occasion.cause, acceptMode] using hmode
        · exact h.mode
      · exact h.mode
    · rw [handleSetSspSecurityLevelReq]
      split
      · split <;> exact h.options
      · exact h.options
  | initCfm cfm =>
    rw [Manager.step] at hstep
    split at hstep
    · cases hstep
    · rename_i p rest hinits
      obtain rfl := some.inj hstep
      exact h.answerInit hinits (hok.2.2 p (by rw [hinits]; simp))
  | _ =>
    have hquiet := Manager.step_quiet (by exact id) hstep
    obtain ⟨hrecorded, hstack, hwanted⟩ := accepted_quiet hquiet
    refine ⟨hchannel, ?_, ?_⟩
    · rw [hquiet.mode, hrecorded, h.mode]
    · rw [hstack, hwanted, h.options]

/-! ### Runs -/

theorem settled_ready (mode : DmSecurityMode) (encMode : ℕ) (options : Options) :
    Settled (.ready mode encMode options) :=
  ⟨channel_ready mode encMode options, rfl, rfl⟩

/-- In every run whose steps meet the condition, settings are answered in kind and kept. -/
theorem kept_of_run {mode : DmSecurityMode} {encMode : ℕ} {options : Options} {es : List Input}
    (hpromised : Lib.RunMeets (Manager.step theAppTask version) (fun _ => Promised) (.ready mode encMode options) es)
    (hok : Lib.RunMeets (Manager.step theAppTask version) (AdmitsSetting version) (.ready mode encMode options) es)
    (hrun : Lib.run (Manager.step theAppTask version) (.ready mode encMode options) es = some m') : Kept m' :=
  (Lib.run_invariant (fun _ _ _ h hguard hstep => Settled.step h hguard.1 hguard.2 hstep)
    (settled_ready mode encMode options) (hpromised.and hok) hrun).kept

/-! ### Two runs -/

/-- Two clients: one turns the debug keys on and off again, the other changes the mode after that. -/
def settingsInTurn : List Input :=
  [.config ⟨2, .always, true, true⟩, .setMode 3 .secMode2Service 1, .initCfm ⟨0, .always, true⟩,
    .config ⟨2, .always, false, true⟩, .initCfm ⟨0, .always, false⟩, .heldSetting 0, .initCfm ⟨0, .always, false⟩]

theorem kept_settingsInTurn : ∃ m, Lib.run (Manager.step 2 .bluetooth4_0) (.ready .secMode4Ssp 0 .initial)
    settingsInTurn = some m ∧ Kept m := by
  have hrun : (Lib.run (Manager.step 2 .bluetooth4_0) (.ready .secMode4Ssp 0 .initial) settingsInTurn).isSome := by
    decide
  obtain ⟨m, hm⟩ := isSome_iff_exists.mp hrun
  exact ⟨m, hm, kept_of_run (by decide) (by decide) hm⟩

/-- A set-mode request, and one for the default security level before it is confirmed. -/
def settingsOverlapping : List Input :=
  [.setMode 2 .secMode2Service 1, .defaultLevel ⟨true, true, 0⟩, .initCfm ⟨0, .never, false⟩, .initCfm ⟨0, .never, false⟩]

/-- Every run keeps the settings. -/
def AlwaysKept : Prop :=
  ∀ (theAppTask : Task) (version : BtVersion) (mode : DmSecurityMode) (encMode : ℕ) (options : Options)
    (es : List Input) (m : Manager),
    Lib.RunMeets (Manager.step theAppTask version) (fun _ => Promised) (.ready mode encMode options) es →
    Lib.run (Manager.step theAppTask version) (.ready mode encMode options) es = some m → Kept m

/-- The set-mode request is never confirmed, and the second confirm of the stack panics. -/
theorem not_alwaysKept : ¬ AlwaysKept := by
  intro h
  have hruns : (Lib.run (Manager.step 2 .bluetooth4_0) (.ready .secMode4Ssp 0 .initial) settingsOverlapping).any
      (fun m => decide (m.panicked = true ∧ m.settings.confirms = [])) := by decide
  obtain ⟨m, hm, hbad⟩ := (any_eq_true _ _).mp hruns
  have hkept := h _ _ _ _ _ _ m (by decide) hm
  rw [hkept.running] at hbad
  revert hbad
  simp

end Cbps.Sm
