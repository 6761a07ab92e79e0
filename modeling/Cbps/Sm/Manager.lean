import Cbps.Sm.Handlers
import Cbps.Lib.Runs

/-!
# Runs of the security manager handler

The handlers between the clients and the stack: requests arrive, are held while their lock is taken and delivered
again, `DM_SM_INIT_CFM`s answer the outstanding `DM_SM_INIT_REQ`s in order, and the stack reports on devices in any
order. `Settings` and `Sessions` keep what the two claims on the code speak of: which requests were made, which of
them wait, what was sent to whom on behalf of which. A client's request is known by its number; a set-mode request
that the library makes itself has none.
-/

namespace Cbps.Sm

open Tdl (Bdaddr TypedBdaddr)

/-! ### Settings -/

/-- A request for a setting that is confirmed. -/
inductive SettingReq
  | setMode (req : SetScModeReq)
  | config (req : SecModeConfigReq)
  deriving DecidableEq, Repr

/-- The task that a request names. -/
def SettingReq.task : SettingReq → Task
  | .setMode req => req.theAppTask
  | .config req => req.theAppTask

/-- The confirm that belongs to a request and its `DM_SM_INIT_CFM`. -/
def SettingReq.answer (cfm : InitCfm) : SettingReq → Effect
  | .setMode req => .securityLevelCfm req.theAppTask (cfm.status = 0)
  | .config req => .secModeConfigCfm req.theAppTask (cfm.status = 0) cfm.writeAuthEnable cfm.debugMode

/-- Why a `DM_SM_INIT_REQ` was sent. -/
inductive Cause
  | setting (id : Option ℕ) (req : SettingReq)
  | defaultLevel
  deriving DecidableEq, Repr

/-- The number of the request behind a `DM_SM_INIT_REQ`. -/
def Cause.id : Cause → Option ℕ
  | .setting id _ => id
  | .defaultLevel => none

/-- A `DM_SM_INIT_REQ` that the stack has not answered. -/
structure Init where
  cause : Cause
  req : InitReq
  deriving DecidableEq, Repr

/-- The options of the Security Manager that a config request sets. -/
structure Options where
  debugMode : Bool
  legacyAutoPair : Bool
  writeAuthEnable : WriteAuthEnable
  deriving DecidableEq, Repr

/-- The options after a `DM_SM_INIT_REQ` that the stack accepts. -/
def Options.set (o : Options) (req : InitReq) : Options where
  debugMode := req.debugMode.getD o.debugMode
  legacyAutoPair := req.legacyAutoPair.getD o.legacyAutoPair
  writeAuthEnable := req.writeAuthEnable.getD o.writeAuthEnable

/-- The options that were asked for last, after a request that the stack accepts. -/
def Options.ask (o : Options) : Cause → Options
  | .setting _ (.config req) => ⟨req.debugKeys, req.legacyAutoPairKeyMissing, req.writeAuthEnable⟩
  | _ => o

/-- The last mode that was accepted from a client, after a request that the stack accepts. -/
def acceptMode (mode : DmSecurityMode) : Cause → DmSecurityMode
  | .setting (some _) (.setMode req) => req.mode
  | _ => mode

/-- A confirm, with the number of the request and the `DM_SM_INIT_CFM` that were handled when it was sent. -/
structure SettingCfm where
  id : Option ℕ
  cfm : InitCfm
  sent : Effect
  deriving DecidableEq, Repr

/-- The settings: `posted` are the library's own set-mode requests on their way, `held` the requests put back on
`setSecurityModeLock`, `asked` all requests of clients by their numbers. `accepted` is the last mode that the stack
accepted from a client, `stack` are the options in force and `wanted` those asked for last. -/
structure Settings where
  posted : List SetScModeReq := []
  held : List (Option ℕ × SettingReq) := []
  inits : List Init := []
  asked : List SettingReq := []
  confirms : List SettingCfm := []
  accepted : DmSecurityMode
  stack : Options
  wanted : Options
  deriving DecidableEq, Repr

/-! ### Sessions -/

/-- What a handler is called for. -/
inductive Occasion
  | setting (id : Option ℕ) (req : SettingReq)
  | defaultLevel
  | initCfm (id : Option ℕ) (cfm : InitCfm)
  | device (addr : Bdaddr)
  | timer (id : ℕ)
  | oobCfm
  | request
  deriving DecidableEq, Repr

/-- The authentication in progress. It is `restoring` from its end until the lock is released. -/
structure Session where
  id : ℕ
  req : AuthenticationReq
  answered : Bool := false
  restoring : Bool := false
  deriving DecidableEq, Repr

/-- A request put back on `authReqLock`. -/
inductive Waiting
  | authenticate (id : ℕ) (req : AuthenticationReq)
  | readOob (task : Task)
  deriving DecidableEq, Repr

/-- An authenticate confirm, with the number of the request in progress if it is about the device of that. -/
structure AuthAnswer where
  id : Option ℕ
  client : Task
  cfm : AuthenticateCfm
  deriving DecidableEq, Repr

/-- The authentications: `asked` are all requests by their numbers, `ended` those that have come to an end, each with
the occasion; `timers` are the requests whose timeout is on its way, in the order of sending. -/
structure Sessions where
  asked : List AuthenticationReq := []
  held : List Waiting := []
  session : Option Session := none
  oob : Option Task := none
  timers : List ℕ := []
  answers : List AuthAnswer := []
  ended : List (ℕ × Occasion) := []
  deriving DecidableEq, Repr

/-- The request that is being authenticated. -/
def Sessions.active (w : Sessions) : Option Session := w.session.filter fun s => !s.restoring

/-! ### The effects of a handler -/

/-- The confirm of a config request that the firmware does not support says no more than this. -/
def unsupportedCfm : InitCfm := ⟨1, .never, false⟩

/-- The number of the request that a handler is called for. -/
def Occasion.id : Occasion → Option ℕ
  | .setting id _ | .initCfm id _ => id
  | _ => none

/-- The `DM_SM_INIT_CFM` that a handler is called for. -/
def Occasion.cfm : Occasion → InitCfm
  | .initCfm _ cfm => cfm
  | _ => unsupportedCfm

/-- What is behind a `DM_SM_INIT_REQ`. -/
def Occasion.cause : Occasion → Cause
  | .setting id req => .setting id req
  | _ => .defaultLevel

/-- What an effect adds to the settings. -/
def Settings.effect (o : Occasion) (w : Settings) : Effect → Settings
  | .initReq req => { w with inits := w.inits ++ [⟨o.cause, req⟩] }
  | .setScModeReq req => { w with posted := w.posted ++ [req] }
  | .securityLevelCfm client success =>
    { w with confirms := w.confirms ++ [⟨o.id, o.cfm, .securityLevelCfm client success⟩] }
  | .secModeConfigCfm client success wae debugKeys =>
    { w with confirms := w.confirms ++ [⟨o.id, o.cfm, .secModeConfigCfm client success wae debugKeys⟩] }
  | _ => w

/-- Is the confirm about the device of this session? -/
def Session.concerns (s : Session) (cfm : AuthenticateCfm) : Bool := cfm.bdAddr = s.req.bdAddr

/-- What an effect adds to the sessions. -/
def Sessions.effect (w : Sessions) : Effect → Sessions
  | .authenticateCfm client cfm =>
    match w.active.filter fun s => s.concerns cfm with
    | some s => { w with
        answers := w.answers ++ [⟨some s.id, client, cfm⟩]
        session := some { s with answered := true } }
    | none => { w with answers := w.answers ++ [⟨none, client, cfm⟩] }
  | .sendTimeout _ => { w with timers := w.timers ++ (w.session.map Session.id).toList }
  | .cancelTimeout => { w with timers := w.timers.tail }
  | _ => w

/-- An authentication has ended when its device is no longer recorded; its lock may be released later. -/
def Sessions.follow (w : Sessions) (o : Occasion) (sm : SmState) : Sessions :=
  match w.session with
  | none => w
  | some s =>
    if s.restoring then (if sm.authReqLock = 0 then { w with session := none } else w)
    else if sm.authRemoteAddr = s.req.bdAddr then w
    else { w with
      session := if sm.authReqLock = 0 then none else some { s with restoring := true }
      ended := w.ended ++ [(s.id, o)] }

/-! ### The state and its steps -/

/-- The security manager handler with its surroundings. -/
structure Manager where
  sm : SmState
  settings : Settings
  sessions : Sessions := {}
  panicked : Bool := false
  deriving DecidableEq, Repr

/-- The state after a handler. -/
def Manager.after (m : Manager) (o : Occasion) (r : SmState × List Effect) : Manager where
  sm := r.1
  settings := r.2.foldl (Settings.effect o) m.settings
  sessions := (r.2.foldl Sessions.effect m.sessions).follow o r.1
  panicked := m.panicked || r.2.contains .panic

/-- What happens to the library. `authenticate`, `readOob`, `setMode` and `config` are requests of clients;
`heldSetting` and `heldAuth` deliver a request that was put back, `postedMode` the oldest set-mode request of the
library; the others are the stack's, and the timeout. -/
inductive Input
  | setMode (task : Task) (mode : DmSecurityMode) (encMode : ℕ)
  | config (req : SecModeConfigReq)
  | defaultLevel (req : SetSspSecurityLevelReq)
  | heldSetting (n : ℕ)
  | postedMode
  | initCfm (cfm : InitCfm)
  | authenticate (req : AuthenticationReq)
  | readOob (task : Task)
  | heldAuth (n : ℕ)
  | cancel (task : Task) (force : Bool)
  | oobCfm (status : ℕ)
  | aclOpenCfm (addr : Bdaddr) (success : Bool)
  | aclOpenedInd (addr : Bdaddr) (status : ℕ)
  | aclClosedInd (addr : Bdaddr)
  | bondingCfm (addr : Bdaddr) (status : ℕ)
  | keysInd (permanentTaddr : Option TypedBdaddr) (addr : Bdaddr) (bredrKeys : List (List ℕ))
  | simplePairingComplete (addr : Bdaddr) (status : ℕ)
  | bleSimplePairingComplete
  | timeout (n : ℕ)
  deriving DecidableEq, Repr

namespace Manager

variable (theAppTask : Task) (version : BtVersion)

/-- The handler of a set-mode or config request. -/
def settingHandler (sm : SmState) : SettingReq → Option (SmState × List Effect)
  | .setMode req => handleSetSecurityModeReq sm req
  | .config req => handleSecModeConfigReq version sm req

/-- A set-mode or config request is handled, or put back. -/
def handleSetting (m : Manager) (id : Option ℕ) (req : SettingReq) : Manager :=
  match settingHandler version m.sm req with
  | none => { m with settings := { m.settings with held := m.settings.held ++ [(id, req)] } }
  | some r => m.after (.setting id req) r

/-- A client asks for a setting. -/
def askSetting (m : Manager) (req : SettingReq) : Manager :=
  handleSetting version { m with settings := { m.settings with asked := m.settings.asked ++ [req] } }
    (some m.settings.asked.length) req

/-- The oldest `DM_SM_INIT_REQ` is answered. -/
def answerInit (m : Manager) (p : Init) (rest : List Init) (cfm : InitCfm) : Manager :=
  let answered : Settings := if cfm.status = 0 then
      { m.settings with
        inits := rest
        accepted := acceptMode m.settings.accepted p.cause
        stack := m.settings.stack.set p.req
        wanted := m.settings.wanted.ask p.cause }
    else { m.settings with inits := rest }
  { m with settings := answered }.after (.initCfm p.cause.id cfm) (initCfmReady m.sm cfm)

/-- An authenticate request is handled, or put back. -/
def handleAuthenticate (m : Manager) (id : ℕ) (req : AuthenticationReq) : Manager :=
  match connectionHandleAuthenticationReq m.sm req with
  | none => { m with sessions := { m.sessions with held := m.sessions.held ++ [.authenticate id req] } }
  | some r => { m with sessions := { m.sessions with session := some { id := id, req := req } } }.after .request r

/-- A read of OOB data is handled, or put back. -/
def handleReadOob (m : Manager) (task : Task) : Manager :=
  match connectionHandleReadLocalOobDataReq version m.sm task with
  | none => { m with sessions := { m.sessions with held := m.sessions.held ++ [.readOob task] } }
  | some r =>
    { m with sessions := { m.sessions with
        oob := if r.2.contains .readLocalOobDataReq then some task else m.sessions.oob } }.after .request r

/-- A request that was put back on `authReqLock` is handled. -/
def handleWaiting (m : Manager) : Waiting → Manager
  | .authenticate id req => m.handleAuthenticate id req
  | .readOob task => m.handleReadOob version task

/-- One step. A request that was put back is delivered while its lock is clear; a confirm comes only for a request
that was sent; a timeout only if it was not cancelled. -/
def step (m : Manager) : Input → Option Manager
  | .setMode task mode encMode => some (m.askSetting version (.setMode ⟨task, mode, encMode⟩))
  | .config req => some (m.askSetting version (.config req))
  | .defaultLevel req => some (m.after .defaultLevel (handleSetSspSecurityLevelReq m.sm req))
  | .heldSetting n =>
    if m.sm.setSecurityModeLock ≠ 0 then none else
      (m.settings.held[n]?).map fun (id, req) =>
        handleSetting version { m with settings := { m.settings with held := m.settings.held.eraseIdx n } } id req
  | .postedMode =>
    match m.settings.posted with
    | [] => none
    | req :: rest =>
      some (handleSetting version { m with settings := { m.settings with posted := rest } } none (.setMode req))
  | .initCfm cfm =>
    match m.settings.inits with
    | [] => none
    | p :: rest => some (m.answerInit p rest cfm)
  | .authenticate req =>
    some (handleAuthenticate { m with sessions := { m.sessions with asked := m.sessions.asked ++ [req] } }
      m.sessions.asked.length req)
  | .readOob task => some (m.handleReadOob version task)
  | .heldAuth n =>
    if m.sm.authReqLock ≠ 0 then none else
      (m.sessions.held[n]?).map fun w =>
        handleWaiting version { m with sessions := { m.sessions with held := m.sessions.held.eraseIdx n } } w
  | .cancel task force =>
    some (m.after .request (m.sm, connectionHandleCancelAuthenticationReq version m.sm task force))
  | .oobCfm status =>
    if m.sessions.oob = none then none else
      some ({ m with sessions := { m.sessions with oob := none } }.after .oobCfm
        (connectionHandleReadLocalOobDataCfm m.sm status))
  | .aclOpenCfm addr success => some (m.after (.device addr) (connectionHandleDmAclOpenCfm m.sm addr success))
  | .aclOpenedInd addr status => some (m.after (.device addr) (connectionHandleDmAclOpenInd m.sm status))
  | .aclClosedInd addr => some (m.after (.device addr) (connectionHandleDmAclClosedInd m.sm addr))
  | .bondingCfm addr status => some (m.after (.device addr) (connectionHandleSmBondingCfm m.sm addr status))
  | .keysInd permanentTaddr addr bredrKeys =>
    some (m.after (.device addr) (handleBredrKeys theAppTask addr bredrKeys (m.sm.cache permanentTaddr, [])))
  | .simplePairingComplete addr status =>
    some (m.after (.device addr) (Sm.simplePairingComplete theAppTask m.sm addr status))
  | .bleSimplePairingComplete => some (m.after .request (blePairingComplete theAppTask m.sm))
  | .timeout n =>
    (m.sessions.timers[n]?).map fun id =>
      { m with sessions := { m.sessions with timers := m.sessions.timers.eraseIdx n } }.after (.timer id)
        (connectionHandleAuthenticationTimeout m.sm)

end Manager

end Cbps.Sm
