import Cbps.GattManager.Servers
import Cbps.Lib.Tally

/-!
# Waiting for a remote client

`gatt_manager_server.c` and `gatt_manager_handler.c`: the application waits for a remote client, which makes the
manager advertise, and may cancel the wait. The messages of the manager to itself are held back by their
conditions; the connections that GATT has been asked for are in the state too, with the cid that GATT has told.

`answered_of_run`: every wait is answered once, by its connect confirm or by the confirm of the cancel that has
ended it, every cancel that is not ignored as a repeat is confirmed once, and without a wait the advertising
state is idle and no cancel is pending.
-/

namespace Cbps.GattManager

open Lib Option

abbrev Cid := BitVec 16

/-- `typed_bdaddr`. -/
structure TypedBdaddr where
  type : BitVec 8
  addr : BitVec 48
  deriving DecidableEq, Repr

/-- `gatt_connection_type`. -/
inductive ConnectionType
  | bredrMaster
  | bleMasterDirected
  | bleMasterWhitelist
  | bleSlaveDirected
  | bleSlaveWhitelist
  | bleSlaveUndirected
  | bleSlaveDirectedLowDuty
  deriving DecidableEq, Repr

/-- `gatt_status_t`, of a connect confirm. -/
inductive GattStatus
  | success
  | initialising
  | failure
  | maxConnections
  | linkLoss
  | rejPsm
  | keyMissing
  | connectionTimeout
  | retrying
  | peerAborted
  deriving DecidableEq, Repr

/-- `gatt_manager_advertising_state_t`. -/
inductive AdvertisingState
  | idle
  | queued
  | requested
  | advertising
  deriving DecidableEq, Repr

/-- `GATT_MANAGER_INTERNAL_MSG_WAIT_FOR_REMOTE_CLIENT_T`. -/
structure WaitMessage where
  task : Task
  taddr : Option TypedBdaddr
  connType : ConnectionType
  deriving DecidableEq, Repr

/-- `GATT_MANAGER_INTERNAL_MSG_CONNECT_TO_REMOTE_SERVER_T`. -/
structure ConnectMessage where
  task : Task
  taddr : Option TypedBdaddr
  connType : ConnectionType
  connTimeout : Bool
  deriving DecidableEq, Repr

/-- An entry of the history. `wait` is a wait that the manager has accepted, `refused` the confirm of one that it
has not, `cancel` a cancel of the application and `ignored` one that is dropped as a repeat. -/
inductive Obs
  | wait (task : Task)
  | refused (task : Task)
  | connectCfm (task : Task) (status : GattStatus) (cid : Cid)
  | cancel
  | ignored
  | cancelCfm (task : Task) (status : ManagerStatus)
  | serverConnectCfm (task : Task) (status : GattStatus) (cid : Cid)
  | gattConnectRequest (taddr : Option TypedBdaddr) (connType : ConnectionType) (connTimeout : Bool)
  | gattDisconnectRequest (cid : Cid)
  deriving DecidableEq, Repr

/-- The connections of the manager. `waitRequest` and `serverRequest` are the requests that GATT has not
confirmed yet, with the cid that it has told. At most one message to cancel the advertising is held back. -/
structure Waits where
  applicationTask : Task
  serverCount : ℕ
  advertisingState : AdvertisingState
  remoteClientTask : Task
  remoteClientCid : Cid
  remoteServerConnectHandlerTask : Task
  cancelPendingConnection : Bool
  cancelMessage : Bool
  waitMessages : List WaitMessage
  connectMessages : List ConnectMessage
  waitRequest : Option (Option Cid)
  serverRequest : Option (Option Cid)
  log : List Obs
  deriving DecidableEq

namespace Waits

variable (w : Waits)

def note (o : Obs) : Waits := { w with log := w.log ++ [o] }

/-! ### Waits -/

/-- `serverConnectionParamsValid`. -/
def serverConnectionParamsValid (task : Task) (taddr : Option TypedBdaddr) (connType : ConnectionType) : Bool :=
  task = 0 ∨ connType = .bleSlaveDirected ∧ taddr.isSome ∨ connType = .bleSlaveWhitelist ∨
    connType = .bleSlaveUndirected

/-- `GattManagerWaitForRemoteClient`, of a manager in the idle advertising state. -/
def requestWait (task : Task) (taddr : Option TypedBdaddr) (connType : ConnectionType) : Waits :=
  let w := { w with remoteClientTask := task }
  if w.remoteServerConnectHandlerTask ≠ 0 then
    { w with waitMessages := w.waitMessages ++ [⟨task, taddr, connType⟩], advertisingState := .queued }
  else
    { w.note (.gattConnectRequest taddr connType false) with
      waitRequest := some none
      advertisingState := .requested }

/-- `GattManagerWaitForRemoteClient`. `none` is a panic. -/
def gattManagerWaitForRemoteClient (task : Task) (taddr : Option TypedBdaddr) (connType : ConnectionType) :
    Option Waits :=
  if !serverConnectionParamsValid task taddr connType ∨ w.serverCount = 0 then none
  else if w.advertisingState = .idle then some ((w.note (.wait task)).requestWait task taddr connType)
  else some (w.note (.refused task))

/-- `gattManagerWaitForRemoteClientInternal`. -/
def gattManagerWaitForRemoteClientInternal (m : WaitMessage) : Option Waits :=
  if !serverConnectionParamsValid m.task m.taddr m.connType ∨ w.serverCount = 0 then none
  else some ({ w with advertisingState := .idle }.requestWait m.task m.taddr m.connType)

/-- `clearRemoteClientConnectData`. -/
def clearRemoteClientConnectData : Waits := { w with remoteClientTask := 0, remoteClientCid := 0 }

/-- `cancelRemoteClientConnectCfm`. -/
def cancelRemoteClientConnectCfm (task : Task) (status : ManagerStatus) : Waits := w.note (.cancelCfm task status)

/-- `GattManagerCancelWaitForRemoteClient`. A message that is replaced is a repeat. -/
def gattManagerCancelWaitForRemoteClient : Option Waits :=
  if w.serverCount = 0 then none
  else if w.cancelPendingConnection then some (w.note .ignored)
  else
    match w.advertisingState with
    | .requested => some { (if w.cancelMessage then w.note .ignored else w) with cancelMessage := true }
    | .advertising =>
      some ({ w with cancelPendingConnection := true }.note (.gattDisconnectRequest w.remoteClientCid))
    | .queued =>
      if w.waitMessages = [] then none
      else
        some { ({ w with waitMessages := [] }.cancelRemoteClientConnectCfm w.remoteClientTask
          .success).clearRemoteClientConnectData with advertisingState := .idle }
    | .idle => some (w.cancelRemoteClientConnectCfm w.applicationTask .wrongState)

/-! ### Connections to a server -/

/-- `serverParamsValid`. -/
def serverParamsValid (m : ConnectMessage) : Bool :=
  m.task ≠ 0 ∧ m.taddr.isSome ∧ m.connType ∈ [.bredrMaster, .bleMasterDirected, .bleMasterWhitelist]

/-- `GattManagerConnectToRemoteServer`. -/
def gattManagerConnectToRemoteServer (m : ConnectMessage) : Option Waits :=
  if w.remoteServerConnectHandlerTask ≠ 0 ∨ !serverParamsValid m then none
  else if w.advertisingState = .requested then some { w with connectMessages := w.connectMessages ++ [m] }
  else
    some { w.note (.gattConnectRequest m.taddr m.connType m.connTimeout) with
      serverRequest := some none
      remoteServerConnectHandlerTask := m.task }

/-! ### Confirms of GATT -/

/-- `remoteClientConnectCfm`. -/
def remoteClientConnectCfm (status : GattStatus) (cid : Cid) : Waits :=
  w.note (.connectCfm w.remoteClientTask status cid)

/-- `gattConnectCfmSuccess`. The cancel stays pending. -/
def gattConnectCfmSuccess (cid : Cid) : Waits :=
  let w := if w.cancelPendingConnection then w.cancelRemoteClientConnectCfm w.remoteClientTask .failed else w
  { w with advertisingState := .idle }.remoteClientConnectCfm .success cid

/-- `gattConnectCfmFailure`. -/
def gattConnectCfmFailure (cid : Cid) : Waits :=
  let w :=
    if w.cancelPendingConnection then
      { w with cancelPendingConnection := false }.cancelRemoteClientConnectCfm w.remoteClientTask .success
    else w.remoteClientConnectCfm .failure cid
  { w with advertisingState := .idle }

/-- `gattConnectCfmUnknown`. The manager goes on advertising. -/
def gattConnectCfmUnknown (status : GattStatus) (cid : Cid) : Waits :=
  if w.cancelPendingConnection then w.cancelRemoteClientConnectCfm w.remoteClientTask .failed
  else w.remoteClientConnectCfm status cid

/-- `gattManagerServerRemoteClientConnected`. -/
def gattManagerServerRemoteClientConnected (status : GattStatus) (cid : Cid) : Option Waits :=
  if cid ≠ w.remoteClientCid then none
  else
    some (match status with
      | .success => w.gattConnectCfmSuccess cid
      | .failure => w.gattConnectCfmFailure cid
      | _ => w.gattConnectCfmUnknown status cid).clearRemoteClientConnectData

/-- `gattManagerClientRemoteServerConnected`. -/
def gattManagerClientRemoteServerConnected (status : GattStatus) (cid : Cid) : Waits :=
  { w.note (.serverConnectCfm w.remoteServerConnectHandlerTask status cid) with remoteServerConnectHandlerTask := 0 }

/-- `handleGattConnectCfm`. -/
def handleGattConnectCfm (status : GattStatus) (cid : Cid) : Option Waits :=
  if status = .initialising then
    some (if w.advertisingState = .requested then { w with remoteClientCid := cid, advertisingState := .advertising }
      else w)
  else if cid = w.remoteClientCid then w.gattManagerServerRemoteClientConnected status cid
  else some (w.gattManagerClientRemoteServerConnected status cid)

end Waits

/-! ### Steps -/

/-- What the connections are driven by. A confirm is that of the connection for a wait or for a server. -/
inductive Input
  | wait (task : Task) (taddr : Option TypedBdaddr) (connType : ConnectionType)
  | cancel
  | connect (m : ConnectMessage)
  | cancelMessage
  | waitMessage
  | connectMessage
  | connectCfm (forWait : Bool) (status : GattStatus) (cid : Cid)
  deriving DecidableEq

namespace Waits

variable (w : Waits)

/-- GATT has confirmed a connection, or told its cid. -/
def confirmed (forWait : Bool) (status : GattStatus) (cid : Cid) : Waits :=
  let request := if status = .initialising then some (some cid) else none
  if forWait then { w with waitRequest := request } else { w with serverRequest := request }

/-- One call, one message or one confirm. A message is delivered only if its condition is zero. -/
def step (w : Waits) : Input → Option Waits
  | .wait task taddr connType => w.gattManagerWaitForRemoteClient task taddr connType
  | .cancel => (w.note .cancel).gattManagerCancelWaitForRemoteClient
  | .connect m => w.gattManagerConnectToRemoteServer m
  | .cancelMessage =>
    if w.cancelMessage ∧ w.advertisingState ≠ .requested then
      { w with cancelMessage := false }.gattManagerCancelWaitForRemoteClient
    else some w
  | .waitMessage =>
    match w.waitMessages with
    | m :: ms =>
      if w.remoteServerConnectHandlerTask = 0 then
        { w with waitMessages := ms }.gattManagerWaitForRemoteClientInternal m
      else some w
    | [] => some w
  | .connectMessage =>
    match w.connectMessages with
    | m :: ms =>
      if w.advertisingState ≠ .requested then { w with connectMessages := ms }.gattManagerConnectToRemoteServer m
      else some w
    | [] => some w
  | .connectCfm forWait status cid => (w.confirmed forWait status cid).handleGattConnectCfm status cid

/-- After `GattManagerRegisterWithGatt`, with the servers that have been registered. -/
def init (applicationTask : Task) (serverCount : ℕ) : Waits :=
  ⟨applicationTask, serverCount, .idle, 0, 0, 0, false, false, [], [], none, none, []⟩

/-- The request of a wait or for a server. -/
def request (forWait : Bool) : Option (Option Cid) := if forWait then w.waitRequest else w.serverRequest

/-- What GATT promises: it confirms what it has been asked for. A connection is initialising first, with a cid of
its own, unless it is refused at once. -/
def Promised (w : Waits) : Input → Prop
  | .connectCfm forWait status cid =>
    if status = .initialising then
      w.request forWait = some none ∧ cid ≠ 0 ∧ w.request (!forWait) ≠ some (some cid)
    else w.request forWait = some (some cid) ∨ w.request forWait = some none ∧ cid = 0 ∧ status ≠ .success
  | _ => True

end Waits

/-! ### Answers -/

namespace Obs

def isWait : Obs → Bool
  | .wait _ => true
  | _ => false

/-- The confirm of a wait, or of the cancel that has ended it. -/
def answersWait : Obs → Bool
  | .connectCfm _ _ _ | .cancelCfm _ .success => true
  | _ => false

def isConnectCfm : Obs → Bool
  | .connectCfm _ _ _ => true
  | _ => false

def isCancel : Obs → Bool
  | .cancel => true
  | _ => false

/-- The confirm of a cancel, or its end as a repeat. -/
def answersCancel : Obs → Bool
  | .cancelCfm _ _ | .ignored => true
  | _ => false

def isCancelCfm : Obs → Bool
  | .cancelCfm _ _ => true
  | _ => false

end Obs

namespace Waits

/-- Every wait and every cancel is answered once, and what is not answered yet is what the state says. When no wait
is outstanding, no cancel is pending. -/
structure AnsweredBy (answersWait answersCancel : Obs → Bool) (w : Waits) : Prop where
  waits : tally Obs.isWait answersWait w.log = some (if w.advertisingState = .idle then 0 else 1)
  cancels : tally Obs.isCancel answersCancel w.log =
    some (w.cancelMessage.toNat + w.cancelPendingConnection.toNat)
  settled : w.advertisingState = .idle → w.cancelPendingConnection = false

/-- Every wait gets its connect confirm and every cancel its cancel confirm. -/
def Confirmed : Waits → Prop := AnsweredBy Obs.isConnectCfm Obs.isCancelCfm

/-- Every wait gets its connect confirm or the confirm of the cancel that has ended it, and every cancel is confirmed
or ignored as a repeat. -/
def Answered : Waits → Prop := AnsweredBy Obs.answersWait Obs.answersCancel

/-- The connection of a wait ends with failure, or with success while no cancel is pending, and a connection to a
server is refused at once only while the manager knows the cid that it advertises with. -/
def Regular (w : Waits) : Input → Prop
  | .connectCfm true status _ =>
    status = .initialising ∨ status = .failure ∨ status = .success ∧ w.cancelPendingConnection = false
  | .connectCfm false _ cid => cid = 0 → w.remoteClientCid ≠ 0
  | _ => True

variable {w t : Waits}

/-- What the advertising state says about the messages and the requests. -/
def Stage (w : Waits) : Prop :=
  match w.advertisingState with
  | .idle => w.waitMessages = [] ∧ w.waitRequest = none ∧ w.remoteClientCid = 0 ∧ w.cancelPendingConnection = false
  | .queued =>
    (∃ m, w.waitMessages = [m]) ∧ w.waitRequest = none ∧ w.remoteClientCid = 0 ∧ w.cancelPendingConnection = false
  | .requested =>
    w.waitMessages = [] ∧ w.waitRequest = some none ∧ w.remoteClientCid = 0 ∧ w.cancelPendingConnection = false ∧
      w.remoteServerConnectHandlerTask = 0
  | .advertising => w.waitMessages = [] ∧ w.waitRequest = some (some w.remoteClientCid) ∧ w.remoteClientCid ≠ 0

/-- A connection to a server has its task, and a cid of its own. -/
structure Served (w : Waits) : Prop where
  handler : w.remoteServerConnectHandlerTask = 0 → w.serverRequest = none
  fresh : ∀ cid, w.serverRequest = some (some cid) → cid ≠ 0 ∧ cid ≠ w.remoteClientCid

structure Inv (w : Waits) : Prop where
  stage : w.Stage
  served : w.Served
  waits : tally Obs.isWait Obs.answersWait w.log = some (if w.advertisingState = .idle then 0 else 1)
  cancels : tally Obs.isCancel Obs.answersCancel w.log =
    some (w.cancelMessage.toNat + w.cancelPendingConnection.toNat)

theorem Inv.init (applicationTask : Task) (serverCount : ℕ) : (init applicationTask serverCount).Inv :=
  ⟨⟨rfl, rfl, rfl, rfl⟩, ⟨fun _ => rfl, nofun⟩, rfl, rfl⟩

variable {cid : Cid}

section Stage

theorem Stage.idle (h : w.Stage) (hs : w.advertisingState = .idle) :
    w.waitMessages = [] ∧ w.waitRequest = none ∧ w.remoteClientCid = 0 ∧ w.cancelPendingConnection = false := by
  rw [Stage, hs] at h
  exact h

theorem Stage.queued (h : w.Stage) (hs : w.advertisingState = .queued) :
    (∃ m, w.waitMessages = [m]) ∧ w.waitRequest = none ∧ w.remoteClientCid = 0 ∧
      w.cancelPendingConnection = false := by
  rw [Stage, hs] at h
  exact h

theorem Stage.requested (h : w.Stage) (hs : w.advertisingState = .requested) :
    w.waitMessages = [] ∧ w.waitRequest = some none ∧ w.remoteClientCid = 0 ∧ w.cancelPendingConnection = false ∧
      w.remoteServerConnectHandlerTask = 0 := by
  rw [Stage, hs] at h
  exact h

theorem Stage.advertising (h : w.Stage) (hs : w.advertisingState = .advertising) :
    w.waitMessages = [] ∧ w.waitRequest = some (some w.remoteClientCid) ∧ w.remoteClientCid ≠ 0 := by
  rw [Stage, hs] at h
  exact h

/-- The manager advertises exactly if GATT has told the cid of the wait. -/
theorem Stage.told (h : w.Stage) (hw : w.waitRequest = some (some cid)) :
    w.advertisingState = .advertising ∧ w.remoteClientCid = cid := by
  cases hs : w.advertisingState with
  | idle => exact absurd ((h.idle hs).2.1.symm.trans hw) nofun
  | queued => exact absurd ((h.queued hs).2.1.symm.trans hw) nofun
  | requested => exact absurd ((h.requested hs).2.1.symm.trans hw) nofun
  | advertising => exact ⟨rfl, some.inj (some.inj ((h.advertising hs).2.1.symm.trans hw))⟩

theorem Stage.asked (h : w.Stage) (hw : w.waitRequest = some none) : w.advertisingState = .requested := by
  cases hs : w.advertisingState with
  | idle => exact absurd ((h.idle hs).2.1.symm.trans hw) nofun
  | queued => exact absurd ((h.queued hs).2.1.symm.trans hw) nofun
  | requested => rfl
  | advertising => exact absurd ((h.advertising hs).2.1.symm.trans hw) nofun

end Stage

/-! ### One input -/

variable {taddr : Option TypedBdaddr} {connType : ConnectionType}

/-- The idle manager asks GATT for a connection, or queues the wait. -/
theorem Inv.requestWait {task : Task}
    (hmessages : w.waitMessages = []) (hrequest : w.waitRequest = none) (hcid : w.remoteClientCid = 0)
    (hpending : w.cancelPendingConnection = false) (hserved : w.Served)
    (hwaits : tally Obs.isWait Obs.answersWait w.log = some 1)
    (hcancels : tally Obs.isCancel Obs.answersCancel w.log =
      some (w.cancelMessage.toNat + w.cancelPendingConnection.toNat)) :
    (w.requestWait task taddr connType).Inv := by
  rw [Waits.requestWait]
  dsimp only
  split
  · refine ⟨⟨⟨⟨task, taddr, connType⟩, ?_⟩, hrequest, hcid, hpending⟩, ⟨hserved.handler, hserved.fresh⟩, hwaits, hcancels⟩
    change w.waitMessages ++ _ = _
    rw [hmessages]
    rfl
  · next hhandler =>
    exact ⟨⟨hmessages, rfl, hcid, hpending, not_not.mp hhandler⟩, ⟨hserved.handler, hserved.fresh⟩,
      tally_other hwaits rfl rfl, tally_other hcancels rfl rfl⟩

theorem Inv.wait {task : Task} (h : w.Inv)
    (ht : w.gattManagerWaitForRemoteClient task taddr connType = some t) : t.Inv := by
  rw [gattManagerWaitForRemoteClient] at ht
  split_ifs at ht with hpanic hidle
  · obtain rfl := some.inj ht
    obtain ⟨hmessages, hrequest, hcid, hpending⟩ := h.stage.idle hidle
    have hwaits := h.waits
    rw [if_pos hidle] at hwaits
    exact Inv.requestWait (w := w.note (.wait task)) hmessages hrequest hcid hpending
      ⟨h.served.handler, h.served.fresh⟩ (tally_open hwaits rfl) (tally_other h.cancels rfl rfl)
  · obtain rfl := some.inj ht
    exact ⟨h.stage, ⟨h.served.handler, h.served.fresh⟩, tally_other h.waits rfl rfl,
      tally_other h.cancels rfl rfl⟩

/-- A cancel is answered, ignored, or held back or pending from now on. -/
theorem Inv.cancel (hstage : w.Stage) (hserved : w.Served)
    (hwaits : tally Obs.isWait Obs.answersWait w.log = some (if w.advertisingState = .idle then 0 else 1))
    (hcancels : tally Obs.isCancel Obs.answersCancel w.log =
      some (w.cancelMessage.toNat + w.cancelPendingConnection.toNat + 1))
    (ht : w.gattManagerCancelWaitForRemoteClient = some t) : t.Inv := by
  rw [gattManagerCancelWaitForRemoteClient] at ht
  split at ht
  · cases ht
  · split at ht
    · obtain rfl := some.inj ht
      exact ⟨hstage, ⟨hserved.handler, hserved.fresh⟩, tally_other hwaits rfl rfl, tally_close hcancels rfl rfl⟩
    · next hpending =>
      have hpending' : w.cancelPendingConnection = false := by simpa using hpending
      split at ht
      · next hs =>
        obtain rfl := some.inj ht
        cases hmessage : w.cancelMessage with
        | false =>
          rw [hmessage] at hcancels
          exact ⟨hstage, ⟨hserved.handler, hserved.fresh⟩, hwaits, by simpa [hpending'] using hcancels⟩
        | true =>
          rw [hmessage] at hcancels
          have hcancels' := tally_close (a := Obs.ignored) hcancels rfl rfl
          exact ⟨hstage, ⟨hserved.handler, hserved.fresh⟩, tally_other hwaits rfl rfl, hcancels'⟩
      · next hs =>
        obtain rfl := some.inj ht
        rw [hpending'] at hcancels
        have hcancels' := tally_other (a := Obs.gattDisconnectRequest w.remoteClientCid) hcancels rfl rfl
        refine ⟨?_, ⟨hserved.handler, hserved.fresh⟩, tally_other hwaits rfl rfl, hcancels'⟩
        have hadvertising := hstage.advertising hs
        rw [Stage]
        change match w.advertisingState with | .idle => _ | .queued => _ | .requested => _ | .advertising => _
        rw [hs]
        exact hadvertising
      · next hs =>
        split at ht
        · cases ht
        · obtain rfl := some.inj ht
          obtain ⟨-, hrequest, -, -⟩ := hstage.queued hs
          rw [hs] at hwaits
          refine ⟨⟨rfl, hrequest, rfl, hpending'⟩, ⟨hserved.handler, fun cid hcid => ?_⟩,
            tally_close hwaits rfl rfl, tally_close hcancels rfl rfl⟩
          exact ⟨(hserved.fresh cid hcid).1, (hserved.fresh cid hcid).1⟩
      · obtain rfl := some.inj ht
        exact ⟨hstage, ⟨hserved.handler, hserved.fresh⟩, tally_other hwaits rfl rfl, tally_close hcancels rfl rfl⟩

theorem Inv.waitMessage {m : WaitMessage} (h : w.Inv) (hm : w.waitMessages = [m])
    (ht : { w with waitMessages := [] }.gattManagerWaitForRemoteClientInternal m = some t) : t.Inv := by
  rw [gattManagerWaitForRemoteClientInternal] at ht
  split_ifs at ht with hpanic
  obtain rfl := some.inj ht
  have hs : w.advertisingState = .queued := by
    cases hs : w.advertisingState with
    | idle => exact absurd ((h.stage.idle hs).1.symm.trans hm) nofun
    | queued => rfl
    | requested => exact absurd ((h.stage.requested hs).1.symm.trans hm) nofun
    | advertising => exact absurd ((h.stage.advertising hs).1.symm.trans hm) nofun
  obtain ⟨-, hrequest, hcid, hpending⟩ := h.stage.queued hs
  have hwaits := h.waits
  rw [hs] at hwaits
  exact Inv.requestWait (w := { w with waitMessages := [], advertisingState := .idle }) rfl hrequest hcid hpending
    ⟨h.served.handler, h.served.fresh⟩ hwaits h.cancels

theorem Inv.connect {m : ConnectMessage} (h : w.Inv) (ht : w.gattManagerConnectToRemoteServer m = some t) :
    t.Inv := by
  rw [gattManagerConnectToRemoteServer] at ht
  split_ifs at ht with hpanic hs
  · obtain rfl := some.inj ht
    exact ⟨h.stage, ⟨h.served.handler, h.served.fresh⟩, h.waits, h.cancels⟩
  · obtain rfl := some.inj ht
    have htask : m.task ≠ 0 := by
      have hvalid : serverParamsValid m = true := by simpa using (not_or.mp hpanic).2
      exact (of_decide_eq_true hvalid).1
    refine ⟨?_, ⟨fun hzero => absurd hzero htask, nofun⟩, tally_other h.waits rfl rfl,
      tally_other h.cancels rfl rfl⟩
    have hstage := h.stage
    rw [Stage] at hstage ⊢
    dsimp only [note]
    split
    · next hs' => rwa [hs'] at hstage
    · next hs' => rwa [hs'] at hstage
    · next hs' => exact absurd hs' hs
    · next hs' => rwa [hs'] at hstage

/-- The cid of a connection is told. -/
theorem Inv.initialising {forWait : Bool} (h : w.Inv)
    (hpromised : w.Promised (.connectCfm forWait .initialising cid))
    (ht : (w.confirmed forWait .initialising cid).handleGattConnectCfm .initialising cid = some t) : t.Inv := by
  obtain ⟨hrequest, hcid, hother⟩ : w.request forWait = some none ∧ cid ≠ 0 ∧ w.request (!forWait) ≠ some (some cid) :=
    hpromised
  obtain rfl := some.inj ht
  cases forWait with
  | true =>
    have hs := h.stage.asked hrequest
    obtain ⟨hmessages, -, hzero, hpending, hhandler⟩ := h.stage.requested hs
    have hwaits := h.waits
    rw [hs] at hwaits
    rw [if_pos (show (w.confirmed true .initialising cid).advertisingState = .requested from hs)]
    refine ⟨⟨hmessages, rfl, hcid⟩, ⟨h.served.handler, fun cid' hcid' => ?_⟩, hwaits, h.cancels⟩
    refine ⟨(h.served.fresh cid' hcid').1, ?_⟩
    rintro rfl
    exact hother hcid'
  | false =>
    have hs : w.advertisingState ≠ .requested := by
      intro hs
      have hnone := h.served.handler (h.stage.requested hs).2.2.2.2
      exact absurd (hnone.symm.trans hrequest) nofun
    rw [if_neg (show (w.confirmed false .initialising cid).advertisingState ≠ .requested from hs)]
    refine ⟨h.stage, ⟨fun hzero => ?_, fun cid' hcid' => ?_⟩, h.waits, h.cancels⟩
    · exact absurd ((h.served.handler hzero).symm.trans hrequest) nofun
    · obtain rfl : cid = cid' := some.inj (some.inj hcid')
      refine ⟨hcid, fun heq => ?_⟩
      cases hs' : w.advertisingState with
      | idle => exact hcid (heq.trans (h.stage.idle hs').2.2.1)
      | queued => exact hcid (heq.trans (h.stage.queued hs').2.2.1)
      | requested => exact hs hs'
      | advertising => exact hother (heq ▸ (h.stage.advertising hs').2.1)

/-- The connection of a wait ends. -/
theorem Inv.clientConnected {status : GattStatus} (h : w.Inv)
    (hwaiting : w.advertisingState = .requested ∧ status ≠ .success ∨ w.advertisingState = .advertising)
    (hcid : cid = w.remoteClientCid)
    (hregular : status = .failure ∨ status = .success ∧ w.cancelPendingConnection = false)
    (ht : { w with waitRequest := none }.gattManagerServerRemoteClientConnected status cid = some t) : t.Inv := by
  have hmessages : w.waitMessages = [] := by
    obtain ⟨hs, -⟩ | hs := hwaiting
    · exact (h.stage.requested hs).1
    · exact (h.stage.advertising hs).1
  have hwaits : tally Obs.isWait Obs.answersWait w.log = some 1 := by
    have hidle : w.advertisingState ≠ .idle := by
      obtain ⟨hs, -⟩ | hs := hwaiting
      · rw [hs]
        exact nofun
      · rw [hs]
        exact nofun
    rw [h.waits, if_neg hidle]
  have hserved : ∀ cid, w.serverRequest = some (some cid) → cid ≠ 0 ∧ cid ≠ 0 :=
    fun cid hcid => ⟨(h.served.fresh cid hcid).1, (h.served.fresh cid hcid).1⟩
  obtain rfl | ⟨rfl, hpending⟩ := hregular
  · rw [gattManagerServerRemoteClientConnected, if_neg (not_not.mpr hcid)] at ht
    obtain rfl := some.inj ht
    rw [gattConnectCfmFailure]
    have hcancels := h.cancels
    cases hpending : w.cancelPendingConnection with
    | true =>
      rw [hpending] at hcancels
      exact ⟨⟨hmessages, rfl, rfl, rfl⟩, ⟨h.served.handler, hserved⟩, tally_close hwaits rfl rfl,
        tally_close hcancels rfl rfl⟩
    | false =>
      rw [hpending] at hcancels
      exact ⟨⟨hmessages, rfl, rfl, rfl⟩, ⟨h.served.handler, hserved⟩, tally_close hwaits rfl rfl,
        tally_other hcancels rfl rfl⟩
  · rw [gattManagerServerRemoteClientConnected, if_neg (not_not.mpr hcid)] at ht
    obtain rfl := some.inj ht
    rw [gattConnectCfmSuccess]
    have hcancels := h.cancels
    rw [hpending] at hcancels
    dsimp only
    rw [hpending, if_neg Bool.false_ne_true]
    exact ⟨⟨hmessages, rfl, rfl, rfl⟩, ⟨h.served.handler, hserved⟩, tally_close hwaits rfl rfl,
      tally_other hcancels rfl rfl⟩

theorem Inv.connectCfm {forWait : Bool} {status : GattStatus} (h : w.Inv)
    (hpromised : w.Promised (.connectCfm forWait status cid)) (hregular : w.Regular (.connectCfm forWait status cid))
    (ht : (w.confirmed forWait status cid).handleGattConnectCfm status cid = some t) : t.Inv := by
  by_cases hstatus : status = .initialising
  · subst hstatus
    exact h.initialising hpromised ht
  · rw [handleGattConnectCfm, if_neg hstatus, confirmed, if_neg hstatus] at ht
    rw [Promised, if_neg hstatus] at hpromised
    cases forWait with
    | true =>
      have hregular' : status = .failure ∨ status = .success ∧ w.cancelPendingConnection = false :=
        hregular.resolve_left hstatus
      obtain htold | ⟨hasked, rfl, hsuccess⟩ := hpromised
      · obtain ⟨hs, rfl⟩ := h.stage.told htold
        rw [if_pos rfl, if_pos rfl] at ht
        exact h.clientConnected (Or.inr hs) rfl hregular' ht
      · have hs := h.stage.asked hasked
        have hzero := (h.stage.requested hs).2.2.1
        rw [if_pos rfl, if_pos hzero.symm] at ht
        exact h.clientConnected (Or.inl ⟨hs, hsuccess⟩) hzero.symm hregular' ht
    | false =>
      have hne : cid ≠ w.remoteClientCid := by
        obtain htold | ⟨-, rfl, -⟩ := hpromised
        · exact (h.served.fresh cid htold).2
        · exact (hregular rfl).symm
      rw [if_neg Bool.false_ne_true, if_neg hne] at ht
      obtain rfl := some.inj ht
      refine ⟨?_, ⟨fun _ => rfl, nofun⟩, tally_other h.waits rfl rfl, tally_other h.cancels rfl rfl⟩
      have hstage := h.stage
      rw [Stage] at hstage ⊢
      dsimp only [gattManagerClientRemoteServerConnected, note]
      split
      · next hs' => rwa [hs'] at hstage
      · next hs' => rwa [hs'] at hstage
      · next hs' =>
        rw [hs'] at hstage
        exact ⟨hstage.1, hstage.2.1, hstage.2.2.1, hstage.2.2.2.1, rfl⟩
      · next hs' => rwa [hs'] at hstage

/-! ### Runs -/

theorem Inv.step {i : Input} (h : w.Inv) (hpromised : w.Promised i) (hregular : w.Regular i)
    (ht : w.step i = some t) : t.Inv := by
  cases i with
  | wait task taddr connType => exact h.wait ht
  | cancel =>
    exact Inv.cancel (w := w.note .cancel) h.stage ⟨h.served.handler, h.served.fresh⟩
      (tally_other h.waits rfl rfl) (tally_open h.cancels rfl) ht
  | connect m => exact h.connect ht
  | cancelMessage =>
    rw [Waits.step] at ht
    split_ifs at ht with hdue
    · have hcancels := h.cancels
      rw [hdue.1, Nat.add_comm] at hcancels
      exact Inv.cancel (w := { w with cancelMessage := false }) h.stage ⟨h.served.handler, h.served.fresh⟩ h.waits
        (by simpa using hcancels) ht
    · obtain rfl := some.inj ht
      exact h
  | waitMessage =>
    rw [Waits.step] at ht
    split at ht
    · next m ms hm =>
      split_ifs at ht
      · obtain rfl : ms = [] := by
          cases hs : w.advertisingState with
          | idle => exact absurd ((h.stage.idle hs).1.symm.trans hm) nofun
          | queued =>
            obtain ⟨m', hm'⟩ := (h.stage.queued hs).1
            exact (List.cons.inj (hm.symm.trans hm')).2
          | requested => exact absurd ((h.stage.requested hs).1.symm.trans hm) nofun
          | advertising => exact absurd ((h.stage.advertising hs).1.symm.trans hm) nofun
        exact h.waitMessage hm ht
      · obtain rfl := some.inj ht
        exact h
    · obtain rfl := some.inj ht
      exact h
  | connectMessage =>
    rw [Waits.step] at ht
    split at ht
    · next m ms hm =>
      split_ifs at ht
      · exact Inv.connect (w := { w with connectMessages := ms })
          ⟨h.stage, ⟨h.served.handler, h.served.fresh⟩, h.waits, h.cancels⟩ ht
      · obtain rfl := some.inj ht
        exact h
    · obtain rfl := some.inj ht
      exact h
  | connectCfm forWait status cid => exact h.connectCfm hpromised hregular ht

theorem Inv.answered (h : w.Inv) : w.Answered :=
  ⟨h.waits, h.cancels, fun hs => (h.stage.idle hs).2.2.2⟩

/-- In every run, every wait and every cancel is confirmed once, and nothing is left behind. -/
def AlwaysConfirmed : Prop :=
  ∀ (applicationTask : Task) (serverCount : ℕ) (is : List Input) (t : Waits),
    RunMeets Waits.step Promised (init applicationTask serverCount) is →
    Lib.run Waits.step (init applicationTask serverCount) is = some t → t.Confirmed

/-- Every run answers its waits and its cancels once and leaves nothing behind, as long as the connections of the
waits end regularly. -/
theorem answered_of_run {applicationTask : Task} {serverCount : ℕ} {is : List Input}
    (hpromised : Lib.RunMeets Waits.step Promised (init applicationTask serverCount) is)
    (hregular : Lib.RunMeets Waits.step Regular (init applicationTask serverCount) is)
    (hrun : Lib.run Waits.step (init applicationTask serverCount) is = some t) : t.Answered :=
  (run_invariant (fun _ _ _ h hok ht => h.step hok.1 hok.2 ht) (Inv.init applicationTask serverCount)
    (hpromised.and hregular) hrun).answered

instance (w : Waits) (i : Input) : Decidable (w.Promised i) := by
  unfold Promised
  split <;> infer_instance

instance (w : Waits) (i : Input) : Decidable (w.Regular i) := by
  unfold Regular
  split <;> infer_instance

/-- A wait, which is cancelled while it is requested, and another one that is connected. -/
def waitAndCancel : List Input :=
  [.wait 1 none .bleSlaveUndirected, .cancel, .connectCfm true .initialising 0x41, .cancelMessage,
    .connectCfm true .failure 0x41, .wait 1 none .bleSlaveUndirected, .connectCfm true .initialising 0x42,
    .connectCfm true .success 0x42]

/-- The first wait ends by its cancel and the second one by its connect confirm. -/
theorem answered_waitAndCancel : ∃ t, Lib.run Waits.step (init 9 1) waitAndCancel = some t ∧
    t.log.filter (fun o => o.answersWait) = [.cancelCfm 1 .success, .connectCfm 1 .success 0x42] ∧ t.Answered := by
  have hruns : (Lib.run Waits.step (init 9 1) waitAndCancel).any fun t =>
      t.log.filter (fun o => o.answersWait) = [.cancelCfm 1 .success, .connectCfm 1 .success 0x42] := by decide
  obtain ⟨t, ht, hlog⟩ := (any_eq_true _ _).mp hruns
  exact ⟨t, ht, of_decide_eq_true hlog, answered_of_run (by decide) (by decide) ht⟩

/-- A wait that is cancelled gets no connect confirm. -/
theorem not_alwaysConfirmed : ¬AlwaysConfirmed := by
  intro h
  have hruns : (Lib.run Waits.step (init 9 1) [.wait 1 none .bleSlaveUndirected,
      .connectCfm true .initialising 0x41, .cancel, .connectCfm true .failure 0x41]).any fun t =>
      tally Obs.isWait Obs.isConnectCfm t.log = some 1 ∧ t.advertisingState = .idle := by decide
  obtain ⟨t, ht, hend⟩ := (any_eq_true _ _).mp hruns
  obtain ⟨htally, hidle⟩ := of_decide_eq_true hend
  have hwaits := (h 9 1 _ t (by decide) ht).waits
  rw [htally, if_pos hidle] at hwaits
  exact absurd (some.inj hwaits) Nat.one_ne_zero

/-- A cancel that crosses with the connection is confirmed, and stays pending. -/
example : (Lib.run Waits.step (init 9 1) [.wait 1 none .bleSlaveUndirected,
    .connectCfm true .initialising 0x41, .cancel, .connectCfm true .success 0x41]).any fun t =>
    t.advertisingState = .idle ∧ t.cancelPendingConnection = true := by decide

end Waits

end Cbps.GattManager
