import Cbps.HfpLink.Task
import Cbps.Lib.Runs

/-!
# Connections of the HFP task

`hfp_slc_handler.c`, `hfp_rfc.c` and `hfp_sdp.c`: a link is connected, lost, connected again and
taken down, and its service record comes and goes with it. `step` is the part of `hfpProfileHandler`
and of the interface of the library that these files are called from, for links without audio.
-/

namespace Cbps.HfpLink

open Hfp (HfpCallState)

/-- `rfcomm_connect_status`. -/
inductive RfcommConnectStatus
  | success
  | pending
  | failed
  | channelNotRegistered
  | securityNotSet
  | declined
  | rejected
  | channelAlreadyOpen
  | rejectedSecurity
  | resAckTimeout
  | inconsistentParameters
  | l2capError
  deriving DecidableEq, Repr

/-- `rfcomm_disconnect_status`, where `other` stands for the statuses that are handled alike. -/
inductive RfcommDisconnectStatus
  | success
  | normalDisconnect
  | abnormalDisconnect
  | unknownSink
  | l2capLinkLoss
  | other
  deriving DecidableEq, Repr

/-- What `CL_SDP_SERVICE_SEARCH_ATTRIBUTE_CFM` says: the attributes, with a server channel or not, or
why there are none. -/
inductive SearchResult
  | success (channel : Option ℕ)
  | noResponseData
  | connectionError
  | failed
  deriving DecidableEq, Repr

def Message.isReconnect (i : ℕ) : Message → Bool
  | linkLossReconnect j _ => i = j
  | _ => false

def Message.isTimeout (i : ℕ) : Message → Bool
  | linkLossTimeout j _ => i = j
  | _ => false

namespace Task

/-- `MessageCancelFirst`, for a message that is queued. -/
def cancelFirst (t : Task) (p : Message → Bool) : Task := { t with messages := t.messages.eraseP p }

/-! ### Link loss -/

/-- `hfpGetProfileServerChannel`. -/
def hfpGetProfileServerChannel (t : Task) (i : ℕ) (service : Option ℕ) (bdAddr : ℕ) : Task :=
  let t := t.hfpLinkSetup i service bdAddr none .searching
  t.output (.sdpServiceSearch bdAddr (t.hfpLinkIsHsp (some i)))

/-- `hfpSendSlcDisconnectIndToApp`. -/
def hfpSendSlcDisconnectIndToApp (t : Task) (link : Option ℕ) (status : HfpDisconnectStatus) : Task :=
  let message := Output.slcDisconnectInd status (t.hfpGetLinkPriority link)
    ((t.hfpGetLinkBdaddr link).getD 0)
  let t :=
    match link with
    | some i => if status ≠ HfpDisconnectStatus.noSlc then t.hfpLinkReset i true else t
    | none => t
  t.output message

/-- `hfpHandleRfcommLinkLossReconnect`. -/
def hfpHandleRfcommLinkLossReconnect (t : Task) (i : ℕ) : Task :=
  let link := t.link i
  if link.manageLinkloss ∧ link.agLinkLossState = .recovery ∧ LinkData.hasBdaddr link then
    let profile := t.hfpLinkGetProfile (some i)
    -- the secondary link is not promoted
    let t := t.hfpLinkReset i false
    let t := t.modifyLink i fun zero =>
      { zero with
        agLinkLossState := .recovery
        agProfilesToTry := profile
        priority := link.priority
        episode := link.episode }
    let t := t.hfpGetProfileServerChannel i link.service link.bdAddr
    t.output (.slcLinkLossInd .recovery link.priority)
  else t.hfpSendSlcDisconnectIndToApp (some i) .linkLoss

/-- `ag_link_loss_state` is set. -/
def setLinkLossState (t : Task) (i : ℕ) (state : HfpLinkLossStatus) : Task :=
  t.modifyLink i fun link => { link with agLinkLossState := state }

/-- A link loss starts, and has a time. -/
def beginEpisode (t : Task) (i : ℕ) : Task :=
  (Task.send { t with episodes := t.episodes + 1 } (.linkLossTimeout i (some t.episodes))).modifyLink i
    fun link => { link with agLinkLossState := .recovery, episode := some t.episodes }

/-- The first part of `hfpHandleRfcommLinkLoss`. -/
def startLinkLoss (t : Task) (i : ℕ) : Task :=
  if (t.link i).manageLinkloss ∧ t.linkLossTime ≠ 0 then t.beginEpisode i else t

/-- `hfpHandleRfcommLinkLoss`. -/
def hfpHandleRfcommLinkLoss (t : Task) (i : ℕ) : Task :=
  (t.startLinkLoss i).hfpHandleRfcommLinkLossReconnect i

/-- `hfpHandleRfcommLinkLossComplete`. -/
def hfpHandleRfcommLinkLossComplete (t : Task) (i : ℕ) (status : HfpConnectStatus) : Task :=
  if status = .success then
    let t := t.output (.slcLinkLossInd .none (t.hfpGetLinkPriority (some i)))
    let t := t.modifyLink i fun link => { link with agLinkLossState := .none, episode := none }
    t.cancelFirst (Message.isTimeout i)
  else t.send (.linkLossReconnect i (t.link i).episode)

/-- `hfpHandleRfcommLinkLossAbort`. -/
def hfpHandleRfcommLinkLossAbort (t : Task) (i : ℕ) (forceDisconnect : Bool) : Task :=
  let aborted := t.setLinkLossState i .abort
  if t.messages.any (Message.isReconnect i) then
    (aborted.cancelFirst (Message.isReconnect i)).hfpHandleRfcommLinkLossReconnect i
  else if forceDisconnect then aborted.send (.slcDisconnectReq (some i))
  else aborted

/-- `hfpHandleRfcommLinkLossTimeout`. -/
def hfpHandleRfcommLinkLossTimeout (t : Task) (i : ℕ) : Task :=
  let t := t.hfpHandleRfcommLinkLossAbort i false
  if (t.link i).agLinkLossState = .abort then t.setLinkLossState i .timeout else t

/-! ### Service level connections -/

/-- `hfpSlcConnectTidy`. -/
def hfpSlcConnectTidy (t : Task) (i : ℕ) : Task :=
  let t :=
    match (t.link i).service with
    | some s => if (t.link i).ownsService then t.hfpUnregisterServiceRecord s else t
    | none => t
  t.hfpSetLinkSlcState i .complete

/-- `hfpSendSlcConnectCfmToApp` for a link. -/
def hfpSendSlcConnectCfmToApp (t : Task) (i : ℕ) (status : HfpConnectStatus) : Task :=
  if (t.link i).agLinkLossState ≠ .none then
    let t := if status = .success then t.hfpSlcConnectTidy i else t
    t.hfpHandleRfcommLinkLossComplete i status
  else
    let message := Output.slcConnectCfm status (t.hfpGetLinkPriority (some i))
      ((t.hfpGetLinkBdaddr (some i)).getD 0)
    let t :=
      if status = .success then t.hfpSlcConnectTidy i
      else if status ≠ .failedBusy then t.hfpLinkReset i true
      else t
    t.output message

/-- `ag_profiles_to_try` is set. -/
def setProfilesToTry (t : Task) (i : ℕ) (profiles : HfpProfile) : Task :=
  t.modifyLink i fun link => { link with agProfilesToTry := profiles }

/-- An idle link is connected from the service `s`. -/
def connectFrom (t : Task) (i s : ℕ) (profiles : HfpProfile) (bdAddr : ℕ) : Task :=
  (t.setProfilesToTry i profiles).hfpGetProfileServerChannel i (some s) bdAddr

/-- `HfpSlcConnectRequest`. -/
def hfpSlcConnectRequest (t : Task) (bdAddr : ℕ) (profiles firstAttempt : HfpProfile) : Task :=
  -- without resources, the link is `NULL`
  let busy := t.output (.slcConnectCfm .failedBusy .invalidLink bdAddr)
  if (t.hfpGetLinkFromBdaddr bdAddr).isSome then busy
  else
    match t.hfpGetIdleLink with
    | none => busy
    | some i =>
      match t.hfpGetServiceFromProfile firstAttempt with
      | some s => t.connectFrom i s profiles bdAddr
      | none =>
        match t.hfpGetServiceFromProfile (profiles &&& ~~~firstAttempt) with
        | some s => t.connectFrom i s (profiles &&& ~~~firstAttempt) bdAddr
        | none => busy

/-- `hfpHandleDisconnectRequest`, without audio. -/
def hfpHandleDisconnectRequest (t : Task) (i : ℕ) : Task :=
  let link := t.link i
  if link.agLinkLossState = .recovery ∨ link.agLinkLossState = .timeout then
    (t.cancelFirst (Message.isTimeout i)).hfpHandleRfcommLinkLossAbort i true
  else if link.agSlcState = .searching then t.hfpSendSlcConnectCfmToApp i .sdpFail
  else t.output (.rfcommDisconnectRequest link.sink)

/-! ### SDP -/

/-- `hfpSdpRetry`. -/
def hfpSdpRetry (t : Task) (i : ℕ) : Task :=
  let profiles := (t.link i).agProfilesToTry &&& ~~~t.hfpLinkGetProfile (some i)
  let t := t.setProfilesToTry i profiles
  match t.hfpGetServiceFromProfile profiles with
  | some s => t.hfpGetProfileServerChannel i (some s) ((t.hfpGetLinkBdaddr (some i)).getD 0)
  | none => t.hfpSendSlcConnectCfmToApp i .sdpFail

/-- `hfpHandleServiceSearchAttributeCfm`. -/
def hfpHandleServiceSearchAttributeCfm (t : Task) (bdAddr : ℕ) (result : SearchResult) : Task :=
  match t.hfpGetLinkFromBdaddr bdAddr with
  | none => t
  | some i =>
    if (t.link i).agSlcState = .searching then
      match result with
      | .success (some channel) =>
        let localChannel := (((t.link i).service.map t.service).map ServiceData.rfcServerChannel).getD 0
        (t.hfpSetLinkSlcState i .outgoing).output (.rfcommConnectRequest bdAddr localChannel channel)
      | .success none => t.hfpSdpRetry i
      | .noResponseData => t.hfpSdpRetry i
      | .connectionError => t.hfpSendSlcConnectCfmToApp i .timeout
      | .failed => t.hfpSendSlcConnectCfmToApp i .failed
    else t

/-! ### RFCOMM -/

/-- The end of `hfpHandleRfcommConnectInd`. -/
def respond (t : Task) (accept : Bool) (ind : ConnectInd) : Task :=
  (t.output (.rfcommConnectResponse accept ind.sink)).output (.slcConnectInd ind.bdAddr accept)

/-- An incoming connection is accepted on the link. -/
def accept (t : Task) (i s : ℕ) (ind : ConnectInd) : Task :=
  (t.hfpLinkSetup i (some s) ind.bdAddr (some ind.sink) .incoming).respond true ind

/-- `hfpHandleRfcommConnectInd` for a device that has a link. -/
def connectIndOnLink (t : Task) (i s : ℕ) (ind : ConnectInd) : Task :=
  if (t.link i).agLinkLossState = .recovery ∧ t.messages.any (Message.isReconnect i) then
    (t.cancelFirst (Message.isReconnect i)).accept i s ind
  else
    match (t.link i).agSlcState with
    | .idle => t.accept i s ind
    | .searching => (t.hfpSendSlcConnectCfmToApp i .failedCrossover).accept i s ind
    | .outgoing => t.send (.rfcommConnectInd ind)
    | _ => t.respond false ind

/-- `hfpHandleRfcommConnectInd`. -/
def hfpHandleRfcommConnectInd (t : Task) (ind : ConnectInd) : Task :=
  match t.hfpGetServiceFromChannel ind.serverChannel with
  | none => t.respond false ind
  | some s =>
    if (t.service s).busy then t.respond false ind
    else
      match t.hfpGetLinkFromBdaddr ind.bdAddr with
      | some i => t.connectIndOnLink i s ind
      | none =>
        match t.hfpGetIdleLink with
        | some i => t.accept i s ind
        | none => t.respond false ind

/-- `hfpHandleRfcommConnectCfm`. -/
def hfpHandleRfcommConnectCfm (t : Task) (bdAddr : ℕ) (sink : Sink) (status : RfcommConnectStatus) :
    Task :=
  match t.hfpGetLinkFromBdaddr bdAddr with
  | none => t
  | some i =>
    match status with
    | .success =>
      let t := t.hfpSetLinkSlcState i .connected
      -- with an HFP device, the AT commands follow
      if t.hfpLinkIsHsp (some i) then t.hfpSendSlcConnectCfmToApp i .success else t
    | .pending => t.modifyLink i fun link => { link with sink := some sink }
    | .declined => t
    | .channelNotRegistered | .securityNotSet =>
      t.hfpSendSlcConnectCfmToApp i .serverChannelNotRegistered
    | .rejected => t.hfpSendSlcConnectCfmToApp i .rejected
    | .rejectedSecurity => t.hfpSendSlcConnectCfmToApp i .rejectedSecurity
    | .resAckTimeout => t.hfpSendSlcConnectCfmToApp i .timeout
    | .channelAlreadyOpen | .l2capError | .failed | .inconsistentParameters =>
      t.hfpSendSlcConnectCfmToApp i .failed

/-- `hfpHandleRfcommDisconnect`, on the link that `PanicNull` lets through. -/
def hfpHandleRfcommDisconnect (t : Task) (i : ℕ) (status : RfcommDisconnectStatus) : Task :=
  if (t.link i).agSlcState ≠ .complete then t.hfpSendSlcConnectCfmToApp i .slcFailed
  else
    match status with
    | .success | .normalDisconnect => t.hfpSendSlcDisconnectIndToApp (some i) .success
    | .abnormalDisconnect => t.hfpSendSlcDisconnectIndToApp (some i) .abnormally
    | .l2capLinkLoss => t.hfpHandleRfcommLinkLoss i
    | .unknownSink | .other => t.hfpSendSlcDisconnectIndToApp (some i) .error

/-! ### Service records -/

/-- `hfpInitRfcommRegisterCfm`. -/
def hfpInitRfcommRegisterCfm (t : Task) (success : Bool) (channel : ℕ) : Task :=
  if success then
    let s := t.rfcommIndex
    -- the channel need not be the one that was asked for
    let t := t.modifyService s fun service => { service with rfcServerChannel := channel }
    let t := t.hfpRegisterServiceRecord s
    if !t.isTop s then
      let t := { t with rfcommIndex := s + 1 }
      t.output (.rfcommChannelRegister (t.service (s + 1)).rfcServerChannel)
    else t
  else t.hfpInitCfmToApp .rfcChanFail

/-- `hfpInitSdpRegisterCfm`. Without a service for the channel the source writes through `NULL`. -/
def hfpInitSdpRegisterCfm (t : Task) (success : Bool) (handle : ℕ) : Option Task :=
  if success then
    (t.hfpGetServiceFromChannel t.busyChannel).map fun s =>
      (t.modifyService s fun service =>
        { service with sdpRecordHandle := handle }).hfpInitSdpRegisterComplete true
  else some (t.hfpInitSdpRegisterComplete false)

/-- `hfpHandleSdpRegisterCfm`. -/
def hfpHandleSdpRegisterCfm (t : Task) (success : Bool) (handle : ℕ) : Task :=
  match t.hfpGetServiceFromChannel t.busyChannel with
  | none => t
  | some s =>
    let link := t.hfpGetLinkFromService s
    if success then
      let t := t.modifyService s fun service => { service with sdpRecordHandle := handle }
      let t := { t with busyChannel := 0 }
      -- the service has been connected in the meantime
      if t.linkIsConnected link then t.hfpUnregisterServiceRecord s else t
    else t

/-- `handleSdpUnregisterCfm`. -/
def handleSdpUnregisterCfm (t : Task) (success : Bool) (handle : ℕ) : Task :=
  match t.hfpGetServiceFromHandle handle with
  | none => t
  | some s =>
    if success then
      let profile := (t.service s).profile
      let t := t.modifyService s fun service => { service with sdpRecordHandle := 0 }
      if t.hfpGetVisibleServiceFromProfile profile = none then
        match t.hfpGetDisconnectedServiceFromProfile profile with
        | some s => t.hfpRegisterServiceRecord s
        | none => t
      else t
    else t

/-! ### The interface of the library -/

/-- `HfpSlcDisconnectRequest`. -/
def hfpSlcDisconnectRequest (t : Task) (priority : HfpLinkPriority) : Task :=
  t.send (.slcDisconnectReq (t.hfpGetLinkFromPriority priority))

/-- `HfpLinkLossLinkPriority`. -/
def hfpLinkLossLinkPriority (t : Task) : HfpLinkPriority :=
  ((t.links.find? fun link => link.agLinkLossState = .recovery).map LinkData.priority).getD
    .invalidLink

/-- The number of a priority in `hfp_link_priority`. -/
def priorityIndex : HfpLinkPriority → ℕ
  | .invalidLink => 0
  | .primaryLink => 1
  | .secondaryLink => 2

/-- `manage_linkloss` of a link is set. -/
def setManageLinkloss (t : Task) (link : Option ℕ) (enable : Bool) : Task :=
  match link with
  | some i => t.modifyLink i fun link => { link with manageLinkloss := enable }
  | none => t

/-- `HfpManageLinkLoss`. It aborts the link loss of `theHfp->links[lost_link_priority]`, which need
not be a link. -/
def hfpManageLinkLoss (t : Task) (priority : HfpLinkPriority) (enable : Bool) : Option Task :=
  if priority ≠ .invalidLink then
    let lost := t.hfpLinkLossLinkPriority
    let managed := t.setManageLinkloss (t.hfpGetLinkFromPriority priority) enable
    if priority = lost ∧ enable = false then
      if priorityIndex lost < t.links.length then
        some (managed.hfpHandleRfcommLinkLossAbort (priorityIndex lost) true)
      else none
    else some managed
  else some t

/-- `hfpLinkDisable`. -/
def hfpLinkDisable (t : Task) (link : Option ℕ) (disable : Bool) : Task :=
  match link with
  | none => t
  | some i =>
    if disable then
      if (t.link i).agSlcState = .idle then t.hfpSetLinkSlcState i .disabled else t
    else if (t.link i).agSlcState = .disabled then t.hfpSetLinkSlcState i .idle
    else t

/-- `HfpLinkSetMaxConnections`. -/
def hfpLinkSetMaxConnections (t : Task) (maxConnections : ℕ) : Task :=
  let count := t.links.countP fun link => link.agSlcState ≠ .disabled
  if maxConnections = count then t
  else if count < maxConnections then
    t.hfpLinkDisable (t.links.findIdx? fun link => link.agSlcState = .disabled) false
  else t.hfpLinkDisable t.hfpGetIdleLink true

/-- `hfpProfileHandler` for a message of the task to itself. -/
def deliver (t : Task) : Message → Task
  | .sdpRegisterReq s => t.hfpRegisterServiceRecord s
  | .slcDisconnectReq link =>
    match link with
    | none => t.hfpSendSlcDisconnectIndToApp none .noSlc
    | some i =>
      match (t.link i).agSlcState with
      | .idle | .disabled => t.hfpSendSlcDisconnectIndToApp (some i) .noSlc
      | _ => t.hfpHandleDisconnectRequest i
  | .linkLossReconnect i _ =>
    match (t.link i).agSlcState with
    | .idle | .disabled | .complete => t
    | _ => t.hfpHandleRfcommLinkLossReconnect i
  | .linkLossTimeout i _ =>
    match (t.link i).agSlcState with
    | .idle | .disabled | .complete => t
    | _ => t.hfpHandleRfcommLinkLossTimeout i
  | .rfcommConnectInd ind => t.hfpHandleRfcommConnectInd ind

end Task

/-! ### Runs -/

/-- What the application, the connection library, the AT parser and the scheduler do. -/
inductive Event
  | slcConnectRequest (bdAddr : ℕ) (profiles firstAttempt : HfpProfile)
  | slcDisconnectRequest (priority : HfpLinkPriority)
  | manageLinkLoss (priority : HfpLinkPriority) (enable : Bool)
  | linkSetMaxConnections (maxConnections : ℕ)
  | rfcommConnectInd (ind : ConnectInd)
  | rfcommConnectCfm (bdAddr : ℕ) (sink : Sink) (status : RfcommConnectStatus)
  | rfcommDisconnectInd (sink : Sink) (status : RfcommDisconnectStatus)
  | rfcommDisconnectCfm (sink : Sink) (status : RfcommDisconnectStatus)
  | serviceSearchAttributeCfm (bdAddr : ℕ) (result : SearchResult)
  | slcEstablished (link : ℕ)
  | slcAtFailed (link : ℕ)
  | callState (link : ℕ) (callState : HfpCallState)
  | deliver (message : Message)
  | rfcommRegisterCfm (success : Bool) (channel : ℕ)
  | sdpRegisterCfm (success : Bool) (handle : ℕ)
  | sdpUnregisterCfm (success : Bool) (handle : ℕ)
  deriving DecidableEq

/-- A message can be delivered when it has been sent, and `HFP_INTERNAL_SDP_REGISTER_REQ` when no
channel is being registered. -/
def Task.canDeliver (t : Task) (message : Message) : Prop :=
  message ∈ t.messages ∧
    match message with
    | .sdpRegisterReq _ => t.busyChannel = 0
    | _ => True

instance (t : Task) : (message : Message) → Decidable (t.canDeliver message)
  | .sdpRegisterReq _ => inferInstanceAs (Decidable (_ ∧ _ = _))
  | .slcDisconnectReq _ | .linkLossReconnect _ _ | .linkLossTimeout _ _ | .rfcommConnectInd _ =>
    inferInstanceAs (Decidable (_ ∧ True))

/-- One event, once the task has been initialised. `none` says that the task panics, or leaves its
links. -/
def stepRun (t : Task) : Event → Option Task
  | .slcConnectRequest bdAddr profiles firstAttempt =>
    some (t.hfpSlcConnectRequest bdAddr profiles firstAttempt)
  | .slcDisconnectRequest priority => some (t.hfpSlcDisconnectRequest priority)
  | .manageLinkLoss priority enable => t.hfpManageLinkLoss priority enable
  | .linkSetMaxConnections maxConnections => some (t.hfpLinkSetMaxConnections maxConnections)
  | .rfcommConnectInd ind => some (t.hfpHandleRfcommConnectInd ind)
  | .rfcommConnectCfm bdAddr sink status => some (t.hfpHandleRfcommConnectCfm bdAddr sink status)
  | .rfcommDisconnectInd sink status =>
    (t.hfpGetLinkFromSink sink).map fun i => t.hfpHandleRfcommDisconnect i status
  | .rfcommDisconnectCfm sink status =>
    if status = .unknownSink then some t
    else (t.hfpGetLinkFromSink sink).map fun i => t.hfpHandleRfcommDisconnect i status
  | .serviceSearchAttributeCfm bdAddr result =>
    some (t.hfpHandleServiceSearchAttributeCfm bdAddr result)
  | .slcEstablished i =>
    if i < t.links.length then some (t.hfpSendSlcConnectCfmToApp i .success) else none
  | .slcAtFailed i =>
    if (t.link i).agSlcState = .connected then some (t.send (.slcDisconnectReq (some i))) else some t
  | .callState i callState =>
    if i < t.links.length then some (t.hfpSetLinkCallState i callState) else none
  | .deliver message =>
    if t.canDeliver message then
      some ({ t with messages := t.messages.erase message }.deliver message)
    else none
  | .rfcommRegisterCfm _ _ => some t
  | .sdpRegisterCfm success handle => some (t.hfpHandleSdpRegisterCfm success handle)
  | .sdpUnregisterCfm success handle => some (t.handleSdpUnregisterCfm success handle)

/-- One event while the task is being initialised. The handler ignores what it does not expect, and
the application waits for `HFP_INIT_CFM`. -/
def stepInit (t : Task) : Event → Option Task
  | .rfcommRegisterCfm success channel => some (t.hfpInitRfcommRegisterCfm success channel)
  | .sdpRegisterCfm success handle => t.hfpInitSdpRegisterCfm success handle
  | .deliver (.sdpRegisterReq s) =>
    if t.canDeliver (.sdpRegisterReq s) then
      some ({ t with messages := t.messages.erase (.sdpRegisterReq s) }.hfpRegisterServiceRecord s)
    else none
  | _ => some t

/-- One event. Nothing is left of a task that has been freed. -/
def step (t : Task) (e : Event) : Option Task :=
  if t.freed then none else if t.initialised then stepRun t e else stepInit t e

end Cbps.HfpLink
