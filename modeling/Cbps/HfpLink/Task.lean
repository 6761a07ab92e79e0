import Cbps.Hfp.CallState
import Mathlib.Data.Nat.Notation

/-!
# Links and services of the HFP task

The data of `hfp_link_manager.c` and `hfp_service_manager.c`: the configured links, the services
that they use, and the messages that the task has sent to itself. A pointer to a link or a service
is its index. `episode` numbers the link losses, which the source does not do: it is carried by the
messages that are scheduled for one, and no function of the source reads it.
-/

namespace Cbps.HfpLink

open Hfp (HfpCallState)

/-- `hfp_link_priority`. -/
inductive HfpLinkPriority
  | invalidLink
  | primaryLink
  | secondaryLink
  deriving DecidableEq, Repr

/-- `hfp_slc_state`. -/
inductive HfpSlcState
  | idle
  | disabled
  | searching
  | outgoing
  | incoming
  | connected
  | complete
  deriving DecidableEq, Repr

/-- `hfp_link_loss_status`. -/
inductive HfpLinkLossStatus
  | none
  | recovery
  | timeout
  | abort
  deriving DecidableEq, Repr

/-- `hfp_connect_status`. -/
inductive HfpConnectStatus
  | success
  | sdpFail
  | slcFailed
  | failedBusy
  | failed
  | serverChannelNotRegistered
  | timeout
  | rejected
  | rejectedSecurity
  | failedCrossover
  deriving DecidableEq, Repr

/-- `hfp_disconnect_status`. -/
inductive HfpDisconnectStatus
  | success
  | linkLoss
  | noSlc
  | abnormally
  | error
  deriving DecidableEq, Repr

/-- `hfp_init_status`. -/
inductive HfpInitStatus
  | success
  | reinitFail
  | rfcChanFail
  | sdpRegFail
  deriving DecidableEq, Repr

/-- `hfp_profile`, a mask. -/
abbrev HfpProfile := BitVec 3

def hfpHeadsetAll : HfpProfile := 1

def hfpHandsfreeAll : HfpProfile := 6

def hfpHandsfree106Profile : HfpProfile := 4

/-- `hfp_handsfree_profile`. -/
def hfpHandsfreeProfile : HfpProfile := 2

/-- `supportedProfileIsHsp`. -/
def supportedProfileIsHsp (profile : HfpProfile) : Bool := profile &&& hfpHeadsetAll ≠ 0

/-- `supportedProfileIsHfp`. -/
def supportedProfileIsHfp (profile : HfpProfile) : Bool := profile &&& hfpHandsfreeAll ≠ 0

/-- A stream sink, with the device at its other end. -/
structure Sink where
  id : ℕ
  bdAddr : ℕ
  deriving DecidableEq, Repr

/-- `hfp_service_data`. -/
structure ServiceData where
  sdpRecordHandle : ℕ
  rfcServerChannel : ℕ
  profile : HfpProfile
  busy : Bool
  deriving DecidableEq, Repr

/-- `hfp_link_data`, as far as connections go, and the link loss that the link recovers from. -/
structure LinkData where
  bdAddr : ℕ
  sink : Option Sink
  service : Option ℕ
  ownsService : Bool
  priority : HfpLinkPriority
  manageLinkloss : Bool
  agSlcState : HfpSlcState
  agCallState : HfpCallState
  agLinkLossState : HfpLinkLossStatus
  agProfilesToTry : HfpProfile
  episode : Option ℕ
  deriving DecidableEq, Repr

/-- The link after `memset`, which keeps who manages its link loss. -/
def LinkData.zero (manageLinkloss : Bool) : LinkData where
  bdAddr := 0
  sink := none
  service := none
  ownsService := false
  priority := .invalidLink
  manageLinkloss := manageLinkloss
  agSlcState := .idle
  agCallState := .idle
  agLinkLossState := .none
  agProfilesToTry := 0
  episode := none

/-- `CL_RFCOMM_CONNECT_IND_T`, with a valid sink. -/
structure ConnectInd where
  bdAddr : ℕ
  serverChannel : ℕ
  sink : Sink
  deriving DecidableEq, Repr

/-- What the task sends to itself. -/
inductive Message
  | sdpRegisterReq (service : ℕ)
  | slcDisconnectReq (link : Option ℕ)
  | linkLossReconnect (link : ℕ) (episode : Option ℕ)
  | linkLossTimeout (link : ℕ) (episode : Option ℕ)
  | rfcommConnectInd (ind : ConnectInd)
  deriving DecidableEq, Repr

/-- What the task tells the application, and what it asks the connection library for. -/
inductive Output
  | initCfm (status : HfpInitStatus)
  | slcConnectInd (bdAddr : ℕ) (accepted : Bool)
  | slcConnectCfm (status : HfpConnectStatus) (priority : HfpLinkPriority) (bdAddr : ℕ)
  | slcDisconnectInd (status : HfpDisconnectStatus) (priority : HfpLinkPriority) (bdAddr : ℕ)
  | slcLinkLossInd (status : HfpLinkLossStatus) (priority : HfpLinkPriority)
  | callStateInd (priority : HfpLinkPriority) (callState : HfpCallState)
  | registerServiceRecord (channel : ℕ) (profile : HfpProfile)
  | unregisterServiceRecord (handle : ℕ)
  | sdpServiceSearch (bdAddr : ℕ) (hsp : Bool)
  | rfcommChannelRegister (channel : ℕ)
  | rfcommConnectRequest (bdAddr localChannel remoteChannel : ℕ)
  | rfcommConnectResponse (accept : Bool) (sink : Sink)
  | rfcommDisconnectRequest (sink : Option Sink)
  deriving DecidableEq, Repr

/-- `hfp_task_data`. `freed` says that the task has been given back, and `rfcommIndex` is the
static `index` of `hfpInitRfcommRegisterCfm`. -/
structure Task where
  initialised : Bool
  freed : Bool
  linkLossTime : ℕ
  firstIncomingCall : HfpLinkPriority
  busyChannel : ℕ
  links : List LinkData
  services : List ServiceData
  rfcommIndex : ℕ
  messages : List Message
  episodes : ℕ
  log : List Output
  deriving DecidableEq, Repr

namespace Task

def link (t : Task) (i : ℕ) : LinkData := t.links.getD i (LinkData.zero false)

def modifyLink (t : Task) (i : ℕ) (f : LinkData → LinkData) : Task :=
  { t with links := t.links.modify i f }

def service (t : Task) (s : ℕ) : ServiceData := t.services.getD s ⟨0, 0, 0, false⟩

def modifyService (t : Task) (s : ℕ) (f : ServiceData → ServiceData) : Task :=
  { t with services := t.services.modify s f }

def output (t : Task) (out : Output) : Task := { t with log := t.log ++ [out] }

/-- `MessageSend`, `MessageSendLater` and `MessageSendConditionally`. -/
def send (t : Task) (message : Message) : Task := { t with messages := t.messages ++ [message] }

/-! ### The link manager -/

/-- `hfpSetLinkPriority`. -/
def hfpSetLinkPriority (t : Task) (link : Option ℕ) (priority : HfpLinkPriority) : Task :=
  match link with
  | some i => t.modifyLink i fun link => { link with priority := priority }
  | none => t

/-- `hfpGetLinkPriority`. -/
def hfpGetLinkPriority (t : Task) (link : Option ℕ) : HfpLinkPriority :=
  match link with
  | some i => (t.link i).priority
  | none => .invalidLink

/-- `hfpGetLinkFromPriority`. -/
def hfpGetLinkFromPriority (t : Task) (priority : HfpLinkPriority) : Option ℕ :=
  if t.initialised ∧ priority ≠ .invalidLink then
    t.links.findIdx? fun link => link.priority = priority
  else none

def LinkData.hasBdaddr (link : LinkData) : Bool :=
  link.agSlcState ≠ .idle ∧ link.agSlcState ≠ .disabled

/-- `hfpGetLinkBdaddr`. -/
def hfpGetLinkBdaddr (t : Task) (link : Option ℕ) : Option ℕ :=
  match link with
  | some i => if LinkData.hasBdaddr (t.link i) then some (t.link i).bdAddr else none
  | none => none

/-- `hfpGetLinkFromBdaddr`. -/
def hfpGetLinkFromBdaddr (t : Task) (bdAddr : ℕ) : Option ℕ :=
  t.links.findIdx? fun link => LinkData.hasBdaddr link ∧ link.bdAddr = bdAddr

/-- `hfpGetLinkFromSink`. -/
def hfpGetLinkFromSink (t : Task) (sink : Sink) : Option ℕ :=
  t.links.findIdx? fun link =>
    match link.agSlcState with
    | .idle | .disabled => false
    | .searching => sink.bdAddr = link.bdAddr
    | _ => link.sink = some sink

/-- `hfpGetIdleLink`. -/
def hfpGetIdleLink (t : Task) : Option ℕ :=
  t.links.findIdx? fun link => link.agSlcState = .idle ∧ link.agLinkLossState ≠ .recovery

/-- `hfpGetLinkFromService`. -/
def hfpGetLinkFromService (t : Task) (s : ℕ) : Option ℕ :=
  t.links.findIdx? fun link => link.service = some s ∧ link.ownsService

/-- `hfpLinkGetProfile`. -/
def hfpLinkGetProfile (t : Task) (link : Option ℕ) : HfpProfile :=
  match link.bind fun i => (t.link i).service with
  | some s => (t.service s).profile
  | none => 0

/-- `hfpLinkIsHsp`. -/
def hfpLinkIsHsp (t : Task) (link : Option ℕ) : Bool := supportedProfileIsHsp (t.hfpLinkGetProfile link)

/-- `hfpLinkIsHfp`. -/
def hfpLinkIsHfp (t : Task) (link : Option ℕ) : Bool := supportedProfileIsHfp (t.hfpLinkGetProfile link)

/-- `hfpSetLinkSlcState`. -/
def hfpSetLinkSlcState (t : Task) (i : ℕ) (slcState : HfpSlcState) : Task :=
  t.modifyLink i fun link => { link with agSlcState := slcState }

/-- `hfpSetLinkCallState`. -/
def hfpSetLinkCallState (t : Task) (i : ℕ) (callState : HfpCallState) : Task :=
  if (t.link i).agCallState ≠ callState then
    let priority := t.hfpGetLinkPriority (some i)
    -- the first incoming call
    let first :=
      if callState = .incoming then
        if t.firstIncomingCall = .invalidLink then priority else t.firstIncomingCall
      else if t.firstIncomingCall = priority then .invalidLink
      else t.firstIncomingCall
    let t := { t with firstIncomingCall := first }
    let t := t.output (.callStateInd priority callState)
    t.modifyLink i fun link => { link with agCallState := callState }
  else t

/-! ### The service manager -/

/-- `hfpGetServiceFromChannel`. -/
def hfpGetServiceFromChannel (t : Task) (channel : ℕ) : Option ℕ :=
  t.services.findIdx? fun service => service.rfcServerChannel = channel

/-- `hfpGetServiceFromHandle`. -/
def hfpGetServiceFromHandle (t : Task) (handle : ℕ) : Option ℕ :=
  t.services.findIdx? fun service => service.sdpRecordHandle = handle

/-- `hfpGetServiceFromProfile`. -/
def hfpGetServiceFromProfile (t : Task) (profile : HfpProfile) : Option ℕ :=
  t.services.findIdx? fun service => service.profile &&& profile ≠ 0

/-- `hfpGetVisibleServiceFromProfile`. -/
def hfpGetVisibleServiceFromProfile (t : Task) (profile : HfpProfile) : Option ℕ :=
  t.services.findIdx? fun service => service.profile &&& profile ≠ 0 ∧ service.sdpRecordHandle ≠ 0

/-- `link_is_connected`. -/
def linkIsConnected (t : Task) (link : Option ℕ) : Bool :=
  match link with
  | some i => (t.link i).agSlcState = .complete
  | none => false

/-- `hfpGetDisconnectedServiceFromProfile`. -/
def hfpGetDisconnectedServiceFromProfile (t : Task) (profile : HfpProfile) : Option ℕ :=
  (List.range t.services.length).find? fun s =>
    (t.service s).profile &&& profile ≠ 0 ∧ !t.linkIsConnected (t.hfpGetLinkFromService s)

/-! ### Service records -/

/-- `hfpInitCfmToApp`. -/
def hfpInitCfmToApp (t : Task) (status : HfpInitStatus) : Task :=
  let t := t.output (.initCfm status)
  if status = .rfcChanFail ∨ status = .sdpRegFail then { t with freed := true } else t

/-- `HFP_SERVICE_TOP`. -/
def isTop (t : Task) (s : ℕ) : Bool := s + 1 = t.services.length

/-- `hfpInitSdpRegisterComplete`. -/
def hfpInitSdpRegisterComplete (t : Task) (success : Bool) : Task :=
  match if success then t.hfpGetServiceFromChannel t.busyChannel else none with
  | some s =>
    let t := if t.isTop s then { t.hfpInitCfmToApp .success with initialised := true } else t
    { t with busyChannel := 0 }
  | none => t.hfpInitCfmToApp .sdpRegFail

/-- `hfpRegisterServiceRecord`. -/
def hfpRegisterServiceRecord (t : Task) (s : ℕ) : Task :=
  let service := t.service s
  if service.sdpRecordHandle = 0 ∧ t.hfpGetVisibleServiceFromProfile service.profile = none then
    if t.busyChannel = 0 then
      let t := { t with busyChannel := service.rfcServerChannel }
      if supportedProfileIsHsp service.profile ∨ supportedProfileIsHfp service.profile then
        t.output (.registerServiceRecord service.rfcServerChannel service.profile)
      else t.hfpInitSdpRegisterComplete false
    else t.send (.sdpRegisterReq s)
  else if !t.initialised ∧ t.isTop s then
    { t with busyChannel := service.rfcServerChannel }.hfpInitSdpRegisterComplete true
  else t

/-- `hfpUnregisterServiceRecord`. -/
def hfpUnregisterServiceRecord (t : Task) (s : ℕ) : Task :=
  if (t.service s).sdpRecordHandle ≠ 0 then
    t.output (.unregisterServiceRecord (t.service s).sdpRecordHandle)
  else t

/-! ### Links are set up and reset -/

/-- The first part of `hfpLinkSetup`: a link without priority gets one. -/
def assignPriority (t : Task) (i : ℕ) : Task :=
  if t.hfpGetLinkPriority (some i) = .invalidLink then
    if (t.hfpGetLinkFromPriority .primaryLink).isSome then
      t.hfpSetLinkPriority (some i) .secondaryLink
    else t.hfpSetLinkPriority (some i) .primaryLink
  else t

/-- The second part: an incoming connection reserves its service. -/
def reserveService (t : Task) (i : ℕ) (service : Option ℕ) (state : HfpSlcState) : Task :=
  match service with
  | some s =>
    if state = HfpSlcState.incoming then
      (t.modifyService s fun service => { service with busy := true }).modifyLink i fun link =>
        { link with ownsService := true }
    else t
  | none => t

/-- `hfpLinkSetup`. -/
def hfpLinkSetup (t : Task) (i : ℕ) (service : Option ℕ) (bdAddr : ℕ) (sink : Option Sink)
    (state : HfpSlcState) : Task :=
  ((t.assignPriority i).reserveService i service state).modifyLink i fun link =>
    { link with service := service, bdAddr := bdAddr, sink := sink, agSlcState := state }

/-- The first part of `hfpLinkReset`: the service of the link is free again. -/
def releaseService (t : Task) (i : ℕ) : Task :=
  match (t.link i).service with
  | some s =>
    if (t.link i).ownsService then
      (t.modifyService s fun service => { service with busy := false }).hfpRegisterServiceRecord s
    else t
  | none => t

/-- The link is set to zero. -/
def zeroLink (t : Task) (i : ℕ) : Task :=
  t.modifyLink i fun link => LinkData.zero link.manageLinkloss

/-- The secondary link is promoted. -/
def promoteSecondary (t : Task) : Task :=
  t.hfpSetLinkPriority (t.hfpGetLinkFromPriority .secondaryLink) .primaryLink

/-- `hfpLinkReset`. -/
def hfpLinkReset (t : Task) (i : ℕ) (promoteSecondary : Bool) : Task :=
  let t := (t.releaseService i).zeroLink i
  if promoteSecondary then t.promoteSecondary else t

end Task

end Cbps.HfpLink
