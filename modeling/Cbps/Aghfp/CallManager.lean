import Mathlib.Data.Finset.SDiff
import Mathlib.Data.Nat.Notation

/-!
# The call manager of the audio gateway

`aghfp_call_manager.c`: the states a call goes through, with what is sent to the hands-free unit and to
the application on the way. An audio connection is opened by `startAudioConnectRequest` of
`aghfp_audio_handler.c`, which may negotiate a codec first. The rest of the audio handler, the codec
negotiation and the application change the audio fields between two events: this is the input `audio`.

What is sent is kept in `out`. Its entries `taken` and `held` are no messages: they mark the create
requests that the manager has taken up, and the requests for a held call that it has carried out.
-/

namespace Cbps.Aghfp

/-- `aghfp_profile`. -/
inductive AghfpProfile
  | headset
  | handsfree
  | handsfree15
  | handsfree16
  deriving DecidableEq, Repr

/-- `supportedProfileIsHsp`. -/
def supportedProfileIsHsp (profile : AghfpProfile) : Bool := decide (profile = .headset)

/-- `aghfp_state`. -/
inductive AghfpState
  | initialising
  | ready
  | slcConnecting
  | slcConnected
  | incomingCallEstablish
  | outgoingCallEstablish
  | activeCall
  | heldCall
  deriving DecidableEq, Repr

/-- `aghfp_call_type`. -/
inductive CallType
  | incoming
  | outgoing
  | transfer
  deriving DecidableEq, Repr

/-- `aghfp_call_status`. -/
inductive CallStatus
  | none
  | active
  deriving DecidableEq, Repr

/-- `aghfp_call_setup_status`. -/
inductive CallSetupStatus
  | none
  | incoming
  | outgoing
  | remoteAlert
  deriving DecidableEq, Repr

/-- `aghfp_call_create_status`, as far as the call manager uses it. -/
inductive CallCreateStatus
  | success
  | failure
  | aborted
  | slcRemoved
  | haveAudio
  | invalidParams
  | audioHandlerActive
  deriving DecidableEq, Repr

/-- `aghfp_disconnect_status`. -/
inductive DisconnectStatus
  | success
  | linkLoss
  | noSlc
  | timeout
  | error
  deriving DecidableEq, Repr

/-- `aghfp_call_progress`. -/
inductive CallProgress
  | idle
  | waitInBandSetup
  | waitResponse
  | waitAudioOpen
  | waitAudioCancel
  | complete
  | waitAudioClose
  deriving DecidableEq, Repr

/-- `aghfp_call_event`. -/
inductive CallEvent
  | create
  | answer
  | remoteAnswered
  | terminate
  | audioConnected
  | audioDisconnected
  | audioTransfer
  | ring
  | slcRemoved
  | terminateHeld
  | acceptHeld
  deriving DecidableEq, Repr

/-- The flags of `aghfp_call_flags`, a bit each. -/
inductive CallFlag
  | terminate
  | openAudio
  | closeAudio
  | responseReqd
  | responseAfterAudio
  | ringAlertsReqd
  | responded
  | fail
  | timeOut
  | linkLoss
  | success
  deriving DecidableEq, Repr

/-- A word of call flags. -/
abbrev CallFlags := Finset CallFlag

/-- `aghfp_call_details`. -/
structure CallDetails where
  typeNumber : BitVec 8
  sizeNumber : BitVec 16
  sizeAlpha : BitVec 16
  data : List (BitVec 8)
  deriving DecidableEq, Repr

/-- `aghfp_audio_connect_state`. -/
inductive AudioConnectState
  | disconnected
  | codecConnect
  | connectingEsco
  | connectingSco
  | accepting
  | disconnecting
  | connected
  deriving DecidableEq, Repr

/-- `aghfp_codec_negotiation_type`. -/
inductive CodecNegotiationType
  | none
  | wbs
  | csr
  deriving DecidableEq, Repr

/-- The fields of an instance that the audio handler and the codec negotiation keep. -/
structure Audio where
  audioSink : ℕ
  connectionState : AudioConnectState
  packetType : BitVec 16
  overrideWbs : Bool
  useWbs : Bool
  hfCodecNegotiation : Bool
  negotiationType : CodecNegotiationType
  appPendingCodecNegotiation : Bool
  agCodecs : BitVec 16
  hfCodecs : BitVec 3
  codecToNegotiate : BitVec 3
  useCodec : BitVec 3
  deriving DecidableEq, Repr

/-- What the call manager sends, and the two marks. -/
inductive Out
  | callIndicator (status : CallStatus)
  | callSetupIndicator (type : CallSetupStatus)
  | inBandRingToneEnable (enable : Bool)
  | ringAlert
  | ringRepeat (delay : BitVec 16)
  | callerId (details : CallDetails)
  | bcs (codec : BitVec 3)
  | csrFeatureNegotiationReqInd
  | syncConnectRequest (packetType : BitVec 16)
  | syncDisconnect (audioSink : ℕ)
  | createWaitingResponseInd
  | createAlertingRemoteInd
  | createCfm (status : CallCreateStatus)
  | terminateInd
  | slcDisconnectInd (status : DisconnectStatus)
  | setCallerIdDetailsCfm
  | taken (callType : CallType)
  | held (accepted : Bool)
  deriving DecidableEq, Repr

/-- An instance of the library, as far as the call manager reads it. -/
structure Instance where
  supportedProfile : AghfpProfile
  inbandRing : Bool
  hfCliPresentation : Bool
  indicatorsEnable : Bool
  ringRepeatInterval : BitVec 16
  state : AghfpState
  callProgress : CallProgress
  callFlags : CallFlags
  callType : CallType
  inBand : Bool
  callDetails : CallDetails
  audio : Audio
  out : List Out
  deriving DecidableEq

namespace Instance

variable (aghfp : Instance)

/-- A message, or an AT command, is sent. -/
def send (o : Out) : Instance := { aghfp with out := aghfp.out ++ [o] }

/-- `usingHsp`. -/
def usingHsp : Bool := supportedProfileIsHsp aghfp.supportedProfile

/-- `haveAudio`. -/
def haveAudio : Bool := decide (aghfp.audio.audioSink ≠ 0)

/-- `clearCallFlags`. -/
def clearCallFlags (callFlag : CallFlags) : Instance := { aghfp with callFlags := aghfp.callFlags \ callFlag }

/-- `setCallFlags`. -/
def setCallFlags (callFlag : CallFlags) : Instance := { aghfp with callFlags := aghfp.callFlags ∪ callFlag }

/-- `checkCallFlag`. -/
def checkCallFlag (callFlag : CallFlag) : Bool := decide (callFlag ∈ aghfp.callFlags)

/-- `clearCallFlags` of `CallFlagsAll`. -/
def clearAllCallFlags : Instance := { aghfp with callFlags := ∅ }

/-- `aghfpResetCallerIdDetails`. -/
def aghfpResetCallerIdDetails : Instance := { aghfp with callDetails := ⟨0, 0, 0, []⟩ }

/-- `setCallProgress`. -/
def setCallProgress (progress : CallProgress) : Instance :=
  let aghfp := { aghfp with callProgress := progress }
  if progress = .idle then aghfp.clearAllCallFlags.aghfpResetCallerIdDetails else aghfp

/-- `aghfpSetState`. -/
def aghfpSetState (state : AghfpState) : Instance := { aghfp with state := state }

/-- `inbandSupported`. -/
def inbandSupported : Bool := aghfp.inbandRing && aghfp.inBand

/-- `convertCallFlagToDisconnectStatus`. -/
def convertCallFlagToDisconnectStatus (callFlag : CallFlags) : DisconnectStatus :=
  if callFlag = {.success} then .success
  else if callFlag = {.linkLoss} then .linkLoss
  else if callFlag = {.timeOut} then .timeout
  else .error

/-- `aghfpConvertDisconnectStatusToCallFlag`. -/
def aghfpConvertDisconnectStatusToCallFlag : DisconnectStatus → CallFlags
  | .success => {.success}
  | .linkLoss => {.linkLoss}
  | .timeout => {.timeOut}
  | _ => {.fail}

/-- `aghfpSendCallIndicator`. -/
def aghfpSendCallIndicator (status : CallStatus) : Instance :=
  if aghfp.indicatorsEnable then aghfp.send (.callIndicator status) else aghfp

/-- `aghfpSendCallSetupIndicator`. -/
def aghfpSendCallSetupIndicator (type : CallSetupStatus) : Instance :=
  if aghfp.indicatorsEnable then aghfp.send (.callSetupIndicator type) else aghfp

/-- `sendCallCreateWaitingIndToApp`. -/
def sendCallCreateWaitingIndToApp : Instance :=
  match aghfp.callType with
  | .incoming => aghfp.send .createWaitingResponseInd
  | .outgoing => aghfp.send .createAlertingRemoteInd
  | .transfer => aghfp

/-- `aghfpSendCallCreateCfmToApp`. -/
def aghfpSendCallCreateCfmToApp (status : CallCreateStatus) : Instance := aghfp.send (.createCfm status)

/-- `sendCallTerminateIndToApp`, with the status it is always sent with. -/
def sendCallTerminateIndToApp : Instance := aghfp.send .terminateInd

/-- `aghfpResetConnectionRelatedState`. -/
def aghfpResetConnectionRelatedState : Instance :=
  { aghfp with
    audio := { aghfp.audio with
      audioSink := 0
      connectionState := .disconnected
      codecToNegotiate := 1
      negotiationType := .wbs
      useCodec := 0
      appPendingCodecNegotiation := false
      hfCodecs := 0 }
    indicatorsEnable := true }

/-- `aghfpSendSlcDisconnectIndToApp`. -/
def aghfpSendSlcDisconnectIndToApp (status : DisconnectStatus) : Instance :=
  ((aghfp.send (.slcDisconnectInd status)).aghfpResetConnectionRelatedState).aghfpSetState .ready

/-- `sendRingNotifications`. The tone itself is not sent: `aghfpSendInBandRingTone` is empty. -/
def sendRingNotifications : Instance :=
  if aghfp.ringRepeatInterval ≠ 0 then
    let aghfp := (aghfp.send .ringAlert).send (.ringRepeat aghfp.ringRepeatInterval)
    if !aghfp.usingHsp && aghfp.hfCliPresentation then aghfp.send (.callerId aghfp.callDetails) else aghfp
  else aghfp

/-! ### The audio connection -/

/-- The codec to negotiate is one that both sides have. -/
def commonCodec : Bool :=
  decide ((aghfp.audio.agCodecs &&& aghfp.audio.hfCodecs.setWidth 16) &&& aghfp.audio.codecToNegotiate.setWidth 16 ≠ 0)

/-- `startAudioConnectRequest` starts a negotiation of the codec for wide band speech. -/
def negotiatesWbs : Bool :=
  decide (aghfp.audio.connectionState = .disconnected) && !aghfp.audio.overrideWbs && aghfp.audio.useWbs &&
    aghfp.audio.hfCodecNegotiation && decide (aghfp.audio.useCodec = 0) &&
    decide (aghfp.audio.negotiationType = .wbs) && aghfp.commonCodec

/-- `startAudioConnectRequest` has the application negotiate the codec. -/
def negotiatesCsr : Bool :=
  decide (aghfp.audio.negotiationType = .csr) && aghfp.audio.appPendingCodecNegotiation

/-- `startAudioConnectRequest`, with `aghfpWbsStartCodecNegotiation`. -/
def startAudioConnectRequest : Instance :=
  if aghfp.negotiatesWbs then
    { aghfp with audio := { aghfp.audio with useCodec := 0, connectionState := .codecConnect } }.send
      (.bcs aghfp.audio.codecToNegotiate)
  else
    -- wide band speech is in use here, but the hands-free unit does not support it
    let packetType : BitVec 16 :=
      if aghfp.audio.useWbs && !aghfp.audio.hfCodecNegotiation then 0x2BF else aghfp.audio.packetType
    if aghfp.negotiatesCsr then
      { aghfp with audio := { aghfp.audio with packetType := packetType, connectionState := .codecConnect } }.send
        .csrFeatureNegotiationReqInd
    else
      let connecting : AudioConnectState := if packetType &&& 0x38 ≠ 0 then .connectingEsco else .connectingSco
      { aghfp with audio := { aghfp.audio with packetType := packetType, connectionState := connecting } }.send
        (.syncConnectRequest packetType)

/-- `aghfpAudioConnectRequest`. -/
def aghfpAudioConnectRequest : Instance :=
  if aghfp.audio.connectionState = .disconnected ∨ aghfp.audio.connectionState = .codecConnect then
    aghfp.startAudioConnectRequest
  else aghfp

/-- `aghfpAudioDisconnectRequest`. -/
def aghfpAudioDisconnectRequest : Instance :=
  if aghfp.audio.connectionState = .connected then
    { aghfp with audio := { aghfp.audio with connectionState := .disconnecting } }.send
      (.syncDisconnect aghfp.audio.audioSink)
  else aghfp

/-- A codec is being negotiated. -/
def negotiating : Bool := decide (aghfp.audio.connectionState = .codecConnect)

/-- `aghfpStoreAudioParams`. -/
def aghfpStoreAudioParams (packetType : BitVec 16) (overrideWbs : Bool) : Option Instance :=
  if aghfp.audio.connectionState = .disconnected ∨ aghfp.audio.connectionState = .codecConnect then
    some { aghfp with audio := { aghfp.audio with packetType := packetType, overrideWbs := overrideWbs } }
  else none

/-! ### The states of a call -/

/-- The first part of `CallEventCreate` of `manageCallIdle`: the indicators and the flags of the type of the call. -/
def createCall (callFlags : CallFlags) : Instance :=
  let aghfp := (aghfp.send (.taken aghfp.callType)).clearAllCallFlags.setCallFlags callFlags
  match aghfp.callType with
  | .incoming =>
    let aghfp := aghfp.setCallFlags {.responseReqd, .ringAlertsReqd}
    let aghfp :=
      if aghfp.usingHsp then
        let aghfp := aghfp.setCallFlags {.openAudio}
        if aghfp.inbandSupported then aghfp.setCallFlags {.responseAfterAudio} else aghfp
      else
        let aghfp := aghfp.aghfpSendCallSetupIndicator .incoming
        if aghfp.inbandSupported && (aghfp.haveAudio || aghfp.checkCallFlag .openAudio) then
          (aghfp.setCallFlags {.responseAfterAudio}).send (.inBandRingToneEnable true)
        else aghfp.send (.inBandRingToneEnable false)
    aghfp.aghfpSetState .incomingCallEstablish
  | .outgoing =>
    let aghfp := (aghfp.setCallFlags {.responseReqd, .responseAfterAudio}).clearCallFlags {.ringAlertsReqd}
    let aghfp := aghfp.aghfpSendCallSetupIndicator .outgoing
    let aghfp :=
      if aghfp.haveAudio || !aghfp.checkCallFlag .openAudio then aghfp.aghfpSendCallSetupIndicator .remoteAlert
      else aghfp
    aghfp.aghfpSetState .outgoingCallEstablish
  | .transfer =>
    let aghfp := aghfp.clearCallFlags {.responseReqd, .responseAfterAudio, .ringAlertsReqd}
    if aghfp.usingHsp then aghfp.setCallFlags {.openAudio} else aghfp

/-- The audio channel is opened at once. -/
def opensAudio : Bool :=
  !aghfp.haveAudio && aghfp.checkCallFlag .openAudio &&
    !(aghfp.checkCallFlag .responseReqd && !aghfp.checkCallFlag .responseAfterAudio)

/-- The audio connection is requested. Only if no negotiation of the codec has been started, the call waits
for it. -/
def waitAudio : Instance :=
  let aghfp := aghfp.aghfpAudioConnectRequest
  if aghfp.negotiating then aghfp else aghfp.setCallProgress .waitAudioOpen

/-- The remote end is to respond. -/
def waitResponse : Instance :=
  let aghfp := if aghfp.checkCallFlag .ringAlertsReqd then aghfp.sendRingNotifications else aghfp
  aghfp.sendCallCreateWaitingIndToApp.setCallProgress .waitResponse

/-- The call has been set up. -/
def complete : Instance :=
  ((aghfp.setCallProgress .complete).aghfpSetState .activeCall).aghfpSendCallCreateCfmToApp .success

/-- The call could not be set up. -/
def giveUp (status : CallCreateStatus) : Instance :=
  ((aghfp.setCallProgress .idle).aghfpSetState .slcConnected).aghfpSendCallCreateCfmToApp status

/-- The indicators of a call that is over. -/
def sendNone : Instance :=
  if aghfp.usingHsp then aghfp
  else (aghfp.aghfpSendCallIndicator .none).aghfpSendCallSetupIndicator .none

/-- The call that had been set up is over. -/
def endCall : Instance :=
  let aghfp := if aghfp.usingHsp then aghfp else aghfp.aghfpSendCallIndicator .none
  ((aghfp.setCallProgress .idle).aghfpSetState .slcConnected).sendCallTerminateIndToApp

/-- The second part of `CallEventCreate` of `manageCallIdle`. -/
def startCall : Instance :=
  if aghfp.opensAudio then
    let aghfp := aghfp.clearCallFlags {.openAudio}
    let aghfp :=
      if aghfp.usingHsp && aghfp.checkCallFlag .ringAlertsReqd then aghfp.sendRingNotifications else aghfp
    aghfp.waitAudio
  else if aghfp.checkCallFlag .responseReqd &&
      !(aghfp.checkCallFlag .openAudio && aghfp.checkCallFlag .responseAfterAudio) then
    (aghfp.clearCallFlags {.responseReqd}).waitResponse
  else ((aghfp.aghfpSendCallIndicator .active).aghfpSendCallSetupIndicator .none).complete

/-- `manageCallIdle`. -/
def manageCallIdle (callEvent : CallEvent) (callFlags : CallFlags) : Option Instance :=
  match callEvent with
  | .create => some (aghfp.createCall callFlags).startCall
  | .slcRemoved =>
    some (((aghfp.setCallProgress .idle).aghfpSetState .ready).aghfpSendSlcDisconnectIndToApp
      (convertCallFlagToDisconnectStatus callFlags))
  | _ => some aghfp

/-- The service level connection is removed while a call is set up. -/
def slcRemoved (callFlags : CallFlags) : Instance :=
  (((aghfp.setCallProgress .idle).aghfpSetState .ready).aghfpSendCallCreateCfmToApp
    .slcRemoved).aghfpSendSlcDisconnectIndToApp (convertCallFlagToDisconnectStatus callFlags)

/-- The service level connection is removed when a call has been set up. -/
def slcRemovedCall (callFlags : CallFlags) : Instance :=
  (((aghfp.setCallProgress .idle).aghfpSetState
    .ready).sendCallTerminateIndToApp).aghfpSendSlcDisconnectIndToApp (convertCallFlagToDisconnectStatus callFlags)

/-- `CallEventAudioConnected` of `manageCallWaitAudioOpen`, with the flags of the event set. -/
def audioOpened : Instance :=
  if !aghfp.checkCallFlag .success then aghfp.sendNone.giveUp .failure
  else if aghfp.checkCallFlag .terminate then
    let aghfp := aghfp.clearCallFlags {.terminate}
    if aghfp.haveAudio && aghfp.checkCallFlag .closeAudio then
      ((aghfp.clearCallFlags {.closeAudio}).aghfpAudioDisconnectRequest).setCallProgress .waitAudioCancel
    else aghfp.sendNone.giveUp .aborted
  else if aghfp.checkCallFlag .responseReqd then
    -- the source clears the flag after the alerts, which do not read it
    (aghfp.clearCallFlags {.responseReqd}).waitResponse
  else
    let aghfp :=
      if !aghfp.checkCallFlag .responded && !aghfp.usingHsp then
        (aghfp.aghfpSendCallIndicator .active).aghfpSendCallSetupIndicator .none
      else aghfp
    aghfp.clearAllCallFlags.complete

/-- `manageCallWaitAudioOpen`. -/
def manageCallWaitAudioOpen (callEvent : CallEvent) (callFlags : CallFlags) : Option Instance :=
  match callEvent with
  | .terminate => some (aghfp.setCallFlags (callFlags ∪ {.terminate}))
  | .audioConnected => some (aghfp.setCallFlags callFlags).audioOpened
  | .slcRemoved => some (aghfp.slcRemoved callFlags)
  | _ => some aghfp

/-- `CallEventAnswer` of `manageCallWaitResponse`. -/
def answered (callFlags : CallFlags) : Instance :=
  let aghfp := aghfp.setCallFlags (callFlags ∪ {.responded})
  let aghfp :=
    if !aghfp.usingHsp && !aghfp.negotiating then
      (aghfp.aghfpSendCallIndicator .active).aghfpSendCallSetupIndicator .none
    else aghfp
  let aghfp :=
    if aghfp.checkCallFlag .closeAudio then
      let aghfp := aghfp.clearCallFlags {.openAudio, .closeAudio}
      if aghfp.haveAudio then aghfp.aghfpAudioDisconnectRequest else aghfp
    else aghfp
  if aghfp.checkCallFlag .openAudio && !aghfp.haveAudio then (aghfp.clearCallFlags {.openAudio}).waitAudio
  else aghfp.complete

/-- A termination while the response is awaited disconnects the audio first. -/
def cancelsAudio : Bool := aghfp.checkCallFlag .closeAudio && aghfp.haveAudio

/-- `CallEventTerminate` of `manageCallWaitResponse`. -/
def terminated (callFlags : CallFlags) : Instance :=
  let aghfp := aghfp.setCallFlags callFlags
  if aghfp.cancelsAudio then aghfp.aghfpAudioDisconnectRequest.setCallProgress .waitAudioCancel
  else
    let aghfp := if aghfp.usingHsp then aghfp else aghfp.aghfpSendCallSetupIndicator .none
    aghfp.giveUp .aborted

/-- `CallEventAcceptHeld` of `manageCallWaitResponse`. -/
def heldAccepted (callFlags : CallFlags) : Instance :=
  let aghfp := (aghfp.send (.held true)).setCallFlags (callFlags ∪ {.responded})
  let aghfp := (aghfp.aghfpSetState .activeCall).clearCallFlags {.openAudio, .closeAudio}
  let aghfp := if aghfp.haveAudio then aghfp.aghfpAudioDisconnectRequest else aghfp
  aghfp.complete

/-- `manageCallWaitResponse`. -/
def manageCallWaitResponse (callEvent : CallEvent) (callFlags : CallFlags) : Option Instance :=
  match callEvent with
  | .answer | .remoteAnswered => some (aghfp.answered callFlags)
  | .terminate => some (aghfp.terminated callFlags)
  | .terminateHeld => some (((aghfp.send (.held false)).setCallFlags {.closeAudio}).giveUp .aborted)
  | .acceptHeld => some (aghfp.heldAccepted callFlags)
  | .ring => some aghfp.sendRingNotifications
  | .slcRemoved => some (aghfp.slcRemoved callFlags)
  | _ => some aghfp

/-- `CallEventAudioTransfer` of `manageCallConnected`. -/
def transferAudio (callFlags : CallFlags) : Instance :=
  let aghfp := aghfp.setCallFlags callFlags
  if aghfp.checkCallFlag .closeAudio then
    if aghfp.haveAudio then aghfp.aghfpAudioDisconnectRequest else aghfp
  else if aghfp.checkCallFlag .openAudio then
    if !aghfp.haveAudio then aghfp.aghfpAudioConnectRequest else aghfp
  else aghfp

/-- `CallEventTerminate` of `manageCallConnected`. -/
def hungUp (callFlags : CallFlags) : Instance :=
  let aghfp := aghfp.setCallFlags callFlags
  if aghfp.haveAudio && aghfp.checkCallFlag .closeAudio then
    ((aghfp.clearCallFlags {.closeAudio}).aghfpAudioDisconnectRequest).setCallProgress .waitAudioClose
  else aghfp.endCall

/-- `manageCallConnected`. -/
def manageCallConnected (callEvent : CallEvent) (callFlags : CallFlags) : Option Instance :=
  match callEvent with
  | .terminate => some (aghfp.hungUp callFlags)
  | .audioTransfer => some (aghfp.transferAudio callFlags)
  | .slcRemoved => some (aghfp.slcRemovedCall callFlags)
  | _ => some aghfp

/-- `manageCallWaitAudioCancel`. -/
def manageCallWaitAudioCancel (callEvent : CallEvent) (callFlags : CallFlags) : Option Instance :=
  match callEvent with
  | .audioDisconnected =>
    let aghfp := aghfp.setCallFlags callFlags
    if aghfp.checkCallFlag .success then some ((aghfp.clearCallFlags {.success}).sendNone.giveUp .aborted) else none
  | .slcRemoved => some (aghfp.slcRemoved callFlags)
  | _ => some aghfp

/-- `manageCallWaitAudioClose`. -/
def manageCallWaitAudioClose (callEvent : CallEvent) (callFlags : CallFlags) : Option Instance :=
  match callEvent with
  | .audioDisconnected =>
    let aghfp := aghfp.setCallFlags callFlags
    if aghfp.checkCallFlag .success then some (aghfp.clearCallFlags {.success}).endCall else none
  | .slcRemoved => some (aghfp.slcRemovedCall callFlags)
  | _ => some aghfp

/-- `aghfpManageCall`. `none` says that the library panics. -/
def aghfpManageCall (callEvent : CallEvent) (callFlags : CallFlags) : Option Instance :=
  match aghfp.callProgress with
  | .idle => aghfp.manageCallIdle callEvent callFlags
  | .waitAudioOpen => aghfp.manageCallWaitAudioOpen callEvent callFlags
  | .waitResponse => aghfp.manageCallWaitResponse callEvent callFlags
  | .waitAudioCancel => aghfp.manageCallWaitAudioCancel callEvent callFlags
  | .complete => aghfp.manageCallConnected callEvent callFlags
  | .waitAudioClose => aghfp.manageCallWaitAudioClose callEvent callFlags
  | .waitInBandSetup => none

/-! ### The requests of the application -/

/-- A create request that passes its checks: the parameters of the call are stored, and `CallEventCreate` is
passed on. -/
def create (callType : CallType) (inBand : Bool) (callFlags : CallFlags) : Option Instance :=
  { aghfp with callType := callType, inBand := inBand }.aghfpManageCall .create callFlags

/-- `aghfpHandleCallCreate`. -/
def aghfpHandleCallCreate (callType : CallType) (inBand : Bool) : Option Instance :=
  if aghfp.audio.connectionState = .disconnected ∨ aghfp.audio.connectionState = .connected then
    aghfp.create callType inBand ∅
  else some (aghfp.aghfpSendCallCreateCfmToApp .audioHandlerActive)

/-- `aghfpHandleCallCreateAudio`. -/
def aghfpHandleCallCreateAudio (callType : CallType) (inBand : Bool) (packetType : BitVec 16)
    (overrideWbs : Bool) : Option Instance :=
  if aghfp.audio.connectionState ≠ .connected then
    if aghfp.audio.connectionState = .disconnected ∨ aghfp.audio.connectionState = .codecConnect then
      match aghfp.aghfpStoreAudioParams packetType overrideWbs with
      | some aghfp => aghfp.create callType inBand {.openAudio}
      | none => some (aghfp.aghfpSendCallCreateCfmToApp .invalidParams)
    else some (aghfp.aghfpSendCallCreateCfmToApp .audioHandlerActive)
  else some (aghfp.aghfpSendCallCreateCfmToApp .haveAudio)

/-- `aghfpHandleCallAnswer`. -/
def aghfpHandleCallAnswer : Option Instance :=
  if aghfp.callProgress = .waitResponse ∧ aghfp.callType = .incoming then aghfp.aghfpManageCall .answer {.closeAudio}
  else some aghfp

/-- `aghfpHandleCallRemoteAnswered`. -/
def aghfpHandleCallRemoteAnswered : Option Instance :=
  if aghfp.callProgress = .waitResponse ∧ aghfp.callType = .outgoing then aghfp.aghfpManageCall .remoteAnswered ∅
  else some aghfp

/-- The flags of `aghfpHandleCallTerminate`. -/
def terminateFlags (keepSink : Bool) : CallFlags := if keepSink then ∅ else {.closeAudio}

/-- `aghfpHandleCallTerminate`. -/
def aghfpHandleCallTerminate (keepSink : Bool) : Option Instance :=
  if aghfp.callProgress ≠ .idle then aghfp.aghfpManageCall .terminate (terminateFlags keepSink)
  else some aghfp

/-- `aghfpHandleHeldCallTerminate`. -/
def aghfpHandleHeldCallTerminate : Option Instance :=
  if aghfp.callProgress ≠ .idle then aghfp.aghfpManageCall .terminateHeld ∅ else some aghfp

/-- `aghfpHandleHeldCallAccept`. -/
def aghfpHandleHeldCallAccept : Option Instance :=
  if aghfp.callProgress ≠ .idle then aghfp.aghfpManageCall .acceptHeld {.closeAudio} else some aghfp

/-- `aghfpHandleSetCallerIdDetails`. -/
def aghfpHandleSetCallerIdDetails (details : CallDetails) : Instance :=
  { aghfp with callDetails := details }.send .setCallerIdDetailsCfm

end Instance

/-- What happens to the call manager: the requests of the application, then the events that the handlers of AT
commands, of the audio connection and of the service level connection pass to `aghfpManageCall`, and the audio
fields as they have become. -/
inductive Input
  | callCreate (callType : CallType) (inBand : Bool)
  | callCreateAudio (callType : CallType) (inBand : Bool) (packetType : BitVec 16) (overrideWbs : Bool)
  | callAnswer
  | callRemoteAnswered
  | callTerminate (keepSink : Bool)
  | heldCallTerminate
  | heldCallAccept
  | setCallerIdDetails (details : CallDetails)
  | answer
  | hangUp
  | audioTransfer
  | audioConnected (success : Bool)
  | audioDisconnected (success : Bool)
  | ring
  | slcRemoved (status : DisconnectStatus)
  | audio (audio : Audio)
  deriving DecidableEq, Repr

namespace Instance

/-- The flag of an audio event. -/
def audioFlag (success : Bool) : CallFlags := if success then {.success} else {.fail}

/-- One input. -/
def step (aghfp : Instance) : Input → Option Instance
  | .callCreate callType inBand => aghfp.aghfpHandleCallCreate callType inBand
  | .callCreateAudio callType inBand packetType overrideWbs =>
    aghfp.aghfpHandleCallCreateAudio callType inBand packetType overrideWbs
  | .callAnswer => aghfp.aghfpHandleCallAnswer
  | .callRemoteAnswered => aghfp.aghfpHandleCallRemoteAnswered
  | .callTerminate keepSink => aghfp.aghfpHandleCallTerminate keepSink
  | .heldCallTerminate => aghfp.aghfpHandleHeldCallTerminate
  | .heldCallAccept => aghfp.aghfpHandleHeldCallAccept
  | .setCallerIdDetails details => some (aghfp.aghfpHandleSetCallerIdDetails details)
  | .answer => aghfp.aghfpManageCall .answer {.openAudio}
  | .hangUp => aghfp.aghfpManageCall .terminate {.closeAudio}
  | .audioTransfer => aghfp.aghfpManageCall .audioTransfer {.openAudio}
  | .audioConnected success => aghfp.aghfpManageCall .audioConnected (audioFlag success)
  | .audioDisconnected success => aghfp.aghfpManageCall .audioDisconnected (audioFlag success)
  | .ring => aghfp.aghfpManageCall .ring ∅
  | .slcRemoved status => aghfp.aghfpManageCall .slcRemoved (aghfpConvertDisconnectStatusToCallFlag status)
  | .audio audio => some { aghfp with audio := audio }

end Instance

end Cbps.Aghfp
