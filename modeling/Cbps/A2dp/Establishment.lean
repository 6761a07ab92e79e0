import Cbps.A2dp.Device

/-!
# The establishment of a stream

`a2dp_command_handler.c`: the initiator discovers the end points of the remote device, asks for their
capabilities, and tries its own end points one after the other with all of them. `continueStreamConnect` is
resumed by the responses, in the state that the last command has left.
-/

namespace Cbps.A2dp

namespace Packet

variable (p : Packet)

/-- `ptr[k]`. -/
def octet (k : ℕ) : Octet := p.octets.getD k 0

/-- The octets from `k` on, up to the length of the packet. -/
def «from» (k : ℕ) : List Octet := (p.octets.take p.length).drop k

/-- `getReceivedMessageType`. -/
def type : MessageType := messageType (p.octet 0)

/-- The seid of a command or a response. -/
def seid (k : ℕ) : Octet := p.octet k >>> 2 &&& 0x3f

end Packet

/-- An entry of the list of preferred end points. -/
def Sep.info (s : Sep) : SepInfo := ⟨s.seid, s.role, ((codecEntry s.caps).map codecType).getD mediaCodecUndefined⟩

/-- Octets two by two. -/
def octetPairs : List Octet → List (Octet × Octet)
  | x :: y :: octets => (x, y) :: octetPairs octets
  | [x] => [(x, 0)]
  | [] => []

/-- `a2dpProcessDiscoverResponse`. The marks of the end points to store are counted over those that are
not in use, of which there is room for 32, and the end points are taken from the whole list. -/
def discoveredSeps (mediaType : Octet) (octets : List Octet) : List SepInfo :=
  let pairs := octetPairs octets
  let free := pairs.filter fun e => e.1 &&& 2 = 0
  let marks := (free.take 32).map fun e => decide (mediaType <<< 4 = e.2 &&& 0xF0)
  ((marks.zip pairs).filter fun e => e.1).map fun e : Bool × Octet × Octet =>
    ⟨e.2.1 >>> 2, if e.2.2 >>> 3 &&& 1 = 1 then .sink else .source, mediaCodecUndefined⟩

/-- What `a2dpSelectConfigurationParameters` returns. -/
inductive Selection
  | byClient
  | selected
  | notSelected
  deriving DecidableEq, Repr

/-- `doesCodecMatch`. -/
def doesCodecMatch (localSep remoteSep : SepInfo) : Bool :=
  localSep.codec = remoteSep.codec ∧ localSep.codec ≠ mediaCodecUndefined ∧ localSep.role ≠ remoteSep.role

namespace Device

variable (d : Device)

/-! ### The lists of end points -/

/-- `buildPreferredList`. -/
def buildPreferredList (seids : List Octet) : Device × Bool :=
  let seps := if seids = [] then d.seps else seids.filterMap fun seid => d.seps.find? fun s => s.seid = seid
  let list := (seps.filter fun s => !s.isTaken).map Sep.info
  ({ d with preferred := list, preferredCurrent := 0 }, list ≠ [])

/-- `haveCodecType`. -/
def haveCodecType : Bool := d.remoteSep.codec ≠ mediaCodecUndefined

/-- `haveCodecCaps`, of the remote end point. -/
def haveCodecCaps : Bool :=
  match codecEntry d.configuredCaps with
  | some codec => codecType codec = d.remoteSep.codec
  | none => false

/-- `selectNextSeid`. -/
def selectNextSeid : Device × Bool :=
  match d.discovered[d.discoveredCurrent + 1]? with
  | some remoteSep => ({ d with discoveredCurrent := d.discoveredCurrent + 1, remoteSep := remoteSep }, true)
  | none =>
    match d.preferred[d.preferredCurrent + 1]? with
    | some localSep =>
      ({ d with
          discoveredCurrent := 0
          remoteSep := d.discovered.headD d.remoteSep
          preferredCurrent := d.preferredCurrent + 1
          localSep := localSep }, true)
    | none => (d.a2dpStreamReset.mediaOpenCfm .operationFail, false)

/-! ### The commands of the initiator -/

/-- What is done when a command of the establishment cannot be sent. -/
def failOpen (status : Status) : Device := d.a2dpStreamAbort.mediaOpenCfm status

/-- A command is sent, and the stream is in the state of waiting for its response. -/
def issue (signal : Signal) (payload : List Octet) (s : StreamState) : Device :=
  match d.a2dpSendCommand signal payload with
  | (d, true) => d.a2dpSetStreamState s
  | (d, false) => d.failOpen .operationFail

/-- `issueDiscover`. -/
def issueDiscover (seids : List Octet) : Device :=
  match d.buildPreferredList seids with
  | (d, true) => d.issue .discover [] .discovering
  | (d, false) => d.failOpen .invalidParameters

/-- `issueGetCapabilities`. -/
def issueGetCapabilities : Device :=
  d.issue (if d.profileVersion = .v13 then .getAllCapabilities else .getCapabilities) [] .readingCaps

/-- `sendSetConfiguration`, and what follows in `issueSetConfiguration` and `issueClientSetConfiguration`. -/
def issueClientSetConfiguration : Device := d.issue .setConfiguration d.configuredCaps .configuring

/-- `issueOpen`. -/
def issueOpen : Device := d.issue .open [] .localOpening

/-- `a2dpSelectConfigurationParameters`. -/
def a2dpSelectConfigurationParameters : Device × Selection :=
  match d.getSepIndexBySeid d.localSep.seid with
  | none => (d, .notSelected)
  | some i =>
    let d := d.setCurrent i
    match d.currentSep with
    | none => (d, .notSelected)
    | some sep =>
      if sep.librarySelectsSettings then
        match selectSettings sep.role sep.caps d.configuredCaps with
        | none => (d, .notSelected)
        | some caps => ({ d with configuredCaps := caps }, .selected)
      else (d, .byClient)

/-- `issueSetConfiguration`. -/
def issueSetConfiguration : Device × Bool :=
  match d.a2dpSelectConfigurationParameters with
  | (d, .byClient) =>
    ((d.told (.codecConfigureInd d.localSep.seid d.configuredCaps)).a2dpSetStreamState .processingCaps, true)
  | (d, .selected) => (d.issueClientSetConfiguration, true)
  | (d, .notSelected) => (d, false)

/-- `requestDelayReport`. -/
def requestDelayReport : Device :=
  { (d.told (.mediaAvSyncDelayInd d.localSep.seid)).a2dpSetStreamState .configured with clientRsp := true }

/-- `waitDelayReport`. -/
def waitDelayReport : Device := { d.a2dpSetStreamState .configured with remoteCmd := true }

/-- `sendDelayReport`. -/
def sendDelayReport (delay : BitVec 16) : Device × Bool :=
  { d with delay := delay }.a2dpSendCommand .delayReport [(delay >>> 8).setWidth 8, delay.setWidth 8]

/-- A turn of the loop of `continueStreamConnect`, which says whether it returns. -/
def connectTurn : Device × Bool :=
  match d.streamState with
  | .discovering => (d.issueGetCapabilities, true)
  | .readingCaps =>
    let tried := if doesCodecMatch d.localSep d.remoteSep then d.issueSetConfiguration else (d, false)
    if tried.2 then tried else (tried.1.a2dpSetStreamState .idle, false)
  | .configuring =>
    if a2dpIsServiceSupported serviceDelayReporting d.configuredCaps then
      if d.localSep.role = .sink then (d.requestDelayReport, true) else (d.waitDelayReport, true)
    else (d.issueOpen, true)
  | .configured => (d.issueOpen, true)
  | .idle =>
    if !d.haveCodecType then (d.issueGetCapabilities, true)
    else if doesCodecMatch d.localSep d.remoteSep then
      if !d.haveCodecCaps then (d.issueGetCapabilities, true) else d.issueSetConfiguration
    else (d, false)
  | _ => (d.a2dpStreamAbort, false)

/-- The loop of `continueStreamConnect`, of at most `n` turns. -/
def connectWithin : ℕ → Device → Device
  | 0, d => d
  | n + 1, d =>
    match d.connectTurn with
    | (d, true) => d
    | (d, false) =>
      match d.selectNextSeid with
      | (d, true) => connectWithin n d
      | (d, false) => d

/-- `continueStreamConnect`. A turn that does not return is followed by one with the next pair of end points. -/
def continueStreamConnect : Device := connectWithin (d.preferred.length * d.discovered.length + 1) d

/-- The next pair of end points is tried. -/
def tryNextSeid : Device :=
  match (d.a2dpSetStreamState .idle).selectNextSeid with
  | (d, true) => d.continueStreamConnect
  | (d, false) => d

/-! ### Responses -/

/-- `a2dpHandleDiscoverResponse`. -/
def a2dpHandleDiscoverResponse (p : Packet) : Device :=
  if d.streamState ≠ .discovering then d
  else if p.type ≠ .accept then d.a2dpStreamReset.mediaOpenCfm .operationFail
  else
    match discoveredSeps ((d.currentSep.map Sep.mediaType).getD 0) (p.from 2) with
    | [] => { d with discovered := [], discoveredCurrent := 0 }.a2dpStreamReset.mediaOpenCfm .operationFail
    | remoteSep :: found =>
      { d with
        discovered := remoteSep :: found
        discoveredCurrent := 0
        preferredCurrent := 0
        localSep := d.preferred.headD d.localSep
        remoteSep := remoteSep }.continueStreamConnect

/-- The codec type of the remote end point is stored, in the list and in the device. -/
def storeCodecType (caps : List Octet) : Device :=
  match codecEntry caps, d.discovered[d.discoveredCurrent]? with
  | some codec, some remoteSep =>
    { d with
      discovered := d.discovered.set d.discoveredCurrent { remoteSep with codec := codecType codec }
      remoteSep := { remoteSep with codec := codecType codec } }
  | _, _ => d

/-- `a2dpProcessGetCapabilitiesResponse`. -/
def a2dpProcessGetCapabilitiesResponse (p : Packet) : Device × Bool :=
  match a2dpValidateServiceCaps (p.from 2) false false true with
  | .error _ => (d, false)
  | .ok () =>
    let d := (d.note (.capabilities d.remoteSep.seid (p.from 2))).storeCodecType (p.from 2)
    match d.seps.find? fun s => s.seid = d.localSep.seid with
    | none => (d, false)
    | some sep =>
      if codecsCompatible sep.caps (p.from 2) true then
        ({ d with configuredCaps := updateConfiguredServiceCaps sep.caps d.configuredCaps (p.from 2) }, true)
      else (d, false)

/-- `a2dpHandleGetCapabilitiesResponse` and `a2dpHandleGetAllCapabilitiesResponse`. -/
def a2dpHandleGetCapabilitiesResponse (p : Packet) : Device :=
  if d.streamState ≠ .readingCaps then d
  else if p.type = .accept then
    match d.a2dpProcessGetCapabilitiesResponse p with
    | (d, true) => d.continueStreamConnect
    | (d, false) => d.tryNextSeid
  else d.tryNextSeid

/-- `a2dpHandleCodecConfigureResponse`, with `a2dpProcessCodecConfigureResponse`. -/
def a2dpHandleCodecConfigureResponse (accept : Bool) (seid : Octet) (caps : List Octet) : Device :=
  if d.streamState ≠ .processingCaps then d
  else
    match d.seps.find? fun s => s.seid = seid with
    | some sep =>
      if accept ∧ seid = d.localSep.seid then
        { d with configuredCaps := updateConfiguredServiceCaps sep.caps d.configuredCaps caps }.issueClientSetConfiguration
      else d.tryNextSeid
    | none => d.tryNextSeid

/-- `a2dpHandleSetConfigurationResponse`. -/
def a2dpHandleSetConfigurationResponse (p : Packet) : Device :=
  if d.streamState ≠ .configuring then d
  else if p.type = .accept then
    ({ d with sepConfiguredLocally := true }.setInUse d.current).continueStreamConnect
  else d.tryNextSeid

/-- `a2dpHandleReconfigureResponse`, with `a2dpProcessReconfigureResponse`. -/
def a2dpHandleReconfigureResponse (p : Packet) : Device :=
  if d.streamState ≠ .reconfiguring then d
  else if p.type = .accept then
    let localCaps := ((d.seps.find? fun s => s.seid = d.localSep.seid).map Sep.caps).getD []
    { d with
      configuredCaps := updateConfiguredServiceCaps localCaps d.configuredCaps d.reconfigCaps
      reconfigCaps := [] }.a2dpSetStreamState .open |>.told (.mediaReconfigureCfm .success)
  else (d.a2dpSetStreamState .open).told (.mediaReconfigureCfm .rejectedByRemoteDevice)

/-- `a2dpHandleOpenResponse`. -/
def a2dpHandleOpenResponse (p : Packet) : Device :=
  if d.streamState ≠ .localOpening then d
  else if p.type = .accept then d.a2dpMediaConnectReq
  else d.failOpen .operationFail

/-- `a2dpHandleStartResponse`. -/
def a2dpHandleStartResponse (p : Packet) : Device :=
  if d.streamState ∉ [.open, .localStarting, .streaming] then d.told (.mediaStartCfm .wrongState)
  -- a stream that is already there does not mind an error
  else if p.type = .accept ∨ d.streamState = .streaming then
    (d.a2dpSetStreamState .streaming).told (.mediaStartCfm .success)
  else (d.a2dpSetStreamState .open).told (.mediaStartCfm .rejectedByRemoteDevice)

/-- `a2dpHandleSuspendResponse`. -/
def a2dpHandleSuspendResponse (p : Packet) : Device :=
  if d.streamState ∉ [.localSuspending, .open] then d.told (.mediaSuspendCfm .wrongState)
  else if p.type = .accept ∨ d.streamState = .open then
    (d.a2dpSetStreamState .open).told (.mediaSuspendCfm .success)
  else (d.a2dpSetStreamState .streaming).told (.mediaSuspendCfm .rejectedByRemoteDevice)

/-- `a2dpHandleCloseResponse`. -/
def a2dpHandleCloseResponse (p : Packet) : Device :=
  if d.streamState ∉ [.open, .localStarting, .remoteStarting, .localSuspending, .streaming,
      .reconfigReadingCaps, .reconfiguring, .remoteClosing, .localClosing] then
    d.told (.mediaCloseInd .wrongState)
  else if p.type = .accept then
    let d := ((d.clearInUse d.current).setCurrent 0).removeStreamBlocks
    { d with
      remoteSep := { d.remoteSep with codec := mediaCodecUndefined }
      localSep := { d.localSep with codec := mediaCodecUndefined } }.a2dpSetStreamState .localClosing
      |>.a2dpMediaDisconnectReq
  else d.a2dpStreamAbort

/-- The stream is over: the media channel is disconnected, or else the signalling channel if that has been
asked for. -/
def disconnectAfterReset : Device :=
  match d.a2dpStreamReset.a2dpDisconnectAllMedia with
  | (d, true) => d
  | (d, false) => d.a2dpSignallingDisconnectPending.1

/-- `a2dpHandleAbortResponse`. -/
def a2dpHandleAbortResponse : Device := d.disconnectAfterReset

/-- The states in which a report of the delay is in order. -/
def delayReportStates : List StreamState :=
  [.configured, .localOpening, .remoteOpening, .open, .streaming, .localStarting, .remoteStarting]

/-- `a2dpStreamDelayReport`. -/
def a2dpStreamDelayReport (delay : BitVec 16) : Device :=
  if d.streamState ∉ delayReportStates then d
  else if d.connectionState = .connected then
    match d.sendDelayReport delay with
    | (d, true) => d
    | (d, false) => { d with delayPending := true }
  else d

/-- `a2dpHandleDelayReportResponse`. -/
def a2dpHandleDelayReportResponse (p : Packet) : Device :=
  if d.streamState ∉ delayReportStates then d
  else if d.streamState = .configured then
    if p.type = .accept then
      let d := d.told (.mediaAvSyncDelayCfm d.localSep.seid .success)
      if d.sepConfiguredLocally then d.continueStreamConnect else d
    else (d.told (.mediaAvSyncDelayCfm d.localSep.seid .rejectedByRemoteDevice)).failOpen .operationFail
  else if d.streamState = .streaming ∧ d.delayPending then
    { d with delayPending := false }.a2dpStreamDelayReport d.delay
  else d

end Device

end Cbps.A2dp
