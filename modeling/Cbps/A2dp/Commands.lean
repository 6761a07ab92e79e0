import Cbps.A2dp.Establishment

/-!
# The signalling channel

`a2dp_command_handler.c`, `a2dp_process_command.c` and `a2dp_packet_handler.c`: what a remote device answers
to a command, and how it takes up the packets of its channel. A `step` is one input: a packet that arrives, a
turn of the loop of `a2dpHandleSignalPacket`, a message of L2CAP, a request of the application, a timer.

The loop takes one packet of the source in each turn. Other inputs may come between two turns. A packet that
is not processed stays in the source until the next turn.
-/

namespace Cbps.A2dp

/-- The minimum length of the command, from `avdtp_min_pdu_length`. -/
def Signal.minLength : Signal → ℕ
  | .null | .discover => 2
  | .setConfiguration | .reconfigure | .delayReport => 5
  | .getCapabilities | .getConfiguration | .open | .start | .close | .suspend | .abort | .securityControl |
    .getAllCapabilities => 3

/-- What `a2dpProcessDiscoverCommand` writes about an end point. -/
def Sep.discovered (s : Sep) : List Octet :=
  let seid : Octet := s.seid <<< 2
  let mediaType : Octet := s.mediaType <<< 4
  [if s.inUse then seid ||| 2 else seid, if s.role = .sink then mediaType ||| 8 else mediaType]

namespace Device

variable (d : Device)

/-! ### What a command asks for -/

/-- The end point that a command names. -/
def namedSep (p : Packet) : Option Sep := d.seps.find? fun s => s.seid = p.seid 2

/-- `a2dpProcessDiscoverCommand`, with the payload for which there is room. -/
def a2dpProcessDiscoverCommand : Except CapsError (Device × List Octet) :=
  let payload := (d.seps.filter fun s => !s.unavailable).flatMap Sep.discovered
  if payload = [] then .error ⟨0, badState⟩
  else
    match d.a2dpGrabSink payload.length with
    | none => .error ⟨0, badState⟩
    | some d => .ok (d, payload)

/-- `a2dpProcessGetCapabilitiesCommand` and `a2dpProcessGetAllCapabilitiesCommand`, which filter a service. -/
def a2dpProcessGetCapabilitiesCommand (filter : Octet) (p : Packet) : Except CapsError (Device × List Octet) :=
  match d.namedSep p with
  | none => .error ⟨0, badAcpSeid⟩
  | some sep =>
    match d.a2dpGrabSink (getFilteredServiceCaps filter sep.caps).length with
    | none => .error ⟨0, badState⟩
    | some d => .ok (d, getFilteredServiceCaps filter sep.caps)

/-- `a2dpProcessSetConfigurationCommand`. -/
def a2dpProcessSetConfigurationCommand (p : Packet) : Except CapsError Device :=
  match d.getSepIndexBySeid (p.seid 2), d.namedSep p with
  | some i, some sep =>
    if sep.role = .source ∧ d.streamState = .configuring then .error ⟨0, badState⟩
    else if sep.isTaken then .error ⟨0, sepInUse⟩
    else
      match a2dpValidateServiceCaps (p.from 4) false false false with
      | .error e => .error e
      | .ok () =>
        match unsupportedService sep.caps (p.from 4) with
        | some service => .error ⟨service, unsupportedConfiguration⟩
        | none =>
          if !codecsCompatible sep.caps (p.from 4) false then .error ⟨serviceMediaCodec, unsupportedConfiguration⟩
          else
            let codec := ((codecEntry (p.from 4)).map codecType).getD mediaCodecUndefined
            .ok { (d.setCurrent i).setInUse i with
              localSep := ⟨sep.seid, sep.role, codec⟩
              remoteSep := ⟨p.seid 3, if sep.role = .sink then .source else .sink, codec⟩
              configuredCaps := updateConfiguredServiceCaps sep.caps d.configuredCaps (p.from 4) }
  | _, _ => .error ⟨0, badAcpSeid⟩

/-- `a2dpProcessReconfigureCommand`. -/
def a2dpProcessReconfigureCommand (p : Packet) : Except CapsError Device :=
  match d.namedSep p with
  | none => .error ⟨0, badAcpSeid⟩
  | some sep =>
    match a2dpValidateServiceCaps (p.from 3) false true false with
    | .error e => .error e
    | .ok () =>
      if d.getLocalSeid ≠ p.seid 2 then .error ⟨0, sepNotInUse⟩
      else
        match a2dpValidateServiceCaps (p.from 3) true false false with
        | .error e => .error e
        | .ok () =>
          match unsupportedService sep.caps (p.from 3) with
          | some service => .error ⟨service, unsupportedConfiguration⟩
          | none =>
            if !codecsCompatible sep.caps (p.from 3) false then .error ⟨serviceMediaCodec, invalidCapabilities⟩
            else .ok { d with configuredCaps := updateConfiguredServiceCaps sep.caps d.configuredCaps (p.from 3) }

/-- The end point that a command names is the current one: the check of `a2dpProcessOpenCommand` and of
its siblings. -/
def checkSeid (seid : Octet) : Except CapsError Unit :=
  if d.getSepIndexBySeid seid = none then .error ⟨0, badAcpSeid⟩
  else if d.getLocalSeid ≠ seid then .error ⟨0, badState⟩
  else .ok ()

/-- `a2dpProcessDelayReportCommand`. -/
def a2dpProcessDelayReportCommand (p : Packet) : Except CapsError Device :=
  match d.checkSeid (p.seid 2) with
  | .error e => .error e
  | .ok () =>
    if d.localSep.role ≠ .source then .error ⟨0, badState⟩
    else .ok { d with delay := p.octet 3 ++ p.octet 4 }

/-- `a2dpProcessStartCommand` and `a2dpProcessSuspendCommand`, with the end points of a command. An error
names the end point. -/
def checkSeids : List Octet → Except CapsError Unit
  | [] => .ok ()
  | octet :: octets =>
    let seid := octet >>> 2 &&& 0x3f
    match d.checkSeid seid with
    | .error e => .error ⟨seid <<< 2, e.code⟩
    | .ok () => checkSeids octets

/-- `a2dpProcessCloseCommand`. -/
def a2dpProcessCloseCommand (p : Packet) : Except CapsError Device :=
  match d.checkSeid (p.seid 2) with
  | .error e => .error e
  | .ok () =>
    let i := (d.getSepIndexBySeid (p.seid 2)).getD 0
    let d := ((d.clearInUse i).setCurrent 0).removeStreamBlocks
    .ok { d with remoteSep := { d.remoteSep with seid := 0 } }

/-! ### Commands -/

/-- `a2dpHandleDiscoverCommand`. -/
def a2dpHandleDiscoverCommand : Option Device :=
  match d.a2dpProcessDiscoverCommand with
  | .error e => d.a2dpSendReject Signal.discover.id e
  | .ok (d, payload) => d.a2dpSendAccept .discover payload

/-- `a2dpHandleGetCapabilitiesCommand` and `a2dpHandleGetAllCapabilitiesCommand`. -/
def a2dpHandleGetCapabilitiesCommand (signal : Signal) (filter : Octet) (p : Packet) : Option Device :=
  match d.a2dpProcessGetCapabilitiesCommand filter p with
  | .error e => d.a2dpSendReject signal.id e
  | .ok (d, payload) => d.a2dpSendAccept signal payload

/-- `a2dpHandleSetConfigurationCommand`. -/
def a2dpHandleSetConfigurationCommand (p : Packet) : Option Device :=
  if d.streamState ∉ [.idle, .discovering, .readingCaps, .processingCaps, .configuring, .configured] then
    d.a2dpSendReject Signal.setConfiguration.id ⟨0, badState⟩
  else
    match d.a2dpProcessSetConfigurationCommand p with
    | .error e => d.a2dpSendReject Signal.setConfiguration.id e
    | .ok d =>
      let d := { d with sepConfiguredLocally := false }.a2dpSetStreamState .configured
      (d.a2dpSendAccept .setConfiguration []).map fun d =>
        -- a sink tells its source about the delay
        if a2dpIsServiceSupported serviceDelayReporting d.configuredCaps ∧ d.localSep.role = .sink then
          d.told (.mediaAvSyncDelayInd d.localSep.seid)
        else d

/-- `a2dpHandleGetConfigurationCommand`, with `a2dpProcessGetConfigurationCommand`. -/
def a2dpHandleGetConfigurationCommand (p : Packet) : Option Device :=
  match d.checkSeid (p.seid 2) with
  | .error e => d.a2dpSendReject Signal.getConfiguration.id e
  | .ok () =>
    match d.a2dpGrabSink d.configuredCaps.length with
    | none => d.a2dpSendReject Signal.getConfiguration.id ⟨0, badState⟩
    | some d =>
      -- `PanicNull`
      if d.configuredCaps = [] then none else d.a2dpSendAccept .getConfiguration d.configuredCaps

/-- `a2dpHandleReconfigureCommand`. -/
def a2dpHandleReconfigureCommand (p : Packet) : Option Device :=
  if d.streamState ∉ [.open, .remoteOpening, .localOpening] then
    d.a2dpSendReject Signal.reconfigure.id ⟨0, badState⟩
  else
    match d.a2dpProcessReconfigureCommand p with
    | .error e => d.a2dpSendReject Signal.reconfigure.id e
    | .ok d => (d.a2dpSendAccept .reconfigure []).map fun d => d.told .mediaReconfigureInd

/-- `a2dpHandleOpenCommand`, with `a2dpProcessOpenCommand`. -/
def a2dpHandleOpenCommand (p : Packet) : Option Device :=
  if d.streamState ≠ .configured then d.a2dpSendReject Signal.open.id ⟨0, badState⟩
  else
    match d.checkSeid (p.seid 2) with
    | .error e => d.a2dpSendReject Signal.open.id e
    | .ok () => some ((d.a2dpSetStreamState .remoteOpening).told (.mediaOpenInd d.getLocalSeid))

/-- The stream is being opened: the start or the close of the stream is deferred. -/
def isOpening : Bool := d.streamState = .remoteOpening ∨ d.streamState = .localOpening

/-- `a2dpHandleCloseCommand`, when it is not deferred. -/
def a2dpHandleCloseCommand (p : Packet) : Option Device :=
  if d.streamState ∉ [.open, .localStarting, .remoteStarting, .localSuspending, .reconfigReadingCaps,
      .reconfiguring, .streaming] then
    d.a2dpSendReject Signal.close.id ⟨0, badState⟩
  else
    match d.a2dpProcessCloseCommand p with
    | .error e => d.a2dpSendReject Signal.close.id e
    | .ok d => (d.a2dpSetStreamState .remoteClosing).a2dpSendAccept .close []

/-- `a2dpHandleStartCommand`, when it is not deferred, with `a2dpProcessStartCommand`. -/
def a2dpHandleStartCommand (p : Packet) : Option Device :=
  if d.streamState ∉ [.open, .localStarting, .remoteStarting] then d.a2dpSendReject Signal.start.id ⟨0, badState⟩
  else
    match d.checkSeids (p.from 2) with
    | .error e => d.a2dpSendReject Signal.start.id e
    | .ok () => some ((d.a2dpSetStreamState .remoteStarting).told .mediaStartInd)

/-- `a2dpHandleSuspendCommand`, with `a2dpProcessSuspendCommand`. -/
def a2dpHandleSuspendCommand (p : Packet) : Option Device :=
  if d.streamState ∉ [.streaming, .localSuspending] then d.a2dpSendReject Signal.suspend.id ⟨0, badState⟩
  else
    match d.checkSeids (p.from 2) with
    | .error e => d.a2dpSendReject Signal.suspend.id e
    | .ok () =>
      ((d.a2dpSetStreamState .open).a2dpSendAccept .suspend []).map fun d => d.told .mediaSuspendInd

/-- `a2dpHandleAbortCommand`, with `a2dpProcessAbortCommand`. -/
def a2dpHandleAbortCommand (p : Packet) : Option Device :=
  if d.currentSep.isSome ∧ d.getLocalSeid = p.seid 2 then
    (d.a2dpSendAccept .abort []).map fun d => d.a2dpDisconnectAllMedia.1.a2dpStreamReset
  -- another end point: nothing is sent
  else some d

/-- `a2dpHandleDelayReportCommand`. -/
def a2dpHandleDelayReportCommand (p : Packet) : Option Device :=
  let answered :=
    if d.streamState ∉ delayReportStates then d.a2dpSendReject Signal.delayReport.id ⟨0, badState⟩
    else
      match d.a2dpProcessDelayReportCommand p with
      | .error e => d.a2dpSendReject Signal.delayReport.id e
      | .ok d =>
        (d.a2dpSendAccept .delayReport []).map fun d =>
          d.told (.mediaAvSyncDelayUpdatedInd d.localSep.seid d.delay)
  answered.map fun d =>
    if d.streamState = .configured ∧ d.sepConfiguredLocally then d.continueStreamConnect else d

/-! ### Packets -/

/-- `processGeneralRejectResponse`. -/
def processGeneralRejectResponse (p : Packet) : Device :=
  if d.pendingIssued ∧ d.issuedLabel ≠ labelOf (p.octet 0) then d
  else if d.streamState = .localSuspending then
    (d.told (.mediaSuspendCfm .rejectedByRemoteDevice)).a2dpSetStreamState .open
  else d.a2dpStreamAbort

/-- The switch of `handleReceiveCommand`. -/
def dispatchCommand (signal : Signal) (p : Packet) : Option Device :=
  match signal with
  | .null =>
    if d.profileVersion ≠ .v13 then some (d.processGeneralRejectResponse p)
    else d.a2dpSendGeneralReject (p.octet 1)
  | .discover => d.a2dpHandleDiscoverCommand
  | .getCapabilities => d.a2dpHandleGetCapabilitiesCommand .getCapabilities serviceDelayReporting p
  | .setConfiguration => d.a2dpHandleSetConfigurationCommand p
  | .getConfiguration => d.a2dpHandleGetConfigurationCommand p
  | .reconfigure => d.a2dpHandleReconfigureCommand p
  | .open => d.a2dpHandleOpenCommand p
  | .start => d.a2dpHandleStartCommand p
  | .close => d.a2dpHandleCloseCommand p
  | .suspend => d.a2dpHandleSuspendCommand p
  | .abort => d.a2dpHandleAbortCommand p
  | .securityControl => d.a2dpSendGeneralReject (p.octet 1)
  | .getAllCapabilities =>
    d.a2dpHandleGetCapabilitiesCommand .getAllCapabilities
      (if d.profileVersion ≠ .v13 then serviceDelayReporting else 0) p
  | .delayReport => d.a2dpHandleDelayReportCommand p

/-- The command is taken up: its label is stored for the answer. -/
def takeUp (p : Packet) : Device :=
  { d with receivedLabel := labelOf (p.octet 0), pendingReceived := true }.note
    (.command (labelOf (p.octet 0)) (p.octet 1))

/-- `handleReceiveCommand`, which returns whether the command has been processed. -/
def handleReceiveCommand (p : Packet) : Option (Device × Bool) :=
  if !d.sinkIsValid ∨ d.pendingReceived then some (d, false)
  else
    match Signal.ofId (p.octet 1) with
    | none => ((d.takeUp p).a2dpSendGeneralReject (p.octet 1)).map (·, true)
    | some signal =>
      if p.length < signal.minLength then
        ((d.takeUp p).a2dpSendReject signal.id ⟨0, badLength⟩).map (·, true)
      else if signal ∈ [.start, .close] ∧ d.isOpening then
        some ({ d with receivedLabel := labelOf (p.octet 0) }, false)
      else ((d.takeUp p).dispatchCommand signal p).map (·, true)

/-- `handleReceiveResponse`. -/
def handleReceiveResponse (p : Packet) : Device :=
  if d.pendingIssued ∧ d.issuedLabel ≠ labelOf (p.octet 0) then d
  else
    let d := { d with pendingIssued := false }
    if p.length < 2 then d
    else
      match Signal.ofId (p.octet 1) with
      | some .discover => d.a2dpHandleDiscoverResponse p
      | some .getCapabilities | some .getAllCapabilities => d.a2dpHandleGetCapabilitiesResponse p
      | some .setConfiguration => d.a2dpHandleSetConfigurationResponse p
      | some .reconfigure => d.a2dpHandleReconfigureResponse p
      | some .open => d.a2dpHandleOpenResponse p
      | some .start => d.a2dpHandleStartResponse p
      | some .close => d.a2dpHandleCloseResponse p
      | some .suspend => d.a2dpHandleSuspendResponse p
      | some .abort => d.a2dpHandleAbortResponse
      | some .delayReport => d.a2dpHandleDelayReportResponse p
      -- these are never sent
      | some .null | some .getConfiguration | some .securityControl | none => d

/-- `handleBadHeader`. -/
def handleBadHeader (p : Packet) : Option Device :=
  if !d.sinkIsValid ∨ p.length < 2 ∨ p.octet 1 = Signal.discover.id then some d
  else (d.takeUp p).a2dpSendReject (p.octet 1) ⟨0, badHeaderFormat⟩

/-- `processSignalPacket`, which returns whether the packet has been processed. -/
def processSignalPacket (p : Packet) : Option (Device × Bool) :=
  match p.type with
  | .command => d.handleReceiveCommand p
  | .generalReject =>
    if d.profileVersion ≠ .v13 then (d.handleBadHeader p).map (·, true)
    else some (d.processGeneralRejectResponse p, true)
  | .accept | .reject => some (d.handleReceiveResponse p, true)

/-- A turn of the loop of `a2dpHandleSignalPacket`. The first octets of a packet under reassembly are
copied without a look at its length. -/
def a2dpHandleSignalPacket : Option Device :=
  if d.profileVersion = .notRequested ∨ !d.sinkIsValid then some d
  else
    match d.source with
    | [] => some d
    | fragment :: fragments =>
      if packetType (fragment.getD 0 0) = .start ∧ fragment.length < 2 then none
      else
        let r := reassemble d.received fragment
        match r.complete with
        | none => some { d with received := r.received, source := fragments }
        | some (t, p) =>
          ({ d with received := none }.processSignalPacket p).map fun s : Device × Bool =>
            if s.2 then { s.1 with source := fragments }
            else if t = PacketType.single then s.1
            -- the packet has been put together, and is freed
            else { s.1 with source := fragments }.note (.dropped (labelOf (p.octet 0)))

/-! ### Requests of the application -/

/-- `a2dpStreamEstablish`. -/
def a2dpStreamEstablish (seids : List Octet) : Device :=
  if d.connectionState ≠ .connected then d.mediaOpenCfm .noSignallingConnection
  else if d.streamState ≠ .idle then d.mediaOpenCfm .wrongState
  else d.issueDiscover seids

/-- `a2dpStreamOpenResponse`. -/
def a2dpStreamOpenResponse (accept : Bool) : Option Device :=
  if d.connectionState ≠ .connected then some (d.mediaOpenCfm .noSignallingConnection)
  else if d.streamState ≠ .remoteOpening then some (d.mediaOpenCfm .wrongState)
  else if accept then d.a2dpSendAccept .open []
  else (d.a2dpSendReject Signal.open.id ⟨0, badState⟩).map fun d => d.a2dpStreamReset

/-- `a2dpStreamStartResponse`. -/
def a2dpStreamStartResponse (accept : Bool) : Option Device :=
  if d.streamState ∉ [.open, .remoteStarting, .streaming] then
    (d.a2dpSendReject Signal.start.id ⟨0, badState⟩).map fun d => d.told (.mediaStartCfm .wrongState)
  else if accept ∨ d.streamState = .streaming then
    ((d.a2dpSetStreamState .streaming).a2dpSendAccept .start []).map fun d => d.told (.mediaStartCfm .success)
  else
    ((d.a2dpSetStreamState .open).a2dpSendReject Signal.start.id ⟨0, badState⟩).map fun d =>
      d.told (.mediaStartCfm .operationFail)

/-- A request of the application that is a command: `a2dpStreamStart` and its siblings, with the states in
which it may be made, the message of its confirm, and what is done when the command has been sent. -/
def requestStream (states : List StreamState) (told : Status → Told) (signal : Signal) (payload : List Octet)
    (sent : Device → Device) : Device :=
  if d.connectionState ≠ .connected then d.told (told .noSignallingConnection)
  else if d.mediaState ≠ .connected then d.told (told .noMediaConnection)
  else if d.streamState ∉ states then d.told (told .wrongState)
  else
    match d.a2dpSendCommand signal payload with
    | (d, true) => sent d
    | (d, false) => d.a2dpStreamAbort.told (told .operationFail)

/-- `a2dpStreamStart`. -/
def a2dpStreamStart : Device :=
  d.requestStream [.open] .mediaStartCfm .start [] fun d => d.a2dpSetStreamState .localStarting

/-- `a2dpStreamSuspend`. -/
def a2dpStreamSuspend : Device :=
  d.requestStream [.streaming] .mediaSuspendCfm .suspend [] fun d => d.a2dpSetStreamState .localSuspending

/-- `a2dpStreamRelease`. -/
def a2dpStreamRelease : Device :=
  d.requestStream [.open, .streaming, .localStarting, .remoteStarting, .localSuspending, .reconfigReadingCaps,
    .reconfiguring] .mediaCloseInd .close [] fun d => d.a2dpSetStreamState .localClosing

/-- `a2dpStreamReconfigure`. The capabilities are kept until they are accepted. -/
def a2dpStreamReconfigure (caps : List Octet) : Device :=
  d.requestStream [.open] .mediaReconfigureCfm .reconfigure caps fun d =>
    { d with reconfigCaps := caps }.a2dpSetStreamState .reconfiguring

/-- `a2dpStreamClose`, which returns whether there was a stream to close. -/
def a2dpStreamClose : Device × Bool :=
  if d.connectionState ≠ .connected ∨ d.mediaState ≠ .connected ∨
      d.streamState ∉ [.open, .streaming, .localStarting, .remoteStarting, .localSuspending] then (d, false)
  else
    match d.a2dpSendCommand .close [] with
    | (d, true) => (d.a2dpSetStreamState .localClosing, true)
    | (d, false) => (d.a2dpStreamAbort, true)

/-- `a2dpSetSepAvailable`. -/
def a2dpSetSepAvailable (seid : Octet) (available : Bool) : Device :=
  match d.getSepIndexBySeid seid with
  | none => d
  | some i => { d with seps := d.seps.modify i fun s => { s with unavailable := !available } }

/-! ### Timers -/

/-- `a2dpHandleInternalWatchdogTimeout`. -/
def a2dpHandleInternalWatchdogTimeout : Device :=
  if d.streamState = .localAborting ∨ d.streamState = .remoteAborting then d.disconnectAfterReset
  else d.a2dpStreamAbort

/-- `a2dpHandleInternalClientRspTimeout`. -/
def a2dpHandleInternalClientRspTimeout : Device :=
  if d.streamState = .configured then (d.sendDelayReport 0).1 else d

/-- `a2dpHandleInternalRemoteCmdTimeout`. -/
def a2dpHandleInternalRemoteCmdTimeout : Device :=
  if d.streamState = .configured then d.continueStreamConnect else d

/-! ### Messages of L2CAP -/

/-- `initiateSignalling` and `completeSignalling`: the channel is zeroed, and connected. -/
def zeroSignalling (s : ConnectionState) : Device :=
  { d with
    connectionState := s
    streamState := .idle
    pendingIssued := false
    pendingReceived := false
    issuedLabel := 0
    receivedLabel := 0
    received := none
    source := [] }

/-- `removeDevice`: the device is zeroed, but not its data blocks. -/
def removeDevice : Device :=
  { d.zeroSignalling .idle with
    localSep := ⟨0, .source, 0⟩
    remoteSep := ⟨0, .source, 0⟩
    sepConfiguredLocally := false
    reconfigCaps := []
    profileVersion := .notRequested
    mediaState := .idle
    delay := 0
    delayPending := false }

/-- The media channel is connected, or cannot be: the part of `a2dpHandleL2capConnectCfm` about media. -/
def mediaConnectCfm (success : Bool) : Device :=
  if !d.connectionState.isConnected then d
  else if d.mediaState = .paging ∨ d.mediaState = .paged then
    if success then
      let d := { d with mediaState := .connected }
      if d.streamState ≠ .localAborting then (d.a2dpSetStreamState .open).mediaOpenCfm .success
      else d.mediaOpenCfm .aborted
    else { d.mediaOpenCfm .operationFail with mediaState := .idle }.a2dpStreamAbort
  else if d.mediaState = .disconnectPending then
    if success then { d with mediaState := .disconnecting }.note (.l2cap .disconnectMedia)
    else { d.mediaOpenCfm .operationFail with mediaState := .idle }.a2dpSignallingDisconnectPending.1
  else d

/-- The remote device connects the media channel: the part of `a2dpHandleL2capConnectInd` about media. -/
def mediaConnectInd : Device :=
  if d.connectionState ≠ .connected then d
  else if d.streamState = .remoteOpening ∧ d.mediaState = .idle then
    { d with mediaState := .paged }.note (.l2cap (.respondMedia true))
  else d.note (.l2cap (.respondMedia false))

/-- The media channel is disconnected: the second part of `a2dpHandleL2capDisconnect`. -/
def mediaDisconnected (status : Status) (linkloss : Bool) : Device :=
  if !d.mediaState.isConnected then d
  else
    match { d.told (.mediaCloseInd status) with mediaState := .idle }.a2dpStreamReset.a2dpSignallingDisconnectPending with
    | (d, true) => d
    | (d, false) =>
      if !d.connectionState.isConnected then (d.told (.signallingDisconnectInd status)).removeDevice
      else if linkloss then d.told .signallingLinklossInd
      else d

/-- The signalling channel is disconnected: the first part of `a2dpHandleL2capDisconnect`. A managed link loss
keeps the device, to be connected again. -/
def signallingDisconnected (status : Status) (managed : Bool) : Device :=
  if !d.connectionState.isConnected then d
  else if managed then
    if d.mediaState.isConnected then { d with connectionState := .idle }
    else (d.told .signallingLinklossInd).zeroSignalling .paging
  else
    match d.a2dpDisconnectAllMedia with
    | (d, true) => { d with connectionState := .idle }
    | (d, false) => (d.told (.signallingDisconnectInd status)).a2dpStreamReset.removeDevice

/-- `a2dpHandleSignallingDisconnectReq`. -/
def a2dpHandleSignallingDisconnectReq : Device :=
  if d.connectionState ≠ .connected then d
  else
    match d.a2dpStreamClose with
    | (d, true) => { d with connectionState := .disconnectPending }
    | (d, false) =>
      if d.streamState ≠ .idle then { d.a2dpStreamAbort with connectionState := .disconnectPending }
      else { d with connectionState := .disconnecting }.note (.l2cap .disconnectSignalling)

end Device

/-! ### Steps -/

/-- What a device is driven by. -/
inductive Input
  | packet (octets : List Octet)
  | turn
  | room (n : ℕ)
  | signallingConnected (mtu : ℕ)
  | version (v : Version)
  | signallingDisconnected (status : Status) (managed : Bool)
  | mediaConnectInd
  | mediaConnectCfm (success : Bool)
  | mediaDisconnected (status : Status) (linkloss : Bool)
  | signallingDisconnectReq
  | openReq (seids : List Octet)
  | openRes (accept : Bool)
  | startReq
  | startRes (accept : Bool)
  | suspendReq
  | closeReq
  | reconfigureReq (caps : List Octet)
  | delayReq (delay : BitVec 16)
  | codecConfigureRes (accept : Bool) (seid : Octet) (caps : List Octet)
  | setAvailable (seid : Octet) (available : Bool)
  | watchdog
  | clientRspTimeout
  | remoteCmdTimeout
  deriving DecidableEq

/-- One input. A timer fires only if it has been started. -/
def Device.step (d : Device) : Input → Option Device
  | .packet octets => some (if d.sinkIsValid then { d with source := d.source ++ [octets] } else d)
  | .turn => d.a2dpHandleSignalPacket
  | .room n => some { d with room := n }
  | .signallingConnected mtu =>
    some (if d.connectionState = .idle ∨ d.connectionState = .paging then
      { d.zeroSignalling .connected with mtu := mtu } else d)
  | .version v => some (if d.profileVersion = .notRequested then { d with profileVersion := v } else d)
  | .signallingDisconnected status managed => some (d.signallingDisconnected status managed)
  | .mediaConnectInd => some d.mediaConnectInd
  | .mediaConnectCfm success => some (d.mediaConnectCfm success)
  | .mediaDisconnected status linkloss => some (d.mediaDisconnected status linkloss)
  | .signallingDisconnectReq => some d.a2dpHandleSignallingDisconnectReq
  | .openReq seids => some (d.a2dpStreamEstablish seids)
  | .openRes accept => (d.note .responded).a2dpStreamOpenResponse accept
  | .startReq => some d.a2dpStreamStart
  | .startRes accept => (d.note .responded).a2dpStreamStartResponse accept
  | .suspendReq => some d.a2dpStreamSuspend
  | .closeReq => some d.a2dpStreamRelease
  | .reconfigureReq caps => some (d.a2dpStreamReconfigure caps)
  | .delayReq delay => some (d.a2dpStreamDelayReport delay)
  | .codecConfigureRes accept seid caps => some (d.a2dpHandleCodecConfigureResponse accept seid caps)
  | .setAvailable seid available => some (d.a2dpSetSepAvailable seid available)
  | .watchdog => some (if d.watchdog then { d with watchdog := false }.a2dpHandleInternalWatchdogTimeout else d)
  | .clientRspTimeout =>
    some (if d.clientRsp then { d with clientRsp := false }.a2dpHandleInternalClientRspTimeout else d)
  | .remoteCmdTimeout =>
    some (if d.remoteCmd then { d with remoteCmd := false }.a2dpHandleInternalRemoteCmdTimeout else d)

end Cbps.A2dp
