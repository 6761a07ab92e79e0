import Cbps.A2dp.Packets
import Cbps.A2dp.Services

/-!
# A remote device

The state of a remote device in `a2dp_private.h`, with its data blocks, and the functions of
`a2dp_packet_handler.c`, `a2dp_command_handler.c` and `a2dp_l2cap_handler.c` that send packets, set the
stream state, and reset or abort the stream.

A packet is sent by `sendPacket` with its label, message type, signal id and payload; how it goes out on
the channel is in `Packets.lean`. The sink counts its free octets. `PanicFalse` of a packet that cannot be
sent is `none`. The log is the history of what the device has sent and told, and of the commands that it has
taken up.
-/

namespace Cbps.A2dp

abbrev Label := BitVec 4

/-- `avdtp_stream_state`. -/
inductive StreamState
  | idle
  | discovering
  | readingCaps
  | processingCaps
  | configuring
  | configured
  | localOpening
  | remoteOpening
  | «open»
  | streaming
  | localStarting
  | remoteStarting
  | localSuspending
  | localClosing
  | remoteClosing
  | reconfigReadingCaps
  | reconfiguring
  | localAborting
  | remoteAborting
  deriving DecidableEq, Repr

/-- The states in which the watchdog runs. -/
def StreamState.isWatched (s : StreamState) : Bool :=
  s ∉ [StreamState.idle, .configured, .open, .streaming]

/-- `avdtp_connection_state`. -/
inductive ConnectionState
  | idle
  | paging
  | paged
  | crossover
  | connected
  | disconnecting
  | disconnectPending
  deriving DecidableEq, Repr

/-- A channel that is being disconnected is still there. -/
def ConnectionState.isConnected (s : ConnectionState) : Bool :=
  s ∈ [ConnectionState.connected, .disconnecting, .disconnectPending]

/-- `avdtp_version`. -/
inductive Version
  | notRequested
  | unknown
  | pre10
  | v10
  | v12
  | v13
  deriving DecidableEq, Repr

/-- `avdtp_message_type_command` and its siblings. -/
inductive MessageType
  | command
  | generalReject
  | accept
  | reject
  deriving DecidableEq, Repr

/-- The message type of a header. -/
def messageType (header : Octet) : MessageType :=
  if header &&& 3 = 0 then .command
  else if header &&& 3 = 1 then .generalReject
  else if header &&& 3 = 2 then .accept
  else .reject

/-- `ptr[0] >> 4`. -/
def labelOf (header : Octet) : Label := (header >>> 4).setWidth 4

/-- `avdtp_signal_id`. -/
inductive Signal
  | null
  | discover
  | getCapabilities
  | setConfiguration
  | getConfiguration
  | reconfigure
  | «open»
  | start
  | close
  | suspend
  | abort
  | securityControl
  | getAllCapabilities
  | delayReport
  deriving DecidableEq, Repr

def Signal.all : List Signal :=
  [.null, .discover, .getCapabilities, .setConfiguration, .getConfiguration, .reconfigure, .open, .start,
    .close, .suspend, .abort, .securityControl, .getAllCapabilities, .delayReport]

def Signal.id (s : Signal) : Octet := BitVec.ofNat 8 (Signal.all.idxOf s)

/-- The signal of an id that is not above `avdtp_max_signal_id`. -/
def Signal.ofId (id : Octet) : Option Signal := Signal.all[id.toNat]?

/-- `a2dp_status_code`. -/
inductive Status
  | success
  | invalidParameters
  | operationFail
  | wrongState
  | noSignallingConnection
  | noMediaConnection
  | rejectedByRemoteDevice
  | disconnectLinkLoss
  | maxConnections
  | aborted
  deriving DecidableEq, Repr

/-- What the application is told. -/
inductive Told
  | codecConfigureInd (seid : Octet) (caps : List Octet)
  | mediaOpenInd (seid : Octet)
  | mediaOpenCfm (seid : Octet) (status : Status)
  | mediaCloseInd (status : Status)
  | mediaStartInd
  | mediaStartCfm (status : Status)
  | mediaSuspendInd
  | mediaSuspendCfm (status : Status)
  | mediaReconfigureInd
  | mediaReconfigureCfm (status : Status)
  | mediaAvSyncDelayInd (seid : Octet)
  | mediaAvSyncDelayCfm (seid : Octet) (status : Status)
  | mediaAvSyncDelayUpdatedInd (seid : Octet) (delay : BitVec 16)
  | signallingDisconnectInd (status : Status)
  | signallingLinklossInd
  deriving DecidableEq, Repr

/-- What is asked of L2CAP. -/
inductive L2capRequest
  | connectMedia
  | respondMedia (accept : Bool)
  | disconnectMedia
  | disconnectSignalling
  deriving DecidableEq, Repr

/-- An entry of the history. `command` is a command that is taken up, `dropped` one that could not be
processed and was not kept, `capabilities` an answer of a remote end point, and `responded` an answer of the
application to the opening or the starting of the stream. -/
inductive Obs
  | command (label : Label) (signalId : Octet)
  | dropped (label : Label)
  | capabilities (seid : Octet) (caps : List Octet)
  | responded
  | packet (label : Label) (type : MessageType) (signalId : Octet) (payload : List Octet)
  | told (t : Told)
  | l2cap (r : L2capRequest)
  deriving DecidableEq, Repr

/-- `sep_data_type`, with the `sep_config_type` that it points to. `inUse` is the bit `A2DP_SEP_IN_USE`, and
`unavailable` the bit `A2DP_SEP_UNAVAILABLE`. -/
structure Sep where
  seid : Octet
  mediaType : Octet
  role : Role
  librarySelectsSettings : Bool
  caps : List Octet
  inUse : Bool
  unavailable : Bool

/-- `sep_ptr->in_use`. -/
def Sep.isTaken (s : Sep) : Bool := s.inUse || s.unavailable

/-- `sep_info`. -/
structure SepInfo where
  seid : Octet
  role : Role
  codec : Octet
  deriving DecidableEq

/-- `AVDTP_MEDIA_CODEC_UNDEFINED`. -/
def mediaCodecUndefined : Octet := 0xa5

/-- `remote_device`, with its data blocks. A block that is not there is an empty list. -/
structure Device where
  seps : List Sep
  current : ℕ
  preferred : List SepInfo
  preferredCurrent : ℕ
  discovered : List SepInfo
  discoveredCurrent : ℕ
  configuredCaps : List Octet
  localSep : SepInfo
  remoteSep : SepInfo
  sepConfiguredLocally : Bool
  reconfigCaps : List Octet
  profileVersion : Version
  connectionState : ConnectionState
  mtu : ℕ
  streamState : StreamState
  pendingIssued : Bool
  pendingReceived : Bool
  issuedLabel : Label
  receivedLabel : Label
  received : Option Packet
  source : List (List Octet)
  room : ℕ
  mediaState : ConnectionState
  delay : BitVec 16
  delayPending : Bool
  watchdog : Bool
  clientRsp : Bool
  remoteCmd : Bool
  log : List Obs

namespace Device

variable (d : Device)

def note (o : Obs) : Device := { d with log := d.log ++ [o] }

def told (t : Told) : Device := d.note (.told t)

/-- `a2dpSetStreamState`. The watchdogs are cancelled, and that of the new state is started. -/
def a2dpSetStreamState (s : StreamState) : Device :=
  { d with streamState := s, clientRsp := false, remoteCmd := false, watchdog := s.isWatched }

/-- The current end point of the list. -/
def currentSep : Option Sep := d.seps[d.current]?

/-- `getLocalSeid`. -/
def getLocalSeid : Octet := (d.currentSep.map Sep.seid).getD 0

/-- `getSepIndexBySeid`. -/
def getSepIndexBySeid (seid : Octet) : Option ℕ := d.seps.findIdx? fun s => s.seid = seid

/-- `a2dpMediaOpenCfm`, with the seid of the current end point when the stream has been opened. -/
def mediaOpenCfm (status : Status) : Device :=
  d.told (.mediaOpenCfm (if status = .success then d.getLocalSeid else 0xFF) status)

/-! ### Packets -/

/-- The sink is valid as long as there is a channel. -/
def sinkIsValid : Bool := d.connectionState.isConnected

/-- `a2dpGrabSink`, and the `SinkClaim` of a header. -/
def a2dpGrabSink (size : ℕ) : Option Device :=
  if d.sinkIsValid ∧ size ≤ d.room then some { d with room := d.room - size } else none

/-- The octets of the headers of a payload. -/
def headerSize (payloadSize : ℕ) : ℕ :=
  if payloadSize < d.mtu - 1 then 2 else 2 + (payloadSize + d.mtu) / (d.mtu - 1)

/-- `sendPacket`, with the payload in the sink. -/
def sendPacket (label : Label) (t : MessageType) (signalId : Octet) (payload : List Octet) : Option Device :=
  (d.a2dpGrabSink (d.headerSize payload.length)).map fun d => d.note (.packet label t signalId payload)

/-- `a2dpSendAccept`. -/
def a2dpSendAccept (signal : Signal) (payload : List Octet) : Option Device :=
  { d with pendingReceived := false }.sendPacket d.receivedLabel .accept signal.id payload

/-- The payload of `a2dpSendReject`. -/
def rejectPayload (signalId : Octet) (e : CapsError) : List Octet :=
  if signalId ∈ [Signal.setConfiguration.id, Signal.reconfigure.id, Signal.start.id, Signal.suspend.id] then
    [e.category, e.code]
  else [e.code]

/-- `a2dpSendReject`. -/
def a2dpSendReject (signalId : Octet) (e : CapsError) : Option Device :=
  match d.a2dpGrabSink (rejectPayload signalId e).length with
  | none => some d
  | some d =>
    { d with pendingReceived := false }.sendPacket d.receivedLabel .reject signalId (rejectPayload signalId e)

/-- `a2dpSendGeneralReject`, with the signal id of the received packet. -/
def a2dpSendGeneralReject (signalId : Octet) : Option Device :=
  if d.profileVersion ∈ [Version.pre10, .v10, .v12] then
    { d with pendingReceived := false }.sendPacket d.receivedLabel .command Signal.null.id []
  else { d with pendingReceived := false }.sendPacket d.receivedLabel .generalReject signalId []

/-- The label of the next command. -/
def nextLabel : Label := if d.issuedLabel + 1 = 0 then 1 else d.issuedLabel + 1

/-- The octets that `a2dpSendCommand` puts before the payload of a command. -/
def commandHeader (signal : Signal) : List Octet :=
  if signal = .discover then []
  else if signal = .setConfiguration then [d.remoteSep.seid <<< 2, d.getLocalSeid <<< 2]
  else [d.remoteSep.seid <<< 2]

/-- `a2dpSendCommand`, which returns whether the command has been sent. -/
def a2dpSendCommand (signal : Signal) (payload : List Octet) : Device × Bool :=
  if !d.sinkIsValid then (d, false)
  else if d.pendingIssued ∧ signal ≠ .close ∧ signal ≠ .abort then (d, false)
  else
    match d.a2dpGrabSink (payload.length + (d.commandHeader signal).length) with
    | none => (d, false)
    | some d =>
      let d := { d with issuedLabel := d.nextLabel, pendingIssued := true }
      match d.sendPacket d.issuedLabel .command signal.id (d.commandHeader signal ++ payload) with
      | none => (d, false)
      | some d => (d, true)

/-! ### Media channels -/

/-- `a2dpDisconnectAllMedia`. There is one media channel. -/
def a2dpDisconnectAllMedia : Device × Bool :=
  match d.mediaState with
  | .paging | .paged => ({ d with mediaState := .disconnectPending }, true)
  | .connected => ({ d with mediaState := .disconnecting }.note (.l2cap .disconnectMedia), true)
  | .disconnecting => (d, true)
  | .idle | .crossover | .disconnectPending => (d, false)

/-- `a2dpSignallingDisconnectPending`. -/
def a2dpSignallingDisconnectPending : Device × Bool :=
  if d.connectionState = .disconnectPending then
    ({ d with connectionState := .disconnecting }.note (.l2cap .disconnectSignalling), true)
  else (d, false)

/-- `a2dpMediaConnectReq`. -/
def a2dpMediaConnectReq : Device :=
  if d.connectionState = .connected then
    if d.mediaState = .idle then { d with mediaState := .paging }.note (.l2cap .connectMedia)
    else d.mediaOpenCfm .maxConnections
  else d.mediaOpenCfm .wrongState

/-- `a2dpMediaDisconnectReq`, with the sink of the media channel. -/
def a2dpMediaDisconnectReq : Device :=
  if d.mediaState = .connected then { d with mediaState := .disconnecting }.note (.l2cap .disconnectMedia)
  else d

/-! ### The end of a stream -/

/-- The mark of an end point is cleared. -/
def clearInUse (i : ℕ) : Device := { d with seps := d.seps.modify i fun s => { s with inUse := false } }

/-- The mark of an end point is set. -/
def setInUse (i : ℕ) : Device := { d with seps := d.seps.modify i fun s => { s with inUse := true } }

/-- The first end point is the current one. -/
def setCurrent (i : ℕ) : Device := { d with current := if i < d.seps.length then i else d.current }

/-- The blocks of a stream are removed. -/
def removeStreamBlocks : Device := { d with configuredCaps := [], discovered := [], discoveredCurrent := 0 }

/-- `a2dpStreamReset`. -/
def a2dpStreamReset : Device :=
  let d := ((d.clearInUse d.current).setCurrent 0).removeStreamBlocks
  { d with
    remoteSep := { d.remoteSep with codec := mediaCodecUndefined }
    localSep := { d.localSep with codec := mediaCodecUndefined }
    pendingIssued := false
    pendingReceived := false
    issuedLabel := 0
    receivedLabel := 0 }.a2dpSetStreamState .idle

/-- `a2dpStreamAbort`. -/
def a2dpStreamAbort : Device :=
  if d.streamState = .localAborting ∨ d.streamState = .remoteAborting then d
  else if d.connectionState = .connected then
    match d.a2dpSendCommand .abort [] with
    | (d, true) => d.a2dpSetStreamState .localAborting
    | (d, false) => d.a2dpDisconnectAllMedia.1.a2dpStreamReset
  else d

/-! ### What the sending of a packet changes -/

section Sends

variable {d} {t : Device} {signal : Signal} {signalId : Octet} {payload : List Octet}

theorem grabSink_eq {size : ℕ} (h : d.a2dpGrabSink size = some t) : t = { d with room := d.room - size } := by
  rw [a2dpGrabSink] at h
  split_ifs at h
  exact (Option.some.inj h).symm

theorem sendPacket_eq {label : Label} {type : MessageType} (h : d.sendPacket label type signalId payload = some t) :
    ∃ room, t = { d with room := room, log := d.log ++ [.packet label type signalId payload] } := by
  obtain ⟨e, he, rfl⟩ := Option.map_eq_some_iff.mp h
  rw [grabSink_eq he]
  exact ⟨_, rfl⟩

theorem sendAccept_eq (h : d.a2dpSendAccept signal payload = some t) :
    ∃ room, t = { d with
      room := room
      pendingReceived := false
      log := d.log ++ [.packet d.receivedLabel .accept signal.id payload] } :=
  sendPacket_eq h

/-- A reject is sent, unless there is no room for its payload. -/
theorem sendReject_cases {e : CapsError} (h : d.a2dpSendReject signalId e = some t) :
    t = d ∧ d.a2dpGrabSink (rejectPayload signalId e).length = none ∨
      ∃ room, t = { d with
        room := room
        pendingReceived := false
        log := d.log ++ [.packet d.receivedLabel .reject signalId (rejectPayload signalId e)] } := by
  rw [a2dpSendReject] at h
  split at h
  · next hgrab => exact Or.inl ⟨(Option.some.inj h).symm, hgrab⟩
  · next e he =>
    obtain ⟨room, rfl⟩ := sendPacket_eq h
    rw [grabSink_eq he]
    exact Or.inr ⟨room, rfl⟩

theorem sendGeneralReject_eq (h : d.a2dpSendGeneralReject signalId = some t) :
    ∃ room type id, t = { d with
      room := room
      pendingReceived := false
      log := d.log ++ [.packet d.receivedLabel type id []] } ∧
      (type = .command ∧ id = Signal.null.id ∨ type = .generalReject ∧ id = signalId) := by
  rw [a2dpSendGeneralReject] at h
  split_ifs at h
  · obtain ⟨room, rfl⟩ := sendPacket_eq h
    exact ⟨room, _, _, rfl, Or.inl ⟨rfl, rfl⟩⟩
  · obtain ⟨room, rfl⟩ := sendPacket_eq h
    exact ⟨room, _, _, rfl, Or.inr ⟨rfl, rfl⟩⟩

/-- A command is not sent, its header does not fit any more, or it is sent with the next label. -/
theorem sendCommand_cases {sent : Bool} (h : d.a2dpSendCommand signal payload = (t, sent)) :
    sent = false ∧ t = d ∨
      (sent = false ∧ ∃ room, t = { d with room := room, issuedLabel := d.nextLabel, pendingIssued := true }) ∨
      (sent = true ∧ (d.pendingIssued = true → signal = .close ∨ signal = .abort) ∧ ∃ room, t = { d with
        room := room
        issuedLabel := d.nextLabel
        pendingIssued := true
        log := d.log ++ [.packet d.nextLabel .command signal.id (d.commandHeader signal ++ payload)] }) := by
  rw [a2dpSendCommand] at h
  split_ifs at h with hvalid hpending
  · obtain ⟨rfl, rfl⟩ := Prod.mk.inj h
    exact Or.inl ⟨rfl, rfl⟩
  · obtain ⟨rfl, rfl⟩ := Prod.mk.inj h
    exact Or.inl ⟨rfl, rfl⟩
  · split at h
    · obtain ⟨rfl, rfl⟩ := Prod.mk.inj h
      exact Or.inl ⟨rfl, rfl⟩
    · next e he =>
      obtain rfl := grabSink_eq he
      dsimp only at h
      split at h
      · obtain ⟨rfl, rfl⟩ := Prod.mk.inj h
        exact Or.inr (Or.inl ⟨rfl, _, rfl⟩)
      · next e he =>
        obtain ⟨room, rfl⟩ := sendPacket_eq he
        obtain ⟨rfl, rfl⟩ := Prod.mk.inj h
        refine Or.inr (Or.inr ⟨rfl, fun hissued => ?_, room, rfl⟩)
        by_contra hother
        exact hpending ⟨hissued, not_or.mp hother⟩

end Sends

end Device

end Cbps.A2dp
