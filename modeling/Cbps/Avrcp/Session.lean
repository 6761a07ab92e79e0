import Cbps.Avrcp.Continuation
import Cbps.Avrcp.Labels
import Mathlib.Data.Nat.Notation

/-!
# The target side of a session

The fields of `AVRCP` that commands and responses go through, with `avrcpSourceDrop` and
`avrcpSourceProcessed` of `avrcp_common.c`, `avrcpUnblockReceivedData` and `avrcpSendAvcResponse` of
`avrcp_signal_handler.c`, and `avrcpSendMetadataResponse` of `avrcp_metadata_transfer.c`.

The L2CAP source is the list of the packets that are left in it. A function that sends returns the state
and the responses that it hands to AVCTP, and `none` where the code reads outside of an array or panics.
`room` says whether the sink has room for a response. Memory can always be had; `continuation_data` and
`data_app_ind`, which hold data of the application, are left out.
-/

namespace Cbps.Avrcp

/-! ### The codes -/

namespace Rsp

/-- `avctp_response_bad_profile`. -/
def badProfile : Octet := 0x01

/-- `avctp_response_accepted`. -/
def accepted : Octet := 0x09

/-- `avctp_response_rejected`. -/
def rejected : Octet := 0x0A

/-- `avctp_response_stable`. -/
def stable : Octet := 0x0C

/-- `avctp_response_changed`. -/
def changed : Octet := 0x0D

/-- `avctp_response_interim`. -/
def interim : Octet := 0x0F

/-- `avrcp_response_rejected_invalid_pdu`. -/
def rejectedInvalidPdu : Octet := 0x80

/-- `avrcp_response_rejected_invalid_param`. -/
def rejectedInvalidParam : Octet := 0x81

/-- `avrcp_response_rejected_internal_error`. -/
def rejectedInternalError : Octet := 0x83

/-- `avrcp_response_rejected_addressed_player_changed`. -/
def rejectedAddressedPlayerChanged : Octet := 0x96

end Rsp

namespace Pdu

/-- `AVRCP_INFORM_CHARACTER_SET_PDU_ID`. -/
def informCharacterSet : Octet := 0x17

/-- `AVRCP_INFORM_BATTERY_STATUS_PDU_ID`. -/
def informBatteryStatus : Octet := 0x18

/-- `AVRCP_REGISTER_NOTIFICATION_PDU_ID`. -/
def registerNotification : Octet := 0x31

/-- `AVRCP_SET_ABSOLUTE_VOLUME_PDU_ID`. -/
def setAbsoluteVolume : Octet := 0x50

/-- `AVRCP_SET_ADDRESSED_PLAYER_PDU_ID`. -/
def setAddressedPlayer : Octet := 0x60

end Pdu

/-- `AVRCP0_CTYPE_CONTROL`, `AVRCP0_CTYPE_STATUS` and `AVRCP0_CTYPE_NOTIFY`. -/
inductive CommandType
  | control
  | status
  | notify
  deriving DecidableEq, Repr

/-- `avrcpGetCommandType`. -/
def avrcpGetCommandType (id : Octet) : CommandType :=
  if id = Pdu.registerNotification then .notify
  else if id ∈ [Pdu.setAbsoluteVolume, 0x14, Pdu.informBatteryStatus, Pdu.informCharacterSet,
      Pdu.setAddressedPlayer, 0x74, 0x90] then .control
  else .status

/-- `avrcpGetErrorStatusCode`: the status, and the response as it is sent. -/
def avrcpGetErrorStatusCode (response : Octet) (commandType : CommandType) : Octet × Octet :=
  if response < Rsp.rejectedInvalidPdu then
    if response = Rsp.accepted ∨ response = Rsp.changed ∨ response = Rsp.stable then
      match commandType with
      | .status => (0x04, Rsp.stable)
      | .control => (0x04, Rsp.accepted)
      | .notify => (0x04, Rsp.changed)
    else if response = Rsp.rejected then (0x03, response)
    else (0x04, response)
  else (response &&& 0x7F, Rsp.rejected)

/-! ### The state -/

/-- The commands that are not metadata commands. Metadata commands that are not known block as
`vendor`, too. -/
inductive AvcCommand
  | passthrough
  | unitInfo
  | subunitInfo
  | vendor
  | nextGroup
  | previousGroup
  deriving DecidableEq, Repr

/-- `block_received_data`: the command that waits for a response. `events 0` is
`avrcp_events_start_dummy`, the registration of an event that does not exist. -/
inductive Blocked
  | none
  | avc (command : AvcCommand)
  | metadata (pdu : Octet)
  | events (id : ℕ)
  deriving DecidableEq, Repr

/-- What `av_msg` points to: nothing, the front of the source, or memory of its own. -/
inductive Message
  | null
  | source
  | heap (octets : List Octet)
  deriving DecidableEq, Repr

/-- A response that is handed to AVCTP. `ipid` says that its profile is invalid. -/
structure Response where
  transaction : Label
  ipid : Bool
  pid : List Octet
  frame : List Octet
  deriving DecidableEq, Repr

/-- The messages that the task sends to itself. -/
inductive Answer
  /-- The answer to a command of which it repeats the first octets. -/
  | avc (hdrSize : ℕ) (response : Octet)
  | unitInfo (accept : Bool) (data : List Octet)
  | subunitInfo (accept : Bool) (pageData : List Octet)
  | metadata (pdu response : Octet) (packetType : PacketType) (mandatoryData data : List Octet)
  | control (pdu response : Octet)
  | rejectMetadata (response pdu : Octet)
  /-- An event, with what follows its identifier. -/
  | event (response id : Octet) (data attributes : List Octet)
  deriving DecidableEq, Repr

/-- The fields of `AVRCP` that a target uses, and the messages that are under way. `registrations` is the
history of the registrations that have been received, the last one first. -/
structure Session where
  source : List (List Octet)
  avMsg : Message
  avMsgLen : ℕ
  fragment : PacketType
  block : Blocked
  rspTransactionLabel : Label
  notifyTransactionLabel : ℕ → Label
  registeredEvents : BitVec 16
  avMaxDataSize : ℕ
  queue : List Answer
  timeouts : List Blocked
  registrations : List (ℕ × Label)

/-- `SourceDrop`: the octets that are left of the packets. -/
def sourceDrop : ℕ → List (List Octet) → List (List Octet)
  | _, [] => []
  | n, packet :: packets =>
    if n < packet.length then packet.drop n :: packets else sourceDrop (n - packet.length) packets

/-- `AVRCP_AVC_START_HEADER_SIZE`. -/
def avcStartHeaderSize : ℕ := 14

/-- `AVRCP_MIN_AVC_PACKET_SIZE`. -/
def minAvcPacketSize : ℕ := 11

namespace Session

variable (s : Session)

/-- A new connection. -/
def init : Session where
  source := []
  avMsg := .null
  avMsgLen := 0
  fragment := .single
  block := .none
  rspTransactionLabel := 0
  notifyTransactionLabel := fun _ => 0
  registeredEvents := 0
  avMaxDataSize := avcMaxDataSize
  queue := []
  timeouts := []
  registrations := []

/-- The octets that `av_msg` points to. -/
def octets : Option (List Octet) :=
  match s.avMsg with
  | .null => none
  | .source => s.source.head?
  | .heap octets => some octets

/-- `avrcpSourceDrop`. Of a message that has been reassembled, the octets behind the header are taken to
be in the source. -/
def avrcpSourceDrop : Session :=
  if s.avMsgLen = 0 then { s with avMsg := .null }
  else if s.avMsg = .source then
    { s with avMsg := .null, avMsgLen := 0, source := sourceDrop s.avMsgLen s.source }
  else if s.fragment = .single then { s with avMsg := .null, avMsgLen := 0 }
  else
    { s with
      avMsgLen := avcStartHeaderSize
      source := sourceDrop ((s.avMsgLen + 2 ^ 16 - avcStartHeaderSize) % 2 ^ 16) s.source }

/-- `avrcpSourceProcessed`. -/
def avrcpSourceProcessed : Session :=
  let s := if s.fragment = .ending then { s with fragment := .single } else s
  if s.block = .none then s.avrcpSourceDrop else s

/-- `avrcpUnblockReceivedData`. -/
def avrcpUnblockReceivedData : Session := { s with block := .none, timeouts := [] }.avrcpSourceProcessed

end Session

/-- The response that `avrcpSendAvcResponse` and `avrcpAvctpSendMessage` make of a message: the octets of
the header are those of the message, with the response in front. -/
def responseTo (octets : List Octet) (hdrSize : ℕ) (response : Octet) (data : List Octet) : Option Response :=
  (octets.head?).bind fun first =>
    let cmdOffset := if first &&& 0x0c = 0x04 then 4 else 3
    if octets.length < cmdOffset + hdrSize then none
    else
      let transaction := first.extractLsb' 4 4
      if response = Rsp.badProfile then some ⟨transaction, true, (octets.drop 1).take 2, []⟩
      else if hdrSize = 0 then some ⟨transaction, true, (octets.drop 1).take 2, data⟩
      else
        let header := ((octets.drop cmdOffset).take hdrSize).set 0 response
        some ⟨transaction, false, (octets.drop (cmdOffset - 2)).take 2, header ++ data⟩

namespace Session

variable (s : Session)

/-- The end of `avrcpSendAvcResponse`: a final response to a command that is not a metadata command lets
the next one in. -/
def avcResponseSent (hdrSize : ℕ) (response : Octet) : Session :=
  if response ≠ Rsp.interim ∧ hdrSize < minAvcPacketSize then s.avrcpUnblockReceivedData else s

/-- `avrcpSendAvcResponse`. -/
def avrcpSendAvcResponse (hdrSize : ℕ) (response : Octet) (data : List Octet) (room : Bool) :
    Option (Session × List Response) :=
  -- the command is lost with its source
  let s := if s.avMsg = .source ∧ s.source = [] then { s with avMsg := .null, avMsgLen := 0 } else s
  match s.octets, room with
  | some octets, true =>
    (responseTo octets hdrSize response data).map fun sent => (s.avcResponseSent hdrSize response, [sent])
  | _, _ => some (s.avcResponseSent hdrSize response, [])

end Session

/-- `avrcp_packet_type`, as it is sent. -/
def PacketType.code : PacketType → Octet
  | single => 0
  | start => 1
  | continuing => 2
  | ending => 3

/-- `avrcpFrameAVCResponseHeader`. The second octet is filled in later, if ever. -/
def avrcpFrameAVCResponseHeader (transId : Label) (pduId : Octet) (packetType : PacketType)
    (paramLength : ℕ) : List Octet :=
  [(transId.setWidth 8 <<< 4) ||| 0x06, 0x00, 0x11, 0x0E,
    0x00, 0x48, 0x00, 0x00, 0x19, 0x58,
    pduId, packetType.code, BitVec.ofNat 8 (paramLength / 2 ^ 8), BitVec.ofNat 8 paramLength]

namespace Session

variable (s : Session)

/-- The event that a response is about, as `avrcpSendMetadataResponse` finds it. -/
def eventId (response : Octet) (mandatoryData : List Octet) : Option ℕ :=
  if s.block = .events 0 then some 0
  else (if response = Rsp.rejected then mandatoryData[1]? else mandatoryData[0]?).map BitVec.toNat

/-- The first half of `avrcpSendMetadataResponse`: the transaction of the response, the state in which the
last command is released when the response answers it, and the message that is kept otherwise. -/
def release (response pduId : Octet) (mandatoryData : List Octet) : Option (Label × Session × Message) :=
  if pduId = Pdu.registerNotification then
    (s.eventId response mandatoryData).map fun eventId =>
      if s.block = .events eventId then (s.rspTransactionLabel, s.avrcpSourceDrop, .null)
      else (s.notifyTransactionLabel (eventId - 1), s, s.avMsg)
  else some (s.rspTransactionLabel, s.avrcpSourceDrop, .null)

/-- The end of `avrcpSendMetadataResponse`: a message that has been kept is restored, or the next command
is let in. -/
def restore (temp : Message) (response pduId : Octet) : Session :=
  if temp ≠ .null then { s with avMsg := temp }
  else if pduId = Pdu.registerNotification ∨ response ≠ Rsp.interim then s.avrcpUnblockReceivedData
  else s

/-- `avrcpSendMetadataResponse`, with the first `sizeMandatoryData` octets of the mandatory data and all of
the other data. -/
def avrcpSendMetadataResponse (response pduId : Octet) (data : List Octet) (packetType : PacketType)
    (sizeMandatoryData : ℕ) (mandatoryData : List Octet) (room : Bool) : Option (Session × List Response) :=
  (s.release response pduId mandatoryData).bind fun (transId, s, temp) =>
    let header := avrcpFrameAVCResponseHeader transId pduId packetType (sizeMandatoryData + data.length)
    let s :=
      { s with
        avMsg := .heap (header ++ mandatoryData.take sizeMandatoryData)
        avMsgLen := avcStartHeaderSize }
    (s.avrcpSendAvcResponse (10 + sizeMandatoryData) response data room).map fun (s, sent) =>
      (s.restore temp response pduId, sent)

end Session

end Cbps.Avrcp
