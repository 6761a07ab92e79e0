import Cbps.Lib.Runs
import Mathlib.Algebra.Ring.Nat

/-!
# Continuation of metadata responses

`avrcp_continuation_handler.c`, `prepareMetadataStatusResponse` and what `avrcpSendMetadataResponse` does
for it: a target sends a response that does not fit into one PDU in fragments. The first fragment goes
out at once, and the rest waits in a message that is delivered when `continuation_pdu` is zero. Every
event comes with what the environment decides, `room` that the sink has room for the response.

Responses are final ones, and a source is the list of the octets that are left in it.
`continuation_data` is left out: it is only emptied.
-/

namespace Cbps.Avrcp

abbrev Octet := BitVec 8

/-- `avrcp_packet_type`. -/
inductive PacketType
  | single
  | start
  | continuing
  | ending
  deriving DecidableEq, Repr

/-- The type is the one of a last fragment. -/
def PacketType.isLast : PacketType → Bool
  | single | ending => true
  | start | continuing => false

/-- A metadata response that is sent. -/
structure Fragment where
  pduId : ℕ
  packetType : PacketType
  data : List Octet
  deriving DecidableEq, Repr

/-- `block_received_data`: the command that waits for a response. -/
inductive Pending
  | none
  | vendor
  | pdu (id : ℕ)
  deriving DecidableEq, Repr

/-- `AVRCP_INTERNAL_NEXT_CONTINUATION_PACKET_T`. -/
structure NextPacket where
  data : List Octet
  paramLength : ℕ
  pduId : ℕ
  deriving DecidableEq, Repr

/-- The messages that the task sends to itself. -/
inductive Internal
  | nextContinuationPacket (next : NextPacket)
  | abortContinuingRes (accepted : Bool)
  deriving DecidableEq, Repr

/-- `AVRCP_INTERNAL_NEXT_CONTINUATION_PACKET`. -/
def Internal.isNextContinuationPacket : Internal → Bool
  | nextContinuationPacket _ => true
  | abortContinuingRes _ => false

/-- What can be observed of a target. -/
inductive Obs
  /-- The application has answered a command. -/
  | answered (data : List Octet)
  /-- A request for the next fragment is handled. -/
  | requested
  | sent (fragment : Fragment)
  /-- The answer to a command that aborts the response. -/
  | aborted (accepted : Bool)
  deriving DecidableEq, Repr

/-- The fields of `AVRCP` that a response goes through, with the messages that are under way, and a log. -/
structure Target where
  continuationPdu : ℕ
  avMaxDataSize : ℕ
  block : Pending
  queue : List Internal
  log : List Obs
  deriving DecidableEq, Repr

/-- `AVRCP_AVC_MAX_DATA_SIZE`. -/
def avcMaxDataSize : ℕ := 502

namespace Target

/-- A new connection. -/
def init : Target :=
  { continuationPdu := 0, avMaxDataSize := avcMaxDataSize, block := .none, queue := [], log := [] }

variable (s : Target)

def note (obs : Obs) : Target := { s with log := s.log ++ [obs] }

/-- `avrcpUnblockReceivedData`. -/
def avrcpUnblockReceivedData : Target := { s with block := .none }

/-- The octets that `avrcpSendMetadataResponse` takes from the source, in 16 bits. -/
def taken (paramLength sizeMandatoryData : ℕ) : ℕ := (paramLength + 2 ^ 16 - sizeMandatoryData) % 2 ^ 16

/-- `avrcpSendMetadataResponse`. `none` says that the source holds less than what is to be sent. -/
def avrcpSendMetadataResponse (pduId : ℕ) (data : List Octet) (packetType : PacketType) (paramLength : ℕ)
    (mandatoryData : List Octet) (room : Bool) : Option Target :=
  let dataLen := taken paramLength mandatoryData.length
  if data.length < dataLen then none
  else
    let s := if room then s.note (.sent ⟨pduId, packetType, mandatoryData ++ data.take dataLen⟩) else s
    some s.avrcpUnblockReceivedData

/-- `avrcpStoreNextContinuationPacket`. -/
def avrcpStoreNextContinuationPacket (data : List Octet) (paramLength pduId : ℕ) : Target :=
  { s with
    continuationPdu := pduId
    queue := s.queue ++ [.nextContinuationPacket ⟨data, paramLength, pduId⟩] }

/-- `prepareMetadataStatusResponse`, where `paramLength` is the length of all the data. What the first
fragment leaves of the source is stored. -/
def prepareMetadataStatusResponse (pduId : ℕ) (data mandatoryData : List Octet) (room : Bool) :
    Option Target :=
  let paramLength := mandatoryData.length + data.length
  if s.avMaxDataSize < paramLength then
    let rest := data.drop (taken s.avMaxDataSize mandatoryData.length)
    (s.avrcpStoreNextContinuationPacket rest (paramLength - s.avMaxDataSize) pduId).avrcpSendMetadataResponse
      pduId data .start s.avMaxDataSize mandatoryData room
  else s.avrcpSendMetadataResponse pduId data .single paramLength mandatoryData room

/-- `avrcpHandleNextContinuationPacket`. -/
def avrcpHandleNextContinuationPacket (ind : NextPacket) (room : Bool) : Option Target :=
  if ind.paramLength < s.avMaxDataSize then
    { s with continuationPdu := ind.pduId }.avrcpSendMetadataResponse ind.pduId ind.data .ending
      ind.paramLength [] room
  else
    (s.avrcpStoreNextContinuationPacket (ind.data.drop s.avMaxDataSize) (ind.paramLength - s.avMaxDataSize)
      ind.pduId).avrcpSendMetadataResponse ind.pduId ind.data .continuing s.avMaxDataSize [] room

/-- `abortContinuation`. -/
def abortContinuation : Target :=
  { s with
    continuationPdu := 0
    queue := s.queue.filter fun message => !message.isNextContinuationPacket }

/-- `avrcpHandleRequestContinuingCommand`. -/
def avrcpHandleRequestContinuingCommand (pdu : ℕ) : Target :=
  if s.continuationPdu = pdu then { s with continuationPdu := 0 } else s.avrcpUnblockReceivedData

/-- `avrcpHandleAbortContinuingCommand`. -/
def avrcpHandleAbortContinuingCommand (pdu : ℕ) : Target :=
  if s.continuationPdu = pdu then
    { s.abortContinuation with queue := s.abortContinuation.queue ++ [.abortContinuingRes true] }
  else { s with queue := s.queue ++ [.abortContinuingRes false] }

/-- `avrcpHandleInternalAbortContinuingResponse`. The response has no parameters. -/
def avrcpHandleInternalAbortContinuingResponse (accepted : Bool) (room : Bool) : Target :=
  let s := if room then s.note (.aborted accepted) else s
  s.avrcpUnblockReceivedData

/-- `AvrcpSetMetadataResponsePDUDataSize`, which compares the size that is set. -/
def AvrcpSetMetadataResponsePDUDataSize (dataSize : ℕ) : Target :=
  if s.avMaxDataSize ≤ avcMaxDataSize then { s with avMaxDataSize := dataSize } else s

/-- A message that waits for `continuation_pdu` is delivered when it is zero. -/
def deliverable : Internal → Bool
  | .nextContinuationPacket _ => s.continuationPdu = 0
  | .abortContinuingRes _ => true

/-- The first message that can be delivered is handled. -/
def deliver (room : Bool) : Option Target :=
  match s.queue.find? s.deliverable with
  | none => some s
  | some (.nextContinuationPacket next) =>
    { s with queue := s.queue.erase (.nextContinuationPacket next) }.avrcpHandleNextContinuationPacket next room
  | some (.abortContinuingRes accepted) =>
    some ({ s with queue := s.queue.erase (.abortContinuingRes accepted) }.avrcpHandleInternalAbortContinuingResponse
      accepted room)

end Target

/-- What happens to a target: a metadata command that the application is to answer, its answer, the
commands of a continuation, the delivery of a message, and a new size of the fragments. -/
inductive Event
  | command (pdu : ℕ)
  | respond (pdu : ℕ) (data mandatoryData : List Octet) (room : Bool)
  | requestContinuing (pdu : ℕ)
  | abortContinuing (pdu : ℕ)
  | deliver (room : Bool)
  | setSize (dataSize : ℕ)
  deriving DecidableEq, Repr

namespace Target

/-- `avrcpHandleMetadataCommand`, for the commands of which the source sends an indication. While data is
blocked, a command stays in the source. -/
def avrcpHandleMetadataCommand (s : Target) : Event → Target
  | .command pdu =>
    let s := if s.continuationPdu ≠ 0 then s.abortContinuation else s
    { s with block := .pdu pdu }
  | .requestContinuing pdu =>
    ({ s with block := .vendor }.note .requested).avrcpHandleRequestContinuingCommand pdu
  | .abortContinuing pdu => { s with block := .vendor }.avrcpHandleAbortContinuingCommand pdu
  | _ => s

/-- One step of a target. -/
def step (s : Target) (e : Event) : Option Target :=
  match e with
  | .command _ | .requestContinuing _ | .abortContinuing _ =>
    some (if s.block = .none then s.avrcpHandleMetadataCommand e else s)
  | .respond pdu data mandatoryData room =>
    -- an answer to another command is dropped
    if s.block = .pdu pdu then
      (s.note (.answered (mandatoryData ++ data))).prepareMetadataStatusResponse pdu data mandatoryData room
    else some s
  | .deliver room => s.deliver room
  | .setSize dataSize => some (s.AvrcpSetMetadataResponsePDUDataSize dataSize)

end Target

end Cbps.Avrcp
