import Cbps.Avrcp.Session
import Cbps.Lib.Masks

/-!
# Responses and notifications of a target

`avrcp_notification_handler.c` with the handlers of the other responses, `avrcpHandleMetadataCommand` and
the handlers of the commands for which the application is asked, and
`avrcpHandleInternalSendResponseTimeout`. A notification is a response to a command that has been answered
before: it goes through the same functions as the answer to the command that is pending.

The sink may have room for one response of a handler and not for another, so `room` depends on the event
that a response is about, and is `room 0` for the response that a handler begins with. Which command a
message is and what its handler says of its parameters is left open; messages that are answered at once or
not at all only leave the source.
-/

namespace Cbps.Avrcp

/-- `EVENT_PLAYBACK_STATUS_CHANGED` to `EVENT_VOLUME_CHANGED`. -/
def isEvent (event : ℕ) : Bool := 1 ≤ event ∧ event ≤ 13

/-- `EVENT_ADDRESSED_PLAYER_CHANGED`. -/
def eventAddressedPlayerChanged : Octet := 11

/-- `AVRCP_PLAYER_ID_ASSOCIATED_EVENTS`. -/
def playerIdAssociatedEvents : BitVec 16 := 0x033E

/-- A command for which the application is asked, or which the library rejects later on. -/
inductive Command
  | avc (command : AvcCommand)
  /-- A metadata command, and the response with which its handler rejects it. -/
  | metadata (pdu : Octet) (known : Bool) (reject : Option Octet)
  | registration (event : ℕ)
  /-- A metadata command that is not looked at. -/
  | corrupted (response pdu : Octet)
  deriving DecidableEq, Repr

/-- A message that AVCTP hands on: `length` of its octets are the command. -/
structure Received where
  octets : List Octet
  length : ℕ
  reassembled : Bool
  command : Command
  deriving DecidableEq, Repr

/-- The response that `avrcpHandleInternalUnitInfoRes` and `avrcpHandleInternalSubUnitInfoRes` make of the
first octets of a message. -/
def infoResponse (octets : List Octet) (size : ℕ) (data : List Octet) : Option Response :=
  (octets.head?).bind fun first =>
    if octets.length < size then none
    else some ⟨first.extractLsb' 4 4, false, (octets.drop 1).take 2, ((octets.take size).drop 3).set 0 Rsp.stable ++ data⟩

namespace Session

variable (s : Session)

/-! ### Events -/

/-- `isEventRegistered`. -/
def isEventRegistered (event : ℕ) : Bool := s.registeredEvents.getLsbD event

/-- `clearRegisterNotification`. -/
def clearRegisterNotification (event : ℕ) : Session :=
  { s with registeredEvents := s.registeredEvents &&& ~~~(1#16 <<< event) }

/-- `sendRegisterNotificationResponse`, for an event and what follows its identifier. -/
def sendRegisterNotificationResponse (response id : Octet) (data attributes : List Octet) (room : Bool) :
    Option (Session × List Response) :=
  let s := if response ≠ Rsp.interim then s.clearRegisterNotification id.toNat else s
  let (error, response) := avrcpGetErrorStatusCode response .notify
  if response = Rsp.rejected then
    s.avrcpSendMetadataResponse response Pdu.registerNotification [] .single 1 [error, id] room
  else if s.avMaxDataSize < (id :: data).length + attributes.length then none
  else
    s.avrcpSendMetadataResponse response Pdu.registerNotification attributes .single (id :: data).length
      (id :: data) room

/-- The loop of `avrcpRejectRegisterNotifications`. -/
def rejectNotifications (response : Octet) (room : ℕ → Bool) : Session → List ℕ → Option (Session × List Response)
  | s, [] => some (s, [])
  | s, id :: ids =>
    (s.sendRegisterNotificationResponse response (BitVec.ofNat 8 id) [] [] (room id)).bind fun (s, sent) =>
      (rejectNotifications response room s ids).map fun (s, rest) => (s, sent ++ rest)

/-- `avrcpRejectRegisterNotifications`, which reads the events once. -/
def avrcpRejectRegisterNotifications (eventBits : BitVec 16) (response : Octet) (room : ℕ → Bool) :
    Option (Session × List Response) :=
  let ids := (Lib.positions (s.registeredEvents &&& eventBits)).filter fun id => 0 < id
  s.rejectNotifications response room ids

/-! ### The handlers of responses -/

/-- `avrcpHandleInternalUnitInfoRes`, which panics when the sink has no room. -/
def avrcpHandleInternalUnitInfoRes (accept : Bool) (data : List Octet) (room : Bool) :
    Option (Session × List Response) :=
  match s.octets with
  | none => some (s, [])
  | some octets =>
    if !accept then s.avrcpSendAvcResponse 8 Rsp.rejected [] room
    else if !room then none
    else (infoResponse octets 6 data).map fun sent => (s.avrcpUnblockReceivedData, [sent])

/-- `avrcpHandleInternalSubUnitInfoRes`. -/
def avrcpHandleInternalSubUnitInfoRes (accept : Bool) (pageData : List Octet) (room : Bool) :
    Option (Session × List Response) :=
  match s.octets with
  | none => some (s.avrcpUnblockReceivedData, [])
  | some octets =>
    if !accept then
      (s.avrcpSendAvcResponse 8 Rsp.rejected [] room).map fun (s, sent) => (s.avrcpUnblockReceivedData, sent)
    else if !room then some (s.avrcpSourceProcessed.avrcpUnblockReceivedData, [])
    else
      (infoResponse octets 7 pageData).map fun sent => (s.avrcpSourceProcessed.avrcpUnblockReceivedData, [sent])

/-- `avrcpHandleInternalRejectMetadataResponse`. -/
def avrcpHandleInternalRejectMetadataResponse (response pdu : Octet) (room : Bool) :
    Option (Session × List Response) :=
  let (error, response) := avrcpGetErrorStatusCode response (avrcpGetCommandType pdu)
  let dataSize := if response = Rsp.rejected then 1 else 0
  s.avrcpSendMetadataResponse response pdu [] .single dataSize [error] room

/-- `avrcpHandleCommonMetadataControlResponse` with `prepareMetadataControlResponse`, up to the events that
it rejects. -/
def avrcpHandleCommonMetadataControlResponse (pdu response : Octet) (room : Bool) :
    Option (Session × List Response) :=
  if response ≠ Rsp.accepted then s.avrcpHandleInternalRejectMetadataResponse response pdu room
  else if pdu = Pdu.informBatteryStatus ∨ pdu = Pdu.informCharacterSet then
    s.avrcpSendMetadataResponse response pdu [] .single 0 [] room
  else s.avrcpSendMetadataResponse response pdu [] .single 1 [0x04] room

/-- What the handler of a message sends first. -/
def respond (room : Bool) : Answer → Option (Session × List Response)
  | .avc hdrSize response => s.avrcpSendAvcResponse hdrSize response [] room
  | .unitInfo accept data => s.avrcpHandleInternalUnitInfoRes accept data room
  | .subunitInfo accept pageData => s.avrcpHandleInternalSubUnitInfoRes accept pageData room
  | .metadata pdu response packetType mandatoryData data =>
    s.avrcpSendMetadataResponse response pdu data packetType mandatoryData.length mandatoryData room
  | .control pdu response => s.avrcpHandleCommonMetadataControlResponse pdu response room
  | .rejectMetadata response pdu => s.avrcpHandleInternalRejectMetadataResponse response pdu room
  | .event response id data attributes => s.sendRegisterNotificationResponse response id data attributes room

end Session

/-- The handler rejects the events that are associated with the player. -/
def Answer.changesPlayer : Answer → Bool
  | .control pdu response => pdu = Pdu.setAddressedPlayer ∧ response = Rsp.accepted
  | .event response id _ _ => id = eventAddressedPlayerChanged ∧ response = Rsp.changed
  | _ => false

namespace Session

variable (s : Session)

/-- The handler of a message. -/
def handle (answer : Answer) (room : ℕ → Bool) : Option (Session × List Response) :=
  (s.respond (room 0) answer).bind fun (s, sent) =>
    if answer.changesPlayer then
      (s.avrcpRejectRegisterNotifications playerIdAssociatedEvents Rsp.rejectedAddressedPlayerChanged room).map
        fun (s, rest) => (s, sent ++ rest)
    else some (s, sent)

/-- `avrcpHandleInternalSendResponseTimeout`. -/
def avrcpHandleInternalSendResponseTimeout (room : ℕ → Bool) : Blocked → Option (Session × List Response)
  | .avc .passthrough => some ({ s with queue := s.queue ++ [.avc 5 Rsp.rejected] }, [])
  | .avc .unitInfo => some ({ s with queue := s.queue ++ [.unitInfo false []] }, [])
  | .avc .subunitInfo => some ({ s with queue := s.queue ++ [.subunitInfo false []] }, [])
  | .avc .vendor => some ({ s with queue := s.queue ++ [.avc 6 Rsp.rejected] }, [])
  | .avc .nextGroup | .avc .previousGroup => some ({ s with queue := s.queue ++ [.avc 10 Rsp.rejected] }, [])
  | .metadata pdu => s.avrcpHandleInternalRejectMetadataResponse Rsp.rejectedInternalError pdu (room 0)
  | .events event => s.avrcpRejectRegisterNotifications (1#16 <<< event) Rsp.rejectedInternalError room
  | .none => some (s.avrcpUnblockReceivedData, [])

/-! ### Commands -/

/-- `avrcpBlockReceivedData`. -/
def avrcpBlockReceivedData (pending : Blocked) : Session :=
  { s with block := pending, timeouts := s.timeouts ++ [pending] }

/-- `avrcpSendRejectMetadataResponse`. -/
def avrcpSendRejectMetadataResponse (response id : Octet) : Session :=
  let s :=
    if s.block ≠ .none then s
    else { s with block := if id = Pdu.registerNotification then .events 0 else .avc .vendor }
  { s with queue := s.queue ++ [.rejectMetadata response id] }

/-- `avrcpHandleRegisterNotificationCommand`. -/
def avrcpHandleRegisterNotificationCommand (event : ℕ) : Session :=
  { s with
    registeredEvents := s.registeredEvents ||| (1#16 <<< event)
    notifyTransactionLabel := Function.update s.notifyTransactionLabel (event - 1) s.rspTransactionLabel
    registrations := (event, s.rspTransactionLabel) :: s.registrations }

/-- `avrcpHandleCommand`, with the first octet of the message. -/
def avrcpHandleCommand (first : Octet) : Command → Session
  | .avc command => s.avrcpBlockReceivedData (.avc command)
  | .metadata pdu known reject =>
    let s := { s with rspTransactionLabel := first.extractLsb' 4 4 }
    let s := s.avrcpBlockReceivedData (if known then .metadata pdu else .avc .vendor)
    match reject with
    | some response => s.avrcpSendRejectMetadataResponse response pdu
    | none => s
  | .registration event =>
    let s := { s with rspTransactionLabel := first.extractLsb' 4 4 }
    if isEvent event then (s.avrcpBlockReceivedData (.events event)).avrcpHandleRegisterNotificationCommand event
    else s.avrcpSendRejectMetadataResponse Rsp.rejectedInvalidParam Pdu.registerNotification
  | .corrupted response pdu =>
    { s with rspTransactionLabel := first.extractLsb' 4 4 }.avrcpSendRejectMetadataResponse response pdu

/-- A message of `avrcpHandleReceivedData`: one packet at the front of the source, or one that has been
reassembled. -/
def receive (message : Received) : Session :=
  match message.octets with
  | [] => s
  | first :: _ =>
    if message.reassembled then
      { s with avMsg := .heap message.octets, avMsgLen := message.length, fragment := .ending }.avrcpHandleCommand
        first message.command
    else if s.source.head? = some message.octets then
      { s with avMsg := .source, avMsgLen := message.length, fragment := .single }.avrcpHandleCommand first
        message.command
    else s

/-- The API function of an answer sends the message only when the command is pending or the event is
registered; some do not ask. -/
def mayAnswer : Answer → Bool
  | .avc hdrSize _ => hdrSize ≠ 10 ∨ s.block = .avc .nextGroup ∨ s.block = .avc .previousGroup
  | .unitInfo _ _ | .subunitInfo _ _ => true
  | .metadata pdu _ _ _ _ | .control pdu _ => s.block = .metadata pdu
  | .rejectMetadata _ _ => false
  | .event _ id _ _ => s.isEventRegistered id.toNat

end Session

/-- What happens to a session: a packet arrives, a message is received or only dropped, the application
answers or raises an event, a message of the task is delivered, and the time for an answer has passed. -/
inductive Input
  | arrive (packet : List Octet)
  | receive (message : Received)
  | drop
  | call (answer : Answer)
  | deliver (room : ℕ → Bool)
  | timeout (room : ℕ → Bool)

namespace Session

/-- One step of a session. -/
def step (s : Session) (e : Input) : Option Session :=
  match e with
  | .arrive packet => some { s with source := s.source ++ [packet] }
  | .receive message => some (if s.block = .none then s.receive message else s)
  | .drop => some (if s.block = .none then { s with source := s.source.tail } else s)
  | .call answer => some (if s.mayAnswer answer then { s with queue := s.queue ++ [answer] } else s)
  | .deliver room =>
    match s.queue with
    | [] => some s
    | answer :: queue => ({ s with queue := queue }.handle answer room).map Prod.fst
  | .timeout room =>
    match s.timeouts with
    | [] => some s
    | pending :: timeouts =>
      ({ s with timeouts := timeouts }.avrcpHandleInternalSendResponseTimeout room pending).map Prod.fst

end Session

end Cbps.Avrcp
