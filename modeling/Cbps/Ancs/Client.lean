import Cbps.Lib.Runs
import Mathlib.Algebra.Ring.Nat

/-!
# The Apple notification client

The control point requests of the notification client, which wait in the message queue until no command is pending, the
confirms of their writes, and the notifications of the two sources. An octet string is read by `octet?` and `memcpy`,
which say `none` where a read goes behind what was received.
-/

namespace Cbps.Ancs

/-- `ancs_pending_cmd_t`, less the discovery and the configuration commands. -/
inductive PendingCmd
  | none
  | writeCpAttr
  | writeCpAppAttr
  deriving DecidableEq, Repr

/-- `gatt_ancs_status_t`. -/
inductive Status
  | success
  | invalidParameter
  | failed
  | notSupported
  | unknownCommand
  | invalidCommand
  | actionFailed
  deriving DecidableEq, Repr

/-- `gatt_ancs_command_id`. -/
inductive CommandId
  | attr
  | appAttr
  | action
  deriving DecidableEq, Repr

/-- `GANCS`. -/
structure Gancs where
  notificationSource : ℕ
  controlPoint : ℕ
  dataSource : ℕ
  pendingCmd : PendingCmd
  nsNotificationMask : ℕ
  deriving DecidableEq, Repr

/-- `CHECK_VALID_HANDLE`. -/
def checkValidHandle (handle : ℕ) : Prop := handle ≠ 0xFFFF

instance (handle : ℕ) : Decidable (checkValidHandle handle) := by
  unfold checkValidHandle
  infer_instance

/-! ### Requests -/

/-- A control point request of the application. -/
inductive Request
  | getNotificationAttributes (uid : ℕ) (attributeList : List UInt8)
  | getAppAttributes (appId attributeList : List UInt8)
  | performNotificationAction (uid : ℕ) (actionId : UInt8)
  deriving DecidableEq, Repr

/-- The octets 1 to 4 of a command with a notification. -/
def uidData (uid : ℕ) : List UInt8 :=
  [.ofNat (uid >>> 24 &&& 0xFF), .ofNat (uid >>> 16 &&& 0xFF), .ofNat (uid >>> 8 &&& 0xFF), .ofNat (uid &&& 0xFF)]

namespace Request

def commandId : Request → CommandId
  | getNotificationAttributes _ _ => .attr
  | getAppAttributes _ _ => .appAttr
  | performNotificationAction _ _ => .action

/-- `command_data`. -/
def commandData : Request → List UInt8
  | getNotificationAttributes uid attributeList => 0 :: uidData uid ++ attributeList
  | getAppAttributes appId attributeList => 1 :: appId ++ attributeList
  | performNotificationAction uid actionId => 2 :: uidData uid ++ [actionId]

/-- `pending_cmd` of the message. -/
def pendingCmd : Request → PendingCmd
  | getNotificationAttributes _ _ => .writeCpAttr
  | getAppAttributes _ _ => .writeCpAppAttr
  | performNotificationAction _ _ => .none

/-- Whether the interface sends a message. An application needs a name. -/
def isSent : Request → Bool
  | getAppAttributes appId _ => !appId.isEmpty
  | _ => true

end Request

/-- `GATT_ANCS_WRITE_CP_CFM`. -/
structure WriteCpCfm where
  commandId : CommandId
  status : Status
  deriving DecidableEq, Repr

/-- `get_ancs_error_code`. -/
def getAncsErrorCode (gattStatus : ℕ) : Status :=
  match gattStatus % 256 with
  | 0 => .success
  | 0xa0 => .unknownCommand
  | 0xa1 => .invalidCommand
  | 0xa2 => .invalidParameter
  | 0xa3 => .actionFailed
  | _ => .failed

/-- The command id that a confirm gets from the pending command. -/
def PendingCmd.commandId : PendingCmd → CommandId
  | .writeCpAttr => .attr
  | .writeCpAppAttr => .appAttr
  | .none => .action

/-- `makeAncsWriteCPCfmMsg`. -/
def makeAncsWriteCPCfmMsg (ancs : Gancs) (status : Status) : Gancs × WriteCpCfm :=
  ({ ancs with pendingCmd := .none }, ⟨ancs.pendingCmd.commandId, status⟩)

/-- `handleAncsWriteValueResp`. -/
def handleAncsWriteValueResp (ancs : Gancs) (gattStatus : ℕ) : Gancs × Option WriteCpCfm :=
  match ancs.pendingCmd with
  | .writeCpAttr | .writeCpAppAttr => (makeAncsWriteCPCfmMsg ancs (getAncsErrorCode gattStatus)).map id some
  -- no other write is expected
  | .none => (ancs, none)

/-! ### Notifications -/

/-- `GATT_MANAGER_REMOTE_SERVER_NOTIFICATION_IND`: the octets received, with a 16-bit size. -/
structure NotificationInd where
  handle : ℕ
  value : List UInt8
  fits : value.length < 2 ^ 16

/-- What the application is told. -/
inductive AppInd
  | ns (eventId eventFlag categoryId categoryCount : UInt8) (uid : ℕ)
  | dsAttr (uid : ℕ) (value : List UInt8)
  | dsAppAttr (value : List UInt8)
  deriving DecidableEq, Repr

/-- The notification of an indication. -/
def AppInd.uid? : AppInd → Option ℕ
  | ns _ _ _ _ uid | dsAttr uid _ => some uid
  | dsAppAttr _ => none

/-- A notification from its four octets. -/
def uidOf (a b c d : UInt8) : ℕ := a.toNat <<< 24 ||| b.toNat <<< 16 ||| c.toNat <<< 8 ||| d.toNat

/-- The octets from `start` on, as long as they were received. -/
def memcpy (value : List UInt8) (start count : ℕ) : Option (List UInt8) :=
  if start + count ≤ value.length then some ((value.drop start).take count) else none

/-- The loop that looks for the end of the application identifier. -/
def appIdLen (value : List UInt8) : ℕ → ℕ → Option ℕ
  | 0, n => some n
  | fuel + 1, n => do
    let c ← value[n + 1]?
    if c ≠ 0 ∧ n ≠ 0xFFFF then appIdLen value fuel (n + 1) else some n

/-- The notification source. -/
def handleNs (mask : ℕ) (value : List UInt8) : Option (Option AppInd) := do
  let categoryId ← value[2]?
  if mask.testBit categoryId.toNat then
    let eventId ← value[0]?
    let eventFlag ← value[1]?
    let categoryCount ← value[3]?
    let a ← value[4]?
    let b ← value[5]?
    let c ← value[6]?
    let d ← value[7]?
    some (some (.ns eventId eventFlag categoryId categoryCount (uidOf a b c d)))
  else some none

/-- The data source. The size of the value is a 16-bit number. -/
def handleDs (value : List UInt8) : Option (Option AppInd) := do
  let command ← value[0]?
  if command = 0 then
    let a ← value[1]?
    let b ← value[2]?
    let c ← value[3]?
    let d ← value[4]?
    let attributes ← memcpy value 5 ((value.length + 2 ^ 16 - 5) % 2 ^ 16)
    some (some (.dsAttr (uidOf a b c d) attributes))
  else if command = 1 then
    let n ← appIdLen value (2 ^ 16) 0
    if n ≠ 0xFFFF then
      let appId ← memcpy value 1 (n + 1)
      let attributes ← memcpy value (n + 2) (value.length - 1 - n - 1)
      some (some (.dsAppAttr (appId ++ attributes)))
    else some none
  else some none

/-- What the handler of a notification does. -/
structure Handled where
  ancs : Gancs
  cfm : Option WriteCpCfm
  ind : Option AppInd
  deriving DecidableEq, Repr

/-- `handleAncsNotification`. It says nothing if it reads behind the octets received. -/
def handleAncsNotification (ancs : Gancs) (ind : NotificationInd) : Option Handled :=
  if ind.value = [] then some ⟨ancs, none, none⟩
  else if ind.handle = ancs.notificationSource then
    (handleNs ancs.nsNotificationMask ind.value).map fun told => ⟨ancs, none, told⟩
  else if ind.handle = ancs.dataSource then
    let (ancs, cfm) := if ancs.pendingCmd ≠ .none then (makeAncsWriteCPCfmMsg ancs .success).map id some else (ancs, none)
    (handleDs ind.value).map fun told => ⟨ancs, cfm, told⟩
  else some ⟨ancs, none, none⟩

/-! ### Runs -/

/-- A write that the GATT manager has not answered. -/
structure Write where
  request : Request
  handle : ℕ
  value : List UInt8
  deriving DecidableEq, Repr

/-- The client with its queue, the writes under way, and what has happened: the requests, those that have their result,
and the messages to the application. -/
structure Session where
  ancs : Gancs
  queue : List Request
  writes : List Write
  requests : List Request
  results : List (Request × Status)
  cfms : List WriteCpCfm
  inds : List AppInd
  deriving DecidableEq, Repr

inductive Event
  | request (request : Request)
  | deliver
  | confirm (n gattStatus : ℕ)
  | notification (ind : NotificationInd)

namespace Session

/-- A request of the application. Its message waits until no command is pending. -/
def request (s : Session) (r : Request) : Session :=
  { s with requests := s.requests ++ [r], queue := s.queue ++ if r.isSent then [r] else [] }

/-- `ANCS_INTERNAL_MSG_WRITE_CP_CHARACTERISTIC`. -/
def write (s : Session) (r : Request) : Session :=
  let ancs := { s.ancs with pendingCmd := r.pendingCmd }
  if checkValidHandle ancs.controlPoint then
    { s with ancs := ancs, writes := s.writes ++ [⟨r, ancs.controlPoint, r.commandData⟩] }
  else
    let (ancs, cfm) := makeAncsWriteCPCfmMsg ancs .notSupported
    { s with ancs := ancs, cfms := s.cfms ++ [cfm], results := s.results ++ [(r, .notSupported)] }

/-- The confirm of a write. -/
def confirm (s : Session) (n gattStatus : ℕ) (w : Write) : Session :=
  let (ancs, cfm) := handleAncsWriteValueResp s.ancs gattStatus
  { s with
    ancs := ancs
    writes := s.writes.eraseIdx n
    results := s.results ++ [(w.request, getAncsErrorCode gattStatus)]
    cfms := s.cfms ++ cfm.toList }

/-- After a notification. -/
def after (s : Session) (h : Handled) : Session :=
  { s with ancs := h.ancs, cfms := s.cfms ++ h.cfm.toList, inds := s.inds ++ h.ind.toList }

def step (s : Session) : Event → Option Session
  | .request r => some (s.request r)
  | .deliver =>
    match s.queue with
    | [] => none
    | r :: queue => if s.ancs.pendingCmd = .none then some ({ s with queue := queue }.write r) else none
  | .confirm n gattStatus => s.writes[n]?.map (s.confirm n gattStatus)
  | .notification ind => (handleAncsNotification s.ancs ind).map s.after

/-- A client after its discovery. -/
def initial (notificationSource controlPoint dataSource mask : ℕ) : Session :=
  ⟨⟨notificationSource, controlPoint, dataSource, .none, mask⟩, [], [], [], [], [], []⟩

end Session

end Cbps.Ancs
