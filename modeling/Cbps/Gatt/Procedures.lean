import Cbps.Gatt.LongValues

/-!
# Procedures of the client

The procedures that a client runs over one connection: `gatt_message.c`, the handlers of the requests and of the
confirms of ATT in the files of the procedures, and what connecting and disconnecting do to the entry of the
connection. A request is held, with those before it, while `data.app` is set.

A request carries a number, and what ATT has been asked carries the request: neither is in the messages. What
waits for ATT is in `outstanding`. An entry that is there already is not added again: `Connections` has the table.
-/

namespace Cbps.Gatt

open GattManager (Task)

/-- The procedures of `gatt_msg_scen_t`. -/
inductive Procedure
  | exchangeMtu
  | discoverAllPrimaryServices
  | discoverPrimaryService
  | findIncludes
  | discoverAllCharacteristics
  | discoverAllDescriptors
  | read
  | readByUuid
  | readLong
  | readMultiple
  | writeWithoutResponse
  | signedWriteWithoutResponse
  | writeCharacteristicValue
  | writeLongCharacteristicValue
  | prepareWrite
  | executeWrite
  | notification
  | indication
  deriving DecidableEq, Repr

/-- `gatt_msg_scen_t`. -/
inductive MsgScen
  | none
  | connectReq
  | connectRsp
  | bleConnectRsp
  | procedure (p : Procedure)
  deriving DecidableEq, Repr

/-- `ATT_RESULT_SUCCESS_SENT`: an indication has been sent. -/
def attResultSuccessSent : AttResult := 0xff7a

/-- `gatt_status_t`, where GATT makes it itself. -/
inductive ClientStatus
  | att (status : BitVec 16)
  | invalidCid
  | invalidUuid
  | deviceNotFound
  | mtuAlreadyExchanged
  | valueMismatch
  | failure
  | successSent
  deriving DecidableEq, Repr

/-- What a confirm tells of an attribute: the fields of the confirms of the procedures, with the octets of a value
or of a UUID. -/
structure Item where
  handle : BitVec 16
  endHandle : BitVec 16
  value : List UInt8
  deriving DecidableEq, Repr

def Item.empty : Item := ⟨0, 0, []⟩

/-- A request to GATT, by its number: the internal message with what the handlers use of it. -/
structure ClientReq where
  id : ℕ
  task : Task
  procedure : Procedure
  start : BitVec 16
  endHandle : BitVec 16
  offs : BitVec 16
  value : List UInt8
  deriving DecidableEq, Repr

/-- A confirm to the application, for the request of a number. Those without the field `more_to_come` are the only
ones of their request, but for an indication that has been sent. -/
structure ClientCfm where
  id : ℕ
  task : Task
  status : ClientStatus
  item : Item
  moreToCome : Bool
  deriving DecidableEq, Repr

/-- The message in `data.stash`. -/
structure Stash where
  id : ℕ
  status : BitVec 16
  item : Item
  moreToCome : Bool
  deriving DecidableEq, Repr

/-- What ATT, or SDP, is asked. -/
inductive AttReq
  | exchangeMtu
  | readByGroupType (start : BitVec 16)
  | findByTypeValue (start : BitVec 16)
  | readByType (start : BitVec 16)
  | findInfo (start : BitVec 16)
  | read (handle : BitVec 16)
  | readBlob (offs : BitVec 16)
  | readMulti
  | write
  | prepareWrite (offs : BitVec 16) (value : List UInt8)
  | executeWrite
  | handleValue
  | sdpSearch
  deriving DecidableEq, Repr

/-- The confirms of ATT, and of SDP. -/
inductive AttCfm
  | exchangeMtu (result : AttResult) (mtu : BitVec 16)
  | readByGroupType (result : AttResult) (handle endHandle : BitVec 16) (value : List UInt8)
  | findByTypeValue (result : AttResult) (handle endHandle : BitVec 16)
  | readByType (result : AttResult) (handle : BitVec 16) (value : List UInt8)
  | findInfo (result : AttResult) (handle : BitVec 16) (uuid : List UInt8)
  | read (result : AttResult) (value : List UInt8)
  | readBlob (result : AttResult) (value : List UInt8)
  | readMulti (result : AttResult) (value : List UInt8)
  | write (result : AttResult)
  | prepareWrite (result : AttResult) (offset : BitVec 16) (value : List UInt8)
  | executeWrite (result : AttResult)
  | handleValue (result : AttResult)
  | sdpSearch (status : BitVec 16) (item : Item) (moreToCome : Bool)
  deriving DecidableEq, Repr

/-- A confirm answers what has been asked. -/
def AttCfm.answers : AttCfm → AttReq → Bool
  | .exchangeMtu _ _, .exchangeMtu | .readByGroupType _ _ _ _, .readByGroupType _
  | .findByTypeValue _ _ _, .findByTypeValue _ | .readByType _ _ _, .readByType _ | .findInfo _ _ _, .findInfo _
  | .read _ _, .read _ | .readBlob _ _, .readBlob _ | .readMulti _ _, .readMulti | .write _, .write
  | .prepareWrite _ _ _, .prepareWrite _ _ | .executeWrite _, .executeWrite | .handleValue _, .handleValue
  | .sdpSearch _ _ _, .sdpSearch => true
  | _, _ => false

/-- No other confirm follows for what has been asked. -/
def AttCfm.isLast : AttCfm → Bool
  | .readByGroupType result _ _ _ | .findByTypeValue result _ _ | .readByType result _ _ | .findInfo result _ _ =>
    decide (result ≠ attResultSuccessMore)
  | .handleValue result => decide (result ≠ attResultSuccessSent)
  | .sdpSearch _ _ moreToCome => !moreToCome
  | _ => true

/-- A message of GATT to itself that waits until `data.app` is clear. -/
inductive Held
  | request (r : ClientReq)
  | deleteConn
  deriving DecidableEq, Repr

/-- A connection: its entry of `cid_map`, with the part of `conn_data_t` that the procedures use, the messages that
are held, and what has been asked and confirmed. `mapped` says that the entry is there, `panicked` that the program
has ended at an entry or a message that is missing. -/
structure ClientConn where
  mapped : Bool
  task : Task
  closing : Bool
  bredr : Bool
  mtu : BitVec 10
  mtuExchanged : Bool
  app : Task
  scenario : MsgScen
  stash : Option Stash
  start : BitVec 16
  endHandle : BitVec 16
  offs : BitVec 16
  value : List UInt8
  held : List Held
  outstanding : List (ClientReq × AttReq)
  made : List ClientReq
  confirms : List ClientCfm
  panicked : Bool
  deriving DecidableEq, Repr

namespace ClientConn

/-- A connection that is not there. -/
def free : ClientConn :=
  ⟨false, 0, false, false, 0, false, 0, .none, none, 0, 0, 0, [], [], [], [], [], false⟩

variable (c : ClientConn)

/-- `Panic`, or a missing entry that is read. -/
def panic : ClientConn := { c with panicked := true }

/-- `MessageSend` of a confirm. -/
def confirm (r : ClientReq) (task : Task) (status : ClientStatus) (item : Item) (moreToCome : Bool) : ClientConn :=
  { c with confirms := c.confirms ++ [⟨r.id, task, status, item, moreToCome⟩] }

/-- `VmSendAttPrim` of a request, and the search of `ConnectionSdpServiceSearchAttributeRequest`. -/
def ask (r : ClientReq) (a : AttReq) : ClientConn := { c with outstanding := c.outstanding ++ [(r, a)] }

/-- `gattSetConnState`. -/
def gattSetConnState (task : Task) (scenario : MsgScen) : ClientConn := { c with app := task, scenario := scenario }

/-- `gattSetConnState` of `NULL` and `gatt_ms_none`. -/
def unlock : ClientConn := c.gattSetConnState 0 .none

/-- `gatt_message_send`. -/
def gattMessageSend : ClientConn :=
  match c.stash with
  | some m =>
    { c with
      confirms := c.confirms ++ [⟨m.id, c.app, .att m.status, m.item, m.moreToCome⟩]
      stash := none }
  | none => c

/-- `MAKE_STASH`, with the fields that are set. -/
def makeStash (r : ClientReq) (status : BitVec 16) (item : Item) (moreToCome : Bool) : ClientConn :=
  { c with stash := some ⟨r.id, status, item, moreToCome⟩ }

/-! ### Discovery -/

/-- The flags of `gatt_message_prepare`. -/
def more (result : AttResult) (final : Bool) : Bool :=
  (decide (result = attResultSuccess) && !final) || decide (result = attResultSuccessMore)

def send (result : AttResult) (final : Bool) : Bool := !(decide (result = attResultSuccess) && !final)

def last (result : AttResult) : Bool := decide (result ≠ attResultSuccess ∧ result ≠ attResultSuccessMore)

/-- `gatt_message_prepare`: the pending message is sent. The procedure goes on if this was not the last one. -/
def gattMessagePrepare (result : AttResult) (final : Bool) : Bool × ClientConn :=
  match c.stash with
  | some m =>
    let c := { c with stash := some { m with moreToCome := (more result final || send result final) && !last result } }
    if last result then (false, c.gattMessageSend.unlock) else (true, c.gattMessageSend)
  | none => (true, c)

/-- The confirm of a request that discovers the items of a range, for one item. -/
def handleDiscoverCfm (r : ClientReq) (result : AttResult) (final : Bool) (item : Item) (next : AttReq) :
    ClientConn :=
  match c.gattMessagePrepare result final with
  | (false, c) => c
  | (true, c) =>
    let c := c.makeStash r (gattMessageStatus result) item (more result final)
    if !send result final then c.ask r next
    else
      let c := c.gattMessageSend
      if !more result final then c.unlock else c

/-- `gattHandleAttReadByGroupTypeCfm`. -/
def gattHandleAttReadByGroupTypeCfm (r : ClientReq) (result : AttResult) (handle endHandle : BitVec 16)
    (value : List UInt8) : ClientConn :=
  c.handleDiscoverCfm r result (decide (endHandle = 0xffff)) ⟨handle, endHandle, value⟩
    (.readByGroupType (endHandle + 1))

/-- `gattHandleAttFindByTypeValueCfm`. Once more than in the others, the lock is taken away. -/
def gattHandleAttFindByTypeValueCfm (r : ClientReq) (result : AttResult) (handle endHandle : BitVec 16) :
    ClientConn :=
  let c' := c.handleDiscoverCfm r result (decide (endHandle = 0xffff)) ⟨handle, endHandle, []⟩
    (.findByTypeValue (endHandle + 1))
  if c.stash.isSome && last result then c'.unlock else c'

/-- `gattHandleAttReadByTypeCfmCharacteristic`. The octets are the properties, the handle and the UUID. -/
def gattHandleAttReadByTypeCfmCharacteristic (r : ClientReq) (result : AttResult) (handle : BitVec 16)
    (value : List UInt8) : ClientConn :=
  c.handleDiscoverCfm r result (decide (c.endHandle ≤ handle)) ⟨handle, 0, value⟩ (.readByType (handle + 1))

/-- `gattHandleAttFindInfoCfm`. -/
def gattHandleAttFindInfoCfm (r : ClientReq) (result : AttResult) (handle : BitVec 16) (uuid : List UInt8) :
    ClientConn :=
  c.handleDiscoverCfm r result (decide (c.endHandle ≤ handle)) ⟨handle, 0, uuid⟩ (.findInfo (handle + 1))

/-- `gattHandleAttReadByTypeCfmRead`. -/
def gattHandleAttReadByTypeCfmRead (r : ClientReq) (result : AttResult) (handle : BitVec 16) (value : List UInt8) :
    ClientConn :=
  c.handleDiscoverCfm r result (decide (c.endHandle ≤ handle)) ⟨handle, 0, value⟩ (.readByType (handle + 1))

/-- `gatt_read16`. -/
def gattRead16 (octets : List UInt8) : BitVec 16 :=
  (octets.getD 1 0).toBitVec.setWidth 16 <<< 8 ||| (octets.getD 0 0).toBitVec.setWidth 16

/-- The octets of an include declaration, but for the UUID. -/
def includeItem (value : List UInt8) : Item := ⟨gattRead16 value, gattRead16 (value.drop 2), value.drop 4⟩

/-- The UUID is in the declaration: it has 16 or 32 bits. -/
def hasUuid (value : List UInt8) : Bool := decide (value.length - 4 = 2 ∨ value.length - 4 = 4)

/-- `gattHandleAttReadByTypeCfmInclude`. -/
def gattHandleAttReadByTypeCfmInclude (r : ClientReq) (result : AttResult) (handle : BitVec 16)
    (value : List UInt8) : ClientConn :=
  let final := decide (c.endHandle ≤ handle)
  match c.gattMessagePrepare result final with
  | (false, c) => c
  | (true, c) =>
    let status := gattMessageStatus result
    let finish (c : ClientConn) : ClientConn :=
      let c := c.gattMessageSend
      if !more result final then c.unlock else c
    if status = attResultSuccess then
      let c := c.makeStash r status (includeItem value) (more result final)
      if hasUuid value then
        if !send result final then c.ask r (.readByType (handle + 1)) else finish c
      else if result = attResultSuccessMore then
        -- the message is sent without the UUID
        finish c
      else { c.ask r (.read (includeItem value).handle) with start := handle + 1 }
    else
      let c := c.makeStash r status .empty (more result final)
      if send result final then finish c else c

/-- `gattHandleAttReadCfmInclude`. The result is not looked at. -/
def gattHandleAttReadCfmInclude (r : ClientReq) (value : List UInt8) : ClientConn :=
  match c.stash with
  | some m =>
    let c := { c with stash := some { m with item := { m.item with value := value } } }
    if m.moreToCome then c.ask r (.readByType c.start) else c.gattMessageSend.unlock
  | none => c

/-- `handleAttReadByTypeCfm`. -/
def handleAttReadByTypeCfm (r : ClientReq) (result : AttResult) (handle : BitVec 16) (value : List UInt8) :
    ClientConn :=
  match c.scenario with
  | .procedure .findIncludes => c.gattHandleAttReadByTypeCfmInclude r result handle value
  | .procedure .discoverAllCharacteristics => c.gattHandleAttReadByTypeCfmCharacteristic r result handle value
  | .procedure .readByUuid => c.gattHandleAttReadByTypeCfmRead r result handle value
  | _ => c

/-- `gattHandleClSdpServiceSearchAttributeCfm`, for a connection. -/
def gattHandleClSdpServiceSearchAttributeCfm (r : ClientReq) (status : BitVec 16) (item : Item)
    (moreToCome : Bool) : ClientConn :=
  if c.scenario ∈ [.procedure .discoverAllPrimaryServices, .procedure .discoverPrimaryService] then
    let c := c.confirm r c.app (.att status) item moreToCome
    if !moreToCome then c.unlock else c
  else c.panic

/-! ### Reading and writing -/

/-- The confirm of a procedure of one request. -/
def finishWith (r : ClientReq) (status : ClientStatus) (item : Item) : ClientConn :=
  (c.confirm r c.app status item false).unlock

/-- `handleAttReadCfm`, with `gattHandleAttReadCfmRead`. -/
def handleAttReadCfm (r : ClientReq) (result : AttResult) (value : List UInt8) : ClientConn :=
  match c.scenario with
  | .procedure .read => c.finishWith r (.att (gattMessageStatus result)) ⟨c.start, 0, value⟩
  | .procedure .findIncludes => c.gattHandleAttReadCfmInclude r value
  | _ => c

/-- The confirm of a blob, to the application. -/
def blobCfm (r : ClientReq) (m : ReadLongCfm) : ClientCfm :=
  ⟨r.id, c.app, .att m.status, ⟨c.start, m.offset, m.value⟩, m.moreToCome⟩

/-- `gattHandleAttReadBlobCfm`, by the handler of the long read. -/
def gattHandleAttReadBlobCfm (r : ClientReq) (result : AttResult) (value : List UInt8) : ClientConn :=
  let l := (⟨c.mtu, true, c.offs, none, []⟩ : ReadLong).gattHandleAttReadBlobCfm result value
  let c :=
    { c with
      offs := l.offs
      confirms := c.confirms ++ l.sent.map (c.blobCfm r) }
  match l.request with
  | some offs => c.ask r (.readBlob offs)
  | none => c.unlock

/-- `gattHandleAttReadMultiCfm`. -/
def gattHandleAttReadMultiCfm (r : ClientReq) (result : AttResult) (value : List UInt8) : ClientConn :=
  c.finishWith r (.att (gattMessageStatus result)) ⟨0, 0, value⟩

/-- `gattHandleAttWriteCfm`. -/
def gattHandleAttWriteCfm (result : AttResult) : ClientConn :=
  match c.stash with
  | some m =>
    if c.scenario ∈ [.procedure .writeWithoutResponse, .procedure .signedWriteWithoutResponse,
        .procedure .writeCharacteristicValue] then
      { c with stash := some { m with status := gattMessageStatus result } }.gattMessageSend.unlock
    else c.panic
  | none => c.panic

/-- The handlers of a long write, with the message in the stash. -/
def handleWriteLong (r : ClientReq) (handler : WriteLong → WriteLong) : ClientConn :=
  match c.stash with
  | some m =>
    let w := handler ⟨c.mtu, true, c.offs, c.value, m.status, none, []⟩
    let c := { c with offs := w.offs, stash := some { m with status := w.status } }
    match w.request with
    | some (.prepare offset value) => c.ask r (.prepareWrite offset value)
    | some (.execute _) => c.ask r .executeWrite
    | none => c.gattMessageSend.unlock
  | none => c.panic

/-- `handleAttPrepareWriteCfmPrepare`. -/
def handleAttPrepareWriteCfmPrepare (result : AttResult) (offset : BitVec 16) (value : List UInt8) : ClientConn :=
  match c.stash with
  | some m =>
    if result = attResultSuccess ∧ ¬(offset = c.offs ∧ value = c.value) then
      -- the value that the server has got is another one
      ({ c with
        confirms := c.confirms ++ [⟨m.id, c.app, .valueMismatch, m.item, m.moreToCome⟩]
        stash := none } : ClientConn).unlock
    else { c with stash := some { m with status := gattMessageStatus result } }.gattMessageSend.unlock
  | none => c.panic

/-- `gattHandleAttPrepareWriteCfm`. -/
def gattHandleAttPrepareWriteCfm (r : ClientReq) (result : AttResult) (offset : BitVec 16) (value : List UInt8) :
    ClientConn :=
  match c.scenario with
  | .procedure .writeLongCharacteristicValue => c.handleWriteLong r (·.handleAttPrepareWriteCfmLong result)
  | .procedure .prepareWrite => c.handleAttPrepareWriteCfmPrepare result offset value
  | _ => c.panic

/-- `gattHandleAttExecuteWriteCfm`, with `handleAttExecuteWriteCfmExecute`. -/
def gattHandleAttExecuteWriteCfm (r : ClientReq) (result : AttResult) : ClientConn :=
  match c.scenario with
  | .procedure .writeLongCharacteristicValue => c.handleWriteLong r (·.handleAttExecuteWriteCfmLong result)
  | .procedure .executeWrite => c.finishWith r (.att (gattMessageStatus result)) .empty
  | _ => c.panic

/-- `gattHandleAttExchangeMtuCfm`. -/
def gattHandleAttExchangeMtuCfm (r : ClientReq) (result : AttResult) (mtu : BitVec 16) : ClientConn :=
  { c.confirm r c.app (.att (gattMessageStatus result)) .empty false with
    mtuExchanged := true
    mtu := mtu.setWidth 10 }.unlock

/-! ### Notifications and indications -/

/-- The status of `gattHandleAttHandleValueCfm`. -/
def handleValueStatus (result : AttResult) : ClientStatus :=
  if result = attResultSuccess then .att 0 else if result = attResultSuccessSent then .successSent else .failure

/-- `gattHandleAttHandleValueCfm`. The confirm goes to the task of the connection. -/
def gattHandleAttHandleValueCfm (r : ClientReq) (result : AttResult) : ClientConn :=
  if c.mapped then
    let c := c.confirm r c.task (handleValueStatus result) .empty (decide (result = attResultSuccessSent))
    if result ≠ attResultSuccessSent then c.unlock else c
  else c

end ClientConn

end Cbps.Gatt
