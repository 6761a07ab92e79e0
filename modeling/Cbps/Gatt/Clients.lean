import Cbps.Gatt.Procedures
import Cbps.Lib.Runs

/-!
# Clients of a connection

The requests of the application over one connection, with what connecting and disconnecting do to its entry, as a
step function. `Serial` is what the client promises of a connection: one procedure at a time, and one final confirm
for every request, to the task that made it. `Promised` is what ATT and the application keep to, `Admits` the
condition on the steps under which the promise is kept.
-/

namespace Cbps.Gatt

open GattManager (Task)

/-- `GATT_HANDLE_MIN`. -/
def gattHandleMin : BitVec 16 := 1

/-- The request of number `i` is held. -/
def Held.isRequest (i : ℕ) : Held → Bool
  | .request r => decide (r.id = i)
  | .deleteConn => false

/-- A notification or an indication. -/
def Procedure.isHandleValue (p : Procedure) : Bool := decide (p ∈ [.notification, .indication])

namespace ClientConn

variable (c : ClientConn)

/-! ### Internal requests -/

/-- The procedure of a request runs, and ATT is asked. -/
def begin (r : ClientReq) (a : AttReq) : ClientConn := (c.gattSetConnState r.task (.procedure r.procedure)).ask r a

/-- `gattHandleInternalExchangeMtuReq`. -/
def gattHandleInternalExchangeMtuReq (r : ClientReq) : ClientConn :=
  if c.mtuExchanged then c.confirm r r.task .mtuAlreadyExchanged .empty false else c.begin r .exchangeMtu

/-- `gattHandleInternalDiscoverAllPrimaryServicesReq`. `addrKnown` is the answer of `VmGetBdAddrtFromCid`. -/
def gattHandleInternalDiscoverAllPrimaryServicesReq (r : ClientReq) (addrKnown : Bool) : ClientConn :=
  if c.bredr && addrKnown then c.begin r .sdpSearch else c.begin r (.readByGroupType gattHandleMin)

/-- `gattHandleInternalDiscoverPrimaryServiceReq`. -/
def gattHandleInternalDiscoverPrimaryServiceReq (r : ClientReq) (addrKnown : Bool) : ClientConn :=
  if c.bredr && addrKnown then c.begin r .sdpSearch else c.begin r (.findByTypeValue gattHandleMin)

/-- `gattHandleInternalFindIncludesReq`. -/
def gattHandleInternalFindIncludesReq (r : ClientReq) : ClientConn :=
  { c.begin r (.readByType r.start) with start := r.start, endHandle := r.endHandle }

/-- `gattHandleGattDiscoverAllCharacteristicsReq`. -/
def gattHandleGattDiscoverAllCharacteristicsReq (r : ClientReq) : ClientConn :=
  { c.begin r (.readByType r.start) with start := r.start, endHandle := r.endHandle }

/-- `gattHandleInternalDiscoverAllDescriptorsReq`. -/
def gattHandleInternalDiscoverAllDescriptorsReq (r : ClientReq) : ClientConn :=
  { c.begin r (.findInfo r.start) with start := r.start, endHandle := r.endHandle }

/-- `gattHandleInternalReadReq`. -/
def gattHandleInternalReadReq (r : ClientReq) : ClientConn := { c.begin r (.read r.start) with start := r.start }

/-- `gattHandleInternalReadByUuidReq`. -/
def gattHandleInternalReadByUuidReq (r : ClientReq) : ClientConn :=
  { c.begin r (.readByType r.start) with endHandle := r.endHandle }

/-- `gattHandleInternalReadLongReq`. -/
def gattHandleInternalReadLongReq (r : ClientReq) : ClientConn :=
  { c.begin r (.readBlob 0) with start := r.start, offs := 0 }

/-- `gattHandleInternalReadMultipleReq`. -/
def gattHandleInternalReadMultipleReq (r : ClientReq) : ClientConn := c.begin r .readMulti

/-- `handleInternalWriteReqLong`. -/
def handleInternalWriteReqLong (r : ClientReq) : ClientConn :=
  { c.begin r (.prepareWrite 0 r.value) with offs := r.offs, value := r.value }.makeStash r 0 ⟨r.start, 0, []⟩ false

/-- `handleInternalWriteReqPrepare`. -/
def handleInternalWriteReqPrepare (r : ClientReq) : ClientConn :=
  { c.begin r (.prepareWrite r.offs r.value) with offs := r.offs, value := r.value }.makeStash r 0 ⟨r.start, 0, []⟩
    false

/-- `gattHandleInternalWriteReq`. -/
def gattHandleInternalWriteReq (r : ClientReq) : ClientConn :=
  match r.procedure with
  | .writeLongCharacteristicValue => c.handleInternalWriteReqLong r
  | .prepareWrite => c.handleInternalWriteReqPrepare r
  | _ => (c.begin r .write).makeStash r 0 ⟨r.start, 0, []⟩ false

/-- `gattHandleInternalExecuteWriteReq`. -/
def gattHandleInternalExecuteWriteReq (r : ClientReq) : ClientConn := c.begin r .executeWrite

/-- `gattHandleInternalHandleValueReq`. -/
def gattHandleInternalHandleValueReq (r : ClientReq) : ClientConn :=
  if c.mapped then c.begin r .handleValue else c.confirm r r.task .invalidCid .empty false

/-- The handler of an internal request. But for the last one, they need the entry. -/
def handleInternalReq (r : ClientReq) (addrKnown : Bool) : ClientConn :=
  if r.procedure.isHandleValue then c.gattHandleInternalHandleValueReq r
  else if !c.mapped then c.panic
  else
    match r.procedure with
    | .exchangeMtu => c.gattHandleInternalExchangeMtuReq r
    | .discoverAllPrimaryServices => c.gattHandleInternalDiscoverAllPrimaryServicesReq r addrKnown
    | .discoverPrimaryService => c.gattHandleInternalDiscoverPrimaryServiceReq r addrKnown
    | .findIncludes => c.gattHandleInternalFindIncludesReq r
    | .discoverAllCharacteristics => c.gattHandleGattDiscoverAllCharacteristicsReq r
    | .discoverAllDescriptors => c.gattHandleInternalDiscoverAllDescriptorsReq r
    | .read => c.gattHandleInternalReadReq r
    | .readByUuid => c.gattHandleInternalReadByUuidReq r
    | .readLong => c.gattHandleInternalReadLongReq r
    | .readMultiple => c.gattHandleInternalReadMultipleReq r
    | .executeWrite => c.gattHandleInternalExecuteWriteReq r
    | _ => c.gattHandleInternalWriteReq r

/-! ### Requests of the application -/

/-- The status of a request over a connection that is not there. -/
def refusal (p : Procedure) : ClientStatus := if p.isHandleValue then .deviceNotFound else .invalidCid

/-- The functions of the interface, from `GattExchangeMtuRequest` to `GattIndicationRequest`. Two of them look at
the type of a UUID. -/
def request (r : ClientReq) (validUuid : Bool) : ClientConn :=
  let c := { c with made := c.made ++ [r] }
  if c.mapped && !c.closing then
    if decide (r.procedure ∈ [.discoverPrimaryService, .readByUuid]) && !validUuid then
      c.confirm r r.task .invalidUuid .empty false
    else { c with held := c.held ++ [.request r] }
  else c.confirm r r.task (refusal r.procedure) .empty false

/-! ### Connecting and disconnecting -/

/-- `gattAddCid` of this connection. -/
def gattAddCid (task : Task) : ClientConn := if c.mapped then c else { c with mapped := true, task := task }

/-- `gattDeleteCid` of this connection. -/
def gattDeleteCid : ClientConn :=
  { free with
    held := c.held
    outstanding := c.outstanding
    made := c.made
    confirms := c.confirms
    panicked := c.panicked }

/-- `gattLockCid`. -/
def gattLockCid (scenario : MsgScen) : ClientConn :=
  if c.mapped then if c.scenario = .none then { c with scenario := scenario } else c else c.panic

/-- `gattUnlockCid`. All of the data is cleared. -/
def gattUnlockCid : ClientConn :=
  if c.mapped then
    { c with app := 0, scenario := .none, stash := none, start := 0, endHandle := 0, offs := 0, value := [] }
  else c.panic

/-- `gattHandleAttConnectInd`. -/
def gattHandleAttConnectInd (theAppTask : Task) (le : Bool) : ClientConn :=
  if le then (c.gattAddCid theAppTask).gattLockCid .bleConnectRsp else c

/-- `GattConnectResponse`. To reject an LE connection is to disconnect it. -/
def gattConnectResponse (theAppTask : Task) (le accept : Bool) : ClientConn :=
  if le then if accept then c.gattUnlockCid else c
  else { (c.gattAddCid theAppTask).gattLockCid .connectRsp with bredr := true }

/-- `gattHandleAttConnectCfm`. -/
def gattHandleAttConnectCfm (connReqTask : Task) (result : L2caConnResult) (le : Bool) (mtu : BitVec 16) :
    ClientConn :=
  match result with
  | .pending => c
  | .initiating => (c.gattAddCid connReqTask).gattLockCid .connectReq
  | .success => { c.gattUnlockCid with mtu := mtu.setWidth 10, bredr := !le }
  | _ => if c.mapped then c.gattDeleteCid else c

/-- `gattHandleAttDisconnectInd`. -/
def gattHandleAttDisconnectInd : ClientConn :=
  if c.mapped then { c with closing := true, held := c.held ++ [.deleteConn] } else c

/-! ### Steps -/

/-- The handler of what is held. -/
def handleHeld (addrKnown : Bool) : Held → ClientConn
  | .request r => c.handleInternalReq r addrKnown
  | .deleteConn => c.gattDeleteCid

/-- A held message is delivered while `data.app` is clear. -/
def deliver (addrKnown : Bool) : Option ClientConn :=
  match c.held with
  | [] => none
  | h :: hs => if c.app = 0 then some ({ c with held := hs }.handleHeld addrKnown h) else none

/-- The handler of a confirm of ATT or of SDP, which is for the request `r`. But for the last one, they need the
entry. -/
def handleCfm (r : ClientReq) : AttCfm → ClientConn
  | .handleValue result => c.gattHandleAttHandleValueCfm r result
  | cfm =>
    if !c.mapped then c.panic
    else
      match cfm with
      | .exchangeMtu result mtu => c.gattHandleAttExchangeMtuCfm r result mtu
      | .readByGroupType result handle endHandle value =>
        c.gattHandleAttReadByGroupTypeCfm r result handle endHandle value
      | .findByTypeValue result handle endHandle => c.gattHandleAttFindByTypeValueCfm r result handle endHandle
      | .readByType result handle value => c.handleAttReadByTypeCfm r result handle value
      | .findInfo result handle uuid => c.gattHandleAttFindInfoCfm r result handle uuid
      | .read result value => c.handleAttReadCfm r result value
      | .readBlob result value => c.gattHandleAttReadBlobCfm r result value
      | .readMulti result value => c.gattHandleAttReadMultiCfm r result value
      | .write result => c.gattHandleAttWriteCfm result
      | .prepareWrite result offset value => c.gattHandleAttPrepareWriteCfm r result offset value
      | .executeWrite result => c.gattHandleAttExecuteWriteCfm r result
      | .sdpSearch status item moreToCome =>
        c.gattHandleClSdpServiceSearchAttributeCfm r status item moreToCome
      | .handleValue _ => c

/-- What has been asked is not outstanding after its last confirm. -/
def settle (n : ℕ) (cfm : AttCfm) : ClientConn :=
  if cfm.isLast then { c with outstanding := c.outstanding.eraseIdx n } else c

/-- A confirm for what is outstanding at `n`. -/
def attCfm (n : ℕ) (cfm : AttCfm) : Option ClientConn :=
  match c.outstanding[n]? with
  | some (r, a) => if cfm.answers a then some ((c.settle n cfm).handleCfm r cfm) else none
  | none => none

end ClientConn

/-- What reaches GATT for a connection. -/
inductive ClientInput
  | request (task : Task) (procedure : Procedure) (start endHandle offs : BitVec 16) (value : List UInt8)
      (validUuid : Bool)
  | deliver (addrKnown : Bool)
  | attCfm (n : ℕ) (cfm : AttCfm)
  | connectInd (theAppTask : Task) (le : Bool)
  | connectResponse (theAppTask : Task) (le accept : Bool)
  | connectCfm (connReqTask : Task) (result : L2caConnResult) (le : Bool) (mtu : BitVec 16)
  | disconnectInd
  deriving DecidableEq, Repr

namespace ClientConn

/-- One message or call. Nothing runs after a panic. -/
def step (c : ClientConn) (input : ClientInput) : Option ClientConn :=
  if c.panicked then none
  else
    match input with
    | .request task procedure start endHandle offs value validUuid =>
      some (c.request ⟨c.made.length, task, procedure, start, endHandle, offs, value⟩ validUuid)
    | .deliver addrKnown => c.deliver addrKnown
    | .attCfm n cfm => c.attCfm n cfm
    | .connectInd theAppTask le => some (c.gattHandleAttConnectInd theAppTask le)
    | .connectResponse theAppTask le accept => some (c.gattConnectResponse theAppTask le accept)
    | .connectCfm connReqTask result le mtu => some (c.gattHandleAttConnectCfm connReqTask result le mtu)
    | .disconnectInd => some c.gattHandleAttDisconnectInd

variable (c : ClientConn)

/-! ### What the client promises -/

/-- How often the request of number `i` is held or outstanding. -/
def waiting (i : ℕ) : ℕ := c.held.countP (Held.isRequest i) + c.outstanding.countP fun o => decide (o.1.id = i)

/-- The final confirms of the request of number `i`. -/
def finals (i : ℕ) : ℕ := c.confirms.countP fun m => decide (m.id = i) && !m.moreToCome

/-- At most one procedure is outstanding at ATT, and `data.app` is set exactly while one is. A request has got its
one final confirm unless it is waiting, and every confirm goes to the task that made the request. -/
structure Serial : Prop where
  runs : c.panicked = false
  outstanding_length : c.outstanding.length ≤ 1
  locked_iff : c.app ≠ 0 ↔ c.outstanding ≠ []
  finals_eq : ∀ i < c.made.length, c.finals i = if c.waiting i = 0 then 1 else 0
  sent : ∀ m ∈ c.confirms, (c.made[m.id]?).map ClientReq.task = some m.task

/-- ATT and the application keep to this. A task is not `NULL`, a connection is indicated or accepted once, it is
disconnected once and does not fail then, and an error has no blob. -/
def Promised : ClientInput → Prop
  | .request task _ _ _ _ _ _ => task ≠ 0
  | .attCfm _ (.readBlob result value) => result = attResultSuccess ∨ value = []
  | .connectInd _ true => c.mapped = false
  | .connectResponse _ false _ => c.mapped = false
  | .connectCfm _ _ _ _ => c.closing = false
  | .disconnectInd => c.closing = false
  | _ => True

/-- The data of the entry can be cleared. -/
def Clearable : Prop := c.mapped = true ∧ c.app = 0

/-- A connection is accepted, confirmed or given up while no procedure runs, a notification is made by the task of
the connection, and a blob is not larger than the field `mtu` allows. -/
def Admits : ClientInput → Prop
  | .request task procedure _ _ _ _ _ =>
    c.mapped = true → c.closing = false → procedure.isHandleValue = true → task = c.task
  | .attCfm _ (.readBlob _ value) => value ≠ [] → BitVec.ofNat 16 value.length ≤ maxBlobSize c.mtu
  | .connectResponse _ true true => c.Clearable
  | .connectCfm _ .pending _ _ | .connectCfm _ .initiating _ _ => True
  | .connectCfm _ .success _ _ => c.Clearable
  | .connectCfm _ _ _ _ => c.mapped = true → c.app = 0 ∧ c.held = []
  | _ => True

instance (input : ClientInput) : Decidable (c.Promised input) := by
  unfold Promised
  split <;> infer_instance

instance : Decidable c.Clearable := inferInstanceAs (Decidable (_ ∧ _))

instance (input : ClientInput) : Decidable (c.Admits input) := by
  unfold Admits
  split <;> infer_instance

/-- The promise is kept in every run. -/
def AlwaysSerial : Prop :=
  ∀ es t, Lib.RunMeets step Promised free es → Lib.run step free es = some t → Serial t

end ClientConn

end Cbps.Gatt
