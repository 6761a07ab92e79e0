import Cbps.GattManager.Waits
import Cbps.Lib.Slots
import Mathlib.Data.Fin.Basic
import Mathlib.Data.Finset.Sort

/-!
# Connections of GATT

`gatt_init.c`, `gatt_connect.c`, `gatt_disconnect.c` and the service discovery over SDP of
`gatt_primary_discovery.c`: the table `cid_map`, whose first entry is that of the local database, with the calls
and the primitives that add entries and remove them. The connections that ATT has still to report the end of are
in the state too.

`Sound` is what the table should be, and `Admits` the condition on the steps under which it is.
-/

namespace Cbps.Gatt

open GattManager (Task Cid TypedBdaddr ConnectionType)

abbrev Bdaddr := BitVec 48

/-- `gatt_status_t`, of a connection or of a service discovery over SDP. -/
inductive GattStatus
  | success
  | attrNotFound
  | initialising
  | failure
  | maxConnections
  | abnormalDisconnection
  | linkLoss
  | rejPsm
  | keyMissing
  | connectionTimeout
  | retrying
  | peerAborted
  | invalidUuid
  deriving DecidableEq, Repr

/-- `l2ca_conn_result_t`. `other` is a result that GATT does not name. -/
inductive L2caConnResult
  | success
  | pending
  | rejPsm
  | keyMissing
  | timeout
  | initiating
  | retrying
  | peerAborted
  | linkLoss
  | other
  deriving DecidableEq, Repr

/-- `l2ca_disc_result_t`. -/
inductive L2caDiscResult
  | normal
  | linkLoss
  | other
  deriving DecidableEq, Repr

/-- `gatt_msg_scen_t`. `client` is any procedure of the client but the discovery of services. -/
inductive Scenario
  | none
  | connectReq
  | connectRsp
  | bleConnectRsp
  | discoverAllPrimaryServices
  | discoverPrimaryService
  | discoverAllBredrServices
  | discoverBredrService
  | client
  deriving DecidableEq, Repr

/-- The scenario of a temporary connection, which is there for a service discovery over SDP. -/
def Scenario.isTemporary : Scenario → Bool
  | .discoverAllBredrServices | .discoverBredrService => true
  | _ => false

/-- `conn_data_t`. The lock `app` is zero if no procedure is running. -/
structure ConnData where
  app : Task
  scenario : Scenario
  addr : Bdaddr
  deriving DecidableEq, Repr

/-- `cid_map_t`. -/
structure CidMap where
  cid : Cid
  task : Task
  closing : Bool
  bredr : Bool
  mtu : BitVec 10
  data : ConnData
  deriving DecidableEq, Repr

/-- `MAX_ATT_CONNECTIONS`. -/
abbrev maxAttConnections : ℕ := 6

abbrev Slot := Fin maxAttConnections

/-- `INVALID_CID`. -/
def invalidCid : Cid := 0xffff

def ConnData.zero : ConnData := ⟨0, .none, 0⟩

def CidMap.zero : CidMap := ⟨0, 0, false, false, 0, ConnData.zero⟩

/-- An entry that is free. -/
def CidMap.free : CidMap := { CidMap.zero with cid := invalidCid }

/-- `GATT_INTERNAL_CONNECT_REQ_T`. -/
structure ConnectReq where
  theAppTask : Task
  taddr : Option TypedBdaddr
  connection : ConnectionType
  connectionTimeout : Bool
  deriving DecidableEq, Repr

/-- `GATT_INTERNAL_DELETE_CONN_T`, held while the entry at `slot` is locked. -/
structure DeleteConn where
  slot : Slot
  cid : Cid
  theAppTask : Task
  status : GattStatus
  deriving DecidableEq, Repr

/-- What is sent to ATT, to SDP and to the application. -/
inductive Sent
  | attConnectReq (req : ConnectReq)
  | attConnectRsp (cid : Cid) (accept : Bool)
  | attDisconnectReq (cid : Cid)
  | disconnectReq (cid : Cid)
  | sdpSearch (addr : Bdaddr)
  | connectCfm (task : Task) (status : GattStatus) (mtu : BitVec 16) (cid : Cid)
  | connectInd (task : Task) (cid : Cid) (mtu : BitVec 16)
  | disconnectInd (task : Task) (cid : Cid) (status : GattStatus)
  | discoverBredrCfm (task : Task) (scenario : Scenario) (status : GattStatus) (moreToCome : Bool)
  deriving DecidableEq, Repr

/-- How a call ends the program: it writes through a missing entry, or it panics at one. -/
inductive Fault
  | missingEntry
  | panicNull
  deriving DecidableEq, Repr

/-- The calls of the application, the primitives of ATT, the confirms of SDP and the messages of GATT to itself.
`bredrAddr` is what `VmGetBdAddrtFromCid` tells of the BR/EDR connections. -/
inductive Input
  | connectReq (req : ConnectReq)
  | heldConnectReq
  | attConnectCfm (cid : Cid) (result : L2caConnResult) (le : Bool) (mtu : BitVec 16)
  | attConnectInd (cid : Cid) (le : Bool) (mtu : BitVec 16)
  | connectResponse (theAppTask : Task) (cid : Cid) (le accept : Bool)
  | disconnectReq (cid : Cid)
  | attDisconnectInd (cid : Cid) (reason : L2caDiscResult)
  | deleteConn (n : ℕ)
  | discoverAllBrEdrServices (theAppTask : Task) (addr : Bdaddr)
  | discoverBrEdrService (theAppTask : Task) (addr : Bdaddr) (validUuid : Bool)
  | sdpCfm (addr : Bdaddr) (status : GattStatus) (moreToCome : Bool) (bredrAddr : Cid → Option Bdaddr)
  | procedure (task : Task) (cid : Cid) (scenario : Scenario)
  | procedureEnd (cid : Cid)

/-- `gattState`, with the requests and the deletions that are held. `known` are the connections that ATT has still
to report the end of, `ended` the call in which the program has ended. -/
structure Connections where
  theAppTask : Task
  connReqTask : Task
  connectCount : ℕ
  cidMap : Slot → CidMap
  connectReqs : List ConnectReq
  deletions : List DeleteConn
  known : List Cid
  sent : List Sent
  ended : Option (Fault × Input)

namespace Connections

variable (s : Connections)

/-- `MessageSend`, `VmSendAttPrim`. -/
def send (m : Sent) : Connections := { s with sent := s.sent ++ [m] }

/-! ### The table -/

/-- `gattInitCidTaskMap`. -/
def gattInitCidTaskMap : Slot → CidMap := fun i => if i = 0 then CidMap.zero else CidMap.free

/-- `gattMaxConnections`. -/
def gattMaxConnections : Bool := !decide (s.connectCount < maxAttConnections)

/-- `gattFindConn`. -/
def gattFindConn (cid : Cid) : Option Slot := Fin.find? fun i => (s.cidMap i).cid == cid

/-- `gattCidIsValid`. -/
def gattCidIsValid (cid : Cid) : Bool := (s.gattFindConn cid).isSome

/-- `gattFindConnAddr`. The first temporary connection to the address, else the last connection. -/
def gattFindConnAddr (addr : Bdaddr) (bredrAddr : Cid → Option Bdaddr) : Option Slot :=
  (Fin.find? fun i => (s.cidMap i).data.scenario.isTemporary && (s.cidMap i).data.addr == addr).or
    (Fin.findRev? fun i => bredrAddr (s.cidMap i).cid == some addr)

/-- An entry is written. -/
def setEntry (i : Slot) (e : CidMap) : Connections := { s with cidMap := Function.update s.cidMap i e }

/-- `gattSetConnState`. -/
def gattSetConnState (i : Slot) (task : Task) (scenario : Scenario) : Connections :=
  s.setEntry i { s.cidMap i with data := { (s.cidMap i).data with app := task, scenario } }

/-- `gattAddCid`. The entry, or nothing if the table is said to be full. The count has five bits. -/
def gattAddCid (cid : Cid) (task : Task) : Except Fault (Option Slot × Connections) :=
  if s.connectCount = maxAttConnections then .ok (none, s)
  else
    match s.gattFindConn invalidCid with
    | none => .error .missingEntry
    | some i =>
      .ok (some i, { s.setEntry i { s.cidMap i with cid, task } with connectCount := (s.connectCount + 1) % 32 })

/-- `gattDeleteCid`. -/
def gattDeleteCid (cid : Cid) : Connections :=
  match s.gattFindConn cid with
  | some i =>
    if cid = 0 then s else { s.setEntry i CidMap.free with connectCount := (s.connectCount + 31) % 32 }
  | none => s

/-- `gattLockCid`. -/
def gattLockCid (cid : Cid) (scenario : Scenario) : Except Fault Connections :=
  match s.gattFindConn cid with
  | none => .error .panicNull
  | some i =>
    .ok (if (s.cidMap i).data.scenario = .none then
      s.setEntry i { s.cidMap i with data := { (s.cidMap i).data with scenario } } else s)

/-- `gattUnlockCid`. -/
def gattUnlockCid (cid : Cid) : Except Fault Connections :=
  match s.gattFindConn cid with
  | none => .error .panicNull
  | some i => .ok (s.setEntry i { s.cidMap i with data := ConnData.zero })

/-! ### Connecting -/

/-- `gattConvertL2capConnectStatus`. -/
def gattConvertL2capConnectStatus : L2caConnResult → GattStatus
  | .success => .success
  | .rejPsm => .rejPsm
  | .keyMissing => .keyMissing
  | .timeout => .connectionTimeout
  | .initiating => .initialising
  | .retrying => .retrying
  | .peerAborted => .peerAborted
  | .linkLoss => .linkLoss
  | .pending | .other => .failure

/-- `gattHandleInternalConnectReq`. -/
def gattHandleInternalConnectReq (req : ConnectReq) : Connections :=
  if s.gattMaxConnections then s.send (.connectCfm req.theAppTask .maxConnections 0 0)
  else if s.connReqTask = 0 then { s.send (.attConnectReq req) with connReqTask := req.theAppTask }
  else { s with connectReqs := s.connectReqs ++ [req] }

/-- The confirm goes to the application that has initialised GATT if there is no other. -/
def gattSendConnectionCfm (task : Task) (status : GattStatus) (mtu : BitVec 16) (cid : Cid) : Connections :=
  s.send (.connectCfm (if task = 0 then s.theAppTask else task) status mtu cid)

/-- The entry of a connection of which ATT tells the cid. -/
def ensureCid (cid : Cid) : Except Fault Connections :=
  if s.gattCidIsValid cid then .ok s else (s.gattAddCid cid s.connReqTask).map Prod.snd

/-- The result `L2CA_CONNECT_INITIATING`. -/
def connectInitiating (cid : Cid) (mtu : BitVec 16) : Except Fault Connections := do
  let s' ← s.ensureCid cid
  let s'' ← s'.gattLockCid cid .connectReq
  .ok (s''.gattSendConnectionCfm s.connReqTask .initialising mtu cid)

/-- The result `L2CA_CONNECT_SUCCESS`. The field `mtu` of the entry has ten bits. -/
def connectSuccess (cid : Cid) (le : Bool) (mtu : BitVec 16) : Except Fault Connections :=
  match s.gattFindConn cid with
  | none => .error .panicNull
  | some i => do
    let s' ← s.gattUnlockCid cid
    .ok ({ s'.setEntry i { s'.cidMap i with mtu := mtu.setWidth 10, bredr := !le } with
      connReqTask := 0 }.gattSendConnectionCfm (s.cidMap i).task .success mtu cid)

/-- Any other result. -/
def connectFailure (cid : Cid) (result : L2caConnResult) (mtu : BitVec 16) : Connections :=
  let conn := s.gattFindConn cid
  let task := (conn.map fun i => (s.cidMap i).task).getD s.connReqTask
  let responding := conn.any fun i => (s.cidMap i).data.scenario = .connectRsp
  ({ s with connReqTask := if responding then s.connReqTask else 0 }.gattDeleteCid cid).gattSendConnectionCfm task
    (gattConvertL2capConnectStatus result) mtu cid

/-- `gattHandleAttConnectCfm`. -/
def gattHandleAttConnectCfm (cid : Cid) (result : L2caConnResult) (le : Bool) (mtu : BitVec 16) :
    Except Fault Connections :=
  match result with
  | .pending => .ok s
  | .initiating => s.connectInitiating cid mtu
  | .success => s.connectSuccess cid le mtu
  | result => .ok (s.connectFailure cid result mtu)

/-- `GattConnectResponse`. An LE connection has an entry since its indication, a BR/EDR connection gets one now. -/
def gattConnectResponse (theAppTask : Task) (cid : Cid) (le accept : Bool) : Except Fault Connections :=
  if le then
    if accept then s.gattUnlockCid cid else .ok (s.send (.disconnectReq cid))
  else do
    let (conn, s) ← s.gattAddCid cid theAppTask
    match conn with
    | some i =>
      let s ← s.gattLockCid cid .connectRsp
      .ok ((s.setEntry i { s.cidMap i with bredr := true }).send (.attConnectRsp cid accept))
    | none => .ok ((s.send (.connectCfm theAppTask .maxConnections 0 cid)).send (.attConnectRsp cid false))

/-- `gattHandleAttConnectInd`. -/
def gattHandleAttConnectInd (cid : Cid) (le : Bool) (mtu : BitVec 16) : Except Fault Connections :=
  if le then do
    let (conn, s) ← s.gattAddCid cid s.theAppTask
    match conn with
    | some _ =>
      let s ← s.gattLockCid cid .bleConnectRsp
      .ok (s.send (.connectInd s.theAppTask cid mtu))
    | none => s.gattConnectResponse s.theAppTask cid true false
  else .ok (s.send (.connectInd s.theAppTask cid mtu))

/-! ### Disconnecting -/

/-- `gattHandleInternalDisconnectReq`. -/
def gattHandleInternalDisconnectReq (cid : Cid) : Connections :=
  if s.gattCidIsValid cid then s.send (.attDisconnectReq cid) else s

/-- The status of a disconnection. -/
def disconnectStatus : L2caDiscResult → GattStatus
  | .normal => .success
  | .linkLoss => .linkLoss
  | .other => .abnormalDisconnection

/-- `gattHandleAttDisconnectInd`. The deletion waits for the procedure of the entry. -/
def gattHandleAttDisconnectInd (cid : Cid) (reason : L2caDiscResult) : Connections :=
  match s.gattFindConn cid with
  | some i =>
    { s.setEntry i { s.cidMap i with closing := true } with
      deletions := s.deletions ++ [⟨i, cid, (s.cidMap i).task, disconnectStatus reason⟩] }
  | none => s

/-- `gattHandleInternalDeleteConn`. -/
def gattHandleInternalDeleteConn (m : DeleteConn) : Connections :=
  (s.send (.disconnectInd m.theAppTask m.cid m.status)).gattDeleteCid m.cid

/-! ### Service discovery over SDP -/

/-- The cid of a new temporary connection: `get_temp_conn` goes down from the highest fixed one. -/
def tempCid : Cid :=
  [1, 2, 3, 4, 5].foldl (fun cid (i : Slot) => if (s.cidMap i).cid < cid then (s.cidMap i).cid - 1 else cid) 0x3f

/-- `get_temp_conn`. -/
def getTempConn (task : Task) : Except Fault (Option Slot × Connections) := s.gattAddCid s.tempCid task

/-- A temporary connection is made and the search is started. `refused` is the status if there is no connection. -/
def searchSdp (theAppTask : Task) (addr : Bdaddr) (scenario : Scenario) (refused : GattStatus) :
    Except Fault Connections := do
  let (conn, s) ← s.getTempConn theAppTask
  match conn with
  | some i =>
    let e := s.cidMap i
    .ok (((s.setEntry i { e with data := { e.data with addr } }).gattSetConnState i theAppTask scenario).send
      (.sdpSearch addr))
  | none => .ok (s.send (.discoverBredrCfm theAppTask scenario refused false))

/-- `GattDiscoverAllBrEdrServicesRequest`. -/
def gattDiscoverAllBrEdrServicesRequest (theAppTask : Task) (addr : Bdaddr) : Except Fault Connections :=
  s.searchSdp theAppTask addr .discoverAllBredrServices .maxConnections

/-- `GattDiscoverBrEdrServiceRequest`. A table that is full is reported as a wrong UUID. -/
def gattDiscoverBrEdrServiceRequest (theAppTask : Task) (addr : Bdaddr) (validUuid : Bool) :
    Except Fault Connections :=
  if validUuid then s.searchSdp theAppTask addr .discoverBredrService .invalidUuid
  else .ok (s.send (.discoverBredrCfm theAppTask .discoverBredrService .invalidUuid false))

/-- `gattHandleClSdpServiceSearchAttributeCfm`, without the record that is found. -/
def gattHandleClSdpServiceSearchAttributeCfm (addr : Bdaddr) (status : GattStatus) (moreToCome : Bool)
    (bredrAddr : Cid → Option Bdaddr) : Except Fault Connections :=
  match s.gattFindConnAddr addr bredrAddr with
  | none => .error .panicNull
  | some i =>
    let conn := s.cidMap i
    if conn.data.scenario ∈ [.discoverAllPrimaryServices, .discoverPrimaryService, .discoverAllBredrServices,
        .discoverBredrService] then
      let s := s.send (.discoverBredrCfm conn.data.app conn.data.scenario status moreToCome)
      if moreToCome then .ok s
      else
        .ok ((if conn.data.scenario.isTemporary then s.gattDeleteCid conn.cid else s).gattSetConnState i 0 .none)
    else .error .panicNull

/-! ### Steps -/

/-- A connection that ATT has reported, or will report the end of. -/
def know (cid : Cid) : Connections := { s with known := cid :: s.known }

/-- A connection that ATT has reported the end of. -/
def forget (cid : Cid) : Connections := { s with known := s.known.filter (· ≠ cid) }

/-- What an input tells of the connections of ATT. Every response to a BR/EDR connection will be confirmed. -/
def track : Input → Connections
  | .attConnectCfm _ .pending _ _ => s
  | .attConnectCfm cid .initiating _ _ | .attConnectCfm cid .success _ _ => s.know cid
  | .attConnectCfm cid _ _ _ => s.forget cid
  | .attConnectInd cid _ _ | .connectResponse _ cid false _ => s.know cid
  | .attDisconnectInd cid _ => s.forget cid
  | _ => s

/-- What is run for an input; `none` says that there is nothing to run: a message is held, or ATT has nothing to
confirm. -/
def handle : Input → Option (Except Fault Connections)
  | .connectReq req => some (.ok (s.gattHandleInternalConnectReq req))
  | .heldConnectReq =>
    match s.connectReqs with
    | req :: reqs =>
      if s.connReqTask = 0 then some (.ok ({ s with connectReqs := reqs }.gattHandleInternalConnectReq req))
      else none
    | [] => none
  | .attConnectCfm cid result le mtu => some (s.gattHandleAttConnectCfm cid result le mtu)
  | .attConnectInd cid le mtu => some (s.gattHandleAttConnectInd cid le mtu)
  | .connectResponse task cid le accept => some (s.gattConnectResponse task cid le accept)
  | .disconnectReq cid => some (.ok (s.gattHandleInternalDisconnectReq cid))
  | .attDisconnectInd cid reason => some (.ok (s.gattHandleAttDisconnectInd cid reason))
  | .deleteConn n =>
    match s.deletions[n]? with
    | some m =>
      if (s.cidMap m.slot).data.app = 0 then
        some (.ok ({ s with deletions := s.deletions.eraseIdx n }.gattHandleInternalDeleteConn m))
      else none
    | none => none
  | .discoverAllBrEdrServices task addr => some (s.gattDiscoverAllBrEdrServicesRequest task addr)
  | .discoverBrEdrService task addr validUuid => some (s.gattDiscoverBrEdrServiceRequest task addr validUuid)
  | .sdpCfm addr status moreToCome bredrAddr =>
    some (s.gattHandleClSdpServiceSearchAttributeCfm addr status moreToCome bredrAddr)
  | .procedure task cid scenario =>
    if scenario ∈ [.discoverAllPrimaryServices, .discoverPrimaryService, .client] then
      match s.gattFindConn cid with
      | some i => if (s.cidMap i).data.app = 0 then some (.ok (s.gattSetConnState i task scenario)) else none
      | none => some (.error .panicNull)
    else none
  | .procedureEnd cid =>
    match s.gattFindConn cid with
    | some i =>
      if (s.cidMap i).data.scenario ∈ [.discoverAllPrimaryServices, .discoverPrimaryService, .client] then
        some (.ok (s.gattSetConnState i 0 .none))
      else none
    | none => none

/-- One input. The program does not go on after it has ended. -/
def step (s : Connections) (input : Input) : Option Connections :=
  match s.ended with
  | some _ => none
  | none =>
    match (s.track input).handle input with
    | some (.ok s') => some s'
    | some (.error fault) => some { s with ended := some (fault, input) }
    | none => none

/-- After the initialisation. -/
def init (theAppTask : Task) : Connections := ⟨theAppTask, 0, 0, gattInitCidTaskMap, [], [], [], [], none⟩

end Connections

/-! ### What the table should be -/

/-- An entry of a connection, not that of the local database. -/
def InUse (i : Slot) (e : CidMap) : Prop := i ≠ 0 ∧ e.cid ≠ invalidCid

instance (i : Slot) (e : CidMap) : Decidable (InUse i e) := inferInstanceAs (Decidable (_ ∧ _))

namespace Connections

variable (s : Connections)

/-- What an entry is there for: a search, a connection that ATT has still to report the end of, or a deletion that
is held. -/
def Justified (e : CidMap) : Prop :=
  e.data.scenario.isTemporary = true ∨ e.cid ∈ s.known ∨ ∃ m ∈ s.deletions, m.cid = e.cid

/-- The table is right: the count is that of the entries, no cid has two of them, none is left behind, none is
missing when it is written, and no answer of the application panics. -/
structure Sound : Prop where
  counted : s.connectCount = (Lib.occupied InUse s.cidMap).card
  distinct : Lib.KeysDistinct (fun (_ : Slot) e => e.cid ≠ invalidCid) CidMap.cid s.cidMap
  cleared : ∀ i, InUse i (s.cidMap i) → s.Justified (s.cidMap i)
  added : ∀ input, s.ended ≠ some (.missingEntry, input)
  answered : ∀ task cid le accept, s.ended ≠ some (.panicNull, .connectResponse task cid le accept)

/-- An entry is free and the cid has none. -/
def CanAdd (cid : Cid) : Prop :=
  cid ≠ invalidCid ∧ s.gattFindConn cid = none ∧ s.gattFindConn invalidCid ≠ none

/-- No entry that is free is taken for that of a connection. -/
def CanRemove (cid : Cid) : Prop := cid = invalidCid → s.gattFindConn cid = none

/-- The condition: an entry is added only if one is free and the cid has none, the marker of a free entry is not
the cid of a connection that ends, an application accepts only an LE connection that has its entry, and no procedure
is run for a temporary connection. -/
def Admits (s : Connections) : Input → Prop
  | .attConnectCfm cid .initiating _ _ => s.gattCidIsValid cid = true ∨ s.gattFindConn invalidCid ≠ none
  | .attConnectCfm _ .success _ _ | .attConnectCfm _ .pending _ _ => True
  | .attConnectCfm cid _ _ _ | .attDisconnectInd cid _ => s.CanRemove cid
  | .attConnectInd cid true _ | .connectResponse _ cid false _ => s.CanAdd cid
  | .connectResponse _ cid true true =>
    (s.gattFindConn cid).any (fun i => !(s.cidMap i).data.scenario.isTemporary) = true
  | .discoverAllBrEdrServices _ _ | .discoverBrEdrService _ _ true => s.CanAdd s.tempCid
  | .procedure _ cid _ => (s.gattFindConn cid).all (fun i => !(s.cidMap i).data.scenario.isTemporary) = true
  | _ => True

end Connections

end Cbps.Gatt
