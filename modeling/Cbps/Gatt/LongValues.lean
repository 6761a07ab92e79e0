import Cbps.Gatt.Att
import Cbps.Gatt.Connections
import Cbps.Lib.Tiles
import Mathlib.Computability.StateTransition

/-!
# Long values

`gatt_characteristic_read.c` and `gatt_characteristic_write.c`: a long characteristic value is read by blobs and
written by parts that are prepared and then executed. Both loops step by a number that is made of the field `mtu`
of the connection, while ATT cuts by the MTU that it has agreed on.

`transfersWhole_iff` says for which values the field leads to the whole value.
-/

namespace Cbps.Gatt

open GattManager (Cid)

/-- A value that an attribute can have. -/
structure Value where
  octets : List UInt8
  length_le : octets.length ≤ 65535

/-- An MTU that ATT can report. -/
structure Mtu where
  val : BitVec 16
  le_val : 23 ≤ val.toNat

/-- `MAX_BLOB_SIZE`, as it is compared. -/
def maxBlobSize (mtu : BitVec 10) : BitVec 16 := mtu.setWidth 16 - 1

/-- `MAX_PREPARE_SIZE`, as it is added. -/
def maxPrepareSize (mtu : BitVec 10) : BitVec 16 := mtu.setWidth 16 - 5

/-! ### Read Long Characteristic Value -/

/-- `GATT_READ_LONG_CHARACTERISTIC_VALUE_CFM_T`. -/
structure ReadLongCfm where
  offset : BitVec 16
  status : BitVec 16
  value : List UInt8
  moreToCome : Bool
  deriving DecidableEq, Repr

/-- A connection with `gatt_read_long_t`: `locked` says that `data.app` is set, `request` is the offset of the blob
that ATT has been asked for. -/
structure ReadLong where
  mtu : BitVec 10
  locked : Bool
  offs : BitVec 16
  request : Option (BitVec 16)
  sent : List ReadLongCfm
  deriving DecidableEq, Repr

namespace ReadLong

/-- `gattHandleInternalReadLongReq`. -/
def gattHandleInternalReadLongReq (mtu : BitVec 10) : ReadLong := ⟨mtu, true, 0, some 0, []⟩

/-- `gattHandleAttReadBlobCfm`. -/
def gattHandleAttReadBlobCfm (r : ReadLong) (result : AttResult) (value : List UInt8) : ReadLong :=
  let size := BitVec.ofNat 16 value.length
  let stash : ReadLongCfm := ⟨r.offs, gattMessageStatus result, value, false⟩
  let r' :=
    if value ≠ [] then
      { r with
        offs := r.offs + size
        sent := r.sent ++ [{ stash with moreToCome := !decide (size < maxBlobSize r.mtu) }] }
    else r
  if result = attResultSuccess ∧ size = maxBlobSize r.mtu then { r' with request := some r'.offs }
  else { (if value ≠ [] then r' else { r' with sent := r'.sent ++ [stash] }) with locked := false, request := none }

/-- The answer of ATT: a blob is the rest of the value from the offset on, as far as the MTU allows. -/
def attReadBlob (mtu : Mtu) (v : Value) (offset : BitVec 16) : AttResult × List UInt8 :=
  if offset.toNat ≤ v.octets.length then
    (attResultSuccess, (v.octets.drop offset.toNat).take (mtu.val.toNat - 1))
  else (attResultInvalidOffset, [])

/-- One answer of ATT. -/
def step (mtu : Mtu) (v : Value) (r : ReadLong) : Option ReadLong :=
  r.request.map fun offset =>
    r.gattHandleAttReadBlobCfm (attReadBlob mtu v offset).1 (attReadBlob mtu v offset).2

/-- The fragments are the whole value, all successful, and the last one alone has no more to come. -/
def Whole (v : Value) (r : ReadLong) : Prop :=
  r.locked = false ∧ Lib.Tiles 0 (r.sent.map fun c => (c.offset.toNat, c.value)) v.octets ∧
    (∀ c ∈ r.sent, c.status = 0) ∧
    ∃ cs c, r.sent = cs ++ [c] ∧ (∀ c' ∈ cs, c'.moreToCome = true) ∧ c.moreToCome = false

/-- The procedure ends, and the value has been delivered. -/
def ReadsWhole (stored : BitVec 10) (mtu : Mtu) (v : Value) : Prop :=
  ∃ r ∈ StateTransition.eval (step mtu v) (gattHandleInternalReadLongReq stored), Whole v r

end ReadLong

/-! ### Write Long Characteristic Value -/

/-- `ATT_PREPARE_WRITE_REQ` and `ATT_EXECUTE_WRITE_REQ`; `execute` is false for a cancel. -/
inductive WriteReq
  | prepare (offset : BitVec 16) (value : List UInt8)
  | execute (execute : Bool)
  deriving DecidableEq, Repr

/-- A connection with `gatt_write_reliable_t`, whose `size_value` is the length of the value, and the status of the
confirm that waits in the stash. -/
structure WriteLong where
  mtu : BitVec 10
  locked : Bool
  offs : BitVec 16
  value : List UInt8
  status : BitVec 16
  request : Option WriteReq
  confirms : List (BitVec 16)
  deriving DecidableEq, Repr

namespace WriteLong

/-- `handleInternalWriteReqLong`. -/
def handleInternalWriteReqLong (mtu : BitVec 10) (v : Value) : WriteLong :=
  ⟨mtu, true, 0, v.octets, gattMessageStatus attResultSuccess, some (.prepare 0 v.octets), []⟩

/-- The confirm in the stash is sent and the lock is taken away. -/
def finish (w : WriteLong) : WriteLong :=
  { w with locked := false, request := none, confirms := w.confirms ++ [w.status] }

/-- `handleAttPrepareWriteCfmLong`. -/
def handleAttPrepareWriteCfmLong (w : WriteLong) (result : AttResult) : WriteLong :=
  if result = attResultSuccess then
    let w := { w with offs := w.offs + maxPrepareSize w.mtu }
    if w.offs.toNat < w.value.length then
      { w with request := some (.prepare w.offs (w.value.drop w.offs.toNat)) }
    else { w with request := some (.execute true) }
  else if w.offs ≠ 0 then
    { w with status := gattMessageStatus result, request := some (.execute false) }
  else { w with status := gattMessageStatus result }.finish

/-- `handleAttExecuteWriteCfmLong`. -/
def handleAttExecuteWriteCfmLong (w : WriteLong) (result : AttResult) : WriteLong :=
  (if w.status = gattMessageStatus attResultSuccess then { w with status := gattMessageStatus result } else w).finish

end WriteLong

/-- The procedure with ATT: the parts that ATT has accepted, what it has been told to execute (false is a cancel),
the result of a part that it has not accepted and the number of its answers. -/
structure LongWrite where
  gatt : WriteLong
  queued : List (ℕ × List UInt8)
  executed : List Bool
  failed : Option AttResult
  answered : ℕ
  deriving DecidableEq, Repr

namespace LongWrite

/-- One answer of ATT, whose results are arbitrary. A part is cut to what the MTU allows. -/
def step (mtu : Mtu) (results : ℕ → AttResult) (s : LongWrite) : Option LongWrite :=
  let result := results s.answered
  match s.gatt.request with
  | none => none
  | some (.prepare offset value) =>
    let s := { s with gatt := s.gatt.handleAttPrepareWriteCfmLong result, answered := s.answered + 1 }
    some (if result = attResultSuccess then
      { s with queued := s.queued ++ [(offset.toNat, value.take (mtu.val.toNat - 5))] }
    else { s with failed := some result })
  | some (.execute execute) =>
    some { s with
      gatt := s.gatt.handleAttExecuteWriteCfmLong result
      executed := s.executed ++ [execute]
      answered := s.answered + 1 }

/-- The request of the application. -/
def init (stored : BitVec 10) (v : Value) : LongWrite :=
  ⟨WriteLong.handleInternalWriteReqLong stored v, [], [], none, 0⟩

/-- One confirm. If every part has been accepted, the parts are the whole value and it has been executed once; else
what has been accepted, if anything, has been cancelled once. -/
def Whole (v : Value) (s : LongWrite) : Prop :=
  s.gatt.locked = false ∧ s.gatt.confirms.length = 1 ∧
    match s.failed with
    | none => Lib.Tiles 0 s.queued v.octets ∧ s.executed = [true]
    | some _ => s.executed = if s.queued = [] then [] else [false]

/-- Whatever ATT answers, the procedure ends as it should. -/
def WritesWhole (stored : BitVec 10) (mtu : Mtu) (v : Value) : Prop :=
  ∀ results, ∃ s ∈ StateTransition.eval (step mtu results) (init stored v), Whole v s

end LongWrite

/-! ### Connections -/

/-- A connection has an entry at `slot`, since a confirm of ATT that has reported the MTU, or since its indication
over LE. It stays established as long as the entry is its own. -/
inductive Established (cid : Cid) (slot : Slot) (mtu : Mtu) : Connections → Prop
  | confirmed {before after : Connections} (le : Bool) (hfound : before.gattFindConn cid = some slot)
      (h : before.gattHandleAttConnectCfm cid .success le mtu.val = .ok after) : Established cid slot mtu after
  | indicated {before after : Connections} (h : before.gattHandleAttConnectInd cid true mtu.val = .ok after)
      (hfound : after.gattFindConn cid = some slot) : Established cid slot mtu after
  | kept {before after : Connections} (input : Input) (h : Established cid slot mtu before)
      (hstep : before.step input = some after) (hcid : (after.cidMap slot).cid = cid)
      (hmtu : (after.cidMap slot).mtu = (before.cidMap slot).mtu) : Established cid slot mtu after

/-- A connection with the MTU that ATT has reported for it. -/
structure Connection where
  table : Connections
  cid : Cid
  slot : Slot
  mtu : Mtu
  established : Established cid slot mtu table

/-- The field `mtu` of the entry. -/
def Connection.stored (c : Connection) : BitVec 10 := (c.table.cidMap c.slot).mtu

/-- The value is transferred whole in both directions. -/
def TransfersWhole (c : Connection) (v : Value) : Prop :=
  ReadLong.ReadsWhole c.stored c.mtu v ∧ LongWrite.WritesWhole c.stored c.mtu v

end Cbps.Gatt
