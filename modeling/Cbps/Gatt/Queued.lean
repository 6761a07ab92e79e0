import Cbps.Lib.Loop
import Mathlib.Data.List.Basic

/-!
# Queued requests

A request of the application is copied into a message of GATT, and from the message into a primitive of ATT when its turn
comes. The array at the end of a message is as long as the macro `MAKE_GATT_MESSAGE_WITH_LEN` makes it, and the array of a
primitive is a block of its own. `carried_iff` says which requests reach ATT as they were made: all but the lists of
handles, which are copied by their number as if a handle were an octet.
-/

namespace Cbps.Gatt.Queued

open Lib List

abbrev Octet := BitVec 8

abbrev U16 := BitVec 16

/-! ### Memory -/

/-- An octet outside of a block is read or written, or the library panics. -/
inductive Fault
  | outside
  | panic
  deriving DecidableEq, Repr

/-- What the code does not say: how long the structure of a message is behind its array, whether `malloc` gives a block of
no octets, and what is in a new block. -/
structure Platform where
  padding : ℕ
  emptyBlock : Bool
  mem : ℕ → Octet

/-- What is in a new block. -/
def Platform.block (p : Platform) (size : ℕ) : List Octet := (List.range size).map p.mem

/-- `PanicUnlessMalloc`. -/
def panicUnlessMalloc (p : Platform) (size : ℕ) : Except Fault (List Octet) :=
  if size = 0 ∧ ¬ p.emptyBlock then .error .panic else .ok (p.block size)

/-- `memmove` to the beginning of one block from the beginning of another. -/
def memmove (dst src : List Octet) (n : ℕ) : Except Fault (List Octet) :=
  if n ≤ dst.length ∧ n ≤ src.length then .ok (src.take n ++ dst.drop n) else .error .outside

/-- `MAKE_GATT_MESSAGE_WITH_LEN`: the message from its array on. The structure has one element of the array already. -/
def makeGattMessageWithLen (p : Platform) (element len : ℕ) : List Octet :=
  p.block (element + p.padding + if len ≠ 0 then len - 1 else 0)

/-- The octets of a `u16`. -/
def octets (x : U16) : List Octet := [x.setWidth 8, (x >>> 8).setWidth 8]

/-- An array with its length, a `u16`. -/
structure Sized (α : Type) where
  list : List α
  size : list.length < 65536

/-! ### Messages and primitives -/

/-- `m->id` of a `GATT_INTERNAL_WRITE_REQ`. -/
inductive WriteId
  | writeWithoutResponse
  | signedWriteWithoutResponse
  | writeCharacteristicValue
  | writeLongCharacteristicValue
  | prepareWrite
  deriving DecidableEq, Repr

/-- The messages that GATT sends itself, with their arrays as the octets up to the end of the block. -/
inductive Message
  | readMultipleReq (cid : U16) (numHandles : ℕ) (handles : List Octet)
  | writeReq (id : WriteId) (cid handle offs : U16) (sizeValue : ℕ) (value : List Octet)
  | handleValueReq (cid handle flags : U16) (sizeValue : ℕ) (value : List Octet)
  | accessRes (cid handle result : U16) (sizeValue : ℕ) (value : List Octet)
  deriving DecidableEq, Repr

/-- The primitives of ATT, with the octets of the block of the array. A null pointer is a block without octets. -/
inductive AttPrim
  | writeReq (cid handle flags : U16) (sizeValue : ℕ) (value : List Octet)
  | prepareWriteReq (cid handle offset : U16) (sizeValue : ℕ) (value : List Octet)
  | readMultiReq (cid : U16) (sizeHandles : ℕ) (handles : List Octet)
  | handleValueReq (cid handle flags : U16) (sizeValue : ℕ) (value : List Octet)
  | accessRsp (cid handle result : U16) (sizeValue : ℕ) (value : List Octet)
  deriving DecidableEq, Repr

/-- `gattFindConn`: the connections, with the flag `closing`. -/
abbrev Conns := U16 → Option Bool

/-- The connection is there, and it is not being closed. -/
def ready (conns : Conns) (cid : U16) : Bool := conns cid = some false

/-! ### Requests of the application -/

variable (p : Platform)

/-- `GattReadMultipleCharacteristicValuesRequest`. -/
def gattReadMultipleCharacteristicValuesRequest (conns : Conns) (cid : U16) (handles : Sized U16) :
    Except Fault (Option Message) := do
  if ready conns cid then
    let message ←
      memmove (makeGattMessageWithLen p 2 handles.list.length) (handles.list.flatMap octets) handles.list.length
    return some (.readMultipleReq cid handles.list.length message)
  else return none

/-- `MAKE_GATT_MESSAGE_WITH_VALUE`. -/
def makeGattMessageWithValue (value : Sized Octet) : Except Fault (List Octet) :=
  memmove (makeGattMessageWithLen p 1 value.list.length) value.list value.list.length

/-- `internalWriteReq`. -/
def internalWriteReq (conns : Conns) (id : WriteId) (cid handle offs : U16) (value : Sized Octet) :
    Except Fault (Option Message) := do
  if ready conns cid then
    let message ← makeGattMessageWithValue p value
    return some (.writeReq id cid handle offs value.list.length message)
  else return none

/-- `ATT_HANDLE_VALUE_NOTIFICATION`. -/
def attHandleValueNotification : U16 := 0x0000

/-- `ATT_HANDLE_VALUE_INDICATION`. -/
def attHandleValueIndication : U16 := 0x0001

/-- `GattNotificationRequest` and `GattIndicationRequest`, which differ in the flags. -/
def gattHandleValueRequest (conns : Conns) (cid handle flags : U16) (value : Sized Octet) :
    Except Fault (Option Message) := do
  if ready conns cid then
    let message ← makeGattMessageWithValue p value
    return some (.handleValueReq cid handle flags value.list.length message)
  else return none

/-- `GattAccessResponse`. -/
def gattAccessResponse (cid handle result : U16) (value : Sized Octet) : Except Fault (Option Message) := do
  let message ← makeGattMessageWithValue p value
  return some (.accessRes cid handle result value.list.length message)

/-- What the application asks for, and its response to an access. -/
inductive Request
  | writeWithoutResponse (cid handle : U16) (value : Sized Octet)
  | signedWriteWithoutResponse (cid handle : U16) (value : Sized Octet)
  | writeCharacteristicValue (cid handle : U16) (value : Sized Octet)
  | writeLongCharacteristicValue (cid handle : U16) (value : Sized Octet)
  | reliableWritePrepare (cid handle offset : U16) (value : Sized Octet)
  | notification (cid handle : U16) (value : Sized Octet)
  | indication (cid handle : U16) (value : Sized Octet)
  | accessResponse (cid handle result : U16) (value : Sized Octet)
  | readMultipleCharacteristicValues (cid : U16) (handles : Sized U16)

/-- The functions of `gatt.h`. -/
def queue (conns : Conns) : Request → Except Fault (Option Message)
  | .writeWithoutResponse cid handle value => internalWriteReq p conns .writeWithoutResponse cid handle 0 value
  | .signedWriteWithoutResponse cid handle value => internalWriteReq p conns .signedWriteWithoutResponse cid handle 0 value
  | .writeCharacteristicValue cid handle value => internalWriteReq p conns .writeCharacteristicValue cid handle 0 value
  | .writeLongCharacteristicValue cid handle value =>
    internalWriteReq p conns .writeLongCharacteristicValue cid handle 0 value
  | .reliableWritePrepare cid handle offset value => internalWriteReq p conns .prepareWrite cid handle offset value
  | .notification cid handle value => gattHandleValueRequest p conns cid handle attHandleValueNotification value
  | .indication cid handle value => gattHandleValueRequest p conns cid handle attHandleValueIndication value
  | .accessResponse cid handle result value => gattAccessResponse p cid handle result value
  | .readMultipleCharacteristicValues cid handles => gattReadMultipleCharacteristicValuesRequest p conns cid handles

/-! ### Handlers of the messages -/

/-- `gatt_write_req`. -/
def gattWriteReq (cid handle flags : U16) (sizeValue : ℕ) (value : List Octet) : Except Fault AttPrim := do
  let block ← panicUnlessMalloc p sizeValue
  let block ← memmove block value sizeValue
  return .writeReq cid handle flags sizeValue block

/-- `gatt_prepare_write_req`. -/
def gattPrepareWriteReq (cid handle offs : U16) (sizeValue : ℕ) (value : List Octet) : Except Fault AttPrim := do
  let block ← panicUnlessMalloc p sizeValue
  let block ← memmove block value sizeValue
  return .prepareWriteReq cid handle offs sizeValue block

/-- `gatt_read_multi_req`. -/
def gattReadMultiReq (cid : U16) (sizeHandles : ℕ) (handles : List Octet) : Except Fault AttPrim := do
  let block ← panicUnlessMalloc p sizeHandles
  let block ← memmove block handles sizeHandles
  return .readMultiReq cid sizeHandles block

/-- `ATT_WRITE_REQUEST`. -/
def attWriteRequest : U16 := 0x0000

/-- `ATT_WRITE_COMMAND`. -/
def attWriteCommand : U16 := 0x0040

/-- `ATT_WRITE_SIGNED`. -/
def attWriteSigned : U16 := 0x0080

/-- `gattHandleInternalWriteReq`. A long write and a prepared one keep the value for the confirm. -/
def gattHandleInternalWriteReq (id : WriteId) (cid handle offs : U16) (sizeValue : ℕ) (value : List Octet) :
    Except Fault AttPrim :=
  match id with
  | .writeWithoutResponse => gattWriteReq p cid handle attWriteCommand sizeValue value
  | .signedWriteWithoutResponse => gattWriteReq p cid handle (attWriteCommand ||| attWriteSigned) sizeValue value
  | .writeCharacteristicValue => gattWriteReq p cid handle attWriteRequest sizeValue value
  | .writeLongCharacteristicValue => do
    let kept ← panicUnlessMalloc p sizeValue
    let _ ← memmove kept value sizeValue
    gattPrepareWriteReq p cid handle 0 sizeValue value
  | .prepareWrite => do
    let kept ← panicUnlessMalloc p sizeValue
    let _ ← memmove kept value sizeValue
    gattPrepareWriteReq p cid handle offs sizeValue value

/-- The array of `gattHandleInternalHandleValueReq` and of `gattHandleInternalAccessRes`. -/
def valueUnlessEmpty (sizeValue : ℕ) (value : List Octet) : Except Fault (List Octet) := do
  if sizeValue ≠ 0 then
    let block ← panicUnlessMalloc p sizeValue
    memmove block value sizeValue
  else return []

/-- `gattMessageHandler`, with the connections at that time. -/
def gattMessageHandler (conns : Conns) : Message → Except Fault (Option AttPrim)
  | .readMultipleReq cid numHandles handles =>
    -- `PanicNull(gattFindConn(m->common.cid))`
    if (conns cid).isSome then some <$> gattReadMultiReq p cid numHandles handles else .error .panic
  | .writeReq id cid handle offs sizeValue value =>
    if (conns cid).isSome then some <$> gattHandleInternalWriteReq p id cid handle offs sizeValue value
    else .error .panic
  | .handleValueReq cid handle flags sizeValue value => do
    if (conns cid).isSome then
      let block ← valueUnlessEmpty p sizeValue value
      return some (.handleValueReq cid handle flags sizeValue block)
    else return none
  | .accessRes cid handle result sizeValue value => do
    if (conns cid).isSome then
      let block ← valueUnlessEmpty p sizeValue value
      return some (.accessRsp cid handle result sizeValue block)
    else return none

/-- From the request to the primitive, with the connections when the request is made and when its message is handled. -/
def reach (conns conns' : Conns) (request : Request) : Except Fault (Option AttPrim) := do
  match ← queue p conns request with
  | some message => gattMessageHandler p conns' message
  | none => return none

/-! ### What is to reach ATT -/

/-- The connection of a request. -/
def Request.cid : Request → U16
  | .writeWithoutResponse cid _ _ | .signedWriteWithoutResponse cid _ _ | .writeCharacteristicValue cid _ _
  | .writeLongCharacteristicValue cid _ _ | .reliableWritePrepare cid _ _ _ | .notification cid _ _
  | .indication cid _ _ | .accessResponse cid _ _ _ | .readMultipleCharacteristicValues cid _ => cid

/-- The primitive for a request. -/
def Request.prim : Request → AttPrim
  | .writeWithoutResponse cid handle value => .writeReq cid handle 0x0040 value.list.length value.list
  | .signedWriteWithoutResponse cid handle value => .writeReq cid handle 0x00c0 value.list.length value.list
  | .writeCharacteristicValue cid handle value => .writeReq cid handle 0x0000 value.list.length value.list
  | .writeLongCharacteristicValue cid handle value => .prepareWriteReq cid handle 0 value.list.length value.list
  | .reliableWritePrepare cid handle offset value => .prepareWriteReq cid handle offset value.list.length value.list
  | .notification cid handle value => .handleValueReq cid handle 0x0000 value.list.length value.list
  | .indication cid handle value => .handleValueReq cid handle 0x0001 value.list.length value.list
  | .accessResponse cid handle result value => .accessRsp cid handle result value.list.length value.list
  | .readMultipleCharacteristicValues cid handles =>
    .readMultiReq cid handles.list.length (handles.list.flatMap octets)

/-- A response needs its connection when it is handled, a request also when it is made. -/
def Request.Connected (conns conns' : Conns) (request : Request) : Prop :=
  match request with
  | .accessResponse cid _ _ _ => (conns' cid).isSome
  | _ => ready conns request.cid ∧ (conns' request.cid).isSome

/-- **The promise** for a request: over a connection its primitive reaches ATT, and without one nothing does. -/
structure Carried (request : Request) : Prop where
  connected (conns conns' : Conns) (h : request.Connected conns conns') : reach p conns conns' request = .ok (some request.prim)
  otherwise (conns conns' : Conns) (h : ¬ request.Connected conns conns') :
    reach p conns conns' request = .ok none ∨ reach p conns conns' request = .error .panic

/-- The requests whose arrays are copied by their size in octets. -/
def Fits : Request → Prop
  | .writeWithoutResponse _ _ value | .signedWriteWithoutResponse _ _ value | .writeCharacteristicValue _ _ value
  | .writeLongCharacteristicValue _ _ value | .reliableWritePrepare _ _ _ value => value.list ≠ [] ∨ p.emptyBlock
  | .readMultipleCharacteristicValues _ handles => handles.list = [] ∧ p.emptyBlock
  | _ => True

/-! ### Copies -/

section

variable {p}

theorem length_block (size : ℕ) : (p.block size).length = size := by
  rw [Platform.block, length_map, length_range]

theorem panicUnlessMalloc_eq {size : ℕ} (h : size ≠ 0 ∨ p.emptyBlock) : panicUnlessMalloc p size = .ok (p.block size) := by
  refine if_neg fun hempty => ?_
  rcases h with hsize | hblock
  · exact hsize hempty.1
  · exact hempty.2 hblock

/-- The block for a value. -/
theorem panicUnlessMalloc_value {α : Type} {value : List α} (h : value ≠ [] ∨ p.emptyBlock) :
    panicUnlessMalloc p value.length = .ok (p.block value.length) :=
  panicUnlessMalloc_eq (h.imp_left fun hvalue hzero => hvalue (length_eq_zero_iff.mp hzero))

theorem panicUnlessMalloc_panic (h : ¬ p.emptyBlock) : panicUnlessMalloc p 0 = .error .panic := if_pos ⟨rfl, h⟩

theorem memmove_eq {dst src : List Octet} {n : ℕ} (hdst : n ≤ dst.length) (hsrc : n ≤ src.length) :
    memmove dst src n = .ok (src.take n ++ dst.drop n) := if_pos ⟨hdst, hsrc⟩

/-- The array of a message has room for as many octets as its length. -/
theorem length_makeGattMessageWithLen {element len : ℕ} (helement : 0 < element) :
    len ≤ (makeGattMessageWithLen p element len).length := by
  rw [makeGattMessageWithLen, length_block]
  split
  · omega
  · omega

/-- A value at the beginning of the array of its message. -/
theorem makeGattMessageWithValue_eq (value : Sized Octet) :
    ∃ rest, makeGattMessageWithValue p value = .ok (value.list ++ rest) := by
  refine ⟨(makeGattMessageWithLen p 1 value.list.length).drop value.list.length, ?_⟩
  rw [makeGattMessageWithValue, memmove_eq (length_makeGattMessageWithLen Nat.one_pos) (Nat.le_refl _), take_length]

/-- A new block is filled with the value. -/
theorem memmove_block (value rest : List Octet) :
    memmove (p.block value.length) (value ++ rest) value.length = .ok value := by
  have hblock := @length_block p value.length
  rw [memmove_eq (Nat.le_of_eq hblock.symm) (by simp), List.take_left, drop_eq_nil_of_le (Nat.le_of_eq hblock),
    append_nil]

/-! ### Writes -/

variable {value : List Octet}

theorem gattWriteReq_eq (h : value ≠ [] ∨ p.emptyBlock) (cid handle flags : U16) (rest : List Octet) :
    gattWriteReq p cid handle flags value.length (value ++ rest) =
      .ok (.writeReq cid handle flags value.length value) := by
  rw [gattWriteReq, panicUnlessMalloc_value h, ok_bind, memmove_block,
    ok_bind]
  rfl

theorem gattPrepareWriteReq_eq (h : value ≠ [] ∨ p.emptyBlock) (cid handle offs : U16)
    (rest : List Octet) :
    gattPrepareWriteReq p cid handle offs value.length (value ++ rest) =
      .ok (.prepareWriteReq cid handle offs value.length value) := by
  rw [gattPrepareWriteReq, panicUnlessMalloc_value h, ok_bind,
    memmove_block, ok_bind]
  rfl

/-- The primitive of a write. -/
def writePrim (id : WriteId) (cid handle offs : U16) (value : List Octet) : AttPrim :=
  match id with
  | .writeWithoutResponse => .writeReq cid handle 0x0040 value.length value
  | .signedWriteWithoutResponse => .writeReq cid handle 0x00c0 value.length value
  | .writeCharacteristicValue => .writeReq cid handle 0x0000 value.length value
  | .writeLongCharacteristicValue => .prepareWriteReq cid handle 0 value.length value
  | .prepareWrite => .prepareWriteReq cid handle offs value.length value

theorem gattHandleInternalWriteReq_eq (h : value ≠ [] ∨ p.emptyBlock) (id : WriteId)
    (cid handle offs : U16) (rest : List Octet) :
    gattHandleInternalWriteReq p id cid handle offs value.length (value ++ rest) =
      .ok (writePrim id cid handle offs value) := by
  have hkept := panicUnlessMalloc_value h
  cases id with
  | writeWithoutResponse | signedWriteWithoutResponse | writeCharacteristicValue => exact gattWriteReq_eq h cid handle _ rest
  | writeLongCharacteristicValue =>
    rw [gattHandleInternalWriteReq, hkept, ok_bind, memmove_block, ok_bind]
    exact gattPrepareWriteReq_eq h cid handle 0 rest
  | prepareWrite =>
    rw [gattHandleInternalWriteReq, hkept, ok_bind, memmove_block, ok_bind]
    exact gattPrepareWriteReq_eq h cid handle offs rest

/-- Without a block of no octets an empty value panics. -/
theorem gattHandleInternalWriteReq_panic (h : ¬ p.emptyBlock) (id : WriteId) (cid handle offs : U16) (value : List Octet) :
    gattHandleInternalWriteReq p id cid handle offs 0 value = .error .panic := by
  cases id <;> simp only [gattHandleInternalWriteReq, gattWriteReq, panicUnlessMalloc_panic h, error_bind]

/-- A write, from the request to the primitive. -/
theorem carried_write {request : Request} {id : WriteId} {handle offs : U16} {value : Sized Octet}
    (hqueue : ∀ conns, queue p conns request = internalWriteReq p conns id request.cid handle offs value)
    (hprim : request.prim = writePrim id request.cid handle offs value.list)
    (hconnected : ∀ conns conns',
      request.Connected conns conns' = (ready conns request.cid = true ∧ (conns' request.cid).isSome = true)) :
    Carried p request ↔ value.list ≠ [] ∨ p.emptyBlock := by
  obtain ⟨rest, hmessage⟩ := @makeGattMessageWithValue_eq p value
  have hsent {conns conns' : Conns} (hready : ready conns request.cid = true) :
      reach p conns conns' request =
        if (conns' request.cid).isSome then
          some <$> gattHandleInternalWriteReq p id request.cid handle offs value.list.length (value.list ++ rest)
        else .error .panic := by
    rw [reach, hqueue, internalWriteReq, if_pos hready, hmessage]
    rfl
  constructor
  · intro hcarried
    by_contra hneither
    obtain ⟨hvalue, hblock⟩ := not_or.mp hneither
    have hempty : value.list.length = 0 := length_eq_zero_iff.mpr (not_not.mp hvalue)
    have hreach := hcarried.connected (fun _ => some false) (fun _ => some false) (by rw [hconnected]; exact ⟨rfl, rfl⟩)
    rw [hsent rfl, hempty, gattHandleInternalWriteReq_panic hblock] at hreach
    revert hreach
    rintro ⟨⟩
  · intro h
    refine ⟨fun conns conns' hconn => ?_, fun conns conns' hconn => ?_⟩
    · rw [hconnected] at hconn
      rw [hsent hconn.1, if_pos hconn.2, gattHandleInternalWriteReq_eq h, hprim]
      rfl
    · rw [hconnected] at hconn
      by_cases hready : ready conns request.cid = true
      · rw [hsent hready, if_neg fun hsome => hconn ⟨hready, hsome⟩]
        exact .inr rfl
      · rw [reach, hqueue, internalWriteReq, if_neg hready]
        exact .inl rfl

/-! ### Values of the server -/

/-- An empty value is not given a block. -/
theorem valueUnlessEmpty_eq (value rest : List Octet) :
    valueUnlessEmpty p value.length (value ++ rest) = .ok value := by
  rw [valueUnlessEmpty]
  by_cases hvalue : value = []
  · rw [hvalue]
    rfl
  · rw [if_pos fun hzero => hvalue (length_eq_zero_iff.mp hzero), panicUnlessMalloc_value (.inl hvalue), ok_bind]
    exact memmove_block value rest

theorem carried_handleValue {request : Request} {handle flags : U16} {value : Sized Octet}
    (hqueue : ∀ conns, queue p conns request = gattHandleValueRequest p conns request.cid handle flags value)
    (hprim : request.prim = .handleValueReq request.cid handle flags value.list.length value.list)
    (hconnected : ∀ conns conns',
      request.Connected conns conns' = (ready conns request.cid = true ∧ (conns' request.cid).isSome = true)) :
    Carried p request := by
  obtain ⟨rest, hmessage⟩ := @makeGattMessageWithValue_eq p value
  have hsent {conns conns' : Conns} (hready : ready conns request.cid = true) :
      reach p conns conns' request =
        if (conns' request.cid).isSome then
          .ok (some (.handleValueReq request.cid handle flags value.list.length value.list))
        else .ok none := by
    rw [reach, hqueue, gattHandleValueRequest, if_pos hready, hmessage, ok_bind]
    change gattMessageHandler p conns' (.handleValueReq request.cid handle flags value.list.length (value.list ++ rest)) = _
    rw [gattMessageHandler, valueUnlessEmpty_eq]
    rfl
  refine ⟨fun conns conns' hconn => ?_, fun conns conns' hconn => .inl ?_⟩
  · rw [hconnected] at hconn
    rw [hsent hconn.1, if_pos hconn.2, hprim]
  · rw [hconnected] at hconn
    by_cases hready : ready conns request.cid = true
    · rw [hsent hready, if_neg fun hsome => hconn ⟨hready, hsome⟩]
    · rw [reach, hqueue, gattHandleValueRequest, if_neg hready]
      rfl

theorem carried_accessResponse (cid handle result : U16) (value : Sized Octet) :
    Carried p (.accessResponse cid handle result value) := by
  obtain ⟨rest, hmessage⟩ := @makeGattMessageWithValue_eq p value
  have hsent (conns conns' : Conns) : reach p conns conns' (.accessResponse cid handle result value) =
      if (conns' cid).isSome then .ok (some (.accessRsp cid handle result value.list.length value.list))
      else .ok none := by
    rw [reach, queue, gattAccessResponse, hmessage, ok_bind]
    change gattMessageHandler p conns' (.accessRes cid handle result value.list.length (value.list ++ rest)) = _
    rw [gattMessageHandler, valueUnlessEmpty_eq]
    rfl
  refine ⟨fun conns conns' hconn => ?_, fun conns conns' hconn => .inl ?_⟩
  · rw [hsent]
    exact if_pos hconn
  · rw [hsent]
    exact if_neg hconn

/-! ### Lists of handles -/

theorem length_flatMap_octets (handles : List U16) : (handles.flatMap octets).length = 2 * handles.length := by
  induction handles with
  | nil => rfl
  | cons handle handles ih =>
    rw [flatMap_cons, length_append, ih, length_cons]
    change 2 + _ = _
    omega

/-- As many octets as there are handles are copied, twice. -/
theorem reach_readMultiple {cid : U16} {handles : Sized U16} {conns conns' : Conns} (hready : ready conns cid = true)
    (hconn : (conns' cid).isSome = true) :
    reach p conns conns' (.readMultipleCharacteristicValues cid handles) =
      if handles.list = [] ∧ ¬ p.emptyBlock then .error .panic
      else .ok (some (.readMultiReq cid handles.list.length
        ((handles.list.flatMap octets).take handles.list.length))) := by
  have hlength := length_flatMap_octets handles.list
  have hfront : ((handles.list.flatMap octets).take handles.list.length).length = handles.list.length :=
    length_take_of_le (by omega)
  rw [reach, queue, gattReadMultipleCharacteristicValuesRequest, if_pos hready,
    memmove_eq (length_makeGattMessageWithLen Nat.two_pos) (by omega), ok_bind]
  change gattMessageHandler p conns' (.readMultipleReq cid handles.list.length _) = _
  rw [gattMessageHandler, if_pos hconn, gattReadMultiReq]
  by_cases hempty : handles.list = [] ∧ ¬ p.emptyBlock
  · rw [if_pos hempty, hempty.1]
    exact congrArg (fun e => some <$> (e >>= _)) (panicUnlessMalloc_panic hempty.2)
  · have hblock : handles.list ≠ [] ∨ p.emptyBlock := by
      rcases not_and_or.mp hempty with h | h
      · exact .inl h
      · exact .inr (not_not.mp h)
    have hcopy := @memmove_block p ((handles.list.flatMap octets).take handles.list.length)
    rw [hfront] at hcopy
    rw [if_neg hempty, panicUnlessMalloc_value hblock, ok_bind, hcopy, ok_bind]
    rfl

theorem carried_readMultiple {cid : U16} {handles : Sized U16} :
    Carried p (.readMultipleCharacteristicValues cid handles) ↔ handles.list = [] ∧ p.emptyBlock := by
  constructor
  · intro hcarried
    have hreach := hcarried.connected (fun _ => some false) (fun _ => some false) ⟨rfl, rfl⟩
    rw [reach_readMultiple rfl rfl] at hreach
    by_cases hempty : handles.list = [] ∧ ¬ p.emptyBlock
    · rw [if_pos hempty] at hreach
      revert hreach
      rintro ⟨⟩
    · rw [if_neg hempty] at hreach
      -- the list is twice as long as the copy
      have hlist : (handles.list.flatMap octets).take handles.list.length = handles.list.flatMap octets := by
        have hprim := Option.some.inj (Except.ok.inj hreach)
        injection hprim
      have hlength := congrArg List.length hlist
      have hdouble := length_flatMap_octets handles.list
      rw [length_take_of_le (by omega)] at hlength
      have hnil : handles.list = [] := length_eq_zero_iff.mp (by omega)
      exact ⟨hnil, by_contra fun hblock => hempty ⟨hnil, hblock⟩⟩
  · rintro ⟨hnil, hblock⟩
    refine ⟨fun conns conns' hconn => ?_, fun conns conns' hconn => ?_⟩
    · obtain ⟨hready, hsome⟩ : ready conns cid = true ∧ (conns' cid).isSome = true := hconn
      rw [reach_readMultiple hready hsome, if_neg fun h => h.2 hblock, Request.prim, hnil]
      rfl
    · by_cases hready : ready conns cid = true
      · refine .inr ?_
        have hlost : ¬ (conns' cid).isSome = true := fun hsome => hconn ⟨hready, hsome⟩
        rw [reach, queue, gattReadMultipleCharacteristicValuesRequest, if_pos hready,
          memmove_eq (length_makeGattMessageWithLen Nat.two_pos) (by rw [length_flatMap_octets]; omega), ok_bind]
        exact if_neg hlost
      · rw [reach, queue, gattReadMultipleCharacteristicValuesRequest, if_neg hready]
        exact .inl rfl

/-! ### The result -/

/-- For each request, over each platform: it reaches ATT as it was made if and only if it is no list of handles, and
either its value is not empty or a block may be. -/
theorem carried_iff {request : Request} : Carried p request ↔ Fits p request := by
  cases request with
  | writeWithoutResponse | signedWriteWithoutResponse | writeCharacteristicValue
  | writeLongCharacteristicValue | reliableWritePrepare => exact carried_write (fun _ => rfl) rfl fun _ _ => rfl
  | notification | indication => exact iff_of_true (carried_handleValue (fun _ => rfl) rfl fun _ _ => rfl) trivial
  | accessResponse cid handle result value =>
    exact iff_of_true (carried_accessResponse cid handle result value) trivial
  | readMultipleCharacteristicValues => exact carried_readMultiple

end

/-- Each request, over each platform. -/
def AlwaysCarried : Prop := ∀ (p : Platform) (request : Request), Carried p request

/-- A list of the handles `0x0102` and `0x0304`, of which the first reaches ATT. -/
theorem not_alwaysCarried : ¬ AlwaysCarried := by
  intro halways
  have hcarried := halways ⟨0, true, fun _ => 0⟩ (.readMultipleCharacteristicValues 1 ⟨[0x0102, 0x0304], by decide⟩)
  have hreach := hcarried.connected (fun _ => some false) (fun _ => some false) ⟨rfl, rfl⟩
  rw [reach_readMultiple rfl rfl] at hreach
  revert hreach
  decide

end Cbps.Gatt.Queued
