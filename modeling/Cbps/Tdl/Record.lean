import Cbps.Lib.Fields
import Cbps.Lib.Memory
import Mathlib.Tactic.IntervalCases

/-!
# Trusted device records

The packed record `td_data_t` of a trusted device: three words of address, one word of bit
fields and a variable area with the keys. `packTdKey` and `unpackTdKey` move key material into
and out of that area; both also report the ranges of the area they touch, in units of `sizeof`.

The source counts sizes with `sizeof` and then uses them as indices of an array of `u16`, so
what it does depends on how many units a `u16` has. `Target` is that choice: one unit on the
word-addressed target the library was written for, two with the types of `csrtypes.h`.
-/

namespace Cbps.Tdl

open Lib

/-! ### Targets -/

/-- What the C implementation leaves open. `wordAddressed`: `sizeof(u16)` is one.
`octetAddressed`: it is two, `wideInt` says that `unsigned` has 32 bits (and not 16), and
`stack k` is the second word of the uninitialised local array of the `k`-th index store. -/
inductive Target
  | wordAddressed
  | octetAddressed (wideInt : Bool) (stack : ℕ → ℕ)

namespace Target

/-- `sizeof(u16)`. -/
def wordSize : Target → ℕ
  | wordAddressed => 1
  | octetAddressed .. => 2

/-- `SIZE_TD` less the offset of `data`: what the padding at the end of `td_data_t` adds. A
32-bit `content_t` aligns the structure to four octets. -/
def tail : Target → ℕ
  | octetAddressed true _ => 2
  | _ => 0

/-- The units of a list of `u16`, low octet first. -/
def units (t : Target) (words : List ℕ) : List ℕ :=
  match t with
  | wordAddressed => words
  | octetAddressed .. => words.flatMap fun word => [word % 256, word / 256]

theorem length_units (t : Target) (words : List ℕ) :
    (t.units words).length = t.wordSize * words.length := by
  cases t with
  | wordAddressed => simp [units, wordSize]
  | octetAddressed wideInt stack => simp [units, wordSize, Nat.mul_comm]

end Target

/-! ### Addresses -/

/-- `bdaddr`. -/
structure Bdaddr where
  lap : BitVec 24
  uap : BitVec 8
  nap : BitVec 16
  deriving DecidableEq, Repr

/-- The address types of a typed Bluetooth address. -/
inductive AddrType
  | publicAddr
  | randomAddr
  deriving DecidableEq, Repr

/-- `typed_bdaddr`, and `TYPED_BD_ADDR_T` alike. -/
structure TypedBdaddr where
  type : AddrType
  addr : Bdaddr
  deriving DecidableEq, Repr

/-! ### Keys -/

/-- `DM_SM_KEY_TYPE_T`, with the two values of its three bits that name no key. -/
inductive DmSmKeyType
  | none
  | encBredr
  | encCentral
  | div
  | sign
  | id
  | reserved
  deriving DecidableEq, Repr

/-- The values of the enumeration. -/
def DmSmKeyType.toNat : DmSmKeyType → ℕ
  | none => 0
  | encBredr => 1
  | encCentral => 2
  | div => 3
  | sign => 4
  | id => 5
  | reserved => 7

/-- The type that three bits name. -/
def DmSmKeyType.ofBits : ℕ → DmSmKeyType
  | 0 => none
  | 1 => encBredr
  | 2 => encCentral
  | 3 => div
  | 4 => sign
  | 5 => id
  | _ => reserved

/-- `DM_SM_MAX_NUM_KEYS`. -/
def dmSmMaxNumKeys : ℕ := 5

/-- `DM_SM_NUM_KEY_BITS`. -/
def dmSmNumKeyBits : ℕ := 3

/-- `DM_SM_KEYS_UPDATE_EXISTING`. -/
def dmSmKeysUpdateExisting : ℕ := 0x8000

/-- `TDL_DATA_TYPE_T`. -/
inductive TdlDataType
  | encBredr
  | encCentral
  | div
  | sign
  | id
  | unknown
  deriving DecidableEq, Repr

namespace TdlDataType

/-- The values of the enumeration. -/
def toNat : TdlDataType → ℕ
  | encBredr => 0
  | encCentral => 1
  | div => 2
  | sign => 3
  | id => 4
  | unknown => 5

/-- The types below `TDL_KEY_UNKNOWN`, in the order of the loops. -/
def all : List TdlDataType := [encBredr, encCentral, div, sign, id]

/-- The number of `u16` in a key. -/
def words : TdlDataType → ℕ
  | encBredr => 9
  | encCentral => 13
  | div => 1
  | id => 8
  | _ => 0

end TdlDataType

/-- `convert_dm_sm_to_tdl_key_type`. -/
def convertDmSmToTdlKeyType : DmSmKeyType → TdlDataType
  | .encBredr => .encBredr
  | .encCentral => .encCentral
  | .div => .div
  | .id => .id
  | _ => .unknown

/-- `get_data_type_size`. -/
def getDataTypeSize (t : Target) (keyType : TdlDataType) : ℕ := t.wordSize * keyType.words

/-! ### Records -/

/-- `content_t`. -/
structure Content where
  addrType : AddrType := .publicAddr
  trusted : Bool := false
  keySize : BitVec 4 := 0
  securityReq : BitVec 3 := 0
  priorityDevice : Bool := false
  dataFlags : BitVec 5 := 0
  deriving DecidableEq, Repr

/-- `content.data_flags & (1 << dt)`. -/
def Content.has (c : Content) (dt : TdlDataType) : Bool := c.dataFlags.getLsbD dt.toNat

/-- `td_data_t`. The units of the key area are `none` as long as nothing was stored there. -/
structure TdData where
  bdaddr0 : BitVec 16
  bdaddr1 : BitVec 16
  bdaddr2 : BitVec 16
  content : Content
  data : List (Option ℕ)
  deriving DecidableEq, Repr

/-- A cleared record of `SIZE_TD` units. -/
def TdData.calloc (t : Target) : TdData where
  bdaddr0 := 0
  bdaddr1 := 0
  bdaddr2 := 0
  content := {}
  data := List.replicate t.tail (some 0)

/-- `content.priority_device = ...`. -/
def TdData.setPriority (td : TdData) (isPriorityDevice : Bool) : TdData :=
  { td with content := { td.content with priorityDevice := isPriorityDevice } }

/-- `content.trusted = ...`. -/
def TdData.setTrusted (td : TdData) (trusted : Bool) : TdData :=
  { td with content := { td.content with trusted := trusted } }

/-- `PACK_TD_ENC_KEY_SIZE`. -/
def packTdEncKeySize (td : TdData) (encryptionKeySize : BitVec 16) : TdData :=
  { td with content := { td.content with keySize := ((encryptionKeySize - 6) &&& 0xF).setWidth 4 } }

/-- `UNPACK_TD_ENC_KEY_SIZE`. -/
def unpackTdEncKeySize (td : TdData) : BitVec 16 := td.content.keySize.setWidth 16 + 6

/-- `pack_td_bdaddr`. -/
def packTdBdaddr (td : TdData) (type : AddrType) (addr : Bdaddr) : TdData :=
  { td with
    content := { td.content with addrType := type }
    bdaddr0 := addr.nap
    bdaddr1 := (addr.uap.setWidth 16 <<< 8) ||| ((addr.lap &&& 0xFF0000) >>> 16).setWidth 16
    bdaddr2 := addr.lap.setWidth 16 }

/-- `unpack_td_bdaddr`, and `unpack_td_TYPED_BDADDR_T` alike. -/
def unpackTdBdaddr (td : TdData) : TypedBdaddr where
  type := td.content.addrType
  addr :=
    { nap := td.bdaddr0
      uap := (td.bdaddr1 >>> 8).setWidth 8
      lap := ((td.bdaddr1 &&& 0xFF).setWidth 24 <<< 16) ||| td.bdaddr2.setWidth 24 }

/-- `pack_td_security_requirements`: three of the bits are kept. -/
def packTdSecurityRequirements (td : TdData) (securityRequirements : BitVec 16) : TdData :=
  { td with
    content :=
      { td.content with
        securityReq := (securityRequirements &&& 0x5).setWidth 3 |||
          ((securityRequirements >>> 13) &&& 0x2).setWidth 3 } }

/-- `unpack_td_security_requirements`. -/
def unpackTdSecurityRequirements (td : TdData) : BitVec 16 :=
  (td.content.securityReq &&& 0x5).setWidth 16 ||| ((td.content.securityReq &&& 0x2).setWidth 16 <<< 13)

/-- The middle word holds the UAP over the top octet of the LAP. -/
private theorem toNat_bdaddr1 (lap : BitVec 24) (uap : BitVec 8) :
    ((uap.setWidth 16 <<< 8) ||| ((lap &&& 0xFF0000) >>> 16).setWidth 16).toNat =
      uap.toNat * 256 + lap.toNat / 65536 := by
  have huap := uap.isLt
  have hlap := lap.isLt
  have hshift : (lap &&& 0xFF0000) >>> 16 = lap >>> 16 := by
    rw [BitVec.ushiftRight_and_distrib]
    apply BitVec.eq_of_toNat_eq
    rw [toNat_and_mask (k := 8) rfl, BitVec.toNat_ushiftRight, Nat.shiftRight_eq_div_pow]
    omega
  rw [hshift, toNat_shiftLeft_or (by bv_omega) (by bv_omega)]
  bv_omega

/-- Unpacking gives the packed address back. -/
@[simp] theorem unpackTdBdaddr_packTdBdaddr (td : TdData) (type : AddrType) (addr : Bdaddr) :
    unpackTdBdaddr (packTdBdaddr td type addr) = ⟨type, addr⟩ := by
  obtain ⟨lap, uap, nap⟩ := addr
  have hword := toNat_bdaddr1 lap uap
  simp only [unpackTdBdaddr, packTdBdaddr, TypedBdaddr.mk.injEq, Bdaddr.mk.injEq, true_and,
    and_true]
  generalize (uap.setWidth 16 <<< 8) ||| ((lap &&& 0xFF0000) >>> 16).setWidth 16 = word at hword
  have hlow : (word &&& 0xFF).toNat = word.toNat % 2 ^ 8 := toNat_and_mask rfl
  have hlap := lap.isLt
  constructor
  · -- the LAP is put together from the low octet of the middle word and the last word
    apply BitVec.eq_of_toNat_eq
    rw [toNat_shiftLeft_or, BitVec.toNat_setWidth, hlow, hword] <;>
      simp only [BitVec.toNat_setWidth, hlow, hword] <;> omega
  · apply BitVec.eq_of_toNat_eq
    rw [BitVec.toNat_setWidth, BitVec.toNat_ushiftRight, hword, Nat.shiftRight_eq_div_pow]
    omega

/-- The bits `0x4005` of the security requirements come back. -/
theorem unpackTdSecurityRequirements_pack (td : TdData) (securityRequirements : BitVec 16) :
    unpackTdSecurityRequirements (packTdSecurityRequirements td securityRequirements) =
      securityRequirements &&& 0x4005 := by
  apply BitVec.eq_of_getLsbD_eq
  intro i hi
  simp only [unpackTdSecurityRequirements, packTdSecurityRequirements]
  interval_cases i <;> simp

/-- A key size of 6 to 21 octets comes back. -/
theorem unpackTdEncKeySize_pack (td : TdData) {encryptionKeySize : BitVec 16}
    (hmin : 6 ≤ encryptionKeySize) (hmax : encryptionKeySize ≤ 21) :
    unpackTdEncKeySize (packTdEncKeySize td encryptionKeySize) = encryptionKeySize := by
  have hmask : (encryptionKeySize - 6) &&& 0xF = encryptionKeySize - 6 := by
    apply BitVec.eq_of_toNat_eq
    rw [toNat_and_mask (k := 4) rfl]
    bv_omega
  rw [unpackTdEncKeySize, packTdEncKeySize, hmask]
  bv_omega

/-! ### The key area -/

/-- `calc_td_data_size`. -/
def calcTdDataSize (t : Target) (content : Content) : ℕ :=
  TdlDataType.all.foldl
    (fun size dt => if content.has dt then size + getDataTypeSize t dt else size) 0

/-- `calc_td_data_offset`. -/
def calcTdDataOffset (t : Target) (content : Content) (dataType : TdlDataType) : ℕ :=
  if dataType = .encBredr then 0 else
  let offset := if content.has .encBredr then getDataTypeSize t .encBredr else 0
  if dataType = .encCentral then offset else
  let offset := if content.has .encCentral then offset + getDataTypeSize t .encCentral else offset
  if dataType = .div then offset else
  if content.has .div then offset + getDataTypeSize t .div else offset

/-- The units of the key area: `SIZE_TD + calc_td_data_size` less the offset of `data`. -/
def areaSize (t : Target) (content : Content) : ℕ := t.tail + calcTdDataSize t content

/-- `realloc` of the record for this content: what is added is not initialised. -/
def reallocData (t : Target) (data : List (Option ℕ)) (content : Content) : List (Option ℕ) :=
  data.take (areaSize t content) ++ List.replicate (areaSize t content - data.length) none

/-- A range of the key area that is read or written, and the size of the area at that time. -/
structure Access where
  start : ℕ
  length : ℕ
  size : ℕ
  deriving DecidableEq, Repr

/-- The range lies in the area. -/
def Access.InBounds (a : Access) : Prop := a.length = 0 ∨ a.start + a.length ≤ a.size

instance (a : Access) : Decidable a.InBounds := inferInstanceAs (Decidable (_ ∨ _))

/-- `pack_td_key`. Offsets count units but index an array of `u16`. -/
def packTdKey (t : Target) (td : TdData) (key : List ℕ) (dmSmKeyType : DmSmKeyType) :
    TdData × List Access :=
  let keyType := convertDmSmToTdlKeyType dmSmKeyType
  let offset := calcTdDataOffset t td.content keyType
  let keySize := getDataTypeSize t keyType
  let room := if td.content.has keyType then (td, []) else
    let sizePrevData := calcTdDataSize t td.content
    let content := { td.content with dataFlags := td.content.dataFlags ||| 1 <<< keyType.toNat }
    let moved := sizePrevData - offset
    ({ td with
        content := content
        data := moveWithin (reallocData t td.data content) (t.wordSize * (offset + keySize))
          (t.wordSize * offset) moved },
      [⟨t.wordSize * (offset + keySize), moved, areaSize t content⟩,
        ⟨t.wordSize * offset, moved, areaSize t content⟩])
  ({ room.1 with
      data := writeAt room.1.data (t.wordSize * offset)
        ((readAt (t.units key) 0 keySize).map some) },
    room.2 ++ [⟨t.wordSize * offset, keySize, areaSize t room.1.content⟩])

/-- `unpack_td_key`. -/
def unpackTdKey (t : Target) (td : TdData) (keyType : TdlDataType) : List (Option ℕ) × Access :=
  let keySize := getDataTypeSize t keyType
  let offset := calcTdDataOffset t td.content keyType
  (readAt td.data (t.wordSize * offset) keySize,
    ⟨t.wordSize * offset, keySize, areaSize t td.content⟩)

/-! ### Primitives for the Security Manager -/

/-- `DM_SM_ADD_DEVICE_REQ_T`. A key of the union `u` is given by its units. -/
structure AddDeviceReq where
  addrt : TypedBdaddr
  privacy : Bool
  reconnectionBdAddr : Bdaddr
  trust : Bool
  securityRequirements : BitVec 16
  encryptionKeySize : BitVec 16
  present : ℕ
  u : List (List (Option ℕ))
  deriving DecidableEq, Repr

/-- The primitives that are sent to the Security Manager. -/
inductive DmPrim
  | addDeviceReq (req : AddDeviceReq)
  | removeDeviceReq (addrt : TypedBdaddr)
  deriving DecidableEq, Repr

/-- The type `dm_sm_add_device_req` gives a stored key. -/
def presentType : TdlDataType → DmSmKeyType
  | .encBredr => .encBredr
  | .encCentral => .encCentral
  | .div => .div
  | .id => .id
  | _ => .none

/-- The types of the stored keys, in the order in which `dm_sm_add_device_req` unpacks them. -/
def storedTypes (td : TdData) : List TdlDataType := TdlDataType.all.filter td.content.has

/-- `dm_sm_add_device_req`: the primitive. Slots without a key hold `DM_SM_KEY_NONE`, which adds
no bit to `present`. -/
def dmSmAddDeviceReq (t : Target) (td : TdData) : AddDeviceReq where
  addrt := unpackTdBdaddr td
  privacy := false
  reconnectionBdAddr := ⟨0, 0, 0⟩
  trust := td.content.trusted
  securityRequirements := unpackTdSecurityRequirements td
  encryptionKeySize := unpackTdEncKeySize td
  present := orFields dmSmNumKeyBits dmSmKeysUpdateExisting
    ((storedTypes td).map fun dt => (presentType dt).toNat)
  u := (storedTypes td).map fun dt => (unpackTdKey t td dt).1

/-- `dm_sm_add_device_req`: the ranges of the key area it reads. -/
def dmSmAddDeviceReqReads (t : Target) (td : TdData) : List Access :=
  (storedTypes td).map fun dt => (unpackTdKey t td dt).2

/-! ### Records and keys of an update -/

/-- `DM_SM_KEYS_T`: five slots, whose types are bit fields of `present`. A key of the union `u`
is given by its words. -/
structure DmSmKeys where
  securityRequirements : BitVec 16
  encryptionKeySize : BitVec 16
  present : ℕ
  u : List (List ℕ)
  deriving DecidableEq, Repr

/-- The keys that an `AddDeviceReq` carries, with their types. -/
def AddDeviceReq.carried (req : AddDeviceReq) : List (DmSmKeyType × List (Option ℕ)) :=
  (List.range dmSmMaxNumKeys).filterMap fun keyIdx =>
    match DmSmKeyType.ofBits (fieldAt dmSmNumKeyBits req.present keyIdx) with
    | .none => none
    | type => some (type, req.u.getD keyIdx [])

/-- The type of the key in a slot. -/
def DmSmKeys.typeAt (keys : DmSmKeys) (keyIdx : ℕ) : DmSmKeyType :=
  .ofBits (fieldAt dmSmNumKeyBits keys.present keyIdx)

/-- One turn of the loop of `connectionAuthUpdateTdl`. -/
def packSlot (t : Target) (keys : DmSmKeys) (packed : TdData × List Access) (keyIdx : ℕ) :
    TdData × List Access :=
  if keys.typeAt keyIdx = .none then packed else
    let packed' := packTdKey t packed.1 (keys.u.getD keyIdx []) (keys.typeAt keyIdx)
    (packed'.1, packed.2 ++ packed'.2)

/-- The packing of `connectionAuthUpdateTdl`, with the ranges of the key area it touches. -/
def packKeys (t : Target) (td : TdData) (keys : DmSmKeys) : TdData × List Access :=
  (List.range dmSmMaxNumKeys).foldl (packSlot t keys)
    (packTdEncKeySize (packTdSecurityRequirements td keys.securityRequirements)
      keys.encryptionKeySize, [])

/-! ### What packing leaves alone -/

/-- Two records of one device with the same flags: they differ in key material, key size and
security requirements at most. -/
structure TdData.SameDevice (td td' : TdData) : Prop where
  device : unpackTdBdaddr td' = unpackTdBdaddr td
  trusted : td'.content.trusted = td.content.trusted
  priorityDevice : td'.content.priorityDevice = td.content.priorityDevice

namespace TdData.SameDevice

variable {td td' td'' : TdData}

theorem refl (td : TdData) : td.SameDevice td := ⟨rfl, rfl, rfl⟩

theorem trans (h : td.SameDevice td') (h' : td'.SameDevice td'') : td.SameDevice td'' :=
  ⟨h'.device.trans h.device, h'.trusted.trans h.trusted,
    h'.priorityDevice.trans h.priorityDevice⟩

end TdData.SameDevice

theorem sameDevice_packTdSecurityRequirements (td : TdData) (securityRequirements : BitVec 16) :
    td.SameDevice (packTdSecurityRequirements td securityRequirements) := ⟨rfl, rfl, rfl⟩

theorem sameDevice_packTdEncKeySize (td : TdData) (encryptionKeySize : BitVec 16) :
    td.SameDevice (packTdEncKeySize td encryptionKeySize) := ⟨rfl, rfl, rfl⟩

theorem sameDevice_packTdKey (t : Target) (td : TdData) (key : List ℕ) (type : DmSmKeyType) :
    td.SameDevice (packTdKey t td key type).1 := by
  simp only [packTdKey]
  split
  · exact ⟨rfl, rfl, rfl⟩
  · exact ⟨rfl, rfl, rfl⟩

theorem sameDevice_packSlot (t : Target) (keys : DmSmKeys) (packed : TdData × List Access)
    (keyIdx : ℕ) : packed.1.SameDevice (packSlot t keys packed keyIdx).1 := by
  rw [packSlot]
  split
  · exact .refl _
  · exact sameDevice_packTdKey ..

theorem sameDevice_packKeys (t : Target) (td : TdData) (keys : DmSmKeys) :
    td.SameDevice (packKeys t td keys).1 := by
  have hslots : ∀ (slots : List ℕ) (packed : TdData × List Access),
      packed.1.SameDevice (slots.foldl (packSlot t keys) packed).1 := by
    intro slots
    induction slots with
    | nil => exact fun packed => .refl _
    | cons keyIdx slots ih =>
      exact fun packed => (sameDevice_packSlot t keys packed keyIdx).trans (ih _)
  have hstart := (sameDevice_packTdSecurityRequirements td keys.securityRequirements).trans
    (sameDevice_packTdEncKeySize _ keys.encryptionKeySize)
  exact hstart.trans (hslots (List.range dmSmMaxNumKeys) (_, []))

end Cbps.Tdl
