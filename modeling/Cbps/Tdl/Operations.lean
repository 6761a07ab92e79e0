import Cbps.Tdl.Store

/-!
# Operations on the trusted device list

The entry points of the trusted device list, each as a function of the store: they find the
device, change its record, its attribute or its place in the index, and tell the Security
Manager. `perform` runs one of them.
-/

namespace Cbps.Tdl

variable (cfg : Config)

/-! ### Priority -/

/-- The loop of `ConnectionAuthSetPriorityDevice` with `turns` turns left: the device moves
behind the priority devices that follow it. A record that cannot be retrieved leaves the one
read before in `td`. -/
def sinkBehindPriority (s : Store) : (turns index : ℕ) → TdData → List ℕ → List ℕ
  | 0, _, _, order => order
  | turns + 1, index, td, order =>
    let pos := order.getD index tdiUnused
    if pos = tdiUnused then order else
      let td := (s.record pos).getD td
      if td.content.priorityDevice then
        sinkBehindPriority s turns (index + 1) td
          ((order.set index (order.getD (index - 1) tdiUnused)).set (index - 1) pos)
      else order

/-- `ConnectionAuthSetPriorityDevice`. -/
def connectionAuthSetPriorityDevice (s : Store) (bdAddr : Bdaddr) (isPriorityDevice : Bool) :
    Bool × Store :=
  match tdlFindDevice cfg s ⟨.publicAddr, bdAddr⟩ with
  | (none, _, _) => (false, s)
  | (some td, pos, idx) =>
    let td := td.setPriority isPriorityDevice
    let s := s.storeRecord pos (some td)
    let s := updateTrustedDeviceIndex cfg s pos idx
    if isPriorityDevice then (true, s) else
      let order := readTrustedDeviceIndex cfg.target s
      (true, storeTrustedDeviceIndex cfg.target s
        (sinkBehindPriority s (maxNoDevicesToManage - 1) 1 td order))

/-! ### Adding and updating devices -/

/-- `DM_SM_LINK_KEY_DEBUG`. -/
def dmSmLinkKeyDebug : ℕ := 3

/-- `DM_SM_LINK_KEY_AUTHENTICATED_P192`. -/
def dmSmLinkKeyAuthenticatedP192 : ℕ := 5

/-- `DM_SM_LINK_KEY_AUTHENTICATED_P256`. -/
def dmSmLinkKeyAuthenticatedP256 : ℕ := 8

/-- `DM_SM_SECURITY_BONDING`. -/
def dmSmSecurityBonding : BitVec 16 := 0x0001

/-- `DM_SM_SECURITY_MITM_PROTECTION`. -/
def dmSmSecurityMitmProtection : BitVec 16 := 0x0004

/-- `DM_SM_SECURITY_ENCRYPTION`. -/
def dmSmSecurityEncryption : BitVec 16 := 0x4000

/-- `CL_INTERNAL_SM_ADD_AUTH_DEVICE_REQ_T`. -/
structure AddAuthDeviceReq where
  bdAddr : Bdaddr
  linkKeyType : ℕ
  linkKey : List ℕ
  trusted : Bool
  bonded : Bool
  deriving DecidableEq, Repr

namespace AddAuthDeviceReq

/-- The words of `enc_bredr`. -/
def encBredr (req : AddAuthDeviceReq) : List ℕ := req.linkKeyType :: req.linkKey

/-- The device is bonded with a key that may be kept. -/
def isStored (req : AddAuthDeviceReq) : Bool := req.bonded && req.linkKeyType != dmSmLinkKeyDebug

/-- The security requirements that go with the link key. -/
def secReq (req : AddAuthDeviceReq) : BitVec 16 :=
  if req.isStored then
    if req.linkKeyType = dmSmLinkKeyAuthenticatedP192 ∨
        req.linkKeyType = dmSmLinkKeyAuthenticatedP256 then
      dmSmSecurityEncryption ||| dmSmSecurityBonding ||| dmSmSecurityMitmProtection
    else dmSmSecurityEncryption ||| dmSmSecurityBonding
  else dmSmSecurityEncryption

end AddAuthDeviceReq

/-- A new record for the device. -/
def newRecord (t : Target) (device : TypedBdaddr) : TdData :=
  packTdBdaddr (TdData.calloc t) device.type device.addr

/-- The record `connectionAuthAddDevice` makes of the one that was found. -/
def addDeviceRecord (t : Target) (found : Option TdData) (req : AddAuthDeviceReq) : TdData :=
  let td := found.getD (newRecord t ⟨.publicAddr, req.bdAddr⟩)
  let td := (packTdKey t td req.encBredr .encBredr).1
  packTdSecurityRequirements (td.setTrusted req.trusted) req.secReq

/-- The record keeps the device and its priority flag. -/
theorem sameDevice_addDeviceRecord (t : Target) (found : Option TdData) (req : AddAuthDeviceReq) :
    unpackTdBdaddr (addDeviceRecord t found req) =
        unpackTdBdaddr (found.getD (newRecord t ⟨.publicAddr, req.bdAddr⟩)) ∧
      (addDeviceRecord t found req).content.priorityDevice =
        (found.getD (newRecord t ⟨.publicAddr, req.bdAddr⟩)).content.priorityDevice := by
  have hkey := sameDevice_packTdKey t (found.getD (newRecord t ⟨.publicAddr, req.bdAddr⟩))
    req.encBredr .encBredr
  exact ⟨hkey.device, hkey.priorityDevice⟩

/-- `connectionAuthAddDevice`. -/
def connectionAuthAddDevice (s : Store) (req : AddAuthDeviceReq) : Bool × Store :=
  match tdlFindDevice cfg s ⟨.publicAddr, req.bdAddr⟩ with
  | (found, pos, idx) =>
    let s := if !req.bonded && found.isSome then deleteFromTrustedDeviceList cfg s pos idx else s
    let td := addDeviceRecord cfg.target found req
    if req.isStored then
      let s := s.storeRecord pos (some td)
      let s := updateTrustedDeviceIndex cfg s pos idx
      let (ok, s) := connectionAuthSetPriorityDevice cfg s req.bdAddr false
      (ok, s.vmSendDmPrim (.addDeviceReq (dmSmAddDeviceReq cfg.target td)))
    else (true, s.vmSendDmPrim (.addDeviceReq (dmSmAddDeviceReq cfg.target td)))

/-- The record `connectionAuthUpdateTdl` makes of the one that was found. -/
def updateRecord (t : Target) (found : Option TdData) (device : TypedBdaddr) (keys : DmSmKeys) :
    TdData :=
  (packKeys t (found.getD (newRecord t device)) keys).1

/-- `connectionAuthUpdateTdl`. -/
def connectionAuthUpdateTdl (s : Store) (device : TypedBdaddr) (keys : DmSmKeys) : Store :=
  match tdlFindDevice cfg s device with
  | (found, pos, idx) =>
    let s := s.storeRecord pos (some (updateRecord cfg.target found device keys))
    updateTrustedDeviceIndex cfg s pos idx

/-- `connectionAuthUpdateMru`. -/
def connectionAuthUpdateMru (s : Store) (peerBdAddr : Bdaddr) : Bool × Store :=
  match tdlFindDevice cfg s ⟨.publicAddr, peerBdAddr⟩ with
  | (none, _, _) => (false, s)
  | (some _, pos, idx) => (true, updateTrustedDeviceIndex cfg s pos idx)

/-- `connectionAuthSetTrustLevel`. -/
def connectionAuthSetTrustLevel (s : Store) (peerBdAddr : Bdaddr) (trusted : Bool) :
    Bool × Store :=
  match tdlFindDevice cfg s ⟨.publicAddr, peerBdAddr⟩ with
  | (none, _, _) => (false, s)
  | (some td, pos, _) =>
    let td := td.setTrusted trusted
    let s := s.storeRecord pos (some td)
    (true, s.vmSendDmPrim (.addDeviceReq (dmSmAddDeviceReq cfg.target td)))

/-! ### Deleting devices -/

/-- `connectionAuthDeleteDevice`. -/
def connectionAuthDeleteDevice (s : Store) (device : TypedBdaddr) : Bool × Store :=
  match tdlFindDevice cfg s device with
  | (none, _, _) => (false, s)
  | (some td, pos, idx) =>
    if td.content.priorityDevice then (false, s)
    else (true, deleteFromTrustedDeviceList cfg (s.vmSendDmPrim (.removeDeviceReq device)) pos idx)

/-- `connectionAuthDeleteDeviceFromTdl`. -/
def connectionAuthDeleteDeviceFromTdl (s : Store) (device : TypedBdaddr) : Store :=
  match tdlFindDevice cfg s device with
  | (none, _, _) => s
  | (some _, pos, idx) => deleteFromTrustedDeviceList cfg s pos idx

/-- One turn of the loop of `connectionAuthDeleteAllDevice`. -/
def deleteAllTurn (st : Store × List ℕ × Bool) (rec : ℕ) : Store × List ℕ × Bool :=
  let (s, order, deleted) := st
  let pos := order.getD rec tdiUnused
  if pos = tdiUnused then (s, order, deleted) else
    match s.record pos with
    | none => (s, order, deleted)
    | some td =>
      if td.content.priorityDevice then (s, order, deleted)
      else
        (((s.storeRecord pos none).vmSendDmPrim (.removeDeviceReq (unpackTdBdaddr td))).storeAttribute
          pos [], order.set rec tdiUnused, true)

/-- `connectionAuthDeleteAllDevice`. -/
def connectionAuthDeleteAllDevice (s : Store) : Bool × Store :=
  let (s, order, deleted) := (List.range cfg.tdlNumberOfDevices).foldl deleteAllTurn
    (s, readTrustedDeviceIndex cfg.target s, false)
  (deleted, if deleted then storeTrustedDeviceIndex cfg.target s order else s)

/-! ### Attributes -/

/-- `connectionAuthPutAttribute`. -/
def connectionAuthPutAttribute (s : Store) (device : TypedBdaddr) (psdata : List ℕ) : Store :=
  match tdlFindDevice cfg s device with
  | (none, _, _) => s
  | (some _, pos, _) => s.storeAttribute pos psdata

/-- `connectionAuthGetAttributeNow`: the data it returns, if it returns `TRUE`. -/
def connectionAuthGetAttributeNow (s : Store) (device : TypedBdaddr) (sizePsdata : ℕ) :
    Option (List ℕ) :=
  match tdlFindDevice cfg s device with
  | (none, _, _) => none
  | (some _, pos, _) =>
    if sizePsdata = 0 then some []
    else (s.attr pos).filter fun psdata => psdata.length ≤ sizePsdata

/-! ### Runs -/

/-- A call of the trusted device list. -/
inductive Call
  | addDevice (req : AddAuthDeviceReq)
  | updateTdl (device : TypedBdaddr) (keys : DmSmKeys)
  | updateMru (peerBdAddr : Bdaddr)
  | setTrustLevel (peerBdAddr : Bdaddr) (trusted : Bool)
  | setPriorityDevice (bdAddr : Bdaddr) (isPriorityDevice : Bool)
  | deleteDevice (device : TypedBdaddr)
  | deleteDeviceFromTdl (device : TypedBdaddr)
  | deleteAllDevice
  | putAttribute (device : TypedBdaddr) (psdata : List ℕ)
  deriving DecidableEq, Repr

/-- The store after one call. -/
def perform (s : Store) : Call → Store
  | .addDevice req => (connectionAuthAddDevice cfg s req).2
  | .updateTdl device keys => connectionAuthUpdateTdl cfg s device keys
  | .updateMru peerBdAddr => (connectionAuthUpdateMru cfg s peerBdAddr).2
  | .setTrustLevel peerBdAddr trusted => (connectionAuthSetTrustLevel cfg s peerBdAddr trusted).2
  | .setPriorityDevice bdAddr isPriorityDevice =>
    (connectionAuthSetPriorityDevice cfg s bdAddr isPriorityDevice).2
  | .deleteDevice device => (connectionAuthDeleteDevice cfg s device).2
  | .deleteDeviceFromTdl device => connectionAuthDeleteDeviceFromTdl cfg s device
  | .deleteAllDevice => (connectionAuthDeleteAllDevice cfg s).2
  | .putAttribute device psdata => connectionAuthPutAttribute cfg s device psdata

/-- The device that the call records, if it records one. -/
def Call.recorded : Call → Option TypedBdaddr
  | .addDevice req => if req.isStored then some ⟨.publicAddr, req.bdAddr⟩ else none
  | .updateTdl device _ => some device
  | _ => none

end Cbps.Tdl
