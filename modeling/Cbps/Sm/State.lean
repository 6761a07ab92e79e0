import Cbps.Tdl.Operations

/-!
# The state of the security manager handler

`connectionSmState` as the handlers of settings, of authentication and of received keys use it, the conversions of
the values that the stack reports, and `endAuthentication`, which eight handlers call. A handler gives back the new
state and the `Effect`s of the call, in order: messages to clients, primitives for the stack, and messages to the
library itself.
-/

namespace Cbps.Sm

open Tdl (Bdaddr TypedBdaddr)

/-- `Task`, of which 0 is none. -/
abbrev Task := ℕ

/-- `connectionGetCmTask`. -/
def cmTask : Task := 1

/-- `cl_dm_bt_version`. -/
inductive BtVersion
  | bluetoothUnknown
  | bluetooth2_0
  | bluetooth2_1
  | bluetooth3_0
  | bluetooth4_0
  | bluetooth4_1
  | bluetooth4_2
  deriving DecidableEq, Repr

/-- The versions from `bluetooth2_1` on. -/
def BtVersion.atLeast2_1 : BtVersion → Bool
  | .bluetoothUnknown | .bluetooth2_0 => false
  | _ => true

/-- `dm_security_mode`. -/
inductive DmSecurityMode
  | secMode0Off
  | secMode1NonSecure
  | secMode2Service
  | secMode3Link
  | secMode4Ssp
  | secMode2aDevice
  | secModeUnknown
  deriving DecidableEq, Repr

/-- The two modes in which a bonding request starts the authentication, and not a change of the mode. -/
def DmSecurityMode.bonds (mode : DmSecurityMode) : Prop := mode = .secMode4Ssp ∨ mode = .secMode2Service

instance (mode : DmSecurityMode) : Decidable mode.bonds := inferInstanceAs (Decidable (_ ∨ _))

/-- `sm_init_msg_type`. -/
inductive SmInitMsg
  | smInitSetNone
  | smInitSetSecurityMode
  | smInitSetSecurityConfig
  | smInitSetSecurityDefault
  deriving DecidableEq, Repr

/-- `cl_sm_wae`, and the `DM_SM_WAE` values of the stack alike. -/
inductive WriteAuthEnable
  | never
  | aclNone
  | aclOwnerNone
  | aclOwnerApp
  | aclOwnerL2cap
  | always
  deriving DecidableEq, Repr

/-! ### Values that the stack reports -/

/-- `authentication_status`. -/
inductive AuthenticationStatus
  | success
  | timeout
  | fail
  | repeatAttempts
  | pairingNotAllowed
  | unitKeyUnsupported
  | simplePairingUnsupported
  | hostBusyPairing
  deriving DecidableEq, Repr

/-- `connectionConvertAuthStatus`. -/
def connectionConvertAuthStatus (status : ℕ) : AuthenticationStatus :=
  match status with
  | 0x00 => .success
  | 0x04 => .timeout
  | 0x17 => .repeatAttempts
  | 0x18 => .pairingNotAllowed
  | 0x26 => .unitKeyUnsupported
  | 0x37 => .simplePairingUnsupported
  | 0x38 => .hostBusyPairing
  | _ => .fail

/-- `cl_sm_link_key_type`. -/
inductive LinkKeyType
  | none
  | legacy
  | debug
  | unauthenticatedP192
  | authenticatedP192
  | changed
  | unauthenticatedP256
  | authenticatedP256
  deriving DecidableEq, Repr

/-- `connectionConvertLinkKeyType`. The word passed to its `uint8_t` parameter loses its high octet. -/
def connectionConvertLinkKeyType (linkKeyType : ℕ) : LinkKeyType :=
  match linkKeyType % 256 with
  | 0x00 => .legacy
  | 0x03 => .debug
  | 0x04 => .unauthenticatedP192
  | 0x05 => .authenticatedP192
  | 0x06 => .changed
  | 0x07 => .unauthenticatedP256
  | 0x08 => .authenticatedP256
  | _ => .none

/-- `HCI_MITM_NOT_REQUIRED_DEDICATED_BONDING`. -/
def dedicatedBonding : BitVec 4 := 0x02

/-- `HCI_MITM_NOT_REQUIRED_GENERAL_BONDING`. -/
def generalBonding : BitVec 4 := 0x04

/-- `AUTH_REQ_UNKNOWN`. -/
def authReqUnknown : BitVec 4 := 0x08

/-! ### State and effects -/

/-- `connectionSmState`. -/
structure SmState where
  securityMode : DmSecurityMode
  encMode : ℕ := 0
  authenticationRequirements : BitVec 4 := authReqUnknown
  smInitMsg : SmInitMsg := .smInitSetNone
  setSecurityModeLock : Task := 0
  authReqLock : Task := 0
  authRemoteAddr : Bdaddr := ⟨0, 0, 0⟩
  permanentTaddr : Option TypedBdaddr := none
  deriving DecidableEq, Repr

/-- `BdaddrIsZero`. -/
def bdaddrIsZero (addr : Bdaddr) : Bool := addr = ⟨0, 0, 0⟩

/-- `CL_SM_AUTHENTICATE_CFM_T`. -/
structure AuthenticateCfm where
  bdAddr : Bdaddr
  status : AuthenticationStatus
  keyType : LinkKeyType
  bonded : Bool
  deriving DecidableEq, Repr

/-- `CL_INTERNAL_SM_SET_SC_MODE_REQ_T`. -/
structure SetScModeReq where
  theAppTask : Task
  mode : DmSecurityMode
  mode3Enc : ℕ
  deriving DecidableEq, Repr

/-- `DM_SM_INIT_REQ_T`: the options it sets. -/
structure InitReq where
  securityMode : Option DmSecurityMode := none
  mode3Enc : Option ℕ := none
  securityLevelDefault : Option ℕ := none
  debugMode : Option Bool := none
  legacyAutoPair : Option Bool := none
  writeAuthEnable : Option WriteAuthEnable := none
  deriving DecidableEq, Repr

/-- What a handler does beside changing the state. -/
inductive Effect
  | authenticateCfm (client : Task) (cfm : AuthenticateCfm)
  | readLocalOobDataCfm (client : Task) (status : ℕ)
  | bleSimplePairingCompleteInd (client : Task) (permanentTaddr : Option TypedBdaddr)
  | securityLevelCfm (client : Task) (success : Bool)
  | secModeConfigCfm (client : Task) (success : Bool) (wae : WriteAuthEnable) (debugKeys : Bool)
  | aclOpenReq (addr : Bdaddr)
  | aclCloseReq (addr : Bdaddr)
  | bondingReq (addr : Bdaddr)
  | bondingCancelReq (addr : Bdaddr) (force : Bool)
  | readLocalOobDataReq
  | registerReq (securityLevel : ℕ)
  | initReq (req : InitReq)
  | setScModeReq (req : SetScModeReq)
  | deleteAuthDevice (addr : Bdaddr)
  | sendTimeout (delay : ℕ)
  | cancelTimeout
  | panic
  deriving DecidableEq, Repr

/-- `connectionSendAuthenticateCfm`. -/
def connectionSendAuthenticateCfm (task : Task) (cfm : AuthenticateCfm) : List Effect :=
  if task = 0 then [] else [.authenticateCfm task cfm]

/-- `ConnectionSmSetSecurityMode`. -/
def connectionSmSetSecurityMode (theAppTask : Task) (mode : DmSecurityMode) (encMode : ℕ) : List Effect :=
  [.setScModeReq ⟨theAppTask, mode, encMode⟩]

/-- `endAuthentication`: the confirm of a failure. -/
def failureCfm (sm : SmState) (status : AuthenticationStatus) : List Effect :=
  if status = .success then []
  else connectionSendAuthenticateCfm sm.authReqLock ⟨sm.authRemoteAddr, status, .none, false⟩

/-- `endAuthentication`: a timeout takes the link down, all other ends cancel the timeout. -/
def endLink (sm : SmState) (status : AuthenticationStatus) : List Effect :=
  if status ≠ .timeout then [.cancelTimeout]
  else if sm.securityMode.bonds then [.bondingCancelReq sm.authRemoteAddr false]
  else [.aclCloseReq sm.authRemoteAddr]

/-- `endAuthentication`. -/
def endAuthentication (sm : SmState) (status : AuthenticationStatus) : SmState × List Effect :=
  let cleared := { sm with authRemoteAddr := ⟨0, 0, 0⟩ }
  if sm.securityMode.bonds then ({ cleared with authReqLock := 0 }, failureCfm sm status ++ endLink sm status)
  else (cleared, failureCfm sm status ++ endLink sm status ++
    connectionSmSetSecurityMode cmTask sm.securityMode sm.encMode)

end Cbps.Sm
