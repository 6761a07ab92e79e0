import Cbps.Sm.Keys

/-!
# The handlers of settings and of authentication

Each handler is given with the state it leaves and its effects. A request that finds its lock taken is put back with
`MessageSendConditionallyOnTask`; its handler then gives nothing back.
-/

namespace Cbps.Sm

open Tdl (Bdaddr TypedBdaddr)

/-! ### Settings -/

/-- `connectionConvertSecurityMode_t`. -/
def connectionConvertSecurityMode (mode : DmSecurityMode) : DmSecurityMode :=
  if mode = .secModeUnknown then .secMode0Off else mode

/-- `handleSetSecurityModeReq`. -/
def handleSetSecurityModeReq (sm : SmState) (req : SetScModeReq) : Option (SmState × List Effect) :=
  if sm.setSecurityModeLock ≠ 0 then none else
    let recorded := if sm.authReqLock = 0 then { sm with securityMode := req.mode, encMode := req.mode3Enc } else sm
    some ({ recorded with smInitMsg := .smInitSetSecurityMode, setSecurityModeLock := req.theAppTask },
      [.initReq {
        securityMode := some (connectionConvertSecurityMode req.mode)
        mode3Enc := some req.mode3Enc
        debugMode := some false
        legacyAutoPair := some true }])

/-- `CL_INTERNAL_SM_SET_SSP_SECURITY_LEVEL_REQ_T`: whether `ssp_sec_level` is a known level and `protocol_id` is
`protocol_unknown`, and the converted level. -/
structure SetSspSecurityLevelReq where
  levelKnown : Bool
  protocolUnknown : Bool
  securityLevel : ℕ
  deriving DecidableEq, Repr

/-- `handleSetSspSecurityLevelReq`. -/
def handleSetSspSecurityLevelReq (sm : SmState) (req : SetSspSecurityLevelReq) : SmState × List Effect :=
  if req.levelKnown then
    if req.protocolUnknown then
      ({ sm with smInitMsg := .smInitSetSecurityDefault }, [.initReq { securityLevelDefault := some req.securityLevel }])
    else (sm, [.registerReq req.securityLevel])
  else (sm, [])

/-- `CL_INTERNAL_SM_SEC_MODE_CONFIG_REQ_T`. -/
structure SecModeConfigReq where
  theAppTask : Task
  writeAuthEnable : WriteAuthEnable
  debugKeys : Bool
  legacyAutoPairKeyMissing : Bool
  deriving DecidableEq, Repr

/-- `handleSecModeConfigReq`. -/
def handleSecModeConfigReq (version : BtVersion) (sm : SmState) (req : SecModeConfigReq) :
    Option (SmState × List Effect) :=
  if version = .bluetoothUnknown then some (sm, [.secModeConfigCfm req.theAppTask false .never false])
  else if sm.setSecurityModeLock ≠ 0 then none
  else some ({ sm with smInitMsg := .smInitSetSecurityConfig, setSecurityModeLock := req.theAppTask },
    [.initReq {
      debugMode := some req.debugKeys
      legacyAutoPair := some req.legacyAutoPairKeyMissing
      writeAuthEnable := some req.writeAuthEnable }])

/-- `DM_SM_INIT_CFM_T`: the status, and the part of the settings that a confirm repeats. -/
structure InitCfm where
  status : ℕ
  writeAuthEnable : WriteAuthEnable
  debugMode : Bool
  deriving DecidableEq, Repr

/-- `handleInternalSetSecurityModeCfm`. -/
def handleInternalSetSecurityModeCfm (sm : SmState) (cfm : InitCfm) : SmState × List Effect :=
  if sm.authReqLock ≠ 0 ∧ cfm.status = 0 then
    if bdaddrIsZero sm.authRemoteAddr then ({ sm with authReqLock := 0 }, []) else (sm, [.aclOpenReq sm.authRemoteAddr])
  else (sm, [])

/-- `connectionHandleSetSecurityModeCfm`. -/
def connectionHandleSetSecurityModeCfm (sm : SmState) (cfm : InitCfm) : SmState × List Effect :=
  let handled := if sm.setSecurityModeLock = cmTask then handleInternalSetSecurityModeCfm sm cfm
    else (sm, if sm.setSecurityModeLock = 0 then [] else [.securityLevelCfm sm.setSecurityModeLock (cfm.status = 0)])
  ({ handled.1 with setSecurityModeLock := 0 }, handled.2)

/-- `connectionHandleConfigureSecurityCfm`. -/
def connectionHandleConfigureSecurityCfm (sm : SmState) (cfm : InitCfm) : SmState × List Effect :=
  ({ sm with setSecurityModeLock := 0 },
    if sm.setSecurityModeLock = 0 ∨ sm.setSecurityModeLock = cmTask then []
    else [.secModeConfigCfm sm.setSecurityModeLock (cfm.status = 0) cfm.writeAuthEnable cfm.debugMode])

/-- The handling of `DM_SM_INIT_CFM` in the state `connectionReady`. -/
def initCfmReady (sm : SmState) (cfm : InitCfm) : SmState × List Effect :=
  let handled := match sm.smInitMsg with
    | .smInitSetSecurityMode => connectionHandleSetSecurityModeCfm sm cfm
    | .smInitSetSecurityConfig => connectionHandleConfigureSecurityCfm sm cfm
    | .smInitSetSecurityDefault => (sm, [])
    | .smInitSetNone => (sm, [.panic])
  ({ handled.1 with smInitMsg := .smInitSetNone }, handled.2)

/-! ### Requests for an authentication -/

/-- `CL_INTERNAL_SM_AUTHENTICATION_REQ_T`. -/
structure AuthenticationReq where
  task : Task
  bdAddr : Bdaddr
  timeout : ℕ
  deriving DecidableEq, Repr

/-- `connectionHandleAuthenticationReq`. -/
def connectionHandleAuthenticationReq (sm : SmState) (req : AuthenticationReq) : Option (SmState × List Effect) :=
  if sm.authReqLock ≠ 0 then none else
    let started := { sm with authReqLock := req.task, authRemoteAddr := req.bdAddr }
    let common := [Effect.deleteAuthDevice req.bdAddr, .sendTimeout req.timeout]
    if sm.securityMode.bonds then
      some ({ started with authenticationRequirements := dedicatedBonding }, common ++ [.bondingReq req.bdAddr])
    else some (started, common ++ connectionSmSetSecurityMode cmTask .secMode3Link sm.encMode)

/-- `hci_error_unsupported_feature`. -/
def hciErrorUnsupportedFeature : ℕ := 0x11

/-- `connectionHandleReadLocalOobDataReq`. -/
def connectionHandleReadLocalOobDataReq (version : BtVersion) (sm : SmState) (task : Task) :
    Option (SmState × List Effect) :=
  if version.atLeast2_1 then
    if sm.authReqLock ≠ 0 then none else some ({ sm with authReqLock := task }, [.readLocalOobDataReq])
  else some (sm, [.readLocalOobDataCfm task hciErrorUnsupportedFeature])

/-- `connectionHandleReadLocalOobDataCfm`. -/
def connectionHandleReadLocalOobDataCfm (sm : SmState) (status : ℕ) : SmState × List Effect :=
  ({ sm with authReqLock := 0 },
    if sm.authReqLock = 0 then [] else [.readLocalOobDataCfm sm.authReqLock status])

/-- `connectionHandleCancelAuthenticationReq`. -/
def connectionHandleCancelAuthenticationReq (version : BtVersion) (sm : SmState) (task : Task) (force : Bool) :
    List Effect :=
  if sm.authReqLock ≠ task then []
  else if version.atLeast2_1 ∨ (version = .bluetooth2_0 ∧ sm.securityMode = .secMode2Service) then
    [.bondingCancelReq sm.authRemoteAddr force]
  else if force then [.aclCloseReq sm.authRemoteAddr] else []

/-! ### Events of an authentication -/

/-- `connectionHandleAuthenticationTimeout`. -/
def connectionHandleAuthenticationTimeout (sm : SmState) : SmState × List Effect := endAuthentication sm .timeout

/-- `connectionHandleSmBondingCfm`. -/
def connectionHandleSmBondingCfm (sm : SmState) (addr : Bdaddr) (status : ℕ) : SmState × List Effect :=
  if sm.authReqLock ≠ 0 ∧ sm.securityMode.bonds ∧ connectionConvertAuthStatus status ≠ .success ∧
      sm.authRemoteAddr = addr then
    endAuthentication sm (connectionConvertAuthStatus status)
  else (sm, [])

/-- `connectionHandleSmSimplePairingCompleteInd`: the part for a BLE connection. -/
def blePairingComplete (theAppTask : Task) (sm : SmState) : SmState × List Effect :=
  ({ sm with permanentTaddr := none }, [.bleSimplePairingCompleteInd theAppTask sm.permanentTaddr])

/-- `connectionHandleSmSimplePairingCompleteInd`: what a failure over BR/EDR does before the session is looked at. -/
def pairingFailed (theAppTask : Task) (sm : SmState) (addr : Bdaddr) (status : ℕ) : SmState × List Effect :=
  if status ≠ 0 then
    ({ sm with authenticationRequirements := authReqUnknown },
      if sm.authReqLock = 0 then
        connectionSendAuthenticateCfm theAppTask ⟨addr, connectionConvertAuthStatus status, .none, false⟩
      else [])
  else (sm, [])

/-- `connectionHandleSmSimplePairingCompleteInd`: the part for a BR/EDR connection. -/
def simplePairingComplete (theAppTask : Task) (sm : SmState) (addr : Bdaddr) (status : ℕ) :
    SmState × List Effect :=
  let failed := pairingFailed theAppTask sm addr status
  if sm.authReqLock = 0 then failed else
    let ended := endAuthentication failed.1 (connectionConvertAuthStatus status)
    (ended.1, failed.2 ++ ended.2)

/-- `connectionHandleDmAclOpenCfm`. -/
def connectionHandleDmAclOpenCfm (sm : SmState) (addr : Bdaddr) (success : Bool) : SmState × List Effect :=
  if sm.authReqLock = 0 then (sm, [])
  else if success then (sm, if sm.authRemoteAddr = addr then [.aclCloseReq sm.authRemoteAddr] else [])
  else endAuthentication sm .fail

/-- `connectionHandleDmAclOpenInd`. -/
def connectionHandleDmAclOpenInd (sm : SmState) (status : ℕ) : SmState × List Effect :=
  if sm.authReqLock ≠ 0 ∧ sm.securityMode.bonds ∧ connectionConvertAuthStatus status = .timeout then
    ((endAuthentication sm .timeout).1, .cancelTimeout :: (endAuthentication sm .timeout).2)
  else (sm, [])

/-- `connectionHandleDmAclClosedInd`. -/
def connectionHandleDmAclClosedInd (sm : SmState) (addr : Bdaddr) : SmState × List Effect :=
  if sm.authReqLock ≠ 0 ∧ sm.authRemoteAddr = addr ∧ ¬ sm.securityMode.bonds then endAuthentication sm .success
  else (sm, [])

/-- A permanent address that the indication carries is cached. -/
def SmState.cache (sm : SmState) : Option TypedBdaddr → SmState
  | none => sm
  | some taddr => { sm with permanentTaddr := some taddr }

/-- The BR/EDR keys of one `DM_SM_KEYS_IND`, in order. -/
def handleBredrKeys (theAppTask : Task) (bdAddr : Bdaddr) :
    List (List ℕ) → SmState × List Effect → SmState × List Effect
  | [], r => r
  | encBredr :: keys, (sm, effects) =>
    let (_, sm', effects') := handleBredrKey theAppTask sm bdAddr encBredr
    handleBredrKeys theAppTask bdAddr keys (sm', effects ++ effects')

/-! ### The loop over the key slots, seen by the security state -/

section Loop

variable {cfg : Tdl.Config} {theAppTask : Task} {ind : KeysInd} {sm : SmState} {store : Tdl.Store}
  {slots : List KeySlot}

/-- The BR/EDR keys in some slots. -/
def bredrWords (slots : List KeySlot) : List (List ℕ) :=
  (slots.filter fun slot => slot.type = .encBredr).map fun slot => slot.key.getD []

theorem handleBredrKeys_concat (addr : Bdaddr) (keys : List (List ℕ)) (words : List ℕ) (r : SmState × List Effect) :
    handleBredrKeys theAppTask addr (keys ++ [words]) r =
      ((handleBredrKey theAppTask (handleBredrKeys theAppTask addr keys r).1 addr words).2.1,
        (handleBredrKeys theAppTask addr keys r).2 ++
          (handleBredrKey theAppTask (handleBredrKeys theAppTask addr keys r).1 addr words).2.2) := by
  induction keys generalizing r with
  | nil => rfl
  | cons words' keys ih => exact ih _

/-- A turn of the loop that does not stop, for the security state: a BR/EDR key is handled, other slots are not. -/
theorem slotTurn_sm {h : Handling} {slot : KeySlot} (hlen : h.primU.length ≤ h.keyIdx) (hstop : h.stop = none)
    (hgoes : (slotTurn cfg theAppTask ind h slot).stop = none) :
    ((slotTurn cfg theAppTask ind h slot).sm, (slotTurn cfg theAppTask ind h slot).effects) =
        (if slot.type = .encBredr then
          ((handleBredrKey theAppTask h.sm ind.addrt.addr (slot.key.getD [])).2.1,
            h.effects ++ (handleBredrKey theAppTask h.sm ind.addrt.addr (slot.key.getD [])).2.2)
        else (h.sm, h.effects)) ∧
      (slotTurn cfg theAppTask ind h slot).primU.length ≤ (slotTurn cfg theAppTask ind h slot).keyIdx := by
  by_cases htype : slot.type = .none
  · rw [slotTurn_of_empty hstop htype]
    simp only [htype]
    exact ⟨rfl, by omega⟩
  by_cases hres : slot.type = .reserved
  · rw [slotTurn, if_neg (by simp [hstop]), hres]
    exact ⟨rfl, by dsimp only; omega⟩
  cases hkey : slot.key with
  | none =>
    rw [slotTurn_of_unfilled hstop htype hres hkey] at hgoes
    cases hgoes
  | some words =>
    by_cases hbredr : slot.type = .encBredr
    · rw [slotTurn_of_bredr hstop hbredr hkey, bredrTurn] at hgoes
      rw [slotTurn_of_bredr hstop hbredr hkey, bredrTurn, if_pos hbredr]
      split at hgoes
      · cases hgoes
      · rename_i encBredr hread
        -- the key that is read is the one that was moved there last
        have hpush : (h.primU ++ [words])[h.keyIdx]? = some encBredr := hread
        have hidx : h.keyIdx = h.primU.length := by
          obtain ⟨hlt, _⟩ := List.getElem?_eq_some_iff.mp hpush
          rw [List.length_append, List.length_singleton] at hlt
          omega
        rw [hidx] at hpush
        obtain rfl : words = encBredr := by simpa using hpush
        exact ⟨rfl, by simp [Handling.push, hidx]⟩
    · rw [slotTurn_of_other hstop htype hres hbredr hkey, if_neg hbredr]
      exact ⟨rfl, by simp [Handling.push]; omega⟩

/-- Where the loop runs to its end, the security state has seen the BR/EDR keys one after the other. -/
theorem slotLoop_eq_handleBredrKeys (hstop : (slotLoop cfg theAppTask ind sm store slots).stop = none) :
    ((slotLoop cfg theAppTask ind sm store slots).sm, (slotLoop cfg theAppTask ind sm store slots).effects) =
        handleBredrKeys theAppTask ind.addrt.addr (bredrWords slots) (sm, []) ∧
      (slotLoop cfg theAppTask ind sm store slots).primU.length ≤
        (slotLoop cfg theAppTask ind sm store slots).keyIdx := by
  induction slots using List.reverseRecOn with
  | nil => exact ⟨rfl, Nat.le_refl 0⟩
  | append_singleton slots slot ih =>
    rw [slotLoop_concat] at hstop ⊢
    have hbefore : (slotLoop cfg theAppTask ind sm store slots).stop = none := by
      by_contra hne
      rw [slotTurn_of_stopped (Option.isSome_iff_ne_none.mpr hne)] at hstop
      exact hne hstop
    obtain ⟨heq, hlen⟩ := ih hbefore
    obtain ⟨hsm, hlen'⟩ := slotTurn_sm hlen hbefore hstop
    refine ⟨hsm.trans ?_, hlen'⟩
    have hfst := congrArg Prod.fst heq
    have hsnd := congrArg Prod.snd heq
    dsimp only at hfst hsnd
    split
    · rename_i hbredr
      have hwords : bredrWords (slots ++ [slot]) = bredrWords slots ++ [slot.key.getD []] := by
        simp [bredrWords, hbredr]
      rw [hwords, handleBredrKeys_concat, hfst, hsnd]
    · rename_i hbredr
      have hwords : bredrWords (slots ++ [slot]) = bredrWords slots := by simp [bredrWords, hbredr]
      rw [hwords, ← heq]

theorem slotLoop_bredr :
    let ind : KeysInd := ⟨⟨.publicAddr, ⟨1, 0, 0⟩⟩, ⟨.publicAddr, ⟨0, 0, 0⟩⟩, 0, 16, 1, fun _ => ⟨some [4], 0⟩, by decide⟩
    let h := slotLoop ⟨.wordAddressed, 2, by decide, by decide⟩ 2 ind { securityMode := .secMode4Ssp } {} ind.slots
    (h.sm, h.effects) = handleBredrKeys 2 ind.addrt.addr (bredrWords ind.slots) ({ securityMode := .secMode4Ssp }, []) :=
  (slotLoop_eq_handleBredrKeys rfl).1

end Loop

end Cbps.Sm
