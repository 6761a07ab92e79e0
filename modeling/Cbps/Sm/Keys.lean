import Cbps.Sm.State
import Mathlib.Data.List.TakeWhile

/-!
# Keys received from a pairing

`connectionHandleSmKeysInd` walks over the five slots of the indication, moves the keys it finds to the front of the
keys of a `DM_SM_ADD_DEVICE_REQ`, and hands them to `connectionAuthUpdateTdl` if the last key it saw was a bonding
one. `StoresAsReceived` says what is to come of an indication: every key that may be kept is stored as it was held,
and nothing else is. Three things go wrong in the code. A BR/EDR key is read back at the index of its slot, and not
at the index it was moved to, which is a NULL read behind an empty slot; the first BR/EDR key forgets the
authentication requirements that decide about the next one; and one flag decides about all keys. `storesAsReceived_iff`
gives the indications that do not meet any of them.
-/

namespace Cbps.Sm

open Lib List Option

open Tdl (Bdaddr TypedBdaddr DmSmKeyType DmSmKeys Store Config dmSmMaxNumKeys dmSmNumKeyBits dmSmKeysUpdateExisting)

/-! ### The indication -/

/-- `DM_SM_UKEY_T` of a received key: the words behind the slot read as a handle, if it names memory, and the slot
read as a DIV. -/
structure UKey where
  pointer : Option (List ℕ)
  div : ℕ
  deriving DecidableEq, Repr

/-- A slot of the received keys, with the type that its bits of `present` name. -/
structure KeySlot where
  type : DmSmKeyType
  u : UKey
  deriving DecidableEq, Repr

/-- The words of the key in a slot, if there are any: `VmGetPointerFromHandle`, or the DIV itself. -/
def KeySlot.key (slot : KeySlot) : Option (List ℕ) :=
  if slot.type = .div then some [slot.u.div] else slot.u.pointer

/-- The type bits of a slot. -/
def typeAt (present keyIdx : ℕ) : DmSmKeyType := .ofBits (fieldAt dmSmNumKeyBits present keyIdx)

/-- `DM_SM_KEYS_IND_T`. Every slot is empty or names a type of the enumeration. -/
structure KeysInd where
  addrt : TypedBdaddr
  idAddrt : TypedBdaddr
  securityRequirements : BitVec 16
  encryptionKeySize : BitVec 16
  present : ℕ
  u : ℕ → UKey
  types : ∀ keyIdx ∈ List.range dmSmMaxNumKeys, typeAt present keyIdx ≠ .reserved

/-- The five slots of the indication. -/
def KeysInd.slots (ind : KeysInd) : List KeySlot :=
  (List.range dmSmMaxNumKeys).map fun keyIdx => ⟨typeAt ind.present keyIdx, ind.u keyIdx⟩

/-- `addrt_to_use`. -/
def KeysInd.addrtToUse (ind : KeysInd) : TypedBdaddr :=
  if bdaddrIsZero ind.idAddrt.addr then ind.addrt else ind.idAddrt

/-! ### The handler -/

/-- The two ways in which the handler does not return. -/
inductive Stop
  | panicNull
  | nullRead
  deriving DecidableEq, Repr

/-- The local state of the loop. `primU` are the first `new_idx` keys of the primitive; the others are NULL. -/
structure Handling where
  sm : SmState
  store : Store
  effects : List Effect := []
  divState : Option ℕ := none
  keyIdx : ℕ := 0
  primPresent : ℕ := 0
  primU : List (List ℕ) := []
  bonded : Bool := false
  stop : Option Stop := none

/-- The bits of `authentication_requirements` that mean bonding: `AUTH_BITS_SET`. -/
def authBitsSet (authenticationRequirements : BitVec 4) : Bool :=
  authenticationRequirements &&& (generalBonding ||| dedicatedBonding ||| authReqUnknown) ≠ 0

/-- Does a BR/EDR key of this type, from a pairing with these requirements, bond? -/
def bredrBonds (authenticationRequirements : BitVec 4) (keyType : LinkKeyType) : Bool :=
  keyType = .legacy ∨ (authBitsSet authenticationRequirements ∧ keyType ≠ .debug)

/-- The `link_key_type` of a BR/EDR key is its first word. -/
def bredrKeyType (encBredr : List ℕ) : LinkKeyType := connectionConvertLinkKeyType (encBredr.headD 0)

/-- `handleBredrKey`. -/
def handleBredrKey (theAppTask : Task) (sm : SmState) (bdAddr : Bdaddr) (encBredr : List ℕ) :
    Bool × SmState × List Effect :=
  let keyType := bredrKeyType encBredr
  let bonded := bredrBonds sm.authenticationRequirements keyType
  let ended := if sm.securityMode.bonds ∧ keyType = .legacy then endAuthentication sm .success else (sm, [])
  (bonded, { ended.1 with authenticationRequirements := authReqUnknown },
    ended.2 ++ connectionSendAuthenticateCfm theAppTask ⟨bdAddr, .success, keyType, bonded⟩)

/-- A key is moved to the front of the primitive. -/
def Handling.push (h : Handling) (type : DmSmKeyType) (words : List ℕ) : Handling :=
  { h with
    primU := h.primU ++ [words]
    primPresent := h.primPresent ||| type.toNat <<< (dmSmNumKeyBits * h.primU.length)
    divState := if type = .div then some (words.headD 0) else h.divState }

variable (cfg : Config) (theAppTask : Task)

/-- The second half of a turn with a BR/EDR key, which reads `prim->keys.u[key_idx]`. -/
def bredrTurn (ind : KeysInd) (h : Handling) : Handling :=
  match h.primU[h.keyIdx]? with
  | none => { h with stop := some .nullRead }
  | some encBredr =>
    let (bonded, sm, effects) := handleBredrKey theAppTask h.sm ind.addrt.addr encBredr
    { h with
      sm := sm
      effects := h.effects ++ effects
      bonded := bonded
      keyIdx := h.keyIdx + 1
      store := if bonded then h.store
        else Tdl.connectionAuthDeleteDeviceFromTdl cfg h.store ind.addrtToUse }

/-- One turn of the loop of `connectionHandleSmKeysInd`. -/
def slotTurn (ind : KeysInd) (h : Handling) (slot : KeySlot) : Handling :=
  if h.stop.isSome then h else
    match slot.type with
    | .none => { h with keyIdx := h.keyIdx + 1 }
    | .reserved => { h with keyIdx := h.keyIdx + 1, bonded := true }
    | type =>
      match slot.key with
      | none => { h with stop := some .panicNull }
      | some words =>
        if type = .encBredr then bredrTurn cfg theAppTask ind (h.push type words)
        else { h.push type words with keyIdx := h.keyIdx + 1, bonded := true }

/-- The loop of `connectionHandleSmKeysInd`. -/
def slotLoop (ind : KeysInd) (sm : SmState) (store : Store) (slots : List KeySlot) : Handling :=
  slots.foldl (slotTurn cfg theAppTask ind) { sm := sm, store := store }

/-- What comes of an indication: `updated` are the arguments of `connectionAuthUpdateTdl`, if it is called, and
`added` the keys of the primitive, if it is sent. -/
structure Outcome where
  sm : SmState
  store : Store
  effects : List Effect
  divState : Option ℕ
  updated : Option (TypedBdaddr × DmSmKeys) := none
  added : Option (TypedBdaddr × DmSmKeys) := none
  stop : Option Stop := none

/-- The keys of the primitive after the loop. -/
def Handling.keys (h : Handling) (ind : KeysInd) : DmSmKeys where
  securityRequirements := ind.securityRequirements
  encryptionKeySize := ind.encryptionKeySize
  present := h.primPresent ||| dmSmKeysUpdateExisting
  u := h.primU

/-- What `connectionHandleSmKeysInd` does after the loop. -/
def finish (ind : KeysInd) (h : Handling) : Outcome :=
  if h.stop.isSome then ⟨h.sm, h.store, h.effects, h.divState, none, none, h.stop⟩ else
    let call := (ind.addrtToUse, h.keys ind)
    ⟨h.sm, if h.bonded then Tdl.connectionAuthUpdateTdl cfg h.store call.1 call.2 else h.store, h.effects, h.divState,
      if h.bonded then some call else none, some call, none⟩

/-- The permanent address of a device that uses privacy is cached. -/
def cachePermanent (sm : SmState) (ind : KeysInd) : SmState :=
  if bdaddrIsZero ind.idAddrt.addr then sm else { sm with permanentTaddr := some ind.idAddrt }

/-- `connectionHandleSmKeysInd`. -/
def connectionHandleSmKeysInd (sm : SmState) (store : Store) (ind : KeysInd) : Outcome :=
  finish cfg ind (slotLoop cfg theAppTask ind (cachePermanent sm ind) store ind.slots)

/-! ### What is to come of an indication -/

/-- A key with its type. -/
abbrev Key := DmSmKeyType × List ℕ

/-- The keys that a `DM_SM_KEYS_T` names, in order. -/
def heldKeys (keys : DmSmKeys) : List Key :=
  (List.range dmSmMaxNumKeys).filterMap fun keyIdx =>
    match keys.typeAt keyIdx with
    | .none => none
    | type => some (type, keys.u.getD keyIdx [])

/-- The slot is empty, or its key pointer is not. -/
def KeySlot.Filled (slot : KeySlot) : Prop := slot.type = .none ∨ slot.key.isSome

instance (slot : KeySlot) : Decidable slot.Filled := inferInstanceAs (Decidable (_ ∨ _))

/-- The slots before the first empty key pointer. -/
def processed (slots : List KeySlot) : List KeySlot := slots.takeWhile fun slot => slot.Filled

/-- The slots that hold a key. -/
def occupied (slots : List KeySlot) : List KeySlot := slots.filter fun slot => slot.type ≠ .none

/-- The key of a slot, with its type. -/
def KeySlot.held (slot : KeySlot) : Key := (slot.type, slot.key.getD [])

/-- May the key of this slot be kept? All but a BR/EDR key of a pairing that does not bond. -/
def KeySlot.keeps (authenticationRequirements : BitVec 4) (slot : KeySlot) : Bool :=
  slot.type ≠ .encBredr ∨ bredrBonds authenticationRequirements (bredrKeyType (slot.key.getD []))

/-- The keys that are to be stored. -/
def storable (authenticationRequirements : BitVec 4) (slots : List KeySlot) : List Key :=
  ((occupied slots).filter (KeySlot.keeps authenticationRequirements)).map KeySlot.held

/-- The authenticate confirms among some effects. -/
def authenticateCfms (effects : List Effect) : List Effect :=
  effects.filter fun effect => match effect with
    | .authenticateCfm .. => true
    | _ => false

/-- The confirm about a BR/EDR key. -/
def bredrCfm (ind : KeysInd) (authenticationRequirements : BitVec 4) (slot : KeySlot) : AuthenticateCfm :=
  ⟨ind.addrt.addr, .success, bredrKeyType (slot.key.getD []), slot.keeps authenticationRequirements⟩

/-- The confirms about the BR/EDR keys among some slots. -/
def bredrCfms (ind : KeysInd) (authenticationRequirements : BitVec 4) (slots : List KeySlot) : List Effect :=
  (slots.filter fun slot => slot.type = .encBredr).flatMap fun slot =>
    connectionSendAuthenticateCfm theAppTask (bredrCfm ind authenticationRequirements slot)

/-- Some slot holds a key that can be read. -/
def KeysInd.Usable (ind : KeysInd) : Prop := ∃ slot ∈ ind.slots, slot.type ≠ .none ∧ slot.key.isSome

/-- **Keys are stored as received**: every key is read from memory that it holds; each BR/EDR key is confirmed with
its own type, as bonded exactly if its pairing bonds; what is handed to the trusted device list are exactly the keys
that may be kept; and without a usable key the list stays as it is. An empty key pointer ends the program, by
`PanicNull`. -/
structure StoresAsReceived (sm : SmState) (store : Store) (ind : KeysInd) : Prop where
  reads : (connectionHandleSmKeysInd cfg theAppTask sm store ind).stop ≠ some .nullRead
  confirms : authenticateCfms (connectionHandleSmKeysInd cfg theAppTask sm store ind).effects =
    bredrCfms theAppTask ind sm.authenticationRequirements (processed ind.slots)
  updated : (connectionHandleSmKeysInd cfg theAppTask sm store ind).stop = none →
    (connectionHandleSmKeysInd cfg theAppTask sm store ind).updated.map (fun call => (call.1, heldKeys call.2)) =
      if storable sm.authenticationRequirements ind.slots = [] then none
      else some (ind.addrtToUse, storable sm.authenticationRequirements ind.slots)
  security : ∀ call, (connectionHandleSmKeysInd cfg theAppTask sm store ind).updated = some call →
    call.2.securityRequirements = ind.securityRequirements ∧ call.2.encryptionKeySize = ind.encryptionKeySize
  unchanged : ¬ ind.Usable → (connectionHandleSmKeysInd cfg theAppTask sm store ind).store = store

/-! ### Turns of the loop -/

section Turns

variable {cfg : Config} {theAppTask : Task} {ind : KeysInd} {h : Handling} {slot : KeySlot} {words : List ℕ}

theorem slotTurn_of_stopped (hstop : h.stop.isSome) : slotTurn cfg theAppTask ind h slot = h := by
  rw [slotTurn, if_pos hstop]

theorem slotTurn_of_empty (hstop : h.stop = none) (htype : slot.type = .none) :
    slotTurn cfg theAppTask ind h slot = { h with keyIdx := h.keyIdx + 1 } := by
  simp [slotTurn, hstop, htype]

theorem slotTurn_of_unfilled (hstop : h.stop = none) (htype : slot.type ≠ .none) (hres : slot.type ≠ .reserved)
    (hkey : slot.key = none) : slotTurn cfg theAppTask ind h slot = { h with stop := some .panicNull } := by
  rw [slotTurn, hstop]
  split <;> simp_all

theorem slotTurn_of_other (hstop : h.stop = none) (htype : slot.type ≠ .none) (hres : slot.type ≠ .reserved)
    (hbredr : slot.type ≠ .encBredr) (hkey : slot.key = some words) :
    slotTurn cfg theAppTask ind h slot = { h.push slot.type words with keyIdx := h.keyIdx + 1, bonded := true } := by
  rw [slotTurn, hstop]
  split <;> simp_all

theorem slotTurn_of_bredr (hstop : h.stop = none) (hbredr : slot.type = .encBredr) (hkey : slot.key = some words) :
    slotTurn cfg theAppTask ind h slot = bredrTurn cfg theAppTask ind (h.push .encBredr words) := by
  simp [slotTurn, hstop, hbredr, hkey]

@[simp] theorem authenticateCfms_append (effects effects' : List Effect) :
    authenticateCfms (effects ++ effects') = authenticateCfms effects ++ authenticateCfms effects' :=
  filter_append ..

/-- A successful end sends no confirm. -/
theorem authenticateCfms_endAuthentication (sm : SmState) :
    authenticateCfms (endAuthentication sm .success).2 = [] := by
  rw [endAuthentication]
  split <;> simp [failureCfm, endLink, connectionSmSetSecurityMode, authenticateCfms]

/-- The one confirm about a BR/EDR key. -/
theorem authenticateCfms_handleBredrKey (happ : theAppTask ≠ 0) (sm : SmState) (bdAddr : Bdaddr) (words : List ℕ) :
    authenticateCfms (handleBredrKey theAppTask sm bdAddr words).2.2 =
      [.authenticateCfm theAppTask ⟨bdAddr, .success, bredrKeyType words,
        bredrBonds sm.authenticationRequirements (bredrKeyType words)⟩] := by
  simp only [handleBredrKey, authenticateCfms_append, connectionSendAuthenticateCfm, if_neg happ]
  split
  · rw [authenticateCfms_endAuthentication]
    rfl
  · rfl

end Turns

/-! ### The loop -/

/-- What a BR/EDR key asks of each slot before it: that it is not empty and, where it is a BR/EDR key as well, that
the requirements which that one forgets would make no difference. -/
def Before (authenticationRequirements : BitVec 4) (earlier slot : KeySlot) : Prop :=
  slot.type = .encBredr → earlier.type ≠ .none ∧
    (earlier.type = .encBredr → authBitsSet authenticationRequirements ∨
      bredrKeyType (slot.key.getD []) = .legacy ∨ bredrKeyType (slot.key.getD []) = .debug)

instance (authenticationRequirements : BitVec 4) (earlier slot : KeySlot) :
    Decidable (Before authenticationRequirements earlier slot) := inferInstanceAs (Decidable (_ → _))

theorem bredrBonds_unknown_eq_iff (authenticationRequirements : BitVec 4) (keyType : LinkKeyType) :
    bredrBonds authReqUnknown keyType = bredrBonds authenticationRequirements keyType ↔
      authBitsSet authenticationRequirements ∨ keyType = .legacy ∨ keyType = .debug := by
  have hunknown : authBitsSet authReqUnknown = true := by decide
  simp only [bredrBonds, hunknown]
  cases authBitsSet authenticationRequirements <;> cases keyType <;> decide

section Loop

variable {cfg : Config} {theAppTask : Task} {ind : KeysInd} {sm : SmState} {store : Store} {slots : List KeySlot}
  {slot : KeySlot}

theorem slotLoop_concat : slotLoop cfg theAppTask ind sm store (slots ++ [slot]) =
    slotTurn cfg theAppTask ind (slotLoop cfg theAppTask ind sm store slots) slot := by
  rw [slotLoop, foldl_concat]
  rfl

theorem occupied_concat : occupied (slots ++ [slot]) =
    occupied slots ++ if slot.type = .none then [] else [slot] := by
  rw [occupied, filter_append]
  split <;> simp_all [occupied]

theorem processed_of_filled (hfilled : ∀ s ∈ slots, s.Filled) : processed slots = slots := by
  rw [processed, takeWhile_eq_self_iff]
  exact fun s hs => decide_eq_true (hfilled s hs)

theorem processed_concat_of_filled (hfilled : ∀ s ∈ slots, s.Filled) :
    processed (slots ++ [slot]) = slots ++ if slot.Filled then [slot] else [] := by
  rw [processed, takeWhile_append_of_pos fun s hs => decide_eq_true (hfilled s hs)]
  split <;> simp_all

theorem processed_concat_of_unfilled (hfilled : ¬ ∀ s ∈ slots, s.Filled) :
    processed (slots ++ [slot]) = processed slots := by
  rw [processed, processed, takeWhile_append, if_neg]
  intro hlen
  refine hfilled fun s hs => ?_
  have hall : slots.takeWhile (fun s => decide s.Filled) = slots :=
    ( takeWhile_prefix _).eq_of_length hlen
  exact of_decide_eq_true (takeWhile_eq_self_iff.mp hall s hs)

/-- How the loop stands after some slots: without a stop, with as many confirms as BR/EDR keys, or at an empty
pointer, or at a NULL read. -/
def Counted (slots : List KeySlot) (h : Handling) : Prop :=
  match h.stop with
  | none => (∀ s ∈ slots, s.Filled) ∧
      (authenticateCfms h.effects).length = (slots.filter fun s => s.type = .encBredr).length
  | some .panicNull => ¬ ∀ s ∈ slots, s.Filled
  | some .nullRead => True

/-- A stop stays. -/
theorem Counted.mono_of_stopped {h : Handling} (hcounted : Counted slots h) (hstop : h.stop.isSome) :
    Counted (slots ++ [slot]) h := by
  obtain ⟨stop, hs⟩ := isSome_iff_exists.mp hstop
  rw [Counted, hs] at hcounted ⊢
  cases stop with
  | panicNull => exact fun hfilled => hcounted fun s hmem => hfilled s (mem_append_left _ hmem)
  | nullRead => trivial

theorem counted (happ : theAppTask ≠ 0) (hres : ∀ s ∈ slots, s.type ≠ .reserved) :
    Counted slots (slotLoop cfg theAppTask ind sm store slots) := by
  induction slots using List.reverseRecOn with
  | nil => exact ⟨fun s hs => absurd hs not_mem_nil, rfl⟩
  | append_singleton slots slot ih =>
    have hcounted := ih fun s hs => hres s (mem_append_left _ hs)
    have hslot : slot.type ≠ .reserved := hres slot (by simp)
    rw [slotLoop_concat]
    set h := slotLoop cfg theAppTask ind sm store slots with hh
    by_cases hstop : h.stop.isSome
    · rw [slotTurn_of_stopped hstop]
      exact hcounted.mono_of_stopped hstop
    replace hstop : h.stop = none := by simpa using hstop
    rw [Counted, hstop] at hcounted
    obtain ⟨hfilled, hcount⟩ := hcounted
    have hfilled' : slot.Filled → ∀ s ∈ slots ++ [slot], s.Filled := by
      intro hs s hmem
      rcases mem_append.mp hmem with hmem | hmem
      · exact hfilled s hmem
      · exact mem_singleton.mp hmem ▸ hs
    by_cases htype : slot.type = .none
    · rw [slotTurn_of_empty hstop htype, Counted]
      simp only [hstop]
      exact ⟨hfilled' (.inl htype), by simp [hcount, htype]⟩
    cases hkey : slot.key with
    | none =>
      rw [slotTurn_of_unfilled hstop htype hslot hkey, Counted]
      intro hall
      have := hall slot (by simp)
      simp [KeySlot.Filled, htype, hkey] at this
    | some words =>
      have hall := hfilled' (.inr (by rw [hkey]; rfl))
      by_cases hbredr : slot.type = .encBredr
      · rw [slotTurn_of_bredr hstop hbredr hkey, bredrTurn]
        split
        · trivial
        · simp only [Counted, Handling.push, hstop]
          refine ⟨hall, ?_⟩
          rw [authenticateCfms_append, length_append, hcount, authenticateCfms_handleBredrKey happ]
          simp [hbredr]
      · rw [slotTurn_of_other hstop htype hslot hbredr hkey, Counted]
        simp only [Handling.push, hstop]
        exact ⟨hall, by simp [hcount, hbredr]⟩

/-- The loop after some slots with readable keys, none of which went wrong. -/
structure Gathered (theAppTask : Task) (ind : KeysInd) (authenticationRequirements : BitVec 4)
    (slots : List KeySlot) (h : Handling) : Prop where
  stop : h.stop = none
  keyIdx : h.keyIdx = slots.length
  primU : h.primU = (occupied slots).map fun s => s.key.getD []
  primPresent : h.primPresent = orFields dmSmNumKeyBits 0 ((occupied slots).map fun s => s.type.toNat)
  requirements : h.sm.authenticationRequirements =
    if ∃ s ∈ slots, s.type = .encBredr then authReqUnknown else authenticationRequirements
  bonded : h.bonded = (occupied slots).getLast?.elim false (KeySlot.keeps authenticationRequirements)
  confirms : authenticateCfms h.effects = bredrCfms theAppTask ind authenticationRequirements slots

namespace Gathered

variable {req : BitVec 4} {g : Handling} {words : List ℕ}

theorem empty (h : Gathered theAppTask ind req slots g) (htype : slot.type = .none) :
    Gathered theAppTask ind req (slots ++ [slot]) { g with keyIdx := g.keyIdx + 1 } := by
  have hocc : occupied (slots ++ [slot]) = occupied slots := by simp [occupied_concat, htype]
  refine ⟨h.stop, ?_, ?_, ?_, ?_, ?_, ?_⟩
  · simp [h.keyIdx]
  · rw [hocc]
    exact h.primU
  · rw [hocc]
    exact h.primPresent
  · simp [h.requirements, or_and_right, exists_or, htype]
  · rw [hocc]
    exact h.bonded
  · simpa [bredrCfms, htype] using h.confirms

/-- The primitive with one more key. -/
theorem push (h : Gathered theAppTask ind req slots g) (htype : slot.type ≠ .none) (hkey : slot.key = some words) :
    (g.push slot.type words).primU = (occupied (slots ++ [slot])).map (fun s => s.key.getD []) ∧
      (g.push slot.type words).primPresent =
        orFields dmSmNumKeyBits 0 ((occupied (slots ++ [slot])).map fun s => s.type.toNat) := by
  have hocc : occupied (slots ++ [slot]) = occupied slots ++ [slot] := by simp [occupied_concat, htype]
  rw [hocc, map_append, map_append]
  constructor
  · simp [Handling.push, h.primU, hkey]
  · have hbits : slot.type.toNat &&& (2 ^ dmSmNumKeyBits - 1) = slot.type.toNat := by
      cases slot.type <;> rfl
    rw [map_singleton, orFields_concat, hbits, Handling.push, h.primPresent, h.primU, length_map,
      length_map]

theorem other (h : Gathered theAppTask ind req slots g) (htype : slot.type ≠ .none) (hbredr : slot.type ≠ .encBredr)
    (hkey : slot.key = some words) : Gathered theAppTask ind req (slots ++ [slot])
      { g.push slot.type words with keyIdx := g.keyIdx + 1, bonded := true } := by
  obtain ⟨hu, hpresent⟩ := h.push htype hkey
  refine ⟨h.stop, ?_, hu, hpresent, ?_, ?_, ?_⟩
  · simp [h.keyIdx]
  · simp [Handling.push, h.requirements, or_and_right, exists_or, hbredr]
  · simp [occupied_concat, htype, KeySlot.keeps, hbredr]
  · simpa [bredrCfms, hbredr, Handling.push] using h.confirms

/-- Is the key read back from the index of its slot? Only if no slot before was empty. -/
theorem read (h : Gathered theAppTask ind req slots g) (slot : KeySlot) (words : List ℕ) : (g.push slot.type words).primU[g.keyIdx]? =
      if ∀ s ∈ slots, s.type ≠ .none then some words else none := by
  have hlen : (occupied slots).length ≤ slots.length := length_filter_le ..
  have heq : (occupied slots).length = slots.length ↔ ∀ s ∈ slots, s.type ≠ .none := by
    rw [occupied, length_filter_eq_length_iff]
    simp
  change (g.primU ++ [words])[g.keyIdx]? = _
  rw [h.keyIdx, h.primU]
  by_cases hall : ∀ s ∈ slots, s.type ≠ .none
  · rw [if_pos hall, ← heq.mpr hall, List.getElem?_append_right (by simp)]
    simp
  · rw [if_neg hall, List.getElem?_eq_none]
    rw [← heq] at hall
    simp only [length_append, length_map, length_singleton]
    omega

/-- A BR/EDR key that is read back, and about which the requirements of the moment say what the first ones did. -/
theorem bredr (happ : theAppTask ≠ 0) (h : Gathered theAppTask ind req slots g) (hbredr : slot.type = .encBredr)
    (hkey : slot.key = some words) (hall : ∀ s ∈ slots, s.type ≠ .none)
    (hbonds : bredrBonds g.sm.authenticationRequirements (bredrKeyType words) = bredrBonds req (bredrKeyType words)) :
    Gathered theAppTask ind req (slots ++ [slot]) (bredrTurn cfg theAppTask ind (g.push .encBredr words)) := by
  have hread := h.read slot words
  have htype : slot.type ≠ .none := by
    rw [hbredr]
    decide
  obtain ⟨hu, hpresent⟩ := h.push htype hkey
  rw [hbredr] at hread hu hpresent
  rw [if_pos hall] at hread
  have hcfms := authenticateCfms_handleBredrKey happ g.sm ind.addrt.addr words
  rw [hbonds] at hcfms
  rw [bredrTurn, show (g.push .encBredr words).keyIdx = g.keyIdx from rfl, hread]
  refine ⟨h.stop, ?_, hu, hpresent, ?_, ?_, ?_⟩
  · simp [h.keyIdx]
  · rw [if_pos ⟨slot, by simp, hbredr⟩]
    rfl
  · simpa [occupied_concat, htype, KeySlot.keeps, hbredr, hkey, handleBredrKey, Handling.push] using hbonds
  · simp only [Handling.push, authenticateCfms_append, h.confirms]
    rw [hcfms]
    simp [bredrCfms, hbredr, bredrCfm, connectionSendAuthenticateCfm, happ, KeySlot.keeps, hkey]

end Gathered

/-- Nothing went wrong so far. -/
def Faithful (theAppTask : Task) (ind : KeysInd) (authenticationRequirements : BitVec 4) (slots : List KeySlot)
    (h : Handling) : Prop :=
  h.stop ≠ some .nullRead ∧
    authenticateCfms h.effects = bredrCfms theAppTask ind authenticationRequirements (processed slots)

theorem exists_effects_slotTurn (cfg : Config) (theAppTask : Task) (ind : KeysInd) (h : Handling) (slot : KeySlot) :
    ∃ effects, (slotTurn cfg theAppTask ind h slot).effects = h.effects ++ effects := by
  rw [slotTurn]
  split
  · exact ⟨[], by simp⟩
  split
  · exact ⟨[], by simp⟩
  · exact ⟨[], by simp⟩
  split
  · exact ⟨[], by simp⟩
  split
  · rw [bredrTurn]
    split
    · exact ⟨[], by simp [Handling.push]⟩
    · exact ⟨_, rfl⟩
  · exact ⟨[], by simp [Handling.push]⟩

theorem bredrCfms_append (req : BitVec 4) (slots slots' : List KeySlot) :
    bredrCfms theAppTask ind req (slots ++ slots') =
      bredrCfms theAppTask ind req slots ++ bredrCfms theAppTask ind req slots' := by
  rw [bredrCfms, filter_append, flatMap_append]
  rfl

theorem length_bredrCfms (happ : theAppTask ≠ 0) (req : BitVec 4) :
    (bredrCfms theAppTask ind req slots).length = (slots.filter fun s => s.type = .encBredr).length := by
  simp [bredrCfms, connectionSendAuthenticateCfm, happ, length_flatMap]

/-- What went wrong stays wrong. -/
theorem Faithful.of_slotTurn {req : BitVec 4} {h : Handling} (happ : theAppTask ≠ 0) (hcounted : Counted slots h)
    (hfaithful : Faithful theAppTask ind req (slots ++ [slot]) (slotTurn cfg theAppTask ind h slot)) :
    Faithful theAppTask ind req slots h := by
  by_cases hstop : h.stop.isSome
  · rw [slotTurn_of_stopped hstop] at hfaithful
    refine ⟨hfaithful.1, ?_⟩
    obtain ⟨stop, hs⟩ := isSome_iff_exists.mp hstop
    rw [Counted, hs] at hcounted
    cases stop with
    | panicNull => exact processed_concat_of_unfilled hcounted ▸ hfaithful.2
    | nullRead => exact absurd hs hfaithful.1
  · replace hstop : h.stop = none := by simpa using hstop
    rw [Counted, hstop] at hcounted
    obtain ⟨hfilled, hcount⟩ := hcounted
    refine ⟨by simp [hstop], ?_⟩
    obtain ⟨effects, heffects⟩ := exists_effects_slotTurn cfg theAppTask ind h slot
    -- both lists have one confirm for each BR/EDR key so far, and go on after it
    have hcfms := hfaithful.2
    rw [heffects, authenticateCfms_append, processed_concat_of_filled hfilled, bredrCfms_append] at hcfms
    rw [processed_of_filled hfilled]
    exact append_inj_left hcfms (hcount.trans (length_bredrCfms happ req).symm)

/-- What the loop has come to where nothing went wrong: it has gathered all slots, or it stopped at the first empty
pointer. -/
def Progressed (theAppTask : Task) (ind : KeysInd) (authenticationRequirements : BitVec 4) (slots : List KeySlot)
    (h : Handling) : Prop :=
  if ∀ s ∈ slots, s.Filled then Gathered theAppTask ind authenticationRequirements slots h
  else h.stop = some .panicNull ∧
    authenticateCfms h.effects = bredrCfms theAppTask ind authenticationRequirements (processed slots)

/-- The turn with a BR/EDR key that can be read. -/
theorem Gathered.bredrTurn_spec {req : BitVec 4} {h : Handling} {words : List ℕ} (cfg : Config)
    (happ : theAppTask ≠ 0) (hg : Gathered theAppTask ind req slots h) (hbredr : slot.type = .encBredr) (hkey : slot.key = some words)
    (hfilled : ∀ s ∈ slots ++ [slot], s.Filled) :
    (Faithful theAppTask ind req (slots ++ [slot]) (bredrTurn cfg theAppTask ind (h.push .encBredr words)) →
      ∀ s ∈ slots, Before req s slot) ∧
    ((∀ s ∈ slots, Before req s slot) →
      Gathered theAppTask ind req (slots ++ [slot]) (bredrTurn cfg theAppTask ind (h.push .encBredr words))) := by
  have hread := hg.read slot words
  rw [hbredr] at hread
  have hreq := hg.requirements
  by_cases hall : ∀ s ∈ slots, s.type ≠ .none
  · rw [if_pos hall] at hread
    constructor
    · -- the confirm shows by which requirements the key was judged
      intro hfaithful s hs _
      refine ⟨hall s hs, fun hbefore => ?_⟩
      rw [if_pos ⟨s, hs, hbefore⟩] at hreq
      have hcfms := hfaithful.2
      rw [processed_of_filled hfilled, bredrCfms_append, bredrTurn,
        show (h.push .encBredr words).keyIdx = h.keyIdx from rfl, hread] at hcfms
      have hcfm := authenticateCfms_handleBredrKey happ h.sm ind.addrt.addr words
      simp only [Handling.push, authenticateCfms_append, hg.confirms] at hcfms
      rw [hcfm] at hcfms
      have hlast := append_cancel_left hcfms
      simp only [bredrCfms, hbredr, decide_true, filter_cons_of_pos, filter_nil, flatMap_singleton,
        connectionSendAuthenticateCfm, if_neg happ, bredrCfm, hkey, getD_some, KeySlot.keeps, hreq] at hlast
      rw [hkey]
      refine (bredrBonds_unknown_eq_iff req _).mp ?_
      simpa using hlast
    · intro hbefore
      refine hg.bredr happ hbredr hkey hall ?_
      rw [hreq]
      split
      · rename_i hex
        obtain ⟨s, hs, hsb⟩ := hex
        have := (hbefore s hs hbredr).2 hsb
        rw [hkey] at this
        exact (bredrBonds_unknown_eq_iff req _).mpr this
      · rfl
  · -- an empty slot was passed over, and the slot's index is beyond the keys that were moved
    rw [if_neg hall] at hread
    constructor
    · intro hfaithful
      refine absurd ?_ hfaithful.1
      rw [bredrTurn, show (h.push .encBredr words).keyIdx = h.keyIdx from rfl, hread]
    · intro hbefore
      exact absurd (fun s hs => (hbefore s hs hbredr).1) hall

/-- A slot that is not a BR/EDR key with its words asks nothing of the ones before. -/
theorem before_of_ne {req : BitVec 4} {s : KeySlot} (hbredr : slot.type ≠ .encBredr) : Before req s slot :=
  fun h => absurd h hbredr

theorem pairwise_concat {req : BitVec 4} : (slots ++ [slot]).Pairwise (Before req) ↔
    slots.Pairwise (Before req) ∧ ∀ s ∈ slots, Before req s slot := by
  rw [pairwise_append]
  simp

/-- **The loop rule.** Nothing goes wrong exactly if every BR/EDR key finds before it what it asks for. -/
theorem loop_spec (cfg : Config) (ind : KeysInd) (sm : SmState) (store : Store) (happ : theAppTask ≠ 0) (hres : ∀ s ∈ slots, s.type ≠ .reserved) :
    (Faithful theAppTask ind sm.authenticationRequirements slots (slotLoop cfg theAppTask ind sm store slots) →
      (processed slots).Pairwise (Before sm.authenticationRequirements)) ∧
    ((processed slots).Pairwise (Before sm.authenticationRequirements) →
      Progressed theAppTask ind sm.authenticationRequirements slots
        (slotLoop cfg theAppTask ind sm store slots)) := by
  induction slots using List.reverseRecOn with
  | nil =>
    refine ⟨fun _ => List.Pairwise.nil, fun _ => ?_⟩
    rw [Progressed, if_pos fun s hs => absurd hs not_mem_nil]
    exact ⟨rfl, rfl, rfl, rfl, rfl, rfl, rfl⟩
  | append_singleton slots slot ih =>
    have hres' : ∀ s ∈ slots, s.type ≠ .reserved := fun s hs => hres s (mem_append_left _ hs)
    have hslot : slot.type ≠ .reserved := hres slot (by simp)
    have hcounted : Counted slots (slotLoop cfg theAppTask ind sm store slots) := counted happ hres'
    obtain ⟨hof, hto⟩ := ih hres'
    rw [slotLoop_concat]
    generalize slotLoop cfg theAppTask ind sm store slots = h at hcounted hof hto ⊢
    by_cases hfilled : ∀ s ∈ slots, s.Filled
    · -- all keys so far could be read
      rw [processed_of_filled hfilled, Progressed, if_pos hfilled] at hto
      rw [processed_of_filled hfilled] at hof
      rw [processed_concat_of_filled hfilled]
      by_cases hpair : slots.Pairwise (Before sm.authenticationRequirements)
      · have hg := hto hpair
        by_cases hs : slot.Filled
        · have hall : ∀ s ∈ slots ++ [slot], s.Filled := by
            intro s hmem
            rcases mem_append.mp hmem with hmem | hmem
            · exact hfilled s hmem
            · exact mem_singleton.mp hmem ▸ hs
          rw [if_pos hs, pairwise_concat, Progressed, if_pos hall]
          by_cases htype : slot.type = .none
          · rw [slotTurn_of_empty hg.stop htype]
            have hbefore : ∀ s ∈ slots, Before sm.authenticationRequirements s slot :=
              fun s _ => before_of_ne (by simp [htype])
            exact ⟨fun _ => ⟨hpair, hbefore⟩, fun _ => hg.empty htype⟩
          obtain ⟨words, hkey⟩ := isSome_iff_exists.mp (hs.resolve_left htype)
          by_cases hbredr : slot.type = .encBredr
          · rw [slotTurn_of_bredr hg.stop hbredr hkey]
            obtain ⟨hbefore, hnext⟩ := hg.bredrTurn_spec cfg happ hbredr hkey hall
            exact ⟨fun hf => ⟨hpair, hbefore hf⟩, fun hp => hnext hp.2⟩
          · rw [slotTurn_of_other hg.stop htype hslot hbredr hkey]
            exact ⟨fun _ => ⟨hpair, fun s _ => before_of_ne hbredr⟩, fun _ => hg.other htype hbredr hkey⟩
        · have hnot : ¬ ∀ s ∈ slots ++ [slot], s.Filled := fun hall => hs (hall slot (by simp))
          obtain ⟨htype, hkey⟩ := not_or.mp hs
          rw [if_neg hs, append_nil, Progressed, if_neg hnot, slotTurn_of_unfilled hg.stop htype hslot
            (by simpa using hkey)]
          refine ⟨fun _ => hpair, fun _ => ⟨rfl, ?_⟩⟩
          rw [processed_concat_of_filled hfilled, if_neg hs, append_nil]
          exact hg.confirms
      · refine ⟨fun hf => absurd (hof (hf.of_slotTurn happ hcounted)) hpair, fun hp => absurd ?_ hpair⟩
        exact hp.sublist (sublist_append_left ..)
    · -- the loop has stopped
      have hnot : ¬ ∀ s ∈ slots ++ [slot], s.Filled :=
        fun hall => hfilled fun s hs => hall s (mem_append_left _ hs)
      rw [processed_concat_of_unfilled hfilled, Progressed, if_neg hnot, processed_concat_of_unfilled hfilled]
      rw [Progressed, if_neg hfilled] at hto
      refine ⟨fun hf => hof (hf.of_slotTurn happ hcounted), fun hp => ?_⟩
      obtain ⟨hstop, hcfms⟩ := hto hp
      rw [slotTurn_of_stopped (by rw [hstop]; rfl)]
      exact ⟨hstop, hcfms⟩

end Loop

/-! ### What is handed over -/

/-- The type bits that the primitive gives a key are its own. -/
theorem typeAt_keys {types : List DmSmKeyType} {keys : DmSmKeys}
    (hpresent : keys.present =
      orFields dmSmNumKeyBits 0 (types.map DmSmKeyType.toNat) ||| dmSmKeysUpdateExisting)
    {keyIdx : ℕ} (hidx : keyIdx < dmSmMaxNumKeys) : keys.typeAt keyIdx = types[keyIdx]?.getD .none := by
  have hupdate : fieldAt dmSmNumKeyBits dmSmKeysUpdateExisting keyIdx = 0 := by
    rw [dmSmMaxNumKeys] at hidx
    interval_cases keyIdx <;> rfl
  have htypes : (types.map DmSmKeyType.toNat).getD keyIdx 0 = (types[keyIdx]?.getD .none).toNat := by
    rw [getD_eq_getElem?_getD, List.getElem?_map]
    cases types[keyIdx]? <;> rfl
  have hlt : (types.map DmSmKeyType.toNat).getD keyIdx 0 < 2 ^ dmSmNumKeyBits := by
    rw [htypes]
    cases types[keyIdx]?.getD .none <;> decide
  rw [DmSmKeys.typeAt, hpresent, fieldAt_or, hupdate, Nat.or_zero, fieldAt_orFields_zero hlt, htypes]
  cases types[keyIdx]?.getD .none <;> rfl

/-- The primitive names exactly the keys of the slots, in order. -/
theorem Gathered.heldKeys_keys {theAppTask : Task} {ind : KeysInd} {req : BitVec 4} {slots : List KeySlot}
    {h : Handling} (hg : Gathered theAppTask ind req slots h) (hlen : slots.length ≤ dmSmMaxNumKeys) : heldKeys (h.keys ind) = (occupied slots).map KeySlot.held := by
  have hle : ((occupied slots).map KeySlot.held).length ≤ dmSmMaxNumKeys := by
    rw [length_map]
    exact (length_filter_le ..).trans hlen
  have hpresent : (h.keys ind).present = orFields dmSmNumKeyBits 0
      (((occupied slots).map KeySlot.type).map DmSmKeyType.toNat) ||| dmSmKeysUpdateExisting := by
    rw [List.map_map, Handling.keys, hg.primPresent]
    rfl
  rw [← filterMap_range_getElem? ((occupied slots).map KeySlot.held) hle]
  refine filterMap_congr fun keyIdx hidx => ?_
  have htype := typeAt_keys hpresent (mem_range.mp hidx)
  have hu : (h.keys ind).u = (occupied slots).map fun s => s.key.getD [] := hg.primU
  rw [htype, hu, List.getElem?_map, List.getElem?_map, getD_eq_getElem?_getD, List.getElem?_map]
  cases hs : (occupied slots)[keyIdx]? with
  | none => rfl
  | some s =>
    have hne : s.type ≠ .none := of_decide_eq_true (mem_filter.mp (mem_of_getElem? hs)).2
    simp only [map_some, getD_some, KeySlot.held]

/-- The condition: each BR/EDR key that is reached finds before it what it asks for, and, where all keys can be read,
either all of them may be kept or none. -/
structure Sound (authenticationRequirements : BitVec 4) (ind : KeysInd) : Prop where
  before : (processed ind.slots).Pairwise (Before authenticationRequirements)
  alike : (∀ slot ∈ ind.slots, slot.Filled) →
    (∀ slot ∈ occupied ind.slots, slot.keeps authenticationRequirements) ∨
      ∀ slot ∈ occupied ind.slots, ¬ slot.keeps authenticationRequirements

/-- One flag for all keys hands over the right ones exactly if they are alike. -/
theorem handed_iff {req : BitVec 4} {slots : List KeySlot} {device : TypedBdaddr} :
    (if (occupied slots).getLast?.elim false (KeySlot.keeps req) then
      some (device, (occupied slots).map KeySlot.held) else none) =
      (if storable req slots = [] then none else some (device, storable req slots)) ↔
    (∀ slot ∈ occupied slots, slot.keeps req) ∨ ∀ slot ∈ occupied slots, ¬ slot.keeps req := by
  have hnil : storable req slots = [] ↔ ∀ slot ∈ occupied slots, ¬ slot.keeps req := by
    rw [storable, map_eq_nil_iff, filter_eq_nil_iff]
  have hall : (occupied slots).map KeySlot.held = storable req slots ↔ ∀ slot ∈ occupied slots, slot.keeps req := by
    constructor
    · intro h
      have hlen := congrArg List.length h
      rw [storable, length_map, length_map] at hlen
      exact length_filter_eq_length_iff.mp hlen.symm
    · intro h
      rw [storable, filter_eq_self.mpr h]
  cases hlast : (occupied slots).getLast? with
  | none =>
    have hocc : occupied slots = [] := List.getLast?_eq_none_iff.mp hlast
    simp [storable, hocc]
  | some last =>
    have hmem : last ∈ occupied slots := mem_of_getLast? hlast
    by_cases hkeeps : last.keeps req
    · have hne : storable req slots ≠ [] := fun h => hnil.mp h last hmem hkeeps
      rw [elim_some, if_pos hkeeps, if_neg hne, some_inj, Prod.mk.injEq, hall]
      constructor
      · exact fun h => .inl h.2
      · rintro (h | h)
        · exact ⟨rfl, h⟩
        · exact absurd hkeeps (h last hmem)
    · rw [elim_some, if_neg hkeeps]
      constructor
      · intro h
        refine .inr (hnil.mp ?_)
        by_contra hne
        rw [if_neg hne] at h
        cases h
      · rintro (h | h)
        · exact absurd (h last hmem) hkeeps
        · rw [if_pos (hnil.mpr h)]

/-- The loop does nothing to the list before a key that can be read. -/
theorem store_slotLoop_of_unusable (cfg : Config) (theAppTask : Task) (ind : KeysInd) (sm : SmState) (store : Store)
    {slots : List KeySlot} (h : ∀ s ∈ slots, ¬ (s.type ≠ .none ∧ s.key.isSome))
    (hres : ∀ s ∈ slots, s.type ≠ .reserved) :
    (slotLoop cfg theAppTask ind sm store slots).store = store ∧
      (slotLoop cfg theAppTask ind sm store slots).bonded = false := by
  induction slots using List.reverseRecOn with
  | nil => exact ⟨rfl, rfl⟩
  | append_singleton slots slot ih =>
    obtain ⟨hstore, hbonded⟩ := ih (fun s hs => h s (mem_append_left _ hs))
      fun s hs => hres s (mem_append_left _ hs)
    rw [slotLoop_concat]
    generalize slotLoop cfg theAppTask ind sm store slots = g at hstore hbonded ⊢
    by_cases hstop : g.stop.isSome
    · rw [slotTurn_of_stopped hstop]
      exact ⟨hstore, hbonded⟩
    replace hstop : g.stop = none := by simpa using hstop
    by_cases htype : slot.type = .none
    · rw [slotTurn_of_empty hstop htype]
      exact ⟨hstore, hbonded⟩
    · have hkey : slot.key = none := by simpa [htype] using h slot (by simp)
      rw [slotTurn_of_unfilled hstop htype (hres slot (by simp)) hkey]
      exact ⟨hstore, hbonded⟩

variable {cfg : Config} {theAppTask : Task} {sm : SmState} {store : Store} {ind : KeysInd}

theorem KeysInd.type_ne_reserved (ind : KeysInd) : ∀ s ∈ ind.slots, s.type ≠ .reserved := by
  intro s hs
  obtain ⟨keyIdx, hidx, rfl⟩ := List.mem_map.mp hs
  exact ind.types keyIdx hidx

section Finish

variable {h : Handling}

theorem finish_effects : (finish cfg ind h).effects = h.effects := by
  rw [finish]
  split <;> rfl

theorem finish_stop : (finish cfg ind h).stop = h.stop := by
  rw [finish]
  split
  · rfl
  · rename_i hnot
    exact (not_isSome_iff_eq_none.mp hnot).symm

theorem finish_updated (hstop : h.stop = none) :
    (finish cfg ind h).updated = if h.bonded then some (ind.addrtToUse, h.keys ind) else none := by
  rw [finish, hstop]
  rfl

/-- The arguments of `connectionAuthUpdateTdl`, wherever it is called. -/
theorem eq_of_finish_updated {call : TypedBdaddr × DmSmKeys} (hcall : (finish cfg ind h).updated = some call) :
    call = (ind.addrtToUse, h.keys ind) := by
  rw [finish] at hcall
  split at hcall
  · cases hcall
  · dsimp only at hcall
    split at hcall
    · exact (some.inj hcall).symm
    · cases hcall

theorem finish_store_of_not_bonded (hbonded : h.bonded = false) : (finish cfg ind h).store = h.store := by
  rw [finish, hbonded]
  split <;> rfl

/-- Where all keys could be read, the last of them decides about all. -/
theorem Gathered.finish_updated {req : BitVec 4} (hg : Gathered theAppTask ind req ind.slots h) :
    (finish cfg ind h).updated.map (fun call => (call.1, heldKeys call.2)) =
      if (occupied ind.slots).getLast?.elim false (KeySlot.keeps req) then
        some (ind.addrtToUse, (occupied ind.slots).map KeySlot.held) else none := by
  have hlen : ind.slots.length ≤ dmSmMaxNumKeys := by simp [KeysInd.slots]
  rw [Sm.finish_updated hg.stop, ← hg.bonded, ← hg.heldKeys_keys hlen]
  split <;> rfl

end Finish

theorem authenticationRequirements_cachePermanent :
    (cachePermanent sm ind).authenticationRequirements = sm.authenticationRequirements := by
  rw [cachePermanent]
  split <;> rfl

theorem store_of_unusable (hnot : ¬ ind.Usable) :
    (connectionHandleSmKeysInd cfg theAppTask sm store ind).store = store := by
  have hslots : ∀ s ∈ ind.slots, ¬ (s.type ≠ .none ∧ s.key.isSome) := fun s hs hu => hnot ⟨s, hs, hu⟩
  obtain ⟨hstore, hbonded⟩ := store_slotLoop_of_unusable cfg theAppTask ind (cachePermanent sm ind) store hslots
    ind.type_ne_reserved
  rw [connectionHandleSmKeysInd, finish_store_of_not_bonded hbonded, hstore]

/-- Which indications are stored as received, whatever the list holds. -/
theorem storesAsReceived_iff (happ : theAppTask ≠ 0) :
    StoresAsReceived cfg theAppTask sm store ind ↔ Sound sm.authenticationRequirements ind := by
  obtain ⟨hof, hto⟩ := loop_spec cfg ind (cachePermanent sm ind) store happ
    ind.type_ne_reserved
  rw [authenticationRequirements_cachePermanent] at hof hto
  constructor
  · intro hstores
    have hpair := hof ⟨finish_stop ▸ hstores.reads, finish_effects ▸ hstores.confirms⟩
    refine ⟨hpair, fun hfilled => ?_⟩
    have hg := hto hpair
    rw [Progressed, if_pos hfilled] at hg
    have hupdated := hstores.updated (finish_stop.trans hg.stop)
    rw [connectionHandleSmKeysInd, hg.finish_updated] at hupdated
    exact handed_iff.mp hupdated
  · intro hsound
    have hprog := hto hsound.before
    have hsecurity : ∀ call, (connectionHandleSmKeysInd cfg theAppTask sm store ind).updated = some call →
        call.2.securityRequirements = ind.securityRequirements ∧
          call.2.encryptionKeySize = ind.encryptionKeySize := by
      intro call hcall
      rw [eq_of_finish_updated hcall]
      exact ⟨rfl, rfl⟩
    rw [Progressed] at hprog
    split at hprog
    · rename_i hfilled
      refine ⟨?_, ?_, fun _ => ?_, hsecurity, store_of_unusable⟩
      · rw [connectionHandleSmKeysInd, finish_stop, hprog.stop]
        decide
      · rw [connectionHandleSmKeysInd, finish_effects, hprog.confirms, processed_of_filled hfilled]
      · rw [connectionHandleSmKeysInd, hprog.finish_updated]
        exact handed_iff.mpr (hsound.alike hfilled)
    · obtain ⟨hpanic, hcfms⟩ := hprog
      refine ⟨?_, ?_, fun hnone => ?_, hsecurity, store_of_unusable⟩
      · rw [connectionHandleSmKeysInd, finish_stop, hpanic]
        decide
      · rw [connectionHandleSmKeysInd, finish_effects, hcfms]
      · rw [connectionHandleSmKeysInd, finish_stop, hpanic] at hnone
        cases hnone

/-! ### Two pairings -/

/-- A link key from a pairing that is to be bonding, alone in the first slot. -/
def linkKeyInd : KeysInd where
  addrt := ⟨.publicAddr, ⟨1, 0, 0⟩⟩
  idAddrt := ⟨.publicAddr, ⟨0, 0, 0⟩⟩
  securityRequirements := 0
  encryptionKeySize := 16
  present := 1
  u := fun _ => ⟨some [5, 1, 2, 3, 4, 5, 6, 7, 8], 0⟩
  types := by decide

/-- The two directions of the rule at one indication. -/
theorem storesAsReceived_linkKeyInd : StoresAsReceived ⟨.wordAddressed, 8, by decide, by decide⟩ 2
    { securityMode := .secMode4Ssp, authenticationRequirements := dedicatedBonding } {} linkKeyInd :=
  (storesAsReceived_iff (by decide)).mpr ⟨by decide, by decide⟩

/-- A debug link key, and behind it the key of the same device for encryption as a central. -/
def debugKeyInd : KeysInd where
  addrt := ⟨.publicAddr, ⟨1, 0, 0⟩⟩
  idAddrt := ⟨.publicAddr, ⟨0, 0, 0⟩⟩
  securityRequirements := 0
  encryptionKeySize := 16
  present := 0x11
  u := fun keyIdx => ⟨some (if keyIdx = 0 then [3, 1, 2, 3, 4, 5, 6, 7, 8] else List.replicate 13 9), 0⟩
  types := by decide

/-- Every indication of every pairing is stored as it was received. -/
def AlwaysStores : Prop :=
  ∀ (cfg : Config) (theAppTask : Task) (sm : SmState) (store : Store) (ind : KeysInd), theAppTask ≠ 0 →
    StoresAsReceived cfg theAppTask sm store ind

/-- The debug key goes into the list with the other one. -/
theorem not_alwaysStores : ¬ AlwaysStores := by
  intro h
  have hstores := h ⟨.wordAddressed, 8, by decide, by decide⟩ 2
    { securityMode := .secMode4Ssp, authenticationRequirements := dedicatedBonding } {} debugKeyInd (by decide)
  have hupdated := hstores.updated (by decide)
  revert hupdated
  decide

end Cbps.Sm
