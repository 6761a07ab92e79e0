import Cbps.Lib.Runs
import Mathlib.Data.Fintype.Card
import Mathlib.Data.Fintype.List
import Mathlib.Data.BitVec
import Mathlib.Algebra.Ring.Nat

/-!
# The servers of the GATT manager

`gatt_manager.c`, `gatt_manager_data.c` and `gatt_manager_server.c`: servers register for ranges of handles of
the database, the manager delivers an access to the server of the handle, with the handle relative to the range,
and translates the relative handles of the servers back.

`translates_iff`: the translation is right in every state of a run if and only if every range that is accepted
is in order and encloses no other one, and no task registers twice.
-/

namespace Cbps.GattManager

open List

/-- A task. `0` is `NULL`. -/
abbrev Task := ℕ

abbrev Handle := BitVec 16

/-- `gatt_manager_initialisation_state_t`, of a manager that has been initialised. -/
inductive InitialisationState
  | registration
  | registering
  | initialised
  deriving DecidableEq, Repr

/-- `gatt_manager_status_t`. -/
inductive ManagerStatus
  | success
  | notInitialised
  | wrongState
  | invalidParameters
  | failed
  deriving DecidableEq, Repr

/-- `gatt_manager_server_registration_params_t`. -/
structure ServerRegistration where
  task : Task
  startHandle : Handle
  endHandle : Handle
  deriving DecidableEq, Repr

/-- `gatt_manager_server_lookup_data_t`. -/
structure Server where
  task : Task
  startHandle : Handle
  endHandle : Handle
  pendingWrite : Bool
  deriving DecidableEq, Repr

/-- The handle is in the range of the server. -/
def Server.holds (s : Server) (handle : Handle) : Bool := s.startHandle ≤ handle ∧ handle ≤ s.endHandle

/-- The manager, with its database and the table of its servers. `confirms` are the confirms of
`GattManagerRegisterWithGatt`. -/
structure Manager where
  initialisationState : InitialisationState
  db : Option (List (BitVec 16))
  servers : List Server
  confirms : List ManagerStatus
  deriving DecidableEq

/-! ### The table -/

section Table

variable (servers : List Server)

/-- `gattManagerDataServerHandlesValid`: neither end of the range is in a range of the table. -/
def gattManagerDataServerHandlesValid (r : ServerRegistration) : Bool :=
  servers.all fun s => !(s.holds r.startHandle || s.holds r.endHandle)

/-- The entry of a registration. -/
def ServerRegistration.server (r : ServerRegistration) : Server := ⟨r.task, r.startHandle, r.endHandle, false⟩

/-- `gattManagerDataAddServer`. The count of the servers is a `u16`: when it wraps, the table is empty. -/
def gattManagerDataAddServer (r : ServerRegistration) : Option (List Server) :=
  if gattManagerDataServerHandlesValid servers r then
    some (if servers.length + 1 = 2 ^ 16 then [] else servers ++ [r.server])
  else none

/-- `adjusted_handle` in `gattManagerDataGetServerDatabaseHandle`. -/
def Server.absolute (s : Server) (handle : Handle) : Handle := s.startHandle - 1 + handle

/-- `gattManagerDataGetServerDatabaseHandle`. The first server of the task whose range has the handle is taken. -/
def gattManagerDataGetServerDatabaseHandle (task : Task) (handle : Handle) : Handle :=
  if task = 0 then 0
  else ((servers.find? fun s => s.task = task ∧ s.holds (s.absolute handle)).map fun s => s.absolute handle).getD 0

/-- `data->adjusted` in `gattManagerDataResolveServerHandle`. -/
def Server.relative (s : Server) (handle : Handle) : Handle := handle - s.startHandle + 1

/-- `gattManagerDataResolveServerHandle`, with the task and the relative handle. -/
def gattManagerDataResolveServerHandle (handle : Handle) : Option (Task × Handle) :=
  (servers.find? fun s => s.holds handle).map fun s => (s.task, s.relative handle)

/-- What becomes of `GattManagerRemoteClientNotify` and `GattManagerRemoteClientIndicate`: a request to GATT, or
a confirm with `gatt_status_failure`. -/
inductive Outcome
  | request (handle : Handle)
  | failure
  deriving DecidableEq, Repr

/-- `GattManagerRemoteClientNotify` and `GattManagerRemoteClientIndicate`. `none` is the panic. -/
def gattManagerRemoteClientNotify (task : Task) (cid : BitVec 16) (handle : Handle) : Option Outcome :=
  if task = 0 ∧ cid = 0 ∧ handle = 0 then none
  else
    let adjustedHandle := gattManagerDataGetServerDatabaseHandle servers task handle
    some (if adjustedHandle ≠ 0 then .request adjustedHandle else .failure)

/-- `gattManagerServerAccessInd`, of a handle that is not 0: the task to which the access is delivered, and the
handle that it is told. -/
def gattManagerServerAccessInd (applicationTask : Task) (handle : Handle) : Task × Handle :=
  (gattManagerDataResolveServerHandle servers handle).getD (applicationTask, handle)

/-- The handle that `GattManagerServerAccessResponse` gives to GATT, for a handle that is not 0. -/
def accessResponseHandle (task : Task) (handle : Handle) : Handle :=
  let adjustedHandle := gattManagerDataGetServerDatabaseHandle servers task handle
  if adjustedHandle = 0 then handle else adjustedHandle

end Table

/-! ### Registrations -/

/-- `serverRegistrationParamsValid`. -/
def ServerRegistration.paramsValid (r : ServerRegistration) : Bool :=
  r.endHandle ≠ 0 ∧ r.startHandle ≠ 0 ∧ r.task ≠ 0

namespace Manager

variable (m : Manager)

/-- `GattManagerInit`. -/
def init : Manager := ⟨.registration, none, [], []⟩

/-- `GattManagerRegisterConstDB`. -/
def gattManagerRegisterConstDb (db : List (BitVec 16)) : Manager × Bool :=
  if m.initialisationState ≠ .registration ∨ m.db ≠ none ∨ db = [] then (m, false)
  else ({ m with db := some db }, true)

/-- `GattManagerRegisterServer`. -/
def gattManagerRegisterServer (r : ServerRegistration) : Manager × ManagerStatus :=
  if m.initialisationState ≠ .registration then (m, .wrongState)
  else if !r.paramsValid then (m, .invalidParameters)
  else if m.db = none then (m, .failed)
  else
    match gattManagerDataAddServer m.servers r with
    | none => (m, .invalidParameters)
    | some servers => ({ m with servers := servers }, .success)

/-- `GattManagerRegisterWithGatt`. In another state it goes on after the confirm. -/
def gattManagerRegisterWithGatt : Manager :=
  { m with
    initialisationState := .registering
    confirms := if m.initialisationState ≠ .registration then m.confirms ++ [.wrongState] else m.confirms }

/-- `handleGattInitCfm`. `none` is the panic. -/
def handleGattInitCfm (success : Bool) : Option Manager :=
  if m.initialisationState ≠ .registering then none
  else if success then
    some { m with initialisationState := .initialised, confirms := m.confirms ++ [.success] }
  else some { m with initialisationState := .registration, confirms := m.confirms ++ [.failed] }

end Manager

/-- What a manager is driven by while it is set up. -/
inductive Setup
  | registerConstDb (db : List (BitVec 16))
  | registerServer (r : ServerRegistration)
  | registerWithGatt
  | gattInitCfm (success : Bool)
  deriving DecidableEq

/-- One call, or the confirm of GATT. -/
def Manager.setup (m : Manager) : Setup → Option Manager
  | .registerConstDb db => some (m.gattManagerRegisterConstDb db).1
  | .registerServer r => some (m.gattManagerRegisterServer r).1
  | .registerWithGatt => some m.gattManagerRegisterWithGatt
  | .gattInitCfm success => m.handleGattInitCfm success

/-! ### The translation -/

/-- The ranges are in order and disjoint, and the handles are translated both ways between the database and the
server whose range has the handle. -/
structure Translates (servers : List Server) : Prop where
  ordered : ∀ s ∈ servers, s.startHandle ≤ s.endHandle
  disjoint : servers.Pairwise fun s t => ∀ handle, ¬(s.holds handle = true ∧ t.holds handle = true)
  exact : ∀ s ∈ servers, ∀ handle, s.holds handle → (s.relative handle).toNat = handle.toNat - s.startHandle.toNat + 1
  access : ∀ s ∈ servers, ∀ handle, s.holds handle →
    ∀ applicationTask, gattManagerServerAccessInd servers applicationTask handle = (s.task, s.relative handle)
  back : ∀ s ∈ servers, ∀ handle, s.holds handle →
    gattManagerDataGetServerDatabaseHandle servers s.task (s.relative handle) = handle
  forth : ∀ s ∈ servers, ∀ handle, 0 < handle.toNat → handle.toNat ≤ s.endHandle.toNat - s.startHandle.toNat + 1 →
    gattManagerDataResolveServerHandle servers
      (gattManagerDataGetServerDatabaseHandle servers s.task handle) = some (s.task, handle)
  notify : ∀ s ∈ servers, ∀ handle, s.holds handle →
    ∀ cid, gattManagerRemoteClientNotify servers s.task cid (s.relative handle) = some (.request handle)

/-! ### Separate ranges -/

section Lookup

variable {α : Type*} {p : α → Bool}

/-- At most one entry of the list has the property. -/
theorem find?_eq_some_of_pairwise {l : List α} {a : α} (hl : l.Pairwise fun a b => ¬(p a = true ∧ p b = true))
    (ha : a ∈ l) (hp : p a = true) : l.find? p = some a := by
  induction l with
  | nil => exact absurd ha not_mem_nil
  | cons b l ih =>
    obtain ⟨hb, hl⟩ := pairwise_cons.mp hl
    obtain rfl | ha := mem_cons.mp ha
    · exact List.find?_cons_of_pos hp
    · rw [List.find?_cons_of_neg fun hpb => hb a ha ⟨hpb, hp⟩]
      exact ih hl ha

end Lookup

variable {servers : List Server} {s t : Server} {handle : Handle}

theorem Server.holds_iff : s.holds handle = true ↔
    s.startHandle.toNat ≤ handle.toNat ∧ handle.toNat ≤ s.endHandle.toNat := by
  rw [Server.holds, decide_eq_true_iff, BitVec.le_def, BitVec.le_def]

/-- No registration has a `NULL` task or a handle 0. -/
def Valid (servers : List Server) : Prop := ∀ s ∈ servers, s.task ≠ 0 ∧ 0 < s.startHandle.toNat

/-- The ranges are in order and disjoint, and the tasks are distinct. -/
structure Separate (servers : List Server) : Prop where
  ordered : ∀ s ∈ servers, s.startHandle.toNat ≤ s.endHandle.toNat
  disjoint : servers.Pairwise fun s t => ∀ handle, ¬(s.holds handle = true ∧ t.holds handle = true)
  tasks : servers.Pairwise fun s t => s.task ≠ t.task

theorem relative_toNat (hstart : 0 < s.startHandle.toNat) (hh : s.holds handle) :
    (s.relative handle).toNat = handle.toNat - s.startHandle.toNat + 1 := by
  obtain ⟨hlow, -⟩ := Server.holds_iff.mp hh
  rw [Server.relative]
  bv_omega

theorem absolute_relative (s : Server) (handle : Handle) : s.absolute (s.relative handle) = handle := by
  rw [Server.absolute, Server.relative]
  bv_omega

theorem relative_absolute (s : Server) (handle : Handle) : s.relative (s.absolute handle) = handle := by
  rw [Server.absolute, Server.relative]
  bv_omega

/-- A relative handle that is not above the length of the range. -/
theorem holds_absolute (hstart : 0 < s.startHandle.toNat) (horder : s.startHandle.toNat ≤ s.endHandle.toNat)
    (hpos : 0 < handle.toNat) (hle : handle.toNat ≤ s.endHandle.toNat - s.startHandle.toNat + 1) :
    s.holds (s.absolute handle) = true := by
  have hend := s.endHandle.isLt
  rw [Server.holds_iff, Server.absolute]
  bv_omega

theorem Separate.resolve (h : Separate servers) (hs : s ∈ servers) (hh : s.holds handle) :
    gattManagerDataResolveServerHandle servers handle = some (s.task, s.relative handle) := by
  rw [gattManagerDataResolveServerHandle,
    find?_eq_some_of_pairwise (p := fun s => s.holds handle) (h.disjoint.imp fun hst => hst handle) hs hh]
  rfl

theorem Separate.databaseHandle (h : Separate servers) (hvalid : Valid servers) (hs : s ∈ servers)
    (hh : s.holds (s.absolute handle) = true) :
    gattManagerDataGetServerDatabaseHandle servers s.task handle = s.absolute handle := by
  rw [gattManagerDataGetServerDatabaseHandle, if_neg (hvalid s hs).1,
    find?_eq_some_of_pairwise (p := fun e : Server => decide (e.task = s.task ∧ e.holds (e.absolute handle) = true))
      (h.tasks.imp fun hst hboth => hst ?_) hs (by simpa using hh)]
  · rfl
  · obtain ⟨ha, hb⟩ := hboth
    exact (of_decide_eq_true ha).1.trans (of_decide_eq_true hb).1.symm

theorem Separate.translates (h : Separate servers) (hvalid : Valid servers) : Translates servers := by
  have hback : ∀ s ∈ servers, ∀ handle, s.holds handle →
      gattManagerDataGetServerDatabaseHandle servers s.task (s.relative handle) = handle := by
    intro s hs handle hh
    rw [h.databaseHandle hvalid hs (by rwa [absolute_relative]), absolute_relative]
  refine ⟨fun s hs => BitVec.le_def.mpr (h.ordered s hs), h.disjoint, fun s hs handle hh => ?_,
    fun s hs handle hh task => ?_, hback, fun s hs handle hpos hle => ?_, fun s hs handle hh cid => ?_⟩
  · exact relative_toNat (hvalid s hs).2 hh
  · rw [gattManagerServerAccessInd, h.resolve hs hh]
    rfl
  · have hh := holds_absolute (hvalid s hs).2 (h.ordered s hs) hpos hle
    rw [h.databaseHandle hvalid hs hh, h.resolve hs hh, relative_absolute]
  · have hne : handle ≠ 0 := by
      rintro rfl
      have hlow := (Server.holds_iff.mp hh).1
      have hstart := (hvalid s hs).2
      exact absurd (hstart.trans_le hlow) (lt_irrefl 0)
    rw [gattManagerRemoteClientNotify, if_neg fun hnull => (hvalid s hs).1 hnull.1, hback s hs handle hh]
    exact congrArg some (if_pos hne)

/-- Two servers of one task cannot both be reached. -/
theorem Translates.separate (h : Translates servers) : Separate servers := by
  have hordered : ∀ s ∈ servers, s.startHandle.toNat ≤ s.endHandle.toNat :=
    fun s hs => BitVec.le_def.mp (h.ordered s hs)
  refine ⟨hordered, h.disjoint, ?_⟩
  refine h.disjoint.imp_of_mem fun {s t} hs ht hst htask => ?_
  have hsstart : s.holds s.startHandle = true := Server.holds_iff.mpr ⟨le_rfl, hordered s hs⟩
  have htstart : t.holds t.startHandle = true := Server.holds_iff.mpr ⟨le_rfl, hordered t ht⟩
  have hone : ∀ e : Server, e.relative e.startHandle = 1 := fun e => by
    rw [Server.relative]
    bv_omega
  have hback := h.back t ht _ htstart
  rw [hone, ← htask, ← hone s, h.back s hs _ hsstart] at hback
  exact hst s.startHandle ⟨hsstart, hback ▸ htstart⟩

theorem translates_iff_separate (hvalid : Valid servers) : Translates servers ↔ Separate servers :=
  ⟨fun h => h.separate, fun h => h.translates hvalid⟩

/-! ### One registration -/

/-- The range is in order and encloses no range of the table, and its task has none yet. -/
def Fits (servers : List Server) (r : ServerRegistration) : Prop :=
  r.startHandle ≤ r.endHandle ∧
    ∀ s ∈ servers, ¬(r.startHandle < s.startHandle ∧ s.endHandle < r.endHandle) ∧ s.task ≠ r.task

variable {r : ServerRegistration}

theorem handlesValid_iff : gattManagerDataServerHandlesValid servers r = true ↔
    ∀ s ∈ servers, ¬s.holds r.startHandle = true ∧ ¬s.holds r.endHandle = true := by
  simp [gattManagerDataServerHandlesValid]

theorem separate_append (hr : gattManagerDataServerHandlesValid servers r = true)
    (h : Separate servers) : Separate (servers ++ [r.server]) ↔ Fits servers r := by
  rw [handlesValid_iff] at hr
  constructor
  · rintro ⟨hordered, hdisjoint, htasks⟩
    have horder : r.startHandle.toNat ≤ r.endHandle.toNat :=
      hordered r.server (mem_append_right _ (mem_singleton_self _))
    refine ⟨BitVec.le_def.mpr horder, fun s hs => ⟨?_, ?_⟩⟩
    · rintro ⟨hstart, hend⟩
      rw [BitVec.lt_def] at hstart hend
      have hs' : s.holds s.startHandle = true := Server.holds_iff.mpr ⟨le_rfl, h.ordered s hs⟩
      have hr' : r.server.holds s.startHandle = true := by
        refine Server.holds_iff.mpr ⟨hstart.le, ?_⟩
        exact (h.ordered s hs).trans hend.le
      exact (pairwise_append.mp hdisjoint).2.2 s hs r.server (mem_singleton_self _) s.startHandle ⟨hs', hr'⟩
    · exact (pairwise_append.mp htasks).2.2 s hs r.server (mem_singleton_self _)
  · rintro ⟨horder, hfits⟩
    refine ⟨fun s hs => ?_, ?_, ?_⟩
    · obtain hs | hs := mem_append.mp hs
      · exact h.ordered s hs
      · obtain rfl := mem_singleton.mp hs
        exact BitVec.le_def.mp horder
    · refine pairwise_append.mpr ⟨h.disjoint, pairwise_singleton _ _, fun s hs t ht handle hboth => ?_⟩
      obtain rfl := mem_singleton.mp ht
      -- the new range meets the old one in neither of its ends: it would have to enclose it
      obtain ⟨hstart, hend⟩ := hr s hs
      have henclosed := (hfits s hs).1
      rw [Server.holds_iff] at hstart hend
      obtain ⟨hs', hr'⟩ := hboth
      rw [Server.holds_iff] at hs' hr'
      rw [BitVec.lt_def, BitVec.lt_def] at henclosed
      change r.startHandle.toNat ≤ handle.toNat ∧ handle.toNat ≤ r.endHandle.toNat at hr'
      omega
    · refine pairwise_append.mpr ⟨h.tasks, pairwise_singleton _ _, fun s hs t ht => ?_⟩
      obtain rfl := mem_singleton.mp ht
      exact (hfits s hs).2

/-- There are fewer servers than handles: the count does not wrap. -/
theorem Separate.length_lt (h : Separate servers) (hvalid : Valid servers)
    (hr : gattManagerDataServerHandlesValid servers r = true) (hstart : 0 < r.startHandle.toNat) :
    servers.length + 1 ≠ 2 ^ 16 := by
  have hstarts : ((0 : Handle) :: r.startHandle :: servers.map Server.startHandle).Nodup := by
    refine nodup_cons.mpr ⟨?_, nodup_cons.mpr ⟨?_, ?_⟩⟩
    · rw [mem_cons]
      rintro (hzero | hmem)
      · rw [← hzero] at hstart
        exact lt_irrefl 0 hstart
      · obtain ⟨s, hs, hzero⟩ := mem_map.mp hmem
        have hpos := (hvalid s hs).2
        rw [hzero] at hpos
        exact lt_irrefl 0 hpos
    · intro hmem
      obtain ⟨s, hs, heq⟩ := mem_map.mp hmem
      refine (handlesValid_iff.mp hr s hs).1 ?_
      rw [← heq]
      exact Server.holds_iff.mpr ⟨le_rfl, h.ordered s hs⟩
    · refine pairwise_map.mpr (h.disjoint.imp_of_mem fun {s t} hs ht hst heq => hst s.startHandle ⟨?_, ?_⟩)
      · exact Server.holds_iff.mpr ⟨le_rfl, h.ordered s hs⟩
      · rw [heq]
        exact Server.holds_iff.mpr ⟨le_rfl, h.ordered t ht⟩
  have hcard := (hstarts.map (BitVec.equivFin (m := 16)).injective).length_le_card
  rw [Fintype.card_fin, length_map, length_cons, length_cons, length_map] at hcard
  omega

/-! ### Runs -/

namespace Manager

variable {m t : Manager}

/-- A registration that the manager accepts fits its table. -/
def AcceptsFitting (m : Manager) : Setup → Prop
  | .registerServer r => m.initialisationState = .registration → r.paramsValid = true → m.db ≠ none →
      gattManagerDataServerHandlesValid m.servers r = true → Fits m.servers r
  | _ => True

/-- What a registration does to the table. -/
theorem registerServer_cases (m : Manager) (r : ServerRegistration) :
    (m.gattManagerRegisterServer r).1 = m ∧
        ¬(m.initialisationState = .registration ∧ r.paramsValid = true ∧ m.db ≠ none ∧
          gattManagerDataServerHandlesValid m.servers r = true) ∨
      (m.initialisationState = .registration ∧ r.paramsValid = true ∧ m.db ≠ none ∧
          gattManagerDataServerHandlesValid m.servers r = true) ∧
        (m.gattManagerRegisterServer r).1 = { m with
          servers := if m.servers.length + 1 = 2 ^ 16 then [] else m.servers ++ [r.server] } := by
  rw [gattManagerRegisterServer, gattManagerDataAddServer]
  by_cases hstate : m.initialisationState = .registration
  · by_cases hparams : r.paramsValid = true
    · by_cases hdb : m.db = none
      · simp [hstate, hparams, hdb]
      · by_cases hhandles : gattManagerDataServerHandlesValid m.servers r = true
        · simp [hstate, hparams, hdb, hhandles]
        · simp [hstate, hparams, hdb, hhandles]
    · simp [hstate, hparams]
  · simp [hstate]

theorem valid_of_paramsValid (h : r.paramsValid = true) :
    r.task ≠ 0 ∧ 0 < r.startHandle.toNat := by
  obtain ⟨-, hstart, htask⟩ := of_decide_eq_true h
  refine ⟨htask, Nat.pos_of_ne_zero fun hzero => hstart ?_⟩
  exact BitVec.eq_of_toNat_eq hzero

/-- The table of a step that registers no server is the same. -/
theorem setup_servers {e : Setup} (he : ∀ r, e ≠ .registerServer r) (ht : m.setup e = some t) :
    t.servers = m.servers := by
  cases e with
  | registerServer r => exact absurd rfl (he r)
  | registerConstDb db =>
    obtain rfl := Option.some.inj ht
    rw [gattManagerRegisterConstDb]
    split_ifs <;> rfl
  | registerWithGatt =>
    obtain rfl := Option.some.inj ht
    rfl
  | gattInitCfm success =>
    rw [setup, handleGattInitCfm] at ht
    split_ifs at ht <;> (obtain rfl := Option.some.inj ht; rfl)

/-- One step keeps the translation right exactly if the registration that it accepts fits. -/
theorem setup_translates {e : Setup} (hvalid : Valid m.servers) (h : Translates m.servers) (ht : m.setup e = some t) :
    Valid t.servers ∧ (Translates t.servers ↔ m.AcceptsFitting e) := by
  by_cases he : ∃ r, e = .registerServer r
  · obtain ⟨r, rfl⟩ := he
    obtain rfl : (m.gattManagerRegisterServer r).1 = t := Option.some.inj ht
    obtain ⟨hsame, hrefused⟩ | ⟨⟨hstate, hparams, hdb, hhandles⟩, hadded⟩ := registerServer_cases m r
    · rw [hsame]
      refine ⟨hvalid, fun _ hstate hparams hdb hhandles => ?_, fun _ => h⟩
      exact absurd ⟨hstate, hparams, hdb, hhandles⟩ hrefused
    · have hr := valid_of_paramsValid hparams
      rw [hadded, if_neg (h.separate.length_lt hvalid hhandles hr.2)]
      have hvalid' : Valid (m.servers ++ [r.server]) := by
        intro s hs
        obtain hs | hs := mem_append.mp hs
        · exact hvalid s hs
        · obtain rfl := mem_singleton.mp hs
          exact hr
      refine ⟨hvalid', ?_⟩
      rw [translates_iff_separate hvalid', separate_append hhandles h.separate]
      exact ⟨fun hfits _ _ _ _ => hfits, fun hfits => hfits hstate hparams hdb hhandles⟩
  · have hother : ∀ r, e ≠ .registerServer r := fun r hr => he ⟨r, hr⟩
    rw [setup_servers hother ht]
    refine ⟨hvalid, fun _ => ?_, fun _ => h⟩
    cases e with
    | registerServer r => exact absurd rfl (hother r)
    | _ => trivial

/-- In every run of registrations, the accesses and the requests of the servers are translated. -/
def AlwaysTranslates : Prop :=
  ∀ (es : List Setup) (t : Manager), Lib.run Manager.setup init es = some t → Translates t.servers

/-- The translation is right all along a run exactly if every registration that is accepted fits the table. -/
theorem translates_iff (es : List Setup) :
    (∀ fs, fs <+: es → ∀ t, Lib.run Manager.setup init fs = some t → Translates t.servers) ↔
      Lib.RunMeets Manager.setup AcceptsFitting init es := by
  have hvalid : Valid init.servers := fun s hs => absurd hs not_mem_nil
  have hinit : Translates init.servers := (translates_iff_separate hvalid).mpr
    ⟨fun s hs => absurd hs not_mem_nil, List.Pairwise.nil, List.Pairwise.nil⟩
  refine Lib.runMeets_iff (I := fun m => Valid m.servers) (P := fun m => Translates m.servers)
    (fun m e t hv h ht => setup_translates hv h ht) (fun m e he => ?_) es hvalid hinit
  cases e with
  | registerServer r => cases he
  | _ => trivial

/-- A range that encloses another one is accepted. -/
theorem not_alwaysTranslates : ¬AlwaysTranslates := by
  intro h
  have hruns : (Lib.run Manager.setup init
      [.registerConstDb [1], .registerServer ⟨1, 10, 20⟩, .registerServer ⟨2, 1, 30⟩]).any fun t =>
      t.servers = [⟨1, 10, 20, false⟩, ⟨2, 1, 30, false⟩] := by decide
  obtain ⟨t, ht, hservers⟩ := (Option.any_eq_true _ _).mp hruns
  have htranslates := h _ t ht
  rw [of_decide_eq_true hservers] at htranslates
  have haccess := htranslates.access ⟨2, 1, 30, false⟩ (by decide) 15 (by decide) 9
  exact absurd haccess (by decide)

end Manager

end Cbps.GattManager
