import Cbps.GattManager.Waits
import Mathlib.Data.List.Nodup

/-!
# Reliable writes

`gatt_manager_server.c` and `gatt_manager_data.c`: a remote device prepares writes on several servers, and
executes or cancels all of them with one request, which is passed on to every server that is marked. The last
answer of these is passed on to GATT. A server that is not in the table is the application.

`accounted_of_run`: every server that has been prepared gets one indication, and GATT one response for every
execute, after the last answer and with success exactly if all answers are, as long as the writes are alone.
-/

namespace Cbps.GattManager

open List Function

/-- `GATT_ACCESS_IND_T`. -/
structure Access where
  cid : Cid
  handle : Handle
  flags : BitVec 16
  offset : BitVec 16
  value : List (BitVec 8)
  deriving DecidableEq, Repr

/-- `ATT_ACCESS_WRITE`. -/
def attAccessWrite : BitVec 16 := 0x0002

/-- `ATT_ACCESS_WRITE_COMPLETE`. -/
def attAccessWriteComplete : BitVec 16 := 0x4000

/-- The access is a write that is only prepared. -/
def Access.isPrepare (ind : Access) : Bool :=
  ind.flags &&& (attAccessWrite ||| attAccessWriteComplete) = attAccessWrite

/-- To whom an access is delivered: a server of the table, or the application. -/
inductive Target
  | server (i : ℕ)
  | application
  deriving DecidableEq, Repr

/-- An entry of the history. `access` is an access of one handle, with its target, its task and the handle that it is
told. `execute` is delivered to the targets that are listed with their tasks. `answer` is the answer to an execute,
with what is passed on to GATT, and `response` the response to another access. -/
inductive WriteObs
  | access (ind : Access) (target : Target) (task : Task) (handle : Handle)
  | execute (ind : Access) (targets : List (Target × Task))
  | answer (task : Task) (cid : Cid) (result : BitVec 16) (response : Option (BitVec 16))
  | response (cid : Cid) (handle : Handle) (result : BitVec 16) (value : List (BitVec 8))
  deriving DecidableEq, Repr

/-- The servers, with the marks of the prepared writes. -/
structure Writes where
  applicationTask : Task
  servers : List Server
  applicationPendingWrite : Bool
  executeWriteResult : BitVec 16
  log : List WriteObs
  deriving DecidableEq

namespace Writes

variable (w : Writes)

def note (o : WriteObs) : Writes := { w with log := w.log ++ [o] }

/-- The target of an access of the handle. -/
def targetOf (handle : Handle) : Target :=
  match w.servers.findIdx? fun s => s.holds handle with
  | some i => .server i
  | none => .application

/-- `gattManagerDataSetServerPendingWriteFlag`. -/
def setServerPendingWriteFlag (handle : Handle) : Writes :=
  { w with servers := w.servers.map fun s => if s.holds handle then { s with pendingWrite := true } else s }

/-- `gattManagerDataServerIteratorPrepareWriteFlagsNext`: the servers that are marked, and then the application. -/
def prepareWriteFlags : List (Target × Task) :=
  ((w.servers.zipIdx.filter fun e => e.1.pendingWrite).map fun e => (Target.server e.2, e.1.task)) ++
    if w.applicationPendingWrite then [(.application, w.applicationTask)] else []

/-- `gattManagerServerAccessInd`. -/
def gattManagerServerAccessInd (ind : Access) : Writes :=
  if ind.handle ≠ 0 then
    match gattManagerDataResolveServerHandle w.servers ind.handle with
    | some (task, adjusted) =>
      (if ind.isPrepare then w.setServerPendingWriteFlag ind.handle else w).note
        (.access ind (w.targetOf ind.handle) task adjusted)
    | none =>
      { w with applicationPendingWrite := w.applicationPendingWrite || ind.isPrepare }.note
        (.access ind .application w.applicationTask ind.handle)
  else w.note (.execute ind w.prepareWriteFlags)

/-- `gattManagerDataServerGetPrepareWriteFlag`. Without a table no task has a mark. -/
def serverGetPrepareWriteFlag (task : Task) : Bool :=
  if w.servers = [] then false
  else
    match w.servers.find? fun s => s.task = task with
    | some s => s.pendingWrite
    | none => task = w.applicationTask ∧ w.applicationPendingWrite

/-- `gattManagerDataServerClearPrepareWriteFlag`, which returns whether no mark is left. -/
def serverClearPrepareWriteFlag (task : Task) : Writes × Bool :=
  if w.servers = [] then (w, false)
  else
    ({ w with
        servers := w.servers.map fun s => if s.task = task then { s with pendingWrite := false } else s
        applicationPendingWrite := task ≠ w.applicationTask ∧ w.applicationPendingWrite },
      (w.servers.all fun s => s.task = task ∨ !s.pendingWrite) ∧
        (task = w.applicationTask ∨ !w.applicationPendingWrite))

/-- `GattManagerServerAccessResponse`, which returns whether the response has been taken. -/
def gattManagerServerAccessResponse (task : Task) (cid : Cid) (handle : Handle) (result : BitVec 16)
    (value : List (BitVec 8)) : Writes × Bool :=
  if task = 0 ∧ cid = 0 ∧ handle = 0 then (w, false)
  else if handle = 0 then
    if !w.serverGetPrepareWriteFlag task then (w.note (.answer task cid result none), false)
    else
      match (if result ≠ 0 then { w with executeWriteResult := result } else w).serverClearPrepareWriteFlag task with
      | (w, true) => (w.note (.answer task cid result (some w.executeWriteResult)), true)
      | (w, false) => (w.note (.answer task cid result none), true)
  else (w.note (.response cid (accessResponseHandle w.servers task handle) result value), true)

end Writes

/-- What the writes are driven by. -/
inductive WriteInput
  | access (ind : Access)
  | respond (task : Task) (cid : Cid) (handle : Handle) (result : BitVec 16) (value : List (BitVec 8))
  deriving DecidableEq

/-- An access of a remote device, or a response of a server. -/
def Writes.step (w : Writes) : WriteInput → Option Writes
  | .access ind => some (w.gattManagerServerAccessInd ind)
  | .respond task cid handle result value => some (w.gattManagerServerAccessResponse task cid handle result value).1

/-! ### What a reliable write is -/

/-- A connection: the targets that it has prepared, and the tasks that have not answered its execute yet. `success`
says that the answers so far are. -/
structure Phase where
  prepared : List Target
  waiting : List Task
  success : Bool
  deriving DecidableEq

/-- A connection without a reliable write. -/
def Phase.fresh : Phase := ⟨[], [], true⟩

/-- An entry of the history. `none` is an entry that is out of order: an execute that is not delivered once to every
target that is prepared, or a response to GATT that is not the one for the last answer. -/
def account (phases : Cid → Phase) : WriteObs → Option (Cid → Phase)
  | .access ind target _ _ =>
    let phase := phases ind.cid
    some (if ind.isPrepare then
      Function.update phases ind.cid { phase with prepared := phase.prepared.insert target } else phases)
  | .execute ind targets =>
    let prepared := (phases ind.cid).prepared
    if targets ≠ [] ∧ (targets.map Prod.fst).Nodup ∧ targets.map Prod.fst ⊆ prepared ∧
        prepared ⊆ targets.map Prod.fst then
      some (Function.update phases ind.cid ⟨[], targets.map Prod.snd, true⟩)
    else none
  | .answer task cid result response =>
    let waiting := (phases cid).waiting.erase task
    let success := (phases cid).success ∧ result = 0
    match waiting, response with
    | [], some r => if r = 0 ↔ success then some (Function.update phases cid .fresh) else none
    | _ :: _, none => some (Function.update phases cid ⟨[], waiting, success⟩)
    | _, _ => none
  | .response _ _ _ _ => some phases

/-- The connections after a history. -/
def accounts (log : List WriteObs) : Option (Cid → Phase) := log.foldlM account fun _ => .fresh

namespace Writes

/-- The history of the writes is in order. -/
def Accounted (w : Writes) : Prop := (accounts w.log).isSome = true

/-- A connection, as the history says. -/
def phase (w : Writes) (cid : Cid) : Phase := ((accounts w.log).map fun phases => phases cid).getD .fresh

/-- What the remote devices and the servers promise: a connection waits for the response to its execute, and a task
answers an execute that it has not answered yet. -/
def Promised (w : Writes) : WriteInput → Prop
  | .access ind => (w.phase ind.cid).waiting = []
  | .respond task cid handle _ _ => handle = 0 → task ∈ (w.phase cid).waiting

/-- No server and no application is marked. -/
def unmarked (w : Writes) : Bool := w.servers.all (fun s => !s.pendingWrite) && !w.applicationPendingWrite

/-- The target is the first one of its task. -/
def IsFirst (w : Writes) : Target → Prop
  | .server i => ∀ j < i, (w.servers.map Server.task)[j]? ≠ (w.servers.map Server.task)[i]?
  | .application => w.servers.map Server.task ≠ [] ∧ w.applicationTask ∉ w.servers.map Server.task

instance (w : Writes) (target : Target) : Decidable (w.IsFirst target) := by
  unfold IsFirst
  split <;> infer_instance

/-- A write is prepared only while no other connection has prepared one, on a handle of one server and for a task
that has no other server. A connection executes only what it has prepared, and the result of an earlier write is not
left behind. -/
def Alone (w : Writes) : WriteInput → Prop
  | .access ind =>
    if ind.handle ≠ 0 then
      ind.isPrepare = true → (w.unmarked = true ∨ (w.phase ind.cid).prepared ≠ []) ∧
        w.servers.Pairwise (fun s t => ¬(s.holds ind.handle = true ∧ t.holds ind.handle = true)) ∧
        w.IsFirst (w.targetOf ind.handle)
    else (w.phase ind.cid).prepared ≠ []
  | .respond task cid handle result _ =>
    handle = 0 → (w.phase cid).waiting = [task] → (w.phase cid).success = true → result = 0 → w.executeWriteResult = 0

instance (w : Writes) (i : WriteInput) : Decidable (w.Promised i) := by
  unfold Promised
  split <;> infer_instance

instance (w : Writes) (i : WriteInput) : Decidable (w.Alone i) := by
  unfold Alone
  split <;> infer_instance

variable {w t : Writes} {target : Target}

/-! ### Marks -/

/-- The target is marked. -/
def Marked (w : Writes) : Target → Prop
  | .server i => ∃ s, w.servers[i]? = some s ∧ s.pendingWrite = true
  | .application => w.applicationPendingWrite = true

/-- The task of a target. -/
def taskOf (w : Writes) : Target → Task
  | .server i => (w.servers.map Server.task)[i]?.getD 0
  | .application => w.applicationTask

/-- The tasks are the same. -/
structure SameTasks (w t : Writes) : Prop where
  servers : t.servers.map Server.task = w.servers.map Server.task
  application : t.applicationTask = w.applicationTask

theorem SameTasks.isFirst (h : SameTasks w t) (target : Target) : t.IsFirst target ↔ w.IsFirst target := by
  cases target <;> simp only [IsFirst, h.servers, h.application]

theorem SameTasks.taskOf (h : SameTasks w t) (target : Target) : t.taskOf target = w.taskOf target := by
  cases target <;> simp only [Writes.taskOf, h.servers, h.application]

variable {task : Task}

theorem mem_prepareWriteFlags :
    (target, task) ∈ w.prepareWriteFlags ↔ w.Marked target ∧ w.taskOf target = task := by
  rw [prepareWriteFlags, mem_append]
  cases target with
  | server i =>
    have happlication : (Target.server i, task) ∉
        if w.applicationPendingWrite then [(Target.application, w.applicationTask)] else [] := by
      split_ifs <;> simp
    rw [or_iff_left happlication, mem_map]
    constructor
    · rintro ⟨⟨s, j⟩, hmem, heq⟩
      obtain ⟨hzip, hmark⟩ := mem_filter.mp hmem
      obtain ⟨hi, rfl⟩ := Prod.mk.inj heq
      obtain rfl : j = i := Target.server.inj hi
      have hs : w.servers[j]? = some s := mk_mem_zipIdx_iff_getElem?.mp hzip
      exact ⟨⟨s, hs, hmark⟩, by rw [Writes.taskOf, List.getElem?_map, hs]; rfl⟩
    · rintro ⟨⟨s, hs, hmark⟩, rfl⟩
      refine ⟨(s, i), mem_filter.mpr ⟨mk_mem_zipIdx_iff_getElem?.mpr hs, hmark⟩, ?_⟩
      rw [Writes.taskOf, List.getElem?_map, hs]
      rfl
  | application =>
    have hservers : (Target.application, task) ∉
        (w.servers.zipIdx.filter fun e => e.1.pendingWrite).map fun e => (Target.server e.2, e.1.task) := by
      simp
    rw [or_iff_right hservers]
    cases hmark : w.applicationPendingWrite with
    | false => simp [Marked, hmark]
    | true => simp [Marked, Writes.taskOf, hmark, eq_comm]

theorem nodup_prepareWriteFlags (w : Writes) : (w.prepareWriteFlags.map Prod.fst).Nodup := by
  have hservers : ((w.servers.zipIdx.filter fun e => e.1.pendingWrite).map fun e => Target.server e.2).Nodup := by
    have hindices : ((w.servers.zipIdx.filter fun e => e.1.pendingWrite).map Prod.snd).Nodup := by
      refine List.Nodup.sublist ((filter_sublist).map _) ?_
      rw [zipIdx_map_snd]
      exact nodup_range'
    have hmap := hindices.map (f := Target.server) fun i j hij => Target.server.inj hij
    rwa [map_map] at hmap
  rw [prepareWriteFlags, map_append, map_map]
  refine nodup_append.mpr ⟨hservers, ?_, ?_⟩
  · split_ifs <;> simp
  · intro a ha b hb
    obtain ⟨e, -, rfl⟩ := mem_map.mp ha
    split_ifs at hb
    · obtain rfl := mem_singleton.mp hb
      exact nofun
    · exact absurd hb not_mem_nil

/-- Two targets that are the first ones of their tasks have different tasks. -/
theorem isFirst_injective {a b : Target} (ha : w.IsFirst a) (hb : w.IsFirst b) (hma : w.Marked a) (hmb : w.Marked b)
    (h : w.taskOf a = w.taskOf b) : a = b := by
  have hfound : ∀ i, w.Marked (.server i) → (w.servers.map Server.task)[i]? = some (w.taskOf (.server i)) := by
    rintro i ⟨s, hs, -⟩
    rw [Writes.taskOf, List.getElem?_map, hs]
    rfl
  cases a with
  | server i =>
    have hi := hfound i hma
    cases b with
    | server j =>
      have hj := hfound j hmb
      obtain hij | rfl | hij := Nat.lt_trichotomy i j
      · exact absurd (hi.trans ((congrArg some h).trans hj.symm)) (hb i hij)
      · rfl
      · exact absurd (hj.trans ((congrArg some h.symm).trans hi.symm)) (ha j hij)
    | application =>
      rw [h] at hi
      exact absurd (mem_of_getElem? hi) hb.2
  | application =>
    cases b with
    | server j =>
      have hj := hfound j hmb
      rw [← h] at hj
      exact absurd (mem_of_getElem? hj) ha.2
    | application => rfl

theorem unmarked_iff : w.unmarked = true ↔ ∀ target, ¬w.Marked target := by
  rw [unmarked, Bool.and_eq_true, all_eq_true]
  constructor
  · rintro ⟨hservers, happlication⟩ target
    cases target with
    | server i =>
      rintro ⟨s, hs, hmark⟩
      have hunmarked := hservers s (mem_of_getElem? hs)
      rw [hmark] at hunmarked
      exact absurd hunmarked Bool.false_ne_true
    | application => simpa [Marked] using happlication
  · intro h
    refine ⟨fun s hs => ?_, by simpa [Marked] using h .application⟩
    obtain ⟨i, hi⟩ := List.getElem?_of_mem hs
    have hunmarked : ¬s.pendingWrite = true := fun hmark => h (.server i) ⟨s, hi, hmark⟩
    simpa using hunmarked

variable {handle : Handle}

/-- The mark of the only server that has the handle is set. -/
theorem marked_setServerPendingWriteFlag {i : ℕ}
    (hone : w.servers.Pairwise fun s t => ¬(s.holds handle = true ∧ t.holds handle = true))
    (hi : w.servers.findIdx? (fun s => s.holds handle) = some i) :
    (w.setServerPendingWriteFlag handle).Marked target ↔ target = .server i ∨ w.Marked target := by
  obtain ⟨hlt, hholds, -⟩ := List.findIdx?_eq_some_iff_getElem.mp hi
  cases target with
  | application => simp [Marked, setServerPendingWriteFlag]
  | server j =>
    have honly : ∀ s, w.servers[j]? = some s → s.holds handle = true → j = i := by
      intro s hs hholds'
      obtain ⟨hlt', rfl⟩ := List.getElem?_eq_some_iff.mp hs
      obtain hij | rfl | hij := Nat.lt_trichotomy j i
      · exact absurd ⟨hholds', hholds⟩ (pairwise_iff_getElem.mp hone j i hlt' hlt hij)
      · rfl
      · exact absurd ⟨hholds, hholds'⟩ (pairwise_iff_getElem.mp hone i j hlt hlt' hij)
    constructor
    · rintro ⟨s, hs, hmark⟩
      rw [setServerPendingWriteFlag, List.getElem?_map] at hs
      obtain ⟨s', hs', rfl⟩ := Option.map_eq_some_iff.mp hs
      split_ifs at hmark with hholds'
      · exact Or.inl (congrArg _ (honly s' hs' hholds'))
      · exact Or.inr ⟨s', hs', hmark⟩
    · rintro (heq | ⟨s, hs, hmark⟩)
      · obtain rfl := Target.server.inj heq
        refine ⟨{ w.servers[j] with pendingWrite := true }, ?_, rfl⟩
        rw [setServerPendingWriteFlag, List.getElem?_map, List.getElem?_eq_getElem hlt, Option.map_some, if_pos hholds]
      · refine ⟨if s.holds handle then { s with pendingWrite := true } else s, ?_, ?_⟩
        · rw [setServerPendingWriteFlag, List.getElem?_map, hs]
          rfl
        · split_ifs
          · rfl
          · exact hmark

theorem sameTasks_setServerPendingWriteFlag (handle : Handle) : SameTasks w (w.setServerPendingWriteFlag handle) := by
  refine ⟨?_, rfl⟩
  rw [setServerPendingWriteFlag, map_map]
  refine map_congr_left fun s _ => ?_
  dsimp only [comp_apply]
  split_ifs <;> rfl

/-- A marked target that is the first one of its task is found by its task. -/
theorem getPrepareWriteFlag_of_marked (hfirst : w.IsFirst target) (hmark : w.Marked target) :
    w.serverGetPrepareWriteFlag (w.taskOf target) = true := by
  rw [serverGetPrepareWriteFlag]
  cases target with
  | server i =>
    obtain ⟨s, hs, hmark⟩ := hmark
    obtain ⟨hlt, rfl⟩ := List.getElem?_eq_some_iff.mp hs
    have htask : w.taskOf (.server i) = w.servers[i].task := by
      rw [Writes.taskOf, List.getElem?_map, hs]
      rfl
    have hfind : w.servers.find? (fun s => s.task = w.servers[i].task) = some w.servers[i] := by
      refine List.find?_eq_some_iff_getElem.mpr ⟨decide_eq_true rfl, i, hlt, rfl, fun j hj => ?_⟩
      have hne := hfirst j hj
      rw [List.getElem?_map, List.getElem?_map, List.getElem?_eq_getElem hlt,
        List.getElem?_eq_getElem (hj.trans hlt)] at hne
      simpa using fun heq : w.servers[j].task = w.servers[i].task => hne (congrArg some heq)
    rw [if_neg (ne_nil_of_mem (getElem_mem hlt)), htask, hfind]
    exact hmark
  | application =>
    have hnil : w.servers ≠ [] := fun hnil => hfirst.1 (by rw [hnil]; rfl)
    have hfind : w.servers.find? (fun s => s.task = w.applicationTask) = none := by
      refine List.find?_eq_none.mpr fun s hs htask => hfirst.2 (mem_map.mpr ⟨s, hs, ?_⟩)
      exact of_decide_eq_true htask
    rw [if_neg hnil, Writes.taskOf, hfind]
    exact decide_eq_true ⟨rfl, hmark⟩

/-- What the clearing of the marks of a task does. -/
theorem clearPrepareWriteFlag_spec (hnil : w.servers ≠ []) (task : Task) :
    SameTasks w (w.serverClearPrepareWriteFlag task).1 ∧
      (w.serverClearPrepareWriteFlag task).1.executeWriteResult = w.executeWriteResult ∧
      (w.serverClearPrepareWriteFlag task).1.log = w.log ∧
      (∀ target, (w.serverClearPrepareWriteFlag task).1.Marked target ↔ w.Marked target ∧ w.taskOf target ≠ task) ∧
      ((w.serverClearPrepareWriteFlag task).2 = true ↔ ∀ target, w.Marked target → w.taskOf target = task) := by
  rw [serverClearPrepareWriteFlag, if_neg hnil]
  have htask : ∀ i s, w.servers[i]? = some s → w.taskOf (.server i) = s.task := by
    intro i s hs
    rw [Writes.taskOf, List.getElem?_map, hs]
    rfl
  refine ⟨⟨?_, rfl⟩, rfl, rfl, fun target => ?_, ?_⟩
  · rw [map_map]
    refine map_congr_left fun s _ => ?_
    dsimp only [comp_apply]
    split_ifs <;> rfl
  · cases target with
    | server i =>
      constructor
      · rintro ⟨s, hs, hmark⟩
        rw [List.getElem?_map] at hs
        obtain ⟨s', hs', rfl⟩ := Option.map_eq_some_iff.mp hs
        split_ifs at hmark with heq
        exact ⟨⟨s', hs', hmark⟩, by rwa [htask i s' hs']⟩
      · rintro ⟨⟨s, hs, hmark⟩, hne⟩
        rw [htask i s hs] at hne
        refine ⟨s, ?_, hmark⟩
        rw [List.getElem?_map, hs, Option.map_some, if_neg hne]
    | application =>
      constructor
      · intro h
        obtain ⟨hne, hmark⟩ := of_decide_eq_true h
        exact ⟨hmark, Ne.symm hne⟩
      · rintro ⟨hmark, hne⟩
        exact decide_eq_true ⟨Ne.symm hne, hmark⟩
  · simp only [decide_eq_true_iff, all_eq_true, Bool.not_eq_true']
    constructor
    · rintro ⟨hservers, happlication⟩ target hmark
      cases target with
      | server i =>
        obtain ⟨s, hs, hmark⟩ := hmark
        rw [htask i s hs]
        refine (hservers s (mem_of_getElem? hs)).resolve_right fun hunmarked => ?_
        exact absurd (hunmarked.symm.trans hmark) Bool.false_ne_true
      | application =>
        refine (happlication.resolve_right fun hunmarked => ?_).symm
        exact absurd (hunmarked.symm.trans hmark) Bool.false_ne_true
    · intro h
      refine ⟨fun s hs => ?_, ?_⟩
      · obtain ⟨i, hi⟩ := List.getElem?_of_mem hs
        cases hmark : s.pendingWrite with
        | false => exact Or.inr rfl
        | true => exact Or.inl ((htask i s hi).symm.trans (h (.server i) ⟨s, hi, hmark⟩))
      · cases hmark : w.applicationPendingWrite with
        | false => exact Or.inr rfl
        | true => exact Or.inl (h .application hmark).symm

/-! ### The invariant -/

/-- A connection that may have prepared the marked targets, or waits for their answers. -/
def Owns (w : Writes) (phase : Phase) : Prop :=
  (phase.waiting = [] ∧ phase.success = true ∧ ∀ target, target ∈ phase.prepared ↔ w.Marked target) ∨
    (phase.prepared = [] ∧ phase.waiting ≠ [] ∧ phase.waiting.Nodup ∧
      (∀ task, task ∈ phase.waiting ↔ ∃ target, w.Marked target ∧ w.taskOf target = task) ∧
      (phase.success = false → w.executeWriteResult ≠ 0))

/-- The marks are those of one connection, and of targets that are the first ones of their tasks. -/
structure Holds (w : Writes) (phases : Cid → Phase) (cid : Cid) : Prop where
  accounts : accounts w.log = some phases
  others : ∀ c, c ≠ cid → phases c = .fresh
  owns : w.Owns (phases cid)
  first : ∀ target, w.Marked target → w.IsFirst target

def Inv (w : Writes) : Prop := ∃ phases cid, w.Holds phases cid

variable {phases : Cid → Phase} {cid : Cid}

theorem Holds.phase_eq (h : w.Holds phases cid) (c : Cid) :
    w.phase c = phases c := by
  rw [phase, h.accounts]
  rfl

/-- A connection that has something to do owns the marks. -/
theorem Holds.own {cid c : Cid} (h : w.Holds phases cid)
    (hc : w.unmarked = true ∧ (phases c).waiting = [] ∨ (phases c).prepared ≠ [] ∨ (phases c).waiting ≠ []) :
    w.Holds phases c := by
  by_cases heq : c = cid
  · exact heq ▸ h
  · have hfresh := h.others c heq
    rw [hfresh] at hc
    obtain ⟨hunmarked, -⟩ | hbusy | hbusy := hc
    · have hnone := unmarked_iff.mp hunmarked
      have howner : phases cid = .fresh := by
        obtain ⟨hwaiting, hsuccess, hprepared⟩ | ⟨-, hne, -, hwaiting, -⟩ := h.owns
        · have hnil : (phases cid).prepared = [] :=
            eq_nil_iff_forall_not_mem.mpr fun target hmem => hnone target ((hprepared target).mp hmem)
          calc phases cid = ⟨(phases cid).prepared, (phases cid).waiting, (phases cid).success⟩ := rfl
            _ = .fresh := by rw [hnil, hwaiting, hsuccess]; rfl
        · obtain ⟨task, hmem⟩ := exists_mem_of_ne_nil _ hne
          obtain ⟨target, hmark, -⟩ := (hwaiting task).mp hmem
          exact absurd hmark (hnone target)
      refine ⟨h.accounts, fun c' hc' => ?_, ?_, h.first⟩
      · by_cases heq' : c' = cid
        · rw [heq', howner]
        · exact h.others c' heq'
      · rw [hfresh]
        refine Or.inl ⟨rfl, rfl, fun target => ?_⟩
        exact ⟨fun hmem => absurd hmem not_mem_nil, fun hmark => absurd hmark (hnone target)⟩
    · exact absurd rfl hbusy
    · exact absurd rfl hbusy

theorem accounts_note (h : accounts w.log = some phases) (o : WriteObs) :
    accounts (w.note o).log = account phases o := by
  rw [GattManager.accounts] at h
  rw [GattManager.accounts, note, foldlM_append, h]
  exact Option.bind_fun_some _

/-- An entry that accounts for nothing. -/
theorem Holds.note (h : w.Holds phases cid) {o : WriteObs}
    (ho : account phases o = some phases) : (w.note o).Holds phases cid :=
  ⟨(accounts_note h.accounts o).trans ho, h.others, h.owns, h.first⟩

/-! ### One input -/

theorem targetOf_none (h : gattManagerDataResolveServerHandle w.servers handle = none) :
    w.targetOf handle = .application := by
  have hnone := Option.map_eq_none_iff.mp h
  rw [targetOf, List.findIdx?_eq_none_iff.mpr fun s hs => by simpa using List.find?_eq_none.mp hnone s hs]

theorem targetOf_some {r : Task × Handle}
    (h : gattManagerDataResolveServerHandle w.servers handle = some r) :
    ∃ i, w.servers.findIdx? (fun s => s.holds handle) = some i ∧ w.targetOf handle = .server i := by
  obtain ⟨s, hs, -⟩ := Option.map_eq_some_iff.mp h
  cases hi : w.servers.findIdx? fun s => s.holds handle with
  | none =>
    have hnot := List.findIdx?_eq_none_iff.mp hi s (mem_of_find?_eq_some hs)
    exact absurd ((List.find?_some hs).symm.trans hnot) nofun
  | some i =>
    refine ⟨i, rfl, ?_⟩
    rw [targetOf, hi]

/-- The owner of the marks prepares a target. -/
theorem Holds.prepare {ind : Access} (h : w.Holds phases ind.cid)
    (hwaiting : (phases ind.cid).waiting = []) (hprepare : ind.isPrepare = true) (htasks : SameTasks w t)
    (hlog : t.log = w.log) (hmarked : ∀ target', t.Marked target' ↔ target' = target ∨ w.Marked target')
    (hfirst : w.IsFirst target) (task : Task) (handle : Handle) :
    (t.note (.access ind target task handle)).Inv := by
  refine ⟨Function.update phases ind.cid { phases ind.cid with prepared := (phases ind.cid).prepared.insert target },
    ind.cid, ?_, fun c hc => ?_, ?_, fun target' hmark => ?_⟩
  · rw [accounts_note (hlog ▸ h.accounts), account]
    exact congrArg some (if_pos hprepare)
  · rw [update_of_ne hc]
    exact h.others c hc
  · rw [update_self]
    obtain ⟨-, hsuccess, hprepared⟩ | ⟨-, hne, -⟩ := h.owns
    · refine Or.inl ⟨hwaiting, hsuccess, fun target' => ?_⟩
      rw [mem_insert_iff, hprepared]
      exact (hmarked target').symm
    · exact absurd hwaiting hne
  · refine (htasks.isFirst target').mpr ?_
    obtain rfl | hmark := (hmarked target').mp hmark
    · exact hfirst
    · exact h.first target' hmark

theorem Inv.access {ind : Access} (h : w.Inv) (hpromised : w.Promised (.access ind)) (halone : w.Alone (.access ind)) :
    (w.gattManagerServerAccessInd ind).Inv := by
  obtain ⟨phases, cid, h⟩ := h
  have hwaiting : (phases ind.cid).waiting = [] := (congrArg _ (h.phase_eq ind.cid)).symm.trans hpromised
  rw [gattManagerServerAccessInd]
  by_cases hhandle : ind.handle ≠ 0
  · rw [if_pos hhandle]
    rw [Alone, if_pos hhandle] at halone
    cases hprepare : ind.isPrepare with
    | false =>
      have haccount : ∀ target task handle, account phases (.access ind target task handle) = some phases := by
        intro target task handle
        rw [account, hprepare]
        rfl
      split
      · exact ⟨phases, cid, h.note (haccount _ _ _)⟩
      · refine ⟨phases, cid, Holds.note (w := { w with
          applicationPendingWrite := w.applicationPendingWrite || false }) ?_ (haccount _ _ _)⟩
        rw [Bool.or_false]
        exact h
    | true =>
      obtain ⟨hown, hdisjoint, hfirst⟩ := halone hprepare
      have h' : w.Holds phases ind.cid := by
        refine h.own ?_
        obtain hunmarked | hprepared := hown
        · exact Or.inl ⟨hunmarked, hwaiting⟩
        · exact Or.inr (Or.inl (by rwa [h.phase_eq] at hprepared))
      split
      · next task adjusted hresolve =>
        obtain ⟨i, hi, htarget⟩ := targetOf_some hresolve
        rw [htarget] at hfirst ⊢
        rw [if_pos rfl]
        exact h'.prepare hwaiting hprepare (sameTasks_setServerPendingWriteFlag ind.handle) rfl
          (fun target' => marked_setServerPendingWriteFlag hdisjoint hi) hfirst task adjusted
      · next hresolve =>
        rw [targetOf_none hresolve] at hfirst
        refine h'.prepare (t := { w with applicationPendingWrite := w.applicationPendingWrite || true }) hwaiting hprepare
          ⟨rfl, rfl⟩ rfl (fun target' => ?_) hfirst w.applicationTask ind.handle
        cases target' with
        | server i =>
          have hne : Target.server i ≠ .application := nofun
          rw [or_iff_right hne]
          exact Iff.rfl
        | application => simp [Marked]
  · rw [if_neg hhandle]
    rw [Alone, if_neg hhandle] at halone
    have h' := h.own (c := ind.cid) (Or.inr (Or.inl (by rwa [h.phase_eq] at halone)))
    rw [h.phase_eq] at halone
    obtain ⟨-, -, hprepared⟩ | ⟨hnil, -⟩ := h'.owns
    · have hmem : ∀ target, target ∈ w.prepareWriteFlags.map Prod.fst ↔ w.Marked target := by
        intro target
        rw [mem_map]
        constructor
        · rintro ⟨⟨target, task⟩, hmem, rfl⟩
          exact (mem_prepareWriteFlags.mp hmem).1
        · intro hmark
          exact ⟨(target, w.taskOf target), mem_prepareWriteFlags.mpr ⟨hmark, rfl⟩, rfl⟩
      have hne : w.prepareWriteFlags ≠ [] := by
        obtain ⟨target, htarget⟩ := exists_mem_of_ne_nil _ halone
        exact fun hnil => ne_nil_of_mem ((hmem target).mpr ((hprepared target).mp htarget)) (by rw [hnil]; rfl)
      refine ⟨Function.update phases ind.cid ⟨[], w.prepareWriteFlags.map Prod.snd, true⟩, ind.cid, ?_, fun c hc => ?_,
        ?_, h'.first⟩
      · rw [accounts_note h.accounts, account]
        refine if_pos ⟨hne, nodup_prepareWriteFlags w, fun target htarget => ?_, fun target htarget => ?_⟩
        · exact (hprepared target).mpr ((hmem target).mp htarget)
        · exact (hmem target).mpr ((hprepared target).mp htarget)
      · rw [update_of_ne hc]
        exact h'.others c hc
      · rw [update_self]
        refine Or.inr ⟨rfl, fun hnil => hne (map_eq_nil_iff.mp hnil), ?_, fun task => ?_, nofun⟩
        · have hnodup : w.prepareWriteFlags.Nodup := (nodup_prepareWriteFlags w).of_map
          refine hnodup.map_on ?_
          rintro ⟨a, ta⟩ ha ⟨b, tb⟩ hb (htask : ta = tb)
          obtain ⟨hma, rfl⟩ := mem_prepareWriteFlags.mp ha
          obtain ⟨hmb, rfl⟩ := mem_prepareWriteFlags.mp hb
          obtain rfl := isFirst_injective (h'.first a hma) (h'.first b hmb) hma hmb htask
          rfl
        · rw [mem_map]
          constructor
          · rintro ⟨⟨target, task⟩, hmem, rfl⟩
            exact ⟨target, mem_prepareWriteFlags.mp hmem⟩
          · rintro ⟨target, hmark⟩
            exact ⟨(target, task), mem_prepareWriteFlags.mpr hmark, rfl⟩
    · exact absurd hnil halone

theorem Marked.servers_ne_nil (hmark : w.Marked target) (hfirst : w.IsFirst target) : w.servers ≠ [] := by
  intro hnil
  cases target with
  | server i =>
    obtain ⟨s, hs, -⟩ := hmark
    rw [hnil] at hs
    exact absurd hs nofun
  | application => exact hfirst.1 (by rw [hnil]; rfl)

/-- A task that is waited for answers. -/
theorem Holds.answer {result : BitVec 16} (h : w.Holds phases cid)
    (hprepared : (phases cid).prepared = []) (hnodup : (phases cid).waiting.Nodup)
    (hwaiting : ∀ task, task ∈ (phases cid).waiting ↔ ∃ target, w.Marked target ∧ w.taskOf target = task)
    (hfailed : (phases cid).success = false → w.executeWriteResult ≠ 0) (htask : task ∈ (phases cid).waiting)
    (halone : (phases cid).waiting = [task] → (phases cid).success = true → result = 0 → w.executeWriteResult = 0)
    (value : List (BitVec 8)) (hnull : ¬(task = 0 ∧ cid = 0 ∧ (0 : Handle) = 0)) :
    (w.gattManagerServerAccessResponse task cid 0 result value).1.Inv := by
  obtain ⟨target, hmark, rfl⟩ := (hwaiting task).mp htask
  have hfirst := h.first target hmark
  have hget := getPrepareWriteFlag_of_marked hfirst hmark
  rw [gattManagerServerAccessResponse, if_neg hnull, if_pos rfl, hget, if_neg (by decide)]
  -- the result of the answer is stored before the marks are cleared
  generalize hw : (if result ≠ 0 then { w with executeWriteResult := result } else w) = w'
  have hsame : w'.servers = w.servers ∧ w'.applicationTask = w.applicationTask ∧
      w'.applicationPendingWrite = w.applicationPendingWrite ∧ w'.log = w.log := by
    rw [← hw]
    split_ifs <;> exact ⟨rfl, rfl, rfl, rfl⟩
  have hresult : w'.executeWriteResult = if result ≠ 0 then result else w.executeWriteResult := by
    rw [← hw]
    split_ifs <;> rfl
  have htaskOf : ∀ target, w'.taskOf target = w.taskOf target := by
    intro target
    cases target <;> simp only [Writes.taskOf, hsame.1, hsame.2.1]
  have hmarked' : ∀ target, w'.Marked target ↔ w.Marked target := by
    intro target
    cases target <;> simp only [Marked, hsame.1, hsame.2.2.1]
  have hnil : w'.servers ≠ [] := hsame.1 ▸ hmark.servers_ne_nil hfirst
  obtain ⟨htasks, hstored, hlog, hmarks, hclear⟩ := clearPrepareWriteFlag_spec hnil (w.taskOf target)
  have hrest : ∀ task', task' ∈ (phases cid).waiting.erase (w.taskOf target) ↔
      ∃ target', (w'.serverClearPrepareWriteFlag (w.taskOf target)).1.Marked target' ∧ w.taskOf target' = task' := by
    intro task'
    rw [hnodup.mem_erase_iff, hwaiting]
    constructor
    · rintro ⟨hne, target', hmark', rfl⟩
      exact ⟨target', (hmarks target').mpr ⟨(hmarked' target').mpr hmark', (htaskOf target').symm ▸ hne⟩, rfl⟩
    · rintro ⟨target', hmark', rfl⟩
      obtain ⟨hmark', hne⟩ := (hmarks target').mp hmark'
      exact ⟨htaskOf target' ▸ hne, target', (hmarked' target').mp hmark', rfl⟩
  have hfirsts : ∀ target', (w'.serverClearPrepareWriteFlag (w.taskOf target)).1.Marked target' →
      (w'.serverClearPrepareWriteFlag (w.taskOf target)).1.IsFirst target' := by
    intro target' hmark'
    have hw' : SameTasks w w' := ⟨congrArg _ hsame.1, hsame.2.1⟩
    exact (htasks.isFirst target').mpr ((hw'.isFirst target').mpr
      (h.first target' ((hmarked' target').mp ((hmarks target').mp hmark').1)))
  have haccounts : GattManager.accounts (w'.serverClearPrepareWriteFlag (w.taskOf target)).1.log = some phases := by
    rw [hlog, hsame.2.2.2, h.accounts]
  have hsuccess : ∀ b : Bool, (phases cid).success = b → (b && decide (result = 0)) = false →
      w'.executeWriteResult ≠ 0 := by
    intro b hb hfalse
    rw [hresult]
    split_ifs with hr
    · exact hr
    · refine hfailed (hb.trans ?_)
      rwa [not_not.mp hr, decide_eq_true rfl, Bool.and_true] at hfalse
  split
  · next u hu =>
    rw [hu] at hclear hfirsts haccounts hstored hrest
    have hgone : (phases cid).waiting.erase (w.taskOf target) = [] := by
      refine eq_nil_iff_forall_not_mem.mpr fun task' hmem => ?_
      obtain ⟨target', hmark', rfl⟩ := (hrest task').mp hmem
      rw [show u = (w'.serverClearPrepareWriteFlag (w.taskOf target)).1 by rw [hu]] at hmark'
      obtain ⟨hmark', hne⟩ := (hmarks target').mp hmark'
      exact hne (hclear.mp rfl target' hmark')
    have hlast : (phases cid).waiting = [w.taskOf target] := by
      have hperm := perm_cons_erase htask
      rw [hgone] at hperm
      exact perm_singleton.mp hperm
    refine ⟨Function.update phases cid .fresh, cid, ?_, fun c hc => ?_, ?_, hfirsts⟩
    · rw [accounts_note haccounts, account.eq_def]
      dsimp only
      rw [hgone]
      refine if_pos ?_
      rw [hstored]
      constructor
      · intro hzero
        by_contra hnot
        exact hsuccess _ rfl (by simpa using hnot) hzero
      · intro hall
        obtain ⟨hs, hr⟩ : (phases cid).success = true ∧ result = 0 := by simpa using hall
        rw [hresult, if_neg (not_not.mpr hr)]
        exact halone hlast hs hr
    · rw [update_of_ne hc]
      exact h.others c hc
    · rw [update_self]
      refine Or.inl ⟨rfl, rfl, fun target' => ⟨fun hmem => absurd hmem not_mem_nil, fun hmark' => ?_⟩⟩
      have hmem := (hrest (w.taskOf target')).mpr ⟨target', hmark', rfl⟩
      rw [hgone] at hmem
      exact absurd hmem not_mem_nil
  · next u hu =>
    rw [hu] at hclear hfirsts haccounts hstored hrest htasks
    have hleft : (phases cid).waiting.erase (w.taskOf target) ≠ [] := by
      intro hnil'
      refine Bool.false_ne_true (hclear.mpr fun target' hmark' => ?_)
      by_contra hne
      have hmem := (hrest (w.taskOf target')).mpr ⟨target', ?_, rfl⟩
      · rw [hnil'] at hmem
        exact absurd hmem not_mem_nil
      · have hmark'' := (hmarks target').mpr ⟨hmark', hne⟩
        rwa [hu] at hmark''
    refine ⟨Function.update phases cid ⟨[], (phases cid).waiting.erase (w.taskOf target),
      (phases cid).success && decide (result = 0)⟩, cid, ?_, fun c hc => ?_, ?_, hfirsts⟩
    · rw [accounts_note haccounts, account.eq_def]
      dsimp only
      obtain ⟨task', rest, hcons⟩ := exists_cons_of_ne_nil hleft
      rw [hcons]
      refine congrArg some (congrArg _ ?_)
      simp
    · rw [update_of_ne hc]
      exact h.others c hc
    · rw [update_self]
      refine Or.inr ⟨rfl, hleft, hnodup.erase _, fun task' => ?_, fun hfalse => ?_⟩
      · rw [hrest]
        refine exists_congr fun target' => and_congr_right fun _ => ?_
        have hsame' : u.taskOf target' = w.taskOf target' := (htasks.taskOf target').trans (htaskOf target')
        rw [← hsame']
        exact Iff.rfl
      · change u.executeWriteResult ≠ 0
        rw [hstored]
        exact hsuccess _ rfl hfalse

theorem Inv.respond {result : BitVec 16} {value : List (BitVec 8)}
    (h : w.Inv) (hpromised : w.Promised (.respond task cid handle result value))
    (halone : w.Alone (.respond task cid handle result value)) :
    (w.gattManagerServerAccessResponse task cid handle result value).1.Inv := by
  obtain ⟨phases, c, h⟩ := h
  by_cases hnull : task = 0 ∧ cid = 0 ∧ handle = 0
  · rw [gattManagerServerAccessResponse, if_pos hnull]
    exact ⟨phases, c, h⟩
  · by_cases hhandle : handle = 0
    · subst hhandle
      have htask := hpromised rfl
      have halone' := halone rfl
      rw [h.phase_eq] at htask halone'
      have h' := h.own (c := cid) (Or.inr (Or.inr (ne_nil_of_mem htask)))
      obtain ⟨hnil, -⟩ | ⟨hprepared, -, hnodup, hwaiting, hfailed⟩ := h'.owns
      · rw [hnil] at htask
        exact absurd htask not_mem_nil
      · exact h'.answer hprepared hnodup hwaiting hfailed htask halone' value hnull
    · rw [gattManagerServerAccessResponse, if_neg hnull, if_neg hhandle]
      exact ⟨phases, c, h.note rfl⟩

theorem Inv.step {i : WriteInput} (h : w.Inv) (hpromised : w.Promised i) (halone : w.Alone i)
    (ht : w.step i = some t) : t.Inv := by
  cases i with
  | access ind =>
    obtain rfl := Option.some.inj ht
    exact h.access hpromised halone
  | respond task cid handle result value =>
    obtain rfl := Option.some.inj ht
    exact h.respond hpromised halone

/-! ### Runs -/

/-- The servers that have been registered, without a mark. -/
def init (applicationTask : Task) (registrations : List ServerRegistration) : Writes :=
  ⟨applicationTask, registrations.map ServerRegistration.server, false, 0, []⟩

theorem Inv.init (applicationTask : Task) (registrations : List ServerRegistration) :
    (init applicationTask registrations).Inv := by
  have hnone : ∀ target, ¬(Writes.init applicationTask registrations).Marked target := by
    intro target hmark
    cases target with
    | server i =>
      obtain ⟨s, hs, hmark⟩ := hmark
      rw [Writes.init, List.getElem?_map] at hs
      obtain ⟨r, -, rfl⟩ := Option.map_eq_some_iff.mp hs
      exact absurd hmark Bool.false_ne_true
    | application => exact absurd hmark Bool.false_ne_true
  refine ⟨fun _ => .fresh, 0, rfl, fun _ _ => rfl, Or.inl ⟨rfl, rfl, fun target => ?_⟩,
    fun target hmark => absurd hmark (hnone target)⟩
  exact ⟨fun hmem => absurd hmem not_mem_nil, fun hmark => absurd hmark (hnone target)⟩

/-- In every run, every execute is delivered once to the targets that have been prepared, and answered once. -/
def AlwaysAccounted : Prop :=
  ∀ (applicationTask : Task) (registrations : List ServerRegistration) (is : List WriteInput) (t : Writes),
    Lib.RunMeets Writes.step Promised (init applicationTask registrations) is →
    Lib.run Writes.step (init applicationTask registrations) is = some t → t.Accounted

/-- Every run delivers its executes once and answers them once, as long as the writes are alone. -/
theorem accounted_of_run {applicationTask : Task} {registrations : List ServerRegistration} {is : List WriteInput}
    (hpromised : Lib.RunMeets Writes.step Promised (init applicationTask registrations) is)
    (halone : Lib.RunMeets Writes.step Alone (init applicationTask registrations) is)
    (hrun : Lib.run Writes.step (init applicationTask registrations) is = some t) : t.Accounted := by
  obtain ⟨phases, cid, h⟩ := Lib.run_invariant (fun _ _ _ h hok ht => Inv.step h hok.1 hok.2 ht)
    (Inv.init applicationTask registrations) (hpromised.and halone) hrun
  rw [Accounted, h.accounts]
  rfl

/-- Two servers and the application, task 9. -/
def twoServers : List ServerRegistration := [⟨1, 10, 20⟩, ⟨2, 30, 40⟩]

/-- A write of two servers and the application that is executed, and answered by all. -/
def writeThree (result : BitVec 16) : List WriteInput :=
  [.access ⟨0x41, 12, 2, 0, []⟩, .access ⟨0x41, 33, 2, 0, []⟩, .access ⟨0x41, 50, 2, 0, []⟩, .access ⟨0x41, 0, 2, 0, []⟩,
    .respond 2 0x41 0 0 [], .respond 9 0x41 0 result [], .respond 1 0x41 0 0 []]

/-- The response to GATT is that of the application. -/
theorem accounted_writeThree : ∃ t, Lib.run Writes.step (init 9 twoServers) (writeThree 0x80) = some t ∧
    t.log.getLast? = some (.answer 1 0x41 0 (some 0x80)) ∧ t.Accounted := by
  have hruns : (Lib.run Writes.step (init 9 twoServers) (writeThree 0x80)).any fun t =>
      t.log.getLast? = some (.answer 1 0x41 0 (some 0x80)) := by decide
  obtain ⟨t, ht, hlast⟩ := (Option.any_eq_true _ _).mp hruns
  exact ⟨t, ht, of_decide_eq_true hlast, accounted_of_run (by decide) (by decide) ht⟩

/-- The result of a write that has failed is the response to the next one, whose answers are all successful. -/
theorem not_alwaysAccounted : ¬AlwaysAccounted := by
  intro h
  have hruns : (Lib.run Writes.step (init 9 twoServers) (writeThree 0x80 ++ writeThree 0)).any fun t =>
      (accounts t.log).isSome = false := by decide
  obtain ⟨t, ht, hfault⟩ := (Option.any_eq_true _ _).mp hruns
  have haccounted := h 9 twoServers _ t (by decide) ht
  rw [Accounted, of_decide_eq_true hfault] at haccounted
  exact absurd haccounted Bool.false_ne_true

end Writes

end Cbps.GattManager
