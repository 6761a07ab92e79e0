import Cbps.Hid.Client
import Mathlib.Data.List.Infix
import Mathlib.Data.List.Nodup

/-!
# Each request of the HID client is answered once

What is promised of the requests: one confirm for each of them, of its kind and with the result of its own operations,
after the last of these, and a request pending exactly as long as one is under way. `served_iff` says which runs keep
this: the other ones send a message without its payload, read several configuration descriptors for one request, write
none of them, or see a write fail before the last one of its request.
-/

namespace Cbps.Hid

open List Option

open Cbps.Lib

/-! ### Runs -/

/-- `hid_client_notification_reg_request` clears the number of confirms. -/
def Message.resets : Message → Bool
  | .notification _ _ => true
  | _ => false

/-- A client with its messages and operations, and what has happened: the requests, the one under way with the results
that its operations have had, those whose operations are all answered, and the confirms. The requests for the report id
map wait for nothing and are counted apart. -/
structure Session where
  pending : Pending
  numCcdCfm : ℕ
  queue : List (Request × Message)
  ops : List Op
  active : Option (Request × Message)
  results : List Result
  requests : List Request
  done : List (Request × Message × List Result)
  cfms : List Cfm
  parts : List Cfm
  idMaps : ℕ
  idRequests : ℕ
  idCfms : ℕ
  deriving DecidableEq

inductive Event
  | request (r : Request)
  | requestIdMap
  | deliver
  | deliverIdMap
  | part (n : ℕ) (value : List UInt8)
  | confirm (n : ℕ) (result : Result)
  deriving DecidableEq, Repr

namespace Session

variable (c : HidClient)

/-- A request that is accepted. -/
def request (s : Session) (r : Request) (ms : List Message) : Session :=
  { s with requests := s.requests ++ [r], queue := s.queue ++ ms.map fun m => (r, m) }

/-- A message is taken from the queue. -/
def deliver (s : Session) (r : Request) (m : Message) (queue : List (Request × Message)) (h : Handled) : Session :=
  { s with
    queue := queue
    pending := h.pending
    numCcdCfm := if m.resets then 0 else s.numCcdCfm
    active := some (r, m)
    results := []
    ops := s.ops ++ h.ops
    cfms := s.cfms ++ h.cfm.toList }

/-- After the confirm of an operation. -/
def answered (s : Session) (a : Answered) : Session :=
  { s with pending := a.pending, numCcdCfm := a.numCcdCfm, cfms := s.cfms ++ a.cfm.toList }

/-- An operation is over, and with the last one its request. -/
def finish (s : Session) (n : ℕ) (result : Result) : Session :=
  let s := { s with ops := s.ops.eraseIdx n, results := s.results ++ [result] }
  if s.ops = [] then
    { s with
      active := none
      results := []
      done := s.done ++ (s.active.map fun (r, m) => (r, m, s.results)).toList }
  else s

/-- The events. A part of a long operation has a value, and leaves the operation under way. -/
def step (s : Session) : Event → Option Session
  | .request r =>
    match accept c r with
    | none => some s
    | some ms => some (s.request r ms)
  | .requestIdMap => some { s with idRequests := s.idRequests + 1, idMaps := s.idMaps + 1 }
  | .deliver =>
    match s.queue with
    | [] => none
    | (r, m) :: queue => if s.pending = .none then (handleMessage c m).map (s.deliver r m queue) else none
  | .deliverIdMap =>
    if s.idMaps = 0 then none
    else some { s with idMaps := s.idMaps - 1, idCfms := s.idCfms + if c.reportIdMap.isSome then 1 else 0 }
  | .part n value =>
    (s.ops[n]?.filter fun op => op.isLong ∧ value ≠ []).map fun op =>
      { s with parts := s.parts ++ (handlePart s.pending op value).toList }
  | .confirm n result =>
    s.ops[n]?.map fun op => (s.answered (handleConfirm c s.pending s.numCcdCfm op result)).finish n result

/-- A client after its initialisation. -/
def initial : Session := ⟨.none, 0, [], [], none, [], [], [], [], [], 0, 0, 0⟩

end Session

/-! ### The promise -/

variable (c : HidClient)

/-- The status of a request: that of its first operation that fails. -/
def overall : List Result → Status
  | [] => .success
  | r :: rest => if convertStatus r.status = .success then overall rest else convertStatus r.status

/-- The value of a request. -/
def readOf (results : List Result) : List UInt8 := results.flatMap Result.read

/-- The confirm that a request calls for. -/
def expected (m : Message) (results : List Result) : Cfm :=
  let status := overall results
  let value := readOf results
  match m with
  | .getProtocol => ⟨.getProtocol, status, 0, value.take 1⟩
  | .readInfo => ⟨.readInfo, status, 0, value⟩
  | .readExtReference => ⟨.readExtRef, status, 0, value⟩
  | .readCcd ccdHandle =>
    let report := ((c.ccdHandles.find? fun ccd => ccd.ccd = ccdHandle).map fun ccd =>
      reportIdFromHandle c ccd.characteristicHandle).getD 0
    ⟨.readCcd, status, if value ≠ [] then report else 0, value⟩
  | .getReport handle => ⟨.getReport, status, if value ≠ [] then reportIdFromHandle c handle else 0, value⟩
  | .readReportMap => ⟨.readReportMap, status, 0, value⟩
  | .readBootReport _ => ⟨.readBootReport, status, 0, value⟩
  | .setProtocolBoot | .setProtocolReport => ⟨.setProtocol, status, 0, []⟩
  | .setCtrlPoint _ => ⟨.controlReq, status, 0, []⟩
  | .setReport handle _ _ => ⟨.setReport, status, reportIdFromHandle c handle, []⟩
  | .writeBootReport _ _ _ => ⟨.writeBootReport, status, 0, []⟩
  | .notification _ _ => ⟨.notificationReg, status, 0, []⟩
  | .notificationCcdhandle _ _ => ⟨.notificationReportIdReg, status, 0, []⟩

namespace Session

/-- **The promise** of every state. -/
structure Served (s : Session) : Prop where
  kept : s.requests = s.done.map Prod.fst ++ s.active.toList.map Prod.fst ++ s.queue.map Prod.fst
  told : s.cfms = s.done.map fun d => expected c d.2.1 d.2.2
  locked : s.pending = .none ↔ s.active = none
  alone : s.active = none → s.ops = []
  runs : ∀ q ∈ s.queue, handleMessage c q.2 ≠ none
  idMaps : s.idRequests = s.idCfms + s.idMaps

/-- Every state of every run keeps the promise. -/
def AlwaysServed : Prop := ∀ (c : HidClient) es s, run (step c) initial es = some s → s.Served c

/-- A message that enables notifications finds a descriptor. -/
def Enables : Message → Prop
  | .notification _ mode => ccdsOf c mode ≠ []
  | _ => True

instance (m : Message) : Decidable (Enables c m) := by
  rcases m with ⟨⟩ <;> dsimp only [Enables] <;> infer_instance

/-- The condition on a step: no boot report is read and no control request made; at most one configuration descriptor is
read for a request, and at least one written; the report id map is there; and of several writes only the last one fails. -/
def Admits (s : Session) : Event → Prop
  | .request (.readBootReport _) => c.bootModeSupported = false
  | .request (.controlRequest _) => False
  | .request (.readCcd mode) => (mode = .boot ∧ c.bootModeSupported = false) ∨ (ccdsOf c mode).length ≤ 1
  | .request _ => True
  | .requestIdMap => True
  | .deliver => ∀ q ∈ s.queue.head?, s.pending = .none → Enables c q.2
  | .deliverIdMap => s.idMaps ≠ 0 → c.reportIdMap.isSome = true
  | .part _ _ => True
  | .confirm n result => s.ops[n]? ≠ none → convertStatus result.status ≠ .success → s.ops.length = 1

instance (s : Session) (e : Event) : Decidable (Admits c s e) := by
  rcases e with ⟨⟨⟩⟩ | _ | _ | _ | _ | _ <;> dsimp only [Admits] <;> infer_instance

end Session

/-! ### One request -/

variable {c : HidClient}

/-- A message that is sent with its payload. -/
def Plain : Message → Prop
  | .readBootReport _ | .setCtrlPoint _ => False
  | _ => True

/-- An operation whose confirm is that of the whole request. -/
def Sole (c : HidClient) (m : Message) (pending : Pending) (op : Op) : Prop :=
  pending ≠ .none ∧ ∀ n result, handleConfirm c pending n op result = ⟨.none, n, some (expected c m [result])⟩

theorem overall_single (r : Result) : overall [r] = convertStatus r.status := by
  rw [overall, overall]
  split
  · next h => exact h.symm
  · rfl

theorem readOf_single (r : Result) : readOf [r] = r.read := by
  rw [readOf, flatMap_singleton]

theorem read_ne_nil (r : Result) : r.read ≠ [] ↔ convertStatus r.status = .success ∧ r.value ≠ [] := by
  rw [Result.read]
  split
  · next h => exact ⟨fun hne => ⟨h, hne⟩, fun hne => hne.2⟩
  · next h => exact ⟨fun hne => absurd rfl hne, fun hne => absurd hne.1 h⟩

/-- **The messages with one operation.** -/
theorem handleMessage_sole {m : Message} (hplain : Plain m) (hm : ∀ enable mode, m ≠ .notification enable mode) :
    ∃ h op, handleMessage c m = some h ∧ h.ops = [op] ∧ h.cfm = none ∧ Sole c m h.pending op := by
  cases m with
  | getProtocol | readInfo | readExtReference =>
    refine ⟨_, _, rfl, rfl, rfl, nofun, fun n r => ?_⟩
    simp only [handleConfirm, handleReadValue, expected, overall_single, readOf_single]
  | readCcd ccdHandle | getReport handle =>
    refine ⟨_, _, rfl, rfl, rfl, nofun, fun n r => ?_⟩
    simp only [handleConfirm, handleReadValue, expected, overall_single, readOf_single, read_ne_nil]
  | readReportMap =>
    refine ⟨_, _, rfl, rfl, rfl, nofun, fun n r => ?_⟩
    simp only [handleConfirm, handleReadLong, expected, overall_single, readOf_single]
  | readBootReport payload | setCtrlPoint payload => exact hplain.elim
  | setProtocolBoot | setProtocolReport =>
    refine ⟨_, _, rfl, rfl, rfl, nofun, fun n r => ?_⟩
    simp only [handleConfirm, handleWriteWithoutResponse, expected, overall_single]
  | setReport handle type data | writeBootReport handle type data =>
    refine ⟨_, _, rfl, rfl, rfl, nofun, fun n r => ?_⟩
    split <;> simp only [handleConfirm, handleWriteValue, handleWriteWithoutResponse, expected, overall_single]
  | notification enable mode => exact absurd rfl (hm enable mode)
  | notificationCcdhandle enable handle =>
    refine ⟨_, _, rfl, rfl, rfl, nofun, fun n r => ?_⟩
    simp only [registerForNotification, handleConfirm, handleWriteValue, expected, overall_single]

variable {ms : List Message}

/-- All requests but three send one plain message. -/
theorem accept_single {r : Request} (h : accept c r = some ms) (hboot : ∀ type, r ≠ .readBootReport type)
    (hctrl : ∀ ctrl, r ≠ .controlRequest ctrl) (hccd : ∀ mode, r ≠ .readCcd mode) : ∃ m, ms = [m] ∧ Plain m := by
  cases r with
  | getProtocol => exact ⟨.getProtocol, (some.inj h).symm, trivial⟩
  | readInformation => exact ⟨.readInfo, (some.inj h).symm, trivial⟩
  | readExternalReportReference =>
    rw [accept] at h
    split at h
    · exact ⟨.readExtReference, (some.inj h).symm, trivial⟩
    · contradiction
  | readCcd mode => exact absurd rfl (hccd mode)
  | getReport reportId | setReport reportId data =>
    obtain ⟨report, -, rfl⟩ := map_eq_some_iff.mp h
    exact ⟨_, rfl, trivial⟩
  | readReportMap => exact ⟨.readReportMap, (some.inj h).symm, trivial⟩
  | readBootReport type => exact absurd rfl (hboot type)
  | setProtocol protocol =>
    cases protocol with
    | boot =>
      rw [accept] at h
      split at h
      · exact ⟨.setProtocolBoot, (some.inj h).symm, trivial⟩
      · contradiction
    | report => exact ⟨.setProtocolReport, (some.inj h).symm, trivial⟩
  | controlRequest ctrl => exact absurd rfl (hctrl ctrl)
  | writeBootReport type data =>
    rw [accept] at h
    split at h
    · obtain rfl := some.inj h
      exact ⟨_, rfl, trivial⟩
    · contradiction
  | registerForNotification enable mode =>
    rw [accept] at h
    split at h
    · contradiction
    · obtain rfl := some.inj h
      exact ⟨_, rfl, trivial⟩
  | registerNotificationForReportId enable reportId mode =>
    rw [accept] at h
    split at h
    · contradiction
    · obtain ⟨handle, -, rfl⟩ := map_eq_some_iff.mp h
      exact ⟨_, rfl, trivial⟩

/-- A request that is accepted sends plain messages, or one without its payload. -/
theorem accept_plain {r : Request} (h : accept c r = some ms) :
    (∀ m ∈ ms, Plain m) ∨ ∃ m, ms = [m] ∧ handleMessage c m = none := by
  by_cases hboot : ∃ type, r = .readBootReport type
  · obtain ⟨type, rfl⟩ := hboot
    rw [accept] at h
    split at h
    · exact .inr ⟨_, (some.inj h).symm, rfl⟩
    · contradiction
  by_cases hctrl : ∃ ctrl, r = .controlRequest ctrl
  · obtain ⟨ctrl, rfl⟩ := hctrl
    exact .inr ⟨_, (some.inj h).symm, rfl⟩
  by_cases hccd : ∃ mode, r = .readCcd mode
  · obtain ⟨mode, rfl⟩ := hccd
    rw [accept] at h
    split at h
    · contradiction
    split at h
    · contradiction
    · obtain rfl := some.inj h
      refine .inl fun m hm => ?_
      obtain ⟨ccd, -, rfl⟩ := List.mem_map.mp hm
      trivial
  · obtain ⟨m, rfl, hplain⟩ := accept_single h (not_exists.mp hboot) (not_exists.mp hctrl) (not_exists.mp hccd)
    refine .inl fun m' hm' => ?_
    rw [mem_singleton.mp hm']
    exact hplain

theorem handleMessage_plain {m : Message} (hplain : Plain m) : handleMessage c m ≠ none := by
  cases m with
  | readBootReport payload => exact hplain.elim
  | setCtrlPoint payload => exact hplain.elim
  | _ => nofun

namespace Session

variable {s s' : Session} {e : Event} {r : Request} {m : Message}

/-- **Which requests send one message that can be handled.** -/
theorem admits_request_iff (h : accept c r = some ms) :
    Admits c s (.request r) ↔ ∃ m, ms = [m] ∧ Plain m := by
  by_cases hboot : ∃ type, r = .readBootReport type
  · obtain ⟨type, rfl⟩ := hboot
    rw [accept] at h
    split at h
    · next hsupported =>
      rw [← some.inj h]
      refine iff_of_false (by simp [Admits, hsupported]) ?_
      rintro ⟨m, hm, hplain⟩
      rw [← singleton_inj.mp hm] at hplain
      exact hplain
    · contradiction
  by_cases hctrl : ∃ ctrl, r = .controlRequest ctrl
  · obtain ⟨ctrl, rfl⟩ := hctrl
    rw [← some.inj h]
    refine iff_of_false id ?_
    rintro ⟨m, hm, hplain⟩
    rw [← singleton_inj.mp hm] at hplain
    exact hplain
  by_cases hccd : ∃ mode, r = .readCcd mode
  · obtain ⟨mode, rfl⟩ := hccd
    rw [accept] at h
    split at h
    · contradiction
    next hmode =>
    split at h
    · contradiction
    next hne =>
    have hpos : 0 < (ccdsOf c mode).length := length_pos_of_ne_nil hne
    rw [Admits, or_iff_right hmode, ← some.inj h]
    constructor
    · intro hle
      obtain ⟨ccd, hccd⟩ := length_eq_one_iff.mp (by omega : (ccdsOf c mode).length = 1)
      exact ⟨.readCcd ccd.ccd, by rw [hccd]; rfl, trivial⟩
    · rintro ⟨m, hm, -⟩
      have hlen := congrArg List.length hm
      rw [length_map, length_singleton] at hlen
      exact hlen.le
  · have hadmits : Admits c s (.request r) := by
      cases r with
      | readBootReport type => exact absurd ⟨type, rfl⟩ hboot
      | controlRequest ctrl => exact absurd ⟨ctrl, rfl⟩ hctrl
      | readCcd mode => exact absurd ⟨mode, rfl⟩ hccd
      | _ => trivial
    exact iff_of_true hadmits (accept_single h (not_exists.mp hboot) (not_exists.mp hctrl) (not_exists.mp hccd))

/-! ### One step -/

/-- A request under way: its one operation, or what is left of its writes. -/
def Waits (c : HidClient) (s : Session) (m : Message) : Prop :=
  (∃ op, Sole c m s.pending op ∧ s.ops = [op] ∧ s.results = []) ∨
    ∃ enable mode, m = .notification enable mode ∧ s.pending = notificationPending mode ∧ s.ops ≠ [] ∧
      (∀ op ∈ s.ops, ∃ handle value, op = .writeValue handle value) ∧ s.numCcdCfm = s.results.length ∧
      s.results.length + s.ops.length = (ccdsOf c mode).length ∧
      ∀ result ∈ s.results, convertStatus result.status = .success

/-- What holds as long as the promise has been kept. -/
structure Sound (c : HidClient) (s : Session) : Prop where
  kept : s.requests = s.done.map Prod.fst ++ s.active.toList.map Prod.fst ++ s.queue.map Prod.fst
  told : s.cfms = s.done.map fun d => expected c d.2.1 d.2.2
  plain : ∀ q ∈ s.queue, Plain q.2
  idMaps : s.idRequests = s.idCfms + s.idMaps
  way : (s.active = none ∧ s.pending = .none ∧ s.ops = []) ∨ ∃ r m, s.active = some (r, m) ∧ Waits c s m

theorem notificationPending_ne_none (mode : Mode) : notificationPending mode ≠ .none := by
  cases mode <;> nofun

theorem Waits.pending_ne_none (h : Waits c s m) : s.pending ≠ .none := by
  rcases h with ⟨op, hsole, -⟩ | ⟨enable, mode, -, hpending, -⟩
  · exact hsole.1
  · rw [hpending]
    exact notificationPending_ne_none mode

theorem Sound.served (h : Sound c s) : Served c s where
  kept := h.kept
  told := h.told
  locked := by
    rcases h.way with ⟨hactive, hpending, -⟩ | ⟨r, m, hactive, hwaits⟩
    · exact iff_of_true hpending hactive
    · exact iff_of_false hwaits.pending_ne_none (by rw [hactive]; nofun)
  alone := by
    intro hnone
    rcases h.way with ⟨-, -, hops⟩ | ⟨r, m, hactive, -⟩
    · exact hops
    · rw [hnone] at hactive
      contradiction
  runs := fun q hq => handleMessage_plain (h.plain q hq)
  idMaps := h.idMaps

/-- A request that sends one plain message waits in the queue. -/
theorem Sound.request (h : Sound c s) (hplain : Plain m) : Sound c (s.request r [m]) where
  kept := by simp [Session.request, h.kept]
  told := h.told
  plain := by
    intro q hq
    rcases mem_append.mp hq with hq | hq
    · exact h.plain q hq
    · rw [mem_singleton.mp hq]
      exact hplain
  idMaps := h.idMaps
  way := h.way

/-- Every other request that is accepted breaks the promise. -/
theorem Sound.not_served_request (h : Sound c s) (hms : accept c r = some ms)
    (hnot : ¬ ∃ m, ms = [m] ∧ Plain m) : ¬ Served c (s.request r ms) := by
  intro hserved
  rcases accept_plain hms with hplain | ⟨m, rfl, hnone⟩
  · -- the number of messages is not that of the requests
    have hlen := congrArg List.length hserved.kept
    simp only [Session.request, h.kept, length_append, length_map, length_singleton] at hlen
    obtain ⟨m, rfl⟩ := length_eq_one_iff.mp (by omega : ms.length = 1)
    exact hnot ⟨m, rfl, hplain m (mem_singleton.mpr rfl)⟩
  · exact hserved.runs (r, m) (mem_append_right _ (mem_singleton.mpr rfl)) hnone

variable {queue : List (Request × Message)}

/-- A message is taken from the queue while nothing is pending. -/
theorem Sound.deliver (h : Sound c s) {handled : Handled}
    (hqueue : s.queue = (r, m) :: queue) (hpending : s.pending = .none) (hhandled : handleMessage c m = some handled)
    (hccds : Enables c m) : Sound c (s.deliver r m queue handled) := by
  obtain ⟨hactive, hops⟩ : s.active = none ∧ s.ops = [] := by
    rcases h.way with ⟨hactive, -, hops⟩ | ⟨r', m', -, hwaits⟩
    · exact ⟨hactive, hops⟩
    · exact absurd hpending hwaits.pending_ne_none
  have hplain : Plain m := h.plain (r, m) (by rw [hqueue]; exact mem_cons_self)
  have hkept := h.kept
  rw [hqueue, hactive] at hkept
  have hkept' : (s.deliver r m queue handled).requests = s.done.map Prod.fst ++ [r] ++ queue.map Prod.fst := by
    simpa [Session.deliver] using hkept
  have hrest : ∀ q ∈ queue, Plain q.2 := fun q hq => h.plain q (by rw [hqueue]; exact mem_cons_of_mem _ hq)
  by_cases hm : ∃ enable mode, m = .notification enable mode
  · obtain ⟨enable, mode, rfl⟩ := hm
    have hne : ccdsOf c mode ≠ [] := hccds
    obtain rfl := some.inj hhandled
    have hwrites : (ccdsOf c mode).map (fun ccd => registerForNotification enable ccd.ccd) ≠ [] := by
      simpa using hne
    refine ⟨hkept', ?_, hrest, h.idMaps, .inr ⟨r, _, rfl, .inr ⟨enable, mode, rfl, ?_, ?_, ?_, rfl, ?_, nofun⟩⟩⟩
    · simp only [Session.deliver, notificationRegRequest, toList_none, append_nil]
      exact h.told
    · simp only [Session.deliver, notificationRegRequest, if_neg hwrites]
    · simpa [Session.deliver, notificationRegRequest, hops] using hne
    · intro op hop
      simp only [Session.deliver, notificationRegRequest, hops, nil_append] at hop
      obtain ⟨ccd, -, rfl⟩ := List.mem_map.mp hop
      exact ⟨_, _, rfl⟩
    · simp [Session.deliver, notificationRegRequest, hops]
  · obtain ⟨handled', op, hhandled', hop, hcfm, hsole⟩ :=
      handleMessage_sole hplain fun enable mode heq => hm ⟨enable, mode, heq⟩
    obtain rfl := some.inj (hhandled.symm.trans hhandled')
    refine ⟨hkept', ?_, hrest, h.idMaps, .inr ⟨r, m, rfl, .inl ⟨op, hsole, ?_, rfl⟩⟩⟩
    · simp only [Session.deliver, hcfm, toList_none, append_nil]
      exact h.told
    · simp only [Session.deliver, hops, hop, nil_append]

/-- Notifications that no descriptor enables leave nothing pending. -/
theorem not_served_deliver {handled : Handled} {enable : Bool} {mode : Mode}
    (hhandled : handleMessage c (.notification enable mode) = some handled) (hccds : ccdsOf c mode = []) :
    ¬ Served c (s.deliver r (.notification enable mode) queue handled) := by
  intro hserved
  obtain rfl := some.inj hhandled
  have hpending : (s.deliver r (.notification enable mode) queue (notificationRegRequest c enable mode)).pending =
      .none := by
    simp [Session.deliver, notificationRegRequest, hccds]
  exact nomatch hserved.locked.mp hpending

theorem overall_append {results : List Result} (h : ∀ result ∈ results, convertStatus result.status = .success)
    (result : Result) : overall (results ++ [result]) = convertStatus result.status := by
  induction results with
  | nil => exact overall_single result
  | cons first rest ih =>
    rw [List.cons_append, overall, if_pos (h first mem_cons_self)]
    exact ih fun other hother => h other (mem_cons_of_mem _ hother)

theorem handleConfirm_notification (mode : Mode) (n handle : ℕ) (value : List UInt8) (result : Result) :
    handleConfirm c (notificationPending mode) n (.writeValue handle value) result =
      notificationRegCfm c (notificationPending mode) mode n result := by
  cases mode <;> rfl

variable {result : Result} {n : ℕ}

/-- The last operation of a request. -/
theorem finish_last {s : Session} (hops : s.ops.eraseIdx n = [])
    (hactive : s.active = some (r, m)) :
    s.finish n result = { s with
      ops := []
      active := none
      results := []
      done := s.done ++ [(r, m, s.results ++ [result])] } := by
  rw [finish]
  simp only [hops, if_true, hactive]
  rfl

theorem finish_not_last {s : Session} (hops : s.ops.eraseIdx n ≠ []) :
    s.finish n result = { s with ops := s.ops.eraseIdx n, results := s.results ++ [result] } := by
  rw [finish]
  simp only [if_neg hops]

/-- The confirm that ends a request. -/
theorem Sound.ends (h : Sound c s) {n numCcdCfm : ℕ} (hops : s.ops.eraseIdx n = [])
    (hactive : s.active = some (r, m)) :
    Sound c ((s.answered ⟨.none, numCcdCfm, some (expected c m (s.results ++ [result]))⟩).finish n result) := by
  have hkept := h.kept
  rw [hactive] at hkept
  rw [finish_last (s := s.answered _) hops hactive]
  refine ⟨?_, ?_, h.plain, h.idMaps, .inl ⟨rfl, rfl, rfl⟩⟩
  · simpa [answered] using hkept
  · simp [answered, h.told]

/-- **The confirm of an operation.** -/
theorem Sound.confirm (h : Sound c s) {op : Op} (hop : s.ops[n]? = some op)
    (hok : convertStatus result.status ≠ .success → s.ops.length = 1) :
    Sound c ((s.answered (handleConfirm c s.pending s.numCcdCfm op result)).finish n result) := by
  have hn : n < s.ops.length := (List.getElem?_eq_some_iff.mp hop).1
  rcases h.way with ⟨-, -, hnil⟩ | ⟨r, m, hactive, ⟨sole, hsole, hops, hresults⟩ |
    ⟨enable, mode, rfl, hpending, -, hwrites, hnum, hcount, hsuccess⟩⟩
  · rw [hnil] at hop
    contradiction
  · obtain rfl : n = 0 := by
      rw [hops] at hn
      exact Nat.lt_one_iff.mp hn
    rw [hops] at hop
    obtain rfl := some.inj hop
    rw [hsole.2]
    have hends : Sound c
        ((s.answered ⟨.none, s.numCcdCfm, some (expected c m (s.results ++ [result]))⟩).finish 0 result) :=
      h.ends (by rw [hops]; rfl) hactive
    rwa [hresults, nil_append] at hends
  · obtain ⟨handle, value, rfl⟩ := hwrites op (mem_of_getElem? hop)
    have hlt := c.ccds_lt
    have hle : (ccdsOf c mode).length ≤ c.ccdHandles.length := length_filter_le _ _
    have hmod : (s.numCcdCfm + 1) % 32 = s.results.length + 1 := by
      rw [hnum]
      exact Nat.mod_eq_of_lt (by omega)
    have herase := length_eraseIdx_of_lt hn
    rw [hpending, handleConfirm_notification, notificationRegCfm]
    rw [hmod]
    by_cases hlast : s.ops.length = 1
    · have hcfm : (⟨.notificationReg, convertStatus result.status, 0, []⟩ : Cfm) =
          expected c (.notification enable mode) (s.results ++ [result]) := by
        rw [expected, overall_append hsuccess]
      rw [if_pos (.inl (by omega)), hcfm]
      exact h.ends (length_eq_zero_iff.mp (by omega)) hactive
    · have hstatus : convertStatus result.status = .success := by
        by_contra hfail
        exact hlast (hok hfail)
      have hleft : s.ops.eraseIdx n ≠ [] := ne_nil_of_length_pos (by omega)
      rw [if_neg (by rw [not_or, not_not]; exact ⟨by omega, hstatus⟩), ← hpending,
        finish_not_last (s := s.answered _) hleft]
      refine ⟨h.kept, ?_, h.plain, h.idMaps, .inr ⟨r, _, hactive, .inr ⟨enable, mode, rfl, hpending, hleft, ?_, ?_, ?_, ?_⟩⟩⟩
      · rw [answered, toList_none, append_nil]
        exact h.told
      · exact fun op hmem => hwrites op (mem_of_mem_eraseIdx hmem)
      · simp [answered]
      · simp only [answered, length_append, length_singleton]
        omega
      · intro other hother
        rcases mem_append.mp hother with hother | hother
        · exact hsuccess other hother
        · rw [mem_singleton.mp hother]
          exact hstatus

/-- A write that fails before the last one of its request is answered too early. -/
theorem Sound.not_served_confirm (h : Sound c s) {op : Op} (hop : s.ops[n]? = some op)
    (hfail : convertStatus result.status ≠ .success) (hmore : s.ops.length ≠ 1) :
    ¬ Served c ((s.answered (handleConfirm c s.pending s.numCcdCfm op result)).finish n result) := by
  intro hserved
  have hn : n < s.ops.length := (List.getElem?_eq_some_iff.mp hop).1
  have herase := length_eraseIdx_of_lt hn
  have hleft : s.ops.eraseIdx n ≠ [] := ne_nil_of_length_pos (by omega)
  rcases h.way with ⟨-, -, hnil⟩ | ⟨r, m, hactive, ⟨sole, hsole, hops, hresults⟩ |
    ⟨enable, mode, rfl, hpending, -, hwrites, -⟩⟩
  · rw [hnil] at hop
    contradiction
  · rw [hops] at hmore
    exact hmore rfl
  · obtain ⟨handle, value, rfl⟩ := hwrites op (mem_of_getElem? hop)
    rw [hpending, handleConfirm_notification, notificationRegCfm] at hserved
    rw [if_pos (.inr hfail), finish_not_last (s := s.answered _) hleft] at hserved
    have hnone : s.active = none := hserved.locked.mp rfl
    rw [hactive] at hnone
    contradiction

/-- **One step** of a session that has kept the promise so far. -/
theorem Sound.step_iff (h : Sound c s) (hs : s.step c e = some s') :
    (Admits c s e → Sound c s') ∧ (Served c s' → Admits c s e) := by
  cases e with
  | request r =>
    rw [step] at hs
    split at hs
    · next hnone =>
      obtain rfl := some.inj hs
      refine ⟨fun _ => h, fun _ => ?_⟩
      cases r with
      | readBootReport type =>
        rw [accept] at hnone
        split at hnone
        · contradiction
        · next hboot => exact Bool.eq_false_iff.mpr hboot
      | controlRequest ctrl => contradiction
      | readCcd mode =>
        rw [accept] at hnone
        split at hnone
        · next hmode => exact .inl hmode
        split at hnone
        · next hempty => exact .inr (by rw [hempty]; exact Nat.zero_le 1)
        · contradiction
      | _ => trivial
    · next ms hms =>
      obtain rfl := some.inj hs
      refine ⟨fun hok => ?_, fun hserved => ?_⟩
      · obtain ⟨m, rfl, hplain⟩ := (admits_request_iff hms).mp hok
        exact h.request hplain
      · exact (admits_request_iff hms).mpr (by_contra fun hnot => h.not_served_request hms hnot hserved)
  | requestIdMap =>
    obtain rfl := some.inj hs
    have hidMaps : s.idRequests + 1 = s.idCfms + (s.idMaps + 1) := by rw [h.idMaps, Nat.add_assoc]
    exact ⟨fun _ => ⟨h.kept, h.told, h.plain, hidMaps, h.way⟩, fun _ => trivial⟩
  | deliver =>
    rw [step] at hs
    split at hs
    · contradiction
    next r m queue hqueue =>
    split at hs
    · next hpending =>
      obtain ⟨handled, hhandled, rfl⟩ := map_eq_some_iff.mp hs
      refine ⟨fun hok => ?_, fun hserved q hq _ => ?_⟩
      · exact h.deliver hqueue hpending hhandled (hok (r, m) (by rw [hqueue]; rfl) hpending)
      · obtain rfl : (r, m) = q := by
          rw [hqueue] at hq
          exact some.inj hq
        cases m with
        | notification enable mode => exact fun hccds => not_served_deliver hhandled hccds hserved
        | _ => trivial
    · contradiction
  | deliverIdMap =>
    rw [step] at hs
    split at hs
    · contradiction
    next hne =>
    obtain rfl := some.inj hs
    have hidMaps := h.idMaps
    refine ⟨fun hok => ⟨h.kept, h.told, h.plain, ?_, h.way⟩, fun hserved _ => ?_⟩
    · simp only [hok hne, if_true]
      omega
    · by_contra hmissing
      have hserved' := hserved.idMaps
      simp only [if_neg hmissing] at hserved'
      omega
  | part n value =>
    obtain ⟨op, -, rfl⟩ := map_eq_some_iff.mp hs
    exact ⟨fun _ => ⟨h.kept, h.told, h.plain, h.idMaps, h.way⟩, fun _ => trivial⟩
  | confirm n result =>
    obtain ⟨op, hop, rfl⟩ := map_eq_some_iff.mp hs
    refine ⟨fun hok => h.confirm hop (hok (by rw [hop]; nofun)), fun hserved _ hfail => ?_⟩
    exact by_contra fun hmore => h.not_served_confirm hop hfail hmore hserved

theorem sound_initial : Sound c initial := ⟨rfl, rfl, nofun, rfl, .inl ⟨rfl, rfl, rfl⟩⟩

/-- **The runs that answer each request once.** -/
theorem served_iff (c : HidClient) (es : List Event) :
    (∀ fs, fs <+: es → ∀ s, run (step c) initial fs = some s → s.Served c) ↔
      RunMeets (step c) (Admits c) initial es := by
  refine runMeets_iff (I := fun s => s.Served c → Sound c s) ?_ ?_ es (fun _ => sound_initial) sound_initial.served
  · intro s e s' hsound hserved hs
    obtain ⟨hkeeps, hneeds⟩ := (hsound hserved).step_iff hs
    exact ⟨fun h => hkeeps (hneeds h), hneeds, fun hok => (hkeeps hok).served⟩
  · intro s e hnone
    cases e with
    | request r =>
      rw [step] at hnone
      split at hnone <;> contradiction
    | requestIdMap => trivial
    | deliver =>
      intro q hq hpending
      cases hqueue : s.queue with
      | nil =>
        rw [hqueue] at hq
        contradiction
      | cons first rest =>
        rw [hqueue] at hq
        obtain rfl := some.inj hq
        rw [step, hqueue] at hnone
        simp only [hpending, if_true] at hnone
        rw [map_eq_none_iff] at hnone
        cases hm : first.2 with
        | notification enable mode =>
          rw [hm] at hnone
          contradiction
        | _ => trivial
    | deliverIdMap =>
      intro hne
      rw [step, if_neg hne] at hnone
      contradiction
    | part n value => trivial
    | confirm n result =>
      intro hop
      obtain ⟨op, hop⟩ := ne_none_iff_exists'.mp hop
      rw [step, hop] at hnone
      contradiction

/-- A keyboard with two input reports that can be notified, and one output report. -/
def keyboard : HidClient where
  protocolHandle := 0
  infoHandle := 3
  controlHandle := 5
  externalReportReferenceHandle := 0
  reportMapHandle := 7
  bootKbInputReportHandle := 0
  bootMouseInputReportHandle := 0
  bootOutputReportHandle := 0
  ccdHandles := [⟨10, .report, 9⟩, ⟨14, .report, 13⟩]
  reportIdMap := some [⟨1, 9, .input⟩, ⟨2, 13, .input⟩, ⟨1, 17, .output⟩]
  bootModeSupported := true
  registered := true
  ccds_lt := by decide

/-- Both reports are enabled, and one is read. -/
def enabling : List Event :=
  [.request (.registerForNotification true .report), .request (.getReport 2), .deliver, .confirm 1 ⟨.success, []⟩,
    .confirm 0 ⟨.success, []⟩, .deliver, .confirm 0 ⟨.success, [7]⟩]

theorem served_enabling : ∀ fs, fs <+: enabling → ∀ s, run (step keyboard) initial fs = some s → s.Served keyboard := by
  have hmeets : RunMeets (step keyboard) (Admits keyboard) initial enabling := by decide
  exact (served_iff keyboard enabling).mpr hmeets

/-- The first of two writes fails, and nothing is pending while the second one is under way. -/
def failing : List Event :=
  [.request (.registerForNotification true .report), .request (.setReport 1 [0]), .deliver, .confirm 0 ⟨.other, []⟩]

theorem not_alwaysServed : ¬ AlwaysServed := by
  intro h
  have hruns : (run (step keyboard) initial failing).any fun s => decide (s.pending = .none ∧ s.active ≠ none) := by
    decide
  obtain ⟨s, hs, hend⟩ := (Option.any_eq_true _ _).mp hruns
  obtain ⟨hpending, hactive⟩ := of_decide_eq_true hend
  exact hactive ((h keyboard _ s hs).locked.mp hpending)

end Session

end Cbps.Hid
