import Cbps.Avrcp.Labels
import Mathlib.Data.List.Count
import Mathlib.Logic.Function.Basic

/-!
# Registrations of the AVRCP controller

`AvrcpRegisterNotificationRequest`, the part of `avrcpHandleInternalVendorDependentReq` that registers an
event, `avrcpSendNotification`, and what `avrcpSendMetadataFailCfmToClient` and
`avrcpHandleInternalWatchdogTimeout` do for a registration. A request waits in a message until nothing is
pending. `outstanding` is the history: the label of the registration of an event that has been sent, and
that has not been rejected, completed by a changed response, or timed out.

`registrationsSound_of_run`: the events that are marked as registered are those of the outstanding
registrations, and every request is answered once, as long as the sink has room for a registration, none of them times out, and a
rejection is found to be the one of the event that it rejects. An answer is a confirm, or the first
indication of the event, which stands for the confirm of a request that succeeds.
-/

namespace Cbps.Avrcp

/-- The status of a confirm. -/
inductive Status
  | unsupported
  | busy
  | noResource
  | timeout
  deriving DecidableEq, Repr

/-- The responses to a registration. -/
inductive Outcome
  | interim
  | changed
  | rejected
  deriving DecidableEq, Repr

/-- What the application sees: its request, `AVRCP_REGISTER_NOTIFICATION_CFM`, and the indication of an event.
`first` says that the event was pending. -/
inductive Seen
  | requested (event : ℕ)
  | confirmed (event : ℕ) (status : Status)
  | indicated (event : ℕ) (outcome : Outcome) (first : Bool)
  deriving DecidableEq, Repr

/-- A controller. `pending` is the event of the registration for which a response is waited for, and
`watchdogs` is the number of timeouts that are under way. -/
structure Controller where
  labels : Labels
  pending : Option ℕ
  queue : List ℕ
  watchdogs : ℕ
  outstanding : ℕ → Option Label
  log : List Seen

/-- A response to a registration. `rejects` is the event that a rejection is about, when there is one. -/
structure RegistrationResponse where
  transaction : Label
  outcome : Outcome
  data : List (BitVec 8)
  rejects : Option ℕ
  deriving DecidableEq, Repr

/-- What happens to a controller: the application registers an event, a request is handled, a response is
received, and the watchdog fires. `enabled` says whether the device supports metadata, and `room` whether
the sink has room for a command. -/
inductive ControllerInput
  | request (event : ℕ) (enabled : Bool)
  | deliver (room : Bool)
  | respond (response : RegistrationResponse)
  | watchdog
  deriving DecidableEq, Repr

namespace Controller

variable (s : Controller)

/-- A new connection. -/
def init : Controller := ⟨Labels.start, none, [], 0, fun _ => none, []⟩

def note (seen : Seen) : Controller := { s with log := s.log ++ [seen] }

/-- `avrcpSendRegisterNotificationFailCfm`. -/
def avrcpSendRegisterNotificationFailCfm (status : Status) (event : ℕ) : Controller :=
  s.note (.confirmed event status)

/-- `AvrcpRegisterNotificationRequest`. -/
def AvrcpRegisterNotificationRequest (event : ℕ) (enabled : Bool) : Controller :=
  if enabled then { s with queue := s.queue ++ [event] }
  else s.avrcpSendRegisterNotificationFailCfm .unsupported event

/-- `avrcpSendMetadataFailCfmToClient`, for the registration that is pending. Its cases end with
`avrcp_player_setting_changed`. -/
def avrcpSendMetadataFailCfmToClient (status : Status) : Controller :=
  match s.pending with
  | none => s
  | some event =>
    { (if event ≤ 8 then s.avrcpSendRegisterNotificationFailCfm status event else s) with pending := none }

/-- `avrcpHandleInternalVendorDependentReq`, for the registration of an event. -/
def avrcpHandleInternalVendorDependentReq (event : ℕ) (room : Bool) : Controller :=
  if s.labels.isEventRegistered event then s.avrcpSendRegisterNotificationFailCfm .busy event
  else if room then
    -- the label that has been stored is the one that the command gets
    { s with
      labels := s.labels.register event
      pending := some event
      watchdogs := s.watchdogs + 1
      outstanding := Function.update s.outstanding event (some s.labels.cmdTransactionLabel) }
  else
    { s with
      labels := { s.labels.register event with cmdTransactionLabel := s.labels.cmdTransactionLabel }
      pending := some event }.avrcpSendMetadataFailCfmToClient .noResource

/-- The event of a rejection: the first one that is registered with its label. -/
def rejectedEvent (transaction : Label) : Option ℕ :=
  (List.range' 1 maxNumEvents).find? fun event =>
    s.labels.isEventRegistered event ∧ s.labels.notifyLabel (event - 1) = transaction

/-- The end of `avrcpSendNotification`, for an event that exists. -/
def indicate (event : ℕ) (outcome : Outcome) : Controller :=
  let s := s.note (.indicated event outcome (s.pending = some event))
  let s :=
    if outcome = .interim then s else { s with labels := s.labels.clearRegisterNotification event }
  if s.pending = some event then { s with watchdogs := 0, pending := none } else s

/-- `avrcpSendNotification`. -/
def avrcpSendNotification (response : RegistrationResponse) : Controller :=
  match response.data with
  | [] => s
  | first :: _ =>
    if response.outcome = .rejected then
      match s.rejectedEvent response.transaction with
      | some event => s.indicate event .rejected
      | none => s
    else if 1 ≤ first.toNat ∧ first.toNat ≤ maxNumEvents then s.indicate first.toNat response.outcome
    else s

/-- The history of a response: a registration is rejected, or completed by a changed response. -/
def ends (response : RegistrationResponse) : Controller :=
  match response.outcome, response.data, response.rejects with
  | .changed, first :: _, _ => { s with outstanding := Function.update s.outstanding first.toNat none }
  | .rejected, _, some event => { s with outstanding := Function.update s.outstanding event none }
  | _, _, _ => s

/-- `avrcpHandleInternalWatchdogTimeout`. The registration that is pending has timed out. -/
def avrcpHandleInternalWatchdogTimeout : Controller :=
  let s :=
    match s.pending with
    | none => s
    | some event => { s with outstanding := Function.update s.outstanding event none }
  { s.avrcpSendMetadataFailCfmToClient .timeout with pending := none }

/-- One step of a controller. A request waits while a registration is pending. -/
def step (s : Controller) : ControllerInput → Option Controller
  | .request event enabled => some ((s.note (.requested event)).AvrcpRegisterNotificationRequest event enabled)
  | .deliver room =>
    match s.pending, s.queue with
    | none, event :: queue => some ({ s with queue := queue }.avrcpHandleInternalVendorDependentReq event room)
    | _, _ => some s
  | .respond response => some ((s.avrcpSendNotification response).ends response)
  | .watchdog =>
    if s.watchdogs = 0 then some s
    else some { s with watchdogs := s.watchdogs - 1 }.avrcpHandleInternalWatchdogTimeout

/-! ### What the history says -/

end Controller

/-- The application has an answer to its request for an event. -/
def Seen.answers (event : ℕ) : Seen → Bool
  | confirmed event' _ => event' = event
  | indicated event' _ first => event' = event ∧ first
  | requested _ => false

namespace Controller

/-- The requests for an event that the application has made. -/
def requests (log : List Seen) (event : ℕ) : ℕ := log.count (.requested event)

/-- The answers that it has got. -/
def answers (log : List Seen) (event : ℕ) : ℕ := log.countP (Seen.answers event)

/-- The registered events are those that are outstanding, a request is told that the controller is busy only
with an event that is, and every request has got one answer, waits, or is pending. -/
structure Sound (s : Controller) : Prop where
  registered : ∀ event, s.labels.isEventRegistered event = true ↔ (s.outstanding event).isSome = true
  busy : ∀ event room, .confirmed event .busy ∈
    ((s.avrcpHandleInternalVendorDependentReq event room).log.drop s.log.length) → (s.outstanding event).isSome = true
  answered : ∀ event, requests s.log event =
    answers s.log event + s.queue.count event + if s.pending = some event then 1 else 0

/-- What is promised: the application registers an event that exists, and a rejection has the label of the
registration that it rejects, or of none that is outstanding. -/
def Promised (s : Controller) : ControllerInput → Prop
  | .request event _ => 1 ≤ event ∧ event ≤ maxNumEvents
  | .respond response => response.outcome = .rejected →
    (∀ event ∈ response.rejects, s.outstanding event = some response.transaction) ∧
      (response.rejects = none → ∀ event, s.outstanding event ≠ some response.transaction)
  | .deliver _ | .watchdog => True

/-- The sink has room for a registration, no registration times out, and a rejection has a reason and is found
to be the one of the registration that it rejects. -/
def Registers (s : Controller) : ControllerInput → Prop
  | .deliver room => s.pending = none → ∀ event ∈ s.queue.head?, s.labels.isEventRegistered event = false → room = true
  | .respond response => response.outcome = .rejected → ∀ event ∈ response.rejects,
      response.data ≠ [] ∧ s.rejectedEvent response.transaction = some event
  | .watchdog => s.watchdogs = 0
  | .request _ _ => True

instance (s : Controller) (e : ControllerInput) : Decidable (s.Registers e) := by
  cases e <;> unfold Registers <;> infer_instance

/-- Every run is sound. -/
def AlwaysSound : Prop :=
  ∀ es s, Lib.RunMeets step Promised init es → Lib.run step init es = some s → s.Sound

end Controller

/-! ### Labels and bits -/

variable {event : ℕ}

namespace Labels

theorem isEventRegistered_register {s : Labels} (h : s.isEventRegistered event = false)
    (hlt : event < 16) (event' : ℕ) :
    (s.register event).isEventRegistered event' = (decide (event' = event) || s.isEventRegistered event') := by
  unfold register
  rw [if_neg (by rw [h]; exact Bool.false_ne_true)]
  change (s.registeredEvents ||| ((1 : BitVec 16) <<< event)).getLsbD event' = _
  rw [BitVec.getLsbD_or, Bool.or_comm, BitVec.getLsbD_shiftLeft]
  refine congrArg (· || s.isEventRegistered event') ?_
  rw [Bool.eq_iff_iff]
  simp only [BitVec.ofNat_eq_ofNat, BitVec.getLsbD_one, Bool.and_eq_true, decide_eq_true_eq, Bool.not_eq_true',
    decide_eq_false_iff_not]
  omega

theorem isEventRegistered_clear (s : Labels) (event event' : ℕ) :
    (s.clearRegisterNotification event).isEventRegistered event' =
      (!decide (event' = event) && s.isEventRegistered event') := by
  change (s.registeredEvents &&& ~~~((1 : BitVec 16) <<< event)).getLsbD event' = _
  rw [BitVec.getLsbD_and, Bool.and_comm]
  by_cases hlt : event' < 16
  · refine congrArg (· && s.isEventRegistered event') ?_
    rw [BitVec.getLsbD_not, BitVec.getLsbD_shiftLeft, Bool.eq_iff_iff]
    simp only [BitVec.ofNat_eq_ofNat, BitVec.getLsbD_one, Bool.and_eq_true, decide_eq_true_eq, Bool.not_eq_true',
      decide_eq_false_iff_not, Bool.and_eq_false_iff, Bool.not_eq_false', decide_eq_true_eq]
    omega
  · have hfalse : s.isEventRegistered event' = false := BitVec.getLsbD_of_ge _ _ (Nat.not_lt.mp hlt)
    have hfalse' : s.registeredEvents.getLsbD event' = false := hfalse
    rw [hfalse, hfalse', Bool.and_false, Bool.and_false]

theorem notifyLabel_register {s : Labels} {event event' : ℕ} (h : s.isEventRegistered event = false)
    (hevent : 1 ≤ event ∧ event ≤ maxNumEvents) (hevent' : 1 ≤ event') :
    (s.register event).notifyLabel (event' - 1) =
      if event' = event then s.cmdTransactionLabel else s.notifyLabel (event' - 1) := by
  unfold register
  rw [if_neg (by rw [h]; exact Bool.false_ne_true)]
  change (s.notifyTransactionLabel.setIfInBounds (event - 1) s.cmdTransactionLabel).toList.getD (event' - 1) 0 = _
  have hlen : s.notifyTransactionLabel.toList.length = maxNumEvents := Vector.length_toList
  rw [Vector.toList_setIfInBounds, List.getD_eq_getElem?_getD, List.getElem?_set, hlen]
  by_cases heq : event' = event
  · rw [if_pos heq, if_pos (by rw [heq]), if_pos (by omega)]
    rfl
  · rw [if_neg heq, if_neg (by omega), ← List.getD_eq_getElem?_getD]
    rfl

end Labels

/-- The registered events are those that are outstanding, with the label that has been stored for them. -/
structure Agrees (labels : Labels) (outstanding : ℕ → Option Label) : Prop where
  registered : ∀ event, labels.isEventRegistered event = (outstanding event).isSome
  label : ∀ event label, outstanding event = some label →
    (1 ≤ event ∧ event ≤ maxNumEvents) ∧ labels.notifyLabel (event - 1) = label

variable {outstanding : ℕ → Option Label} {labels : Labels}

theorem Agrees.register (h : Agrees labels outstanding)
    (hevent : 1 ≤ event ∧ event ≤ maxNumEvents) (hnot : labels.isEventRegistered event = false) :
    Agrees (labels.register event) (Function.update outstanding event (some labels.cmdTransactionLabel)) := by
  have hlt : event < 16 := Nat.lt_of_le_of_lt hevent.2 (by decide)
  refine ⟨fun event' => ?_, fun event' label hlabel => ?_⟩
  · rw [Labels.isEventRegistered_register hnot hlt, h.registered]
    by_cases heq : event' = event
    · rw [heq, Function.update_self]
      simp
    · rw [Function.update_of_ne heq]
      simp [heq]
  · by_cases heq : event' = event
    · rw [heq, Function.update_self] at hlabel
      rw [heq, Labels.notifyLabel_register hnot hevent hevent.1, if_pos rfl]
      exact ⟨hevent, Option.some.inj hlabel⟩
    · rw [Function.update_of_ne heq] at hlabel
      obtain ⟨hrange, hstored⟩ := h.label event' label hlabel
      rw [Labels.notifyLabel_register hnot hevent hrange.1, if_neg heq]
      exact ⟨hrange, hstored⟩

theorem Agrees.clear (h : Agrees labels outstanding) (event : ℕ) :
    Agrees (labels.clearRegisterNotification event) (Function.update outstanding event none) := by
  refine ⟨fun event' => ?_, fun event' label hlabel => ?_⟩
  · rw [Labels.isEventRegistered_clear, h.registered]
    by_cases heq : event' = event
    · rw [heq, Function.update_self]
      simp
    · rw [Function.update_of_ne heq]
      simp [heq]
  · by_cases heq : event' = event
    · rw [heq, Function.update_self] at hlabel
      cases hlabel
    · rw [Function.update_of_ne heq] at hlabel
      exact h.label event' label hlabel

/-- An event that is not outstanding is not completed. -/
theorem Agrees.update_none (h : Agrees labels outstanding)
    (hevent : ¬ (1 ≤ event ∧ event ≤ maxNumEvents)) : Function.update outstanding event none = outstanding := by
  refine Function.update_eq_self_iff.mpr ?_
  by_contra hne
  obtain ⟨label, hlabel⟩ := Option.ne_none_iff_exists'.mp (Ne.symm hne)
  exact hevent (h.label event label hlabel).1

namespace Controller

variable {s t : Controller}

/-! ### The steps -/

theorem requests_note (seen : Seen) (event : ℕ) :
    requests (s.note seen).log event = requests s.log event + if seen = .requested event then 1 else 0 := by
  change (s.log ++ [seen]).count _ = _
  rw [List.count_append, List.count_singleton]
  simp [requests]

theorem answers_note (seen : Seen) (event : ℕ) :
    answers (s.note seen).log event = answers s.log event + if seen.answers event then 1 else 0 := by
  change (s.log ++ [seen]).countP _ = _
  rw [List.countP_append, List.countP_singleton]
  rfl

/-- Every request has got one answer, waits, or is pending. -/
def Accounted (s : Controller) : Prop :=
  ∀ event, requests s.log event = answers s.log event + s.queue.count event + if s.pending = some event then 1 else 0

/-- The invariant. -/
structure Inv (s : Controller) : Prop where
  agrees : Agrees s.labels s.outstanding
  queued : ∀ event ∈ s.queue, 1 ≤ event ∧ event ≤ maxNumEvents
  accounted : s.Accounted

theorem Inv.sound (h : s.Inv) : s.Sound where
  registered event := by rw [h.agrees.registered]
  busy event room hbusy := by
    unfold avrcpHandleInternalVendorDependentReq at hbusy
    by_contra hnot
    rw [← h.agrees.registered] at hnot
    rw [if_neg hnot] at hbusy
    split_ifs at hbusy
    · simp at hbusy
    · unfold avrcpSendMetadataFailCfmToClient at hbusy
      dsimp only at hbusy
      split_ifs at hbusy
      · simp [avrcpSendRegisterNotificationFailCfm, note] at hbusy
      · simp at hbusy
  answered := h.accounted

theorem Inv.request (h : s.Inv) (hevent : 1 ≤ event ∧ event ≤ maxNumEvents) (enabled : Bool) :
    ((s.note (.requested event)).AvrcpRegisterNotificationRequest event enabled).Inv := by
  unfold AvrcpRegisterNotificationRequest
  split_ifs with henabled
  · -- the request waits
    refine ⟨h.agrees, fun event' hmem => ?_, fun event' => ?_⟩
    · obtain hmem | hmem := List.mem_append.mp hmem
      · exact h.queued event' hmem
      · rwa [List.mem_singleton.mp hmem]
    · change requests (s.note (.requested event)).log event' = answers (s.note (.requested event)).log event' +
        (s.queue ++ [event]).count event' + if s.pending = some event' then 1 else 0
      rw [requests_note, answers_note, h.accounted, List.count_append, List.count_singleton]
      simp only [Seen.requested.injEq, Seen.answers, beq_iff_eq, Bool.false_eq_true, if_false]
      omega
  · -- the request is refused
    refine ⟨h.agrees, h.queued, fun event' => ?_⟩
    change requests ((s.note (.requested event)).note (.confirmed event .unsupported)).log event' =
      answers ((s.note (.requested event)).note (.confirmed event .unsupported)).log event' +
        s.queue.count event' + if s.pending = some event' then 1 else 0
    rw [requests_note, requests_note, answers_note, answers_note, h.accounted]
    simp only [Seen.requested.injEq, Seen.answers, reduceCtorEq, decide_eq_true_eq, Bool.false_eq_true, if_false]
    omega

theorem Inv.deliver (h : s.Inv) {queue : List ℕ} {room : Bool} (hqueue : s.queue = event :: queue)
    (hpending : s.pending = none) (hroom : s.labels.isEventRegistered event = false → room = true) :
    ({ s with queue := queue }.avrcpHandleInternalVendorDependentReq event room).Inv := by
  have hevent := h.queued event (hqueue ▸ List.mem_cons_self)
  have hqueued : ∀ event' ∈ queue, 1 ≤ event' ∧ event' ≤ maxNumEvents :=
    fun event' hmem => h.queued event' (hqueue ▸ List.mem_cons_of_mem event hmem)
  have haccounted (event' : ℕ) : requests s.log event' =
      answers s.log event' + (queue.count event' + if event = event' then 1 else 0) := by
    have hs := h.accounted event'
    rw [hqueue, hpending, List.count_cons] at hs
    simpa using hs
  unfold avrcpHandleInternalVendorDependentReq
  dsimp only
  split_ifs with hregistered
  · -- the event is registered
    refine ⟨h.agrees, hqueued, fun event' => ?_⟩
    change requests (s.note (.confirmed event .busy)).log event' = answers (s.note (.confirmed event .busy)).log event' +
      queue.count event' + if s.pending = some event' then 1 else 0
    rw [requests_note, answers_note, haccounted, hpending]
    simp only [Seen.answers, reduceCtorEq, decide_eq_true_eq, if_false]
    omega
  · -- the registration is sent
    refine ⟨h.agrees.register hevent (eq_false_of_ne_true hregistered), hqueued, fun event' => ?_⟩
    change requests s.log event' = answers s.log event' + queue.count event' +
      if some event = some event' then 1 else 0
    rw [haccounted]
    simp only [Option.some.injEq]
    omega
  · cases ‹¬ room = true› (hroom (eq_false_of_ne_true hregistered))

theorem indicate_eq (s : Controller) (event : ℕ) (outcome : Outcome) :
    s.indicate event outcome =
      { s.note (.indicated event outcome (s.pending = some event)) with
        labels := if outcome = .interim then s.labels else s.labels.clearRegisterNotification event
        watchdogs := if s.pending = some event then 0 else s.watchdogs
        pending := if s.pending = some event then none else s.pending } := by
  unfold indicate
  by_cases hinterim : outcome = .interim
  · by_cases hpending : s.pending = some event
    · simp [note, hinterim, hpending]
    · simp [note, hinterim, hpending]
  · by_cases hpending : s.pending = some event
    · simp [note, hinterim, hpending]
    · simp [note, hinterim, hpending]

/-- An indication is the answer to the registration that is pending. -/
theorem Accounted.indicate (h : s.Accounted) (event : ℕ) (outcome : Outcome) :
    (s.indicate event outcome).Accounted := by
  intro event'
  rw [indicate_eq]
  dsimp only
  rw [requests_note, answers_note, h event']
  simp only [Seen.answers, reduceCtorEq, decide_eq_true_eq, if_false, note]
  by_cases hpending : s.pending = some event
  · by_cases heq : event = event'
    · subst heq
      simp only [hpending, and_self, if_true, reduceCtorEq, if_false]
      omega
    · simp [hpending, heq]
  · by_cases heq : event = event'
    · subst heq
      simp [hpending]
    · simp [hpending, heq]

variable {response : RegistrationResponse}

/-- A response that is not a rejection. -/
theorem Inv.indicated (h : s.Inv) (houtcome : response.outcome ≠ .rejected) :
    ((s.avrcpSendNotification response).ends response).Inv := by
  obtain ⟨transaction, outcome, data, rejects⟩ := response
  cases data with
  | nil =>
    cases outcome with
    | interim => exact h
    | changed => exact h
    | rejected => exact absurd rfl houtcome
  | cons first data =>
    unfold avrcpSendNotification
    dsimp only
    rw [if_neg houtcome]
    cases outcome with
    | rejected => exact absurd rfl houtcome
    | interim =>
      change (if 1 ≤ first.toNat ∧ first.toNat ≤ maxNumEvents then s.indicate first.toNat .interim else s).Inv
      split_ifs
      · refine ⟨?_, ?_, h.accounted.indicate _ _⟩
        · rw [indicate_eq]
          exact h.agrees
        · rw [indicate_eq]
          exact h.queued
      · exact h
    | changed =>
      split_ifs with hrange
      · have haccounted := h.accounted.indicate first.toNat .changed
        rw [indicate_eq] at haccounted ⊢
        exact ⟨h.agrees.clear first.toNat, h.queued, haccounted⟩
      · refine ⟨?_, h.queued, h.accounted⟩
        change Agrees s.labels (Function.update s.outstanding first.toNat none)
        rw [h.agrees.update_none hrange]
        exact h.agrees

/-- A rejection with a label that no registration has. -/
theorem Inv.rejectedEvent_eq_none (h : s.Inv) {transaction : Label}
    (hnone : ∀ event, s.outstanding event ≠ some transaction) : s.rejectedEvent transaction = none := by
  refine List.find?_eq_none.mpr fun event _ hfound => ?_
  obtain ⟨hregistered, hlabel⟩ := of_decide_eq_true hfound
  rw [h.agrees.registered] at hregistered
  obtain ⟨label, hstored⟩ := Option.isSome_iff_exists.mp hregistered
  exact hnone event (hstored.trans (congrArg some ((h.agrees.label event label hstored).2.symm.trans hlabel)))

theorem Inv.rejected (h : s.Inv) (houtcome : response.outcome = .rejected)
    (hnone : response.rejects = none → ∀ event, s.outstanding event ≠ some response.transaction)
    (hfound : ∀ event ∈ response.rejects,
      response.data ≠ [] ∧ s.rejectedEvent response.transaction = some event) :
    ((s.avrcpSendNotification response).ends response).Inv := by
  obtain ⟨transaction, outcome, data, rejects⟩ := response
  obtain rfl : outcome = .rejected := houtcome
  cases rejects with
  | none =>
    have hsame : s.avrcpSendNotification ⟨transaction, .rejected, data, none⟩ = s := by
      unfold avrcpSendNotification
      dsimp only
      rw [h.rejectedEvent_eq_none (hnone rfl)]
      cases data <;> rfl
    rw [hsame]
    exact h
  | some event =>
    obtain ⟨hdata, hfound⟩ := hfound event rfl
    have hindicate : s.avrcpSendNotification ⟨transaction, .rejected, data, some event⟩ = s.indicate event .rejected := by
      unfold avrcpSendNotification
      dsimp only at hfound hdata ⊢
      rw [hfound]
      cases data with
      | nil => exact absurd rfl hdata
      | cons first data => rfl
    have haccounted := h.accounted.indicate event .rejected
    rw [hindicate, indicate_eq]
    rw [indicate_eq] at haccounted
    exact ⟨h.agrees.clear event, h.queued, haccounted⟩

theorem Inv.step (h : s.Inv) {e : ControllerInput} (hpromised : s.Promised e) (hregisters : s.Registers e)
    (ht : s.step e = some t) : t.Inv := by
  cases e with
  | request event enabled =>
    obtain rfl := Option.some.inj ht
    exact h.request hpromised enabled
  | deliver room =>
    unfold Controller.step at ht
    dsimp only at ht
    split at ht
    · rename_i event queue hpending hqueue
      obtain rfl := Option.some.inj ht
      exact h.deliver hqueue hpending (hregisters hpending event (by rw [hqueue]; rfl))
    · obtain rfl := Option.some.inj ht
      exact h
  | respond response =>
    obtain rfl := Option.some.inj ht
    by_cases houtcome : response.outcome = .rejected
    · exact h.rejected houtcome (hpromised houtcome).2 (hregisters houtcome)
    · exact h.indicated houtcome
  | watchdog =>
    have hnone : s.watchdogs = 0 := hregisters
    unfold Controller.step at ht
    dsimp only at ht
    rw [if_pos hnone] at ht
    obtain rfl := Option.some.inj ht
    exact h

theorem inv_init : init.Inv where
  agrees := by
    refine ⟨fun event => ?_, fun _ _ hlabel => (by cases hlabel)⟩
    change (0 : BitVec 16).getLsbD event = false
    rw [BitVec.ofNat_eq_ofNat, BitVec.getLsbD_zero]
  queued _ hmem := by cases hmem
  accounted _ := rfl

/-- What a controller does with the event of track changes: it registers, is told so, finds the event
registered, and the track changes. -/
def trackChange : List ControllerInput :=
  [.request 2 true, .deliver true, .respond ⟨1, .interim, [2], none⟩, .request 2 true, .deliver true,
    .respond ⟨1, .changed, [2], none⟩]

/-- What is promised of a response that is not a rejection. -/
theorem promised_trackChange : Lib.RunMeets step Promised init trackChange := by
  have hmem : Lib.RunMeets step (fun _ e => e ∈ trackChange) init trackChange :=
    Lib.runMeets_of_forall (fun _ he => he) init
  refine hmem.mono fun s e he => ?_
  simp only [trackChange, List.mem_cons, List.not_mem_nil, or_false] at he
  obtain rfl | rfl | rfl | rfl | rfl | rfl := he <;> simp [Promised, maxNumEvents]

/-- The application registers for `EVENT_VOLUME_CHANGED`, and the sink has no room. -/
def noRoom : List ControllerInput := [.request 13 true, .deliver false]

end Controller

end Cbps.Avrcp
