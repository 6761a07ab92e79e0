import Cbps.Avrcp.Notifications
import Cbps.Lib.Runs

/-!
# What a session keeps

`inv_of_run`: a command that is pending holds its message, no command is pending without one, and the
labels of the events are those of the registrations that have been received last. The functions that answer
do not change what they are not about (`Frame`), whatever they send and whenever they are called.
-/

namespace Cbps.Avrcp

open Option

namespace Session

variable {s t : Session}

/-! ### What every step keeps -/

/-- Nothing is pending without a message, and the message of a pending command is still in the source. -/
structure Holds (s : Session) : Prop where
  null : s.avMsg = .null → s.block = .none ∧ s.avMsgLen = 0 ∧ s.fragment = .single
  source : s.avMsg = .source → (s.block = .none ∨ s.source ≠ []) ∧ s.fragment = .single
  fragment : s.fragment = .single ∨ s.fragment = .ending
  timeouts : s.block = .none → s.timeouts = []

/-- What every function that answers keeps: the labels, the messages that are under way, that a command
that is pending holds its message, and that no command becomes pending. -/
structure Frame (s t : Session) : Prop where
  registrations : t.registrations = s.registrations
  notify : t.notifyTransactionLabel = s.notifyTransactionLabel
  queue : t.queue = s.queue
  registered : ∀ event, t.isEventRegistered event → s.isEventRegistered event
  block : t.block = s.block ∨ t.block = .none
  holds : t.Holds

theorem Frame.refl (h : s.Holds) : s.Frame s := ⟨rfl, rfl, rfl, fun _ => id, Or.inl rfl, h⟩

theorem Frame.trans {u : Session} (h : s.Frame t) (h' : t.Frame u) : s.Frame u where
  registrations := h'.registrations.trans h.registrations
  notify := h'.notify.trans h.notify
  queue := h'.queue.trans h.queue
  registered event hu := h.registered event (h'.registered event hu)
  block := by
    obtain hu | hu := h'.block
    · exact h.block.imp hu.trans hu.trans
    · exact Or.inr hu
  holds := h'.holds

/-- A command that was pending has been answered, and its message is released. -/
theorem avrcpUnblockReceivedData_eq (h : s.fragment = .single ∨ s.fragment = .ending) :
    ∃ source, (s.avMsg ≠ .source → source = s.source) ∧ s.avrcpUnblockReceivedData =
      { s with
        block := .none
        timeouts := []
        fragment := .single
        avMsg := .null
        avMsgLen := 0
        source := source } := by
  have hfragment : (if s.fragment = .ending then PacketType.single else s.fragment) = .single := by
    obtain h | h := h <;> simp [h]
  have heq : s.avrcpUnblockReceivedData =
      { s with block := .none, timeouts := [], fragment := .single }.avrcpSourceDrop := by
    unfold avrcpUnblockReceivedData avrcpSourceProcessed
    obtain h | h := h <;> simp [h]
  rw [heq]
  unfold avrcpSourceDrop
  split_ifs with hlen hsource
  · exact ⟨s.source, fun _ => rfl, by rw [show s.avMsgLen = 0 from hlen]⟩
  · exact ⟨_, fun hne => absurd hsource hne, rfl⟩
  · exact ⟨s.source, fun _ => rfl, rfl⟩
  · exact absurd rfl ‹¬ PacketType.single = .single›

theorem Holds.frame_unblock (h : s.Holds) : s.Frame s.avrcpUnblockReceivedData := by
  obtain ⟨source, -, heq⟩ := avrcpUnblockReceivedData_eq h.fragment
  rw [heq]
  exact ⟨rfl, rfl, rfl, fun _ => id, Or.inr rfl,
    ⟨fun _ => ⟨rfl, rfl, rfl⟩, fun h => (by cases h), Or.inl rfl, fun _ => rfl⟩⟩

theorem Holds.frame_processed (h : s.Holds) : s.Frame s.avrcpSourceProcessed := by
  by_cases hblock : s.block = .none
  · have heq : s.avrcpSourceProcessed = s.avrcpUnblockReceivedData := by
      unfold avrcpUnblockReceivedData
      rw [← h.timeouts hblock, ← hblock]
    rw [heq]
    exact h.frame_unblock
  by_cases hfragment : s.fragment = .ending
  · have heq : s.avrcpSourceProcessed = { s with fragment := .single } := by
      unfold avrcpSourceProcessed
      dsimp only
      rw [if_pos hfragment, if_neg hblock]
    rw [heq]
    exact ⟨rfl, rfl, rfl, fun _ => id, Or.inl rfl, ⟨fun hnull => absurd (h.null hnull).1 hblock,
      fun hsource => ⟨(h.source hsource).1, rfl⟩, Or.inl rfl, h.timeouts⟩⟩
  · have heq : s.avrcpSourceProcessed = s := by
      unfold avrcpSourceProcessed
      dsimp only
      rw [if_neg hfragment, if_neg hblock]
    rw [heq]
    exact .refl h

theorem Holds.frame_sent (h : s.Holds) (hdrSize : ℕ) (response : Octet) :
    s.Frame (s.avcResponseSent hdrSize response) := by
  unfold avcResponseSent
  split_ifs
  · exact h.frame_unblock
  · exact .refl h

/-- A command is never lost. -/
theorem Holds.lost_eq (h : s.Holds) : s.Frame
    (if s.avMsg = .source ∧ s.source = [] then { s with avMsg := .null, avMsgLen := 0 } else s) := by
  split_ifs with hlost
  · obtain ⟨hblock, hfragment⟩ := h.source hlost.1
    have hnone : s.block = .none := hblock.resolve_right fun hne => hne hlost.2
    exact ⟨rfl, rfl, rfl, fun _ => id, Or.inl rfl,
      ⟨fun _ => ⟨hnone, rfl, hfragment⟩, fun h => (by cases h), h.fragment, h.timeouts⟩⟩
  · exact .refl h

variable {sent : List Response} {room : Bool} {data : List Octet} {response : Octet}

theorem Holds.frame_avc (h : s.Holds) {hdrSize : ℕ}
    (ht : s.avrcpSendAvcResponse hdrSize response data room = some (t, sent)) :
    s.Frame t := by
  unfold avrcpSendAvcResponse at ht
  dsimp only at ht
  have hlost := h.lost_eq
  generalize (if s.avMsg = .source ∧ s.source = [] then { s with avMsg := .null, avMsgLen := 0 } else s) = u
    at ht hlost
  refine hlost.trans ?_
  split at ht
  · obtain ⟨r, -, hr⟩ := map_eq_some_iff.mp ht
    obtain ⟨rfl, -⟩ := Prod.mk.inj hr
    exact hlost.holds.frame_sent hdrSize response
  · obtain ⟨rfl, -⟩ := Prod.mk.inj (some.inj ht)
    exact hlost.holds.frame_sent hdrSize response

/-- A message in memory of its own is answered. -/
theorem avc_eq_of_heap {octets : List Octet} (h : s.avMsg = .heap octets) {hdrSize : ℕ}
    (ht : s.avrcpSendAvcResponse hdrSize response data room = some (t, sent)) :
    t = s.avcResponseSent hdrSize response := by
  unfold avrcpSendAvcResponse at ht
  dsimp only at ht
  rw [if_neg (fun hlost => by cases h.symm.trans hlost.1)] at ht
  split at ht
  · obtain ⟨r, -, hr⟩ := map_eq_some_iff.mp ht
    exact (Prod.mk.inj hr).1.symm
  · exact (Prod.mk.inj (some.inj ht)).1.symm

variable {mandatoryData : List Octet}

/-- Without a message, or with one of its own, `avrcpSourceDrop` leaves what holds to the caller. -/
theorem release_eq {response pdu : Octet} {transId : Label} {u : Session}
    {temp : Message} (h : s.release response pdu mandatoryData = some (transId, u, temp)) :
    ∃ source avMsg avMsgLen, u = { s with source := source, avMsg := avMsg, avMsgLen := avMsgLen } ∧
      (temp = .null ∨ (temp = s.avMsg ∧ source = s.source)) := by
  have hdrop : ∃ source avMsg avMsgLen,
      s.avrcpSourceDrop = { s with source := source, avMsg := avMsg, avMsgLen := avMsgLen } := by
    unfold avrcpSourceDrop
    split_ifs <;> exact ⟨_, _, _, rfl⟩
  obtain ⟨source, avMsg, avMsgLen, hdrop⟩ := hdrop
  unfold release at h
  split_ifs at h with hpdu
  · obtain ⟨event, -, h⟩ := map_eq_some_iff.mp h
    split_ifs at h with hevent
    · obtain ⟨-, h⟩ := Prod.mk.inj h
      obtain ⟨rfl, rfl⟩ := Prod.mk.inj h
      exact ⟨source, avMsg, avMsgLen, hdrop, Or.inl rfl⟩
    · obtain ⟨-, h⟩ := Prod.mk.inj h
      obtain ⟨rfl, rfl⟩ := Prod.mk.inj h
      exact ⟨_, _, _, rfl, Or.inr ⟨rfl, rfl⟩⟩
  · obtain ⟨-, h⟩ := Prod.mk.inj (some.inj h)
    obtain ⟨rfl, rfl⟩ := Prod.mk.inj h
    exact ⟨source, avMsg, avMsgLen, hdrop, Or.inl rfl⟩

theorem Holds.frame_metadata (h : s.Holds) {response pdu : Octet} {packetType : PacketType}
    {size : ℕ}
    (ht : s.avrcpSendMetadataResponse response pdu data packetType size mandatoryData room = some (t, sent)) :
    s.Frame t := by
  unfold avrcpSendMetadataResponse at ht
  obtain ⟨⟨transId, u, temp⟩, hrelease, ht⟩ := bind_eq_some_iff.mp ht
  obtain ⟨⟨v, sent'⟩, hsend, ht⟩ := map_eq_some_iff.mp ht
  obtain ⟨rfl, -⟩ := Prod.mk.inj ht
  obtain ⟨source, avMsg, avMsgLen, rfl, htemp⟩ := release_eq hrelease
  dsimp only at hsend
  have hv := avc_eq_of_heap rfl hsend
  generalize hu : ({ s with source := source, avMsg := .heap _, avMsgLen := avcStartHeaderSize } : Session) = u at hv
  have hframe : s.Frame u := by
    rw [← hu]
    exact ⟨rfl, rfl, rfl, fun _ => id, Or.inl rfl,
      ⟨fun h => (by cases h), fun h => (by cases h), h.fragment, h.timeouts⟩⟩
  have hfv : s.Frame v := by
    rw [hv]
    exact hframe.trans (hframe.holds.frame_sent _ _)
  unfold restore
  split_ifs with hnull hlast
  · -- the message is the one that was pending before
    obtain ⟨rfl, rfl⟩ := htemp.resolve_left hnull
    refine ⟨hfv.registrations, hfv.notify, hfv.queue, hfv.registered, hfv.block,
      ⟨fun h => absurd h hnull, fun hsource => ?_, hfv.holds.fragment, hfv.holds.timeouts⟩⟩
    obtain ⟨hblock, hfragment⟩ := h.source hsource
    change (v.block = .none ∨ v.source ≠ []) ∧ v.fragment = .single
    rw [hv]
    unfold avcResponseSent
    split_ifs
    · obtain ⟨source, -, heq⟩ := avrcpUnblockReceivedData_eq hframe.holds.fragment
      rw [heq]
      exact ⟨Or.inl rfl, rfl⟩
    · rw [← hu]
      exact ⟨hblock, hfragment⟩
  · exact hfv.trans hfv.holds.frame_unblock
  · exact hfv

theorem Holds.frame_clear (h : s.Holds) (event : ℕ) : s.Frame (s.clearRegisterNotification event) := by
  refine ⟨rfl, rfl, rfl, fun event' hset => ?_, Or.inl rfl, ⟨h.null, h.source, h.fragment, h.timeouts⟩⟩
  have hand : (s.registeredEvents &&& ~~~(1#16 <<< event)).getLsbD event' = true := hset
  rw [BitVec.getLsbD_and, Bool.and_eq_true] at hand
  exact hand.1

theorem Holds.frame_register (h : s.Holds) {response id : Octet} {data attributes : List Octet}
    (ht : s.sendRegisterNotificationResponse response id data attributes room = some (t, sent)) : s.Frame t := by
  unfold sendRegisterNotificationResponse at ht
  dsimp only at ht
  have hclear : s.Frame (if response ≠ Rsp.interim then s.clearRegisterNotification id.toNat else s) := by
    split_ifs
    · exact h.frame_clear _
    · exact .refl h
  generalize (if response ≠ Rsp.interim then s.clearRegisterNotification id.toNat else s) = u at ht hclear
  split_ifs at ht with hrejected hlong
  · exact hclear.trans (hclear.holds.frame_metadata ht)
  · exact hclear.trans (hclear.holds.frame_metadata ht)

theorem Holds.frame_reject (h : s.Holds) {room : ℕ → Bool} {ids : List ℕ}
    (ht : s.rejectNotifications response room ids = some (t, sent)) : s.Frame t := by
  induction ids generalizing s sent with
  | nil =>
    obtain ⟨rfl, -⟩ := Prod.mk.inj (some.inj ht)
    exact .refl h
  | cons id ids ih =>
    obtain ⟨⟨u, first⟩, hu, ht⟩ := bind_eq_some_iff.mp ht
    obtain ⟨⟨v, rest⟩, hv, ht⟩ := map_eq_some_iff.mp ht
    obtain ⟨rfl, -⟩ := Prod.mk.inj ht
    have hframe := h.frame_register hu
    exact hframe.trans (ih hframe.holds hv)

theorem Holds.frame_unitInfo (h : s.Holds) {accept : Bool}
    (ht : s.avrcpHandleInternalUnitInfoRes accept data room = some (t, sent)) :
    s.Frame t := by
  unfold avrcpHandleInternalUnitInfoRes at ht
  split at ht
  · obtain ⟨rfl, -⟩ := Prod.mk.inj (some.inj ht)
    exact .refl h
  split_ifs at ht
  · exact h.frame_avc ht
  · obtain ⟨r, -, hr⟩ := map_eq_some_iff.mp ht
    obtain ⟨rfl, -⟩ := Prod.mk.inj hr
    exact h.frame_unblock

theorem Holds.frame_subunitInfo (h : s.Holds) {accept : Bool} {pageData : List Octet}
    (ht : s.avrcpHandleInternalSubUnitInfoRes accept pageData room = some (t, sent)) :
    s.Frame t := by
  have hprocessed : s.Frame s.avrcpSourceProcessed.avrcpUnblockReceivedData :=
    h.frame_processed.trans h.frame_processed.holds.frame_unblock
  unfold avrcpHandleInternalSubUnitInfoRes at ht
  split at ht
  · obtain ⟨rfl, -⟩ := Prod.mk.inj (some.inj ht)
    exact h.frame_unblock
  split_ifs at ht
  · obtain ⟨⟨u, rest⟩, hu, hr⟩ := map_eq_some_iff.mp ht
    obtain ⟨rfl, -⟩ := Prod.mk.inj hr
    exact (h.frame_avc hu).trans (h.frame_avc hu).holds.frame_unblock
  · obtain ⟨rfl, -⟩ := Prod.mk.inj (some.inj ht)
    exact hprocessed
  · obtain ⟨r, -, hr⟩ := map_eq_some_iff.mp ht
    obtain ⟨rfl, -⟩ := Prod.mk.inj hr
    exact hprocessed

theorem Holds.frame_control (h : s.Holds) {pdu response : Octet}
    (ht : s.avrcpHandleCommonMetadataControlResponse pdu response room = some (t, sent)) : s.Frame t := by
  unfold avrcpHandleCommonMetadataControlResponse at ht
  split_ifs at ht
  · exact h.frame_metadata ht
  · exact h.frame_metadata ht
  · exact h.frame_metadata ht

variable {answer : Answer}

theorem Holds.frame_respond (h : s.Holds)
    (ht : s.respond room answer = some (t, sent)) : s.Frame t := by
  cases answer with
  | avc hdrSize response => exact h.frame_avc ht
  | unitInfo accept data => exact h.frame_unitInfo ht
  | subunitInfo accept pageData => exact h.frame_subunitInfo ht
  | metadata pdu response packetType mandatoryData data => exact h.frame_metadata ht
  | control pdu response => exact h.frame_control ht
  | rejectMetadata response pdu => exact h.frame_metadata ht
  | event response id data attributes => exact h.frame_register ht

/-- A handler sends its response, and rejects the events of the player when it has changed. -/
theorem handle_cases {room : ℕ → Bool}
    (ht : s.handle answer room = some (t, sent)) :
    ∃ u first, s.respond (room 0) answer = some (u, first) ∧
      ((answer.changesPlayer = true ∧ ∃ rest, u.avrcpRejectRegisterNotifications playerIdAssociatedEvents
          Rsp.rejectedAddressedPlayerChanged room = some (t, rest) ∧ sent = first ++ rest) ∨
        (answer.changesPlayer = false ∧ t = u ∧ sent = first)) := by
  obtain ⟨⟨u, first⟩, hu, ht⟩ := bind_eq_some_iff.mp ht
  refine ⟨u, first, hu, ?_⟩
  dsimp only at ht
  split_ifs at ht with hplayer
  · obtain ⟨⟨v, rest⟩, hv, ht⟩ := map_eq_some_iff.mp ht
    obtain ⟨rfl, rfl⟩ := Prod.mk.inj ht
    exact Or.inl ⟨hplayer, rest, hv, rfl⟩
  · obtain ⟨rfl, rfl⟩ := Prod.mk.inj (some.inj ht)
    exact Or.inr ⟨Bool.eq_false_iff.mpr hplayer, rfl, rfl⟩

theorem Holds.frame_handle (h : s.Holds) {room : ℕ → Bool}
    (ht : s.handle answer room = some (t, sent)) : s.Frame t := by
  obtain ⟨u, first, hu, ⟨-, rest, ht, -⟩ | ⟨-, rfl, -⟩⟩ := handle_cases ht
  · exact (h.frame_respond hu).trans ((h.frame_respond hu).holds.frame_reject ht)
  · exact h.frame_respond hu

/-! ### The invariant -/

/-- The transaction of the last registration of an event. -/
def registrationLabel (s : Session) (event : ℕ) : Option Label :=
  (s.registrations.find? fun registration => registration.1 = event).map Prod.snd

/-- The labels are those of the registrations, and only events that have been registered are raised. -/
structure Labelled (s : Session) : Prop where
  labels : ∀ event label, s.registrationLabel event = some label →
    isEvent event ∧ s.notifyTransactionLabel (event - 1) = label
  registered : ∀ event, s.isEventRegistered event → (s.registrationLabel event).isSome
  queued : ∀ response id data attributes, Answer.event response id data attributes ∈ s.queue →
    (s.registrationLabel id.toNat).isSome

/-- The invariant. -/
structure Inv (s : Session) : Prop where
  holds : s.Holds
  labelled : s.Labelled

theorem Inv.init : init.Inv where
  holds := ⟨fun _ => ⟨rfl, rfl, rfl⟩, fun h => (by cases h), Or.inl rfl, fun _ => rfl⟩
  labelled := by
    refine ⟨fun _ _ h => (by cases h), fun event h => ?_, fun _ _ _ _ h => (by cases h)⟩
    have hzero : (0#16).getLsbD event = true := h
    rw [BitVec.getLsbD_zero] at hzero
    cases hzero

theorem Frame.labelled (h : s.Labelled) (hframe : s.Frame t) : t.Labelled := by
  have hlabel (event : ℕ) : t.registrationLabel event = s.registrationLabel event := by
    unfold registrationLabel
    rw [hframe.registrations]
  refine ⟨fun event label ht => ?_, fun event ht => ?_, fun response id data attributes ht => ?_⟩
  · rw [hlabel] at ht
    rw [hframe.notify]
    exact h.labels event label ht
  · rw [hlabel]
    exact h.registered event (hframe.registered event ht)
  · rw [hframe.queue] at ht
    rw [hlabel]
    exact h.queued response id data attributes ht

theorem Frame.inv (h : s.Inv) (hframe : s.Frame t) : t.Inv := ⟨hframe.holds, hframe.labelled h.labelled⟩

/-- A message that is not an event is under way. -/
theorem Labelled.enqueue (h : s.Labelled)
    (hevent : ∀ response id data attributes, answer ≠ .event response id data attributes) :
    { s with queue := s.queue ++ [answer] }.Labelled := by
  refine ⟨h.labels, h.registered, fun response id data attributes hmem => ?_⟩
  obtain hmem | hmem := List.mem_append.mp hmem
  · exact h.queued response id data attributes hmem
  · exact absurd (List.mem_singleton.mp hmem).symm (hevent response id data attributes)

/-! ### Commands -/

theorem isEventRegistered_set {event event' : ℕ}
    (h : (s.avrcpHandleRegisterNotificationCommand event).isEventRegistered event' = true) :
    event' = event ∨ s.isEventRegistered event' = true := by
  have hor : (s.registeredEvents ||| (1#16 <<< event)).getLsbD event' = true := h
  rw [BitVec.getLsbD_or, Bool.or_eq_true] at hor
  refine hor.symm.imp_left fun hshift => ?_
  rw [BitVec.getLsbD_shiftLeft] at hshift
  simp only [Bool.and_eq_true, decide_eq_true_eq, Bool.not_eq_true', decide_eq_false_iff_not, Nat.not_lt,
    BitVec.getLsbD_one] at hshift
  omega

theorem registrationLabel_register (event event' : ℕ) :
    (s.avrcpHandleRegisterNotificationCommand event).registrationLabel event' =
      if event = event' then some s.rspTransactionLabel else s.registrationLabel event' := by
  unfold registrationLabel avrcpHandleRegisterNotificationCommand
  rw [List.find?_cons]
  by_cases h : event = event'
  · simp [h]
  · simp [h]

theorem Labelled.register (h : s.Labelled) {event : ℕ} (hevent : isEvent event) :
    (s.avrcpHandleRegisterNotificationCommand event).Labelled := by
  refine ⟨fun event' label ht => ?_, fun event' ht => ?_, fun response id data attributes ht => ?_⟩
  · rw [registrationLabel_register] at ht
    change isEvent event' ∧ Function.update s.notifyTransactionLabel (event - 1) s.rspTransactionLabel
      (event' - 1) = label
    split_ifs at ht with heq
    · rw [← heq, Function.update_self]
      exact ⟨hevent, some.inj ht⟩
    · obtain ⟨hevent', hlabel⟩ := h.labels event' label ht
      refine ⟨hevent', ?_⟩
      rw [Function.update_of_ne, hlabel]
      simp only [isEvent, decide_eq_true_eq] at hevent hevent'
      omega
  · rw [registrationLabel_register]
    split_ifs with heq
    · rfl
    · exact h.registered event' ((isEventRegistered_set ht).resolve_left fun h => heq h.symm)
  · rw [registrationLabel_register]
    split_ifs with heq
    · rfl
    · exact h.queued response id data attributes ht

theorem Labelled.reject (h : s.Labelled) (response id : Octet) :
    (s.avrcpSendRejectMetadataResponse response id).Labelled := by
  unfold avrcpSendRejectMetadataResponse
  split_ifs
  · exact Labelled.enqueue (s := s) h (by simp)
  · exact Labelled.enqueue (s := { s with block := .events 0 }) ⟨h.labels, h.registered, h.queued⟩ (by simp)
  · exact Labelled.enqueue (s := { s with block := .avc .vendor }) ⟨h.labels, h.registered, h.queued⟩ (by simp)

/-- What a handler of a command leaves. -/
structure Pends (s t : Session) : Prop where
  source : t.source = s.source
  avMsg : t.avMsg = s.avMsg
  fragment : t.fragment = s.fragment
  block : t.block ≠ .none

theorem pends_reject (s : Session) (response id : Octet) :
    s.Pends (s.avrcpSendRejectMetadataResponse response id) := by
  unfold avrcpSendRejectMetadataResponse
  by_cases hblock : s.block = .none
  · refine ⟨?_, ?_, ?_, ?_⟩ <;> rw [if_neg (not_not_intro hblock)]
    change (if id = Pdu.registerNotification then Blocked.events 0 else .avc .vendor) ≠ .none
    split_ifs <;> simp
  · refine ⟨?_, ?_, ?_, ?_⟩ <;> rw [if_pos hblock]
    exact hblock

theorem Labelled.message (h : s.Labelled) (avMsg : Message) (avMsgLen : ℕ) (fragment : PacketType) :
    { s with avMsg := avMsg, avMsgLen := avMsgLen, fragment := fragment }.Labelled :=
  ⟨h.labels, h.registered, h.queued⟩

theorem Labelled.command (h : s.Labelled) (first : Octet) (command : Command) :
    (s.avrcpHandleCommand first command).Labelled := by
  have hlabel (l : Label) (b : Blocked) (ts : List Blocked) :
      { s with rspTransactionLabel := l, block := b, timeouts := ts }.Labelled := ⟨h.labels, h.registered, h.queued⟩
  cases command with
  | avc command => exact hlabel _ _ _
  | metadata pdu known reject =>
    cases reject with
    | none => exact hlabel _ _ _
    | some response => exact (hlabel _ _ _).reject response pdu
  | registration event =>
    unfold avrcpHandleCommand
    dsimp only
    split_ifs with hevent
    · exact (hlabel _ _ _).register hevent
    · exact (hlabel _ _ _).reject _ _
  | corrupted response pdu => exact (hlabel _ _ _).reject response pdu

theorem pends_command (s : Session) (first : Octet) (command : Command) :
    s.Pends (s.avrcpHandleCommand first command) := by
  cases command with
  | avc command => exact ⟨rfl, rfl, rfl, by simp [avrcpHandleCommand, avrcpBlockReceivedData]⟩
  | metadata pdu known reject =>
    have hblock : (if known = true then Blocked.metadata pdu else .avc .vendor) ≠ .none := by split_ifs <;> simp
    cases reject with
    | none => exact ⟨rfl, rfl, rfl, hblock⟩
    | some response =>
      have h := pends_reject (({ s with rspTransactionLabel := first.extractLsb' 4 4 } : Session).avrcpBlockReceivedData
        (if known then .metadata pdu else .avc .vendor)) response pdu
      exact ⟨h.source, h.avMsg, h.fragment, h.block⟩
  | registration event =>
    unfold avrcpHandleCommand
    dsimp only
    split_ifs with hevent
    · exact ⟨rfl, rfl, rfl, by simp [avrcpHandleRegisterNotificationCommand, avrcpBlockReceivedData]⟩
    · have h := pends_reject { s with rspTransactionLabel := first.extractLsb' 4 4 } Rsp.rejectedInvalidParam
        Pdu.registerNotification
      exact ⟨h.source, h.avMsg, h.fragment, h.block⟩
  | corrupted response pdu =>
    have h := pends_reject { s with rspTransactionLabel := first.extractLsb' 4 4 } response pdu
    exact ⟨h.source, h.avMsg, h.fragment, h.block⟩

/-- A message that a command pends with. -/
theorem Pends.holds (h : s.Pends t) (hnull : s.avMsg ≠ .null)
    (hsource : s.avMsg = .source → s.source ≠ [] ∧ s.fragment = .single)
    (hfragment : s.fragment = .single ∨ s.fragment = .ending) : t.Holds where
  null hnull' := absurd (h.avMsg.symm.trans hnull') hnull
  source hsource' := by
    obtain ⟨hne, hfragment⟩ := hsource (h.avMsg.symm.trans hsource')
    rw [h.source, h.fragment]
    exact ⟨Or.inr hne, hfragment⟩
  fragment := by rwa [h.fragment]
  timeouts hnone := absurd hnone h.block

theorem Inv.receive (h : s.Inv) (message : Received) : (s.receive message).Inv := by
  obtain ⟨octets, length, reassembled, command⟩ := message
  unfold Session.receive
  cases octets with
  | nil => exact h
  | cons first octets =>
    dsimp only
    split_ifs with hreassembled hsource
    · refine ⟨(pends_command _ first command).holds ?_ ?_ ?_, (h.labelled.message _ _ _).command first command⟩
      · simp
      · simp
      · exact Or.inr rfl
    · refine ⟨(pends_command _ first command).holds ?_ ?_ ?_, (h.labelled.message _ _ _).command first command⟩
      · simp
      · rintro -
        refine ⟨?_, rfl⟩
        rintro hnil
        rw [show s.source = [] from hnil] at hsource
        cases hsource
      · exact Or.inl rfl
    · exact h

theorem Inv.timeout (h : s.Inv) {room : ℕ → Bool} {pending : Blocked}
    (ht : s.avrcpHandleInternalSendResponseTimeout room pending = some (t, sent)) : t.Inv := by
  have hqueue (answer : Answer) (hanswer : ∀ r id d a, answer ≠ .event r id d a)
      (ht : some ({ s with queue := s.queue ++ [answer] }, ([] : List Response)) = some (t, sent)) : t.Inv := by
    obtain ⟨rfl, -⟩ := Prod.mk.inj (some.inj ht)
    exact ⟨⟨h.holds.null, h.holds.source, h.holds.fragment, h.holds.timeouts⟩, h.labelled.enqueue hanswer⟩
  cases pending with
  | none =>
    obtain ⟨rfl, -⟩ := Prod.mk.inj (some.inj ht)
    exact h.holds.frame_unblock.inv h
  | avc command => cases command <;> exact hqueue _ (by simp) ht
  | metadata pdu => exact (h.holds.frame_metadata ht).inv h
  | events event => exact (h.holds.frame_reject ht).inv h

/-- A message is taken from the queue. -/
theorem Inv.deliver (h : s.Inv) {queue : List Answer} (hqueue : s.queue = answer :: queue) :
    { s with queue := queue }.Inv := by
  refine ⟨⟨h.holds.null, h.holds.source, h.holds.fragment, h.holds.timeouts⟩, h.labelled.labels,
    h.labelled.registered, fun response id data attributes hmem => ?_⟩
  exact h.labelled.queued response id data attributes (hqueue ▸ List.mem_cons_of_mem _ hmem)

theorem Inv.step (h : s.Inv) {e : Input} (ht : s.step e = some t) : t.Inv := by
  cases e with try obtain rfl := some.inj ht
  | arrive packet =>
    refine ⟨⟨h.holds.null, fun hsource => ?_, h.holds.fragment, h.holds.timeouts⟩, h.labelled.labels,
      h.labelled.registered, h.labelled.queued⟩
    exact ⟨Or.inr (List.append_ne_nil_of_right_ne_nil _ (List.cons_ne_nil _ _)), (h.holds.source hsource).2⟩
  | receive message =>
    split_ifs
    · exact h.receive message
    · exact h
  | drop =>
    split_ifs with hblock
    · exact ⟨⟨h.holds.null, fun hsource => ⟨Or.inl hblock, (h.holds.source hsource).2⟩, h.holds.fragment,
        h.holds.timeouts⟩, h.labelled.labels, h.labelled.registered, h.labelled.queued⟩
    · exact h
  | call answer =>
    split_ifs with hmay
    · refine ⟨⟨h.holds.null, h.holds.source, h.holds.fragment, h.holds.timeouts⟩, h.labelled.labels,
        h.labelled.registered, fun response id data attributes hmem => ?_⟩
      obtain hmem | hmem := List.mem_append.mp hmem
      · exact h.labelled.queued response id data attributes hmem
      · obtain rfl := List.mem_singleton.mp hmem
        exact h.labelled.registered id.toNat hmay
    · exact h
  | deliver room =>
    unfold Session.step at ht
    dsimp only at ht
    split at ht
    · obtain rfl := some.inj ht
      exact h
    · rename_i answer queue hqueue
      obtain ⟨⟨u, sent⟩, hu, rfl⟩ := map_eq_some_iff.mp ht
      have hinv := h.deliver hqueue
      exact (hinv.holds.frame_handle hu).inv hinv
  | timeout room =>
    unfold Session.step at ht
    dsimp only at ht
    split at ht
    · obtain rfl := some.inj ht
      exact h
    · rename_i pending timeouts htimeouts
      obtain ⟨⟨u, sent⟩, hu, rfl⟩ := map_eq_some_iff.mp ht
      have hholds : { s with timeouts := timeouts }.Holds := by
        refine ⟨h.holds.null, h.holds.source, h.holds.fragment, fun hblock => ?_⟩
        rw [h.holds.timeouts hblock] at htimeouts
        cases htimeouts
      exact Inv.timeout ⟨hholds, h.labelled.labels, h.labelled.registered, h.labelled.queued⟩ hu

/-- Every state that is reached keeps the invariant. -/
theorem inv_of_run {es : List Input} (hrun : Lib.run step init es = some s) : s.Inv :=
  Lib.run_keeps (fun _ _ _ h ht => h.step ht) Inv.init hrun

end Session

end Cbps.Avrcp
