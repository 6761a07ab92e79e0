import Cbps.Avrcp.Registrations

/-!
# Notifications and the pending command

`avrcpSendMetadataResponse` builds a notification in `av_msg`, where the message of the pending command is,
and puts the message back, but not its length. `undisturbed_iff`: a notification leaves what is pending as it
was exactly when the message has the length that it sets, and nothing of what it sends is taken for the
answer to the pending command; then every answer is the same packet, and the notification has the label of
the registration of its event.
-/

namespace Cbps.Avrcp

open Lib List Option

/-! ### The packets -/

/-- A metadata response with its parameters. -/
def framed (transaction : Label) (response pdu : Octet) (packetType : PacketType) (params : List Octet) : Response where
  transaction := transaction
  ipid := false
  pid := [0x11, 0x0E]
  frame := response :: [0x48, 0x00, 0x00, 0x19, 0x58, pdu, packetType.code, BitVec.ofNat 8 (params.length / 2 ^ 8),
    BitVec.ofNat 8 params.length] ++ params

/-- The notification of an event. A rejection has the reason in place of the event. -/
def notice (transaction : Label) (response id : Octet) (data attributes : List Octet) : Response :=
  let (error, response) := avrcpGetErrorStatusCode response .notify
  framed transaction response Pdu.registerNotification .single
    (if response = Rsp.rejected then [error] else id :: data ++ attributes)

theorem header_start (transId : Label) : ((transId.setWidth 8 <<< 4) ||| (0x06 : Octet)) &&& 0x0c = 0x04 := by
  revert transId
  decide

theorem header_transaction (transId : Label) :
    ((transId.setWidth 8 <<< 4) ||| (0x06 : Octet)).extractLsb' 4 4 = transId := by
  revert transId
  decide

variable {response : Octet}

/-- What is sent of a message that `avrcpSendMetadataResponse` has framed. -/
theorem responseTo_header (h : response ≠ Rsp.badProfile) (transId : Label) (pdu : Octet)
    (packetType : PacketType) (mandatoryData data : List Octet) :
    responseTo (avrcpFrameAVCResponseHeader transId pdu packetType (mandatoryData.length + data.length) ++
      mandatoryData) (10 + mandatoryData.length) response data =
      some (framed transId response pdu packetType (mandatoryData ++ data)) := by
  unfold responseTo avrcpFrameAVCResponseHeader
  simp only [List.cons_append, nil_append, List.head?_cons, bind_some, header_start, if_true]
  rw [if_neg (by simp; omega), if_neg h, if_neg (by omega), header_transaction]
  simp [framed, Nat.add_comm 10]

theorem error_ne_badProfile (h : response ≠ Rsp.badProfile) :
    (avrcpGetErrorStatusCode response .notify).2 ≠ Rsp.badProfile := by
  unfold avrcpGetErrorStatusCode
  split_ifs
  · decide
  · exact h
  · exact h
  · exact (by decide : Rsp.rejected ≠ Rsp.badProfile)

variable {sent : List Response} {room : ℕ → Bool}

namespace Session

variable {s t : Session}

/-! ### One notification -/

/-- The state that a notification leaves: the length of a message is not the one that it had before. -/
def noticed (s : Session) (events : BitVec 16) : Session :=
  { s with
    registeredEvents := events
    avMsgLen := if s.avMsg = .null then 0 else avcStartHeaderSize }

theorem avc_heap {octets : List Octet} (h : s.avMsg = .heap octets) {hdrSize : ℕ}
    (hsize : minAvcPacketSize ≤ hdrSize) {data : List Octet} {sent : Response}
    (hsent : responseTo octets hdrSize response data = some sent) (room : Bool) :
    s.avrcpSendAvcResponse hdrSize response data room = some (s, if room then [sent] else []) := by
  have hkeeps : s.avcResponseSent hdrSize response = s := by
    unfold avcResponseSent
    rw [if_neg (fun h => absurd h.2 (Nat.not_lt.mpr hsize))]
  have hoctets : s.octets = some octets := by
    unfold Session.octets
    rw [h]
  unfold avrcpSendAvcResponse
  dsimp only
  rw [if_neg (fun hlost => by cases h.symm.trans hlost.1), hoctets]
  cases room
  · rw [hkeeps]
    rfl
  · simp only [hsent, map_some, hkeeps, if_true]

variable {data mandatoryData : List Octet}

/-- A notification that is not the answer to the pending command. -/
theorem Holds.metadata_notice (h : s.Holds) {size event : ℕ}
    (hresponse : response ≠ Rsp.badProfile) (hevent : s.eventId response mandatoryData = some event)
    (hblock : s.block ≠ .events event) (hsize : 1 ≤ size) (hle : size ≤ mandatoryData.length) (room : Bool) :
    s.avrcpSendMetadataResponse response Pdu.registerNotification data .single size mandatoryData room =
      some (s.noticed s.registeredEvents, if room then
        [framed (s.notifyTransactionLabel (event - 1)) response Pdu.registerNotification .single
          (mandatoryData.take size ++ data)] else []) := by
  have htake : (mandatoryData.take size).length = size := length_take_of_le hle
  have hsent := responseTo_header hresponse (s.notifyTransactionLabel (event - 1)) Pdu.registerNotification .single
    (mandatoryData.take size) data
  rw [htake] at hsent
  have hrelease : s.release response Pdu.registerNotification mandatoryData =
      some (s.notifyTransactionLabel (event - 1), s, s.avMsg) := by
    unfold release
    rw [if_pos rfl, hevent, map_some, if_neg hblock]
  unfold avrcpSendMetadataResponse
  rw [hrelease, bind_some]
  dsimp only
  rw [avc_heap rfl (by unfold minAvcPacketSize; omega) hsent room, map_some]
  refine congrArg some (Prod.ext ?_ rfl)
  dsimp only
  unfold restore
  by_cases hnull : s.avMsg = .null
  · -- nothing is pending, and nothing is left of the notification
    rw [if_neg (not_not_intro hnull), if_pos (Or.inl rfl)]
    obtain ⟨hnone, hlen, hfragment⟩ := h.null hnull
    have htimeouts := h.timeouts hnone
    obtain ⟨source, hsource, heq⟩ := @avrcpUnblockReceivedData_eq { s with
      avMsg := .heap (avrcpFrameAVCResponseHeader (s.notifyTransactionLabel (event - 1)) Pdu.registerNotification
        .single (size + data.length) ++ mandatoryData.take size)
      avMsgLen := avcStartHeaderSize } h.fragment
    rw [heq, hsource (by simp)]
    unfold noticed
    rw [if_pos hnull]
    obtain ⟨source', avMsg, avMsgLen, fragment, block⟩ := s
    dsimp only at hnull hnone htimeouts hfragment
    subst hnull hnone htimeouts hfragment
    rfl
  · rw [if_pos hnull]
    unfold noticed
    rw [if_neg hnull]

/-- The events that are registered when a response to one of them has been sent. -/
def eventsAfter (s : Session) (response id : Octet) : BitVec 16 :=
  if response ≠ Rsp.interim then (s.clearRegisterNotification id.toNat).registeredEvents else s.registeredEvents

theorem eventId_eq {response id : Octet} {mandatoryData : List Octet} (h : s.block ≠ .events 0)
    (hid : if response = Rsp.rejected then mandatoryData[1]? = some id else mandatoryData[0]? = some id) :
    s.eventId response mandatoryData = some id.toNat := by
  unfold eventId
  rw [if_neg h]
  split_ifs at hid ⊢ with hrejected
  · rw [hid, map_some]
  · rw [hid, map_some]

theorem Holds.register_notice (h : s.Holds) {response id : Octet} {data attributes : List Octet} {room : Bool}
    (hresponse : response ≠ Rsp.badProfile) (hstart : s.block ≠ .events 0)
    (hblock : s.block ≠ .events id.toNat)
    (ht : s.sendRegisterNotificationResponse response id data attributes room = some (t, sent)) :
    t = s.noticed (s.eventsAfter response id) ∧ sent =
      if room then [notice (s.notifyTransactionLabel (id.toNat - 1)) response id data attributes] else [] := by
  have hclear : (if response ≠ Rsp.interim then s.clearRegisterNotification id.toNat else s) =
      { s with registeredEvents := s.eventsAfter response id } := by
    unfold eventsAfter
    split_ifs <;> rfl
  unfold sendRegisterNotificationResponse at ht
  rw [hclear] at ht
  dsimp only at ht
  have hholds : { s with registeredEvents := s.eventsAfter response id }.Holds :=
    ⟨h.null, h.source, h.fragment, h.timeouts⟩
  have herror := error_ne_badProfile hresponse
  unfold notice
  generalize avrcpGetErrorStatusCode response .notify = error at ht herror
  obtain ⟨error, response'⟩ := error
  dsimp only at ht herror ⊢
  split_ifs at ht with hrejected hlong
  · rw [hholds.metadata_notice herror (eventId_eq hstart (by rw [if_pos hrejected]; rfl)) hblock Nat.one_pos
      (by simp)] at ht
    obtain ⟨rfl, rfl⟩ := Prod.mk.inj (some.inj ht)
    rw [if_pos hrejected]
    exact ⟨rfl, rfl⟩
  · rw [hholds.metadata_notice herror (eventId_eq hstart (by rw [if_neg hrejected]; rfl)) hblock (by simp)
      (Nat.le_refl _)] at ht
    obtain ⟨rfl, rfl⟩ := Prod.mk.inj (some.inj ht)
    rw [if_neg hrejected, take_length]
    exact ⟨rfl, rfl⟩

theorem noticed_eq (h : s.avMsgLen = if s.avMsg = .null then 0 else avcStartHeaderSize) (events : BitVec 16) :
    s.noticed events = { s with registeredEvents := events } := by
  unfold noticed
  rw [← h]

theorem Holds.noticed (h : s.Holds) (events : BitVec 16) : (s.noticed events).Holds := by
  refine ⟨fun hnull => ?_, h.source, h.fragment, h.timeouts⟩
  obtain ⟨hblock, -, hfragment⟩ := h.null hnull
  exact ⟨hblock, if_pos hnull, hfragment⟩

/-- Notifications that follow each other. -/
theorem Holds.reject_notices (h : s.Holds) {ids : List ℕ}
    (hresponse : response ≠ Rsp.badProfile) (hstart : s.block ≠ .events 0)
    (hids : ∀ id ∈ ids, id < 16 ∧ s.block ≠ .events id)
    (hlen : s.avMsgLen = if s.avMsg = .null then 0 else avcStartHeaderSize)
    (ht : s.rejectNotifications response room ids = some (t, sent)) :
    (∃ events, t = { s with registeredEvents := events }) ∧
      ∀ r ∈ sent, ∃ id ∈ ids, r = notice (s.notifyTransactionLabel (id - 1)) response (BitVec.ofNat 8 id) [] [] := by
  induction ids generalizing s sent with
  | nil =>
    obtain ⟨rfl, rfl⟩ := Prod.mk.inj (some.inj ht)
    exact ⟨⟨_, rfl⟩, fun r hr => by cases hr⟩
  | cons id ids ih =>
    obtain ⟨⟨u, first⟩, hu, ht⟩ := bind_eq_some_iff.mp ht
    obtain ⟨⟨v, rest⟩, hv, ht⟩ := map_eq_some_iff.mp ht
    obtain ⟨rfl, rfl⟩ := Prod.mk.inj ht
    obtain ⟨hid, hids⟩ := forall_mem_cons.mp hids
    have htoNat : (BitVec.ofNat 8 id).toNat = id := by
      rw [BitVec.toNat_ofNat]
      exact Nat.mod_eq_of_lt (by omega)
    obtain ⟨rfl, rfl⟩ := h.register_notice hresponse hstart (by rw [htoNat]; exact hid.2) hu
    have hnoticed := h.noticed (s.eventsAfter response (BitVec.ofNat 8 id))
    rw [noticed_eq hlen] at hv hnoticed
    obtain ⟨⟨events, rfl⟩, hrest⟩ := ih hnoticed hstart hids hlen hv
    refine ⟨⟨events, rfl⟩, fun r hr => ?_⟩
    obtain hr | hr := mem_append.mp hr
    · split_ifs at hr
      · refine ⟨id, mem_cons_self, ?_⟩
        rw [mem_singleton.mp hr, htoNat]
      · cases hr
    · obtain ⟨id', hmem, hr⟩ := hrest r hr
      exact ⟨id', mem_cons_of_mem _ hmem, hr⟩

/-! ### The answer to a registration -/

theorem block_unblock (s : Session) : s.avrcpUnblockReceivedData.block = .none := by
  unfold avrcpUnblockReceivedData avrcpSourceProcessed avrcpSourceDrop
  dsimp only
  split_ifs <;> rfl

theorem metadata_answers {size event : ℕ} {room : Bool}
    (hevent : s.eventId response mandatoryData = some event)
    (hblock : s.block = .events event)
    (ht : s.avrcpSendMetadataResponse response Pdu.registerNotification data .single size mandatoryData room =
      some (t, sent)) : t.block = .none := by
  have hrelease : s.release response Pdu.registerNotification mandatoryData =
      some (s.rspTransactionLabel, s.avrcpSourceDrop, .null) := by
    unfold release
    rw [if_pos rfl, hevent, map_some, if_pos hblock]
  unfold avrcpSendMetadataResponse at ht
  rw [hrelease, bind_some] at ht
  obtain ⟨⟨u, sent'⟩, -, ht⟩ := map_eq_some_iff.mp ht
  obtain ⟨rfl, -⟩ := Prod.mk.inj ht
  unfold restore
  rw [if_neg (not_not_intro rfl), if_pos (Or.inl rfl)]
  exact block_unblock u

/-- A response to the event of the pending registration, or to any event while a registration that is not
valid is pending, is taken for the answer. -/
theorem register_answers {response id : Octet} {data attributes : List Octet} {room : Bool}
    (hblock : s.block = .events 0 ∨ s.block = .events id.toNat)
    (ht : s.sendRegisterNotificationResponse response id data attributes room = some (t, sent)) :
    t.block = .none := by
  have hclear : (if response ≠ Rsp.interim then s.clearRegisterNotification id.toNat else s).block = s.block := by
    split_ifs <;> rfl
  unfold sendRegisterNotificationResponse at ht
  dsimp only at ht
  rw [← hclear] at hblock
  generalize (if response ≠ Rsp.interim then s.clearRegisterNotification id.toNat else s) = u at ht hblock
  generalize avrcpGetErrorStatusCode response .notify = error at ht
  obtain ⟨error, response'⟩ := error
  dsimp only at ht
  by_cases hstart : u.block = .events 0
  · have hevent (mandatoryData : List Octet) : u.eventId response' mandatoryData = some 0 := if_pos hstart
    split_ifs at ht
    · exact metadata_answers (hevent _) hstart ht
    · exact metadata_answers (hevent _) hstart ht
  · have hid := hblock.resolve_left hstart
    split_ifs at ht with hrejected
    · refine metadata_answers (eventId_eq hstart ?_) hid ht
      rw [if_pos hrejected]
      rfl
    · refine metadata_answers (eventId_eq hstart ?_) hid ht
      rw [if_neg hrejected]
      rfl

theorem Holds.reject_answers (h : s.Holds) {ids : List ℕ}
    (hblock : s.block = .none ∨ ∃ id ∈ ids, id < 16 ∧ s.block = .events id)
    (ht : s.rejectNotifications response room ids = some (t, sent)) : t.block = .none := by
  induction ids generalizing s sent with
  | nil =>
    obtain ⟨rfl, -⟩ := Prod.mk.inj (some.inj ht)
    exact hblock.resolve_right (by simp)
  | cons id ids ih =>
    obtain ⟨⟨u, first⟩, hu, ht⟩ := bind_eq_some_iff.mp ht
    obtain ⟨⟨v, rest⟩, hv, ht⟩ := map_eq_some_iff.mp ht
    obtain ⟨rfl, -⟩ := Prod.mk.inj ht
    have hframe := h.frame_register hu
    refine ih hframe.holds ?_ hv
    obtain hnone | ⟨id', hmem, hlt, hid⟩ := hblock
    · exact Or.inl (hframe.block.elim (fun heq => heq.trans hnone) fun hu => hu)
    obtain rfl | hmem := mem_cons.mp hmem
    · have htoNat : (BitVec.ofNat 8 id').toNat = id' := by
        rw [BitVec.toNat_ofNat]
        exact Nat.mod_eq_of_lt (by omega)
      exact Or.inl (register_answers (Or.inr (by rw [htoNat]; exact hid)) hu)
    · obtain heq | hnone := hframe.block
      · exact Or.inr ⟨id', hmem, hlt, heq.trans hid⟩
      · exact Or.inl hnone

/-! ### What an answer depends on -/

/-- The session with other events registered and other messages under way. -/
def other (s : Session) (events : BitVec 16) (queue : List Answer) : Session :=
  { s with registeredEvents := events, queue := queue }

variable (s) (events : BitVec 16) (queue : List Answer)

theorem other_sourceDrop : (s.other events queue).avrcpSourceDrop = s.avrcpSourceDrop.other events queue := by
  unfold avrcpSourceDrop
  change (if s.avMsgLen = 0 then _ else if s.avMsg = .source then _ else if s.fragment = .single then _ else _) = _
  split_ifs <;> rfl

theorem other_sourceProcessed :
    (s.other events queue).avrcpSourceProcessed = s.avrcpSourceProcessed.other events queue := by
  unfold avrcpSourceProcessed
  dsimp only
  have hfragment : (if (s.other events queue).fragment = .ending then
      { s.other events queue with fragment := .single } else s.other events queue) =
      (if s.fragment = .ending then { s with fragment := .single } else s).other events queue := by
    change (if s.fragment = .ending then _ else _) = _
    split_ifs <;> rfl
  rw [hfragment]
  generalize (if s.fragment = .ending then { s with fragment := .single } else s) = u
  change (if u.block = .none then _ else _) = _
  split_ifs
  · exact other_sourceDrop u events queue
  · rfl

theorem other_unblock :
    (s.other events queue).avrcpUnblockReceivedData = s.avrcpUnblockReceivedData.other events queue :=
  other_sourceProcessed { s with block := .none, timeouts := [] } events queue

theorem other_responseSent (hdrSize : ℕ) (response : Octet) :
    (s.other events queue).avcResponseSent hdrSize response = (s.avcResponseSent hdrSize response).other events queue := by
  unfold avcResponseSent
  split_ifs
  · exact other_unblock s events queue
  · rfl

theorem other_avc (hdrSize : ℕ) (response : Octet) (data : List Octet) (room : Bool) :
    (s.other events queue).avrcpSendAvcResponse hdrSize response data room =
      (s.avrcpSendAvcResponse hdrSize response data room).map fun (t, sent) => (t.other events queue, sent) := by
  have hlost : (if (s.other events queue).avMsg = .source ∧ (s.other events queue).source = [] then
      { s.other events queue with avMsg := .null, avMsgLen := 0 } else s.other events queue) =
      (if s.avMsg = .source ∧ s.source = [] then { s with avMsg := .null, avMsgLen := 0 } else s).other events
        queue := by
    change (if s.avMsg = .source ∧ s.source = [] then _ else _) = _
    split_ifs <;> rfl
  unfold avrcpSendAvcResponse
  dsimp only
  rw [hlost]
  generalize (if s.avMsg = .source ∧ s.source = [] then { s with avMsg := .null, avMsgLen := 0 } else s) = u
  have hoctets : (u.other events queue).octets = u.octets := rfl
  rw [hoctets, other_responseSent]
  cases u.octets with
  | none => rfl
  | some octets =>
    cases room
    · rfl
    · dsimp only
      rw [Option.map_map]
      rfl

theorem other_release (response pdu : Octet) (mandatoryData : List Octet) :
    (s.other events queue).release response pdu mandatoryData =
      (s.release response pdu mandatoryData).map fun (transId, t, temp) => (transId, t.other events queue, temp) := by
  unfold release
  split_ifs
  · have hevent : (s.other events queue).eventId response mandatoryData = s.eventId response mandatoryData := rfl
    rw [hevent, Option.map_map]
    refine congrArg (fun f => (s.eventId response mandatoryData).map f) (funext fun event => ?_)
    change (if s.block = .events event then _ else _) = _
    rw [other_sourceDrop, Function.comp_apply]
    split_ifs <;> rfl
  · rw [other_sourceDrop]
    rfl

theorem other_restore (temp : Message) (response pdu : Octet) :
    (s.other events queue).restore temp response pdu = (s.restore temp response pdu).other events queue := by
  unfold restore
  rw [other_unblock]
  split_ifs <;> rfl

theorem other_metadata (response pdu : Octet) (data : List Octet) (packetType : PacketType) (size : ℕ)
    (mandatoryData : List Octet) (room : Bool) :
    (s.other events queue).avrcpSendMetadataResponse response pdu data packetType size mandatoryData room =
      (s.avrcpSendMetadataResponse response pdu data packetType size mandatoryData room).map
        fun (t, sent) => (t.other events queue, sent) := by
  unfold avrcpSendMetadataResponse
  rw [other_release]
  cases s.release response pdu mandatoryData with
  | none => rfl
  | some released =>
    obtain ⟨transId, u, temp⟩ := released
    rw [map_some, bind_some, bind_some]
    dsimp only
    refine (congrArg (Option.map _) (other_avc { u with
      avMsg := .heap (avrcpFrameAVCResponseHeader transId pdu packetType (size + data.length) ++
        mandatoryData.take size)
      avMsgLen := avcStartHeaderSize } events queue (10 + size) response data room)).trans ?_
    rw [Option.map_map, Option.map_map]
    refine congrArg (fun f => Option.map f _) (funext fun p => ?_)
    obtain ⟨v, sent⟩ := p
    exact Prod.ext (other_restore v events queue temp response pdu) rfl

theorem other_respond (room : Bool) (answer : Answer) :
    ((s.other events queue).respond room answer).map Prod.snd = (s.respond room answer).map Prod.snd := by
  have hmetadata (u : Session) (events : BitVec 16) (queue : List Answer) (response pdu : Octet) (data : List Octet)
      (packetType : PacketType) (size : ℕ) (mandatoryData : List Octet) :
      ((u.other events queue).avrcpSendMetadataResponse response pdu data packetType size mandatoryData room).map
        Prod.snd = (u.avrcpSendMetadataResponse response pdu data packetType size mandatoryData room).map
        Prod.snd := by
    rw [other_metadata, Option.map_map]
    rfl
  have havc (hdrSize : ℕ) (response : Octet) :
      ((s.other events queue).avrcpSendAvcResponse hdrSize response [] room).map Prod.snd =
        (s.avrcpSendAvcResponse hdrSize response [] room).map Prod.snd := by
    rw [other_avc, Option.map_map]
    rfl
  have hoctets : (s.other events queue).octets = s.octets := rfl
  cases answer with
  | avc hdrSize response => exact havc hdrSize response
  | unitInfo accept data =>
    change ((s.other events queue).avrcpHandleInternalUnitInfoRes accept data room).map Prod.snd =
      (s.avrcpHandleInternalUnitInfoRes accept data room).map Prod.snd
    unfold avrcpHandleInternalUnitInfoRes
    rw [hoctets]
    cases s.octets with
    | none => rfl
    | some octets =>
      dsimp only
      split_ifs
      · exact havc 8 Rsp.rejected
      · rfl
      · rw [Option.map_map, Option.map_map]
        rfl
  | subunitInfo accept pageData =>
    change ((s.other events queue).avrcpHandleInternalSubUnitInfoRes accept pageData room).map Prod.snd =
      (s.avrcpHandleInternalSubUnitInfoRes accept pageData room).map Prod.snd
    unfold avrcpHandleInternalSubUnitInfoRes
    rw [hoctets]
    cases s.octets with
    | none => rfl
    | some octets =>
      dsimp only
      split_ifs
      · rw [Option.map_map, Option.map_map]
        exact havc 8 Rsp.rejected
      · rfl
      · rw [Option.map_map, Option.map_map]
        rfl
  | metadata pdu response packetType mandatoryData data => exact hmetadata s events queue _ _ _ _ _ _
  | control pdu response =>
    change ((s.other events queue).avrcpHandleCommonMetadataControlResponse pdu response room).map Prod.snd =
      (s.avrcpHandleCommonMetadataControlResponse pdu response room).map Prod.snd
    unfold avrcpHandleCommonMetadataControlResponse
    split_ifs
    · exact hmetadata s events queue _ _ _ _ _ _
    · exact hmetadata s events queue _ _ _ _ _ _
    · exact hmetadata s events queue _ _ _ _ _ _
  | rejectMetadata response pdu => exact hmetadata s events queue _ _ _ _ _ _
  | event response id data attributes =>
    change ((s.other events queue).sendRegisterNotificationResponse response id data attributes room).map Prod.snd =
      (s.sendRegisterNotificationResponse response id data attributes room).map Prod.snd
    have hclear : (if response ≠ Rsp.interim then (s.other events queue).clearRegisterNotification id.toNat
        else s.other events queue) =
        (if response ≠ Rsp.interim then s.clearRegisterNotification id.toNat else s).other
          ((s.other events queue).eventsAfter response id) queue := by
      unfold eventsAfter
      split_ifs <;> rfl
    unfold sendRegisterNotificationResponse
    rw [hclear]
    dsimp only
    generalize (if response ≠ Rsp.interim then s.clearRegisterNotification id.toNat else s) = u
    have hsize : (u.other ((s.other events queue).eventsAfter response id) queue).avMaxDataSize = u.avMaxDataSize := rfl
    rw [hsize]
    split_ifs
    · exact hmetadata u _ queue _ _ _ _ _ _
    · rfl
    · exact hmetadata u _ queue _ _ _ _ _ _

end Session

/-! ### Notifications -/

/-- An event that the application raises. -/
structure Notification where
  response : Octet
  id : Octet
  data : List Octet
  attributes : List Octet
  deriving DecidableEq, Repr

/-- The message that the API function of an event sends. -/
def Notification.answer (n : Notification) : Answer := .event n.response n.id n.data n.attributes

namespace Session

variable {s t : Session} {n : Notification}

/-- A notification is handled: the response to an event of which the registration is not what is pending. -/
structure Notifies (s : Session) (n : Notification) (room : ℕ → Bool) (t : Session) (sent : List Response) : Prop where
  queue : s.queue.head? = some n.answer
  other : s.block ≠ .events n.id.toNat
  response : n.response ≠ Rsp.badProfile
  handled : { s with queue := s.queue.tail }.handle n.answer room = some (t, sent)

/-- The pending command is the same, with its message, its length, its label and its timeout. -/
structure SamePending (s t : Session) : Prop where
  source : t.source = s.source
  avMsg : t.avMsg = s.avMsg
  avMsgLen : t.avMsgLen = s.avMsgLen
  fragment : t.fragment = s.fragment
  block : t.block = s.block
  rspTransactionLabel : t.rspTransactionLabel = s.rspTransactionLabel
  timeouts : t.timeouts = s.timeouts

/-- A notification disturbs nothing: what is sent has the label of the registration of its event, the
pending command is the same, and every answer is the same packet. -/
structure Undisturbed (s : Session) (n : Notification) (room : ℕ → Bool) (t : Session) (sent : List Response) :
    Prop where
  own : ∃ label rest, s.registrationLabel n.id.toNat = some label ∧
    sent = (if room 0 then [notice label n.response n.id n.data n.attributes] else []) ++ rest ∧
    ∀ r ∈ rest, ∃ event label, s.registrationLabel event = some label ∧
      r = notice label Rsp.rejectedAddressedPlayerChanged (BitVec.ofNat 8 event) [] []
  pending : s.SamePending t
  answer : ∀ room answer, (t.respond room answer).map Prod.snd = (s.respond room answer).map Prod.snd

/-- No registration that is not valid is pending, a message has the length of the header of a response, and
the notification does not reject the pending registration. -/
structure Restores (s : Session) (n : Notification) : Prop where
  start : s.block ≠ .events 0
  length : s.avMsg = .null ∨ s.avMsgLen = avcStartHeaderSize
  player : n.answer.changesPlayer → ∀ event, s.block = .events event →
    (s.registeredEvents &&& playerIdAssociatedEvents).getLsbD event = false

/-- No notification disturbs the pending command. -/
def AlwaysUndisturbed : Prop :=
  ∀ es s n room t sent, Lib.run step init es = some s → s.Notifies n room t sent → s.Undisturbed n room t sent

/-- The events that are rejected with a change of the player are those that were registered before. -/
theorem eventsAfter_and {n : Notification} (h : n.answer.changesPlayer = true) (s : Session) :
    s.eventsAfter n.response n.id &&& playerIdAssociatedEvents = s.registeredEvents &&& playerIdAssociatedEvents := by
  have hid : n.id = eventAddressedPlayerChanged ∧ n.response = Rsp.changed := by
    simpa [Answer.changesPlayer, Notification.answer] using h
  unfold eventsAfter
  rw [hid.1, hid.2, if_pos (by decide)]
  change s.registeredEvents &&& ~~~(1#16 <<< 11) &&& playerIdAssociatedEvents = _
  rw [BitVec.and_assoc]
  rfl

/-- The label of an event that has been registered. -/
theorem Labelled.label (h : s.Labelled) {event : ℕ} (hsome : (s.registrationLabel event).isSome) :
    s.registrationLabel event = some (s.notifyTransactionLabel (event - 1)) := by
  obtain ⟨label, hlabel⟩ := isSome_iff_exists.mp hsome
  rw [hlabel, (h.labels event label hlabel).2]

theorem Restores.length_eq (hr : s.Restores n) (h : s.Holds) :
    s.avMsgLen = if s.avMsg = .null then 0 else avcStartHeaderSize := by
  split_ifs with hnull
  · exact (h.null hnull).2.1
  · exact hr.length.resolve_left hnull

theorem SamePending.other (s : Session) (events : BitVec 16) (queue : List Answer) :
    s.SamePending (s.other events queue) := ⟨rfl, rfl, rfl, rfl, rfl, rfl, rfl⟩

theorem Inv.undisturbed (h : s.Inv)
    (hid : (s.registrationLabel n.id.toNat).isSome) (hother : s.block ≠ .events n.id.toNat)
    (hresponse : n.response ≠ Rsp.badProfile) (ht : s.handle n.answer room = some (t, sent)) (hr : s.Restores n) :
    s.Undisturbed n room t sent := by
  have hlen := hr.length_eq h.holds
  obtain ⟨u, first, hu, ht⟩ := handle_cases ht
  obtain ⟨heq, rfl⟩ := h.holds.register_notice hresponse hr.start hother hu
  rw [noticed_eq hlen] at heq
  have hpending (events : BitVec 16) : s.SamePending { s with registeredEvents := events } := .other s events s.queue
  have hanswer (events : BitVec 16) (room : Bool) (answer : Answer) :
      (({ s with registeredEvents := events } : Session).respond room answer).map Prod.snd =
        (s.respond room answer).map Prod.snd := other_respond s events s.queue room answer
  -- the notification is followed by the events that are rejected, or by nothing
  obtain ⟨hplayer, rest, hv, rfl⟩ | ⟨-, rfl, rfl⟩ := ht
  · have hbit {id : ℕ} (hmem : id ∈ (positions (u.registeredEvents &&& playerIdAssociatedEvents)).filter
        fun id => 0 < id) : (s.registeredEvents &&& playerIdAssociatedEvents).getLsbD id = true := by
      have hset := mem_positions.mp (mem_of_mem_filter hmem)
      rw [heq] at hset
      rw [← eventsAfter_and hplayer]
      exact hset
    have hids : ∀ id ∈ (positions (u.registeredEvents &&& playerIdAssociatedEvents)).filter
        fun id => 0 < id, id < 16 ∧ u.block ≠ .events id := by
      intro id hmem
      refine ⟨BitVec.lt_of_getLsbD (hbit hmem), fun hblock => ?_⟩
      rw [heq] at hblock
      cases (hr.player hplayer id hblock).symm.trans (hbit hmem)
    have hholds : u.Holds := (h.holds.frame_respond hu).holds
    have hstart : u.block ≠ .events 0 := heq ▸ hr.start
    have hlen' : u.avMsgLen = if u.avMsg = .null then 0 else avcStartHeaderSize := heq ▸ hlen
    obtain ⟨⟨events, rfl⟩, hrest⟩ := hholds.reject_notices (by decide) hstart hids hlen' hv
    subst heq
    refine ⟨⟨_, rest, h.labelled.label hid, rfl, fun r hr => ?_⟩, hpending events, hanswer events⟩
    obtain ⟨id, hmem, rfl⟩ := hrest r hr
    have hset := hbit hmem
    rw [BitVec.getLsbD_and, Bool.and_eq_true] at hset
    exact ⟨id, _, h.labelled.label (h.labelled.registered id hset.1), rfl⟩
  · subst heq
    exact ⟨⟨_, [], h.labelled.label hid, (append_nil _).symm, fun r hr => by cases hr⟩, hpending _, hanswer _⟩

/-- A notification that finds another length, or that is taken for the answer, changes what is pending. -/
theorem Inv.restores (h : s.Inv)
    (hother : s.block ≠ .events n.id.toNat) (hresponse : n.response ≠ Rsp.badProfile)
    (ht : s.handle n.answer room = some (t, sent)) (hsame : s.SamePending t) : s.Restores n := by
  obtain ⟨u, first, hu, ht⟩ := handle_cases ht
  have hframe := h.holds.frame_respond hu
  have hstart : s.block ≠ .events 0 := by
    -- what has been answered does not pend again
    intro hblock
    have hnone := register_answers (Or.inl hblock) hu
    obtain ⟨-, rest, hv, -⟩ | ⟨-, rfl, -⟩ := ht
    · cases (hblock.symm.trans hsame.block.symm).trans (hframe.holds.reject_answers (Or.inl hnone) hv)
    · cases (hblock.symm.trans hsame.block.symm).trans hnone
  obtain ⟨heq, -⟩ := h.holds.register_notice hresponse hstart hother hu
  have hblock : u.block = s.block := by rw [heq]; rfl
  have hplayer (hplayer : n.answer.changesPlayer = true) (event : ℕ) (hevent : s.block = .events event) :
      (s.registeredEvents &&& playerIdAssociatedEvents).getLsbD event = false := by
    obtain ⟨-, rest, hv, -⟩ | ⟨hplayer', -, -⟩ := ht
    · by_contra hset
      rw [Bool.not_eq_false] at hset
      have hpos : 0 < event := by
        refine Nat.pos_of_ne_zero ?_
        rintro rfl
        exact hstart hevent
      have hmem : event ∈ (positions (u.registeredEvents &&& playerIdAssociatedEvents)).filter
          fun id => 0 < id := by
        refine mem_filter.mpr ⟨mem_positions.mpr ?_, decide_eq_true hpos⟩
        rw [heq]
        exact (eventsAfter_and hplayer s).symm ▸ hset
      have hanswered := hframe.holds.reject_answers
        (Or.inr ⟨event, hmem, BitVec.lt_of_getLsbD hset, hblock.trans hevent⟩) hv
      cases (hevent.symm.trans hsame.block.symm).trans hanswered
    · cases hplayer.symm.trans hplayer'
  refine ⟨hstart, ?_, hplayer⟩
  by_contra hlen
  obtain ⟨hnull, hlen⟩ := not_or.mp hlen
  refine hlen (hsame.avMsgLen.symm.trans ?_)
  have hnoticed : u.avMsgLen = if u.avMsg = .null then 0 else avcStartHeaderSize := by rw [heq]; rfl
  have hu' : u.avMsgLen = avcStartHeaderSize := by
    rw [hnoticed, heq]
    exact if_neg hnull
  obtain ⟨hplayer', rest, hv, -⟩ | ⟨-, rfl, -⟩ := ht
  · have hids : ∀ id ∈ (positions (u.registeredEvents &&& playerIdAssociatedEvents)).filter
        fun id => 0 < id, id < 16 ∧ u.block ≠ .events id := by
      intro id hmem
      have hset := mem_positions.mp (mem_of_mem_filter hmem)
      refine ⟨BitVec.lt_of_getLsbD hset, fun hevent => ?_⟩
      rw [heq] at hset
      have hset' : (s.registeredEvents &&& playerIdAssociatedEvents).getLsbD id = true :=
        eventsAfter_and hplayer' s ▸ hset
      cases (hplayer hplayer' id (hblock.symm.trans hevent)).symm.trans hset'
    obtain ⟨⟨events, rfl⟩, -⟩ := hframe.holds.reject_notices (by decide) (by rwa [hblock]) hids hnoticed hv
    exact hu'
  · exact hu'

/-- **Notifications.** In every state that is reached, a notification disturbs nothing if and only if no
registration that is not valid is pending, the message of the pending command has the length of the header
of a response, and the notification does not reject the pending registration. -/
theorem undisturbed_iff {es : List Input} {room : ℕ → Bool} {sent : List Response}
    (hrun : Lib.run step init es = some s) (h : s.Notifies n room t sent) :
    s.Undisturbed n room t sent ↔ s.Restores n := by
  have hinv := inv_of_run hrun
  obtain ⟨queue, hqueue⟩ := List.head?_eq_some_iff.mp h.queue
  have hpopped : { s with queue := s.queue.tail }.Inv := hinv.deliver (by rw [hqueue, tail_cons])
  constructor
  · intro hu
    have hp := hu.pending
    have hr := hpopped.restores h.other h.response h.handled
      ⟨hp.source, hp.avMsg, hp.avMsgLen, hp.fragment, hp.block, hp.rspTransactionLabel, hp.timeouts⟩
    exact ⟨hr.start, hr.length, hr.player⟩
  · intro hr
    have hid : (s.registrationLabel n.id.toNat).isSome :=
      hinv.labelled.queued _ _ _ _ (hqueue ▸ mem_cons_self)
    have hu := hpopped.undisturbed hid h.other h.response h.handled ⟨hr.start, hr.length, hr.player⟩
    have hp := hu.pending
    refine ⟨hu.own, ⟨hp.source, hp.avMsg, hp.avMsgLen, hp.fragment, hp.block, hp.rspTransactionLabel, hp.timeouts⟩,
      fun room answer => ?_⟩
    exact (hu.answer room answer).trans (other_respond s s.registeredEvents s.queue.tail room answer)

/-! ### A command of another length -/

/-- The registration of `EVENT_TRACK_CHANGED`, with label 1. -/
def registrationPacket : List Octet :=
  [0x10, 0x11, 0x0E, 0x03, 0x48, 0x00, 0x00, 0x19, 0x58, 0x31, 0x00, 0x00, 0x05, 0x02, 0x00, 0x00, 0x00, 0x00]

/-- `GetCapabilities`, with label 2. It has as many octets as the header of a response. -/
def capabilitiesPacket : List Octet :=
  [0x20, 0x11, 0x0E, 0x01, 0x48, 0x00, 0x00, 0x19, 0x58, 0x10, 0x00, 0x00, 0x01, 0x03]

/-- `GetPlayStatus`, with label 2. -/
def playStatusPacket : List Octet :=
  [0x20, 0x11, 0x0E, 0x01, 0x48, 0x00, 0x00, 0x19, 0x58, 0x30, 0x00, 0x00, 0x00]

/-- The track has changed. -/
def trackChanged : Notification := ⟨Rsp.changed, 0x02, [0, 0, 0, 0, 0, 0, 0, 1], []⟩

/-- An event is registered, a command arrives, and the event is raised before the answer. -/
def interleaving (packet : List Octet) (pdu : Octet) : List Input :=
  [.arrive registrationPacket, .receive ⟨registrationPacket, 18, false, .registration 2⟩,
    .call (.event Rsp.interim 0x02 [0, 0, 0, 0, 0, 0, 0, 0] []), .deliver fun _ => true,
    .arrive packet, .receive ⟨packet, packet.length, false, .metadata pdu true none⟩, .call trackChanged.answer]

/-- The state with a notification that is about to be handled. -/
def raised (packet : List Octet) (pdu : Octet) : Session :=
  (Lib.run step init (interleaving packet pdu)).getD init

/-- What handling the notification leaves. -/
def raisedHandled (packet : List Octet) (pdu : Octet) : Session × List Response :=
  ({ raised packet pdu with queue := (raised packet pdu).queue.tail }.handle trackChanged.answer fun _ => true).getD
    (init, [])

theorem eq_some_of_isSome {α : Type*} {o : Option α} (h : o.isSome = true) (a : α) : o = some (o.getD a) := by
  obtain ⟨b, rfl⟩ := isSome_iff_exists.mp h
  rfl

/-- The pending `GetPlayStatus` has another length when the track has changed. -/
theorem not_alwaysUndisturbed : ¬ AlwaysUndisturbed := by
  intro h
  have hrun := eq_some_of_isSome (o := Lib.run step init (interleaving playStatusPacket 0x30)) (by decide) init
  have hhandled := eq_some_of_isSome (o := { raised playStatusPacket 0x30 with
    queue := (raised playStatusPacket 0x30).queue.tail }.handle trackChanged.answer fun _ => true) (by decide)
    (init, [])
  have hu := h _ _ trackChanged (fun _ => true) (raisedHandled playStatusPacket 0x30).1
    (raisedHandled playStatusPacket 0x30).2 hrun
    ⟨by decide, by decide, by decide, hhandled⟩
  have hlen : (raisedHandled playStatusPacket 0x30).1.avMsgLen ≠ (raised playStatusPacket 0x30).avMsgLen := by
    decide
  exact hlen hu.pending.avMsgLen

/-- A pending `GetCapabilities` is not disturbed. -/
theorem undisturbed_capabilities :
    (raised capabilitiesPacket 0x10).Undisturbed trackChanged (fun _ => true) (raisedHandled capabilitiesPacket 0x10).1
      (raisedHandled capabilitiesPacket 0x10).2 := by
  have hrun := eq_some_of_isSome (o := Lib.run step init (interleaving capabilitiesPacket 0x10)) (by decide)
    init
  have hhandled := eq_some_of_isSome (o := { raised capabilitiesPacket 0x10 with
    queue := (raised capabilitiesPacket 0x10).queue.tail }.handle trackChanged.answer fun _ => true)
    (by decide) (init, [])
  refine (undisturbed_iff hrun ⟨by decide, by decide, by decide, hhandled⟩).mpr
    ⟨by decide, Or.inr (by decide), fun h => ?_⟩
  cases h

end Session

end Cbps.Avrcp
