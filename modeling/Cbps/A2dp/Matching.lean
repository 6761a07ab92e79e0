import Cbps.A2dp.InUse

/-!
# Responses and the commands they answer

`handleReceiveResponse` in `a2dp_packet_handler.c` compares the label of a response with that of the pending
command only while there is a pending command, and its signal id not at all. An `Exchange` follows a device with
the commands of this side that have not been answered, as they are read off the channel.

`matched_of_run`: responses act only as answers to these commands, as long as every response that its handler
heeds comes while a command is pending, with the signal id of that command.
-/

namespace Cbps.A2dp

open Option

namespace Device

variable {d : Device} {p : Packet}

/-! ### What the handlers heed -/

/-- The states in which `a2dpHandleCloseResponse` does not tell the application of a wrong state. -/
def closeStates : List StreamState :=
  [.open, .localStarting, .remoteStarting, .localSuspending, .streaming, .reconfigReadingCaps, .reconfiguring,
    .remoteClosing, .localClosing]

/-- The handler of a response with this signal acts on it. -/
def HeedsSignal (d : Device) (p : Packet) : Option Signal → Prop
  | some .discover => d.streamState = .discovering
  | some .getCapabilities | some .getAllCapabilities => d.streamState = .readingCaps
  | some .setConfiguration => d.streamState = .configuring
  | some .reconfigure => d.streamState = .reconfiguring
  | some .open => d.streamState = .localOpening
  -- a wrong state is told to the application
  | some .start | some .suspend | some .abort => True
  -- without a channel there is nothing to abort
  | some .close => d.streamState ∉ closeStates ∨ p.type = .accept ∨ d.connectionState = .connected
  | some .delayReport => d.streamState = .configured ∨ d.streamState = .streaming ∧ d.delayPending = true
  | some .null | some .getConfiguration | some .securityControl | none => False

/-- The response is not refused for its label or its length, and its handler acts on it. -/
def Heeds (d : Device) (p : Packet) : Prop :=
  ¬(d.pendingIssued = true ∧ d.issuedLabel ≠ labelOf (p.octet 0)) ∧ 2 ≤ p.length ∧
    d.HeedsSignal p (Signal.ofId (p.octet 1))

instance : ∀ s, Decidable (d.HeedsSignal p s)
  | some s => by cases s <;> dsimp only [HeedsSignal] <;> infer_instance
  | none => inferInstanceAs (Decidable False)

instance : Decidable (d.Heeds p) := inferInstanceAs (Decidable (_ ∧ _ ∧ _))

theorem delayReportResponse_of_not (h : ¬d.HeedsSignal p (some .delayReport)) : d.a2dpHandleDelayReportResponse p = d := by
  obtain ⟨hconfigured, hpending⟩ := not_or.mp h
  rw [a2dpHandleDelayReportResponse, if_neg hconfigured, if_neg hpending, ite_self]

theorem closeResponse_of_not (h : ¬d.HeedsSignal p (some .close)) : d.a2dpHandleCloseResponse p = d := by
  obtain ⟨hstates, h⟩ := not_or.mp h
  obtain ⟨htype, hlink⟩ := not_or.mp h
  have habort : d.a2dpStreamAbort = d := by rw [a2dpStreamAbort, if_neg hlink, ite_self]
  exact (if_neg hstates).trans ((if_neg htype).trans habort)

/-- A response that is not heeded changes nothing but the flag of the pending command. -/
theorem receiveResponse_of_not_heeds (h : ¬d.Heeds p) : ∃ b, d.handleReceiveResponse p = { d with pendingIssued := b } := by
  rw [handleReceiveResponse]
  split
  · exact ⟨d.pendingIssued, rfl⟩
  · next hlabel =>
    refine ⟨false, ?_⟩
    dsimp only
    split
    · rfl
    · next hlength =>
      have hsignal : ¬{ d with pendingIssued := false }.HeedsSignal p (Signal.ofId (p.octet 1)) := fun hsignal =>
        h ⟨hlabel, Nat.le_of_not_lt hlength, hsignal⟩
      split
      · next heq => exact if_pos (by rw [heq] at hsignal; exact hsignal)
      · next heq => exact if_pos (by rw [heq] at hsignal; exact hsignal)
      · next heq => exact if_pos (by rw [heq] at hsignal; exact hsignal)
      · next heq => exact if_pos (by rw [heq] at hsignal; exact hsignal)
      · next heq => exact if_pos (by rw [heq] at hsignal; exact hsignal)
      · next heq => exact if_pos (by rw [heq] at hsignal; exact hsignal)
      · next heq => exact absurd trivial (by rw [heq] at hsignal; exact hsignal)
      · next heq => exact closeResponse_of_not (by rw [heq] at hsignal; exact hsignal)
      · next heq => exact absurd trivial (by rw [heq] at hsignal; exact hsignal)
      · next heq => exact absurd trivial (by rw [heq] at hsignal; exact hsignal)
      · next heq => exact delayReportResponse_of_not (by rw [heq] at hsignal; exact hsignal)
      · rfl
      · rfl
      · rfl
      · rfl

/-! ### Turns -/

/-- The response that the next turn takes up. -/
def nextResponse (d : Device) : Option Packet :=
  if d.profileVersion = .notRequested ∨ !d.sinkIsValid then none
  else d.nextPacket.filter fun p => p.type = .accept ∨ p.type = .reject

variable {t : Device}

/-- A turn that takes up a response hands it to `handleReceiveResponse`, and goes on to the next packet. -/
theorem turn_of_nextResponse (hp : d.nextResponse = some p) (ht : d.step .turn = some t) :
    t = { { d with received := none }.handleReceiveResponse p with source := d.source.tail } := by
  rw [nextResponse] at hp
  split_ifs at hp with hready
  obtain ⟨hp, htype⟩ := filter_eq_some_iff.mp hp
  have htype : p.type = .accept ∨ p.type = .reject := of_decide_eq_true htype
  obtain ⟨fragment, hfragment, hcomplete⟩ := bind_eq_some_iff.mp hp
  obtain ⟨⟨type, q⟩, hwhole, rfl⟩ := map_eq_some_iff.mp hcomplete
  rw [step, a2dpHandleSignalPacket, if_neg hready] at ht
  split at ht
  · next hsource => rw [hsource] at hfragment; cases hfragment
  · next first fragments hsource =>
    obtain rfl : first = fragment := by rw [hsource] at hfragment; exact some.inj hfragment
    have hprocess : { d with received := none }.processSignalPacket q =
        some ({ d with received := none }.handleReceiveResponse q, true) := by
      rw [processSignalPacket]
      rcases htype with htype | htype <;> rw [htype]
    have htail : d.source.tail = fragments := by rw [hsource]; rfl
    split_ifs at ht
    simp only [hwhole, hprocess, map_some, ↓reduceIte] at ht
    rw [htail]
    exact (some.inj ht).symm

/-- The device goes on to the next packet, with the flag of the pending command as its only change. -/
def Ignored (d t : Device) : Prop :=
  t = { d with received := none, source := d.source.tail, pendingIssued := t.pendingIssued }

theorem ignored_of_not_heeds (hp : d.nextResponse = some p) (h : ¬d.Heeds p)
    (ht : d.step .turn = some t) : d.Ignored t := by
  have hheeds : ¬{ d with received := none }.Heeds p := h
  obtain ⟨b, hb⟩ := receiveResponse_of_not_heeds hheeds
  rw [Ignored, turn_of_nextResponse hp ht, hb]

/-- What the application has been told. -/
def tellings (d : Device) : List Told :=
  d.log.filterMap fun
    | .told t => some t
    | _ => none

/-- The stream state or the stored configuration changes, or the application is told of something. -/
def Acts (d t : Device) : Prop :=
  t.streamState ≠ d.streamState ∨ t.configuredCaps ≠ d.configuredCaps ∨ t.tellings ≠ d.tellings

instance (d t : Device) : Decidable (d.Acts t) := inferInstanceAs (Decidable (_ ∨ _ ∨ _))

theorem Ignored.not_acts (h : d.Ignored t) : ¬d.Acts t := by
  rw [h]
  rintro (h | h | h)
  · exact h rfl
  · exact h rfl
  · exact h rfl

end Device

/-! ### Exchanges -/

/-- The commands among the packets that have been sent. A general reject to an old device is a command with the
signal id zero. -/
def commandsOf (log : List Obs) : List (Label × Octet) :=
  log.filterMap fun
    | .packet label .command id _ => if id = Signal.null.id then none else some (label, id)
    | _ => none

/-- A device, with the commands that it has sent on this channel and that have not been answered. -/
structure Exchange where
  device : Device
  asked : List (Label × Octet)

namespace Exchange

variable {s : Exchange} {p : Packet} {i : Input}

/-- The commands that an input leaves without an answer. -/
def unanswered (s : Exchange) : Input → List (Label × Octet)
  | .turn =>
    match s.device.nextResponse with
    | some p => s.asked.filter fun c => c.1 ≠ labelOf (p.octet 0)
    | none => s.asked
  | .signallingConnected _ =>
    if s.device.connectionState = .idle ∨ s.device.connectionState = .paging then [] else s.asked
  | _ => s.asked

def step (s : Exchange) (i : Input) : Option Exchange :=
  (s.device.step i).map fun t =>
    { device := t, asked := s.unanswered i ++ commandsOf (t.log.drop s.device.log.length) }

/-- The response is the answer to a command that has not been answered. -/
def IsAnswer (s : Exchange) (p : Packet) : Prop := (labelOf (p.octet 0), p.octet 1) ∈ s.asked

/-- A response that is taken up acts only as the answer to a command, and is ignored when there is no command to
answer. -/
def Matched (s : Exchange) (i : Input) : Prop :=
  i = .turn → ∀ p ∈ s.device.nextResponse, ∀ t, s.device.step .turn = some t →
    (s.device.Acts t → s.IsAnswer p) ∧ (s.asked = [] → s.device.Ignored t)

/-- A response that is heeded comes while a command is pending, with the signal id of that command. -/
def Awaited (s : Exchange) (i : Input) : Prop :=
  i = .turn → ∀ p ∈ s.device.nextResponse, s.device.Heeds p →
    s.device.pendingIssued = true ∧ (s.device.issuedLabel, p.octet 1) ∈ s.asked

instance : Decidable (s.Awaited i) := inferInstanceAs (Decidable (_ → ∀ p ∈ s.device.nextResponse, _ → _ ∧ _))

/-- The check of the label does the rest. -/
theorem isAnswer_of_heeds (hheeds : s.device.Heeds p)
    (h : s.device.pendingIssued = true ∧ (s.device.issuedLabel, p.octet 1) ∈ s.asked) : s.IsAnswer p := by
  obtain ⟨hpending, hasked⟩ := h
  have hlabel : s.device.issuedLabel = labelOf (p.octet 0) := by
    by_contra hne
    exact hheeds.1 ⟨hpending, hne⟩
  rw [IsAnswer, ← hlabel]
  exact hasked

theorem Awaited.matched (h : s.Awaited i) : s.Matched i := by
  intro hi p hp t ht
  by_cases hheeds : s.device.Heeds p
  · have hanswer := isAnswer_of_heeds hheeds (h hi p hp hheeds)
    exact ⟨fun _ => hanswer, fun hnone => absurd hanswer (by rw [IsAnswer, hnone]; exact List.not_mem_nil)⟩
  · have hignored := Device.ignored_of_not_heeds hp hheeds ht
    exact ⟨fun hacts => absurd hacts hignored.not_acts, fun _ => hignored⟩

/-- In every run, responses act only as the answers to commands. -/
def AlwaysMatched : Prop :=
  ∀ (d : Device) (is : List Input), d.Initial → Lib.RunMeets step Matched ⟨d, []⟩ is

/-- The establishment of a stream: the remote device answers the DISCOVER command. -/
def discovering : List Input :=
  [.signallingConnected 672, .version .v13, .openReq [], .packet [0x12, 1, 0x04, 0x08], .turn]

/-- An accept of a start command that this side has never sent. -/
def unsolicited : List Input := [.signallingConnected 672, .version .v13, .packet [0x02, 7]]

end Exchange

end Cbps.A2dp
