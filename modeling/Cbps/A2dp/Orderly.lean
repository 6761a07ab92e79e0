import Cbps.A2dp.Answers

/-!
# One answer for every command

While an OPEN or a START waits for the application, other commands are deferred. What the device does meanwhile
may move the stream on or reset it, and then the command that waits is not answered any more. `Leaves` lists the
inputs that leave it alone, and `Takes` those that a device takes up properly when nothing waits.

`orderly_of_run` is the result for the runs of which every input is one of these.
-/

namespace Cbps.A2dp

open Option

/-- The states that a stream can be in while a START waits for the application. -/
def StreamState.isUp (s : StreamState) : Bool :=
  s ∉ [StreamState.idle, .discovering, .readingCaps, .processingCaps, .configuring, .configured, .localOpening,
    .remoteOpening]

variable {c : Label × Octet}

namespace Device

variable {d t u : Device} {p : Packet}

/-! ### What leaves a command waiting -/

/-- The flag is the same, and the stream is where it was, or still up. -/
structure Stays (d t : Device) : Prop where
  flag : t.pendingReceived = d.pendingReceived
  state : t.streamState = d.streamState ∨ d.streamState ≠ .remoteOpening ∧ t.streamState.isUp = true

theorem Stays.refl (d : Device) : Stays d d := ⟨rfl, Or.inl rfl⟩

theorem Stays.trans (h : Stays d t) (h' : Stays t u) : Stays d u := by
  refine ⟨h'.flag.trans h.flag, ?_⟩
  obtain hstate | ⟨hd, ht⟩ := h.state
  · rw [← hstate]
    exact h'.state
  · obtain hstate' | ⟨-, hu⟩ := h'.state
    · exact Or.inr ⟨hd, hstate' ▸ ht⟩
    · exact Or.inr ⟨hd, hu⟩

/-- The stream is set to a state in which it is up. -/
theorem stays_of_up (hd : d.streamState ≠ .remoteOpening) (hflag : t.pendingReceived = d.pendingReceived)
    (ht : t.streamState.isUp = true) : Stays d t := ⟨hflag, Or.inr ⟨hd, ht⟩⟩

variable {signal : Signal} {payload : List Octet}

theorem stays_sendCommand {sent : Bool}
    (h : d.a2dpSendCommand signal payload = (t, sent)) : Stays d t := by
  obtain ⟨-, rfl⟩ | ⟨-, room, rfl⟩ | ⟨-, -, room, rfl⟩ := sendCommand_cases h
  · exact Stays.refl t
  · exact ⟨rfl, Or.inl rfl⟩
  · exact ⟨rfl, Or.inl rfl⟩

theorem stays_mediaDisconnectReq : Stays d d.a2dpMediaDisconnectReq := by
  rw [a2dpMediaDisconnectReq]
  split_ifs <;> exact ⟨rfl, Or.inl rfl⟩

theorem stays_signallingDisconnectPending : Stays d d.a2dpSignallingDisconnectPending.1 := by
  rw [a2dpSignallingDisconnectPending]
  split_ifs <;> exact ⟨rfl, Or.inl rfl⟩

/-- An abort of the stream leaves the command that waits alone: nothing is aborted, or an ABORT command goes out
while a START waits. -/
def AbortLeaves (d : Device) : Prop :=
  (d.streamState = .localAborting ∨ d.streamState = .remoteAborting) ∨ d.connectionState ≠ .connected ∨
    d.streamState ≠ .remoteOpening ∧ (d.a2dpSendCommand .abort []).2 = true

theorem stays_abort (h : d.AbortLeaves) : Stays d d.a2dpStreamAbort := by
  rw [a2dpStreamAbort]
  split_ifs with haborting hlink
  · exact Stays.refl d
  · obtain h | h | ⟨hstate, hsent⟩ := h
    · exact absurd h haborting
    · exact absurd hlink h
    · split
      · next e heq => exact stays_of_up hstate (stays_sendCommand heq).flag rfl
      · next e heq =>
        rw [heq] at hsent
        cases hsent
  · exact Stays.refl d

/-! ### Responses and requests while a command waits -/

/-- The stream is where a command may wait. -/
def Waits (d : Device) : Prop := d.streamState = .remoteOpening ∨ d.streamState.isUp = true

theorem Waits.ne (h : d.Waits) {s : StreamState} (hs : s ≠ .remoteOpening) (hup : s.isUp = false) :
    d.streamState ≠ s := by
  rintro rfl
  obtain h | h := h
  · exact hs h
  · rw [h] at hup
    cases hup

theorem stays_sendDelayReport (delay : BitVec 16) : Stays d (d.sendDelayReport delay).1 :=
  Stays.trans (t := { d with delay := delay }) ⟨rfl, Or.inl rfl⟩ (stays_sendCommand (Prod.eta _).symm)

theorem stays_streamDelayReport (delay : BitVec 16) : Stays d (d.a2dpStreamDelayReport delay) := by
  have hsend := stays_sendDelayReport (d := d) delay
  rw [a2dpStreamDelayReport]
  split_ifs
  · split
    · next e heq =>
      rw [heq] at hsend
      exact hsend
    · next e heq =>
      rw [heq] at hsend
      exact hsend.trans ⟨rfl, Or.inl rfl⟩
  · exact Stays.refl d
  · exact Stays.refl d

theorem stays_startResponse : Stays d (d.a2dpHandleStartResponse p) := by
  rw [a2dpHandleStartResponse]
  split_ifs with hstates
  all_goals first | exact ⟨rfl, Or.inl rfl⟩ | refine stays_of_up (fun hd => ?_) rfl rfl
  all_goals
    rw [hd] at hstates
    exact absurd hstates (by decide)

theorem stays_suspendResponse : Stays d (d.a2dpHandleSuspendResponse p) := by
  rw [a2dpHandleSuspendResponse]
  split_ifs with hstates
  all_goals first | exact ⟨rfl, Or.inl rfl⟩ | refine stays_of_up (fun hd => ?_) rfl rfl
  all_goals
    rw [hd] at hstates
    exact absurd hstates (by decide)

theorem stays_reconfigureResponse : Stays d (d.a2dpHandleReconfigureResponse p) := by
  rw [a2dpHandleReconfigureResponse]
  split_ifs with hstates
  all_goals first | exact ⟨rfl, Or.inl rfl⟩ | refine stays_of_up (fun hd => ?_) rfl rfl
  all_goals
    rw [hd] at hstates
    exact absurd hstates (by decide)

theorem stays_closeResponse (h : p.type ≠ .accept → d.streamState ∈ closeStates → d.AbortLeaves) :
    Stays d (d.a2dpHandleCloseResponse p) := by
  rw [a2dpHandleCloseResponse]
  split_ifs with hstates htype
  · have hne : d.streamState ≠ .remoteOpening := fun hd => by
      rw [hd] at hstates
      exact absurd hstates (by decide)
    refine Stays.trans ?_ stays_mediaDisconnectReq
    exact stays_of_up hne rfl rfl
  · exact stays_abort (h htype hstates)
  · exact ⟨rfl, Or.inl rfl⟩

/-- The response does not end the stream: it is no answer to an ABORT, and if it refuses a CLOSE, then the abort
that follows leaves the command alone. -/
def ResponseLeaves (d : Device) (p : Packet) : Prop :=
  d.Heeds p → Signal.ofId (p.octet 1) ≠ some .abort ∧
    (Signal.ofId (p.octet 1) = some .close → p.type ≠ .accept → d.streamState ∈ closeStates →
      { d with pendingIssued := false }.AbortLeaves)

theorem stays_receiveResponse (hw : d.Waits) (h : d.ResponseLeaves p) : Stays d (d.handleReceiveResponse p) := by
  by_cases hheeds : d.Heeds p
  · obtain ⟨hlabel, hlength, hsignal⟩ := hheeds
    obtain ⟨habort, hclose⟩ := h ⟨hlabel, hlength, hsignal⟩
    have hpending : Stays d { d with pendingIssued := false } := ⟨rfl, Or.inl rfl⟩
    rw [handleReceiveResponse, if_neg hlabel]
    dsimp only
    rw [if_neg (Nat.not_lt.mpr hlength)]
    -- the handlers of the establishment heed nothing in these states
    split
    · next heq => rw [heq] at hsignal; exact absurd hsignal (hw.ne (by decide) rfl)
    · next heq => rw [heq] at hsignal; exact absurd hsignal (hw.ne (by decide) rfl)
    · next heq => rw [heq] at hsignal; exact absurd hsignal (hw.ne (by decide) rfl)
    · next heq => rw [heq] at hsignal; exact absurd hsignal (hw.ne (by decide) rfl)
    · exact hpending.trans stays_reconfigureResponse
    · next heq => rw [heq] at hsignal; exact absurd hsignal (hw.ne (by decide) rfl)
    · exact hpending.trans stays_startResponse
    · next heq => exact hpending.trans (stays_closeResponse (hclose heq))
    · exact hpending.trans stays_suspendResponse
    · next heq => exact absurd heq habort
    · next heq =>
      rw [heq] at hsignal
      obtain hstate | ⟨hstate, hdelay⟩ := hsignal
      · exact absurd hstate (hw.ne (by decide) rfl)
      · rw [a2dpHandleDelayReportResponse, if_neg (by rw [hstate]; decide), if_neg (by rw [hstate]; decide),
          if_pos ⟨hstate, hdelay⟩]
        exact Stays.trans (t := { d with pendingIssued := false, delayPending := false }) ⟨rfl, Or.inl rfl⟩
          (stays_streamDelayReport _)
    all_goals exact hpending
  · obtain ⟨b, hb⟩ := receiveResponse_of_not_heeds hheeds
    rw [hb]
    exact ⟨rfl, Or.inl rfl⟩

/-- A general reject does not end the stream. -/
def RejectLeaves (d : Device) (p : Packet) : Prop :=
  (d.pendingIssued = true ∧ d.issuedLabel ≠ labelOf (p.octet 0)) ∨ d.streamState = .localSuspending ∨ d.AbortLeaves

theorem stays_generalRejectResponse (h : d.RejectLeaves p) : Stays d (d.processGeneralRejectResponse p) := by
  rw [processGeneralRejectResponse]
  split_ifs with hlabel hstate
  · exact Stays.refl d
  · exact stays_of_up (by rw [hstate]; decide) rfl rfl
  · exact stays_abort ((h.resolve_left hlabel).resolve_left hstate)

/-- The command of a request goes out, or the abort that follows leaves the command that waits alone. -/
def SendLeaves (d : Device) (signal : Signal) (payload : List Octet) : Prop :=
  (d.a2dpSendCommand signal payload).2 = true ∨ (d.a2dpSendCommand signal payload).1.AbortLeaves

/-- A request of the application to a stream that is up. -/
def RequestLeaves (d : Device) (states : List StreamState) (signal : Signal) (payload : List Octet) : Prop :=
  d.connectionState = .connected → d.mediaState = .connected → d.streamState ∈ states → d.SendLeaves signal payload

theorem stays_request {states : List StreamState} {told : Status → Told}
    {sent : Device → Device} (hup : .remoteOpening ∉ states) (h : d.RequestLeaves states signal payload)
    (hsent : ∀ e : Device, e.streamState ≠ .remoteOpening → Stays e (sent e)) :
    Stays d (d.requestStream states told signal payload sent) := by
  rw [requestStream]
  split_ifs with hlink hmedia hstates
  · exact ⟨rfl, Or.inl rfl⟩
  · exact ⟨rfl, Or.inl rfl⟩
  · have hleaves := h (not_not.mp hlink) (not_not.mp hmedia) hstates
    rw [SendLeaves] at hleaves
    have hne : d.streamState ≠ .remoteOpening := fun hd => hup (hd ▸ hstates)
    split
    · next e heq =>
      have hstate : e.streamState = d.streamState := (keeps_sendCommand heq).streamState
      exact (stays_sendCommand heq).trans (hsent e (hstate ▸ hne))
    · next e heq =>
      rw [heq] at hleaves
      exact ((stays_sendCommand heq).trans (stays_abort (hleaves.resolve_left Bool.false_ne_true))).trans ⟨rfl, Or.inl rfl⟩
  · exact ⟨rfl, Or.inl rfl⟩

theorem stays_mediaConnectCfm {success : Bool} (h : d.mediaState = .paging ∨ d.mediaState = .paged →
    if success then d.streamState ≠ .remoteOpening
    else { d.mediaOpenCfm .operationFail with mediaState := .idle }.AbortLeaves) :
    Stays d (d.mediaConnectCfm success) := by
  have hfailed : Stays d { d.mediaOpenCfm .operationFail with mediaState := .idle } := ⟨rfl, Or.inl rfl⟩
  rw [mediaConnectCfm]
  split_ifs with hlink hpaging hsuccess
  · exact Stays.refl d
  · dsimp only
    split_ifs
    · exact stays_of_up ((if_pos hsuccess).mp (h hpaging)) rfl rfl
    · exact ⟨rfl, Or.inl rfl⟩
  · exact hfailed.trans (stays_abort ((if_neg hsuccess).mp (h hpaging)))
  · exact ⟨rfl, Or.inl rfl⟩
  · exact hfailed.trans stays_signallingDisconnectPending
  · exact Stays.refl d

/-- The states in which `a2dpStreamClose` closes the stream. -/
def closableStates : List StreamState := [.open, .streaming, .localStarting, .remoteStarting, .localSuspending]

theorem stays_signallingDisconnectReq (hw : d.Waits) (h : d.connectionState = .connected →
    if d.mediaState = .connected ∧ d.streamState ∈ closableStates then d.SendLeaves .close [] else d.AbortLeaves) :
    Stays d d.a2dpHandleSignallingDisconnectReq := by
  rw [a2dpHandleSignallingDisconnectReq]
  split_ifs with hlink
  · exact Stays.refl d
  · have hleaves := h (not_not.mp hlink)
    by_cases hclosable : d.mediaState = .connected ∧ d.streamState ∈ closableStates
    · rw [if_pos hclosable, SendLeaves] at hleaves
      have hne : d.streamState ≠ .remoteOpening := fun hd => by
        rw [hd] at hclosable
        exact absurd hclosable.2 (by decide)
      have hclose : Stays d d.a2dpStreamClose.1 ∧ d.a2dpStreamClose.2 = true := by
        rw [a2dpStreamClose]
        split
        · next hnot =>
          obtain hnot | hnot | hnot := hnot
          · exact absurd hnot hlink
          · exact absurd hclosable.1 hnot
          · exact absurd hclosable.2 hnot
        · split
          · next e heq =>
            have hstate : e.streamState = d.streamState := (keeps_sendCommand heq).streamState
            exact ⟨(stays_sendCommand heq).trans (stays_of_up (hstate ▸ hne) rfl rfl), rfl⟩
          · next e heq =>
            rw [heq] at hleaves
            exact ⟨(stays_sendCommand heq).trans (stays_abort (hleaves.resolve_left Bool.false_ne_true)), rfl⟩
      split
      · next e heq =>
        rw [heq] at hclose
        exact hclose.1.trans ⟨rfl, Or.inl rfl⟩
      · next e heq =>
        rw [heq] at hclose
        exact absurd hclose.2 Bool.false_ne_true
    · rw [if_neg hclosable] at hleaves
      have hclose : d.a2dpStreamClose = (d, false) := by
        refine if_pos ?_
        by_contra hnot
        obtain ⟨-, hnot⟩ := not_or.mp hnot
        exact hclosable ⟨not_not.mp (not_or.mp hnot).1, not_not.mp (not_or.mp hnot).2⟩
      rw [hclose]
      dsimp only
      rw [if_pos (hw.ne (by decide) rfl)]
      exact (stays_abort hleaves).trans ⟨rfl, Or.inl rfl⟩

/-! ### Turns -/

/-- The packet that the next turn takes up, with the type of its last fragment. -/
def taken (d : Device) : Option (PacketType × Packet) :=
  if d.profileVersion = .notRequested ∨ !d.sinkIsValid then none
  else d.source.head?.bind fun fragment => (reassemble d.received fragment).complete

/-- What a turn does with the packet that it takes up. -/
theorem turn_cases (ht : d.a2dpHandleSignalPacket = some t) :
    (d.taken = none ∧ (t = d ∨ ∃ received source, t = { d with received := received, source := source })) ∨
      ∃ type p u processed, d.taken = some (type, p) ∧
        { d with received := none }.processSignalPacket p = some (u, processed) ∧
        ((processed = true ∧ t = { u with source := d.source.tail }) ∨ (processed = false ∧ type = .single ∧ t = u) ∨
          (processed = false ∧ type ≠ .single ∧
            t = { u with source := d.source.tail }.note (.dropped (labelOf (p.octet 0))))) := by
  rw [a2dpHandleSignalPacket] at ht
  rw [taken]
  split at ht
  · next hready =>
    rw [if_pos hready]
    exact Or.inl ⟨rfl, Or.inl (some.inj ht).symm⟩
  · next hready =>
    rw [if_neg hready]
    split at ht
    · next hsource =>
      rw [hsource]
      exact Or.inl ⟨rfl, Or.inl (some.inj ht).symm⟩
    · next fragment fragments hsource =>
      split_ifs at ht
      have htail : d.source.tail = fragments := by rw [hsource]; rfl
      have hhead : d.source.head? = some fragment := by rw [hsource]; rfl
      rw [hhead, bind_some, htail]
      dsimp only at ht
      split at ht
      · next hcomplete => exact Or.inl ⟨hcomplete, Or.inr ⟨_, _, (some.inj ht).symm⟩⟩
      · next type p hcomplete =>
        obtain ⟨⟨u, processed⟩, hu, rfl⟩ := map_eq_some_iff.mp ht
        refine Or.inr ⟨type, p, u, processed, hcomplete, hu, ?_⟩
        dsimp only
        split_ifs with hprocessed htype
        · exact Or.inl ⟨hprocessed, rfl⟩
        · exact Or.inr (Or.inl ⟨eq_false_of_ne_true hprocessed, htype, rfl⟩)
        · exact Or.inr (Or.inr ⟨eq_false_of_ne_true hprocessed, htype, rfl⟩)

/-- The header of a packet of an old device is refused. -/
def RefusesHeader (d : Device) (p : Packet) : Prop :=
  d.profileVersion ≠ .v13 ∧ 2 ≤ p.length ∧ p.octet 1 ≠ Signal.discover.id

/-- The packet that is taken up leaves the command that waits alone. A command stays in the source, unless it has
been put together. -/
def PacketLeaves (d : Device) (type : PacketType) (p : Packet) : Prop :=
  match p.type with
  | .command => type = .single
  | .generalReject => ¬d.RefusesHeader p ∧ (d.profileVersion = .v13 → d.RejectLeaves p)
  | .accept | .reject => d.ResponseLeaves p

/-- The packet that is taken up when nothing waits is answered, passed on to the application, or kept. -/
def PacketTakes (d : Device) (type : PacketType) (p : Packet) : Prop :=
  match p.type with
  | .command =>
    ∀ signal ∈ Signal.ofId (p.octet 1),
      if p.length < signal.minLength then 2 ≤ d.room
      else if signal ∈ [Signal.start, .close] ∧ d.isOpening then type = .single
      else (d.takeUp p).HasAnswer signal p ∧ ((d.takeUp p).PassesOn signal p ∨ 2 ≤ d.room)
  | .generalReject => d.RefusesHeader p → 2 ≤ d.room
  | .accept | .reject => True

/-! ### Inputs -/

/-- The input leaves the command that waits alone, or is the answer of the application to it. -/
def Leaves (d : Device) : Input → Prop
  | .turn => ∀ c ∈ d.taken, { d with received := none }.PacketLeaves c.1 c.2
  | .openRes accept => d.streamState = .remoteOpening → d.connectionState = .connected ∧ (accept = true ∨ 1 ≤ d.room)
  | .startRes _ => d.streamState = .remoteOpening ∨ 2 ≤ d.room
  | .watchdog => d.watchdog = true → d.streamState ≠ .localAborting ∧ d.streamState ≠ .remoteAborting ∧
      { d with watchdog := false }.AbortLeaves
  | .mediaConnectCfm success => d.mediaState = .paging ∨ d.mediaState = .paged →
      if success then d.streamState ≠ .remoteOpening
      else { d.mediaOpenCfm .operationFail with mediaState := .idle }.AbortLeaves
  | .mediaDisconnected _ _ => d.mediaState.isConnected = false
  | .signallingDisconnectReq => d.connectionState = .connected →
      if d.mediaState = .connected ∧ d.streamState ∈ closableStates then d.SendLeaves .close [] else d.AbortLeaves
  | .startReq => d.RequestLeaves [.open] .start []
  | .suspendReq => d.RequestLeaves [.streaming] .suspend []
  | .closeReq => d.RequestLeaves [.open, .streaming, .localStarting, .remoteStarting, .localSuspending,
      .reconfigReadingCaps, .reconfiguring] .close []
  | .reconfigureReq caps => d.RequestLeaves [.open] .reconfigure caps
  | _ => True

/-- The input is taken properly when nothing waits: the application does not respond to anything, and the packet
that is taken up can be answered. -/
def Takes (d : Device) : Input → Prop
  | .turn => ∀ c ∈ d.taken, { d with received := none }.PacketTakes c.1 c.2
  | .openRes _ => ¬(d.connectionState = .connected ∧ d.streamState = .remoteOpening)
  | .startRes _ => False
  | _ => True

theorem quiet_signallingDisconnected (status : Status) (managed : Bool) :
    Quiet d (d.signallingDisconnected status managed) ∧
      (d.signallingDisconnected status managed).sinkIsValid = false := by
  have hidle : ∀ e : Device, Quiet e { e with connectionState := .idle } := fun e =>
    ⟨⟨[], (List.append_nil _).symm, fun _ ho => absurd ho List.not_mem_nil⟩, fun ht => ⟨ht, rfl⟩,
      fun ht => absurd ht Bool.false_ne_true⟩
  have hmedia := quiet_disconnectAllMedia (d := d)
  rw [signallingDisconnected]
  split_ifs with hlink
  · refine ⟨Quiet.refl d, ?_⟩
    rw [sinkIsValid]
    simpa using hlink
  · exact ⟨hidle d, rfl⟩
  · exact ⟨(quiet_told _).trans (quiet_zeroSignalling rfl), rfl⟩
  · split
    · next e heq =>
      rw [heq] at hmedia
      exact ⟨hmedia.trans (hidle e), rfl⟩
    · next e heq =>
      rw [heq] at hmedia
      exact ⟨((hmedia.trans (quiet_told _)).trans quiet_reset).trans quiet_removeDevice, rfl⟩

/-- What a history makes of the command that waits. -/
def Settles (d t : Device) (w w' : Option (Label × Octet)) : Prop :=
  ∃ obs, t.log = d.log ++ obs ∧ settle w obs = some w'

theorem Quiet.settles (h : Quiet d t) (w : Option (Label × Octet)) : Settles d t w w := by
  obtain ⟨obs, hlog, hobs⟩ := h.log
  exact ⟨obs, hlog, settle_of_neutral w hobs⟩

theorem Answered.settles (h : Answered d t) (id : Octet) : Settles d t (some (d.receivedLabel, id)) none := by
  obtain ⟨obs, o, obs', hlog, hobs, ho, hobs'⟩ := h.log
  refine ⟨_, hlog, ?_⟩
  rw [settle_append, settle_of_neutral _ hobs, bind_some, settle, List.foldlM_cons, settleStep_of_answers ho]
  exact settle_of_neutral none hobs'

theorem settles_takeUp (p : Packet) : Settles d (d.takeUp p) none (some (labelOf (p.octet 0), p.octet 1)) :=
  ⟨_, rfl, rfl⟩

theorem Settles.trans {w w' w'' : Option (Label × Octet)} (h : Settles d t w w') (h' : Settles t u w' w'') :
    Settles d u w w'' := by
  obtain ⟨obs, hlog, hobs⟩ := h
  obtain ⟨obs', hlog', hobs'⟩ := h'
  refine ⟨obs ++ obs', by rw [hlog', hlog, List.append_assoc], ?_⟩
  rw [settle_append, hobs, bind_some, hobs']

/-- The command that waits is an OPEN while the stream is being opened, or a START while it is up. With nothing to
wait, the flag is not set, unless the channel is gone. -/
def Sound (d : Device) : Option (Label × Octet) → Prop
  | none => d.sinkIsValid = true → d.pendingReceived = false
  | some c => d.sinkIsValid = true ∧ d.pendingReceived = true ∧ d.receivedLabel = c.1 ∧
      (c.2 = Signal.open.id ∧ d.streamState = .remoteOpening ∨ c.2 = Signal.start.id ∧ d.streamState.isUp = true)

theorem Sound.waits (h : d.Sound (some c)) : d.Waits := by
  obtain ⟨-, -, -, ⟨-, hstate⟩ | ⟨-, hup⟩⟩ := h
  · exact Or.inl hstate
  · exact Or.inr hup

/-- What is quiet and leaves the command waiting. -/
theorem Sound.stays (h : d.Sound (some c)) (hq : Quiet d t) (hs : Stays d t)
    (hvalid : t.sinkIsValid = true) : t.Sound (some c) := by
  obtain ⟨-, hflag, hlabel, hstate⟩ := h
  have hflag' : t.pendingReceived = true := hs.flag.trans hflag
  refine ⟨hvalid, hflag', (hq.flag hflag').2.trans hlabel, ?_⟩
  obtain ⟨hid, hstate⟩ | ⟨hid, hup⟩ := hstate
  · exact Or.inl ⟨hid, hs.state.elim (fun heq => heq.trans hstate) fun hne => absurd hstate hne.1⟩
  · exact Or.inr ⟨hid, hs.state.elim (fun heq => heq ▸ hup) fun hne => hne.2⟩

/-- What is quiet when nothing waits. -/
theorem Sound.quiet (h : d.Sound none) (hq : Quiet d t) : t.Sound none := by
  intro hvalid
  have hflag := h (hq.link hvalid)
  cases hflag' : t.pendingReceived with
  | false => rfl
  | true => exact absurd ((hq.flag hflag').1.symm.trans hflag) (by decide)

/-- The answer of the application is noted in front of the packet. -/
theorem Answered.answered_of_note {o : Obs} (ho : o.isNeutral = true) (h : Answered (d.note o) t) : Answered d t := by
  obtain ⟨obs, o', obs', hlog, hobs, ho', hobs'⟩ := h.log
  refine ⟨⟨o :: obs, o', obs', hlog.trans (List.append_assoc _ _ _), ?_, ho', hobs'⟩, h.flag⟩
  rintro x (_ | ⟨_, hx⟩)
  · exact ho
  · exact hobs x hx

theorem Answered.sound (h : Answered d t) : t.Sound none := fun _ => h.flag

/-! ### Turns, with and without a command that waits -/

theorem ofId_eq {id : Octet} (h : Signal.ofId id = some signal) : id = signal.id := by
  have hnodup : Signal.all.Nodup := by decide
  obtain ⟨hlt, rfl⟩ := List.getElem?_eq_some_iff.mp h
  rw [Signal.id, hnodup.idxOf_getElem _ hlt, BitVec.ofNat_toNat, BitVec.setWidth_eq]

/-- A turn leaves the command that waits alone. -/
theorem turn_leaves (hvalid : d.sinkIsValid = true) (hflag : d.pendingReceived = true) (hw : d.Waits)
    (h : ∀ c ∈ d.taken, { d with received := none }.PacketLeaves c.1 c.2) (ht : d.a2dpHandleSignalPacket = some t) :
    Quiet d t ∧ Stays d t := by
  obtain ⟨-, rfl | ⟨received, source, rfl⟩⟩ | ⟨type, p, u, processed, htaken, hu, ht⟩ := turn_cases ht
  · exact ⟨Quiet.refl t, Stays.refl t⟩
  · exact ⟨.of_eq rfl rfl rfl rfl, ⟨rfl, Or.inl rfl⟩⟩
  · have hleaves := h _ htaken
    have hstart : Quiet d { d with received := none } ∧ Stays d { d with received := none } :=
      ⟨.of_eq rfl rfl rfl rfl, ⟨rfl, Or.inl rfl⟩⟩
    suffices hprocess : (Quiet d u ∧ Stays d u) ∧ (processed = false → type = .single) by
      obtain ⟨⟨hquiet, hstays⟩, htype⟩ := hprocess
      obtain ⟨-, rfl⟩ | ⟨-, -, rfl⟩ | ⟨hnot, hne, rfl⟩ := ht
      · exact ⟨hquiet.trans (.of_eq rfl rfl rfl rfl), hstays.trans ⟨rfl, Or.inl rfl⟩⟩
      · exact ⟨hquiet, hstays⟩
      · exact absurd (htype hnot) hne
    dsimp only [PacketLeaves] at hleaves
    rw [processSignalPacket] at hu
    split at hu
    · next hcommand =>
      rw [hcommand] at hleaves
      rw [handleReceiveCommand, if_pos (Or.inr hflag)] at hu
      obtain ⟨rfl, rfl⟩ := Prod.mk.inj (some.inj hu)
      exact ⟨hstart, fun _ => hleaves⟩
    · next hreject =>
      rw [hreject] at hleaves
      obtain ⟨hheader, hreject⟩ := hleaves
      split_ifs at hu with hversion
      · obtain ⟨v, hv, hvu⟩ := map_eq_some_iff.mp hu
        obtain ⟨rfl, rfl⟩ := Prod.mk.inj hvu
        have hbad : p.length < 2 ∨ p.octet 1 = Signal.discover.id := by
          by_contra hnot
          obtain ⟨hlength, hdiscover⟩ := not_or.mp hnot
          exact hheader ⟨hversion, Nat.le_of_not_lt hlength, hdiscover⟩
        rw [handleBadHeader, if_pos (Or.inr hbad)] at hv
        obtain rfl := some.inj hv
        exact ⟨hstart, fun h => by cases h⟩
      · obtain ⟨rfl, rfl⟩ := Prod.mk.inj (some.inj hu)
        have hstays := stays_generalRejectResponse (hreject (not_not.mp hversion))
        exact ⟨⟨hstart.1.trans quiet_generalRejectResponse, hstart.2.trans hstays⟩, fun h => by cases h⟩
    all_goals
      next haccept =>
        rw [haccept] at hleaves
        obtain ⟨rfl, rfl⟩ := Prod.mk.inj (some.inj hu)
        have hwaits : { d with received := none }.Waits := hw
        exact ⟨⟨hstart.1.trans quiet_receiveResponse, hstart.2.trans (stays_receiveResponse hwaits hleaves)⟩, fun h => by cases h⟩

/-- A command that is taken up and answered. -/
theorem settles_of_answered (h : Answered (d.takeUp p) t) : Settles d t none none ∧ t.Sound none :=
  ⟨(settles_takeUp p).trans (h.settles (p.octet 1)), h.sound⟩

/-- A command is answered, passed on, or kept when nothing waits. -/
theorem receiveCommand_takes {type : PacketType} {processed : Bool} (hvalid : d.sinkIsValid = true)
    (hflag : d.pendingReceived = false) (hcommand : p.type = .command) (h : d.PacketTakes type p)
    (ht : d.handleReceiveCommand p = some (t, processed)) :
    (∃ w, Settles d t none w ∧ t.Sound w) ∧ (processed = false → type = .single) := by
  rw [PacketTakes, hcommand] at h
  rw [handleReceiveCommand, if_neg (by rw [hvalid, hflag]; decide)] at ht
  split at ht
  · obtain ⟨u, hu, heq⟩ := map_eq_some_iff.mp ht
    obtain ⟨rfl, rfl⟩ := Prod.mk.inj heq
    exact ⟨⟨none, settles_of_answered (answered_sendGeneralReject hu)⟩, fun h => by cases h⟩
  · next signal hsignal =>
    have htakes := h signal hsignal
    split_ifs at ht htakes with hlength hopening
    · obtain ⟨u, hu, heq⟩ := map_eq_some_iff.mp ht
      obtain ⟨rfl, rfl⟩ := Prod.mk.inj heq
      exact ⟨⟨none, settles_of_answered (answered_sendReject (d := d.takeUp p) hvalid htakes hu)⟩, fun h => by cases h⟩
    · obtain ⟨rfl, rfl⟩ := Prod.mk.inj (some.inj ht)
      exact ⟨⟨none, ⟨[], (List.append_nil _).symm, rfl⟩, fun _ => hflag⟩, fun _ => htakes⟩
    · obtain ⟨u, hu, heq⟩ := map_eq_some_iff.mp ht
      obtain ⟨rfl, rfl⟩ := Prod.mk.inj heq
      refine ⟨?_, fun h => by cases h⟩
      obtain ⟨hanswer, hpass⟩ := htakes
      by_cases hpasses : (d.takeUp p).PassesOn signal p
      · have hid := ofId_eq hsignal
        obtain ⟨rfl, rfl⟩ | ⟨rfl, rfl⟩ := dispatch_of_passesOn hpasses hu
        · exact ⟨some (labelOf (p.octet 0), p.octet 1),
            (settles_takeUp p).trans (((quiet_setStreamState _).trans (quiet_told _)).settles _),
            hvalid, rfl, rfl, Or.inl ⟨hid, rfl⟩⟩
        · exact ⟨some (labelOf (p.octet 0), p.octet 1),
            (settles_takeUp p).trans (((quiet_setStreamState _).trans (quiet_told _)).settles _),
            hvalid, rfl, rfl, Or.inr ⟨hid, rfl⟩⟩
      · have hroom : 2 ≤ (d.takeUp p).room := hpass.resolve_left hpasses
        have hvalid' : (d.takeUp p).sinkIsValid = true := hvalid
        exact ⟨none, settles_of_answered (answered_dispatch hvalid' hroom hanswer hpasses hu)⟩

/-- A turn takes its packet properly when nothing waits. -/
theorem turn_takes (hvalid : d.sinkIsValid = true) (hflag : d.pendingReceived = false)
    (h : ∀ c ∈ d.taken, { d with received := none }.PacketTakes c.1 c.2) (ht : d.a2dpHandleSignalPacket = some t) :
    ∃ w, Settles d t none w ∧ t.Sound w := by
  have hsound : ∀ {u : Device}, Quiet d u → ∃ w, Settles d u none w ∧ u.Sound w := fun hq =>
    ⟨none, hq.settles none, Sound.quiet (fun _ => hflag) hq⟩
  obtain ⟨-, rfl | ⟨received, source, rfl⟩⟩ | ⟨type, p, u, processed, htaken, hu, ht⟩ := turn_cases ht
  · exact hsound (Quiet.refl t)
  · exact hsound (.of_eq rfl rfl rfl rfl)
  · have htakes := h _ htaken
    have hstart : Quiet d { d with received := none } := .of_eq rfl rfl rfl rfl
    suffices hprocess : (∃ w, Settles d u none w ∧ u.Sound w) ∧ (processed = false → type = .single) by
      obtain ⟨⟨w, hsettles, hu⟩, htype⟩ := hprocess
      obtain ⟨-, rfl⟩ | ⟨-, -, rfl⟩ | ⟨hnot, hne, rfl⟩ := ht
      · exact ⟨w, hsettles, by cases w <;> exact hu⟩
      · exact ⟨w, hsettles, hu⟩
      · exact absurd (htype hnot) hne
    rw [processSignalPacket] at hu
    split at hu
    · next hcommand =>
      exact receiveCommand_takes (d := { d with received := none }) hvalid hflag hcommand htakes hu
    · next hreject =>
      dsimp only [PacketTakes] at htakes
      rw [hreject] at htakes
      split_ifs at hu with hversion
      · obtain ⟨v, hv, heq⟩ := map_eq_some_iff.mp hu
        obtain ⟨rfl, rfl⟩ := Prod.mk.inj heq
        refine ⟨?_, fun h => by cases h⟩
        rw [handleBadHeader] at hv
        split_ifs at hv with hbad
        · obtain rfl := some.inj hv
          exact hsound hstart
        · obtain ⟨-, hbad⟩ := not_or.mp hbad
          obtain ⟨hlength, hdiscover⟩ := not_or.mp hbad
          have hroom : 2 ≤ d.room := htakes ⟨hversion, Nat.le_of_not_lt hlength, hdiscover⟩
          exact ⟨none, settles_of_answered (d := { d with received := none })
            (answered_sendReject (d := { d with received := none }.takeUp p) hvalid hroom hv)⟩
      · obtain ⟨rfl, rfl⟩ := Prod.mk.inj (some.inj hu)
        exact ⟨hsound (hstart.trans quiet_generalRejectResponse), fun h => by cases h⟩
    all_goals
      obtain ⟨rfl, rfl⟩ := Prod.mk.inj (some.inj hu)
      exact ⟨hsound (hstart.trans quiet_receiveResponse), fun h => by cases h⟩

/-! ### Steps -/

/-- The inputs that never answer a command, but for the turns and the answers of the application. -/
theorem quiet_step {i : Input} (hvalid : ∀ mtu, i = .signallingConnected mtu → d.sinkIsValid = true)
    (hturn : i ≠ .turn) (hopen : ∀ a, i ≠ .openRes a)
    (hstart : ∀ a, i ≠ .startRes a) (ht : d.step i = some t) : Quiet d t := by
  cases i with try obtain rfl := some.inj ht
  | turn => exact absurd rfl hturn
  | openRes accept => exact absurd rfl (hopen accept)
  | startRes accept => exact absurd rfl (hstart accept)
  | packet octets | version v => split_ifs <;> exact .of_eq rfl rfl rfl rfl
  | room n => exact .of_eq rfl rfl rfl rfl
  | signallingConnected mtu =>
    -- the channel is there already
    have hvalid := hvalid mtu rfl
    have hlink : ¬(d.connectionState = .idle ∨ d.connectionState = .paging) := by
      rintro (h | h)
      all_goals
        rw [sinkIsValid, h] at hvalid
        cases hvalid
    rw [if_neg hlink]
    exact Quiet.refl d
  | signallingDisconnected status managed => exact (quiet_signallingDisconnected status managed).1
  | mediaConnectInd => exact quiet_mediaConnectInd
  | mediaConnectCfm success => exact quiet_mediaConnectCfm success
  | mediaDisconnected status linkloss => exact quiet_mediaDisconnected status linkloss
  | signallingDisconnectReq => exact quiet_signallingDisconnectReq
  | openReq seids => exact quiet_establish seids
  | startReq | suspendReq | closeReq => exact quiet_request (by decide) fun _ => quiet_setStreamState _
  | reconfigureReq caps => exact quiet_request (by decide) fun _ => .of_eq rfl rfl rfl rfl
  | delayReq delay => exact quiet_streamDelayReport delay
  | codecConfigureRes accept seid caps => exact quiet_codecConfigureResponse accept seid caps
  | setAvailable seid available => exact quiet_setSepAvailable seid available
  | watchdog =>
    split_ifs
    · exact quiet_watchdogTimeout.after rfl rfl rfl rfl
    · exact Quiet.refl d
  | clientRspTimeout =>
    split_ifs
    · rw [a2dpHandleInternalClientRspTimeout]
      split_ifs
      · exact (quiet_sendDelayReport 0).after rfl rfl rfl rfl
      · exact .of_eq rfl rfl rfl rfl
    · exact Quiet.refl d
  | remoteCmdTimeout =>
    split_ifs
    · rw [a2dpHandleInternalRemoteCmdTimeout]
      split_ifs
      · exact quiet_continueStreamConnect.after rfl rfl rfl rfl
      · exact .of_eq rfl rfl rfl rfl
    · exact Quiet.refl d

/-- The same inputs leave the command waiting. -/
theorem stays_step {i : Input} (hw : d.Waits) (hturn : i ≠ .turn) (hopen : ∀ a, i ≠ .openRes a)
    (hstart : ∀ a, i ≠ .startRes a) (hvalid : d.sinkIsValid = true) (hvalid' : t.sinkIsValid = true)
    (h : d.Leaves i) (ht : d.step i = some t) : Stays d t := by
  cases i with try obtain rfl := some.inj ht
  | turn => exact absurd rfl hturn
  | openRes accept => exact absurd rfl (hopen accept)
  | startRes accept => exact absurd rfl (hstart accept)
  | packet octets =>
    rw [if_pos hvalid]
    exact ⟨rfl, Or.inl rfl⟩
  | room n => exact ⟨rfl, Or.inl rfl⟩
  | signallingConnected mtu =>
    have hlink : ¬(d.connectionState = .idle ∨ d.connectionState = .paging) := by
      rintro (h | h)
      all_goals
        rw [sinkIsValid, h] at hvalid
        cases hvalid
    rw [if_neg hlink]
    exact Stays.refl d
  | version v => split_ifs <;> exact ⟨rfl, Or.inl rfl⟩
  | signallingDisconnected status managed =>
    exact absurd ((quiet_signallingDisconnected status managed).2.symm.trans hvalid') Bool.false_ne_true
  | mediaConnectInd =>
    rw [mediaConnectInd]
    split_ifs <;> exact ⟨rfl, Or.inl rfl⟩
  | mediaConnectCfm success => exact stays_mediaConnectCfm h
  | mediaDisconnected status linkloss =>
    have hmedia : d.mediaState.isConnected = false := h
    rw [mediaDisconnected, if_pos (by rw [hmedia]; rfl)]
    exact Stays.refl d
  | signallingDisconnectReq => exact stays_signallingDisconnectReq hw h
  | openReq seids =>
    rw [a2dpStreamEstablish]
    split_ifs with hlink hidle
    · exact ⟨rfl, Or.inl rfl⟩
    · exact ⟨rfl, Or.inl rfl⟩
    · exact absurd (not_not.mp hidle) (hw.ne (by decide) rfl)
  | startReq | suspendReq | closeReq | reconfigureReq caps =>
    exact stays_request (by decide) h fun _ hne => stays_of_up hne rfl rfl
  | delayReq delay => exact stays_streamDelayReport delay
  | codecConfigureRes accept seid caps =>
    rw [a2dpHandleCodecConfigureResponse, if_pos (hw.ne (by decide) rfl)]
    exact Stays.refl d
  | setAvailable seid available =>
    rw [a2dpSetSepAvailable]
    split <;> exact ⟨rfl, Or.inl rfl⟩
  | watchdog =>
    split_ifs with hwatchdog
    · obtain ⟨hlocal, hremote, habort⟩ := h hwatchdog
      rw [a2dpHandleInternalWatchdogTimeout, if_neg (not_or.mpr ⟨hlocal, hremote⟩)]
      exact Stays.trans (t := { d with watchdog := false }) ⟨rfl, Or.inl rfl⟩ (stays_abort habort)
    · exact Stays.refl d
  | clientRspTimeout =>
    split_ifs
    · rw [a2dpHandleInternalClientRspTimeout, if_neg (hw.ne (by decide) rfl)]
      exact ⟨rfl, Or.inl rfl⟩
    · exact Stays.refl d
  | remoteCmdTimeout =>
    split_ifs
    · rw [a2dpHandleInternalRemoteCmdTimeout, if_neg (hw.ne (by decide) rfl)]
      exact ⟨rfl, Or.inl rfl⟩
    · exact Stays.refl d

variable {accept : Bool}

/-- The answer of the application to an OPEN. -/
theorem openResponse_cases (ht : d.a2dpStreamOpenResponse accept = some t) :
    (¬(d.connectionState = .connected ∧ d.streamState = .remoteOpening) ∧ ∃ status, t = d.mediaOpenCfm status) ∨
      (d.connectionState = .connected ∧ d.streamState = .remoteOpening ∧
        ((accept = true ∧ Answered d t) ∨ (accept = false ∧ (1 ≤ d.room → Answered d t)))) := by
  rw [a2dpStreamOpenResponse] at ht
  split_ifs at ht with hlink hstate haccept
  · exact Or.inl ⟨fun h => hlink h.1, _, (some.inj ht).symm⟩
  · exact Or.inl ⟨fun h => hstate h.2, _, (some.inj ht).symm⟩
  · exact Or.inr ⟨not_not.mp hlink, not_not.mp hstate, Or.inl ⟨haccept, answered_sendAccept ht⟩⟩
  · obtain ⟨u, hu, rfl⟩ := map_eq_some_iff.mp ht
    refine Or.inr ⟨not_not.mp hlink, not_not.mp hstate, Or.inr ⟨eq_false_of_ne_true haccept, fun hroom => ?_⟩⟩
    have hvalid : d.sinkIsValid = true := by
      rw [sinkIsValid, not_not.mp hlink]
      rfl
    obtain ⟨-, hgrab⟩ | ⟨room, rfl⟩ := sendReject_cases hu
    · rw [a2dpGrabSink, if_pos ⟨hvalid, hroom⟩] at hgrab
      cases hgrab
    · exact Answered.quiet ⟨⟨[], _, [], rfl, by simp, rfl, by simp⟩, rfl⟩ quiet_reset

/-- The answer of the application to a START is sent, if there is room for it, whatever the state. -/
theorem startResponse_answers (hvalid : d.sinkIsValid = true) (hroom : 2 ≤ d.room)
    (ht : d.a2dpStreamStartResponse accept = some t) : Answered d t := by
  rw [a2dpStreamStartResponse] at ht
  split_ifs at ht
  · obtain ⟨u, hu, rfl⟩ := map_eq_some_iff.mp ht
    have hanswered : Answered d u := (answered_sendAccept hu).after rfl rfl
    exact hanswered.quiet (quiet_told _)
  · obtain ⟨u, hu, rfl⟩ := map_eq_some_iff.mp ht
    have hanswered : Answered (d.a2dpSetStreamState .open) u := answered_sendReject hvalid hroom hu
    have hanswered : Answered d u := hanswered.after rfl rfl
    exact hanswered.quiet (quiet_told _)
  · obtain ⟨u, hu, rfl⟩ := map_eq_some_iff.mp ht
    exact (answered_sendReject hvalid hroom hu).quiet (quiet_told _)

/-- A reject for which there is no room is not sent. -/
theorem sendReject_of_full {signalId : Octet} {e : CapsError} (h : d.room < (rejectPayload signalId e).length) :
    d.a2dpSendReject signalId e = some d := by
  have hgrab : d.a2dpGrabSink (rejectPayload signalId e).length = none := if_neg fun h' => absurd h'.2 (Nat.not_le.mpr h)
  rw [a2dpSendReject, hgrab]

theorem sendReject_of_gone {signalId : Octet} {e : CapsError} (hgone : d.sinkIsValid = false) :
    d.a2dpSendReject signalId e = some d := by
  have hgrab : d.a2dpGrabSink (rejectPayload signalId e).length = none :=
    if_neg fun h => absurd (h.1.symm.trans hgone) (by decide)
  rw [a2dpSendReject, hgrab]

theorem sendAccept_of_gone (hgone : d.sinkIsValid = false) :
    d.a2dpSendAccept signal payload = none := by
  rw [a2dpSendAccept, Device.sendPacket, a2dpGrabSink, if_neg fun h => absurd (h.1.symm.trans hgone) (by decide)]
  rfl

/-- Without a channel nothing is sent. -/
theorem quiet_startResponse_of_gone (hgone : d.sinkIsValid = false)
    (ht : d.a2dpStreamStartResponse accept = some t) : Quiet d t := by
  rw [a2dpStreamStartResponse] at ht
  split_ifs at ht
  · rw [sendAccept_of_gone (d := d.a2dpSetStreamState .streaming) hgone] at ht
    cases ht
  · rw [sendReject_of_gone (d := d.a2dpSetStreamState .open) hgone] at ht
    obtain rfl := some.inj ht
    exact (quiet_setStreamState _).trans (quiet_told _)
  · rw [sendReject_of_gone hgone] at ht
    obtain rfl := some.inj ht
    exact quiet_told _

end Device

/-! ### Runs -/

/-- A device, with the command that waits for its answer. The ledger is broken when it is `none`. -/
structure Signalling where
  device : Device
  ledger : Option (Option (Label × Octet))

namespace Signalling

variable {s t : Signalling} {i : Input}

/-- The application responds to the command that waits. -/
def responds (w : Option (Label × Octet)) : Input → Bool
  | .openRes _ => w.map Prod.snd = some Signal.open.id
  | .startRes _ => w.map Prod.snd = some Signal.start.id
  | _ => false

/-- The ledger after an input. Without a channel nothing waits. -/
def account (s : Signalling) (i : Input) (t : Device) : Option (Option (Label × Octet)) :=
  s.ledger.bind fun w =>
    (settle w (t.log.drop s.device.log.length)).bind fun w' =>
      if t.sinkIsValid then
        if responds w i ∧ w'.isSome then none else some w'
      else some none

def step (s : Signalling) (i : Input) : Option Signalling :=
  (s.device.step i).map fun t => { device := t, ledger := s.account i t }

/-- The ledger is not broken, only an OPEN or a START waits, and the flag says whether one does. -/
def Orderly (s : Signalling) : Prop :=
  ∃ w, s.ledger = some w ∧ (s.device.sinkIsValid = true → (s.device.pendingReceived = true ↔ w.isSome = true)) ∧
    ∀ c ∈ w, c.2 = Signal.open.id ∨ c.2 = Signal.start.id

/-- The input leaves what waits alone, or is taken properly when nothing waits. -/
def Proper (s : Signalling) (i : Input) : Prop :=
  s.device.sinkIsValid = true →
    if s.device.pendingReceived then s.device.Leaves i else s.device.Takes i

/-- The invariant of the runs whose inputs are proper. -/
def Inv (s : Signalling) : Prop := ∃ w, s.ledger = some w ∧ s.device.Sound w

theorem Inv.orderly (h : s.Inv) : s.Orderly := by
  obtain ⟨w, hledger, hsound⟩ := h
  refine ⟨w, hledger, fun hvalid => ?_, ?_⟩
  · cases w with
    | none => exact iff_of_false (by rw [hsound hvalid]; exact Bool.false_ne_true) Bool.false_ne_true
    | some c => exact iff_of_true hsound.2.1 rfl
  · rintro c ⟨⟩
    exact hsound.2.2.2.imp And.left And.left

variable {d : Device}

theorem Inv.of_settles {w w' : Option (Label × Octet)} (hledger : s.ledger = some w)
    (h : s.device.Settles d w w') (hresponds : d.sinkIsValid = true → responds w i = true → w' = none)
    (hsound : d.sinkIsValid = true → d.Sound w') : Inv ⟨d, s.account i d⟩ := by
  obtain ⟨obs, hlog, hobs⟩ := h
  have haccount : s.account i d = some (if d.sinkIsValid then w' else none) := by
    rw [account, hledger, bind_some, hlog, List.drop_left, hobs, bind_some]
    split_ifs with hvalid hdue
    · rw [hresponds hvalid hdue.1] at hdue
      exact absurd hdue.2 Bool.false_ne_true
    · rfl
    · rfl
  refine ⟨_, haccount, ?_⟩
  by_cases hvalid : d.sinkIsValid = true
  · rw [if_pos hvalid]
    exact hsound hvalid
  · rw [if_neg hvalid]
    exact fun h => absurd h hvalid

/-- What is quiet when nothing waits. -/
theorem Inv.of_quiet (hledger : s.ledger = some none) (hsound : s.device.Sound none)
    (h : s.device.Quiet d) : Inv ⟨d, s.account i d⟩ :=
  Inv.of_settles hledger (h.settles none) (fun _ _ => rfl) fun _ => hsound.quiet h

/-- A step without a channel. -/
theorem Inv.step_of_gone (hgone : s.device.sinkIsValid = false) (hledger : s.ledger = some none)
    (hsound : s.device.Sound none) (hd : s.device.step i = some d) : Inv ⟨d, s.account i d⟩ := by
  have hlink : s.device.connectionState ≠ .connected := fun h => by
    rw [Device.sinkIsValid, h] at hgone
    cases hgone
  cases i with
  | turn =>
    rw [Device.step, Device.a2dpHandleSignalPacket, if_pos (Or.inr (by rw [hgone]; rfl))] at hd
    obtain rfl := some.inj hd
    exact Inv.of_quiet hledger hsound (Device.Quiet.refl _)
  | openRes accept =>
    obtain ⟨-, status, rfl⟩ | ⟨hconnected, -⟩ := Device.openResponse_cases hd
    · exact Inv.of_quiet hledger hsound ((Device.quiet_note rfl).trans (Device.quiet_mediaOpenCfm status))
    · exact absurd hconnected hlink
  | startRes accept =>
    exact Inv.of_quiet hledger hsound
      ((Device.quiet_note rfl).trans (Device.quiet_startResponse_of_gone hgone hd))
  | signallingConnected mtu =>
    obtain rfl := some.inj hd
    split_ifs
    · exact Inv.of_settles hledger ⟨[], (List.append_nil _).symm, rfl⟩ (fun _ _ => rfl) fun _ _ => rfl
    · exact Inv.of_quiet hledger hsound (Device.Quiet.refl _)
  | _ => exact Inv.of_quiet hledger hsound (Device.quiet_step (by rintro _ ⟨⟩) (by simp) (by simp) (by simp) hd)

/-- A step when nothing waits. -/
theorem Inv.step_of_none (hvalid : s.device.sinkIsValid = true) (hledger : s.ledger = some none)
    (hsound : s.device.Sound none) (htakes : s.device.Takes i) (hd : s.device.step i = some d) :
    Inv ⟨d, s.account i d⟩ := by
  cases i with
  | turn =>
    obtain ⟨w, hsettles, hw⟩ := Device.turn_takes hvalid (hsound hvalid) htakes hd
    exact Inv.of_settles hledger hsettles (fun _ h => absurd h Bool.false_ne_true) fun _ => hw
  | openRes accept =>
    obtain ⟨-, status, rfl⟩ | ⟨hlink, hstate, -⟩ := Device.openResponse_cases hd
    · exact Inv.of_quiet hledger hsound ((Device.quiet_note rfl).trans (Device.quiet_mediaOpenCfm status))
    · exact absurd ⟨hlink, hstate⟩ htakes
  | startRes accept => exact htakes.elim
  | _ => exact Inv.of_quiet hledger hsound (Device.quiet_step (fun _ _ => hvalid) (by simp) (by simp) (by simp) hd)

/-- A step while a command waits. -/
theorem Inv.step_of_some (hledger : s.ledger = some (some c))
    (hsound : s.device.Sound (some c)) (hleaves : s.device.Leaves i) (hd : s.device.step i = some d) :
    Inv ⟨d, s.account i d⟩ := by
  obtain ⟨hvalid, hflag, hlabel, hwaits⟩ := hsound
  have hsound : s.device.Sound (some c) := ⟨hvalid, hflag, hlabel, hwaits⟩
  have hc : c = (s.device.receivedLabel, c.2) := Prod.ext hlabel.symm rfl
  have hanswered : ∀ {e : Device}, s.device.Answered e → Inv ⟨e, s.account i e⟩ := by
    intro e he
    have hsettles := he.settles c.2
    rw [← hc] at hsettles
    exact Inv.of_settles hledger hsettles (fun _ _ => rfl) fun _ => he.sound
  have hstays : ∀ {e : Device}, s.device.Quiet e → (e.sinkIsValid = true → s.device.Stays e) →
      (responds (some c) i = false) → Inv ⟨e, s.account i e⟩ := by
    intro e hq hs hresponds
    refine Inv.of_settles hledger (hq.settles _) (fun _ h => ?_) fun hvalid' => hsound.stays hq (hs hvalid') hvalid'
    exact absurd (h.symm.trans hresponds) (by decide)
  cases i with
  | turn =>
    obtain ⟨hq, hs⟩ := Device.turn_leaves hvalid hflag hsound.waits hleaves hd
    exact hstays hq (fun _ => hs) rfl
  | openRes accept =>
    obtain ⟨hnot, status, rfl⟩ | ⟨hlink, hstate, ⟨-, h⟩ | ⟨rfl, h⟩⟩ := Device.openResponse_cases hd
    · refine hstays ((Device.quiet_note rfl).trans (Device.quiet_mediaOpenCfm status)) (fun _ => ⟨rfl, Or.inl rfl⟩) ?_
      obtain ⟨-, hstate⟩ | ⟨hid, -⟩ := hwaits
      · exact absurd ⟨(hleaves hstate).1, hstate⟩ hnot
      · rw [responds, map_some, hid]
        rfl
    · exact hanswered (h.answered_of_note rfl)
    · have hroom : 1 ≤ s.device.room := ((hleaves hstate).2).resolve_left Bool.false_ne_true
      exact hanswered ((h hroom).answered_of_note rfl)
  | startRes accept =>
    by_cases hroom : 2 ≤ s.device.room
    · have h : (s.device.note .responded).Answered d := Device.startResponse_answers hvalid hroom hd
      exact hanswered (h.answered_of_note rfl)
    · -- the reject of a START does not fit, and the OPEN waits on
      have hstate : s.device.streamState = .remoteOpening := hleaves.resolve_right hroom
      obtain ⟨hid, -⟩ | ⟨-, hup⟩ := hwaits
      · have hfull : (s.device.note .responded).a2dpSendReject Signal.start.id ⟨0, badState⟩ =
            some (s.device.note .responded) := Device.sendReject_of_full (Nat.lt_of_not_le hroom)
        have hnot : (s.device.note .responded).streamState ∉ [StreamState.open, .remoteStarting, .streaming] := by
          change s.device.streamState ∉ _
          rw [hstate]
          decide
        have hd : (s.device.note .responded).a2dpStreamStartResponse accept = some d := hd
        rw [Device.a2dpStreamStartResponse, if_pos hnot, hfull] at hd
        obtain rfl := some.inj hd
        refine hstays ((Device.quiet_note rfl).trans (Device.quiet_told _)) (fun _ => ⟨rfl, Or.inl rfl⟩) ?_
        rw [responds, map_some, hid]
        rfl
      · rw [hstate] at hup
        cases hup
  | _ =>
    exact hstays (Device.quiet_step (fun _ _ => hvalid) (by simp) (by simp) (by simp) hd)
      (fun hvalid' => Device.stays_step hsound.waits (by simp) (by simp) (by simp) hvalid hvalid' hleaves hd) rfl

theorem Inv.step (h : s.Inv) (hp : s.Proper i) (ht : s.step i = some t) : t.Inv := by
  obtain ⟨w, hledger, hsound⟩ := h
  obtain ⟨d, hd, rfl⟩ := map_eq_some_iff.mp ht
  cases w with
  | none =>
    by_cases hvalid : s.device.sinkIsValid = true
    · have htakes := hp hvalid
      rw [hsound hvalid] at htakes
      exact Inv.step_of_none hvalid hledger hsound htakes hd
    · exact Inv.step_of_gone (eq_false_of_ne_true hvalid) hledger hsound hd
  | some c =>
    have hleaves := hp hsound.1
    rw [if_pos hsound.2.1] at hleaves
    exact Inv.step_of_some hledger hsound hleaves hd

/-- In every run, each command is answered once, and the flag says whether one waits for the application. -/
def AlwaysOrderly : Prop :=
  ∀ (d : Device) (t : Signalling) (is : List Input), d.Initial → d.sinkIsValid = false →
    Lib.run step ⟨d, some none⟩ is = some t → t.Orderly

/-- Every run answers each command once and keeps the flag right, as long as each input leaves the command that waits
alone, or answers it, and each command that is taken up can be answered. -/
theorem orderly_of_run {d : Device} {is : List Input} (hgone : d.sinkIsValid = false)
    (hproper : Lib.RunMeets step Proper ⟨d, some none⟩ is) (hrun : Lib.run step ⟨d, some none⟩ is = some t) :
    t.Orderly := by
  have hinit : Inv ⟨d, some none⟩ := ⟨none, rfl, fun hvalid => absurd (hgone.symm.trans hvalid) Bool.false_ne_true⟩
  exact (Lib.run_invariant (fun _ _ _ h hok hs => h.step hok hs) hinit hproper hrun).orderly

instance (d : Device) (signal : Signal) (p : Packet) : Decidable (d.HasAnswer signal p) :=
  inferInstanceAs (Decidable ((_ → _) ∧ (_ → _ ∧ _)))

instance (d : Device) (signal : Signal) (p : Packet) : Decidable (d.PassesOn signal p) :=
  inferInstanceAs (Decidable (_ ∧ _ ∧ _ ∨ _ ∧ _ ∧ _))

instance (d : Device) (p : Packet) : Decidable (d.RefusesHeader p) := inferInstanceAs (Decidable (_ ∧ _ ∧ _))

theorem packetTakes_iff {type : PacketType} {p : Packet} :
    ((p.type = .command → ∀ signal ∈ Signal.ofId (p.octet 1),
        if p.length < signal.minLength then 2 ≤ d.room
        else if signal ∈ [Signal.start, .close] ∧ d.isOpening then type = .single
        else (d.takeUp p).HasAnswer signal p ∧ ((d.takeUp p).PassesOn signal p ∨ 2 ≤ d.room)) ∧
      (p.type = .generalReject → d.RefusesHeader p → 2 ≤ d.room)) ↔ d.PacketTakes type p := by
  rw [Device.PacketTakes]
  constructor
  · rintro ⟨hcommand, hreject⟩
    split
    · next htype => exact hcommand htype
    · next htype => exact hreject htype
    · trivial
    · trivial
  · intro h
    constructor
    · intro htype
      rw [htype] at h
      exact h
    · intro htype
      rw [htype] at h
      exact h

instance (d : Device) (type : PacketType) (p : Packet) : Decidable (d.PacketTakes type p) :=
  decidable_of_iff _ packetTakes_iff

instance (d : Device) : ∀ i, Decidable (d.Takes i) := fun i => by
  rcases i with ⟨⟩ <;> dsimp only [Device.Takes] <;> infer_instance

/-- A remote device that asks for the end points. -/
def asksForEndPoints : List Input := [.signallingConnected 672, .version .v13, .packet [0x10, 1], .turn]

/-- The command is answered. -/
theorem orderly_asksForEndPoints : ∃ t, Lib.run step ⟨Device.twoSinks, some none⟩ asksForEndPoints = some t ∧
    t.device.log.countP (fun o => o.answers.isSome) = 1 ∧ t.Orderly := by
  have hruns : (Lib.run step ⟨Device.twoSinks, some none⟩ asksForEndPoints).any fun t =>
      t.device.log.countP (fun o => o.answers.isSome) = 1 := by decide
  obtain ⟨t, ht, hcount⟩ := (any_eq_true _ _).mp hruns
  have htakes : Lib.RunMeets step (fun s i => s.device.pendingReceived = false ∧ s.device.Takes i)
      ⟨Device.twoSinks, some none⟩ asksForEndPoints := by decide
  have hproper : Lib.RunMeets step Proper ⟨Device.twoSinks, some none⟩ asksForEndPoints := by
    refine htakes.mono fun s i h _ => ?_
    rw [h.1]
    exact h.2
  exact ⟨t, ht, of_decide_eq_true hcount, orderly_of_run (by decide) hproper ht⟩

/-- A general reject of an old device, which is a command with the signal id zero. -/
def rejectsNothing : List Input := [.signallingConnected 672, .version .v12, .packet [0x10, 0], .turn]

/-- It is not answered, and the flag stays set. -/
theorem not_alwaysOrderly : ¬AlwaysOrderly := by
  intro h
  have hruns : (Lib.run step ⟨Device.twoSinks, some none⟩ rejectsNothing).any fun t =>
      t.ledger = some (some (1, Signal.null.id)) := by decide
  obtain ⟨t, ht, hledger⟩ := (any_eq_true _ _).mp hruns
  have hledger : t.ledger = some (some (1, Signal.null.id)) := of_decide_eq_true hledger
  obtain ⟨w, hw, -, hid⟩ := h Device.twoSinks t rejectsNothing (by decide) (by decide) ht
  obtain rfl := some.inj (hledger.symm.trans hw)
  exact absurd (hid _ rfl) (by decide)

end Signalling

end Cbps.A2dp
