import Cbps.A2dp.Quiet

/-!
# Answers to commands

A command that `handleReceiveCommand` or `handleBadHeader` takes up raises `pending_received_transaction`, and the
functions that send an accept or a reject clear it. A `Signalling` follows a device with the command that waits for
its answer. The ledger is broken when a second command is taken up, when a packet answers a command that does not
wait, when a command is dropped, and when the application has responded and the command still waits.

`orderly_of_run`: the ledger is not broken, and the flag says whether an OPEN or a START waits for the application,
in the runs whose inputs leave a command that waits alone, and in which every command that is taken up can be
answered.
-/

namespace Cbps.A2dp

open Option

/-! ### The ledger -/

/-- What waits for its answer, after an entry of the history. -/
def settleStep (w : Option (Label × Octet)) : Obs → Option (Option (Label × Octet))
  | .command label id => if w = none then some (some (label, id)) else none
  | .dropped _ => none
  | o =>
    match o.answers with
    | some label => if w.map Prod.fst = some label then some none else none
    | none => some w

/-- What waits for its answer, after some entries. -/
def settle (w : Option (Label × Octet)) (obs : List Obs) : Option (Option (Label × Octet)) := obs.foldlM settleStep w

theorem settleStep_of_neutral {o : Obs} (w : Option (Label × Octet)) (h : o.isNeutral = true) :
    settleStep w o = some w := by
  cases o with
  | command _ _ | dropped _ => exact absurd h Bool.false_ne_true
  | packet label type id payload =>
    have hanswers : (Obs.packet label type id payload).answers = none := of_decide_eq_true h
    simp only [settleStep, hanswers]
  | capabilities _ _ | responded | told _ | l2cap _ => rfl

theorem settle_of_neutral {obs : List Obs} (w : Option (Label × Octet)) (h : ∀ o ∈ obs, o.isNeutral = true) :
    settle w obs = some w := by
  induction obs with
  | nil => rfl
  | cons o obs ih =>
    rw [settle, List.foldlM_cons, settleStep_of_neutral w (h o List.mem_cons_self)]
    exact ih fun o ho => h o (List.mem_cons_of_mem _ ho)

theorem settle_append (w : Option (Label × Octet)) (obs obs' : List Obs) :
    settle w (obs ++ obs') = (settle w obs).bind fun w => settle w obs' := List.foldlM_append

theorem settleStep_of_answers {o : Obs} {label : Label} {id : Octet} (h : o.answers = some label) :
    settleStep (some (label, id)) o = some none := by
  rw [settleStep.eq_def]
  split
  · cases h
  · cases h
  · rw [h]
    exact if_pos rfl

namespace Device

variable {d t u : Device} {p : Packet}

/-! ### Commands that are answered -/

/-- The command with the received label is answered. -/
structure Answered (d t : Device) : Prop where
  log : ∃ obs o obs', t.log = d.log ++ (obs ++ o :: obs') ∧ (∀ o ∈ obs, o.isNeutral = true) ∧
    o.answers = some d.receivedLabel ∧ ∀ o ∈ obs', o.isNeutral = true
  flag : t.pendingReceived = false

theorem Answered.quiet (h : Answered d t) (h' : Quiet t u) : Answered d u := by
  obtain ⟨obs, o, obs', hlog, hobs, ho, hobs'⟩ := h.log
  obtain ⟨more, hlog', hmore⟩ := h'.log
  refine ⟨⟨obs, o, obs' ++ more, ?_, hobs, ho, fun o ho => (List.mem_append.mp ho).elim (hobs' o) (hmore o)⟩, ?_⟩
  · rw [hlog', hlog, List.append_assoc, List.append_assoc, List.cons_append]
  · cases hflag : u.pendingReceived with
    | false => rfl
    | true => exact absurd ((h'.flag hflag).1.symm.trans h.flag) (by decide)

/-- The answer to a command of which the label is not changed before it is answered. -/
theorem Answered.after (h : Answered u t) (hlog : u.log = d.log) (hlabel : u.receivedLabel = d.receivedLabel) :
    Answered d t := by
  obtain ⟨obs, o, obs', hobs⟩ := h.log
  rw [hlog, hlabel] at hobs
  exact ⟨⟨obs, o, obs', hobs⟩, h.flag⟩

variable {signal : Signal}

theorem answered_sendAccept {payload : List Octet} (h : d.a2dpSendAccept signal payload = some t) :
    Answered d t := by
  obtain ⟨room, rfl⟩ := sendAccept_eq h
  exact ⟨⟨[], _, [], rfl, by simp, rfl, by simp⟩, rfl⟩

theorem length_rejectPayload (signalId : Octet) (e : CapsError) : (rejectPayload signalId e).length ≤ 2 := by
  rw [rejectPayload]
  split_ifs
  · exact le_rfl
  · exact Nat.le_succ 1

theorem answered_sendReject {signalId : Octet} {e : CapsError} (hvalid : d.sinkIsValid = true) (hroom : 2 ≤ d.room)
    (h : d.a2dpSendReject signalId e = some t) : Answered d t := by
  obtain ⟨-, hgrab⟩ | ⟨room, rfl⟩ := sendReject_cases h
  · rw [a2dpGrabSink, if_pos ⟨hvalid, (length_rejectPayload signalId e).trans hroom⟩] at hgrab
    cases hgrab
  · exact ⟨⟨[], _, [], rfl, by simp, rfl, by simp⟩, rfl⟩

theorem answered_sendGeneralReject {signalId : Octet} (h : d.a2dpSendGeneralReject signalId = some t) : Answered d t := by
  obtain ⟨room, type, id, rfl, ⟨rfl, rfl⟩ | ⟨rfl, rfl⟩⟩ := sendGeneralReject_eq h
  · exact ⟨⟨[], _, [], rfl, by simp, rfl, by simp⟩, rfl⟩
  · exact ⟨⟨[], _, [], rfl, by simp, rfl, by simp⟩, rfl⟩

theorem answered_grabSink {size : ℕ} (hgrab : d.a2dpGrabSink size = some u) (h : Answered u t) : Answered d t := by
  rw [grabSink_eq hgrab] at h
  exact h.after rfl rfl

section Commands

variable (hvalid : d.sinkIsValid = true) (hroom : 2 ≤ d.room)

include hvalid hroom

theorem answered_discoverCommand (h : d.a2dpHandleDiscoverCommand = some t) : Answered d t := by
  rw [a2dpHandleDiscoverCommand] at h
  split at h
  · exact answered_sendReject hvalid hroom h
  · next e payload hok =>
    rw [a2dpProcessDiscoverCommand] at hok
    split at hok
    · cases hok
    · split at hok
      · cases hok
      · next e' hgrab =>
        obtain ⟨rfl, rfl⟩ := Prod.mk.inj (Except.ok.inj hok)
        exact answered_grabSink hgrab (answered_sendAccept h)

theorem answered_getCapabilitiesCommand {filter : Octet}
    (h : d.a2dpHandleGetCapabilitiesCommand signal filter p = some t) : Answered d t := by
  rw [a2dpHandleGetCapabilitiesCommand] at h
  split at h
  · exact answered_sendReject hvalid hroom h
  · next e payload hok =>
    rw [a2dpProcessGetCapabilitiesCommand] at hok
    split at hok
    · cases hok
    · split at hok
      · cases hok
      · next e' hgrab =>
        obtain ⟨rfl, rfl⟩ := Prod.mk.inj (Except.ok.inj hok)
        exact answered_grabSink hgrab (answered_sendAccept h)

theorem answered_setConfigurationCommand (h : d.a2dpHandleSetConfigurationCommand p = some t) : Answered d t := by
  rw [a2dpHandleSetConfigurationCommand] at h
  split at h
  · exact answered_sendReject hvalid hroom h
  · split at h
    · exact answered_sendReject hvalid hroom h
    · next e hok =>
      have hsame : e.log = d.log ∧ e.receivedLabel = d.receivedLabel := by
        rw [a2dpProcessSetConfigurationCommand] at hok
        repeat' split at hok
        all_goals cases hok
        all_goals exact ⟨rfl, rfl⟩
      obtain ⟨v, hv, rfl⟩ := map_eq_some_iff.mp h
      have hanswered : Answered d v := (answered_sendAccept hv).after hsame.1 hsame.2
      split_ifs
      · exact hanswered.quiet (quiet_told _)
      · exact hanswered

theorem answered_getConfigurationCommand (h : d.a2dpHandleGetConfigurationCommand p = some t) : Answered d t := by
  rw [a2dpHandleGetConfigurationCommand] at h
  split at h
  · exact answered_sendReject hvalid hroom h
  · split at h
    · exact answered_sendReject hvalid hroom h
    · next e hgrab =>
      split at h
      · cases h
      · exact answered_grabSink hgrab (answered_sendAccept h)

theorem answered_reconfigureCommand (h : d.a2dpHandleReconfigureCommand p = some t) : Answered d t := by
  rw [a2dpHandleReconfigureCommand] at h
  split at h
  · exact answered_sendReject hvalid hroom h
  · split at h
    · exact answered_sendReject hvalid hroom h
    · next e hok =>
      have hsame : e.log = d.log ∧ e.receivedLabel = d.receivedLabel := by
        rw [a2dpProcessReconfigureCommand] at hok
        repeat' split at hok
        all_goals cases hok
        exact ⟨rfl, rfl⟩
      obtain ⟨v, hv, rfl⟩ := map_eq_some_iff.mp h
      exact ((answered_sendAccept hv).after hsame.1 hsame.2).quiet (quiet_told _)

theorem answered_closeCommand (h : d.a2dpHandleCloseCommand p = some t) : Answered d t := by
  rw [a2dpHandleCloseCommand] at h
  split at h
  · exact answered_sendReject hvalid hroom h
  · split at h
    · exact answered_sendReject hvalid hroom h
    · next e hok =>
      rw [a2dpProcessCloseCommand] at hok
      split at hok
      · cases hok
      · obtain rfl := Except.ok.inj hok
        exact (answered_sendAccept h).after rfl rfl

theorem answered_suspendCommand (h : d.a2dpHandleSuspendCommand p = some t) : Answered d t := by
  rw [a2dpHandleSuspendCommand] at h
  split at h
  · exact answered_sendReject hvalid hroom h
  · split at h
    · exact answered_sendReject hvalid hroom h
    · obtain ⟨v, hv, rfl⟩ := map_eq_some_iff.mp h
      have hanswered : Answered d v := (answered_sendAccept hv).after rfl rfl
      exact hanswered.quiet (quiet_told _)

theorem answered_delayReportCommand (h : d.a2dpHandleDelayReportCommand p = some t) : Answered d t := by
  rw [a2dpHandleDelayReportCommand] at h
  obtain ⟨v, hv, rfl⟩ := map_eq_some_iff.mp h
  have hanswered : Answered d v := by
    split at hv
    · exact answered_sendReject hvalid hroom hv
    · split at hv
      · exact answered_sendReject hvalid hroom hv
      · next e hok =>
        have hsame : e.log = d.log ∧ e.receivedLabel = d.receivedLabel := by
          rw [a2dpProcessDelayReportCommand] at hok
          repeat' split at hok
          all_goals cases hok
          exact ⟨rfl, rfl⟩
        obtain ⟨w, hw, rfl⟩ := map_eq_some_iff.mp hv
        exact ((answered_sendAccept hw).after hsame.1 hsame.2).quiet (quiet_told _)
  split_ifs
  · exact hanswered.quiet quiet_continueStreamConnect
  · exact hanswered

omit hvalid hroom in
theorem answered_abortCommand (hseid : d.currentSep.isSome = true ∧ d.getLocalSeid = p.seid 2)
    (h : d.a2dpHandleAbortCommand p = some t) : Answered d t := by
  rw [a2dpHandleAbortCommand, if_pos hseid] at h
  obtain ⟨v, hv, rfl⟩ := map_eq_some_iff.mp h
  exact ((answered_sendAccept hv).quiet quiet_disconnectAllMedia).quiet quiet_reset

/-- The command is passed on to the application, which answers it. -/
def PassesOn (d : Device) (signal : Signal) (p : Packet) : Prop :=
  signal = .open ∧ d.streamState = .configured ∧ d.checkSeid (p.seid 2) = .ok () ∨
    signal = .start ∧ d.streamState ∈ [StreamState.open, .localStarting, .remoteStarting] ∧
      d.checkSeids (p.from 2) = .ok ()

/-- The command is one that its handler answers: not the general reject of an old device, and no abort of another
end point. -/
def HasAnswer (d : Device) (signal : Signal) (p : Packet) : Prop :=
  (signal = .null → d.profileVersion = .v13) ∧
    (signal = .abort → d.currentSep.isSome = true ∧ d.getLocalSeid = p.seid 2)

theorem answered_dispatch (hanswer : d.HasAnswer signal p) (hpass : ¬d.PassesOn signal p)
    (h : d.dispatchCommand signal p = some t) : Answered d t := by
  rw [dispatchCommand.eq_def] at h
  split at h
  · rw [if_neg (not_not.mpr (hanswer.1 rfl))] at h
    exact answered_sendGeneralReject h
  · exact answered_discoverCommand hvalid hroom h
  · exact answered_getCapabilitiesCommand hvalid hroom h
  · exact answered_setConfigurationCommand hvalid hroom h
  · exact answered_getConfigurationCommand hvalid hroom h
  · exact answered_reconfigureCommand hvalid hroom h
  · rw [a2dpHandleOpenCommand] at h
    split at h
    · exact answered_sendReject hvalid hroom h
    · next hstate =>
      split at h
      · exact answered_sendReject hvalid hroom h
      · next hseid => exact absurd (Or.inl ⟨rfl, not_not.mp hstate, hseid⟩) hpass
  · rw [a2dpHandleStartCommand] at h
    split at h
    · exact answered_sendReject hvalid hroom h
    · next hstate =>
      split at h
      · exact answered_sendReject hvalid hroom h
      · next hseid => exact absurd (Or.inr ⟨rfl, not_not.mp hstate, hseid⟩) hpass
  · exact answered_closeCommand hvalid hroom h
  · exact answered_suspendCommand hvalid hroom h
  · exact answered_abortCommand (hanswer.2 rfl) h
  · exact answered_sendGeneralReject h
  · exact answered_getCapabilitiesCommand hvalid hroom h
  · exact answered_delayReportCommand hvalid hroom h

end Commands

/-- A command that is passed on to the application leaves the stream waiting for it. -/
theorem dispatch_of_passesOn (hpass : d.PassesOn signal p)
    (h : d.dispatchCommand signal p = some t) :
    (signal = .open ∧ t = (d.a2dpSetStreamState .remoteOpening).told (.mediaOpenInd d.getLocalSeid)) ∨
      (signal = .start ∧ t = (d.a2dpSetStreamState .remoteStarting).told .mediaStartInd) := by
  obtain ⟨rfl, hstate, hseid⟩ | ⟨rfl, hstate, hseid⟩ := hpass
  · rw [dispatchCommand, a2dpHandleOpenCommand, if_neg (not_not.mpr hstate), hseid] at h
    exact Or.inl ⟨rfl, (some.inj h).symm⟩
  · rw [dispatchCommand, a2dpHandleStartCommand, if_neg (not_not.mpr hstate), hseid] at h
    exact Or.inr ⟨rfl, (some.inj h).symm⟩

end Device

end Cbps.A2dp
