import Cbps.Aghfp.CallManager
import Cbps.Lib.Runs
import Cbps.Lib.Tally

/-!
# The indicators of a call

The hands-free unit follows a call by two indicators, the application by the confirms of its create requests
and by the indications that a call has ended. `told` is what the unit has been told over the present service
level connection.

A held call is accepted, or terminated, without an indicator: the application sends these itself. Otherwise
both indicators agree with the progress of the call, as long as the codec is not negotiated at a moment the
call manager does not expect (`Expected`).
-/

namespace Cbps.Aghfp

open Lib Option

/-- What the hands-free unit has been told last, and whether a held call has been terminated or accepted since
the last create request was taken up. -/
structure Told where
  call : CallStatus
  setup : CallSetupStatus
  held : Option Bool
  deriving DecidableEq, Repr

/-- One message. A new service level connection begins with both indicators at `none`. -/
def Told.after (t : Told) : Out → Told
  | .callIndicator status => { t with call := status }
  | .callSetupIndicator type => { t with setup := type }
  | .slcDisconnectInd _ => { t with call := .none, setup := .none }
  | .taken _ => { t with held := none }
  | .held accepted => { t with held := some accepted }
  | _ => t

/-- What the hands-free unit has been told. -/
def told (out : List Out) : Told := out.foldl Told.after ⟨.none, .none, none⟩

/-- A create request has been taken up. -/
def isTaken : Out → Bool
  | .taken _ => true
  | _ => false

/-- The confirm of a create request that has been taken up. The other confirms refuse a request at once. -/
def isConfirm : Out → Bool
  | .createCfm status => decide (status ∉ [.haveAudio, .invalidParams, .audioHandlerActive])
  | _ => false

/-- A call is confirmed as successful. -/
def isSuccess : Out → Bool
  | .createCfm status => decide (status = .success)
  | _ => false

/-- The end of a call is indicated. -/
def isTerminateInd : Out → Bool
  | .terminateInd => true
  | _ => false

/-- The create requests that have not been confirmed. -/
def unconfirmed (out : List Out) : Option ℕ := tally isTaken isConfirm out

/-- The successful calls whose end has not been indicated. -/
def established (out : List Out) : Option ℕ := tally isSuccess isTerminateInd out

/-- A call is being set up. -/
def CallProgress.settingUp : CallProgress → Bool
  | .waitResponse | .waitAudioOpen | .waitAudioCancel => true
  | _ => false

/-- A call has been set up. -/
def CallProgress.setUp : CallProgress → Bool
  | .complete | .waitAudioClose => true
  | _ => false

/-- Every create request that was taken up has been confirmed once, but for the call that is being set up, and
the end of every successful call has been indicated once, but for the call that has been set up. -/
structure Answered (aghfp : Instance) : Prop where
  confirmed : unconfirmed aghfp.out = some (if aghfp.callProgress.settingUp then 1 else 0)
  terminated : established aghfp.out = some (if aghfp.callProgress.setUp then 1 else 0)

/-- The indicators agree with the progress of the call. -/
structure InStep (aghfp : Instance) : Prop where
  idle : aghfp.callProgress = .idle → (told aghfp.out).call = .none ∧ (told aghfp.out).setup = .none
  complete : aghfp.callProgress = .complete →
    (told aghfp.out).setup = .none ∧ ((told aghfp.out).held ≠ some true → (told aghfp.out).call = .active)

/-- The indicators agree with the progress of the call, unless the application has to send them. -/
structure InStepUnlessHeld (aghfp : Instance) : Prop where
  idle : aghfp.callProgress = .idle →
    (told aghfp.out).call = .none ∧ ((told aghfp.out).held = none → (told aghfp.out).setup = .none)
  complete : aghfp.callProgress = .complete → (told aghfp.out).held = none →
    (told aghfp.out).setup = .none ∧ (told aghfp.out).call = .active

/-- An instance of the hands-free profile with a service level connection, before its first call. -/
structure Fresh (aghfp : Instance) : Prop where
  handsfree : aghfp.usingHsp = false
  indicators : aghfp.indicatorsEnable = true
  idle : aghfp.callProgress = .idle
  out : aghfp.out = []

/-- In every run, the indicators agree with the progress of the call, and the application is answered. -/
def AlwaysInStep : Prop :=
  ∀ aghfp es t, Fresh aghfp → Lib.run Instance.step aghfp es = some t → InStep t ∧ Answered t

namespace Instance

variable (aghfp : Instance)

/-- A create request opens the audio channel at once, and this begins with a negotiation of the codec. -/
def createNegotiates (callType : CallType) (inBand : Bool) (callFlags : CallFlags) : Bool :=
  let created := { aghfp with callType := callType, inBand := inBand }.createCall callFlags
  created.opensAudio && (created.negotiatesWbs || created.negotiatesCsr)

/-- The first answer to a call does not come in the middle of a negotiation of the codec. -/
def Answerable : Prop := aghfp.callProgress = .waitResponse → aghfp.negotiating = true → .responded ∈ aghfp.callFlags

/-- A termination with these flags does not come between the answer and the end of the negotiation that it has
started, or it disconnects the audio first. -/
def Terminable (callFlags : CallFlags) : Prop :=
  aghfp.callProgress = .waitResponse → .responded ∈ aghfp.callFlags →
    (aghfp.setCallFlags callFlags).cancelsAudio = true

/-- The codec is not negotiated at a moment that the call manager does not expect. -/
def Expected : Input → Prop
  | .callCreate callType inBand => aghfp.callProgress = .idle → aghfp.createNegotiates callType inBand ∅ = false
  | .callCreateAudio callType inBand packetType overrideWbs =>
    aghfp.callProgress = .idle → ∀ stored ∈ aghfp.aghfpStoreAudioParams packetType overrideWbs,
      stored.createNegotiates callType inBand {.openAudio} = false
  | .callAnswer | .callRemoteAnswered | .answer => aghfp.Answerable
  | .callTerminate keepSink => aghfp.Terminable (terminateFlags keepSink)
  | .hangUp => aghfp.Terminable {.closeAudio}
  | .heldCallTerminate => aghfp.callProgress = .waitResponse → .responded ∉ aghfp.callFlags
  | _ => True

instance : Decidable aghfp.Answerable := inferInstanceAs (Decidable (_ → _ → _))

instance (callFlags : CallFlags) : Decidable (aghfp.Terminable callFlags) :=
  inferInstanceAs (Decidable (_ → _ → _))

instance (input : Input) : Decidable (aghfp.Expected input) := by
  unfold Expected
  split <;> infer_instance

end Instance

/-! ### What the inputs do to what has been told -/

/-- What the progress of a call, the unit and the application have to do with each other. -/
structure View where
  hsp : Bool
  enable : Bool
  progress : CallProgress
  responded : Bool
  told : Told
  unconfirmed : Option ℕ
  established : Option ℕ

/-- One message. -/
def View.after (v : View) (o : Out) : View :=
  { v with
    told := v.told.after o
    unconfirmed := v.unconfirmed.bind (tallyStep isTaken isConfirm · o)
    established := v.established.bind (tallyStep isSuccess isTerminateInd · o) }

namespace Instance

variable (aghfp : Instance)

/-- The view of an instance. -/
def view : View :=
  ⟨aghfp.usingHsp, aghfp.indicatorsEnable, aghfp.callProgress, decide (.responded ∈ aghfp.callFlags),
    Aghfp.told aghfp.out, unconfirmed aghfp.out, established aghfp.out⟩

@[simp] theorem view_send (o : Out) : (aghfp.send o).view = aghfp.view.after o := by
  have htold : Aghfp.told (aghfp.out ++ [o]) = (Aghfp.told aghfp.out).after o := List.foldl_append
  have htally : ∀ opens closes : Out → Bool, tally opens closes (aghfp.out ++ [o]) =
      (tally opens closes aghfp.out).bind (tallyStep opens closes · o) := by
    intro opens closes
    rw [tally, List.foldlM_append]
    exact congrArg _ (funext fun n => bind_fun_some _)
  rw [view, view, View.after, send]
  dsimp only
  rw [htold, unconfirmed, htally, established, htally]
  rfl

/-- A message that answers nothing. -/
theorem after_of_uncounted {o : Out} (v : View) (hconfirm : isTaken o = false ∧ isConfirm o = false)
    (hend : isSuccess o = false ∧ isTerminateInd o = false) : v.after o = { v with told := v.told.after o } := by
  have hcount : ∀ (opens closes : Out → Bool), opens o = false → closes o = false →
      (tallyStep opens closes · o) = some := by
    intro opens closes hopens hcloses
    funext n
    rw [tallyStep, hopens, hcloses, if_neg Bool.false_ne_true, if_neg Bool.false_ne_true]
  rw [View.after, hcount _ _ hconfirm.1 hconfirm.2, hcount _ _ hend.1 hend.2, bind_fun_some,
    bind_fun_some]

/-- A message that changes nothing of the view. -/
theorem after_of_neutral {o : Out} (v : View) (htold : ∀ t : Told, t.after o = t)
    (hconfirm : isTaken o = false ∧ isConfirm o = false) (hend : isSuccess o = false ∧ isTerminateInd o = false) :
    v.after o = v := by
  rw [after_of_uncounted v hconfirm hend, htold]

@[simp] theorem view_setCallFlags (f : CallFlags) : (aghfp.setCallFlags f).view =
    { aghfp.view with responded := aghfp.view.responded || decide (.responded ∈ f) } := by
  simp only [view, setCallFlags, Finset.mem_union, Bool.decide_or]
  rfl

@[simp] theorem view_clearCallFlags (f : CallFlags) : (aghfp.clearCallFlags f).view =
    { aghfp.view with responded := aghfp.view.responded && decide (.responded ∉ f) } := by
  simp only [view, clearCallFlags, Finset.mem_sdiff, Bool.decide_and]
  rfl

@[simp] theorem view_clearAllCallFlags : aghfp.clearAllCallFlags.view = { aghfp.view with responded := false } :=
  rfl

@[simp] theorem view_setCallProgress (progress : CallProgress) : (aghfp.setCallProgress progress).view =
    { aghfp.view with
      progress := progress
      responded := if progress = .idle then false else aghfp.view.responded } := by
  rw [setCallProgress]
  split
  · rfl
  · rfl

@[simp] theorem view_aghfpSetState (state : AghfpState) : (aghfp.aghfpSetState state).view = aghfp.view := rfl

theorem view_aghfpSendCallIndicator (status : CallStatus) (h : aghfp.view.enable = true) :
    (aghfp.aghfpSendCallIndicator status).view =
      { aghfp.view with told := { aghfp.view.told with call := status } } := by
  have hsent : aghfp.aghfpSendCallIndicator status = aghfp.send (.callIndicator status) := if_pos h
  rw [hsent, view_send]
  exact after_of_uncounted _ ⟨rfl, rfl⟩ ⟨rfl, rfl⟩

theorem view_aghfpSendCallSetupIndicator (type : CallSetupStatus) (h : aghfp.view.enable = true) :
    (aghfp.aghfpSendCallSetupIndicator type).view =
      { aghfp.view with told := { aghfp.view.told with setup := type } } := by
  have hsent : aghfp.aghfpSendCallSetupIndicator type = aghfp.send (.callSetupIndicator type) := if_pos h
  rw [hsent, view_send]
  exact after_of_uncounted _ ⟨rfl, rfl⟩ ⟨rfl, rfl⟩

/-- Both indicators. -/
theorem view_sendBoth (status : CallStatus) (h : aghfp.view.enable = true) :
    ((aghfp.aghfpSendCallIndicator status).aghfpSendCallSetupIndicator .none).view =
      { aghfp.view with told := ⟨status, .none, aghfp.view.told.held⟩ } := by
  have hcall := aghfp.view_aghfpSendCallIndicator status h
  rw [view_aghfpSendCallSetupIndicator _ _ (by rw [hcall]; exact h), hcall]

@[simp] theorem view_inBandRingToneEnable (enable : Bool) :
    (aghfp.send (.inBandRingToneEnable enable)).view = aghfp.view := by
  rw [view_send]
  exact after_of_neutral _ (fun _ => rfl) ⟨rfl, rfl⟩ ⟨rfl, rfl⟩

@[simp] theorem view_sendCallCreateWaitingIndToApp : aghfp.sendCallCreateWaitingIndToApp.view = aghfp.view := by
  rw [sendCallCreateWaitingIndToApp]
  split
  · rw [view_send]
    exact after_of_neutral _ (fun _ => rfl) ⟨rfl, rfl⟩ ⟨rfl, rfl⟩
  · rw [view_send]
    exact after_of_neutral _ (fun _ => rfl) ⟨rfl, rfl⟩ ⟨rfl, rfl⟩
  · rfl

@[simp] theorem view_sendRingNotifications : aghfp.sendRingNotifications.view = aghfp.view := by
  have hring : ((aghfp.send .ringAlert).send (.ringRepeat aghfp.ringRepeatInterval)).view = aghfp.view := by
    rw [view_send, after_of_neutral _ (fun _ => rfl) ⟨rfl, rfl⟩ ⟨rfl, rfl⟩, view_send]
    exact after_of_neutral _ (fun _ => rfl) ⟨rfl, rfl⟩ ⟨rfl, rfl⟩
  rw [sendRingNotifications]
  split
  · dsimp only
    split
    · rw [view_send, after_of_neutral _ (fun _ => rfl) ⟨rfl, rfl⟩ ⟨rfl, rfl⟩]
      exact hring
    · exact hring
  · rfl

@[simp] theorem view_aghfpAudioConnectRequest : aghfp.aghfpAudioConnectRequest.view = aghfp.view := by
  have hsend : ∀ (a : Audio) (o : Out), (∀ t : Told, t.after o = t) → isTaken o = false ∧ isConfirm o = false →
      isSuccess o = false ∧ isTerminateInd o = false → ({ aghfp with audio := a }.send o).view = aghfp.view := by
    intro a o htold hconfirm hend
    rw [view_send]
    exact after_of_neutral _ htold hconfirm hend
  rw [aghfpAudioConnectRequest]
  split
  · rw [startAudioConnectRequest]
    split
    · exact hsend _ _ (fun _ => rfl) ⟨rfl, rfl⟩ ⟨rfl, rfl⟩
    · dsimp only
      split
      · exact hsend _ _ (fun _ => rfl) ⟨rfl, rfl⟩ ⟨rfl, rfl⟩
      · exact hsend _ _ (fun _ => rfl) ⟨rfl, rfl⟩ ⟨rfl, rfl⟩
  · rfl

@[simp] theorem view_aghfpAudioDisconnectRequest : aghfp.aghfpAudioDisconnectRequest.view = aghfp.view := by
  rw [aghfpAudioDisconnectRequest]
  split
  · rw [view_send]
    exact after_of_neutral _ (fun _ => rfl) ⟨rfl, rfl⟩ ⟨rfl, rfl⟩
  · rfl

/-- A negotiation is going on after the request only if the request has started it. -/
theorem negotiates_of_negotiating (h : aghfp.aghfpAudioConnectRequest.negotiating = true) :
    (aghfp.negotiatesWbs || aghfp.negotiatesCsr) = true := by
  rw [aghfpAudioConnectRequest] at h
  split at h
  · rw [startAudioConnectRequest] at h
    split at h
    · next hwbs => rw [hwbs, Bool.true_or]
    · dsimp only at h
      split at h
      · next hcsr => rw [hcsr, Bool.or_true]
      · -- the connection is being opened
        have hopening : ∀ (p : Prop) [Decidable p],
            (if p then AudioConnectState.connectingEsco else .connectingSco) ≠ .codecConnect := by
          intro p _
          split
          · exact AudioConnectState.noConfusion
          · exact AudioConnectState.noConfusion
        exact absurd (of_decide_eq_true h) (hopening _)
  · next hstate => exact absurd (Or.inr (of_decide_eq_true h)) hstate

end Instance

/-! ### What the progress of a call promises -/

/-- What the view is kept to, by the progress of the call. A call that waits has been answered exactly if the
flag says so: then the indicators are those of an active call already. -/
structure View.Good (v : View) : Prop where
  hsp : v.hsp = false
  enable : v.enable = true
  unconfirmed : v.unconfirmed = some (if v.progress.settingUp then 1 else 0)
  established : v.established = some (if v.progress.setUp then 1 else 0)
  told : match v.progress with
    | .idle => v.told.call = .none ∧ (v.told.held = none → v.told.setup = .none)
    | .waitResponse | .waitAudioOpen =>
      if v.responded then v.told.setup = .none ∧ v.told.call = .active else v.told.call = .none
    | .complete => v.told.held = none → v.told.setup = .none ∧ v.told.call = .active
    | .waitAudioClose => v.told.held = none → v.told.setup = .none
    | .waitAudioCancel => True
    | .waitInBandSetup => False

/-- A call is being set up: one create request waits for its confirm. -/
structure View.Pending (v : View) : Prop where
  hsp : v.hsp = false
  enable : v.enable = true
  unconfirmed : v.unconfirmed = some 1
  established : v.established = some 0

/-- A call has been set up: one call waits for the indication of its end. -/
structure View.Up (v : View) : Prop where
  hsp : v.hsp = false
  enable : v.enable = true
  unconfirmed : v.unconfirmed = some 0
  established : v.established = some 1

namespace Instance

variable {aghfp : Instance}

theorem pending (h : aghfp.view.Good) (hp : aghfp.callProgress.settingUp = true)
    (hp' : aghfp.callProgress.setUp = false) : aghfp.view.Pending := by
  refine ⟨h.hsp, h.enable, ?_, ?_⟩
  · exact h.unconfirmed.trans (congrArg some (if_pos hp))
  · exact h.established.trans (congrArg some (if_neg (Bool.eq_false_iff.mp hp')))

theorem up (h : aghfp.view.Good) (hp : aghfp.callProgress.settingUp = false)
    (hp' : aghfp.callProgress.setUp = true) : aghfp.view.Up := by
  refine ⟨h.hsp, h.enable, ?_, ?_⟩
  · exact h.unconfirmed.trans (congrArg some (if_neg (Bool.eq_false_iff.mp hp)))
  · exact h.established.trans (congrArg some (if_pos hp'))

/-- A call that is set up. -/
theorem good_complete (h : aghfp.view.Pending)
    (ht : aghfp.view.told.held = none → aghfp.view.told.setup = .none ∧ aghfp.view.told.call = .active) :
    aghfp.complete.view.Good := by
  simp only [complete, aghfpSendCallCreateCfmToApp, view_send, view_aghfpSetState, view_setCallProgress]
  refine ⟨h.hsp, h.enable, ?_, ?_, ht⟩
  · simp only [View.after, h.unconfirmed]
    rfl
  · simp only [View.after, h.established]
    rfl

variable {status : CallCreateStatus}

/-- A call that cannot be set up. -/
theorem good_giveUp (h : aghfp.view.Pending)
    (hstatus : status = .failure ∨ status = .aborted)
    (ht : aghfp.view.told.call = .none ∧ (aghfp.view.told.held = none → aghfp.view.told.setup = .none)) :
    (aghfp.giveUp status).view.Good := by
  simp only [giveUp, aghfpSendCallCreateCfmToApp, view_send, view_aghfpSetState, view_setCallProgress]
  refine ⟨h.hsp, h.enable, ?_, ?_, ht⟩
  · simp only [View.after, h.unconfirmed]
    rcases hstatus with rfl | rfl
    · rfl
    · rfl
  · simp only [View.after, h.established]
    rcases hstatus with rfl | rfl
    · rfl
    · rfl

/-- The indicators of a call that is over are sent before it is given up. -/
theorem good_sendNone (h : aghfp.view.Pending)
    (hstatus : status = .failure ∨ status = .aborted) : (aghfp.sendNone.giveUp status).view.Good := by
  have hview : aghfp.sendNone.view = { aghfp.view with told := ⟨.none, .none, aghfp.view.told.held⟩ } := by
    rw [sendNone, if_neg (by rw [show aghfp.usingHsp = false from h.hsp]; exact Bool.false_ne_true)]
    exact view_sendBoth _ _ h.enable
  refine good_giveUp ?_ hstatus ?_
  · rw [hview]
    exact ⟨h.hsp, h.enable, h.unconfirmed, h.established⟩
  · rw [hview]
    exact ⟨rfl, fun _ => rfl⟩

/-- The end of a call that had been set up. -/
theorem good_endCall (h : aghfp.view.Up) (ht : aghfp.view.told.held = none → aghfp.view.told.setup = .none) :
    aghfp.endCall.view.Good := by
  rw [endCall, if_neg (by rw [show aghfp.usingHsp = false from h.hsp]; exact Bool.false_ne_true)]
  simp only [sendCallTerminateIndToApp, view_send, view_aghfpSetState, view_setCallProgress,
    view_aghfpSendCallIndicator _ _ h.enable]
  refine ⟨h.hsp, h.enable, ?_, ?_, rfl, ht⟩
  · simp only [View.after, h.unconfirmed]
    rfl
  · simp only [View.after, h.established]
    rfl

/-- The service level connection is removed, after the application has been answered. -/
theorem view_aghfpSendSlcDisconnectIndToApp (status : DisconnectStatus) :
    (aghfp.aghfpSendSlcDisconnectIndToApp status).view =
      { aghfp.view with enable := true, told := ⟨.none, .none, aghfp.view.told.held⟩ } := by
  have hview : (aghfp.aghfpSendSlcDisconnectIndToApp status).view =
      { (aghfp.send (.slcDisconnectInd status)).view with enable := true } := rfl
  rw [hview, view_send, after_of_uncounted _ ⟨rfl, rfl⟩ ⟨rfl, rfl⟩]
  rfl

theorem good_slcRemoved (h : aghfp.view.Pending) (callFlags : CallFlags) :
    (aghfp.slcRemoved callFlags).view.Good := by
  rw [slcRemoved, view_aghfpSendSlcDisconnectIndToApp, aghfpSendCallCreateCfmToApp, view_send, view_aghfpSetState,
    view_setCallProgress]
  refine ⟨h.hsp, rfl, ?_, ?_, rfl, fun _ => rfl⟩
  · simp only [View.after, h.unconfirmed]
    rfl
  · simp only [View.after, h.established]
    rfl

theorem good_slcRemovedCall (h : aghfp.view.Up) (callFlags : CallFlags) :
    (aghfp.slcRemovedCall callFlags).view.Good := by
  rw [slcRemovedCall, view_aghfpSendSlcDisconnectIndToApp, sendCallTerminateIndToApp, view_send, view_aghfpSetState,
    view_setCallProgress]
  refine ⟨h.hsp, rfl, ?_, ?_, rfl, fun _ => rfl⟩
  · simp only [View.after, h.unconfirmed]
    rfl
  · simp only [View.after, h.established]
    rfl

/-- The audio is disconnected before a call is given up. -/
theorem good_waitAudioCancel (h : aghfp.view.Pending) :
    (aghfp.aghfpAudioDisconnectRequest.setCallProgress .waitAudioCancel).view.Good := by
  rw [view_setCallProgress, view_aghfpAudioDisconnectRequest]
  exact ⟨h.hsp, h.enable, h.unconfirmed, h.established, trivial⟩

/-- The audio is connected, with a negotiation of the codec only where the progress stays as it was. -/
theorem good_waitAudio (h : aghfp.view.Pending)
    (ht : if aghfp.view.responded then aghfp.view.told.setup = .none ∧ aghfp.view.told.call = .active
      else aghfp.view.told.call = .none)
    (hprogress : (aghfp.negotiatesWbs || aghfp.negotiatesCsr) = true → aghfp.callProgress = .waitResponse) :
    aghfp.waitAudio.view.Good := by
  rw [waitAudio]
  split
  · next hnegotiating =>
    have hwait : aghfp.view.progress = .waitResponse := hprogress (negotiates_of_negotiating _ hnegotiating)
    rw [view_aghfpAudioConnectRequest]
    refine ⟨h.hsp, h.enable, ?_, ?_, ?_⟩
    · rw [h.unconfirmed, hwait]
      rfl
    · rw [h.established, hwait]
      rfl
    · rw [hwait]
      exact ht
  · rw [view_setCallProgress, view_aghfpAudioConnectRequest]
    exact ⟨h.hsp, h.enable, h.unconfirmed, h.established, ht⟩

/-- The response is awaited. -/
theorem good_waitResponse (h : aghfp.view.Pending)
    (ht : if aghfp.view.responded then aghfp.view.told.setup = .none ∧ aghfp.view.told.call = .active
      else aghfp.view.told.call = .none) : aghfp.waitResponse.view.Good := by
  have hview : aghfp.waitResponse.view = { aghfp.view with progress := .waitResponse } := by
    rw [waitResponse]
    dsimp only
    rw [view_setCallProgress, view_sendCallCreateWaitingIndToApp]
    split
    · rw [view_sendRingNotifications]
      rfl
    · rfl
  rw [hview]
  exact ⟨h.hsp, h.enable, h.unconfirmed, h.established, ht⟩

/-! ### The states of a call -/

/-- A create request has been taken up, and nothing has been answered yet. -/
structure Started (aghfp : Instance) : Prop where
  pending : aghfp.view.Pending
  responded : aghfp.view.responded = false
  call : aghfp.view.told.call = .none

theorem Started.setCallFlags (h : aghfp.Started) {f : CallFlags} (hf : .responded ∉ f) :
    (aghfp.setCallFlags f).Started := by
  refine ⟨?_, ?_, ?_⟩
  · rw [view_setCallFlags]
    exact ⟨h.pending.hsp, h.pending.enable, h.pending.unconfirmed, h.pending.established⟩
  · rw [view_setCallFlags, h.responded, Bool.false_or]
    exact decide_eq_false hf
  · rw [view_setCallFlags]
    exact h.call

theorem Started.clearCallFlags (h : aghfp.Started) (f : CallFlags) : (aghfp.clearCallFlags f).Started := by
  refine ⟨?_, ?_, ?_⟩
  · rw [view_clearCallFlags]
    exact ⟨h.pending.hsp, h.pending.enable, h.pending.unconfirmed, h.pending.established⟩
  · rw [view_clearCallFlags, h.responded, Bool.false_and]
  · rw [view_clearCallFlags]
    exact h.call

theorem Started.sendSetup (h : aghfp.Started) (type : CallSetupStatus) :
    (aghfp.aghfpSendCallSetupIndicator type).Started := by
  have hview := aghfp.view_aghfpSendCallSetupIndicator type h.pending.enable
  refine ⟨?_, ?_, ?_⟩
  · rw [hview]
    exact ⟨h.pending.hsp, h.pending.enable, h.pending.unconfirmed, h.pending.established⟩
  · rw [hview]
    exact h.responded
  · rw [hview]
    exact h.call

theorem Started.of_view (h : aghfp.Started) {s : Instance} (hview : s.view = aghfp.view) : s.Started :=
  ⟨hview ▸ h.pending, hview ▸ h.responded, hview ▸ h.call⟩

theorem Started.usingHsp (h : aghfp.Started) : aghfp.usingHsp = false := h.pending.hsp

/-- `CallEventCreate` takes up a create request. -/
theorem started_createCall (h : aghfp.view.Good) (hidle : aghfp.callProgress = .idle) {f : CallFlags}
    (hf : .responded ∉ f) : (aghfp.createCall f).Started := by
  have htaken : (aghfp.send (.taken aghfp.callType)).clearAllCallFlags.Started := by
    have hunconfirmed : aghfp.view.unconfirmed = some 0 := h.unconfirmed.trans (by
      rw [show aghfp.view.progress = .idle from hidle]
      rfl)
    have hestablished : aghfp.view.established = some 0 := h.established.trans (by
      rw [show aghfp.view.progress = .idle from hidle]
      rfl)
    have htold := h.told
    rw [show aghfp.view.progress = .idle from hidle] at htold
    refine ⟨⟨?_, ?_, ?_, ?_⟩, rfl, ?_⟩
    · exact h.hsp
    · exact h.enable
    · rw [view_clearAllCallFlags, view_send, View.after, hunconfirmed]
      rfl
    · rw [view_clearAllCallFlags, view_send, View.after, hestablished]
      rfl
    · rw [view_clearAllCallFlags, view_send]
      exact htold.1
  have hflags := htaken.setCallFlags hf
  rw [createCall]
  dsimp only
  split
  · -- an incoming call
    refine Started.of_view ?_ (view_aghfpSetState _ _)
    have hincoming := hflags.setCallFlags (f := {.responseReqd, .ringAlertsReqd}) (by decide)
    rw [if_neg (by rw [hincoming.usingHsp]; exact Bool.false_ne_true)]
    split
    · exact ((hincoming.sendSetup _).setCallFlags (by decide)).of_view (view_inBandRingToneEnable _ _)
    · exact (hincoming.sendSetup _).of_view (view_inBandRingToneEnable _ _)
  · -- an outgoing call
    refine Started.of_view ?_ (view_aghfpSetState _ _)
    have houtgoing := ((hflags.setCallFlags (f := {.responseReqd, .responseAfterAudio}) (by decide)).clearCallFlags
      {.ringAlertsReqd}).sendSetup .outgoing
    split
    · exact houtgoing.sendSetup _
    · exact houtgoing
  · -- a call that is transferred
    have htransfer := hflags.clearCallFlags {.responseReqd, .responseAfterAudio, .ringAlertsReqd}
    rw [if_neg (by rw [htransfer.usingHsp]; exact Bool.false_ne_true)]
    exact htransfer

/-- The call is set up from there, if no codec is negotiated first. -/
theorem Started.good_startCall (h : aghfp.Started)
    (hok : (aghfp.opensAudio && (aghfp.negotiatesWbs || aghfp.negotiatesCsr)) = false) :
    aghfp.startCall.view.Good := by
  have hwait : ∀ s : Instance, s.Started → (if s.view.responded then
      s.view.told.setup = .none ∧ s.view.told.call = .active else s.view.told.call = .none) := by
    intro s hs
    rw [hs.responded, if_neg Bool.false_ne_true]
    exact hs.call
  rw [startCall]
  split
  · next hopens =>
    have hclear := h.clearCallFlags {.openAudio}
    rw [hopens, Bool.true_and] at hok
    dsimp only
    rw [if_neg (by rw [hclear.usingHsp, Bool.false_and]; exact Bool.false_ne_true)]
    refine good_waitAudio hclear.pending (hwait _ hclear) fun hnegotiates => ?_
    exact Bool.noConfusion (hnegotiates.symm.trans hok)
  · split
    · have hclear := h.clearCallFlags {.responseReqd}
      exact good_waitResponse hclear.pending (hwait _ hclear)
    · have hview := aghfp.view_sendBoth .active h.pending.enable
      refine good_complete ?_ ?_
      · rw [hview]
        exact ⟨h.pending.hsp, h.pending.enable, h.pending.unconfirmed, h.pending.established⟩
      · rw [hview]
        exact fun _ => ⟨rfl, rfl⟩

/-- Flags other than the one of the answer. -/
theorem view_setCallFlags_of_notMem {f : CallFlags} (hf : .responded ∉ f) :
    (aghfp.setCallFlags f).view = aghfp.view := by
  rw [view_setCallFlags, decide_eq_false hf, Bool.or_false]

theorem view_clearCallFlags_of_notMem {f : CallFlags} (hf : .responded ∉ f) :
    (aghfp.clearCallFlags f).view = aghfp.view := by
  rw [view_clearCallFlags, decide_eq_true hf, Bool.and_true]

/-- `CallEventAudioConnected`, for a call that waits for its audio. -/
theorem good_audioOpened (h : aghfp.view.Pending)
    (ht : if aghfp.view.responded then aghfp.view.told.setup = .none ∧ aghfp.view.told.call = .active
      else aghfp.view.told.call = .none) : aghfp.audioOpened.view.Good := by
  rw [audioOpened]
  split
  · exact good_sendNone h (Or.inl rfl)
  · split
    · -- the termination that was queued
      have hclear : (aghfp.clearCallFlags {.terminate}).view = aghfp.view := view_clearCallFlags_of_notMem (by decide)
      dsimp only
      split
      · refine good_waitAudioCancel ?_
        rw [view_clearCallFlags_of_notMem (by decide), hclear]
        exact h
      · refine good_sendNone ?_ (Or.inr rfl)
        rw [hclear]
        exact h
    · split
      · have hclear : (aghfp.clearCallFlags {.responseReqd}).view = aghfp.view :=
          view_clearCallFlags_of_notMem (by decide)
        refine good_waitResponse ?_ ?_
        · rw [hclear]
          exact h
        · rw [hclear]
          exact ht
      · dsimp only
        split
        · -- the call has not been answered
          have hview := aghfp.view_sendBoth .active h.enable
          refine good_complete ?_ ?_
          · rw [view_clearAllCallFlags, hview]
            exact ⟨h.hsp, h.enable, h.unconfirmed, h.established⟩
          · rw [view_clearAllCallFlags, hview]
            exact fun _ => ⟨rfl, rfl⟩
        · next hanswered =>
          have hhsp : aghfp.usingHsp = false := h.hsp
          have hresponded : aghfp.view.responded = true := by
            rw [hhsp, Bool.not_false, Bool.and_true, Bool.not_eq_true', Bool.not_eq_false] at hanswered
            exact hanswered
          rw [hresponded, if_pos rfl] at ht
          refine good_complete ?_ ?_
          · rw [view_clearAllCallFlags]
            exact ⟨h.hsp, h.enable, h.unconfirmed, h.established⟩
          · rw [view_clearAllCallFlags]
            exact fun _ => ht

/-- The rest of `CallEventAnswer`, after the indicators. -/
theorem good_of_answer (h : aghfp.view.Pending) (hprogress : aghfp.callProgress = .waitResponse)
    (hresponded : aghfp.view.responded = true)
    (ht : aghfp.view.told.setup = .none ∧ aghfp.view.told.call = .active) :
    (if aghfp.checkCallFlag .openAudio && !aghfp.haveAudio then (aghfp.clearCallFlags {.openAudio}).waitAudio
      else aghfp.complete).view.Good := by
  split
  · have hclear : (aghfp.clearCallFlags {.openAudio}).view = aghfp.view := view_clearCallFlags_of_notMem (by decide)
    refine good_waitAudio ?_ ?_ fun _ => hprogress
    · rw [hclear]
      exact h
    · rw [hclear, hresponded, if_pos rfl]
      exact ht
  · exact good_complete h fun _ => ht

/-- `CallEventAnswer`, for a call that waits for it. -/
theorem good_answered (h : aghfp.view.Good) (hprogress : aghfp.callProgress = .waitResponse)
    (hok : aghfp.Answerable) (f : CallFlags) : (aghfp.answered f).view.Good := by
  have hpending : aghfp.view.Pending := pending h (by rw [hprogress]; rfl) (by rw [hprogress]; rfl)
  have hset : (aghfp.setCallFlags (f ∪ {.responded})).view = { aghfp.view with responded := true } := by
    rw [view_setCallFlags, decide_eq_true (Finset.mem_union_right f (Finset.mem_singleton_self _)), Bool.or_true]
  -- the indicators of an active call have been sent by now
  have hsent : ∀ s : Instance, s.view.Pending → s.callProgress = .waitResponse → s.view.responded = true →
      (s.view.told.setup = .none ∧ s.view.told.call = .active) →
      (let aghfp :=
        if s.checkCallFlag .closeAudio then
          let aghfp := s.clearCallFlags {.openAudio, .closeAudio}
          if aghfp.haveAudio then aghfp.aghfpAudioDisconnectRequest else aghfp
        else s
      if aghfp.checkCallFlag .openAudio && !aghfp.haveAudio then (aghfp.clearCallFlags {.openAudio}).waitAudio
      else aghfp.complete).view.Good := by
    intro s hs hwait hresponded ht
    have hview : ∀ s' : Instance, s'.view = s.view → (if s'.checkCallFlag .openAudio && !s'.haveAudio then
        (s'.clearCallFlags {.openAudio}).waitAudio else s'.complete).view.Good := by
      intro s' hs'
      refine good_of_answer (hs' ▸ hs) ?_ (hs' ▸ hresponded) (hs' ▸ ht)
      exact (congrArg View.progress hs').trans hwait
    dsimp only
    split
    · split
      · exact hview _ ((view_aghfpAudioDisconnectRequest _).trans (view_clearCallFlags_of_notMem (by decide)))
      · exact hview _ (view_clearCallFlags_of_notMem (by decide))
    · exact hview _ rfl
  have htold := h.told
  rw [show aghfp.view.progress = .waitResponse from hprogress] at htold
  rw [answered]
  by_cases hnegotiating : aghfp.negotiating = true
  · have hresponded : aghfp.view.responded = true := decide_eq_true (hok hprogress hnegotiating)
    simp only [hresponded, if_true] at htold
    have hcond : ¬(!(aghfp.setCallFlags (f ∪ {.responded})).usingHsp &&
        !(aghfp.setCallFlags (f ∪ {.responded})).negotiating) = true := by
      rw [show (aghfp.setCallFlags (f ∪ {.responded})).negotiating = true from hnegotiating, Bool.not_true,
        Bool.and_false]
      exact Bool.false_ne_true
    dsimp only
    rw [if_neg hcond]
    refine hsent _ ?_ hprogress ?_ ?_
    · rw [hset]
      exact ⟨hpending.hsp, hpending.enable, hpending.unconfirmed, hpending.established⟩
    · rw [hset]
    · rw [hset]
      exact htold
  · have hcond : (!(aghfp.setCallFlags (f ∪ {.responded})).usingHsp &&
        !(aghfp.setCallFlags (f ∪ {.responded})).negotiating) = true := by
      rw [show (aghfp.setCallFlags (f ∪ {.responded})).usingHsp = false from h.hsp,
        show (aghfp.setCallFlags (f ∪ {.responded})).negotiating = false from Bool.eq_false_iff.mpr hnegotiating]
      rfl
    have hview := (aghfp.setCallFlags (f ∪ {.responded})).view_sendBoth .active (by rw [hset]; exact h.enable)
    rw [hset] at hview
    dsimp only
    rw [if_pos hcond]
    refine hsent _ ?_ ?_ ?_ ?_
    · rw [hview]
      exact ⟨hpending.hsp, hpending.enable, hpending.unconfirmed, hpending.established⟩
    · exact (congrArg View.progress hview).trans hprogress
    · rw [hview]
    · rw [hview]
      exact ⟨rfl, rfl⟩

/-- `CallEventTerminate`, for a call that waits for its answer. -/
theorem good_terminated (h : aghfp.view.Good) (hprogress : aghfp.callProgress = .waitResponse) {f : CallFlags}
    (hf : .responded ∉ f) (hok : aghfp.Terminable f) : (aghfp.terminated f).view.Good := by
  have hpending : aghfp.view.Pending := pending h (by rw [hprogress]; rfl) (by rw [hprogress]; rfl)
  have hset : (aghfp.setCallFlags f).view = aghfp.view := view_setCallFlags_of_notMem hf
  rw [terminated]
  dsimp only
  split
  · refine good_waitAudioCancel ?_
    rw [hset]
    exact hpending
  · next hkeeps =>
    have hresponded : aghfp.view.responded = false := decide_eq_false fun hmem => hkeeps (hok hprogress hmem)
    have htold := h.told
    rw [show aghfp.view.progress = .waitResponse from hprogress] at htold
    simp only [hresponded, Bool.false_eq_true, if_false] at htold
    have hhsp : (aghfp.setCallFlags f).usingHsp = false := h.hsp
    have hview := (aghfp.setCallFlags f).view_aghfpSendCallSetupIndicator .none (by rw [hset]; exact h.enable)
    rw [hset] at hview
    rw [hhsp, if_neg Bool.false_ne_true]
    refine good_giveUp ?_ (Or.inr rfl) ?_
    · rw [hview]
      exact ⟨hpending.hsp, hpending.enable, hpending.unconfirmed, hpending.established⟩
    · rw [hview]
      exact ⟨htold, fun _ => rfl⟩

/-- The mark of a request for a held call. -/
theorem view_held (accepted : Bool) : (aghfp.send (.held accepted)).view =
    { aghfp.view with told := { aghfp.view.told with held := some accepted } } := by
  rw [view_send]
  exact after_of_uncounted _ ⟨rfl, rfl⟩ ⟨rfl, rfl⟩

/-- `CallEventTerminateHeld`, for a call that waits for its answer. -/
theorem good_heldTerminated (h : aghfp.view.Good) (hprogress : aghfp.callProgress = .waitResponse)
    (hok : .responded ∉ aghfp.callFlags) :
    (((aghfp.send (.held false)).setCallFlags {.closeAudio}).giveUp .aborted).view.Good := by
  have hpending : aghfp.view.Pending := pending h (by rw [hprogress]; rfl) (by rw [hprogress]; rfl)
  have hresponded : aghfp.view.responded = false := decide_eq_false hok
  have htold := h.told
  rw [show aghfp.view.progress = .waitResponse from hprogress] at htold
  simp only [hresponded, Bool.false_eq_true, if_false] at htold
  have hview : ((aghfp.send (.held false)).setCallFlags {.closeAudio}).view = _ :=
    (view_setCallFlags_of_notMem (by decide)).trans (view_held false)
  refine good_giveUp ?_ (Or.inr rfl) ?_
  · rw [hview]
    exact ⟨hpending.hsp, hpending.enable, hpending.unconfirmed, hpending.established⟩
  · rw [hview]
    exact ⟨htold, fun hnone => absurd hnone (by simp)⟩

/-- `CallEventAcceptHeld`, for a call that waits for its answer. -/
theorem good_heldAccepted (h : aghfp.view.Pending) (f : CallFlags) : (aghfp.heldAccepted f).view.Good := by
  have hview : ∀ s : Instance, s.view.Pending → s.view.told.held = some true →
      (if s.haveAudio then s.aghfpAudioDisconnectRequest else s).complete.view.Good := by
    intro s hs hheld
    split
    · refine good_complete ?_ ?_
      · rw [view_aghfpAudioDisconnectRequest]
        exact hs
      · rw [view_aghfpAudioDisconnectRequest, hheld]
        exact fun hnone => absurd hnone (by simp)
    · refine good_complete hs ?_
      rw [hheld]
      exact fun hnone => absurd hnone (by simp)
  rw [heldAccepted]
  refine hview _ ?_ ?_
  · rw [view_clearCallFlags, view_aghfpSetState, view_setCallFlags, view_held]
    exact ⟨h.hsp, h.enable, h.unconfirmed, h.established⟩
  · rw [view_clearCallFlags, view_aghfpSetState, view_setCallFlags, view_held]

/-- `CallEventTerminate`, for a call that has been set up. -/
theorem good_hungUp (h : aghfp.view.Good) (hprogress : aghfp.callProgress = .complete) {f : CallFlags}
    (hf : .responded ∉ f) : (aghfp.hungUp f).view.Good := by
  have hup : aghfp.view.Up := up h (by rw [hprogress]; rfl) (by rw [hprogress]; rfl)
  have hset : (aghfp.setCallFlags f).view = aghfp.view := view_setCallFlags_of_notMem hf
  have htold := h.told
  rw [show aghfp.view.progress = .complete from hprogress] at htold
  rw [hungUp]
  split
  · rw [view_setCallProgress, view_aghfpAudioDisconnectRequest, view_clearCallFlags, hset]
    exact ⟨hup.hsp, hup.enable, hup.unconfirmed, hup.established, fun hnone => (htold hnone).1⟩
  · refine good_endCall ?_ ?_
    · rw [hset]
      exact hup
    · rw [hset]
      exact fun hnone => (htold hnone).1

/-- `CallEventAudioTransfer`, for a call that has been set up. -/
theorem view_transferAudio {f : CallFlags} (hf : .responded ∉ f) : (aghfp.transferAudio f).view = aghfp.view := by
  have hset : (aghfp.setCallFlags f).view = aghfp.view := view_setCallFlags_of_notMem hf
  rw [transferAudio]
  split
  · split
    · rw [view_aghfpAudioDisconnectRequest, hset]
    · exact hset
  · split
    · split
      · rw [view_aghfpAudioConnectRequest, hset]
      · exact hset
    · exact hset

/-! ### The events -/

theorem good_of_same (h : aghfp.view.Good) {t : Instance} (ht : some aghfp = some t) : t.view.Good :=
  some.inj ht ▸ h

variable {e : CallEvent} {f : CallFlags} {t : Instance}

theorem good_manageCallIdle (h : aghfp.view.Good) (hprogress : aghfp.callProgress = .idle) (hf : .responded ∉ f)
    (hcreate : e = .create → ((aghfp.createCall f).opensAudio && ((aghfp.createCall f).negotiatesWbs ||
      (aghfp.createCall f).negotiatesCsr)) = false)
    (ht : aghfp.manageCallIdle e f = some t) : t.view.Good := by
  cases e with
  | create =>
    obtain rfl := some.inj ht
    exact (started_createCall h hprogress hf).good_startCall (hcreate rfl)
  | slcRemoved =>
    obtain rfl := some.inj ht
    have hunconfirmed := h.unconfirmed
    have hestablished := h.established
    rw [show aghfp.view.progress = .idle from hprogress] at hunconfirmed hestablished
    rw [view_aghfpSendSlcDisconnectIndToApp, view_aghfpSetState, view_setCallProgress]
    exact ⟨h.hsp, rfl, hunconfirmed, hestablished, rfl, fun _ => rfl⟩
  | _ => exact good_of_same h ht

theorem good_manageCallWaitAudioOpen (h : aghfp.view.Good) (hprogress : aghfp.callProgress = .waitAudioOpen)
    (hf : .responded ∉ f) (ht : aghfp.manageCallWaitAudioOpen e f = some t) : t.view.Good := by
  have hpending : aghfp.view.Pending := pending h (by rw [hprogress]; rfl) (by rw [hprogress]; rfl)
  have htold := h.told
  rw [show aghfp.view.progress = .waitAudioOpen from hprogress] at htold
  cases e with
  | terminate =>
    obtain rfl := some.inj ht
    have hmem : CallFlag.responded ∉ f ∪ {.terminate} := by
      rw [Finset.mem_union, not_or]
      exact ⟨hf, by decide⟩
    rw [view_setCallFlags_of_notMem hmem]
    exact h
  | audioConnected =>
    obtain rfl := some.inj ht
    have hset : (aghfp.setCallFlags f).view = aghfp.view := view_setCallFlags_of_notMem hf
    refine good_audioOpened ?_ ?_
    · rw [hset]
      exact hpending
    · rw [hset]
      exact htold
  | slcRemoved =>
    obtain rfl := some.inj ht
    exact good_slcRemoved hpending _
  | _ => exact good_of_same h ht

theorem good_manageCallWaitResponse (h : aghfp.view.Good) (hprogress : aghfp.callProgress = .waitResponse)
    (hf : .responded ∉ f) (hanswer : e = .answer ∨ e = .remoteAnswered → aghfp.Answerable)
    (hterminate : e = .terminate → aghfp.Terminable f)
    (hheld : e = .terminateHeld → .responded ∉ aghfp.callFlags)
    (ht : aghfp.manageCallWaitResponse e f = some t) : t.view.Good := by
  have hpending : aghfp.view.Pending := pending h (by rw [hprogress]; rfl) (by rw [hprogress]; rfl)
  cases e with try obtain rfl := some.inj ht
  | answer => exact good_answered h hprogress (hanswer (Or.inl rfl)) _
  | remoteAnswered => exact good_answered h hprogress (hanswer (Or.inr rfl)) _
  | terminate => exact good_terminated h hprogress hf (hterminate rfl)
  | terminateHeld => exact good_heldTerminated h hprogress (hheld rfl)
  | acceptHeld => exact good_heldAccepted hpending _
  | ring =>
    rw [view_sendRingNotifications]
    exact h
  | slcRemoved => exact good_slcRemoved hpending _
  | _ => exact good_of_same h ht

theorem good_manageCallWaitAudioCancel (h : aghfp.view.Good) (hprogress : aghfp.callProgress = .waitAudioCancel)
    (hf : .responded ∉ f) (ht : aghfp.manageCallWaitAudioCancel e f = some t) : t.view.Good := by
  have hpending : aghfp.view.Pending := pending h (by rw [hprogress]; rfl) (by rw [hprogress]; rfl)
  cases e with
  | audioDisconnected =>
    rw [manageCallWaitAudioCancel] at ht
    split at ht
    · obtain rfl := some.inj ht
      refine good_sendNone ?_ (Or.inr rfl)
      rw [view_clearCallFlags_of_notMem (by decide), view_setCallFlags_of_notMem hf]
      exact hpending
    · cases ht
  | slcRemoved =>
    obtain rfl := some.inj ht
    exact good_slcRemoved hpending _
  | _ => exact good_of_same h ht

theorem good_manageCallConnected (h : aghfp.view.Good) (hprogress : aghfp.callProgress = .complete)
    (hf : .responded ∉ f) (ht : aghfp.manageCallConnected e f = some t) : t.view.Good := by
  have hup : aghfp.view.Up := up h (by rw [hprogress]; rfl) (by rw [hprogress]; rfl)
  cases e with
  | terminate =>
    obtain rfl := some.inj ht
    exact good_hungUp h hprogress hf
  | audioTransfer =>
    obtain rfl := some.inj ht
    rw [view_transferAudio hf]
    exact h
  | slcRemoved =>
    obtain rfl := some.inj ht
    exact good_slcRemovedCall hup _
  | _ => exact good_of_same h ht

theorem good_manageCallWaitAudioClose (h : aghfp.view.Good) (hprogress : aghfp.callProgress = .waitAudioClose)
    (hf : .responded ∉ f) (ht : aghfp.manageCallWaitAudioClose e f = some t) : t.view.Good := by
  have hup : aghfp.view.Up := up h (by rw [hprogress]; rfl) (by rw [hprogress]; rfl)
  have htold := h.told
  rw [show aghfp.view.progress = .waitAudioClose from hprogress] at htold
  cases e with
  | audioDisconnected =>
    rw [manageCallWaitAudioClose] at ht
    split at ht
    · obtain rfl := some.inj ht
      have hview : ((aghfp.setCallFlags f).clearCallFlags {.success}).view = aghfp.view := by
        rw [view_clearCallFlags_of_notMem (by decide), view_setCallFlags_of_notMem hf]
      refine good_endCall ?_ ?_
      · rw [hview]
        exact hup
      · rw [hview]
        exact htold
    · cases ht
  | slcRemoved =>
    obtain rfl := some.inj ht
    exact good_slcRemovedCall hup _
  | _ => exact good_of_same h ht

/-- An event keeps what the progress of the call promises. -/
theorem good_aghfpManageCall (h : aghfp.view.Good) (hf : .responded ∉ f)
    (hcreate : e = .create → aghfp.callProgress = .idle →
      ((aghfp.createCall f).opensAudio && ((aghfp.createCall f).negotiatesWbs ||
        (aghfp.createCall f).negotiatesCsr)) = false)
    (hanswer : e = .answer ∨ e = .remoteAnswered → aghfp.Answerable)
    (hterminate : e = .terminate → aghfp.Terminable f)
    (hheld : e = .terminateHeld → aghfp.callProgress = .waitResponse → .responded ∉ aghfp.callFlags)
    (ht : aghfp.aghfpManageCall e f = some t) : t.view.Good := by
  rw [aghfpManageCall] at ht
  split at ht
  · next hprogress => exact good_manageCallIdle h hprogress hf (fun he => hcreate he hprogress) ht
  · next hprogress => exact good_manageCallWaitAudioOpen h hprogress hf ht
  · next hprogress =>
    exact good_manageCallWaitResponse h hprogress hf hanswer hterminate (fun he => hheld he hprogress) ht
  · next hprogress => exact good_manageCallWaitAudioCancel h hprogress hf ht
  · next hprogress => exact good_manageCallConnected h hprogress hf ht
  · next hprogress => exact good_manageCallWaitAudioClose h hprogress hf ht
  · cases ht

/-- An event that is no create request, no answer and no termination. -/
theorem good_other (h : aghfp.view.Good) (hf : .responded ∉ f)
    (he : e ∉ [CallEvent.create, .answer, .remoteAnswered, .terminate, .terminateHeld])
    (ht : aghfp.aghfpManageCall e f = some t) : t.view.Good := by
  refine good_aghfpManageCall h hf ?_ ?_ ?_ ?_ ht
  · rintro rfl
    exact absurd (by decide) he
  · rintro (rfl | rfl)
    · exact absurd (by decide) he
    · exact absurd (by decide) he
  · rintro rfl
    exact absurd (by decide) he
  · rintro rfl
    exact absurd (by decide) he

/-- A request that is refused at once. -/
theorem good_refuse (h : aghfp.view.Good)
    (hstatus : status ∈ [CallCreateStatus.haveAudio, .invalidParams, .audioHandlerActive]) :
    (aghfp.aghfpSendCallCreateCfmToApp status).view.Good := by
  have hview : (aghfp.aghfpSendCallCreateCfmToApp status).view = aghfp.view := by
    rw [aghfpSendCallCreateCfmToApp, view_send]
    refine after_of_neutral _ (fun _ => rfl) ⟨rfl, ?_⟩ ⟨?_, rfl⟩
    · exact decide_eq_false fun hnot => hnot hstatus
    · refine decide_eq_false ?_
      rintro rfl
      exact absurd hstatus (by decide)
  rw [hview]
  exact h

/-- A create request that passes its checks. -/
theorem good_create (h : aghfp.view.Good) {callType : CallType} {inBand : Bool} (hf : .responded ∉ f)
    (hok : aghfp.callProgress = .idle → aghfp.createNegotiates callType inBand f = false)
    (ht : aghfp.create callType inBand f = some t) : t.view.Good := by
  have hstored : ({ aghfp with callType := callType, inBand := inBand } : Instance).view.Good := h
  refine good_aghfpManageCall hstored hf (fun _ hidle => hok hidle) ?_ ?_ ?_ ht
  · rintro (he | he)
    · cases he
    · cases he
  · intro he
    cases he
  · intro he
    cases he

/-- An answer. -/
theorem good_answer (h : aghfp.view.Good) (hf : .responded ∉ f) (hok : aghfp.Answerable)
    (he : e = .answer ∨ e = .remoteAnswered) (ht : aghfp.aghfpManageCall e f = some t) : t.view.Good := by
  refine good_aghfpManageCall h hf ?_ (fun _ => hok) ?_ ?_ ht
  · rintro rfl
    exact absurd he (by decide)
  · rintro rfl
    exact absurd he (by decide)
  · rintro rfl
    exact absurd he (by decide)

/-- A termination. -/
theorem good_terminate (h : aghfp.view.Good) (hf : .responded ∉ f) (hok : aghfp.Terminable f)
    (ht : aghfp.aghfpManageCall .terminate f = some t) : t.view.Good := by
  refine good_aghfpManageCall h hf ?_ ?_ (fun _ => hok) ?_ ht
  · intro he
    cases he
  · rintro (he | he)
    · cases he
    · cases he
  · intro he
    cases he

/-- Every input keeps what the progress of the call promises. -/
theorem good_step (h : aghfp.view.Good) {input : Input} (hok : aghfp.Expected input)
    (ht : aghfp.step input = some t) : t.view.Good := by
  cases input with
  | callCreate callType inBand =>
    change aghfp.aghfpHandleCallCreate callType inBand = some t at ht
    rw [aghfpHandleCallCreate] at ht
    split at ht
    · exact good_create h (by decide) hok ht
    · obtain rfl := some.inj ht
      exact good_refuse h (by decide)
  | callCreateAudio callType inBand packetType overrideWbs =>
    change aghfp.aghfpHandleCallCreateAudio callType inBand packetType overrideWbs = some t at ht
    rw [aghfpHandleCallCreateAudio] at ht
    split at ht
    · split at ht
      · next hstate =>
        obtain ⟨stored, hstored, hview⟩ : ∃ stored,
            aghfp.aghfpStoreAudioParams packetType overrideWbs = some stored ∧ stored.view = aghfp.view :=
          ⟨_, if_pos hstate, rfl⟩
        rw [hstored] at ht
        refine good_create (hview ▸ h) (by decide) (fun hidle => ?_) ht
        exact hok ((congrArg View.progress hview).symm.trans hidle) stored hstored
      · obtain rfl := some.inj ht
        exact good_refuse h (by decide)
    · obtain rfl := some.inj ht
      exact good_refuse h (by decide)
  | callAnswer =>
    change aghfp.aghfpHandleCallAnswer = some t at ht
    rw [aghfpHandleCallAnswer] at ht
    split at ht
    · exact good_answer h (by decide) hok (Or.inl rfl) ht
    · exact good_of_same h ht
  | callRemoteAnswered =>
    change aghfp.aghfpHandleCallRemoteAnswered = some t at ht
    rw [aghfpHandleCallRemoteAnswered] at ht
    split at ht
    · exact good_answer h (by decide) hok (Or.inr rfl) ht
    · exact good_of_same h ht
  | callTerminate keepSink =>
    change aghfp.aghfpHandleCallTerminate keepSink = some t at ht
    rw [aghfpHandleCallTerminate] at ht
    split at ht
    · refine good_terminate h ?_ hok ht
      cases keepSink
      · decide
      · decide
    · exact good_of_same h ht
  | heldCallTerminate =>
    change aghfp.aghfpHandleHeldCallTerminate = some t at ht
    rw [aghfpHandleHeldCallTerminate] at ht
    split at ht
    · refine good_aghfpManageCall h (by decide) ?_ ?_ ?_ (fun _ => hok) ht
      · intro he
        cases he
      · rintro (he | he)
        · cases he
        · cases he
      · intro he
        cases he
    · exact good_of_same h ht
  | heldCallAccept =>
    change aghfp.aghfpHandleHeldCallAccept = some t at ht
    rw [aghfpHandleHeldCallAccept] at ht
    split at ht
    · exact good_other h (by decide) (by decide) ht
    · exact good_of_same h ht
  | setCallerIdDetails details =>
    obtain rfl := some.inj ht
    have hview : (aghfp.aghfpHandleSetCallerIdDetails details).view = aghfp.view := by
      rw [aghfpHandleSetCallerIdDetails, view_send]
      exact after_of_neutral _ (fun _ => rfl) ⟨rfl, rfl⟩ ⟨rfl, rfl⟩
    rw [hview]
    exact h
  | answer => exact good_answer h (by decide) hok (Or.inl rfl) ht
  | hangUp => exact good_terminate h (by decide) hok ht
  | audioTransfer | ring => exact good_other h (by decide) (by decide) ht
  | audioConnected success | audioDisconnected success =>
    refine good_other h ?_ (by decide) ht
    cases success
    · decide
    · decide
  | slcRemoved status =>
    refine good_other h ?_ (by decide) ht
    cases status <;> decide
  | audio audio => exact some.inj ht ▸ h

end Instance

/-! ### The runs -/

/-- **The indicators of a call.** In every run in which the codec is not negotiated at a moment that the call
manager does not expect, the indicators agree with the progress of the call, unless a held call was terminated
or accepted since the last create request: then the application has to send them. Every create request is
confirmed once, and the end of every successful call is indicated once. -/
theorem inStep_of_run {aghfp t : Instance} {es : List Input} (hfresh : Fresh aghfp)
    (hok : Lib.RunMeets Instance.step Instance.Expected aghfp es) (hrun : Lib.run Instance.step aghfp es = some t) :
    InStepUnlessHeld t ∧ Answered t := by
  have hinit : aghfp.view.Good := by
    refine ⟨hfresh.handsfree, hfresh.indicators, ?_, ?_, ?_⟩
    · change unconfirmed aghfp.out = some (if aghfp.callProgress.settingUp then 1 else 0)
      rw [hfresh.out, hfresh.idle]
      rfl
    · change established aghfp.out = some (if aghfp.callProgress.setUp then 1 else 0)
      rw [hfresh.out, hfresh.idle]
      rfl
    · rw [show aghfp.view.progress = .idle from hfresh.idle,
        show aghfp.view.told = ⟨.none, .none, none⟩ from congrArg told hfresh.out]
      exact ⟨rfl, fun _ => rfl⟩
  have hgood : t.view.Good :=
    run_invariant (fun _ _ _ h hok ht => Instance.good_step h hok ht) hinit hok hrun
  have htold := hgood.told
  refine ⟨⟨fun hidle => ?_, fun hcomplete => ?_⟩, hgood.unconfirmed, hgood.established⟩
  · rw [show t.view.progress = .idle from hidle] at htold
    exact htold
  · rw [show t.view.progress = .complete from hcomplete] at htold
    exact htold

/-- Audio fields with a codec that both sides have. -/
def codecAudio : Audio := ⟨0, .disconnected, 0x38, false, true, true, .wbs, false, 3, 2, 2, 0⟩

/-- An instance that is connected. -/
def connected : Instance :=
  ⟨.handsfree16, true, true, true, 5000, .slcConnected, .idle, ∅, .incoming, false, ⟨0, 0, 0, []⟩, codecAudio, []⟩

/-- An incoming call that is answered and negotiates its codec, then its end. -/
def answeredCall : List Input :=
  [.callCreate .incoming false, .answer, .audio { codecAudio with connectionState := .codecConnect, useCodec := 2 },
    .answer, .audio { codecAudio with connectionState := .connected, useCodec := 2, audioSink := 1 },
    .audioConnected true, .hangUp, .audio codecAudio, .audioDisconnected true]

theorem fresh_connected : Fresh connected := ⟨rfl, rfl, rfl, rfl⟩

theorem inStep_answeredCall : ∃ t, Lib.run Instance.step connected answeredCall = some t ∧
    InStepUnlessHeld t ∧ Answered t := by
  have hrun : (Lib.run Instance.step connected answeredCall).isSome = true := by decide
  obtain ⟨t, ht⟩ := isSome_iff_exists.mp hrun
  exact ⟨t, ht, inStep_of_run fresh_connected (by decide) ht⟩

/-- An incoming call that is accepted as a held call leaves the set-up indicator as it is. -/
theorem not_alwaysInStep : ¬AlwaysInStep := by
  intro hall
  have hrun : (Lib.run Instance.step connected [.callCreate .incoming false, .heldCallAccept]).any fun t =>
      decide (t.callProgress = .complete ∧ (told t.out).setup = .incoming) := by decide
  obtain ⟨t, ht, hresult⟩ := (any_eq_true _ _).mp hrun
  obtain ⟨hcomplete, hsetup⟩ := of_decide_eq_true hresult
  have hnone := ((hall _ _ t fresh_connected ht).1.complete hcomplete).1
  exact absurd (hsetup.symm.trans hnone) (by decide)

end Cbps.Aghfp
