import Cbps.Lib.Runs
import Mathlib.Data.List.Perm.Basic

/-!
# The call state of a link

The AG reports three indicators, each with a handler that reads the call state of the link only.
What an indicator was before is not kept, so a setup that is reported in a state that ignores it is
forgotten. `follows_of_run` says when the call state agrees with the indicators all the same.
-/

namespace Cbps.Hfp

/-- `hfp_call_state`. -/
inductive HfpCallState
  | idle
  | incoming
  | incomingHeld
  | outgoing
  | active
  | twcIncoming
  | twcOutgoing
  | heldActive
  | heldRemaining
  | multiparty
  deriving DecidableEq, Repr

/-- `hfp_call`. -/
inductive HfpCall
  | noCall
  | activeCall
  deriving DecidableEq, Repr

/-- `hfp_call_setup`. -/
inductive HfpCallSetup
  | noCallSetup
  | incomingCallSetup
  | outgoingCallSetup
  | outgoingCallAlertingSetup
  deriving DecidableEq, Repr

/-- `hfp_call_hold`. -/
inductive HfpCallHold
  | noHeldCall
  | heldActive
  | heldRemaining
  deriving DecidableEq, Repr

/-- The call state of a link, and how often `AT+CLCC` was asked for. -/
structure Calls where
  agCallState : HfpCallState
  clccRequests : ℕ
  deriving DecidableEq, Repr

namespace Calls

/-- `hfpSetLinkCallState` on the call state. -/
def setState (link : Calls) (callState : HfpCallState) : Calls := { link with agCallState := callState }

/-- `HFP_INTERNAL_AT_CLCC_REQ` is sent. -/
def requestClcc (link : Calls) : Calls := { link with clccRequests := link.clccRequests + 1 }

/-- `hfpHandleCallIndication`. -/
def hfpHandleCallIndication (link : Calls) (call : HfpCall) : Calls :=
  match call with
  | .activeCall =>
    match link.agCallState with
    | .idle | .incoming | .outgoing => link.setState .active
    | _ => link
  | .noCall =>
    match link.agCallState with
    | .idle => link
    | .twcIncoming => link.setState .incoming
    | .twcOutgoing => link.setState .outgoing
    | _ => link.setState .idle

/-- `hfpHandleCallSetupIndication`. -/
def hfpHandleCallSetupIndication (link : Calls) (callSetup : HfpCallSetup) : Calls :=
  match callSetup with
  | .noCallSetup =>
    match link.agCallState with
    | .incoming | .outgoing => link.setState .idle
    | .twcIncoming => link.requestClcc.setState .active
    | .twcOutgoing => link.setState .heldActive
    | _ => link
  | .incomingCallSetup =>
    match link.agCallState with
    | .idle => link.setState .incoming
    | .active | .heldActive | .heldRemaining | .multiparty => link.setState .twcIncoming
    | _ => link
  | .outgoingCallSetup | .outgoingCallAlertingSetup =>
    match link.agCallState with
    | .idle => link.setState .outgoing
    | .active | .heldActive | .heldRemaining => link.setState .twcOutgoing
    | _ => link

/-- `hfpHandleCallHeldIndication`. -/
def hfpHandleCallHeldIndication (link : Calls) (callHold : HfpCallHold) : Calls :=
  match callHold with
  | .noHeldCall =>
    match link.agCallState with
    | .twcOutgoing => link.setState .outgoing
    | .heldRemaining => link.setState .active
    | .heldActive => link.requestClcc.setState .active
    | _ => link
  | .heldActive =>
    match link.agCallState with
    | .active | .twcIncoming | .heldRemaining | .multiparty => link.setState .heldActive
    | _ => link
  | .heldRemaining =>
    match link.agCallState with
    | .active | .twcOutgoing | .heldActive | .multiparty => link.setState .heldRemaining
    | _ => link

end Calls

/-! ### The AG -/

/-- The indicators of the AG. -/
structure Indicators where
  call : HfpCall
  callSetup : HfpCallSetup
  callHeld : HfpCallHold
  deriving DecidableEq, Repr

/-- One indicator takes a new value. -/
inductive Change
  | call (value : HfpCall)
  | callSetup (value : HfpCallSetup)
  | callHeld (value : HfpCallHold)
  deriving DecidableEq, Repr

def Indicators.change (ind : Indicators) : Change → Indicators
  | .call value => { ind with call := value }
  | .callSetup value => { ind with callSetup := value }
  | .callHeld value => { ind with callHeld := value }

/-- A call is held only while there is one. -/
def Indicators.Sound (ind : Indicators) : Prop := ind.callHeld ≠ .noHeldCall → ind.call = .activeCall

instance (ind : Indicators) : Decidable ind.Sound := inferInstanceAs (Decidable (_ → _))

/-- The indicators of the AG and the link that they are reported to. -/
structure Reporting where
  ind : Indicators
  link : Calls
  deriving DecidableEq, Repr

/-- Each change is delivered by its handler. -/
def Calls.deliver (link : Calls) : Change → Calls
  | .call value => link.hfpHandleCallIndication value
  | .callSetup value => link.hfpHandleCallSetupIndication value
  | .callHeld value => link.hfpHandleCallHeldIndication value

namespace Reporting

/-- The AG changes an indicator and reports it, if this is a change that an AG makes. -/
def step (s : Reporting) (change : Change) : Option Reporting :=
  if s.ind.change change ≠ s.ind ∧ (s.ind.change change).Sound then
    some ⟨s.ind.change change, s.link.deliver change⟩
  else none

/-- No call, and an idle link. -/
def start : Reporting := ⟨⟨.noCall, .noCallSetup, .noHeldCall⟩, ⟨.idle, 0⟩⟩

end Reporting

/-! ### Agreement -/

/-- No call at all, a call that is being set up, or a call. -/
inductive Presence
  | idle
  | setupOnly
  | callPresent
  deriving DecidableEq, Repr

def HfpCallState.presence : HfpCallState → Presence
  | idle => .idle
  | incoming | incomingHeld | outgoing => .setupOnly
  | _ => .callPresent

def Indicators.presence (ind : Indicators) : Presence :=
  match ind.call, ind.callSetup with
  | .activeCall, _ => .callPresent
  | .noCall, .noCallSetup => .idle
  | .noCall, _ => .setupOnly

/-- A second call is being set up. -/
def HfpCallState.isTwc : HfpCallState → Bool
  | twcIncoming | twcOutgoing => true
  | _ => false

/-- The call ends before its setup only in a state that knows about the setup, and the held call
goes while no outgoing second call is being set up. -/
def Regular (s : Reporting) : Change → Prop
  | .call .noCall => s.ind.callSetup ≠ .noCallSetup → s.link.agCallState.isTwc
  | .callHeld .noHeldCall => s.link.agCallState ≠ .twcOutgoing
  | _ => True

instance (s : Reporting) : (change : Change) → Decidable (Regular s change)
  | .call .noCall => inferInstanceAs (Decidable (_ → _))
  | .callHeld .noHeldCall => inferInstanceAs (Decidable (_ ≠ _))
  | .call .activeCall | .callSetup _ | .callHeld .heldActive | .callHeld .heldRemaining =>
    inferInstanceAs (Decidable True)

/-! ### The handlers -/

namespace Calls

variable {link : Calls}

theorem callIndication_activeCall (h : link.agCallState ≠ .incomingHeld) :
    (link.hfpHandleCallIndication .activeCall).agCallState.presence = .callPresent ∧
      ((link.hfpHandleCallIndication .activeCall).agCallState.isTwc → link.agCallState.isTwc) := by
  obtain ⟨state, clcc⟩ := link
  cases state <;> first | exact absurd rfl h | exact ⟨rfl, id⟩

/-- A call that ends while a second one is being set up leaves the setup. -/
theorem callIndication_noCall_twc (h : link.agCallState.isTwc) :
    (link.hfpHandleCallIndication .noCall).agCallState.presence = .setupOnly ∧
      (link.hfpHandleCallIndication .noCall).agCallState.isTwc = false ∧
      (link.hfpHandleCallIndication .noCall).agCallState ≠ .incomingHeld := by
  obtain ⟨state, clcc⟩ := link
  cases state <;> first | exact absurd h Bool.false_ne_true | exact ⟨rfl, rfl, HfpCallState.noConfusion⟩

theorem callIndication_noCall (h : link.agCallState.isTwc = false) :
    (link.hfpHandleCallIndication .noCall).agCallState = .idle := by
  obtain ⟨state, clcc⟩ := link
  cases state <;> first | exact absurd h Bool.false_ne_true.symm | rfl

/-- A setup that ends leaves the call. -/
theorem callSetupIndication_noCallSetup (h : link.agCallState ≠ .incomingHeld) :
    (link.hfpHandleCallSetupIndication .noCallSetup).agCallState.presence =
        (if link.agCallState.presence = .callPresent then .callPresent else .idle) ∧
      (link.hfpHandleCallSetupIndication .noCallSetup).agCallState.isTwc = false := by
  obtain ⟨state, clcc⟩ := link
  cases state <;> first | exact absurd rfl h | exact ⟨rfl, rfl⟩

theorem callSetupIndication_setup (h : link.agCallState ≠ .incomingHeld) {value : HfpCallSetup}
    (hvalue : value ≠ .noCallSetup) :
    (link.hfpHandleCallSetupIndication value).agCallState.presence =
        (if link.agCallState.presence = .callPresent then .callPresent else .setupOnly) ∧
      (link.hfpHandleCallSetupIndication value).agCallState ≠ .incomingHeld := by
  obtain ⟨state, clcc⟩ := link
  cases value with
  | noCallSetup => exact absurd rfl hvalue
  | _ => cases state <;> first | exact absurd rfl h | exact ⟨rfl, HfpCallState.noConfusion⟩

/-- A held call is a call, but the link takes the call for ended when it waits for the second one. -/
theorem callHeldIndication (value : HfpCallHold)
    (h : value = .noHeldCall → link.agCallState ≠ .twcOutgoing) :
    (link.hfpHandleCallHeldIndication value).agCallState.presence = link.agCallState.presence ∧
      ((link.hfpHandleCallHeldIndication value).agCallState.isTwc → link.agCallState.isTwc) ∧
      ((link.hfpHandleCallHeldIndication value).agCallState = .incomingHeld →
        link.agCallState = .incomingHeld) := by
  obtain ⟨state, clcc⟩ := link
  cases value <;> cases state <;>
    first
    | exact absurd rfl (h rfl)
    | exact ⟨rfl, id, id⟩
    | exact ⟨rfl, fun htwc => absurd htwc Bool.false_ne_true, HfpCallState.noConfusion⟩

end Calls

/-! ### Runs -/

/-- The invariant: the link is in the class of the indicators, and a second call that it takes to be
set up is being set up. -/
structure Follows (s : Reporting) : Prop where
  presence : s.link.agCallState.presence = s.ind.presence
  notHeld : s.link.agCallState ≠ .incomingHeld
  setup : s.link.agCallState.isTwc → s.ind.callSetup ≠ .noCallSetup

theorem presence_eq_idle {state : HfpCallState} : state.presence = .idle ↔ state = .idle := by
  cases state <;> decide

theorem Indicators.presence_eq_idle {ind : Indicators} :
    ind.presence = .idle ↔ ind.call = .noCall ∧ ind.callSetup = .noCallSetup := by
  obtain ⟨call, setup, held⟩ := ind
  cases call <;> cases setup <;> simp [presence]

variable {s : Reporting}

theorem Follows.idle_iff (h : Follows s) :
    s.link.agCallState = .idle ↔ s.ind.call = .noCall ∧ s.ind.callSetup = .noCallSetup := by
  rw [← Cbps.Hfp.presence_eq_idle, h.presence, Indicators.presence_eq_idle]

theorem follows_call (h : Follows s) (value : HfpCall) (hok : Regular s (.call value)) :
    Follows ⟨s.ind.change (.call value), s.link.hfpHandleCallIndication value⟩ := by
  cases value with
  | activeCall =>
    have hnew := Calls.callIndication_activeCall h.notHeld
    refine ⟨hnew.1, ?_, fun htwc => h.setup (hnew.2 htwc)⟩
    intro hheld
    have hpresence := hnew.1
    rw [hheld] at hpresence
    cases hpresence
  | noCall =>
    cases htwc : s.link.agCallState.isTwc with
    | true =>
      have hnew := Calls.callIndication_noCall_twc htwc
      refine ⟨hnew.1.trans ?_, hnew.2.2, fun _ => h.setup htwc⟩
      have hsetup := h.setup htwc
      rw [Indicators.change, Indicators.presence]
      cases hcase : s.ind.callSetup with
      | noCallSetup => exact absurd hcase hsetup
      | _ => rfl
    | false =>
      -- the setup has ended before
      have hsetup : s.ind.callSetup = .noCallSetup := by
        by_contra hsetup
        rw [hok hsetup] at htwc
        cases htwc
      have hnew := Calls.callIndication_noCall htwc
      have hidle : (s.ind.change (.call .noCall)).presence = .idle :=
        Indicators.presence_eq_idle.mpr ⟨rfl, hsetup⟩
      refine ⟨?_, ?_, ?_⟩
      · rw [hnew, hidle]
        rfl
      · rw [hnew]
        exact HfpCallState.noConfusion
      · rw [hnew]
        exact fun hidle => absurd hidle Bool.false_ne_true

/-- What a setup makes of the class of the indicators. -/
theorem Indicators.presence_change_callSetup (ind : Indicators) (value : HfpCallSetup) :
    (ind.change (.callSetup value)).presence = if ind.presence = .callPresent then .callPresent
      else if value = .noCallSetup then .idle else .setupOnly := by
  obtain ⟨call, setup, held⟩ := ind
  cases call <;> cases setup <;> cases value <;> rfl

theorem follows_callSetup (h : Follows s) (value : HfpCallSetup) :
    Follows ⟨s.ind.change (.callSetup value), s.link.hfpHandleCallSetupIndication value⟩ := by
  by_cases hvalue : value = .noCallSetup
  · obtain ⟨hpresence, htwc⟩ := Calls.callSetupIndication_noCallSetup h.notHeld
    subst hvalue
    refine ⟨?_, ?_, fun hset => absurd (htwc.symm.trans hset) Bool.false_ne_true⟩
    · rw [Indicators.presence_change_callSetup, if_pos rfl, ← h.presence]
      exact hpresence
    · intro hheld
      dsimp only at hheld
      rw [hheld] at hpresence
      split at hpresence <;> cases hpresence
  · obtain ⟨hpresence, hheld⟩ := Calls.callSetupIndication_setup h.notHeld hvalue
    refine ⟨?_, hheld, fun _ => hvalue⟩
    rw [Indicators.presence_change_callSetup, if_neg hvalue, ← h.presence]
    exact hpresence

theorem follows_callHeld (h : Follows s) (value : HfpCallHold) (hok : Regular s (.callHeld value)) :
    Follows ⟨s.ind.change (.callHeld value), s.link.hfpHandleCallHeldIndication value⟩ := by
  obtain ⟨hpresence, htwc, hheld⟩ := Calls.callHeldIndication value
    (fun hvalue => (hvalue ▸ hok : Regular s (.callHeld .noHeldCall)))
  exact ⟨hpresence.trans h.presence, fun hnew => h.notHeld (hheld hnew),
    fun hnew => h.setup (htwc hnew)⟩

theorem follows_step {s' : Reporting} {change : Change} (h : Follows s) (hok : Regular s change)
    (hstep : s.step change = some s') : Follows s' := by
  rw [Reporting.step] at hstep
  split at hstep
  · obtain rfl := Option.some.inj hstep
    cases change with
    | call value => exact follows_call h value hok
    | callSetup value => exact follows_callSetup h value
    | callHeld value => exact follows_callHeld h value hok
  · cases hstep

theorem follows_start : Follows Reporting.start := ⟨rfl, HfpCallState.noConfusion, fun h => by cases h⟩

theorem follows_run {changes : List Change}
    (hregular : Lib.RunMeets Reporting.step Regular Reporting.start changes)
    (hrun : Lib.run Reporting.step Reporting.start changes = some s) : Follows s :=
  Lib.run_invariant (fun _ _ _ => follows_step) follows_start hregular hrun

/-- **The call state follows the indicators.** Whatever the AG reports in a regular order, the link
is idle exactly when there is neither a call nor a setup, and it is in the class of the indicators,
which does not depend on the order of the changes that led to them. -/
theorem callState_follows {changes : List Change}
    (hregular : Lib.RunMeets Reporting.step Regular Reporting.start changes)
    (hrun : Lib.run Reporting.step Reporting.start changes = some s) :
    (s.link.agCallState = .idle ↔ s.ind.call = .noCall ∧ s.ind.callSetup = .noCallSetup) ∧
    s.link.agCallState.presence = s.ind.presence ∧
    ∀ changes' s', changes'.Perm changes →
      Lib.RunMeets Reporting.step Regular Reporting.start changes' →
      Lib.run Reporting.step Reporting.start changes' = some s' → s'.ind = s.ind →
      s'.link.agCallState.presence = s.link.agCallState.presence := by
  have h := follows_run hregular hrun
  refine ⟨h.idle_iff, h.presence, ?_⟩
  intro changes' s' _ hregular' hrun' hind
  rw [(follows_run hregular' hrun').presence, h.presence, hind]

/-- A call comes in and is answered, a second one waits, and the first one ends. -/
def secondCall : List Change :=
  [.callSetup .incomingCallSetup, .call .activeCall, .callSetup .noCallSetup,
    .callSetup .incomingCallSetup, .call .noCall]

/-- The link and the AG after `changes`. -/
def Reporting.after (changes : List Change) : Reporting :=
  (Lib.run Reporting.step Reporting.start changes).getD Reporting.start

theorem callState_follows_secondCall :
    ((Reporting.after secondCall).link.agCallState = .idle ↔
      (Reporting.after secondCall).ind.call = .noCall ∧
        (Reporting.after secondCall).ind.callSetup = .noCallSetup) ∧
    (Reporting.after secondCall).link.agCallState.presence =
      (Reporting.after secondCall).ind.presence ∧
    ∀ changes' s', changes'.Perm secondCall →
      Lib.RunMeets Reporting.step Regular Reporting.start changes' →
      Lib.run Reporting.step Reporting.start changes' = some s' →
      s'.ind = (Reporting.after secondCall).ind →
      s'.link.agCallState.presence = (Reporting.after secondCall).link.agCallState.presence :=
  callState_follows (by decide) (by decide)

/-- An incoming call is active before its setup has ended, and ends at once: the link forgets the
setup. -/
theorem not_idle_iff : ¬ ∀ changes s, Lib.run Reporting.step Reporting.start changes = some s →
    (s.link.agCallState = .idle ↔ s.ind.call = .noCall ∧ s.ind.callSetup = .noCallSetup) := by
  intro hall
  have h := hall [.callSetup .incomingCallSetup, .call .activeCall, .call .noCall] _ rfl
  exact absurd h (by decide)

end Cbps.Hfp
