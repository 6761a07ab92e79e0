import Cbps.SinkApp.Multipoint

/-!
# What the device shows of two call states

What is promised after each indication: the state of the device is a function of the two current call states, it is the
connected one exactly without any call, a call that rings is shown as an incoming or a waiting one, and at most one SCO
has the priority of an active call. The branches do not agree on such a function: many look only at the call state that
has changed, or compare the other one by its place in the enumeration, and one branch leaves the state as it is. The
priorities are kept apart only if the other call has an order number from that of an outgoing call on, and disconnecting
the primary link gives its priority to both. `agrees_of_run` says that in every run whose steps avoid these the promise
is kept, with `shown` as the function.
-/

namespace Cbps.SinkApp

open Option

open Cbps.Lib
open Cbps.Hfp (HfpCallState)

/-- What a state of the device shows of the calls. Where the audio is does not count. -/
inductive Shown
  | nothing
  | connected
  | incoming
  | incomingOnHold
  | outgoing
  | active
  | waiting
  | onHold
  | multicall
  deriving DecidableEq, Repr

def SinkState.shows : SinkState → Shown
  | .connected | .a2dpStreaming => .connected
  | .outgoingCallEstablish => .outgoing
  | .incomingCallEstablish => .incoming
  | .activeCallSCO | .activeCallNoSCO => .active
  | .threeWayCallWaiting => .waiting
  | .threeWayCallOnHold => .onHold
  | .threeWayMulticall => .multicall
  | .incomingCallOnHold => .incomingOnHold
  | .limbo | .connectable | .connDiscoverable | .testMode | .lowBattery => .nothing

/-- A call that rings, or waits. -/
def Ringing (a : HfpCallState) : Prop := a = .incoming ∨ a = .twcIncoming

instance (a : HfpCallState) : Decidable (Ringing a) := inferInstanceAs (Decidable (a = _ ∨ a = _))

/-- The one link with a call. -/
def shownAlone : HfpCallState → Shown
  | .idle => .connected
  | .incoming => .incoming
  | .incomingHeld => .incomingOnHold
  | .outgoing => .outgoing
  | .active => .active
  | .twcIncoming => .waiting
  | .twcOutgoing | .heldActive | .heldRemaining => .onHold
  | .multiparty => .multicall

/-- Two call states, as the device is to show them. -/
def shown (a b : HfpCallState) : Shown :=
  if b = .idle then shownAlone a
  else if a = .idle then shownAlone b
  else if Ringing a ∨ Ringing b then .waiting
  else if a = .multiparty ∨ b = .multiparty then .multicall
  else if a = .incomingHeld ∧ b = .incomingHeld then .incomingOnHold
  else .onHold

theorem shown_comm (a b : HfpCallState) : shown a b = shown b a := by
  cases a <;> cases b <;> rfl

theorem shown_eq_connected_iff (a b : HfpCallState) : shown a b = .connected ↔ a = .idle ∧ b = .idle := by
  cases a <;> cases b <;> decide

theorem shown_of_ringing {a b : HfpCallState} (h : Ringing a ∨ Ringing b) :
    shown a b = .incoming ∨ shown a b = .waiting := by
  revert h
  cases a <;> cases b <;> decide

namespace TheSink

variable {s s' : TheSink} {p : Priority} {env : Env} {e : Event}

/-- The call state of an AG. An AG that is gone has no call. -/
def call (s : TheSink) (p : Priority) : HfpCallState := (s.calls.get p).getD .idle

/-- **The promise** in a state, where `f` says what is to be shown. -/
structure Agrees (f : HfpCallState → HfpCallState → Shown) (s : TheSink) : Prop where
  shows : s.device.shows = f (s.call .primary) (s.call .secondary)
  connected : s.device.shows = .connected ↔ s.call .primary = .idle ∧ s.call .secondary = .idle
  ringing : (∃ p, Ringing (s.call p)) → s.device.shows = .incoming ∨ s.device.shows = .waiting
  sco : ¬ (s.sco .primary = .activeCall ∧ s.sco .secondary = .activeCall)

/-- The next message is an indication of a call state. -/
def Indicates (s : TheSink) (e : Event) : Prop :=
  ∃ env p callState queue, e = .deliver env ∧ s.queue = .callStateInd p callState :: queue

/-- After each indication the promise is kept, with one function for all runs. -/
def AlwaysAgrees : Prop :=
  ∃ f, ∀ es s e s', run step initial es = some s → s.Indicates e → s.step e = some s' → s'.Agrees f

/-- The branch of a call state takes account of the other one: `before` is what the device shows. -/
def TakesAccount (env : Env) (before : Shown) : HfpCallState → HfpCallState → Prop
  | .idle, b =>
    (b = .idle → env.rssiPairing = true → before = .connected) ∧ b ≠ .incomingHeld ∧
      (b = .heldRemaining → before = .onHold)
  | .incoming, _ | .twcIncoming, _ => True
  | .incomingHeld, b | .twcOutgoing, b | .heldActive, b => ¬ Ringing b ∧ b ≠ .multiparty
  | .outgoing, b | .active, b => b ≠ .twcIncoming ∧ b ≠ .incomingHeld ∧ b ≠ .multiparty
  | .multiparty, b => ¬ Ringing b
  | .heldRemaining, b => before = shown .heldRemaining b

/-- The SCO of the link gets the priority of an active call. -/
def Activates (s : TheSink) (p : Priority) (a : HfpCallState) : Prop :=
  a = .outgoing ∨ a = .twcOutgoing ∨ a = .active ∧ s.sco p = .inbandRing

/-- The condition on an indication. -/
structure AdmitsInd (s : TheSink) (env : Env) (p : Priority) (indicated : HfpCallState) : Prop where
  current : s.calls.get p = none → indicated = .idle
  account : TakesAccount env s.device.shows (s.call p) (s.call p.other)
  sco : s.Activates p (s.call p) → s.sco p.other = .activeCall →
    HfpCallState.outgoing.ctorIdx ≤ (s.call p.other).ctorIdx

/-- The condition on a message that is handled. -/
def AdmitsMessage (s : TheSink) (env : Env) : Message → Prop
  | .callStateInd p indicated => s.AdmitsInd env p indicated
  | .slcDisconnectInd p => p = .primary → s.profiles.secondary.listed = true → s.sco .primary ≠ .activeCall

/-- The condition on a step. -/
def Admits (s : TheSink) : Event → Prop
  | .deliver env => ∀ m ∈ s.queue.head?, s.AdmitsMessage env m
  | .audioConnect _ p => s.calls.get p = some .multiparty → s.sco p.other ≠ .activeCall
  | _ => True

/-! ### What the operations leave alone -/

@[simp] theorem sco_setSco (s : TheSink) (p q : Priority) (a : AudioPriority) :
    (s.setSco p a).sco q = if q = p then a else s.sco q := by
  cases p <;> cases q <;> rfl

@[simp] theorem setState_sco (s : TheSink) (d : SinkState) (q : Priority) : (s.setState d).sco q = s.sco q := rfl

@[simp] theorem perform_device (s : TheSink) (e : Effect) : (s.perform e).device = s.device := rfl

@[simp] theorem perform_calls (s : TheSink) (e : Effect) : (s.perform e).calls = s.calls := rfl

@[simp] theorem perform_sco (s : TheSink) (e : Effect) (q : Priority) : (s.perform e).sco q = s.sco q := rfl

@[simp] theorem ringAnswered_device (s : TheSink) (b : Bool) : (s.ringAnswered b).device = s.device := by
  unfold ringAnswered
  split <;> rfl

@[simp] theorem ringAnswered_calls (s : TheSink) (b : Bool) : (s.ringAnswered b).calls = s.calls := by
  unfold ringAnswered
  split <;> rfl

@[simp] theorem ringAnswered_sco (s : TheSink) (b : Bool) (q : Priority) : (s.ringAnswered b).sco q = s.sco q := by
  unfold ringAnswered
  split <;> rfl

@[simp] theorem sinkHandleCallEnd_calls (s : TheSink) (p : Priority) (a : AudioPriority) :
    (s.sinkHandleCallEnd p a).calls = s.calls := by
  unfold sinkHandleCallEnd
  dsimp only
  split <;> rfl

@[simp] theorem sinkHandleCallEnd_sco (s : TheSink) (p : Priority) (a : AudioPriority) :
    (s.sinkHandleCallEnd p a).sco p = .aboutToDisconnect := by
  unfold sinkHandleCallEnd
  dsimp only
  split <;> simp

@[simp] theorem enterActiveCallState_shows (s : TheSink) (env : Env) :
    (s.enterActiveCallState env).device.shows = .active := by
  unfold enterActiveCallState
  cases env.audioSink <;> rfl

theorem enterConnectedState_shows (s : TheSink) (env : Env) :
    (s.enterConnectedState env).device.shows = if env.rssiPairing then s.device.shows else .connected := by
  unfold enterConnectedState
  by_cases hd : s.device = .connected
  · rw [if_neg fun h => h.1 hd, hd]
    exact (ite_self _).symm
  · cases env.rssiPairing with
    | true =>
      rw [if_neg fun h => Bool.noConfusion h.2]
      rfl
    | false =>
      rw [if_pos ⟨hd, rfl⟩]
      cases env.streaming <;> rfl

@[simp] theorem enterConnectedState_calls (s : TheSink) (env : Env) : (s.enterConnectedState env).calls = s.calls := by
  unfold enterConnectedState
  split <;> rfl

@[simp] theorem enterConnectedState_sco (s : TheSink) (env : Env) (q : Priority) :
    (s.enterConnectedState env).sco q = s.sco q := by
  unfold enterConnectedState
  split <;> rfl

/-! ### What each branch shows -/

/-- An AG that is gone is like one without a call. -/
theorem atLeast_eq (other : Option HfpCallState) {least : HfpCallState} (hleast : least ≠ .idle) :
    atLeast other least = decide (least.ctorIdx ≤ (other.getD .idle).ctorIdx) := by
  cases other with
  | some b => rfl
  | none => cases least <;> first | rfl | exact absurd rfl hleast

theorem callIdle_shows (s : TheSink) (p : Priority) (other : Option HfpCallState) (localAction : Bool)
    (h : TakesAccount env s.device.shows .idle (other.getD .idle)) :
    (s.callIdle env p other localAction).device.shows = shown .idle (other.getD .idle) := by
  obtain ⟨hrssi, hheld, hremaining⟩ := h
  unfold callIdle
  dsimp only
  obtain ⟨t, ht⟩ : ∃ t, t = if (s.ringAnswered localAction).device = .incomingCallEstablish ∨
      (s.ringAnswered localAction).device = .threeWayCallWaiting ∨
      (s.ringAnswered localAction).device = .threeWayMulticall ∨
      (s.ringAnswered localAction).device = .threeWayCallOnHold
    then { s.ringAnswered localAction with repeatCallerIDFlag := true } else s.ringAnswered localAction := ⟨_, rfl⟩
  have hdevice : t.device = s.device := by
    rw [ht]
    split <;> exact ringAnswered_device s localAction
  rw [← ht]
  have hconnected (hb : other.getD .idle = .idle) : (t.enterConnectedState env).device.shows = .connected := by
    rw [enterConnectedState_shows]
    split
    · next hpairing => rw [hdevice, hrssi hb hpairing]
    · rfl
  cases other with
  | none => exact hconnected rfl
  | some b =>
    cases b with
    | idle => exact hconnected rfl
    | incomingHeld => exact absurd rfl hheld
    | heldRemaining => exact (congrArg SinkState.shows hdevice).trans (hremaining rfl)
    | active => exact enterActiveCallState_shows _ env
    | incoming => rfl
    | outgoing => rfl
    | twcIncoming => rfl
    | twcOutgoing => rfl
    | heldActive => rfl
    | multiparty => rfl

theorem callIncoming_shows (s : TheSink) (p : Priority) (other : Option HfpCallState) :
    (s.callIncoming p other).device.shows = shown .incoming (other.getD .idle) := by
  unfold callIncoming
  rw [atLeast_eq other (by decide)]
  cases other.getD .idle <;> rfl

theorem callIncomingHeld_shows (s : TheSink) (other : Option HfpCallState)
    (h : TakesAccount env s.device.shows .incomingHeld (other.getD .idle)) :
    (s.callIncomingHeld other).device.shows = shown .incomingHeld (other.getD .idle) := by
  obtain ⟨hringing, hmulti⟩ := h
  unfold callIncomingHeld
  rw [atLeast_eq other (by decide)]
  revert hringing hmulti
  cases other.getD .idle with
  | incoming => exact fun hringing => absurd (.inl rfl) hringing
  | twcIncoming => exact fun hringing => absurd (.inr rfl) hringing
  | multiparty => exact fun _ hmulti => absurd rfl hmulti
  | _ => exact fun _ _ => rfl

/-- The three ways of an outgoing or an active call, where `alone` is the state for the only call. -/
theorem callSetUp_shows {t u v : TheSink} (other : Option HfpCallState) {a : HfpCallState}
    (ha : a = .outgoing ∨ a = .active) (ht : t.device = .threeWayCallOnHold) (hu : u.device = .threeWayCallWaiting)
    (hv : v.device.shows = shownAlone a)
    (h : other.getD .idle ≠ .twcIncoming ∧ other.getD .idle ≠ .incomingHeld ∧ other.getD .idle ≠ .multiparty) :
    (if atLeast other .outgoing then t else if other = some .incoming then u else v).device.shows =
      shown a (other.getD .idle) := by
  have hincoming : other = some .incoming ↔ other.getD .idle = .incoming := by
    cases other with
    | none => exact iff_of_false (by decide) (by decide)
    | some b => exact some_inj
  rw [atLeast_eq other (by decide)]
  simp only [hincoming]
  obtain ⟨htwc, hheld, hmulti⟩ := h
  revert htwc hheld hmulti
  cases other.getD .idle with
  | idle =>
    intro _ _ _
    rw [if_neg (by decide), if_neg (by decide), hv]
    rfl
  | incoming =>
    intro _ _ _
    rw [if_neg (by decide), if_pos rfl, hu]
    rcases ha with rfl | rfl <;> rfl
  | incomingHeld => exact fun _ hheld => absurd rfl hheld
  | twcIncoming => exact fun htwc => absurd rfl htwc
  | multiparty => exact fun _ _ hmulti => absurd rfl hmulti
  | _ =>
    intro _ _ _
    rw [if_pos (by decide), ht]
    rcases ha with rfl | rfl <;> rfl

theorem callOutgoing_shows (s : TheSink) (p : Priority) (other : Option HfpCallState)
    (h : TakesAccount env s.device.shows .outgoing (other.getD .idle)) :
    (s.callOutgoing p other).device.shows = shown .outgoing (other.getD .idle) :=
  callSetUp_shows other (.inl rfl) rfl rfl rfl h

theorem callActive_shows (s : TheSink) (p : Priority) (other : Option HfpCallState) (localAction : Bool)
    (h : TakesAccount env s.device.shows .active (other.getD .idle)) :
    (s.callActive env p other localAction).device.shows = shown .active (other.getD .idle) :=
  callSetUp_shows other (.inr rfl) rfl rfl (enterActiveCallState_shows _ env) h

theorem shown_twcIncoming (b : HfpCallState) : shown .twcIncoming b = .waiting := by
  cases b <;> rfl

variable {b : HfpCallState}

theorem shown_twcOutgoing (h : ¬ Ringing b ∧ b ≠ .multiparty) : shown .twcOutgoing b = .onHold := by
  revert h
  cases b <;> decide

theorem shown_heldActive (h : ¬ Ringing b ∧ b ≠ .multiparty) : shown .heldActive b = .onHold := by
  revert h
  cases b <;> decide

theorem shown_multiparty (h : ¬ Ringing b) : shown .multiparty b = .multicall := by
  revert h
  cases b <;> decide

/-- **An indication** that takes account of the other AG shows what is to be shown. -/
theorem sinkHandleCallInd_shows (s : TheSink) (p : Priority) (indicated : HfpCallState)
    (h : TakesAccount env s.device.shows (s.callState p indicated) (s.call p.other)) :
    (s.sinkHandleCallInd env p indicated).device.shows = shown (s.callState p indicated) (s.call p.other) := by
  unfold sinkHandleCallInd
  dsimp only
  rw [perform_device]
  revert h
  unfold call
  cases s.callState p indicated with
  | idle => exact fun h => callIdle_shows _ p _ _ h
  | incoming => exact fun _ => callIncoming_shows _ p _
  | incomingHeld => exact fun h => callIncomingHeld_shows _ _ h
  | outgoing => exact fun h => callOutgoing_shows _ p _ h
  | active => exact fun h => callActive_shows _ p _ _ h
  | twcIncoming => exact fun _ => (shown_twcIncoming _).symm
  | twcOutgoing => exact fun h => (shown_twcOutgoing h).symm
  | heldActive => exact fun h => (shown_heldActive h).symm
  | heldRemaining => exact fun h => h
  | multiparty => exact fun h => (shown_multiparty h).symm

/-! ### The priorities of the SCOs -/

/-- At most one SCO has the priority of an active call. -/
def OneActive (s : TheSink) : Prop := ∀ p, s.sco p = .activeCall → s.sco p.other ≠ .activeCall

theorem OneActive.of_ne {s : TheSink} {p : Priority} (h : s.sco p ≠ .activeCall) : s.OneActive := by
  intro q hq
  by_cases hqp : q = p
  · exact absurd hq (hqp ▸ h)
  · have hother : q.other = p := by
      revert hqp
      cases q <;> cases p <;> decide
    exact hother ▸ h

theorem OneActive.congr {t : TheSink} (h : s.OneActive) (hsco : ∀ q, t.sco q = s.sco q) : t.OneActive := by
  intro q hq
  rw [hsco] at hq ⊢
  exact h q hq

/-- A record that differs in what does not count for the SCOs. -/
theorem sco_of_profiles {t : TheSink} (h : ∀ q, (t.profiles.get q).scoPriority = (s.profiles.get q).scoPriority)
    (q : Priority) : t.sco q = s.sco q := h q.other

theorem callIdle_oneActive (h : s.OneActive) (p : Priority) (other : Option HfpCallState) (localAction : Bool) :
    (s.callIdle env p other localAction).OneActive := by
  unfold callIdle
  dsimp only
  obtain ⟨t, ht⟩ : ∃ t, t = if (s.ringAnswered localAction).device = .incomingCallEstablish ∨
      (s.ringAnswered localAction).device = .threeWayCallWaiting ∨
      (s.ringAnswered localAction).device = .threeWayMulticall ∨
      (s.ringAnswered localAction).device = .threeWayCallOnHold
    then { s.ringAnswered localAction with repeatCallerIDFlag := true } else s.ringAnswered localAction := ⟨_, rfl⟩
  have hactive : t.OneActive := by
    refine h.congr fun q => ?_
    rw [ht]
    split <;> exact ringAnswered_sco s localAction q
  rw [← ht]
  have hend (a : AudioPriority) : (t.sinkHandleCallEnd p a).OneActive :=
    .of_ne (by rw [sinkHandleCallEnd_sco]; decide)
  have hmuted {u : TheSink} (hu : u.OneActive) :
      OneActive { u with profiles := u.profiles.set p { u.profiles.get p with gMuted := false } } := by
    refine hu.congr (sco_of_profiles fun q => ?_)
    rw [Links.get_set]
    split
    · next hq => rw [hq]
    · rfl
  refine hmuted ?_
  cases other with
  | none => exact hactive.congr (enterConnectedState_sco t env)
  | some b =>
    cases b with
    | idle => exact hactive.congr (enterConnectedState_sco t env)
    | incomingHeld | heldRemaining => exact hactive
    | active | outgoing | twcIncoming | twcOutgoing | heldActive | multiparty => exact hend .activeCall
    | incoming => exact hend .inbandRing

/-- The SCO of a link becomes that of the active call, where the other one is held or was not active. -/
theorem oneActive_setSco_held (s : TheSink) (p : Priority) (a : AudioPriority) :
    ((s.setSco p a).setSco p.other .heldCall).OneActive :=
  .of_ne (p := p.other) (by simp)

theorem oneActive_setSco (p : Priority) (a : AudioPriority) (h : s.sco p.other ≠ .activeCall) :
    (s.setSco p a).OneActive :=
  .of_ne (p := p.other) (by simpa using h)

theorem callIncoming_oneActive (s : TheSink) (p : Priority) (other : Option HfpCallState) :
    (s.callIncoming p other).OneActive := by
  refine .of_ne (p := p) ?_
  unfold callIncoming
  dsimp only
  split <;> simp

theorem callIncomingHeld_oneActive (h : s.OneActive) (other : Option HfpCallState) :
    (s.callIncomingHeld other).OneActive := by
  unfold callIncomingHeld
  split <;> exact h

/-- With an outgoing or an active call the other SCO is held, or is not that of an active call. -/
theorem callOutgoing_oneActive (p : Priority) (other : Option HfpCallState)
    (h : s.sco p.other = .activeCall → atLeast other .outgoing = true) : (s.callOutgoing p other).OneActive := by
  unfold callOutgoing
  dsimp only
  by_cases hheld : atLeast other .outgoing = true
  · rw [if_pos hheld]
    exact oneActive_setSco_held _ p _
  · have hone : OneActive ({ s with lastOutgoingAg := p }.setSco p .activeCall) :=
      oneActive_setSco p _ fun hactive => hheld (h hactive)
    rw [if_neg hheld]
    split <;> exact hone

theorem callTwcOutgoing_oneActive (p : Priority) (other : Option HfpCallState)
    (h : s.sco p.other = .activeCall → atLeast other .outgoing = true) : (s.callTwcOutgoing p other).OneActive := by
  unfold callTwcOutgoing
  dsimp only
  by_cases hheld : atLeast other .outgoing = true
  · rw [if_pos hheld]
    exact oneActive_setSco_held _ p _
  · rw [if_neg hheld]
    exact oneActive_setSco p _ fun hactive => hheld (h hactive)

theorem callActive_oneActive (hone : s.OneActive) (p : Priority) (other : Option HfpCallState) (localAction : Bool)
    (h : s.sco p = .inbandRing → s.sco p.other = .activeCall → atLeast other .outgoing = true) :
    (s.callActive env p other localAction).OneActive := by
  unfold callActive
  dsimp only
  obtain ⟨t, ht⟩ : ∃ t, t =
      if s.device = .incomingCallEstablish ∨ s.device = .threeWayCallWaiting
      then { s.ringAnswered localAction with repeatCallerIDFlag := true } else s.ringAnswered localAction := ⟨_, rfl⟩
  have hsco (q : Priority) : t.sco q = s.sco q := by
    rw [ht]
    split <;> exact ringAnswered_sco s localAction q
  rw [← ht]
  by_cases hheld : atLeast other .outgoing = true
  · rw [if_pos hheld]
    exact OneActive.of_ne (p := p.other) (by simp)
  · have hactive : OneActive (if t.sco p = .inbandRing then t.setSco p .activeCall else t) := by
      split
      · next hring =>
        refine oneActive_setSco p _ fun hactive => hheld (h ?_ ?_)
        · exact (hsco p).symm.trans hring
        · exact (hsco p.other).symm.trans hactive
      · exact hone.congr hsco
    rw [if_neg hheld]
    split
    · exact hactive
    · exact hactive

/-- **An indication** keeps the SCOs apart, if a second active one can only meet a call that is then held. -/
theorem sinkHandleCallInd_oneActive (hone : s.OneActive) (p : Priority) (indicated : HfpCallState)
    (h : s.Activates p (s.callState p indicated) → s.sco p.other = .activeCall →
      HfpCallState.outgoing.ctorIdx ≤ (s.call p.other).ctorIdx) :
    (s.sinkHandleCallInd env p indicated).OneActive := by
  have hheld (ha : s.Activates p (s.callState p indicated)) (hother : s.sco p.other = .activeCall) :
      atLeast (s.calls.get p.other) .outgoing = true := by
    rw [atLeast_eq _ (by decide)]
    exact decide_eq_true (h ha hother)
  unfold sinkHandleCallInd
  dsimp only
  obtain ⟨t, ht⟩ : ∃ t : TheSink,
      t = { s with profiles := s.profiles.set p { s.profiles.get p with localCallAction := false } } := ⟨_, rfl⟩
  have hsco (q : Priority) : t.sco q = s.sco q := by
    refine sco_of_profiles (fun r => ?_) q
    rw [ht]
    dsimp only
    rw [Links.get_set]
    split
    · next hr => rw [hr]
    · rfl
  have honet : t.OneActive := hone.congr hsco
  rw [← ht]
  refine OneActive.congr ?_ (perform_sco _ _)
  revert hheld
  unfold Activates
  cases s.callState p indicated with
  | idle => exact fun _ => callIdle_oneActive honet p _ _
  | incoming => exact fun _ => callIncoming_oneActive t p _
  | incomingHeld => exact fun _ => callIncomingHeld_oneActive honet _
  | outgoing => exact fun hheld => callOutgoing_oneActive p _ fun hother => hheld (.inl rfl) (hsco p.other ▸ hother)
  | active =>
    exact fun hheld => callActive_oneActive honet p _ _ fun hring hother =>
      hheld (.inr (.inr ⟨rfl, hsco p ▸ hring⟩)) (hsco p.other ▸ hother)
  | twcIncoming => exact fun _ => honet
  | twcOutgoing =>
    exact fun hheld => callTwcOutgoing_oneActive p _ fun hother => hheld (.inr (.inl rfl)) (hsco p.other ▸ hother)
  | heldActive => exact fun _ => honet
  | heldRemaining => exact fun _ => honet
  | multiparty => exact fun _ => honet

/-! ### One step, and runs -/

theorem callIdle_calls (s : TheSink) (env : Env) (p : Priority) (other : Option HfpCallState) (localAction : Bool) :
    (s.callIdle env p other localAction).calls = s.calls := by
  unfold callIdle
  dsimp only
  obtain ⟨t, ht⟩ : ∃ t, t = if (s.ringAnswered localAction).device = .incomingCallEstablish ∨
      (s.ringAnswered localAction).device = .threeWayCallWaiting ∨
      (s.ringAnswered localAction).device = .threeWayMulticall ∨
      (s.ringAnswered localAction).device = .threeWayCallOnHold
    then { s.ringAnswered localAction with repeatCallerIDFlag := true } else s.ringAnswered localAction := ⟨_, rfl⟩
  have hcalls : t.calls = s.calls := by
    rw [ht]
    split <;> exact ringAnswered_calls s localAction
  rw [← ht, ← hcalls]
  cases other with
  | none => exact enterConnectedState_calls t env
  | some b =>
    cases b with
    | idle => exact enterConnectedState_calls t env
    | incomingHeld => rfl
    | heldRemaining => rfl
    | _ => exact sinkHandleCallEnd_calls t p _

theorem callIncoming_calls (s : TheSink) (p : Priority) (other : Option HfpCallState) :
    (s.callIncoming p other).calls = s.calls := by
  unfold callIncoming
  dsimp only
  split <;> rfl

theorem callIncomingHeld_calls (s : TheSink) (other : Option HfpCallState) :
    (s.callIncomingHeld other).calls = s.calls := by
  unfold callIncomingHeld
  split <;> rfl

theorem callOutgoing_calls (s : TheSink) (p : Priority) (other : Option HfpCallState) :
    (s.callOutgoing p other).calls = s.calls := by
  unfold callOutgoing
  dsimp only
  split
  · rfl
  · split <;> rfl

theorem callActive_calls (s : TheSink) (env : Env) (p : Priority) (other : Option HfpCallState) (localAction : Bool) :
    (s.callActive env p other localAction).calls = s.calls := by
  have hflag : (if s.device = .incomingCallEstablish ∨ s.device = .threeWayCallWaiting
      then { s.ringAnswered localAction with repeatCallerIDFlag := true } else s.ringAnswered localAction).calls =
        s.calls := by
    split <;> exact ringAnswered_calls s localAction
  unfold callActive
  dsimp only
  rw [← hflag]
  generalize (if s.device = .incomingCallEstablish ∨ s.device = .threeWayCallWaiting
    then { s.ringAnswered localAction with repeatCallerIDFlag := true } else s.ringAnswered localAction) = t
  have hsco : (if t.sco p = .inbandRing then t.setSco p .activeCall else t).calls = t.calls := by
    split <;> rfl
  split
  · exact hsco
  · split <;> exact hsco

theorem callTwcOutgoing_calls (s : TheSink) (p : Priority) (other : Option HfpCallState) :
    (s.callTwcOutgoing p other).calls = s.calls := by
  unfold callTwcOutgoing
  dsimp only
  split <;> rfl

/-- The handler leaves the links of the library alone. -/
theorem sinkHandleCallInd_calls (s : TheSink) (env : Env) (p : Priority) (indicated : HfpCallState) :
    (s.sinkHandleCallInd env p indicated).calls = s.calls := by
  unfold sinkHandleCallInd
  dsimp only
  rw [perform_calls]
  cases s.callState p indicated with
  | idle => exact callIdle_calls _ env p _ _
  | incoming => exact callIncoming_calls _ p _
  | incomingHeld => exact callIncomingHeld_calls _ _
  | outgoing => exact callOutgoing_calls _ p _
  | active => exact callActive_calls _ env p _ _
  | twcOutgoing => exact callTwcOutgoing_calls _ p _
  | twcIncoming => rfl
  | heldActive => rfl
  | heldRemaining => rfl
  | multiparty => rfl

variable {indicated : HfpCallState}

/-- The handler looks at the current call state. -/
theorem AdmitsInd.callState_eq (h : s.AdmitsInd env p indicated) :
    s.callState p indicated = s.call p := by
  unfold callState call
  cases hp : s.calls.get p with
  | none => exact h.current hp
  | some a => rfl

/-- Taking the message out of the queue changes nothing for its handler. -/
theorem AdmitsInd.dequeued (h : s.AdmitsInd env p indicated) (queue : List Message) :
    AdmitsInd { s with queue := queue } env p indicated :=
  ⟨h.current, h.account, h.sco⟩

/-- **An indication** that the condition admits keeps the promise. -/
theorem AdmitsInd.agrees (h : s.AdmitsInd env p indicated) (hone : s.OneActive) :
    (s.sinkHandleCallInd env p indicated).Agrees shown := by
  have hcurrent := h.callState_eq
  have hshows := sinkHandleCallInd_shows s p indicated (hcurrent ▸ h.account)
  have hactive : (s.sinkHandleCallInd env p indicated).OneActive :=
    sinkHandleCallInd_oneActive hone p indicated (hcurrent ▸ h.sco)
  obtain ⟨t, ht⟩ : ∃ t, t = s.sinkHandleCallInd env p indicated := ⟨_, rfl⟩
  have hcall (q : Priority) : t.call q = s.call q := by
    unfold call
    rw [ht, sinkHandleCallInd_calls]
  rw [← ht] at hshows hactive ⊢
  have hboth : t.device.shows = shown (t.call .primary) (t.call .secondary) := by
    rw [hshows, hcurrent, hcall, hcall]
    cases p with
    | primary => rfl
    | secondary => exact shown_comm _ _
  refine ⟨hboth, ?_, ?_, fun hsco => hactive .primary hsco.1 hsco.2⟩
  · rw [hboth]
    exact shown_eq_connected_iff _ _
  · rintro ⟨q, hq⟩
    rw [hboth]
    refine shown_of_ringing ?_
    cases q with
    | primary => exact .inl hq
    | secondary => exact .inr hq

theorem enterActive_oneActive (hone : s.OneActive) (env : Env) (c : Prop) [Decidable c] :
    (if c then s.enterActiveCallState env else s).OneActive := by
  split <;> exact hone

theorem enterConnectable_oneActive (hone : s.OneActive) (d : SinkState) (c : Prop) [Decidable c] :
    (if c then s.setState d else s).OneActive := by
  split <;> exact hone

/-- After the primary link both links have the priority that its SCO had. -/
theorem sinkHandleSlcDisconnectInd_oneActive (hone : s.OneActive) (env : Env) (p : Priority)
    (h : p = .primary → s.profiles.secondary.listed = true → s.sco .primary ≠ .activeCall) :
    (s.sinkHandleSlcDisconnectInd env p).OneActive := by
  unfold sinkHandleSlcDisconnectInd
  dsimp only
  refine enterConnectable_oneActive ?_ _ _
  have hlist : OneActive { s with
      lastOutgoingAg := .primary
      profiles := s.profiles.set p { s.profiles.get p with listed := false } } := by
    refine hone.congr (sco_of_profiles fun q => ?_)
    rw [Links.get_set]
    split
    · next hq => rw [hq]
    · rfl
  split
  · next hpromoted =>
    obtain ⟨rfl, hlisted⟩ := hpromoted
    exact .of_ne (p := .primary) (h rfl hlisted)
  · exact hlist

theorem audioHandleSyncConnectCfm_oneActive (hone : s.OneActive) (env : Env) (p : Priority)
    (h : s.calls.get p = some .multiparty → s.sco p.other ≠ .activeCall) :
    (s.audioHandleSyncConnectCfm env p).OneActive := by
  have hset {a : AudioPriority} (ha : a ≠ .activeCall) : (s.setSco p a).OneActive :=
    .of_ne (p := p) (by simpa using ha)
  have hset' (hother : s.sco p.other ≠ .activeCall) : (s.setSco p .activeCall).OneActive :=
    oneActive_setSco p _ hother
  have hactive :
      (if s.sco p.other = .activeCall then s.setSco p .heldCall else s.setSco p .activeCall).OneActive := by
    split
    · exact hset (by decide)
    · next hother => exact hset' hother
  have hheld : (if env.routedAudio then s.setSco p .heldCall else s).OneActive := by
    split
    · exact hset (by decide)
    · exact hone
  have houtgoing :
      ((if s.sco p.other = .activeCall then s.setSco p.other .heldCall else s).setSco p .activeCall).OneActive := by
    refine oneActive_setSco p _ ?_
    split
    · simp
    · next hother => exact hother
  unfold audioHandleSyncConnectCfm
  dsimp only
  refine enterActive_oneActive ?_ env _
  refine OneActive.congr ?_ (perform_sco _ _)
  cases hcall : s.calls.get p with
  | none => exact hone
  | some a =>
    cases a with
    | idle | incoming | incomingHeld | twcIncoming => exact hset (by decide)
    | outgoing => exact houtgoing
    | active | twcOutgoing => exact hactive
    | heldActive => exact hheld
    | heldRemaining => exact hheld
    | multiparty => exact hset' (h hcall)

theorem audioHandleSyncDisconnectInd_oneActive (s : TheSink) (env : Env) (p : Priority) :
    (s.audioHandleSyncDisconnectInd env p).OneActive := by
  unfold audioHandleSyncDisconnectInd
  dsimp only
  refine enterActive_oneActive ?_ env _
  refine .of_ne (p := p) ?_
  split <;> simp

/-- **One step** that the condition admits keeps the SCOs apart. -/
theorem OneActive.step (hone : s.OneActive) (hok : s.Admits e) (h : s.step e = some s') : s'.OneActive := by
  cases e with
  | callState p a =>
    simp only [TheSink.step] at h
    split at h
    · cases h
    · split at h
      · obtain rfl := some.inj h
        exact hone
      · obtain rfl := some.inj h
        exact hone
  | disconnect p =>
    simp only [TheSink.step] at h
    split at h
    · cases h
    · obtain rfl := some.inj h
      exact hone
  | deliver env =>
    simp only [TheSink.step] at h
    split at h
    · cases h
    · next q a queue hqueue =>
      obtain rfl := some.inj h
      have hind : s.AdmitsInd env q a := hok (.callStateInd q a) (by rw [hqueue]; rfl)
      have hadmits := hind.dequeued queue
      have hone' : OneActive { s with queue := queue } := hone
      exact sinkHandleCallInd_oneActive hone' q a (hadmits.callState_eq ▸ hadmits.sco)
    · next q queue hqueue =>
      obtain rfl := some.inj h
      have hone' : OneActive { s with queue := queue } := hone
      exact sinkHandleSlcDisconnectInd_oneActive hone' env q (hok (.slcDisconnectInd q) (by rw [hqueue]; rfl))
  | audioConnect env p =>
    obtain rfl := some.inj h
    exact audioHandleSyncConnectCfm_oneActive hone env p hok
  | audioDisconnect env p =>
    obtain rfl := some.inj h
    exact audioHandleSyncDisconnectInd_oneActive s env p
  | callAction p =>
    obtain rfl := some.inj h
    refine hone.congr (sco_of_profiles fun q => ?_)
    dsimp only
    rw [Links.get_set]
    split
    · next hq => rw [hq]
    · rfl

theorem oneActive_initial : initial.OneActive := by
  intro p
  cases p <;> decide

/-- **Two AGs.** After each indication of a run whose steps meet the condition the promise is kept. -/
theorem agrees_of_run {es : List Event} (hok : RunMeets step Admits initial (es ++ [e]))
    (hrun : run step initial es = some s) (hind : s.Indicates e) (h : s.step e = some s') : s'.Agrees shown := by
  have hone : s.OneActive :=
    run_invariant (fun _ _ _ hone hok h => OneActive.step hone hok h) oneActive_initial hok.left hrun
  have hadmits : s.Admits e := (hok.right hrun).head
  obtain ⟨env, p, a, queue, rfl, hqueue⟩ := hind
  have hind : s.AdmitsInd env p a := hadmits (.callStateInd p a) (by rw [hqueue]; rfl)
  have hs' : s' = sinkHandleCallInd { s with queue := queue } env p a := by
    simp only [TheSink.step, hqueue] at h
    exact (some.inj h).symm
  have hone' : OneActive { s with queue := queue } := hone
  rw [hs']
  exact (hind.dequeued queue).agrees hone'

/-- Nothing that a handler asks about is the case. -/
def quiet : Env := ⟨false, false, false, false, true, false⟩

/-- A call on the first AG, a second one waiting on the other. -/
def callWaiting : List Event :=
  [.callState .primary .active, .deliver quiet, .callState .secondary .incoming, .deliver quiet]

instance (env : Env) (before : Shown) (a b : HfpCallState) : Decidable (TakesAccount env before a b) := by
  rcases a with ⟨⟩ <;> dsimp only [TakesAccount] <;> infer_instance

instance (s : TheSink) (env : Env) (p : Priority) (a : HfpCallState) : Decidable (s.AdmitsInd env p a) :=
  decidable_of_iff
    ((s.calls.get p = none → a = .idle) ∧ TakesAccount env s.device.shows (s.call p) (s.call p.other) ∧
      ((s.call p = .outgoing ∨ s.call p = .twcOutgoing ∨ s.call p = .active ∧ s.sco p = .inbandRing) →
        s.sco p.other = .activeCall → HfpCallState.outgoing.ctorIdx ≤ (s.call p.other).ctorIdx))
    ⟨fun h => ⟨h.1, h.2.1, h.2.2⟩, fun h => ⟨h.current, h.account, h.sco⟩⟩

instance (s : TheSink) (env : Env) (m : Message) : Decidable (s.AdmitsMessage env m) := by
  rcases m with ⟨⟩ <;> dsimp only [AdmitsMessage] <;> infer_instance

instance (s : TheSink) (e : Event) : Decidable (s.Admits e) := by
  rcases e with ⟨⟩ <;> dsimp only [Admits] <;> infer_instance

/-- With the first call over, the other one rings alone. -/
theorem agrees_callWaiting : ∃ s s', run step initial (callWaiting ++ [.callState .primary .idle]) = some s ∧
    s.step (.deliver quiet) = some s' ∧ s'.Agrees shown := by
  have hok : RunMeets step Admits initial (callWaiting ++ [.callState .primary .idle] ++ [.deliver quiet]) := by
    decide
  have hruns : (run step initial (callWaiting ++ [.callState .primary .idle])).any fun s =>
      (s.step (.deliver quiet)).any fun _ => decide (s.queue = [.callStateInd .primary .idle]) := by decide
  obtain ⟨s, hs, hstep⟩ := (any_eq_true _ _).mp hruns
  obtain ⟨s', hs', hqueue⟩ := (any_eq_true _ _).mp hstep
  exact ⟨s, s', hs, hs', agrees_of_run hok hs ⟨_, _, _, _, rfl, of_decide_eq_true hqueue⟩ hs'⟩

/-- With the second call waiting, the first AG makes another one. The device shows a call on hold. -/
theorem not_alwaysAgrees : ¬ AlwaysAgrees := by
  rintro ⟨f, h⟩
  have hruns : (run step initial (callWaiting ++ [.callState .primary .twcOutgoing])).any fun s =>
      (s.step (.deliver quiet)).any fun s' => decide (s.queue = [.callStateInd .primary .twcOutgoing] ∧
        s'.call .secondary = .incoming ∧ s'.device = .threeWayCallOnHold) := by decide
  obtain ⟨s, hs, hstep⟩ := (any_eq_true _ _).mp hruns
  obtain ⟨s', hs', hfacts⟩ := (any_eq_true _ _).mp hstep
  obtain ⟨hqueue, hringing, hdevice⟩ := of_decide_eq_true hfacts
  have hagrees := h _ s (.deliver quiet) s' hs ⟨_, _, _, _, rfl, hqueue⟩ hs'
  have hshows := hagrees.ringing ⟨.secondary, .inl hringing⟩
  rw [hdevice] at hshows
  exact absurd hshows (by decide)

end TheSink

end Cbps.SinkApp
