import Cbps.Hfp.CallState

/-!
# Calls on two AGs

What the application makes of the call states of its two links: the state of the device, and the audio priority of each
link's SCO. The links and the queue of the HFP library are part of the state, since an indication is handled some time
after the call state has changed, by a handler that looks at the call states of that moment. What the handler asks of
the other libraries comes with the event.
-/

namespace Cbps.SinkApp

open Cbps.Hfp (HfpCallState)

/-- `hfp_link_priority`, of a link. -/
inductive Priority
  | primary
  | secondary
  deriving DecidableEq, Repr

/-- `OTHER_PROFILE`. -/
def Priority.other : Priority → Priority
  | .primary => .secondary
  | .secondary => .primary

@[simp] theorem Priority.other_ne (p : Priority) : p.other ≠ p := by cases p <;> decide

@[simp] theorem Priority.ne_other (p : Priority) : p ≠ p.other := by cases p <;> decide

/-- A value for each of the two links. -/
structure Links (α : Type*) where
  primary : α
  secondary : α
  deriving DecidableEq, Repr

namespace Links

variable {α : Type*}

def get (l : Links α) : Priority → α
  | .primary => l.primary
  | .secondary => l.secondary

def set (l : Links α) (p : Priority) (a : α) : Links α :=
  match p with
  | .primary => { l with primary := a }
  | .secondary => { l with secondary := a }

@[simp] theorem get_set (l : Links α) (p q : Priority) (a : α) :
    (l.set p a).get q = if q = p then a else l.get q := by
  cases p <;> cases q <;> rfl

end Links

/-- `sinkState`. -/
inductive SinkState
  | limbo
  | connectable
  | connDiscoverable
  | connected
  | outgoingCallEstablish
  | incomingCallEstablish
  | activeCallSCO
  | testMode
  | threeWayCallWaiting
  | threeWayCallOnHold
  | threeWayMulticall
  | incomingCallOnHold
  | activeCallNoSCO
  | a2dpStreaming
  | lowBattery
  deriving DecidableEq, Repr

/-- `audio_priority`. -/
inductive AudioPriority
  | none
  | aboutToDisconnect
  | streamingAudio
  | inbandRing
  | heldCall
  | activeCall
  deriving DecidableEq, Repr

/-- The entry of `profile_data` for a link. The SCO priority in it is that of the other link. -/
structure Profile where
  scoPriority : AudioPriority
  listed : Bool
  localCallAction : Bool
  gMuted : Bool
  deriving DecidableEq, Repr

/-- What the library sends to the application. -/
inductive Message
  | callStateInd (priority : Priority) (callState : HfpCallState)
  | slcDisconnectInd (priority : Priority)
  deriving DecidableEq, Repr

/-- What is done besides. -/
inductive Effect
  | toneTerminate
  | audioHandleRouting
  deriving DecidableEq, Repr

/-- What a handler asks of its surroundings. -/
structure Env where
  /-- A SCO is connected. -/
  audioSink : Bool
  /-- A2DP is streaming. -/
  streaming : Bool
  rssiPairing : Bool
  routedAudio : Bool
  connectedDevs : Bool
  /-- The pairing mode is entered when the device becomes connectable. -/
  pairMode : Bool
  deriving DecidableEq, Repr

/-- The links of the library with their call states, its queue, and `theSink` with the state of the device. -/
structure TheSink where
  calls : Links (Option HfpCallState)
  queue : List Message
  device : SinkState
  profiles : Links Profile
  repeatCallerIDFlag : Bool
  lastOutgoingAg : Priority
  effects : List Effect
  deriving DecidableEq, Repr

namespace TheSink

/-! ### Priorities of the SCOs and states of the device -/

/-- `getScoPriorityFromHfpPriority`. -/
def sco (s : TheSink) (p : Priority) : AudioPriority := (s.profiles.get p.other).scoPriority

/-- `setScoPriorityFromHfpPriority`. -/
def setSco (s : TheSink) (p : Priority) (level : AudioPriority) : TheSink :=
  { s with profiles := s.profiles.set p.other { s.profiles.get p.other with scoPriority := level } }

/-- `stateManagerSetState`. -/
def setState (s : TheSink) (d : SinkState) : TheSink := { s with device := d }

def perform (s : TheSink) (e : Effect) : TheSink := { s with effects := s.effects ++ [e] }

/-- `stateManagerEnterConnectedState`. -/
def enterConnectedState (s : TheSink) (env : Env) : TheSink :=
  if s.device ≠ .connected ∧ env.rssiPairing = false then
    s.setState (if env.streaming then .a2dpStreaming else .connected)
  else s

/-- `stateManagerEnterActiveCallState`. -/
def enterActiveCallState (s : TheSink) (env : Env) : TheSink :=
  s.setState (if env.audioSink then .activeCallSCO else .activeCallNoSCO)

/-! ### The indication of a call state -/

/-- `sinkHandleCallEnd`. -/
def sinkHandleCallEnd (s : TheSink) (p : Priority) (new : AudioPriority) : TheSink :=
  let other := s.sco p.other
  let s := s.setSco p .aboutToDisconnect
  if other = .heldCall then s.setSco p.other new else s

/-- A ring tone is stopped, unless the call was answered or rejected here. -/
def ringAnswered (s : TheSink) (localAction : Bool) : TheSink :=
  if (s.device = .incomingCallEstablish ∨ s.device = .threeWayCallWaiting) ∧ localAction = false then
    s.perform .toneTerminate
  else s

/-- No call on the link any more. -/
def callIdle (s : TheSink) (env : Env) (p : Priority) (other : Option HfpCallState) (localAction : Bool) : TheSink :=
  let s := s.ringAnswered localAction
  let s :=
    if s.device = .incomingCallEstablish ∨ s.device = .threeWayCallWaiting ∨ s.device = .threeWayMulticall ∨
        s.device = .threeWayCallOnHold then { s with repeatCallerIDFlag := true }
    else s
  let s :=
    match other with
    | some .multiparty => (s.sinkHandleCallEnd p .activeCall).setState .threeWayMulticall
    | some .heldRemaining => s
    | some .twcOutgoing | some .heldActive => (s.sinkHandleCallEnd p .activeCall).setState .threeWayCallOnHold
    | some .twcIncoming => (s.sinkHandleCallEnd p .activeCall).setState .threeWayCallWaiting
    | some .active => (s.sinkHandleCallEnd p .activeCall).enterActiveCallState env
    | some .incomingHeld => s.setState .threeWayCallOnHold
    | some .incoming => (s.sinkHandleCallEnd p .inbandRing).setState .incomingCallEstablish
    | some .outgoing => (s.sinkHandleCallEnd p .activeCall).setState .outgoingCallEstablish
    | some .idle | none => s.enterConnectedState env
  -- `VolumeSetHfpMicrophoneGainCheckMute`
  { s with profiles := s.profiles.set p { s.profiles.get p with gMuted := false } }

/-- The other AG is there, with a call state from `least` on. -/
def atLeast (other : Option HfpCallState) (least : HfpCallState) : Bool :=
  match other with
  | some b => decide (least.ctorIdx ≤ b.ctorIdx)
  | none => false

def callIncoming (s : TheSink) (p : Priority) (other : Option HfpCallState) : TheSink :=
  let s := s.setSco p .inbandRing
  if atLeast other .incoming then s.setState .threeWayCallWaiting else s.setState .incomingCallEstablish

def callIncomingHeld (s : TheSink) (other : Option HfpCallState) : TheSink :=
  if atLeast other .outgoing then s.setState .threeWayCallOnHold else s.setState .incomingCallOnHold

def callOutgoing (s : TheSink) (p : Priority) (other : Option HfpCallState) : TheSink :=
  let s := { s with lastOutgoingAg := p }.setSco p .activeCall
  if atLeast other .outgoing then (s.setSco p.other .heldCall).setState .threeWayCallOnHold
  else if other = some .incoming then s.setState .threeWayCallWaiting
  else s.setState .outgoingCallEstablish

def callActive (s : TheSink) (env : Env) (p : Priority) (other : Option HfpCallState) (localAction : Bool) : TheSink :=
  let ringing := s.device = .incomingCallEstablish ∨ s.device = .threeWayCallWaiting
  let s := s.ringAnswered localAction
  let s := if ringing then { s with repeatCallerIDFlag := true } else s
  let s := if s.sco p = .inbandRing then s.setSco p .activeCall else s
  if atLeast other .outgoing then (s.setSco p.other .heldCall).setState .threeWayCallOnHold
  else if other = some .incoming then s.setState .threeWayCallWaiting
  else s.enterActiveCallState env

def callTwcOutgoing (s : TheSink) (p : Priority) (other : Option HfpCallState) : TheSink :=
  let s := { s with lastOutgoingAg := p }.setSco p .activeCall
  let s := if atLeast other .outgoing then s.setSco p.other .heldCall else s
  s.setState .threeWayCallOnHold

/-- The call state that an indication is about: that of the link, if it is still there. -/
def callState (s : TheSink) (p : Priority) (indicated : HfpCallState) : HfpCallState :=
  (s.calls.get p).getD indicated

/-- `sinkHandleCallInd`. -/
def sinkHandleCallInd (s : TheSink) (env : Env) (p : Priority) (indicated : HfpCallState) : TheSink :=
  let other := s.calls.get p.other
  let localAction := (s.profiles.get p).localCallAction
  let current := s.callState p indicated
  let s := { s with profiles := s.profiles.set p { s.profiles.get p with localCallAction := false } }
  let s :=
    match current with
    | .idle => s.callIdle env p other localAction
    | .incoming => s.callIncoming p other
    | .incomingHeld => s.callIncomingHeld other
    | .outgoing => s.callOutgoing p other
    | .active => s.callActive env p other localAction
    | .twcIncoming => s.setState .threeWayCallWaiting
    | .twcOutgoing => s.callTwcOutgoing p other
    | .heldActive => s.setState .threeWayCallOnHold
    | .heldRemaining => s
    | .multiparty => s.setState .threeWayMulticall
  s.perform .audioHandleRouting

/-! ### The other events -/

/-- `stateManagerIsConnected`. -/
def isConnected (s : TheSink) : Bool :=
  match s.device with
  | .limbo | .connectable | .connDiscoverable | .testMode => false
  | _ => true

/-- `sinkHandleSlcDisconnectInd`. The whole entry of the secondary link is copied, with the priority of the primary's
SCO in it. -/
def sinkHandleSlcDisconnectInd (s : TheSink) (env : Env) (p : Priority) : TheSink :=
  let s := { s with
    lastOutgoingAg := .primary
    profiles := s.profiles.set p { s.profiles.get p with listed := false } }
  let s :=
    if p = .primary ∧ s.profiles.secondary.listed then
      { s with profiles := ⟨s.profiles.secondary, { s.profiles.secondary with listed := false }⟩ }
    else s
  if s.isConnected ∧ env.connectedDevs = false ∧ env.rssiPairing = false then
    s.setState (if env.pairMode then .connDiscoverable else .connectable)
  else s

/-- `audioHandleSyncConnectCfm`. -/
def audioHandleSyncConnectCfm (s : TheSink) (env : Env) (p : Priority) : TheSink :=
  let s : TheSink :=
    match s.calls.get p with
    | none => s
    | some .idle => s.setSco p .streamingAudio
    | some .incoming | some .incomingHeld | some .twcIncoming => s.setSco p .inbandRing
    | some .active | some .twcOutgoing =>
      if s.sco p.other = .activeCall then s.setSco p .heldCall else s.setSco p .activeCall
    | some .outgoing =>
      let s : TheSink := if s.sco p.other = .activeCall then s.setSco p.other .heldCall else s
      s.setSco p .activeCall
    | some .heldActive | some .heldRemaining => if env.routedAudio then s.setSco p .heldCall else s
    | some .multiparty => s.setSco p .activeCall
  let s := s.perform .audioHandleRouting
  if s.device = .activeCallNoSCO then s.enterActiveCallState env else s

/-- `audioHandleSyncDisconnectInd`. -/
def audioHandleSyncDisconnectInd (s : TheSink) (env : Env) (p : Priority) : TheSink :=
  let s := s.setSco p .none
  let s := if s.sco p.other = .heldCall then s.setSco p.other .activeCall else s
  let s := s.perform .audioHandleRouting
  if s.device = .activeCallSCO then s.enterActiveCallState env else s

/-- `hfpLinkReset`: the secondary link is promoted if the primary one goes. -/
def hfpLinkReset (calls : Links (Option HfpCallState)) : Priority → Links (Option HfpCallState)
  | .primary => ⟨calls.secondary, none⟩
  | .secondary => ⟨calls.primary, none⟩

end TheSink

/-- What happens: a link's call state changes, or it is disconnected; a message of the library is handled; a SCO is
connected or disconnected; the user acts on a call. -/
inductive Event
  | callState (p : Priority) (callState : HfpCallState)
  | disconnect (p : Priority)
  | deliver (env : Env)
  | audioConnect (env : Env) (p : Priority)
  | audioDisconnect (env : Env) (p : Priority)
  | callAction (p : Priority)
  deriving DecidableEq, Repr

namespace TheSink

def step (s : TheSink) : Event → Option TheSink
  -- `hfpSetLinkCallState`
  | .callState p callState =>
    match s.calls.get p with
    | none => none
    | some old =>
      if old = callState then some s
      else some { s with calls := s.calls.set p (some callState), queue := s.queue ++ [.callStateInd p callState] }
  | .disconnect p =>
    match s.calls.get p with
    | none => none
    | some _ => some { s with calls := hfpLinkReset s.calls p, queue := s.queue ++ [.slcDisconnectInd p] }
  | .deliver env =>
    match s.queue with
    | [] => none
    | .callStateInd p callState :: queue => some ({ s with queue := queue }.sinkHandleCallInd env p callState)
    | .slcDisconnectInd p :: queue => some ({ s with queue := queue }.sinkHandleSlcDisconnectInd env p)
  | .audioConnect env p => some (s.audioHandleSyncConnectCfm env p)
  | .audioDisconnect env p => some (s.audioHandleSyncDisconnectInd env p)
  | .callAction p =>
    some { s with profiles := s.profiles.set p { s.profiles.get p with localCallAction := true } }

/-- Two AGs are connected, without calls. -/
def initial : TheSink where
  calls := ⟨some .idle, some .idle⟩
  queue := []
  device := .connected
  profiles := ⟨⟨.none, true, false, false⟩, ⟨.none, true, false, false⟩⟩
  repeatCallerIDFlag := true
  lastOutgoingAg := .primary
  effects := []

end TheSink

end Cbps.SinkApp
