import Cbps.SinkApp.CallStates

/-!
# Hold and swap with calls on two AGs

A request goes from one call to the next, on the same AG with CHLD=2 and on the other one by a switch of the SCO
priorities. If each AG has a call that is active, then the requests go through all of the calls (`scrolls_iff`): from
any index they come to the first call of AG1, and from there they go round. A switch to an AG does not take its only
call off hold, since `mpSwitchToAG` compares what `HfpLinkGetCallState` returns with a call state; and an AG whose call
is still being set up counts as one without calls, so nothing is switched at all.
-/

namespace Cbps.SinkApp

open List Function

open Cbps.Hfp (HfpCallState)

/-! ### The calls of an AG -/

/-- `NoOfCallsAG1` and `NoOfCallsAG2`. -/
def noOfCalls : HfpCallState → ℕ
  | .active | .twcIncoming | .heldRemaining | .multiparty => 1
  | .heldActive => 2
  | _ => 0

/-- The calls of an AG, none of them incoming. Of two calls beside each other the second one may be active, and what is
held alone may be a conference. -/
inductive AgCalls
  | outgoing
  | active
  | twcOutgoing
  | heldActive (second : Bool)
  | heldRemaining (conference : Bool)
  | multiparty
  deriving DecidableEq, Repr

namespace AgCalls

def callState : AgCalls → HfpCallState
  | outgoing => .outgoing
  | active => .active
  | twcOutgoing => .twcOutgoing
  | heldActive _ => .heldActive
  | heldRemaining _ => .heldRemaining
  | multiparty => .multiparty

/-- The number of calls, with a conference as one. -/
def count : AgCalls → ℕ
  | twcOutgoing | heldActive _ => 2
  | _ => 1

/-- The call that is active rather than held. -/
def current : AgCalls → Option ℕ
  | outgoing | active | multiparty => some 0
  | twcOutgoing => some 1
  | heldActive second => some second.toNat
  | heldRemaining _ => none

/-- The answer to CHLD=2: the active call and the held one are exchanged. A call that is being set up is neither. -/
def exchange : AgCalls → AgCalls
  | active => heldRemaining false
  | multiparty => heldRemaining true
  | heldRemaining false => active
  | heldRemaining true => multiparty
  | heldActive second => heldActive !second
  | outgoing => outgoing
  | twcOutgoing => twcOutgoing

/-- There is an active call or conference, with or without a held one. -/
def Up (a : AgCalls) : Prop := a.callState ∈ [HfpCallState.active, .multiparty, .heldActive]

variable {a b : AgCalls}

theorem count_eq (h : a.callState = b.callState) : a.count = b.count := by
  cases a <;> cases b <;> first | rfl | cases h

theorem count_pos (a : AgCalls) : 0 < a.count := by
  cases a <;> exact Nat.succ_pos _

/-- An AG without a call that the application counts leaves its calls as they are. -/
theorem exchange_eq (h : noOfCalls a.callState = 0) : a.exchange = a := by
  cases a <;> first | rfl | cases h

/-- The call states that an exchange can lead to. -/
theorem exchange_mem (h : a.exchange.callState ≠ a.callState) :
    a.exchange.callState ∈ [HfpCallState.active, .heldRemaining, .multiparty] := by
  cases a with
  | heldRemaining conference => cases conference <;> decide
  | active | multiparty => decide
  | _ => exact absurd rfl h

/-- The application counts a call that is not active if it is alone on hold. -/
theorem held_or_none (h : ¬ a.Up) : a.callState = .heldRemaining ∨ noOfCalls a.callState = 0 := by
  revert h
  cases a <;> simp [Up, callState, noOfCalls]

end AgCalls

/-! ### The request -/

/-- The application, the calls of its AGs and `HeldCallIndex`. -/
structure HoldSwap where
  sink : TheSink
  ags : Links AgCalls
  heldCallIndex : ℕ
  deriving DecidableEq, Repr

/-- With calls on both AGs: the next index, the AGs that are sent CHLD=2, and the one to switch to. -/
structure Choice where
  heldCallIndex : ℕ
  chld : List Priority
  switch : Option Priority
  deriving DecidableEq, Repr

/-- The cycle around the calls. The index has four bits. -/
def choice (noOfCallsAG1 noOfCallsAG2 heldCallIndex : ℕ) (routed : Priority) : Choice :=
  let index := (heldCallIndex + 1) % 16
  if noOfCallsAG1 < index then
    if index ≤ noOfCallsAG1 + noOfCallsAG2 then
      if routed ≠ .secondary then ⟨index, [], some .secondary⟩
      else if 1 < noOfCallsAG2 then ⟨index, [.secondary], none⟩
      else ⟨index, [], some .primary⟩
    else if routed ≠ .primary then
      -- the calls are swapped again for the same order next time
      ⟨1, (if 1 < noOfCallsAG2 then [.secondary] else []) ++ if 1 < noOfCallsAG1 then [.primary] else [],
        some .primary⟩
    else ⟨noOfCallsAG1 + 1, [], some .secondary⟩
  else if routed ≠ .primary then ⟨index, [], some .primary⟩
  else if 1 < noOfCallsAG1 then ⟨index, [.primary], none⟩
  else ⟨index, [], some .secondary⟩

namespace HoldSwap

/-- The call states that the links show. -/
def callStates (ags : Links AgCalls) : Links (Option HfpCallState) :=
  ⟨some ags.primary.callState, some ags.secondary.callState⟩

/-- `HfpCallHoldActionRequest` with CHLD=2, and the indication of the call state if it has changed. -/
def hold (env : Env) (s : HoldSwap) (p : Priority) : HoldSwap :=
  let ags := s.ags.set p (s.ags.get p).exchange
  if (ags.get p).callState = (s.ags.get p).callState then { s with ags := ags }
  else
    { s with
      ags := ags
      sink := { s.sink with calls := callStates ags }.sinkHandleCallInd env p (ags.get p).callState }

/-- What `HfpLinkGetCallState` returns for a link that is there. -/
def hfpLinkGetCallStateResult : ℕ := 1

def mpSwitchToAG (env : Env) (s : HoldSwap) (p : Priority) : HoldSwap :=
  let s := { s with sink := (s.sink.setSco p .activeCall).setSco p.other .heldCall }
  if hfpLinkGetCallStateResult = HfpCallState.heldRemaining.ctorIdx then s.hold env p else s

/-- `HfpLinkPriorityFromCallState`. -/
def hfpLinkPriorityFromCallState (s : HoldSwap) (c : HfpCallState) : Option Priority :=
  [Priority.primary, .secondary].find? fun p => (s.ags.get p).callState = c

/-- The AG with the routed audio, by `audioHandleRouting`: the one with the higher SCO priority, or the one with the
first incoming call. -/
def routed (first : Priority) (s : HoldSwap) : Priority :=
  if s.sink.sco .primary = s.sink.sco .secondary then first
  else if (s.sink.sco .primary).ctorIdx < (s.sink.sco .secondary).ctorIdx then .secondary
  else .primary

def perform (env : Env) (s : HoldSwap) (c : Choice) : HoldSwap :=
  let s := c.chld.foldl (hold env) { s with heldCallIndex := c.heldCallIndex }
  match c.switch with
  | some p => s.mpSwitchToAG env p
  | none => s

/-- The branches for a call that comes in are left out: no AG has one. -/
def mpAcceptWaitingHoldActive (env : Env) (first : Priority) (s : HoldSwap) : HoldSwap :=
  let noOfCallsAG1 := noOfCalls s.ags.primary.callState
  let noOfCallsAG2 := noOfCalls s.ags.secondary.callState
  if 0 < noOfCallsAG1 ∧ 0 < noOfCallsAG2 then
    s.perform env (choice noOfCallsAG1 noOfCallsAG2 s.heldCallIndex (s.routed first))
  else
    match [HfpCallState.twcIncoming, .heldActive, .twcOutgoing, .active, .heldRemaining].findSome?
      s.hfpLinkPriorityFromCallState with
    | some p => s.hold env p
    | none => s

/-! ### Scrolling -/

/-- The call that is heard. -/
def audible (first : Priority) (s : HoldSwap) : Option (Priority × ℕ) :=
  (s.ags.get (s.routed first)).current.map fun c => (s.routed first, c)

/-- The state after a number of requests. -/
def requests (env : Env) (first : Priority) (j : ℕ) (s : HoldSwap) : HoldSwap :=
  (mpAcceptWaitingHoldActive env first)^[j] s

/-- One AG has the priority of an active call after each request, and from some request on, the requests go round all
of the calls. -/
structure Scrolls (env : Env) (first : Priority) (s : HoldSwap) : Prop where
  one : ∀ j, ∃! p, (s.requests env first j).sink.sco p = .activeCall
  round : ∃ k n, 0 < n ∧
    (∀ j, k ≤ j → (s.requests env first (j + n)).audible first = (s.requests env first j).audible first) ∧
    ∀ p, ∀ c < (s.ags.get p).count, ∃ i < n, (s.requests env first (k + i)).audible first = some (p, c)

/-- The state in which the audio of an AG is routed. -/
def start (sink : TheSink) (ags : Links AgCalls) (heldCallIndex : ℕ) (r : Priority) : HoldSwap :=
  ⟨(sink.setSco r .activeCall).setSco r.other .heldCall, ags, heldCallIndex⟩

end HoldSwap

/-! ### What the user has in view -/

/-- The calls, the index and the AG whose audio is routed. -/
structure View where
  ags : Links AgCalls
  heldCallIndex : ℕ
  routed : Priority
  deriving DecidableEq, Repr

namespace View

def count (v : View) (p : Priority) : ℕ := noOfCalls (v.ags.get p).callState

def choice (v : View) : Choice := SinkApp.choice (v.count .primary) (v.count .secondary) v.heldCallIndex v.routed

def exchange (ags : Links AgCalls) (p : Priority) : Links AgCalls := ags.set p (ags.get p).exchange

/-- The view after a request, with calls on both AGs. -/
def next (v : View) : View :=
  ⟨v.choice.chld.foldl exchange v.ags, v.choice.heldCallIndex, v.choice.switch.getD v.routed⟩

def audible (v : View) : Option (Priority × ℕ) := (v.ags.get v.routed).current.map fun c => (v.routed, c)

variable {v : View} {ags : Links AgCalls} {p : Priority}

/-- With two calls an exchange does not show in the call state. -/
theorem callState_exchange (h : 1 < noOfCalls (ags.get p).callState) (q : Priority) :
    ((exchange ags p).get q).callState = (ags.get q).callState := by
  rw [exchange, Links.get_set]
  split
  · next hq =>
    rw [hq]
    revert h
    cases ags.get p <;> decide +revert
  · rfl

/-- Only AGs with two calls are sent CHLD=2. -/
theorem one_lt_of_chld (h : p ∈ v.choice.chld) : 1 < v.count p := by
  rw [choice, SinkApp.choice] at h
  split_ifs at h <;> simp at h <;> grind

theorem callState_foldl (l : List Priority) (h : ∀ p ∈ l, 1 < noOfCalls (ags.get p).callState) (q : Priority) :
    ((l.foldl exchange ags).get q).callState = (ags.get q).callState := by
  induction l generalizing ags with
  | nil => rfl
  | cons p l ih =>
    have hp := callState_exchange (h p mem_cons_self)
    rw [foldl_cons, ih (fun r hr => by rw [hp]; exact h r (mem_cons_of_mem _ hr)), hp]

theorem callState_next (q : Priority) : (v.next.ags.get q).callState = (v.ags.get q).callState :=
  callState_foldl _ (fun _ hp => one_lt_of_chld hp) q

theorem callState_iterate (j : ℕ) (q : Priority) : ((next^[j] v).ags.get q).callState = (v.ags.get q).callState := by
  induction j with
  | zero => rfl
  | succ j ih => rw [iterate_succ_apply', callState_next, ih]

/-- What a request makes of the index and of the routed AG. -/
def control (n₁ n₂ : ℕ) (c : ℕ × Priority) : ℕ × Priority :=
  ((SinkApp.choice n₁ n₂ c.1 c.2).heldCallIndex, (SinkApp.choice n₁ n₂ c.1 c.2).switch.getD c.2)

theorem control_iterate (j : ℕ) : ((next^[j] v).heldCallIndex, (next^[j] v).routed) =
    (control (v.count .primary) (v.count .secondary))^[j] (v.heldCallIndex, v.routed) := by
  induction j with
  | zero => rfl
  | succ j ih =>
    rw [iterate_succ_apply', iterate_succ_apply', ← ih]
    simp only [next, choice, control, count, callState_iterate]

set_option maxRecDepth 100000 in
/-- From every index, the requests come to the first index with AG1. -/
theorem control_home : ∀ n₁ ∈ [1, 2], ∀ n₂ ∈ [1, 2], ∀ i < 16, ∀ r ∈ [Priority.primary, .secondary],
    ∃ j < 9, (control n₁ n₂)^[j + 1] (i, r) = (1, .primary) := by
  decide

/-- From the first index with AG1, the requests go round all of the calls. -/
theorem round_home : ∀ a ∈ [AgCalls.active, .multiparty, .heldActive false, .heldActive true],
    ∀ b ∈ [AgCalls.active, .multiparty, .heldActive false, .heldActive true],
      next^[a.count + b.count] ⟨⟨a, b⟩, 1, .primary⟩ = ⟨⟨a, b⟩, 1, .primary⟩ ∧
        ∀ p ∈ [Priority.primary, .secondary], ∀ c < ((Links.mk a b).get p).count,
          ∃ i < a.count + b.count, (next^[i] ⟨⟨a, b⟩, 1, .primary⟩).audible = some (p, c) := by
  decide

/-- So from every view with active calls on both AGs, they go round from some request on. -/
theorem exists_round (hup : ∀ p, (v.ags.get p).Up) : ∃ k n, 0 < n ∧ next^[n] (next^[k] v) = next^[k] v ∧
    ∀ p, ∀ c < (v.ags.get p).count, ∃ i < n, (next^[i] (next^[k] v)).audible = some (p, c) := by
  have hcount (p : Priority) : v.count p ∈ [1, 2] := by
    have h := hup p
    rw [AgCalls.Up] at h
    rw [count]
    revert h
    cases (v.ags.get p).callState <;> decide
  -- the index counts up to four bits
  have hmod : control (v.count .primary) (v.count .secondary) (v.heldCallIndex, v.routed) =
      control (v.count .primary) (v.count .secondary) (v.heldCallIndex % 16, v.routed) := by
    rw [control, control, SinkApp.choice, SinkApp.choice, Nat.mod_add_mod]
  obtain ⟨j, -, hj⟩ := control_home _ (hcount .primary) _ (hcount .secondary) _
    (Nat.mod_lt v.heldCallIndex (by decide)) v.routed (by cases v.routed <;> decide)
  rw [iterate_succ_apply, ← hmod, ← iterate_succ_apply, ← control_iterate] at hj
  have hcalls (p : Priority) := callState_iterate (v := v) (j + 1) p
  have hups (p : Priority) : (next^[j + 1] v).ags.get p ∈
      [AgCalls.active, .multiparty, .heldActive false, .heldActive true] := by
    have h := hup p
    rw [AgCalls.Up, ← hcalls] at h
    revert h
    cases (next^[j + 1] v).ags.get p with
    | heldActive second => cases second <;> decide
    | heldRemaining => exact fun h => absurd h (by decide +revert)
    | _ => decide
  refine ⟨j + 1, ((next^[j + 1] v).ags.get .primary).count + ((next^[j + 1] v).ags.get .secondary).count, ?_⟩
  generalize next^[j + 1] v = w at hj hcalls hups ⊢
  obtain ⟨⟨a, b⟩, i, r⟩ := w
  obtain ⟨rfl, rfl⟩ := Prod.mk.inj hj
  obtain ⟨hround, hshows⟩ := round_home a (hups .primary) b (hups .secondary)
  refine ⟨by cases a <;> exact Nat.add_pos_left (Nat.succ_pos _) _, hround, fun p c hc => ?_⟩
  rw [← AgCalls.count_eq (hcalls p)] at hc
  exact hshows p (by cases p <;> decide) c hc

end View

namespace HoldSwap

variable {s : HoldSwap} {v : View} {env : Env} {first r p : Priority}

/-! ### The application follows the view -/

/-- The routed AG has the SCO priority of an active call, and the other one that of a held call. -/
def Routes (s : HoldSwap) (r : Priority) : Prop := s.sink.sco r = .activeCall ∧ s.sink.sco r.other = .heldCall

theorem Routes.routed_eq (h : s.Routes r) : s.routed first = r := by
  obtain ⟨hactive, hheld⟩ := h
  cases r
  · change s.sink.sco .secondary = _ at hheld
    rw [routed, hactive, hheld]
    rfl
  · change s.sink.sco .primary = _ at hheld
    rw [routed, hactive, hheld]
    rfl

theorem Routes.one (h : s.Routes r) : ∃! p, s.sink.sco p = .activeCall := by
  refine ⟨r, h.1, fun p hp => ?_⟩
  by_contra hne
  obtain rfl : p = r.other := by cases p <;> cases r <;> first | rfl | exact absurd rfl hne
  cases h.2.symm.trans hp

/-- The application is where the view has it. -/
structure Follows (s : HoldSwap) (v : View) : Prop where
  ags : s.ags = v.ags
  index : s.heldCallIndex = v.heldCallIndex
  routes : s.Routes v.routed

theorem Follows.audible_eq (h : s.Follows v) : s.audible first = v.audible := by
  rw [audible, View.audible, h.routes.routed_eq, h.ags]

/-- With two calls nothing but the calls of the AG is changed. -/
theorem hold_eq (h : 1 < noOfCalls (s.ags.get p).callState) : s.hold env p = { s with ags := View.exchange s.ags p } :=
  if_pos (View.callState_exchange h p)

theorem foldl_hold (l : List Priority) (h : ∀ p ∈ l, 1 < noOfCalls (s.ags.get p).callState) :
    l.foldl (hold env) s = { s with ags := l.foldl View.exchange s.ags } := by
  induction l generalizing s with
  | nil => rfl
  | cons p l ih =>
    have hp := h p mem_cons_self
    rw [foldl_cons, foldl_cons, hold_eq hp]
    refine ih fun q hq => ?_
    rw [View.callState_exchange hp]
    exact h q (mem_cons_of_mem _ hq)

/-- What is compared with the call state is never one on hold. -/
theorem mpSwitchToAG_eq :
    s.mpSwitchToAG env p = { s with sink := (s.sink.setSco p .activeCall).setSco p.other .heldCall } := by
  rw [mpSwitchToAG]
  exact if_neg (by decide)

theorem routes_switch (sink : TheSink) (ags : Links AgCalls) (i : ℕ) (r : Priority) : (start sink ags i r).Routes r :=
  ⟨by simp [start], by simp [start]⟩

/-- A request with calls on both AGs. -/
theorem Follows.next (h : s.Follows v) (hcalls : ∀ p, 0 < v.count p) :
    (s.mpAcceptWaitingHoldActive env first).Follows v.next := by
  obtain ⟨sink, ags, i⟩ := s
  obtain ⟨ags, i, r⟩ := v
  obtain ⟨rfl, rfl, hroutes⟩ := h
  rw [mpAcceptWaitingHoldActive, if_pos ⟨hcalls .primary, hcalls .secondary⟩, hroutes.routed_eq]
  have htwo : ∀ p ∈ (View.choice ⟨ags, i, r⟩).chld, 1 < noOfCalls (ags.get p).callState :=
    fun p hp => View.one_lt_of_chld hp
  change Follows (perform env _ (View.choice ⟨ags, i, r⟩)) _
  rw [perform, foldl_hold _ htwo]
  dsimp only [View.next]
  cases (View.choice ⟨ags, i, r⟩).switch with
  | none => exact ⟨rfl, rfl, hroutes⟩
  | some p =>
    dsimp only
    rw [mpSwitchToAG_eq]
    exact ⟨rfl, rfl, routes_switch sink _ _ p⟩

/-- All of the requests, with calls on both AGs. -/
theorem Follows.requests (h : s.Follows v) (hcalls : ∀ p, 0 < v.count p) (j : ℕ) :
    (s.requests env first j).Follows (View.next^[j] v) := by
  induction j with
  | zero => exact h
  | succ j ih =>
    rw [HoldSwap.requests, iterate_succ_apply', iterate_succ_apply']
    refine ih.next fun p => ?_
    rw [View.count, View.callState_iterate]
    exact hcalls p

/-- With an active call on each AG, the requests go round all of the calls. -/
theorem Follows.scrolls (h : s.Follows v) (hup : ∀ p, (v.ags.get p).Up) : s.Scrolls env first := by
  have hcalls (p : Priority) : 0 < v.count p := by
    have hp := hup p
    rw [AgCalls.Up] at hp
    rw [View.count]
    revert hp
    cases (v.ags.get p).callState <;> decide
  have haudible (j : ℕ) : (s.requests env first j).audible first = (View.next^[j] v).audible :=
    (h.requests hcalls j).audible_eq
  refine ⟨fun j => (h.requests hcalls j).routes.one, ?_⟩
  obtain ⟨k, n, hn, hround, hshows⟩ := View.exists_round hup
  refine ⟨k, n, hn, fun j hj => ?_, fun p c hc => ?_⟩
  · obtain ⟨i, rfl⟩ := Nat.exists_eq_add_of_le' hj
    rw [haudible, haudible, Nat.add_assoc, Nat.add_comm k, iterate_add_apply, iterate_add_apply,
      hround, iterate_add_apply]
  · rw [h.ags] at hc
    obtain ⟨i, hi, hi'⟩ := hshows p c hc
    exact ⟨i, hi, by rw [haudible, Nat.add_comm, iterate_add_apply, hi']⟩

/-! ### Where the requests do not go round -/

/-- A call that is alone on hold is never heard. -/
theorem Follows.not_scrolls (h : s.Follows v) (hcalls : ∀ p, 0 < v.count p)
    (hheld : (v.ags.get p).callState = .heldRemaining) : ¬ s.Scrolls env first := by
  rintro ⟨-, k, n, -, -, hshows⟩
  obtain ⟨i, -, hi⟩ := hshows p 0 (AgCalls.count_pos _)
  rw [(h.requests hcalls (k + i)).audible_eq, View.audible] at hi
  have hstill := View.callState_iterate (v := v) (k + i) p
  obtain ⟨c, hc, hpair⟩ := Option.map_eq_some_iff.mp hi
  rw [(Prod.mk.inj hpair).1] at hc
  rw [hheld] at hstill
  revert hc hstill
  cases (View.next^[k + i] v).ags.get p <;> simp [AgCalls.callState, AgCalls.current]

/-- An active call takes the SCO priority of the other AG back to that of a held call, or changes none. -/
theorem callActive_sco (sink : TheSink) (hring : sink.sco p ≠ .inbandRing) (other : Option HfpCallState) (action : Bool)
    (q : Priority) : (sink.callActive env p other action).sco q = sink.sco q ∨
      (sink.callActive env p other action).sco q = .heldCall := by
  unfold TheSink.callActive
  dsimp only
  obtain ⟨t, ht⟩ : ∃ t, t =
      if sink.device = .incomingCallEstablish ∨ sink.device = .threeWayCallWaiting
      then { sink.ringAnswered action with repeatCallerIDFlag := true } else sink.ringAnswered action := ⟨_, rfl⟩
  have hsco (q : Priority) : t.sco q = sink.sco q := by
    rw [ht]
    split <;> exact TheSink.ringAnswered_sco sink action q
  have hquiet : (if t.sco p = .inbandRing then t.setSco p .activeCall else t) = t := if_neg (by rwa [hsco])
  rw [← ht, hquiet, ← hsco]
  split_ifs
  · rw [TheSink.setState_sco, TheSink.sco_setSco]
    split
    · exact Or.inr rfl
    · exact Or.inl rfl
  · exact Or.inl rfl
  · exact Or.inl rfl

/-- An indication that follows an exchange does the same. -/
theorem indication_sco (env : Env) (sink : TheSink) {c : HfpCallState} (hc : c ∈ [HfpCallState.active, .heldRemaining, .multiparty])
    (hcalls : sink.calls.get p = some c) (hring : sink.sco p ≠ .inbandRing) (q : Priority) :
    (sink.sinkHandleCallInd env p c).sco q = sink.sco q ∨ (sink.sinkHandleCallInd env p c).sco q = .heldCall := by
  unfold TheSink.sinkHandleCallInd
  dsimp only
  rw [TheSink.callState, hcalls, Option.getD_some]
  obtain ⟨t, ht⟩ : ∃ t : TheSink,
      t = { sink with profiles := sink.profiles.set p { sink.profiles.get p with localCallAction := false } } := ⟨_, rfl⟩
  have hsco (q : Priority) : t.sco q = sink.sco q := by
    rw [ht]
    cases p <;> cases q <;> rfl
  rw [← ht, TheSink.perform_sco, ← hsco]
  rw [← hsco] at hring
  simp only [List.mem_cons, List.not_mem_nil, or_false] at hc
  obtain rfl | rfl | rfl := hc
  · exact callActive_sco t hring _ _ q
  · exact Or.inl rfl
  · exact Or.inl rfl

/-- An AG is without calls that the application counts, and the other one than `r` never gets the audio. -/
structure Stuck (s : HoldSwap) (p r : Priority) : Prop where
  none : noOfCalls (s.ags.get p).callState = 0
  held : s.sink.sco r.other = .heldCall
  ring : ∀ q, s.sink.sco q ≠ .inbandRing

theorem Stuck.hold (h : s.Stuck p r) (q : Priority) : (s.hold env q).Stuck p r := by
  have hnone : noOfCalls ((s.ags.set q (s.ags.get q).exchange).get p).callState = 0 := by
    rw [Links.get_set]
    split
    · next hp => rw [← hp, AgCalls.exchange_eq h.none, h.none]
    · exact h.none
  rw [HoldSwap.hold]
  dsimp only
  split
  · exact ⟨hnone, h.held, h.ring⟩
  · next hchanged =>
    obtain ⟨ags, hags⟩ : ∃ ags, ags = s.ags.set q (s.ags.get q).exchange := ⟨_, rfl⟩
    have hq : ags.get q = (s.ags.get q).exchange := by rw [hags, Links.get_set, if_pos rfl]
    rw [← hags] at hnone hchanged ⊢
    rw [hq] at hchanged ⊢
    have hshown : (callStates ags).get q = some (s.ags.get q).exchange.callState := by
      rw [← hq]
      cases q <;> rfl
    have hsco := indication_sco env { s.sink with calls := callStates ags } (AgCalls.exchange_mem hchanged)
      hshown (h.ring q)
    refine ⟨hnone, (hsco r.other).elim (fun heq => heq.trans h.held) id, fun q' => ?_⟩
    obtain heq | heq := hsco q'
    · rw [heq]
      exact h.ring q'
    · rw [heq]
      decide

/-- No AG gets the audio, while another one is without calls that the application counts. -/
theorem Stuck.requests (h : s.Stuck p r) (j : ℕ) : (s.requests env first j).Stuck p r := by
  induction j with
  | zero => exact h
  | succ j ih =>
    rw [HoldSwap.requests, iterate_succ_apply']
    rw [mpAcceptWaitingHoldActive, if_neg ?_]
    · split
      · exact ih.hold _
      · exact ih
    · rintro ⟨hprimary, hsecondary⟩
      cases p
      · exact absurd ih.none hprimary.ne'
      · exact absurd ih.none hsecondary.ne'

theorem Stuck.not_scrolls (h : s.Stuck p r) : ¬ s.Scrolls env first := by
  rintro ⟨hone, k, n, -, -, hshows⟩
  obtain ⟨i, -, hi⟩ := hshows r.other 0 (AgCalls.count_pos _)
  have hstuck : (s.requests env first (k + i)).Stuck p r := h.requests (k + i)
  obtain ⟨q, hq, -⟩ := hone (k + i)
  obtain rfl : q = r := by
    by_contra hne
    obtain rfl : q = r.other := by cases q <;> cases r <;> first | rfl | exact absurd rfl hne
    cases hstuck.held.symm.trans hq
  rw [audible, Routes.routed_eq ⟨hq, hstuck.held⟩] at hi
  obtain ⟨c, -, hpair⟩ := Option.map_eq_some_iff.mp hi
  exact absurd (Prod.mk.inj hpair).1 q.ne_other

/-- **The requests go round all of the calls** if and only if each AG has an active call or conference, alone or beside a
held call. -/
theorem scrolls_iff (env : Env) (first : Priority) (sink : TheSink) (ags : Links AgCalls) (heldCallIndex : ℕ)
    (r : Priority) : (start sink ags heldCallIndex r).Scrolls env first ↔ ∀ p, (ags.get p).Up := by
  have hroutes := routes_switch sink ags heldCallIndex r
  have hfollows : (start sink ags heldCallIndex r).Follows ⟨ags, heldCallIndex, r⟩ := ⟨rfl, rfl, hroutes⟩
  constructor
  · intro hscrolls
    by_contra hup
    obtain ⟨p, hp⟩ := not_forall.mp hup
    by_cases hcalls : ∀ q, 0 < View.count ⟨ags, heldCallIndex, r⟩ q
    · obtain hheld | hnone := AgCalls.held_or_none hp
      · exact hfollows.not_scrolls hcalls hheld hscrolls
      · exact absurd hnone (hcalls p).ne'
    · obtain ⟨q, hq⟩ := not_forall.mp hcalls
      have hnone : noOfCalls (ags.get q).callState = 0 := Nat.eq_zero_of_not_pos hq
      refine Stuck.not_scrolls (s := start sink ags heldCallIndex r) ⟨hnone, hroutes.2, fun q => ?_⟩ hscrolls
      have hq : q = r ∨ q = r.other := by cases q <;> cases r <;> decide
      obtain rfl | rfl := hq
      · rw [hroutes.1]
        decide
      · rw [hroutes.2]
        decide
  · exact hfollows.scrolls

/-- With an active call on AG1, a call that is on hold on AG2 is never heard. -/
theorem not_always_scrolls : ¬ ∀ env first sink ags heldCallIndex r,
    (start sink ags heldCallIndex r).Scrolls env first := by
  intro hscrolls
  have hfollows : (start ⟨⟨none, none⟩, [], .connected, ⟨⟨.none, true, false, false⟩, ⟨.none, true, false, false⟩⟩, false,
      .primary, []⟩ ⟨.active, .heldRemaining false⟩ 0 .primary).Follows ⟨⟨.active, .heldRemaining false⟩, 0, .primary⟩ :=
    ⟨rfl, rfl, routes_switch _ _ _ _⟩
  exact hfollows.not_scrolls (p := .secondary) (fun p => by cases p <;> decide) rfl
    (hscrolls ⟨false, false, false, false, false, false⟩ .primary _ _ _ _)

end HoldSwap

end Cbps.SinkApp
