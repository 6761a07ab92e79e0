import Cbps.Sm.Channel

/-!
# Authentication requests are answered once

Over a run of authenticate requests, cancels and reads of OOB data, with everything that the stack reports on any
devices, `Answered` is what the clients rely on: each request that has ended was answered once, to its client and
about its device, an event ended only the request it is about, and `authReqLock` is taken exactly while an
authentication or a read is in progress. The code does not keep it: it takes many events for the end of the
authentication in progress whatever device they are about, sends the confirm of a success to the application and not
to the client, and does not cancel the timeout of a request that the stack timed out. `sessions_answered_of_run` says that in
every run whose steps avoid these, `Answered` holds in every state.
-/

namespace Cbps.Sm

open List Option

open Tdl (Bdaddr TypedBdaddr)

variable {theAppTask : Task} {version : BtVersion}

/-! ### What clients rely on -/

/-- Is the occasion about this request: about its device, or its own timeout? -/
def Occasion.Concerns (id : ℕ) (req : AuthenticationReq) : Occasion → Prop
  | .device addr => addr = req.bdAddr
  | .timer n => n = id
  | _ => False

/-- The answer of a request goes to its client and names its device; all other confirms go to the application. -/
def AuthAnswer.Right (theAppTask : Task) (asked : List AuthenticationReq) (a : AuthAnswer) : Prop :=
  match a.id with
  | some id => ∃ req, asked[id]? = some req ∧ a.client = req.task ∧ a.cfm.bdAddr = req.bdAddr
  | none => a.client = theAppTask

/-- The number of a request that waits for the lock. -/
def Waiting.id : Waiting → Option ℕ
  | .authenticate id _ => some id
  | .readOob _ => none

namespace Sessions

/-- The number of the request that is being authenticated. -/
def activeIds (w : Sessions) : List ℕ := (w.active.map Session.id).toList

/-- The number of the request that is being authenticated, if it is answered. -/
def answeredIds (w : Sessions) : List ℕ := ((w.active.filter Session.answered).map Session.id).toList

/-- The numbers of all requests: waiting, being authenticated, or ended. -/
def places (w : Sessions) : List ℕ :=
  w.held.filterMap Waiting.id ++ (w.activeIds ++ w.ended.map Prod.fst)

end Sessions

/-- A set-mode request of the library is on its way, put back or outstanding. -/
def Settings.Restores (w : Settings) : Prop :=
  w.posted ≠ [] ∨ (∃ x ∈ w.held, x.1 = none) ∨ ∃ p ∈ w.inits, ∃ req, p.cause = .setting none req

/-- **What clients rely on.** -/
structure Answered (theAppTask : Task) (m : Manager) : Prop where
  answers : ∀ a ∈ m.sessions.answers, a.Right theAppTask m.sessions.asked
  once : (m.sessions.answers.filterMap AuthAnswer.id).Perm
    (m.sessions.answeredIds ++ m.sessions.ended.map Prod.fst)
  places : m.sessions.places.Perm (List.range m.sessions.asked.length)
  occasions : ∀ x ∈ m.sessions.ended, ∃ req, m.sessions.asked[x.1]? = some req ∧ x.2.Concerns x.1 req
  lock : m.sm.authReqLock ≠ 0 ↔ m.sessions.session.isSome ∨ m.sessions.oob.isSome
  release : ∀ s, m.sessions.session = some s →
    if s.restoring then m.settings.Restores else s.id ∈ m.sessions.timers
  running : m.panicked = false

/-! ### The condition -/

/-- The event is about the device that is being authenticated, whose request is answered or is not. -/
def Manager.Own (m : Manager) (addr : Bdaddr) (answered : Bool) : Prop :=
  match m.sessions.active with
  | some s => addr = s.req.bdAddr ∧ s.answered = answered
  | none => False

instance (m : Manager) (addr : Bdaddr) (answered : Bool) : Decidable (m.Own addr answered) := by
  unfold Manager.Own
  split <;> infer_instance

/-- Is one of the keys a legacy key, which ends an authentication? -/
def EndsByKey (sm : SmState) (keys : List (List ℕ)) : Prop :=
  sm.securityMode.bonds ∧ keys.any fun words => bredrKeyType words = .legacy

instance (sm : SmState) (keys : List (List ℕ)) : Decidable (EndsByKey sm keys) := inferInstanceAs (Decidable (_ ∧ _))

/-- Link keys come for the device that is being authenticated one at a time, on behalf of the application, and once;
while another authentication or a read is in progress no legacy key comes. -/
def AdmitsKeys (theAppTask : Task) (m : Manager) (addr : Bdaddr) (keys : List (List ℕ)) : Prop :=
  match m.sessions.active with
  | some s =>
    if addr = s.req.bdAddr then keys = [] ∨ (keys.length = 1 ∧ s.req.task = theAppTask ∧ s.answered = false)
    else ¬ EndsByKey m.sm keys
  | none => m.sessions.oob.isSome → ¬ EndsByKey m.sm keys

instance (theAppTask : Task) (m : Manager) (addr : Bdaddr) (keys : List (List ℕ)) :
    Decidable (AdmitsKeys theAppTask m addr keys) := by
  unfold AdmitsKeys
  split
  · split <;> infer_instance
  · infer_instance

/-- The confirm of a set-mode request of the library releases the lock after an authentication, and does not come
during a read. -/
def AdmitsRestore (m : Manager) (cfm : InitCfm) (p : Init) : Prop :=
  match p.cause with
  | .setting none _ =>
    (m.sessions.oob.isSome → cfm.status ≠ 0) ∧
      (cfm.status ≠ 0 → m.sessions.session.any Session.restoring →
        m.settings.posted ≠ [] ∨ m.settings.held.any fun x => x.1 = none)
  | _ => True

instance (m : Manager) (cfm : InitCfm) (p : Init) : Decidable (AdmitsRestore m cfm p) := by
  unfold AdmitsRestore
  split <;> infer_instance

/-- The condition on a step: an event that ends an authentication is about its device, and tells the client what it
has not been told. -/
def AdmitsSession (theAppTask : Task) (version : BtVersion) (m : Manager) (e : Input) : Prop :=
  OneAtATime version m e ∧
    match e with
    | .initCfm cfm => ∀ p ∈ m.settings.inits.head?.toList, AdmitsRestore m cfm p
    | .keysInd _ addr keys => AdmitsKeys theAppTask m addr keys
    | .simplePairingComplete addr status => m.sm.authReqLock ≠ 0 → m.Own addr (decide (status = 0))
    | .aclOpenCfm addr success => m.sm.authReqLock ≠ 0 → success = false → m.Own addr false
    | .aclOpenedInd addr status =>
      m.sm.authReqLock ≠ 0 → m.sm.securityMode.bonds → connectionConvertAuthStatus status = .timeout → m.Own addr false
    | .bondingCfm addr status =>
      m.sm.authReqLock ≠ 0 → m.sm.securityMode.bonds → connectionConvertAuthStatus status ≠ .success →
        m.sm.authRemoteAddr = addr → m.Own addr false
    | .aclClosedInd addr =>
      m.sm.authReqLock ≠ 0 → ¬ m.sm.securityMode.bonds → m.sm.authRemoteAddr = addr → m.Own addr true
    | .timeout n => ∀ id ∈ m.sessions.timers[n]?.toList,
      (m.sm.authReqLock = 0 ∧ m.sm.securityMode.bonds) ∨ m.sessions.activeIds = [id] ∧ m.sessions.answeredIds = []
    | _ => True

instance (theAppTask : Task) (version : BtVersion) (m : Manager) (e : Input) :
    Decidable (AdmitsSession theAppTask version m e) := by
  rcases e with ⟨⟩ <;> dsimp only [AdmitsSession] <;> infer_instance

/-! ### The ledger of requests and answers -/

/-- A request that waits was made by a client. -/
def Waiting.Known (asked : List AuthenticationReq) : Waiting → Prop
  | .authenticate id req => asked[id]? = some req ∧ req.task ≠ 0 ∧ bdaddrIsZero req.bdAddr = false
  | .readOob task => task ≠ 0

theorem Waiting.Known.concat {asked : List AuthenticationReq} {w : Waiting} (h : w.Known asked)
    (req : AuthenticationReq) : w.Known (asked ++ [req]) := by
  cases w with
  | readOob task => exact h
  | authenticate id req' =>
    obtain ⟨hget, hrest⟩ := h
    obtain ⟨hn, _⟩ := List.getElem?_eq_some_iff.mp hget
    exact ⟨by rw [List.getElem?_append_left hn, hget], hrest⟩

/-- The invariant of the requests and their answers. -/
structure Ledger (theAppTask : Task) (w : Sessions) : Prop where
  held : ∀ x ∈ w.held, x.Known w.asked
  answers : ∀ a ∈ w.answers, a.Right theAppTask w.asked
  once : (w.answers.filterMap AuthAnswer.id).Perm (w.answeredIds ++ w.ended.map Prod.fst)
  places : w.places.Perm (List.range w.asked.length)
  occasions : ∀ x ∈ w.ended, ∃ req, w.asked[x.1]? = some req ∧ x.2.Concerns x.1 req

variable {cfm : AuthenticateCfm}

namespace Ledger

variable {w : Sessions} {s : Session}

theorem active_eq_some : w.active = some s ↔ w.session = some s ∧ s.restoring = false := by
  rw [Sessions.active, filter_eq_some_iff]
  simp

/-- Confirms that are no answer of a request. -/
theorem untagged (h : Ledger theAppTask w) (as : List AuthAnswer) (has : ∀ a ∈ as, a.id = none ∧ a.client = theAppTask)
    (ts : List ℕ) : Ledger theAppTask { w with answers := w.answers ++ as, timers := ts } := by
  refine ⟨h.held, ?_, ?_, h.places, h.occasions⟩
  · intro a ha
    rcases mem_append.mp ha with hmem | hmem
    · exact h.answers a hmem
    · obtain ⟨hid, hclient⟩ := has a hmem
      rw [AuthAnswer.Right, hid]
      exact hclient
  · have hnone : as.filterMap AuthAnswer.id = [] :=
      filterMap_eq_nil_iff.mpr fun a ha => (has a ha).1
    rw [filterMap_append, hnone, append_nil]
    exact h.once

/-- The answer of the request that is being authenticated. -/
theorem answer (h : Ledger theAppTask w) (hactive : w.active = some s) (hnot : s.answered = false)
    {client : Task} (hright : AuthAnswer.Right theAppTask w.asked ⟨some s.id, client, cfm⟩) :
    Ledger theAppTask { w with
      answers := w.answers ++ [⟨some s.id, client, cfm⟩]
      session := some { s with answered := true } } := by
  have hrest : s.restoring = false := (active_eq_some.mp hactive).2
  refine ⟨h.held, ?_, ?_, ?_, h.occasions⟩
  · intro a ha
    rcases mem_append.mp ha with hmem | hmem
    · exact h.answers a hmem
    · exact mem_singleton.mp hmem ▸ hright
  · have hbefore : w.answeredIds = [] := by simp [Sessions.answeredIds, hactive, hnot]
    have honce := h.once
    rw [hbefore, nil_append] at honce
    have hafter : Sessions.answeredIds { w with
        answers := w.answers ++ [⟨some s.id, client, cfm⟩]
        session := some { s with answered := true } } = [s.id] := by
      simp [Sessions.answeredIds, Sessions.active, hrest]
    rw [hafter, filterMap_append]
    exact (perm_append_singleton _ _).trans (honce.cons _)
  · have hafter : Sessions.activeIds { w with
        answers := w.answers ++ [⟨some s.id, client, cfm⟩]
        session := some { s with answered := true } } = w.activeIds := by
      rw [Sessions.activeIds, Sessions.activeIds, hactive]
      simp [Sessions.active, hrest]
    rw [Sessions.places, hafter]
    exact h.places

/-- The request that is being authenticated comes to its end, answered. -/
theorem finish (h : Ledger theAppTask w) (hactive : w.active = some s) (hans : s.answered = true)
    (hasked : w.asked[s.id]? = some s.req) {o : Occasion} (ho : o.Concerns s.id s.req) (next : Option Session)
    (hnext : ∀ s' ∈ next, s'.restoring = true) (ts : List ℕ) :
    Ledger theAppTask { w with session := next, ended := w.ended ++ [(s.id, o)], timers := ts } := by
  have hnone : Sessions.active { w with session := next, ended := w.ended ++ [(s.id, o)], timers := ts } = none := by
    rw [Sessions.active]
    cases next with
    | none => rfl
    | some s' => simp [hnext s' rfl]
  refine ⟨h.held, h.answers, ?_, ?_, ?_⟩
  · have honce := h.once
    have hbefore : w.answeredIds = [s.id] := by simp [Sessions.answeredIds, hactive, hans]
    rw [hbefore] at honce
    rw [Sessions.answeredIds, hnone, map_append]
    exact honce.trans (perm_append_singleton s.id (w.ended.map Prod.fst)).symm
  · have hplaces := h.places
    rw [Sessions.places, Sessions.activeIds, hactive] at hplaces
    rw [Sessions.places, Sessions.activeIds, hnone, map_append]
    exact ((perm_append_singleton s.id (w.ended.map Prod.fst)).append_left _).trans hplaces
  · intro x hx
    rcases mem_append.mp hx with hmem | hmem
    · exact h.occasions x hmem
    · obtain rfl := mem_singleton.mp hmem
      exact ⟨s.req, hasked, ho⟩

/-- A request that has ended and whose lock is released later, or is released now. -/
theorem release (h : Ledger theAppTask w) (hnone : w.active = none) {next : Option Session}
    (hnext : ∀ s' ∈ next, s'.restoring = true) : Ledger theAppTask { w with session := next } := by
  have hnone' : Sessions.active { w with session := next } = none := by
    rw [Sessions.active]
    cases next with
    | none => rfl
    | some s' => simp [hnext s' rfl]
  refine ⟨h.held, h.answers, ?_, ?_, h.occasions⟩
  · have honce := h.once
    rw [Sessions.answeredIds, hnone] at honce
    rw [Sessions.answeredIds, hnone']
    exact honce
  · have hplaces := h.places
    rw [Sessions.places, Sessions.activeIds, hnone] at hplaces
    rw [Sessions.places, Sessions.activeIds, hnone']
    exact hplaces

end Ledger

/-! ### The lock -/

/-- The authentication in progress holds the lock. While it runs, its device is recorded and its timeout is on its
way; after its end a set-mode request of the library is to release the lock. -/
structure Session.Holds (m : Manager) (s : Session) : Prop where
  lock : m.sm.authReqLock = s.req.task
  task : s.req.task ≠ 0
  device : bdaddrIsZero s.req.bdAddr = false
  asked : m.sessions.asked[s.id]? = some s.req
  running : s.restoring = false → m.sm.authRemoteAddr = s.req.bdAddr ∧ s.id ∈ m.sessions.timers
  restoring : s.restoring = true → ¬ m.sm.securityMode.bonds ∧ m.settings.Restores

/-- Who holds `authReqLock`. -/
structure Locked (m : Manager) : Prop where
  idle : m.sessions.session = none → m.sessions.oob = none → m.sm.authReqLock = 0
  reading : ∀ task, m.sessions.oob = some task →
    m.sessions.session = none ∧ m.sm.authReqLock = task ∧ task ≠ 0
  session : ∀ s, m.sessions.session = some s → s.Holds m
  inactive : m.sessions.active = none → m.sm.authRemoteAddr = ⟨0, 0, 0⟩

/-- The invariant of the sessions. -/
structure Orderly (theAppTask : Task) (m : Manager) : Prop where
  channel : Channel m
  ledger : Ledger theAppTask m.sessions
  locked : Locked m

namespace Locked

variable {m m' : Manager} {s : Session}

theorem lock_iff (h : Locked m) :
    m.sm.authReqLock ≠ 0 ↔ m.sessions.session.isSome ∨ m.sessions.oob.isSome := by
  cases hs : m.sessions.session with
  | some s =>
    have hholds := h.session s hs
    rw [hholds.lock]
    simp [hholds.task]
  | none =>
    cases ho : m.sessions.oob with
    | none => simp [h.idle hs ho]
    | some task =>
      obtain ⟨_, hlock, hne⟩ := h.reading task ho
      simp [hlock, hne]

theorem free (h : Locked m) (hlock : m.sm.authReqLock = 0) : m.sessions.session = none ∧ m.sessions.oob = none := by
  have hnot := mt h.lock_iff.mpr (not_not.mpr hlock)
  rw [not_or] at hnot
  exact ⟨not_isSome_iff_eq_none.mp hnot.1, not_isSome_iff_eq_none.mp hnot.2⟩

theorem own (h : Locked m) (hactive : m.sessions.active = some s) : s.Holds m ∧ m.sm.authRemoteAddr = s.req.bdAddr ∧
    s.id ∈ m.sessions.timers ∧ m.sessions.oob = none := by
  obtain ⟨hs, hrest⟩ := Ledger.active_eq_some.mp hactive
  have hholds := h.session s hs
  obtain ⟨haddr, htimer⟩ := hholds.running hrest
  refine ⟨hholds, haddr, htimer, ?_⟩
  cases ho : m.sessions.oob with
  | none => rfl
  | some task =>
    have hnone := (h.reading task ho).1
    rw [hs] at hnone
    cases hnone

/-- While the lock and the recorded device stay, nothing ends. -/
theorem follow_eq (h : Locked m) {o : Occasion} {sm : SmState} (hlock : sm.authReqLock = m.sm.authReqLock)
    (haddr : sm.authRemoteAddr = m.sm.authRemoteAddr) {w : Sessions} (hw : w.session = m.sessions.session) :
    w.follow o sm = w := by
  rw [Sessions.follow]
  split
  · rfl
  · rename_i s hs
    rw [hw] at hs
    have hholds := h.session s hs
    split
    · rw [if_neg]
      rw [hlock, hholds.lock]
      exact hholds.task
    · rename_i hrest
      rw [haddr, (hholds.running (by simpa using hrest)).1, if_pos rfl]

/-- A step that leaves the sessions, the lock and the recorded device alone. -/
theorem apart (h : Locked m) (hsession : m'.sessions.session = m.sessions.session)
    (hoob : m'.sessions.oob = m.sessions.oob) (hasked : ∀ (n : ℕ) (req : AuthenticationReq), m.sessions.asked[n]? = some req →
      m'.sessions.asked[n]? = some req)
    (htimers : ∀ s, m.sessions.active = some s → s.id ∈ m'.sessions.timers)
    (hlock : m'.sm.authReqLock = m.sm.authReqLock) (haddr : m'.sm.authRemoteAddr = m.sm.authRemoteAddr)
    (hmode : m.sm.authReqLock ≠ 0 → m'.sm.securityMode = m.sm.securityMode)
    (hrestores : m.sessions.session.any Session.restoring → m.settings.Restores → m'.settings.Restores) :
    Locked m' := by
  refine ⟨fun hs ho => ?_, fun task ho => ?_, fun s hs => ?_, fun hnone => ?_⟩
  · rw [hlock]
    exact h.idle (hsession ▸ hs) (hoob ▸ ho)
  · rw [hsession, hlock]
    exact h.reading task (hoob ▸ ho)
  · have hs' : m.sessions.session = some s := hsession ▸ hs
    have hholds := h.session s hs'
    refine ⟨hlock.trans hholds.lock, hholds.task, hholds.device, hasked _ _ hholds.asked, fun hrest => ?_,
      fun hrest => ?_⟩
    · rw [haddr]
      exact ⟨(hholds.running hrest).1, htimers s (Ledger.active_eq_some.mpr ⟨hs', hrest⟩)⟩
    · obtain ⟨hbonds, hres⟩ := hholds.restoring hrest
      have hne : m.sm.authReqLock ≠ 0 := hholds.lock ▸ hholds.task
      rw [hmode hne]
      exact ⟨hbonds, hrestores (by rw [hs']; exact hrest) hres⟩
  · rw [haddr]
    refine h.inactive ?_
    rw [Sessions.active, hsession] at hnone
    exact hnone

end Locked

theorem Orderly.answered {m : Manager} (h : Orderly theAppTask m) : Answered theAppTask m := by
  refine ⟨h.ledger.answers, h.ledger.once, h.ledger.places, h.ledger.occasions, h.locked.lock_iff, fun s hs => ?_,
    h.channel.running⟩
  have hholds := h.locked.session s hs
  split
  · rename_i hrest
    exact (hholds.restoring hrest).2
  · rename_i hrest
    exact (hholds.running (by simpa using hrest)).2

/-! ### Effects on the sessions -/

/-- The effects that are no matter of the sessions. -/
def Effect.Silent : Effect → Prop
  | .authenticateCfm .. | .sendTimeout _ | .cancelTimeout => False
  | _ => True

theorem Sessions.effect_of_silent {e : Effect} (h : e.Silent) (w : Sessions) : w.effect e = w := by
  cases e <;> first
    | exact h.elim
    | rfl

variable {effects : List Effect}

theorem Sessions.foldl_of_silent (h : ∀ e ∈ effects, e.Silent) (w : Sessions) :
    effects.foldl Sessions.effect w = w := by
  induction effects with
  | nil => rfl
  | cons e effects ih =>
    rw [foldl_cons, effect_of_silent (h e mem_cons_self)]
    exact ih fun e' he' => h e' (mem_cons_of_mem _ he')

variable {addr : Bdaddr}

/-- Confirms about a device that is not being authenticated, and cancelled timeouts. -/
theorem Sessions.foldl_aside {w : Sessions}
    (hother : ∀ s, w.active = some s → addr ≠ s.req.bdAddr)
    (h : ∀ e ∈ effects, e = .cancelTimeout ∨ ∃ cfm : AuthenticateCfm, cfm.bdAddr = addr ∧
      e = .authenticateCfm theAppTask cfm) :
    ∃ (as : List AuthAnswer) (ts : List ℕ), (∀ a ∈ as, a.id = none ∧ a.client = theAppTask) ∧
      (.cancelTimeout ∉ effects → ts = w.timers) ∧
      effects.foldl Sessions.effect w = { w with answers := w.answers ++ as, timers := ts } := by
  induction effects generalizing w with
  | nil => exact ⟨[], w.timers, by simp, fun _ => rfl, by simp⟩
  | cons e effects ih =>
    have hrest := fun e' he' => h e' (mem_cons_of_mem e he')
    rcases h e mem_cons_self with rfl | ⟨cfm, hcfm, rfl⟩
    · obtain ⟨as, ts, has, _, hfold⟩ := ih (w := { w with timers := w.timers.tail }) hother hrest
      exact ⟨as, ts, has, fun hno => absurd mem_cons_self hno, hfold⟩
    · have htag : w.active.filter (fun s => s.concerns cfm) = none := by
        rw [filter_eq_none_iff]
        intro s hs
        have hne := hother s hs
        simpa [Session.concerns, hcfm] using hne
      have heffect : w.effect (.authenticateCfm theAppTask cfm) =
          { w with answers := w.answers ++ [⟨none, theAppTask, cfm⟩] } := by
        rw [Sessions.effect, htag]
      obtain ⟨as, ts, has, hts, hfold⟩ := ih
        (w := { w with answers := w.answers ++ [⟨none, theAppTask, cfm⟩] }) hother hrest
      refine ⟨⟨none, theAppTask, cfm⟩ :: as, ts, ?_, ?_, ?_⟩
      · intro a ha
        rcases mem_cons.mp ha with rfl | hmem
        · exact ⟨rfl, rfl⟩
        · exact has a hmem
      · exact fun hno => hts fun hmem => hno (mem_cons_of_mem _ hmem)
      · rw [foldl_cons, heffect, hfold]
        simp

/-- The answer of the request that is being authenticated. -/
theorem Sessions.effect_answer {w : Sessions} {s : Session} (hactive : w.active = some s) (client : Task)
    (hcfm : cfm.bdAddr = s.req.bdAddr) :
    w.effect (.authenticateCfm client cfm) = { w with
      answers := w.answers ++ [⟨some s.id, client, cfm⟩]
      session := some { s with answered := true } } := by
  have htag : w.active.filter (fun s => s.concerns cfm) = some s := by
    rw [filter_eq_some_iff]
    exact ⟨hactive, decide_eq_true hcfm⟩
  rw [Sessions.effect, htag]

/-! ### The end of an authentication -/

section Ends

variable {w : Sessions} {s : Session} {sm : SmState} {status : AuthenticationStatus} {o : Occasion}

theorem foldl_endLink (sm : SmState) (status : AuthenticationStatus) (w : Sessions) :
    ∃ ts, (endLink sm status).foldl Sessions.effect w = { w with timers := ts } := by
  rw [endLink]
  split
  · exact ⟨w.timers.tail, rfl⟩
  · split <;> exact ⟨w.timers, rfl⟩

/-- What the end of an authentication does to the sessions, in two parts: the answer of a failure, and the rest. -/
theorem foldl_endAuthentication (sm : SmState) (status : AuthenticationStatus) (w : Sessions) : ∃ ts,
    (endAuthentication sm status).2.foldl Sessions.effect w =
      { (failureCfm sm status).foldl Sessions.effect w with timers := ts } := by
  obtain ⟨ts, hts⟩ := foldl_endLink sm status ((failureCfm sm status).foldl Sessions.effect w)
  refine ⟨ts, ?_⟩
  rw [endAuthentication]
  split
  · rw [foldl_append, hts]
  · rw [foldl_append, foldl_append, hts]
    rfl

/-- The answer of a failure goes to the client that holds the lock. -/
theorem Ledger.failureCfm (h : Ledger theAppTask w) (sm : SmState) (status : AuthenticationStatus) (hactive : w.active = some s) (haddr : sm.authRemoteAddr = s.req.bdAddr)
    (hlock : sm.authReqLock = s.req.task) (htask : s.req.task ≠ 0) (hasked : w.asked[s.id]? = some s.req)
    (hstatus : s.answered = decide (status = .success)) :
    Ledger theAppTask ((Sm.failureCfm sm status).foldl Sessions.effect w) ∧
      ((Sm.failureCfm sm status).foldl Sessions.effect w).active = some { s with answered := true } ∧
      ((Sm.failureCfm sm status).foldl Sessions.effect w).asked = w.asked ∧
      ((Sm.failureCfm sm status).foldl Sessions.effect w).oob = w.oob ∧
      ((Sm.failureCfm sm status).foldl Sessions.effect w).ended = w.ended := by
  obtain ⟨hsession, hrest⟩ := active_eq_some.mp hactive
  rw [Sm.failureCfm]
  split
  · rename_i hsuccess
    have hans : s.answered = true := hstatus.trans (decide_eq_true hsuccess)
    have heq : { s with answered := true } = s := by rw [← hans]
    rw [heq]
    exact ⟨h, hactive, rfl, rfl, rfl⟩
  · rename_i hsuccess
    have hans : s.answered = false := hstatus.trans (decide_eq_false hsuccess)
    rw [connectionSendAuthenticateCfm, if_neg (hlock ▸ htask), foldl_cons, foldl_nil,
      Sessions.effect_answer hactive _ haddr]
    refine ⟨h.answer hactive hans ⟨s.req, hasked, hlock, haddr⟩, ?_, rfl, rfl, rfl⟩
    simp [Sessions.active, hrest]

/-- **The end of an authentication**, by an event about it: it is answered, and its lock is released at once or by a
set-mode request of the library. -/
theorem Orderly.ended {m m' : Manager} (h : Orderly theAppTask m) (sm : SmState) (status : AuthenticationStatus)
    (o : Occasion) (ts : List ℕ) (hactive : m.sessions.active = some s)
    (hchannel : Channel m') (hlock : sm.authReqLock = m.sm.authReqLock)
    (haddr : sm.authRemoteAddr = m.sm.authRemoteAddr) (hstatus : s.answered = decide (status = .success))
    (ho : o.Concerns s.id s.req) (hsm : m'.sm = (endAuthentication sm status).1)
    (hsessions : m'.sessions = ((endAuthentication sm status).2.foldl Sessions.effect
      { m.sessions with timers := ts }).follow o (endAuthentication sm status).1)
    (hposted : ¬ sm.securityMode.bonds → m'.settings.Restores) : Orderly theAppTask m' := by
  obtain ⟨hholds, hrecorded, _, hoob⟩ := h.locked.own hactive
  have hne : bdaddrIsZero s.req.bdAddr = false := hholds.device
  have hledger : Ledger theAppTask { m.sessions with timers := ts } := by
    have hempty := h.ledger.untagged [] (by simp) ts
    simpa using hempty
  obtain ⟨hledger', hactive', hasked', hoob', hended'⟩ := hledger.failureCfm sm status (s := s)
    hactive (haddr.trans hrecorded) (hlock.trans hholds.lock) hholds.task hholds.asked hstatus
  obtain ⟨ts', hfold⟩ := foldl_endAuthentication sm status { m.sessions with timers := ts }
  rw [hfold] at hsessions
  set w := (Sm.failureCfm sm status).foldl Sessions.effect { m.sessions with timers := ts } with hw
  obtain ⟨hsession', hrest'⟩ := Ledger.active_eq_some.mp hactive'
  have haddr0 : (endAuthentication sm status).1.authRemoteAddr = ⟨0, 0, 0⟩ := by
    rw [endAuthentication]
    split <;> rfl
  have hmoved : (endAuthentication sm status).1.authRemoteAddr ≠ s.req.bdAddr := by
    rw [haddr0]
    intro heq
    rw [← heq] at hne
    revert hne
    decide
  -- the device is no longer recorded
  have hsessions' : m'.sessions = { w with
      session := if (endAuthentication sm status).1.authReqLock = 0 then none
        else some { s with answered := true, restoring := true }
      ended := w.ended ++ [(s.id, o)]
      timers := ts' } := by
    rw [hsessions, Sessions.follow]
    have hrest : s.restoring = false := hrest'
    simp only [hsession']
    rw [if_neg (by simp [hrest]), if_neg hmoved]
  have hfinish := hledger'.finish (o := o) hactive' rfl (hasked'.symm ▸ hholds.asked) ho
    (if (endAuthentication sm status).1.authReqLock = 0 then none
      else some { s with answered := true, restoring := true }) (by
        intro s' hs'
        split at hs'
        · cases hs'
        · obtain rfl := mem_some_iff.mp hs'
          rfl) ts'
  refine ⟨hchannel, hsessions' ▸ hfinish, ?_⟩
  have hoobnone : m'.sessions.oob = none := by rw [hsessions']; exact hoob'.trans hoob
  by_cases hbonds : sm.securityMode.bonds
  · have hlock0 : (endAuthentication sm status).1.authReqLock = 0 := by rw [endAuthentication, if_pos hbonds]
    have hnone : m'.sessions.session = none := by rw [hsessions', hlock0]; rfl
    refine ⟨fun _ _ => by rw [hsm, hlock0], fun task htask => ?_, fun s' hs' => ?_, fun _ => by rw [hsm, haddr0]⟩
    · rw [hoobnone] at htask
      cases htask
    · rw [hnone] at hs'
      cases hs'
  · have hlock' : (endAuthentication sm status).1.authReqLock = s.req.task := by
      rw [endAuthentication, if_neg hbonds]
      exact hlock.trans hholds.lock
    have hsome : m'.sessions.session = some { s with answered := true, restoring := true } := by
      rw [hsessions', hlock', if_neg hholds.task]
    refine ⟨fun hnone => ?_, fun task htask => ?_, fun s' hs' => ?_, fun _ => by rw [hsm, haddr0]⟩
    · rw [hsome] at hnone
      cases hnone
    · rw [hoobnone] at htask
      cases htask
    · rw [hsome] at hs'
      obtain rfl := some.inj hs'
      refine ⟨hsm ▸ hlock', hholds.task, hholds.device, ?_, fun hrest => absurd hrest (by simp), fun _ => ?_⟩
      · rw [hsessions']
        exact hasked'.symm ▸ hholds.asked
      · refine ⟨?_, hposted hbonds⟩
        rw [hsm, (Quiet.endAuthentication_quiet sm status).mode]
        exact hbonds

end Ends

/-! ### Steps that end nothing -/

section Steps

variable {m m' : Manager} {s : Session} {o : Occasion} {r : SmState × List Effect}

/-- A step that leaves the sessions alone. -/
theorem Orderly.apart (h : Orderly theAppTask m) (hchannel : Channel m') (hsessions : m'.sessions = m.sessions)
    (hlock : m'.sm.authReqLock = m.sm.authReqLock) (haddr : m'.sm.authRemoteAddr = m.sm.authRemoteAddr)
    (hmode : m.sm.authReqLock ≠ 0 → m'.sm.securityMode = m.sm.securityMode)
    (hrestores : m.sessions.session.any Session.restoring → m.settings.Restores → m'.settings.Restores) :
    Orderly theAppTask m' := by
  refine ⟨hchannel, hsessions ▸ h.ledger, h.locked.apart ?_ ?_ ?_ ?_ hlock haddr hmode hrestores⟩
  · rw [hsessions]
  · rw [hsessions]
  · intro n req hget
    rw [hsessions]
    exact hget
  · intro s hs
    rw [hsessions]
    exact (h.locked.own hs).2.2.1

theorem QuietStep.restores (h : QuietStep m m') (hr : m.settings.Restores) : m'.settings.Restores := by
  obtain ⟨posts, _, hsettings⟩ := h.settings
  rw [hsettings]
  rcases hr with hposted | hrest
  · left
    intro hnil
    exact hposted (append_eq_nil_iff.mp hnil).1
  · exact .inr hrest

/-- A handler that is quiet and silent, and leaves the lock and the recorded device. -/
theorem Orderly.still (h : Orderly theAppTask m) (hchannel : Channel (m.after o r)) (hquiet : Quiet m.sm r)
    (hsilent : ∀ e ∈ r.2, e.Silent) (hlock : r.1.authReqLock = m.sm.authReqLock)
    (haddr : r.1.authRemoteAddr = m.sm.authRemoteAddr) : Orderly theAppTask (m.after o r) := by
  refine h.apart hchannel ?_ hlock haddr (fun _ => hquiet.mode) fun _ => (hquiet.step (o := o) rfl rfl rfl).restores
  change (r.2.foldl Sessions.effect m.sessions).follow o r.1 = m.sessions
  rw [Sessions.foldl_of_silent hsilent]
  exact h.locked.follow_eq hlock haddr rfl

theorem Orderly.nothing (h : Orderly theAppTask m) (hchannel : Channel (m.after o (m.sm, []))) :
    Orderly theAppTask (m.after o (m.sm, [])) :=
  h.still hchannel (Quiet.nothing m.sm) (by simp) rfl rfl

/-! ### Requests for settings -/

/-- A set-mode request of the library is not lost when it is handled. -/
theorem restores_handleSetting {id : Option ℕ} {req : SettingReq} (hlib : id = none → ∃ req', req = .setMode req')
    (h : id = none ∨ m.settings.Restores) : (m.handleSetting version id req).settings.Restores := by
  rw [Manager.handleSetting, settingHandler_eq]
  by_cases href : req.Refused version
  · rw [if_pos href]
    cases req with
    | setMode req => exact href.elim
    | config req =>
      rcases h with rfl | h
      · obtain ⟨req', hreq⟩ := hlib rfl
        cases hreq
      · exact h
  rw [if_neg href]
  split
  · rcases h with rfl | hposted | ⟨x, hx, hid⟩ | hinits
    · exact .inr (.inl ⟨(none, req), mem_append_right _ (mem_singleton_self _), rfl⟩)
    · exact .inl hposted
    · exact .inr (.inl ⟨x, mem_append_left _ hx, hid⟩)
    · exact .inr (.inr hinits)
  · rename_i r hr
    split at hr
    · cases hr
    · obtain rfl := some.inj hr
      rcases h with rfl | hposted | hheld | ⟨p, hp, hcause⟩
      · exact .inr (.inr ⟨⟨.setting none req, req.initReq⟩,
          mem_append_right _ (mem_singleton_self _), req, rfl⟩)
      · exact .inl hposted
      · exact .inr (.inl hheld)
      · exact .inr (.inr ⟨p, mem_append_left _ hp, hcause⟩)

theorem sm_handleSetting (version : BtVersion) (m : Manager) (id : Option ℕ) (req : SettingReq) :
    (m.handleSetting version id req).sm.authReqLock = m.sm.authReqLock ∧
      (m.handleSetting version id req).sm.authRemoteAddr = m.sm.authRemoteAddr ∧
      (m.sm.authReqLock ≠ 0 → (m.handleSetting version id req).sm.securityMode = m.sm.securityMode) := by
  rw [Manager.handleSetting, settingHandler_eq]
  split
  · exact ⟨rfl, rfl, fun _ => rfl⟩
  · rename_i r hr
    split at hr
    · obtain rfl := some.inj hr
      exact ⟨rfl, rfl, fun _ => rfl⟩
    · split at hr
      · cases hr
      · obtain rfl := some.inj hr
        cases req with
        | config req => exact ⟨rfl, rfl, fun _ => rfl⟩
        | setMode req =>
          simp only [Manager.after, SettingReq.take, SettingReq.record]
          split
          · rename_i hlock
            exact ⟨rfl, rfl, fun hne => absurd hlock hne⟩
          · exact ⟨rfl, rfl, fun _ => rfl⟩

theorem sessions_handleSetting (h : Locked m) {m0 : Manager} (hsm : m0.sm = m.sm)
    (hsessions : m0.sessions = m.sessions) (id : Option ℕ) (req : SettingReq) :
    (m0.handleSetting version id req).sessions = m.sessions := by
  obtain ⟨hlock, haddr, _⟩ := sm_handleSetting version m0 id req
  rw [hsm] at hlock haddr
  rw [Manager.handleSetting, settingHandler_eq] at hlock haddr ⊢
  split
  · exact hsessions
  · rename_i r hr
    rw [hr] at hlock haddr
    have hsilent : ∀ e ∈ r.2, e.Silent := by
      intro e he
      split at hr
      · obtain rfl := some.inj hr
        obtain rfl := mem_singleton.mp he
        cases req <;> trivial
      · split at hr
        · cases hr
        · obtain rfl := some.inj hr
          obtain rfl := mem_singleton.mp he
          trivial
    change (r.2.foldl Sessions.effect m0.sessions).follow _ r.1 = m.sessions
    rw [Sessions.foldl_of_silent hsilent, hsessions]
    exact h.follow_eq hlock haddr rfl

/-- A request for a setting is handled, in a state with the same sessions. -/
theorem Orderly.handleSetting (h : Orderly theAppTask m) {m0 : Manager} {id : Option ℕ} {req : SettingReq}
    (heq : m0.handleSetting version id req = m') (hchannel : Channel m') (hsm : m0.sm = m.sm)
    (hsessions : m0.sessions = m.sessions) (hlib : id = none → ∃ req', req = .setMode req')
    (hrestores : m.settings.Restores → id = none ∨ m0.settings.Restores) : Orderly theAppTask m' := by
  obtain ⟨hlock, haddr, hmode⟩ := sm_handleSetting version m0 id req
  rw [heq, hsm] at hlock haddr hmode
  refine h.apart hchannel ?_ hlock haddr hmode fun _ hr => heq ▸ restores_handleSetting hlib (hrestores hr)
  exact heq ▸ sessions_handleSetting h.locked hsm hsessions id req

/-- The oldest `DM_SM_INIT_REQ` is answered: nothing changes for the sessions, or the lock is released after an
authentication. -/
theorem Orderly.answerInit (h : Orderly theAppTask m) {p : Init} {rest : List Init} {cfm : InitCfm}
    (hinits : m.settings.inits = p :: rest) (hok : AdmitsRestore m cfm p) :
    Orderly theAppTask (m.answerInit p rest cfm) := by
  have hchannel : Channel (m.answerInit p rest cfm) := h.channel.answerInit hinits
  obtain ⟨rfl, howns⟩ := h.channel.owns hinits
  obtain ⟨posts, _, hsettings⟩ := h.channel.settings_answerInit hinits cfm
  have hans := howns.answers cfm
  have hmoved : m.settings.posted ≠ [] ∨ (∃ x ∈ m.settings.held, x.1 = none) →
      (m.answerInit p [] cfm).settings.Restores := by
    intro hr
    rw [hsettings]
    rcases hr with hposted | hheld
    · left
      intro hnil
      exact hposted (append_eq_nil_iff.mp hnil).1
    · exact .inr (.inl hheld)
  -- all but the confirm of a set-mode request of the library leave the sessions alone
  have hapart : (∀ e ∈ (initCfmReady m.sm cfm).2, e.Silent) →
      (initCfmReady m.sm cfm).1.authReqLock = m.sm.authReqLock →
      (initCfmReady m.sm cfm).1.authRemoteAddr = m.sm.authRemoteAddr →
      (m.sessions.session.any Session.restoring → m.settings.Restores → (m.answerInit p [] cfm).settings.Restores) →
      Orderly theAppTask (m.answerInit p [] cfm) := by
    intro hsilent hlock haddr hrestores
    refine h.apart hchannel ?_ hlock haddr (fun _ => hans.mode) hrestores
    change ((initCfmReady m.sm cfm).2.foldl Sessions.effect m.sessions).follow _ (initCfmReady m.sm cfm).1 = m.sessions
    rw [Sessions.foldl_of_silent hsilent]
    exact h.locked.follow_eq hlock haddr rfl
  rw [Init.Owns] at howns
  rw [AdmitsRestore] at hok
  cases hcause : p.cause with
  | defaultLevel =>
    rw [hcause] at howns
    have hready : initCfmReady m.sm cfm = ({ m.sm with smInitMsg := .smInitSetNone }, []) := by
      rw [initCfmReady, howns.1]
    refine hapart (by rw [hready]; simp) (by rw [hready]) (by rw [hready]) fun _ hr => ?_
    rcases hr with hposted | hheld | ⟨p', hp', req, hreq⟩
    · exact hmoved (.inl hposted)
    · exact hmoved (.inr hheld)
    · rw [hinits] at hp'
      obtain rfl := mem_singleton.mp hp'
      rw [hcause] at hreq
      cases hreq
  | setting id req =>
    rw [hcause] at howns hok
    obtain ⟨hknown, hmsg, hlocked, _⟩ := howns
    cases id with
    | some n =>
      have hclient := hans.client n req hcause
      have hsilent : ∀ e ∈ (initCfmReady m.sm cfm).2, e.Silent := by
        intro e he
        rw [hclient] at he
        obtain rfl := mem_singleton.mp he
        cases req <;> trivial
      have hsame : (initCfmReady m.sm cfm).1.authReqLock = m.sm.authReqLock ∧
          (initCfmReady m.sm cfm).1.authRemoteAddr = m.sm.authRemoteAddr := by
        have hne : m.sm.setSecurityModeLock ≠ cmTask := hlocked ▸ hknown.2.2
        cases req with
        | setMode req =>
          rw [initCfmReady, hmsg, SettingReq.msg, connectionHandleSetSecurityModeCfm, if_neg hne]
          exact ⟨rfl, rfl⟩
        | config req =>
          rw [initCfmReady, hmsg, SettingReq.msg, connectionHandleConfigureSecurityCfm]
          exact ⟨rfl, rfl⟩
      refine hapart hsilent hsame.1 hsame.2 fun _ hr => ?_
      rcases hr with hposted | hheld | ⟨p', hp', req', hreq⟩
      · exact hmoved (.inl hposted)
      · exact hmoved (.inr hheld)
      · rw [hinits] at hp'
        obtain rfl := mem_singleton.mp hp'
        rw [hcause] at hreq
        cases hreq
    | none =>
      obtain ⟨mode, mode3Enc, rfl⟩ := hknown
      have hready : initCfmReady m.sm cfm =
          ({ (handleInternalSetSecurityModeCfm m.sm cfm).1 with
            setSecurityModeLock := 0, smInitMsg := .smInitSetNone },
            (handleInternalSetSecurityModeCfm m.sm cfm).2) := by
        have hown : m.sm.setSecurityModeLock = cmTask := hlocked
        rw [initCfmReady, hmsg, SettingReq.msg, connectionHandleSetSecurityModeCfm, if_pos hown]
      by_cases hauth : m.sm.authReqLock ≠ 0 ∧ cfm.status = 0
      · by_cases hzero : bdaddrIsZero m.sm.authRemoteAddr
        · -- the lock is released: an authentication had ended
          have hinternal : handleInternalSetSecurityModeCfm m.sm cfm = ({ m.sm with authReqLock := 0 }, []) := by
            rw [handleInternalSetSecurityModeCfm, if_pos hauth, if_pos hzero]
          have hoob : m.sessions.oob = none := by
            cases ho : m.sessions.oob with
            | none => rfl
            | some task => exact absurd hauth.2 (hok.1 (by rw [ho]; rfl))
          obtain ⟨s, hs⟩ : ∃ s, m.sessions.session = some s := by
            cases hs : m.sessions.session with
            | some s => exact ⟨s, rfl⟩
            | none => exact absurd (h.locked.idle hs hoob) hauth.1
          have hrest : s.restoring = true := by
            by_contra hrest
            have hactive := Ledger.active_eq_some.mpr ⟨hs, by simpa using hrest⟩
            obtain ⟨hholds, haddr, _, _⟩ := h.locked.own hactive
            rw [haddr, hholds.device] at hzero
            cases hzero
          have hnone : m.sessions.active = none := by
            rw [Sessions.active, hs]
            simp [hrest]
          have hsessions : (m.answerInit p [] cfm).sessions = { m.sessions with session := none } := by
            change ((initCfmReady m.sm cfm).2.foldl Sessions.effect m.sessions).follow _ (initCfmReady m.sm cfm).1 = _
            rw [hready, hinternal, foldl_nil, Sessions.follow, hs]
            simp [hrest]
          have hsm : (m.answerInit p [] cfm).sm = (initCfmReady m.sm cfm).1 := rfl
          rw [hready, hinternal] at hsm
          refine ⟨hchannel, hsessions ▸ h.ledger.release hnone (by simp), ?_⟩
          refine ⟨fun _ _ => by rw [hsm], fun task htask => ?_, fun s' hs' => ?_, fun _ => ?_⟩
          · rw [hsessions] at htask
            rw [hoob] at htask
            cases htask
          · rw [hsessions] at hs'
            cases hs'
          · rw [hsm]
            exact h.locked.inactive hnone
        · -- the mode is set for the authentication, whose link is opened
          have hinternal : handleInternalSetSecurityModeCfm m.sm cfm = (m.sm, [.aclOpenReq m.sm.authRemoteAddr]) := by
            rw [handleInternalSetSecurityModeCfm, if_pos hauth, if_neg hzero]
          refine hapart (by rw [hready, hinternal]; simp [Effect.Silent]) (by rw [hready, hinternal])
            (by rw [hready, hinternal]) fun hany _ => ?_
          obtain ⟨s, hs, hrest⟩ := (Option.any_eq_true _ _).mp hany
          have hnone : m.sessions.active = none := by
            rw [Sessions.active, hs]
            simp [hrest]
          rw [h.locked.inactive hnone] at hzero
          exact absurd rfl hzero
      · have hinternal : handleInternalSetSecurityModeCfm m.sm cfm = (m.sm, []) := by
          rw [handleInternalSetSecurityModeCfm, if_neg hauth]
        refine hapart (by rw [hready, hinternal]; simp) (by rw [hready, hinternal]) (by rw [hready, hinternal])
          fun hany _ => ?_
        obtain ⟨s, hs, _⟩ := (Option.any_eq_true _ _).mp hany
        have hholds := h.locked.session s hs
        have hstatus : cfm.status ≠ 0 := by
          intro hstatus
          refine hauth ⟨?_, hstatus⟩
          rw [hholds.lock]
          exact hholds.task
        rcases hok.2 hstatus hany with hposted | hheld
        · exact hmoved (.inl hposted)
        · obtain ⟨x, hx, hid⟩ := List.any_eq_true.mp hheld
          exact hmoved (.inr ⟨x, hx, of_decide_eq_true hid⟩)

/-! ### Requests for an authentication or a read -/

/-- What is left of the invariant while a request is not placed. -/
structure Unplaced (theAppTask : Task) (m : Manager) (id : Option ℕ) : Prop where
  locked : Locked m
  held : ∀ x ∈ m.sessions.held, x.Known m.sessions.asked
  answers : ∀ a ∈ m.sessions.answers, a.Right theAppTask m.sessions.asked
  once : (m.sessions.answers.filterMap AuthAnswer.id).Perm
    (m.sessions.answeredIds ++ m.sessions.ended.map Prod.fst)
  places : (id.toList ++ m.sessions.places).Perm (List.range m.sessions.asked.length)
  occasions : ∀ x ∈ m.sessions.ended, ∃ req, m.sessions.asked[x.1]? = some req ∧ x.2.Concerns x.1 req

/-- The request is put back on the lock. -/
theorem Unplaced.hold {w : Waiting} (h : Unplaced theAppTask m w.id) (hknown : w.Known m.sessions.asked)
    (hm : m' = { m with sessions := { m.sessions with held := m.sessions.held ++ [w] } }) (hchannel : Channel m') :
    Orderly theAppTask m' := by
  subst hm
  refine ⟨hchannel, ⟨?_, h.answers, h.once, ?_, h.occasions⟩, h.locked.apart rfl rfl (fun _ _ hget => hget)
    (fun s hs => (h.locked.own hs).2.2.1) rfl rfl (fun _ => rfl) fun _ hr => hr⟩
  · intro x hx
    rcases mem_append.mp hx with hmem | hmem
    · exact h.held x hmem
    · exact mem_singleton.mp hmem ▸ hknown
  · refine List.Perm.trans ?_ h.places
    simp only [Sessions.places, filterMap_append]
    cases w with
    | readOob task => exact List.Perm.of_eq (by simp [Waiting.id, Sessions.activeIds, Sessions.active])
    | authenticate id req =>
      simp only [Waiting.id, toList_some]
      exact perm_append_comm.append_right _

/-- The authentication starts. -/
theorem Unplaced.start {id : ℕ} {req : AuthenticationReq} (h : Unplaced theAppTask m (some id))
    (hasked : m.sessions.asked[id]? = some req) (htask : req.task ≠ 0) (hdevice : bdaddrIsZero req.bdAddr = false)
    (hchannel : Channel (m.handleAuthenticate id req)) : Orderly theAppTask (m.handleAuthenticate id req) := by
  rw [Manager.handleAuthenticate] at hchannel ⊢
  by_cases hlock : m.sm.authReqLock = 0
  · obtain ⟨hsession, hoob⟩ := h.locked.free hlock
    have hactive : m.sessions.active = none := by rw [Sessions.active, hsession]; rfl
    -- the request takes the lock, its device is recorded, and its timeout is on its way
    obtain ⟨r, hr, hr1, hr2, hr3⟩ : ∃ r, connectionHandleAuthenticationReq m.sm req = some r ∧
        r.1.authReqLock = req.task ∧ r.1.authRemoteAddr = req.bdAddr ∧
        r.2.foldl Sessions.effect { m.sessions with session := some { id := id, req := req } } =
          { m.sessions with session := some { id := id, req := req }, timers := m.sessions.timers ++ [id] } := by
      rw [connectionHandleAuthenticationReq, if_neg (not_not.mpr hlock)]
      dsimp only
      split <;> exact ⟨_, rfl, rfl, rfl, rfl⟩
    rw [hr] at hchannel ⊢
    dsimp only at hchannel ⊢
    generalize hm' : { m with sessions := { m.sessions with session := some { id := id, req := req } } }.after
      .request r = m' at hchannel ⊢
    have hsessions : m'.sessions = { m.sessions with
        session := some { id := id, req := req }, timers := m.sessions.timers ++ [id] } := by
      rw [← hm']
      change (r.2.foldl Sessions.effect _).follow _ r.1 = _
      rw [hr3, Sessions.follow]
      simp [hr2]
    have hsm : m'.sm = r.1 := by rw [← hm']; rfl
    refine ⟨hchannel, ?_, ?_⟩
    · rw [hsessions]
      refine ⟨h.held, h.answers, ?_, ?_, h.occasions⟩
      · have honce := h.once
        rw [Sessions.answeredIds, hactive] at honce
        exact honce
      · have hplaces := h.places
        rw [Sessions.places, Sessions.activeIds, hactive] at hplaces
        refine List.Perm.trans ?_ hplaces
        simp only [Sessions.places, Sessions.activeIds, Sessions.active, filter_some, Bool.not_false, if_true,
          map_some, map_none, toList_some, toList_none, nil_append]
        exact perm_middle
    · refine ⟨fun hnone => ?_, fun task ho => ?_, fun s hs => ?_, fun hnone => ?_⟩
      · rw [hsessions] at hnone
        cases hnone
      · rw [hsessions] at ho
        rw [hoob] at ho
        cases ho
      · rw [hsessions] at hs
        obtain rfl := some.inj hs
        refine ⟨hsm ▸ hr1, htask, hdevice, ?_, fun _ => ⟨hsm ▸ hr2, ?_⟩, fun hrest => ?_⟩
        · rw [hsessions]
          exact hasked
        · rw [hsessions]
          exact mem_append_right _ (mem_singleton_self _)
        · cases hrest
      · rw [hsessions] at hnone
        cases hnone
  · have hr : connectionHandleAuthenticationReq m.sm req = none := by
      rw [connectionHandleAuthenticationReq, if_pos hlock]
    rw [hr] at hchannel ⊢
    exact Unplaced.hold (w := .authenticate id req) h ⟨hasked, htask, hdevice⟩ rfl hchannel

variable {task : Task}

/-- A read of OOB data is refused, put back, or takes the lock. -/
theorem Unplaced.read (h : Unplaced theAppTask m none) (htask : task ≠ 0)
    (hchannel : Channel (m.handleReadOob version task)) : Orderly theAppTask (m.handleReadOob version task) := by
  rw [Manager.handleReadOob] at hchannel ⊢
  have hledger : Ledger theAppTask m.sessions := ⟨h.held, h.answers, h.once, h.places, h.occasions⟩
  by_cases hversion : version.atLeast2_1
  · by_cases hlock : m.sm.authReqLock = 0
    · obtain ⟨hsession, hoob⟩ := h.locked.free hlock
      have hactive : m.sessions.active = none := by rw [Sessions.active, hsession]; rfl
      have hr : connectionHandleReadLocalOobDataReq version m.sm task =
          some ({ m.sm with authReqLock := task }, [.readLocalOobDataReq]) := by
        rw [connectionHandleReadLocalOobDataReq, if_pos hversion, if_neg (not_not.mpr hlock)]
      rw [hr] at hchannel ⊢
      dsimp only at hchannel ⊢
      generalize hm' : Manager.after _ _ _ = m' at hchannel ⊢
      have hsessions : m'.sessions = { m.sessions with oob := some task } := by
        rw [← hm']
        change (List.foldl Sessions.effect { m.sessions with oob := some task } [.readLocalOobDataReq]).follow _ _ = _
        rw [foldl_cons, foldl_nil, Sessions.effect_of_silent (e := .readLocalOobDataReq) trivial,
          Sessions.follow, hsession]
      have hsm : m'.sm = { m.sm with authReqLock := task } := by rw [← hm']; rfl
      refine ⟨hchannel, hsessions ▸ ⟨hledger.held, hledger.answers, hledger.once, hledger.places,
        hledger.occasions⟩, ?_⟩
      refine ⟨fun _ hnone => ?_, fun task' ho => ?_, fun s hs => ?_, fun _ => ?_⟩
      · rw [hsessions] at hnone
        cases hnone
      · rw [hsessions] at ho
        obtain rfl := some.inj ho
        rw [hsessions, hsm]
        exact ⟨hsession, rfl, htask⟩
      · rw [hsessions, hsession] at hs
        cases hs
      · rw [hsm]
        exact h.locked.inactive hactive
    · have hr : connectionHandleReadLocalOobDataReq version m.sm task = none := by
        rw [connectionHandleReadLocalOobDataReq, if_pos hversion, if_pos hlock]
      rw [hr] at hchannel ⊢
      exact Unplaced.hold (w := .readOob task) h htask rfl hchannel
  · have hr : connectionHandleReadLocalOobDataReq version m.sm task =
        some (m.sm, [.readLocalOobDataCfm task hciErrorUnsupportedFeature]) := by
      rw [connectionHandleReadLocalOobDataReq, if_neg hversion]
    rw [hr] at hchannel ⊢
    dsimp only at hchannel ⊢
    refine Orderly.apart (m := m) ⟨?_, hledger, h.locked⟩ hchannel ?_ rfl rfl (fun _ => rfl) fun _ hr => hr
    · exact hchannel.of_settings rfl rfl (by simp [Manager.after])
    · change (List.foldl Sessions.effect m.sessions [.readLocalOobDataCfm task hciErrorUnsupportedFeature]).follow _ m.sm
        = m.sessions
      rw [foldl_cons, foldl_nil,
        Sessions.effect_of_silent (e := .readLocalOobDataCfm task hciErrorUnsupportedFeature) trivial]
      exact h.locked.follow_eq rfl rfl rfl

/-- A request that was put back is taken from its place. -/
theorem Orderly.unplaced (h : Orderly theAppTask m) {n : ℕ} {w : Waiting} (hget : m.sessions.held[n]? = some w) :
    Unplaced theAppTask { m with sessions := { m.sessions with held := m.sessions.held.eraseIdx n } } w.id := by
  obtain ⟨hn, hn'⟩ := List.getElem?_eq_some_iff.mp hget
  refine ⟨h.locked.apart rfl rfl (fun _ _ hget => hget) (fun s hs => (h.locked.own hs).2.2.1) rfl rfl
    (fun _ => rfl) (fun _ hr => hr), fun x hx => h.ledger.held x (mem_of_mem_eraseIdx hx), h.ledger.answers,
    h.ledger.once, ?_, h.ledger.occasions⟩
  have hperm : m.sessions.held.Perm (w :: m.sessions.held.eraseIdx n) :=
    hn' ▸ (getElem_cons_eraseIdx_perm hn).symm
  have hids := hperm.filterMap Waiting.id
  have hcons : (w :: m.sessions.held.eraseIdx n).filterMap Waiting.id =
      w.id.toList ++ (m.sessions.held.eraseIdx n).filterMap Waiting.id := by
    cases w <;> rfl
  rw [hcons] at hids
  refine List.Perm.trans ?_ h.ledger.places
  rw [Sessions.places, Sessions.places, ← List.append_assoc]
  exact (hids.symm.append_right _)

/-! ### Events -/

theorem Manager.Own.active {answered : Bool} (h : m.Own addr answered) :
    ∃ s, m.sessions.active = some s ∧ addr = s.req.bdAddr ∧ s.answered = answered := by
  rw [Manager.Own] at h
  split at h
  · rename_i s hs
    exact ⟨s, hs, h⟩
  · exact h.elim

/-- The end of an authentication that changed the mode sends a request to restore it. -/
theorem restores_endAuthentication {sm : SmState} (hbonds : ¬ sm.securityMode.bonds) (status : AuthenticationStatus)
    (o : Occasion) (effects : List Effect) (w : Settings) :
    ((effects ++ (endAuthentication sm status).2).foldl (Settings.effect o) w).Restores := by
  rw [endAuthentication, if_neg hbonds, connectionSmSetSecurityMode]
  dsimp only
  rw [← List.append_assoc, foldl_concat]
  left
  simp [Settings.effect]

/-- An event about the device that is being authenticated ends its request. -/
theorem Orderly.endedBy (h : Orderly theAppTask m) {answered : Bool} (hown : m.Own addr answered)
    {sm : SmState} {status : AuthenticationStatus} (hlock : sm.authReqLock = m.sm.authReqLock)
    (haddr : sm.authRemoteAddr = m.sm.authRemoteAddr) (hstatus : answered = decide (status = .success))
    (before : List Effect) (hbefore : ∃ ts, before.foldl Sessions.effect m.sessions = { m.sessions with timers := ts })
    (hchannel : Channel (m.after (.device addr)
      ((endAuthentication sm status).1, before ++ (endAuthentication sm status).2))) :
    Orderly theAppTask (m.after (.device addr)
      ((endAuthentication sm status).1, before ++ (endAuthentication sm status).2)) := by
  obtain ⟨s, hactive, hdevice, hanswered⟩ := hown.active
  obtain ⟨ts, hts⟩ := hbefore
  refine h.ended sm status (.device addr) ts hactive hchannel hlock haddr
    (hanswered.trans hstatus) hdevice rfl ?_ fun hbonds => restores_endAuthentication hbonds _ _ _ _
  change ((before ++ _).foldl Sessions.effect m.sessions).follow _ _ = _
  rw [foldl_append, hts]

/-- A step whose confirms are no answers. -/
theorem Orderly.aside (h : Orderly theAppTask m) (as : List AuthAnswer) (ts : List ℕ)
    (has : ∀ a ∈ as, a.id = none ∧ a.client = theAppTask) (hchannel : Channel m')
    (hsessions : m'.sessions = { m.sessions with answers := m.sessions.answers ++ as, timers := ts })
    (hts : m.sessions.active ≠ none → ts = m.sessions.timers)
    (hlock : m'.sm.authReqLock = m.sm.authReqLock) (haddr : m'.sm.authRemoteAddr = m.sm.authRemoteAddr)
    (hstep : QuietStep m m') : Orderly theAppTask m' := by
  refine ⟨hchannel, hsessions ▸ h.ledger.untagged as has ts, h.locked.apart ?_ ?_ ?_ ?_ hlock haddr
    (fun _ => hstep.mode) fun _ => hstep.restores⟩
  · rw [hsessions]
  · rw [hsessions]
  · intro n req hget
    rw [hsessions]
    exact hget
  · intro s hs
    rw [hsessions]
    dsimp only
    rw [hts (by rw [hs]; simp)]
    exact (h.locked.own hs).2.2.1

theorem Orderly.aclOpenCfm (h : Orderly theAppTask m) {success : Bool}
    (hok : m.sm.authReqLock ≠ 0 → success = false → m.Own addr false)
    (hchannel : Channel (m.after (.device addr) (connectionHandleDmAclOpenCfm m.sm addr success))) :
    Orderly theAppTask (m.after (.device addr) (connectionHandleDmAclOpenCfm m.sm addr success)) := by
  have hquiet := Quiet.connectionHandleDmAclOpenCfm_quiet m.sm addr success
  rw [connectionHandleDmAclOpenCfm] at hchannel hquiet ⊢
  split
  · rename_i hlock
    rw [if_pos hlock] at hchannel
    exact h.nothing hchannel
  · rename_i hlock
    rw [if_neg hlock] at hchannel hquiet
    split
    · rename_i hsuccess
      rw [if_pos hsuccess] at hchannel hquiet
      refine h.still hchannel hquiet ?_ rfl rfl
      intro e he
      dsimp only at he
      split at he
      · obtain rfl := mem_singleton.mp he
        trivial
      · cases he
    · rename_i hsuccess
      rw [if_neg hsuccess] at hchannel
      exact h.endedBy (hok hlock (by simpa using hsuccess)) rfl rfl rfl [] ⟨_, rfl⟩ hchannel

variable {status : ℕ}

theorem Orderly.aclOpenedInd (h : Orderly theAppTask m)
    (hok : m.sm.authReqLock ≠ 0 → m.sm.securityMode.bonds → connectionConvertAuthStatus status = .timeout →
      m.Own addr false)
    (hchannel : Channel (m.after (.device addr) (connectionHandleDmAclOpenInd m.sm status))) :
    Orderly theAppTask (m.after (.device addr) (connectionHandleDmAclOpenInd m.sm status)) := by
  rw [connectionHandleDmAclOpenInd] at hchannel ⊢
  split
  · rename_i hends
    rw [if_pos hends] at hchannel
    obtain ⟨hlock, hbonds, htimeout⟩ := hends
    exact h.endedBy (hok hlock hbonds htimeout) rfl rfl rfl [.cancelTimeout] ⟨_, rfl⟩ hchannel
  · rename_i hends
    rw [if_neg hends] at hchannel
    exact h.nothing hchannel

theorem Orderly.bondingCfm (h : Orderly theAppTask m)
    (hok : m.sm.authReqLock ≠ 0 → m.sm.securityMode.bonds → connectionConvertAuthStatus status ≠ .success →
      m.sm.authRemoteAddr = addr → m.Own addr false)
    (hchannel : Channel (m.after (.device addr) (connectionHandleSmBondingCfm m.sm addr status))) :
    Orderly theAppTask (m.after (.device addr) (connectionHandleSmBondingCfm m.sm addr status)) := by
  rw [connectionHandleSmBondingCfm] at hchannel ⊢
  split
  · rename_i hends
    rw [if_pos hends] at hchannel
    obtain ⟨hlock, hbonds, hstatus, haddr⟩ := hends
    exact h.endedBy (hok hlock hbonds hstatus haddr) rfl rfl (decide_eq_false hstatus).symm [] ⟨_, rfl⟩
      hchannel
  · rename_i hends
    rw [if_neg hends] at hchannel
    exact h.nothing hchannel

theorem Orderly.aclClosedInd (h : Orderly theAppTask m)
    (hok : m.sm.authReqLock ≠ 0 → ¬ m.sm.securityMode.bonds → m.sm.authRemoteAddr = addr → m.Own addr true)
    (hchannel : Channel (m.after (.device addr) (connectionHandleDmAclClosedInd m.sm addr))) :
    Orderly theAppTask (m.after (.device addr) (connectionHandleDmAclClosedInd m.sm addr)) := by
  rw [connectionHandleDmAclClosedInd] at hchannel ⊢
  split
  · rename_i hends
    rw [if_pos hends] at hchannel
    obtain ⟨hlock, haddr, hbonds⟩ := hends
    exact h.endedBy (hok hlock hbonds haddr) rfl rfl rfl [] ⟨_, rfl⟩ hchannel
  · rename_i hends
    rw [if_neg hends] at hchannel
    exact h.nothing hchannel

theorem connectionConvertAuthStatus_eq_success (status : ℕ) :
    connectionConvertAuthStatus status = .success ↔ status = 0 := by
  constructor
  · intro h
    unfold connectionConvertAuthStatus at h
    split at h <;> first
      | rfl
      | cases h
  · rintro rfl
    rfl

theorem mem_connectionSendAuthenticateCfm {e : Effect}
    (h : e ∈ connectionSendAuthenticateCfm task cfm) : e = .authenticateCfm task cfm := by
  rw [connectionSendAuthenticateCfm] at h
  split at h
  · cases h
  · exact mem_singleton.mp h

theorem Orderly.simplePairingComplete (h : Orderly theAppTask m)
    (hok : m.sm.authReqLock ≠ 0 → m.Own addr (decide (status = 0)))
    (hchannel : Channel (m.after (.device addr) (Sm.simplePairingComplete theAppTask m.sm addr status))) :
    Orderly theAppTask (m.after (.device addr) (Sm.simplePairingComplete theAppTask m.sm addr status)) := by
  have hfailed : (pairingFailed theAppTask m.sm addr status).1.authReqLock = m.sm.authReqLock ∧
      (pairingFailed theAppTask m.sm addr status).1.authRemoteAddr = m.sm.authRemoteAddr := by
    rw [pairingFailed]
    split <;> exact ⟨rfl, rfl⟩
  have hquiet := Quiet.pairingFailed_quiet theAppTask m.sm addr status
  rw [Sm.simplePairingComplete] at hchannel ⊢
  dsimp only at hchannel ⊢
  by_cases hlock : m.sm.authReqLock = 0
  · -- the remote device started the pairing, and the application is told of its failure
    rw [if_pos hlock] at hchannel ⊢
    obtain ⟨hsession, _⟩ := h.locked.free hlock
    have hactive : m.sessions.active = none := by rw [Sessions.active, hsession]; rfl
    have heffects : ∀ e ∈ (pairingFailed theAppTask m.sm addr status).2, e = .cancelTimeout ∨
        ∃ cfm : AuthenticateCfm, cfm.bdAddr = addr ∧ e = .authenticateCfm theAppTask cfm := by
      intro e he
      rw [pairingFailed, if_pos hlock] at he
      split at he
      · exact .inr ⟨_, rfl, mem_connectionSendAuthenticateCfm he⟩
      · cases he
    obtain ⟨as, ts, has, _, hfold⟩ := Sessions.foldl_aside (w := m.sessions) (by simp [hactive]) heffects
    refine h.aside as ts has hchannel ?_ (fun hne => absurd hactive hne) hfailed.1 hfailed.2
      (hquiet.step (o := .device addr) rfl rfl rfl)
    change ((pairingFailed theAppTask m.sm addr status).2.foldl Sessions.effect m.sessions).follow _ _ = _
    simp only [hfold, Sessions.follow, hsession]
  · rw [if_neg hlock] at hchannel ⊢
    have hnothing : (pairingFailed theAppTask m.sm addr status).2 = [] := by
      rw [pairingFailed, if_neg hlock]
      split <;> rfl
    rw [hnothing] at hchannel ⊢
    refine h.endedBy (hok hlock) hfailed.1 hfailed.2 ?_ [] ⟨_, rfl⟩ hchannel
    rw [decide_eq_decide]
    exact (connectionConvertAuthStatus_eq_success status).symm

theorem Orderly.oobCfm (h : Orderly theAppTask m) (ho : m.sessions.oob = some task)
    (hchannel : Channel (Manager.after { m with sessions := { m.sessions with oob := none } } .oobCfm
      (connectionHandleReadLocalOobDataCfm m.sm status))) :
    Orderly theAppTask (Manager.after { m with sessions := { m.sessions with oob := none } } .oobCfm
      (connectionHandleReadLocalOobDataCfm m.sm status)) := by
  obtain ⟨hsession, hlock, hne⟩ := h.locked.reading task ho
  have hactive : m.sessions.active = none := by rw [Sessions.active, hsession]; rfl
  generalize hm' : Manager.after _ _ _ = m' at hchannel ⊢
  have hsessions : m'.sessions = { m.sessions with oob := none } := by
    rw [← hm']
    change (List.foldl Sessions.effect { m.sessions with oob := none }
      (connectionHandleReadLocalOobDataCfm m.sm status).2).follow _ _ = _
    rw [Sessions.foldl_of_silent, Sessions.follow, hsession]
    intro e he
    rw [connectionHandleReadLocalOobDataCfm] at he
    dsimp only at he
    split at he
    · cases he
    · obtain rfl := mem_singleton.mp he
      trivial
  have hsm : m'.sm = { m.sm with authReqLock := 0 } := by rw [← hm']; rfl
  refine ⟨hchannel, hsessions ▸ ⟨h.ledger.held, h.ledger.answers, h.ledger.once, h.ledger.places,
    h.ledger.occasions⟩, ?_⟩
  refine ⟨fun _ _ => by rw [hsm], fun task' ho' => ?_, fun s hs => ?_, fun _ => ?_⟩
  · rw [hsessions] at ho'
    cases ho'
  · rw [hsessions, hsession] at hs
    cases hs
  · rw [hsm]
    exact h.locked.inactive hactive

theorem Orderly.timeout (h : Orderly theAppTask m) {id : ℕ} {ts : List ℕ}
    (hok : (m.sm.authReqLock = 0 ∧ m.sm.securityMode.bonds) ∨ m.sessions.activeIds = [id] ∧ m.sessions.answeredIds = [])
    (hchannel : Channel (Manager.after { m with sessions := { m.sessions with timers := ts } } (.timer id)
      (connectionHandleAuthenticationTimeout m.sm))) :
    Orderly theAppTask (Manager.after { m with sessions := { m.sessions with timers := ts } } (.timer id)
      (connectionHandleAuthenticationTimeout m.sm)) := by
  rw [connectionHandleAuthenticationTimeout] at hchannel ⊢
  rcases hok with ⟨hlock, hbonds⟩ | ⟨hactive, hans⟩
  · -- a timeout that was not cancelled finds no authentication
    obtain ⟨hsession, _⟩ := h.locked.free hlock
    have hactive : m.sessions.active = none := by rw [Sessions.active, hsession]; rfl
    have haddr := h.locked.inactive hactive
    have heffects : (endAuthentication m.sm .timeout).2 = [.bondingCancelReq m.sm.authRemoteAddr false] := by
      rw [endAuthentication, if_pos hbonds, failureCfm, endLink, if_neg (by decide), hlock,
        connectionSendAuthenticateCfm, if_pos rfl, if_neg (by decide), if_pos hbonds]
      rfl
    refine h.aside [] ts (by simp) hchannel ?_ (fun hne => absurd hactive hne) ?_ ?_
      ((Quiet.endAuthentication_quiet m.sm .timeout).step (o := .timer id) rfl rfl rfl)
    · change (List.foldl Sessions.effect { m.sessions with timers := ts } (endAuthentication m.sm .timeout).2).follow
        _ _ = _
      rw [heffects, foldl_cons, foldl_nil,
        Sessions.effect_of_silent (e := .bondingCancelReq m.sm.authRemoteAddr false) trivial, Sessions.follow, hsession]
      simp [hsession]
    · change (endAuthentication m.sm .timeout).1.authReqLock = _
      rw [endAuthentication, if_pos hbonds, hlock]
    · change (endAuthentication m.sm .timeout).1.authRemoteAddr = _
      rw [endAuthentication, if_pos hbonds, haddr]
  · obtain ⟨s, hs, hid⟩ : ∃ s, m.sessions.active = some s ∧ s.id = id := by
      rw [Sessions.activeIds] at hactive
      cases hs : m.sessions.active with
      | none => simp [hs] at hactive
      | some s => exact ⟨s, rfl, by simpa [hs] using hactive⟩
    have hnot : s.answered = false := by
      rw [Sessions.answeredIds, hs] at hans
      simpa using hans
    exact h.ended m.sm .timeout (.timer id) ts hs hchannel rfl rfl hnot hid.symm rfl rfl
      fun hbonds => restores_endAuthentication hbonds _ _ [] _

/-! ### Link keys -/

/-- What the handler of link keys does: it confirms them to the application, and ends an authentication at a legacy
key. -/
structure KeysHandled (theAppTask : Task) (addr : Bdaddr) (sm : SmState) (ends : Prop) (effects : List Effect)
    (r : SmState × List Effect) : Prop where
  more : ∃ new, r.2 = effects ++ new ∧
    (∀ e ∈ new, e = .cancelTimeout ∨ ∃ cfm : AuthenticateCfm, cfm.bdAddr = addr ∧
      e = .authenticateCfm theAppTask cfm) ∧ (¬ ends → .cancelTimeout ∉ new)
  mode : r.1.securityMode = sm.securityMode
  goesOn : ¬ ends → r.1.authReqLock = sm.authReqLock ∧ r.1.authRemoteAddr = sm.authRemoteAddr
  free : sm.authReqLock = 0 → sm.authRemoteAddr = ⟨0, 0, 0⟩ →
    r.1.authReqLock = 0 ∧ r.1.authRemoteAddr = ⟨0, 0, 0⟩

variable {words : List ℕ}

theorem handleBredrKey_of_legacy (theAppTask : Task) (addr : Bdaddr) {sm : SmState}
    (h : sm.securityMode.bonds ∧ bredrKeyType words = .legacy) : ∃ cfm : AuthenticateCfm, cfm.bdAddr = addr ∧
      (handleBredrKey theAppTask sm addr words).2 =
        ({ sm with authRemoteAddr := ⟨0, 0, 0⟩, authReqLock := 0, authenticationRequirements := authReqUnknown },
          .cancelTimeout :: connectionSendAuthenticateCfm theAppTask cfm) := by
  refine ⟨⟨addr, .success, bredrKeyType words, bredrBonds sm.authenticationRequirements (bredrKeyType words)⟩, rfl, ?_⟩
  rw [handleBredrKey]
  simp only [if_pos h, endAuthentication, if_pos h.1, failureCfm, endLink]
  rfl

theorem handleBredrKey_of_other (theAppTask : Task) (addr : Bdaddr) {sm : SmState}
    (h : ¬ (sm.securityMode.bonds ∧ bredrKeyType words = .legacy)) : ∃ cfm : AuthenticateCfm, cfm.bdAddr = addr ∧
      (handleBredrKey theAppTask sm addr words).2 =
        ({ sm with authenticationRequirements := authReqUnknown }, connectionSendAuthenticateCfm theAppTask cfm) := by
  refine ⟨⟨addr, .success, bredrKeyType words, bredrBonds sm.authenticationRequirements (bredrKeyType words)⟩, rfl, ?_⟩
  rw [handleBredrKey]
  simp only [if_neg h]
  rfl

theorem handleBredrKeys_spec (theAppTask : Task) (addr : Bdaddr) (keys : List (List ℕ)) (sm : SmState) (effects : List Effect) :
    KeysHandled theAppTask addr sm (EndsByKey sm keys) effects
      (handleBredrKeys theAppTask addr keys (sm, effects)) := by
  induction keys generalizing sm effects with
  | nil => exact ⟨⟨[], by simp [handleBredrKeys], by simp, by simp⟩, rfl, fun _ => ⟨rfl, rfl⟩, fun hl ha => ⟨hl, ha⟩⟩
  | cons words keys ih =>
    have hconfirm : ∀ cfm : AuthenticateCfm, cfm.bdAddr = addr →
        ∀ e ∈ connectionSendAuthenticateCfm theAppTask cfm, e = .cancelTimeout ∨
          ∃ cfm : AuthenticateCfm, cfm.bdAddr = addr ∧ e = .authenticateCfm theAppTask cfm :=
      fun cfm hcfm e he => .inr ⟨cfm, hcfm, mem_connectionSendAuthenticateCfm he⟩
    by_cases hends : sm.securityMode.bonds ∧ bredrKeyType words = .legacy
    · obtain ⟨cfm, hcfm, hkey⟩ := handleBredrKey_of_legacy theAppTask addr hends
      have hnow : EndsByKey sm (words :: keys) := ⟨hends.1, by simp [hends.2]⟩
      have hrest := ih (handleBredrKey theAppTask sm addr words).2.1
        (effects ++ (handleBredrKey theAppTask sm addr words).2.2)
      obtain ⟨new, hnew, hall, _⟩ := hrest.more
      refine ⟨⟨(handleBredrKey theAppTask sm addr words).2.2 ++ new, ?_, ?_, fun hnot => absurd hnow hnot⟩, ?_,
        fun hnot => absurd hnow hnot, fun _ _ => ?_⟩
      · rw [← List.append_assoc]
        exact hnew
      · intro e he
        rcases mem_append.mp he with hmem | hmem
        · rw [hkey] at hmem
          rcases mem_cons.mp hmem with rfl | hmem
          · exact .inl rfl
          · exact hconfirm cfm hcfm e hmem
        · exact hall e hmem
      · refine hrest.mode.trans ?_
        rw [hkey]
      · refine hrest.free ?_ ?_ <;> rw [hkey]
    · obtain ⟨cfm, hcfm, hkey⟩ := handleBredrKey_of_other theAppTask addr hends
      have hrest := ih (handleBredrKey theAppTask sm addr words).2.1
        (effects ++ (handleBredrKey theAppTask sm addr words).2.2)
      have hiff : EndsByKey (handleBredrKey theAppTask sm addr words).2.1 keys ↔ EndsByKey sm (words :: keys) := by
        rw [hkey, EndsByKey, EndsByKey, any_cons, Bool.or_eq_true, decide_eq_true_iff]
        constructor
        · exact fun ⟨hb, hany⟩ => ⟨hb, .inr hany⟩
        · rintro ⟨hb, hlegacy | hany⟩
          · exact absurd ⟨hb, hlegacy⟩ hends
          · exact ⟨hb, hany⟩
      obtain ⟨new, hnew, hall, hcancel⟩ := hrest.more
      rw [hiff] at hcancel
      refine ⟨⟨(handleBredrKey theAppTask sm addr words).2.2 ++ new, ?_, ?_, fun hnot hmem => ?_⟩, ?_,
        fun hnot => ?_, fun hl ha => ?_⟩
      · rw [← List.append_assoc]
        exact hnew
      · intro e he
        rcases mem_append.mp he with hmem | hmem
        · rw [hkey] at hmem
          exact hconfirm cfm hcfm e hmem
        · exact hall e hmem
      · rcases mem_append.mp hmem with hmem | hmem
        · rw [hkey] at hmem
          cases mem_connectionSendAuthenticateCfm hmem
        · exact hcancel hnot hmem
      · refine hrest.mode.trans ?_
        rw [hkey]
      · obtain ⟨hl, ha⟩ := hrest.goesOn (mt hiff.mp hnot)
        refine ⟨hl.trans ?_, ha.trans ?_⟩ <;> rw [hkey]
      · refine hrest.free ?_ ?_ <;> rw [hkey]
        · exact hl
        · exact ha

/-- Link keys that do not end an authentication and are not about its device. -/
theorem Orderly.otherKeys (h : Orderly theAppTask m) {keys : List (List ℕ)} {sm : SmState}
    (hmode : sm.securityMode = m.sm.securityMode)
    (hlock : sm.authReqLock = m.sm.authReqLock) (haddr : sm.authRemoteAddr = m.sm.authRemoteAddr)
    (hother : ∀ s, m.sessions.active = some s → addr ≠ s.req.bdAddr)
    (hends : EndsByKey m.sm keys → m.sm.authReqLock = 0)
    (hchannel : Channel (m.after (.device addr) (handleBredrKeys theAppTask addr keys (sm, []))))
    (hstep : QuietStep m (m.after (.device addr) (handleBredrKeys theAppTask addr keys (sm, [])))) :
    Orderly theAppTask (m.after (.device addr) (handleBredrKeys theAppTask addr keys (sm, []))) := by
  have hspec := handleBredrKeys_spec theAppTask addr keys sm []
  generalize handleBredrKeys theAppTask addr keys (sm, []) = r at hspec hchannel hstep ⊢
  obtain ⟨new, hnew, hall, hcancel⟩ := hspec.more
  rw [nil_append] at hnew
  rw [← hnew] at hall hcancel
  have hiff : EndsByKey sm keys ↔ EndsByKey m.sm keys := by rw [EndsByKey, EndsByKey, hmode]
  obtain ⟨as, ts, has, hts, hfold⟩ := Sessions.foldl_aside (w := m.sessions) hother hall
  have hsame : r.1.authReqLock = m.sm.authReqLock ∧ r.1.authRemoteAddr = m.sm.authRemoteAddr := by
    by_cases he : EndsByKey m.sm keys
    · have hfree := hends he
      obtain ⟨hsession, _⟩ := h.locked.free hfree
      have hzero := h.locked.inactive (by rw [Sessions.active, hsession]; rfl)
      rw [hfree, hzero]
      exact hspec.free (hlock.trans hfree) (haddr.trans hzero)
    · obtain ⟨hl, ha⟩ := hspec.goesOn (mt hiff.mp he)
      exact ⟨hl.trans hlock, ha.trans haddr⟩
  refine h.aside as ts has hchannel ?_ (fun hne => ?_) hsame.1 hsame.2 hstep
  · change (r.2.foldl Sessions.effect m.sessions).follow _ r.1 = _
    rw [hfold]
    exact h.locked.follow_eq hsame.1 hsame.2 rfl
  · refine hts (hcancel fun he => hne ?_)
    obtain ⟨hsession, _⟩ := h.locked.free (hends (hiff.mp he))
    rw [Sessions.active, hsession]
    rfl

/-- The link key of the device that is being authenticated is the answer to its request. -/
theorem Orderly.ownKey (h : Orderly theAppTask m) (hactive : m.sessions.active = some s)
    (htask : s.req.task = theAppTask) (hnot : s.answered = false) {sm : SmState} (hlock : sm.authReqLock = m.sm.authReqLock)
    (haddr : sm.authRemoteAddr = m.sm.authRemoteAddr)
    (hchannel : Channel (m.after (.device s.req.bdAddr) (handleBredrKeys theAppTask s.req.bdAddr [words] (sm, [])))) :
    Orderly theAppTask (m.after (.device s.req.bdAddr)
      (handleBredrKeys theAppTask s.req.bdAddr [words] (sm, []))) := by
  obtain ⟨hholds, hrecorded, htimer, hoob⟩ := h.locked.own hactive
  obtain ⟨hsession, hrest⟩ := Ledger.active_eq_some.mp hactive
  have happ : theAppTask ≠ 0 := htask ▸ hholds.task
  have hright : ∀ cfm : AuthenticateCfm, cfm.bdAddr = s.req.bdAddr →
      AuthAnswer.Right theAppTask m.sessions.asked ⟨some s.id, theAppTask, cfm⟩ :=
    fun cfm hcfm => ⟨s.req, hholds.asked, htask.symm, hcfm⟩
  have hone : handleBredrKeys theAppTask s.req.bdAddr [words] (sm, []) =
      ((handleBredrKey theAppTask sm s.req.bdAddr words).2.1,
        [] ++ (handleBredrKey theAppTask sm s.req.bdAddr words).2.2) := rfl
  rw [hone] at hchannel ⊢
  by_cases hends : sm.securityMode.bonds ∧ bredrKeyType words = .legacy
  · -- a legacy key ends the authentication
    obtain ⟨cfm, hcfm, hkey⟩ := handleBredrKey_of_legacy theAppTask s.req.bdAddr hends
    simp only [hkey, nil_append] at hchannel ⊢
    rw [connectionSendAuthenticateCfm, if_neg happ] at hchannel ⊢
    generalize hm' : Manager.after m _ _ = m' at hchannel ⊢
    have hempty : Ledger theAppTask { m.sessions with timers := m.sessions.timers.tail } := by
      have hu := h.ledger.untagged [] (by simp) m.sessions.timers.tail
      simpa using hu
    have hledger := hempty.answer (s := s) hactive hnot (hright cfm hcfm)
    have hactive' : Sessions.active { m.sessions with
        timers := m.sessions.timers.tail
        answers := m.sessions.answers ++ [⟨some s.id, theAppTask, cfm⟩]
        session := some { s with answered := true } } = some { s with answered := true } := by
      simp [Sessions.active, hrest]
    have hfinish := hledger.finish (o := .device s.req.bdAddr) hactive' rfl hholds.asked rfl none
      (by simp) m.sessions.timers.tail
    have hdevice := hholds.device
    have hzero : (⟨0, 0, 0⟩ : Bdaddr) ≠ s.req.bdAddr := by
      intro heq
      rw [← heq] at hdevice
      revert hdevice
      decide
    have hsessions : m'.sessions = { m.sessions with
        timers := m.sessions.timers.tail
        answers := m.sessions.answers ++ [⟨some s.id, theAppTask, cfm⟩]
        session := none
        ended := m.sessions.ended ++ [(s.id, .device s.req.bdAddr)] } := by
      rw [← hm']
      change ((Sessions.effect { m.sessions with timers := m.sessions.timers.tail }
        (.authenticateCfm theAppTask cfm)).follow _ _) = _
      rw [Sessions.effect_answer (w := { m.sessions with timers := m.sessions.timers.tail }) hactive theAppTask hcfm,
        Sessions.follow]
      dsimp only
      rw [if_neg (by simp [hrest]), if_neg hzero, if_pos rfl]
    have hsm : m'.sm = { sm with
        authRemoteAddr := ⟨0, 0, 0⟩, authReqLock := 0, authenticationRequirements := authReqUnknown } := by
      rw [← hm']
      rfl
    refine ⟨hchannel, hsessions ▸ hfinish, ?_⟩
    refine ⟨fun _ _ => by rw [hsm], fun task ho => ?_, fun s' hs' => ?_, fun _ => by rw [hsm]⟩
    · rw [hsessions] at ho
      rw [hoob] at ho
      cases ho
    · rw [hsessions] at hs'
      cases hs'
  · obtain ⟨cfm, hcfm, hkey⟩ := handleBredrKey_of_other theAppTask s.req.bdAddr hends
    simp only [hkey, nil_append] at hchannel ⊢
    rw [connectionSendAuthenticateCfm, if_neg happ] at hchannel ⊢
    generalize hm' : Manager.after m _ _ = m' at hchannel ⊢
    have hsessions : m'.sessions = { m.sessions with
        answers := m.sessions.answers ++ [⟨some s.id, theAppTask, cfm⟩]
        session := some { s with answered := true } } := by
      rw [← hm']
      change ((Sessions.effect m.sessions (.authenticateCfm theAppTask cfm)).follow _ _) = _
      rw [Sessions.effect_answer hactive theAppTask hcfm, Sessions.follow]
      simp [hrest, haddr.trans hrecorded]
    have hsm : m'.sm = { sm with authenticationRequirements := authReqUnknown } := by
      rw [← hm']
      rfl
    refine ⟨hchannel, hsessions ▸ h.ledger.answer hactive hnot (hright cfm hcfm), ?_⟩
    refine ⟨fun hnone => ?_, fun task ho => ?_, fun s' hs' => ?_, fun hnone => ?_⟩
    · rw [hsessions] at hnone
      cases hnone
    · rw [hsessions] at ho
      rw [hoob] at ho
      cases ho
    · rw [hsessions] at hs'
      obtain rfl := some.inj hs'
      refine ⟨?_, hholds.task, hholds.device, ?_, fun _ => ⟨?_, ?_⟩, fun hr => ?_⟩
      · rw [hsm]
        exact hlock.trans hholds.lock
      · rw [hsessions]
        exact hholds.asked
      · rw [hsm]
        exact haddr.trans hrecorded
      · rw [hsessions]
        exact htimer
      · have hr' : s.restoring = true := hr
        rw [hrest] at hr'
        cases hr'
    · rw [hsessions] at hnone
      simp [Sessions.active, hrest] at hnone

/-- **The step rule.** -/
theorem Orderly.step {e : Input} (h : Orderly theAppTask m) (hpromised : Promised e)
    (hok : AdmitsSession theAppTask version m e) (hstep : Manager.step theAppTask version m e = some m') :
    Orderly theAppTask m' := by
  have hchannel := h.channel.step hpromised hok.1 hstep
  have hquiet := fun he => Manager.step_quiet he hstep
  cases e with try obtain rfl := some.inj hstep
  | setMode task mode encMode | config req =>
    exact h.handleSetting (some.inj hstep) hchannel rfl rfl (by simp) .inr
  | defaultLevel req =>
    rw [handleSetSspSecurityLevelReq] at hchannel ⊢
    split
    · rename_i hlevel
      rw [if_pos hlevel] at hchannel
      split
      · rename_i hprotocol
        rw [if_pos hprotocol] at hchannel
        refine h.apart hchannel (h.locked.follow_eq rfl rfl rfl) rfl rfl (fun _ => rfl) fun _ hr => ?_
        rcases hr with hposted | hheld | ⟨p, hp, hcause⟩
        · exact .inl hposted
        · exact .inr (.inl hheld)
        · exact .inr (.inr ⟨p, mem_append_left _ hp, hcause⟩)
      · rename_i hprotocol
        rw [if_neg hprotocol] at hchannel
        exact h.apart hchannel (h.locked.follow_eq rfl rfl rfl) rfl rfl (fun _ => rfl) fun _ hr => hr
    · rename_i hlevel
      rw [if_neg hlevel] at hchannel
      exact h.nothing hchannel
  | heldSetting n =>
    rw [Manager.step] at hstep
    split at hstep
    · cases hstep
    · obtain ⟨⟨id, req⟩, hget, heq⟩ := map_eq_some_iff.mp hstep
      refine h.handleSetting heq hchannel rfl rfl (fun hid => ?_) fun hr => ?_
      · have hknown := h.channel.held (id, req) (mem_of_getElem? hget)
        obtain rfl := hid
        obtain ⟨mode, mode3Enc, hreq⟩ := hknown
        exact ⟨_, hreq⟩
      · rcases hr with hposted | ⟨x, hx, hxid⟩ | hinits
        · exact .inr (.inl hposted)
        · -- the request of the library that waits is another one, or this one
          obtain ⟨hn, hn'⟩ := List.getElem?_eq_some_iff.mp hget
          have hperm := (getElem_cons_eraseIdx_perm hn).symm.subset hx
          rcases mem_cons.mp hperm with rfl | hmem
          · left
            rw [hn'] at hxid
            exact hxid
          · exact .inr (.inr (.inl ⟨x, hmem, hxid⟩))
        · exact .inr (.inr (.inr hinits))
  | postedMode =>
    rw [Manager.step] at hstep
    split at hstep
    · cases hstep
    · rename_i req rest hposted
      exact h.handleSetting (some.inj hstep) hchannel rfl rfl (fun _ => ⟨req, rfl⟩) fun _ => .inl rfl
  | initCfm cfm =>
    rw [Manager.step] at hstep
    split at hstep
    · cases hstep
    · rename_i p rest hinits
      obtain rfl := some.inj hstep
      exact h.answerInit hinits (hok.2 p (by rw [hinits]; simp))
  | authenticate req =>
    have hrange : (m.sessions.asked ++ [req]).length = m.sessions.asked.length + 1 := by simp
    refine Unplaced.start (m := { m with sessions := { m.sessions with asked := m.sessions.asked ++ [req] } })
      ⟨?_, fun x hx => (h.ledger.held x hx).concat req, ?_, h.ledger.once, ?_, ?_⟩ (by simp) hpromised.1.1
      hpromised.2 hchannel
    · refine h.locked.apart rfl rfl (fun n req' hget => ?_) (fun s hs => (h.locked.own hs).2.2.1) rfl rfl
        (fun _ => rfl) fun _ hr => hr
      obtain ⟨hn, _⟩ := List.getElem?_eq_some_iff.mp hget
      rw [List.getElem?_append_left hn, hget]
    · intro a ha
      have hright := h.ledger.answers a ha
      rw [AuthAnswer.Right] at hright ⊢
      split at hright
      · obtain ⟨req', hget, hrest⟩ := hright
        obtain ⟨hn, _⟩ := List.getElem?_eq_some_iff.mp hget
        exact ⟨req', by rw [List.getElem?_append_left hn, hget], hrest⟩
      · exact hright
    · dsimp only
      rw [hrange, range_succ]
      exact (List.Perm.cons _ h.ledger.places).trans (perm_append_singleton _ _).symm
    · intro x hx
      obtain ⟨req', hget, hrest⟩ := h.ledger.occasions x hx
      obtain ⟨hn, _⟩ := List.getElem?_eq_some_iff.mp hget
      exact ⟨req', by rw [List.getElem?_append_left hn, hget], hrest⟩
  | readOob task =>
    exact Unplaced.read ⟨h.locked, h.ledger.held, h.ledger.answers, h.ledger.once, h.ledger.places,
      h.ledger.occasions⟩ hpromised.1 hchannel
  | heldAuth n =>
    rw [Manager.step] at hstep
    split at hstep
    · cases hstep
    · obtain ⟨w, hget, rfl⟩ := map_eq_some_iff.mp hstep
      have hunplaced := h.unplaced hget
      have hknown := h.ledger.held w (mem_of_getElem? hget)
      cases w with
      | authenticate id req => exact hunplaced.start hknown.1 hknown.2.1 hknown.2.2 hchannel
      | readOob task => exact hunplaced.read hknown hchannel
  | cancel task force =>
    refine h.still hchannel (Quiet.connectionHandleCancelAuthenticationReq_quiet version m.sm task force) ?_ rfl rfl
    intro e he
    dsimp only at he
    rw [connectionHandleCancelAuthenticationReq] at he
    split at he
    · cases he
    · split at he
      · obtain rfl := mem_singleton.mp he
        trivial
      · split at he
        · obtain rfl := mem_singleton.mp he
          trivial
        · cases he
  | oobCfm status =>
    rw [Manager.step] at hstep
    split at hstep
    · cases hstep
    · rename_i ho
      obtain ⟨task, htask⟩ := ne_none_iff_exists'.mp ho
      obtain rfl := some.inj hstep
      exact h.oobCfm htask hchannel
  | aclOpenCfm addr success => exact h.aclOpenCfm hok.2 hchannel
  | aclOpenedInd addr status => exact h.aclOpenedInd hok.2 hchannel
  | aclClosedInd addr => exact h.aclClosedInd hok.2 hchannel
  | bondingCfm addr status => exact h.bondingCfm hok.2 hchannel
  | keysInd taddr addr keys =>
    have hquiet := hquiet (by exact id)
    obtain ⟨hmode, hlock, haddr⟩ : (m.sm.cache taddr).securityMode = m.sm.securityMode ∧
        (m.sm.cache taddr).authReqLock = m.sm.authReqLock ∧
        (m.sm.cache taddr).authRemoteAddr = m.sm.authRemoteAddr := by
      cases taddr <;> exact ⟨rfl, rfl, rfl⟩
    have hkeys : AdmitsKeys theAppTask m addr keys := hok.2
    rw [AdmitsKeys] at hkeys
    split at hkeys
    · rename_i s hs
      split at hkeys
      · -- about the device that is being authenticated
        rename_i hown
        subst hown
        rcases hkeys with rfl | ⟨hlen, htask, hnot⟩
        · have hsame : (m.after (.device s.req.bdAddr) (m.sm.cache taddr, [])).sessions = m.sessions :=
            h.locked.follow_eq hlock haddr rfl
          exact h.apart hchannel hsame hlock haddr (fun _ => hmode) fun _ => hquiet.restores
        · obtain ⟨words, rfl⟩ := length_eq_one_iff.mp hlen
          exact h.ownKey hs htask hnot hlock haddr hchannel
      · rename_i hother
        refine h.otherKeys hmode hlock haddr (fun s' hs' => ?_) (fun hends => absurd hends hkeys) hchannel hquiet
        rw [hs] at hs'
        exact some.inj hs' ▸ hother
    · rename_i hnone
      refine h.otherKeys hmode hlock haddr (fun s' hs' => ?_) (fun hends => ?_) hchannel hquiet
      · rw [hnone] at hs'
        cases hs'
      · -- neither a read nor an authentication whose mode is being restored holds the lock
        refine h.locked.idle ?_ ?_
        · cases hs : m.sessions.session with
          | none => rfl
          | some s =>
            have hrest : s.restoring = true := by
              by_contra hrest
              rw [Ledger.active_eq_some.mpr ⟨hs, by simpa using hrest⟩] at hnone
              cases hnone
            exact absurd hends.1 ((h.locked.session s hs).restoring hrest).1
        · rw [← not_isSome_iff_eq_none]
          exact fun ho => hkeys ho hends
  | simplePairingComplete addr status => exact h.simplePairingComplete hok.2 hchannel
  | bleSimplePairingComplete =>
    exact h.still hchannel (Quiet.blePairingComplete_quiet theAppTask m.sm) (by simp [blePairingComplete, Effect.Silent])
      rfl rfl
  | timeout n =>
    obtain ⟨id, hget, rfl⟩ := map_eq_some_iff.mp hstep
    exact h.timeout (hok.2 id (by rw [hget]; simp)) hchannel

end Steps

/-! ### Runs -/

theorem orderly_ready (mode : DmSecurityMode) (encMode : ℕ) (options : Options) :
    Orderly theAppTask (.ready mode encMode options) := by
  refine ⟨channel_ready mode encMode options, ⟨?_, ?_, .refl _, .refl _, ?_⟩, ⟨fun _ _ => rfl, ?_, ?_, fun _ => rfl⟩⟩
  · simp [Manager.ready]
  · simp [Manager.ready]
  · simp [Manager.ready]
  · intro task htask
    cases htask
  · intro s hs
    cases hs

/-- In every run whose steps meet the condition, authentication requests are answered once, with their own result. -/
theorem sessions_answered_of_run {mode : DmSecurityMode} {encMode : ℕ} {options : Options} {es : List Input} {m' : Manager}
    (hpromised : Lib.RunMeets (Manager.step theAppTask version) (fun _ => Promised) (.ready mode encMode options) es)
    (hok : Lib.RunMeets (Manager.step theAppTask version) (AdmitsSession theAppTask version)
      (.ready mode encMode options) es)
    (hrun : Lib.run (Manager.step theAppTask version) (.ready mode encMode options) es = some m') :
    Answered theAppTask m' :=
  (Lib.run_invariant (fun _ _ _ h hguard hstep => Orderly.step h hguard.1 hguard.2 hstep)
    (orderly_ready mode encMode options) (hpromised.and hok) hrun).answered

/-! ### Two runs -/

/-- The application pairs with a device while another client waits; the pairing of that client fails. -/
def pairingsInTurn : List Input :=
  [.authenticate ⟨2, ⟨1, 0, 0⟩, 30⟩, .authenticate ⟨3, ⟨2, 0, 0⟩, 30⟩, .keysInd none ⟨1, 0, 0⟩ [[5]],
    .simplePairingComplete ⟨1, 0, 0⟩ 0, .heldAuth 0, .readOob 3, .bondingCfm ⟨1, 0, 0⟩ 5, .bondingCfm ⟨2, 0, 0⟩ 5,
    .heldAuth 0, .oobCfm 0]

theorem answered_pairingsInTurn : ∃ m, Lib.run (Manager.step 2 .bluetooth4_0) (.ready .secMode4Ssp 0 .initial)
    pairingsInTurn = some m ∧ Answered 2 m := by
  have hrun : (Lib.run (Manager.step 2 .bluetooth4_0) (.ready .secMode4Ssp 0 .initial) pairingsInTurn).isSome := by
    decide
  obtain ⟨m, hm⟩ := isSome_iff_exists.mp hrun
  exact ⟨m, hm, sessions_answered_of_run (by decide) (by decide) hm⟩

/-- While one device is being authenticated, the pairing that another one started fails. -/
def pairingsCrossing : List Input := [.authenticate ⟨2, ⟨1, 0, 0⟩, 30⟩, .simplePairingComplete ⟨2, 0, 0⟩ 5]

/-- Every run answers the authentication requests once, with their own result. -/
def AlwaysAnswered : Prop :=
  ∀ (theAppTask : Task) (version : BtVersion) (mode : DmSecurityMode) (encMode : ℕ) (options : Options)
    (es : List Input) (m : Manager),
    Lib.RunMeets (Manager.step theAppTask version) (fun _ => Promised) (.ready mode encMode options) es →
    Lib.run (Manager.step theAppTask version) (.ready mode encMode options) es = some m → Answered theAppTask m

/-- The failure about the other device ends the authentication. -/
theorem not_alwaysAnswered : ¬ AlwaysAnswered := by
  intro h
  have hruns : (Lib.run (Manager.step 2 .bluetooth4_0) (.ready .secMode4Ssp 0 .initial) pairingsCrossing).any
      (fun m => decide (m.sessions.ended = [(0, .device ⟨2, 0, 0⟩)] ∧
        m.sessions.asked = [⟨2, ⟨1, 0, 0⟩, 30⟩])) := by decide
  obtain ⟨m, hm, hbad⟩ := (Option.any_eq_true _ _).mp hruns
  obtain ⟨hended, hasked⟩ := of_decide_eq_true hbad
  have hanswered := h _ _ _ _ _ _ m (by decide) hm
  obtain ⟨req, hget, hconcerns⟩ := hanswered.occasions _ (by rw [hended]; exact mem_singleton_self _)
  rw [hasked] at hget
  obtain rfl := some.inj hget
  revert hconcerns
  simp [Occasion.Concerns]

end Cbps.Sm
