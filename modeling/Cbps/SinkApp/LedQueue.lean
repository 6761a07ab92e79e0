import Cbps.Lib.Monitor
import Cbps.Lib.Runs
import Mathlib.Data.List.Basic

/-!
# The queue of the LED events

An event that is to be indicated while another one is waits in a queue of four elements, a zero in each that is free. When
an event is over, the application shows the one at the head of the queue, and shifts the others.

Both loops over the queue end at `sizeof(LEDEventQueue_t)`, which is four times the size of an element. A read or a write
behind the queue is `none`. Where an element has the size one, the queue is a bounded first-in first-out list (`Waits`,
`Waits.add`, `Waits.shift`); with any other size the shift leaves it.

The log says which events were shown, queued and dropped, and `fifo` judges it.
-/

namespace Cbps.SinkApp.Leds

open Lib List Option

/-- `MessageId`, and `sinkEvents_t`, which has room for all of them. -/
abbrev MessageId := BitVec 16

/-- The parts of `LEDPattern_t` that are looked at here. -/
structure LEDPattern where
  stateOrEvent : MessageId
  overideDisable : Bool
  numFlashes : ℕ
deriving DecidableEq, Repr

/-- What becomes of an event: it is shown, put into the queue or dropped; `next` stands for the head of the queue, which is
to be shown. -/
inductive Entry
  | shown (id : MessageId)
  | queued (id : MessageId)
  | dropped (id : MessageId)
  | next (id : MessageId)
deriving DecidableEq, Repr

/-- The LED task, the feature of the queue, whether a filter that is active overrides the disabled LEDs, and the log. -/
structure LedTask where
  eventPatterns : List LEDPattern
  ledsSuspend : Bool
  ledsEnabled : Bool
  activeFiltersOveride : Bool
  currentlyIndicatingEvent : Bool
  queueLEDEvents : Bool
  queue : List MessageId
  log : List Entry
deriving DecidableEq, Repr

/-- The task after `LEDManagerInit`. -/
def ledManagerInit (eventPatterns : List LEDPattern) (queueLEDEvents : Bool) : LedTask :=
  ⟨eventPatterns, false, false, false, false, queueLEDEvents, [0, 0, 0, 0], []⟩

/-! ### The functions -/

def ledManagerCanPlayPattern (task : LedTask) (pattern : LEDPattern) : Bool :=
  if task.ledsSuspend then false else task.ledsEnabled || pattern.overideDisable || task.activeFiltersOveride

/-- `ledsIndicateLedsPattern` for an event: a pattern that flashes is indicated from now on. -/
def ledsIndicateLedsPattern (task : LedTask) (pattern : LEDPattern) (pEvent : MessageId) : LedTask :=
  { task with
    currentlyIndicatingEvent := if pattern.numFlashes = 0 then task.currentlyIndicatingEvent else true
    log := task.log ++ [.shown pEvent] }

/-- The search for a free element, with the elements that are left to look at. -/
def addToQueue (pEvent : MessageId) : ℕ → ℕ → List MessageId → Option (List MessageId × Entry)
  | 0, _, queue => some (queue, .dropped pEvent)
  | left + 1, i, queue =>
    queue[i]?.bind fun waiting =>
      if waiting = 0 then some (queue.set i pEvent, .queued pEvent) else addToQueue pEvent left (i + 1) queue

/-- The shift of the elements from the index `i` on. -/
def shuffle : ℕ → ℕ → List MessageId → Option (List MessageId)
  | 0, _, queue => some queue
  | left + 1, i, queue => queue[i]?.bind fun waiting => shuffle left (i + 1) (queue.set (i - 1) waiting)

section

-- `sizeof(sinkEvents_t)`
variable (elementSize : ℕ)

/-- `sizeof(LEDEventQueue_t)` -/
def sizeofQueue : ℕ := 4 * elementSize

def ledManagerIndicateEvent (task : LedTask) (pEvent : MessageId) : Option LedTask :=
  match task.eventPatterns.find? fun pattern => pattern.stateOrEvent = pEvent with
  | some pattern =>
    if ledManagerCanPlayPattern task pattern then
      if !task.currentlyIndicatingEvent then some (ledsIndicateLedsPattern task pattern pEvent)
      else if task.queueLEDEvents then
        (addToQueue pEvent (sizeofQueue elementSize) 0 task.queue).map fun added =>
          { task with queue := added.1, log := task.log ++ [added.2] }
      else some { task with log := task.log ++ [.dropped pEvent] }
    else some task
  | none => some task

def ledManagerIndicateQueuedEvent (task : LedTask) : Option LedTask :=
  task.queue[0]?.bind fun head =>
    (ledManagerIndicateEvent elementSize { task with log := task.log ++ [.next head] } head).bind fun task =>
      (shuffle (sizeofQueue elementSize - 1) 1 task.queue).bind fun queue =>
        if sizeofQueue elementSize - 1 < queue.length then
          some { task with queue := queue.set (sizeofQueue elementSize - 1) 0 }
        else none

/-- What happens to the task: an event is to be indicated; the one that is indicated is over; the application handles
`EventSysLEDEventComplete`; the LEDs or the filters are switched. -/
inductive Event
  | indicate (id : MessageId)
  | over
  | complete
  | switch (ledsSuspend ledsEnabled activeFiltersOveride : Bool)
deriving DecidableEq, Repr

def step (task : LedTask) : Event → Option LedTask
  | .indicate id => ledManagerIndicateEvent elementSize task id
  | .over => some { task with currentlyIndicatingEvent := false }
  | .complete =>
    if task.queueLEDEvents then
      task.queue[0]?.bind fun head => if head ≠ 0 then ledManagerIndicateQueuedEvent elementSize task else some task
    else some task
  | .switch ledsSuspend ledsEnabled activeFiltersOveride => some { task with ledsSuspend, ledsEnabled, activeFiltersOveride }

end

/-! ### The promise -/

/-- A first-in first-out list of at most four events: what waits, and which event is to be shown next. An event that is to
be shown next is shown before anything else happens. -/
def fifo : Monitor (List MessageId × Option MessageId) Entry where
  next
    | (waiting, _), .shown _ => (waiting, none)
    | (waiting, next), .queued id => (waiting ++ [id], next)
    | (waiting, next), .dropped _ => (waiting, next)
    | (waiting, _), .next id => (waiting.tail, some id)
  Fits
    | (_, next), .shown id => next = none ∨ next = some id
    | (waiting, next), .queued _ => next = none ∧ waiting.length < 4
    | (waiting, next), .dropped _ => next = none ∧ waiting.length = 4
    | (waiting, next), .next id => next = none ∧ waiting.head? = some id

/-- The events that wait in the queue. -/
def LedTask.waiting (task : LedTask) : List MessageId := task.queue.takeWhile (· ≠ 0)

/-- **The promise**: the events of the log are those of a first-in first-out list, of which the queue holds the rest. -/
structure Shown (task : LedTask) : Prop where
  accepts : fifo.Accepts ([], none) task.log
  after : fifo.after ([], none) task.log = (task.waiting, none)

/-- An event that has a pattern can be shown. -/
def Plays (task : LedTask) (id : MessageId) : Prop :=
  ∃ pattern, task.eventPatterns.find? (fun pattern => pattern.stateOrEvent = id) = some pattern ∧
    ledManagerCanPlayPattern task pattern = true

/-- The steps that are looked at: the feature is on, no event has the number zero, and a completion shows the head of the
queue. -/
def InScope (task : LedTask) : Event → Prop
  | .indicate id => task.queueLEDEvents = true ∧ id ≠ 0
  | .complete => ∀ id, task.waiting.head? = some id → task.currentlyIndicatingEvent = false ∧ Plays task id
  | _ => True

/-- An element has the size one; or no event of the queue is shown, and none comes while the queue is full. -/
def Allowed (elementSize : ℕ) (task : LedTask) : Event → Prop
  | .indicate _ => elementSize = 1 ∨ task.currentlyIndicatingEvent = false ∨ task.waiting.length < 4
  | .complete => elementSize = 1 ∨ task.waiting = []
  | _ => True

/-! ### The queue as a list -/

/-- The queue holds the events of a list, and zeros behind them. -/
structure Waits (queue waiting : List MessageId) : Prop where
  eq : queue = waiting ++ List.replicate (4 - waiting.length) 0
  ne {id : MessageId} (h : id ∈ waiting) : id ≠ 0
  le : waiting.length ≤ 4

variable {id : MessageId}

section

variable {queue waiting : List MessageId} {pEvent : MessageId}

theorem waits_nil : Waits [0, 0, 0, 0] [] where
  eq := rfl
  ne h := absurd h not_mem_nil
  le := Nat.zero_le 4

theorem Waits.length (h : Waits queue waiting) : queue.length = 4 := by
  rw [h.eq, length_append, length_replicate]
  have hle := h.le
  omega

theorem Waits.takeWhile (h : Waits queue waiting) : queue.takeWhile (· ≠ 0) = waiting := by
  rw [h.eq, takeWhile_append_of_pos fun id hid => decide_eq_true (h.ne hid)]
  rcases 4 - waiting.length with - | n
  · exact append_nil waiting
  · rw [List.replicate_succ, takeWhile_cons_of_neg (by simp), append_nil]

theorem Waits.head (h : Waits queue waiting) : queue[0]? = some (waiting.head?.getD 0) := by
  rw [h.eq]
  cases waiting <;> rfl

/-- The search passes the events that wait. -/
theorem addToQueue_append (pEvent : MessageId) {front : List MessageId} (hne : ∀ id ∈ front, id ≠ 0) (before back : List MessageId) (left : ℕ) :
    addToQueue pEvent (front.length + left) before.length (before ++ (front ++ back)) =
      addToQueue pEvent left (before.length + front.length) (before ++ (front ++ back)) := by
  induction front generalizing before with
  | nil => rw [length_nil, Nat.zero_add, Nat.add_zero]
  | cons id front ih =>
    have hid : (before ++ (id :: front ++ back))[before.length]? = some id := by
      rw [List.getElem?_append_right (Nat.le_refl _), Nat.sub_self]
      rfl
    have hrest := ih (fun x hx => hne x (mem_cons_of_mem id hx)) (before ++ [id])
    rw [length_append, length_singleton, List.append_assoc, singleton_append] at hrest
    rw [length_cons, Nat.add_right_comm, addToQueue, hid, bind_some, if_neg (hne id mem_cons_self)]
    rw [← List.cons_append] at hrest
    rw [hrest, Nat.add_assoc, Nat.add_comm 1]

/-- An event is put behind those that wait. -/
theorem Waits.add (h : Waits queue waiting) (hlt : waiting.length < 4) (hne : pEvent ≠ 0) {size : ℕ} (hsize : 4 ≤ size) :
    ∃ queue', addToQueue pEvent size 0 queue = some (queue', .queued pEvent) ∧ Waits queue' (waiting ++ [pEvent]) := by
  obtain ⟨left, rfl⟩ : ∃ left, size = waiting.length + (left + 1) := ⟨size - waiting.length - 1, by omega⟩
  have hfree : 4 - waiting.length = (4 - (waiting.length + 1)) + 1 := by omega
  have hpass := addToQueue_append pEvent (fun id hid => h.ne hid) []
    (List.replicate (4 - waiting.length) (0 : MessageId)) (left + 1)
  rw [nil_append, length_nil, Nat.zero_add] at hpass
  have hzero : (waiting ++ List.replicate (4 - waiting.length) (0 : MessageId))[waiting.length]? = some 0 := by
    rw [List.getElem?_append_right (Nat.le_refl _), Nat.sub_self, hfree]
    rfl
  refine ⟨(waiting ++ [pEvent]) ++ List.replicate (4 - (waiting.length + 1)) 0, ?_, ?_⟩
  · rw [h.eq, hpass, addToQueue, hzero, bind_some, if_pos rfl, set_append_right _ _ (Nat.le_refl _), Nat.sub_self,
      hfree, List.replicate_succ, set_cons_zero, List.append_assoc, singleton_append]
  · constructor
    · rw [length_append, length_singleton]
    · intro id hid
      exact (mem_append.mp hid).elim h.ne fun hlast => mem_singleton.mp hlast ▸ hne
    · rw [length_append, length_singleton]
      exact hlt

/-- A full queue drops an event, if the search ends with the queue. -/
theorem Waits.full (h : Waits queue waiting) (hfull : waiting.length = 4) :
    addToQueue pEvent 4 0 queue = some (queue, .dropped pEvent) := by
  have hpass := addToQueue_append pEvent (fun id hid => h.ne hid) []
    (List.replicate (4 - waiting.length) (0 : MessageId)) 0
  rw [nil_append, length_nil, Nat.zero_add, hfull, Nat.add_zero] at hpass
  have heq := h.eq
  rw [hfull] at heq
  rw [heq, hpass, addToQueue]

/-- The shift of a queue of four elements takes its head away. -/
theorem Waits.shift (h : Waits queue (id :: waiting)) :
    ∃ queue', shuffle 3 1 queue = some queue' ∧ queue'.length = 4 ∧ Waits (queue'.set 3 0) waiting := by
  have hlength := h.length
  have hle : waiting.length ≤ 3 := Nat.le_of_succ_le_succ h.le
  match queue, hlength with
  | [a, b, c, d], _ =>
    refine ⟨[b, c, d, d], rfl, rfl, ?_, fun hid => h.ne (mem_cons_of_mem _ hid), Nat.le_succ_of_le hle⟩
    have hrest : [b, c, d] = waiting ++ List.replicate (3 - waiting.length) 0 := by
      have heq := h.eq
      rw [length_cons, List.cons_append, Nat.add_comm, Nat.sub_add_eq] at heq
      exact (List.cons.inj heq).2
    have hone : 4 - waiting.length = 3 - waiting.length + 1 := by omega
    change [b, c, d] ++ [0] = _
    rw [hrest, hone, List.replicate_succ', List.append_assoc]

end

/-! ### One step -/

/-- **The invariant**: the queue holds what the log leaves waiting. -/
structure Kept (task : LedTask) : Prop where
  waits : Waits task.queue task.waiting
  shown : Shown task

section

variable {elementSize : ℕ} {task : LedTask}

theorem kept_of_waits {task' : LedTask} {waiting : List MessageId} (hwaits : Waits task'.queue waiting)
    (haccepts : fifo.Accepts ([], none) task'.log) (hafter : fifo.after ([], none) task'.log = (waiting, none)) : Kept task' := by
  have hsame : task'.waiting = waiting := hwaits.takeWhile
  exact ⟨hsame ▸ hwaits, haccepts, hsame ▸ hafter⟩

theorem Kept.congr {task' : LedTask} (h : Kept task) (hqueue : task'.queue = task.queue) (hlog : task'.log = task.log) :
    Kept task' := by
  refine kept_of_waits (hqueue ▸ h.waits) (hlog ▸ h.shown.accepts) (hlog ▸ h.shown.after)

/-- A log with one entry more. -/
theorem Kept.concat (h : Kept task) (entry : Entry) (hfits : fifo.Fits (task.waiting, none) entry) :
    fifo.Accepts ([], none) (task.log ++ [entry]) ∧
      fifo.after ([], none) (task.log ++ [entry]) = fifo.next (task.waiting, none) entry := by
  rw [Monitor.accepts_concat, Monitor.after_concat, h.shown.after]
  exact ⟨⟨h.shown.accepts, hfits⟩, rfl⟩

theorem Kept.indicate (h : Kept task) (hsize : 0 < elementSize) (hscope : InScope task (.indicate id))
    (hallowed : Allowed elementSize task (.indicate id)) :
    ∃ task', ledManagerIndicateEvent elementSize task id = some task' ∧ Kept task' := by
  rw [ledManagerIndicateEvent]
  cases hfind : task.eventPatterns.find? fun pattern => pattern.stateOrEvent = id with
  | none => exact ⟨task, rfl, h⟩
  | some pattern =>
    dsimp only
    by_cases hplays : ledManagerCanPlayPattern task pattern = true
    · rw [if_pos hplays]
      cases hbusy : task.currentlyIndicatingEvent with
      | false =>
        obtain ⟨haccepts, hafter⟩ := h.concat (.shown id) (.inl rfl)
        exact ⟨_, rfl, kept_of_waits h.waits haccepts hafter⟩
      | true =>
        rw [Bool.not_true, if_neg Bool.false_ne_true, if_pos hscope.1]
        rcases Nat.lt_or_eq_of_le h.waits.le with hlt | hfull
        · obtain ⟨queue, hadd, hwaits⟩ := h.waits.add hlt hscope.2 (show 4 ≤ sizeofQueue elementSize by unfold sizeofQueue; omega)
          obtain ⟨haccepts, hafter⟩ := h.concat (.queued id) ⟨rfl, hlt⟩
          rw [hadd, map_some]
          exact ⟨_, rfl, kept_of_waits hwaits haccepts hafter⟩
        · -- Only a search of four elements ends in a full queue.
          obtain rfl : elementSize = 1 := by
            refine hallowed.resolve_right ?_
            rintro (hfree | hlt)
            · exact Bool.false_ne_true (hfree.symm.trans hbusy)
            · omega
          obtain ⟨haccepts, hafter⟩ := h.concat (.dropped id) ⟨rfl, hfull⟩
          rw [sizeofQueue, h.waits.full hfull, map_some]
          exact ⟨_, rfl, kept_of_waits h.waits haccepts hafter⟩
    · rw [if_neg hplays]
      exact ⟨task, rfl, h⟩

/-- The head of the queue is shown, and the others move up. -/
theorem Kept.indicateQueued (h : Kept task) {waiting : List MessageId} (hwaiting : task.waiting = id :: waiting)
    (hfree : task.currentlyIndicatingEvent = false) (hplays : Plays task id) :
    ∃ task', ledManagerIndicateQueuedEvent 1 task = some task' ∧ Kept task' := by
  obtain ⟨pattern, hfind, hcan⟩ := hplays
  have hwaits := h.waits
  rw [hwaiting] at hwaits
  have hhead : task.queue[0]? = some id := by rw [hwaits.head, List.head?_cons, getD_some]
  obtain ⟨queue', hshuffle, hlength, hwaits'⟩ := hwaits.shift
  have hshows : ledManagerIndicateEvent 1 { task with log := task.log ++ [.next id] } id =
      some (ledsIndicateLedsPattern { task with log := task.log ++ [.next id] } pattern id) := by
    rw [ledManagerIndicateEvent]
    dsimp only
    rw [hfind]
    dsimp only
    rw [if_pos (show ledManagerCanPlayPattern { task with log := task.log ++ [.next id] } pattern = true from hcan), hfree]
    rfl
  obtain ⟨haccepts, hafter⟩ := h.concat (.next id) ⟨rfl, by rw [hwaiting, List.head?_cons]⟩
  have hlast : fifo.Accepts ([], none) (task.log ++ [.next id] ++ [.shown id]) ∧
      fifo.after ([], none) (task.log ++ [.next id] ++ [.shown id]) = (waiting, none) := by
    rw [hwaiting] at hafter
    have hlog := Monitor.after_concat fifo ([], none) (task.log ++ [.next id]) (.shown id)
    refine ⟨Monitor.accepts_concat.mpr ⟨haccepts, ?_⟩, ?_⟩
    · rw [hafter]
      exact .inr rfl
    · rw [hlog, hafter]
      rfl
  refine ⟨{ ledsIndicateLedsPattern { task with log := task.log ++ [.next id] } pattern id with
    queue := queue'.set 3 0 }, ?_, kept_of_waits hwaits' hlast.1 hlast.2⟩
  rw [ledManagerIndicateQueuedEvent, hhead, bind_some, hshows, bind_some, ledsIndicateLedsPattern]
  dsimp only
  rw [sizeofQueue, hshuffle, bind_some, hlength]
  rfl

theorem Kept.step (h : Kept task) (hsize : 0 < elementSize) {e : Event} (hscope : InScope task e)
    (hallowed : Allowed elementSize task e) : ∃ task', step elementSize task e = some task' ∧ Kept task' := by
  cases e with
  | indicate id => exact h.indicate hsize hscope hallowed
  | «over» => exact ⟨_, rfl, h.congr rfl rfl⟩
  | switch => exact ⟨_, rfl, h.congr rfl rfl⟩
  | complete =>
    rw [Leds.step]
    cases hfeature : task.queueLEDEvents with
    | false => exact ⟨task, rfl, h⟩
    | true =>
      rw [if_pos rfl, h.waits.head, bind_some]
      cases hwaiting : task.waiting with
      | nil => exact ⟨task, rfl, h⟩
      | cons id waiting =>
        obtain rfl : elementSize = 1 := hallowed.resolve_right (by rw [hwaiting]; exact cons_ne_nil id waiting)
        obtain ⟨hfree, hplays⟩ := hscope id (by rw [hwaiting, List.head?_cons])
        have hne : id ≠ 0 := h.waits.ne (by rw [hwaiting]; exact mem_cons_self)
        rw [List.head?_cons, getD_some, if_pos hne]
        exact h.indicateQueued hwaiting hfree hplays

theorem kept_init (eventPatterns : List LEDPattern) (queueLEDEvents : Bool) : Kept (ledManagerInit eventPatterns queueLEDEvents) :=
  kept_of_waits waits_nil trivial rfl

/-- In every run whose steps are allowed the events are shown in the order in which they were queued, and the next step that
is allowed stays in the queue. -/
theorem shown_kept {eventPatterns : List LEDPattern} {queueLEDEvents : Bool} {es : List Event} (hsize : 0 < elementSize)
    (hallowed : Lib.RunMeets (Leds.step elementSize) (fun task e => InScope task e ∧ Allowed elementSize task e)
      (ledManagerInit eventPatterns queueLEDEvents) es)
    (hrun : Lib.run (Leds.step elementSize) (ledManagerInit eventPatterns queueLEDEvents) es = some task) :
    Shown task ∧ ∀ e, InScope task e → Allowed elementSize task e → ∃ task', Leds.step elementSize task e = some task' := by
  have hkept : Kept task := by
    refine run_invariant (fun s e s' hs he hstep => ?_) (kept_init eventPatterns queueLEDEvents) hallowed hrun
    obtain ⟨next, hnext, hkept⟩ := hs.step hsize he.1 he.2
    exact some.inj (hnext.symm.trans hstep) ▸ hkept
  refine ⟨hkept.shown, fun e hscope he => ?_⟩
  obtain ⟨task', hstep, -⟩ := hkept.step hsize hscope he
  exact ⟨task', hstep⟩

/-- An event is shown, and a second one waits until the first one is over. -/
theorem shown_kept_waiting : ∃ task,
    Lib.run (Leds.step 1) (ledManagerInit [⟨0x4001, true, 1⟩] true)
      [.indicate 0x4001, .indicate 0x4001, .over, .complete] = some task ∧ Shown task ∧
      ∀ e, InScope task e → Allowed 1 task e → ∃ task', Leds.step 1 task e = some task' := by
  refine ⟨_, rfl, ?_⟩
  refine @shown_kept 1 _ [⟨0x4001, true, 1⟩] true [.indicate 0x4001, .indicate 0x4001, .over, .complete] Nat.one_pos ?_ rfl
  refine ⟨⟨⟨rfl, by decide⟩, .inl rfl⟩, fun s hs => ?_⟩
  obtain rfl := some.inj hs
  refine ⟨⟨⟨rfl, by decide⟩, .inl rfl⟩, fun s hs => ?_⟩
  obtain rfl := some.inj hs
  refine ⟨⟨trivial, trivial⟩, fun s hs => ?_⟩
  obtain rfl := some.inj hs
  refine ⟨⟨fun id hid => ?_, .inl rfl⟩, fun _ _ => trivial⟩
  obtain rfl : 0x4001 = id := some.inj hid
  exact ⟨rfl, _, rfl, rfl⟩

/-- The events are always shown as they were queued. -/
def AlwaysShown (elementSize : ℕ) : Prop :=
  ∀ (eventPatterns : List LEDPattern) (es : List Event) (task : LedTask),
    RunMeets (Leds.step elementSize) InScope (ledManagerInit eventPatterns true) es →
      Lib.run (Leds.step elementSize) (ledManagerInit eventPatterns true) es = some task →
        Shown task ∧ ∀ e, InScope task e → ∃ task', Leds.step elementSize task e = some task'

/-- With elements of four octets, the event that waits is shown, but the shift leaves the queue. -/
theorem not_alwaysShown : ¬ AlwaysShown 4 := by
  intro halways
  obtain ⟨-, hsafe⟩ := halways [⟨0x4001, true, 1⟩] [.indicate 0x4001, .indicate 0x4001, .over] _ ⟨⟨rfl, by decide⟩,
    fun s hs => ⟨by obtain rfl := some.inj hs; exact ⟨rfl, by decide⟩, fun _ _ => ⟨trivial, fun _ _ => trivial⟩⟩⟩ rfl
  obtain ⟨task', hstep⟩ := hsafe .complete fun id hid => by
    obtain rfl : 0x4001 = id := some.inj hid
    exact ⟨rfl, _, rfl, rfl⟩
  exact some_ne_none task' (hstep.symm.trans (by decide))

end

end Cbps.SinkApp.Leds
