import Cbps.Hfp.SendData
import Mathlib.Data.List.Induction

/-!
# The queue of AT commands

What `hfp_send_data.c` is for: a queue from which one command at a time goes out and waits for its
answer. `Queue.next` says which logs a queue has, and `implements_run` that the link has only
those, although it stores neither lengths nor boundaries of the commands that wait in the sink.
-/

namespace Cbps.Hfp

open List Option

/-! ### The queue -/

/-- Commands that wait, the one that has gone out and is not answered, and the volume setting. -/
structure Queue where
  waiting : List Command
  unanswered : Option Command
  setting : ℕ
  deriving DecidableEq

/-- A link that has just been connected. -/
def Queue.start : Queue := ⟨[], none, 0⟩

/-- What the AG is to receive of a command: the text, with the volume setting in `AT+VGS`. -/
def Command.wire (cmd : Command) (setting : ℕ) : List UInt8 :=
  if cmd.id = .hfpVgsCmdPending then
    "AT+VGS=".toList.map octet ++ gainDigits setting ++ [octet '\r']
  else cmd.text

/-- The id of the command that is not answered. -/
def Queue.pendingOctet (q : Queue) : UInt8 :=
  match q.unanswered with
  | some cmd => cmd.id.octet
  | none => HfpAtCmd.hfpNoCmdPending.octet

/-- What a queue does, if it does `obs` at all: the first command that waits goes out when no other
one is unanswered, and an answer belongs to the unanswered one. -/
def Queue.next (q : Queue) : Obs → Option Queue
  | .accepted cmd => some { q with waiting := q.waiting ++ [cmd] }
  | .requested _ => some q
  | .setting gain => some { q with setting := gain }
  | .flushed octets =>
    match q.unanswered, q.waiting with
    | none, cmd :: rest =>
      if octets = cmd.wire q.setting then some { q with waiting := rest, unanswered := some cmd }
      else none
    | _, _ => none
  | .handled _ id => if id = q.pendingOctet then some { q with unanswered := none } else none

/-- The queue after what the log says. -/
def replay (log : List Obs) : Option Queue := log.foldlM Queue.next Queue.start

theorem replay_append (log : List Obs) (obs : Obs) :
    replay (log ++ [obs]) = (replay log).bind fun q => q.next obs := by
  rw [replay, foldlM_append]
  cases h : log.foldlM Queue.next Queue.start with
  | none => rw [replay, h]; rfl
  | some q =>
    rw [replay, h]
    exact bind_pure (q.next obs)

/-- A packet goes out when no command is unanswered, and is the first one that waits. -/
theorem next_flushed {q q' : Queue} {octets : List UInt8} (h : q.next (.flushed octets) = some q') :
    q.unanswered = none ∧ ∃ cmd rest, q.waiting = cmd :: rest ∧ octets = cmd.wire q.setting ∧
      q' = { q with waiting := rest, unanswered := some cmd } := by
  obtain ⟨waiting, unanswered, setting⟩ := q
  cases unanswered with
  | some cmd => cases h
  | none =>
    cases waiting with
    | nil => cases h
    | cons cmd rest =>
      rw [Queue.next] at h
      dsimp only at h
      split at h
      · next hoctets => exact ⟨rfl, cmd, rest, rfl, hoctets, (some.inj h).symm⟩
      · cases h

theorem next_handled {q q' : Queue} {status : HfpLibStatus} {id : UInt8}
    (h : q.next (.handled status id) = some q') :
    id = q.pendingOctet ∧ q' = { q with unanswered := none } := by
  rw [Queue.next] at h
  split at h
  · next hid => exact ⟨hid, (some.inj h).symm⟩
  · cases h

/-! ### What a queue makes of its commands -/

def Obs.accepted? : Obs → Option Command
  | accepted cmd => some cmd
  | _ => none

def Obs.flushed? : Obs → Option (List UInt8)
  | flushed octets => some octets
  | _ => none

def Obs.answered? : Obs → Option UInt8
  | handled _ id => if id = HfpAtCmd.hfpNoCmdPending.octet then none else some id
  | _ => none

def Obs.isTimeout : Obs → Bool
  | handled .timeout _ => true
  | _ => false

/-- The commands that were accepted. -/
def acceptedOf (log : List Obs) : List Command := log.filterMap Obs.accepted?

/-- The packets that went out. -/
def flushedOf (log : List Obs) : List (List UInt8) := log.filterMap Obs.flushed?

/-- The answers to commands, by the id with which they were handled. -/
def answeredOf (log : List Obs) : List UInt8 := log.filterMap Obs.answered?

theorem acceptedOf_append (log : List Obs) (obs : Obs) :
    acceptedOf (log ++ [obs]) = acceptedOf log ++ obs.accepted?.toList := by
  rw [acceptedOf, filterMap_append, ← acceptedOf]
  cases obs <;> rfl

theorem flushedOf_append (log : List Obs) (obs : Obs) :
    flushedOf (log ++ [obs]) = flushedOf log ++ obs.flushed?.toList := by
  rw [flushedOf, filterMap_append, ← flushedOf]
  cases obs <;> rfl

theorem answeredOf_append (log : List Obs) (obs : Obs) :
    answeredOf (log ++ [obs]) = answeredOf log ++ obs.answered?.toList := by
  rw [answeredOf, filterMap_append, ← answeredOf, filterMap_cons]
  cases obs.answered? <;> rfl

/-- The ids of commands. -/
def idsOf (cmds : List Command) : List UInt8 := cmds.map fun cmd => cmd.id.octet

/-- The commands `done` have gone out: they are the first accepted ones, each went out with the
volume setting of that time, and they are answered in their order, except for the last one if it is
still to be answered. -/
structure InOrder (log : List Obs) (q : Queue) (done : List Command) (settings : List ℕ) : Prop where
  accepted : acceptedOf log = done ++ q.waiting
  length_eq : settings.length = done.length
  flushed : flushedOf log = List.zipWith Command.wire done settings
  answered : answeredOf log ++ idsOf q.unanswered.toList = idsOf done

theorem octet_ne {id : HfpAtCmd} (h : id ≠ .hfpNoCmdPending) :
    id.octet ≠ HfpAtCmd.hfpNoCmdPending.octet := by
  cases id <;> first | exact absurd rfl h | decide

theorem octet_vgs {id : HfpAtCmd} :
    id.octet = HfpAtCmd.hfpVgsCmdPending.octet ↔ id = .hfpVgsCmdPending := by
  cases id <;> decide

/-- An observation of no command leaves the order. -/
theorem InOrder.keep {log : List Obs} {q q' : Queue} {done : List Command} {settings : List ℕ}
    {obs : Obs} (h : InOrder log q done settings) (haccepted : obs.accepted? = none)
    (hflushed : obs.flushed? = none) (hanswered : obs.answered? = none)
    (hwaiting : q'.waiting = q.waiting) (hunanswered : q'.unanswered = q.unanswered) :
    InOrder (log ++ [obs]) q' done settings := by
  refine ⟨?_, h.length_eq, ?_, ?_⟩
  · rw [acceptedOf_append, haccepted, hwaiting, toList_none, append_nil, h.accepted]
  · rw [flushedOf_append, hflushed, toList_none, append_nil, h.flushed]
  · rw [answeredOf_append, hanswered, hunanswered, toList_none, append_nil, h.answered]

/-- A log that a queue can have is in order. -/
theorem inOrder_of_replay {log : List Obs} {q : Queue} (h : replay log = some q) :
    ∃ done settings, InOrder log q done settings := by
  induction log using List.reverseRecOn generalizing q with
  | nil =>
    obtain rfl : Queue.start = q := some.inj h
    exact ⟨[], [], rfl, rfl, rfl, rfl⟩
  | append_singleton log obs ih =>
    rw [replay_append] at h
    obtain ⟨p, hp, hnext⟩ := bind_eq_some_iff.mp h
    obtain ⟨done, settings, horder⟩ := ih hp
    cases obs with
    | accepted cmd =>
      obtain rfl := some.inj hnext
      refine ⟨done, settings, ?_, horder.length_eq, ?_, ?_⟩
      · rw [acceptedOf_append, horder.accepted, List.append_assoc]
        rfl
      · rw [flushedOf_append, horder.flushed]
        exact append_nil _
      · rw [answeredOf_append]
        exact (congrArg (· ++ _) (append_nil _)).trans horder.answered
    | requested gain | setting gain =>
      obtain rfl := some.inj hnext
      exact ⟨done, settings, horder.keep rfl rfl rfl rfl rfl⟩
    | flushed octets =>
      obtain ⟨hunanswered, cmd, rest, hwaiting, hoctets, rfl⟩ := next_flushed hnext
      refine ⟨done ++ [cmd], settings ++ [p.setting], ?_, ?_, ?_, ?_⟩
      · rw [acceptedOf_append, horder.accepted, hwaiting, List.append_assoc]
        simp [Obs.accepted?]
      · rw [length_append, length_append, horder.length_eq]
        rfl
      · rw [flushedOf_append, horder.flushed, zipWith_append horder.length_eq.symm, hoctets]
        rfl
      · have hanswered : answeredOf log = idsOf done := by
          simpa [hunanswered, idsOf] using horder.answered
        rw [answeredOf_append, hanswered]
        simp [Obs.answered?, idsOf]
    | handled status id =>
      obtain ⟨rfl, rfl⟩ := next_handled hnext
      refine ⟨done, settings, ?_, horder.length_eq, ?_, ?_⟩
      · rw [acceptedOf_append, horder.accepted]
        exact append_nil _
      · rw [flushedOf_append, horder.flushed]
        exact append_nil _
      · rw [answeredOf_append, ← horder.answered, Obs.answered?, Queue.pendingOctet]
        cases hcase : p.unanswered with
        | none => simp [idsOf]
        | some cmd => simp [idsOf, octet_ne cmd.id_ne]

/-! ### The sink -/

/-- What a command that waits looks like in the sink: its id stands in for the `T`. -/
def Command.stored (cmd : Command) : List UInt8 :=
  octet 'A' :: cmd.id.octet :: cmd.body ++ [octet '\r']

/-- The link keeps the queue `q`, but for a command that could go out. -/
structure Keeps (link : Link) (q : Queue) : Prop where
  claimed : link.sink.claimed = q.waiting.flatMap Command.stored
  pending : link.atCmdRespPending = q.pendingOctet
  setting : link.atVolSetting = q.setting
  setting_lt : link.atVolSetting < 16
  sent : link.sink.sent = flushedOf link.log
  replay : replay link.log = some q

/-- The link keeps a queue, and a command waits only for the answer to another one. -/
def Implements (link : Link) : Prop :=
  ∃ q, Keeps link q ∧ (q.unanswered = none → q.waiting = [])

theorem takeWhile_body {body : List UInt8} (h : octet '\r' ∉ body) (rest : List UInt8) :
    (body ++ octet '\r' :: rest).takeWhile (fun c => decide (c ≠ octet '\r')) = body := by
  rw [takeWhile_append_of_pos, takeWhile_cons_of_neg (by simp), append_nil]
  intro c hc
  exact decide_eq_true fun heq => h (heq ▸ hc)

/-- The digits of a gain are no carriage return. -/
theorem notMem_gainDigits {gain : ℕ} (h : gain < 16) : octet '\r' ∉ gainDigits gain := by
  revert gain
  decide

/-- `getBytesToFlush` finds the first command, restores its text and keeps its id. -/
theorem getBytesToFlush_stored (link : Link) (cmd : Command) (rest : List UInt8)
    (hsetting : link.atVolSetting < 16) :
    getBytesToFlush link (cmd.stored ++ rest) =
      ({ link with
          atCmdRespPending := cmd.id.octet
          atVolPending := if cmd.id = .hfpVgsCmdPending then false else link.atVolPending },
        cmd.wire link.atVolSetting ++ rest, (cmd.wire link.atVolSetting).length) := by
  have hdata : cmd.stored ++ rest =
      octet 'A' :: cmd.id.octet :: (cmd.body ++ octet '\r' :: rest) := by
    simp [Command.stored]
  have hfirst : ((octet 'A' :: cmd.id.octet :: (cmd.body ++ octet '\r' :: rest)).takeWhile
      fun c => !hfpMatchChar c (octet 'A')).length = 0 := by
    rw [takeWhile_cons_of_neg (by decide)]
    rfl
  have hid : (octet 'A' :: cmd.id.octet :: (cmd.body ++ octet '\r' :: rest)).getD (0 + 1) 0 =
      cmd.id.octet := rfl
  have hrestore : Lib.writeAt (octet 'A' :: cmd.id.octet :: (cmd.body ++ octet '\r' :: rest)) (0 + 1)
      [octet 'T'] = octet 'A' :: octet 'T' :: (cmd.body ++ octet '\r' :: rest) := rfl
  rw [hdata, getBytesToFlush, if_neg (cons_ne_nil _ _)]
  simp only [hfirst]
  rw [if_neg (by simp), hid, hrestore]
  by_cases hvgs : cmd.id = .hfpVgsCmdPending
  · have hbody : cmd.body = [43, 86, 71, 83, 61, 48, 48] := (cmd.body_vgs hvgs).trans (by decide)
    have hwire : cmd.wire link.atVolSetting ++ rest =
        octet 'A' :: octet 'T' :: ([43, 86, 71, 83, 61] ++ gainDigits link.atVolSetting ++
          octet '\r' :: rest) := by
      rw [Command.wire, if_pos hvgs]
      simp [octet]
    have hinsert : Lib.writeAt (octet 'A' :: octet 'T' :: (cmd.body ++ octet '\r' :: rest))
        (0 + 2 + 5) (gainDigits link.atVolSetting) = cmd.wire link.atVolSetting ++ rest := by
      rw [hbody, hwire]
      rfl
    have hnotMem : octet '\r' ∉ [43, 86, 71, 83, 61] ++ gainDigits link.atVolSetting := by
      rw [mem_append, not_or]
      exact ⟨by decide, notMem_gainDigits hsetting⟩
    have hlen : (cmd.wire link.atVolSetting).length = 10 := by
      rw [Command.wire, if_pos hvgs]
      rfl
    simp only [if_true, hvgs, hinsert]
    rw [hwire, drop_succ_cons, drop_succ_cons, drop_zero, takeWhile_body hnotMem, hlen]
    rfl
  · have hwire : cmd.wire link.atVolSetting ++ rest =
        octet 'A' :: octet 'T' :: (cmd.body ++ octet '\r' :: rest) := by
      rw [Command.wire, if_neg hvgs]
      simp [Command.text]
    have hlen : (cmd.wire link.atVolSetting).length = 0 + 2 + cmd.body.length + 1 := by
      rw [Command.wire, if_neg hvgs]
      simp [Command.text]
      omega
    simp only [mt octet_vgs.mp hvgs, if_false, hvgs]
    rw [drop_succ_cons, drop_succ_cons, drop_zero, takeWhile_body cmd.notMem_body, hlen,
      hwire]

/-! ### The operations -/

variable {link : Link} {q : Queue}

theorem Command.wire_ne_nil (cmd : Command) (setting : ℕ) : cmd.wire setting ≠ [] := by
  rw [wire]
  split
  · exact cons_ne_nil _ _
  · exact cons_ne_nil _ _

variable {cmd : Command}

/-- A command is blocked while another one is unanswered. -/
theorem hfpSendNextAtCmd_blocked (h : Keeps link q)
    (hunanswered : q.unanswered = some cmd) : hfpSendNextAtCmd link = link := by
  refine if_neg ?_
  rw [h.pending, Queue.pendingOctet, hunanswered]
  exact octet_ne cmd.id_ne

theorem hfpSendNextAtCmd_nil (hpending : link.atCmdRespPending = HfpAtCmd.hfpNoCmdPending.octet)
    (hclaimed : link.sink.claimed = []) : hfpSendNextAtCmd link = link := by
  obtain ⟨⟨sent, claimed⟩, pending, volPending, volSetting, timeout, isHfp, control, slc, log⟩ := link
  obtain rfl : pending = HfpAtCmd.hfpNoCmdPending.octet := hpending
  obtain rfl : claimed = [] := hclaimed
  rfl

/-- The link after the command `cmd` has gone out in front of `rest`. -/
def Link.flushed (link : Link) (cmd : Command) (rest : List UInt8) : Link :=
  { link with
    sink := ⟨link.sink.sent ++ [cmd.wire link.atVolSetting], rest⟩
    atCmdRespPending := cmd.id.octet
    atVolPending := if cmd.id = .hfpVgsCmdPending then false else link.atVolPending
    responseTimeout := some (responseTimeoutOf cmd.id.octet)
    log := link.log ++ [.flushed (cmd.wire link.atVolSetting)] }

theorem hfpSendNextAtCmd_stored {rest : List UInt8}
    (hpending : link.atCmdRespPending = HfpAtCmd.hfpNoCmdPending.octet)
    (hclaimed : link.sink.claimed = cmd.stored ++ rest) (hsetting : link.atVolSetting < 16) :
    hfpSendNextAtCmd link = link.flushed cmd rest := by
  have hpos := length_pos_iff.mpr (cmd.wire_ne_nil link.atVolSetting)
  have hbytes : ¬ ((cmd.wire link.atVolSetting).length = 0 ∨
      (cmd.wire link.atVolSetting ++ rest).length < (cmd.wire link.atVolSetting).length) := by
    rw [length_append]
    omega
  rw [hfpSendNextAtCmd, if_pos hpending, hclaimed, getBytesToFlush_stored link cmd rest hsetting]
  simp only [Link.flush, if_neg hbytes, Link.note, List.take_left]
  rw [if_pos (octet_ne cmd.id_ne), Lib.Sink.flush_append rfl]
  rfl

/-- The first command has gone out and waits for its answer. -/
theorem keeps_flushed {rest : List Command} {setting : ℕ}
    (h : Keeps link ⟨cmd :: rest, none, setting⟩) :
    Keeps (link.flushed cmd (rest.flatMap Command.stored)) ⟨rest, some cmd, setting⟩ := by
  refine ⟨rfl, rfl, h.setting, h.setting_lt, ?_, ?_⟩
  · rw [Link.flushed, flushedOf_append, ← h.sent]
    rfl
  · rw [Link.flushed, replay_append, h.replay, h.setting]
    exact if_pos rfl

/-- `hfpSendNextAtCmd` sends the first command that waits, if none is unanswered. -/
theorem implements_sendNext (h : Keeps link q) : Implements (hfpSendNextAtCmd link) := by
  obtain ⟨waiting, unanswered, setting⟩ := q
  cases unanswered with
  | some cmd =>
    rw [hfpSendNextAtCmd_blocked h rfl]
    exact ⟨_, h, fun hnone => by cases hnone⟩
  | none =>
    cases waiting with
    | nil =>
      rw [hfpSendNextAtCmd_nil h.pending h.claimed]
      exact ⟨_, h, fun _ => rfl⟩
    | cons cmd rest =>
      rw [hfpSendNextAtCmd_stored h.pending h.claimed h.setting_lt]
      exact ⟨⟨rest, some cmd, setting⟩, keeps_flushed h, fun hnone => by cases hnone⟩

/-- A command that is accepted waits at the end of the queue. -/
theorem keeps_accepted (h : Keeps link q) (cmd : Command) :
    Keeps ({ link with
        sink := ((link.sink.claim 0 cmd.text.length).store link.sink.claimed.length cmd.text).store
          (link.sink.claimed.length + 1) [cmd.id.octet] }.note (.accepted cmd))
      { q with waiting := q.waiting ++ [cmd] } := by
  rw [Lib.Sink.store_claim]
  refine ⟨?_, h.pending, h.setting, h.setting_lt, ?_, ?_⟩
  · have hstore := Lib.writeAt_append_right link.sink.claimed cmd.text 1 [cmd.id.octet]
    rw [flatMap_append, ← h.claimed]
    refine hstore.trans ?_
    simp [Command.text, Command.stored, Lib.writeAt]
  · rw [Link.note, flushedOf_append]
    exact h.sent.trans (append_nil _).symm
  · rw [Link.note, replay_append, h.replay]
    rfl

theorem implements_send (h : Implements link) (slack : ℕ) (cmd : Command) :
    Implements (hfpSendAtCmd link slack cmd) := by
  obtain ⟨q, hkeeps, hmoving⟩ := h
  rw [hfpSendAtCmd]
  split
  · exact implements_sendNext (keeps_accepted hkeeps cmd)
  · exact ⟨q, hkeeps, hmoving⟩

/-- The handler of an acknowledgement adds commands to the queue, and none of them goes out. -/
theorem keeps_sends (h : Keeps link q) (hunanswered : q.unanswered = some cmd)
    (sends : List (Command × ℕ)) :
    ∃ q', Keeps (sendAll link sends) q' ∧ q'.unanswered = some cmd := by
  induction sends generalizing link q with
  | nil => exact ⟨q, h, hunanswered⟩
  | cons send sends ih =>
    obtain ⟨next, slack⟩ := send
    rw [sendAll, foldl_cons, ← sendAll, hfpSendAtCmd]
    split
    · have haccepted := keeps_accepted h next
      rw [hfpSendNextAtCmd_blocked haccepted hunanswered]
      exact ih haccepted hunanswered
    · exact ih h hunanswered

theorem keeps_setVolume (h : Keeps link q) (gain : ℕ) :
    Keeps (link.setVolume gain) { q with setting := gain % 16 } := by
  refine ⟨h.claimed, h.pending, rfl, Nat.mod_lt _ (by decide), ?_, ?_⟩
  · rw [Link.setVolume, Link.note, flushedOf_append]
    exact h.sent.trans (append_nil _).symm
  · rw [Link.setVolume, Link.note, replay_append, h.replay]
    rfl

/-- The response timeout is cancelled. -/
theorem keeps_responseTimeout (h : Keeps link q) (t : Option ℕ) :
    Keeps { link with responseTimeout := t } q :=
  ⟨h.claimed, h.pending, h.setting, h.setting_lt, h.sent, h.replay⟩

/-- The flag is reset with the id of the command that was answered. -/
theorem keeps_handled (h : Keeps link q) (status : HfpLibStatus) {id : UInt8}
    (hid : id = q.pendingOctet) :
    Keeps ({ link with atCmdRespPending := HfpAtCmd.hfpNoCmdPending.octet }.note (.handled status id))
      { q with unanswered := none } := by
  refine ⟨h.claimed, rfl, h.setting, h.setting_lt, ?_, ?_⟩
  · rw [Link.note, flushedOf_append]
    exact h.sent.trans (append_nil _).symm
  · rw [Link.note, replay_append, h.replay]
    exact if_pos hid

/-- An answer is handled with the id of the unanswered command, and the next command goes out. -/
theorem implements_ack (h : Implements link) (status : HfpLibStatus)
    (sends : List (Command × ℕ)) : Implements (atCmdAckReceived link status sends) := by
  obtain ⟨q, hkeeps, hmoving⟩ := h
  have hcancel := keeps_responseTimeout hkeeps none
  rw [atCmdAckReceived]
  dsimp only
  cases hunanswered : q.unanswered with
  | none =>
    have hpending : link.atCmdRespPending = HfpAtCmd.hfpNoCmdPending.octet := by
      rw [hkeeps.pending, Queue.pendingOctet, hunanswered]
    rw [if_pos hpending]
    exact implements_sendNext (keeps_handled hcancel status hkeeps.pending)
  | some cmd =>
    have hpending : link.atCmdRespPending ≠ HfpAtCmd.hfpNoCmdPending.octet := by
      rw [hkeeps.pending, Queue.pendingOctet, hunanswered]
      exact octet_ne cmd.id_ne
    -- the commands of the handler wait behind the others
    obtain ⟨q', hkeeps', hsame⟩ := keeps_sends hcancel hunanswered sends
    rw [if_neg hpending]
    refine implements_sendNext (keeps_handled hkeeps' status ?_)
    rw [hkeeps.pending, Queue.pendingOctet, Queue.pendingOctet, hsame, hunanswered]

theorem keeps_requested (h : Keeps link q) (gain : ℕ) : Keeps (link.note (.requested gain)) q := by
  refine ⟨h.claimed, h.pending, h.setting, h.setting_lt, ?_, ?_⟩
  · rw [Link.note, flushedOf_append]
    exact h.sent.trans (append_nil _).symm
  · rw [Link.note, replay_append, h.replay]
    rfl

theorem implements_requested (h : Implements link) (gain : ℕ) :
    Implements (link.note (.requested gain)) := by
  obtain ⟨q, hkeeps, hmoving⟩ := h
  exact ⟨q, keeps_requested hkeeps gain, hmoving⟩

theorem implements_setVolume (h : Implements link) (gain : ℕ) : Implements (link.setVolume gain) := by
  obtain ⟨q, hkeeps, hmoving⟩ := h
  exact ⟨_, keeps_setVolume hkeeps gain, hmoving⟩

theorem keeps_volPending (h : Keeps link q) (b : Bool) : Keeps { link with atVolPending := b } q :=
  ⟨h.claimed, h.pending, h.setting, h.setting_lt, h.sent, h.replay⟩

theorem implements_volPending (h : Implements link) (b : Bool) :
    Implements { link with atVolPending := b } := by
  obtain ⟨q, hkeeps, hmoving⟩ := h
  exact ⟨q, keeps_volPending hkeeps b, hmoving⟩

/-- Every event keeps the queue. -/
theorem implements_step {link' : Link} {e : Event} (h : Implements link)
    (hstep : step link e = some link') : Implements link' := by
  cases e with try obtain rfl := some.inj hstep
  | send cmd slack => exact implements_send h slack cmd
  | vgsRequest gain slack =>
    rw [hfpHandleVgsRequest]
    have hrequested := implements_requested h gain.toNat
    dsimp only
    split
    · have hset := implements_setVolume hrequested (limitGain gain.toNat)
      split
      · exact implements_send (implements_volPending hset true) slack vgs
      · exact hset
    · exact hrequested
  | speakerGain gain =>
    rw [hfpHandleSpeakerGain]
    split
    · exact implements_setVolume h gain
    · exact h
  | ok sends => exact implements_ack h .success sends
  | error sends => exact implements_ack h .fail sends
  | extendedError err sends =>
    rw [hfpHandleExtendedError]
    split
    · exact implements_ack h (convertErrorCode err) sends
    · exact h
  | timeout sends => exact implements_ack h .timeout sends

theorem implements_start (isHfp remoteVolControl slcComplete : Bool) :
    Implements (Link.start isHfp remoteVolControl slcComplete) :=
  ⟨Queue.start, ⟨rfl, rfl, rfl, Nat.succ_pos 15, rfl, rfl⟩, fun _ => rfl⟩

theorem implements_run {isHfp remoteVolControl slcComplete : Bool} {events : List Event}
    (hrun : Lib.run step (Link.start isHfp remoteVolControl slcComplete) events = some link) :
    Implements link :=
  Lib.run_keeps (fun _ _ _ => implements_step) (implements_start _ _ _) hrun

/-- **The queue of AT commands.** The accepted commands go out in their order, each whole, one at
a time: the next one follows the answer to the one before, or the response timeout in its place.
An answer is handled with the id of the command that is still without one. -/
theorem commands_in_order {isHfp remoteVolControl slcComplete : Bool} {events : List Event}
    (hrun : Lib.run step (Link.start isHfp remoteVolControl slcComplete) events = some link) :
    ∃ q, replay link.log = some q ∧ link.sink.sent = flushedOf link.log ∧
      link.sink.claimed = q.waiting.flatMap Command.stored ∧
      (q.unanswered = none → q.waiting = []) ∧
      ∃ done settings, InOrder link.log q done settings := by
  obtain ⟨q, hkeeps, hmoving⟩ := implements_run hrun
  exact ⟨q, hkeeps.replay, hkeeps.sent, hkeeps.claimed, hmoving, inOrder_of_replay hkeeps.replay⟩

/-- `AT+NREC=0` and `AT+CMEE=1`, the second one while the first one is unanswered. -/
def twoCommands : List Event :=
  [.send ⟨.hfpNrecCmdPending, "+NREC=0".toList.map octet, HfpAtCmd.noConfusion, by decide,
      HfpAtCmd.noConfusion⟩ 100,
    .send ⟨.hfpCmeeCmdPending, "+CMEE=1".toList.map octet, HfpAtCmd.noConfusion, by decide,
      HfpAtCmd.noConfusion⟩ 90]

/-- The link after `twoCommands` and another event. -/
def afterTwoCommands (e : Event) : Link :=
  ((Lib.run step (Link.start true true true) (twoCommands ++ [e])).getD (Link.start true true true))

theorem commands_in_order_twoCommands :
    ∃ q, replay (afterTwoCommands (.ok [])).log = some q ∧
      (afterTwoCommands (.ok [])).sink.sent = flushedOf (afterTwoCommands (.ok [])).log ∧
      (afterTwoCommands (.ok [])).sink.claimed = q.waiting.flatMap Command.stored ∧
      (q.unanswered = none → q.waiting = []) ∧
      ∃ done settings, InOrder (afterTwoCommands (.ok [])).log q done settings :=
  commands_in_order (show Lib.run step (Link.start true true true) (twoCommands ++ [.ok []]) =
    some (afterTwoCommands (.ok [])) from rfl)

/-- The answers that the AG has given to commands. -/
def acknowledgedOf (log : List Obs) : List Obs :=
  log.filter fun obs => (obs.answered?.isSome : Bool) && !obs.isTimeout

/-- The response timeout lets the next command go out, so two commands can be without an answer of
the AG. -/
theorem not_one_unacknowledged :
    ¬ ∀ events link, Lib.run step (Link.start true true true) events = some link →
      (flushedOf link.log).length ≤ (acknowledgedOf link.log).length + 1 := by
  intro hall
  have hrun := hall (twoCommands ++ [.timeout []]) (afterTwoCommands (.timeout [])) rfl
  exact absurd hrun (by decide)

end Cbps.Hfp
