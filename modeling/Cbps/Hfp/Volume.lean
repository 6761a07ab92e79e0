import Cbps.Hfp.Queue

/-!
# Volume reports to the AG

`hfpHandleVgsRequest` puts one `AT+VGS` into the queue and sets `at_vol_pending`, so that the
requests that follow only change the setting until the command goes out. The flag is set before
`hfpSendAtCmd` finds out whether there is room for the command: without room the flag stays set and
no later request is sent.
-/

namespace Cbps.Hfp

open List Option

/-- The gain of a packet that is an `AT+VGS` command. -/
def gainOf? (octets : List UInt8) : Option ℕ :=
  if octets.take 7 = "AT+VGS=".toList.map octet then
    some (((octets.getD 7 0).toNat - 48) * 10 + ((octets.getD 8 0).toNat - 48))
  else none

def Obs.requested? : Obs → Option ℕ
  | requested gain => some gain
  | _ => none

/-- The gain that was requested last. -/
def lastRequested (log : List Obs) : Option ℕ := (log.filterMap Obs.requested?).getLast?

/-- The gain that the AG was told last. -/
def lastSent (log : List Obs) : Option ℕ := ((flushedOf log).filterMap gainOf?).getLast?

/-- Volume reports are not lost: the flag is set while an `AT+VGS` waits, and an AG that has been
told everything knows the last gain that was requested. -/
structure Reported (link : Link) (q : Queue) : Prop where
  replay : replay link.log = some q
  pending : link.atVolPending = true ↔ ∃ cmd ∈ q.waiting, cmd.id = .hfpVgsCmdPending
  sent : q.waiting = [] → q.unanswered = none →
    lastSent link.log = (lastRequested link.log).map limitGain

/-- A command that is not about the speaker gain. -/
def Command.IsOther (cmd : Command) : Prop :=
  cmd.id ≠ .hfpVgsCmdPending ∧ gainOf? cmd.text = none

/-- Requests for a gain, other commands, their answers and timeouts. -/
def Event.IsRequest : Event → Prop
  | .send cmd _ => cmd.IsOther
  | .vgsRequest _ _ => True
  | .speakerGain _ => False
  | .ok sends | .error sends | .extendedError _ sends | .timeout sends =>
    ∀ send ∈ sends, send.1.IsOther

/-- A request for another gain than the setting finds room for the command, unless one waits
already, and a request for the gain of the setting is not the first request on the link. -/
def Report (link : Link) : Event → Prop
  | .vgsRequest gain slack =>
    if link.atVolSetting = gain.toNat then lastRequested link.log ≠ none
    else link.atVolPending = true ∨ vgs.text.length ≤ slack
  | _ => True

/-! ### What the log says about gains -/

theorem lastRequested_append (log : List Obs) (obs : Obs) :
    lastRequested (log ++ [obs]) = obs.requested?.or (lastRequested log) := by
  rw [lastRequested, filterMap_append, List.getLast?_append, lastRequested]
  cases obs <;> rfl

theorem lastSent_append (log : List Obs) (obs : Obs) :
    lastSent (log ++ [obs]) = (obs.flushed?.bind gainOf?).or (lastSent log) := by
  rw [lastSent, flushedOf_append, filterMap_append, List.getLast?_append, lastSent]
  cases obs with
  | flushed octets =>
    rw [Obs.flushed?, toList_some, filterMap_cons, bind_some]
    cases gainOf? octets <;> rfl
  | _ => rfl

variable {cmd : Command}

theorem gainOf?_vgs (hid : cmd.id = .hfpVgsCmdPending) {setting : ℕ}
    (h : setting < 16) : gainOf? (cmd.wire setting) = some setting := by
  rw [Command.wire, if_pos hid]
  revert setting
  decide

theorem gainOf?_other (h : cmd.IsOther) (setting : ℕ) :
    gainOf? (cmd.wire setting) = none := by
  rw [Command.wire, if_neg h.1]
  exact h.2

theorem limitGain_le (gain : ℕ) : limitGain gain < 16 := by
  rw [limitGain, hfpMaxGain]
  split <;> omega

/-! ### The flag and the queue -/

theorem toNat_pos {b : Bool} : 0 < b.toNat ↔ b = true := by
  cases b <;> simp

def Command.isVgs (cmd : Command) : Bool := cmd.id = .hfpVgsCmdPending

theorem Command.IsOther.isVgs (h : cmd.IsOther) : cmd.isVgs = false :=
  decide_eq_false h.1

/-- The invariant: a flag that is set stands for one `AT+VGS` in the queue, and without one the AG
knows the setting. -/
structure Tracks (link : Link) (q : Queue) : Prop where
  keeps : Keeps link q
  known : ∀ cmd ∈ q.waiting, cmd.isVgs ∨ cmd.IsOther
  count : q.waiting.countP Command.isVgs = link.atVolPending.toNat
  setting : link.atVolSetting = ((lastRequested link.log).map limitGain).getD 0
  sent : link.atVolPending = false → lastSent link.log = (lastRequested link.log).map limitGain
  requested : link.atVolPending = true → lastRequested link.log ≠ none

variable {link : Link} {q : Queue}

theorem Tracks.reported (h : Tracks link q) : Reported link q := by
  refine ⟨h.keeps.replay, ?_, ?_⟩
  · rw [← toNat_pos, ← h.count, countP_pos_iff]
    simp only [Command.isVgs, decide_eq_true_eq]
  · intro hwaiting _
    refine h.sent ?_
    have hcount := h.count
    rw [hwaiting, countP_nil] at hcount
    exact Bool.toNat_eq_zero.mp hcount.symm

/-- When the first command goes out, the flag is reset if it is `AT+VGS`. -/
theorem tracks_flushed {rest : List Command} {setting : ℕ}
    (h : Tracks link ⟨cmd :: rest, none, setting⟩) :
    Tracks (link.flushed cmd (rest.flatMap Command.stored)) ⟨rest, some cmd, setting⟩ := by
  have hcount := h.count
  dsimp only at hcount
  have hrequested : lastRequested (link.flushed cmd (rest.flatMap Command.stored)).log =
      lastRequested link.log := by
    rw [Link.flushed, lastRequested_append]
    rfl
  have hsent : lastSent (link.flushed cmd (rest.flatMap Command.stored)).log =
      (gainOf? (cmd.wire link.atVolSetting)).or (lastSent link.log) := by
    rw [Link.flushed, lastSent_append]
    rfl
  have hknown : ∀ other ∈ rest, other.isVgs ∨ other.IsOther :=
    fun other hother => h.known other (mem_cons_of_mem _ hother)
  obtain hvgs | hother := h.known cmd mem_cons_self
  · -- the flag is reset, and the AG has been told the setting
    have hid : cmd.id = .hfpVgsCmdPending := of_decide_eq_true hvgs
    have hpending : (link.flushed cmd (rest.flatMap Command.stored)).atVolPending = false :=
      if_pos hid
    rw [countP_cons_of_pos hvgs] at hcount
    have hset : link.atVolPending = true := toNat_pos.mp (hcount ▸ Nat.succ_pos _)
    refine ⟨keeps_flushed h.keeps, hknown, ?_, ?_, ?_, ?_⟩
    · rw [hpending]
      rw [hset] at hcount
      exact Nat.succ.inj hcount
    · rw [hrequested]
      exact h.setting
    · intro _
      obtain ⟨gain, hgain⟩ := ne_none_iff_exists'.mp (h.requested hset)
      rw [hsent, hrequested, gainOf?_vgs hid h.keeps.setting_lt, h.setting, hgain]
      rfl
    · intro hcontra
      rw [hpending] at hcontra
      cases hcontra
  · have hpending : (link.flushed cmd (rest.flatMap Command.stored)).atVolPending =
        link.atVolPending := if_neg hother.1
    rw [gainOf?_other hother, none_or] at hsent
    refine ⟨keeps_flushed h.keeps, hknown, ?_, ?_, ?_, ?_⟩
    · rw [hpending]
      rwa [countP_cons_of_neg (by rw [hother.isVgs]; exact Bool.false_ne_true)] at hcount
    · rw [hrequested]
      exact h.setting
    · rw [hpending, hsent, hrequested]
      exact h.sent
    · rw [hpending, hrequested]
      exact h.requested

theorem tracks_sendNext (h : Tracks link q) : ∃ q', Tracks (hfpSendNextAtCmd link) q' := by
  obtain ⟨waiting, unanswered, setting⟩ := q
  cases unanswered with
  | some cmd =>
    rw [hfpSendNextAtCmd_blocked h.keeps rfl]
    exact ⟨_, h⟩
  | none =>
    cases waiting with
    | nil =>
      rw [hfpSendNextAtCmd_nil h.keeps.pending h.keeps.claimed]
      exact ⟨_, h⟩
    | cons cmd rest =>
      rw [hfpSendNextAtCmd_stored h.keeps.pending h.keeps.claimed h.keeps.setting_lt]
      exact ⟨_, tracks_flushed h⟩

/-- Another command is accepted. -/
theorem tracks_accepted (h : Tracks link q) (hother : cmd.IsOther) :
    Tracks ({ link with
        sink := ((link.sink.claim 0 cmd.text.length).store link.sink.claimed.length cmd.text).store
          (link.sink.claimed.length + 1) [cmd.id.octet] }.note (.accepted cmd))
      { q with waiting := q.waiting ++ [cmd] } := by
  refine ⟨keeps_accepted h.keeps cmd, ?_, ?_, ?_, ?_, ?_⟩
  · intro next hnext
    obtain hnext | hnext := mem_append.mp hnext
    · exact h.known next hnext
    · rw [mem_singleton.mp hnext]
      exact .inr hother
  · rw [countP_append, countP_singleton, hother.isVgs]
    exact h.count
  · rw [Link.note, lastRequested_append]
    exact h.setting
  · rw [Link.note, lastRequested_append, lastSent_append]
    exact h.sent
  · rw [Link.note, lastRequested_append]
    exact h.requested

theorem tracks_send (h : Tracks link q) (slack : ℕ) (hother : cmd.IsOther) :
    ∃ q', Tracks (hfpSendAtCmd link slack cmd) q' := by
  rw [hfpSendAtCmd]
  split
  · exact tracks_sendNext (tracks_accepted h hother)
  · exact ⟨q, h⟩

variable {sends : List (Command × ℕ)}

/-- The handler of an acknowledgement sends other commands. -/
theorem tracks_sends (h : Tracks link q)
    (hother : ∀ send ∈ sends, send.1.IsOther) : ∃ q', Tracks (sendAll link sends) q' := by
  induction sends generalizing link q with
  | nil => exact ⟨q, h⟩
  | cons send sends ih =>
    obtain ⟨q', h'⟩ := tracks_send h send.2 (hother send mem_cons_self)
    exact ih h' fun next hnext => hother next (mem_cons_of_mem _ hnext)

/-- The flag and the setting do not change with an answer. -/
theorem tracks_handled (h : Tracks link q) (status : HfpLibStatus) {id : UInt8}
    (hid : id = q.pendingOctet) :
    Tracks ({ link with atCmdRespPending := HfpAtCmd.hfpNoCmdPending.octet }.note (.handled status id))
      { q with unanswered := none } := by
  refine ⟨keeps_handled h.keeps status hid, h.known, h.count, ?_, ?_, ?_⟩
  · rw [Link.note, lastRequested_append]
    exact h.setting
  · rw [Link.note, lastRequested_append, lastSent_append]
    exact h.sent
  · rw [Link.note, lastRequested_append]
    exact h.requested

theorem tracks_responseTimeout (h : Tracks link q) (t : Option ℕ) :
    Tracks { link with responseTimeout := t } q :=
  ⟨keeps_responseTimeout h.keeps t, h.known, h.count, h.setting, h.sent, h.requested⟩

theorem tracks_ack (h : Tracks link q) (status : HfpLibStatus)
    (hother : ∀ send ∈ sends, send.1.IsOther) :
    ∃ q', Tracks (atCmdAckReceived link status sends) q' := by
  have hcancel := tracks_responseTimeout h none
  rw [atCmdAckReceived]
  dsimp only
  cases hunanswered : q.unanswered with
  | none =>
    have hpending : link.atCmdRespPending = HfpAtCmd.hfpNoCmdPending.octet := by
      rw [h.keeps.pending, Queue.pendingOctet, hunanswered]
    rw [if_pos hpending]
    exact tracks_sendNext (tracks_handled hcancel status h.keeps.pending)
  | some cmd =>
    have hpending : link.atCmdRespPending ≠ HfpAtCmd.hfpNoCmdPending.octet := by
      rw [h.keeps.pending, Queue.pendingOctet, hunanswered]
      exact octet_ne cmd.id_ne
    rw [if_neg hpending]
    obtain ⟨q', h'⟩ := tracks_sends hcancel hother
    obtain ⟨q'', hkeeps, hsame⟩ := keeps_sends hcancel.keeps hunanswered sends
    obtain rfl : q' = q'' := some.inj (h'.keeps.replay.symm.trans hkeeps.replay)
    refine tracks_sendNext (tracks_handled h' status ?_)
    rw [h.keeps.pending, Queue.pendingOctet, Queue.pendingOctet, hsame, hunanswered]

/-! ### Requests -/

variable {gain : UInt8} {slack : ℕ}

theorem hfpHandleVgsRequest_equal (h : link.atVolSetting = gain.toNat) :
    hfpHandleVgsRequest link gain slack = link.note (.requested gain.toNat) :=
  if_neg (not_not.mpr h)

theorem hfpHandleVgsRequest_waiting (h : link.atVolSetting ≠ gain.toNat)
    (hpending : link.atVolPending = true) :
    hfpHandleVgsRequest link gain slack =
      (link.note (.requested gain.toNat)).setVolume (limitGain gain.toNat) := by
  refine (if_pos h).trans (if_neg ?_)
  simp [Link.setVolume, Link.note, hpending]

theorem hfpHandleVgsRequest_vgs (h : link.atVolSetting ≠ gain.toNat)
    (hpending : link.atVolPending = false) :
    hfpHandleVgsRequest link gain slack = hfpSendAtCmd
      { (link.note (.requested gain.toNat)).setVolume (limitGain gain.toNat) with
        atVolPending := true } slack vgs := by
  refine (if_pos h).trans (if_pos ?_)
  simp [Link.setVolume, Link.note, hpending]

/-- A request that changes the setting while an `AT+VGS` waits. -/
theorem tracks_waiting (h : Tracks link q) (hpending : link.atVolPending = true) (gain : ℕ) :
    Tracks ((link.note (.requested gain)).setVolume (limitGain gain))
      { q with setting := limitGain gain % 16 } := by
  refine ⟨keeps_setVolume (keeps_requested h.keeps gain) _, h.known, h.count, ?_, ?_, ?_⟩
  · rw [Link.setVolume, Link.note, lastRequested_append, Link.note, lastRequested_append]
    exact Nat.mod_eq_of_lt (limitGain_le gain)
  · intro hclear
    exact absurd (hpending.symm.trans hclear) Bool.false_ne_true.symm
  · intro _
    rw [Link.setVolume, Link.note, lastRequested_append, Link.note, lastRequested_append]
    exact some_ne_none gain

/-- A request that puts `AT+VGS` into the queue. -/
theorem tracks_vgs (h : Tracks link q) (hpending : link.atVolPending = false) (gain : ℕ)
    (link' : Link)
    (hlink' : link' = { (link.note (.requested gain)).setVolume (limitGain gain) with
      atVolPending := true }) :
    Tracks ({ link' with
        sink := ((link'.sink.claim 0 vgs.text.length).store link'.sink.claimed.length vgs.text).store
          (link'.sink.claimed.length + 1) [vgs.id.octet] }.note (.accepted vgs))
      ⟨q.waiting ++ [vgs], q.unanswered, limitGain gain % 16⟩ := by
  have hkeeps : Keeps link' { q with setting := limitGain gain % 16 } := by
    rw [hlink']
    exact keeps_volPending (keeps_setVolume (keeps_requested h.keeps gain) _) true
  have hrequested : lastRequested link'.log = some gain := by
    rw [hlink', Link.setVolume, Link.note, lastRequested_append, Link.note, lastRequested_append]
    rfl
  refine ⟨keeps_accepted hkeeps vgs, ?_, ?_, ?_, ?_, ?_⟩
  · intro cmd hcmd
    obtain hcmd | hcmd := mem_append.mp hcmd
    · exact h.known cmd hcmd
    · rw [mem_singleton.mp hcmd]
      exact .inl rfl
  · rw [countP_append, h.count, hpending, hlink']
    rfl
  · rw [Link.note, lastRequested_append, hrequested, hlink']
    exact Nat.mod_eq_of_lt (limitGain_le gain)
  · intro hclear
    have hset : link'.atVolPending = true := by rw [hlink']
    exact absurd (hset.symm.trans hclear) Bool.false_ne_true.symm
  · intro _
    rw [Link.note, lastRequested_append, hrequested]
    exact some_ne_none gain

/-- A request for the gain that the AG has been told, or is about to be told. -/
theorem tracks_equal (h : Tracks link q) {gain : ℕ} (hgain : link.atVolSetting = gain)
    (hlast : lastRequested link.log ≠ none) : Tracks (link.note (.requested gain)) q := by
  obtain ⟨last, hlast⟩ := ne_none_iff_exists'.mp hlast
  have hlimit : limitGain last = gain := by
    rw [← hgain, h.setting, hlast]
    rfl
  have hsame : limitGain gain = gain := by
    rw [limitGain, if_neg]
    have hle := limitGain_le last
    rw [hfpMaxGain]
    omega
  refine ⟨keeps_requested h.keeps gain, h.known, h.count, ?_, ?_, ?_⟩
  · rw [Link.note, lastRequested_append]
    exact hgain.trans hsame.symm
  · intro hclear
    rw [Link.note, lastRequested_append, lastSent_append]
    refine (h.sent hclear).trans ?_
    rw [hlast, map_some, hlimit]
    exact congrArg some hsame.symm
  · intro _
    rw [Link.note, lastRequested_append]
    exact some_ne_none gain

theorem tracks_step {link' : Link} {e : Event} (h : Tracks link q)
    (hok : e.IsRequest ∧ Report link e) (hstep : step link e = some link') :
    ∃ q', Tracks link' q' := by
  obtain ⟨hrequest, hreport⟩ := hok
  cases e with try obtain rfl := some.inj hstep
  | send cmd slack => exact tracks_send h slack hrequest
  | vgsRequest gain slack =>
    rw [Report] at hreport
    by_cases hgain : link.atVolSetting = gain.toNat
    · rw [if_pos hgain] at hreport
      rw [hfpHandleVgsRequest_equal hgain]
      exact ⟨q, tracks_equal h hgain hreport⟩
    · rw [if_neg hgain] at hreport
      cases hpending : link.atVolPending with
      | true =>
        rw [hfpHandleVgsRequest_waiting hgain hpending]
        exact ⟨_, tracks_waiting h hpending gain.toNat⟩
      | false =>
        rw [hpending] at hreport
        rw [hfpHandleVgsRequest_vgs hgain hpending, hfpSendAtCmd,
          if_pos (hreport.resolve_left Bool.false_ne_true)]
        exact tracks_sendNext (tracks_vgs h hpending gain.toNat _ rfl)
  | speakerGain gain => exact hrequest.elim
  | ok sends => exact tracks_ack h .success hrequest
  | error sends => exact tracks_ack h .fail hrequest
  | extendedError err sends =>
    rw [hfpHandleExtendedError]
    split
    · exact tracks_ack h (convertErrorCode err) hrequest
    · exact ⟨q, h⟩
  | timeout sends => exact tracks_ack h .timeout hrequest

theorem tracks_start (isHfp remoteVolControl slcComplete : Bool) :
    Tracks (Link.start isHfp remoteVolControl slcComplete) Queue.start :=
  ⟨⟨rfl, rfl, rfl, Nat.succ_pos 15, rfl, rfl⟩, by simp [Queue.start], rfl, rfl, fun _ => rfl,
    fun hset => by cases hset⟩

/-- **Volume reports.** When every request that needs a command finds room for it, and the first
request is not for the setting that the link starts with, no gain is lost: the flag says that an
`AT+VGS` waits, and an AG that has been told everything knows the last gain. -/
theorem reported_of_run {isHfp remoteVolControl slcComplete : Bool} {events : List Event}
    (hevents : ∀ e ∈ events, e.IsRequest)
    (hreport : Lib.RunMeets step Report (Link.start isHfp remoteVolControl slcComplete) events)
    (hrun : Lib.run step (Link.start isHfp remoteVolControl slcComplete) events = some link) :
    ∃ q, Reported link q := by
  have hkeep : ∀ link e link', (∃ q, Tracks link q) → e.IsRequest ∧ Report link e →
      step link e = some link' → ∃ q, Tracks link' q := by
    rintro link e link' ⟨q, h⟩ hok hstep
    exact tracks_step h hok hstep
  have htracks := Lib.run_invariant hkeep ⟨_, tracks_start _ _ _⟩
    ((Lib.runMeets_of_forall hevents _).and hreport) hrun
  obtain ⟨q, h⟩ := htracks
  exact ⟨q, h.reported⟩

/-- A request for 7, another one for 9 while the command is unanswered, and the answers. -/
def twoRequests : List Event :=
  [.vgsRequest 7 100, .vgsRequest 9 90, .vgsRequest 20 80, .ok [], .ok []]

/-- The link after `events`. -/
def after (events : List Event) : Link :=
  (Lib.run step (Link.start true true true) events).getD (Link.start true true true)

instance (link : Link) : (e : Event) → Decidable (Report link e)
  | .vgsRequest gain slack => inferInstanceAs (Decidable
      (if link.atVolSetting = gain.toNat then lastRequested link.log ≠ none
        else link.atVolPending = true ∨ vgs.text.length ≤ slack))
  | .send _ _ | .speakerGain _ | .ok _ | .error _ | .extendedError _ _ | .timeout _ =>
    inferInstanceAs (Decidable True)

theorem reported_twoRequests : ∃ q, Reported (after twoRequests) q :=
  @reported_of_run _ true true true _
    (by simp [twoRequests, Event.IsRequest]) (by decide)
    (show Lib.run step (Link.start true true true) twoRequests = some (after twoRequests) from rfl)

/-- Without room for the command the flag is set and nothing waits. -/
theorem not_reported_full : ¬ ∀ events link, (∀ e ∈ events, e.IsRequest) →
    Lib.run step (Link.start true true true) events = some link → ∃ q, Reported link q := by
  intro hall
  obtain ⟨q, hreplay, hpending, -⟩ := hall [.vgsRequest 7 9] (after [.vgsRequest 7 9])
    (by simp [Event.IsRequest]) rfl
  obtain rfl : ⟨[], none, 7⟩ = q := some.inj ((by decide : replay
    (after [.vgsRequest 7 9]).log = some ⟨[], none, 7⟩).symm.trans hreplay)
  obtain ⟨cmd, hcmd, -⟩ := hpending.mp (by decide)
  cases hcmd

end Cbps.Hfp
