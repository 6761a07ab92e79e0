import Cbps.HfpLink.Frame
import Mathlib.Order.Basic

/-!
# Priorities of the links

A `Table` is what the rest of the library knows about the links: who is primary, who is secondary,
whose call came in first. Links get a priority, lose it, and pass it on. `first_incoming_call` is a
priority, and the functions that take a link down or pass a priority on do not look at it:
`sound_of_run` says for which runs it stays right.
-/

namespace Cbps.HfpLink

open List Option

open Hfp (HfpCallState)

/-! ### Tables -/

/-- The priority and the call of a link. -/
structure Row where
  priority : HfpLinkPriority
  callState : HfpCallState
  deriving DecidableEq, Repr

/-- The links, and the priority of the first one with an incoming call. -/
structure Table where
  rows : List Row
  first : HfpLinkPriority
  deriving DecidableEq, Repr

variable {i : ℕ} {T : Table}

namespace Table

def row (T : Table) (i : ℕ) : Row := T.rows.getD i ⟨.invalidLink, .idle⟩

/-- Some link has the priority. -/
def has (T : Table) (priority : HfpLinkPriority) : Bool := T.rows.any fun row => row.priority = priority

/-- A link without priority gets the first one that is free. -/
def assign (T : Table) (i : ℕ) : Table :=
  if (T.row i).priority = .invalidLink then
    { T with rows := T.rows.modify i fun row =>
      { row with priority := if T.has .primaryLink then .secondaryLink else .primaryLink } }
  else T

/-- The secondary link becomes the primary one. -/
def promote (T : Table) : Table :=
  match T.rows.findIdx? fun row => row.priority = .secondaryLink with
  | some i => { T with rows := T.rows.modify i fun row => { row with priority := .primaryLink } }
  | none => T

/-- A link goes down, and with `reassign` its priority goes to the other one. -/
def clear (T : Table) (i : ℕ) (reassign : Bool) : Table :=
  if reassign then { T with rows := T.rows.modify i fun _ => ⟨.invalidLink, .idle⟩ }.promote
  else { T with rows := T.rows.modify i fun row => { row with callState := .idle } }

/-- The call of a link changes. -/
def call (T : Table) (i : ℕ) (callState : HfpCallState) : Table :=
  if (T.row i).callState ≠ callState then
    { rows := T.rows.modify i fun row => { row with callState := callState }
      first :=
        if callState = .incoming then
          if T.first = .invalidLink then (T.row i).priority else T.first
        else if T.first = (T.row i).priority then .invalidLink
        else T.first }
  else T

/-- There is at most one link of each priority, no secondary one without a primary one, and the
first incoming call is an incoming call. -/
structure Sound (T : Table) : Prop where
  primary : T.rows.countP (fun row => row.priority = .primaryLink) ≤ 1
  secondary : T.rows.countP (fun row => row.priority = .secondaryLink) ≤ 1
  ordered : T.has .secondaryLink = true → T.has .primaryLink = true
  first : T.first ≠ .invalidLink → ∃ row ∈ T.rows, row.priority = T.first ∧ row.callState = .incoming

/-- The link can go down: the first incoming call is not on it, and keeps its priority, or the other
link has an incoming call and gets the priority. -/
def CanClear (T : Table) (i : ℕ) (reassign : Bool) : Prop :=
  T.first ≠ .invalidLink → (T.row i).priority ≠ .invalidLink →
    if (T.row i).priority = T.first then
      reassign = true ∧ T.first = .primaryLink ∧
        ∃ row ∈ T.rows, row.priority = .secondaryLink ∧ row.callState = .incoming
    else reassign = true → T.first = .primaryLink

/-! ### At most two links -/

variable {first : HfpLinkPriority}

theorem sound_single {r : Row} :
    Sound ⟨[r], first⟩ ↔ r.priority ≠ .secondaryLink ∧
      (first ≠ .invalidLink → r.priority = first ∧ r.callState = .incoming) := by
  obtain ⟨p, c⟩ := r
  constructor
  · rintro ⟨-, -, hordered, hfirst⟩
    refine ⟨?_, fun h => by simpa using hfirst h⟩
    rintro rfl
    exact absurd (hordered rfl) Bool.false_ne_true
  · rintro ⟨hp, hfirst⟩
    refine ⟨?_, ?_, ?_, fun h => ⟨_, mem_singleton_self _, hfirst h⟩⟩
    all_goals cases p <;> simp_all [has]

theorem sound_pair {r s : Row} :
    Sound ⟨[r, s], first⟩ ↔ (r.priority = s.priority → r.priority = .invalidLink) ∧
      (r.priority = .secondaryLink → s.priority = .primaryLink) ∧
      (s.priority = .secondaryLink → r.priority = .primaryLink) ∧
      (first ≠ .invalidLink → r.priority = first ∧ r.callState = .incoming ∨
        s.priority = first ∧ s.callState = .incoming) := by
  obtain ⟨p, c⟩ := r
  obtain ⟨q, d⟩ := s
  constructor
  · rintro ⟨hprimary, hsecondary, hordered, hfirst⟩
    refine ⟨?_, ?_, ?_, fun h => by simpa using hfirst h⟩
    all_goals cases p <;> cases q <;> simp_all [has]
  · rintro ⟨hdistinct, hr, hs, hfirst⟩
    refine ⟨?_, ?_, ?_, fun h => by simpa using hfirst h⟩
    all_goals cases p <;> cases q <;> simp_all [has]

/-- At most two links are configured. -/
theorem shapes {rows : List Row} (h : rows.length ≤ 2) :
    rows = [] ∨ (∃ r, rows = [r]) ∨ ∃ r s, rows = [r, s] := by
  match rows, h with
  | [], _ => exact .inl rfl
  | [r], _ => exact .inr (.inl ⟨r, rfl⟩)
  | [r, s], _ => exact .inr (.inr ⟨r, s, rfl⟩)

theorem sound_assign (h : Sound T) (hlen : T.rows.length ≤ 2) (i : ℕ) :
    Sound (T.assign i) := by
  obtain ⟨rows, first⟩ := T
  rw [assign]
  split
  · next hinvalid =>
    by_cases hi : rows.length ≤ i
    · rwa [modify_eq_self hi]
    · obtain rfl | ⟨r, rfl⟩ | ⟨r, s, rfl⟩ := shapes hlen
      · exact absurd (Nat.zero_le i) hi
      · rw [sound_single] at h
        obtain rfl : i = 0 := by simpa using hi
        have hr : r.priority = .invalidLink := hinvalid
        refine sound_single.mpr ?_
        cases first <;> simp_all [has]
      · rw [sound_pair] at h
        obtain rfl | rfl : i = 0 ∨ i = 1 := by simp at hi; omega
        · have hr : r.priority = .invalidLink := hinvalid
          refine sound_pair.mpr ?_
          cases first <;> cases hs : s.priority <;> simp_all [has]
        · have hs : s.priority = .invalidLink := hinvalid
          refine sound_pair.mpr ?_
          cases first <;> cases hr : r.priority <;> simp_all [has]
  · exact h

theorem length_assign (T : Table) (i : ℕ) : (T.assign i).rows.length = T.rows.length := by
  rw [assign]
  split
  · exact length_modify _ _ _
  · rfl

theorem length_promote (T : Table) : T.promote.rows.length = T.rows.length := by
  rw [promote]
  split
  · exact length_modify _ _ _
  · rfl

theorem length_clear (T : Table) (i : ℕ) (reassign : Bool) :
    (T.clear i reassign).rows.length = T.rows.length := by
  rw [clear]
  split
  · exact (length_promote _).trans (length_modify _ _ _)
  · exact length_modify _ _ _

theorem length_call (T : Table) (i : ℕ) (callState : HfpCallState) :
    (T.call i callState).rows.length = T.rows.length := by
  rw [call]
  split
  · exact length_modify _ _ _
  · rfl

/-- Without a secondary link there is nobody to promote. -/
theorem promote_eq (h : T.has .secondaryLink = false) : T.promote = T := by
  rw [promote, List.findIdx?_eq_none_iff.mpr]
  intro row hrow
  exact List.any_eq_false.mp h row hrow |> eq_false_of_ne_true

theorem sound_clear_true (h : Sound T) (hlen : T.rows.length ≤ 2)
    (hi : i < T.rows.length) (hclear : T.CanClear i true) : Sound (T.clear i true) := by
  obtain ⟨rows, first⟩ := T
  rw [CanClear] at hclear
  rw [clear, if_pos rfl]
  obtain rfl | ⟨r, rfl⟩ | ⟨r, s, rfl⟩ := shapes hlen
  · cases hi
  · rw [sound_single] at h
    obtain rfl : i = 0 := by simpa using hi
    rw [promote_eq rfl]
    refine sound_single.mpr ?_
    cases first <;> cases hr : r.priority <;> simp_all [row]
  · rw [sound_pair] at h
    obtain rfl | rfl : i = 0 ∨ i = 1 := by simp at hi; omega
    · cases hs : s.priority <;> cases hr : r.priority <;> cases first <;>
        simp_all [row, promote, sound_pair, List.findIdx?_cons]
    · cases hs : s.priority <;> cases hr : r.priority <;> cases first <;>
        simp_all [row, promote, sound_pair, List.findIdx?_cons]

theorem sound_clear_false (h : Sound T) (hlen : T.rows.length ≤ 2)
    (hi : i < T.rows.length) (hclear : T.CanClear i false) : Sound (T.clear i false) := by
  obtain ⟨rows, first⟩ := T
  rw [CanClear] at hclear
  rw [clear, if_neg Bool.false_ne_true]
  obtain rfl | ⟨r, rfl⟩ | ⟨r, s, rfl⟩ := shapes hlen
  · cases hi
  · rw [sound_single] at h
    obtain rfl : i = 0 := by simpa using hi
    refine sound_single.mpr ?_
    cases first <;> simp_all [row]
  · rw [sound_pair] at h
    obtain rfl | rfl : i = 0 ∨ i = 1 := by simp at hi; omega
    · refine sound_pair.mpr ?_
      cases first <;> cases hr : r.priority <;> cases hs : s.priority <;> simp_all [row]
    · refine sound_pair.mpr ?_
      cases first <;> cases hr : r.priority <;> cases hs : s.priority <;> simp_all [row]

theorem sound_call (h : Sound T) (hlen : T.rows.length ≤ 2)
    (hi : i < T.rows.length) (callState : HfpCallState) : Sound (T.call i callState) := by
  obtain ⟨rows, first⟩ := T
  rw [call]
  split
  · obtain rfl | ⟨r, rfl⟩ | ⟨r, s, rfl⟩ := shapes hlen
    · cases hi
    · rw [sound_single] at h
      obtain rfl : i = 0 := by simpa using hi
      refine sound_single.mpr ?_
      by_cases hcall : callState = .incoming <;> cases first <;> cases hr : r.priority <;>
        simp_all [row]
    · rw [sound_pair] at h
      obtain rfl | rfl : i = 0 ∨ i = 1 := by simp at hi; omega
      · refine sound_pair.mpr ?_
        by_cases hcall : callState = .incoming <;> cases first <;> cases hr : r.priority <;>
          cases hs : s.priority <;> simp_all [row]
      · refine sound_pair.mpr ?_
        by_cases hcall : callState = .incoming <;> cases first <;> cases hr : r.priority <;>
          cases hs : s.priority <;> simp_all [row]
  · exact h

end Table

/-! ### Which link an event takes down -/

namespace Task

/-- `hfpSendSlcConnectCfmToApp` resets a link that is not in link loss and has not been connected. -/
def cfmResets (t : Task) (i : ℕ) (status : HfpConnectStatus) : Option (ℕ × Bool) :=
  if (t.link i).agLinkLossState = .none ∧ status ≠ .success ∧ status ≠ .failedBusy then some (i, true)
  else none

/-- A link that is to be connected again is reset too, and keeps its priority. -/
def reconnectResets (t : Task) (i : ℕ) : Option (ℕ × Bool) :=
  some (i, !((t.link i).manageLinkloss ∧ (t.link i).agLinkLossState = .recovery ∧
    LinkData.hasBdaddr (t.link i)))

/-- An abort that finds the next attempt scheduled is the end of the link. -/
def abortResets (t : Task) (i : ℕ) : Option (ℕ × Bool) :=
  if t.messages.any (Message.isReconnect i) then some (i, true) else none

def disconnectRequestResets (t : Task) (i : ℕ) : Option (ℕ × Bool) :=
  if (t.link i).agLinkLossState = .recovery ∨ (t.link i).agLinkLossState = .timeout then
    t.abortResets i
  else if (t.link i).agSlcState = .searching then t.cfmResets i .sdpFail
  else none

def retryResets (t : Task) (i : ℕ) : Option (ℕ × Bool) :=
  if (t.hfpGetServiceFromProfile
      ((t.link i).agProfilesToTry &&& ~~~t.hfpLinkGetProfile (some i))).isSome then none
  else t.cfmResets i .sdpFail

def searchResets (t : Task) (bdAddr : ℕ) (result : SearchResult) : Option (ℕ × Bool) :=
  (t.hfpGetLinkFromBdaddr bdAddr).bind fun i =>
    if (t.link i).agSlcState = .searching then
      match result with
      | .success (some _) => none
      | .success none | .noResponseData => t.retryResets i
      | .connectionError | .failed => t.cfmResets i .failed
    else none

def connectIndOnLinkResets (t : Task) (i : ℕ) : Option (ℕ × Bool) :=
  if (t.link i).agLinkLossState = .recovery ∧ t.messages.any (Message.isReconnect i) then none
  else if (t.link i).agSlcState = .searching then t.cfmResets i .failedCrossover
  else none

def connectIndResets (t : Task) (ind : ConnectInd) : Option (ℕ × Bool) :=
  match t.hfpGetServiceFromChannel ind.serverChannel with
  | none => none
  | some s =>
    if (t.service s).busy then none
    else (t.hfpGetLinkFromBdaddr ind.bdAddr).bind t.connectIndOnLinkResets

def connectCfmResets (t : Task) (bdAddr : ℕ) (status : RfcommConnectStatus) : Option (ℕ × Bool) :=
  (t.hfpGetLinkFromBdaddr bdAddr).bind fun i =>
    match status with
    | .success | .pending | .declined => none
    | _ => t.cfmResets i .failed

def disconnectResets (t : Task) (i : ℕ) (status : RfcommDisconnectStatus) : Option (ℕ × Bool) :=
  if (t.link i).agSlcState ≠ .complete then t.cfmResets i .slcFailed
  else some (i, !(status = .l2capLinkLoss ∧ (t.link i).manageLinkloss ∧
    (t.linkLossTime ≠ 0 ∨ (t.link i).agLinkLossState = .recovery)))

def deliverResets (t : Task) : Message → Option (ℕ × Bool)
  | .sdpRegisterReq _ | .slcDisconnectReq none => none
  | .slcDisconnectReq (some i) =>
    match (t.link i).agSlcState with
    | .idle | .disabled => none
    | _ => t.disconnectRequestResets i
  | .linkLossReconnect i _ =>
    match (t.link i).agSlcState with
    | .idle | .disabled | .complete => none
    | _ => t.reconnectResets i
  | .linkLossTimeout i _ =>
    match (t.link i).agSlcState with
    | .idle | .disabled | .complete => none
    | _ => t.abortResets i
  | .rfcommConnectInd ind => t.connectIndResets ind

/-- The link that the event takes down, and whether its priority goes to the other one. -/
def resets (t : Task) : Event → Option (ℕ × Bool)
  | .manageLinkLoss priority enable =>
    if priority ≠ .invalidLink ∧ priority = t.hfpLinkLossLinkPriority ∧ enable = false then
      t.abortResets (priorityIndex priority)
    else none
  | .rfcommConnectInd ind => t.connectIndResets ind
  | .rfcommConnectCfm bdAddr _ status => t.connectCfmResets bdAddr status
  | .rfcommDisconnectInd sink status =>
    (t.hfpGetLinkFromSink sink).bind fun i => t.disconnectResets i status
  | .rfcommDisconnectCfm sink status =>
    if status = .unknownSink then none
    else (t.hfpGetLinkFromSink sink).bind fun i => t.disconnectResets i status
  | .serviceSearchAttributeCfm bdAddr result => t.searchResets bdAddr result
  | .deliver message => { t with messages := t.messages.erase message }.deliverResets message
  | _ => none

end Task

/-! ### The table of the task -/

def LinkData.row (link : LinkData) : Row := ⟨link.priority, link.agCallState⟩

namespace Task

/-- What the priorities are about. -/
def table (t : Task) : Table := ⟨t.links.map LinkData.row, t.firstIncomingCall⟩

variable {t t' t'' : Task}

theorem row_table (t : Task) (i : ℕ) : t.table.row i = (t.link i).row := by
  rw [Table.row, table, Task.link, getD_eq_getElem?_getD, getD_eq_getElem?_getD,
    List.getElem?_map]
  cases t.links[i]? <;> rfl

variable {f : LinkData → LinkData}

/-- To change a link is to change its row. -/
theorem map_row_modify {g : Row → Row}
    (h : ∀ link, (f link).row = g link.row) (links : List LinkData) (i : ℕ) :
    (links.modify i f).map LinkData.row = (links.map LinkData.row).modify i g := by
  induction links generalizing i with
  | nil => cases i <;> rfl
  | cons link links ih =>
    cases i with
    | zero => exact congrArg (· :: _) (h link)
    | succ i => exact congrArg (_ :: ·) (ih i)

/-- The priorities do not change. -/
structure Quiet (t t' : Task) : Prop where
  table : t'.table = t.table
  initialised : t.initialised = true → t'.initialised = true

theorem Quiet.refl (t : Task) : Quiet t t := ⟨rfl, id⟩

theorem Quiet.trans (h : Quiet t t') (h' : Quiet t' t'') : Quiet t t'' :=
  ⟨h'.table.trans h.table, fun hinit => h'.initialised (h.initialised hinit)⟩

theorem KeepsLinks.quiet (h : KeepsLinks t t') : Quiet t t' := by
  refine ⟨?_, h.initialised⟩
  rw [Task.table, h.links, h.firstIncomingCall, Task.table]

theorem quiet_messages (t : Task) (messages : List Message) :
    Quiet t { t with messages := messages } := ⟨rfl, id⟩

theorem quiet_cancelFirst (t : Task) (p : Message → Bool) : Quiet t (t.cancelFirst p) := ⟨rfl, id⟩

theorem quiet_modifyLink (t : Task) (i : ℕ)
    (h : ∀ link, (f link).row = link.row) : Quiet t (t.modifyLink i f) := by
  refine ⟨?_, id⟩
  rw [Task.table, modifyLink, map_row_modify (g := id) h, modify_id]
  rfl

theorem quiet_hfpSetLinkSlcState (t : Task) (i : ℕ) (state : HfpSlcState) :
    Quiet t (t.hfpSetLinkSlcState i state) := quiet_modifyLink t i fun _ => rfl

/-- A link goes down, and links get a priority. -/
structure Effect (t t' : Task) (r : Option (ℕ × Bool)) : Prop where
  table : ∃ links : List ℕ,
    t'.table = links.foldl Table.assign (r.elim t.table fun r => t.table.clear r.1 r.2)
  initialised : t'.initialised = true

theorem Quiet.effect (h : Quiet t t') (hinit : t.initialised = true) : Effect t t' none :=
  ⟨⟨[], h.table⟩, h.initialised hinit⟩

theorem Quiet.trans_effect {r : Option (ℕ × Bool)} (h : Quiet t t') (h' : Effect t' t'' r) :
    Effect t t'' r := by
  obtain ⟨⟨links, hlinks⟩, hinit⟩ := h'
  refine ⟨⟨links, ?_⟩, hinit⟩
  rw [hlinks, h.table]

theorem Effect.trans {r : Option (ℕ × Bool)} (h : Effect t t' r) (h' : Effect t' t'' none) :
    Effect t t'' r := by
  obtain ⟨links, hlinks⟩ := h.table
  obtain ⟨links', hlinks'⟩ := h'.table
  refine ⟨⟨links ++ links', ?_⟩, h'.initialised⟩
  rw [hlinks', elim_none, hlinks, foldl_append]

theorem Effect.trans_quiet {r : Option (ℕ × Bool)} (h : Effect t t' r) (h' : Quiet t' t'') :
    Effect t t'' r := h.trans (h'.effect h.initialised)

/-! ### The link manager -/

theorem table_hfpSetLinkPriority (t : Task) (i : ℕ) (priority : HfpLinkPriority) :
    (t.hfpSetLinkPriority (some i) priority).table =
      { t.table with rows := t.table.rows.modify i fun row => { row with priority := priority } } := by
  rw [Task.table, hfpSetLinkPriority, modifyLink,
    map_row_modify (g := fun row => { row with priority := priority }) fun _ => rfl]
  rfl

variable {priority : HfpLinkPriority}

/-- In a task that has been initialised, a priority is found if a link has it. -/
theorem isSome_hfpGetLinkFromPriority (hinit : t.initialised = true)
    (h : priority ≠ .invalidLink) :
    (t.hfpGetLinkFromPriority priority).isSome = t.table.has priority := by
  rw [hfpGetLinkFromPriority, if_pos ⟨hinit, h⟩, List.findIdx?_isSome, Table.has, Task.table,
    List.any_map]
  rfl

theorem table_assignPriority (hinit : t.initialised = true) (i : ℕ) :
    (t.assignPriority i).table = t.table.assign i := by
  have hpriority : (t.table.row i).priority = t.hfpGetLinkPriority (some i) := by
    rw [row_table]
    rfl
  rw [assignPriority, Table.assign, hpriority, ← isSome_hfpGetLinkFromPriority hinit (by decide)]
  split
  · split
    · exact table_hfpSetLinkPriority t i .secondaryLink
    · exact table_hfpSetLinkPriority t i .primaryLink
  · rfl

theorem initialised_assignPriority (t : Task) (i : ℕ) :
    (t.assignPriority i).initialised = t.initialised := by
  rw [assignPriority]
  split
  · split <;> rfl
  · rfl

theorem quiet_reserveService (t : Task) (i : ℕ) (service : Option ℕ) (state : HfpSlcState) :
    Quiet t (t.reserveService i service state) := by
  cases service with
  | none => exact Quiet.refl _
  | some s =>
    rw [reserveService]
    split
    · exact (keepsLinks_modifyService _ _ _).quiet.trans (quiet_modifyLink _ _ fun _ => rfl)
    · exact Quiet.refl _

theorem effect_hfpLinkSetup (hinit : t.initialised = true) (i : ℕ) (service : Option ℕ) (bdAddr : ℕ)
    (sink : Option Sink) (state : HfpSlcState) :
    Effect t (t.hfpLinkSetup i service bdAddr sink state) none := by
  have hassign : Effect t (t.assignPriority i) none :=
    ⟨⟨[i], table_assignPriority hinit i⟩, (initialised_assignPriority t i).trans hinit⟩
  exact (hassign.trans_quiet (quiet_reserveService _ i service state)).trans_quiet
    (quiet_modifyLink _ _ fun _ => rfl)

theorem table_zeroLink (t : Task) (i : ℕ) :
    (t.zeroLink i).table =
      { t.table with rows := t.table.rows.modify i fun _ => ⟨.invalidLink, .idle⟩ } := by
  rw [Task.table, zeroLink, modifyLink,
    map_row_modify (g := fun _ => ⟨.invalidLink, .idle⟩) fun _ => rfl]
  rfl

theorem table_promoteSecondary (hinit : t.initialised = true) :
    t.promoteSecondary.table = t.table.promote := by
  have hfind : t.table.rows.findIdx? (fun row => decide (row.priority = .secondaryLink)) =
      t.hfpGetLinkFromPriority .secondaryLink := by
    rw [hfpGetLinkFromPriority, if_pos ⟨hinit, by decide⟩, Task.table, List.findIdx?_map]
    rfl
  rw [promoteSecondary, Table.promote, hfind]
  cases t.hfpGetLinkFromPriority .secondaryLink with
  | none => rfl
  | some i => exact table_hfpSetLinkPriority t i .primaryLink

theorem initialised_promoteSecondary (t : Task) : t.promoteSecondary.initialised = t.initialised := by
  rw [promoteSecondary]
  cases t.hfpGetLinkFromPriority .secondaryLink <;> rfl

theorem effect_hfpLinkReset_true (hinit : t.initialised = true) (i : ℕ) :
    Effect t (t.hfpLinkReset i true) (some (i, true)) := by
  have hrelease := (keepsLinks_releaseService t i).quiet
  have hzero : ((t.releaseService i).zeroLink i).initialised = true := hrelease.initialised hinit
  refine ⟨⟨[], ?_⟩, (initialised_promoteSecondary _).trans hzero⟩
  rw [hfpLinkReset, if_pos rfl, table_promoteSecondary hzero, table_zeroLink, hrelease.table]
  rfl

/-- A row that is replaced by what it was but for the call. -/
theorem modify_row (rows : List Row) (i : ℕ) :
    rows.modify i (fun _ => ⟨(rows.getD i ⟨.invalidLink, .idle⟩).priority, .idle⟩) =
      rows.modify i fun row => { row with callState := .idle } := by
  induction rows generalizing i with
  | nil => cases i <;> rfl
  | cons row rows ih =>
    cases i with
    | zero => rfl
    | succ i => exact congrArg (row :: ·) (ih i)

/-- The link is reset, but keeps its priority. -/
theorem effect_hfpLinkReset_false (hinit : t.initialised = true) (i : ℕ)
    (h : ∀ link, (f link).row = { link.row with priority := (t.link i).priority }) :
    Effect t ((t.hfpLinkReset i false).modifyLink i f) (some (i, false)) := by
  have hrelease := (keepsLinks_releaseService t i).quiet
  refine ⟨⟨[], ?_⟩, hrelease.initialised hinit⟩
  have hrow : (t.table.rows.getD i ⟨.invalidLink, .idle⟩).priority = (t.link i).priority :=
    congrArg Row.priority (row_table t i)
  have hmodify := map_row_modify (g := fun row => { row with priority := (t.link i).priority }) h
    ((t.releaseService i).zeroLink i).links i
  rw [foldl_nil, elim_some, Table.clear, if_neg Bool.false_ne_true, ← modify_row, hrow]
  have hzero := table_zeroLink (t.releaseService i) i
  rw [hrelease.table] at hzero
  change (⟨(((t.releaseService i).zeroLink i).links.modify i f).map LinkData.row,
    ((t.releaseService i).zeroLink i).firstIncomingCall⟩ : Table) = _
  rw [hmodify]
  change ({ ((t.releaseService i).zeroLink i).table with
    rows := ((t.releaseService i).zeroLink i).table.rows.modify i _ } : Table) = _
  rw [hzero, modify_modify_eq]
  rfl

/-! ### The handlers -/

theorem effect_hfpSendSlcDisconnectIndToApp (hinit : t.initialised = true) (i : ℕ)
    {status : HfpDisconnectStatus} (h : status ≠ .noSlc) :
    Effect t (t.hfpSendSlcDisconnectIndToApp (some i) status) (some (i, true)) := by
  rw [hfpSendSlcDisconnectIndToApp, if_pos h]
  exact (effect_hfpLinkReset_true hinit i).trans_quiet (keepsLinks_output _ _).quiet

theorem effect_hfpGetProfileServerChannel (hinit : t.initialised = true) (i : ℕ)
    (service : Option ℕ) (bdAddr : ℕ) :
    Effect t (t.hfpGetProfileServerChannel i service bdAddr) none :=
  (effect_hfpLinkSetup hinit i service bdAddr none .searching).trans_quiet (keepsLinks_output _ _).quiet

theorem effect_hfpHandleRfcommLinkLossReconnect (hinit : t.initialised = true) (i : ℕ) :
    Effect t (t.hfpHandleRfcommLinkLossReconnect i) (t.reconnectResets i) := by
  rw [hfpHandleRfcommLinkLossReconnect, reconnectResets]
  dsimp only
  split
  · next h =>
    rw [decide_eq_true h]
    refine Effect.trans_quiet (Effect.trans (effect_hfpLinkReset_false hinit i ?_)
      (effect_hfpGetProfileServerChannel ?_ i _ _)) (keepsLinks_output _ _).quiet
    · exact fun link => rfl
    · exact (keepsLinks_releaseService t i).quiet.initialised hinit
  · next h =>
    rw [decide_eq_false h]
    exact effect_hfpSendSlcDisconnectIndToApp hinit i (by decide)

theorem quiet_hfpSlcConnectTidy (t : Task) (i : ℕ) : Quiet t (t.hfpSlcConnectTidy i) := by
  rw [hfpSlcConnectTidy]
  refine Quiet.trans ?_ (quiet_modifyLink _ _ fun _ => rfl)
  split
  · split
    · exact (keepsLinks_hfpUnregisterServiceRecord _ _).quiet
    · exact Quiet.refl _
  · exact Quiet.refl _

theorem quiet_hfpHandleRfcommLinkLossComplete (t : Task) (i : ℕ) (status : HfpConnectStatus) :
    Quiet t (t.hfpHandleRfcommLinkLossComplete i status) := by
  rw [hfpHandleRfcommLinkLossComplete]
  split
  · refine Quiet.trans ?_ (quiet_cancelFirst _ _)
    exact (keepsLinks_output _ _).quiet.trans (quiet_modifyLink _ _ fun _ => rfl)
  · exact quiet_messages _ _

theorem effect_hfpSendSlcConnectCfmToApp (hinit : t.initialised = true) (i : ℕ)
    (status : HfpConnectStatus) :
    Effect t (t.hfpSendSlcConnectCfmToApp i status) (t.cfmResets i status) := by
  by_cases hloss : (t.link i).agLinkLossState = .none
  · rw [hfpSendSlcConnectCfmToApp, if_neg (not_not.mpr hloss), cfmResets]
    refine Effect.trans_quiet ?_ (keepsLinks_output _ _).quiet
    by_cases hsuccess : status = .success
    · rw [if_pos hsuccess, if_neg (by simp [hsuccess])]
      exact (quiet_hfpSlcConnectTidy t i).effect hinit
    · rw [if_neg hsuccess]
      by_cases hbusy : status = .failedBusy
      · rw [if_neg (not_not.mpr hbusy), if_neg (by simp [hbusy])]
        exact (Quiet.refl t).effect hinit
      · rw [if_pos hbusy, if_pos ⟨hloss, hsuccess, hbusy⟩]
        exact effect_hfpLinkReset_true hinit i
  · have hnone : t.cfmResets i status = none := if_neg fun h => hloss h.1
    rw [hfpSendSlcConnectCfmToApp, if_pos hloss, hnone]
    refine Quiet.effect (Quiet.trans ?_ (quiet_hfpHandleRfcommLinkLossComplete _ i status)) hinit
    split
    · exact quiet_hfpSlcConnectTidy t i
    · exact Quiet.refl t

variable {status : HfpConnectStatus}

/-- The status of a failure does not matter. -/
theorem cfmResets_failed (t : Task) (i : ℕ) (hsuccess : status ≠ .success)
    (hbusy : status ≠ .failedBusy) : t.cfmResets i .failed = t.cfmResets i status := by
  rw [cfmResets, cfmResets]
  exact if_congr ⟨fun h => ⟨h.1, hsuccess, hbusy⟩, fun h => ⟨h.1, by decide, by decide⟩⟩ rfl rfl

theorem quiet_setLinkLossState (t : Task) (i : ℕ) (state : HfpLinkLossStatus) :
    Quiet t (t.setLinkLossState i state) := quiet_modifyLink t i fun _ => rfl

/-- An abort ends the recovery, so what follows is no reconnection. -/
theorem effect_hfpHandleRfcommLinkLossAbort (hinit : t.initialised = true) (i : ℕ) (force : Bool) :
    Effect t (t.hfpHandleRfcommLinkLossAbort i force) (t.abortResets i) := by
  have habort := quiet_setLinkLossState t i .abort
  have hstate : ((t.setLinkLossState i .abort).link i).agLinkLossState ≠ .recovery := by
    by_cases hi : i < t.links.length
    · rw [setLinkLossState, link_modifyLink hi]
      exact HfpLinkLossStatus.noConfusion
    · rw [link_of_length_le (by
        rw [setLinkLossState, length_modifyLink]
        exact Nat.le_of_not_lt hi)]
      exact HfpLinkLossStatus.noConfusion
  rw [hfpHandleRfcommLinkLossAbort, abortResets]
  split
  · have hcancel := habort.trans (quiet_cancelFirst _ (Message.isReconnect i))
    have hreset := effect_hfpHandleRfcommLinkLossReconnect (hcancel.initialised hinit) i
    rw [reconnectResets, decide_eq_false fun h => hstate h.2.1] at hreset
    exact hcancel.trans_effect hreset
  · split
    · exact (habort.trans (quiet_messages _ _)).effect hinit
    · exact habort.effect hinit

theorem effect_hfpHandleRfcommLinkLossTimeout (hinit : t.initialised = true) (i : ℕ) :
    Effect t (t.hfpHandleRfcommLinkLossTimeout i) (t.abortResets i) := by
  rw [hfpHandleRfcommLinkLossTimeout]
  refine (effect_hfpHandleRfcommLinkLossAbort hinit i false).trans_quiet ?_
  split
  · exact quiet_setLinkLossState _ i .timeout
  · exact Quiet.refl _

theorem quiet_beginEpisode (t : Task) (i : ℕ) : Quiet t (t.beginEpisode i) :=
  (show Quiet t (Task.send { t with episodes := t.episodes + 1 } _) from ⟨rfl, id⟩).trans
    (quiet_modifyLink _ i fun _ => rfl)

theorem link_beginEpisode (hi : i < t.links.length) :
    (t.beginEpisode i).link i =
      { t.link i with agLinkLossState := .recovery, episode := some t.episodes } :=
  link_modifyLink (t := Task.send { t with episodes := t.episodes + 1 } _) hi _

theorem quiet_startLinkLoss (t : Task) (i : ℕ) : Quiet t (t.startLinkLoss i) := by
  rw [startLinkLoss]
  split
  · exact quiet_beginEpisode t i
  · exact Quiet.refl t

/-- A link that is up is a link. -/
theorem lt_of_agSlcState_ne (h : (t.link i).agSlcState ≠ .idle) : i < t.links.length := by
  by_contra hi
  rw [link_of_length_le (Nat.le_of_not_lt hi)] at h
  exact h rfl

/-- A link that has been up can be looked up, so it is connected again if it is managed. -/
theorem reconnectResets_startLinkLoss (hcomplete : (t.link i).agSlcState = .complete) :
    (t.startLinkLoss i).reconnectResets i = some (i, !((t.link i).manageLinkloss ∧
      (t.linkLossTime ≠ 0 ∨ (t.link i).agLinkLossState = .recovery))) := by
  have hi : i < t.links.length := lt_of_agSlcState_ne (by rw [hcomplete]; exact HfpSlcState.noConfusion)
  have hhas : LinkData.hasBdaddr (t.link i) = true := by
    rw [LinkData.hasBdaddr, hcomplete]
    rfl
  rw [reconnectResets, startLinkLoss]
  split
  · next h =>
    rw [link_beginEpisode hi, decide_eq_true ⟨h.1, rfl, hhas⟩, decide_eq_true ⟨h.1, .inl h.2⟩]
  · next h =>
    have hiff : ((t.link i).manageLinkloss = true ∧ (t.link i).agLinkLossState = .recovery ∧
        LinkData.hasBdaddr (t.link i) = true) ↔ ((t.link i).manageLinkloss = true ∧
          (t.linkLossTime ≠ 0 ∨ (t.link i).agLinkLossState = .recovery)) := by
      constructor
      · exact fun hr => ⟨hr.1, .inr hr.2.1⟩
      · rintro ⟨hmanage, htime | hrecovery⟩
        · exact absurd ⟨hmanage, htime⟩ h
        · exact ⟨hmanage, hrecovery, hhas⟩
    rw [decide_eq_decide.mpr hiff]

theorem effect_hfpHandleRfcommDisconnect (hinit : t.initialised = true) (i : ℕ)
    (status : RfcommDisconnectStatus) :
    Effect t (t.hfpHandleRfcommDisconnect i status) (t.disconnectResets i status) := by
  unfold hfpHandleRfcommDisconnect disconnectResets
  split
  · exact effect_hfpSendSlcConnectCfmToApp hinit i .slcFailed
  · next hcomplete =>
    cases status with
    | l2capLinkLoss =>
      have hstart := quiet_startLinkLoss t i
      have h := hstart.trans_effect
        (effect_hfpHandleRfcommLinkLossReconnect (hstart.initialised hinit) i)
      rw [reconnectResets_startLinkLoss (not_not.mp hcomplete)] at h
      rw [hfpHandleRfcommLinkLoss]
      simpa using h
    | _ => exact effect_hfpSendSlcDisconnectIndToApp hinit i (by decide)

theorem effect_accept (hinit : t.initialised = true) (i s : ℕ) (ind : ConnectInd) :
    Effect t (t.accept i s ind) none :=
  (effect_hfpLinkSetup hinit i (some s) ind.bdAddr (some ind.sink) .incoming).trans_quiet
    ((keepsLinks_output _ _).trans (keepsLinks_output _ _)).quiet

theorem quiet_respond (t : Task) (accept : Bool) (ind : ConnectInd) : Quiet t (t.respond accept ind) :=
  ((keepsLinks_output t _).trans (keepsLinks_output _ _)).quiet

theorem effect_connectIndOnLink (hinit : t.initialised = true) (i s : ℕ) (ind : ConnectInd) :
    Effect t (t.connectIndOnLink i s ind) (t.connectIndOnLinkResets i) := by
  rw [connectIndOnLink, connectIndOnLinkResets]
  split
  · exact (quiet_cancelFirst t _).trans_effect (effect_accept (t := t.cancelFirst _) hinit i s ind)
  · cases hstate : (t.link i).agSlcState with
    | idle => exact effect_accept hinit i s ind
    | searching =>
      have h := effect_hfpSendSlcConnectCfmToApp hinit i .failedCrossover
      exact h.trans (effect_accept h.initialised i s ind)
    | outgoing => exact (quiet_messages t _).effect hinit
    | _ => exact (quiet_respond t false ind).effect hinit

theorem effect_hfpHandleRfcommConnectInd (hinit : t.initialised = true) (ind : ConnectInd) :
    Effect t (t.hfpHandleRfcommConnectInd ind) (t.connectIndResets ind) := by
  rw [hfpHandleRfcommConnectInd, connectIndResets]
  cases t.hfpGetServiceFromChannel ind.serverChannel with
  | none => exact (quiet_respond t false ind).effect hinit
  | some s =>
    dsimp only
    split
    · exact (quiet_respond t false ind).effect hinit
    · cases t.hfpGetLinkFromBdaddr ind.bdAddr with
      | some i => exact effect_connectIndOnLink hinit i s ind
      | none =>
        cases t.hfpGetIdleLink with
        | some i => exact effect_accept hinit i s ind
        | none => exact (quiet_respond t false ind).effect hinit

theorem effect_hfpHandleRfcommConnectCfm (hinit : t.initialised = true) (bdAddr : ℕ) (sink : Sink)
    (status : RfcommConnectStatus) :
    Effect t (t.hfpHandleRfcommConnectCfm bdAddr sink status) (t.connectCfmResets bdAddr status) := by
  rw [hfpHandleRfcommConnectCfm, connectCfmResets]
  cases t.hfpGetLinkFromBdaddr bdAddr with
  | none => exact (Quiet.refl t).effect hinit
  | some i =>
    have hfailed : ∀ failure, failure ≠ .success → failure ≠ .failedBusy →
        Effect t (t.hfpSendSlcConnectCfmToApp i failure) (t.cfmResets i .failed) := by
      intro failure hsuccess hbusy
      rw [cfmResets_failed t i hsuccess hbusy]
      exact effect_hfpSendSlcConnectCfmToApp hinit i failure
    cases status with
    | success =>
      have hconnected := quiet_hfpSetLinkSlcState t i .connected
      dsimp only [bind_some]
      split
      · have h := effect_hfpSendSlcConnectCfmToApp (hconnected.initialised hinit) i .success
        rw [cfmResets, if_neg (by simp)] at h
        exact hconnected.trans_effect h
      · exact hconnected.effect hinit
    | pending =>
      have hsink := quiet_modifyLink t i (f := fun link => { link with sink := some sink }) fun _ => rfl
      exact hsink.effect hinit
    | declined => exact (Quiet.refl t).effect hinit
    | _ => exact hfailed _ (by decide) (by decide)

theorem quiet_setProfilesToTry (t : Task) (i : ℕ) (profiles : HfpProfile) :
    Quiet t (t.setProfilesToTry i profiles) := quiet_modifyLink t i fun _ => rfl

/-- The profiles that are left to try do not change whether the link is in link loss. -/
theorem cfmResets_setProfilesToTry (t : Task) (i : ℕ) (profiles : HfpProfile)
    (status : HfpConnectStatus) :
    (t.setProfilesToTry i profiles).cfmResets i status = t.cfmResets i status := by
  have hloss : ((t.setProfilesToTry i profiles).link i).agLinkLossState =
      (t.link i).agLinkLossState := by
    by_cases hi : i < t.links.length
    · rw [setProfilesToTry, link_modifyLink hi]
    · rw [link_of_length_le (Nat.le_of_not_lt hi), link_of_length_le (by
        rw [setProfilesToTry, length_modifyLink]
        exact Nat.le_of_not_lt hi)]
  rw [cfmResets, hloss, cfmResets]

theorem effect_hfpSdpRetry (hinit : t.initialised = true) (i : ℕ) :
    Effect t (t.hfpSdpRetry i) (t.retryResets i) := by
  have hprofiles := quiet_setProfilesToTry t i
    ((t.link i).agProfilesToTry &&& ~~~t.hfpLinkGetProfile (some i))
  have hservice : (t.setProfilesToTry i
      ((t.link i).agProfilesToTry &&& ~~~t.hfpLinkGetProfile (some i))).hfpGetServiceFromProfile
        ((t.link i).agProfilesToTry &&& ~~~t.hfpLinkGetProfile (some i)) =
      t.hfpGetServiceFromProfile
        ((t.link i).agProfilesToTry &&& ~~~t.hfpLinkGetProfile (some i)) := rfl
  rw [hfpSdpRetry, retryResets, hservice]
  cases t.hfpGetServiceFromProfile
      ((t.link i).agProfilesToTry &&& ~~~t.hfpLinkGetProfile (some i)) with
  | some s =>
    exact hprofiles.trans_effect
      (effect_hfpGetProfileServerChannel (hprofiles.initialised hinit) i (some s) _)
  | none =>
    rw [if_neg (by simp), ← cfmResets_setProfilesToTry]
    exact hprofiles.trans_effect
      (effect_hfpSendSlcConnectCfmToApp (hprofiles.initialised hinit) i .sdpFail)

theorem effect_hfpHandleServiceSearchAttributeCfm (hinit : t.initialised = true) (bdAddr : ℕ)
    (result : SearchResult) :
    Effect t (t.hfpHandleServiceSearchAttributeCfm bdAddr result) (t.searchResets bdAddr result) := by
  rw [hfpHandleServiceSearchAttributeCfm, searchResets]
  cases t.hfpGetLinkFromBdaddr bdAddr with
  | none => exact (Quiet.refl t).effect hinit
  | some i =>
    rw [bind_some]
    dsimp only
    split
    · cases result with
      | success channel =>
        cases channel with
        | none => exact effect_hfpSdpRetry hinit i
        | some channel =>
          exact ((quiet_hfpSetLinkSlcState t i .outgoing).trans (keepsLinks_output _ _).quiet).effect
            hinit
      | noResponseData => exact effect_hfpSdpRetry hinit i
      | connectionError =>
        have hfailed : t.cfmResets i .failed = t.cfmResets i .timeout :=
          cfmResets_failed t i (by decide) (by decide)
        rw [hfailed]
        exact effect_hfpSendSlcConnectCfmToApp hinit i .timeout
      | failed => exact effect_hfpSendSlcConnectCfmToApp hinit i .failed
    · exact (Quiet.refl t).effect hinit

/-- The timeout message that is cancelled is no reconnect message. -/
theorem abortResets_cancelFirst (t : Task) (i : ℕ) :
    (t.cancelFirst (Message.isTimeout i)).abortResets i = t.abortResets i := by
  have hany : (t.messages.eraseP (Message.isTimeout i)).any (Message.isReconnect i) =
      t.messages.any (Message.isReconnect i) := by
    induction t.messages with
    | nil => rfl
    | cons message messages ih =>
      by_cases h : Message.isTimeout i message = true
      · rw [eraseP_cons_of_pos h, any_cons]
        cases message with
        | linkLossTimeout j e => rfl
        | _ => cases h
      · rw [eraseP_cons_of_neg h, any_cons, any_cons, ih]
  rw [abortResets, abortResets]
  exact if_congr (by rw [cancelFirst, hany]) rfl rfl

theorem effect_hfpHandleDisconnectRequest (hinit : t.initialised = true) (i : ℕ) :
    Effect t (t.hfpHandleDisconnectRequest i) (t.disconnectRequestResets i) := by
  rw [hfpHandleDisconnectRequest, disconnectRequestResets]
  split
  · rw [← abortResets_cancelFirst]
    exact (quiet_cancelFirst t _).trans_effect
      (effect_hfpHandleRfcommLinkLossAbort (t := t.cancelFirst _) hinit i true)
  · split
    · exact effect_hfpSendSlcConnectCfmToApp hinit i .sdpFail
    · exact (keepsLinks_output t _).quiet.effect hinit

theorem effect_connectFrom (hinit : t.initialised = true) (i s : ℕ) (profiles : HfpProfile)
    (bdAddr : ℕ) : Effect t (t.connectFrom i s profiles bdAddr) none :=
  (quiet_setProfilesToTry t i profiles).trans_effect
    (effect_hfpGetProfileServerChannel (t := t.setProfilesToTry i profiles) hinit i (some s) bdAddr)

theorem effect_hfpSlcConnectRequest (hinit : t.initialised = true) (bdAddr : ℕ)
    (profiles firstAttempt : HfpProfile) :
    Effect t (t.hfpSlcConnectRequest bdAddr profiles firstAttempt) none := by
  have hbusy := fun out => (keepsLinks_output t out).quiet.effect hinit
  rw [hfpSlcConnectRequest]
  split
  · exact hbusy _
  · split
    · exact hbusy _
    · split
      · exact effect_connectFrom hinit _ _ _ _
      · split
        · exact effect_connectFrom hinit _ _ _ _
        · exact hbusy _

theorem effect_deliver (hinit : t.initialised = true) (message : Message) :
    Effect t (t.deliver message) (t.deliverResets message) := by
  cases message with
  | sdpRegisterReq s => exact (keepsLinks_hfpRegisterServiceRecord t s).quiet.effect hinit
  | slcDisconnectReq link =>
    cases link with
    | none => exact (keepsLinks_output t _).quiet.effect hinit
    | some i =>
      have hnone := (keepsLinks_output t (.slcDisconnectInd .noSlc (t.hfpGetLinkPriority (some i))
        ((t.hfpGetLinkBdaddr (some i)).getD 0))).quiet.effect hinit
      rw [deliver, deliverResets]
      cases (t.link i).agSlcState with
      | idle => exact hnone
      | disabled => exact hnone
      | _ => exact effect_hfpHandleDisconnectRequest hinit i
  | linkLossReconnect i episode =>
    rw [deliver, deliverResets]
    cases (t.link i).agSlcState with
    | idle => exact (Quiet.refl t).effect hinit
    | disabled => exact (Quiet.refl t).effect hinit
    | complete => exact (Quiet.refl t).effect hinit
    | _ => exact effect_hfpHandleRfcommLinkLossReconnect hinit i
  | linkLossTimeout i episode =>
    rw [deliver, deliverResets]
    cases (t.link i).agSlcState with
    | idle => exact (Quiet.refl t).effect hinit
    | disabled => exact (Quiet.refl t).effect hinit
    | complete => exact (Quiet.refl t).effect hinit
    | _ => exact effect_hfpHandleRfcommLinkLossTimeout hinit i
  | rfcommConnectInd ind => exact effect_hfpHandleRfcommConnectInd hinit ind

theorem quiet_setManageLinkloss (t : Task) (link : Option ℕ) (enable : Bool) :
    Quiet t (t.setManageLinkloss link enable) := by
  cases link with
  | none => exact Quiet.refl t
  | some i => exact quiet_modifyLink t i fun _ => rfl

theorem messages_setManageLinkloss (t : Task) (link : Option ℕ) (enable : Bool) :
    (t.setManageLinkloss link enable).messages = t.messages := by
  cases link <;> rfl

theorem effect_hfpManageLinkLoss (hinit : t.initialised = true)
    {enable : Bool} (h : t.hfpManageLinkLoss priority enable = some t') :
    Effect t t' (t.resets (.manageLinkLoss priority enable)) := by
  have hmanage := quiet_setManageLinkloss t (t.hfpGetLinkFromPriority priority) enable
  rw [hfpManageLinkLoss] at h
  rw [resets]
  by_cases hpriority : priority = .invalidLink
  · rw [if_neg (not_not.mpr hpriority)] at h
    obtain rfl := some.inj h
    rw [if_neg fun hall => hall.1 hpriority]
    exact (Quiet.refl t).effect hinit
  · rw [if_pos hpriority] at h
    by_cases hlost : priority = t.hfpLinkLossLinkPriority ∧ enable = false
    · rw [if_pos hlost] at h
      split at h
      · obtain rfl := some.inj h
        rw [if_pos ⟨hpriority, hlost⟩, hlost.1]
        have heffect := effect_hfpHandleRfcommLinkLossAbort (hmanage.initialised hinit)
          (priorityIndex t.hfpLinkLossLinkPriority) true
        rw [abortResets, messages_setManageLinkloss, hlost.1] at heffect
        rw [hlost.1] at hmanage
        exact hmanage.trans_effect heffect
      · cases h
    · rw [if_neg hlost] at h
      obtain rfl := some.inj h
      rw [if_neg fun hall => hlost hall.2]
      exact hmanage.effect hinit

theorem quiet_hfpLinkDisable (t : Task) (link : Option ℕ) (disable : Bool) :
    Quiet t (t.hfpLinkDisable link disable) := by
  cases link with
  | none => exact Quiet.refl t
  | some i =>
    rw [hfpLinkDisable]
    split
    · split
      · exact quiet_hfpSetLinkSlcState t i .disabled
      · exact Quiet.refl t
    · split
      · exact quiet_hfpSetLinkSlcState t i .idle
      · exact Quiet.refl t

theorem quiet_hfpLinkSetMaxConnections (t : Task) (maxConnections : ℕ) :
    Quiet t (t.hfpLinkSetMaxConnections maxConnections) := by
  rw [hfpLinkSetMaxConnections]
  split
  · exact Quiet.refl t
  · split
    · exact quiet_hfpLinkDisable t _ false
    · exact quiet_hfpLinkDisable t _ true

variable {e : Event}

/-- Every event but a change of a call takes a link down or leaves the priorities. -/
theorem effect_stepRun (hinit : t.initialised = true) (h : stepRun t e = some t')
    (hcall : ∀ i callState, e ≠ .callState i callState) : Effect t t' (t.resets e) := by
  cases e with try obtain rfl := some.inj h
  | slcConnectRequest bdAddr profiles firstAttempt =>
    exact effect_hfpSlcConnectRequest hinit bdAddr profiles firstAttempt
  | slcDisconnectRequest priority => exact (quiet_messages t _).effect hinit
  | manageLinkLoss priority enable => exact effect_hfpManageLinkLoss hinit h
  | linkSetMaxConnections maxConnections =>
    exact (quiet_hfpLinkSetMaxConnections t maxConnections).effect hinit
  | rfcommConnectInd ind => exact effect_hfpHandleRfcommConnectInd hinit ind
  | rfcommConnectCfm bdAddr sink status => exact effect_hfpHandleRfcommConnectCfm hinit bdAddr sink status
  | rfcommDisconnectInd sink status =>
    obtain ⟨i, hi, rfl⟩ := map_eq_some_iff.mp h
    rw [resets, hi]
    exact effect_hfpHandleRfcommDisconnect hinit i status
  | rfcommDisconnectCfm sink status =>
    rw [stepRun] at h
    rw [resets]
    split at h
    · next hunknown =>
      obtain rfl := some.inj h
      rw [if_pos hunknown]
      exact (Quiet.refl t).effect hinit
    · next hknown =>
      obtain ⟨i, hi, rfl⟩ := map_eq_some_iff.mp h
      rw [if_neg hknown, hi]
      exact effect_hfpHandleRfcommDisconnect hinit i status
  | serviceSearchAttributeCfm bdAddr result =>
    exact effect_hfpHandleServiceSearchAttributeCfm hinit bdAddr result
  | slcEstablished i =>
    rw [stepRun] at h
    split at h
    · obtain rfl := some.inj h
      have heffect := effect_hfpSendSlcConnectCfmToApp hinit i .success
      rwa [cfmResets, if_neg (by simp)] at heffect
    · cases h
  | slcAtFailed i =>
    rw [stepRun] at h
    split at h
    · obtain rfl := some.inj h
      exact (quiet_messages t _).effect hinit
    · obtain rfl := some.inj h
      exact (Quiet.refl t).effect hinit
  | callState i callState => exact absurd rfl (hcall i callState)
  | deliver message =>
    rw [stepRun] at h
    split at h
    · obtain rfl := some.inj h
      exact (quiet_messages t _).trans_effect
        (effect_deliver (t := { t with messages := t.messages.erase message }) hinit message)
    · cases h
  | rfcommRegisterCfm success channel => exact (Quiet.refl t).effect hinit
  | sdpRegisterCfm success handle =>
    exact (keepsLinks_hfpHandleSdpRegisterCfm t success handle).quiet.effect hinit
  | sdpUnregisterCfm success handle =>
    exact (keepsLinks_handleSdpUnregisterCfm t success handle).quiet.effect hinit

theorem table_hfpSetLinkCallState (t : Task) (i : ℕ) (callState : HfpCallState) :
    (t.hfpSetLinkCallState i callState).table = t.table.call i callState := by
  have hrow : t.table.row i = (t.link i).row := row_table t i
  rw [hfpSetLinkCallState, Table.call, hrow]
  by_cases hchange : (t.link i).agCallState ≠ callState
  · rw [if_pos hchange, if_pos (show (t.link i).row.callState ≠ callState from hchange), Task.table,
      modifyLink, map_row_modify (g := fun row => { row with callState := callState }) fun _ => rfl]
    rfl
  · rw [if_neg hchange, if_neg (show ¬(t.link i).row.callState ≠ callState from hchange)]

/-! ### Runs -/

theorem lt_of_hfpGetLinkFromBdaddr {bdAddr i : ℕ} (h : t.hfpGetLinkFromBdaddr bdAddr = some i) :
    i < t.links.length :=
  (List.findIdx?_eq_some_iff_getElem.mp h).1

theorem lt_of_hfpGetLinkFromSink {sink : Sink} (h : t.hfpGetLinkFromSink sink = some i) :
    i < t.links.length :=
  (List.findIdx?_eq_some_iff_getElem.mp h).1

variable {r : ℕ × Bool}

theorem eq_of_cfmResets (h : t.cfmResets i status = some r) : r.1 = i := by
  rw [cfmResets] at h
  split at h
  · exact (congrArg Prod.fst (some.inj h)).symm
  · cases h

theorem eq_of_abortResets (h : t.abortResets i = some r) : r.1 = i := by
  rw [abortResets] at h
  split at h
  · exact (congrArg Prod.fst (some.inj h)).symm
  · cases h

theorem eq_of_disconnectRequestResets (h : t.disconnectRequestResets i = some r) : r.1 = i := by
  rw [disconnectRequestResets] at h
  split at h
  · exact eq_of_abortResets h
  · split at h
    · exact eq_of_cfmResets h
    · cases h

theorem eq_of_disconnectResets {status : RfcommDisconnectStatus}
    (h : t.disconnectResets i status = some r) : r.1 = i := by
  rw [disconnectResets] at h
  split at h
  · exact eq_of_cfmResets h
  · exact (congrArg Prod.fst (some.inj h)).symm

theorem lt_of_connectIndResets {ind : ConnectInd}
    (h : t.connectIndResets ind = some r) : r.1 < t.links.length := by
  rw [connectIndResets] at h
  split at h
  · cases h
  · split at h
    · cases h
    · obtain ⟨i, hi, hr⟩ := bind_eq_some_iff.mp h
      rw [connectIndOnLinkResets] at hr
      split at hr
      · cases hr
      · split at hr
        · rw [eq_of_cfmResets hr]
          exact lt_of_hfpGetLinkFromBdaddr hi
        · cases hr

theorem lt_of_deliverResets {message : Message}
    (h : t.deliverResets message = some r) : r.1 < t.links.length := by
  cases message with
  | sdpRegisterReq s => cases h
  | slcDisconnectReq link =>
    cases link with
    | none => cases h
    | some i =>
      rw [deliverResets] at h
      split at h
      · cases h
      · cases h
      · next hidle _ =>
        rw [eq_of_disconnectRequestResets h]
        exact lt_of_agSlcState_ne hidle
  | linkLossReconnect i episode =>
    rw [deliverResets] at h
    split at h
    · cases h
    · cases h
    · cases h
    · next hidle _ _ =>
      rw [← congrArg Prod.fst (some.inj h)]
      exact lt_of_agSlcState_ne hidle
  | linkLossTimeout i episode =>
    rw [deliverResets] at h
    split at h
    · cases h
    · cases h
    · cases h
    · next hidle _ _ =>
      rw [eq_of_abortResets h]
      exact lt_of_agSlcState_ne hidle
  | rfcommConnectInd ind => exact lt_of_connectIndResets h

/-- Only a link is taken down. -/
theorem lt_of_resets (h : stepRun t e = some t')
    (hr : t.resets e = some r) : r.1 < t.links.length := by
  cases e with
  | manageLinkLoss priority enable =>
    rw [resets] at hr
    split at hr
    · next hlost =>
      rw [stepRun, hfpManageLinkLoss, if_pos hlost.1, if_pos hlost.2] at h
      split at h
      · next hlt =>
        rw [eq_of_abortResets hr, hlost.2.1]
        exact hlt
      · cases h
    · cases hr
  | rfcommConnectInd ind => exact lt_of_connectIndResets hr
  | rfcommConnectCfm bdAddr sink status =>
    obtain ⟨i, hi, hr⟩ := bind_eq_some_iff.mp hr
    have hcfm : t.cfmResets i .failed = some r := by
      cases status <;> first | cases hr | exact hr
    rw [eq_of_cfmResets hcfm]
    exact lt_of_hfpGetLinkFromBdaddr hi
  | rfcommDisconnectInd sink status =>
    obtain ⟨i, hi, hr⟩ := bind_eq_some_iff.mp hr
    rw [eq_of_disconnectResets hr]
    exact lt_of_hfpGetLinkFromSink hi
  | rfcommDisconnectCfm sink status =>
    rw [resets] at hr
    split at hr
    · cases hr
    · obtain ⟨i, hi, hr⟩ := bind_eq_some_iff.mp hr
      rw [eq_of_disconnectResets hr]
      exact lt_of_hfpGetLinkFromSink hi
  | serviceSearchAttributeCfm bdAddr result =>
    obtain ⟨i, hi, hr⟩ := bind_eq_some_iff.mp hr
    split at hr
    · have hcfm : ∃ status, t.cfmResets i status = some r := by
        have hretry : t.retryResets i = some r → ∃ status, t.cfmResets i status = some r := by
          intro hretry
          rw [retryResets] at hretry
          split at hretry
          · cases hretry
          · exact ⟨_, hretry⟩
        cases result with
        | success channel =>
          cases channel with
          | none => exact hretry hr
          | some channel => cases hr
        | noResponseData => exact hretry hr
        | connectionError => exact ⟨_, hr⟩
        | failed => exact ⟨_, hr⟩
      obtain ⟨status, hcfm⟩ := hcfm
      rw [eq_of_cfmResets hcfm]
      exact lt_of_hfpGetLinkFromBdaddr hi
    · cases hr
  | deliver message =>
    exact lt_of_deliverResets (t := { t with messages := t.messages.erase message }) hr
  | _ => cases hr

/-- What the priorities need besides. -/
structure Managed (t : Task) : Prop where
  sound : t.table.Sound
  initialised : t.initialised = true
  length : t.links.length ≤ 2

theorem length_rows (t : Task) : t.table.rows.length = t.links.length := length_map _

/-- Whenever a link is taken down, it can go down. -/
def CanReset (t : Task) (e : Event) : Prop :=
  ∀ r, t.resets e = some r → t.table.CanClear r.1 r.2

/-- Links that get a priority one after the other. -/
theorem sound_foldl_assign (h : T.Sound) (hlen : T.rows.length ≤ 2) (links : List ℕ) :
    (links.foldl Table.assign T).Sound ∧ (links.foldl Table.assign T).rows.length ≤ 2 := by
  induction links generalizing T with
  | nil => exact ⟨h, hlen⟩
  | cons i links ih =>
    refine ih (Table.sound_assign h hlen i) ?_
    rw [Table.length_assign]
    exact hlen

theorem managed_effect {r : Option (ℕ × Bool)} (h : t.Managed) (heffect : Effect t t' r)
    (hlt : ∀ q, r = some q → q.1 < t.links.length)
    (hclear : ∀ q, r = some q → t.table.CanClear q.1 q.2) : t'.Managed := by
  obtain ⟨⟨links, hlinks⟩, hinit⟩ := heffect
  have hlen : t.table.rows.length ≤ 2 := (length_rows t).trans_le h.length
  have hdown : (r.elim t.table fun r => t.table.clear r.1 r.2).Sound ∧
      (r.elim t.table fun r => t.table.clear r.1 r.2).rows.length ≤ 2 := by
    cases r with
    | none => exact ⟨h.sound, hlen⟩
    | some q =>
      obtain ⟨i, reassign⟩ := q
      have hi : i < t.table.rows.length := (hlt _ rfl).trans_eq (length_rows t).symm
      refine ⟨?_, (Table.length_clear _ _ _).trans_le hlen⟩
      cases reassign with
      | true => exact Table.sound_clear_true h.sound hlen hi (hclear _ rfl)
      | false => exact Table.sound_clear_false h.sound hlen hi (hclear _ rfl)
  have hassign := sound_foldl_assign hdown.1 hdown.2 links
  rw [← hlinks] at hassign
  exact ⟨hassign.1, hinit, (length_rows t').symm.trans_le hassign.2⟩

theorem managed_callState (h : t.Managed) (hi : i < t.links.length)
    (callState : HfpCallState) : (t.hfpSetLinkCallState i callState).Managed := by
  have hlen : t.table.rows.length ≤ 2 := (length_rows t).trans_le h.length
  refine ⟨?_, ?_, ?_⟩
  · rw [table_hfpSetLinkCallState]
    exact Table.sound_call h.sound hlen (hi.trans_eq (length_rows t).symm) callState
  · rw [hfpSetLinkCallState]
    split
    · exact h.initialised
    · exact h.initialised
  · rw [← length_rows, table_hfpSetLinkCallState, Table.length_call]
    exact hlen

theorem managed_step (h : t.Managed) (hok : t.CanReset e) (hstep : step t e = some t') :
    t'.Managed := by
  have hrun : stepRun t e = some t' := by
    rw [step] at hstep
    split at hstep
    · cases hstep
    · rwa [if_pos h.initialised] at hstep
  by_cases hcall : ∀ i callState, e ≠ .callState i callState
  · exact managed_effect h (effect_stepRun h.initialised hrun hcall)
      (fun q => lt_of_resets hrun) hok
  · push Not at hcall
    obtain ⟨i, callState, rfl⟩ := hcall
    rw [stepRun] at hrun
    split at hrun
    · next hi =>
      obtain rfl := some.inj hrun
      exact managed_callState h hi callState
    · cases hrun

/-- The task once it has been initialised, with one or two links and no connections. -/
structure Configured (t : Task) : Prop where
  initialised : t.initialised = true
  links : t.links.length ≤ 2
  priorities : ∀ link ∈ t.links, link.priority = .invalidLink
  firstIncomingCall : t.firstIncomingCall = .invalidLink

theorem managed_start (h : Configured t) : t.Managed := by
  have hnone : ∀ row ∈ t.table.rows, row.priority = .invalidLink := by
    intro row hrow
    obtain ⟨link, hlink, rfl⟩ := List.mem_map.mp hrow
    exact h.priorities link hlink
  have hcount : ∀ priority, priority ≠ .invalidLink →
      t.table.rows.countP (fun row => row.priority = priority) = 0 := by
    intro priority hpriority
    refine countP_eq_zero.mpr ?_
    intro row hrow hset
    exact hpriority ((of_decide_eq_true hset).symm.trans (hnone row hrow))
  refine ⟨⟨?_, ?_, ?_, fun hfirst => absurd h.firstIncomingCall hfirst⟩, h.initialised, h.links⟩
  · exact (hcount .primaryLink (by decide)).trans_le (Nat.zero_le 1)
  · exact (hcount .secondaryLink (by decide)).trans_le (Nat.zero_le 1)
  · intro hhas
    obtain ⟨row, hrow, hset⟩ := List.any_eq_true.mp hhas
    exact absurd ((of_decide_eq_true hset).symm.trans (hnone row hrow)) HfpLinkPriority.noConfusion

/-- **Link priorities.** As long as no link goes down that the first incoming call is on, nor passes
its priority on to another call, there is one primary link and one secondary link at most, the
secondary one beside the primary one, and the first incoming call is an incoming call. -/
theorem sound_of_run {es : List Event} (hstart : Configured t)
    (hok : Lib.RunMeets step CanReset t es) (hrun : Lib.run step t es = some t') :
    t'.table.Sound :=
  (Lib.run_invariant (fun _ _ _ => managed_step) (managed_start hstart) hok hrun).sound

instance (T : Table) (i : ℕ) (reassign : Bool) : Decidable (T.CanClear i reassign) :=
  inferInstanceAs (Decidable (T.first ≠ .invalidLink → (T.row i).priority ≠ .invalidLink →
    if (T.row i).priority = T.first then
      reassign = true ∧ T.first = .primaryLink ∧
        ∃ row ∈ T.rows, row.priority = .secondaryLink ∧ row.callState = .incoming
    else reassign = true → T.first = .primaryLink))

instance (t : Task) (e : Event) : Decidable (t.CanReset e) :=
  match h : t.resets e with
  | none => .isTrue fun r hr => by rw [h] at hr; cases hr
  | some r =>
    decidable_of_iff (t.table.CanClear r.1 r.2)
      ⟨fun hclear r' hr' => some.inj (h.symm.trans hr') ▸ hclear, fun hall => hall r h⟩

/-- Two links, and a service of each profile. -/
def twoLinks : Task where
  initialised := true
  freed := false
  linkLossTime := 600
  firstIncomingCall := .invalidLink
  busyChannel := 0
  links := [LinkData.zero true, LinkData.zero true]
  services := [⟨1, 0x0A, hfpHandsfreeProfile, false⟩, ⟨2, 0x0B, hfpHeadsetAll, false⟩]
  rfcommIndex := 1
  messages := []
  episodes := 0
  log := []

theorem configured_twoLinks : Configured twoLinks := ⟨rfl, Nat.le_refl 2, by decide, rfl⟩

/-- Two devices connect, and a call comes in on the first one. -/
def twoDevices : List Event :=
  [.rfcommConnectInd ⟨11, 0x0A, ⟨1, 11⟩⟩, .slcEstablished 0,
    .rfcommConnectInd ⟨12, 0x0B, ⟨2, 12⟩⟩, .slcEstablished 1, .callState 0 .incoming]

/-- The task after `es`. -/
def afterTwoLinks (es : List Event) : Task := (Lib.run step twoLinks es).getD twoLinks

/-- The call is answered, and the device goes away: the other link is promoted. -/
def answered : List Event :=
  twoDevices ++ [.callState 0 .active, .rfcommDisconnectInd ⟨1, 11⟩ .success]

theorem sound_of_run_answered : (afterTwoLinks answered).table.Sound :=
  @sound_of_run _ _ answered configured_twoLinks (by decide) (by decide)

/-- The device goes away while the call comes in: the other link gets its priority, and has no
call. -/
theorem not_sound_of_run : ¬ ∀ es t', Lib.run step twoLinks es = some t' → t'.table.Sound := by
  intro hall
  have hsound := hall (twoDevices ++ [.rfcommDisconnectInd ⟨1, 11⟩ .success])
    (afterTwoLinks (twoDevices ++ [.rfcommDisconnectInd ⟨1, 11⟩ .success])) (by decide)
  have hfirst := hsound.first (by decide)
  exact absurd hfirst (by decide)

end Task

end Cbps.HfpLink
