import Cbps.Ancs.Client
import Mathlib.Data.List.Infix

/-!
# The control point, served in order

What is promised of the control point: one write at a time, and for each request one confirm with the result of its own
write, in the order of the requests; and a handler of a notification that reads what was received and no more. Two
things break the order. An action leaves no command pending, so that its write has no confirm and the next request does
not wait for it. A notification of the data source confirms the request under way before its write is answered.
`serves_iff` says which runs are served, and which notifications are read in bounds.
-/

namespace Cbps.Ancs

open List Option

open Cbps.Lib

variable {s s' : Session} {e : Event} {r : Request} {w : Write}

/-- The confirm that a result calls for. -/
def cfmOf (result : Request × Status) : WriteCpCfm := ⟨result.1.commandId, result.2⟩

/-- The notification of a request. -/
def Request.uid? : Request → Option ℕ
  | .getNotificationAttributes uid _ | .performNotificationAction uid _ => some uid
  | .getAppAttributes _ _ => none

/-- Where the notification stands in the octets received. -/
def AppInd.uidPlace : AppInd → ℕ
  | ns _ _ _ _ _ => 4
  | _ => 1

namespace Session

/-- **The promise** of every state. A write that is under way may have been confirmed already. -/
structure Served (s : Session) : Prop where
  serial : s.writes.length ≤ 1
  kept : s.requests = s.results.map Prod.fst ++ s.writes.map Write.request ++ s.queue
  told : s.cfms = s.results.map cfmOf ∨
    ∃ w status, s.writes = [w] ∧ s.cfms = s.results.map cfmOf ++ [⟨w.request.commandId, status⟩]

/-- A notification that was reported is written as the four octets received. -/
def GivesBack (s : Session) : Prop :=
  ∀ ancs ind h, handleAncsNotification ancs ind = some h → ∀ i ∈ h.ind, ∀ uid, i.uid? = some uid →
    ∀ w ∈ s.writes, w.request.uid? = some uid → (w.value.drop 1).take 4 = (ind.value.drop i.uidPlace).take 4

/-- Every run is served, and no handler reads behind what was received. -/
def AlwaysServes : Prop :=
  ∀ notificationSource controlPoint dataSource mask es s,
    run step (initial notificationSource controlPoint dataSource mask) es = some s →
      s.Served ∧ (∀ ind, handleAncsNotification s.ancs ind ≠ none) ∧ s.GivesBack

/-- The condition on a step: no application without a name, no action that is written, no request that is taken from the
queue before the last write is answered, and no failure of a write that has been confirmed. -/
def Admits (s : Session) : Event → Prop
  | .request r => r.isSent = true
  | .deliver => s.queue ≠ [] → s.ancs.pendingCmd = .none → s.writes = []
  | .confirm n gattStatus => ∀ w ∈ s.writes[n]?, w.request.pendingCmd ≠ .none ∧
      (s.ancs.pendingCmd = .none → getAncsErrorCode gattStatus = .success)
  | .notification _ => True

end Session

/-- The condition on a notification: eight octets for the notification source, or three in a category that is not asked
for; five octets for attributes, and an application identifier that ends. -/
def Fits (ancs : Gancs) (ind : NotificationInd) : Prop :=
  if ind.value = [] then True
  else if ind.handle = ancs.notificationSource then
    3 ≤ ind.value.length ∧ (ancs.nsNotificationMask.testBit (ind.value.getD 2 0).toNat = true → 8 ≤ ind.value.length)
  else if ind.handle = ancs.dataSource then
    (ind.value.head? = some 0 → 5 ≤ ind.value.length) ∧ (ind.value.head? = some 1 → 0 ∈ ind.value.tail)
  else True

/-! ### Notifications in bounds -/

variable {value : List UInt8}

theorem received {i : ℕ} (h : i < value.length) : value[i]? = some (value.getD i 0) := by
  rw [getD_eq_getElem?_getD, List.getElem?_eq_getElem h]
  rfl

theorem handleNs_ne_none (mask : ℕ) (value : List UInt8) :
    handleNs mask value ≠ none ↔
      3 ≤ value.length ∧ (mask.testBit (value.getD 2 0).toNat = true → 8 ≤ value.length) := by
  rw [handleNs]
  by_cases h3 : 3 ≤ value.length
  · rw [received (by omega : 2 < value.length), and_iff_right h3]
    simp only [bind_eq_bind, bind_some]
    split
    · next hmask =>
      rw [forall_prop_of_true hmask]
      constructor
      · intro h
        by_contra h8
        have h7 : value[7]? = none := List.getElem?_eq_none (by omega)
        simp [h7] at h
      · intro h8
        rw [received (by omega : 0 < value.length), received (by omega : 1 < value.length),
          received (by omega : 3 < value.length), received (by omega : 4 < value.length),
          received (by omega : 5 < value.length), received (by omega : 6 < value.length),
          received (by omega : 7 < value.length)]
        nofun
    · next hmask => exact iff_of_true nofun fun h => absurd h hmask
  · have h2 : value[2]? = none := List.getElem?_eq_none (by omega)
    rw [h2]
    exact iff_of_false (fun h => h rfl) fun h => h3 h.1

theorem memcpy_ne_none (value : List UInt8) (start count : ℕ) :
    memcpy value start count ≠ none ↔ start + count ≤ value.length := by
  rw [memcpy]
  split
  · next h => exact iff_of_true nofun h
  · next h => exact iff_of_false (fun hn => hn rfl) h

/-- The loop finds a zero behind its start if one was received, and else reads on. -/
theorem appIdLen_eq (hsize : value.length < 2 ^ 16) (fuel n : ℕ) (hn : n < value.length)
    (hfuel : value.length ≤ fuel + n) :
    (0 ∉ value.drop (n + 1) → appIdLen value fuel n = none) ∧
      (0 ∈ value.drop (n + 1) → ∃ k, appIdLen value fuel n = some k ∧ k + 1 < value.length) := by
  induction fuel generalizing n with
  | zero => omega
  | succ fuel ih =>
    rw [appIdLen]
    by_cases hlast : n + 1 < value.length
    · have hdrop : value.drop (n + 1) = value[n + 1] :: value.drop (n + 1 + 1) := drop_eq_getElem_cons hlast
      rw [List.getElem?_eq_getElem hlast, hdrop]
      simp only [bind_eq_bind, bind_some, mem_cons, not_or]
      by_cases hzero : value[n + 1] = 0
      · rw [if_neg (fun h => h.1 hzero)]
        exact ⟨fun h => absurd hzero.symm h.1, fun _ => ⟨n, rfl, hlast⟩⟩
      · rw [if_pos ⟨hzero, by omega⟩]
        obtain ⟨hnone, hsome⟩ := ih (n + 1) hlast (by omega)
        refine ⟨fun h => hnone h.2, fun h => hsome ?_⟩
        exact h.resolve_left fun h => hzero h.symm
    · rw [List.getElem?_eq_none (by omega), drop_eq_nil_of_le (by omega)]
      exact ⟨fun _ => rfl, nofun⟩

theorem handleDs_ne_none (hsize : value.length < 2 ^ 16) (hne : value ≠ []) :
    handleDs value ≠ none ↔
      (value.head? = some 0 → 5 ≤ value.length) ∧ (value.head? = some 1 → 0 ∈ value.tail) := by
  obtain ⟨command, rest, hvalue⟩ := exists_cons_of_ne_nil hne
  have hhead : value[0]? = some command := by rw [hvalue]; rfl
  rw [handleDs, hhead]
  simp only [bind_eq_bind, bind_some, hvalue, List.head?_cons, some.injEq, tail_cons]
  rw [← hvalue]
  by_cases hattr : command = 0
  · have happ : command ≠ 1 := by rw [hattr]; decide
    rw [if_pos hattr, forall_prop_of_true hattr, and_iff_left fun h => absurd h happ]
    constructor
    · intro h
      by_contra h5
      have h4 : value[4]? = none := List.getElem?_eq_none (by omega)
      simp [h4] at h
    · intro h5
      have hcopy : memcpy value 5 ((value.length + 2 ^ 16 - 5) % 2 ^ 16) ≠ none := by
        rw [memcpy_ne_none]
        omega
      obtain ⟨attributes, hattributes⟩ := ne_none_iff_exists'.mp hcopy
      rw [received (by omega : 1 < value.length), received (by omega : 2 < value.length),
        received (by omega : 3 < value.length), received (by omega : 4 < value.length), hattributes]
      nofun
  · rw [if_neg hattr, and_iff_right fun h => absurd h hattr]
    by_cases happ : command = 1
    · rw [if_pos happ, forall_prop_of_true happ]
      have hrest : value.drop (0 + 1) = rest := by rw [hvalue]; rfl
      have hlen : value.length = rest.length + 1 := by rw [hvalue]; rfl
      obtain ⟨hnone, hsome⟩ := appIdLen_eq hsize (2 ^ 16) 0 (by omega) (by omega)
      rw [hrest] at hnone hsome
      constructor
      · intro h
        by_contra hzero
        rw [hnone hzero] at h
        exact h rfl
      · intro hzero
        obtain ⟨k, hk, hlt⟩ := hsome hzero
        obtain ⟨appId, happId⟩ := ne_none_iff_exists'.mp ((memcpy_ne_none value 1 (k + 1)).mpr (by omega))
        obtain ⟨attributes, hattributes⟩ := ne_none_iff_exists'.mp
          ((memcpy_ne_none value (k + 2) (value.length - 1 - k - 1)).mpr (by omega))
        rw [hk]
        simp only [bind_some]
        rw [if_pos (by omega), happId, hattributes]
        nofun
    · rw [if_neg happ]
      exact iff_of_true nofun fun h => absurd h happ

/-- **What is read in bounds.** -/
theorem handleAncsNotification_ne_none (ancs : Gancs) (ind : NotificationInd) :
    handleAncsNotification ancs ind ≠ none ↔ Fits ancs ind := by
  rw [handleAncsNotification, Fits]
  by_cases hempty : ind.value = []
  · rw [if_pos hempty, if_pos hempty]
    exact iff_of_true nofun trivial
  rw [if_neg hempty, if_neg hempty]
  by_cases hns : ind.handle = ancs.notificationSource
  · rw [if_pos hns, if_pos hns, ← handleNs_ne_none, ne_eq, ne_eq, map_eq_none_iff]
  rw [if_neg hns, if_neg hns]
  by_cases hds : ind.handle = ancs.dataSource
  · rw [if_pos hds, if_pos hds, ← handleDs_ne_none ind.fits hempty]
    generalize (if ancs.pendingCmd ≠ .none then _ else _ : Gancs × Option WriteCpCfm) = sent
    exact not_congr map_eq_none_iff
  · rw [if_neg hds, if_neg hds]
    exact iff_of_true nofun trivial

/-! ### One step -/

variable {ind : NotificationInd} {ancs : Gancs} {h : Handled}

namespace Session

/-- A write is waited for, or it has been confirmed with success. -/
def Waits (s : Session) (w : Write) : Prop :=
  (s.ancs.pendingCmd = w.request.pendingCmd ∧ s.cfms = s.results.map cfmOf) ∨
    (w.request.pendingCmd ≠ .none ∧ s.ancs.pendingCmd = .none ∧
      s.cfms = s.results.map cfmOf ++ [⟨w.request.commandId, .success⟩])

/-- What holds as long as a run is served. -/
structure Sound (s : Session) : Prop where
  kept : s.requests = s.results.map Prod.fst ++ s.writes.map Write.request ++ s.queue
  way : (s.writes = [] ∧ s.ancs.pendingCmd = .none ∧ s.cfms = s.results.map cfmOf) ∨
    ∃ w, s.writes = [w] ∧ s.Waits w

theorem Sound.served (h : s.Sound) : s.Served := by
  rcases h.way with ⟨hwrites, -, hcfms⟩ | ⟨w, hwrites, ⟨-, hcfms⟩ | ⟨-, -, hcfms⟩⟩
  · exact ⟨by rw [hwrites]; exact Nat.zero_le 1, h.kept, .inl hcfms⟩
  · exact ⟨by rw [hwrites]; exact le_rfl, h.kept, .inl hcfms⟩
  · exact ⟨by rw [hwrites]; exact le_rfl, h.kept, .inr ⟨w, _, hwrites, hcfms⟩⟩

theorem commandId_pendingCmd (r : Request) : r.pendingCmd.commandId = r.commandId := by
  cases r <;> rfl

/-- A request that is sent waits in the queue. -/
theorem Sound.request (h : s.Sound) (hsent : r.isSent = true) : (s.request r).Sound where
  kept := by
    simp only [Session.request, hsent, if_true, h.kept, List.append_assoc]
  way := h.way

/-- A request that is not sent is lost. -/
theorem Sound.not_served_request (h : s.Sound) (hsent : r.isSent ≠ true) : ¬ (s.request r).Served := by
  intro hserved
  have hkept := hserved.kept
  simp only [Session.request, if_neg hsent, append_nil, ← h.kept] at hkept
  simp at hkept

variable {queue : List Request}

/-- A request is taken from the queue and written, or answered at once. -/
theorem Sound.write (h : s.Sound) (hqueue : s.queue = r :: queue) (hwrites : s.writes = []) :
    ({ s with queue := queue }.write r).Sound := by
  have hcfms : s.cfms = s.results.map cfmOf := by
    rcases h.way with ⟨-, -, hcfms⟩ | ⟨w, hw, -⟩
    · exact hcfms
    · rw [hwrites] at hw
      contradiction
  have hkept := h.kept
  rw [hwrites, hqueue, map_nil, append_nil] at hkept
  rw [Session.write]
  dsimp only
  split
  · exact ⟨by simp [hkept, hwrites], .inr ⟨_, by rw [hwrites]; rfl, .inl ⟨rfl, hcfms⟩⟩⟩
  · refine ⟨by simp [hkept, hwrites], .inl ⟨hwrites, rfl, ?_⟩⟩
    simp only [makeAncsWriteCPCfmMsg, hcfms, map_append, map_cons, map_nil, cfmOf, commandId_pendingCmd]

/-- The writes under way are those of the control point. -/
def Wired (s : Session) : Prop :=
  ∀ w ∈ s.writes, checkValidHandle s.ancs.controlPoint ∧ w.handle = s.ancs.controlPoint ∧
    w.value = w.request.commandData

/-- A notification confirms the command that is pending, or leaves the client alone. -/
theorem handleAncsNotification_cases (hh : handleAncsNotification ancs ind = some h) :
    (h.ancs = ancs ∧ h.cfm = none) ∨
      (ancs.pendingCmd ≠ .none ∧ h.ancs = { ancs with pendingCmd := .none } ∧
        h.cfm = some ⟨ancs.pendingCmd.commandId, .success⟩) := by
  rw [handleAncsNotification] at hh
  split at hh
  · obtain rfl := some.inj hh
    exact .inl ⟨rfl, rfl⟩
  split at hh
  · obtain ⟨told, -, rfl⟩ := map_eq_some_iff.mp hh
    exact .inl ⟨rfl, rfl⟩
  split at hh
  · by_cases hpending : ancs.pendingCmd ≠ .none
    · simp only [if_pos hpending] at hh
      obtain ⟨told, -, rfl⟩ := map_eq_some_iff.mp hh
      exact .inr ⟨hpending, rfl, rfl⟩
    · simp only [if_neg hpending] at hh
      obtain ⟨told, -, rfl⟩ := map_eq_some_iff.mp hh
      exact .inl ⟨rfl, rfl⟩
  · obtain rfl := some.inj hh
    exact .inl ⟨rfl, rfl⟩

theorem handleAncsNotification_controlPoint
    (hh : handleAncsNotification ancs ind = some h) : h.ancs.controlPoint = ancs.controlPoint := by
  rcases handleAncsNotification_cases hh with ⟨hancs, -⟩ | ⟨-, hancs, -⟩ <;> rw [hancs]

theorem handleAncsWriteValueResp_controlPoint (ancs : Gancs) (gattStatus : ℕ) :
    (handleAncsWriteValueResp ancs gattStatus).1.controlPoint = ancs.controlPoint := by
  rw [handleAncsWriteValueResp]
  split <;> rfl

/-- **Every step** writes the control point only. -/
theorem Wired.step (h : s.Wired) (hs : s.step e = some s') : s'.Wired := by
  cases e with
  | request r =>
    obtain rfl := some.inj hs
    exact h
  | deliver =>
    rw [Session.step] at hs
    split at hs
    · contradiction
    next r queue hqueue =>
    split at hs
    · obtain rfl := some.inj hs
      rw [Session.write]
      dsimp only
      split
      · next hvalid =>
        intro w hw
        rcases mem_append.mp hw with hw | hw
        · exact h w hw
        · obtain rfl := mem_singleton.mp hw
          exact ⟨hvalid, rfl, rfl⟩
      · exact h
    · contradiction
  | confirm n gattStatus =>
    obtain ⟨w, -, rfl⟩ := map_eq_some_iff.mp hs
    intro v hv
    have hmem := h v (mem_of_mem_eraseIdx hv)
    have hsame := handleAncsWriteValueResp_controlPoint s.ancs gattStatus
    rw [← hsame] at hmem
    exact hmem
  | notification ind =>
    obtain ⟨handled, hhandled, rfl⟩ := map_eq_some_iff.mp hs
    intro w hw
    have hmem := h w hw
    rw [← handleAncsNotification_controlPoint hhandled] at hmem
    exact hmem

/-- A second write is not served in order. -/
theorem Sound.not_served_write (h : s.Sound) (hwired : s.Wired) (hwrites : s.writes ≠ []) :
    ¬ ({ s with queue := queue }.write r).Served := by
  intro hserved
  rcases h.way with ⟨hnil, -⟩ | ⟨w, hw, -⟩
  · exact hwrites hnil
  have hvalid : checkValidHandle s.ancs.controlPoint := (hwired w (by rw [hw]; exact mem_singleton.mpr rfl)).1
  have hserial := hserved.serial
  rw [Session.write] at hserial
  dsimp only at hserial
  rw [if_pos hvalid, hw] at hserial
  simp at hserial

/-- The answer of the write under way. -/
theorem Sound.alone (h : s.Sound) {n : ℕ} (hw : s.writes[n]? = some w) : n = 0 ∧ s.writes = [w] ∧ s.Waits w := by
  rcases h.way with ⟨hnil, -⟩ | ⟨v, hv, hwaits⟩
  · rw [hnil] at hw
    contradiction
  · rw [hv] at hw
    cases n with
    | zero =>
      obtain rfl := some.inj hw
      exact ⟨rfl, hv, hwaits⟩
    | succ n => simp at hw

theorem handleAncsWriteValueResp_pending (h : ancs.pendingCmd ≠ .none) (gattStatus : ℕ) :
    handleAncsWriteValueResp ancs gattStatus =
      ({ ancs with pendingCmd := .none }, some ⟨ancs.pendingCmd.commandId, getAncsErrorCode gattStatus⟩) := by
  rw [handleAncsWriteValueResp]
  split
  · rfl
  · rfl
  · contradiction

theorem handleAncsWriteValueResp_none (h : ancs.pendingCmd = .none) (gattStatus : ℕ) :
    handleAncsWriteValueResp ancs gattStatus = (ancs, none) := by
  rw [handleAncsWriteValueResp, h]

/-- The confirm of a write. -/
theorem Sound.confirm (h : s.Sound) {n gattStatus : ℕ} (hw : s.writes[n]? = some w)
    (hok : w.request.pendingCmd ≠ .none ∧ (s.ancs.pendingCmd = .none → getAncsErrorCode gattStatus = .success)) :
    (s.confirm n gattStatus w).Sound := by
  obtain ⟨rfl, hwrites, hwaits⟩ := h.alone hw
  have hkept := h.kept
  rw [hwrites] at hkept
  have hkept' : s.requests = (s.results ++ [(w.request, getAncsErrorCode gattStatus)]).map Prod.fst ++ s.queue := by
    simp [hkept]
  rw [Session.confirm]
  rcases hwaits with ⟨hpending, hcfms⟩ | ⟨-, hpending, hcfms⟩
  · have hne : s.ancs.pendingCmd ≠ .none := by rw [hpending]; exact hok.1
    rw [handleAncsWriteValueResp_pending hne]
    dsimp only
    refine ⟨?_, .inl ⟨by rw [hwrites]; rfl, rfl, ?_⟩⟩
    · rw [hwrites]
      simpa using hkept'
    · simp [hcfms, hpending, commandId_pendingCmd, cfmOf]
  · rw [handleAncsWriteValueResp_none hpending]
    dsimp only
    refine ⟨?_, .inl ⟨by rw [hwrites]; rfl, hpending, ?_⟩⟩
    · rw [hwrites]
      simpa using hkept'
    · simp [hcfms, hok.2 hpending, cfmOf]

theorem Sound.not_served_confirm (h : s.Sound) {n gattStatus : ℕ} (hw : s.writes[n]? = some w)
    (hok : ¬ (w.request.pendingCmd ≠ .none ∧
      (s.ancs.pendingCmd = .none → getAncsErrorCode gattStatus = .success))) :
    ¬ (s.confirm n gattStatus w).Served := by
  obtain ⟨rfl, hwrites, hwaits⟩ := h.alone hw
  -- no confirm is sent, or the one that was sent is wrong
  have hpending : s.ancs.pendingCmd = .none := by
    by_contra hne
    rcases hwaits with ⟨hpending, -⟩ | ⟨-, hpending, -⟩
    · rw [← hpending] at hok
      exact hok ⟨hne, fun h => absurd h hne⟩
    · exact hne hpending
  intro hserved
  have htold := hserved.told
  rw [Session.confirm, handleAncsWriteValueResp_none hpending] at htold
  dsimp only at htold
  rw [hwrites] at htold
  rcases htold with htold | ⟨v, status, hv, -⟩
  · rw [toList_none, append_nil, map_append, map_cons, map_nil] at htold
    rcases hwaits with ⟨-, hcfms⟩ | ⟨hne, -, hcfms⟩
    · rw [hcfms] at htold
      simp at htold
    · rw [hcfms] at htold
      have hlast := append_cancel_left htold
      simp only [cfmOf, List.cons.injEq, WriteCpCfm.mk.injEq, and_true, true_and] at hlast
      exact hok ⟨hne, fun _ => hlast.symm⟩
  · contradiction

/-- A notification may confirm the write under way, and does nothing else. -/
theorem Sound.after (h : s.Sound) {handled : Handled}
    (hh : handleAncsNotification s.ancs ind = some handled) : (s.after handled).Sound := by
  rcases handleAncsNotification_cases hh with ⟨hancs, hcfm⟩ | ⟨hne, hancs, hcfm⟩
  · refine ⟨h.kept, ?_⟩
    have hway := h.way
    rw [Session.after, hancs, hcfm, toList_none, append_nil]
    exact hway
  · refine ⟨h.kept, .inr ?_⟩
    rcases h.way with ⟨-, hpending, -⟩ | ⟨w, hwrites, ⟨hpending, hcfms⟩ | ⟨-, hpending, -⟩⟩
    · exact absurd hpending hne
    · refine ⟨w, hwrites, .inr ⟨?_, ?_, ?_⟩⟩
      · rw [← hpending]
        exact hne
      · rw [Session.after, hancs]
      · rw [Session.after, hcfm, hcfms, hpending, commandId_pendingCmd]
        rfl
    · exact absurd hpending hne

/-- **One step** of a session that has been served so far. -/
theorem Sound.step_iff (h : s.Sound) (hwired : s.Wired) (hs : s.step e = some s') :
    (s.Admits e → s'.Sound) ∧ (s'.Served → s.Admits e) := by
  cases e with
  | request r =>
    obtain rfl := some.inj hs
    exact ⟨h.request, fun hserved => by_contra fun hok => h.not_served_request hok hserved⟩
  | deliver =>
    rw [Session.step] at hs
    split at hs
    · contradiction
    next r queue hqueue =>
    split at hs
    · next hpending =>
      obtain rfl := some.inj hs
      refine ⟨fun hok => h.write hqueue (hok (by rw [hqueue]; nofun) hpending), fun hserved _ _ => ?_⟩
      exact by_contra fun hwrites => h.not_served_write hwired hwrites hserved
    · contradiction
  | confirm n gattStatus =>
    obtain ⟨w, hw, rfl⟩ := map_eq_some_iff.mp hs
    refine ⟨fun hok => h.confirm hw (hok w hw), fun hserved v hv => ?_⟩
    obtain rfl := some.inj (hw.symm.trans hv)
    exact by_contra fun hok => h.not_served_confirm hw hok hserved
  | notification ind =>
    obtain ⟨handled, hhandled, rfl⟩ := map_eq_some_iff.mp hs
    exact ⟨fun _ => h.after hhandled, fun _ => trivial⟩

end Session

/-! ### Notifications given back -/

theorem uidOf_eq (a b c d : UInt8) :
    uidOf a b c d = a.toNat * 2 ^ 24 + (b.toNat * 2 ^ 16 + (c.toNat * 2 ^ 8 + d.toNat)) := by
  have ha := a.toNat_lt
  have hb := b.toNat_lt
  have hc := c.toNat_lt
  have hd := d.toNat_lt
  rw [uidOf, Nat.or_assoc, Nat.or_assoc, ← Nat.shiftLeft_add_eq_or_of_lt (by omega) c.toNat]
  have hlow : c.toNat <<< 8 + d.toNat < 2 ^ 16 := by
    rw [Nat.shiftLeft_eq]
    omega
  rw [← Nat.shiftLeft_add_eq_or_of_lt hlow b.toNat]
  have hmid : b.toNat <<< 16 + (c.toNat <<< 8 + d.toNat) < 2 ^ 24 := by
    rw [Nat.shiftLeft_eq, Nat.shiftLeft_eq]
    omega
  rw [← Nat.shiftLeft_add_eq_or_of_lt hmid a.toNat, Nat.shiftLeft_eq, Nat.shiftLeft_eq, Nat.shiftLeft_eq]

/-- The four octets come back. -/
theorem uidData_uidOf (a b c d : UInt8) : uidData (uidOf a b c d) = [a, b, c, d] := by
  have hmask : ∀ n, n &&& 0xFF = n % 256 := fun n => Nat.and_two_pow_sub_one_eq_mod n 8
  have hoctet : ∀ (x : UInt8) n, n % 256 = x.toNat → UInt8.ofNat (n &&& 0xFF) = x := fun x n hn => by
    rw [hmask, hn, UInt8.ofNat_toNat]
  have ha := a.toNat_lt
  have hb := b.toNat_lt
  have hc := c.toNat_lt
  have hd := d.toNat_lt
  rw [uidData, uidOf_eq]
  simp only [Nat.shiftRight_eq_div_pow]
  rw [hoctet a _ (by omega), hoctet b _ (by omega), hoctet c _ (by omega), hoctet d _ (by omega)]

theorem drop_of_getElem? {k : ℕ} {a : UInt8} (h : value[k]? = some a) :
    value.drop k = a :: value.drop (k + 1) := by
  obtain ⟨hk, rfl⟩ := List.getElem?_eq_some_iff.mp h
  exact drop_eq_getElem_cons hk

theorem take_four {k : ℕ} {a b c d : UInt8} (ha : value[k]? = some a)
    (hb : value[k + 1]? = some b) (hc : value[k + 2]? = some c) (hd : value[k + 3]? = some d) :
    (value.drop k).take 4 = [a, b, c, d] := by
  rw [drop_of_getElem? ha, drop_of_getElem? hb, drop_of_getElem? hc, drop_of_getElem? hd]
  rfl

variable {i : AppInd}

/-- A notification of the notification source has its octets 4 to 7. -/
theorem handleNs_uid {mask : ℕ} {uid : ℕ} (h : handleNs mask value = some (some i))
    (huid : i.uid? = some uid) : (value.drop i.uidPlace).take 4 = uidData uid := by
  rw [handleNs] at h
  obtain ⟨categoryId, -, h⟩ := bind_eq_some_iff.mp h
  split at h
  · obtain ⟨eventId, -, h⟩ := bind_eq_some_iff.mp h
    obtain ⟨eventFlag, -, h⟩ := bind_eq_some_iff.mp h
    obtain ⟨categoryCount, -, h⟩ := bind_eq_some_iff.mp h
    obtain ⟨a, ha, h⟩ := bind_eq_some_iff.mp h
    obtain ⟨b, hb, h⟩ := bind_eq_some_iff.mp h
    obtain ⟨c, hc, h⟩ := bind_eq_some_iff.mp h
    obtain ⟨d, hd, h⟩ := bind_eq_some_iff.mp h
    obtain rfl := some.inj (some.inj h)
    obtain rfl := some.inj huid
    rw [uidData_uidOf]
    exact take_four ha hb hc hd
  · simp at h

/-- A notification of the data source has its octets 1 to 4. -/
theorem handleDs_uid {uid : ℕ} (h : handleDs value = some (some i))
    (huid : i.uid? = some uid) : (value.drop i.uidPlace).take 4 = uidData uid := by
  rw [handleDs] at h
  obtain ⟨command, -, h⟩ := bind_eq_some_iff.mp h
  split at h
  · obtain ⟨a, ha, h⟩ := bind_eq_some_iff.mp h
    obtain ⟨b, hb, h⟩ := bind_eq_some_iff.mp h
    obtain ⟨c, hc, h⟩ := bind_eq_some_iff.mp h
    obtain ⟨d, hd, h⟩ := bind_eq_some_iff.mp h
    obtain ⟨attributes, -, h⟩ := bind_eq_some_iff.mp h
    obtain rfl := some.inj (some.inj h)
    obtain rfl := some.inj huid
    rw [uidData_uidOf]
    exact take_four ha hb hc hd
  split at h
  · obtain ⟨n, -, h⟩ := bind_eq_some_iff.mp h
    split at h
    · obtain ⟨appId, -, h⟩ := bind_eq_some_iff.mp h
      obtain ⟨attributes, -, h⟩ := bind_eq_some_iff.mp h
      obtain rfl := some.inj (some.inj h)
      contradiction
    · simp at h
  · simp at h

theorem uidData_of_ind {uid : ℕ}
    (hh : handleAncsNotification ancs ind = some h) (hi : h.ind = some i) (huid : i.uid? = some uid) :
    (ind.value.drop i.uidPlace).take 4 = uidData uid := by
  rw [handleAncsNotification] at hh
  split at hh
  · obtain rfl := some.inj hh
    contradiction
  split at hh
  · obtain ⟨told, htold, rfl⟩ := map_eq_some_iff.mp hh
    obtain rfl : told = some i := hi
    exact handleNs_uid htold huid
  split at hh
  · obtain ⟨told, htold, rfl⟩ := map_eq_some_iff.mp hh
    obtain rfl : told = some i := hi
    exact handleDs_uid htold huid
  · obtain rfl := some.inj hh
    contradiction

theorem uidData_of_commandData {uid : ℕ} (h : r.uid? = some uid) : (r.commandData.drop 1).take 4 = uidData uid := by
  cases r with
  | getAppAttributes appId attributeList => contradiction
  | getNotificationAttributes uid' attributeList =>
    obtain rfl := some.inj h
    rfl
  | performNotificationAction uid' actionId =>
    obtain rfl := some.inj h
    rfl

namespace Session

/-! ### Every run -/

variable {notificationSource controlPoint dataSource mask : ℕ}

theorem Wired.givesBack (h : s.Wired) : s.GivesBack := by
  intro ancs ind handled hhandled i hi uid huid w hw hrequest
  rw [(h w hw).2.2, uidData_of_commandData hrequest, uidData_of_ind hhandled hi huid]

theorem wired_of_run {es : List Event}
    (hrun : run step (initial notificationSource controlPoint dataSource mask) es = some s) : s.Wired :=
  run_keeps (fun _ _ _ h hs => h.step hs) (fun _ hw => absurd hw not_mem_nil) hrun

theorem sound_initial : (initial notificationSource controlPoint dataSource mask).Sound :=
  ⟨rfl, .inl ⟨rfl, rfl, rfl⟩⟩

/-- A client that asks for the attributes of a notification. -/
def asking : List Event := [.request (.getNotificationAttributes 0x01020304 [0]), .deliver, .confirm 0 0]

/-- An application that acts on a notification. -/
def acting : List Event := [.request (.performNotificationAction 0x01020304 0), .deliver, .confirm 0 0]

/-- A command is pending only while a write is under way. -/
def Pends (s : Session) : Prop := s.ancs.pendingCmd ≠ .none → s.writes ≠ []

theorem Pends.step (h : s.Pends) (hs : s.step e = some s') : s'.Pends := by
  cases e with
  | request r =>
    obtain rfl := some.inj hs
    exact h
  | deliver =>
    rw [Session.step] at hs
    split at hs
    · contradiction
    split at hs
    · obtain rfl := some.inj hs
      rw [Pends, Session.write]
      dsimp only
      split
      · exact fun _ => append_ne_nil_of_right_ne_nil _ nofun
      · exact fun hne => absurd rfl hne
    · contradiction
  | confirm n gattStatus =>
    obtain ⟨w, -, rfl⟩ := map_eq_some_iff.mp hs
    refine fun hne => absurd ?_ hne
    rw [Session.confirm]
    by_cases hpending : s.ancs.pendingCmd = .none
    · rwa [handleAncsWriteValueResp_none hpending]
    · rw [handleAncsWriteValueResp_pending hpending]
  | notification ind =>
    obtain ⟨handled, hhandled, rfl⟩ := map_eq_some_iff.mp hs
    rw [Pends, Session.after]
    rcases handleAncsNotification_cases hhandled with ⟨hancs, -⟩ | ⟨-, hancs, -⟩ <;> rw [hancs]
    · exact h
    · exact fun hne => absurd rfl hne

end Session

end Cbps.Ancs
