import Cbps.Gatt.Connections

/-!
# The connection table

The invariant of the table of connections, one lemma for each way an entry changes, and one for each call.

`tableSound_of_run`: as long as an entry is free and the cid is new whenever an entry is added, and an application
accepts only a connection that is there, the count is that of the entries, no cid has two of them, and what is
not known to ATT leaves no entry behind. `gattMaxConnections` compares with the size of the whole table, so that
the program itself does not keep to that (`not_alwaysSound`).
-/

namespace Cbps.Gatt.Connections

open List Option Function

open GattManager (Task Cid)

variable (s : Connections)

/-! ### The invariant -/

/-- The invariant of a program that has not ended: beside what the table should be, the local entry stays, a
temporary connection has an entry of its own, and no deletion is that of a free entry. -/
structure Inv : Prop where
  running : s.ended = none
  localCid : (s.cidMap 0).cid = 0
  counted : s.connectCount = (Lib.occupied InUse s.cidMap).card
  distinct : Lib.KeysDistinct (fun (_ : Slot) e => e.cid ≠ invalidCid) CidMap.cid s.cidMap
  temporary : ∀ i, (s.cidMap i).data.scenario.isTemporary = true → InUse i (s.cidMap i)
  posted : ∀ m ∈ s.deletions, m.cid ≠ invalidCid
  cleared : ∀ i, InUse i (s.cidMap i) → s.Justified (s.cidMap i)

variable {s} {s' : Connections} {i : Slot} {e : CidMap} {cid : Cid} {task : Task}

theorem gattFindConn_some (h : s.gattFindConn cid = some i) : (s.cidMap i).cid = cid :=
  eq_of_beq (Fin.eq_true_of_find?_eq_some h)

theorem gattFindConn_none (h : s.gattFindConn cid = none) (i : Slot) : (s.cidMap i).cid ≠ cid :=
  ne_of_beq_false (Fin.eq_false_of_find?_eq_none h i)

/-- An entry that is found under a valid cid other than the local one is that of a connection. -/
theorem Inv.inUse (h : Inv s) (hfind : s.gattFindConn cid = some i) (hzero : cid ≠ 0) (hcid : cid ≠ invalidCid) :
    InUse i (s.cidMap i) := by
  have hi := gattFindConn_some hfind
  refine ⟨?_, hi ▸ hcid⟩
  rintro rfl
  exact hzero (hi.symm.trans h.localCid)

/-- At most five connections have an entry. -/
theorem card_inUse_le (t : Slot → CidMap) : (Lib.occupied InUse t).card ≤ 5 := by
  have hsub : Lib.occupied InUse t ⊆ Finset.univ.erase 0 := fun i hi =>
    Finset.mem_erase.mpr ⟨(Lib.mem_occupied.mp hi).1, Finset.mem_univ i⟩
  exact (Finset.card_le_card hsub).trans (by decide)

/-- The table is as it was, and what an entry is there for still holds. -/
theorem Inv.same_table (h : Inv s) (hended : s'.ended = s.ended) (hmap : s'.cidMap = s.cidMap)
    (hcount : s'.connectCount = s.connectCount) (hposted : ∀ m ∈ s'.deletions, m.cid ≠ invalidCid)
    (hjust : ∀ i, InUse i (s.cidMap i) → s.Justified (s.cidMap i) → s'.Justified (s.cidMap i)) : Inv s' where
  running := hended.trans h.running
  localCid := by rw [hmap]; exact h.localCid
  counted := by rw [hcount, hmap]; exact h.counted
  distinct := by rw [hmap]; exact h.distinct
  temporary := by rw [hmap]; exact h.temporary
  posted := hposted
  cleared := by
    rw [hmap]
    intro i hi
    exact hjust i hi (h.cleared i hi)

theorem Inv.setReqTask (h : Inv s) (task : Task) : Inv { s with connReqTask := task } :=
  h.same_table rfl rfl rfl h.posted fun _ _ => id

theorem Inv.send (h : Inv s) (m : Sent) : Inv (s.send m) :=
  h.same_table rfl rfl rfl h.posted fun _ _ => id

theorem Inv.know (h : Inv s) (cid : Cid) : Inv (s.know cid) :=
  h.same_table rfl rfl rfl h.posted fun _ _ hjust => hjust.imp_right (Or.imp_left (mem_cons_of_mem cid))

/-- A connection whose entry is there for something else is forgotten. -/
theorem Inv.forget (h : Inv s) (hother : ∀ i, InUse i (s.cidMap i) → (s.cidMap i).cid = cid →
    (s.cidMap i).data.scenario.isTemporary = true ∨ ∃ m ∈ s.deletions, m.cid = cid) : Inv (s.forget cid) := by
  refine h.same_table rfl rfl rfl h.posted fun i hi hjust => ?_
  by_cases hcid : (s.cidMap i).cid = cid
  · rcases hother i hi hcid with htemp | ⟨m, hm, hmc⟩
    · exact Or.inl htemp
    · exact Or.inr (Or.inr ⟨m, hm, hmc.trans hcid.symm⟩)
  · refine hjust.imp_right (Or.imp_left fun hknown => ?_)
    exact mem_filter.mpr ⟨hknown, decide_eq_true hcid⟩

/-- A free entry is given to a connection. -/
theorem Inv.claim (h : Inv s) (hfree : (s.cidMap i).cid = invalidCid) (he : e.cid ≠ invalidCid)
    (hnew : s.gattFindConn e.cid = none) (hjust : s.Justified e) :
    Inv { s.setEntry i e with connectCount := (s.connectCount + 1) % 32 } := by
  have hi : i ≠ 0 := by
    rintro rfl
    exact absurd (h.localCid.symm.trans hfree) (by decide)
  have hcard : (Lib.occupied InUse (Function.update s.cidMap i e)).card = (Lib.occupied InUse s.cidMap).card + 1 :=
    Lib.card_occupied_claim (fun hused => hused.2 hfree) ⟨hi, he⟩
  constructor
  · exact h.running
  · exact (congrArg CidMap.cid (update_of_ne hi.symm e s.cidMap)).trans h.localCid
  · have hle := card_inUse_le (Function.update s.cidMap i e)
    change (s.connectCount + 1) % 32 = _
    rw [h.counted, ← hcard]
    exact Nat.mod_eq_of_lt (by omega)
  · exact h.distinct.claim fun j _ => gattFindConn_none hnew j
  · intro j hj
    change (Function.update s.cidMap i e j).data.scenario.isTemporary = true at hj
    change InUse j (Function.update s.cidMap i e j)
    by_cases hji : j = i
    · subst hji
      rw [update_self]
      exact ⟨hi, he⟩
    · rw [update_of_ne hji] at hj ⊢
      exact h.temporary j hj
  · exact h.posted
  · intro j hj
    change InUse j (Function.update s.cidMap i e j) at hj
    change s.Justified (Function.update s.cidMap i e j)
    by_cases hji : j = i
    · subst hji
      rwa [update_self]
    · rw [update_of_ne hji] at hj ⊢
      exact h.cleared j hj

/-- An entry is changed under its cid. -/
theorem Inv.touch (h : Inv s) (hcid : e.cid = (s.cidMap i).cid)
    (htemp : e.data.scenario.isTemporary = true → (s.cidMap i).data.scenario.isTemporary = true)
    (hjust : InUse i (s.cidMap i) → s.Justified (s.cidMap i) → s.Justified e) : Inv (s.setEntry i e) := by
  have huse : InUse i e ↔ InUse i (s.cidMap i) := by rw [InUse, InUse, hcid]
  constructor
  · exact h.running
  · change (Function.update s.cidMap i e 0).cid = 0
    by_cases hi : 0 = i
    · subst hi
      rw [update_self, hcid]
      exact h.localCid
    · rw [update_of_ne hi]
      exact h.localCid
  · change s.connectCount = (Lib.occupied InUse (Function.update s.cidMap i e)).card
    rw [Lib.occupied_touch huse]
    exact h.counted
  · exact h.distinct.touch hcid fun hused => hcid ▸ hused
  · intro j hj
    change (Function.update s.cidMap i e j).data.scenario.isTemporary = true at hj
    change InUse j (Function.update s.cidMap i e j)
    by_cases hji : j = i
    · subst hji
      rw [update_self] at hj ⊢
      exact huse.mpr (h.temporary j (htemp hj))
    · rw [update_of_ne hji] at hj ⊢
      exact h.temporary j hj
  · exact h.posted
  · intro j hj
    change InUse j (Function.update s.cidMap i e j) at hj
    change s.Justified (Function.update s.cidMap i e j)
    by_cases hji : j = i
    · subst hji
      rw [update_self] at hj ⊢
      exact hjust (huse.mp hj) (h.cleared j (huse.mp hj))
    · rw [update_of_ne hji] at hj ⊢
      exact h.cleared j hj

/-- A change of an entry that leaves its cid and its procedure as they are. -/
theorem Inv.touchOther (h : Inv s) (hcid : e.cid = (s.cidMap i).cid) (hdata : e.data = (s.cidMap i).data) :
    Inv (s.setEntry i e) := by
  refine h.touch hcid (fun htemp => hdata ▸ htemp) fun _ hjust => ?_
  rw [Justified, hcid, hdata]
  exact hjust

/-- An entry is released. -/
theorem Inv.release (h : Inv s) (hi : InUse i (s.cidMap i)) :
    Inv { s.setEntry i CidMap.free with connectCount := (s.connectCount + 31) % 32 } := by
  have hfree : ¬InUse i CidMap.free := fun hused => hused.2 rfl
  have hcard := Lib.card_occupied_release hi hfree
  have hold : ∀ j, (Function.update s.cidMap i CidMap.free j = s.cidMap j) ∨
      Function.update s.cidMap i CidMap.free j = CidMap.free := by
    intro j
    by_cases hji : j = i
    · subst hji
      exact Or.inr (update_self ..)
    · exact Or.inl (update_of_ne hji ..)
  constructor
  · exact h.running
  · exact (congrArg CidMap.cid (update_of_ne hi.1.symm CidMap.free s.cidMap)).trans h.localCid
  · have hle := card_inUse_le s.cidMap
    change (s.connectCount + 31) % 32 = (Lib.occupied InUse (Function.update s.cidMap i CidMap.free)).card
    have hcount := h.counted
    omega
  · exact h.distinct.release fun hused => hused rfl
  · intro j hj
    change (Function.update s.cidMap i CidMap.free j).data.scenario.isTemporary = true at hj
    change InUse j (Function.update s.cidMap i CidMap.free j)
    rcases hold j with hj' | hj' <;> rw [hj'] at hj ⊢
    · exact h.temporary j hj
    · exact absurd hj Bool.false_ne_true
  · exact h.posted
  · intro j hj
    change InUse j (Function.update s.cidMap i CidMap.free j) at hj
    change s.Justified (Function.update s.cidMap i CidMap.free j)
    rcases hold j with hj' | hj' <;> rw [hj'] at hj ⊢
    · exact h.cleared j hj
    · exact absurd rfl hj.2

/-! ### The table under the calls -/

theorem gattAddCid_eq (h : Inv s) (hfree : s.gattFindConn invalidCid ≠ none) (cid : Cid) (task : Task) :
    ∃ i, (s.cidMap i).cid = invalidCid ∧ s.gattAddCid cid task = .ok (some i,
      { s.setEntry i { s.cidMap i with cid, task } with connectCount := (s.connectCount + 1) % 32 }) := by
  obtain ⟨i, hi⟩ := ne_none_iff_exists'.mp hfree
  have hle := card_inUse_le s.cidMap
  have hcount : s.connectCount ≠ maxAttConnections := by
    rw [h.counted]
    exact (Nat.lt_of_le_of_lt hle (by decide)).ne
  exact ⟨i, gattFindConn_some hi, by rw [gattAddCid, if_neg hcount, hi]⟩

/-- A connection that ATT has reported gets an entry. -/
theorem Inv.addCid (h : Inv s) (hcan : s.CanAdd cid) (hknown : cid ∈ s.known) (task : Task) :
    ∃ i s', s.gattAddCid cid task = .ok (some i, s') ∧ Inv s' ∧ (s'.cidMap i).cid = cid := by
  obtain ⟨hcid, hnew, hfree⟩ := hcan
  obtain ⟨i, hi, hadd⟩ := gattAddCid_eq h hfree cid task
  refine ⟨i, _, hadd, h.claim hi hcid hnew (Or.inr (Or.inl hknown)), ?_⟩
  change (Function.update s.cidMap i { s.cidMap i with cid, task } i).cid = cid
  rw [update_self]

/-- An entry that is there is locked. -/
theorem Inv.lockCid (h : Inv s) (hi : (s.cidMap i).cid = cid) (scenario : Scenario)
    (hscenario : scenario.isTemporary = false) : ∃ s', s.gattLockCid cid scenario = .ok s' ∧ Inv s' := by
  obtain ⟨j, hj⟩ : ∃ j, s.gattFindConn cid = some j :=
    isSome_iff_exists.mp (Fin.isSome_find?_of_eq_true (beq_iff_eq.mpr hi))
  unfold gattLockCid
  rw [hj]
  refine ⟨_, rfl, ?_⟩
  split
  · rename_i hnone
    refine h.touch rfl (fun htemp => absurd htemp (by rw [hscenario]; exact Bool.false_ne_true)) fun _ hjust => ?_
    exact Or.inr (hjust.resolve_left (by rw [hnone]; exact Bool.false_ne_true))
  · exact h

/-- The data of an entry are cleared, unless they are those of a search. -/
theorem Inv.clearData (h : Inv s)
    (hother : (s.cidMap i).data.scenario.isTemporary = false ∨ (s.cidMap i).cid ∈ s.known) :
    Inv (s.setEntry i { s.cidMap i with data := ConnData.zero }) := by
  refine h.touch rfl (fun htemp => absurd htemp Bool.false_ne_true) fun _ hjust => ?_
  rcases hother with htemp | hknown
  · exact Or.inr (hjust.resolve_left (by rw [htemp]; exact Bool.false_ne_true))
  · exact Or.inr (Or.inl hknown)

/-- A deletion leaves no entry of the connection. -/
theorem Inv.deleteCid (h : Inv s) (cid : Cid) (hremove : s.CanRemove cid) : Inv (s.gattDeleteCid cid) ∧
    ∀ i, InUse i ((s.gattDeleteCid cid).cidMap i) → ((s.gattDeleteCid cid).cidMap i).cid ≠ cid := by
  unfold gattDeleteCid
  cases hfind : s.gattFindConn cid with
  | none => exact ⟨h, fun i _ => gattFindConn_none hfind i⟩
  | some i =>
    have hi := gattFindConn_some hfind
    have hcid : cid ≠ invalidCid := fun heq => absurd (hfind.symm.trans (hremove heq)) (by simp)
    dsimp only
    split
    · rename_i hzero
      -- the entry of the local database stays, and it is the only one with its cid
      refine ⟨h, fun j hj hjcid => hj.1 (h.distinct j 0 hj.2 ?_ ?_)⟩
      · change (s.cidMap 0).cid ≠ invalidCid
        rw [h.localCid]
        decide
      · rw [hjcid, hzero, h.localCid]
    · rename_i hzero
      refine ⟨h.release (h.inUse hfind hzero hcid), fun j hj hjcid => ?_⟩
      change InUse j (Function.update s.cidMap i CidMap.free j) at hj
      change (Function.update s.cidMap i CidMap.free j).cid = cid at hjcid
      by_cases hji : j = i
      · subst hji
        rw [update_self] at hj
        exact hj.2 rfl
      · rw [update_of_ne hji] at hj hjcid
        exact hji (h.distinct j i hj.2 (fun heq => hcid (hi.symm.trans heq)) (hjcid.trans hi.symm))

/-- A deletion leaves an entry as it is, or frees it. -/
theorem gattDeleteCid_entry (s : Connections) (cid : Cid) (i : Slot) :
    (s.gattDeleteCid cid).cidMap i = s.cidMap i ∨ (s.gattDeleteCid cid).cidMap i = CidMap.free := by
  unfold gattDeleteCid
  cases s.gattFindConn cid with
  | none => exact Or.inl rfl
  | some j =>
    dsimp only
    split
    · exact Or.inl rfl
    · by_cases hij : i = j
      · subst hij
        exact Or.inr (update_self ..)
      · exact Or.inl (update_of_ne hij ..)

theorem forget_gattDeleteCid (s : Connections) (cid cid' : Cid) :
    (s.forget cid).gattDeleteCid cid' = (s.gattDeleteCid cid').forget cid := by
  have hfind : (s.forget cid).gattFindConn cid' = s.gattFindConn cid' := rfl
  unfold gattDeleteCid
  rw [hfind]
  cases s.gattFindConn cid' with
  | none => rfl
  | some i =>
    dsimp only
    split <;> rfl

theorem forget_connReqTask (s : Connections) (cid : Cid) (task : Task) :
    { s with connReqTask := task }.forget cid = { s.forget cid with connReqTask := task } := rfl

theorem deletions_gattDeleteCid (s : Connections) (ms : List DeleteConn) (cid : Cid) :
    { s with deletions := ms }.gattDeleteCid cid = { s.gattDeleteCid cid with deletions := ms } := by
  have hfind : { s with deletions := ms }.gattFindConn cid = s.gattFindConn cid := rfl
  unfold gattDeleteCid
  rw [hfind]
  cases s.gattFindConn cid with
  | none => rfl
  | some i =>
    dsimp only
    split <;> rfl

theorem gattDeleteCid_deletions (s : Connections) (cid : Cid) :
    (s.gattDeleteCid cid).deletions = s.deletions := by
  unfold gattDeleteCid
  cases s.gattFindConn cid with
  | none => rfl
  | some i =>
    dsimp only
    split <;> rfl

/-! ### One lemma for each call -/

/-- What a call does in a state of the invariant: it keeps it, or it panics without being an answer of the
application. -/
def Fine (input : Input) : Option (Except Fault Connections) → Prop
  | none => True
  | some (.ok s') => Inv s'
  | some (.error fault) =>
    fault = .panicNull ∧ ∀ task cid le accept, input ≠ .connectResponse task cid le accept

variable {input : Input} {mtu : BitVec 16} {le accept : Bool} {result : L2caConnResult}

theorem Inv.internalConnectReq (h : Inv s) (req : ConnectReq) : Inv (s.gattHandleInternalConnectReq req) := by
  rw [gattHandleInternalConnectReq]
  split
  · exact h.send _
  · split
    · exact h.same_table rfl rfl rfl h.posted fun _ _ => id
    · exact h.same_table rfl rfl rfl h.posted fun _ _ => id

theorem Inv.ensureCid (h : Inv s) (hcan : s.gattCidIsValid cid = true ∨ s.gattFindConn invalidCid ≠ none)
    (hknown : cid ∈ s.known) : ∃ s' i, s.ensureCid cid = .ok s' ∧ Inv s' ∧ (s'.cidMap i).cid = cid := by
  cases hfind : s.gattFindConn cid with
  | some i =>
    have hvalid : s.gattCidIsValid cid = true := by rw [gattCidIsValid, hfind]; rfl
    exact ⟨s, i, by rw [Connections.ensureCid, if_pos hvalid], h, gattFindConn_some hfind⟩
  | none =>
    have hvalid : s.gattCidIsValid cid ≠ true := by rw [gattCidIsValid, hfind]; exact Bool.false_ne_true
    have hfree := hcan.resolve_left hvalid
    have hcid : cid ≠ invalidCid := fun heq => hfree (heq ▸ hfind)
    obtain ⟨i, s', hadd, hinv, hi⟩ := h.addCid ⟨hcid, hfind, hfree⟩ hknown s.connReqTask
    refine ⟨s', i, ?_, hinv, hi⟩
    rw [Connections.ensureCid, if_neg hvalid, hadd]
    rfl

theorem Inv.initiating (h : Inv s) (hcan : s.gattCidIsValid cid = true ∨ s.gattFindConn invalidCid ≠ none)
    (hknown : cid ∈ s.known) : ∃ s', s.connectInitiating cid mtu = .ok s' ∧ Inv s' := by
  obtain ⟨s₁, i, hs₁, hinv, hi⟩ := h.ensureCid hcan hknown
  obtain ⟨s₂, hs₂, hinv⟩ := hinv.lockCid hi .connectReq rfl
  refine ⟨s₂.gattSendConnectionCfm s.connReqTask .initialising mtu cid, ?_, hinv.send _⟩
  rw [connectInitiating, hs₁]
  change (s₁.gattLockCid cid .connectReq).bind _ = _
  rw [hs₂]
  rfl

theorem Inv.success (h : Inv s) (hknown : cid ∈ s.known) :
    Fine (.attConnectCfm cid .success le mtu) (some (s.connectSuccess cid le mtu)) := by
  cases hfind : s.gattFindConn cid with
  | none =>
    unfold connectSuccess
    rw [hfind]
    exact ⟨rfl, fun _ _ _ _ => Input.noConfusion⟩
  | some i =>
    have hi := gattFindConn_some hfind
    have hclear := h.clearData (i := i) (Or.inr (hi ▸ hknown))
    unfold connectSuccess
    rw [hfind]
    change Fine _ (some ((s.gattUnlockCid cid).bind _))
    unfold gattUnlockCid
    rw [hfind]
    exact ((hclear.touchOther (e := { (s.setEntry i { s.cidMap i with data := ConnData.zero }).cidMap i with
      mtu := mtu.setWidth 10, bredr := !le }) rfl rfl).setReqTask 0).send _

theorem Inv.failure (h : Inv s) (hremove : s.CanRemove cid) :
    Inv ((s.forget cid).connectFailure cid result mtu) := by
  have hdelete : ∀ task, Inv ({ s.forget cid with connReqTask := task }.gattDeleteCid cid) := by
    intro task
    obtain ⟨hinv, hgone⟩ := (h.setReqTask task).deleteCid cid hremove
    rw [← forget_connReqTask, forget_gattDeleteCid]
    exact hinv.forget fun i hi hcid => absurd hcid (hgone i hi)
  exact (hdelete _).send _

theorem Inv.connectInd (h : Inv s) (hcan : le = true → s.CanAdd cid) (hknown : cid ∈ s.known) :
    ∃ s', s.gattHandleAttConnectInd cid le mtu = .ok s' ∧ Inv s' := by
  rw [gattHandleAttConnectInd]
  cases le with
  | false => exact ⟨_, rfl, h.send _⟩
  | true =>
    obtain ⟨i, s₁, hadd, hinv, hi⟩ := h.addCid (hcan rfl) hknown s.theAppTask
    obtain ⟨s₂, hlock, hinv⟩ := hinv.lockCid hi .bleConnectRsp rfl
    refine ⟨s₂.send (.connectInd s₂.theAppTask cid mtu), ?_, hinv.send _⟩
    change (s.gattAddCid cid s.theAppTask).bind _ = _
    rw [hadd]
    change (s₁.gattLockCid cid .bleConnectRsp).bind _ = _
    rw [hlock]
    rfl

/-- The answer of the application to a BR/EDR connection. -/
theorem Inv.respond (h : Inv s) (hcan : s.CanAdd cid) (hknown : cid ∈ s.known) :
    ∃ s', s.gattConnectResponse task cid false accept = .ok s' ∧ Inv s' := by
  obtain ⟨i, s₁, hadd, hinv, hi⟩ := h.addCid hcan hknown task
  obtain ⟨s₂, hlock, hinv⟩ := hinv.lockCid hi .connectRsp rfl
  refine ⟨(s₂.setEntry i { s₂.cidMap i with bredr := true }).send (.attConnectRsp cid accept), ?_,
    (hinv.touchOther (e := { s₂.cidMap i with bredr := true }) rfl rfl).send _⟩
  rw [gattConnectResponse, if_neg Bool.false_ne_true]
  change (s.gattAddCid cid task).bind _ = _
  rw [hadd]
  change (s₁.gattLockCid cid .connectRsp).bind _ = _
  rw [hlock]
  rfl

/-- The answer of the application to an LE connection. -/
theorem Inv.respondLe (h : Inv s) (hthere : accept = true →
      (s.gattFindConn cid).any (fun i => !(s.cidMap i).data.scenario.isTemporary) = true) :
    ∃ s', s.gattConnectResponse task cid true accept = .ok s' ∧ Inv s' := by
  rw [gattConnectResponse, if_pos rfl]
  cases accept with
  | false => exact ⟨_, rfl, h.send _⟩
  | true =>
    obtain ⟨i, hfind, htemp⟩ := (Option.any_eq_true _ _).mp (hthere rfl)
    rw [if_pos rfl]
    unfold gattUnlockCid
    rw [hfind]
    exact ⟨_, rfl, h.clearData (Or.inl (by simpa using htemp))⟩

theorem Inv.disconnectInd (h : Inv s) (hremove : s.CanRemove cid) (reason : L2caDiscResult) :
    Inv ((s.forget cid).gattHandleAttDisconnectInd cid reason) := by
  have hfound : (s.forget cid).gattFindConn cid = s.gattFindConn cid := rfl
  unfold gattHandleAttDisconnectInd
  rw [hfound]
  cases hfind : s.gattFindConn cid with
  | none => exact h.forget fun i _ hcid => absurd hcid (gattFindConn_none hfind i)
  | some i =>
    have hcid : cid ≠ invalidCid := fun heq => absurd (hfind.symm.trans (hremove heq)) (by simp)
    have hclosing : Inv (s.setEntry i { s.cidMap i with closing := true }) := h.touchOther rfl rfl
    have hposted : Inv { s.setEntry i { s.cidMap i with closing := true } with
        deletions := s.deletions ++ [⟨i, cid, (s.cidMap i).task, disconnectStatus reason⟩] } := by
      refine hclosing.same_table rfl rfl rfl (fun m hm => ?_) fun j _ hjust => ?_
      · rcases mem_append.mp hm with hm | hm
        · exact h.posted m hm
        · rw [mem_singleton.mp hm]
          exact hcid
      · exact hjust.imp_right (Or.imp_right fun ⟨m, hm, hmc⟩ => ⟨m, mem_append_left _ hm, hmc⟩)
    exact hposted.forget fun j _ _ => Or.inr ⟨_, mem_append_right _ (mem_singleton_self _), rfl⟩

theorem Inv.deleteConn (h : Inv s) {n : ℕ} {m : DeleteConn} (hm : s.deletions[n]? = some m) :
    Inv ({ s with deletions := s.deletions.eraseIdx n }.gattHandleInternalDeleteConn m) := by
  have hcid := h.posted m (mem_of_getElem? hm)
  obtain ⟨hinv, hgone⟩ := (h.send (.disconnectInd m.theAppTask m.cid m.status)).deleteCid m.cid
    fun heq => absurd heq hcid
  have hdeletions := gattDeleteCid_deletions (s.send (.disconnectInd m.theAppTask m.cid m.status)) m.cid
  have herase : ∀ m', m' ∈ s.deletions → m'.cid ≠ m.cid → m' ∈ s.deletions.eraseIdx n := by
    intro m' hm' hne
    obtain ⟨k, hk⟩ := mem_iff_getElem?.mp hm'
    refine mem_eraseIdx_iff_getElem?.mpr ⟨k, ?_, hk⟩
    rintro rfl
    exact hne (congrArg DeleteConn.cid (some.inj (hk.symm.trans hm)))
  change Inv ({ s.send (.disconnectInd m.theAppTask m.cid m.status) with
    deletions := s.deletions.eraseIdx n }.gattDeleteCid m.cid)
  rw [deletions_gattDeleteCid]
  refine hinv.same_table rfl rfl rfl (fun m' hm' => h.posted m' (mem_of_mem_eraseIdx hm')) fun i hi hjust => ?_
  refine hjust.imp_right (Or.imp_right fun ⟨m', hm', hmc⟩ => ⟨m', herase m' ?_ ?_, hmc⟩)
  · exact hdeletions ▸ hm'
  · exact hmc ▸ hgone i hi

variable {scenario : Scenario}

theorem Inv.claimTemporary (h : Inv s) {cid : Cid} (hi : (s.cidMap i).cid = invalidCid) (hcid : cid ≠ invalidCid)
    (hnew : s.gattFindConn cid = none) (task : Task) (addr : Bdaddr)
    (hscenario : scenario.isTemporary = true) :
    Inv { s.setEntry i ⟨cid, task, (s.cidMap i).closing, (s.cidMap i).bredr, (s.cidMap i).mtu, task, scenario, addr⟩ with
      connectCount := (s.connectCount + 1) % 32 } :=
  h.claim hi hcid hnew (Or.inl hscenario)

/-- A search by a temporary connection. -/
theorem Inv.search (h : Inv s) (hcan : s.CanAdd s.tempCid) (addr : Bdaddr)
    (hscenario : scenario.isTemporary = true) (refused : GattStatus) :
    ∃ s', s.searchSdp task addr scenario refused = .ok s' ∧ Inv s' := by
  obtain ⟨hcid, hnew, hfree⟩ := hcan
  obtain ⟨i, hi, hadd⟩ := gattAddCid_eq h hfree s.tempCid task
  have hclaim := h.claimTemporary hi hcid hnew task addr hscenario
  refine ⟨_, ?_, hclaim.send (.sdpSearch addr)⟩
  rw [searchSdp, getTempConn]
  change (s.gattAddCid s.tempCid task).bind _ = _
  rw [hadd]
  refine congrArg Except.ok ?_
  simp only [setEntry, gattSetConnState, update_self, update_idem]

/-- The confirm of a search. The last one removes a temporary connection. -/
theorem Inv.found (h : Inv s) (addr : Bdaddr) (status : GattStatus) (moreToCome : Bool)
    (bredrAddr : Cid → Option Bdaddr) : Fine (.sdpCfm addr status moreToCome bredrAddr)
      (some (s.gattHandleClSdpServiceSearchAttributeCfm addr status moreToCome bredrAddr)) := by
  have hpanic : Fine (.sdpCfm addr status moreToCome bredrAddr) (some (.error .panicNull)) :=
    ⟨rfl, fun _ _ _ _ => Input.noConfusion⟩
  unfold gattHandleClSdpServiceSearchAttributeCfm
  cases s.gattFindConnAddr addr bredrAddr with
  | none => exact hpanic
  | some i =>
    dsimp only
    split
    · split
      · exact h.send _
      · have hsend := h.send (.discoverBredrCfm (s.cidMap i).data.app (s.cidMap i).data.scenario status moreToCome)
        split
        · rename_i htemp
          have hi := h.temporary i htemp
          obtain ⟨hinv, hgone⟩ := hsend.deleteCid (s.cidMap i).cid fun heq => absurd heq hi.2
          -- the entry is free now
          refine hinv.touch rfl (fun htemp => absurd htemp Bool.false_ne_true) fun huse _ => ?_
          rcases gattDeleteCid_entry (s.send _) (s.cidMap i).cid i with hentry | hentry
          · exact absurd (congrArg CidMap.cid hentry) (hgone i huse)
          · exact absurd rfl (hentry ▸ huse).2
        · rename_i htemp
          refine hsend.touch rfl (fun htemp => absurd htemp Bool.false_ne_true) fun _ hjust => ?_
          exact Or.inr (hjust.resolve_left htemp)
    · exact hpanic

theorem Inv.procedure (h : Inv s) (hscenario : scenario.isTemporary = false)
    (hother : (s.cidMap i).data.scenario.isTemporary = false) (task : Task) :
    Inv (s.gattSetConnState i task scenario) := by
  refine h.touch rfl (fun htemp => absurd htemp (by rw [hscenario]; exact Bool.false_ne_true)) fun _ hjust => ?_
  exact Or.inr (hjust.resolve_left (by rw [hother]; exact Bool.false_ne_true))

/-- The procedures of a connection that is there. -/
theorem isTemporary_of_mem (h : scenario ∈ [.discoverAllPrimaryServices, .discoverPrimaryService, .client]) :
    scenario.isTemporary = false := by
  revert scenario
  decide

/-- Whatever is run for an input that meets the condition is fine. -/
theorem Inv.handle (h : Inv s) (hok : s.Admits input) : Fine input ((s.track input).handle input) := by
  have hok_of : ∀ {r : Except Fault Connections}, (∃ s', r = .ok s' ∧ Inv s') → Fine input (some r) := by
    rintro _ ⟨s', rfl, hinv⟩
    exact hinv
  cases input with
  | connectReq req => exact h.internalConnectReq req
  | heldConnectReq =>
    change Fine _ (s.handle _)
    rw [handle]
    cases s.connectReqs with
    | nil => trivial
    | cons req reqs =>
      dsimp only
      split
      · have hreqs : Inv { s with connectReqs := reqs } :=
          h.same_table rfl rfl rfl h.posted fun _ _ => id
        exact hreqs.internalConnectReq req
      · trivial
  | attConnectCfm cid result le mtu =>
    cases result with
    | pending => exact h
    | initiating => exact hok_of ((h.know cid).initiating hok mem_cons_self)
    | success => exact (h.know cid).success mem_cons_self
    | _ => exact h.failure hok
  | attConnectInd cid le mtu =>
    refine hok_of ((h.know cid).connectInd ?_ mem_cons_self)
    rintro rfl
    exact hok
  | connectResponse task cid le accept =>
    cases le with
    | false => exact hok_of ((h.know cid).respond hok mem_cons_self)
    | true =>
      refine hok_of (h.respondLe ?_)
      rintro rfl
      exact hok
  | disconnectReq cid =>
    change Inv (s.gattHandleInternalDisconnectReq cid)
    rw [gattHandleInternalDisconnectReq]
    split
    · exact h.send _
    · exact h
  | attDisconnectInd cid reason => exact h.disconnectInd hok reason
  | deleteConn n =>
    change Fine _ (s.handle _)
    rw [handle]
    cases hm : s.deletions[n]? with
    | none => trivial
    | some m =>
      dsimp only
      split
      · exact h.deleteConn hm
      · trivial
  | discoverAllBrEdrServices task addr => exact hok_of (h.search hok addr rfl _)
  | discoverBrEdrService task addr validUuid =>
    cases validUuid with
    | false => exact h.send _
    | true => exact hok_of (h.search hok addr rfl _)
  | sdpCfm addr status moreToCome bredrAddr => exact h.found addr status moreToCome bredrAddr
  | procedure task cid scenario =>
    change Fine _ (s.handle _)
    rw [handle]
    split
    · rename_i hscenario
      cases hfind : s.gattFindConn cid with
      | none => exact ⟨rfl, fun _ _ _ _ => Input.noConfusion⟩
      | some i =>
        have hother : (s.cidMap i).data.scenario.isTemporary = false := by
          have hall : (s.gattFindConn cid).all (fun i => !(s.cidMap i).data.scenario.isTemporary) = true := hok
          rw [hfind] at hall
          simpa using hall
        dsimp only
        split
        · exact h.procedure (isTemporary_of_mem hscenario) hother task
        · trivial
    · trivial
  | procedureEnd cid =>
    change Fine _ (s.handle _)
    rw [handle]
    cases s.gattFindConn cid with
    | none => trivial
    | some i =>
      dsimp only
      split
      · rename_i hscenario
        exact h.procedure rfl (isTemporary_of_mem hscenario) 0
      · trivial

theorem Inv.sound (h : Inv s) : Sound s where
  counted := h.counted
  distinct := h.distinct
  cleared := h.cleared
  added input hended := absurd (h.running.symm.trans hended) (by simp)
  answered task cid le accept hended := absurd (h.running.symm.trans hended) (by simp)

/-- The step lemma. -/
theorem Inv.step (h : Inv s) (hok : s.Admits input) (hstep : s.step input = some s') :
    Sound s' ∧ (s'.ended = none → Inv s') := by
  have hfine := h.handle hok
  rw [Connections.step, h.running] at hstep
  cases hhandle : (s.track input).handle input with
  | none =>
    rw [hhandle] at hstep
    exact absurd hstep (by simp)
  | some r =>
    rw [hhandle] at hstep hfine
    cases r with
    | ok t =>
      obtain rfl : t = s' := some.inj hstep
      have hinv : Inv t := hfine
      exact ⟨hinv.sound, fun _ => hinv⟩
    | error fault =>
      obtain ⟨rfl, hother⟩ := hfine
      obtain rfl := some.inj hstep
      refine ⟨⟨h.counted, h.distinct, h.cleared, ?_, ?_⟩, fun hended => absurd hended (by simp)⟩
      · exact fun input' hended => Fault.noConfusion (congrArg Prod.fst (some.inj hended))
      · exact fun task cid le accept hended =>
          hother task cid le accept (congrArg Prod.snd (some.inj hended))

theorem inv_init (theAppTask : Task) : Inv (init theAppTask) := by
  have hfree : ∀ i, ¬InUse i (gattInitCidTaskMap i) := by decide
  have hlocal : ∀ i, (gattInitCidTaskMap i).cid ≠ invalidCid → i = 0 := by decide
  have htemp : ∀ i, (gattInitCidTaskMap i).data.scenario.isTemporary ≠ true := by decide
  exact ⟨rfl, rfl, rfl, fun i j hi hj _ => (hlocal i hi).trans (hlocal j hj).symm,
    fun i hi => absurd hi (htemp i), fun m hm => absurd hm not_mem_nil, fun i hi => absurd hi (hfree i)⟩

/-- **The table is right along every run whose steps meet the condition.** -/
theorem tableSound_of_run (theAppTask : Task) {inputs : List Input} {t : Connections}
    (hok : Lib.RunMeets step Admits (init theAppTask) inputs)
    (hrun : Lib.run step (init theAppTask) inputs = some t) : Sound t := by
  have hinit := inv_init theAppTask
  refine (Lib.run_invariant (I := fun s => Sound s ∧ (s.ended = none → Inv s)) ?_
    ⟨hinit.sound, fun _ => hinit⟩ hok hrun).1
  intro s input s' ⟨_, hinv⟩ hok hstep
  cases hended : s.ended with
  | none => exact (hinv hended).step hok hstep
  | some fault =>
    rw [Connections.step, hended] at hstep
    exact absurd hstep (by simp)

/-! ### Steps that do not meet the condition -/

/-! ### The condition on concrete runs -/

instance (s : Connections) (cid : Cid) : Decidable (s.CanAdd cid) := inferInstanceAs (Decidable (_ ∧ _ ∧ _))

instance (s : Connections) (cid : Cid) : Decidable (s.CanRemove cid) := inferInstanceAs (Decidable (_ → _))

instance (s : Connections) (input : Input) : Decidable (s.Admits input) := by
  unfold Admits
  split <;> infer_instance

/-- A connection that is asked for and lost, and a search beside it. -/
def connectAndLose : List Input :=
  [.connectReq ⟨2, none, .bleMasterDirected, false⟩, .attConnectCfm 0x40 .initiating true 0,
    .attConnectCfm 0x40 .success true 23, .discoverAllBrEdrServices 2 7, .attConnectInd 0x41 true 23,
    .connectResponse 1 0x41 true true, .sdpCfm 7 .success false fun _ => none, .attDisconnectInd 0x40 .linkLoss,
    .deleteConn 0]

theorem sound_connectAndLose :
    ∃ t, Lib.run step (init 1) connectAndLose = some t ∧ t.connectCount = 1 ∧ Sound t := by
  have hruns : (Lib.run step (init 1) connectAndLose).any fun t => t.connectCount = 1 := by decide
  obtain ⟨t, ht, hcount⟩ := (Option.any_eq_true _ _).mp hruns
  exact ⟨t, ht, of_decide_eq_true hcount, tableSound_of_run 1 (by decide) ht⟩

/-- Whatever happens, the table is right. -/
def AlwaysSound : Prop :=
  ∀ theAppTask inputs t, Lib.run step (init theAppTask) inputs = some t → Sound t

/-- Six remote devices that connect over LE. -/
def sixDevices : List Input :=
  [0x40, 0x41, 0x42, 0x43, 0x44, 0x45].map fun cid => .attConnectInd cid true 23

theorem not_alwaysSound : ¬AlwaysSound := by
  intro h
  have hruns : (Lib.run step (init 1) sixDevices).any fun t =>
      t.ended.any fun p => p.1 = .missingEntry := by decide
  obtain ⟨t, ht, hended⟩ := (Option.any_eq_true _ _).mp hruns
  obtain ⟨⟨fault, input⟩, hp, hfault⟩ := (Option.any_eq_true _ _).mp hended
  obtain rfl : fault = .missingEntry := of_decide_eq_true hfault
  exact (h 1 sixDevices t ht).added input hp

end Cbps.Gatt.Connections
