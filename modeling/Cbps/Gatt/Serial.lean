import Cbps.Gatt.Turns

/-!
# One procedure at a time

`serial_of_run`: as long as every step is admitted, a connection has at most one procedure at ATT, with `data.app`
set while it has, and every request gets one final confirm, at the task that has made it. The turns of a procedure
carry the invariant `Inv`; `Owing` is the state inside a turn, when its request is neither waiting nor confirmed.

An LE connection that the application accepts after its first request loses the confirm of it (`not_alwaysSerial`).
-/

namespace Cbps.Gatt

open List Option

open GattManager (Task)

namespace ClientConn

/-! ### Invariants -/

/-- The request is one of those that have been made, and a notification by the task of the connection. -/
structure Known (c : ClientConn) (r : ClientReq) : Prop where
  made : c.made[r.id]? = some r
  owner : r.procedure.isHandleValue = true → r.task = c.task

/-- What does not depend on the procedure that runs. -/
structure Books (c : ClientConn) : Prop where
  runs : c.panicked = false
  held : ∃ rs : List ClientReq, c.held = rs.map .request ++ if c.closing then [.deleteConn] else []
  known : ∀ r, .request r ∈ c.held → c.Known r
  sent : ∀ m ∈ c.confirms, (c.made[m.id]?).map ClientReq.task = some m.task
  tasks : ∀ r ∈ c.made, r.task ≠ 0

/-- Requests that are held. -/
def heldCount (c : ClientConn) (i : ℕ) : ℕ := c.held.countP (Held.isRequest i)

/-- The number of requests with the number `i`. -/
def madeCount (c : ClientConn) (i : ℕ) : ℕ := if i < c.made.length then 1 else 0

structure Inv (c : ClientConn) : Prop where
  books : c.Books
  turn : Idle c ∨ ∃ r a, Asked c r a false ∧ c.Known r
  mapped : c.mapped = false → c.held = [] ∧ c.closing = false ∧ Idle c
  count : ∀ i, c.finals i + c.waiting i = c.madeCount i

/-- The request `r` is due: it is neither held nor outstanding, and has no final confirm yet. -/
structure Owing (c : ClientConn) (r : ClientReq) : Prop where
  books : c.Books
  mapped : c.mapped = true
  known : c.Known r
  count : ∀ i, c.finals i + c.heldCount i + (if r.id = i then 1 else 0) = c.madeCount i

theorem waiting_eq (c : ClientConn) (i : ℕ) :
    c.waiting i = c.heldCount i + c.outstanding.countP fun o => decide (o.1.id = i) := rfl

theorem Idle.waiting_eq {c : ClientConn} (h : Idle c) (i : ℕ) : c.waiting i = c.heldCount i := by
  rw [ClientConn.waiting_eq, h.outstanding]
  rfl

variable {r : ClientReq}

theorem Asked.waiting_eq {c : ClientConn} {a : AttReq} (h : Asked c r a false) (i : ℕ) :
    c.waiting i = c.heldCount i + if r.id = i then 1 else 0 := by
  rw [ClientConn.waiting_eq, h.outstanding]
  by_cases hi : r.id = i <;> simp [hi]

variable {n : ℕ}

theorem ConfirmsFor.countP {ms : List ClientCfm} (h : ConfirmsFor r n ms) (i : ℕ) :
    ms.countP (fun m => decide (m.id = i) && !m.moreToCome) = if r.id = i then n else 0 := by
  have hcongr : ∀ m ∈ ms, (decide (m.id = i) && !m.moreToCome) = true ↔ (decide (r.id = i) && !m.moreToCome) = true :=
    fun m hm => by rw [h.id_eq m hm]
  rw [countP_congr hcongr]
  by_cases hi : r.id = i
  · simpa [hi] using h.finals
  · simp [hi]

theorem Confirmed.finals {c c' : ClientConn} (h : Confirmed r n c c') (i : ℕ) :
    c'.finals i = c.finals i + if r.id = i then n else 0 := by
  obtain ⟨ms, hms, hfor⟩ := h.confirms
  rw [ClientConn.finals, hms, countP_append, hfor.countP i]
  rfl

/-- What the frame of a procedure has in it. -/
theorem Confirmed.eqs {c c' : ClientConn} (h : Confirmed r n c c') :
    c'.mapped = c.mapped ∧ c'.task = c.task ∧ c'.closing = c.closing ∧ c'.held = c.held ∧ c'.made = c.made ∧
      c'.panicked = c.panicked := by
  simpa [frame] using h.frame_eq

theorem Known.of_eq {c c' : ClientConn} (h : c.Known r) (hmade : c'.made = c.made)
    (htask : c'.task = c.task) : c'.Known r :=
  ⟨hmade ▸ h.made, htask ▸ h.owner⟩

/-- Confirms for a known request keep the books. -/
theorem Books.confirmed {c c' : ClientConn} (h : c.Books) (hr : c.made[r.id]? = some r)
    (hc : Confirmed r n c c') : c'.Books := by
  obtain ⟨-, htask, hclosing, hheld, hmade, hpanicked⟩ := hc.eqs
  obtain ⟨ms, hms, hfor⟩ := hc.confirms
  refine ⟨hpanicked.trans h.runs, ?_, ?_, ?_, ?_⟩
  · rw [hheld, hclosing]
    exact h.held
  · intro r' hr'
    rw [hheld] at hr'
    exact (h.known r' hr').of_eq hmade htask
  · intro m hm
    rw [hms] at hm
    rw [hmade]
    obtain hm | hm := mem_append.mp hm
    · exact h.sent m hm
    · rw [hfor.id_eq m hm, hr, hfor.task_eq m hm]
      rfl
  · rw [hmade]
    exact h.tasks

/-- A turn ends with the request waiting again, or confirmed. -/
theorem Owing.inv {c c' : ClientConn} (h : Owing c r) (ht : Turn r c c') : Inv c' := by
  have hcount : ∀ {n : ℕ}, Confirmed r n c c' → ∀ i, c'.heldCount i = c.heldCount i ∧ c'.madeCount i = c.madeCount i := by
    intro n hc i
    obtain ⟨-, -, -, hheld, hmade, -⟩ := hc.eqs
    exact ⟨by rw [heldCount, hheld, heldCount], by rw [madeCount, hmade, madeCount]⟩
  obtain ⟨hc, a, ha⟩ | ⟨hc, hidle⟩ := ht
  · obtain ⟨hmapped, htask, -, -, hmade, -⟩ := hc.eqs
    refine ⟨h.books.confirmed h.known.made hc, .inr ⟨r, a, ha, h.known.of_eq hmade htask⟩, ?_, fun i => ?_⟩
    · intro hfree
      rw [hmapped, h.mapped] at hfree
      contradiction
    · rw [hc.finals, ha.waiting_eq, (hcount hc i).1, (hcount hc i).2, ← h.count i]
      split <;> omega
  · obtain ⟨hmapped, -⟩ := hc.eqs
    refine ⟨h.books.confirmed h.known.made hc, .inl hidle, ?_, fun i => ?_⟩
    · intro hfree
      rw [hmapped, h.mapped] at hfree
      contradiction
    · rw [hc.finals, hidle.waiting_eq, (hcount hc i).1, (hcount hc i).2, ← h.count i]
      split <;> omega

variable {c : ClientConn}

theorem Inv.task_ne (h : Inv c) (hr : c.Known r) : r.task ≠ 0 :=
  h.books.tasks r (mem_of_getElem? hr.made)

/-- While `data.app` is clear, no procedure runs. -/
theorem Inv.idle (h : Inv c) (happ : c.app = 0) : Idle c := by
  obtain hidle | ⟨r, a, ha, hr⟩ := h.turn
  · exact hidle
  · exact absurd (ha.app.symm.trans happ) (h.task_ne hr)

/-- An entry that is there when something is held. -/
theorem Inv.mapped_of_held (h : Inv c) (hheld : c.held ≠ []) : c.mapped = true := by
  by_contra hfree
  exact hheld (h.mapped (Bool.eq_false_iff.mpr hfree)).1

theorem Inv.serial (h : Inv c) : Serial c := by
  have hfinals : ∀ i < c.made.length, c.finals i = if c.waiting i = 0 then 1 else 0 := by
    intro i hi
    have hcount := h.count i
    rw [madeCount, if_pos hi] at hcount
    split <;> omega
  obtain hidle | ⟨r, a, ha, hr⟩ := h.turn
  · exact ⟨h.books.runs, by simp [hidle.outstanding], by simp [hidle.app, hidle.outstanding], hfinals, h.books.sent⟩
  · have htask := h.task_ne hr
    exact ⟨h.books.runs, by simp [ha.outstanding], by simp [ha.app, htask, ha.outstanding], hfinals, h.books.sent⟩

/-! ### Requests -/

/-- The books with one more request. -/
theorem Books.made {c : ClientConn} (h : c.Books) (htask : r.task ≠ 0) :
    ({ c with made := c.made ++ [r] } : ClientConn).Books := by
  have hold : ∀ (i : ℕ) (r' : ClientReq), c.made[i]? = some r' → (c.made ++ [r])[i]? = some r' := by
    intro i r' hi
    obtain ⟨hlt, -⟩ := List.getElem?_eq_some_iff.mp hi
    rw [List.getElem?_append_left hlt, hi]
  refine ⟨h.runs, h.held, fun r' hr' => ?_, fun m hm => ?_, fun r' hr' => ?_⟩
  · have hknown := h.known r' hr'
    exact ⟨hold _ _ hknown.made, hknown.owner⟩
  · obtain ⟨r', hr', hsent⟩ := map_eq_some_iff.mp (h.sent m hm)
    exact map_eq_some_iff.mpr ⟨r', hold _ _ hr', hsent⟩
  · obtain hr' | hr' := mem_append.mp hr'
    · exact h.tasks r' hr'
    · rwa [mem_singleton.mp hr']

theorem madeCount_made (r : ClientReq) (hid : r.id = c.made.length) (i : ℕ) :
    ({ c with made := c.made ++ [r] } : ClientConn).madeCount i = c.madeCount i + if r.id = i then 1 else 0 := by
  simp only [madeCount, length_append, length_singleton, hid]
  split <;> split <;> split <;> omega

variable {c' : ClientConn}

/-- The requests that wait do not change when one more is made. -/
theorem Inv.turn_made (h : Inv c) (r : ClientReq) (hmade : c'.made = c.made ++ [r])
    (htask : c'.task = c.task) (happ : c'.app = c.app) (hscenario : c'.scenario = c.scenario)
    (hstash : c'.stash = c.stash) (hout : c'.outstanding = c.outstanding) :
    Idle c' ∨ ∃ r a, Asked c' r a false ∧ c'.Known r := by
  obtain hidle | ⟨r', a, ha, hr'⟩ := h.turn
  · exact .inl ⟨happ.trans hidle.app, hstash.trans hidle.stash, hout.trans hidle.outstanding⟩
  · obtain ⟨hlt, -⟩ := List.getElem?_eq_some_iff.mp hr'.made
    refine .inr ⟨r', a, ⟨happ.trans ha.app, hscenario.trans ha.scenario, hstash ▸ ha.fits, hout.trans ha.outstanding⟩,
      ⟨?_, htask ▸ hr'.owner⟩⟩
    rw [hmade, List.getElem?_append_left hlt, hr'.made]

/-- A request that is not held is confirmed at once. -/
theorem Inv.refused (h : Inv c) (hid : r.id = c.made.length) (htask : r.task ≠ 0)
    (status : ClientStatus) :
    Inv (({ c with made := c.made ++ [r] } : ClientConn).confirm r r.task status .empty false) := by
  set c₁ : ClientConn := { c with made := c.made ++ [r] } with hc₁
  have hmade : c₁.made[r.id]? = some r := by
    rw [hid]
    exact List.getElem?_concat_length
  have hconfirmed : Confirmed r 1 c₁ (c₁.confirm r r.task status .empty false) :=
    .one (m := ⟨r.id, r.task, status, .empty, false⟩) rfl rfl rfl rfl
  refine ⟨(h.books.made htask).confirmed hmade hconfirmed, h.turn_made r rfl rfl rfl rfl rfl rfl, ?_, fun i => ?_⟩
  · intro hfree
    obtain ⟨hheld, hclosing, hidle⟩ := h.mapped hfree
    exact ⟨hheld, hclosing, hidle.app, hidle.stash, hidle.outstanding⟩
  · have hcount := h.count i
    have hmore := madeCount_made r hid i
    have hfinals := hconfirmed.finals i
    change _ + c.waiting i = c₁.madeCount i
    change _ = c.finals i + _ at hfinals
    rw [hfinals, hmore, ← hcount]
    omega

theorem Inv.request (h : Inv c) (hid : r.id = c.made.length) (htask : r.task ≠ 0)
    (howner : c.mapped = true → c.closing = false → r.procedure.isHandleValue = true → r.task = c.task)
    (validUuid : Bool) : Inv (c.request r validUuid) := by
  rw [ClientConn.request]
  split
  · rename_i hopen
    rw [Bool.and_eq_true, Bool.not_eq_true'] at hopen
    have hmapped : c.mapped = true := hopen.1
    have hclosing : c.closing = false := hopen.2
    split
    · exact h.refused hid htask _
    · have hbooks := h.books.made htask
      refine ⟨⟨hbooks.runs, ?_, fun r' hr' => ?_, hbooks.sent, hbooks.tasks⟩,
        h.turn_made r rfl rfl rfl rfl rfl rfl, ?_, fun i => ?_⟩
      · obtain ⟨rs, hrs⟩ := h.books.held
        rw [hclosing] at hrs
        refine ⟨rs ++ [r], ?_⟩
        change c.held ++ [.request r] = _ ++ if c.closing = true then _ else _
        simp [hrs, hclosing]
      · obtain hr' | hr' := mem_append.mp hr'
        · exact ⟨(hbooks.known r' hr').made, (hbooks.known r' hr').owner⟩
        · obtain rfl : r' = r := by simpa using hr'
          refine ⟨?_, howner hmapped hclosing⟩
          rw [hid]
          exact List.getElem?_concat_length
      · intro hfree
        exact absurd (hmapped.symm.trans hfree) (by simp)
      · have hcount := h.count i
        have hmore := madeCount_made r hid i
        change c.finals i + ((c.held ++ [Held.request r]).countP (Held.isRequest i) + _) =
          ({ c with made := c.made ++ [r] } : ClientConn).madeCount i
        rw [hmore, ← hcount, waiting_eq, countP_append, heldCount]
        by_cases hi : r.id = i
        · simp [Held.isRequest, hi]
          omega
        · simp [Held.isRequest, hi]
  · exact h.refused hid htask _

/-! ### What is held -/

/-- The entry is deleted while nothing is held for it. -/
theorem Inv.deleted (h : Inv c) (hidle : Idle c) (hheld : c'.held = []) (hmade : c'.made = c.made)
    (hconfirms : c'.confirms = c.confirms) (hout : c'.outstanding = c.outstanding) (hpanicked : c'.panicked = c.panicked)
    (hnone : ∀ i, c.heldCount i = 0) : Inv c'.gattDeleteCid := by
  have hidle' : Idle c'.gattDeleteCid := ⟨rfl, rfl, hout.trans hidle.outstanding⟩
  have hheld' : c'.gattDeleteCid.held = [] := hheld
  have hmade' : c'.gattDeleteCid.made = c.made := hmade
  have hconfirms' : c'.gattDeleteCid.confirms = c.confirms := hconfirms
  refine ⟨⟨hpanicked.trans h.books.runs, ⟨[], by rw [hheld']; rfl⟩, ?_, ?_, ?_⟩, .inl hidle', fun _ => ?_, fun i => ?_⟩
  · rw [hheld']
    intro r hr
    contradiction
  · rw [hmade', hconfirms']
    exact h.books.sent
  · rw [hmade']
    exact h.books.tasks
  · exact ⟨hheld', rfl, hidle'⟩
  · have hcount := h.count i
    rw [hidle.waiting_eq, hnone i] at hcount
    rw [hidle'.waiting_eq, finals, hconfirms', heldCount, hheld', madeCount, hmade']
    exact hcount

variable {t : ClientConn}

theorem Inv.deliver (h : Inv c) {addrKnown : Bool} (hs : c.deliver addrKnown = some t) : Inv t := by
  rw [ClientConn.deliver] at hs
  cases hheld : c.held with
  | nil => simp [hheld] at hs
  | cons held rest =>
    simp only [hheld, ite_none_right_eq_some, some.injEq] at hs
    obtain ⟨happ, rfl⟩ := hs
    have hidle := h.idle happ
    have hmapped := h.mapped_of_held (by simp [hheld])
    obtain ⟨rs, hrs⟩ := h.books.held
    cases rs with
    | nil =>
      rw [hheld, map_nil, nil_append] at hrs
      cases hclosing : c.closing with
      | false => simp [hclosing] at hrs
      | true =>
        simp only [hclosing, if_true, List.cons.injEq] at hrs
        obtain ⟨rfl, rfl⟩ := hrs
        refine h.deleted hidle rfl rfl rfl rfl rfl fun i => ?_
        rw [heldCount, hheld]
        rfl
    | cons r rs =>
      rw [hheld, map_cons, List.cons_append, List.cons.injEq] at hrs
      obtain ⟨rfl, hrest⟩ := hrs
      have hknown := h.books.known r (by simp [hheld])
      have howing : Owing { c with held := rest } r := by
        refine ⟨⟨h.books.runs, ⟨rs, hrest⟩, fun r' hr' => ?_, h.books.sent, h.books.tasks⟩, hmapped,
          ⟨hknown.made, hknown.owner⟩, fun i => ?_⟩
        · have hr'' := h.books.known r' (by rw [hheld]; exact mem_cons_of_mem _ hr')
          exact ⟨hr''.made, hr''.owner⟩
        · have hcount := h.count i
          rw [hidle.waiting_eq, heldCount, hheld, countP_cons] at hcount
          change c.finals i + rest.countP (Held.isRequest i) + _ = c.madeCount i
          rw [← hcount, ← Nat.add_assoc]
          simp [Held.isRequest]
      have hidle' : Idle { c with held := rest } := ⟨hidle.app, hidle.stash, hidle.outstanding⟩
      exact howing.inv (turn_handleInternalReq hidle' hmapped addrKnown)

/-! ### Confirms of ATT -/

theorem Inv.attCfm (h : Inv c) {cfm : AttCfm} (hblob : c.BlobFits cfm)
    (hs : c.attCfm n cfm = some t) : Inv t := by
  rw [ClientConn.attCfm] at hs
  obtain hidle | ⟨r, a, ha, hr⟩ := h.turn
  · simp [hidle.outstanding] at hs
  · have hmapped : c.mapped = true := by
      by_contra hfree
      have hidle := (h.mapped (Bool.eq_false_iff.mpr hfree)).2.2
      exact h.task_ne hr (ha.app.symm.trans hidle.app)
    have hout : c.outstanding = [(r, a)] := ha.outstanding
    cases n with
    | succ n => simp [hout] at hs
    | zero =>
      simp only [hout, List.getElem?_cons_zero, ite_none_right_eq_some, some.injEq] at hs
      obtain ⟨hanswers, rfl⟩ := hs
      have hsettle : (c.settle 0 cfm).outstanding = if cfm.isLast then [] else [(r, a)] := by
        rw [settle]
        split <;> simp [hout]
      have hframe : (c.settle 0 cfm).frame = c.frame := by
        rw [settle]
        split <;> rfl
      have hsame : (c.settle 0 cfm).app = c.app ∧ (c.settle 0 cfm).scenario = c.scenario ∧
          (c.settle 0 cfm).stash = c.stash ∧ (c.settle 0 cfm).mtu = c.mtu ∧
          (c.settle 0 cfm).confirms = c.confirms := by
        rw [settle]
        split <;> exact ⟨rfl, rfl, rfl, rfl, rfl⟩
      obtain ⟨happ, hscenario, hstash, hmtu, hconfirms⟩ := hsame
      have hsettled : Confirmed r 0 c (c.settle 0 cfm) := .none hframe hconfirms
      obtain ⟨hmapped', htask, -, hheld, hmade, -⟩ := hsettled.eqs
      have hknown := hr.of_eq hmade htask
      have howing : Owing (c.settle 0 cfm) r := by
        refine ⟨h.books.confirmed hr.made hsettled, hmapped'.trans hmapped, hknown, fun i => ?_⟩
        have hcount := h.count i
        rw [ha.waiting_eq] at hcount
        rw [hsettled.finals, heldCount, hheld, madeCount, hmade]
        rw [heldCount, madeCount] at hcount
        simp only [ite_self, Nat.add_zero]
        omega
      refine howing.inv (turn_handleCfm ⟨happ.trans ha.app, hscenario.trans ha.scenario, ?_, hsettle⟩ hanswers
        howing.mapped hknown.owner ?_)
      · rw [hstash]
        exact ha.fits
      · cases cfm with
        | readBlob result value =>
          rw [BlobFits, hmtu]
          exact hblob
        | _ => trivial

/-! ### Connecting and disconnecting -/

/-- An entry without a procedure changes, with nothing that is held for it. -/
theorem Inv.of_idle (h : Inv c) (hframe : c'.frame = c.frame) (hconfirms : c'.confirms = c.confirms)
    (hidle : Idle c) (hidle' : Idle c') : Inv c' := by
  obtain ⟨hmapped, htask, hclosing, hheld, hmade, hpanicked⟩ : c'.mapped = c.mapped ∧ c'.task = c.task ∧
      c'.closing = c.closing ∧ c'.held = c.held ∧ c'.made = c.made ∧ c'.panicked = c.panicked := by
    simpa [frame] using hframe
  refine ⟨⟨hpanicked.trans h.books.runs, ?_, fun r hr => ?_, ?_, ?_⟩, .inl hidle', fun hfree => ?_, fun i => ?_⟩
  · rw [hheld, hclosing]
    exact h.books.held
  · rw [hheld] at hr
    exact (h.books.known r hr).of_eq hmade htask
  · rw [hconfirms, hmade]
    exact h.books.sent
  · rw [hmade]
    exact h.books.tasks
  · rw [hmapped] at hfree
    obtain ⟨hnone, hopen, -⟩ := h.mapped hfree
    exact ⟨hheld.trans hnone, hclosing.trans hopen, hidle'⟩
  · have hcount := h.count i
    rw [hidle.waiting_eq] at hcount
    rw [hidle'.waiting_eq, finals, hconfirms, heldCount, hheld, madeCount, hmade]
    exact hcount

/-- An entry is added. -/
theorem Inv.added (h : Inv c) (hfree : c.mapped = false) (task : Task) :
    Inv ({ c with mapped := true, task := task } : ClientConn) := by
  obtain ⟨hheld, hclosing, hidle⟩ := h.mapped hfree
  have hidle' : Idle ({ c with mapped := true, task := task } : ClientConn) :=
    ⟨hidle.app, hidle.stash, hidle.outstanding⟩
  refine ⟨⟨h.books.runs, h.books.held, fun r hr => ?_, h.books.sent, h.books.tasks⟩, .inl hidle', fun hfree' => ?_,
    h.count⟩
  · change Held.request r ∈ c.held at hr
    rw [hheld] at hr
    contradiction
  · contradiction

theorem Inv.gattAddCid (h : Inv c) (task : Task) : Inv (c.gattAddCid task) := by
  rw [ClientConn.gattAddCid]
  split
  · exact h
  · rename_i hfree
    exact h.added (Bool.eq_false_iff.mpr hfree) task

theorem mapped_gattAddCid (task : Task) : (c.gattAddCid task).mapped = true := by
  rw [ClientConn.gattAddCid]
  split
  · assumption
  · rfl

/-- A connection is locked only while no procedure runs. -/
theorem Inv.gattLockCid (h : Inv c) (hmapped : c.mapped = true) (scenario : MsgScen) :
    Inv (c.gattLockCid scenario) := by
  rw [ClientConn.gattLockCid, if_pos hmapped]
  split
  · rename_i hscenario
    obtain hidle | ⟨r, a, ha, -⟩ := h.turn
    · exact h.of_idle rfl rfl hidle ⟨hidle.app, hidle.stash, hidle.outstanding⟩
    · rw [ha.scenario] at hscenario
      contradiction
  · exact h

theorem Inv.idle_gattUnlockCid (h : Inv c) (hclear : c.Clearable) :
    Idle c.gattUnlockCid ∧ c.gattUnlockCid.frame = c.frame ∧ c.gattUnlockCid.confirms = c.confirms := by
  have hidle := h.idle hclear.2
  rw [gattUnlockCid, if_pos hclear.1]
  exact ⟨⟨rfl, rfl, hidle.outstanding⟩, rfl, rfl⟩

theorem Inv.gattConnectResponse (h : Inv c) {theAppTask : Task} {le accept : Bool}
    (hpromised : c.Promised (.connectResponse theAppTask le accept))
    (hadmits : c.Admits (.connectResponse theAppTask le accept)) : Inv (c.gattConnectResponse theAppTask le accept) := by
  cases le with
  | true =>
    cases accept with
    | true =>
      obtain ⟨hidle, hframe, hconfirms⟩ := h.idle_gattUnlockCid hadmits
      exact h.of_idle hframe hconfirms (h.idle hadmits.2) hidle
    | false => exact h
  | false =>
    have hlocked := (h.gattAddCid theAppTask).gattLockCid (mapped_gattAddCid theAppTask) .connectRsp
    have hidle : Idle ((c.gattAddCid theAppTask).gattLockCid .connectRsp) := by
      refine hlocked.idle ?_
      have hfree := (h.mapped hpromised).2.2
      rw [ClientConn.gattLockCid, ClientConn.gattAddCid, hpromised]
      simp only [Bool.false_eq_true, if_false, if_true]
      split <;> exact hfree.app
    exact hlocked.of_idle rfl rfl hidle ⟨hidle.app, hidle.stash, hidle.outstanding⟩

theorem Inv.gattHandleAttConnectInd (h : Inv c) (theAppTask : Task) (le : Bool) :
    Inv (c.gattHandleAttConnectInd theAppTask le) := by
  cases le with
  | true => exact (h.gattAddCid theAppTask).gattLockCid (mapped_gattAddCid theAppTask) _
  | false => exact h

theorem Inv.connectFailure (h : Inv c) (hadmits : c.mapped = true → c.app = 0 ∧ c.held = []) :
    Inv (if c.mapped then c.gattDeleteCid else c) := by
  split
  · rename_i hmapped
    obtain ⟨happ, hheld⟩ := hadmits hmapped
    refine h.deleted (h.idle happ) hheld rfl rfl rfl rfl fun i => ?_
    rw [heldCount, hheld]
    rfl
  · exact h

theorem Inv.gattHandleAttConnectCfm (h : Inv c) {connReqTask : Task} {result : L2caConnResult} {le : Bool}
    {mtu : BitVec 16} (hadmits : c.Admits (.connectCfm connReqTask result le mtu)) :
    Inv (c.gattHandleAttConnectCfm connReqTask result le mtu) := by
  cases result with
  | pending => exact h
  | initiating => exact (h.gattAddCid connReqTask).gattLockCid (mapped_gattAddCid connReqTask) _
  | success =>
    obtain ⟨hidle, hframe, hconfirms⟩ := h.idle_gattUnlockCid hadmits
    exact h.of_idle hframe hconfirms (h.idle hadmits.2) ⟨hidle.app, hidle.stash, hidle.outstanding⟩
  | _ => exact h.connectFailure hadmits

theorem Inv.gattHandleAttDisconnectInd (h : Inv c) (hopen : c.closing = false) : Inv c.gattHandleAttDisconnectInd := by
  rw [ClientConn.gattHandleAttDisconnectInd]
  split
  · rename_i hmapped
    have hcount : ∀ i, (c.held ++ [Held.deleteConn]).countP (Held.isRequest i) = c.heldCount i := by
      intro i
      rw [countP_append, heldCount]
      rfl
    refine ⟨⟨h.books.runs, ?_, fun r hr => ?_, h.books.sent, h.books.tasks⟩, ?_, fun hfree => ?_, fun i => ?_⟩
    · obtain ⟨rs, hrs⟩ := h.books.held
      rw [hopen] at hrs
      refine ⟨rs, ?_⟩
      change c.held ++ [.deleteConn] = _
      rw [hrs]
      simp
    · have hr' : Held.request r ∈ c.held := by simpa using hr
      exact ⟨(h.books.known r hr').made, (h.books.known r hr').owner⟩
    · obtain hidle | ⟨r, a, ha, hr⟩ := h.turn
      · exact .inl ⟨hidle.app, hidle.stash, hidle.outstanding⟩
      · exact .inr ⟨r, a, ⟨ha.app, ha.scenario, ha.fits, ha.outstanding⟩, hr.made, hr.owner⟩
    · exact absurd (hmapped.symm.trans hfree) (by simp)
    · have := h.count i
      rw [waiting_eq] at this
      change c.finals i + ((c.held ++ [Held.deleteConn]).countP (Held.isRequest i) + _) = c.madeCount i
      rw [hcount i]
      exact this
  · exact h

/-! ### Runs -/

/-- One admitted step. -/
theorem Inv.step (h : Inv c) {input : ClientInput} (hpromised : c.Promised input)
    (hadmits : c.Admits input) (hs : c.step input = some t) : Inv t := by
  simp only [ClientConn.step, h.books.runs, Bool.false_eq_true, if_false] at hs
  cases input with try obtain rfl := some.inj hs
  | request task procedure start endHandle offs value validUuid =>
    exact h.request (r := ⟨c.made.length, task, procedure, start, endHandle, offs, value⟩) rfl hpromised hadmits
      validUuid
  | deliver addrKnown => exact h.deliver hs
  | attCfm n cfm =>
    refine h.attCfm ?_ hs
    cases cfm with
    | readBlob result value => exact ⟨hpromised, hadmits⟩
    | _ => trivial
  | connectInd theAppTask le => exact h.gattHandleAttConnectInd theAppTask le
  | connectResponse theAppTask le accept => exact h.gattConnectResponse hpromised hadmits
  | connectCfm connReqTask result le mtu => exact h.gattHandleAttConnectCfm hadmits
  | disconnectInd => exact h.gattHandleAttDisconnectInd hpromised

theorem inv_free : Inv free := by
  refine ⟨⟨rfl, ⟨[], rfl⟩, ?_, ?_, ?_⟩, .inl ⟨rfl, rfl, rfl⟩, fun _ => ⟨rfl, rfl, rfl, rfl, rfl⟩, fun i => ?_⟩
  · intro r hr
    contradiction
  · intro m hm
    contradiction
  · intro r hr
    contradiction
  · simp [finals, waiting, madeCount, free]

/-- A client that steps as admitted runs one procedure at a time, and confirms every request once. -/
theorem serial_of_run {es : List ClientInput} {t : ClientConn}
    (hok : Lib.RunMeets ClientConn.step (fun c e => c.Promised e ∧ c.Admits e) free es)
    (hrun : Lib.run ClientConn.step free es = some t) : Serial t :=
  (Lib.run_invariant (fun _ _ _ hinv hstep hs => hinv.step hstep.1 hstep.2 hs) inv_free hok hrun).serial

/-- A long value is read in two blobs, with a notification and the disconnection meanwhile. -/
def readAndNotify : List ClientInput :=
  [.connectInd 1 true, .connectResponse 1 true true, .request 2 .readLong 3 0 0 [] true, .deliver false,
    .request 1 .notification 5 0 0 [7] true, .attCfm 0 (.readBlob attResultSuccess [1, 2, 3]), .disconnectInd,
    .request 2 .read 3 0 0 [] true, .deliver false, .attCfm 0 (.handleValue attResultSuccess), .deliver false]

theorem serial_readAndNotify : (Lib.run ClientConn.step free readAndNotify).any (fun t => decide (t.confirms.length = 3)) ∧
    ∀ t, Lib.run ClientConn.step free readAndNotify = some t → Serial t :=
  ⟨by decide, fun _ => serial_of_run (by decide)⟩

/-- **A connection that is gone leaves nothing behind**: all of its requests have been answered, once. -/
theorem settled_of_run {es : List ClientInput} {t : ClientConn}
    (hok : Lib.RunMeets ClientConn.step (fun c e => c.Promised e ∧ c.Admits e) free es)
    (hrun : Lib.run ClientConn.step free es = some t) (hgone : t.mapped = false) :
    t.held = [] ∧ t.outstanding = [] ∧ t.app = 0 ∧ t.stash = none ∧ ∀ i < t.made.length, t.finals i = 1 := by
  have h : Inv t := Lib.run_invariant (fun _ _ _ hinv hstep hs => hinv.step hstep.1 hstep.2 hs) inv_free hok hrun
  obtain ⟨hheld, -, hidle⟩ := h.mapped hgone
  refine ⟨hheld, hidle.outstanding, hidle.app, hidle.stash, fun i hi => ?_⟩
  rw [h.serial.finals_eq i hi, hidle.waiting_eq, heldCount, hheld]
  rfl

theorem settled_readAndNotify : (Lib.run ClientConn.step free readAndNotify).any (fun t => !t.mapped) ∧
    ∀ t, Lib.run ClientConn.step free readAndNotify = some t → t.mapped = false → t.held = [] :=
  ⟨by decide, fun _ hrun hgone => (settled_of_run (by decide) hrun hgone).1⟩

/-- An LE connection is accepted when its first request is running, and ATT confirms this then. -/
def acceptedLate : List ClientInput :=
  [.connectInd 1 true, .request 1 .read 3 0 0 [] true, .deliver false, .connectResponse 1 true true,
    .attCfm 0 (.read attResultSuccess [7])]

/-- The confirm of the request is lost. -/
theorem not_alwaysSerial : ¬AlwaysSerial := by
  intro h
  have hruns : (Lib.run ClientConn.step free acceptedLate).any fun t =>
      decide (0 < t.made.length ∧ t.finals 0 = 0 ∧ t.waiting 0 = 0) := by decide
  obtain ⟨t, ht, hlost⟩ := (Option.any_eq_true _ _).mp hruns
  obtain ⟨hmade, hfinals, hwaiting⟩ := of_decide_eq_true hlost
  have hserial := (h acceptedLate t (by decide) ht).finals_eq 0 hmade
  rw [hfinals, hwaiting, if_pos rfl] at hserial
  contradiction

end ClientConn

end Cbps.Gatt
