import Cbps.Gatt.Clients

/-!
# Turns of a procedure

A procedure that runs has asked ATT once (`Asked`). Every handler either lets it go on, with confirms that have
more to come, or ends it with one final confirm (`Turn`). There is one lemma for each handler.
-/

namespace Cbps.Gatt

open List

namespace ClientConn

/-! ### Confirms of one request -/

/-- Confirms for a request, of which `n` are final. -/
structure ConfirmsFor (r : ClientReq) (n : ℕ) (ms : List ClientCfm) : Prop where
  id_eq : ∀ m ∈ ms, m.id = r.id
  task_eq : ∀ m ∈ ms, m.task = r.task
  finals : ms.countP (fun m => !m.moreToCome) = n

theorem ConfirmsFor.nil (r : ClientReq) : ConfirmsFor r 0 [] := ⟨by simp, by simp, rfl⟩

theorem ConfirmsFor.single {r : ClientReq} {m : ClientCfm} (hid : m.id = r.id) (htask : m.task = r.task) :
    ConfirmsFor r (if m.moreToCome then 0 else 1) [m] := by
  refine ⟨by simpa using hid, by simpa using htask, ?_⟩
  cases h : m.moreToCome <;> simp [h]

theorem ConfirmsFor.append {r : ClientReq} {n k : ℕ} {ms ns : List ClientCfm} (hm : ConfirmsFor r n ms)
    (hn : ConfirmsFor r k ns) : ConfirmsFor r (n + k) (ms ++ ns) := by
  refine ⟨fun m h => ?_, fun m h => ?_, ?_⟩
  · exact (mem_append.mp h).elim (hm.id_eq m) (hn.id_eq m)
  · exact (mem_append.mp h).elim (hm.task_eq m) (hn.task_eq m)
  · rw [countP_append, hm.finals, hn.finals]

/-- What a procedure leaves alone. -/
def frame (c : ClientConn) : Bool × GattManager.Task × Bool × List Held × List ClientReq × Bool :=
  (c.mapped, c.task, c.closing, c.held, c.made, c.panicked)

/-- Nothing is done but to confirm the request, `n` times finally. -/
structure Confirmed (r : ClientReq) (n : ℕ) (c c' : ClientConn) : Prop where
  frame_eq : c'.frame = c.frame
  confirms : ∃ ms, c'.confirms = c.confirms ++ ms ∧ ConfirmsFor r n ms

theorem Confirmed.none {r : ClientReq} {c c' : ClientConn} (hframe : c'.frame = c.frame)
    (hconfirms : c'.confirms = c.confirms) : Confirmed r 0 c c' :=
  ⟨hframe, [], by simpa using hconfirms, .nil r⟩

theorem Confirmed.trans {r : ClientReq} {n k : ℕ} {c c' c'' : ClientConn} (h : Confirmed r n c c')
    (h' : Confirmed r k c' c'') : Confirmed r (n + k) c c'' := by
  obtain ⟨ms, hms, hfor⟩ := h.confirms
  obtain ⟨ns, hns, hfor'⟩ := h'.confirms
  exact ⟨h'.frame_eq.trans h.frame_eq, ms ++ ns, by rw [hns, hms, append_assoc], hfor.append hfor'⟩

/-- One confirm. -/
theorem Confirmed.one {r : ClientReq} {c c' : ClientConn} {m : ClientCfm} (hframe : c'.frame = c.frame)
    (hconfirms : c'.confirms = c.confirms ++ [m]) (hid : m.id = r.id) (htask : m.task = r.task) :
    Confirmed r (if m.moreToCome then 0 else 1) c c' :=
  ⟨hframe, [m], hconfirms, .single hid htask⟩

/-! ### Procedures that run -/

/-- The message in the stash, if any, is for the request. -/
def Keeps (r : ClientReq) (stash : Option Stash) : Prop := ∀ m ∈ stash, m.id = r.id

/-- The message in the stash is the confirm of a write. -/
def Writes (r : ClientReq) (stash : Option Stash) : Prop := ∃ m, stash = some m ∧ m.id = r.id ∧ m.moreToCome = false

/-- What a procedure asks, with the stash that it has then. -/
def Fits (r : ClientReq) (stash : Option Stash) : AttReq → Prop
  | .exchangeMtu => r.procedure = .exchangeMtu ∧ stash = none
  | .readByGroupType _ => r.procedure = .discoverAllPrimaryServices ∧ Keeps r stash
  | .findByTypeValue _ => r.procedure = .discoverPrimaryService ∧ Keeps r stash
  | .readByType _ => r.procedure ∈ [.findIncludes, .discoverAllCharacteristics, .readByUuid] ∧ Keeps r stash
  | .findInfo _ => r.procedure = .discoverAllDescriptors ∧ Keeps r stash
  | .read _ =>
    r.procedure = .read ∧ stash = none ∨ r.procedure = .findIncludes ∧ ∃ m, stash = some m ∧ m.id = r.id
  | .readBlob _ => r.procedure = .readLong ∧ stash = none
  | .readMulti => r.procedure = .readMultiple ∧ stash = none
  | .write =>
    r.procedure ∈ [.writeWithoutResponse, .signedWriteWithoutResponse, .writeCharacteristicValue] ∧ Writes r stash
  | .prepareWrite _ _ => r.procedure ∈ [.writeLongCharacteristicValue, .prepareWrite] ∧ Writes r stash
  | .executeWrite =>
    r.procedure = .executeWrite ∧ stash = none ∨ r.procedure = .writeLongCharacteristicValue ∧ Writes r stash
  | .handleValue => r.procedure.isHandleValue = true ∧ stash = none
  | .sdpSearch => r.procedure ∈ [.discoverAllPrimaryServices, .discoverPrimaryService] ∧ stash = none

/-- The procedure of `r` runs and has asked `a`. After the last confirm, nothing is outstanding. -/
structure Asked (c : ClientConn) (r : ClientReq) (a : AttReq) (last : Bool) : Prop where
  app : c.app = r.task
  scenario : c.scenario = .procedure r.procedure
  fits : Fits r c.stash a
  outstanding : c.outstanding = if last then [] else [(r, a)]

/-- No procedure runs. -/
structure Idle (c : ClientConn) : Prop where
  app : c.app = 0
  stash : c.stash = none
  outstanding : c.outstanding = []

/-- The procedure goes on, or it ends with its final confirm. -/
def Turn (r : ClientReq) (c c' : ClientConn) : Prop :=
  (Confirmed r 0 c c' ∧ ∃ a, Asked c' r a false) ∨ (Confirmed r 1 c c' ∧ Idle c')

variable {c : ClientConn} {r : ClientReq}

variable {a : AttReq} {c' : ClientConn}

theorem Turn.goesOn (h : Confirmed r 0 c c') (ha : Asked c' r a false) : Turn r c c' :=
  .inl ⟨h, a, ha⟩

theorem Turn.ends (h : Confirmed r 1 c c') (ha : Idle c') : Turn r c c' := .inr ⟨h, ha⟩

theorem Confirmed.turn {c' c'' : ClientConn} (h : Confirmed r 0 c c') (ht : Turn r c' c'') : Turn r c c'' := by
  obtain ⟨hc, a, ha⟩ | ⟨hc, hi⟩ := ht
  · exact .goesOn (by simpa using h.trans hc) ha
  · exact .ends (by simpa using h.trans hc) hi

/-! ### Parts of the handlers -/

variable {m : Stash}

/-- The pending message is sent. -/
theorem confirmed_gattMessageSend (happ : c.app = r.task) (hstash : c.stash = some m) (hid : m.id = r.id) :
    Confirmed r (if m.moreToCome then 0 else 1) c c.gattMessageSend := by
  rw [gattMessageSend, hstash]
  exact .one (m := ⟨m.id, c.app, .att m.status, m.item, m.moreToCome⟩) rfl rfl hid happ

@[simp] theorem stash_gattMessageSend : c.gattMessageSend.stash = none := by
  rw [gattMessageSend]
  split
  · rfl
  · assumption

@[simp] theorem app_gattMessageSend : c.gattMessageSend.app = c.app := by
  rw [gattMessageSend]
  split <;> rfl

@[simp] theorem scenario_gattMessageSend : c.gattMessageSend.scenario = c.scenario := by
  rw [gattMessageSend]
  split <;> rfl

@[simp] theorem outstanding_gattMessageSend : c.gattMessageSend.outstanding = c.outstanding := by
  rw [gattMessageSend]
  split <;> rfl

/-- The pending message is sent, and the procedure ends. -/
theorem turn_gattMessageSend_unlock (happ : c.app = r.task) (hstash : c.stash = some m)
    (hid : m.id = r.id) (hmore : m.moreToCome = false) (hout : c.outstanding = []) :
    Turn r c c.gattMessageSend.unlock := by
  have h := confirmed_gattMessageSend happ hstash hid
  rw [hmore] at h
  have hu : Confirmed r 0 c.gattMessageSend c.gattMessageSend.unlock := .none rfl rfl
  exact .ends (h.trans hu) ⟨rfl, stash_gattMessageSend, outstanding_gattMessageSend.trans hout⟩

/-- A procedure of one confirm. -/
theorem turn_finishWith (happ : c.app = r.task) (hstash : c.stash = none) (hout : c.outstanding = [])
    (status : ClientStatus) (item : Item) : Turn r c (c.finishWith r status item) :=
  .ends (.one (m := ⟨r.id, c.app, status, item, false⟩) rfl rfl rfl happ) ⟨rfl, hstash, hout⟩

/-- Whatever the result is, a message can be sent or more can follow. -/
theorem more_or_send (result : AttResult) (final : Bool) : (more result final || send result final) = true := by
  rw [more, send]
  cases decide (result = attResultSuccess) && !final <;> simp

/-- The state of the procedure, but for the stash. -/
structure SameTurn (c c' : ClientConn) : Prop where
  app : c'.app = c.app
  scenario : c'.scenario = c.scenario
  outstanding : c'.outstanding = c.outstanding

/-- `gatt_message_prepare` empties the stash. It ends the procedure if a message is pending and the result is an
error. -/
theorem gattMessagePrepare_cases (happ : c.app = r.task) (hkeeps : Keeps r c.stash) (result : AttResult)
    (final : Bool) :
    (∃ c', c.gattMessagePrepare result final = (true, c') ∧ Confirmed r 0 c c' ∧ c'.stash = none ∧ SameTurn c c') ∨
      (last result = true ∧ ∃ c', c.gattMessagePrepare result final = (false, c') ∧ Confirmed r 1 c c' ∧
        c'.app = 0 ∧ c'.stash = none ∧ c'.outstanding = c.outstanding) := by
  cases hstash : c.stash with
  | none => exact .inl ⟨c, by rw [gattMessagePrepare, hstash], .none rfl rfl, hstash, rfl, rfl, rfl⟩
  | some m =>
    set c' : ClientConn :=
      { c with stash := some { m with moreToCome := (more result final || send result final) && !last result } }
      with hc'
    have hprepare : c.gattMessagePrepare result final =
        if last result then (false, c'.gattMessageSend.unlock) else (true, c'.gattMessageSend) := by
      rw [gattMessagePrepare, hstash]
    have hset : Confirmed r 0 c c' := .none rfl rfl
    have hsend := hset.trans (confirmed_gattMessageSend (c := c') happ rfl (hkeeps m hstash))
    rw [more_or_send, Bool.true_and] at hsend
    cases hlast : last result with
    | true =>
      rw [hlast] at hsend hprepare
      have hunlock : Confirmed r 0 c'.gattMessageSend c'.gattMessageSend.unlock := .none rfl rfl
      exact .inr ⟨rfl, _, hprepare, hsend.trans hunlock, rfl, stash_gattMessageSend, outstanding_gattMessageSend⟩
    | false =>
      rw [hlast] at hsend hprepare
      exact .inl ⟨_, hprepare, hsend, stash_gattMessageSend, app_gattMessageSend, scenario_gattMessageSend,
        outstanding_gattMessageSend⟩

/-! ### Discovery -/

variable {result : AttResult} {final : Bool}

theorem eq_successMore_of_more (hmore : more result final = true)
    (hsend : send result final = true) : result = attResultSuccessMore := by
  rw [more] at hmore
  rw [send, Bool.not_eq_true'] at hsend
  rw [hsend, Bool.false_or] at hmore
  exact of_decide_eq_true hmore

theorem ne_successMore_of_more (hmore : more result final = false) :
    result ≠ attResultSuccessMore := by
  rw [more, Bool.or_eq_false_iff] at hmore
  exact of_decide_eq_false hmore.2

theorem eq_success_of_send (hsend : send result final = false) :
    result = attResultSuccess := by
  rw [send, Bool.not_eq_false', Bool.and_eq_true] at hsend
  exact of_decide_eq_true hsend.1

theorem success_ne_successMore : attResultSuccess ≠ attResultSuccessMore := by decide

/-- The message of an item is sent. The procedure ends if no more can follow. -/
theorem turn_sendItem
    (h : Asked c r a (decide (result ≠ attResultSuccessMore))) (hstash : c.stash = some m) (hid : m.id = r.id)
    (hm : m.moreToCome = more result final) (hsend : send result final = true) (hfits : Fits r none a) :
    Turn r c (if !more result final then c.gattMessageSend.unlock else c.gattMessageSend) := by
  cases hmore : more result final with
  | false =>
    have hout : c.outstanding = [] := by
      rw [h.outstanding, decide_eq_true (ne_successMore_of_more hmore), if_pos rfl]
    exact turn_gattMessageSend_unlock h.app hstash hid (hm.trans hmore) hout
  | true =>
    obtain rfl := eq_successMore_of_more hmore hsend
    have hconfirmed := confirmed_gattMessageSend h.app hstash hid
    rw [hm, hmore] at hconfirmed
    refine .goesOn hconfirmed (a := a) ⟨?_, ?_, ?_, ?_⟩
    · exact app_gattMessageSend.trans h.app
    · exact scenario_gattMessageSend.trans h.scenario
    · exact stash_gattMessageSend ▸ hfits
    · exact outstanding_gattMessageSend.trans (h.outstanding.trans (by simp))

/-- ATT is asked for what follows. -/
theorem turn_ask {a next : AttReq} (h : Asked c r a true) (hfits : Fits r c.stash next) : Turn r c (c.ask r next) := by
  refine .goesOn (.none rfl rfl) (a := next) ⟨h.app, h.scenario, hfits, ?_⟩
  simp [ask, h.outstanding]

theorem turn_handleDiscoverCfm {a next : AttReq}
    (h : Asked c r a (decide (result ≠ attResultSuccessMore))) (hkeeps : Keeps r c.stash)
    (hfits : ∀ stash, Keeps r stash → Fits r stash a ∧ Fits r stash next) (final : Bool) (item : Item) :
    Turn r c (c.handleDiscoverCfm r result final item next) := by
  have hnone : Keeps r none := by simp [Keeps]
  rw [handleDiscoverCfm]
  obtain ⟨c', hprepare, hconfirmed, hstash, hsame⟩ | ⟨hlast, c', hprepare, hconfirmed, happ, hstash, hout⟩ :=
    gattMessagePrepare_cases h.app hkeeps result final
  · rw [hprepare]
    refine hconfirmed.turn ?_
    have hmade : Confirmed r 0 c' (c'.makeStash r (gattMessageStatus result) item (more result final)) :=
      .none rfl rfl
    refine hmade.turn ?_
    have hkept : Keeps r (c'.makeStash r (gattMessageStatus result) item (more result final)).stash := by
      intro m hm
      obtain rfl := Option.some.inj hm
      rfl
    have hasked : Asked (c'.makeStash r (gattMessageStatus result) item (more result final)) r a
        (decide (result ≠ attResultSuccessMore)) :=
      ⟨hsame.app.trans h.app, hsame.scenario.trans h.scenario, (hfits _ hkept).1, hsame.outstanding.trans h.outstanding⟩
    cases hsend : send result final with
    | false =>
      obtain rfl := eq_success_of_send hsend
      exact turn_ask hasked (hfits _ hkept).2
    | true => exact turn_sendItem hasked rfl rfl rfl hsend (hfits none hnone).1
  · rw [hprepare]
    refine .ends hconfirmed ⟨happ, hstash, ?_⟩
    have hne : result ≠ attResultSuccessMore := (of_decide_eq_true hlast).2
    rw [hout, h.outstanding, decide_eq_true hne, if_pos rfl]

variable {start : BitVec 16}

theorem turn_gattHandleAttReadByGroupTypeCfm
    (h : Asked c r (.readByGroupType start) (decide (result ≠ attResultSuccessMore))) (handle endHandle : BitVec 16)
    (value : List UInt8) : Turn r c (c.gattHandleAttReadByGroupTypeCfm r result handle endHandle value) := by
  obtain ⟨hp, hkeeps⟩ := h.fits
  have hfits : ∀ stash, Keeps r stash → ∀ s, Fits r stash (.readByGroupType s) := fun _ hs _ => ⟨hp, hs⟩
  exact turn_handleDiscoverCfm h hkeeps (fun stash hs => ⟨hfits stash hs _, hfits stash hs _⟩) _ _

/-- To take the lock away once more changes nothing. -/
theorem unlock_handleDiscoverCfm (hstash : c.stash.isSome = true) (hlast : last result = true)
    (final : Bool) (item : Item) (next : AttReq) :
    (c.handleDiscoverCfm r result final item next).unlock = c.handleDiscoverCfm r result final item next := by
  obtain ⟨m, hm⟩ := Option.isSome_iff_exists.mp hstash
  rw [handleDiscoverCfm, gattMessagePrepare, hm]
  simp only [hlast, if_true]
  rfl

theorem turn_gattHandleAttFindByTypeValueCfm
    (h : Asked c r (.findByTypeValue start) (decide (result ≠ attResultSuccessMore))) (handle endHandle : BitVec 16) :
    Turn r c (c.gattHandleAttFindByTypeValueCfm r result handle endHandle) := by
  obtain ⟨hp, hkeeps⟩ := h.fits
  have hfits : ∀ stash, Keeps r stash → ∀ s, Fits r stash (.findByTypeValue s) := fun _ hs _ => ⟨hp, hs⟩
  have hturn := turn_handleDiscoverCfm h hkeeps (fun stash hs => ⟨hfits stash hs _, hfits stash hs (endHandle + 1)⟩)
    (decide (endHandle = 0xffff)) ⟨handle, endHandle, []⟩
  rw [gattHandleAttFindByTypeValueCfm]
  split
  · rename_i hlast
    rw [Bool.and_eq_true] at hlast
    rwa [unlock_handleDiscoverCfm hlast.1 hlast.2]
  · exact hturn

theorem turn_gattHandleAttFindInfoCfm
    (h : Asked c r (.findInfo start) (decide (result ≠ attResultSuccessMore))) (handle : BitVec 16)
    (uuid : List UInt8) : Turn r c (c.gattHandleAttFindInfoCfm r result handle uuid) := by
  obtain ⟨hp, hkeeps⟩ := h.fits
  have hfits : ∀ stash, Keeps r stash → ∀ s, Fits r stash (.findInfo s) := fun _ hs _ => ⟨hp, hs⟩
  exact turn_handleDiscoverCfm h hkeeps (fun stash hs => ⟨hfits stash hs _, hfits stash hs _⟩) _ _

/-- A 128-bit UUID is read before the confirm of its include declaration is sent. -/
theorem turn_gattHandleAttReadByTypeCfmInclude
    (h : Asked c r (.readByType start) (decide (result ≠ attResultSuccessMore)))
    (hinclude : r.procedure = .findIncludes) (handle : BitVec 16) (value : List UInt8) :
    Turn r c (c.gattHandleAttReadByTypeCfmInclude r result handle value) := by
  obtain ⟨hp, hkeeps⟩ := h.fits
  have hnone : Keeps r none := by simp [Keeps]
  rw [gattHandleAttReadByTypeCfmInclude]
  obtain ⟨c', hprepare, hconfirmed, hstash, hsame⟩ | ⟨hlast, c', hprepare, hconfirmed, happ, hstash, hout⟩ :=
    gattMessagePrepare_cases h.app hkeeps result (decide (c.endHandle ≤ handle))
  · simp only [hprepare]
    refine hconfirmed.turn ?_
    generalize decide (c.endHandle ≤ handle) = final
    have hmade : ∀ item : Item, Confirmed r 0 c' (c'.makeStash r (gattMessageStatus result) item (more result final)) :=
      fun _ => .none rfl rfl
    have hkept : ∀ m : Stash, m.id = r.id → Keeps r (some m) := by
      intro m hid m' hm'
      obtain rfl := Option.some.inj hm'
      exact hid
    have hasked : ∀ item : Item, Asked (c'.makeStash r (gattMessageStatus result) item (more result final)) r
        (.readByType start) (decide (result ≠ attResultSuccessMore)) :=
      fun _ => ⟨hsame.app.trans h.app, hsame.scenario.trans h.scenario, ⟨hp, hkept _ rfl⟩,
        hsame.outstanding.trans h.outstanding⟩
    split
    · refine (hmade (includeItem value)).turn ?_
      split
      · -- the UUID has 16 or 32 bits
        cases hsend : send result final with
        | false =>
          obtain rfl := eq_success_of_send hsend
          exact turn_ask (hasked _) ⟨hp, hkept _ rfl⟩
        | true => exact turn_sendItem (hasked _) rfl rfl rfl hsend ⟨hp, hnone⟩
      · split
        · rename_i hmore
          have hsend : send result final = true := by
            rw [send, hmore, decide_eq_false success_ne_successMore.symm]
            rfl
          exact turn_sendItem (hasked _) rfl rfl rfl hsend ⟨hp, hnone⟩
        · rename_i hmore
          have hlast := hasked (includeItem value)
          rw [decide_eq_true hmore] at hlast
          refine .goesOn (.none rfl rfl) (a := .read (includeItem value).handle) ⟨hlast.app, hlast.scenario, ?_, ?_⟩
          · exact .inr ⟨hinclude, _, rfl, rfl⟩
          · simp [ask, hlast.outstanding]
    · rename_i hstatus
      have hsend : send result final = true := by
        rw [send, Bool.not_eq_true', Bool.and_eq_false_iff]
        refine .inl (decide_eq_false fun hres => hstatus ?_)
        rw [hres]
        rfl
      refine (hmade .empty).turn ?_
      simp only [hsend, if_true]
      exact turn_sendItem (hasked .empty) rfl rfl rfl hsend ⟨hp, hnone⟩
  · simp only [hprepare]
    refine .ends hconfirmed ⟨happ, hstash, ?_⟩
    have hne : result ≠ attResultSuccessMore := (of_decide_eq_true hlast).2
    rw [hout, h.outstanding, decide_eq_true hne, if_pos rfl]

theorem turn_handleAttReadByTypeCfm
    (h : Asked c r (.readByType start) (decide (result ≠ attResultSuccessMore))) (handle : BitVec 16)
    (value : List UInt8) : Turn r c (c.handleAttReadByTypeCfm r result handle value) := by
  obtain ⟨hp, hkeeps⟩ := h.fits
  have hfits : ∀ stash, Keeps r stash →
      Fits r stash (.readByType start) ∧ Fits r stash (.readByType (handle + 1)) :=
    fun stash hs => ⟨⟨hp, hs⟩, hp, hs⟩
  rw [handleAttReadByTypeCfm, h.scenario]
  simp only [mem_cons, not_mem_nil, or_false] at hp
  obtain hp | hp | hp := hp
  · rw [hp]
    exact turn_gattHandleAttReadByTypeCfmInclude h hp handle value
  · rw [hp]
    exact turn_handleDiscoverCfm h hkeeps hfits _ _
  · rw [hp]
    exact turn_handleDiscoverCfm h hkeeps hfits _ _

theorem turn_gattHandleClSdpServiceSearchAttributeCfm {moreToCome : Bool} (h : Asked c r .sdpSearch (!moreToCome))
    (status : BitVec 16) (item : Item) :
    Turn r c (c.gattHandleClSdpServiceSearchAttributeCfm r status item moreToCome) := by
  obtain ⟨hp, hstash⟩ := h.fits
  have hscenario : c.scenario ∈ [MsgScen.procedure .discoverAllPrimaryServices, .procedure .discoverPrimaryService] := by
    rw [h.scenario]
    simpa using hp
  rw [gattHandleClSdpServiceSearchAttributeCfm, if_pos hscenario]
  have hconfirmed : Confirmed r (if moreToCome then 0 else 1) c (c.confirm r c.app (.att status) item moreToCome) :=
    .one (m := ⟨r.id, c.app, .att status, item, moreToCome⟩) rfl rfl rfl h.app
  cases moreToCome with
  | false =>
    have hunlock : Confirmed r 0 (c.confirm r c.app (.att status) item false)
        (c.confirm r c.app (.att status) item false).unlock := .none rfl rfl
    exact .ends (hconfirmed.trans hunlock) ⟨rfl, hstash, h.outstanding⟩
  | true => exact .goesOn hconfirmed (a := .sdpSearch) ⟨h.app, h.scenario, h.fits, h.outstanding⟩

/-! ### Reading and writing -/

theorem turn_handleAttReadCfm {handle : BitVec 16} (h : Asked c r (.read handle) true) (result : AttResult)
    (value : List UInt8) : Turn r c (c.handleAttReadCfm r result value) := by
  rw [handleAttReadCfm, h.scenario]
  obtain ⟨hp, hstash⟩ | ⟨hp, m, hstash, hid⟩ := h.fits
  · rw [hp]
    exact turn_finishWith h.app hstash h.outstanding _ _
  · rw [hp]
    set c' : ClientConn := { c with stash := some { m with item := { m.item with value := value } } } with hc'
    have hset : Confirmed r 0 c c' := .none rfl rfl
    have hinclude : c.gattHandleAttReadCfmInclude r value =
        if m.moreToCome then c'.ask r (.readByType c'.start) else c'.gattMessageSend.unlock := by
      rw [gattHandleAttReadCfmInclude, hstash]
    refine hset.turn ?_
    change Turn r c' (c.gattHandleAttReadCfmInclude r value)
    rw [hinclude]
    cases hmore : m.moreToCome with
    | false => exact turn_gattMessageSend_unlock h.app rfl hid hmore h.outstanding
    | true =>
      have hasked : Asked c' r (.read handle) true :=
        ⟨h.app, h.scenario, .inr ⟨hp, _, rfl, hid⟩, h.outstanding⟩
      refine turn_ask hasked ⟨by simp [hp], fun m' hm' => ?_⟩
      obtain rfl := Option.some.inj hm'
      exact hid

/-- The handler of a blob either asks for the next one, or it has sent the last one. -/
theorem gattHandleAttReadBlobCfm_cases (l : ReadLong) (hsent : l.sent = [])
    {value : List UInt8} (herror : result = attResultSuccess ∨ value = [])
    (hsize : value ≠ [] → BitVec.ofNat 16 value.length ≤ maxBlobSize l.mtu) :
    (l.gattHandleAttReadBlobCfm result value).sent.countP (fun m => !m.moreToCome) =
      if (l.gattHandleAttReadBlobCfm result value).request.isSome then 0 else 1 := by
  by_cases hvalue : value = []
  · subst hvalue
    by_cases hmore : result = attResultSuccess ∧ 0#16 = maxBlobSize l.mtu
    · simp [ReadLong.gattHandleAttReadBlobCfm, hsent, if_pos hmore]
    · simp [ReadLong.gattHandleAttReadBlobCfm, hsent, if_neg hmore]
  · obtain rfl := herror.resolve_right hvalue
    by_cases hmore : BitVec.ofNat 16 value.length = maxBlobSize l.mtu
    · simp [ReadLong.gattHandleAttReadBlobCfm, hsent, hvalue, hmore]
    · have hlt : BitVec.ofNat 16 value.length < maxBlobSize l.mtu :=
        BitVec.lt_of_le_ne (hsize hvalue) hmore
      simp [ReadLong.gattHandleAttReadBlobCfm, hsent, hvalue, hmore, hlt]

theorem turn_gattHandleAttReadBlobCfm {offs : BitVec 16} (h : Asked c r (.readBlob offs) true)
    {value : List UInt8} (herror : result = attResultSuccess ∨ value = [])
    (hsize : value ≠ [] → BitVec.ofNat 16 value.length ≤ maxBlobSize c.mtu) :
    Turn r c (c.gattHandleAttReadBlobCfm r result value) := by
  obtain ⟨hp, hstash⟩ := h.fits
  have hfinals := gattHandleAttReadBlobCfm_cases ⟨c.mtu, true, c.offs, none, []⟩ rfl herror hsize
  rw [gattHandleAttReadBlobCfm]
  generalize (ReadLong.mk c.mtu true c.offs none []).gattHandleAttReadBlobCfm result value = l at hfinals ⊢
  have hfor : ConfirmsFor r (if l.request.isSome then 0 else 1) (l.sent.map (c.blobCfm r)) := by
    refine ⟨fun m hm => ?_, fun m hm => ?_, ?_⟩
    · obtain ⟨m', -, rfl⟩ := mem_map.mp hm
      rfl
    · obtain ⟨m', -, rfl⟩ := mem_map.mp hm
      exact h.app
    · rw [countP_map]
      exact hfinals
  cases hrequest : l.request with
  | some next =>
    rw [hrequest] at hfor
    exact .goesOn ⟨rfl, _, rfl, hfor⟩ (a := .readBlob next)
      ⟨h.app, h.scenario, ⟨hp, hstash⟩, by simp [ask, h.outstanding]⟩
  | none =>
    rw [hrequest] at hfor
    exact .ends ⟨rfl, _, rfl, hfor⟩ ⟨rfl, hstash, h.outstanding⟩

theorem turn_gattHandleAttWriteCfm (h : Asked c r .write true) (result : AttResult) :
    Turn r c (c.gattHandleAttWriteCfm result) := by
  obtain ⟨hp, m, hstash, hid, hmore⟩ := h.fits
  have hscenario : c.scenario ∈ [MsgScen.procedure .writeWithoutResponse, .procedure .signedWriteWithoutResponse,
      .procedure .writeCharacteristicValue] := by
    rw [h.scenario]
    simpa using hp
  rw [gattHandleAttWriteCfm, hstash]
  simp only [if_pos hscenario]
  have hset : Confirmed r 0 c { c with stash := some { m with status := gattMessageStatus result } } := .none rfl rfl
  exact hset.turn (turn_gattMessageSend_unlock h.app rfl hid hmore h.outstanding)

/-- A long write goes on with another request, or its confirm is sent. -/
theorem turn_handleWriteLong (h : Asked c r a true) (hp : r.procedure = .writeLongCharacteristicValue)
    (hwrites : Writes r c.stash) (handler : WriteLong → WriteLong) : Turn r c (c.handleWriteLong r handler) := by
  obtain ⟨m, hstash, hid, hmore⟩ := hwrites
  rw [handleWriteLong, hstash]
  simp only
  generalize handler _ = w
  set c' : ClientConn := { c with offs := w.offs, stash := some { m with status := w.status } } with hc'
  have hset : Confirmed r 0 c c' := .none rfl rfl
  have hkept : Writes r c'.stash := ⟨_, rfl, hid, hmore⟩
  have hout : c'.outstanding = [] := h.outstanding
  refine hset.turn ?_
  split
  · rename_i offset value _
    exact .goesOn (.none rfl rfl) (a := .prepareWrite offset value)
      ⟨h.app, h.scenario, ⟨by simp [hp], hkept⟩, by simp [ask, hout]⟩
  · exact .goesOn (.none rfl rfl) (a := .executeWrite)
      ⟨h.app, h.scenario, .inr ⟨hp, hkept⟩, by simp [ask, hout]⟩
  · exact turn_gattMessageSend_unlock h.app rfl hid hmore hout

theorem turn_gattHandleAttPrepareWriteCfm {offs : BitVec 16} {part : List UInt8}
    (h : Asked c r (.prepareWrite offs part) true) (result : AttResult) (offset : BitVec 16) (value : List UInt8) :
    Turn r c (c.gattHandleAttPrepareWriteCfm r result offset value) := by
  obtain ⟨hp, hwrites⟩ := h.fits
  rw [gattHandleAttPrepareWriteCfm, h.scenario]
  simp only [mem_cons, not_mem_nil, or_false] at hp
  obtain hp | hp := hp
  · rw [hp]
    exact turn_handleWriteLong h hp hwrites _
  · rw [hp]
    obtain ⟨m, hstash, hid, hmore⟩ := hwrites
    simp only [handleAttPrepareWriteCfmPrepare, hstash]
    split
    · have hone : Confirmed r (if m.moreToCome then 0 else 1) c ({ c with
          confirms := c.confirms ++ [⟨m.id, c.app, .valueMismatch, m.item, m.moreToCome⟩]
          stash := none } : ClientConn).unlock :=
        .one (m := ⟨m.id, c.app, .valueMismatch, m.item, m.moreToCome⟩) rfl rfl hid h.app
      simp only [hmore] at hone ⊢
      exact .ends hone ⟨rfl, rfl, h.outstanding⟩
    · have hset : Confirmed r 0 c { c with stash := some { m with status := gattMessageStatus result } } :=
        .none rfl rfl
      exact hset.turn (turn_gattMessageSend_unlock h.app rfl hid hmore h.outstanding)

theorem turn_gattHandleAttExecuteWriteCfm (h : Asked c r .executeWrite true) (result : AttResult) :
    Turn r c (c.gattHandleAttExecuteWriteCfm r result) := by
  rw [gattHandleAttExecuteWriteCfm, h.scenario]
  obtain ⟨hp, hstash⟩ | ⟨hp, hwrites⟩ := h.fits
  · rw [hp]
    exact turn_finishWith h.app hstash h.outstanding _ _
  · rw [hp]
    exact turn_handleWriteLong h hp hwrites _

theorem turn_gattHandleAttExchangeMtuCfm (h : Asked c r .exchangeMtu true) (result : AttResult) (mtu : BitVec 16) :
    Turn r c (c.gattHandleAttExchangeMtuCfm r result mtu) := by
  obtain ⟨hp, hstash⟩ := h.fits
  exact .ends (.one (m := ⟨r.id, c.app, .att (gattMessageStatus result), .empty, false⟩) rfl rfl rfl h.app)
    ⟨rfl, hstash, h.outstanding⟩

/-- The confirm of a notification goes to the task of the connection, which should have made it. -/
theorem turn_gattHandleAttHandleValueCfm
    (h : Asked c r .handleValue (decide (result ≠ attResultSuccessSent))) (hmapped : c.mapped = true)
    (htask : r.task = c.task) : Turn r c (c.gattHandleAttHandleValueCfm r result) := by
  obtain ⟨hp, hstash⟩ := h.fits
  rw [gattHandleAttHandleValueCfm, if_pos hmapped]
  set sent := decide (result = attResultSuccessSent) with hsent
  have hone : Confirmed r (if sent then 0 else 1) c (c.confirm r c.task (handleValueStatus result) .empty sent) :=
    .one (m := ⟨r.id, c.task, handleValueStatus result, .empty, sent⟩) rfl rfl rfl htask.symm
  by_cases hres : result = attResultSuccessSent
  · rw [hsent, decide_eq_true hres] at hone ⊢
    have hout : c.outstanding = [(r, .handleValue)] := by simpa [hres] using h.outstanding
    rw [if_neg (not_not.mpr hres)]
    exact .goesOn hone (a := .handleValue) ⟨h.app, h.scenario, h.fits, hout⟩
  · rw [hsent, decide_eq_false hres] at hone ⊢
    have hout : c.outstanding = [] := by simpa [hres] using h.outstanding
    rw [if_pos hres]
    have hunlock : Confirmed r 0 (c.confirm r c.task (handleValueStatus result) .empty false)
        (c.confirm r c.task (handleValueStatus result) .empty false).unlock := .none rfl rfl
    exact .ends (hone.trans hunlock) ⟨rfl, hstash, hout⟩

/-! ### Requests -/

/-- A procedure begins, whatever it stores. -/
theorem Idle.turn (h : Idle c) (hframe : c'.frame = c.frame)
    (hconfirms : c'.confirms = c.confirms) (happ : c'.app = r.task) (hscenario : c'.scenario = .procedure r.procedure)
    (hout : c'.outstanding = c.outstanding ++ [(r, a)]) (hfits : Fits r c'.stash a) : Turn r c c' :=
  .goesOn (.none hframe hconfirms) (a := a) ⟨happ, hscenario, hfits, by rw [hout, h.outstanding]; rfl⟩

theorem turn_gattHandleInternalExchangeMtuReq (h : Idle c) (hp : r.procedure = .exchangeMtu) :
    Turn r c (c.gattHandleInternalExchangeMtuReq r) := by
  rw [gattHandleInternalExchangeMtuReq]
  split
  · exact .ends (.one (m := ⟨r.id, r.task, .mtuAlreadyExchanged, .empty, false⟩) rfl rfl rfl rfl)
      ⟨h.app, h.stash, h.outstanding⟩
  · exact h.turn (a := .exchangeMtu) rfl rfl rfl rfl rfl ⟨hp, h.stash⟩

/-- Services are discovered over SDP or over ATT. -/
theorem turn_discoverServices (h : Idle c)
    (hp : r.procedure ∈ [.discoverAllPrimaryServices, .discoverPrimaryService]) (hfits : Fits r none a)
    (sdp : Bool) : Turn r c (if sdp then c.begin r .sdpSearch else c.begin r a) := by
  cases sdp with
  | false => exact h.turn (a := a) rfl rfl rfl rfl rfl (h.stash.symm ▸ hfits)
  | true => exact h.turn (a := .sdpSearch) rfl rfl rfl rfl rfl ⟨hp, h.stash⟩

theorem turn_gattHandleInternalWriteReq (h : Idle c)
    (hp : r.procedure ∈ [.writeWithoutResponse, .signedWriteWithoutResponse, .writeCharacteristicValue,
      .writeLongCharacteristicValue, .prepareWrite]) : Turn r c (c.gattHandleInternalWriteReq r) := by
  have hwrites : ∀ status item, Writes r (some ⟨r.id, status, item, false⟩) := fun _ _ => ⟨_, rfl, rfl, rfl⟩
  rw [gattHandleInternalWriteReq]
  split
  · rename_i hlong
    exact h.turn (a := .prepareWrite 0 r.value) rfl rfl rfl rfl rfl ⟨by simp [hlong], hwrites _ _⟩
  · rename_i hprepare
    exact h.turn (a := .prepareWrite r.offs r.value) rfl rfl rfl rfl rfl ⟨by simp [hprepare], hwrites _ _⟩
  · rename_i hlong hprepare
    refine h.turn (a := .write) rfl rfl rfl rfl rfl ⟨?_, hwrites _ _⟩
    simp only [mem_cons, not_mem_nil, or_false] at hp ⊢
    tauto

/-- A request that is delivered is answered at once, or its procedure begins. -/
theorem turn_handleInternalReq (h : Idle c) (hmapped : c.mapped = true) (addrKnown : Bool) :
    Turn r c (c.handleInternalReq r addrKnown) := by
  have hkeeps : Keeps r c.stash := by simp [h.stash, Keeps]
  rw [handleInternalReq]
  split
  · rename_i hp
    rw [gattHandleInternalHandleValueReq, if_pos hmapped]
    exact h.turn (a := .handleValue) rfl rfl rfl rfl rfl ⟨hp, h.stash⟩
  · rename_i hvalue
    rw [hmapped]
    simp only [Bool.not_true, Bool.false_eq_true, if_false]
    split
    · rename_i hp
      exact turn_gattHandleInternalExchangeMtuReq h hp
    · rename_i hp
      exact turn_discoverServices h (by simp [hp]) (a := .readByGroupType gattHandleMin) ⟨hp, by simp [Keeps]⟩ _
    · rename_i hp
      exact turn_discoverServices h (by simp [hp]) (a := .findByTypeValue gattHandleMin) ⟨hp, by simp [Keeps]⟩ _
    · rename_i hp
      exact h.turn (a := .readByType r.start) rfl rfl rfl rfl rfl ⟨by simp [hp], hkeeps⟩
    · rename_i hp
      exact h.turn (a := .readByType r.start) rfl rfl rfl rfl rfl ⟨by simp [hp], hkeeps⟩
    · rename_i hp
      exact h.turn (a := .findInfo r.start) rfl rfl rfl rfl rfl ⟨hp, hkeeps⟩
    · rename_i hp
      exact h.turn (a := .read r.start) rfl rfl rfl rfl rfl (.inl ⟨hp, h.stash⟩)
    · rename_i hp
      exact h.turn (a := .readByType r.start) rfl rfl rfl rfl rfl ⟨by simp [hp], hkeeps⟩
    · rename_i hp
      exact h.turn (a := .readBlob 0) rfl rfl rfl rfl rfl ⟨hp, h.stash⟩
    · rename_i hp
      exact h.turn (a := .readMulti) rfl rfl rfl rfl rfl ⟨hp, h.stash⟩
    · rename_i hp
      exact h.turn (a := .executeWrite) rfl rfl rfl rfl rfl (.inl ⟨hp, h.stash⟩)
    · refine turn_gattHandleInternalWriteReq h ?_
      cases hp : r.procedure <;> simp_all [Procedure.isHandleValue]

/-! ### Confirms of ATT -/

/-- What the confirm of a blob has to keep to. -/
def BlobFits (c : ClientConn) : AttCfm → Prop
  | .readBlob result value =>
    (result = attResultSuccess ∨ value = []) ∧ (value ≠ [] → BitVec.ofNat 16 value.length ≤ maxBlobSize c.mtu)
  | _ => True

/-- Every confirm lets the procedure go on or ends it. -/
theorem turn_handleCfm {cfm : AttCfm} (h : Asked c r a cfm.isLast) (hanswers : cfm.answers a = true)
    (hmapped : c.mapped = true) (htask : r.procedure.isHandleValue = true → r.task = c.task)
    (hblob : c.BlobFits cfm) : Turn r c (c.handleCfm r cfm) := by
  cases cfm <;> cases a <;> first | contradiction | skip
  case handleValue.handleValue => exact turn_gattHandleAttHandleValueCfm h hmapped (htask h.fits.1)
  all_goals simp only [handleCfm, hmapped, Bool.not_true, Bool.false_eq_true, if_false]
  case exchangeMtu.exchangeMtu => exact turn_gattHandleAttExchangeMtuCfm h _ _
  case readByGroupType.readByGroupType => exact turn_gattHandleAttReadByGroupTypeCfm h _ _ _
  case findByTypeValue.findByTypeValue => exact turn_gattHandleAttFindByTypeValueCfm h _ _
  case readByType.readByType => exact turn_handleAttReadByTypeCfm h _ _
  case findInfo.findInfo => exact turn_gattHandleAttFindInfoCfm h _ _
  case read.read => exact turn_handleAttReadCfm h _ _
  case readBlob.readBlob => exact turn_gattHandleAttReadBlobCfm h hblob.1 hblob.2
  case readMulti.readMulti => exact turn_finishWith h.app h.fits.2 h.outstanding _ _
  case write.write => exact turn_gattHandleAttWriteCfm h _
  case prepareWrite.prepareWrite => exact turn_gattHandleAttPrepareWriteCfm h _ _ _
  case executeWrite.executeWrite => exact turn_gattHandleAttExecuteWriteCfm h _
  case sdpSearch.sdpSearch => exact turn_gattHandleClSdpServiceSearchAttributeCfm h _ _

end ClientConn

end Cbps.Gatt
