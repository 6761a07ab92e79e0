import Cbps.Lib.Reads
import Cbps.Service.Records

/-!
# What the readers look at

A reader looks at the octets from the beginning of its region up to the value that it finds, and not at the value. So a
record in which a value has been changed is read as before: `visit_unchanged`.
-/

namespace Cbps.Service

open Lib List

open Lib (Reads)

variable {mem mem' : ℕ → UInt8} {r : Region}

/-! ### Elements -/

/-- How far the reader has looked. -/
def Got.place (got : Got) : ℕ := if got.result then got.out.begin else got.r.begin

/-- The first octets of a region, in two memories that agree on them. -/
theorem take_octets {k : ℕ} (h : ∀ i, r.begin ≤ i → i < r.begin + k → mem' i = mem i) :
    (r.octets mem').take k = (r.octets mem).take k := by
  refine ext_getElem ?_ fun i h1 h2 => ?_
  · rw [length_take, length_take, length_octets, length_octets]
  · rw [length_take] at h1
    rw [getElem_take, getElem_take]
    simp only [Region.octets, getElem_map, getElem_range]
    exact h _ (Nat.le_add_right _ _) (by omega)

theorem cons_octets {b : UInt8} {l : List UInt8} (hl : r.octets mem = b :: l) {k : ℕ}
    (h : ∀ i, r.begin ≤ i → i < r.begin + (k + 1) → mem' i = mem i) :
    ∃ l', r.octets mem' = b :: l' ∧ l'.length = l.length ∧ l'.take k = l.take k := by
  have htake := take_octets h
  have hlength : (r.octets mem').length = (r.octets mem).length := by rw [length_octets, length_octets]
  rw [hl] at htake hlength
  rcases hl' : r.octets mem' with - | ⟨b', l'⟩
  · rw [hl'] at hlength
    cases hlength
  · rw [hl', take_succ_cons, take_succ_cons] at htake
    rw [hl'] at hlength
    obtain ⟨rfl, htail⟩ := List.cons.inj htake
    exact ⟨l', rfl, Nat.succ.inj hlength, htail⟩

theorem getValue_reads (mem : ℕ → UInt8) (hsmall : r.Small) (type : ServiceDataType) (out : Region) :
    ∃ got, Reads (fun mem => serviceGetValue mem r type out) mem r.begin got.place got := by
  rcases hl : r.octets mem with - | ⟨b, l⟩
  · refine ⟨⟨false, r, type, out⟩, fun mem' _ => getValue_nil hsmall ?_ type out⟩
    rw [← length_eq_zero_iff, length_octets, ← @length_octets mem, hl, length_nil]
  · by_cases hshort : l.length < fieldWidth b
    · refine ⟨⟨false, r.skip 1, serviceDataType (b.toNat / 8), out⟩, fun mem' hmem => ?_⟩
      obtain ⟨l', hl', hlength, -⟩ := cons_octets hl hmem
      exact getValue_short hsmall hl' type out (by rwa [hlength])
    · have hfield : (l.take (fieldWidth b)).length = fieldWidth b := by
        rw [length_take]
        omega
      -- the value is there or not, but only the size field is looked at
      have hread : ∀ mem', (∀ i, r.begin ≤ i → i < r.begin + (fieldWidth b + 1) → mem' i = mem i) →
          serviceGetValue mem' r type out = .ok
            (if (l.drop (fieldWidth b)).length < declared b (l.take (fieldWidth b)) % 65536 then
              ⟨false, r.skip (1 + (l.take (fieldWidth b)).length), serviceDataType (b.toNat / 8), out⟩
            else
              ⟨true, r.skip (1 + (l.take (fieldWidth b)).length + declared b (l.take (fieldWidth b)) % 65536),
                serviceDataType (b.toNat / 8), ⟨r.begin + (1 + (l.take (fieldWidth b)).length),
                  r.begin + (1 + (l.take (fieldWidth b)).length) + declared b (l.take (fieldWidth b)) % 65536⟩⟩) := by
        intro mem' hmem
        obtain ⟨l', hl', hlength, htake⟩ := cons_octets hl hmem
        have hdrop : (l'.drop (fieldWidth b)).length = (l.drop (fieldWidth b)).length := by
          rw [length_drop, length_drop, hlength]
        rw [getValue_field hsmall hl' type out (List.take_append_drop (fieldWidth b) l').symm (by rw [htake, hfield]), htake,
          hdrop]
      by_cases hroom : (l.drop (fieldWidth b)).length < declared b (l.take (fieldWidth b)) % 65536
      · refine ⟨_, fun mem' hmem => (hread mem' fun i hi hi' => hmem i hi ?_).trans (congrArg Except.ok (if_pos hroom))⟩
        change i < r.begin + (1 + (l.take (fieldWidth b)).length)
        omega
      · refine ⟨_, fun mem' hmem => (hread mem' fun i hi hi' => hmem i hi ?_).trans (congrArg Except.ok (if_neg hroom))⟩
        change i < r.begin + (1 + (l.take (fieldWidth b)).length)
        omega

variable {type : ServiceDataType}

/-- The reader leaves its argument alone, or the region that it has just passed is the value. -/
theorem getValue_out {out : Region} {got : Got}
    (hgot : serviceGetValue mem r type out = .ok got) :
    (got.result = false ∧ got.out = out) ∨ (got.result = true ∧ got.out.end = got.r.begin) := by
  rw [serviceGetValue] at hgot
  split at hgot
  · rw [← Except.ok.inj hgot]
    exact .inl ⟨rfl, rfl⟩
  · obtain ⟨b, -, hgot⟩ := exists_of_bind_eq_ok hgot
    obtain ⟨size, -, hgot⟩ := exists_of_bind_eq_ok hgot
    rcases size with - | ⟨size, r'⟩
    · rw [← Except.ok.inj hgot]
      exact .inl ⟨rfl, rfl⟩
    · dsimp only at hgot
      split at hgot
      · rw [← Except.ok.inj hgot]
        exact .inl ⟨rfl, rfl⟩
      · rw [← Except.ok.inj hgot]
        exact .inr ⟨rfl, rfl⟩

/-- How far the reader has looked, between the beginning of its region and where it leaves it. -/
theorem place_le (hsmall : r.Small) {out : Region} {got : Got}
    (hgot : serviceGetValue mem r type out = .ok got) : r.begin ≤ got.place ∧ got.place ≤ got.r.begin := by
  obtain ⟨-, hle, -, htrue⟩ := getValue_inside hsmall hgot
  rw [Got.place]
  split
  · next hresult =>
    obtain ⟨-, hout, hout', -⟩ := htrue hresult
    obtain ⟨hfalse, -⟩ | ⟨-, hend⟩ := getValue_out hgot
    · rw [hresult] at hfalse
      cases hfalse
    · omega
  · exact ⟨hle, Nat.le_refl _⟩

/-! ### Attributes -/

theorem octets_congr (h : ∀ i, r.begin ≤ i → i < r.end → mem' i = mem i) : r.octets mem' = r.octets mem := by
  refine map_congr_left fun i hi => h _ (Nat.le_add_right _ _) ?_
  have := mem_range.mp hi
  omega

theorem unpack16_reads (mem : ℕ → UInt8) (h : r.end - r.begin = 2) :
    Reads (fun mem => serviceUnpack16 mem r) mem r.begin r.end (bigEndian (r.octets mem)) := by
  intro mem' hmem
  dsimp only
  rw [unpack16_eq (octets_congr hmem) (by rw [length_octets, h])]

/-- How far a reader of attributes has looked. -/
def placeOf (result : Bool × Next) : ℕ := if result.1 then result.2.value.begin else result.2.r.begin

/-- What a reader of attributes does on any octets: it looks no further than to the value, and passes it. -/
structure Looks (reader : (ℕ → UInt8) → Next → Except Fault (Bool × Next)) (mem : ℕ → UInt8) (st : Next)
    (result : Bool × Next) : Prop where
  reads : Reads (fun mem => reader mem st) mem st.r.begin (placeOf result) result
  end_eq : result.2.r.end = st.r.end
  le : st.r.begin ≤ result.2.r.begin ∧ result.2.r.begin ≤ st.r.end
  value : result.1 = true → st.r.begin < result.2.value.begin ∧ result.2.value.begin ≤ result.2.value.end ∧
    result.2.value.end = result.2.r.begin

theorem next_looks (mem : ℕ → UInt8) {st : Next} (h : st.r.Small) :
    ∃ result, Looks serviceNextAttribute mem st result := by
  obtain ⟨got, hgot⟩ := getValue_reads mem h st.type (⟨0, 0⟩ : Region)
  obtain ⟨hend, hle, hle', htrue⟩ := getValue_inside h hgot.eq
  obtain ⟨-, hplace⟩ := place_le h hgot.eq
  by_cases hcond : got.result = true ∧ got.type = .unsignedInteger ∧ regionSize got.out = 2
  · obtain ⟨hlt, hout, hout', hout''⟩ := htrue hcond.1
    have hout_end : got.out.end = got.r.begin := by
      obtain ⟨hfalse, -⟩ | ⟨-, hend⟩ := getValue_out hgot.eq
      · rw [hcond.1] at hfalse
        cases hfalse
      · exact hend
    have hlen : got.out.end - got.out.begin = 2 := by
      have hsize := hcond.2.2
      rw [regionSize] at hsize
      have := h.2
      omega
    have hsmall : got.r.Small := by
      have := h.2
      constructor <;> omega
    obtain ⟨got', hgot'⟩ := getValue_reads mem hsmall got.type st.value
    obtain ⟨hend', hle1, hle2, htrue'⟩ := getValue_inside hsmall hgot'.eq
    obtain ⟨hplace', hplace''⟩ := place_le hsmall hgot'.eq
    refine ⟨(got'.result, ⟨got'.r, bigEndian (got.out.octets mem), got'.type, got'.out⟩), ⟨?_, hend'.trans hend,
      ⟨Nat.le_trans hle hle1, hend ▸ hle2⟩, fun hresult => ?_⟩⟩
    · change Reads _ mem st.r.begin got'.place _
      refine (hgot.mono (Nat.le_refl _) (Nat.le_trans hplace hplace')).bind (.ite_pos hcond ?_)
      refine ((unpack16_reads mem hlen).mono (by omega) (by omega)).bind ?_
      exact (hgot'.mono hle (Nat.le_refl _)).bind .pure
    · obtain ⟨-, hvalue, hvalue', -⟩ := htrue' hresult
      obtain ⟨hfalse, -⟩ | ⟨-, hend⟩ := getValue_out hgot'.eq
      · exact absurd (hfalse.symm.trans hresult) Bool.false_ne_true
      · exact ⟨Nat.lt_of_le_of_lt hle hvalue, hvalue', hend⟩
  · refine ⟨(false, { st with r := got.r, type := got.type }), ⟨?_, hend, ⟨hle, hle'⟩, (fun h => by cases h)⟩⟩
    exact (hgot.mono (Nat.le_refl _) hplace).bind (.ite_neg hcond .pure)

/-- What the search for an attribute keeps. -/
structure Seeking (start : Next) (st : Next × Option Bool) : Prop where
  end_eq : st.1.r.end = start.r.end
  le : start.r.begin ≤ st.1.r.begin ∧ st.1.r.begin ≤ start.r.end
  value : st.2 = some true → start.r.begin < st.1.value.begin ∧ st.1.value.begin ≤ st.1.value.end ∧
    st.1.value.end = st.1.r.begin

/-- How far the search has looked. -/
def seekPlace (st : Next × Option Bool) : ℕ := if st.2 = some true then st.1.value.begin else st.1.r.begin

theorem findTurn_reads (mem : ℕ → UInt8) (id : ℕ) {start : Next} (hsmall : start.r.Small) {st : Next × Option Bool}
    (h : Seeking start st) :
    Reads (fun mem => findTurn mem id st) mem start.r.begin (seekPlace st) none ∨
      ∃ st', Reads (fun mem => findTurn mem id st) mem start.r.begin (seekPlace st') (some st') ∧ Seeking start st' ∧
        Finding.rank st' < Finding.rank st ∧ seekPlace st ≤ seekPlace st' := by
  obtain ⟨st, result⟩ := st
  rcases result with - | result
  · right
    obtain ⟨hle, hle'⟩ := h.le
    have hend : st.r.end = start.r.end := h.end_eq
    dsimp only at hle hle'
    have hst : st.r.Small := by
      have := hsmall.2
      constructor <;> omega
    obtain ⟨⟨ok, next⟩, hlooks⟩ := next_looks mem hst
    obtain ⟨hnext, hnext'⟩ := hlooks.le
    have hend' : next.r.end = st.r.end := hlooks.end_eq
    dsimp only at hnext hnext'
    cases ok with
    | false =>
      refine ⟨(next, some false), ?_, ⟨hend'.trans hend, ⟨Nat.le_trans hle hnext, hend ▸ hnext'⟩, (fun h => by cases h)⟩,
        Nat.succ_pos _, hnext⟩
      exact (hlooks.reads.mono hle (Nat.le_refl _)).bind .pure
    | true =>
      obtain ⟨hvalue, hvalue', hvalue''⟩ := hlooks.value rfl
      dsimp only at hvalue hvalue' hvalue''
      by_cases hid : next.id = id
      · refine ⟨(next, some true), ?_, ⟨hend'.trans hend, ⟨Nat.le_trans hle hnext, hend ▸ hnext'⟩,
          fun _ => ⟨Nat.lt_of_le_of_lt hle hvalue, hvalue', hvalue''⟩⟩, Nat.succ_pos _, Nat.le_of_lt hvalue⟩
        refine (hlooks.reads.mono hle (Nat.le_refl _)).bind ?_
        intro mem' _
        exact congrArg (fun result => Except.ok (some (next, result))) (if_pos hid)
      · refine ⟨(next, none), ?_, ⟨hend'.trans hend, ⟨Nat.le_trans hle hnext, hend ▸ hnext'⟩, (fun h => by cases h)⟩, ?_,
          hnext⟩
        · have hplace : placeOf (true, next) ≤ seekPlace (next, none) := by
            change next.value.begin ≤ next.r.begin
            omega
          refine (hlooks.reads.mono hle hplace).bind ?_
          intro mem' _
          exact congrArg (fun result => Except.ok (some (next, result))) (if_neg hid)
        · change next.r.end - next.r.begin + 1 < st.r.end - st.r.begin + 1
          omega
  · exact .inl .pure

theorem find_looks (mem : ℕ → UInt8) (id : ℕ) {st : Next} (h : st.r.Small) :
    ∃ result, Looks (fun mem => serviceFindAttribute mem id) mem st result := by
  have hstart : Seeking st (st, none) := ⟨rfl, ⟨Nat.le_refl _, h.1⟩, (fun h => by cases h)⟩
  have hfuel : Finding.rank (st, none) < regionSize st.r + 2 := by
    rw [regionSize_eq mem h, length_octets]
    exact Nat.lt_succ_self _
  obtain ⟨⟨next, result⟩, hreads, hseeking, -⟩ := @Lib.loop_reads _ _ _ Fault.endless _ mem st.r.begin (Seeking st)
    Finding.rank seekPlace (fun _ hst => findTurn_reads mem id h hst) _ _ hstart hfuel
  refine ⟨(result = some true, next), ⟨?_, hseeking.end_eq, hseeking.le, fun h => hseeking.value (of_decide_eq_true h)⟩⟩
  have hplace : placeOf (decide (result = some true), next) = seekPlace (next, result) := by
    rw [placeOf, seekPlace]
    by_cases hresult : result = some true <;> simp [hresult]
  rw [hplace]
  exact hreads.bind .pure

/-! ### Visits -/

/-- What is visited when a reader has left an attribute. -/
def Next.place (next : Next) : ℕ × ServiceDataType × Region := (next.id, next.type, next.value)

/-- A visit of the attributes gets to the one that has been read last. -/
def Visits (mem : ℕ → UInt8) (st next : Next) : Prop := ∀ visited, ∃ visited',
  Turns (visitTurn (serviceNextAttribute mem)) (st, visited) (next, visited') ∧ next.place ∈ visited'

theorem Visits.trans {st next next' : Next} (h : Visits mem st next) (h' : Visits mem next next') : Visits mem st next' := by
  intro visited
  obtain ⟨visited', hturns, -⟩ := h visited
  obtain ⟨visited'', hturns', hmem⟩ := h' visited'
  exact ⟨visited'', hturns.trans hturns', hmem⟩

theorem visits_of_turns {id : ℕ} {s : Next × Option Bool} {next : Next} (hnone : s.2 = none)
    (h : Turns (findTurn mem id) s (next, some true)) : Visits mem s.1 next := by
  induction h using Relation.ReflTransGen.head_induction_on with
  | refl => cases hnone
  | @head s s' hturn htail ih =>
    obtain ⟨st, result⟩ := s
    obtain rfl : result = none := hnone
    obtain ⟨⟨ok, next'⟩, hnext, hturn⟩ := exists_of_bind_eq_ok hturn
    cases ok with
    | false =>
      -- the search has returned FALSE
      obtain rfl := Option.some.inj (Except.ok.inj hturn)
      obtain heq | ⟨s'', hturn', -⟩ := htail.cases_head
      · cases heq
      · cases hturn'
    | true =>
      obtain rfl := Option.some.inj (Except.ok.inj hturn)
      have hvisit : ∀ visited, Turns (visitTurn (serviceNextAttribute mem)) (st, visited)
          (next', visited ++ [next'.place]) := by
        intro visited
        refine .single ?_
        rw [visitTurn, hnext]
        rfl
      dsimp only at htail ih
      by_cases hid : next'.id = id
      · rw [if_pos hid] at htail
        obtain heq | ⟨s'', hturn', -⟩ := htail.cases_head
        · obtain ⟨rfl, -⟩ := Prod.mk.inj heq
          exact fun visited => ⟨_, hvisit visited, by simp⟩
        · cases hturn'
      · rw [if_neg hid] at ih
        intro visited
        obtain ⟨visited', hturns, hmem⟩ := ih rfl (visited ++ [next'.place])
        exact ⟨visited', (hvisit visited).trans hturns, hmem⟩

theorem visits_of_find {id : ℕ} {st next : Next} (h : serviceFindAttribute mem id st = .ok (true, next)) :
    Visits mem st next := by
  obtain ⟨⟨next', result⟩, hloop, hresult⟩ := exists_of_bind_eq_ok h
  obtain ⟨htrue, rfl⟩ := Prod.mk.inj (Except.ok.inj hresult)
  obtain rfl : result = some true := of_decide_eq_true htrue
  exact @visits_of_turns mem id (st, none) _ rfl (turns_of_loop hloop).1

variable {acc visited : List (ℕ × ServiceDataType × Region)}

/-- What a loop over the attributes visits, and that it does not depend on the octets of a part of a value. -/
theorem loop_unchanged {v : Region} (hagree : ∀ i, ¬ (v.begin ≤ i ∧ i < v.end) → mem' i = mem i) {n : ℕ} {st r : Next}
    (hsmall : st.r.Small)
    (h : Lib.loop .endless (visitTurn (serviceNextAttribute mem)) n (st, acc) = .ok (r, visited)) :
    ∃ new, visited = acc ++ new ∧ (∀ place ∈ new, st.r.begin < place.2.2.begin) ∧
      new.Pairwise (fun place place' => place.2.2.end < place'.2.2.begin) ∧ ((v.end ≤ st.r.begin ∨ ∃ place ∈ new, place.2.2.begin ≤ v.begin ∧ v.end ≤ place.2.2.end) →
        Lib.loop .endless (visitTurn (serviceNextAttribute mem')) n (st, acc) = .ok (r, visited)) := by
  induction n generalizing st acc with
  | zero => cases h
  | succ n ih =>
    obtain ⟨⟨ok, next⟩, hlooks⟩ := next_looks mem hsmall
    obtain ⟨hle, hle'⟩ := hlooks.le
    have hend : next.r.end = st.r.end := hlooks.end_eq
    dsimp only at hle hle'
    have hreads := hlooks.reads
    cases ok with
    | false =>
      have hturn : ∀ mem'', serviceNextAttribute mem'' st = .ok (false, next) →
          visitTurn (serviceNextAttribute mem'') (st, acc) = .ok none := by
        intro mem'' hnext
        rw [visitTurn, hnext]
        rfl
      rw [loop_stop (hturn mem hreads.eq)] at h
      obtain ⟨rfl, rfl⟩ := Prod.mk.inj (Except.ok.inj h)
      refine ⟨[], (append_nil _).symm, fun place hplace => (not_mem_nil hplace).elim, .nil, ?_⟩
      rintro (hpast | ⟨place, hplace, -⟩)
      · exact loop_stop (hturn mem' (hreads mem' fun i hi _ => hagree i fun hin => by omega)) n
      · exact (not_mem_nil hplace).elim
    | true =>
      obtain ⟨hvalue, hvalue', hvalue''⟩ := hlooks.value rfl
      dsimp only at hvalue hvalue' hvalue''
      have hturn : ∀ mem'', serviceNextAttribute mem'' st = .ok (true, next) →
          visitTurn (serviceNextAttribute mem'') (st, acc) = .ok (some (next, acc ++ [next.place])) := by
        intro mem'' hnext
        rw [visitTurn, hnext]
        rfl
      rw [loop_turn (hturn mem hreads.eq)] at h
      have hnext : next.r.Small := by
        have := hsmall.2
        constructor <;> omega
      obtain ⟨new, rfl, hnew, hpairwise, hrest⟩ := ih hnext h
      refine ⟨next.place :: new, by rw [append_assoc]; rfl, ?_, ?_, fun hv => ?_⟩
      · intro place hplace
        rcases mem_cons.mp hplace with rfl | hplace
        · exact hvalue
        · have := hnew place hplace
          omega
      · refine pairwise_cons.mpr ⟨fun place hplace => ?_, hpairwise⟩
        exact hvalue'' ▸ hnew place hplace
      · -- the part lies in front of this attribute, in its value, or behind it
        have hwindow : (v.end ≤ st.r.begin ∨ next.value.begin ≤ v.begin) ∧ (v.end ≤ next.r.begin ∨
            ∃ place ∈ new, place.2.2.begin ≤ v.begin ∧ v.end ≤ place.2.2.end) := by
          obtain hpast | ⟨place, hplace, hbegin, hend⟩ := hv
          · exact ⟨.inl hpast, .inl (Nat.le_trans hpast hle)⟩
          · rcases mem_cons.mp hplace with rfl | hplace
            · exact ⟨.inr hbegin, .inl (hvalue'' ▸ hend)⟩
            · have := hnew place hplace
              exact ⟨.inr (by omega), .inr ⟨place, hplace, hbegin, hend⟩⟩
        have hread : serviceNextAttribute mem' st = .ok (true, next) := by
          refine hreads mem' fun i hi hi' => hagree i fun hin => ?_
          change i < next.value.begin at hi'
          omega
        rw [loop_turn (hturn mem' hread)]
        exact hrest hwindow.2

/-- What has been visited stays visited. -/
theorem mem_of_loop {reader : Next → Except Fault (Bool × Next)} {n : ℕ} {next r : Next}
    {place : ℕ × ServiceDataType × Region}
    (h : Lib.loop .endless (visitTurn reader) n (next, acc) = .ok (r, visited)) (hmem : place ∈ acc) : place ∈ visited := by
  refine (inv_of_loop (fun st => place ∈ st.2) ?_ hmem h).1
  intro st st' hplace hturn
  obtain ⟨⟨ok, next⟩, -, hturn⟩ := exists_of_bind_eq_ok hturn
  cases ok with
  | false => cases hturn
  | true =>
    obtain rfl := Option.some.inj (Except.ok.inj hturn)
    exact mem_append_left _ hplace

/-- A record is visited as before when a part of a value has been changed, and the other values are the same. -/
theorem visit_unchanged {v : Region} (hagree : ∀ i, ¬ (v.begin ≤ i ∧ i < v.end) → mem' i = mem i) {st next : Next}
    (hsmall : st.r.Small) (hvisits : Visits mem st next) (hin : next.value.begin ≤ v.begin ∧ v.end ≤ next.value.end) :
    ∃ front back, visit (serviceNextAttribute mem) st = .ok (front ++ next.place :: back) ∧
      visit (serviceNextAttribute mem') st = .ok (front ++ next.place :: back) ∧
        ∀ place ∈ front ++ back, place.2.2.octets mem' = place.2.2.octets mem := by
  obtain ⟨visited, hvisit, -⟩ := iterates_of_passes (next_passes mem) hsmall st.id st.type st.value
  obtain ⟨⟨r, visited'⟩, hloop, heq⟩ : ∃ r, Lib.loop .endless (visitTurn (serviceNextAttribute mem)) (regionSize st.r + 1)
      (st, []) = .ok r ∧ r.2 = visited := by
    rw [visit] at hvisit
    rcases hloop : Lib.loop .endless (visitTurn (serviceNextAttribute mem)) (regionSize st.r + 1) (st, []) with e | r
    · rw [hloop] at hvisit
      cases hvisit
    · rw [hloop] at hvisit
      exact ⟨r, rfl, Except.ok.inj hvisit⟩
  obtain rfl : visited' = visited := heq
  obtain ⟨acc, hturns, hacc⟩ := hvisits []
  obtain ⟨m, hm⟩ := loop_of_turns hturns hloop
  have hmem : next.place ∈ visited' := mem_of_loop hm hacc
  obtain ⟨new, hnew, -, hpairwise, hrest⟩ := loop_unchanged hagree hsmall hloop
  rw [nil_append] at hnew
  subst hnew
  have hvisit' : visit (serviceNextAttribute mem') st = .ok visited' := by
    rw [visit, hrest (.inr ⟨next.place, hmem, hin⟩)]
    rfl
  obtain ⟨front, back, rfl⟩ := append_of_mem hmem
  obtain ⟨-, hback, hfront⟩ := pairwise_append.mp hpairwise
  refine ⟨front, back, hvisit, hvisit', fun place hplace => octets_congr fun i hi hi' => hagree i fun hv => ?_⟩
  -- the other values lie in front of this one, or behind it
  rcases mem_append.mp hplace with hplace | hplace
  · have hlt : place.2.2.end < next.value.begin := hfront place hplace next.place mem_cons_self
    omega
  · have hlt : next.value.end < place.2.2.begin := (pairwise_cons.mp hback).1 place hplace
    omega

end Cbps.Service
