import Cbps.Service.Elements

/-!
# SDP service records

A service record is a row of attributes, each the element of its identifier and the element of its value.
`ServiceNextAttribute` takes the next attribute off a record, and `ServiceFindAttribute` the next one with an identifier.
Both are readers of attributes, `Passes`, and a loop over such a reader ends, looks at no octet outside of the region, and
visits of a well-formed record the attributes that are meant, `iterates_of_passes`.
-/

namespace Cbps.Service

open List

open Lib (Yields)

/-! ### The code -/

/-- The arguments of the readers of attributes. -/
structure Next where
  r : Region
  id : ℕ
  type : ServiceDataType
  value : Region
  deriving DecidableEq, Repr

variable (mem : ℕ → UInt8)

/-- `ServiceNextAttribute`. -/
def serviceNextAttribute (st : Next) : Except Fault (Bool × Next) := do
  let got ← serviceGetValue mem st.r st.type ⟨0, 0⟩
  if got.result = true ∧ got.type = .unsignedInteger ∧ regionSize got.out = 2 then
    let id ← serviceUnpack16 mem got.out
    let got' ← serviceGetValue mem got.r got.type st.value
    return (got'.result, ⟨got'.r, id, got'.type, got'.out⟩)
  else return (false, { st with r := got.r, type := got.type })

/-- One turn of the loop of `ServiceFindAttribute`, which has returned if there is a result. `id` is the variable
`found`. -/
def findTurn (id : ℕ) (st : Next × Option Bool) : Except Fault (Option (Next × Option Bool)) := do
  match st.2 with
  | some _ => return none
  | none =>
    let (ok, next) ← serviceNextAttribute mem st.1
    if ok then return some (next, if next.id = id then some true else none)
    else return some (next, some false)

/-- `ServiceFindAttribute`. -/
def serviceFindAttribute (id : ℕ) (st : Next) : Except Fault (Bool × Next) := do
  let (next, result) ← Lib.loop .endless (findTurn mem id) (regionSize st.r + 2) (st, none)
  return (result = some true, next)

/-- One turn of `while( reader( ... ) )`, which visits an attribute. -/
def visitTurn (reader : Next → Except Fault (Bool × Next)) (st : Next × List (ℕ × ServiceDataType × Region)) :
    Except Fault (Option (Next × List (ℕ × ServiceDataType × Region))) := do
  let (ok, next) ← reader st.1
  if ok then return some (next, st.2 ++ [(next.id, next.type, next.value)]) else return none

/-- `while( reader( ... ) )`: the visited attributes. -/
def visit (reader : Next → Except Fault (Bool × Next)) (st : Next) :
    Except Fault (List (ℕ × ServiceDataType × Region)) :=
  Prod.snd <$> Lib.loop .endless (visitTurn reader) (regionSize st.r + 1) (st, [])

/-! ### Records -/

/-- An attribute: its identifier is an unsigned integer of two octets. -/
structure Attribute where
  id : DataElement
  value : DataElement
  isId : id.type = .unsignedInteger ∧ id.value.length = 2

/-- The octets of an attribute. -/
def Attribute.octets (a : Attribute) : List UInt8 := a.id.octets ++ a.value.octets

/-- The number of an attribute. -/
def Attribute.number (a : Attribute) : ℕ := bigEndian a.id.value

/-- The number, the type and the value of an attribute that begins at `start`. -/
def Attribute.place (a : Attribute) (start : ℕ) : ℕ × ServiceDataType × Region :=
  (a.number, a.value.type, a.value.region (start + a.id.octets.length))

/-- The octets of a record. -/
def record (attrs : List Attribute) : List UInt8 := attrs.flatMap Attribute.octets

/-- The attributes of a record that begins at `start`. -/
def places (start : ℕ) : List Attribute → List (ℕ × ServiceDataType × Region)
  | [] => []
  | a :: attrs => a.place start :: places (start + a.octets.length) attrs

theorem record_cons (a : Attribute) (attrs : List Attribute) : record (a :: attrs) = a.octets ++ record attrs :=
  flatMap_cons

theorem record_append (front back : List Attribute) : record (front ++ back) = record front ++ record back :=
  flatMap_append

theorem places_append (start : ℕ) (front back : List Attribute) :
    places start (front ++ back) = places start front ++ places (start + (record front).length) back := by
  induction front generalizing start with
  | nil => rfl
  | cons a front ih =>
    rw [cons_append, places, places, ih, record_cons, length_append, Nat.add_assoc]
    rfl

/-- A loop over a reader ends and visits exactly the attributes of a well-formed record that `p` accepts. -/
def Iterates (p : ℕ → Bool) (reader : Next → Except Fault (Bool × Next)) (r : Region) : Prop :=
  ∀ id type value, ∃ visited, visit reader ⟨r, id, type, value⟩ = .ok visited ∧
    ∀ attrs, r.octets mem = record attrs → visited = (places r.begin attrs).filter fun place => p place.1

/-- **The promise** of the library: elements are taken off exactly, and loops over attributes visit them all, or all with
an identifier. -/
def ReadsExactly (r : Region) : Prop :=
  Exact mem r ∧ Iterates mem (fun _ => true) (serviceNextAttribute mem) r ∧
    ∀ id, Iterates mem (fun number => number = id) (serviceFindAttribute mem id) r

/-! ### Readers of attributes -/

variable {mem} {r : Region}

/-- What a reader leaves: the region is advanced, by an attribute if it returns TRUE; of a record it passes the attributes
that `p` does not accept. -/
structure Passed (mem : ℕ → UInt8) (p : ℕ → Bool) (st : Next) (result : Bool × Next) : Prop where
  end_eq : result.2.r.end = st.r.end
  le : st.r.begin ≤ result.2.r.begin ∧ result.2.r.begin ≤ st.r.end
  lt : result.1 = true → st.r.begin < result.2.r.begin
  found : ∀ attrs, result.1 = true → st.r.octets mem = record attrs →
    ∃ front a back, attrs = front ++ a :: back ∧ (∀ b ∈ front, p b.number = false) ∧ p a.number = true ∧
      result.2.r.begin = st.r.begin + (record (front ++ [a])).length ∧
      (result.2.id, result.2.type, result.2.value) = a.place (st.r.begin + (record front).length)
  missed : ∀ attrs, result.1 = false → st.r.octets mem = record attrs → ∀ b ∈ attrs, p b.number = false

/-- A reader of the attributes that `p` accepts. -/
def Passes (mem : ℕ → UInt8) (p : ℕ → Bool) (reader : Next → Except Fault (Bool × Next)) : Prop :=
  ∀ st : Next, st.r.Small → Yields (reader st) (Passed mem p st)

/-- The value does not begin in front of its region, and the region is advanced behind it. -/
theorem getValue_inside (h : r.Small) {type : ServiceDataType} {out : Region} {got : Got}
    (hgot : serviceGetValue mem r type out = .ok got) :
    got.r.end = r.end ∧ r.begin ≤ got.r.begin ∧ got.r.begin ≤ r.end ∧
      (got.result = true → r.begin < got.r.begin ∧ r.begin < got.out.begin ∧ got.out.begin ≤ got.out.end ∧
        got.out.end ≤ r.end) := by
  have hle := h.1
  rcases hl : r.octets mem with - | ⟨b, l⟩
  · rw [getValue_nil h hl] at hgot
    rw [← Except.ok.inj hgot]
    exact ⟨rfl, Nat.le_refl _, hle, (fun h => nomatch h)⟩
  · have hlen := congrArg List.length hl
    rw [length_octets, length_cons] at hlen
    by_cases hshort : l.length < fieldWidth b
    · rw [getValue_short h hl type out hshort] at hgot
      rw [← Except.ok.inj hgot]
      refine ⟨rfl, Nat.le_succ _, ?_, (fun h => nomatch h)⟩
      change r.begin + 1 ≤ r.end
      omega
    · have hfield : (l.take (fieldWidth b)).length = fieldWidth b := by
        rw [length_take]
        omega
      rw [getValue_field h hl type out (List.take_append_drop (fieldWidth b) l).symm hfield] at hgot
      rw [← Except.ok.inj hgot, hfield, length_drop]
      split
      · refine ⟨rfl, Nat.le_add_right _ _, ?_, (fun h => nomatch h)⟩
        change r.begin + (1 + fieldWidth b) ≤ r.end
        omega
      · dsimp only [Region.skip]
        refine ⟨rfl, Nat.le_add_right _ _, ?_, fun _ => ⟨?_, ?_, ?_, ?_⟩⟩ <;> omega

/-- The octets of a part of a region. -/
theorem octets_part {k n : ℕ} (h : k + n ≤ (r.octets mem).length) :
    (⟨r.begin + k, r.begin + k + n⟩ : Region).octets mem = ((r.octets mem).drop k).take n := by
  refine ext_getElem ?_ fun i h1 h2 => ?_
  · rw [length_take, length_drop, length_octets]
    change r.begin + k + n - (r.begin + k) = _
    omega
  · simp [Region.octets, Nat.add_assoc]

/-- The value of an element at the beginning of the region. -/
theorem octets_region {e : DataElement} (he : e.octets <+: r.octets mem) :
    (e.region r.begin).octets mem = e.value := by
  have hlen := he.length_le
  rw [DataElement.length_octets] at hlen
  have hpart : e.region r.begin = ⟨r.begin + (1 + e.field.length), r.begin + (1 + e.field.length) + e.value.length⟩ := by
    rw [DataElement.region, DataElement.length_octets, Region.mk.injEq]
    exact ⟨by omega, by omega⟩
  obtain ⟨post, hpost⟩ := he
  rw [hpart, octets_part hlen, ← hpost, DataElement.octets, cons_append, append_assoc, Nat.add_comm 1,
    drop_succ_cons, drop_left, List.take_left]

theorem unpack16_eq {l : List UInt8} (hl : r.octets mem = l) (hlen : l.length = 2) :
    serviceUnpack16 mem r = .ok (bigEndian l) := by
  obtain ⟨m, n, rfl⟩ := List.length_eq_two.mp hlen
  rw [serviceUnpack16, octetAt_eq (b := m) (by rw [hl]; rfl), octetAt_eq (b := n) (by rw [hl]; rfl)]
  refine congrArg Except.ok ?_
  rw [bigEndian, foldl_cons, foldl_cons, foldl_nil, Nat.zero_mul, Nat.zero_add]

theorem regionSize_region {e : DataElement} (h : r.Small) (he : e.octets <+: r.octets mem) :
    regionSize (e.region r.begin) = e.value.length := by
  have hlen := he.length_le
  rw [length_octets, DataElement.length_octets] at hlen
  have h2 := h.2
  rw [regionSize, DataElement.region, DataElement.length_octets]
  dsimp only
  rw [Nat.mod_eq_of_lt (by omega)]
  omega

theorem Attribute.length_octets (a : Attribute) : a.octets.length = a.id.octets.length + a.value.octets.length :=
  length_append

variable {attrs : List Attribute} {st : Next}

/-- The first attribute of a record is taken off. -/
theorem next_cons (h : st.r.Small) {a : Attribute}
    (hrecord : st.r.octets mem = record (a :: attrs)) : serviceNextAttribute mem st =
      .ok (true, ⟨st.r.skip a.octets.length, a.number, a.value.type, a.value.region (st.r.begin + a.id.octets.length)⟩) := by
  rw [record_cons, Attribute.octets, append_assoc] at hrecord
  have hid : a.id.octets <+: st.r.octets mem := hrecord ▸ prefix_append _ _
  have hsmall : (st.r.skip a.id.octets.length).Small := h.skip hid.length_le
  have hvalue : a.value.octets <+: (st.r.skip a.id.octets.length).octets mem := by
    rw [octets_skip, hrecord, drop_left]
    exact prefix_append _ _
  have hcond : a.id.type = .unsignedInteger ∧ regionSize (a.id.region st.r.begin) = 2 := by
    rw [regionSize_region h hid]
    exact a.isId
  rw [serviceNextAttribute, getValue_of_begins h hid, Lib.ok_bind]
  rw [if_pos ⟨rfl, hcond⟩, unpack16_eq (octets_region hid) a.isId.2, Lib.ok_bind, getValue_of_begins hsmall hvalue]
  change Except.ok (true, (⟨(st.r.skip a.id.octets.length).skip a.value.octets.length, _, _, _⟩ : Next)) = _
  rw [Region.skip, Region.skip, Region.skip, Attribute.length_octets, Nat.add_assoc]
  rfl

theorem next_nil (h : st.r.Small) (hrecord : st.r.octets mem = []) :
    serviceNextAttribute mem st = .ok (false, st) := by
  rw [serviceNextAttribute, getValue_nil h hrecord]
  rfl

/-- On every region, the next attribute is looked for inside of it. -/
theorem next_ok (mem : ℕ → UInt8) (h : st.r.Small) : Yields (serviceNextAttribute mem st) fun result =>
    result.2.r.end = st.r.end ∧ st.r.begin ≤ result.2.r.begin ∧ result.2.r.begin ≤ st.r.end ∧
      (result.1 = true → st.r.begin < result.2.r.begin) := by
  obtain ⟨got, hgot⟩ := getValue_ok mem h st.type (⟨0, 0⟩ : Region)
  obtain ⟨hend, hle, hle', htrue⟩ := getValue_inside h hgot
  rw [serviceNextAttribute, hgot, Lib.ok_bind]
  refine Yields.ite (fun hcond => ?_) fun _ => .pure ⟨hend, hle, hle', (fun h => nomatch h)⟩
  obtain ⟨hresult, -, hsize⟩ := hcond
  obtain ⟨hlt, hout, hout', hout''⟩ := htrue hresult
  have hlen : (got.out.octets mem).length = 2 := by
    rw [regionSize] at hsize
    rw [length_octets]
    have := h.2
    omega
  have hsmall : got.r.Small := by
    have := h.2
    constructor <;> omega
  obtain ⟨got', hgot'⟩ := getValue_ok mem hsmall got.type st.value
  obtain ⟨hend', hle1, hle2, -⟩ := getValue_inside hsmall hgot'
  rw [unpack16_eq rfl hlen, Lib.ok_bind, hgot', Lib.ok_bind]
  refine .pure ⟨hend'.trans hend, Nat.le_trans hle hle1, hend ▸ hle2, fun _ => ?_⟩
  change st.r.begin < got'.r.begin
  omega

theorem next_passes (mem : ℕ → UInt8) : Passes mem (fun _ => true) (serviceNextAttribute mem) := by
  intro st h
  obtain ⟨⟨ok, next⟩, hnext, hend, hle, hle', hlt⟩ := next_ok mem h
  refine ⟨(ok, next), hnext, hend, ⟨hle, hle'⟩, hlt, fun attrs hok hrecord => ?_, fun attrs hok hrecord => ?_⟩
  · rcases attrs with - | ⟨a, back⟩
    · rw [next_nil h hrecord] at hnext
      obtain ⟨rfl, -⟩ := Prod.mk.inj (Except.ok.inj hnext)
      cases hok
    · rw [next_cons h hrecord] at hnext
      obtain ⟨-, rfl⟩ := Prod.mk.inj (Except.ok.inj hnext)
      refine ⟨[], a, back, rfl, fun b hb => (not_mem_nil hb).elim, rfl, ?_, rfl⟩
      rw [nil_append, record_cons, length_append]
      rfl
  · rcases attrs with - | ⟨a, back⟩
    · exact fun b hb => (not_mem_nil hb).elim
    · rw [next_cons h hrecord] at hnext
      obtain ⟨rfl, -⟩ := Prod.mk.inj (Except.ok.inj hnext)
      cases hok

/-- Behind the front of a record, the rest begins. -/
theorem octets_behind {r' : Region} {front back : List Attribute} (hrecord : r.octets mem = record (front ++ back))
    (hend : r'.end = r.end) (hbegin : r'.begin = r.begin + (record front).length) : r'.octets mem = record back := by
  have hr : r' = r.skip (record front).length := by
    rw [Region.skip, ← hbegin, ← hend]
  rw [hr, octets_skip, hrecord, record_append, drop_left]

/-- What a turn of `ServiceFindAttribute` keeps. -/
structure Finding (mem : ℕ → UInt8) (id : ℕ) (r : Region) (st : Next × Option Bool) : Prop where
  end_eq : st.1.r.end = r.end
  le : r.begin ≤ st.1.r.begin ∧ st.1.r.begin ≤ r.end
  lt : st.2 = some true → r.begin < st.1.r.begin
  seeking : ∀ attrs, st.2 = none → r.octets mem = record attrs → ∃ front back, attrs = front ++ back ∧
    (∀ b ∈ front, b.number ≠ id) ∧ st.1.r.begin = r.begin + (record front).length
  found : ∀ attrs, st.2 = some true → r.octets mem = record attrs → ∃ front a back, attrs = front ++ a :: back ∧
    (∀ b ∈ front, b.number ≠ id) ∧ a.number = id ∧ st.1.r.begin = r.begin + (record (front ++ [a])).length ∧
      (st.1.id, st.1.type, st.1.value) = a.place (r.begin + (record front).length)
  missed : ∀ attrs, st.2 = some false → r.octets mem = record attrs → ∀ b ∈ attrs, b.number ≠ id

/-- How many turns are left at most. -/
def Finding.rank (st : Next × Option Bool) : ℕ :=
  match st.2 with
  | some _ => 0
  | none => st.1.r.end - st.1.r.begin + 1

theorem Finding.turn {id : ℕ} {st : Next × Option Bool} (hsmall : r.Small) (h : Finding mem id r st) :
    findTurn mem id st = .ok none ∨
      ∃ st', findTurn mem id st = .ok (some st') ∧ Finding mem id r st' ∧ rank st' < rank st := by
  obtain ⟨st, result⟩ := st
  rcases result with - | result
  · right
    have hbegin : r.begin ≤ st.r.begin := h.le.1
    have hbegin' : st.r.begin ≤ r.end := h.le.2
    have hend : st.r.end = r.end := h.end_eq
    have hst : st.r.Small := by
      have := hsmall.2
      constructor <;> omega
    obtain ⟨⟨ok, next⟩, hnext, hpassed⟩ := next_passes mem st hst
    have hle : r.begin ≤ next.r.begin := Nat.le_trans hbegin hpassed.le.1
    have hle' : next.r.begin ≤ r.end := hend ▸ hpassed.le.2
    -- the rest of a record, of which the next attribute is taken off
    have hrest : ∀ attrs, r.octets mem = record attrs → ∃ front back, attrs = front ++ back ∧
        (∀ b ∈ front, b.number ≠ id) ∧ st.r.begin = r.begin + (record front).length ∧ st.r.octets mem = record back := by
      intro attrs hrecord
      obtain ⟨front, back, rfl, hfront, hat⟩ := h.seeking attrs rfl hrecord
      exact ⟨front, back, rfl, hfront, hat, octets_behind hrecord hend hat⟩
    rw [findTurn, hnext]
    cases ok with
    | false =>
      refine ⟨_, rfl, ⟨hpassed.end_eq.trans hend, ⟨hle, hle'⟩, (fun h => nomatch h),
        (fun _ h => nomatch h), (fun _ h => nomatch h), fun attrs _ hrecord => ?_⟩, Nat.succ_pos _⟩
      obtain ⟨front, back, rfl, hfront, -, hback⟩ := hrest attrs hrecord
      rcases back with - | ⟨a, back⟩
      · rw [append_nil]
        exact hfront
      · exact nomatch hpassed.missed _ rfl hback a mem_cons_self
    | true =>
      have hlt : st.r.begin < next.r.begin := hpassed.lt rfl
      have hfound : ∀ attrs, r.octets mem = record attrs → ∃ front a back, attrs = front ++ a :: back ∧
          (∀ b ∈ front, b.number ≠ id) ∧ next.r.begin = r.begin + (record (front ++ [a])).length ∧
            (next.id, next.type, next.value) = a.place (r.begin + (record front).length) := by
        intro attrs hrecord
        obtain ⟨front, back, rfl, hfront, hat, hback⟩ := hrest attrs hrecord
        obtain ⟨none', a, back, rfl, hnone, -, hnext', hplace⟩ := hpassed.found _ rfl hback
        have hnil : none' = [] := eq_nil_iff_forall_not_mem.mpr fun b hb => nomatch hnone b hb
        rw [hnil, nil_append] at hnext' ⊢
        rw [hnil] at hplace
        refine ⟨front, a, back, rfl, hfront, ?_, ?_⟩
        · rw [record_append, length_append, ← Nat.add_assoc, ← hat]
          exact hnext'
        · rw [← hat]
          exact hplace
      by_cases hid : next.id = id
      · refine ⟨(next, some true), ?_, ⟨hpassed.end_eq.trans hend, ⟨hle, hle'⟩,
          fun _ => Nat.lt_of_le_of_lt hbegin hlt, (fun _ h => nomatch h), fun attrs _ hrecord => ?_, (fun _ h => nomatch h)⟩,
          Nat.succ_pos _⟩
        · simp [hid]
        · obtain ⟨front, a, back, rfl, hfront, hat, hplace⟩ := hfound attrs hrecord
          exact ⟨front, a, back, rfl, hfront, (congrArg Prod.fst hplace).symm.trans hid, hat, hplace⟩
      · refine ⟨(next, none), ?_, ⟨hpassed.end_eq.trans hend, ⟨hle, hle'⟩,
          (fun h => nomatch h), fun attrs _ hrecord => ?_, (fun _ h => nomatch h), (fun _ h => nomatch h)⟩, ?_⟩
        · simp [hid]
        · obtain ⟨front, a, back, rfl, hfront, hat, hplace⟩ := hfound attrs hrecord
          refine ⟨front ++ [a], back, by rw [append_assoc]; rfl, fun b hb => ?_, hat⟩
          rcases mem_append.mp hb with hb | hb
          · exact hfront b hb
          · rw [mem_singleton.mp hb]
            exact fun h => hid ((congrArg Prod.fst hplace).trans h)
        · have hend' : next.r.end = st.r.end := hpassed.end_eq
          change next.r.end - next.r.begin + 1 < st.r.end - st.r.begin + 1
          omega
  · left
    rfl

theorem find_passes (id : ℕ) : Passes mem (fun number => number = id) (serviceFindAttribute mem id) := by
  intro st h
  have hstart : Finding mem id st.r (st, none) := by
    refine ⟨rfl, ⟨Nat.le_refl _, h.1⟩, (fun h => nomatch h), fun attrs _ _ => ?_, (fun _ h => nomatch h), (fun _ h => nomatch h)⟩
    exact ⟨[], attrs, rfl, fun b hb => (not_mem_nil hb).elim, rfl⟩
  have hfuel : Finding.rank (st, none) < regionSize st.r + 2 := by
    rw [regionSize_eq mem h, length_octets]
    exact Nat.lt_succ_self _
  obtain ⟨⟨next, result⟩, hloop, hfinding, hstop⟩ := @Lib.loop_spec _ _ Fault.endless _ (Finding mem id st.r) Finding.rank
    (fun st' h' => h'.turn h) _ _ hstart hfuel
  refine ⟨(result = some true, next), ?_, hfinding.end_eq, hfinding.le, fun h => hfinding.lt (of_decide_eq_true h),
    fun attrs hok hrecord => ?_, fun attrs hok hrecord b hb => ?_⟩
  · rw [serviceFindAttribute, hloop]
    rfl
  · obtain ⟨front, a, back, hattrs, hfront, hid, hat, hplace⟩ := hfinding.found attrs (of_decide_eq_true hok) hrecord
    exact ⟨front, a, back, hattrs, fun b hb => decide_eq_false (hfront b hb), decide_eq_true hid, hat, hplace⟩
  · have hne : result ≠ some true := of_decide_eq_false hok
    rcases result with - | result
    · -- the loop has not returned, and goes on
      rcases hfinding.turn h with hturn | ⟨st', hturn, -⟩
      · rw [findTurn] at hturn
        obtain ⟨⟨ok, next'⟩, -, hturn⟩ := Lib.exists_of_bind_eq_ok hturn
        dsimp only at hturn
        split at hturn <;> cases hturn
      · rw [hstop] at hturn
        cases hturn
    · cases result with
      | true => exact absurd rfl hne
      | false => exact decide_eq_false (hfinding.missed attrs rfl hrecord b hb)

/-! ### Loops over a record -/

theorem filter_places_eq_nil {p : ℕ → Bool} (h : ∀ b ∈ attrs, p b.number = false) (start : ℕ) :
    (places start attrs).filter (fun place => p place.1) = [] := by
  induction attrs generalizing start with
  | nil => rfl
  | cons a attrs ih =>
    have ha : ¬ p (a.place start).1 = true := Bool.not_eq_true _ ▸ h a mem_cons_self
    rw [places, filter_cons_of_neg (p := fun place : ℕ × ServiceDataType × Region => p place.1) ha]
    exact ih (fun b hb => h b (mem_cons_of_mem _ hb)) _

/-- What a visit keeps: it has got behind the front of a record. -/
structure Visiting (mem : ℕ → UInt8) (p : ℕ → Bool) (r : Region) (st : Next × List (ℕ × ServiceDataType × Region)) :
    Prop where
  end_eq : st.1.r.end = r.end
  le : r.begin ≤ st.1.r.begin ∧ st.1.r.begin ≤ r.end
  visited : ∀ attrs, r.octets mem = record attrs → ∃ front back, attrs = front ++ back ∧
    st.1.r.begin = r.begin + (record front).length ∧ st.2 = (places r.begin front).filter fun place => p place.1

variable {p : ℕ → Bool} {reader : Next → Except Fault (Bool × Next)}

theorem Visiting.turn (hreader : Passes mem p reader) (hsmall : r.Small)
    {st : Next × List (ℕ × ServiceDataType × Region)} (h : Visiting mem p r st) :
    (visitTurn reader st = .ok none ∧
      ∀ attrs, r.octets mem = record attrs → st.2 = (places r.begin attrs).filter fun place => p place.1) ∨
    ∃ st', visitTurn reader st = .ok (some st') ∧ Visiting mem p r st' ∧
      st'.1.r.end - st'.1.r.begin < st.1.r.end - st.1.r.begin := by
  obtain ⟨st, visited⟩ := st
  have hbegin : r.begin ≤ st.r.begin := h.le.1
  have hbegin' : st.r.begin ≤ r.end := h.le.2
  have hend : st.r.end = r.end := h.end_eq
  have hst : st.r.Small := by
    have := hsmall.2
    constructor <;> omega
  obtain ⟨⟨ok, next⟩, hnext, hpassed⟩ := hreader st hst
  rw [visitTurn, hnext]
  cases ok with
  | false =>
    refine .inl ⟨rfl, fun attrs hrecord => ?_⟩
    obtain ⟨front, back, rfl, hat, hvisited⟩ := h.visited attrs hrecord
    rw [places_append, filter_append,
      filter_places_eq_nil (hpassed.missed back rfl (octets_behind hrecord hend hat)), append_nil]
    exact hvisited
  | true =>
    have hlt : st.r.begin < next.r.begin := hpassed.lt rfl
    have hend' : next.r.end = st.r.end := hpassed.end_eq
    have hle' : next.r.begin ≤ st.r.end := hpassed.le.2
    refine .inr ⟨_, rfl, ⟨hend'.trans hend, ⟨?_, hend ▸ hle'⟩, fun attrs hrecord => ?_⟩, ?_⟩
    · change r.begin ≤ next.r.begin
      omega
    · obtain ⟨front, back, rfl, hat, hvisited⟩ := h.visited attrs hrecord
      obtain ⟨missed, a, back, rfl, hmissed, hp, hnext', hplace⟩ :=
        hpassed.found back rfl (octets_behind hrecord hend hat)
      have hfilter : (places r.begin (front ++ (missed ++ [a]))).filter (fun place => p place.1) =
          (places r.begin front).filter (fun place => p place.1) ++
            [a.place (st.r.begin + (record missed).length)] := by
        have hat' : r.begin + (record front).length = st.r.begin := hat.symm
        rw [places_append, places_append, filter_append, filter_append, filter_places_eq_nil hmissed,
          nil_append, hat', places, places]
        exact congrArg _ (filter_cons_of_pos (p := fun place : ℕ × ServiceDataType × Region => p place.1) hp)
      refine ⟨front ++ (missed ++ [a]), back, by rw [append_assoc, append_assoc]; rfl, ?_, ?_⟩
      · rw [record_append, length_append, ← Nat.add_assoc, ← hat]
        exact hnext'
      · rw [hfilter, ← hplace]
        exact congrArg (· ++ [(next.id, next.type, next.value)]) hvisited
    · change next.r.end - next.r.begin < st.r.end - st.r.begin
      omega

theorem iterates_of_passes (hreader : Passes mem p reader) (h : r.Small) : Iterates mem p reader r := by
  intro id type value
  have hstart : Visiting mem p r (⟨r, id, type, value⟩, []) :=
    ⟨rfl, ⟨Nat.le_refl _, h.1⟩, fun attrs _ => ⟨[], attrs, rfl, rfl, rfl⟩⟩
  have hfuel : r.end - r.begin < regionSize r + 1 := by
    rw [regionSize_eq mem h, length_octets]
    exact Nat.lt_succ_self _
  obtain ⟨⟨next, visited⟩, hloop, hvisiting, hstop⟩ := @Lib.loop_spec _ _ Fault.endless _ (Visiting mem p r)
    (fun st => st.1.r.end - st.1.r.begin) (fun st hst => (hst.turn hreader h).imp_left And.left) _ _ hstart hfuel
  refine ⟨visited, ?_, ?_⟩
  · rw [visit, hloop]
    rfl
  · rcases hvisiting.turn hreader h with ⟨-, hall⟩ | ⟨st', hturn, -⟩
    · exact hall
    · rw [hstop] at hturn
      cases hturn

/-- On every region of at most 65535 octets the library keeps its promise, unless the region begins with a size of four
octets that is cut. -/
theorem readsExactly_iff (mem : ℕ → UInt8) (r : Region) (h : r.Small) : ReadsExactly mem r ↔ ¬ Truncated mem r := by
  rw [← exact_iff h]
  constructor
  · intro hreads
    exact hreads.1
  · intro hexact
    exact ⟨hexact, iterates_of_passes (next_passes mem) h, fun id => iterates_of_passes (find_passes id) h⟩

theorem readsExactly_iff_five : ReadsExactly (fun _ => 0) ⟨100, 105⟩ ↔ ¬ Truncated (fun _ => 0) ⟨100, 105⟩ :=
  readsExactly_iff (fun _ => 0) ⟨100, 105⟩ ⟨by decide, by decide⟩

/-- A sequence that claims 65536 octets is taken for an empty one. -/
theorem not_readsExactly : ¬ ReadsExactly (fun i => [0x37, 0x00, 0x01, 0x00, 0x00].getD i 0) ⟨0, 5⟩ := by
  intro hreads
  have htrunc : Truncated (fun i => [0x37, 0x00, 0x01, 0x00, 0x00].getD i 0) ⟨0, 5⟩ :=
    ⟨0x37, [0x00, 0x01, 0x00, 0x00], [], by decide, rfl, by decide, by decide, by decide⟩
  exact htrunc.not_exact ⟨by decide, by decide⟩ hreads.1

end Cbps.Service
