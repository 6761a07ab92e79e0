import Cbps.SdpParse.Sections

/-!
# Lists of sections

The value of a list attribute is a row of sections. `findServerChannel` stops at the first section with a parameter.
`findProfileVersion` stops there as well, but gives up at a section without an element that is accepted: `version` is what
it finds.
-/

namespace Cbps.SdpParse

open Lib List

open Service

variable {mem : ℕ → UInt8} {id : ℕ}

/-- A section: a sequence of elements. Octets may follow that are no element. -/
structure Section where
  element : DataElement
  items : List DataElement
  tail : List UInt8
  isSequence : element.type = .sequence
  value_eq : element.value = row items ++ tail
  ends : ∀ e : DataElement, ¬ e.octets <+: tail

/-- The octets of a list. -/
def listOctets (sections : List Section) : List UInt8 := row (sections.map Section.element)

theorem listOctets_cons (s : Section) (sections : List Section) :
    listOctets (s :: sections) = s.element.octets ++ listOctets sections := row_cons _ _

/-- A size of four octets is cut, and what is left of it is there. -/
def CutSize (l : List UInt8) : Prop := ∃ b field rest, b.toNat % 8 = 7 ∧ field.length = 4 ∧ l = b :: (field ++ rest) ∧
  65536 ≤ bigEndian field ∧ bigEndian field % 65536 ≤ rest.length

/-- The code notices where the section ends: no octets follow, or they are not taken for an element and the code looks at
them no more than once. -/
def Section.Ends (id : ℕ) (s : Section) : Prop :=
  s.tail = [] ∨ (¬ CutSize s.tail ∧ (s.items = [] ∨ ∃ b ∈ s.items, accepts id b = true))

/-- What is no element is not read. -/
theorem getValue_fails {r : Region} (hsmall : r.Small) {l : List UInt8} (hl : r.octets mem = l)
    (hends : ∀ e : DataElement, ¬ e.octets <+: l) (hcut : ¬ CutSize l) (type : ServiceDataType) (out : Region) :
    ∃ got, serviceGetValue mem r type out = .ok got ∧ got.result = false := by
  obtain ⟨got, hgot⟩ := getValue_ok mem hsmall type out
  refine ⟨got, hgot, eq_false_of_ne_true fun hresult => ?_⟩
  have hnot : ¬ Truncated mem r := fun h => hcut (hl ▸ h)
  obtain ⟨e, he⟩ := exists_of_getValue hsmall hnot hgot hresult
  exact hends e (hl ▸ he)

section Turns

variable {p : Region} (hsmall : p.Small) {s : Section} {rest : List UInt8}
  (hoctets : p.octets mem = s.element.octets ++ rest) (type : ServiceDataType) (value : Region)

include hoctets

theorem octets_section : (s.element.region p.begin).octets mem = row s.items ++ s.tail := by
  rw [octets_region (hoctets ▸ prefix_append _ _), s.value_eq]

include hsmall

theorem small_section : (s.element.region p.begin).Small := small_region hsmall (hoctets ▸ prefix_append _ _)

theorem getValue_section : serviceGetValue mem p type ⟨0, 0⟩ =
    .ok ⟨true, p.skip s.element.octets.length, s.element.type, s.element.region p.begin⟩ :=
  getValue_of_begins hsmall (hoctets ▸ prefix_append _ _) type ⟨0, 0⟩

/-- A section without a parameter is passed. -/
theorem channelTurn_none (hends : s.Ends id) (hnone : parameter id s.items = none) : ∃ type' value',
    channelTurn mem id ⟨p, type, value, none⟩ =
      .ok (some ⟨p.skip s.element.octets.length, type', value', none⟩) := by
  have hs := small_section hsmall hoctets
  have hvalue := octets_section hoctets
  rw [channelTurn]
  dsimp only
  rw [getValue_section hsmall hoctets, ok_bind, if_pos rfl]
  dsimp only
  rcases exists_first id s.items with hmissing | ⟨front, e, back, hitems, hfront, he⟩
  · rcases hcase : s.items with - | ⟨e, es⟩
    · -- no element at all
      have hfirst : ∃ first, serviceGetValue mem (s.element.region p.begin) s.element.type value = .ok first ∧
          first.result = false := by
        rw [hcase, row_nil, nil_append] at hvalue
        obtain htail | ⟨hcut, -⟩ := hends
        · rw [htail] at hvalue
          exact ⟨_, getValue_nil hs hvalue _ _, rfl⟩
        · exact getValue_fails hs hvalue s.ends hcut _ _
      obtain ⟨first, hfirst, hresult⟩ := hfirst
      rw [hfirst, ok_bind, hresult, if_neg Bool.false_ne_true]
      exact ⟨_, _, rfl⟩
    · -- none of the elements is accepted, and the last one ends where the section does
      have htail : s.tail = [] := by
        obtain htail | ⟨-, hnil | ⟨b, hb, hb'⟩⟩ := hends
        · exact htail
        · rw [hcase] at hnil
          cases hnil
        · rw [hmissing b hb] at hb'
          cases hb'
      rw [htail, append_nil, hcase] at hvalue
      obtain ⟨first, type', v', hfirst, hresult, hwalk, hend⟩ :=
        enter_missing hs s.element.type value hvalue (hcase ▸ hmissing)
      rw [hfirst, ok_bind, if_pos hresult, hwalk, ok_bind]
      dsimp only
      have hstop : ¬ v'.end ≠ ((s.element.region p.begin).skip (row (e :: es)).length).end := not_not.mpr hend
      rw [if_neg hstop]
      exact ⟨_, _, rfl⟩
  · rw [hitems, append_cons, row_append, append_assoc] at hvalue
    obtain ⟨first, hfirst, hresult, hwalk⟩ := enter_found hs s.element.type value hvalue hfront he
    rw [hfirst, ok_bind, if_pos hresult, hwalk, ok_bind]
    dsimp only
    split
    · have hsmall' := small_rest hs hvalue
      have hrest := octets_rest hvalue
      rcases back with - | ⟨x, back⟩
      · -- the octets behind the element are no parameter
        have hlast : ∃ last, serviceGetValue mem ((s.element.region p.begin).skip (row (front ++ [e])).length) e.type
            (e.region ((s.element.region p.begin).begin + (row front).length)) = .ok last ∧ last.result = false := by
          rw [row_nil, nil_append] at hrest
          obtain htail | ⟨hcut, -⟩ := hends
          · rw [htail] at hrest
            exact ⟨_, getValue_nil hsmall' hrest _ _, rfl⟩
          · exact getValue_fails hsmall' hrest s.ends hcut _ _
        obtain ⟨last, hlast, hfalse⟩ := hlast
        rw [hlast, ok_bind, if_neg (by rw [hfalse]; exact fun h => Bool.false_ne_true h.1)]
        exact ⟨_, _, rfl⟩
      · rw [hitems, parameter_of_found hfront he] at hnone
        rw [row_cons, append_assoc] at hrest
        have htype : ¬ x.type = .unsignedInteger := by
          intro htype
          rw [if_pos htype] at hnone
          cases hnone
        rw [getValue_of_begins hsmall' (hrest ▸ prefix_append _ _), ok_bind, if_neg fun h => htype h.2]
        exact ⟨_, _, rfl⟩
    · exact ⟨_, _, rfl⟩

/-- The parameter of a section is found. -/
theorem channelTurn_some {front back : List DataElement} {x : DataElement}
    (hsome : parameter id s.items = some (front, x, back)) : channelTurn mem id ⟨p, type, value, none⟩ =
      .ok (some ⟨p.skip s.element.octets.length, x.type,
        x.region ((s.element.region p.begin).begin + (row front).length), some true⟩) := by
  have hs := small_section hsmall hoctets
  have hvalue := octets_section hoctets
  rcases exists_first id s.items with hmissing | ⟨front', e, back', hitems, hfront, he⟩
  · rw [parameter_of_missing hmissing] at hsome
    cases hsome
  · rcases back' with - | ⟨y, back'⟩
    · rw [hitems, parameter_of_last hfront he] at hsome
      cases hsome
    · rw [hitems, parameter_of_found hfront he] at hsome
      split_ifs at hsome with htype
      simp only [Option.some.injEq, Prod.mk.injEq] at hsome
      obtain ⟨rfl, rfl, rfl⟩ := hsome
      rw [hitems, append_cons, row_append, append_assoc] at hvalue
      obtain ⟨first, hfirst, hresult, hwalk⟩ := enter_found hs s.element.type value hvalue hfront he
      have hsmall' := small_rest hs hvalue
      have hrest := octets_rest hvalue
      rw [row_cons, append_assoc] at hrest
      have hmore : (e.region ((s.element.region p.begin).begin + (row front').length)).end ≠
          ((s.element.region p.begin).skip (row (front' ++ [e])).length).end := by
        have hlen := congrArg List.length hrest
        have hpos := length_octets_pos y
        rw [length_octets, length_append] at hlen
        simp only [DataElement.region, Region.skip, row_append, row_cons, row_nil, append_nil,
          length_append] at hlen ⊢
        omega
      rw [channelTurn]
      dsimp only
      rw [getValue_section hsmall hoctets, ok_bind, if_pos rfl]
      dsimp only
      rw [hfirst, ok_bind, if_pos hresult, hwalk, ok_bind]
      dsimp only
      rw [if_pos hmore, getValue_of_begins hsmall' (hrest ▸ prefix_append _ _), ok_bind]
      dsimp only
      rw [if_pos ⟨rfl, htype⟩]
      rfl

/-! ### Turns of `findProfileVersion` -/

/-- An empty section is passed. -/
theorem versionTurn_nil (htail : s.tail = []) (hitems : s.items = []) : ∃ type' value',
    versionTurn mem id ⟨p, type, value, none⟩ =
      .ok (some ⟨p.skip s.element.octets.length, type', value', none⟩) := by
  have hs := small_section hsmall hoctets
  have hvalue := octets_section hoctets
  rw [hitems, htail] at hvalue
  rw [versionTurn]
  dsimp only
  rw [getValue_section hsmall hoctets, ok_bind, if_pos rfl]
  dsimp only
  rw [getValue_nil hs hvalue, ok_bind, if_neg Bool.false_ne_true]
  exact ⟨_, _, rfl⟩

/-- The search is given up in a section without an element that is accepted. -/
theorem versionTurn_missing (htail : s.tail = []) (hitems : s.items ≠ [])
    (hmissing : ∀ b ∈ s.items, accepts id b = false) : ∃ type' value',
      versionTurn mem id ⟨p, type, value, none⟩ =
        .ok (some ⟨p.skip s.element.octets.length, type', value', some false⟩) := by
  have hs := small_section hsmall hoctets
  have hvalue := octets_section hoctets
  rcases hcase : s.items with - | ⟨e, es⟩
  · exact absurd hcase hitems
  · rw [htail, append_nil, hcase] at hvalue
    obtain ⟨first, type', v', hfirst, hresult, hwalk, -⟩ :=
      enter_missing hs s.element.type value hvalue (hcase ▸ hmissing)
    rw [versionTurn]
    dsimp only
    rw [getValue_section hsmall hoctets, ok_bind, if_pos rfl]
    dsimp only
    rw [hfirst, ok_bind, if_pos hresult, hwalk, ok_bind, if_pos rfl]
    exact ⟨_, _, rfl⟩

/-- In a section with an element that is accepted, the parameter is found, or the section is passed. -/
theorem versionTurn_found (htail : s.tail = []) {front back : List DataElement} {e : DataElement}
    (hitems : s.items = front ++ e :: back) (hfront : ∀ b ∈ front, accepts id b = false) (he : accepts id e = true) :
    ∃ type' value', versionTurn mem id ⟨p, type, value, none⟩ =
      .ok (some ⟨p.skip s.element.octets.length, type', value',
        if (parameter id s.items).isSome then some true else none⟩) ∧
      ∀ front' x back', parameter id s.items = some (front', x, back') →
        value' = x.region ((s.element.region p.begin).begin + (row front').length) := by
  have hs := small_section hsmall hoctets
  have hvalue := octets_section hoctets
  rw [hitems, append_cons, row_append, append_assoc] at hvalue
  obtain ⟨first, hfirst, hresult, hwalk⟩ := enter_found hs s.element.type value hvalue hfront he
  have hsmall' := small_rest hs hvalue
  have hrest := octets_rest hvalue
  rw [versionTurn]
  dsimp only
  rw [getValue_section hsmall hoctets, ok_bind, if_pos rfl]
  dsimp only
  rw [hfirst, ok_bind, if_pos hresult, hwalk, ok_bind, if_neg Bool.false_ne_true]
  dsimp only
  rcases back with - | ⟨x, back⟩
  · rw [htail, append_nil, row_nil] at hrest
    rw [getValue_nil hsmall' hrest, ok_bind, hitems, parameter_of_last hfront he]
    exact ⟨_, _, rfl, fun _ _ _ h => by cases h⟩
  · rw [row_cons, append_assoc] at hrest
    rw [getValue_of_begins hsmall' (hrest ▸ prefix_append _ _), ok_bind, hitems, parameter_of_found hfront he]
    refine ⟨x.type, x.region ((s.element.region p.begin).begin + (row (front ++ [e])).length), ?_, fun front' x' back' h => ?_⟩
    · dsimp only
      by_cases htype : x.type = .unsignedInteger
      · rw [if_pos ⟨rfl, htype⟩, if_pos htype]
        rfl
      · rw [if_neg fun h => htype h.2, if_neg htype]
        rfl
    · split_ifs at h
      simp only [Option.some.injEq, Prod.mk.injEq] at h
      obtain ⟨rfl, rfl, rfl⟩ := h
      rfl

omit hsmall in
/-- The octets of the parameter. -/
theorem octets_parameter {front back : List DataElement} {x : DataElement}
    (hsome : parameter id s.items = some (front, x, back)) :
    (x.region ((s.element.region p.begin).begin + (row front).length)).octets mem = x.value := by
  have hvalue := octets_section hoctets
  rw [(parameter_eq_some hsome).1, row_append, row_cons, append_assoc, append_assoc] at hvalue
  have hrest := octets_rest hvalue
  exact octets_region (r := (s.element.region p.begin).skip (row front).length) (hrest ▸ prefix_append _ _)

end Turns

/-! ### The searches -/

theorem listOctets_append (front back : List Section) :
    listOctets (front ++ back) = listOctets front ++ listOctets back := by
  rw [listOctets, map_append, row_append]
  rfl

theorem length_le_listOctets (sections : List Section) : sections.length ≤ (listOctets sections).length := by
  have h := length_le_row (sections.map Section.element)
  rwa [length_map] at h

section Lists

variable {p : Region} (hsmall : p.Small)

include hsmall

/-- No section has a parameter. -/
theorem find_missing {sections : List Section} (hoctets : p.octets mem = listOctets sections)
    (hends : ∀ s ∈ sections, s.Ends id) (hnone : ∀ s ∈ sections, parameter id s.items = none)
    (type : ServiceDataType) (value : Region) {n : ℕ} (hn : sections.length + 2 ≤ n) :
    ∃ found, Lib.loop .endless (channelTurn mem id) n ⟨p, type, value, none⟩ = .ok found ∧
      found.result = some false := by
  induction sections generalizing p type value n with
  | nil =>
    obtain ⟨n, rfl⟩ : ∃ m, n = m + 1 + 1 := ⟨n - 2, by simp at hn; omega⟩
    have hturn : channelTurn mem id ⟨p, type, value, none⟩ = .ok (some ⟨p, type, value, some false⟩) := by
      rw [channelTurn]
      dsimp only
      rw [getValue_nil hsmall hoctets]
      rfl
    exact ⟨_, (loop_turn hturn _).trans (loop_stop rfl n), rfl⟩
  | cons s sections ih =>
    obtain ⟨n, rfl⟩ : ∃ m, n = m + 1 := ⟨n - 1, by simp at hn; omega⟩
    rw [listOctets_cons] at hoctets
    obtain ⟨type', value', hturn⟩ := channelTurn_none hsmall hoctets type value (hends s mem_cons_self)
      (hnone s mem_cons_self)
    rw [loop_turn hturn]
    exact ih (small_rest hsmall hoctets) (octets_rest hoctets) (fun s hs => hends s (mem_cons_of_mem _ hs))
      (fun s hs => hnone s (mem_cons_of_mem _ hs)) _ _ (by simp at hn; omega)

/-- The first parameter is found. -/
theorem find_found {front back : List Section} {s : Section} (hoctets : p.octets mem = listOctets (front ++ s :: back))
    (hends : ∀ s ∈ front, s.Ends id) (hnone : ∀ s ∈ front, parameter id s.items = none) {first last : List DataElement}
    {x : DataElement} (hsome : parameter id s.items = some (first, x, last)) (type : ServiceDataType) (value : Region)
    {n : ℕ} (hn : front.length + 2 ≤ n) : Lib.loop .endless (channelTurn mem id) n ⟨p, type, value, none⟩ =
      .ok ⟨p.skip (listOctets (front ++ [s])).length, x.type,
        x.region ((s.element.region (p.begin + (listOctets front).length)).begin + (row first).length), some true⟩ := by
  induction front generalizing p type value n with
  | nil =>
    obtain ⟨n, rfl⟩ : ∃ m, n = m + 1 + 1 := ⟨n - 2, by simp at hn; omega⟩
    rw [nil_append, listOctets_cons] at hoctets
    rw [loop_turn (channelTurn_some hsmall hoctets type value hsome), loop_stop rfl]
    simp [listOctets]
  | cons f front ih =>
    obtain ⟨n, rfl⟩ : ∃ m, n = m + 1 := ⟨n - 1, by simp at hn; omega⟩
    rw [cons_append, listOctets_cons] at hoctets
    obtain ⟨type', value', hturn⟩ := channelTurn_none hsmall hoctets type value (hends f mem_cons_self)
      (hnone f mem_cons_self)
    rw [loop_turn hturn, ih (small_rest hsmall hoctets) (octets_rest hoctets)
      (fun s hs => hends s (mem_cons_of_mem _ hs)) (fun s hs => hnone s (mem_cons_of_mem _ hs)) _ _
      (by simp at hn; omega), skip_skip, cons_append, listOctets_cons, listOctets_cons, length_append,
      length_append, ← Nat.add_assoc]
    rfl

end Lists

/-- What `findProfileVersion` finds in a list. -/
def version (id : ℕ) : List (List DataElement) → Option DataElement
  | [] => none
  | items :: sections =>
    if items = [] then version id sections
    else if items.any (accepts id) then
      match parameter id items with
      | some (_, x, _) => some x
      | none => version id sections
    else none

section Version

variable {items : List DataElement} (sections : List (List DataElement))

theorem version_missing (hne : items ≠ []) (h : ∀ b ∈ items, accepts id b = false) :
    version id (items :: sections) = none := by
  rw [version, if_neg hne, if_neg]
  rw [any_eq_true]
  rintro ⟨b, hb, hb'⟩
  rw [h b hb] at hb'
  cases hb'

theorem version_found {front back : List DataElement} {e : DataElement} (he : accepts id e = true) :
    version id ((front ++ e :: back) :: sections) = match parameter id (front ++ e :: back) with
      | some (_, x, _) => some x
      | none => version id sections := by
  rw [version, if_neg (by simp), if_pos (by simp [he])]

end Version

/-- What is found is an unsigned integer in one of the sections. -/
theorem version_mem {lists : List (List DataElement)} {x : DataElement} (h : version id lists = some x) :
    ∃ items ∈ lists, x ∈ items ∧ x.type = .unsignedInteger := by
  induction lists with
  | nil => cases h
  | cons items lists ih =>
    have hrest : version id lists = some x → ∃ items' ∈ items :: lists, x ∈ items' ∧ x.type = .unsignedInteger := by
      intro h
      obtain ⟨items', hitems', hx⟩ := ih h
      exact ⟨items', mem_cons_of_mem _ hitems', hx⟩
    rw [version] at h
    split_ifs at h
    · exact hrest h
    · split at h
      · next front y back hparameter =>
        obtain rfl := Option.some.inj h
        obtain ⟨hitems, htype⟩ := parameter_eq_some hparameter
        exact ⟨items, mem_cons_self, by simp [hitems], htype⟩
      · exact hrest h

/-- The result of the inner loop of `findProfileVersion`. -/
structure Finds (mem : ℕ → UInt8) (x : Option DataElement) (s : Search) : Prop where
  found : ∀ y, x = some y → s.result = some true ∧ s.value.octets mem = y.value
  missed : x = none → s.result ≠ some true

theorem find_version {p : Region} (hsmall : p.Small) {sections : List Section}
    (hoctets : p.octets mem = listOctets sections) (htail : ∀ s ∈ sections, s.tail = []) (type : ServiceDataType)
    (value : Region) {n : ℕ} (hn : sections.length + 2 ≤ n) :
    ∃ found, Lib.loop .endless (versionTurn mem id) n ⟨p, type, value, none⟩ = .ok found ∧
      Finds mem (version id (sections.map Section.items)) found := by
  induction sections generalizing p type value n with
  | nil =>
    obtain ⟨n, rfl⟩ : ∃ m, n = m + 1 := ⟨n - 1, by simp at hn; omega⟩
    have hturn : versionTurn mem id ⟨p, type, value, none⟩ = .ok none := by
      rw [versionTurn]
      dsimp only
      rw [getValue_nil hsmall hoctets]
      rfl
    exact ⟨_, loop_stop hturn n, ⟨fun y h => (by cases h), fun _ h => (by cases h)⟩⟩
  | cons s sections ih =>
    obtain ⟨n, rfl⟩ : ∃ m, n = m + 1 + 1 := ⟨n - 2, by simp at hn; omega⟩
    rw [listOctets_cons] at hoctets
    have hs := htail s mem_cons_self
    have hrest := fun type value => ih (small_rest hsmall hoctets) (octets_rest hoctets)
      (fun s hs => htail s (mem_cons_of_mem _ hs)) type value (n := n + 1) (by simp at hn; omega)
    rw [map_cons]
    rcases exists_first id s.items with hmissing | ⟨front, e, back, hitems, hfront, he⟩
    · by_cases hnil : s.items = []
      · obtain ⟨type', value', hturn⟩ := @versionTurn_nil _ id _ hsmall _ _ hoctets type value hs hnil
        rw [loop_turn hturn, hnil, version, if_pos rfl]
        exact hrest type' value'
      · obtain ⟨type', value', hturn⟩ := versionTurn_missing hsmall hoctets type value hs hnil hmissing
        refine ⟨_, (loop_turn hturn _).trans (loop_stop rfl n), ⟨fun y h => ?_, fun _ h => (by cases h)⟩⟩
        rw [version_missing _ hnil hmissing] at h
        cases h
    · obtain ⟨type', value', hturn, hvalue⟩ := versionTurn_found hsmall hoctets type value hs hitems hfront he
      rw [loop_turn hturn]
      have hversion := @version_found id (sections.map Section.items) front back e he
      rw [← hitems] at hversion
      rw [hversion]
      rcases hparameter : parameter id s.items with - | ⟨front', x, back'⟩
      · exact hrest type' value'
      · refine ⟨_, loop_stop rfl n, ⟨fun y h => ⟨rfl, ?_⟩, fun h => by cases h⟩⟩
        obtain rfl := Option.some.inj h
        dsimp only
        rw [hvalue front' x back' hparameter]
        exact octets_parameter hoctets hparameter

end Cbps.SdpParse
