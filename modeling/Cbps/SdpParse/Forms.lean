import Cbps.SdpParse.Profiles

/-!
# The forms of a UUID

A UUID of a service record may be written in 2, 4 or 16 octets. The searches give the same result for two writings of a
list, unless one of them has a UUID of 16 octets that `RegionMatchesUUID32` misreads.
-/

namespace Cbps.SdpParse

open List

open Service

variable {id : ℕ}

/-! ### Writings of a list -/

/-- The same element, or the same UUID in two of its forms. -/
def SameItem (e e' : DataElement) : Prop :=
  e = e' ∨ ((e.type = .uuid ∧ IsForm e.value) ∧ (e'.type = .uuid ∧ IsForm e'.value) ∧ fullUuid e.value = fullUuid e'.value)

/-- The same list, with its UUIDs in some forms. -/
def SameList (sections sections' : List Section) : Prop :=
  List.Forall₂ (fun s s' => List.Forall₂ SameItem s.items s'.items) sections sections'

/-- The code misreads no UUID of the list. -/
def WellRead (id : ℕ) (sections : List Section) : Prop :=
  ∀ s ∈ sections, ∀ e ∈ s.items, e.type = .uuid → IsForm e.value → ¬ Misread id e.value

/-- The region holds the list, and nothing else is in it. -/
structure Writes (mem : ℕ → UInt8) (p : Region) (sections : List Section) : Prop where
  small : p.Small
  octets : p.octets mem = listOctets sections
  tail : ∀ s ∈ sections, s.tail = []

/-- The octets of the value that `findServerChannel` finds. -/
def channelOctets (mem : ℕ → UInt8) (id : ℕ) (p value : Region) : Except Fault (Option (List UInt8)) :=
  (fun s => if s.result = some true then some (s.value.octets mem) else none) <$> findServerChannel mem id p value

/-- The octets of the value that `findProfileVersion` finds. -/
def versionOctets (mem : ℕ → UInt8) (id : ℕ) (record : Region) : Except Fault (Option (List UInt8)) :=
  Option.map (fun value => value.octets mem) <$> findProfileVersion mem id record

/-! ### What the searches see of the forms -/

theorem accepts_eq (hid : id < 4294967296) {e e' : DataElement} (h : SameItem e e')
    (hread : e.type = .uuid → IsForm e.value → ¬ Misread id e.value)
    (hread' : e'.type = .uuid → IsForm e'.value → ¬ Misread id e'.value) : accepts id e = accepts id e' := by
  obtain rfl | ⟨⟨htype, hform⟩, ⟨htype', hform'⟩, hsame⟩ := h
  · rfl
  · refine Bool.eq_iff_iff.mpr ?_
    rw [accepts, accepts, (codeMatches_iff hform hid).mpr (hread htype hform),
      (codeMatches_iff hform' hid).mpr (hread' htype' hform'), hsame]

/-- Both rows have the same parameter. -/
theorem parameter_congr {items items' : List DataElement}
    (h : List.Forall₂ (fun e e' => SameItem e e' ∧ accepts id e = accepts id e') items items') :
    (parameter id items).map (fun q => q.2.1) = (parameter id items').map fun q => q.2.1 := by
  induction h with
  | nil => rfl
  | @cons e e' es es' he hes ih =>
    rw [parameter.eq_def, parameter.eq_def id (e' :: es')]
    dsimp only
    rw [← he.2]
    split
    · cases hes with
      | nil => rfl
      | @cons x x' back back' hx hback =>
        obtain rfl | ⟨⟨htype, -⟩, ⟨htype', -⟩, -⟩ := hx.1
        · dsimp only
          split <;> rfl
        · simp [htype, htype']
    · rw [Option.map_map, Option.map_map]
      exact ih

section Congr

variable {sections sections' : List Section} (hid : id < 4294967296) (hsame : SameList sections sections')
  (hread : WellRead id sections) (hread' : WellRead id sections')

include hid hsame hread hread'

theorem forall₂_accepts : List.Forall₂ (fun items items' : List DataElement =>
    List.Forall₂ (fun e e' => SameItem e e' ∧ accepts id e = accepts id e') items items')
    (sections.map Section.items) (sections'.map Section.items) := by
  induction hsame with
  | nil => exact .nil
  | @cons s s' rest rest' hs _ ih =>
    refine .cons ?_ (ih (fun s hs => hread s (mem_cons_of_mem _ hs)) fun s hs => hread' s (mem_cons_of_mem _ hs))
    have hread := hread s mem_cons_self
    have hread' := hread' s' mem_cons_self
    generalize s.items = items at hs hread
    generalize s'.items = items' at hs hread'
    induction hs with
    | nil => exact .nil
    | @cons e e' es es' he _ ih =>
      exact .cons ⟨he, accepts_eq hid he (hread e mem_cons_self) (hread' e' mem_cons_self)⟩
        (ih (fun e he => hread e (mem_cons_of_mem _ he)) fun e he => hread' e (mem_cons_of_mem _ he))

end Congr

/-! ### The results of the searches -/

/-- The parameter that `findServerChannel` finds in a list. -/
def channel (id : ℕ) (lists : List (List DataElement)) : Option DataElement :=
  lists.findSome? fun items => (parameter id items).map fun q => q.2.1

theorem any_congr {items items' : List DataElement}
    (h : List.Forall₂ (fun e e' => SameItem e e' ∧ accepts id e = accepts id e') items items') :
    items.any (accepts id) = items'.any (accepts id) := by
  induction h with
  | nil => rfl
  | cons he _ ih => rw [any_cons, any_cons, he.2, ih]

section Results

variable {lists lists' : List (List DataElement)} (h : List.Forall₂ (fun items items' : List DataElement =>
  List.Forall₂ (fun e e' => SameItem e e' ∧ accepts id e = accepts id e') items items') lists lists')

include h

theorem channel_congr : channel id lists = channel id lists' := by
  induction h with
  | nil => rfl
  | cons hitems _ ih =>
    rw [channel, channel, List.findSome?_cons, List.findSome?_cons, parameter_congr hitems]
    split
    · rfl
    · exact ih

theorem version_congr : version id lists = version id lists' := by
  induction h with
  | nil => rfl
  | @cons items items' lists lists' hitems _ ih =>
    have hnil : items = [] ↔ items' = [] := by cases hitems <;> simp
    have hparameter := parameter_congr hitems
    rw [version, version, any_congr hitems]
    by_cases hcase : items = []
    · rw [if_pos hcase, if_pos (hnil.mp hcase)]
      exact ih
    · rw [if_neg hcase, if_neg fun h => hcase (hnil.mpr h)]
      split
      · generalize parameter id items = q at hparameter ⊢
        generalize parameter id items' = q' at hparameter ⊢
        rcases q with - | ⟨front, x, back⟩ <;> rcases q' with - | ⟨front', x', back'⟩
        · exact ih
        · cases hparameter
        · cases hparameter
        · exact hparameter
      · rfl

end Results

section Writes

variable {mem : ℕ → UInt8} {p : Region} {sections : List Section} (h : Writes mem p sections)

include h

theorem channelOctets_eq (id : ℕ) (value : Region) : channelOctets mem id p value =
    .ok ((channel id (sections.map Section.items)).map DataElement.value) := by
  have hends : ∀ s ∈ sections, s.Ends id := fun s hs => .inl (h.tail s hs)
  have hfuel : sections.length + 2 ≤ regionSize p + 2 := by
    rw [regionSize_eq mem h.small, h.octets]
    have := length_le_listOctets sections
    omega
  rcases hchannel : channel id (sections.map Section.items) with - | x
  · have hnone : ∀ s ∈ sections, parameter id s.items = none := by
      intro s hs
      exact Option.map_eq_none_iff.mp (List.findSome?_eq_none_iff.mp hchannel _ (mem_map_of_mem hs))
    obtain ⟨found, hfound, hresult⟩ := find_missing h.small h.octets hends hnone .nil value hfuel
    have hfalse : ¬ found.result = some true := by
      rw [hresult]
      exact fun h => by cases h
    rw [channelOctets, findServerChannel, hfound]
    exact congrArg Except.ok (if_neg hfalse)
  · obtain ⟨front, items, back, hlists, hitems, hfront⟩ := List.findSome?_eq_some_iff.mp hchannel
    obtain ⟨front, rest, rfl, rfl, hrest⟩ := map_eq_append_iff.mp hlists
    obtain ⟨s, back, rfl, rfl, rfl⟩ := map_eq_cons_iff.mp hrest
    obtain ⟨⟨first, y, last⟩, hparameter, rfl⟩ := Option.map_eq_some_iff.mp hitems
    have hoctets := h.octets
    have hnone : ∀ s ∈ front, parameter id s.items = none := fun s hs =>
      Option.map_eq_none_iff.mp (hfront _ (mem_map_of_mem hs))
    have hfuel' : front.length + 2 ≤ regionSize p + 2 := by
      rw [length_append] at hfuel
      omega
    rw [channelOctets, findServerChannel, find_found h.small hoctets
      (fun s hs => hends s (mem_append_left _ hs)) hnone hparameter .nil value hfuel']
    rw [listOctets_append, listOctets_cons] at hoctets
    have hvalue := octets_parameter (octets_rest hoctets) hparameter
    exact congrArg (fun l => Except.ok (some l)) hvalue

end Writes

/-! ### The forms of a UUID -/

/-- The searches find the same in two writings of a list in which no UUID is misread. -/
def FindsAlike (uuid : ℕ) : Prop :=
  (∀ mem mem' p p' sections sections', Writes mem p sections → Writes mem' p' sections' → SameList sections sections' →
    WellRead uuid sections → WellRead uuid sections' →
      ∀ value value', channelOctets mem uuid p value = channelOctets mem' uuid p' value') ∧
  ∀ mem mem' record record' sections sections', record.Small → record'.Small →
    HasList mem 0x0009 record sections → HasList mem' 0x0009 record' sections' →
    (∀ s ∈ sections, s.tail = []) → (∀ s ∈ sections', s.tail = []) → SameList sections sections' →
      WellRead uuid sections → WellRead uuid sections' → versionOctets mem uuid record = versionOctets mem' uuid record'

end Cbps.SdpParse
