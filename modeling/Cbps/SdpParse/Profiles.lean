import Cbps.SdpParse.Lists

/-!
# Profile versions

`SdpParseGetProfileVersion` looks for a service class in the profile descriptor list, a list of pairs of a UUID and a
version. It gives up at the first section without an element that is accepted, where it should go on to the next one:
`getProfileVersion_iff` says when it returns the version all the same.
-/

namespace Cbps.SdpParse

open List

open Service

variable {mem : ℕ → UInt8} {record : Region}

/-! ### The list in its record -/

/-- The record has one attribute with the number, and its value is the list. -/
def HasList (mem : ℕ → UInt8) (number : ℕ) (record : Region) (sections : List Section) : Prop :=
  ∃ front a back, record.octets mem = Service.record (front ++ a :: back) ∧
    (∀ b ∈ front ++ back, b.number ≠ number) ∧ a.number = number ∧ a.value.type = .sequence ∧
      a.value.value = listOctets sections

/-- The list is found, and no second one. -/
structure Found (mem : ℕ → UInt8) (number : ℕ) (sections : List Section) (next : Next) : Prop where
  isSequence : next.type = .sequence
  small : next.value.Small
  octets : next.value.octets mem = listOctets sections
  last : ∃ next', serviceFindAttribute mem number next = .ok (false, next')

/-- There is only one first place with a property. -/
theorem split_unique {α : Type} {P : α → Prop} {front back front' back' : List α} {a a' : α}
    (h : front ++ a :: back = front' ++ a' :: back') (hfront : ∀ b ∈ front, ¬ P b) (hfront' : ∀ b ∈ front', ¬ P b)
    (ha : P a) (ha' : P a') : front = front' ∧ a = a' ∧ back = back' := by
  induction front generalizing front' with
  | nil =>
    rcases front' with - | ⟨b, front'⟩
    · obtain ⟨rfl, rfl⟩ := List.cons.inj h
      exact ⟨rfl, rfl, rfl⟩
    · obtain ⟨rfl, -⟩ := List.cons.inj h
      exact absurd ha (hfront' a mem_cons_self)
  | cons c front ih =>
    rcases front' with - | ⟨b, front'⟩
    · obtain ⟨rfl, -⟩ := List.cons.inj h
      exact absurd ha' (hfront c mem_cons_self)
    · obtain ⟨rfl, htail⟩ := List.cons.inj h
      obtain ⟨rfl, hrest⟩ := ih htail (fun b hb => hfront b (mem_cons_of_mem _ hb))
        fun b hb => hfront' b (mem_cons_of_mem _ hb)
      exact ⟨rfl, hrest⟩

variable {front back : List Attribute}

/-- The first attribute with a number is found. -/
theorem find_first (hsmall : record.Small) {number : ℕ} {a : Attribute}
    (hoctets : record.octets mem = Service.record (front ++ a :: back)) (hfront : ∀ b ∈ front, b.number ≠ number)
    (ha : a.number = number) : ∃ next, serviceFindAttribute mem number (start record) = .ok (true, next) ∧
      next.type = a.value.type ∧
      next.value = a.value.region (record.skip (Service.record front ++ a.id.octets).length).begin ∧
      next.r.octets mem = Service.record back ∧ next.r.Small := by
  obtain ⟨⟨ok, next⟩, hfind, hpassed⟩ := @find_passes mem number (start record) hsmall
  cases ok with
  | false =>
    have hmissed := hpassed.missed _ rfl hoctets a (by simp)
    exact absurd ha (of_decide_eq_false hmissed)
  | true =>
    obtain ⟨front', a', back', hattrs, hfront', ha', hbegin, hplace⟩ := hpassed.found _ rfl hoctets
    obtain ⟨rfl, rfl, rfl⟩ := @split_unique _ (fun b : Attribute => b.number = number) _ _ _ _ _ _ hattrs
      hfront (fun b hb => of_decide_eq_false (hfront' b hb)) ha (of_decide_eq_true ha')
    refine ⟨next, hfind, congrArg (fun place => place.2.1) hplace, ?_, ?_, ?_⟩
    · rw [length_append, Region.skip, ← Nat.add_assoc]
      exact congrArg (fun place => place.2.2) hplace
    · have hall : record.octets mem = Service.record ((front ++ [a]) ++ back) := by rw [hoctets, append_cons]
      exact octets_behind hall hpassed.end_eq hbegin
    · obtain ⟨hle, hle'⟩ := hpassed.le
      have hend : next.r.end = record.end := hpassed.end_eq
      have hsize := hsmall.2
      dsimp only [start] at hle hle'
      constructor <;> omega

/-- The element of an attribute stands in its record. -/
theorem value_in {a : Attribute}
    (hoctets : record.octets mem = Service.record (front ++ a :: back)) :
    a.value.octets <+: (record.skip (Service.record front ++ a.id.octets).length).octets mem ∧
      (record.Small → (record.skip (Service.record front ++ a.id.octets).length).Small) := by
  have hsplit : record.octets mem =
      (Service.record front ++ a.id.octets) ++ (a.value.octets ++ Service.record back) := by
    rw [hoctets, record_append, record_cons, Attribute.octets, append_assoc, append_assoc]
  constructor
  · rw [octets_rest hsplit]
    exact prefix_append _ _
  · exact fun hsmall => small_rest hsmall hsplit

variable {sections : List Section}

theorem find_list (hsmall : record.Small) {number : ℕ}
    (h : HasList mem number record sections) : ∃ next, serviceFindAttribute mem number (start record) = .ok (true, next) ∧
      Found mem number sections next := by
  obtain ⟨front, a, back, hoctets, hothers, ha, htype, hvalue⟩ := h
  obtain ⟨next, hfind, htype', hat, hrest, hsmall'⟩ := find_first hsmall hoctets
    (fun b hb => hothers b (mem_append_left _ hb)) ha
  obtain ⟨hin, hsmall''⟩ := value_in hoctets
  refine ⟨next, hfind, ⟨htype'.trans htype, hat ▸ small_region (hsmall'' hsmall) hin, ?_, ?_⟩⟩
  · rw [hat, octets_region hin, hvalue]
  · obtain ⟨⟨ok, next'⟩, hfind', hpassed'⟩ := @find_passes mem number next hsmall'
    cases ok with
    | false => exact ⟨next', hfind'⟩
    | true =>
      obtain ⟨front', a', back', rfl, -, ha', -⟩ := hpassed'.found _ rfl hrest
      exact absurd (of_decide_eq_true ha') (hothers a' (by simp))

/-! ### The search in its record -/

/-- The outer loop of `findProfileVersion` returns what the inner loop finds in the list. -/
theorem findProfileVersion_eq (hsmall : record.Small) (h : HasList mem 0x0009 record sections)
    (htail : ∀ s ∈ sections, s.tail = []) (serviceClass : ℕ) :
    ∃ found, findProfileVersion mem serviceClass record = .ok found ∧
      (found.map fun value => value.octets mem) =
        (version serviceClass (sections.map Section.items)).map DataElement.value := by
  obtain ⟨next, hfind, hfound⟩ := find_list hsmall h
  obtain ⟨next', hfind'⟩ := hfound.last
  have hfuel : sections.length + 2 ≤ regionSize next.value + 2 := by
    rw [regionSize_eq mem hfound.small, hfound.octets]
    have := length_le_listOctets sections
    omega
  obtain ⟨s, hloop, hs⟩ :=
    @find_version _ serviceClass _ hfound.small _ hfound.octets htail next.type ⟨0, 0⟩ _ hfuel
  have hturn : profileTurn mem serviceClass ⟨start record, ⟨0, 0⟩, none⟩ = .ok (some ⟨next, s.value, s.result⟩) := by
    rw [profileTurn]
    dsimp only
    rw [hfind, Lib.ok_bind]
    dsimp only
    rw [if_pos rfl, if_pos hfound.isSequence, hloop]
    rfl
  -- the record is not empty, so that there are turns enough for a second search
  obtain ⟨n, hn⟩ : ∃ n, regionSize record + 2 = n + 3 := by
    obtain ⟨front, a, back, hoctets, -⟩ := h
    have hpos := length_octets_pos a.id
    have hlen := regionSize_eq mem hsmall
    rw [hoctets, record_append, record_cons, Attribute.octets, length_append, length_append,
      length_append] at hlen
    exact ⟨regionSize record - 1, by omega⟩
  rw [findProfileVersion, hn, Lib.loop_turn hturn]
  rcases hresult : s.result with - | result
  · have hlast : profileTurn mem serviceClass ⟨next, s.value, none⟩ = .ok (some ⟨next', s.value, some false⟩) := by
      rw [profileTurn]
      dsimp only
      rw [hfind']
      rfl
    rw [Lib.loop_turn hlast, Lib.loop_stop rfl]
    refine ⟨none, rfl, ?_⟩
    rcases hversion : version serviceClass (sections.map Section.items) with - | x
    · rfl
    · rw [(hs.found x hversion).1] at hresult
      cases hresult
  · rw [Lib.loop_stop rfl, Lib.ok_bind]
    dsimp only
    rcases hversion : version serviceClass (sections.map Section.items) with - | x
    · rw [if_neg (hresult ▸ hs.missed hversion)]
      exact ⟨none, rfl, rfl⟩
    · obtain ⟨htrue, hvalue⟩ := hs.found x hversion
      rw [if_pos (hresult.symm.trans htrue)]
      exact ⟨some s.value, rfl, congrArg some hvalue⟩

/-! ### Profiles -/

/-- A pair of a UUID and a version. -/
structure ProfileSection extends Section where
  uuid : DataElement
  version : DataElement
  items_eq : items = [uuid, version]
  tail_eq : tail = []
  isUuid : uuid.type = .uuid ∧ IsForm uuid.value
  isVersion : version.type = .unsignedInteger ∧ version.value.length = 2

namespace ProfileSection

/-- The version of the profile. -/
def number (q : ProfileSection) : ℕ := bigEndian q.version.value

/-- The section is the one of the service class. -/
def Names (serviceClass : ℕ) (q : ProfileSection) : Prop := fullUuid q.uuid.value = expansion serviceClass

instance (serviceClass : ℕ) : DecidablePred (Names serviceClass) := fun _ => inferInstanceAs (Decidable (_ = _))

end ProfileSection

/-- What the call is to return: the version of the first section of the service class. -/
def expected (serviceClass : ℕ) (profiles : List ProfileSection) : Option ℕ :=
  (profiles.find? fun q => q.Names serviceClass).map ProfileSection.number

/-- The code gets to a section that it takes for the service class, with a version: the sections in front of it are not
taken for it, but their versions, which are compared as well, are the number of the class. -/
def Reaches (serviceClass : ℕ) (profiles : List ProfileSection) (n : ℕ) : Prop :=
  ∃ front q back, profiles = front ++ q :: back ∧ accepts serviceClass q.uuid = true ∧ q.number = n ∧
    ∀ b ∈ front, accepts serviceClass b.uuid = false ∧ b.number = serviceClass

variable {serviceClass n : ℕ}

theorem reaches_nil : ¬ Reaches serviceClass [] n := by
  rintro ⟨front, q, back, h, -⟩
  cases front <;> cases h

variable {profiles : List ProfileSection}

theorem reaches_cons {q : ProfileSection} :
    Reaches serviceClass (q :: profiles) n ↔ accepts serviceClass q.uuid = true ∧ q.number = n ∨
      (accepts serviceClass q.uuid = false ∧ q.number = serviceClass) ∧ Reaches serviceClass profiles n := by
  constructor
  · rintro ⟨front, q', back, h, htaken, hn, hfront⟩
    rcases front with - | ⟨b, front⟩
    · obtain ⟨rfl, rfl⟩ := List.cons.inj h
      exact .inl ⟨htaken, hn⟩
    · obtain ⟨rfl, rfl⟩ := List.cons.inj h
      exact .inr ⟨hfront q mem_cons_self, front, q', back, rfl, htaken, hn,
        fun b hb => hfront b (mem_cons_of_mem _ hb)⟩
  · rintro (⟨htaken, hn⟩ | ⟨hq, front, q', back, rfl, htaken, hn, hfront⟩)
    · exact ⟨[], q, profiles, rfl, htaken, hn, fun b hb => (not_mem_nil hb).elim⟩
    · refine ⟨q :: front, q', back, rfl, htaken, hn, fun b hb => ?_⟩
      rcases mem_cons.mp hb with rfl | hb
      · exact hq
      · exact hfront b hb

/-- A version is accepted if it is the number of the class. -/
theorem accepts_version {serviceClass : ℕ} (q : ProfileSection) :
    accepts serviceClass q.version = true ↔ q.number = serviceClass := by
  have hlen := q.isVersion.2
  have hlt := bigEndian_lt q.version.value
  rw [hlen] at hlt
  rw [accepts, codeMatches, Nat.mod_eq_of_lt (by omega), ProfileSection.number, hlen]
  simp

/-- What the inner loop finds in a list of profiles. -/
theorem version_eq_some (profiles : List ProfileSection) :
    (version serviceClass (profiles.map fun q => q.items)).map (fun x => bigEndian x.value) = some n ↔
      Reaches serviceClass profiles n := by
  induction profiles with
  | nil => exact iff_of_false (fun h => by cases h) reaches_nil
  | cons q profiles ih =>
    rw [reaches_cons, map_cons, q.items_eq]
    cases huuid : accepts serviceClass q.uuid with
    | true =>
      have hparameter := @parameter_of_found serviceClass [] _ (fun b hb => (not_mem_nil hb).elim) huuid q.version []
      have hversion := @version_found serviceClass (profiles.map fun q => q.items) [] [q.version] _ huuid
      rw [nil_append] at hparameter hversion
      rw [hversion, hparameter, if_pos q.isVersion.1]
      simp [ProfileSection.number]
    | false =>
      have hfront : ∀ b ∈ [q.uuid], accepts serviceClass b = false := by
        intro b hb
        rw [mem_singleton.mp hb, huuid]
      by_cases hnumber : q.number = serviceClass
      · -- the version is taken for the UUID, and no parameter follows
        have hversion := (accepts_version q).mpr hnumber
        have hnone := parameter_of_last hfront hversion
        have hpassed := @version_found serviceClass (profiles.map fun q => q.items) [q.uuid] [] _ hversion
        rw [cons_append, nil_append] at hpassed
        rw [cons_append, nil_append] at hnone
        rw [hpassed, hnone]
        simp [hnumber, ih]
      · have hversion : accepts serviceClass q.version = false :=
          eq_false_of_ne_true fun h => hnumber ((accepts_version q).mp h)
        have hmissing : ∀ b ∈ [q.uuid, q.version], accepts serviceClass b = false := by
          intro b hb
          rcases mem_cons.mp hb with rfl | hb
          · exact huuid
          · rw [mem_singleton.mp hb, hversion]
        rw [version_missing _ (cons_ne_nil _ _) hmissing]
        simp [hnumber]

/-- What is found has two octets. -/
theorem length_version {serviceClass : ℕ} {x : DataElement}
    (h : version serviceClass (profiles.map fun q => q.items) = some x) : x.value.length = 2 := by
  obtain ⟨items, hitems, hx, htype⟩ := version_mem h
  obtain ⟨q, -, rfl⟩ := mem_map.mp hitems
  rw [q.items_eq] at hx
  rcases mem_cons.mp hx with rfl | hx
  · rw [q.isUuid.1] at htype
    cases htype
  · rw [mem_singleton.mp hx]
    exact q.isVersion.2

/-! ### The call -/

/-- **The promise** of `SdpParseGetProfileVersion`. -/
def GetsVersion (mem : ℕ → UInt8) (serviceClass : ℕ) (record : Region) (profiles : List ProfileSection) : Prop :=
  sdpParseGetProfileVersion mem serviceClass record = .ok (expected serviceClass profiles)

theorem sdpParseGetProfileVersion_eq (hsmall : record.Small)
    (h : HasList mem 0x0009 record (profiles.map ProfileSection.toSection)) (serviceClass : ℕ) :
    ∃ result, sdpParseGetProfileVersion mem serviceClass record = .ok result ∧
      ∀ n, result = some n ↔ Reaches serviceClass profiles n := by
  have htail : ∀ s ∈ profiles.map ProfileSection.toSection, s.tail = [] := by
    intro s hs
    obtain ⟨q, -, rfl⟩ := mem_map.mp hs
    exact q.tail_eq
  obtain ⟨found, hfind, hvalue⟩ := findProfileVersion_eq hsmall h htail serviceClass
  rw [map_map] at hvalue
  refine ⟨_, by rw [sdpParseGetProfileVersion, hfind]; rfl, fun n => ?_⟩
  have hitems : profiles.map (Section.items ∘ ProfileSection.toSection) = profiles.map fun q => q.items := rfl
  rw [← version_eq_some]
  rw [hitems] at hvalue
  rcases hversion : version serviceClass (profiles.map fun q => q.items) with - | x
  · rw [hversion, Option.map_none, Option.map_eq_none_iff] at hvalue
    rw [hvalue, hversion]
    rfl
  · rw [hversion] at hvalue
    obtain ⟨value, rfl, hoctets⟩ := Option.map_eq_some_iff.mp hvalue
    have hread : regionReadUnsigned mem value % 65536 = bigEndian x.value := by
      have hlt := bigEndian_lt x.value
      rw [length_version hversion] at hlt
      rw [regionReadUnsigned_eq, hoctets]
      omega
    rw [Option.map_some, hread, hversion]
    rfl

/-- The version is returned exactly if the code gets to a section with this version that it takes for the service class;
without a section of the class it must not get to one. -/
theorem getProfileVersion_iff (mem : ℕ → UInt8) (serviceClass : ℕ) (record : Region) (profiles : List ProfileSection)
    (hsmall : record.Small) (h : HasList mem 0x0009 record (profiles.map ProfileSection.toSection)) :
    GetsVersion mem serviceClass record profiles ↔
      match expected serviceClass profiles with
      | some n => Reaches serviceClass profiles n
      | none => ∀ n, ¬ Reaches serviceClass profiles n := by
  obtain ⟨result, hresult, hreaches⟩ := sdpParseGetProfileVersion_eq hsmall h serviceClass
  rw [GetsVersion, hresult, Except.ok.injEq]
  rcases expected serviceClass profiles with - | n
  · refine ⟨fun h n hn => ?_, fun h => Option.eq_none_iff_forall_ne_some.mpr fun n hn => h n ((hreaches n).mp hn)⟩
    rw [h] at hreaches
    cases (hreaches n).mpr hn
  · exact hreaches n

/-- A pair of a short UUID and a version. -/
def shortProfile (u u' v v' : UInt8) : ProfileSection where
  element := ⟨0x35, [0x06], [0x19, u, u', 0x09, v, v'], rfl, rfl⟩
  items := [⟨0x19, [], [u, u'], rfl, rfl⟩, ⟨0x09, [], [v, v'], rfl, rfl⟩]
  tail := []
  isSequence := show serviceDataType ((0x35 : UInt8).toNat / 8) = .sequence by decide
  value_eq := rfl
  ends := fun e he => absurd (prefix_nil.mp he) (cons_ne_nil _ _)
  uuid := ⟨0x19, [], [u, u'], rfl, rfl⟩
  version := ⟨0x09, [], [v, v'], rfl, rfl⟩
  items_eq := rfl
  tail_eq := rfl
  isUuid := ⟨show serviceDataType ((0x19 : UInt8).toNat / 8) = .uuid by decide, .inl rfl⟩
  isVersion := ⟨show serviceDataType ((0x09 : UInt8).toNat / 8) = .unsignedInteger by decide, rfl⟩

/-- A record of A2DP 1.2 and AVRCP 1.3, which has no other attribute than its list of profiles. -/
def twoProfiles (i : ℕ) : UInt8 :=
  [0x09, 0x00, 0x09, 0x35, 0x10, 0x35, 0x06, 0x19, 0x11, 0x0D, 0x09, 0x01, 0x02,
    0x35, 0x06, 0x19, 0x11, 0x0E, 0x09, 0x01, 0x03].getD i 0

theorem hasList_twoProfiles : HasList twoProfiles 0x0009 ⟨0, 21⟩
    ([shortProfile 0x11 0x0D 0x01 0x02, shortProfile 0x11 0x0E 0x01 0x03].map ProfileSection.toSection) :=
  ⟨[], ⟨⟨0x09, [], [0x00, 0x09], rfl, rfl⟩, ⟨0x35, [0x10], [0x35, 0x06, 0x19, 0x11, 0x0D, 0x09, 0x01, 0x02,
    0x35, 0x06, 0x19, 0x11, 0x0E, 0x09, 0x01, 0x03], rfl, rfl⟩, by decide, rfl⟩, [], by decide,
    fun b hb => (not_mem_nil hb).elim, by decide, by decide, by decide⟩

/-- The first profile is found. -/
theorem getsVersion_first : GetsVersion twoProfiles 0x110D ⟨0, 21⟩
    [shortProfile 0x11 0x0D 0x01 0x02, shortProfile 0x11 0x0E 0x01 0x03] := by
  refine (getProfileVersion_iff twoProfiles 0x110D ⟨0, 21⟩ _ ⟨by decide, by decide⟩ hasList_twoProfiles).mpr ?_
  have hsome : expected 0x110D [shortProfile 0x11 0x0D 0x01 0x02, shortProfile 0x11 0x0E 0x01 0x03] = some 0x0102 := by
    decide
  rw [hsome]
  exact ⟨[], shortProfile 0x11 0x0D 0x01 0x02, _, rfl, by decide, by decide, fun b hb => (not_mem_nil hb).elim⟩

/-- The second one is not. -/
theorem not_getsVersion_second : ¬ GetsVersion twoProfiles 0x110E ⟨0, 21⟩
    [shortProfile 0x11 0x0D 0x01 0x02, shortProfile 0x11 0x0E 0x01 0x03] := by
  intro h
  have hnone : sdpParseGetProfileVersion twoProfiles 0x110E ⟨0, 21⟩ = .ok none := by decide
  have hsome : expected 0x110E [shortProfile 0x11 0x0D 0x01 0x02, shortProfile 0x11 0x0E 0x01 0x03] = some 0x0103 := by
    decide
  rw [GetsVersion, hnone, hsome] at h
  cases h

end Cbps.SdpParse
