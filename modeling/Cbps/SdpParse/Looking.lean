import Cbps.SdpParse.Search

/-!
# Where the searches look

On every record the searches end, look at no octet outside of it, and a value that they find lies inside of the list. They
look no further than to this value, and not at its octets.
-/

namespace Cbps.SdpParse

open Service
open Lib (Reads Yields)

variable {mem : ℕ → UInt8} {lo hi : ℕ}

/-! ### Elements of a section -/

/-- The loop over the elements of a section has got to some place behind `lo`, and the last value lies in front of it. -/
structure Walk.Within (lo hi : ℕ) (w : Walk) : Prop where
  value : lo ≤ w.value.begin ∧ w.value.begin ≤ w.value.end ∧ w.value.end ≤ w.protocol.begin
  protocol : w.protocol.begin ≤ hi ∧ w.protocol.end = hi

theorem small_of_within {r : Region} (hsize : hi - lo ≤ 65535) (hlo : lo ≤ r.begin) (hhi : r.begin ≤ hi)
    (hend : r.end = hi) : r.Small := by
  constructor <;> omega

variable {w : Walk}

theorem Walk.Within.small (hsize : hi - lo ≤ 65535) (h : w.Within lo hi) : w.protocol.Small := by
  have hvalue := h.value
  exact small_of_within hsize (by omega) h.protocol.1 h.protocol.2

/-- One element more. -/
theorem Walk.Within.get (hsize : hi - lo ≤ 65535) (h : w.Within lo hi) {got : Got}
    (hgot : serviceGetValue mem w.protocol w.type w.value = .ok got) :
    (⟨got.r, got.type, got.out, !got.result⟩ : Walk).Within lo hi ∧
      w.protocol.begin ≤ got.r.begin ∧ (got.result = true → w.protocol.begin < got.r.begin) := by
  have hvalue := h.value
  have hprotocol := h.protocol
  obtain ⟨hend, hle, hle', htrue⟩ := getValue_inside (h.small hsize) hgot
  refine ⟨⟨?_, by constructor <;> (dsimp only; omega)⟩, hle, fun hresult => (htrue hresult).1⟩
  obtain ⟨-, hout⟩ | ⟨hresult, hout⟩ := getValue_out hgot
  · rw [hout]
    dsimp only
    omega
  · have hbetween := htrue hresult
    dsimp only
    omega

/-- How many turns the loop over the elements takes at most. -/
def walkRank (w : Walk) : ℕ := if w.reachedEnd then 0 else w.protocol.end - w.protocol.begin + 1

/-- A turn of the loop over the elements looks in front of the place that it gets to. -/
theorem walkTurn_reads (mem : ℕ → UInt8) (id : ℕ) (hsize : hi - lo ≤ 65535) (h : w.Within lo hi) :
    Reads (fun mem => walkTurn mem id w) mem lo w.protocol.begin none ∨
      ∃ w', Reads (fun mem => walkTurn mem id w) mem lo w'.protocol.begin (some w') ∧ w'.Within lo hi ∧
        walkRank w' < walkRank w ∧ w.protocol.begin ≤ w'.protocol.begin := by
  obtain ⟨hvalue, hvalue', hvalue''⟩ := h.value
  have hprotocol := h.protocol
  have hstop_eq : ∀ mem', (∀ i, lo ≤ i → i < w.protocol.begin → mem' i = mem i) →
      (w.reachedEnd || regionMatchesUuid32 mem' w.value id) = (w.reachedEnd || regionMatchesUuid32 mem w.value id) := by
    intro mem' hmem
    have hsmall : w.value.Small := by
      constructor <;> omega
    rw [regionMatchesUuid32_eq hsmall, regionMatchesUuid32_eq hsmall,
      octets_congr fun i hi hi' => hmem i (Nat.le_trans hvalue hi) (Nat.lt_of_lt_of_le hi' hvalue'')]
  by_cases hstop : (w.reachedEnd || regionMatchesUuid32 mem w.value id) = true
  · left
    intro mem' hmem
    dsimp only
    rw [walkTurn, if_pos ((hstop_eq mem' hmem).trans hstop)]
    rfl
  · right
    obtain ⟨got, hgot⟩ := getValue_reads mem (h.small hsize) w.type w.value
    obtain ⟨hwithin, hnext, hlt⟩ := h.get hsize hgot.eq
    obtain ⟨-, hplace⟩ := place_le (h.small hsize) hgot.eq
    refine ⟨⟨got.r, got.type, got.out, !got.result⟩, ?_, hwithin, ?_, hnext⟩
    · intro mem' hmem
      dsimp only
      have hgot' := hgot mem' fun i hi hi' => hmem i (by omega) (Nat.lt_of_lt_of_le hi' hplace)
      dsimp only at hgot'
      rw [walkTurn, hstop_eq mem' fun i hi hi' => hmem i hi (Nat.lt_of_lt_of_le hi' hnext), if_neg hstop, hgot']
      rfl
    · have hopen : w.reachedEnd = false := (Bool.or_eq_false_iff.mp (eq_false_of_ne_true hstop)).1
      have hprotocol' := hwithin.protocol
      rw [walkRank, walkRank, hopen]
      cases hresult : got.result with
      | false => exact Nat.succ_pos _
      | true =>
        have := hlt hresult
        dsimp only at hprotocol'
        change got.r.end - got.r.begin + 1 < w.protocol.end - w.protocol.begin + 1
        omega

/-- The loop over the elements of a section ends inside of the section. -/
theorem walk_reads (mem : ℕ → UInt8) (id : ℕ) (hsize : hi - lo ≤ 65535) (h : w.Within lo hi) :
    ∃ w', Reads (fun mem => walk mem id w) mem lo w'.protocol.begin w' ∧ w'.Within lo hi ∧
      w.protocol.begin ≤ w'.protocol.begin := by
  have hfuel : walkRank w < regionSize w.protocol + 2 := by
    have hprotocol := h.protocol
    rw [regionSize_eq mem (h.small hsize), length_octets, walkRank]
    split <;> omega
  exact @Lib.loop_reads _ _ _ Fault.endless (fun mem => walkTurn mem id) mem lo (Walk.Within lo hi) walkRank
    (fun w => w.protocol.begin) (fun _ hw => walkTurn_reads mem id hsize hw) _ _ h hfuel

/-! ### Sections -/

variable {type : ServiceDataType}

/-- A section lies inside of its list. -/
theorem section_within {protocols : Region} {got : Got} (hsize : hi - lo ≤ 65535)
    (hbegin : lo ≤ protocols.begin ∧ protocols.begin ≤ hi) (hend : protocols.end = hi)
    (hgot : serviceGetValue mem protocols type ⟨0, 0⟩ = .ok got) (hresult : got.result = true) :
    protocols.begin < got.out.begin ∧ got.out.begin ≤ got.out.end ∧ got.out.end = got.r.begin ∧ got.r.begin ≤ hi ∧
      got.r.end = hi := by
  obtain ⟨hend', -, hle, htrue⟩ := getValue_inside (small_of_within hsize hbegin.1 hbegin.2 hend) hgot
  obtain ⟨-, hout, hout', -⟩ := htrue hresult
  obtain ⟨hfalse, -⟩ | ⟨-, hat⟩ := getValue_out hgot
  · rw [hresult] at hfalse
    cases hfalse
  · exact ⟨hout, hout', hat, hend ▸ hle, hend'.trans hend⟩

/-- The first element of a section lies inside of it. -/
theorem first_within {r out : Region} {first : Got} (hsize : r.end - r.begin ≤ 65535)
    (hle : r.begin ≤ r.end) (hfirst : serviceGetValue mem r type out = .ok first) (hresult : first.result = true) :
    (⟨first.r, first.type, first.out, false⟩ : Walk).Within r.begin r.end := by
  obtain ⟨hend, -, hle', htrue⟩ := getValue_inside ⟨hle, hsize⟩ hfirst
  obtain ⟨-, hout, hout', -⟩ := htrue hresult
  obtain ⟨hfalse, -⟩ | ⟨-, hat⟩ := getValue_out hfirst
  · rw [hresult] at hfalse
    cases hfalse
  · exact ⟨⟨hout.le, hout', hat.le⟩, hle', hend⟩

/-- A search has got to some place behind `lo`; a value that it has found lies in front of this place. -/
structure Search.Within (lo hi : ℕ) (s : Search) : Prop where
  protocols : lo ≤ s.protocols.begin ∧ s.protocols.begin ≤ hi ∧ s.protocols.end = hi
  found : s.result = some true → lo < s.value.begin ∧ s.value.begin ≤ s.value.end ∧
    s.value.end ≤ s.protocols.begin

/-- How many turns a loop over sections takes at most. -/
def searchRank (s : Search) : ℕ :=
  match s.result with
  | some _ => 0
  | none => s.protocols.end - s.protocols.begin + 1

/-- How far a search has looked. -/
def searchPlace (s : Search) : ℕ := if s.result = some true then s.value.begin else s.protocols.begin

/-- How far a search has looked when it is over. -/
def searchLast (s : Search) : ℕ := if s.result = some true then s.value.begin else s.protocols.end

/-- One section more. -/
structure Search.Next (lo hi : ℕ) (s s' : Search) : Prop extends s'.Within lo hi where
  rank : searchRank s' < searchRank s
  place : searchPlace s ≤ searchPlace s'

theorem Search.Within.place_le {s : Search} (h : s.Within lo hi) : searchPlace s ≤ searchLast s := by
  rw [searchPlace, searchLast]
  split
  · exact Nat.le_refl _
  · exact h.protocols.2.2 ▸ h.protocols.2.1

/-- A turn of a loop over sections: `ended` is what it does at the end of the list, and `more` what it does in a section
where the loop over the elements has stopped. -/
def sectionTurn (mem : ℕ → UInt8) (id : ℕ) (ended : Got → Option Search)
    (more : Region → Walk → Except Fault (Option Search)) (s : Search) : Except Fault (Option Search) := do
  match s.result with
  | some _ => return none
  | none =>
    let got ← serviceGetValue mem s.protocols s.type ⟨0, 0⟩
    if got.result then
      let first ← serviceGetValue mem got.out got.type s.value
      if first.result then
        let w ← walk mem id ⟨first.r, first.type, first.out, false⟩
        more got.r w
      else return some ⟨got.r, first.type, first.out, none⟩
    else return ended got

/-- The element behind the one that has been accepted. -/
def lastTurn (mem : ℕ → UInt8) (r : Region) (w : Walk) : Except Fault (Option Search) := do
  let last ← serviceGetValue mem w.protocol w.type w.value
  return some ⟨r, last.type, last.out, if last.result ∧ last.type = .unsignedInteger then some true else none⟩

theorem channelTurn_eq (mem : ℕ → UInt8) (id : ℕ) (s : Search) : channelTurn mem id s =
    sectionTurn mem id (fun got => some ⟨got.r, got.type, s.value, some false⟩)
      (fun r w => if w.value.end ≠ w.protocol.end then lastTurn mem r w else return some ⟨r, w.type, w.value, none⟩) s := by
  obtain ⟨protocols, type, value, _ | result⟩ := s <;> rfl

theorem versionTurn_eq (mem : ℕ → UInt8) (id : ℕ) (s : Search) : versionTurn mem id s =
    sectionTurn mem id (fun _ => none)
      (fun r w => if w.reachedEnd then return some ⟨r, w.type, w.value, some false⟩ else lastTurn mem r w) s := by
  obtain ⟨protocols, type, value, _ | result⟩ := s <;> rfl

/-- What is done in a section: it looks no further than to the value that it finds in the section, `lo`, …, `hi - 1`. -/
def MoreReads (mem : ℕ → UInt8) (more : (ℕ → UInt8) → Region → Walk → Except Fault (Option Search)) : Prop :=
  ∀ {lo hi : ℕ} {r : Region} {w : Walk}, hi - lo ≤ 65535 → w.Within lo hi → r.begin = hi →
    ∃ s', Reads (fun mem => more mem r w) mem lo (searchPlace s') (some s') ∧ s'.protocols = r ∧
      w.protocol.begin ≤ searchPlace s' ∧
      (s'.result = some true → lo ≤ s'.value.begin ∧ s'.value.begin ≤ s'.value.end ∧ s'.value.end ≤ hi)

theorem lastTurn_reads (mem : ℕ → UInt8) : MoreReads mem lastTurn := by
  intro lo hi r w hsize h hr
  obtain ⟨last, hlast⟩ := getValue_reads mem (h.small hsize) w.type w.value
  obtain ⟨hwithin, hnext, -⟩ := h.get hsize hlast.eq
  obtain ⟨hplace, hplace'⟩ := place_le (h.small hsize) hlast.eq
  obtain ⟨hvalue, hvalue', hvalue''⟩ := hwithin.value
  have hprotocol := hwithin.protocol
  have hlo := h.value
  dsimp only at hvalue hvalue' hvalue'' hprotocol
  have hread : Reads (fun mem => serviceGetValue mem w.protocol w.type w.value) mem lo last.place last :=
    hlast.mono (by omega) (Nat.le_refl _)
  by_cases hfound : last.result = true ∧ last.type = .unsignedInteger
  · refine ⟨⟨r, last.type, last.out, some true⟩, ?_, rfl, ?_, fun _ => ⟨hvalue, hvalue', ?_⟩⟩
    · have hat : last.place = last.out.begin := if_pos hfound.1
      refine (hread.mono (Nat.le_refl _) (Nat.le_of_eq hat)).bind ?_
      intro mem' _
      dsimp only
      rw [if_pos hfound]
      rfl
    · have hat : last.place = last.out.begin := if_pos hfound.1
      change w.protocol.begin ≤ last.out.begin
      omega
    · dsimp only
      omega
  · refine ⟨⟨r, last.type, last.out, none⟩, ?_, rfl, ?_, (fun h => by cases h)⟩
    · refine (hread.mono (Nat.le_refl _) ?_).bind ?_
      · change last.place ≤ r.begin
        omega
      · intro mem' _
        dsimp only
        rw [if_neg hfound]
        rfl
    · change w.protocol.begin ≤ r.begin
      omega

/-- A turn of a loop over sections looks in front of the place that it gets to. -/
theorem sectionTurn_reads (mem : ℕ → UInt8) (id : ℕ) {ended : Got → Option Search}
    {more : (ℕ → UInt8) → Region → Walk → Except Fault (Option Search)} (hmore : MoreReads mem more)
    (hended : ∀ got, ended got = none ∨ ∃ s', ended got = some s' ∧ s'.protocols = got.r ∧ s'.result = some false)
    {s : Search} (hsize : hi - lo ≤ 65535) (h : s.Within lo hi) :
    (Reads (fun mem => sectionTurn mem id ended (more mem) s) mem lo (searchLast s) none ∧ searchPlace s ≤ searchLast s) ∨
      ∃ s', Reads (fun mem => sectionTurn mem id ended (more mem) s) mem lo (searchPlace s') (some s') ∧
        s.Next lo hi s' := by
  obtain ⟨protocols, type, value, result⟩ := s
  rcases result with - | result
  · obtain ⟨hlo, hhi, hend⟩ := h.protocols
    dsimp only at hlo hhi hend
    have hsmall := small_of_within hsize hlo hhi hend
    obtain ⟨got, hgot⟩ := getValue_reads mem hsmall type (⟨0, 0⟩ : Region)
    obtain ⟨hend', hle, hle', -⟩ := getValue_inside hsmall hgot.eq
    obtain ⟨-, hplace⟩ := place_le hsmall hgot.eq
    by_cases hresult : got.result = true
    · obtain ⟨hbegin, hout, hat, hr, hrend⟩ := section_within hsize ⟨hlo, hhi⟩ hend hgot.eq hresult
      have hpart : got.out.end - got.out.begin ≤ 65535 := by omega
      have hat' : got.place = got.out.begin := if_pos hresult
      -- the section has been passed
      have hpassed : ∀ s' : Search, s'.protocols = got.r → (s'.result = some true → got.out.begin ≤ s'.value.begin ∧
          s'.value.begin ≤ s'.value.end ∧ s'.value.end ≤ got.out.end) → protocols.begin ≤ searchPlace s' →
            (⟨protocols, type, value, none⟩ : Search).Next lo hi s' := by
        intro s' hs' hvalue hplace'
        refine ⟨⟨?_, fun htrue => ?_⟩, ?_, hplace'⟩
        · rw [hs']
          omega
        · have := hvalue htrue
          rw [hs']
          omega
        · have hrank : searchRank s' ≤ got.r.end - got.r.begin + 1 := by
            rw [searchRank, hs']
            split <;> omega
          change searchRank s' < protocols.end - protocols.begin + 1
          omega
      right
      obtain ⟨first, hfirst⟩ := getValue_reads mem ⟨hout, hpart⟩ got.type value
      obtain ⟨-, -, hfirstLe, -⟩ := getValue_inside ⟨hout, hpart⟩ hfirst.eq
      obtain ⟨-, hfirstPlace⟩ := place_le ⟨hout, hpart⟩ hfirst.eq
      by_cases hresult' : first.result = true
      · have hfirstWithin := first_within hpart hout hfirst.eq hresult'
        obtain ⟨w, hw, hwithin, hnext⟩ := walk_reads mem id hpart hfirstWithin
        obtain ⟨s', hs', hprotocols, hplace', hvalue⟩ := hmore hpart hwithin hat.symm
        have hwalk := hwithin.value
        dsimp only at hnext
        refine ⟨s', ?_, hpassed s' hprotocols hvalue (by omega)⟩
        refine (hgot.mono hlo (by omega)).bind (.ite_pos hresult ?_)
        refine (hfirst.mono (by omega) (by omega)).bind (.ite_pos hresult' ?_)
        exact (hw.mono (by omega) hplace').bind (hs'.mono (by omega) (Nat.le_refl _))
      · refine ⟨⟨got.r, first.type, first.out, none⟩, ?_, hpassed _ rfl (fun h => by cases h) hle⟩
        refine (hgot.mono hlo hplace).bind (.ite_pos hresult ?_)
        refine (hfirst.mono (by omega) ?_).bind (.ite_neg hresult' .pure)
        omega
    · obtain hnone | ⟨s', hsome, hprotocols, hfalse⟩ := hended got
      · refine .inl ⟨?_, h.place_le⟩
        refine (hgot.mono hlo ?_).bind (.ite_neg hresult ?_)
        · change got.place ≤ protocols.end
          omega
        · intro mem' _
          exact congrArg Except.ok hnone
      · have hplace' : searchPlace s' = got.r.begin := by
          rw [searchPlace, hfalse, hprotocols]
          rfl
        refine .inr ⟨s', ?_, ⟨?_, fun htrue => ?_⟩, ?_, ?_⟩
        · refine (hgot.mono hlo (by omega)).bind (.ite_neg hresult ?_)
          intro mem' _
          exact congrArg Except.ok hsome
        · rw [hprotocols]
          omega
        · rw [hfalse] at htrue
          cases htrue
        · rw [searchRank, hfalse]
          exact Nat.succ_pos _
        · rw [hplace']
          exact hle
  · exact .inl ⟨fun _ _ => rfl, h.place_le⟩

/-! ### Lists of sections -/

/-- What a search over the sections of a list does on any octets. -/
structure Searches (search : (ℕ → UInt8) → Except Fault Search) (mem : ℕ → UInt8) (p : Region) (s : Search) : Prop
    extends s.Within p.begin p.end where
  reads : Reads search mem p.begin (searchLast s) s
  place : p.begin ≤ searchLast s

variable {p : Region}

theorem search_reads {turn : (ℕ → UInt8) → Search → Except Fault (Option Search)} (hsmall : p.Small)
    (hturn : ∀ s, s.Within p.begin p.end →
      (Reads (fun mem => turn mem s) mem p.begin (searchLast s) none ∧ searchPlace s ≤ searchLast s) ∨
        ∃ s', Reads (fun mem => turn mem s) mem p.begin (searchPlace s') (some s') ∧ s.Next p.begin p.end s')
    (type : ServiceDataType) (value : Region) :
    ∃ s, Searches (fun mem => Lib.loop .endless (turn mem) (regionSize p + 2) ⟨p, type, value, none⟩) mem p s := by
  have hstart : Search.Within p.begin p.end ⟨p, type, value, none⟩ :=
    ⟨⟨Nat.le_refl _, hsmall.1, rfl⟩, (fun h => by cases h)⟩
  have hfuel : searchRank ⟨p, type, value, none⟩ < regionSize p + 2 := by
    rw [regionSize_eq mem hsmall, length_octets]
    exact Nat.lt_succ_self _
  obtain ⟨s, hreads, hwithin, hplace⟩ := @Lib.loop_reads_to _ _ _ Fault.endless turn mem p.begin
    (Search.Within p.begin p.end) searchRank searchPlace searchLast
    (fun s hs => (hturn s hs).imp_right fun ⟨s', hs', hnext⟩ => ⟨s', hs', hnext.toWithin, hnext.rank, hnext.place⟩)
    _ _ hstart hfuel
  exact ⟨s, ⟨hwithin, hreads, hplace⟩⟩

/-- `findServerChannel` ends, and what it has found lies inside of the list. -/
theorem findServerChannel_reads (mem : ℕ → UInt8) (id : ℕ) (hsmall : p.Small) (value : Region) :
    ∃ s, Searches (fun mem => findServerChannel mem id p value) mem p s := by
  refine search_reads hsmall (fun s hs => ?_) .nil value
  simp only [channelTurn_eq]
  refine sectionTurn_reads mem id ?_ (fun got => .inr ⟨_, rfl, rfl, rfl⟩) hsmall.2 hs
  intro lo hi r w hsize h hr
  by_cases hmore : w.value.end ≠ w.protocol.end
  · simp only [if_pos hmore]
    exact lastTurn_reads mem hsize h hr
  · simp only [if_neg hmore]
    have hprotocol := h.protocol
    refine ⟨⟨r, w.type, w.value, none⟩, .pure, rfl, ?_, (fun h => by cases h)⟩
    change w.protocol.begin ≤ r.begin
    omega

/-- The inner loop of `findProfileVersion`. -/
theorem versions_reads (mem : ℕ → UInt8) (serviceClass : ℕ) (hsmall : p.Small) (type : ServiceDataType)
    (value : Region) : ∃ s, Searches
      (fun mem => Lib.loop .endless (versionTurn mem serviceClass) (regionSize p + 2) ⟨p, type, value, none⟩) mem p s := by
  refine search_reads hsmall (fun s hs => ?_) type value
  simp only [versionTurn_eq]
  refine sectionTurn_reads mem serviceClass ?_ (fun _ => .inl rfl) hsmall.2 hs
  intro lo hi r w hsize h hr
  by_cases hmissing : w.reachedEnd = true
  · simp only [if_pos hmissing]
    have hprotocol := h.protocol
    refine ⟨⟨r, w.type, w.value, some false⟩, .pure, rfl, ?_, (fun h => by cases h)⟩
    change w.protocol.begin ≤ r.begin
    omega
  · simp only [if_neg hmissing]
    exact lastTurn_reads mem hsize h hr

/-! ### Records -/

/-- A value that has been found: the search has looked no further than to it, and it lies in an attribute of the record. -/
structure FoundAt (mem : ℕ → UInt8) (find : (ℕ → UInt8) → Except Fault (Option Region)) (record v : Region) : Prop where
  reads : Reads find mem record.begin v.begin (some v)
  inside : record.begin < v.begin ∧ v.begin ≤ v.end ∧ v.end ≤ record.end
  own : ∃ next, Visits mem (start record) next ∧ next.value.begin ≤ v.begin ∧ v.end ≤ next.value.end

/-- A search of a record ends; a value that it finds is where `FoundAt` says. -/
def Locates (mem : ℕ → UInt8) (find : (ℕ → UInt8) → Except Fault (Option Region)) (record : Region) : Prop :=
  ∃ result, find mem = .ok result ∧ ∀ v, result = some v → FoundAt mem find record v

variable {record : Region}

theorem locates_none {find : (ℕ → UInt8) → Except Fault (Option Region)} (h : find mem = .ok none) :
    Locates mem find record := ⟨none, h, fun v hv => by cases hv⟩

theorem locates_some {find : (ℕ → UInt8) → Except Fault (Option Region)} {record v : Region}
    (h : FoundAt mem find record v) : Locates mem find record := by
  refine ⟨some v, h.reads.eq, fun v' hv' => ?_⟩
  obtain rfl := Option.some.inj hv'
  exact h

theorem findAttribute_locates (mem : ℕ → UInt8) (id : ℕ) (type : ServiceDataType)
    (hsmall : record.Small) : Locates mem (fun mem => findAttribute mem id type record) record := by
  obtain ⟨⟨ok, next⟩, hlooks⟩ := @find_looks mem id (start record) hsmall
  have hfind : serviceFindAttribute mem id (start record) = .ok (ok, next) := hlooks.reads.eq
  by_cases hfound : ok = true ∧ next.type = type
  · obtain ⟨rfl, htype⟩ := hfound
    obtain ⟨hvalue, hvalue', hvalue''⟩ := hlooks.value rfl
    obtain ⟨-, hle⟩ := hlooks.le
    dsimp only at hvalue' hvalue'' hle
    refine locates_some ⟨?_, ⟨hvalue, hvalue', hvalue''.trans_le hle⟩, ⟨next, visits_of_find hfind, Nat.le_refl _,
      Nat.le_refl _⟩⟩
    refine hlooks.reads.bind ?_
    intro mem' _
    dsimp only
    rw [if_pos ⟨rfl, htype⟩]
    rfl
  · refine locates_none ?_
    rw [findAttribute, hfind]
    exact if_neg hfound

/-- The attribute that a loop over attributes has got to. -/
structure Reached (mem : ℕ → UInt8) (record : Region) (next : Next) (result : Option Bool) : Prop where
  end_eq : next.r.end = record.end
  le : record.begin ≤ next.r.begin ∧ next.r.begin ≤ record.end
  visits : result ≠ some false → next = start record ∨ Visits mem (start record) next

theorem Reached.start (mem : ℕ → UInt8) (hsmall : record.Small) :
    Reached mem record (start record) none := ⟨rfl, ⟨Nat.le_refl _, hsmall.1⟩, fun _ => .inl rfl⟩

/-- The next attribute with the identifier. -/
theorem Reached.find (hsmall : record.Small) {next : Next} (h : Reached mem record next none) (id : ℕ) :
    ∃ ok next', Reads (fun mem => serviceFindAttribute mem id next) mem record.begin (placeOf (ok, next')) (ok, next') ∧
      next.r.begin ≤ next'.r.begin ∧ Reached mem record next' (some ok) ∧
      (ok = true → Visits mem (SdpParse.start record) next' ∧ next.r.begin < next'.value.begin ∧
        next'.value.begin ≤ next'.value.end ∧ next'.value.end = next'.r.begin) := by
  obtain ⟨hle, hle'⟩ := h.le
  have hend := h.end_eq
  have hnext : next.r.Small := by
    have := hsmall.2
    constructor <;> omega
  obtain ⟨⟨ok, next'⟩, hlooks⟩ := find_looks mem id hnext
  have hfind : serviceFindAttribute mem id next = .ok (ok, next') := hlooks.reads.eq
  obtain ⟨hlt, hlt'⟩ := hlooks.le
  have hend' : next'.r.end = next.r.end := hlooks.end_eq
  dsimp only at hlt hlt'
  have hvisits : ok = true → Visits mem (SdpParse.start record) next' := by
    rintro rfl
    obtain rfl | hvisits := h.visits (fun h => by cases h)
    · exact visits_of_find hfind
    · exact hvisits.trans (visits_of_find hfind)
  refine ⟨ok, next', hlooks.reads.mono hle (Nat.le_refl _), hlt, ⟨hend'.trans hend, ⟨by omega, by omega⟩, fun hok => ?_⟩,
    fun hok => ⟨hvisits hok, hlooks.value hok⟩⟩
  · cases ok with
    | false => exact absurd rfl hok
    | true => exact .inr (hvisits rfl)

/-- What the loop of `findProtocolDescriptorList` keeps. -/
structure Listing (mem : ℕ → UInt8) (record : Region) (st : Next × Option Bool) : Prop where
  reached : Reached mem record st.1 st.2
  found : st.2 = some true → Visits mem (start record) st.1 ∧ record.begin < st.1.value.begin ∧
    st.1.value.begin ≤ st.1.value.end ∧ st.1.value.end = st.1.r.begin

theorem listTurn_reads (mem : ℕ → UInt8) (hsmall : record.Small) {st : Next × Option Bool}
    (h : Listing mem record st) : Reads (fun mem => listTurn mem st) mem record.begin (seekPlace st) none ∨
      ∃ st', Reads (fun mem => listTurn mem st) mem record.begin (seekPlace st') (some st') ∧ Listing mem record st' ∧
        Finding.rank st' < Finding.rank st ∧ seekPlace st ≤ seekPlace st' := by
  obtain ⟨next, _ | result⟩ := st
  · right
    obtain ⟨ok, next', hreads, hle, hreached, hvalue⟩ := h.reached.find hsmall 0x0004
    have hbegin := h.reached.le
    dsimp only at hbegin hle hvalue
    cases ok with
    | false =>
      refine ⟨(next', some false), ?_, ⟨hreached, (fun h => by cases h)⟩, Nat.succ_pos _, hle⟩
      exact hreads.bind .pure
    | true =>
      obtain ⟨hvisits, hbegin', hvalue', hvalue''⟩ := hvalue rfl
      by_cases hsequence : next'.type = .sequence
      · refine ⟨(next', some true), hreads.bind ?_, ⟨hreached, fun _ => ⟨hvisits, by dsimp only; omega, hvalue', hvalue''⟩⟩,
          Nat.succ_pos _, Nat.le_of_lt hbegin'⟩
        intro mem' _
        exact congrArg (fun result => Except.ok (some (next', result))) (if_pos hsequence)
      · refine ⟨(next', none), (hreads.mono (Nat.le_refl _) ?_).bind ?_,
          ⟨⟨hreached.end_eq, hreached.le, fun _ => .inr hvisits⟩, (fun h => by cases h)⟩, ?_, hle⟩
        · change next'.value.begin ≤ next'.r.begin
          omega
        · intro mem' _
          exact congrArg (fun result => Except.ok (some (next', result))) (if_neg hsequence)
        · have hend := hreached.end_eq
          have hend' := h.reached.end_eq
          have hle' := hreached.le
          change next'.r.end - next'.r.begin + 1 < next.r.end - next.r.begin + 1
          dsimp only at hend'
          omega
  · exact .inl .pure

/-- `findProtocolDescriptorList`. -/
theorem findProtocolDescriptorList_locates (mem : ℕ → UInt8) (hsmall : record.Small) :
    Locates mem (fun mem => findProtocolDescriptorList mem record) record := by
  have hfuel : Finding.rank (start record, none) < regionSize record + 2 := by
    rw [regionSize_eq mem hsmall, length_octets]
    exact Nat.lt_succ_self _
  obtain ⟨⟨next, result⟩, hreads, hlisting, -⟩ := @Lib.loop_reads _ _ _ Fault.endless listTurn mem record.begin
    (Listing mem record) Finding.rank seekPlace (fun _ hst => listTurn_reads mem hsmall hst) _ _
    ⟨Reached.start mem hsmall, (fun h => by cases h)⟩ hfuel
  by_cases hresult : result = some true
  · subst hresult
    obtain ⟨hvisits, hbegin, hvalue, hvalue'⟩ := hlisting.found rfl
    have hle := hlisting.reached.le
    dsimp only at hbegin hvalue hvalue' hle
    refine locates_some ⟨hreads.bind .pure, ⟨hbegin, hvalue, by dsimp only; omega⟩, ⟨next, hvisits, Nat.le_refl _, Nat.le_refl _⟩⟩
  · refine locates_none ?_
    have hloop := hreads.eq
    rw [findProtocolDescriptorList, hloop]
    exact if_neg hresult

/-- What the outer loop of `findProfileVersion` keeps. -/
structure Profiling (mem : ℕ → UInt8) (record : Region) (p : Profile) : Prop where
  reached : Reached mem record p.next p.result
  found : p.result = some true → Visits mem (start record) p.next ∧ record.begin < p.value.begin ∧
    p.value.begin ≤ p.value.end ∧ p.next.value.begin ≤ p.value.begin ∧ p.value.end ≤ p.next.value.end ∧
      p.next.value.end ≤ record.end

/-- How many turns the outer loop takes at most. -/
def profileRank (p : Profile) : ℕ :=
  match p.result with
  | some _ => 0
  | none => p.next.r.end - p.next.r.begin + 1

/-- How far the outer loop has looked. -/
def profilePlace (p : Profile) : ℕ := if p.result = some true then p.value.begin else p.next.r.begin

theorem profileTurn_reads (mem : ℕ → UInt8) (serviceClass : ℕ) (hsmall : record.Small) {p : Profile}
    (h : Profiling mem record p) : Reads (fun mem => profileTurn mem serviceClass p) mem record.begin (profilePlace p) none ∨
      ∃ p', Reads (fun mem => profileTurn mem serviceClass p) mem record.begin (profilePlace p') (some p') ∧
        Profiling mem record p' ∧ profileRank p' < profileRank p ∧ profilePlace p ≤ profilePlace p' := by
  obtain ⟨next, value, _ | result⟩ := p
  · right
    obtain ⟨ok, next', hreads, hle, hreached, hvalue⟩ := h.reached.find hsmall 0x0009
    have hbegin := h.reached.le
    have hend := hreached.end_eq
    have hend' := h.reached.end_eq
    have hle' := hreached.le
    dsimp only at hbegin hend' hle hvalue
    cases ok with
    | false =>
      refine ⟨⟨next', value, some false⟩, ?_, ⟨hreached, (fun h => by cases h)⟩, Nat.succ_pos _, hle⟩
      exact hreads.bind .pure
    | true =>
      obtain ⟨hvisits, hbegin', hvalue', hvalue''⟩ := hvalue rfl
      have hat : placeOf (true, next') = next'.value.begin := rfl
      -- the loop goes on, or has returned FALSE
      have hpassed : ∀ value' result', result' ≠ some true →
          Profiling mem record ⟨next', value', result'⟩ ∧ profileRank ⟨next', value', result'⟩ <
            profileRank ⟨next, value, none⟩ ∧ profilePlace ⟨next', value', result'⟩ = next'.r.begin := by
        intro value' result' hresult
        refine ⟨⟨⟨hreached.end_eq, hreached.le, fun _ => .inr hvisits⟩, fun htrue => absurd htrue hresult⟩, ?_,
          if_neg hresult⟩
        have hrank : profileRank ⟨next', value', result'⟩ ≤ next'.r.end - next'.r.begin + 1 := by
          rw [profileRank]
          split
          · exact Nat.zero_le _
          · exact Nat.le_refl _
        change profileRank ⟨next', value', result'⟩ < next.r.end - next.r.begin + 1
        omega
      by_cases hsequence : next'.type = .sequence
      · have hlist : next'.value.Small := by
          have := hsmall.2
          constructor <;> omega
        obtain ⟨s, hs⟩ := versions_reads mem serviceClass hlist next'.type value
        have hwithin := hs.protocols
        have hplace := hs.place
        have hread : Reads (fun mem => profileTurn mem serviceClass ⟨next, value, none⟩) mem record.begin (searchLast s)
            (some ⟨next', s.value, s.result⟩) := by
          refine (hreads.mono (Nat.le_refl _) (by omega)).bind (.ite_pos rfl (.ite_pos hsequence ?_))
          exact (hs.reads.mono (by omega) (Nat.le_refl _)).bind .pure
        by_cases hfound : s.result = some true
        · obtain ⟨hlo, hmid, hhi⟩ := hs.found hfound
          have hlast : searchLast s = s.value.begin := if_pos hfound
          refine ⟨⟨next', s.value, s.result⟩, ?_, ⟨⟨hreached.end_eq, hreached.le, fun _ => .inr hvisits⟩, fun _ => ⟨hvisits,
            by dsimp only; omega, hmid, Nat.le_of_lt hlo, by dsimp only; omega, by dsimp only; omega⟩⟩, ?_, ?_⟩
          · rw [profilePlace, if_pos hfound]
            exact hread.mono (Nat.le_refl _) (Nat.le_of_eq hlast)
          · rw [profileRank, hfound]
            exact Nat.succ_pos _
          · rw [profilePlace, profilePlace, if_pos hfound, if_neg (fun h => by cases h)]
            dsimp only
            omega
        · obtain ⟨hprofiling, hrank, hplace'⟩ := hpassed s.value s.result hfound
          have hlast : searchLast s = s.protocols.end := if_neg hfound
          refine ⟨_, hread.mono (Nat.le_refl _) ?_, hprofiling, hrank, ?_⟩
          · rw [hplace']
            omega
          · rw [hplace']
            exact hle
      · obtain ⟨hprofiling, hrank, hplace'⟩ := hpassed value none (fun h => by cases h)
        refine ⟨_, (hreads.mono (Nat.le_refl _) ?_).bind (.ite_pos rfl (.ite_neg hsequence .pure)), hprofiling, hrank, ?_⟩
        · rw [hplace']
          omega
        · rw [hplace']
          exact hle
  · exact .inl .pure

/-- `findProfileVersion`. -/
theorem findProfileVersion_locates (mem : ℕ → UInt8) (serviceClass : ℕ) (hsmall : record.Small) :
    Locates mem (fun mem => findProfileVersion mem serviceClass record) record := by
  have hfuel : profileRank ⟨start record, ⟨0, 0⟩, none⟩ < regionSize record + 2 := by
    rw [regionSize_eq mem hsmall, length_octets]
    exact Nat.lt_succ_self _
  obtain ⟨p, hreads, hprofiling, -⟩ := @Lib.loop_reads _ _ _ Fault.endless (fun mem => profileTurn mem serviceClass) mem
    record.begin (Profiling mem record) profileRank profilePlace
    (fun _ hst => profileTurn_reads mem serviceClass hsmall hst) _ _
    ⟨Reached.start mem hsmall, (fun h => by cases h)⟩ hfuel
  by_cases hresult : p.result = some true
  · obtain ⟨hvisits, hbegin, hvalue, hvalue', hend, hend'⟩ := hprofiling.found hresult
    have hplace : profilePlace p = p.value.begin := if_pos hresult
    rw [hplace] at hreads
    exact locates_some ⟨hreads.bind (.ite_pos hresult .pure), ⟨hbegin, hvalue, Nat.le_trans hend hend'⟩,
      ⟨p.next, hvisits, hvalue', hend⟩⟩
  · refine locates_none ?_
    have hloop := hreads.eq
    rw [findProfileVersion, hloop]
    exact if_neg hresult

end Cbps.SdpParse
