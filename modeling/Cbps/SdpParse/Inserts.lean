import Cbps.SdpParse.Looking
import Mathlib.Data.List.Infix

/-!
# Insertions

The functions `SdpParseInsert…` look for a value as the functions `SdpParseGet…` do, and write a number into its region.
Since a search does not look at the octets of the value, the reader finds the same region in the record that has been
written, and the other attributes are as before. What it reads is the number if the region is wide enough for it: three of
the five functions do not look at the width.
-/

namespace Cbps.SdpParse

open Lib

open Service
open Lib (Reads Yields)

variable (mem : ℕ → UInt8)

/-! ### The code -/

/-- The loop of `RegionWriteUnsigned`, with the number of octets that are left. -/
def writeUnsigned (begin : ℕ) : ℕ → ℕ → (ℕ → UInt8) → ℕ → UInt8
  | 0, _, mem => mem
  | n + 1, value, mem => writeUnsigned begin n (value / 256) (Function.update mem (begin + n) (UInt8.ofNat value))

/-- `RegionWriteUnsigned`. -/
def regionWriteUnsigned (r : Region) (value : ℕ) : ℕ → UInt8 := writeUnsigned r.begin (r.end - r.begin) value mem

/-- What is done with the result of a search: the value is written if the region is of the size that is wanted. -/
def writeFound (value : ℕ) (wanted : Region → Bool) : Option Region → Bool × (ℕ → UInt8)
  | none => (false, mem)
  | some r => if wanted r then (true, regionWriteUnsigned mem r value) else (false, mem)

/-- `SdpParseInsertArbitrary`. -/
def sdpParseInsertArbitrary (id value : ℕ) (record : Region) : Except Fault (Bool × (ℕ → UInt8)) :=
  writeFound mem value (fun _ => true) <$> findAttribute mem id .unsignedInteger record

/-- `SdpParseInsertPbapRepos`. -/
def sdpParseInsertPbapRepos (repos : ℕ) (record : Region) : Except Fault (Bool × (ℕ → UInt8)) :=
  writeFound mem repos (fun _ => true) <$> findAttribute mem 0x0314 .unsignedInteger record

/-- `SdpParseInsertSupportedFeatures`. -/
def sdpParseInsertSupportedFeatures (features : ℕ) (record : Region) : Except Fault (Bool × (ℕ → UInt8)) :=
  writeFound mem features (fun r => regionSize r = 2) <$> findAttribute mem 0x0311 .unsignedInteger record

/-- `SdpParseInsertProfileVersion`. -/
def sdpParseInsertProfileVersion (serviceClass profile : ℕ) (record : Region) : Except Fault (Bool × (ℕ → UInt8)) :=
  writeFound mem profile (fun r => regionSize r = 2) <$> findProfileVersion mem serviceClass record

/-- The region into which `SdpParseInsertRfcommServerChannel` writes. -/
def findChannel (record : Region) : Except Fault (Option Region) := do
  match ← findProtocolDescriptorList mem record with
  | none => return none
  | some protocols =>
    let s ← findServerChannel mem uuidRfcomm protocols ⟨0, 0⟩
    if s.result = some true then return some s.value else return none

/-- `SdpParseInsertRfcommServerChannel`. -/
def sdpParseInsertRfcommServerChannel (chan : ℕ) (record : Region) : Except Fault (Bool × (ℕ → UInt8)) :=
  writeFound mem chan (fun _ => true) <$> findChannel mem record

/-! ### What an insertion is to do -/

variable {mem}

/-- Every attribute but the one in which the region lies reads as before. -/
def SameElsewhere (mem mem' : ℕ → UInt8) (record v : Region) : Prop :=
  ∃ front own back, visit (serviceNextAttribute mem) (start record) = .ok (front ++ own :: back) ∧
    visit (serviceNextAttribute mem') (start record) = .ok (front ++ own :: back) ∧
      (own.2.2.begin ≤ v.begin ∧ v.end ≤ own.2.2.end) ∧
        ∀ place ∈ front ++ back, place.2.2.octets mem' = place.2.2.octets mem

/-- **The promise** of an insertion into the region that `find` gives, with a reader. -/
def Agrees (mem : ℕ → UInt8) (record : Region) (find : Except Fault (Option Region))
    (insert : Except Fault (Bool × (ℕ → UInt8))) (reads : (ℕ → UInt8) → Prop) : Prop :=
  ∃ result mem', insert = .ok (result, mem') ∧ (result = false → mem' = mem) ∧ (result = true → reads mem' ∧
    ∃ v, find = .ok (some v) ∧ (record.begin ≤ v.begin ∧ v.begin ≤ v.end ∧ v.end ≤ record.end) ∧
      (∀ i, ¬ (v.begin ≤ i ∧ i < v.end) → mem' i = mem i) ∧ SameElsewhere mem mem' record v)

/-- The region that is found is wide enough for the number. -/
def Fits (find : Except Fault (Option Region)) (value : ℕ) : Prop :=
  ∀ v, find = .ok (some v) → value < 256 ^ (v.end - v.begin)

/-! ### Writing a number -/

theorem writeUnsigned_outside {begin n value : ℕ} {i : ℕ} (h : ¬ (begin ≤ i ∧ i < begin + n)) :
    writeUnsigned begin n value mem i = mem i := by
  induction n generalizing value mem with
  | zero => rfl
  | succ n ih =>
    rw [writeUnsigned, ih (fun hi => h ⟨hi.1, by omega⟩), Function.update_of_ne (by omega)]

theorem octets_writeUnsigned (begin n value : ℕ) :
    (⟨begin, begin + n⟩ : Region).octets (writeUnsigned begin n value mem) = numberOctets n value := by
  induction n generalizing value mem with
  | zero => simp [Region.octets, numberOctets]
  | succ n ih =>
    have hfront := @ih (Function.update mem (begin + n) (UInt8.ofNat value)) (value / 256)
    have hlast : writeUnsigned begin n (value / 256) (Function.update mem (begin + n) (UInt8.ofNat value)) (begin + n) =
        UInt8.ofNat value := by
      rw [writeUnsigned_outside (by omega), Function.update_self]
    rw [writeUnsigned, numberOctets, ← hfront]
    simp only [Region.octets, Nat.add_sub_cancel_left, List.range_succ, List.map_append, List.map_cons, List.map_nil]
    rw [hlast]

theorem write_outside {v : Region} (value : ℕ) {i : ℕ} (h : ¬ (v.begin ≤ i ∧ i < v.end)) :
    regionWriteUnsigned mem v value i = mem i := by
  refine writeUnsigned_outside fun hi => h ⟨hi.1, ?_⟩
  omega

theorem read_write {v : Region} (hv : v.begin ≤ v.end) (value : ℕ) :
    regionReadUnsigned (regionWriteUnsigned mem v value) v = value % 256 ^ (v.end - v.begin) % 4294967296 := by
  obtain ⟨b, e⟩ := v
  obtain ⟨n, rfl⟩ : ∃ n, e = b + n := ⟨e - b, by dsimp only at hv; omega⟩
  rw [regionReadUnsigned_eq, regionWriteUnsigned]
  simp only [Nat.add_sub_cancel_left]
  rw [octets_writeUnsigned, bigEndian_numberOctets]

/-- A number that is cut to the width of a region and to the type of the reader is the same if it fits. -/
theorem cut_iff {value width bound : ℕ} (hvalue : value < bound) (hbound : bound ≤ 4294967296) :
    value % 256 ^ width % 4294967296 % bound = value ↔ value < 256 ^ width := by
  constructor
  · intro h
    have hpos : 0 < 256 ^ width := Nat.pow_pos (by decide)
    have hlt := Nat.mod_lt value hpos
    have hle := Nat.mod_le (value % 256 ^ width) 4294967296
    have hle' := Nat.mod_le (value % 256 ^ width % 4294967296) bound
    omega
  · intro h
    rw [Nat.mod_eq_of_lt h, Nat.mod_eq_of_lt (Nat.lt_of_lt_of_le hvalue hbound), Nat.mod_eq_of_lt hvalue]

/-! ### The record that has been written -/

section Written

variable {find : (ℕ → UInt8) → Except Fault (Option Region)} {record v : Region}

/-- The reader finds the same region. -/
theorem FoundAt.write (h : FoundAt mem find record v) (value : ℕ) :
    find (regionWriteUnsigned mem v value) = .ok (some v) :=
  h.reads _ fun i _ hi => write_outside value fun hi' => by omega

theorem FoundAt.sameElsewhere (hsmall : record.Small) (h : FoundAt mem find record v) (value : ℕ) :
    SameElsewhere mem (regionWriteUnsigned mem v value) record v := by
  obtain ⟨next, hvisits, hin⟩ := h.own
  obtain ⟨front, back, hvisit, hvisit', hsame⟩ :=
    @visit_unchanged _ _ v (fun i hi => write_outside value hi) (start record) next hsmall hvisits hin
  exact ⟨front, next.place, back, hvisit, hvisit', hin, hsame⟩

/-- An insertion agrees with a reader exactly if the reader gets the number wherever it has been written. -/
theorem agrees_iff (hsmall : record.Small) (hlocates : Locates mem find record) (value : ℕ) (wanted : Region → Bool)
    (reads : (ℕ → UInt8) → Prop) :
    Agrees mem record (find mem) (writeFound mem value wanted <$> find mem) reads ↔
      ∀ v, find mem = .ok (some v) → wanted v = true → reads (regionWriteUnsigned mem v value) := by
  obtain ⟨result, hfind, hfound⟩ := hlocates
  rw [hfind]
  constructor
  · rintro ⟨result', mem', hinsert, -, htrue⟩ v hv hwanted
    obtain rfl := Except.ok.inj hv
    have hwrite : (true, regionWriteUnsigned mem v value) = (result', mem') := by
      rw [← Except.ok.inj hinsert, writeFound, if_pos hwanted]
    obtain ⟨rfl, rfl⟩ := Prod.mk.inj hwrite
    exact (htrue rfl).1
  · intro hreads
    rcases result with - | v
    · exact ⟨false, mem, rfl, fun _ => rfl, (fun h => by cases h)⟩
    · by_cases hwanted : wanted v = true
      · refine ⟨true, regionWriteUnsigned mem v value, ?_, (fun h => by cases h), fun _ => ⟨hreads v rfl hwanted, v, rfl,
          ?_, fun i hi => write_outside value hi, (hfound v rfl).sameElsewhere hsmall value⟩⟩
        · exact congrArg Except.ok (if_pos hwanted)
        · have hinside := (hfound v rfl).inside
          exact ⟨Nat.le_of_lt hinside.1, hinside.2⟩
      · exact ⟨false, mem, congrArg Except.ok (if_neg hwanted), fun _ => rfl, (fun h => by cases h)⟩

/-- Where no width is checked, the reader gets the number exactly if it fits. -/
theorem agrees_fits (hsmall : record.Small) (hlocates : Locates mem find record) {value : ℕ}
    {reads : (ℕ → UInt8) → Prop} (hreads : ∀ v, FoundAt mem find record v →
      (reads (regionWriteUnsigned mem v value) ↔ value < 256 ^ (v.end - v.begin))) :
    Agrees mem record (find mem) (writeFound mem value (fun _ => true) <$> find mem) reads ↔ Fits (find mem) value := by
  rw [agrees_iff hsmall hlocates]
  obtain ⟨result, hfind, hfound⟩ := hlocates
  have hat : ∀ v, find mem = .ok (some v) → FoundAt mem find record v := by
    intro v hv
    exact hfound v (Except.ok.inj (hfind.symm.trans hv))
  constructor
  · intro h v hv
    exact (hreads v (hat v hv)).mp (h v hv rfl)
  · intro h v hv _
    exact (hreads v (hat v hv)).mpr (h v hv)

/-- Where the region has to be of two octets, the reader gets the number. -/
theorem agrees_two (hsmall : record.Small) (hlocates : Locates mem find record) {value : ℕ} (hvalue : value < 65536)
    {reads : (ℕ → UInt8) → Prop} (hreads : ∀ v, FoundAt mem find record v →
      (reads (regionWriteUnsigned mem v value) ↔ value < 256 ^ (v.end - v.begin))) :
    Agrees mem record (find mem) (writeFound mem value (fun r => regionSize r = 2) <$> find mem) reads := by
  rw [agrees_iff hsmall hlocates]
  obtain ⟨result, hfind, hfound⟩ := hlocates
  intro v hv hsize
  have hat := hfound v (Except.ok.inj (hfind.symm.trans hv))
  have hwidth : v.end - v.begin = 2 := by
    have hinside := hat.inside
    have := hsmall.2
    have hsize' : regionSize v = 2 := of_decide_eq_true hsize
    rw [regionSize] at hsize'
    omega
  rw [hreads v hat, hwidth]
  exact hvalue

/-- A reader of the value gets the number exactly if it fits. -/
theorem reads_iff (h : FoundAt mem find record v) {value bound : ℕ} (hvalue : value < bound)
    (hbound : bound ≤ 4294967296) :
    (Option.map (fun r => regionReadUnsigned (regionWriteUnsigned mem v value) r % bound) <$>
      find (regionWriteUnsigned mem v value)) = .ok (some value) ↔ value < 256 ^ (v.end - v.begin) := by
  rw [h.write value, ← @cut_iff value (v.end - v.begin) bound hvalue hbound, ← read_write h.inside.2.1]
  constructor
  · intro heq
    exact Option.some.inj (Except.ok.inj heq)
  · intro heq
    exact congrArg (fun n => Except.ok (some n)) heq

end Written

/-! ### The channel -/

/-- The search for the channel. -/
theorem findChannel_locates (mem : ℕ → UInt8) {record : Region} (hsmall : record.Small) :
    Locates mem (fun mem => findChannel mem record) record := by
  obtain ⟨list, hlist, hfound⟩ := findProtocolDescriptorList_locates mem hsmall
  dsimp only at hlist
  rcases list with - | p
  · refine locates_none ?_
    rw [findChannel, hlist]
    rfl
  · have hp := hfound p rfl
    obtain ⟨hbegin, hle, hend⟩ := hp.inside
    have hsmall' : p.Small := by
      have := hsmall.2
      constructor <;> omega
    obtain ⟨s, hs⟩ := findServerChannel_reads mem uuidRfcomm hsmall' ⟨0, 0⟩
    by_cases hresult : s.result = some true
    · obtain ⟨hlo, hmid, hhi⟩ := hs.found hresult
      have hwithin := hs.protocols
      have hlast : searchLast s = s.value.begin := if_pos hresult
      obtain ⟨next, hvisits, hin, hin'⟩ := hp.own
      refine locates_some ⟨?_, ⟨by omega, hmid, by omega⟩, ⟨next, hvisits, by omega, by omega⟩⟩
      refine (hp.reads.mono (Nat.le_refl _) (Nat.le_of_lt hlo)).bind ?_
      change Reads (fun mem => findServerChannel mem uuidRfcomm p ⟨0, 0⟩ >>= fun s =>
        if s.result = some true then pure (some s.value) else pure none) mem record.begin s.value.begin (some s.value)
      exact (hs.reads.mono (Nat.le_of_lt hbegin) (Nat.le_of_eq hlast)).bind (.ite_pos hresult .pure)
    · refine locates_none ?_
      have hsearch := hs.reads.eq
      rw [findChannel, hlist, ok_bind]
      dsimp only
      rw [hsearch, ok_bind]
      exact if_neg hresult

/-- How many turns the loop over the channels takes at most. -/
def gatherRank (g : Gather) : ℕ := if g.full then 0 else g.protocols.end - g.protocols.begin + 1

/-- The loop over the channels ends, and keeps what it has collected. -/
theorem gather_ok (mem : ℕ → UInt8) (sizeChans : ℕ) {g : Gather} (hsmall : g.protocols.Small) {n : ℕ}
    (hn : gatherRank g < n) :
    Yields (Lib.loop .endless (gatherTurn mem sizeChans) n g) fun g' => g.chans <+: g'.chans := by
  have hturn : ∀ h : Gather, (h.protocols.Small ∧ g.chans <+: h.chans) → gatherTurn mem sizeChans h = .ok none ∨
      ∃ h', gatherTurn mem sizeChans h = .ok (some h') ∧ (h'.protocols.Small ∧ g.chans <+: h'.chans) ∧
        gatherRank h' < gatherRank h := by
    rintro ⟨protocols, value, chans, full⟩ ⟨hsmall, hchans⟩
    dsimp only at hsmall hchans
    rw [gatherTurn]
    cases full with
    | true => exact .inl rfl
    | false =>
      obtain ⟨s, hs⟩ := findServerChannel_reads mem uuidRfcomm hsmall value
      have hsearch := hs.reads.eq
      dsimp only at hsearch ⊢
      rw [if_neg Bool.false_ne_true, hsearch, ok_bind]
      by_cases hresult : s.result = some true
      · right
        obtain ⟨hlo, hmid, hhi⟩ := hs.found hresult
        have hwithin := hs.protocols
        have hrest : ({ s.protocols with begin := s.value.end } : Region).Small := by
          have := hsmall.2
          constructor <;> (dsimp only; omega)
        rw [if_pos hresult]
        by_cases hroom : chans.length < sizeChans
        · rw [if_pos hroom]
          refine ⟨_, rfl, ⟨hrest, hchans.trans (List.prefix_append _ _)⟩, ?_⟩
          change s.protocols.end - s.value.end + 1 < protocols.end - protocols.begin + 1
          omega
        · rw [if_neg hroom]
          exact ⟨_, rfl, ⟨hrest, hchans⟩, Nat.succ_pos _⟩
      · left
        rw [if_neg hresult]
        rfl
  obtain ⟨g', hg', ⟨-, hchans⟩, -⟩ := Lib.loop_spec _ gatherRank hturn ⟨hsmall, List.prefix_refl _⟩ hn
  exact ⟨g', hg', hchans⟩

/-- The first channel that is collected is the number in the region where the search ends. -/
theorem getChannels_first {mem : ℕ → UInt8} {sizeChans : ℕ} (hsize : 0 < sizeChans) {record v : Region}
    (hsmall : record.Small) (hfind : findChannel mem record = .ok (some v)) :
    ∃ chans, sdpParseGetMultipleRfcommServerChannels mem sizeChans record =
      .ok (regionReadUnsigned mem v % 256 :: chans) := by
  obtain ⟨list, hlist, hfound⟩ := findProtocolDescriptorList_locates mem hsmall
  dsimp only at hlist
  rw [findChannel, hlist, ok_bind] at hfind
  rw [sdpParseGetMultipleRfcommServerChannels, hlist, ok_bind]
  rcases list with - | p
  · cases hfind
  · have hp := (hfound p rfl).inside
    have hsmall' : p.Small := by
      have := hsmall.2
      constructor <;> omega
    obtain ⟨s, hs⟩ := findServerChannel_reads mem uuidRfcomm hsmall' ⟨0, 0⟩
    have hsearch := hs.reads.eq
    dsimp only at hsearch hfind ⊢
    rw [hsearch, ok_bind] at hfind
    by_cases hresult : s.result = some true
    · rw [if_pos hresult] at hfind
      obtain rfl := Option.some.inj (Except.ok.inj hfind)
      obtain ⟨hlo, hmid, hhi⟩ := hs.found hresult
      have hwithin := hs.protocols
      have hturn : gatherTurn mem sizeChans ⟨p, ⟨0, 0⟩, [], false⟩ = .ok (some
          ⟨{ s.protocols with begin := s.value.end }, s.value, [regionReadUnsigned mem s.value % 256], false⟩) := by
        rw [gatherTurn, if_neg Bool.false_ne_true]
        dsimp only
        rw [hsearch, ok_bind, if_pos hresult]
        exact if_pos hsize
      have hrest : ({ s.protocols with begin := s.value.end } : Region).Small := by
        have := hsmall'.2
        constructor <;> (dsimp only; omega)
      have hfuel : gatherRank ⟨{ s.protocols with begin := s.value.end }, s.value,
          [regionReadUnsigned mem s.value % 256], false⟩ < regionSize p + 1 := by
        rw [regionSize_eq mem hsmall', length_octets]
        change s.protocols.end - s.value.end + 1 < p.end - p.begin + 1
        omega
      obtain ⟨g, hg, chans, hchans⟩ := gather_ok mem sizeChans hrest hfuel
      refine ⟨chans, ?_⟩
      rw [loop_turn hturn, hg]
      exact congrArg Except.ok hchans.symm
    · rw [if_neg hresult] at hfind
      cases hfind

/-! ### The insertions -/

/-- The readers get what has been inserted, and nothing else is changed, exactly if the number fits where no width is
checked; where it is, the two always agree. -/
theorem inserts_iff (mem : ℕ → UInt8) (record : Region) (hsmall : record.Small) :
    (∀ id value, value < 4294967296 → (Agrees mem record (findAttribute mem id .unsignedInteger record)
      (sdpParseInsertArbitrary mem id value record)
      (fun mem' => sdpParseGetArbitrary mem' id record = .ok (some value)) ↔
        Fits (findAttribute mem id .unsignedInteger record) value)) ∧
    (∀ repos, repos < 256 → (Agrees mem record (findAttribute mem 0x0314 .unsignedInteger record)
      (sdpParseInsertPbapRepos mem repos record) (fun mem' => sdpParseGetPbapRepos mem' record = .ok (some repos)) ↔
        Fits (findAttribute mem 0x0314 .unsignedInteger record) repos)) ∧
    (∀ chan sizeChans, chan < 256 → 0 < sizeChans → (Agrees mem record (findChannel mem record)
      (sdpParseInsertRfcommServerChannel mem chan record)
      (fun mem' => ∃ chans, sdpParseGetMultipleRfcommServerChannels mem' sizeChans record = .ok (chan :: chans)) ↔
        Fits (findChannel mem record) chan)) ∧
    (∀ features, features < 65536 → Agrees mem record (findAttribute mem 0x0311 .unsignedInteger record)
      (sdpParseInsertSupportedFeatures mem features record)
      (fun mem' => sdpParseGetSupportedFeatures mem' record = .ok (some features))) ∧
    ∀ serviceClass profile, profile < 65536 → Agrees mem record (findProfileVersion mem serviceClass record)
      (sdpParseInsertProfileVersion mem serviceClass profile record)
      (fun mem' => sdpParseGetProfileVersion mem' serviceClass record = .ok (some profile)) := by
  refine ⟨fun id value hvalue => ?_, fun repos hrepos => ?_, fun chan sizeChans hchan hsize => ?_, fun features hfeatures => ?_,
    fun serviceClass profile hprofile => ?_⟩
  · refine agrees_fits hsmall (findAttribute_locates mem id _ hsmall) fun v hv => ?_
    rw [← reads_iff hv hvalue (Nat.le_refl _), sdpParseGetArbitrary]
    have hcut : regionReadUnsigned (regionWriteUnsigned mem v value) =
        fun r => regionReadUnsigned (regionWriteUnsigned mem v value) r % 4294967296 := by
      funext r
      rw [regionReadUnsigned_eq, Nat.mod_mod]
    rw [← hcut]
  · exact agrees_fits hsmall (findAttribute_locates mem 0x0314 _ hsmall) fun v hv => reads_iff hv hrepos (by decide)
  · refine agrees_fits hsmall (findChannel_locates mem hsmall) fun v hv => ?_
    obtain ⟨chans, hchans⟩ := getChannels_first hsize hsmall (hv.write chan)
    rw [hchans, read_write hv.inside.2.1, ← @cut_iff chan (v.end - v.begin) 256 hchan (by decide)]
    constructor
    · rintro ⟨chans', heq⟩
      exact (List.cons.inj (Except.ok.inj heq)).1
    · intro heq
      exact ⟨chans, by rw [heq]⟩
  · exact agrees_two hsmall (findAttribute_locates mem 0x0311 _ hsmall) hfeatures fun v hv => reads_iff hv hfeatures (by decide)
  · exact agrees_two hsmall (findProfileVersion_locates mem serviceClass hsmall) hprofile
      fun v hv => reads_iff hv hprofile (by decide)

/-- A record with an attribute of one octet. -/
def oneOctet (i : ℕ) : UInt8 := [0x09, 0x03, 0x00, 0x08, 0x05].getD i 0

theorem find_oneOctet : findAttribute oneOctet 0x0300 .unsignedInteger ⟨0, 5⟩ = .ok (some ⟨4, 5⟩) := by decide

/-- A number of one octet is read back. -/
theorem agrees_oneOctet : Agrees oneOctet ⟨0, 5⟩ (findAttribute oneOctet 0x0300 .unsignedInteger ⟨0, 5⟩)
    (sdpParseInsertArbitrary oneOctet 0x0300 7 ⟨0, 5⟩)
    (fun mem' => sdpParseGetArbitrary mem' 0x0300 ⟨0, 5⟩ = .ok (some 7)) := by
  refine ((inserts_iff oneOctet ⟨0, 5⟩ ⟨by decide, by decide⟩).1 0x0300 7 (by decide)).mpr ?_
  intro v hv
  rw [find_oneOctet] at hv
  obtain rfl := Option.some.inj (Except.ok.inj hv)
  decide

/-- 256 is cut to zero, and the insertion returns TRUE. -/
theorem not_agrees : ¬ Agrees oneOctet ⟨0, 5⟩ (findAttribute oneOctet 0x0300 .unsignedInteger ⟨0, 5⟩)
    (sdpParseInsertArbitrary oneOctet 0x0300 256 ⟨0, 5⟩)
    (fun mem' => sdpParseGetArbitrary mem' 0x0300 ⟨0, 5⟩ = .ok (some 256)) := by
  rintro ⟨result, mem', hinsert, -, htrue⟩
  rw [sdpParseInsertArbitrary, find_oneOctet] at hinsert
  obtain ⟨rfl, rfl⟩ := Prod.mk.inj (Except.ok.inj hinsert)
  have hget : sdpParseGetArbitrary (regionWriteUnsigned oneOctet ⟨4, 5⟩ 256) 0x0300 ⟨0, 5⟩ = .ok (some 0) := by
    decide
  have heq := (htrue rfl).1
  dsimp only at heq
  rw [hget] at heq
  cases heq

end Cbps.SdpParse
