import Cbps.SdpParse.Looking
import Cbps.SdpParse.Profiles

/-!
# RFCOMM channels

`SdpParseGetMultipleRfcommServerChannels` collects the channels of the protocol descriptor list. It goes on behind the
channel that it has found, which is right if the section ends there; and the end of a section is noticed only if the last
element that was read ends with it. `getChannels_of_plain` says for which lists the channels are those of the sections.
-/

namespace Cbps.SdpParse

open Lib List

open Service
open Lib (Yields)

variable {mem : ℕ → UInt8}

/-! ### What is to be collected -/

/-- The element is the UUID, in one of its forms. -/
def Denotes (id : ℕ) (e : DataElement) : Prop := (e.type = .uuid ∧ IsForm e.value) ∧ fullUuid e.value = expansion id

instance (id : ℕ) : DecidablePred (Denotes id) := fun _ => inferInstanceAs (Decidable (_ ∧ _))

/-- The unsigned integers that directly follow the UUID. -/
def followers (id : ℕ) : List DataElement → List ℕ
  | e :: x :: es =>
    (if Denotes id e ∧ x.type = .unsignedInteger then [bigEndian x.value] else []) ++ followers id (x :: es)
  | _ => []

/-- The channels of a list. -/
def channels (sections : List Section) : List ℕ := sections.flatMap fun s => followers uuidRfcomm s.items

/-- **The promise** of `SdpParseGetMultipleRfcommServerChannels`. -/
def GetsChannels (mem : ℕ → UInt8) (sizeChans : ℕ) (record : Region) (sections : List Section) : Prop :=
  sdpParseGetMultipleRfcommServerChannels mem sizeChans record = .ok ((channels sections).take sizeChans)

/-- What may stand behind the first UUID of RFCOMM in a section: nothing, its channel, with which the section ends, or
something else, and then no channel behind it. -/
def Section.Single (s : Section) (back : List DataElement) : Prop :=
  back = [] ∨ (∃ x, back = [x] ∧ x.type = .unsignedInteger ∧ bigEndian x.value < 256 ∧ s.tail = []) ∨
    ∃ x back', back = x :: back' ∧ x.type ≠ .unsignedInteger ∧ followers uuidRfcomm back = []

/-- A section that the code reads as it is meant. -/
structure Section.Plain (s : Section) : Prop where
  read : ∀ e ∈ s.items, accepts uuidRfcomm e = true ↔ Denotes uuidRfcomm e
  ends : s.Ends uuidRfcomm
  single : ∀ front e back, s.items = front ++ e :: back → (∀ b ∈ front, ¬ Denotes uuidRfcomm b) → Denotes uuidRfcomm e →
    s.Single back

/-- The sections are read as they are meant, up to the one with which the array is full. -/
def PlainUpTo (sizeChans : ℕ) (sections : List Section) : Prop :=
  ∃ front back, sections = front ++ back ∧ (∀ s ∈ front, s.Plain) ∧ (back = [] ∨ sizeChans ≤ (channels front).length)

/-! ### Plain sections -/

theorem followers_append {id : ℕ} {front back : List DataElement} (h : ∀ b ∈ front, ¬ Denotes id b) :
    followers id (front ++ back) = followers id back := by
  induction front with
  | nil => rfl
  | cons b front ih =>
    have hrest := ih fun b hb => h b (mem_cons_of_mem _ hb)
    rw [← hrest, cons_append]
    rcases front ++ back with - | ⟨x, es⟩
    · rfl
    · rw [followers, if_neg fun hb => h b mem_cons_self hb.1, nil_append]

theorem followers_eq_nil {id : ℕ} {items : List DataElement} (h : ∀ b ∈ items, ¬ Denotes id b) :
    followers id items = [] := by
  have hnil := @followers_append id items [] h
  rwa [append_nil] at hnil

variable {s : Section}

/-- The code sees of a plain section the channel that is there. -/
theorem Section.Plain.cases (h : s.Plain) :
    (parameter uuidRfcomm s.items = none ∧ followers uuidRfcomm s.items = []) ∨
      ∃ front x, parameter uuidRfcomm s.items = some (front, x, []) ∧ followers uuidRfcomm s.items = [bigEndian x.value] ∧
        s.items = front ++ [x] ∧ s.tail = [] ∧ bigEndian x.value < 256 := by
  rcases exists_first uuidRfcomm s.items with hmissing | ⟨front, e, back, hitems, hfront, he⟩
  · refine .inl ⟨parameter_of_missing hmissing, followers_eq_nil fun b hb hdenotes => ?_⟩
    have haccepts := (h.read b hb).mpr hdenotes
    rw [hmissing b hb] at haccepts
    cases haccepts
  · have hmem : ∀ b ∈ front, b ∈ s.items := fun b hb => by simp [hitems, hb]
    have hnot : ∀ b ∈ front, ¬ Denotes uuidRfcomm b := by
      intro b hb hdenotes
      have haccepts := (h.read b (hmem b hb)).mpr hdenotes
      rw [hfront b hb] at haccepts
      cases haccepts
    have hdenotes : Denotes uuidRfcomm e := (h.read e (by simp [hitems])).mp he
    have hsingle := h.single front e back hitems hnot hdenotes
    rw [hitems, followers_append hnot]
    obtain rfl | ⟨x, rfl, htype, hlt, htail⟩ | ⟨x, back', rfl, htype, hnone⟩ := hsingle
    · exact .inl ⟨parameter_of_last hfront he, rfl⟩
    · refine .inr ⟨front ++ [e], x, ?_, ?_, by rw [append_assoc]; rfl, htail, hlt⟩
      · rw [parameter_of_found hfront he, if_pos htype]
      · rw [followers, if_pos ⟨hdenotes, htype⟩]
        rfl
    · refine .inl ⟨?_, ?_⟩
      · rw [parameter_of_found hfront he, if_neg htype]
      · rw [followers, if_neg fun h => htype h.2, nil_append, hnone]

/-! ### The loop over the channels -/

/-- When the array is full, nothing is collected any more. -/
theorem gather_full {p value : Region} (hsmall : p.Small) {sizeChans : ℕ} {chans : List ℕ}
    (hfull : sizeChans ≤ chans.length) (n : ℕ) : ∃ g, Lib.loop .endless (gatherTurn mem sizeChans) (n + 2)
      ⟨p, value, chans, false⟩ = .ok g ∧ g.chans = chans := by
  obtain ⟨s, hsearch⟩ := findServerChannel_reads mem uuidRfcomm hsmall value
  have hs := hsearch.reads.eq
  by_cases hfound : s.result = some true
  · have hturn : gatherTurn mem sizeChans ⟨p, value, chans, false⟩ =
        .ok (some ⟨{ s.protocols with begin := s.value.end }, s.value, chans, true⟩) := by
      rw [gatherTurn, if_neg Bool.false_ne_true]
      dsimp only
      rw [hs, ok_bind, if_pos hfound, if_neg (Nat.not_lt.mpr hfull)]
      rfl
    exact ⟨_, (loop_turn hturn _).trans (loop_stop rfl n), rfl⟩
  · have hturn : gatherTurn mem sizeChans ⟨p, value, chans, false⟩ = .ok none := by
      rw [gatherTurn, if_neg Bool.false_ne_true]
      dsimp only
      rw [hs, ok_bind, if_neg hfound]
      rfl
    exact ⟨_, loop_stop hturn _, rfl⟩

theorem channels_cons (s : Section) (sections : List Section) :
    channels (s :: sections) = followers uuidRfcomm s.items ++ channels sections := flatMap_cons

theorem channels_append (front back : List Section) : channels (front ++ back) = channels front ++ channels back :=
  flatMap_append

variable {sections : List Section}

theorem channels_eq_nil (h : ∀ s ∈ sections, followers uuidRfcomm s.items = []) :
    channels sections = [] := flatMap_eq_nil_iff.mpr h

/-- The first section with a parameter, if there is one. -/
theorem exists_section (id : ℕ) (sections : List Section) : (∀ s ∈ sections, parameter id s.items = none) ∨
    ∃ front s back, sections = front ++ s :: back ∧ (∀ b ∈ front, parameter id b.items = none) ∧
      parameter id s.items ≠ none := by
  rcases h : sections.find? (fun s => (parameter id s.items).isSome) with - | s
  · refine .inl fun s hs => Option.not_isSome_iff_eq_none.mp ?_
    exact List.find?_eq_none.mp h s hs
  · obtain ⟨hs, front, back, rfl, hfront⟩ := List.find?_eq_some_iff_append.mp h
    refine .inr ⟨front, s, back, rfl, fun b hb => ?_, Option.isSome_iff_ne_none.mp hs⟩
    simpa using hfront b hb

variable {front back : List Section}

/-- The channel with which a section ends: its place and its number. -/
theorem channel_at {p : Region} {first : List DataElement} {x : DataElement}
    (hoctets : p.octets mem = listOctets (front ++ s :: back)) (hsome : parameter uuidRfcomm s.items = some (first, x, []))
    (hitems : s.items = first ++ [x]) (htail : s.tail = []) (hlt : bigEndian x.value < 256) :
    (x.region ((s.element.region (p.begin + (listOctets front).length)).begin + (row first).length)).end =
        p.begin + (listOctets (front ++ [s])).length ∧
      regionReadUnsigned mem
        (x.region ((s.element.region (p.begin + (listOctets front).length)).begin + (row first).length)) % 256 =
          bigEndian x.value := by
  rw [listOctets_append, listOctets_cons] at hoctets
  constructor
  · have hvalue := congrArg List.length s.value_eq
    rw [hitems, htail, row_append, row_cons, row_nil, append_nil, append_nil, length_append] at hvalue
    simp only [DataElement.region, listOctets_append, listOctets_cons, length_append, s.element.length_octets]
    simp only [listOctets, map_nil, row_nil, length_nil]
    omega
  · have hread := octets_parameter (p := p.skip (listOctets front).length) (octets_rest hoctets) hsome
    rw [regionReadUnsigned_eq]
    have hvalue : bigEndian ((x.region ((s.element.region (p.begin + (listOctets front).length)).begin +
        (row first).length)).octets mem) = bigEndian x.value := congrArg bigEndian hread
    omega

/-- The channels of plain sections are collected, until the array is full. -/
theorem gather_plain (hplain : ∀ s ∈ front, s.Plain) {p value : Region} (hsmall : p.Small)
    (hoctets : p.octets mem = listOctets (front ++ back)) {sizeChans : ℕ} {chans : List ℕ}
    (hroom : chans.length ≤ sizeChans) (hback : back = [] ∨ sizeChans ≤ chans.length + (channels front).length) {n : ℕ}
    (hn : front.length + 2 ≤ n) : ∃ g, Lib.loop .endless (gatherTurn mem sizeChans) n ⟨p, value, chans, false⟩ = .ok g ∧
      g.chans = chans ++ (channels front).take (sizeChans - chans.length) := by
  induction hlen : front.length using Nat.strong_induction_on generalizing front p value chans n with
  | _ k ih =>
  obtain hlt | hfull := Nat.lt_or_eq_of_le hroom
  · obtain ⟨n, rfl⟩ : ∃ m, n = m + 1 := ⟨n - 1, by omega⟩
    have hends : ∀ s ∈ front, s.Ends uuidRfcomm := fun s hs => (hplain s hs).ends
    have hfuel : front.length + 2 ≤ regionSize p + 2 := by
      have hle := length_le_listOctets (front ++ back)
      rw [regionSize_eq mem hsmall, hoctets]
      rw [length_append] at hle
      omega
    rcases exists_section uuidRfcomm front with hnone | ⟨f, s, rest, hfront, hf, hs⟩
    · -- no section has a channel, and the list ends
      have hchannels : channels front = [] := channels_eq_nil fun s hs => by
        rcases (hplain s hs).cases with ⟨-, hnil⟩ | ⟨_, _, hsome, -⟩
        · exact hnil
        · rw [hnone s hs] at hsome
          cases hsome
      rw [hchannels, length_nil] at hback
      obtain rfl : back = [] := hback.resolve_right (by omega)
      rw [append_nil] at hoctets
      obtain ⟨found, hfound, hresult⟩ := find_missing hsmall hoctets hends hnone .nil value hfuel
      have hturn : gatherTurn mem sizeChans ⟨p, value, chans, false⟩ = .ok none := by
        rw [gatherTurn, if_neg Bool.false_ne_true, findServerChannel]
        dsimp only
        rw [hfound, ok_bind, hresult]
        rfl
      exact ⟨_, loop_stop hturn n, by rw [hchannels, take_nil, append_nil]⟩
    · obtain ⟨hnone, -⟩ | ⟨first, x, hsome, hfollowers, hitems, htail, hlt'⟩ := (hplain s (by simp [hfront])).cases
      · exact absurd hnone hs
      rw [hfront, append_assoc, cons_append] at hoctets
      have hfuel' : f.length + 2 ≤ regionSize p + 2 := by
        rw [hfront, length_append] at hfuel
        omega
      obtain ⟨hend, hread⟩ := channel_at hoctets hsome hitems htail hlt'
      have hfind := find_found hsmall hoctets (fun b hb => hends b (by simp [hfront, hb])) hf hsome .nil value hfuel'
      have hturn : ∃ value', gatherTurn mem sizeChans ⟨p, value, chans, false⟩ =
          .ok (some ⟨p.skip (listOctets (f ++ [s])).length, value', chans ++ [bigEndian x.value], false⟩) := by
        rw [gatherTurn, if_neg Bool.false_ne_true, findServerChannel]
        dsimp only
        rw [hfind, ok_bind, if_pos rfl, if_pos hlt]
        dsimp only
        rw [hread, hend]
        exact ⟨_, rfl⟩
      obtain ⟨value', hturn⟩ := hturn
      have hsplit : p.octets mem = listOctets (f ++ [s]) ++ listOctets (rest ++ back) := by
        rw [hoctets, ← listOctets_append, ← append_cons]
      have hnil : channels f = [] := channels_eq_nil fun b hb => by
        rcases (hplain b (by simp [hfront, hb])).cases with ⟨-, hnil⟩ | ⟨_, _, hsome', -⟩
        · exact hnil
        · rw [hf b hb] at hsome'
          cases hsome'
      have hchannels : channels front = bigEndian x.value :: channels rest := by
        rw [hfront, channels_append, channels_cons, hnil, hfollowers]
        rfl
      rw [hchannels] at hback ⊢
      rw [length_cons] at hback
      have hroom' : (chans ++ [bigEndian x.value]).length ≤ sizeChans := by
        rw [length_append, length_singleton]
        omega
      have hback' : back = [] ∨ sizeChans ≤ (chans ++ [bigEndian x.value]).length + (channels rest).length := by
        refine hback.imp_right fun h => ?_
        rw [length_append, length_singleton]
        omega
      have hshorter : f.length + (rest.length + 1) = front.length := by simp [hfront]
      have hn' : rest.length + 2 ≤ n := by omega
      obtain ⟨g, hg, hchans⟩ := ih rest.length (by omega) (fun b hb => hplain b (by simp [hfront, hb]))
        (small_rest hsmall hsplit) (octets_rest hsplit) hroom' hback' hn' rfl
      refine ⟨g, (loop_turn hturn n).trans hg, ?_⟩
      obtain ⟨m, hm⟩ : ∃ m, sizeChans - chans.length = m + 1 := ⟨sizeChans - chans.length - 1, by omega⟩
      have hm' : sizeChans - (chans ++ [bigEndian x.value]).length = m := by
        rw [length_append, length_singleton]
        omega
      rw [hchans, hm, hm', take_succ_cons, append_assoc]
      rfl
  · obtain ⟨n, rfl⟩ : ∃ m, n = m + 2 := ⟨n - 2, by omega⟩
    obtain ⟨g, hg, hchans⟩ := @gather_full mem p value hsmall _ _ hfull.ge n
    exact ⟨g, hg, by rw [hchans, hfull, Nat.sub_self, take_zero, append_nil]⟩

/-! ### The call -/

/-- The list of protocols of a record, which is empty if the record has none. -/
def Protocols (mem : ℕ → UInt8) (record : Region) (sections : List Section) : Prop :=
  HasList mem 0x0004 record sections ∨
    sections = [] ∧ ∃ attrs, record.octets mem = Service.record attrs ∧ ∀ a ∈ attrs, a.number ≠ 0x0004

theorem findProtocolDescriptorList_eq {record : Region} (hsmall : record.Small)
    (h : HasList mem 0x0004 record sections) : ∃ p, findProtocolDescriptorList mem record = .ok (some p) ∧ p.Small ∧
      p.octets mem = listOctets sections := by
  obtain ⟨next, hfind, hfound⟩ := find_list hsmall h
  have hturn : listTurn mem (start record, none) = .ok (some (next, some true)) := by
    rw [listTurn]
    dsimp only
    rw [hfind, ok_bind]
    dsimp only
    rw [if_pos rfl, if_pos hfound.isSequence]
    rfl
  refine ⟨next.value, ?_, hfound.small, hfound.octets⟩
  rw [findProtocolDescriptorList, loop_turn hturn, loop_stop rfl]
  rfl

theorem findProtocolDescriptorList_none {record : Region} (hsmall : record.Small) {attrs : List Attribute}
    (hoctets : record.octets mem = Service.record attrs) (hnone : ∀ a ∈ attrs, a.number ≠ 0x0004) :
    findProtocolDescriptorList mem record = .ok none := by
  obtain ⟨⟨ok, next⟩, hfind, hpassed⟩ := @find_passes mem 0x0004 (start record) hsmall
  cases ok with
  | true =>
    obtain ⟨front, a, back, rfl, -, ha, -⟩ := hpassed.found _ rfl hoctets
    exact absurd (of_decide_eq_true ha) (hnone a (by simp))
  | false =>
    have hturn : listTurn mem (start record, none) = .ok (some (next, some false)) := by
      rw [listTurn]
      dsimp only
      rw [hfind]
      rfl
    rw [findProtocolDescriptorList, loop_turn hturn, loop_stop rfl]
    rfl

theorem length_rowField (n : UInt8) : [n].length = fieldWidth 0x35 := rfl

theorem isSequence_row : serviceDataType ((0x35 : UInt8).toNat / 8) = .sequence := by decide

theorem row_append_nil (items : List DataElement) : row items = row items ++ [] := (append_nil _).symm

theorem not_octets_prefix_nil (e : DataElement) : ¬ e.octets <+: [] :=
  fun h => cons_ne_nil _ _ (prefix_nil.mp h)

/-- A section of elements with nothing behind them. -/
def rowSection (n : UInt8) (items : List DataElement) (hlength : (row items).length = bigEndian [n]) : Section where
  element := ⟨0x35, [n], row items, length_rowField n, hlength⟩
  items := items
  tail := []
  isSequence := isSequence_row
  value_eq := row_append_nil items
  ends := not_octets_prefix_nil

theorem length_noField : ([] : List UInt8).length = fieldWidth 0x19 := rfl

theorem length_twoOctets (u u' : UInt8) : [u, u'].length = declared 0x19 [] := rfl

/-- A short UUID. -/
def shortUuid (u u' : UInt8) : DataElement := ⟨0x19, [], [u, u'], length_noField, length_twoOctets u u'⟩

theorem length_noNumberField : ([] : List UInt8).length = fieldWidth 0x08 := rfl

theorem length_oneOctet (n : UInt8) : [n].length = declared 0x08 [] := rfl

/-- A number of one octet. -/
def shortNumber (n : UInt8) : DataElement := ⟨0x08, [], [n], length_noNumberField, length_oneOctet n⟩

/-- A section in which nothing is taken for the UUID. -/
theorem plain_of_missing (htail : s.tail = [])
    (h : ∀ e ∈ s.items, accepts uuidRfcomm e = false ∧ ¬ Denotes uuidRfcomm e) : s.Plain := by
  refine ⟨fun e he => ?_, .inl htail, fun front e back hitems _ hdenotes => ?_⟩
  · rw [(h e he).1]
    exact iff_of_false Bool.false_ne_true (h e he).2
  · exact absurd hdenotes (h e (by simp [hitems])).2

/-- A section that ends with the channel. -/
theorem plain_of_channel (htail : s.tail = []) {e x : DataElement} (hitems : s.items = [e, x])
    (he : accepts uuidRfcomm e = true ∧ Denotes uuidRfcomm e) (hx : accepts uuidRfcomm x = false ∧ ¬ Denotes uuidRfcomm x)
    (htype : x.type = .unsignedInteger) (hlt : bigEndian x.value < 256) : s.Plain := by
  refine ⟨fun b hb => ?_, .inl htail, fun front b back hsplit hfront hdenotes => ?_⟩
  · rw [hitems] at hb
    rcases mem_cons.mp hb with rfl | hb
    · exact iff_of_true he.1 he.2
    · rw [mem_singleton.mp hb, hx.1]
      exact iff_of_false Bool.false_ne_true hx.2
  · have hhere : [] ++ e :: [x] = front ++ b :: back := hitems.symm.trans hsplit
    obtain ⟨rfl, rfl, rfl⟩ := @split_unique _ (Denotes uuidRfcomm) _ _ _ _ _ _ hhere
      (fun b hb => (not_mem_nil hb).elim) hfront he.2 hdenotes
    exact .inr (.inl ⟨x, rfl, htype, hlt, htail⟩)

/-- The protocols of a service over RFCOMM on channel 5. -/
def serialPort : List Section :=
  [rowSection 0x03 [shortUuid 0x01 0x00] (by decide), rowSection 0x05 [shortUuid 0x00 0x03, shortNumber 5] (by decide)]

/-- Their record, which has no other attribute. -/
def serialPortRecord (i : ℕ) : UInt8 :=
  [0x09, 0x00, 0x04, 0x35, 0x0C, 0x35, 0x03, 0x19, 0x01, 0x00, 0x35, 0x05, 0x19, 0x00, 0x03, 0x08, 0x05].getD i 0

theorem plain_serialPort : ∀ s ∈ serialPort, s.Plain := by
  intro s hs
  rcases mem_cons.mp hs with rfl | hs
  · exact plain_of_missing rfl (by decide)
  · rw [mem_singleton.mp hs]
    exact plain_of_channel rfl rfl (by decide) (by decide) (by decide) (by decide)

/-- The same protocols, with a parameter behind the channel in which the code finds another one. -/
def nestedPort : List Section :=
  [rowSection 0x0C [shortUuid 0x00 0x03, shortNumber 5, ⟨0x35, [0x05], [0x19, 0x00, 0x03, 0x08, 0x09], rfl, rfl⟩] (by decide)]

end Cbps.SdpParse
