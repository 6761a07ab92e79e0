import Cbps.ObexParse.Safety

/-!
# The values of attributes

`ObexParseDecode` copies the value of an attribute out of an element of the tree: it looks for the first place where the
octets of the tag stand, then for the octet that is assigned with or a quote, and copies what stands between there and
the delimiter. An attribute, by contrast, is a name of its own: in XML the tag's octets stand in front of `=` and behind
white space, outside of quotes, and in a vObject at the beginning of a line, in front of `:`. `decodes_iff` says when the
two agree, with a value that is not longer than requested; the search for the tag does not ask where it stands, and the
requested length is given up as soon as there is a tag.
-/

namespace Cbps.ObexParse

open Lib List Option

open Lib (Yields)

/-- `OBEX_PARSE_MAX_DATA_SIZE`. -/
def obexParseMaxDataSize : ℕ := 30

/-- Octets of an element, and the offset at which they begin. -/
structure Stretch where
  start : ℕ
  octets : List Char
  deriving DecidableEq, Repr

section Code

variable (data : List Char)

/-! ### The code -/

/-- `memcmp( s, tag, tagLen ) == 0`. -/
def memcmpEq (s : ℕ) (tag : List Char) : Except Fault Bool :=
  if s + tag.length ≤ data.length then .ok (decide (tag <+: data.drop s)) else .error .outside

/-- One turn of the loop of `opFindTag`. The flag says that the loop has been left. -/
def opFindTurn (tag : List Char) (st : ℕ × Bool) : Except Fault (Option (ℕ × Bool)) := do
  if st.2 ∨ st.1 = data.length then return none
  else
    let s ← skipWhile data (fun c => tag.head? ≠ some c) st.1
    if (data.length - s) % 65536 < tag.length then return some (data.length, true)
    else if ← memcmpEq data s tag then return some (s, true)
    else return some (s + 1, false)

/-- `opFindTag`. -/
def opFindTag (tag : List Char) (s : ℕ) : Except Fault ℕ :=
  Prod.fst <$> Lib.loop .endless (opFindTurn data tag) (data.length + 2) (s, false)

/-- The octet between a name and its value. -/
def assignChar (type : ObexParseObject) : Char := if type = .xmlElement then '=' else ':'

/-- The octet behind a value without quotes. -/
def delimChar (type : ObexParseObject) : Char := if type = .xmlElement then ' ' else '\n'

/-- `memmove( value, s, valLen )` into a new buffer. -/
def copyOf (s n : ℕ) : Except Fault Stretch :=
  if s + n ≤ data.length then .ok ⟨s, (data.drop s).take n⟩ else .error .outside

/-- The end of `opDecode`: the length is clipped and the octets are copied. `malloc` says which sizes there is memory
for. -/
def opExtract (malloc : ℕ → Bool) (s valLen : ℕ) : Except Fault (Option Stretch × ℕ) := do
  let valLen := if (data.length - s) % 65536 < valLen then data.length - s else valLen
  if valLen ≠ 0 ∧ malloc valLen then return (some (← copyOf data s valLen), valLen)
  else return (none, valLen)

/-- `opDecode`. Without a tag, `[]`, the octets of the whole element are extracted. -/
def opDecode (malloc : ℕ → Bool) (type : ObexParseObject) (tag : List Char) (maxValLen : ℕ) :
    Except Fault (Option Stretch × ℕ) := do
  if tag = [] then opExtract data malloc 0 maxValLen
  else
    let s ← opFindTag data tag 0
    let s ← opSkipToAnyChar data s (assignChar type) '"'
    if s = data.length then return (none, 0)
    else
      let c ← peek data s
      let s ← opSkipSpace data (if c ≠ '"' then s + 1 else s)
      if s = data.length then return (none, 0)
      else
        let c ← peek data s
        let delim := if c = '"' then '"' else delimChar type
        let s := if c = '"' then s + 1 else s
        let w ← opSkipToChar data s delim
        opExtract data malloc s ((w - s) % 65536)

end Code

/-- An element of the tree with its octets, of which there are none if `len` is 0 or `object` is NULL. -/
structure Element where
  type : ObexParseObject
  octets : List Char
  length_lt : octets.length < 65536

/-- `ObexParseDecode`: the copied value and `*maxValLen`. No tag, `[]`, is a NULL pointer or `tagLen` 0. -/
def obexParseDecode (malloc : ℕ → Bool) (element : Option Element) (tag : List Char) (maxValLen : ℕ) :
    Except Fault (Option Stretch × ℕ) :=
  match element with
  | none => .ok (none, maxValLen)
  | some element =>
    if (element.type ≠ .vobjElement ∧ element.type ≠ .xmlElement) ∨ element.octets = [] then .ok (none, maxValLen)
    else
      opDecode element.octets malloc element.type tag
        (if maxValLen = 0 ∨ obexParseMaxDataSize < maxValLen then obexParseMaxDataSize else maxValLen)

/-! ### Places in the element -/

/-- The first place where the octets of the tag stand, or the end. -/
def placeOf (tag : List Char) : List Char → ℕ
  | [] => 0
  | c :: l => if tag <+: c :: l then 0 else placeOf tag l + 1

theorem placeOf_le (tag l : List Char) : placeOf tag l ≤ l.length := by
  induction l with
  | nil => exact Nat.le_refl 0
  | cons c l ih =>
    rw [placeOf]
    split
    · exact Nat.zero_le _
    · exact Nat.succ_le_succ ih

theorem placeOf_of_prefixed {tag l : List Char} (h : tag <+: l) (hl : l ≠ []) : placeOf tag l = 0 := by
  obtain ⟨c, l, rfl⟩ := exists_cons_of_ne_nil hl
  exact if_pos h

/-- The tag stands nowhere in front of its first place. -/
theorem placeOf_le_of_prefixed {tag l : List Char} {q : ℕ} (h : tag <+: l.drop q) : placeOf tag l ≤ q := by
  induction l generalizing q with
  | nil => exact Nat.zero_le _
  | cons c l ih =>
    rw [placeOf]
    split
    · exact Nat.zero_le _
    · rename_i hnot
      cases q with
      | zero => exact absurd h hnot
      | succ q => exact Nat.succ_le_succ (ih h)

theorem placeOf_short {tag l : List Char} (h : l.length < tag.length) : placeOf tag l = l.length := by
  induction l with
  | nil => rfl
  | cons c l ih =>
    rw [placeOf, if_neg fun hprefix => Nat.not_le.mpr h hprefix.length_le, ih (Nat.lt_of_succ_lt h), length_cons]

/-- The octets in front of the first one of the tag are passed over. -/
theorem placeOf_takeWhile {tag : List Char} (htag : tag ≠ []) (l : List Char) :
    placeOf tag l = (l.takeWhile fun c => tag.head? ≠ some c).length +
      placeOf tag (l.drop (l.takeWhile fun c => tag.head? ≠ some c).length) := by
  obtain ⟨t, tag, rfl⟩ := exists_cons_of_ne_nil htag
  induction l with
  | nil => rfl
  | cons c l ih =>
    by_cases hc : t = c
    · simp [hc]
    · rw [placeOf, if_neg fun hprefix => hc (cons_prefix_cons.mp hprefix).1, ih]
      simp [hc]
      omega

variable {data tag : List Char} {s : ℕ}

theorem memcmpEq_eq (h : tag.length ≤ data.length - s) (hs : s ≤ data.length) :
    memcmpEq data s tag = .ok (decide (tag <+: data.drop s)) :=
  if_pos (by omega)

/-- What a turn of the search keeps: where it is going to end. -/
def Aims (data tag : List Char) (target : ℕ) (st : ℕ × Bool) : Prop :=
  st.1 ≤ data.length ∧ if st.2 then st.1 = target else st.1 + placeOf tag (data.drop st.1) = target

/-- A turn stops, or goes on to the same end. -/
theorem Aims.turn {target : ℕ} {st : ℕ × Bool} (htag : tag ≠ []) (hlen : data.length < 65536)
    (h : Aims data tag target st) : opFindTurn data tag st = .ok none ∨
      ∃ st', opFindTurn data tag st = .ok (some st') ∧ Aims data tag target st' ∧
        (if st'.2 then 0 else data.length + 1 - st'.1) < if st.2 then 0 else data.length + 1 - st.1 := by
  obtain ⟨s, left⟩ := st
  obtain ⟨hs, haim⟩ := h
  have hpos : 0 < tag.length := length_pos_iff.mpr htag
  rw [opFindTurn]
  by_cases hstop : left ∨ s = data.length
  · left
    exact if_pos hstop
  · right
    obtain ⟨hleft, hne⟩ := not_or.mp hstop
    obtain rfl : left = false := Bool.eq_false_iff.mpr hleft
    dsimp only at hs
    rw [if_neg hstop]
    rw [skipWhile_eq _ hs, ok_bind]
    have hle := add_length_takeWhile_le (fun c => tag.head? ≠ some c) hs
    have hplace := placeOf_takeWhile htag (data.drop s)
    rw [drop_drop] at hplace
    generalize ((data.drop s).takeWhile fun c => tag.head? ≠ some c).length = n at hle hplace ⊢
    have haim' : s + n + placeOf tag (data.drop (s + n)) = target := by
      have h : s + placeOf tag (data.drop s) = target := haim
      omega
    by_cases hshort : (data.length - (s + n)) % 65536 < tag.length
    · rw [if_pos hshort]
      refine ⟨_, rfl, ⟨Nat.le_refl _, ?_⟩, ?_⟩
      · -- too few octets are left for the tag
        have hend : placeOf tag (data.drop (s + n)) = _ := placeOf_short (by rw [length_drop]; omega)
        rw [length_drop] at hend
        change data.length = target
        omega
      · change 0 < data.length + 1 - s
        omega
    · rw [if_neg hshort, memcmpEq_eq (by omega) hle, ok_bind]
      by_cases hhere : tag <+: data.drop (s + n)
      · rw [if_pos (decide_eq_true hhere)]
        refine ⟨_, rfl, ⟨hle, ?_⟩, ?_⟩
        · have hne' : data.drop (s + n) ≠ [] := by
            intro hnil
            rw [hnil] at hhere
            exact htag (prefix_nil.mp hhere)
          have hzero := placeOf_of_prefixed hhere hne'
          change s + n = target
          omega
        · change 0 < data.length + 1 - s
          omega
      · rw [if_neg (by simpa using hhere)]
        have hlt : s + n < data.length := by omega
        refine ⟨_, rfl, ⟨hlt, ?_⟩, ?_⟩
        · rw [drop_eq_getElem_cons hlt] at hhere haim'
          rw [placeOf, if_neg hhere] at haim'
          change s + n + 1 + placeOf tag (data.drop (s + n + 1)) = target
          omega
        · change data.length + 1 - (s + n + 1) < data.length + 1 - s
          omega

/-- `opFindTag` finds the first place of the tag. -/
theorem opFindTag_eq (htag : tag ≠ []) (hlen : data.length < 65536) :
    opFindTag data tag 0 = .ok (placeOf tag data) := by
  have hstart : Aims data tag (placeOf tag data) (0, false) := ⟨Nat.zero_le _, Nat.zero_add _⟩
  obtain ⟨⟨s, left⟩, hloop, ⟨hs, haim⟩, hstop⟩ := @Lib.loop_spec _ _ Fault.endless _ (Aims data tag (placeOf tag data))
    (fun st => if st.2 then 0 else data.length + 1 - st.1) (fun st h => h.turn htag hlen) (data.length + 2) _ hstart
    (show data.length + 1 - 0 < data.length + 2 by omega)
  rw [opFindTag, hloop]
  refine congrArg Except.ok ?_
  change s = placeOf tag data
  cases left with
  | true => exact haim
  | false =>
    -- only the end stops the loop then
    by_cases hend : s = data.length
    · have h : s + placeOf tag (data.drop s) = placeOf tag data := haim
      rw [hend, drop_length] at h
      rw [hend]
      exact h
    · rcases Aims.turn htag hlen (show Aims data tag _ (s, false) from ⟨hs, haim⟩) with h | ⟨st', hturn, -⟩
      · rw [opFindTurn, if_neg (by simpa using hend)] at h
        obtain ⟨_, _, h⟩ := exists_of_bind_eq_ok h
        split at h
        · cases h
        · obtain ⟨_, _, h⟩ := exists_of_bind_eq_ok h
          split at h <;> cases h
      · rw [hstop] at hturn
        cases hturn

/-! ### What the code copies -/

/-- The offset behind blanks. -/
def skipBlank (data : List Char) (s : ℕ) : ℕ := s + ((data.drop s).takeWhile fun c => c = '\t' ∨ c = ' ').length

/-- A value begins behind blanks, and behind a quote if there is one. -/
def valueStart (data : List Char) (s : ℕ) : ℕ :=
  if data[skipBlank data s]? = some '"' then skipBlank data s + 1 else skipBlank data s

/-- The octet that ends the value. -/
def valueDelim (data : List Char) (type : ObexParseObject) (s : ℕ) : Char :=
  if data[skipBlank data s]? = some '"' then '"' else delimChar type

/-- The first octet to assign with, or the first quote, at or behind `s`. -/
def markFrom (data : List Char) (type : ObexParseObject) (s : ℕ) : ℕ :=
  s + ((data.drop s).takeWhile fun c => c ≠ assignChar type ∧ c ≠ '"').length

/-- The mark of the tag: the first octet to assign with, or the first quote, behind its first place. -/
def markOf (data : List Char) (type : ObexParseObject) (tag : List Char) : ℕ :=
  markFrom data type (placeOf tag data)

/-- A quote belongs to the value, an octet to assign with does not. -/
def behindMark (data : List Char) (mark : ℕ) : ℕ := if data[mark]? = some '"' then mark else mark + 1

/-- The octets of the value behind a mark, up to its delimiter. -/
def behind (data : List Char) (type : ObexParseObject) (mark : ℕ) : Stretch :=
  ⟨valueStart data (behindMark data mark),
    (data.drop (valueStart data (behindMark data mark))).takeWhile
      fun c => c ≠ valueDelim data type (behindMark data mark)⟩

variable {malloc : ℕ → Bool} {type : ObexParseObject}

theorem skipBlank_le (hs : s ≤ data.length) : skipBlank data s ≤ data.length := add_length_takeWhile_le _ hs

theorem opExtract_eq {n : ℕ} (hlen : data.length < 65536) (hs : s ≤ data.length) :
    opExtract data malloc s n = .ok
      (if min n (data.length - s) ≠ 0 ∧ malloc (min n (data.length - s)) then some ⟨s, (data.drop s).take n⟩ else none,
        min n (data.length - s)) := by
  have hclip : (if (data.length - s) % 65536 < n then data.length - s else n) = min n (data.length - s) := by
    rw [Nat.mod_eq_of_lt (by omega)]
    split <;> omega
  rw [opExtract, hclip]
  split
  · rw [copyOf, if_pos (by omega)]
    have htake : (data.drop s).take (min n (data.length - s)) = (data.drop s).take n := by
      rw [← length_drop]
      exact take_eq_take_min.symm
    rw [htake]
    rfl
  · rfl

theorem markOf_le : markOf data type tag ≤ data.length := add_length_takeWhile_le _ (placeOf_le _ _)

theorem le_skipBlank : s ≤ skipBlank data s := Nat.le_add_right _ _

theorem skipBlank_le_valueStart : skipBlank data s ≤ valueStart data s := by
  rw [valueStart]
  split
  · exact Nat.le_succ _
  · exact Nat.le_refl _

/-- Nothing is copied from behind the end. -/
theorem behind_of_le {mark : ℕ} (h : data.length ≤ skipBlank data (behindMark data mark)) :
    (behind data type mark).octets = [] := by
  rw [behind]
  dsimp only
  rw [drop_eq_nil_of_le (h.trans skipBlank_le_valueStart), takeWhile_nil]

/-- With a tag, the value behind the mark of the tag is copied. -/
theorem opDecode_eq (htag : tag ≠ []) (hlen : data.length < 65536) (n : ℕ) :
    opDecode data malloc type tag n = .ok
      (if (behind data type (markOf data type tag)).octets ≠ [] ∧
          malloc (behind data type (markOf data type tag)).octets.length then
        some (behind data type (markOf data type tag)) else none,
        (behind data type (markOf data type tag)).octets.length) := by
  have hmark : markOf data type tag ≤ data.length := markOf_le
  have hfind : opSkipToAnyChar data (placeOf tag data) (assignChar type) '"' = .ok (markOf data type tag) :=
    skipWhile_eq _ (placeOf_le _ _)
  rw [opDecode, if_neg htag, opFindTag_eq htag hlen, ok_bind, hfind, ok_bind]
  generalize markOf data type tag = d at hmark ⊢
  by_cases hend : d = data.length
  · have hbehind : behindMark data d = d + 1 := by
      rw [behindMark, if_neg]
      simp [hend]
    rw [if_pos hend, behind_of_le (by rw [hbehind]; exact (by omega : data.length ≤ d + 1).trans le_skipBlank)]
    rfl
  · have hlt : d < data.length := by omega
    have hfrom : (if data[d] ≠ '"' then d + 1 else d) = behindMark data d := by
      simp only [behindMark, List.getElem?_eq_getElem hlt, some.injEq]
      by_cases hq : data[d] = '"'
      · rw [if_neg (not_not.mpr hq), if_pos hq]
      · rw [if_pos hq, if_neg hq]
    have hle : behindMark data d ≤ data.length := by
      rw [behindMark]
      split <;> omega
    have hskip : opSkipSpace data (behindMark data d) = .ok (skipBlank data (behindMark data d)) := skipWhile_eq _ hle
    rw [if_neg hend, peek_eq hlt, ok_bind, hfrom, hskip, ok_bind]
    by_cases hend' : skipBlank data (behindMark data d) = data.length
    · rw [if_pos hend', behind_of_le hend'.ge]
      rfl
    · have hlt' : skipBlank data (behindMark data d) < data.length :=
        Nat.lt_of_le_of_ne (skipBlank_le hle) hend'
      have hdelim : (if data[skipBlank data (behindMark data d)] = '"' then '"' else delimChar type) =
          valueDelim data type (behindMark data d) := by
        simp only [valueDelim, List.getElem?_eq_getElem hlt', some.injEq]
      have hstart : (if data[skipBlank data (behindMark data d)] = '"' then skipBlank data (behindMark data d) + 1
          else skipBlank data (behindMark data d)) = valueStart data (behindMark data d) := by
        simp only [valueStart, List.getElem?_eq_getElem hlt', some.injEq]
      have hv : valueStart data (behindMark data d) ≤ data.length := by
        rw [← hstart]
        split <;> omega
      have hto : opSkipToChar data (valueStart data (behindMark data d)) (valueDelim data type (behindMark data d)) =
          .ok (valueStart data (behindMark data d) + (behind data type d).octets.length) :=
        skipWhile_eq _ hv
      have hroom : (behind data type d).octets.length ≤ data.length - valueStart data (behindMark data d) := by
        have h := add_length_takeWhile_le (fun c => c ≠ valueDelim data type (behindMark data d)) hv
        change valueStart data (behindMark data d) + (behind data type d).octets.length ≤ _ at h
        omega
      have htake : (data.drop (valueStart data (behindMark data d))).take (behind data type d).octets.length =
          (behind data type d).octets :=
        (prefix_iff_eq_take.mp ( takeWhile_prefix _)).symm
      rw [if_neg hend', peek_eq hlt', ok_bind]
      dsimp only
      rw [hdelim, hstart, hto, ok_bind, Nat.add_sub_cancel_left, Nat.mod_eq_of_lt (by omega),
        opExtract_eq hlen hv, Nat.min_eq_left hroom, htake]
      simp only [ne_eq, length_eq_zero_iff]
      rfl

/-! ### Attributes -/

/-- White space. -/
def IsWhite (c : Char) : Prop := c = ' ' ∨ c = '\t' ∨ c = '\n' ∨ c = '\r'

/-- The octets at which a line ends. -/
def IsBreak (c : Char) : Prop := c = '\n' ∨ c = '\r'

/-- An octet that does not stand in a name. -/
def Separates (type : ObexParseObject) (c : Char) : Prop :=
  IsWhite c ∨ c = '"' ∨ if type = .xmlElement then c = '=' ∨ c = '<' ∨ c = '>' ∨ c = '/' else c = ':' ∨ c = ';'

/-- Quotes that have been opened are closed. -/
def Unquoted (l : List Char) : Prop := l.count '"' % 2 = 0

/-- A name may begin at `q`. In XML this is behind white space in the tag, outside of quotes; a vObject has one name a
line. -/
def NameBegins (data : List Char) (type : ObexParseObject) (q : ℕ) : Prop :=
  if type = .xmlElement then
    (q = 0 ∨ ∃ c, data[q - 1]? = some c ∧ IsWhite c) ∧ Unquoted (data.take q) ∧
      ∀ i < q, data[i]? = some '>' → ¬ Unquoted (data.take i)
  else q = 0 ∨ ∃ c, data[q - 1]? = some c ∧ IsBreak c

/-- What may stand between a name and the octet to assign with: white space, or in a vObject parameters, which may quote
that octet. -/
def Between (type : ObexParseObject) (l : List Char) : Prop :=
  (∀ c ∈ l, IsWhite c ∧ (type = .xmlElement ∨ ¬ IsBreak c)) ∨
    type ≠ .xmlElement ∧ l.head? = some ';' ∧ (∀ c ∈ l, ¬ IsBreak c) ∧ Unquoted l ∧
      ∀ i, l[i]? = some ':' → ¬ Unquoted (l.take i)

/-- An attribute whose name is the tag: the name begins at `q`, and `eq` assigns. -/
structure Attribute (data : List Char) (type : ObexParseObject) (tag : List Char) (q eq : ℕ) : Prop where
  named : tag <+: data.drop q
  isName : tag ≠ [] ∧ ∀ c ∈ tag, ¬ Separates type c
  begins : NameBegins data type q
  le : q + tag.length ≤ eq
  between : Between type ((data.drop (q + tag.length)).take (eq - (q + tag.length)))
  assigns : data[eq]? = some (assignChar type)

/-- The first one of the attributes with that name. -/
def FirstAttribute (data : List Char) (type : ObexParseObject) (tag : List Char) (q eq : ℕ) : Prop :=
  Attribute data type tag q eq ∧ ∀ q' eq', Attribute data type tag q' eq' → q ≤ q'

/-- An octet at which a value ends. -/
def EndsValue (type : ObexParseObject) (quoted : Bool) (c : Char) : Prop :=
  if type = .xmlElement then if quoted then c = '"' else IsWhite c ∨ c = '>'
  else IsBreak c ∨ quoted ∧ c = '"'

instance (type : ObexParseObject) (quoted : Bool) (c : Char) : Decidable (EndsValue type quoted c) := by
  unfold EndsValue IsWhite IsBreak
  infer_instance

/-- The value of the attribute that `eq` assigns. -/
def valueOf (data : List Char) (type : ObexParseObject) (eq : ℕ) : Stretch :=
  ⟨valueStart data (eq + 1),
    (data.drop (valueStart data (eq + 1))).takeWhile
      fun c => ¬ EndsValue type (data[skipBlank data (eq + 1)]? = some '"') c⟩

/-- What is asked for: the value of the first attribute named by the tag, or without a tag the whole element. -/
def IsValue (element : Element) (tag : List Char) (value : Stretch) : Prop :=
  if tag = [] then value = ⟨0, element.octets⟩
  else ∃ q eq, FirstAttribute element.octets element.type tag q eq ∧ value = valueOf element.octets element.type eq

/-- The length that a value may have if `m` octets are requested. -/
def maxLength (m : ℕ) : ℕ := if m = 0 then obexParseMaxDataSize else min m obexParseMaxDataSize

/-- **The promise**: NULL with length 0, or leading octets of the value, not more than requested. -/
def Decodes (malloc : ℕ → Bool) (element : Element) (tag : List Char) (m : ℕ) : Prop :=
  ∃ result len, obexParseDecode malloc (some element) tag m = .ok (result, len) ∧
    match result with
    | none => len = 0
    | some copy => len = copy.octets.length ∧ len ≤ maxLength m ∧
        ∃ value, IsValue element tag value ∧ copy.start = value.start ∧ copy.octets <+: value.octets

/-- The mark of the tag assigns the first attribute with this name, whose value is ended by the delimiter and is not
longer than requested; and there is memory for it. -/
def Marked (malloc : ℕ → Bool) (data : List Char) (type : ObexParseObject) (tag : List Char) (m : ℕ) : Prop :=
  ∃ q, FirstAttribute data type tag q (markOf data type tag) ∧
    (∀ c, (data.drop (valueOf data type (markOf data type tag)).start)[(valueOf data type (markOf data type tag)).octets.length]? =
      some c → c = valueDelim data type (markOf data type tag + 1)) ∧
    (valueOf data type (markOf data type tag)).octets.length ≤ maxLength m ∧
    malloc (valueOf data type (markOf data type tag)).octets.length

/-- No value stands behind the mark of the tag. -/
def Unvalued (data : List Char) (type : ObexParseObject) (tag : List Char) : Prop :=
  ∀ c, data[valueStart data (behindMark data (markOf data type tag))]? = some c →
    c = valueDelim data type (behindMark data (markOf data type tag))

/-- When the code keeps the promise. -/
def Decodable (malloc : ℕ → Bool) (element : Element) (tag : List Char) (m : ℕ) : Prop :=
  if element.octets = [] then m = 0
  else if tag = [] then malloc (min (maxLength m) element.octets.length) = true
  else Unvalued element.octets element.type tag ∨ Marked malloc element.octets element.type tag m

/-! ### Marks and attributes -/

variable {l : List Char}

theorem length_takeWhile_le {p : Char → Bool} {i : ℕ} {c : Char} (h : l[i]? = some c)
    (hc : p c = false) : (l.takeWhile p).length ≤ i := by
  induction l generalizing i with
  | nil => exact Nat.zero_le _
  | cons d l ih =>
    rw [takeWhile_cons]
    split
    · rename_i hd
      cases i with
      | zero =>
        rw [some.inj h, hc] at hd
        cases hd
      | succ i => exact Nat.succ_le_succ (ih h)
    · exact Nat.zero_le _

theorem takeWhile_eq_nil_iff_head {p : Char → Bool} :
    l.takeWhile p = [] ↔ ∀ c, l[0]? = some c → p c = false := by
  cases l with
  | nil => simp
  | cons d l => simp [takeWhile_cons]

/-- A longer run keeps to the shorter one exactly if it ends there. -/
theorem takeWhile_prefix_takeWhile_iff {p r : Char → Bool} (hpr : ∀ c, p c = true → r c = true) :
    l.takeWhile r <+: l.takeWhile p ↔ ∀ c, l[(l.takeWhile p).length]? = some c → r c = false := by
  induction l with
  | nil => simp
  | cons d l ih =>
    by_cases hp : p d = true
    · simpa [takeWhile_cons, hp, hpr d hp] using ih
    · by_cases hr : r d = true <;> simp [hp, hr]

theorem takeWhile_prefix_of_imp {p r : Char → Bool} (hpr : ∀ c, p c = true → r c = true) (l : List Char) :
    l.takeWhile p <+: l.takeWhile r := by
  induction l with
  | nil => exact prefix_rfl
  | cons d l ih =>
    by_cases hp : p d = true
    · rw [takeWhile_cons_of_pos hp, takeWhile_cons_of_pos (hpr d hp)]
      exact cons_prefix_cons.mpr ⟨rfl, ih⟩
    · rw [takeWhile_cons_of_neg hp]
      exact nil_prefix

theorem assignChar_ne_quote (type : ObexParseObject) : assignChar type ≠ '"' := by
  rw [assignChar]
  split <;> decide

theorem assignChar_not_blank (type : ObexParseObject) : ¬ (assignChar type = '\t' ∨ assignChar type = ' ') := by
  rw [assignChar]
  split <;> decide

theorem behindMark_assigns {eq : ℕ} (h : data[eq]? = some (assignChar type)) : behindMark data eq = eq + 1 := by
  rw [behindMark, if_neg]
  rw [h]
  exact fun h => assignChar_ne_quote type (some.inj h)

/-- From an earlier mark, no value can begin behind an octet that assigns. -/
theorem valueStart_le {mark eq : ℕ} (hlt : mark < eq) (h : data[eq]? = some (assignChar type)) :
    valueStart data (behindMark data mark) ≤ eq := by
  have hle : behindMark data mark ≤ eq := by
    rw [behindMark]
    split <;> omega
  have hskip : skipBlank data (behindMark data mark) ≤ eq := by
    have hat : (data.drop (behindMark data mark))[eq - behindMark data mark]? = some (assignChar type) := by
      rw [List.getElem?_drop, Nat.add_sub_cancel' hle]
      exact h
    have := length_takeWhile_le hat (p := fun c => c = '\t' ∨ c = ' ') (decide_eq_false (assignChar_not_blank type))
    rw [skipBlank]
    omega
  rw [valueStart]
  split
  · rename_i hquote
    refine Nat.lt_of_le_of_ne hskip fun heq => assignChar_ne_quote type ?_
    rw [heq, h] at hquote
    exact some.inj hquote
  · exact hskip

/-- The mark of the tag does not lie behind an attribute with that name. -/
theorem Attribute.markOf_le {q eq : ℕ} (h : Attribute data type tag q eq) : markOf data type tag ≤ eq := by
  have hplace := placeOf_le_of_prefixed h.named
  have hle : placeOf tag data ≤ eq := (hplace.trans (Nat.le_add_right _ _)).trans h.le
  have hat : (data.drop (placeOf tag data))[eq - placeOf tag data]? = some (assignChar type) := by
    rw [List.getElem?_drop, Nat.add_sub_cancel' hle]
    exact h.assigns
  have := length_takeWhile_le hat (p := fun c => c ≠ assignChar type ∧ c ≠ '"') (decide_eq_false fun h => h.1 rfl)
  rw [markOf, markFrom]
  omega

/-- The code begins with the value of the attribute only if the mark of the tag is what assigns it. -/
theorem Attribute.markOf_eq {q eq : ℕ} (h : Attribute data type tag q eq)
    (hstart : (behind data type (markOf data type tag)).start = (valueOf data type eq).start) :
    markOf data type tag = eq := by
  rcases Nat.lt_or_eq_of_le h.markOf_le with hlt | heq
  · have hle := valueStart_le hlt h.assigns
    have hvalue : eq < valueStart data (eq + 1) :=
      (le_skipBlank : eq + 1 ≤ _).trans skipBlank_le_valueStart
    have hstart' : valueStart data (behindMark data (markOf data type tag)) = valueStart data (eq + 1) := hstart
    omega
  · exact heq

theorem endsValue_delim (type : ObexParseObject) (s : ℕ) :
    EndsValue type (data[skipBlank data s]? = some '"') (valueDelim data type s) := by
  rw [EndsValue, valueDelim, delimChar]
  by_cases hxml : type = .xmlElement <;> by_cases hquote : data[skipBlank data s]? = some '"' <;>
    simp [hxml, hquote, IsWhite, IsBreak]

section Marked

variable {eq : ℕ} (h : data[eq]? = some (assignChar type))

include h

theorem behind_start : (behind data type eq).start = (valueOf data type eq).start := by
  change valueStart data (behindMark data eq) = _
  rw [behindMark_assigns h]
  rfl

/-- What is copied keeps to the value exactly if the value is ended by the delimiter. -/
theorem behind_prefix_iff : (behind data type eq).octets <+: (valueOf data type eq).octets ↔
    ∀ c, (data.drop (valueOf data type eq).start)[(valueOf data type eq).octets.length]? = some c →
      c = valueDelim data type (eq + 1) := by
  rw [behind, behindMark_assigns h]
  refine (takeWhile_prefix_takeWhile_iff fun c hc => ?_).trans ?_
  · refine decide_eq_true fun hdelim => of_decide_eq_true hc ?_
    rw [hdelim]
    exact endsValue_delim type (eq + 1)
  · simp [valueOf]

theorem octets_valueOf_le : (valueOf data type eq).octets <+: (behind data type eq).octets := by
  rw [behind, behindMark_assigns h]
  refine takeWhile_prefix_of_imp (fun c hc => ?_) _
  refine decide_eq_true fun hdelim => of_decide_eq_true hc ?_
  rw [hdelim]
  exact endsValue_delim type (eq + 1)

end Marked

/-! ### The main result -/

theorem behind_nil_iff {mark : ℕ} : (behind data type mark).octets = [] ↔
    ∀ c, data[valueStart data (behindMark data mark)]? = some c → c = valueDelim data type (behindMark data mark) := by
  refine takeWhile_eq_nil_iff_head.trans ?_
  rw [List.getElem?_drop, Nat.add_zero]
  simp

/-- With a tag: no value, or the value of the attribute. -/
theorem decodes_tag_iff {element : Element} {m : ℕ} (htype : element.type = .vobjElement ∨ element.type = .xmlElement)
    (hne : element.octets ≠ []) (htag : tag ≠ []) :
    Decodes malloc element tag m ↔
      Unvalued element.octets element.type tag ∨ Marked malloc element.octets element.type tag m := by
  have hguard : ¬ ((element.type ≠ .vobjElement ∧ element.type ≠ .xmlElement) ∨ element.octets = []) := by
    rintro (⟨hv, hx⟩ | hnil)
    · exact htype.elim hv hx
    · exact hne hnil
  have hcode : ∀ result len, obexParseDecode malloc (some element) tag m = .ok (result, len) ↔
      (if (behind element.octets element.type (markOf element.octets element.type tag)).octets ≠ [] ∧
          malloc (behind element.octets element.type (markOf element.octets element.type tag)).octets.length then
        some (behind element.octets element.type (markOf element.octets element.type tag)) else none) = result ∧
      (behind element.octets element.type (markOf element.octets element.type tag)).octets.length = len := by
    intro result len
    rw [obexParseDecode, if_neg hguard, opDecode_eq htag element.length_lt, Except.ok.injEq, Prod.mk.injEq]
  constructor
  · rintro ⟨result, len, hresult, hpromise⟩
    obtain ⟨rfl, rfl⟩ := (hcode _ _).mp hresult
    by_cases hnil : (behind element.octets element.type (markOf element.octets element.type tag)).octets = []
    · exact .inl (behind_nil_iff.mp hnil)
    · right
      by_cases hmem : malloc (behind element.octets element.type (markOf element.octets element.type tag)).octets.length
      · rw [if_pos ⟨hnil, hmem⟩] at hpromise
        obtain ⟨-, hmax, value, hvalue, hstart, hprefix⟩ := hpromise
        rw [IsValue, if_neg htag] at hvalue
        obtain ⟨q, eq, hfirst, rfl⟩ := hvalue
        obtain rfl := hfirst.1.markOf_eq hstart
        have heq := hprefix.eq_of_length_le (octets_valueOf_le hfirst.1.assigns).length_le
        rw [heq] at hmax hmem
        exact ⟨q, hfirst, (behind_prefix_iff hfirst.1.assigns).mp hprefix, hmax, hmem⟩
      · rw [if_neg fun h => hmem h.2] at hpromise
        exact absurd (length_eq_zero_iff.mp hpromise) hnil
  · rintro (hnone | ⟨q, hfirst, hend, hmax, hmem⟩)
    · have hnil := behind_nil_iff.mpr hnone
      refine ⟨none, 0, (hcode _ _).mpr ⟨if_neg fun h => h.1 hnil, ?_⟩, rfl⟩
      rw [hnil]
      rfl
    · have hprefix := (behind_prefix_iff hfirst.1.assigns).mpr hend
      have heq := hprefix.eq_of_length_le (octets_valueOf_le hfirst.1.assigns).length_le
      rw [← heq] at hmax hmem
      by_cases hnil : (behind element.octets element.type (markOf element.octets element.type tag)).octets = []
      · refine ⟨none, 0, (hcode _ _).mpr ⟨if_neg fun h => h.1 hnil, ?_⟩, rfl⟩
        rw [hnil]
        rfl
      · refine ⟨_, _, (hcode _ _).mpr ⟨if_pos ⟨hnil, hmem⟩, rfl⟩, rfl, hmax, _, ?_, behind_start hfirst.1.assigns, hprefix⟩
        rw [IsValue, if_neg htag]
        exact ⟨q, _, hfirst, rfl⟩

/-- The requested length, as the code uses it. -/
theorem clipped_eq (m : ℕ) :
    (if m = 0 ∨ obexParseMaxDataSize < m then obexParseMaxDataSize else m) = maxLength m := by
  rw [maxLength]
  split <;> split <;> omega

theorem maxLength_pos (m : ℕ) : 0 < maxLength m := by
  rw [maxLength, obexParseMaxDataSize]
  split <;> omega

/-- Without a tag the element itself is copied. -/
theorem decodes_whole_iff {element : Element} {m : ℕ}
    (htype : element.type = .vobjElement ∨ element.type = .xmlElement) (hne : element.octets ≠ []) :
    Decodes malloc element [] m ↔ malloc (min (maxLength m) element.octets.length) = true := by
  have hguard : ¬ ((element.type ≠ .vobjElement ∧ element.type ≠ .xmlElement) ∨ element.octets = []) := by
    rintro (⟨hv, hx⟩ | hnil)
    · exact htype.elim hv hx
    · exact hne hnil
  have hpos : min (maxLength m) element.octets.length ≠ 0 := by
    have := length_pos_iff.mpr hne
    have := maxLength_pos m
    omega
  have hcode : obexParseDecode malloc (some element) [] m = .ok
      (if malloc (min (maxLength m) element.octets.length) then some ⟨0, element.octets.take (maxLength m)⟩ else none,
        min (maxLength m) element.octets.length) := by
    rw [obexParseDecode, if_neg hguard, clipped_eq, opDecode, if_pos rfl, opExtract_eq element.length_lt (Nat.zero_le _), Nat.sub_zero,
      drop_zero]
    simp only [hpos, ne_eq, not_false_eq_true, true_and]
  constructor
  · rintro ⟨result, len, hresult, hpromise⟩
    rw [hcode] at hresult
    obtain ⟨rfl, rfl⟩ := Prod.mk.inj (Except.ok.inj hresult)
    by_contra hmem
    rw [if_neg hmem] at hpromise
    exact hpos hpromise
  · intro hmem
    rw [if_pos hmem] at hcode
    have hwhole : IsValue element [] ⟨0, element.octets⟩ := by
      rw [IsValue, if_pos rfl]
    refine ⟨_, _, hcode, ?_, Nat.min_le_left _ _, ⟨0, element.octets⟩, hwhole, rfl, take_prefix _ _⟩
    rw [length_take]

/-- Values are extracted as promised exactly if the first octet that assigns, or the first quote, behind the first place
of the tag has no value behind it, or assigns the first attribute with this name, whose value is ended by the delimiter
and is not longer than requested; an element without octets leaves the requested length as it is. -/
theorem decodes_iff (malloc : ℕ → Bool) (element : Element) (tag : List Char) (m : ℕ)
    (htype : element.type = .vobjElement ∨ element.type = .xmlElement) :
    Decodes malloc element tag m ↔ Decodable malloc element tag m := by
  rw [Decodable]
  split
  · rename_i hnil
    have hcode : obexParseDecode malloc (some element) tag m = .ok (none, m) := by
      rw [obexParseDecode, if_pos (.inr hnil)]
    constructor
    · rintro ⟨result, len, hresult, hpromise⟩
      rw [hcode] at hresult
      obtain ⟨rfl, rfl⟩ := Prod.mk.inj (Except.ok.inj hresult)
      exact hpromise
    · intro hm
      exact ⟨none, m, hcode, hm⟩
  · rename_i hne
    split
    · rename_i htag
      rw [htag]
      exact decodes_whole_iff htype hne
    · rename_i htag
      exact decodes_tag_iff htype hne htag

/-- The element of a message. -/
def msgElement : Element := ⟨.xmlElement, "<msg handle=\"203050\" />".toList, by decide⟩

theorem decodes_iff_msg :
    Decodes (fun _ => true) msgElement "handle".toList 0 ↔ Decodable (fun _ => true) msgElement "handle".toList 0 :=
  decodes_iff (fun _ => true) msgElement "handle".toList 0 (.inr rfl)

/-- An element with an attribute whose name ends in another attribute's name. -/
def sizeElement : Element := ⟨.xmlElement, "<msg attachment_size=\"0\" size=\"512\" />".toList, by decide⟩

theorem not_decodes : ¬ Decodes (fun _ => true) sizeElement "size".toList 0 ∧
    ¬ Decodes (fun _ => true) msgElement "handle".toList 5 := by
  constructor
  · rintro ⟨result, len, hresult, hpromise⟩
    have hrun : obexParseDecode (fun _ => true) (some sizeElement) "size".toList 0 = .ok (some ⟨22, ['0']⟩, 1) := by
      decide
    rw [hrun] at hresult
    obtain ⟨rfl, rfl⟩ := Prod.mk.inj (Except.ok.inj hresult)
    obtain ⟨-, -, value, hvalue, hstart, -⟩ := hpromise
    rw [IsValue, if_neg (by decide)] at hvalue
    obtain ⟨q, eq, hfirst, rfl⟩ := hvalue
    have hbehind : (behind sizeElement.octets sizeElement.type
        (markOf sizeElement.octets sizeElement.type "size".toList)).start = 22 := by decide
    have hmark := hfirst.1.markOf_eq (hbehind.trans hstart)
    have heq : markOf sizeElement.octets sizeElement.type "size".toList = 20 := by decide
    -- the tag in front of that `=` is the end of another name
    have hplaces : ∀ q < 17, "size".toList <+: sizeElement.octets.drop q → q = 16 := by decide
    have hle : q + 4 ≤ eq := hfirst.1.le
    obtain rfl := hplaces q (by omega) hfirst.1.named
    obtain ⟨hbegins, -⟩ := hfirst.1.begins
    rcases hbegins with hzero | ⟨c, hc, hwhite⟩
    · cases hzero
    · obtain rfl : '_' = c := some.inj hc
      exact absurd hwhite (by unfold IsWhite; decide)
  · rintro ⟨result, len, hresult, hpromise⟩
    have hrun : obexParseDecode (fun _ => true) (some msgElement) "handle".toList 5 =
        .ok (some ⟨13, "203050".toList⟩, 6) := by
      decide
    rw [hrun] at hresult
    obtain ⟨rfl, rfl⟩ := Prod.mk.inj (Except.ok.inj hresult)
    exact absurd hpromise.2.1 (by decide)

end Cbps.ObexParse
