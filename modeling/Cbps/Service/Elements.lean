import Cbps.Lib.Loop
import Mathlib.Data.List.Basic

/-!
# SDP data elements

A service record is a row of data elements: a descriptor with the type and one of eight size encodings, a size field of
0, 1, 2 or 4 octets, and the value. `ServiceGetValue` takes the first element off a region. `DataElement` is an element
on its own, and `exact_iff` says when the reader takes off an element exactly if the region begins with one: the size
field of four octets is cut to sixteen bits, so an element that claims more than there is can be taken for a short one.
-/

namespace Cbps.Service

open List

open Lib (Yields)

/-! ### Regions -/

/-- An octet outside of the region is looked at, or a loop does not end. -/
inductive Fault
  | outside
  | endless
  deriving DecidableEq, Repr

/-- `Region`: the octets from `begin` up to `end`. -/
structure Region where
  begin : ℕ
  «end» : ℕ
  deriving DecidableEq, Repr

/-- `RegionSize`. -/
def regionSize (r : Region) : ℕ := (r.end - r.begin) % 65536

/-- `r->begin += n`. -/
def Region.skip (r : Region) (n : ℕ) : Region := { r with begin := r.begin + n }

variable (mem : ℕ → UInt8)

/-- `r->begin[i]`. -/
def octetAt (r : Region) (i : ℕ) : Except Fault UInt8 :=
  if r.begin + i < r.end then .ok (mem (r.begin + i)) else .error .outside

/-- The octets of a region. -/
def Region.octets (r : Region) : List UInt8 := (List.range (r.end - r.begin)).map fun i => mem (r.begin + i)

/-! ### The reader -/

/-- `ServiceDataType`: its codes are 0 to 8, and `b>>3` may be a larger one. -/
inductive ServiceDataType
  | nil
  | unsignedInteger
  | signedInteger
  | uuid
  | textString
  | boolean
  | sequence
  | alternative
  | url
  | other (code : ℕ)
  deriving DecidableEq, Repr

/-- The type with a code. -/
def serviceDataType : ℕ → ServiceDataType
  | 0 => .nil
  | 1 => .unsignedInteger
  | 2 => .signedInteger
  | 3 => .uuid
  | 4 => .textString
  | 5 => .boolean
  | 6 => .sequence
  | 7 => .alternative
  | 8 => .url
  | code => .other code

/-- `serviceUnpack16`. -/
def serviceUnpack16 (r : Region) : Except Fault ℕ := do
  let s0 ← octetAt mem r 0
  let s1 ← octetAt mem r 1
  return s0.toNat * 256 + s1.toNat

/-- `serviceUnpack32`. -/
def serviceUnpack32 (r : Region) : Except Fault ℕ := do
  let s0 ← octetAt mem r 0
  let s1 ← octetAt mem r 1
  let s2 ← octetAt mem r 2
  let s3 ← octetAt mem r 3
  return ((s0.toNat * 256 + s1.toNat) * 256 + s2.toNat) * 256 + s3.toNat

/-- The switch of `ServiceGetValue` over `b & 7`: the size of the value, and the region behind the size field. `none` is
`return 0`. -/
def serviceSize (r : Region) (type : ServiceDataType) (b : UInt8) : Except Fault (Option (ℕ × Region)) :=
  match b.toNat % 8 with
  | 1 => .ok (some (2, r))
  | 2 => .ok (some (4, r))
  | 3 => .ok (some (8, r))
  | 4 => .ok (some (16, r))
  | 5 =>
    if regionSize r < 1 then .ok none else do
      let size ← octetAt mem r 0
      return some (size.toNat, r.skip 1)
  | 6 =>
    if regionSize r < 2 then .ok none else do
      let size ← serviceUnpack16 mem r
      return some (size, r.skip 2)
  | 7 =>
    if regionSize r < 4 then .ok none else do
      let size ← serviceUnpack32 mem r
      return some (size % 65536, r.skip 4)
  | _ => .ok (some (if type = .nil then 0 else 1, r))

/-- What a call of `ServiceGetValue` returns and leaves in its arguments. -/
structure Got where
  result : Bool
  r : Region
  type : ServiceDataType
  out : Region
  deriving DecidableEq, Repr

/-- `ServiceGetValue`. -/
def serviceGetValue (r : Region) (type : ServiceDataType) (out : Region) : Except Fault Got := do
  if regionSize r < 1 then return ⟨false, r, type, out⟩
  else
    let b ← octetAt mem r 0
    let type := serviceDataType (b.toNat / 8)
    match ← serviceSize mem (r.skip 1) type b with
    | none => return ⟨false, r.skip 1, type, out⟩
    | some (size, r) =>
      if regionSize r < size then return ⟨false, r, type, out⟩
      else return ⟨true, r.skip size, type, ⟨r.begin, r.begin + size⟩⟩

/-! ### Data elements -/

/-- A number, its most significant octet first. -/
def bigEndian (l : List UInt8) : ℕ := l.foldl (fun n b => n * 256 + b.toNat) 0

/-- How long the size field is. -/
def fieldWidth (b : UInt8) : ℕ :=
  match b.toNat % 8 with
  | 5 => 1
  | 6 => 2
  | 7 => 4
  | _ => 0

/-- The size of the value that a descriptor and a size field declare. -/
def declared (b : UInt8) (field : List UInt8) : ℕ :=
  match b.toNat % 8 with
  | 0 => if serviceDataType (b.toNat / 8) = .nil then 0 else 1
  | 1 => 2
  | 2 => 4
  | 3 => 8
  | 4 => 16
  | _ => bigEndian field

/-- A data element. -/
structure DataElement where
  head : UInt8
  field : List UInt8
  value : List UInt8
  length_field : field.length = fieldWidth head
  length_value : value.length = declared head field

namespace DataElement

/-- The octets of the element. -/
def octets (e : DataElement) : List UInt8 := e.head :: (e.field ++ e.value)

/-- The type of the element. -/
def type (e : DataElement) : ServiceDataType := serviceDataType (e.head.toNat / 8)

/-- Where the value of an element lies that begins at `start`. -/
def region (e : DataElement) (start : ℕ) : Region :=
  ⟨start + 1 + e.field.length, start + e.octets.length⟩

theorem length_octets (e : DataElement) : e.octets.length = 1 + e.field.length + e.value.length := by
  rw [octets, length_cons, length_append]
  omega

end DataElement

/-- **The promise** of the reader: it takes off an element exactly if the region begins with one. -/
def Exact (r : Region) : Prop := ∀ type out, ∃ got, serviceGetValue mem r type out = .ok got ∧
  (got.result = true ↔ ∃ e : DataElement, e.octets <+: r.octets mem) ∧
  ∀ e : DataElement, e.octets <+: r.octets mem →
    got = ⟨true, r.skip e.octets.length, e.type, e.region r.begin⟩

/-- The region begins with a size field of four octets that declares 65536 octets or more, and what sixteen bits are left
of this number is there. -/
def Truncated (r : Region) : Prop := ∃ b field rest, b.toNat % 8 = 7 ∧ field.length = 4 ∧
  r.octets mem = b :: (field ++ rest) ∧ 65536 ≤ bigEndian field ∧ bigEndian field % 65536 ≤ rest.length

/-! ### The octets of a region -/

variable {mem} {r : Region}

/-- A region of at most 65535 octets. -/
def Region.Small (r : Region) : Prop := r.begin ≤ r.end ∧ r.end - r.begin ≤ 65535

theorem length_octets : (r.octets mem).length = r.end - r.begin := by
  rw [Region.octets, length_map, length_range]

theorem regionSize_eq (mem : ℕ → UInt8) (h : r.Small) : regionSize r = (r.octets mem).length := by
  rw [length_octets, regionSize, Nat.mod_eq_of_lt (Nat.lt_succ_of_le h.2)]

theorem octets_skip (n : ℕ) : (r.skip n).octets mem = (r.octets mem).drop n := by
  refine ext_getElem ?_ fun i h1 h2 => ?_
  · rw [length_drop, length_octets, length_octets]
    exact Nat.sub_add_eq _ _ _
  · simp [Region.octets, Region.skip, Nat.add_assoc]

theorem Region.Small.skip (h : r.Small) {n : ℕ} (hn : n ≤ (r.octets mem).length) : (r.skip n).Small := by
  rw [length_octets] at hn
  obtain ⟨hle, hsize⟩ := h
  constructor
  · change r.begin + n ≤ r.end
    omega
  · change r.end - (r.begin + n) ≤ 65535
    omega

theorem octetAt_eq {b : UInt8} {i : ℕ} (h : (r.octets mem)[i]? = some b) : octetAt mem r i = .ok b := by
  obtain ⟨hi, hb⟩ := List.getElem?_eq_some_iff.mp h
  have hlt := hi
  rw [length_octets] at hlt
  rw [octetAt, if_pos (by omega)]
  rw [← hb]
  simp [Region.octets]

/-! ### What the reader takes off -/

theorem fieldWidth_of_long {b : UInt8} (h7 : b.toNat % 8 = 7) : fieldWidth b = 4 := by
  simp [fieldWidth, h7]

theorem declared_of_long {b : UInt8} {field : List UInt8} (h7 : b.toNat % 8 = 7) : declared b field = bigEndian field := by
  simp [declared, h7]

/-- The size, as the code reads it: what sixteen bits are left of the declared one. -/
theorem serviceSize_eq (h : r.Small) {l : List UInt8} (hl : r.octets mem = l) (b : UInt8) :
    serviceSize mem r (serviceDataType (b.toNat / 8)) b = .ok
      (if l.length < fieldWidth b then none
      else some (declared b (l.take (fieldWidth b)) % 65536, r.skip (fieldWidth b))) := by
  have hsize := regionSize_eq mem h
  rw [hl] at hsize
  have hat : ∀ i b, l[i]? = some b → octetAt mem r i = .ok b := fun i b hb => octetAt_eq (hl ▸ hb)
  have hfixed : ∀ n, (.ok (some (n, r)) : Except Fault (Option (ℕ × Region))) =
      .ok (if l.length < 0 then none else some (n, r)) := by
    intro n
    rw [if_neg (Nat.not_lt_zero _)]
  rw [serviceSize, declared, fieldWidth, hsize]
  have hcode : b.toNat % 8 < 8 := Nat.mod_lt _ (by decide)
  generalize b.toNat % 8 = code at hcode ⊢
  match code, hcode with
  | 0, _ =>
    by_cases hnil : serviceDataType (b.toNat / 8) = .nil
    · rw [if_pos hnil]
      exact hfixed 0
    · rw [if_neg hnil]
      exact hfixed 1
  | 1, _ => exact hfixed 2
  | 2, _ => exact hfixed 4
  | 3, _ => exact hfixed 8
  | 4, _ => exact hfixed 16
  | 5, _ =>
    rcases l with - | ⟨n, l⟩
    · rfl
    · have hn : (bigEndian [n]) % 65536 = n.toNat := by
        have hlt := n.toNat_lt
        rw [show bigEndian [n] = n.toNat by simp [bigEndian]]
        omega
      simp [hat 0 n rfl, hn]
  | 6, _ =>
    rcases l with - | ⟨m, - | ⟨n, l⟩⟩
    · rfl
    · rfl
    · have hn : (bigEndian [m, n]) % 65536 = m.toNat * 256 + n.toNat := by
        have := m.toNat_lt
        have := n.toNat_lt
        simp [bigEndian]
        omega
      have hroom : ¬ l.length + 1 + 1 < 2 := by omega
      simp [serviceUnpack16, hat 0 m rfl, hat 1 n rfl, hn, hroom]
  | 7, _ =>
    rcases l with - | ⟨k, - | ⟨m, - | ⟨n, - | ⟨o, l⟩⟩⟩⟩
    · rfl
    · rfl
    · rfl
    · rfl
    · have hn : bigEndian [k, m, n, o] = ((k.toNat * 256 + m.toNat) * 256 + n.toNat) * 256 + o.toNat := by
        simp [bigEndian]
      have hroom : ¬ l.length + 1 + 1 + 1 + 1 < 4 := by omega
      simp [serviceUnpack32, hat 0 k rfl, hat 1 m rfl, hat 2 n rfl, hat 3 o rfl, hn, hroom]
  | code + 8, h => omega

theorem getValue_nil (h : r.Small) (hl : r.octets mem = []) (type : ServiceDataType) (out : Region) :
    serviceGetValue mem r type out = .ok ⟨false, r, type, out⟩ := by
  rw [serviceGetValue, regionSize_eq mem h, hl]
  rfl

theorem octets_skip_one {b : UInt8} {l : List UInt8} (hl : r.octets mem = b :: l) : (r.skip 1).octets mem = l := by
  rw [octets_skip, hl]
  rfl

section Cons

variable {b : UInt8} {l : List UInt8} (h : r.Small) (hl : r.octets mem = b :: l) (type : ServiceDataType) (out : Region)

include h hl

theorem getValue_cons : serviceGetValue mem r type out = (do
    match ← serviceSize mem (r.skip 1) (serviceDataType (b.toNat / 8)) b with
    | none => return ⟨false, r.skip 1, serviceDataType (b.toNat / 8), out⟩
    | some (size, r) =>
      if regionSize r < size then return ⟨false, r, serviceDataType (b.toNat / 8), out⟩
      else return ⟨true, r.skip size, serviceDataType (b.toNat / 8), ⟨r.begin, r.begin + size⟩⟩) := by
  have hat : octetAt mem r 0 = .ok b := octetAt_eq (by rw [hl]; rfl)
  rw [serviceGetValue, regionSize_eq mem h, hl, if_neg (by simp), hat]
  rfl

theorem small_skip_one : (r.skip 1).Small := h.skip (by rw [hl]; simp)

theorem getValue_short (hshort : l.length < fieldWidth b) :
    serviceGetValue mem r type out = .ok ⟨false, r.skip 1, serviceDataType (b.toNat / 8), out⟩ := by
  rw [getValue_cons h hl, serviceSize_eq (small_skip_one h hl) (octets_skip_one hl), if_pos hshort]
  rfl

/-- A size field of the declared width is followed by the value or not. -/
theorem getValue_field {field rest : List UInt8} (hl' : l = field ++ rest) (hfield : field.length = fieldWidth b) :
    serviceGetValue mem r type out = .ok
      (if rest.length < declared b field % 65536 then
        ⟨false, r.skip (1 + field.length), serviceDataType (b.toNat / 8), out⟩
      else
        ⟨true, r.skip (1 + field.length + declared b field % 65536), serviceDataType (b.toNat / 8),
          ⟨r.begin + (1 + field.length), r.begin + (1 + field.length) + declared b field % 65536⟩⟩) := by
  have hsmall := small_skip_one h hl
  have hskip : (r.skip 1).skip field.length = r.skip (1 + field.length) := by
    rw [Region.skip, Region.skip, Region.skip, Nat.add_assoc]
  have hsize : regionSize (r.skip (1 + field.length)) = rest.length := by
    rw [← hskip, regionSize_eq mem (hsmall.skip (by rw [octets_skip_one hl, hl']; simp)), octets_skip,
      octets_skip_one hl, hl', drop_left]
  rw [getValue_cons h hl, serviceSize_eq hsmall (octets_skip_one hl), ← hfield, hl',
    if_neg (by rw [length_append]; omega), List.take_left, hskip, Lib.ok_bind]
  dsimp only
  rw [hsize]
  split
  · rfl
  · rw [Region.skip, Region.skip, Nat.add_assoc]
    rfl

end Cons

/-- An element at the beginning of the region is taken off. -/
theorem getValue_of_begins (h : r.Small) {e : DataElement} (he : e.octets <+: r.octets mem) (type : ServiceDataType)
    (out : Region) : serviceGetValue mem r type out =
      .ok ⟨true, r.skip e.octets.length, e.type, e.region r.begin⟩ := by
  obtain ⟨post, hpost⟩ := he
  have hl : r.octets mem = e.head :: (e.field ++ (e.value ++ post)) := by
    rw [← hpost, DataElement.octets, cons_append, append_assoc]
  have hsmall : e.value.length < 65536 := by
    have hlen := congrArg List.length hl
    rw [length_octets] at hlen
    simp only [length_cons, length_append] at hlen
    have := h.2
    omega
  have hsize : declared e.head e.field % 65536 = e.value.length := by
    rw [← e.length_value, Nat.mod_eq_of_lt hsmall]
  rw [getValue_field h hl type out rfl e.length_field, hsize, if_neg (by rw [length_append]; omega),
    DataElement.region, DataElement.length_octets]
  have hout : (⟨r.begin + (1 + e.field.length), r.begin + (1 + e.field.length) + e.value.length⟩ : Region) =
      ⟨r.begin + 1 + e.field.length, r.begin + (1 + e.field.length + e.value.length)⟩ := by
    rw [Region.mk.injEq]
    exact ⟨by omega, by omega⟩
  rw [hout]
  rfl

/-- Only a size field of four octets can declare more than sixteen bits hold. -/
theorem declared_lt {b : UInt8} {field : List UInt8} (hfield : field.length = fieldWidth b) (h7 : b.toNat % 8 ≠ 7) :
    declared b field < 65536 := by
  have hcode : b.toNat % 8 < 8 := Nat.mod_lt _ (by decide)
  rw [declared]
  rw [fieldWidth] at hfield
  generalize b.toNat % 8 = code at hcode h7 hfield ⊢
  match code, hcode with
  | 0, _ =>
    by_cases hnil : serviceDataType (b.toNat / 8) = .nil
    · simp [hnil]
    · simp [hnil]
  | 1, _ => simp
  | 2, _ => simp
  | 3, _ => simp
  | 4, _ => simp
  | 5, _ =>
    obtain ⟨n, rfl⟩ := length_eq_one_iff.mp hfield
    have hn := n.toNat_lt
    simp [bigEndian]
    omega
  | 6, _ =>
    obtain ⟨m, n, rfl⟩ := List.length_eq_two.mp hfield
    have hm := m.toNat_lt
    have hn := n.toNat_lt
    simp [bigEndian]
    omega
  | 7, _ => exact absurd rfl h7
  | code + 8, h => omega

/-- What is taken off begins with an element, unless its size has been cut. -/
theorem exists_of_getValue (h : r.Small) (hnot : ¬ Truncated mem r) {type : ServiceDataType} {out : Region} {got : Got}
    (hgot : serviceGetValue mem r type out = .ok got) (hresult : got.result = true) :
    ∃ e : DataElement, e.octets <+: r.octets mem := by
  rcases hl : r.octets mem with - | ⟨b, l⟩
  · rw [getValue_nil h hl] at hgot
    rw [← Except.ok.inj hgot] at hresult
    cases hresult
  · by_cases hshort : l.length < fieldWidth b
    · rw [getValue_short h hl type out hshort] at hgot
      rw [← Except.ok.inj hgot] at hresult
      cases hresult
    · have hfield : (l.take (fieldWidth b)).length = fieldWidth b := by
        rw [length_take]
        omega
      have hsplit := (List.take_append_drop (fieldWidth b) l).symm
      generalize l.take (fieldWidth b) = field at hfield hsplit
      generalize l.drop (fieldWidth b) = rest at hsplit
      rw [getValue_field h hl type out hsplit hfield] at hgot
      by_cases hroom : rest.length < declared b field % 65536
      · rw [if_pos hroom] at hgot
        rw [← Except.ok.inj hgot] at hresult
        cases hresult
      · have hlt : declared b field < 65536 := by
          by_contra hge
          have h7 : b.toNat % 8 = 7 := by
            by_contra h7
            exact hge (declared_lt hfield h7)
          rw [declared_of_long h7] at hge hroom
          exact hnot ⟨b, field, rest, h7, hfield.trans (fieldWidth_of_long h7), by rw [hl, hsplit], by omega, by omega⟩
        rw [Nat.mod_eq_of_lt hlt] at hroom
        refine ⟨⟨b, field, rest.take (declared b field), hfield, ?_⟩, rest.drop (declared b field), ?_⟩
        · rw [length_take]
          omega
        · rw [DataElement.octets, cons_append, append_assoc, List.take_append_drop, hsplit]

/-- A region that begins with a size which has been cut does not begin with an element, but is taken for one. -/
theorem Truncated.not_exact (h : r.Small) (htrunc : Truncated mem r) : ¬ Exact mem r := by
  intro hexact
  obtain ⟨b, field, rest, h7, hfour, hl, hge, hroom⟩ := htrunc
  obtain ⟨got, hgot, hiff, -⟩ := hexact .nil r
  have hdeclared : declared b field = bigEndian field := declared_of_long h7
  have hfield : field.length = fieldWidth b := hfour.trans (fieldWidth_of_long h7).symm
  have htrue : got.result = true := by
    rw [getValue_field h hl .nil r rfl hfield, hdeclared, if_neg (Nat.not_lt.mpr hroom)] at hgot
    rw [← Except.ok.inj hgot]
  obtain ⟨e, post, hpost⟩ := hiff.mp htrue
  rw [hl, DataElement.octets, cons_append, append_assoc] at hpost
  obtain ⟨hhead, htail⟩ := List.cons.inj hpost
  have hwidth : e.field.length = field.length := by rw [e.length_field, hhead, hfield]
  obtain ⟨hfields, -⟩ := append_inj htail hwidth
  have hvalue := e.length_value
  rw [hhead, hfields, hdeclared] at hvalue
  have hlen := congrArg List.length (hl.trans hpost.symm)
  rw [length_octets] at hlen
  simp only [length_cons, length_append] at hlen
  have := h.2
  omega

theorem getValue_ok (mem : ℕ → UInt8) (h : r.Small) (type : ServiceDataType) (out : Region) :
    ∃ got, serviceGetValue mem r type out = .ok got := by
  rcases hl : r.octets mem with - | ⟨b, l⟩
  · exact ⟨_, getValue_nil h hl type out⟩
  · by_cases hshort : l.length < fieldWidth b
    · exact ⟨_, getValue_short h hl type out hshort⟩
    · refine ⟨_, getValue_field h hl type out (List.take_append_drop (fieldWidth b) l).symm ?_⟩
      rw [length_take]
      omega

/-- The reader is exact but for a size of four octets that is cut. -/
theorem exact_iff (h : r.Small) : Exact mem r ↔ ¬ Truncated mem r := by
  constructor
  · intro hexact htrunc
    exact htrunc.not_exact h hexact
  · intro hnot type out
    obtain ⟨got, hgot⟩ := getValue_ok mem h type out
    refine ⟨got, hgot, ⟨fun hresult => exists_of_getValue h hnot hgot hresult, ?_⟩, fun e he => ?_⟩
    · rintro ⟨e, he⟩
      rw [getValue_of_begins h he] at hgot
      rw [← Except.ok.inj hgot]
    · rw [getValue_of_begins h he] at hgot
      exact (Except.ok.inj hgot).symm

end Cbps.Service
