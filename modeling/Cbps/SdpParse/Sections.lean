import Cbps.SdpParse.Search

/-!
# Sections of a list

The octets of a section are a `row` of elements. In such a row the searches accept the first element that `codeMatches`,
and take the element behind it if this is an unsigned integer: the `parameter` of the section.
-/

namespace Cbps.SdpParse

open Lib List

open Service

variable {mem : ℕ → UInt8} {id : ℕ}

/-! ### Rows -/

/-- Elements one behind the other. -/
def row (es : List DataElement) : List UInt8 := es.flatMap DataElement.octets

@[simp] theorem row_nil : row [] = [] := rfl

@[simp] theorem row_cons (e : DataElement) (es : List DataElement) : row (e :: es) = e.octets ++ row es :=
  flatMap_cons

@[simp] theorem row_append (front back : List DataElement) : row (front ++ back) = row front ++ row back :=
  flatMap_append

/-- The value of the element is accepted for the UUID. -/
def accepts (id : ℕ) (e : DataElement) : Bool := codeMatches id e.value

theorem skip_skip (r : Region) (m n : ℕ) : (r.skip m).skip n = r.skip (m + n) := by
  rw [Region.skip, Region.skip, Region.skip, Nat.add_assoc]

/-- Behind the front of its octets a region holds the rest. -/
theorem octets_rest {r : Region} {front rest : List UInt8} (h : r.octets mem = front ++ rest) :
    (r.skip front.length).octets mem = rest := by
  rw [octets_skip, h, drop_left]

theorem small_rest {r : Region} (hsmall : r.Small) {front rest : List UInt8} (h : r.octets mem = front ++ rest) :
    (r.skip front.length).Small :=
  hsmall.skip (by rw [h, length_append]; exact Nat.le_add_right _ _)

theorem length_octets_pos (e : DataElement) : 0 < e.octets.length := by
  rw [e.length_octets]
  omega

/-- The region of the first element is as small as the region that it is read from. -/
theorem small_region {r : Region} (hsmall : r.Small) {e : DataElement} (he : e.octets <+: r.octets mem) :
    (e.region r.begin).Small := by
  have hlen := he.length_le
  rw [length_octets, e.length_octets] at hlen
  have h2 := hsmall.2
  rw [DataElement.region, e.length_octets]
  constructor <;> dsimp only <;> omega

/-! ### The loop over the elements -/

/-- The comparison at the first element of a region. -/
theorem matches_region {r : Region} (hsmall : r.Small) {e : DataElement} (he : e.octets <+: r.octets mem) :
    regionMatchesUuid32 mem (e.region r.begin) id = accepts id e := by
  rw [regionMatchesUuid32_eq (small_region hsmall he), octets_region he, accepts]

/-- The loop goes on to the next element. -/
theorem walkTurn_cons {r v : Region} {type : ServiceDataType} (hsmall : r.Small) {e : DataElement} {rest : List UInt8}
    (hoctets : r.octets mem = e.octets ++ rest) (hmiss : regionMatchesUuid32 mem v id = false) :
    walkTurn mem id ⟨r, type, v, false⟩ =
      .ok (some ⟨r.skip e.octets.length, e.type, e.region r.begin, false⟩) := by
  have he : e.octets <+: r.octets mem := hoctets ▸ prefix_append _ _
  rw [walkTurn]
  dsimp only
  rw [hmiss, getValue_of_begins hsmall he]
  rfl

/-- The elements up to the first that is accepted are passed. -/
theorem loop_found {r v : Region} {type : ServiceDataType} {n : ℕ} (hsmall : r.Small) {front : List DataElement}
    {e : DataElement} {rest : List UInt8} (hoctets : r.octets mem = row (front ++ [e]) ++ rest)
    (hmiss : regionMatchesUuid32 mem v id = false) (hfront : ∀ b ∈ front, accepts id b = false)
    (he : accepts id e = true) (hn : front.length + 2 ≤ n) :
    Lib.loop .endless (walkTurn mem id) n ⟨r, type, v, false⟩ =
      .ok ⟨r.skip (row (front ++ [e])).length, e.type, e.region (r.begin + (row front).length), false⟩ := by
  induction front generalizing r v type n with
  | nil =>
    obtain ⟨n, rfl⟩ : ∃ m, n = m + 1 + 1 := ⟨n - 2, by simp at hn; omega⟩
    have hbegin : r.octets mem = e.octets ++ rest := by simpa using hoctets
    rw [loop_turn (walkTurn_cons hsmall hbegin hmiss), loop_stop]
    · simp
    · have hmatch : regionMatchesUuid32 mem (e.region r.begin) id = true := by
        rw [matches_region hsmall (hbegin ▸ prefix_append _ _), he]
      rw [walkTurn]
      simp [hmatch]
  | cons f front ih =>
    obtain ⟨n, rfl⟩ : ∃ m, n = m + 1 := ⟨n - 1, by simp at hn; omega⟩
    have hbegin : r.octets mem = f.octets ++ (row (front ++ [e]) ++ rest) := by
      rw [hoctets, cons_append, row_cons, append_assoc]
    have hf : regionMatchesUuid32 mem (f.region r.begin) id = false := by
      rw [matches_region hsmall (hbegin ▸ prefix_append _ _), hfront f mem_cons_self]
    rw [loop_turn (walkTurn_cons hsmall hbegin hmiss), ih (small_rest hsmall hbegin) (octets_rest hbegin) hf
      (fun b hb => hfront b (mem_cons_of_mem _ hb)) (by simp at hn; omega), skip_skip, cons_append, row_cons,
      row_cons, length_append, length_append, ← Nat.add_assoc]
    rfl

/-- If no element is accepted, the last one has been read and the end is reached. -/
theorem loop_missing {r v : Region} {type : ServiceDataType} {n : ℕ} (hsmall : r.Small) {es : List DataElement}
    (hoctets : r.octets mem = row es) (hmiss : regionMatchesUuid32 mem v id = false)
    (hes : ∀ b ∈ es, accepts id b = false) (hn : es.length + 2 ≤ n) (hv : v.end = r.begin) :
    ∃ type' v', Lib.loop .endless (walkTurn mem id) n ⟨r, type, v, false⟩ =
      .ok ⟨r.skip (row es).length, type', v', true⟩ ∧ v'.end = r.begin + (row es).length := by
  induction es generalizing r v type n with
  | nil =>
    obtain ⟨n, rfl⟩ : ∃ m, n = m + 1 + 1 := ⟨n - 2, by simp at hn; omega⟩
    have hturn : walkTurn mem id ⟨r, type, v, false⟩ = .ok (some ⟨r, type, v, true⟩) := by
      rw [walkTurn]
      dsimp only
      rw [hmiss, getValue_nil hsmall hoctets]
      rfl
    refine ⟨type, v, ?_, hv⟩
    rw [loop_turn hturn, loop_stop rfl]
    rfl
  | cons e es ih =>
    obtain ⟨n, rfl⟩ : ∃ m, n = m + 1 := ⟨n - 1, by simp at hn; omega⟩
    rw [row_cons] at hoctets
    have he : regionMatchesUuid32 mem (e.region r.begin) id = false := by
      rw [matches_region hsmall (hoctets ▸ prefix_append _ _), hes e mem_cons_self]
    obtain ⟨type', v', hloop, hend⟩ := ih (small_rest hsmall hoctets) (octets_rest hoctets) he
      (fun b hb => hes b (mem_cons_of_mem _ hb)) (by simp at hn; omega) rfl
    refine ⟨type', v', ?_, ?_⟩
    · rw [loop_turn (walkTurn_cons hsmall hoctets hmiss), hloop, skip_skip, row_cons, length_append]
    · rw [hend, row_cons, length_append, ← Nat.add_assoc]
      rfl

theorem length_le_row (es : List DataElement) : es.length ≤ (row es).length := by
  induction es with
  | nil => exact Nat.le_refl _
  | cons e es ih =>
    have := length_octets_pos e
    rw [row_cons, length_append, length_cons]
    omega

/-! ### A section -/

section Enter

variable {s : Region} (hsmall : s.Small) (type : ServiceDataType) (out : Region)

include hsmall

/-- In a section with an element that is accepted, the loop stops behind the first one. -/
theorem enter_found {front : List DataElement} {e : DataElement} {rest : List UInt8}
    (hoctets : s.octets mem = row (front ++ [e]) ++ rest) (hfront : ∀ b ∈ front, accepts id b = false)
    (he : accepts id e = true) : ∃ first, serviceGetValue mem s type out = .ok first ∧ first.result = true ∧
      walk mem id ⟨first.r, first.type, first.out, false⟩ =
        .ok ⟨s.skip (row (front ++ [e])).length, e.type, e.region (s.begin + (row front).length), false⟩ := by
  rcases front with - | ⟨f, front⟩
  · have hbegin : s.octets mem = e.octets ++ rest := by simpa using hoctets
    refine ⟨_, getValue_of_begins hsmall (hbegin ▸ prefix_append _ _) type out, rfl, ?_⟩
    have hmatch : regionMatchesUuid32 mem (e.region s.begin) id = true := by
      rw [matches_region hsmall (hbegin ▸ prefix_append _ _), he]
    rw [walk, loop_stop]
    · simp
    · rw [walkTurn]
      simp [hmatch]
  · have hbegin : s.octets mem = f.octets ++ (row (front ++ [e]) ++ rest) := by
      rw [hoctets, cons_append, row_cons, append_assoc]
    have hsmall' := small_rest hsmall hbegin
    have hmiss : regionMatchesUuid32 mem (f.region s.begin) id = false := by
      rw [matches_region hsmall (hbegin ▸ prefix_append _ _), hfront f mem_cons_self]
    have hfuel : front.length + 2 ≤ regionSize (s.skip f.octets.length) + 2 := by
      have hle := length_le_row (front ++ [e])
      rw [regionSize_eq mem hsmall', octets_rest hbegin, length_append]
      rw [length_append] at hle
      omega
    refine ⟨_, getValue_of_begins hsmall (hbegin ▸ prefix_append _ _) type out, rfl, ?_⟩
    rw [walk, loop_found hsmall' (octets_rest hbegin) hmiss (fun b hb => hfront b (mem_cons_of_mem _ hb)) he hfuel,
      skip_skip, cons_append, row_cons, row_cons, length_append, length_append, ← Nat.add_assoc]
    rfl

/-- In a section without such an element, the loop reaches the end. -/
theorem enter_missing {e : DataElement} {es : List DataElement} (hoctets : s.octets mem = row (e :: es))
    (hes : ∀ b ∈ e :: es, accepts id b = false) : ∃ first type' v', serviceGetValue mem s type out = .ok first ∧
      first.result = true ∧ walk mem id ⟨first.r, first.type, first.out, false⟩ =
        .ok ⟨s.skip (row (e :: es)).length, type', v', true⟩ ∧ v'.end = s.end := by
  rw [row_cons] at hoctets
  have he : e.octets <+: s.octets mem := hoctets ▸ prefix_append _ _
  have hsmall' := small_rest hsmall hoctets
  have hmiss : regionMatchesUuid32 mem (e.region s.begin) id = false := by
    rw [matches_region hsmall he, hes e mem_cons_self]
  have hfuel : es.length + 2 ≤ regionSize (s.skip e.octets.length) + 2 := by
    have hle := length_le_row es
    rw [regionSize_eq mem hsmall', octets_rest hoctets]
    omega
  obtain ⟨type', v', hloop, hend⟩ := @loop_missing _ _ _ _ e.type _ hsmall' _ (octets_rest hoctets) hmiss
    (fun b hb => hes b (mem_cons_of_mem _ hb)) hfuel rfl
  refine ⟨_, type', v', getValue_of_begins hsmall he type out, rfl, ?_, ?_⟩
  · rw [walk, hloop, skip_skip, row_cons, length_append]
  · have hlen := congrArg List.length hoctets
    rw [length_octets, length_append] at hlen
    have hle := hsmall.1
    have hpos : s.begin + e.octets.length + (row es).length = s.end := by omega
    exact hend.trans hpos

end Enter

/-- The parameter of the first element that is accepted, with what is in front of it and what is behind. -/
def parameter (id : ℕ) : List DataElement → Option (List DataElement × DataElement × List DataElement)
  | [] => none
  | e :: es =>
    if accepts id e then
      match es with
      | [] => none
      | x :: back => if x.type = .unsignedInteger then some ([e], x, back) else none
    else (parameter id es).map fun p => (e :: p.1, p.2)

theorem parameter_of_missing {items : List DataElement} (h : ∀ b ∈ items, accepts id b = false) :
    parameter id items = none := by
  induction items with
  | nil => rfl
  | cons e es ih =>
    rw [parameter.eq_def]
    dsimp only
    rw [h e mem_cons_self, ih fun b hb => h b (mem_cons_of_mem _ hb)]
    rfl

section Parameter

variable {front : List DataElement} {e : DataElement} (hfront : ∀ b ∈ front, accepts id b = false)
  (he : accepts id e = true)

include hfront he

theorem parameter_of_last : parameter id (front ++ [e]) = none := by
  induction front with
  | nil => rw [nil_append, parameter, if_pos he]
  | cons f front ih =>
    rw [cons_append, parameter.eq_def]
    dsimp only
    rw [hfront f mem_cons_self, ih fun b hb => hfront b (mem_cons_of_mem _ hb)]
    rfl

theorem parameter_of_found (x : DataElement) (back : List DataElement) : parameter id (front ++ e :: x :: back) =
    if x.type = .unsignedInteger then some (front ++ [e], x, back) else none := by
  induction front with
  | nil => rw [nil_append, parameter, if_pos he, nil_append]
  | cons f front ih =>
    rw [cons_append, parameter.eq_def]
    dsimp only
    rw [hfront f mem_cons_self, ih fun b hb => hfront b (mem_cons_of_mem _ hb), if_neg Bool.false_ne_true]
    split <;> rfl

end Parameter

/-- The first element that is accepted, if there is one. -/
theorem exists_first (id : ℕ) (items : List DataElement) : (∀ b ∈ items, accepts id b = false) ∨
    ∃ front e back, items = front ++ e :: back ∧ (∀ b ∈ front, accepts id b = false) ∧ accepts id e = true := by
  rcases h : items.find? (accepts id) with - | e
  · exact .inl fun b hb => eq_false_of_ne_true (List.find?_eq_none.mp h b hb)
  · obtain ⟨he, front, back, rfl, hfront⟩ := List.find?_eq_some_iff_append.mp h
    exact .inr ⟨front, e, back, rfl, fun b hb => by simpa using hfront b hb, he⟩

theorem parameter_eq_some {items front back : List DataElement} {x : DataElement}
    (h : parameter id items = some (front, x, back)) : items = front ++ x :: back ∧ x.type = .unsignedInteger := by
  rcases exists_first id items with hmissing | ⟨front', e, back', rfl, hfront, he⟩
  · rw [parameter_of_missing hmissing] at h
    cases h
  · rcases back' with - | ⟨y, back'⟩
    · rw [parameter_of_last hfront he] at h
      cases h
    · rw [parameter_of_found hfront he] at h
      split_ifs at h with htype
      simp only [Option.some.injEq, Prod.mk.injEq] at h
      obtain ⟨rfl, rfl, rfl⟩ := h
      exact ⟨by rw [append_assoc]; rfl, htype⟩

end Cbps.SdpParse
