import Cbps.Pblock.Cache
import Mathlib.Data.List.Range

/-!
# The keyed block as a key-value store

What is promised of the block: each entry reads as it was set last, and no word outside the block is touched. With
octets counted as words, little of this is left. Of an entry only the first half is copied, the end of the entries lies
beyond them, so that what memory holds there is taken for entries and only the first one is stored completely, and a
block that `realloc` has given is too short for its own walk. `keeps_of_run` says that the promise is kept in every run
that stays in a block allocated large enough from the start, with memory that holds the second half of the data and
nothing that looks like an entry behind it.
-/

namespace Cbps.Pblock

open List Option Function

open Cbps.Lib

variable {pointer : ℕ} {l l' : Library} {b : Block} {e : Entry} {r : Realloc} {words words' : Words}

variable (pointer) in
/-- **The promise** in a state. -/
structure Keeps (l : Library) : Prop where
  inside : l.strayed = false
  empty : l.pblock = none → ∀ id < 2 ^ 8, l.entries id = none
  reads : ∀ b ∈ l.pblock, ∀ id < 2 ^ 8, b.read pointer id = l.entries id
  visits : ∀ b ∈ l.pblock, ∀ id < 2 ^ 8, ∀ i ∈ b.visited pointer id, b.Inside i 2

/-- Every run keeps the promise, for pointers of 32 bits or more. -/
def AlwaysKeeps : Prop :=
  ∀ pointer, 2 ≤ pointer → ∀ es l, run (Library.step pointer) .initial es = some l → Keeps pointer l

/-- The octets of the place that are not copied are those of the data. -/
def Already (words : Words) (start : ℕ) (data : List ℕ) : Prop :=
  ∀ j < data.length, (2 * j + 1 = data.length → words (start + j) / 2 ^ 8 = data.getD j 0 / 2 ^ 8) ∧
    (data.length ≤ 2 * j → words (start + j) = data.getD j 0)

instance (words : Words) (start : ℕ) (data : List ℕ) : Decidable (Already words start data) := by
  unfold Already
  infer_instance

/-- The words from `i` to `k` look like headers of empty entries. -/
def Blank (words : Words) (i k : ℕ) : Prop := ∀ j < k, i ≤ j → sizeOf (words j) = 0

instance (words : Words) (i k : ℕ) : Decidable (Blank words i k) := by
  unfold Blank
  infer_instance

variable (pointer) in
/-- The condition on a new entry: the block is large enough, and memory is as it should be. -/
structure Fits (b : Block) (e : Entry) : Prop where
  len : b.curLen + e.data.length + 1 ≤ b.len
  room : 2 * (pointer * (b.curLen + e.data.length + 1)) ≤ b.room
  fresh : b.pblockGet pointer e.id = none
  data : Already b.words (b.last pointer + 1) e.data
  blank : Blank b.words (b.last pointer + e.data.length + 1) (pointer * (b.curLen + e.data.length + 1))

variable (pointer) in
/-- The entry that `PblockSet` takes for the one of the id. -/
def Block.existing (b : Block) (id : ℕ) : Option ℕ := (b.pblockGet pointer id).filter fun i => sizeOf (b.words i) ≠ 0

variable (pointer) in
/-- The condition on an entry that is set. -/
def AdmitsSet (b : Block) (e : Entry) (r : Realloc) : Prop :=
  (∀ i ∈ b.existing pointer e.id, sizeOf (b.words i) = e.data.length → Already b.words (i + 1) e.data) ∧
    (b.existing pointer e.id = none → b.RunsOut e r ∨ Fits pointer b e)

variable (pointer) in
/-- The condition on a stored block that is read: it is one entry, and it fits. -/
structure AdmitsInit (value : List ℕ) (len : ℕ) (memory : Words) : Prop where
  one : sizeOf (value.getD 0 0) + 1 = value.length
  length : value.length ≤ (len + value.length) % 2 ^ 8
  room : 2 * (pointer * value.length) ≤ 2 * pointer + value.length + len
  blank : Blank memory value.length (pointer * value.length)

variable (pointer) in
/-- The condition on a step. -/
def AdmitsPblock (l : Library) : Event → Prop
  | .init key len memory => l.ps key ≠ [] → AdmitsInit pointer (l.ps key) len memory
  | .set e r => l.pblock ≠ none ∧ ∀ b ∈ l.pblock, AdmitsSet pointer b e r
  | .store => True

/-! ### Headers and data -/

theorem idOf_header (e : Entry) : idOf e.header = e.id := by
  have := e.id_lt
  unfold idOf Entry.header
  omega

theorem sizeOf_header (e : Entry) : sizeOf e.header = e.data.length := by
  have := e.id_lt
  have := e.length_le
  unfold sizeOf Entry.header
  omega

/-- The half that is copied and the half that was there already. -/
theorem memmove_eq {start : ℕ} {data : List ℕ} (h : Already words start data) {j : ℕ} (hj : j < data.length) :
    memmove words start data data.length (start + j) = data.getD j 0 := by
  obtain ⟨hhalf, hrest⟩ := h j hj
  have hle : start ≤ start + j := Nat.le_add_right _ _
  have hsub : start + j - start = j := Nat.add_sub_cancel_left _ _
  unfold memmove
  dsimp only
  rw [hsub]
  by_cases hwhole : 2 * j + 2 ≤ data.length
  · rw [if_pos ⟨hle, hwhole⟩]
  · rw [if_neg fun hboth => hwhole hboth.2]
    by_cases hodd : 2 * j + 1 = data.length
    · rw [if_pos ⟨hle, hodd⟩, hhalf hodd]
      omega
    · rw [if_neg fun hboth => hodd hboth.2]
      exact hrest (by omega)

theorem memmove_of_not_mem {start : ℕ} {data : List ℕ} {i : ℕ} (h : i < start ∨ start + data.length ≤ i)
    (hpos : 0 < data.length) : memmove words start data data.length i = words i := by
  unfold memmove
  dsimp only
  rw [if_neg (by omega), if_neg (by omega)]

/-! ### The layout -/

variable (pointer) in
/-- Entries laid out from the word count `c` on: each at `pointer * c`, with words behind it that look empty and do not
have the id of an entry to come. -/
def Laid (words : Words) : ℕ → List Entry → Prop
  | _, [] => True
  | c, e :: es =>
    words (pointer * c) = e.header ∧ (∀ j < e.data.length, words (pointer * c + 1 + j) = e.data.getD j 0) ∧
      (∀ i, pointer * c + e.data.length + 1 ≤ i → i < pointer * (c + e.data.length + 1) →
        sizeOf (words i) = 0 ∧ ∀ e' ∈ es, idOf (words i) ≠ e'.id) ∧
      Laid words (c + e.data.length + 1) es

/-- The words that the entries count. -/
def total (es : List Entry) : ℕ := (es.map fun e => e.data.length + 1).sum

/-- The entry of an id. -/
def lookup (es : List Entry) (id : ℕ) : Option (List ℕ) := (es.find? fun e => e.id = id).map Entry.data

variable (pointer) in
/-- The places of laid out entries, and the words between them. -/
def placesOf : ℕ → List Entry → List ℕ
  | _, [] => []
  | c, e :: es =>
    pointer * c :: (List.range' (pointer * c + e.data.length + 1)
      (pointer * (c + e.data.length + 1) - (pointer * c + e.data.length + 1)) ++ placesOf (c + e.data.length + 1) es)

@[simp] theorem total_nil : total [] = 0 := rfl

theorem total_cons (e : Entry) (es : List Entry) : total (e :: es) = e.data.length + 1 + total es := by
  simp [total]

theorem total_append (es fs : List Entry) : total (es ++ fs) = total es + total fs := by
  simp [total]

/-- An entry ends before the place of the next one, and that is not after the end of all. -/
theorem entry_bounds (hpointer : 1 ≤ pointer) (c n t : ℕ) :
    pointer * c + n + 1 ≤ pointer * (c + n + 1) ∧ pointer * (c + n + 1) ≤ pointer * (c + n + 1 + t) := by
  constructor
  · rw [Nat.add_assoc, Nat.add_assoc, Nat.mul_add]
    exact Nat.add_le_add_left (Nat.le_mul_of_pos_left _ hpointer) _
  · exact Nat.mul_le_mul_left _ (Nat.le_add_right _ _)

variable {es : List Entry} {c : ℕ}

/-- The layout is made of the words up to its end. -/
theorem Laid.congr (hpointer : 1 ≤ pointer) (h : Laid pointer words c es)
    (hsame : ∀ i, pointer * c ≤ i → i < pointer * (c + total es) → words' i = words i) :
    Laid pointer words' c es := by
  induction es generalizing c with
  | nil => trivial
  | cons e es ih =>
    obtain ⟨hheader, hdata, hgap, hrest⟩ := h
    have hend : c + total (e :: es) = c + e.data.length + 1 + total es := by rw [total_cons]; omega
    rw [hend] at hsame
    obtain ⟨hlen, hmono⟩ := entry_bounds hpointer c e.data.length (total es)
    refine ⟨?_, fun j hj => ?_, fun i hi hi' => ?_, ?_⟩
    · rw [hsame _ le_rfl (by omega), hheader]
    · rw [hsame _ (by omega) (by omega)]
      exact hdata j hj
    · rw [hsame i (by omega) (by omega)]
      exact hgap i hi hi'
    · exact ih hrest fun i hi hi' => hsame i (by omega) hi'

/-- The walk over words that look empty takes each of them. -/
theorem places_blank {last i n fuel : ℕ} (hblank : ∀ j, i ≤ j → j < i + n → sizeOf (words j) = 0)
    (hlast : i + n ≤ last) (hfuel : n ≤ fuel) :
    places words last fuel i = List.range' i n ++ places words last (fuel - n) (i + n) := by
  induction n generalizing i fuel with
  | zero => simp
  | succ n ih =>
    obtain ⟨fuel, rfl⟩ : ∃ k, fuel = k + 1 := ⟨fuel - 1, by omega⟩
    have hzero : sizeOf (words i) = 0 := hblank i le_rfl (by omega)
    have hnext : places words last fuel (i + 1) =
        List.range' (i + 1) n ++ places words last (fuel - n) (i + 1 + n) :=
      ih (fun j hj hj' => hblank j (by omega) (by omega)) (by omega) (by omega)
    rw [places, if_pos (by omega), hzero, Nat.add_zero, hnext, range'_succ, List.cons_append,
      Nat.add_sub_add_right, Nat.add_assoc i 1 n, Nat.add_comm 1 n]

/-- **The walk** over laid out entries. -/
theorem places_eq (hpointer : 1 ≤ pointer) (h : Laid pointer words c es) (fuel : ℕ)
    (hfuel : pointer * (c + total es) - pointer * c ≤ fuel) :
    places words (pointer * (c + total es)) fuel (pointer * c) = placesOf pointer c es := by
  induction es generalizing c fuel with
  | nil =>
    cases fuel with
    | zero => rfl
    | succ fuel =>
      rw [places, if_neg (by simp)]
      rfl
  | cons e es ih =>
    obtain ⟨hheader, -, hgap, hrest⟩ := h
    have hend : c + total (e :: es) = c + e.data.length + 1 + total es := by rw [total_cons]; omega
    rw [hend] at hfuel ⊢
    obtain ⟨hlen, hmono⟩ := entry_bounds hpointer c e.data.length (total es)
    obtain ⟨gap, hgapdef⟩ :
        ∃ n, n = pointer * (c + e.data.length + 1) - (pointer * c + e.data.length + 1) := ⟨_, rfl⟩
    have hjoin : pointer * c + e.data.length + 1 + gap = pointer * (c + e.data.length + 1) := by omega
    obtain ⟨fuel, rfl⟩ : ∃ k, fuel = k + 1 := ⟨fuel - 1, by omega⟩
    rw [places, if_pos (by omega), hheader, sizeOf_header, placesOf, ← hgapdef,
      places_blank (n := gap) (fun j hj hj' => (hgap j hj (by omega)).1) (by omega) (by omega), hjoin,
      ih hrest _ (by omega)]

/-- The places lie before the end, in the order of the entries. -/
theorem mem_placesOf (hpointer : 1 ≤ pointer) {c i : ℕ} (h : i ∈ placesOf pointer c es) :
    pointer * c ≤ i ∧ i < pointer * (c + total es) := by
  induction es generalizing c with
  | nil => cases h
  | cons e es ih =>
    have hend : c + total (e :: es) = c + e.data.length + 1 + total es := by rw [total_cons]; omega
    obtain ⟨hlen, hmono⟩ := entry_bounds hpointer c e.data.length (total es)
    rw [hend]
    rw [placesOf, mem_cons, mem_append, mem_range'_1] at h
    rcases h with rfl | h | h
    · omega
    · omega
    · obtain ⟨hlow, hhigh⟩ := ih h
      omega

variable {id : ℕ}

theorem lookup_cons_of_eq (es : List Entry) (h : e.id = id) : lookup (e :: es) id = some e.data := by
  simp [lookup, h]

theorem lookup_cons_of_ne (es : List Entry) (h : e.id ≠ id) : lookup (e :: es) id = lookup es id := by
  simp [lookup, h]

theorem lookup_eq_none (h : ∀ e ∈ es, id ≠ e.id) : lookup es id = none := by
  unfold lookup
  rw [map_eq_none_iff, List.find?_eq_none]
  intro e he
  simpa using fun heq => h e he heq.symm

/-- **What the walk finds**: the entry of the id, or nothing, or a word that looks empty. -/
theorem find_placesOf (hpointer : 1 ≤ pointer) (h : Laid pointer words c es) (id : ℕ) :
    ((placesOf pointer c es).find? (fun i => idOf (words i) = id) = none ∧ lookup es id = none) ∨
      ∃ i, (placesOf pointer c es).find? (fun i => idOf (words i) = id) = some i ∧
        ((sizeOf (words i) = 0 ∧ lookup es id = none) ∨
          ∃ data, lookup es id = some data ∧ sizeOf (words i) = data.length ∧ 0 < data.length ∧
            i + data.length + 1 ≤ pointer * (c + total es) ∧ ∀ j < data.length, words (i + 1 + j) = data.getD j 0) := by
  induction es generalizing c with
  | nil => exact .inl ⟨rfl, rfl⟩
  | cons e es ih =>
    obtain ⟨hheader, hdata, hgap, hrest⟩ := h
    have hend : c + total (e :: es) = c + e.data.length + 1 + total es := by rw [total_cons]; omega
    obtain ⟨hlen, hmono⟩ := entry_bounds hpointer c e.data.length (total es)
    rw [hend]
    by_cases hid : e.id = id
    · have hword : idOf (words (pointer * c)) = id := by rw [hheader, idOf_header, hid]
      refine .inr ⟨pointer * c, ?_, .inr ⟨e.data, lookup_cons_of_eq es hid, ?_, e.pos, hlen.trans hmono, hdata⟩⟩
      · rw [placesOf, List.find?_cons_of_pos (by simpa using hword)]
      · rw [hheader, sizeOf_header]
    · have hword : idOf (words (pointer * c)) ≠ id := by rwa [hheader, idOf_header]
      rw [placesOf, List.find?_cons_of_neg (by simpa using hword), List.find?_append, lookup_cons_of_ne es hid]
      cases hfind : (List.range' (pointer * c + e.data.length + 1)
          (pointer * (c + e.data.length + 1) - (pointer * c + e.data.length + 1))).find?
            (fun i => idOf (words i) = id) with
      | none => exact ih hrest
      | some i =>
        -- a word between the entries has the id, so none of the entries to come has it
        have hmem := mem_range'_1.mp (mem_of_find?_eq_some hfind)
        have hi : idOf (words i) = id := by simpa using List.find?_some hfind
        obtain ⟨hzero, hne⟩ := hgap i hmem.1 (by omega)
        exact .inr ⟨i, rfl, .inl ⟨hzero, lookup_eq_none fun e' he' => hi ▸ hne e' he'⟩⟩

/-! ### A block with entries laid out -/

variable (pointer) in
/-- The block holds the entries. -/
structure Holds (b : Block) (es : List Entry) : Prop where
  laid : Laid pointer b.words 0 es
  count : b.curLen = total es
  room : 2 * (pointer * total es) ≤ b.room
  nodup : (es.map Entry.id).Nodup
  len_lt : b.len < 2 ^ 8
  cur_lt : b.curLen < 2 ^ 8

theorem Holds.walk_eq (hpointer : 1 ≤ pointer) (h : Holds pointer b es) :
    b.walk pointer = placesOf pointer 0 es := by
  have hplaces := places_eq hpointer h.laid (pointer * total es) (by rw [Nat.zero_add]; omega)
  rw [Nat.zero_add, Nat.mul_zero] at hplaces
  unfold Block.walk Block.last
  rw [h.count]
  exact hplaces

/-- Each entry reads as it is. -/
theorem Holds.read_eq (hpointer : 1 ≤ pointer) (h : Holds pointer b es) (id : ℕ) :
    b.read pointer id = lookup es id := by
  unfold Block.read Block.pblockGet
  rw [h.walk_eq hpointer]
  rcases find_placesOf hpointer h.laid id with ⟨hfind, hnone⟩ | ⟨i, hfind, hcase⟩
  · rw [hfind, hnone]
  · rw [hfind]
    dsimp only
    rcases hcase with ⟨hzero, hnone⟩ | ⟨data, hdata, hsize, hpos, -, hwords⟩
    · rw [if_pos hzero, hnone]
    · rw [if_neg (by omega), hdata, hsize]
      congr 1
      refine ext_getElem (by simp) fun j hj _ => ?_
      have hjlt : j < data.length := by simpa using hj
      rw [getElem_map, getElem_range, hwords j hjlt, getD_eq_getElem?_getD,
        List.getElem?_eq_getElem hjlt, getD_some]

/-- The walk stays in the block. -/
theorem Holds.visited_inside (hpointer : 1 ≤ pointer) (h : Holds pointer b es) (id : ℕ) :
    ∀ i ∈ b.visited pointer id, b.Inside i 2 := by
  intro i hi
  have hmem : i ∈ b.walk pointer := by
    unfold Block.visited at hi
    rcases mem_append.mp hi with hi | hi
    · exact takeWhile_subset _ hi
    · exact mem_of_find?_eq_some (mem_toList.mp hi)
  rw [h.walk_eq hpointer] at hmem
  obtain ⟨-, hlt⟩ := mem_placesOf hpointer hmem
  have hroom := h.room
  rw [Nat.zero_add] at hlt
  unfold Block.Inside
  omega

/-! ### An entry that is set again -/

/-- The entries with one of them set. -/
def replaced (es : List Entry) (e : Entry) : List Entry := es.map fun f => if f.id = e.id then e else f

theorem map_id_replaced (es : List Entry) (e : Entry) : (replaced es e).map Entry.id = es.map Entry.id := by
  unfold replaced
  rw [List.map_map]
  refine map_congr_left fun f _ => ?_
  dsimp only [Function.comp]
  split
  · next h => exact h.symm
  · rfl

theorem replaced_of_forall_ne (h : ∀ f ∈ es, f.id ≠ e.id) : replaced es e = es := by
  unfold replaced
  conv_rhs => rw [← List.map_id es]
  exact map_congr_left fun f hf => if_neg (h f hf)

theorem replaced_cons (f : Entry) (es : List Entry) (e : Entry) :
    replaced (f :: es) e = (if f.id = e.id then e else f) :: replaced es e := rfl

theorem lookup_replaced_of_ne (h : id ≠ e.id) :
    lookup (replaced es e) id = lookup es id := by
  induction es with
  | nil => rfl
  | cons f es ih =>
    rw [replaced_cons]
    by_cases hf : f.id = e.id
    · rw [if_pos hf, lookup_cons_of_ne _ h.symm, lookup_cons_of_ne _ (hf.trans_ne h.symm), ih]
    · rw [if_neg hf]
      by_cases hid : f.id = id
      · rw [lookup_cons_of_eq _ hid, lookup_cons_of_eq _ hid]
      · rw [lookup_cons_of_ne _ hid, lookup_cons_of_ne _ hid, ih]

theorem lookup_replaced_self (h : lookup es e.id ≠ none) :
    lookup (replaced es e) e.id = some e.data := by
  induction es with
  | nil => exact absurd rfl h
  | cons f es ih =>
    rw [replaced_cons]
    by_cases hf : f.id = e.id
    · rw [if_pos hf, lookup_cons_of_eq _ rfl]
    · rw [if_neg hf, lookup_cons_of_ne _ hf]
      rw [lookup_cons_of_ne _ hf] at h
      exact ih h

/-- The lookup after an entry that is there has been set. -/
theorem lookup_replaced (h : lookup es e.id ≠ none) :
    lookup (replaced es e) = Function.update (lookup es) e.id (some e.data) := by
  funext id
  by_cases hid : id = e.id
  · rw [hid, update_self, lookup_replaced_self h]
  · rw [update_of_ne hid, lookup_replaced_of_ne hid]

/-- The lookup after an entry has been added. -/
theorem lookup_append (h : lookup es e.id = none) :
    lookup (es ++ [e]) = Function.update (lookup es) e.id (some e.data) := by
  funext id
  induction es with
  | nil =>
    by_cases hid : id = e.id
    · rw [hid, update_self, nil_append, lookup_cons_of_eq _ rfl]
    · rw [update_of_ne hid, nil_append, lookup_cons_of_ne _ fun h => hid h.symm]
  | cons f es ih =>
    by_cases hf : f.id = e.id
    · rw [lookup_cons_of_eq _ hf] at h
      cases h
    · rw [lookup_cons_of_ne _ hf] at h
      by_cases hid : f.id = id
      · rw [update_of_ne (hid ▸ hf), List.cons_append, lookup_cons_of_eq _ hid, lookup_cons_of_eq _ hid]
      · rw [List.cons_append, lookup_cons_of_ne _ hid, ih h]
        by_cases hid' : id = e.id
        · rw [hid', update_self, update_self]
        · rw [update_of_ne hid', update_of_ne hid', lookup_cons_of_ne _ hid]

/-- **Setting an entry again** where it is found changes its data alone. -/
theorem Laid.setAgain (hpointer : 1 ≤ pointer) {c i : ℕ} (h : Laid pointer words c es)
    (hnodup : (es.map Entry.id).Nodup) (hfind : (placesOf pointer c es).find? (fun i => idOf (words i) = e.id) = some i)
    (hsize : sizeOf (words i) = e.data.length) (halready : Already words (i + 1) e.data) :
    Laid pointer (memmove words (i + 1) e.data e.data.length) c (replaced es e) := by
  induction es generalizing c with
  | nil => cases hfind
  | cons f es ih =>
    obtain ⟨hheader, hdata, hgap, hrest⟩ := h
    rw [map_cons, nodup_cons] at hnodup
    obtain ⟨hlen, hmono⟩ := entry_bounds hpointer c f.data.length (total es)
    rw [replaced_cons]
    by_cases hid : f.id = e.id
    · have hword : idOf (words (pointer * c)) = e.id := by rw [hheader, idOf_header, hid]
      rw [placesOf, List.find?_cons_of_pos (by simpa using hword)] at hfind
      obtain rfl : pointer * c = i := some.inj hfind
      have hlength : e.data.length = f.data.length := by rw [← hsize, hheader, sizeOf_header]
      have hother : replaced es e = es :=
        replaced_of_forall_ne fun f' hf' heq => hnodup.1 (hid ▸ heq ▸ List.mem_map_of_mem hf')
      have hsame (j : ℕ) (hj : j < pointer * c + 1 ∨ pointer * c + f.data.length + 1 ≤ j) :
          memmove words (pointer * c + 1) e.data e.data.length j = words j :=
        memmove_of_not_mem (by omega) e.pos
      rw [if_pos hid, hother]
      refine ⟨?_, fun j hj => memmove_eq halready hj, fun j hj hj' => ?_, ?_⟩
      · rw [hsame _ (by omega), hheader]
        unfold Entry.header
        rw [hid, hlength]
      · rw [hlength] at hj hj'
        rw [hsame j (by omega)]
        exact hgap j hj hj'
      · have hnext : c + e.data.length + 1 = c + f.data.length + 1 := by rw [hlength]
        rw [hnext]
        exact hrest.congr hpointer fun j hj _ => hsame j (by omega)
    · have hword : idOf (words (pointer * c)) ≠ e.id := by rwa [hheader, idOf_header]
      rw [placesOf, List.find?_cons_of_neg (by simpa using hword), List.find?_append] at hfind
      have hskip : (List.range' (pointer * c + f.data.length + 1)
          (pointer * (c + f.data.length + 1) - (pointer * c + f.data.length + 1))).find?
            (fun i => idOf (words i) = e.id) = none := by
        cases hgapfind : (List.range' (pointer * c + f.data.length + 1)
          (pointer * (c + f.data.length + 1) - (pointer * c + f.data.length + 1))).find?
            (fun i => idOf (words i) = e.id) with
        | none => rfl
        | some j =>
          -- a word between the entries looks empty, and the one found does not
          have hmem := mem_range'_1.mp (mem_of_find?_eq_some hgapfind)
          rw [hgapfind, some_or] at hfind
          have hzero := (hgap j hmem.1 (by omega)).1
          rw [some.inj hfind, hsize] at hzero
          exact absurd hzero e.pos.ne'
      rw [hskip, none_or] at hfind
      have hbound := (mem_placesOf hpointer (mem_of_find?_eq_some hfind)).1
      have hsame (j : ℕ) (hj : j < pointer * (c + f.data.length + 1)) :
          memmove words (i + 1) e.data e.data.length j = words j :=
        memmove_of_not_mem (.inl (by omega)) e.pos
      rw [if_neg hid]
      refine ⟨?_, fun j hj => ?_, fun j hj hj' => ?_, ih hrest hnodup.2 hfind⟩
      · rw [hsame _ (by omega), hheader]
      · rw [hsame _ (by omega), hdata j hj]
      · rw [hsame j hj']
        obtain ⟨hzero, hne⟩ := hgap j hj hj'
        refine ⟨hzero, fun f' hf' => ?_⟩
        have hids : f'.id ∈ es.map Entry.id := map_id_replaced es e ▸ List.mem_map_of_mem hf'
        obtain ⟨g, hg, hgid⟩ := List.mem_map.mp hids
        exact hgid ▸ hne g hg

/-! ### A new entry -/

/-- **A new entry** at the end of a layout in which no place has its id. -/
theorem Laid.append (h : Laid pointer words c es)
    (hnew : Laid pointer words (c + total es) [e]) (hids : ∀ i ∈ placesOf pointer c es, idOf (words i) ≠ e.id) :
    Laid pointer words c (es ++ [e]) := by
  induction es generalizing c with
  | nil => exact hnew
  | cons f es ih =>
    obtain ⟨hheader, hdata, hgap, hrest⟩ := h
    have hend : c + total (f :: es) = c + f.data.length + 1 + total es := by rw [total_cons]; omega
    rw [hend] at hnew
    rw [placesOf] at hids
    refine ⟨hheader, hdata, fun j hj hj' => ?_, ih hrest hnew fun i hi => hids i ?_⟩
    · obtain ⟨hzero, hne⟩ := hgap j hj hj'
      refine ⟨hzero, fun f' hf' => ?_⟩
      rcases mem_append.mp hf' with hf' | hf'
      · exact hne f' hf'
      · rw [mem_singleton.mp hf']
        exact hids j (mem_cons_of_mem _ (mem_append_left _ (mem_range'_1.mpr ⟨hj, by omega⟩)))
    · exact mem_cons_of_mem _ (mem_append_right _ hi)

/-- The words after a header and data have been written. -/
theorem append_words (b : Block) (e : Entry) (h : Already b.words (b.last pointer + 1) e.data) :
    ((b.append pointer e).store (b.last pointer) e.data).words (b.last pointer) = e.header ∧
      (∀ j < e.data.length,
        ((b.append pointer e).store (b.last pointer) e.data).words (b.last pointer + 1 + j) = e.data.getD j 0) ∧
      ∀ i, i < b.last pointer ∨ b.last pointer + e.data.length + 1 ≤ i →
        ((b.append pointer e).store (b.last pointer) e.data).words i = b.words i := by
  have hupdate (i : ℕ) (hi : i ≠ b.last pointer) : (b.append pointer e).words i = b.words i :=
    update_of_ne hi _ _
  have halready : Already (b.append pointer e).words (b.last pointer + 1) e.data := by
    intro j hj
    rw [hupdate _ (by omega)]
    exact h j hj
  refine ⟨?_, fun j hj => memmove_eq halready hj, fun i hi => ?_⟩
  · refine (memmove_of_not_mem (.inl (Nat.lt_succ_self _)) e.pos).trans ?_
    exact update_self _ _ _
  · refine (memmove_of_not_mem ?_ e.pos).trans (hupdate i ?_)
    · omega
    · omega

/-- The block with a new entry in it. -/
theorem Holds.append (hpointer : 1 ≤ pointer) (h : Holds pointer b es) (hfits : Fits pointer b e) :
    Holds pointer ((b.append pointer e).store (b.last pointer) e.data) (es ++ [e]) ∧ lookup es e.id = none := by
  obtain ⟨hlen, hroom, hfresh, halready, hblank⟩ := hfits
  have hlast : b.last pointer = pointer * total es := by unfold Block.last; rw [h.count]
  have hlenlt := h.len_lt
  have hids : ∀ i ∈ placesOf pointer 0 es, idOf (b.words i) ≠ e.id := by
    unfold Block.pblockGet at hfresh
    rw [h.walk_eq hpointer, List.find?_eq_none] at hfresh
    intro i hi
    simpa using hfresh i hi
  have hnone : lookup es e.id = none := by
    rcases find_placesOf hpointer h.laid e.id with ⟨-, hnone⟩ | ⟨i, hfind, -⟩
    · exact hnone
    · have hi : idOf (b.words i) = e.id := by simpa using List.find?_some hfind
      exact absurd hi (hids i (mem_of_find?_eq_some hfind))
  obtain ⟨hheader, hdata, hsame⟩ := @append_words pointer b e halready
  have htotal : total (es ++ [e]) = total es + e.data.length + 1 := by
    rw [total_append, total_cons, total_nil]
    rfl
  refine ⟨{ laid := ?_, count := ?_, room := ?_, nodup := ?_, len_lt := hlenlt, cur_lt := ?_ }, hnone⟩
  · have hold : Laid pointer ((b.append pointer e).store (b.last pointer) e.data).words 0 es :=
      h.laid.congr hpointer fun i _ hi => hsame i (.inl (by rw [hlast]; rwa [Nat.zero_add] at hi))
    refine hold.append ⟨?_, fun j hj => ?_, fun i hi hi' => ?_, trivial⟩ ?_
    · rw [Nat.zero_add, ← hlast]
      exact hheader
    · rw [Nat.zero_add, ← hlast]
      exact hdata j hj
    · rw [Nat.zero_add, ← hlast] at hi
      rw [Nat.zero_add, ← h.count] at hi'
      rw [hsame i (.inr hi)]
      exact ⟨hblank i hi' hi, fun f hf => absurd hf (by simp)⟩
    · intro i hi
      have hlt := (mem_placesOf hpointer hi).2
      rw [Nat.zero_add] at hlt
      rw [hsame i (.inl (by omega))]
      exact hids i hi
  · have hcur : (b.curLen + e.data.length + 1) % 2 ^ 8 = b.curLen + e.data.length + 1 := Nat.mod_eq_of_lt (by omega)
    rw [htotal, ← h.count]
    exact hcur
  · rw [htotal, ← h.count]
    exact hroom
  · rw [map_append, map_singleton]
    refine nodup_append.mpr ⟨h.nodup, by simp, ?_⟩
    intro a ha a' ha' heq
    obtain ⟨f, hf, rfl⟩ := List.mem_map.mp ha
    unfold lookup at hnone
    rw [map_eq_none_iff, List.find?_eq_none] at hnone
    exact hnone f hf (by simpa using heq.trans (mem_singleton.mp ha'))
  · exact Nat.mod_lt _ (by decide)

theorem lookup_of_mem (hnodup : (es.map Entry.id).Nodup) {f : Entry} (hf : f ∈ es) :
    lookup es f.id = some f.data := by
  induction es with
  | nil => cases hf
  | cons g es ih =>
    rw [map_cons, nodup_cons] at hnodup
    rcases mem_cons.mp hf with rfl | hf
    · exact lookup_cons_of_eq es rfl
    · rw [lookup_cons_of_ne es fun heq => hnodup.1 (heq ▸ List.mem_map_of_mem hf)]
      exact ih hnodup.2 hf

theorem total_replaced (h : ∀ f ∈ es, f.id = e.id → f.data.length = e.data.length) :
    total (replaced es e) = total es := by
  unfold total replaced
  rw [List.map_map]
  refine congrArg List.sum (map_congr_left fun f hf => ?_)
  dsimp only [Function.comp]
  split
  · next hid => rw [h f hf hid]
  · rfl

/-- The block with an entry set again. -/
theorem Holds.setAgain (hpointer : 1 ≤ pointer) (h : Holds pointer b es) {i : ℕ}
    (hfind : b.pblockGet pointer e.id = some i) (hsize : sizeOf (b.words i) = e.data.length)
    (halready : Already b.words (i + 1) e.data) :
    Holds pointer (b.store i e.data) (replaced es e) ∧ b.Inside (i + 1) e.data.length := by
  unfold Block.pblockGet at hfind
  rw [h.walk_eq hpointer] at hfind
  have hlaid := h.laid.setAgain hpointer h.nodup hfind hsize halready
  have hpos := e.pos
  have hroom := h.room
  rcases find_placesOf hpointer h.laid e.id with ⟨hnone, -⟩ | ⟨j, hj, hcase⟩
  · cases hfind.symm.trans hnone
  obtain rfl : i = j := some.inj (hfind.symm.trans hj)
  rcases hcase with ⟨hzero, -⟩ | ⟨data, hdata, hsize', -, hbound, -⟩
  · omega
  rw [Nat.zero_add] at hbound
  have htotal : total (replaced es e) = total es := by
    refine total_replaced fun f hf hid => ?_
    have hlookup := lookup_of_mem h.nodup hf
    rw [hid, hdata] at hlookup
    rw [← some.inj hlookup, ← hsize', hsize]
  refine ⟨⟨hlaid, ?_, ?_, ?_, h.len_lt, h.cur_lt⟩, ?_⟩
  · rw [htotal]
    exact h.count
  · rw [htotal]
    exact hroom
  · rw [map_id_replaced]
    exact h.nodup
  · unfold Block.Inside
    omega

/-! ### Storing and reading -/

/-- A block that is read back, from a value that is one entry. -/
theorem holds_init {len : ℕ} {memory : Words} {value : List ℕ} (key : ℕ)
    (hvalue : value = e.header :: e.data) (h : AdmitsInit pointer value len memory) :
    Holds pointer ⟨key, (len + value.length) % 2 ^ 8, value.length % 2 ^ 8, 2 * pointer + value.length + len,
      fun i => if i < value.length then value.getD i 0 else memory i⟩ [e] := by
  obtain ⟨-, hlength, hroom, hblank⟩ := h
  have hcount : value.length = e.data.length + 1 := by rw [hvalue, length_cons]
  have hlt : value.length < 2 ^ 8 := hlength.trans_lt (Nat.mod_lt _ (by decide))
  have htotal : total [e] = value.length := by rw [total_cons, total_nil, hcount]
  refine ⟨⟨?_, fun j hj => ?_, fun i hi hi' => ?_, trivial⟩, ?_, ?_, ?_, ?_, ?_⟩
  · dsimp only
    rw [Nat.mul_zero, if_pos (by omega), hvalue]
    rfl
  · dsimp only
    rw [Nat.mul_zero, if_pos (by omega), hvalue, Nat.zero_add, Nat.add_comm 1 j, getD_cons_succ]
  · dsimp only
    rw [Nat.mul_zero, Nat.zero_add] at hi
    rw [Nat.zero_add, ← hcount] at hi'
    rw [if_neg (by omega)]
    exact ⟨hblank i hi' (by omega), fun f hf => absurd hf (by simp)⟩
  · rw [htotal]
    exact Nat.mod_eq_of_lt hlt
  · rw [htotal]
    exact hroom
  · exact nodup_cons.mpr ⟨by simp, nodup_nil⟩
  · exact Nat.mod_lt _ (by decide)
  · exact Nat.mod_lt _ (by decide)

/-- A block without entries. -/
theorem holds_empty (key length room : ℕ) (words : Words) (h : length < 2 ^ 8) :
    Holds pointer ⟨key, length, 0, room, words⟩ [] where
  laid := trivial
  count := rfl
  room := by simp
  nodup := nodup_nil
  len_lt := h
  cur_lt := Nat.two_pow_pos 8

/-- What is stored is one entry only if the block holds one. -/
theorem Holds.stored (h : Holds pointer b es) :
    ((List.range b.curLen).map b.words = [] → ∀ id, lookup es id = none) ∧
      (sizeOf (((List.range b.curLen).map b.words).getD 0 0) + 1 = ((List.range b.curLen).map b.words).length →
        ∃ e : Entry, (List.range b.curLen).map b.words = e.header :: e.data ∧ es = [e]) := by
  have hcount := h.count
  cases es with
  | nil =>
    rw [hcount, total_nil]
    exact ⟨fun _ _ => rfl, fun hsize => absurd hsize (by simp)⟩
  | cons e es =>
    obtain ⟨hheader, hdata, -, -⟩ := h.laid
    rw [Nat.mul_zero] at hheader hdata
    rw [total_cons] at hcount
    have hfirst : ((List.range b.curLen).map b.words).getD 0 0 = e.header := by
      rw [getD_eq_getElem?_getD, List.getElem?_map, List.getElem?_range (by omega), map_some,
        getD_some, hheader]
    constructor
    · intro hnil
      rw [map_eq_nil_iff, range_eq_nil] at hnil
      omega
    · intro hsize
      rw [hfirst, sizeOf_header, length_map, length_range] at hsize
      have hnone : es = [] := by
        cases es with
        | nil => rfl
        | cons f es =>
          rw [total_cons] at hcount
          omega
      refine ⟨e, ?_, by rw [hnone]⟩
      rw [← hsize]
      refine ext_getElem (by simp) fun j hj _ => ?_
      rw [getElem_map, getElem_range]
      cases j with
      | zero => exact hheader
      | succ j =>
        have hj' : j < e.data.length := by simpa using hj
        have hword := hdata j hj'
        rw [Nat.zero_add, Nat.add_comm 1 j, getD_eq_getElem?_getD, List.getElem?_eq_getElem hj',
          getD_some] at hword
        rw [hword, getElem_cons_succ]

/-! ### One step, and runs -/

variable (pointer) in
/-- What holds in every run that meets the condition. A value stored that is one entry stands for that entry. -/
structure Sound (l : Library) : Prop where
  inside : l.strayed = false
  empty : l.pblock = none → ∀ id, l.entries id = none
  holds : ∀ b, l.pblock = some b → ∃ es, Holds pointer b es ∧ l.entries = lookup es
  nothing : ∀ key, l.ps key = [] → ∀ id, l.stored key id = none
  one : ∀ key, sizeOf ((l.ps key).getD 0 0) + 1 = (l.ps key).length →
    ∃ e : Entry, l.ps key = e.header :: e.data ∧ l.stored key = lookup [e]

theorem sound_initial : Sound pointer .initial where
  inside := rfl
  empty _ _ := rfl
  holds b hb := by cases hb
  nothing _ _ _ := rfl
  one key h := absurd h (by simp [Library.initial])

/-- **The promise** in a state with a block that holds entries. -/
theorem Sound.keeps (hpointer : 1 ≤ pointer) (h : Sound pointer l) : Keeps pointer l where
  inside := h.inside
  empty hnone id _ := h.empty hnone id
  reads b hb id _ := by
    obtain ⟨es, hes, hentries⟩ := h.holds b hb
    rw [hes.read_eq hpointer, hentries]
  visits b hb id _ := by
    obtain ⟨es, hes, -⟩ := h.holds b hb
    exact hes.visited_inside hpointer id

theorem Sound.init (hpointer : 1 ≤ pointer) (h : Sound pointer l) {key len : ℕ} {memory : Words}
    (hok : l.ps key ≠ [] → AdmitsInit pointer (l.ps key) len memory) :
    Sound pointer (l.pblockInit pointer key len memory) := by
  have hquery : (psRetrieve (l.ps key) memory 0).1 = (l.ps key).length := rfl
  unfold Library.pblockInit
  dsimp only
  rw [hquery]
  by_cases hvalue : l.ps key = []
  · have hentries : l.stored key = lookup [] := funext (h.nothing key hvalue)
    rw [hvalue, length_nil, if_neg (by simp)]
    refine ⟨h.inside, nofun, fun b hb => ?_, h.nothing, h.one⟩
    obtain rfl := some.inj hb
    exact ⟨[], holds_empty _ _ _ _ (Nat.mod_lt _ (by decide)), hentries⟩
  · have hadmits := hok hvalue
    obtain ⟨e, he, hstored⟩ := h.one key hadmits.one
    have hpos := length_pos_of_ne_nil hvalue
    have hlength := hadmits.length
    have hroom := hadmits.room
    have hretrieve : psRetrieve (l.ps key) memory ((len + (l.ps key).length) % 2 ^ 8) =
        ((l.ps key).length, fun i => if i < (l.ps key).length then (l.ps key).getD i 0 else memory i) := by
      unfold psRetrieve
      rw [if_neg (by omega), if_pos hlength]
    have hinside : 2 * (l.ps key).length ≤ 2 * pointer + (l.ps key).length + len := by
      have := Nat.le_mul_of_pos_left (l.ps key).length hpointer
      omega
    rw [if_pos hpos.ne', hretrieve]
    dsimp only [Library.touch]
    refine ⟨?_, nofun, fun b hb => ?_, h.nothing, h.one⟩
    · rw [h.inside, decide_eq_true fun _ _ => hinside]
      rfl
    · obtain rfl := some.inj hb
      exact ⟨[e], holds_init key he hadmits, hstored⟩

theorem Sound.store (h : Sound pointer l) (hb : l.pblock = some b) : Sound pointer (l.pblockStore b) := by
  obtain ⟨es, hes, hentries⟩ := h.holds b hb
  obtain ⟨hnothing, hone⟩ := hes.stored
  refine ⟨h.inside, h.empty, h.holds, fun key => ?_, fun key => ?_⟩
  · unfold Library.pblockStore
    dsimp only
    by_cases hkey : key = b.key
    · rw [hkey, update_self, update_self, hentries]
      exact hnothing
    · rw [update_of_ne hkey, update_of_ne hkey]
      exact h.nothing key
  · unfold Library.pblockStore
    dsimp only
    by_cases hkey : key = b.key
    · rw [hkey, update_self, update_self, hentries]
      intro hsize
      obtain ⟨e, he, rfl⟩ := hone hsize
      exact ⟨e, he, rfl⟩
    · rw [update_of_ne hkey, update_of_ne hkey]
      exact h.one key

theorem Sound.set (hpointer : 1 ≤ pointer) (h : Sound pointer l) (hb : l.pblock = some b)
    (hok : AdmitsSet pointer b e r) : Sound pointer (l.pblockSet pointer e r) := by
  obtain ⟨es, hes, hentries⟩ := h.holds b hb
  have htouched : (decide (∀ i ∈ b.visited pointer e.id, b.Inside i 2)) = true :=
    decide_eq_true (hes.visited_inside hpointer e.id)
  unfold Library.pblockSet
  rw [hb]
  dsimp only [Library.touch]
  rw [htouched]
  obtain ⟨hagain, hnew⟩ := hok
  cases hfound : (b.pblockGet pointer e.id).filter fun i => sizeOf (b.words i) ≠ 0 with
  | some i =>
    dsimp only
    have hok := hagain i hfound
    obtain ⟨hfind, hsize⟩ := filter_eq_some_iff.mp hfound
    have hfindWalk := hfind
    unfold Block.pblockGet at hfindWalk
    rw [hes.walk_eq hpointer] at hfindWalk
    -- the entry found is the one of the id, with its length
    obtain ⟨data, hdata, hlength⟩ : ∃ data, lookup es e.id = some data ∧ sizeOf (b.words i) = data.length := by
      rcases find_placesOf hpointer hes.laid e.id with ⟨hnone, -⟩ | ⟨j, hj, hcase⟩
      · cases hfindWalk.symm.trans hnone
      · obtain rfl : i = j := some.inj (hfindWalk.symm.trans hj)
        rcases hcase with ⟨hzero, -⟩ | ⟨data, hdata, hlength, -⟩
        · exact absurd hzero (by simpa using hsize)
        · exact ⟨data, hdata, hlength⟩
    by_cases hsame : sizeOf (b.words i) = e.data.length
    · obtain ⟨hholds, hinside⟩ := hes.setAgain hpointer hfind hsame (hok hsame)
      have hset : setEntry l.entries e false = Function.update l.entries e.id (some e.data) := by
        unfold setEntry
        rw [hentries, hdata]
        exact if_pos (hlength.symm.trans hsame)
      rw [if_pos hsame, decide_eq_true hinside, hset]
      refine ⟨?_, nofun, fun b' hb' => ?_, h.nothing, h.one⟩
      · rw [h.inside]
        rfl
      · obtain rfl := some.inj hb'
        refine ⟨replaced es e, hholds, ?_⟩
        rw [lookup_replaced (by rw [hdata]; exact some_ne_none _), hentries]
    · have hset : setEntry l.entries e false = l.entries := by
        unfold setEntry
        rw [hentries, hdata]
        exact if_neg (fun heq => hsame (hlength.trans heq))
      rw [if_neg hsame, hset]
      refine ⟨?_, fun hnone => absurd (hb.symm.trans hnone) (by simp), h.holds, h.nothing, h.one⟩
      rw [h.inside]
      rfl
  | none =>
    dsimp only
    -- nothing is found, or a word that looks empty
    have hlookup : lookup es e.id = none := by
      rcases find_placesOf hpointer hes.laid e.id with ⟨-, hnone⟩ | ⟨j, hj, hcase⟩
      · exact hnone
      · have hfind : b.pblockGet pointer e.id = some j := by
          unfold Block.pblockGet
          rwa [hes.walk_eq hpointer]
        have hzero : sizeOf (b.words j) = 0 := by
          have := filter_eq_none_iff.mp hfound j hfind
          simpa using this
        rcases hcase with ⟨-, hnone⟩ | ⟨data, -, hlength, hpos, -⟩
        · exact hnone
        · omega
    rcases hnew hfound with hout | hfits
    · have hset : setEntry l.entries e (decide (b.RunsOut e r)) = l.entries := by
        unfold setEntry
        rw [hentries, hlookup, decide_eq_true hout]
        rfl
      have hadd : b.pblockAddEntry pointer e r = none := by
        unfold Block.pblockAddEntry
        obtain ⟨hlen, hfails⟩ := hout
        rw [if_pos hlen]
        cases r with
        | fails => rfl
        | inPlace fresh => cases hfails
        | moves fresh => cases hfails
      rw [hadd, hset]
      refine ⟨?_, fun hnone => absurd (hb.symm.trans hnone) (by simp), h.holds, h.nothing, h.one⟩
      rw [h.inside]
      rfl
    · obtain ⟨hholds, -⟩ := hes.append hpointer hfits
      have hlen : ¬ b.len < b.curLen + e.data.length + 1 := Nat.not_lt.mpr hfits.len
      have hset : setEntry l.entries e (decide (b.RunsOut e r)) = Function.update l.entries e.id (some e.data) := by
        unfold setEntry
        rw [hentries, hlookup, decide_eq_false fun hout => hlen hout.1]
        rfl
      have hadd : b.pblockAddEntry pointer e r = some (b.append pointer e, true) := by
        unfold Block.pblockAddEntry
        rw [if_neg hlen]
      have hinside : (b.append pointer e).Inside (b.last pointer) (2 + e.data.length) := by
        have hroom := hfits.room
        have hbound := (entry_bounds hpointer b.curLen e.data.length 0).1
        unfold Block.Inside Block.append Block.last
        dsimp only
        omega
      rw [hadd, hset]
      dsimp only
      rw [decide_eq_true hinside]
      refine ⟨?_, nofun, fun b' hb' => ?_, h.nothing, h.one⟩
      · rw [h.inside]
        rfl
      · obtain rfl := some.inj hb'
        refine ⟨es ++ [e], hholds, ?_⟩
        rw [lookup_append hlookup, hentries]

/-- **One step** that the condition admits. -/
theorem Sound.step (hpointer : 1 ≤ pointer) (h : Sound pointer l) {ev : Event} (hok : AdmitsPblock pointer l ev)
    (hstep : l.step pointer ev = some l') : Sound pointer l' := by
  cases ev with
  | init key len memory =>
    obtain rfl := some.inj hstep
    exact h.init hpointer hok
  | set e r =>
    obtain rfl := some.inj hstep
    obtain ⟨hinit, hset⟩ := hok
    obtain ⟨b, hb⟩ := ne_none_iff_exists'.mp hinit
    exact h.set hpointer hb (hset b hb)
  | store =>
    obtain ⟨b, hb, rfl⟩ := map_eq_some_iff.mp hstep
    exact h.store hb

/-- **The keyed block.** In every run whose steps meet the condition the promise is kept, in every state reached. -/
theorem keeps_of_run (hpointer : 1 ≤ pointer) {es : List Event}
    (hok : RunMeets (Library.step pointer) (AdmitsPblock pointer) .initial es)
    (hrun : run (Library.step pointer) .initial es = some l) : Keeps pointer l :=
  Sound.keeps hpointer
    (run_invariant (fun _ _ _ h hok hstep => Sound.step hpointer h hok hstep) sound_initial hok hrun)

instance (b : Block) (e : Entry) : Decidable (Fits pointer b e) :=
  decidable_of_iff
    (b.curLen + e.data.length + 1 ≤ b.len ∧ 2 * (pointer * (b.curLen + e.data.length + 1)) ≤ b.room ∧
      b.pblockGet pointer e.id = none ∧ Already b.words (b.last pointer + 1) e.data ∧
        Blank b.words (b.last pointer + e.data.length + 1) (pointer * (b.curLen + e.data.length + 1)))
    ⟨fun h => ⟨h.1, h.2.1, h.2.2.1, h.2.2.2.1, h.2.2.2.2⟩, fun h => ⟨h.len, h.room, h.fresh, h.data, h.blank⟩⟩

instance (b : Block) (e : Entry) (r : Realloc) : Decidable (AdmitsSet pointer b e r) := by
  unfold AdmitsSet
  infer_instance

instance (value : List ℕ) (len : ℕ) (memory : Words) : Decidable (AdmitsInit pointer value len memory) :=
  decidable_of_iff
    (sizeOf (value.getD 0 0) + 1 = value.length ∧ value.length ≤ (len + value.length) % 2 ^ 8 ∧
      2 * (pointer * value.length) ≤ 2 * pointer + value.length + len ∧
        Blank memory value.length (pointer * value.length))
    ⟨fun h => ⟨h.1, h.2.1, h.2.2.1, h.2.2.2⟩, fun h => ⟨h.one, h.length, h.room, h.blank⟩⟩

instance (l : Library) (ev : Event) : Decidable (AdmitsPblock pointer l ev) := by
  rcases ev with ⟨⟩ <;> dsimp only [AdmitsPblock] <;> infer_instance

/-- An entry of one small word. -/
def small : Entry := ⟨5, [0x12], by decide, by decide, by decide, by decide⟩

/-- With room enough, and memory that is zero, a small entry is set, stored and read back. -/
theorem keeps_small : ∃ l, run (Library.step 2) .initial
    [.init 7 40 (fun _ => 0), .set small .fails, .store, .init 7 20 fun _ => 0] = some l ∧ Keeps 2 l := by
  have hok : RunMeets (Library.step 2) (AdmitsPblock 2) .initial
      [.init 7 40 (fun _ => 0), .set small .fails, .store, .init 7 20 fun _ => 0] := by
    decide
  obtain ⟨l, hl⟩ : ∃ l, run (Library.step 2) .initial
      [.init 7 40 (fun _ => 0), .set small .fails, .store, .init 7 20 fun _ => 0] = some l :=
    isSome_iff_exists.mp (by decide)
  exact ⟨l, hl, keeps_of_run (by decide) hok hl⟩

/-- An entry of one word with a high octet. -/
def large : Entry := ⟨5, [0x1234], by decide, by decide, by decide, by decide⟩

/-- Of one word one octet is copied, so the word reads 0x34 where 0x1234 was set. -/
theorem not_alwaysKeeps : ¬ AlwaysKeeps := by
  intro h
  have hruns : (run (Library.step 2) .initial [.init 7 40 (fun _ => 0), .set large .fails]).any fun l =>
      l.pblock.any fun b => decide (b.read 2 5 = some [0x34] ∧ l.entries 5 = some [0x1234]) := by decide
  obtain ⟨l, hl, hblock⟩ := (Option.any_eq_true _ _).mp hruns
  obtain ⟨b, hb, hread⟩ := (Option.any_eq_true _ _).mp hblock
  obtain ⟨hword, hset⟩ := of_decide_eq_true hread
  have hkeeps := (h 2 le_rfl _ l hl).reads b hb 5 (by decide)
  rw [hword, hset] at hkeeps
  exact absurd hkeeps (by decide)

end Cbps.Pblock
