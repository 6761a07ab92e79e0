import Mathlib.Data.List.Nodup
import Mathlib.Data.List.Perm.Basic
import Mathlib.Data.List.TakeWhile

/-!
# Recency lists

A list of items in most recently used order, each with a key. `without` takes the items with a
key out, `record` puts an item in front and keeps at most `n` of them, and `settle` puts an item
behind the leading items that satisfy `p`. The operations are generic in the items, and
commute with maps that keep the keys, so that a list of stored records and a list that
only says which keys are there can be stepped alike.

`Leading p l` says that the items that satisfy `p` come first. `settle` restores it.
-/

namespace Cbps.Lib

open List

variable {α β κ : Type*} [DecidableEq κ] {key : α → κ}

/-! ### Lookup and removal -/

variable (key) in
/-- The first item with the key. -/
def lookup (k : κ) (l : List α) : Option α := l.find? fun a => key a = k

variable (key) in
/-- The items with other keys. -/
def without (k : κ) (l : List α) : List α := l.filter fun a => key a ≠ k

variable {l : List α} {a : α} {k : κ}

theorem lookup_cons_self (h : key a = k) :
    lookup key k (a :: l) = some a :=
  List.find?_cons_of_pos (decide_eq_true h)

theorem key_of_lookup (h : lookup key k l = some a) : key a = k := by
  simpa using List.find?_some h

theorem mem_of_lookup (h : lookup key k l = some a) : a ∈ l :=
  mem_of_find?_eq_some h

theorem lookup_eq_none_iff : lookup key k l = none ↔ k ∉ l.map key := by
  simp [lookup]

theorem without_sublist (k : κ) (l : List α) : (without key k l).Sublist l := filter_sublist

theorem notMem_map_without (k : κ) (l : List α) : k ∉ (without key k l).map key := by
  simp [without]

/-- Nothing goes when the key is not there. -/
theorem without_eq_self (h : k ∉ l.map key) : without key k l = l := by
  rw [without, filter_eq_self]
  intro a ha
  simpa using fun hk : key a = k => h (hk ▸ mem_map_of_mem ha)

/-- With distinct keys, one item goes. -/
theorem without_append_cons {l l' : List α} (h : ((l ++ a :: l').map key).Nodup) :
    without key (key a) (l ++ a :: l') = l ++ l' := by
  simp only [map_append, map_cons] at h
  obtain ⟨-, hcons, hdisj⟩ := nodup_append.mp h
  have hleft : key a ∉ l.map key := fun hmem => hdisj _ hmem _ mem_cons_self rfl
  have hright : key a ∉ l'.map key := (nodup_cons.mp hcons).1
  rw [without, filter_append, filter_cons_of_neg (by simp)]
  exact congrArg₂ _ (without_eq_self hleft) (without_eq_self hright)

/-- The split of a list with distinct keys at the item that is looked up. -/
theorem lookup_split (hl : (l.map key).Nodup)
    (h : lookup key k l = some a) :
    ∃ before after, l = before ++ a :: after ∧ without key k l = before ++ after := by
  obtain ⟨before, after, rfl⟩ := append_of_mem (mem_of_lookup h)
  exact ⟨before, after, rfl, key_of_lookup h ▸ without_append_cons hl⟩

/-! ### Recording and settling -/

variable (key) in
/-- Put the item in front and keep at most `n`. -/
def record (n : ℕ) (a : α) (l : List α) : List α := a :: (without key (key a) l).take (n - 1)

/-- Put the item behind the leading items that satisfy `p`. -/
def settle (p : α → Bool) (a : α) (l : List α) : List α := l.takeWhile p ++ a :: l.dropWhile p

theorem settle_perm (p : α → Bool) (a : α) (l : List α) : (settle p a l).Perm (a :: l) := by
  refine perm_middle.trans ?_
  rw [takeWhile_append_dropWhile]

variable (key) in
theorem lookup_record (n : ℕ) (a : α) (l : List α) : lookup key (key a) (record key n a l) = some a :=
  List.find?_cons_of_pos (by simp)

variable (key) in
theorem without_record (n : ℕ) (a : α) (l : List α) :
    without key (key a) (record key n a l) = (without key (key a) l).take (n - 1) := by
  rw [record, without, filter_cons_of_neg (by simp)]
  exact without_eq_self fun hmem =>
    notMem_map_without (key a) l (((take_sublist _ _).map key).subset hmem)

/-! ### Maps that keep the keys -/

section Map

variable {key' : β → κ} {f : α → β} (hkey : ∀ a, key' (f a) = key a)

include hkey

theorem map_without (k : κ) (l : List α) : (without key k l).map f = without key' k (l.map f) := by
  simp only [without, filter_map, Function.comp_def, hkey]

theorem lookup_map (k : κ) (l : List α) : lookup key' k (l.map f) = (lookup key k l).map f := by
  simp only [lookup, List.find?_map, Function.comp_def, hkey]

end Map

variable {p : α → Bool}

theorem map_settle {q : β → Bool} {f : α → β} (hp : ∀ a, q (f a) = p a) (a : α)
    (l : List α) : (settle p a l).map f = settle q (f a) (l.map f) := by
  simp only [settle, map_append, map_cons, takeWhile_map, dropWhile_map,
    Function.comp_def, hp]

/-! ### Leading items -/

/-- The items that satisfy `p` come before those that do not. -/
def Leading (p : α → Bool) (l : List α) : Prop := l.Pairwise fun a b => p b → p a

instance decidableLeading (p : α → Bool) (l : List α) : Decidable (Leading p l) :=
  inferInstanceAs (Decidable (l.Pairwise _))

theorem Leading.sublist {l l' : List α} (h : Leading p l) (hl : l'.Sublist l) :
    Leading p l' := List.Pairwise.sublist hl h

/-- A leading item may always be put in front. -/
theorem Leading.cons (h : Leading p l)
    (ha : p a ∨ ∀ b ∈ l, ¬ p b) : Leading p (a :: l) := by
  refine pairwise_cons.mpr ⟨fun b hb hpb => ?_, h⟩
  exact ha.elim id fun hnone => absurd hpb (hnone b hb)

/-- Behind the leading items of such a list there are no others. -/
theorem Leading.not_of_mem_dropWhile (h : Leading p l)
    (ha : a ∈ l.dropWhile p) : ¬ p a := by
  induction l with
  | nil => simp at ha
  | cons b l ih =>
    by_cases hb : p b
    · rw [dropWhile_cons_of_pos hb] at ha
      exact ih (pairwise_cons.mp h).2 ha
    · rw [dropWhile_cons_of_neg hb] at ha
      rcases mem_cons.mp ha with rfl | hmem
      · exact hb
      · exact fun hpa => hb ((pairwise_cons.mp h).1 a hmem hpa)

/-- Blanking the other items blanks the end. -/
theorem Leading.map_ite (h : Leading p l) (f : α → β) (blank : β) :
    l.map (fun a => if p a then f a else blank) =
      (l.filter p).map f ++ List.replicate (l.length - (l.filter p).length) blank := by
  induction l with
  | nil => simp
  | cons a l ih =>
    obtain ⟨ha, hl⟩ := pairwise_cons.mp h
    by_cases hp : p a
    · rw [map_cons, ih hl, if_pos hp, filter_cons_of_pos hp]
      simp
    · -- behind an item that is blanked all are
      have hnone : ∀ b ∈ l, ¬ p b := fun b hb hpb => hp (ha b hb hpb)
      have hfilter : l.filter p = [] := filter_eq_nil_iff.mpr hnone
      rw [map_cons, ih hl, if_neg hp, filter_cons_of_neg hp, hfilter]
      simp [replicate_succ]

/-- Any item may be settled in such a list. -/
theorem Leading.settle (h : Leading p l) (a : α) :
    Leading p (settle p a l) := by
  refine pairwise_append.mpr ⟨h.sublist (takeWhile_sublist p), ?_, ?_⟩
  · exact (h.sublist (dropWhile_sublist p)).cons (.inr fun b hb => h.not_of_mem_dropWhile hb)
  · exact fun b hb c _ _ => mem_takeWhile_imp hb

end Cbps.Lib
