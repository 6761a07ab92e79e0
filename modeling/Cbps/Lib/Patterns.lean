import Mathlib.Data.List.Infix

/-!
# Recognising a pattern with one index

A pattern is a list, and a recogniser that keeps one index into it: an element that is not the expected one restarts it,
with the element as the first one where the pattern begins with it. `due` says when a pattern has been entered: the
elements since the last time end with the whole pattern.

The recogniser never reports a pattern that is not due (`Sound.advance`). It reports every one exactly if each overlap of
the pattern with itself goes on as the pattern does (`Continues`): `recognise_eq_due` and `exists_missed`.
-/

namespace Cbps.Lib

open List

variable {α : Type*} {P since : List α} {k : ℕ}

/-! ### Beginnings -/

variable {a : α}

theorem take_succ_of_getElem? (h : P[k]? = some a) : P.take (k + 1) = P.take k ++ [a] := by
  rw [take_add_one, h, Option.toList_some]

theorem lt_length_of_getElem? (h : P[k]? = some a) : k < P.length := (List.getElem?_eq_some_iff.mp h).1

/-- The beginnings that end a list are those that end it without the last element. -/
theorem take_suffix_concat {j : ℕ} (hj : j < P.length) (h : P.take (j + 1) <:+ since ++ [a]) :
    P.take j <:+ since ∧ P[j]? = some a := by
  rw [take_add_one, List.getElem?_eq_getElem hj, Option.toList_some] at h
  obtain ⟨front, hfront⟩ := h
  rw [← append_assoc] at hfront
  obtain ⟨hsince, hlast⟩ := append_inj' hfront rfl
  exact ⟨⟨front, hsince⟩, by rw [List.getElem?_eq_getElem hj, singleton_inj.mp hlast]⟩

/-- Of two beginnings that end a list, the shorter one ends the longer one. -/
theorem take_suffix_take {j : ℕ} (hj : P.take j <:+ since) (hk : P.take k <:+ since) (hle : j ≤ k) :
    P.take j <:+ P.take k :=
  suffix_of_suffix_length_le hj hk (by rw [length_take, length_take]; omega)

/-- **Overlaps continue**: where a beginning of the pattern ends as another beginning does, the next elements are the
same. -/
def Continues (P : List α) : Prop :=
  ∀ j k, 0 < j → j < k → k < P.length → P.take j <:+ P.take k → P[j]? = P[k]?

/-! ### The recogniser -/

/-- The index stands behind a beginning of the pattern that ends the elements. -/
structure Sound (P since : List α) (k : ℕ) : Prop where
  lt : P ≠ [] → k < P.length
  suffix : P.take k <:+ since

theorem sound_zero (P since : List α) : Sound P since 0 where
  lt := length_pos_of_ne_nil
  suffix := take_zero (l := P) ▸ nil_suffix

section

variable [DecidableEq α]

/-- The next index, and whether the pattern is reported. -/
def advance (P : List α) (k : ℕ) (a : α) : ℕ × Bool :=
  if P[k]? = some a then (if P.length ≤ k + 1 then (0, true) else (k + 1, false))
  else (if P[0]? = some a then 1 else 0, false)

/-- What is reported at each element, from an index on. -/
def recognise (P : List α) : ℕ → List α → List Bool
  | _, [] => []
  | k, a :: as => (advance P k a).2 :: recognise P (advance P k a).1 as

/-- The elements since the last time end with the whole pattern. -/
def Completes (P since : List α) (a : α) : Prop := P ≠ [] ∧ P <:+ since ++ [a]

instance (P since : List α) (a : α) : Decidable (Completes P since a) := inferInstanceAs (Decidable (_ ∧ _))

/-- The elements since the last time, after one more. -/
def sinceThen (P since : List α) (a : α) : List α := if Completes P since a then [] else since ++ [a]

/-- When a pattern is entered. -/
def due (P : List α) : List α → List α → List Bool
  | _, [] => []
  | since, a :: as => decide (Completes P since a) :: due P (sinceThen P since a) as

/-! ### It reports nothing else -/

/-- What one element does to the index. -/
theorem Sound.advance (h : Sound P since k) (a : α) :
    ((Lib.advance P k a).2 = true ∧ Completes P since a ∧ (Lib.advance P k a).1 = 0) ∨
      ((Lib.advance P k a).2 = false ∧ Sound P (since ++ [a]) (Lib.advance P k a).1) := by
  rw [Lib.advance]
  by_cases hnext : P[k]? = some a
  · rw [if_pos hnext]
    have hlt := lt_length_of_getElem? hnext
    have htake : P.take (k + 1) <:+ since ++ [a] := by
      rw [take_succ_of_getElem? hnext]
      exact (suffix_append_inj_of_length_eq rfl).mpr ⟨h.suffix, rfl⟩
    by_cases hlast : P.length ≤ k + 1
    · rw [if_pos hlast]
      rw [take_of_length_le hlast] at htake
      exact .inl ⟨rfl, ⟨ne_nil_of_length_pos (Nat.zero_lt_of_lt hlt), htake⟩, rfl⟩
    · rw [if_neg hlast]
      exact .inr ⟨rfl, fun _ => Nat.lt_of_not_le hlast, htake⟩
  · rw [if_neg hnext]
    refine .inr ⟨rfl, ?_⟩
    dsimp only
    by_cases hfirst : P[0]? = some a
    · rw [if_pos hfirst]
      constructor
      · intro _
        -- A pattern of one element has the index 0, at which the element is another one.
        by_contra hshort
        obtain rfl : k = 0 := by
          have hlt := h.lt (ne_nil_of_length_pos (lt_length_of_getElem? hfirst))
          omega
        exact hnext hfirst
      · rw [take_succ_of_getElem? hfirst, take_zero, nil_append]
        exact suffix_append since [a]
    · rw [if_neg hfirst]
      exact sound_zero P _

theorem sinceThen_of_completes (h : Completes P since a) : sinceThen P since a = [] := if_pos h

theorem sinceThen_of_not (h : ¬ Completes P since a) : sinceThen P since a = since ++ [a] := if_neg h

/-- An element that is reported exactly when it completes the pattern leaves the index sound. -/
theorem Sound.next (h : Sound P since k) (heq : (Lib.advance P k a).2 = decide (Completes P since a)) :
    Sound P (sinceThen P since a) (Lib.advance P k a).1 := by
  rcases h.advance a with ⟨-, hdue, hzero⟩ | ⟨hnone, hsound⟩
  · rw [sinceThen_of_completes hdue, hzero]
    exact sound_zero P []
  · rw [hnone] at heq
    rwa [sinceThen_of_not (of_decide_eq_false heq.symm)]

variable {as : List α}

/-- A pattern with an element that is never entered is neither reported nor due. -/
theorem recognise_eq_due_of_absent {c : α} (hc : c ∈ P) (hsince : c ∉ since) (has : c ∉ as)
    (h : Sound P since k) : recognise P k as = due P since as := by
  induction as generalizing since k with
  | nil => rfl
  | cons a as ih =>
    have hback : c ∉ since ++ [a] := by
      rw [mem_append, mem_singleton]
      rintro (hmem | rfl)
      · exact hsince hmem
      · exact has mem_cons_self
    have hnot : ¬ Completes P since a := fun hdue => hback (hdue.2.subset hc)
    have hfalse : (advance P k a).2 = decide (Completes P since a) := by
      rw [decide_eq_false hnot]
      exact (h.advance a).elim (fun hsent => absurd hsent.2.1 hnot) And.left
    have hnext := h.next hfalse
    rw [recognise, due, hfalse, ih (by rwa [sinceThen_of_not hnot]) (fun hmem => has (mem_cons_of_mem _ hmem)) hnext]

/-! ### A pattern whose overlaps continue is always reported -/

/-- The index stands behind the longest beginning of the pattern that ends the elements. -/
structure Tracks (P since : List α) (k : ℕ) : Prop extends Sound P since k where
  longest {j : ℕ} (hj : j ≤ P.length) (h : P.take j <:+ since) : j ≤ k

omit [DecidableEq α] in
theorem tracks_nil (P : List α) : Tracks P [] 0 where
  toSound := sound_zero P []
  longest {j} hj h := by
    have hlength := congrArg List.length (suffix_nil.mp h)
    rw [length_take, length_nil] at hlength
    omega

/-- One element keeps the longest beginning, and is reported when it completes the pattern. -/
theorem Tracks.advance (hcontinues : Continues P) (h : Tracks P since k) (a : α) :
    (Lib.advance P k a).2 = decide (Completes P since a) ∧ Tracks P (sinceThen P since a) (Lib.advance P k a).1 := by
  rcases h.toSound.advance a with ⟨hsent, hdue, hzero⟩ | ⟨hnone, hsound⟩
  · rw [hsent, hzero, sinceThen_of_completes hdue, decide_eq_true hdue]
    exact ⟨rfl, tracks_nil P⟩
  · -- Every beginning that ends the elements now is the next index at most.
    have hlongest {j : ℕ} (hj : j ≤ P.length) (hend : P.take j <:+ since ++ [a]) : j ≤ (Lib.advance P k a).1 := by
      cases j with
      | zero => exact Nat.zero_le _
      | succ j =>
        obtain ⟨hbefore, hlast⟩ := take_suffix_concat hj hend
        have hle := h.longest (Nat.le_of_lt hj) hbefore
        rw [Lib.advance] at hnone ⊢
        by_cases hnext : P[k]? = some a
        · rw [if_pos hnext] at hnone ⊢
          by_cases hwhole : P.length ≤ k + 1
          · rw [if_pos hwhole] at hnone
            exact absurd hnone (by decide)
          · rw [if_neg hwhole]
            exact Nat.succ_le_succ hle
        · rw [if_neg hnext]
          -- A shorter beginning that is not empty would continue as the longest one does.
          obtain rfl : j = 0 := by
            by_contra hpos
            rcases Nat.lt_or_eq_of_le hle with hlt | rfl
            · have hends := take_suffix_take hbefore h.suffix hle
              have hk := h.lt (ne_nil_of_length_pos (Nat.zero_lt_of_lt hj))
              exact hnext (hcontinues j k (Nat.pos_of_ne_zero hpos) hlt hk hends ▸ hlast)
            · exact hnext hlast
          rw [if_pos hlast]
    have hnot : ¬ Completes P since a := by
      rintro ⟨hne, hwhole⟩
      have hle := hlongest (Nat.le_refl _) (by rwa [take_length])
      exact absurd (hsound.lt hne) (Nat.not_lt_of_le hle)
    rw [hnone, sinceThen_of_not hnot, decide_eq_false hnot]
    exact ⟨rfl, hsound, hlongest⟩

theorem recognise_eq_due (hcontinues : Continues P) (h : Tracks P since k) (as : List α) :
    recognise P k as = due P since as := by
  induction as generalizing since k with
  | nil => rfl
  | cons a as ih =>
    obtain ⟨hsent, hnext⟩ := h.advance hcontinues a
    rw [recognise, due, hsent, ih hnext]

/-! ### An overlap that does not continue is missed -/

/-- The index after some elements. -/
def progress (P : List α) : ℕ → List α → ℕ
  | k, [] => k
  | k, a :: as => progress P (advance P k a).1 as

theorem recognise_append (as bs : List α) :
    recognise P k (as ++ bs) = recognise P k as ++ recognise P (progress P k as) bs := by
  induction as generalizing k with
  | nil => rfl
  | cons a as ih => rw [cons_append, recognise, recognise, progress, ih, cons_append]

theorem advance_of_next (h : P[k]? = some a) (hlt : k + 1 < P.length) : advance P k a = (k + 1, false) := by
  rw [advance, if_pos h, if_neg (Nat.not_le_of_lt hlt)]

/-- The elements of the pattern, short of the last one, move the index along. -/
theorem recognise_beginning {i : ℕ} (hik : i ≤ k) (hk : k < P.length) :
    true ∉ recognise P i ((P.take k).drop i) ∧ progress P i ((P.take k).drop i) = k := by
  induction hn : k - i generalizing i with
  | zero =>
    rw [drop_eq_nil_of_le (by rw [length_take]; omega)]
    exact ⟨not_mem_nil, by rw [progress]; omega⟩
  | succ n ih =>
    have hi : i < (P.take k).length := by
      rw [length_take]
      omega
    have hadvance := advance_of_next (List.getElem?_eq_getElem (show i < P.length by omega)) (by omega)
    obtain ⟨hnone, hprogress⟩ := ih (i := i + 1) (by omega) (by omega)
    rw [drop_eq_getElem_cons hi, getElem_take, recognise, progress, hadvance]
    refine ⟨fun hmem => ?_, hprogress⟩
    exact (mem_cons.mp hmem).elim (fun h => Bool.false_ne_true h.symm) hnone

/-- An index moves by one at most. -/
theorem advance_le (k : ℕ) (a : α) : (advance P k a).1 ≤ k + 1 := by
  rw [advance]
  by_cases hnext : P[k]? = some a
  · rw [if_pos hnext]
    split
    · exact Nat.zero_le _
    · exact Nat.le_refl _
  · rw [if_neg hnext]
    dsimp only
    split
    · omega
    · exact Nat.zero_le _

/-- Too few elements report nothing. -/
theorem recognise_short (h : k + as.length < P.length) : true ∉ recognise P k as := by
  induction as generalizing k with
  | nil => exact not_mem_nil
  | cons a as ih =>
    rw [length_cons] at h
    have hnone : (advance P k a).2 = false := by
      rw [advance]
      by_cases hnext : P[k]? = some a
      · rw [if_pos hnext, if_neg (by omega)]
      · rw [if_neg hnext]
    have hle := advance_le (P := P) k a
    rw [recognise, hnone]
    exact fun hmem => (mem_cons.mp hmem).elim (fun h => absurd h (by decide)) (ih (by omega))

/-- Elements at which nothing is due do not end with the pattern. -/
theorem not_suffix_of_not_due (hP : P ≠ []) (hnone : true ∉ due P since as) (hne : as ≠ []) :
    ¬ P <:+ since ++ as := by
  induction as generalizing since with
  | nil => exact absurd rfl hne
  | cons a as ih =>
    rw [due, mem_cons, not_or] at hnone
    have hnot : ¬ Completes P since a := fun hdue => hnone.1 (decide_eq_true hdue).symm
    have hrest := hnone.2
    rw [sinceThen_of_not hnot] at hrest
    rw [append_cons]
    cases as with
    | nil =>
      rw [append_nil]
      exact fun hend => hnot ⟨hP, hend⟩
    | cons b bs => exact ih hrest (cons_ne_nil b bs)

/-- The pattern is entered with a false start, and not reported. -/
theorem exists_missed (h : ¬ Continues P) : ∃ as, (∀ a ∈ as, a ∈ P) ∧ recognise P 0 as ≠ due P [] as := by
  obtain ⟨j, k, hj, hjk, hk, hend, hother⟩ : ∃ j k, 0 < j ∧ j < k ∧ k < P.length ∧ P.take j <:+ P.take k ∧ P[j]? ≠ P[k]? := by
    simpa only [Continues, not_forall, exists_prop] using h
  have hjP : j < P.length := Nat.lt_trans hjk hk
  have hP : P ≠ [] := ne_nil_of_length_pos (Nat.zero_lt_of_lt hk)
  have hwhole : P <:+ P.take k ++ P.drop j := by
    obtain ⟨front, hfront⟩ := hend
    exact ⟨front, by rw [← hfront, append_assoc, List.take_append_drop]⟩
  refine ⟨P.take k ++ P.drop j, ?_, fun heq => ?_⟩
  · intro a ha
    exact (mem_append.mp ha).elim mem_of_mem_take mem_of_mem_drop
  · have hnone : true ∉ recognise P 0 (P.take k ++ P.drop j) := by
      obtain ⟨hfirst, hprogress⟩ := recognise_beginning (Nat.zero_le k) hk
      rw [drop_zero] at hfirst hprogress
      rw [recognise_append, hprogress, drop_eq_getElem_cons hjP, recognise]
      -- The element behind the beginning is not the expected one, and restarts the index.
      have hrestart : advance P k P[j] = (if P[0]? = some P[j] then 1 else 0, false) := by
        rw [advance, if_neg fun hsame => hother ((List.getElem?_eq_getElem hjP).trans hsame.symm)]
      have hle : (if P[0]? = some P[j] then 1 else 0) ≤ 1 := by
        split
        · exact Nat.le_refl 1
        · exact Nat.zero_le 1
      have hrest : true ∉ recognise P (if P[0]? = some P[j] then 1 else 0) (P.drop (j + 1)) :=
        recognise_short (by rw [length_drop]; omega)
      rw [hrestart, mem_append, mem_cons]
      rintro (hmem | hmem | hmem)
      · exact hfirst hmem
      · exact Bool.false_ne_true hmem.symm
      · exact hrest hmem
    rw [heq] at hnone
    have hne : P.take k ++ P.drop j ≠ [] := fun hnil => hP (suffix_nil.mp (hnil ▸ hwhole))
    exact not_suffix_of_not_due hP hnone hne hwhole

end

end Cbps.Lib
