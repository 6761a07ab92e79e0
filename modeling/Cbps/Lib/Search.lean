import Cbps.Lib.Loop
import Mathlib.Data.Finset.Card
import Mathlib.Data.Nat.Find
import Mathlib.Logic.Function.Iterate

/-!
# Searches that may run forever

A search takes turns at positions below a bound: a turn ends the search with a result or moves on to another position,
in front of or behind the one before. `search turn fuel p` takes as many turns as it is given. Where there are no fewer
turns than positions, `search_eq_some_iff` says that this is enough: a search that comes to an end does so before it
comes to any position twice. So `none` means that the search never ends.
-/

namespace Cbps.Lib

open Function

variable {ρ : Type*}

/-- Take turns until one has a result. -/
def search (turn : ℕ → ρ ⊕ ℕ) : (fuel p : ℕ) → Option ρ
  | 0, _ => none
  | fuel + 1, p =>
    match turn p with
    | .inl r => some r
    | .inr q => search turn fuel q

/-- The positions that a search comes to. -/
inductive Visits (turn : ℕ → ρ ⊕ ℕ) (start : ℕ) : ℕ → Prop
  | start : Visits turn start start
  | next {p q : ℕ} : Visits turn start p → turn p = .inr q → Visits turn start q

variable {turn : ℕ → ρ ⊕ ℕ} {start p q : ℕ} {r : ρ} {fuel : ℕ}

theorem search_inl (h : turn p = .inl r) : search turn (fuel + 1) p = some r := by
  rw [search, h]

theorem search_inr (h : turn p = .inr q) : search turn (fuel + 1) p = search turn fuel q := by
  rw [search, h]

/-- What holds at the start and is kept by every turn holds wherever the search comes to. -/
theorem Visits.keeps {I : ℕ → Prop} (h : Visits turn start p) (hstart : I start)
    (hturn : ∀ p q, I p → turn p = .inr q → I q) : I p := by
  induction h with
  | start => exact hstart
  | next _ hq ih => exact hturn _ _ ih hq

/-- The position after a turn, and the same where the search ends. -/
private def moved (turn : ℕ → ρ ⊕ ℕ) (p : ℕ) : ℕ :=
  match turn p with
  | .inl _ => p
  | .inr q => q

private theorem moved_inr (h : turn p = .inr q) : moved turn p = q := by rw [moved, h]

private theorem visits_iterate (turn : ℕ → ρ ⊕ ℕ) (start k : ℕ) : Visits turn start ((moved turn)^[k] start) := by
  induction k with
  | zero => exact .start
  | succ k ih =>
    rw [iterate_succ_apply']
    rcases h : turn ((moved turn)^[k] start) with r | q
    · rw [moved, h]
      exact ih
    · rw [moved_inr h]
      exact .next ih h

private theorem exists_iterate_of_visits (h : Visits turn start p) : ∃ k, (moved turn)^[k] start = p := by
  induction h with
  | start => exact ⟨0, rfl⟩
  | next _ hq ih =>
    obtain ⟨k, rfl⟩ := ih
    exact ⟨k + 1, (iterate_succ_apply' ..).trans (moved_inr hq)⟩

/-- The search ends at the first position with a result, if it has enough turns. -/
private theorem search_iterate {k : ℕ} (hbusy : ∀ i < k, ∃ q, turn ((moved turn)^[i] start) = .inr q)
    (h : turn ((moved turn)^[k] start) = .inl r) (hfuel : k < fuel) : search turn fuel start = some r := by
  induction k generalizing start fuel with
  | zero =>
    obtain ⟨fuel, rfl⟩ := Nat.exists_eq_succ_of_ne_zero (Nat.ne_zero_of_lt hfuel)
    exact search_inl h
  | succ k ih =>
    obtain ⟨fuel, rfl⟩ := Nat.exists_eq_succ_of_ne_zero (Nat.ne_zero_of_lt hfuel)
    obtain ⟨q, hq⟩ := hbusy 0 k.succ_pos
    rw [iterate_zero, id] at hq
    rw [search_inr hq]
    refine ih (fun i hi => ?_) ?_ (Nat.lt_of_succ_lt_succ hfuel)
    · have hnext := hbusy (i + 1) (Nat.succ_lt_succ hi)
      rwa [iterate_succ_apply, moved_inr hq] at hnext
    · rwa [iterate_succ_apply, moved_inr hq] at h

variable {bound : ℕ}

/-- A search among fewer positions than it has turns finds every result it comes to. -/
theorem search_eq_some_iff (hstart : start < bound) (hbound : ∀ p q, turn p = .inr q → q < bound)
    (hfuel : bound ≤ fuel) : search turn fuel start = some r ↔ ∃ p, Visits turn start p ∧ turn p = .inl r := by
  constructor
  · intro h
    clear hstart hfuel
    induction fuel generalizing start with
    | zero => exact absurd h nofun
    | succ fuel ih =>
      rcases hturn : turn start with r' | q
      · rw [search_inl hturn] at h
        obtain rfl := Option.some.inj h
        exact ⟨start, .start, hturn⟩
      · rw [search_inr hturn] at h
        obtain ⟨p, hp, hr⟩ := ih h
        refine ⟨p, ?_, hr⟩
        clear hr
        induction hp with
        | start => exact .next .start hturn
        | next _ hq ih => exact .next ih hq
  · rintro ⟨p, hp, hr⟩
    obtain ⟨k, rfl⟩ := exists_iterate_of_visits hp
    -- the first turn that has a result
    have hend : ∃ k, ∃ r, turn ((moved turn)^[k] start) = .inl r := ⟨k, r, hr⟩
    classical
    obtain ⟨r', hr'⟩ := Nat.find_spec hend
    have hbusy : ∀ i < Nat.find hend, ∃ q, turn ((moved turn)^[i] start) = .inr q := by
      intro i hi
      rcases h : turn ((moved turn)^[i] start) with r | q
      · exact absurd ⟨r, h⟩ (Nat.find_min hend hi)
      · exact ⟨q, rfl⟩
    have hstay : ∀ i, (moved turn)^[i] ((moved turn)^[Nat.find hend] start) = (moved turn)^[Nat.find hend] start := by
      intro i
      induction i with
      | zero => rfl
      | succ i ih => rw [iterate_succ_apply', ih, moved, hr']
    obtain rfl : r' = r := by
      have hk : Nat.find hend ≤ k := Nat.find_min' hend ⟨r, hr⟩
      have h := hstay (k - Nat.find hend)
      rw [← iterate_add_apply, Nat.sub_add_cancel hk] at h
      rw [h] at hr
      exact Sum.inl.inj (hr'.symm.trans hr)
    refine search_iterate hbusy hr' (Nat.lt_of_lt_of_le ?_ hfuel)
    -- up to there no position comes twice
    have hlt : ∀ i, (moved turn)^[i] start < bound := by
      intro i
      refine (visits_iterate turn start i).keeps hstart fun _ _ _ h => hbound _ _ h
    have hinj : Set.InjOn (fun i => (moved turn)^[i] start) (Finset.range (Nat.find hend + 1)) := by
      intro i hi j hj hij
      by_contra hne
      wlog hlt : i < j generalizing i j
      · exact this hj hi hij.symm (Ne.symm hne) (by omega)
      have hj : j ≤ Nat.find hend := by
        have := Finset.mem_range.mp (Finset.mem_coe.mp hj)
        omega
      refine Nat.find_min hend (m := Nat.find hend - j + i) (by omega) ⟨r', ?_⟩
      have hsame : (moved turn)^[Nat.find hend - j + i] start = (moved turn)^[Nat.find hend] start := by
        rw [iterate_add_apply, show (moved turn)^[i] start = (moved turn)^[j] start from hij,
          ← iterate_add_apply, Nat.sub_add_cancel hj]
      rw [hsame]
      exact hr'
    have hcard := Finset.card_le_card_of_injOn (t := Finset.range bound) (fun i => (moved turn)^[i] start)
      (fun i _ => Finset.mem_coe.mpr (Finset.mem_range.mpr (hlt i))) hinj
    rw [Finset.card_range, Finset.card_range] at hcard
    omega

/-- The search does not end if it ends nowhere it comes to. -/
theorem search_eq_none_iff (hstart : start < bound) (hbound : ∀ p q, turn p = .inr q → q < bound)
    (hfuel : bound ≤ fuel) : search turn fuel start = none ↔ ∀ p, Visits turn start p → ∃ q, turn p = .inr q := by
  rw [Option.eq_none_iff_forall_ne_some]
  constructor
  · intro h p hp
    rcases hturn : turn p with r | q
    · exact absurd ((search_eq_some_iff hstart hbound hfuel).mpr ⟨p, hp, hturn⟩) (h r)
    · exact ⟨q, rfl⟩
  · intro h r hr
    obtain ⟨p, hp, hturn⟩ := (search_eq_some_iff hstart hbound hfuel).mp hr
    obtain ⟨q, hq⟩ := h p hp
    exact absurd (hturn.symm.trans hq) nofun

/-- A search that comes to another position takes a first turn. -/
theorem Visits.head (h : Visits turn p q) : p = q ∨ ∃ r, turn p = .inr r ∧ Visits turn r q := by
  induction h with
  | start => exact .inl rfl
  | next _ hturn ih =>
    rcases ih with rfl | ⟨r, hr, hvisits⟩
    · exact .inr ⟨_, hturn, .start⟩
    · exact .inr ⟨r, hr, .next hvisits hturn⟩

/-- A search that comes back to where it started does not end. -/
theorem search_eq_none_of_visits (hstart : start < bound) (hbound : ∀ p q, turn p = .inr q → q < bound)
    (hfuel : bound ≤ fuel) (hturn : turn start = .inr q) (hback : Visits turn q start) :
    search turn fuel start = none := by
  rw [search_eq_none_iff hstart hbound hfuel]
  intro p hp
  -- wherever it comes, it goes on to the start
  have hon : ∃ q, turn p = .inr q ∧ Visits turn q start := by
    refine hp.keeps (I := fun p => ∃ q, turn p = .inr q ∧ Visits turn q start) ⟨q, hturn, hback⟩ ?_
    rintro p p' ⟨r, hr, hvisits⟩ hp'
    obtain rfl : r = p' := Sum.inr.inj (hr.symm.trans hp')
    rcases hvisits.head with rfl | hnext
    · exact ⟨q, hturn, hback⟩
    · exact hnext
  obtain ⟨q, hq, -⟩ := hon
  exact ⟨q, hq⟩

/-- A search that only moves on comes to an end. -/
theorem search_ne_none (hstart : start < bound) (hbound : ∀ p q, turn p = .inr q → q < bound)
    (hfuel : bound ≤ fuel) (hrise : ∀ p q, Visits turn start p → turn p = .inr q → p < q) :
    search turn fuel start ≠ none := by
  intro hnone
  have hbusy := (search_eq_none_iff hstart hbound hfuel).mp hnone
  have hfar : ∀ k, ∃ p, Visits turn start p ∧ k ≤ p := by
    intro k
    induction k with
    | zero => exact ⟨start, .start, Nat.zero_le _⟩
    | succ k ih =>
      obtain ⟨p, hp, hk⟩ := ih
      obtain ⟨q, hq⟩ := hbusy p hp
      exact ⟨q, .next hp hq, Nat.lt_of_le_of_lt hk (hrise p q hp hq)⟩
  obtain ⟨p, hp, hk⟩ := hfar bound
  exact absurd (hp.keeps hstart fun _ _ _ h => hbound _ _ h) (Nat.not_lt.mpr hk)

/-- The search does not end exactly if some positions, the start among them, all move on to each other. -/
theorem search_eq_none_iff_closed (hstart : start < bound) (hbound : ∀ p q, turn p = .inr q → q < bound)
    (hfuel : bound ≤ fuel) :
    search turn fuel start = none ↔ ∃ S : ℕ → Prop, S start ∧ ∀ p, S p → ∃ q, turn p = .inr q ∧ S q := by
  rw [search_eq_none_iff hstart hbound hfuel]
  constructor
  · intro h
    refine ⟨Visits turn start, .start, fun p hp => ?_⟩
    obtain ⟨q, hq⟩ := h p hp
    exact ⟨q, hq, .next hp hq⟩
  · rintro ⟨S, hS, hmoves⟩ p hp
    have hmem : S p := by
      refine hp.keeps hS fun p q hpS hq => ?_
      obtain ⟨q', hq', hq'S⟩ := hmoves p hpS
      exact Sum.inr.inj (hq'.symm.trans hq) ▸ hq'S
    obtain ⟨q, hq, -⟩ := hmoves p hmem
    exact ⟨q, hq⟩

/-- A loop over states whose positions move as those of a search ends exactly when the search does. -/
theorem loop_follows {σ : Type} {ε : Type*} {out : ε} {turns : σ → Except ε (Option σ)} {turn : ℕ → Unit ⊕ ℕ} {position : σ → ℕ}
    (hstop : ∀ st, turn (position st) = .inl () → turns st = .ok none)
    (hmove : ∀ st q, turn (position st) = .inr q → ∃ st', turns st = .ok (some st') ∧ position st' = q) (n : ℕ) (st : σ) :
    (search turn n (position st) = none ∧ loop out turns n st = .error out) ∨
      (search turn n (position st) ≠ none ∧ ∃ r, loop out turns n st = .ok r) := by
  induction n generalizing st with
  | zero => exact .inl ⟨rfl, rfl⟩
  | succ n ih =>
    rcases hturn : turn (position st) with u | q
    · rw [search_inl hturn, loop_stop (hstop st hturn)]
      exact .inr ⟨Option.some_ne_none _, st, rfl⟩
    · obtain ⟨st', hst', rfl⟩ := hmove st q hturn
      rw [search_inr hturn, loop_turn hst']
      exact ih st'

end Cbps.Lib
