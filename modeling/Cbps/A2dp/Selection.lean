import Cbps.A2dp.Codecs

/-!
# When a selection is acceptable

A chain of tests leaves one bit of its field, the first one that passes. If the local capabilities are
tested too, the bit is a common one. If only the remote ones are tested, it is a common one exactly when
the local device has the bit that the chain prefers among the remote bits: this is `Prefers`.
-/

namespace Cbps.A2dp

open List

/-! ### Chains of tests -/

@[simp] theorem has_mask (c : Caps) (i : ℕ) (m : Octet) (b : Bit) :
    (c.mask i m).has b = (c.has b && (decide (b.1 ≠ i) || m.getLsbD b.2)) := by
  unfold Caps.has Caps.mask
  split_ifs with h
  · simp [h]
  · simp [h]

@[simp] theorem has_put (c : Caps) (i : ℕ) (v : Octet) (b : Bit) :
    (c.put i v).has b = if b.1 = i then v.getLsbD b.2 else c.has b := by
  unfold Caps.has Caps.put
  split_ifs with h
  · rfl
  · rfl

theorem pick_cons {α : Type} (test : Bit → Bool) (row : Bit × α) (rows : List (Bit × α)) (last : α) :
    pick test (row :: rows) last = if test row.1 then row.2 else pick test rows last := by
  unfold pick
  rw [List.find?_cons]
  cases test row.1 <;> rfl

/-- What is picked is related to the bit that is picked. -/
theorem pick_rel {α : Type} {P : Bit → α → Prop} (test : Bit → Bool) {rows : List (Bit × α)} {e : Bit}
    {last : α} (hrows : ∀ row ∈ rows, P row.1 row.2) (hlast : P e last) :
    P (pick test (rows.map fun row => (row.1, row.1)) e) (pick test rows last) := by
  induction rows with
  | nil => exact hlast
  | cons row rows ih =>
    rw [map_cons, pick_cons, pick_cons]
    split_ifs with h
    · exact hrows row mem_cons_self
    · exact ih fun row hrow => hrows row (mem_cons_of_mem _ hrow)

theorem pick_congr {α : Type} {test test' : Bit → Bool} {rows : List (Bit × α)} (last : α)
    (h : ∀ row ∈ rows, test row.1 = test' row.1) : pick test rows last = pick test' rows last := by
  induction rows with
  | nil => rfl
  | cons row rows ih =>
    rw [pick_cons, pick_cons, h row mem_cons_self,
      ih fun row hrow => h row (mem_cons_of_mem _ hrow)]

/-- The bit that a chain of tests leaves, where `e` is the one that is left without a test. -/
def choice {α : Type} (test : Bit → Bool) (rows : List (Bit × α)) (e : Bit) : Bit :=
  pick test (rows.map fun row => (row.1, row.1)) e

/-- The bits in the order in which they are preferred. -/
def order {α : Type} (rows : List (Bit × α)) (e : Bit) : List Bit := rows.map Prod.fst ++ [e]

theorem choice_mem {α : Type} (test : Bit → Bool) (rows : List (Bit × α)) (e : Bit) :
    choice test rows e ∈ order rows e := by
  induction rows with
  | nil => exact mem_singleton_self e
  | cons row rows ih =>
    rw [choice, map_cons, pick_cons]
    split_ifs with h
    · exact mem_cons_self
    · exact mem_cons_of_mem _ ih

/-- The bit that is left has passed the test, if any bit passes it. -/
theorem test_choice {α : Type} {test : Bit → Bool} {rows : List (Bit × α)} {e : Bit}
    (h : ∃ b ∈ order rows e, test b = true) : test (choice test rows e) = true := by
  induction rows with
  | nil =>
    obtain ⟨b, hb, htest⟩ := h
    rwa [mem_singleton.mp hb] at htest
  | cons row rows ih =>
    rw [choice, map_cons, pick_cons]
    split_ifs with hrow
    · exact hrow
    · obtain ⟨b, hb, htest⟩ := h
      refine ih ⟨b, (mem_cons.mp hb).resolve_left ?_, htest⟩
      rintro rfl
      exact hrow htest

theorem test_choice_iff {α : Type} (test : Bit → Bool) (rows : List (Bit × α)) (e : Bit) :
    test (choice test rows e) = true ↔ ∃ b ∈ order rows e, test b = true :=
  ⟨fun h => ⟨_, choice_mem test rows e, h⟩, test_choice⟩

/-- What stands beside a bit of a chain has this bit only of a field. -/
def Fits (f : Field) (rows : List (Bit × Octet)) (e : Bit) (last : Octet) : Prop :=
  ∀ row ∈ rows ++ [(e, last)], ∀ b ∈ f.bits, row.2.getLsbD b.2 = decide (b = row.1)

instance (f : Field) (rows : List (Bit × Octet)) (e : Bit) (last : Octet) : Decidable (Fits f rows e last) := by
  unfold Fits
  infer_instance

theorem Fits.getLsbD_pick {f : Field} {rows : List (Bit × Octet)} {e : Bit} {last : Octet}
    (h : Fits f rows e last) (test : Bit → Bool) {b : Bit} (hb : b ∈ f.bits) :
    (pick test rows last).getLsbD b.2 = decide (b = choice test rows e) :=
  pick_rel (P := fun b' (m : Octet) => m.getLsbD b.2 = decide (b = b')) test
    (fun row hrow => h row (mem_append_left _ hrow) b hb)
    (h (e, last) (mem_append_right _ (mem_singleton_self _)) b hb)

/-- The first bit of the remote capabilities, in the order of preference, is a local one too. -/
def Prefers (bits : List Bit) (l r : Caps) : Prop :=
  ∃ b, bits.find? r.has = some b ∧ l.has b = true

theorem prefers_iff {α : Type} {rows : List (Bit × α)} {e : Bit} {l r : Caps} :
    Prefers (order rows e) l r ↔ l.has (choice r.has rows e) = true ∧ r.has (choice r.has rows e) = true := by
  unfold Prefers
  induction rows with
  | nil =>
    rw [order, map_nil, nil_append, List.find?_singleton]
    change _ ↔ l.has e = true ∧ r.has e = true
    split_ifs with h
    · simp [h]
    · simp [h]
  | cons row rows ih =>
    rw [choice, map_cons, pick_cons, order, map_cons, cons_append, List.find?_cons]
    split_ifs with h
    · simp [h]
    · rw [eq_false_of_ne_true h]
      exact ih

/-- A configuration that keeps at most the bit `b` of the remote capabilities. -/
theorem selected_iff {f : Field} {l r cfg : Caps} {b : Bit} (hf : f.bits.Nodup) (hb : b ∈ f.bits)
    (h : ∀ b' ∈ f.bits, cfg.has b' = true → b' = b)
    (hr : l.has b = true → r.has b = true → cfg.has b = true) :
    f.Selected l r cfg ↔ l.has b = true ∧ r.has b = true := by
  constructor
  · rintro ⟨b', hb', hl, hr'⟩
    obtain ⟨hmem, hset⟩ := mem_filter.mp (hb' ▸ mem_singleton_self b')
    obtain rfl := h b' hmem hset
    exact ⟨hl, hr'⟩
  · rintro ⟨hl, hr'⟩
    refine ⟨b, Lib.filter_eq_singleton hf hb fun b' hb' => ⟨h b' hb', ?_⟩, hl, hr'⟩
    rintro rfl
    exact hr hl hr'

/-- A configuration that keeps at most the bit that a chain leaves. -/
theorem selected_iff_prefers {α : Type} (rows : List (Bit × α)) (e : Bit) {f : Field} {l r cfg : Caps}
    (hf : f.bits.Nodup) (horder : ∀ b ∈ order rows e, b ∈ f.bits)
    (h : ∀ b ∈ f.bits, cfg.has b = true → b = choice r.has rows e)
    (hr : r.has (choice r.has rows e) = true → cfg.has (choice r.has rows e) = true) :
    f.Selected l r cfg ↔ Prefers (order rows e) l r := by
  rw [prefers_iff]
  exact selected_iff hf (horder _ (choice_mem _ _ _)) h fun _ => hr

/-- A field that is left as it is. -/
theorem selected_iff_single {f : Field} {l r cfg : Caps} (hcfg : ∀ b ∈ f.bits, cfg.has b = r.has b)
    (hover : f.Overlaps l r) : f.Selected l r cfg ↔ f.Single r := by
  have hfilter : f.bits.filter cfg.has = f.bits.filter r.has := filter_congr hcfg
  unfold Field.Selected Field.Single
  rw [hfilter]
  constructor
  · rintro ⟨b, hb, -⟩
    exact ⟨b, hb⟩
  · rintro ⟨b, hb⟩
    obtain ⟨b', hb', hl, hr⟩ := hover
    obtain rfl : b' = b := by
      have hmem : b' ∈ f.bits.filter r.has := mem_filter.mpr ⟨hb', hr⟩
      rw [hb] at hmem
      exact mem_singleton.mp hmem
    exact ⟨b', hb, hl, hr⟩

/-! ### Steps -/

/-- The bit that a step leaves. -/
def Step.choice (s : Step) (e : Bit) (l c : Caps) : Bit := A2dp.choice (s.test l c) s.rows e

/-- A step leaves one bit of a field, and `e` if all the tests fail. -/
def Step.Picks (s : Step) (f : Field) (e : Bit) : Prop :=
  Fits f s.rows e s.last ∧
  (∀ b ∈ f.bits, b.1 = s.index ∧ b ∈ order s.rows e) ∧ (∀ b ∈ order s.rows e, b ∈ f.bits)

instance (s : Step) (f : Field) (e : Bit) : Decidable (s.Picks f e) :=
  inferInstanceAs (Decidable (_ ∧ _ ∧ _))

/-- A step leaves a field as it is. -/
def Step.Spares (s : Step) (f : Field) : Prop :=
  ∀ b ∈ f.bits, b.1 = s.index → ∀ m ∈ s.last :: s.rows.map Prod.snd, m.getLsbD b.2 = true

instance (s : Step) (f : Field) : Decidable (s.Spares f) :=
  haveI (b : Bit) : Decidable (∀ m ∈ s.last :: s.rows.map Prod.snd, m.getLsbD b.2 = true) :=
    List.decidableBAll _ _
  inferInstanceAs (Decidable (∀ b ∈ f.bits, b.1 = s.index → _))

section Steps

variable {s : Step} {f : Field} {e b : Bit} {l c : Caps}

theorem Step.Spares.has_run (h : s.Spares f) (hb : b ∈ f.bits) : (s.run l c).has b = c.has b := by
  rw [Step.run, has_mask]
  by_cases hi : b.1 = s.index
  · have hkept : (pick (s.test l c) s.rows s.last).getLsbD b.2 = true := by
      have hm := h b hb hi
      rw [forall_mem_cons] at hm
      refine pick_rel (P := fun _ (m : Octet) => m.getLsbD b.2 = true) (e := b) (s.test l c) (fun row hrow => ?_) hm.1
      exact hm.2 _ (mem_map_of_mem hrow)
    rw [hkept, Bool.or_true, Bool.and_true]
  · simp [hi]

theorem Step.Picks.choice_mem (h : s.Picks f e) : s.choice e l c ∈ f.bits :=
  h.2.2 _ (A2dp.choice_mem _ _ _)

theorem Step.Picks.has_run (h : s.Picks f e) (hb : b ∈ f.bits) :
    (s.run l c).has b = (c.has b && decide (b = s.choice e l c)) := by
  rw [Step.run, has_mask, h.1.getLsbD_pick (s.test l c) hb, (h.2.1 b hb).1, Step.choice]
  simp

end Steps

/-- The steps of a selection, one after the other. -/
def runs (steps : List Step) (l c : Caps) : Caps := steps.foldl (fun c s => s.run l c) c

theorem has_runs_of_spares {steps : List Step} {f : Field} (h : ∀ s ∈ steps, s.Spares f) {b : Bit}
    (hb : b ∈ f.bits) (l c : Caps) : (runs steps l c).has b = c.has b := by
  induction steps generalizing c with
  | nil => rfl
  | cons s steps ih =>
    exact (ih (fun s hs => h s (mem_cons_of_mem _ hs)) (s.run l c)).trans
      ((h s mem_cons_self).has_run hb)

/-- One of the steps picks the field, and the others spare it. -/
def PickedBy (f : Field) (e : Bit) (s : Step) (before after : List Step) : Prop :=
  s.Picks f e ∧ (∀ s' ∈ before, s'.Spares f) ∧ (∀ s' ∈ after, s'.Spares f)

instance (f : Field) (e : Bit) (s : Step) (before after : List Step) :
    Decidable (PickedBy f e s before after) :=
  inferInstanceAs (Decidable (_ ∧ _ ∧ _))

section PickedBy

variable {f : Field} {e : Bit} {s : Step} {before after : List Step}

theorem PickedBy.has_runs (h : PickedBy f e s before after) {b : Bit} (hb : b ∈ f.bits) (l c : Caps) :
    (runs (before ++ s :: after) l c).has b = (c.has b && decide (b = s.choice e l c)) := by
  obtain ⟨hpick, hbefore, hafter⟩ := h
  have hsame : ∀ b ∈ f.bits, (runs before l c).has b = c.has b :=
    fun b hb => has_runs_of_spares hbefore hb l c
  have hchoice : s.choice e l (runs before l c) = s.choice e l c := by
    refine pick_congr e fun row' hrow' => ?_
    obtain ⟨row, hrow, rfl⟩ := mem_map.mp hrow'
    have hmem : row.1 ∈ f.bits := hpick.2.2 _ (mem_append_left _ (mem_map_of_mem hrow))
    simp only [Step.test, hsame _ hmem]
  rw [runs, foldl_append, foldl_cons]
  refine (has_runs_of_spares hafter hb l _).trans ?_
  rw [hpick.has_run hb]
  change ((runs before l c).has b && decide (b = s.choice e l (runs before l c))) = _
  rw [hsame b hb, hchoice]

theorem PickedBy.selected_iff (h : PickedBy f e s before after) (hf : f.bits.Nodup) {l r cfg : Caps}
    (hcfg : ∀ b ∈ f.bits, cfg.has b = (runs (before ++ s :: after) l r).has b) :
    f.Selected l r cfg ↔ l.has (s.choice e l r) = true ∧ r.has (s.choice e l r) = true := by
  have hhas : ∀ b ∈ f.bits, cfg.has b = true ↔ r.has b = true ∧ b = s.choice e l r := by
    intro b hb
    rw [hcfg b hb, h.has_runs hb, Bool.and_eq_true, decide_eq_true_iff]
  have hmem : s.choice e l r ∈ f.bits := h.1.choice_mem
  exact A2dp.selected_iff hf hmem (fun b hb hset => ((hhas b hb).mp hset).2)
    fun _ hr => (hhas _ hmem).mpr ⟨hr, rfl⟩

/-- A chain that tests both capabilities finds a common bit. -/
theorem PickedBy.selected (h : PickedBy f e s before after) (hf : f.bits.Nodup) (hboth : s.both = true)
    {l r cfg : Caps} (hcfg : ∀ b ∈ f.bits, cfg.has b = (runs (before ++ s :: after) l r).has b)
    (hover : f.Overlaps l r) : f.Selected l r cfg := by
  obtain ⟨b, hb, hl, hr⟩ := hover
  have htest : s.test l r (s.choice e l r) = true := by
    refine test_choice ⟨b, (h.1.2.1 b hb).2, ?_⟩
    rw [Step.test, if_pos hboth, hl, hr]
    rfl
  rw [Step.test, if_pos hboth, Bool.and_eq_true] at htest
  exact (h.selected_iff hf hcfg).mpr htest.symm

/-- A chain that tests the remote capabilities only finds the preferred bit. -/
theorem PickedBy.selected_iff_prefers (h : PickedBy f e s before after) (hf : f.bits.Nodup)
    (hboth : s.both = false) {l r cfg : Caps}
    (hcfg : ∀ b ∈ f.bits, cfg.has b = (runs (before ++ s :: after) l r).has b) :
    f.Selected l r cfg ↔ Prefers (order s.rows e) l r := by
  have htest : s.test l r = r.has := by
    funext b
    simp [Step.test, hboth]
  rw [h.selected_iff hf hcfg, Step.choice, htest, prefers_iff]

end PickedBy

/-! ### SBC -/

theorem has_clampBitpools (l c : Caps) {b : Bit} (hb : b.1 ≠ 6 ∧ b.1 ≠ 7) :
    (clampBitpools l c).has b = c.has b := by
  unfold clampBitpools
  dsimp only
  split_ifs <;> simp [hb]

/-- The chain of the sampling frequency. -/
def sbcFrequencyStep : Role → Step
  | .sink => sbcSinkFrequencyStep
  | .source => sbcSourceFrequencyStep

def sbcSteps (role : Role) : List Step :=
  [sbcFrequencyStep role, sbcChannelModeStep, sbcBlockLengthStep, sbcSubbandsStep, sbcAllocationStep]

/-- The selection of SBC, of both roles. -/
def selectSbc (role : Role) (l r : Caps) : Caps := clampBitpools l (runs (sbcSteps role) l r)

/-- The orders in which the chains of SBC that test the remote capabilities prefer their bits. -/
def sbcOrders : Role → List (List Bit)
  | .sink => [[(4, 5), (4, 4), (4, 6), (4, 7)], [(5, 4), (5, 5), (5, 6), (5, 7)], [(5, 2), (5, 3)],
      [(5, 0), (5, 1)]]
  | .source => [[(5, 4), (5, 5), (5, 6), (5, 7)], [(5, 2), (5, 3)], [(5, 0), (5, 1)]]

theorem sbc_selected_iff (role : Role) {l r : Caps} (hover : ∀ f ∈ sbcFields, f.Overlaps l r) :
    (∀ f ∈ sbcFields, f.Selected l r (selectSbc role l r)) ↔ ∀ bits ∈ sbcOrders role, Prefers bits l r := by
  have hblock : PickedBy sbcBlockLength (5, 7) sbcBlockLengthStep
      [sbcFrequencyStep role, sbcChannelModeStep] [sbcSubbandsStep, sbcAllocationStep] := by
    cases role <;> decide
  have hsubbands : PickedBy sbcSubbands (5, 3) sbcSubbandsStep
      [sbcFrequencyStep role, sbcChannelModeStep, sbcBlockLengthStep] [sbcAllocationStep] := by
    cases role <;> decide
  have hallocation : PickedBy sbcAllocation (5, 1) sbcAllocationStep
      [sbcFrequencyStep role, sbcChannelModeStep, sbcBlockLengthStep, sbcSubbandsStep] [] := by
    cases role <;> decide
  have hmode : PickedBy sbcChannelMode (4, 3) sbcChannelModeStep [sbcFrequencyStep role]
      [sbcBlockLengthStep, sbcSubbandsStep, sbcAllocationStep] := by
    cases role <;> decide
  have hfrequency : PickedBy sbcFrequency (4, 7) (sbcFrequencyStep role) []
      [sbcChannelModeStep, sbcBlockLengthStep, sbcSubbandsStep, sbcAllocationStep] := by
    cases role <;> decide
  have hkept : ∀ f ∈ sbcFields, ∀ b ∈ f.bits,
      (selectSbc role l r).has b = (runs (sbcSteps role) l r).has b := by
    have hindex : ∀ f ∈ sbcFields, ∀ b ∈ f.bits, b.1 ≠ 6 ∧ b.1 ≠ 7 := by decide
    intro f hf b hb
    exact has_clampBitpools l _ (hindex f hf b hb)
  have hnodup : ∀ f ∈ sbcFields, f.bits.Nodup := by decide
  simp only [sbcFields, forall_mem_cons, not_mem_nil, false_imp_iff, implies_true,
    and_true] at hover hkept hnodup ⊢
  rw [hblock.selected_iff_prefers hnodup.2.2.1 rfl hkept.2.2.1,
    hsubbands.selected_iff_prefers hnodup.2.2.2.1 rfl hkept.2.2.2.1,
    hallocation.selected_iff_prefers hnodup.2.2.2.2 rfl hkept.2.2.2.2]
  have hchannels := hmode.selected hnodup.2.1 rfl hkept.2.1 hover.2.1
  cases role with
  | sink =>
    rw [hfrequency.selected_iff_prefers hnodup.1 rfl hkept.1]
    simp only [sbcOrders, forall_mem_cons, not_mem_nil, false_imp_iff, implies_true, and_true,
      hchannels, true_and]
    exact Iff.rfl
  | source =>
    have hrate := hfrequency.selected hnodup.1 rfl hkept.1 hover.1
    simp only [sbcOrders, forall_mem_cons, not_mem_nil, false_imp_iff, implies_true, and_true,
      hchannels, hrate, true_and]
    exact Iff.rfl

/-! ### AAC -/

/-- The chain of the sampling frequencies of AAC, with the test that comes before it. -/
def aacFrequencyRows : List (Bit × Octet) :=
  [((6, 7), 0x00), ((5, 0), 0x01), ((5, 1), 0x02), ((5, 2), 0x04), ((5, 3), 0x08), ((5, 4), 0x10),
    ((5, 5), 0x20), ((5, 6), 0x40)]

/-- The orders in which the chains of AAC prefer their bits. -/
def aacOrders : List (List Bit) :=
  [[(4, 6), (4, 7)], [(6, 7), (5, 0), (5, 1), (5, 2), (5, 3), (5, 4), (5, 5), (5, 6), (5, 7)],
    [(6, 2), (6, 3)]]

section Aac

variable {l r : Caps}

theorem aacObjectType_selected_iff :
    aacObjectType.Selected l r (selectOptimalAacCaps r) ↔ Prefers [(4, 6), (4, 7)] l r := by
  have hfits : Fits aacObjectType [((4, 6), 0x40)] (4, 7) 0x80 := by decide
  have hindex : ∀ b ∈ aacObjectType.bits, b.1 = 4 := by decide
  have horder : ∀ b ∈ order [((4, 6), (0x40 : Octet))] (4, 7), b ∈ aacObjectType.bits := by decide
  have hhas : ∀ b ∈ aacObjectType.bits, (selectOptimalAacCaps r).has b =
      decide (b = choice r.has [((4, 6), (0x40 : Octet))] (4, 7)) := by
    intro b hb
    rw [← hfits.getLsbD_pick r.has hb]
    unfold selectOptimalAacCaps Step.run
    dsimp only
    split_ifs <;> simp [hindex b hb, aacChannelsStep]
  refine selected_iff_prefers [((4, 6), (0x40 : Octet))] (4, 7) (by decide) horder (fun b hb hset => ?_)
    fun _ => ?_
  · rw [hhas b hb] at hset
    exact of_decide_eq_true hset
  · rw [hhas _ (horder _ (choice_mem _ _ _))]
    exact decide_eq_true rfl

/-- The capabilities before a sampling frequency is selected. -/
def aacNarrowed (r : Caps) : Caps :=
  let c := r.put 4 (pick r.has [((4, 6), 0x40)] 0x80)
  aacChannelsStep.run c c

theorem selectOptimalAacCaps_eq (r : Caps) :
    selectOptimalAacCaps r =
      if (aacNarrowed r).has (6, 7) then ((aacNarrowed r).mask 6 0x8f).put 5 0
      else
        ((aacNarrowed r).mask 6 0x0f).put 5 (pick ((aacNarrowed r).mask 6 0x0f).has aacFrequencyRows.tail 0x80) :=
  rfl

theorem has_aacNarrowed (r : Caps) {b : Bit} (hb : b.1 ≠ 4) :
    (aacNarrowed r).has b = (aacChannelsStep.run r r).has b := by
  have htest : ∀ row ∈ aacChannelsStep.rows, aacChannelsStep.test (r.put 4 (pick r.has [((4, 6), 0x40)] 0x80))
      (r.put 4 (pick r.has [((4, 6), 0x40)] 0x80)) row.1 = aacChannelsStep.test r r row.1 := by
    intro row hrow
    rw [mem_singleton.mp hrow]
    exact has_put r 4 _ (6, 2)
  rw [aacNarrowed, Step.run, Step.run, has_mask, has_mask, has_put, if_neg hb, pick_congr _ htest]

theorem has_five_aacNarrowed (r : Caps) (k : ℕ) : (aacNarrowed r).has (5, k) = r.has (5, k) := by
  have hindex : ((5, k) : Bit).1 ≠ 4 := Nat.succ_ne_self 4
  rw [has_aacNarrowed r hindex, Step.run, has_mask]
  exact Bool.and_true _

theorem has_seven_aacNarrowed (r : Caps) : (aacNarrowed r).has (6, 7) = r.has (6, 7) := by
  have hspare : aacChannelsStep.Spares [(6, 0x80)] := by decide
  rw [has_aacNarrowed r (by decide), hspare.has_run (by decide)]

theorem aacChannels_selected_iff :
    aacChannels.Selected l r (selectOptimalAacCaps r) ↔ Prefers [(6, 2), (6, 3)] l r := by
  have hpicked : PickedBy aacChannels (6, 3) aacChannelsStep [] [] := by decide
  have hindex : ∀ b ∈ aacChannels.bits, b.1 = 6 := by decide
  have hlow : ∀ b ∈ aacChannels.bits, (0x8f : Octet).getLsbD b.2 = true ∧ (0x0f : Octet).getLsbD b.2 = true := by
    decide
  refine hpicked.selected_iff_prefers (by decide) rfl fun b hb => ?_
  have hnarrowed : (aacNarrowed r).has b = (aacChannelsStep.run l r).has b :=
    has_aacNarrowed r (by rw [hindex b hb]; decide)
  have hfive : b.1 ≠ 5 := by rw [hindex b hb]; decide
  rw [selectOptimalAacCaps_eq]
  split_ifs with h
  · rw [has_put, if_neg hfive, has_mask, (hlow b hb).1, Bool.or_true, Bool.and_true]
    exact hnarrowed
  · rw [has_put, if_neg hfive, has_mask, (hlow b hb).2, Bool.or_true, Bool.and_true]
    exact hnarrowed

theorem has_aacFrequency (r : Caps) {b : Bit} (hb : b ∈ aacFrequencyField.bits) :
    (selectOptimalAacCaps r).has b = decide (b = choice r.has aacFrequencyRows (5, 7)) := by
  have hbits : ∀ b ∈ aacFrequencyField.bits, b.1 = 5 ∧ b ∈ Field.bits [(5, 0xff)] ∧ b ≠ (6, 7) ∨
      b.1 = 6 ∧ (0x8f : Octet).getLsbD b.2 = decide (b = (6, 7)) ∧ (0x0f : Octet).getLsbD b.2 = false ∧
        b ∉ order aacFrequencyRows.tail (5, 7) := by
    decide
  rw [selectOptimalAacCaps_eq, has_seven_aacNarrowed]
  by_cases hseven : r.has (6, 7) = true
  · have hchoice : choice r.has aacFrequencyRows (5, 7) = (6, 7) := by
      rw [choice, aacFrequencyRows, map_cons, pick_cons, if_pos hseven]
    rw [if_pos hseven, has_put, has_mask, hchoice]
    obtain ⟨hi, -, hne⟩ | ⟨hi, hmask, -⟩ := hbits b hb
    · rw [if_pos hi, BitVec.ofNat_eq_ofNat, BitVec.getLsbD_zero, decide_eq_false hne]
    · rw [hi, if_neg (by decide), hmask]
      by_cases hne : b = (6, 7)
      · rw [hne, has_seven_aacNarrowed, hseven]
        rfl
      · simp [hne]
  · have hchoice : choice r.has aacFrequencyRows (5, 7) = choice r.has aacFrequencyRows.tail (5, 7) := by
      rw [choice, aacFrequencyRows, map_cons, pick_cons, if_neg hseven]
      rfl
    have hfits : Fits [(5, 0xff)] aacFrequencyRows.tail (5, 7) 0x80 := by decide
    have hindex : ∀ row ∈ aacFrequencyRows.tail, row.1.1 = 5 := by decide
    have htest : ∀ row ∈ aacFrequencyRows.tail, ((aacNarrowed r).mask 6 0x0f).has row.1 = r.has row.1 := by
      rintro ⟨⟨i, k⟩, m⟩ hrow
      obtain rfl : i = 5 := hindex _ hrow
      rw [has_mask, has_five_aacNarrowed]
      exact Bool.and_true _
    rw [if_neg hseven, has_put, has_mask, hchoice, pick_congr _ htest]
    obtain ⟨hi, hmem, -⟩ | ⟨hi, -, hmask, hnot⟩ := hbits b hb
    · rw [if_pos hi, hfits.getLsbD_pick r.has hmem]
    · have hne : b ≠ choice r.has aacFrequencyRows.tail (5, 7) :=
        fun h => hnot (h ▸ choice_mem r.has aacFrequencyRows.tail (5, 7))
      rw [hi, if_neg (by decide), hmask, decide_eq_false hne]
      simp

theorem aacFrequency_selected_iff :
    aacFrequencyField.Selected l r (selectOptimalAacCaps r) ↔
      Prefers [(6, 7), (5, 0), (5, 1), (5, 2), (5, 3), (5, 4), (5, 5), (5, 6), (5, 7)] l r := by
  have horder : ∀ b ∈ order aacFrequencyRows (5, 7), b ∈ aacFrequencyField.bits := by decide
  refine selected_iff_prefers aacFrequencyRows (5, 7) (by decide) horder (fun b hb hset => ?_) fun _ => ?_
  · rw [has_aacFrequency r hb] at hset
    exact of_decide_eq_true hset
  · rw [has_aacFrequency r (horder _ (choice_mem _ _ _))]
    exact decide_eq_true rfl

theorem aac_selected_iff :
    (∀ f ∈ aacFields, f.Selected l r (selectOptimalAacCaps r)) ↔ ∀ bits ∈ aacOrders, Prefers bits l r := by
  simp only [aacFields, aacOrders, forall_mem_cons, not_mem_nil, false_imp_iff, implies_true,
    and_true, aacObjectType_selected_iff, aacFrequency_selected_iff, aacChannels_selected_iff]

end Aac

end Cbps.A2dp
