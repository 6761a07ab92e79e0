import Cbps.A2dp.Selection

/-!
# FastStream and aptX

The selections of the vendor codecs keep what both sides have of an octet. FastStream has a field for
each direction that both sides support, and a selection leaves all the common sampling frequencies that
are known to the library; aptX leaves one of two frequencies.
-/

namespace Cbps.A2dp

open List

/-- The bit is set in both. -/
def common (l r : Caps) (b : Bit) : Bool := l.has b && r.has b

theorem and_and_ne_zero_iff {m : Octet} {k : ℕ} (hk : k < 8) (hm : m = BitVec.twoPow 8 k) (l r : Caps) (i : ℕ) :
    l i &&& r i &&& m ≠ 0 ↔ common l r (i, k) = true := by
  rw [and_ne_zero_iff hk hm, BitVec.getLsbD_and]
  rfl

theorem overlaps_iff_and_and (l r : Caps) (i : ℕ) (mask : Octet) :
    Field.Overlaps [(i, mask)] l r ↔ l i &&& r i &&& mask ≠ 0 := by
  rw [overlaps_iff_and, and_and_mask]

/-! ### FastStream -/

def faststreamMusicRate : Field := [(11, 0x0f)]

def faststreamVoiceRate : Field := [(11, 0xf0)]

/-- The fields of the directions that both sides support. -/
def faststreamFields (l r : Caps) : List Field :=
  (if common l r (10, 0) then [faststreamMusicRate] else []) ++
    if common l r (10, 1) then [faststreamVoiceRate] else []

section Faststream

variable {l r : Caps}

theorem areCsrFastStreamCodecsCompatible_iff (l r : Caps) :
    areCsrFastStreamCodecsCompatible (l.drop 4) (r.drop 4) (l 1) (r 1) = true ↔
      (8 ≤ l 1 ∧ 8 ≤ r 1) ∧ (∀ f ∈ faststreamFields l r, f.Overlaps l r) ∧
      (common l r (10, 0) = true ∨ common l r (10, 1) = true) := by
  have hmusic := and_and_ne_zero_iff (m := 1) (k := 0) (by decide) (by decide) l r 10
  have hvoice := and_and_ne_zero_iff (m := 2) (k := 1) (by decide) (by decide) l r 10
  have hlosc : (l 1 < 8 ∨ r 1 < 8) ↔ ¬(8 ≤ l 1 ∧ 8 ≤ r 1) := by
    rw [not_and_or, BitVec.not_le, BitVec.not_le]
  have hmusicRate := overlaps_iff_and_and l r 11 0x0f
  have hvoiceRate := overlaps_iff_and_and l r 11 0xf0
  unfold areCsrFastStreamCodecsCompatible faststreamFields faststreamMusicRate faststreamVoiceRate
  simp only [Caps.drop, Nat.reduceAdd, hlosc, hmusic, hvoice]
  by_cases hl : 8 ≤ l 1 ∧ 8 ≤ r 1
  · rw [if_neg (not_not.mpr hl), and_iff_right hl]
    by_cases hm : common l r (10, 0) = true <;> by_cases hv : common l r (10, 1) = true <;>
      by_cases hr : l 11 &&& r 11 &&& (0x0f : Octet) = 0 <;>
      simp only [hm, hv, hr, hmusicRate, hvoiceRate, if_true, Bool.false_eq_true, if_false, and_true,
        true_and, and_false, false_and, and_self, cons_append, nil_append, forall_mem_cons,
        append_nil, not_mem_nil, false_imp_iff, implies_true, decide_eq_true_eq, ne_eq, or_true,
        true_or, or_self, not_true_eq_false, not_false_eq_true, decide_false]
    all_goals exact decide_eq_true_iff
  · rw [if_pos hl]
    exact iff_of_false Bool.false_ne_true fun h => hl h.1

/-- Exactly one of the frequencies of music that are known to the library is common to both sides, if
music is, and the one of voice, if voice is. -/
def FaststreamSelects (l r : Caps) : Prop :=
  (common l r (10, 0) = true → common l r (11, 0) ≠ common l r (11, 1)) ∧
  (common l r (10, 1) = true → common l r (11, 5) = true)

theorem has_faststream (l r : Caps) (b : Bit) :
    (selectOptimalCsrFastStreamCapsSink l r).has b =
      if b.1 = 11 then common l r b && faststreamRates.getLsbD b.2
      else if b.1 = 10 then common l r b && faststreamDirections.getLsbD b.2
      else r.has b := by
  have hbit : ∀ x y m : Octet, ((x &&& m) &&& (y &&& m)).getLsbD b.2 =
      ((y.getLsbD b.2 && x.getLsbD b.2) && m.getLsbD b.2) := by
    intro x y m
    rw [and_and_mask, BitVec.getLsbD_and, BitVec.getLsbD_and, Bool.and_comm (x.getLsbD b.2)]
  obtain ⟨i, k⟩ := b
  unfold selectOptimalCsrFastStreamCapsSink
  dsimp only
  rw [has_put, has_put]
  by_cases h11 : i = 11
  · subst h11
    rw [if_pos rfl, if_pos rfl, hbit]
    rfl
  · by_cases h10 : i = 10
    · subst h10
      rw [if_neg h11, if_neg h11, if_pos rfl, if_pos rfl, hbit]
      rfl
    · rw [if_neg h11, if_neg h11, if_neg h10, if_neg h10]

/-- What is left of a field of FastStream are the common ones of the known bits. -/
theorem faststream_filter {f : Field} {known : List Bit} (hf : ∀ b ∈ f.bits, b.1 = 11)
    (hknown : f.bits.filter (fun b => faststreamRates.getLsbD b.2) = known) (l r : Caps) :
    f.bits.filter (selectOptimalCsrFastStreamCapsSink l r).has = known.filter (common l r) := by
  rw [← hknown, filter_filter]
  refine filter_congr fun b hb => ?_
  rw [has_faststream, if_pos (hf b hb)]

/-- A selected bit is a common one, as only common ones are left. -/
theorem faststream_field_selected_iff {f : Field} (known : List Bit) (hf : ∀ b ∈ f.bits, b.1 = 11)
    (hknown : f.bits.filter (fun b => faststreamRates.getLsbD b.2) = known) :
    f.Selected l r (selectOptimalCsrFastStreamCapsSink l r) ↔ ∃ b, known.filter (common l r) = [b] := by
  rw [Field.Selected, faststream_filter hf hknown]
  constructor
  · rintro ⟨b, hb, -⟩
    exact ⟨b, hb⟩
  · rintro ⟨b, hb⟩
    have hcommon := (mem_filter.mp (hb ▸ mem_singleton_self b)).2
    exact ⟨b, hb, Bool.and_eq_true_iff.mp hcommon⟩

theorem faststream_selected_iff :
    (∀ f ∈ faststreamFields l r, f.Selected l r (selectOptimalCsrFastStreamCapsSink l r)) ↔
      FaststreamSelects l r := by
  have hmusic : faststreamMusicRate.Selected l r (selectOptimalCsrFastStreamCapsSink l r) ↔
      common l r (11, 0) ≠ common l r (11, 1) := by
    rw [faststream_field_selected_iff [(11, 0), (11, 1)] (by decide) (by decide)]
    cases h0 : common l r (11, 0) <;> cases h1 : common l r (11, 1) <;> simp [h0, h1]
  have hvoice : faststreamVoiceRate.Selected l r (selectOptimalCsrFastStreamCapsSink l r) ↔
      common l r (11, 5) = true := by
    rw [faststream_field_selected_iff [(11, 5)] (by decide) (by decide)]
    cases h5 : common l r (11, 5) <;> simp [h5]
  unfold faststreamFields FaststreamSelects
  by_cases hm : common l r (10, 0) = true <;> by_cases hv : common l r (10, 1) = true <;>
    simp [hm, hv, hmusic, hvoice]

/-- The directions that are left are the common ones. -/
theorem common_faststream (l r : Caps) {k : ℕ} (hk : k < 2) :
    common l (selectOptimalCsrFastStreamCapsSink l r) (10, k) = common l r (10, k) ∧
      common r (selectOptimalCsrFastStreamCapsSink l r) (10, k) = common l r (10, k) := by
  have hlow : ∀ k < 2, faststreamDirections.getLsbD k = true := by decide
  have hhas : (selectOptimalCsrFastStreamCapsSink l r).has (10, k) = common l r (10, k) := by
    rw [has_faststream, if_neg (by simp), if_pos rfl, hlow k hk, Bool.and_true]
  unfold common at hhas ⊢
  rw [hhas]
  cases l.has (10, k) <;> cases r.has (10, k) <;> exact ⟨rfl, rfl⟩

/-- A selection whose fields are selected is compatible with both sides. -/
theorem faststream_compatible (h : areCsrFastStreamCodecsCompatible (l.drop 4) (r.drop 4) (l 1) (r 1) = true)
    (hsel : ∀ f ∈ faststreamFields l r, f.Selected l r (selectOptimalCsrFastStreamCapsSink l r)) :
    areCsrFastStreamCodecsCompatible (l.drop 4) ((selectOptimalCsrFastStreamCapsSink l r).drop 4) (l 1)
        ((selectOptimalCsrFastStreamCapsSink l r) 1) = true ∧
      areCsrFastStreamCodecsCompatible (r.drop 4) ((selectOptimalCsrFastStreamCapsSink l r).drop 4) (r 1)
        ((selectOptimalCsrFastStreamCapsSink l r) 1) = true := by
  have hlosc : (selectOptimalCsrFastStreamCapsSink l r) 1 = r 1 := rfl
  obtain ⟨hm, hm'⟩ := common_faststream l r (k := 0) (by decide)
  obtain ⟨hv, hv'⟩ := common_faststream l r (k := 1) (by decide)
  rw [areCsrFastStreamCodecsCompatible_iff] at h ⊢
  rw [areCsrFastStreamCodecsCompatible_iff, hlosc]
  obtain ⟨⟨hl, hr⟩, -, hdirection⟩ := h
  unfold faststreamFields at hsel ⊢
  rw [hm, hv, hm', hv']
  exact ⟨⟨⟨hl, hr⟩, fun f hf => (hsel f hf).overlaps_left, hdirection⟩,
    ⟨hr, hr⟩, fun f hf => (hsel f hf).overlaps_right, hdirection⟩

end Faststream

/-! ### aptX -/

def aptxChannelMode : Field := [(10, 0x0f)]

def aptxRate : Field := [(10, 0xf0)]

def aptxFields : List Field := [aptxChannelMode, aptxRate]

/-- The field of the frequencies that aptX with low latency tests. -/
def aptxAclSprintRate : Field := [(10, 0x30)]

section Aptx

variable {l r : Caps}

theorem areAptxCodecsCompatible_iff (l r : Caps) :
    areAptxCodecsCompatible (l.drop 4) (r.drop 4) (l 1) (r 1) = true ↔
      (7 ≤ l 1 ∧ 7 ≤ r 1) ∧ common l r (10, 1) = true ∧ aptxRate.Overlaps l r := by
  have hstereo := and_and_ne_zero_iff (m := 0x02) (k := 1) (by decide) (by decide) l r 10
  have hrate := overlaps_iff_and_and l r 10 0xf0
  have hlosc : ¬(l 1 < 7 ∨ r 1 < 7) ↔ 7 ≤ l 1 ∧ 7 ≤ r 1 := by
    rw [not_or, BitVec.not_lt, BitVec.not_lt]
  rw [areAptxCodecsCompatible, decide_eq_true_iff, hlosc, aptxRate, hrate]
  exact and_congr_right' (and_congr hstereo Iff.rfl)

theorem areAptxAclSprintCodecsCompatible_iff (l r : Caps) :
    areAptxAclSprintCodecsCompatible (l.drop 4) (r.drop 4) (l 1) (r 1) = true ↔
      (7 ≤ l 1 ∧ 7 ≤ r 1) ∧ common l r (10, 1) = true ∧ aptxAclSprintRate.Overlaps l r := by
  have hstereo := and_and_ne_zero_iff (m := 0x02) (k := 1) (by decide) (by decide) l r 10
  have hrate := overlaps_iff_and_and l r 10 0x30
  have hlosc : ¬(l 1 < 7 ∨ r 1 < 7) ↔ 7 ≤ l 1 ∧ 7 ≤ r 1 := by
    rw [not_or, BitVec.not_lt, BitVec.not_lt]
  rw [areAptxAclSprintCodecsCompatible, decide_eq_true_iff, hlosc, aptxAclSprintRate, hrate]
  exact and_congr_right' (and_congr hstereo Iff.rfl)

/-- The chain of the frequencies of aptX. -/
def aptxRateStep : Role → Step
  | .sink => aptxSinkRateStep
  | .source => aptxSourceRateStep

/-- The octet of aptX that is selected, of both roles. -/
def selectAptx (role : Role) (l r : Caps) : Caps :=
  ((aptxRateStep role).run l (r.put 10 (r 10 &&& l 10))).mask 10 0xf2

theorem has_put_and (l r : Caps) (k : ℕ) : (r.put 10 (r 10 &&& l 10)).has (10, k) = common l r (10, k) := by
  rw [has_put, if_pos rfl, BitVec.getLsbD_and, Bool.and_comm]
  rfl

variable {b : Bit}

theorem has_selectAptx (role : Role) (l r : Caps) (hb : b ∈ aptxRate.bits) :
    (selectAptx role l r).has b = ((aptxRateStep role).run l (r.put 10 (r 10 &&& l 10))).has b := by
  have hhigh : ∀ b ∈ aptxRate.bits, (0xf2 : Octet).getLsbD b.2 = true := by decide
  rw [selectAptx, has_mask, hhigh b hb, Bool.or_true, Bool.and_true]

/-- The frequency that is left if the chain finds none. -/
def aptxOtherRate : Role → Bit
  | .sink => (10, 4)
  | .source => (10, 5)

theorem has_aptxRate (role : Role) (l r : Caps) (hb : b ∈ aptxRate.bits) :
    (selectAptx role l r).has b =
      (common l r b && decide (b = choice (common l r) (aptxRateStep role).rows (aptxOtherRate role))) := by
  have hfits : Fits aptxRate (aptxRateStep role).rows (aptxOtherRate role) (aptxRateStep role).last := by
    cases role <;> decide
  have hindex : ∀ b ∈ aptxRate.bits, b.1 = 10 := by decide
  have htest : ∀ row ∈ (aptxRateStep role).rows,
      (aptxRateStep role).test l (r.put 10 (r 10 &&& l 10)) row.1 = common l r row.1 := by
    intro row hrow
    cases role <;> obtain rfl := mem_singleton.mp hrow <;> exact has_put_and l r _
  obtain ⟨i, k⟩ := b
  obtain rfl : i = 10 := hindex _ hb
  have hstep : (aptxRateStep role).index = 10 := by cases role <;> rfl
  rw [has_selectAptx role l r hb, Step.run, has_mask, pick_congr _ htest, hfits.getLsbD_pick _ hb, hstep,
    has_put_and]
  rfl

theorem aptxRate_order (role : Role) :
    ∀ b ∈ order (aptxRateStep role).rows (aptxOtherRate role), b ∈ aptxAclSprintRate.bits ∧ b ∈ aptxRate.bits := by
  cases role <;> decide

/-- The frequency that is left is common, if one that the library knows is. -/
theorem common_aptxRate_iff (role : Role) :
    common l r (choice (common l r) (aptxRateStep role).rows (aptxOtherRate role)) = true ↔
      common l r (10, 4) = true ∨ common l r (10, 5) = true := by
  refine (test_choice_iff (common l r) (aptxRateStep role).rows (aptxOtherRate role)).trans ?_
  cases role with
  | sink => simp [order, aptxRateStep, aptxSinkRateStep, aptxOtherRate, or_comm]
  | source => simp [order, aptxRateStep, aptxSourceRateStep, aptxOtherRate]

/-- A frequency of the library is common to both sides. -/
theorem aptxRate_selected_iff (role : Role) :
    aptxRate.Selected l r (selectAptx role l r) ↔
      common l r (10, 4) = true ∨ common l r (10, 5) = true := by
  have hmem := (aptxRate_order role _ (choice_mem (common l r) _ _)).2
  rw [selected_iff (by decide) hmem (fun b hb hset => ?_) fun hl hr => ?_]
  · rw [← Bool.and_eq_true_iff]
    exact common_aptxRate_iff role
  · rw [has_aptxRate role l r hb, Bool.and_eq_true, decide_eq_true_iff] at hset
    exact hset.2
  · rw [has_aptxRate role l r hmem, common, hl, hr, decide_eq_true rfl]
    rfl

theorem has_aptxChannelMode (role : Role) (l r : Caps) (hb : b ∈ aptxChannelMode.bits) :
    (selectAptx role l r).has b = (common l r b && decide (b = (10, 1))) := by
  have hspares : (aptxRateStep role).Spares aptxChannelMode := by cases role <;> decide
  have hlow : ∀ b ∈ aptxChannelMode.bits, (0xf2 : Octet).getLsbD b.2 = decide (b = (10, 1)) := by decide
  have hindex : ∀ b ∈ aptxChannelMode.bits, b.1 = 10 := by decide
  obtain ⟨i, k⟩ := b
  obtain rfl : i = 10 := hindex _ hb
  rw [selectAptx, has_mask, hspares.has_run hb, has_put_and, hlow _ hb]
  rfl

theorem aptxChannelMode_selected (role : Role) (h : common l r (10, 1) = true) :
    aptxChannelMode.Selected l r (selectAptx role l r) := by
  refine (selected_iff (by decide) (by decide) (fun b hb hset => ?_) fun _ _ => ?_).mpr
    (Bool.and_eq_true_iff.mp h)
  · rw [has_aptxChannelMode role l r hb, Bool.and_eq_true, decide_eq_true_iff] at hset
    exact hset.2
  · rw [has_aptxChannelMode role l r (by decide), h]
    rfl

theorem aptx_selected_iff (role : Role) (h : common l r (10, 1) = true) :
    (∀ f ∈ aptxFields, f.Selected l r (selectAptx role l r)) ↔
      common l r (10, 4) = true ∨ common l r (10, 5) = true := by
  simp only [aptxFields, forall_mem_cons, not_mem_nil, false_imp_iff, implies_true, and_true,
    aptxChannelMode_selected role h, aptxRate_selected_iff, true_and]

/-- The channel mode that is selected is common to both sides. -/
theorem common_selectAptx (role : Role) (h : common l r (10, 1) = true) :
    common l (selectAptx role l r) (10, 1) = true ∧ common r (selectAptx role l r) (10, 1) = true := by
  obtain ⟨hl, hr⟩ := Bool.and_eq_true_iff.mp h
  have hset : (selectAptx role l r).has (10, 1) = true := by
    rw [has_aptxChannelMode role l r (by decide), h]
    rfl
  exact ⟨Bool.and_eq_true_iff.mpr ⟨hl, hset⟩, Bool.and_eq_true_iff.mpr ⟨hr, hset⟩⟩

/-- The frequency that is selected is one of those that aptX with low latency tests. -/
theorem aptxAclSprintRate_overlaps (role : Role)
    (h : common l r (10, 4) = true ∨ common l r (10, 5) = true) :
    aptxAclSprintRate.Overlaps l (selectAptx role l r) ∧ aptxAclSprintRate.Overlaps r (selectAptx role l r) := by
  obtain ⟨hsprint, hrate⟩ := aptxRate_order role _ (choice_mem (common l r) _ _)
  have hcommon := (common_aptxRate_iff role).mpr h
  obtain ⟨hl, hr⟩ := Bool.and_eq_true_iff.mp hcommon
  have hset : (selectAptx role l r).has
      (choice (common l r) (aptxRateStep role).rows (aptxOtherRate role)) = true := by
    rw [has_aptxRate role l r hrate, hcommon, decide_eq_true rfl]
    rfl
  exact ⟨⟨_, hsprint, hl, hset⟩, _, hsprint, hr, hset⟩

/-- The compatibility of aptX with low latency finds a frequency of the library. -/
theorem aptxAclSprintRate_overlaps_iff :
    aptxAclSprintRate.Overlaps l r ↔ common l r (10, 4) = true ∨ common l r (10, 5) = true := by
  have hbits : aptxAclSprintRate.bits = [(10, 4), (10, 5)] := by decide
  rw [Field.Overlaps, hbits]
  simp [common]

/-! ### aptX with low latency -/

/-- The selection of aptX with low latency, of both roles. -/
def selectAptxAclSprint : Role → Caps → Caps → Caps
  | .sink => selectOptimalCsrAptxAclSprintCapsSink
  | .source => selectOptimalCsrAptxAclSprintCapsSource

/-- Up to its octet 10, a selection of aptX with low latency is one of aptX. -/
theorem selectAptxAclSprint_eq (role : Role) (l r : Caps) {j : ℕ} (hj : j < 11) :
    selectAptxAclSprint role l r j = selectAptx role l r j := by
  have hmask : ∀ (c : Caps) (m : Octet), (c.mask 11 m) j = c j := fun c m => if_neg (Nat.ne_of_lt hj)
  have hstep : ∀ v : Octet, (((aptxRateStep role).run l ((r.put 10 (r 10 &&& l 10)).put 11 v)).mask 10 0xf2) j =
      selectAptx role l r j := by
    intro v
    have htest : ∀ row ∈ (aptxRateStep role).rows,
        (aptxRateStep role).test l ((r.put 10 (r 10 &&& l 10)).put 11 v) row.1 =
          (aptxRateStep role).test l (r.put 10 (r 10 &&& l 10)) row.1 := by
      intro row hrow
      cases role <;> obtain rfl := mem_singleton.mp hrow <;> exact has_put _ 11 v _
    unfold selectAptx Step.run
    rw [pick_congr _ htest]
    unfold Caps.mask
    rw [show ((r.put 10 (r 10 &&& l 10)).put 11 v) j = (r.put 10 (r 10 &&& l 10)) j from
      if_neg (Nat.ne_of_lt hj)]
  cases role with
  | sink => exact (hmask _ _).trans (hstep _)
  | source =>
    unfold selectAptxAclSprint selectOptimalCsrAptxAclSprintCapsSource
    dsimp only
    split
    · have hlow : ¬(13 ≤ j ∧ j < 21) := by omega
      exact (if_neg hlow).trans ((hmask _ _).trans (hstep _))
    · exact (hmask _ _).trans (hstep _)

theorem has_selectAptxAclSprint (role : Role) (l r : Caps) (hb : b.1 < 11) :
    (selectAptxAclSprint role l r).has b = (selectAptx role l r).has b := by
  rw [Caps.has, selectAptxAclSprint_eq role l r hb]
  rfl

end Aptx

end Cbps.A2dp
