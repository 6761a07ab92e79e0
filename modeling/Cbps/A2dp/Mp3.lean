import Cbps.A2dp.Selection

/-!
# The selection of MPEG audio

`selectMp3Caps` looks up one table after the other, and the first row of a table whose tests succeed is
applied. A row tests one bit of a field in both capabilities and keeps it. The layer is not in the
tables, and the table of the bit rates leaves out the lowest bit.
-/

namespace Cbps.A2dp

open List

/-- The row tests one bit. -/
def Mp3Row.Tests (row : Mp3Row) (b : Bit) : Prop :=
  row.remoteTest = (b.1, BitVec.twoPow 8 b.2) ∧ row.localTest = (b.1, BitVec.twoPow 8 b.2)

instance (row : Mp3Row) (b : Bit) : Decidable (row.Tests b) := inferInstanceAs (Decidable (_ ∧ _))

/-- The row keeps a bit, where variable bit rates are left aside. -/
def Mp3Row.keeps (row : Mp3Row) (b : Bit) : Bool :=
  (b.1 ≠ row.kept.1 || row.kept.2.getLsbD b.2) &&
    row.rateKept.all fun kept => b.1 ≠ kept.1 || kept.2.getLsbD b.2

/-- The bits of the fields of MPEG audio leave out the one of variable bit rates. -/
def NoVbr (f : Field) : Prop := ∀ b ∈ f.bits, b.2 < 8 ∧ b ≠ (6, 7)

instance (f : Field) : Decidable (NoVbr f) := by
  unfold NoVbr
  infer_instance

section Mp3

variable {row : Mp3Row} {f : Field} {b : Bit} {l r c cfg : Caps}

theorem Mp3Row.Tests.test_iff (h : row.Tests b) (hb : b.2 < 8) :
    row.test l c = true ↔ l.has b = true ∧ c.has b = true := by
  have hbit := and_ne_zero_iff hb rfl
  rw [Mp3Row.test, decide_eq_true_iff, h.1, h.2, hbit, hbit, and_comm]
  rfl

theorem Mp3Row.has_apply (row : Mp3Row) (hf : NoVbr f) (hb : b ∈ f.bits) :
    (row.apply l c).has b = (c.has b && row.keeps b) := by
  obtain ⟨hlt, hvbr⟩ := hf b hb
  have hseven : ∀ k < 8, k ≠ 7 → (0x7f : Octet).getLsbD k = true := by decide
  have hrate : (decide (b.1 ≠ 6) || (l 6 ||| 0x7f).getLsbD b.2) = true := by
    by_cases hi : b.1 = 6
    · have hk : b.2 ≠ 7 := fun hk => hvbr (Prod.ext hi hk)
      rw [BitVec.getLsbD_or, hseven _ hlt hk, Bool.or_true, Bool.or_true]
    · simp [hi]
  unfold Mp3Row.apply Mp3Row.keeps
  cases row.rateKept with
  | none => simp
  | some kept => simp only [has_mask, hrate, Bool.and_true, Option.all_some, Bool.and_assoc]

theorem has_selectMp3Row {rows : List Mp3Row} (hf : NoVbr f) (hb : b ∈ f.bits)
    (h : ∀ row ∈ rows, row.keeps b = true) : (selectMp3Row l c rows).has b = c.has b := by
  unfold selectMp3Row
  cases hrow : rows.find? fun row => row.test l c with
  | none => rfl
  | some row =>
    have hmem : row ∈ rows := mem_of_find?_eq_some hrow
    exact (row.has_apply hf hb).trans (by rw [h row hmem, Bool.and_true])

/-- The row tests one bit of a field and keeps it. -/
def Mp3Row.For (row : Mp3Row) (f : Field) : Prop :=
  ∃ b ∈ f.bits, row.Tests b ∧ ∀ b' ∈ f.bits, row.keeps b' = decide (b' = b)

instance (row : Mp3Row) (f : Field) : Decidable (row.For f) := by
  unfold Mp3Row.For
  infer_instance

/-- A row that is applied selects its bit, or none of these rows is applied. -/
theorem selected_or_of_rows (rows rest : List Mp3Row) (hf : NoVbr f) (hnodup : f.bits.Nodup)
    (hrows : ∀ row ∈ rows, row.For f) (hc : ∀ b ∈ f.bits, c.has b = r.has b)
    (hcfg : ∀ b ∈ f.bits, cfg.has b = (selectMp3Row l c (rows ++ rest)).has b) :
    f.Selected l r cfg ∨
      (∀ row ∈ rows, row.test l c ≠ true) ∧
      ∀ b ∈ f.bits, cfg.has b = (selectMp3Row l c rest).has b := by
  unfold selectMp3Row at hcfg
  cases hrow : rows.find? fun row => row.test l c with
  | none =>
    rw [List.find?_append, hrow, Option.none_or] at hcfg
    exact Or.inr ⟨List.find?_eq_none.mp hrow, hcfg⟩
  | some row =>
    rw [List.find?_append, hrow, Option.some_or] at hcfg
    obtain ⟨b, hb, htests, hkeeps⟩ := hrows row (mem_of_find?_eq_some hrow)
    have htest : row.test l c = true := List.find?_some (p := fun row : Mp3Row => row.test l c) hrow
    obtain ⟨hl, hr⟩ := (htests.test_iff (hf b hb).1).mp htest
    have hhas : ∀ b' ∈ f.bits, cfg.has b' = (r.has b' && decide (b' = b)) := by
      intro b' hb'
      rw [hcfg b' hb', ← hc b' hb', ← hkeeps b' hb']
      exact row.has_apply hf hb'
    rw [hc b hb] at hr
    refine Or.inl ((selected_iff hnodup hb (fun b' hb' hset => ?_) fun _ _ => ?_).mpr ⟨hl, hr⟩)
    · rw [hhas b' hb', Bool.and_eq_true, decide_eq_true_iff] at hset
      exact hset.2
    · rw [hhas b hb, hr, decide_eq_true rfl]
      rfl

theorem and_ne_zero_of_has (h : c.has b = true) : c b.1 &&& 0xff ≠ 0 := by
  have hfull : c b.1 &&& 0xff = c b.1 := BitVec.and_allOnes
  rw [hfull]
  intro hzero
  rw [Caps.has, hzero, BitVec.ofNat_eq_ofNat, BitVec.getLsbD_zero] at h
  exact Bool.false_ne_true h

/-- A table whose last row is applied if the field has any common bit. -/
theorem selected_of_table (rows : List Mp3Row) (last : Mp3Row) (e : Bit) (hf : NoVbr f)
    (hnodup : f.bits.Nodup) (hrows : ∀ row ∈ rows, row.For f)
    (hall : ∀ b ∈ f.bits, b = e ∨ ∃ row ∈ rows, row.Tests b)
    (hlast : ∀ b ∈ f.bits, last.keeps b = decide (b = e))
    (htest : last.remoteTest = (e.1, 0xff) ∧ last.localTest = (e.1, 0xff))
    (hc : ∀ b ∈ f.bits, c.has b = r.has b)
    (hcfg : ∀ b ∈ f.bits, cfg.has b = (selectMp3Row l c (rows ++ [last])).has b)
    (hover : f.Overlaps l r) : f.Selected l r cfg := by
  obtain h | ⟨hnone, hcfg⟩ := selected_or_of_rows rows [last] hf hnodup hrows hc hcfg
  · exact h
  obtain ⟨b, hb, hl, hr⟩ := hover
  obtain rfl : b = e := by
    obtain h | ⟨row, hrow, htests⟩ := hall b hb
    · exact h
    · exact absurd ((htests.test_iff (hf b hb).1).mpr ⟨hl, (hc b hb).trans hr⟩) (hnone row hrow)
  have hlastTest : last.test l c = true := by
    rw [Mp3Row.test, decide_eq_true_iff, htest.1, htest.2]
    exact ⟨and_ne_zero_of_has ((hc b hb).trans hr), and_ne_zero_of_has hl⟩
  have hhas : ∀ b' ∈ f.bits, cfg.has b' = (r.has b' && decide (b' = b)) := by
    intro b' hb'
    rw [hcfg b' hb', selectMp3Row, List.find?_singleton, if_pos hlastTest, ← hc b' hb', ← hlast b' hb']
    exact last.has_apply hf hb'
  refine (selected_iff hnodup hb (fun b' hb' hset => ?_) fun _ _ => ?_).mpr ⟨hl, hr⟩
  · rw [hhas b' hb', Bool.and_eq_true, decide_eq_true_iff] at hset
    exact hset.2
  · rw [hhas b hb, hr, decide_eq_true rfl]
    rfl

end Mp3

/-- The capabilities after the first tables. -/
theorem selectMp3Caps_eq (l r : Caps) :
    selectMp3Caps l r = selectMp3Row l (selectMp3Row l (selectMp3Row l r mp3CapsChannelMode)
      mp3CapsSampleRate) mp3CapsBitRate :=
  rfl

theorem mpegLayer_selected_iff {l r : Caps} (hover : mpegLayer.Overlaps l r) :
    mpegLayer.Selected l r (selectMp3Caps l r) ↔ mpegLayer.Single r := by
  have hf : NoVbr mpegLayer := by decide
  have hspare : ∀ rows ∈ mp3CapsTable, ∀ row ∈ rows, ∀ b ∈ mpegLayer.bits, row.keeps b = true := by decide
  simp only [mp3CapsTable, forall_mem_cons] at hspare
  refine selected_iff_single (fun b hb => ?_) hover
  rw [selectMp3Caps_eq, has_selectMp3Row hf hb fun row hrow => hspare.2.2.1 row hrow b hb,
    has_selectMp3Row hf hb fun row hrow => hspare.2.1 row hrow b hb,
    has_selectMp3Row hf hb fun row hrow => hspare.1 row hrow b hb]

theorem mpegChannelMode_selected {l r : Caps} (hover : mpegChannelMode.Overlaps l r) :
    mpegChannelMode.Selected l r (selectMp3Caps l r) := by
  have hf : NoVbr mpegChannelMode := by decide
  have hrate : ∀ row ∈ mp3CapsSampleRate, ∀ b ∈ mpegChannelMode.bits, row.keeps b = true := by decide
  have hbit : ∀ row ∈ mp3CapsBitRate, ∀ b ∈ mpegChannelMode.bits, row.keeps b = true := by decide
  refine selected_of_table (mp3CapsChannelMode.take 3) ⟨(4, 0xff), (4, 0xff), (4, 0xf8), none⟩ (4, 3)
    (c := r) hf (by decide) (by decide) (by decide) (by decide) ⟨rfl, rfl⟩ (fun _ _ => rfl)
    (fun b hb => ?_) hover
  rw [selectMp3Caps_eq, has_selectMp3Row hf hb fun row hrow => hbit row hrow b hb,
    has_selectMp3Row hf hb fun row hrow => hrate row hrow b hb]
  rfl

theorem mpegFrequency_selected {l r : Caps} (hover : mpegFrequency.Overlaps l r) :
    mpegFrequency.Selected l r (selectMp3Caps l r) := by
  have hf : NoVbr mpegFrequency := by decide
  have hmode : ∀ row ∈ mp3CapsChannelMode, ∀ b ∈ mpegFrequency.bits, row.keeps b = true := by decide
  have hbit : ∀ row ∈ mp3CapsBitRate, ∀ b ∈ mpegFrequency.bits, row.keeps b = true := by decide
  refine selected_of_table (mp3CapsSampleRate.take 5) ⟨(5, 0xff), (5, 0xff), (5, 0xe0), none⟩ (5, 5)
    (c := selectMp3Row l r mp3CapsChannelMode) hf (by decide) (by decide) (by decide) (by decide) ⟨rfl, rfl⟩
    (fun b hb => has_selectMp3Row hf hb fun row hrow => hmode row hrow b hb) (fun b hb => ?_) hover
  rw [selectMp3Caps_eq, has_selectMp3Row hf hb fun row hrow => hbit row hrow b hb]
  rfl

/-- The bit rate that no row of the table tests. -/
def mpegFreeFormat : Bit := (7, 0)

theorem mpegBitRate_selected_iff {l r : Caps} (hover : mpegBitRateField.Overlaps l r) :
    mpegBitRateField.Selected l r (selectMp3Caps l r) ↔
      (∃ b ∈ mpegBitRateField.bits, b ≠ mpegFreeFormat ∧ l.has b = true ∧ r.has b = true) ∨
        mpegBitRateField.bits.filter r.has = [mpegFreeFormat] := by
  have hf : NoVbr mpegBitRateField := by decide
  have hmode : ∀ row ∈ mp3CapsChannelMode, ∀ b ∈ mpegBitRateField.bits, row.keeps b = true := by decide
  have hrate : ∀ row ∈ mp3CapsSampleRate, ∀ b ∈ mpegBitRateField.bits, row.keeps b = true := by decide
  have hall : ∀ b ∈ mpegBitRateField.bits, b = mpegFreeFormat ∨ ∃ row ∈ mp3CapsBitRate, row.Tests b := by
    decide
  have htested : ∀ row ∈ mp3CapsBitRate, ∃ b ∈ mpegBitRateField.bits, b ≠ mpegFreeFormat ∧ row.Tests b := by
    decide
  have hkept : ∀ b ∈ mpegBitRateField.bits,
      (selectMp3Row l (selectMp3Row l r mp3CapsChannelMode) mp3CapsSampleRate).has b = r.has b := by
    intro b hb
    rw [has_selectMp3Row hf hb fun row hrow => hrate row hrow b hb,
      has_selectMp3Row hf hb fun row hrow => hmode row hrow b hb]
  by_cases hcommon : ∃ b ∈ mpegBitRateField.bits, b ≠ mpegFreeFormat ∧ l.has b = true ∧ r.has b = true
  · refine iff_of_true ?_ (Or.inl hcommon)
    have hcfg : ∀ b ∈ mpegBitRateField.bits, (selectMp3Caps l r).has b =
        (selectMp3Row l (selectMp3Row l (selectMp3Row l r mp3CapsChannelMode) mp3CapsSampleRate)
          (mp3CapsBitRate ++ [])).has b := by
      intro b _
      rw [append_nil, selectMp3Caps_eq]
    obtain h | ⟨hnone, -⟩ :=
      selected_or_of_rows mp3CapsBitRate [] hf (by decide) (by decide) hkept hcfg
    · exact h
    · obtain ⟨b, hb, hne, hl, hr⟩ := hcommon
      obtain ⟨row, hrow, htests⟩ := (hall b hb).resolve_left hne
      exact absurd ((htests.test_iff (hf b hb).1).mpr ⟨hl, (hkept b hb).trans hr⟩) (hnone row hrow)
  · -- no row of the table is applied
    have hnone : ∀ row ∈ mp3CapsBitRate, ¬row.test l
        (selectMp3Row l (selectMp3Row l r mp3CapsChannelMode) mp3CapsSampleRate) = true := by
      intro row hrow htest
      obtain ⟨b, hb, hne, htests⟩ := htested row hrow
      obtain ⟨hl, hr⟩ := (htests.test_iff (hf b hb).1).mp htest
      exact hcommon ⟨b, hb, hne, hl, (hkept b hb).symm.trans hr⟩
    have hcfg : ∀ b ∈ mpegBitRateField.bits, (selectMp3Caps l r).has b = r.has b := by
      intro b hb
      rw [selectMp3Caps_eq, selectMp3Row, List.find?_eq_none.mpr hnone]
      exact hkept b hb
    have hfree : r.has mpegFreeFormat = true := by
      obtain ⟨b, hb, hl, hr⟩ := hover
      by_cases hne : b = mpegFreeFormat
      · exact hne ▸ hr
      · exact absurd ⟨b, hb, hne, hl, hr⟩ hcommon
    rw [selected_iff_single hcfg hover, Field.Single, or_iff_right hcommon]
    constructor
    · rintro ⟨b, hb⟩
      have hmem : mpegFreeFormat ∈ mpegBitRateField.bits.filter r.has :=
        mem_filter.mpr ⟨by decide, hfree⟩
      rw [hb] at hmem ⊢
      rw [mem_singleton.mp hmem]
    · intro h
      exact ⟨mpegFreeFormat, h⟩

theorem mpeg_selected_iff {l r : Caps} (hover : ∀ f ∈ mpegMaskFields, f.Overlaps l r)
    (hrate : mpegBitRateField.Overlaps l r) :
    (∀ f ∈ mpegMaskFields ++ [mpegBitRateField], f.Selected l r (selectMp3Caps l r)) ↔
      mpegLayer.Single r ∧
      ((∃ b ∈ mpegBitRateField.bits, b ≠ mpegFreeFormat ∧ l.has b = true ∧ r.has b = true) ∨
        mpegBitRateField.bits.filter r.has = [mpegFreeFormat]) := by
  simp only [mpegMaskFields, forall_mem_append, forall_mem_cons, not_mem_nil,
    false_imp_iff, implies_true, and_true] at hover ⊢
  rw [mpegLayer_selected_iff hover.1, mpegBitRate_selected_iff hrate]
  simp only [mpegChannelMode_selected hover.2.1, mpegFrequency_selected hover.2.2, and_true]

end Cbps.A2dp
