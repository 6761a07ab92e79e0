import Cbps.A2dp.Mp3
import Cbps.A2dp.Vendor

/-!
# Acceptable configurations

A configuration is acceptable to both sides if every field of its codec selects one common bit, and the
test that the acceptor makes succeeds for both capabilities. `acceptable_iff` says for which capabilities
the selection finds such a configuration: some chains test the remote capabilities only, MPEG audio has
no chain for its layer, and FastStream may keep two frequencies.
-/

namespace Cbps.A2dp

open Option

/-- The codec that capabilities belong to, if it is one of those that are selected here. -/
def codecOf (c : Caps) : Option Codec :=
  if c 2 = mediaTypeAudio then
    if c 3 = mediaCodecSbc then some .sbc
    else if c 3 = mediaCodecMpeg12Audio then some .mpeg
    else if c 3 = mediaCodecMpeg24Aac then some .aac
    else if c 3 = mediaCodecNonA2dp then
      if isCodecCsrFaststream c then some .faststream
      else if isCodecCsrAptxAclSprint c then some .aptxAclSprint
      else if isCodecCsrAptx c then some .aptx
      else none
    else none
  else none

/-- The fields of a codec, for the capabilities of both sides. -/
def Codec.fields : Codec → Caps → Caps → List Field
  | .sbc, _, _ => sbcFields
  | .mpeg, _, _ => mpegMaskFields ++ [mpegBitRateField]
  | .aac, _, _ => aacFields
  | .faststream, l, r => faststreamFields l r
  | .aptx, _, _ => aptxFields
  | .aptxAclSprint, _, _ => aptxFields

/-- The selection of a codec. -/
def Codec.select : Codec → Role → Caps → Caps → Caps
  | .sbc, .sink, l, r => selectOptimalSbcCapsSink l r
  | .sbc, .source, l, r => selectOptimalSbcCapsSource l r
  | .mpeg, .sink, l, r => selectOptimalMp3CapsSink l r
  | .mpeg, .source, l, r => selectOptimalMp3CapsSource l r
  | .aac, .sink, l, r => selectOptimalAacCapsSink l r
  | .aac, .source, l, r => selectOptimalAacCapsSource l r
  | .faststream, .sink, l, r => selectOptimalCsrFastStreamCapsSink l r
  | .faststream, .source, l, r => selectOptimalCsrFastStreamCapsSource l r
  | .aptx, .sink, l, r => selectOptimalCsrAptxCapsSink l r
  | .aptx, .source, l, r => selectOptimalCsrAptxCapsSource l r
  | .aptxAclSprint, .sink, l, r => selectOptimalCsrAptxAclSprintCapsSink l r
  | .aptxAclSprint, .source, l, r => selectOptimalCsrAptxAclSprintCapsSource l r

/-- The test of the codecs that have been found. -/
def Codec.compatible : Codec → Caps → Caps → Bool → Bool
  | .sbc, l, r, initiating => areSBCCodecsCompatible (l.drop 4) (r.drop 4) (l 1) (r 1) initiating
  | .mpeg, l, r, initiating => areMPEG12AudioCodecsCompatible (l.drop 4) (r.drop 4) (l 1) (r 1) initiating
  | .aac, l, r, initiating => areMPEG24AACCodecsCompatible (l.drop 4) (r.drop 4) (l 1) (r 1) initiating
  | .faststream, l, r, _ => areCsrFastStreamCodecsCompatible (l.drop 4) (r.drop 4) (l 1) (r 1)
  | .aptx, l, r, _ => areAptxCodecsCompatible (l.drop 4) (r.drop 4) (l 1) (r 1)
  | .aptxAclSprint, l, r, _ => areAptxAclSprintCodecsCompatible (l.drop 4) (r.drop 4) (l 1) (r 1)

/-- The capabilities for which the selection of a codec is acceptable. -/
def Codec.SelectsWell : Codec → Role → Caps → Caps → Prop
  | .sbc, role, l, r => ∀ bits ∈ sbcOrders role, Prefers bits l r
  | .mpeg, _, l, r => mpegLayer.Single r ∧
      ((∃ b ∈ mpegBitRateField.bits, b ≠ mpegFreeFormat ∧ l.has b = true ∧ r.has b = true) ∨
        mpegBitRateField.bits.filter r.has = [mpegFreeFormat])
  | .aac, _, l, r => ∀ bits ∈ aacOrders, Prefers bits l r
  | .faststream, _, l, r => FaststreamSelects l r
  | .aptx, _, l, r => common l r (10, 4) = true ∨ common l r (10, 5) = true
  | .aptxAclSprint, _, _, _ => True

/-- The type of a codec. -/
def Codec.type : Codec → Octet
  | .sbc => mediaCodecSbc
  | .mpeg => mediaCodecMpeg12Audio
  | .aac => mediaCodecMpeg24Aac
  | .faststream => mediaCodecNonA2dp
  | .aptx => mediaCodecNonA2dp
  | .aptxAclSprint => mediaCodecNonA2dp

/-- The identifiers of a vendor codec. -/
def Codec.vendor : Codec → Option (BitVec 32 × BitVec 16)
  | .faststream => some (csrVendorId, csrFaststreamCodecId)
  | .aptx => some (aptVendorId, csrAptxCodecId)
  | .aptxAclSprint => some (csrVendorId, csrAptxAclSprintCodecId)
  | _ => none

/-- The capabilities start as the ones of a codec do. -/
def Codec.Header (k : Codec) (c : Caps) : Prop :=
  c 2 = mediaTypeAudio ∧ c 3 = k.type ∧
    ∀ v ∈ k.vendor, convertUint8ValuesToUint32 (c.drop 4) = v.1 ∧ convertUint8ValuesToUint16 (c.drop 8) = v.2

variable {j : ℕ}

section Codecs

variable {l r c : Caps} {k : Codec}

theorem isVendorCodec_iff (v : BitVec 32) (id : BitVec 16) (c : Caps) :
    isVendorCodec v id c = true ↔
      convertUint8ValuesToUint32 (c.drop 4) = v ∧ convertUint8ValuesToUint16 (c.drop 8) = id :=
  decide_eq_true_iff

/-- The identifiers of a vendor codec decide which one it is. -/
theorem isVendorCodec_eq {v : BitVec 32} {id : BitVec 16}
    (h : convertUint8ValuesToUint32 (c.drop 4) = v ∧ convertUint8ValuesToUint16 (c.drop 8) = id)
    (v' : BitVec 32) (id' : BitVec 16) : isVendorCodec v' id' c = decide (v = v' ∧ id = id') := by
  rw [isVendorCodec, h.1, h.2]

theorem codecOf_iff : codecOf c = some k ↔ k.Header c := by
  have hfs := isVendorCodec_iff csrVendorId csrFaststreamCodecId c
  have hsprint := isVendorCodec_iff csrVendorId csrAptxAclSprintCodecId c
  have haptx := isVendorCodec_iff aptVendorId csrAptxCodecId c
  unfold codecOf Codec.Header
  constructor
  · intro h
    split_ifs at h with h2 hs hm ha hn hf hsp hap <;> cases h <;>
      refine ⟨h2, by assumption, ?_⟩ <;> rintro v ⟨⟩
    · exact hfs.mp hf
    · exact hsprint.mp hsp
    · exact haptx.mp hap
  · rintro ⟨h2, h3, hv⟩
    rw [if_pos h2, h3]
    cases k with
    | sbc => rfl
    | mpeg => rfl
    | aac => rfl
    | faststream =>
      have hid := isVendorCodec_eq (hv _ rfl)
      rw [isCodecCsrFaststream, hid]
      rfl
    | aptx =>
      have hid := isVendorCodec_eq (hv _ rfl)
      rw [isCodecCsrFaststream, isCodecCsrAptxAclSprint, isCodecCsrAptx, hid, hid, hid]
      rfl
    | aptxAclSprint =>
      have hid := isVendorCodec_eq (hv _ rfl)
      rw [isCodecCsrFaststream, isCodecCsrAptxAclSprint, hid, hid]
      rfl

variable {v : BitVec 32 × BitVec 16}

/-- The capabilities of a vendor codec are longer than the test demands. -/
theorem losc_of_compatible (hv : k.vendor = some v) {initiating : Bool}
    (h : k.compatible l r initiating = true) : ¬(l 1 < 6 ∨ r 1 < 6) := by
  have hlosc : ∀ n : Octet, 6 ≤ n → n ≤ l 1 ∧ n ≤ r 1 → ¬(l 1 < 6 ∨ r 1 < 6) := by
    intro n hn ⟨hl, hr⟩
    rw [not_or, BitVec.not_lt, BitVec.not_lt]
    exact ⟨BitVec.le_trans hn hl, BitVec.le_trans hn hr⟩
  cases k with
  | sbc => cases hv
  | mpeg => cases hv
  | aac => cases hv
  | faststream => exact hlosc 8 (by decide) ((areCsrFastStreamCodecsCompatible_iff l r).mp h).1
  | aptx => exact hlosc 7 (by decide) ((areAptxCodecsCompatible_iff l r).mp h).1
  | aptxAclSprint => exact hlosc 7 (by decide) ((areAptxAclSprintCodecsCompatible_iff l r).mp h).1

/-- The identifiers decide which test of the vendor codecs is made. -/
theorem areVendorCodecsCompatible_iff (hk : k.vendor = some v)
    (h : convertUint8ValuesToUint32 (l.drop 4) = v.1 ∧ convertUint8ValuesToUint16 (l.drop 8) = v.2)
    (initiating : Bool) :
    areVendorCodecsCompatible (l.drop 4) (r.drop 4) (l 1) (r 1) = true ↔
      (convertUint8ValuesToUint32 (r.drop 4) = v.1 ∧ convertUint8ValuesToUint16 (r.drop 8) = v.2) ∧
      k.compatible l r initiating = true := by
  have hdrop : ∀ c : Caps, convertUint8ValuesToUint16 ((c.drop 4).drop 4) =
      convertUint8ValuesToUint16 (c.drop 8) := fun c => rfl
  by_cases hid : convertUint8ValuesToUint32 (r.drop 4) = v.1 ∧ convertUint8ValuesToUint16 (r.drop 8) = v.2
  · rw [and_iff_right hid]
    have hsame : areVendorCodecsCompatible (l.drop 4) (r.drop 4) (l 1) (r 1) =
        if l 1 < 6 ∨ r 1 < 6 then false else k.compatible l r initiating := by
      unfold areVendorCodecsCompatible
      rw [hdrop, hdrop, h.1, h.2, hid.1, hid.2]
      cases k with
      | sbc => cases hk
      | mpeg => cases hk
      | aac => cases hk
      | faststream => cases hk; rfl
      | aptx => cases hk; rfl
      | aptxAclSprint => cases hk; rfl
    rw [hsame]
    constructor
    · intro hset
      split_ifs at hset
      exact hset
    · intro hset
      rw [if_neg (losc_of_compatible hk hset), hset]
  · refine iff_of_false (fun hset => ?_) fun hset => hid hset.1
    unfold areVendorCodecsCompatible at hset
    rw [hdrop, hdrop, h.1, h.2, if_pos (not_and_or.mp fun hne => hid ⟨hne.1.symm, hne.2.symm⟩)] at hset
    split_ifs at hset

/-- A codec of the library is compared with the same codec. -/
theorem codecsMatch_iff (hk : codecOf l = some k) (initiating : Bool) :
    codecsMatch l r initiating = true ↔ codecOf r = some k ∧ k.compatible l r initiating = true := by
  rw [codecOf_iff] at hk ⊢
  obtain ⟨h2, h3, hv⟩ := hk
  by_cases hhead : r 2 = mediaTypeAudio ∧ r 3 = k.type
  · obtain ⟨hr2, hr3⟩ := hhead
    have hheader : k.Header r ↔ ∀ v ∈ k.vendor,
        convertUint8ValuesToUint32 (r.drop 4) = v.1 ∧ convertUint8ValuesToUint16 (r.drop 8) = v.2 :=
      ⟨fun h => h.2.2, fun h => ⟨hr2, hr3, h⟩⟩
    unfold codecsMatch
    rw [hheader, h2, h3, hr2, hr3]
    have hvendor : ∀ v, k.vendor = some v → (areVendorCodecsCompatible (l.drop 4) (r.drop 4) (l 1) (r 1) = true ↔
        (∀ v ∈ k.vendor, convertUint8ValuesToUint32 (r.drop 4) = v.1 ∧
          convertUint8ValuesToUint16 (r.drop 8) = v.2) ∧ k.compatible l r initiating = true) := by
      intro v hk
      rw [areVendorCodecsCompatible_iff hk (hv v hk) initiating, hk]
      simp only [mem_def, some.injEq, forall_eq']
    have hnone : k.vendor = none → (k.compatible l r initiating = true ↔
        (∀ v ∈ k.vendor, convertUint8ValuesToUint32 (r.drop 4) = v.1 ∧
          convertUint8ValuesToUint16 (r.drop 8) = v.2) ∧ k.compatible l r initiating = true) := by
      intro hk
      rw [hk, and_iff_right fun v hv => by cases hv]
    cases k with
    | sbc | mpeg | aac => exact hnone rfl
    | faststream | aptx | aptxAclSprint => exact hvendor _ rfl
  · refine iff_of_false (fun hset => ?_) fun hset => hhead ⟨hset.1.1, hset.1.2.1⟩
    unfold codecsMatch at hset
    rw [h2, h3, if_neg fun h => hhead ⟨h.1.symm, h.2.symm⟩] at hset
    exact Bool.false_ne_true hset

theorem selectSink_eq (hl : codecOf l = some k) (hr : codecOf r = some k) :
    selectSink l r = some (k.select .sink l r) := by
  rw [codecOf_iff] at hl hr
  obtain ⟨-, hl, hvl⟩ := hl
  obtain ⟨-, -, hvr⟩ := hr
  unfold selectSink
  rw [hl]
  cases k with
  | sbc => rfl
  | mpeg => rfl
  | aac => rfl
  | faststream =>
    have hidl := isVendorCodec_eq (hvl _ rfl)
    have hidr := isVendorCodec_eq (hvr _ rfl)
    rw [isCodecCsrFaststream, hidl, hidr]
    rfl
  | aptx =>
    have hidl := isVendorCodec_eq (hvl _ rfl)
    have hidr := isVendorCodec_eq (hvr _ rfl)
    rw [isCodecCsrFaststream, isCodecCsrAptxAclSprint, isCodecCsrAptx, hidl, hidl, hidl, hidr, hidr, hidr]
    rfl
  | aptxAclSprint =>
    have hidl := isVendorCodec_eq (hvl _ rfl)
    have hidr := isVendorCodec_eq (hvr _ rfl)
    rw [isCodecCsrFaststream, isCodecCsrAptxAclSprint, hidl, hidl, hidr, hidr]
    rfl

theorem selectSource_eq (hl : codecOf l = some k) : selectSource l r = some (k.select .source l r) := by
  rw [codecOf_iff] at hl
  obtain ⟨-, hl, hvl⟩ := hl
  unfold selectSource
  rw [hl]
  cases k with
  | sbc => rfl
  | mpeg => rfl
  | aac => rfl
  | faststream =>
    have hid := isVendorCodec_eq (hvl _ rfl)
    rw [isCodecCsrFaststream, hid]
    rfl
  | aptx =>
    have hid := isVendorCodec_eq (hvl _ rfl)
    rw [isCodecCsrFaststream, isCodecCsrAptxAclSprint, isCodecCsrAptx, hid, hid, hid]
    rfl
  | aptxAclSprint =>
    have hid := isVendorCodec_eq (hvl _ rfl)
    rw [isCodecCsrFaststream, isCodecCsrAptxAclSprint, hid, hid]
    rfl

/-! ### What a selection leaves as it is -/

theorem mask_of_ne {i j : ℕ} (h : j ≠ i) (m : Octet) : (c.mask i m) j = c j := if_neg h

theorem put_of_ne {i j : ℕ} (h : j ≠ i) (v : Octet) : (c.put i v) j = c j := if_neg h

theorem runs_of_ne {steps : List Step} (h : ∀ s ∈ steps, j ≠ s.index) : runs steps l c j = c j := by
  induction steps generalizing c with
  | nil => rfl
  | cons s steps ih =>
    exact (ih fun s hs => h s (List.mem_cons_of_mem _ hs)).trans (mask_of_ne (h s List.mem_cons_self) _)

theorem selectMp3Row_of_ne {rows : List Mp3Row} (hj : j < 4) (h : ∀ row ∈ rows, 4 ≤ row.kept.1 ∧
    ∀ kept ∈ row.rateKept, 4 ≤ kept.1) : selectMp3Row l c rows j = c j := by
  unfold selectMp3Row
  cases hrow : rows.find? fun row => row.test l c with
  | none => rfl
  | some row =>
    obtain ⟨hkept, hrate⟩ := h row (List.mem_of_find?_eq_some hrow)
    change row.apply l c j = c j
    unfold Mp3Row.apply
    cases hr : row.rateKept with
    | none => exact mask_of_ne (by omega) _
    | some kept =>
      have hkept' := hrate kept hr
      exact (mask_of_ne (by omega) _).trans ((mask_of_ne (by omega) _).trans (mask_of_ne (by omega) _))

theorem selectAptx_below (role : Role) (l r : Caps) (hj : j < 10) : selectAptx role l r j = r j := by
  have hindex : j ≠ (aptxRateStep role).index := by cases role <;> exact Nat.ne_of_lt hj
  rw [selectAptx, mask_of_ne (by omega), Step.run, mask_of_ne hindex, put_of_ne (by omega)]

/-- The first octet that a selection may write. -/
def Codec.start (k : Codec) : ℕ := if k.vendor.isSome then 10 else 4

/-- The selection writes the octets of the codec only. -/
theorem select_below (k : Codec) (role : Role) (l r : Caps) (hj : j < k.start) :
    k.select role l r j = r j := by
  cases k with
  | sbc =>
    have hj : j < 4 := hj
    have hsbc : ∀ role, selectSbc role l r j = r j := by
      intro role
      have hsteps : ∀ s ∈ sbcSteps role, 4 ≤ s.index := by cases role <;> decide
      have hclamp : selectSbc role l r j = runs (sbcSteps role) l r j := by
        unfold selectSbc clampBitpools
        have h6 : j ≠ 6 := by omega
        have h7 : j ≠ 7 := by omega
        split_ifs <;> simp only [put_of_ne h6, put_of_ne h7]
      exact hclamp.trans (runs_of_ne fun s hs => by have := hsteps s hs; omega)
    cases role
    · exact hsbc .source
    · exact hsbc .sink
  | mpeg =>
    have hj : j < 4 := hj
    have htable : ∀ rows ∈ mp3CapsTable, ∀ row ∈ rows, 4 ≤ row.kept.1 ∧ ∀ kept ∈ row.rateKept, 4 ≤ kept.1 := by
      decide
    simp only [mp3CapsTable, List.forall_mem_cons] at htable
    have hrow : selectMp3Caps l r j = r j := by
      rw [selectMp3Caps_eq, selectMp3Row_of_ne hj htable.2.2.1, selectMp3Row_of_ne hj htable.2.1,
        selectMp3Row_of_ne hj htable.1]
    cases role <;> exact hrow
  | aac =>
    have hj : j < 4 := hj
    have hnarrowed : aacNarrowed r j = r j := by
      unfold aacNarrowed Step.run
      exact (mask_of_ne (Nat.ne_of_lt (Nat.lt_trans hj (by decide : 4 < 6))) _).trans
        (put_of_ne (Nat.ne_of_lt hj) _)
    have haac : selectOptimalAacCaps r j = r j := by
      rw [selectOptimalAacCaps_eq]
      split_ifs <;> rw [put_of_ne (by omega), mask_of_ne (by omega), hnarrowed]
    cases role <;> exact haac
  | faststream =>
    have hj : j < 10 := hj
    have hput : selectOptimalCsrFastStreamCapsSink l r j = r j :=
      (put_of_ne (by omega) _).trans (put_of_ne (by omega) _)
    cases role <;> exact hput
  | aptx =>
    have haptx := selectAptx_below role l r hj
    cases role <;> exact haptx
  | aptxAclSprint =>
    have hj : j < 10 := hj
    have hsprint := (selectAptxAclSprint_eq role l r (by omega)).trans (selectAptx_below role l r hj)
    cases role <;> exact hsprint

theorem codecOf_select (role : Role) (h : codecOf r = some k) : codecOf (k.select role l r) = some k := by
  have hbelow : ∀ {j}, j < k.start → k.select role l r j = r j := select_below k role l r
  have hfour : ∀ j < 4, k.select role l r j = r j := by
    intro j hj
    refine hbelow ?_
    unfold Codec.start
    split_ifs <;> omega
  rw [codecOf_iff] at h ⊢
  obtain ⟨h2, h3, hv⟩ := h
  refine ⟨(hfour 2 (by decide)).trans h2, (hfour 3 (by decide)).trans h3, fun v hk => ?_⟩
  have hten : ∀ j < 10, k.select role l r j = r j := by
    intro j hj
    refine hbelow ?_
    rw [Codec.start, mem_def.mp hk]
    exact hj
  have hids := hv v hk
  unfold convertUint8ValuesToUint32 convertUint8ValuesToUint16 Caps.drop at hids ⊢
  rw [hten _ (by decide), hten _ (by decide), hten _ (by decide), hten _ (by decide), hten _ (by decide),
    hten _ (by decide)]
  exact hids

/-! ### The fields that are selected -/

theorem Field.selected_congr {f : Field} {cfg cfg' : Caps} (h : ∀ b ∈ f.bits, cfg.has b = cfg'.has b) :
    f.Selected l r cfg ↔ f.Selected l r cfg' := by
  rw [Field.Selected, Field.Selected, List.filter_congr h]

theorem aptxAclSprint_selected_iff (role : Role) :
    (∀ f ∈ aptxFields, f.Selected l r (selectAptxAclSprint role l r)) ↔
      ∀ f ∈ aptxFields, f.Selected l r (selectAptx role l r) := by
  have hindex : ∀ f ∈ aptxFields, ∀ b ∈ f.bits, b.1 < 11 := by decide
  refine forall₂_congr fun f hf => ?_
  exact Field.selected_congr fun b hb => has_selectAptxAclSprint role l r (hindex f hf b hb)

theorem selected_iff_selectsWell (role : Role) (h : k.compatible l r true = true) :
    (∀ f ∈ k.fields l r, f.Selected l r (k.select role l r)) ↔ k.SelectsWell role l r := by
  cases k with
  | sbc =>
    obtain ⟨-, -, hover, -⟩ := (areSBCCodecsCompatible_iff l r true).mp h
    have hsel := sbc_selected_iff role fun f hf => (hover f hf).1
    cases role <;> exact hsel
  | mpeg =>
    obtain ⟨-, -, hover, hrate⟩ := (areMPEG12AudioCodecsCompatible_iff l r true).mp h
    have hsel := mpeg_selected_iff (fun f hf => (hover f hf).1) hrate
    cases role <;> exact hsel
  | aac =>
    cases role <;> exact aac_selected_iff
  | faststream =>
    cases role <;> exact faststream_selected_iff
  | aptx =>
    obtain ⟨-, hstereo, -⟩ := (areAptxCodecsCompatible_iff l r).mp h
    have hsel := aptx_selected_iff role hstereo
    cases role <;> exact hsel
  | aptxAclSprint =>
    obtain ⟨-, hstereo, hrate⟩ := (areAptxAclSprintCodecsCompatible_iff l r).mp h
    have hsel := (aptxAclSprint_selected_iff role).trans (aptx_selected_iff role hstereo)
    have hall : ∀ f ∈ aptxFields, f.Selected l r (selectAptxAclSprint role l r) :=
      hsel.mpr (aptxAclSprintRate_overlaps_iff.mp hrate)
    cases role <;> exact iff_of_true hall trivial

theorem clampBitpools_eq (l c : Caps) :
    clampBitpools l c 6 = (if c 6 < l 6 then l 6 else c 6) ∧
      clampBitpools l c 7 = if l 7 < c 7 then l 7 else c 7 := by
  have hseven : ∀ v, c.put 6 v 7 = c 7 := fun v => rfl
  unfold clampBitpools
  by_cases hmin : c 6 < l 6
  · by_cases hmax : l 7 < c 7
    · simp only [if_pos hmin, hseven, if_pos hmax]
      exact ⟨rfl, rfl⟩
    · simp only [if_pos hmin, hseven, if_neg hmax]
      exact ⟨rfl, trivial⟩
  · by_cases hmax : l 7 < c 7
    · simp only [if_neg hmin, if_pos hmax]
      exact ⟨rfl, rfl⟩
    · simp only [if_neg hmin, if_neg hmax]
      exact ⟨trivial, trivial⟩

/-- The clamps leave bitpools that are within both ranges. -/
theorem bitpoolsMatch_selectSbc (role : Role) (l r : Caps) :
    bitpoolsMatch l (selectSbc role l r) false = true ∧ bitpoolsMatch r (selectSbc role l r) false = true := by
  have hindex : ∀ s ∈ sbcSteps role, s.index < 6 := by cases role <;> decide
  have hsix : runs (sbcSteps role) l r 6 = r 6 := runs_of_ne fun s hs => Nat.ne_of_gt (hindex s hs)
  have hseven : runs (sbcSteps role) l r 7 = r 7 :=
    runs_of_ne fun s hs => Nat.ne_of_gt (Nat.lt_succ_of_lt (hindex s hs))
  obtain ⟨hmin, hmax⟩ := clampBitpools_eq l (runs (sbcSteps role) l r)
  rw [hsix] at hmin
  rw [hseven] at hmax
  unfold bitpoolsMatch
  rw [if_neg Bool.false_ne_true, if_neg Bool.false_ne_true, decide_eq_true_iff, decide_eq_true_iff, selectSbc,
    hmin, hmax]
  refine ⟨⟨?_, ?_⟩, ?_, ?_⟩ <;> split_ifs with h
  · exact BitVec.le_refl _
  · exact BitVec.not_lt.mp h
  · exact BitVec.le_refl _
  · exact BitVec.not_lt.mp h
  · exact BitVec.le_of_lt h
  · exact BitVec.le_refl _
  · exact BitVec.le_of_lt h
  · exact BitVec.le_refl _

theorem compatible_select (role : Role) (h : k.compatible l r true = true)
    (hsel : ∀ f ∈ k.fields l r, f.Selected l r (k.select role l r)) :
    k.compatible l (k.select role l r) false = true ∧ k.compatible r (k.select role l r) false = true := by
  have hlosc : k.select role l r 1 = r 1 := select_below k role l r (by unfold Codec.start; split_ifs <;> decide)
  have hl : ∀ f ∈ k.fields l r, f.Overlaps l (k.select role l r) ∧
      (f.Single (k.select role l r) ∨ false = true) :=
    fun f hf => ⟨(hsel f hf).overlaps_left, Or.inl (hsel f hf).single⟩
  have hr : ∀ f ∈ k.fields l r, f.Overlaps r (k.select role l r) ∧
      (f.Single (k.select role l r) ∨ false = true) :=
    fun f hf => ⟨(hsel f hf).overlaps_right, Or.inl (hsel f hf).single⟩
  cases k with
  | sbc =>
    obtain ⟨hl1, hr1, -, -⟩ := (areSBCCodecsCompatible_iff l r true).mp h
    have hpools := bitpoolsMatch_selectSbc role l r
    rw [Codec.compatible, Codec.compatible, areSBCCodecsCompatible_iff, areSBCCodecsCompatible_iff, hlosc]
    cases role
    · exact ⟨⟨hl1, hr1, hl, hpools.1⟩, hr1, hr1, hr, hpools.2⟩
    · exact ⟨⟨hl1, hr1, hl, hpools.1⟩, hr1, hr1, hr, hpools.2⟩
  | mpeg =>
    obtain ⟨hl1, hr1, -, -⟩ := (areMPEG12AudioCodecsCompatible_iff l r true).mp h
    rw [Codec.compatible, Codec.compatible, areMPEG12AudioCodecsCompatible_iff,
      areMPEG12AudioCodecsCompatible_iff, hlosc]
    have hmem : mpegBitRateField ∈ mpegMaskFields ++ [mpegBitRateField] := by decide
    exact ⟨⟨hl1, hr1, fun f hf => hl f (List.mem_append_left _ hf), (hl _ hmem).1⟩,
      hr1, hr1, fun f hf => hr f (List.mem_append_left _ hf), (hr _ hmem).1⟩
  | aac =>
    obtain ⟨hl1, hr1, -⟩ := (areMPEG24AACCodecsCompatible_iff l r true).mp h
    rw [Codec.compatible, Codec.compatible, areMPEG24AACCodecsCompatible_iff,
      areMPEG24AACCodecsCompatible_iff, hlosc]
    exact ⟨⟨hl1, hr1, hl⟩, hr1, hr1, hr⟩
  | faststream => cases role <;> exact faststream_compatible h hsel
  | aptx =>
    obtain ⟨⟨hl1, hr1⟩, hstereo, -⟩ := (areAptxCodecsCompatible_iff l r).mp h
    have hmode := common_selectAptx role hstereo
    rw [Codec.compatible, Codec.compatible, areAptxCodecsCompatible_iff, areAptxCodecsCompatible_iff, hlosc]
    have hmem : aptxRate ∈ aptxFields := by decide
    cases role
    · exact ⟨⟨⟨hl1, hr1⟩, hmode.1, (hl _ hmem).1⟩, ⟨hr1, hr1⟩, hmode.2, (hr _ hmem).1⟩
    · exact ⟨⟨⟨hl1, hr1⟩, hmode.1, (hl _ hmem).1⟩, ⟨hr1, hr1⟩, hmode.2, (hr _ hmem).1⟩
  | aptxAclSprint =>
    obtain ⟨⟨hl1, hr1⟩, hstereo, hrate⟩ := (areAptxAclSprintCodecsCompatible_iff l r).mp h
    have hmode := common_selectAptx role hstereo
    have hover := aptxAclSprintRate_overlaps role (aptxAclSprintRate_overlaps_iff.mp hrate)
    have hindex : ∀ b ∈ aptxAclSprintRate.bits, b.1 < 11 := by decide
    have hcommon : ∀ c, common c (selectAptxAclSprint role l r) (10, 1) =
        common c (selectAptx role l r) (10, 1) := by
      intro c
      rw [common, has_selectAptxAclSprint role l r (by decide)]
      rfl
    have hrates : ∀ c, aptxAclSprintRate.Overlaps c (selectAptx role l r) →
        aptxAclSprintRate.Overlaps c (selectAptxAclSprint role l r) := by
      rintro c ⟨b, hb, hc, hset⟩
      exact ⟨b, hb, hc, (has_selectAptxAclSprint role l r (hindex b hb)).trans hset⟩
    rw [Codec.compatible, Codec.compatible, areAptxAclSprintCodecsCompatible_iff,
      areAptxAclSprintCodecsCompatible_iff, hlosc]
    cases role
    · exact ⟨⟨⟨hl1, hr1⟩, (hcommon l).trans hmode.1, hrates l hover.1⟩, ⟨hr1, hr1⟩,
        (hcommon r).trans hmode.2, hrates r hover.2⟩
    · exact ⟨⟨⟨hl1, hr1⟩, (hcommon l).trans hmode.1, hrates l hover.1⟩, ⟨hr1, hr1⟩,
        (hcommon r).trans hmode.2, hrates r hover.2⟩

end Codecs

/-! ### The blocks of capabilities -/

/-- The capabilities from the codec on. -/
def codecAt (n : ℕ) (caps : Caps) : Caps := caps.drop ((findCodecSpecificInformation n caps).getD 0)

/-- A configuration is acceptable to both sides. -/
structure Acceptable (n : ℕ) (k : Codec) (localCaps remoteCaps cfg : Caps) : Prop where
  selected : ∀ f ∈ k.fields (codecAt n localCaps) (codecAt n remoteCaps),
    f.Selected (codecAt n localCaps) (codecAt n remoteCaps) (codecAt n cfg)
  acceptedLocal : (a2dpFindMatchingCodecSpecificInformation n localCaps cfg false).isSome = true
  acceptedRemote : (a2dpFindMatchingCodecSpecificInformation n remoteCaps cfg false).isSome = true

/-- What is written behind an entry is written behind it in the rest, too. -/
theorem drop_write (c d : Caps) (m j : ℕ) : (c.write (m + j) d).drop m = (c.drop m).write j d := by
  funext k
  unfold Caps.drop Caps.write
  by_cases hk : k < j
  · rw [if_pos (Nat.add_lt_add_left hk m), if_pos hk]
  · rw [if_neg (fun h => hk (Nat.lt_of_add_lt_add_left h)), if_neg hk, Nat.add_sub_add_left]

theorem write_of_lt (c d : Caps) {j k : ℕ} (h : k < j) : c.write j d k = c k := if_pos h

theorem drop_write_self (c d : Caps) (j : ℕ) : (c.write j d).drop j = d := by
  funext k
  unfold Caps.drop Caps.write
  rw [if_neg (Nat.not_lt.mpr (Nat.le_add_right j k)), Nat.add_sub_cancel_left]

/-- The search is not changed by what is written behind the first octet of the codec. -/
theorem findCodecSpecificInformation_write {n : ℕ} {c d : Caps}
    (h : findCodecSpecificInformation n c = some j) (hd : d 0 = c j) :
    findCodecSpecificInformation n (c.write j d) = some j := by
  induction n generalizing c j with
  | zero =>
    unfold findCodecSpecificInformation at h ⊢
    split_ifs at h with hcodec
    cases h
    exact if_pos (hd.trans hcodec)
  | succ n ih =>
    unfold findCodecSpecificInformation at h ⊢
    split_ifs at h with hcodec
    · cases h
      exact if_pos (hd.trans hcodec)
    · obtain ⟨i, hi, rfl⟩ := map_eq_some_iff.mp h
      have hzero : c.write (2 + (c 1).toNat + i) d 0 = c 0 := write_of_lt c d (by omega)
      have hone : c.write (2 + (c 1).toNat + i) d 1 = c 1 := write_of_lt c d (by omega)
      rw [hzero, hone, if_neg hcodec, drop_write]
      exact map_eq_some_iff.mpr ⟨i, ih hi hd, rfl⟩

variable {localCaps remoteCaps : Caps}

/-- What a match says of the two searches. -/
theorem matching_iff {n : ℕ} {initiating : Bool} :
    a2dpFindMatchingCodecSpecificInformation n localCaps remoteCaps initiating = some j ↔
      (findCodecSpecificInformation n localCaps).isSome = true ∧
      findCodecSpecificInformation n remoteCaps = some j ∧
      codecsMatch (codecAt n localCaps) (codecAt n remoteCaps) initiating = true := by
  unfold a2dpFindMatchingCodecSpecificInformation codecAt
  cases findCodecSpecificInformation n localCaps with
  | none => simp
  | some i =>
    cases findCodecSpecificInformation n remoteCaps with
    | none => simp
    | some j' =>
      simp only [isSome_some, some.injEq, getD_some, true_and]
      split_ifs with h
      · simp [h]
      · simp [h]

/-- The selection is written back where the codec has been found. -/
theorem a2dpSelectOptimalCodecSettings_eq {n : ℕ} (role : Role) {k : Codec}
    (hmatch : a2dpFindMatchingCodecSpecificInformation n localCaps remoteCaps true = some j)
    (hk : codecOf (codecAt n localCaps) = some k) :
    a2dpSelectOptimalCodecSettings n role localCaps remoteCaps =
      some (remoteCaps.write j (k.select role (codecAt n localCaps) (codecAt n remoteCaps))) := by
  obtain ⟨hl, hr, hcodecs⟩ := matching_iff.mp hmatch
  obtain ⟨i, hi⟩ := isSome_iff_exists.mp hl
  obtain ⟨hkr, -⟩ := (codecsMatch_iff hk true).mp hcodecs
  unfold codecAt at hk hkr ⊢
  rw [hi, getD_some] at hk ⊢
  rw [hr, getD_some] at hkr ⊢
  unfold a2dpSelectOptimalCodecSettings
  rw [hi, hr]
  cases role with
  | sink =>
    dsimp only
    rw [selectSink_eq hk hkr]
    rfl
  | source =>
    dsimp only
    rw [selectSource_eq hk]
    rfl

/-- The selection is acceptable exactly for these capabilities. -/
theorem acceptable_iff (n : ℕ) (role : Role) {localCaps remoteCaps : Caps} {j : ℕ} {k : Codec}
    (hmatch : a2dpFindMatchingCodecSpecificInformation n localCaps remoteCaps true = some j)
    (hk : codecOf (codecAt n localCaps) = some k) :
    (∃ cfg, a2dpSelectOptimalCodecSettings n role localCaps remoteCaps = some cfg ∧
      Acceptable n k localCaps remoteCaps cfg) ↔
      k.SelectsWell role (codecAt n localCaps) (codecAt n remoteCaps) := by
  rw [a2dpSelectOptimalCodecSettings_eq role hmatch hk]
  obtain ⟨hl, hr, hcodecs⟩ := matching_iff.mp hmatch
  obtain ⟨hkr, hcompatible⟩ := (codecsMatch_iff hk true).mp hcodecs
  have hstart : 0 < k.start := by unfold Codec.start; split_ifs <;> decide
  have hzero : k.select role (codecAt n localCaps) (codecAt n remoteCaps) 0 = remoteCaps j := by
    rw [select_below k role _ _ hstart, codecAt, hr]
    rfl
  have hfind := findCodecSpecificInformation_write hr hzero
  have hcodec : codecAt n (remoteCaps.write j (k.select role (codecAt n localCaps) (codecAt n remoteCaps))) =
      k.select role (codecAt n localCaps) (codecAt n remoteCaps) := by
    rw [codecAt, hfind]
    exact drop_write_self _ _ j
  have hkcfg : codecOf (k.select role (codecAt n localCaps) (codecAt n remoteCaps)) = some k :=
    codecOf_select role hkr
  rw [← selected_iff_selectsWell role hcompatible]
  constructor
  · rintro ⟨cfg, hcfg, hacceptable⟩
    cases hcfg
    have hsel := hacceptable.selected
    rwa [hcodec] at hsel
  · intro hsel
    obtain ⟨hlocal, hremote⟩ := compatible_select role hcompatible hsel
    refine ⟨_, rfl, by rwa [hcodec], ?_, ?_⟩
    · refine isSome_iff_exists.mpr ⟨j, matching_iff.mpr ⟨hl, hfind, ?_⟩⟩
      rw [hcodec]
      exact (codecsMatch_iff hk false).mpr ⟨hkcfg, hlocal⟩
    · refine isSome_iff_exists.mpr ⟨j, matching_iff.mpr ⟨isSome_iff_exists.mpr ⟨j, hr⟩, hfind, ?_⟩⟩
      rw [hcodec]
      exact (codecsMatch_iff hkr false).mpr ⟨hkcfg, hremote⟩

/-- Capabilities of SBC with these four octets. -/
def sbcCaps (octets : List Octet) : Caps := fun k => ([7, 6, 0, 0] ++ octets).getD k 0

theorem acceptable_iff_of_usual :
    (∃ cfg, a2dpSelectOptimalCodecSettings 0 .source (sbcCaps [0x3f, 0xff, 2, 53])
        (sbcCaps [0x2f, 0x1f, 2, 53]) = some cfg ∧
      Acceptable 0 .sbc (sbcCaps [0x3f, 0xff, 2, 53]) (sbcCaps [0x2f, 0x1f, 2, 53]) cfg) ↔
      Codec.sbc.SelectsWell .source (codecAt 0 (sbcCaps [0x3f, 0xff, 2, 53]))
        (codecAt 0 (sbcCaps [0x2f, 0x1f, 2, 53])) :=
  acceptable_iff 0 .source (j := 0) (by decide) (by decide)

/-- Every selection is acceptable. -/
def AlwaysAcceptable : Prop :=
  ∀ (n : ℕ) (role : Role) (localCaps remoteCaps : Caps) (j : ℕ) (k : Codec),
    a2dpFindMatchingCodecSpecificInformation n localCaps remoteCaps true = some j →
    codecOf (codecAt n localCaps) = some k →
    (k = .sbc → codecAt n localCaps 6 ≤ codecAt n localCaps 7 ∧ codecAt n remoteCaps 6 ≤ codecAt n remoteCaps 7) →
    ∃ cfg, a2dpSelectOptimalCodecSettings n role localCaps remoteCaps = some cfg ∧
      Acceptable n k localCaps remoteCaps cfg

/-- The remote device has blocks of 12 and 16, and the local one has blocks of 12 only: blocks of 16 are
selected. -/
theorem not_alwaysAcceptable : ¬AlwaysAcceptable := by
  intro h
  obtain ⟨cfg, hcfg, hacceptable⟩ := h 0 .source (sbcCaps [0x3f, 0x2f, 2, 53]) (sbcCaps [0x3f, 0x3f, 2, 53]) 0 .sbc
    (by decide) (by decide) (by decide)
  rw [a2dpSelectOptimalCodecSettings_eq .source (j := 0) (k := .sbc) (by decide) (by decide)] at hcfg
  cases hcfg
  exact absurd hacceptable.acceptedLocal (by decide)

end Cbps.A2dp
