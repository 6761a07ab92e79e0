import Cbps.Lib.Masks
import Mathlib.Data.List.Basic

/-!
# Capabilities of stream end points

`a2dp_caps_parse.c`: a pointer into a list of service capabilities is the octets that it reads. The
capabilities of a codec are masks, and a `Field` is the part of them in which one bit is selected.
The functions of the source test the fields one by one; `areSBCCodecsCompatible_iff` and its siblings
say which fields each of them tests.
-/

namespace Cbps.A2dp

open Lib List

abbrev Octet := BitVec 8

/-- The octets that a pointer reads. -/
abbrev Caps := ℕ → Octet

/-- A pointer that has been moved on. -/
def Caps.drop (p : Caps) (n : ℕ) : Caps := fun k => p (n + k)

/-! ### Constants -/

/-- `AVDTP_SERVICE_MEDIA_CODEC`. -/
def serviceMediaCodec : Octet := 7

/-- `AVDTP_MEDIA_TYPE_AUDIO << 2`. -/
def mediaTypeAudio : Octet := 0

def mediaCodecSbc : Octet := 0

def mediaCodecMpeg12Audio : Octet := 1

def mediaCodecMpeg24Aac : Octet := 2

def mediaCodecNonA2dp : Octet := 0xff

def csrVendorId : BitVec 32 := 0x0a000000

def aptVendorId : BitVec 32 := 0x4f000000

def csrFaststreamCodecId : BitVec 16 := 0x0100

def csrAptxCodecId : BitVec 16 := 0x0100

def csrAptxAclSprintCodecId : BitVec 16 := 0x0200

/-! ### Fields -/

/-- A bit of the octets of a pointer. -/
abbrev Bit := ℕ × ℕ

/-- The bit is set. -/
def Caps.has (c : Caps) (b : Bit) : Bool := (c b.1).getLsbD b.2

/-- The octets of a field, with their masks. -/
abbrev Field := List (ℕ × Octet)

/-- The bits of a field. -/
def Field.bits (f : Field) : List Bit := f.flatMap fun part => (positions part.2).map (part.1, ·)

/-- Some bit of the field is set in both. -/
def Field.Overlaps (f : Field) (l r : Caps) : Prop := ∃ b ∈ f.bits, l.has b = true ∧ r.has b = true

/-- Exactly one bit of the field is set. -/
def Field.Single (f : Field) (c : Caps) : Prop := ∃ b, f.bits.filter c.has = [b]

/-- Exactly one bit of the field is set, and it is a bit of both capabilities. -/
def Field.Selected (f : Field) (l r cfg : Caps) : Prop :=
  ∃ b, f.bits.filter cfg.has = [b] ∧ l.has b = true ∧ r.has b = true

variable {l r cfg : Caps}

theorem Field.Selected.single {f : Field} (h : f.Selected l r cfg) : f.Single cfg := by
  obtain ⟨b, hb, -⟩ := h
  exact ⟨b, hb⟩

theorem Field.Selected.overlaps_left {f : Field} (h : f.Selected l r cfg) :
    f.Overlaps l cfg := by
  obtain ⟨b, hb, hl, -⟩ := h
  obtain ⟨hmem, hset⟩ := mem_filter.mp (hb ▸ mem_singleton_self b)
  exact ⟨b, hmem, hl, hset⟩

theorem Field.Selected.overlaps_right {f : Field} (h : f.Selected l r cfg) :
    f.Overlaps r cfg := by
  obtain ⟨b, hb, -, hr⟩ := h
  obtain ⟨hmem, hset⟩ := mem_filter.mp (hb ▸ mem_singleton_self b)
  exact ⟨b, hmem, hr, hset⟩

/-! ### The source -/

/-- `bitMaskOk`. -/
def bitMaskOk {w : ℕ} (mask : BitVec w) : Bool := mask ≠ 0 ∧ mask &&& (mask - 1) = 0

/-- `a2dpConvertUint8ValuesToUint32`. -/
def convertUint8ValuesToUint32 (p : Caps) : BitVec 32 := p 0 ++ p 1 ++ p 2 ++ p 3

/-- `a2dpConvertUint8ValuesToUint16`. -/
def convertUint8ValuesToUint16 (p : Caps) : BitVec 16 := p 0 ++ p 1

/-- `areSBCCodecsCompatible`. -/
def areSBCCodecsCompatible (l r : Caps) (localLosc remoteLosc : Octet) (initiating : Bool) : Bool :=
  6 ≤ localLosc ∧ 6 ≤ remoteLosc ∧
  -- sampling frequency
  (l 0 >>> 4) &&& (r 0 >>> 4) ≠ 0 ∧ (bitMaskOk (r 0 &&& 0xf0) ∨ initiating) ∧
  -- channel mode
  (l 0 &&& (0xf : Octet)) &&& (r 0 &&& (0xf : Octet)) ≠ 0 ∧ (bitMaskOk (r 0 &&& 0xf) ∨ initiating) ∧
  -- block length
  (l 1 >>> 4) &&& (r 1 >>> 4) ≠ 0 ∧ (bitMaskOk (r 1 &&& 0xf0) ∨ initiating) ∧
  -- subbands
  ((l 1 >>> 2) &&& (3 : Octet)) &&& ((r 1 >>> 2) &&& (3 : Octet)) ≠ 0 ∧ (bitMaskOk (r 1 &&& 0xc) ∨ initiating) ∧
  -- allocation method
  (l 1 &&& (3 : Octet)) &&& (r 1 &&& (3 : Octet)) ≠ 0 ∧ (bitMaskOk (r 1 &&& 0x3) ∨ initiating) ∧
  (if initiating then decide (l 2 ≤ r 3 ∧ r 2 ≤ l 3) else decide (r 3 ≤ l 3 ∧ l 2 ≤ r 2)) = true

/-- The bit rate of MPEG audio, as it is put together in `areMPEG12AudioCodecsCompatible`. -/
def mpegBitRate (c : Caps) : BitVec 16 := ((c 2 &&& 0x7f).setWidth 16 <<< 8) ||| (c 3).setWidth 16

/-- `areMPEG12AudioCodecsCompatible`. -/
def areMPEG12AudioCodecsCompatible (l r : Caps) (localLosc remoteLosc : Octet) (initiating : Bool) :
    Bool :=
  6 ≤ localLosc ∧ 6 ≤ remoteLosc ∧
  -- layer
  (l 0 >>> 5) &&& (r 0 >>> 5) ≠ 0 ∧ (bitMaskOk (r 0 &&& 0xe0) ∨ initiating) ∧
  -- channel mode
  (l 0 &&& 0x0f) &&& (r 0 &&& 0x0f) ≠ 0 ∧ (bitMaskOk (r 0 &&& 0x0f) ∨ initiating) ∧
  -- sampling frequency
  (l 1 &&& 0x3f) &&& (r 1 &&& 0x3f) ≠ 0 ∧ (bitMaskOk (r 1 &&& 0x3f) ∨ initiating) ∧
  -- bit rate
  mpegBitRate l &&& mpegBitRate r ≠ 0

/-- The sampling frequency of AAC, as it is put together in `areMPEG24AACCodecsCompatible`. -/
def aacFrequency (c : Caps) : BitVec 16 := (c 1).setWidth 16 ||| ((c 2 &&& 0xf0).setWidth 16 <<< 4)

/-- `areMPEG24AACCodecsCompatible`. -/
def areMPEG24AACCodecsCompatible (l r : Caps) (localLosc remoteLosc : Octet) (initiating : Bool) :
    Bool :=
  8 ≤ localLosc ∧ 8 ≤ remoteLosc ∧
  -- object type
  l 0 &&& r 0 ≠ 0 ∧ (bitMaskOk (r 0) ∨ initiating) ∧
  -- sampling frequency
  aacFrequency l &&& aacFrequency r ≠ 0 ∧ (bitMaskOk (aacFrequency r) ∨ initiating) ∧
  -- channels
  (l 2 &&& 0x0c) &&& (r 2 &&& 0x0c) ≠ 0 ∧ (bitMaskOk (r 2 &&& 0x0c) ∨ initiating)

/-- `areCsrFastStreamCodecsCompatible`. -/
def areCsrFastStreamCodecsCompatible (l r : Caps) (localLosc remoteLosc : Octet) : Bool :=
  if localLosc < 8 ∨ remoteLosc < 8 then false
  else if l 6 &&& r 6 &&& 1 ≠ 0 ∧ l 7 &&& r 7 &&& 0x0F = 0 then false
  else if l 6 &&& r 6 &&& 2 ≠ 0 then l 7 &&& r 7 &&& 0xF0 ≠ 0
  -- `music_ok`
  else l 6 &&& r 6 &&& 1 ≠ 0

/-- `areAptxCodecsCompatible`. -/
def areAptxCodecsCompatible (l r : Caps) (localLosc remoteLosc : Octet) : Bool :=
  ¬(localLosc < 7 ∨ remoteLosc < 7) ∧ l 6 &&& r 6 &&& 0x02 ≠ 0 ∧ l 6 &&& r 6 &&& 0xF0 ≠ 0

/-- `areAptxAclSprintCodecsCompatible`. -/
def areAptxAclSprintCodecsCompatible (l r : Caps) (localLosc remoteLosc : Octet) : Bool :=
  ¬(localLosc < 7 ∨ remoteLosc < 7) ∧ l 6 &&& r 6 &&& 0x02 ≠ 0 ∧ l 6 &&& r 6 &&& 0x30 ≠ 0

/-- `areVendorCodecsCompatible`. -/
def areVendorCodecsCompatible (l r : Caps) (localLosc remoteLosc : Octet) : Bool :=
  if localLosc < 6 ∨ remoteLosc < 6 then false
  else if convertUint8ValuesToUint32 l ≠ convertUint8ValuesToUint32 r ∨
      convertUint8ValuesToUint16 (l.drop 4) ≠ convertUint8ValuesToUint16 (r.drop 4) then false
  else if convertUint8ValuesToUint32 r = csrVendorId then
    if convertUint8ValuesToUint16 (r.drop 4) = csrFaststreamCodecId then
      areCsrFastStreamCodecsCompatible l r localLosc remoteLosc
    else if convertUint8ValuesToUint16 (r.drop 4) = csrAptxAclSprintCodecId then
      areAptxAclSprintCodecsCompatible l r localLosc remoteLosc
    else true
  else if convertUint8ValuesToUint32 r = aptVendorId ∧
      convertUint8ValuesToUint16 (r.drop 4) = csrAptxCodecId then
    areAptxCodecsCompatible l r localLosc remoteLosc
  else true

/-- `a2dpFindCodecSpecificInformation`, which passes `n` other services at most, and returns the
offset of the codec. -/
def findCodecSpecificInformation : ℕ → Caps → Option ℕ
  | n, caps =>
    if caps 0 = serviceMediaCodec then some 0
    else
      match n with
      | 0 => none
      | n + 1 =>
        (findCodecSpecificInformation n (caps.drop (2 + (caps 1).toNat))).map (2 + (caps 1).toNat + ·)

/-- The codecs of two capabilities match, from their first octets on. -/
def codecsMatch (l r : Caps) (initiating : Bool) : Bool :=
  if l 2 = r 2 ∧ l 3 = r 3 then
    if l 2 = mediaTypeAudio then
      if l 3 = mediaCodecSbc then
        areSBCCodecsCompatible (l.drop 4) (r.drop 4) (l 1) (r 1) initiating
      else if l 3 = mediaCodecMpeg12Audio then
        areMPEG12AudioCodecsCompatible (l.drop 4) (r.drop 4) (l 1) (r 1) initiating
      else if l 3 = mediaCodecMpeg24Aac then
        areMPEG24AACCodecsCompatible (l.drop 4) (r.drop 4) (l 1) (r 1) initiating
      else if l 3 = mediaCodecNonA2dp then
        areVendorCodecsCompatible (l.drop 4) (r.drop 4) (l 1) (r 1)
      -- new codecs are accepted
      else true
    else true
  else false

/-- `a2dpFindMatchingCodecSpecificInformation`. The offset is the one of the remote codec. -/
def a2dpFindMatchingCodecSpecificInformation (n : ℕ) (localCaps remoteCaps : Caps)
    (initiating : Bool) : Option ℕ :=
  match findCodecSpecificInformation n localCaps, findCodecSpecificInformation n remoteCaps with
  | some i, some j =>
    if codecsMatch (localCaps.drop i) (remoteCaps.drop j) initiating then some j else none
  | _, _ => none

/-! ### Masks test fields -/

theorem bitMaskOk_iff {w : ℕ} {mask : BitVec w} :
    bitMaskOk mask = true ↔ ∃ k, positions mask = [k] := by
  rw [bitMaskOk, decide_eq_true_iff]
  exact isPowerOfTwo_iff

/-- A value `x` holds the bits of a field, the bit `b` in the position `g b`. -/
structure Field.HeldBy (f : Field) {w : ℕ} (x : Caps → BitVec w) (g : Bit → ℕ) : Prop where
  nodup : f.bits.Nodup
  inj : ∀ b ∈ f.bits, ∀ b' ∈ f.bits, g b = g b' → b = b'
  bit : ∀ c, ∀ b ∈ f.bits, (x c).getLsbD (g b) = c.has b
  only : ∀ c i, (x c).getLsbD i = true → ∃ b ∈ f.bits, g b = i

section HeldBy

variable {f : Field} {w : ℕ} {x : Caps → BitVec w} {g : Bit → ℕ}

theorem Field.HeldBy.single_iff (h : f.HeldBy x g) (c : Caps) :
    f.Single c ↔ bitMaskOk (x c) = true := by
  rw [bitMaskOk_iff, Field.Single]
  constructor
  · rintro ⟨b, hb⟩
    obtain ⟨hmem, hset⟩ := mem_filter.mp (hb ▸ mem_singleton_self b)
    have hbit : (x c).getLsbD (g b) = true := (h.bit c b hmem).trans hset
    refine ⟨g b, filter_eq_singleton nodup_range
      (mem_range.mpr (BitVec.lt_of_getLsbD hbit)) fun i _ => ⟨fun hi => ?_, fun hi => hi ▸ hbit⟩⟩
    obtain ⟨b', hb', rfl⟩ := h.only c i hi
    have hmem' : b' ∈ f.bits.filter c.has :=
      mem_filter.mpr ⟨hb', (h.bit c b' hb').symm.trans hi⟩
    rw [hb] at hmem'
    exact congrArg g (mem_singleton.mp hmem')
  · rintro ⟨k, hk⟩
    have hiff : ∀ i, (x c).getLsbD i = true ↔ i = k := by
      intro i
      rw [← mem_positions, hk, mem_singleton]
    obtain ⟨b, hb, rfl⟩ := h.only c k ((hiff k).mpr rfl)
    refine ⟨b, filter_eq_singleton h.nodup hb fun b' hb' => ?_⟩
    rw [← h.bit c b' hb', hiff]
    exact ⟨h.inj b' hb' b hb, fun he => he ▸ rfl⟩

theorem Field.HeldBy.overlaps_iff (h : f.HeldBy x g) (l r : Caps) :
    f.Overlaps l r ↔ x l &&& x r ≠ 0 := by
  have hbit : x l &&& x r ≠ 0 ↔ ∃ i, i ∈ positions (x l &&& x r) := by
    rw [← not_iff_not, not_not, ← positions_eq_nil, eq_nil_iff_forall_not_mem, not_exists]
  rw [hbit, Field.Overlaps]
  constructor
  · rintro ⟨b, hb, hl, hr⟩
    refine ⟨g b, mem_positions.mpr ?_⟩
    rw [BitVec.getLsbD_and, h.bit l b hb, h.bit r b hb, hl, hr]
    rfl
  · rintro ⟨i, hi⟩
    rw [mem_positions, BitVec.getLsbD_and, Bool.and_eq_true] at hi
    obtain ⟨b, hb, rfl⟩ := h.only l i hi.1
    exact ⟨b, hb, (h.bit l b hb).symm.trans hi.1, (h.bit r b hb).symm.trans hi.2⟩

end HeldBy

theorem mem_bits {f : Field} {b : Bit} : b ∈ f.bits ↔ ∃ m, (b.1, m) ∈ f ∧ m.getLsbD b.2 = true := by
  rw [Field.bits, mem_flatMap]
  constructor
  · rintro ⟨⟨i, m⟩, hpart, hb⟩
    obtain ⟨k, hk, rfl⟩ := mem_map.mp hb
    exact ⟨m, hpart, mem_positions.mp hk⟩
  · rintro ⟨m, hpart, hb⟩
    exact ⟨(b.1, m), hpart, mem_map.mpr ⟨b.2, mem_positions.mpr hb, rfl⟩⟩

/-- A mask of one octet holds a field. -/
theorem heldBy_and (i : ℕ) (mask : Octet) :
    Field.HeldBy [(i, mask)] (fun c => c i &&& mask) Prod.snd := by
  have hmem : ∀ b : Bit, b ∈ Field.bits [(i, mask)] ↔ b.1 = i ∧ mask.getLsbD b.2 = true := by
    intro b
    rw [mem_bits]
    simp only [mem_singleton, Prod.mk.injEq]
    constructor
    · rintro ⟨m, ⟨hi, rfl⟩, hb⟩
      exact ⟨hi, hb⟩
    · rintro ⟨hi, hb⟩
      exact ⟨mask, ⟨hi, rfl⟩, hb⟩
  constructor
  · rw [Field.bits, flatMap_singleton]
    exact (nodup_positions mask).map fun k k' h => (Prod.mk.inj h).2
  · intro b hb b' hb' h
    exact Prod.ext (((hmem b).mp hb).1.trans ((hmem b').mp hb').1.symm) h
  · intro c b hb
    obtain ⟨rfl, hbit⟩ := (hmem b).mp hb
    rw [BitVec.getLsbD_and, hbit, Bool.and_true]
    rfl
  · intro c k hk
    rw [BitVec.getLsbD_and, Bool.and_eq_true] at hk
    exact ⟨(i, k), (hmem _).mpr ⟨rfl, hk.2⟩, rfl⟩

theorem single_iff_bitMaskOk (c : Caps) (i : ℕ) (mask : Octet) :
    Field.Single [(i, mask)] c ↔ bitMaskOk (c i &&& mask) = true :=
  (heldBy_and i mask).single_iff c

theorem overlaps_iff_and (l r : Caps) (i : ℕ) (mask : Octet) :
    Field.Overlaps [(i, mask)] l r ↔ (l i &&& mask) &&& (r i &&& mask) ≠ 0 :=
  (heldBy_and i mask).overlaps_iff l r

/-- The position of a bit in a value that holds the octet `low`, and above it another octet that
has been moved by `n`. -/
def joined (low n : ℕ) (b : Bit) : ℕ := if b.1 = low then b.2 else b.2 + n

theorem getLsbD_joined {n : ℕ} (hn : n ≤ 8) (x y mask : Octet) (i : ℕ) :
    (x.setWidth 16 ||| ((y &&& mask).setWidth 16 <<< n)).getLsbD i =
      (x.getLsbD i || (decide (n ≤ i) && mask.getLsbD (i - n) && y.getLsbD (i - n))) := by
  simp only [BitVec.getLsbD_or, BitVec.getLsbD_setWidth, BitVec.getLsbD_shiftLeft, BitVec.getLsbD_and]
  by_cases hi : i < 16
  · by_cases hlow : i < n
    · simp [hi, hlow, Nat.not_le.mpr hlow]
    · have hle : n ≤ i := Nat.le_of_not_lt hlow
      have hsub : i - n < 16 := Nat.lt_of_le_of_lt (Nat.sub_le i n) hi
      simp [hi, hlow, hle, hsub, Bool.and_comm]
  · have hx : x.getLsbD i = false := BitVec.getLsbD_of_ge _ _ (by omega)
    have hy : y.getLsbD (i - n) = false := BitVec.getLsbD_of_ge _ _ (by omega)
    simp [hi, hx, hy]

theorem heldBy_joined {low high n : ℕ} {mask : Octet} (hne : high ≠ low) (hn : n ≤ 8)
    (hmask : ∀ k, mask.getLsbD k = true → 8 ≤ k + n) :
    Field.HeldBy [(low, 0xff), (high, mask)]
      (fun c => (c low).setWidth 16 ||| ((c high &&& mask).setWidth 16 <<< n)) (joined low n) := by
  have hff : ∀ k, (0xff : Octet).getLsbD k = decide (k < 8) := by
    intro k
    exact BitVec.getLsbD_allOnes
  have hmem : ∀ b : Bit, b ∈ Field.bits [(low, 0xff), (high, mask)] ↔
      b.1 = low ∧ b.2 < 8 ∨ b.1 = high ∧ mask.getLsbD b.2 = true := by
    intro b
    rw [mem_bits]
    simp only [mem_cons, not_mem_nil, or_false, Prod.mk.injEq, or_and_right, exists_or,
      and_assoc, exists_eq_left, exists_and_left, hff, decide_eq_true_eq]
  have hbit : ∀ (c : Caps) i, ((c low).setWidth 16 ||| ((c high &&& mask).setWidth 16 <<< n)).getLsbD i =
      ((c low).getLsbD i || (decide (n ≤ i) && mask.getLsbD (i - n) && (c high).getLsbD (i - n))) :=
    fun c i => getLsbD_joined hn (c low) (c high) mask i
  constructor
  · rw [Field.bits, flatMap_cons, flatMap_singleton]
    refine List.Nodup.append ((nodup_positions _).map fun k k' h => (Prod.mk.inj h).2)
      ((nodup_positions _).map fun k k' h => (Prod.mk.inj h).2) fun b hb hb' => ?_
    obtain ⟨k, -, rfl⟩ := mem_map.mp hb
    obtain ⟨k', -, h⟩ := mem_map.mp hb'
    exact hne (Prod.mk.inj h).1
  · rintro ⟨i, k⟩ hb ⟨i', k'⟩ hb' h
    rw [hmem] at hb hb'
    obtain ⟨rfl, hk⟩ | ⟨rfl, hk⟩ := hb <;> obtain ⟨rfl, hk'⟩ | ⟨rfl, hk'⟩ := hb'
    · simpa [joined] using h
    · have := hmask _ hk'
      simp only [joined, if_pos, if_neg hne] at h
      omega
    · have := hmask _ hk
      simp only [joined, if_pos, if_neg hne] at h
      omega
    · simpa [joined, hne] using h
  · rintro c ⟨i, k⟩ hb
    rw [hbit]
    obtain ⟨rfl, hk⟩ | ⟨rfl, hk⟩ := (hmem _).mp hb
    · -- the moved octet does not reach so far down
      have hhigh : (decide (n ≤ k) && mask.getLsbD (k - n)) = false := by
        rw [Bool.eq_false_iff]
        intro h
        rw [Bool.and_eq_true, decide_eq_true_iff] at h
        have := hmask _ h.2
        dsimp only at hk
        omega
      simp only [joined, if_pos, hhigh, Bool.false_and, Bool.or_false]
      rfl
    · have hlow : (c low).getLsbD (k + n) = false := BitVec.getLsbD_of_ge _ _ (hmask k hk)
      have hk : mask.getLsbD k = true := hk
      simp only [joined, if_neg hne, hlow, Nat.le_add_left, decide_true, Nat.add_sub_cancel, hk,
        Bool.true_and, Bool.false_or]
      rfl
  · intro c i hi
    rw [hbit, Bool.or_eq_true, Bool.and_eq_true, Bool.and_eq_true, decide_eq_true_iff] at hi
    obtain hi | ⟨⟨hle, hm⟩, -⟩ := hi
    · refine ⟨(low, i), (hmem _).mpr (Or.inl ⟨rfl, BitVec.lt_of_getLsbD hi⟩), ?_⟩
      simp [joined]
    · refine ⟨(high, i - n), (hmem _).mpr (Or.inr ⟨rfl, hm⟩), ?_⟩
      simp only [joined, if_neg hne]
      omega

/-- A mask of one bit tests it. -/
theorem and_ne_zero_iff {m : Octet} {k : ℕ} (hk : k < 8) (hm : m = BitVec.twoPow 8 k) (x : Octet) :
    x &&& m ≠ 0 ↔ x.getLsbD k = true := by
  rw [hm, BitVec.and_twoPow]
  split_ifs with hset
  · refine iff_of_true (fun hzero => ?_) hset
    have hnat := congrArg BitVec.toNat hzero
    rw [BitVec.toNat_twoPow_of_lt hk] at hnat
    exact Nat.ne_of_gt (Nat.two_pow_pos _) hnat
  · exact iff_of_false (fun h => h rfl) hset

theorem and_and_mask (x y m : Octet) : (x &&& m) &&& (y &&& m) = x &&& y &&& m := by
  refine BitVec.eq_of_getLsbD_eq fun i _ => ?_
  simp only [BitVec.getLsbD_and]
  cases x.getLsbD i <;> cases y.getLsbD i <;> cases m.getLsbD i <;> rfl

/-- An octet without the bits under a mask, as the shifts of the source see it. -/
theorem shiftRight_eq_zero : ∀ x : Octet, (x >>> 4 = 0 ↔ x &&& 0xf0 = 0) ∧ (x >>> 5 = 0 ↔ x &&& 0xe0 = 0) ∧
    (x >>> 2 &&& (3 : Octet) = 0 ↔ x &&& 0x0c = 0) := by
  decide

theorem shiftRight_four_eq_zero (x : Octet) : x >>> 4 = 0 ↔ x &&& 0xf0 = 0 := (shiftRight_eq_zero x).1

theorem shiftRight_five_eq_zero (x : Octet) : x >>> 5 = 0 ↔ x &&& 0xe0 = 0 := (shiftRight_eq_zero x).2.1

theorem shiftRight_two_eq_zero (x : Octet) : x >>> 2 &&& (3 : Octet) = 0 ↔ x &&& 0x0c = 0 :=
  (shiftRight_eq_zero x).2.2

/-! ### SBC -/

def sbcFrequency : Field := [(4, 0xf0)]

def sbcChannelMode : Field := [(4, 0x0f)]

def sbcBlockLength : Field := [(5, 0xf0)]

def sbcSubbands : Field := [(5, 0x0c)]

def sbcAllocation : Field := [(5, 0x03)]

def sbcFields : List Field := [sbcFrequency, sbcChannelMode, sbcBlockLength, sbcSubbands, sbcAllocation]

/-- The bitpools have a value in common, or the remote ones are within the local ones. -/
def bitpoolsMatch (l r : Caps) (initiating : Bool) : Bool :=
  if initiating then l 6 ≤ r 7 ∧ r 6 ≤ l 7 else r 7 ≤ l 7 ∧ l 6 ≤ r 6

theorem areSBCCodecsCompatible_iff (l r : Caps) (initiating : Bool) :
    areSBCCodecsCompatible (l.drop 4) (r.drop 4) (l 1) (r 1) initiating = true ↔
      6 ≤ l 1 ∧ 6 ≤ r 1 ∧ (∀ f ∈ sbcFields, f.Overlaps l r ∧ (f.Single r ∨ initiating = true)) ∧
      bitpoolsMatch l r initiating = true := by
  have hhigh : ∀ k, (l k >>> 4) &&& (r k >>> 4) ≠ 0 ↔ l k &&& r k &&& 0xf0 ≠ 0 := by
    intro k
    rw [← BitVec.ushiftRight_and_distrib, Ne, shiftRight_four_eq_zero]
  have hmid : (l 5 >>> 2) &&& (r 5 >>> 2) &&& (3 : Octet) ≠ 0 ↔ l 5 &&& r 5 &&& 0x0c ≠ 0 := by
    rw [← BitVec.ushiftRight_and_distrib, Ne, shiftRight_two_eq_zero]
  simp only [sbcFields, sbcFrequency, sbcChannelMode, sbcBlockLength, sbcSubbands, sbcAllocation,
    forall_mem_cons, overlaps_iff_and, single_iff_bitMaskOk, areSBCCodecsCompatible, Caps.drop,
    decide_eq_true_eq, hhigh, hmid, and_and_mask, Nat.reduceAdd, bitpoolsMatch, and_assoc,
    not_mem_nil, false_imp_iff, implies_true, true_and]
  exact Iff.rfl

/-! ### MPEG audio -/

def mpegLayer : Field := [(4, 0xe0)]

def mpegChannelMode : Field := [(4, 0x0f)]

def mpegFrequency : Field := [(5, 0x3f)]

def mpegBitRateField : Field := [(7, 0xff), (6, 0x7f)]

/-- The fields of which the remote value is tested. -/
def mpegMaskFields : List Field := [mpegLayer, mpegChannelMode, mpegFrequency]

theorem heldBy_mpegBitRate :
    mpegBitRateField.HeldBy (fun c => mpegBitRate (c.drop 4)) (joined 7 8) := by
  have heq : (fun c : Caps => mpegBitRate (c.drop 4)) =
      fun c : Caps => (c 7).setWidth 16 ||| ((c 6 &&& 0x7f).setWidth 16 <<< 8) := by
    funext c
    exact BitVec.or_comm _ _
  rw [heq]
  exact heldBy_joined (by decide) (Nat.le_refl 8) fun k _ => Nat.le_add_left 8 k

theorem areMPEG12AudioCodecsCompatible_iff (l r : Caps) (initiating : Bool) :
    areMPEG12AudioCodecsCompatible (l.drop 4) (r.drop 4) (l 1) (r 1) initiating = true ↔
      6 ≤ l 1 ∧ 6 ≤ r 1 ∧ (∀ f ∈ mpegMaskFields, f.Overlaps l r ∧ (f.Single r ∨ initiating = true)) ∧
      mpegBitRateField.Overlaps l r := by
  have hhigh : (l 4 >>> 5) &&& (r 4 >>> 5) ≠ 0 ↔ l 4 &&& r 4 &&& 0xe0 ≠ 0 := by
    rw [← BitVec.ushiftRight_and_distrib, Ne, shiftRight_five_eq_zero]
  have hrate : mpegBitRate (l.drop 4) &&& mpegBitRate (r.drop 4) ≠ 0 ↔ mpegBitRateField.Overlaps l r :=
    (heldBy_mpegBitRate.overlaps_iff l r).symm
  rw [areMPEG12AudioCodecsCompatible, decide_eq_true_iff, hrate]
  simp only [mpegMaskFields, mpegLayer, mpegChannelMode, mpegFrequency,
    forall_mem_cons, overlaps_iff_and, single_iff_bitMaskOk, Caps.drop, hhigh, and_and_mask,
    Nat.reduceAdd, and_assoc, not_mem_nil, false_imp_iff, implies_true, true_and]

/-! ### AAC -/

def aacObjectType : Field := [(4, 0xff)]

def aacFrequencyField : Field := [(5, 0xff), (6, 0xf0)]

def aacChannels : Field := [(6, 0x0c)]

def aacFields : List Field := [aacObjectType, aacFrequencyField, aacChannels]

theorem heldBy_aacFrequency :
    aacFrequencyField.HeldBy (fun c => aacFrequency (c.drop 4)) (joined 5 4) := by
  have hlow : ∀ k < 4, (0xf0 : Octet).getLsbD k = false := by decide
  have hmask : ∀ k, (0xf0 : Octet).getLsbD k = true → 8 ≤ k + 4 := by
    intro k hk
    by_contra hlt
    rw [hlow k (by omega)] at hk
    exact Bool.false_ne_true hk
  exact heldBy_joined (by decide) (by decide) hmask

theorem areMPEG24AACCodecsCompatible_iff (l r : Caps) (initiating : Bool) :
    areMPEG24AACCodecsCompatible (l.drop 4) (r.drop 4) (l 1) (r 1) initiating = true ↔
      8 ≤ l 1 ∧ 8 ≤ r 1 ∧ ∀ f ∈ aacFields, f.Overlaps l r ∧ (f.Single r ∨ initiating = true) := by
  rw [areMPEG24AACCodecsCompatible, decide_eq_true_iff]
  have hfull : ∀ x : Octet, x &&& 0xff = x := fun x => BitVec.and_allOnes
  simp only [aacFields, aacObjectType, aacChannels, forall_mem_cons, heldBy_aacFrequency.single_iff,
    heldBy_aacFrequency.overlaps_iff, overlaps_iff_and, single_iff_bitMaskOk, Caps.drop, hfull,
    Nat.reduceAdd, and_assoc, not_mem_nil, false_imp_iff, implies_true, and_true]

end Cbps.A2dp
