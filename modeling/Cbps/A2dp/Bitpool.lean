import Cbps.A2dp.Caps
import Mathlib.Data.Nat.Basic
import Mathlib.Tactic.Ring
import Mathlib.Algebra.Order.Ring.Int

/-!
# The bitpool of SBC

`a2dpSbcSelectBitpool` takes the length of a frame from the data rate, counts how many of them fill a PDU, rounding up, and
takes the bitpool from the length that so many frames may have. All of it is done in small integers, and there is nothing
in the way of a frame that is too short for its header: `bitpool_selected` says when the bitpool is right, which it is for
the rate that `clampSbcBitpool` takes for a channel mode.
-/

namespace Cbps.A2dp

/-! ### The code -/

/-- `a2dp_channel_mode`. -/
inductive ChannelMode
  | mono
  | dualChannel
  | stereo
  | jointStereo
  deriving DecidableEq, Repr

def ChannelMode.all : List ChannelMode := [.mono, .dualChannel, .stereo, .jointStereo]

/-- `sbc_parameters`. -/
structure SbcParameters where
  subBands : ℕ
  blocks : ℕ
  frequency : ℕ
  mode : ChannelMode
  deriving DecidableEq, Repr

/-- `freq_lut`. -/
def freqLut : List ℕ := [16000, 32000, 44100, 48000]

/-- `extractSbcParameters`. -/
def extractSbcParameters (sbcFormat : Octet) : SbcParameters where
  subBands := if sbcFormat &&& 0x01 ≠ 0 then 8 else 4
  blocks := 4 * (1 + ((sbcFormat &&& 0x30) >>> 4).toNat)
  frequency := freqLut.getD ((sbcFormat &&& 0xc0) >>> 6).toNat 0
  mode := ChannelMode.all.getD ((sbcFormat &&& 0x0c) >>> 2).toNat .mono

/-- `frameLengthFromRate`, in `u32` and cut to a `u16`. -/
def frameLengthFromRate (sbc : SbcParameters) (rate : ℕ) : ℕ :=
  rate * sbc.subBands * sbc.blocks % 4294967296 / (8 * sbc.frequency) % 65536

/-- The dividend and the divisor of `bitpoolFromFrameLength`, which are of type `int`. -/
def bitpoolFraction (sbc : SbcParameters) (frameLength : ℕ) : ℤ × ℤ :=
  match sbc.mode with
  | .mono => (8 * (frameLength - 4) - 4 * sbc.subBands, sbc.blocks)
  | .dualChannel => (8 * (frameLength - 4) - 8 * sbc.subBands, 2 * sbc.blocks)
  | .stereo => (8 * (frameLength - 4) - 8 * sbc.subBands, sbc.blocks)
  | .jointStereo => (8 * (frameLength - 4) - 9 * sbc.subBands, sbc.blocks)

/-- `bitpoolFromFrameLength`, cut to a `u8`. -/
def bitpoolFromFrameLength (sbc : SbcParameters) (frameLength : ℕ) : Octet :=
  BitVec.ofInt 8 ((bitpoolFraction sbc frameLength).1.tdiv (bitpoolFraction sbc frameLength).2)

/-- The variables of `a2dpSbcSelectBitpool` at its end. -/
structure BitpoolSelection where
  frames : ℕ
  frameLength : ℕ
  bitpool : Octet
  deriving DecidableEq, Repr

/-- `a2dpSbcSelectBitpool`, on its parameters. `none` is a division by zero. -/
def selection (sbc : SbcParameters) (rate pdu : ℕ) : Option BitpoolSelection :=
  let frameLength := frameLengthFromRate sbc rate
  let pdu := (pdu + 65536 - 13) % 65536
  if frameLength = 0 then none
  else
    let frames := (pdu + frameLength - 1) / frameLength % 65536
    if frames = 0 then none
    else some ⟨frames, pdu / frames, bitpoolFromFrameLength sbc (pdu / frames)⟩

/-- `a2dpSbcSelectBitpool`. -/
def a2dpSbcSelectBitpool (sbcHeader : Octet) (rate pdu : ℕ) : Option Octet :=
  (selection (extractSbcParameters sbcHeader) rate pdu).map BitpoolSelection.bitpool

/-- `SBC_ONE_CHANNEL_RATE`. -/
def sbcOneChannelRate : ℕ := 220000

/-- `SBC_TWO_CHANNEL_RATE`. -/
def sbcTwoChannelRate : ℕ := 361500

/-- The rate in `clampSbcBitpool`. -/
def clampedRate (format : Octet) : ℕ := if format &&& 0x0c = 0 then sbcOneChannelRate else sbcTwoChannelRate

/-- `clampSbcBitpool`, with the bitpools of the remote device. -/
def clampSbcBitpool (format : Octet) (packetSize : ℕ) (minBitpool maxBitpool : Octet) : Option Octet :=
  (a2dpSbcSelectBitpool format (clampedRate format) packetSize).map fun bitpool =>
    let bitpool := if bitpool < minBitpool then minBitpool else bitpool
    if maxBitpool < bitpool then maxBitpool else bitpool

/-! ### The numbers that are meant -/

/-- The longest frame at a data rate. -/
def rateLength (sbc : SbcParameters) (rate : ℕ) : ℕ := rate * sbc.subBands * sbc.blocks / (8 * sbc.frequency)

/-- How many of them fill a PDU behind the headers of RTP and of the payload. -/
def framesOf (sbc : SbcParameters) (rate pdu : ℕ) : ℕ := (pdu - 13 + rateLength sbc rate - 1) / rateLength sbc rate

/-- The length of a frame with a bitpool. -/
def sbcFrameLength (sbc : SbcParameters) (bitpool : ℕ) : ℕ :=
  match sbc.mode with
  | .mono => 4 + 4 * sbc.subBands / 8 + (sbc.blocks * bitpool + 7) / 8
  | .dualChannel => 4 + 8 * sbc.subBands / 8 + (2 * sbc.blocks * bitpool + 7) / 8
  | .stereo => 4 + 8 * sbc.subBands / 8 + (sbc.blocks * bitpool + 7) / 8
  | .jointStereo => 4 + 8 * sbc.subBands / 8 + (sbc.subBands + sbc.blocks * bitpool + 7) / 8

/-- The result without bounds. -/
def unboundedBitpool (sbc : SbcParameters) (rate pdu : ℕ) : ℤ :=
  let fraction := bitpoolFraction sbc ((pdu - 13) / framesOf sbc rate pdu)
  fraction.1 / fraction.2

/-- **The promise** of a selection. -/
structure BitpoolSelection.Good (s : BitpoolSelection) (sbc : SbcParameters) (rate pdu : ℕ) : Prop where
  frames : s.frames = framesOf sbc rate pdu
  header : 4 ≤ s.frameLength
  dividend : 0 ≤ (bitpoolFraction sbc s.frameLength).1
  unbounded : (s.bitpool.toNat : ℤ) = unboundedBitpool sbc rate pdu
  least : 2 ≤ s.bitpool.toNat
  fills : s.frames * sbcFrameLength sbc s.bitpool.toNat ≤ pdu - 13
  rate : 8 * sbcFrameLength sbc s.bitpool.toNat * sbc.frequency ≤ rate * sbc.subBands * sbc.blocks

/-- The selection is made, and it is good. -/
def SelectsWell (sbcHeader : Octet) (rate pdu : ℕ) : Prop :=
  ∃ s, selection (extractSbcParameters sbcHeader) rate pdu = some s ∧ s.Good (extractSbcParameters sbcHeader) rate pdu

/-- So many of the shortest frames fit in the PDU. -/
def ShortestFit (sbc : SbcParameters) (rate pdu : ℕ) : Prop := sbcFrameLength sbc 2 * framesOf sbc rate pdu ≤ pdu - 13

/-- The parameters for which they do in every PDU. -/
def Roomy (sbc : SbcParameters) (rate : ℕ) : Prop :=
  sbc.mode = .mono ∨ rate = sbcTwoChannelRate ∨ 8 ≤ sbc.blocks ∨ sbc.frequency ≤ 32000

instance (sbc : SbcParameters) (rate : ℕ) : Decidable (Roomy sbc rate) := inferInstanceAs (Decidable (_ ∨ _))

/-! ### The parameters -/

/-- Parameters of a header. -/
structure SbcParameters.Valid (sbc : SbcParameters) : Prop where
  subBands : sbc.subBands ∈ [4, 8]
  blocks : sbc.blocks ∈ [4, 8, 12, 16]
  frequency : sbc.frequency ∈ freqLut

theorem valid_extract (sbcFormat : Octet) : (extractSbcParameters sbcFormat).Valid := by
  have hblocks : ((sbcFormat &&& 0x30) >>> 4).toNat ≤ 3 := by
    rw [BitVec.toNat_ushiftRight, BitVec.toNat_and, Nat.shiftRight_eq_div_pow]
    have hle := @Nat.and_le_right sbcFormat.toNat (0x30 : Octet).toNat
    exact Nat.div_le_of_le_mul (Nat.le_trans hle (by decide))
  have hfrequency : ((sbcFormat &&& 0xc0) >>> 6).toNat ≤ 3 := by
    rw [BitVec.toNat_ushiftRight, BitVec.toNat_and, Nat.shiftRight_eq_div_pow]
    have hle := @Nat.and_le_right sbcFormat.toNat (0xc0 : Octet).toNat
    exact Nat.div_le_of_le_mul (Nat.le_trans hle (by decide))
  refine ⟨?_, ?_, ?_⟩
  · rw [extractSbcParameters]
    dsimp only
    split
    · decide
    · decide
  · have hcases : ∀ n ≤ 3, 4 * (1 + n) ∈ [4, 8, 12, 16] := by decide
    exact hcases _ hblocks
  · have hcases : ∀ n ≤ 3, freqLut.getD n 0 ∈ freqLut := by decide
    exact hcases _ hfrequency

theorem subBands_cases {sbc : SbcParameters} (hvalid : sbc.Valid) : sbc.subBands = 4 ∨ sbc.subBands = 8 := by
  have hmem := hvalid.subBands
  simpa using hmem

theorem blocks_pos {sbc : SbcParameters} (hvalid : sbc.Valid) : 0 < sbc.blocks := by
  have hmem := hvalid.blocks
  simp only [List.mem_cons, List.not_mem_nil, or_false] at hmem
  omega

theorem frequency_le {sbc : SbcParameters} (hvalid : sbc.Valid) : 16000 ≤ sbc.frequency := by
  have hmem := hvalid.frequency
  simp only [freqLut, List.mem_cons, List.not_mem_nil, or_false] at hmem
  omega

/-! ### The two formulas are inverse to each other -/

/-- The bits of a frame that do not depend on the bitpool. -/
def headerBits (sbc : SbcParameters) : ℕ :=
  match sbc.mode with
  | .mono => 32 + 4 * sbc.subBands
  | .dualChannel => 32 + 8 * sbc.subBands
  | .stereo => 32 + 8 * sbc.subBands
  | .jointStereo => 32 + 9 * sbc.subBands

/-- The bits of a frame for one of the bitpool. -/
def bitsPerPool (sbc : SbcParameters) : ℕ :=
  match sbc.mode with
  | .dualChannel => 2 * sbc.blocks
  | _ => sbc.blocks

theorem bitpoolFraction_eq (sbc : SbcParameters) (frameLength : ℕ) :
    bitpoolFraction sbc frameLength = (8 * (frameLength : ℤ) - headerBits sbc, (bitsPerPool sbc : ℤ)) := by
  obtain ⟨subBands, blocks, frequency, mode⟩ := sbc
  cases mode <;> simp [bitpoolFraction, headerBits, bitsPerPool] <;> ring

theorem sbcFrameLength_eq {sbc : SbcParameters} (hvalid : sbc.Valid) (bitpool : ℕ) :
    sbcFrameLength sbc bitpool = (headerBits sbc + bitsPerPool sbc * bitpool + 7) / 8 := by
  have hsub := subBands_cases hvalid
  obtain ⟨subBands, blocks, frequency, mode⟩ := sbc
  cases mode <;> simp only [sbcFrameLength, headerBits, bitsPerPool] at hsub ⊢ <;> omega

/-- A frame of some length holds a bitpool when its bits do. -/
theorem sbcFrameLength_le_iff {sbc : SbcParameters} (hvalid : sbc.Valid) {bitpool length : ℕ} :
    sbcFrameLength sbc bitpool ≤ length ↔ headerBits sbc + bitsPerPool sbc * bitpool ≤ 8 * length := by
  rw [sbcFrameLength_eq hvalid]
  omega

theorem sbcFrameLength_mono {sbc : SbcParameters} (hvalid : sbc.Valid) {a b : ℕ} (hle : a ≤ b) :
    sbcFrameLength sbc a ≤ sbcFrameLength sbc b := by
  rw [sbcFrameLength_le_iff hvalid]
  have hmul := Nat.mul_le_mul_left (bitsPerPool sbc) hle
  have hlength := (sbcFrameLength_le_iff hvalid).mp (Nat.le_refl (sbcFrameLength sbc b))
  omega

theorem blocks_le_bitsPerPool (sbc : SbcParameters) : sbc.blocks ≤ bitsPerPool sbc := by
  obtain ⟨subBands, blocks, frequency, mode⟩ := sbc
  cases mode <;> simp only [bitsPerPool] <;> omega

theorem four_le_headerBits (sbc : SbcParameters) : 32 ≤ headerBits sbc := by
  obtain ⟨subBands, blocks, frequency, mode⟩ := sbc
  cases mode <;> simp only [headerBits] <;> omega

/-! ### The length of a frame -/

section

variable {sbc : SbcParameters} {rate : ℕ}

theorem rate_le (hrate : rate = sbcOneChannelRate ∨ rate = sbcTwoChannelRate) : 220000 ≤ rate ∧ rate ≤ 361500 := by
  rcases hrate with rfl | rfl
  · decide
  · decide

/-- The data rate leaves at least one octet of a frame, and less than a `u16` holds. -/
theorem rateLength_bounds (hvalid : sbc.Valid) (hrate : rate = sbcOneChannelRate ∨ rate = sbcTwoChannelRate) :
    0 < rateLength sbc rate ∧ rateLength sbc rate < 65536 ∧ rate * sbc.subBands * sbc.blocks < 4294967296 := by
  have htable : ∀ subBands ∈ [4, 8], ∀ blocks ∈ [4, 8, 12, 16], ∀ frequency ∈ freqLut,
      ∀ rate ∈ [sbcOneChannelRate, sbcTwoChannelRate],
        0 < rate * subBands * blocks / (8 * frequency) ∧ rate * subBands * blocks / (8 * frequency) < 65536 ∧
          rate * subBands * blocks < 4294967296 := by
    decide
  exact htable _ hvalid.subBands _ hvalid.blocks _ hvalid.frequency rate (by simpa using hrate)

theorem frameLengthFromRate_eq (hvalid : sbc.Valid) (hrate : rate = sbcOneChannelRate ∨ rate = sbcTwoChannelRate) :
    frameLengthFromRate sbc rate = rateLength sbc rate := by
  obtain ⟨-, hlength, hproduct⟩ := rateLength_bounds hvalid hrate
  rw [frameLengthFromRate, Nat.mod_eq_of_lt hproduct]
  exact Nat.mod_eq_of_lt hlength

theorem rateLength_spec (sbc : SbcParameters) (rate : ℕ) :
    8 * rateLength sbc rate * sbc.frequency ≤ rate * sbc.subBands * sbc.blocks := by
  have hdiv := Nat.div_mul_le_self (rate * sbc.subBands * sbc.blocks) (8 * sbc.frequency)
  calc 8 * rateLength sbc rate * sbc.frequency = rateLength sbc rate * (8 * sbc.frequency) := by ring
    _ ≤ rate * sbc.subBands * sbc.blocks := hdiv

/-- A bitpool whose bits fit in the frame of the data rate fits in an octet. -/
theorem bitpool_lt (hvalid : sbc.Valid) (hrate : rate = sbcOneChannelRate ∨ rate = sbcTwoChannelRate) {bitpool : ℕ}
    (hfits : sbc.blocks * bitpool ≤ 8 * rateLength sbc rate) : bitpool < 256 := by
  have hlength := rateLength_spec sbc rate
  have hsub : sbc.subBands ≤ 8 := by
    have hcases := subBands_cases hvalid
    omega
  have hbits : sbc.blocks * (bitpool * 16000) ≤ sbc.blocks * (361500 * 8) :=
    calc sbc.blocks * (bitpool * 16000) ≤ sbc.blocks * (bitpool * sbc.frequency) :=
          Nat.mul_le_mul_left _ (Nat.mul_le_mul_left _ (frequency_le hvalid))
      _ = sbc.blocks * bitpool * sbc.frequency := by ring
      _ ≤ 8 * rateLength sbc rate * sbc.frequency := Nat.mul_le_mul_right _ hfits
      _ ≤ rate * sbc.subBands * sbc.blocks := hlength
      _ = sbc.blocks * (rate * sbc.subBands) := by ring
      _ ≤ sbc.blocks * (361500 * 8) := Nat.mul_le_mul_left _ (Nat.mul_le_mul (rate_le hrate).2 hsub)
  have hle := Nat.le_of_mul_le_mul_left hbits (blocks_pos hvalid)
  omega

end

/-! ### How many frames -/

variable {total length : ℕ}

/-- As many as `⌈total / length⌉` of the shares of a total are no longer than the length. -/
theorem div_ceil_le (hlength : 0 < length) : total / ((total + length - 1) / length) ≤ length := by
  have hceil : total ≤ length * ((total + length - 1) / length) := by
    have hmod := Nat.div_add_mod (total + length - 1) length
    have hlt := Nat.mod_lt (total + length - 1) hlength
    omega
  exact Nat.div_le_of_le_mul (by rwa [Nat.mul_comm] at hceil)

theorem ceil_pos (htotal : 0 < total) (hlength : 0 < length) :
    0 < (total + length - 1) / length :=
  Nat.div_pos (by omega) hlength

theorem ceil_le (hlength : 0 < length) : (total + length - 1) / length ≤ total := by
  rcases Nat.eq_zero_or_pos total with rfl | htotal
  · exact Nat.le_of_eq (Nat.div_eq_of_lt (by omega))
  · refine Nat.div_le_of_le_mul ?_
    have hmul : length + total ≤ length * total + 1 := by
      obtain ⟨l, rfl⟩ := Nat.exists_eq_succ_of_ne_zero hlength.ne'
      obtain ⟨t, rfl⟩ := Nat.exists_eq_succ_of_ne_zero htotal.ne'
      have hexpand : (l + 1) * (t + 1) = l * t + l + t + 1 := by ring
      simp only [Nat.succ_eq_add_one]
      omega
    omega

/-- `least` is the number of frames in the smallest total. From there each further frame brings a whole length. -/
theorem shares_fit {shortest length smallest total : ℕ} (hlength : 0 < length) (htotal : smallest ≤ total)
    (hshortest : shortest ≤ length)
    (hleast : shortest * ((smallest + length - 1) / length) ≤
      max smallest (((smallest + length - 1) / length - 1) * length + 1))
    (hnext : shortest * ((smallest + length - 1) / length + 1) ≤ (smallest + length - 1) / length * length + 1) :
    shortest * ((total + length - 1) / length) ≤ total := by
  have hmono : (smallest + length - 1) / length ≤ (total + length - 1) / length :=
    Nat.div_le_div_right (by omega)
  have hlast : ((total + length - 1) / length) * length ≤ total + length - 1 := Nat.div_mul_le_self _ _
  generalize (smallest + length - 1) / length = least at hleast hnext hmono
  generalize (total + length - 1) / length = count at hmono hlast ⊢
  obtain ⟨extra, rfl⟩ := Nat.exists_eq_add_of_le hmono
  rcases extra with _ | extra
  · rcases least with _ | least
    · omega
    · have hexpand : (least + 1) * length = least * length + length := by ring
      simp only [Nat.add_zero, Nat.add_sub_cancel] at hleast hlast ⊢
      omega
  · have hmore : shortest * extra ≤ length * extra := Nat.mul_le_mul_right _ hshortest
    have hcount : shortest * (least + (extra + 1)) = shortest * (least + 1) + shortest * extra := by ring
    have hexpand : (least + (extra + 1)) * length = least * length + length * extra + length := by ring
    omega

/-! ### The selection -/

section

variable {sbc : SbcParameters} {rate pdu : ℕ}

/-- The cuts to a `u16` cut nothing, and nothing is divided by zero. -/
theorem selection_eq (hvalid : sbc.Valid) (hrate : rate = sbcOneChannelRate ∨ rate = sbcTwoChannelRate)
    (hleast : 48 ≤ pdu) (hpdu : pdu < 65536) :
    selection sbc rate pdu = some ⟨framesOf sbc rate pdu, (pdu - 13) / framesOf sbc rate pdu,
      bitpoolFromFrameLength sbc ((pdu - 13) / framesOf sbc rate pdu)⟩ := by
  obtain ⟨hpos, -, -⟩ := rateLength_bounds hvalid hrate
  have hcut : (pdu + 65536 - 13) % 65536 = pdu - 13 := by omega
  have hframes : framesOf sbc rate pdu < 65536 := by
    have hle := @ceil_le (pdu - 13) _ hpos
    rw [framesOf]
    omega
  have hsome : 0 < framesOf sbc rate pdu := ceil_pos (by omega) hpos
  simp only [selection, frameLengthFromRate_eq hvalid hrate, hcut, if_neg hpos.ne']
  change (if framesOf sbc rate pdu % 65536 = 0 then none else _) = _
  rw [Nat.mod_eq_of_lt hframes, if_neg hsome.ne']
  simp only [Option.some.injEq, BitpoolSelection.mk.injEq]
  rw [show (pdu - 13 + rateLength sbc rate - 1) / rateLength sbc rate % 65536 = framesOf sbc rate pdu from
    Nat.mod_eq_of_lt hframes]
  exact ⟨rfl, rfl, rfl⟩

/-- What the division does in a frame that has room for a bitpool of `2`. -/
theorem bitpoolFromFrameLength_spec (hvalid : sbc.Valid)
    (hrate : rate = sbcOneChannelRate ∨ rate = sbcTwoChannelRate) {length : ℕ} (hlength : length ≤ rateLength sbc rate)
    (hshortest : sbcFrameLength sbc 2 ≤ length) :
    ((bitpoolFromFrameLength sbc length).toNat : ℤ) =
        (bitpoolFraction sbc length).1 / (bitpoolFraction sbc length).2 ∧
      0 ≤ (bitpoolFraction sbc length).1 ∧ 2 ≤ (bitpoolFromFrameLength sbc length).toNat ∧
      sbcFrameLength sbc (bitpoolFromFrameLength sbc length).toNat ≤ length := by
  have hbits := (sbcFrameLength_le_iff hvalid).mp hshortest
  have hblocks := blocks_le_bitsPerPool sbc
  have hpool : 0 < bitsPerPool sbc := Nat.lt_of_lt_of_le (blocks_pos hvalid) hblocks
  obtain ⟨room, hroom⟩ := Nat.exists_eq_add_of_le (Nat.le_trans (Nat.le_add_right _ _) hbits)
  have hdividend : 8 * (length : ℤ) - headerBits sbc = (room : ℤ) := by omega
  have hmul : bitsPerPool sbc * (room / bitsPerPool sbc) ≤ room := Nat.mul_div_le _ _
  have hless : room / bitsPerPool sbc < 256 := by
    refine bitpool_lt hvalid hrate (Nat.le_trans (Nat.mul_le_mul_right _ hblocks) ?_)
    omega
  have hvalue : (bitpoolFromFrameLength sbc length).toNat = room / bitsPerPool sbc := by
    rw [bitpoolFromFrameLength, bitpoolFraction_eq, hdividend, BitVec.toNat_ofInt]
    change ((room : ℤ).tdiv (bitsPerPool sbc : ℤ) % 256).toNat = _
    rw [Int.tdiv_eq_ediv_of_nonneg (Int.natCast_nonneg _), ← Int.natCast_ediv]
    generalize room / bitsPerPool sbc = bitpool at hless ⊢
    omega
  rw [hvalue, bitpoolFraction_eq, hdividend]
  refine ⟨Int.natCast_ediv _ _, Int.natCast_nonneg _, ?_, ?_⟩
  · rw [Nat.le_div_iff_mul_le hpool, Nat.mul_comm]
    omega
  · rw [sbcFrameLength_le_iff hvalid]
    omega

/-- The selection is good when so many of the shortest frames fit, and in no other case. -/
theorem good_iff (hvalid : sbc.Valid) (hrate : rate = sbcOneChannelRate ∨ rate = sbcTwoChannelRate)
    (hleast : 48 ≤ pdu) (hpdu : pdu < 65536) :
    (∃ s, selection sbc rate pdu = some s ∧ s.Good sbc rate pdu) ↔ ShortestFit sbc rate pdu := by
  obtain ⟨hpos, -, -⟩ := rateLength_bounds hvalid hrate
  have hsome : 0 < framesOf sbc rate pdu := ceil_pos (by omega) hpos
  rw [selection_eq hvalid hrate hleast hpdu]
  constructor
  · rintro ⟨s, heq, hgood⟩
    have hmono := sbcFrameLength_mono hvalid hgood.least
    calc sbcFrameLength sbc 2 * framesOf sbc rate pdu
        ≤ sbcFrameLength sbc s.bitpool.toNat * framesOf sbc rate pdu := Nat.mul_le_mul_right _ hmono
      _ = s.frames * sbcFrameLength sbc s.bitpool.toNat := by rw [hgood.frames, Nat.mul_comm]
      _ ≤ pdu - 13 := hgood.fills
  · intro hfit
    have hshortest : sbcFrameLength sbc 2 ≤ (pdu - 13) / framesOf sbc rate pdu :=
      (Nat.le_div_iff_mul_le hsome).mpr hfit
    have hlength : (pdu - 13) / framesOf sbc rate pdu ≤ rateLength sbc rate := div_ceil_le hpos
    obtain ⟨hvalue, hdividend, htwo, hfits⟩ := bitpoolFromFrameLength_spec hvalid hrate hlength hshortest
    refine ⟨_, rfl, rfl, ?_, hdividend, hvalue, htwo, ?_, ?_⟩
    · -- the header alone has 32 bits
      have hbits := (sbcFrameLength_le_iff hvalid).mp hshortest
      have hheader := four_le_headerBits sbc
      change 4 ≤ (pdu - 13) / framesOf sbc rate pdu
      omega
    · exact Nat.le_trans (Nat.mul_le_mul_left _ hfits) (Nat.mul_div_le _ _)
    · refine Nat.le_trans (Nat.mul_le_mul_right _ (Nat.mul_le_mul_left _ ?_)) (rateLength_spec sbc rate)
      exact Nat.le_trans hfits hlength

end

/-! ### Where the shortest frames fit -/

/-- `sbcFrameLength` of a bitpool of `2`, `rateLength` and the number of frames in 35 octets satisfy `shares_fit`. -/
def FitsFrom (shortest length : ℕ) : Prop :=
  shortest ≤ length ∧
    shortest * ((35 + length - 1) / length) ≤ max 35 (((35 + length - 1) / length - 1) * length + 1) ∧
    shortest * ((35 + length - 1) / length + 1) ≤ (35 + length - 1) / length * length + 1

instance (shortest length : ℕ) : Decidable (FitsFrom shortest length) := inferInstanceAs (Decidable (_ ∧ _))

theorem fitsFrom_of_roomy {sbc : SbcParameters} {rate : ℕ} (hvalid : sbc.Valid)
    (hrate : rate = sbcOneChannelRate ∨ rate = sbcTwoChannelRate) (hroomy : Roomy sbc rate) :
    FitsFrom (sbcFrameLength sbc 2) (rateLength sbc rate) := by
  have htable : ∀ mode ∈ ChannelMode.all, ∀ subBands ∈ [4, 8], ∀ blocks ∈ [4, 8, 12, 16],
      ∀ frequency ∈ freqLut, ∀ rate ∈ [sbcOneChannelRate, sbcTwoChannelRate],
        Roomy ⟨subBands, blocks, frequency, mode⟩ rate →
          FitsFrom (sbcFrameLength ⟨subBands, blocks, frequency, mode⟩ 2)
            (rateLength ⟨subBands, blocks, frequency, mode⟩ rate) := by
    decide
  have hmode : sbc.mode ∈ ChannelMode.all := by
    cases sbc.mode <;> decide
  exact htable _ hmode _ hvalid.subBands _ hvalid.blocks _ hvalid.frequency rate (by simpa using hrate) hroomy

theorem shortestFit_of_roomy {sbc : SbcParameters} {rate pdu : ℕ} (hvalid : sbc.Valid)
    (hrate : rate = sbcOneChannelRate ∨ rate = sbcTwoChannelRate) (hleast : 48 ≤ pdu) (hroomy : Roomy sbc rate) :
    ShortestFit sbc rate pdu := by
  obtain ⟨hshortest, hfirst, hnext⟩ := fitsFrom_of_roomy hvalid hrate hroomy
  exact shares_fit (rateLength_bounds hvalid hrate).1 (by omega) hshortest hfirst hnext

/-- `clampSbcBitpool` takes a rate that leaves the room. -/
theorem roomy_clamped (format : Octet) : Roomy (extractSbcParameters format) (clampedRate format) := by
  by_cases hmono : format &&& 0x0c = 0
  · refine .inl ?_
    rw [extractSbcParameters]
    dsimp only
    rw [hmono]
    rfl
  · exact .inr (.inl (if_neg hmono))

theorem clampedRate_cases (format : Octet) :
    clampedRate format = sbcOneChannelRate ∨ clampedRate format = sbcTwoChannelRate := by
  by_cases hmono : format &&& 0x0c = 0
  · exact .inl (if_pos hmono)
  · exact .inr (if_neg hmono)

/-! ### The results -/

/-- With either rate of the library the bitpool is right if and only if so many of the shortest frames fit in the PDU. They
do with the rate that `clampSbcBitpool` takes for the header. -/
theorem bitpool_selected {sbcHeader : Octet} {rate pdu : ℕ} (hrate : rate = sbcOneChannelRate ∨ rate = sbcTwoChannelRate)
    (hleast : 48 ≤ pdu) (hpdu : pdu < 65536) :
    (SelectsWell sbcHeader rate pdu ↔ ShortestFit (extractSbcParameters sbcHeader) rate pdu) ∧
      (Roomy (extractSbcParameters sbcHeader) rate → SelectsWell sbcHeader rate pdu) ∧
      SelectsWell sbcHeader (clampedRate sbcHeader) pdu := by
  have hvalid := valid_extract sbcHeader
  refine ⟨good_iff hvalid hrate hleast hpdu, fun hroomy => ?_, ?_⟩
  · exact (good_iff hvalid hrate hleast hpdu).mpr (shortestFit_of_roomy hvalid hrate hleast hroomy)
  · have hclamped := clampedRate_cases sbcHeader
    exact (good_iff hvalid hclamped hleast hpdu).mpr
      (shortestFit_of_roomy hvalid hclamped hleast (roomy_clamped sbcHeader))

/-- Joint stereo with 16 blocks of 8 sub-bands at 44.1 kHz, in a PDU of 672 octets. -/
theorem bitpool_selected_joint :
    (SelectsWell 0xbd sbcTwoChannelRate 672 ↔ ShortestFit (extractSbcParameters 0xbd) sbcTwoChannelRate 672) ∧
      (Roomy (extractSbcParameters 0xbd) sbcTwoChannelRate → SelectsWell 0xbd sbcTwoChannelRate 672) ∧
      SelectsWell 0xbd (clampedRate 0xbd) 672 :=
  bitpool_selected (.inr rfl) (by decide) (by decide)

example : a2dpSbcSelectBitpool 0xbd sbcTwoChannelRate 672 = some 48 := by decide

/-- A bitpool for each header, each rate and each PDU. -/
def AlwaysSelectsWell : Prop :=
  ∀ (sbcHeader : Octet) (rate pdu : ℕ), rate = sbcOneChannelRate ∨ rate = sbcTwoChannelRate → 48 ≤ pdu → pdu < 65536 →
    SelectsWell sbcHeader rate pdu

/-- Two channels of 4 sub-bands and 4 blocks at 48 kHz with the rate of one channel: a PDU of 50 octets has 5 frames of 7
octets, which is less than the shortest one. -/
theorem not_alwaysSelectsWell : ¬ AlwaysSelectsWell := by
  intro halways
  obtain ⟨s, heq, hgood⟩ := halways 0xcc sbcOneChannelRate 50 (.inl rfl) (by decide) (by decide)
  have hrun : selection (extractSbcParameters 0xcc) sbcOneChannelRate 50 = some ⟨5, 7, 253⟩ := by decide
  obtain rfl := Option.some.inj (hrun.symm.trans heq)
  have hdividend := hgood.dividend
  revert hdividend
  decide

end Cbps.A2dp
