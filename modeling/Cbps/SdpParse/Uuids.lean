import Cbps.Service.Records
import Mathlib.Data.List.Induction
import Mathlib.Tactic.Ring

/-!
# Numbers and UUIDs in a region

`RegionReadUnsigned` and `RegionWriteUnsigned` take a region for a number, its most significant octet first, and
`RegionMatchesUUID32` compares the UUID in a region with a short one. A UUID has 2, 4 or 16 octets, and a short one stands
for its expansion with the Bluetooth base UUID. Of 16 octets, the code compares the first twelve with the end of the base
UUID and reads the last four, so that it accepts the UUID with its parts the other way round: `matches_iff` says when the
comparison is right.
-/

namespace Cbps.SdpParse

open List

open Service

/-! ### Numbers -/

/-- The octets of a number, the most significant first. -/
def numberOctets : ℕ → ℕ → List UInt8
  | 0, _ => []
  | width + 1, n => numberOctets width (n / 256) ++ [UInt8.ofNat n]

theorem length_numberOctets (width n : ℕ) : (numberOctets width n).length = width := by
  induction width generalizing n with
  | zero => rfl
  | succ width ih => rw [numberOctets, length_append, ih, length_singleton]

theorem bigEndian_concat (l : List UInt8) (b : UInt8) : bigEndian (l ++ [b]) = bigEndian l * 256 + b.toNat :=
  foldl_concat _ _ _ _

theorem bigEndian_append (l l' : List UInt8) : bigEndian (l ++ l') = bigEndian l * 256 ^ l'.length + bigEndian l' := by
  induction l' using List.reverseRecOn with
  | nil => simp [bigEndian]
  | append_singleton l' b ih =>
    rw [← append_assoc, bigEndian_concat, bigEndian_concat, ih, length_append, length_singleton, pow_succ]
    ring

theorem bigEndian_lt (l : List UInt8) : bigEndian l < 256 ^ l.length := by
  induction l using List.reverseRecOn with
  | nil => exact Nat.one_pos
  | append_singleton l b ih =>
    have hb := b.toNat_lt
    rw [bigEndian_concat, length_append, length_singleton, pow_succ]
    omega

theorem bigEndian_numberOctets (width n : ℕ) : bigEndian (numberOctets width n) = n % 256 ^ width := by
  induction width generalizing n with
  | zero => exact (Nat.mod_one n).symm
  | succ width ih =>
    have hlast : (UInt8.ofNat n).toNat = n % 256 := rfl
    rw [numberOctets, bigEndian_concat, ih, hlast, pow_succ, Nat.mul_comm (256 ^ width), Nat.mod_mul]
    ring

theorem numberOctets_bigEndian (l : List UInt8) : numberOctets l.length (bigEndian l) = l := by
  induction l using List.reverseRecOn with
  | nil => rfl
  | append_singleton l b ih =>
    have hb := b.toNat_lt
    have hdiv : (bigEndian l * 256 + b.toNat) / 256 = bigEndian l := by omega
    have hlast : UInt8.ofNat (bigEndian l * 256 + b.toNat) = b := by
      refine UInt8.toNat_inj.mp ?_
      change (bigEndian l * 256 + b.toNat) % 256 = b.toNat
      omega
    rw [length_append, length_singleton, bigEndian_concat, numberOctets, hdiv, ih, hlast]

/-! ### The code -/

variable (mem : ℕ → UInt8)

/-- `RegionReadUnsigned`. -/
def regionReadUnsigned (r : Region) : ℕ := (r.octets mem).foldl (fun v b => (v * 256 + b.toNat) % 4294967296) 0

/-- `uuid_suffix`. -/
def uuidSuffix : List UInt8 := [0x00, 0x00, 0x10, 0x00, 0x80, 0x00, 0x00, 0x80, 0x5F, 0x9B, 0x34, 0xFB]

/-- `RegionMatchesUUID32`. -/
def regionMatchesUuid32 (r : Region) (uuid : ℕ) : Bool :=
  regionReadUnsigned mem r = uuid &&
    (regionSize r ≠ 16 || (⟨r.begin, r.begin + 12⟩ : Region).octets mem = uuidSuffix)

/-! ### UUIDs -/

/-- A short UUID with the base UUID. -/
def expansion (uuid : ℕ) : List UInt8 := numberOctets 4 uuid ++ uuidSuffix

/-- The UUID that is written in 2, 4 or 16 octets. -/
def fullUuid (l : List UInt8) : List UInt8 := if l.length = 16 then l else expansion (bigEndian l)

/-- One of the three forms of a UUID. -/
def IsForm (l : List UInt8) : Prop := l.length = 2 ∨ l.length = 4 ∨ l.length = 16

instance (l : List UInt8) : Decidable (IsForm l) := inferInstanceAs (Decidable (_ ∨ _))

/-- **The promise** of the comparison: a region with a UUID is accepted exactly if it holds the short one. -/
def MatchesExactly (r : Region) (uuid : ℕ) : Prop :=
  regionMatchesUuid32 mem r uuid = true ↔ fullUuid (r.octets mem) = expansion uuid

/-- The comparison, on the octets of a region. -/
def codeMatches (uuid : ℕ) (l : List UInt8) : Bool :=
  bigEndian l % 4294967296 = uuid && (l.length ≠ 16 || l.take 12 = uuidSuffix)

/-- Octets of which the code takes the wrong ones for the number: the short UUID and the end of the base UUID, one behind
the other. -/
def Misread (uuid : ℕ) (l : List UInt8) : Prop := l = numberOctets 4 uuid ++ uuidSuffix ∨ l = uuidSuffix ++ numberOctets 4 uuid

/-! ### What the comparison accepts -/

variable {mem} {r : Region} {uuid : ℕ}

theorem regionReadUnsigned_eq (mem : ℕ → UInt8) (r : Region) :
    regionReadUnsigned mem r = bigEndian (r.octets mem) % 4294967296 := by
  rw [regionReadUnsigned]
  induction r.octets mem using List.reverseRecOn with
  | nil => rfl
  | append_singleton l b ih =>
    rw [foldl_concat, bigEndian_concat, ih]
    omega

theorem regionMatchesUuid32_eq (h : r.Small) (uuid : ℕ) :
    regionMatchesUuid32 mem r uuid = codeMatches uuid (r.octets mem) := by
  rw [regionMatchesUuid32, codeMatches, regionReadUnsigned_eq, regionSize_eq mem h]
  by_cases hlen : (r.octets mem).length = 16
  · have hpart : (⟨r.begin, r.begin + 12⟩ : Region).octets mem = (r.octets mem).take 12 :=
      octets_part (r := r) (k := 0) (n := 12) (by omega)
    rw [hpart]
  · simp [hlen]

theorem expansion_inj {m n : ℕ} (hm : m < 4294967296) (hn : n < 4294967296) : expansion m = expansion n ↔ m = n := by
  refine ⟨fun h => ?_, congrArg expansion⟩
  have hfour : numberOctets 4 m = numberOctets 4 n := append_cancel_right h
  have hnumber := congrArg bigEndian hfour
  rw [bigEndian_numberOctets, bigEndian_numberOctets] at hnumber
  omega

variable {l : List UInt8}

/-- Of 16 octets, the code wants the end of the base UUID in front. -/
theorem codeMatches_long (hl : l.length = 16) (huuid : uuid < 4294967296) :
    codeMatches uuid l = true ↔ l = uuidSuffix ++ numberOctets 4 uuid := by
  have hnumber : bigEndian l % 4294967296 = bigEndian (l.drop 12) := by
    have hdrop : (l.drop 12).length = 4 := by rw [length_drop, hl]
    have hlt := bigEndian_lt (l.drop 12)
    have hsplit := bigEndian_append (l.take 12) (l.drop 12)
    rw [List.take_append_drop] at hsplit
    rw [hdrop] at hlt hsplit
    omega
  have hback : bigEndian (l.drop 12) = uuid ↔ l.drop 12 = numberOctets 4 uuid := by
    constructor
    · rintro rfl
      have hdrop : (l.drop 12).length = 4 := by rw [length_drop, hl]
      rw [← hdrop, numberOctets_bigEndian]
    · intro h
      rw [h, bigEndian_numberOctets]
      omega
  rw [codeMatches, hnumber, Bool.and_eq_true, decide_eq_true_iff, hback]
  constructor
  · rintro ⟨hdrop, hfront⟩
    have htake : l.take 12 = uuidSuffix := by simpa [hl] using hfront
    rw [← htake, ← hdrop, List.take_append_drop]
  · rintro rfl
    exact ⟨rfl, by simp [uuidSuffix]⟩

theorem codeMatches_short (hl : l.length = 2 ∨ l.length = 4) (huuid : uuid < 4294967296) :
    codeMatches uuid l = true ↔ fullUuid l = expansion uuid := by
  have hlong : l.length ≠ 16 := by omega
  have hlt : bigEndian l < 4294967296 := by
    have h := bigEndian_lt l
    obtain hl | hl := hl <;> rw [hl] at h <;> omega
  rw [fullUuid, if_neg hlong, expansion_inj hlt huuid, codeMatches, Nat.mod_eq_of_lt hlt]
  simp [hlong]

/-- The two parts of a UUID cannot be exchanged. -/
theorem expansion_ne (uuid : ℕ) : expansion uuid ≠ uuidSuffix ++ numberOctets 4 uuid := by
  intro h
  obtain ⟨hfirst, h⟩ := append_inj (h.trans (append_assoc (uuidSuffix.take 4) (uuidSuffix.drop 4) _))
    (length_numberOctets 4 uuid)
  rw [hfirst] at h
  exact absurd h (by decide)

/-- The comparison of octets in one of the three forms is right exactly if they are not misread. -/
theorem codeMatches_iff (hl : IsForm l) (huuid : uuid < 4294967296) :
    (codeMatches uuid l = true ↔ fullUuid l = expansion uuid) ↔ ¬ Misread uuid l := by
  have hmisread : Misread uuid l → l.length = 16 := by
    rintro (rfl | rfl) <;> simp [length_numberOctets, uuidSuffix]
  by_cases hlong : l.length = 16
  · rw [codeMatches_long hlong huuid, fullUuid, if_pos hlong]
    have hne := expansion_ne uuid
    constructor
    · rintro h (h' | h')
      · exact hne (h'.symm.trans (h.mpr h'))
      · exact hne ((h.mp h').symm.trans h')
    · exact fun h => ⟨fun h' => (h (.inr h')).elim, fun h' => (h (.inl h')).elim⟩
  · have hshort : l.length = 2 ∨ l.length = 4 := by
      obtain h | h | h := hl
      · exact .inl h
      · exact .inr h
      · exact absurd h hlong
    exact iff_of_true (codeMatches_short hshort huuid) fun h => hlong (hmisread h)

theorem matches_iff (h : r.Small) (hform : IsForm (r.octets mem)) (huuid : uuid < 4294967296) :
    MatchesExactly mem r uuid ↔ ¬ Misread uuid (r.octets mem) := by
  rw [MatchesExactly, regionMatchesUuid32_eq h]
  exact codeMatches_iff hform huuid

end Cbps.SdpParse
