import Cbps.Tdl.Steps
import Mathlib.Data.List.Sublists

/-!
# The record codec

`connectionAuthUpdateTdl` packs the keys it is given into the key area of a record, and
`dm_sm_add_device_req` unpacks them again. Sizes and offsets are counted in units and then used
as indices of an array of `u16`, so on an octet-addressed target every offset counts twice. The
codec works where this cannot be seen: on a word-addressed target, for a single key type, and
for the two short types if the record ends in two octets of padding.

Which keys a record holds is five flags, and everything about places is a fact about the flags
and the shape of the target; `Stored` adds the contents, and a turn of the packing keeps it.
-/

namespace Cbps.Tdl

open Lib List Function

/-! ### Sizes and offsets in words -/

theorem TdlDataType.toNat_injective : Function.Injective TdlDataType.toNat := by
  intro dt dt' h
  cases dt <;> cases dt' <;> first | rfl | cases h

/-- The key types that are stored. -/
def TdlDataType.kinds : List TdlDataType := [.encBredr, .encCentral, .div, .id]

/-- The words of the keys with these flags. -/
def sizeWords (flags : BitVec 5) : ℕ :=
  (TdlDataType.all.map fun dt => if flags.getLsbD dt.toNat then dt.words else 0).sum

/-- The words of the keys in front of one. -/
def offsetWords (flags : BitVec 5) (dataType : TdlDataType) : ℕ :=
  ((TdlDataType.kinds.filter fun dt => dt.toNat < dataType.toNat).map fun dt =>
    if flags.getLsbD dt.toNat then dt.words else 0).sum

theorem calcTdDataSize_eq (t : Target) (content : Content) :
    calcTdDataSize t content = t.wordSize * sizeWords content.dataFlags := by
  have hsum : ∀ (dts : List TdlDataType) (size : ℕ),
      dts.foldl (fun size dt => if content.has dt then size + getDataTypeSize t dt else size) size =
        size + t.wordSize *
          (dts.map fun dt => if content.dataFlags.getLsbD dt.toNat then dt.words else 0).sum := by
    intro dts
    induction dts with
    | nil => simp
    | cons dt dts ih =>
      intro size
      rw [foldl_cons, ih, map_cons, sum_cons, Nat.mul_add, ← Nat.add_assoc]
      congr 1
      by_cases hdt : content.dataFlags.getLsbD dt.toNat <;> simp [Content.has, hdt, getDataTypeSize]
  rw [calcTdDataSize, hsum, Nat.zero_add, sizeWords]

theorem calcTdDataOffset_eq (t : Target) (content : Content) {dataType : TdlDataType}
    (hkind : dataType ∈ TdlDataType.kinds) :
    calcTdDataOffset t content dataType = t.wordSize * offsetWords content.dataFlags dataType := by
  simp only [TdlDataType.kinds, mem_cons, not_mem_nil, or_false] at hkind
  rcases hkind with rfl | rfl | rfl | rfl <;>
    simp only [calcTdDataOffset, offsetWords, TdlDataType.kinds, TdlDataType.toNat, Content.has,
      getDataTypeSize, reduceCtorEq, if_true, if_false] <;>
    simp <;> split_ifs <;> ring

/-! ### Places -/

/-- The size of a `u16` and the padding behind a record. -/
structure Shape where
  wordSize : ℕ
  tail : ℕ

/-- The three kinds of targets. -/
def Shape.all : List Shape := [⟨1, 0⟩, ⟨2, 0⟩, ⟨2, 2⟩]

def Target.shape (t : Target) : Shape := ⟨t.wordSize, t.tail⟩

theorem Target.shape_mem (t : Target) : t.shape ∈ Shape.all := by
  cases t with
  | wordAddressed => exact .head _
  | octetAddressed wideInt stack =>
    cases wideInt with
    | false => exact .tail _ (.head _)
    | true => exact .tail _ (.tail _ (.head _))

namespace Shape

/-- The units of a key. -/
def length (sh : Shape) (dt : TdlDataType) : ℕ := sh.wordSize * dt.words

/-- Where the source puts a key, in units. -/
def start (sh : Shape) (flags : BitVec 5) (dt : TdlDataType) : ℕ :=
  sh.wordSize * (sh.wordSize * offsetWords flags dt)

/-- The units of the key area. -/
def size (sh : Shape) (flags : BitVec 5) : ℕ := sh.tail + sh.wordSize * sizeWords flags

/-- The units that make room for a new key. -/
def moved (sh : Shape) (flags : BitVec 5) (dt : TdlDataType) : ℕ :=
  sh.wordSize * sizeWords flags - sh.wordSize * offsetWords flags dt

/-- Where the keys behind a new key go. -/
def gap (sh : Shape) (flags : BitVec 5) (dt : TdlDataType) : ℕ :=
  sh.wordSize * (sh.wordSize * offsetWords flags dt + sh.length dt)

theorem length_pos (t : Target) {dt : TdlDataType} (hdt : dt ∈ TdlDataType.kinds) :
    0 < t.shape.length dt := by
  have hword : 0 < t.wordSize := by cases t <;> simp [Target.wordSize]
  have hwords : 0 < dt.words := by
    revert dt
    decide
  exact Nat.mul_pos hword hwords

/-- The keys with these flags fit where the source puts them: offsets are right on a
word-addressed target, they do not matter for a single key, and with two octets of padding the
two octets of DIV may be counted twice. -/
def Fits (sh : Shape) (flags : BitVec 5) : Prop :=
  sh.wordSize = 1 ∨
    (∀ dt ∈ TdlDataType.kinds, ∀ dt' ∈ TdlDataType.kinds, flags.getLsbD dt.toNat →
      flags.getLsbD dt'.toNat → dt = dt') ∨
    (sh.tail = 2 ∧ ∀ dt ∈ TdlDataType.kinds, flags.getLsbD dt.toNat → dt = .div ∨ dt = .id)

instance (sh : Shape) (flags : BitVec 5) : Decidable (sh.Fits flags) :=
  inferInstanceAs (Decidable (_ ∨ _))

end Shape

/-- The flags with one more key type. -/
def addFlag (flags : BitVec 5) (dt : TdlDataType) : BitVec 5 := flags ||| 1 <<< dt.toNat

theorem getLsbD_addFlag : ∀ flags : BitVec 5, ∀ dt ∈ TdlDataType.kinds, ∀ dt' ∈ TdlDataType.all,
    (addFlag flags dt).getLsbD dt'.toNat = (dt' = dt || flags.getLsbD dt'.toNat) := by
  decide

theorem getLsbD_sign_addFlag {flags : BitVec 5} {dt : TdlDataType}
    (hsign : flags.getLsbD 3 = false) (hdt : dt ∈ TdlDataType.kinds) :
    (addFlag flags dt).getLsbD 3 = false := by
  have hne : TdlDataType.sign ≠ dt := by
    rintro rfl
    simp [TdlDataType.kinds] at hdt
  have hflag := getLsbD_addFlag flags dt hdt .sign (by decide)
  rwa [decide_eq_false hne, Bool.false_or, TdlDataType.toNat, hsign] at hflag

theorem addFlag_of_has : ∀ flags : BitVec 5, ∀ dt ∈ TdlDataType.kinds,
    flags.getLsbD dt.toNat → addFlag flags dt = flags := by
  decide

/-- Where the source puts the keys, looked at for every kind of target and all flags. -/
theorem Shape.layout : ∀ sh ∈ Shape.all, ∀ flags : BitVec 5,
    (∀ dt ∈ TdlDataType.kinds, (sh.Fits (addFlag flags dt) → sh.Fits flags) ∧
      ∀ dt' ∈ TdlDataType.kinds, dt'.toNat ≤ dt.toNat →
        sh.start (addFlag flags dt) dt' = sh.start flags dt') ∧
    (flags.getLsbD 3 = false →
      (sh.Fits flags ↔ ∀ dt ∈ TdlDataType.kinds, flags.getLsbD dt.toNat →
        sh.start flags dt + sh.length dt ≤ sh.size flags) ∧
      ∀ dt ∈ TdlDataType.kinds, ∀ dt' ∈ TdlDataType.kinds, flags.getLsbD dt.toNat →
        flags.getLsbD dt'.toNat → dt.toNat < dt'.toNat → sh.Fits flags →
          sh.start flags dt + sh.length dt ≤ sh.start flags dt') := by
  decide

/-- What is moved for a new key, looked at likewise. -/
theorem Shape.movement : ∀ sh ∈ Shape.all, ∀ flags : BitVec 5, flags.getLsbD 3 = false →
    ∀ dt ∈ TdlDataType.kinds, flags.getLsbD dt.toNat = false → sh.Fits (addFlag flags dt) →
      (sh.size flags ≤ sh.size (addFlag flags dt) ∧
        (sh.moved flags dt = 0 ∨ sh.start flags dt + sh.moved flags dt ≤ sh.size flags ∧
          sh.gap flags dt + sh.moved flags dt ≤ sh.size (addFlag flags dt))) ∧
      ∀ dt' ∈ TdlDataType.kinds, flags.getLsbD dt'.toNat → dt.toNat < dt'.toNat →
        sh.start flags dt ≤ sh.start flags dt' ∧
          sh.start flags dt' + sh.length dt' ≤ sh.start flags dt + sh.moved flags dt ∧
          sh.start (addFlag flags dt) dt' + sh.start flags dt =
            sh.gap flags dt + sh.start flags dt' := by
  decide

section Layout

variable {sh : Shape} {flags : BitVec 5} {dt dt' : TdlDataType}

theorem Shape.fits_of_addFlag (hsh : sh ∈ Shape.all) (hdt : dt ∈ TdlDataType.kinds)
    (hfits : sh.Fits (addFlag flags dt)) : sh.Fits flags :=
  ((Shape.layout sh hsh flags).1 dt hdt).1 hfits

/-- A new key leaves the place of the keys in front of it. -/
theorem Shape.start_addFlag (hsh : sh ∈ Shape.all) (hdt : dt ∈ TdlDataType.kinds)
    (hdt' : dt' ∈ TdlDataType.kinds) (hle : dt'.toNat ≤ dt.toNat) :
    sh.start (addFlag flags dt) dt' = sh.start flags dt' :=
  ((Shape.layout sh hsh flags).1 dt hdt).2 dt' hdt' hle

/-- Keys fit where they are put exactly if all of them lie in the area. -/
theorem Shape.fits_iff (hsh : sh ∈ Shape.all) (hsign : flags.getLsbD 3 = false) :
    sh.Fits flags ↔ ∀ dt ∈ TdlDataType.kinds, flags.getLsbD dt.toNat →
      sh.start flags dt + sh.length dt ≤ sh.size flags :=
  ((Shape.layout sh hsh flags).2 hsign).1

/-- Keys that fit lie one behind the other. -/
theorem Shape.disjoint_of_fits (hsh : sh ∈ Shape.all) (hsign : flags.getLsbD 3 = false)
    (hdt : dt ∈ TdlDataType.kinds) (hdt' : dt' ∈ TdlDataType.kinds) (hflag : flags.getLsbD dt.toNat)
    (hflag' : flags.getLsbD dt'.toNat) (hlt : dt.toNat < dt'.toNat) (hfits : sh.Fits flags) :
    sh.start flags dt + sh.length dt ≤ sh.start flags dt' :=
  ((Shape.layout sh hsh flags).2 hsign).2 dt hdt dt' hdt' hflag hflag' hlt hfits

/-- What is moved lies in the old area and stays in the new one. -/
theorem Shape.room_of_fits (hsh : sh ∈ Shape.all) (hsign : flags.getLsbD 3 = false)
    (hdt : dt ∈ TdlDataType.kinds) (hflag : flags.getLsbD dt.toNat = false)
    (hfits : sh.Fits (addFlag flags dt)) :
    sh.size flags ≤ sh.size (addFlag flags dt) ∧
      (sh.moved flags dt = 0 ∨ sh.start flags dt + sh.moved flags dt ≤ sh.size flags ∧
        sh.gap flags dt + sh.moved flags dt ≤ sh.size (addFlag flags dt)) :=
  (Shape.movement sh hsh flags hsign dt hdt hflag hfits).1

/-- The keys behind a new key are among the units that are moved, and go where they are looked
for afterwards. -/
theorem Shape.moved_of_fits (hsh : sh ∈ Shape.all) (hsign : flags.getLsbD 3 = false)
    (hdt : dt ∈ TdlDataType.kinds) (hdt' : dt' ∈ TdlDataType.kinds)
    (hflag : flags.getLsbD dt.toNat = false) (hflag' : flags.getLsbD dt'.toNat)
    (hlt : dt.toNat < dt'.toNat) (hfits : sh.Fits (addFlag flags dt)) :
    sh.start flags dt ≤ sh.start flags dt' ∧
      sh.start flags dt' + sh.length dt' ≤ sh.start flags dt + sh.moved flags dt ∧
      sh.start (addFlag flags dt) dt' + sh.start flags dt = sh.gap flags dt + sh.start flags dt' :=
  (Shape.movement sh hsh flags hsign dt hdt hflag hfits).2 dt' hdt' hflag' hlt

end Layout

/-! ### Keys in their places -/

variable {t : Target} {td : TdData} {given : TdlDataType → Option (List ℕ)}

/-- The flags of a record tell which key types it was given. -/
structure Flagged (td : TdData) (given : TdlDataType → Option (List ℕ)) : Prop where
  has : ∀ dt ∈ TdlDataType.kinds, td.content.has dt = (given dt).isSome
  sign : td.content.has .sign = false

/-- The record holds the words that were given last for each key type. -/
structure Stored (t : Target) (td : TdData) (given : TdlDataType → Option (List ℕ)) : Prop
    extends Flagged td given where
  length : td.data.length = t.shape.size td.content.dataFlags
  cells : ∀ dt ∈ TdlDataType.kinds, ∀ words, given dt = some words →
    readAt td.data (t.shape.start td.content.dataFlags dt) (t.shape.length dt) =
      (t.units words).map some

theorem areaSize_eq (t : Target) (content : Content) :
    areaSize t content = t.shape.size content.dataFlags := by
  rw [areaSize, calcTdDataSize_eq, Target.shape, Shape.size]

theorem mem_all_of_mem_kinds {dt : TdlDataType} (h : dt ∈ TdlDataType.kinds) :
    dt ∈ TdlDataType.all := by
  cases dt <;> first | decide | simp [TdlDataType.kinds] at h

/-- The units of a key of the right size are copied as they are. -/
theorem readAt_units (t : Target) {words : List ℕ} {dt : TdlDataType}
    (hlen : words.length = dt.words) :
    readAt (t.units words) 0 (getDataTypeSize t dt) = t.units words := by
  rw [readAt, drop_zero, take_of_length_le]
  rw [t.length_units, hlen, getDataTypeSize]

/-! ### Contents of the area -/

section Area

variable {flags : BitVec 5} {dt dt' : TdlDataType} {data : List (Option ℕ)}
  (hsign : flags.getLsbD 3 = false) (hdt : dt ∈ TdlDataType.kinds) (hdt' : dt' ∈ TdlDataType.kinds)

include hsign hdt hdt'

/-- Writing a key leaves the other keys. -/
theorem readAt_writeAt_key (hflag : flags.getLsbD dt.toNat) (hflag' : flags.getLsbD dt'.toNat)
    (hne : dt' ≠ dt) (hfits : t.shape.Fits flags) {new : List (Option ℕ)}
    (hnew : new.length = t.shape.length dt) :
    readAt (writeAt data (t.shape.start flags dt) new) (t.shape.start flags dt')
        (t.shape.length dt') =
      readAt data (t.shape.start flags dt') (t.shape.length dt') := by
  rcases Nat.lt_trichotomy dt'.toNat dt.toNat with hlt | heq | hlt
  · exact readAt_writeAt_of_le (Shape.disjoint_of_fits t.shape_mem hsign hdt' hdt hflag' hflag hlt hfits) _
  · exact absurd (TdlDataType.toNat_injective heq) hne
  · refine readAt_writeAt_of_ge ?_
    rw [hnew]
    exact Shape.disjoint_of_fits t.shape_mem hsign hdt hdt' hflag hflag' hlt hfits

/-- Making room for a key takes the other keys to their new places. -/
theorem readAt_moveWithin_key (hflag : flags.getLsbD dt.toNat = false)
    (hflag' : flags.getLsbD dt'.toNat) (hfits : t.shape.Fits (addFlag flags dt))
    (hlen : data.length = t.shape.size flags) {pad : List (Option ℕ)}
    (hpad : pad.length = t.shape.size (addFlag flags dt) - t.shape.size flags)
    (hin : t.shape.start flags dt' + t.shape.length dt' ≤ t.shape.size flags) :
    readAt
        (moveWithin (data ++ pad) (t.shape.gap flags dt) (t.shape.start flags dt)
          (t.shape.moved flags dt))
        (t.shape.start (addFlag flags dt) dt') (t.shape.length dt') =
      readAt data (t.shape.start flags dt') (t.shape.length dt') := by
  obtain ⟨hgrow, hroom⟩ := Shape.room_of_fits t.shape_mem hsign hdt hflag hfits
  have hsize : (data ++ pad).length = t.shape.size (addFlag flags dt) := by
    rw [length_append]
    omega
  have hextend : readAt (data ++ pad) (t.shape.start flags dt') (t.shape.length dt') =
      readAt data (t.shape.start flags dt') (t.shape.length dt') :=
    readAt_append_left (by omega)
  rw [← hextend]
  rcases Nat.lt_trichotomy dt'.toNat dt.toNat with hlt | heq | hlt
  · -- a key in front of the new one stays where it is, below everything that is written
    have hflags : (addFlag flags dt).getLsbD dt'.toNat ∧ (addFlag flags dt).getLsbD dt.toNat := by
      constructor <;> rw [getLsbD_addFlag flags dt hdt _ (mem_all_of_mem_kinds ‹_›)] <;> simp [hflag']
    have hsign' : (addFlag flags dt).getLsbD 3 = false := getLsbD_sign_addFlag hsign hdt
    have hbelow := Shape.disjoint_of_fits t.shape_mem hsign' hdt' hdt hflags.1 hflags.2 hlt hfits
    rw [Shape.start_addFlag t.shape_mem hdt hdt' hlt.le, Shape.start_addFlag t.shape_mem hdt hdt le_rfl] at *
    refine readAt_writeAt_of_le (hbelow.trans ?_) _
    exact Nat.mul_le_mul_left _ (Nat.le_add_right _ _)
  · rw [TdlDataType.toNat_injective heq, hflag] at hflag'
    cases hflag'
  · -- a key behind the new one is moved
    obtain ⟨hfrom, hto, hstart⟩ :=
      Shape.moved_of_fits t.shape_mem hsign hdt hdt' hflag hflag' hlt hfits
    obtain ⟨off, hoff⟩ := Nat.exists_eq_add_of_le hfrom
    have hnew : t.shape.start (addFlag flags dt) dt' = t.shape.gap flags dt + off := by omega
    rcases hroom with hzero | ⟨hold, hnewroom⟩
    · have hpos : 0 < t.shape.length dt' := Shape.length_pos t hdt'
      omega
    · rw [hnew, hoff]
      exact readAt_moveWithin (by omega) (by omega) (by omega)

end Area

section Pack

variable {type : DmSmKeyType} {words : List ℕ} {dt : TdlDataType}
  (hdt : convertDmSmToTdlKeyType type = dt) (hkind : dt ∈ TdlDataType.kinds)

include hdt hkind

/-- A key type that is there already is overwritten. -/
theorem packTdKey_of_has (hlen : words.length = dt.words) (hhas : td.content.has dt) :
    packTdKey t td words type =
      ({ td with
          data := writeAt td.data (t.shape.start td.content.dataFlags dt)
            ((t.units words).map some) },
        [⟨t.shape.start td.content.dataFlags dt, t.shape.length dt,
          t.shape.size td.content.dataFlags⟩]) := by
  simp only [packTdKey, hdt, hhas, if_true, calcTdDataOffset_eq t _ hkind, readAt_units t hlen,
    areaSize_eq, nil_append]
  rfl

/-- A new key type is written behind the keys in front of it, after the others were moved. -/
theorem packTdKey_of_not_has (hlen : words.length = dt.words) (hhas : td.content.has dt = false) :
    packTdKey t td words type =
      ({ td with
          content := { td.content with dataFlags := addFlag td.content.dataFlags dt }
          data := writeAt
            (moveWithin
              (td.data.take (t.shape.size (addFlag td.content.dataFlags dt)) ++
                List.replicate (t.shape.size (addFlag td.content.dataFlags dt) - td.data.length)
                  none)
              (t.shape.gap td.content.dataFlags dt) (t.shape.start td.content.dataFlags dt)
              (t.shape.moved td.content.dataFlags dt))
            (t.shape.start td.content.dataFlags dt) ((t.units words).map some) },
        [⟨t.shape.gap td.content.dataFlags dt, t.shape.moved td.content.dataFlags dt,
            t.shape.size (addFlag td.content.dataFlags dt)⟩,
          ⟨t.shape.start td.content.dataFlags dt, t.shape.moved td.content.dataFlags dt,
            t.shape.size (addFlag td.content.dataFlags dt)⟩,
          ⟨t.shape.start td.content.dataFlags dt, t.shape.length dt,
            t.shape.size (addFlag td.content.dataFlags dt)⟩]) := by
  simp only [packTdKey, hdt, hhas, Bool.false_eq_true, if_false, calcTdDataOffset_eq t _ hkind,
    readAt_units t hlen, reallocData, areaSize_eq, calcTdDataSize_eq, cons_append,
    nil_append]
  rfl

/-- Packing a key sets its flag, whether or not there was room for it. -/
theorem dataFlags_packTdKey :
    (packTdKey t td words type).1.content.dataFlags = addFlag td.content.dataFlags dt := by
  simp only [packTdKey, hdt]
  by_cases hhas : td.content.has dt
  · rw [if_pos hhas, addFlag_of_has _ dt hkind hhas]
  · rw [if_neg hhas]
    rfl

theorem has_packTdKey {dt' : TdlDataType} (hdt' : dt' ∈ TdlDataType.all) :
    (packTdKey t td words type).1.content.has dt' = (dt' = dt || td.content.has dt') := by
  rw [Content.has, dataFlags_packTdKey hdt hkind, getLsbD_addFlag _ dt hkind dt' hdt', Content.has]

theorem Flagged.packTdKey (h : Flagged td given) :
    Flagged (packTdKey t td words type).1 (Function.update given dt (some words)) := by
  refine ⟨fun dt' hdt' => ?_, ?_⟩
  · rw [has_packTdKey hdt hkind (mem_all_of_mem_kinds hdt'), h.has dt' hdt']
    by_cases heq : dt' = dt
    · simp [heq]
    · simp [heq]
  · have hne : TdlDataType.sign ≠ dt := by
      rintro rfl
      simp [TdlDataType.kinds] at hkind
    rw [has_packTdKey hdt hkind (by decide), h.sign]
    simp [hne]

/-- Packing a key that fits keeps the keys that are stored. -/
theorem Stored.packTdKey (h : Stored t td given) (hlen : words.length = dt.words)
    (hfits : t.shape.Fits (addFlag td.content.dataFlags dt)) :
    Stored t (packTdKey t td words type).1 (Function.update given dt (some words)) := by
  have hflagged : Flagged (Tdl.packTdKey t td words type).1
      (Function.update given dt (some words)) := h.toFlagged.packTdKey hdt hkind
  have hnew : ((t.units words).map some).length = t.shape.length dt := by
    rw [length_map, t.length_units, hlen]
    rfl
  have hsign : td.content.dataFlags.getLsbD 3 = false := h.sign
  cases hhas : td.content.has dt with
  | true =>
    rw [packTdKey_of_has hdt hkind hlen hhas] at hflagged ⊢
    rw [addFlag_of_has _ dt hkind hhas] at hfits
    have hroom := (Shape.fits_iff t.shape_mem hsign).mp hfits dt hkind hhas
    refine ⟨hflagged, by simpa using h.length, fun dt' hdt' words' hwords' => ?_⟩
    by_cases heq : dt' = dt
    · subst heq
      obtain rfl : words = words' := by simpa using hwords'
      rw [← hnew]
      exact readAt_writeAt (by rw [hnew, h.length]; exact hroom)
    · rw [update_of_ne heq] at hwords'
      have hhas' : td.content.has dt' := by rw [h.has dt' hdt', hwords']; rfl
      rw [readAt_writeAt_key hsign hkind hdt' hhas hhas' heq hfits hnew]
      exact h.cells dt' hdt' words' hwords'
  | false =>
    rw [packTdKey_of_not_has hdt hkind hlen hhas] at hflagged ⊢
    have hsign' := getLsbD_sign_addFlag hsign hkind
    have hfits' := (Shape.fits_iff t.shape_mem hsign').mp hfits
    have hhere : (addFlag td.content.dataFlags dt).getLsbD dt.toNat := by
      simp [getLsbD_addFlag _ dt hkind dt (mem_all_of_mem_kinds hkind)]
    obtain ⟨hgrow, -⟩ := Shape.room_of_fits t.shape_mem hsign hkind hhas hfits
    have hstart := @Shape.start_addFlag _ td.content.dataFlags _ _ t.shape_mem hkind hkind le_rfl
    rw [take_of_length_le (by rw [h.length]; exact hgrow)] at hflagged ⊢
    have hsize : (td.data ++ List.replicate (t.shape.size (addFlag td.content.dataFlags dt) -
        td.data.length) none).length = t.shape.size (addFlag td.content.dataFlags dt) := by
      rw [length_append, length_replicate, h.length]
      omega
    refine ⟨hflagged, ?_, fun dt' hdt' words' hwords' => ?_⟩
    · rw [length_writeAt, moveWithin, length_writeAt]
      exact hsize
    by_cases heq : dt' = dt
    · subst heq
      obtain rfl : words = words' := by simpa using hwords'
      rw [← hnew, hstart]
      refine readAt_writeAt ?_
      rw [moveWithin, length_writeAt, hsize, hnew, ← hstart]
      exact hfits' dt' hkind hhere
    · -- the other keys are moved to their new places before the key is written
      rw [update_of_ne heq] at hwords'
      have hhas' : td.content.has dt' := by rw [h.has dt' hdt', hwords']; rfl
      have hflag' : (addFlag td.content.dataFlags dt).getLsbD dt'.toNat := by
        rw [getLsbD_addFlag _ dt hkind dt' (mem_all_of_mem_kinds hdt')]
        simpa using .inr hhas'
      have hin := (Shape.fits_iff t.shape_mem hsign).mp
        (Shape.fits_of_addFlag t.shape_mem hkind hfits) dt' hdt' hhas'
      rw [← hstart, readAt_writeAt_key hsign' hkind hdt' hhere hflag' heq hfits hnew, hstart,
        readAt_moveWithin_key hsign hkind hdt' hhas hhas' hfits h.length (by simp [h.length]) hin]
      exact h.cells dt' hdt' words' hwords'

/-- Packing a key that fits stays in the area. -/
theorem inBounds_packTdKey (hsign : td.content.dataFlags.getLsbD 3 = false)
    (hlen : words.length = dt.words) (hfits : t.shape.Fits (addFlag td.content.dataFlags dt)) :
    ∀ a ∈ (packTdKey t td words type).2, a.InBounds := by
  have hsign' := getLsbD_sign_addFlag hsign hkind
  have hfits' := (Shape.fits_iff t.shape_mem hsign').mp hfits dt hkind
  cases hhas : td.content.has dt with
  | true =>
    rw [addFlag_of_has _ dt hkind hhas] at hfits'
    simp only [packTdKey_of_has hdt hkind hlen hhas, mem_singleton, forall_eq]
    exact .inr (hfits' hhas)
  | false =>
    have hhere : (addFlag td.content.dataFlags dt).getLsbD dt.toNat := by
      simp [getLsbD_addFlag _ dt hkind dt (mem_all_of_mem_kinds hkind)]
    obtain ⟨hgrow, hroom⟩ := Shape.room_of_fits t.shape_mem hsign hkind hhas hfits
    have hstart := @Shape.start_addFlag _ td.content.dataFlags _ _ t.shape_mem hkind hkind le_rfl
    simp only [packTdKey_of_not_has hdt hkind hlen hhas, mem_cons, not_mem_nil, or_false,
      forall_eq_or_imp, forall_eq]
    refine ⟨hroom.imp_right And.right, hroom.imp_right fun h => h.1.trans hgrow, .inr ?_⟩
    rw [← hstart]
    exact hfits' hhere

end Pack

/-! ### Calls -/

/-- The keys of one `connectionAuthUpdateTdl` call: each slot is empty or holds a key of a stored
type in its full length, and the key size is in range. -/
structure DmSmKeys.WellFormed (keys : DmSmKeys) : Prop where
  slots : ∀ keyIdx ∈ List.range dmSmMaxNumKeys, keys.typeAt keyIdx ≠ .none →
    convertDmSmToTdlKeyType (keys.typeAt keyIdx) ∈ TdlDataType.kinds ∧
      (keys.u.getD keyIdx []).length = (convertDmSmToTdlKeyType (keys.typeAt keyIdx)).words
  encryptionKeySize : 7 ≤ keys.encryptionKeySize ∧ keys.encryptionKeySize ≤ 16

instance (keys : DmSmKeys) : Decidable keys.WellFormed :=
  decidable_of_iff
    ((∀ keyIdx ∈ List.range dmSmMaxNumKeys, keys.typeAt keyIdx ≠ .none →
        convertDmSmToTdlKeyType (keys.typeAt keyIdx) ∈ TdlDataType.kinds ∧
          (keys.u.getD keyIdx []).length = (convertDmSmToTdlKeyType (keys.typeAt keyIdx)).words) ∧
      7 ≤ keys.encryptionKeySize ∧ keys.encryptionKeySize ≤ 16)
    ⟨fun h => ⟨h.1, h.2⟩, fun h => ⟨h.1, h.2⟩⟩

/-- The keys given so far, after one more slot. -/
def giveSlot (keys : DmSmKeys) (given : TdlDataType → Option (List ℕ)) (keyIdx : ℕ) :
    TdlDataType → Option (List ℕ) :=
  if keys.typeAt keyIdx = .none then given else
    Function.update given (convertDmSmToTdlKeyType (keys.typeAt keyIdx))
      (some (keys.u.getD keyIdx []))

/-- The keys given so far, after one more call. -/
def giveKeys (given : TdlDataType → Option (List ℕ)) (keys : DmSmKeys) :
    TdlDataType → Option (List ℕ) :=
  (List.range dmSmMaxNumKeys).foldl (giveSlot keys) given

/-- For each key type, the words that the calls gave last. -/
def lastGiven (calls : List DmSmKeys) : TdlDataType → Option (List ℕ) :=
  calls.foldl giveKeys fun _ => none

/-- One call for the device: its record, and the ranges of the key area touched so far. -/
def packCall (t : Target) (packed : TdData × List Access) (keys : DmSmKeys) :
    TdData × List Access :=
  let packed' := packKeys t packed.1 keys
  (packed'.1, packed.2 ++ packed'.2)

/-- The record of a device that is not listed, after these calls for it. -/
def packCalls (t : Target) (device : TypedBdaddr) (calls : List DmSmKeys) : TdData × List Access :=
  calls.foldl (packCall t) (newRecord t device, [])

/-- Keys of these types fit: the target is word-addressed, or there is only one type, or the
record ends in two octets of padding and there are only DIV and ID. -/
def Target.Fits (t : Target) (given : TdlDataType → Option (List ℕ)) : Prop :=
  t.wordSize = 1 ∨
    (∀ dt ∈ TdlDataType.kinds, ∀ dt' ∈ TdlDataType.kinds, (given dt).isSome →
      (given dt').isSome → dt = dt') ∨
    (t.tail = 2 ∧ ∀ dt ∈ TdlDataType.kinds, (given dt).isSome → dt = .div ∨ dt = .id)

instance (t : Target) (given : TdlDataType → Option (List ℕ)) : Decidable (t.Fits given) :=
  inferInstanceAs (Decidable (_ ∨ _))

theorem Target.Fits.mono {given given' : TdlDataType → Option (List ℕ)} (h : t.Fits given')
    (hle : ∀ dt, (given dt).isSome → (given' dt).isSome) : t.Fits given := by
  rcases h with hword | hone | ⟨htail, hshort⟩
  · exact .inl hword
  · exact .inr (.inl fun dt hdt dt' hdt' h h' => hone dt hdt dt' hdt' (hle dt h) (hle dt' h'))
  · exact .inr (.inr ⟨htail, fun dt hdt h => hshort dt hdt (hle dt h)⟩)

theorem Flagged.fits_iff (h : Flagged td given) :
    t.shape.Fits td.content.dataFlags ↔ t.Fits given := by
  have hhas : ∀ dt ∈ TdlDataType.kinds, (given dt).isSome = td.content.dataFlags.getLsbD dt.toNat :=
    fun dt hdt => (h.has dt hdt).symm
  constructor
  · rintro (hword | hone | ⟨htail, hshort⟩)
    · exact .inl hword
    · refine .inr (.inl fun dt hdt dt' hdt' h h' => ?_)
      exact hone dt hdt dt' hdt' (hhas dt hdt ▸ h) (hhas dt' hdt' ▸ h')
    · exact .inr (.inr ⟨htail, fun dt hdt h => hshort dt hdt (hhas dt hdt ▸ h)⟩)
  · rintro (hword | hone | ⟨htail, hshort⟩)
    · exact .inl hword
    · refine .inr (.inl fun dt hdt dt' hdt' h h' => ?_)
      exact hone dt hdt dt' hdt' ((hhas dt hdt).symm ▸ h) ((hhas dt' hdt').symm ▸ h')
    · exact .inr (.inr ⟨htail, fun dt hdt h => hshort dt hdt ((hhas dt hdt).symm ▸ h)⟩)

/-- What the packing keeps: the flags always, the contents and the bounds if the keys fit. -/
structure Packed (t : Target) (packed : TdData × List Access)
    (given : TdlDataType → Option (List ℕ)) : Prop where
  flagged : Flagged packed.1 given
  stored : t.Fits given → Stored t packed.1 given
  inBounds : t.Fits given → ∀ a ∈ packed.2, a.InBounds

namespace Packed

variable {packed : TdData × List Access} {keys : DmSmKeys}

theorem isSome_giveSlot (keys : DmSmKeys) (given : TdlDataType → Option (List ℕ)) (keyIdx : ℕ)
    (dt : TdlDataType) (h : (given dt).isSome) : (giveSlot keys given keyIdx dt).isSome := by
  rw [giveSlot]
  split
  · exact h
  · rw [update_apply]
    split
    · rfl
    · exact h

theorem packSlot (h : Packed t packed given) (hwf : keys.WellFormed) {keyIdx : ℕ}
    (hidx : keyIdx ∈ List.range dmSmMaxNumKeys) :
    Packed t (packSlot t keys packed keyIdx) (giveSlot keys given keyIdx) := by
  have hmono : t.Fits (giveSlot keys given keyIdx) → t.Fits given := fun hfits =>
    hfits.mono (isSome_giveSlot keys given keyIdx)
  by_cases hnone : keys.typeAt keyIdx = .none
  · simpa [Tdl.packSlot, giveSlot, hnone] using h
  · obtain ⟨hkind, hlen⟩ := hwf.slots keyIdx hidx hnone
    simp only [Tdl.packSlot, giveSlot, if_neg hnone] at hmono ⊢
    have hflagged : Flagged
        (packTdKey t packed.1 (keys.u.getD keyIdx []) (keys.typeAt keyIdx)).1
        (Function.update given (convertDmSmToTdlKeyType (keys.typeAt keyIdx))
          (some (keys.u.getD keyIdx []))) := h.flagged.packTdKey rfl hkind
    have hfits := hflagged.fits_iff (t := t)
    rw [dataFlags_packTdKey rfl hkind] at hfits
    refine ⟨hflagged, fun hgiven => ?_, fun hgiven a ha => ?_⟩
    · exact (h.stored (hmono hgiven)).packTdKey rfl hkind hlen (hfits.mpr hgiven)
    · rcases mem_append.mp ha with ha | ha
      · exact h.inBounds (hmono hgiven) a ha
      · exact inBounds_packTdKey rfl hkind h.flagged.sign hlen (hfits.mpr hgiven) a ha

/-- One call. -/
theorem packKeys (h : Packed t packed given) (hwf : keys.WellFormed) :
    Packed t (packCall t packed keys) (giveKeys given keys) := by
  -- the security requirements and the key size touch neither the flags nor the area
  have hstart : Packed t
      (packTdEncKeySize (packTdSecurityRequirements packed.1 keys.securityRequirements)
        keys.encryptionKeySize, []) given :=
    ⟨⟨h.flagged.has, h.flagged.sign⟩,
      fun hfits => ⟨⟨h.flagged.has, h.flagged.sign⟩, (h.stored hfits).length, (h.stored hfits).cells⟩,
      fun _ a ha => absurd ha not_mem_nil⟩
  have hslots : ∀ (slots : List ℕ) (packed : TdData × List Access) given,
      (∀ keyIdx ∈ slots, keyIdx ∈ List.range dmSmMaxNumKeys) → Packed t packed given →
        Packed t (slots.foldl (Tdl.packSlot t keys) packed) (slots.foldl (giveSlot keys) given) ∧
          ∀ dt, (given dt).isSome → (slots.foldl (giveSlot keys) given dt).isSome := by
    intro slots
    induction slots with
    | nil => exact fun packed given _ h => ⟨h, fun dt => id⟩
    | cons keyIdx slots ih =>
      intro packed given hmem h
      obtain ⟨hpacked, hmono⟩ := ih _ _ (fun i hi => hmem i (.tail _ hi))
        (h.packSlot hwf (hmem keyIdx (.head _)))
      exact ⟨hpacked, fun dt hdt => hmono dt (isSome_giveSlot keys given keyIdx dt hdt)⟩
  obtain ⟨hpacked, hmono⟩ := hslots (List.range dmSmMaxNumKeys) _ given (fun _ => id) hstart
  refine ⟨hpacked.flagged, hpacked.stored, fun hfits a ha => ?_⟩
  rcases mem_append.mp ha with ha | ha
  · exact h.inBounds (hfits.mono hmono) a ha
  · exact hpacked.inBounds hfits a ha

theorem newRecord (t : Target) (device : TypedBdaddr) :
    Packed t (newRecord t device, []) fun _ => none := by
  have hflagged : Flagged (Tdl.newRecord t device) fun _ => none := by
    constructor <;> simp [Tdl.newRecord, packTdBdaddr, TdData.calloc, Content.has]
  refine ⟨hflagged, fun _ => ⟨hflagged, ?_, fun dt _ words hwords => by cases hwords⟩,
    fun _ a ha => absurd ha not_mem_nil⟩
  simp [Tdl.newRecord, packTdBdaddr, TdData.calloc, Shape.size, Target.shape, sizeWords,
    TdlDataType.all]

end Packed

variable {calls : List DmSmKeys}

/-- All calls. -/
theorem packed_packCalls (device : TypedBdaddr)
    (hwf : ∀ keys ∈ calls, keys.WellFormed) :
    Packed t (packCalls t device calls) (lastGiven calls) := by
  have hcalls : ∀ (calls : List DmSmKeys) (packed : TdData × List Access) given,
      (∀ keys ∈ calls, keys.WellFormed) → Packed t packed given →
        Packed t (calls.foldl (packCall t) packed) (calls.foldl giveKeys given) := by
    intro calls
    induction calls with
    | nil => exact fun packed given _ h => h
    | cons keys calls ih =>
      exact fun packed given hwf h =>
        ih _ _ (fun k hk => hwf k (.tail _ hk)) (h.packKeys (hwf keys (.head _)))
  exact hcalls calls _ _ hwf (.newRecord t device)

/-! ### Reading the record -/

/-- The keys of the primitive are the stored ones. -/
theorem carried_dmSmAddDeviceReq (t : Target) {td : TdData} (hsign : td.content.has .sign = false) :
    (dmSmAddDeviceReq t td).carried =
      (TdlDataType.kinds.filter td.content.has).map fun dt =>
        (presentType dt, (unpackTdKey t td dt).1) := by
  have hstored : storedTypes td = TdlDataType.kinds.filter td.content.has := by
    simp [storedTypes, TdlDataType.all, TdlDataType.kinds, filter_cons, hsign]
  have hmem : TdlDataType.kinds.filter td.content.has ∈ TdlDataType.kinds.sublists :=
    mem_sublists.mpr filter_sublist
  have hcarried : ∀ dts ∈ TdlDataType.kinds.sublists, ∀ (unpack : TdlDataType → List (Option ℕ))
      (req : AddDeviceReq), req.present = orFields dmSmNumKeyBits dmSmKeysUpdateExisting
        (dts.map fun dt => (presentType dt).toNat) → req.u = dts.map unpack →
      req.carried = dts.map fun dt => (presentType dt, unpack dt) := by
    intro dts hdts unpack req hpresent hu
    rw [AddDeviceReq.carried, hpresent, hu]
    simp only [TdlDataType.kinds, List.sublists, foldr_cons, foldr_nil, flatMap_cons,
      flatMap_nil, cons_append, nil_append, mem_cons, not_mem_nil,
      or_false] at hdts
    rcases hdts with rfl | rfl | rfl | rfl | rfl | rfl | rfl | rfl | rfl | rfl | rfl | rfl | rfl |
      rfl | rfl | rfl <;> rfl
  exact hcarried _ hmem _ _ (by rw [dmSmAddDeviceReq, hstored]) (by rw [dmSmAddDeviceReq, hstored])

theorem unpackTdKey_eq {dt : TdlDataType} (hdt : dt ∈ TdlDataType.kinds) :
    unpackTdKey t td dt =
      (readAt td.data (t.shape.start td.content.dataFlags dt) (t.shape.length dt),
        ⟨t.shape.start td.content.dataFlags dt, t.shape.length dt,
          t.shape.size td.content.dataFlags⟩) := by
  rw [unpackTdKey, calcTdDataOffset_eq t _ hdt, areaSize_eq]
  rfl

/-- What is read back of a record whose keys fit are the keys that were given last. -/
theorem Stored.carried (h : Stored t td given) :
    (dmSmAddDeviceReq t td).carried = TdlDataType.kinds.filterMap fun dt =>
      (given dt).map fun words => (presentType dt, (t.units words).map some) := by
  rw [carried_dmSmAddDeviceReq t h.sign, ← filterMap_eq_map, filterMap_filter]
  refine filterMap_congr fun dt hdt => ?_
  rw [h.has dt hdt]
  cases hgiven : given dt with
  | none => rfl
  | some words =>
    have hunpack : (unpackTdKey t td dt).1 = _ := congrArg Prod.fst (unpackTdKey_eq hdt)
    rw [Option.isSome_some, if_pos rfl, comp_apply, hunpack, h.cells dt hdt words hgiven]
    rfl

/-- The ranges that are read lie in the area exactly if the keys fit. -/
theorem Flagged.reads_inBounds (h : Flagged td given) :
    (∀ a ∈ dmSmAddDeviceReqReads t td, a.InBounds) ↔ t.Fits given := by
  have hsign : td.content.dataFlags.getLsbD 3 = false := h.sign
  rw [← h.fits_iff, Shape.fits_iff t.shape_mem hsign]
  have hmem (dt : TdlDataType) : dt ∈ storedTypes td ↔ dt ∈ TdlDataType.kinds ∧ td.content.has dt := by
    have hne : td.content.has dt → dt ≠ .sign := by
      rintro hdt rfl
      exact absurd hdt (by simp [h.sign])
    cases dt <;> simp_all [storedTypes, TdlDataType.all, TdlDataType.kinds]
  rw [dmSmAddDeviceReqReads, forall_mem_map]
  simp only [hmem, and_imp]
  refine forall₃_congr fun dt hdt hhas => ?_
  rw [unpackTdKey_eq hdt, Access.InBounds]
  exact or_iff_right (Shape.length_pos t hdt).ne'

/-! ### The codec -/

/-- The record that the calls leave gives back the device, what the last call gave and, for each
key type, the units of the words given last; and nothing outside of the key area is touched. -/
structure RoundTrips (t : Target) (device : TypedBdaddr) (calls : List DmSmKeys)
    (last : DmSmKeys) : Prop where
  addrt : (dmSmAddDeviceReq t (packCalls t device calls).1).addrt = device
  encryptionKeySize :
    (dmSmAddDeviceReq t (packCalls t device calls).1).encryptionKeySize = last.encryptionKeySize
  securityRequirements :
    (dmSmAddDeviceReq t (packCalls t device calls).1).securityRequirements =
      last.securityRequirements
  carried :
    (dmSmAddDeviceReq t (packCalls t device calls).1).carried =
      TdlDataType.kinds.filterMap fun dt =>
        (lastGiven calls dt).map fun words => (presentType dt, (t.units words).map some)
  inBounds : ∀ a ∈ (packCalls t device calls).2 ++
    dmSmAddDeviceReqReads t (packCalls t device calls).1, a.InBounds

/-- The calls change neither the device nor its other flags. -/
theorem sameDevice_packCalls (t : Target) (device : TypedBdaddr) (calls : List DmSmKeys) :
    (newRecord t device).SameDevice (packCalls t device calls).1 := by
  have hcalls : ∀ (calls : List DmSmKeys) (packed : TdData × List Access),
      packed.1.SameDevice (calls.foldl (packCall t) packed).1 := by
    intro calls
    induction calls with
    | nil => exact fun packed => .refl _
    | cons keys calls ih =>
      exact fun packed => (sameDevice_packKeys t packed.1 keys).trans (ih (packCall t packed keys))
  exact hcalls calls (_, [])

/-- Packing keys leaves the key size and the security requirements that were packed first. -/
theorem unpack_packKeys (t : Target) (td : TdData) {keys : DmSmKeys} (hwf : keys.WellFormed) :
    unpackTdEncKeySize (packKeys t td keys).1 = keys.encryptionKeySize ∧
      unpackTdSecurityRequirements (packKeys t td keys).1 =
        keys.securityRequirements &&& 0x4005 := by
  have hslot : ∀ (packed : TdData × List Access) (keyIdx : ℕ),
      (packSlot t keys packed keyIdx).1.content.keySize = packed.1.content.keySize ∧
        (packSlot t keys packed keyIdx).1.content.securityReq = packed.1.content.securityReq := by
    intro packed keyIdx
    rw [packSlot]
    split
    · exact ⟨rfl, rfl⟩
    · simp only [packTdKey]
      split <;> exact ⟨rfl, rfl⟩
  have hslots : ∀ (slots : List ℕ) (packed : TdData × List Access),
      (slots.foldl (packSlot t keys) packed).1.content.keySize = packed.1.content.keySize ∧
        (slots.foldl (packSlot t keys) packed).1.content.securityReq =
          packed.1.content.securityReq := by
    intro slots
    induction slots with
    | nil => exact fun packed => ⟨rfl, rfl⟩
    | cons keyIdx slots ih =>
      intro packed
      obtain ⟨hsize, hsec⟩ := ih (packSlot t keys packed keyIdx)
      exact ⟨hsize.trans (hslot packed keyIdx).1, hsec.trans (hslot packed keyIdx).2⟩
  obtain ⟨hmin, hmax⟩ := hwf.encryptionKeySize
  obtain ⟨hsize, hsec⟩ := hslots (List.range dmSmMaxNumKeys)
    (packTdEncKeySize (packTdSecurityRequirements td keys.securityRequirements)
      keys.encryptionKeySize, [])
  constructor
  · rw [unpackTdEncKeySize, packKeys, hsize]
    exact unpackTdEncKeySize_pack _ (by bv_omega) (by bv_omega)
  · rw [unpackTdSecurityRequirements, packKeys, hsec]
    exact unpackTdSecurityRequirements_pack td keys.securityRequirements

/-- **Round trip.** Calls with well-formed keys round-trip exactly if their keys fit and the last
security requirements are among the three bits that the record keeps. -/
theorem roundTrips_iff (t : Target) (device : TypedBdaddr) {calls : List DmSmKeys} {last : DmSmKeys}
    (hwf : ∀ keys ∈ calls, keys.WellFormed) (hlast : calls.getLast? = some last) :
    RoundTrips t device calls last ↔
      t.Fits (lastGiven calls) ∧ last.securityRequirements &&& 0x4005 = last.securityRequirements := by
  have hpacked : Packed t (packCalls t device calls) (lastGiven calls) :=
    packed_packCalls device hwf
  obtain ⟨earlier, rfl⟩ : ∃ earlier, calls = earlier ++ [last] :=
    (List.getLast?_eq_some_iff).mp hlast
  have hconcat : (packCalls t device (earlier ++ [last])).1 =
      (packKeys t (packCalls t device earlier).1 last).1 := by
    simp [packCalls, packCall]
  obtain ⟨hsize, hsec⟩ := unpack_packKeys t (packCalls t device earlier).1 (hwf last (by simp))
  constructor
  · intro h
    refine ⟨hpacked.flagged.reads_inBounds.mp fun a ha => h.inBounds a (by simp [ha]), ?_⟩
    rw [← hsec, ← hconcat]
    exact h.securityRequirements
  · rintro ⟨hfits, hbits⟩
    refine ⟨?_, ?_, ?_, (hpacked.stored hfits).carried, fun a ha => ?_⟩
    · rw [dmSmAddDeviceReq, (sameDevice_packCalls t device _).device]
      exact unpackTdBdaddr_packTdBdaddr _ _ _
    · rw [dmSmAddDeviceReq, hconcat, hsize]
    · rw [dmSmAddDeviceReq, hconcat, hsec, hbits]
    · rcases mem_append.mp ha with ha | ha
      · exact hpacked.inBounds hfits a ha
      · exact hpacked.flagged.reads_inBounds.mpr hfits a ha

/-- Three calls on an octet-addressed target: DIV and ID, then ID again. -/
theorem roundTrips_shortKeys :
    let t : Target := .octetAddressed true fun _ => 0
    let device : TypedBdaddr := ⟨.randomAddr, ⟨0x123456, 0x9a, 0xbcde⟩⟩
    let last : DmSmKeys := ⟨0x4005, 16, 0x0005, [List.replicate 8 0x5678]⟩
    let calls : List DmSmKeys :=
      [⟨0x4001, 7, 0x0003, [[0x1234]]⟩, ⟨0x4001, 12, 0x0005, [List.replicate 8 0x1111]⟩, last]
    RoundTrips t device calls last := by
  intro t device last calls
  exact (roundTrips_iff t device (by decide) rfl).mpr (by decide)

/-- On an octet-addressed target, a link key and a DIV overrun the key area. -/
theorem not_roundTrips_of_two_keys :
    let t : Target := .octetAddressed true fun _ => 0
    let device : TypedBdaddr := ⟨.publicAddr, ⟨1, 0, 0⟩⟩
    let last : DmSmKeys := ⟨0x4001, 16, 0x0019, [4 :: List.replicate 8 7, [0x1234]]⟩
    last.WellFormed ∧ ¬ RoundTrips t device [last] last := by
  intro t device last
  refine ⟨by decide, fun h => ?_⟩
  have hout : ¬ ∀ a ∈ (packCalls t device [last]).2 ++
      dmSmAddDeviceReqReads t (packCalls t device [last]).1, a.InBounds := by
    decide
  exact hout h.inBounds

/-! ### The stored record -/

section Stored

variable {cfg : Config} {s : Store} {ls : List Slot} (hword : cfg.target = .wordAddressed)

include hword

/-- After an update, the device is listed with the record that the update made. -/
theorem Listing.record_updateTdl (h : Listing cfg s ls) (device : TypedBdaddr) (keys : DmSmKeys) :
    ∃ ls', Listing cfg (connectionAuthUpdateTdl cfg s device keys) ls' ∧
      (Lib.lookup Slot.device device ls').map Slot.td =
        some (updateRecord cfg.target ((Lib.lookup Slot.device device ls).map Slot.td) device
          keys) := by
  obtain ⟨pos, idx, hfind, -⟩ := h.find device
  rw [connectionAuthUpdateTdl, hfind]
  have hsame := sameDevice_packKeys cfg.target
    (((Lib.lookup Slot.device device ls).map Slot.td).getD (newRecord cfg.target device)) keys
  have hdevice : unpackTdBdaddr (updateRecord cfg.target
      ((Lib.lookup Slot.device device ls).map Slot.td) device keys) = device := by
    rw [updateRecord, hsame.device]
    cases hl : Lib.lookup Slot.device device ls with
    | none => exact unpackTdBdaddr_packTdBdaddr ..
    | some l => exact show l.device = device from key_of_lookup hl
  refine ⟨_, (h.recordDevice hword hfind _ hdevice ?_).1.listing, ?_⟩
  · rw [updateRecord, hsame.priorityDevice]
    cases Lib.lookup Slot.device device ls with
    | none => rfl
    | some l => rfl
  · have hkey : Slot.device ⟨pos, updateRecord cfg.target
        ((Lib.lookup Slot.device device ls).map Slot.td) device keys⟩ = device := hdevice
    rw [lookup_cons_self hkey, Option.map_some]

/-- On a word-addressed target, the record that is found after updates for a device is what the
packing of all of their keys made of a new record. -/
theorem Listing.record_updates (h : Listing cfg s ls) (device : TypedBdaddr)
    (hnew : (tdlFindDevice cfg s device).1 = none) (hne : calls ≠ []) :
    (tdlFindDevice cfg (calls.foldl (fun s keys => connectionAuthUpdateTdl cfg s device keys) s)
      device).1 = some (packCalls cfg.target device calls).1 := by
  have hfound : ∀ {s : Store} {ls : List Slot}, Listing cfg s ls →
      (tdlFindDevice cfg s device).1 = (Lib.lookup Slot.device device ls).map Slot.td := by
    intro s ls h
    obtain ⟨pos, idx, hfind, -⟩ := h.find device
    rw [hfind]
  -- the store and the packing agree from the first call on
  have hcalls : ∀ (calls : List DmSmKeys) (s : Store) (ls : List Slot)
      (packed : TdData × List Access), Listing cfg s ls →
      (Lib.lookup Slot.device device ls).map Slot.td = some packed.1 →
        (tdlFindDevice cfg
          (calls.foldl (fun s keys => connectionAuthUpdateTdl cfg s device keys) s) device).1 =
            some (calls.foldl (packCall cfg.target) packed).1 := by
    intro calls
    induction calls with
    | nil => exact fun s ls packed h hrecord => (hfound h).trans hrecord
    | cons keys calls ih =>
      intro s ls packed h hrecord
      obtain ⟨ls', hlist, hrecord'⟩ := h.record_updateTdl hword device keys
      rw [hrecord] at hrecord'
      exact ih _ ls' (packCall cfg.target packed keys) hlist hrecord'
  cases calls with
  | nil => exact absurd rfl hne
  | cons keys calls =>
    obtain ⟨ls', hlist, hrecord⟩ := h.record_updateTdl hword device keys
    rw [← hfound h, hnew] at hrecord
    exact hcalls calls _ ls' (packCall cfg.target (newRecord cfg.target device, []) keys) hlist
      hrecord

end Stored

theorem updates_pair :
    let cfg : Config := ⟨.wordAddressed, 2, by decide, by decide⟩
    let calls : List DmSmKeys := [⟨0x4001, 16, 8, [[7]]⟩, ⟨1, 16, 8, [[9]]⟩]
    (tdlFindDevice cfg (calls.foldl (fun s keys => connectionAuthUpdateTdl cfg s ⟨.publicAddr, ⟨1, 0, 0⟩⟩ keys) {})
      ⟨.publicAddr, ⟨1, 0, 0⟩⟩).1 = some (packCalls cfg.target ⟨.publicAddr, ⟨1, 0, 0⟩⟩ calls).1 :=
  (Listing.empty rfl).record_updates rfl _ rfl (by simp)

end Cbps.Tdl
