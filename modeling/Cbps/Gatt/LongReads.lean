import Cbps.Gatt.LongValues
import Cbps.Lib.Evaluation

/-!
# Reading a long value

`ReadLong.readsWhole_iff_fits`: a value is read whole if the field `mtu` is the MTU that ATT has agreed on. If it is not,
only a value that fits into one blob is read whole, and it must be short enough for the field, too.
-/

namespace Cbps.Gatt.ReadLong

open Lib List

open StateTransition

/-- The values that are read whole. -/
def Fits (stored : BitVec 10) (mtu : Mtu) (length : ℕ) : Prop :=
  (maxBlobSize stored).toNat = mtu.val.toNat - 1 ∨
    length < mtu.val.toNat ∧
      (length < (maxBlobSize stored).toNat ∨ length = (maxBlobSize stored).toNat ∧ 0 < length)

variable {stored : BitVec 10} {mtu : Mtu} {v : Value} {r : ReadLong} {value : List UInt8}

theorem toNat_length (hvalue : value.length ≤ 65535) : (BitVec.ofNat 16 value.length).toNat = value.length := by
  rw [BitVec.toNat_ofNat]
  exact Nat.mod_eq_of_lt (by omega)

theorem size_eq_iff (hvalue : value.length ≤ 65535) (max : BitVec 16) :
    BitVec.ofNat 16 value.length = max ↔ value.length = max.toNat := by
  rw [← BitVec.toNat_inj, toNat_length hvalue]

theorem size_lt_iff (hvalue : value.length ≤ 65535) (max : BitVec 16) :
    BitVec.ofNat 16 value.length < max ↔ value.length < max.toNat := by
  rw [BitVec.lt_def, toNat_length hvalue]

/-- A blob of the size that is expected: the next one is asked for. -/
theorem handle_full (hvalue : value.length ≤ 65535) (hne : value ≠ [])
    (hsize : value.length = (maxBlobSize r.mtu).toNat) :
    r.gattHandleAttReadBlobCfm attResultSuccess value =
      { r with
        offs := r.offs + BitVec.ofNat 16 value.length
        request := some (r.offs + BitVec.ofNat 16 value.length)
        sent := r.sent ++ [⟨r.offs, 0, value, true⟩] } := by
  have hlt : ¬BitVec.ofNat 16 value.length < maxBlobSize r.mtu := by
    rw [size_lt_iff hvalue]
    omega
  rw [gattHandleAttReadBlobCfm]
  dsimp only
  rw [if_pos ⟨rfl, (size_eq_iff hvalue _).mpr hsize⟩, if_pos hne, decide_eq_false hlt]
  rfl

/-- A smaller blob is the last one. -/
theorem handle_last (hvalue : value.length ≤ 65535) (hsize : value.length < (maxBlobSize r.mtu).toNat) :
    r.gattHandleAttReadBlobCfm attResultSuccess value =
      { r with
        locked := false
        offs := if value ≠ [] then r.offs + BitVec.ofNat 16 value.length else r.offs
        request := none
        sent := r.sent ++ [⟨r.offs, 0, value, false⟩] } := by
  have hlt : BitVec.ofNat 16 value.length < maxBlobSize r.mtu := (size_lt_iff hvalue _).mpr hsize
  have hmore : ¬(attResultSuccess = attResultSuccess ∧ BitVec.ofNat 16 value.length = maxBlobSize r.mtu) := by
    rintro ⟨-, heq⟩
    rw [size_eq_iff hvalue] at heq
    omega
  rw [gattHandleAttReadBlobCfm]
  dsimp only
  rw [if_neg hmore, decide_eq_true hlt]
  by_cases hne : value ≠ []
  · rw [if_pos hne, if_pos hne, if_pos hne]
    rfl
  · rw [if_neg hne, if_neg hne, if_neg hne]
    rfl

/-- A larger blob is the last one as well, but more is said to come. -/
theorem handle_long (hvalue : value.length ≤ 65535) (hsize : (maxBlobSize r.mtu).toNat < value.length) :
    r.gattHandleAttReadBlobCfm attResultSuccess value =
      { r with
        locked := false
        offs := r.offs + BitVec.ofNat 16 value.length
        request := none
        sent := r.sent ++ [⟨r.offs, 0, value, true⟩] } := by
  have hne : value ≠ [] := by
    rintro rfl
    exact Nat.not_lt_zero _ hsize
  have hlt : ¬BitVec.ofNat 16 value.length < maxBlobSize r.mtu := by
    rw [size_lt_iff hvalue]
    omega
  have hmore : ¬(attResultSuccess = attResultSuccess ∧ BitVec.ofNat 16 value.length = maxBlobSize r.mtu) := by
    rintro ⟨-, heq⟩
    rw [size_eq_iff hvalue] at heq
    omega
  rw [gattHandleAttReadBlobCfm]
  dsimp only
  rw [if_neg hmore, if_pos hne, if_pos hne, decide_eq_false hlt]
  rfl

/-- If no blob is expected, one that is empty is asked for again and again. -/
theorem handle_stuck (hsize : (maxBlobSize r.mtu).toNat = 0) :
    r.gattHandleAttReadBlobCfm attResultSuccess [] = { r with request := some r.offs } := by
  have hmax : BitVec.ofNat 16 ([] : List UInt8).length = maxBlobSize r.mtu :=
    (size_eq_iff (Nat.zero_le _) _).mpr hsize.symm
  rw [gattHandleAttReadBlobCfm]
  dsimp only
  rw [if_pos ⟨rfl, hmax⟩, if_neg (not_not.mpr rfl)]

/-! ### The answers of ATT -/

/-- The blob at an offset. -/
def blob (mtu : Mtu) (v : Value) (o : ℕ) : List UInt8 := (v.octets.drop o).take (mtu.val.toNat - 1)

theorem length_blob (mtu : Mtu) (v : Value) (o : ℕ) :
    (blob mtu v o).length = min (mtu.val.toNat - 1) (v.octets.length - o) := by
  rw [blob, length_take, length_drop]

theorem length_blob_le (mtu : Mtu) (v : Value) (o : ℕ) : (blob mtu v o).length ≤ 65535 := by
  have hle := v.length_le
  rw [length_blob]
  omega

theorem step_eq (hrequest : r.request = some r.offs) (hoffs : r.offs.toNat ≤ v.octets.length) :
    step mtu v r = some (r.gattHandleAttReadBlobCfm attResultSuccess (blob mtu v r.offs.toNat)) := by
  rw [step, hrequest, Option.map_some, attReadBlob, if_pos hoffs]
  rfl

theorem step_done (hrequest : r.request = none) : step mtu v r = none := by
  rw [step, hrequest]
  rfl

/-! ### Blobs as they are expected -/

/-- The fragments up to an offset have been delivered, and the next blob has been asked for. -/
structure Reading (v : Value) (r : ReadLong) : Prop where
  request : r.request = some r.offs
  offs_le : r.offs.toNat ≤ v.octets.length
  tiles : Tiles 0 (r.sent.map fun c => (c.offset.toNat, c.value)) (v.octets.take r.offs.toNat)
  more : ∀ c ∈ r.sent, c.status = 0 ∧ c.moreToCome = true

theorem reading_init (stored : BitVec 10) (v : Value) : Reading v (gattHandleInternalReadLongReq stored) :=
  ⟨rfl, Nat.zero_le _, rfl, fun c hc => absurd hc not_mem_nil⟩

/-- The fragments with one more. -/
theorem Reading.tiles_concat (h : Reading v r) (more : Bool) (hvalue : value <+: v.octets.drop r.offs.toNat) :
    Tiles 0 ((r.sent ++ [(⟨r.offs, 0, value, more⟩ : ReadLongCfm)]).map fun c => (c.offset.toNat, c.value))
      (v.octets.take (r.offs.toNat + value.length)) := by
  have htake : v.octets.take (r.offs.toNat + value.length) = v.octets.take r.offs.toNat ++ value := by
    rw [take_add]
    exact congrArg _ (prefix_iff_eq_take.mp hvalue).symm
  rw [map_append, htake]
  refine h.tiles.concat ?_
  rw [length_take, Nat.zero_add]
  exact (Nat.min_eq_left h.offs_le).symm

/-- A blob of the size that is expected. -/
theorem Reading.next (h : Reading v r) (hne : blob mtu v r.offs.toNat ≠ [])
    (hsize : (blob mtu v r.offs.toNat).length = (maxBlobSize r.mtu).toNat) :
    ∃ r', step mtu v r = some r' ∧ Reading v r' ∧ r'.mtu = r.mtu ∧
      r'.offs.toNat = r.offs.toNat + (maxBlobSize r.mtu).toNat := by
  have hle := v.length_le
  have hoffs := h.offs_le
  have hlength := length_blob mtu v r.offs.toNat
  have hadd : (r.offs + BitVec.ofNat 16 (blob mtu v r.offs.toNat).length).toNat =
      r.offs.toNat + (maxBlobSize r.mtu).toNat := by
    rw [BitVec.toNat_add, toNat_length (length_blob_le mtu v _), hsize]
    exact Nat.mod_eq_of_lt (by omega)
  refine ⟨_, (step_eq h.request hoffs).trans (congrArg some (handle_full (length_blob_le mtu v _) hne hsize)),
    ⟨rfl, ?_, ?_, ?_⟩, rfl, hadd⟩
  · dsimp only
    rw [hadd]
    omega
  · have hblob : blob mtu v r.offs.toNat <+: v.octets.drop r.offs.toNat := take_prefix _ _
    have htiles := h.tiles_concat true hblob
    rw [hsize, ← hadd] at htiles
    exact htiles
  · intro c hc
    rcases mem_append.mp hc with hc | hc
    · exact h.more c hc
    · rw [mem_singleton.mp hc]
      exact ⟨rfl, rfl⟩

/-- A smaller blob that is the rest of the value. -/
theorem Reading.last (h : Reading v r) (hsize : v.octets.length - r.offs.toNat < (maxBlobSize r.mtu).toNat)
    (hrest : v.octets.length - r.offs.toNat ≤ mtu.val.toNat - 1) : ∃ r' ∈ eval (step mtu v) r, Whole v r' := by
  have hlength : (blob mtu v r.offs.toNat).length = v.octets.length - r.offs.toNat := by
    rw [length_blob]
    exact Nat.min_eq_right hrest
  have hstep := (step_eq h.request h.offs_le : step mtu v r = _).trans (congrArg some (handle_last (length_blob_le mtu v _)
    (hlength.trans_lt hsize)))
  refine ⟨_, (mem_eval_last hstep (step_done rfl)).mpr rfl, rfl, ?_, ?_, r.sent, _, rfl,
    fun c hc => (h.more c hc).2, rfl⟩
  · have hblob : blob mtu v r.offs.toNat <+: v.octets.drop r.offs.toNat := take_prefix _ _
    have htiles := h.tiles_concat false hblob
    rw [hlength, Nat.add_sub_cancel' h.offs_le, take_length] at htiles
    exact htiles
  · intro c hc
    rcases mem_append.mp hc with hc | hc
    · exact (h.more c hc).1
    · rw [mem_singleton.mp hc]

/-- If the field is the MTU, the value is read to its end from every offset on, by induction on what is left. -/
theorem Reading.whole (h : Reading v r) (hmax : (maxBlobSize r.mtu).toNat = mtu.val.toNat - 1) :
    ∃ r' ∈ eval (step mtu v) r, Whole v r' := by
  have hmtu := mtu.le_val
  induction hleft : v.octets.length - r.offs.toNat using Nat.strong_induction_on generalizing r with
  | h left ih =>
    by_cases hfull : mtu.val.toNat - 1 ≤ left
    · have hlength : (blob mtu v r.offs.toNat).length = (maxBlobSize r.mtu).toNat := by
        rw [length_blob, hmax, hleft]
        exact Nat.min_eq_left hfull
      have hne : blob mtu v r.offs.toNat ≠ [] := ne_nil_of_length_pos (by omega)
      obtain ⟨r', hstep, hr', hfield, hoffs⟩ := h.next hne hlength
      rw [eval_step hstep]
      exact ih _ (by omega) hr' (hfield ▸ hmax) rfl
    · exact h.last (by omega) (by omega)

/-! ### Blobs of another size -/

/-- More is said to come after the last fragment. -/
theorem not_whole_of_more {c : ReadLongCfm} (hsent : r.sent = [c]) (hmore : c.moreToCome = true) : ¬Whole v r := by
  rintro ⟨-, -, -, cs, c', heq, -, hlast⟩
  have hc := congrArg List.getLast? (heq.symm.trans hsent)
  rw [List.getLast?_append] at hc
  obtain rfl : c' = c := Option.some.inj hc
  exact absurd (hmore.symm.trans hlast) Bool.noConfusion

/-- Part of the value is missing. -/
theorem not_whole_of_short {c : ReadLongCfm} (hsent : r.sent = [c]) (hshort : c.value.length < v.octets.length) :
    ¬Whole v r := by
  rintro ⟨-, htiles, -⟩
  have hvalue := htiles.flatten
  rw [hsent] at hvalue
  have hlength := congrArg List.length hvalue
  rw [map_singleton, flatMap_singleton] at hlength
  exact hshort.ne hlength

/-- **The values that are read whole.** -/
theorem readsWhole_iff_fits (stored : BitVec 10) (mtu : Mtu) (v : Value) :
    ReadsWhole stored mtu v ↔ Fits stored mtu v.octets.length := by
  have hmtu := mtu.le_val
  have hinit := reading_init stored v
  have hlength := length_blob mtu v 0
  have hstep : step mtu v (gattHandleInternalReadLongReq stored) =
      some ((gattHandleInternalReadLongReq stored).gattHandleAttReadBlobCfm attResultSuccess (blob mtu v 0)) :=
    step_eq rfl (Nat.zero_le _)
  by_cases hmax : (maxBlobSize stored).toNat = mtu.val.toNat - 1
  · exact iff_of_true (hinit.whole hmax) (Or.inl hmax)
  rw [Nat.sub_zero] at hlength
  by_cases hone : v.octets.length < mtu.val.toNat
  · -- the value is one blob
    rw [Nat.min_eq_right (by omega)] at hlength
    rcases Nat.lt_trichotomy v.octets.length (maxBlobSize stored).toNat with hlt | heq | hgt
    · refine iff_of_true (hinit.last ?_ ?_) (Or.inr ⟨hone, Or.inl hlt⟩)
      · exact hlt
      · exact Nat.le_sub_one_of_lt hone
    · by_cases hpos : 0 < v.octets.length
      · refine iff_of_true ?_ (Or.inr ⟨hone, Or.inr ⟨heq, hpos⟩⟩)
        have hne : blob mtu v 0 ≠ [] := ne_nil_of_length_pos (by omega)
        obtain ⟨r, hstep, hr, hfield, hoffs⟩ := hinit.next hne (hlength.trans heq)
        have hrest : v.octets.length - r.offs.toNat = 0 := by
          rw [hoffs]
          change _ - (0 + (maxBlobSize stored).toNat) = 0
          omega
        rw [ReadsWhole, eval_step hstep]
        refine hr.last ?_ (by omega)
        rw [hrest, hfield]
        change 0 < (maxBlobSize stored).toNat
        omega
      · -- the empty value is asked for again and again
        refine iff_of_false ?_ ?_
        · rintro ⟨r, hr, -⟩
          refine not_mem_eval (P := (· = gattHandleInternalReadLongReq stored)) ?_ ?_ rfl hr
          · rintro a b rfl hb
            have hblob : blob mtu v 0 = [] := eq_nil_of_length_eq_zero (by omega)
            rw [hstep, hblob, handle_stuck (by change (maxBlobSize stored).toNat = 0; omega)] at hb
            exact (Option.some.inj hb).symm
          · rintro a rfl hnone
            exact absurd (hstep.symm.trans hnone) (by simp)
        · rw [Fits]
          omega
    · refine iff_of_false ?_ (by rw [Fits]; omega)
      rintro ⟨r, hr, hwhole⟩
      rw [handle_long (length_blob_le mtu v _) (by change (maxBlobSize stored).toNat < _; omega)] at hstep
      obtain rfl := (mem_eval_last hstep (step_done rfl)).mp hr
      exact not_whole_of_more rfl rfl hwhole
  · -- the value has more than one blob
    rw [Nat.min_eq_left (by omega)] at hlength
    refine iff_of_false ?_ (by rw [Fits]; omega)
    rintro ⟨r, hr, hwhole⟩
    rcases Nat.lt_or_gt_of_ne hmax with hlt | hgt
    · rw [handle_long (length_blob_le mtu v _) (by change (maxBlobSize stored).toNat < _; omega)] at hstep
      obtain rfl := (mem_eval_last hstep (step_done rfl)).mp hr
      exact not_whole_of_more rfl rfl hwhole
    · rw [handle_last (length_blob_le mtu v _) (by change _ < (maxBlobSize stored).toNat; omega)] at hstep
      obtain rfl := (mem_eval_last hstep (step_done rfl)).mp hr
      refine not_whole_of_short rfl ?_ hwhole
      dsimp only
      omega

end Cbps.Gatt.ReadLong
