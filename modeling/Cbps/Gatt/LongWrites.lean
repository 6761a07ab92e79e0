import Cbps.Gatt.LongValues
import Cbps.Lib.Evaluation

/-!
# Writing a long value

`LongWrite.writesWhole_iff_fits`: a value of several parts is written whole if the field `mtu` is the MTU that ATT
has agreed on and the sum of the steps fits into sixteen bits. If the field is not the MTU, only a value that fits
into one part is written whole.
-/

namespace Cbps.Gatt.LongWrite

open Lib List

open StateTransition

/-- The size of a part that ATT accepts. -/
def partSize (mtu : Mtu) : ℕ := mtu.val.toNat - 5

/-- The values that are written whole. -/
def Fits (stored : BitVec 10) (mtu : Mtu) (length : ℕ) : Prop :=
  length ≤ partSize mtu ∧ length ≤ (maxPrepareSize stored).toNat ∨
    (maxPrepareSize stored).toNat = partSize mtu ∧
      (length + partSize mtu - 1) / partSize mtu * partSize mtu ≤ 65535

variable {stored : BitVec 10} {mtu : Mtu} {v : Value} {s s' : LongWrite} {results : ℕ → AttResult}

theorem partSize_pos (mtu : Mtu) : 0 < partSize mtu := by
  have hmtu := mtu.le_val
  rw [partSize]
  omega

theorem partSize_lt (mtu : Mtu) : partSize mtu < 65536 := by
  have hmtu := mtu.val.isLt
  rw [partSize]
  omega

/-- A multiple of the size of a part is followed by another one at most at the end of the value. -/
theorem add_partSize_le {o length : ℕ} (hdvd : partSize mtu ∣ o) (ho : o < length) :
    o + partSize mtu ≤ (length + partSize mtu - 1) / partSize mtu * partSize mtu := by
  have hpos := partSize_pos mtu
  obtain ⟨k, rfl⟩ := hdvd
  have hk : k + 1 ≤ (length + partSize mtu - 1) / partSize mtu := by
    rw [Nat.le_div_iff_mul_le hpos, Nat.add_mul, Nat.mul_comm k, Nat.one_mul]
    omega
  calc partSize mtu * k + partSize mtu = (k + 1) * partSize mtu := by rw [Nat.add_mul, Nat.mul_comm k, Nat.one_mul]
    _ ≤ _ := Nat.mul_le_mul_right _ hk

theorem le_add_partSize {o length : ℕ} (hdvd : partSize mtu ∣ o) (ho : length ≤ o + partSize mtu) :
    (length + partSize mtu - 1) / partSize mtu * partSize mtu ≤ o + partSize mtu := by
  have hpos := partSize_pos mtu
  obtain ⟨k, rfl⟩ := hdvd
  have hk : (length + partSize mtu - 1) / partSize mtu < k + 2 := by
    rw [Nat.div_lt_iff_lt_mul hpos, Nat.add_mul, Nat.mul_comm k]
    omega
  calc (length + partSize mtu - 1) / partSize mtu * partSize mtu ≤ (k + 1) * partSize mtu :=
        Nat.mul_le_mul_right _ (Nat.le_of_lt_succ hk)
    _ = _ := by rw [Nat.add_mul, Nat.mul_comm k, Nat.one_mul]

/-! ### Single steps -/

/-- Parts have been accepted up to an offset, and the next part has been sent. -/
structure Preparing (v : Value) (s : LongWrite) : Prop where
  value_eq : s.gatt.value = v.octets
  request : s.gatt.request = some (.prepare s.gatt.offs (v.octets.drop s.gatt.offs.toNat))
  offs_le : s.gatt.offs.toNat ≤ v.octets.length
  tiles : Tiles 0 s.queued (v.octets.take s.gatt.offs.toNat)
  empty : s.gatt.offs = 0 → s.queued = []
  confirms : s.gatt.confirms = []
  executed : s.executed = []
  failed : s.failed = none

theorem preparing_init (stored : BitVec 10) (v : Value) : Preparing v (init stored v) :=
  ⟨rfl, rfl, Nat.zero_le _, rfl, fun _ => rfl, rfl, rfl, rfl⟩

/-- The part that is accepted at the offset. -/
def part (mtu : Mtu) (v : Value) (s : LongWrite) : ℕ × List UInt8 :=
  (s.gatt.offs.toNat, (v.octets.drop s.gatt.offs.toNat).take (partSize mtu))

/-- The state after a part has been accepted. -/
theorem Preparing.step_accept (h : Preparing v s) (mtu : Mtu) (results : ℕ → AttResult)
    (hresult : results s.answered = attResultSuccess) :
    step mtu results s = some
      { s with
        gatt := s.gatt.handleAttPrepareWriteCfmLong attResultSuccess
        queued := s.queued ++ [part mtu v s]
        answered := s.answered + 1 } := by
  rw [step, h.request]
  dsimp only
  rw [if_pos hresult, hresult]
  rfl

/-- The parts with one more. -/
theorem Preparing.tiles_concat (h : Preparing v s) (mtu : Mtu) :
    Tiles 0 (s.queued ++ [part mtu v s]) (v.octets.take (s.gatt.offs.toNat + partSize mtu)) := by
  rw [take_add]
  refine h.tiles.concat ?_
  rw [length_take, Nat.zero_add]
  exact (Nat.min_eq_left h.offs_le).symm

/-- More is to be sent. -/
theorem handle_more (h : (s.gatt.offs + maxPrepareSize s.gatt.mtu).toNat < s.gatt.value.length) :
    s.gatt.handleAttPrepareWriteCfmLong attResultSuccess =
      { s.gatt with
        offs := s.gatt.offs + maxPrepareSize s.gatt.mtu
        request := some (.prepare (s.gatt.offs + maxPrepareSize s.gatt.mtu)
          (s.gatt.value.drop (s.gatt.offs + maxPrepareSize s.gatt.mtu).toNat)) } := by
  rw [WriteLong.handleAttPrepareWriteCfmLong, if_pos rfl]
  dsimp only
  rw [if_pos h]

/-- All has been sent. -/
theorem handle_all (h : s.gatt.value.length ≤ (s.gatt.offs + maxPrepareSize s.gatt.mtu).toNat) :
    s.gatt.handleAttPrepareWriteCfmLong attResultSuccess =
      { s.gatt with
        offs := s.gatt.offs + maxPrepareSize s.gatt.mtu
        request := some (.execute true) } := by
  rw [WriteLong.handleAttPrepareWriteCfmLong, if_pos rfl]
  dsimp only
  rw [if_neg (Nat.not_lt.mpr h)]

theorem step_done (h : s.gatt.request = none) : step mtu results s = none := by
  rw [step, h]

/-- The execution, or the cancel, ends the procedure. -/
theorem mem_eval_execute (mtu : Mtu) (results : ℕ → AttResult)
    {execute : Bool} (h : s.gatt.request = some (.execute execute)) :
    ∃ t ∈ eval (step mtu results) s, t.gatt.locked = false ∧
      t.gatt.confirms.length = s.gatt.confirms.length + 1 ∧ t.queued = s.queued ∧
      t.executed = s.executed ++ [execute] ∧ t.failed = s.failed := by
  have hstep : step mtu results s = some
      { s with
        gatt := s.gatt.handleAttExecuteWriteCfmLong (results s.answered)
        executed := s.executed ++ [execute]
        answered := s.answered + 1 } := by
    rw [step, h]
  have hfinish : ∀ w : WriteLong, w.finish.request = none ∧ w.finish.locked = false ∧
      w.finish.confirms.length = w.confirms.length + 1 := fun w => ⟨rfl, rfl, length_append⟩
  have hstatus : (s.gatt.handleAttExecuteWriteCfmLong (results s.answered)).request = none ∧
      (s.gatt.handleAttExecuteWriteCfmLong (results s.answered)).locked = false ∧
      (s.gatt.handleAttExecuteWriteCfmLong (results s.answered)).confirms.length =
        s.gatt.confirms.length + 1 := by
    rw [WriteLong.handleAttExecuteWriteCfmLong]
    split
    · exact hfinish _
    · exact hfinish _
  exact ⟨_, (mem_eval_last hstep (step_done hstatus.1)).mpr rfl, hstatus.2.1, hstatus.2.2, rfl, rfl, rfl⟩

/-! ### Parts as they are expected -/

/-- A part of the full size that is not the last one. -/
theorem Preparing.next (h : Preparing v s) (mtu : Mtu) (results : ℕ → AttResult)
    (hresult : results s.answered = attResultSuccess)
    (hsize : (maxPrepareSize s.gatt.mtu).toNat = partSize mtu)
    (hmore : s.gatt.offs.toNat + partSize mtu < v.octets.length) :
    ∃ s', step mtu results s = some s' ∧ Preparing v s' ∧ s'.gatt.mtu = s.gatt.mtu ∧
      s'.gatt.offs.toNat = s.gatt.offs.toNat + partSize mtu := by
  have hle := v.length_le
  have hpos := partSize_pos mtu
  have hadd : (s.gatt.offs + maxPrepareSize s.gatt.mtu).toNat = s.gatt.offs.toNat + partSize mtu := by
    rw [BitVec.toNat_add, hsize]
    exact Nat.mod_eq_of_lt (by omega)
  have hhandle := handle_more (s := s) (by rw [hadd, h.value_eq]; exact hmore)
  refine ⟨_, h.step_accept mtu results hresult, ?_, by rw [hhandle], by rw [hhandle, hadd]⟩
  rw [hhandle]
  refine ⟨h.value_eq, ?_, ?_, ?_, ?_, h.confirms, h.executed, h.failed⟩
  · dsimp only
    rw [h.value_eq]
  · exact (hadd.trans_lt hmore).le
  · dsimp only
    rw [hadd]
    exact h.tiles_concat mtu
  · intro hzero
    have hzero : (s.gatt.offs + maxPrepareSize s.gatt.mtu).toNat = 0 := congrArg BitVec.toNat hzero
    omega

/-- The last part. -/
theorem Preparing.last (h : Preparing v s) (hresult : results s.answered = attResultSuccess)
    (hall : v.octets.length ≤ (s.gatt.offs + maxPrepareSize s.gatt.mtu).toNat)
    (hrest : v.octets.length ≤ s.gatt.offs.toNat + partSize mtu) :
    ∃ t ∈ eval (step mtu results) s, Whole v t := by
  have hhandle := handle_all (s := s) (by rw [h.value_eq]; exact hall)
  have hstep := h.step_accept mtu results hresult
  rw [hhandle] at hstep
  obtain ⟨t, ht, hlocked, hconfirms, hqueued, hexecuted, hfailed⟩ := mem_eval_execute mtu results
    (s := { s with
      gatt := { s.gatt with offs := s.gatt.offs + maxPrepareSize s.gatt.mtu, request := some (.execute true) }
      queued := s.queued ++ [part mtu v s]
      answered := s.answered + 1 }) rfl
  refine ⟨t, eval_step hstep ▸ ht, hlocked, hconfirms.trans (by rw [h.confirms]; rfl), ?_⟩
  rw [hfailed, h.failed]
  refine ⟨?_, hexecuted.trans (by rw [h.executed]; rfl)⟩
  have htiles := h.tiles_concat mtu
  rw [take_of_length_le hrest] at htiles
  rw [hqueued]
  exact htiles

/-- A part that is not accepted. -/
theorem Preparing.refuse (h : Preparing v s) (hresult : results s.answered ≠ attResultSuccess) :
    ∃ t ∈ eval (step mtu results) s, Whole v t := by
  have hstep : step mtu results s = some
      { s with
        gatt := s.gatt.handleAttPrepareWriteCfmLong (results s.answered)
        answered := s.answered + 1
        failed := some (results s.answered) } := by
    rw [step, h.request]
    dsimp only
    rw [if_neg hresult]
  by_cases hoffs : s.gatt.offs = 0
  · -- nothing has been accepted, and the confirm is sent at once
    have hhandle : s.gatt.handleAttPrepareWriteCfmLong (results s.answered) =
        { s.gatt with status := gattMessageStatus (results s.answered) }.finish := by
      rw [WriteLong.handleAttPrepareWriteCfmLong, if_neg hresult, if_neg (not_not.mpr hoffs)]
    rw [hhandle] at hstep
    refine ⟨_, (mem_eval_last hstep (step_done rfl)).mpr rfl, rfl, ?_, ?_⟩
    · change (s.gatt.confirms ++ [_]).length = 1
      rw [h.confirms]
      rfl
    · change s.executed = if s.queued = [] then [] else [false]
      rw [h.executed, if_pos (h.empty hoffs)]
  · have hhandle : s.gatt.handleAttPrepareWriteCfmLong (results s.answered) =
        { s.gatt with status := gattMessageStatus (results s.answered), request := some (.execute false) } := by
      rw [WriteLong.handleAttPrepareWriteCfmLong, if_neg hresult, if_pos hoffs]
    rw [hhandle] at hstep
    obtain ⟨t, ht, hlocked, hconfirms, hqueued, hexecuted, hfailed⟩ := mem_eval_execute mtu results
      (s := { s with
        gatt := { s.gatt with status := gattMessageStatus (results s.answered), request := some (.execute false) }
        answered := s.answered + 1
        failed := some (results s.answered) }) rfl
    refine ⟨t, eval_step hstep ▸ ht, hlocked, hconfirms.trans (by rw [h.confirms]; rfl), ?_⟩
    have hne : s.queued ≠ [] := by
      intro hnil
      have htiles := h.tiles
      rw [hnil] at htiles
      have hlength := congrArg List.length (show v.octets.take s.gatt.offs.toNat = [] from htiles)
      rw [length_take, Nat.min_eq_left h.offs_le] at hlength
      exact hoffs (BitVec.eq_of_toNat_eq hlength)
    rw [hfailed]
    dsimp only
    rw [hexecuted, hqueued, if_neg hne, h.executed]
    rfl

/-- The procedure ends as it should, by induction on what is left of the value. -/
theorem Preparing.whole (h : Preparing v s) (hsize : (maxPrepareSize s.gatt.mtu).toNat = partSize mtu)
    (hdvd : partSize mtu ∣ s.gatt.offs.toNat) (hlt : s.gatt.offs.toNat < v.octets.length)
    (hfits : (v.octets.length + partSize mtu - 1) / partSize mtu * partSize mtu ≤ 65535) :
    ∃ t ∈ eval (step mtu results) s, Whole v t := by
  induction hleft : v.octets.length - s.gatt.offs.toNat using Nat.strong_induction_on generalizing s with
  | h left ih =>
    have hpos := partSize_pos mtu
    by_cases hresult : results s.answered = attResultSuccess
    · by_cases hmore : s.gatt.offs.toNat + partSize mtu < v.octets.length
      · obtain ⟨s', hstep, hs', hfield, hoffs⟩ := h.next mtu results hresult hsize hmore
        rw [eval_step hstep]
        refine ih _ (by omega) hs' (hfield ▸ hsize) ?_ (by omega) rfl
        rw [hoffs]
        exact Nat.dvd_add hdvd (dvd_refl _)
      · have hle := (add_partSize_le hdvd hlt).trans hfits
        refine h.last hresult ?_ (by omega)
        rw [BitVec.toNat_add, hsize, Nat.mod_eq_of_lt (by omega)]
        omega
    · exact h.refuse hresult

/-! ### Parts of another size -/

/-- Every part is accepted. -/
def accepting : ℕ → AttResult := fun _ => attResultSuccess

variable {parts : List (ℕ × List UInt8)}

/-- What is queued stays queued, and nothing is refused. -/
theorem step_accepting (hs : parts <+: s.queued ∧ s.failed = none)
    (hstep : step mtu accepting s = some s') : parts <+: s'.queued ∧ s'.failed = none := by
  rw [step] at hstep
  split at hstep
  · exact absurd hstep (by simp)
  · rw [accepting] at hstep
    dsimp only at hstep
    rw [if_pos rfl] at hstep
    obtain rfl := Option.some.inj hstep
    exact ⟨hs.1.trans (prefix_append _ _), hs.2⟩
  · obtain rfl := Option.some.inj hstep
    exact hs

variable {t : LongWrite}

/-- A part that is not where the parts before it end. -/
theorem not_whole_of_part {o : ℕ} {xs : List UInt8}
    (hs : parts ++ [(o, xs)] <+: s.queued) (hfailed : s.failed = none)
    (ho : o ≠ (parts.flatMap Prod.snd).length) (ht : t ∈ eval (step mtu accepting) s) :
    ¬Whole v t := by
  rintro ⟨-, -, hwhole⟩
  obtain ⟨⟨parts', hparts⟩, hnone⟩ := keeps_of_mem_eval
    (P := fun s => parts ++ [(o, xs)] <+: s.queued ∧ s.failed = none) (fun _ _ => step_accepting) ⟨hs, hfailed⟩ ht
  rw [hnone] at hwhole
  have htiles := hwhole.1
  rw [← hparts, append_assoc] at htiles
  exact ho (htiles.offset.trans (Nat.zero_add _))

/-- The next part is sent at an offset at which the parts before it do not end. -/
theorem Preparing.not_whole_of_offs (h : Preparing v s)
    (hmore : (s.gatt.offs + maxPrepareSize s.gatt.mtu).toNat < v.octets.length)
    (hoffs : (s.gatt.offs + maxPrepareSize s.gatt.mtu).toNat ≠
      min (s.gatt.offs.toNat + partSize mtu) v.octets.length)
    (ht : t ∈ eval (step mtu accepting) s) : ¬Whole v t := by
  have hhandle := handle_more (s := s) (by rw [h.value_eq]; exact hmore)
  have hstep := h.step_accept mtu accepting rfl
  rw [hhandle] at hstep
  rw [eval_step hstep] at ht
  obtain ⟨s', hstep', hqueued, hfailed⟩ : ∃ s', step mtu accepting
      { s with
        gatt := { s.gatt with
          offs := s.gatt.offs + maxPrepareSize s.gatt.mtu
          request := some (.prepare (s.gatt.offs + maxPrepareSize s.gatt.mtu)
            (s.gatt.value.drop (s.gatt.offs + maxPrepareSize s.gatt.mtu).toNat)) }
        queued := s.queued ++ [part mtu v s]
        answered := s.answered + 1 } = some s' ∧
      (∃ xs, s'.queued = s.queued ++ [part mtu v s] ++
        [((s.gatt.offs + maxPrepareSize s.gatt.mtu).toNat, xs)]) ∧ s'.failed = none := by
    rw [step]
    dsimp only
    rw [accepting, if_pos rfl]
    exact ⟨_, rfl, ⟨_, rfl⟩, h.failed⟩
  rw [eval_step hstep'] at ht
  obtain ⟨xs, hqueued⟩ := hqueued
  refine not_whole_of_part (by rw [hqueued]) hfailed ?_ ht
  rw [(h.tiles_concat mtu).flatten, length_take]
  exact hoffs

/-- All is said to have been sent, but part of the value is missing. -/
theorem Preparing.not_whole_of_short (h : Preparing v s)
    (hall : v.octets.length ≤ (s.gatt.offs + maxPrepareSize s.gatt.mtu).toNat)
    (hshort : s.gatt.offs.toNat + partSize mtu < v.octets.length)
    (ht : t ∈ eval (step mtu accepting) s) : ¬Whole v t := by
  have hhandle := handle_all (s := s) (by rw [h.value_eq]; exact hall)
  have hstep := h.step_accept mtu accepting rfl
  rw [hhandle] at hstep
  rw [eval_step hstep] at ht
  obtain ⟨t', ht', -, -, hqueued, -, hfailed⟩ := mem_eval_execute mtu accepting
    (s := { s with
      gatt := { s.gatt with offs := s.gatt.offs + maxPrepareSize s.gatt.mtu, request := some (.execute true) }
      queued := s.queued ++ [part mtu v s]
      answered := s.answered + 1 }) rfl
  obtain rfl := Part.mem_unique ht ht'
  rintro ⟨-, -, hwhole⟩
  rw [hfailed, h.failed] at hwhole
  have hvalue := hwhole.1.flatten
  rw [hqueued, (h.tiles_concat mtu).flatten] at hvalue
  have hlength := congrArg List.length hvalue
  rw [length_take] at hlength
  omega

/-- The sum of the steps does not fit: by induction on what is left of the value. -/
theorem Preparing.not_whole_of_wrap (h : Preparing v s) (hsize : (maxPrepareSize s.gatt.mtu).toNat = partSize mtu)
    (hdvd : partSize mtu ∣ s.gatt.offs.toNat) (hlt : s.gatt.offs.toNat < v.octets.length)
    (hwrap : 65535 < (v.octets.length + partSize mtu - 1) / partSize mtu * partSize mtu)
    (ht : t ∈ eval (step mtu accepting) s) : ¬Whole v t := by
  induction hleft : v.octets.length - s.gatt.offs.toNat using Nat.strong_induction_on generalizing s with
  | h left ih =>
    have hpos := partSize_pos mtu
    have hpart := partSize_lt mtu
    have hle := v.length_le
    by_cases hmore : s.gatt.offs.toNat + partSize mtu < v.octets.length
    · obtain ⟨s', hstep, hs', hfield, hoffs⟩ := h.next mtu accepting rfl hsize hmore
      rw [eval_step hstep] at ht
      refine ih _ (by omega) hs' (hfield ▸ hsize) ?_ (by omega) ht rfl
      rw [hoffs]
      exact Nat.dvd_add hdvd (dvd_refl _)
    · have hbound := le_add_partSize hdvd (Nat.not_lt.mp hmore)
      have hoffs : (s.gatt.offs + maxPrepareSize s.gatt.mtu).toNat = s.gatt.offs.toNat + partSize mtu - 65536 := by
        rw [BitVec.toNat_add, hsize]
        change _ % 65536 = _
        omega
      exact h.not_whole_of_offs (by omega) (by omega) ht

/-- **The values that are written whole.** -/
theorem writesWhole_iff_fits (stored : BitVec 10) (mtu : Mtu) (v : Value) :
    WritesWhole stored mtu v ↔ Fits stored mtu v.octets.length := by
  have hinit := preparing_init stored v
  have hpos := partSize_pos mtu
  have hfirst : ((init stored v).gatt.offs + maxPrepareSize (init stored v).gatt.mtu).toNat =
      (maxPrepareSize stored).toNat := by
    change (0#16 + maxPrepareSize stored).toNat = _
    rw [BitVec.zero_add]
  have hzero : (init stored v).gatt.offs.toNat = 0 := rfl
  constructor
  · intro hwhole
    obtain ⟨t, ht, hwhole⟩ := hwhole accepting
    by_contra hfits
    rw [Fits, not_or] at hfits
    by_cases hsize : (maxPrepareSize stored).toNat = partSize mtu
    · refine hinit.not_whole_of_wrap hsize (dvd_zero _) ?_ (Nat.not_le.mp fun hle => hfits.2 ⟨hsize, hle⟩) ht hwhole
      omega
    · by_cases hmore : (maxPrepareSize stored).toNat < v.octets.length
      · exact hinit.not_whole_of_offs (by rw [hfirst]; exact hmore) (by rw [hfirst, hzero]; omega) ht hwhole
      · exact hinit.not_whole_of_short (by rw [hfirst]; omega) (by rw [hzero]; omega) ht hwhole
  · intro hfits results
    by_cases hresult : results (init stored v).answered = attResultSuccess
    · rcases hfits with ⟨hpart, hsize⟩ | ⟨hsize, hsum⟩
      · exact hinit.last hresult (by rw [hfirst]; exact hsize) (by rw [hzero]; omega)
      · by_cases hlt : 0 < v.octets.length
        · exact hinit.whole hsize (dvd_zero _) hlt hsum
        · exact hinit.last hresult (by omega) (by omega)
    · exact hinit.refuse hresult

end Cbps.Gatt.LongWrite
