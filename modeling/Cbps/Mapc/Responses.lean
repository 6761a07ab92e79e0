import Cbps.Lib.Search
import Cbps.Lib.TagValues
import Mathlib.Data.List.GetD
import Mathlib.Logic.Function.Basic

/-!
# Responses of the message access server

`mapcMasHandlePutMessageResp` turns the Name header of a response to a pushed message, in which each character has two
octets, into the handle of the message. The loop has two counters of eight bits. A read outside of the header, or through
no header at all, is the fault `outside`, and a loop that never returns is the fault `endless`.

`mapcMasParseListResp` looks for the size of a listing in a block of application parameters. It goes on by the lengths of
the other parameters, with an offset of sixteen bits.
-/

namespace Cbps.Mapc

open Lib List

inductive Fault
  | outside
  | endless
deriving DecidableEq, Repr

/-- `MapcStatus`. -/
inductive Status
  | success
  | failure
  | pending
  | connectRejected
  | aborted
  | invalidState
  | mnsStarted
  | objectNotFound
  | objectProtected
  | commandRejected
  | invalidParameter
deriving DecidableEq, Repr

/-- An octet behind a pointer, which may be `NULL`. -/
def readOctet (octets : Option (List UInt8)) (i : ℕ) : Except Fault UInt8 :=
  match octets.bind (·[i]?) with
  | some octet => .ok octet
  | none => .error .outside

theorem readOctet_of_getElem? {octets : List UInt8} {i : ℕ} {octet : UInt8} (h : octets[i]? = some octet) :
    readOctet (some octets) i = .ok octet := by
  rw [readOctet, Option.bind_some, h]

theorem exists_readOctet {octets : List UInt8} {i : ℕ} (h : i < octets.length) :
    ∃ octet, readOctet (some octets) i = .ok octet ∧ octets[i]? = some octet :=
  ⟨_, readOctet_of_getElem? (List.getElem?_eq_getElem h), List.getElem?_eq_getElem h⟩

/-! ### The handle of a message -/

/-- `MAPC_MAS_PUT_MESSAGE_CFM_T`. -/
structure PutMessageCfm where
  status : Status
  handleLen : ℕ
  handle : List UInt8
deriving DecidableEq, Repr

/-- The variables of the loop. -/
structure Copying where
  i : ℕ
  j : ℕ
  handle : ℕ → UInt8

/-- One turn of the loop, with counters of eight bits. -/
def copyTurn (nameHdr : Option (List UInt8)) (handleLen : ℕ) (s : Copying) : Except Fault (Option Copying) :=
  if s.i < handleLen then do
    let octet ← readOctet nameHdr s.j
    pure (some ⟨(s.i + 1) % 256, (s.j + 2) % 256, Function.update s.handle s.i octet⟩)
  else pure none

/-- The confirmation with a handle. `fresh` is what the memory of the message holds, and the turns are enough for every
loop that ends. -/
def mapcMasPutMessageCfm (status : Status) (len : BitVec 16) (nameHdr : Option (List UInt8)) (fresh : ℕ → UInt8) :
    Except Fault PutMessageCfm := do
  let handleLen := (len.toNat + 1) / 2
  let s ← Lib.loop .endless (copyTurn nameHdr handleLen) 256 ⟨0, 1, fresh⟩
  pure ⟨status, handleLen, (List.range handleLen).map s.handle⟩

/-- What is sent: the next part of the message, or the confirmation. -/
inductive PutAnswer
  | putContinue
  | cfm (m : PutMessageCfm)
deriving DecidableEq, Repr

/-- Handle the response to a pushed message. `src` and `objLen` are what `ObexObjFilterHdrValue` gives for the Name header:
the octets of the source from its value on, and a length. -/
def mapcMasHandlePutMessageResp (status : Status) (srcOutSize : ℕ) (finalPut : Bool) (src : Option (List UInt8))
    (objLen : BitVec 16) (fresh : ℕ → UInt8) : Except Fault PutAnswer :=
  if status = .pending ∧ srcOutSize ≠ 0 then pure .putContinue
  else if finalPut ∧ (status = .success ∨ status = .pending) then
    -- An empty source has the size zero.
    if (src.getD []).length < objLen.toNat then .cfm <$> mapcMasPutMessageCfm .invalidParameter objLen none fresh
    else .cfm <$> mapcMasPutMessageCfm status objLen (src.map (·.take objLen.toNat)) fresh
  else .cfm <$> mapcMasPutMessageCfm status 0 none fresh

/-- The characters of a Name header. -/
def characters (octets : List UInt8) : List ℕ :=
  (List.range (octets.length / 2)).map fun k => (octets.getD (2 * k) 0).toNat * 256 + (octets.getD (2 * k + 1) 0).toNat

/-- The octets of the Name header; none if it is missing or not complete. -/
def nameOctets (src : Option (List UInt8)) (objLen : BitVec 16) : List UInt8 :=
  if (src.getD []).length < objLen.toNat then [] else (src.getD []).take objLen.toNat

/-- **The promise** for the last response to a pushed message: the characters of its Name header are delivered, and nothing
else is read. -/
def Delivers (src : Option (List UInt8)) (objLen : BitVec 16) : Prop :=
  ∀ (status : Status) (fresh : ℕ → UInt8), status = .success ∨ status = .pending →
    ∃ m, mapcMasHandlePutMessageResp status 0 true src objLen fresh = .ok (.cfm m) ∧
      m.handle.map UInt8.toNat = characters (nameOctets src objLen)

/-- The Name header has at most 255 characters, all with an upper octet of zero, and from the character 128 on each is the
one 128 in front of it; or there is neither a header nor a length. -/
def Deliverable (src : Option (List UInt8)) (objLen : BitVec 16) : Prop :=
  objLen.toNat ≤ (src.getD []).length ∧ objLen.toNat % 2 = 0 ∧ objLen.toNat ≤ 510 ∧
    ∀ k, 2 * k + 1 < objLen.toNat →
      (src.getD []).getD (2 * k) 0 = 0 ∧ (src.getD []).getD (2 * k + 1) 0 = (src.getD []).getD ((2 * k + 1) % 256) 0

/-! ### The loop over the header -/

section

variable {nameHdr : Option (List UInt8)} {handleLen : ℕ}

/-- With more characters than the counter can count the loop does not end. -/
theorem copy_long (h : 256 ≤ handleLen) (n : ℕ) (s : Copying) (hs : s.i < 256) (r : Copying) :
    Lib.loop .endless (copyTurn nameHdr handleLen) n s ≠ .ok r := by
  induction n generalizing s with
  | zero => exact fun h => absurd h (by simp [Lib.loop])
  | succ n ih =>
    rcases hread : readOctet nameHdr s.j with e | octet
    · have hturn : copyTurn nameHdr handleLen s = .error e := by
        rw [copyTurn, if_pos (Nat.lt_of_lt_of_le hs h), hread]
        rfl
      rw [loop_error hturn]
      exact fun h => absurd h (by simp)
    · have hturn : copyTurn nameHdr handleLen s =
          .ok (some ⟨(s.i + 1) % 256, (s.j + 2) % 256, Function.update s.handle s.i octet⟩) := by
        rw [copyTurn, if_pos (Nat.lt_of_lt_of_le hs h), hread]
        rfl
      rw [loop_turn hturn]
      exact ih _ (Nat.mod_lt _ (by decide))

/-- With fewer characters the loop copies one octet for each, or meets an octet that is not there. -/
theorem copy_short (h : handleLen < 256) (n k : ℕ) (handle : ℕ → UInt8) (hk : k ≤ handleLen) (hn : handleLen - k < n) :
    (∃ i, k ≤ i ∧ i < handleLen ∧ readOctet nameHdr ((2 * i + 1) % 256) = .error .outside ∧
        Lib.loop .endless (copyTurn nameHdr handleLen) n ⟨k, (2 * k + 1) % 256, handle⟩ = .error .outside) ∨
      ∃ r, Lib.loop .endless (copyTurn nameHdr handleLen) n ⟨k, (2 * k + 1) % 256, handle⟩ = .ok r ∧
        (∀ i, i < k → r.handle i = handle i) ∧
          ∀ i, k ≤ i → i < handleLen → readOctet nameHdr ((2 * i + 1) % 256) = .ok (r.handle i) := by
  induction n generalizing k handle with
  | zero => exact absurd hn (Nat.not_lt_zero _)
  | succ n ih =>
    rcases Nat.lt_or_eq_of_le hk with hlt | rfl
    · rcases hread : readOctet nameHdr ((2 * k + 1) % 256) with e | octet
      · have hfault : e = .outside := by
          rw [readOctet] at hread
          split at hread
          · exact absurd hread (by simp)
          · exact (Except.error.inj hread).symm
        have hturn : copyTurn nameHdr handleLen ⟨k, (2 * k + 1) % 256, handle⟩ = .error e := by
          rw [copyTurn, if_pos hlt, hread]
          rfl
        rw [hfault] at hread hturn
        exact .inl ⟨k, Nat.le_refl _, hlt, hread, loop_error hturn n⟩
      · have hturn : copyTurn nameHdr handleLen ⟨k, (2 * k + 1) % 256, handle⟩ =
            .ok (some ⟨k + 1, (2 * (k + 1) + 1) % 256, Function.update handle k octet⟩) := by
          rw [copyTurn, if_pos hlt, hread, ok_bind]
          dsimp only
          rw [Nat.mod_eq_of_lt (show k + 1 < 256 by omega), show ((2 * k + 1) % 256 + 2) % 256 = (2 * (k + 1) + 1) % 256 by omega]
          rfl
        rw [loop_turn hturn]
        rcases ih (k + 1) (Function.update handle k octet) hlt (by omega) with ⟨i, hi, hlast, hfault, hloop⟩ | ⟨r, hloop, hbefore, hcopied⟩
        · exact .inl ⟨i, Nat.le_of_succ_le hi, hlast, hfault, hloop⟩
        · refine .inr ⟨r, hloop, fun i hi => ?_, fun i hi hlast => ?_⟩
          · rw [hbefore i (Nat.lt_succ_of_lt hi), Function.update_of_ne (Nat.ne_of_lt hi)]
          · rcases Nat.lt_or_eq_of_le hi with hnext | rfl
            · exact hcopied i hnext hlast
            · rw [hread, hbefore k (Nat.lt_succ_self k), Function.update_self]
    · have hturn : copyTurn nameHdr k ⟨k, (2 * k + 1) % 256, handle⟩ = .ok none := by
        rw [copyTurn, if_neg (Nat.lt_irrefl k)]
        rfl
      exact .inr ⟨_, loop_stop hturn n, fun _ _ => rfl, fun i hi hlast => absurd hlast (Nat.not_lt.mpr hi)⟩

end

section

variable {octets : List UInt8} {r : Copying}

theorem getD_of_readOctet {i : ℕ} {octet : UInt8} (h : readOctet (some octets) i = .ok octet) :
    i < octets.length ∧ octets.getD i 0 = octet := by
  rw [readOctet, Option.bind_some] at h
  split at h
  · next octet' hget =>
    obtain rfl := Except.ok.inj h
    exact ⟨(List.getElem?_eq_some_iff.mp hget).1, by rw [getD_eq_getElem?_getD, hget, Option.getD_some]⟩
  · exact absurd h (by simp)

theorem length_characters (octets : List UInt8) : (characters octets).length = octets.length / 2 := by
  rw [characters, length_map, length_range]

/-- A handle consists of the characters exactly if they have no upper octets. -/
theorem handle_eq_iff (hcopied : ∀ i, i < octets.length / 2 → r.handle i = octets.getD ((2 * i + 1) % 256) 0) :
    ((List.range (octets.length / 2)).map r.handle).map UInt8.toNat = characters octets ↔
      ∀ k, 2 * k + 1 < octets.length →
        octets.getD (2 * k) 0 = 0 ∧ octets.getD (2 * k + 1) 0 = octets.getD ((2 * k + 1) % 256) 0 := by
  rw [characters, map_map, map_inj_left]
  have hone (k : ℕ) (hk : k < octets.length / 2) : (UInt8.toNat ∘ r.handle) k =
      (octets.getD (2 * k) 0).toNat * 256 + (octets.getD (2 * k + 1) 0).toNat ↔
        octets.getD (2 * k) 0 = 0 ∧ octets.getD (2 * k + 1) 0 = octets.getD ((2 * k + 1) % 256) 0 := by
    have hsmall := (octets.getD ((2 * k + 1) % 256) 0).toNat_lt
    rw [Function.comp_apply, hcopied k hk, ← UInt8.toNat_inj, ← UInt8.toNat_inj, UInt8.toNat_zero]
    omega
  constructor
  · intro h k hk
    exact (hone k (by omega)).mp (h k (mem_range.mpr (by omega)))
  · intro h k hk
    rw [mem_range] at hk
    exact (hone k hk).mpr (h k (by omega))

/-- The loop delivers the characters of a header exactly if there are whole characters, not too many, and each of them can
be read. -/
theorem copied_iff (octets : List UInt8) (fresh : ℕ → UInt8) :
    (∃ r, Lib.loop .endless (copyTurn (some octets) ((octets.length + 1) / 2)) 256 ⟨0, 1, fresh⟩ = .ok r ∧
        ((List.range ((octets.length + 1) / 2)).map r.handle).map UInt8.toNat = characters octets) ↔
      octets.length % 2 = 0 ∧ octets.length ≤ 510 ∧ ∀ k, 2 * k + 1 < octets.length →
        octets.getD (2 * k) 0 = 0 ∧ octets.getD (2 * k + 1) 0 = octets.getD ((2 * k + 1) % 256) 0 := by
  rcases Nat.mod_two_eq_zero_or_one octets.length with heven | hodd
  · rw [and_iff_right heven, show (octets.length + 1) / 2 = octets.length / 2 by omega]
    rcases Nat.lt_or_ge (octets.length / 2) 256 with hshort | hlong
    · rw [and_iff_right (show octets.length ≤ 510 by omega)]
      rcases (@copy_short (some octets) _) hshort 256 0 fresh (Nat.zero_le _) hshort with
        ⟨i, -, hi, hfault, -⟩ | ⟨r, hloop, -, hcopied⟩
      · -- Every octet that is looked for is there.
        obtain ⟨octet, hread, -⟩ := exists_readOctet (show (2 * i + 1) % 256 < octets.length by omega)
        exact absurd (hread.symm.trans hfault) (by simp)
      · rw [← handle_eq_iff (r := r) fun i hi => (getD_of_readOctet (hcopied i (Nat.zero_le i) hi)).2.symm]
        constructor
        · rintro ⟨r', hloop', hhandle⟩
          exact Except.ok.inj (hloop.symm.trans hloop') ▸ hhandle
        · exact fun hhandle => ⟨r, hloop, hhandle⟩
    · refine iff_of_false ?_ fun h => absurd h.1 (by omega)
      rintro ⟨r, hloop, -⟩
      exact copy_long hlong 256 _ (Nat.zero_lt_succ 255) r hloop
  · -- The handle has one character more than the header.
    refine iff_of_false ?_ fun h => absurd h.1 (by omega)
    rintro ⟨r, -, hhandle⟩
    have hlength := congrArg List.length hhandle
    rw [length_map, length_map, length_range, length_characters] at hlength
    omega

/-- Without a header, only an empty handle is delivered. -/
theorem copied_none_iff (len : ℕ) (fresh : ℕ → UInt8) :
    (∃ r, Lib.loop .endless (copyTurn none ((len + 1) / 2)) 256 ⟨0, 1, fresh⟩ = .ok r) ↔ len = 0 := by
  constructor
  · rintro ⟨r, hloop⟩
    by_contra hpos
    rcases Nat.lt_or_ge ((len + 1) / 2) 256 with hshort | hlong
    · rcases (@copy_short none _) hshort 256 0 fresh (Nat.zero_le _) hshort with ⟨-, -, -, -, hfault⟩ | ⟨r', -, -, hcopied⟩
      · exact absurd (hloop.symm.trans hfault) (by simp)
      · exact absurd (hcopied 0 (Nat.le_refl 0) (by omega)) (by simp [readOctet])
    · exact copy_long hlong 256 _ (Nat.zero_lt_succ 255) r hloop
  · rintro rfl
    exact ⟨_, rfl⟩

end

theorem putMessageCfm_eq_ok {status : Status} {len : BitVec 16} {nameHdr : Option (List UInt8)} {fresh : ℕ → UInt8}
    {m : PutMessageCfm} : mapcMasPutMessageCfm status len nameHdr fresh = .ok m ↔
      ∃ r, Lib.loop .endless (copyTurn nameHdr ((len.toNat + 1) / 2)) 256 ⟨0, 1, fresh⟩ = .ok r ∧
        ⟨status, (len.toNat + 1) / 2, (List.range ((len.toNat + 1) / 2)).map r.handle⟩ = m := by
  rw [mapcMasPutMessageCfm]
  cases Lib.loop .endless (copyTurn nameHdr ((len.toNat + 1) / 2)) 256 ⟨0, 1, fresh⟩ with
  | error e => simp
  | ok r => simp

theorem map_cfm_eq_ok {x : Except Fault PutMessageCfm} {m : PutMessageCfm} :
    PutAnswer.cfm <$> x = .ok (.cfm m) ↔ x = .ok m := by
  cases x with
  | error e => exact iff_of_false (fun h => absurd h (by simp)) fun h => absurd h (by simp)
  | ok m' => simp

/-- What the handler does at the end of a message. -/
theorem handlePutMessageResp_eq {status : Status} (hstatus : status = .success ∨ status = .pending)
    (src : Option (List UInt8)) (objLen : BitVec 16) (fresh : ℕ → UInt8) :
    mapcMasHandlePutMessageResp status 0 true src objLen fresh = PutAnswer.cfm <$>
      if (src.getD []).length < objLen.toNat then mapcMasPutMessageCfm .invalidParameter objLen none fresh
      else mapcMasPutMessageCfm status objLen (src.map (·.take objLen.toNat)) fresh := by
  rw [mapcMasHandlePutMessageResp, if_neg fun h => h.2 rfl, if_pos ⟨rfl, hstatus⟩]
  split <;> rfl

/-- The handle is delivered exactly from such headers. -/
theorem delivers_iff (src : Option (List UInt8)) (objLen : BitVec 16) : Delivers src objLen ↔ Deliverable src objLen := by
  rcases Nat.lt_or_ge (src.getD []).length objLen.toNat with hshort | hwhole
  · -- The status says so, but the header is read through no pointer.
    refine iff_of_false (fun h => ?_) fun h => absurd h.1 (Nat.not_le.mpr hshort)
    obtain ⟨m, hm, -⟩ := h .success (fun _ => 0) (.inl rfl)
    rw [handlePutMessageResp_eq (.inl rfl), if_pos hshort, map_cfm_eq_ok, putMessageCfm_eq_ok] at hm
    obtain ⟨r, hloop, -⟩ := hm
    have hzero := (copied_none_iff objLen.toNat fun _ => 0).mp ⟨r, hloop⟩
    omega
  · have hnot := Nat.not_lt.mpr hwhole
    have hname : nameOctets src objLen = (src.getD []).take objLen.toNat := if_neg hnot
    cases src with
    | none =>
      have hzero : objLen.toNat = 0 := Nat.eq_zero_of_le_zero hwhole
      refine iff_of_true (fun status fresh hstatus => ?_) ⟨hwhole, by rw [hzero], by omega, fun k hk => by omega⟩
      obtain ⟨r, hloop⟩ := (copied_none_iff objLen.toNat fresh).mpr hzero
      refine ⟨⟨status, (objLen.toNat + 1) / 2, (List.range ((objLen.toNat + 1) / 2)).map r.handle⟩, ?_, ?_⟩
      · rw [handlePutMessageResp_eq hstatus, if_neg hnot, map_cfm_eq_ok, putMessageCfm_eq_ok]
        exact ⟨r, hloop, rfl⟩
      · dsimp only
        rw [hname, hzero]
        rfl
    | some octets =>
      rw [Option.getD_some] at hwhole hname
      have hlength : (octets.take objLen.toNat).length = objLen.toNat := by
        rw [length_take]
        omega
      have hget {i : ℕ} (hi : i < objLen.toNat) : (octets.take objLen.toNat).getD i 0 = octets.getD i 0 := by
        rw [getD_eq_getElem?_getD, List.getElem?_take_of_lt hi, getD_eq_getElem?_getD]
      have hcopied (fresh : ℕ → UInt8) := copied_iff (octets.take objLen.toNat) fresh
      rw [hlength] at hcopied
      have hcond : Deliverable (some octets) objLen ↔ objLen.toNat % 2 = 0 ∧ objLen.toNat ≤ 510 ∧
          ∀ k, 2 * k + 1 < objLen.toNat → (octets.take objLen.toNat).getD (2 * k) 0 = 0 ∧
            (octets.take objLen.toNat).getD (2 * k + 1) 0 = (octets.take objLen.toNat).getD ((2 * k + 1) % 256) 0 := by
        rw [Deliverable, Option.getD_some, and_iff_right hwhole]
        refine and_congr_right fun _ => and_congr_right fun _ => forall₂_congr fun k hk => ?_
        rw [hget (show 2 * k < objLen.toNat by omega), hget hk, hget (show (2 * k + 1) % 256 < objLen.toNat by omega)]
      rw [hcond]
      constructor
      · intro h
        obtain ⟨m, hm, hhandle⟩ := h .success (fun _ => 0) (.inl rfl)
        rw [handlePutMessageResp_eq (.inl rfl), if_neg hnot, map_cfm_eq_ok, putMessageCfm_eq_ok] at hm
        obtain ⟨r, hloop, rfl⟩ := hm
        rw [hname] at hhandle
        exact (hcopied _).mp ⟨r, hloop, hhandle⟩
      · intro h status fresh hstatus
        obtain ⟨r, hloop, hhandle⟩ := (hcopied fresh).mpr h
        refine ⟨⟨status, (objLen.toNat + 1) / 2, (List.range ((objLen.toNat + 1) / 2)).map r.handle⟩, ?_, ?_⟩
        · rw [handlePutMessageResp_eq hstatus, if_neg hnot, map_cfm_eq_ok, putMessageCfm_eq_ok]
          exact ⟨r, hloop, rfl⟩
        · rw [hname]
          exact hhandle

/-! ### The size of a listing -/

/-- One turn of the loop over the parameters, with an offset of sixteen bits: it ends with the size or without one. -/
def listTurn (sizeId : UInt8) (appParam : List UInt8) (offset : ℕ) : Except Fault (Option ℕ) ⊕ ℕ :=
  if offset + 4 ≤ appParam.length then
    match readOctet (some appParam) offset with
    | .error e => .inl (.error e)
    | .ok tag =>
      if tag = sizeId then
        -- The length of the parameter is not looked at.
        .inl do
          let high ← readOctet (some appParam) (offset + 2)
          let low ← readOctet (some appParam) (offset + 3)
          pure (some (high.toNat * 256 + low.toNat))
      else
        match readOctet (some appParam) (offset + 1) with
        | .error e => .inl (.error e)
        | .ok length => .inr ((offset + (2 + length.toNat)) % 65536)
  else .inl (.ok none)

/-- The response to a request for a listing. `appParam` is the block of application parameters and `body` what
`ObexObjFilterHdrValue` gives for the body; the first of the two results is the parameter that the task keeps. -/
def mapcMasParseListResp (sizeId : UInt8) (appParam : Option (List UInt8)) (body : Option ℕ) (lastAppParam : ℕ) :
    Except Fault (ℕ × ℕ) := do
  let kept ← match appParam with
    | none => pure lastAppParam
    | some block =>
      match Lib.search (listTurn sizeId block) 65536 0 with
      | none => .error .endless
      | some size => (·.getD lastAppParam) <$> size
  pure (kept, body.getD 0)

/-- The first complete size parameter of the block has this value. -/
def HasSize (sizeId : UInt8) (block : List UInt8) (size : ℕ) : Prop :=
  ∃ (params : List TagValue) (high low : UInt8) (rest : List UInt8),
    block = TagValue.encode params ++ (sizeId :: 2 :: high :: low :: rest) ∧
      (∀ e ∈ params, ¬(e.tag = sizeId ∧ e.value.length = 2)) ∧ size = high.toNat * 256 + low.toNat

/-- **The promise** for a block of application parameters: the task keeps the size of the listing if the block has one, and
what it had if not. -/
def Lists (sizeId : UInt8) (block : List UInt8) : Prop :=
  ∀ (body : Option ℕ) (last : ℕ), ∃ kept,
    mapcMasParseListResp sizeId (some block) body last = .ok (kept, body.getD 0) ∧
      ((∃ size, HasSize sizeId block size) → HasSize sizeId block kept) ∧
        ((¬∃ size, HasSize sizeId block size) → kept = last)

/-- The positions of the parameters up to the first with the tag of the size. -/
inductive Walks (sizeId : UInt8) (block : List UInt8) : ℕ → Prop
  | start : Walks sizeId block 0
  | next {p : ℕ} {tag length : UInt8} : Walks sizeId block p → p + 4 ≤ block.length → block[p]? = some tag → tag ≠ sizeId →
      block[p + 1]? = some length → Walks sizeId block (p + (2 + length.toNat))

/-- Either the loop comes to the end of the block, or what stands behind the first tag of the size is the value of the first
complete size parameter. -/
def Listable (sizeId : UInt8) (block : List UInt8) : Prop :=
  (∃ p, Lib.Visits (listTurn sizeId block) 0 p ∧ block.length < p + 4) ∨
    ∃ p high low, Walks sizeId block p ∧ block[p]? = some sizeId ∧ block[p + 2]? = some high ∧ block[p + 3]? = some low ∧
      HasSize sizeId block (high.toNat * 256 + low.toNat)

section

variable {sizeId : UInt8} {block : List UInt8} {p : ℕ}

theorem listTurn_end (h : block.length < p + 4) : listTurn sizeId block p = .inl (.ok none) :=
  if_neg (Nat.not_le.mpr h)

theorem listTurn_size {high low : UInt8} (htag : block[p]? = some sizeId) (hhigh : block[p + 2]? = some high)
    (hlow : block[p + 3]? = some low) : listTurn sizeId block p = .inl (.ok (some (high.toNat * 256 + low.toNat))) := by
  have hlen : p + 4 ≤ block.length := (List.getElem?_eq_some_iff.mp hlow).1
  rw [listTurn, if_pos hlen, readOctet_of_getElem? htag]
  dsimp only
  rw [if_pos rfl, readOctet_of_getElem? hhigh, readOctet_of_getElem? hlow]
  rfl

theorem listTurn_next {tag length : UInt8} (hlen : p + 4 ≤ block.length) (htag : block[p]? = some tag) (hne : tag ≠ sizeId)
    (hlength : block[p + 1]? = some length) : listTurn sizeId block p = .inr ((p + (2 + length.toNat)) % 65536) := by
  rw [listTurn, if_pos hlen, readOctet_of_getElem? htag]
  dsimp only
  rw [if_neg hne, readOctet_of_getElem? hlength]

/-- What a turn does: it reads nothing outside of the block. -/
theorem listTurn_cases (sizeId : UInt8) (block : List UInt8) (p : ℕ) :
    (block.length < p + 4 ∧ listTurn sizeId block p = .inl (.ok none)) ∨
    (∃ high low : UInt8, block[p]? = some sizeId ∧ block[p + 2]? = some high ∧ block[p + 3]? = some low ∧
      listTurn sizeId block p = .inl (.ok (some (high.toNat * 256 + low.toNat)))) ∨
    (∃ length : UInt8, listTurn sizeId block p = .inr ((p + (2 + length.toNat)) % 65536)) := by
  rcases Nat.lt_or_ge block.length (p + 4) with hend | hlen
  · exact .inl ⟨hend, listTurn_end hend⟩
  · have htag := List.getElem?_eq_getElem (show p < block.length by omega)
    have hlength := List.getElem?_eq_getElem (show p + 1 < block.length by omega)
    have hhigh := List.getElem?_eq_getElem (show p + 2 < block.length by omega)
    have hlow := List.getElem?_eq_getElem (show p + 3 < block.length by omega)
    by_cases hsize : block[p] = sizeId
    · rw [hsize] at htag
      exact .inr (.inl ⟨_, _, htag, hhigh, hlow, listTurn_size htag hhigh hlow⟩)
    · exact .inr (.inr ⟨_, listTurn_next hlen htag hsize hlength⟩)

theorem listTurn_lt (q : ℕ) (h : listTurn sizeId block p = .inr q) : q < 65536 := by
  obtain ⟨-, hturn⟩ | ⟨high, low, -, -, -, hturn⟩ | ⟨length, hturn⟩ := listTurn_cases sizeId block p
  · exact absurd (hturn.symm.trans h) Sum.inl_ne_inr
  · exact absurd (hturn.symm.trans h) Sum.inl_ne_inr
  · exact Sum.inr.inj (hturn.symm.trans h) ▸ Nat.mod_lt _ (by decide)

theorem listTurn_eq_inl_iff (r : Except Fault (Option ℕ)) :
    Lib.search (listTurn sizeId block) 65536 0 = some r ↔
      ∃ p, Lib.Visits (listTurn sizeId block) 0 p ∧ listTurn sizeId block p = .inl r :=
  search_eq_some_iff (by decide) (fun _ q => listTurn_lt q) (Nat.le_refl _)

/-- The loop comes to every parameter up to the size: the offset does not wrap inside of the block. -/
theorem Walks.visits (hblock : block.length < 65536) (h : Walks sizeId block p) (hp : p < block.length) :
    Lib.Visits (listTurn sizeId block) 0 p := by
  induction h with
  | start => exact .start
  | next _ hlen htag hne hlength ih =>
    have hturn := listTurn_next hlen htag hne hlength
    rw [Nat.mod_eq_of_lt (Nat.lt_trans hp hblock)] at hturn
    exact .next (ih (by omega)) hturn

/-- A block with a complete size has a first tag of the size, with two octets behind its length. -/
theorem exists_walks {params : List TagValue} {before : List UInt8} (hwalks : Walks sizeId block before.length)
    {high low : UInt8} {rest : List UInt8}
    (hblock : block = before ++ (TagValue.encode params ++ (sizeId :: 2 :: high :: low :: rest))) :
    ∃ p high low, Walks sizeId block p ∧ block[p]? = some sizeId ∧ block[p + 2]? = some high ∧ block[p + 3]? = some low := by
  induction params generalizing before with
  | nil =>
    rw [TagValue.encode_nil, nil_append] at hblock
    refine ⟨before.length, high, low, hwalks, ?_, ?_, ?_⟩ <;>
      simp [hblock]
  | cons e params ih =>
    have hlength : before.length + e.value.length + 6 ≤ block.length := by
      simp only [hblock, length_append, TagValue.encode_cons, TagValue.length_octets, length_cons]
      omega
    rw [TagValue.encode_cons, append_assoc] at hblock
    have htag : block[before.length]? = some e.tag := hblock ▸ TagValue.getElem?_entry ..
    by_cases hsize : e.tag = sizeId
    · exact ⟨before.length, _, _, hwalks, hsize ▸ htag, List.getElem?_eq_getElem (by omega),
        List.getElem?_eq_getElem (by omega)⟩
    · have hnext := hwalks.next (by omega) htag hsize (hblock ▸ TagValue.getElem?_entry_length ..)
      rw [TagValue.toNat_length, Nat.add_comm 2, ← TagValue.length_octets, ← length_append] at hnext
      exact ih hnext (by rw [hblock, append_assoc])

theorem HasSize.walks {size : ℕ} (h : HasSize sizeId block size) :
    ∃ p high low, Walks sizeId block p ∧ block[p]? = some sizeId ∧ block[p + 2]? = some high ∧ block[p + 3]? = some low := by
  obtain ⟨params, high, low, rest, hblock, -, -⟩ := h
  exact @exists_walks _ _ _ [] .start high low rest (hblock.trans (nil_append _).symm)

/-- The loop ends with what stands behind the first tag of the size. -/
theorem search_walks (hblock : block.length < 65536) {high low : UInt8} (hwalks : Walks sizeId block p)
    (htag : block[p]? = some sizeId) (hhigh : block[p + 2]? = some high) (hlow : block[p + 3]? = some low) :
    Lib.search (listTurn sizeId block) 65536 0 = some (.ok (some (high.toNat * 256 + low.toNat))) :=
  (listTurn_eq_inl_iff _).mpr
    ⟨p, hwalks.visits hblock (List.getElem?_eq_some_iff.mp htag).1, listTurn_size htag hhigh hlow⟩

theorem parseListResp_some {report : Option ℕ} (h : Lib.search (listTurn sizeId block) 65536 0 = some (.ok report))
    (body : Option ℕ) (last : ℕ) :
    mapcMasParseListResp sizeId (some block) body last = .ok (report.getD last, body.getD 0) := by
  rw [mapcMasParseListResp]
  dsimp only
  rw [h]
  rfl

/-- The size of the listing is found exactly in such blocks. -/
theorem lists_iff (hblock : block.length < 65536) : Lists sizeId block ↔ Listable sizeId block := by
  constructor
  · intro h
    rcases hsearch : Lib.search (listTurn sizeId block) 65536 0 with _ | r
    · obtain ⟨kept, hkept, -⟩ := h none 0
      rw [mapcMasParseListResp] at hkept
      dsimp only at hkept
      rw [hsearch] at hkept
      exact absurd hkept (by simp [bind, Except.bind])
    · obtain ⟨p, hvisits, hturn⟩ := (listTurn_eq_inl_iff _).mp hsearch
      obtain ⟨hend, -⟩ | ⟨high, low, -, -, -, hturn'⟩ | ⟨length, hturn'⟩ := listTurn_cases sizeId block p
      · exact .inl ⟨p, hvisits, hend⟩
      · obtain rfl := Sum.inl.inj (hturn'.symm.trans hturn)
        by_cases hsize : ∃ size, HasSize sizeId block size
        · obtain ⟨size, hsize⟩ := hsize
          obtain ⟨p', high', low', hwalks, htag, hhigh, hlow⟩ := hsize.walks
          obtain ⟨kept, hkept, hhas, -⟩ := h none 0
          rw [parseListResp_some (search_walks hblock hwalks htag hhigh hlow)] at hkept
          obtain rfl := congrArg Prod.fst (Except.ok.inj hkept)
          exact .inr ⟨p', high', low', hwalks, htag, hhigh, hlow, hhas ⟨size, hsize⟩⟩
        · -- what is found is no size, and cannot be what the task had whatever that was
          obtain ⟨kept, hkept, -, hlast⟩ := h none (high.toNat * 256 + low.toNat + 1)
          rw [parseListResp_some hsearch, hlast hsize] at hkept
          have heq : high.toNat * 256 + low.toNat = _ := congrArg Prod.fst (Except.ok.inj hkept)
          omega
      · exact absurd (hturn.symm.trans hturn') Sum.inl_ne_inr
  · rintro (⟨p, hvisits, hend⟩ | ⟨p, high, low, hwalks, htag, hhigh, hlow, hsize⟩) body last
    · have hsearch := (listTurn_eq_inl_iff _).mpr ⟨p, hvisits, listTurn_end hend⟩
      have hnone : ¬∃ size, HasSize sizeId block size := by
        rintro ⟨size, hsize⟩
        obtain ⟨p', high, low, hwalks, htag, hhigh, hlow⟩ := hsize.walks
        exact absurd (hsearch.symm.trans (search_walks hblock hwalks htag hhigh hlow)) (by simp)
      exact ⟨last, parseListResp_some hsearch body last, fun h => absurd h hnone, fun _ => rfl⟩
    · exact ⟨_, parseListResp_some (search_walks hblock hwalks htag hhigh hlow) body last, fun _ => hsize,
        fun h => absurd ⟨_, hsize⟩ h⟩

end

/-- The responses of the message access server are parsed as promised exactly for such headers and blocks. -/
theorem responses_iff (src : Option (List UInt8)) (objLen : BitVec 16) (sizeId : UInt8) (block : List UInt8)
    (hblock : block.length < 65536) :
    (Delivers src objLen ↔ Deliverable src objLen) ∧ (Lists sizeId block ↔ Listable sizeId block) :=
  ⟨delivers_iff src objLen, lists_iff hblock⟩

/-- An empty header, and a block with nothing but a size. -/
theorem responses_empty : [0x12, 2, 0, 5].length < 65536 ∧ (Delivers (some []) 0 ↔ Deliverable (some []) 0) ∧
    (Lists 0x12 [0x12, 2, 0, 5] ↔ Listable 0x12 [0x12, 2, 0, 5]) :=
  ⟨by decide, responses_iff (some []) 0 0x12 [0x12, 2, 0, 5] (by decide)⟩

/-- A response with other headers and no Name header, and a block whose size parameter has one octet. -/
theorem responses_broken : ¬Delivers none 3 ∧ ¬Lists 0x12 [0x12, 1, 5, 0x13] := by
  constructor
  · intro h
    obtain ⟨m, hm, -⟩ := h .success (fun _ => 0) (.inl rfl)
    have hfault : mapcMasHandlePutMessageResp .success 0 true none 3 (fun _ => 0) = .error .outside := rfl
    exact absurd (hfault.symm.trans hm) (by simp)
  · intro h
    obtain ⟨kept, hkept, -, hlast⟩ := h none 0
    have hnone : ¬∃ size, HasSize 0x12 [0x12, 1, 5, 0x13] size := by
      rintro ⟨size, params, high, low, rest, hblock, -, -⟩
      rcases params with _ | ⟨e, params⟩
      · exact absurd (List.cons.inj (List.cons.inj hblock).2).1 (by decide)
      · have hlength := congrArg List.length hblock
        simp only [length_append, TagValue.encode_cons, TagValue.length_octets, length_cons,
          length_nil] at hlength
        omega
    rw [hlast hnone] at hkept
    exact absurd hkept (by decide)

end Cbps.Mapc
