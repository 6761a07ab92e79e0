import Cbps.Obex.Append
import Mathlib.Data.List.GetD

/-!
# Unicode headers

`obexAddUnicodeHeader` copies the string with 8-bit counters: `textAt` is what its loop has
written after `n` octets, and the header carries this text. The loop ends for strings of less
than 256 octets only.
-/

namespace Cbps.Obex

open Lib List

open Lib (writeAt)

/-! ### Unicode text -/

/-- The big-endian 16-bit form of an octet string. -/
def wide (str : List UInt8) : List UInt8 := str.flatMap fun c => [0, c]

/-- The big-endian 16-bit form of a name, ended by one 16-bit zero. -/
def unicodeText (name : List UInt8) : List UInt8 :=
  wide (if name.getLast? = some 0 then name else name ++ [0])

@[simp] theorem length_wide (str : List UInt8) : (wide str).length = 2 * str.length := by
  induction str with
  | nil => rfl
  | cons c str ih => simp [wide]; omega

theorem wide_append (xs ys : List UInt8) : wide (xs ++ ys) = wide xs ++ wide ys :=
  flatMap_append

theorem wide_injective {xs ys : List UInt8} (h : wide xs = wide ys) : xs = ys := by
  induction xs generalizing ys with
  | nil =>
    have := congrArg List.length h
    simp only [length_wide, length_nil] at this
    exact (eq_nil_of_length_eq_zero (by omega)).symm
  | cons x xs ih =>
    cases ys with
    | nil => simp [wide] at h
    | cons y ys =>
      simp only [wide, flatMap_cons, cons_append, nil_append, List.cons.injEq,
        true_and] at h
      rw [h.1, ih h.2]

theorem wide_set (a b z : List UInt8) (x y : UInt8) :
    (wide (a ++ y :: b) ++ z).set (1 + 2 * a.length) x = wide (a ++ x :: b) ++ z := by
  have hsplit : ∀ c : UInt8, wide (a ++ c :: b) ++ z = wide a ++ (0 :: c :: (wide b ++ z)) :=
    fun c => by simp [wide]
  rw [hsplit, hsplit, set_append_right _ _ (by rw [length_wide]; omega), length_wide,
    Nat.add_sub_cancel]
  rfl

/-- The octets that the copy loop has taken over after `n` iterations: from the 129th on the
8-bit index into the text starts over. -/
def copied (str : List UInt8) (n : ℕ) : List UInt8 :=
  if n ≤ 128 then str.take n else (str.take n).drop 128 ++ (str.take 128).drop (n - 128)

/-- The text in the buffer after `n` iterations of the copy loop. -/
def textAt (str : List UInt8) (len n : ℕ) : List UInt8 :=
  wide (copied str n) ++ List.replicate (len - 2 * min n 128) 0

variable {str : List UInt8}

theorem length_copied {n : ℕ} (hn : n ≤ str.length) (h256 : n ≤ 256) :
    (copied str n).length = min n 128 := by
  rw [copied]
  split
  · rw [length_take]
    omega
  · simp only [length_append, length_drop, length_take]
    omega

theorem textAt_zero (str : List UInt8) (len : ℕ) : textAt str len 0 = List.replicate len 0 := by
  simp [textAt, copied, wide]

theorem take_succ_getD {n : ℕ} (hn : n < str.length) :
    str.take (n + 1) = str.take n ++ [str.getD n 0] := by
  rw [getD_eq_getElem _ _ hn, take_succ_eq_append_getElem hn]

theorem drop_take_getD {m n : ℕ} (hm : m < n) (hn : n ≤ str.length) :
    (str.take n).drop m = str.getD m 0 :: (str.take n).drop (m + 1) := by
  have hlt : m < (str.take n).length := by
    rw [length_take_of_le hn]
    exact hm
  have hget : (str.take n)[m] = str.getD m 0 := by
    rw [getD_eq_getElem _ _ (Nat.lt_of_lt_of_le hm hn), getElem_take]
  rw [drop_eq_getElem_cons hlt, hget]

/-- One iteration of the copy loop. -/
theorem textAt_succ {len n : ℕ} (hn : n < str.length) (h256 : n < 256)
    (hlen : 2 * str.length ≤ len) :
    (textAt str len n).set ((1 + 2 * n) % 256) (str.getD n 0) = textAt str len (n + 1) := by
  have hsucc := take_succ_getD hn
  have htake : (str.take n).length = n := length_take_of_le (Nat.le_of_lt hn)
  rcases Nat.lt_or_ge n 128 with h | h
  · have hzeros : len - 2 * min n 128 = 2 + (len - 2 * min (n + 1) 128) := by omega
    have hcells : textAt str len n =
        wide (str.take n ++ [0]) ++ List.replicate (len - 2 * min (n + 1) 128) 0 := by
      rw [textAt, copied, if_pos (by omega), hzeros, replicate_add, wide_append,
        append_assoc]
      rfl
    have hnext : textAt str len (n + 1) =
        wide (str.take n ++ [str.getD n 0]) ++ List.replicate (len - 2 * min (n + 1) 128) 0 := by
      simp only [textAt, copied, if_pos (show n + 1 ≤ 128 by omega), hsucc]
    have hpos : (1 + 2 * n) % 256 = 1 + 2 * (str.take n).length := by omega
    rw [hnext, hpos, hcells]
    exact wide_set _ _ _ _ _
  · have hhead : ((str.take n).drop 128).length = n - 128 := by rw [length_drop, htake]
    have hold : (str.take 128).drop (n - 128) =
        str.getD (n - 128) 0 :: (str.take 128).drop (n - 128 + 1) :=
      drop_take_getD (by omega) (by omega)
    have hnew : (str.take (n + 1)).drop 128 = (str.take n).drop 128 ++ [str.getD n 0] := by
      rw [hsucc, drop_append_of_le_length (by rw [htake]; exact h)]
    have hcopied : copied str n =
        (str.take n).drop 128 ++ str.getD (n - 128) 0 :: (str.take 128).drop (n - 128 + 1) := by
      rw [copied, ← hold]
      split
      · obtain rfl : n = 128 := by omega
        rw [drop_eq_nil_of_le (Nat.le_of_eq htake), nil_append, Nat.sub_self,
          drop_zero]
      · rfl
    have hsub : n + 1 - 128 = n - 128 + 1 := by omega
    have hmin : min (n + 1) 128 = min n 128 := by omega
    have hnext : textAt str len (n + 1) = wide ((str.take n).drop 128 ++
        str.getD n 0 :: (str.take 128).drop (n - 128 + 1)) ++
        List.replicate (len - 2 * min n 128) 0 := by
      simp only [textAt, copied, if_neg (show ¬ n + 1 ≤ 128 by omega), hnew, hmin, hsub,
        append_assoc, singleton_append]
    have hpos : (1 + 2 * n) % 256 = 1 + 2 * ((str.take n).drop 128).length := by omega
    rw [hnext, hpos, textAt, hcopied]
    exact wide_set _ _ _ _ _

/-- The copy loop on a buffer that holds the text at an offset. -/
theorem unicodeLoop_text {pre post str : List UInt8} {len n : ℕ} {s : Session} (fuel : ℕ)
    (h256 : str.length < 256) (hlen : 2 * str.length ≤ len) (hn : n ≤ str.length)
    (hfuel : str.length - n < fuel) (hs : s.sink.claimed = pre ++ (textAt str len n ++ post)) :
    ∃ k, unicodeLoop pre.length str fuel (UInt8.ofNat n) (UInt8.ofNat (1 + 2 * n)) s =
        some (s.setSink k) ∧
      k.claimed = pre ++ (textAt str len str.length ++ post) ∧ k.slack = s.sink.slack := by
  induction fuel generalizing n s with
  | zero => omega
  | succ fuel ih =>
    have hi : (UInt8.ofNat n).toNat = n := by
      rw [UInt8.toNat_ofNat']
      omega
    have hj : (UInt8.ofNat (1 + 2 * n)).toNat = (1 + 2 * n) % 256 := UInt8.toNat_ofNat'
    have hi' : UInt8.ofNat n + 1 = UInt8.ofNat (n + 1) := (UInt8.ofNat_add n 1).symm
    have hj' : UInt8.ofNat (1 + 2 * n) + 2 = UInt8.ofNat (1 + 2 * (n + 1)) := by
      rw [Nat.mul_add, ← Nat.add_assoc]
      exact (UInt8.ofNat_add (1 + 2 * n) 2).symm
    rw [unicodeLoop, hi, hj, hi', hj']
    rcases Nat.lt_or_ge n str.length with h | h
    · have hstore : (s.store (pre.length + (1 + 2 * n) % 256) [str.getD n 0]).sink.claimed =
          pre ++ (textAt str len (n + 1) ++ post) := by
        change writeAt s.sink.claimed _ _ = _
        rw [hs, writeAt_append_right, ← textAt_succ h (by omega) hlen]
        refine congrArg (pre ++ ·) ?_
        refine set_append_left _ _ ?_
        rw [textAt, length_append, length_wide, length_copied hn (by omega),
          length_replicate]
        omega
      obtain ⟨k, hloop, hk, hslack⟩ := ih (n := n + 1) h (by omega) hstore
      rw [if_pos h, hloop]
      exact ⟨k, rfl, hk, hslack⟩
    · obtain rfl : n = str.length := by omega
      rw [if_neg (by omega)]
      exact ⟨s.sink, rfl, hs, rfl⟩

/-- With 256 octets or more the 8-bit index stays below the size for ever. -/
theorem unicodeLoop_long {unicode : ℕ} (h : 256 ≤ str.length) (fuel : ℕ)
    (i j : UInt8) (s : Session) : unicodeLoop unicode str fuel i j s = none := by
  induction fuel generalizing i j s with
  | zero => rfl
  | succ fuel ih =>
    rw [unicodeLoop, if_pos (by have := i.toNat_lt; omega), ih]

/-- The size of the Unicode text in the absence of overflow. -/
theorem unicodeLength_eq (before : UInt8) (h : 2 * str.length + 2 < 65536) :
    unicodeLength str before =
      if str = [] then if before ≠ 0 then 2 else 0 else (unicodeText str).length := by
  have hsize : u16 ((str.length : ℤ) * 2) = 2 * str.length := by
    rw [u16]
    omega
  have hmore : u16 (((2 * str.length : ℕ) : ℤ) + 2) = 2 * str.length + 2 := by
    rw [u16]
    omega
  rw [unicodeLength]
  simp only [hsize, hmore]
  by_cases hstr : str = []
  · subst hstr
    rfl
  · have hpos : str.length ≠ 0 := fun h0 => hstr (eq_nil_of_length_eq_zero h0)
    have hlast : str.getLast? = some (str.getD (str.length - 1) 0) := by
      rw [List.getLast?_eq_getElem?, getD_eq_getElem?_getD,
        List.getElem?_eq_getElem (by omega), Option.getD_some]
    rw [if_neg hpos, if_neg hstr, unicodeText, hlast]
    by_cases hzero : str.getD (str.length - 1) 0 = 0
    · rw [hzero]
      simp
    · rw [if_pos hzero, if_neg (by simpa using hzero)]
      simp
      omega

theorem length_textAt {len : ℕ} (h : 2 * str.length ≤ len)
    (h256 : str.length < 256) : (textAt str len str.length).length = len := by
  rw [textAt, length_append, length_wide, length_copied (Nat.le_refl _) (by omega),
    length_replicate]
  omega

theorem two_mul_le_unicodeLength (before : UInt8)
    (h : 2 * str.length + 2 < 65536) : 2 * str.length ≤ unicodeLength str before := by
  rw [unicodeLength_eq before h]
  split
  · next hnil => rw [hnil]; exact Nat.zero_le _
  · rw [unicodeText, length_wide]
    split
    · exact Nat.le_refl _
    · rw [length_append]
      omega

/-- The text ends in a zero before the last octet is set to zero. -/
theorem textAt_set_last (h256 : str.length < 256) (before : UInt8) :
    (textAt str (unicodeLength str before) str.length).set (unicodeLength str before - 1) 0 =
      textAt str (unicodeLength str before) str.length := by
  have hle := two_mul_le_unicodeLength before (show 2 * str.length + 2 < 65536 by omega)
  have hcopied := length_copied (Nat.le_refl str.length) (show str.length ≤ 256 by omega)
  by_cases hzeros : 2 * min str.length 128 < unicodeLength str before
  · rw [textAt, set_append_right _ _ (by rw [length_wide]; omega), set_replicate_self]
  · -- no zeros behind the copied octets: the name has its own terminating zero
    have hlen : unicodeLength str before = 2 * str.length := by omega
    have h128 : str.length ≤ 128 := by omega
    rw [hlen]
    rcases eq_nil_or_concat str with rfl | ⟨init, last, rfl⟩
    · rfl
    · have hlast : last = 0 := by
        by_contra hne
        rw [unicodeLength_eq before (by omega), if_neg (by simp), unicodeText,
          concat_eq_append, List.getLast?_concat, if_neg (by simpa using hne)] at hlen
        simp only [length_wide, length_append, length_cons,
          length_nil] at hlen
        omega
      have hpos : 2 * (init.concat last).length - 1 = 1 + 2 * init.length := by
        rw [length_concat]
        omega
      rw [textAt, copied, if_pos h128, take_length, hpos, concat_eq_append, hlast]
      exact wide_set _ _ _ _ _

/-- `obexAddUnicodeHeader` on fewer than 256 octets appends a header with the copied text. -/
theorem obexAddUnicodeHeader_appended {s : Session} {before : UInt8}
    (h256 : str.length < 256) (h : Room s (unicodeLength str before + 3)) (hdr : UInt8) :
    ∃ t, obexAddUnicodeHeader s hdr str before = some (true, t) ∧
      Appended s t (seqHeader hdr (textAt str (unicodeLength str before) str.length)) := by
  have hle := two_mul_le_unicodeLength before (show 2 * str.length + 2 < 65536 by omega)
  have htext := length_textAt hle h256
  have hset := textAt_set_last h256 before
  set len := unicodeLength str before with hlen
  have hfits := s.sink.fits
  have hsink := h.sink
  obtain ⟨t, hempty, happ⟩ := obexAddEmptyHeader_appended (h.mono (by omega)) hdr
  have hslack := (room_iff_sinkSlack (h.mono (Nat.zero_le _)) _).mp h
  have hroom : Room t len := happ.room (by rw [Nat.add_comm]; exact h)
  have hdest : s.pktLen + 3 = t.pktLen := happ.pktLen.symm
  have htpacket : t.packet.length = t.pktLen := length_take_of_le hroom.packet
  obtain ⟨k, hclaim, hpacket, hclaimed, hbuffer, -⟩ := obexSinkClaim_room hroom
  have hzeros : ((t.setSink k).store t.pktLen (List.replicate len 0)).sink.claimed =
      t.packet ++ (textAt str len 0 ++ k.claimed.drop (t.pktLen + len)) := by
    change writeAt k.claimed t.pktLen (List.replicate len 0) = _
    rw [writeAt_eq (by rw [length_replicate]; exact hclaimed), hpacket, textAt_zero,
      length_replicate, append_assoc]
  obtain ⟨k', hloop, hk', hslack'⟩ := unicodeLoop_text 257 h256 hle (Nat.zero_le _) (by omega)
    hzeros
  have hsize : u16 ((len : ℤ) + (obexSeqHdrSize : ℤ)) =
      (textAt str len str.length).length + obexSeqHdrSize := by
    rw [u16, htext, obexSeqHdrSize]
    omega
  rw [htpacket] at hloop
  change unicodeLoop t.pktLen str 257 0 1 _ = _ at hloop
  rw [obexAddUnicodeHeader, ← hlen, if_neg (by rw [obexSeqHdrSize]; omega)]
  simp only [hempty, hsize, if_true, hclaim, hdest, hloop, Option.map_some]
  refine ⟨_, rfl, ?_⟩
  have hk'len : k'.claimed.length = k.claimed.length := by
    rw [hk']
    simp only [length_append, htext, htpacket, length_drop]
    omega
  have hlast : k'.claimed.length + k'.slack = t.sink.claimed.length + t.sink.slack := by
    rw [hk'len, hslack', ← hbuffer]
    rfl
  have hu16 : u16 ((t.pktLen : ℤ) + (len : ℤ)) = t.pktLen + len := by
    have := k.fits
    rw [u16]
    omega
  -- the final zero falls into the text, or, without a text, into the length field
  obtain ⟨b, hb⟩ : ∃ b, (writeAt k'.claimed (t.pktLen + len - 1) [0]).take (t.pktLen + len) =
      s.packet ++ hdr :: 0 :: b :: textAt str len str.length := by
    rw [take_writeAt_comm, hk', ← append_assoc, take_append_of_le_length (by
      simp only [length_append, htext, htpacket]; omega), take_of_length_le (by
      simp only [length_append, htext, htpacket]; omega)]
    rcases Nat.eq_zero_or_pos len with h0 | h0
    · have hnil : textAt str len str.length = [] := eq_nil_of_length_eq_zero (by omega)
      have hspos : t.pktLen + len - 1 = s.packet.length + 2 := by
        rw [Session.packet, length_take_of_le h.packet]
        omega
      refine ⟨0, ?_⟩
      rw [hnil, append_nil, hspos, happ.packet, writeAt_append_right]
      rfl
    · have hpos : t.pktLen + len - 1 = t.packet.length + (len - 1) := by omega
      refine ⟨3, ?_⟩
      rw [hpos, writeAt_append_right]
      change t.packet ++ (textAt str len str.length).set (len - 1) 0 = _
      rw [hset, happ.packet, append_assoc]
      rfl
  refine appended_length (a := 0) (b := b) ?_ h.packet _
  refine ⟨?_, ?_, ?_, ?_, ?_⟩
  · exact happ.framed.trans ((Framed.setSink _ _).trans ((Framed.store _ _ _).trans
      ((Framed.setSink _ _).trans ((Framed.store _ _ _).trans (Framed.setPktLen _ _)))))
  · dsimp only [Session.setPktLen, Session.setSink, Session.store]
    rw [hu16, happ.pktLen]
    simp only [length_cons, length_nil, htext]
    omega
  · dsimp only [Session.packet, Session.setPktLen, Session.setSink, Session.store, Sink.store]
    rw [hu16, ← Session.packet, hb]
  · dsimp only [Session.setPktLen, Session.setSink, Session.store, Sink.store]
    rw [hu16, length_writeAt, hk'len]
    exact hclaimed
  · dsimp only [Session.setPktLen, Session.setSink, Session.store, Sink.store]
    rw [length_writeAt, hlast, happ.buffer]

end Cbps.Obex
