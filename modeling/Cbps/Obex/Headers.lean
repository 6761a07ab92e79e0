import Cbps.Obex.Unicode

/-!
# Header sequences

A sequence of header calls appends its headers one behind the other, and the decoders find the
first header of each opcode again. The encoders and decoders agree on every header except the
long Unicode names, `encodes_iff_supported`.
-/

namespace Cbps.Obex

open List

/-! ### Sequences of header calls -/

/-- A call of one of the four header functions, with an opcode of the class it encodes. -/
inductive HeaderCall
  | uint32 (op : UInt8) (value : ℕ) (cls : isUintHdr op) (fits : value < 2 ^ 32)
  | uint8 (op value : UInt8) (cls : isByteHdr op)
  | seq (op : UInt8) (body : List UInt8) (cls : isByteSeqHdr op)
  | unicode (op : UInt8) (name : List UInt8) (before : UInt8) (cls : isUnicodeHdr op)

namespace HeaderCall

def op : HeaderCall → UInt8
  | uint32 op _ _ _ => op
  | uint8 op _ _ => op
  | seq op _ _ => op
  | unicode op _ _ _ => op

/-- The header that the call is meant to append. -/
def encode : HeaderCall → List UInt8
  | uint32 op value _ _ => uint32Header op value
  | uint8 op value _ => [op, value]
  | seq op body _ => seqHeader op body
  | unicode op name _ _ => seqHeader op (unicodeText name)

def run (s : Session) : HeaderCall → Option (Bool × Session)
  | uint32 op value _ _ => some (obexAddUint32Header s op value)
  | uint8 op value _ => some (obexAddUint8Header s op value)
  | seq op body _ => some (obexAddSeqHeader s op body)
  | unicode op name before _ => obexAddUnicodeHeader s op name before

/-- The decoder of the call's kind finds its value in the `len` octets at `pkt`. -/
def ReadBack (pkt : List UInt8) (len : ℕ) : HeaderCall → Prop
  | uint32 op value _ _ => obexGetUint32Header pkt len op = some value
  | uint8 op value _ => obexGetUint8Header pkt len op = some value
  | seq op body _ => ∃ off, obexGetSeqHeader pkt len op = some (some off, body.length) ∧
      octetsAt pkt off body.length = body
  | unicode op name _ _ =>
      ∃ off, obexGetSeqHeader pkt len op = some (some off, (unicodeText name).length) ∧
        octetsAt pkt off (unicodeText name).length = unicodeText name

/-- A Unicode name that the 8-bit counters of `obexAddUnicodeHeader` can handle: at most 128
octets, or less than 256 with zeros wherever the indices start over. An empty name is read one
octet in front of it. -/
def Supported : HeaderCall → Prop
  | unicode _ name before _ => name.length < 256 ∧ (name = [] → before ≠ 0) ∧
      ∀ c ∈ name.drop 128 ++ name.take (name.length - 128), c = 0
  | _ => True

end HeaderCall

/-- The headers of a list of calls. -/
def encodeHeaders (calls : List HeaderCall) : List UInt8 := calls.flatMap HeaderCall.encode

/-- A sequence of calls, and whether all of them return TRUE. -/
def addHeaders (s : Session) : List HeaderCall → Option (Bool × Session)
  | [] => some (true, s)
  | c :: calls => (c.run s).bind fun (ok, s) => if ok then addHeaders s calls else some (false, s)

/-- The calls return TRUE and append exactly their headers, which the decoders read back. -/
def Encodes (s : Session) (calls : List HeaderCall) : Prop :=
  ∃ t, addHeaders s calls = some (true, t) ∧ t.packet = s.packet ++ encodeHeaders calls ∧
    t.pktLen = s.pktLen + (encodeHeaders calls).length ∧
    ∀ op c, calls.find? (fun c => c.op = op) = some c →
      c.ReadBack (t.sink.claimed.drop s.pktLen) (t.pktLen - s.pktLen)

/-! ### Encoding -/

/-- The copied text is the Unicode text exactly for the supported names. -/
theorem textAt_eq_unicodeText_iff {str : List UInt8} (h256 : str.length < 256) (before : UInt8) :
    textAt str (unicodeLength str before) str.length = unicodeText str ↔
      (str = [] → before ≠ 0) ∧ ∀ c ∈ str.drop 128 ++ str.take (str.length - 128), c = 0 := by
  rw [unicodeLength_eq before (by omega)]
  by_cases hnil : str = []
  · subst hnil
    by_cases hb : before = 0
    · simp [hb, textAt, copied, unicodeText, wide]
    · simp [hb, textAt, copied, unicodeText, wide]
  · rw [if_neg hnil]
    have htext : unicodeText str =
        wide str ++ List.replicate ((unicodeText str).length - 2 * str.length) 0 := by
      rw [unicodeText]
      split
      · simp
      · have hzero : 2 * (str.length + 1) - 2 * str.length = 2 := by omega
        rw [wide_append, length_append, length_wide, length_wide, ← Nat.mul_add,
          length_singleton, hzero]
        rfl
    have hlen : 2 * str.length ≤ (unicodeText str).length := by
      rw [unicodeText, length_wide]
      split
      · exact Nat.le_refl _
      · rw [length_append]
        omega
    generalize (unicodeText str).length = len at htext hlen
    rcases Nat.lt_or_ge 128 str.length with h128 | h128
    · have hcopied : copied str str.length =
          str.drop 128 ++ (str.take 128).drop (str.length - 128) := by
        rw [copied, if_neg (by omega), take_length]
      have hmin : min str.length 128 = 128 := by omega
      have htake : (str.take 128).take (str.length - 128) = str.take (str.length - 128) := by
        rw [take_take, Nat.min_eq_left (by omega)]
      have hsplit : wide str ++ List.replicate (len - 2 * str.length) 0 =
          wide (str.take 128) ++ (wide (str.drop 128) ++
            List.replicate (len - 2 * str.length) 0) := by
        rw [← append_assoc, ← wide_append, List.take_append_drop]
      have hzeros : List.replicate (len - 256) (0 : UInt8) =
          List.replicate (2 * (str.drop 128).length) 0 ++
            List.replicate (len - 2 * str.length) 0 := by
        rw [replicate_append_replicate, length_drop]
        exact congrArg (List.replicate · 0) (by omega)
      have hwide : ∀ xs : List UInt8,
          List.replicate (2 * xs.length) 0 = wide xs ↔ ∀ c ∈ xs, c = 0 := fun xs => by
        have hrep : List.replicate (2 * xs.length) (0 : UInt8) =
            wide (List.replicate xs.length 0) := by
          induction xs with
          | nil => rfl
          | cons x xs ih => simp [wide, Nat.mul_add, replicate_succ] at ih ⊢; exact ih
        rw [hrep]
        refine ⟨fun h c hc => ?_, fun h => ?_⟩
        · rw [← wide_injective h] at hc
          exact eq_of_mem_replicate hc
        · rw [eq_replicate_of_mem h, length_replicate]
      rw [textAt, hcopied, hmin, htext, hsplit, hzeros]
      have hfront : (wide (str.drop 128 ++ (str.take 128).drop (str.length - 128))).length =
          (wide (str.take 128)).length := by
        simp only [length_wide, length_append, length_drop, length_take]
        omega
      have hparts : str.take 128 =
          str.take (str.length - 128) ++ (str.take 128).drop (str.length - 128) := by
        rw [← htake, List.take_append_drop]
      constructor
      · intro h
        obtain ⟨hfirst, hsecond⟩ := append_inj h hfront
        have hsame : str.drop 128 = str.take (str.length - 128) :=
          append_cancel_right ((wide_injective hfirst).trans hparts)
        have hall := (hwide _).mp (append_cancel_right hsecond)
        exact ⟨fun h0 => absurd h0 hnil, fun c hc =>
          (mem_append.mp hc).elim (hall c) fun hc => hall c (hsame ▸ hc)⟩
      · rintro ⟨-, h⟩
        have hdrop := eq_replicate_of_mem fun c hc => h c (mem_append_left _ hc)
        have htake := eq_replicate_of_mem fun c hc => h c (mem_append_right _ hc)
        have hsame : str.drop 128 = str.take (str.length - 128) := by
          rw [hdrop, htake, length_drop, length_take]
          exact congrArg (List.replicate · 0) (by omega)
        rw [hsame, ← hparts, ← hsame, (hwide _).mpr fun c hc => h c (mem_append_left _ hc)]
    · have hcopied : copied str str.length = str := by rw [copied, if_pos h128, take_length]
      have hdrop : str.drop 128 = [] := drop_eq_nil_of_le h128
      have htake : str.take (str.length - 128) = [] := by
        rw [Nat.sub_eq_zero_of_le h128, take_zero]
      rw [textAt, hcopied, htext, Nat.min_eq_left h128, hdrop, htake]
      simp [hnil]

theorem two_mul_lt_unicodeText (name : List UInt8) :
    2 * name.length ≤ (unicodeText name).length ∧ 2 ≤ (unicodeText name).length := by
  rw [unicodeText, length_wide]
  split
  · next h =>
    have : name ≠ [] := by
      rintro rfl
      simp at h
    have := length_pos_iff.mpr this
    omega
  · rw [length_append, length_singleton]
    omega

theorem unicodeLength_le {name : List UInt8} (before : UInt8)
    (h : (unicodeText name).length + 2 < 65536) :
    unicodeLength name before ≤ (unicodeText name).length := by
  have htext := two_mul_lt_unicodeText name
  rw [unicodeLength_eq before (by omega)]
  split
  · split
    · exact htext.2
    · exact Nat.zero_le _
  · exact Nat.le_refl _

/-- A header with a length field shows where it ends. -/
theorem eq_of_seqHeader_append {op : UInt8} {b b' xs ys : List UInt8} (hb : b.length + 3 < 65536)
    (hb' : b'.length + 3 < 65536) (h : seqHeader op b ++ xs = seqHeader op b' ++ ys) : b = b' := by
  simp only [seqHeader, uint16ToUint8, obexSeqHdrSize, cons_append, nil_append,
    List.cons.injEq, true_and] at h
  obtain ⟨hhigh, hlow, htail⟩ := h
  have hhigh := congrArg UInt8.toNat hhigh
  have hlow := congrArg UInt8.toNat hlow
  simp only [UInt8.toNat_ofNat'] at hhigh hlow
  exact (append_inj htail (by omega)).1

variable {c : HeaderCall} {s : Session}

/-- What a call does when there is room for the header it is meant to append: it never
returns, or it returns TRUE, and its header is the right one exactly if the call is supported.
-/
theorem HeaderCall.run_cases (h : Room s c.encode.length) :
    (c.run s = none ∧ ¬ c.Supported) ∨
      ∃ t octets, c.run s = some (true, t) ∧ Appended s t octets ∧
        octets.length ≤ c.encode.length ∧ (c.Supported ↔ octets = c.encode) ∧
        ∀ xs ys, octets ++ xs = c.encode ++ ys → octets = c.encode := by
  have hfits := s.sink.fits
  have hsink := h.sink
  cases c with
  | uint32 op value cls fits =>
    obtain ⟨t, hrun, happ⟩ := obexAddUint32Header_appended h op value
    exact .inr ⟨t, _, congrArg some hrun, happ, Nat.le_refl _, iff_of_true trivial rfl,
      fun _ _ _ => rfl⟩
  | uint8 op value cls =>
    obtain ⟨t, hrun, happ⟩ := obexAddUint8Header_appended h op value
    exact .inr ⟨t, _, congrArg some hrun, happ, Nat.le_refl _, iff_of_true trivial rfl,
      fun _ _ _ => rfl⟩
  | seq op body cls =>
    have hroom : Room s (body.length + 3) := by simpa only [encode, length_seqHeader] using h
    obtain ⟨t, hrun, happ⟩ := obexAddSeqHeader_appended hroom op
    exact .inr ⟨t, _, congrArg some hrun, happ, Nat.le_refl _, iff_of_true trivial rfl,
      fun _ _ _ => rfl⟩
  | unicode op name before cls =>
    simp only [encode, length_seqHeader] at h hsink
    have htext := two_mul_lt_unicodeText name
    have hle := unicodeLength_le before (show (unicodeText name).length + 2 < 65536 by omega)
    have hroom : Room s (unicodeLength name before + 3) := h.mono (by omega)
    rcases Nat.lt_or_ge name.length 256 with h256 | h256
    · obtain ⟨t, hrun, happ⟩ := obexAddUnicodeHeader_appended h256 hroom op
      have hlen := length_textAt (two_mul_le_unicodeLength before (by omega)) h256
      have hiff := textAt_eq_unicodeText_iff h256 before
      refine .inr ⟨t, _, hrun, happ, ?_, ?_, fun xs ys heq => ?_⟩
      · simp only [encode, length_seqHeader, hlen]
        omega
      · refine ⟨fun hsup => congrArg (seqHeader op) (hiff.mpr hsup.2), fun heq => ?_⟩
        have heq' := congrArg (· ++ []) heq
        exact ⟨h256, hiff.mp (eq_of_seqHeader_append (by omega) (by omega) heq')⟩
      · exact congrArg (seqHeader op) (eq_of_seqHeader_append (by omega) (by omega) heq)
    · -- the copy loop never ends
      refine .inl ⟨?_, fun hsup => absurd hsup.1 (by omega)⟩
      obtain ⟨t, hempty, -⟩ := obexAddEmptyHeader_appended (hroom.mono (by omega)) op
      have hslack := (room_iff_sinkSlack (hroom.mono (Nat.zero_le _)) _).mp hroom
      rw [run, obexAddUnicodeHeader, if_neg (by rw [obexSeqHdrSize]; omega)]
      simp only [hempty, if_true, unicodeLoop_long h256, Option.map_none]

theorem encodeHeaders_cons (c : HeaderCall) (calls : List HeaderCall) :
    encodeHeaders (c :: calls) = c.encode ++ encodeHeaders calls := flatMap_cons

variable {calls : List HeaderCall}

/-- With room for all headers the calls never return FALSE. -/
theorem addHeaders_cases (h : Room s (encodeHeaders calls).length) :
    addHeaders s calls = none ∨
      ∃ t octets, addHeaders s calls = some (true, t) ∧ Appended s t octets := by
  induction calls generalizing s with
  | nil => exact .inr ⟨s, [], rfl, Appended.nil h.packet⟩
  | cons c calls ih =>
    rw [encodeHeaders_cons, length_append] at h
    rcases c.run_cases (h.mono (Nat.le_add_right _ _)) with ⟨hrun, -⟩ | ⟨t, octets, hrun, happ, hle, -⟩
    · exact .inl (by rw [addHeaders, hrun]; rfl)
    · rw [addHeaders, hrun]
      have hroom : Room t (encodeHeaders calls).length := happ.room (h.mono (by omega))
      rcases ih hroom with hnone | ⟨u, rest, hsome, happ'⟩
      · exact .inl hnone
      · exact .inr ⟨u, octets ++ rest, hsome, happ.trans happ'⟩

/-- Supported calls append their headers. -/
theorem addHeaders_supported (h : Room s (encodeHeaders calls).length) (hsup : ∀ c ∈ calls, c.Supported) :
    ∃ t, addHeaders s calls = some (true, t) ∧ Appended s t (encodeHeaders calls) := by
  induction calls generalizing s with
  | nil => exact ⟨s, rfl, Appended.nil h.packet⟩
  | cons c calls ih =>
    rw [encodeHeaders_cons, length_append] at h
    have hc := hsup c mem_cons_self
    rcases c.run_cases (h.mono (Nat.le_add_right _ _)) with
      ⟨-, hnot⟩ | ⟨t, octets, hrun, happ, hle, hiff, -⟩
    · exact absurd hc hnot
    · obtain rfl : octets = c.encode := hiff.mp hc
      obtain ⟨u, hrest, happ'⟩ := ih (happ.room h) fun d hd => hsup d (mem_cons_of_mem _ hd)
      rw [addHeaders, hrun, encodeHeaders_cons]
      exact ⟨u, hrest, happ.trans happ'⟩

/-- Calls that append their headers are supported. -/
theorem supported_of_addHeaders {s t : Session}
    (h : Room s (encodeHeaders calls).length) (hrun : addHeaders s calls = some (true, t))
    (hpacket : t.packet = s.packet ++ encodeHeaders calls) : ∀ c ∈ calls, c.Supported := by
  induction calls generalizing s with
  | nil => exact fun c hc => absurd hc not_mem_nil
  | cons c calls ih =>
    rw [encodeHeaders_cons, length_append] at h
    rcases c.run_cases (h.mono (Nat.le_add_right _ _)) with
      ⟨hnone, -⟩ | ⟨u, octets, hsome, happ, hle, hiff, hprefix⟩
    · rw [addHeaders, hnone] at hrun
      exact absurd hrun (by simp)
    · rw [addHeaders, hsome] at hrun
      have hrun' : addHeaders u calls = some (true, t) := hrun
      have hroom : Room u (encodeHeaders calls).length := happ.room (h.mono (by omega))
      rcases addHeaders_cases hroom with hnone | ⟨v, rest, hv, happ'⟩
      · exact absurd (hnone.symm.trans hrun') (by simp)
      · obtain rfl : v = t := by
          rw [hrun'] at hv
          simpa using hv.symm
        have heq : octets ++ rest = c.encode ++ encodeHeaders calls := by
          rw [encodeHeaders_cons, happ'.packet, happ.packet, append_assoc] at hpacket
          exact append_cancel_left hpacket
        obtain rfl := hprefix _ _ heq
        have htail : v.packet = u.packet ++ encodeHeaders calls := by
          rw [happ'.packet, append_cancel_left heq]
        exact forall_mem_cons.mpr ⟨hiff.mpr rfl, ih hroom hrun' htail⟩

/-! ### Decoding -/

theorem HeaderCall.encode_eq_cons (c : HeaderCall) : ∃ tail, c.encode = c.op :: tail := by
  cases c <;> exact ⟨_, rfl⟩

theorem getD_append_head (pre tail : List UInt8) (op : UInt8) :
    (pre ++ op :: tail).getD pre.length 0 = op := by
  rw [getD_append_right _ _ _ _ (Nat.le_refl _), Nat.sub_self]
  rfl

theorem getD_append_add (pre tail : List UInt8) (i : ℕ) :
    (pre ++ tail).getD (pre.length + i) 0 = tail.getD i 0 := by
  rw [getD_append_right _ _ _ _ (Nat.le_add_right _ _), Nat.add_sub_cancel_left]

/-- The length field of a header. -/
theorem uint8ToUint16_seqHeader {op : UInt8} {body : List UInt8} (h : body.length + 3 < 65536)
    (pre post : List UInt8) :
    uint8ToUint16 (pre ++ (seqHeader op body ++ post)) (pre.length + 1) = body.length + 3 := by
  rw [uint8ToUint16, getD_append_add, Nat.add_assoc, getD_append_add]
  simp only [seqHeader, uint16ToUint8, obexSeqHdrSize, cons_append, nil_append,
    getD_cons_succ, getD_cons_zero, UInt8.toNat_ofNat']
  omega

theorem octetsAt_append (pre body post : List UInt8) :
    octetsAt (pre ++ (body ++ post)) pre.length body.length = body := by
  refine ext_getElem (by simp [octetsAt]) fun i hi hi' => ?_
  simp only [octetsAt, getElem_map, getElem_range, getD_append_add]
  rw [getD_append _ _ _ _ hi', getD_eq_getElem _ _ hi']

/-- The header classes exclude one another. -/
theorem byte_class (op : UInt8) : (isByteHdr op → ¬ isUintHdr op) ∧
    (isByteSeqHdr op → ¬ isByteHdr op ∧ ¬ isUintHdr op) ∧
    (isUnicodeHdr op → ¬ isByteHdr op ∧ ¬ isUintHdr op) := by
  simp only [isByteHdr, isUintHdr, isByteSeqHdr, isUnicodeHdr, beq_iff_eq]
  refine ⟨?_, ?_, ?_⟩ <;> intro h <;> rw [h] <;> decide

/-- The scan passes over a header with another opcode. -/
theorem fetchLoop_skip {pre post : List UInt8} {len fuel : ℕ} {op : UInt8}
    (hop : c.op ≠ op) (hlen : pre.length + c.encode.length ≤ len) (h16 : len < 65536) :
    fetchLoop (pre ++ (c.encode ++ post)) len op (fuel + 1) pre.length =
      fetchLoop (pre ++ (c.encode ++ post)) len op fuel (pre.length + c.encode.length) := by
  obtain ⟨tail, htail⟩ := c.encode_eq_cons
  have hpos : len > pre.length := by
    rw [htail, length_cons] at hlen
    omega
  have hhead : (pre ++ (c.encode ++ post)).getD pre.length 0 = c.op := by
    rw [htail, cons_append, getD_append_head]
  have hu16 : ∀ n : ℕ, n = c.encode.length → u16 ((pre.length : ℤ) + (n : ℤ)) =
      pre.length + c.encode.length := fun n hn => by
    rw [hn, u16]
    omega
  rw [fetchLoop, if_pos hpos]
  simp only [hhead, if_neg hop]
  have hclass := byte_class c.op
  cases c with
  | uint32 o value cls fits =>
    rw [if_neg (fun h => hclass.1 h cls),
      if_pos (show isUintHdr (HeaderCall.uint32 o value cls fits).op from cls),
      hu16 obexUintHdrSize rfl]
  | uint8 o value cls =>
    rw [if_pos (show isByteHdr (HeaderCall.uint8 o value cls).op from cls),
      hu16 obexByteHdrSize rfl]
  | seq o body cls =>
    simp only [HeaderCall.encode, length_seqHeader] at hlen ⊢
    rw [if_neg (hclass.2.1 cls).1, if_neg (hclass.2.1 cls).2,
      uint8ToUint16_seqHeader (by omega), hu16 _ (length_seqHeader _ _).symm]
    simp only [HeaderCall.encode, length_seqHeader]
  | unicode o name before cls =>
    simp only [HeaderCall.encode, length_seqHeader] at hlen ⊢
    rw [if_neg (hclass.2.2 cls).1, if_neg (hclass.2.2 cls).2,
      uint8ToUint16_seqHeader (by omega), hu16 _ (length_seqHeader _ _).symm]
    simp only [HeaderCall.encode, length_seqHeader]

/-- The scan finds the first header with the opcode, at the end of those before it. -/
theorem fetchLoop_find {front : List HeaderCall} (pre : List UInt8)
    {post : List UInt8} {len : ℕ} (fuel : ℕ) (hfront : ∀ d ∈ front, d.op ≠ c.op) (hfuel : front.length < fuel)
    (hlen : pre.length + (encodeHeaders front).length < len) (h16 : len < 65536) :
    fetchLoop (pre ++ (encodeHeaders front ++ (c.encode ++ post))) len c.op fuel pre.length =
      some (pre.length + (encodeHeaders front).length) := by
  induction front generalizing pre fuel with
  | nil =>
    obtain ⟨fuel, rfl⟩ : ∃ n, fuel = n + 1 := ⟨fuel - 1, by omega⟩
    obtain ⟨tail, htail⟩ := c.encode_eq_cons
    have hhead : (pre ++ ([] ++ (c.encode ++ post))).getD pre.length 0 = c.op := by
      rw [htail, cons_append, nil_append, getD_append_head]
    simp only [encodeHeaders, flatMap_nil, length_nil, Nat.add_zero] at hlen ⊢
    rw [fetchLoop, if_pos hlen]
    simp only [hhead, if_true]
  | cons d front ih =>
    obtain ⟨fuel, rfl⟩ : ∃ n, fuel = n + 1 := ⟨fuel - 1, by omega⟩
    rw [encodeHeaders_cons, length_append] at hlen ⊢
    have hd := hfront d mem_cons_self
    have hrest := ih (pre ++ d.encode) fuel
      (fun e he => hfront e (mem_cons_of_mem _ he)) (by simpa using hfuel)
      (by rw [length_append]; omega)
    rw [append_assoc, fetchLoop_skip hd (by omega) h16]
    rw [length_append] at hrest
    simp only [append_assoc] at hrest
    rw [hrest, Nat.add_assoc]

theorem two_mul_length_le (calls : List HeaderCall) :
    2 * calls.length ≤ (encodeHeaders calls).length := by
  induction calls with
  | nil => exact Nat.zero_le _
  | cons c calls ih =>
    rw [encodeHeaders_cons, length_append, length_cons]
    have : 2 ≤ c.encode.length := by
      cases c <;> simp [HeaderCall.encode]
    omega

/-- What the decoders return for the first header with an opcode. -/
theorem readBack_first {front back : List HeaderCall} (post : List UInt8)
    (hfront : ∀ d ∈ front, d.op ≠ c.op)
    (h16 : (encodeHeaders (front ++ c :: back)).length < 65536) :
    c.ReadBack (encodeHeaders (front ++ c :: back) ++ post)
      (encodeHeaders (front ++ c :: back)).length := by
  have hsplit : encodeHeaders (front ++ c :: back) =
      encodeHeaders front ++ (c.encode ++ encodeHeaders back) := by
    rw [encodeHeaders, flatMap_append, flatMap_cons]
    rfl
  have hcount := two_mul_length_le front
  obtain ⟨tail, htail⟩ := c.encode_eq_cons
  have hc : 2 ≤ c.encode.length := by
    cases c <;> simp [HeaderCall.encode]
  rw [hsplit] at h16 ⊢
  simp only [length_append] at h16
  have hmem : encodeHeaders front ++ (c.encode ++ encodeHeaders back) ++ post =
      [] ++ (encodeHeaders front ++ (c.encode ++ (encodeHeaders back ++ post))) := by
    simp only [append_assoc, nil_append]
  have hfetch : obexFetchHeader
      (encodeHeaders front ++ (c.encode ++ encodeHeaders back) ++ post)
      (encodeHeaders front ++ (c.encode ++ encodeHeaders back)).length c.op =
      some (encodeHeaders front).length := by
    rw [obexFetchHeader, hmem]
    refine (fetchLoop_find [] 65537 hfront (by omega) ?_ ?_).trans (by simp)
    · simp only [length_append, length_nil]
      omega
    · simp only [length_append]
      omega
  have hvalid : ¬ (encodeHeaders front).length = obexInvalidUint16 := by
    rw [obexInvalidUint16]
    omega
  rw [append_assoc, append_assoc] at hfetch ⊢
  generalize (encodeHeaders front ++ (c.encode ++ encodeHeaders back)).length = len at hfetch ⊢
  generalize encodeHeaders back ++ post = post at hfetch ⊢
  generalize encodeHeaders front = pre at *
  have hseq : ∀ op body, c.op = op → c.encode = seqHeader op body →
      ∃ off, obexGetSeqHeader (pre ++ (c.encode ++ post)) len op = some (some off, body.length) ∧
        octetsAt (pre ++ (c.encode ++ post)) off body.length = body := by
    intro op body hop henc
    have hlen : u16 (((body.length + 3 : ℕ) : ℤ) - (obexSeqHdrSize : ℤ)) = body.length := by
      rw [henc, length_seqHeader] at h16
      rw [u16, obexSeqHdrSize]
      omega
    refine ⟨pre.length + 3, ?_, ?_⟩
    · rw [obexGetSeqHeader, ← hop, hfetch, Option.map_some, if_neg hvalid, henc,
        uint8ToUint16_seqHeader, hlen]
      · rfl
      · rw [henc, length_seqHeader] at h16
        omega
    · have hbody : pre ++ (c.encode ++ post) =
          (pre ++ (op :: uint16ToUint8 (body.length + 3))) ++ (body ++ post) := by
        rw [henc, seqHeader]
        simp [obexSeqHdrSize]
      have hoff : pre.length + 3 = (pre ++ (op :: uint16ToUint8 (body.length + 3))).length := by
        rw [length_append]
        rfl
      rw [hbody, hoff, octetsAt_append]
  cases c with
  | uint32 op value cls fits =>
    change obexGetUint32Header (pre ++ (uint32Header op value ++ post)) len op = some value
    change obexFetchHeader (pre ++ (uint32Header op value ++ post)) len op = _ at hfetch
    rw [obexGetUint32Header, hfetch, Option.map_some, if_neg hvalid]
    simp only [getD_append_add, uint32Header, cons_append, getD_cons_succ,
      getD_cons_zero, UInt8.toNat_ofNat']
    refine congrArg some ?_
    omega
  | uint8 op value cls =>
    change obexGetUint8Header (pre ++ ([op, value] ++ post)) len op = some value
    change obexFetchHeader (pre ++ ([op, value] ++ post)) len op = _ at hfetch
    rw [obexGetUint8Header, hfetch, Option.map_some, if_neg hvalid, getD_append_add]
    rfl
  | seq op body cls => exact hseq op body rfl rfl
  | unicode op name before cls => exact hseq op (unicodeText name) rfl rfl

/-- **Headers encode and decode.** In a session with room for the headers, the calls append
exactly these headers and the decoders read them back, if and only if every Unicode name is one
that the 8-bit counters can handle. -/
theorem encodes_iff_supported {s : Session} {calls : List HeaderCall}
    (h : Room s (encodeHeaders calls).length) :
    Encodes s calls ↔ ∀ c ∈ calls, c.Supported := by
  refine ⟨fun ⟨t, hrun, hpacket, _, _⟩ => supported_of_addHeaders h hrun hpacket, fun hsup => ?_⟩
  obtain ⟨t, hrun, happ⟩ := addHeaders_supported h hsup
  have h16 : (encodeHeaders calls).length < 65536 := by
    have := h.sink
    have := s.sink.fits
    omega
  have hmem : t.sink.claimed.drop s.pktLen =
      encodeHeaders calls ++ t.sink.claimed.drop t.pktLen := by
    have hs : s.packet.length = s.pktLen := length_take_of_le h.packet
    rw [← List.take_append_drop t.pktLen t.sink.claimed]
    change List.drop _ (t.packet ++ _) = _
    rw [happ.packet, append_assoc, ← hs, drop_left, List.take_append_drop]
  have hlen : t.pktLen - s.pktLen = (encodeHeaders calls).length := by
    rw [happ.pktLen, Nat.add_sub_cancel_left]
  refine ⟨t, hrun, happ.packet, happ.pktLen, fun op c hfind => ?_⟩
  obtain ⟨hop, front, back, rfl, hfront⟩ := List.find?_eq_some_iff_append.mp hfind
  rw [hmem, hlen]
  refine readBack_first _ (fun d hd heq => ?_) h16
  have hd' := hfront d hd
  rw [heq] at hd'
  simp_all

/-- A type and a name of one letter go through. -/
theorem encodes_iff_supported_name :
    let s := obexCreateSession .rfcommServer none ⟨[], 600, by decide⟩ []
    let calls := [HeaderCall.seq 0x42 [0x61] rfl, HeaderCall.unicode obexNameHdr [0x61] 0 rfl]
    Room s (encodeHeaders calls).length ∧ Encodes s calls := by
  intro s calls
  have hroom : Room s (encodeHeaders calls).length :=
    ⟨Nat.zero_le _, by decide, by decide⟩
  refine ⟨hroom, (encodes_iff_supported hroom).mpr fun c hc => ?_⟩
  rcases mem_pair.mp hc with rfl | rfl
  · exact trivial
  · exact ⟨by decide, by decide, by simp⟩

/-- A name of 129 letters does not: its last letter is stored over the first one. -/
theorem not_encodes_longName :
    let s := obexCreateSession .rfcommServer none ⟨[], 600, by decide⟩ []
    let calls := [HeaderCall.unicode obexNameHdr (List.replicate 129 0x61) 0 rfl]
    Room s (encodeHeaders calls).length ∧ ¬ Encodes s calls := by
  intro s calls
  have hlen : (encodeHeaders calls).length = 263 := by
    simp [calls, encodeHeaders, HeaderCall.encode, unicodeText, length_wide, replicate_succ]
  have hroom : Room s (encodeHeaders calls).length := by
    rw [hlen]
    exact ⟨Nat.zero_le _, by decide, by decide⟩
  refine ⟨hroom, ?_⟩
  rintro ⟨t, hrun, hpacket, -, -⟩
  obtain ⟨-, -, hzero⟩ := supported_of_addHeaders hroom hrun hpacket _ mem_cons_self
  exact absurd (hzero 0x61 (by simp)) (by decide)

end Cbps.Obex
