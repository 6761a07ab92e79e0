import Cbps.Md5.Transform
import Mathlib.Data.List.GetD

/-!
# MD5: the library computes the RFC 1321 digest

The buffer of a context is at every moment the little-endian packing of the octets that are
waiting for a block (`pack`), with zeros behind them: that is what makes ORing octets in the
same as appending them (`fill_pack`). The invariant `Absorbed` splits what was read into the
whole blocks that are in the state and the tail that is in the buffer. `MD5Update` keeps it
(`updateLoop_absorbed`), and `MD5Final` turns it into the padding of the document
(`md5Final_digest`), in one block or in two.
-/

namespace Cbps.Md5

open List

open Rfc1321

/-! ### Octets and words -/

/-- The word of four consecutive octets of `x` is a slice of `x`. -/
theorem leWord_octetOf {w : ℕ} (x : BitVec w) (i : ℕ) :
    leWord (octetOf x i) (octetOf x (i + 1)) (octetOf x (i + 2)) (octetOf x (i + 3)) =
      x.extractLsb' (8 * i) 32 := by
  refine BitVec.eq_of_getLsbD_eq fun p hp => ?_
  have hcases : p < 8 ∨ (8 ≤ p ∧ p < 16) ∨ (16 ≤ p ∧ p < 24) ∨ (24 ≤ p ∧ p < 32) := by omega
  simp only [leWord, octetOf, BitVec.getLsbD_or, BitVec.getLsbD_shiftLeft, BitVec.getLsbD_setWidth,
    BitVec.getLsbD_extractLsb', hp, decide_true, Bool.true_and]
  rcases hcases with h | ⟨h, h'⟩ | ⟨h, h'⟩ | ⟨h, h'⟩
  · simp [h, show p < 16 by omega, show p < 24 by omega]
  · simp [h', show ¬ p < 8 by omega, show p - 8 < 32 by omega, show p - 8 < 8 by omega,
      show p < 24 by omega, show 8 * (i + 1) + (p - 8) = 8 * i + p by omega]
  · simp [h', show ¬ p < 8 by omega, show ¬ p < 16 by omega, show p - 16 < 32 by omega,
      show p - 16 < 8 by omega, show ¬ p - 8 < 8 by omega,
      show 8 * (i + 2) + (p - 16) = 8 * i + p by omega]
  · simp [show ¬ p < 8 by omega, show ¬ p < 16 by omega, show ¬ p < 24 by omega,
      show p - 24 < 32 by omega, show p - 24 < 8 by omega, show ¬ p - 8 < 8 by omega,
      show ¬ p - 16 < 8 by omega, show 8 * (i + 3) + (p - 24) = 8 * i + p by omega]

theorem octetOf_leWord (b0 b1 b2 b3 : UInt8) {j : ℕ} (hj : j < 4) :
    octetOf (leWord b0 b1 b2 b3) j = [b0, b1, b2, b3].getD j 0 := by
  refine UInt8.toBitVec_inj.mp (BitVec.eq_of_getLsbD_eq fun p hp => ?_)
  simp only [leWord, octetOf, BitVec.getLsbD_or, BitVec.getLsbD_shiftLeft, BitVec.getLsbD_setWidth,
    BitVec.getLsbD_extractLsb', UInt8.toBitVec_ofBitVec, hp, decide_true, Bool.true_and]
  have hhigh : ∀ b : UInt8, ∀ q, 8 ≤ q → b.toBitVec.getLsbD q = false :=
    fun b q hq => BitVec.getLsbD_of_ge _ _ hq
  have hcases : j = 0 ∨ j = 1 ∨ j = 2 ∨ j = 3 := by omega
  rcases hcases with rfl | rfl | rfl | rfl
  · simp [show p < 16 by omega, show p < 24 by omega, hp, show p < 32 by omega]
  · simp [show 8 + p < 32 by omega, show 8 + p < 16 by omega,
      show 8 + p < 24 by omega, show p < 32 by omega]
  · simp [hhigh b0 (16 + p) (by omega), hhigh b1 (16 + p - 8) (by omega),
      show 16 + p < 32 by omega, show 16 + p < 24 by omega, show p < 32 by omega]
  · simp [hhigh b0 (24 + p) (by omega), hhigh b1 (24 + p - 8) (by omega),
      hhigh b2 (24 + p - 16) (by omega), show 24 + p < 32 by omega, show p < 32 by omega]

/-! ### The buffer as an octet string -/

/-- The buffer that holds the octets `bs`, and zeros behind them. -/
def pack (bs : List UInt8) : List U32 := (List.range 16).map (blockWord bs)

theorem length_pack (bs : List UInt8) : (pack bs).length = 16 := by simp [pack]

variable {k : ℕ}

theorem getElem_pack (bs : List UInt8) (h : k < (pack bs).length) :
    (pack bs)[k] = blockWord bs k := by simp [pack]

theorem pack_nil : pack [] = List.replicate 16 0 := by decide

/-- `pack` sees an octet string through `getD` with zero only. -/
theorem blockWord_congr {bs cs : List UInt8}
    (h : ∀ p, 4 * k ≤ p → p < 4 * k + 4 → bs.getD p 0 = cs.getD p 0) :
    blockWord bs k = blockWord cs k := by
  simp only [blockWord, h (4 * k) (by omega) (by omega), h (4 * k + 1) (by omega) (by omega),
    h (4 * k + 2) (by omega) (by omega), h (4 * k + 3) (by omega) (by omega)]

theorem pack_congr {bs cs : List UInt8} (h : ∀ p < 64, bs.getD p 0 = cs.getD p 0) :
    pack bs = pack cs :=
  map_congr_left fun k hk => blockWord_congr fun p _ hp =>
    h p (by have := mem_range.mp hk; omega)

variable {bs : List UInt8}

/-- Past the buffer there is nothing, neither in the words nor in the octets. -/
theorem wordAt_pack (h : bs.length ≤ 64) : wordAt (pack bs) = blockWord bs := by
  funext k
  by_cases hk : k < (pack bs).length
  · rw [wordAt, getD_eq_getElem _ _ hk, getElem_pack]
  · rw [length_pack] at hk
    have hz : blockWord bs k = blockWord [] k := blockWord_congr fun p hp _ => by
      rw [getD_eq_default _ _ (by omega), getD_nil]
    rw [wordAt, getD_eq_default _ _ (by rw [length_pack]; omega), hz]
    simp [blockWord, leWord]

/-- One OR of `fill` at the end of what the buffer holds appends the octet. -/
theorem orOctet_pack (bs : List UInt8) (b : UInt8) :
    orOctet (pack bs) bs.length b = pack (bs ++ [b]) := by
  have hget : ∀ p, (bs ++ [b]).getD p 0 = if p = bs.length then b else bs.getD p 0 := fun p => by
    rcases Nat.lt_trichotomy p bs.length with hp | rfl | hp
    · rw [if_neg (by omega), getD_append _ _ _ _ hp]
    · rw [if_pos rfl, getD_append_right _ _ _ _ (Nat.le_refl _), Nat.sub_self]
      rfl
    · rw [if_neg (by omega), getD_eq_default _ _ (by simp; omega),
        getD_eq_default _ _ (by omega)]
  have hzero : ∀ p, bs.length ≤ p → bs.getD p 0 = 0 := fun p hp => getD_eq_default _ _ hp
  have hshift : bs.length >>> 2 = bs.length / 4 := Nat.shiftRight_eq_div_pow _ 2
  have hand : bs.length &&& 3 = bs.length % 4 := Nat.and_two_pow_sub_one_eq_mod _ 2
  refine ext_getElem (by simp [orOctet, length_pack]) fun k hk hk' => ?_
  simp only [orOctet, getElem_modify, getElem_pack, hshift, hand]
  by_cases hkl : bs.length / 4 = k
  · subst hkl
    set q := bs.length / 4 with hq
    have hmod : bs.length = 4 * q ∨ bs.length = 4 * q + 1 ∨ bs.length = 4 * q + 2 ∨
        bs.length = 4 * q + 3 := by omega
    rw [if_pos rfl]
    simp only [blockWord, hget]
    rcases hmod with h | h | h | h <;> rw [h] at hzero ⊢
    · rw [hzero (4 * q) (by omega), hzero (4 * q + 1) (by omega), hzero (4 * q + 2) (by omega),
        hzero (4 * q + 3) (by omega)]
      simp [leWord]
    · rw [hzero (4 * q + 1) (by omega), hzero (4 * q + 2) (by omega), hzero (4 * q + 3) (by omega)]
      simp [leWord, Nat.add_mod]
    · rw [hzero (4 * q + 2) (by omega), hzero (4 * q + 3) (by omega)]
      simp [leWord, Nat.add_mod]
    · rw [hzero (4 * q + 3) (by omega)]
      simp [leWord, Nat.add_mod]
  · rw [if_neg hkl]
    exact blockWord_congr fun p hp hp' => by rw [hget, if_neg (by omega)]
/-- `fill` at the end of what the buffer holds appends. -/
theorem fill_pack (bs new : List UInt8) : fill (pack bs) bs.length new = pack (bs ++ new) := by
  induction new generalizing bs with
  | nil => rw [fill, append_nil]
  | cons b new ih =>
    have hlen : bs.length + 1 = (bs ++ [b]).length := by simp
    rw [fill, orOctet_pack, hlen, ih, append_assoc, singleton_append]

/-- Zeros behind the octets make no difference. -/
theorem pack_zeros (bs : List UInt8) (n : ℕ) : pack (bs ++ List.replicate n 0) = pack bs :=
  pack_congr fun p _ => by
    rcases Nat.lt_or_ge p bs.length with hp | hp
    · rw [getD_append _ _ _ _ hp]
    · rw [getD_append_right _ _ _ _ hp, getD_eq_getElem?_getD,
        List.getElem?_getD_replicate_default_eq, getD_eq_default _ _ hp]

theorem bufferOctet_pack (h : bs.length ≤ 64) (p : ℕ) :
    bufferOctet (pack bs) p = bs.getD p 0 := by
  have hshift : p >>> 2 = p / 4 := Nat.shiftRight_eq_div_pow _ 2
  have hand : p &&& 3 = p % 4 := Nat.and_two_pow_sub_one_eq_mod _ 2
  have hp : 4 * (p / 4) + p % 4 = p := Nat.div_add_mod p 4
  have hcases : p % 4 = 0 ∨ p % 4 = 1 ∨ p % 4 = 2 ∨ p % 4 = 3 := by omega
  rw [bufferOctet, hshift, hand, show (pack bs).getD (p / 4) 0 = blockWord bs (p / 4) from
    congrFun (wordAt_pack h) _, blockWord, octetOf_leWord _ _ _ _ (Nat.mod_lt _ (by omega))]
  rcases hcases with h | h | h | h <;> rw [h] at hp ⊢
  · rw [getD_cons_zero, ← Nat.add_zero (4 * (p / 4)), hp]
  · rw [getD_cons_succ, getD_cons_zero, hp]
  · rw [getD_cons_succ, getD_cons_succ, getD_cons_zero, hp]
  · rw [getD_cons_succ, getD_cons_succ, getD_cons_succ, getD_cons_zero, hp]

/-- The two words that `MD5Final` stores are the length field of the padding. -/
theorem pack_length {len : ℕ} (hbs : bs.length = 56) (hlen : len < 2 ^ 32) :
    ((pack bs).set 14 (BitVec.ofNat 32 len <<< 3)).set 15 (BitVec.ofNat 32 len >>> 29) =
      pack (bs ++ lengthOctets len) := by
  have hoct : ∀ j < 8, (bs ++ lengthOctets len).getD (56 + j) 0 =
      octetOf (BitVec.ofNat 64 (8 * len)) j := fun j hj => by
    rw [getD_append_right _ _ _ _ (by omega), hbs, Nat.add_sub_cancel_left,
      getD_eq_getElem _ _ (by rw [length_lengthOctets]; omega)]
    simp [lengthOctets]
  have hlow : ∀ k < 14, blockWord bs k = blockWord (bs ++ lengthOctets len) k := fun k hk =>
    blockWord_congr fun p _ hp => by rw [getD_append _ _ _ _ (by omega)]
  have h14 : blockWord (bs ++ lengthOctets len) 14 = BitVec.ofNat 32 len <<< 3 := by
    rw [blockWord, hoct 0 (by omega), hoct 1 (by omega), hoct 2 (by omega), hoct 3 (by omega),
      leWord_octetOf _ 0]
    apply BitVec.eq_of_toNat_eq
    simp only [BitVec.extractLsb'_toNat, BitVec.toNat_ofNat, BitVec.toNat_shiftLeft,
      Nat.shiftRight_eq_div_pow, Nat.shiftLeft_eq]
    omega
  have h15 : blockWord (bs ++ lengthOctets len) 15 = BitVec.ofNat 32 len >>> 29 := by
    rw [blockWord, hoct 4 (by omega), hoct 5 (by omega), hoct 6 (by omega), hoct 7 (by omega),
      leWord_octetOf _ 4]
    apply BitVec.eq_of_toNat_eq
    simp only [BitVec.extractLsb'_toNat, BitVec.toNat_ofNat, BitVec.toNat_ushiftRight,
      Nat.shiftRight_eq_div_pow]
    omega
  refine ext_getElem (by simp [length_pack]) fun k hk hk' => ?_
  rw [length_pack] at hk'
  simp only [getElem_set, getElem_pack]
  split
  · next h => rw [← h, h15]
  · split
    · next h => rw [← h, h14]
    · exact hlow k (by omega)

/-! ### What a context has absorbed -/

/-- The context after reading `blocks ++ tail`: `k` whole blocks are in the state, the rest is
in the buffer, and every `fill` so far found zeros behind its index. -/
structure Absorbed (context : Md5Ctx) (k : ℕ) (blocks tail : List UInt8) : Prop where
  whole : blocks.length = 64 * k
  short : tail.length < 64
  state : context.state = processBlocks k initial blocks
  buffer : context.buffer = pack tail
  clear : ∀ call ∈ context.fills, call.Clear

theorem absorbed_init : Absorbed md5Init 0 [] [] where
  whole := rfl
  short := by decide
  state := rfl
  buffer := pack_nil.symm
  clear := fun call h => absurd h not_mem_nil

variable {blocks tail : List UInt8} {context : Md5Ctx}

/-- A context that has absorbed something finds zeros at every index of its next `fill`. -/
private theorem clear_fill
    (h : Absorbed context k blocks tail) (new : List UInt8) :
    ∀ call ∈ (context.fill tail.length new).fills, call.Clear := by
  intro call hcall
  rcases mem_append.mp hcall with hold | hnew
  · exact h.clear call hold
  · rw [mem_singleton.mp hnew]
    intro p hp
    change tail.length ≤ p at hp
    change bufferOctet context.buffer p = 0
    rw [h.buffer, bufferOctet_pack (Nat.le_of_lt h.short), getD_eq_default _ _ hp]

private theorem fill_buffer
    (h : Absorbed context k blocks tail) (new : List UInt8) :
    (context.fill tail.length new).buffer = pack (tail ++ new) := by
  rw [Md5Ctx.fill, h.buffer, fill_pack]

/-- A `fill` that leaves room in the block extends the tail. -/
theorem Absorbed.extend
    (h : Absorbed context k blocks tail) {new : List UInt8} (hnew : tail.length + new.length < 64) :
    Absorbed (context.fill tail.length new) k blocks (tail ++ new) where
  whole := h.whole
  short := by rw [length_append]; exact hnew
  state := h.state
  buffer := fill_buffer h new
  clear := clear_fill h new

/-- Transforming a buffer that holds a whole block processes that block. -/
theorem transform_pack {block : List UInt8} (hlen : block.length = 64)
    (h : context.buffer = pack block) :
    (transform context).state = processBlocks 1 context.state block := by
  rw [transform_state, h, wordAt_pack (Nat.le_of_eq hlen), processBlocks, processBlocks, compress,
    take_of_length_le (Nat.le_of_eq hlen)]

/-- A `fill` that completes the block, and its `transform`, make one more whole block. -/
theorem Absorbed.complete {blocks tail new : List UInt8}
    (h : Absorbed context k blocks tail) (hnew : tail.length + new.length = 64) :
    Absorbed (transform (context.fill tail.length new)) (k + 1) (blocks ++ (tail ++ new)) [] where
  whole := by rw [length_append, length_append, h.whole]; omega
  short := by decide
  state := by
    rw [transform_pack (by rw [length_append]; exact hnew) (fill_buffer h new),
      processBlocks_append h.whole, ← h.state]
    rfl
  buffer := pack_nil.symm
  clear := clear_fill h new

/-! ### `MD5Update` -/

theorem updateLoop_done {input : List UInt8} {index : Fin 64} {i : ℕ}
    (h : input.length ≤ i) : updateLoop context input index i = context := by
  rw [updateLoop, if_neg (by omega)]

theorem updateLoop_bytes (context : Md5Ctx) (input : List UInt8) (index : Fin 64) (i : ℕ) :
    (updateLoop context input index i).bytes = context.bytes := by
  fun_induction updateLoop with
  | case1 _ _ _ _ _ _ _ ih => exact ih
  | case2 _ _ _ _ _ _ _ ih => exact ih
  | case3 => rfl

/-- The loop of `MD5Update` absorbs the rest of the input. -/
theorem updateLoop_absorbed {index : Fin 64}
    (h : Absorbed context k blocks tail)
    (hindex : index.val = tail.length) (input : List UInt8) (i : ℕ) :
    ∃ k' blocks' tail', blocks' ++ tail' = blocks ++ tail ++ input.drop i ∧
      Absorbed (updateLoop context input index i) k' blocks' tail' := by
  fun_induction updateLoop generalizing k blocks tail
  case case1 context index i hi n filled hfull ih =>
    have hn : ((input.drop i).take n).length = n := by
      rw [length_take, length_drop]; omega
    have hdrop : (input.drop i).take n ++ input.drop (i + n) = input.drop i := by
      rw [← drop_drop, List.take_append_drop]
    have hfill : tail.length + ((input.drop i).take n).length = 64 := by
      rw [hn, ← hindex]; exact hfull
    have hnext := h.complete hfill
    rw [← hindex] at hnext
    obtain ⟨k', blocks', tail', hsplit, habs⟩ := ih hnext rfl
    refine ⟨k', blocks', tail', ?_, habs⟩
    rw [hsplit, append_nil, ← append_assoc, append_assoc, hdrop]
  case case2 context index i hi n filled hfull ih =>
    have hn : ((input.drop i).take n).length = n := by
      rw [length_take, length_drop]; omega
    have htake : (input.drop i).take n = input.drop i :=
      take_of_length_le (by rw [length_drop]; omega)
    have hfill : tail.length + ((input.drop i).take n).length < 64 := by
      rw [hn, ← hindex]; omega
    have hnext := h.extend hfill
    rw [← hindex] at hnext
    refine ⟨k, blocks, tail ++ (input.drop i).take n, ?_, ?_⟩
    · rw [htake, append_assoc]
    · rw [updateLoop_done (by omega)]
      exact hnext
  case case3 context index i hi =>
    refine ⟨k, blocks, tail, ?_, h⟩
    rw [drop_eq_nil_of_le (by omega), append_nil]

/-- The block index is the number of octets in the buffer. -/
theorem index_eq (h : Absorbed context k blocks tail)
    (hbytes : context.bytes = BitVec.ofNat 32 (blocks ++ tail).length) :
    context.index.val = tail.length := by
  have hand : (context.bytes &&& 0x3F).toNat = context.bytes.toNat % 64 := by
    rw [BitVec.toNat_and]
    exact Nat.and_two_pow_sub_one_eq_mod _ 6
  have hwhole := h.whole
  have hshort := h.short
  rw [Md5Ctx.index, Fin.ofNat, hand, hbytes, BitVec.toNat_ofNat, length_append]
  simp only
  omega

/-- Any number of `MD5Update` calls absorbs the concatenation of their inputs. -/
theorem updates_absorbed (chunks : List Chunk) :
    ∃ k blocks tail, blocks ++ tail = message chunks ∧
      Absorbed (chunks.foldl md5Update md5Init) k blocks tail ∧
      (chunks.foldl md5Update md5Init).bytes = BitVec.ofNat 32 (message chunks).length := by
  induction chunks using List.reverseRecOn with
  | nil => exact ⟨0, [], [], rfl, absorbed_init, rfl⟩
  | append_singleton chunks chunk ih =>
    obtain ⟨k, blocks, tail, hsplit, habs, hbytes⟩ := ih
    have hmessage : message (chunks ++ [chunk]) = message chunks ++ chunk.input := by
      simp [message]
    rw [foldl_append, foldl_cons, foldl_nil, md5Update]
    have habs' : Absorbed { chunks.foldl md5Update md5Init with
        bytes := (chunks.foldl md5Update md5Init).bytes + BitVec.ofNat 32 chunk.input.length }
        k blocks tail := ⟨habs.whole, habs.short, habs.state, habs.buffer, habs.clear⟩
    obtain ⟨k', blocks', tail', hsplit', habs''⟩ :=
      updateLoop_absorbed habs' (index_eq habs (by rw [hbytes, hsplit])) chunk.input 0
    refine ⟨k', blocks', tail', ?_, habs'', ?_⟩
    · rw [hsplit', hsplit, drop_zero, hmessage]
    · rw [updateLoop_bytes, hmessage, length_append, BitVec.ofNat_add, ← hbytes]

/-! ### `MD5Final` -/

/-- `encode` puts the words out low-order octet first. -/
theorem encode_eq_output (context : Md5Ctx) :
    encode 16 0 0 context.stateWords = output context.state := by
  simp only [encode, output, Md5Ctx.stateWords]
  rfl

/-- The blocks that `MD5Final` processes after the whole blocks of the message. -/
theorem processBlocks_pad (hblocks : blocks.length = 64 * k)
    (m : List UInt8) (hm : m = blocks ++ tail) :
    processBlocks ((pad m).length / 64) initial (pad m) =
      processBlocks ((tail.length + 1 + padZeros m.length + 8) / 64)
        (processBlocks k initial blocks)
        (tail ++ [0x80] ++ List.replicate (padZeros m.length) 0 ++ lengthOctets m.length) := by
  have hlen : (pad m).length / 64 = k + (tail.length + 1 + padZeros m.length + 8) / 64 := by
    rw [length_pad]
    have : m.length = 64 * k + tail.length := by rw [hm, length_append, hblocks]
    omega
  have hpad : pad m = blocks ++
      (tail ++ [0x80] ++ List.replicate (padZeros m.length) 0 ++ lengthOctets m.length) := by
    simp only [pad, append_assoc]
    rw [hm, append_assoc]
  rw [hlen, hpad, processBlocks_append hblocks]

/-- The state that the length field's `transform` leaves. -/
private theorem final_transform (context : Md5Ctx) (bs : List UInt8) {len : ℕ}
    (hbs : bs.length ≤ 56) (hlen : len < 2 ^ 32) (hbuffer : context.buffer = pack bs)
    (hbytes : context.bytes = BitVec.ofNat 32 len) :
    (transform context.storeLength).state =
      processBlocks 1 context.state
        (bs ++ List.replicate (56 - bs.length) 0 ++ lengthOctets len) := by
  have hpadded : (bs ++ List.replicate (56 - bs.length) (0 : UInt8)).length = 56 := by
    rw [length_append, length_replicate]; omega
  refine transform_pack (by rw [length_append, hpadded, length_lengthOctets]) ?_
  rw [Md5Ctx.storeLength, hbuffer, hbytes, ← pack_length hpadded hlen, pack_zeros]

/-- `MD5Final` puts out the digest of what the context has absorbed. -/
theorem md5Final_digest (h : Absorbed context k blocks tail) (hlen : (blocks ++ tail).length < 2 ^ 32)
    (hbytes : context.bytes = BitVec.ofNat 32 (blocks ++ tail).length) :
    (md5Final context).1 = digest (blocks ++ tail) := by
  have hindex := index_eq h hbytes
  have hwhole := h.whole
  have hshort := h.short
  have hbuffer := fill_buffer h [0x80]
  have htotal : (blocks ++ tail).length = 64 * k + tail.length := by
    rw [length_append, hwhole]
  rw [md5Final, hindex, encode_eq_output, digest, processBlocks_pad hwhole _ rfl, ← h.state]
  refine congrArg output ?_
  by_cases hfull : tail.length + 1 > 56
  · -- the marker leaves no room for the length: one block of padding, then one more
    simp only [if_pos hfull]
    have hzeros : padZeros (blocks ++ tail).length = (63 - tail.length) + 56 := by
      rw [padZeros, htotal]; omega
    have hblock : (tail ++ [0x80] ++ List.replicate (63 - tail.length) (0 : UInt8)).length = 64 := by
      simp only [length_append, length_replicate, length_singleton]; omega
    have hfirst := transform_pack hblock
      (show (context.fill tail.length [0x80]).buffer = _ by rw [hbuffer, pack_zeros])
    have hsecond := final_transform (transform (context.fill tail.length [0x80])) [] (by simp) hlen
      pack_nil.symm hbytes
    have hblocks : (tail.length + 1 + padZeros (blocks ++ tail).length + 8) / 64 = 1 + 1 := by
      omega
    rw [hblocks, hsecond, hfirst, hzeros, replicate_add, ← append_assoc,
      append_assoc _ (List.replicate 56 0), processBlocks_append (by rw [hblock])]
    rfl
  · simp only [if_neg hfull]
    have hzeros : padZeros (blocks ++ tail).length = 56 - (tail ++ [(0x80 : UInt8)]).length := by
      rw [padZeros, htotal, length_append, length_singleton]; omega
    have hblocks : (tail.length + 1 + padZeros (blocks ++ tail).length + 8) / 64 = 1 := by
      rw [hzeros, length_append, length_singleton]; omega
    have hlast := final_transform (context.fill tail.length [0x80]) (tail ++ [0x80])
      (by rw [length_append, length_singleton]; omega) hlen hbuffer hbytes
    rw [hblocks, hlast, hzeros]
    rfl

/-- `MD5Final` fills a buffer that holds zeros behind its index, too. -/
theorem md5Final_clear (h : Absorbed context k blocks tail) (hindex : context.index.val = tail.length) :
    ∀ call ∈ (md5Final context).2.fills, call.Clear := by
  have hfills : (md5Final context).2.fills = (context.fill tail.length [0x80]).fills := by
    rw [md5Final, hindex]
    by_cases hfull : tail.length + 1 > 56
    · simp only [if_pos hfull]; rfl
    · simp only [if_neg hfull]; rfl
  rw [hfills]
  exact clear_fill h [0x80]

/-- **The digest.** However a message is split into updates, the library computes its RFC 1321
digest, so the splitting does not matter; and `fill` never ORs into an octet that is not zero.
The octet counter is exact below `2 ^ 32` octets. -/
theorem md5_eq_digest (chunks : List Chunk) (hlen : (message chunks).length < 2 ^ 32) :
    (md5 chunks).1 = digest (message chunks) ∧
      (∀ others, message others = message chunks → (md5 others).1 = (md5 chunks).1) ∧
      ∀ call ∈ (md5 chunks).2.fills, call.Clear := by
  have hdigest : ∀ others, message others = message chunks →
      (md5 others).1 = digest (message chunks) := fun others heq => by
    obtain ⟨k, blocks, tail, hsplit, habs, hbytes⟩ := updates_absorbed others
    rw [← heq, ← hsplit]
    rw [← heq, ← hsplit] at hlen
    exact md5Final_digest habs hlen (by rw [hbytes, hsplit])
  refine ⟨hdigest chunks rfl, fun others heq => (hdigest others heq).trans
    (hdigest chunks rfl).symm, ?_⟩
  obtain ⟨k, blocks, tail, hsplit, habs, hbytes⟩ := updates_absorbed chunks
  exact md5Final_clear habs (index_eq habs (by rw [hbytes, hsplit]))

/-- Three updates of the message "abc", two of them around a split. -/
theorem md5_eq_digest_abc :
    (md5 [⟨[0x61], by decide⟩, ⟨[], by decide⟩, ⟨[0x62, 0x63], by decide⟩]).1 =
      digest [0x61, 0x62, 0x63] :=
  (md5_eq_digest [⟨[0x61], by decide⟩, ⟨[], by decide⟩, ⟨[0x62, 0x63], by decide⟩]
    (by decide)).1

end Cbps.Md5
