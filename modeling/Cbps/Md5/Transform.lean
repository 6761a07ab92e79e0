import Cbps.Md5.Context

/-!
# The transform is the compression of a block

`transform` runs one loop of 64 iterations and finds the mixing function, the buffer index,
the rotation and the constant of each from the loop index; the document prints the same
operations as sixteen rows of four. An iteration is an operation of the document followed by
a renaming of the registers (`transformStep_of_mix`), and after four iterations every register
is back in its place, so four iterations are one row (`foldl_row`) and sixteen are one round.
-/

namespace Cbps.Md5

open List

open Rfc1321

/-! ### One iteration -/

private theorem selectF (x y z : U32) : z ^^^ (x &&& (y ^^^ z)) = F x y z := by
  ext i hi
  simp only [F, BitVec.getElem_xor, BitVec.getElem_and, BitVec.getElem_or, BitVec.getElem_not]
  cases x[i] <;> cases y[i] <;> cases z[i] <;> rfl

private theorem selectG (x y z : U32) : y ^^^ (z &&& (x ^^^ y)) = G x y z := by
  ext i hi
  simp only [G, BitVec.getElem_xor, BitVec.getElem_and, BitVec.getElem_or, BitVec.getElem_not]
  cases x[i] <;> cases y[i] <;> cases z[i] <;> rfl

/-- The word that `transform` finds at index `k` of the buffer. -/
abbrev wordAt (buffer : List U32) (k : ℕ) : U32 := buffer.getD k 0

/-- The operation of the document, with the registers moved on by one place. -/
def rotateIn (f : U32 → U32 → U32 → U32) (X : ℕ → U32) (k s i : ℕ) (v : Quad) : Quad :=
  (v.2.2.2, operation f X v.1 v.2.1 v.2.2.1 v.2.2.2 k s i, v.2.1, v.2.2.1)

/-- The rotation of iteration `i`. -/
def shiftAt (i : ℕ) : ℕ := (rTable.getD (i / 16) []).getD (i &&& 3) 0

theorem shiftAt_lt : ∀ i < 64, shiftAt i < 32 := by decide

variable {f : U32 → U32 → U32 → U32} {buffer : List U32}

/-- An iteration of `transform` in terms of an operation of the document. -/
theorem transformStep_eq {i g s : ℕ} (hs : s < 32)
    (hmix : ∀ b c d, mix i b c d = (g, f b c d))
    (hshift : (rTable.getD (i / 16) []).getD (i &&& 3) 0 = s)
    (hT : kTable.getD i 0 = T (i + 1)) (v : Quad) :
    transformStep buffer v i = rotateIn f (wordAt buffer) (g &&& 15) s (i + 1) v := by
  obtain ⟨a, b, c, d⟩ := v
  have hrot : ∀ x : U32, x <<< s ||| x >>> (32 - s) = x.rotateLeft s := fun x => by
    rw [BitVec.rotateLeft_def, Nat.mod_eq_of_lt hs]
  simp only [transformStep, hmix, hshift, hT, rotateIn, operation, hrot, wordAt, Prod.mk.injEq,
    true_and, and_true]
  congr 2
  ac_rfl

/-- The constants of the library are the sine table of the document. -/
theorem kTable_eq : ∀ i < 64, kTable.getD i 0 = T (i + 1) := by decide

/-- Four consecutive iterations bring every register back to its place: they are one row. -/
theorem foldl_row {i : ℕ} {k s : ℕ → ℕ}
    (h : ∀ j < 4, ∀ v, transformStep buffer v (i + j) =
      rotateIn f (wordAt buffer) (k j) (s j) (i + j + 1) v) (v : Quad) :
    (List.range' i 4).foldl (transformStep buffer) v =
      row f (wordAt buffer) (s 0, s 1, s 2, s 3) (k 0, k 1, k 2, k 3) (i + 1) v := by
  have h0 := h 0 (by omega)
  have h1 := h 1 (by omega)
  have h2 := h 2 (by omega)
  have h3 := h 3 (by omega)
  simp only [List.range', foldl_cons, foldl_nil, Nat.add_assoc, Nat.reduceAdd,
    Nat.add_zero] at h0 h1 h2 h3 ⊢
  simp only [h0, h1, h2, h3, rotateIn, row]

/-- Sixteen iterations with one mixing function are four rows. -/
theorem foldl_round {base : ℕ} {k s : ℕ → ℕ}
    (h : ∀ i, base ≤ i → i < base + 16 → ∀ v, transformStep buffer v i =
      rotateIn f (wordAt buffer) (k i) (s i) (i + 1) v) (v : Quad) :
    (List.range' base 16).foldl (transformStep buffer) v =
      [0, 4, 8, 12].foldl (fun v q => row f (wordAt buffer)
        (s (base + q), s (base + q + 1), s (base + q + 2), s (base + q + 3))
        (k (base + q), k (base + q + 1), k (base + q + 2), k (base + q + 3)) (base + q + 1) v) v := by
  have hrow : ∀ q ≤ 12, ∀ v, (List.range' (base + q) 4).foldl (transformStep buffer) v =
      row f (wordAt buffer)
        (s (base + q), s (base + q + 1), s (base + q + 2), s (base + q + 3))
        (k (base + q), k (base + q + 1), k (base + q + 2), k (base + q + 3)) (base + q + 1) v :=
    fun q hq v => foldl_row (k := fun j => k (base + q + j)) (s := fun j => s (base + q + j))
      (fun j hj v => h (base + q + j) (by omega) (by omega) v) v
  have hsplit : List.range' base 16 = List.range' (base + 0) 4 ++ List.range' (base + 4) 4 ++
      List.range' (base + 8) 4 ++ List.range' (base + 12) 4 := by
    simp only [range'_append_1, Nat.add_zero, Nat.reduceAdd]
  rw [hsplit]
  simp only [foldl_append, foldl_cons, foldl_nil, hrow _ (Nat.zero_le 12),
    hrow 4 (by omega), hrow 8 (by omega), hrow 12 (by omega)]

theorem transformStep_of_mix {i g : ℕ}
    (hi : i < 64) (hmix : ∀ b c d, mix i b c d = (g, f b c d)) (v : Quad) :
    transformStep buffer v i =
      rotateIn f (wordAt buffer) (g &&& 15) (shiftAt i) (i + 1) v :=
  transformStep_eq (shiftAt_lt i hi) hmix rfl (kTable_eq i hi) v

theorem foldl_round1 (buffer : List U32) (v : Quad) :
    (List.range' 0 16).foldl (transformStep buffer) v = round1 (wordAt buffer) v := by
  rw [foldl_round (f := F) (k := fun i => i &&& 15) (s := shiftAt)
    (fun i _ hi v => transformStep_of_mix (by omega)
      (fun b c d => by rw [mix, if_pos (by omega), selectF]) v)]
  simp only [foldl_cons, foldl_nil, Nat.reduceAdd, Nat.reduceAnd]
  rfl

theorem foldl_round2 (buffer : List U32) (v : Quad) :
    (List.range' 16 16).foldl (transformStep buffer) v = round2 (wordAt buffer) v := by
  rw [foldl_round (f := G) (k := fun i => (5 * i + 1) &&& 15) (s := shiftAt)
    (fun i hlo hi v => transformStep_of_mix (by omega)
      (fun b c d => by rw [mix, if_neg (by omega), if_pos (by omega), selectG]) v)]
  simp only [foldl_cons, foldl_nil, Nat.reduceAdd, Nat.reduceMul, Nat.reduceAnd]
  rfl

theorem foldl_round3 (buffer : List U32) (v : Quad) :
    (List.range' 32 16).foldl (transformStep buffer) v = round3 (wordAt buffer) v := by
  rw [foldl_round (f := H) (k := fun i => (3 * i + 5) &&& 15) (s := shiftAt)
    (fun i hlo hi v => transformStep_of_mix (by omega) (fun b c d => by
      rw [mix, if_neg (by omega), if_neg (by omega), if_pos (by omega), H, BitVec.xor_assoc]) v)]
  simp only [foldl_cons, foldl_nil, Nat.reduceAdd, Nat.reduceMul, Nat.reduceAnd]
  rfl

theorem foldl_round4 (buffer : List U32) (v : Quad) :
    (List.range' 48 16).foldl (transformStep buffer) v = round4 (wordAt buffer) v := by
  rw [foldl_round (f := I) (k := fun i => (7 * i) &&& 15) (s := shiftAt)
    (fun i hlo hi v => transformStep_of_mix (by omega) (fun b c d => by
      rw [mix, if_neg (by omega), if_neg (by omega), if_neg (by omega), I]) v)]
  simp only [foldl_cons, foldl_nil, Nat.reduceAdd, Nat.reduceMul, Nat.reduceAnd]
  rfl

theorem transform_state (context : Md5Ctx) :
    (transform context).state = compressWords context.state (wordAt context.buffer) := by
  have hsplit : List.range 64 =
      List.range' 0 16 ++ List.range' 16 16 ++ List.range' 32 16 ++ List.range' 48 16 := by decide
  simp only [transform, compressWords, hsplit, foldl_append, foldl_round1, foldl_round2,
    foldl_round3, foldl_round4]

end Cbps.Md5
