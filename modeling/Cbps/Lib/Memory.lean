import Mathlib.Data.List.Basic
import Mathlib.Data.List.TakeDrop

/-!
# Flat memory as a list of cells

A block of memory is a list of cells. `readAt` copies a range out, `writeAt` stores a range
cell by cell, and `moveWithin` is the C `memmove` inside one block. A store beyond the end of
the block changes nothing, and a read beyond it comes up short; the lemmas say what happens
in bounds, where `writeAt` is the splice `take ++ new ++ drop`.
-/

namespace Cbps.Lib

open List

variable {α : Type*}

/-- The cells at `off, …, off + n - 1`. -/
def readAt (m : List α) (off n : ℕ) : List α := (m.drop off).take n

/-- Store `new` at `off`, one cell after the other. -/
def writeAt (m : List α) (off : ℕ) : List α → List α
  | [] => m
  | c :: cs => writeAt (m.set off c) (off + 1) cs

/-- Move `n` cells from `src` to `dst` inside one block. -/
def moveWithin (m : List α) (dst src n : ℕ) : List α := writeAt m dst (readAt m src n)

@[simp] theorem writeAt_nil (m : List α) (off : ℕ) : writeAt m off [] = m := rfl

@[simp] theorem length_writeAt (m : List α) (off : ℕ) (new : List α) :
    (writeAt m off new).length = m.length := by
  induction new generalizing m off with
  | nil => rfl
  | cons c cs ih => rw [writeAt, ih, length_set]

variable {m : List α} {off : ℕ} {new : List α}

/-- In bounds a store is a splice. -/
theorem writeAt_eq (h : off + new.length ≤ m.length) :
    writeAt m off new = m.take off ++ new ++ m.drop (off + new.length) := by
  induction new generalizing m off with
  | nil => simp
  | cons c cs ih =>
    have hoff : off < m.length := by simp only [length_cons] at h; omega
    have hcs : off + 1 + cs.length ≤ (m.set off c).length := by
      simp only [length_cons, length_set] at h ⊢
      omega
    rw [writeAt, ih hcs, take_succ_eq_append_getElem (by simpa using hoff),
      getElem_set_self, take_set_of_le (Nat.le_refl off),
      drop_set_of_lt (by omega), length_cons,
      show off + 1 + cs.length = off + (cs.length + 1) by omega]
    simp

/-- A store at the end of a block that was just extended to hold it is an append. -/
theorem writeAt_append_length {m pad new : List α} (h : pad.length = new.length) :
    writeAt (m ++ pad) m.length new = m ++ new := by
  rw [writeAt_eq (by simp [h]), List.take_left, drop_eq_nil_of_le (by simp [h])]
  simp

/-- A store leaves the cells below its range. -/
theorem take_writeAt {off k : ℕ} (hk : k ≤ off) (new : List α) :
    (writeAt m off new).take k = m.take k := by
  induction new generalizing m off with
  | nil => rfl
  | cons c cs ih => rw [writeAt, ih (by omega), take_set_of_le hk]

/-- A store leaves the cells above its range. -/
theorem drop_writeAt {off k : ℕ} (hk : off + new.length ≤ k) :
    (writeAt m off new).drop k = m.drop k := by
  induction new generalizing m off with
  | nil => rfl
  | cons c cs ih =>
    simp only [length_cons] at hk
    rw [writeAt, ih (by omega), drop_set_of_lt (by omega)]

/-- What was stored in bounds is read back. -/
theorem readAt_writeAt
    (h : off + new.length ≤ m.length) : readAt (writeAt m off new) off new.length = new := by
  rw [readAt, writeAt_eq h, append_assoc,
    drop_left' (length_take_of_le (by omega)), List.take_left]

/-- A store at the end of a prefix extends the prefix. -/
theorem take_writeAt_end (h : off + new.length ≤ m.length) :
    (writeAt m off new).take (off + new.length) = m.take off ++ new := by
  rw [writeAt_eq h, take_append_of_le_length]
  · exact take_of_length_le (by rw [length_append, length_take]; omega)
  · rw [length_append, length_take]
    omega

/-- A store into a prefix of the block is a store into the block, cut off. -/
theorem take_writeAt_comm (m : List α) (off k : ℕ) (new : List α) :
    (writeAt m off new).take k = writeAt (m.take k) off new := by
  induction new generalizing m off with
  | nil => rfl
  | cons c cs ih => rw [writeAt, writeAt, ih, take_set]

/-- A store behind the first part of a block is a store into the second part. -/
theorem writeAt_append_right (p q : List α) (i : ℕ) (new : List α) :
    writeAt (p ++ q) (p.length + i) new = p ++ writeAt q i new := by
  induction new generalizing q i with
  | nil => rfl
  | cons c cs ih =>
    rw [writeAt, writeAt, set_append_right _ _ (Nat.le_add_right _ _), Nat.add_sub_cancel_left,
      Nat.add_assoc, ih]

/-- A store inside the first part of a block leaves the second part. -/
theorem writeAt_append_left {p q : List α} {i : ℕ} (h : i + new.length ≤ p.length) :
    writeAt (p ++ q) i new = writeAt p i new ++ q := by
  induction new generalizing p i with
  | nil => rfl
  | cons c cs ih =>
    rw [length_cons] at h
    rw [writeAt, writeAt, set_append_left _ _ (by omega), ih (by rw [length_set]; omega)]

/-- A store above a range does not change it. -/
theorem readAt_writeAt_of_le {off n k : ℕ} (h : off + n ≤ k) (new : List α) :
    readAt (writeAt m k new) off n = readAt m off n := by
  rw [readAt, readAt, take_drop, take_drop, take_writeAt (by omega)]

/-- A store below a range does not change it. -/
theorem readAt_writeAt_of_ge {off n k : ℕ} (h : k + new.length ≤ off) :
    readAt (writeAt m k new) off n = readAt m off n := by
  rw [readAt, drop_writeAt h, readAt]

/-- A part of what was stored in bounds is read back. -/
theorem readAt_writeAt_inside {dst off k : ℕ}
    (h : dst + new.length ≤ m.length) (hin : off + k ≤ new.length) :
    readAt (writeAt m dst new) (dst + off) k = readAt new off k := by
  have hdst : (m.take dst).length = dst := length_take_of_le (by omega)
  rw [readAt, writeAt_eq h, append_assoc, ← drop_drop, drop_left' hdst,
    drop_append_of_le_length (by omega),
    take_append_of_le_length (by rw [length_drop]; omega), readAt]

/-- Extending the block does not change what is in it. -/
theorem readAt_append_left {m pad : List α} {off n : ℕ} (h : off + n ≤ m.length) :
    readAt (m ++ pad) off n = readAt m off n := by
  rw [readAt, drop_append_of_le_length (by omega),
    take_append_of_le_length (by rw [length_drop]; omega), readAt]

/-- A range of a range. -/
theorem readAt_readAt {src n off k : ℕ} (h : off + k ≤ n) :
    readAt (readAt m src n) off k = readAt m (src + off) k := by
  rw [readAt, readAt, readAt, drop_take, take_take, drop_drop,
    Nat.min_eq_left (by omega)]

/-- What lies in a range that is moved is found at its new place. -/
theorem readAt_moveWithin {dst src n off k : ℕ} (hin : off + k ≤ n)
    (hsrc : src + n ≤ m.length) (hdst : dst + n ≤ m.length) :
    readAt (moveWithin m dst src n) (dst + off) k = readAt m (src + off) k := by
  have hlen : (readAt m src n).length = n := by
    rw [readAt, length_take, length_drop]
    omega
  rw [moveWithin, readAt_writeAt_inside (by omega) (by omega), readAt_readAt hin]

end Cbps.Lib
