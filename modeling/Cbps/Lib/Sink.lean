import Cbps.Lib.Memory

/-!
# A buffer that goes out in order

A sink is an append-only buffer with a flushed prefix: cells are claimed at its end, written in
place, and flushed from its front, one packet per flush. The lemmas say what is claimed and what
has gone out when a writer fills what it has claimed.
-/

namespace Cbps.Lib

variable {α : Type*}

/-- What has gone out, packet by packet, and what is claimed behind it. -/
structure Sink (α : Type*) where
  sent : List (List α)
  claimed : List α
  deriving DecidableEq, Repr

namespace Sink

/-- Claim `n` cells, which hold `pad` until they are written. -/
def claim (k : Sink α) (pad : α) (n : ℕ) : Sink α :=
  { k with claimed := k.claimed ++ List.replicate n pad }

/-- Write into what is claimed. -/
def store (k : Sink α) (off : ℕ) (new : List α) : Sink α :=
  { k with claimed := writeAt k.claimed off new }

/-- Send `n` cells from the front. There is nothing to send beyond what is claimed. -/
def flush (k : Sink α) (n : ℕ) : Sink α :=
  if n ≤ k.claimed.length then
    { sent := k.sent ++ [k.claimed.take n], claimed := k.claimed.drop n }
  else k

variable {k : Sink α} {new rest : List α}

/-- To claim cells and to fill them is to append. -/
theorem store_claim (k : Sink α) (pad : α) (new : List α) :
    (k.claim pad new.length).store k.claimed.length new =
      { k with claimed := k.claimed ++ new } := by
  rw [store, claim]
  congr 1
  exact writeAt_append_length List.length_replicate

/-- To write behind what is filled is to fill more. -/
theorem writeAt_fill (done new : List α) (pad : α) (n : ℕ) :
    writeAt (done ++ List.replicate (new.length + n) pad) done.length new = done ++ new ++ List.replicate n pad := by
  rw [← Nat.add_zero done.length, writeAt_append_right, writeAt_eq (by simp), List.take_zero, List.nil_append,
    Nat.zero_add, List.drop_replicate, Nat.add_sub_cancel_left, List.append_assoc]

theorem flush_append (h : k.claimed = new ++ rest) :
    k.flush new.length = { sent := k.sent ++ [new], claimed := rest } := by
  rw [flush, h, if_pos (by rw [List.length_append]; exact Nat.le_add_right _ _), List.take_left,
    List.drop_left]

end Sink

end Cbps.Lib
