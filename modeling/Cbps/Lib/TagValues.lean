import Mathlib.Data.List.Basic

/-!
# Values with tags

A sequence of values, each behind its tag and an octet with its length. The entries of a sequence follow one another:
what stands behind some of them is read at the sum of their lengths (`getElem?_entry`, `getElem?_entry_value`).
-/

namespace Cbps.Lib

/-- A value with its tag; the length fits one octet. -/
structure TagValue where
  tag : UInt8
  value : List UInt8
  short : value.length < 256
deriving DecidableEq, Repr

namespace TagValue

def octets (e : TagValue) : List UInt8 := e.tag :: UInt8.ofNat e.value.length :: e.value

/-- The octets of a sequence. -/
def encode (es : List TagValue) : List UInt8 := es.flatMap octets

@[simp] theorem encode_nil : encode [] = [] := rfl

@[simp] theorem encode_cons (e : TagValue) (es : List TagValue) : encode (e :: es) = e.octets ++ encode es := List.flatMap_cons

@[simp] theorem encode_append (es es' : List TagValue) : encode (es ++ es') = encode es ++ encode es' := List.flatMap_append

@[simp] theorem length_octets (e : TagValue) : e.octets.length = e.value.length + 2 := rfl

theorem toNat_length (e : TagValue) : (UInt8.ofNat e.value.length).toNat = e.value.length := by
  rw [UInt8.toNat_ofNat']
  exact Nat.mod_eq_of_lt e.short

variable (before : List UInt8) (e : TagValue) (back : List UInt8)

/-- The tag of the entry behind some octets. -/
theorem getElem?_entry : (before ++ (e.octets ++ back))[before.length]? = some e.tag := by
  rw [List.getElem?_append_right (Nat.le_refl _), Nat.sub_self]
  rfl

/-- The length of the entry behind some octets. -/
theorem getElem?_entry_length :
    (before ++ (e.octets ++ back))[before.length + 1]? = some (UInt8.ofNat e.value.length) := by
  rw [List.getElem?_append_right (Nat.le_add_right _ _), Nat.add_sub_cancel_left]
  rfl

/-- The value of the entry behind some octets. -/
theorem getElem?_entry_value {i : ℕ} (hi : i < e.value.length) :
    (before ++ (e.octets ++ back))[before.length + 2 + i]? = e.value[i]? := by
  rw [Nat.add_assoc, List.getElem?_append_right (Nat.le_add_right _ _), Nat.add_sub_cancel_left, octets, Nat.add_comm 2 i]
  exact (List.getElem?_append_left (Nat.add_lt_add_right hi 2)).trans rfl

end TagValue

end Cbps.Lib
