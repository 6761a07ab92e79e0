import Mathlib.Data.Nat.Basic

/-!
# Results of ATT

The result codes of `att_prim.h` and the GATT status that `gatt_message.c` makes of them.
-/

namespace Cbps.Gatt

/-- `att_result_t`. -/
abbrev AttResult := BitVec 16

/-- `ATT_RESULT_SUCCESS`. -/
def attResultSuccess : AttResult := 0x0000

/-- `ATT_RESULT_INVALID_OFFSET`. -/
def attResultInvalidOffset : AttResult := 0x0007

/-- `ATT_RESULT_ATTR_NOT_FOUND`. -/
def attResultAttrNotFound : AttResult := 0x000a

/-- `ATT_RESULT_SUCCESS_MORE`: more confirms of the same response follow. -/
def attResultSuccessMore : AttResult := 0xff79

/-- `gatt_message_status`. -/
def gattMessageStatus (result : AttResult) : BitVec 16 :=
  if result = attResultSuccess ∨ result = attResultSuccessMore then attResultSuccess else result &&& 0x7fff

end Cbps.Gatt
