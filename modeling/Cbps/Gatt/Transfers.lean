import Cbps.Gatt.LongReads
import Cbps.Gatt.LongWrites

/-!
# Transfers of long values

`transfersWhole_iff`: a connection transfers a value whole exactly if it fits for the read and for the write.
-/

namespace Cbps.Gatt

open GattManager (Cid)

variable {cid : Cid} {slot : Slot} {mtu : Mtu}

/-- **The values that a connection transfers whole.** -/
theorem transfersWhole_iff (c : Connection) (v : Value) :
    TransfersWhole c v ↔
      ReadLong.Fits c.stored c.mtu v.octets.length ∧ LongWrite.Fits c.stored c.mtu v.octets.length :=
  and_congr (ReadLong.readsWhole_iff_fits c.stored c.mtu v) (LongWrite.writesWhole_iff_fits c.stored c.mtu v)

/-- Every connection transfers every value whole. -/
def AlwaysTransfersWhole : Prop := ∀ c v, TransfersWhole c v

/-- The least MTU. -/
def defaultMtu : Mtu := ⟨23, by decide⟩

/-- A value that does not fit into one blob. -/
def thirtyOctets : Value := ⟨List.replicate 30 0, by decide⟩

/-- A device connects over LE, and its value is cut off after the first blob. -/
theorem not_alwaysTransfersWhole : ¬AlwaysTransfersWhole := by
  intro h
  have hind : (((Connections.init 1).gattHandleAttConnectInd 0x40 true 23).toOption).any fun t =>
      t.gattFindConn 0x40 = some 1 ∧ (t.cidMap 1).mtu = 0 := by decide
  obtain ⟨table, htable, hentry⟩ := (Option.any_eq_true _ _).mp hind
  obtain ⟨hfound, hmtu⟩ := of_decide_eq_true hentry
  have hok : (Connections.init 1).gattHandleAttConnectInd 0x40 true defaultMtu.val = .ok table := by
    cases hresult : (Connections.init 1).gattHandleAttConnectInd 0x40 true 23 with
    | error fault =>
      rw [hresult] at htable
      exact absurd htable (by simp [Except.toOption])
    | ok table' =>
      rw [hresult] at htable
      exact hresult.trans (congrArg Except.ok (Option.some.inj htable))
  have hreads := (h ⟨table, 0x40, 1, defaultMtu, .indicated hok hfound⟩ thirtyOctets).1
  have hfits := (ReadLong.readsWhole_iff_fits _ _ _).mp hreads
  change ReadLong.Fits (table.cidMap 1).mtu defaultMtu 30 at hfits
  rw [hmtu] at hfits
  have hnot : ¬ReadLong.Fits 0 defaultMtu 30 := by
    rw [ReadLong.Fits]
    decide
  exact hnot hfits

end Cbps.Gatt
