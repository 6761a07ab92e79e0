import Cbps.Tdl.Record
import Mathlib.Data.List.Range

/-!
# The persistent store of the trusted device list

The index is packed into two words, four bits an entry, and names positions of records in most
recently used order; every reader stops at the first unused entry. The store is a reliable
key-value map with one field for each kind of key: the index, the records behind it and the
attributes, both kept by position. The three ranges of keys do not meet.
-/

namespace Cbps.Tdl

/-- `MAX_NO_DEVICES_TO_MANAGE`. -/
def maxNoDevicesToManage : ℕ := 8

/-- `TDI_UNUSED`. -/
def tdiUnused : ℕ := 0xf

/-- What is fixed while the library runs. `ConnectionInitEx3` accepts one to eight devices and
falls back to eight. -/
structure Config where
  target : Target
  tdlNumberOfDevices : ℕ
  pos : 0 < tdlNumberOfDevices
  le : tdlNumberOfDevices ≤ maxNoDevicesToManage

/-- The persistent store, the primitives sent so far and the number of index stores so far. -/
structure Store where
  index : Option (ℕ × ℕ) := none
  record : ℕ → Option TdData := fun _ => none
  attr : ℕ → Option (List ℕ) := fun _ => none
  sent : List DmPrim := []
  indexStores : ℕ := 0

namespace Store

/-- `PsStore` of a record key, which `none` deletes. -/
def storeRecord (s : Store) (pos : ℕ) (td : Option TdData) : Store :=
  { s with record := Function.update s.record pos td }

/-- `PsStore` of an attribute key, which an empty attribute deletes. -/
def storeAttribute (s : Store) (pos : ℕ) (psdata : List ℕ) : Store :=
  { s with attr := Function.update s.attr pos (if psdata = [] then none else some psdata) }

/-- `VmSendDmPrim`. -/
def vmSendDmPrim (s : Store) (prim : DmPrim) : Store := { s with sent := s.sent ++ [prim] }

end Store

/-! ### The index -/

/-- What `memset` with `TDI_UNUSED` leaves in every entry. -/
def memsetUnused : Target → ℕ
  | .wordAddressed => 0x000f
  | .octetAddressed .. => 0x0f0f

/-- `read_trusted_device_index`. -/
def readTrustedDeviceIndex (t : Target) (s : Store) : List ℕ :=
  match s.index with
  | none => List.replicate maxNoDevicesToManage (memsetUnused t)
  | some (word0, word1) =>
    (List.range maxNoDevicesToManage).map fun i =>
      Lib.fieldAt 4 (if i / 4 = 0 then word0 else word1) (i % 4)

/-- What `memset` of `TDI_SIZE` units leaves in the second word of `ps_tdi`. -/
def clearedWord1 (t : Target) (s : Store) : ℕ :=
  match t with
  | .wordAddressed => 0
  | .octetAddressed _ stack => stack s.indexStores

/-- `store_trusted_device_index`. -/
def storeTrustedDeviceIndex (t : Target) (s : Store) (order : List ℕ) : Store :=
  { s with
    index := some (Lib.orFields 4 0 (order.take 4), Lib.orFields 4 (clearedWord1 t s) (order.drop 4))
    indexStores := s.indexStores + 1 }

/-! ### Finding a device -/

/-- What the loop of `tdl_find_device` ends with. -/
structure Scan where
  td : Option TdData
  pos : ℕ
  idx : ℕ
  used : ℕ

/-- The loop of `tdl_find_device` over the entries that are left. A record that cannot be
retrieved is passed over, and its slot does not count as used. -/
def tdlScan (s : Store) (device : TypedBdaddr) : List ℕ → (idx used : ℕ) → Scan
  | [], idx, used => ⟨none, 0, idx, used⟩
  | pos :: order, idx, used =>
    if pos = tdiUnused then ⟨none, pos, idx, used⟩ else
    match s.record pos with
    | none => tdlScan s device order (idx + 1) used
    | some td =>
      if unpackTdBdaddr td = device then ⟨some td, pos, idx, used⟩
      else tdlScan s device order (idx + 1) (used ||| 1 <<< pos)

/-- The first clear bit of the 16 bits of `used`. -/
def firstFree (used : ℕ) : ℕ := ((List.range 16).find? fun pos => !used.testBit pos).getD 16

/-- `tdl_find_device`: the record, its position and its place in the index, or the position and
the place a new record gets. -/
def tdlFindDevice (cfg : Config) (s : Store) (device : TypedBdaddr) : Option TdData × ℕ × ℕ :=
  let order := readTrustedDeviceIndex cfg.target s
  let scan := tdlScan s device (order.take cfg.tdlNumberOfDevices) 0 0
  if scan.td.isSome then (scan.td, scan.pos, scan.idx)
  else if scan.idx < cfg.tdlNumberOfDevices then (none, firstFree scan.used, scan.idx)
  else
    let idx := cfg.tdlNumberOfDevices - 1
    (none, order.getD idx tdiUnused, idx)

/-! ### Changing the index -/

/-- The loop of `update_trusted_device_index`. -/
def shiftDown (order : List ℕ) (idx : ℕ) : List ℕ :=
  (List.range idx).foldl
    (fun order i => order.set (idx - i) (order.getD (idx - i - 1) tdiUnused)) order

/-- `update_trusted_device_index`. -/
def updateTrustedDeviceIndex (cfg : Config) (s : Store) (pos idx : ℕ) : Store :=
  let order := readTrustedDeviceIndex cfg.target s
  storeTrustedDeviceIndex cfg.target s ((shiftDown order idx).set 0 pos)

/-- The loop of `delete_from_trusted_device_list`. -/
def shiftUp (order : List ℕ) (idx last : ℕ) : List ℕ :=
  (List.range' idx (last - idx)).foldl
    (fun order i => order.set i (order.getD (i + 1) tdiUnused)) order

/-- `delete_from_trusted_device_list`. -/
def deleteFromTrustedDeviceList (cfg : Config) (s : Store) (pos idx : ℕ) : Store :=
  let order := readTrustedDeviceIndex cfg.target s
  let last := cfg.tdlNumberOfDevices - 1
  let s := storeTrustedDeviceIndex cfg.target s ((shiftUp order idx last).set last tdiUnused)
  (s.storeRecord pos none).storeAttribute pos []

end Cbps.Tdl
