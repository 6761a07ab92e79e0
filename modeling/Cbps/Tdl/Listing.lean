import Cbps.Tdl.Expected
import Cbps.Tdl.Index

/-!
# The records an index lists

`Listing cfg s ls` is the invariant of the trusted device list: the index names the positions
of the slots `ls` and is free behind them, the positions are distinct and in range, each of
them holds the slot's record, and no two records are of the same device. Under it,
`tdl_find_device` is a lookup in `ls`, and each change of the index is one of the list
operations of `Lib.Recency`.
-/

namespace Cbps.Tdl

open Lib List Function

/-- A listed position and its record. -/
structure Slot where
  pos : ℕ
  td : TdData

namespace Slot

def device (l : Slot) : TypedBdaddr := unpackTdBdaddr l.td

def priority (l : Slot) : Bool := l.td.content.priorityDevice

def entry (l : Slot) : Entry := ⟨l.device, l.priority⟩

end Slot

/-- The index lists exactly these slots. -/
structure Listing (cfg : Config) (s : Store) (ls : List Slot) : Prop where
  order : readTrustedDeviceIndex cfg.target s =
    ls.map Slot.pos ++ List.replicate (maxNoDevicesToManage - ls.length) tdiUnused
  length_le : ls.length ≤ cfg.tdlNumberOfDevices
  pos_nodup : (ls.map Slot.pos).Nodup
  pos_lt : ∀ l ∈ ls, l.pos < cfg.tdlNumberOfDevices
  record : ∀ l ∈ ls, s.record l.pos = some l.td
  device_nodup : (ls.map Slot.device).Nodup

variable {cfg : Config} {s s' : Store} {ls : List Slot}

/-- An empty store lists nothing. -/
theorem Listing.empty (hword : cfg.target = .wordAddressed) : Listing cfg {} [] where
  order := by rw [hword]; rfl
  length_le := Nat.zero_le _
  pos_nodup := nodup_nil
  pos_lt := by simp
  record := by simp
  device_nodup := nodup_nil

/-! ### Finding -/

/-- The bits that the scan has set after passing over these positions. -/
def usedBits (used : ℕ) (ps : List ℕ) : ℕ := ps.foldl (fun used pos => used ||| 1 <<< pos) used

theorem testBit_usedBits (used : ℕ) (ps : List ℕ) (pos : ℕ) :
    (usedBits used ps).testBit pos = (used.testBit pos || decide (pos ∈ ps)) := by
  induction ps generalizing used with
  | nil => simp [usedBits]
  | cons p ps ih =>
    rw [usedBits, foldl_cons, ← usedBits, ih, Nat.testBit_or, Nat.one_shiftLeft,
      Nat.testBit_two_pow]
    by_cases hp : p = pos
    · simp [hp]
    · simp [hp, Ne.symm hp]

/-- Passing over records of other devices. -/
theorem tdlScan_append {device : TypedBdaddr} {before : List Slot}
    (hlt : ∀ l ∈ before, l.pos ≠ tdiUnused) (hrec : ∀ l ∈ before, s.record l.pos = some l.td)
    (hdev : device ∉ before.map Slot.device) (order : List ℕ) (idx used : ℕ) :
    tdlScan s device (before.map Slot.pos ++ order) idx used =
      tdlScan s device order (idx + before.length) (usedBits used (before.map Slot.pos)) := by
  induction before generalizing idx used with
  | nil => rfl
  | cons l before ih =>
    have hl : unpackTdBdaddr l.td ≠ device := fun h => hdev (by simp [Slot.device, h])
    rw [map_cons, cons_append, tdlScan, if_neg (hlt l (by simp)), hrec l (by simp)]
    simp only [if_neg hl]
    rw [ih (fun l hl => hlt l (by simp [hl])) (fun l hl => hrec l (by simp [hl]))
      (fun h => hdev (by simp_all)), length_cons, Nat.add_assoc, Nat.add_comm 1]
    rfl

/-- Some position in range is free, and the first free one is. -/
theorem firstFree_spec {n : ℕ} (hn : n ≤ 16) {ps : List ℕ} (hps : ps.length < n) :
    firstFree (usedBits 0 ps) < n ∧ firstFree (usedBits 0 ps) ∉ ps := by
  -- fewer than `n` positions cannot cover the first `n`
  obtain ⟨free, hfree, hmem⟩ : ∃ free < n, free ∉ ps := by
    by_contra hall
    push Not at hall
    have hle := nodup_range.length_le_of_subset
      (show List.range n ⊆ ps from fun pos hpos => hall pos (mem_range.mp hpos))
    rw [length_range] at hle
    omega
  have hbit : ∀ pos, (!(usedBits 0 ps).testBit pos) = decide (pos ∉ ps) := fun pos => by
    rw [testBit_usedBits]
    simp
  have hsome : ((List.range 16).find? fun pos => !(usedBits 0 ps).testBit pos).isSome := by
    rw [List.find?_isSome]
    exact ⟨free, mem_range.mpr (by omega), by simpa [hbit] using hmem⟩
  obtain ⟨first, hfirst⟩ := Option.isSome_iff_exists.mp hsome
  rw [firstFree, hfirst, Option.getD_some]
  obtain ⟨hclear, -, hmin⟩ := List.find?_range_eq_some.mp hfirst
  refine ⟨?_, by simpa [hbit] using hclear⟩
  by_contra hge
  exact hmem (by simpa [testBit_usedBits] using hmin free (by omega))

/-- The slots that stay when the device is recorded. -/
def restOf (cfg : Config) (device : TypedBdaddr) (ls : List Slot) : List Slot :=
  (Lib.without Slot.device device ls).take (cfg.tdlNumberOfDevices - 1)

/-- The position and the place that `tdl_find_device` returns: those of the listed device, or
those for a new record, which may cost the last one its slot. -/
structure Place (cfg : Config) (s : Store) (ls : List Slot) (device : TypedBdaddr)
    (pos idx : ℕ) : Prop where
  pos_lt : pos < cfg.tdlNumberOfDevices
  idx_lt : idx < cfg.tdlNumberOfDevices
  order : (readTrustedDeviceIndex cfg.target s).take idx ++
      (readTrustedDeviceIndex cfg.target s).drop (idx + 1) =
    (restOf cfg device ls).map Slot.pos ++
      List.replicate (maxNoDevicesToManage - 1 - (restOf cfg device ls).length) tdiUnused
  pos_notMem : pos ∉ (restOf cfg device ls).map Slot.pos
  listed : ∀ l, Lib.lookup Slot.device device ls = some l → l.pos = pos
  evicted : Lib.lookup Slot.device device ls = none → ls.length = cfg.tdlNumberOfDevices →
    ∃ before l, ls = before ++ [l] ∧ l.pos = pos

variable {l : Slot} {before after : List Slot}

namespace Listing

theorem pos_ne (h : Listing cfg s ls) (hl : l ∈ ls) : l.pos ≠ tdiUnused := by
  have hlt := h.pos_lt l hl
  have hle := cfg.le
  simp only [maxNoDevicesToManage, tdiUnused] at *
  omega

/-- What a reader sees of the index. -/
theorem take_order (h : Listing cfg s ls) :
    (readTrustedDeviceIndex cfg.target s).take cfg.tdlNumberOfDevices =
      ls.map Slot.pos ++ List.replicate (cfg.tdlNumberOfDevices - ls.length) tdiUnused := by
  have hle := cfg.le
  rw [h.order, take_append, take_of_length_le (by simpa using h.length_le),
    take_replicate, length_map,
    Nat.min_eq_left (Nat.sub_le_sub_right hle ls.length)]

theorem drop_order (h : Listing cfg s ls) :
    (readTrustedDeviceIndex cfg.target s).drop cfg.tdlNumberOfDevices =
      List.replicate (maxNoDevicesToManage - cfg.tdlNumberOfDevices) tdiUnused := by
  have hle := h.length_le
  rw [h.order, drop_append, drop_eq_nil_of_le (by simpa using hle), nil_append,
    drop_replicate, length_map]
  congr 1
  omega

/-- Dropping one listed entry. -/
theorem take_append_drop (h : Listing cfg s (before ++ l :: after)) :
    (readTrustedDeviceIndex cfg.target s).take before.length ++
        (readTrustedDeviceIndex cfg.target s).drop (before.length + 1) =
      (before ++ after).map Slot.pos ++
        List.replicate (maxNoDevicesToManage - 1 - (before ++ after).length) tdiUnused := by
  have hle := h.length_le
  have hsub : maxNoDevicesToManage - (before ++ l :: after).length =
      maxNoDevicesToManage - 1 - (before ++ after).length := by
    simp only [length_append, length_cons]
    omega
  rw [h.order, hsub, map_append, map_cons, append_assoc,
    take_append_of_le_length (by simp), take_of_length_le (by simp),
    drop_append, length_map, drop_eq_nil_of_le (by simp)]
  simp

/-- A listed device is found in its slot. -/
theorem find_listed (h : Listing cfg s ls) {device : TypedBdaddr}
    (hl : Lib.lookup Slot.device device ls = some l) :
    ∃ idx, tdlFindDevice cfg s device = (some l.td, l.pos, idx) ∧
      Place cfg s ls device l.pos idx := by
  obtain ⟨before, after, rfl, hwithout⟩ := lookup_split h.device_nodup hl
  have hdevice : l.device = device := key_of_lookup hl
  have hbefore : device ∉ before.map Slot.device := by
    have hnodup := h.device_nodup
    rw [map_append, map_cons, hdevice] at hnodup
    exact fun hmem => (nodup_append.mp hnodup).2.2 _ hmem _ mem_cons_self rfl
  have hscan := tdlScan_append
    (fun l' hl' => h.pos_ne (mem_append_left _ hl'))
    (fun l' hl' => h.record l' (mem_append_left _ hl')) hbefore
    (l.pos :: (after.map Slot.pos ++
      List.replicate (cfg.tdlNumberOfDevices - (before ++ l :: after).length) tdiUnused)) 0 0
  rw [tdlScan, if_neg (h.pos_ne (by simp)), h.record l (by simp)] at hscan
  simp only [if_pos (show unpackTdBdaddr l.td = device from hdevice)] at hscan
  have hrest : restOf cfg device (before ++ l :: after) = before ++ after := by
    have hle := h.length_le
    simp only [length_append, length_cons] at hle
    rw [restOf, hwithout, take_of_length_le (by rw [length_append]; omega)]
  refine ⟨before.length, ?_, ?_⟩
  · rw [tdlFindDevice, h.take_order, map_append, map_cons, append_assoc,
      cons_append, hscan]
    simp
  · have hle := h.length_le
    simp only [length_append, length_cons] at hle
    refine ⟨h.pos_lt l (by simp), by omega, ?_, ?_, ?_, ?_⟩
    · rw [hrest]
      exact h.take_append_drop
    · have hnodup := h.pos_nodup
      rw [map_append, map_cons] at hnodup
      rw [hrest, map_append]
      exact (nodup_middle.mp hnodup |> nodup_cons.mp).1
    · intro l' hl'
      rw [hl] at hl'
      rw [Option.some.inj hl']
    · intro hnone
      rw [hl] at hnone
      cases hnone

/-- A device that is not listed gets a free position, or the one of the last slot. -/
theorem find_new (h : Listing cfg s ls) {device : TypedBdaddr}
    (hnone : Lib.lookup Slot.device device ls = none) :
    ∃ pos idx, tdlFindDevice cfg s device = (none, pos, idx) ∧
      Place cfg s ls device pos idx := by
  have hnew : device ∉ ls.map Slot.device := lookup_eq_none_iff.mp hnone
  have hscan := tdlScan_append (fun l hl => h.pos_ne hl) h.record hnew
    (List.replicate (cfg.tdlNumberOfDevices - ls.length) tdiUnused) 0 0
  have hle := cfg.le
  have hpos := cfg.pos
  rw [Nat.zero_add] at hscan
  rcases Nat.lt_or_ge ls.length cfg.tdlNumberOfDevices with hlt | hge
  · -- there is room: the scan stops at the first unused entry
    obtain ⟨k, hk⟩ : ∃ k, cfg.tdlNumberOfDevices - ls.length = k + 1 :=
      ⟨cfg.tdlNumberOfDevices - ls.length - 1, by omega⟩
    rw [hk, replicate_succ, tdlScan, if_pos rfl] at hscan
    have hroom : (ls.map Slot.pos).length < cfg.tdlNumberOfDevices := by simpa using hlt
    have hfree := firstFree_spec (by simp only [maxNoDevicesToManage] at hle; omega) hroom
    have hrest : restOf cfg device ls = ls := by
      rw [restOf, without_eq_self hnew, take_of_length_le (by omega)]
    refine ⟨_, _, ?_, hfree.1, hlt, ?_, ?_, ?_, ?_⟩
    · rw [tdlFindDevice, h.take_order, hk, replicate_succ, hscan]
      simp [hlt]
    · rw [hrest, h.order, take_append_of_le_length (by simp),
        take_of_length_le (by simp), drop_append, length_map,
        drop_eq_nil_of_le (by simp), nil_append, drop_replicate]
      congr 2
      omega
    · rw [hrest]
      exact hfree.2
    · intro l hl
      rw [hnone] at hl
      cases hl
    · intro _ hfull
      omega
  · -- the list is full: the last slot is given away
    have hfull : ls.length = cfg.tdlNumberOfDevices := Nat.le_antisymm h.length_le hge
    obtain ⟨before, l, rfl⟩ : ∃ before l, ls = before ++ [l] :=
      ⟨ls.dropLast, ls.getLast (ne_nil_of_length_pos (by omega)),
        (dropLast_append_getLast _).symm⟩
    rw [length_append, length_singleton] at hfull
    have hrest : restOf cfg device (before ++ [l]) = before := by
      rw [restOf, without_eq_self hnew, take_append_of_le_length (by omega),
        take_of_length_le (by omega)]
    have hidx : cfg.tdlNumberOfDevices - 1 = before.length := by omega
    refine ⟨l.pos, before.length, ?_, h.pos_lt l (by simp), by omega, ?_, ?_, ?_, ?_⟩
    · rw [length_append, length_singleton, hfull, Nat.sub_self, replicate_zero,
        tdlScan] at hscan
      rw [tdlFindDevice, h.take_order, length_append, length_singleton, hfull,
        Nat.sub_self, replicate_zero, hscan]
      simp [hidx, h.order]
    · rw [hrest]
      have hdrop := h.take_append_drop
      simpa using hdrop
    · have hnodup := h.pos_nodup
      rw [hrest]
      rw [map_append] at hnodup
      exact fun hmem => (nodup_append.mp hnodup).2.2 _ hmem _ (by simp) rfl
    · intro l' hl'
      rw [hnone] at hl'
      cases hl'
    · exact fun _ _ => ⟨before, l, rfl, rfl⟩

/-- `tdl_find_device` is a lookup. -/
theorem find (h : Listing cfg s ls) (device : TypedBdaddr) :
    ∃ pos idx, tdlFindDevice cfg s device =
        ((Lib.lookup Slot.device device ls).map Slot.td, pos, idx) ∧
      Place cfg s ls device pos idx := by
  cases hl : Lib.lookup Slot.device device ls with
  | none => exact h.find_new hl
  | some l =>
    obtain ⟨idx, hfind, hplace⟩ := h.find_listed hl
    exact ⟨l.pos, idx, hfind, hplace⟩

end Listing

/-! ### Changing the index -/

theorem restOf_sublist (cfg : Config) (device : TypedBdaddr) (ls : List Slot) :
    (restOf cfg device ls).Sublist ls :=
  (take_sublist _ _).trans (without_sublist device ls)

theorem length_restOf_lt (cfg : Config) (device : TypedBdaddr) (ls : List Slot) :
    (restOf cfg device ls).length < cfg.tdlNumberOfDevices := by
  have hpos := cfg.pos
  rw [restOf, length_take]
  omega

theorem notMem_restOf (cfg : Config) (device : TypedBdaddr) (ls : List Slot) :
    device ∉ (restOf cfg device ls).map Slot.device := fun hmem =>
  notMem_map_without device ls (((take_sublist _ _).map Slot.device).subset hmem)

namespace Listing

/-- Only the index and the listed records matter. -/
theorem congr (h : Listing cfg s ls) (hindex : s'.index = s.index)
    (hrec : ∀ l ∈ ls, s'.record l.pos = s.record l.pos) : Listing cfg s' ls where
  order := (readTrustedDeviceIndex_congr hindex).trans h.order
  length_le := h.length_le
  pos_nodup := h.pos_nodup
  pos_lt := h.pos_lt
  record l hl := (hrec l hl).trans (h.record l hl)
  device_nodup := h.device_nodup

/-- A listed device leaves room for all others. -/
theorem restOf_eq_without (h : Listing cfg s ls) {device : TypedBdaddr}
    (hl : Lib.lookup Slot.device device ls = some l) :
    restOf cfg device ls = Lib.without Slot.device device ls := by
  obtain ⟨before, after, rfl, hwithout⟩ := lookup_split h.device_nodup hl
  have hle := h.length_le
  simp only [length_append, length_cons] at hle
  rw [restOf, hwithout, take_of_length_le (by rw [length_append]; omega)]

/-- A new record of a listed device, in its place. -/
theorem replace (h : Listing cfg s (before ++ l :: after))
    {td : TdData} (hdevice : unpackTdBdaddr td = l.device) :
    Listing cfg (s.storeRecord l.pos (some td)) (before ++ ⟨l.pos, td⟩ :: after) := by
  have hpos : (before ++ ⟨l.pos, td⟩ :: after).map Slot.pos =
      (before ++ l :: after).map Slot.pos := by simp
  have hdev : (before ++ ⟨l.pos, td⟩ :: after).map Slot.device =
      (before ++ l :: after).map Slot.device := by
    rw [map_append, map_append, map_cons, map_cons]
    exact congrArg _ (congrArg₂ _ hdevice rfl)
  have hnodup := h.pos_nodup
  rw [map_append, map_cons] at hnodup
  have hother : ∀ l', l' ∈ before ++ after → l'.pos ≠ l.pos := fun l' hl' heq =>
    (nodup_cons.mp (nodup_middle.mp hnodup)).1
      (map_append ▸ heq ▸ mem_map_of_mem hl')
  refine ⟨?_, ?_, hpos ▸ h.pos_nodup, fun l' hl' => ?_, fun l' hl' => ?_, hdev ▸ h.device_nodup⟩
  · have hread : readTrustedDeviceIndex cfg.target (s.storeRecord l.pos (some td)) =
        readTrustedDeviceIndex cfg.target s := readTrustedDeviceIndex_congr rfl
    rw [hread, h.order, hpos]
    simp
  · simpa using h.length_le
  · obtain ⟨l'', hl'', heq⟩ := mem_map.mp (hpos ▸ mem_map_of_mem hl')
    exact heq ▸ h.pos_lt l'' hl''
  · rcases mem_append.mp hl' with hmem | hmem
    · exact (update_of_ne (hother l' (mem_append_left _ hmem)) _ _).trans
        (h.record l' (mem_append_left _ hmem))
    · rcases mem_cons.mp hmem with rfl | hmem
      · exact update_self ..
      · exact (update_of_ne (hother l' (mem_append_right _ hmem)) _ _).trans
          (h.record l' (mem_append_right _ (mem_cons_of_mem _ hmem)))

variable (hword : cfg.target = .wordAddressed)

include hword

/-- Storing the order of new slots lists them. -/
theorem store (hlen : ls.length ≤ cfg.tdlNumberOfDevices) (hnodup : (ls.map Slot.pos).Nodup)
    (hlt : ∀ l ∈ ls, l.pos < cfg.tdlNumberOfDevices)
    (hrec : ∀ l ∈ ls, s.record l.pos = some l.td) (hdev : (ls.map Slot.device).Nodup) :
    Listing cfg (storeTrustedDeviceIndex cfg.target s
      (ls.map Slot.pos ++ List.replicate (maxNoDevicesToManage - ls.length) tdiUnused)) ls where
  order := by
    have hle := cfg.le
    rw [hword]
    refine readTrustedDeviceIndex_store s ?_ ?_
    · rw [length_append, length_map, length_replicate]
      omega
    · intro pos hpos
      rcases mem_append.mp hpos with hmem | hmem
      · obtain ⟨l, hl, rfl⟩ := mem_map.mp hmem
        exact Nat.lt_of_lt_of_le (hlt l hl) (Nat.le_trans hle (by decide))
      · rw [(mem_replicate.mp hmem).2]
        decide
  length_le := hlen
  pos_nodup := hnodup
  pos_lt := hlt
  record := hrec
  device_nodup := hdev

/-- The device comes to the front, with the record that is stored at its position. -/
theorem moveToFront (h : Listing cfg s ls) {device : TypedBdaddr} {pos idx : ℕ}
    (hplace : Place cfg s ls device pos idx) (td : TdData) (hdevice : unpackTdBdaddr td = device)
    (hindex : s'.index = s.index) (hrec : s'.record pos = some td)
    (hframe : ∀ p, p ≠ pos → s'.record p = s.record p) :
    Listing cfg (updateTrustedDeviceIndex cfg s' pos idx) (⟨pos, td⟩ :: restOf cfg device ls) := by
  have hsub := restOf_sublist cfg device ls
  have hidx : idx < (readTrustedDeviceIndex cfg.target s).length := by
    rw [length_readTrustedDeviceIndex]
    exact Nat.lt_of_lt_of_le hplace.idx_lt cfg.le
  have hnew : (shiftDown (readTrustedDeviceIndex cfg.target s') idx).set 0 pos =
      (⟨pos, td⟩ :: restOf cfg device ls).map Slot.pos ++
        List.replicate (maxNoDevicesToManage - (⟨pos, td⟩ :: restOf cfg device ls).length)
          tdiUnused := by
    rw [readTrustedDeviceIndex_congr hindex, set_shiftDown hidx, hplace.order, map_cons,
      length_cons, cons_append, Nat.sub_sub, Nat.add_comm 1]
  rw [updateTrustedDeviceIndex, hnew]
  refine store hword (length_restOf_lt cfg device ls) ?_ ?_ ?_ ?_
  · exact nodup_cons.mpr ⟨hplace.pos_notMem, h.pos_nodup.sublist (hsub.map _)⟩
  · intro l hl
    rcases mem_cons.mp hl with rfl | hmem
    · exact hplace.pos_lt
    · exact h.pos_lt l (hsub.subset hmem)
  · intro l hl
    rcases mem_cons.mp hl with rfl | hmem
    · exact hrec
    · have hne : l.pos ≠ pos := fun heq => hplace.pos_notMem (heq ▸ mem_map_of_mem hmem)
      rw [hframe _ hne, h.record l (hsub.subset hmem)]
  · rw [map_cons]
    exact nodup_cons.mpr ⟨hdevice ▸ notMem_restOf cfg device ls,
      h.device_nodup.sublist (hsub.map _)⟩

/-- The device is not listed any more. -/
theorem delete (h : Listing cfg s ls) {device : TypedBdaddr}
    (hl : Lib.lookup Slot.device device ls = some l) {idx : ℕ}
    (hplace : Place cfg s ls device l.pos idx) :
    Listing cfg (deleteFromTrustedDeviceList cfg s l.pos idx) (Lib.without Slot.device device ls) := by
  have hrest := h.restOf_eq_without hl
  have hsub : (Lib.without Slot.device device ls).Sublist ls := without_sublist device ls
  have hlen := length_restOf_lt cfg device ls
  have hlast : cfg.tdlNumberOfDevices - 1 < (readTrustedDeviceIndex cfg.target s).length := by
    have hle := cfg.le
    have hpos := cfg.pos
    rw [length_readTrustedDeviceIndex]
    omega
  have hidx := hplace.idx_lt
  have horder := hplace.order
  have hnotMem := hplace.pos_notMem
  rw [hrest] at hlen horder hnotMem
  -- the entries behind the last device were unused anyway
  have hnew : (shiftUp (readTrustedDeviceIndex cfg.target s) idx (cfg.tdlNumberOfDevices - 1)).set
        (cfg.tdlNumberOfDevices - 1) tdiUnused =
      (Lib.without Slot.device device ls).map Slot.pos ++
        List.replicate (maxNoDevicesToManage - (Lib.without Slot.device device ls).length)
          tdiUnused := by
    have hbehind := h.drop_order
    have hcut : (readTrustedDeviceIndex cfg.target s).drop (idx + 1) =
        ((readTrustedDeviceIndex cfg.target s).take cfg.tdlNumberOfDevices).drop (idx + 1) ++
          (readTrustedDeviceIndex cfg.target s).drop cfg.tdlNumberOfDevices := by
      conv_lhs => rw [← List.take_append_drop cfg.tdlNumberOfDevices
        (readTrustedDeviceIndex cfg.target s)]
      rw [length_readTrustedDeviceIndex] at hlast
      exact drop_append_of_le_length
        (by rw [length_take, length_readTrustedDeviceIndex]; omega)
    rw [set_shiftUp (by omega) hlast, Nat.sub_add_cancel cfg.pos]
    rw [hcut, hbehind, ← append_assoc] at horder
    rw [hbehind, ← replicate_succ, replicate_succ', ← append_assoc, horder,
      append_assoc, ← replicate_succ']
    congr 2
    have hle := cfg.le
    omega
  have hlist := store hword (s := s) (Nat.le_of_lt hlen) (h.pos_nodup.sublist (hsub.map _))
    (fun l' hl' => h.pos_lt l' (hsub.subset hl')) (fun l' hl' => h.record l' (hsub.subset hl'))
    (h.device_nodup.sublist (hsub.map _))
  rw [← hnew] at hlist
  refine hlist.congr rfl fun l' hl' => ?_
  have hne : l'.pos ≠ l.pos := fun heq => hnotMem (heq ▸ mem_map_of_mem hl')
  exact update_of_ne hne _ _

end Listing

end Cbps.Tdl
