import Cbps.Tdl.Consistency

/-!
# The index at startup

What the first reader of the index finds: `index_codec_iff` says when an index that was stored comes back where a `u16`
has two units, and that an index that is absent does not read as an empty one there. Then the scan that registers the
listed devices, with the recovery from a record that cannot be retrieved. The loop of the recovery ends in a semicolon,
and the block behind it runs once, for the position after the last; `recovers_iff` says for which stores that makes no
difference.
-/

namespace Cbps.Tdl

open List Function

/-- `ConnectionTrustedDeviceListSize`. -/
def connectionTrustedDeviceListSize (cfg : Config) (s : Store) : ℕ :=
  (((readTrustedDeviceIndex cfg.target s).take cfg.tdlNumberOfDevices).takeWhile fun pos => pos ≠ tdiUnused).length

/-- How a startup ends. -/
inductive Startup
  | returned (count : ℕ) (s : Store)
  | panicked (s : Store)

/-- The recovery in `connectionInitTrustedDeviceList`. The loop over the positions has an empty body. -/
def deleteIndexAndList (cfg : Config) (s : Store) : Store :=
  { s with index := none }.storeRecord cfg.tdlNumberOfDevices none

/-- The loop of `connectionInitTrustedDeviceList` over the entries that are left. -/
def initScan (cfg : Config) (s : Store) : List ℕ → (i : ℕ) → Startup
  | [], i => .returned i s
  | pos :: order, i =>
    if pos = tdiUnused then .returned i s else
    match s.record pos with
    | some td => initScan cfg (s.vmSendDmPrim (.addDeviceReq (dmSmAddDeviceReq cfg.target td))) order (i + 1)
    | none => .panicked (deleteIndexAndList cfg s)

/-- `connectionInitTrustedDeviceList`. -/
def connectionInitTrustedDeviceList (cfg : Config) (s : Store) : Startup :=
  initScan cfg s ((readTrustedDeviceIndex cfg.target s).take cfg.tdlNumberOfDevices) 0

/-! ### The index comes back -/

/-- **The promise** of the index of a target: what is stored comes back, and without an index all entries are unused, so
that the list is empty. -/
def IndexCodec (t : Target) : Prop :=
  (∀ s order, order.length = maxNoDevicesToManage → (∀ pos ∈ order, pos < 16) →
    readTrustedDeviceIndex t (storeTrustedDeviceIndex t s order) = order) ∧
  ∀ s : Store, s.index = none → (∀ pos ∈ readTrustedDeviceIndex t s, pos = tdiUnused) ∧
    ∀ cfg : Config, cfg.target = t → connectionTrustedDeviceListSize cfg s = 0

variable {t : Target} {s : Store}

/-- What comes back of an entry: a bit that the second word held before is not lost. -/
theorem getElem_read_store {wideInt : Bool} {stack : ℕ → ℕ} {order : List ℕ}
    (hlen : order.length = maxNoDevicesToManage) (hlt : ∀ pos ∈ order, pos < 16) (i : ℕ) (hi : i < 8) :
    (readTrustedDeviceIndex (.octetAddressed wideInt stack)
      (storeTrustedDeviceIndex (.octetAddressed wideInt stack) s order))[i]? =
      some (if i < 4 then order.getD i 0 else Lib.fieldAt 4 (stack s.indexStores) (i - 4) ||| order.getD i 0) := by
  have hget : order.getD i 0 < 2 ^ 4 := by
    have h8 : i < order.length := hlen ▸ hi
    rw [getD_eq_getElem _ _ h8]
    exact hlt _ (getElem_mem h8)
  have hread : ∀ word0 word1 : ℕ, ((List.range maxNoDevicesToManage).map fun i =>
      Lib.fieldAt 4 (if i / 4 = 0 then word0 else word1) (i % 4))[i]? =
        some (Lib.fieldAt 4 (if i / 4 = 0 then word0 else word1) (i % 4)) := by
    intro word0 word1
    rw [List.getElem?_map, List.getElem?_range (n := maxNoDevicesToManage) hi]
    rfl
  refine (hread _ _).trans (congrArg some ?_)
  by_cases h4 : i < 4
  · have htake : (order.take 4).getD i 0 = order.getD i 0 := by
      rw [getD_eq_getElem?_getD, List.getElem?_take_of_lt h4, ← getD_eq_getElem?_getD]
    rw [if_pos (Nat.div_eq_of_lt h4), if_pos h4, Nat.mod_eq_of_lt h4,
      Lib.fieldAt_orFields_zero (by rw [htake]; exact hget), htake]
  · have hdrop : (order.drop 4).getD (i - 4) 0 = order.getD i 0 := by
      rw [getD_eq_getElem?_getD, List.getElem?_drop, ← getD_eq_getElem?_getD]
      congr 1
      omega
    have hmod : i % 4 = i - 4 := by omega
    have hmask : order.getD i 0 &&& (2 ^ 4 - 1) = order.getD i 0 := by
      rw [Nat.and_two_pow_sub_one_eq_mod, Nat.mod_eq_of_lt hget]
    rw [if_neg (by omega), if_neg h4, hmod, Lib.fieldAt_orFields, hdrop, hmask]
    rfl

/-- Where a `u16` has two units, an index comes back if the second half of it covers what the stack held, and an index
that is absent reads as a full list. -/
theorem index_codec_iff (wideInt : Bool) (stack : ℕ → ℕ) :
    (∀ (s : Store) (order : List ℕ), order.length = maxNoDevicesToManage → (∀ pos ∈ order, pos < 16) →
      (readTrustedDeviceIndex (.octetAddressed wideInt stack)
        (storeTrustedDeviceIndex (.octetAddressed wideInt stack) s order) = order ↔
        ∀ i < 4, Lib.fieldAt 4 (stack s.indexStores) i ||| order.getD (4 + i) 0 = order.getD (4 + i) 0)) ∧
    ∀ s : Store, s.index = none →
      (∀ pos ∈ readTrustedDeviceIndex (.octetAddressed wideInt stack) s, pos ≠ tdiUnused) ∧
      ∀ cfg : Config, cfg.target = .octetAddressed wideInt stack →
        connectionTrustedDeviceListSize cfg s = cfg.tdlNumberOfDevices := by
  constructor
  · intro s order hlen hlt
    have hread := fun i hi => @getElem_read_store s wideInt stack order hlen hlt i hi
    have hentry : ∀ i < 8, order[i]? = some (order.getD i 0) := by
      intro i hi
      have h8 : i < order.length := hlen ▸ hi
      rw [List.getElem?_eq_getElem h8, getD_eq_getElem _ _ h8]
    constructor
    · intro heq i hi
      have h := hread (4 + i) (by omega)
      rw [heq, hentry (4 + i) (by omega), if_neg (by omega), Nat.add_sub_cancel_left] at h
      exact (Option.some.inj h).symm
    · intro hcover
      apply ext_getElem?
      intro i
      rcases Nat.lt_or_ge i 8 with hi | hi
      · rw [hread i hi, hentry i hi]
        split
        · rfl
        · have h := hcover (i - 4) (by omega)
          rw [show 4 + (i - 4) = i by omega] at h
          rw [h]
      · rw [List.getElem?_eq_none (by rw [length_readTrustedDeviceIndex]; exact hi),
          List.getElem?_eq_none (by rw [hlen]; exact hi)]
  · intro s hnone
    have hall : ∀ pos ∈ readTrustedDeviceIndex (.octetAddressed wideInt stack) s, pos ≠ tdiUnused := by
      intro pos hpos
      rw [readTrustedDeviceIndex, hnone] at hpos
      rw [eq_of_mem_replicate hpos]
      exact (by decide : (0x0f0f : ℕ) ≠ 0xf)
    refine ⟨hall, fun cfg htarget => ?_⟩
    rw [connectionTrustedDeviceListSize, htarget]
    rw [takeWhile_eq_self_iff.mpr fun pos hpos => decide_eq_true (hall pos (mem_of_mem_take hpos)),
      length_take, length_readTrustedDeviceIndex]
    exact Nat.min_eq_left cfg.le

/-- A stack word with all bits set makes the second half of an index of zeros read as unused. -/
theorem index_codec_iff_zero :
    readTrustedDeviceIndex (.octetAddressed true fun _ => 0)
        (storeTrustedDeviceIndex (.octetAddressed true fun _ => 0) {} [1, 0, 2, 3, 4, 5, 6, 7]) =
        [1, 0, 2, 3, 4, 5, 6, 7] ∧
      connectionTrustedDeviceListSize ⟨.octetAddressed true fun _ => 0, 8, by decide, by decide⟩ {} = 8 := by
  obtain ⟨hstored, habsent⟩ := index_codec_iff true fun _ => 0
  refine ⟨(hstored {} [1, 0, 2, 3, 4, 5, 6, 7] rfl (by decide)).mpr fun i _ => ?_, ?_⟩
  · rw [Lib.fieldAt_zero, Nat.zero_or]
  · exact (habsent {} rfl).2 _ rfl

/-- Nothing is stored, and the list has room for eight devices: eight are counted. -/
theorem not_indexCodec : ¬∀ wideInt stack, IndexCodec (.octetAddressed wideInt stack) := by
  intro h
  have hempty := ((h true fun _ => 0).2 {} rfl).2 ⟨.octetAddressed true fun _ => 0, 8, by decide, by decide⟩ rfl
  exact absurd hempty (by decide)

/-! ### The records are retrieved -/

/-- The positions that the scan goes through, if it comes to its end. -/
def indexedPositions (cfg : Config) (s : Store) : List ℕ :=
  ((readTrustedDeviceIndex cfg.target s).take cfg.tdlNumberOfDevices).takeWhile fun pos => pos ≠ tdiUnused

/-- The list and its index are gone, and nothing else. -/
structure Deleted (cfg : Config) (s s' : Store) : Prop where
  index : s'.index = none
  record : ∀ pos < cfg.tdlNumberOfDevices, s'.record pos = none
  others : ∀ pos, cfg.tdlNumberOfDevices ≤ pos → s'.record pos = s.record pos
  attr : s'.attr = s.attr

/-- **The promise** of a startup: every listed device is registered in the order of the index, or else the list is
deleted before the panic. -/
def Recovers (cfg : Config) (s : Store) : Prop :=
  ((∀ pos ∈ indexedPositions cfg s, s.record pos ≠ none) →
    connectionInitTrustedDeviceList cfg s = .returned (indexedPositions cfg s).length
      { s with sent := s.sent ++ ((indexedPositions cfg s).filterMap s.record).map fun td =>
          .addDeviceReq (dmSmAddDeviceReq cfg.target td) }) ∧
  ((∃ pos ∈ indexedPositions cfg s, s.record pos = none) →
    ∃ s', connectionInitTrustedDeviceList cfg s = .panicked s' ∧ Deleted cfg s s')

/-- The scan, of records that can all be retrieved. -/
theorem initScan_returned (cfg : Config) (s : Store) (order : List ℕ) (i : ℕ)
    (h : ∀ pos ∈ order.takeWhile fun pos => pos ≠ tdiUnused, s.record pos ≠ none) :
    initScan cfg s order i = .returned (i + (order.takeWhile fun pos => pos ≠ tdiUnused).length)
      { s with sent := s.sent ++ ((order.takeWhile fun pos => pos ≠ tdiUnused).filterMap s.record).map fun td =>
          .addDeviceReq (dmSmAddDeviceReq cfg.target td) } := by
  induction order generalizing s i with
  | nil => rw [initScan, takeWhile_nil, filterMap_nil, map_nil, append_nil]; rfl
  | cons pos order ih =>
    rw [initScan]
    by_cases hunused : pos = tdiUnused
    · rw [if_pos hunused, takeWhile_cons_of_neg (by simpa using hunused), filterMap_nil, map_nil,
        append_nil]
      rfl
    · have hwhile : (pos :: order).takeWhile (fun pos => pos ≠ tdiUnused) =
          pos :: order.takeWhile fun pos => pos ≠ tdiUnused := takeWhile_cons_of_pos (by simpa using hunused)
      rw [hwhile] at h ⊢
      obtain ⟨td, htd⟩ := Option.ne_none_iff_exists'.mp (h pos mem_cons_self)
      have htail := ih (s.vmSendDmPrim (.addDeviceReq (dmSmAddDeviceReq cfg.target td))) (i + 1)
        fun pos hpos => h pos (mem_cons_of_mem _ hpos)
      rw [if_neg hunused, htd]
      refine htail.trans ?_
      rw [filterMap_cons_some htd, map_cons, length_cons, Store.vmSendDmPrim]
      simp only [append_assoc, singleton_append, Nat.add_assoc, Nat.add_comm 1]

/-- The scan, where it meets a record that cannot be retrieved. -/
theorem initScan_panicked (cfg : Config) (s : Store) (order : List ℕ) (i : ℕ)
    (h : ∃ pos ∈ order.takeWhile fun pos => pos ≠ tdiUnused, s.record pos = none) :
    ∃ sent, initScan cfg s order i = .panicked (deleteIndexAndList cfg { s with sent := sent }) := by
  induction order generalizing s i with
  | nil =>
    obtain ⟨pos, hpos, -⟩ := h
    exact absurd hpos not_mem_nil
  | cons pos order ih =>
    obtain ⟨pos', hpos', hnone⟩ := h
    have hunused : pos ≠ tdiUnused := by
      intro hunused
      rw [takeWhile_cons_of_neg (by simpa using hunused)] at hpos'
      exact not_mem_nil hpos'
    rw [takeWhile_cons_of_pos (by simpa using hunused)] at hpos'
    rw [initScan, if_neg hunused]
    rcases hrecord : s.record pos with - | td
    · exact ⟨s.sent, rfl⟩
    · rcases mem_cons.mp hpos' with rfl | hpos'
      · exact absurd (hnone.symm.trans hrecord) nofun
      · exact ih (s.vmSendDmPrim (.addDeviceReq (dmSmAddDeviceReq cfg.target td))) (i + 1) ⟨pos', hpos', hnone⟩

/-- The startup keeps its promise if every listed record can be retrieved, or none is stored that should be deleted,
nor the one behind them that should not. -/
theorem recovers_iff (cfg : Config) (s : Store) :
    Recovers cfg s ↔ (∀ pos ∈ indexedPositions cfg s, s.record pos ≠ none) ∨
      ∀ pos ≤ cfg.tdlNumberOfDevices, s.record pos = none := by
  have hreturned : (∀ pos ∈ indexedPositions cfg s, s.record pos ≠ none) →
      connectionInitTrustedDeviceList cfg s = .returned (indexedPositions cfg s).length
        { s with sent := s.sent ++ ((indexedPositions cfg s).filterMap s.record).map fun td =>
            .addDeviceReq (dmSmAddDeviceReq cfg.target td) } := by
    intro hall
    have h := initScan_returned cfg s _ 0 hall
    rw [Nat.zero_add] at h
    exact h
  by_cases hall : ∀ pos ∈ indexedPositions cfg s, s.record pos ≠ none
  · refine iff_of_true ⟨hreturned, fun ⟨pos, hpos, hnone⟩ => absurd hnone (hall pos hpos)⟩ (.inl hall)
  · have hlost : ∃ pos ∈ indexedPositions cfg s, s.record pos = none := by
      by_contra hlost
      exact hall fun pos hpos hnone => hlost ⟨pos, hpos, hnone⟩
    obtain ⟨sent, hpanicked⟩ := initScan_panicked cfg s _ 0 hlost
    have hrecord : (deleteIndexAndList cfg { s with sent := sent }).record =
        Function.update s.record cfg.tdlNumberOfDevices none := rfl
    rw [or_iff_right hall]
    constructor
    · rintro ⟨-, hdeleted⟩
      obtain ⟨s', hs', hdeleted⟩ := hdeleted hlost
      obtain rfl : s' = deleteIndexAndList cfg { s with sent := sent } :=
        (Startup.panicked.inj (hpanicked.symm.trans hs')).symm
      intro pos hpos
      rcases Nat.lt_or_eq_of_le hpos with hlt | rfl
      · have h := hdeleted.record pos hlt
        rwa [hrecord, update_of_ne (Nat.ne_of_lt hlt)] at h
      · have h := hdeleted.others _ le_rfl
        rw [hrecord, update_self] at h
        exact h.symm
    · intro hnone
      refine ⟨fun h => absurd h hall, fun _ => ⟨_, hpanicked, ?_⟩⟩
      exact {
        index := rfl
        record := fun pos hpos => by
          rw [hrecord, update_of_ne (Nat.ne_of_lt hpos)]
          exact hnone pos hpos.le
        others := fun pos hpos => by
          rw [hrecord]
          rcases Nat.eq_or_lt_of_le hpos with rfl | hlt
          · rw [update_self]
            exact (hnone _ le_rfl).symm
          · rw [update_of_ne (Nat.ne_of_gt hlt)]
        attr := rfl }

/-- Two records are listed and the first cannot be retrieved: the second stays in the store. -/
theorem not_recovers : ¬∀ cfg s, Recovers cfg s := by
  intro h
  let cfg : Config := ⟨.wordAddressed, 2, by decide, by decide⟩
  let s : Store :=
    { index := some (0xff01, 0xffff), record := fun pos => if pos = 0 then some (.calloc .wordAddressed) else none }
  have hlost : ∃ pos ∈ indexedPositions cfg s, s.record pos = none := ⟨1, by decide, rfl⟩
  obtain ⟨s', hs', hdeleted⟩ := (h cfg s).2 hlost
  obtain rfl : s' = deleteIndexAndList cfg s := (Startup.panicked.inj hs').symm
  exact absurd (hdeleted.record 0 (by decide)) nofun

end Cbps.Tdl
