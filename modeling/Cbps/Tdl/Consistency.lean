import Cbps.Tdl.Steps

/-!
# The index and its records belong together

`Consistent` is what a reader of the index relies on: distinct positions in range, then only
unused entries, a record at each position and no device twice. In a run, the calls keep it
and keep every device that the model lists findable, as long as `Sound` holds before each of
them: on an octet-addressed target no device is recorded (the absent index does not read as
unused there), and all devices are deleted only when the priority devices are in front.
-/

namespace Cbps.Tdl

open Lib List

/-! ### Consistency -/

/-- The index that is stored, if one is. -/
def storedIndex (t : Target) (s : Store) : List ℕ :=
  if s.index.isSome then readTrustedDeviceIndex t s else []

/-- The positions in front of the first unused entry. -/
def listedPositions (t : Target) (s : Store) : List ℕ :=
  (storedIndex t s).takeWhile fun pos => pos ≠ tdiUnused

/-- The stored index lists distinct positions in range, followed by unused entries only, and
each position holds the record of another device. -/
structure Consistent (cfg : Config) (s : Store) : Prop where
  unused : ∀ pos ∈ (storedIndex cfg.target s).dropWhile fun pos => pos ≠ tdiUnused,
    pos = tdiUnused
  pos_nodup : (listedPositions cfg.target s).Nodup
  pos_lt : ∀ pos ∈ listedPositions cfg.target s, pos < cfg.tdlNumberOfDevices
  record : ∀ pos ∈ listedPositions cfg.target s, (s.record pos).isSome
  device_nodup : ((listedPositions cfg.target s).map fun pos =>
    (s.record pos).map unpackTdBdaddr).Nodup

/-- The device is found, with its own record. -/
def Found (cfg : Config) (s : Store) (device : TypedBdaddr) : Prop :=
  (tdlFindDevice cfg s device).1.map unpackTdBdaddr = some device

instance (cfg : Config) (s : Store) (device : TypedBdaddr) : Decidable (Found cfg s device) :=
  inferInstanceAs (Decidable (_ = _))

/-- The records that a reader of the index sees, in order. -/
def listedRecords (cfg : Config) (s : Store) : List TdData :=
  (((readTrustedDeviceIndex cfg.target s).take cfg.tdlNumberOfDevices).takeWhile
    fun pos => pos ≠ tdiUnused).filterMap s.record

/-- The listed priority devices are in front of the others. -/
def PriorityFirst (cfg : Config) (s : Store) : Prop :=
  Leading (fun td => td.content.priorityDevice) (listedRecords cfg s)

instance (cfg : Config) (s : Store) : Decidable (PriorityFirst cfg s) :=
  decidableLeading _ _

namespace Listing

variable {cfg : Config} {s : Store} {ls : List Slot}

theorem takeWhile_order (h : Listing cfg s ls) (k : ℕ) :
    (ls.map Slot.pos ++ List.replicate k tdiUnused).takeWhile (fun pos => pos ≠ tdiUnused) =
      ls.map Slot.pos := by
  have hall : ∀ pos ∈ ls.map Slot.pos, decide (pos ≠ tdiUnused) = true := by
    intro pos hpos
    obtain ⟨l, hl, rfl⟩ := mem_map.mp hpos
    simpa using h.pos_ne hl
  rw [takeWhile_append_of_pos hall]
  simp

theorem dropWhile_order (h : Listing cfg s ls) (k : ℕ) :
    (ls.map Slot.pos ++ List.replicate k tdiUnused).dropWhile (fun pos => pos ≠ tdiUnused) =
      List.replicate k tdiUnused := by
  have hall : ∀ pos ∈ ls.map Slot.pos, decide (pos ≠ tdiUnused) = true := by
    intro pos hpos
    obtain ⟨l, hl, rfl⟩ := mem_map.mp hpos
    simpa using h.pos_ne hl
  rw [dropWhile_append_of_pos hall]
  simp

theorem listedRecords_eq (h : Listing cfg s ls) : listedRecords cfg s = ls.map Slot.td := by
  rw [listedRecords, h.take_order, h.takeWhile_order, filterMap_map]
  have hrec : ∀ l ∈ ls, (s.record ∘ Slot.pos) l = (some ∘ Slot.td) l := h.record
  rw [filterMap_congr hrec, filterMap_eq_map]

theorem priorityFirst_iff (h : Listing cfg s ls) :
    PriorityFirst cfg s ↔ Leading Slot.priority ls := by
  rw [PriorityFirst, h.listedRecords_eq, Leading, pairwise_map]
  exact Iff.rfl

theorem consistent (h : Listing cfg s ls) : Consistent cfg s := by
  rcases hindex : s.index with _ | words
  · have hstored : storedIndex cfg.target s = [] := by rw [storedIndex, hindex]; rfl
    have hlisted : listedPositions cfg.target s = [] := by rw [listedPositions, hstored]; rfl
    exact ⟨by simp [hstored], by simp [hlisted], by simp [hlisted], by simp [hlisted],
      by simp [hlisted]⟩
  · have hstored : storedIndex cfg.target s = ls.map Slot.pos ++
        List.replicate (maxNoDevicesToManage - ls.length) tdiUnused := by
      rw [storedIndex, hindex]
      exact h.order
    have hlisted : listedPositions cfg.target s = ls.map Slot.pos := by
      rw [listedPositions, hstored, h.takeWhile_order]
    refine ⟨?_, hlisted ▸ h.pos_nodup, ?_, ?_, ?_⟩
    · rw [hstored, h.dropWhile_order]
      exact fun pos hpos => (mem_replicate.mp hpos).2
    · rw [hlisted]
      simpa using h.pos_lt
    · rw [hlisted]
      intro pos hpos
      obtain ⟨l, hl, rfl⟩ := mem_map.mp hpos
      rw [h.record l hl]
      rfl
    · have hdevices : ((ls.map Slot.pos).map fun pos => (s.record pos).map unpackTdBdaddr) =
          (ls.map Slot.device).map some := by
        rw [map_map, map_map]
        refine map_congr_left fun l hl => ?_
        simp only [Function.comp_apply, h.record l hl]
        rfl
      rw [hlisted, hdevices]
      exact h.device_nodup.map (Option.some_injective _)

theorem found_iff (h : Listing cfg s ls) (device : TypedBdaddr) :
    Found cfg s device ↔ device ∈ ls.map Slot.device := by
  obtain ⟨pos, idx, hfind, -⟩ := h.find device
  rw [Found, hfind]
  cases hl : Lib.lookup Slot.device device ls with
  | none => simpa using lookup_eq_none_iff.mp hl
  | some l =>
    have hdevice : l.device = device := key_of_lookup hl
    exact ⟨fun _ => hdevice ▸ mem_map_of_mem (mem_of_lookup hl),
      fun _ => congrArg some hdevice⟩

end Listing

/-! ### Stores without records -/

/-- Nothing was ever stored. -/
structure Blank (s : Store) : Prop where
  index : s.index = none
  record : ∀ pos, s.record pos = none

namespace Blank

variable {cfg : Config} {s : Store}

theorem empty : Blank {} := ⟨rfl, fun _ => rfl⟩

theorem scan (h : Blank s) (device : TypedBdaddr) (order : List ℕ) (idx used : ℕ) :
    (tdlScan s device order idx used).td = none := by
  induction order generalizing idx with
  | nil => rfl
  | cons pos order ih =>
    rw [tdlScan]
    split
    · rfl
    · rw [h.record pos]
      exact ih _

/-- No device is found. -/
theorem find (h : Blank s) (cfg : Config) (device : TypedBdaddr) :
    ∃ pos idx, tdlFindDevice cfg s device = (none, pos, idx) := by
  simp only [tdlFindDevice, h.scan, Option.isSome_none, Bool.false_eq_true, if_false]
  split
  · exact ⟨_, _, rfl⟩
  · exact ⟨_, _, rfl⟩

theorem deleteAllTurn (h : Blank s) (order : List ℕ) (deleted : Bool) (rec : ℕ) :
    Tdl.deleteAllTurn (s, order, deleted) rec = (s, order, deleted) := by
  rw [Tdl.deleteAllTurn]
  split
  · rfl
  · rw [h.record]

theorem deleteAll (h : Blank s) : (connectionAuthDeleteAllDevice cfg s).2 = s := by
  have hfold : ∀ (recs : List ℕ) (order : List ℕ) (deleted : Bool),
      recs.foldl Tdl.deleteAllTurn (s, order, deleted) = (s, order, deleted) := by
    intro recs order deleted
    induction recs with
    | nil => rfl
    | cons rec recs ih => rw [foldl_cons, h.deleteAllTurn, ih]
  rw [connectionAuthDeleteAllDevice, hfold]
  rfl

/-- As long as no device is recorded, nothing is stored. -/
theorem perform (h : Blank s) (cfg : Config) {c : Call} (hc : c.recorded = none) :
    (perform cfg s c).index = s.index ∧ (perform cfg s c).record = s.record ∧
      (perform cfg s c).attr = s.attr := by
  cases c with
  | addDevice req =>
    obtain ⟨pos, idx, hfind⟩ := h.find cfg ⟨.publicAddr, req.bdAddr⟩
    have hstored : req.isStored = false := by
      rw [Call.recorded] at hc
      by_contra hne
      rw [if_pos (by simpa using hne)] at hc
      cases hc
    rw [Tdl.perform, connectionAuthAddDevice, hfind]
    simp only [hstored, Option.isSome_none, Bool.and_false, Bool.false_eq_true, if_false]
    exact ⟨rfl, rfl, rfl⟩
  | updateTdl device keys => cases hc
  | updateMru peerBdAddr =>
    obtain ⟨pos, idx, hfind⟩ := h.find cfg ⟨.publicAddr, peerBdAddr⟩
    rw [Tdl.perform, connectionAuthUpdateMru, hfind]
    exact ⟨rfl, rfl, rfl⟩
  | setTrustLevel peerBdAddr trusted =>
    obtain ⟨pos, idx, hfind⟩ := h.find cfg ⟨.publicAddr, peerBdAddr⟩
    rw [Tdl.perform, connectionAuthSetTrustLevel, hfind]
    exact ⟨rfl, rfl, rfl⟩
  | setPriorityDevice bdAddr isPriorityDevice =>
    obtain ⟨pos, idx, hfind⟩ := h.find cfg ⟨.publicAddr, bdAddr⟩
    rw [Tdl.perform, connectionAuthSetPriorityDevice, hfind]
    exact ⟨rfl, rfl, rfl⟩
  | deleteDevice device =>
    obtain ⟨pos, idx, hfind⟩ := h.find cfg device
    rw [Tdl.perform, connectionAuthDeleteDevice, hfind]
    exact ⟨rfl, rfl, rfl⟩
  | deleteDeviceFromTdl device =>
    obtain ⟨pos, idx, hfind⟩ := h.find cfg device
    rw [Tdl.perform, connectionAuthDeleteDeviceFromTdl, hfind]
    exact ⟨rfl, rfl, rfl⟩
  | deleteAllDevice =>
    rw [Tdl.perform, h.deleteAll]
    exact ⟨rfl, rfl, rfl⟩
  | putAttribute device psdata =>
    obtain ⟨pos, idx, hfind⟩ := h.find cfg device
    rw [Tdl.perform, connectionAuthPutAttribute, hfind]
    exact ⟨rfl, rfl, rfl⟩

theorem congr {s' : Store} (h : Blank s) (hindex : s'.index = s.index)
    (hrec : s'.record = s.record) : Blank s' :=
  ⟨hindex.trans h.index, fun pos => (congrFun hrec pos).trans (h.record pos)⟩

theorem consistent (h : Blank s) : Consistent cfg s := by
  have hstored : storedIndex cfg.target s = [] := by
    rw [storedIndex, h.index]
    rfl
  have hlisted : listedPositions cfg.target s = [] := by
    rw [listedPositions, hstored]
    rfl
  exact ⟨by simp [hstored], by simp [hlisted], by simp [hlisted], by simp [hlisted],
    by simp [hlisted]⟩

end Blank

/-- Calls that record no device keep an empty model empty. -/
theorem trackEntries_nil (n : ℕ) {c : Call} (hc : c.recorded = none) :
    trackEntries n [] c = [] := by
  cases c with
  | addDevice req =>
    rw [Call.recorded] at hc
    by_cases hstored : req.isStored
    · rw [if_pos hstored] at hc
      cases hc
    · rw [trackEntries, if_neg hstored]
      split <;> rfl
  | updateTdl device keys => cases hc
  | _ => rfl

/-! ### Runs -/

/-- The target has one unit for each `u16`. -/
def Target.isWordAddressed : Target → Bool
  | .wordAddressed => true
  | .octetAddressed .. => false

theorem Target.eq_of_isWordAddressed {t : Target} (h : t.isWordAddressed) : t = .wordAddressed := by
  cases t with
  | wordAddressed => rfl
  | octetAddressed wideInt stack => cases h

/-- What has to hold before a call: an octet-addressed target records no device, and the priority
devices are in front when all devices are deleted. -/
def Sound (cfg : Config) (σ : Tracked) (c : Call) : Prop :=
  (cfg.target.isWordAddressed ∨ c.recorded = none) ∧
    (c = .deleteAllDevice → PriorityFirst cfg σ.store)

instance (cfg : Config) (σ : Tracked) (c : Call) : Decidable (Sound cfg σ c) :=
  inferInstanceAs (Decidable (_ ∧ _))

/-- The store lists what its user expects, or nothing was ever recorded. -/
def Refines (cfg : Config) (σ : Tracked) : Prop :=
  (cfg.target = .wordAddressed ∧
      ∃ ls, Listing cfg σ.store ls ∧ ls.map Slot.entry = σ.expected.entries) ∨
    (Blank σ.store ∧ σ.expected.entries = [])

theorem Refines.step {cfg : Config} {σ σ' : Tracked} {c : Call} (h : Refines cfg σ)
    (hok : Sound cfg σ c) (hstep : step cfg σ c = some σ') : Refines cfg σ' := by
  obtain rfl := Option.some.inj hstep
  obtain ⟨htarget, hfirst⟩ := hok
  have hlisted : cfg.target = .wordAddressed →
      ∀ ls, Listing cfg σ.store ls → ls.map Slot.entry = σ.expected.entries →
        ∃ ls', Listing cfg (Tdl.perform cfg σ.store c) ls' ∧ ls'.map Slot.entry =
          trackEntries cfg.tdlNumberOfDevices σ.expected.entries c := by
    intro hword ls hlist hentries
    obtain ⟨ls', hlist', hentries'⟩ :=
      hlist.perform_entries hword c fun hc => hlist.priorityFirst_iff.mp (hfirst hc)
    exact ⟨ls', hlist', hentries ▸ hentries'⟩
  rcases h with ⟨hword, ls, hlist, hentries⟩ | ⟨hblank, hentries⟩
  · exact .inl ⟨hword, hlisted hword ls hlist hentries⟩
  · rcases htarget with hword | hnone
    · -- the first record on a word-addressed target
      have hword := Target.eq_of_isWordAddressed hword
      have hlist : Listing cfg σ.store [] := (Listing.empty hword).congr hblank.index (by simp)
      exact .inl ⟨hword, hlisted hword [] hlist hentries.symm⟩
    · obtain ⟨hindex, hrec, -⟩ := hblank.perform cfg hnone
      refine .inr ⟨hblank.congr hindex hrec, ?_⟩
      change trackEntries _ _ _ = []
      rw [hentries, trackEntries_nil _ hnone]

theorem refines_of_run {cfg : Config} {calls : List Call} {σ : Tracked}
    (hok : RunMeets (step cfg) (Sound cfg) {} calls)
    (hrun : Lib.run (step cfg) {} calls = some σ) : Refines cfg σ :=
  run_invariant (fun _ _ _ h hok hstep => h.step hok hstep) (.inr ⟨.empty, rfl⟩) hok hrun

/-- **Consistency.** In a run of sound calls, the stored index stays consistent and every device
that was added and neither deleted nor evicted since is found. -/
theorem consistent_of_run {cfg : Config} {calls : List Call} {σ : Tracked}
    (hok : Lib.RunMeets (step cfg) (Sound cfg) {} calls)
    (hrun : Lib.run (step cfg) {} calls = some σ) :
    Consistent cfg σ.store ∧ ∀ entry ∈ σ.expected.entries, Found cfg σ.store entry.device := by
  rcases refines_of_run hok hrun with ⟨-, ls, hlist, hentries⟩ | ⟨hblank, hentries⟩
  · refine ⟨hlist.consistent, fun entry hentry => (hlist.found_iff _).mpr ?_⟩
    rw [← hentries] at hentry
    obtain ⟨l, hl, rfl⟩ := mem_map.mp hentry
    exact mem_map_of_mem hl
  · rw [hentries]
    exact ⟨hblank.consistent, by simp⟩

/-- A priority device survives the deletion of all devices in front of the others. -/
theorem consistent_of_run_deleteAll :
    let cfg : Config := ⟨.wordAddressed, 2, by decide, by decide⟩
    let add (lap : BitVec 24) : Call := .addDevice ⟨⟨lap, 0, 0⟩, 4, List.replicate 8 7, false, true⟩
    let calls := [add 1, add 2, .setPriorityDevice ⟨1, 0, 0⟩ true, .deleteAllDevice, add 3]
    ∃ σ, Lib.run (step cfg) {} calls = some σ ∧
      σ.expected.entries =
        [⟨⟨.publicAddr, ⟨1, 0, 0⟩⟩, true⟩, ⟨⟨.publicAddr, ⟨3, 0, 0⟩⟩, false⟩] ∧
      Consistent cfg σ.store ∧ ∀ entry ∈ σ.expected.entries, Found cfg σ.store entry.device := by
  intro cfg add calls
  have hentries : (Lib.run (step cfg) {} calls).map (fun σ => σ.expected.entries) =
      some [⟨⟨.publicAddr, ⟨1, 0, 0⟩⟩, true⟩, ⟨⟨.publicAddr, ⟨3, 0, 0⟩⟩, false⟩] := by
    decide
  obtain ⟨σ, hrun, hentries⟩ := Option.map_eq_some_iff.mp hentries
  exact ⟨σ, hrun, hentries, consistent_of_run (by decide) hrun⟩

/-- Deleting all devices with a priority device behind another one hides the priority device. -/
theorem hidden_of_deleteAll :
    let cfg : Config := ⟨.wordAddressed, 2, by decide, by decide⟩
    let add (lap : BitVec 24) : Call := .addDevice ⟨⟨lap, 0, 0⟩, 4, List.replicate 8 7, false, true⟩
    let calls := [add 1, add 2, .setPriorityDevice ⟨1, 0, 0⟩ true, .updateMru ⟨2, 0, 0⟩,
      .deleteAllDevice]
    ∃ σ, Lib.run (step cfg) {} calls = some σ ∧ ¬ Consistent cfg σ.store ∧
      ∃ entry ∈ σ.expected.entries, ¬ Found cfg σ.store entry.device := by
  intro cfg add calls
  have hhidden : (Lib.run (step cfg) {} calls).map (fun σ =>
      (storedIndex cfg.target σ.store, σ.expected.entries,
        decide (Found cfg σ.store ⟨.publicAddr, ⟨1, 0, 0⟩⟩))) =
      some ([15, 0, 15, 15, 15, 15, 15, 15], [⟨⟨.publicAddr, ⟨1, 0, 0⟩⟩, true⟩], false) := by
    decide
  obtain ⟨σ, hrun, hσ⟩ := Option.map_eq_some_iff.mp hhidden
  obtain ⟨hindex, hσ⟩ := Prod.mk.inj hσ
  obtain ⟨hentries, hfound⟩ := Prod.mk.inj hσ
  refine ⟨σ, hrun, fun hcons => ?_, ⟨⟨.publicAddr, ⟨1, 0, 0⟩⟩, true⟩, ?_, of_decide_eq_false hfound⟩
  · have hunused := hcons.unused 0
    rw [hindex] at hunused
    exact absurd (hunused (by decide)) (by decide)
  · rw [hentries]
    exact mem_singleton_self _

end Cbps.Tdl
