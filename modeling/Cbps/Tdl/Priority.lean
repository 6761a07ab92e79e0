import Cbps.Tdl.Consistency

/-!
# Priority devices are kept

A full list gives the slot of its last device away, so priority devices are protected as long
as they are in front. Adding a device and changing a priority sort the device in; the updates
after a key exchange or a connection put it in front of everything. In runs where they do so
only with a priority device, or when no priority device stays behind it, `Orderly`, the
priority devices stay in front.
-/

namespace Cbps.Tdl

open Lib List

/-! ### The model -/

section Entries

variable {n : ℕ} {entries : List Entry} {device : TypedBdaddr}

/-- The device may come to the front: it has priority, or none of those behind it has. -/
def MayLead (n : ℕ) (device : TypedBdaddr) (entries : List Entry) : Prop :=
  (∃ entry, Lib.lookup Entry.device device entries = some entry ∧ entry.priority) ∨
    ∀ entry ∈ (Lib.without Entry.device device entries).take (n - 1), ¬ entry.priority

theorem leading_without (h : Leading Entry.priority entries) (device : TypedBdaddr) :
    Leading Entry.priority (Lib.without Entry.device device entries) :=
  h.sublist (without_sublist device entries)

/-- The entry that is recorded for a device. -/
theorem device_recorded (device : TypedBdaddr) (entries : List Entry) :
    ((Lib.lookup Entry.device device entries).getD ⟨device, false⟩).device = device := by
  cases hl : Lib.lookup Entry.device device entries with
  | none => rfl
  | some entry => exact key_of_lookup hl

theorem leading_recordEntry (h : Leading Entry.priority entries)
    (hlead : MayLead n device entries) :
    Leading Entry.priority (recordEntry n device entries) := by
  rw [recordEntry, Lib.record, device_recorded]
  refine ((leading_without h device).sublist (take_sublist _ _)).cons ?_
  rcases hlead with ⟨entry, hentry, hpriority⟩ | hnone
  · rw [hentry]
    exact .inl hpriority
  · exact .inr hnone

/-- Sorting a listed device in needs nothing of the place where it was. -/
theorem leading_setPriorityEntry_of_listed {entry : Entry}
    (hl : Lib.lookup Entry.device device entries = some entry)
    (h : Leading Entry.priority (Lib.without Entry.device device entries)) (priority : Bool) :
    Leading Entry.priority (setPriorityEntry device entries priority) := by
  rw [setPriorityEntry, hl]
  cases priority with
  | true => exact h.cons (.inl rfl)
  | false => exact h.settle _

theorem leading_setPriorityEntry (h : Leading Entry.priority entries) (priority : Bool) :
    Leading Entry.priority (setPriorityEntry device entries priority) := by
  cases hl : Lib.lookup Entry.device device entries with
  | none =>
    rw [setPriorityEntry, hl]
    exact h
  | some entry => exact leading_setPriorityEntry_of_listed hl (leading_without h device) priority

/-- A device that is added is sorted in after it was recorded. -/
theorem leading_addEntry (h : Leading Entry.priority entries) :
    Leading Entry.priority (setPriorityEntry device (recordEntry n device entries) false) := by
  have hdevice := device_recorded device entries
  have hlookup := lookup_record Entry.device n
    ((Lib.lookup Entry.device device entries).getD ⟨device, false⟩) entries
  have hrest := without_record Entry.device n
    ((Lib.lookup Entry.device device entries).getD ⟨device, false⟩) entries
  rw [hdevice, ← recordEntry] at hlookup hrest
  refine leading_setPriorityEntry_of_listed hlookup ?_ false
  rw [hrest]
  exact (leading_without h device).sublist (take_sublist _ _)

theorem leading_touchEntry (h : Leading Entry.priority entries)
    (hlead : (Lib.lookup Entry.device device entries).isSome →
      (∃ entry, Lib.lookup Entry.device device entries = some entry ∧ entry.priority) ∨
        ∀ entry ∈ Lib.without Entry.device device entries, ¬ entry.priority) :
    Leading Entry.priority (touchEntry device entries) := by
  rw [touchEntry]
  cases hl : Lib.lookup Entry.device device entries with
  | none => exact h
  | some entry =>
    refine (leading_without h device).cons ?_
    rw [hl] at hlead
    rcases hlead rfl with ⟨entry', hentry', hpriority⟩ | hnone
    · rw [Option.some.inj hentry']
      exact .inl hpriority
    · exact .inr hnone

theorem leading_trackEntries (h : Leading Entry.priority entries) {c : Call}
    (htdl : ∀ device keys, c = .updateTdl device keys → MayLead n device entries)
    (hmru : ∀ peerBdAddr, c = .updateMru peerBdAddr →
      (Lib.lookup Entry.device ⟨.publicAddr, peerBdAddr⟩ entries).isSome →
        (∃ entry, Lib.lookup Entry.device ⟨.publicAddr, peerBdAddr⟩ entries = some entry ∧
            entry.priority) ∨
          ∀ entry ∈ Lib.without Entry.device ⟨.publicAddr, peerBdAddr⟩ entries,
            ¬ entry.priority) :
    Leading Entry.priority (trackEntries n entries c) := by
  cases c with
  | addDevice req =>
    rw [trackEntries]
    split
    · exact leading_addEntry h
    · split
      · exact h
      · exact leading_without h _
  | updateTdl device keys => exact leading_recordEntry h (htdl device keys rfl)
  | updateMru peerBdAddr => exact leading_touchEntry h (hmru peerBdAddr rfl)
  | setTrustLevel peerBdAddr trusted => exact h
  | setPriorityDevice bdAddr isPriorityDevice =>
    exact leading_setPriorityEntry h isPriorityDevice
  | deleteDevice device =>
    rw [trackEntries, deleteEntry]
    split
    · exact h
    · split
      · exact h
      · exact leading_without h _
  | deleteDeviceFromTdl device => exact leading_without h device
  | deleteAllDevice => exact h.sublist filter_sublist
  | putAttribute device psdata => exact h

end Entries

/-! ### Runs -/

/-- The device has priority, or no priority device stays listed behind it. -/
def MayFront (cfg : Config) (s : Store) (device : TypedBdaddr) : Prop :=
  ((tdlFindDevice cfg s device).1.any fun td => td.content.priorityDevice) ∨
    ∀ td ∈ ((listedRecords cfg s).filter fun td => unpackTdBdaddr td ≠ device).take
      (cfg.tdlNumberOfDevices - 1), ¬ td.content.priorityDevice

instance (cfg : Config) (s : Store) (device : TypedBdaddr) : Decidable (MayFront cfg s device) :=
  inferInstanceAs (Decidable (_ ∨ _))

/-- What has to hold before a call: an octet-addressed target records no device, and updates put
a device in front of others only where `MayFront` allows it. -/
def Orderly (cfg : Config) (σ : Tracked) (c : Call) : Prop :=
  (cfg.target.isWordAddressed ∨ c.recorded = none) ∧
    match c with
    | .updateTdl device _ => MayFront cfg σ.store device
    | .updateMru peerBdAddr =>
      (tdlFindDevice cfg σ.store ⟨.publicAddr, peerBdAddr⟩).1.isSome →
        MayFront cfg σ.store ⟨.publicAddr, peerBdAddr⟩
    | _ => True

instance (cfg : Config) (σ : Tracked) (c : Call) : Decidable (Orderly cfg σ c) := by
  cases c <;> exact inferInstanceAs (Decidable (_ ∧ _))

/-- A full list never gives the slot of a priority device away while it lists another one. -/
def Protected (cfg : Config) (s : Store) : Prop :=
  ∀ device victim, (tdlFindDevice cfg s device).1 = none →
    (listedRecords cfg s).length = cfg.tdlNumberOfDevices →
      s.record (tdlFindDevice cfg s device).2.1 = some victim → victim.content.priorityDevice →
        ∀ td ∈ listedRecords cfg s, td.content.priorityDevice

section Listing

variable {cfg : Config} {s : Store} {ls : List Slot}

theorem Listing.mayFront (h : Listing cfg s ls) {device : TypedBdaddr}
    (hfront : MayFront cfg s device) :
    (∃ l, Lib.lookup Slot.device device ls = some l ∧ l.priority) ∨
      ∀ l ∈ restOf cfg device ls, ¬ l.priority := by
  obtain ⟨pos, idx, hfind, -⟩ := h.find device
  rw [MayFront, hfind, h.listedRecords_eq, filter_map, ← map_take] at hfront
  rcases hfront with hpriority | hnone
  · cases hl : Lib.lookup Slot.device device ls with
    | none => rw [hl] at hpriority; cases hpriority
    | some l =>
      rw [hl] at hpriority
      exact .inl ⟨l, rfl, hpriority⟩
  · exact .inr fun l hl => hnone l.td (mem_map_of_mem hl)

/-- In a list with the priority devices in front, the last slot is the one to give away. -/
theorem Listing.isProtected (h : Listing cfg s ls) (hleading : Leading Slot.priority ls) :
    Protected cfg s := by
  intro device victim hnone hfull hvictim hpriority
  obtain ⟨pos, idx, hfind, hplace⟩ := h.find device
  rw [hfind] at hnone hvictim
  rw [h.listedRecords_eq] at hfull ⊢
  have hlookup : Lib.lookup Slot.device device ls = none := Option.map_eq_none_iff.mp hnone
  obtain ⟨before, l, rfl, rfl⟩ := hplace.evicted hlookup (by simpa using hfull)
  obtain rfl : l.td = victim := by
    rw [h.record l (by simp)] at hvictim
    exact Option.some.inj hvictim
  intro td htd
  obtain ⟨l', hl', rfl⟩ := mem_map.mp htd
  rcases mem_append.mp hl' with hmem | hmem
  · exact (pairwise_append.mp hleading).2.2 l' hmem l (by simp) hpriority
  · rw [mem_singleton.mp hmem]
    exact hpriority

end Listing

/-- The list is what its user expects, and the priority devices are in front. -/
structure Arranged (cfg : Config) (σ : Tracked) : Prop where
  refines : Refines cfg σ
  leading : Leading Entry.priority σ.expected.entries

namespace Arranged

variable {cfg : Config} {σ σ' : Tracked}

theorem listing_leading {ls : List Slot} (h : Arranged cfg σ)
    (hentries : ls.map Slot.entry = σ.expected.entries) : Leading Slot.priority ls := by
  have hleading := h.leading
  rw [← hentries, Leading, pairwise_map] at hleading
  exact hleading

theorem priorityFirst (h : Arranged cfg σ) : PriorityFirst cfg σ.store := by
  rcases h.refines with ⟨-, ls, hlist, hentries⟩ | ⟨hblank, -⟩
  · exact hlist.priorityFirst_iff.mpr (h.listing_leading hentries)
  · rw [PriorityFirst, listedRecords, filterMap_eq_nil_iff.mpr fun pos _ => hblank.record pos]
    exact List.Pairwise.nil

theorem isProtected (h : Arranged cfg σ) : Protected cfg σ.store := by
  rcases h.refines with ⟨-, ls, hlist, hentries⟩ | ⟨hblank, -⟩
  · exact hlist.isProtected (h.listing_leading hentries)
  · intro device victim _ _ hvictim
    rw [hblank.record] at hvictim
    cases hvictim

theorem step {c : Call} (h : Arranged cfg σ) (hok : Orderly cfg σ c)
    (hstep : step cfg σ c = some σ') : Arranged cfg σ' := by
  obtain ⟨htarget, hfront⟩ := hok
  refine ⟨h.refines.step ⟨htarget, fun _ => h.priorityFirst⟩ hstep, ?_⟩
  obtain rfl := Option.some.inj hstep
  rcases h.refines with ⟨-, ls, hlist, hentries⟩ | ⟨-, hentries⟩
  · -- the guards on the store are those of the model
    refine leading_trackEntries h.leading ?_ ?_
    · rintro device keys rfl
      rw [← hentries]
      rcases hlist.mayFront hfront with ⟨l, hl, hpriority⟩ | hnone
      · exact .inl ⟨l.entry, by rw [lookup_entry, hl]; rfl, hpriority⟩
      · refine .inr fun entry hentry => ?_
        rw [without_entry, ← map_take] at hentry
        obtain ⟨l, hl, rfl⟩ := mem_map.mp hentry
        exact hnone l hl
    · rintro peerBdAddr rfl hlisted
      obtain ⟨pos, idx, hfind, -⟩ := hlist.find ⟨.publicAddr, peerBdAddr⟩
      rw [← hentries, lookup_entry, Option.isSome_map] at hlisted
      obtain ⟨l, hl⟩ := Option.isSome_iff_exists.mp hlisted
      have hfront' := hlist.mayFront (hfront (by rw [hfind, hl]; rfl))
      rw [← hentries]
      rcases hfront' with ⟨l', hl', hpriority⟩ | hnone
      · exact .inl ⟨l'.entry, by rw [lookup_entry, hl']; rfl, hpriority⟩
      · refine .inr fun entry hentry => ?_
        rw [without_entry, ← hlist.restOf_eq_without hl] at hentry
        obtain ⟨l', hl', rfl⟩ := mem_map.mp hentry
        exact hnone l' hl'
  · -- nothing is listed yet
    change Leading Entry.priority (trackEntries _ σ.expected.entries c)
    refine leading_trackEntries h.leading ?_ ?_
    · rintro device keys rfl
      rw [hentries]
      exact .inr (by simp [Lib.without])
    · rintro peerBdAddr rfl hlisted
      rw [hentries] at hlisted
      cases hlisted

end Arranged

/-- **Protection.** In a run of orderly calls, the priority devices are in front of all others,
and a device that is recorded on a full list never takes the slot of a priority device as long
as another one is listed. -/
theorem protected_of_run {cfg : Config} {calls : List Call} {σ : Tracked}
    (hok : Lib.RunMeets (step cfg) (Orderly cfg) {} calls)
    (hrun : Lib.run (step cfg) {} calls = some σ) :
    PriorityFirst cfg σ.store ∧ Protected cfg σ.store := by
  have hstart : Arranged cfg {} := ⟨.inr ⟨.empty, rfl⟩, List.Pairwise.nil⟩
  have harranged : Arranged cfg σ :=
    run_invariant (fun _ _ _ h hok hstep => h.step hok hstep) hstart hok hrun
  exact ⟨harranged.priorityFirst, harranged.isProtected⟩

/-- Three devices on a list of two: the one without priority is forgotten. -/
theorem protected_of_run_add :
    let cfg : Config := ⟨.wordAddressed, 2, by decide, by decide⟩
    let add (lap : BitVec 24) : Call := .addDevice ⟨⟨lap, 0, 0⟩, 4, List.replicate 8 7, false, true⟩
    let calls := [add 1, .setPriorityDevice ⟨1, 0, 0⟩ true, add 2, add 3, .updateMru ⟨1, 0, 0⟩]
    ∃ σ, Lib.run (step cfg) {} calls = some σ ∧
      (listedRecords cfg σ.store).map unpackTdBdaddr =
        [⟨.publicAddr, ⟨1, 0, 0⟩⟩, ⟨.publicAddr, ⟨3, 0, 0⟩⟩] ∧
      PriorityFirst cfg σ.store ∧ Protected cfg σ.store := by
  intro cfg add calls
  have hlisted : (Lib.run (step cfg) {} calls).map
      (fun σ => (listedRecords cfg σ.store).map unpackTdBdaddr) =
        some [⟨.publicAddr, ⟨1, 0, 0⟩⟩, ⟨.publicAddr, ⟨3, 0, 0⟩⟩] := by
    decide
  obtain ⟨σ, hrun, hlisted⟩ := Option.map_eq_some_iff.mp hlisted
  exact ⟨σ, hrun, hlisted, protected_of_run (by decide) hrun⟩

/-- After a connection of another device, the priority device is the one that is given away. -/
theorem unprotected_of_updateMru :
    let cfg : Config := ⟨.wordAddressed, 2, by decide, by decide⟩
    let add (lap : BitVec 24) : Call := .addDevice ⟨⟨lap, 0, 0⟩, 4, List.replicate 8 7, false, true⟩
    let calls := [add 1, .setPriorityDevice ⟨1, 0, 0⟩ true, add 2, .updateMru ⟨2, 0, 0⟩]
    ∃ σ, Lib.run (step cfg) {} calls = some σ ∧ ¬ PriorityFirst cfg σ.store ∧
      ¬ Protected cfg σ.store := by
  intro cfg add calls
  have hstate : (Lib.run (step cfg) {} calls).map (fun σ =>
      ((listedRecords cfg σ.store).map fun td => td.content.priorityDevice,
        (tdlFindDevice cfg σ.store ⟨.publicAddr, ⟨3, 0, 0⟩⟩).1,
        (σ.store.record (tdlFindDevice cfg σ.store ⟨.publicAddr, ⟨3, 0, 0⟩⟩).2.1).map
          fun td => td.content.priorityDevice)) =
      some ([false, true], none, some true) := by
    decide
  obtain ⟨σ, hrun, hσ⟩ := Option.map_eq_some_iff.mp hstate
  obtain ⟨hlisted, hσ⟩ := Prod.mk.inj hσ
  obtain ⟨hnone, hvictim⟩ := Prod.mk.inj hσ
  obtain ⟨victim, hvictim, hpriority⟩ := Option.map_eq_some_iff.mp hvictim
  refine ⟨σ, hrun, fun hfirst => ?_, fun hprot => ?_⟩
  · have hpairs : List.Pairwise (fun a b : Bool => b → a)
        ((listedRecords cfg σ.store).map fun td => td.content.priorityDevice) :=
      pairwise_map.mpr hfirst
    rw [hlisted] at hpairs
    exact absurd hpairs (by decide)
  · have hfull : (listedRecords cfg σ.store).length = 2 := by
      simpa using congrArg List.length hlisted
    have hall := hprot _ victim hnone hfull hvictim hpriority
    have hmem : false ∈ (listedRecords cfg σ.store).map fun td => td.content.priorityDevice := by
      rw [hlisted]
      decide
    obtain ⟨td, htd, hfalse⟩ := mem_map.mp hmem
    exact Bool.false_ne_true (hfalse.symm.trans (hall td htd))

end Cbps.Tdl
