import Cbps.Tdl.Consistency

/-!
# Attributes stay with their device

Attributes are stored by position, and a position gets a new owner when its device is deleted or
when a full list gives the last slot away. Deletion clears the attribute, giving a slot away does
not. In runs where a slot is given away only without an attribute, `Tidy`, a device reads what
was put for it since it was listed, and nothing else.
-/

namespace Cbps.Tdl

open Lib

/-- What has to hold before a call: the list stays consistent, and a device that is new gets a
position without an attribute. -/
def Tidy (cfg : Config) (σ : Tracked) (c : Call) : Prop :=
  Sound cfg σ c ∧
    match c.recorded with
    | none => True
    | some device => (tdlFindDevice cfg σ.store device).1 = none →
        σ.store.attr (tdlFindDevice cfg σ.store device).2.1 = none

instance (cfg : Config) (σ : Tracked) (c : Call) : Decidable (Tidy cfg σ c) := by
  rw [Tidy]
  cases c.recorded <;> infer_instance

/-- Listed slots hold the attributes of their devices, and the other positions hold none. -/
structure Carries (s : Store) (attr : TypedBdaddr → Option (List ℕ)) (ls : List Slot) : Prop where
  listed : ∀ l ∈ ls, s.attr l.pos = attr l.device
  unlisted : ∀ pos, pos ∉ ls.map Slot.pos → s.attr pos = none

/-- The store lists what its user expects, with the attributes that go with it. -/
structure Attached (cfg : Config) (σ : Tracked) : Prop where
  refines : (cfg.target = .wordAddressed ∧ ∃ ls, Listing cfg σ.store ls ∧
      ls.map Slot.entry = σ.expected.entries ∧ Carries σ.store σ.expected.attr ls) ∨
    (Blank σ.store ∧ (∀ pos, σ.store.attr pos = none) ∧ σ.expected.entries = [])
  forgotten : ∀ device, device ∉ σ.expected.entries.map Entry.device →
    σ.expected.attr device = none

variable {c : Call} {device : TypedBdaddr}

section Calls

variable {cfg : Config} {s : Store} {ls : List Slot} {e : Expected}

/-- Devices of slots and of entries. -/
theorem map_device_entry (ls : List Slot) :
    (ls.map Slot.entry).map Entry.device = ls.map Slot.device := by
  rw [List.map_map]
  rfl

theorem track_attr_of_listed {n : ℕ}
    (hput : ∀ device psdata, c ≠ .putAttribute device psdata)
    (h : device ∈ (trackEntries n e.entries c).map Entry.device) :
    (track n e c).attr device = e.attr device := by
  rw [track]
  simp only [if_pos h]

/-- The attributes after a call that stores none. -/
theorem Carries.perform (hword : cfg.target = .wordAddressed) (hlist : Listing cfg s ls)
    (hentries : ls.map Slot.entry = e.entries) (h : Carries s e.attr ls)
    (hforgotten : ∀ device, device ∉ e.entries.map Entry.device → e.attr device = none)
    (hput : ∀ device psdata, c ≠ .putAttribute device psdata)
    (hall : c = .deleteAllDevice → Leading Slot.priority ls)
    (hnew : ∀ device, c.recorded = some device → (tdlFindDevice cfg s device).1 = none →
      s.attr (tdlFindDevice cfg s device).2.1 = none) :
    ∃ ls', Listing cfg (Tdl.perform cfg s c) ls' ∧
      ls'.map Slot.entry = trackEntries cfg.tdlNumberOfDevices e.entries c ∧
      Carries (Tdl.perform cfg s c) (track cfg.tdlNumberOfDevices e c).attr ls' := by
  obtain ⟨ls', hleads, hentries'⟩ := hlist.perform hword hput hall
  rw [hentries] at hentries'
  refine ⟨ls', hleads.listing, hentries', fun l' hl' => ?_, fun pos hpos => ?_⟩
  · have hdevice : l'.device ∈ (trackEntries cfg.tdlNumberOfDevices e.entries c).map
        Entry.device := by
      rw [← hentries', map_device_entry]
      exact List.mem_map_of_mem hl'
    rw [track_attr_of_listed hput hdevice, hleads.attr_listed _ (List.mem_map_of_mem hl')]
    rcases hleads.moved l' hl' with ⟨l, hl, hpos, hdev⟩ | ⟨hrec, hnotMem, hpos⟩
    · rw [← hpos, ← hdev]
      exact h.listed l hl
    · -- the position of a new device has no attribute, and nothing was put for it yet
      obtain ⟨pos, idx, hfind, -⟩ := hlist.find l'.device
      have hnone : (tdlFindDevice cfg s l'.device).1 = none := by
        rw [hfind, lookup_eq_none_iff.mpr hnotMem]
        rfl
      rw [hpos, hnew _ hrec hnone, hforgotten]
      rwa [← hentries, map_device_entry]
  · rcases hleads.attr_unlisted pos hpos with hnone | ⟨hpos', hsame⟩
    · exact hnone
    · rw [hsame]
      exact h.unlisted pos hpos'

/-- The attributes after one was stored. -/
theorem Carries.putAttribute (hlist : Listing cfg s ls)
    (hentries : ls.map Slot.entry = e.entries) (h : Carries s e.attr ls) (device : TypedBdaddr)
    (psdata : List ℕ) :
    Carries (connectionAuthPutAttribute cfg s device psdata)
      (track cfg.tdlNumberOfDevices e (.putAttribute device psdata)).attr ls := by
  have hattr : ∀ l ∈ ls, (track cfg.tdlNumberOfDevices e (.putAttribute device psdata)).attr
      l.device = if l.device = device then (if psdata = [] then none else some psdata)
        else e.attr l.device := by
    intro l hl
    have hmem : l.device ∈ e.entries.map Entry.device := by
      rw [← hentries, map_device_entry]
      exact List.mem_map_of_mem hl
    exact if_pos hmem
  obtain ⟨pos, idx, hfind, hplace⟩ := hlist.find device
  rw [connectionAuthPutAttribute, hfind]
  cases hl : Lib.lookup Slot.device device ls with
  | none =>
    refine ⟨fun l hlmem => ?_, h.unlisted⟩
    have hne : l.device ≠ device := fun heq =>
      lookup_eq_none_iff.mp hl (heq ▸ List.mem_map_of_mem hlmem)
    rw [hattr l hlmem, if_neg hne]
    exact h.listed l hlmem
  | some l₀ =>
    obtain rfl := hplace.listed l₀ hl
    have hdevice : l₀.device = device := key_of_lookup hl
    have hmem := mem_of_lookup hl
    refine ⟨fun l hlmem => ?_, fun pos hpos => ?_⟩
    · rw [hattr l hlmem]
      by_cases heq : l.device = device
      · -- there is one slot for the device
        obtain rfl := List.inj_on_of_nodup_map hlist.device_nodup hlmem hmem
          (heq.trans hdevice.symm)
        rw [if_pos heq]
        exact Function.update_self ..
      · rw [if_neg heq]
        have hne : l.pos ≠ l₀.pos := fun hpos => heq (by
          rw [List.inj_on_of_nodup_map hlist.pos_nodup hlmem hmem hpos, hdevice])
        exact (Function.update_of_ne hne _ _).trans (h.listed l hlmem)
    · have hne : pos ≠ l₀.pos := fun heq => hpos (heq ▸ List.mem_map_of_mem hmem)
      exact (Function.update_of_ne hne _ _).trans (h.unlisted pos hpos)

end Calls

namespace Attached

variable {cfg : Config} {σ σ' : Tracked}

/-- What was ever recorded on a word-addressed target. -/
theorem step_listed (hword : cfg.target = .wordAddressed) {ls : List Slot}
    (hlist : Listing cfg σ.store ls) (hentries : ls.map Slot.entry = σ.expected.entries)
    (hcarries : Carries σ.store σ.expected.attr ls)
    (hforgotten : ∀ device, device ∉ σ.expected.entries.map Entry.device →
      σ.expected.attr device = none) (hok : Tidy cfg σ c) :
    ∃ ls', Listing cfg (Tdl.perform cfg σ.store c) ls' ∧
      ls'.map Slot.entry = trackEntries cfg.tdlNumberOfDevices σ.expected.entries c ∧
      Carries (Tdl.perform cfg σ.store c) (track cfg.tdlNumberOfDevices σ.expected c).attr ls' := by
  obtain ⟨⟨-, hfirst⟩, hnew⟩ := hok
  by_cases hput : ∃ device psdata, c = .putAttribute device psdata
  · obtain ⟨device, psdata, rfl⟩ := hput
    exact ⟨ls, hlist.putAttribute device psdata, hentries,
      hcarries.putAttribute hlist hentries device psdata⟩
  · refine hcarries.perform hword hlist hentries hforgotten
      (fun device psdata hc => hput ⟨device, psdata, hc⟩)
      (fun hc => hlist.priorityFirst_iff.mp (hfirst hc)) fun device hrec => ?_
    rw [hrec] at hnew
    exact hnew

theorem step (h : Attached cfg σ) (hok : Tidy cfg σ c)
    (hstep : step cfg σ c = some σ') : Attached cfg σ' := by
  obtain rfl := Option.some.inj hstep
  refine ⟨?_, fun device hdevice => if_neg hdevice⟩
  rcases h.refines with ⟨hword, ls, hlist, hentries, hcarries⟩ | ⟨hblank, hattr, hentries⟩
  · exact .inl ⟨hword, step_listed hword hlist hentries hcarries h.forgotten hok⟩
  · rcases hok.1.1 with hword | hnone
    · -- the first record on a word-addressed target
      have hword := Target.eq_of_isWordAddressed hword
      have hlist : Listing cfg σ.store [] := (Listing.empty hword).congr hblank.index (by simp)
      have hcarries : Carries σ.store σ.expected.attr [] := ⟨by simp, fun pos _ => hattr pos⟩
      exact .inl ⟨hword, step_listed hword hlist hentries.symm hcarries h.forgotten hok⟩
    · obtain ⟨hindex, hrec, hattr'⟩ := hblank.perform cfg hnone
      refine .inr ⟨hblank.congr hindex hrec, fun pos => ?_, ?_⟩
      · exact (congrFun hattr' pos).trans (hattr pos)
      · change trackEntries _ _ _ = []
        rw [hentries, trackEntries_nil _ hnone]

theorem get (h : Attached cfg σ) {size : ℕ} {psdata : List ℕ}
    (hsize : size ≠ 0)
    (hget : connectionAuthGetAttributeNow cfg σ.store device size = some psdata) :
    σ.expected.attr device = some psdata := by
  rcases h.refines with ⟨-, ls, hlist, -, hcarries⟩ | ⟨hblank, -, -⟩
  · obtain ⟨pos, idx, hfind, hplace⟩ := hlist.find device
    rw [connectionAuthGetAttributeNow, hfind] at hget
    cases hl : Lib.lookup Slot.device device ls with
    | none => rw [hl] at hget; cases hget
    | some l =>
      obtain rfl := hplace.listed l hl
      have hdevice : l.device = device := key_of_lookup hl
      rw [hl] at hget
      simp only [Option.map_some, if_neg hsize] at hget
      rw [← hdevice, ← hcarries.listed l (mem_of_lookup hl)]
      exact (Option.filter_eq_some_iff.mp hget).1
  · obtain ⟨pos, idx, hfind⟩ := hblank.find cfg device
    rw [connectionAuthGetAttributeNow, hfind] at hget
    cases hget

end Attached

/-- **Attributes.** In a run of tidy calls, a device reads the data that was put for it last since
it was listed, or none. -/
theorem attribute_of_run {cfg : Config} {calls : List Call} {σ : Tracked}
    (hok : Lib.RunMeets (step cfg) (Tidy cfg) {} calls)
    (hrun : Lib.run (step cfg) {} calls = some σ) {device : TypedBdaddr} {size : ℕ}
    {psdata : List ℕ} (hsize : size ≠ 0)
    (hget : connectionAuthGetAttributeNow cfg σ.store device size = some psdata) :
    σ.expected.attr device = some psdata := by
  have hstart : Attached cfg {} := ⟨.inr ⟨.empty, fun _ => rfl, rfl⟩, fun _ _ => rfl⟩
  exact Attached.get (run_invariant (fun _ _ _ h hok hstep => h.step hok hstep) hstart hok hrun)
    hsize hget

/-- An attribute is put twice, and the device that was deleted in between has lost its own. -/
theorem attribute_of_run_put :
    let cfg : Config := ⟨.wordAddressed, 2, by decide, by decide⟩
    let add (lap : BitVec 24) : Call := .addDevice ⟨⟨lap, 0, 0⟩, 4, List.replicate 8 7, false, true⟩
    let device (lap : BitVec 24) : TypedBdaddr := ⟨.publicAddr, ⟨lap, 0, 0⟩⟩
    let calls := [add 1, .putAttribute (device 1) [1], add 2, .putAttribute (device 2) [2],
      .deleteDeviceFromTdl (device 1), add 3, .putAttribute (device 2) [4]]
    ∃ σ, Lib.run (step cfg) {} calls = some σ ∧ σ.expected.attr (device 2) = some [4] ∧
      connectionAuthGetAttributeNow cfg σ.store (device 3) 1 = none := by
  intro cfg add device calls
  have hget : (Lib.run (step cfg) {} calls).map (fun σ =>
      (connectionAuthGetAttributeNow cfg σ.store (device 2) 1,
        connectionAuthGetAttributeNow cfg σ.store (device 3) 1)) = some (some [4], none) := by
    decide +kernel
  obtain ⟨σ, hrun, hσ⟩ := Option.map_eq_some_iff.mp hget
  obtain ⟨hget, hnone⟩ := Prod.mk.inj hσ
  exact ⟨σ, hrun, attribute_of_run (by decide +kernel) hrun (by decide) hget, hnone⟩

/-- The device that takes over a slot reads the attribute of the evicted device. -/
theorem inherited_of_eviction :
    let cfg : Config := ⟨.wordAddressed, 1, by decide, by decide⟩
    let add (lap : BitVec 24) : Call := .addDevice ⟨⟨lap, 0, 0⟩, 4, List.replicate 8 7, false, true⟩
    let device (lap : BitVec 24) : TypedBdaddr := ⟨.publicAddr, ⟨lap, 0, 0⟩⟩
    let calls := [add 1, .putAttribute (device 1) [5], add 2]
    ∃ σ, Lib.run (step cfg) {} calls = some σ ∧
      connectionAuthGetAttributeNow cfg σ.store (device 2) 1 = some [5] ∧
      σ.expected.attr (device 2) ≠ some [5] := by
  intro cfg add device calls
  have hget : (Lib.run (step cfg) {} calls).map (fun σ =>
      (connectionAuthGetAttributeNow cfg σ.store (device 2) 1, σ.expected.attr (device 2))) =
        some (some [5], none) := by
    decide +kernel
  obtain ⟨σ, hrun, hσ⟩ := Option.map_eq_some_iff.mp hget
  obtain ⟨hget, hnone⟩ := Prod.mk.inj hσ
  exact ⟨σ, hrun, hget, by rw [hnone]; decide⟩

/-! ### Reading by place -/

/-- `connectionAuthGetIndexedAttributeNow`: the device and the data it returns, if it returns `TRUE`. -/
def connectionAuthGetIndexedAttributeNow (cfg : Config) (s : Store) (mruIndex sizePsdata : ℕ) :
    Option (TypedBdaddr × List ℕ) :=
  if mruIndex < cfg.tdlNumberOfDevices then
    (readTrustedDeviceIndex cfg.target s)[mruIndex]?.bind fun pos =>
      if pos = tdiUnused then none
      else (s.record pos).bind fun td =>
        (if sizePsdata = 0 then some [] else (s.attr pos).filter fun psdata => psdata.length ≤ sizePsdata).map
          fun psdata => (unpackTdBdaddr td, psdata)
  else none

/-- **The list is read in the order its user expects**, with the attributes that he has put. -/
theorem indexed_of_run {cfg : Config} {calls : List Call} {σ : Tracked} (hword : cfg.target = .wordAddressed)
    (hok : Lib.RunMeets (step cfg) (Tidy cfg) {} calls) (hrun : Lib.run (step cfg) {} calls = some σ) (i n : ℕ) :
    connectionAuthGetIndexedAttributeNow cfg σ.store i n = σ.expected.entries[i]?.bind fun entry =>
      (if n = 0 then some [] else (σ.expected.attr entry.device).filter fun psdata => psdata.length ≤ n).map
        fun psdata => (entry.device, psdata) := by
  have hattached : Attached cfg σ := run_invariant (fun _ _ _ h hok hstep => h.step hok hstep)
    ⟨.inr ⟨.empty, fun _ => rfl, rfl⟩, fun _ _ => rfl⟩ hok hrun
  obtain ⟨ls, hlist, hentries, hcarries⟩ : ∃ ls, Listing cfg σ.store ls ∧ ls.map Slot.entry = σ.expected.entries ∧
      ∀ l ∈ ls, σ.store.attr l.pos = σ.expected.attr l.device := by
    rcases hattached.refines with ⟨-, ls, hlist, hentries, hcarries⟩ | ⟨hblank, -, hentries⟩
    · exact ⟨ls, hlist, hentries, hcarries.listed⟩
    · exact ⟨[], (Listing.empty hword).congr hblank.index (by simp), hentries.symm, by simp⟩
  rw [connectionAuthGetIndexedAttributeNow, hlist.order, ← hentries, List.getElem?_map]
  rcases Nat.lt_or_ge i ls.length with hlt | hge
  · have hmem := List.getElem_mem hlt
    rw [if_pos (Nat.lt_of_lt_of_le hlt hlist.length_le), List.getElem?_append_left (by rwa [List.length_map]),
      List.getElem?_map, List.getElem?_eq_getElem hlt]
    simp only [Option.map_some, Option.bind_some, if_neg (hlist.pos_ne hmem), hlist.record _ hmem, hcarries _ hmem]
    rfl
  · -- behind the last device the entries are unused
    rw [List.getElem?_append_right (by rwa [List.length_map]), List.getElem?_replicate, List.getElem?_eq_none hge]
    split
    · split <;> rfl
    · rfl

theorem indexed_of_run_put :
    let cfg : Config := ⟨.wordAddressed, 2, by decide, by decide⟩
    let device : TypedBdaddr := ⟨.publicAddr, ⟨1, 0, 0⟩⟩
    let calls := [.addDevice ⟨⟨1, 0, 0⟩, 4, List.replicate 8 7, false, true⟩, .putAttribute device [5]]
    ∃ σ, Lib.run (step cfg) {} calls = some σ ∧
      connectionAuthGetIndexedAttributeNow cfg σ.store 0 1 = σ.expected.entries[0]?.bind fun entry =>
        (if 1 = 0 then some [] else (σ.expected.attr entry.device).filter fun psdata => psdata.length ≤ 1).map
          fun psdata => (entry.device, psdata) := by
  intro cfg device calls
  exact ⟨_, rfl, @indexed_of_run cfg calls _ rfl (by decide +kernel) rfl 0 1⟩

end Cbps.Tdl
