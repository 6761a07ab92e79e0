import Cbps.Tdl.Listing

/-!
# Each call keeps the list

The loops that are left (the sinking of a device behind the priority devices, and the deletion
of all devices), and then one theorem for each call: from a listing, the call leads to a listing
whose entries are those of the model. Deleting all devices is the exception. It writes free
entries where the deleted devices were, so the devices behind them stay visible only if they were
deleted, too: the priority devices have to be in front.
-/

namespace Cbps.Tdl

open Lib List Function

variable {cfg : Config} {s s' : Store} {ls : List Slot}

/-! ### Sinking -/

/-- The loop of `ConnectionAuthSetPriorityDevice` takes `pos` behind the priority devices that
follow. -/
theorem sinkBehindPriority_eq {rest : List Slot} (hne : ∀ l ∈ rest, l.pos ≠ tdiUnused)
    (hrec : ∀ l ∈ rest, s.record l.pos = some l.td) (before : List ℕ) (pos k : ℕ) (td : TdData) :
    sinkBehindPriority s (rest.length + k) (before.length + 1) td
        (before ++ pos :: (rest.map Slot.pos ++ List.replicate k tdiUnused)) =
      before ++ (rest.takeWhile Slot.priority).map Slot.pos ++
        pos :: ((rest.dropWhile Slot.priority).map Slot.pos ++ List.replicate k tdiUnused) := by
  induction rest generalizing before td with
  | nil =>
    cases k with
    | zero => simp [sinkBehindPriority]
    | succ k => simp [sinkBehindPriority, replicate_succ]
  | cons l rest ih =>
    have hget : (before ++ pos :: ((l :: rest).map Slot.pos ++ List.replicate k tdiUnused)).getD
        (before.length + 1) tdiUnused = l.pos := by
      simp
    rw [length_cons, Nat.add_right_comm, sinkBehindPriority]
    simp only [hget, if_neg (hne l mem_cons_self), hrec l mem_cons_self,
      Option.getD_some]
    by_cases hpriority : l.priority
    · -- the two entries swap, and the loop goes on one place further
      have hswap : ((before ++ pos :: ((l :: rest).map Slot.pos ++
            List.replicate k tdiUnused)).set (before.length + 1)
              ((before ++ pos :: ((l :: rest).map Slot.pos ++ List.replicate k tdiUnused)).getD
                (before.length + 1 - 1) tdiUnused)).set (before.length + 1 - 1) l.pos =
          (before ++ [l.pos]) ++ pos :: (rest.map Slot.pos ++ List.replicate k tdiUnused) := by
        simp
      have hnext := ih (fun l' hl' => hne l' (mem_cons_of_mem _ hl'))
        (fun l' hl' => hrec l' (mem_cons_of_mem _ hl')) (before ++ [l.pos]) l.td
      rw [if_pos (show l.td.content.priorityDevice from hpriority), hswap,
        takeWhile_cons_of_pos hpriority, dropWhile_cons_of_pos hpriority]
      simpa using hnext
    · rw [if_neg (show ¬ l.td.content.priorityDevice from hpriority),
        takeWhile_cons_of_neg hpriority, dropWhile_cons_of_neg hpriority]
      simp

variable {l : Slot}

/-- The device in front moves behind the priority devices. -/
theorem Listing.settle (hword : cfg.target = .wordAddressed) {rest : List Slot}
    (h : Listing cfg s (l :: rest)) (td : TdData) :
    Listing cfg (storeTrustedDeviceIndex cfg.target s
      (sinkBehindPriority s (maxNoDevicesToManage - 1) 1 td
        (readTrustedDeviceIndex cfg.target s))) (Lib.settle Slot.priority l rest) := by
  have hperm := settle_perm Slot.priority l rest
  have hle := Nat.le_trans h.length_le cfg.le
  have hsink := sinkBehindPriority_eq (fun l' hl' => h.pos_ne (mem_cons_of_mem _ hl'))
    (fun l' hl' => h.record l' (mem_cons_of_mem _ hl')) [] l.pos
    (maxNoDevicesToManage - (l :: rest).length) td
  have hturns : rest.length + (maxNoDevicesToManage - (l :: rest).length) =
      maxNoDevicesToManage - 1 := by
    rw [length_cons] at hle ⊢
    omega
  have hlist := Listing.store hword (s := s) (hperm.length_eq ▸ h.length_le)
    ((hperm.map Slot.pos).nodup_iff.mpr h.pos_nodup)
    (fun l' hl' => h.pos_lt l' (hperm.subset hl')) (fun l' hl' => h.record l' (hperm.subset hl'))
    ((hperm.map Slot.device).nodup_iff.mpr h.device_nodup)
  rw [hturns, nil_append, length_nil, Nat.zero_add, nil_append] at hsink
  rw [h.order, map_cons, cons_append, hsink]
  rw [hperm.length_eq] at hlist
  simpa [Lib.settle] using hlist

/-! ### Deleting all devices -/

/-- The positions that the loop frees among these slots. -/
def freed (ls : List Slot) : List ℕ := (ls.filter fun l => !l.priority).map Slot.pos

theorem mem_freed_concat {before : List Slot} {pos : ℕ} :
    pos ∈ freed (before ++ [l]) ↔ pos ∈ freed before ∨ (¬ l.priority ∧ pos = l.pos) := by
  rw [freed, freed, filter_append, map_append, mem_append]
  by_cases hpriority : l.priority <;> simp [hpriority]

/-- What the loop of `connectionAuthDeleteAllDevice` has done after passing over `before`. -/
structure Swept (s : Store) (before : List Slot) (behind : List ℕ) (st : Store × List ℕ × Bool) :
    Prop where
  index : st.1.index = s.index
  record : ∀ pos, st.1.record pos = if pos ∈ freed before then none else s.record pos
  attr : ∀ pos, st.1.attr pos = if pos ∈ freed before then none else s.attr pos
  order : st.2.1 = before.map (fun l => if l.priority then l.pos else tdiUnused) ++ behind
  deleted : st.2.2 = before.any fun l => !l.priority

/-- One turn of the loop. -/
theorem Swept.turn {before : List Slot} {behind : List ℕ} {st : Store × List ℕ × Bool}
    (h : Swept s before (l.pos :: behind) st) (hne : l.pos ≠ tdiUnused)
    (hrec : s.record l.pos = some l.td) (hpos : l.pos ∉ before.map Slot.pos) :
    Swept s (before ++ [l]) behind (deleteAllTurn st before.length) := by
  have hget : st.2.1.getD before.length tdiUnused = l.pos := by
    rw [h.order, getD_append_right _ _ _ _ (by simp)]
    simp
  have hrec' : st.1.record l.pos = some l.td := by
    rw [h.record, if_neg, hrec]
    intro hmem
    exact hpos ((filter_sublist.map Slot.pos).subset hmem)
  obtain ⟨s₁, order, deleted⟩ := st
  simp only at hget hrec'
  rw [deleteAllTurn]
  simp only [hget, if_neg hne, hrec']
  by_cases hpriority : l.priority
  · rw [if_pos (show l.td.content.priorityDevice from hpriority)]
    exact ⟨h.index, by simpa [mem_freed_concat, hpriority] using h.record,
      by simpa [mem_freed_concat, hpriority] using h.attr, by simpa [hpriority] using h.order,
      by simpa [hpriority] using h.deleted⟩
  · rw [if_neg (show ¬ l.td.content.priorityDevice from hpriority)]
    refine ⟨h.index, fun pos => ?_, fun pos => ?_, ?_, ?_⟩
    · have hrecord := h.record pos
      by_cases hp : pos = l.pos
      · simp [Store.storeRecord, Store.vmSendDmPrim, Store.storeAttribute, mem_freed_concat,
          hpriority, hp]
      · simpa [Store.storeRecord, Store.vmSendDmPrim, Store.storeAttribute, mem_freed_concat,
          hpriority, hp] using hrecord
    · have hattr := h.attr pos
      by_cases hp : pos = l.pos
      · simp [Store.storeRecord, Store.vmSendDmPrim, Store.storeAttribute, mem_freed_concat,
          hpriority, hp]
      · simpa [Store.storeRecord, Store.vmSendDmPrim, Store.storeAttribute, mem_freed_concat,
          hpriority, hp] using hattr
    · have horder : order = _ := h.order
      simp [horder, hpriority]
    · simp [hpriority]

/-- The loop over all slots and the unused entries behind them. -/
theorem Listing.swept (h : Listing cfg s ls) :
    Swept s ls (List.replicate (maxNoDevicesToManage - ls.length) tdiUnused)
      ((List.range cfg.tdlNumberOfDevices).foldl deleteAllTurn
        (s, readTrustedDeviceIndex cfg.target s, false)) := by
  have hslots : ∀ before after, ls = before ++ after →
      Swept s before
        (after.map Slot.pos ++ List.replicate (maxNoDevicesToManage - ls.length) tdiUnused)
        ((List.range before.length).foldl deleteAllTurn
          (s, readTrustedDeviceIndex cfg.target s, false)) := by
    intro before
    induction before using List.reverseRecOn with
    | nil =>
      rintro after rfl
      exact ⟨rfl, by simp [freed], by simp [freed], by simpa using h.order, rfl⟩
    | append_singleton before l ih =>
      intro after hls
      have hl : l ∈ ls := by simp [hls]
      have hnodup := h.pos_nodup
      rw [hls, append_assoc, map_append] at hnodup
      have hnotMem : l.pos ∉ before.map Slot.pos := fun hmem =>
        (nodup_append.mp hnodup).2.2 _ hmem _ (by simp) rfl
      rw [length_append, length_singleton, range_succ, foldl_append]
      exact (ih (l :: after) (by simpa using hls)).turn (h.pos_ne hl) (h.record l hl) hnotMem
  have hall := hslots ls [] (append_nil ls).symm
  -- at the unused entries the loop does nothing
  have hidle : ∀ k, Swept s ls (List.replicate (maxNoDevicesToManage - ls.length) tdiUnused)
      ((List.range (ls.length + k)).foldl deleteAllTurn
        (s, readTrustedDeviceIndex cfg.target s, false)) := by
    intro k
    induction k with
    | zero => simpa using hall
    | succ k ih =>
      rw [← Nat.add_assoc, range_succ, foldl_append, foldl_cons, foldl_nil]
      generalize (List.range (ls.length + k)).foldl deleteAllTurn
        (s, readTrustedDeviceIndex cfg.target s, false) = st at ih ⊢
      obtain ⟨s₁, order, deleted⟩ := st
      have hget : order.getD (ls.length + k) tdiUnused = tdiUnused := by
        have horder : order = _ := ih.order
        rw [horder, getD_append_right _ _ _ _ (by simp)]
        rw [getD_eq_getElem?_getD, List.getElem?_replicate]
        split <;> rfl
      rw [deleteAllTurn]
      simpa only [if_pos hget] using ih
  have hle := h.length_le
  have hidle' := hidle (cfg.tdlNumberOfDevices - ls.length)
  rwa [Nat.add_sub_cancel' hle] at hidle'

/-- The priority devices stay listed when they are in front. -/
theorem Listing.deleteAll (hword : cfg.target = .wordAddressed) (h : Listing cfg s ls)
    (hleading : Leading Slot.priority ls) :
    Listing cfg (connectionAuthDeleteAllDevice cfg s).2 (ls.filter Slot.priority) := by
  have hswept := h.swept
  rw [connectionAuthDeleteAllDevice]
  generalize (List.range cfg.tdlNumberOfDevices).foldl deleteAllTurn
    (s, readTrustedDeviceIndex cfg.target s, false) = st at hswept
  obtain ⟨s₁, order, deleted⟩ := st
  have hindex : s₁.index = s.index := hswept.index
  have horder : order = _ := hswept.order
  have hdeleted : deleted = _ := hswept.deleted
  have hsub : (ls.filter Slot.priority).Sublist ls := filter_sublist
  have hrec : ∀ l ∈ ls.filter Slot.priority, s₁.record l.pos = s.record l.pos := by
    intro l hl
    obtain ⟨hl, hpriority⟩ := mem_filter.mp hl
    refine (hswept.record l.pos).trans (if_neg fun hmem => ?_)
    -- a freed position belongs to another slot
    obtain ⟨l', hl', hpos⟩ := mem_map.mp hmem
    obtain ⟨hl', hpriority'⟩ := mem_filter.mp hl'
    rw [inj_on_of_nodup_map h.pos_nodup hl' hl hpos, hpriority] at hpriority'
    cases hpriority'
  simp only
  by_cases hany : deleted
  · rw [if_pos hany]
    have hlist := Listing.store hword (s := s₁) (Nat.le_trans hsub.length_le h.length_le)
      (h.pos_nodup.sublist (hsub.map _)) (fun l hl => h.pos_lt l (hsub.subset hl))
      (fun l hl => (hrec l hl).trans (h.record l (hsub.subset hl)))
      (h.device_nodup.sublist (hsub.map _))
    rw [hleading.map_ite, append_assoc, replicate_append_replicate] at horder
    have hcount : ls.length - (ls.filter Slot.priority).length + (maxNoDevicesToManage - ls.length) =
        maxNoDevicesToManage - (ls.filter Slot.priority).length := by
      have hle := Nat.le_trans h.length_le cfg.le
      have hle' := hsub.length_le
      omega
    rw [hcount] at horder
    rw [horder]
    exact hlist
  · -- nothing was deleted, because all devices have priority
    have hall : ls.filter Slot.priority = ls := by
      rw [filter_eq_self]
      intro l hl
      rw [hdeleted] at hany
      simpa using fun hp : l.priority = false => hany (any_eq_true.mpr ⟨l, hl, by simp [hp]⟩)
    rw [if_neg hany]
    rw [hall] at hrec ⊢
    exact h.congr hindex hrec

/-! ### What becomes of the slots -/

/-- What a change of the store, other than the storing of an attribute, does to the slots: they
stay listed, a slot is an old one or the one that the recorded device got, listed positions keep
their attributes, and a position that is not listed any more has none. -/
structure Leads (cfg : Config) (s : Store) (recorded : Option TypedBdaddr) (ls : List Slot)
    (s' : Store) (ls' : List Slot) : Prop where
  listing : Listing cfg s' ls'
  moved : ∀ l' ∈ ls', (∃ l ∈ ls, l.pos = l'.pos ∧ l.device = l'.device) ∨
    (recorded = some l'.device ∧ l'.device ∉ ls.map Slot.device ∧
      l'.pos = (tdlFindDevice cfg s l'.device).2.1)
  attr_listed : ∀ pos ∈ ls'.map Slot.pos, s'.attr pos = s.attr pos
  attr_unlisted : ∀ pos, pos ∉ ls'.map Slot.pos →
    s'.attr pos = none ∨ (pos ∉ ls.map Slot.pos ∧ s'.attr pos = s.attr pos)

/-- No slot is new: each one keeps the position and the device of an old one. -/
def Kept (ls ls' : List Slot) : Prop :=
  ∀ l' ∈ ls', ∃ l ∈ ls, l.pos = l'.pos ∧ l.device = l'.device

namespace Kept

variable {ls' : List Slot}

theorem of_subset (h : ls' ⊆ ls) : Kept ls ls' := fun l' hl' => ⟨l', h hl', rfl, rfl⟩

theorem pos_subset (h : Kept ls ls') : ls'.map Slot.pos ⊆ ls.map Slot.pos := by
  intro pos hpos
  obtain ⟨l', hl', rfl⟩ := mem_map.mp hpos
  obtain ⟨l, hl, hpos, -⟩ := h l' hl'
  exact hpos ▸ mem_map_of_mem hl

/-- A change that only reorders the slots. -/
theorem leads_of_subset (h : Kept ls ls') (hlist : Listing cfg s' ls')
    (hattr : s'.attr = s.attr) (hsub : ls.map Slot.pos ⊆ ls'.map Slot.pos) :
    Leads cfg s none ls s' ls' where
  listing := hlist
  moved l' hl' := .inl (h l' hl')
  attr_listed pos _ := congrFun hattr pos
  attr_unlisted pos hpos := .inr ⟨fun hmem => hpos (hsub hmem), congrFun hattr pos⟩

end Kept

/-- A store with the same index, records and attributes. -/
theorem Listing.leads_self (h : Listing cfg s ls) (hindex : s'.index = s.index)
    (hrec : s'.record = s.record) (hattr : s'.attr = s.attr) : Leads cfg s none ls s' ls :=
  (Kept.of_subset fun _ hl => hl).leads_of_subset (h.congr hindex fun _ _ => congrFun hrec _)
    hattr fun _ hpos => hpos

variable {recorded : Option TypedBdaddr}

/-- What is sent does not matter. -/
theorem Leads.sent {ls' : List Slot}
    (h : Leads cfg s recorded ls s' ls') (prim : DmPrim) :
    Leads cfg s recorded ls (s'.vmSendDmPrim prim) ls' :=
  ⟨h.listing.congr rfl fun _ _ => rfl, h.moved, h.attr_listed, h.attr_unlisted⟩

/-- A change that keeps the slots after one that records a device. -/
theorem Leads.trans {s'' : Store} {ls' ls'' : List Slot}
    (h : Leads cfg s recorded ls s' ls') (h' : Leads cfg s' none ls' s'' ls'') :
    Leads cfg s recorded ls s'' ls'' := by
  have hkept : Kept ls' ls'' := fun l'' hl'' => (h'.moved l'' hl'').elim id fun hnew => by
    cases hnew.1
  refine ⟨h'.listing, fun l'' hl'' => ?_, fun pos hpos => ?_, fun pos hpos => ?_⟩
  · obtain ⟨l', hl', hpos, hdev⟩ := hkept l'' hl''
    rcases h.moved l' hl' with ⟨l, hl, hpos', hdev'⟩ | ⟨hrec, hnew, hpos'⟩
    · exact .inl ⟨l, hl, hpos'.trans hpos, hdev'.trans hdev⟩
    · exact .inr ⟨hrec.trans (congrArg some hdev), hdev ▸ hnew, by rw [← hpos, hpos', hdev]⟩
  · rw [h'.attr_listed pos hpos, h.attr_listed pos (hkept.pos_subset hpos)]
  · rcases h'.attr_unlisted pos hpos with hnone | ⟨hpos', hsame⟩
    · exact .inl hnone
    · rw [hsame]
      exact h.attr_unlisted pos hpos'

/-! ### Entries -/

theorem device_entry (l : Slot) : l.entry.device = l.device := rfl

theorem priority_entry (l : Slot) : l.entry.priority = l.priority := rfl

theorem lookup_entry (device : TypedBdaddr) (ls : List Slot) :
    Lib.lookup Entry.device device (ls.map Slot.entry) =
      (Lib.lookup Slot.device device ls).map Slot.entry := lookup_map device_entry device ls

theorem without_entry (device : TypedBdaddr) (ls : List Slot) :
    Lib.without Entry.device device (ls.map Slot.entry) =
      (Lib.without Slot.device device ls).map Slot.entry :=
  (map_without device_entry device ls).symm

variable {device : TypedBdaddr}

/-- The entries after a device was recorded. -/
theorem recordEntry_eq (ls : List Slot)
    (hdevice : l.device = device)
    (hpriority : l.priority =
      ((Lib.lookup Slot.device device ls).map Slot.priority).getD false) :
    recordEntry cfg.tdlNumberOfDevices device (ls.map Slot.entry) =
      (l :: restOf cfg device ls).map Slot.entry := by
  have hentry : (Lib.lookup Entry.device device (ls.map Slot.entry)).getD ⟨device, false⟩ =
      l.entry := by
    rw [lookup_entry]
    cases hl : Lib.lookup Slot.device device ls with
    | none =>
      rw [hl] at hpriority
      exact (congrArg₂ Entry.mk hdevice hpriority).symm
    | some l' =>
      rw [hl] at hpriority
      have hdevice' : l'.device = device := key_of_lookup hl
      exact (congrArg₂ Entry.mk (hdevice.trans hdevice'.symm) hpriority).symm
  rw [recordEntry, hentry, Lib.record, device_entry, hdevice, without_entry, restOf, map_cons,
    map_take]

/-! ### Calls -/

section Calls

variable {pos idx : ℕ}

/-- The positions that were listed stay listed when a device is recorded. -/
theorem Place.pos_subset (h : Listing cfg s ls)
    (hplace : Place cfg s ls device pos idx) (td : TdData) :
    ls.map Slot.pos ⊆ (⟨pos, td⟩ :: restOf cfg device ls).map Slot.pos := by
  cases hl : Lib.lookup Slot.device device ls with
  | some l =>
    obtain rfl := hplace.listed l hl
    obtain ⟨before, after, rfl, hwithout⟩ := lookup_split h.device_nodup hl
    rw [h.restOf_eq_without hl, hwithout]
    intro p hp
    simp only [map_append, map_cons, mem_append, mem_cons] at hp ⊢
    tauto
  | none =>
    have hnew : device ∉ ls.map Slot.device := lookup_eq_none_iff.mp hl
    rcases Nat.lt_or_ge ls.length cfg.tdlNumberOfDevices with hlt | hge
    · rw [restOf, without_eq_self hnew, take_of_length_le (by omega)]
      exact fun p hp => mem_cons_of_mem _ hp
    · -- the slot that is given away is listed under the new device
      have hfull : ls.length = cfg.tdlNumberOfDevices := Nat.le_antisymm h.length_le hge
      obtain ⟨before, l, rfl, rfl⟩ := hplace.evicted hl hfull
      rw [length_append, length_singleton] at hfull
      rw [restOf, without_eq_self hnew, take_append_of_le_length (by omega),
        take_of_length_le (by omega)]
      intro p hp
      simp only [map_append, map_cons, map_nil, mem_append,
        mem_cons] at hp ⊢
      tauto

variable (hword : cfg.target = .wordAddressed)

include hword

/-- Recording a device: the common part of `connectionAuthAddDevice` and
`connectionAuthUpdateTdl`. -/
theorem Listing.recordDevice (h : Listing cfg s ls)
    {found : Option TdData} (hfind : tdlFindDevice cfg s device = (found, pos, idx))
    (td : TdData) (hdevice : unpackTdBdaddr td = device)
    (hpriority : td.content.priorityDevice =
      (found.map fun td => td.content.priorityDevice).getD false) :
    Leads cfg s (some device) ls
        (updateTrustedDeviceIndex cfg (s.storeRecord pos (some td)) pos idx)
        (⟨pos, td⟩ :: restOf cfg device ls) ∧
      (⟨pos, td⟩ :: restOf cfg device ls).map Slot.entry =
        recordEntry cfg.tdlNumberOfDevices device (ls.map Slot.entry) := by
  obtain ⟨pos', idx', hfind', hplace⟩ := h.find device
  obtain ⟨rfl, rfl, rfl⟩ : found = _ ∧ pos = pos' ∧ idx = idx' := by
    simpa using hfind.symm.trans hfind'
  have hslot : Slot.device ⟨pos, td⟩ = device := hdevice
  refine ⟨⟨?_, ?_, fun p _ => rfl, fun p hp => .inr ⟨fun hmem => ?_, rfl⟩⟩, ?_⟩
  · exact h.moveToFront hword hplace td hdevice rfl (update_self ..)
      fun p hp => update_of_ne hp _ _
  · intro l' hl'
    rcases mem_cons.mp hl' with rfl | hmem
    · cases hl : Lib.lookup Slot.device device ls with
      | none =>
        rw [hslot, hfind]
        exact .inr ⟨rfl, lookup_eq_none_iff.mp hl, rfl⟩
      | some l =>
        exact .inl ⟨l, mem_of_lookup hl, hplace.listed l hl,
          (key_of_lookup hl).trans hslot.symm⟩
    · exact .inl ⟨l', (restOf_sublist cfg device ls).subset hmem, rfl, rfl⟩
  · exact hp (hplace.pos_subset h td hmem)
  · rw [Option.map_map] at hpriority
    exact (recordEntry_eq ls hslot hpriority).symm

theorem Listing.updateMru (h : Listing cfg s ls) (peerBdAddr : Bdaddr) :
    ∃ ls', Leads cfg s none ls (connectionAuthUpdateMru cfg s peerBdAddr).2 ls' ∧
      ls'.map Slot.entry = touchEntry ⟨.publicAddr, peerBdAddr⟩ (ls.map Slot.entry) := by
  obtain ⟨pos, idx, hfind, hplace⟩ := h.find ⟨.publicAddr, peerBdAddr⟩
  rw [connectionAuthUpdateMru, hfind, touchEntry, lookup_entry]
  cases hl : Lib.lookup Slot.device ⟨.publicAddr, peerBdAddr⟩ ls with
  | none => exact ⟨ls, h.leads_self rfl rfl rfl, rfl⟩
  | some l =>
    obtain rfl := hplace.listed l hl
    have hdevice : l.device = ⟨.publicAddr, peerBdAddr⟩ := key_of_lookup hl
    have hkept : Kept ls (l :: restOf cfg ⟨.publicAddr, peerBdAddr⟩ ls) := .of_subset
      (cons_subset.mpr ⟨mem_of_lookup hl, (restOf_sublist cfg _ ls).subset⟩)
    refine ⟨l :: restOf cfg ⟨.publicAddr, peerBdAddr⟩ ls, hkept.leads_of_subset ?_ rfl ?_, ?_⟩
    · exact h.moveToFront hword hplace l.td hdevice rfl
        (h.record l (mem_of_lookup hl)) fun p _ => rfl
    · exact hplace.pos_subset h l.td
    · rw [h.restOf_eq_without hl, map_cons, ← without_entry]
      rfl

theorem Listing.setPriorityDevice (h : Listing cfg s ls) (bdAddr : Bdaddr)
    (isPriorityDevice : Bool) :
    ∃ ls', Leads cfg s none ls
        (connectionAuthSetPriorityDevice cfg s bdAddr isPriorityDevice).2 ls' ∧
      ls'.map Slot.entry =
        setPriorityEntry ⟨.publicAddr, bdAddr⟩ (ls.map Slot.entry) isPriorityDevice := by
  obtain ⟨pos, idx, hfind, hplace⟩ := h.find ⟨.publicAddr, bdAddr⟩
  rw [connectionAuthSetPriorityDevice, hfind, setPriorityEntry, lookup_entry]
  cases hl : Lib.lookup Slot.device ⟨.publicAddr, bdAddr⟩ ls with
  | none => exact ⟨ls, h.leads_self rfl rfl rfl, rfl⟩
  | some l =>
    obtain rfl := hplace.listed l hl
    have hdevice : l.device = ⟨.publicAddr, bdAddr⟩ := key_of_lookup hl
    have hlist := h.moveToFront hword hplace (l.td.setPriority isPriorityDevice) hdevice
      (show (s.storeRecord l.pos (some (l.td.setPriority isPriorityDevice))).index = s.index from rfl)
      (update_self ..) fun p hp => update_of_ne hp _ _
    have hkept : Kept ls (⟨l.pos, l.td.setPriority isPriorityDevice⟩ ::
        restOf cfg ⟨.publicAddr, bdAddr⟩ ls) := by
      intro l' hl'
      rcases mem_cons.mp hl' with rfl | hmem
      · exact ⟨l, mem_of_lookup hl, rfl, rfl⟩
      · exact ⟨l', (restOf_sublist cfg _ ls).subset hmem, rfl, rfl⟩
    have hsub := hplace.pos_subset h (l.td.setPriority isPriorityDevice)
    have hrest := h.restOf_eq_without hl
    cases isPriorityDevice with
    | true =>
      refine ⟨_, hkept.leads_of_subset hlist rfl hsub, ?_⟩
      rw [hrest, map_cons, ← without_entry]
      exact congrArg₂ _ (congrArg₂ Entry.mk hdevice rfl) rfl
    | false =>
      have hperm := settle_perm Slot.priority ⟨l.pos, l.td.setPriority false⟩
        (restOf cfg ⟨.publicAddr, bdAddr⟩ ls)
      have hkept' : Kept ls (Lib.settle Slot.priority ⟨l.pos, l.td.setPriority false⟩
          (restOf cfg ⟨.publicAddr, bdAddr⟩ ls)) := fun l' hl' => hkept l' (hperm.subset hl')
      refine ⟨_, hkept'.leads_of_subset (hlist.settle hword _) rfl fun p hp => ?_, ?_⟩
      · exact (hperm.map Slot.pos).symm.subset (hsub hp)
      · rw [map_settle priority_entry, hrest, ← without_entry]
        exact congrArg₂ _ (congrArg₂ Entry.mk hdevice rfl) rfl

theorem Listing.updateTdl (h : Listing cfg s ls) (device : TypedBdaddr) (keys : DmSmKeys) :
    ∃ ls', Leads cfg s (some device) ls (connectionAuthUpdateTdl cfg s device keys) ls' ∧
      ls'.map Slot.entry = recordEntry cfg.tdlNumberOfDevices device (ls.map Slot.entry) := by
  obtain ⟨pos, idx, hfind, -⟩ := h.find device
  have hsame := sameDevice_packKeys cfg.target
    (((Lib.lookup Slot.device device ls).map Slot.td).getD (newRecord cfg.target device)) keys
  rw [connectionAuthUpdateTdl, hfind]
  refine ⟨_, h.recordDevice hword hfind (updateRecord cfg.target
    ((Lib.lookup Slot.device device ls).map Slot.td) device keys) ?_ ?_⟩
  · rw [updateRecord, hsame.device]
    cases hl : Lib.lookup Slot.device device ls with
    | none => exact unpackTdBdaddr_packTdBdaddr ..
    | some l => exact show l.device = device from key_of_lookup hl
  · rw [updateRecord, hsame.priorityDevice]
    cases Lib.lookup Slot.device device ls with
    | none => rfl
    | some l => rfl

/-- Deleting a listed device: the common part of the calls that delete one. -/
theorem Listing.deleteDevice (h : Listing cfg s ls)
    (hl : Lib.lookup Slot.device device ls = some l)
    (hplace : Place cfg s ls device pos idx) :
    Leads cfg s none ls (deleteFromTrustedDeviceList cfg s pos idx)
        (Lib.without Slot.device device ls) ∧
      (Lib.without Slot.device device ls).map Slot.entry =
        Lib.without Entry.device device (ls.map Slot.entry) := by
  obtain rfl := hplace.listed l hl
  have hkept : Kept ls (Lib.without Slot.device device ls) :=
    .of_subset (without_sublist device ls).subset
  have hnotMem := hplace.pos_notMem
  have hsub := hplace.pos_subset h l.td
  rw [h.restOf_eq_without hl] at hnotMem hsub
  refine ⟨⟨h.delete hword hl hplace, fun l' hl' => .inl (hkept l' hl'), fun p hp => ?_,
    fun p hp => ?_⟩, (without_entry device ls).symm⟩
  · have hne : p ≠ l.pos := fun heq => hnotMem (heq ▸ hp)
    exact update_of_ne hne _ _
  · by_cases heq : p = l.pos
    · rw [heq]
      exact .inl (update_self ..)
    · -- all other positions stay listed
      refine .inr ⟨fun hmem => ?_, update_of_ne heq _ _⟩
      exact (mem_cons.mp (hsub hmem)).elim heq hp

theorem Listing.deleteDeviceFromTdl (h : Listing cfg s ls) (device : TypedBdaddr) :
    ∃ ls', Leads cfg s none ls (connectionAuthDeleteDeviceFromTdl cfg s device) ls' ∧
      ls'.map Slot.entry = Lib.without Entry.device device (ls.map Slot.entry) := by
  obtain ⟨pos, idx, hfind, hplace⟩ := h.find device
  rw [connectionAuthDeleteDeviceFromTdl, hfind]
  cases hl : Lib.lookup Slot.device device ls with
  | none =>
    refine ⟨ls, h.leads_self rfl rfl rfl, ?_⟩
    rw [without_entry, without_eq_self (lookup_eq_none_iff.mp hl)]
  | some l => exact ⟨_, h.deleteDevice hword hl hplace⟩

theorem Listing.deleteUnprivileged (h : Listing cfg s ls) (device : TypedBdaddr) :
    ∃ ls', Leads cfg s none ls (connectionAuthDeleteDevice cfg s device).2 ls' ∧
      ls'.map Slot.entry = deleteEntry device (ls.map Slot.entry) := by
  obtain ⟨pos, idx, hfind, hplace⟩ := h.find device
  rw [connectionAuthDeleteDevice, hfind, deleteEntry, lookup_entry]
  cases hl : Lib.lookup Slot.device device ls with
  | none => exact ⟨ls, h.leads_self rfl rfl rfl, rfl⟩
  | some l =>
    simp only [Option.map_some]
    rw [priority_entry, Slot.priority]
    split
    · exact ⟨ls, h.leads_self rfl rfl rfl, rfl⟩
    · -- the primitive that is sent first changes neither the index nor a record
      have hsent : Listing cfg (s.vmSendDmPrim (.removeDeviceReq device)) ls :=
        h.congr rfl fun _ _ => rfl
      have hplace' : Place cfg (s.vmSendDmPrim (.removeDeviceReq device)) ls device pos idx :=
        { hplace with order := hplace.order }
      obtain ⟨hleads, hentries⟩ := hsent.deleteDevice hword hl hplace'
      have hself : Leads cfg s none ls (s.vmSendDmPrim (.removeDeviceReq device)) ls :=
        h.leads_self rfl rfl rfl
      exact ⟨_, hself.trans hleads, hentries⟩

omit hword in
theorem Listing.setTrustLevel (h : Listing cfg s ls) (peerBdAddr : Bdaddr) (trusted : Bool) :
    ∃ ls', Leads cfg s none ls (connectionAuthSetTrustLevel cfg s peerBdAddr trusted).2 ls' ∧
      ls'.map Slot.entry = ls.map Slot.entry := by
  obtain ⟨pos, idx, hfind, hplace⟩ := h.find ⟨.publicAddr, peerBdAddr⟩
  rw [connectionAuthSetTrustLevel, hfind]
  cases hl : Lib.lookup Slot.device ⟨.publicAddr, peerBdAddr⟩ ls with
  | none => exact ⟨ls, h.leads_self rfl rfl rfl, rfl⟩
  | some l =>
    obtain rfl := hplace.listed l hl
    obtain ⟨before, after, rfl, -⟩ := lookup_split h.device_nodup hl
    have hlist : Listing cfg (s.storeRecord l.pos (some (l.td.setTrusted trusted)))
        (before ++ ⟨l.pos, l.td.setTrusted trusted⟩ :: after) := h.replace rfl
    have hkept : Kept (before ++ l :: after)
        (before ++ ⟨l.pos, l.td.setTrusted trusted⟩ :: after) := by
      intro l' hl'
      rcases mem_append.mp hl' with hmem | hmem
      · exact ⟨l', mem_append_left _ hmem, rfl, rfl⟩
      · rcases mem_cons.mp hmem with rfl | hmem
        · exact ⟨l, by simp, rfl, rfl⟩
        · exact ⟨l', mem_append_right _ (mem_cons_of_mem _ hmem), rfl, rfl⟩
    have hsub : (before ++ l :: after).map Slot.pos ⊆
        (before ++ ⟨l.pos, l.td.setTrusted trusted⟩ :: after).map Slot.pos := by
      rw [map_append, map_append]
      exact fun p hp => hp
    have hstored := hkept.leads_of_subset hlist
      (show (s.storeRecord l.pos (some (l.td.setTrusted trusted))).attr = s.attr from rfl) hsub
    refine ⟨_, hstored.sent (.addDeviceReq (dmSmAddDeviceReq cfg.target (l.td.setTrusted trusted))),
      ?_⟩
    rw [map_append, map_append]
    rfl

theorem Listing.addDevice (h : Listing cfg s ls) (req : AddAuthDeviceReq) :
    ∃ ls', Leads cfg s (Call.addDevice req).recorded ls (connectionAuthAddDevice cfg s req).2 ls' ∧
      ls'.map Slot.entry =
        trackEntries cfg.tdlNumberOfDevices (ls.map Slot.entry) (.addDevice req) := by
  obtain ⟨pos, idx, hfind, hplace⟩ := h.find ⟨.publicAddr, req.bdAddr⟩
  rw [connectionAuthAddDevice, hfind, trackEntries, Call.recorded]
  by_cases hstored : req.isStored
  · -- the device is recorded first, and then sorted in as one without priority
    have hbonded : req.bonded = true := by
      rw [AddAuthDeviceReq.isStored, Bool.and_eq_true] at hstored
      exact hstored.1
    simp only [hstored, hbonded, if_true, Bool.not_true, Bool.false_and, Bool.false_eq_true,
      if_false]
    generalize htd : addDeviceRecord cfg.target
      ((Lib.lookup Slot.device ⟨.publicAddr, req.bdAddr⟩ ls).map Slot.td) req = td
    have hsame := sameDevice_addDeviceRecord cfg.target
      ((Lib.lookup Slot.device ⟨.publicAddr, req.bdAddr⟩ ls).map Slot.td) req
    rw [htd] at hsame
    obtain ⟨hleads, hentries⟩ := h.recordDevice hword hfind td
      (by
        rw [hsame.1]
        cases hl : Lib.lookup Slot.device ⟨.publicAddr, req.bdAddr⟩ ls with
        | none => exact unpackTdBdaddr_packTdBdaddr ..
        | some l => exact show l.device = _ from key_of_lookup hl)
      (by
        rw [hsame.2]
        cases Lib.lookup Slot.device ⟨.publicAddr, req.bdAddr⟩ ls with
        | none => rfl
        | some l => rfl)
    obtain ⟨ls', hleads', hentries'⟩ :=
      hleads.listing.setPriorityDevice hword req.bdAddr false
    exact ⟨ls', (hleads.trans hleads').sent _, by rw [hentries', hentries]⟩
  · simp only [hstored, Bool.false_eq_true, if_false]
    by_cases hbonded : req.bonded
    · simp only [hbonded, Bool.not_true, Bool.false_and, Bool.false_eq_true, if_false, if_true]
      exact ⟨ls, h.leads_self rfl rfl rfl, rfl⟩
    · simp only [hbonded, Bool.not_false, Bool.true_and, Bool.false_eq_true, if_false]
      cases hl : Lib.lookup Slot.device ⟨.publicAddr, req.bdAddr⟩ ls with
      | none =>
        refine ⟨ls, h.leads_self rfl rfl rfl, ?_⟩
        rw [without_entry, without_eq_self (lookup_eq_none_iff.mp hl)]
      | some l =>
        obtain ⟨hleads, hentries⟩ := h.deleteDevice hword hl hplace
        exact ⟨_, hleads.sent _, hentries⟩

theorem Listing.deleteAllDevice (h : Listing cfg s ls)
    (hleading : Leading Slot.priority ls) :
    Leads cfg s none ls (connectionAuthDeleteAllDevice cfg s).2 (ls.filter Slot.priority) := by
  have hkept : Kept ls (ls.filter Slot.priority) := .of_subset filter_sublist.subset
  have hattr : ∀ pos, (connectionAuthDeleteAllDevice cfg s).2.attr pos =
      if pos ∈ freed ls then none else s.attr pos := by
    intro pos
    have hswept := h.swept.attr pos
    rw [connectionAuthDeleteAllDevice]
    generalize (List.range cfg.tdlNumberOfDevices).foldl deleteAllTurn
      (s, readTrustedDeviceIndex cfg.target s, false) = st at hswept
    obtain ⟨s₁, order, deleted⟩ := st
    rw [← hswept]
    cases deleted <;> rfl
  refine ⟨h.deleteAll hword hleading, fun l' hl' => .inl (hkept l' hl'), fun pos hpos => ?_,
    fun pos hpos => ?_⟩
  · rw [hattr, if_neg]
    intro hmem
    -- a freed position belongs to another slot
    obtain ⟨l, hl, rfl⟩ := mem_map.mp hmem
    obtain ⟨hl, hpriority⟩ := mem_filter.mp hl
    obtain ⟨l', hl', heq⟩ := mem_map.mp hpos
    obtain ⟨hl', hpriority'⟩ := mem_filter.mp hl'
    rw [inj_on_of_nodup_map h.pos_nodup hl' hl heq] at hpriority'
    rw [hpriority'] at hpriority
    cases hpriority
  · rw [hattr]
    by_cases hmem : pos ∈ freed ls
    · exact .inl (if_pos hmem)
    · refine .inr ⟨fun hls => ?_, if_neg hmem⟩
      obtain ⟨l, hl, rfl⟩ := mem_map.mp hls
      by_cases hpriority : l.priority
      · exact hpos (mem_map_of_mem (mem_filter.mpr ⟨hl, hpriority⟩))
      · exact hmem (mem_map_of_mem (mem_filter.mpr ⟨hl, by simpa using hpriority⟩))

omit hword in
/-- Storing an attribute leaves the slots alone. -/
theorem Listing.putAttribute (h : Listing cfg s ls) (device : TypedBdaddr) (psdata : List ℕ) :
    Listing cfg (connectionAuthPutAttribute cfg s device psdata) ls := by
  obtain ⟨pos, idx, hfind, -⟩ := h.find device
  rw [connectionAuthPutAttribute, hfind]
  cases Lib.lookup Slot.device device ls with
  | none => exact h
  | some l => exact h.congr rfl fun _ _ => rfl

/-- **One call.** The slots after a call, other than one that stores an attribute, have the
entries of the model. -/
theorem Listing.perform (h : Listing cfg s ls) {c : Call}
    (hput : ∀ device psdata, c ≠ .putAttribute device psdata)
    (hall : c = .deleteAllDevice → Leading Slot.priority ls) :
    ∃ ls', Leads cfg s c.recorded ls (perform cfg s c) ls' ∧
      ls'.map Slot.entry = trackEntries cfg.tdlNumberOfDevices (ls.map Slot.entry) c := by
  cases c with
  | addDevice req => exact h.addDevice hword req
  | updateTdl device keys => exact h.updateTdl hword device keys
  | updateMru peerBdAddr => exact h.updateMru hword peerBdAddr
  | setTrustLevel peerBdAddr trusted => exact h.setTrustLevel peerBdAddr trusted
  | setPriorityDevice bdAddr isPriorityDevice =>
    exact h.setPriorityDevice hword bdAddr isPriorityDevice
  | deleteDevice device => exact h.deleteUnprivileged hword device
  | deleteDeviceFromTdl device => exact h.deleteDeviceFromTdl hword device
  | deleteAllDevice =>
    refine ⟨_, h.deleteAllDevice hword (hall rfl), ?_⟩
    rw [trackEntries, filter_map]
    rfl
  | putAttribute device psdata => exact absurd rfl (hput device psdata)

/-- After any call the entries are those of the model. -/
theorem Listing.perform_entries (h : Listing cfg s ls) (c : Call)
    (hall : c = .deleteAllDevice → Leading Slot.priority ls) :
    ∃ ls', Listing cfg (Tdl.perform cfg s c) ls' ∧
      ls'.map Slot.entry = trackEntries cfg.tdlNumberOfDevices (ls.map Slot.entry) c := by
  by_cases hput : ∃ device psdata, c = .putAttribute device psdata
  · obtain ⟨device, psdata, rfl⟩ := hput
    exact ⟨ls, h.putAttribute device psdata, rfl⟩
  · obtain ⟨ls', hleads, hentries⟩ :=
      h.perform hword (fun device psdata hc => hput ⟨device, psdata, hc⟩) hall
    exact ⟨ls', hleads.listing, hentries⟩

end Calls

end Cbps.Tdl
