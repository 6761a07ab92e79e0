import Cbps.MassStorage.Fat16

/-!
# The sectors of one area

What `read_sectors` sends. A turn of its sending loop that does not fault sends whole sectors of the area's content, in
order, whatever the sink space was (`sendTurn_spec`); only how many it sends can be wrong. `Ready` is what a sector needs
of the source to be sent at all.
-/

namespace Cbps.MassStorage

open List

open Cbps.Lib

variable {fw : Firmware} {slack : ℕ → ℕ} {f : FileInfo} {content : List Octet} {n p b : ℕ}

/-! ### Arithmetic -/

theorem u16_of_lt (h : n < 2 ^ 16) : u16 n = n := Nat.mod_eq_of_lt h

theorem u32_of_lt (h : n < 2 ^ 32) : u32 n = n := Nat.mod_eq_of_lt h

theorem u32Sub_of_le {a b : ℕ} (h : b ≤ a) (ha : a < 2 ^ 32) : u32Sub a b = a - b := by
  rw [u32Sub, show a + 2 ^ 32 - b = (a - b) + 2 ^ 32 by omega, Nat.add_mod_right]
  exact Nat.mod_eq_of_lt (by omega)

theorem blocksIn_eq (n : ℕ) : blocksIn n = sectorsOf n := by
  unfold blocksIn sectorsOf bytesPerSector
  split <;> omega

theorem numberSectors_eq (n : ℕ) : numberSectors n = sectorsOf n := by
  unfold numberSectors sectorsOf bytesPerSector
  dsimp only
  split <;> omega

/-! ### Sectors of a content -/

theorem length_sectorAt (k : ℕ) : (sectorAt content k).length = bytesPerSector := by
  unfold sectorAt
  rw [length_append, length_zeros]
  have := length_take_le bytesPerSector (content.drop (bytesPerSector * k))
  omega

theorem sectorAt_of_end (h : sectorsOf content.length ≤ p) : sectorAt content p = zeros bytesPerSector := by
  have hend : content.length ≤ bytesPerSector * p := by
    unfold sectorsOf bytesPerSector at *
    omega
  rw [sectorAt, drop_eq_nil_of_le hend]
  rfl

theorem sectorsAt_add (p b b' : ℕ) :
    sectorsAt content p (b + b') = sectorsAt content p b ++ sectorsAt content (p + b) b' := by
  rw [sectorsAt, ← range'_append_1, flatMap_append]
  rfl

theorem sectorsAt_one (p : ℕ) : sectorsAt content p 1 = sectorAt content p := by
  simp [sectorsAt]

theorem length_sectorsAt (p b : ℕ) : (sectorsAt content p b).length = bytesPerSector * b := by
  induction b with
  | zero => rfl
  | succ b ih =>
    rw [sectorsAt_add, length_append, ih, sectorsAt_one, length_sectorAt, Nat.mul_succ]

/-- Octets of a content that goes on with zeros. -/
def padded (content : List Octet) (off n : ℕ) : List Octet :=
  (content.drop off).take n ++ zeros (n - (content.length - off))

theorem padded_getElem? (off n i : ℕ) :
    (padded content off n)[i]? = if i < n then some (content[off + i]?.getD 0) else none := by
  rw [padded, zeros, List.getElem?_append, List.getElem?_take, List.getElem?_drop, List.getElem?_replicate,
    length_take, length_drop]
  by_cases hin : i < n
  · by_cases hc : off + i < content.length
    · rw [if_pos (by omega), if_pos hin, if_pos hin, List.getElem?_eq_getElem hc]
      rfl
    · rw [if_neg (by omega), if_pos (by omega), if_pos hin, List.getElem?_eq_none (by omega)]
      rfl
  · rw [if_neg (by omega), if_neg (by omega), if_neg hin]

theorem length_padded (off n : ℕ) : (padded content off n).length = n := by
  rw [padded, length_append, length_zeros, length_take, length_drop]
  omega

theorem padded_add (off n m : ℕ) :
    padded content off (n + m) = padded content off n ++ padded content (off + n) m := by
  apply ext_getElem?
  intro i
  rw [List.getElem?_append, length_padded, padded_getElem?, padded_getElem?, padded_getElem?]
  by_cases h : i < n
  · rw [if_pos h, if_pos h, if_pos (by omega)]
  · rw [if_neg h, show off + n + (i - n) = off + i by omega]
    by_cases h' : i < n + m
    · rw [if_pos h', if_pos (by omega)]
    · rw [if_neg h', if_neg (by omega)]

theorem sectorAt_eq (k : ℕ) : sectorAt content k = padded content (bytesPerSector * k) bytesPerSector := by
  rw [sectorAt, padded, length_take, length_drop]
  congr 2
  omega

theorem sectorsAt_eq (p b : ℕ) : sectorsAt content p b = padded content (bytesPerSector * p) (bytesPerSector * b) := by
  induction b with
  | zero => simp [sectorsAt, padded, zeros]
  | succ b ih =>
    rw [sectorsAt_add, sectorsAt_one, ih, sectorAt_eq, Nat.mul_add bytesPerSector p b, ← padded_add]
    rfl

/-! ### The sink -/

theorem flush_claimed (sent : List (List Octet)) {octets : List Octet} (h : octets.length = n) :
    (Sink.mk sent octets).flush n = ⟨sent ++ [octets], []⟩ := by
  subst h
  exact Sink.flush_append (by rw [append_nil])

theorem sendBlocks_eq {sent : List (List Octet)} {data : List Octet} (h : data.length ≤ n) :
    sendBlocks fw ⟨sent, []⟩ data n = ⟨sent ++ [data ++ zeros (n - data.length)], []⟩ := by
  obtain ⟨k, rfl⟩ := Nat.exists_eq_add_of_le h
  rw [Nat.add_sub_cancel_left]
  have hfilled : ∀ cells : List Octet, cells.length = data.length + k → cells.drop data.length = zeros k →
      ((Sink.mk sent cells).store 0 data).flush (data.length + k) = ⟨sent ++ [data ++ zeros k], []⟩ := by
    intro cells hlen hdrop
    have hin : 0 + data.length ≤ cells.length := by omega
    rw [Sink.store, writeAt_eq hin, take_zero, nil_append, Nat.zero_add, hdrop]
    exact flush_claimed sent (by simp)
  rw [sendBlocks]
  split
  · refine hfilled _ ?_ ?_
    · simp [Sink.claim]
    · simp only [Sink.claim, length_nil, Nat.zero_add, nil_append, Nat.add_sub_cancel_left]
      rw [writeAt_eq (by simp), drop_append_of_le_length (by simp), drop_left' (by simp)]
      simp
  · refine hfilled _ (by simp) ?_
    have hk : k = 0 := by omega
    subst hk
    simp [zeros]

theorem sendMbr_eq (sent : List (List Octet)) : sendMbr fw ⟨sent, []⟩ = ⟨sent ++ [mbr], []⟩ := by
  have hexe := Sink.writeAt_fill [] mbrExe fw.unwritten 66
  have hpartition := Sink.writeAt_fill mbrExe mbrPartition fw.unwritten 50
  have hempty := Sink.writeAt_fill (mbrExe ++ mbrPartition) (zeros 48) fw.unwritten 2
  have hsignature := Sink.writeAt_fill (mbrExe ++ mbrPartition ++ zeros 48) exeSignature fw.unwritten 0
  simp only [length_append, length_mbrExe, length_mbrPartition, length_zeros, length_exeSignature,
    nil_append, length_nil, replicate_zero, append_nil, Nat.add_zero] at hexe hpartition hempty hsignature
  simp only [sendMbr, Sink.claim, Sink.store, length_mbrExe, length_mbrPartition, length_exeSignature, length_nil,
    nil_append, bytesPerSector, hexe, hpartition, hempty, hsignature, Nat.zero_add, Nat.reduceMul, Nat.reduceAdd,
    Nat.reduceSub]
  exact flush_claimed sent length_mbr

theorem sendBoot_eq (sent : List (List Octet)) : sendBoot fw ⟨sent, []⟩ = ⟨sent ++ [boot], []⟩ := by
  have hdata := Sink.writeAt_fill [] bootSectorData fw.unwritten 450
  have hexe := Sink.writeAt_fill bootSectorData bootExe fw.unwritten 2
  have hsignature := Sink.writeAt_fill (bootSectorData ++ bootExe) exeSignature fw.unwritten 0
  simp only [length_append, length_bootSectorData, length_bootExe, length_exeSignature, nil_append,
    length_nil, replicate_zero, append_nil, Nat.add_zero] at hdata hexe hsignature
  simp only [sendBoot, Sink.claim, Sink.store, length_bootSectorData, length_bootExe, length_nil,
    nil_append, bytesPerSector, hdata, hexe, hsignature, Nat.zero_add, Nat.reduceAdd]
  exact flush_claimed sent length_boot

theorem sendEmpty_eq (sent : List (List Octet)) :
    sendEmpty fw ⟨sent, []⟩ = ⟨sent ++ [zeros bytesPerSector], []⟩ := by
  have hzeros := Sink.writeAt_fill [] (zeros bytesPerSector) fw.unwritten 0
  simp only [nil_append, length_zeros, length_nil, replicate_zero, append_nil,
    Nat.add_zero] at hzeros
  simp only [sendEmpty, Sink.claim, Sink.store, length_nil, nil_append, hzeros]
  exact flush_claimed sent (length_zeros _)

/-! ### The source of an area -/

/-- The octets a source of an area gives: a source in memory has a 16-bit length. -/
def FileInfo.streamed (f : FileInfo) : List Octet := if f.inMemory then f.content.take (u16 f.size) else f.content

theorem left_openSource (f : FileInfo) : f.openSource.left = f.streamed := by
  rw [FileInfo.left, FileInfo.openSource, FileInfo.streamed]
  split
  · rw [streamRegionSource]
    split
    · rename_i h
      rw [h]
      rfl
    · rfl
  · rfl

theorem left_drop (f : FileInfo) (n : ℕ) : (f.drop n).left = f.left.drop n := by
  cases hsrc : f.src with
  | none => simp [FileInfo.left, FileInfo.drop, hsrc]
  | some octets => simp [FileInfo.left, FileInfo.drop, hsrc]

theorem streamed_eq_take (f : FileInfo) : f.streamed = f.content.take f.streamed.length := by
  rw [FileInfo.streamed]
  split
  · rw [length_take, take_eq_take_min]
  · rw [take_length]

theorem length_streamed_le (f : FileInfo) : f.streamed.length ≤ f.size := by
  rw [streamed_eq_take, length_take]
  exact Nat.min_le_right _ _

/-- The source of the area is at a sector. -/
structure FileInfo.At (f : FileInfo) (p : ℕ) : Prop where
  sector : f.currentStartSector = p
  left : f.left = f.streamed.drop (bytesPerSector * p)

theorem at_openSource (f : FileInfo) : f.openSource.At 0 where
  sector := rfl
  left := by
    rw [left_openSource]
    rfl

theorem FileInfo.At.length_left (h : f.At p) : f.left.length = f.streamed.length - bytesPerSector * p := by
  rw [h.left, length_drop]

/-- The sectors that the largest area has. -/
def maxSectors : ℕ := bootSector + totalSectors - dataSector

theorem sectorsOf_le (h : n ≤ bytesPerSector * maxSectors) : sectorsOf n ≤ maxSectors := by
  unfold sectorsOf maxSectors bytesPerSector bootSector totalSectors dataSector rootSector fat2Sector fat1Sector at *
  omega

/-- The configuration of an area does not change. -/
structure FileInfo.Same (g f : FileInfo) : Prop where
  content : g.content = f.content
  inMemory : g.inMemory = f.inMemory
  endSector : g.endSector = f.endSector

namespace FileInfo.Same

variable {g : FileInfo}

theorem size (h : g.Same f) : g.size = f.size := by
  rw [FileInfo.size, FileInfo.size, h.content]

theorem streamed (h : g.Same f) : g.streamed = f.streamed := by
  rw [FileInfo.streamed, FileInfo.streamed, h.size, h.content, h.inMemory]

end FileInfo.Same

/-- The source has not been opened, or is at a sector. -/
def FileInfo.Cached (f : FileInfo) : Prop := f.src = none ∨ ∃ p ≤ sectorsOf f.size, f.At p

theorem setEndSector_content (f : FileInfo) (n : ℕ) : (f.setEndSector n).content = f.content := rfl

theorem setEndSector_inMemory (f : FileInfo) (n : ℕ) : (f.setEndSector n).inMemory = f.inMemory := rfl

theorem setEndSector_endSector (f : FileInfo) (n : ℕ) : (f.setEndSector n).endSector = n := rfl

theorem FileInfo.Cached.setEndSector (h : f.Cached) (n : ℕ) : (f.setEndSector n).Cached := by
  obtain hnone | ⟨p, hp, hat⟩ := h
  · exact .inl hnone
  · exact .inr ⟨p, hp, hat.sector, hat.left⟩

/-! ### The seek -/

theorem seekTurn_eq {first last : ℕ} (h : f.At p) (hp : p ≤ first) (hlast : first ≤ last) (hsmall : last < 2 ^ 31) :
    seekTurn first last f =
      if p < first then .ok (some { f.drop bytesPerSector with currentStartSector := p + 1 }) else .ok none := by
  rw [seekTurn, h.sector, u32_of_lt (by omega)]
  by_cases hlt : p < first
  · rw [if_pos hlt, if_pos ⟨hlt, by omega⟩]
  · rw [if_neg hlt, if_neg (by omega)]

/-- Where the seek is: at a sector that is not behind the first one. -/
def Seeking (f : FileInfo) (first : ℕ) (g : FileInfo) : Prop := g.Same f ∧ ∃ p ≤ first, g.At p

theorem Seeking.step {first last : ℕ} {g g' : FileInfo} (h : Seeking f first g) (hlast : first ≤ last)
    (hsmall : last < 2 ^ 31) (hturn : seekTurn first last g = .ok (some g')) :
    Seeking f first g' ∧ first - g'.currentStartSector < first - g.currentStartSector := by
  obtain ⟨hsame, p, hp, hat⟩ := h
  rw [seekTurn_eq hat hp hlast hsmall] at hturn
  split at hturn
  · rename_i hlt
    obtain rfl := Option.some.inj (Except.ok.inj hturn)
    refine ⟨⟨⟨hsame.content, hsame.inMemory, hsame.endSector⟩, p + 1, hlt, rfl, ?_⟩, ?_⟩
    · change (g.drop bytesPerSector).left = g.streamed.drop _
      rw [left_drop, hat.left, drop_drop, Nat.mul_succ]
    · rw [hat.sector]
      change first - (p + 1) < first - p
      omega
  · cases hturn

theorem Seeking.of_stop {first last : ℕ} {g : FileInfo} (h : Seeking f first g) (hlast : first ≤ last)
    (hsmall : last < 2 ^ 31) (hturn : seekTurn first last g = .ok none) : g.At first := by
  obtain ⟨-, p, hp, hat⟩ := h
  rw [seekTurn_eq hat hp hlast hsmall] at hturn
  split at hturn
  · cases hturn
  · obtain rfl : p = first := by omega
    exact hat

theorem seekTurn_ok (first last : ℕ) (g : FileInfo) :
    seekTurn first last g = .ok none ∨ ∃ g', seekTurn first last g = .ok (some g') := by
  rw [seekTurn]
  split
  · exact .inr ⟨_, rfl⟩
  · exact .inl rfl

/-- Before the seek the source is opened again unless it is at a sector that is not behind the first one. -/
theorem FileInfo.Cached.seeking (h : f.Cached) (first : ℕ) :
    Seeking f first (if f.src = none ∨ first < f.currentStartSector then f.openSource else f) := by
  split
  · exact ⟨⟨rfl, rfl, rfl⟩, 0, Nat.zero_le _, at_openSource f⟩
  · rename_i hkeep
    obtain hnone | ⟨p, -, hat⟩ := h
    · exact absurd (.inl hnone) hkeep
    · have hsector := hat.sector
      exact ⟨⟨rfl, rfl, rfl⟩, p, by omega, hat⟩

/-- The seek ends at the first sector. -/
theorem seek_ok {first last turns : ℕ} {g g' : FileInfo} (h : Seeking f first g) (hlast : first ≤ last)
    (hsmall : last < 2 ^ 31) (hloop : loop .outOfTurns (seekTurn first last) turns g = .ok g') :
    g'.Same f ∧ g'.At first := by
  obtain ⟨hseeking, hstop⟩ := inv_of_loop (Seeking f first) (fun a b ha hab => (Seeking.step ha hlast hsmall hab).1) h hloop
  exact ⟨hseeking.1, hseeking.of_stop hlast hsmall hstop⟩

theorem seek_yields {first last turns : ℕ} {g : FileInfo} (h : Seeking f first g) (hlast : first ≤ last)
    (hsmall : last < 2 ^ 31) (hturns : first < turns) :
    Yields (loop .outOfTurns (seekTurn first last) turns g) fun g' => g'.Same f ∧ g'.At first := by
  have hyields : Yields (loop .outOfTurns (seekTurn first last) turns g)
      fun g' => Seeking f first g' ∧ seekTurn first last g' = .ok none := by
    refine loop_spec (Seeking f first) (fun g => first - g.currentStartSector) ?_ h (by omega)
    intro g hg
    obtain hstop | ⟨g', hg'⟩ := seekTurn_ok first last g
    · exact .inl hstop
    · exact .inr ⟨g', hg', Seeking.step hg hlast hsmall hg'⟩
  exact hyields.mono fun g' hg' => ⟨hg'.1.1, hg'.1.of_stop hlast hsmall hg'.2⟩

/-! ### One turn of the sending loop -/

/-- The sectors that a turn sends. -/
def pace (fw : Firmware) (slack left endSector i : ℕ) : ℕ :=
  min (min (slack / bytesPerSector) (blocksIn (fw.sourceSize left))) (endSector - i + 1)

variable {la first last : ℕ} {t t' : Transfer}

theorem ite_gt_eq_min (a b : ℕ) : (if a > b then b else a) = min a b := by
  split <;> omega

/-- A turn of the sending loop at a sector that is due. -/
theorem sendTurn_eq {b c : ℕ} (hat : t.file.At (first + t.i)) (hdue : first + t.i ≤ last)
    (hlast : last < sectorsOf t.file.size) (hsize : t.file.size ≤ bytesPerSector * maxSectors)
    (hspace : slack (la + t.i) < 2 ^ 16) (hb : b = pace fw (slack (la + t.i)) t.file.left.length last t.i)
    (hc : c = min (t.file.size - bytesPerSector * (first + t.i)) (bytesPerSector * b)) :
    sendTurn fw slack la first last t =
      if b = 0 then .ok none
      else if t.file.left.length < c then .error .overread
      else
        .ok (some
          { file := { t.file.drop c with currentStartSector := first + t.i + b }
            i := t.i + b
            sink := sendBlocks fw t.sink (t.file.left.take c) (bytesPerSector * b) }) := by
  have hmax := sectorsOf_le hsize
  have hsmall : maxSectors = 31252 := rfl
  have hoctets : bytesPerSector * (first + t.i) < t.file.size := by
    unfold sectorsOf bytesPerSector at *
    omega
  have hroom : slack (la + t.i) / bytesPerSector ≤ 127 := by
    unfold bytesPerSector
    omega
  have hb127 : b ≤ 127 := by
    rw [hb, pace]
    omega
  have hbound : u32Sub last t.i = last - t.i := u32Sub_of_le (by omega) (by omega)
  have hbound1 : u32 (last - t.i + 1) = last - t.i + 1 := u32_of_lt (by omega)
  have hbound2 : u16 (last - t.i + 1) = last - t.i + 1 := u16_of_lt (by omega)
  have hgo : t.i ≤ u32Sub last first := by
    rw [u32Sub_of_le (by omega) (by omega)]
    omega
  have hremaining : u32Sub t.file.size (u32 ((first + t.i) * bytesPerSector)) =
      t.file.size - bytesPerSector * (first + t.i) := by
    rw [Nat.mul_comm, u32_of_lt, u32Sub_of_le]
    all_goals
      unfold bytesPerSector at *
      omega
  have hcopy : u16 (if t.file.size - bytesPerSector * (first + t.i) < b * bytesPerSector
      then t.file.size - bytesPerSector * (first + t.i) else b * bytesPerSector) = c := by
    rw [hc, u16_of_lt]
    all_goals
      unfold bytesPerSector at *
      split <;> omega
  have hblocks : (if slack (la + t.i) / bytesPerSector > blocksIn (fw.sourceSize t.file.left.length)
      then blocksIn (fw.sourceSize t.file.left.length) else slack (la + t.i) / bytesPerSector) =
      min (slack (la + t.i) / bytesPerSector) (blocksIn (fw.sourceSize t.file.left.length)) := ite_gt_eq_min _ _
  have hclip : (if min (slack (la + t.i) / bytesPerSector) (blocksIn (fw.sourceSize t.file.left.length)) >
      last - t.i + 1 then last - t.i + 1
      else min (slack (la + t.i) / bytesPerSector) (blocksIn (fw.sourceSize t.file.left.length))) = b := by
    rw [ite_gt_eq_min, hb, pace]
  have hsector : u32 (first + t.i + b) = first + t.i + b := u32_of_lt (by omega)
  have hi : u16 (t.i + b) = t.i + b := u16_of_lt (by omega)
  simp only [sendTurn, if_pos hgo, hbound, hbound1, hbound2, hblocks, hclip, hat.sector, hremaining, hcopy, hsector, hi]
  rw [Nat.mul_comm b]

/-! ### The sending loop -/

/-- The loop has sent `i` sectors of an area's content, from `first` on. -/
structure Sending (f : FileInfo) (first : ℕ) (sent : List (List Octet)) (t : Transfer) : Prop
    extends FileInfo.Same t.file f where
  place : t.file.At (first + t.i)
  inside : first + t.i ≤ sectorsOf f.size
  sink : ∃ packets, t.sink = ⟨packets, []⟩ ∧ packets.flatten = sent.flatten ++ sectorsAt f.content first t.i

namespace Sending

variable {sent : List (List Octet)}

theorem length_left (h : Sending f first sent t) :
    t.file.left.length = f.streamed.length - bytesPerSector * (first + t.i) := by
  rw [h.place.length_left, h.toSame.streamed]

/-- What a copy takes from the source, with the zeros behind it, are the sectors of the content. -/
theorem take_left (h : Sending f first sent t) {b c : ℕ}
    (hc : c = min (f.size - bytesPerSector * (first + t.i)) (bytesPerSector * b)) (hleft : c ≤ t.file.left.length) :
    t.file.left.take c ++ zeros (bytesPerSector * b - c) = sectorsAt f.content (first + t.i) b := by
  have hlen := h.length_left
  have hstream : t.file.left = (f.content.take f.streamed.length).drop (bytesPerSector * (first + t.i)) := by
    rw [h.place.left, h.toSame.streamed, ← streamed_eq_take]
  have htake : t.file.left.take c = (f.content.drop (bytesPerSector * (first + t.i))).take (bytesPerSector * b) := by
    rw [hstream, drop_take, take_take, Nat.min_eq_left (by omega)]
    apply take_eq_take_iff.mpr
    rw [length_drop, hc, FileInfo.size]
    omega
  rw [htake, sectorsAt_eq, padded, hc, FileInfo.size]
  congr 2
  omega

/-- A turn that goes on sends sectors of the content. -/
theorem step (hfw : fw.Sizes) (h : Sending f first sent t) (hdue : first + t.i ≤ last) (hlast : last < sectorsOf f.size)
    (hsize : f.size ≤ bytesPerSector * maxSectors) (hspace : slack (la + t.i) < 2 ^ 16)
    (hturn : sendTurn fw slack la first last t = .ok (some t')) :
    Sending f first sent t' ∧
      ∃ b, b = pace fw (slack (la + t.i)) (f.streamed.length - bytesPerSector * (first + t.i)) last t.i ∧ 0 < b ∧
        t'.i = t.i + b ∧
        min (f.size - bytesPerSector * (first + t.i)) (bytesPerSector * b) ≤
          f.streamed.length - bytesPerSector * (first + t.i) := by
  have hlen := h.length_left
  have hat := h.place
  rw [sendTurn_eq h.place hdue (by rwa [h.toSame.size]) (by rwa [h.toSame.size]) hspace rfl rfl,
    h.toSame.size, hlen] at hturn
  set b := pace fw (slack (la + t.i)) (f.streamed.length - bytesPerSector * (first + t.i)) last t.i with hb
  set c := min (f.size - bytesPerSector * (first + t.i)) (bytesPerSector * b) with hc
  split at hturn
  · cases hturn
  split at hturn
  · cases hturn
  rename_i hpos hleft
  obtain rfl := Option.some.inj (Except.ok.inj hturn)
  have hleft' : c ≤ t.file.left.length := by omega
  -- the sectors that `SourceSize` shows are sectors of the content
  have hinside : first + t.i + b ≤ sectorsOf f.size := by
    have hshown : b ≤ blocksIn (fw.sourceSize (f.streamed.length - bytesPerSector * (first + t.i))) := by
      rw [hb, pace]
      omega
    have hreported := hfw.le (f.streamed.length - bytesPerSector * (first + t.i))
    have hstreamed := length_streamed_le f
    rw [blocksIn_eq] at hshown
    unfold sectorsOf bytesPerSector at *
    omega
  refine ⟨⟨⟨h.content, h.inMemory, h.endSector⟩, ⟨(Nat.add_assoc ..).symm ▸ rfl, ?_⟩, ?_, ?_⟩, b, rfl, by omega, rfl,
    hlen ▸ hleft'⟩
  · change (t.file.drop c).left = t.file.streamed.drop _
    rw [left_drop, hat.left, drop_drop]
    have hstreamed := length_streamed_le f
    rw [← h.toSame.streamed] at hstreamed
    rcases Nat.le_total (bytesPerSector * b) (f.size - bytesPerSector * (first + t.i)) with hfull | hrest
    · rw [hc, Nat.min_eq_right hfull, ← Nat.mul_add, Nat.add_assoc]
    · -- behind the last sector both are the empty end of the source
      rw [hc, Nat.min_eq_left hrest]
      refine (drop_eq_nil_of_le (by omega)).trans (drop_eq_nil_of_le ?_).symm
      change t.file.streamed.length ≤ bytesPerSector * (first + (t.i + b))
      unfold bytesPerSector at *
      omega
  · rw [← Nat.add_assoc]
    exact hinside
  · obtain ⟨packets, hsink, hflat⟩ := h.sink
    refine ⟨packets ++ [sectorsAt f.content (first + t.i) b], ?_, ?_⟩
    · have hcount : (t.file.left.take c).length = c := length_take_of_le hleft'
      rw [hsink, sendBlocks_eq (by rw [hcount]; exact Nat.min_le_right _ _), hcount, h.take_left rfl hleft']
    · rw [flatten_append, hflat, sectorsAt_add, append_assoc, flatten_singleton]

theorem due_of_turn (hturn : sendTurn fw slack la first last t = .ok (some t')) (hlast : first ≤ last)
    (hsmall : last < 2 ^ 31) : first + t.i ≤ last := by
  rw [sendTurn, u32Sub_of_le hlast (by omega)] at hturn
  split at hturn
  · omega
  · cases hturn

end Sending

/-- A wait ends with room for a sector. -/
def Space (slack : ℕ → ℕ) : Prop := ∀ a, bytesPerSector ≤ slack a ∧ slack a < 2 ^ 16

/-- The sectors that `SourceSize` shows at a sector of an area. -/
def shown (fw : Firmware) (f : FileInfo) (p : ℕ) : ℕ :=
  blocksIn (fw.sourceSize (f.streamed.length - bytesPerSector * p))

/-- A sector of an area can be sent: its octets are in the source, and `SourceSize` shows it. -/
def Ready (fw : Firmware) (f : FileInfo) (p : ℕ) : Prop :=
  min f.size (bytesPerSector * (p + 1)) ≤ f.streamed.length ∧ 0 < shown fw f p

/-- What a read of the sectors from `first` to `last` of an area starts from. -/
structure Reads (fw : Firmware) (slack : ℕ → ℕ) (f : FileInfo) (first last : ℕ) : Prop where
  sizes : fw.Sizes
  space : Space slack
  order : first ≤ last
  inside : last < sectorsOf f.size
  small : f.size ≤ bytesPerSector * maxSectors

namespace Reads

variable {sent : List (List Octet)} {turns : ℕ}

theorem last_lt (h : Reads fw slack f first last) : last < 2 ^ 15 := by
  have hmax := sectorsOf_le h.small
  have hsmall : maxSectors = 31252 := rfl
  have := h.inside
  omega

theorem turn_eq (h : Reads fw slack f first last) (la : ℕ) (ht : Sending f first sent t) (hdue : first + t.i ≤ last) {b c : ℕ}
    (hb : b = min (min (slack (la + t.i) / bytesPerSector) (shown fw f (first + t.i))) (last - t.i + 1))
    (hc : c = min (f.size - bytesPerSector * (first + t.i)) (bytesPerSector * b)) :
    sendTurn fw slack la first last t =
      if b = 0 then .ok none
      else if f.streamed.length - bytesPerSector * (first + t.i) < c then .error .overread
      else
        .ok (some
          { file := { t.file.drop c with currentStartSector := first + t.i + b }
            i := t.i + b
            sink := sendBlocks fw t.sink (t.file.left.take c) (bytesPerSector * b) }) := by
  rw [← ht.length_left]
  refine sendTurn_eq ht.place hdue (ht.toSame.size ▸ h.inside) (ht.toSame.size ▸ h.small) (h.space _).2 ?_
    (ht.toSame.size ▸ hc)
  rw [hb, pace, ht.length_left, shown]

/-- A turn that goes on: how many sectors it sends, and that their octets were in the source. -/
theorem turn (h : Reads fw slack f first last) (ht : Sending f first sent t)
    (hturn : sendTurn fw slack la first last t = .ok (some t')) :
    Sending f first sent t' ∧ first + t.i ≤ last ∧
      ∃ b, b = min (min (slack (la + t.i) / bytesPerSector) (shown fw f (first + t.i))) (last - t.i + 1) ∧ 0 < b ∧
        t'.i = t.i + b ∧
        min (f.size - bytesPerSector * (first + t.i)) (bytesPerSector * b) ≤
          f.streamed.length - bytesPerSector * (first + t.i) := by
  have hlast := h.last_lt
  have hdue := Sending.due_of_turn hturn h.order (by omega)
  obtain ⟨hsending, hb⟩ := ht.step h.sizes hdue h.inside h.small (h.space _).2 hturn
  exact ⟨hsending, hdue, hb⟩

/-- The loop stops behind the last sector, or where the source shows nothing. -/
theorem stop (h : Reads fw slack f first last) (ht : Sending f first sent t)
    (hstop : sendTurn fw slack la first last t = .ok none) : last < first + t.i ∨ shown fw f (first + t.i) = 0 := by
  rcases Nat.lt_or_ge last (first + t.i) with hlt | hdue
  · exact .inl hlt
  refine .inr ?_
  rw [h.turn_eq la ht hdue rfl rfl] at hstop
  split at hstop
  · rename_i hzero
    have hroom := (h.space (la + t.i)).1
    unfold bytesPerSector at *
    omega
  · split at hstop <;> cases hstop

theorem start (h : Reads fw slack f first last) {g : FileInfo} (hsame : g.Same f) (hat : g.At first)
    (sent : List (List Octet)) : Sending f first sent ⟨g, 0, ⟨sent, []⟩⟩ where
  toSame := hsame
  place := hat
  inside := Nat.le_of_lt (Nat.lt_of_le_of_lt h.order h.inside)
  sink := ⟨sent, rfl, by simp [sectorsAt]⟩

/-- Every loop that ends has sent sectors of the content, in order. -/
theorem sending_of_loop (h : Reads fw slack f first last) (ht : Sending f first sent t)
    (hloop : loop .outOfTurns (sendTurn fw slack la first last) turns t = .ok t') :
    Sending f first sent t' ∧ sendTurn fw slack la first last t' = .ok none :=
  inv_of_loop (Sending f first sent) (fun _ _ ht hturn => (h.turn ht hturn).1) ht hloop

/-- **The whole read**: every sector is ready, and a read that does not begin with the area is never shown more than is
left of it. -/
theorem yields (h : Reads fw slack f first last) (la turns : ℕ) (ht : Sending f first sent t) (hdue : first + t.i ≤ last + 1)
    (hready : ∀ p, first ≤ p → p ≤ last → Ready fw f p)
    (hleft : first = 0 ∨ ∀ p, first ≤ p → p ≤ last → min 127 (shown fw f p) ≤ last - p + 1)
    (hturns : last + 1 < turns) :
    Yields (loop .outOfTurns (sendTurn fw slack la first last) turns t) fun t' =>
      Sending f first sent t' ∧ first + t'.i = last + 1 := by
  have hyields : Yields (loop .outOfTurns (sendTurn fw slack la first last) turns t) fun t' =>
      (Sending f first sent t' ∧ first + t'.i ≤ last + 1) ∧ sendTurn fw slack la first last t' = .ok none := by
    refine loop_spec (fun t => Sending f first sent t ∧ first + t.i ≤ last + 1) (fun t => last + 1 - (first + t.i)) ?_
      ⟨ht, hdue⟩ (by omega)
    rintro t ⟨ht, hdue⟩
    by_cases hmore : first + t.i ≤ last
    · obtain ⟨hstream, hshown⟩ := hready _ (Nat.le_add_right _ _) hmore
      have hspace := h.space (la + t.i)
      obtain ⟨b, hb⟩ :
        ∃ b, b = min (min (slack (la + t.i) / bytesPerSector) (shown fw f (first + t.i))) (last - t.i + 1) := ⟨_, rfl⟩
      have heq := h.turn_eq la ht hmore hb rfl
      have hpos : b ≠ 0 := by
        unfold bytesPerSector at *
        omega
      have hfit : first + t.i + b ≤ last + 1 := by
        rcases hleft with rfl | hleft
        · omega
        · have := hleft _ (Nat.le_add_right _ _) hmore
          unfold bytesPerSector at *
          omega
      have hcopied : min (f.size - bytesPerSector * (first + t.i)) (bytesPerSector * b) ≤
          f.streamed.length - bytesPerSector * (first + t.i) := by
        have := (hready (first + t.i + b - 1) (by omega) (by omega)).1
        unfold bytesPerSector at *
        omega
      rw [if_neg hpos, if_neg (Nat.not_lt.mpr hcopied)] at heq
      refine .inr ⟨_, heq, ⟨(h.turn ht heq).1, ?_⟩, ?_⟩
      · change first + (t.i + b) ≤ last + 1
        omega
      · change last + 1 - (first + (t.i + b)) < last + 1 - (first + t.i)
        omega
    · refine .inl ?_
      have hlast := h.last_lt
      have horder := h.order
      rw [sendTurn, u32Sub_of_le horder (by omega), if_neg (by omega)]
  refine hyields.mono fun t' ht' => ⟨ht'.1.1, ?_⟩
  obtain hend | hnone := h.stop ht'.1.1 ht'.2
  · exact Nat.le_antisymm ht'.1.2 hend
  · rcases Nat.lt_or_ge last (first + t'.i) with hend | hdue'
    · exact Nat.le_antisymm ht'.1.2 hend
    · exact absurd hnone (Nat.ne_of_gt (hready _ (Nat.le_add_right _ _) hdue').2)

/-- With room for one sector at each wait no more is sent than was asked for, and all that was sent was ready. -/
theorem ready_of_loop (h : Reads fw slack f first last) (hunit : ∀ a, slack a = bytesPerSector)
    (ht : Sending f first sent t) (hzero : t.i = 0)
    (hloop : loop .outOfTurns (sendTurn fw slack la first last) turns t = .ok t') :
    first + t'.i ≤ last + 1 ∧ ∀ p, first ≤ p → p < first + t'.i → Ready fw f p := by
  have hinv : ∀ a b, (Sending f first sent a ∧ first + a.i ≤ last + 1 ∧
        ∀ p, first ≤ p → p < first + a.i → Ready fw f p) →
      sendTurn fw slack la first last a = .ok (some b) →
      Sending f first sent b ∧ first + b.i ≤ last + 1 ∧ ∀ p, first ≤ p → p < first + b.i → Ready fw f p := by
    rintro a b ⟨ha, -, hready⟩ hturn
    obtain ⟨hb, hdue, k, hk, hpos, hi, hcopied⟩ := h.turn ha hturn
    rw [hunit] at hk
    have hone : k = 1 := by
      unfold bytesPerSector at hk
      omega
    subst hone
    refine ⟨hb, by omega, ?_⟩
    intro p hfirst hp
    rcases Nat.lt_or_ge p (first + a.i) with hlt | hge
    · exact hready p hfirst hlt
    · obtain rfl : p = first + a.i := by omega
      have hin := h.inside
      refine ⟨?_, by omega⟩
      unfold sectorsOf bytesPerSector at *
      omega
  have hstart : first ≤ last := h.order
  exact (inv_of_loop _ hinv ⟨ht, by omega, by omega⟩ hloop).1.2

/-- With much room at one sector, at which the source shows more than is left of a read that does not begin with the
area, more is sent than was asked for. -/
theorem over_of_loop (h : Reads fw slack f first last) (hready : ∀ p, first ≤ p → p ≤ last → Ready fw f p)
    (hfirst : 0 < first) (hp : first ≤ p) (hlast : p ≤ last) (hmore : last - p + 1 < min 127 (shown fw f p))
    (hslack : ∀ a, slack a = if a = la + (p - first) then 65535 else bytesPerSector)
    (ht : Sending f first sent t) (hzero : t.i = 0)
    (hloop : loop .outOfTurns (sendTurn fw slack la first last) turns t = .ok t') : last + 1 < first + t'.i := by
  have hinv : ∀ a b, (Sending f first sent a ∧ (first + a.i ≤ p ∨ last + 1 < first + a.i)) →
      sendTurn fw slack la first last a = .ok (some b) →
      Sending f first sent b ∧ (first + b.i ≤ p ∨ last + 1 < first + b.i) := by
    rintro a b ⟨ha, hplace⟩ hturn
    obtain ⟨hb, hdue, k, hk, hpos, hi, -⟩ := h.turn ha hturn
    refine ⟨hb, ?_⟩
    rw [hslack] at hk
    split at hk
    · have hat : first + a.i = p := by omega
      rw [hat] at hk
      unfold bytesPerSector at hk
      omega
    · unfold bytesPerSector at hk
      omega
  obtain ⟨⟨hsending, hplace⟩, hstop⟩ := inv_of_loop _ hinv ⟨ht, by omega⟩ hloop
  obtain hend | hnone := h.stop hsending hstop
  · omega
  · rcases hplace with hin | hout
    · exact absurd hnone (Nat.ne_of_gt (hready _ (Nat.le_add_right _ _) (by omega)).2)
    · exact hout

end Reads

end Cbps.MassStorage
