import Cbps.A2dp.Caps
import Cbps.Lib.Loop
import Cbps.Lib.Memory
import Cbps.Lib.Runs
import Mathlib.Algebra.Ring.Nat
import Mathlib.Data.Nat.Basic
import Mathlib.Logic.Function.Basic

/-!
# The pool of data blocks

Four blocks of a device share one piece of memory behind a header. A block is added behind the others, and when one is
removed those behind it are moved down. The header keeps its numbers in bit fields: 9 bits of the size of a block, 7 of
the size of an element, 6 of the current element, 10 of the offset.

The pool is a list of blocks in the order of their offsets (`Laid`). `pool_kept` says that it stays one in every run whose
numbers fit the fields, and that no block changes when another is added or removed. What `blockGetIndexed` does behind
the last element of a block is another matter: it does not look.
-/

namespace Cbps.A2dp.DataBlocks

open Lib List Function

/-! ### The code -/

/-- An octet outside of the allocated pool, or in its header, is read or written. -/
inductive Fault
  | outside
  deriving DecidableEq, Repr

/-- `data_block_id`. -/
inductive DataBlockId
  | sepList
  | listPreferredLocalSeids
  | listDiscoveredRemoteSeids
  | configuredServiceCaps
  deriving DecidableEq, Repr

def DataBlockId.all : List DataBlockId :=
  [.sepList, .listPreferredLocalSeids, .listDiscoveredRemoteSeids, .configuredServiceCaps]

/-- `data_block_info`. -/
structure DataBlockInfo where
  blockSize : ℕ
  elementSize : ℕ
  currentElement : ℕ
  offset : ℕ
  deriving DecidableEq, Repr

/-- `memset( data_block, 0, sizeof( data_block_info ) )`. -/
def DataBlockInfo.zero : DataBlockInfo := ⟨0, 0, 0, 0⟩

/-- `sizeof(data_block_header)`: a `u16` and four structures of 32 bits. -/
def dblkHdrSize : ℕ := 20

/-- `data_block_header` and the memory behind it. An offset counts from the header. -/
structure Pool where
  sizeBlocks : ℕ
  block : DataBlockId → DataBlockInfo
  data : List Octet

/-- `blockInit`. -/
def blockInit : Pool := ⟨0, fun _ => .zero, []⟩

/-- `memset` and the stores of the application. -/
def store (data : List Octet) (offset : ℕ) (new : List Octet) : Except Fault (List Octet) :=
  if dblkHdrSize ≤ offset ∧ offset + new.length ≤ dblkHdrSize + data.length then
    .ok (writeAt data (offset - dblkHdrSize) new)
  else .error .outside

/-- `memmove`. A negative length is a large one. -/
def move (data : List Octet) (dst src : ℕ) (n : ℤ) : Except Fault (List Octet) :=
  if 0 ≤ n ∧ dblkHdrSize ≤ dst ∧ dst + n ≤ dblkHdrSize + data.length ∧ src + n ≤ dblkHdrSize + data.length then
    .ok (moveWithin data (dst - dblkHdrSize) (src - dblkHdrSize) n.toNat)
  else .error .outside

/-- `realloc`: more octets have some content. -/
def resize (data : List Octet) (size : ℕ) (mem : ℕ → Octet) : List Octet :=
  data.take size ++ (List.range (size - data.length)).map mem

/-- `blockAdd`. `realloc` fails, or the new octets have some content. -/
def blockAdd (pool : Pool) (id : DataBlockId) (elementCount elementSize : Octet) (realloc : Option (ℕ → Octet)) :
    Except Fault (Pool × Option ℕ) :=
  if (pool.block id).offset = 0 ∧ elementCount ≠ 0 ∧ elementSize ≠ 0 then
    let blockSize := elementSize.toNat * elementCount.toNat % 65536
    let offset := (dblkHdrSize + pool.sizeBlocks) % 65536
    match realloc with
    | some mem => do
      let data ← store (resize pool.data (offset + blockSize - dblkHdrSize) mem) offset (List.replicate blockSize 0)
      return (⟨(pool.sizeBlocks + blockSize) % 65536,
        Function.update pool.block id ⟨blockSize % 512, elementSize.toNat % 128, 0, offset % 1024⟩, data⟩, some offset)
    | none => return (pool, none)
  else return (pool, none)

/-- The offsets of the blocks that are positioned above. -/
def lowered (info other : DataBlockInfo) : DataBlockInfo :=
  if info.offset < other.offset then { other with offset := (other.offset + 1024 - info.blockSize) % 1024 } else other

/-- The pool after a `realloc`, which may fail. -/
def reallocated (data : List Octet) (size : ℕ) : Option (ℕ → Octet) → List Octet
  | some mem => resize data size mem
  | none => data

/-- `blockRemove`. -/
def blockRemove (pool : Pool) (id : DataBlockId) (realloc : Option (ℕ → Octet)) : Except Fault Pool :=
  let info := pool.block id
  if info.offset ≠ 0 then do
    let sizeBlocks := (pool.sizeBlocks + 65536 - info.blockSize) % 65536
    let data ← move pool.data info.offset (info.offset + info.blockSize) (sizeBlocks - info.offset + dblkHdrSize)
    let data ← store data (sizeBlocks + dblkHdrSize) (List.replicate info.blockSize 0xff)
    return ⟨sizeBlocks, Function.update (fun i => lowered info (pool.block i)) id .zero,
      reallocated data sizeBlocks realloc⟩
  else return pool

/-- `(offset)?(u8*)((uintptr_t)DBLK_BASE(device_id)+offset):(u8*)0`, with the offset of an element. -/
def elementPointer (info : DataBlockInfo) (element : ℕ) : Option ℕ :=
  let offset := (info.elementSize * element % 65536 + info.offset) % 65536
  if offset ≠ 0 then some offset else none

/-- `blockGetBase`. -/
def blockGetBase (pool : Pool) (id : DataBlockId) : Option ℕ :=
  if (pool.block id).offset ≠ 0 then some (pool.block id).offset else none

/-- `blockGetIndexed`. -/
def blockGetIndexed (pool : Pool) (id : DataBlockId) (element : Octet) : Option ℕ :=
  elementPointer (pool.block id) element.toNat

/-- `blockGetCurrent`. -/
def blockGetCurrent (pool : Pool) (id : DataBlockId) : Option ℕ :=
  elementPointer (pool.block id) (pool.block id).currentElement

/-- The element that `blockSetCurrent` is asked for: `DATA_BLOCK_INDEX_NEXT`, `DATA_BLOCK_INDEX_PREVIOUS` or an index. -/
def indexOf (info : DataBlockInfo) (element : Octet) : ℕ :=
  if element = 0xff then (info.currentElement + 1) % 256
  else if element = 0xfe then (info.currentElement + 255) % 256
  else element.toNat

/-- `blockSetCurrent`. -/
def blockSetCurrent (pool : Pool) (id : DataBlockId) (element : Octet) : Pool × Option ℕ :=
  let info := pool.block id
  if info.elementSize * indexOf info element < info.blockSize then
    let pool := { pool with
      block := Function.update pool.block id { info with currentElement := indexOf info element % 64 } }
    (pool, blockGetCurrent pool id)
  else (pool, none)

/-- The application writes to an element of a block, if there is one. -/
def elementWrite (pool : Pool) (id : DataBlockId) (element : ℕ) (value : List Octet) : Except Fault Pool :=
  let info := pool.block id
  if info.offset ≠ 0 ∧ value.length ≤ info.elementSize ∧ info.elementSize * (element + 1) ≤ info.blockSize then do
    let data ← store pool.data (info.offset + info.elementSize * element) value
    return { pool with data := data }
  else return pool

/-! ### Runs -/

/-- What is done with the blocks of a device. -/
inductive Event
  | add (id : DataBlockId) (elementCount elementSize : Octet) (realloc : Option (ℕ → Octet))
  | remove (id : DataBlockId) (realloc : Option (ℕ → Octet))
  | setCurrent (id : DataBlockId) (element : Octet)
  | write (id : DataBlockId) (element : ℕ) (value : List Octet)
  | getIndexed (id : DataBlockId) (element : Octet)

/-- One of them, with the pointer that is returned. -/
def exec (pool : Pool) : Event → Except Fault (Pool × Option ℕ)
  | .add id elementCount elementSize realloc => blockAdd pool id elementCount elementSize realloc
  | .remove id realloc => (·, none) <$> blockRemove pool id realloc
  | .setCurrent id element => return blockSetCurrent pool id element
  | .write id element value => (·, none) <$> elementWrite pool id element value
  | .getIndexed id element => return (pool, blockGetIndexed pool id element)

/-- A step of a run. -/
def step (pool : Pool) (e : Event) : Option Pool := (exec pool e).toOption.map Prod.fst

/-! ### What the pool is for -/

/-- A block as the application sees it. -/
structure Block where
  elementSize : ℕ
  currentElement : ℕ
  content : List Octet
  deriving DecidableEq, Repr

/-- The block of an identifier. -/
def Pool.view (pool : Pool) (id : DataBlockId) : Option Block :=
  if (pool.block id).offset = 0 then none
  else some ⟨(pool.block id).elementSize, (pool.block id).currentElement,
    readAt pool.data ((pool.block id).offset - dblkHdrSize) (pool.block id).blockSize⟩

/-- A pointer to a whole element of a block. -/
def PointsInto (info : DataBlockInfo) (pointer : ℕ) : Prop :=
  info.offset ≤ pointer ∧ pointer < info.offset + info.blockSize ∧ pointer + info.elementSize ≤ info.offset + info.blockSize

/-- **The promise** of a state. -/
structure Sound (pool : Pool) : Prop where
  disjoint {a b : DataBlockId} (ha : (pool.block a).offset ≠ 0) (hb : (pool.block b).offset ≠ 0) (hne : a ≠ b) :
    (pool.block a).offset + (pool.block a).blockSize ≤ (pool.block b).offset ∨
      (pool.block b).offset + (pool.block b).blockSize ≤ (pool.block a).offset
  inside {a : DataBlockId} (ha : (pool.block a).offset ≠ 0) :
    dblkHdrSize ≤ (pool.block a).offset ∧
      (pool.block a).offset + (pool.block a).blockSize ≤ dblkHdrSize + pool.data.length
  sizeBlocks : pool.sizeBlocks = (DataBlockId.all.map fun id => (pool.block id).blockSize).sum
  current {a : DataBlockId} (ha : (pool.block a).offset ≠ 0) :
    ∃ pointer, blockGetCurrent pool a = some pointer ∧ PointsInto (pool.block a) pointer
  missing {a : DataBlockId} (ha : (pool.block a).offset = 0) (element : Octet) :
    blockGetCurrent pool a = none ∧ blockGetIndexed pool a element = none

/-- **The promise** of a step: the other blocks stay as they are, a new block is as large as it is asked for, and there is
no pointer to an element that is not there. -/
def Kept (pool : Pool) (e : Event) (pool' : Pool) (pointer : Option ℕ) : Prop :=
  match e with
  | .add id elementCount elementSize _ => (∀ other, other ≠ id → pool'.view other = pool.view other) ∧
    (pointer ≠ none → pool'.view id =
      some ⟨elementSize.toNat, 0, List.replicate (elementSize.toNat * elementCount.toNat) 0⟩)
  | .remove id _ => ∀ other, other ≠ id → pool'.view other = pool.view other
  | .setCurrent id _ => ∀ other, other ≠ id → pool'.view other = pool.view other
  | .write id _ _ => ∀ other, other ≠ id → pool'.view other = pool.view other
  | .getIndexed id element =>
    ((pool.block id).offset = 0 ∨ (pool.block id).blockSize ≤ (pool.block id).elementSize * element.toNat) → pointer = none

/-- The numbers of a new block fit their fields, and an element that is asked for is there. -/
def Allowed (pool : Pool) : Event → Prop
  | .add id elementCount elementSize realloc =>
    (pool.block id).offset = 0 ∧ elementCount ≠ 0 ∧ elementSize ≠ 0 ∧ realloc.isSome →
      elementSize.toNat < 128 ∧ elementSize.toNat * elementCount.toNat < 512 ∧ dblkHdrSize + pool.sizeBlocks < 1024
  | .getIndexed id element =>
    (pool.block id).offset = 0 ∨ (pool.block id).elementSize * element.toNat < (pool.block id).blockSize
  | _ => True

/-! ### The blocks in the order of their offsets -/

/-- The blocks that exist, from the header on. -/
abbrev Layout := List (DataBlockId × Block)

/-- The octets of the blocks. -/
def contents (l : Layout) : List Octet := l.flatMap fun x => x.2.content

/-- A block whose numbers fit their fields: it consists of elements, and the current one is among them. -/
structure Block.Valid (b : Block) : Prop where
  elementSize : 0 < b.elementSize
  elements : b.elementSize ∣ b.content.length
  current : b.elementSize * b.currentElement < b.content.length
  size : b.content.length < 512

/-- The entry of a block behind others. -/
def infoOf (front : Layout) (b : Block) : DataBlockInfo :=
  ⟨b.content.length, b.elementSize, b.currentElement, dblkHdrSize + (contents front).length⟩

/-- **The invariant**: the pool is a list of blocks without a gap. -/
structure Laid (pool : Pool) (l : Layout) : Prop where
  nodup : (l.map Prod.fst).Nodup
  missing {id : DataBlockId} (h : id ∉ l.map Prod.fst) : pool.block id = .zero
  present {front back : Layout} {id : DataBlockId} {b : Block} (h : l = front ++ (id, b) :: back) :
    pool.block id = infoOf front b ∧ (infoOf front b).offset < 1024
  sizeBlocks : pool.sizeBlocks = (contents l).length
  data : ∃ slack, pool.data = contents l ++ slack
  valid {x : DataBlockId × Block} (h : x ∈ l) : x.2.Valid

theorem contents_append (l l' : Layout) : contents (l ++ l') = contents l ++ contents l' := flatMap_append

theorem contents_cons (x : DataBlockId × Block) (l : Layout) : contents (x :: l) = x.2.content ++ contents l :=
  flatMap_cons

theorem Block.Valid.pos {b : Block} (h : b.Valid) : 0 < b.content.length := Nat.lt_of_le_of_lt (Nat.zero_le _) h.current

/-- The current element is whole. -/
theorem whole_element {size length element : ℕ} (hdvd : size ∣ length) (hlt : size * element < length) :
    size * element + size ≤ length := by
  obtain ⟨count, rfl⟩ := hdvd
  have hle : element + 1 ≤ count := Nat.lt_of_mul_lt_mul_left hlt
  calc size * element + size = size * (element + 1) := (Nat.mul_succ size element).symm
    _ ≤ size * count := Nat.mul_le_mul_left size hle

theorem laid_blockInit : Laid blockInit [] where
  nodup := nodup_nil
  missing _ := rfl
  present h := absurd h.symm (append_ne_nil_of_right_ne_nil _ (cons_ne_nil _ _))
  sizeBlocks := rfl
  data := ⟨[], rfl⟩
  valid h := absurd h not_mem_nil

variable {elementCount elementSize : Octet}

section

variable {pool : Pool} {l front back : Layout} {id other : DataBlockId} {b : Block}

theorem exists_split (h : id ∈ l.map Prod.fst) : ∃ front b back, l = front ++ (id, b) :: back := by
  obtain ⟨⟨i, b⟩, hmem, rfl⟩ := mem_map.mp h
  obtain ⟨front, back, heq⟩ := append_of_mem hmem
  exact ⟨front, b, back, heq⟩

/-- A block is there, or its entry is cleared. -/
theorem Laid.split (hlaid : Laid pool l) (id : DataBlockId) :
    (id ∉ l.map Prod.fst ∧ pool.block id = .zero) ∨
      ∃ front b back, l = front ++ (id, b) :: back ∧ pool.block id = infoOf front b ∧ (infoOf front b).offset < 1024 ∧
        b.Valid := by
  by_cases hmem : id ∈ l.map Prod.fst
  · obtain ⟨front, b, back, rfl⟩ := exists_split hmem
    have hvalid := hlaid.valid (mem_append_right front mem_cons_self)
    exact .inr ⟨front, b, back, rfl, (hlaid.present rfl).1, (hlaid.present rfl).2, hvalid⟩
  · exact .inl ⟨hmem, hlaid.missing hmem⟩

theorem infoOf_offset (front : Layout) (b : Block) :
    (infoOf front b).offset = dblkHdrSize + (contents front).length := rfl

theorem offset_infoOf (front : Layout) (b : Block) : (infoOf front b).offset ≠ 0 := by
  change 20 + _ ≠ 0
  omega

/-- The octets of a block, and those behind it. -/
theorem Laid.split_data (hlaid : Laid pool (front ++ (id, b) :: back)) :
    ∃ slack, pool.data = contents front ++ (b.content ++ (contents back ++ slack)) := by
  obtain ⟨slack, hdata⟩ := hlaid.data
  rw [contents_append, contents_cons, append_assoc, append_assoc] at hdata
  exact ⟨slack, hdata⟩

theorem Laid.view_present (hlaid : Laid pool (front ++ (id, b) :: back)) : pool.view id = some b := by
  obtain ⟨slack, hdata⟩ := hlaid.split_data
  rw [Pool.view, (hlaid.present rfl).1, if_neg (offset_infoOf front b), hdata, infoOf]
  dsimp only
  rw [Nat.add_sub_cancel_left, readAt, drop_left, List.take_left]

theorem Laid.view_missing (hlaid : Laid pool l) (h : id ∉ l.map Prod.fst) : pool.view id = none := by
  rw [Pool.view, hlaid.missing h]
  rfl

/-- Two pools with the same block under an identifier. -/
theorem view_eq {pool' : Pool} {l' : Layout} (hlaid : Laid pool l) (hlaid' : Laid pool' l')
    (h : ∀ b, (id, b) ∈ l ↔ (id, b) ∈ l') : pool'.view id = pool.view id := by
  by_cases hmem : id ∈ l.map Prod.fst
  · obtain ⟨front, b, back, rfl⟩ := exists_split hmem
    obtain ⟨front', back', rfl⟩ := append_of_mem ((h b).mp (mem_append_right _ mem_cons_self))
    rw [hlaid.view_present, hlaid'.view_present]
  · have hmem' : id ∉ l'.map Prod.fst := by
      intro hmem'
      obtain ⟨⟨i, b⟩, hb, rfl⟩ := mem_map.mp hmem'
      exact hmem (mem_map.mpr ⟨_, (h b).mpr hb, rfl⟩)
    rw [hlaid.view_missing hmem, hlaid'.view_missing hmem']

/-! ### A laid pool is sound -/

variable {info : DataBlockInfo}

theorem elementPointer_eq {element : ℕ} (hoffset : info.offset ≠ 0)
    (hsmall : info.elementSize * element + info.offset < 65536) :
    elementPointer info element = some (info.offset + info.elementSize * element) := by
  rw [elementPointer, Nat.mod_eq_of_lt (by omega : info.elementSize * element < 65536), Nat.mod_eq_of_lt hsmall, if_pos (by omega),
    Nat.add_comm]

/-- Of two blocks one is behind the other. -/
theorem ordered {front' back' : Layout} {b' : Block} (h : front ++ (id, b) :: back = front' ++ (other, b') :: back')
    (hne : id ≠ other) :
    (infoOf front b).offset + b.content.length ≤ (infoOf front' b').offset ∨
      (infoOf front' b').offset + b'.content.length ≤ (infoOf front b).offset := by
  have hbehind {f f' k k' : Layout} {i j : DataBlockId} {c c' : Block} (hij : i ≠ j) {middle : Layout}
      (hf : f' = f ++ middle) (hk : (i, c) :: k = middle ++ (j, c') :: k') :
      (infoOf f c).offset + c.content.length ≤ (infoOf f' c').offset := by
    cases middle with
    | nil => exact absurd (congrArg Prod.fst (List.cons.inj hk).1) hij
    | cons x middle =>
      obtain rfl : (i, c) = x := (List.cons.inj hk).1
      rw [infoOf, infoOf, hf, contents_append, contents_cons, length_append, length_append]
      dsimp only
      omega
  rcases append_eq_append_iff.mp h with ⟨middle, hf, hk⟩ | ⟨middle, hf, hk⟩
  · exact .inl (hbehind hne hf hk)
  · exact .inr (hbehind hne.symm hf hk)

theorem mem_all (id : DataBlockId) : id ∈ DataBlockId.all := by
  cases id <;> decide

/-- The sizes of the entries are those of the blocks of the list. -/
theorem Laid.sum_eq (hlaid : Laid pool l) :
    (DataBlockId.all.map fun id => (pool.block id).blockSize).sum = (contents l).length := by
  have hsize : ∀ x ∈ l, (pool.block x.1).blockSize = x.2.content.length := by
    intro x hx
    obtain ⟨front, back, heq⟩ := append_of_mem hx
    rw [(hlaid.present heq).1]
    rfl
  have hperm : List.Perm DataBlockId.all (l.map Prod.fst ++ DataBlockId.all.filter fun id => id ∉ l.map Prod.fst) := by
    refine (perm_ext_iff_of_nodup (by decide) ?_).mpr fun id => ?_
    · refine hlaid.nodup.append (List.Nodup.filter _ (by decide)) ?_
      intro id hmem hfilter
      exact absurd hmem (by simpa using (mem_filter.mp hfilter).2)
    · by_cases hmem : id ∈ l.map Prod.fst
      · exact iff_of_true (mem_all id) (mem_append_left _ hmem)
      · exact iff_of_true (mem_all id)
          (mem_append_right _ (mem_filter.mpr ⟨mem_all id, by simpa using hmem⟩))
  have hzero : ∀ id ∈ DataBlockId.all.filter fun id => id ∉ l.map Prod.fst, (pool.block id).blockSize = 0 := by
    intro id hmem
    rw [hlaid.missing (by simpa using (mem_filter.mp hmem).2)]
    rfl
  have hfront : l.map ((fun id => (pool.block id).blockSize) ∘ Prod.fst) = l.map fun x => x.2.content.length :=
    map_congr_left hsize
  rw [(hperm.map _).sum_nat, map_append, sum_append, map_map, map_congr_left hzero, hfront, contents,
    length_flatMap]
  simp

theorem Laid.pointsInto (hlaid : Laid pool (front ++ (id, b) :: back)) :
    ∃ pointer, blockGetCurrent pool id = some pointer ∧ PointsInto (pool.block id) pointer := by
  obtain ⟨hinfo, hoffset⟩ := hlaid.present rfl
  have hvalid : b.Valid := hlaid.valid (mem_append_right front mem_cons_self)
  have hcurrent := hvalid.current
  have hsize := hvalid.size
  have hwhole := whole_element hvalid.elements hcurrent
  refine ⟨(infoOf front b).offset + b.elementSize * b.currentElement, ?_, ?_⟩
  · rw [blockGetCurrent, hinfo]
    refine elementPointer_eq (offset_infoOf front b) ?_
    change b.elementSize * b.currentElement + (infoOf front b).offset < 65536
    omega
  · rw [hinfo]
    refine ⟨Nat.le_add_right _ _, Nat.add_lt_add_left hcurrent _, ?_⟩
    change (infoOf front b).offset + _ + b.elementSize ≤ (infoOf front b).offset + b.content.length
    omega

theorem elementPointer_zero (element : ℕ) : elementPointer .zero element = none := by
  rw [elementPointer, DataBlockInfo.zero]
  simp

/-- The blocks of a laid pool are sound. -/
theorem Laid.sound (hlaid : Laid pool l) : Sound pool := by
  have hthere {id : DataBlockId} (hoffset : (pool.block id).offset ≠ 0) :
      ∃ front b back, l = front ++ (id, b) :: back ∧ pool.block id = infoOf front b := by
    rcases hlaid.split id with ⟨-, hzero⟩ | ⟨front, b, back, heq, hinfo, -⟩
    · rw [hzero] at hoffset
      exact absurd rfl hoffset
    · exact ⟨front, b, back, heq, hinfo⟩
  refine ⟨?_, ?_, ?_, ?_, ?_⟩
  · intro a a' ha ha' hne
    obtain ⟨front, b, back, heq, hinfo⟩ := hthere ha
    obtain ⟨front', b', back', heq', hinfo'⟩ := hthere ha'
    rw [hinfo, hinfo']
    exact ordered (heq.symm.trans heq') hne
  · intro a ha
    obtain ⟨front, b, back, rfl, hinfo⟩ := hthere ha
    obtain ⟨slack, hdata⟩ := hlaid.split_data
    rw [hinfo, hdata, length_append, length_append]
    refine ⟨Nat.le_add_right _ _, ?_⟩
    change dblkHdrSize + (contents front).length + b.content.length ≤ _
    omega
  · rw [hlaid.sizeBlocks, hlaid.sum_eq]
  · intro a ha
    obtain ⟨front, b, back, rfl, -⟩ := hthere ha
    exact hlaid.pointsInto
  · intro a ha element
    rcases hlaid.split a with ⟨-, hzero⟩ | ⟨front, b, back, -, hinfo, -⟩
    · rw [blockGetCurrent, blockGetIndexed, hzero]
      exact ⟨elementPointer_zero _, elementPointer_zero _⟩
    · rw [hinfo] at ha
      exact absurd ha (offset_infoOf front b)

/-! ### Blocks are added -/

theorem store_eq {data new : List Octet} {pos : ℕ} (h : pos + new.length ≤ data.length) :
    store data (dblkHdrSize + pos) new = .ok (writeAt data pos new) := by
  rw [store, if_pos (by omega), Nat.add_sub_cancel_left]

theorem length_resize (data : List Octet) (size : ℕ) (mem : ℕ → Octet) : (resize data size mem).length = size := by
  rw [resize, length_append, length_take, length_map, length_range]
  omega

/-- The octets that stay. -/
theorem take_resize {data : List Octet} {size n : ℕ} (hn : n ≤ size) (hdata : n ≤ data.length) (mem : ℕ → Octet) :
    (resize data size mem).take n = data.take n := by
  rw [resize, take_append_of_le_length (by rw [length_take]; omega), take_take, Nat.min_eq_left hn]

theorem Laid.take_data (hlaid : Laid pool l) : pool.data.take (contents l).length = contents l := by
  obtain ⟨slack, hdata⟩ := hlaid.data
  rw [hdata, List.take_left]

theorem Laid.length_le (hlaid : Laid pool l) : (contents l).length ≤ pool.data.length := by
  obtain ⟨slack, hdata⟩ := hlaid.data
  rw [hdata, length_append]
  omega

/-- An entry of two lists is in the first or in the second. -/
theorem split_append {p q : Layout} {x : DataBlockId × Block} (h : p ++ q = front ++ x :: back) :
    (∃ middle, p = front ++ x :: middle ∧ back = middle ++ q) ∨ ∃ middle, q = middle ++ x :: back ∧ front = p ++ middle := by
  rcases append_eq_append_iff.mp h with ⟨middle, hfront, hq⟩ | ⟨middle, hp, hback⟩
  · exact .inr ⟨middle, hq, hfront⟩
  · cases middle with
    | nil => exact .inr ⟨[], hback.symm, by rw [hp, append_nil, append_nil]⟩
    | cons y middle =>
      obtain ⟨rfl, hrest⟩ := List.cons.inj hback
      exact .inl ⟨middle, hp, hrest⟩

theorem split_singleton {x y : DataBlockId × Block} (h : [x] = front ++ y :: back) : front = [] ∧ y = x ∧ back = [] := by
  cases front with
  | nil => exact ⟨rfl, (List.cons.inj h).1.symm, (List.cons.inj h).2.symm⟩
  | cons z front => exact absurd (List.cons.inj h).2.symm (append_ne_nil_of_right_ne_nil _ (cons_ne_nil _ _))

/-- A new block is behind the others. -/
theorem Laid.add (hlaid : Laid pool l) (hid : id ∉ l.map Prod.fst)
    (hcount : elementCount ≠ 0) (hsize : elementSize ≠ 0) (hfits : elementSize.toNat < 128)
    (hblock : elementSize.toNat * elementCount.toNat < 512) (hoffset : dblkHdrSize + pool.sizeBlocks < 1024)
    (mem : ℕ → Octet) :
    ∃ pool', blockAdd pool id elementCount elementSize (some mem) = .ok (pool', some (dblkHdrSize + pool.sizeBlocks)) ∧
      Laid pool' (l ++ [(id, ⟨elementSize.toNat, 0, List.replicate (elementSize.toNat * elementCount.toNat) 0⟩)]) := by
  have hdata := hlaid.take_data
  have hlength := hlaid.length_le
  have hsizes := hlaid.sizeBlocks
  generalize hn : elementSize.toNat * elementCount.toNat = n at hblock ⊢
  have hpos : 0 < elementSize.toNat ∧ 0 < elementCount.toNat :=
    ⟨Nat.pos_of_ne_zero fun h => hsize (BitVec.eq_of_toNat_eq h),
      Nat.pos_of_ne_zero fun h => hcount (BitVec.eq_of_toNat_eq h)⟩
  have hnpos : 0 < n := hn ▸ Nat.mul_pos hpos.1 hpos.2
  have hzero : (pool.block id).offset = 0 := by rw [hlaid.missing hid]; rfl
  have hroom : dblkHdrSize + pool.sizeBlocks + n - dblkHdrSize = pool.sizeBlocks + n := by omega
  have hwritten := @Lib.writeAt_eq _ (resize pool.data (pool.sizeBlocks + n) mem) pool.sizeBlocks
    (List.replicate n (0 : Octet)) (by rw [length_resize, length_replicate])
  rw [take_resize (by omega) (by omega), hsizes, hdata, length_replicate,
    drop_eq_nil_of_le (by rw [length_resize]), append_nil, ← hsizes] at hwritten
  refine ⟨⟨pool.sizeBlocks + n, Function.update pool.block id ⟨n, elementSize.toNat, 0, dblkHdrSize + pool.sizeBlocks⟩,
    contents l ++ List.replicate n 0⟩, ?_, ?_⟩
  · rw [blockAdd, if_pos ⟨hzero, hcount, hsize⟩]
    dsimp only
    rw [hn, Nat.mod_eq_of_lt (by omega : n < 65536), Nat.mod_eq_of_lt (by omega : dblkHdrSize + pool.sizeBlocks < 65536), hroom,
      store_eq (by rw [length_resize, length_replicate]), hwritten, ok_bind,
      Nat.mod_eq_of_lt (by omega : pool.sizeBlocks + n < 65536), Nat.mod_eq_of_lt hblock, Nat.mod_eq_of_lt hfits,
      Nat.mod_eq_of_lt hoffset]
    rfl
  · have hcontents : contents (l ++ [(id, ⟨elementSize.toNat, 0, List.replicate n 0⟩)]) =
        contents l ++ List.replicate n 0 := by
      rw [contents_append, contents_cons]
      exact congrArg _ (append_nil _)
    refine ⟨?_, ?_, ?_, ?_, ⟨[], by rw [append_nil, hcontents]⟩, ?_⟩
    · rw [map_append]
      exact hlaid.nodup.append (nodup_singleton id) (by simpa using hid)
    · intro other hother
      rw [map_append, mem_append, not_or] at hother
      have hne : other ≠ id := fun h => hother.2 (mem_singleton.mpr h)
      change Function.update pool.block id _ other = _
      rw [update_of_ne hne, hlaid.missing hother.1]
    · intro front back other b heq
      rcases split_append heq with ⟨back', rfl, -⟩ | ⟨middle, hnew, hfront⟩
      · have hne : other ≠ id := by
          rintro rfl
          exact hid (mem_map.mpr ⟨_, mem_append_right _ mem_cons_self, rfl⟩)
        obtain ⟨hinfo, hlow⟩ := hlaid.present rfl
        exact ⟨(update_of_ne hne ..).trans hinfo, hlow⟩
      · obtain ⟨rfl, hx, -⟩ := split_singleton hnew
        obtain ⟨rfl, rfl⟩ := Prod.mk.inj hx
        rw [append_nil] at hfront
        rw [hfront]
        rw [hsizes] at hoffset ⊢
        refine ⟨(update_self ..).trans ?_, hoffset⟩
        rw [infoOf, length_replicate]
    · change pool.sizeBlocks + n = _
      rw [hcontents, length_append, length_replicate, hsizes]
    · intro x hx
      rcases mem_append.mp hx with hx | hx
      · exact hlaid.valid hx
      · obtain rfl := mem_singleton.mp hx
        refine ⟨hpos.1, ?_, ?_, ?_⟩
        · rw [length_replicate, ← hn]
          exact Nat.dvd_mul_right _ _
        · rw [length_replicate]
          exact hnpos
        · rw [length_replicate]
          exact hblock

/-! ### Blocks are removed -/

/-- The blocks end before the largest offset with the largest size. -/
theorem Laid.length_lt (hlaid : Laid pool l) : (contents l).length < 1536 := by
  rcases eq_nil_or_concat l with rfl | ⟨front, ⟨id, b⟩, rfl⟩
  · decide
  · rw [concat_eq_append] at hlaid ⊢
    obtain ⟨-, hoffset⟩ := hlaid.present rfl
    have hvalid : b.Valid := hlaid.valid (mem_append_right front mem_cons_self)
    have hsize := hvalid.size
    rw [infoOf_offset, dblkHdrSize] at hoffset
    rw [contents_append, contents_cons, length_append, length_append]
    change _ + (b.content.length + 0) < 1536
    omega

variable {c : Block}

/-- The identifier of a block is not that of another one. -/
theorem Laid.ne_of_front (hlaid : Laid pool (front ++ (id, b) :: back)) (h : (other, c) ∈ front) :
    other ≠ id := by
  rintro rfl
  have hnodup := hlaid.nodup
  rw [map_append, nodup_append] at hnodup
  exact hnodup.2.2 _ (mem_map.mpr ⟨_, h, rfl⟩) _ mem_cons_self rfl

theorem Laid.ne_of_back (hlaid : Laid pool (front ++ (id, b) :: back)) (h : (other, c) ∈ back) :
    other ≠ id := by
  rintro rfl
  have hnodup := hlaid.nodup
  rw [map_append, nodup_append, map_cons, nodup_cons] at hnodup
  exact hnodup.2.1.1 (mem_map.mpr ⟨_, h, rfl⟩)

theorem move_eq {data : List Octet} {dst src n : ℕ} (hdst : dst + n ≤ data.length) (hsrc : src + n ≤ data.length) :
    move data (dblkHdrSize + dst) (dblkHdrSize + src) n = .ok (moveWithin data dst src n) := by
  rw [move, if_pos (by omega), Nat.add_sub_cancel_left, Nat.add_sub_cancel_left, Int.toNat_natCast]

/-- The octets behind a block are moved over it, and those at the end are overwritten. -/
theorem removed_data {p q r slack data : List Octet} (hdata : data = p ++ (q ++ (r ++ slack))) :
    ∃ moved slack', move data (dblkHdrSize + p.length) (dblkHdrSize + p.length + q.length) r.length = .ok moved ∧
      store moved (p.length + r.length + dblkHdrSize) (List.replicate q.length 0xff) = .ok (p ++ r ++ slack') := by
  have hlength : data.length = p.length + (q.length + (r.length + slack.length)) := by
    rw [hdata]
    simp only [length_append]
  have hread : readAt data (p.length + q.length) r.length = r := by
    rw [readAt, hdata, ← drop_drop, drop_left, drop_left, List.take_left]
  have hmoved : moveWithin data p.length (p.length + q.length) r.length =
      p ++ r ++ data.drop (p.length + r.length) := by
    rw [moveWithin, hread, writeAt_eq (by omega)]
    congr 2
    rw [hdata, List.take_left]
  refine ⟨moveWithin data p.length (p.length + q.length) r.length,
    writeAt (data.drop (p.length + r.length)) 0 (List.replicate q.length 0xff), ?_, ?_⟩
  · rw [Nat.add_assoc]
    exact move_eq (by omega) (by omega)
  · have hcount : (p ++ r).length = p.length + r.length := length_append
    rw [Nat.add_comm _ dblkHdrSize, store_eq (by rw [moveWithin, length_writeAt, length_replicate]; omega), hmoved,
      ← hcount]
    exact congrArg _ (writeAt_append_right (p ++ r) _ 0 _)

/-- The entry of a block is lowered if it is behind the one that is removed. -/
theorem lowered_back {middle : Layout} (hlow : (infoOf (front ++ (id, b) :: middle) c).offset < 1024)
    (hpos : 0 < b.content.length) :
    lowered (infoOf front b) (infoOf (front ++ (id, b) :: middle) c) = infoOf (front ++ middle) c := by
  have hoffset : (infoOf (front ++ (id, b) :: middle) c).offset =
      (infoOf (front ++ middle) c).offset + b.content.length := by
    rw [infoOf_offset, infoOf_offset, contents_append, contents_append, contents_cons, length_append,
      length_append, length_append]
    dsimp only
    omega
  have hbehind : (infoOf front b).offset ≤ (infoOf (front ++ middle) c).offset := by
    rw [infoOf_offset, infoOf_offset, contents_append, length_append]
    omega
  rw [lowered, if_pos (by omega), hoffset]
  have hback : ((infoOf (front ++ middle) c).offset + b.content.length + 1024 - (infoOf front b).blockSize) % 1024 =
      (infoOf (front ++ middle) c).offset := by
    change (_ + b.content.length + 1024 - b.content.length) % 1024 = _
    omega
  rw [hback]
  rfl

theorem lowered_front (h : (infoOf front c).offset ≤ (infoOf back b).offset) :
    lowered (infoOf back b) (infoOf front c) = infoOf front c := if_neg (Nat.not_lt.mpr h)

theorem removed_self :
    Function.update (fun i => lowered info (pool.block i)) id .zero id = .zero :=
  update_self ..

/-- The entries when one is cleared and those behind it are lowered. -/
theorem removed_other (hne : other ≠ id) :
    Function.update (fun i => lowered info (pool.block i)) id .zero other = lowered info (pool.block other) :=
  update_of_ne hne ..

/-- What is left when a block is taken out of the list. -/
theorem Laid.without (hlaid : Laid pool (front ++ (id, b) :: back)) {slack : List Octet} :
    Laid ⟨(contents (front ++ back)).length,
      Function.update (fun i => lowered (infoOf front b) (pool.block i)) id .zero, contents (front ++ back) ++ slack⟩
      (front ++ back) where
  nodup := by
    refine hlaid.nodup.sublist (List.Sublist.map _ ?_)
    exact List.Sublist.append_left (sublist_cons_self _ _) _
  missing {other} h := by
    by_cases hne : other = id
    · subst hne
      exact removed_self
    · refine (removed_other hne).trans ?_
      rw [map_append, mem_append, not_or] at h
      have hmissing : other ∉ (front ++ (id, b) :: back).map Prod.fst := by
        rw [map_append, mem_append, map_cons, mem_cons]
        rintro (hmem | hmem | hmem)
        · exact h.1 hmem
        · exact hne hmem
        · exact h.2 hmem
      rw [hlaid.missing hmissing]
      exact if_neg (Nat.not_lt_zero _)
  present {front' back'} other c heq := by
    have hvalid : b.Valid := hlaid.valid (mem_append_right front mem_cons_self)
    rcases split_append heq with ⟨middle, rfl, rfl⟩ | ⟨middle, rfl, rfl⟩
    · obtain ⟨hinfo, hlow⟩ := hlaid.present (append_assoc _ _ _)
      have hne := hlaid.ne_of_front (mem_append_right front' mem_cons_self)
      refine ⟨(removed_other hne).trans ?_, hlow⟩
      rw [hinfo]
      refine lowered_front ?_
      rw [infoOf_offset, infoOf_offset, contents_append, length_append]
      omega
    · have heq' : front ++ (id, b) :: (middle ++ (other, c) :: back') =
          (front ++ (id, b) :: middle) ++ (other, c) :: back' := by
        rw [append_assoc, cons_append]
      obtain ⟨hinfo, hlow⟩ := hlaid.present heq'
      have hne := hlaid.ne_of_back (mem_append_right middle mem_cons_self)
      refine ⟨(removed_other hne).trans ?_, Nat.lt_of_le_of_lt ?_ hlow⟩
      · rw [hinfo]
        exact lowered_back hlow hvalid.pos
      · rw [infoOf_offset, infoOf_offset, contents_append, contents_append, contents_cons, length_append,
          length_append, length_append]
        omega
  sizeBlocks := rfl
  data := ⟨slack, rfl⟩
  valid {x} h := by
    rcases mem_append.mp h with h | h
    · exact hlaid.valid (mem_append_left _ h)
    · exact hlaid.valid (mem_append_right _ (mem_cons_of_mem _ h))

theorem Laid.remove (hlaid : Laid pool (front ++ (id, b) :: back)) (realloc : Option (ℕ → Octet)) :
    ∃ pool', blockRemove pool id realloc = .ok pool' ∧ Laid pool' (front ++ back) := by
  have hlength := hlaid.length_lt
  have hsize : pool.sizeBlocks = (contents front).length + b.content.length + (contents back).length := by
    rw [hlaid.sizeBlocks, contents_append, contents_cons, length_append, length_append, Nat.add_assoc]
  have hless : (pool.sizeBlocks + 65536 - (infoOf front b).blockSize) % 65536 = (contents (front ++ back)).length := by
    rw [← hlaid.sizeBlocks] at hlength
    rw [contents_append, length_append, infoOf]
    dsimp only
    omega
  have hcount : ((contents (front ++ back)).length : ℤ) - (infoOf front b).offset + dblkHdrSize =
      (contents back).length := by
    rw [contents_append, length_append, infoOf_offset]
    omega
  obtain ⟨slack, hdata⟩ := hlaid.split_data
  obtain ⟨moved, slack', hmove, hstore⟩ := removed_data hdata
  rw [← length_append, ← contents_append] at hstore
  change move pool.data (infoOf front b).offset ((infoOf front b).offset + (infoOf front b).blockSize) _ = _ at hmove
  change store moved _ (List.replicate (infoOf front b).blockSize 0xff) = _ at hstore
  -- the pool is as long as before, or as long as its blocks
  have hresized : ∃ slack'', reallocated (contents (front ++ back) ++ slack') (contents (front ++ back)).length realloc =
      contents (front ++ back) ++ slack'' := by
    cases realloc with
    | none => exact ⟨slack', rfl⟩
    | some mem => exact ⟨_, congrArg (· ++ _) List.take_left⟩
  obtain ⟨slack'', hresized⟩ := hresized
  refine ⟨_, ?_, @Laid.without _ _ _ _ _ hlaid slack''⟩
  rw [blockRemove]
  dsimp only
  rw [(hlaid.present rfl).1, if_pos (offset_infoOf front b), hless, hcount, hmove, ok_bind, hstore, ok_bind,
    hresized]
  rfl

/-! ### Blocks are changed in their place -/

/-- A block of the same size in the place of another. -/
theorem Laid.replace (hlaid : Laid pool (front ++ (id, b) :: back)) {b' : Block} (hvalid : b'.Valid)
    (hsize : b'.content.length = b.content.length) {slack : List Octet} :
    Laid ⟨pool.sizeBlocks, Function.update pool.block id (infoOf front b'),
      contents (front ++ (id, b') :: back) ++ slack⟩ (front ++ (id, b') :: back) := by
  have hkeys : (front ++ (id, b') :: back).map Prod.fst = (front ++ (id, b) :: back).map Prod.fst := by
    rw [map_append, map_append, map_cons, map_cons]
  have hlength (middle : Layout) : (contents (front ++ (id, b') :: middle)).length =
      (contents (front ++ (id, b) :: middle)).length := by
    rw [contents_append, contents_append, contents_cons, contents_cons, length_append, length_append,
      length_append, length_append, hsize]
  refine ⟨by rw [hkeys]; exact hlaid.nodup, ?_, ?_, ?_, ⟨slack, rfl⟩, ?_⟩
  · intro other hother
    rw [hkeys] at hother
    have hne : other ≠ id := by
      rintro rfl
      exact hother (mem_map.mpr ⟨_, mem_append_right _ mem_cons_self, rfl⟩)
    exact (update_of_ne hne ..).trans (hlaid.missing hother)
  · intro front' back' other c heq
    rcases split_append heq with ⟨middle, rfl, rfl⟩ | ⟨middle, htail, rfl⟩
    · obtain ⟨hinfo, hlow⟩ := hlaid.present (append_assoc _ _ _)
      have hne := hlaid.ne_of_front (mem_append_right front' mem_cons_self)
      exact ⟨(update_of_ne hne ..).trans hinfo, hlow⟩
    · cases middle with
      | nil =>
        obtain ⟨hx, -⟩ := List.cons.inj htail
        obtain ⟨rfl, rfl⟩ := Prod.mk.inj hx
        rw [append_nil]
        exact ⟨update_self .., (hlaid.present rfl).2⟩
      | cons y middle =>
        obtain ⟨rfl, rfl⟩ := List.cons.inj htail
        have heq' : front ++ (id, b) :: (middle ++ (other, c) :: back') =
            (front ++ (id, b) :: middle) ++ (other, c) :: back' := by
          rw [append_assoc, cons_append]
        obtain ⟨hinfo, hlow⟩ := hlaid.present heq'
        have hne := hlaid.ne_of_back (mem_append_right middle mem_cons_self)
        have hsame : infoOf (front ++ (id, b') :: middle) c = infoOf (front ++ (id, b) :: middle) c := by
          rw [infoOf, infoOf, hlength]
        rw [hsame]
        exact ⟨(update_of_ne hne ..).trans hinfo, hlow⟩
  · exact hlaid.sizeBlocks.trans (hlength back).symm
  · intro x hx
    rcases mem_append.mp hx with hx | hx
    · exact hlaid.valid (mem_append_left _ hx)
    · rcases mem_cons.mp hx with rfl | hx
      · exact hvalid
      · exact hlaid.valid (mem_append_right _ (mem_cons_of_mem _ hx))

/-- The current element is one that is there. -/
theorem Laid.setCurrent (hlaid : Laid pool (front ++ (id, b) :: back)) (element : Octet) :
    ∃ b', Laid (blockSetCurrent pool id element).1 (front ++ (id, b') :: back) := by
  have hvalid : b.Valid := hlaid.valid (mem_append_right front mem_cons_self)
  obtain ⟨hinfo, -⟩ := hlaid.present rfl
  rw [blockSetCurrent, hinfo]
  dsimp only
  generalize indexOf (infoOf front b) element = index
  by_cases hindex : (infoOf front b).elementSize * index < (infoOf front b).blockSize
  · rw [if_pos hindex]
    obtain ⟨slack, hdata⟩ := hlaid.data
    refine ⟨{ b with currentElement := index % 64 }, ?_⟩
    have hcurrent : b.elementSize * (index % 64) < b.content.length :=
      Nat.lt_of_le_of_lt (Nat.mul_le_mul_left _ (Nat.mod_le _ _)) hindex
    have hreplaced := @Laid.replace _ _ _ _ _ hlaid { b with currentElement := index % 64 }
      ⟨hvalid.elementSize, hvalid.elements, hcurrent, hvalid.size⟩ rfl slack
    have hcontents : contents (front ++ (id, { b with currentElement := index % 64 }) :: back) ++ slack = pool.data := by
      rw [hdata, contents_append, contents_append, contents_cons, contents_cons]
    rw [hcontents] at hreplaced
    exact hreplaced
  · rw [if_neg hindex]
    exact ⟨b, hlaid⟩

/-- The application writes to an element of a block. -/
theorem Laid.write (hlaid : Laid pool (front ++ (id, b) :: back)) (element : ℕ) (value : List Octet) :
    ∃ pool' b', elementWrite pool id element value = .ok pool' ∧ Laid pool' (front ++ (id, b') :: back) := by
  have hvalid : b.Valid := hlaid.valid (mem_append_right front mem_cons_self)
  obtain ⟨hinfo, -⟩ := hlaid.present rfl
  rw [elementWrite, hinfo]
  by_cases hthere : (infoOf front b).offset ≠ 0 ∧ value.length ≤ (infoOf front b).elementSize ∧
      (infoOf front b).elementSize * (element + 1) ≤ (infoOf front b).blockSize
  · rw [if_pos hthere]
    obtain ⟨slack, hdata⟩ := hlaid.split_data
    obtain ⟨-, hvalue, helement⟩ := hthere
    change value.length ≤ b.elementSize at hvalue
    change b.elementSize * (element + 1) ≤ b.content.length at helement
    rw [Nat.mul_succ] at helement
    have hlength : pool.data.length = (contents front).length + (b.content.length + (contents back ++ slack).length) := by
      rw [hdata, length_append, length_append]
    have hstored : writeAt pool.data ((contents front).length + b.elementSize * element) value =
        contents front ++ (writeAt b.content (b.elementSize * element) value ++ (contents back ++ slack)) := by
      rw [hdata, writeAt_append_right, writeAt_append_left (by omega)]
    refine ⟨{ pool with data := writeAt pool.data ((contents front).length + b.elementSize * element) value },
      { b with content := writeAt b.content (b.elementSize * element) value }, ?_, ?_⟩
    · rw [infoOf_offset, Nat.add_assoc]
      change (store pool.data (dblkHdrSize + ((contents front).length + b.elementSize * element)) value >>= _) = _
      rw [store_eq (by omega), ok_bind]
      rfl
    · have hlength' := length_writeAt b.content (b.elementSize * element) value
      have hreplaced := @Laid.replace _ _ _ _ _ hlaid { b with content := writeAt b.content (b.elementSize * element) value }
        ⟨hvalid.elementSize, by rw [hlength']; exact hvalid.elements, by rw [hlength']; exact hvalid.current,
          by rw [hlength']; exact hvalid.size⟩ hlength' slack
      have hsame : Function.update pool.block id
          (infoOf front { b with content := writeAt b.content (b.elementSize * element) value }) = pool.block := by
        rw [infoOf, hlength']
        exact update_eq_self_iff.mpr hinfo.symm
      rw [hsame, contents_append, contents_cons, append_assoc, append_assoc, ← hstored] at hreplaced
      exact hreplaced
  · rw [if_neg hthere]
    exact ⟨pool, b, rfl, hlaid⟩

end

/-! ### The result -/

section

variable {pool : Pool} {l : Layout}

/-- An entry that is there, or that is not, in a list without one of its blocks. -/
theorem mem_without {front back : Layout} {id other : DataBlockId} {b b' : Block} (hne : other ≠ id) :
    (other, b') ∈ front ++ (id, b) :: back ↔ (other, b') ∈ front ++ back := by
  have hhead : (other, b') ≠ (id, b) := fun h => hne (congrArg Prod.fst h)
  simp [hhead]

theorem Laid.step_add (hlaid : Laid pool l) {id : DataBlockId}
    {realloc : Option (ℕ → Octet)} (hallowed : Allowed pool (.add id elementCount elementSize realloc)) :
    ∃ pool' pointer l', exec pool (.add id elementCount elementSize realloc) = .ok (pool', pointer) ∧ Laid pool' l' ∧
      Kept pool (.add id elementCount elementSize realloc) pool' pointer := by
  by_cases hasked : (pool.block id).offset = 0 ∧ elementCount ≠ 0 ∧ elementSize ≠ 0
  · cases realloc with
    | none =>
      refine ⟨pool, none, l, ?_, hlaid, fun _ _ => rfl, fun h => absurd rfl h⟩
      rw [exec, blockAdd, if_pos hasked]
      rfl
    | some mem =>
      obtain ⟨hzero, hcount, hsize⟩ := hasked
      obtain ⟨hfits, hblock, hoffset⟩ := hallowed ⟨hzero, hcount, hsize, rfl⟩
      have hid : id ∉ l.map Prod.fst := by
        intro hmem
        obtain ⟨front, b, back, rfl⟩ := exists_split hmem
        rw [(hlaid.present rfl).1] at hzero
        exact offset_infoOf front b hzero
      obtain ⟨pool', hadd, hlaid'⟩ := hlaid.add hid hcount hsize hfits hblock hoffset mem
      refine ⟨pool', _, _, hadd, hlaid', fun other hne => view_eq hlaid hlaid' fun b => ?_, fun _ => hlaid'.view_present⟩
      have hhead : (other, b) ≠ (id, ⟨elementSize.toNat, 0, List.replicate (elementSize.toNat * elementCount.toNat) 0⟩) :=
        fun h => hne (congrArg Prod.fst h)
      rw [mem_append, mem_singleton, or_iff_left hhead]
  · refine ⟨pool, none, l, ?_, hlaid, fun _ _ => rfl, fun h => absurd rfl h⟩
    rw [exec, blockAdd, if_neg hasked]
    rfl

theorem Laid.step_remove (hlaid : Laid pool l) (id : DataBlockId) (realloc : Option (ℕ → Octet)) :
    ∃ pool' pointer l', exec pool (.remove id realloc) = .ok (pool', pointer) ∧ Laid pool' l' ∧
      Kept pool (.remove id realloc) pool' pointer := by
  rcases hlaid.split id with ⟨-, hzero⟩ | ⟨front, b, back, rfl, -⟩
  · refine ⟨pool, none, l, ?_, hlaid, fun _ _ => rfl⟩
    rw [exec, blockRemove, hzero]
    rfl
  · obtain ⟨pool', hremove, hlaid'⟩ := hlaid.remove realloc
    refine ⟨pool', none, _, ?_, hlaid', fun other hne => view_eq hlaid hlaid' fun b' => mem_without hne⟩
    rw [exec, hremove]
    rfl

theorem Laid.step_setCurrent (hlaid : Laid pool l) (id : DataBlockId) (element : Octet) :
    ∃ pool' pointer l', exec pool (.setCurrent id element) = .ok (pool', pointer) ∧ Laid pool' l' ∧
      Kept pool (.setCurrent id element) pool' pointer := by
  rcases hlaid.split id with ⟨-, hzero⟩ | ⟨front, b, back, rfl, -⟩
  · have hsame : blockSetCurrent pool id element = (pool, none) := by
      rw [blockSetCurrent, hzero]
      exact if_neg (Nat.not_lt_zero _)
    refine ⟨pool, none, l, ?_, hlaid, fun _ _ => rfl⟩
    rw [exec, hsame]
    rfl
  · obtain ⟨b', hlaid'⟩ := hlaid.setCurrent element
    refine ⟨_, (blockSetCurrent pool id element).2, _, rfl, hlaid', fun other hne => view_eq hlaid hlaid' fun c => ?_⟩
    rw [mem_without hne, mem_without hne]

theorem Laid.step_write (hlaid : Laid pool l) (id : DataBlockId) (element : ℕ) (value : List Octet) :
    ∃ pool' pointer l', exec pool (.write id element value) = .ok (pool', pointer) ∧ Laid pool' l' ∧
      Kept pool (.write id element value) pool' pointer := by
  rcases hlaid.split id with ⟨-, hzero⟩ | ⟨front, b, back, rfl, -⟩
  · refine ⟨pool, none, l, ?_, hlaid, fun _ _ => rfl⟩
    rw [exec, elementWrite, hzero]
    rfl
  · obtain ⟨pool', b', hwrite, hlaid'⟩ := hlaid.write element value
    refine ⟨pool', none, _, ?_, hlaid', fun other hne => view_eq hlaid hlaid' fun c => ?_⟩
    · rw [exec, hwrite]
      rfl
    · rw [mem_without hne, mem_without hne]

theorem Laid.step_getIndexed (hlaid : Laid pool l) {id : DataBlockId} {element : Octet}
    (hallowed : Allowed pool (.getIndexed id element)) :
    ∃ pool' pointer l', exec pool (.getIndexed id element) = .ok (pool', pointer) ∧ Laid pool' l' ∧
      Kept pool (.getIndexed id element) pool' pointer := by
  refine ⟨pool, blockGetIndexed pool id element, l, rfl, hlaid, fun hmissing => ?_⟩
  rcases hmissing with hzero | hbehind
  · exact (hlaid.sound.missing hzero element).2
  · rcases hallowed with hzero | hthere
    · exact (hlaid.sound.missing hzero element).2
    · exact absurd hbehind (Nat.not_le.mpr hthere)

/-- One step that is allowed. -/
theorem Laid.exec (hlaid : Laid pool l) {e : Event} (hallowed : Allowed pool e) :
    ∃ pool' pointer l', exec pool e = .ok (pool', pointer) ∧ Laid pool' l' ∧ Kept pool e pool' pointer := by
  cases e with
  | add => exact hlaid.step_add hallowed
  | remove id realloc => exact hlaid.step_remove id realloc
  | setCurrent id element => exact hlaid.step_setCurrent id element
  | write id element value => exact hlaid.step_write id element value
  | getIndexed => exact hlaid.step_getIndexed hallowed

theorem laid_step {e : Event} {pool' : Pool} (hlaid : ∃ l, Laid pool l) (hallowed : Allowed pool e)
    (hstep : step pool e = some pool') : ∃ l, Laid pool' l := by
  obtain ⟨l, hlaid⟩ := hlaid
  obtain ⟨next, pointer, l', hexec, hlaid', -⟩ := hlaid.exec hallowed
  rw [step, hexec] at hstep
  exact ⟨l', Option.some.inj hstep ▸ hlaid'⟩

/-- In every run whose steps are allowed the pool stays sound, and the next step that is allowed stays in the pool and
keeps the other blocks. -/
theorem pool_kept {es : List Event} (hallowed : Lib.RunMeets step Allowed blockInit es)
    (hrun : Lib.run step blockInit es = some pool) :
    Sound pool ∧ ∀ e, Allowed pool e →
      ∃ pool' pointer, exec pool e = .ok (pool', pointer) ∧ Sound pool' ∧ Kept pool e pool' pointer := by
  obtain ⟨l, hlaid⟩ := run_invariant (I := fun pool => ∃ l, Laid pool l) (fun _ _ _ => laid_step) ⟨[], laid_blockInit⟩
    hallowed hrun
  refine ⟨hlaid.sound, fun e he => ?_⟩
  obtain ⟨pool', pointer, l', hexec, hlaid', hkept⟩ := hlaid.exec he
  exact ⟨pool', pointer, hexec, hlaid'.sound, hkept⟩

/-- Two blocks are added, and the first one is removed. -/
theorem pool_kept_removed : ∃ pool,
    Lib.run step blockInit [.add .sepList 2 3 (some fun _ => 7), .add .configuredServiceCaps 5 1 (some fun _ => 7),
      .remove .sepList none] = some pool ∧ Sound pool ∧ ∀ e, Allowed pool e →
      ∃ pool' pointer, exec pool e = .ok (pool', pointer) ∧ Sound pool' ∧ Kept pool e pool' pointer := by
  refine ⟨_, rfl, ?_⟩
  refine @pool_kept _ [.add .sepList 2 3 (some fun _ => 7), .add .configuredServiceCaps 5 1 (some fun _ => 7),
    .remove .sepList none] ⟨?_, fun s hs => ⟨?_, fun t ht => ⟨trivial, fun _ _ => trivial⟩⟩⟩ rfl
  · exact fun _ => by decide
  · obtain rfl := Option.some.inj hs
    exact fun _ => by decide

/-- The blocks of a device have less than 64 KiB. -/
def Below (pool : Pool) : Event → Prop
  | .add _ elementCount elementSize _ => dblkHdrSize + pool.sizeBlocks + elementSize.toNat * elementCount.toNat < 65536
  | _ => True

/-- Every run of less than 64 KiB keeps the promises. -/
def PoolAlwaysKept : Prop :=
  ∀ (es : List Event) (pool : Pool), RunMeets step Below blockInit es → Lib.run step blockInit es = some pool →
    Sound pool ∧ ∀ e, Below pool e →
      ∃ pool' pointer, exec pool e = .ok (pool', pointer) ∧ Sound pool' ∧ Kept pool e pool' pointer

/-- The element behind the only one of a block. -/
theorem not_poolAlwaysKept : ¬ PoolAlwaysKept := by
  intro halways
  obtain ⟨-, hkept⟩ := halways [.add .sepList 1 1 (some fun _ => 0)] _ ⟨Nat.lt_of_sub_pos (by decide), fun _ _ => trivial⟩ rfl
  obtain ⟨pool', pointer, hexec, -, hnone⟩ := hkept (.getIndexed .sepList 1) trivial
  obtain ⟨-, rfl⟩ := Prod.mk.inj (Except.ok.inj hexec)
  exact absurd (hnone (.inr (by decide))) (by decide)

end

end Cbps.A2dp.DataBlocks
