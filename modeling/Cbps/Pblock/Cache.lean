import Mathlib.Algebra.Ring.Nat
import Mathlib.Data.List.Basic
import Cbps.Lib.Runs

/-!
# The keyed block

A block of entries, each a header word with id and size and after it the data, kept in a cache that is read from and
written to persistent storage. The library counts words and was written for a machine whose memory counts words too.
Here memory counts octets, so `malloc`, `realloc` and `memmove` take its numbers for octets, and the end of the entries
is computed with a pointer to pointers. The cache is numbered by words from the field `cache` on. A pointer takes
`pointer` words.
-/

namespace Cbps.Pblock

/-! ### Entries -/

/-- The two fields of a header, eight bits each. -/
def idOf (w : ℕ) : ℕ := w % 2 ^ 8

def sizeOf (w : ℕ) : ℕ := w / 2 ^ 8 % 2 ^ 8

/-- An entry that can be set: its data are words, one to 255 of them. -/
structure Entry where
  id : ℕ
  data : List ℕ
  id_lt : id < 2 ^ 8
  pos : 0 < data.length
  length_le : data.length ≤ 255
  words : ∀ w ∈ data, w < 2 ^ 16

/-- The header of an entry. -/
def Entry.header (e : Entry) : ℕ := e.id + 2 ^ 8 * e.data.length

/-! ### The block -/

/-- Contents of memory, from the field `cache` on. -/
abbrev Words := ℕ → ℕ

/-- `pblock_key` with its allocation: `room` is the number of octets from the field `cache` on. -/
structure Block where
  key : ℕ
  len : ℕ
  curLen : ℕ
  room : ℕ
  words : Words

/-- The places of the entries from `i` on, up to `last`, as `for_all_entries` goes. -/
def places (words : Words) (last : ℕ) : ℕ → ℕ → List ℕ
  | 0, _ => []
  | fuel + 1, i => if i < last then i :: places words last fuel (i + sizeOf (words i) + 1) else []

variable (pointer : ℕ)

namespace Block

/-- `PBLOCK_END`. -/
def last (b : Block) : ℕ := pointer * b.curLen

/-- All places. Each step goes on by a word at least. -/
def walk (b : Block) : List ℕ := places b.words (b.last pointer) (b.last pointer) 0

/-- `PblockGet`: the place of the entry found. -/
def pblockGet (b : Block) (id : ℕ) : Option ℕ := (b.walk pointer).find? fun i => idOf (b.words i) = id

/-- The words that `PblockGet` reads. -/
def visited (b : Block) (id : ℕ) : List ℕ :=
  (b.walk pointer).takeWhile (fun i => idOf (b.words i) ≠ id) ++ (b.pblockGet pointer id).toList

/-- The first `n` words from `i` on lie in the block. -/
def Inside (b : Block) (i octets : ℕ) : Prop := 2 * i + octets ≤ b.room

instance (b : Block) (i octets : ℕ) : Decidable (b.Inside i octets) := inferInstanceAs (Decidable (_ ≤ _))

/-- What the caller of `PblockGet` reads. An entry without words is the empty one. -/
def read (b : Block) (id : ℕ) : Option (List ℕ) :=
  match b.pblockGet pointer id with
  | none => none
  | some i =>
    if sizeOf (b.words i) = 0 then none
    else some ((List.range (sizeOf (b.words i))).map fun j => b.words (i + 1 + j))

end Block

/-- `memmove` of octets to the place `start`. The last one may be the low half of a word. -/
def memmove (words : Words) (start : ℕ) (data : List ℕ) (octets : ℕ) : Words := fun i =>
  let j := i - start
  if start ≤ i ∧ 2 * j + 2 ≤ octets then data.getD j 0
  else if start ≤ i ∧ 2 * j + 1 = octets then words i / 2 ^ 8 * 2 ^ 8 + data.getD j 0 % 2 ^ 8
  else words i

/-- What `realloc` does. New memory holds `fresh`. -/
inductive Realloc
  | fails
  | inPlace (fresh : Words)
  | moves (fresh : Words)

/-- The contents after `realloc`: `octets` of the old ones are kept. -/
def kept (old fresh : Words) (octets : ℕ) : Words := fun i =>
  if 2 * i + 2 ≤ octets then old i
  else if 2 * i + 1 = octets then fresh i / 2 ^ 8 * 2 ^ 8 + old i % 2 ^ 8
  else fresh i

namespace Block

/-- The block after `realloc`, of the size that `pblockAddEntry` asks for. -/
def resized (b : Block) (len : ℕ) (fresh : Words) : Block :=
  let room := 2 * pointer + b.curLen + len + 1
  { b with room := room, words := kept b.words fresh (min b.room room) }

/-- The new header, and the length with it. -/
def append (b : Block) (e : Entry) : Block :=
  { b with
    words := Function.update b.words (b.last pointer) e.header
    curLen := (b.curLen + e.data.length + 1) % 2 ^ 8 }

/-- The memory for an entry has run out: more is asked for and not given. -/
def RunsOut (b : Block) (e : Entry) (r : Realloc) : Prop :=
  b.len < b.curLen + e.data.length + 1 ∧ match r with
    | .fails => True
    | _ => False

instance (b : Block) (e : Entry) (r : Realloc) : Decidable (b.RunsOut e r) := by
  rcases r with ⟨⟩ <;> dsimp only [RunsOut] <;> infer_instance

/-- `pblockAddEntry`: the block with the header, and whether the header was written into it. The entry's place is taken
before `realloc`, which may move the block. -/
def pblockAddEntry (b : Block) (e : Entry) (r : Realloc) : Option (Block × Bool) :=
  if b.len < b.curLen + e.data.length + 1 then
    match r with
    | .fails => none
    | .inPlace fresh => some ((b.resized pointer e.data.length fresh).append pointer e, true)
    | .moves fresh =>
      let b' := b.resized pointer e.data.length fresh
      some ({ b' with curLen := (b'.curLen + e.data.length + 1) % 2 ^ 8 }, false)
  else some (b.append pointer e, true)

/-- The data of an entry at `i`. -/
def store (b : Block) (i : ℕ) (data : List ℕ) : Block :=
  { b with words := memmove b.words (i + 1) data data.length }

end Block

/-- `PsRetrieve`: the number of words it returns, and the memory. Asked for no words, it returns how many there are. A
value that does not fit is not given. -/
def psRetrieve (value : List ℕ) (buff : Words) (words : ℕ) : ℕ × Words :=
  if words = 0 then (value.length, buff)
  else if value.length ≤ words then (value.length, fun i => if i < value.length then value.getD i 0 else buff i)
  else (0, buff)

/-! ### The library -/

/-- The block, the persistent storage, and what is recorded of the run: whether a word outside the block was touched, the
entries that were set, and those that were stored under each key. -/
structure Library where
  pblock : Option Block
  ps : ℕ → List ℕ
  strayed : Bool
  entries : ℕ → Option (List ℕ)
  stored : ℕ → ℕ → Option (List ℕ)

inductive Event
  | init (key len : ℕ) (memory : Words)
  | set (e : Entry) (r : Realloc)
  | store

/-- What the entries become, with `ranOut` if there was no memory for a new one. -/
def setEntry (entries : ℕ → Option (List ℕ)) (e : Entry) (ranOut : Bool) : ℕ → Option (List ℕ) :=
  match entries e.id with
  | none => if ranOut then entries else Function.update entries e.id (some e.data)
  | some old => if old.length = e.data.length then Function.update entries e.id (some e.data) else entries

namespace Library

/-- A call that touches the block, where `ok` says that it stays inside. -/
def touch (l : Library) (ok : Bool) : Library := { l with strayed := l.strayed || !ok }

/-- `PblockInit`. -/
def pblockInit (l : Library) (key len : ℕ) (memory : Words) : Library :=
  let bufLen := (psRetrieve (l.ps key) memory 0).1
  let length := (len + bufLen) % 2 ^ 8
  let room := 2 * pointer + bufLen + len
  let l := { l with entries := l.stored key }
  if bufLen ≠ 0 then
    let (curLen, words) := psRetrieve (l.ps key) memory length
    let l := { l with pblock := some ⟨key, length, curLen % 2 ^ 8, room, words⟩ }
    l.touch (decide (0 < length → bufLen ≤ length → 2 * bufLen ≤ room))
  else { l with pblock := some ⟨key, length, 0, room, memory⟩ }

/-- `PblockSet`. -/
def pblockSet (l : Library) (e : Entry) (r : Realloc) : Library :=
  match l.pblock with
  -- `PBLOCK_END` is read through the null pointer
  | none => { l with strayed := true }
  | some b =>
    let l := l.touch (decide (∀ i ∈ b.visited pointer e.id, b.Inside i 2))
    let found := (b.pblockGet pointer e.id).filter fun i => sizeOf (b.words i) ≠ 0
    match found with
    | some i =>
      let l := { l with entries := setEntry l.entries e false }
      if sizeOf (b.words i) = e.data.length then
        { l with pblock := some (b.store i e.data) }.touch (decide (b.Inside (i + 1) e.data.length))
      else l
    | none =>
      let l := { l with entries := setEntry l.entries e (decide (b.RunsOut e r)) }
      match b.pblockAddEntry pointer e r with
      | none => l
      | some (b', true) =>
        { l with pblock := some (b'.store (b.last pointer) e.data) }.touch
          (decide (b'.Inside (b.last pointer) (2 + e.data.length)))
      | some (b', false) => { l with pblock := some b' }.touch false

/-- `PblockStore`. -/
def pblockStore (l : Library) (b : Block) : Library :=
  { l with
    ps := Function.update l.ps b.key ((List.range b.curLen).map b.words)
    stored := Function.update l.stored b.key l.entries }

def step (l : Library) : Event → Option Library
  | .init key len memory => some (l.pblockInit pointer key len memory)
  | .set e r => some (l.pblockSet pointer e r)
  | .store => l.pblock.map l.pblockStore

/-- Nothing is stored. -/
def initial : Library where
  pblock := none
  ps _ := []
  strayed := false
  entries _ := none
  stored _ _ := none

end Library

end Cbps.Pblock
