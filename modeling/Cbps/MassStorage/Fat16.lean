import Cbps.MassStorage.Disk
import Cbps.Lib.Sink
import Cbps.Lib.Loop

/-!
# Reads from the FAT16 file system

The code of `Fat16_Read` and `read_sectors`. An area of the disk is a source of octets that can only be read forwards:
it is opened when there is none or when the read begins before its position, and kept over the calls otherwise. The
firmware is a parameter: what `SourceSize` reports when some octets are left, and the sink space at each wait. A wait
belongs to the sector that is due, and no sector is due twice in a call, so a function of the sector gives the space at
each of them. `Fault` is what the code must not do, and the bound on the turns of its loops.
-/

namespace Cbps.MassStorage

open Cbps.Lib

def u16 (n : ℕ) : ℕ := n % 2 ^ 16

def u32 (n : ℕ) : ℕ := n % 2 ^ 32

def u32Sub (a b : ℕ) : ℕ := (a + 2 ^ 32 - b) % 2 ^ 32

/-- What the firmware does: what `SourceSize` gives when so many octets are left, and what claimed octets hold before
they are written. -/
structure Firmware where
  sourceSize : ℕ → ℕ
  unwritten : Octet

/-- `SourceSize` gives the octets left, as far as its 16 bits can. -/
structure Firmware.Sizes (fw : Firmware) : Prop where
  exact : ∀ n < 2 ^ 16, fw.sourceSize n = n
  le : ∀ n, fw.sourceSize n ≤ n
  fits : ∀ n, fw.sourceSize n < 2 ^ 16

inductive Fault
  | outOfTurns
  | overread
  deriving DecidableEq, Repr

/-! ### Areas and their sources -/

/-- `FileInfoType`: `content` is what `params` points at or the file `index` holds, and `src` the octets left in the
source. -/
structure FileInfo where
  content : List Octet
  inMemory : Bool
  currentStartSector : ℕ
  src : Option (List Octet)
  endSector : ℕ
  deriving DecidableEq, Repr

def FileInfo.size (f : FileInfo) : ℕ := f.content.length

/-- `StreamRegionSource`, whose length is a `u16`. There is no source of length zero. -/
def streamRegionSource (params : List Octet) (length : ℕ) : Option (List Octet) :=
  if length = 0 then none else some (params.take length)

/-- Open the source of an area at its beginning. -/
def FileInfo.openSource (f : FileInfo) : FileInfo :=
  { f with
    src := if f.inMemory then streamRegionSource f.content (u16 f.size) else some f.content
    currentStartSector := 0 }

def FileInfo.setEndSector (f : FileInfo) (n : ℕ) : FileInfo := { f with endSector := n }

/-- The octets left. -/
def FileInfo.left (f : FileInfo) : List Octet := f.src.getD []

/-- `SourceDrop`. -/
def FileInfo.drop (f : FileInfo) (n : ℕ) : FileInfo := { f with src := f.src.map (List.drop n) }

/-- The sectors that octets of a source take up. -/
def blocksIn (sourceSize : ℕ) : ℕ :=
  if sourceSize % bytesPerSector = 0 then sourceSize / bytesPerSector else sourceSize / bytesPerSector + 1

/-! ### The sectors of an area -/

section

variable (fw : Firmware) (slack : ℕ → ℕ)

/-- One turn of the seek. -/
def seekTurn (startSector endSector : ℕ) (f : FileInfo) : Except Fault (Option FileInfo) :=
  if startSector > f.currentStartSector ∧ f.currentStartSector < endSector then
    .ok (some { f.drop bytesPerSector with currentStartSector := u32 (f.currentStartSector + 1) })
  else .ok none

/-- What the sending loop changes: the area, the sectors sent, and the sink. -/
structure Transfer where
  file : FileInfo
  i : ℕ
  sink : Sink Octet
  deriving DecidableEq, Repr

/-- Claim room for sectors, clear what the data does not fill, copy the data and flush. -/
def sendBlocks (fw : Firmware) (sink : Sink Octet) (data : List Octet) (bytesToRead : ℕ) : Sink Octet :=
  let buffer := sink.claimed.length
  let sink := sink.claim fw.unwritten bytesToRead
  let sink :=
    if data.length < bytesToRead then sink.store (buffer + data.length) (zeros (bytesToRead - data.length)) else sink
  (sink.store buffer data).flush bytesToRead

/-- One turn of the sending loop. The wait is for the sector `logicalAddress + i`. -/
def sendTurn (logicalAddress startSector endSector : ℕ) (t : Transfer) : Except Fault (Option Transfer) :=
  if t.i ≤ u32Sub endSector startSector then
    let sinkSlack := slack (logicalAddress + t.i)
    let sourceSize := fw.sourceSize t.file.left.length
    let blocksInSink := sinkSlack / bytesPerSector
    let blocksInSource := blocksIn sourceSize
    let blocksToRead := if blocksInSink > blocksInSource then blocksInSource else blocksInSink
    -- the bound is counted from the first sector of the area, `i` from the first sector of the read
    let blocksToRead :=
      if blocksToRead > u32 (u32Sub endSector t.i + 1) then u16 (u32 (u32Sub endSector t.i + 1)) else blocksToRead
    let bytesToRead := blocksToRead * bytesPerSector
    let remainingBytes := u32Sub t.file.size (u32 (t.file.currentStartSector * bytesPerSector))
    if blocksToRead = 0 then .ok none
    else
      let bytesToCopy := u16 (if remainingBytes < bytesToRead then remainingBytes else bytesToRead)
      if t.file.left.length < bytesToCopy then .error .overread
      else
        .ok (some
          { file :=
              { t.file.drop bytesToCopy with
                currentStartSector := u32 (t.file.currentStartSector + blocksToRead) }
            i := u16 (t.i + blocksToRead)
            sink := sendBlocks fw t.sink (t.file.left.take bytesToCopy) bytesToRead })
  else .ok none

/-- `read_sectors`, which gives the next logical address. Its loops take `turns` turns at most. -/
def readSectors (turns : ℕ) (file : FileInfo) (sink : Sink Octet) (logicalAddress transferLength areaStartSector : ℕ) :
    Except Fault (FileInfo × Sink Octet × ℕ) := do
  let fileEndSector :=
    if areaStartSector = fat2Sector then u32 (file.endSector + sectorsPerFat) else file.endSector
  let startSector := u32Sub logicalAddress areaStartSector
  let endSector := u32Sub (u32 (startSector + transferLength)) 1
  let endSector :=
    if endSector > u32Sub fileEndSector areaStartSector then u32Sub fileEndSector areaStartSector else endSector
  let file := if file.src = none ∨ startSector < file.currentStartSector then file.openSource else file
  let file ← loop .outOfTurns (seekTurn startSector endSector) turns file
  let t ← loop .outOfTurns (sendTurn fw slack logicalAddress startSector endSector) turns ⟨file, 0, sink⟩
  return (t.file, t.sink, u32 (u32Sub (u32 (logicalAddress + endSector)) startSector + 1))

/-! ### Reads -/

/-- `MassStorageType`. -/
structure MassStorageType where
  infoRead : Bool
  fileInfo : FileInfoValue → FileInfo

/-- The sectors of an area's content. -/
def numberSectors (size : ℕ) : ℕ :=
  let number := size / bytesPerSector + 1
  if size % bytesPerSector = 0 then number - 1 else number

/-- The last sectors of the areas, found by the first read. -/
def MassStorageType.readInfo (ms : MassStorageType) : MassStorageType :=
  if ms.infoRead then ms
  else
    { infoRead := true
      fileInfo := fun v =>
        (ms.fileInfo v).setEndSector (u32Sub (u32 (v.sector + numberSectors (ms.fileInfo v).size)) 1) }

/-- The master boot record, put together in the sink. -/
def sendMbr (sink : Sink Octet) : Sink Octet :=
  let buffer := sink.claimed.length
  let sink := (sink.claim fw.unwritten bytesPerSector).store buffer mbrExe
  let sink := sink.store (buffer + mbrExe.length) mbrPartition
  let sink := sink.store (buffer + mbrExe.length + mbrPartition.length) (zeros (mbrPartition.length * 3))
  (sink.store (buffer + bytesPerSector - exeSignature.length) exeSignature).flush bytesPerSector

/-- The boot sector. -/
def sendBoot (sink : Sink Octet) : Sink Octet :=
  let buffer := sink.claimed.length
  let sink := (sink.claim fw.unwritten bytesPerSector).store buffer bootSectorData
  let sink := sink.store (buffer + bootSectorData.length) bootExe
  (sink.store (buffer + bootSectorData.length + bootExe.length) exeSignature).flush bytesPerSector

/-- A sector with no data. -/
def sendEmpty (sink : Sink Octet) : Sink Octet :=
  ((sink.claim fw.unwritten bytesPerSector).store sink.claimed.length (zeros bytesPerSector)).flush bytesPerSector

/-- What the loop of a read changes. -/
structure Reading where
  ms : MassStorageType
  logicalAddress : ℕ
  sink : Sink Octet

/-- The sectors of an area, from the address the loop has come to. -/
def Reading.area (turns endAddress : ℕ) (v : FileInfoValue) (areaStartSector : ℕ) (r : Reading) :
    Except Fault (Option Reading) := do
  let (file, sink, next) ← readSectors fw slack turns (r.ms.fileInfo v) r.sink r.logicalAddress
    (u32 (u32Sub endAddress r.logicalAddress + 1)) areaStartSector
  return some { ms := { r.ms with fileInfo := Function.update r.ms.fileInfo v file }, logicalAddress := next, sink }

/-- One turn of the loop of a read. -/
def readTurn (turns endAddress : ℕ) (r : Reading) : Except Fault (Option Reading) :=
  if r.logicalAddress ≤ endAddress then
    if r.logicalAddress = mbrSector then
      .ok (some { r with logicalAddress := u32 (r.logicalAddress + 1), sink := sendMbr fw r.sink })
    else if r.logicalAddress = bootSector then
      .ok (some { r with logicalAddress := u32 (r.logicalAddress + 1), sink := sendBoot fw r.sink })
    else if fat1Sector ≤ r.logicalAddress ∧ r.logicalAddress ≤ (r.ms.fileInfo .fat).endSector then
      r.area fw slack turns endAddress .fat fat1Sector
    else if fat2Sector ≤ r.logicalAddress ∧
        r.logicalAddress ≤ u32 ((r.ms.fileInfo .fat).endSector + sectorsPerFat) then
      r.area fw slack turns endAddress .fat fat2Sector
    else if rootSector ≤ r.logicalAddress ∧ r.logicalAddress ≤ (r.ms.fileInfo .rootDir).endSector then
      r.area fw slack turns endAddress .rootDir rootSector
    else if dataSector ≤ r.logicalAddress ∧ r.logicalAddress ≤ (r.ms.fileInfo .data).endSector then
      r.area fw slack turns endAddress .data dataSector
    else .ok (some { r with logicalAddress := u32 (r.logicalAddress + 1), sink := sendEmpty fw r.sink })
  else .ok none

/-- `Fat16_Read`. -/
def fat16Read (turns : ℕ) (ms : MassStorageType) (sink : Sink Octet) (logicalAddress transferLength : ℕ) :
    Except Fault (MassStorageType × Sink Octet) := do
  let endAddress := u32Sub (u32 (logicalAddress + transferLength)) 1
  let r ← loop .outOfTurns (readTurn fw slack turns endAddress) turns ⟨ms.readInfo, logicalAddress, sink⟩
  return (r.ms, r.sink)

end

end Cbps.MassStorage
