import Mathlib.Algebra.Ring.Nat
import Mathlib.Data.List.Basic

/-!
# The disk of the USB mass storage device

A fixed disk: the master boot record, the boot sector, two copies of the file allocation table, the root directory and
the data area, each area being the configured content with zeros behind it, and zeros in all other sectors. `image` is
the content of each sector; it is what a read is compared with.
-/

namespace Cbps.MassStorage

abbrev Octet := BitVec 8

def bytesPerSector : ℕ := 512
def sectorsPerCluster : ℕ := 4
def noFats : ℕ := 2
def sectorsPerFat : ℕ := 134
def sectorsPerTrack : ℕ := 63
def reservedSectors : ℕ := 4
def rootDirEntries : ℕ := 512
def rootDirSize : ℕ := 32
def numberHeads : ℕ := 255
def totalSectors : ℕ := 31556

def mbrSector : ℕ := 0
def bootSector : ℕ := 63
def fat1Sector : ℕ := bootSector + reservedSectors
def fat2Sector : ℕ := fat1Sector + sectorsPerFat
def rootSector : ℕ := fat2Sector + sectorsPerFat
def dataSector : ℕ := rootSector + rootDirEntries * rootDirSize / bytesPerSector

/-! ### Master boot record and boot sector -/

/-- The octets of a number, the least significant one first. -/
def lsbFirst (n k : ℕ) : List Octet := (List.range k).map fun i => BitVec.ofNat 8 (n / 256 ^ i)

def chars (s : String) : List Octet := s.toList.map fun c => BitVec.ofNat 8 c.toNat

/-- `mbr_exe`. -/
def mbrExe : List Octet :=
  [
    0x33, 0xC0, 0x8E, 0xD0, 0xBC, 0x00, 0x7C, 0xFB, 0x50, 0x07, 0x50, 0x1F, 0xFC, 0xBE, 0x1B, 0x7C, 0xBF,
    0x1B, 0x06, 0x50, 0x57, 0xB9, 0xE5, 0x01, 0xF3, 0xA4, 0xCB, 0xBE, 0xBE, 0x07, 0xB1, 0x04, 0x38, 0x2C,
    0x7C, 0x09, 0x75, 0x15, 0x83, 0xC6, 0x10, 0xE2, 0xF5, 0xCD, 0x18, 0x8B, 0x14, 0x8B, 0xEE, 0x83, 0xC6,
    0x10, 0x49, 0x74, 0x16, 0x38, 0x2C, 0x74, 0xF6, 0xBE, 0x10, 0x07, 0x4E, 0xAC, 0x3C, 0x00, 0x74, 0xFA,
    0xBB, 0x07, 0x00, 0xB4, 0x0E, 0xCD, 0x10, 0xEB, 0xF2, 0x89, 0x46, 0x25, 0x96, 0x8A, 0x46, 0x04, 0xB4,
    0x06, 0x3C, 0x0E, 0x74, 0x11, 0xB4, 0x0B, 0x3C, 0x0C, 0x74, 0x05, 0x3A, 0xC4, 0x75, 0x2B, 0x40, 0xC6,
    0x46, 0x25, 0x06, 0x75, 0x24, 0xBB, 0xAA, 0x55, 0x50, 0xB4, 0x41, 0xCD, 0x13, 0x58, 0x72, 0x16, 0x81,
    0xFB, 0x55, 0xAA, 0x75, 0x10, 0xF6, 0xC1, 0x01, 0x74, 0x0B, 0x8A, 0xE0, 0x88, 0x56, 0x24, 0xC7, 0x06,
    0xA1, 0x06, 0xEB, 0x1E, 0x88, 0x66, 0x04, 0xBF, 0x0A, 0x00, 0xB8, 0x01, 0x02, 0x8B, 0xDC, 0x33, 0xC9,
    0x83, 0xFF, 0x05, 0x7F, 0x03, 0x8B, 0x4E, 0x25, 0x03, 0x4E, 0x02, 0xCD, 0x13, 0x72, 0x29, 0xBE, 0x46,
    0x07, 0x81, 0x3E, 0xFE, 0x7D, 0x55, 0xAA, 0x74, 0x5A, 0x83, 0xEF, 0x05, 0x7F, 0xDA, 0x85, 0xF6, 0x75,
    0x83, 0xBE, 0x27, 0x07, 0xEB, 0x8A, 0x98, 0x91, 0x52, 0x99, 0x03, 0x46, 0x08, 0x13, 0x56, 0x0A, 0xE8,
    0x12, 0x00, 0x5A, 0xEB, 0xD5, 0x4F, 0x74, 0xE4, 0x33, 0xC0, 0xCD, 0x13, 0xEB, 0xB8, 0x00, 0x00, 0x00,
    0x00, 0x00, 0x00, 0x56, 0x33, 0xF6, 0x56, 0x56, 0x52, 0x50, 0x06, 0x53, 0x51, 0xBE, 0x10, 0x00, 0x56,
    0x8B, 0xF4, 0x50, 0x52, 0xB8, 0x00, 0x42, 0x8A, 0x56, 0x24, 0xCD, 0x13, 0x5A, 0x58, 0x8D, 0x64, 0x10,
    0x72, 0x0A, 0x40, 0x75, 0x01, 0x42, 0x80, 0xC7, 0x02, 0xE2, 0xF7, 0xF8, 0x5E, 0xC3, 0xEB, 0x74, 0x49,
    0x6E, 0x76, 0x61, 0x6C, 0x69, 0x64, 0x20, 0x70, 0x61, 0x72, 0x74, 0x69, 0x74, 0x69, 0x6F, 0x6E, 0x20,
    0x74, 0x61, 0x62, 0x6C, 0x65, 0x00, 0x45, 0x72, 0x72, 0x6F, 0x72, 0x20, 0x6C, 0x6F, 0x61, 0x64, 0x69,
    0x6E, 0x67, 0x20, 0x6F, 0x70, 0x65, 0x72, 0x61, 0x74, 0x69, 0x6E, 0x67, 0x20, 0x73, 0x79, 0x73, 0x74,
    0x65, 0x6D, 0x00, 0x4D, 0x69, 0x73, 0x73, 0x69, 0x6E, 0x67, 0x20, 0x6F, 0x70, 0x65, 0x72, 0x61, 0x74,
    0x69, 0x6E, 0x67, 0x20, 0x73, 0x79, 0x73, 0x74, 0x65, 0x6D, 0x00, 0x00, 0x00, 0x00, 0x00, 0x00, 0x00,
    0x00, 0x00, 0x00, 0x00, 0x00, 0x00, 0x00, 0x00, 0x00, 0x00, 0x00, 0x00, 0x00, 0x00, 0x00, 0x00, 0x00,
    0x00, 0x00, 0x00, 0x00, 0x00, 0x00, 0x00, 0x00, 0x00, 0x00, 0x00, 0x00, 0x00, 0x8B, 0xFC, 0x1E, 0x57,
    0x8B, 0xF5, 0xCB, 0x00, 0x00, 0x00, 0x00, 0x00, 0x00, 0x00, 0x00, 0x00, 0x00, 0x00, 0x00, 0x00, 0x00,
    0x00, 0x00, 0x00, 0x00, 0x00, 0x00, 0x00, 0x00, 0x00, 0x00, 0x00, 0x00, 0x00, 0x00, 0x00, 0x00, 0x00,
    0x00, 0x00, 0x00, 0x00, 0x00, 0x00, 0x00, 0x00, 0x00, 0x00, 0x00, 0x00, 0x00, 0x00, 0x00, 0x37, 0x39,
    0xBF, 0x99, 0x00, 0x00]

/-- `mbr_partition`. -/
def mbrPartition : List Octet :=
  [0x80, 0x01, 0x01, 0x00, 0x06, 0x05, 0x7f, 0x69] ++ lsbFirst bootSector 4 ++ lsbFirst totalSectors 4

def exeSignature : List Octet := [0x55, 0xaa]

/-- `boot_sector`. -/
def bootSectorData : List Octet :=
  [0xEB, 0x3C, 0x90] ++ chars "MSDOS5.0" ++ lsbFirst bytesPerSector 2 ++ lsbFirst sectorsPerCluster 1 ++
    lsbFirst reservedSectors 2 ++ lsbFirst noFats 1 ++ lsbFirst rootDirEntries 2 ++ lsbFirst totalSectors 2 ++
    [0xf8] ++ lsbFirst sectorsPerFat 2 ++ lsbFirst sectorsPerTrack 2 ++ lsbFirst numberHeads 2 ++
    lsbFirst bootSector 4 ++ [0x00, 0x00, 0x00, 0x00, 0x00, 0x00, 0x29, 0x01, 0x04, 0xda, 0x1f] ++
    chars "NO NAME    " ++ chars "FAT16   "

/-- `boot_exe`. -/
def bootExe : List Octet :=
  [
    0x33, 0xC9, 0x8E, 0xD1, 0xBC, 0xF0, 0x7B, 0x8E, 0xD9, 0xB8, 0x00, 0x20, 0x8E, 0xC0, 0xFC, 0xBD, 0x00,
    0x7C, 0x38, 0x4E, 0x24, 0x7D, 0x24, 0x8B, 0xC1, 0x99, 0xE8, 0x3C, 0x01, 0x72, 0x1C, 0x83, 0xEB, 0x3A,
    0x66, 0xA1, 0x1C, 0x7C, 0x26, 0x66, 0x3B, 0x07, 0x26, 0x8A, 0x57, 0xFC, 0x75, 0x06, 0x80, 0xCA, 0x02,
    0x88, 0x56, 0x02, 0x80, 0xC3, 0x10, 0x73, 0xEB, 0x33, 0xC9, 0x8A, 0x46, 0x10, 0x98, 0xF7, 0x66, 0x16,
    0x03, 0x46, 0x1C, 0x13, 0x56, 0x1E, 0x03, 0x46, 0x0E, 0x13, 0xD1, 0x8B, 0x76, 0x11, 0x60, 0x89, 0x46,
    0xFC, 0x89, 0x56, 0xFE, 0xB8, 0x20, 0x00, 0xF7, 0xE6, 0x8B, 0x5E, 0x0B, 0x03, 0xC3, 0x48, 0xF7, 0xF3,
    0x01, 0x46, 0xFC, 0x11, 0x4E, 0xFE, 0x61, 0xBF, 0x00, 0x00, 0xE8, 0xE6, 0x00, 0x72, 0x39, 0x26, 0x38,
    0x2D, 0x74, 0x17, 0x60, 0xB1, 0x0B, 0xBE, 0xA1, 0x7D, 0xF3, 0xA6, 0x61, 0x74, 0x32, 0x4E, 0x74, 0x09,
    0x83, 0xC7, 0x20, 0x3B, 0xFB, 0x72, 0xE6, 0xEB, 0xDC, 0xA0, 0xFB, 0x7D, 0xB4, 0x7D, 0x8B, 0xF0, 0xAC,
    0x98, 0x40, 0x74, 0x0C, 0x48, 0x74, 0x13, 0xB4, 0x0E, 0xBB, 0x07, 0x00, 0xCD, 0x10, 0xEB, 0xEF, 0xA0,
    0xFD, 0x7D, 0xEB, 0xE6, 0xA0, 0xFC, 0x7D, 0xEB, 0xE1, 0xCD, 0x16, 0xCD, 0x19, 0x26, 0x8B, 0x55, 0x1A,
    0x52, 0xB0, 0x01, 0xBB, 0x00, 0x00, 0xE8, 0x3B, 0x00, 0x72, 0xE8, 0x5B, 0x8A, 0x56, 0x24, 0xBE, 0x0B,
    0x7C, 0x8B, 0xFC, 0xC7, 0x46, 0xF0, 0x3D, 0x7D, 0xC7, 0x46, 0xF4, 0x29, 0x7D, 0x8C, 0xD9, 0x89, 0x4E,
    0xF2, 0x89, 0x4E, 0xF6, 0xC6, 0x06, 0x96, 0x7D, 0xCB, 0xEA, 0x03, 0x00, 0x00, 0x20, 0x0F, 0xB6, 0xC8,
    0x66, 0x8B, 0x46, 0xF8, 0x66, 0x03, 0x46, 0x1C, 0x66, 0x8B, 0xD0, 0x66, 0xC1, 0xEA, 0x10, 0xEB, 0x5E,
    0x0F, 0xB6, 0xC8, 0x4A, 0x4A, 0x8A, 0x46, 0x0D, 0x32, 0xE4, 0xF7, 0xE2, 0x03, 0x46, 0xFC, 0x13, 0x56,
    0xFE, 0xEB, 0x4A, 0x52, 0x50, 0x06, 0x53, 0x6A, 0x01, 0x6A, 0x10, 0x91, 0x8B, 0x46, 0x18, 0x96, 0x92,
    0x33, 0xD2, 0xF7, 0xF6, 0x91, 0xF7, 0xF6, 0x42, 0x87, 0xCA, 0xF7, 0x76, 0x1A, 0x8A, 0xF2, 0x8A, 0xE8,
    0xC0, 0xCC, 0x02, 0x0A, 0xCC, 0xB8, 0x01, 0x02, 0x80, 0x7E, 0x02, 0x0E, 0x75, 0x04, 0xB4, 0x42, 0x8B,
    0xF4, 0x8A, 0x56, 0x24, 0xCD, 0x13, 0x61, 0x61, 0x72, 0x0B, 0x40, 0x75, 0x01, 0x42, 0x03, 0x5E, 0x0B,
    0x49, 0x75, 0x06, 0xF8, 0xC3, 0x41, 0xBB, 0x00, 0x00, 0x60, 0x66, 0x6A, 0x00, 0xEB, 0xB0, 0x4E, 0x54,
    0x4C, 0x44, 0x52, 0x20, 0x20, 0x20, 0x20, 0x20, 0x20, 0x0D, 0x0A, 0x52, 0x65, 0x6D, 0x6F, 0x76, 0x65,
    0x20, 0x64, 0x69, 0x73, 0x6B, 0x73, 0x20, 0x6F, 0x72, 0x20, 0x6F, 0x74, 0x68, 0x65, 0x72, 0x20, 0x6D,
    0x65, 0x64, 0x69, 0x61, 0x2E, 0xFF, 0x0D, 0x0A, 0x44, 0x69, 0x73, 0x6B, 0x20, 0x65, 0x72, 0x72, 0x6F,
    0x72, 0xFF, 0x0D, 0x0A, 0x50, 0x72, 0x65, 0x73, 0x73, 0x20, 0x61, 0x6E, 0x79, 0x20, 0x6B, 0x65, 0x79,
    0x20, 0x74, 0x6F, 0x20, 0x72, 0x65, 0x73, 0x74, 0x61, 0x72, 0x74, 0x0D, 0x0A, 0x00, 0x00, 0x00, 0x00,
    0x00, 0x00, 0x00, 0xAC, 0xCB, 0xD8]

def zeros (n : ℕ) : List Octet := List.replicate n 0

/-- The sector of the master boot record: its code, one partition, three empty ones, and the signature. -/
def mbr : List Octet := mbrExe ++ mbrPartition ++ zeros 48 ++ exeSignature

def boot : List Octet := bootSectorData ++ bootExe ++ exeSignature

theorem length_exe : mbrExe.length = 446 ∧ bootExe.length = 448 := by decide +kernel

theorem length_mbrExe : mbrExe.length = 446 := length_exe.1

theorem length_mbrPartition : mbrPartition.length = 16 := rfl

theorem length_bootSectorData : bootSectorData.length = 62 := rfl

theorem length_bootExe : bootExe.length = 448 := length_exe.2

theorem length_exeSignature : exeSignature.length = 2 := rfl

@[simp] theorem length_zeros (n : ℕ) : (zeros n).length = n := List.length_replicate

theorem length_mbr : mbr.length = bytesPerSector := by
  simp only [mbr, List.length_append, length_mbrExe, length_mbrPartition, length_zeros, length_exeSignature]
  rfl

theorem length_boot : boot.length = bytesPerSector := by
  simp only [boot, List.length_append, length_bootSectorData, length_bootExe, length_exeSignature]
  rfl

/-! ### Areas -/

/-- `file_info_value`. -/
inductive FileInfoValue
  | fat
  | rootDir
  | data
  deriving DecidableEq, Repr

/-- The sector at which an area begins; for the table it is that of its first copy. -/
def FileInfoValue.sector : FileInfoValue → ℕ
  | .fat => fat1Sector
  | .rootDir => rootSector
  | .data => dataSector

/-- The sectors an area has. The data area ends with the partition. -/
def FileInfoValue.capacity : FileInfoValue → ℕ
  | .fat => sectorsPerFat
  | .rootDir => dataSector - rootSector
  | .data => bootSector + totalSectors - dataSector

/-- The sectors that octets take up. -/
def sectorsOf (size : ℕ) : ℕ := (size + 511) / bytesPerSector

/-- A sector of a content that goes on with zeros. -/
def sectorAt (content : List Octet) (k : ℕ) : List Octet :=
  let octets := (content.drop (bytesPerSector * k)).take bytesPerSector
  octets ++ zeros (bytesPerSector - octets.length)

/-- The sectors from `k` on, `n` of them. -/
def sectorsAt (content : List Octet) (k n : ℕ) : List Octet := (List.range' k n).flatMap (sectorAt content)

/-- **The image**: the octets of each sector of the disk. -/
def image (content : FileInfoValue → List Octet) (a : ℕ) : List Octet :=
  if a = mbrSector then mbr
  else if a = bootSector then boot
  else if fat1Sector ≤ a ∧ a < fat2Sector then sectorAt (content .fat) (a - fat1Sector)
  else if fat2Sector ≤ a ∧ a < rootSector then sectorAt (content .fat) (a - fat2Sector)
  else if rootSector ≤ a ∧ a < dataSector then sectorAt (content .rootDir) (a - rootSector)
  else if dataSector ≤ a then sectorAt (content .data) (a - dataSector)
  else zeros bytesPerSector

/-- The octets of a read. -/
def imageFrom (content : FileInfoValue → List Octet) (a n : ℕ) : List Octet :=
  (List.range' a n).flatMap (image content)

end Cbps.MassStorage
