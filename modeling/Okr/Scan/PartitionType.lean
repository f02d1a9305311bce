import Okr.Base.Disk

/-! Which file system a boot sector announces, and the geometry taken from it. -/

namespace Okr

/-- The type of a record nothing is known about. -/
def PARTITION_UNUSED : Nat := 0x00

/-- A character matches as `strnicmp` compares: equal, or a letter in the other case. -/
def sameChar (a t : Nat) : Bool :=
  a == t || (a == t + 0x20 && decide (0x61 ≤ a ∧ a ≤ 0x7a))
    || (a + 0x20 == t && decide (0x41 ≤ a ∧ a ≤ 0x5a))

/-- `strnicmp(buffer + pos, text, length of text) == 0`. -/
def strnicmp (buffer : Image) : Nat → List Nat → Bool
  | _, [] => true
  | pos, t :: text => sameChar (buffer pos).toNat t && strnicmp buffer (pos + 1) text

/-- `"NTFS"`, `"FAT3"`, `"FAT1"`, `"-FVE-FS-"` and `"MSWIN4.1"`. -/
def textNtfs : List Nat := [0x4e, 0x54, 0x46, 0x53]
def textFat3 : List Nat := [0x46, 0x41, 0x54, 0x33]
def textFat1 : List Nat := [0x46, 0x41, 0x54, 0x31]
def textFve : List Nat := [0x2d, 0x46, 0x56, 0x45, 0x2d, 0x46, 0x53, 0x2d]
def textMswin : List Nat := [0x4d, 0x53, 0x57, 0x49, 0x4e, 0x34, 0x2e, 0x31]

/-- Fields of the FAT16 parameter block, which starts the other ones too. -/
def secInByte (buffer : Image) : Nat := le16 buffer 11
def secPerClr (buffer : Image) : Nat := (buffer 13).toNat
def resSec (buffer : Image) : Nat := le16 buffer 14
def numOfFat (buffer : Image) : Nat := (buffer 16).toNat
def rootEntry (buffer : Image) : Nat := le16 buffer 17
def totalSec (buffer : Image) : Nat := le16 buffer 19
def secPerFat (buffer : Image) : Nat := le16 buffer 22
def bigTotalSec (buffer : Image) : Nat := le32 buffer 32

/-- Sectors of one FAT in the FAT32 parameter block. -/
def bigSecPerFat (buffer : Image) : Nat := le32 buffer 36

/-- Fields of the NTFS parameter block. -/
def ntTotalSectors (buffer : Image) : Nat := le64 buffer 40
def mftStartLcn (buffer : Image) : Nat := le64 buffer 48
def clustersPerFileRecord (buffer : Image) : Nat := le32 buffer 64

/-- Fields of the superblock, which stands 1024 bytes into the partition. -/
def sBlocksCount (buffer : Image) : Nat := le32 buffer (1024 + 0x04)
def sFirstDataBlock (buffer : Image) : Nat := le32 buffer (1024 + 0x14)
def sLogBlockSize (buffer : Image) : Nat := le32 buffer (1024 + 0x18)
def sBlocksPerGroup (buffer : Image) : Nat := le32 buffer (1024 + 0x20)
def sMagic (buffer : Image) : Nat := le16 buffer (1024 + 0x38)

/-- The type the texts in the boot sector name, or `known` when none does. -/
def namedType (buffer : Image) (known : Nat) : Nat :=
  let type := if strnicmp buffer 3 textNtfs then NTFS else known
  let type := if strnicmp buffer 82 textFat3 then FAT32 else type
  let type := if strnicmp buffer 54 textFat1 then FAT16 else type
  let type := if strnicmp buffer 3 textFve then SHD_BITLOCKER else type
  if strnicmp buffer 3 textMswin then SHD_BITLOCKERTOGO else type

/-- The type guessed from the parameter block when no text names one. -/
def guessedType (buffer : Image) (type : Nat) : Nat :=
  if type ≠ NTFS ∧ type ≠ FAT32 ∧ type ≠ FAT16 ∧ type ≠ SHD_BITLOCKER ∧ type ≠ SHD_BITLOCKERTOGO then
    if rootEntry buffer = 0 ∨ secPerFat buffer = 0 then
      if bigTotalSec buffer = 0 then NTFS else FAT32
    else if totalSec buffer ≠ 0 then FAT12
    else FAT16
  else type

/-- A parameter block whose sizes make no sense leaves the type to the superblock. -/
def checkedType (buffer : Image) (type : Nat) : Nat :=
  let type :=
    if secInByte buffer = 0 ∨ secInByte buffer &&& 0x1ff ≠ 0 ∨ secPerClr buffer = 0 then
      PARTITION_UNUSED
    else type
  let type := if secInByte buffer &&& (secInByte buffer - 1) ≠ 0 then PARTITION_UNUSED else type
  let type := if secPerClr buffer &&& (secPerClr buffer - 1) ≠ 0 then PARTITION_UNUSED else type
  if type = PARTITION_UNUSED ∧ sMagic buffer = 0xEF53 then PARTITION_LINUX else type

/-- A shift of the 32-bit number 1; the processor takes the count modulo the width. -/
def shiftOne (count : Nat) : Nat := 2 ^ (count % 32)

/-- The NTFS branch. -/
def ntfsGeometry (buffer : Image) (p : PartitionInfo) : PartitionInfo :=
  let bytesPerFileRecord := clustersPerFileRecord buffer
  { p with
    partitionType := NTFS
    totalSectors :=
      if p.totalSectors ≠ u64 (ntTotalSectors buffer + 1) then ntTotalSectors buffer
      else p.totalSectors
    mftBeginSector := u64 (mftStartLcn buffer * secPerClr buffer)
    sectorsPerFileRecord :=
      if bytesPerFileRecord > 0x80 then
        shiftOne (u32 (2 ^ 32 + 0x100 - bytesPerFileRecord)) / secInByte buffer % 2 ^ 16
      else bytesPerFileRecord * secPerClr buffer % 2 ^ 16 }

/-- The FAT32 branch. -/
def fat32Geometry (buffer : Image) (p : PartitionInfo) : PartitionInfo :=
  { p with
    totalSectors := bigTotalSec buffer
    firstFatSector := resSec buffer
    sectorsPerFAT := bigSecPerFat buffer
    fatCopies := numOfFat buffer
    partitionType := FAT32 }

/-- The FAT16 branch. -/
def fat16Geometry (buffer : Image) (p : PartitionInfo) : PartitionInfo :=
  if secPerClr buffer > 128 then { p with partitionType := PARTITION_UNUSED }
  else
    { p with
      totalSectors := bigTotalSec buffer
      firstFatSector := resSec buffer
      sectorsPerFAT := secPerFat buffer
      fatCopies := numOfFat buffer
      rootSectors := rootEntry buffer * 32 / 512
      partitionType := FAT16 }

/-- The branch of the Linux file systems; sectors per block are kept in a byte. -/
def extGeometry (buffer : Image) (p : PartitionInfo) : PartitionInfo :=
  let sectorsPerCluster := shiftOne (u32 (sLogBlockSize buffer + 1))
  { p with
    sectorsPerClr := sectorsPerCluster % 2 ^ 8
    partitionType := PARTITION_LINUX
    totalSectors := u64 (sBlocksCount buffer * sectorsPerCluster)
    groupDescSector :=
      if sectorsPerCluster ≤ 2 then sectorsPerCluster * 2 else sectorsPerCluster
    blocksPerGroup := sBlocksPerGroup buffer
    groupsCount :=
      u32 (sBlocksCount buffer + sBlocksPerGroup buffer + 2 ^ 32 - 1) / sBlocksPerGroup buffer }

/-- `m_PartitionType` as the checks leave it. -/
def announcedType (buffer : Image) (p : PartitionInfo) : Nat :=
  let known := if le16 buffer 0x1fe ≠ 0xaa55 then PARTITION_LINUX else p.partitionType
  checkedType buffer (guessedType buffer (namedType buffer known))

/--
`CheckPartitionType`, or nothing when it returns FALSE.

The free sectors, which only the display of sizes uses, are left out.
-/
def checkPartitionType (buffer : Image) (p : PartitionInfo) : Option PartitionInfo :=
  if le16 buffer 0x1fe ≠ 0xaa55 ∧ sMagic buffer ≠ 0xEF53 then none
  else
    let type := announcedType buffer p
    let p := { p with sectorsPerClr := secPerClr buffer }
    some <|
      if type = NTFS then ntfsGeometry buffer p
      else if type = FAT32 then fat32Geometry buffer p
      else if type = FAT16 then fat16Geometry buffer p
      else if type = PARTITION_LINUX then extGeometry buffer p
      else if type = SHD_BITLOCKER ∨ type = SHD_BITLOCKERTOGO then { p with partitionType := type }
      else p

end Okr
