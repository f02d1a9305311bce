import Okr.Base.Word

/-! The partition table the program keeps in memory for all disks of the machine together. -/

namespace Okr

/-- Bytes in a sector. -/
def SECTOR_SIZE : Nat := 512

/-- Sectors in one block of the backup bitmap. -/
def BLOCK_SIZE : Nat := 64

/-- Slots in the list of disks. -/
def MAX_DISK_NUM : Nat := 16

/-- Slots in the partition table. -/
def MAX_NUM_PARTITIONS : Nat := 64

/-- Partition types the scan and the probe tell apart. -/
def FAT12 : Nat := 0x01
def FAT16 : Nat := 0x06
def FAT16_E : Nat := 0x0E
def NTFS : Nat := 0x07
def FAT32 : Nat := 0x0B
def FAT32_E : Nat := 0x0C
def PARTITION_LINUX : Nat := 0x83
def SHD_BITLOCKER : Nat := 0xD5
def SHD_BITLOCKERTOGO : Nat := 0xD6

/-- GPT type identifiers, as the bytes stand in the partition entry. -/
def windowsDataTypeGuid : Bytes :=
  [0xa2, 0xa0, 0xd0, 0xeb, 0xe5, 0xb9, 0x33, 0x44, 0x87, 0xc0, 0x68, 0xb6, 0xb7, 0x26, 0x99, 0xc7]
def windowRecoveryTypeGuid : Bytes :=
  [0xa4, 0xbb, 0x94, 0xde, 0xd1, 0x06, 0x40, 0x4d, 0xa1, 0x6a, 0xbf, 0xd5, 0x01, 0x79, 0xd6, 0xac]
def uefiSystemTypeGuid : Bytes :=
  [0x28, 0x73, 0x2a, 0xc1, 0x1f, 0xf8, 0xd2, 0x11, 0xba, 0x4b, 0x00, 0xa0, 0xc9, 0x3e, 0xc9, 0x3b]
def windowReservedTypeGuid : Bytes :=
  [0x16, 0xe3, 0xc9, 0xe3, 0x5c, 0x0b, 0xb8, 0x4d, 0x81, 0x7d, 0xf9, 0x2d, 0xf0, 0x02, 0x15, 0xae]
def uefiEspTypeGuid : Bytes :=
  [0xC1, 0x2A, 0x73, 0x28, 0xF8, 0x1F, 0x11, 0xD2, 0xBA, 0x4B, 0x00, 0xA0, 0xC9, 0x3E, 0xC9, 0x3B]

/-- The legacy boot partition of Linux; an `EFI_GUID` keeps its first three fields little-endian. -/
def partitionLinuxBootGuid : Bytes :=
  [0x48, 0x61, 0x68, 0x21, 0x49, 0x64, 0x6f, 0x6e, 0x74, 0x4e, 0x65, 0x65, 0x64, 0x45, 0x46, 0x49]

/--
One record of the partition table.

The source overlays the three file systems' geometry in a union.
Here each file system has its own fields, since a record is only read through its own type.
-/
structure PartitionInfo where
  bootBegin : Nat := 0
  totalSectors : Nat := 0
  firstFatSector : Nat := 0
  sectorsPerFAT : Nat := 0
  fatCopies : Nat := 0
  rootSectors : Nat := 0
  mftBeginSector : Nat := 0
  sectorsPerFileRecord : Nat := 0
  blocksPerGroup : Nat := 0
  groupsCount : Nat := 0
  groupDescSector : Nat := 0
  sectorsPerClr : Nat := 0
  partitionType : Nat := 0
  bBootPartition : Bool := false
  bIfBackup : Bool := false
  diskNumber : Nat := 0
  backupDataSize : Nat := 0
  typeGuid : Bytes := List.replicate 16 0
  uniGuid : Bytes := List.replicate 16 0
  label : List Nat := List.replicate 33 0
  bGpt : Bool := false
  hasWindows : Bool := false
  deriving DecidableEq, Repr

end Okr
