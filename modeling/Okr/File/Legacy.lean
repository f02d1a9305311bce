import Okr.Base.Memory

/-! The header of an older version, and the form in which `FileRead` hands it on. -/

namespace Okr

/-- `OKR_IMAGE_MAGIC`, the characters `okr9`. -/
def OKR_IMAGE_MAGIC : Nat := 0x39726b6f

/-- The version a header has today, and the older one that is converted. -/
def HEADER_VERSION : Nat := 0x09000811
def LEGACY_VERSION : Nat := 0x09000810

/-- The size of a partition record in a header. -/
def PARTITION_RECORD : Nat := 0xb0

/-- Where the partition records of a header begin, today and in the older version. -/
def HEADER_FRONT : Nat := 0x1E20
def OLD_HEADER_FRONT : Nat := 0x200

/-- The most a header takes, in whole sectors. -/
def OKR_HEADER_MAX_SIZE : Nat := 0x4C00

/-- Where the older header counts its partition records. -/
def OLD_PARTITION_COUNT : Nat := 0x11A

/-- The fields that are copied one by one: where they go, where they stand, and their size. -/
def legacyFields : List (Nat × Nat × Nat) :=
  [ (0x0, 0x0, 4),          -- Magic
    (0xC, 0xC, 4),          -- Time
    (0x10, 0x10, 240),      -- Memo
    (0x100, 0x100, 1),      -- bOkrPE
    (0x101, 0x101, 3),      -- reserved
    (0x104, 0x104, 4),      -- TimeZone
    (0x108, 0x108, 8),      -- FileSize
    (0x110, 0x110, 8),      -- Disksize
    (0x538, 0x118, 2),      -- PartitionIndex
    (0x53A, 0x11A, 2),      -- PartitionCount
    (0x53C, 0x11C, 4),      -- GptSize
    (0x540, 0x120, 1),      -- bGpt
    (0x541, 0x121, 1),      -- bComplete
    (0x542, 0x122, 1),      -- bCompress
    (0x543, 0x123, 1),      -- bFactoryBackup
    (0x544, 0x124, 4),      -- CompressBlockSize
    (0x548, 0x128, 8),      -- OriginalSize
    (0x550, 0x130, 4),      -- DataOffset
    (0x554, 0x134, 4),      -- FileNumber
    (0x558, 0x138, 8),      -- FileTime
    (0x560, 0x140, 0x40),   -- Reserved
    (0x5A0, 0x180, 0x80) ]  -- FileName

/-- The partition records, copied behind the longer front of the header of today. -/
def legacyPartitions (count : Nat) : List (Nat × Nat × Nat) :=
  (List.range count).map fun i =>
    (HEADER_FRONT + i * PARTITION_RECORD, OLD_HEADER_FRONT + i * PARTITION_RECORD,
      PARTITION_RECORD)

/-- `CopyMem` from one buffer into another. -/
def copyFrom (source target : Image) (field : Nat × Nat × Nat) : Image := fun a =>
  if field.1 ≤ a ∧ a < field.1 + field.2.2 then source (field.2.1 + (a - field.1)) else target a

/-- The size of a header of today with so many partition records. -/
def structSizeOf (count : Nat) : Nat :=
  (HEADER_FRONT + count * PARTITION_RECORD + SECTOR_SIZE - 1) / SECTOR_SIZE * SECTOR_SIZE

/--
The header of today made from an older one.

The new buffer is zero over the size of a largest header; what stands behind it is the heap's.
-/
def convertHeader (old heap : Image) : Image :=
  let count := le16 old OLD_PARTITION_COUNT
  let buff : Image := fun a => if a < OKR_HEADER_MAX_SIZE then 0 else heap a
  let buff := put 4 buff 4 HEADER_VERSION
  let buff := put 4 buff 8 (structSizeOf count)
  (legacyFields ++ legacyPartitions count).foldl (copyFrom old) buff

/-- The buffer begins like a header of the older version. -/
def isLegacy (buffer : Image) : Bool :=
  le32 buffer 0 == OKR_IMAGE_MAGIC && le32 buffer 4 == LEGACY_VERSION

end Okr
