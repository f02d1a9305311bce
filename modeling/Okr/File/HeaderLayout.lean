import Okr.File.Segments
import Okr.Images.FindAll

/-! The declarations of the two headers, and the conversion with its bounds looked at. -/

namespace Okr

/-- The fields of `OKR_HEADER` in front of the partition records. -/
inductive HeaderField where
  | magic
  | version
  | structSize
  | time
  | memo
  | bOkrPE
  | reserved3
  | timeZone
  | fileSize
  | disksize
  | sourceDiskGUID
  | winPartNtfsGuid
  | reserved2
  | partitionIndex
  | partitionCount
  | gptSize
  | bGpt
  | bComplete
  | bCompress
  | bFactoryBackup
  | compressBlockSize
  | originalSize
  | dataOffset
  | fileNumber
  | fileTime
  | reserved
  | fileName
  | tempBuffer
deriving Repr, DecidableEq

/-- The bytes of a field. -/
def HeaderField.size : HeaderField → Nat
  | .memo => 240
  | .bOkrPE | .bGpt | .bComplete | .bCompress | .bFactoryBackup => 1
  | .reserved3 => 3
  | .partitionIndex | .partitionCount => 2
  | .fileSize | .disksize | .originalSize | .fileTime => 8
  | .sourceDiskGUID | .winPartNtfsGuid => 16
  | .reserved2 => 1024
  | .reserved => 0x40
  | .fileName => 0x80
  | .tempBuffer => 6144
  | _ => 4

/-- `OKR_HEADER`, without gaps between the fields. -/
def okrHeader : List HeaderField :=
  [.magic, .version, .structSize, .time, .memo, .bOkrPE, .reserved3, .timeZone, .fileSize, .disksize,
    .sourceDiskGUID, .winPartNtfsGuid, .reserved2, .partitionIndex, .partitionCount, .gptSize, .bGpt,
    .bComplete, .bCompress, .bFactoryBackup, .compressBlockSize, .originalSize, .dataOffset, .fileNumber,
    .fileTime, .reserved, .fileName, .tempBuffer]

/-- `OKR_HEADER_810`, the header of the older version. -/
def okrHeader810 : List HeaderField :=
  [.magic, .version, .structSize, .time, .memo, .bOkrPE, .reserved3, .timeZone, .fileSize, .disksize,
    .partitionIndex, .partitionCount, .gptSize, .bGpt, .bComplete, .bCompress, .bFactoryBackup,
    .compressBlockSize, .originalSize, .dataOffset, .fileNumber, .fileTime, .reserved, .fileName]

/-- Where a field stands: behind the fields in front of it. -/
def place (header : List HeaderField) (field : HeaderField) : Nat :=
  ((header.takeWhile (· ≠ field)).map HeaderField.size).sum

/-- The partition records stand behind all fields. -/
example : ((okrHeader.map HeaderField.size).sum, (okrHeader810.map HeaderField.size).sum)
    = (HEADER_FRONT, OLD_HEADER_FRONT) := by decide

/-- A header with its fields and records carried over from one of the older version. -/
structure HeaderPreserved (old new : Image) : Prop where
  common : ∀ field ∈ okrHeader810, field ≠ .version → field ≠ .structSize → ∀ i < field.size,
    new (place okrHeader field + i) = old (place okrHeader810 field + i)
  records : ∀ k < le16 old OLD_PARTITION_COUNT, ∀ i < PARTITION_RECORD,
    new (HEADER_FRONT + k * PARTITION_RECORD + i) = old (OLD_HEADER_FRONT + k * PARTITION_RECORD + i)
  fresh : ∀ field ∈ okrHeader, field ∉ okrHeader810 → ∀ i < field.size,
    new (place okrHeader field + i) = 0
  version : le32 new (place okrHeader .version) = HEADER_VERSION
  accepted : ({ magic := le32 new (place okrHeader .magic)
                structSize := le32 new (place okrHeader .structSize)
                bComplete := new (place okrHeader .bComplete) == 1 } : FoundHeader).isImage = true

/-! ### The conversion with its bounds -/

/-- A copy that reads inside what was read, and writes inside the new buffer. -/
def copyChecked (read room : Nat) (source : Image) (target : Option Image) (field : Nat × Nat × Nat) :
    Option Image :=
  target.bind fun buff =>
    if field.2.1 + field.2.2 ≤ read ∧ field.1 + field.2.2 ≤ room then some (copyFrom source buff field)
    else none

/--
The conversion of so many bytes that were read, as long as it stays inside of them and of its buffer.

It reads the magic, the version and the counts, makes its copies, and copies as many bytes back.
-/
def convertChecked (read : Nat) (old heap : Image) : Option Bytes :=
  let count := le16 old OLD_PARTITION_COUNT
  if OLD_PARTITION_COUNT + 2 ≤ read then
    let buff : Image := fun a => if a < OKR_HEADER_MAX_SIZE then 0 else heap a
    let buff := put 4 (put 4 buff 4 HEADER_VERSION) 8 (structSizeOf count)
    let buff := (legacyFields ++ legacyPartitions count).foldl
      (copyChecked read OKR_HEADER_MAX_SIZE old) (some buff)
    buff.bind fun buff => if read ≤ OKR_HEADER_MAX_SIZE then some (bytesAt buff 0 read) else none
  else none

/--
The conversion of a read that looks like an older header does what it is for.

With at most 64 partitions everything is carried over, and whatever the header holds, no byte is read
that was not, and none written outside the buffers.
-/
def ConversionSound (bytes : Bytes) (buffer heap : Image) : Prop :=
  let old := readInto bytes buffer
  (le16 old OLD_PARTITION_COUNT ≤ MAX_NUM_PARTITIONS → HeaderPreserved old (convertHeader old heap))
    ∧ convertChecked bytes.length old heap = some (convertRead bytes buffer heap).1

/-- The records that are counted were read, fit the largest header, and nothing more was read. -/
def ConversionFits (bytes : Bytes) (buffer : Image) : Prop :=
  let count := le16 (readInto bytes buffer) OLD_PARTITION_COUNT
  OLD_HEADER_FRONT + count * PARTITION_RECORD ≤ bytes.length
    ∧ HEADER_FRONT + count * PARTITION_RECORD ≤ OKR_HEADER_MAX_SIZE
    ∧ bytes.length ≤ OKR_HEADER_MAX_SIZE

instance (bytes : Bytes) (buffer : Image) : Decidable (ConversionFits bytes buffer) :=
  inferInstanceAs (Decidable (_ ∧ _ ∧ _))

end Okr
