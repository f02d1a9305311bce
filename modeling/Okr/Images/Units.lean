import Okr.Scan.Scan

/-! How a partition stands in an image file: its bitmap, and units of data behind heads. -/

namespace Okr

/-- The marks of a compressed unit and of one that is kept as it is. -/
def COMPRESS_MAGIC : Nat := 0x65617a63
def UNCOMPRESS_MAGIC : Nat := 0x7370786e

/-- Bytes in a `lZ4_BUFFER_HEAD`. -/
def LZ4_BUFFER_HEAD_SIZE : Nat := 16

/-- `CalcAliginSize`: a size rounded up to whole multiples. -/
def calcAliginSize (num : Nat) : Nat :=
  (num + ALGIN_SIZE_BYTE - 1) / ALGIN_SIZE_BYTE * ALGIN_SIZE_BYTE

/-- `lZ4_BUFFER_HEAD`, and the data behind it in the image file. -/
structure UnitRecord where
  compress_flag : Nat
  lz4_size : Nat
  align_lz4_size : Nat
  data : Bytes
  deriving DecidableEq, Repr

/-- Blocks of a partition, a bit for each in the bitmap. -/
def maxblock (entry : PartitionInfo) : Nat := u64 (entry.totalSectors + BLOCK_SIZE - 1) / BLOCK_SIZE

/-- Bytes the bitmap of a partition takes in the image file. -/
def bitmapSize (entry : PartitionInfo) : Nat := calcAliginSize ((maxblock entry + 7) / 8)

end Okr
