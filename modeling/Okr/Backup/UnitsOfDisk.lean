import Okr.Base.Memory
import Okr.Images.Units

/-! What a backup reads of the disk, compresses and writes, alone or with two threads. -/

namespace Okr

/-- The largest size `LZ4_compress` promises for its output. -/
def LZ4_COMPRESSBOUND (isize : Nat) : Nat := if isize > 0x7E000000 then 0 else isize + isize / 255 + 16

/--
`CompressBuffer` for a buffer with data, as the bytes it leaves in `g_lz4_buffer`.

`LZ4_compress` returns no bytes where it fails.
The bytes between the data and the rounded size are left out, since nothing reads them.
-/
def compressBuffer (LZ4_compress : Bytes → Bytes) (compressBlockSize : Nat) (data : Bytes) :
    Option UnitRecord :=
  let out := LZ4_compress data
  if out.length = 0 then none
  else
    let larger := out.length > data.length
    let kept := if larger then data else out
    let aligned := calcAliginSize (kept.length + LZ4_BUFFER_HEAD_SIZE)
    if u32 aligned
        > LZ4_COMPRESSBOUND compressBlockSize + LZ4_BUFFER_HEAD_SIZE + ALGIN_SIZE_BYTE then none
    else some ⟨if larger then UNCOMPRESS_MAGIC else COMPRESS_MAGIC, kept.length, aligned, kept⟩

/-- Bytes in a block of a partition. -/
def BLOCK_BYTES : Nat := BLOCK_SIZE * SECTOR_SIZE

/--
The rounds of a loop that reads the marked blocks into a buffer, from `currentblock` on.

`full` is the loop's test of `readn` after a block; what is read and where the loop stops come out.
The reads `SmartDiskIo` puts off and joins are all made when the loop is over.
-/
def readBlocks (full : Nat → Bool) (bitmap : Bytes) : Nat → Nat → Nat → List Nat × Nat
  | 0, currentblock, _ => ([], currentblock)
  | left + 1, currentblock, readn =>
    if readBit currentblock bitmap then
      if full (readn + BLOCK_BYTES) then ([currentblock], currentblock + 1)
      else
        let rest := readBlocks full bitmap left (currentblock + 1) (readn + BLOCK_BYTES)
        (currentblock :: rest.1, rest.2)
    else readBlocks full bitmap left (currentblock + 1) readn

/-- The bytes of blocks of a partition, one block after the other. -/
def blockData (disk : Image) (p : PartitionInfo) (blocks : List Nat) : Bytes :=
  blocks.flatMap fun b =>
    bytesAt disk (u64 (b * BLOCK_SIZE + p.bootBegin) * SECTOR_SIZE) BLOCK_BYTES

/-- What a backup writes to the image file behind its header. -/
inductive FileItem where
  | bitmap (bytes : Bytes)
  | unit (record : UnitRecord)
  deriving DecidableEq, Repr

/-- What a backup leaves: the file, and what it sets in the header's entries of the partitions. -/
structure BackupImage where
  items : List FileItem := []
  backupDataSize : List (Nat × Nat) := []
  notBackedUp : List Nat := []
  deriving DecidableEq, Repr

/--
A backup of a disk, whose program has multiple threads enabled.

The scan of a partition leaves its bitmap in a cleared buffer, or fails.
The size of a buffer is a whole number of blocks, as `Init_BufferArray` chooses it.
-/
structure BackupJob where
  disk : Image
  partitions : List PartitionInfo
  ScanPartitionData : Nat → Option Bytes
  LZ4_compress : Bytes → Bytes
  number : Nat
  number_ge : 2 ≤ number
  blocksPerBuffer : Nat
  blocksPerBuffer_pos : 0 < blocksPerBuffer

/-- A ring of a program with multiple threads has buffers. -/
theorem BackupJob.number_pos (b : BackupJob) : 0 < b.number :=
  Nat.lt_of_lt_of_le Nat.two_pos b.number_ge

/-- Bytes in one buffer. -/
def BackupJob.totalsize (b : BackupJob) : Nat := b.blocksPerBuffer * BLOCK_BYTES

/-- The unit some blocks of a partition are compressed to. -/
def BackupJob.compress (b : BackupJob) (p : PartitionInfo) (blocks : List Nat) : Option UnitRecord :=
  compressBuffer b.LZ4_compress b.totalsize (blockData b.disk p blocks)

end Okr
