import Okr.Backup.UnitsOfDisk
import Okr.Base.SmartDiskIo
import Okr.Lib.Loop
import Okr.Restore.AsyncRestore

/-! The loop of `Recover` that reads, decompresses and writes the partitions of an image. -/

namespace Okr

open BufferRing (Buffers)
open Loop (Pass)

/-- `BUFFER_INFO`, without its flag `datavalid`, which the ring keeps. -/
structure RecoverBuffer where
  ifcompressed : Bool := false
  pointer : Image := fun _ => 0
  usedsize : Nat := 0

/--
A restore: the header's entries, the open image file, and all that answers from outside.

`FileRead` gives the bytes at a position of the file, fewer of them at its end, or fails.
With multiple threads `Init_BufferArray` leaves more than one buffer.
-/
structure RecoverJob where
  partitions : List PartitionInfo
  dataOffset : Nat
  FileRead : Nat → Nat → Option Bytes
  compressBlockSize : Nat
  totalsize : Nat
  number : Nat
  number_ge : 2 ≤ number
  g_lz4_buffer : Nat
  LZ4_decompress_safe : Bytes → Option Bytes
  recoverDiskNumber : Nat
  device : DiskDevice
  userBreak : Nat → Bool
  needlimit : Bool
  curImageSyspartitionsize : Nat

/-- The variables of the loop, the memory it writes from, and the disk it writes to. -/
structure RecoverState where
  ring : Buffers RecoverBuffer
  producer : Nat := 0
  consumer : Nat := 0
  filepos : Nat
  lz4_buffer_head : Image
  currentdata : Nat := 0
  currentblock : Nat := 0
  breaks : Nat := 0
  memory : Image
  info : ContinueRwdiskInfo
  log : DiskLog := []
  disk : Image

/-- The head that was read last. -/
def RecoverState.head (s : RecoverState) : UnitRecord where
  compress_flag := le32 s.lz4_buffer_head 0
  lz4_size := le32 s.lz4_buffer_head 4
  align_lz4_size := le32 s.lz4_buffer_head 8
  data := []

/-- The data of a unit comes into a buffer, if its head passes the checks. -/
def RecoverJob.readData (j : RecoverJob) (buffer : RecoverBuffer) (s : RecoverState) :
    Option (RecoverBuffer × RecoverState) :=
  if s.head.accepted j.compressBlockSize ∧ s.head.lz4_size ≤ j.totalsize then
    match j.FileRead s.filepos s.head.readn with
    | none => none
    | some bytes =>
      if bytes.length = s.head.readn then
        some
          ({ ifcompressed := s.head.compressed
             pointer := putBytes buffer.pointer 0 bytes
             usedsize := s.head.lz4_size },
            { s with
              filepos := s.filepos + bytes.length
              currentdata := u64 (s.currentdata + s.head.align_lz4_size) })
      else none
  else none

/-- A unit comes into a buffer, or nothing once the data of the partition or the file has ended. -/
def RecoverJob.readUnit (j : RecoverJob) (totaldatasize : Nat) (buffer : RecoverBuffer)
    (s : RecoverState) : Option (RecoverBuffer × RecoverState) :=
  if s.currentdata < totaldatasize then
    match j.FileRead s.filepos LZ4_BUFFER_HEAD_SIZE with
    | none => none
    | some bytes =>
      let s :=
        { s with
          filepos := s.filepos + bytes.length
          lz4_buffer_head := putBytes s.lz4_buffer_head 0 bytes }
      if bytes = [] then some ({ buffer with usedsize := 0 }, s) else j.readData buffer s
  else some ({ buffer with usedsize := 0 }, s)

/-- `DecompressBuffer` on the memory of a buffer. -/
def RecoverJob.decompress (j : RecoverJob) (buffer : RecoverBuffer) : Option (Bytes × Nat) :=
  decompressBuffer j.LZ4_decompress_safe
    { ifcompressed := buffer.ifcompressed
      pointer := bytesAt buffer.pointer 0 buffer.usedsize
      usedsize := buffer.usedsize }

/-- What `SmartDiskIo` is asked for a block; the last block of a partition may have fewer sectors. -/
def writeRequest (p : PartitionInfo) (currentblock pointer : Nat) : DiskRequest where
  sector := u64 (currentblock * BLOCK_SIZE + p.bootBegin)
  number :=
    if currentblock = maxblock p - 1 then u32 (sub64 p.totalSectors (currentblock * BLOCK_SIZE))
    else BLOCK_SIZE
  buffer := pointer

/-- A block that a smaller disk has no room for. -/
def RecoverJob.limited (j : RecoverJob) (p : PartitionInfo) (currentblock : Nat) : Bool :=
  j.needlimit && p.hasWindows && decide (u64 (j.curImageSyspartitionsize + 1) ≤ currentblock)

/-- A call of `SmartDiskIo`. -/
def RecoverJob.call (j : RecoverJob) (r : DiskRequest) (s : RecoverState) : Bool × RecoverState :=
  let answer := smartDiskIo j.device s.info s.log r
  (answer.1, { s with info := answer.2.1, log := answer.2.2 })

/--
The loop that finds the block of the partition for each block of the data, and whether it got through.

`left` is the number of blocks of the partition from the current one on.
-/
def RecoverJob.writeBlocks (j : RecoverJob) (p : PartitionInfo) (bitmap : Bytes) :
    Nat → Nat → Nat → RecoverState → Bool × RecoverState
  | 0, datasize, _, s => (datasize == 0, s)
  | left + 1, datasize, pointer, s =>
    let after := { s with currentblock := s.currentblock + 1 }
    if datasize = 0 then (true, s)
    else if readBit s.currentblock bitmap then
      let datasize := sub64 datasize BLOCK_BYTES
      if j.limited p s.currentblock then
        j.writeBlocks p bitmap left datasize (pointer + BLOCK_BYTES) after
      else
        match j.call (writeRequest p s.currentblock pointer) after with
        | (true, after) => j.writeBlocks p bitmap left datasize (pointer + BLOCK_BYTES) after
        | (false, after) => (false, after)
    else j.writeBlocks p bitmap left datasize pointer after

/-- What transfers from memory leave of a disk; one that fails leaves it as it is. -/
def writeTransfers (memory : Image) (log : DiskLog) (disk : Image) : Image :=
  log.foldl
    (fun disk entry =>
      if entry.2 then diskWrite disk entry.1.sector entry.1.number fun a => memory (u64 (entry.1.buffer + a))
      else disk)
    disk

/-- The data of a unit is written, and what `SmartDiskIo` has put off. -/
def RecoverJob.writeUnit (j : RecoverJob) (p : PartitionInfo) (bitmap : Bytes) (g_lz4_size : Nat)
    (s : RecoverState) : Bool × RecoverState :=
  let blocks := j.writeBlocks p bitmap (maxblock p - s.currentblock) g_lz4_size j.g_lz4_buffer s
  let flushed := if blocks.1 then j.call flushRequest blocks.2 else blocks
  (flushed.1,
    { flushed.2 with disk := writeTransfers s.memory (flushed.2.log.drop s.log.length) s.disk })

/-- What a round does with the data in `g_lz4_buffer`: it ends the loop, or goes on. -/
def RecoverJob.endRound (j : RecoverJob) (p : PartitionInfo) (bitmap : Bytes)
    (decompressed : Option (Bytes × Nat)) (s : RecoverState) :
    Pass RecoverState (Option (Bool × RecoverState)) :=
  if j.userBreak s.breaks then .done (some (false, s))
  else
    match decompressed with
    | none => .done (some (false, s))
    | some (data, g_lz4_size) =>
      let s := { s with breaks := s.breaks + 1, memory := putBytes s.memory j.g_lz4_buffer data }
      if g_lz4_size = 0 then .done (some (true, s))
      else if g_lz4_size > 8 then
        match j.writeUnit p bitmap g_lz4_size s with
        | (true, s) => .next s
        | (false, s) => .done (some (false, s))
      else .next s

/-- The buffers `GetProducter` and `GetConsumerAnyway` look at. -/
def RecoverState.slot (bMultiThread : Bool) (s : RecoverState) : Nat :=
  if bMultiThread then s.producer else 0
def RecoverState.taken (bMultiThread : Bool) (s : RecoverState) : Nat :=
  if bMultiThread then s.consumer else 0

/-- With multiple threads the indices go on. -/
def RecoverJob.advance (j : RecoverJob) (bMultiThread : Bool) (index : Nat) : Nat :=
  if bMultiThread then BufferRing.advance j.number index else index

/--
One round of the `while (1)` loop, which ends with whether the partition is complete.

With multiple threads the buffer of the round before is decompressed while the next one is read;
`g_lz4_size` stays 8 where there is none.
Nothing comes out when `GetProducter` waits for a buffer that nobody gives back.
-/
def RecoverJob.syncRound (j : RecoverJob) (bMultiThread : Bool) (p : PartitionInfo) (bitmap : Bytes)
    (totaldatasize : Nat) (s : RecoverState) : Pass RecoverState (Option (Bool × RecoverState)) :=
  let slot := s.slot bMultiThread
  let taken := s.taken bMultiThread
  if j.userBreak s.breaks then .done (some (false, s))
  else if s.ring.valid slot then .done none
  else
    match j.readUnit totaldatasize (s.ring.content slot) { s with breaks := s.breaks + 1 } with
    | none => .done (some (false, s))
    | some (buffer, after) =>
      let ring := (s.ring.fill slot buffer).publish slot
      let after := { after with ring := ring, producer := j.advance bMultiThread s.producer }
      if bMultiThread && !s.ring.valid taken then j.endRound p bitmap (some ([], 8)) after
      else
        j.endRound p bitmap (j.decompress (ring.content taken))
          { after with ring := ring.clear taken, consumer := j.advance bMultiThread s.consumer }

/-- `Clean_BufferArray` and `SmartDiskIoInit`, behind the bitmap of a partition. -/
def RecoverJob.clean (j : RecoverJob) (bitmap : Bytes) (s : RecoverState) : RecoverState :=
  { s with
    ring :=
      { valid := fun _ => false
        content := fun slot => { s.ring.content slot with usedsize := 0 } }
    producer := 0
    consumer := 0
    filepos := s.filepos + bitmap.length
    currentdata := 0
    currentblock := 0
    info := smartDiskIoInit (j.recoverDiskNumber % 256) .write }

/-- One partition: it is passed over, or its bitmap is read and the loop runs. -/
def RecoverJob.syncPartition (j : RecoverJob) (bMultiThread : Bool) (rounds : Nat)
    (p : PartitionInfo) (s : RecoverState) : Option (Bool × RecoverState) :=
  if !p.bIfBackup || p.backupDataSize == 0 then some (true, s)
  else
    match j.FileRead s.filepos (bitmapSize p) with
    | none => some (false, s)
    | some bitmap =>
      if bitmap.length = bitmapSize p then
        (Loop.run (j.syncRound bMultiThread p bitmap (unitsSize p)) rounds (j.clean bitmap s)).join
      else some (false, s)

/-- The loop over the partitions. -/
def RecoverJob.syncFrom (j : RecoverJob) (bMultiThread : Bool) (rounds : Nat) :
    List PartitionInfo → RecoverState → Option (Bool × RecoverState)
  | [], s => some (true, s)
  | p :: ps, s =>
    match j.syncPartition bMultiThread rounds p s with
    | some (true, s) => j.syncFrom bMultiThread rounds ps s
    | some (false, s) => some (false, s)
    | none => none

/-- What the memory of the program holds before the loop: it is not cleared. -/
structure RecoverMemory where
  buffers : Nat → RecoverBuffer
  lz4_buffer_head : Image
  memory : Image

/-- Where the loop over the partitions starts. -/
def RecoverJob.start (j : RecoverJob) (before : RecoverMemory) (disk : Image) : RecoverState where
  ring := { valid := fun _ => false, content := before.buffers }
  filepos := j.dataOffset
  lz4_buffer_head := before.lz4_buffer_head
  memory := before.memory
  info := smartDiskIoInit (j.recoverDiskNumber % 256) .write
  disk := disk

/-- `Recover` without the second thread for the disk; nothing when its loop never ends. -/
def RecoverJob.sync (j : RecoverJob) (bMultiThread : Bool) (rounds : Nat) (before : RecoverMemory)
    (disk : Image) : Option (Bool × RecoverState) :=
  j.syncFrom bMultiThread rounds j.partitions (j.start before disk)

end Okr
