import Okr.Images.Units
import Okr.Lib.BufferRing

/-! The restore with two threads: one reads the image file, the other one writes the disk. -/

namespace Okr

open BufferRing (Buffers advance retreat)

/-- `BUFFER_INFO`, without its flag `datavalid`, which the ring keeps. -/
structure BufferInfo where
  partitionindex : Nat := 0
  ifcompressed : Bool := false
  pointer : Bytes := []
  usedsize : Nat := 0
  deriving DecidableEq, Repr

/-- One partition of the image: its entry in the header, its bitmap and its units in the file. -/
structure PartitionData where
  entry : PartitionInfo
  bitmap : Bytes
  units : List UnitRecord
  deriving DecidableEq, Repr

/-- The image as the restore reads it; the header has room for so many entries only. -/
structure RestoreImage where
  partition : List PartitionData
  compressBlockSize : Nat
  bounded : partition.length ≤ MAX_NUM_PARTITIONS

/-- `totaldatasize`: bytes the units of a partition take in the image file. -/
def unitsSize (entry : PartitionInfo) : Nat := sub64 entry.backupDataSize (bitmapSize entry)

/-- A partition the restore passes over. -/
def PartitionData.skipped (p : PartitionData) : Bool :=
  !p.entry.bIfBackup || p.entry.backupDataSize == 0

/-- `readn`: bytes of data behind the head of a unit. -/
def UnitRecord.readn (record : UnitRecord) : Nat := sub64 record.align_lz4_size LZ4_BUFFER_HEAD_SIZE

/-- The mark of a compressed unit, in one of two spellings. -/
def UnitRecord.compressed (record : UnitRecord) : Bool :=
  record.compress_flag == COMPRESS_MAGIC || record.compress_flag == 0x676a6763

/-- The mark of a unit that was kept, in one of two spellings. -/
def UnitRecord.uncompressed (record : UnitRecord) : Bool :=
  record.compress_flag == UNCOMPRESS_MAGIC || record.compress_flag == 0x676a6762

/-- The checks of a head before its data is read. -/
def UnitRecord.accepted (compressBlockSize : Nat) (record : UnitRecord) : Bool :=
  (record.compressed || record.uncompressed)
    && decide (record.readn ≤ u32 (compressBlockSize + ALGIN_SIZE_BYTE))

/-- `currentdata` once the unit is read. -/
def UnitRecord.after (record : UnitRecord) (currentdata : Nat) : Nat :=
  u64 (currentdata + u32 record.readn + LZ4_BUFFER_HEAD_SIZE)

/-- The buffer a unit of a partition is put into; the index is kept as a byte. -/
def UnitRecord.buffer (record : UnitRecord) (i : Nat) : BufferInfo where
  partitionindex := i % 256
  ifcompressed := record.compressed
  pointer := record.data
  usedsize := record.lz4_size

/-- `DecompressBuffer`: the bytes in `g_lz4_buffer` and `g_lz4_size`, unless that is negative. -/
def decompressBuffer (LZ4_decompress_safe : Bytes → Option Bytes) (buffer : BufferInfo) :
    Option (Bytes × Nat) :=
  if buffer.usedsize ≠ 0 then
    if buffer.ifcompressed then
      match LZ4_decompress_safe (buffer.pointer.take buffer.usedsize) with
      | none => none
      | some out => if out.length = 0 then none else some (out, out.length)
    else some (buffer.pointer.take buffer.usedsize, buffer.usedsize)
  else some ([], 0)

/-- What both threads look at in `g_data` and in the ring. -/
structure SharedData where
  ring : Buffers BufferInfo
  bCompleted : Bool := false
  partition : Option Nat := none
  databitmap : Bytes := []
  partition_write : Option Nat := none

/-- Where `RecoverWithAsyncIo` stands; a unit it has read and a buffer it holds go along. -/
inductive MainPc where
  | next
  | waitWrite
  | waitCompleted
  | setPartition
  | setBitmap
  | nextUnit
  | getProducter (record : UnitRecord)
  | testProducter (record : UnitRecord) (slot : Nat)
  | testCompleted (record : UnitRecord) (slot : Nat)
  | fill (record : UnitRecord) (slot : Nat)
  | publish (record : UnitRecord) (slot : Nat)
  | complete
  | join
  | done (ret : Int)
  | returned (ret : Int)
  deriving DecidableEq, Repr

/-- `RecoverWithAsyncIo` with its variables, and the buffers it has handed over so far. -/
structure MainThread where
  pc : MainPc := .next
  i : Nat := 0
  bitbuffer : Bytes := []
  units : List UnitRecord := []
  currentdata : Nat := 0
  totaldatasize : Nat := 0
  producer : Nat := 0
  published : List BufferInfo := []

/--
One step of `RecoverWithAsyncIo`, which looks at or changes shared data at most once.

`goesOn` says whether the reads, the allocation and the user let the step go on.
The writes to a buffer that is not handed over count as one step.
-/
def MainThread.step (image : RestoreImage) (number : Nat) (goesOn finished : Bool)
    (m : MainThread) (g : SharedData) : MainThread × SharedData :=
  match m.pc with
  | .next =>
    match image.partition[m.i]? with
    | none => ({ m with pc := .complete }, g)
    | some p =>
      if p.skipped then ({ m with i := m.i + 1 }, g)
      else if goesOn then
        ({ m with
            pc := .waitWrite
            bitbuffer := p.bitmap
            units := p.units
            totaldatasize := unitsSize p.entry }, g)
      else ({ m with pc := .done (-1) }, g)
  | .waitWrite =>
    if g.partition ≠ none ∧ g.partition_write ≠ g.partition then
      ({ m with pc := .waitCompleted }, g)
    else ({ m with pc := .setPartition }, g)
  | .waitCompleted =>
    if g.bCompleted then ({ m with pc := .done (-1) }, g) else ({ m with pc := .waitWrite }, g)
  | .setPartition => ({ m with pc := .setBitmap }, { g with partition := some m.i })
  | .setBitmap =>
    ({ m with pc := .nextUnit, currentdata := 0 }, { g with databitmap := m.bitbuffer })
  | .nextUnit =>
    if m.currentdata < m.totaldatasize then
      match m.units with
      | [] => ({ m with pc := .done (-1) }, g)
      | record :: units =>
        if goesOn then ({ m with pc := .getProducter record, units := units }, g)
        else ({ m with pc := .done (-1) }, g)
    else ({ m with pc := .next, i := m.i + 1 }, g)
  | .getProducter record =>
    ({ m with pc := .testProducter record m.producer, producer := advance number m.producer }, g)
  | .testProducter record slot =>
    if g.ring.valid slot then ({ m with pc := .testCompleted record slot }, g)
    else ({ m with pc := .fill record slot }, g)
  | .testCompleted record slot =>
    if g.bCompleted then
      ({ m with pc := .done (-1), producer := retreat number m.producer }, g)
    else ({ m with pc := .testProducter record slot }, g)
  | .fill record slot =>
    if goesOn && record.accepted image.compressBlockSize then
      ({ m with pc := .publish record slot, currentdata := record.after m.currentdata },
        { g with ring := g.ring.fill slot (record.buffer m.i) })
    else ({ m with pc := .done (-1) }, g)
  | .publish _ slot =>
    ({ m with pc := .nextUnit, published := m.published ++ [g.ring.content slot] },
      { g with ring := g.ring.publish slot })
  | .complete => ({ m with pc := .join }, { g with bCompleted := true })
  | .join => if finished then ({ m with pc := .done 0 }, g) else (m, g)
  | .done ret => ({ m with pc := .returned ret }, { g with bCompleted := true })
  | .returned _ => (m, g)

/-- `CONTINUE_RWDISK_INFO`: sectors in a row that wait to be written. -/
structure ContinueInfo where
  sector : Nat := 0
  number : Nat := 0
  buffer : Bytes := []
  deriving DecidableEq, Repr

/-- A call of `DiskWrite`, and whether it succeeded. -/
structure DiskCall where
  sector : Nat
  count : Nat
  buffer : Bytes
  succeeded : Bool
  deriving DecidableEq, Repr

/-- A buffer the thread has taken, with the partition and the bitmap it held, and its data. -/
structure Taken where
  buffer : BufferInfo
  partition : Option Nat
  bitbuffer : Bytes
  data : Option (Bytes × Nat)
  deriving DecidableEq, Repr

/--
Where `DiskWriteThread` stands; a buffer it holds and data it has to write go along.

`smartDiskIo` and `flush` are inside `SmartDiskIo`, with the request it was called with.
What is left of the unit goes along too; the call behind the loop has nothing left.
-/
inductive WritePc where
  | getConsumer
  | testConsumer (slot : Nat)
  | testCompleted (slot : Nat)
  | readIndex (slot : Nat)
  | readPartition (slot : Nat)
  | readBitmap (slot : Nat)
  | setWrite (slot : Nat)
  | decompress (slot : Nat)
  | clear (slot : Nat) (data : Option (Bytes × Nat))
  | block (data : Bytes × Nat)
  | smartDiskIo (request : ContinueInfo) (rest : Option (Bytes × Nat))
  | flush (request : ContinueInfo) (rest : Option (Bytes × Nat))
  | leave
  | finished
  deriving DecidableEq, Repr

/-- `DiskWriteThread` with its variables, the buffers it has taken and its calls so far. -/
structure WriteThread where
  pc : WritePc := .getConsumer
  partition : Option Nat := none
  bitbuffer : Bytes := []
  currentblock : Nat := 0
  info : ContinueInfo := {}
  consumer : Nat := 0
  consumed : List Taken := []
  calls : List DiskCall := []

/-- The header's entry a pointer of the thread leads to. -/
def RestoreImage.entry (image : RestoreImage) (partition : Option Nat) : PartitionInfo :=
  ((partition.bind fun i => image.partition[i]?).map (·.entry)).getD {}

/-- Where the thread goes on after a call of `SmartDiskIo`. -/
def WritePc.after : Option (Bytes × Nat) → WritePc
  | none => .getConsumer
  | some data => .block data

/-- The request for the current block: fewer sectors for the last block of the partition. -/
def blockRequest (entry : PartitionInfo) (currentblock : Nat) (p : Bytes) : ContinueInfo where
  sector := u64 (currentblock * BLOCK_SIZE + entry.bootBegin)
  number :=
    if currentblock = maxblock entry - 1 then
      u32 (sub64 entry.totalSectors (currentblock * BLOCK_SIZE))
    else BLOCK_SIZE
  buffer := p

/-- One round of the loop of `DiskWriteThread` over the blocks of a partition. -/
def WriteThread.block (entry : PartitionInfo) (w : WriteThread) (p : Bytes) (number : Nat) :
    WriteThread :=
  if number = 0 ∨ w.currentblock ≥ maxblock entry then { w with pc := .smartDiskIo {} none }
  else if readBit w.currentblock w.bitbuffer then
    { w with
      pc := .smartDiskIo (blockRequest entry w.currentblock p)
        (some (p.drop (BLOCK_SIZE * SECTOR_SIZE), sub64 number (BLOCK_SIZE * SECTOR_SIZE)))
      currentblock := w.currentblock + 1 }
  else { w with pc := .block (p, number), currentblock := w.currentblock + 1 }

/-- The start of `SmartDiskIo`: a request that continues the last one is put behind it. -/
def WriteThread.smartDiskIo (w : WriteThread) (request : ContinueInfo)
    (rest : Option (Bytes × Nat)) : WriteThread :=
  if w.info.number = 0 then { w with pc := .after rest, info := request }
  else if request.number ≠ 0 ∧ request.sector = u64 (w.info.sector + w.info.number) then
    { w with
      pc := .after rest
      info := { w.info with number := u32 (w.info.number + request.number) } }
  else { w with pc := .flush request rest }

/-- One round of the loop of `SmartDiskIo`, which a failed call ends. -/
def WriteThread.flush (answer : Bool) (w : WriteThread) (request : ContinueInfo)
    (rest : Option (Bytes × Nat)) : WriteThread :=
  if w.info.number = 0 then { w with pc := .after rest, info := request }
  else
    let count := min w.info.number 2048
    let w : WriteThread :=
      { w with calls := w.calls ++ [⟨w.info.sector, count, w.info.buffer, answer⟩] }
    if answer then
      { w with
        info :=
          { sector := u64 (w.info.sector + count)
            number := w.info.number - count
            buffer := w.info.buffer.drop (count * SECTOR_SIZE) } }
    else { w with pc := .after rest, info := request }

/--
One step of `DiskWriteThread`, which looks at or changes shared data at most once.

`answer` is the answer of the disk, where the step writes to it.
The reads of a buffer that was handed over count as one step.
-/
def WriteThread.step (image : RestoreImage) (number : Nat)
    (LZ4_decompress_safe : Bytes → Option Bytes) (answer : Bool) (w : WriteThread)
    (g : SharedData) : WriteThread × SharedData :=
  match w.pc with
  | .getConsumer =>
    ({ w with pc := .testConsumer w.consumer, consumer := advance number w.consumer }, g)
  | .testConsumer slot =>
    if g.ring.valid slot then ({ w with pc := .readIndex slot }, g)
    else ({ w with pc := .testCompleted slot }, g)
  | .testCompleted slot =>
    if g.bCompleted then ({ w with pc := .leave, consumer := retreat number w.consumer }, g)
    else ({ w with pc := .testConsumer slot }, g)
  | .readIndex slot =>
    if w.partition ≠ some (g.ring.content slot).partitionindex then
      ({ w with pc := .readPartition slot }, g)
    else ({ w with pc := .decompress slot }, g)
  | .readPartition slot => ({ w with pc := .readBitmap slot, partition := g.partition }, g)
  | .readBitmap slot => ({ w with pc := .setWrite slot, bitbuffer := g.databitmap }, g)
  | .setWrite slot =>
    ({ w with pc := .decompress slot, currentblock := 0, info := {} },
      { g with partition_write := w.partition })
  | .decompress slot =>
    ({ w with pc := .clear slot (decompressBuffer LZ4_decompress_safe (g.ring.content slot)) }, g)
  | .clear slot data =>
    ({ w with
        pc := match data with | none => .leave | some data => .block data
        consumed := w.consumed ++ [⟨g.ring.content slot, w.partition, w.bitbuffer, data⟩] },
      { g with ring := g.ring.clear slot })
  | .block data => (w.block (image.entry w.partition) data.1 data.2, g)
  | .smartDiskIo request rest => (w.smartDiskIo request rest, g)
  | .flush request rest => (w.flush answer request rest, g)
  | .leave => ({ w with pc := .finished }, { g with bCompleted := true })
  | .finished => (w, g)

/-- The restore: the image, the number of buffers in the ring and the decompression. -/
structure AsyncRestore where
  image : RestoreImage
  number : Nat
  number_pos : 0 < number
  LZ4_decompress_safe : Bytes → Option Bytes

/-- Both threads and what they share. -/
structure AsyncState where
  main : MainThread := {}
  write : WriteThread := {}
  shared : SharedData

/-- A step of one of the threads, with what comes to it from outside. -/
inductive AsyncAction where
  | main (goesOn : Bool)
  | write (answer : Bool)
  deriving DecidableEq, Repr

/-- Any of the threads may take the next step. -/
def AsyncRestore.step (r : AsyncRestore) (s : AsyncState) : AsyncAction → AsyncState
  | .main goesOn =>
    let after := s.main.step r.image r.number goesOn (s.write.pc == .finished) s.shared
    { s with main := after.1, shared := after.2 }
  | .write answer =>
    let after := s.write.step r.image r.number r.LZ4_decompress_safe answer s.shared
    { s with write := after.1, shared := after.2 }

/-- The start: `Clean_BufferArray` has run, and `StartAP` has started the thread. -/
def AsyncState.start : AsyncState where
  shared := { ring := { valid := fun _ => false, content := fun _ => {} } }

/--
The units of one partition: heads follow one another until its data is used up.

There is no result when the file ends before, or when a head does not pass the checks.
-/
def unitsOf (compressBlockSize i total : Nat) : Nat → List UnitRecord → Option (List BufferInfo)
  | currentdata, [] => if currentdata < total then none else some []
  | currentdata, record :: units =>
    if currentdata < total then
      if record.accepted compressBlockSize then
        (unitsOf compressBlockSize i total (record.after currentdata) units).map
          (record.buffer i :: ·)
      else none
    else some []

/-- The units of the backed-up partitions, of which the first one has the index `i`. -/
def unitsFrom (compressBlockSize i : Nat) : List PartitionData → Option (List BufferInfo)
  | [] => some []
  | p :: ps =>
    if p.skipped then unitsFrom compressBlockSize (i + 1) ps
    else
      (unitsOf compressBlockSize i (unitsSize p.entry) 0 p.units).bind fun units =>
        (unitsFrom compressBlockSize (i + 1) ps).map (units ++ ·)

/-- The units of the image in the order of the file, when all of it can be read. -/
def RestoreImage.units (image : RestoreImage) : Option (List BufferInfo) :=
  unitsFrom image.compressBlockSize 0 image.partition

/-- The partitions the restore does not pass over. -/
def RestoreImage.backedUp (image : RestoreImage) : List Nat :=
  (List.range image.partition.length).filter fun i =>
    image.partition[i]?.any fun p => !p.skipped

/-- The bitmap the image has for a partition. -/
def RestoreImage.bitmap (image : RestoreImage) (i : Nat) : Bytes :=
  (image.partition[i]?.map (·.bitmap)).getD []

end Okr
