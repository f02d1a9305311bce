import Okr.Backup.UnitsOfDisk
import Okr.Base.SmartDiskIo
import Okr.Lib.BufferRing

/-! The loop of `Backup` that reads, compresses and writes the partitions of a disk. -/

namespace Okr

open BufferRing (Buffers advance)

/-- The variables of the loop for one partition; a buffer is the blocks read into it. -/
structure SyncState where
  ring : Buffers (List Nat)
  producer : Nat := 0
  consumer : Nat := 0
  currentblock : Nat := 0
  written : List UnitRecord := []

/-- `Clean_BufferArray`, and the variables at the start of a partition. -/
def SyncState.start : SyncState where
  ring := { valid := fun _ => false, content := fun _ => [] }

/-- What is compressed is written, unless it was empty or could not be compressed. -/
def BackupJob.writeCompressed (b : BackupJob) (p : PartitionInfo) (blocks : List Nat)
    (s : SyncState) : SyncState × Bool :=
  if blocks = [] then (s, true)
  else
    match b.compress p blocks with
    | none => (s, true)
    | some record => ({ s with written := s.written ++ [record] }, false)

/-- The marked blocks that fit into the buffer, and the block behind them. -/
def BackupJob.syncRead (b : BackupJob) (p : PartitionInfo) (bitmap : Bytes) (currentblock : Nat) :
    List Nat × Nat :=
  readBlocks (fun readn => readn == b.totalsize) bitmap (maxblock p - currentblock) currentblock 0

/--
One round of the `while (1)` loop, and whether it was the last one.

With multiple threads the buffer of the round before is compressed while the next one is read.
Nothing comes out when `GetProducter` waits for a buffer that nobody gives back.
-/
def BackupJob.syncRound (b : BackupJob) (bMultiThread : Bool) (p : PartitionInfo) (bitmap : Bytes)
    (s : SyncState) : Option (SyncState × Bool) :=
  if bMultiThread then
    let started := s.ring.valid s.consumer
    let slot := s.producer
    if s.ring.valid slot then none
    else
      let read := b.syncRead p bitmap s.currentblock
      let after : SyncState :=
        { s with
          ring := (s.ring.fill slot read.1).publish slot
          producer := advance b.number slot
          currentblock := read.2 }
      if started then
        some (b.writeCompressed p (s.ring.content s.consumer)
          { after with
            ring := after.ring.clear s.consumer
            consumer := advance b.number s.consumer })
      else some (after, false)
  else if s.ring.valid 0 then none
  else
    let read := b.syncRead p bitmap s.currentblock
    some (b.writeCompressed p read.1
      { s with
        ring := ((s.ring.fill 0 read.1).publish 0).clear 0
        currentblock := read.2 })

/-- The rounds of the loop until the last one. -/
def BackupJob.syncRounds (b : BackupJob) (bMultiThread : Bool) (p : PartitionInfo)
    (bitmap : Bytes) : Nat → SyncState → Option SyncState
  | 0, _ => none
  | rounds + 1, s =>
    match b.syncRound bMultiThread p bitmap s with
    | none => none
    | some (after, true) => some after
    | some (after, false) => b.syncRounds bMultiThread p bitmap rounds after

/-- What `SmartDiskIo` is asked for a block. -/
def readRequest (p : PartitionInfo) (pointer currentblock : Nat) : DiskRequest where
  sector := u64 (currentblock * BLOCK_SIZE + p.bootBegin)
  number := BLOCK_SIZE
  buffer := pointer

/-- What it is asked for blocks, which come into a buffer one after the other. -/
def readRequests (p : PartitionInfo) (pointer : Nat) (blocks : List Nat) : List DiskRequest :=
  blocks.mapIdx fun k currentblock => readRequest p (pointer + k * BLOCK_BYTES) currentblock

/-- What one round asks for; `pointers` are the addresses of the buffers. -/
def BackupJob.roundRequests (b : BackupJob) (pointers : Nat → Nat) (bMultiThread : Bool)
    (p : PartitionInfo) (bitmap : Bytes) (s : SyncState) : List DiskRequest :=
  readRequests p (pointers (if bMultiThread then s.producer else 0))
    (b.syncRead p bitmap s.currentblock).1

/-- What the rounds of the loop ask for until the last one. -/
def BackupJob.syncRequests (b : BackupJob) (pointers : Nat → Nat) (bMultiThread : Bool)
    (p : PartitionInfo) (bitmap : Bytes) : Nat → SyncState → List DiskRequest
  | 0, _ => []
  | rounds + 1, s =>
    match b.syncRound bMultiThread p bitmap s with
    | none => []
    | some (_, true) => b.roundRequests pointers bMultiThread p bitmap s
    | some (after, false) =>
      b.roundRequests pointers bMultiThread p bitmap s
        ++ b.syncRequests pointers bMultiThread p bitmap rounds after

/-- One partition: nothing of it is written when its scan fails. -/
def BackupJob.syncPartition (b : BackupJob) (bMultiThread : Bool) (rounds i : Nat)
    (p : PartitionInfo) : Option (List FileItem × Nat) :=
  match b.ScanPartitionData i with
  | none => some ([], 0)
  | some bitmap =>
    (b.syncRounds bMultiThread p bitmap rounds .start).map fun s =>
      (.bitmap bitmap :: s.written.map .unit,
        bitmapSize p + (s.written.map (·.align_lz4_size)).sum)

/-- The loop over the partitions, of which the first one has the index `i`. -/
def BackupJob.syncFrom (b : BackupJob) (bMultiThread : Bool) (rounds : Nat) :
    Nat → List PartitionInfo → Option BackupImage
  | _, [] => some {}
  | i, p :: ps =>
    if !p.bIfBackup then b.syncFrom bMultiThread rounds (i + 1) ps
    else
      match b.syncPartition bMultiThread rounds i p with
      | none => none
      | some (items, size) =>
        (b.syncFrom bMultiThread rounds (i + 1) ps).map fun rest =>
          { rest with
            items := items ++ rest.items
            backupDataSize := (i, size) :: rest.backupDataSize }

/-- `Backup` without the second thread for the disk; nothing when its loop never ends. -/
def BackupJob.sync (b : BackupJob) (bMultiThread : Bool) (rounds : Nat) : Option BackupImage :=
  b.syncFrom bMultiThread rounds 0 b.partitions

end Okr
