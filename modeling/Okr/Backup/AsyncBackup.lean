import Okr.Backup.UnitsOfDisk
import Okr.Lib.BufferRing

/-! The backup with two threads: one reads and compresses the disk, the other one writes the file. -/

namespace Okr

open BufferRing (Buffers advance retreat)

/-- `BUFFER_INFO` as the backup uses it: a compressed unit, and the size it had before. -/
structure BackupBuffer where
  srcsize : Nat := 0
  usedsize : Nat := 0
  unit : UnitRecord := ⟨0, 0, 0, []⟩
  deriving DecidableEq, Repr

/-- What both threads look at in `g_data`, in the table of partitions and in the ring. -/
structure BackupShared where
  ring : Buffers BackupBuffer
  bCompleted : Bool := false
  bitmapValid : Nat → Nat := fun _ => 0
  partition : Option Nat := none
  partition_write : Option Nat := none
  databitmap : Bytes := []
  g_lz4_size : Int := 0
  backupDataSize : List (Nat × Nat) := []

/-- Where `DiskReadThread` stands; a buffer it holds and what it has read go along. -/
inductive ReadPc where
  | next
  | waitWrite
  | waitCompleted
  | checkCompleted
  | clearBitmap
  | scan
  | setBitmapValid
  | setPartition
  | nextUnit
  | getProducter
  | testProducter (slot : Nat)
  | testCompleted (slot : Nat)
  | readUnit (slot : Nat)
  | compress (slot : Nat) (blocks : List Nat)
  | fill (slot : Nat) (readn : Nat) (unit : UnitRecord)
  | publish (slot : Nat) (filled : Bool)
  | leave
  | finished
  deriving DecidableEq, Repr

/-- `DiskReadThread` with its variables, and the buffers it has handed over so far. -/
structure ReadThread where
  pc : ReadPc := .next
  i : Nat := 0
  currentblock : Nat := 0
  producer : Nat := 0
  published : List BackupBuffer := []

/-- The marked blocks that fit into the buffer, and the block behind them. -/
def BackupJob.asyncRead (b : BackupJob) (p : PartitionInfo) (bitmap : Bytes) (currentblock : Nat) :
    List Nat × Nat :=
  readBlocks (fun readn => decide (readn + BLOCK_BYTES > b.totalsize)) bitmap
    (maxblock p - currentblock) currentblock 0

/-- The table's entry of a partition. -/
def BackupJob.entry (b : BackupJob) (i : Nat) : PartitionInfo := b.partitions[i]?.getD {}

/--
One step of `DiskReadThread`, which looks at or changes shared data at most once.

The reads from the disk, and the writes to a buffer that is not handed over, count as one step.
So do the two assignments for a partition whose scan fails.
-/
def ReadThread.step (b : BackupJob) (t : ReadThread) (g : BackupShared) :
    ReadThread × BackupShared :=
  match t.pc with
  | .next =>
    match b.partitions[t.i]? with
    | none => ({ t with pc := .leave }, g)
    | some p =>
      if !p.bIfBackup then ({ t with i := t.i + 1 }, g) else ({ t with pc := .waitWrite }, g)
  | .waitWrite =>
    if g.partition ≠ none ∧ g.partition_write ≠ g.partition then
      ({ t with pc := .waitCompleted }, g)
    else ({ t with pc := .checkCompleted }, g)
  | .waitCompleted =>
    if g.bCompleted then ({ t with pc := .checkCompleted }, g) else ({ t with pc := .waitWrite }, g)
  | .checkCompleted =>
    if g.bCompleted then ({ t with pc := .leave }, g) else ({ t with pc := .clearBitmap }, g)
  | .clearBitmap =>
    ({ t with pc := .scan },
      { g with databitmap := List.replicate ((maxblock (b.entry t.i) + 7) / 8) 0 })
  | .scan =>
    match b.ScanPartitionData t.i with
    | none =>
      ({ t with pc := .next, i := t.i + 1 },
        { g with
          backupDataSize := g.backupDataSize ++ [(t.i, 0)]
          bitmapValid := Function.update g.bitmapValid t.i 0xff })
    | some bitmap => ({ t with pc := .setBitmapValid }, { g with databitmap := bitmap })
  | .setBitmapValid =>
    ({ t with pc := .setPartition },
      { g with bitmapValid := Function.update g.bitmapValid t.i 1 })
  | .setPartition =>
    ({ t with pc := .nextUnit, currentblock := 0 }, { g with partition := some t.i })
  | .nextUnit =>
    if t.currentblock < maxblock (b.entry t.i) then ({ t with pc := .getProducter }, g)
    else ({ t with pc := .next, i := t.i + 1 }, g)
  | .getProducter =>
    ({ t with pc := .testProducter t.producer, producer := advance b.number t.producer }, g)
  | .testProducter slot =>
    if g.ring.valid slot then ({ t with pc := .testCompleted slot }, g)
    else ({ t with pc := .readUnit slot }, g)
  | .testCompleted slot =>
    if g.bCompleted then
      -- Without a buffer only the loop over the units is left.
      ({ t with pc := .next, i := t.i + 1, producer := retreat b.number t.producer }, g)
    else ({ t with pc := .testProducter slot }, g)
  | .readUnit slot =>
    let read := b.asyncRead (b.entry t.i) g.databitmap t.currentblock
    if read.1 = [] then ({ t with pc := .publish slot false, currentblock := read.2 }, g)
    else ({ t with pc := .compress slot read.1, currentblock := read.2 }, g)
  | .compress slot blocks =>
    match b.compress (b.entry t.i) blocks with
    | none => ({ t with pc := .leave }, { g with g_lz4_size := -1 })
    | some unit =>
      ({ t with pc := .fill slot (blocks.length * BLOCK_BYTES) unit },
        { g with g_lz4_size := unit.align_lz4_size })
  | .fill slot readn unit =>
    ({ t with pc := .publish slot true },
      { g with ring := g.ring.fill slot ⟨readn, unit.align_lz4_size, unit⟩ })
  | .publish slot _ =>
    ({ t with pc := .nextUnit, published := t.published ++ [g.ring.content slot] },
      { g with ring := g.ring.publish slot })
  | .leave => ({ t with pc := .finished }, { g with bCompleted := true })
  | .finished => (t, g)

/-- Where `BackupWithAsyncIo` stands; a buffer it holds goes along. -/
inductive BackupPc where
  | next
  | waitBitmap
  | waitCompleted
  | checkPartition
  | countTotal
  | writeBitmap
  | setWrite
  | nextUnit
  | getConsumer
  | testConsumer (slot : Nat)
  | testCompleted (slot : Nat)
  | writeUnit (slot : Nat)
  | clear (slot : Nat)
  | done (ret : Int)
  | join (ret : Int)
  | returned (ret : Int)
  deriving DecidableEq, Repr

/-- `BackupWithAsyncIo` with its variables, what it has written, and the buffers taken so far. -/
structure BackupThread where
  pc : BackupPc := .next
  i : Nat := 0
  total : Nat := 0
  totalwrite : Nat := 0
  consumer : Nat := 0
  consumed : List BackupBuffer := []
  items : List FileItem := []
  notBackedUp : List Nat := []

/-- Bytes of data a partition has, by its bitmap. -/
def countTotal (p : PartitionInfo) (bitmap : Bytes) : Nat :=
  ((List.range (maxblock p)).filter (readBit · bitmap)).length * BLOCK_BYTES

/--
One step of `BackupWithAsyncIo`, which looks at or changes shared data at most once.

`goesOn` says whether the writes to the file and the user let the step go on.
-/
def BackupThread.step (b : BackupJob) (goesOn finished : Bool) (m : BackupThread)
    (g : BackupShared) : BackupThread × BackupShared :=
  match m.pc with
  | .next =>
    match b.partitions[m.i]? with
    | none => ({ m with pc := .done 0 }, g)
    | some p =>
      if !p.bIfBackup then ({ m with i := m.i + 1 }, g) else ({ m with pc := .waitBitmap }, g)
  | .waitBitmap =>
    if g.bitmapValid m.i = 0 then ({ m with pc := .waitCompleted }, g)
    else ({ m with pc := .checkPartition }, g)
  | .waitCompleted =>
    if g.bCompleted then ({ m with pc := .done (-1) }, g) else ({ m with pc := .waitBitmap }, g)
  | .checkPartition =>
    if g.bitmapValid m.i = 0xff ∨ g.partition ≠ some m.i then
      ({ m with pc := .next, i := m.i + 1, notBackedUp := m.notBackedUp ++ [m.i] }, g)
    else ({ m with pc := .countTotal }, g)
  | .countTotal =>
    ({ m with pc := .writeBitmap, total := countTotal (b.entry m.i) g.databitmap }, g)
  | .writeBitmap =>
    if goesOn then
      ({ m with
          pc := .setWrite
          items := m.items ++ [.bitmap g.databitmap]
          totalwrite := bitmapSize (b.entry m.i) }, g)
    else ({ m with pc := .done (-1) }, g)
  | .setWrite => ({ m with pc := .nextUnit }, { g with partition_write := some m.i })
  | .nextUnit =>
    if m.total = 0 then
      ({ m with pc := .next, i := m.i + 1 },
        { g with backupDataSize := g.backupDataSize ++ [(m.i, m.totalwrite)] })
    else if !goesOn || decide (g.g_lz4_size < 0) then ({ m with pc := .done (-1) }, g)
    else ({ m with pc := .getConsumer }, g)
  | .getConsumer =>
    ({ m with pc := .testConsumer m.consumer, consumer := advance b.number m.consumer }, g)
  | .testConsumer slot =>
    if g.ring.valid slot then ({ m with pc := .writeUnit slot }, g)
    else ({ m with pc := .testCompleted slot }, g)
  | .testCompleted slot =>
    if g.bCompleted then
      ({ m with pc := .done (-1), consumer := retreat b.number m.consumer }, g)
    else ({ m with pc := .testConsumer slot }, g)
  | .writeUnit slot =>
    let buffer := g.ring.content slot
    if buffer.usedsize > 0 then
      if goesOn then
        ({ m with
            pc := .clear slot
            items := m.items ++ [.unit buffer.unit]
            totalwrite := m.totalwrite + buffer.usedsize
            total := m.total - buffer.srcsize }, g)
      else ({ m with pc := .done (-1) }, g)
    else ({ m with pc := .clear slot }, g)
  | .clear slot =>
    ({ m with pc := .nextUnit, consumed := m.consumed ++ [g.ring.content slot] },
      { g with ring := g.ring.clear slot })
  | .done ret => ({ m with pc := .join ret }, { g with bCompleted := true })
  | .join ret => if finished then ({ m with pc := .returned ret }, g) else (m, g)
  | .returned _ => (m, g)

/-- Both threads and what they share. -/
structure BackupState where
  main : BackupThread := {}
  read : ReadThread := {}
  shared : BackupShared

/-- A step of one of the threads, with what comes to it from outside. -/
inductive BackupAction where
  | main (goesOn : Bool)
  | read
  deriving DecidableEq, Repr

/-- Any of the threads may take the next step. -/
def BackupJob.step (b : BackupJob) (s : BackupState) : BackupAction → BackupState
  | .main goesOn =>
    let after := s.main.step b goesOn (s.read.pc == .finished) s.shared
    { s with main := after.1, shared := after.2 }
  | .read =>
    let after := s.read.step b s.shared
    { s with read := after.1, shared := after.2 }

/-- The start: the flags are clear, the ring is clean, and `StartAP` has started the thread. -/
def BackupState.start : BackupState where
  shared := { ring := { valid := fun _ => false, content := fun _ => {} } }

/-- What the backup has left so far. -/
def BackupState.image (s : BackupState) : BackupImage where
  items := s.main.items
  backupDataSize := s.shared.backupDataSize
  notBackedUp := s.main.notBackedUp

end Okr
