import Okr.Backup.AsyncBackup

/-! What one step of either thread of the backup can do, branch by branch. -/

namespace Okr

open BufferRing (Buffers advance retreat)

/-- The steps of `DiskReadThread`: what allows each of them, and what it leaves behind. -/
inductive ReadStep (b : BackupJob) (t : ReadThread) (g : BackupShared) :
    ReadThread → BackupShared → Prop
  | allRead (pc : t.pc = .next) (found : b.partitions[t.i]? = none) :
    ReadStep b t g { t with pc := .leave } g
  | skip {p : PartitionInfo} (pc : t.pc = .next) (found : b.partitions[t.i]? = some p)
      (backed : p.bIfBackup = false) : ReadStep b t g { t with i := t.i + 1 } g
  | waitWrite {p : PartitionInfo} (pc : t.pc = .next) (found : b.partitions[t.i]? = some p)
      (backed : p.bIfBackup = true) : ReadStep b t g { t with pc := .waitWrite } g
  | mustWait (pc : t.pc = .waitWrite) : ReadStep b t g { t with pc := .waitCompleted } g
  | mayPass (pc : t.pc = .waitWrite)
      (passes : g.partition = none ∨ g.partition_write = g.partition) :
    ReadStep b t g { t with pc := .checkCompleted } g
  | stopWaiting (pc : t.pc = .waitCompleted) (completed : g.bCompleted = true) :
    ReadStep b t g { t with pc := .checkCompleted } g
  | waitAgain (pc : t.pc = .waitCompleted) : ReadStep b t g { t with pc := .waitWrite } g
  | stopped (pc : t.pc = .checkCompleted) (completed : g.bCompleted = true) :
    ReadStep b t g { t with pc := .leave } g
  | goOn (pc : t.pc = .checkCompleted) (working : g.bCompleted = false) :
    ReadStep b t g { t with pc := .clearBitmap } g
  | clearBitmap (bitmap : Bytes) (pc : t.pc = .clearBitmap) :
    ReadStep b t g { t with pc := .scan } { g with databitmap := bitmap }
  | scanFailed (pc : t.pc = .scan) (scan : b.ScanPartitionData t.i = none) :
    ReadStep b t g { t with pc := .next, i := t.i + 1 }
      { g with
        backupDataSize := g.backupDataSize ++ [(t.i, 0)]
        bitmapValid := Function.update g.bitmapValid t.i 0xff }
  | scan {bitmap : Bytes} (pc : t.pc = .scan) (scan : b.ScanPartitionData t.i = some bitmap) :
    ReadStep b t g { t with pc := .setBitmapValid } { g with databitmap := bitmap }
  | setBitmapValid (pc : t.pc = .setBitmapValid) :
    ReadStep b t g { t with pc := .setPartition }
      { g with bitmapValid := Function.update g.bitmapValid t.i 1 }
  | setPartition (pc : t.pc = .setPartition) :
    ReadStep b t g { t with pc := .nextUnit, currentblock := 0 } { g with partition := some t.i }
  | unitsRead (pc : t.pc = .nextUnit) (last : ¬ t.currentblock < maxblock (b.entry t.i)) :
    ReadStep b t g { t with pc := .next, i := t.i + 1 } g
  | moreUnits (pc : t.pc = .nextUnit) (more : t.currentblock < maxblock (b.entry t.i)) :
    ReadStep b t g { t with pc := .getProducter } g
  | getProducter (pc : t.pc = .getProducter) :
    ReadStep b t g
      { t with pc := .testProducter t.producer, producer := advance b.number t.producer } g
  | bufferFull {slot : Nat} (pc : t.pc = .testProducter slot) :
    ReadStep b t g { t with pc := .testCompleted slot } g
  | bufferFree {slot : Nat} (pc : t.pc = .testProducter slot) (free : g.ring.valid slot = false) :
    ReadStep b t g { t with pc := .readUnit slot } g
  | noBuffer {slot : Nat} (pc : t.pc = .testCompleted slot) (completed : g.bCompleted = true) :
    ReadStep b t g
      { t with pc := .next, i := t.i + 1, producer := retreat b.number t.producer } g
  | testAgain {slot : Nat} (pc : t.pc = .testCompleted slot) :
    ReadStep b t g { t with pc := .testProducter slot } g
  | readNothing {slot : Nat} (pc : t.pc = .readUnit slot)
      (empty : (b.asyncRead (b.entry t.i) g.databitmap t.currentblock).1 = []) :
    ReadStep b t g
      { t with
        pc := .publish slot false
        currentblock := (b.asyncRead (b.entry t.i) g.databitmap t.currentblock).2 } g
  | readUnit {slot : Nat} (pc : t.pc = .readUnit slot)
      (some_ : (b.asyncRead (b.entry t.i) g.databitmap t.currentblock).1 ≠ []) :
    ReadStep b t g
      { t with
        pc := .compress slot (b.asyncRead (b.entry t.i) g.databitmap t.currentblock).1
        currentblock := (b.asyncRead (b.entry t.i) g.databitmap t.currentblock).2 } g
  | compressFailed {slot : Nat} {blocks : List Nat} (pc : t.pc = .compress slot blocks)
      (failed : b.compress (b.entry t.i) blocks = none) :
    ReadStep b t g { t with pc := .leave } { g with g_lz4_size := -1 }
  | compress {slot : Nat} {blocks : List Nat} {unit : UnitRecord}
      (pc : t.pc = .compress slot blocks)
      (compressed : b.compress (b.entry t.i) blocks = some unit) :
    ReadStep b t g { t with pc := .fill slot (blocks.length * BLOCK_BYTES) unit }
      { g with g_lz4_size := unit.align_lz4_size }
  | fill {slot readn : Nat} {unit : UnitRecord} (pc : t.pc = .fill slot readn unit) :
    ReadStep b t g { t with pc := .publish slot true }
      { g with ring := g.ring.fill slot ⟨readn, unit.align_lz4_size, unit⟩ }
  | publish {slot : Nat} {filled : Bool} (pc : t.pc = .publish slot filled) :
    ReadStep b t g { t with pc := .nextUnit, published := t.published ++ [g.ring.content slot] }
      { g with ring := g.ring.publish slot }
  | leave (pc : t.pc = .leave) :
    ReadStep b t g { t with pc := .finished } { g with bCompleted := true }
  | stay (pc : t.pc = .finished) : ReadStep b t g t g

/-- Each step of `DiskReadThread` is one of these. -/
theorem readStep_cases (b : BackupJob) (t : ReadThread) (g : BackupShared) :
    ReadStep b t g (t.step b g).1 (t.step b g).2 := by
  -- one case for each program counter, in the order the thread runs through them
  unfold ReadThread.step
  split
  case h_1 pc =>
    split
    · exact .allRead pc ‹_›
    · rename_i p found
      cases backed : p.bIfBackup with
      | false => exact .skip pc found backed
      | true => exact .waitWrite pc found backed
  case h_2 pc =>
    split
    · exact .mustWait pc
    · rename_i passes
      exact .mayPass pc (by tauto)
  case h_3 pc =>
    split
    · exact .stopWaiting pc ‹_›
    · exact .waitAgain pc
  case h_4 pc =>
    split
    · exact .stopped pc ‹_›
    · exact .goOn pc (Bool.eq_false_of_not_eq_true ‹_›)
  case h_5 pc => exact .clearBitmap _ pc
  case h_6 pc =>
    split
    · exact .scanFailed pc ‹_›
    · exact .scan pc ‹_›
  case h_7 pc => exact .setBitmapValid pc
  case h_8 pc => exact .setPartition pc
  case h_9 pc =>
    split
    · exact .moreUnits pc ‹_›
    · exact .unitsRead pc ‹_›
  case h_10 pc => exact .getProducter pc
  case h_11 pc =>
    split
    · exact .bufferFull pc
    · exact .bufferFree pc (Bool.eq_false_of_not_eq_true ‹_›)
  case h_12 pc =>
    split
    · exact .noBuffer pc ‹_›
    · exact .testAgain pc
  case h_13 pc =>
    dsimp only
    split
    · exact .readNothing pc ‹_›
    · exact .readUnit pc ‹_›
  case h_14 pc =>
    split
    · exact .compressFailed pc ‹_›
    · exact .compress pc ‹_›
  case h_15 pc => exact .fill pc
  case h_16 pc => exact .publish pc
  case h_17 pc => exact .leave pc
  case h_18 pc => exact .stay pc

/-- The places where `BackupWithAsyncIo` asks whether the other thread has ended. -/
def BackupPc.asks : BackupPc → Bool
  | .waitCompleted | .testCompleted _ => true
  | _ => false

/-- The places from which `BackupWithAsyncIo` goes to its end when a write or the user stops it. -/
def BackupPc.MayStop : BackupPc → Prop
  | .writeBitmap | .nextUnit | .writeUnit _ => True
  | _ => False

/-- The steps of `BackupWithAsyncIo`: what allows each of them, and what it leaves behind. -/
inductive SaveStep (b : BackupJob) (goesOn finished : Bool) (m : BackupThread) (g : BackupShared) :
    BackupThread → BackupShared → Prop
  | allSaved (pc : m.pc = .next) (found : b.partitions[m.i]? = none) :
    SaveStep b goesOn finished m g { m with pc := .done 0 } g
  | skip {p : PartitionInfo} (pc : m.pc = .next) (found : b.partitions[m.i]? = some p)
      (backed : p.bIfBackup = false) : SaveStep b goesOn finished m g { m with i := m.i + 1 } g
  | waitBitmap {p : PartitionInfo} (pc : m.pc = .next) (found : b.partitions[m.i]? = some p)
      (backed : p.bIfBackup = true) : SaveStep b goesOn finished m g { m with pc := .waitBitmap } g
  | notValid (pc : m.pc = .waitBitmap) :
    SaveStep b goesOn finished m g { m with pc := .waitCompleted } g
  | valid (pc : m.pc = .waitBitmap) (valid : g.bitmapValid m.i ≠ 0) :
    SaveStep b goesOn finished m g { m with pc := .checkPartition } g
  | waitAgain (pc : m.pc = .waitCompleted) :
    SaveStep b goesOn finished m g { m with pc := .waitBitmap } g
  | leaveOut (pc : m.pc = .checkPartition)
      (invalid : g.bitmapValid m.i = 0xff ∨ g.partition ≠ some m.i) :
    SaveStep b goesOn finished m g
      { m with pc := .next, i := m.i + 1, notBackedUp := m.notBackedUp ++ [m.i] } g
  | accept (pc : m.pc = .checkPartition) (current : g.partition = some m.i) :
    SaveStep b goesOn finished m g { m with pc := .countTotal } g
  | countTotal (pc : m.pc = .countTotal) :
    SaveStep b goesOn finished m g
      { m with pc := .writeBitmap, total := Okr.countTotal (b.entry m.i) g.databitmap } g
  | writeBitmap (pc : m.pc = .writeBitmap) :
    SaveStep b goesOn finished m g
      { m with
        pc := .setWrite
        items := m.items ++ [.bitmap g.databitmap]
        totalwrite := bitmapSize (b.entry m.i) } g
  | setWrite (pc : m.pc = .setWrite) :
    SaveStep b goesOn finished m g { m with pc := .nextUnit } { g with partition_write := some m.i }
  | partitionSaved (pc : m.pc = .nextUnit) (all : m.total = 0) :
    SaveStep b goesOn finished m g { m with pc := .next, i := m.i + 1 }
      { g with backupDataSize := g.backupDataSize ++ [(m.i, m.totalwrite)] }
  | moreUnits (pc : m.pc = .nextUnit) (more : m.total ≠ 0) :
    SaveStep b goesOn finished m g { m with pc := .getConsumer } g
  | getConsumer (pc : m.pc = .getConsumer) :
    SaveStep b goesOn finished m g
      { m with pc := .testConsumer m.consumer, consumer := advance b.number m.consumer } g
  | bufferEmpty {slot : Nat} (pc : m.pc = .testConsumer slot) :
    SaveStep b goesOn finished m g { m with pc := .testCompleted slot } g
  | bufferValid {slot : Nat} (pc : m.pc = .testConsumer slot) (valid : g.ring.valid slot = true) :
    SaveStep b goesOn finished m g { m with pc := .writeUnit slot } g
  | testAgain {slot : Nat} (pc : m.pc = .testCompleted slot) :
    SaveStep b goesOn finished m g { m with pc := .testConsumer slot } g
  | writeUnit {slot : Nat} (pc : m.pc = .writeUnit slot)
      (some_ : (g.ring.content slot).usedsize > 0) :
    SaveStep b goesOn finished m g
      { m with
        pc := .clear slot
        items := m.items ++ [.unit (g.ring.content slot).unit]
        totalwrite := m.totalwrite + (g.ring.content slot).usedsize
        total := m.total - (g.ring.content slot).srcsize } g
  | passUnit {slot : Nat} (pc : m.pc = .writeUnit slot)
      (empty : ¬ (g.ring.content slot).usedsize > 0) :
    SaveStep b goesOn finished m g { m with pc := .clear slot } g
  | clear {slot : Nat} (pc : m.pc = .clear slot) :
    SaveStep b goesOn finished m g
      { m with pc := .nextUnit, consumed := m.consumed ++ [g.ring.content slot] }
      { g with ring := g.ring.clear slot }
  | giveUp (consumer : Nat) (pc : m.pc.asks = true) (completed : g.bCompleted = true) :
    SaveStep b goesOn finished m g { m with pc := .done (-1), consumer := consumer } g
  | stop (pc : m.pc.MayStop) (why : goesOn = false ∨ g.g_lz4_size < 0) :
    SaveStep b goesOn finished m g { m with pc := .done (-1) } g
  | completed {ret : Int} (pc : m.pc = .done ret) :
    SaveStep b goesOn finished m g { m with pc := .join ret } { g with bCompleted := true }
  | joined {ret : Int} (pc : m.pc = .join ret) (ended : finished = true) :
    SaveStep b goesOn finished m g { m with pc := .returned ret } g
  | stay : SaveStep b goesOn finished m g m g

/-- Each step of `BackupWithAsyncIo` is one of these. -/
theorem saveStep_cases (b : BackupJob) (goesOn finished : Bool) (m : BackupThread)
    (g : BackupShared) :
    SaveStep b goesOn finished m g (m.step b goesOn finished g).1
      (m.step b goesOn finished g).2 := by
  -- one case for each program counter, in the order the thread runs through them
  unfold BackupThread.step
  split
  case h_1 pc =>
    split
    · exact .allSaved pc ‹_›
    · rename_i p found
      cases backed : p.bIfBackup with
      | false => exact .skip pc found backed
      | true => exact .waitBitmap pc found backed
  case h_2 pc =>
    split
    · exact .notValid pc
    · exact .valid pc ‹_›
  case h_3 pc =>
    split
    · exact .giveUp m.consumer (by rw [pc]; rfl) ‹_›
    · exact .waitAgain pc
  case h_4 pc =>
    split
    · exact .leaveOut pc ‹_›
    · rename_i current
      exact .accept pc (not_not.mp (not_or.mp current).2)
  case h_5 pc => exact .countTotal pc
  case h_6 pc =>
    split
    · exact .writeBitmap pc
    · exact .stop (by rw [pc]; trivial) (.inl (Bool.eq_false_of_not_eq_true ‹_›))
  case h_7 pc => exact .setWrite pc
  case h_8 pc =>
    split
    · exact .partitionSaved pc ‹_›
    · split
      · rename_i why
        exact .stop (by rw [pc]; trivial) (by simpa using why)
      · exact .moreUnits pc ‹_›
  case h_9 pc => exact .getConsumer pc
  case h_10 pc =>
    split
    · exact .bufferValid pc ‹_›
    · exact .bufferEmpty pc
  case h_11 pc =>
    split
    · exact .giveUp _ (by rw [pc]; rfl) ‹_›
    · exact .testAgain pc
  case h_12 pc =>
    dsimp only
    split
    · split
      · exact .writeUnit pc ‹_›
      · exact .stop (by rw [pc]; trivial) (.inl (Bool.eq_false_of_not_eq_true ‹_›))
    · exact .passUnit pc ‹_›
  case h_13 pc => exact .clear pc
  case h_14 pc => exact .completed pc
  case h_15 pc =>
    split
    · exact .joined pc ‹_›
    · exact .stay
  case h_16 pc => exact .stay

/-- What holds after each step of either thread holds after a step of the backup. -/
theorem BackupJob.step_induct {b : BackupJob} {s : BackupState} {action : BackupAction}
    {motive : BackupState → Prop}
    (main : ∀ goesOn m g, action = .main goesOn →
      SaveStep b goesOn (s.read.pc == .finished) s.main s.shared m g →
      motive { s with main := m, shared := g })
    (read : ∀ t g, action = .read → ReadStep b s.read s.shared t g →
      motive { s with read := t, shared := g }) : motive (b.step s action) := by
  cases action with
  | main goesOn => exact main goesOn _ _ rfl (saveStep_cases ..)
  | read => exact read _ _ rfl (readStep_cases ..)

end Okr
