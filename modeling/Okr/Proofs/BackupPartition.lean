import Okr.Proofs.BackupPlan
import Okr.Proofs.BackupRing

/-! The two threads of the backup agree on the partition and on its bitmap. -/

namespace Okr

open BufferRing

variable {b : BackupJob} {s : BackupState}

/-- The buffer that is handed over though nothing was read into it. -/
def ReadPc.unread : ReadPc → Option Nat
  | .publish slot false => some slot
  | _ => none

/-- No partition behind one has marked blocks to back up. -/
def BackupJob.LastData (b : BackupJob) (i : Nat) : Prop :=
  ∀ k < b.partitions.length, i < k → (b.entry k).bIfBackup = true →
    markedFrom (b.entry k) (b.bitmapOf k) 0 = []

instance (i : Nat) : Decidable (b.LastData i) :=
  inferInstanceAs (Decidable (∀ k < b.partitions.length, _ → _ → _))

/--
The writes succeed, and the threads meet none of the gaps between their assignments.

The writer looks at the current partition only after it is set.
It asks for the end of the other thread only before that.
An empty read hands over a buffer that was never used, or one behind all the data.
-/
def Keeps (b : BackupJob) (s : BackupState) : BackupAction → Prop
  | .main goesOn =>
    goesOn = true ∧ (s.main.pc.asks = true → s.shared.bCompleted = false)
      ∧ (s.main.pc = .checkPartition → s.shared.partition = some s.main.i)
  | .read =>
    ∀ slot ∈ s.read.pc.unread,
      (s.shared.ring.content slot).usedsize = 0 ∨ b.LastData s.read.i

instance : ∀ action, Decidable (Keeps b s action)
  | .main _ => inferInstanceAs (Decidable (_ ∧ _ ∧ _))
  | .read => inferInstanceAs (Decidable (∀ slot ∈ s.read.pc.unread, _ ∨ _))

/-- The writer has got to the partition that was read last. -/
def BackupShared.Passed (g : BackupShared) : Prop :=
  g.partition = none ∨ g.partition_write = g.partition

/-- The bitmap in memory is that of the partition that was read last. -/
def BackupShared.Settled (b : BackupJob) (g : BackupShared) : Prop :=
  ∀ i, g.partition = some i → g.databitmap = b.bitmapOf i

/-- What `DiskReadThread` knows of the partitions at each of its places. -/
def ReadThread.OnPartition (b : BackupJob) (g : BackupShared) (t : ReadThread) : Prop :=
  match t.pc with
  | .next | .leave | .finished => g.Settled b
  | .waitWrite | .waitCompleted => b.Backed t.i ∧ g.Settled b
  | .checkCompleted => b.Backed t.i ∧ g.Settled b ∧ (g.bCompleted = false → g.Passed)
  | .clearBitmap | .scan => b.Backed t.i ∧ g.Passed
  | .setBitmapValid | .setPartition =>
    b.Backed t.i ∧ g.Passed ∧ g.databitmap = b.bitmapOf t.i
  | _ => b.Backed t.i ∧ g.partition = some t.i ∧ g.databitmap = b.bitmapOf t.i

/-- What `BackupWithAsyncIo` knows of the partitions at each of its places. -/
def BackupThread.OnPartition (b : BackupJob) (g : BackupShared) (m : BackupThread) : Prop :=
  match m.pc with
  | .next => ∀ k, g.partition_write = some k → k < m.i
  | .waitBitmap | .waitCompleted | .checkPartition =>
    b.Backed m.i ∧ ∀ k, g.partition_write = some k → k < m.i
  | .countTotal | .writeBitmap | .setWrite =>
    b.Backed m.i ∧ (∀ k, g.partition_write = some k → k < m.i) ∧ g.partition = some m.i
  | .done _ | .join _ | .returned _ => True
  | _ => b.Backed m.i ∧ ∀ k, g.partition_write = some k → k ≤ m.i

/-- The threads agree on the partitions, and nothing has failed or was left out. -/
structure BackupOnPartition (b : BackupJob) (s : BackupState) : Prop where
  read : s.read.OnPartition b s.shared
  main : s.main.OnPartition b s.shared
  valid : ∀ i, s.shared.bitmapValid i ≠ 0xff
  compressed : 0 ≤ s.shared.g_lz4_size
  complete : s.main.notBackedUp = []

/-- The start, with no partition read yet. -/
theorem BackupOnPartition.start (b : BackupJob) : BackupOnPartition b .start where
  read := by
    intro i none_
    cases none_
  main := by
    intro k none_
    cases none_
  valid _ := by simp [BackupState.start]
  compressed := Int.le_refl 0
  complete := rfl

/-- While the writer counts and saves the bitmap, the reader waits with the next partition. -/
theorem BackupOnPartition.not_passed (agree : BackupOnPartition b s)
    (pc : s.main.pc = .countTotal ∨ s.main.pc = .writeBitmap ∨ s.main.pc = .setWrite) :
    ¬ s.shared.Passed ∧ s.shared.partition = some s.main.i := by
  have main := agree.main
  have place : (∀ k, s.shared.partition_write = some k → k < s.main.i)
      ∧ s.shared.partition = some s.main.i := by
    rcases pc with pc | pc | pc <;> simp only [BackupThread.OnPartition, pc] at main <;>
      exact main.2
  refine ⟨?_, place.2⟩
  rintro (none_ | same)
  · rw [place.2] at none_
    cases none_
  · rw [place.2] at same
    exact Nat.lt_irrefl _ (place.1 _ same)

/-- While the writer counts and saves the bitmap, it is the bitmap of its partition. -/
theorem BackupOnPartition.bitmap (agree : BackupOnPartition b s)
    (pc : s.main.pc = .countTotal ∨ s.main.pc = .writeBitmap) :
    s.shared.databitmap = b.bitmapOf s.main.i := by
  obtain ⟨notPassed, current⟩ := agree.not_passed (by tauto)
  have read := agree.read
  -- the reader either has settled this partition's bitmap or is still on an earlier partition
  have settled : s.shared.Settled b → s.shared.databitmap = b.bitmapOf s.main.i :=
    fun settled => settled _ current
  have same : s.shared.partition = some s.read.i ∧ s.shared.databitmap = b.bitmapOf s.read.i →
      s.shared.databitmap = b.bitmapOf s.main.i := by
    rintro ⟨read, bitmap⟩
    rw [read, Option.some_inj] at current
    rw [← current]
    exact bitmap
  unfold ReadThread.OnPartition at read
  cases at_ : s.read.pc <;> simp only [at_] at read <;> try exact same read.2
  case next => exact settled read
  case leave => exact settled read
  case finished => exact settled read
  case waitWrite => exact settled read.2
  case waitCompleted => exact settled read.2
  case checkCompleted => exact settled read.2.1
  -- at these places the reader would have passed the writer's partition
  case clearBitmap => exact absurd read.2 notPassed
  case scan => exact absurd read.2 notPassed
  case setBitmapValid => exact absurd read.2.1 notPassed
  case setPartition => exact absurd read.2.1 notPassed

/-- What the writer knows does not depend on the reader's steps, except those before the units. -/
theorem BackupThread.OnPartition.congr {g g' : BackupShared} {m : BackupThread}
    (main : m.OnPartition b g) (written : g'.partition_write = g.partition_write)
    (partition : g'.partition = g.partition) : m.OnPartition b g' := by
  unfold BackupThread.OnPartition at main ⊢
  rw [written, partition]
  exact main

/-- A step of `DiskReadThread` that changes nothing the other thread looks at. -/
theorem BackupOnPartition.readQuiet (agree : BackupOnPartition b s) {t : ReadThread}
    {ring : Buffers BackupBuffer} (read : t.OnPartition b s.shared) :
    BackupOnPartition b { s with read := t, shared := { s.shared with ring := ring } } where
  read := read
  main := agree.main
  valid := agree.valid
  compressed := agree.compressed
  complete := agree.complete

/-- Each step of `DiskReadThread` keeps the agreement. -/
theorem BackupOnPartition.readStep (agree : BackupOnPartition b s) (succeeds : b.Succeeds)
    {t : ReadThread} {g : BackupShared} (step : ReadStep b s.read s.shared t g)
    (compresses : ∀ slot blocks, s.read.pc = .compress slot blocks →
      b.compress (b.entry s.read.i) blocks ≠ none) :
    BackupOnPartition b { s with read := t, shared := g } := by
  have read := agree.read
  cases step with
  | waitWrite pc found backed =>
    simp only [ReadThread.OnPartition, pc] at read
    exact agree.readQuiet ⟨BackupJob.backed_of_found found backed, read⟩
  | mayPass pc passes =>
    simp only [ReadThread.OnPartition, pc] at read
    exact agree.readQuiet ⟨read.1, read.2, fun _ => passes⟩
  | stopWaiting pc completed =>
    simp only [ReadThread.OnPartition, pc] at read
    refine agree.readQuiet ⟨read.1, read.2, fun working => ?_⟩
    rw [completed] at working
    cases working
  | stopped pc =>
    simp only [ReadThread.OnPartition, pc] at read
    exact agree.readQuiet read.2.1
  | goOn pc working =>
    simp only [ReadThread.OnPartition, pc] at read
    exact agree.readQuiet ⟨read.1, read.2.2 working⟩
  | clearBitmap bitmap pc =>
    simp only [ReadThread.OnPartition, pc] at read
    exact ⟨read, agree.main, agree.valid, agree.compressed, agree.complete⟩
  | scanFailed pc scan =>
    simp only [ReadThread.OnPartition, pc] at read
    rw [succeeds.scans _ _ read.1.1 read.1.2] at scan
    cases scan
  | @scan bitmap pc scan =>
    simp only [ReadThread.OnPartition, pc] at read
    have own : bitmap = b.bitmapOf s.read.i := by rw [BackupJob.bitmapOf, scan, Option.getD_some]
    exact ⟨⟨read.1, read.2, own⟩, agree.main, agree.valid, agree.compressed, agree.complete⟩
  | setBitmapValid pc =>
    simp only [ReadThread.OnPartition, pc] at read
    refine ⟨read, agree.main, fun i => ?_, agree.compressed, agree.complete⟩
    simp only [Function.update_apply]
    split
    · decide
    · exact agree.valid i
  | setPartition pc =>
    simp only [ReadThread.OnPartition, pc] at read
    refine ⟨⟨read.1, rfl, read.2.2⟩, ?_, agree.valid, agree.compressed, agree.complete⟩
    -- The writer does not look at the partition now.
    have main := agree.main
    have apart : s.main.pc = .countTotal ∨ s.main.pc = .writeBitmap ∨ s.main.pc = .setWrite → False :=
      fun place => (agree.not_passed place).1 read.2.1
    unfold BackupThread.OnPartition at main ⊢
    cases at_ : s.main.pc <;> simp only [at_] at main ⊢ <;> try exact main
    case countTotal => exact (apart (.inl at_)).elim
    case writeBitmap => exact (apart (.inr (.inl at_))).elim
    case setWrite => exact (apart (.inr (.inr at_))).elim
  | unitsRead pc =>
    simp only [ReadThread.OnPartition, pc] at read
    refine agree.readQuiet fun i current => ?_
    rw [read.2.1, Option.some_inj] at current
    rw [← current]
    exact read.2.2
  | noBuffer pc =>
    simp only [ReadThread.OnPartition, pc] at read
    refine agree.readQuiet fun i current => ?_
    rw [read.2.1, Option.some_inj] at current
    rw [← current]
    exact read.2.2
  | compressFailed pc failed => exact absurd failed (compresses _ _ pc)
  | compress pc compressed =>
    simp only [ReadThread.OnPartition, pc] at read
    exact ⟨read, agree.main, agree.valid, Int.natCast_nonneg _, agree.complete⟩
  | leave pc =>
    simp only [ReadThread.OnPartition, pc] at read
    exact ⟨read, agree.main, agree.valid, agree.compressed, agree.complete⟩
  | stay => exact agree
  | _ => exact agree.readQuiet (by simp_all [ReadThread.OnPartition, BackupShared.Settled])

/-- What the reader knows does not depend on the writer's steps, except the one that passes it on. -/
theorem ReadThread.OnPartition.congr {g g' : BackupShared} {t : ReadThread}
    (read : t.OnPartition b g) (partition : g'.partition = g.partition)
    (written : g.Passed → g'.Passed) (bitmap : g'.databitmap = g.databitmap)
    (completed : g'.bCompleted = false → g.bCompleted = false) : t.OnPartition b g' := by
  unfold ReadThread.OnPartition BackupShared.Settled at *
  rw [partition, bitmap]
  cases pc : t.pc <;> simp only [pc] at read ⊢ <;> try exact read
  case checkCompleted => exact ⟨read.1, read.2.1, fun working => written (read.2.2 (completed working))⟩
  case clearBitmap => exact ⟨read.1, written read.2⟩
  case scan => exact ⟨read.1, written read.2⟩
  case setBitmapValid => exact ⟨read.1, written read.2.1, read.2.2⟩
  case setPartition => exact ⟨read.1, written read.2.1, read.2.2⟩

/-- A step of `BackupWithAsyncIo` that changes nothing the other thread looks at. -/
theorem BackupOnPartition.mainQuiet (agree : BackupOnPartition b s) {m : BackupThread}
    {ring : Buffers BackupBuffer} {sizes : List (Nat × Nat)}
    (complete : m.notBackedUp = s.main.notBackedUp) (main : m.OnPartition b s.shared) :
    BackupOnPartition b
      { s with main := m, shared := { s.shared with ring := ring, backupDataSize := sizes } } where
  read := agree.read
  main := main
  valid := agree.valid
  compressed := agree.compressed
  complete := complete.trans agree.complete

/-- Each step of `BackupWithAsyncIo` that meets no gap keeps the agreement. -/
theorem BackupOnPartition.mainStep (agree : BackupOnPartition b s) {goesOn finished : Bool}
    {m : BackupThread} {g : BackupShared} (keeps : Keeps b s (.main goesOn))
    (step : SaveStep b goesOn finished s.main s.shared m g) :
    BackupOnPartition b { s with main := m, shared := g } := by
  have main := agree.main
  obtain ⟨on, asks, current⟩ := keeps
  -- most steps are quiet: they move no number that the reading thread looks at
  cases step with
  | allSaved pc => exact agree.mainQuiet rfl trivial
  | skip pc =>
    simp only [BackupThread.OnPartition, pc] at main
    refine agree.mainQuiet rfl ?_
    simp only [BackupThread.OnPartition, pc]
    exact fun k written => Nat.lt_succ_of_lt (main k written)
  | waitBitmap pc found backed =>
    simp only [BackupThread.OnPartition, pc] at main
    exact agree.mainQuiet rfl ⟨BackupJob.backed_of_found found backed, main⟩
  | leaveOut pc invalid =>
    rcases invalid with bad | other
    · exact absurd bad (agree.valid _)
    · exact absurd (current pc) other
  | accept pc same =>
    simp only [BackupThread.OnPartition, pc] at main
    exact agree.mainQuiet rfl ⟨main.1, main.2, same⟩
  | setWrite pc =>
    simp only [BackupThread.OnPartition, pc] at main
    -- the reading thread still waits, so what it claims once past is not asked for
    have notPassed := (agree.not_passed (.inr (.inr pc))).1
    constructor
    · exact agree.read.congr rfl (fun passed => absurd passed notPassed) rfl id
    · refine ⟨main.1, fun k written => ?_⟩
      rw [Option.some_inj.mp written]
    · exact agree.valid
    · exact agree.compressed
    · exact agree.complete
  | partitionSaved pc =>
    simp only [BackupThread.OnPartition, pc] at main
    exact agree.mainQuiet rfl fun k written => Nat.lt_succ_of_le (main.2 k written)
  | giveUp consumer pc => exact agree.mainQuiet rfl trivial
  | stop pc => exact agree.mainQuiet rfl trivial
  | completed pc =>
    constructor
    · refine agree.read.congr rfl id rfl fun working => ?_
      cases working
    · trivial
    · exact agree.valid
    · exact agree.compressed
    · exact agree.complete
  | joined pc => exact agree.mainQuiet rfl trivial
  | stay => exact agree
  | _ => exact agree.mainQuiet rfl (by simp_all [BackupThread.OnPartition])

end Okr
