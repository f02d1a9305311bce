import Okr.Lib.Runs
import Okr.Proofs.BackupWrites

/-! The backup with two threads leaves what the backup with one leaves, where it meets no gap. -/

namespace Okr

open Runs

variable {b : BackupJob} {s : BackupState}

/-- `BackupWithAsyncIo` has set `bCompleted` itself. -/
def BackupPc.Ended : BackupPc → Prop
  | .join _ | .returned _ => True
  | _ => False

/-- `bCompleted` is set at an end of one of the threads. -/
def BackupEnding (s : BackupState) : Prop :=
  s.shared.bCompleted = true → s.main.pc.Ended ∨ s.read.pc = .finished

/-- The state of the backup in every run that meets no gap. -/
structure BackupSound (b : BackupJob) (s : BackupState) : Prop where
  ring : BackupOnRing b s
  partition : BackupOnPartition b s
  read : OnReadPlan b s
  save : OnSavePlan b s
  ending : BackupEnding s

/-- Each step of `BackupWithAsyncIo` keeps what `bCompleted` means. -/
theorem BackupEnding.mainStep (ending : BackupEnding s) {goesOn finished : Bool} {m : BackupThread}
    {g : BackupShared} (step : SaveStep b goesOn finished s.main s.shared m g) :
    BackupEnding { s with main := m, shared := g } := by
  cases step with
  | completed pc => exact fun _ => .inl trivial
  | joined pc => exact fun _ => .inl trivial
  | stay => exact ending
  | giveUp consumer pc =>
    refine fun set => .inr ((ending set).resolve_left fun ended => ?_)
    cases at_ : s.main.pc <;> simp [at_, BackupPc.asks, BackupPc.Ended] at pc ended
  | stop pc =>
    refine fun set => .inr ((ending set).resolve_left fun ended => ?_)
    cases at_ : s.main.pc <;> simp [at_, BackupPc.MayStop, BackupPc.Ended] at pc ended
  | _ => exact fun set => .inr ((ending set).resolve_left (by simp_all [BackupPc.Ended]))

/-- Each step of `DiskReadThread` keeps what `bCompleted` means. -/
theorem BackupEnding.readStep (ending : BackupEnding s) {t : ReadThread} {g : BackupShared}
    (step : ReadStep b s.read s.shared t g) : BackupEnding { s with read := t, shared := g } := by
  cases step with
  | leave pc => exact fun _ => .inr rfl
  | stay => exact ending
  | _ => exact fun set => .inl ((ending set).resolve_right (by simp_all))

/-- Once the writing side has ended, all that is planned was handed over. -/
theorem BackupSound.taken (sound : BackupSound b s) (completed : s.shared.bCompleted = true)
    (working : s.read.pc ≠ .finished) :
    ∃ more, used s.read.published = b.buffersFor 0 ++ more := by
  have ended := (sound.ending completed).resolve_right working
  have all : UpTo b b.partitions.length s.main.items s.main.consumed s.shared.backupDataSize := by
    have save := sound.save
    unfold OnSavePlan at save
    cases pc : s.main.pc <;> simp only [pc, BackupPc.Ended] at ended save
    case join => exact save.2
    case returned => exact save.2
  have buffers := all.buffers
  rw [BackupJob.buffersFor, plan_end (Nat.le_refl _), List.append_nil] at buffers
  exact ⟨used s.pending, by rw [← sound.ring.order, used_append, buffers]; rfl⟩

/-- The start is as it should be. -/
theorem BackupSound.start (b : BackupJob) : BackupSound b .start where
  ring := .start b
  partition := .start b
  read := ⟨b.buffersFor 0, ⟨[], [], rfl, rfl, .inl rfl⟩, rfl⟩
  save := .start b
  ending set := absurd set Bool.false_ne_true

/-- Each step that meets no gap keeps the state sound. -/
theorem BackupSound.step (sound : BackupSound b s) (succeeds : b.Succeeds) {action : BackupAction}
    (keeps : Keeps b s action) : BackupSound b (b.step s action) := by
  apply BackupJob.step_induct
  · intro goesOn m g same step
    rw [same] at keeps
    obtain ⟨rem, hands, remaining⟩ := sound.read
    constructor
    · exact sound.ring.mainStep step
    · exact sound.partition.mainStep keeps step
    · exact sound.read.mainStep step
    · exact sound.save.mainStep sound.ring sound.partition succeeds hands keeps step
    · exact sound.ending.mainStep step
  · intro t g same step
    rw [same] at keeps
    constructor
    · exact sound.ring.readStep step
    · refine sound.partition.readStep succeeds step fun slot blocks pc failed => ?_
      -- What is compressed is a planned buffer.
      obtain ⟨rem, hands, remaining⟩ := sound.read
      simp only [ReadThread.Remaining, pc] at remaining
      rw [remaining.1.1] at failed
      cases failed
    · exact sound.read.readStep sound.partition succeeds keeps sound.taken step
    · exact sound.save.readStep sound.ring sound.partition succeeds step
    · exact sound.ending.readStep step

/--
What the backup has written so far is what the backup with one thread for the disk writes.

When it returns, it returns 0, and the file and the sizes in its header are the same.
-/
def AgreesWithSync (b : BackupJob) (s : BackupState) : Prop :=
  ∀ (bMultiThread : Bool) (rounds : Nat), (∀ p ∈ b.partitions, maxblock p + 3 ≤ rounds) →
    ∃ image, b.sync bMultiThread rounds = some image
      ∧ s.main.items <+: image.items ∧ s.main.notBackedUp = []
      ∧ ∀ ret, s.main.pc = .returned ret → ret = 0 ∧ s.image = image

/-- What is written is a part of what is planned. -/
theorem BackupSound.items (sound : BackupSound b s) : s.main.items <+: b.planned.items := by
  have save := sound.save
  have upTo : ∀ {i taken sizes}, UpTo b i s.main.items taken sizes →
      s.main.items <+: b.planned.items := fun upTo => ⟨_, upTo.items⟩
  have within : ∀ {i total totalwrite taken sizes},
      (∃ left, WithinPartition b i total totalwrite s.main.items taken sizes left) →
        s.main.items <+: b.planned.items := fun ⟨_, within⟩ => ⟨_, within.items⟩
  unfold OnSavePlan at save
  cases pc : s.main.pc <;> simp only [pc] at save
  case next => exact upTo save
  case waitBitmap => exact upTo save
  case waitCompleted => exact upTo save
  case checkPartition => exact upTo save
  case countTotal => exact upTo save
  case writeBitmap => exact upTo save.1
  case setWrite => exact within save
  case nextUnit => exact within save
  case clear slot => exact within (save _ (sound.ring.next_content (by rw [pc]; rfl)))
  case done => exact upTo save.2
  case join => exact upTo save.2
  case returned => exact upTo save.2
  all_goals exact within save.1

/-- A sound state agrees with the backup with one thread for the disk. -/
theorem BackupSound.agrees (sound : BackupSound b s) (succeeds : b.Succeeds) :
    AgreesWithSync b s := by
  intro bMultiThread rounds enough
  refine ⟨b.planned, sync_eq bMultiThread succeeds enough, sound.items, sound.partition.complete, ?_⟩
  intro ret returned
  have save := sound.save
  simp only [OnSavePlan, returned] at save
  obtain ⟨zero, items, buffers, sizes⟩ := save
  rw [BackupJob.itemsFor, plan_end (Nat.le_refl _), List.append_nil] at items
  rw [BackupJob.sizesFor, plan_end (Nat.le_refl _), List.append_nil] at sizes
  refine ⟨zero, ?_⟩
  rw [BackupState.image, items, sizes, sound.partition.complete]
  rfl

/--
The backup with two threads writes what the backup with one thread for the disk writes.

This holds in every state of a run, whatever the order of the steps of the two threads.
Three kinds of steps are excluded, in which the threads meet a gap between two assignments.
-/
theorem backup_agreesWithSync (b : BackupJob) (actions : List BackupAction) (succeeds : b.Succeeds)
    (keeps : Along b.step (Keeps b) .start actions) :
    AgreesWithSync b (run b.step .start actions) := by
  have kept : ∀ s action, BackupSound b s → Keeps b s action → BackupSound b (b.step s action) :=
    fun s action before meets => before.step succeeds meets
  have last : BackupSound b (run b.step .start actions) := invariant kept (.start b) keeps
  exact last.agrees succeeds

/-- A disk with one partition of one block, which is in use. -/
def oneBlock : BackupJob where
  disk _ := 0
  partitions := [{ bIfBackup := true, totalSectors := 64 }]
  ScanPartitionData _ := some [1]
  LZ4_compress data := [data.headD 0]
  number := 2
  number_ge := by decide
  blocksPerBuffer := 1
  blocksPerBuffer_pos := by decide

/-- A single byte is not longer than data, and fits. -/
theorem compressBuffer_byte (data : Bytes) :
    (compressBuffer (fun data => [data.headD 0]) BLOCK_BYTES data).isSome := by
  cases data with
  | nil => decide +kernel
  | cons d data =>
    have shorter : ¬ [d].length > (d :: data).length := by simp
    have fits : ¬ u32 (calcAliginSize ([d].length + LZ4_BUFFER_HEAD_SIZE))
        > LZ4_COMPRESSBOUND BLOCK_BYTES + LZ4_BUFFER_HEAD_SIZE + ALGIN_SIZE_BYTE := by
      rw [List.length_singleton]
      decide +kernel
    have some_ : ¬ [d].length = 0 := Nat.one_ne_zero
    simp only [compressBuffer, List.headD_cons, if_neg some_, if_neg shorter, if_neg fits]
    rfl

/-- The partition has a bitmap, and what is read of it can be compressed. -/
theorem oneBlock_succeeds : oneBlock.Succeeds where
  scans i p found backed := rfl
  compresses i p found backed blocks mem := by
    have size : oneBlock.totalsize = BLOCK_BYTES := Nat.one_mul BLOCK_BYTES
    have some_ : (oneBlock.compress p blocks).isSome := by
      rw [BackupJob.compress, size]
      exact compressBuffer_byte _
    unfold BackupJob.record
    obtain ⟨record, compressed⟩ := Option.isSome_iff_exists.mp some_
    rw [compressed]
    rfl

/-- The reader hands over the block, the writer saves it and waits, the reader ends. -/
def readerFirst : List BackupAction :=
  List.replicate 15 .read ++ List.replicate 14 (.main true) ++ List.replicate 3 .read
    ++ List.replicate 3 (.main true)

/-- The whole backup of the block agrees. -/
theorem backup_agreesWithSync_readerFirst :
    AgreesWithSync oneBlock (run oneBlock.step .start readerFirst) :=
  backup_agreesWithSync oneBlock readerFirst oneBlock_succeeds (by decide +kernel)

/-- The reader has scanned the partition, and the writer comes before the partition is set. -/
def writerBetween : List BackupAction := List.replicate 6 .read ++ List.replicate 3 (.main true)

/-- Without a failed step, a partition that was scanned is not backed up. -/
theorem backup_skipsScanned :
    ¬ ∀ (b : BackupJob) (actions : List BackupAction), b.Succeeds → .main false ∉ actions →
      AgreesWithSync b (run b.step .start actions) := by
  intro all
  obtain ⟨image, -, -, complete, -⟩ :=
    all oneBlock writerBetween oneBlock_succeeds (by decide) true 4 (by decide)
  revert complete
  decide

end Okr
