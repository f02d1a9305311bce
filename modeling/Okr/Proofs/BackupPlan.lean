import Okr.Backup.AsyncBackup
import Okr.Lib.Chunks

/-! What a backup has to write: the marked blocks of every partition, cut to the size of a buffer. -/

namespace Okr

open Chunks

/-- The marked ones of some blocks in a row. -/
def marked (bitmap : Bytes) (start count : Nat) : List Nat :=
  (List.range' start count).filter (readBit · bitmap)

/-- The marked blocks of a partition from a block on. -/
def markedFrom (p : PartitionInfo) (bitmap : Bytes) (currentblock : Nat) : List Nat :=
  marked bitmap currentblock (maxblock p - currentblock)

/-- The bitmap the scan leaves of a partition. -/
def BackupJob.bitmapOf (b : BackupJob) (i : Nat) : Bytes := (b.ScanPartitionData i).getD []

/-- The compressed unit of some blocks, where compression succeeds. -/
def BackupJob.record (b : BackupJob) (p : PartitionInfo) (blocks : List Nat) : UnitRecord :=
  (b.compress p blocks).getD ⟨0, 0, 0, []⟩

/-- The buffer in which a unit is handed over. -/
def BackupJob.buffer (b : BackupJob) (p : PartitionInfo) (blocks : List Nat) : BackupBuffer where
  srcsize := blocks.length * BLOCK_BYTES
  usedsize := (b.record p blocks).align_lz4_size
  unit := b.record p blocks

/-- The buffers of a partition from a block on. -/
def BackupJob.buffersOf (b : BackupJob) (i : Nat) (p : PartitionInfo) (currentblock : Nat) :
    List BackupBuffer :=
  (chunks b.blocksPerBuffer (markedFrom p (b.bitmapOf i) currentblock)).map (b.buffer p)

/-- What is written of some buffers. -/
def unitItems (buffers : List BackupBuffer) : List FileItem := buffers.map fun c => .unit c.unit

/-- What `BackupDataSize` is set to. -/
def partitionSize (p : PartitionInfo) (buffers : List BackupBuffer) : Nat :=
  bitmapSize p + (buffers.map (·.usedsize)).sum

/-- What comes of the partitions that are backed up, of which the first one has the index `i`. -/
def planFrom {α : Type} (of : Nat → PartitionInfo → List α) : Nat → List PartitionInfo → List α
  | _, [] => []
  | i, p :: ps => if p.bIfBackup then of i p ++ planFrom of (i + 1) ps else planFrom of (i + 1) ps

/-- What comes of the partitions of the table from one on. -/
def BackupJob.plan {α : Type} (b : BackupJob) (of : Nat → PartitionInfo → List α) (i : Nat) :
    List α :=
  planFrom of i (b.partitions.drop i)

/-- The planned buffers of the partitions from one on. -/
def BackupJob.buffersFor (b : BackupJob) : Nat → List BackupBuffer :=
  b.plan fun i p => b.buffersOf i p 0

/-- What is planned to be written of the partitions from one on. -/
def BackupJob.itemsFor (b : BackupJob) : Nat → List FileItem :=
  b.plan fun i p => .bitmap (b.bitmapOf i) :: unitItems (b.buffersOf i p 0)

/-- The planned sizes of the partitions from one on. -/
def BackupJob.sizesFor (b : BackupJob) : Nat → List (Nat × Nat) :=
  b.plan fun i p => [(i, partitionSize p (b.buffersOf i p 0))]

/-- What a backup has to leave. -/
def BackupJob.planned (b : BackupJob) : BackupImage where
  items := b.itemsFor 0
  backupDataSize := b.sizesFor 0

/-- The table's entry of a partition that is there. -/
theorem BackupJob.entry_eq {b : BackupJob} {i : Nat} {p : PartitionInfo}
    (found : b.partitions[i]? = some p) : b.entry i = p := by
  simp only [BackupJob.entry, found, Option.getD_some]

/-- A partition that is to be backed up. -/
def BackupJob.Backed (b : BackupJob) (i : Nat) : Prop :=
  b.partitions[i]? = some (b.entry i) ∧ (b.entry i).bIfBackup = true

/-- A partition that was found to be backed up. -/
theorem BackupJob.backed_of_found {b : BackupJob} {i : Nat} {p : PartitionInfo}
    (found : b.partitions[i]? = some p) (backed : p.bIfBackup = true) : b.Backed i := by
  rw [BackupJob.Backed, BackupJob.entry_eq found]
  exact ⟨found, backed⟩

section Plan

variable {α : Type} {b : BackupJob} {of : Nat → PartitionInfo → List α} {i : Nat}

/-- Nothing is planned behind the last partition. -/
theorem plan_end (last : b.partitions.length ≤ i) : b.plan of i = [] := by
  rw [BackupJob.plan, List.drop_eq_nil_of_le last]
  rfl

/-- Nothing is planned for a partition that is passed over. -/
theorem plan_skip {p : PartitionInfo} (found : b.partitions[i]? = some p)
    (backed : p.bIfBackup = false) : b.plan of i = b.plan of (i + 1) := by
  rw [BackupJob.plan, List.drop_eq_getElem?_toList_append, found]
  simp only [Option.toList_some, List.singleton_append, planFrom, backed, Bool.false_eq_true,
    if_false]
  rfl

/-- What is planned for a partition comes before what is planned for those behind it. -/
theorem plan_backed (backed : b.Backed i) :
    b.plan of i = of i (b.entry i) ++ b.plan of (i + 1) := by
  rw [BackupJob.plan, List.drop_eq_getElem?_toList_append, backed.1]
  simp only [Option.toList_some, List.singleton_append, planFrom, backed.2, if_true]
  rfl

/-- The buffers of a partition, and those of the partitions behind it. -/
theorem buffersFor_backed (backed : b.Backed i) :
    b.buffersFor i = b.buffersOf i (b.entry i) 0 ++ b.buffersFor (i + 1) := plan_backed backed

/-- The bitmap of a partition, its units, and what is written of the partitions behind it. -/
theorem itemsFor_backed (backed : b.Backed i) :
    b.itemsFor i = .bitmap (b.bitmapOf i)
      :: (unitItems (b.buffersOf i (b.entry i) 0) ++ b.itemsFor (i + 1)) := plan_backed backed

/-- The size of a partition, and those of the partitions behind it. -/
theorem sizesFor_backed (backed : b.Backed i) :
    b.sizesFor i
      = (i, partitionSize (b.entry i) (b.buffersOf i (b.entry i) 0)) :: b.sizesFor (i + 1) :=
  plan_backed backed

end Plan

/-- All scans succeed, and so does the compression of every buffer of marked blocks. -/
structure BackupJob.Succeeds (b : BackupJob) : Prop where
  scans : ∀ i p, b.partitions[i]? = some p → p.bIfBackup = true →
    b.ScanPartitionData i = some (b.bitmapOf i)
  compresses : ∀ i p, b.partitions[i]? = some p → p.bIfBackup = true →
    ∀ blocks ∈ chunks b.blocksPerBuffer (markedFrom p (b.bitmapOf i) 0),
      b.compress p blocks = some (b.record p blocks)

/-- The loop that fills a buffer reads the next marked blocks, and stops behind them. -/
theorem readBlocks_eq {full : Nat → Bool} {size : Nat}
    (fills : ∀ c ≤ size, full (c * BLOCK_BYTES) = decide (c = size)) (bitmap : Bytes) (left : Nat) :
    ∀ currentblock c, c < size →
      (readBlocks full bitmap left currentblock (c * BLOCK_BYTES)).1
          = (marked bitmap currentblock left).take (size - c)
        ∧ ∃ count ≤ left, (0 < left → 0 < count)
          ∧ (readBlocks full bitmap left currentblock (c * BLOCK_BYTES)).2 = currentblock + count
          ∧ marked bitmap (currentblock + count) (left - count)
            = (marked bitmap currentblock left).drop (size - c) := by
  induction left with
  | zero =>
    intro currentblock c _
    exact ⟨by simp [readBlocks, marked], 0, Nat.le_refl 0, id, rfl, by simp [marked]⟩
  | succ left ih =>
    intro currentblock c room
    have next : (c + 1) * BLOCK_BYTES = c * BLOCK_BYTES + BLOCK_BYTES := Nat.succ_mul c BLOCK_BYTES
    unfold readBlocks
    by_cases set : readBit currentblock bitmap = true
    · have front : marked bitmap currentblock (left + 1)
          = currentblock :: marked bitmap (currentblock + 1) left := by
        rw [marked, List.range'_succ, List.filter_cons, if_pos set, marked]
      have less : size - c = (size - (c + 1)) + 1 := by omega
      rw [if_pos set, ← next, fills (c + 1) room, front, less, List.take_succ_cons,
        List.drop_succ_cons]
      by_cases last : c + 1 = size
      · -- The block fills the buffer.
        rw [if_pos (decide_eq_true last), last, Nat.sub_self]
        exact ⟨rfl, 1, by omega, fun _ => Nat.one_pos, rfl, by simp⟩
      · rw [if_neg (by simpa using last)]
        obtain ⟨read, count, within, -, stop, rest⟩ := ih (currentblock + 1) (c + 1) (by omega)
        refine ⟨congrArg (currentblock :: ·) read, count + 1, by omega, fun _ => Nat.succ_pos count,
          ?_, ?_⟩
        · show (readBlocks full bitmap left (currentblock + 1) ((c + 1) * BLOCK_BYTES)).2 = _
          rw [stop]
          omega
        · rw [← rest]
          congr 1 <;> omega
    · -- A block that is not marked is passed over.
      have front : marked bitmap currentblock (left + 1) = marked bitmap (currentblock + 1) left := by
        rw [marked, List.range'_succ, List.filter_cons, if_neg set, marked]
      rw [if_neg set, front]
      obtain ⟨read, count, within, -, stop, rest⟩ := ih (currentblock + 1) c room
      refine ⟨read, count + 1, by omega, fun _ => Nat.succ_pos count, ?_, ?_⟩
      · rw [stop]
        omega
      · rw [← rest]
        congr 1 <;> omega

/-- What a loop has read into a buffer: the next chunk, and where the marked blocks go on. -/
structure ReadsChunk (size : Nat) (p : PartitionInfo) (bitmap : Bytes) (currentblock : Nat)
    (read : List Nat × Nat) : Prop where
  blocks : read.1 = (markedFrom p bitmap currentblock).take size
  rest : markedFrom p bitmap read.2 = (markedFrom p bitmap currentblock).drop size
  onward : currentblock ≤ read.2
  further : currentblock < maxblock p → currentblock < read.2
  within : currentblock ≤ maxblock p → read.2 ≤ maxblock p

/-- A loop whose test tells a full buffer reads the next chunk. -/
theorem readsChunk {full : Nat → Bool} {size : Nat} (positive : 0 < size)
    (fills : ∀ c ≤ size, full (c * BLOCK_BYTES) = decide (c = size)) (p : PartitionInfo)
    (bitmap : Bytes) (currentblock : Nat) :
    ReadsChunk size p bitmap currentblock
      (readBlocks full bitmap (maxblock p - currentblock) currentblock 0) := by
  have spec := readBlocks_eq fills bitmap (maxblock p - currentblock) currentblock 0 positive
  rw [Nat.zero_mul, Nat.sub_zero] at spec
  obtain ⟨read, count, within, some_, stop, rest⟩ := spec
  constructor
  · exact read
  · rw [stop, markedFrom, Nat.sub_add_eq]
    exact rest
  · rw [stop]
    exact Nat.le_add_right _ _
  · intro below
    have := some_ (by omega)
    omega
  · omega

/-- The loop of `DiskReadThread` reads the next chunk. -/
theorem asyncRead_readsChunk (b : BackupJob) (p : PartitionInfo) (bitmap : Bytes)
    (currentblock : Nat) :
    ReadsChunk b.blocksPerBuffer p bitmap currentblock (b.asyncRead p bitmap currentblock) := by
  apply readsChunk b.blocksPerBuffer_pos
  intro c most
  -- One block more would not fit exactly when the buffer is full.
  apply decide_eq_decide.mpr
  have bytes : BLOCK_BYTES = 32768 := rfl
  rw [BackupJob.totalsize, bytes]
  omega

/-- The test of `Backup` finds a buffer full. -/
theorem syncRead_readsChunk (b : BackupJob) (p : PartitionInfo) (bitmap : Bytes)
    (currentblock : Nat) :
    ReadsChunk b.blocksPerBuffer p bitmap currentblock
      (readBlocks (fun readn => readn == b.totalsize) bitmap (maxblock p - currentblock)
        currentblock 0) := by
  apply readsChunk b.blocksPerBuffer_pos
  intro c most
  rw [Bool.beq_eq_decide_eq]
  apply decide_eq_decide.mpr
  have bytes : BLOCK_BYTES = 32768 := rfl
  rw [BackupJob.totalsize, bytes]
  omega

/-- An empty chunk is read only when no marked blocks are left. -/
theorem ReadsChunk.none_left {size : Nat} (positive : 0 < size) {p : PartitionInfo} {bitmap : Bytes}
    {currentblock : Nat} {read : List Nat × Nat}
    (reads : ReadsChunk size p bitmap currentblock read) (empty : read.1 = []) :
    markedFrom p bitmap currentblock = [] ∧ markedFrom p bitmap read.2 = [] := by
  rw [reads.blocks, List.take_eq_nil_iff] at empty
  have none_ : markedFrom p bitmap currentblock = [] := empty.resolve_left (by omega)
  exact ⟨none_, by rw [reads.rest, none_, List.drop_nil]⟩

/-- A chunk that was read is the first one of those left. -/
theorem ReadsChunk.chunks_left {size : Nat} (positive : 0 < size) {p : PartitionInfo}
    {bitmap : Bytes} {currentblock : Nat} {read : List Nat × Nat}
    (reads : ReadsChunk size p bitmap currentblock read) (some_ : read.1 ≠ []) :
    chunks size (markedFrom p bitmap currentblock)
      = read.1 :: chunks size (markedFrom p bitmap read.2) := by
  rw [chunks_of_ne_nil positive, reads.rest, ← reads.blocks]
  intro none_
  rw [reads.blocks, none_, List.take_nil] at some_
  exact some_ rfl

/-- No blocks are left behind the last one. -/
theorem markedFrom_end {p : PartitionInfo} {bitmap : Bytes} {currentblock : Nat}
    (last : maxblock p ≤ currentblock) : markedFrom p bitmap currentblock = [] := by
  rw [markedFrom, Nat.sub_eq_zero_of_le last]
  rfl

end Okr
