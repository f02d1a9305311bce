import Okr.Proofs.BackupAgrees
import Okr.Proofs.RestoreRounds
import Okr.Proofs.SyncBackup

/-! What a backup saved is restored: the saved sectors have their content again, the others stay. -/

namespace Okr

open Chunks Runs

variable {b : BackupJob} {j : RecoverJob} {p : PartitionInfo} {i n : Nat} {target : Image}

/--
A backup whose scans succeed, with the real compression and memory of the size it asks for.

The partitions lie where their sectors and sizes are far from the ends of 64-bit numbers.
-/
structure BackupJob.Restorable (b : BackupJob) : Prop where
  lz4 : ∃ dest destSize, b.LZ4_compress = lz4CompressBytes dest destSize ∧ LZ4_COMPRESSBOUND b.totalsize ≤ destSize
  fits : b.totalsize ≤ LZ4_MAX_INPUT_SIZE
  scans : ∀ i p, b.partitions[i]? = some p → p.bIfBackup = true →
    b.ScanPartitionData i = some (b.bitmapOf i) ∧ (b.bitmapOf i).length = bitmapSize p
  ends : ∀ p ∈ b.partitions, p.bIfBackup = true → p.bootBegin + p.totalSectors ≤ 2 ^ 53

/-- The sectors a backup saves: those of the marked blocks of the partitions that are backed up. -/
def BackupJob.Saved (b : BackupJob) (sector : Nat) : Prop :=
  ∃ i p, b.partitions[i]? = some p ∧ p.bIfBackup = true ∧ p.Has sector
    ∧ readBit ((sector - p.bootBegin) / BLOCK_SIZE) (b.bitmapOf i) = true

/-- A restore has opened the image file a backup has left. -/
structure RecoverJob.Opens (j : RecoverJob) (b : BackupJob) (image : BackupImage) (before : Nat → Image)
    (header : Bytes) : Prop where
  partitions : j.partitions = image.header b.partitions
  dataOffset : j.dataOffset = header.length
  reads : j.Reads (header ++ itemsWritten before 0 image.items)
  compressBlockSize : j.compressBlockSize = b.totalsize
  lz4 : ∃ dest, j.LZ4_decompress_safe = lz4DecompressSafe dest j.compressBlockSize

/-! ### What the units take -/

/-- The blocks of a unit fit into a buffer. -/
theorem short_of_mem_chunks {l blocks : List Nat} (member : blocks ∈ chunks b.blocksPerBuffer l) :
    blocks.length * BLOCK_BYTES ≤ b.totalsize :=
  Nat.mul_le_mul_right _ (length_le_of_mem_chunks b.blocksPerBuffer_pos member)

/-- Every buffer of marked blocks becomes a unit that stands for its data. -/
theorem BackupJob.Restorable.unit (restorable : b.Restorable) {l blocks : List Nat}
    (member : blocks ∈ chunks b.blocksPerBuffer l) :
    b.compress p blocks = some (b.record p blocks)
      ∧ (b.record p blocks).StandsFor b.totalsize (blockData b.disk p blocks) := by
  obtain ⟨dest, destSize, real, large⟩ := restorable.lz4
  have some_ := ne_nil_of_mem_chunks b.blocksPerBuffer_pos member
  have positive := List.length_pos_iff.mpr some_
  have bytes : BLOCK_BYTES = 32768 := rfl
  have data : blockData b.disk p blocks ≠ [] := by
    refine List.length_pos_iff.mp ?_
    rw [length_blockData, bytes]
    omega
  obtain ⟨record, compressed, stands⟩ := compressBuffer_lz4 dest data
    (by rw [length_blockData]; exact short_of_mem_chunks member) restorable.fits large
  have unit : b.compress p blocks = some record := by
    rw [BackupJob.compress, real]
    exact compressed
  rw [BackupJob.record, unit, Option.getD_some]
  exact ⟨rfl, stands⟩

/-- With the real compression a backup succeeds whose scans do. -/
theorem BackupJob.Restorable.succeeds (restorable : b.Restorable) : b.Succeeds where
  scans i p found backed := (restorable.scans i p found backed).1
  compresses _ _ _ _ _ member := (restorable.unit member).1

/-- A unit takes twice its blocks at most. -/
theorem BackupJob.Restorable.align_le (restorable : b.Restorable) {l blocks : List Nat}
    (member : blocks ∈ chunks b.blocksPerBuffer l) :
    (b.record p blocks).align_lz4_size ≤ blocks.length * (2 * BLOCK_BYTES) := by
  have positive := List.length_pos_iff.mpr (ne_nil_of_mem_chunks b.blocksPerBuffer_pos member)
  have stands := (restorable.unit (p := p) member).2
  have short := stands.short
  have near := (calcAliginSize_bounds ((b.record p blocks).data.length + LZ4_BUFFER_HEAD_SIZE)).2
  rw [length_blockData] at short
  rw [stands.align_lz4_size]
  simp only [BLOCK_BYTES, BLOCK_SIZE, SECTOR_SIZE, LZ4_BUFFER_HEAD_SIZE, ALGIN_SIZE_BYTE] at short near ⊢
  omega

/-- The sizes of units together, where each takes no more than a multiple of its blocks. -/
theorem sum_le_of_units {size : List Nat → Nat} {factor : Nat} :
    ∀ units : List (List Nat), (∀ blocks ∈ units, size blocks ≤ blocks.length * factor) →
      (units.map size).sum ≤ units.flatten.length * factor := by
  intro units
  induction units with
  | nil => exact fun _ => Nat.zero_le _
  | cons blocks units ih =>
    intro each
    have first := each blocks List.mem_cons_self
    have later := ih fun b member => each b (List.mem_cons_of_mem _ member)
    rw [List.map_cons, List.sum_cons, List.flatten_cons, List.length_append, Nat.add_mul]
    omega

/-- A partition has no more marked blocks than blocks. -/
theorem length_markedFrom (p : PartitionInfo) (bitmap : Bytes) : (markedFrom p bitmap 0).length ≤ maxblock p := by
  rw [markedFrom, marked]
  exact Nat.le_trans (List.length_filter_le _ _) (by rw [List.length_range', Nat.sub_zero])

/-- The sizes of the units of a partition are far from the end of 64-bit numbers. -/
theorem BackupJob.Restorable.partitionSize_lt (restorable : b.Restorable) (ends : p.totalSectors ≤ 2 ^ 53) :
    partitionSize p (b.buffersOf i p 0) < 2 ^ 64 := by
  have units := @sum_le_of_units (fun blocks => (b.record p blocks).align_lz4_size) (2 * BLOCK_BYTES)
    (chunks b.blocksPerBuffer (markedFrom p (b.bitmapOf i) 0)) fun blocks member => restorable.align_le member
  have few := length_markedFrom p (b.bitmapOf i)
  rw [flatten_chunks b.blocksPerBuffer_pos] at units
  have bitmap := (calcAliginSize_bounds ((maxblock p + 7) / 8)).2
  have blocks : maxblock p ≤ 2 ^ 47 := by
    simp only [maxblock, u64, BLOCK_SIZE]
    omega
  rw [partitionSize, BackupJob.buffersOf, List.map_map, bitmapSize]
  simp only [BLOCK_BYTES, BLOCK_SIZE, SECTOR_SIZE, ALGIN_SIZE_BYTE] at units bitmap
  have same : (chunks b.blocksPerBuffer (markedFrom p (b.bitmapOf i) 0)).map
      ((fun c : BackupBuffer => c.usedsize) ∘ b.buffer p)
      = (chunks b.blocksPerBuffer (markedFrom p (b.bitmapOf i) 0)).map fun blocks =>
        (b.record p blocks).align_lz4_size := rfl
  rw [same]
  omega

/-! ### The file -/

/-- The bytes of items are those of the first ones and those of the others. -/
theorem itemsWritten_append (before : Nat → Image) (items more : List FileItem) :
    ∀ n, itemsWritten before n (items ++ more)
      = itemsWritten before n items ++ itemsWritten before (n + items.length) more := by
  induction items with
  | nil => exact fun n => rfl
  | cons item items ih =>
    intro n
    rw [List.cons_append, itemsWritten, itemsWritten, ih, List.append_assoc, List.length_cons]
    congr 3
    omega

/-- What was planned for a partition is found under its index. -/
theorem lookup_planFrom (size : Nat → PartitionInfo → Nat) {p : PartitionInfo} (backed : p.bIfBackup = true) :
    ∀ (ps : List PartitionInfo) (k m : Nat), ps[m]? = some p →
      (planFrom (fun i p => [(i, size i p)]) k ps).lookup (k + m) = some (size (k + m) p) := by
  intro ps
  induction ps with
  | nil => exact fun k m found => nomatch found
  | cons q ps ih =>
    intro k m found
    cases m with
    | zero =>
      obtain rfl : q = p := Option.some.inj found
      rw [planFrom, if_pos backed]
      simp
    | succ m =>
      have later := ih (k + 1) m found
      rw [show k + 1 + m = k + (m + 1) by omega] at later
      rw [planFrom]
      split
      · have other : (k + (m + 1) == k) = false := beq_false_of_ne (by omega)
        rw [List.singleton_append, List.lookup_cons, other]
        exact later
      · exact later

/-- The header's entry of a partition that was backed up. -/
theorem header_backed (found : b.partitions[i]? = some p) (backed : p.bIfBackup = true) :
    (b.planned.header b.partitions)[i]?
      = some { p with backupDataSize := partitionSize p (b.buffersOf i p 0) } := by
  have size := lookup_planFrom (fun i p => partitionSize p (b.buffersOf i p 0)) backed b.partitions 0 i found
  rw [Nat.zero_add] at size
  have same : b.planned.backupDataSize.lookup i = some (partitionSize p (b.buffersOf i p 0)) := size
  rw [BackupImage.header, List.getElem?_mapIdx, found, Option.map_some, same]

/-- The header's entry of any partition says whether it was backed up. -/
theorem header_entry (found : b.partitions[i]? = some p) :
    ∃ p', (b.planned.header b.partitions)[i]? = some p' ∧ p'.bIfBackup = p.bIfBackup := by
  rw [BackupImage.header, List.getElem?_mapIdx, found, Option.map_some]
  refine ⟨_, rfl, ?_⟩
  split <;> rfl

/-! ### The partitions -/

variable {s : RecoverState} {file rest : Bytes} {before : Nat → Image} {stop : Nat}

/-- A sector of a marked block. -/
def PartitionInfo.Marks (p : PartitionInfo) (bitmap : Bytes) (sector : Nat) : Prop :=
  p.Has sector ∧ readBit ((sector - p.bootBegin) / BLOCK_SIZE) bitmap = true

/-- The sectors of the marked blocks are those whose block is marked. -/
theorem inBlocks_marked (ends : p.totalSectors ≤ 2 ^ 53) (bitmap : Bytes) (sector : Nat) :
    p.InBlocks (markedFrom p bitmap 0) sector ↔ p.Marks bitmap sector := by
  rw [PartitionInfo.InBlocks, PartitionInfo.Marks, mem_markedFrom]
  refine and_congr_right fun has => ⟨fun inside => inside.2.2, fun bit => ⟨Nat.zero_le _, ?_, bit⟩⟩
  obtain ⟨least, most⟩ := has
  simp only [maxblock, u64, BLOCK_SIZE]
  omega

/-- What a restore of one or more partitions leaves: the file behind them, and the disk. -/
structure RestoredTo (source : Image) (saved : Nat → Prop) (stop : Nat) (s after : RecoverState) : Prop where
  place : after.filepos = stop
  written : ∀ a, saved (a / SECTOR_SIZE) → after.disk a = source a
  other : ∀ a, ¬ saved (a / SECTOR_SIZE) → after.disk a = s.disk a

/-- A partition is restored from its bitmap and its units. -/
theorem syncPartition_restores (restorable : b.Restorable) (smooth : j.Smooth) (reads : j.Reads file)
    (size : j.compressBlockSize = b.totalsize)
    (lz4 : ∃ dest, j.LZ4_decompress_safe = lz4DecompressSafe dest j.compressBlockSize) (bMultiThread : Bool)
    {rounds : Nat} (found : b.partitions[i]? = some p) (backed : p.bIfBackup = true)
    (enough : maxblock p + 3 ≤ rounds)
    (at_ : file.drop s.filepos = itemsWritten before n
      (.bitmap (b.bitmapOf i) :: unitItems (b.buffersOf i p 0)) ++ rest)
    (place : s.filepos + (itemsWritten before n
      (.bitmap (b.bitmapOf i) :: unitItems (b.buffersOf i p 0))).length = stop) :
    ∃ after, j.syncPartition bMultiThread rounds
        { p with backupDataSize := partitionSize p (b.buffersOf i p 0) } s = some (true, after)
      ∧ file.drop after.filepos = rest ∧ RestoredTo b.disk (p.Marks (b.bitmapOf i)) stop s after := by
  have ends := restorable.ends p (List.mem_of_getElem? found) backed
  have length := (restorable.scans i p found backed).2
  have small := restorable.partitionSize_lt (p := p) (i := i) (by omega)
  have units : unitItems (b.buffersOf i p 0)
      = (chunks b.blocksPerBuffer (markedFrom p (b.bitmapOf i) 0)).map fun blocks => .unit (b.record p blocks) := by
    rw [unitItems, BackupJob.buffersOf, List.map_map]
    rfl
  have sum : partitionSize p (b.buffersOf i p 0) = bitmapSize p
      + ((chunks b.blocksPerBuffer (markedFrom p (b.bitmapOf i) 0)).map fun blocks =>
        (b.record p blocks).align_lz4_size).sum := by
    rw [partitionSize, BackupJob.buffersOf, List.map_map]
    rfl
  rw [itemsWritten, FileItem.written, units] at at_ place
  rw [List.length_append] at place
  by_cases nothing : partitionSize p (b.buffersOf i p 0) = 0
  · -- A partition without blocks takes no bytes, and is passed over.
    have few : maxblock p = 0 := by
      have least := (calcAliginSize_bounds ((maxblock p + 7) / 8)).1
      rw [bitmapSize] at sum
      omega
    have none_ : markedFrom p (b.bitmapOf i) 0 = [] := markedFrom_end (by omega)
    have empty : b.bitmapOf i = [] := List.length_eq_zero_iff.mp (by rw [length]; omega)
    have unmarked : ∀ sector, ¬ p.Marks (b.bitmapOf i) sector := by
      intro sector marks
      have inside := (inBlocks_marked (by omega) _ _).mpr marks
      rw [none_] at inside
      exact absurd inside.2 List.not_mem_nil
    rw [none_, chunks_nil, empty] at at_ place
    refine ⟨s, ?_, at_, place, fun a marks => absurd marks (unmarked _), fun _ _ => rfl⟩
    rw [RecoverJob.syncPartition, nothing]
    exact if_pos (by rw [backed]; rfl)
  · let p' : PartitionInfo := { p with backupDataSize := partitionSize p (b.buffersOf i p 0) }
    let u : UnitsInFile :=
      { source := b.disk
        p := p'
        bitmap := b.bitmapOf i
        record := b.record p
        file := file
        before := before
        rest := rest
        stop := stop
        total := unitsSize p' }
    have total : u.total = ((chunks b.blocksPerBuffer (markedFrom p (b.bitmapOf i) 0)).map fun blocks =>
        (b.record p blocks).align_lz4_size).sum := by
      show sub64 (partitionSize p (b.buffersOf i p 0)) (bitmapSize p) = _
      rw [sub64_eq (by omega) small]
      omega
    have serves : j.Serves u :=
      ⟨smooth, reads, lz4, by rw [total]; omega, Nat.lt_of_le_of_lt ends (by decide)⟩
    have bitmap : Overlay.window file s.filepos (bitmapSize p) = b.bitmapOf i := by
      rw [Overlay.window, at_, List.append_assoc, List.take_left' length]
    have reading : UnitsAhead j u (n + 1) (chunks b.blocksPerBuffer (markedFrom p (b.bitmapOf i) 0))
        (j.clean (b.bitmapOf i) s) := by
      refine ⟨fun blocks member => ?_, ?_, ?_, ?_⟩
      · rw [size]
        exact (restorable.unit member).2
      · show file.drop (s.filepos + (b.bitmapOf i).length) = _
        rw [← List.drop_drop, at_, List.append_assoc, List.drop_left]
        rfl
      · show s.filepos + (b.bitmapOf i).length + _ = stop
        rw [← place, Nat.add_assoc]
        rfl
      · rw [total]
        exact Nat.zero_add _
    have marks : markedFrom u.p u.bitmap (j.clean (b.bitmapOf i) s).currentblock
        = (chunks b.blocksPerBuffer (markedFrom p (b.bitmapOf i) 0)).flatten := by
      rw [flatten_chunks b.blocksPerBuffer_pos]
      rfl
    have front : InFront j u (chunks b.blocksPerBuffer (markedFrom p (b.bitmapOf i) 0)) (j.clean (b.bitmapOf i) s) :=
      ⟨marks, fun blocks member => ⟨ne_nil_of_mem_chunks b.blocksPerBuffer_pos member,
        by rw [size]; exact short_of_mem_chunks member⟩, Nat.zero_le _, rfl, rfl⟩
    have count : (chunks b.blocksPerBuffer (markedFrom p (b.bitmapOf i) 0)).length ≤ maxblock p :=
      Nat.le_trans (length_chunks_le b.blocksPerBuffer_pos _) (length_markedFrom p _)
    obtain ⟨after, run, restored⟩ := rounds_restore serves bMultiThread reading front (fun _ => rfl) rfl rfl
      (show _ ≤ rounds by omega)
    rw [flatten_chunks b.blocksPerBuffer_pos] at restored
    have same : ∀ sector, u.p.InBlocks (markedFrom p (b.bitmapOf i) 0) sector ↔ p.Marks (b.bitmapOf i) sector :=
      fun sector => @inBlocks_marked p' (show p.totalSectors ≤ 2 ^ 53 by omega) (b.bitmapOf i) sector
    refine ⟨after, ?_, restored.file, restored.place, fun a marks => restored.written a ((same _).mpr marks),
      fun a unmarked => restored.other a fun inside => unmarked ((same _).mp inside)⟩
    have passes : (!p'.bIfBackup || p'.backupDataSize == 0) = false := by
      have some_ : (p'.backupDataSize == 0) = false := beq_false_of_ne nothing
      rw [some_, show p'.bIfBackup = true from backed]
      rfl
    have read : j.FileRead s.filepos (bitmapSize p') = some (b.bitmapOf i) := by
      rw [reads]
      exact congrArg some bitmap
    rw [RecoverJob.syncPartition, if_neg (by rw [passes]; exact Bool.false_ne_true), read]
    dsimp only
    rw [if_pos (show _ = bitmapSize p' from length)]
    show (Loop.run (j.syncRound bMultiThread u.p u.bitmap u.total) rounds (j.clean (b.bitmapOf i) s)).join = _
    rw [run]
    rfl

/-- The sectors saved of the partitions from one on. -/
def BackupJob.SavedFrom (b : BackupJob) (i sector : Nat) : Prop :=
  ∃ k p, i ≤ k ∧ b.partitions[k]? = some p ∧ p.bIfBackup = true ∧ p.Marks (b.bitmapOf k) sector

/-- The partitions are restored one after the other. -/
theorem syncFrom_restores (restorable : b.Restorable) (smooth : j.Smooth) (reads : j.Reads file)
    (size : j.compressBlockSize = b.totalsize)
    (lz4 : ∃ dest, j.LZ4_decompress_safe = lz4DecompressSafe dest j.compressBlockSize) (bMultiThread : Bool)
    {rounds : Nat} (enough : ∀ p ∈ b.partitions, maxblock p + 3 ≤ rounds) (i n : Nat) (s : RecoverState)
    (at_ : file.drop s.filepos = itemsWritten before n (b.itemsFor i))
    (place : s.filepos + (itemsWritten before n (b.itemsFor i)).length = stop) :
    ∃ after, j.syncFrom bMultiThread rounds ((b.planned.header b.partitions).drop i) s = some (true, after)
      ∧ RestoredTo b.disk (b.SavedFrom i) stop s after := by
  have length : (b.planned.header b.partitions).length = b.partitions.length := List.length_mapIdx
  -- on the partitions left, each one either passed over or restored
  induction left : b.partitions.length - i generalizing i n s with
  | zero =>
    have last : b.partitions.length ≤ i := by omega
    rw [BackupJob.itemsFor, plan_end last] at at_ place
    rw [List.drop_eq_nil_of_le (by omega)]
    refine ⟨s, rfl, place, ?_, fun _ _ => rfl⟩
    rintro a ⟨k, p, behind, found, -⟩
    obtain ⟨inside, -⟩ := List.getElem?_eq_some_iff.mp found
    omega
  | succ left ih =>
    have inside : i < b.partitions.length := by omega
    have found : b.partitions[i]? = some b.partitions[i] := List.getElem?_eq_getElem inside
    obtain ⟨p', entry, same⟩ := header_entry found
    have first : (b.planned.header b.partitions).drop i = p' :: (b.planned.header b.partitions).drop (i + 1) := by
      rw [List.drop_eq_getElem?_toList_append, entry]
      rfl
    rw [first, RecoverJob.syncFrom]
    cases backed : (b.partitions[i]).bIfBackup with
    | false =>
      rw [BackupJob.itemsFor, plan_skip found backed] at at_ place
      obtain ⟨after, rest, restored⟩ := ih (i + 1) n s at_ place (by omega)
      have passes : j.syncPartition bMultiThread rounds p' s = some (true, s) := by
        rw [RecoverJob.syncPartition]
        exact if_pos (by rw [same, backed]; rfl)
      have more : ∀ sector, b.SavedFrom i sector ↔ b.SavedFrom (i + 1) sector := by
        intro sector
        constructor
        · rintro ⟨k, p, behind, place, own, marks⟩
          refine ⟨k, p, ?_, place, own, marks⟩
          -- The partition itself is not backed up.
          rcases Nat.lt_or_eq_of_le behind with less | rfl
          · exact less
          · rw [found] at place
            rw [← Option.some.inj place, backed] at own
            cases own
        · rintro ⟨k, p, behind, others⟩
          exact ⟨k, p, by omega, others⟩
      rw [passes]
      exact ⟨after, rest, restored.place, fun a saved => restored.written a ((more _).mp saved),
        fun a others => restored.other a fun saved => others ((more _).mpr saved)⟩
    | true =>
      have own := BackupJob.backed_of_found found backed
      have parts : b.itemsFor i = (.bitmap (b.bitmapOf i) :: unitItems (b.buffersOf i b.partitions[i] 0))
          ++ b.itemsFor (i + 1) := by
        rw [itemsFor_backed own, BackupJob.entry_eq found]
        rfl
      rw [parts, itemsWritten_append] at at_ place
      rw [List.length_append, ← Nat.add_assoc] at place
      obtain ⟨mid, one, file', restored⟩ := syncPartition_restores restorable smooth reads size lz4 bMultiThread found
        backed (enough _ (List.getElem_mem inside)) at_ rfl
      rw [← restored.place] at place
      obtain ⟨after, rest, restored'⟩ := ih (i + 1) _ mid file' place (by omega)
      rw [header_backed found backed] at entry
      rw [← Option.some.inj entry, one]
      refine ⟨after, rest, restored'.place, fun a saved => ?_, fun a others => ?_⟩
      · by_cases later : b.SavedFrom (i + 1) (a / SECTOR_SIZE)
        · exact restored'.written a later
        · rw [restored'.other a later]
          obtain ⟨k, p, behind, place, own, marks⟩ := saved
          rcases Nat.lt_or_eq_of_le behind with less | rfl
          · exact absurd ⟨k, p, less, place, own, marks⟩ later
          · rw [found] at place
            rw [← Option.some.inj place] at marks
            exact restored.written a marks
      · have later : ¬ b.SavedFrom (i + 1) (a / SECTOR_SIZE) := by
          rintro ⟨k, p, behind, more⟩
          exact others ⟨k, p, by omega, more⟩
        rw [restored'.other a later]
        exact restored.other a fun marks => others ⟨i, _, Nat.le_refl _, found, backed, marks⟩

/--
A restore of an image brings the saved sectors back and leaves all others as they were.

It may run with or without the second thread, and start from any disk and any memory.
-/
def BackupImage.Restores (image : BackupImage) (b : BackupJob) (rounds : Nat) : Prop :=
  ∀ (j : RecoverJob) (before : Nat → Image) (header : Bytes), j.Smooth → j.Opens b image before header →
    ∀ (bMultiThread : Bool) (memory : RecoverMemory) (target : Image), ∃ s,
      j.sync bMultiThread rounds memory target = some (true, s)
        ∧ s.filepos = (header ++ itemsWritten before 0 image.items).length
        ∧ (∀ a, b.Saved (a / SECTOR_SIZE) → s.disk a = b.disk a)
        ∧ ∀ a, ¬ b.Saved (a / SECTOR_SIZE) → s.disk a = target a

/-- The image a backup has to leave is restored. -/
theorem planned_restores {rounds : Nat} (restorable : b.Restorable)
    (enough : ∀ p ∈ b.partitions, maxblock p + 3 ≤ rounds) : b.planned.Restores b rounds := by
  intro j before header smooth opens bMultiThread memory target
  have at_ : (header ++ itemsWritten before 0 b.planned.items).drop (j.start memory target).filepos
      = itemsWritten before 0 (b.itemsFor 0) := by
    show List.drop j.dataOffset _ = _
    rw [opens.dataOffset, List.drop_left]
    rfl
  obtain ⟨s, run, restored⟩ := syncFrom_restores restorable smooth opens.reads opens.compressBlockSize opens.lz4
    bMultiThread enough 0 0 (j.start memory target) at_ rfl
  have saved : ∀ sector, b.Saved sector ↔ b.SavedFrom 0 sector := by
    intro sector
    constructor
    · rintro ⟨k, p, found, backed, has, bit⟩
      exact ⟨k, p, Nat.zero_le _, found, backed, has, bit⟩
    · rintro ⟨k, p, -, found, backed, has, bit⟩
      exact ⟨k, p, found, backed, has, bit⟩
  refine ⟨s, ?_, ?_, fun a inside => restored.written a ((saved _).mp inside),
    fun a outside => restored.other a fun inside => outside ((saved _).mpr inside)⟩
  · rw [RecoverJob.sync, opens.partitions]
    exact run
  · rw [restored.place, List.length_append]
    show j.dataOffset + _ = _
    rw [opens.dataOffset]
    rfl

/-- A disk whose only partition has one block, which is in use. -/
def savedBlock : BackupJob where
  disk a := UInt8.ofNat a
  partitions := [{ bootBegin := 1, totalSectors := 64, bIfBackup := true }]
  ScanPartitionData _ := some (1 :: List.replicate 4095 0)
  LZ4_compress := lz4CompressBytes (fun _ => 0) (LZ4_COMPRESSBOUND (1 * BLOCK_BYTES))
  number := 4
  number_ge := by decide
  blocksPerBuffer := 1
  blocksPerBuffer_pos := Nat.one_pos

/-- Its bitmap has the size that is written, and its sectors are small numbers. -/
theorem savedBlock_restorable : savedBlock.Restorable where
  lz4 := ⟨_, _, rfl, Nat.le_refl _⟩
  fits := by decide
  scans i p found _ := by
    obtain rfl : p = { bootBegin := 1, totalSectors := 64, bIfBackup := true } :=
      List.mem_singleton.mp (List.mem_of_getElem? found)
    have size : bitmapSize { bootBegin := 1, totalSectors := 64, bIfBackup := true } = 4096 := by decide
    have length : (1 :: List.replicate 4095 0 : Bytes).length = 4096 := by
      rw [List.length_cons, List.length_replicate]
    exact ⟨rfl, length.trans size.symm⟩
  ends p member _ := by
    rw [List.mem_singleton.mp member]
    decide

/-- The same disk with no block in use. -/
def emptyVolume : BackupJob := { savedBlock with ScanPartitionData := fun _ => some (List.replicate 4096 0) }

/-- The bitmap of the empty volume has the size that is written. -/
theorem emptyVolume_restorable : emptyVolume.Restorable where
  lz4 := savedBlock_restorable.lz4
  fits := savedBlock_restorable.fits
  scans i p found backed := by
    have size := (savedBlock_restorable.scans i p found backed).2
    have length : (1 :: List.replicate 4095 0 : Bytes).length = 4096 := by
      rw [List.length_cons, List.length_replicate]
    exact ⟨rfl, List.length_replicate.trans (length.symm.trans size)⟩
  ends := savedBlock_restorable.ends

/-- The reader ends before the writer begins. -/
def readerEnds : List BackupAction :=
  List.replicate 20 .read ++ List.replicate 14 (.main true) ++ List.replicate 3 .read ++ List.replicate 3 (.main true)

end Okr
