import Okr.Proofs.BootArea
import Okr.Restore.TableStep

/-! The partition-table step of `Recover` keeps the table of the disk unless it is asked to change it. -/

namespace Okr

/-- The restore is asked to change the table: it is a factory or forced one, or goes to a new disk. -/
def RestoreMode.Asked (mode : RestoreMode) (bFactoryRestore : Bool) : Prop :=
  mode.bForceRestorePartition = true ∨ bFactoryRestore = true ∨ mode.isNewDisk = true

/-- No byte of the table is another one, and no sector of a partition was asked for. -/
structure KeepsTable (g_Partitions : List TablePartition) (disk : TargetDisk) (run : BootAreaRun) : Prop where
  table : ∀ a, IsTableByte disk.bytes a → run.disk a = disk.bytes a
  before : ∀ p ∈ g_Partitions, p.diskNumber = disk.diskNumber → run.number ≤ p.bootBegin

/-- The step changes the table only if it is asked to, and in every other run keeps off the partitions. -/
structure TableKeptUnasked (g_Partitions : List TablePartition) (disk : TargetDisk) (mode : RestoreMode)
    (bFactoryRestore : Bool) (run : BootAreaRun) : Prop where
  changes : ∀ a, IsTableByte disk.bytes a → run.disk a ≠ disk.bytes a → mode.Asked bFactoryRestore
  others : ¬mode.Asked bFactoryRestore →
    (∀ a, IsMbrTableByte a → run.disk a = disk.bytes a)
      ∧ ∀ p ∈ g_Partitions, p.diskNumber = disk.diskNumber → run.number ≤ p.bootBegin

/-- The sectors end before every partition, and those that arrive carry the table of the disk. -/
def WriteAgrees (g_Partitions : List TablePartition) (disk : TargetDisk) (number : Nat) (data : Image) :
    Prop :=
  (∀ p ∈ g_Partitions, p.diskNumber = disk.diskNumber → number ≤ p.bootBegin)
    ∧ ∀ a, IsTableByte disk.bytes a → a < min number disk.reached * SECTOR_SIZE →
        data a = disk.bytes a

/-- Boot code arrives behind the boot record with the GPT sectors of the disk, if it has a GPT. -/
def GrubAgrees (disk : TargetDisk) (number : Nat) (buffer : Image) : Prop :=
  ∀ a, IsTableByte disk.bytes a → ¬IsMbrTableByte a → a < min number disk.reached * SECTOR_SIZE →
    buffer a = disk.bytes a

/-- The restore comes to its write: no test ends it, and it is not the system's disk chosen on the page. -/
structure ComesToWrite (g_Partitions : List TablePartition) (image : RecoverImage) (disk : RecoverDisk)
    (mode : RestoreMode) (passes : Bool) : Prop where
  found : klchange g_Partitions image.partition disk.diskNumber = false
  sameDisk : refusesDisk g_Partitions image disk mode
    (ifNeedRecoverPartTable_Linux g_Partitions image.partition disk.diskNumber) = false
  passes : passes = true
  other : mode.isSysdisk = false
  readable : disk.readable = true

/-- A changed table is written: the disk is not the original one, or is partitioned in another way. -/
def WritesChanged (g_Partitions : List TablePartition) (image : RecoverImage) (diskNumber : Nat)
    (mode : RestoreMode) : Prop :=
  mode.comefromnewhddface = true
    ∨ (mode.olddisk ≠ 0
      ∧ (mode.olddisk ≠ 1 ∨ isGptSystem g_Partitions diskNumber ≠ image.bGpt))

/--
When the step keeps the table.

With a table that is found unchanged, boot code must end before the partitions and leave a GPT.
With a changed one the whole boot area is written, and then it must agree with what the disk has.
-/
def TableStepHolds (g_Partitions : List TablePartition) (image : RecoverImage) (disk : RecoverDisk)
    (mode : RestoreMode) (bFactoryRestore passes : Bool) (memory : Image) : Prop :=
  ¬mode.Asked bFactoryRestore → ComesToWrite g_Partitions image disk mode passes →
    ∀ boot, image.bootArea = some boot →
      let buffer := bootBuffer image.toLinuxImage boot disk.toTargetDisk memory
      (¬TableChanged g_Partitions image.toLinuxImage disk.toTargetDisk false buffer →
        BringsGrub g_Partitions image.toLinuxImage disk.diskNumber →
          FirstIsFree g_Partitions disk.diskNumber
            ∧ GrubAgrees disk.toTargetDisk (grubSectors g_Partitions image.gptSize disk.diskNumber)
                buffer)
      ∧ (TableChanged g_Partitions image.toLinuxImage disk.toTargetDisk false buffer →
        WritesChanged g_Partitions image disk.diskNumber mode →
          WriteAgrees g_Partitions disk.toTargetDisk (image.gptSize / SECTOR_SIZE) buffer)

variable {g : PartitionTable} {image : RecoverImage} {disk : RecoverDisk} {boot memory buffer : Image}
variable {mode : RestoreMode} {factory passes changed : Bool} {answer : MsgButton}

/-- Only what an unasked run does needs a look. -/
theorem tableKeptUnasked_iff {records : List TablePartition} {target : TargetDisk} {run : BootAreaRun} :
    TableKeptUnasked records target mode factory run ↔
      (¬mode.Asked factory → KeepsTable records target run) := by
  constructor
  · intro kept unasked
    refine ⟨fun a table => ?_, (kept.others unasked).2⟩
    by_contra change
    exact unasked (kept.changes a table change)
  · intro keeps
    refine ⟨fun a table change => ?_, fun unasked => ⟨fun a table => ?_, (keeps unasked).before⟩⟩
    · by_contra unasked
      exact change ((keeps unasked).table a table)
    · exact (keeps unasked).table a (Or.inl table)

/-- A run that asked for nothing keeps everything. -/
theorem keeps_idle {records : List TablePartition} {target : TargetDisk} {run : BootAreaRun}
    (same : run.disk = target.bytes) (none : run.number = 0) : KeepsTable records target run := by
  refine ⟨fun a _ => by rw [same], fun p _ _ => ?_⟩
  rw [none]
  exact Nat.zero_le _

/-- A write keeps the table exactly if what arrives agrees with it. -/
theorem write_keeps_iff {records : List TablePartition} {target : TargetDisk} (question : Bool)
    (number : Nat) (data : Image) :
    KeepsTable records target (writeBootArea question target number data) ↔
      WriteAgrees records target number data := by
  have written : ∀ a, (writeBootArea question target number data).disk a
      = if a < min number target.reached * SECTOR_SIZE then data a else target.bytes a := by
    intro a
    rw [writeBootArea]
    dsimp only
    rw [diskWrite, Nat.zero_mul, Nat.zero_add, Nat.sub_zero]
    simp only [Nat.zero_le, true_and]
  constructor
  · intro keeps
    refine ⟨keeps.before, fun a table arrives => ?_⟩
    have same := keeps.table a table
    rw [written, if_pos arrives] at same
    exact same
  · intro agrees
    refine ⟨fun a table => ?_, agrees.1⟩
    rw [written]
    split
    · next arrives => exact agrees.2 a table arrives
    · rfl

/-- Boot code keeps the table exactly under the two conditions on it. -/
theorem grub_keeps_iff (question : Bool) :
    KeepsTable g.records disk.toTargetDisk
        (writeBootArea question disk.toTargetDisk
          (bootSectors g.records image.toLinuxImage disk.toTargetDisk false false
            (bootBuffer image.toLinuxImage boot disk.toTargetDisk memory)).1
          (bootSectors g.records image.toLinuxImage disk.toTargetDisk false false
            (bootBuffer image.toLinuxImage boot disk.toTargetDisk memory)).2) ↔
      (BringsGrub g.records image.toLinuxImage disk.diskNumber →
        FirstIsFree g.records disk.diskNumber
          ∧ GrubAgrees disk.toTargetDisk (grubSectors g.records image.gptSize disk.diskNumber)
              (bootBuffer image.toLinuxImage boot disk.toTargetDisk memory)) := by
  rw [write_keeps_iff]
  by_cases brings : BringsGrub g.records image.toLinuxImage disk.diskNumber
  · have inTable : ∀ a, IsMbrTableByte a →
        copyMem (bootBuffer image.toLinuxImage boot disk.toTargetDisk memory) 0x1be
          (MBR_BUFFER + 0x1be) 0x40 a = disk.bytes a := fun a table => grubData_table table
    -- Outside the table of the boot record the buffer is the saved boot area.
    have outside : ∀ a, ¬IsMbrTableByte a →
        copyMem (bootBuffer image.toLinuxImage boot disk.toTargetDisk memory) 0x1be
            (MBR_BUFFER + 0x1be) 0x40 a
          = bootBuffer image.toLinuxImage boot disk.toTargetDisk memory a :=
      fun a apart => if_neg apart
    rw [bootSectors_grub brings, WriteAgrees, grubSectors_before_iff brings.1]
    constructor
    · rintro ⟨free, agrees⟩ -
      refine ⟨free, fun a table apart arrives => ?_⟩
      rw [← outside a apart]
      exact agrees a table arrives
    · intro condition
      obtain ⟨free, agrees⟩ := condition brings
      refine ⟨free, fun a table arrives => ?_⟩
      by_cases mbr : IsMbrTableByte a
      · exact inTable a mbr
      · exact (outside a mbr).trans (agrees a table mbr arrives)
  · rw [bootSectors_none brings, WriteAgrees, Nat.zero_min, Nat.zero_mul]
    refine ⟨fun _ some => absurd some brings, fun _ => ⟨fun _ _ _ => Nat.zero_le _, ?_⟩⟩
    exact fun a _ arrives => absurd arrives (Nat.not_lt_zero a)

/-! ### The way to the write -/

/-- What an unasked mode says of its flags. -/
theorem unasked_flags (unasked : ¬mode.Asked factory) :
    mode.bForceRestorePartition = false ∧ factory = false ∧ mode.isNewDisk = false := by
  simpa [RestoreMode.Asked] using unasked

/-- An unasked restore either ends before the buffer is filled, or reads the boot area. -/
theorem restoreTable_unasked {records : List TablePartition} (unasked : ¬mode.Asked factory) :
    restoreTable records image disk mode factory passes answer memory =
      if klchange records image.partition disk.diskNumber then
        .stop false memory disk.toTargetDisk
      else if refusesDisk records image disk mode
          (ifNeedRecoverPartTable_Linux records image.partition disk.diskNumber) || !passes then
        .stop false memory disk.toTargetDisk
      else match image.bootArea with
        | none => .stop false memory disk.toTargetDisk
        | some boot =>
          if !disk.readable then .stop false memory disk.toTargetDisk
          else
            restoreTableRead records image disk mode false
              (if mode.isSysdisk then false
                else ifNeedRecoverPartTable_Linux records image.partition disk.diskNumber)
              answer (bootBuffer image.toLinuxImage boot disk.toTargetDisk memory) := by
  obtain ⟨noForce, noFactory, noNew⟩ := unasked_flags unasked
  simp only [restoreTable, partitionChanged, noFactory, noForce, noNew, ifNeedRecoverPartTable_delete,
    ifNeedRecoverPartTable, Bool.or_self, Bool.false_or, Bool.false_eq_true, if_false]
  by_cases lost : klchange records image.partition disk.diskNumber = true
  · rw [if_pos lost, if_pos lost]
  · cases image.bootArea <;> simp only [if_neg lost, agreedMode, noNew, Bool.false_eq_true, if_false]

/-- The same flags make the step itself one test and one write. -/
theorem restoreTableRead_unasked {records : List TablePartition} (unasked : ¬mode.Asked factory) :
    restoreTableRead records image disk mode false changed answer buffer =
      let changed' := if !changed && !image.bGpt then
        recheckPartitionTable_Linux image.partition buffer else changed
      let guarded := changed' && !mode.comefromnewhddface && mode.olddisk == 0
      if guarded then .stop false buffer disk.toTargetDisk
      else if needrecover records image disk.diskNumber mode changed' then
        writeBootArea guarded disk.toTargetDisk
          (bootSectors records image.toLinuxImage disk.toTargetDisk changed' false buffer).1
          (bootSectors records image.toLinuxImage disk.toTargetDisk changed' false buffer).2
      else .skip guarded buffer disk.toTargetDisk := by
  obtain ⟨noForce, -, -⟩ := unasked_flags unasked
  rw [restoreTableRead, recheckPartitionTable, noForce, Bool.false_or, Bool.and_false]
  dsimp only
  generalize (if (!changed && !image.bGpt) = true then
    recheckPartitionTable_Linux image.partition buffer else changed) = changed'
  by_cases guarded : (changed' && !mode.comefromnewhddface && mode.olddisk == 0) = true
  · simp only [guarded, Bool.not_false, Bool.and_self, if_true]
  · rw [Bool.not_eq_true] at guarded
    simp only [guarded, Bool.false_and, Bool.false_eq_true, if_false]

/-- Without force and new disk the assignments of `needrecover` are two tests. -/
theorem needrecover_unasked {records : List TablePartition} {diskNumber : Nat}
    (unasked : ¬mode.Asked factory) (other : mode.isSysdisk = false) :
    needrecover records image diskNumber mode changed = true ↔
      (changed = true → mode.comefromnewhddface = true ∨ mode.olddisk ≠ 1
        ∨ isGptSystem records diskNumber ≠ image.bGpt) := by
  obtain ⟨noForce, -, noNew⟩ := unasked_flags unasked
  rw [needrecover]
  simp only [noForce, noNew, other, Bool.and_false, Bool.false_eq_true, if_false]
  cases isGptSystem records diskNumber
  <;> cases image.bGpt
  <;> cases changed
  <;> cases mode.comefromnewhddface
  <;> simp

/-- The flag behind the second test says whether the table is changed. -/
theorem changedFlag_iff {records : List TablePartition} :
    (if (!ifNeedRecoverPartTable_Linux records image.partition disk.diskNumber && !image.bGpt) = true
      then recheckPartitionTable_Linux image.partition buffer
      else ifNeedRecoverPartTable_Linux records image.partition disk.diskNumber) = true ↔
      TableChanged records image.toLinuxImage disk.toTargetDisk false buffer := by
  rw [← bPartitionChanged_iff, bPartitionChanged, Bool.false_or]

/-- A changed table that is written has passed the test of the original disk, and is to be recovered. -/
theorem WritesChanged.recovers (writes : WritesChanged g.records image disk.diskNumber mode)
    (unasked : ¬mode.Asked factory) (other : mode.isSysdisk = false) :
    (!mode.comefromnewhddface && mode.olddisk == 0) = false
      ∧ needrecover g.records image disk.diskNumber mode true = true := by
  constructor
  · cases writes with
    | inl page => rw [page]; rfl
    | inr disk_ => simp [disk_.1]
  · refine (needrecover_unasked unasked other).mpr fun _ => ?_
    cases writes with
    | inl page => exact Or.inl page
    | inr disk_ => exact Or.inr disk_.2

/-- A changed table that passes the test but is not written is not to be recovered. -/
theorem not_recovers (unwritten : ¬WritesChanged g.records image disk.diskNumber mode)
    (unasked : ¬mode.Asked factory) (other : mode.isSysdisk = false)
    (passed : ¬(!mode.comefromnewhddface && mode.olddisk == 0) = true) :
    ¬needrecover g.records image disk.diskNumber mode true = true := by
  have page : mode.comefromnewhddface = false := by
    by_contra page
    exact unwritten (Or.inl (by simpa using page))
  have known : mode.olddisk ≠ 0 := by
    intro zero
    exact passed (by rw [page, zero]; rfl)
  intro need
  cases (needrecover_unasked unasked other).mp need rfl with
  | inl isPage => rw [page] at isPage; cases isPage
  | inr disk_ => exact unwritten (Or.inr ⟨known, disk_⟩)

/-- With the tests behind it, the step keeps the table under the two conditions. -/
theorem restoreTableRead_keeps_iff (unasked : ¬mode.Asked factory) (other : mode.isSysdisk = false) :
    KeepsTable g.records disk.toTargetDisk
        (restoreTableRead g.records image disk mode false
          (ifNeedRecoverPartTable_Linux g.records image.partition disk.diskNumber) answer
          (bootBuffer image.toLinuxImage boot disk.toTargetDisk memory)) ↔
      (¬TableChanged g.records image.toLinuxImage disk.toTargetDisk false
          (bootBuffer image.toLinuxImage boot disk.toTargetDisk memory) →
        BringsGrub g.records image.toLinuxImage disk.diskNumber →
          FirstIsFree g.records disk.diskNumber
            ∧ GrubAgrees disk.toTargetDisk (grubSectors g.records image.gptSize disk.diskNumber)
                (bootBuffer image.toLinuxImage boot disk.toTargetDisk memory))
      ∧ (TableChanged g.records image.toLinuxImage disk.toTargetDisk false
          (bootBuffer image.toLinuxImage boot disk.toTargetDisk memory) →
        WritesChanged g.records image disk.diskNumber mode →
          WriteAgrees g.records disk.toTargetDisk (image.gptSize / SECTOR_SIZE)
            (bootBuffer image.toLinuxImage boot disk.toTargetDisk memory)) := by
  rw [restoreTableRead_unasked unasked]
  dsimp only
  have flag := @changedFlag_iff image disk (bootBuffer image.toLinuxImage boot disk.toTargetDisk memory)
    g.records
  generalize (if (!ifNeedRecoverPartTable_Linux g.records image.partition disk.diskNumber
      && !image.bGpt) = true then recheckPartitionTable_Linux image.partition
        (bootBuffer image.toLinuxImage boot disk.toTargetDisk memory)
      else ifNeedRecoverPartTable_Linux g.records image.partition disk.diskNumber) = changed at flag
  cases changed with
  | false =>
    -- An unchanged table lets boot code through alone.
    have unchanged : ¬TableChanged g.records image.toLinuxImage disk.toTargetDisk false
        (bootBuffer image.toLinuxImage boot disk.toTargetDisk memory) :=
      fun isChanged => Bool.noConfusion (flag.mpr isChanged)
    have need : needrecover g.records image disk.diskNumber mode false = true :=
      (needrecover_unasked unasked other).mpr fun no => Bool.noConfusion no
    rw [need]
    simp only [Bool.false_and, Bool.false_eq_true, if_false, if_true]
    rw [grub_keeps_iff]
    exact ⟨fun keeps => ⟨fun _ => keeps, fun isChanged => absurd isChanged unchanged⟩,
      fun holds => holds.1 unchanged⟩
  | true =>
    have isChanged := flag.mp rfl
    have whole : bootSectors g.records image.toLinuxImage disk.toTargetDisk true false
        (bootBuffer image.toLinuxImage boot disk.toTargetDisk memory)
          = (image.gptSize / SECTOR_SIZE,
            bootBuffer image.toLinuxImage boot disk.toTargetDisk memory) := by
      simp [bootSectors]
    rw [whole, Bool.true_and]
    by_cases writes : WritesChanged g.records image disk.diskNumber mode
    · -- The test of the original disk has let it pass, and the whole boot area is written.
      obtain ⟨open_, need⟩ := writes.recovers unasked other
      rw [open_, need]
      simp only [Bool.false_eq_true, if_false, if_true]
      rw [write_keeps_iff]
      exact ⟨fun agrees => ⟨fun unchanged => absurd isChanged unchanged, fun _ _ => agrees⟩,
        fun holds => holds.2 isChanged writes⟩
    · -- It is not written, whether or not it passes the test.
      refine ⟨fun _ => ⟨fun unchanged => absurd isChanged unchanged, fun _ other => absurd other writes⟩,
        fun _ => ?_⟩
      split
      · exact keeps_idle rfl rfl
      · next passed =>
        rw [if_neg (not_recovers writes unasked other passed)]
        exact keeps_idle rfl rfl

/-- The page's own choice of the system's disk writes nothing. -/
theorem restoreTableRead_sysdisk {records : List TablePartition} (isSysdisk : mode.isSysdisk = true)
    (unasked : ¬mode.Asked factory) :
    KeepsTable records disk.toTargetDisk
      (restoreTableRead records image disk mode false changed answer buffer) := by
  have page : mode.comefromnewhddface = true := by
    rw [RestoreMode.isSysdisk, Bool.and_eq_true] at isSysdisk
    exact isSysdisk.2
  have need : ∀ changed', needrecover records image disk.diskNumber mode changed' = false := by
    intro changed'
    rw [needrecover, if_pos isSysdisk]
  rw [restoreTableRead_unasked unasked]
  simp only [page, need, Bool.not_true, Bool.and_false, Bool.false_and, Bool.false_eq_true, if_false]
  exact keeps_idle rfl rfl

/--
The partition-table step keeps the table unasked exactly under the stated condition.

The table is any sorted one; the image, the disk, the mode, the tests and the answers are any.
-/
theorem recover_tableKeptUnasked_iff (g : PartitionTable) (image : RecoverImage) (disk : RecoverDisk)
    (mode : RestoreMode) (factory passes : Bool) (answer : MsgButton) (memory : Image) :
    TableKeptUnasked g.records disk.toTargetDisk mode factory
        (restoreTable g.records image disk mode factory passes answer memory) ↔
      TableStepHolds g.records image disk mode factory passes memory := by
  rw [tableKeptUnasked_iff, TableStepHolds]
  refine forall_congr' fun unasked => ?_
  rw [restoreTable_unasked unasked]
  -- A test that ends the restore leaves nothing to show.
  have stops : KeepsTable g.records disk.toTargetDisk (.stop false memory disk.toTargetDisk) :=
    keeps_idle rfl rfl
  by_cases lost : klchange g.records image.partition disk.diskNumber = true
  · rw [if_pos lost]
    refine ⟨fun _ comes => ?_, fun _ => stops⟩
    rw [comes.found] at lost
    cases lost
  rw [if_neg lost]
  by_cases ends : (refusesDisk g.records image disk mode
      (ifNeedRecoverPartTable_Linux g.records image.partition disk.diskNumber) || !passes) = true
  · rw [if_pos ends]
    refine ⟨fun _ comes => ?_, fun _ => stops⟩
    rw [comes.sameDisk, comes.passes] at ends
    cases ends
  rw [if_neg ends]
  cases image.bootArea with
  | none =>
    refine ⟨fun _ _ boot other => ?_, fun _ => stops⟩
    cases other
  | some boot =>
    dsimp only
    by_cases blind : (!disk.readable) = true
    · rw [if_pos blind]
      refine ⟨fun _ comes => ?_, fun _ => stops⟩
      rw [comes.readable] at blind
      cases blind
    rw [if_neg blind]
    cases sysdisk : mode.isSysdisk with
    | true =>
      refine ⟨fun _ comes => ?_, fun _ => restoreTableRead_sysdisk sysdisk unasked⟩
      rw [comes.other] at sysdisk
      cases sysdisk
    | false =>
      rw [if_neg Bool.noConfusion, restoreTableRead_keeps_iff unasked sysdisk]
      rw [Bool.or_eq_true, not_or, Bool.not_eq_true, Bool.not_eq_true'] at ends
      have comes : ComesToWrite g.records image disk mode passes :=
        ⟨by simpa using lost, ends.1, by simpa using ends.2, sysdisk, by simpa using blind⟩
      constructor
      · intro keeps _ boot' same
        cases same
        exact keeps
      · exact fun holds => holds comes boot rfl

/-! ### A changed table on another disk -/

/-- A disk with a partition of the size it was made with. -/
def otherDisk : RecoverDisk where
  diskNumber := 0
  bytes := fun _ => 0
  reached := 128

/-- The table of the machine: the partition is larger than the one of the image. -/
def otherTable : PartitionTable where
  records := [{ bootBegin := 2048, totalSectors := 2000 }]
  inOrder := List.pairwise_singleton _ _

/-- An image of the older version, with a boot area that brings another table. -/
def olderImage : RecoverImage where
  partition := [{ bootBegin := 2048, totalSectors := 1000, bIfBackup := true, hasWindows := true }]
  gptSize := 128 * SECTOR_SIZE
  bGpt := false
  bootArea := some fun _ => 0xff
  oldImage := true

/-- A restore to a disk that is not the original one, with nothing forced. -/
def otherMode : RestoreMode where
  comefromnewhddface := false
  bForceRestorePartition := false
  destdisktype := 0
  olddisk := 2

/-- The table is found changed, and written all the same. -/
theorem recover_writesChangedTable :
    ¬TableKeptUnasked otherTable.records otherDisk.toTargetDisk otherMode false
      (restoreTable otherTable.records olderImage otherDisk otherMode false true .ok fun _ => 0) := by
  intro kept
  have unasked : ¬otherMode.Asked false := by
    rw [RestoreMode.Asked]
    decide
  have same := (kept.others unasked).1 0x1be ⟨by decide, by decide⟩
  exact absurd same (by decide)

end Okr
