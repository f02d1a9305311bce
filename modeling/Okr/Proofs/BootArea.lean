import Okr.Proofs.TableOrder

/-! The boot-area step of `Recover_Linux` spares the partition table unless its question is closed. -/

namespace Okr

/-- A sector belongs to the array of the header that stands at an address. -/
def InArray (disk : Image) (header sector : Nat) : Prop :=
  le64 disk (header + 0x48) ≤ sector ∧
    sector < le64 disk (header + 0x48)
      + (le32 disk (header + 0x50) * le32 disk (header + 0x54) + SECTOR_SIZE - 1) / SECTOR_SIZE

/-- A sector holds one of the two headers of a GPT, or a part of one of its arrays. -/
def IsGptSector (disk : Image) (sector : Nat) : Prop :=
  let backup := le64 disk (SECTOR_SIZE + 0x20)
  sector = 1 ∨ InArray disk SECTOR_SIZE sector ∨ sector = backup
    ∨ InArray disk (backup * SECTOR_SIZE) sector

/-- A byte of the table of the boot record. -/
def IsMbrTableByte (a : Nat) : Prop := 0x1be ≤ a ∧ a < 0x1fe

/-- A byte of the disk's partition table: of its boot record, or of its GPT. -/
def IsTableByte (disk : Image) (a : Nat) : Prop :=
  IsMbrTableByte a ∨ (isGPT disk = true ∧ IsGptSector disk (a / SECTOR_SIZE))

/-- The run may change the table: the restore is a factory or forced one, and a question got IDOK. -/
def Permitted (bFactoryRestore bForceRestorePartition : Bool) (answer : MsgButton)
    (run : BootAreaRun) : Prop :=
  (bFactoryRestore = true ∨ bForceRestorePartition = true) ∧ (run.question = true → answer = .ok)

/-- Only sectors before the first partition are written, and the table bytes as they were. -/
structure SparesTable (g_Partitions : List TablePartition) (disk : TargetDisk) (run : BootAreaRun) :
    Prop where
  before : ∀ p ∈ g_Partitions, p.diskNumber = disk.diskNumber → run.number ≤ p.bootBegin
  table : 0 < run.number → ∀ a, IsMbrTableByte a → run.data a = disk.bytes a

/-- A run that is not permitted to change the table leaves a GPT disk, and spares the table of an MBR disk. -/
def RunSpares (g_Partitions : List TablePartition) (disk : TargetDisk) (run : BootAreaRun) : Prop :=
  (isGPT disk.bytes = true → run.number = 0) ∧
    (isGPT disk.bytes = false → SparesTable g_Partitions disk run)

/-- The step never destroys the table unasked. -/
structure TableKept (g_Partitions : List TablePartition) (disk : TargetDisk)
    (bFactoryRestore bForceRestorePartition : Bool) (answer : MsgButton) (run : BootAreaRun) : Prop where
  changes : ∀ a, IsTableByte disk.bytes a → run.disk a ≠ disk.bytes a →
    Permitted bFactoryRestore bForceRestorePartition answer run
  others : ¬Permitted bFactoryRestore bForceRestorePartition answer run →
    RunSpares g_Partitions disk run

variable {g : PartitionTable} {image : LinuxImage} {disk : TargetDisk} {boot memory : Image}
variable {factory forced changed : Bool} {answer : MsgButton}

/-- Nothing was asked to be written, so everything is spared. -/
theorem runSpares_zero {records : List TablePartition} {run : BootAreaRun} (none : run.number = 0) :
    RunSpares records disk run := by
  refine ⟨fun _ => none, fun _ => ⟨fun p _ _ => ?_, fun some => ?_⟩⟩
  · rw [none]
    exact Nat.zero_le _
  · rw [none] at some
    exact absurd some (Nat.lt_irrefl 0)

/-- What a run can do to the disk: nothing behind the sectors it asked for, and no other bytes. -/
structure Wrote (disk : TargetDisk) (run : BootAreaRun) : Prop where
  bytes : ∀ a, run.disk a = disk.bytes a ∨ (0 < run.number ∧ run.disk a = run.data a)

/-- A step that stops has written nothing. -/
theorem stop_wrote (question : Bool) (buffer : Image) :
    Wrote disk (BootAreaRun.stop question buffer disk) :=
  ⟨fun _ => Or.inl rfl⟩

/-- A write changes bytes of its sectors only, and to those of the buffer. -/
theorem writeBootArea_wrote (question : Bool) (number : Nat) (buffer : Image) :
    Wrote disk (writeBootArea question disk number buffer) := by
  refine ⟨fun a => ?_⟩
  rw [writeBootArea]
  dsimp only
  rw [diskWrite]
  split
  · next inside =>
    -- The sectors that are reached are not more than those asked for.
    have some : 0 < number := by
      rw [SECTOR_SIZE] at inside
      omega
    right
    exact ⟨some, by rw [Nat.zero_mul, Nat.sub_zero]⟩
  · exact Or.inl rfl

/-- Every run writes through the one write at its end. -/
theorem restoreBootArea_wrote :
    Wrote disk (restoreBootArea g.records image disk factory forced answer memory) := by
  rw [restoreBootArea]
  split
  · exact stop_wrote _ _
  · split
    · exact stop_wrote _ _
    · dsimp only
      split
      · exact stop_wrote _ _
      · generalize (if bPartitionChanged _ _ _ _ _ = true then toBOOL answer.id else true)
          = needrecover
        cases needrecover with
        | true => exact writeBootArea_wrote _ _ _
        | false => exact stop_wrote _ _

/-- A changed table is a consequence of a write that does not spare it. -/
theorem Wrote.changes {records : List TablePartition} {run : BootAreaRun} (wrote : Wrote disk run)
    (spares : RunSpares records disk run) (a : Nat) (table : IsTableByte disk.bytes a) :
    run.disk a = disk.bytes a := by
  obtain ⟨gpt, mbr⟩ := spares
  cases wrote.bytes a with
  | inl same => exact same
  | inr new =>
    obtain ⟨some, eq⟩ := new
    cases kind : isGPT disk.bytes with
    | true => exact absurd (gpt kind) (by omega)
    | false =>
      cases table with
      | inl inTable => rw [eq, (mbr kind).table some a inTable]
      | inr inGpt => exact absurd inGpt.1 (by rw [kind]; decide)

/-- Only what a run that is not permitted writes needs a look. -/
theorem tableKept_iff :
    TableKept g.records disk factory forced answer
        (restoreBootArea g.records image disk factory forced answer memory) ↔
      (¬Permitted factory forced answer
          (restoreBootArea g.records image disk factory forced answer memory) →
        RunSpares g.records disk
          (restoreBootArea g.records image disk factory forced answer memory)) := by
  constructor
  · exact fun kept => kept.others
  · intro spares
    refine ⟨fun a table change => ?_, spares⟩
    by_contra forbidden
    exact change (restoreBootArea_wrote.changes (spares forbidden) a table)

/-! ### The boot code alone -/

/-- The saved boot record gets the table of the disk before it is written. -/
theorem grubData_table {a : Nat} (table : IsMbrTableByte a) :
    copyMem (bootBuffer image boot disk memory) 0x1be (MBR_BUFFER + 0x1be) 0x40 a = disk.bytes a := by
  obtain ⟨low, high⟩ := table
  have source : MBR_BUFFER + 0x1be + (a - 0x1be) = MBR_BUFFER + a := by omega
  rw [copyMem, if_pos ⟨low, by omega⟩, source, bootBuffer, if_pos, Nat.add_sub_cancel_left]
  rw [SECTOR_SIZE]
  omega

/-- The first record of the disk begins no later than any other. -/
theorem firstPartition_le {p : TablePartition} (member : p ∈ g.records)
    (onDisk : p.diskNumber = disk.diskNumber) :
    getFirstPartitionBeginSector g.records disk.diskNumber ≤ p.bootBegin := by
  have order := g.inOrder
  rw [InDiskOrder, List.pairwise_map] at order
  rw [getFirstPartitionBeginSector]
  -- The search stops at the first record of the disk, and the table is in order behind it.
  generalize g.records = records at member order
  induction records with
  | nil => exact absurd member List.not_mem_nil
  | cons q records ih =>
    rw [List.pairwise_cons] at order
    by_cases first : q.diskNumber = disk.diskNumber
    · rw [List.find?_cons_of_pos (by simpa using first)]
      cases List.mem_cons.mp member with
      | inl eq => rw [eq]
      | inr later => exact order.1 p later (first.trans onDisk.symm)
    · rw [List.find?_cons_of_neg (by simpa using first)]
      cases List.mem_cons.mp member with
      | inl eq => exact absurd (eq ▸ onDisk) first
      | inr later => exact ih later order.2

/-- Some partition of the disk begins where its first one is said to. -/
theorem firstPartition_mem (some : ∃ p ∈ g.records, p.diskNumber = disk.diskNumber) :
    ∃ p ∈ g.records, p.diskNumber = disk.diskNumber
      ∧ p.bootBegin = getFirstPartitionBeginSector g.records disk.diskNumber := by
  rw [getFirstPartitionBeginSector]
  cases found : g.records.find? (·.diskNumber == disk.diskNumber) with
  | none =>
    obtain ⟨p, member, onDisk⟩ := some
    rw [List.find?_eq_none] at found
    exact absurd (by simpa using onDisk) (found p member)
  | some p =>
    exact ⟨p, List.mem_of_find?_eq_some found, by simpa using List.find?_some found, rfl⟩

/-- No partition of the disk starts with its first sector. -/
def FirstIsFree (g_Partitions : List TablePartition) (diskNumber : Nat) : Prop :=
  ∀ p ∈ g_Partitions, p.diskNumber = diskNumber → p.bootBegin ≠ 0

/-- The image brings sectors of boot code that go to a disk of this table. -/
def BringsGrub (g_Partitions : List TablePartition) (image : LinuxImage) (diskNumber : Nat) : Prop :=
  image.gptSize / SECTOR_SIZE ≠ 0 ∧ image.bGpt = false ∧ isGptSystem g_Partitions diskNumber = false

/-- How many sectors of boot code go to the disk: they end before its first partition, if there is one. -/
def grubSectors (g_Partitions : List TablePartition) (gptSize diskNumber : Nat) : Nat :=
  if getFirstPartitionBeginSector g_Partitions diskNumber ≠ 0
      ∧ getFirstPartitionBeginSector g_Partitions diskNumber < gptSize / SECTOR_SIZE then
    getFirstPartitionBeginSector g_Partitions diskNumber
  else gptSize / SECTOR_SIZE

/-- Boot code goes out with the table of the disk in it. -/
theorem bootSectors_grub {records : List TablePartition} {buffer : Image}
    (brings : BringsGrub records image disk.diskNumber) :
    bootSectors records image disk false false buffer
      = (grubSectors records image.gptSize disk.diskNumber,
        copyMem buffer 0x1be (MBR_BUFFER + 0x1be) 0x40) := by
  obtain ⟨some, notGpt, noSystem⟩ := brings
  rw [bootSectors, grubSectors]
  simp only [notGpt, noSystem, Bool.not_false, Bool.and_self, if_true, Bool.or_self,
    Bool.false_eq_true, if_false, ne_eq, some, not_false_eq_true]

/-- An image that brings no boot code for the disk asks for no sector. -/
theorem bootSectors_none {records : List TablePartition} {buffer : Image}
    (brings : ¬BringsGrub records image disk.diskNumber) :
    (bootSectors records image disk false false buffer).1 = 0 := by
  rw [BringsGrub] at brings
  rw [bootSectors]
  by_cases gpt : (image.bGpt || isGptSystem records disk.diskNumber) = true
  · simp [gpt]
  · have noGpt := gpt
    simp only [Bool.not_eq_true, Bool.or_eq_false_iff] at noGpt
    have zero : image.gptSize / SECTOR_SIZE = 0 := by
      by_contra some
      exact brings ⟨some, noGpt⟩
    simp [gpt, zero]

/-- Some sector is written, whatever the first partition is. -/
theorem grubSectors_pos {records : List TablePartition} {gptSize diskNumber : Nat}
    (some : gptSize / SECTOR_SIZE ≠ 0) : 0 < grubSectors records gptSize diskNumber := by
  rw [grubSectors]
  split
  · next short => exact Nat.pos_of_ne_zero short.1
  · exact Nat.pos_of_ne_zero some

/-- Boot code ends before every partition of the disk exactly if none begins with the first sector. -/
theorem grubSectors_before_iff {gptSize : Nat} (some : gptSize / SECTOR_SIZE ≠ 0) :
    (∀ p ∈ g.records, p.diskNumber = disk.diskNumber →
        grubSectors g.records gptSize disk.diskNumber ≤ p.bootBegin) ↔
      FirstIsFree g.records disk.diskNumber := by
  constructor
  · intro before p member onDisk zero
    have pos := @grubSectors_pos g.records gptSize disk.diskNumber some
    have bound := before p member onDisk
    omega
  · intro free p member onDisk
    have least := firstPartition_le member onDisk
    obtain ⟨q, member', onDisk', begins⟩ := firstPartition_mem ⟨p, member, onDisk⟩
    have notZero := free q member' onDisk'
    rw [begins] at notZero
    rw [grubSectors]
    split
    · exact least
    · next short =>
      -- The boot code ends before the first partition.
      have bound := Nat.le_of_not_lt fun less => short ⟨notZero, less⟩
      omega

/-- Boot code alone spares the table exactly on a disk without a GPT whose first sector is free. -/
theorem grub_spares_iff (question : Bool) :
    RunSpares g.records disk
        (writeBootArea question disk
          (bootSectors g.records image disk false false (bootBuffer image boot disk memory)).1
          (bootSectors g.records image disk false false (bootBuffer image boot disk memory)).2) ↔
      (BringsGrub g.records image disk.diskNumber →
        isGPT disk.bytes = false ∧ FirstIsFree g.records disk.diskNumber) := by
  by_cases brings : BringsGrub g.records image disk.diskNumber
  · rw [bootSectors_grub brings]
    dsimp only [writeBootArea]
    have pos := @grubSectors_pos g.records image.gptSize disk.diskNumber brings.1
    constructor
    · intro spares _
      obtain ⟨gpt, mbr⟩ := spares
      -- on a GPT disk nothing may be written, but the boot code always is
      have kind : isGPT disk.bytes = false := by
        by_contra isGpt
        have zero := gpt (by simpa using isGpt)
        dsimp only at zero
        omega
      exact ⟨kind, (grubSectors_before_iff brings.1).mp (mbr kind).before⟩
    · intro condition
      obtain ⟨kind, free⟩ := condition brings
      refine ⟨fun gpt => absurd gpt (by rw [kind]; decide), fun _ => ⟨?_, ?_⟩⟩
      · exact (grubSectors_before_iff brings.1).mpr free
      · exact fun _ a table => grubData_table table
  · exact ⟨fun _ some => absurd some brings, fun _ => runSpares_zero (bootSectors_none brings)⟩

/-! ### The whole step -/

/-- The table is found changed, or the restore is a factory one. -/
def TableChanged (g_Partitions : List TablePartition) (image : LinuxImage) (disk : TargetDisk)
    (bFactoryRestore : Bool) (buffer : Image) : Prop :=
  bFactoryRestore = true
    ∨ ifNeedRecoverPartTable_Linux g_Partitions image.partition disk.diskNumber = true
    ∨ (image.bGpt = false ∧ recheckPartitionTable_Linux image.partition buffer = true)

/-- The flag says whether the table is changed. -/
theorem bPartitionChanged_iff {records : List TablePartition} {buffer : Image} :
    bPartitionChanged records image disk factory buffer = true
      ↔ TableChanged records image disk factory buffer := by
  rw [bPartitionChanged, TableChanged]
  cases factory
  <;> cases ifNeedRecoverPartTable_Linux records image.partition disk.diskNumber
  <;> cases image.bGpt
  <;> simp

/-- The whole saved boot area can be written without harm. -/
def BootAreaHarmless (g_Partitions : List TablePartition) (image : LinuxImage) (disk : TargetDisk)
    (buffer : Image) : Prop :=
  image.gptSize / SECTOR_SIZE = 0 ∨
    (isGPT disk.bytes = false
      ∧ (∀ p ∈ g_Partitions, p.diskNumber = disk.diskNumber →
          image.gptSize / SECTOR_SIZE ≤ p.bootBegin)
      ∧ ∀ a, IsMbrTableByte a → buffer a = disk.bytes a)

/-- A write of the whole boot area spares the table exactly if it is harmless. -/
theorem whole_spares_iff {records : List TablePartition} {buffer : Image} (question : Bool) :
    RunSpares records disk (writeBootArea question disk (image.gptSize / SECTOR_SIZE) buffer) ↔
      BootAreaHarmless records image disk buffer := by
  constructor
  · intro spares
    obtain ⟨gpt, mbr⟩ := spares
    by_cases none : image.gptSize / SECTOR_SIZE = 0
    · exact Or.inl none
    · have kind : isGPT disk.bytes = false := by
        by_contra isGpt
        exact none (gpt (by simpa using isGpt))
      exact Or.inr ⟨kind, (mbr kind).before, (mbr kind).table (Nat.pos_of_ne_zero none)⟩
  · intro harmless
    cases harmless with
    | inl none => exact runSpares_zero none
    | inr mbr =>
      obtain ⟨kind, before, table⟩ := mbr
      exact ⟨fun gpt => absurd gpt (by rw [kind]; decide), fun _ => ⟨before, fun _ => table⟩⟩

/--
When the step keeps the table.

An unasked restore of boot code needs a disk whose GPT is in its records and whose first sector is free.
A question that is closed, and so counts as a consent, needs a boot area that does no harm.
-/
def BootAreaHolds (g_Partitions : List TablePartition) (image : LinuxImage) (disk : TargetDisk)
    (factory forced : Bool) (answer : MsgButton) (memory : Image) : Prop :=
  ∀ boot, image.bootArea = some boot → disk.readable = true →
    let buffer := bootBuffer image boot disk memory
    (¬TableChanged g_Partitions image disk factory buffer → forced = false →
      BringsGrub g_Partitions image disk.diskNumber →
        isGPT disk.bytes = false ∧ FirstIsFree g_Partitions disk.diskNumber) ∧
    (TableChanged g_Partitions image disk factory buffer → (factory = true ∨ forced = true) →
      answer = .close → BootAreaHarmless g_Partitions image disk buffer)

/-- A run with both reads, by what the table test says. -/
theorem restoreBootArea_read (read : image.bootArea = some boot) (readable : disk.readable = true) :
    restoreBootArea g.records image disk factory forced answer memory =
      let buffer := bootBuffer image boot disk memory
      let changed := bPartitionChanged g.records image disk factory buffer
      if changed && !(forced || factory) then .stop false buffer disk
      else
        if if changed then toBOOL answer.id else true then
          writeBootArea changed disk (bootSectors g.records image disk changed factory buffer).1
            (bootSectors g.records image disk changed factory buffer).2
        else .stop changed buffer disk := by
  rw [restoreBootArea, read]
  dsimp only
  rw [if_neg (by simp [readable])]

/-- With an unchanged table the step is one of boot code. -/
theorem unchanged_iff (read : image.bootArea = some boot) (readable : disk.readable = true)
    (same : bPartitionChanged g.records image disk factory (bootBuffer image boot disk memory) = false) :
    (¬Permitted factory forced answer
        (restoreBootArea g.records image disk factory forced answer memory) →
      RunSpares g.records disk (restoreBootArea g.records image disk factory forced answer memory)) ↔
    (forced = false → BringsGrub g.records image disk.diskNumber →
      isGPT disk.bytes = false ∧ FirstIsFree g.records disk.diskNumber) := by
  -- A factory restore takes every table for changed.
  have notFactory : factory = false := by
    by_contra isFactory
    have changed : bPartitionChanged g.records image disk factory
        (bootBuffer image boot disk memory) = true :=
      bPartitionChanged_iff.mpr (Or.inl (by simpa using isFactory))
    rw [changed] at same
    exact Bool.noConfusion same
  rw [restoreBootArea_read read readable]
  dsimp only
  rw [same, notFactory]
  simp only [Bool.false_and, Bool.false_eq_true, if_false, if_true]
  rw [grub_spares_iff]
  have permitted : Permitted false forced answer
      (writeBootArea false disk (bootSectors g.records image disk false false
        (bootBuffer image boot disk memory)).1 (bootSectors g.records image disk false false
        (bootBuffer image boot disk memory)).2) ↔ forced = true := by
    simp [Permitted, writeBootArea]
  rw [permitted, Bool.not_eq_true]

/-- With a changed table the step is one of the whole boot area, or it stops. -/
theorem changed_iff (read : image.bootArea = some boot) (readable : disk.readable = true)
    (changed : bPartitionChanged g.records image disk factory (bootBuffer image boot disk memory) = true) :
    (¬Permitted factory forced answer
        (restoreBootArea g.records image disk factory forced answer memory) →
      RunSpares g.records disk (restoreBootArea g.records image disk factory forced answer memory)) ↔
    ((factory = true ∨ forced = true) → answer = .close →
      BootAreaHarmless g.records image disk (bootBuffer image boot disk memory)) := by
  have stops : ∀ question buffer, RunSpares g.records disk (.stop question buffer disk) :=
    fun _ _ => runSpares_zero rfl
  have sectors : bootSectors g.records image disk true factory (bootBuffer image boot disk memory)
      = (image.gptSize / SECTOR_SIZE, bootBuffer image boot disk memory) := by
    simp [bootSectors]
  rw [restoreBootArea_read read readable]
  dsimp only
  rw [changed]
  by_cases allowed : (forced || factory) = true
  · have either : factory = true ∨ forced = true := by
      simpa [or_comm] using allowed
    simp only [allowed, Bool.not_true, Bool.and_false, Bool.false_eq_true, if_false, if_true, sectors]
    cases answer with
    | ok =>
      -- The consent was given.
      refine ⟨fun _ _ other => MsgButton.noConfusion other, fun _ forbidden => ?_⟩
      exact absurd ⟨either, fun _ => rfl⟩ forbidden
    | cancel =>
      refine ⟨fun _ _ other => MsgButton.noConfusion other, fun _ _ => ?_⟩
      exact stops _ _
    | close =>
      -- The identifier of the button is not zero, also as a byte.
      have taken : toBOOL MsgButton.close.id = true := by decide
      rw [if_pos taken, whole_spares_iff]
      have forbidden : ¬Permitted factory forced .close
          (writeBootArea true disk (image.gptSize / SECTOR_SIZE) (bootBuffer image boot disk memory)) :=
        fun permitted => MsgButton.noConfusion (permitted.2 rfl)
      exact ⟨fun spares _ _ => spares forbidden, fun harmless _ => harmless either rfl⟩
  · have neither : ¬(factory = true ∨ forced = true) := by
      simpa [or_comm] using allowed
    simp only [allowed, Bool.not_false, Bool.and_true, if_true]
    exact ⟨fun _ either => absurd either neither, fun _ _ => stops _ _⟩

/--
The boot-area step keeps the partition table unasked exactly under the stated condition.

The table is any sorted one, the image and the disk are any, and any button answers the question.
-/
theorem recover_Linux_tableKept_iff (g : PartitionTable) (image : LinuxImage) (disk : TargetDisk)
    (factory forced : Bool) (answer : MsgButton) (memory : Image) :
    TableKept g.records disk factory forced answer
        (restoreBootArea g.records image disk factory forced answer memory) ↔
      BootAreaHolds g.records image disk factory forced answer memory := by
  rw [tableKept_iff, BootAreaHolds]
  -- Without the reads the step stops and there is nothing to show.
  cases read : image.bootArea with
  | none =>
    have stopped : restoreBootArea g.records image disk factory forced answer memory
        = .stop false memory disk := by
      rw [restoreBootArea, read]
    rw [stopped]
    refine ⟨fun _ boot other => ?_, fun _ _ => runSpares_zero rfl⟩
    cases other
  | some boot =>
    cases readable : disk.readable with
    | false =>
      have stopped : restoreBootArea g.records image disk factory forced answer memory
          = .stop false memory disk := by
        rw [restoreBootArea, read]
        dsimp only
        rw [if_pos (by simp [readable])]
      rw [stopped]
      refine ⟨fun _ boot _ other => ?_, fun _ _ => runSpares_zero rfl⟩
      cases other
    | true =>
      simp only [Option.some.injEq, forall_eq', forall_const]
      cases changed : bPartitionChanged g.records image disk factory
          (bootBuffer image boot disk memory) with
      | false =>
        have unchanged : ¬TableChanged g.records image disk factory
            (bootBuffer image boot disk memory) := by
          rw [← bPartitionChanged_iff, changed]
          decide
        rw [unchanged_iff read readable changed]
        exact ⟨fun spares => ⟨fun _ => spares, fun other => absurd other unchanged⟩,
          fun holds => holds.1 unchanged⟩
      | true =>
        have isChanged := bPartitionChanged_iff.mp changed
        rw [changed_iff read readable changed]
        exact ⟨fun spares => ⟨fun other => absurd isChanged other, fun _ => spares⟩,
          fun holds => holds.2 isChanged⟩

/-! ### A question that is closed -/

/-- A GPT disk, recognised by the entry that protects it. -/
def protectedDisk : TargetDisk where
  diskNumber := 0
  bytes := fun a =>
    if a = 0x1be + 4 then 0xEE else if a = 0x1fe then 0x55 else if a = 0x1ff then 0xAA else 0
  reached := 128

/-- An image whose boot area has its full size and brings another table. -/
def fullBootImage : LinuxImage where
  partition := []
  gptSize := 128 * SECTOR_SIZE
  bGpt := true
  bootArea := some fun _ => 0xff

/-- The front of the GPT disk is written in a factory restore whose question was closed. -/
theorem recover_Linux_closedQuestion :
    ¬TableKept [] protectedDisk true false .close
      (restoreBootArea [] fullBootImage protectedDisk true false .close fun _ => 0) := by
  intro kept
  have asked : (restoreBootArea [] fullBootImage protectedDisk true false .close
      fun _ => 0).question = true := by decide
  have written : (restoreBootArea [] fullBootImage protectedDisk true false .close
      fun _ => 0).number = 128 := by decide
  have spares := kept.others fun permitted => MsgButton.noConfusion (permitted.2 asked)
  have zero := spares.1 (by decide)
  rw [written] at zero
  exact absurd zero (by decide)

end Okr
