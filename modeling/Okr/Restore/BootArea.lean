import Okr.Discovery.Partitions

/-! `Recover_Linux`, the boot area: the front sectors of the disk, with the partition table in them. -/

namespace Okr

/-- A record of the partition table with the sector its table stands in. -/
structure TablePartition extends PartitionInfo where
  partitionTableBegin : Nat := 0

/-- The records of one disk come in the order of their first sectors. -/
def InDiskOrder (records : List PartitionInfo) : Prop :=
  records.Pairwise fun p q => p.diskNumber = q.diskNumber → p.bootBegin ≤ q.bootBegin

/-- The table of the machine, `g_Partitions`, in the order the discovery sorts it into. -/
structure PartitionTable where
  records : List TablePartition
  inOrder : InDiskOrder (records.map TablePartition.toPartitionInfo)

/-- The button a message box is left by. -/
inductive MsgButton where
  | cancel
  | ok
  | close
deriving Repr, DecidableEq

/-- `IDCANCEL`, `IDOK` and `IDB_MSG_CLOSE`; the escape key gives the first. -/
def MsgButton.id : MsgButton → Nat
  | .cancel => 0
  | .ok => 1
  | .close => 0x100 + 20

/-- The conversion of an `int` to a `BOOL`, which is one byte. -/
def toBOOL (n : Nat) : Bool := n % 2 ^ 8 != 0

/-- What an image carries of the boot area; the read of it fails or comes short where there is none. -/
structure LinuxImage where
  partition : List TablePartition
  gptSize : Nat
  bGpt : Bool
  bootArea : Option Image

/-- The destination: its bytes, whether its first sector is read, and how far a write reaches. -/
structure TargetDisk where
  diskNumber : Nat
  bytes : Image
  readable : Bool := true
  reached : Nat

/-- `GetFirstPartitionBeginSector`: zero where the disk has no partition. -/
def getFirstPartitionBeginSector (g_Partitions : List TablePartition) (diskNumber : Nat) : Nat :=
  match g_Partitions.find? (·.diskNumber == diskNumber) with
  | some p => p.bootBegin
  | none => 0

/-- `IsGptSystem`: the first record of the disk decides. -/
def isGptSystem (g_Partitions : List TablePartition) (diskNumber : Nat) : Bool :=
  match g_Partitions.find? (·.diskNumber == diskNumber) with
  | some p => p.bGpt
  | none => false

/-- `IfNeedRecoverPartTable_Linux`: a partition of the image is not in its place on the disk. -/
def ifNeedRecoverPartTable_Linux (g_Partitions head : List TablePartition) (diskNumber : Nat) : Bool :=
  head.any fun h =>
    h.bIfBackup &&
      match g_Partitions.find? fun p => p.bootBegin == h.bootBegin && p.diskNumber == diskNumber with
      | none => true
      | some p =>
        p.uniGuid != h.uniGuid || p.totalSectors != h.totalSectors
          || p.partitionTableBegin != h.partitionTableBegin

/-- `IsBackup`: the image holds data of a partition at this place. -/
def isBackup (header : List TablePartition) (bootBegin totalSector : Nat) : Bool :=
  header.any fun h =>
    h.bIfBackup && h.backupDataSize != 0 && h.bootBegin == bootBegin && h.totalSectors == totalSector

/-- Where the first sector of the disk is read to. -/
def MBR_BUFFER : Nat := 0x100000

/-- `RecheckPartitionTable_Linux`, of the saved boot record and the one the disk has. -/
def recheckPartitionTable_Linux (header : List TablePartition) (buffer : Image) : Bool :=
  (recordEntries 0).any fun entry =>
    isBackup header (entryFront buffer entry) (entryTotal buffer entry) &&
      (entryFront buffer entry != entryFront buffer (MBR_BUFFER + entry)
        || entryTotal buffer entry != entryTotal buffer (MBR_BUFFER + entry))

/-- The buffer with the saved boot area, and then with the first sector of the disk. -/
def bootBuffer (image : LinuxImage) (boot : Image) (disk : TargetDisk) (memory : Image) : Image :=
  fun a =>
    if MBR_BUFFER ≤ a ∧ a < MBR_BUFFER + SECTOR_SIZE then disk.bytes (a - MBR_BUFFER)
    else if a < image.gptSize then boot a
    else memory a

/-- `bPartitionChanged`, as it stands before the question. -/
def bPartitionChanged (g_Partitions : List TablePartition) (image : LinuxImage) (disk : TargetDisk)
    (bFactoryRestore : Bool) (buffer : Image) : Bool :=
  let changed :=
    bFactoryRestore || ifNeedRecoverPartTable_Linux g_Partitions image.partition disk.diskNumber
  if !changed && !image.bGpt then recheckPartitionTable_Linux image.partition buffer else changed

/-- What a run of the step did: the question put, the write asked for, and what the disk holds then. -/
structure BootAreaRun where
  question : Bool := false
  number : Nat := 0
  data : Image
  disk : Image
  ok : Bool

/-- The step ends without a write. -/
def BootAreaRun.stop (question : Bool) (buffer : Image) (disk : TargetDisk) : BootAreaRun :=
  { question := question, data := buffer, disk := disk.bytes, ok := false }

/-- How many sectors go to the disk, and what stands in the buffer for them. -/
def bootSectors (g_Partitions : List TablePartition) (image : LinuxImage) (disk : TargetDisk)
    (changed bFactoryRestore : Bool) (buffer : Image) : Nat × Image :=
  let number := image.gptSize / SECTOR_SIZE
  if !changed && !bFactoryRestore then
    -- Only the boot code is restored here, and a GPT disk has none in front of its table.
    let number := if image.bGpt || isGptSystem g_Partitions disk.diskNumber then 0 else number
    if number ≠ 0 then
      let firstsector := getFirstPartitionBeginSector g_Partitions disk.diskNumber
      (if firstsector ≠ 0 ∧ firstsector < number then firstsector else number,
        copyMem buffer 0x1be (MBR_BUFFER + 0x1be) 0x40)
    else (0, buffer)
  else (number, buffer)

/-- `DiskWrite` of the boot area; what reached the disk before a failure stays there. -/
def writeBootArea (question : Bool) (disk : TargetDisk) (number : Nat) (buffer : Image) : BootAreaRun :=
  { question := question
    number := number
    data := buffer
    disk := diskWrite disk.bytes 0 (min number disk.reached) buffer
    ok := number ≤ disk.reached }

/-- `Recover_Linux`, from the test of the partition table to the write of the boot area. -/
def restoreBootArea (g_Partitions : List TablePartition) (image : LinuxImage) (disk : TargetDisk)
    (bFactoryRestore bForceRestorePartition : Bool) (answer : MsgButton) (memory : Image) :
    BootAreaRun :=
  match image.bootArea with
  | none => .stop false memory disk
  | some boot =>
    if !disk.readable then .stop false memory disk
    else
      let buffer := bootBuffer image boot disk memory
      let changed := bPartitionChanged g_Partitions image disk bFactoryRestore buffer
      -- A factory restore sets the flag that allows a changed table.
      if changed && !(bForceRestorePartition || bFactoryRestore) then .stop false buffer disk
      else
        let needrecover := if changed then toBOOL answer.id else true
        if needrecover then
          let (number, data) := bootSectors g_Partitions image disk changed bFactoryRestore buffer
          writeBootArea changed disk number data
        else .stop changed buffer disk

end Okr
