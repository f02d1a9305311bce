import Okr.NewDisk.Rewrite
import Okr.Restore.BootArea

/-! `Recover`: whether the partition table of the destination is restored, and the write of it. -/

namespace Okr

/-- The disk the system of the image was taken from. -/
def DISK_SYSDISK : Nat := 1

/-- What an image carries for the decision: its boot area, and what it knows of its source. -/
structure RecoverImage extends LinuxImage where
  /-- `OldImage`: the header that was read is one of the older version. -/
  oldImage : Bool := false
  /-- The first eight bytes of `WinPartNtfsGuid`. -/
  winPartNtfsGuid : Bytes := []
  sourceDiskGUID : Bytes := []

/-- The destination, with its identifier and whether the boot sector of its Windows can be read. -/
structure RecoverDisk extends TargetDisk where
  guid : Bytes := []
  windowsReadable : Bool := true

/-- The restore goes to a new disk that was chosen on the page of new disks. -/
def RestoreMode.isNewDisk (mode : RestoreMode) : Bool :=
  mode.destdisktype == NEW_FOUND_DISK && mode.comefromnewhddface

/-- The restore goes to the system's own disk, and it was chosen on that page. -/
def RestoreMode.isSysdisk (mode : RestoreMode) : Bool :=
  mode.destdisktype == DISK_SYSDISK && mode.comefromnewhddface

/-- `klchange`: a partition that was backed up begins where the disk has none. -/
def klchange (g_Partitions head : List TablePartition) (diskNumber : Nat) : Bool :=
  head.any fun h =>
    h.bIfBackup &&
      !g_Partitions.any fun p => p.bootBegin == h.bootBegin && p.diskNumber == diskNumber

/-- `IfNeedRecoverPartTable`: the checks are those of `IfNeedRecoverPartTable_Linux`. -/
def ifNeedRecoverPartTable (mode : RestoreMode) (g_Partitions head : List TablePartition)
    (diskNumber : Nat) : Bool :=
  mode.bForceRestorePartition || mode.isNewDisk
    || ifNeedRecoverPartTable_Linux g_Partitions head diskNumber

/-- `IfNeedRecoverPartTable_delete`: the result, and `klchange`. -/
def ifNeedRecoverPartTable_delete (mode : RestoreMode) (g_Partitions head : List TablePartition)
    (diskNumber : Nat) : Bool × Bool :=
  if mode.bForceRestorePartition || mode.isNewDisk then (true, false)
  else (klchange g_Partitions head diskNumber, klchange g_Partitions head diskNumber)

/-- `RecheckPartitionTable`. -/
def recheckPartitionTable (mode : RestoreMode) (header : List TablePartition) (buffer : Image) : Bool :=
  mode.bForceRestorePartition || recheckPartitionTable_Linux header buffer

/-- `CheckPartitionStartPosition`: some disk has a partition where the image had Windows. -/
def checkPartitionStartPosition (g_Partitions head : List TablePartition) : Bool :=
  head.any fun h => h.hasWindows && g_Partitions.any fun p => p.bootBegin == h.bootBegin

/-- The first decision on `bPartitionChanged`, and on the force flag; none is the way to `Done`. -/
def partitionChanged (g_Partitions : List TablePartition) (image : RecoverImage) (diskNumber : Nat)
    (mode : RestoreMode) (bFactoryRestore : Bool) : Option (Bool × RestoreMode) :=
  if bFactoryRestore then some (true, { mode with bForceRestorePartition := true })
  else
    let result := ifNeedRecoverPartTable_delete mode g_Partitions image.partition diskNumber
    if mode.bForceRestorePartition then some (result.1, mode)
    else if result.2 then none
    else some (ifNeedRecoverPartTable mode g_Partitions image.partition diskNumber, mode)

/-- The boot sector of the Windows on the disk, if there is one, has another serial number. -/
def serialChanged (g_Partitions : List TablePartition) (image : RecoverImage) (disk : RecoverDisk) :
    Bool :=
  match g_Partitions.find? fun p => p.hasWindows && p.diskNumber == disk.diskNumber with
  | some p =>
    disk.windowsReadable
      && bytesAt disk.bytes (p.bootBegin * SECTOR_SIZE + 0x48) 8 != image.winPartNtfsGuid
  | none => false

/-- The tests of a disk that was not chosen on the page: do they end the restore? -/
def refusesDisk (g_Partitions : List TablePartition) (image : RecoverImage) (disk : RecoverDisk)
    (mode : RestoreMode) (changed : Bool) : Bool :=
  if !mode.comefromnewhddface && (mode.olddisk == 2 || mode.olddisk == 1) then
    -- An image of the older version knows neither of the two identifiers.
    if !image.oldImage && !mode.bForceRestorePartition then
      serialChanged g_Partitions image disk
        || (changed && (!checkPartitionStartPosition g_Partitions image.partition
          || image.sourceDiskGUID != disk.guid))
    else false
  else false

/-- What is set once the restore is agreed to. -/
def agreedMode (mode : RestoreMode) (changed : Bool) : Bool × RestoreMode :=
  let (changed, mode) :=
    if mode.isNewDisk then (true, { mode with bForceRestorePartition := true }) else (changed, mode)
  (if mode.isSysdisk then false else changed, mode)

/-- `needrecover`: the assignments one after the other. -/
def needrecover (g_Partitions : List TablePartition) (image : RecoverImage) (diskNumber : Nat)
    (mode : RestoreMode) (changed : Bool) : Bool :=
  let need := !(changed && !mode.comefromnewhddface && mode.olddisk == 1)
  let need := if !isGptSystem g_Partitions diskNumber && image.bGpt then true else need
  let need := if isGptSystem g_Partitions diskNumber && !image.bGpt then true else need
  let need := if !mode.comefromnewhddface && mode.bForceRestorePartition then true else need
  let need := if mode.isNewDisk then true else need
  if mode.isSysdisk then false else need

/-- The restore goes on without a write. -/
def BootAreaRun.skip (question : Bool) (buffer : Image) (disk : TargetDisk) : BootAreaRun :=
  { question := question, data := buffer, disk := disk.bytes, ok := true }

/-- The step once the boot area and the first sector of the disk are in the buffer. -/
def restoreTableRead (g_Partitions : List TablePartition) (image : RecoverImage) (disk : RecoverDisk)
    (mode : RestoreMode) (bFactoryRestore changed : Bool) (answer : MsgButton) (buffer : Image) :
    BootAreaRun :=
  let changed :=
    if !changed && !image.bGpt then recheckPartitionTable mode image.partition buffer else changed
  -- The test that a changed table is not restored unasked: `olddisk` is 1 or 2 behind the choice of a disk.
  let guarded := changed && !mode.comefromnewhddface && mode.olddisk == 0
  if guarded && !mode.bForceRestorePartition then .stop false buffer disk.toTargetDisk
  else if guarded && answer != .ok then .stop true buffer disk.toTargetDisk
  else if needrecover g_Partitions image disk.diskNumber mode changed then
    let changed := if !mode.comefromnewhddface && mode.bForceRestorePartition then true else changed
    let (number, data) :=
      bootSectors g_Partitions image.toLinuxImage disk.toTargetDisk changed bFactoryRestore buffer
    writeBootArea guarded disk.toTargetDisk number data
  else .skip guarded buffer disk.toTargetDisk

/--
`Recover`, from the test of the partition table to the write of the boot area.

`passes` says that the questions before the restore are agreed to and the check value is right.
-/
def restoreTable (g_Partitions : List TablePartition) (image : RecoverImage) (disk : RecoverDisk)
    (mode : RestoreMode) (bFactoryRestore passes : Bool) (answer : MsgButton) (memory : Image) :
    BootAreaRun :=
  match partitionChanged g_Partitions image disk.diskNumber mode bFactoryRestore with
  | none => .stop false memory disk.toTargetDisk
  | some (changed, mode) =>
    if refusesDisk g_Partitions image disk mode changed || !passes then
      .stop false memory disk.toTargetDisk
    else
      let (changed, mode) := agreedMode mode changed
      match image.bootArea with
      | none => .stop false memory disk.toTargetDisk
      | some boot =>
        if !disk.readable then .stop false memory disk.toTargetDisk
        else
          restoreTableRead g_Partitions image disk mode bFactoryRestore changed answer
            (bootBuffer image.toLinuxImage boot disk.toTargetDisk memory)

end Okr
