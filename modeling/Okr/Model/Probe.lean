import Okr.Base.Partition

/-! Choosing what to back up: the probe that finds the operating system and flags its partitions. -/

namespace Okr

/-- The label that marks the vendor's own recovery partition, which is never backed up. -/
def lenovoLabel : List Nat :=
  [0x4C, 0x45, 0x4E, 0x4F, 0x56, 0x4F, 0x5F, 0x50, 0x41, 0x52, 0x54]

/--
What the firmware's file systems answer while the probe runs.

`hasSystemFile i` is the result for record `i`: 1 with an operating system, 0 without,
negative when the file system could not be opened.
`getVolumeName i` is the label read from the volume of record `i`.
-/
structure Volumes where
  hasSystemFile : Nat → Int
  getVolumeName : Nat → List Nat

/-- The probe's local variables together with the table it flags. -/
structure ProbeState where
  table : List PartitionInfo
  diskIndex : Int := -1
  systemBeginSector : Nat := 0
  iOSNumber : Nat := 0
  initFileSysErr : Nat := 0
  isLinuxSystem : Bool := false

/-- The system partition of a GPT disk. -/
def isEfiSystem (p : PartitionInfo) : Bool :=
  p.bGpt && p.typeGuid == uefiSystemTypeGuid

/-- Flag the first system partition of the table, on whichever disk it is. -/
def markEfiSystem : List PartitionInfo → List PartitionInfo × Int
  | [] => ([], -1)
  | p :: rest =>
    if isEfiSystem p then ({ p with bIfBackup := true } :: rest, p.diskNumber)
    else
      let (rest', disk) := markEfiSystem rest
      (p :: rest', disk)

/-- Only a volume of more than 1 GiB with an NTFS type is searched for Windows. -/
def isWindowsSized (p : PartitionInfo) : Bool :=
  decide (p.totalSectors > 1024 * 2048) && p.partitionType == NTFS

/-- The search for Windows walks every record of every disk and counts what it finds. -/
def markWindows (v : Volumes) (s : ProbeState) : Nat → List PartitionInfo → ProbeState
  | _, [] => s
  | i, p :: rest =>
    if isWindowsSized p then
      let ret := v.hasSystemFile i
      let found : ProbeState :=
        if ret = 1 then
          { s with
            table := s.table ++ [{ p with bIfBackup := true, hasWindows := true }]
            systemBeginSector := p.bootBegin
            diskIndex := p.diskNumber
            iOSNumber := s.iOSNumber + 1 }
        else { s with table := s.table ++ [p] }
      let counted : ProbeState :=
        if ret < 0 then { found with initFileSysErr := found.initFileSysErr + 1 } else found
      markWindows v counted (i + 1) rest
    else markWindows v { s with table := s.table ++ [p] } (i + 1) rest

/-- A record large enough for Linux, on the disk already chosen if there is one. -/
def isLinuxSized (diskIndex : Int) (p : PartitionInfo) : Bool :=
  decide (p.totalSectors > 20 * 1024 * 2048)
    && (diskIndex == -1 || diskIndex == (p.diskNumber : Int))

/-- Flag the first large Linux partition; `candidate` notes that a large NTFS or FAT32 came first. -/
def markLinux (diskIndex : Int) (candidate : Bool) :
    List PartitionInfo → List PartitionInfo × Option PartitionInfo × Bool
  | [] => ([], none, candidate)
  | p :: rest =>
    if isLinuxSized diskIndex p && p.partitionType == PARTITION_LINUX then
      ({ p with bIfBackup := true } :: rest, some p, candidate)
    else
      let seen := isLinuxSized diskIndex p && (p.partitionType == NTFS || p.partitionType == FAT32)
      let (rest', found, candidate') := markLinux diskIndex (candidate || seen) rest
      (p :: rest', found, candidate')

/-- An encrypted volume of either kind. -/
def isBitLocker (p : PartitionInfo) : Bool :=
  p.partitionType == SHD_BITLOCKER || p.partitionType == SHD_BITLOCKERTOGO

/-- The state once the search for Linux is done, and whether another large volume came first. -/
def takeLinux (s : ProbeState) : ProbeState × Bool :=
  let (table, found, candidate) := markLinux s.diskIndex false s.table
  match found with
  | some p =>
    ({ s with
        table := table
        systemBeginSector := p.bootBegin
        diskIndex := p.diskNumber
        isLinuxSystem := true }, candidate)
  | none => ({ s with table := table }, candidate)

/--
The part of the probe that runs when no Windows partition settled the system disk.

The second component is the result of an early return, when an encrypted volume stops the probe.
-/
def searchLinux (s : ProbeState) : ProbeState × Option Int :=
  let (s, candidate) := takeLinux s
  if (s.diskIndex = -1 ∨ s.systemBeginSector = 0) ∧ s.table.any isBitLocker then (s, some (-2))
  else if s.systemBeginSector = 0 ∧ candidate then ({ s with diskIndex := -1 }, none)
  else (s, none)

/-- Partitions below 1 GiB in front of the system partition are wanted. -/
def flagSmall (backupDisk : Int) (systemBeginSector : Nat) (p : PartitionInfo) : PartitionInfo :=
  if backupDisk ≠ p.diskNumber then p
  else if p.totalSectors < 1 * 1024 * 2048 ∧ p.bootBegin < systemBeginSector then
    { p with bIfBackup := true }
  else p

/-- The active partition and the ESP are wanted. -/
def flagBoot (backupDisk : Int) (p : PartitionInfo) : PartitionInfo :=
  if backupDisk ≠ p.diskNumber then p
  else if p.bBootPartition ∨ (p.bGpt ∧ p.typeGuid = uefiEspTypeGuid) then
    { p with bIfBackup := true }
  else p

/-- The legacy boot partition of Linux is wanted. -/
def flagLinuxBoot (backupDisk : Int) (p : PartitionInfo) : PartitionInfo :=
  if backupDisk ≠ p.diskNumber then p
  else if p.bGpt ∧ p.typeGuid = partitionLinuxBootGuid then { p with bIfBackup := true }
  else p

/-- The last word by type: recovery is wanted, reserved and plain data partitions are not. -/
def flagByType (diskIndex : Int) (p : PartitionInfo) : PartitionInfo :=
  if diskIndex ≠ p.diskNumber then p
  else if p.typeGuid = windowRecoveryTypeGuid then
    if p.label.take 11 ≠ lenovoLabel then { p with bIfBackup := true } else p
  else if p.typeGuid = windowReservedTypeGuid then { p with bIfBackup := false }
  else if p.typeGuid = windowsDataTypeGuid ∧ !p.hasWindows then { p with bIfBackup := false }
  else p

/-- What the probe leaves behind: its result, the disk to back up and the flagged table. -/
structure ProbeResult where
  ret : Int
  backupDiskNumber : Int
  table : List PartitionInfo
  isLinuxSystem : Bool := false

/-- `ProbeSystemPartition`: find the operating system and flag the partitions of its backup. -/
def probeSystemPartition (v : Volumes) (table : List PartitionInfo) : ProbeResult :=
  let (table, disk) := markEfiSystem table
  let s := markWindows v { table := [], diskIndex := disk } 0 table
  if s.iOSNumber > 1 then { ret := -3, backupDiskNumber := -1, table := s.table }
  else
    let (s, early) :=
      if s.diskIndex = -1 ∨ s.systemBeginSector = 0 then searchLinux s else (s, none)
    match early with
    | some e =>
      { ret := e, backupDiskNumber := -1, table := s.table, isLinuxSystem := s.isLinuxSystem }
    | none =>
      if s.diskIndex = -1 then
        { ret := if s.initFileSysErr > 0 then -1 else 0
          backupDiskNumber := -1
          table := s.table
          isLinuxSystem := s.isLinuxSystem }
      else
        let backupDisk := char8 s.diskIndex
        let table := s.table.map (flagSmall backupDisk s.systemBeginSector)
        let table := table.map (flagBoot backupDisk)
        let table := table.map (flagLinuxBoot backupDisk)
        let table := table.mapIdx fun i p => { p with label := v.getVolumeName i }
        { ret := 1
          backupDiskNumber := backupDisk
          table := table.map (flagByType s.diskIndex)
          isLinuxSystem := s.isLinuxSystem }

end Okr
