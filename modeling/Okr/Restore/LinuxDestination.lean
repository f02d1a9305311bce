import Okr.Base.Partition
import Okr.Restore.Globals

/-! The disk a Linux image is restored to, found by the partitions it shares with the machine. -/

namespace Okr

/-- The header of the image, as far as the choice of the disk reads it. -/
structure LinuxHeader where
  /-- The first `PartitionCount` records. -/
  partition : List PartitionInfo
  disksize : Nat
deriving Repr, DecidableEq

/-- The machine: its disks, which of them are marked as data disks, and its partitions. -/
structure LinuxMachine where
  disklist : List DiskInfo
  /-- The field `datadisk` of the disks. -/
  datadisk : Nat → Bool := fun _ => false
  partitions : List PartitionInfo

/-- The partition of the machine is the one of the image. -/
def samePartition (image machine : PartitionInfo) : Bool :=
  machine.bootBegin == image.bootBegin
    && machine.totalSectors == image.totalSectors
    && machine.partitionType == image.partitionType
    && machine.uniGuid.take 16 == image.uniGuid.take 16
    -- 32 bytes of the label are compared, that is, 16 characters.
    && machine.label.take 16 == image.label.take 16

/-- `backupdisk`: the disk of the first partition that was backed up. -/
def LinuxHeader.backupdisk (head : LinuxHeader) : Nat :=
  ((head.partition.find? (·.bIfBackup)).map (·.diskNumber)).getD 0

/-- The disk on which a partition of the image is found: the inner loop stops at the first match. -/
def LinuxMachine.findPartition (machine : LinuxMachine) (image : PartitionInfo) : Option Nat :=
  (machine.partitions.find? (samePartition image)).map (·.diskNumber)

/-- `destdisk`, `datasize` and the marks of the data disks; `none` is the number −1. -/
structure LinuxMatch where
  destdisk : Option Nat
  datasize : Nat
  datadisk : Nat → Bool

/-- What is done with a partition that is found on disk `d`; no result is an access outside the list. -/
def LinuxMachine.matched (machine : LinuxMachine) (backupdisk : Nat) (image : PartitionInfo) (d : Nat)
    (s : LinuxMatch) : Option LinuxMatch :=
  if image.bIfBackup then
    if backupdisk = image.diskNumber ∧ s.destdisk = none then
      machine.disklist[d]?.map fun disk => if disk.removable then s else { s with destdisk := some d }
    else some s
  else if backupdisk ≠ image.diskNumber then
    machine.disklist[d]?.map fun _ =>
      { s with
        destdisk := if s.destdisk = some d then none else s.destdisk
        datadisk := fun i => if i = d then true else s.datadisk i }
  else some s

/-- The search for a partition of the image, and what is done when it is found. -/
def LinuxMachine.matchStep (machine : LinuxMachine) (backupdisk : Nat) (image : PartitionInfo)
    (s : LinuxMatch) : Option LinuxMatch :=
  match machine.findPartition image with
  | some d => machine.matched backupdisk image d s
  | none => some s

/-- The loop over the partitions of the image. -/
def LinuxMachine.matchLoop (machine : LinuxMachine) (backupdisk : Nat) :
    List PartitionInfo → LinuxMatch → Option LinuxMatch
  | [], s => some s
  | image :: rest, s => do
    let s ← machine.matchStep backupdisk image s
    machine.matchLoop backupdisk rest
      { s with
        datasize := if image.bIfBackup then u64 (s.datasize + image.totalSectors) else s.datasize }

/-- `destdisk` and `candidate`. -/
structure LinuxChoice where
  destdisk : Option Nat
  candidate : Option Nat
deriving Repr, DecidableEq

/-- The tests of the size; a disk that is too small is set to −1, and then read all the same. -/
def LinuxMachine.checkSize (machine : LinuxMachine) (disksize : Nat) (s : LinuxMatch) :
    Option LinuxChoice :=
  match s.destdisk with
  | none => some ⟨none, none⟩
  | some d => do
    let disk ← machine.disklist[d]?
    if disk.totalsector ≤ s.datasize then none
    else if u64 (disk.totalsector + 2048 * 8) < disksize ∨ u64 (disksize + 2048 * 8) < disk.totalsector
    then some ⟨none, some d⟩
    else some ⟨some d, some d⟩

/-- A disk that the fallback loops do not pass by. -/
def LinuxMachine.usable (machine : LinuxMachine) (datadisk : Nat → Bool) (i : Nat) : Bool :=
  !((machine.disklist.getD i {}).removable || datadisk i)

/-- The first fallback loop. -/
def LinuxMachine.firstFallback (machine : LinuxMachine) (disksize : Nat) (s : LinuxMatch)
    (candidate : Option Nat) : List Nat → LinuxChoice
  | [] => ⟨none, candidate⟩
  | i :: rest =>
    let disk := machine.disklist.getD i {}
    if !machine.usable s.datadisk i then machine.firstFallback disksize s candidate rest
    else if !disk.formatted ∧ s.datasize ≤ disk.totalsector ∧ candidate = none then ⟨some i, candidate⟩
    else if disk.totalsector = disksize ∧ candidate = none then ⟨none, some i⟩
    else machine.firstFallback disksize s candidate rest

/-- The second fallback loop. -/
def LinuxMachine.secondFallback (machine : LinuxMachine) (s : LinuxMatch) (destdisk : Option Nat) :
    Option Nat → List Nat → LinuxChoice
  | candidate, [] => ⟨destdisk, candidate⟩
  | candidate, i :: rest =>
    let disk := machine.disklist.getD i {}
    if !machine.usable s.datadisk i then machine.secondFallback s destdisk candidate rest
    else if !disk.formatted ∧ s.datasize ≤ disk.totalsector then ⟨some i, candidate⟩
    else
      machine.secondFallback s destdisk
        (if s.datasize ≤ disk.totalsector ∧ candidate = none then some i else candidate) rest

/-- The disks that take the place of the original one. -/
def LinuxMachine.fallback (machine : LinuxMachine) (disksize : Nat) (s : LinuxMatch)
    (choice : LinuxChoice) : LinuxChoice :=
  let disks := List.range machine.disklist.length
  let choice :=
    if choice.destdisk = none then machine.firstFallback disksize s choice.candidate disks else choice
  if choice.candidate = none then machine.secondFallback s choice.destdisk none disks else choice

/--
`GetDestinationDisk_Linux`: `g_data.RecoverDiskNumber`, and `TRUE` is returned unless it is −1.

No result at all is an access outside the list of disks.
-/
def getDestinationDisk_Linux (head : LinuxHeader) (machine : LinuxMachine) : Option (Option Nat) := do
  let s ← machine.matchLoop head.backupdisk head.partition ⟨none, 0, machine.datadisk⟩
  let choice ← machine.checkSize head.disksize s
  let choice := machine.fallback head.disksize s choice
  some (choice.destdisk.or choice.candidate)

end Okr
