import Okr.Base.Word
import Okr.Restore.Serials

/-! The disks a restore may go to: those that are listed, counted, and looked at for the page. -/

namespace Okr

/-- The size of a disk in MiB, in 32 bits: `DivU64x32(totalsector, 2048)`. -/
def DiskInfo.size (disk : DiskInfo) : Nat := u32 (disk.totalsector / 2048)

/-- A new disk below 4 GiB is ignored. -/
def SMALL_DISK : Nat := 4 * 1024

/-! ### `AddDiskInfoLine` -/

/-- `DISK_LIST_INFO`: a line of the list. -/
structure DiskListInfo where
  disknum : Nat
  totalSectors : Nat
deriving Repr, DecidableEq

/-- The line of a disk. -/
def Globals.diskLine (g : Globals) (currentdisk : Nat) : DiskListInfo :=
  ⟨currentdisk, (g.disk currentdisk).totalsector⟩

/-- The tests of the second loop of `AddDiskInfoLine` that lead to `continue`. -/
def skipsLine (g : Globals) (disk : DiskInfo) : Bool :=
  if disk.size < SMALL_DISK then true
  else if isSata disk.disksn then
    ((g.enumGSKUSkipType == .nvmeToSata || g.enumGSKUSkipType == .differentType)
        && g.sysdisktypeInBackupfile == .nvme)
      || ((g.enumGSKUSkipType == .sataToSata || g.enumGSKUSkipType == .sameType)
        && g.sysdisktypeInBackupfile == .sata)
  else
    ((g.enumGSKUSkipType == .sataToNvme || g.enumGSKUSkipType == .differentType)
        && g.sysdisktypeInBackupfile == .sata)
      || ((g.enumGSKUSkipType == .nvmeToNvme || g.enumGSKUSkipType == .sameType)
        && g.sysdisktypeInBackupfile == .nvme)

/-- The first loop: the disk the image was taken from. -/
def sysdiskLines (g : Globals) : List Nat → List DiskListInfo → List DiskListInfo
  | [], lines => lines
  | i :: rest, lines =>
    if (g.disk i).curdisktype = .sysdisk then sysdiskLines g rest (lines ++ [g.diskLine i])
    else sysdiskLines g rest lines

/-- The second loop: the new disks, until sixteen lines are there. -/
def newDiskLines (g : Globals) : List Nat → List DiskListInfo → List DiskListInfo
  | [], lines => lines
  | i :: rest, lines =>
    if (g.disk i).curdisktype = .newFound ∧ skipsLine g (g.disk i) then newDiskLines g rest lines
    else
      let lines :=
        if (g.disk i).curdisktype = .newFound then lines ++ [g.diskLine i] else lines
      if 16 ≤ lines.length then lines else newDiskLines g rest lines

/-- `AddDiskInfoLine`: the lines of `g_disk_list_info`. -/
def addDiskInfoLine (g : Globals) : List DiskListInfo :=
  let disks := List.range g.disklist.length
  newDiskLines g disks (sysdiskLines g disks [])

/-! ### `GetRecoverableDiskNumber` -/

/-- The tests of `GetRecoverableDiskNumber` for a new disk that lead to `continue`. -/
def skipsDisk (g : Globals) (disk : DiskInfo) : Bool :=
  if disk.size < SMALL_DISK then true
  else if g.enumGSKUSkipType = .newHddFunc then true
  else if isSata disk.disksn then
    ((g.enumGSKUSkipType == .nvmeToSata || g.enumGSKUSkipType == .differentType)
        && g.sysdisktypeInBackupfile == .nvme)
      || ((g.enumGSKUSkipType == .sataToSata || g.enumGSKUSkipType == .sameType)
        && g.sysdisktypeInBackupfile == .sata)
  else
    ((g.enumGSKUSkipType == .sataToNvme || g.enumGSKUSkipType == .differentType)
        && g.sysdisktypeInBackupfile == .sata)
      || ((g.enumGSKUSkipType == .nvmeToNvme || g.enumGSKUSkipType == .sameType)
        && g.sysdisktypeInBackupfile == .nvme)

/--
The loop of `GetRecoverableDiskNumber`, with the disks at which the counter goes up.

A disk that leads to `continue` also passes by the test of the counter.
-/
def recoverableDisks (g : Globals) : List Nat → List Nat → List Nat
  | [], counted => counted
  | i :: rest, counted =>
    if (g.disk i).curdisktype = .sysdisk then recoverableDisks g rest (counted ++ [i])
    else if (g.disk i).curdisktype = .newFound ∧ skipsDisk g (g.disk i) then
      recoverableDisks g rest counted
    else
      let counted := if (g.disk i).curdisktype = .newFound then counted ++ [i] else counted
      if 16 ≤ counted.length then counted else recoverableDisks g rest counted

/-- `GetRecoverableDiskNumber`. -/
def getRecoverableDiskNumber (g : Globals) : Nat :=
  (recoverableDisks g (List.range g.disklist.length) []).length

/-! ### `DetectNewHddFace` -/

/-- `bSkip` after a loop, and the disks from `iIndex` on. -/
structure SkipLoop where
  bSkip : Bool
  disks : List DiskInfo

/-- The loop of a branch: a new disk of the kind that is allowed ends it. -/
def skipLoop (stops : DiskInfo → Bool) (bSkip : Bool) : List DiskInfo → SkipLoop
  | [] => ⟨bSkip, []⟩
  | disk :: rest =>
    if disk.curdisktype = .newFound then
      if stops disk then ⟨false, disk :: rest⟩ else skipLoop stops true rest
    else skipLoop stops bSkip rest

/-- A branch that runs its loop when the policy and the kind of the backed-up disk ask for it. -/
def skipBranch (runs : Bool) (stops : DiskInfo → Bool) (s : SkipLoop) : SkipLoop :=
  -- A branch that skips the page has returned.
  if s.bSkip then s else if runs then skipLoop stops false s.disks else s

/-- The four branches; `iIndex` goes on from one to the next. -/
def skipsPage (g : Globals) : Bool :=
  let s : SkipLoop := ⟨false, g.disklist⟩
  let s := skipBranch ((g.enumGSKUSkipType == .sataToNvme || g.enumGSKUSkipType == .differentType)
    && g.sysdisktypeInBackupfile == .sata) (fun disk => isSata disk.disksn) s
  let s := skipBranch ((g.enumGSKUSkipType == .nvmeToSata || g.enumGSKUSkipType == .differentType)
    && g.sysdisktypeInBackupfile == .nvme) (fun disk => !isSata disk.disksn) s
  let s := skipBranch ((g.enumGSKUSkipType == .nvmeToNvme || g.enumGSKUSkipType == .sameType)
    && g.sysdisktypeInBackupfile == .nvme) (fun disk => isSata disk.disksn) s
  let s := skipBranch ((g.enumGSKUSkipType == .sataToSata || g.enumGSKUSkipType == .sameType)
    && g.sysdisktypeInBackupfile == .sata) (fun disk => !isSata disk.disksn) s
  s.bSkip

/-- How `DetectNewHddFace` goes on once `FindNewHdd` has looked for new disks. -/
inductive DetectOutcome where
  /-- The machine's policy is `DISABLE_NEW_HDD_FUNC`. -/
  | disabled
  /-- No disk is new. -/
  | noNewDisk
  /-- The policy skips the selection page. -/
  | skipped
  /-- The selection page is shown. -/
  | page
deriving Repr, DecidableEq

/-- `DetectNewHddFace` up to its page; `result` is what `FindNewHdd` returned. -/
def detectOutcome (g : Globals) (result : Bool) : DetectOutcome :=
  if g.enumGSKUSkipType = .newHddFunc then .disabled
  else if result = false then .noNewDisk
  else if skipsPage g then .skipped
  else .page

/-- `DetectNewHddFace` up to its page, on the record in the header of the image. -/
def detectNewHddFace (stray : Nat → Serial) (version : Nat) (buffer : Image) (g : Globals) :
    DetectOutcome :=
  let found := findNewHdd stray version buffer g
  detectOutcome found.1 found.2

end Okr
