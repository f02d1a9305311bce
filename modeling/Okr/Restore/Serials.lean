import Okr.Restore.Globals

/-! The record of the machine's disks in the memo of an image, and the disks it tells to be new. -/

namespace Okr

/-! ### The record is written -/

/-- The test of `AddAllHddSn` for a serial number looks at six bytes of it. -/
def sampled (sn : Serial) : Bool :=
  sn 0 != 0 || sn 4 != 0 || sn 8 != 0 || sn 12 != 0 || sn 16 != 0 || sn 19 != 0

/-- `CopyMem` of a serial number. -/
def putSerial (buffer : Image) (i : Nat) (sn : Serial) : Image := putBytes buffer i (List.ofFn sn)

/-- The buffer of `AddAllHddSn` and how many disks it holds besides the one backed up. -/
structure SnBuffer where
  buffer : Image
  totaldisknum : Nat

/-- One slot of the second loop of `AddAllHddSn`. -/
def addHddSn (g : Globals) (backupDiskNumber : Option Nat) (s : SnBuffer) (i : Nat) : SnBuffer :=
  if some i ≠ backupDiskNumber ∧ s.totaldisknum < MAX_SUPPORED_HDD_NO - 1
      ∧ sampled (g.disk i).disksn then
    { buffer := putSerial s.buffer (12 + 20 * (s.totaldisknum + 1)) (g.disk i).disksn
      totaldisknum := s.totaldisknum + 1 }
  else s

/-- The serial number under which the backed-up disk is recorded. -/
def backupSerial (disk : DiskInfo) : Serial := if disk.isRAIDDisk then disk.raidDisksn else disk.disksn

/-- `AddAllHddSn`: the number −1 of the backed-up disk is `none`. -/
def addAllHddSn (g : Globals) (backupDiskNumber : Option Nat) (buffer : Image) : Image :=
  let totaldisknum := (List.range MAX_DISK_NUM).countP fun i => sampled (g.disk i).disksn
  let stored := min totaldisknum MAX_SUPPORED_HDD_NO
  let buffer := putBytes buffer 0 [0x44, 0x53, 0x4E, UInt8.ofNat stored]
  let buffer :=
    match backupDiskNumber with
    | some b => if b < MAX_DISK_NUM then putSerial buffer 12 (backupSerial (g.disk b)) else buffer
    | none => buffer
  ((List.range MAX_DISK_NUM).foldl (addHddSn g backupDiskNumber) ⟨buffer, 0⟩).buffer

/-- `updatepartcsize`. -/
def updatepartcsize (buffer : Image) (value : Nat) : Image := put 8 buffer 4 value

/-! ### The record is read -/

/-- The serial number at an address. -/
def serialAt (buffer : Image) (i : Nat) : Serial := fun a => buffer (i + a)

/-- What the comparison of a disk with the record works on. -/
structure Marking where
  tmpDisksn : Serial
  curdisktype : DiskType
  found : Bool

/-- The comparison of a disk with one entry; a RAID disk changes its number at the first one. -/
def compareEntry (temphddsn : Nat → Serial) (disk : DiskInfo) (m : Marking) (i : Nat) : Marking :=
  -- The branches for an image of a RAID disk and of another one do the same.
  let m := if i = 0 ∧ disk.isRAIDDisk then ⟨disk.raidDisksn, .raid, true⟩ else m
  if compareHddSN m.tmpDisksn (temphddsn i) then
    { m with
      curdisktype := if i = 0 then .sysdisk else .data
      found := true }
  else m

/-- One disk of the outer loop of `FindNewHdd`: its new mark, when it gets one. -/
def markOf (temphddsn : Nat → Serial) (diskcount : Nat) (disk : DiskInfo) : Option DiskType :=
  if disk.totalsector = 0 ∨ checkIfSnZero disk.disksn then none
  else
    let m := (List.range diskcount).foldl (compareEntry temphddsn disk)
      ⟨disk.disksn, disk.curdisktype, false⟩
    some (if m.found then m.curdisktype else .newFound)

/-- The disk with its new mark. -/
def markDisk (temphddsn : Nat → Serial) (diskcount : Nat) (disk : DiskInfo) : DiskInfo :=
  { disk with curdisktype := (markOf temphddsn diskcount disk).getD disk.curdisktype }

/-- `diskcount`, a signed byte: the loops up to a negative one do nothing. -/
def diskcountOf (buffer : Image) : Nat := (char8 (buffer 3).toNat).toNat

/--
`temphddsn`: the serial numbers the pointers of the array lead to.

No pointer is set from `diskcount` on, and there are none behind the sixth.
What is read there is not the image's, so it is a parameter.
-/
def temphddsnOf (stray : Nat → Serial) (buffer : Image) (i : Nat) : Serial :=
  if i < diskcountOf buffer ∧ i < MAX_SUPPORED_HDD_NO then serialAt buffer (12 + 20 * i) else stray i

/-- The serial number of a SATA disk starts with a blank or with zero. -/
def isSata (sn : Serial) : Bool := sn 0 == 0x20 || sn 0 == 0

/-- `RAID` stands at the front of the record of a RAID disk. -/
def isRAIDSerial (sn : Serial) : Bool := sn 0 == 0x52 && sn 1 == 0x41 && sn 2 == 0x49 && sn 3 == 0x44

/--
`FindNewHdd` on the record in the header of the image; it returns whether a disk is new.

The buffer is the memo of the header from its byte 100 on.
-/
def findNewHdd (stray : Nat → Serial) (version : Nat) (buffer : Image) (g : Globals) :
    Globals × Bool :=
  let g := { g with curImageSyspartitionsize := 0 }
  if version ≠ OKR_VERSION then (g, false)
  else if buffer 0 ≠ 0x44 ∨ buffer 1 ≠ 0x53 ∨ buffer 2 ≠ 0x4E then (g, false)
  else
    let g := { g with curImageSyspartitionsize := le64 buffer 4 }
    if g.curImageSyspartitionsize = 0 then (g, false)
    else
      let temphddsn := temphddsnOf stray buffer
      let g :=
        { g with
          sysdisktypeInBackupfile := if isSata (temphddsn 0) then .sata else .nvme
          enumGSKUSkipType :=
            if isRAIDSerial (temphddsn 0) then .newHddFunc else g.enumGSKUSkipType }
      let count := diskcountOf buffer
      ({ g with disklist := g.disklist.map (markDisk temphddsn count) },
        g.disklist.any fun disk => markOf temphddsn count disk == some .newFound)

end Okr
