import Okr.Base.Memory
import Okr.Scan.Ntfs

/-! The dirty flag of a restored NTFS volume, as `SetNTFSVolDirty` enters it in the `$Volume` record. -/

namespace Okr

/-- Bytes of the buffer for the record. -/
def VOLUME_RECORD : Nat := 1024

/-- The loop over the attributes: the index at which it stops; nothing when it never does. -/
def dirtyWalk (bitmapbuffer : Image) : Nat → Nat → Option Nat
  | 0, _ => none
  | fuel + 1, i =>
    if i < VOLUME_RECORD then
      if char (bitmapbuffer i) = 0x70 ∨ char (bitmapbuffer i) = 0xFF ∨ char (bitmapbuffer i) = 0 then
        some i
      else dirtyWalk bitmapbuffer fuel (u32 (i + le32 bitmapbuffer (i + 4)))
    else some i

/-- Where the value of an attribute starts, in the 16 bits of `runlist_start`. -/
def runlistStart (bitmapbuffer : Image) (i : Nat) : Nat :=
  (le16 bitmapbuffer (i % 2 ^ 16 + 0x14) + i % 2 ^ 16) % 2 ^ 16

/-- The record once the attribute is looked for: nothing is written when it is not found. -/
def enterDirty (bitmapbuffer : Image) (i : Nat) : Option Image :=
  if char (bitmapbuffer i) ≠ 0x70 then none
  else
    let runlist_start := runlistStart bitmapbuffer i
    some (putBytes (putBytes bitmapbuffer (runlist_start + 8 + 1 + 1) [0x01])
      (runlist_start + 8 + 1 + 1 + 1) [0x0f])

/-- `"NTFS"` in the first sector of a volume, and `"FILE"` in front of a record. -/
def isNtfsVolume (buffer : Image) : Bool := bytesAt buffer 3 4 == [0x4e, 0x54, 0x46, 0x53]
def isFileRecord (buffer : Image) : Bool := bytesAt buffer 0 4 == [0x46, 0x49, 0x4c, 0x45]

/-- Where the function looks for the `$Volume` record: the fourth one of the master file table. -/
def volumeRecordSector (buffer : Image) (sectoroff : Nat) : Nat :=
  u64 (sectoroff + u64 (le64 buffer 0x30 * 8) + 6)

/-- What `DiskWrite` is told to write. -/
structure SectorWrite where
  sector : Nat
  count : Nat
  buffer : Image

/--
`SetNTFSVolDirty`: the write it ends with, if it makes one; nothing when it never ends.

The buffer for the record lies in memory whose content is the heap's.
-/
def setNTFSVolDirty (fuel : Nat) (heap disk : Image) (sectoroff : Nat) : Option (Option SectorWrite) :=
  let buffer := diskRead disk sectoroff 1 fun _ => 0
  if ¬isNtfsVolume buffer then some none
  else
    let startSec := volumeRecordSector buffer sectoroff
    let bitmapbuffer := diskRead disk startSec 2 heap
    if ¬isFileRecord bitmapbuffer then some none
    else
      (dirtyWalk bitmapbuffer fuel (le16 bitmapbuffer 0x14)).map fun i =>
        (enterDirty bitmapbuffer i).map fun written =>
          { sector := startSec, count := 2, buffer := written }

end Okr
