import Okr.File.Stream

/-! How a restore loads the header of an image and then the boot area behind it, on both routes. -/

namespace Okr

/-- The two restore functions `RecoveryFace` selects from. -/
inductive RestoreRoute where
  | recover
  | recoverLinux
deriving Repr, DecidableEq

/-- `RecoveryFace`: an image that notes no size of a Windows partition goes to `Recover_Linux`. -/
def selectRoute (curImageSyspartitionsize : Nat) : RestoreRoute :=
  if curImageSyspartitionsize = 0 then .recoverLinux else .recover

/-- Fields of a header of today. -/
def headerStructSize (header : Image) : Nat := le32 header 8
def headerGptSize (header : Image) : Nat := le32 header 0x53C
def headerComplete (header : Image) : Bool := header 0x541 == 1

/-- The header is read in full from the front of the image, and must be that of a complete image. -/
def loadImageHeader (f : SegFile) (buffer heap : Image) (mark : OldHeader) :
    Option (Image × SegFile × OldHeader) :=
  match fileRead f OKR_HEADER_MAX_SIZE buffer heap mark with
  | (.bytes bytes, f, mark) =>
    let header := readInto bytes buffer
    if bytes.length ≠ OKR_HEADER_MAX_SIZE then none
    else if le32 header 0 ≠ OKR_IMAGE_MAGIC || !headerComplete header then none
    else some (header, f, mark)
  | _ => none

/-- A seek and a read that must be complete. -/
def readWhole (f : SegFile) (pos size : Nat) (buffer heap : Image) (mark : OldHeader) : Option Bytes :=
  match f.setPos pos with
  | (.done, f) =>
    match fileRead f size buffer heap mark with
    | (.bytes bytes, _, _) => if bytes.length = size then some bytes else none
    | _ => none
  | _ => none

/-- The memory a restore finds: the header's buffer, the data buffer, and the heap at both reads. -/
structure RestoreMemory where
  header : Image
  data : Image
  heap : Image
  heap' : Image

/--
`Recover`, to the read of the boot area.

The image is closed, its check value validated, and opened again.
The tests in between pass or end the restore; the files they read go through `NormalFileRead`,
which knows nothing of the mark of a converted header.
-/
def recoverBootArea (backend : Backend) (ifneedseg passes : Bool) (volume : Nat → Option Bytes)
    (memory : RestoreMemory) (mark : OldHeader) : Option Bytes :=
  let mark := { mark with oldImage := false }
  match loadImageHeader (segFileOpen backend ifneedseg volume) memory.header memory.heap mark with
  | none => none
  | some (header, _, mark) =>
    if passes then
      let pos := if mark.oldImage then mark.oldStructSize else headerStructSize header
      readWhole (segFileOpen backend ifneedseg volume) pos (headerGptSize header) memory.data
        memory.heap' mark
    else none

/-- `Recover_Linux`, to the read of the boot area: the image stays open. -/
def recoverLinuxBootArea (backend : Backend) (ifneedseg passes : Bool) (volume : Nat → Option Bytes)
    (memory : RestoreMemory) (mark : OldHeader) : Option Bytes :=
  match loadImageHeader (segFileOpen backend ifneedseg volume) memory.header memory.heap mark with
  | none => none
  | some (header, f, mark) =>
    if passes then
      readWhole f (headerStructSize header) (headerGptSize header) memory.data memory.heap' mark
    else none

/-- What comes into the data buffer before the partition table is looked at, on the selected route. -/
def restoredBootArea (curImageSyspartitionsize : Nat) (backend : Backend) (ifneedseg passes : Bool)
    (volume : Nat → Option Bytes) (memory : RestoreMemory) (mark : OldHeader) : Option Bytes :=
  match selectRoute curImageSyspartitionsize with
  | .recover => recoverBootArea backend ifneedseg passes volume memory mark
  | .recoverLinux => recoverLinuxBootArea backend ifneedseg passes volume memory mark

/--
An image of the older version: its first segment, a header of its own size with a boot area behind.

Its name is that of the volume's files, which are ones a volume can hold.
-/
structure LegacyFile where
  bytes : Bytes
  legacy : isLegacy (readInto bytes fun _ => 0) = true

/-- The fields of the older header that place the boot area. -/
def LegacyFile.structSize (image : LegacyFile) : Nat := le32 (readInto image.bytes fun _ => 0) 8
def LegacyFile.gptSize (image : LegacyFile) : Nat := le32 (readInto image.bytes fun _ => 0) 0x11C
def LegacyFile.partitionCount (image : LegacyFile) : Nat :=
  le16 (readInto image.bytes fun _ => 0) OLD_PARTITION_COUNT

/-- The boot area is in the file. -/
def LegacyFile.Whole (image : LegacyFile) : Prop :=
  image.structSize + image.gptSize ≤ image.bytes.length

/-- The boot area: the bytes behind the header. -/
def LegacyFile.bootArea (image : LegacyFile) : Bytes :=
  Overlay.window image.bytes image.structSize image.gptSize

end Okr
