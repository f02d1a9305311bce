import Okr.Images.FindAll
import Okr.Images.SegmentFiles

/-! The deletion of the image of the previous automatic backup. -/

namespace Okr

/-- The location of the last automatic backup, as its file has it. -/
structure AutoBackupLocation where
  disksn : Bytes
  bootBegin : Nat
  time : Nat

/-- An image of the list, as far as its deletion uses it. -/
structure ListedImage where
  time : Nat
  partitionIndex : Nat
  fileName : ListedName
  fileNumber : UInt32
  fileSize : Nat

/-- A volume that knows its files by their paths; on NTFS, by the bytes of them. -/
def pathVolume (ntfs : Bool) : FileVolume (List UInt16) where
  ifntfs := ntfs
  unicode := id
  ascii := List.map UInt8.toUInt16

/-- What a volume takes a character of a path for. -/
def pathChar (ntfs : Bool) (c : UInt16) : UInt16 := if ntfs then (lowByte c).toUInt16 else c

/-- The files of all volumes, and the free sectors the partition table has for them. -/
structure VolumesState where
  files : Nat → FileTable (List UInt16)
  freeSectors : Nat → Nat

/-- The machine on which the image of the previous automatic backup is deleted. -/
structure AutoBackupMachine where
  partitions : Nat → PartitionInfo
  disklist : Nat → Bytes
  dirs : BackupDirs
  places : Nat → ImageVolume
  ifntfs : Nat → Bool
  /-- What `FileSystemInit` answers for writing. -/
  fileSystemInit : Nat → Bool
  answers : Nat → DeleteAnswers
  location : Option AutoBackupLocation
  images : List ListedImage
  /-- `GetBackupFileFullPath` asks `IsLenovoPart` for the partition. -/
  lenovo : ∀ p, (places p).isLenovoPart = isLenovoPart (partitions p)

/-- The partition of an image. -/
def ListedImage.partindex (image : ListedImage) : Nat := image.partitionIndex % 2 ^ 16

/-- How many files of an image are deleted. -/
def ListedImage.count (image : ListedImage) : Nat :=
  if image.fileNumber = 0 then 1 else image.fileNumber.toNat

/-- The image has the time of the record, and its partition the place. -/
def AutoBackupMachine.isRecorded (g : AutoBackupMachine) (location : AutoBackupLocation)
    (image : ListedImage) : Bool :=
  let partition := g.partitions image.partindex
  image.time == location.time
    && (g.disklist partition.diskNumber == location.disksn && partition.bootBegin == location.bootBegin)

/-- The path of a file of an image, in the buffer it is to be left in. -/
def AutoBackupMachine.path (g : AutoBackupMachine) (buffer : PathBuffer) (image : ListedImage)
    (files : FileTable (List UInt16)) (i : Nat) : FilePath :=
  fullPathOf g.dirs (g.places image.partindex)
    (fun path => (files ((pathVolume (g.ifntfs image.partindex)).file path)).isSome)
    buffer image.fileName i

/-- One file of the image: `bDeleted` is what its deletion alone returns. -/
def AutoBackupMachine.deleteFile (g : AutoBackupMachine) (image : ListedImage)
    (s : FileTable (List UInt16) × Bool) (i : Nat) : FileTable (List UInt16) × Bool :=
  let deleted := (pathVolume (g.ifntfs image.partindex)).fileDelete (g.answers i)
    (g.path nameBuffer image s.1 i) s.1
  (deleted.2, deleted.1)

/-- The files of the image, and `bDeleted`. -/
def AutoBackupMachine.deleteFiles (g : AutoBackupMachine) (image : ListedImage)
    (files : FileTable (List UInt16)) : FileTable (List UInt16) × Bool :=
  (List.range image.count).foldl (g.deleteFile image) (files, false)

/-- The image is deleted, and its partition has the sectors of it again. -/
def AutoBackupMachine.deleteImage (g : AutoBackupMachine) (image : ListedImage) (s : VolumesState) :
    VolumesState :=
  let p := image.partindex
  let deleted := g.deleteFiles image (s.files p)
  { files := Function.update s.files p deleted.1
    freeSectors :=
      if deleted.2 then
        Function.update s.freeSectors p (u64 (s.freeSectors p + image.fileSize / SECTOR_SIZE))
      else s.freeSectors }

/-- The loop over the images. -/
def AutoBackupMachine.searchImages (g : AutoBackupMachine) (location : AutoBackupLocation)
    (s : VolumesState) : List ListedImage → VolumesState
  | [] => s
  | image :: rest =>
    if g.isRecorded location image then
      -- A backup on the vendor's own partition is a factory backup.
      if isLenovoLabel (g.partitions image.partindex) then s
      else if g.fileSystemInit image.partindex then g.deleteImage image s
      else s
    else g.searchImages location s rest

/-- `DeletePreAutoBackupFile`, once the images are listed and checked. -/
def AutoBackupMachine.deletePreAutoBackupFile (g : AutoBackupMachine) (s : VolumesState) :
    VolumesState :=
  match g.location with
  | some location => g.searchImages location s g.images
  | none => s

/-- The file that a segment of an image is, as the list of the images finds it. -/
def AutoBackupMachine.segment (g : AutoBackupMachine) (s : VolumesState) (image : ListedImage) (i : Nat) :
    List UInt16 :=
  (pathVolume (g.ifntfs image.partindex)).file (g.path fullpathBuffer image (s.files image.partindex) i)

/--
The machine when the loop over the images begins.

The images were just checked, so their files are there.
The names were listed from a directory: they fit the header, and have no separator and no zero.
The two directories are constants of the program: they leave room in the buffers of the paths.
-/
structure PreAutoBackup where
  machine : AutoBackupMachine
  state : VolumesState
  complete : ∀ image ∈ machine.images, ∀ i < image.count,
    (state.files image.partindex (machine.segment state image i)).isSome = true
  fits : ∀ image ∈ machine.images, image.fileName.chars.length < FILE_NAME_CHARS
  plain : ∀ image ∈ machine.images, ∀ c ∈ image.fileName.chars,
    pathChar (machine.ifntfs image.partindex) c ≠ 0
      ∧ pathChar (machine.ifntfs image.partindex) c ≠ PATH_SEP
  ascii : ∀ dir ∈ [machine.dirs.dir, machine.dirs.customer], ∀ c ∈ dir.chars, lowByte c ≠ 0
  room : ∀ dir ∈ [machine.dirs.dir, machine.dirs.customer], dir.chars.length ≤ 48

end Okr
