import Okr.File.Legacy
import Okr.Images.CheckAll

/-! The images on all volumes, and the buffer that takes their headers. -/

namespace Okr

/-- `sizeof(OKR_HEADER)`: the structure ends with one partition, the minimum size without any. -/
def OKR_HEADER_SIZE : Nat := OKR_HEADER_MIN_SIZE + PARTITION_RECORD

/-- Characters a file name has in a header, the last one zero. -/
def FILE_NAME_CHARS : Nat := 0x80 / 2

/-- The first bytes of a file, read as the header of an image. -/
structure FoundHeader where
  magic : Nat
  structSize : Nat
  bComplete : Bool
  image : ImageHeader := {}
deriving Repr, DecidableEq

/-- A file of a directory of images, with what the volume answers when it is opened and read. -/
structure BackupFile where
  name : Path
  opens : Bool
  /-- Nothing when the read fails or brings fewer bytes than a header. -/
  header : Option FoundHeader
deriving Repr, DecidableEq

/-- The header is one of this program. -/
def FoundHeader.isImage (header : FoundHeader) : Bool :=
  header.magic == OKR_IMAGE_MAGIC && header.structSize % SECTOR_SIZE == 0
    && decide (header.structSize ≤ OKR_HEADER_MAX_SIZE)
    && decide (OKR_HEADER_MIN_SIZE ≤ header.structSize)

/-- The headers found so far, and the slots of the buffer that were written for it, in order. -/
structure HeaderList where
  images : List ImageHeader := []
  written : List Nat := []
  imgErr : Int := 0
  imgCount : Nat := 0
  /-- The images whose files were deleted, by partition and name. -/
  deleted : List (Nat × Path) := []
deriving Repr, DecidableEq

/-- An image goes into the slot behind the last one. -/
def HeaderList.add (s : HeaderList) (partindex : Nat) (file : BackupFile) (image : ImageHeader) :
    HeaderList :=
  { s with
    images := s.images ++ [{ image with partitionIndex := partindex, fileName := file.name }]
    written := s.written ++ [s.images.length] }

/-- An incomplete image is counted; where the volume can be written, it is deleted and uncounted. -/
def HeaderList.reject (s : HeaderList) (partindex : Nat) (bReadOnly : Bool) (file : BackupFile) :
    HeaderList :=
  let s :=
    { s with
      imgErr := s.imgCount + 1
      imgCount := s.imgCount + 1 }
  if bReadOnly then s
  else
    { s with
      imgErr := s.imgErr - 1
      deleted := s.deleted ++ [(partindex, file.name)] }

/-- The header of a file that is looked at: its name is there and not too long, and it opens. -/
def BackupFile.checked (file : BackupFile) : Option FoundHeader :=
  if file.name ≠ [] ∧ file.name.length + 1 ≤ FILE_NAME_CHARS ∧ file.opens then
    match file.header with
    | some header => if header.isImage then some header else none
    | none => none
  else none

/--
The loop of `GetBackupFileList` over the names in the directories.

`count` is how many headers this volume has brought; the loop stops when they are `maxnum`.
-/
def listFiles (partindex : Nat) (bReadOnly : Bool) (maxnum : Int) :
    Int → List BackupFile → HeaderList → HeaderList
  | _, [], s => s
  | count, file :: rest, s =>
    match file.checked with
    | none => listFiles partindex bReadOnly maxnum count rest s
    | some header =>
      if header.bComplete then
        let s := s.add partindex file header.image
        if count + 1 ≥ maxnum then s
        else listFiles partindex bReadOnly maxnum (count + 1) rest s
      else listFiles partindex bReadOnly maxnum count rest (s.reject partindex bReadOnly file)

/-- `GetBackupFileList`: nothing is found on a volume that cannot be opened. -/
def getBackupFileList (volumes : ImageVolumes) (names : Nat → List BackupFile) (partindex : Nat)
    (maxnum : Int) (s : HeaderList) : HeaderList :=
  match volumes.mount partindex with
  | .none => s
  | .readonly => listFiles partindex true maxnum 0 (names partindex) s
  | .writable => listFiles partindex false maxnum 0 (names partindex) s

/-- A volume is looked at when its type is known and it has 4 GiB. -/
def holdsImages (p : PartitionInfo) : Bool :=
  (p.partitionType == FAT32 || p.partitionType == FAT32_E || p.partitionType == NTFS)
    && decide (4 ≤ p.totalSectors / (2048 * 1024))

/-- The loop of `GetAllBackupFiles` over the partitions, with the error count of all. -/
def listVolumes (machine : Machine) (volumes : ImageVolumes) (names : Nat → List BackupFile)
    (maxnum : Nat) : List Nat → Int → HeaderList → Int × HeaderList
  | [], all, s => (all, s)
  | i :: rest, all, s =>
    if holdsImages (machine.partitions i) then
      let s := getBackupFileList volumes names i ((maxnum : Int) - s.images.length)
        { s with imgErr := 0, imgCount := 0 }
      let all := all + s.imgErr
      if s.images.length ≥ maxnum then (all, s) else listVolumes machine volumes names maxnum rest all s
    else listVolumes machine volumes names maxnum rest all s

/-- Two headers change places, through a copy outside the buffer. -/
def HeaderList.swap (s : HeaderList) (i j : Nat) : HeaderList :=
  { s with
    images := (s.images.set i (s.images.getD j {})).set j (s.images.getD i {})
    written := s.written ++ [i, j] }

/-- One pass of the sort: the oldest of the headers from `i` on comes to `i`. -/
def sortPass (i : Nat) (s : HeaderList) : HeaderList :=
  (List.range' (i + 1) (s.images.length - (i + 1))).foldl (fun s j =>
    if (s.images.getD i {}).fileTime > (s.images.getD j {}).fileTime then s.swap i j else s) s

/-- What `GetAllBackupFiles` leaves of the list, and its counts. -/
structure GetAllResult where
  list : HeaderList
  imageFilesNumber : Nat
  imgErrCount : Int
deriving Repr, DecidableEq

/-- `GetAllBackupFiles`: find the headers, put the factory image first, and sort the rest. -/
def getAllBackupFiles (machine : Machine) (volumes : ImageVolumes) (names : Nat → List BackupFile)
    (g_dwTotalPartitions : Nat) : GetAllResult :=
  let maxnum := HEADLISTBUFFER / OKR_HEADER_MIN_SIZE
  let (all, s) := listVolumes machine volumes names maxnum (List.range g_dwTotalPartitions) 0 {}
  let num := s.images.length
  let factory := s.images.findIdx? (isFactoryImage machine)
  let s :=
    match factory with
    | none => s
    | some i => if i ≠ 0 then s.swap 0 i else s
  let s := (List.range num).foldl (fun s i => if i = 0 ∧ factory.isSome then s else sortPass i s) s
  { list := s
    imageFilesNumber := num
    imgErrCount := all }

/-- The headers written at a slot end inside the buffer that was allocated for them. -/
def SlotInside (slot : Nat) : Prop := (slot + 1) * OKR_HEADER_SIZE ≤ HEADLISTBUFFER

end Okr
