import Okr.NewDisk.Rewrite

/-! The list of the images that were found, and the check that removes the incomplete ones. -/

namespace Okr

/-- A path of a file, or a name in it. -/
abbrev Path := List Char

/-- How a volume can be opened: for writing, for reading only, or not at all. -/
inductive Mount where
  | writable
  | readonly
  | none
deriving Repr, DecidableEq

/-- The volumes of the machine: their directories and files, and the files that can be deleted. -/
structure ImageVolumes where
  mount : Nat → Mount
  dirs : Nat → Path → Bool
  files : Nat → Path → Bool
  deletable : Nat → Path → Bool

/-- What the volumes and the program agree on: the partition table and the two directories. -/
structure Machine where
  partitions : Nat → PartitionInfo
  backupDir : Path
  backupDirCustomer : Path

/-- The header of an image that was found, as far as the list of the images uses it. -/
structure ImageHeader where
  fileTime : Nat := 0
  fileNumber : Nat := 0
  fileName : Path := []
  bFactoryBackup : Bool := false
  partitionIndex : Nat := 0
deriving Repr, DecidableEq

/-- The most files of an image that are deleted. -/
def MAX_DELE_FILE_NUM : Nat := 0x20

/-- The place for the headers of the images, and the size of one without its partitions. -/
def HEADLISTBUFFER : Nat := 1024 * 1024
def OKR_HEADER_MIN_SIZE : Nat := 0x1E20

/-- `%s\%s`, and `%s\%s.%d` for the later files of an image. -/
def joinPath (dir name : Path) (index : Nat) : Path :=
  if index = 0 then dir ++ '\\' :: name else dir ++ '\\' :: name ++ '.' :: Nat.toDigits 10 index

/-- The partition has the label and the type of the vendor's own recovery partition. -/
def isLenovoLabel (p : PartitionInfo) : Bool :=
  p.label.take 11 == lenovoPart && p.typeGuid == windowRecoveryTypeGuid

/-- `IsLenovoPart`. -/
def isLenovoPart (p : PartitionInfo) : Bool := isLenovoLabel p && p.partitionType == FAT32

/-- `GetBackupFileFullPath`: what it leaves in the buffer for the path. -/
def getBackupFileFullPath (machine : Machine) (volumes : ImageVolumes) (partindex : Nat) (name : Path)
    (index : Nat) : Path :=
  if isLenovoPart (machine.partitions partindex) then joinPath machine.backupDir name index
  else
    let inCustomer := volumes.dirs partindex machine.backupDirCustomer
    let customer := if inCustomer then joinPath machine.backupDirCustomer name index else []
    if inCustomer ∧ volumes.files partindex customer then customer
    else if volumes.dirs partindex machine.backupDir then joinPath machine.backupDir name index
    else customer

/-- `FileDelete`: the file is gone, if deleting works. -/
def fileDelete (volumes : ImageVolumes) (partindex : Nat) (path : Path) : ImageVolumes :=
  { volumes with
    files := fun p q =>
      if p = partindex ∧ q = path ∧ volumes.deletable p q then false else volumes.files p q }

/-- The variables of `CheckAllBackupFiles`. -/
structure CheckState where
  volumes : ImageVolumes
  images : List ImageHeader
  imgErrCount : Nat := 0
  imgErrDel : Nat := 0

/-- `IsExistFileInDir_NTFS_FAT` on the path of a file of an image. -/
def hasFile (machine : Machine) (volumes : ImageVolumes) (image : ImageHeader) (j : Nat) : Bool :=
  volumes.files image.partitionIndex
    (getBackupFileFullPath machine volumes image.partitionIndex image.fileName j)

/-- How many of the files of an image are there. -/
def countFiles (machine : Machine) (volumes : ImageVolumes) (image : ImageHeader) : Nat :=
  (List.range image.fileNumber).countP (hasFile machine volumes image)

/-- The files of an image are deleted, the later ones first. -/
def deleteFiles (machine : Machine) (volumes : ImageVolumes) (image : ImageHeader) : ImageVolumes :=
  (List.range' 1 MAX_DELE_FILE_NUM ++ [0]).foldl (fun volumes k =>
    fileDelete volumes image.partitionIndex
      (getBackupFileFullPath machine volumes image.partitionIndex image.fileName k)) volumes

/-- One image of the first loop: an incomplete one is cleared, and counted. -/
def checkImage (machine : Machine) (s : CheckState) (i : Nat) : CheckState :=
  let image := s.images.getD i {}
  let mount := s.volumes.mount image.partitionIndex
  if mount = .none then s
  else if countFiles machine s.volumes image = image.fileNumber then s
  else
    -- A factory image that is incomplete is deleted, and counted a second time.
    let s :=
      if mount = .writable ∧ image.bFactoryBackup then
        { s with
          volumes := deleteFiles machine s.volumes image
          imgErrDel := s.imgErrDel + 1 }
      else s
    { s with
      images := s.images.set i {}
      imgErrCount := s.imgErrCount + 1 }

/-- The image the list is to begin with. -/
def isFactoryImage (machine : Machine) (image : ImageHeader) : Bool :=
  image.bFactoryBackup && isLenovoLabel (machine.partitions image.partitionIndex)

/-- The factory image changes places with the first image. -/
def swapFirst (images : List ImageHeader) (i : Nat) : List ImageHeader :=
  if i = 0 then images else (images.set 0 (images.getD i {})).set i (images.getD 0 {})

/-- One gap of the list takes the next image behind it. -/
def closeGap (images : List ImageHeader) (i : Nat) : List ImageHeader :=
  if (images.getD i {}).fileTime = 0 then
    match (List.range' (i + 1) (images.length - (i + 1))).find? fun j =>
        (images.getD j {}).fileTime != 0 with
    | some j => (images.set i (images.getD j {})).set j {}
    | none => images
  else images

/--
What `CheckAllBackupFiles` leaves, and returns.

The length of the list is what the program keeps of it in `ImageFilesNumber`.
-/
structure CheckAllResult where
  images : List ImageHeader
  imageFilesNumber : Nat
  volumes : ImageVolumes
  returned : Int

/-- `CheckAllBackupFiles`. -/
def checkAllBackupFiles (machine : Machine) (volumes : ImageVolumes) (images : List ImageHeader) :
    CheckAllResult :=
  let num := images.length
  let s := (List.range num).foldl (checkImage machine) { volumes := volumes, images := images }
  let factory := s.images.findIdx? (isFactoryImage machine)
  let swapped :=
    match factory with
    | some i => swapFirst s.images i
    | none => s.images
  let closed := (List.range num).foldl (fun images i =>
    if i = 0 ∧ factory.isSome then images else closeGap images i) swapped
  { images := closed
    imageFilesNumber := sub32 (sub32 num s.imgErrDel) s.imgErrCount
    volumes := s.volumes
    returned := s.imgErrCount - s.imgErrDel }

end Okr
