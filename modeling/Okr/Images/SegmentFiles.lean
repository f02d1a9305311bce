import Okr.File.Delete
import Okr.Images.CheckAll

/-! The paths of the files of an image, and the loop that deletes the files of an unfinished one. -/

namespace Okr

/-- One of the two directories of the images: a path from the root. -/
structure BackupDir where
  chars : List UInt16
  rooted : chars.head? = some PATH_SEP
  ended : 0 ∉ chars

/-- The name of a file as a directory lists it: a part of a path. -/
structure ListedName where
  chars : List UInt16
  ended : 0 ∉ chars
  plain : PATH_SEP ∉ chars

/-- A buffer for a path: it has room for the root, and the program has none with more characters. -/
structure PathBuffer where
  bytes : Nat
  holds : 4 ≤ bytes
  short : bytes ≤ 512

/-- The buffers `fullpath`, of which the program gives half, and `name`. -/
def fullpathBuffer : PathBuffer := ⟨256, Nat.le_of_ble_eq_true rfl, Nat.le_of_ble_eq_true rfl⟩
def nameBuffer : PathBuffer := ⟨100, Nat.le_of_ble_eq_true rfl, Nat.le_of_ble_eq_true rfl⟩

/-- The directories of the images. -/
structure BackupDirs where
  dir : BackupDir
  customer : BackupDir

/--
What `GetBackupFileFullPath` sees of the volume of an image.

The image was listed from one of the directories, so one of them is there.
-/
structure ImageVolume where
  isLenovoPart : Bool
  hasCustomer : Bool
  hasDir : Bool
  listed : isLenovoPart || hasCustomer || hasDir

/-- The decimal digits that `%d` prints of a 32-bit variable. -/
def printInt (n : Nat) : List Char :=
  if n < 2 ^ 31 then Nat.toDigits 10 n else '-' :: Nat.toDigits 10 (2 ^ 32 - n)

/-- What stands behind the name in `%s\%s` and in `%s\%s.%d`. -/
def segmentSuffix (index : Nat) : List UInt16 :=
  if index = 0 then [] else ('.' :: printInt index).map fun c => UInt16.ofNat c.toNat

/-- What is printed behind the name is a point, a sign and digits. -/
theorem printed_range (index : Nat) :
    ∀ c ∈ '.' :: printInt index, 45 ≤ c.toNat ∧ c.toNat ≤ 57 := by
  have digits : ∀ n, ∀ c ∈ Nat.toDigits 10 n, 45 ≤ c.toNat ∧ c.toNat ≤ 57 := by
    intro n c member
    have isDigit := Nat.isDigit_of_mem_toDigits (by decide) (by decide) member
    rw [Char.isDigit, Bool.and_eq_true, decide_eq_true_iff, decide_eq_true_iff] at isDigit
    have low : 48 ≤ c.toNat := isDigit.1
    exact ⟨by omega, isDigit.2⟩
  intro c member
  rcases List.mem_cons.mp member with rfl | number
  · decide
  · unfold printInt at number
    split_ifs at number with positive
    · exact digits index c number
    · rcases List.mem_cons.mp number with rfl | magnitude
      · decide
      · exact digits _ c magnitude

/-- A printed character is kept by 16 bits. -/
theorem printed_toNat {index : Nat} {c : Char} (member : c ∈ '.' :: printInt index) :
    (UInt16.ofNat c.toNat).toNat = c.toNat :=
  UInt16.toNat_ofNat_of_lt' (Nat.lt_of_le_of_lt (printed_range index c member).2 (by decide))

/-- The characters behind the name are a point, a sign and digits. -/
theorem segmentSuffix_range (index : Nat) :
    ∀ c ∈ segmentSuffix index, 45 ≤ c.toNat ∧ c.toNat ≤ 57 := by
  intro c member
  unfold segmentSuffix at member
  split_ifs at member with first
  · cases member
  · obtain ⟨char, inside, rfl⟩ := List.mem_map.mp member
    rw [printed_toNat inside]
    exact printed_range index char inside

/-- The whole path of a segment. -/
def segmentChars (dir : BackupDir) (name : ListedName) (index : Nat) : List UInt16 :=
  dir.chars ++ PATH_SEP :: (name.chars ++ segmentSuffix index)

/-- No zero stands in the whole path. -/
theorem segmentChars_ended (dir : BackupDir) (name : ListedName) (index : Nat) :
    0 ∉ segmentChars dir name index := by
  unfold segmentChars
  rw [List.mem_append, List.mem_cons, List.mem_append]
  rintro (inDir | sep | inName | inSuffix)
  · exact dir.ended inDir
  · exact absurd sep (by decide)
  · exact name.ended inName
  · exact absurd (segmentSuffix_range index 0 inSuffix).1 (by decide)

/-- `SPrint` of the path of a segment: it is cut where the buffer ends. -/
def segmentPath (buffer : PathBuffer) (dir : BackupDir) (name : ListedName) (index : Nat) : FilePath where
  chars := (segmentChars dir name index).take (buffer.bytes / 2 - 1)
  rooted := by
    have holds := buffer.holds
    rw [List.head?_take, if_neg (by omega)]
    unfold segmentChars
    rw [List.head?_append, dir.rooted]
    rfl
  ended := fun member => segmentChars_ended dir name index (List.mem_of_mem_take member)
  short := by
    have short := buffer.short
    exact Nat.lt_of_le_of_lt (List.length_take_le _ _) (by omega)

/-- `GetBackupFileFullPath`: the path it leaves in the buffer. -/
def fullPathOf (dirs : BackupDirs) (v : ImageVolume) (isFileExistEx : FilePath → Bool)
    (buffer : PathBuffer) (fileName : ListedName) (iFileNameIndex : Nat) : FilePath :=
  if v.isLenovoPart then segmentPath buffer dirs.dir fileName iFileNameIndex
  else
    let customer := segmentPath buffer dirs.customer fileName iFileNameIndex
    if v.hasCustomer && isFileExistEx customer then customer
    else if v.hasDir then segmentPath buffer dirs.dir fileName iFileNameIndex
    else customer

/-- An unfinished image that was found on a volume, and what the volume answers while it is deleted. -/
structure UnfinishedImage (File : Type) where
  volume : FileVolume File
  dirs : BackupDirs
  place : ImageVolume
  fileName : ListedName
  isFileExistEx : Nat → FilePath → Bool
  sizeRead : Nat → Bool
  answers : Nat → DeleteAnswers

/-- The variables of the loop: the files of the volume, and its free sectors. -/
structure DeleteState (File : Type) where
  files : FileTable File
  freeSectors : Nat

section
variable {File : Type} [DecidableEq File]

/-- The path that is tried for a segment. -/
def UnfinishedImage.path (g : UnfinishedImage File) (i : Nat) : FilePath :=
  fullPathOf g.dirs g.place (g.isFileExistEx i) fullpathBuffer g.fileName i

/-- The file that is tried for a segment. -/
def UnfinishedImage.file (g : UnfinishedImage File) (i : Nat) : File := g.volume.file (g.path i)

/-- One segment of the loop: its size, its deletion, and the sectors that it frees. -/
def UnfinishedImage.deletePass (g : UnfinishedImage File) (s : DeleteState File) (i : Nat) :
    DeleteState File :=
  let filesize := getFileSizeByName s.files (g.file i) (g.sizeRead i)
  let deleted := g.volume.fileDelete (g.answers i) (g.path i) s.files
  { files := deleted.2
    freeSectors := if deleted.1 then u64 (s.freeSectors + filesize / SECTOR_SIZE) else s.freeSectors }

/-- The segments in the order of the loop: the later ones, and the first file last. -/
def segmentOrder : List Nat := List.range' 1 MAX_DELE_FILE_NUM ++ [0]

/-- The deletion of an unfinished image in `GetBackupFileList`. -/
def UnfinishedImage.deleteAll (g : UnfinishedImage File) (s : DeleteState File) : DeleteState File :=
  segmentOrder.foldl g.deletePass s

end

end Okr
