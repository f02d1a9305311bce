import Mathlib.Data.List.TakeWhile
import Okr.Images.PreAutoBackup
import Okr.Proofs.Delete

/-! When the deletion of the previous automatic backup deletes that image, and nothing else. -/

namespace Okr

/-! ### The files that the paths of the segments name -/

/-- The part behind the last separator decides a path. -/
theorem lastPart_inj {α : Type} {sep : α} {x y x' y' : List α} (same : x ++ sep :: y = x' ++ sep :: y')
    (plain : sep ∉ y) (plain' : sep ∉ y') : y = y' := by
  rcases List.append_eq_append_iff.mp same with ⟨c, -, tail⟩ | ⟨c, -, tail⟩
  · cases c with
    | nil => exact (List.cons.inj tail).2
    | cons d c =>
      refine absurd ?_ plain
      rw [(List.cons.inj tail).2]
      exact List.mem_append_right c List.mem_cons_self
  · cases c with
    | nil => exact (List.cons.inj tail).2.symm
    | cons d c =>
      refine absurd ?_ plain'
      rw [(List.cons.inj tail).2]
      exact List.mem_append_right c List.mem_cons_self

/-- A path that is another one cut behind its directory has the beginning of its last part. -/
theorem suffix_prefix {α : Type} {sep : α} {dir dir' name s t : List α} {room : Nat}
    (same : dir ++ sep :: (name ++ s) = (dir' ++ sep :: (name ++ t)).take room)
    (below : dir'.length < room) (plain : sep ∉ name ++ s) (plain' : sep ∉ name ++ t) : s <+: t := by
  have cut : (dir' ++ sep :: (name ++ t)).take room
      = dir' ++ sep :: (name ++ t).take (room - dir'.length - 1) := by
    rw [List.take_append, List.take_of_length_le (Nat.le_of_lt below)]
    obtain ⟨rest, more⟩ := Nat.exists_eq_add_of_lt (Nat.sub_pos_of_lt below)
    rw [show room - dir'.length = rest + 1 from by omega, List.take_succ_cons, Nat.add_sub_cancel]
  rw [cut] at same
  have last := lastPart_inj same plain fun member => plain' (List.mem_of_mem_take member)
  -- The name is the same in both, and what is behind it is cut from the other.
  have whole : name ++ s <+: name ++ t := by
    rw [last]
    exact List.take_prefix _ _
  exact (List.prefix_append_right_inj name).mp whole

/-- A number of 32 bits is read off its digits. -/
theorem printInt_inj {m n : Nat} (low : m < 2 ^ 32) (high : n < 2 ^ 32)
    (same : printInt m = printInt n) : m = n := by
  have digits : ∀ {k l : Nat}, Nat.toDigits 10 k = Nat.toDigits 10 l → k = l := by
    intro k l equal
    rw [← @Nat.ofDigitChars_ten_toDigits k, equal, Nat.ofDigitChars_ten_toDigits]
  have sign : ∀ {k l : Nat}, Nat.toDigits 10 k ≠ '-' :: Nat.toDigits 10 l := by
    intro k l equal
    have member : '-' ∈ Nat.toDigits 10 k := equal ▸ List.mem_cons_self
    exact absurd (Nat.isDigit_of_mem_toDigits (by decide) (by decide) member) (by decide)
  unfold printInt at same
  split_ifs at same with first second second
  · exact digits same
  · exact absurd same sign
  · exact absurd same.symm sign
  · have negative := digits (List.cons.inj same).2
    omega

/-- The segments of an image have different ends. -/
theorem segmentSuffix_inj {i j : Nat} (low : i < 2 ^ 32) (high : j < 2 ^ 32)
    (same : segmentSuffix i = segmentSuffix j) : i = j := by
  have char : ∀ {m n : Nat}, (('.' :: printInt m).map fun c => UInt16.ofNat c.toNat)
      = ('.' :: printInt n).map (fun c => UInt16.ofNat c.toNat) → printInt m = printInt n := by
    intro m n equal
    -- Every character can be read off its 16 bits again.
    have back : ∀ k, (('.' :: printInt k).map fun c => UInt16.ofNat c.toNat).map
        (fun c => Char.ofNat c.toNat) = '.' :: printInt k := by
      intro k
      rw [List.map_map]
      refine (List.map_congr_left fun c member => ?_).trans (List.map_id _)
      rw [Function.comp_apply, printed_toNat member, Char.ofNat_toNat, id]
    have read := congrArg (List.map fun c => Char.ofNat c.toNat) equal
    rw [back, back] at read
    exact (List.cons.inj read).2
  unfold segmentSuffix at same
  split_ifs at same with first second second
  · rw [first, second]
  · exact absurd same (by simp)
  · exact absurd same (by simp)
  · exact printInt_inj low high (char same)

/-- A character of one byte is taken for itself. -/
theorem pathChar_eq {c : UInt16} (ntfs : Bool) (low : c.toNat < 256) : pathChar ntfs c = c := by
  unfold pathChar lowByte
  cases ntfs with
  | false => rfl
  | true =>
    rw [if_pos rfl]
    apply UInt16.toNat_inj.mp
    rw [UInt8.toNat_toUInt16, UInt16.toNat_toUInt8, Nat.mod_eq_of_lt low]

/-- Where no byte of a path is zero, the volume takes it character by character. -/
theorem pathVolume_file {ntfs : Bool} {path : FilePath}
    (low : ntfs = true → ∀ c ∈ path.chars, lowByte c ≠ 0) :
    (pathVolume ntfs).file path = path.chars.map (pathChar ntfs) := by
  cases ntfs with
  | false => exact (List.map_id path.chars).symm
  | true =>
    have all : asciiFilename path.chars = path.chars.map lowByte := by
      refine List.takeWhile_eq_self_iff.mpr fun b member => ?_
      obtain ⟨c, inside, rfl⟩ := List.mem_map.mp member
      exact bne_iff_ne.mpr (low rfl c inside)
    show (asciiFilename path.chars).map UInt8.toUInt16 = _
    rw [all, List.map_map]
    rfl

/-- The file that the path of a segment names. -/
theorem segmentPath_file {ntfs : Bool} {dir : BackupDir} {name : ListedName}
    (ascii : ∀ c ∈ dir.chars, lowByte c ≠ 0) (plain : ∀ c ∈ name.chars, pathChar ntfs c ≠ 0)
    (buffer : PathBuffer) (i : Nat) :
    (pathVolume ntfs).file (segmentPath buffer dir name i)
      = (dir.chars.map (pathChar ntfs) ++ PATH_SEP :: (name.chars.map (pathChar ntfs)
          ++ segmentSuffix i)).take (buffer.bytes / 2 - 1) := by
  have suffix : (segmentSuffix i).map (pathChar ntfs) = segmentSuffix i :=
    (List.map_congr_left fun c member => pathChar_eq ntfs
      (Nat.lt_of_le_of_lt (segmentSuffix_range i c member).2 (by decide))).trans (List.map_id _)
  rw [pathVolume_file]
  · show ((segmentChars dir name i).take _).map (pathChar ntfs) = _
    rw [List.map_take, segmentChars, List.map_append, List.map_cons, List.map_append, suffix,
      pathChar_eq ntfs (by decide)]
  · -- On NTFS no character may turn into a zero: of the directory, of the name or of the number.
    rintro rfl c member
    have whole : c ∈ segmentChars dir name i := List.mem_of_mem_take member
    unfold segmentChars at whole
    rcases List.mem_append.mp whole with inDir | behind
    · exact ascii c inDir
    rcases List.mem_cons.mp behind with rfl | last
    · decide
    rcases List.mem_append.mp last with inName | inSuffix
    · intro zero
      refine plain c inName ?_
      rw [pathChar, if_pos rfl, zero]
      rfl
    · have range := segmentSuffix_range i c inSuffix
      intro zero
      have value := congrArg UInt8.toNat zero
      rw [lowByte, UInt16.toNat_toUInt8, Nat.mod_eq_of_lt (by omega)] at value
      exact absurd range.1 (by rw [value]; decide)

/-! ### What is to be deleted, and when it is -/

/-- The image that the record names, and that is no factory backup. -/
def PreAutoBackup.previous (c : PreAutoBackup) : Option ListedImage :=
  c.machine.location.bind fun location => c.machine.images.find? fun image =>
    c.machine.isRecorded location image && !isLenovoLabel (c.machine.partitions image.partindex)

/-- The first image that the record names. -/
def PreAutoBackup.firstRecorded (c : PreAutoBackup) : Option ListedImage :=
  c.machine.location.bind fun location => c.machine.images.find? (c.machine.isRecorded location)

/-- The files and the free sectors after the deletion. -/
def PreAutoBackup.after (c : PreAutoBackup) : VolumesState := c.machine.deletePreAutoBackupFile c.state

/-- A segment of an image, as it was found. -/
def PreAutoBackup.segment (c : PreAutoBackup) (image : ListedImage) (i : Nat) : List UInt16 :=
  c.machine.segment c.state image i

/--
Only the image of the previous automatic backup is deleted.

All its segments are gone, and every other file of every volume is as before.
Its sectors are counted as free only if all its segments are gone.
-/
structure PreAutoBackup.DeletesPrevious (c : PreAutoBackup) : Prop where
  others : ∀ p f, (∀ image ∈ c.previous, p = image.partindex → ∀ i < image.count, f ≠ c.segment image i) →
    c.after.files p f = c.state.files p f
  gone : ∀ image ∈ c.previous, ∀ i < image.count,
    c.after.files image.partindex (c.segment image i) = none
  freeSectors : ∀ p, c.after.freeSectors p = c.state.freeSectors p
    ∨ ∃ image ∈ c.previous, p = image.partindex
      ∧ (∀ i < image.count, c.after.files p (c.segment image i) = none)
      ∧ c.after.freeSectors p = u64 (c.state.freeSectors p + image.fileSize / SECTOR_SIZE)

/-- The files of the volume of an image without its first segments. -/
def PreAutoBackup.left (c : PreAutoBackup) (image : ListedImage) (n : Nat) : FileTable (List UInt16) :=
  fun f => if f ∈ (List.range n).map (c.segment image) then none else c.state.files image.partindex f

/--
The deletion of an image reaches all its segments.

No factory backup that the record names stands before it, and its volume can be written.
With the segments before it gone, the path of each has room in the buffer, and its deletion goes well.
-/
structure PreAutoBackup.Reaches (c : PreAutoBackup) (image : ListedImage) : Prop where
  first : c.firstRecorded = some image
  opens : c.machine.fileSystemInit image.partindex = true
  path : ∀ i < image.count, (pathVolume (c.machine.ifntfs image.partindex)).file
    (c.machine.path nameBuffer image (c.left image i) i) = c.segment image i
  deletes : ∀ i < image.count, (c.machine.answers i).Deletes (c.machine.ifntfs image.partindex)

/-- The loop takes the first image that the record names. -/
theorem searchImages_eq (g : AutoBackupMachine) (location : AutoBackupLocation) (s : VolumesState)
    (images : List ListedImage) :
    g.searchImages location s images = match images.find? (g.isRecorded location) with
      | some image =>
        if isLenovoLabel (g.partitions image.partindex) then s
        else if g.fileSystemInit image.partindex then g.deleteImage image s
        else s
      | none => s := by
  induction images with
  | nil => rfl
  | cons image rest ih =>
    rw [AutoBackupMachine.searchImages, List.find?_cons]
    cases g.isRecorded location image with
    | true => rfl
    | false => exact ih

/-- What is deleted: the first image that the record names, if it is no factory backup. -/
theorem after_eq (c : PreAutoBackup) :
    c.after = match c.firstRecorded with
      | some image =>
        if isLenovoLabel (c.machine.partitions image.partindex) then c.state
        else if c.machine.fileSystemInit image.partindex then c.machine.deleteImage image c.state
        else c.state
      | none => c.state := by
  unfold PreAutoBackup.after AutoBackupMachine.deletePreAutoBackupFile PreAutoBackup.firstRecorded
  cases c.machine.location with
  | none => rfl
  | some location => exact searchImages_eq c.machine location c.state c.machine.images

/-- The image to be deleted is one of the list. -/
theorem PreAutoBackup.mem_images {c : PreAutoBackup} {image : ListedImage}
    (previous : c.previous = some image) : image ∈ c.machine.images := by
  unfold PreAutoBackup.previous at previous
  obtain ⟨location, -, found⟩ := Option.bind_eq_some_iff.mp previous
  exact List.mem_of_find?_eq_some found

/-- Where no factory backup is the first, the first image is the one to be deleted. -/
theorem previous_of_first {c : PreAutoBackup} {image : ListedImage}
    (first : c.firstRecorded = some image)
    (noFactory : isLenovoLabel (c.machine.partitions image.partindex) = false) :
    c.previous = some image := by
  unfold PreAutoBackup.firstRecorded at first
  obtain ⟨location, recorded, found⟩ := Option.bind_eq_some_iff.mp first
  unfold PreAutoBackup.previous
  rw [recorded, Option.bind_some]
  obtain ⟨named, before, behind, split, earlier⟩ := List.find?_eq_some_iff_append.mp found
  refine List.find?_eq_some_iff_append.mpr ⟨by rw [named, noFactory]; rfl, before, behind, split, ?_⟩
  intro other member
  have unnamed := earlier other member
  rw [Bool.not_eq_true'] at unnamed
  rw [unnamed]
  rfl

/-- The image to be deleted is no factory backup. -/
theorem previous_noFactory {c : PreAutoBackup} {image : ListedImage}
    (previous : c.previous = some image) :
    isLenovoLabel (c.machine.partitions image.partindex) = false := by
  unfold PreAutoBackup.previous at previous
  obtain ⟨location, -, found⟩ := Option.bind_eq_some_iff.mp previous
  have named := List.find?_some found
  rw [Bool.and_eq_true, Bool.not_eq_true'] at named
  exact named.2

/-! ### The segments are different files -/

/-- A path is one of the two directories' paths. -/
theorem fullPathOf_eq (dirs : BackupDirs) (v : ImageVolume) (isFileExistEx : FilePath → Bool)
    (buffer : PathBuffer) (name : ListedName) (i : Nat) :
    ∃ dir ∈ [dirs.dir, dirs.customer],
      fullPathOf dirs v isFileExistEx buffer name i = segmentPath buffer dir name i := by
  unfold fullPathOf
  dsimp only
  split_ifs
  · exact ⟨dirs.dir, List.mem_cons_self, rfl⟩
  · exact ⟨dirs.customer, by simp, rfl⟩
  · exact ⟨dirs.dir, List.mem_cons_self, rfl⟩
  · exact ⟨dirs.customer, by simp, rfl⟩

/-- There are at most twelve characters behind the name. -/
theorem segmentSuffix_length {i : Nat} (fits : i < 2 ^ 32) : (segmentSuffix i).length ≤ 12 := by
  have digits : ∀ {n}, n < 2 ^ 32 → (Nat.toDigits 10 n).length ≤ 10 := fun below =>
    (Nat.length_toDigits_le_iff (by decide) (by decide)).mpr (Nat.lt_trans below (by decide))
  unfold segmentSuffix printInt
  split_ifs with first positive
  · exact Nat.zero_le _
  · have short := digits fits
    rw [List.length_map, List.length_cons]
    omega
  · have short := digits (n := 2 ^ 32 - i) (by omega)
    rw [List.length_map, List.length_cons, List.length_cons]
    omega

/-- The numbers of the segments have 32 bits. -/
theorem ListedImage.count_le (image : ListedImage) : image.count ≤ 2 ^ 32 := by
  unfold ListedImage.count
  split_ifs
  · decide
  · exact Nat.le_of_lt image.fileNumber.toNat_lt

/-- There is a first segment. -/
theorem ListedImage.count_pos (image : ListedImage) : 0 < image.count := by
  unfold ListedImage.count
  split_ifs with none
  · exact Nat.one_pos
  · exact Nat.pos_of_ne_zero fun zero => none (UInt32.toNat_inj.mp zero)

/-- A path that names a segment has the beginning of that segment's end. -/
theorem segment_prefix {c : PreAutoBackup} {image : ListedImage} (member : image ∈ c.machine.images)
    {i j : Nat} (below : i < image.count) {buffer : PathBuffer} (roomy : 48 < buffer.bytes / 2 - 1)
    {files : FileTable (List UInt16)}
    (same : (pathVolume (c.machine.ifntfs image.partindex)).file (c.machine.path buffer image files j)
      = c.segment image i) :
    segmentSuffix i <+: segmentSuffix j := by
  have fits : image.fileName.chars.length < 64 := c.fits image member
  have plain := c.plain image member
  have noZero := fun ch inside => (plain ch inside).1
  unfold PreAutoBackup.segment AutoBackupMachine.segment AutoBackupMachine.path at same
  obtain ⟨dir, inDirs, path⟩ := fullPathOf_eq c.machine.dirs (c.machine.places image.partindex)
    (fun path => (c.state.files image.partindex
      ((pathVolume (c.machine.ifntfs image.partindex)).file path)).isSome) fullpathBuffer image.fileName i
  obtain ⟨dir', inDirs', path'⟩ := fullPathOf_eq c.machine.dirs (c.machine.places image.partindex)
    (fun path => (files ((pathVolume (c.machine.ifntfs image.partindex)).file path)).isSome)
    buffer image.fileName j
  rw [path, path', segmentPath_file (c.ascii dir inDirs) noZero,
    segmentPath_file (c.ascii dir' inDirs') noZero] at same
  -- The path the segment was found under is not cut.
  have short := c.room dir inDirs
  have suffix := segmentSuffix_length (Nat.lt_of_lt_of_le below image.count_le)
  rw [List.take_of_length_le (i := fullpathBuffer.bytes / 2 - 1) (by
    have bytes : fullpathBuffer.bytes / 2 - 1 = 127 := rfl
    simp only [List.length_append, List.length_cons, List.length_map]
    omega)] at same
  have separate : ∀ k, PATH_SEP ∉ image.fileName.chars.map (pathChar (c.machine.ifntfs image.partindex))
      ++ segmentSuffix k := by
    intro k inside
    rcases List.mem_append.mp inside with inName | inSuffix
    · obtain ⟨ch, listed, sep⟩ := List.mem_map.mp inName
      exact (plain ch listed).2 sep
    · exact absurd (segmentSuffix_range k _ inSuffix).2 (by decide)
  refine suffix_prefix same.symm ?_ (separate i) (separate j)
  rw [List.length_map]
  exact Nat.lt_of_le_of_lt (c.room dir' inDirs') roomy

/-- Two segments of an image are two files. -/
theorem segment_inj {c : PreAutoBackup} {image : ListedImage} (member : image ∈ c.machine.images)
    {i j : Nat} (low : i < image.count) (high : j < image.count)
    (same : c.segment image i = c.segment image j) : i = j := by
  have roomy : 48 < fullpathBuffer.bytes / 2 - 1 := by decide
  have forth := segment_prefix member high roomy same
  have back := segment_prefix member low roomy same.symm
  exact segmentSuffix_inj (Nat.lt_of_lt_of_le low image.count_le)
    (Nat.lt_of_lt_of_le high image.count_le) (back.eq_of_length_le forth.length_le)

/-! ### The loop over the segments of the image -/

/-- The files and `bDeleted` after some segments. -/
def PreAutoBackup.pass (c : PreAutoBackup) (image : ListedImage) (n : Nat) :
    FileTable (List UInt16) × Bool :=
  (List.range n).foldl (c.machine.deleteFile image) (c.state.files image.partindex, false)

/-- The file that a segment's deletion names. -/
def PreAutoBackup.named (c : PreAutoBackup) (image : ListedImage) (n : Nat) : List UInt16 :=
  (pathVolume (c.machine.ifntfs image.partindex)).file
    (c.machine.path nameBuffer image (c.pass image n).1 n)

/-- One more segment. -/
theorem pass_succ (c : PreAutoBackup) (image : ListedImage) (n : Nat) :
    c.pass image (n + 1) = c.machine.deleteFile image (c.pass image n) n := by
  unfold PreAutoBackup.pass
  rw [List.range_succ, List.foldl_append, List.foldl_cons, List.foldl_nil]

/-- A deletion leaves all files but the one that it names. -/
theorem pass_other (c : PreAutoBackup) (image : ListedImage) {n : Nat} {f : List UInt16}
    (other : f ≠ c.named image n) : (c.pass image (n + 1)).1 f = (c.pass image n).1 f := by
  rw [pass_succ]
  exact fileDelete_other _ _ _ _ other

/-- A segment is there until it is reached. -/
theorem left_segment {c : PreAutoBackup} {image : ListedImage} (member : image ∈ c.machine.images)
    {n : Nat} (below : n < image.count) : (c.left image n (c.segment image n)).isSome = true := by
  have remains : c.segment image n ∉ (List.range n).map (c.segment image) := by
    intro inside
    obtain ⟨k, earlier, same⟩ := List.mem_map.mp inside
    have before := List.mem_range.mp earlier
    exact absurd (segment_inj member (Nat.lt_trans before below) below same) (Nat.ne_of_lt before)
  unfold PreAutoBackup.left
  rw [if_neg remains]
  exact c.complete image member n below

/-- The files without one more segment. -/
theorem left_succ (c : PreAutoBackup) (image : ListedImage) (n : Nat) :
    c.left image (n + 1) = (c.left image n).without (c.segment image n) := by
  funext f
  unfold PreAutoBackup.left
  rw [List.range_succ, List.map_append]
  by_cases same : f = c.segment image n
  · rw [same, FileTable.without_self, if_pos (by simp)]
  · rw [FileTable.without_of_ne _ same]
    simp [same]

/-- Where every segment is reached, the loop takes them one after the other. -/
theorem pass_eq {c : PreAutoBackup} {image : ListedImage} (member : image ∈ c.machine.images)
    (reaches : c.Reaches image) : ∀ n ≤ image.count, c.pass image n = (c.left image n, decide (0 < n)) := by
  intro n
  induction n with
  | zero =>
    intro _
    rfl
  | succ n ih =>
    intro within
    have below : n < image.count := within
    have there := left_segment member below
    rw [pass_succ, ih (Nat.le_of_lt below)]
    unfold AutoBackupMachine.deleteFile
    have path := reaches.path n below
    rw [← path] at there
    rw [fileDelete_eq there (reaches.deletes n below), left_succ, path]
    simp

/-- The files after the whole deletion of an image that is reached. -/
theorem left_count {c : PreAutoBackup} {image : ListedImage} {i : Nat} (below : i < image.count) :
    c.left image image.count (c.segment image i) = none := by
  unfold PreAutoBackup.left
  rw [if_pos (List.mem_map.mpr ⟨i, List.mem_range.mpr below, rfl⟩)]

/-- If the image is reached, its files are gone and its sectors are counted. -/
theorem after_reached {c : PreAutoBackup} {image : ListedImage} (previous : c.previous = some image)
    (reaches : c.Reaches image) :
    c.after.files = Function.update c.state.files image.partindex (c.left image image.count)
    ∧ c.after.freeSectors = Function.update c.state.freeSectors image.partindex
      (u64 (c.state.freeSectors image.partindex + image.fileSize / SECTOR_SIZE)) := by
  have done := pass_eq (PreAutoBackup.mem_images previous) reaches image.count (Nat.le_refl _)
  have files : c.machine.deleteFiles image (c.state.files image.partindex) = (c.left image image.count, true) := by
    rw [← decide_eq_true image.count_pos]
    exact done
  rw [after_eq, reaches.first]
  dsimp only
  rw [previous_noFactory previous, if_neg Bool.false_ne_true, if_pos reaches.opens]
  simp only [AutoBackupMachine.deleteImage, files, if_true, and_self]

/-- Where there is no image to be deleted, nothing changes. -/
theorem after_none {c : PreAutoBackup} (none_ : c.previous = none) : c.after = c.state := by
  rw [after_eq]
  cases first : c.firstRecorded with
  | none => rfl
  | some image =>
    cases factory : isLenovoLabel (c.machine.partitions image.partindex) with
    | true => exact if_pos factory
    | false =>
      rw [previous_of_first first factory] at none_
      cases none_

/-- Where the image to be deleted is reached, only it is deleted. -/
theorem deletesPrevious_of_reaches {c : PreAutoBackup} (reaches : ∀ image ∈ c.previous, c.Reaches image) :
    c.DeletesPrevious := by
  cases previous : c.previous with
  | none =>
    have same := after_none previous
    refine ⟨fun p f _ => by rw [same], fun image found => ?_, fun p => .inl (by rw [same])⟩
    rw [previous] at found
    cases found
  | some image =>
    obtain ⟨files, freeSectors⟩ := after_reached previous (reaches image previous)
    have gone : ∀ i < image.count, c.after.files image.partindex (c.segment image i) = none := by
      intro i below
      rw [files, Function.update_self]
      exact left_count below
    refine ⟨fun p f other => ?_, fun image' found => ?_, fun p => ?_⟩
    · -- Only the image's own partition changes, and there its segments alone.
      by_cases here : p = image.partindex
      · have outside : f ∉ (List.range image.count).map (c.segment image) := by
          intro inside
          obtain ⟨i, below, same⟩ := List.mem_map.mp inside
          exact other image previous here i (List.mem_range.mp below) same.symm
        rw [files, here, Function.update_self]
        exact if_neg outside
      · rw [files, Function.update_of_ne here]
    · cases Option.some_inj.mp (previous.symm.trans found)
      exact gone
    · by_cases here : p = image.partindex
      · refine .inr ⟨image, previous, here, here ▸ gone, ?_⟩
        rw [freeSectors, here, Function.update_self]
      · exact .inl (by rw [freeSectors, Function.update_of_ne here])

/-- What was there and is gone went at some step. -/
theorem exists_gone {α : Type} {s : Nat → Option α} {n : Nat} (there : s 0 ≠ none) (gone : s n = none) :
    ∃ k < n, s k ≠ none ∧ s (k + 1) = none := by
  induction n with
  | zero => exact absurd gone there
  | succ n ih =>
    by_cases already : s n = none
    · obtain ⟨k, below, step⟩ := ih already
      exact ⟨k, Nat.lt_succ_of_lt below, step⟩
    · exact ⟨n, Nat.lt_succ_self n, already, gone⟩

/-- Where all segments are gone, each went with its own deletion. -/
theorem gone_in_turn {c : PreAutoBackup} {image : ListedImage} (member : image ∈ c.machine.images)
    (gone : ∀ i < image.count, (c.pass image image.count).1 (c.segment image i) = none) :
    ∀ i < image.count, c.named image i = c.segment image i
      ∧ (c.pass image i).1 (c.segment image i) ≠ none
      ∧ (c.pass image (i + 1)).1 (c.segment image i) = none := by
  -- The deletion that removes a segment names it, so what it prints behind the name is not shorter.
  have removed : ∀ i < image.count, ∃ k < image.count, c.named image k = c.segment image i
      ∧ (c.pass image k).1 (c.segment image i) ≠ none
      ∧ (c.pass image (k + 1)).1 (c.segment image i) = none := by
    intro i below
    obtain ⟨k, within, there, after⟩ := exists_gone (s := fun n => (c.pass image n).1 (c.segment image i))
      (Option.isSome_iff_ne_none.mp (c.complete image member i below)) (gone i below)
    refine ⟨k, within, ?_, there, after⟩
    by_contra other
    exact there ((pass_other c image (Ne.symm other)).symm.trans after)
  -- From the longest ends downwards: the later deletions have removed their own segments.
  have turn : ∀ m, ∀ i < image.count, 12 - (segmentSuffix i).length = m → c.named image i = c.segment image i
      ∧ (c.pass image i).1 (c.segment image i) ≠ none
      ∧ (c.pass image (i + 1)).1 (c.segment image i) = none := by
    intro m
    induction m using Nat.strong_induction_on with
    | _ m ih =>
      intro i below measure
      obtain ⟨k, within, names, there, after⟩ := removed i below
      by_cases same : k = i
      · subst same
        exact ⟨names, there, after⟩
      · have front := segment_prefix member below (by decide) names
        have longer : (segmentSuffix i).length < (segmentSuffix k).length := by
          refine Nat.lt_of_le_of_ne front.length_le fun equal => same ?_
          exact (segmentSuffix_inj (Nat.lt_of_lt_of_le below image.count_le)
            (Nat.lt_of_lt_of_le within image.count_le) (front.eq_of_length equal)).symm
        have bound := segmentSuffix_length (Nat.lt_of_lt_of_le within image.count_le)
        have own := (ih (12 - (segmentSuffix k).length) (by omega) k within rfl).1
        exact absurd (segment_inj member within below (own.symm.trans names)) same
  exact fun i below => turn _ i below rfl

/-- Where all segments are gone, they went one after the other. -/
theorem pass_left {c : PreAutoBackup} {image : ListedImage} (member : image ∈ c.machine.images)
    (gone : ∀ i < image.count, (c.pass image image.count).1 (c.segment image i) = none) :
    ∀ n ≤ image.count, (c.pass image n).1 = c.left image n := by
  intro n
  induction n with
  | zero =>
    intro _
    rfl
  | succ n ih =>
    intro within
    obtain ⟨names, -, after⟩ := gone_in_turn member gone n within
    rw [left_succ, ← ih (Nat.le_of_lt within)]
    funext f
    by_cases same : f = c.segment image n
    · rw [same, FileTable.without_self]
      exact after
    · rw [FileTable.without_of_ne _ same]
      exact pass_other c image (names ▸ same)

/-- If only the previous automatic backup is deleted, its deletion is reached. -/
theorem reaches_of_deletesPrevious {c : PreAutoBackup} (deletes : c.DeletesPrevious)
    {image : ListedImage} (previous : c.previous = some image) : c.Reaches image := by
  have member := PreAutoBackup.mem_images previous
  have noFactory := previous_noFactory previous
  -- The first segment was there, so something has changed.
  have changed : c.after ≠ c.state := by
    intro same
    have gone := deletes.gone image previous 0 image.count_pos
    rw [same] at gone
    exact Option.isSome_iff_ne_none.mp (c.complete image member 0 image.count_pos) gone
  cases first : c.firstRecorded with
  | none => exact absurd (by rw [after_eq, first]) changed
  | some found =>
    cases factory : isLenovoLabel (c.machine.partitions found.partindex) with
    | true => exact absurd (by rw [after_eq, first]; exact if_pos factory) changed
    | false =>
      -- The first image that is recorded is the one to be deleted.
      cases Option.some_inj.mp (previous.symm.trans (previous_of_first first factory))
      cases opens : c.machine.fileSystemInit image.partindex with
      | false =>
        refine absurd ?_ changed
        rw [after_eq, first]
        simp only [noFactory, opens, Bool.false_eq_true, if_false]
      | true =>
        have files : c.after.files image.partindex = (c.pass image image.count).1 := by
          rw [after_eq, first]
          simp only [noFactory, opens, Bool.false_eq_true, if_false, if_true,
            AutoBackupMachine.deleteImage, Function.update_self]
          rfl
        have gone := deletes.gone image previous
        rw [files] at gone
        have left := pass_left member gone
        refine ⟨first, opens, fun i below => ?_, fun i below => ?_⟩
        · rw [← left i (Nat.le_of_lt below)]
          exact (gone_in_turn member gone i below).1
        · obtain ⟨names, there, after⟩ := gone_in_turn member gone i below
          rw [← names] at there after
          rw [pass_succ] at after
          exact (fileDelete_gone_iff (Option.isSome_iff_ne_none.mpr there)).mp after

/--
`DeletePreAutoBackupFile` deletes the previous automatic backup alone exactly where it reaches it.

Where no image is to be deleted, nothing has to hold.
Otherwise no factory backup is recorded before the image, its volume can be written, the path of each
segment has room in the buffer, and each deletion goes well.
-/
theorem deletePreAutoBackupFile_exact_iff (c : PreAutoBackup) :
    c.DeletesPrevious ↔ ∀ image ∈ c.previous, c.Reaches image :=
  ⟨fun deletes _ previous => reaches_of_deletesPrevious deletes previous, deletesPrevious_of_reaches⟩

/-! ### A name that is cut -/

/-- The directory `\O`. -/
def shortDir : BackupDir := ⟨[0x5C, 0x4F], rfl, by simp⟩

/-- A name of sixty characters. -/
def longName : ListedName :=
  ⟨List.replicate 60 0x41, fun inside => absurd (List.eq_of_mem_replicate inside) (by decide),
    fun inside => absurd (List.eq_of_mem_replicate inside) (by decide)⟩

/-- An image of one file with that name, of one sector. -/
def longImage : ListedImage := ⟨1, 0, longName, 1, 512⟩

/-- A FAT volume with that image, on which nothing fails. -/
def longMachine : AutoBackupMachine where
  partitions := fun _ => {}
  disklist := fun _ => []
  dirs := ⟨shortDir, shortDir⟩
  places := fun _ => ⟨false, false, true, rfl⟩
  ifntfs := fun _ => false
  fileSystemInit := fun _ => true
  answers := fun _ => ⟨true, true, .success, true, true, 16, true, true, true, 0⟩
  location := some ⟨[], 0, 1⟩
  images := [longImage]
  lenovo := fun _ => rfl

/-- The machine with the file of the image. -/
def longCase : PreAutoBackup where
  machine := longMachine
  state := ⟨fun _ f => if f = segmentChars shortDir longName 0 then some [] else none, fun _ => 0⟩
  complete := by
    intro image member i below
    cases List.mem_singleton.mp member
    cases Nat.lt_one_iff.mp below
    decide
  fits := by
    intro image member
    cases List.mem_singleton.mp member
    decide
  plain := by
    intro image member c inside
    cases List.mem_singleton.mp member
    rw [List.eq_of_mem_replicate inside]
    decide
  ascii := by
    intro dir member c inside
    simp only [longMachine, List.mem_cons, List.not_mem_nil, or_false, or_self] at member
    subst member
    simp only [shortDir, List.mem_cons, List.not_mem_nil, or_false] at inside
    rcases inside with rfl | rfl <;> decide
  room := by
    intro dir member
    simp only [longMachine, List.mem_cons, List.not_mem_nil, or_false, or_self] at member
    subst member
    decide

/-- The path of the image is cut, so its file stays. -/
theorem deletePreAutoBackupFile_cut : ¬ longCase.DeletesPrevious := by
  intro deletes
  have path := (@reaches_of_deletesPrevious longCase deletes longImage rfl).path 0 (by decide)
  exact absurd (congrArg List.length path) (by decide)

end Okr
