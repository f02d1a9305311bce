import Okr.Images.SegmentFiles

/-! When the deletion of a file tells what it did, and what the loop over the segments then removes. -/

namespace Okr

section
variable {File : Type} [DecidableEq File]

/-! ### One deletion -/

/-- `TRUE` means that the file was there and is gone, and `FALSE` that nothing has changed. -/
structure TellsTruth (f : File) (files : FileTable File) (told : Bool × FileTable File) : Prop where
  gone : told.1 = true ↔ (files f).isSome = true ∧ (told.2 f).isNone = true
  unchanged : told.1 = false → told.2 = files

/-- The NTFS library copies its path only to remove the file. -/
def NtfsRemoves (a : DeleteAnswers) (f : File) (files : FileTable File) : Prop :=
  a.strdup = true → (files f).isSome = true ∧ a.inode = true ∧ FILE_first_user ≤ a.mftNo
    ∧ a.converts = true ∧ a.parent = true ∧ a.removes = true

/-- The firmware deletes a file it opens without a warning, and makes no file that is not there. -/
def FatRemoves (a : DeleteAnswers) (f : File) (files : FileTable File) : Prop :=
  if (files f).isSome then a.opens = true → a.delete ≠ .warnDeleteFailure else a.creates = false

/-- When a deletion is what its result says. -/
def FileVolume.Removes (v : FileVolume File) (a : DeleteAnswers) (path : FilePath)
    (files : FileTable File) : Prop :=
  if v.ifntfs then NtfsRemoves a (v.file path) files else FatRemoves a (v.file path) files

/-- The removed file is not there. -/
@[simp] theorem FileTable.without_self (files : FileTable File) (f : File) : files.without f f = none := by
  simp [FileTable.without]

/-- The other files are there as before. -/
@[simp] theorem FileTable.without_of_ne (files : FileTable File) {f g : File} (other : g ≠ f) :
    files.without f g = files g := by
  simp [FileTable.without, other]

/-- Where nothing is to be removed, nothing changes. -/
theorem FileTable.without_eq {files : FileTable File} {f : File} (missing : files f = none) :
    files.without f = files := by
  unfold FileTable.without
  rw [← missing, Function.update_eq_self]

omit [DecidableEq File] in
/-- No file is there and gone in the same files. -/
theorem FileTable.not_there_gone {files : FileTable File} {f : File} (there : (files f).isSome = true) :
    (files f).isNone = false := by
  rw [← Option.not_isSome, there]
  rfl

omit [DecidableEq File] in
/-- Where nothing changes, `FALSE` is the truth. -/
theorem tellsTruth_same (f : File) (files : FileTable File) (told : Bool) :
    TellsTruth f files (told, files) ↔ told = false := by
  have never : ¬ ((files f).isSome = true ∧ (files f).isNone = true) := fun both =>
    Bool.false_ne_true ((FileTable.not_there_gone both.1).symm.trans both.2)
  constructor
  · intro truth
    by_contra said
    exact never (truth.gone.mp (Bool.not_eq_false told ▸ said))
  · rintro rfl
    exact ⟨⟨(fun told => nomatch told), fun both => absurd both never⟩, fun _ => rfl⟩

/-- Where a file is gone, `TRUE` is the truth if it was there. -/
theorem tellsTruth_without (f : File) (files : FileTable File) :
    TellsTruth f files (true, files.without f) ↔ (files f).isSome = true :=
  ⟨fun truth => (truth.gone.mp rfl).1,
    fun there => ⟨⟨fun _ => ⟨there, by simp⟩, fun _ => rfl⟩, fun told => nomatch told⟩⟩

omit [DecidableEq File] in
/-- `TRUE` is not the truth of a file that was not there. -/
theorem not_tellsTruth_missing {f : File} {files after : FileTable File} (missing : files f = none) :
    ¬ TellsTruth f files (true, after) := by
  intro truth
  have there := (truth.gone.mp rfl).1
  rw [missing] at there
  exact Bool.false_ne_true there

/-- The library removes the file, or nothing. -/
theorem removeInode_files (a : DeleteAnswers) (f : File) (files : FileTable File) :
    (removeInode a f files).2 = if a.inode = true ∧ FILE_first_user ≤ a.mftNo ∧ a.converts = true
      ∧ a.parent = true ∧ a.removes = true then files.without f else files := by
  cases there : files f with
  | none => simp [removeInode, there, files.without_eq there]
  | some bytes =>
    simp only [removeInode, there, Option.isNone_some, Bool.false_eq_true, false_or]
    by_cases metafile : a.mftNo < FILE_first_user
    · simp only [Nat.not_le.mpr metafile, false_and, and_false, if_false, metafile, if_true]
      split_ifs <;> rfl
    · simp only [metafile, Nat.not_lt.mp metafile, true_and, if_false]
      by_cases inode : a.inode = true <;> by_cases converts : a.converts = true <;>
        by_cases parent : a.parent = true <;> simp [inode, converts, parent]

/-- On NTFS, `TRUE` is returned whenever the path was copied. -/
theorem ntfs_tellsTruth_iff {v : FileVolume File} (ntfs : v.ifntfs = true) (a : DeleteAnswers)
    (path : FilePath) (files : FileTable File) :
    TellsTruth (v.file path) files (v.fileDelete a path files) ↔ NtfsRemoves a (v.file path) files := by
  unfold FileVolume.fileDelete FileVolume.file nDeletefile NtfsRemoves
  rw [if_pos ntfs, if_pos ntfs]
  generalize v.ascii (asciiFilename path.chars) = f
  cases strdup : a.strdup with
  | false =>
    simp only [Bool.false_eq_true, not_false_eq_true, if_true, false_imp_iff, iff_true]
    exact (tellsTruth_same f files false).mpr rfl
  | true =>
    simp only [not_true_eq_false, if_false, true_imp_iff, removeInode_files]
    -- `TRUE` is returned: the file has to be there, and to be removed.
    split_ifs with all
    · exact (tellsTruth_without f files).trans ⟨fun there => ⟨there, all⟩, And.left⟩
    · exact (tellsTruth_same f files true).trans 
        ⟨(fun told => nomatch told), fun removes => absurd removes.2 all⟩

/-- On FAT, the file is made where it is not there, and a warning counts as success. -/
theorem fat_tellsTruth_iff {v : FileVolume File} (fat : v.ifntfs = false) (a : DeleteAnswers)
    (path : FilePath) (files : FileTable File) :
    TellsTruth (v.file path) files (v.fileDelete a path files) ↔ FatRemoves a (v.file path) files := by
  unfold FileVolume.fileDelete FileVolume.file fatDelete fatOpen FatRemoves
  simp only [fat, Bool.false_eq_true, if_false]
  generalize v.unicode path.chars = f
  cases there : files f with
  | some bytes =>
    simp only [Option.isSome_some, if_true]
    cases opens : a.opens with
    | false => simpa using tellsTruth_same f files false
    | true =>
      cases status : a.delete with
      | success => simpa [there] using tellsTruth_without f files
      | warnDeleteFailure => simpa using tellsTruth_same f files true
      | error => simpa using tellsTruth_same f files false
  | none =>
    simp only [Option.isSome_none, Bool.false_eq_true, if_false]
    cases creates : a.creates with
    | false => simpa using tellsTruth_same f files false
    | true =>
      cases status : a.delete with
      | success => simpa using not_tellsTruth_missing there
      | warnDeleteFailure => simpa using not_tellsTruth_missing there
      | error =>
        simp only [not_true_eq_false, if_false, if_true, iff_false, Bool.true_eq_false]
        -- The file that was made stays.
        intro truth
        have same := congrFun (truth.unchanged rfl) f
        rw [there] at same
        simp at same

/-- When a deletion tells the truth, on both file systems. -/
theorem tellsTruth_iff (v : FileVolume File) (a : DeleteAnswers) (path : FilePath)
    (files : FileTable File) :
    TellsTruth (v.file path) files (v.fileDelete a path files) ↔ v.Removes a path files := by
  unfold FileVolume.Removes
  cases system : v.ifntfs with
  | true => exact ntfs_tellsTruth_iff system a path files
  | false => exact fat_tellsTruth_iff system a path files

/-- A deletion leaves the other files as they are. -/
theorem fileDelete_other (v : FileVolume File) (a : DeleteAnswers) (path : FilePath)
    (files : FileTable File) {g : File} (other : g ≠ v.file path) :
    (v.fileDelete a path files).2 g = files g := by
  unfold FileVolume.fileDelete FileVolume.file at *
  cases system : v.ifntfs with
  | true =>
    rw [if_pos system] at other
    simp only [if_true, nDeletefile]
    split_ifs with copied
    · rw [removeInode_files]
      split_ifs
      · exact files.without_of_ne other
      · rfl
    · rfl
  | false =>
    rw [if_neg (by simp [system])] at other
    simp only [Bool.false_eq_true, if_false]
    generalize v.unicode path.chars = f at other ⊢
    have opened : (fatOpen a f files).2 g = files g := by
      cases there : files f <;> cases creates : a.creates <;> simp [fatOpen, there, creates, other]
    unfold fatDelete
    generalize fatOpen a f files = answer at opened ⊢
    cases a.delete <;> cases first : answer.1 <;> simp [first, opened, other]

/-- A file that is there and can be deleted is reported. -/
theorem fileDelete_reports {v : FileVolume File} {a : DeleteAnswers} {path : FilePath}
    {files : FileTable File} (there : (files (v.file path)).isSome = true)
    (works : if v.ifntfs then a.strdup = true else a.opens = true ∧ a.delete = .success) :
    (v.fileDelete a path files).1 = true := by
  unfold FileVolume.file at there
  unfold FileVolume.fileDelete
  cases system : v.ifntfs with
  | true =>
    rw [if_pos system] at works
    simp [nDeletefile, works, N_SUCCESS]
  | false =>
    rw [if_neg (by simp [system])] at works there
    obtain ⟨bytes, value⟩ := Option.isSome_iff_exists.mp there
    simp [fatDelete, fatOpen, value, works.1, works.2]

/-- A deletion that tells the truth removes the file, or nothing. -/
theorem TellsTruth.files_eq {v : FileVolume File} {a : DeleteAnswers} {path : FilePath}
    {files : FileTable File} (truth : TellsTruth (v.file path) files (v.fileDelete a path files)) :
    (v.fileDelete a path files).2
      = if (v.fileDelete a path files).1 then files.without (v.file path) else files := by
  cases told : (v.fileDelete a path files).1 with
  | false => exact truth.unchanged told
  | true =>
    rw [if_pos rfl]
    funext g
    by_cases same : g = v.file path
    · subst same
      rw [files.without_self]
      exact Option.isNone_iff_eq_none.mp (truth.gone.mp told).2
    · rw [files.without_of_ne same]
      exact fileDelete_other v a path files same

/-- Everything goes well with the deletion of a file that is there. -/
def DeleteAnswers.Deletes (a : DeleteAnswers) (ntfs : Bool) : Prop :=
  if ntfs then a.strdup = true ∧ a.inode = true ∧ FILE_first_user ≤ a.mftNo ∧ a.converts = true
    ∧ a.parent = true ∧ a.removes = true
  else a.opens = true ∧ a.delete = .success

/-- A file that is there is gone exactly if everything goes well. -/
theorem fileDelete_gone_iff {v : FileVolume File} {a : DeleteAnswers} {path : FilePath}
    {files : FileTable File} (there : (files (v.file path)).isSome = true) :
    (v.fileDelete a path files).2 (v.file path) = none ↔ a.Deletes v.ifntfs := by
  obtain ⟨bytes, value⟩ := Option.isSome_iff_exists.mp there
  unfold FileVolume.fileDelete FileVolume.file DeleteAnswers.Deletes at *
  cases system : v.ifntfs with
  | true =>
    rw [if_pos system] at value
    simp only [if_true, nDeletefile]
    cases a.strdup with
    | false => simp [value]
    | true =>
      simp only [not_true_eq_false, if_false, removeInode_files, true_and]
      split_ifs with all
      · simp [all]
      · simp [all, value]
  | false =>
    rw [if_neg (by simp [system])] at value
    simp only [Bool.false_eq_true, if_false, fatDelete, fatOpen, value]
    cases a.opens <;> cases a.delete <;> simp [value]

/-- If everything goes well, a file that is there is removed, and reported. -/
theorem fileDelete_eq {v : FileVolume File} {a : DeleteAnswers} {path : FilePath}
    {files : FileTable File} (there : (files (v.file path)).isSome = true)
    (deletes : a.Deletes v.ifntfs) : v.fileDelete a path files = (true, files.without (v.file path)) := by
  refine Prod.ext ?_ (funext fun g => ?_)
  · refine fileDelete_reports there ?_
    unfold DeleteAnswers.Deletes at deletes
    split_ifs at deletes ⊢
    · exact deletes.1
    · exact deletes
  · dsimp only
    by_cases same : g = v.file path
    · rw [same, FileTable.without_self]
      exact (fileDelete_gone_iff there).mpr deletes
    · rw [FileTable.without_of_ne _ same]
      exact fileDelete_other v a path files same

/-! ### The loop over the segments -/

/-- The segments whose deletion reports success, in the order of the loop. -/
def UnfinishedImage.reported (g : UnfinishedImage File) : List Nat → DeleteState File → List Nat
  | [], _ => []
  | i :: rest, s =>
    if (g.volume.fileDelete (g.answers i) (g.path i) s.files).1 then
      i :: g.reported rest (g.deletePass s i)
    else g.reported rest (g.deletePass s i)

/-- Every deletion of the loop is what its result says. -/
def UnfinishedImage.AllRemove (g : UnfinishedImage File) : List Nat → DeleteState File → Prop
  | [], _ => True
  | i :: rest, s =>
    g.volume.Removes (g.answers i) (g.path i) s.files ∧ g.AllRemove rest (g.deletePass s i)

/-- The volume deletes the file that is tried for a segment, if it is there. -/
def UnfinishedImage.Deletable (g : UnfinishedImage File) (i : Nat) : Prop :=
  if g.volume.ifntfs then (g.answers i).strdup = true
  else (g.answers i).opens = true ∧ (g.answers i).delete = .success

/-- The sectors of the file that is tried for a segment. -/
def UnfinishedImage.sectors (g : UnfinishedImage File) (files : FileTable File) (i : Nat) : Nat :=
  getFileSizeByName files (g.file i) (g.sizeRead i) / SECTOR_SIZE

/--
What the loop leaves, if it removes what is there and counts the sectors of that alone.

The reported segments are files that were there, no two the same.
They are gone, all other files are as before, and a segment that can be deleted is not left.
-/
structure UnfinishedImage.Deleted (g : UnfinishedImage File) (order : List Nat) (s t : DeleteState File) :
    Prop where
  distinct : ((g.reported order s).map g.file).Nodup
  there : ∀ i ∈ g.reported order s, (s.files (g.file i)).isSome = true
  files : ∀ f, t.files f = if f ∈ (g.reported order s).map g.file then none else s.files f
  gone : ∀ i ∈ order, g.Deletable i → t.files (g.file i) = none
  freeSectors : u64 t.freeSectors
    = u64 (s.freeSectors + ((g.reported order s).map (g.sectors s.files)).sum)

section
variable {g : UnfinishedImage File} {i : Nat} {rest : List Nat} {s t : DeleteState File}

/-- A segment that is not reported: nothing has changed, and it was not there or cannot be deleted. -/
theorem UnfinishedImage.Deleted.skip
    (truth : TellsTruth (g.file i) s.files (g.volume.fileDelete (g.answers i) (g.path i) s.files))
    (told : (g.volume.fileDelete (g.answers i) (g.path i) s.files).1 = false)
    (done : g.Deleted rest (g.deletePass s i) t) : g.Deleted (i :: rest) s t := by
  have same : g.deletePass s i = s := by
    simp only [UnfinishedImage.deletePass, told, truth.files_eq, Bool.false_eq_true, if_false]
  have skipped : g.reported (i :: rest) s = g.reported rest s := by
    simp only [UnfinishedImage.reported, told, Bool.false_eq_true, if_false, same]
  rw [same] at done
  refine ⟨skipped ▸ done.distinct, skipped ▸ done.there, skipped ▸ done.files, ?_,
    skipped ▸ done.freeSectors⟩
  intro j member works
  rcases List.mem_cons.mp member with rfl | later
  · -- A file that was there and can be deleted would have been reported.
    have missing : s.files (g.file j) = none := by
      by_contra there
      have said := fileDelete_reports (Option.isSome_iff_ne_none.mpr there) works
      exact Bool.false_ne_true (told.symm.trans said)
    rw [done.files, missing, ite_self]
  · exact done.gone j later works

/-- A segment that is reported: its file was there, it is removed, and its sectors are counted. -/
theorem UnfinishedImage.Deleted.remove
    (truth : TellsTruth (g.file i) s.files (g.volume.fileDelete (g.answers i) (g.path i) s.files))
    (told : (g.volume.fileDelete (g.answers i) (g.path i) s.files).1 = true)
    (done : g.Deleted rest (g.deletePass s i) t) : g.Deleted (i :: rest) s t := by
  have there : (s.files (g.file i)).isSome = true := (truth.gone.mp told).1
  have files : (g.deletePass s i).files = s.files.without (g.file i) := by
    simp only [UnfinishedImage.deletePass, truth.files_eq, told, if_true]
    rfl
  have free : (g.deletePass s i).freeSectors = u64 (s.freeSectors + g.sectors s.files i) := by
    simp only [UnfinishedImage.deletePass, told, if_true]
    rfl
  have entered : g.reported (i :: rest) s = i :: g.reported rest (g.deletePass s i) := by
    simp only [UnfinishedImage.reported, told, if_true]
  generalize g.deletePass s i = s' at *
  -- What is reported later was there without this file, so it is another one.
  have other : ∀ j ∈ g.reported rest s', g.file j ≠ g.file i := by
    intro j member same
    have later := done.there j member
    rw [files, same, FileTable.without_self] at later
    exact Bool.false_ne_true later
  refine ⟨?_, ?_, ?_, ?_, ?_⟩
  · rw [entered, List.map_cons, List.nodup_cons]
    refine ⟨fun member => ?_, done.distinct⟩
    obtain ⟨j, inside, same⟩ := List.mem_map.mp member
    exact other j inside same
  · intro j member
    rw [entered] at member
    rcases List.mem_cons.mp member with rfl | later
    · exact there
    · have still := done.there j later
      rwa [files, FileTable.without_of_ne _ (other j later)] at still
  · intro f
    rw [done.files, entered, files, List.map_cons]
    by_cases same : f = g.file i
    · rw [same, FileTable.without_self, ite_self, if_pos List.mem_cons_self]
    · rw [FileTable.without_of_ne _ same]
      simp only [List.mem_cons, same, false_or]
  · intro j member works
    rcases List.mem_cons.mp member with rfl | later
    · rw [done.files, files, FileTable.without_self, ite_self]
    · exact done.gone j later works
  · -- The sizes of the other files are what they were before.
    have counted : (g.reported rest s').map (g.sectors s'.files)
        = (g.reported rest s').map (g.sectors s.files) := by
      refine List.map_congr_left fun j member => ?_
      unfold UnfinishedImage.sectors getFileSizeByName
      rw [files, FileTable.without_of_ne _ (other j member)]
    rw [done.freeSectors, counted, entered, List.map_cons, List.sum_cons, free]
    unfold u64
    rw [Nat.mod_add_mod, Nat.add_assoc]

end

/-- The loop, from any of its segments on. -/
theorem deletePass_foldl (g : UnfinishedImage File) (order : List Nat) : ∀ s : DeleteState File,
    g.AllRemove order s → g.Deleted order s (order.foldl g.deletePass s) := by
  induction order with
  | nil =>
    intro s _
    exact ⟨List.nodup_nil, by simp [UnfinishedImage.reported], by simp [UnfinishedImage.reported],
      by simp, by simp [UnfinishedImage.reported]⟩
  | cons i rest ih =>
    intro s kept
    have truth := (tellsTruth_iff g.volume (g.answers i) (g.path i) s.files).mpr kept.1
    have done := ih (g.deletePass s i) kept.2
    rw [List.foldl_cons]
    cases told : (g.volume.fileDelete (g.answers i) (g.path i) s.files).1 with
    | false => exact .skip truth told done
    | true => exact .remove truth told done

end

/--
`FileDelete` tells the truth exactly where the file system answers well.

On NTFS the file has to be there and to be removed, since `n_deletefile` returns success for every path
it could copy.
On FAT a file that is opened must be deleted without a warning, and a file that is not there must not
be made.
The loop over the segments then removes what is there, and counts the sectors of that alone.
-/
theorem fileDelete_tellsTruth_iff {File : Type} [DecidableEq File] :
    (∀ (v : FileVolume File) (a : DeleteAnswers) (path : FilePath) (files : FileTable File),
      TellsTruth (v.file path) files (v.fileDelete a path files) ↔ v.Removes a path files)
    ∧ ∀ (g : UnfinishedImage File) (s : DeleteState File), g.AllRemove segmentOrder s →
      g.Deleted segmentOrder s (g.deleteAll s) :=
  ⟨tellsTruth_iff, fun g s kept => deletePass_foldl g segmentOrder s kept⟩

/-- The path `\X`. -/
def pathOfX : FilePath := ⟨[0x5C, 0x58], rfl, by simp, Nat.le_of_ble_eq_true rfl⟩

/-- An NTFS volume without the file, on which nothing fails. -/
def volumeWithoutX : FileVolume Bytes := ⟨true, fun _ => [], id⟩

/-- The answers of such a volume. -/
def answersWithoutX : DeleteAnswers := ⟨true, false, .success, true, false, 0, true, true, true, 0⟩

/-- The deletion of a file that is not there is reported as a success. -/
theorem fileDelete_missingReported :
    ¬ TellsTruth (volumeWithoutX.file pathOfX) (fun _ => none)
      (volumeWithoutX.fileDelete answersWithoutX pathOfX fun _ => none) :=
  not_tellsTruth_missing rfl

end Okr
