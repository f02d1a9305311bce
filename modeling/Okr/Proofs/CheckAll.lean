import Okr.Images.CheckAll
import Okr.Lib.Compact

/-! `CheckAllBackupFiles` keeps the complete images, unless a factory image is counted twice. -/

namespace Okr

variable {machine : Machine}

/-- All the files of an image are there. -/
def isComplete (machine : Machine) (volumes : ImageVolumes) (image : ImageHeader) : Bool :=
  (List.range image.fileNumber).all (hasFile machine volumes image)

/-- The check counts the files of an image, and finds as many as it has if all are there. -/
theorem countFiles_eq_iff {volumes : ImageVolumes} {image : ImageHeader} :
    countFiles machine volumes image = image.fileNumber ↔ isComplete machine volumes image = true := by
  have all := List.countP_eq_length (p := hasFile machine volumes image)
    (l := List.range image.fileNumber)
  rw [List.length_range] at all
  rw [countFiles, all, isComplete, List.all_eq_true]

/-! ### The first loop -/

/-- A volume that has lost files only. -/
structure Shrunk (volumes now : ImageVolumes) : Prop where
  mount : now.mount = volumes.mount
  dirs : now.dirs = volumes.dirs
  files : ∀ p path, now.files p path = true → volumes.files p path = true

/-- Losing files one after the other is losing files. -/
theorem Shrunk.trans {a b c : ImageVolumes} (first : Shrunk a b) (second : Shrunk b c) : Shrunk a c :=
  ⟨second.mount.trans first.mount, second.dirs.trans first.dirs,
    fun p path there => first.files p path (second.files p path there)⟩

/-- Deleting a file loses no other one, and no directory. -/
theorem shrunk_fileDelete (volumes : ImageVolumes) (p : Nat) (path : Path) :
    Shrunk volumes (fileDelete volumes p path) := by
  refine ⟨rfl, rfl, ?_⟩
  intro q other there
  dsimp only [fileDelete] at there
  split at there
  · cases there
  · exact there

/-- Deleting the files of an image loses files only. -/
theorem shrunk_deleteFiles (volumes : ImageVolumes) (image : ImageHeader) :
    Shrunk volumes (deleteFiles machine volumes image) := by
  -- The induction runs over the numbers of the files, from any state of the volumes.
  rw [deleteFiles]
  induction List.range' 1 MAX_DELE_FILE_NUM ++ [0] generalizing volumes with
  | nil => exact ⟨rfl, rfl, fun _ _ there => there⟩
  | cons k ks ih =>
    rw [List.foldl_cons]
    exact (shrunk_fileDelete volumes _ _).trans (ih _)

/-- A file that is there after files were lost was there before. -/
theorem hasFile_of_shrunk {volumes now : ImageVolumes} (shrunk : Shrunk volumes now)
    {image : ImageHeader} {j : Nat} (there : hasFile machine now image j = true) :
    hasFile machine volumes image j = true := by
  rw [hasFile, getBackupFileFullPath] at there ⊢
  rw [shrunk.dirs] at there
  by_cases lenovo : isLenovoPart (machine.partitions image.partitionIndex) = true
  · rw [if_pos lenovo] at there ⊢
    exact shrunk.files _ _ there
  · rw [if_neg lenovo] at there ⊢
    dsimp only at there ⊢
    generalize (if volumes.dirs image.partitionIndex machine.backupDirCustomer = true then
      joinPath machine.backupDirCustomer image.fileName j else []) = customer at there ⊢
    -- A file in the customers' directory may be gone, and one in the other directory seen instead.
    by_cases after : volumes.dirs image.partitionIndex machine.backupDirCustomer = true
        ∧ now.files image.partitionIndex customer = true
    · have before := shrunk.files _ _ after.2
      rw [if_pos ⟨after.1, before⟩]
      exact before
    · rw [if_neg after] at there
      by_cases before : volumes.dirs image.partitionIndex machine.backupDirCustomer = true
          ∧ volumes.files image.partitionIndex customer = true
      · rw [if_pos before]
        exact before.2
      · rw [if_neg before]
        exact shrunk.files _ _ there

/-- An image that is complete after files were lost was complete before. -/
theorem isComplete_of_shrunk {volumes now : ImageVolumes} (shrunk : Shrunk volumes now)
    {image : ImageHeader} (complete : isComplete machine now image = true) :
    isComplete machine volumes image = true := by
  rw [isComplete, List.all_eq_true] at complete ⊢
  exact fun j member => hasFile_of_shrunk shrunk (complete j member)

/-- A factory image on a volume that can be written to. -/
def isDeletable (volumes : ImageVolumes) (image : ImageHeader) : Bool :=
  volumes.mount image.partitionIndex == .writable && image.bFactoryBackup

/-- One image: nothing happens to a complete one, and an incomplete one is cleared and counted. -/
theorem checkImage_complete {s : CheckState} {i : Nat}
    (complete : isComplete machine s.volumes (s.images.getD i {}) = true) :
    checkImage machine s i = s := by
  rw [checkImage]
  dsimp only
  rw [if_pos (countFiles_eq_iff.mpr complete), ite_self]

/-- One image: an incomplete one is cleared and counted, and a deletable one once more. -/
theorem checkImage_incomplete {s : CheckState} {i : Nat}
    (opened : s.volumes.mount (s.images.getD i {}).partitionIndex ≠ .none)
    (incomplete : isComplete machine s.volumes (s.images.getD i {}) = false) :
    checkImage machine s i
      = { volumes := if isDeletable s.volumes (s.images.getD i {}) then
            deleteFiles machine s.volumes (s.images.getD i {}) else s.volumes
          images := s.images.set i {}
          imgErrCount := s.imgErrCount + 1
          imgErrDel := s.imgErrDel
            + if isDeletable s.volumes (s.images.getD i {}) then 1 else 0 } := by
  have differ : ¬countFiles machine s.volumes (s.images.getD i {}) = (s.images.getD i {}).fileNumber := by
    rw [countFiles_eq_iff, incomplete]
    decide
  rw [checkImage]
  dsimp only
  rw [if_neg opened, if_neg differ]
  have test : (s.volumes.mount (s.images.getD i {}).partitionIndex = .writable
      ∧ (s.images.getD i {}).bFactoryBackup = true)
      ↔ isDeletable s.volumes (s.images.getD i {}) = true := by
    rw [isDeletable, Bool.and_eq_true, beq_iff_eq]
  simp only [test]
  split <;> rfl

/-- What holds after the first `i` images, whatever was deleted on the way. -/
structure Checked (machine : Machine) (volumes : ImageVolumes) (images : List ImageHeader) (i : Nat)
    (s : CheckState) : Prop where
  rest : ∀ k, i ≤ k → s.images.getD k {} = images.getD k {}
  shrunk : Shrunk volumes s.volumes
  counted : (images.take i).countP (fun image => !isComplete machine volumes image) ≤ s.imgErrCount
  errBound : s.imgErrCount ≤ i
  delBound : s.imgErrDel ≤ i
  deleted : (∃ image ∈ images.take i, isDeletable volumes image = true
    ∧ isComplete machine volumes image = false) → 0 < s.imgErrDel

/-- One more image is checked. -/
theorem Checked.next {volumes : ImageVolumes} {images : List ImageHeader} {i : Nat} {s : CheckState}
    (checked : Checked machine volumes images i s) (inside : i < images.length)
    (opened : ∀ image ∈ images, volumes.mount image.partitionIndex ≠ .none) :
    Checked machine volumes images (i + 1) (checkImage machine s i) := by
  have here : s.images.getD i {} = images[i] := by
    rw [checked.rest i (Nat.le_refl _), List.getD_eq_getElem _ _ inside]
  have take : images.take (i + 1) = images.take i ++ [images[i]] := List.take_succ_eq_append_getElem inside
  have open' : s.volumes.mount images[i].partitionIndex ≠ .none := by
    rw [checked.shrunk.mount]
    exact opened _ (List.getElem_mem inside)
  cases complete : isComplete machine s.volumes images[i] with
  | true =>
    -- An image that is complete now was complete at the start.
    have before := isComplete_of_shrunk checked.shrunk complete
    have same : checkImage machine s i = s := checkImage_complete (by rw [here, complete])
    rw [same]
    refine ⟨fun k behind => checked.rest k (by omega), checked.shrunk, ?_,
      Nat.le_succ_of_le checked.errBound, Nat.le_succ_of_le checked.delBound, ?_⟩
    · rw [take, List.countP_append]
      simpa [before] using checked.counted
    · rintro ⟨image, member, deletable, incomplete⟩
      rw [take, List.mem_append, List.mem_singleton] at member
      rcases member with early | rfl
      · exact checked.deleted ⟨image, early, deletable, incomplete⟩
      · rw [before] at incomplete
        cases incomplete
  | false =>
    have step := @checkImage_incomplete machine s i (by rwa [here]) (by rw [here, complete])
    rw [here] at step
    rw [step]
    refine ⟨?_, ?_, ?_, Nat.succ_le_succ checked.errBound, ?_, ?_⟩
    · intro k behind
      dsimp only
      rw [← checked.rest k (by omega), List.getD_eq_getElem?_getD, List.getD_eq_getElem?_getD,
        List.getElem?_set_ne (by omega)]
    · dsimp only
      split
      · exact checked.shrunk.trans (shrunk_deleteFiles _ _)
      · exact checked.shrunk
    · rw [take, List.countP_append]
      have one := List.countP_le_length (p := fun image => !isComplete machine volumes image)
        (l := [images[i]])
      have counted := checked.counted
      rw [List.length_singleton] at one
      dsimp only
      omega
    · have bound := checked.delBound
      dsimp only
      split <;> omega
    · rintro ⟨image, member, deletable, incomplete⟩
      rw [take, List.mem_append, List.mem_singleton] at member
      dsimp only
      rcases member with early | rfl
      · have positive := checked.deleted ⟨image, early, deletable, incomplete⟩
        omega
      · have still : isDeletable s.volumes images[i] = true := by
          rw [isDeletable, checked.shrunk.mount]
          exact deletable
        rw [if_pos still]
        omega

/-- The first loop up to some image. -/
theorem checked_fold {volumes : ImageVolumes} {images : List ImageHeader} {i : Nat}
    (inside : i ≤ images.length)
    (opened : ∀ image ∈ images, volumes.mount image.partitionIndex ≠ .none) :
    Checked machine volumes images i
      ((List.range i).foldl (checkImage machine) { volumes := volumes, images := images }) := by
  induction i with
  | zero =>
    refine ⟨fun _ _ => rfl, ⟨rfl, rfl, fun _ _ there => there⟩, by simp, Nat.le_refl _,
      Nat.le_refl _, ?_⟩
    rintro ⟨image, member, -⟩
    rw [List.take_zero] at member
    cases member
  | succ i ih =>
    rw [List.range_succ, List.foldl_append, List.foldl_cons, List.foldl_nil]
    exact (ih (by omega)).next (by omega) opened

/-- An image that is kept, or the gap it leaves. -/
def kept (machine : Machine) (volumes : ImageVolumes) (image : ImageHeader) : ImageHeader :=
  if isComplete machine volumes image then image else {}

/-- When no factory image is deleted, the loop clears and counts the incomplete images. -/
theorem checkImage_fold {volumes : ImageVolumes} {images : List ImageHeader} {i : Nat}
    (inside : i ≤ images.length)
    (opened : ∀ image ∈ images, volumes.mount image.partitionIndex ≠ .none)
    (safe : ∀ image ∈ images, isDeletable volumes image = true →
      isComplete machine volumes image = true) :
    (List.range i).foldl (checkImage machine) { volumes := volumes, images := images }
      = { volumes := volumes
          images := (images.take i).map (kept machine volumes) ++ images.drop i
          imgErrCount := (images.take i).countP fun image => !isComplete machine volumes image
          imgErrDel := 0 } := by
  -- One image more is checked: it is kept, or its slot is emptied and counted.
  induction i with
  | zero => simp
  | succ i ih =>
    have below : i < images.length := by omega
    have member : images[i] ∈ images := List.getElem_mem below
    rw [List.range_succ, List.foldl_append, List.foldl_cons, List.foldl_nil, ih (by omega)]
    have length : ((images.take i).map (kept machine volumes)).length = i := by
      rw [List.length_map, List.length_take, Nat.min_eq_left (Nat.le_of_lt below)]
    have drop : images.drop i = images[i] :: images.drop (i + 1) := List.drop_eq_getElem_cons below
    have here : ((images.take i).map (kept machine volumes) ++ images.drop i).getD i {} = images[i] := by
      rw [List.getD_append_right _ _ _ _ (Nat.le_of_eq length), length, Nat.sub_self, drop,
        List.getD_cons_zero]
    have take : images.take (i + 1) = images.take i ++ [images[i]] :=
      List.take_succ_eq_append_getElem below
    cases complete : isComplete machine volumes images[i] with
    | true =>
      rw [checkImage_complete (by dsimp only; rw [here, complete]), take, List.countP_append,
        List.map_append, drop]
      simp [kept, complete]
    | false =>
      have keep : isDeletable volumes images[i] = false := by
        by_contra deletable
        rw [Bool.not_eq_false] at deletable
        rw [safe _ member deletable] at complete
        cases complete
      rw [checkImage_incomplete (by dsimp only; rw [here]; exact opened _ member)
        (by dsimp only; rw [here, complete])]
      dsimp only
      rw [here, keep, take, List.countP_append, List.map_append,
        List.set_append_right _ _ (Nat.le_of_eq length), length, Nat.sub_self, drop,
        List.set_cons_zero]
      simp [kept, complete]

/-! ### The list is put in order -/

/-- An image of the list, not a gap in it. -/
def isListed (image : ImageHeader) : Bool := image.fileTime != 0

/-- Closing a gap is the step of the compaction. -/
theorem closeGap_eq (images : List ImageHeader) (i : Nat) :
    closeGap images i = Compact.step isListed {} images i := by
  cases listed : isListed (images.getD i {}) with
  | true =>
    have time : ¬(images.getD i {}).fileTime = 0 := by simpa [isListed] using listed
    rw [closeGap, if_neg time, Compact.step, if_pos listed]
  | false =>
    have time : (images.getD i {}).fileTime = 0 := by simpa [isListed] using listed
    rw [closeGap, if_pos time, Compact.step, listed]
    rfl

/-- A factory image is listed: a gap has no flag. -/
theorem isFactoryImage_gap : isFactoryImage machine {} = false := rfl

/-- The first image may be left out of the loop when it is no gap. -/
theorem closeGaps_eq {images : List ImageHeader} {hasFactory : Bool}
    (first : hasFactory = true → isListed (images.getD 0 {}) = true) :
    (List.range images.length).foldl (fun images i =>
        if i = 0 ∧ hasFactory = true then images else closeGap images i) images
      = Compact.compact isListed {} images := by
  rw [Compact.compact]
  cases length : images.length with
  | zero => rfl
  | succ n =>
    rw [List.range_succ_eq_map, List.foldl_cons, List.foldl_cons]
    -- The first place is left alone by either loop; at the others they do the same.
    have front : (if 0 = 0 ∧ hasFactory = true then images else closeGap images 0)
        = Compact.step isListed {} images 0 := by
      by_cases factory : hasFactory = true
      · rw [if_pos ⟨rfl, factory⟩, Compact.step, if_pos (first factory)]
      · rw [if_neg fun both => factory both.2, closeGap_eq]
    rw [front, List.foldl_map, List.foldl_map]
    congr 1
    funext images i
    rw [if_neg fun both => Nat.succ_ne_zero i both.1, closeGap_eq]

/-- The images in the order they are to have: the factory image first. -/
def arranged (machine : Machine) (images : List ImageHeader) : List ImageHeader :=
  match images.find? (isFactoryImage machine) with
  | some factory => factory :: images.eraseP (isFactoryImage machine)
  | none => images

/-- The images in front of the factory image, if there is one. -/
def beforeFactory (machine : Machine) (images : List ImageHeader) : List ImageHeader :=
  if images.any (isFactoryImage machine) then
    images.takeWhile fun image => !isFactoryImage machine image
  else []

/-- A list to which an entry is added has it in front exactly if it is all of the list. -/
theorem append_singleton_eq_cons_iff {α : Type} {x : α} {entries : List α} :
    entries ++ [x] = x :: entries ↔ ∀ y ∈ entries, y = x := by
  induction entries with
  | nil => simp
  | cons y entries ih =>
    rw [List.cons_append, List.cons_eq_cons]
    constructor
    · rintro ⟨rfl, eq⟩
      intro z member
      rcases List.mem_cons.mp member with rfl | inRest
      · rfl
      · exact ih.mp eq z inRest
    · intro all
      have same := all y (by simp)
      subst same
      exact ⟨rfl, ih.mpr fun z member => all z (by simp [member])⟩

/-- A list with a factory image in it, split there. -/
theorem split_factory {images : List ImageHeader} {i : Nat}
    (found : images.findIdx? (isFactoryImage machine) = some i) :
    ∃ front factory back, images = front ++ factory :: back ∧ front.length = i
      ∧ isFactoryImage machine factory = true
      ∧ ∀ image ∈ front, isFactoryImage machine image = false := by
  obtain ⟨inside, isFactory, others⟩ := List.findIdx?_eq_some_iff_getElem.mp found
  refine ⟨images.take i, images[i], images.drop (i + 1), ?_, ?_, isFactory, ?_⟩
  · rw [← List.drop_eq_getElem_cons inside, List.take_append_drop]
  · rw [List.length_take, Nat.min_eq_left (Nat.le_of_lt inside)]
  · intro image member
    obtain ⟨j, inside', rfl⟩ := List.getElem_of_mem member
    rw [List.length_take] at inside'
    rw [List.getElem_take]
    simpa using others j (by omega)

/-- Images without a factory image in front of one: the order that is expected. -/
theorem arranged_split {front back : List ImageHeader} {factory : ImageHeader}
    (isFactory : isFactoryImage machine factory = true)
    (others : ∀ image ∈ front, isFactoryImage machine image = false) :
    arranged machine (front ++ factory :: back) = factory :: (front ++ back) := by
  have none : front.find? (isFactoryImage machine) = none := by
    rw [List.find?_eq_none]
    intro image member
    rw [others image member]
    decide
  have find : (front ++ factory :: back).find? (isFactoryImage machine) = some factory := by
    rw [List.find?_append, none, Option.none_or, List.find?_cons_of_pos isFactory]
  rw [arranged, find]
  dsimp only
  rw [List.eraseP_append_right _ (fun image member => by rw [others image member]; decide),
    List.eraseP_cons_of_pos isFactory]

/-- Images without a factory image in front of one: what stands before it. -/
theorem beforeFactory_split {front back : List ImageHeader} {factory : ImageHeader}
    (isFactory : isFactoryImage machine factory = true)
    (others : ∀ image ∈ front, isFactoryImage machine image = false) :
    beforeFactory machine (front ++ factory :: back) = front := by
  rw [beforeFactory, if_pos (by simp [isFactory]), List.takeWhile_append_of_pos]
  · simp [isFactory]
  · intro image member
    rw [others image member]
    rfl

/-- The factory image changes places with the first image. -/
theorem swapFirst_split (first factory : ImageHeader) (mid back : List ImageHeader) :
    swapFirst (first :: (mid ++ factory :: back)) (mid.length + 1)
      = factory :: (mid ++ first :: back) := by
  have value : (first :: (mid ++ factory :: back)).getD (mid.length + 1) {} = factory := by
    rw [List.getD_cons_succ, List.getD_append_right _ _ _ _ (Nat.le_refl _), Nat.sub_self,
      List.getD_cons_zero]
  rw [swapFirst, if_neg (Nat.succ_ne_zero _), value, List.set_cons_zero, List.set_cons_succ,
    List.set_append_right _ _ (Nat.le_refl _), Nat.sub_self, List.set_cons_zero, List.getD_cons_zero]

/-- The list with the factory image brought to its front. -/
def swapped (machine : Machine) (images : List ImageHeader) : List ImageHeader :=
  match images.findIdx? (isFactoryImage machine) with
  | some i => swapFirst images i
  | none => images

/-- A gap is no factory image, so a factory image is listed. -/
theorem isListed_factory {images : List ImageHeader}
    (gaps : ∀ image ∈ images, isListed image = false → image = {}) {image : ImageHeader}
    (member : image ∈ images) (isFactory : isFactoryImage machine image = true) :
    isListed image = true := by
  by_contra gap
  have empty := gaps image member (by simpa using gap)
  rw [empty, isFactoryImage_gap] at isFactory
  cases isFactory

/-- The swap keeps the number of the listed images, and it puts a listed one in front. -/
theorem swapped_facts (images : List ImageHeader)
    (gaps : ∀ image ∈ images, isListed image = false → image = {}) :
    (swapped machine images).length = images.length
      ∧ ((swapped machine images).filter isListed).length = (images.filter isListed).length
      ∧ (∀ image ∈ swapped machine images, isListed image = false → image = {})
      ∧ ((images.findIdx? (isFactoryImage machine)).isSome = true →
        isListed ((swapped machine images).getD 0 {}) = true) := by
  rw [swapped]
  -- The swap exchanges two images, so nothing is lost and the factory image is in front.
  cases found : images.findIdx? (isFactoryImage machine) with
  | none => exact ⟨rfl, rfl, gaps, by simp⟩
  | some i =>
    obtain ⟨front, factory, back, rfl, rfl, isFactory, -⟩ := split_factory found
    have listed := isListed_factory gaps (by simp) isFactory
    cases front with
    | nil => exact ⟨rfl, rfl, gaps, fun _ => listed⟩
    | cons first mid =>
      dsimp only
      rw [List.length_cons, List.cons_append, swapFirst_split]
      refine ⟨?_, ?_, ?_, fun _ => listed⟩
      · simp
      · simp only [List.filter_cons, List.filter_append, List.length_append, listed, if_true,
          List.length_cons]
        split
        · simp
        · simp
          omega
      · intro image member
        exact gaps image (by
          simp only [List.mem_cons, List.mem_append] at member ⊢
          tauto)

/-- The order is as expected exactly if the images in front of the factory image are all one. -/
theorem swapped_arranged (images : List ImageHeader)
    (gaps : ∀ image ∈ images, isListed image = false → image = {}) :
    (swapped machine images).filter isListed = arranged machine (images.filter isListed)
      ↔ ∀ first ∈ images.head?, isListed first = true →
        ∀ image ∈ beforeFactory machine (images.filter isListed), image = first := by
  have mono : ∀ image, isFactoryImage machine image = true → image ∈ images →
      isListed image = true := fun image isFactory member =>
    isListed_factory gaps member isFactory
  cases found : images.findIdx? (isFactoryImage machine) with
  | none =>
    -- Without a factory image nothing is moved, and nothing is expected to be.
    have none : ∀ image ∈ images.filter isListed, isFactoryImage machine image = false := by
      intro image member
      exact List.findIdx?_eq_none_iff.mp found image (List.mem_filter.mp member).1
    have find : (images.filter isListed).find? (isFactoryImage machine) = Option.none := by
      rw [List.find?_eq_none]
      intro image member
      rw [none image member]
      decide
    have before : beforeFactory machine (images.filter isListed) = [] := by
      rw [beforeFactory, if_neg]
      rw [List.any_eq_true]
      rintro ⟨image, member, isFactory⟩
      rw [none image member] at isFactory
      cases isFactory
    rw [swapped, found, arranged, find, before]
    simp
  | some i =>
    rw [swapped, found]
    obtain ⟨front, factory, back, rfl, rfl, isFactory, others⟩ := split_factory found
    have listed := mono factory isFactory (by simp)
    have others' : ∀ image ∈ front.filter isListed, isFactoryImage machine image = false :=
      fun image member => others image (List.mem_filter.mp member).1
    have filtered : (front ++ factory :: back).filter isListed
        = front.filter isListed ++ factory :: back.filter isListed := by
      rw [List.filter_append, List.filter_cons_of_pos listed]
    rw [filtered, arranged_split isFactory others', beforeFactory_split isFactory others']
    cases front with
    | nil => simp [swapFirst, listed]
    | cons first mid =>
      dsimp only
      rw [List.length_cons, List.cons_append, swapFirst_split, List.filter_cons_of_pos listed,
        List.filter_append]
      cases alive : isListed first with
      | false => simp [alive]
      | true =>
        -- The first image comes to stand behind the others.
        rw [List.filter_cons_of_pos alive, List.filter_cons_of_pos alive, List.cons_inj_right,
          ← List.singleton_append, ← List.append_assoc, List.append_cancel_right_eq,
          append_singleton_eq_cons_iff]
        simp [alive]

/-! ### The images that are kept -/

/-- The images that are complete when the check begins. -/
def completeImages (machine : Machine) (volumes : ImageVolumes) (images : List ImageHeader) :
    List ImageHeader :=
  images.filter (isComplete machine volumes)

/-- The list and its length are right: all complete images, in the expected order. -/
def KeepsComplete (machine : Machine) (volumes : ImageVolumes) (images : List ImageHeader) : Prop :=
  let result := checkAllBackupFiles machine volumes images
  let complete := completeImages machine volumes images
  result.imageFilesNumber = complete.length
    ∧ result.images.take complete.length = arranged machine complete

/-- No incomplete image is a factory image on a volume that can be written to. -/
def NoneDeleted (machine : Machine) (volumes : ImageVolumes) (images : List ImageHeader) : Prop :=
  ∀ image ∈ images, isDeletable volumes image = true → isComplete machine volumes image = true

/-- If the first image is complete, no other one stands between it and the factory image. -/
def OrderKept (machine : Machine) (volumes : ImageVolumes) (images : List ImageHeader) : Prop :=
  ∀ first ∈ images.head?, isComplete machine volumes first = true →
    ∀ image ∈ beforeFactory machine (completeImages machine volumes images), image = first

variable {volumes : ImageVolumes} {images : List ImageHeader}

/-- The listed images of the checked list are the complete ones. -/
theorem filter_kept (times : ∀ image ∈ images, image.fileTime ≠ 0) :
    (images.map (kept machine volumes)).filter isListed = completeImages machine volumes images := by
  induction images with
  | nil => rfl
  | cons image images ih =>
    have rest := ih fun other member => times other (by simp [member])
    have time : isListed image = true := by simpa [isListed] using times image (by simp)
    rw [completeImages] at rest ⊢
    cases complete : isComplete machine volumes image with
    | true =>
      have keep : kept machine volumes image = image := by rw [kept, if_pos complete]
      rw [List.map_cons, keep, List.filter_cons_of_pos time, List.filter_cons_of_pos complete, rest]
    | false =>
      have clear : kept machine volumes image = {} := by rw [kept, complete]; rfl
      rw [List.map_cons, clear, List.filter_cons_of_neg (by decide),
        List.filter_cons_of_neg (by rw [complete]; decide), rest]

/-- What is not listed in the checked list is a gap. -/
theorem kept_gaps (times : ∀ image ∈ images, image.fileTime ≠ 0) :
    ∀ image ∈ images.map (kept machine volumes), isListed image = false → image = {} := by
  intro image member gap
  obtain ⟨original, inList, rfl⟩ := List.mem_map.mp member
  rw [kept] at gap ⊢
  split
  · next complete =>
    rw [if_pos complete] at gap
    have time := times original inList
    simp [isListed, time] at gap
  · rfl

/-- An image is complete or not. -/
theorem length_completeImages (machine : Machine) (volumes : ImageVolumes) (images : List ImageHeader) :
    images.length = (completeImages machine volumes images).length
      + images.countP fun image => !isComplete machine volumes image := by
  have split := List.length_eq_countP_add_countP (isComplete machine volumes) (l := images)
  simp only [Bool.not_eq_true, Bool.decide_eq_false] at split
  rw [completeImages, ← List.countP_eq_length_filter]
  exact split

/-- The result when no factory image is deleted. -/
theorem checkAllBackupFiles_eq (few : images.length < 2 ^ 32)
    (times : ∀ image ∈ images, image.fileTime ≠ 0)
    (opened : ∀ image ∈ images, volumes.mount image.partitionIndex ≠ .none)
    (safe : NoneDeleted machine volumes images) :
    (checkAllBackupFiles machine volumes images).imageFilesNumber
        = (completeImages machine volumes images).length
      ∧ (checkAllBackupFiles machine volumes images).images.take
          (completeImages machine volumes images).length
        = (swapped machine (images.map (kept machine volumes))).filter isListed := by
  -- The loop keeps the complete images, the swap their number, and the gaps are closed.
  have loop := @checkImage_fold machine volumes images images.length (Nat.le_refl _) opened safe
  rw [List.take_length, List.drop_length, List.append_nil] at loop
  have filtered := @filter_kept machine volumes images times
  have gaps := @kept_gaps machine volumes images times
  obtain ⟨length, listed, gaps', first⟩ := @swapped_facts machine (images.map (kept machine volumes)) gaps
  constructor
  · have split := length_completeImages machine volumes images
    simp only [checkAllBackupFiles, loop]
    rw [sub32_eq (Nat.zero_le _) few, Nat.sub_zero, sub32_eq (by omega) few]
    omega
  · have closed := @closeGaps_eq (swapped machine (images.map (kept machine volumes))) _ first
    rw [length, List.length_map, Compact.compact_eq rfl gaps'] at closed
    have list : (checkAllBackupFiles machine volumes images).images
        = (List.range images.length).foldl (fun images' i =>
          if i = 0 ∧ ((images.map (kept machine volumes)).findIdx?
            (isFactoryImage machine)).isSome = true then images' else closeGap images' i)
          (swapped machine (images.map (kept machine volumes))) := by
      simp only [checkAllBackupFiles, loop]
      rfl
    rw [list, closed, ← filtered, ← listed, List.take_left']
    rfl

/-- When a factory image is deleted, too many images are subtracted. -/
theorem checkAllBackupFiles_deleted (few : images.length ≤ HEADLISTBUFFER / OKR_HEADER_MIN_SIZE)
    (opened : ∀ image ∈ images, volumes.mount image.partitionIndex ≠ .none)
    (deleted : ¬NoneDeleted machine volumes images) :
    (checkAllBackupFiles machine volumes images).imageFilesNumber
      ≠ (completeImages machine volumes images).length := by
  have bound : HEADLISTBUFFER / OKR_HEADER_MIN_SIZE = 135 := by decide
  have loop := @checked_fold machine volumes images images.length (Nat.le_refl _) opened
  have some : ∃ image ∈ images.take images.length, isDeletable volumes image = true
      ∧ isComplete machine volumes image = false := by
    rw [NoneDeleted] at deleted
    push Not at deleted
    obtain ⟨image, member, deletable, incomplete⟩ := deleted
    exact ⟨image, by rwa [List.take_length], deletable, by simpa using incomplete⟩
  have positive := loop.deleted some
  have counted := loop.counted
  have errBound := loop.errBound
  have delBound := loop.delBound
  rw [List.take_length] at counted
  have split := length_completeImages machine volumes images
  simp only [checkAllBackupFiles, sub32]
  omega

/--
The check keeps the complete images exactly if no factory image is deleted and the order is kept.

The headers have a time, there are no more of them than the list has room for, and every volume
can be opened.
-/
theorem checkAllBackupFiles_keeps_iff (few : images.length ≤ HEADLISTBUFFER / OKR_HEADER_MIN_SIZE)
    (times : ∀ image ∈ images, image.fileTime ≠ 0)
    (opened : ∀ image ∈ images, volumes.mount image.partitionIndex ≠ .none) :
    KeepsComplete machine volumes images
      ↔ NoneDeleted machine volumes images ∧ OrderKept machine volumes images := by
  by_cases safe : NoneDeleted machine volumes images
  · have bound : HEADLISTBUFFER / OKR_HEADER_MIN_SIZE < 2 ^ 32 := by decide
    obtain ⟨number, list⟩ := checkAllBackupFiles_eq (Nat.lt_of_le_of_lt few bound) times opened safe
    have order := @swapped_arranged machine _ (@kept_gaps machine volumes images times)
    rw [@filter_kept machine volumes images times] at order
    -- the swap sees only the head of the list, so the order is a condition on that head
    have heads : OrderKept machine volumes images
        ↔ ∀ first ∈ (images.map (kept machine volumes)).head?, isListed first = true →
          ∀ image ∈ beforeFactory machine (completeImages machine volumes images), image = first := by
      rw [OrderKept]
      cases images with
      | nil => simp
      | cons first rest =>
        have time : isListed first = true := by simpa [isListed] using times first (by simp)
        cases complete : isComplete machine volumes first with
        | true => simp [kept, complete, time]
        | false => simp [kept, complete, isListed]
    rw [KeepsComplete, list, order, ← heads]
    simp only [number, safe, true_and]
  · simp only [safe, false_and, iff_false]
    -- an image deleted before its turn is missing from the number
    intro keeps
    exact checkAllBackupFiles_deleted few opened safe keeps.1

/-! ### A factory image without its second file -/

/-- A machine whose first partition is the vendor's recovery partition. -/
def lenovoMachine : Machine where
  partitions _ :=
    { partitionType := FAT32
      label := lenovoPart ++ List.replicate 22 0
      typeGuid := windowRecoveryTypeGuid }
  backupDir := ['A']
  backupDirCustomer := ['B']

/-- The first files of two images are there. -/
def firstFiles : ImageVolumes where
  mount _ := .writable
  dirs _ _ := true
  files _ path := path == ['A', '\\', 'F'] || path == ['A', '\\', 'U']
  deletable _ _ := true

/-- A factory image and another one, which have so many files. -/
def twoImages (factoryFiles : Nat) : List ImageHeader :=
  [{ fileTime := 1, fileNumber := factoryFiles, fileName := ['F'], bFactoryBackup := true },
    { fileTime := 2, fileNumber := 1, fileName := ['U'] }]

/-- The factory image has lost a file, and the complete image behind it is not counted any more. -/
theorem checkAllBackupFiles_lostFile :
    (checkAllBackupFiles lenovoMachine firstFiles (twoImages 2)).imageFilesNumber = 0
      ∧ (completeImages lenovoMachine firstFiles (twoImages 2)).length = 1 := by
  decide

/-- With all files there both images are kept. -/
theorem checkAllBackupFiles_keeps_iff_allFiles :
    KeepsComplete lenovoMachine firstFiles (twoImages 1) :=
  (checkAllBackupFiles_keeps_iff (by decide) (by decide) (by decide)).mpr
    ⟨by unfold NoneDeleted; decide, by unfold OrderKept; decide⟩

end Okr
