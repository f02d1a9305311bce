import Okr.Images.FindAll

/-! The headers of all images fit their buffer when there are not more of them than whole slots. -/

namespace Okr

variable {machine : Machine} {volumes : ImageVolumes} {names : Nat → List BackupFile}

/-- The file is a complete image, whose header is kept. -/
def BackupFile.isKept (file : BackupFile) : Bool :=
  match file.checked with
  | some header => header.bComplete
  | none => false

/-- How many complete images a volume has. -/
def imagesOn (volumes : ImageVolumes) (names : Nat → List BackupFile) (partindex : Nat) : Nat :=
  if volumes.mount partindex = .none then 0 else (names partindex).countP BackupFile.isKept

/-- How many complete images there are on the volumes that are looked at. -/
def imagesOnAll (machine : Machine) (volumes : ImageVolumes) (names : Nat → List BackupFile)
    (partitions : List Nat) : Nat :=
  ((partitions.filter fun i => holdsImages (machine.partitions i)).map (imagesOn volumes names)).sum

/-! ### The headers are written one behind the other -/

/-- The slots in front of the last header were written once each, in their order. -/
def HeaderList.Dense (s : HeaderList) : Prop := s.written = List.range s.images.length

/-- A header goes behind the last one. -/
theorem HeaderList.Dense.add {s : HeaderList} (dense : s.Dense) (partindex : Nat) (file : BackupFile)
    (image : ImageHeader) : (s.add partindex file image).Dense := by
  rw [HeaderList.Dense] at dense
  rw [HeaderList.Dense, HeaderList.add, dense, List.length_append, List.length_singleton,
    List.range_succ]

/-- A file that is not kept leaves the buffer alone. -/
theorem reject_keeps (s : HeaderList) (partindex : Nat) (bReadOnly : Bool) (file : BackupFile) :
    (s.reject partindex bReadOnly file).images = s.images
      ∧ (s.reject partindex bReadOnly file).written = s.written := by
  cases bReadOnly with
  | false => exact ⟨rfl, rfl⟩
  | true => exact ⟨rfl, rfl⟩

/-- A volume brings its complete images, as many as there is room for. -/
theorem listFiles_dense {partindex : Nat} {bReadOnly : Bool} {maxnum : Nat} (files : List BackupFile) :
    ∀ (count : Nat) (s : HeaderList), s.Dense → count < maxnum →
      (listFiles partindex bReadOnly maxnum count files s).Dense
        ∧ (listFiles partindex bReadOnly maxnum count files s).images.length
          = s.images.length + min (files.countP BackupFile.isKept) (maxnum - count) := by
  -- The induction is on the names still to come, for any count below the limit.
  induction files with
  | nil =>
    intro count s dense _
    exact ⟨dense, by simp [listFiles]⟩
  | cons file rest ih =>
    intro count s dense room
    rw [listFiles, List.countP_cons]
    cases checked : file.checked with
    | none =>
      have skipped : file.isKept = false := by rw [BackupFile.isKept, checked]
      obtain ⟨dense', length⟩ := ih count s dense room
      simp only [skipped]
      exact ⟨dense', length⟩
    | some header =>
      dsimp only
      cases complete : header.bComplete with
      | true =>
        have kept : file.isKept = true := by rw [BackupFile.isKept, checked]; exact complete
        have added := dense.add partindex file header.image
        have longer : (s.add partindex file header.image).images.length = s.images.length + 1 := by
          rw [HeaderList.add, List.length_append, List.length_singleton]
        simp only [kept, if_true]
        split
        · -- The last header there was room for.
          rename_i full
          refine ⟨added, ?_⟩
          rw [longer]
          omega
        · rename_i more
          have next := ih (count + 1) _ added (by omega)
          rw [Nat.cast_add, Nat.cast_one] at next
          refine ⟨next.1, ?_⟩
          rw [next.2, longer]
          omega
      | false =>
        have skipped : file.isKept = false := by rw [BackupFile.isKept, checked]; exact complete
        obtain ⟨images, written⟩ := reject_keeps s partindex bReadOnly file
        have kept : (s.reject partindex bReadOnly file).Dense := by
          rw [HeaderList.Dense, images, written]
          exact dense
        obtain ⟨dense', length⟩ := ih count _ kept room
        rw [images] at length
        simp only [skipped]
        exact ⟨dense', length⟩

/-- A volume that cannot be opened brings nothing, another one its complete images. -/
theorem getBackupFileList_dense {partindex maxnum : Nat} {s : HeaderList} (dense : s.Dense)
    (room : s.images.length < maxnum) :
    (getBackupFileList volumes names partindex ((maxnum : Int) - s.images.length) s).Dense
      ∧ (getBackupFileList volumes names partindex ((maxnum : Int) - s.images.length) s).images.length
        = min (s.images.length + imagesOn volumes names partindex) maxnum := by
  -- the flag of the mount does not change which files are listed
  have listed : ∀ bReadOnly,
      (listFiles partindex bReadOnly ((maxnum : Int) - s.images.length) 0 (names partindex) s).Dense
        ∧ (listFiles partindex bReadOnly ((maxnum : Int) - s.images.length) 0 (names partindex)
              s).images.length
          = min (s.images.length + (names partindex).countP BackupFile.isKept) maxnum := by
    intro bReadOnly
    have result := @listFiles_dense partindex bReadOnly (maxnum - s.images.length) (names partindex)
      0 s dense (by omega)
    rw [Nat.cast_sub (by omega)] at result
    refine ⟨result.1, result.2.trans ?_⟩
    omega
  rw [getBackupFileList, imagesOn]
  cases mount : volumes.mount partindex with
  | none =>
    dsimp only
    refine ⟨dense, ?_⟩
    rw [if_pos rfl]
    omega
  | readonly =>
    dsimp only
    rw [if_neg (by simp)]
    exact listed true
  | writable =>
    dsimp only
    rw [if_neg (by simp)]
    exact listed false

/-- The volumes bring their complete images, as many as the limit lets through. -/
theorem listVolumes_dense {maxnum : Nat} (partitions : List Nat) :
    ∀ (all : Int) (s : HeaderList), s.Dense → s.images.length < maxnum →
      (listVolumes machine volumes names maxnum partitions all s).2.Dense
        ∧ (listVolumes machine volumes names maxnum partitions all s).2.images.length
          = min (s.images.length + imagesOnAll machine volumes names partitions) maxnum := by
  -- on the partitions left, with the list so far general
  induction partitions with
  | nil =>
    intro all s dense room
    refine ⟨dense, ?_⟩
    simp only [listVolumes, imagesOnAll, List.filter_nil, List.map_nil, List.sum_nil]
    omega
  | cons i rest ih =>
    intro all s dense room
    rw [listVolumes]
    -- a partition which cannot hold images adds nothing to the list nor to the count
    cases holds : holdsImages (machine.partitions i) with
    | false =>
      have same : imagesOnAll machine volumes names (i :: rest)
          = imagesOnAll machine volumes names rest := by
        simp only [imagesOnAll, List.filter_cons, holds]
        rfl
      rw [same]
      exact ih all s dense room
    | true =>
      have sum : imagesOnAll machine volumes names (i :: rest)
          = imagesOn volumes names i + imagesOnAll machine volumes names rest := by
        simp only [imagesOnAll, List.filter_cons, holds, if_true, List.map_cons, List.sum_cons]
      obtain ⟨dense', length⟩ := @getBackupFileList_dense volumes names i _
        { s with imgErr := 0, imgCount := 0 } dense room
      rw [sum, if_pos rfl]
      dsimp only at dense' length ⊢
      split
      · rename_i full
        refine ⟨dense', ?_⟩
        dsimp only
        omega
      · rename_i more
        obtain ⟨dense'', length'⟩ := ih (all + _) _ dense' (by omega)
        refine ⟨dense'', ?_⟩
        rw [length', length]
        omega

/-! ### The headers change places -/

/-- There are so many headers, and the slots written are exactly theirs. -/
structure HeaderList.Covers (s : HeaderList) (num : Nat) : Prop where
  length : s.images.length = num
  written : ∀ slot, slot ∈ s.written ↔ slot < num

/-- Headers written one behind the other cover their slots. -/
theorem HeaderList.Dense.covers {s : HeaderList} (dense : s.Dense) : s.Covers s.images.length := by
  refine ⟨rfl, fun slot => ?_⟩
  rw [HeaderList.Dense] at dense
  rw [dense, List.mem_range]

variable {s : HeaderList} {num : Nat}

/-- Two headers change places within their slots. -/
theorem HeaderList.Covers.swap (covers : s.Covers num) {i j : Nat} (first : i < num)
    (second : j < num) : (s.swap i j).Covers num := by
  constructor
  · rw [HeaderList.swap, List.length_set, List.length_set]
    exact covers.length
  · intro slot
    rw [HeaderList.swap, List.mem_append, covers.written]
    constructor
    · intro member
      rcases member with old | new
      · exact old
      · simp only [List.mem_cons, List.not_mem_nil, or_false] at new
        omega
    · exact Or.inl

/-- A pass over some of the slots keeps to the slots there are. -/
theorem HeaderList.Covers.foldl {pass : HeaderList → Nat → HeaderList} (slots : List Nat) :
    ∀ s : HeaderList, s.Covers num → (∀ slot ∈ slots, slot < num) →
      (∀ s slot, s.Covers num → slot < num → (pass s slot).Covers num) →
      (slots.foldl pass s).Covers num := by
  induction slots with
  | nil => exact fun s covers _ _ => covers
  | cons slot rest ih =>
    intro s covers inside step
    rw [List.foldl_cons]
    exact ih _ (step s slot covers (inside slot List.mem_cons_self))
      (fun k member => inside k (List.mem_cons_of_mem _ member)) step

/-- A pass of the sort keeps to the slots there are. -/
theorem HeaderList.Covers.sortPass (covers : s.Covers num) {i : Nat} (below : i < num) :
    (sortPass i s).Covers num := by
  rw [Okr.sortPass, covers.length]
  refine HeaderList.Covers.foldl _ s covers ?_ ?_
  · intro slot member
    rw [List.mem_range'_1] at member
    omega
  · intro s' slot covers' inside
    split
    · exact covers'.swap below inside
    · exact covers'

/-- After all, the slots of the headers found were written, and no others. -/
theorem getAllBackupFiles_covers (machine : Machine) (volumes : ImageVolumes)
    (names : Nat → List BackupFile) (n : Nat) :
    (getAllBackupFiles machine volumes names n).list.Covers
      (min (imagesOnAll machine volumes names (List.range n))
        (HEADLISTBUFFER / OKR_HEADER_MIN_SIZE)) := by
  obtain ⟨dense, length⟩ := @listVolumes_dense machine volumes names
    (HEADLISTBUFFER / OKR_HEADER_MIN_SIZE) (List.range n) 0 {} rfl (by decide)
  have found := dense.covers
  rw [length, List.length_nil, Nat.zero_add] at found
  rw [getAllBackupFiles]
  dsimp only
  rw [length, List.length_nil, Nat.zero_add]
  generalize (listVolumes machine volumes names (HEADLISTBUFFER / OKR_HEADER_MIN_SIZE)
    (List.range n) 0 {}).2 = s at found ⊢
  generalize min (imagesOnAll machine volumes names (List.range n))
    (HEADLISTBUFFER / OKR_HEADER_MIN_SIZE) = num at found ⊢
  -- The passes of the sort keep the list that comes before them.
  refine HeaderList.Covers.foldl _ _ ?_ (fun slot member => List.mem_range.mp member) ?_
  · -- The factory image comes to the front.
    split
    · exact found
    · rename_i i factory
      have below : i < num := by
        obtain ⟨inside, -⟩ := List.findIdx?_eq_some_iff_getElem.mp factory
        rw [found.length] at inside
        exact inside
      split
      · exact found.swap (by omega) below
      · exact found
  · intro s' slot covers inside
    split
    · exact covers
    · exact covers.sortPass inside

/-! ### The buffer -/

/-- So many slots end inside the buffer when they are no more than the whole ones in it. -/
theorem slots_inside_iff (num : Nat) :
    (∀ slot < num, SlotInside slot) ↔ num ≤ HEADLISTBUFFER / OKR_HEADER_SIZE := by
  have some_ : 0 < OKR_HEADER_SIZE := by decide
  rw [Nat.le_div_iff_mul_le some_]
  constructor
  · -- The last slot ends where all of them do.
    intro inside
    cases num with
    | zero => omega
    | succ last => exact inside last (Nat.lt_succ_self last)
  · intro room slot below
    exact (Nat.mul_le_mul_right _ below).trans room

/--
The headers written end inside their buffer exactly when there are no more complete images than it
has whole slots, which are 132: the program stops three slots later only.
-/
theorem getAllBackupFiles_inside_iff (machine : Machine) (volumes : ImageVolumes)
    (names : Nat → List BackupFile) (g_dwTotalPartitions : Nat) :
    (∀ slot ∈ (getAllBackupFiles machine volumes names g_dwTotalPartitions).list.written,
        SlotInside slot)
      ↔ imagesOnAll machine volumes names (List.range g_dwTotalPartitions)
          ≤ HEADLISTBUFFER / OKR_HEADER_SIZE := by
  have covers := getAllBackupFiles_covers machine volumes names g_dwTotalPartitions
  have limit : HEADLISTBUFFER / OKR_HEADER_SIZE < HEADLISTBUFFER / OKR_HEADER_MIN_SIZE := by decide
  have slots := slots_inside_iff (min (imagesOnAll machine volumes names
    (List.range g_dwTotalPartitions)) (HEADLISTBUFFER / OKR_HEADER_MIN_SIZE))
  constructor
  · intro inside
    have few := slots.mp fun slot below => inside slot ((covers.written slot).mpr below)
    omega
  · intro few slot member
    exact slots.mpr (by omega) slot ((covers.written slot).mp member)

/-- A complete image, whose header has the size of one with partitions. -/
def wholeImage : BackupFile where
  name := ['a']
  opens := true
  header := some { magic := OKR_IMAGE_MAGIC, structSize := OKR_HEADER_MAX_SIZE, bComplete := true }

/-- With 133 images on one volume the last header goes past the end of the buffer. -/
theorem getAllBackupFiles_overflows :
    ¬∀ (machine : Machine) (volumes : ImageVolumes) (names : Nat → List BackupFile) (n : Nat),
        ∀ slot ∈ (getAllBackupFiles machine volumes names n).list.written, SlotInside slot := by
  intro inside
  let machine : Machine :=
    { partitions := fun _ => { partitionType := NTFS, totalSectors := 4 * 2048 * 1024 }
      backupDir := []
      backupDirCustomer := [] }
  let volumes : ImageVolumes :=
    { mount := fun _ => .writable
      dirs := fun _ _ => true
      files := fun _ _ => true
      deletable := fun _ _ => true }
  let names : Nat → List BackupFile := fun _ => List.replicate 133 wholeImage
  have found : imagesOnAll machine volumes names (List.range 1) = 133 := by decide +kernel
  have covers := getAllBackupFiles_covers machine volumes names 1
  rw [found] at covers
  exact absurd (inside machine volumes names 1 132 ((covers.written 132).mpr (by decide)))
    (by rw [SlotInside]; decide)

end Okr
