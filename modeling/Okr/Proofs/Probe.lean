import Okr.Model.Probe

/-! The probe flags partitions of one disk exactly when its sources already lie on one disk. -/

namespace Okr

/-- The record without what the probe writes: only the layout of the disks is left. -/
def PartitionInfo.layout (p : PartitionInfo) : PartitionInfo :=
  { p with bIfBackup := false, hasWindows := false, label := [] }

/-- Every flagged record of the table lies on disk `d`. -/
def FlaggedOn (d : Int) (table : List PartitionInfo) : Prop :=
  ∀ p ∈ table, p.bIfBackup = true → (p.diskNumber : Int) = d

/-- The records the search recognises as Windows, with their index in the table. -/
def windowsPartitions (v : Volumes) : Nat → List PartitionInfo → List PartitionInfo
  | _, [] => []
  | i, p :: rest =>
    if isWindowsSized p ∧ v.hasSystemFile i = 1 then p :: windowsPartitions v (i + 1) rest
    else windowsPartitions v (i + 1) rest

/-- The first record large enough to be taken for Linux when nothing else chose the disk. -/
def firstLinux (table : List PartitionInfo) : Option PartitionInfo :=
  table.find? fun p => isLinuxSized (-1) p && p.partitionType == PARTITION_LINUX

/--
The records that decide, before any disk is chosen, what will be backed up.

They are the ones flagged on entry, the first system partition, the Windows partitions and,
with neither of these two, the first large Linux partition.
-/
def probeSources (v : Volumes) (table : List PartitionInfo) : List PartitionInfo :=
  table.filter (·.bIfBackup) ++ (table.find? isEfiSystem).toList ++ windowsPartitions v 0 table
    ++ if (table.find? isEfiSystem).isNone ∧ windowsPartitions v 0 table = [] then
        (firstLinux table).toList
      else []

/-- All sources of the probe lie on one disk. -/
def OneSourceDisk (v : Volumes) (table : List PartitionInfo) : Prop :=
  ∃ d : Nat, ∀ p ∈ probeSources v table, p.diskNumber = d

/-- A record put in front must itself be on the disk when it is flagged. -/
@[simp] theorem flaggedOn_cons (d : Int) (p : PartitionInfo) (rest : List PartitionInfo) :
    FlaggedOn d (p :: rest) ↔ (p.bIfBackup = true → (p.diskNumber : Int) = d) ∧ FlaggedOn d rest := by
  simp [FlaggedOn]

/-- Two tables put together are on the disk when both are. -/
@[simp] theorem flaggedOn_append (d : Int) (front back : List PartitionInfo) :
    FlaggedOn d (front ++ back) ↔ FlaggedOn d front ∧ FlaggedOn d back := by
  simp [FlaggedOn, or_imp, forall_and]

/-- An empty table has nothing flagged. -/
@[simp] theorem flaggedOn_nil (d : Int) : FlaggedOn d [] := by
  simp [FlaggedOn]

/-- The first pass flags the first system partition, reports its disk and changes nothing else. -/
theorem markEfiSystem_spec (table : List PartitionInfo) :
    (markEfiSystem table).1.map PartitionInfo.layout = table.map PartitionInfo.layout
    ∧ (markEfiSystem table).2 =
        ((table.find? isEfiSystem).map fun p => (p.diskNumber : Int)).getD (-1)
    ∧ ∀ d, FlaggedOn d (markEfiSystem table).1 ↔
        FlaggedOn d table ∧ ∀ p ∈ table.find? isEfiSystem, (p.diskNumber : Int) = d := by
  induction table with
  | nil => simp [markEfiSystem]
  | cons p rest ih =>
    obtain ⟨layout, disk, flagged⟩ := ih
    cases efi : isEfiSystem p with
    -- The walk stops here, so the record is flagged whatever it was before.
    | true =>
      simp only [markEfiSystem, efi, if_true, List.find?_cons_of_pos]
      refine ⟨rfl, rfl, fun d => ?_⟩
      simp only [flaggedOn_cons, Option.mem_some_iff, forall_eq', forall_const]
      constructor
      · exact fun h => ⟨⟨fun _ => h.1, h.2⟩, h.1⟩
      · exact fun h => ⟨h.2, h.1.2⟩
    -- The record is passed over, and the rest of the table decides.
    | false =>
      simp only [markEfiSystem, efi, Bool.false_eq_true, if_false, List.map_cons, layout,
        List.find?_cons_of_neg (a := p) (p := isEfiSystem) (by simp [efi]), disk, true_and]
      intro d
      simp only [flaggedOn_cons, flagged d, and_assoc]

/-- The Windows records are found by layout alone. -/
theorem windowsPartitions_layout (v : Volumes) (i : Nat) (table : List PartitionInfo) :
    windowsPartitions v i (table.map PartitionInfo.layout)
      = (windowsPartitions v i table).map PartitionInfo.layout := by
  induction table generalizing i with
  | nil => rfl
  | cons p rest ih =>
    have sized : isWindowsSized p.layout = isWindowsSized p := rfl
    simp only [List.map_cons, windowsPartitions, sized, ih]
    split <;> rfl

/-- The disk of the last Windows record, or the one chosen before when there is none. -/
def lastDisk (disk : Int) (found : List PartitionInfo) : Int :=
  (found.getLast?.map fun p => (p.diskNumber : Int)).getD disk

/-- What the search for Windows has done to the table and to the probe's variables. -/
structure WindowsMarked (v : Volumes) (s : ProbeState) (i : Nat) (table : List PartitionInfo)
    (r : ProbeState) : Prop where
  layout : r.table.map PartitionInfo.layout
    = s.table.map PartitionInfo.layout ++ table.map PartitionInfo.layout
  disk : r.diskIndex = lastDisk s.diskIndex (windowsPartitions v i table)
  number : r.iOSNumber = s.iOSNumber + (windowsPartitions v i table).length
  flagged : ∀ d, FlaggedOn d r.table ↔ FlaggedOn d s.table ∧ FlaggedOn d table
    ∧ ∀ p ∈ windowsPartitions v i table, (p.diskNumber : Int) = d

/-- A record that holds no Windows is passed over unchanged. -/
theorem windowsMarked_pass {v : Volumes} {s s' r : ProbeState} {i : Nat} {p : PartitionInfo}
    {rest : List PartitionInfo}
    (passed : windowsPartitions v i (p :: rest) = windowsPartitions v (i + 1) rest)
    (kept : s'.table = s.table ++ [p]) (sameDisk : s'.diskIndex = s.diskIndex)
    (sameNumber : s'.iOSNumber = s.iOSNumber)
    (marked : WindowsMarked v s' (i + 1) rest r) : WindowsMarked v s i (p :: rest) r where
  layout := by simpa [kept] using marked.layout
  disk := by simpa only [passed, sameDisk] using marked.disk
  number := by simpa only [passed, sameNumber] using marked.number
  flagged d := by
    -- The record moves from the front of the rest to the end of the part already passed.
    simp only [marked.flagged d, passed, kept, flaggedOn_append, flaggedOn_cons, flaggedOn_nil,
      and_true, and_assoc]

/-- A record that holds Windows is flagged, counted, and its disk is taken. -/
theorem windowsMarked_found {v : Volumes} {s s' r : ProbeState} {i : Nat} {p : PartitionInfo}
    {rest : List PartitionInfo}
    (found : windowsPartitions v i (p :: rest) = p :: windowsPartitions v (i + 1) rest)
    (kept : s'.table = s.table ++ [{ p with bIfBackup := true, hasWindows := true }])
    (itsDisk : s'.diskIndex = p.diskNumber) (counted : s'.iOSNumber = s.iOSNumber + 1)
    (marked : WindowsMarked v s' (i + 1) rest r) : WindowsMarked v s i (p :: rest) r where
  layout := by simpa [kept, PartitionInfo.layout] using marked.layout
  disk := by
    rw [marked.disk, found, itsDisk]
    simp only [lastDisk, List.getLast?_cons]
    cases (windowsPartitions v (i + 1) rest).getLast? <;> rfl
  number := by
    rw [marked.number, found, counted, List.length_cons]
    omega
  flagged d := by
    rw [marked.flagged d, found, kept]
    simp only [flaggedOn_append, flaggedOn_cons, flaggedOn_nil, and_true, List.mem_cons,
      forall_eq_or_imp, forall_const]
    constructor
    · exact fun h => ⟨h.1.1, ⟨fun _ => h.1.2, h.2.1⟩, h.1.2, h.2.2⟩
    · exact fun h => ⟨⟨h.1, h.2.2.1⟩, h.2.1.2, h.2.2.2⟩

/--
The search for Windows flags exactly the records it recognises, on whichever disk they are.

The loop carries the records it has passed at the end of its table.
-/
theorem markWindows_spec (v : Volumes) (table : List PartitionInfo) :
    ∀ (s : ProbeState) (i : Nat), WindowsMarked v s i table (markWindows v s i table) := by
  induction table with
  | nil =>
    intro s i
    constructor <;> simp [markWindows, windowsPartitions, lastDisk]
  | cons p rest ih =>
    intro s i
    by_cases sized : isWindowsSized p = true
    · by_cases holds : v.hasSystemFile i = 1
      -- A result of 1 is not an error, so only the record itself is noted.
      · have noError : ¬ v.hasSystemFile i < 0 := by omega
        simp only [markWindows, sized, if_true, if_pos holds, if_neg noError]
        exact windowsMarked_found (by simp [windowsPartitions, sized, holds]) rfl rfl rfl
          (ih _ (i + 1))
      -- Whether the search failed or found nothing, the record itself stays as it is.
      · have passed : windowsPartitions v i (p :: rest) = windowsPartitions v (i + 1) rest := by
          simp [windowsPartitions, holds]
        simp only [markWindows, sized, if_true, if_neg holds]
        refine windowsMarked_pass passed ?_ ?_ ?_ (ih _ (i + 1)) <;> split <;> rfl
    -- The record is too small or of another type.
    · simp only [markWindows, sized, Bool.false_eq_true, if_false]
      have marked := ih { s with table := s.table ++ [p] } (i + 1)
      refine windowsMarked_pass (by simp [windowsPartitions, sized]) ?_ ?_ ?_ marked <;> rfl

/-- The search for Linux flags the record it finds, which is the first of its kind. -/
theorem markLinux_spec (disk : Int) (table : List PartitionInfo) :
    ∀ candidate,
      (markLinux disk candidate table).2.1
        = table.find? (fun p => isLinuxSized disk p && p.partitionType == PARTITION_LINUX)
      ∧ ∀ d, FlaggedOn d (markLinux disk candidate table).1 ↔ FlaggedOn d table
          ∧ ∀ p ∈ (markLinux disk candidate table).2.1, (p.diskNumber : Int) = d := by
  induction table with
  | nil => simp [markLinux]
  | cons p rest ih =>
    intro candidate
    cases found : isLinuxSized disk p && p.partitionType == PARTITION_LINUX with
    | true =>
      simp only [markLinux, found, if_true, List.find?_cons_of_pos, true_and]
      intro d
      simp only [flaggedOn_cons, Option.mem_some_iff, forall_eq', forall_const]
      constructor
      · exact fun h => ⟨⟨fun _ => h.1, h.2⟩, h.1⟩
      · exact fun h => ⟨h.2, h.1.2⟩
    | false =>
      simp only [markLinux, found, Bool.false_eq_true, if_false]
      obtain ⟨first, flagged⟩ := ih
        (candidate || isLinuxSized disk p && (p.partitionType == NTFS || p.partitionType == FAT32))
      refine ⟨by rw [first, List.find?_cons_of_neg (by simp [found])], fun d => ?_⟩
      simp only [flaggedOn_cons, flagged d, and_assoc]

/-- A Linux record found once a disk is chosen lies on that disk. -/
theorem linuxSized_disk {disk : Int} {p : PartitionInfo} (chosen : disk ≠ -1)
    (sized : isLinuxSized disk p = true) : (p.diskNumber : Int) = disk := by
  simp only [isLinuxSized, Bool.and_eq_true, Bool.or_eq_true, beq_iff_eq] at sized
  rcases sized.2 with unset | same
  · exact absurd unset chosen
  · exact same.symm

/--
The passes after the disk is chosen do not change which other disks have flagged records.

Each of them returns a record of another disk as it was.
-/
theorem flaggedOn_map {d : Int} {f : PartitionInfo → PartitionInfo} (table : List PartitionInfo)
    (sameDisk : ∀ p, (f p).diskNumber = p.diskNumber)
    (others : ∀ p : PartitionInfo, d ≠ p.diskNumber → f p = p) :
    FlaggedOn d (table.map f) ↔ FlaggedOn d table := by
  induction table with
  | nil => simp
  | cons p rest ih =>
    simp only [List.map_cons, flaggedOn_cons, ih, sameDisk]
    refine and_congr_left fun _ => ?_
    by_cases here : d = p.diskNumber
    · simp [here]
    · rw [others p here]

/-- Renaming the records changes no flag. -/
theorem flaggedOn_named (d : Int) (table : List PartitionInfo) :
    ∀ name : Nat → List Nat,
      FlaggedOn d (table.mapIdx fun i p => { p with label := name i }) ↔ FlaggedOn d table := by
  -- The index of the first record is taken off the naming, so the naming stays quantified over.
  induction table with
  | nil => simp
  | cons p rest ih =>
    intro name
    simp only [List.mapIdx_cons, flaggedOn_cons]
    exact and_congr_right fun _ => ih fun i => name (i + 1)

/-- The companions and the last word by type only touch records of the chosen disk. -/
theorem flaggedOn_finish (v : Volumes) (disk : Int) (begin_ : Nat) (table : List PartitionInfo) :
    FlaggedOn disk (((((table.map (flagSmall disk begin_)).map (flagBoot disk)).map
      (flagLinuxBoot disk)).mapIdx fun i p => { p with label := v.getVolumeName i }).map
        (flagByType disk)) ↔ FlaggedOn disk table := by
  have byType := flaggedOn_map (d := disk) (f := flagByType disk)
    ((((table.map (flagSmall disk begin_)).map (flagBoot disk)).map
      (flagLinuxBoot disk)).mapIdx fun i p => { p with label := v.getVolumeName i })
    (by intro p; unfold flagByType; repeat' split
        all_goals rfl)
    (by intro p other; simp [flagByType, other])
  have linuxBoot := flaggedOn_map (d := disk) (f := flagLinuxBoot disk)
    ((table.map (flagSmall disk begin_)).map (flagBoot disk))
    (by intro p; unfold flagLinuxBoot; repeat' split
        all_goals rfl)
    (by intro p other; simp [flagLinuxBoot, other])
  have boot := flaggedOn_map (d := disk) (f := flagBoot disk) (table.map (flagSmall disk begin_))
    (by intro p; unfold flagBoot; repeat' split
        all_goals rfl)
    (by intro p other; simp [flagBoot, other])
  have small := flaggedOn_map (d := disk) (f := flagSmall disk begin_) table
    (by intro p; unfold flagSmall; repeat' split
        all_goals rfl)
    (by intro p other; simp [flagSmall, other])
  rw [byType, flaggedOn_named, linuxBoot, boot, small]

/-- The search for Linux flags what it finds and takes its disk. -/
theorem takeLinux_spec (s : ProbeState) :
    let found := s.table.find? fun p =>
      isLinuxSized s.diskIndex p && p.partitionType == PARTITION_LINUX
    (takeLinux s).1.diskIndex = (found.map fun p => (p.diskNumber : Int)).getD s.diskIndex
      ∧ ∀ d, FlaggedOn d (takeLinux s).1.table
          ↔ FlaggedOn d s.table ∧ ∀ p ∈ found, (p.diskNumber : Int) = d := by
  obtain ⟨first, flagged⟩ := markLinux_spec s.diskIndex s.table false
  simp only [← first]
  cases same : (markLinux s.diskIndex false s.table).2.1 with
  | none => simpa only [takeLinux, same, Option.map_none, Option.getD_none, true_and] using flagged
  | some p => simpa only [takeLinux, same, Option.map_some, Option.getD_some, true_and] using flagged

/-- The only early return of the search is the encrypted volume's. -/
theorem searchLinux_early {s s' : ProbeState} {e : Int} (early : searchLinux s = (s', some e)) :
    e = -2 := by
  simp only [searchLinux] at early
  split at early
  · simp only [Prod.mk.injEq, Option.some.injEq] at early
    exact early.2.symm
  · split at early <;> simp at early

/-- When the search lets the probe go on with a disk, it left the state the walk built. -/
theorem searchLinux_passed {s s' : ProbeState} (passed : searchLinux s = (s', none))
    (chosen : s'.diskIndex ≠ -1) : s' = (takeLinux s).1 := by
  simp only [searchLinux] at passed
  split at passed
  · simp at passed
  · split at passed
    -- A candidate without a system unsets the disk again.
    · simp only [Prod.mk.injEq, and_true] at passed
      rw [← passed] at chosen
      exact absurd rfl chosen
    · simp only [Prod.mk.injEq, and_true] at passed
      exact passed.symm

/-- The probe's state once the search for an operating system is over. -/
def probeSearched (v : Volumes) (table : List PartitionInfo) : ProbeState × Option Int :=
  let s := markWindows v { table := [], diskIndex := (markEfiSystem table).2 } 0
    (markEfiSystem table).1
  if s.diskIndex = -1 ∨ s.systemBeginSector = 0 then searchLinux s else (s, none)

/-- An early return of the search is the one for an encrypted volume. -/
theorem probeSearched_early {v : Volumes} {table : List PartitionInfo} {s : ProbeState} {e : Int}
    (early : probeSearched v table = (s, some e)) : e = -2 := by
  simp only [probeSearched] at early
  split at early
  · exact searchLinux_early early
  · simp at early

/-- A probe that returns 1 has chosen a disk, and its flags on that disk are those of the search. -/
theorem probe_success {v : Volumes} {table : List PartitionInfo}
    (success : (probeSystemPartition v table).ret = 1) :
    ∃ s, probeSearched v table = (s, none) ∧ s.diskIndex ≠ -1
      ∧ (probeSystemPartition v table).backupDiskNumber = char8 s.diskIndex
      ∧ (char8 s.diskIndex = s.diskIndex →
          (FlaggedOn s.diskIndex (probeSystemPartition v table).table
            ↔ FlaggedOn s.diskIndex s.table)) := by
  simp only [probeSystemPartition] at success ⊢
  split at success
  -- More than one operating system was found.
  · simp at success
  rename_i single
  simp only [if_neg single]
  cases searched : probeSearched v table with
  | mk s early =>
    have unfolded := searched
    simp only [probeSearched] at unfolded
    simp only [unfolded] at success ⊢
    cases early with
    | some e =>
      simp only [probeSearched_early searched] at success
      exact absurd success (by decide)
    | none =>
      by_cases unset : s.diskIndex = -1
      · simp only [unset, if_true] at success
        split at success <;> simp at success
      · simp only [if_neg unset]
        refine ⟨s, rfl, unset, rfl, fun small => ?_⟩
        simp only [small]
        exact flaggedOn_finish v s.diskIndex s.systemBeginSector s.table

/-- Records with the same layout are on the same disks. -/
theorem disks_of_layout {front back : List PartitionInfo}
    (same : front.map PartitionInfo.layout = back.map PartitionInfo.layout) :
    front.map (·.diskNumber) = back.map (·.diskNumber) := by
  have mapped := congrArg (List.map (·.diskNumber)) same
  simpa only [List.map_map, Function.comp_def, PartitionInfo.layout] using mapped

/-- Whether all records are on one disk is read off the list of their disks. -/
theorem onDisk_iff (d : Int) (table : List PartitionInfo) :
    (∀ p ∈ table, (p.diskNumber : Int) = d)
      ↔ ∀ k : Nat, k ∈ table.map (·.diskNumber) → (k : Int) = d := by
  simp

/-- The last Windows record's disk depends on the disks alone. -/
theorem lastDisk_eq (disk : Int) (found : List PartitionInfo) :
    lastDisk disk found
      = ((found.map (·.diskNumber)).getLast?.map fun k : Nat => (k : Int)).getD disk := by
  simp only [lastDisk, List.getLast?_map, Option.map_map]
  rfl

/-- All sources on one disk, part by part. -/
theorem sourcesOn_iff (v : Volumes) (table : List PartitionInfo) (d : Int) :
    (∀ p ∈ probeSources v table, (p.diskNumber : Int) = d) ↔
      FlaggedOn d table ∧ (∀ p ∈ table.find? isEfiSystem, (p.diskNumber : Int) = d)
        ∧ (∀ p ∈ windowsPartitions v 0 table, (p.diskNumber : Int) = d)
        ∧ (table.find? isEfiSystem = none → windowsPartitions v 0 table = [] →
            ∀ p ∈ firstLinux table, (p.diskNumber : Int) = d) := by
  simp only [probeSources, List.mem_append, or_imp, forall_and, List.mem_filter, and_imp,
    Option.mem_toList, Option.isNone_iff_eq_none, FlaggedOn, and_assoc, Option.mem_def]
  refine and_congr_right fun _ => and_congr_right fun _ => and_congr_right fun _ => ?_
  -- The Linux record only counts when neither of the first two searches found anything.
  by_cases nothing : table.find? isEfiSystem = none ∧ windowsPartitions v 0 table = []
  · simp [nothing]
  · simp only [if_neg nothing, List.not_mem_nil, false_implies, implies_true, true_iff]
    exact fun efi windows => absurd ⟨efi, windows⟩ nothing

/-- The table after the search for Windows has the layout it had on entry. -/
theorem markWindows_layout (v : Volumes) (table : List PartitionInfo) (s : ProbeState)
    (fresh : s.table = []) :
    (markWindows v s 0 (markEfiSystem table).1).table.map PartitionInfo.layout
      = table.map PartitionInfo.layout := by
  rw [(markWindows_spec v _ s 0).layout, fresh, (markEfiSystem_spec table).1]
  rfl

/-- The Windows records are on the same disks whether or not the ESP is flagged first. -/
theorem windowsPartitions_disks (v : Volumes) (table : List PartitionInfo) :
    (windowsPartitions v 0 (markEfiSystem table).1).map (·.diskNumber)
      = (windowsPartitions v 0 table).map (·.diskNumber) := by
  refine disks_of_layout ?_
  rw [← windowsPartitions_layout, ← windowsPartitions_layout, (markEfiSystem_spec table).1]

/-- The flags after both searches, in terms of the table on entry. -/
theorem markWindows_flagged (v : Volumes) (table : List PartitionInfo) (s : ProbeState)
    (fresh : s.table = []) (d : Int) :
    FlaggedOn d (markWindows v s 0 (markEfiSystem table).1).table ↔
      FlaggedOn d table ∧ (∀ p ∈ table.find? isEfiSystem, (p.diskNumber : Int) = d)
        ∧ ∀ p ∈ windowsPartitions v 0 table, (p.diskNumber : Int) = d := by
  rw [(markWindows_spec v _ s 0).flagged d, fresh, (markEfiSystem_spec table).2.2 d,
    onDisk_iff, windowsPartitions_disks, ← onDisk_iff]
  simp only [flaggedOn_nil, true_and, and_assoc]

/-- The disk after both searches: Windows decides over the ESP. -/
theorem markWindows_disk (v : Volumes) (table : List PartitionInfo) (s : ProbeState)
    (start : s.diskIndex = (markEfiSystem table).2) :
    (markWindows v s 0 (markEfiSystem table).1).diskIndex
      = lastDisk (((table.find? isEfiSystem).map fun p => (p.diskNumber : Int)).getD (-1))
          (windowsPartitions v 0 table) := by
  rw [(markWindows_spec v _ s 0).disk, start, (markEfiSystem_spec table).2.1, lastDisk_eq,
    windowsPartitions_disks, ← lastDisk_eq]

/-- A disk is chosen by the first two searches exactly when one of them found something. -/
theorem lastDisk_unset (efi : Option PartitionInfo) (found : List PartitionInfo) :
    lastDisk ((efi.map fun p => (p.diskNumber : Int)).getD (-1)) found = -1 ↔
      efi = none ∧ found = [] := by
  cases last : found.getLast? with
  | some p =>
    have some_ : found ≠ [] := by rintro rfl; simp at last
    simp only [lastDisk, last, Option.map_some, Option.getD_some, some_, and_false, iff_false]
    omega
  | none =>
    have empty : found = [] := by simpa using last
    cases efi with
    | none => simp [lastDisk, empty]
    | some p =>
      simp only [lastDisk, last, Option.map_none, Option.map_some, Option.getD_some,
        Option.getD_none, reduceCtorEq, false_and]

/-- The disk chosen by the first two searches is one of their records' disks. -/
theorem lastDisk_source {v : Volumes} {table : List PartitionInfo} {disk : Int}
    (chosen : lastDisk (((table.find? isEfiSystem).map fun p => (p.diskNumber : Int)).getD (-1))
      (windowsPartitions v 0 table) = disk) (isSet : disk ≠ -1) :
    ∃ p ∈ probeSources v table, disk = p.diskNumber := by
  simp only [probeSources, List.mem_append, Option.mem_toList]
  cases last : (windowsPartitions v 0 table).getLast? with
  | some p =>
    refine ⟨p, Or.inl (Or.inr (List.mem_of_getLast? last)), ?_⟩
    simpa [lastDisk, last] using chosen.symm
  | none =>
    cases efi : table.find? isEfiSystem with
    | some p =>
      refine ⟨p, Or.inl (Or.inl (Or.inr rfl)), ?_⟩
      simpa [lastDisk, last, efi] using chosen.symm
    | none =>
      exact absurd (by simpa [lastDisk, last, efi] using chosen.symm) isSet

/-- The first large Linux record is on the same disk in any table of the same layout. -/
theorem firstLinux_disk {front back : List PartitionInfo}
    (same : front.map PartitionInfo.layout = back.map PartitionInfo.layout) :
    (firstLinux front).map (·.diskNumber) = (firstLinux back).map (·.diskNumber) := by
  have mapped := congrArg (List.find? fun p =>
    isLinuxSized (-1) p && p.partitionType == PARTITION_LINUX) same
  simp only [List.find?_map, Function.comp_def] at mapped
  have disks := congrArg (Option.map (·.diskNumber)) mapped
  rw [Option.map_map, Option.map_map] at disks
  exact disks

/--
Once the search is over with a disk chosen, that disk is a source's disk, and the records flagged
so far are all on it exactly when all the sources are.
-/
theorem probeSearched_sources {v : Volumes} {table : List PartitionInfo} {s : ProbeState}
    (searched : probeSearched v table = (s, none)) (chosen : s.diskIndex ≠ -1) :
    (∃ p ∈ probeSources v table, s.diskIndex = p.diskNumber)
      ∧ (FlaggedOn s.diskIndex s.table
          ↔ ∀ p ∈ probeSources v table, (p.diskNumber : Int) = s.diskIndex) := by
  have layout := markWindows_layout v table
    { table := [], diskIndex := (markEfiSystem table).2 } rfl
  have flagged := markWindows_flagged v table
    { table := [], diskIndex := (markEfiSystem table).2 } rfl
  have disk := markWindows_disk v table { table := [], diskIndex := (markEfiSystem table).2 } rfl
  simp only [probeSearched] at searched
  generalize markWindows v { table := [], diskIndex := (markEfiSystem table).2 } 0
    (markEfiSystem table).1 = m at layout flagged disk searched
  by_cases unset : m.diskIndex = -1
  -- Nothing was found, so a disk can only come from a Linux record.
  · obtain ⟨noEfi, noWindows⟩ := (lastDisk_unset _ _).mp (disk.symm.trans unset)
    rw [if_pos (Or.inl unset)] at searched
    have same := searchLinux_passed searched chosen
    obtain ⟨taken, marked⟩ := takeLinux_spec m
    simp only [unset] at taken marked
    have first : firstLinux m.table = m.table.find? fun p =>
      isLinuxSized (-1) p && p.partitionType == PARTITION_LINUX := rfl
    rw [← first] at taken marked
    have sameLinux := firstLinux_disk layout
    cases found : firstLinux m.table with
    | none => exact absurd (by simpa [same, found] using taken) chosen
    | some q =>
      cases original : firstLinux table with
      | none => simp [found, original] at sameLinux
      | some p =>
        simp only [found, original, Option.map_some, Option.some.injEq] at sameLinux
        have here : s.diskIndex = p.diskNumber := by
          simpa [same, found, sameLinux] using taken
        refine ⟨⟨p, ?_, here⟩, ?_⟩
        · simp [probeSources, noEfi, noWindows, original]
        · rw [sourcesOn_iff, same, marked, flagged, found, original]
          simp [noEfi, noWindows, sameLinux]
  -- The disk was chosen before, and a Linux record only counts when it is on that disk.
  · have something : ¬ (table.find? isEfiSystem = none ∧ windowsPartitions v 0 table = []) :=
      fun none_ => unset (disk.trans ((lastDisk_unset _ _).mpr none_))
    have kept : s.diskIndex = m.diskIndex
        ∧ (FlaggedOn m.diskIndex s.table ↔ FlaggedOn m.diskIndex m.table) := by
      split at searched
      · have same := searchLinux_passed searched chosen
        obtain ⟨taken, marked⟩ := takeLinux_spec m
        cases found : m.table.find? fun p =>
            isLinuxSized m.diskIndex p && p.partitionType == PARTITION_LINUX with
        | none =>
          simp only [found] at taken marked
          exact ⟨by simpa [same] using taken, by simpa [same] using marked m.diskIndex⟩
        | some q =>
          have sized := List.find?_some found
          simp only [Bool.and_eq_true] at sized
          have here := linuxSized_disk unset sized.1
          simp only [found] at taken marked
          refine ⟨by simpa [same, here] using taken, ?_⟩
          simpa [same, here] using marked m.diskIndex
      · simp only [Prod.mk.injEq, and_true] at searched
        simp [searched]
    rw [kept.1, kept.2, flagged, sourcesOn_iff]
    refine ⟨lastDisk_source disk.symm unset, ?_⟩
    simp only [and_congr_right_iff, iff_self_and]
    exact fun _ _ _ efi windows => absurd ⟨efi, windows⟩ something

/-- The Windows records are records of the table. -/
theorem mem_of_windowsPartitions {v : Volumes} {p : PartitionInfo} {table : List PartitionInfo} :
    ∀ {i}, p ∈ windowsPartitions v i table → p ∈ table := by
  induction table with
  | nil => intro i h; simp [windowsPartitions] at h
  | cons q rest ih =>
    intro i h
    simp only [windowsPartitions] at h
    split at h
    · rcases List.mem_cons.mp h with rfl | deeper
      · exact List.mem_cons_self
      · exact List.mem_cons_of_mem _ (ih deeper)
    · exact List.mem_cons_of_mem _ (ih h)

/-- The sources of the probe are records of the table. -/
theorem mem_of_probeSources {v : Volumes} {p : PartitionInfo} {table : List PartitionInfo}
    (source : p ∈ probeSources v table) : p ∈ table := by
  simp only [probeSources, List.mem_append, Option.mem_toList] at source
  rcases source with ((flagged | efi) | windows) | linux
  · exact (List.mem_filter.mp flagged).1
  · exact List.mem_of_find?_eq_some efi
  · exact mem_of_windowsPartitions windows
  · split at linux
    · exact List.mem_of_find?_eq_some (Option.mem_toList.mp linux)
    · simp at linux

/--
A probe that succeeds has flagged records of the disk it will back up only,
exactly when its sources were all on one disk to begin with.

Every disk number is an index into the list of disks.
-/
theorem probe_singleSourceDisk (v : Volumes) (table : List PartitionInfo)
    (indexed : ∀ p ∈ table, p.diskNumber < MAX_DISK_NUM)
    (success : (probeSystemPartition v table).ret = 1) :
    (∀ p ∈ (probeSystemPartition v table).table, p.bIfBackup = true →
        (p.diskNumber : Int) = (probeSystemPartition v table).backupDiskNumber)
      ↔ OneSourceDisk v table := by
  obtain ⟨s, searched, chosen, backup, finished⟩ := probe_success success
  obtain ⟨⟨p, source, here⟩, flagged⟩ := probeSearched_sources searched chosen
  -- An index into the list of disks survives the conversion to a signed byte.
  have small : char8 s.diskIndex = s.diskIndex := by
    have bound := indexed p (mem_of_probeSources source)
    simp only [MAX_DISK_NUM] at bound
    exact char8_eq (by omega) (by omega)
  rw [backup, small]
  refine Iff.trans (finished small) (flagged.trans ?_)
  constructor
  · intro onDisk
    refine ⟨p.diskNumber, fun q member => ?_⟩
    have there := onDisk q member
    omega
  · rintro ⟨d, onDisk⟩ q member
    have there := onDisk q member
    have chosenThere := onDisk p source
    omega

/-- A laptop's only disk: an ESP and a Windows volume. -/
def oneDisk : List PartitionInfo :=
  [{ bootBegin := 2048, totalSectors := 204800, bGpt := true, typeGuid := uefiSystemTypeGuid },
    { bootBegin := 206848, totalSectors := 200000000, bGpt := true, partitionType := NTFS,
      typeGuid := windowsDataTypeGuid }]

/-- The volume of record 1 holds Windows. -/
def windowsOnOne : Volumes where
  hasSystemFile i := if i = 1 then 1 else 0
  getVolumeName _ := []

/-- On a single disk the condition is met, and the probe's flags agree with the disk it chose. -/
theorem probe_singleSourceDisk_oneDisk :
    (probeSystemPartition windowsOnOne oneDisk).ret = 1 ∧
      ∀ p ∈ (probeSystemPartition windowsOnOne oneDisk).table, p.bIfBackup = true →
        (p.diskNumber : Int) = (probeSystemPartition windowsOnOne oneDisk).backupDiskNumber :=
  ⟨by decide +kernel, (probe_singleSourceDisk windowsOnOne oneDisk (by decide +kernel) (by decide +kernel)).mpr
    ⟨0, by decide +kernel⟩⟩

/-- The same machine with the ESP on a first disk and Windows on a second one. -/
def twoDisks : List PartitionInfo :=
  [{ bootBegin := 2048, totalSectors := 204800, bGpt := true, typeGuid := uefiSystemTypeGuid },
    { bootBegin := 206848, totalSectors := 200000000, bGpt := true, partitionType := NTFS,
      typeGuid := windowsDataTypeGuid, diskNumber := 1 }]

/-- The probe succeeds for disk 1 and leaves the ESP of disk 0 flagged. -/
theorem probe_twoDisks :
    ¬ ∀ (v : Volumes) (table : List PartitionInfo), (∀ p ∈ table, p.diskNumber < MAX_DISK_NUM) →
      (probeSystemPartition v table).ret = 1 →
      ∀ p ∈ (probeSystemPartition v table).table, p.bIfBackup = true →
        (p.diskNumber : Int) = (probeSystemPartition v table).backupDiskNumber := by
  intro claim
  exact absurd (claim windowsOnOne twoDisks (by decide +kernel) (by decide +kernel)) (by decide +kernel)

end Okr
