import Okr.Lib.ExchangeSort
import Okr.Proofs.Discovery
import Okr.Restore.BootArea

/-! The discovery leaves the records of every disk in the order of their first sectors. -/

namespace Okr

open ExchangeSort

/-- The slots below the count that are of one disk are in order. -/
def Discovery.Ordered (s : Discovery) : Prop :=
  ∀ a b, a < b → b < s.total → (s.table a).diskNumber = (s.table b).diskNumber →
    (s.table a).bootBegin ≤ (s.table b).bootBegin

/-- The records of the table, as the rest of the program goes through them. -/
def Discovery.records (s : Discovery) : List PartitionInfo := (List.range s.total).map s.table

variable {s : Discovery}

/-- The sort of the source is the exchange sort by first sectors within the disks. -/
theorem sortPartitionInfo_table :
    (sortPartitionInfo s).total = s.total
      ∧ (sortPartitionInfo s).table
        = sortFrom (·.bootBegin) (·.diskNumber) s.total s.table 0 s.total := by
  -- Both loops go through the same slots, and keep the tables equal.
  have inner : ∀ (i : Nat) (u : Discovery) (t : Nat → PartitionInfo),
      u.total = s.total ∧ u.table = t →
      ((List.range' (i + 1) (s.total - (i + 1))).foldl (fun s j => sortSlots s i j) u).total = s.total
        ∧ ((List.range' (i + 1) (s.total - (i + 1))).foldl (fun s j => sortSlots s i j) u).table
          = sortBehind (·.bootBegin) (·.diskNumber) t i (s.total - (i + 1)) := by
    intro i u t same
    refine @List.foldl_rel _ _ _ _ _ _ _ _
      (fun (u : Discovery) t => u.total = s.total ∧ u.table = t) same fun j _ u t same => ?_
    obtain ⟨total, rfl⟩ := same
    rw [sortSlots, exchange]
    split
    · exact ⟨total, rfl⟩
    · exact ⟨total, rfl⟩
  rw [sortPartitionInfo, sortFrom, List.range_eq_range']
  refine @List.foldl_rel _ _ _ _ _ _ _ _
    (fun (u : Discovery) t => u.total = s.total ∧ u.table = t) ⟨rfl, rfl⟩ fun i _ u t same => ?_
  obtain ⟨total, rfl⟩ := same
  rw [total]
  exact inner i u u.table ⟨total, rfl⟩

/-- `SortPartitionInfo` shuffles the slots within their disks into order. -/
theorem sortPartitionInfo_sorted :
    Shuffled (·.diskNumber) 0 s.total s.table (sortPartitionInfo s).table
      ∧ Sorted (·.bootBegin) (·.diskNumber) 0 s.total (sortPartitionInfo s).table := by
  rw [sortPartitionInfo_table.2]
  exact sortFrom_sorted (Nat.zero_le _)

/-- `SortPartitionInfo` leaves the slots of every disk in order. -/
theorem sortPartitionInfo_ordered : (sortPartitionInfo s).Ordered := by
  intro a b order inside same
  rw [sortPartitionInfo_table.1] at inside
  exact sortPartitionInfo_sorted.2 a b (Nat.zero_le a) order inside same

/--
`SortPartitionInfo` sorts the records within their disks.

It only changes their places, and every slot keeps its disk.
-/
theorem sortPartitionInfo_sortsDisks (s : Discovery) :
    (sortPartitionInfo s).total = s.total
      ∧ (sortPartitionInfo s).records.Perm s.records
      ∧ (∀ b, ((sortPartitionInfo s).table b).diskNumber = (s.table b).diskNumber)
      ∧ (sortPartitionInfo s).Ordered := by
  obtain ⟨shuffled, -⟩ := @sortPartitionInfo_sorted s
  refine ⟨sortPartitionInfo_table.1, ?_, shuffled.groups, sortPartitionInfo_ordered⟩
  rw [Discovery.records, Discovery.records, sortPartitionInfo_table.1, List.range_eq_range']
  exact shuffled.perm

/-- One disk leaves the slots in order. -/
theorem scanDisk_ordered (disk : ScanDisk) (diskNumber : Nat) (ordered : s.Ordered) :
    (scanDisk s diskNumber disk).Ordered := by
  rw [scanDisk]
  split
  · exact sortPartitionInfo_ordered
  · -- A disk whose first sector cannot be read leaves the table as it was.
    rw [Discovery.read]
    split
    · next eq =>
      split at eq
      · cases eq
      · cases eq
        exact ordered
    · split <;> exact sortPartitionInfo_ordered

/-- The disks one after the other leave the slots in order. -/
theorem scanDisks_ordered (disks : List ScanDisk) (diskNumber : Nat) (ordered : s.Ordered) :
    (scanDisks disks diskNumber s).Ordered := by
  induction disks generalizing diskNumber s with
  | nil => exact ordered
  | cons disk disks ih =>
    rw [scanDisks]
    split
    · exact ordered
    · exact ih (diskNumber + 1) (scanDisk_ordered disk diskNumber ordered)

/-- Two tables that agree on where their records stand. -/
structure SamePlaces (s s' : Discovery) : Prop where
  total : s'.total = s.total
  disks : ∀ b, (s'.table b).diskNumber = (s.table b).diskNumber
  begins : ∀ b, (s'.table b).bootBegin = (s.table b).bootBegin

/-- The labels are of no account to the order. -/
theorem readLabels_samePlaces (volumeName : PartitionInfo → List Nat) :
    SamePlaces s (readLabels volumeName s) := by
  rw [readLabels]
  apply @foldl_keeps _ _ SamePlaces
  · exact fun _ => ⟨rfl, fun _ => rfl, fun _ => rfl⟩
  · intro a b c first second
    exact ⟨second.total.trans first.total, fun x => (second.disks x).trans (first.disks x),
      fun x => (second.begins x).trans (first.begins x)⟩
  · intro t i _
    refine ⟨rfl, fun b => ?_, fun b => ?_⟩
    all_goals
      rw [Discovery.write]
      dsimp only
      split
      · next eq => rw [eq]
      · rfl

/-- An ordered table gives its records in the order of the disks. -/
theorem Discovery.Ordered.inDiskOrder (ordered : s.Ordered) : InDiskOrder s.records := by
  rw [InDiskOrder, Discovery.records, List.pairwise_map]
  refine List.Pairwise.imp_of_mem ?_ List.pairwise_lt_range
  intro a b _ inside order same
  exact ordered a b order (List.mem_range.mp inside) same

/-- `GetPartitionInfo` gives a table in order, whatever stands on the disks. -/
theorem getPartitionInfo_inDiskOrder (volumeName : PartitionInfo → List Nat) (memory : Image)
    (disks : List ScanDisk) : InDiskOrder (getPartitionInfo volumeName memory disks).records := by
  have start : ({ buffer := memory } : Discovery).Ordered := fun a b _ inside =>
    absurd inside (Nat.not_lt_zero b)
  have scanned := scanDisks_ordered disks 0 start
  have same := @readLabels_samePlaces (scanDisks disks 0 { buffer := memory }) volumeName
  apply Discovery.Ordered.inDiskOrder
  intro a b order inside samedisk
  rw [getPartitionInfo] at inside samedisk ⊢
  rw [same.total] at inside
  rw [same.disks, same.disks] at samedisk
  rw [same.begins, same.begins]
  exact scanned a b order inside samedisk

/-- The table the restore works with: the discovered records, each with the sector of its table. -/
def discoveredTable (volumeName : PartitionInfo → List Nat) (tableBegin : PartitionInfo → Nat)
    (memory : Image) (disks : List ScanDisk) : PartitionTable where
  records := (getPartitionInfo volumeName memory disks).records.map fun p =>
    { p with partitionTableBegin := tableBegin p }
  inOrder := by
    rw [List.map_map]
    have same : (TablePartition.toPartitionInfo ∘ fun p : PartitionInfo =>
        ({ p with partitionTableBegin := tableBegin p } : TablePartition)) = id := rfl
    rw [same, List.map_id]
    exact getPartitionInfo_inDiskOrder volumeName memory disks

end Okr
