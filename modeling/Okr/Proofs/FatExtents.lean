import Okr.Base.Memory
import Okr.Proofs.Directory
import Okr.Scan.FatExtents
import Okr.Scan.FatVolume

/-! The list of a file's sectors on a FAT volume: the walk stays at the first cluster of the chain. -/

namespace Okr

/-- The record of a FAT16 or FAT32 volume, with values as its boot sector and the disk can have them. -/
structure FatPartition extends PartitionInfo where
  fat : partitionType = FAT16 ∨ partitionType = FAT32
  reserved : firstFatSector < 2 ^ 16
  rootDirectory : rootSectors < 2 ^ 32
  clusterBytes : 0 < sectorsPerClr ∧ sectorsPerClr < 2 ^ 8
  /-- Every sector that a 32-bit number tells from the start of the volume has a 64-bit number. -/
  place : bootBegin + 2 ^ 32 < 2 ^ 64

namespace FatPartition

/-- Which of the two file systems it is. -/
def kind (p : FatPartition) : FatKind := if p.partitionType = FAT16 then .fat16 else .fat32

/-! ### What the table says -/

/-- The entry of a cluster, as it stands in the first copy of the table. -/
def rawEntry (p : FatPartition) (disk : Image) (cluster : Nat) : Nat :=
  let table := (p.bootBegin + p.firstFatSector) * SECTOR_SIZE
  match p.kind with
  | .fat16 => le16 disk (table + 2 * cluster)
  | .fat32 => le32 disk (table + 4 * cluster)

/-- The cluster behind a cluster: four bits of a FAT32 entry do not belong to the number. -/
def nextCluster (p : FatPartition) (disk : Image) (cluster : Nat) : Nat :=
  match p.kind with
  | .fat16 => p.rawEntry disk cluster
  | .fat32 => p.rawEntry disk cluster % 2 ^ 28

/-- The mark of a bad cluster; all greater numbers mark the end of a chain. -/
def badMark (p : FatPartition) : Nat :=
  match p.kind with
  | .fat16 => 0xfff7
  | .fat32 => 0x0ffffff7

/-- The first sector of the clusters, from the start of the volume. -/
def dataStart (p : FatPartition) : Nat :=
  p.firstFatSector + p.sectorsPerFAT * p.fatCopies
    + match p.kind with
      | .fat16 => p.rootSectors
      | .fat32 => 0

/-- The first sector of a cluster. -/
def clusterStart (p : FatPartition) (cluster : Nat) : Nat :=
  p.dataStart + (cluster - 2) * p.sectorsPerClr

/-- A number of a cluster of the volume: it has an entry in the table, and its sectors are inside. -/
def IsCluster (p : FatPartition) (cluster : Nat) : Prop :=
  2 ≤ cluster ∧ cluster < p.badMark
    ∧ cluster * p.kind.scanKind.fatSize < p.sectorsPerFAT * SECTOR_SIZE
    ∧ p.clusterStart cluster + p.sectorsPerClr ≤ p.totalSectors

/-- A well-formed chain: it goes from cluster to cluster, up to an end mark. -/
inductive Chain (p : FatPartition) (disk : Image) : Nat → List Nat → Prop where
  | last {cluster : Nat} : p.IsCluster cluster → p.badMark < p.nextCluster disk cluster →
    Chain p disk cluster [cluster]
  | link {cluster : Nat} {clusters : List Nat} : p.IsCluster cluster →
    Chain p disk (p.nextCluster disk cluster) clusters → Chain p disk cluster (cluster :: clusters)

/-- The clusters of a file; an empty one has the number 0 in place of the first. -/
def FileChain (p : FatPartition) (disk : Image) (first : Nat) (clusters : List Nat) : Prop :=
  first = 0 ∧ clusters = [] ∨ p.Chain disk first clusters

/-- A chain that goes from cluster to cluster for ever; since there are not so many, it is a cycle. -/
def Cyclic (p : FatPartition) (disk : Image) (first : Nat) : Prop :=
  ∀ k, p.IsCluster ((p.nextCluster disk)^[k] first)

/-! ### What the root directory says -/

/-- The bytes of the root directory, and how many sectors it has. -/
inductive RootDirectory (p : FatPartition) (disk : Image) : Image → Nat → Prop where
  | fat16 : p.kind = .fat16 →
    RootDirectory p disk
      (fun i => disk
        ((p.bootBegin + p.firstFatSector + p.sectorsPerFAT * p.fatCopies) * SECTOR_SIZE + i))
      p.rootSectors
  | fat32 {clusters : List Nat} : p.kind = .fat32 → p.Chain disk p.rootDirClr clusters →
    RootDirectory p disk
      (fun i =>
        let cluster := clusters.getD (i / (p.sectorsPerClr * SECTOR_SIZE)) 0
        disk ((p.bootBegin + p.clusterStart cluster) * SECTOR_SIZE
          + i % (p.sectorsPerClr * SECTOR_SIZE)))
      (clusters.length * p.sectorsPerClr)

/-- The first cluster of a file, in its entry of 32 bytes. -/
def entryCluster (p : FatPartition) (dir : Image) (entry : Nat) : Nat :=
  match p.kind with
  | .fat16 => le16 dir (entry + 26)
  | .fat32 => le16 dir (entry + 26) + 2 ^ 16 * le16 dir (entry + 20)

/-- The root directory has a file of a name that starts at a cluster. -/
def FileAt (p : FatPartition) (disk : Image) (n : Name83) (first : Nat) : Prop :=
  ∃ dir sectors entry, p.RootDirectory disk dir sectors
    ∧ namedEntry dir n (16 * sectors) 0 = some entry ∧ dir (entry + 11) &&& 0x10 = 0
    ∧ first = p.entryCluster dir entry

end FatPartition

/-! ### The runs of a chain -/

/-- A cluster in front of runs: it belongs to the first one if that goes on behind it. -/
def addCluster (cluster : Nat) : List (Nat × Nat) → List (Nat × Nat)
  | [] => [(cluster, 1)]
  | (first, count) :: runs =>
    if first = cluster + 1 then (cluster, count + 1) :: runs
    else (cluster, 1) :: (first, count) :: runs

/-- The maximal runs of consecutive clusters: the first cluster, and how many they are. -/
def clusterRuns : List Nat → List (Nat × Nat)
  | [] => []
  | cluster :: clusters => addCluster cluster (clusterRuns clusters)

/-- The clusters of a run. -/
def runClusters (r : Nat × Nat) : List Nat := List.range' r.1 r.2

/-- The runs have the clusters of the chain, in its order. -/
theorem clusterRuns_clusters (clusters : List Nat) :
    (clusterRuns clusters).flatMap runClusters = clusters := by
  -- A cluster either is added to the first run or is one of its own.
  induction clusters with
  | nil => rfl
  | cons cluster clusters ih =>
    rw [clusterRuns]
    cases runs : clusterRuns clusters with
    | nil =>
      rw [runs] at ih
      rw [← ih]
      rfl
    | cons r rest =>
      obtain ⟨first, count⟩ := r
      rw [runs] at ih
      rw [addCluster]
      split
      · rename_i follows
        rw [← ih, List.flatMap_cons, List.flatMap_cons, runClusters, runClusters, List.range'_succ,
          follows, List.cons_append]
      · rw [List.flatMap_cons, ih]
        rfl

/-- No run goes on in the next one. -/
theorem clusterRuns_maximal (clusters : List Nat) :
    (clusterRuns clusters).IsChain fun r s => s.1 ≠ r.1 + r.2 := by
  -- A cluster that is added only moves the start of the first run to the front.
  induction clusters with
  | nil => exact List.IsChain.nil
  | cons cluster clusters ih =>
    rw [clusterRuns]
    cases runs : clusterRuns clusters with
    | nil => exact List.IsChain.singleton _
    | cons r rest =>
      obtain ⟨first, count⟩ := r
      rw [runs] at ih
      rw [addCluster]
      split
      · rename_i follows
        cases ih with
        | singleton => exact List.IsChain.singleton _
        | cons_cons apart later =>
          refine List.IsChain.cons_cons ?_ later
          rw [follows] at apart
          omega
      · rename_i apart
        exact List.IsChain.cons_cons apart ih

/-- The sectors of a chain, from the start of the volume: one entry for each maximal run. -/
def FatPartition.chainExtents (p : FatPartition) (clusters : List Nat) : List SizeL :=
  (clusterRuns clusters).map fun r => ⟨p.clusterStart r.1, r.2 * p.sectorsPerClr⟩

/-! ### What the claim asks for -/

/-- The entries of the list that are returned. -/
def DumpResult.entries (r : DumpResult) : List SizeL := (List.range r.listcount).map r.pList

/-- Every entry of the list that the walk from a state on writes is one that the list has. -/
def WalkInside (disk : Image) (p : PartitionInfo) (clr maxListNumber : Nat) (start : DumpState) :
    Prop :=
  ∀ k s, Loop.Passes (dumpPass disk p clr maxListNumber) k start s →
    (∀ i ∈ s.written, i < maxListNumber)
      ∧ ∀ s', dumpPass disk p clr maxListNumber s = .done s' →
        ∀ i ∈ (dumpFinish p s').written, i < maxListNumber

/-- The variables that a call finds: the buffers come from the heap, and the list from the caller. -/
structure DumpCall where
  fatbuffer : Image
  buf : Image
  pList : Nat → SizeL
  maxListNumber : Nat

/-- The call of the function for a name. -/
def DumpCall.dump (c : DumpCall) (fuel : Nat) (disk : Image) (p : PartitionInfo) (n : Name83) :
    Option DumpResult :=
  dumpFileSectorListFAT fuel disk p n.text c.fatbuffer c.buf c.pList c.maxListNumber

/--
The function lists the sectors of a file.

A list that is too short for all runs of the file has to get as many as there is room for.
-/
structure DumpsExactly (c : DumpCall) (disk : Image) (p : FatPartition) (n : Name83) : Prop where
  listed : ∀ first clusters, p.FileAt disk n first → p.FileChain disk first clusters →
    ∃ fuel r, c.dump fuel disk p.toPartitionInfo n = some r
      ∧ r.entries = (p.chainExtents clusters).take c.maxListNumber
  ends : ∀ first, p.FileAt disk n first → p.Cyclic disk first →
    ∃ fuel, c.dump fuel disk p.toPartitionInfo n ≠ none
  inside : ∀ fuel item cache,
    findItem fuel disk p.toPartitionInfo n.text c.fatbuffer c.buf = some (some item, cache) →
      WalkInside disk p.toPartitionInfo (item.firstCluster p.toPartitionInfo) c.maxListNumber
        (dumpStart (item.firstCluster p.toPartitionInfo) c.pList cache)

/-! ### When it does -/

/-- The search of the root directory comes to an item with this first cluster, or to no one. -/
def DumpCall.Looks (c : DumpCall) (disk : Image) (p : FatPartition) (n : Name83)
    (clr : Option Nat) : Prop :=
  ∃ fuel item cache,
    findItem fuel disk p.toPartitionInfo n.text c.fatbuffer c.buf = some (item, cache)
      ∧ clr = item.map (·.firstCluster p.toPartitionInfo)

/-- The walk from a cluster ends at once: it has no entry, or its number is that of an end mark. -/
def FatPartition.StopsAt (p : FatPartition) (disk : Image) (clr : Nat) : Prop :=
  chainStops p.toPartitionInfo clr (p.rawEntry disk clr)

instance (p : FatPartition) (disk : Image) (clr : Nat) : Decidable (p.StopsAt disk clr) :=
  inferInstanceAs (Decidable (chainStops _ _ _))

/-- The one entry that the function lists then: it does not know where the clusters start. -/
def FatPartition.listedFor (p : FatPartition) : Option Nat → List SizeL
  | none => []
  | some clr => [⟨clr * p.sectorsPerClr, p.sectorsPerClr⟩]

/--
The conditions under which nothing goes wrong.

The walk must not go further than the first cluster, or it neither ends nor keeps to the list.
-/
structure DumpFits (c : DumpCall) (disk : Image) (p : FatPartition) (n : Name83) : Prop where
  room : ∀ clr, c.Looks disk p n (some clr) →
    0 < c.maxListNumber
      ∧ (p.StopsAt disk clr ∨ p.rawEntry disk clr = u32 (clr + 1) ∨ 2 ^ 16 ≤ c.maxListNumber)
  listed : ∀ first clusters, p.FileAt disk n first → p.FileChain disk first clusters →
    ∃ found, c.Looks disk p n found ∧ (∀ clr ∈ found, p.StopsAt disk clr)
      ∧ p.listedFor found = (p.chainExtents clusters).take c.maxListNumber
  ends : ∀ first, p.FileAt disk n first → p.Cyclic disk first →
    ∃ found, c.Looks disk p n found ∧ ∀ clr ∈ found, p.StopsAt disk clr

/-! ### The allocation table in memory -/

/-- The sectors in memory are those of the table. -/
def FatPartition.Caches (p : FatPartition) (disk : Image) (cache : FatCache) : Prop :=
  cache.loadedCount = 0
    ∨ cache.loadedCount = 128 ∧ cache.loadedSector < 2 ^ 26
      ∧ ∀ i < 128 * SECTOR_SIZE,
          cache.buffer i = disk ((p.bootBegin + cache.loadedSector) * SECTOR_SIZE + i)

variable {p : FatPartition} {disk : Image} {cache : FatCache}

/-- A sector of the table is in memory behind `GetFatTable`. -/
theorem getFatTable_spec (caches : p.Caches disk cache) {fatSector : Nat} (small : fatSector < 2 ^ 26) :
    p.Caches disk (getFatTable disk p.toPartitionInfo cache fatSector).1
      ∧ ∀ i < SECTOR_SIZE,
        (getFatTable disk p.toPartitionInfo cache fatSector).1.buffer
            ((getFatTable disk p.toPartitionInfo cache fatSector).2 + i)
          = disk ((p.bootBegin + fatSector) * SECTOR_SIZE + i) := by
  have place := p.place
  unfold getFatTable
  by_cases miss : u32 (sub64 fatSector cache.loadedSector) ≥ cache.loadedCount
  · -- The sectors from this one on are read.
    rw [if_pos miss, u64_eq (by omega), Nat.add_comm fatSector]
    have loaded : ∀ i < 128 * SECTOR_SIZE,
        diskRead disk (p.bootBegin + fatSector) 128 cache.buffer i
          = disk ((p.bootBegin + fatSector) * SECTOR_SIZE + i) := by
      intro i less
      rw [diskRead, if_pos less]
    refine ⟨Or.inr ⟨rfl, small, loaded⟩, fun i less => ?_⟩
    rw [Nat.zero_add]
    exact loaded i (by omega)
  · rw [if_neg miss]
    -- The sectors in memory are kept, and the sector is one of them.
    refine ⟨caches, ?_⟩
    rcases caches with none_ | ⟨count, before, loaded⟩
    · omega
    · intro i less
      -- A sector in front of those in memory would seem to be far behind them.
      have offset : fatSector = cache.loadedSector + u32 (sub64 fatSector cache.loadedSector) := by
        rw [count] at miss
        unfold u32 sub64 at miss ⊢
        omega
      rw [count] at miss
      unfold SECTOR_SIZE at loaded less ⊢
      have address : (p.bootBegin + cache.loadedSector) * 512
          + (u32 (sub64 fatSector cache.loadedSector) * 512 + i)
          = (p.bootBegin + fatSector) * 512 + i := by omega
      dsimp only
      rw [loaded _ (by omega), address]

/-- `GetNextClusterNumber` gives the entry as it stands in the table, whatever is in memory. -/
theorem getNextClusterNumber_spec (caches : p.Caches disk cache) {cluster : Nat}
    (small : cluster < 2 ^ 32) :
    p.Caches disk (getNextClusterNumber disk p.toPartitionInfo cache cluster).1
      ∧ (getNextClusterNumber disk p.toPartitionInfo cache cluster).2 = p.rawEntry disk cluster := by
  -- An entry is in one sector of the table, and no number of a sector wraps.
  have reserved := p.reserved
  unfold getNextClusterNumber FatPartition.rawEntry FatPartition.kind
  by_cases sixteen : p.partitionType = FAT16
  · rw [if_pos sixteen, if_pos sixteen, u32_eq (by omega)]
    obtain ⟨caches', loaded⟩ := getFatTable_spec caches
      (show cluster / 256 + p.firstFatSector < 2 ^ 26 by omega)
    refine ⟨caches', le16_congr fun a below => ?_⟩
    unfold SECTOR_SIZE at loaded ⊢
    have address : (p.bootBegin + (cluster / 256 + p.firstFatSector)) * 512
        + (2 * (cluster % 256) + a) = (p.bootBegin + p.firstFatSector) * 512 + 2 * cluster + a := by
      omega
    rw [Nat.add_assoc, loaded _ (by omega), address]
  · rw [if_neg sixteen, if_neg sixteen, u32_eq (by omega)]
    obtain ⟨caches', loaded⟩ := getFatTable_spec caches
      (show cluster / 128 + p.firstFatSector < 2 ^ 26 by omega)
    refine ⟨caches', le32_congr fun a below => ?_⟩
    unfold SECTOR_SIZE at loaded ⊢
    have address : (p.bootBegin + (cluster / 128 + p.firstFatSector)) * 512
        + (4 * (cluster % 128) + a) = (p.bootBegin + p.firstFatSector) * 512 + 4 * cluster + a := by
      omega
    rw [Nat.add_assoc, loaded _ (by omega), address]

/-- An entry of the table has at most 32 bits. -/
theorem FatPartition.rawEntry_lt (p : FatPartition) (disk : Image) (cluster : Nat) :
    p.rawEntry disk cluster < 2 ^ 32 := by
  unfold rawEntry
  dsimp only
  split
  · exact Nat.lt_trans (le16_lt ..) (by decide)
  · exact le32_lt ..

/-! ### The first cluster -/

variable {fuel : Nat} {fileName : Bytes} {item : Option DirItem}

/-- The first cluster of an item has 32 bits. -/
theorem DirItem.firstCluster_lt (item : DirItem) (p : PartitionInfo) :
    item.firstCluster p < 2 ^ 32 := by
  unfold firstCluster
  split
  · exact Nat.lt_trans (le16_lt ..) (by decide)
  · exact Nat.mod_lt _ (by decide)

/-- The search of the clusters keeps what is in memory to the table. -/
theorem searchClusters_caches {passes clr : Nat} {cache' : FatCache} {buf : Image}
    (caches : p.Caches disk cache) (small : clr < 2 ^ 32)
    (found : searchClusters fuel disk p.toPartitionInfo fileName passes clr cache buf
      = some (item, cache')) : p.Caches disk cache' := by
  -- The cache changes only where an entry is looked up.
  induction passes generalizing clr cache buf with
  | zero => cases found
  | succ passes ih =>
    rw [searchClusters] at found
    split at found
    · cases found
      exact caches
    · dsimp only at found
      split at found
      · cases found
      · cases found
        exact caches
      · -- The entry of the cluster is looked up, and the search goes on behind it.
        obtain ⟨caches', next⟩ := getNextClusterNumber_spec caches small
        apply ih caches' ?_ found
        rw [next]
        exact p.rawEntry_lt disk clr

/-- What is in memory behind the search of the root directory is of the table. -/
theorem findItem_caches {fatbuffer buf : Image}
    (found : findItem fuel disk p.toPartitionInfo fileName fatbuffer buf = some (item, cache)) :
    p.Caches disk cache := by
  -- Nothing is in memory before the search, and the one of FAT16 needs no entry.
  have empty : p.Caches disk ⟨0, 0, fatbuffer⟩ := Or.inl rfl
  unfold findItem at found
  dsimp only at found
  split at found
  · split at found
    · cases found
    · cases found
      exact empty
  · exact searchClusters_caches empty p.rootDirectory found

/-! ### The walk -/

section Walk

variable {clr maxListNumber : Nat} {s : DumpState}

/-- The variables behind a pass that finds the chain going on in the next cluster. -/
def DumpState.counted (s : DumpState) (cache : FatCache) : DumpState :=
  { s with cache := cache, count := u32 (s.count + 1) }

/-- The variables behind a pass that begins another entry of the list. -/
def DumpState.begun (s : DumpState) (cache : FatCache) (clr : Nat) : DumpState :=
  { (({ s with cache := cache } : DumpState).setNumber s.listcount s.count).setBegin
      ((s.listcount + 1) % 2 ^ 16) clr with
    listcount := (s.listcount + 1) % 2 ^ 16
    count := 1 }

/-- A pass ends the walk, counts the cluster or begins another entry, always by the same cluster. -/
theorem dumpPass_eq (caches : p.Caches disk s.cache) (small : clr < 2 ^ 32) :
    ∃ cache, p.Caches disk cache ∧ dumpPass disk p.toPartitionInfo clr maxListNumber s =
      if s.listcount < maxListNumber then
        if p.StopsAt disk clr then .done { s with cache := cache }
        else if p.rawEntry disk clr = u32 (clr + 1) then .next (s.counted cache)
        else .next (s.begun cache clr)
      else .done s := by
  obtain ⟨caches', next⟩ := getNextClusterNumber_spec caches small
  refine ⟨_, caches', ?_⟩
  unfold FatPartition.StopsAt
  simp only [← next]
  rfl

/-- All entries that were written are entries of the list, and so is the present one. -/
structure DumpState.Inside (s : DumpState) (maxListNumber : Nat) : Prop where
  present : s.listcount < maxListNumber
  written : ∀ i ∈ s.written, i < maxListNumber

/-- The walk ends at once when the first cluster has no entry or the number of an end mark. -/
theorem dumpPass_stops (caches : p.Caches disk s.cache) (small : clr < 2 ^ 32)
    (room : s.listcount < maxListNumber) (stops : p.StopsAt disk clr) :
    ∃ cache, dumpPass disk p.toPartitionInfo clr maxListNumber s = .done { s with cache := cache } := by
  obtain ⟨cache, -, pass⟩ := @dumpPass_eq _ _ _ maxListNumber _ caches small
  rw [if_pos room, if_pos stops] at pass
  exact ⟨cache, pass⟩

/-- A pass that goes on keeps to the list, if it only counts or the number cannot pass the end. -/
theorem dumpPass_inside {s' : DumpState} (caches : p.Caches disk s.cache) (small : clr < 2 ^ 32)
    (inside : s.Inside maxListNumber)
    (kept : p.rawEntry disk clr = u32 (clr + 1) ∨ 2 ^ 16 ≤ maxListNumber)
    (goes : dumpPass disk p.toPartitionInfo clr maxListNumber s = .next s') :
    p.Caches disk s'.cache ∧ s'.Inside maxListNumber := by
  obtain ⟨cache, caches', pass⟩ := @dumpPass_eq _ _ _ maxListNumber _ caches small
  -- The pass does not stop, so it counts or begins an entry.
  rw [if_pos inside.present] at pass
  rw [goes] at pass
  split at pass
  · cases pass
  · split at pass
    · cases pass
      exact ⟨caches', inside.present, inside.written⟩
    · rename_i apart
      cases pass
      -- The number of an entry has 16 bits, and the list has room for all of them.
      have wide := kept.resolve_left apart
      have next : (s.listcount + 1) % 2 ^ 16 < maxListNumber :=
        Nat.lt_of_lt_of_le (Nat.mod_lt _ (by decide)) wide
      refine ⟨caches', next, ?_⟩
      intro i mem
      rcases List.mem_cons.mp mem with rfl | mem
      · exact next
      · rcases List.mem_cons.mp mem with rfl | mem
        · exact inside.present
        · exact inside.written i mem

/-- The steps behind the loop write only entries that were written before. -/
theorem DumpState.Inside.finish (inside : s.Inside maxListNumber) (p : PartitionInfo) :
    ∀ i ∈ (dumpFinish p s).written, i < maxListNumber := by
  -- The steps write up to the present entry once more.
  intro i mem
  have present := inside.present
  rcases List.mem_append.mp mem with converted | mem
  · have below : i < (s.listcount + 1) % 2 ^ 16 := List.mem_range.mp converted
    have := Nat.mod_le (s.listcount + 1) (2 ^ 16)
    omega
  · rcases List.mem_cons.mp mem with rfl | mem
    · exact present
    · exact inside.written i mem

/-- A walk that neither ends nor counts fills the list and writes the entry behind it. -/
theorem dumpPass_fills (small : clr < 2 ^ 32) (goes : ¬ p.StopsAt disk clr)
    (apart : p.rawEntry disk clr ≠ u32 (clr + 1)) (narrow : maxListNumber < 2 ^ 16) {left : Nat}
    (caches : p.Caches disk s.cache) (count : s.listcount + left = maxListNumber)
    (present : s.listcount ∈ s.written) :
    ∃ k s', Loop.Passes (dumpPass disk p.toPartitionInfo clr maxListNumber) k s s'
      ∧ maxListNumber ∈ s'.written := by
  -- Each pass begins one more entry.
  induction left generalizing s with
  | zero =>
    rw [Nat.add_zero] at count
    exact ⟨0, s, .here s, by rwa [← count]⟩
  | succ left ih =>
    obtain ⟨cache, caches', pass⟩ := @dumpPass_eq _ _ _ maxListNumber _ caches small
    rw [if_pos (by omega), if_neg goes, if_neg apart] at pass
    have next : (s.begun cache clr).listcount = s.listcount + 1 :=
      Nat.mod_eq_of_lt (by omega)
    obtain ⟨k, s', passes, written⟩ := @ih (s.begun cache clr) caches' (by rw [next]; omega)
      (List.mem_cons_self ..)
    exact ⟨k + 1, s', .more pass passes, written⟩

/-- Before the first pass the first entry of the list is written. -/
theorem dumpStart_inside {pList : Nat → SizeL} (positive : 0 < maxListNumber) :
    (dumpStart clr pList cache).Inside maxListNumber := by
  refine ⟨positive, fun i mem => ?_⟩
  rw [List.mem_singleton.mp mem]
  exact positive

/-- A walk that ends at once, only counts, or has a list longer than its number keeps inside. -/
theorem passes_inside {pList : Nat → SizeL} {k : Nat} (caches : p.Caches disk cache)
    (small : clr < 2 ^ 32) (positive : 0 < maxListNumber)
    (kept : p.StopsAt disk clr ∨ p.rawEntry disk clr = u32 (clr + 1) ∨ 2 ^ 16 ≤ maxListNumber)
    (passes : Loop.Passes (dumpPass disk p.toPartitionInfo clr maxListNumber) k
      (dumpStart clr pList cache) s) :
    p.Caches disk s.cache ∧ s.Inside maxListNumber := by
  refine @Loop.Passes.keeps _ _ _ _ _ _
    (fun _ t => p.Caches disk t.cache ∧ t.Inside maxListNumber) ?_ passes 0
    ⟨caches, dumpStart_inside positive⟩
  rintro - t t' ⟨caches, inside⟩ goes
  rcases kept with stops | kept
  · obtain ⟨cache, pass⟩ := dumpPass_stops caches small inside.present stops
    rw [goes] at pass
    cases pass
  · exact dumpPass_inside caches small inside kept goes

/-- The walk keeps inside the list just when it has room for one entry, and does not fill it. -/
theorem walkInside_iff {pList : Nat → SizeL} (caches : p.Caches disk cache) (small : clr < 2 ^ 32) :
    WalkInside disk p.toPartitionInfo clr maxListNumber (dumpStart clr pList cache) ↔
      0 < maxListNumber
        ∧ (p.StopsAt disk clr ∨ p.rawEntry disk clr = u32 (clr + 1) ∨ 2 ^ 16 ≤ maxListNumber) := by
  constructor
  · intro inside
    refine ⟨(inside 0 _ (.here _)).1 0 (List.mem_cons_self ..), ?_⟩
    -- Otherwise the walk comes to a state in which the entry behind the list is written.
    by_contra fills
    push Not at fills
    obtain ⟨goes, apart, narrow⟩ := fills
    obtain ⟨k, s, passes, written⟩ := dumpPass_fills (s := dumpStart clr pList cache) small goes apart
      narrow caches (Nat.zero_add _) (List.mem_cons_self ..)
    exact Nat.lt_irrefl _ ((inside k s passes).1 maxListNumber written)
  · rintro ⟨positive, kept⟩ k s passes
    obtain ⟨caches', inside⟩ := passes_inside caches small positive kept passes
    refine ⟨inside.written, fun s' last => ?_⟩
    -- The last pass changes at most what is in memory of the table.
    obtain ⟨cache', -, pass⟩ := @dumpPass_eq _ _ _ maxListNumber _ caches' small
    rw [last, if_pos inside.present] at pass
    split at pass
    · cases pass
      exact (DumpState.Inside.mk inside.present inside.written).finish _
    · split at pass <;> cases pass

/-- A walk inside the list that ends has ended at once. -/
theorem stops_of_run {pList : Nat → SizeL} {s : DumpState} (caches : p.Caches disk cache)
    (small : clr < 2 ^ 32)
    (inside : WalkInside disk p.toPartitionInfo clr maxListNumber (dumpStart clr pList cache))
    (result : Loop.run (dumpPass disk p.toPartitionInfo clr maxListNumber) fuel
      (dumpStart clr pList cache) = some s) : p.StopsAt disk clr := by
  -- The last pass is in a state inside the list, and there only an end of the chain stops it.
  obtain ⟨positive, kept⟩ := (walkInside_iff caches small).mp inside
  obtain ⟨k, s', -, passes, last⟩ := Loop.run_some result
  obtain ⟨caches', inside'⟩ := passes_inside caches small positive kept passes
  obtain ⟨cache', -, pass⟩ := @dumpPass_eq _ _ _ maxListNumber _ caches' small
  rw [last, if_pos inside'.present] at pass
  split at pass
  · assumption
  · split at pass <;> cases pass

/-- A walk that ends at once leaves one entry, of the first cluster and with a size of one cluster. -/
theorem run_stops {pList : Nat → SizeL} (caches : p.Caches disk cache) (small : clr < 2 ^ 32)
    (positive : 0 < maxListNumber) (stops : p.StopsAt disk clr) {s : DumpState}
    (result : Loop.run (dumpPass disk p.toPartitionInfo clr maxListNumber) (fuel + 1)
      (dumpStart clr pList cache) = some s) :
    (dumpFinish p.toPartitionInfo s).entries = p.listedFor (some clr) := by
  obtain ⟨cache', pass⟩ := @dumpPass_stops _ _ _ maxListNumber (dumpStart clr pList cache) caches
    small positive stops
  rw [Loop.run, pass] at result
  -- One entry is left: the first cluster, with a count of one.
  cases result
  have sectors : clr * p.sectorsPerClr < 2 ^ 64 :=
    Nat.lt_of_lt_of_le (Nat.mul_lt_mul'' small p.clusterBytes.2) (by decide)
  have single : clusterSectors p.toPartitionInfo ⟨clr, 1⟩
      = ⟨clr * p.sectorsPerClr, p.sectorsPerClr⟩ := by
    have narrow := p.clusterBytes.2
    rw [clusterSectors, Nat.one_mul, u64_eq sectors, u32_eq (by omega)]
  exact congrArg (fun e => [e]) single

end Walk

/-! ### The whole function -/

section Dump

variable {c : DumpCall} {n : Name83} {r : DumpResult} {found : Option Nat}

/-- The search of the root directory needs a pass. -/
theorem findItem_zero (disk : Image) (p : PartitionInfo) (fileName : Bytes) (fatbuffer buf : Image) :
    findItem 0 disk p fileName fatbuffer buf = none := by
  unfold findItem
  dsimp only
  split <;> rfl

/-- A call that ends and keeps inside the list returns one entry, or none without an item. -/
theorem dump_looks (inside : ∀ fuel item cache,
      findItem fuel disk p.toPartitionInfo n.text c.fatbuffer c.buf = some (some item, cache) →
        WalkInside disk p.toPartitionInfo (item.firstCluster p.toPartitionInfo) c.maxListNumber
          (dumpStart (item.firstCluster p.toPartitionInfo) c.pList cache))
    (result : c.dump fuel disk p.toPartitionInfo n = some r) :
    ∃ found, c.Looks disk p n found ∧ (∀ clr ∈ found, p.StopsAt disk clr)
      ∧ r.entries = p.listedFor found := by
  unfold DumpCall.dump dumpFileSectorListFAT at result
  -- The search has an item or it has none; with one, the walk must have ended at once.
  split at result
  · cases result
  · rename_i cache look
    cases result
    exact ⟨none, ⟨fuel, none, cache, look, rfl⟩, fun clr mem => (by cases mem), rfl⟩
  · rename_i item cache look
    have caches := findItem_caches look
    have small := item.firstCluster_lt p.toPartitionInfo
    obtain ⟨s, run, rfl⟩ := Option.map_eq_some_iff.mp result
    have within := inside fuel item cache look
    have stops := stops_of_run caches small within run
    refine ⟨some (item.firstCluster p.toPartitionInfo), ⟨fuel, some item, cache, look, rfl⟩, ?_, ?_⟩
    · rintro clr mem
      cases mem
      exact stops
    · cases fuel with
      | zero => cases run
      | succ fuel => exact run_stops caches small ((walkInside_iff caches small).mp within).1 stops run

/-- Where the walk ends at once the call returns that entry. -/
theorem dump_of_looks (looks : c.Looks disk p n found) (stops : ∀ clr ∈ found, p.StopsAt disk clr)
    (room : ∀ clr ∈ found, 0 < c.maxListNumber) :
    ∃ fuel r, c.dump fuel disk p.toPartitionInfo n = some r ∧ r.entries = p.listedFor found := by
  obtain ⟨fuel, item, cache, look, rfl⟩ := looks
  -- The same two cases, and the walk of an item needs one pass.
  unfold DumpCall.dump dumpFileSectorListFAT
  cases item with
  | none =>
    refine ⟨fuel, ⟨0, c.pList, []⟩, ?_, rfl⟩
    rw [look]
  | some item =>
    have caches := findItem_caches look
    have small := item.firstCluster_lt p.toPartitionInfo
    have stops' := stops _ rfl
    have positive := room _ rfl
    obtain ⟨cache', pass⟩ := @dumpPass_stops _ _ _ c.maxListNumber
      (dumpStart (item.firstCluster p.toPartitionInfo) c.pList cache) caches small positive stops'
    cases fuel with
    | zero =>
      rw [findItem_zero] at look
      cases look
    | succ fuel =>
      have run : Loop.run (dumpPass disk p.toPartitionInfo (item.firstCluster p.toPartitionInfo)
          c.maxListNumber) (fuel + 1) (dumpStart (item.firstCluster p.toPartitionInfo) c.pList cache)
          = some { dumpStart (item.firstCluster p.toPartitionInfo) c.pList cache with
              cache := cache' } := by
        rw [Loop.run, pass]
      refine ⟨fuel + 1, _, ?_, run_stops caches small positive stops' run⟩
      rw [look]
      dsimp only
      rw [run]
      rfl

/-- What the function lists exactly meets the conditions. -/
theorem DumpsExactly.fits (exact_ : DumpsExactly c disk p n) : DumpFits c disk p n := by
  -- Each condition is read off the run that the property gives.
  refine ⟨?_, ?_, ?_⟩
  · rintro clr ⟨fuel, item, cache, look, is⟩
    cases item with
    | none => cases is
    | some item =>
      cases is
      exact (walkInside_iff (findItem_caches look) (item.firstCluster_lt _)).mp
        (exact_.inside fuel item cache look)
  · intro first clusters at_ chain
    obtain ⟨fuel, r, result, entries⟩ := exact_.listed first clusters at_ chain
    obtain ⟨found, looks, stops, listed⟩ := dump_looks exact_.inside result
    exact ⟨found, looks, stops, by rw [← listed, entries]⟩
  · intro first at_ cyclic
    obtain ⟨fuel, ends⟩ := exact_.ends first at_ cyclic
    obtain ⟨r, result⟩ := Option.ne_none_iff_exists'.mp ends
    obtain ⟨found, looks, stops, -⟩ := dump_looks exact_.inside result
    exact ⟨found, looks, stops⟩

/-- Under the conditions the function lists exactly. -/
theorem DumpFits.exact (fits : DumpFits c disk p n) : DumpsExactly c disk p n := by
  -- Room for an entry is known of whatever the search comes to.
  have room : ∀ found, c.Looks disk p n found → ∀ clr ∈ found, 0 < c.maxListNumber := by
    rintro - looks clr rfl
    exact (fits.room clr looks).1
  refine ⟨?_, ?_, ?_⟩
  · intro first clusters at_ chain
    obtain ⟨found, looks, stops, listed⟩ := fits.listed first clusters at_ chain
    obtain ⟨fuel, r, result, entries⟩ := dump_of_looks looks stops (room found looks)
    exact ⟨fuel, r, result, by rw [entries, listed]⟩
  · intro first at_ cyclic
    obtain ⟨found, looks, stops⟩ := fits.ends first at_ cyclic
    obtain ⟨fuel, r, result, -⟩ := dump_of_looks looks stops (room found looks)
    exact ⟨fuel, by rw [result]; exact Option.some_ne_none r⟩
  · intro fuel item cache look
    exact (walkInside_iff (findItem_caches look) (item.firstCluster_lt _)).mpr
      (fits.room _ ⟨fuel, some item, cache, look, rfl⟩)

/-- The list of a file is right just when the walk never has to go further than the first cluster. -/
theorem dumpFileSectorListFAT_exact_iff (c : DumpCall) (disk : Image) (p : FatPartition)
    (n : Name83) : DumpsExactly c disk p n ↔ DumpFits c disk p n :=
  ⟨fun exact_ => exact_.fits, fun fits => fits.exact⟩

end Dump

/-! ### A file that is found where it is -/

section Found

variable {c : DumpCall} {n : Name83} {first fuel' passes passes' : Nat}

/-- More passes than the search of some sectors needs do not change what it finds. -/
theorem searchSectors_mono {total sector : Nat} {buf : Image} {result : Option DirItem × Image}
    (le : fuel ≤ fuel') (le' : passes ≤ passes')
    (found : searchSectors fuel disk fileName passes total sector buf = some result) :
    searchSectors fuel' disk fileName passes' total sector buf = some result := by
  -- Both runs take the same passes, and each piece is searched with the same outcome.
  induction passes generalizing passes' total sector buf with
  | zero => cases found
  | succ passes ih =>
    obtain ⟨more, rfl⟩ : ∃ more, passes' = more + 1 := ⟨passes' - 1, by omega⟩
    rw [searchSectors] at found ⊢
    split at found
    · rename_i ended
      rw [if_pos ended]
      exact found
    · rename_i open_
      rw [if_neg open_]
      dsimp only at found ⊢
      split at found
      · cases found
      · rename_i pos place
        rw [getDirectoryItem_mono le place]
        exact found
      · rename_i vain
        rw [getDirectoryItem_mono le vain]
        exact ih (by omega) found

/-- More passes than the search of the clusters needs do not change what it finds. -/
theorem searchClusters_mono {clr : Nat} {buf : Image} {result : Option DirItem × FatCache}
    (le : fuel ≤ fuel') (le' : passes ≤ passes')
    (found : searchClusters fuel disk p.toPartitionInfo fileName passes clr cache buf = some result) :
    searchClusters fuel' disk p.toPartitionInfo fileName passes' clr cache buf = some result := by
  -- Both runs take the same passes, and each cluster is searched with the same outcome.
  induction passes generalizing passes' clr cache buf with
  | zero => cases found
  | succ passes ih =>
    obtain ⟨more, rfl⟩ : ∃ more, passes' = more + 1 := ⟨passes' - 1, by omega⟩
    rw [searchClusters] at found ⊢
    split at found
    · rename_i ended
      rw [if_pos ended]
      exact found
    · rename_i open_
      rw [if_neg open_]
      dsimp only at found ⊢
      split at found
      · cases found
      · rename_i item buf' place
        rw [searchSectors_mono le le place]
        exact found
      · rename_i buf' vain
        rw [searchSectors_mono le le vain]
        exact ih (by omega) found

/-- More passes than the search of the root directory needs do not change what it finds. -/
theorem findItem_mono {fatbuffer buf : Image} {result : Option DirItem × FatCache}
    (le : fuel ≤ fuel')
    (found : findItem fuel disk p.toPartitionInfo fileName fatbuffer buf = some result) :
    findItem fuel' disk p.toPartitionInfo fileName fatbuffer buf = some result := by
  unfold findItem at found ⊢
  dsimp only at found ⊢
  split at found
  · rename_i sixteen
    rw [if_pos sixteen]
    split at found
    · cases found
    · rename_i item buf' place
      rw [searchSectors_mono le le place]
      exact found
  · rename_i other
    rw [if_neg other]
    exact searchClusters_mono le le found

/-- The search comes to one outcome. -/
theorem DumpCall.Looks.unique {found found' : Option Nat} (looks : c.Looks disk p n found)
    (looks' : c.Looks disk p n found') : found = found' := by
  obtain ⟨fuel, item, cache, look, rfl⟩ := looks
  obtain ⟨fuel', item', cache', look', rfl⟩ := looks'
  have one := findItem_mono (Nat.le_add_right fuel fuel') look
  rw [findItem_mono (Nat.le_add_left fuel' fuel) look'] at one
  cases one
  rfl

/-- The walk goes further than a cluster that another one or an end mark follows. -/
theorem not_stopsAt (low : first < chainLimit p.toPartitionInfo)
    (follows : p.nextCluster disk first ≠ 0) : ¬ p.StopsAt disk first := by
  -- Neither reason to stop is there: the number is low, and the entry is not zero.
  rintro (high | zero)
  · omega
  · apply follows
    unfold FatPartition.nextCluster
    rw [zero]
    split <;> rfl

/-- A cluster of a chain has no zero in the table. -/
theorem FatPartition.Chain.next_ne_zero {clusters : List Nat} (chain : p.Chain disk first clusters) :
    p.nextCluster disk first ≠ 0 := by
  -- Zero is no end mark, and no chain starts there.
  intro zero
  cases chain with
  | last _ ended => omega
  | link _ later =>
    rw [zero] at later
    cases later with
    | last inside _ => exact absurd inside.1 (by decide)
    | link inside _ => exact absurd inside.1 (by decide)

/--
A file is never listed when its own first cluster is what the search comes to.

The walk asks for the entry of that cluster again and again, whatever the chain is.
-/
theorem dump_found_never (looks : c.Looks disk p n (some first)) (at_ : p.FileAt disk n first)
    (low : first < chainLimit p.toPartitionInfo)
    (file : (∃ clusters, p.Chain disk first clusters) ∨ p.Cyclic disk first) :
    ¬ DumpsExactly c disk p n := by
  intro exact_
  have fits := exact_.fits
  -- The walk would have to stop at the first cluster, and it does not.
  rcases file with ⟨clusters, chain⟩ | cyclic
  · obtain ⟨found, looks', stops, -⟩ := fits.listed first clusters at_ (Or.inr chain)
    rw [← looks.unique looks'] at stops
    exact not_stopsAt low chain.next_ne_zero (stops first rfl)
  · obtain ⟨found, looks', stops⟩ := fits.ends first at_ cyclic
    rw [← looks.unique looks'] at stops
    refine not_stopsAt low (fun zero => ?_) (stops first rfl)
    have next : 2 ≤ p.nextCluster disk first := (cyclic 1).1
    omega

end Found

/-! ### A volume with one file of one cluster -/

/-- Four sectors: the boot sector, the table, the root directory and the cluster 2. -/
def oneFileVolume : FatPartition where
  partitionType := FAT16
  totalSectors := 4
  firstFatSector := 1
  sectorsPerFAT := 1
  fatCopies := 1
  rootSectors := 1
  sectorsPerClr := 1
  fat := Or.inl rfl
  reserved := by decide
  rootDirectory := by decide
  clusterBytes := by decide
  place := by decide

/-- The name `HIBERFIL.SYS`. -/
def nameHiberfil : Name83 where
  base := [0x48, 0x49, 0x42, 0x45, 0x52, 0x46, 0x49, 0x4c]
  extension := [0x53, 0x59, 0x53]
  some_ := by simp
  base_short := by decide
  extension_short := by decide
  plain := by simp

/-- The table begins with the media byte and two end marks; the file's entry says the cluster 2. -/
def oneFileDisk : Image := fun i =>
  if i = 512 then 0xf8
  else if 512 < i ∧ i < 518 then 0xff
  else if 1024 ≤ i ∧ i < 1035 then nameHiberfil.padded.getD (i - 1024) 0
  else if i = 1050 then 0x02
  else 0

/-- The list has the room that `GetUnusedDataList` gives it. -/
def oneFileCall : DumpCall := ⟨fun _ => 0, fun _ => 0, fun _ => ⟨0, 0⟩, 0x10000 / 12⟩

/-- The item of the file is found, but not its first cluster: the walk of cluster 0 leaves the list. -/
theorem dump_writesPast : ¬ DumpsExactly oneFileCall oneFileDisk oneFileVolume nameHiberfil := by
  intro exact_
  -- The item is the first one of the directory, and at 34 it has a byte of the next one.
  have place : getDirectoryItem 1 nameHiberfil.text (diskRead oneFileDisk 2 1 fun _ => 0) 512
      = some (some 0) := by decide
  have found : searchSectors 1 oneFileDisk nameHiberfil.text 1 1 2 (fun _ => 0)
      = some (some ⟨diskRead oneFileDisk 2 1 fun _ => 0, 0⟩, diskRead oneFileDisk 2 1 fun _ => 0) := by
    have count : (if 1 > DIRECTORY_SECTORS then DIRECTORY_SECTORS else 1) = 1 := by decide
    rw [searchSectors, if_neg (by decide), count]
    dsimp only [SECTOR_SIZE]
    rw [place]
  have look : oneFileCall.Looks oneFileDisk oneFileVolume nameHiberfil (some 0) := by
    refine ⟨1, some ⟨diskRead oneFileDisk 2 1 fun _ => 0, 0⟩, ⟨0, 0, fun _ => 0⟩, ?_, by decide⟩
    have sector : u64 (oneFileVolume.bootBegin + oneFileVolume.fatEnd) = 2 := by decide
    have sixteen : oneFileVolume.partitionType = FAT16 := rfl
    have root : oneFileVolume.rootSectors = 1 := rfl
    have buf : oneFileCall.buf = fun _ => 0 := rfl
    rw [findItem, if_pos sixteen, sector, root, buf, found]
    rfl
  -- The entry of cluster 0 is the media byte: neither zero nor the number 1.
  have room := (exact_.fits.room 0 look).2
  exact absurd room (by decide)

end Okr
