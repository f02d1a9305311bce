import Okr.Backup.UnusedList
import Okr.Scan.Directory

/-! The sectors of a file on a FAT volume, as `DumpFileSectorListFAT` lists them. -/

namespace Okr

/-- The end of a chain, as the search of the root directory knows it. -/
def FAT32_EOF : Nat := 0x0FFFFFFF

/-- Sectors of a directory that are loaded at a time. -/
def DIRECTORY_SECTORS : Nat := 0x8000 / SECTOR_SIZE

/-- `RootDirClr` has the place of `RootSectors` in the record. -/
def PartitionInfo.rootDirClr (p : PartitionInfo) : Nat := p.rootSectors

/-- The sectors in front of the root directory or of the clusters, in 32 bits. -/
def PartitionInfo.fatEnd (p : PartitionInfo) : Nat :=
  u32 (p.firstFatSector + u32 (p.sectorsPerFAT * p.fatCopies))

/-! ### The allocation table -/

/-- The sectors of the table in memory: `g_FatLoadedSector`, `g_FatLoadedCount` and `g_FatBuffer`. -/
structure FatCache where
  loadedSector : Nat
  loadedCount : Nat
  buffer : Image

/-- `GetFatTable`: the sectors in memory, with one of the table, and where in the buffer it is. -/
def getFatTable (disk : Image) (p : PartitionInfo) (cache : FatCache) (fatSector : Nat) :
    FatCache × Nat :=
  let offset := u32 (sub64 fatSector cache.loadedSector)
  if offset ≥ cache.loadedCount then
    ({ loadedSector := fatSector
       loadedCount := 128
       buffer := diskRead disk (u64 (fatSector + p.bootBegin)) 128 cache.buffer }, 0)
  else (cache, offset * SECTOR_SIZE)

/-- `GetNextClusterNumber`: the entry of a cluster in the table. -/
def getNextClusterNumber (disk : Image) (p : PartitionInfo) (cache : FatCache) (cluster : Nat) :
    FatCache × Nat :=
  if p.partitionType = FAT16 then
    let (cache, at_) := getFatTable disk p cache (u32 (cluster / 256 + p.firstFatSector))
    (cache, le16 cache.buffer (at_ + 2 * (cluster % 256)))
  else
    let (cache, at_) := getFatTable disk p cache (u32 (cluster / 128 + p.firstFatSector))
    (cache, le32 cache.buffer (at_ + 4 * (cluster % 128)))

/-! ### The item of the file -/

/-- An item of a directory: the buffer, and where the item is in it. -/
structure DirItem where
  buffer : Image
  pos : Nat

/--
The first cluster in an item.

Behind the pointer in the structure `firstclr_hi` is at 28 and `firstclr` at 34.
-/
def DirItem.firstCluster (item : DirItem) (p : PartitionInfo) : Nat :=
  if p.partitionType = FAT16 then le16 item.buffer (item.pos + 34)
  else u32 (le16 item.buffer (item.pos + 28) * 2 ^ 16 + le16 item.buffer (item.pos + 34))

/-- The search of sectors of the root directory: the item, if there is one, and the buffer. -/
def searchSectors (fuel : Nat) (disk : Image) (fileName : Bytes) :
    Nat → Nat → Nat → Image → Option (Option DirItem × Image)
  | 0, _, _, _ => none
  | passes + 1, total, sector, buf =>
    if total = 0 then some (none, buf)
    else
      let count := if total > DIRECTORY_SECTORS then DIRECTORY_SECTORS else total
      let buf := diskRead disk sector count buf
      match getDirectoryItem fuel fileName buf (count * SECTOR_SIZE) with
      | none => none
      | some (some pos) => some (some ⟨buf, pos⟩, buf)
      | some none => searchSectors fuel disk fileName passes (total - count) (u64 (sector + count)) buf

/-- The search of the root directory of a FAT32 volume, cluster by cluster. -/
def searchClusters (fuel : Nat) (disk : Image) (p : PartitionInfo) (fileName : Bytes) :
    Nat → Nat → FatCache → Image → Option (Option DirItem × FatCache)
  | 0, _, _, _ => none
  | passes + 1, clr, cache, buf =>
    if clr = 0 ∨ clr = FAT32_EOF then some (none, cache)
    else
      let sector := u64 (u64 (p.bootBegin + p.fatEnd) + u32 (sub32 clr 2 * p.sectorsPerClr))
      match searchSectors fuel disk fileName fuel p.sectorsPerClr sector buf with
      | none => none
      | some (some item, _) => some (some item, cache)
      | some (none, buf) =>
        let (cache, next) := getNextClusterNumber disk p cache clr
        searchClusters fuel disk p fileName passes next cache buf

/-- The search of the root directory for the item of a file; nothing when it never ends. -/
def findItem (fuel : Nat) (disk : Image) (p : PartitionInfo) (fileName : Bytes) (fatbuffer buf : Image) :
    Option (Option DirItem × FatCache) :=
  let cache : FatCache := ⟨0, 0, fatbuffer⟩
  if p.partitionType = FAT16 then
    match searchSectors fuel disk fileName fuel p.rootSectors (u64 (p.bootBegin + p.fatEnd)) buf with
    | none => none
    | some (item, _) => some (item, cache)
  else searchClusters fuel disk p fileName fuel p.rootDirClr cache buf

/-! ### The list -/

/-- The variables of the loop over the clusters, and the numbers of the list entries written to. -/
structure DumpState where
  listcount : Nat
  count : Nat
  pList : Nat → SizeL
  written : List Nat
  cache : FatCache

/-- Store the beginning of an entry of the list. -/
def DumpState.setBegin (s : DumpState) (k clr : Nat) : DumpState :=
  { s with
    pList := fun i => if i = k then { s.pList i with start := clr } else s.pList i
    written := k :: s.written }

/-- Store the size of an entry of the list. -/
def DumpState.setNumber (s : DumpState) (k count : Nat) : DumpState :=
  { s with
    pList := fun i => if i = k then { s.pList i with number := count } else s.pList i
    written := k :: s.written }

/-- The cluster number from which on the loop takes a cluster for an end mark. -/
def chainLimit (p : PartitionInfo) : Nat := if p.partitionType = FAT16 then 0xfff0 else 0x0ffffff0

/-- The loop ends at a cluster with this entry in the table. -/
def chainStops (p : PartitionInfo) (clr nextclr : Nat) : Prop := clr ≥ chainLimit p ∨ nextclr = 0

instance (p : PartitionInfo) (clr nextclr : Nat) : Decidable (chainStops p clr nextclr) :=
  inferInstanceAs (Decidable (_ ∨ _))

/-- One pass of the loop over the clusters; `listcount` has 16 bits, and `clr` stays as it is. -/
def dumpPass (disk : Image) (p : PartitionInfo) (clr maxListNumber : Nat) (s : DumpState) :
    Loop.Pass DumpState DumpState :=
  if s.listcount < maxListNumber then
    let (cache, nextclr) := getNextClusterNumber disk p s.cache clr
    let s := { s with cache := cache }
    if chainStops p clr nextclr then .done s
    else if nextclr = u32 (clr + 1) then .next { s with count := u32 (s.count + 1) }
    else
      let listcount := (s.listcount + 1) % 2 ^ 16
      .next { (s.setNumber s.listcount s.count).setBegin listcount clr with
        listcount := listcount
        count := 1 }
  else .done s

/-- The variables in front of the loop. -/
def dumpStart (clr : Nat) (pList : Nat → SizeL) (cache : FatCache) : DumpState :=
  DumpState.setBegin ⟨0, 1, pList, [], cache⟩ 0 clr

/-- What the function returns, and the list with the entries written to. -/
structure DumpResult where
  listcount : Nat
  pList : Nat → SizeL
  written : List Nat

/-- Clusters become sectors. -/
def clusterSectors (p : PartitionInfo) (e : SizeL) : SizeL :=
  ⟨u64 (e.start * p.sectorsPerClr), u32 (e.number * p.sectorsPerClr)⟩

/-- The steps behind the loop: the last size, and the sectors in place of the clusters. -/
def dumpFinish (p : PartitionInfo) (s : DumpState) : DumpResult :=
  let s := s.setNumber s.listcount s.count
  let listcount := (s.listcount + 1) % 2 ^ 16
  { listcount := listcount
    pList := fun i => if i < listcount then clusterSectors p (s.pList i) else s.pList i
    written := List.range listcount ++ s.written }

/-- `DumpFileSectorListFAT`: nothing when it never ends. -/
def dumpFileSectorListFAT (fuel : Nat) (disk : Image) (p : PartitionInfo) (fileName : Bytes)
    (fatbuffer buf : Image) (pList : Nat → SizeL) (maxListNumber : Nat) : Option DumpResult :=
  match findItem fuel disk p fileName fatbuffer buf with
  | none => none
  | some (none, _) => some ⟨0, pList, []⟩
  | some (some item, cache) =>
    let clr := item.firstCluster p
    (Loop.run (dumpPass disk p clr maxListNumber) fuel (dumpStart clr pList cache)).map (dumpFinish p)

end Okr
