import Okr.Scan.Scan

/-! Where a FAT volume keeps its data, and what the scan must mark of it. -/

namespace Okr

open Blocks (Extent)

/-- The two FAT file systems that are scanned. -/
inductive FatKind where
  | fat16
  | fat32
  deriving DecidableEq, Repr

namespace FatKind

/-- The kind as the scan loop names it. -/
def scanKind : FatKind → ScanKind
  | .fat16 => .fat16
  | .fat32 => .fat32

/-- The partition type of the kind. -/
def type : FatKind → Nat
  | .fat16 => FAT16
  | .fat32 => FAT32

/-- Sectors of one copy of the allocation table. -/
def tableSectors (kind : FatKind) (boot : Image) : Nat :=
  match kind with
  | .fat16 => secPerFat boot
  | .fat32 => bigSecPerFat boot

/-- Sectors of a root directory in front of the clusters, begun ones included. -/
def rootDirectory (kind : FatKind) (boot : Image) : Nat :=
  match kind with
  | .fat16 => (rootEntry boot * 32 + 511) / 512
  | .fat32 => 0

/-- The sectors in front of the clusters: reserved ones, all copies of the table, root directory. -/
def dataStart (kind : FatKind) (boot : Image) : Nat :=
  resSec boot + numOfFat boot * kind.tableSectors boot + kind.rootDirectory boot

/-- The sectors of a cluster; the first one has number 2. -/
def clusterExtent (kind : FatKind) (boot : Image) (n : Nat) : Extent :=
  ⟨kind.dataStart boot + (n - 2) * secPerClr boot, secPerClr boot⟩

end FatKind

/-- The sectors of a volume: the 16-bit field when it is used, otherwise the 32-bit one. -/
def fatTotalSectors (boot : Image) : Nat :=
  if totalSec boot ≠ 0 then totalSec boot else bigTotalSec boot

/-- A boot sector that announces a volume of this kind, in the disk's own sectors. -/
structure FatVolume (kind : FatKind) (boot : Image) (p : PartitionInfo) : Prop where
  announced : announcedType boot p = kind.type
  /-- The boot sector itself is reserved. -/
  reserved : 0 < resSec boot
  inside : kind.dataStart boot ≤ fatTotalSectors boot

/-- The number of a cluster of the volume that has an entry in the table. -/
def FatCluster (kind : FatKind) (boot : Image) (n : Nat) : Prop :=
  2 ≤ n ∧ (kind.clusterExtent boot n).stop ≤ fatTotalSectors boot
    ∧ n * kind.scanKind.fatSize < kind.tableSectors boot * SECTOR_SIZE

/-- The entry of a cluster in the first copy of the table is not zero. -/
def FatUsed (kind : FatKind) (boot disk : Image) (p : PartitionInfo) (n : Nat) : Prop :=
  let entry := (p.bootBegin + resSec boot) * SECTOR_SIZE + n * kind.scanKind.fatSize
  match kind with
  | .fat16 => le16 disk entry ≠ 0
  | .fat32 => le32 disk entry ≠ 0

/-- The blocks of everything in front of the clusters and of every used cluster are marked. -/
def FatMarked (kind : FatKind) (boot disk : Image) (p : PartitionInfo) (bytes : Bytes) : Prop :=
  (∀ b, (⟨0, kind.dataStart boot⟩ : Extent).Meets BLOCK_SIZE b → readBit b bytes)
    ∧ ∀ n, FatCluster kind boot n → FatUsed kind boot disk p n →
        ∀ b, (kind.clusterExtent boot n).Meets BLOCK_SIZE b → readBit b bytes

/-- What the scan asks for whatever the table holds. -/
def fixedRequests (kind : FatKind) (boot : Image) : List Extent :=
  match kind with
  | .fat16 => [⟨0, u32 (resSec boot + secPerFat boot * 2 + 32)⟩]
  | .fat32 => [⟨0, resSec boot⟩, ⟨resSec boot, u32 (bigSecPerFat boot * 2)⟩]

/-- Where the scan takes the clusters to start: behind two copies of the table, and 32 sectors. -/
def assumedStart (kind : FatKind) (boot : Image) : Nat :=
  match kind with
  | .fat16 => u32 (resSec boot + secPerFat boot * 2 + 32)
  | .fat32 => u32 (resSec boot + bigSecPerFat boot * 2)

/-- What the scan asks for when a cluster is used, as far as the 32-bit size field reaches. -/
def assumedRequests (kind : FatKind) (boot : Image) (n : Nat) : List Extent :=
  if (n - 2) * secPerClr boot ≤ bigTotalSec boot then
    [⟨assumedStart kind boot + (n - 2) * secPerClr boot, secPerClr boot⟩]
  else []

/-- A request that is not excluded touches the block. -/
def Shown (unused requests : List Extent) (block : Nat) : Prop :=
  ∃ e ∈ requests, excluded unused e = false ∧ Touches e block

/--
The places the scan assumes stand for the true ones.

This is a condition on the geometry and the excluded extents only: it asks nothing of the table.
-/
def FatPlaced (kind : FatKind) (boot : Image) (unused : List Extent) : Prop :=
  (∀ b, (⟨0, kind.dataStart boot⟩ : Extent).Meets BLOCK_SIZE b →
      Shown unused (fixedRequests kind boot) b)
    ∧ ∀ n, FatCluster kind boot n → ∀ b, (kind.clusterExtent boot n).Meets BLOCK_SIZE b →
        Shown unused (fixedRequests kind boot ++ assumedRequests kind boot n) b

end Okr
