import Okr.Proofs.ScanLoop
import Okr.Scan.FatVolume

/-! The scan of a FAT volume marks its data exactly when the places it assumes stand for the true ones. -/

namespace Okr

open Blocks (Extent)

/-! ### The record of a FAT volume -/

/-- A byte that is a power of two is at most 128. -/
theorem secPerClr_le {n : Nat} (byte : n < 256) (power : n &&& (n - 1) = 0) : n ≤ 128 := by
  have all : ∀ m < 256, m &&& (m - 1) = 0 → m ≤ 128 := by decide +kernel
  exact all n byte power

/-- A boot sector that passes for a FAT volume has clusters of 1 to 128 sectors. -/
theorem announced_spc {boot : Image} {p : PartitionInfo} {kind : FatKind}
    (announced : announcedType boot p = kind.type) :
    0 < secPerClr boot ∧ secPerClr boot ≤ 128 := by
  have byte : secPerClr boot < 256 := (boot 13).toNat_lt
  -- Neither the unused type nor the one of Linux is that of a FAT volume.
  have notUnused : kind.type ≠ PARTITION_UNUSED := by cases kind <;> decide
  have notLinux : kind.type ≠ PARTITION_LINUX := by cases kind <;> decide
  by_cases power : secPerClr boot &&& (secPerClr boot - 1) = 0
  · refine ⟨?_, secPerClr_le byte power⟩
    by_contra none_
    have zero : secPerClr boot = 0 := by omega
    have unused : announcedType boot p = PARTITION_UNUSED
        ∨ announcedType boot p = PARTITION_LINUX := by
      simp only [announcedType, checkedType, zero, or_true, if_true, ite_self]
      split
      · exact Or.inr rfl
      · exact Or.inl rfl
    rcases unused with unused | linux
    · exact notUnused (announced.symm.trans unused)
    · exact notLinux (announced.symm.trans linux)
  · exfalso
    have unused : announcedType boot p = PARTITION_UNUSED
        ∨ announcedType boot p = PARTITION_LINUX := by
      simp only [announcedType, checkedType, ne_eq, power, not_false_eq_true, if_true]
      split
      · exact Or.inr rfl
      · exact Or.inl rfl
    rcases unused with unused | linux
    · exact notUnused (announced.symm.trans unused)
    · exact notLinux (announced.symm.trans linux)

/-- What the record of a FAT volume says of it. -/
structure FatRecord (kind : FatKind) (boot : Image) (p : PartitionInfo) : Prop where
  type : p.partitionType = kind.type
  totalSectors : p.totalSectors = bigTotalSec boot
  firstFatSector : p.firstFatSector = resSec boot
  sectorsPerFAT : p.sectorsPerFAT = kind.tableSectors boot
  sectorsPerClr : p.sectorsPerClr = secPerClr boot

/-- The record of a FAT volume is filled from its parameter block. -/
theorem fatRecord {kind : FatKind} {boot : Image} {p₀ p : PartitionInfo}
    (volume : FatVolume kind boot p₀) (checked : checkPartitionType boot p₀ = some p) :
    FatRecord kind boot p := by
  have spc := announced_spc volume.announced
  have announced := volume.announced
  unfold checkPartitionType at checked
  split at checked
  · simp at checked
  · simp only [Option.some.injEq, announced] at checked
    subst checked
    cases kind with
    | fat16 =>
      have few : ¬ secPerClr boot > 128 := by omega
      exact ⟨by simp [FatKind.type, fat16Geometry, few, FAT16, NTFS, FAT32],
        by simp [FatKind.type, fat16Geometry, few, FAT16, NTFS, FAT32],
        by simp [FatKind.type, fat16Geometry, few, FAT16, NTFS, FAT32],
        by simp [FatKind.type, fat16Geometry, few, FAT16, NTFS, FAT32, FatKind.tableSectors],
        by simp [FatKind.type, fat16Geometry, few, FAT16, NTFS, FAT32]⟩
    | fat32 =>
      exact ⟨by simp [FatKind.type, fat32Geometry, NTFS, FAT32],
        by simp [FatKind.type, fat32Geometry, NTFS, FAT32],
        by simp [FatKind.type, fat32Geometry, NTFS, FAT32],
        by simp [FatKind.type, fat32Geometry, NTFS, FAT32, FatKind.tableSectors],
        by simp [FatKind.type, fat32Geometry, NTFS, FAT32]⟩

/-! ### What the scan asks for -/

/-- The table of a volume has fewer than 2^32 sectors. -/
theorem tableSectors_lt (kind : FatKind) (boot : Image) : kind.tableSectors boot < 2 ^ 32 := by
  cases kind with
  | fat16 => exact Nat.lt_trans (le16_lt boot 22) (by decide)
  | fat32 => exact le32_lt boot 36

/-- The set-up the scan loop gets for a FAT volume. -/
def fatSetup (kind : FatKind) (boot disk : Image) (p : PartitionInfo) : ScanSetup :=
  { kind := kind.scanKind
    disk := disk
    part := p
    databeginsector := assumedStart kind boot }

/-- The scan of a FAT volume asks for fixed places and then walks the table. -/
theorem scan_fat {kind : FatKind} {boot : Image} {p : PartitionInfo} (record : FatRecord kind boot p)
    (fuel : Nat) (disk : Image) (memory : ScanMemory) :
    scanPartitionData fuel disk memory p
      = (scanLoop (fatSetup kind boot disk p) fuel
          { total := kind.tableSectors boot
            fatSector := resSec boot + p.bootBegin
            buffer := memory.scanbuffer }).map
        fun list => .requests (fixedRequests kind boot ++ list) := by
  -- the partition type selects the branch, and the record fixes the fields it reads
  cases kind with
  | fat16 =>
    have type : p.partitionType = FAT16 := record.type
    have supported : isUnSupportedPartition FAT16 = false := by decide
    have table : p.sectorsPerFAT = secPerFat boot := record.sectorsPerFAT
    simp only [scanPartitionData, type, supported, Bool.false_eq_true, and_false, if_false, or_true,
      if_true, scanFat16, table, record.firstFatSector, Option.map_map, fatSetup, assumedStart,
      fixedRequests, FatKind.scanKind, FatKind.tableSectors]
    rfl
  | fat32 =>
    have type : p.partitionType = FAT32 := record.type
    have supported : isUnSupportedPartition FAT32 = false := by decide
    have table : p.sectorsPerFAT = bigSecPerFat boot := record.sectorsPerFAT
    have notFat16 : ¬ (FAT32 = FAT16_E ∨ FAT32 = FAT16) := by decide
    simp only [scanPartitionData, type, supported, Bool.false_eq_true, and_false, if_false, notFat16,
      true_or, if_true, scanFat32, table, record.firstFatSector, Option.map_map, fatSetup,
      assumedStart, fixedRequests, FatKind.scanKind, FatKind.tableSectors]
    rfl

/-- The loop walks the table of a FAT volume entry by entry. -/
theorem scanKind_fat (kind : FatKind) : kind.scanKind = .fat16 ∨ kind.scanKind = .fat32 := by
  cases kind
  · exact Or.inl rfl
  · exact Or.inr rfl

/-- An entry is used when the table says so. -/
theorem fatUsed_iff {kind : FatKind} {boot disk : Image} {p : PartitionInfo} (n : Nat) :
    entryAt kind.scanKind disk ((resSec boot + p.bootBegin) * SECTOR_SIZE + n * kind.scanKind.fatSize)
        = true
      ↔ FatUsed kind boot disk p n := by
  rw [Nat.add_comm (resSec boot)]
  cases kind with
  | fat16 => exact entryAt_fat16 _ _
  | fat32 => exact entryAt_fat32 _ _

/-- The entries the walk sees are those of the table. -/
theorem perSector_iff (kind : FatKind) (n sectors : Nat) :
    n < sectors * kind.scanKind.perSector ↔ n * kind.scanKind.fatSize < sectors * SECTOR_SIZE := by
  cases kind <;> simp only [FatKind.scanKind, ScanKind.perSector, ScanKind.fatSize, SECTOR_SIZE]
    <;> omega

/-- A used entry asks for the place the scan assumes for its cluster. -/
theorem usedRequest_fat {kind : FatKind} {boot : Image} {p : PartitionInfo}
    (record : FatRecord kind boot p) (disk : Image) (n : Nat) (e : Extent) :
    usedRequest (fatSetup kind boot disk p) n = some e ↔ 2 ≤ n ∧ e ∈ assumedRequests kind boot n := by
  have wide : ¬ kind.scanKind.fatSize = 1 := by cases kind <;> decide
  simp only [usedRequest, fatSetup, if_neg wide, record.sectorsPerClr, record.totalSectors,
    assumedRequests]
  by_cases second : 2 ≤ n
  · by_cases reach : (n - 2) * secPerClr boot ≤ bigTotalSec boot
    · simp [second, reach, eq_comm]
    · simp [reach]
  · simp [second]

/-- All requests of a scan: the fixed ones, and those of the used entries of the table. -/
theorem mem_scan_fat {kind : FatKind} {boot disk : Image} {p : PartitionInfo}
    (record : FatRecord kind boot p) {fuel : Nat} {memory : ScanMemory} {result : ScanResult}
    (scanned : scanPartitionData fuel disk memory p = some result) :
    ∃ list, result = .requests list ∧ ∀ e, e ∈ list ↔ e ∈ fixedRequests kind boot
      ∨ ∃ n, 2 ≤ n ∧ n * kind.scanKind.fatSize < kind.tableSectors boot * SECTOR_SIZE
          ∧ FatUsed kind boot disk p n ∧ e ∈ assumedRequests kind boot n := by
  rw [scan_fat record, Option.map_eq_some_iff] at scanned
  obtain ⟨walked, loop, rfl⟩ := scanned
  refine ⟨_, rfl, fun e => ?_⟩
  rw [List.mem_append, scanLoop_fat (s := fatSetup kind boot disk p) (scanKind_fat kind) rfl fuel _ _
    (tableSectors_lt kind boot) loop e]
  simp only [fatSetup, perSector_iff, Nat.zero_add, fatUsed_iff]
  have request := usedRequest_fat record disk
  simp only [fatSetup] at request
  simp only [request]
  constructor
  · rintro (fixed | ⟨n, below, used, second, mem⟩)
    · exact Or.inl fixed
    · exact Or.inr ⟨n, second, below, used, mem⟩
  · rintro (fixed | ⟨n, second, below, used, mem⟩)
    · exact Or.inl fixed
    · exact Or.inr ⟨n, below, used, second, mem⟩

/-- The scan of a FAT volume ends. -/
theorem scan_fat_ends {kind : FatKind} {boot : Image} {p : PartitionInfo}
    (record : FatRecord kind boot p) (disk : Image) (memory : ScanMemory) :
    ∃ result, scanPartitionData (kind.tableSectors boot) disk memory p = some result := by
  obtain ⟨list, loop⟩ := scanLoop_fat_ends (s := fatSetup kind boot disk p) (scanKind_fat kind) rfl
    (kind.tableSectors boot)
    { total := kind.tableSectors boot
      fatSector := resSec boot + p.bootBegin
      buffer := memory.scanbuffer }
    (tableSectors_lt kind boot) (Nat.le_refl _)
  rw [scan_fat record, loop]
  exact ⟨_, rfl⟩

/-! ### What the bitmap shows -/

/-- The bitmap buffer has room for every selected partition. -/
theorem bitmapBytes_le {parts : List PartitionInfo} {p : PartitionInfo} (mem : p ∈ parts)
    (selected : p.bIfBackup = true) : bitmapBytes p + ALGIN_SIZE_BYTE ≤ databitmapSize parts := by
  have least : ∀ (l : List Nat) (n : Nat), n ∈ l → n ≤ l.foldr max 0 := by
    intro l n mem
    induction l with
    | nil => simp at mem
    | cons a l ih =>
      rw [List.foldr_cons]
      rcases List.mem_cons.mp mem with rfl | mem
      · exact Nat.le_max_left _ _
      · exact Nat.le_trans (ih mem) (Nat.le_max_right _ _)
  have found := least _ _ (List.mem_map_of_mem (List.mem_filter.mpr ⟨mem, selected⟩) :
    bitmapBytes p ∈ (parts.filter (·.bIfBackup)).map bitmapBytes)
  unfold databitmapSize
  omega

/-- The bitmap before a scan. -/
def emptyBitmap (parts : List PartitionInfo) : Bitmap :=
  { bytes := List.replicate (databitmapSize parts) 0 }

/-- Starting from an empty bitmap, the bits set are those some request shows. -/
theorem readBit_scan (unused list : List Extent) (parts : List PartitionInfo) (b : Nat) :
    readBit b (scanBitmap unused (emptyBitmap parts) (.requests list)).bytes
      ↔ Shown unused list b ∧ b / 8 < databitmapSize parts := by
  have bits := (markAll_spec unused list (emptyBitmap parts)).2.2 b
  simp only [emptyBitmap, readBit_zeros, List.length_replicate, Bool.false_eq_true, false_or] at bits
  simp only [scanBitmap, emptyBitmap, Shown]
  rw [bits]
  constructor
  · rintro ⟨e, mem, kept, touches, inside⟩
    exact ⟨⟨e, mem, kept, touches⟩, inside⟩
  · rintro ⟨⟨e, mem, kept, touches⟩, inside⟩
    exact ⟨e, mem, kept, touches, inside⟩

/-- The blocks of a FAT volume lie in the bitmap buffer. -/
theorem fatBlock_inside {kind : FatKind} {boot : Image} {p : PartitionInfo}
    {parts : List PartitionInfo} (record : FatRecord kind boot p) (mem : p ∈ parts)
    (selected : p.bIfBackup = true) {e : Extent} (within : e.stop ≤ fatTotalSectors boot) {b : Nat}
    (meets : e.Meets BLOCK_SIZE b) : b / 8 < databitmapSize parts := by
  obtain ⟨x, ⟨-, high⟩, rfl⟩ := meets
  have room := bitmapBytes_le mem selected
  -- A 16-bit size fits the 4 KiB of alignment alone.
  have total : fatTotalSectors boot < 2 ^ 16 ∨ fatTotalSectors boot = bigTotalSec boot := by
    unfold fatTotalSectors
    split
    · exact Or.inl (le16_lt boot 19)
    · exact Or.inr rfl
  simp only [bitmapBytes, record.totalSectors, ALGIN_SIZE_BYTE, BLOCK_SIZE] at room ⊢
  omega

/-- A table with one used entry. -/
def oneUsed (kind : FatKind) (boot : Image) (p : PartitionInfo) (n : Nat) : Image := fun i =>
  if i = (p.bootBegin + resSec boot) * SECTOR_SIZE + n * kind.scanKind.fatSize then 1 else 0

/-- Only the one entry is used. -/
theorem fatUsed_oneUsed {kind : FatKind} {boot : Image} {p : PartitionInfo} {n m : Nat} :
    FatUsed kind boot (oneUsed kind boot p n) p m ↔ m = n := by
  cases kind with
  | fat16 =>
    simp only [FatUsed, FatKind.scanKind, ScanKind.fatSize, le16, oneUsed]
    by_cases same : m = n
    · subst same
      simp
    · have apart : ¬ m * 2 = n * 2 := by omega
      have odd : ¬ m * 2 + 1 = n * 2 := by omega
      simp [same, apart, odd, Nat.add_assoc]
  | fat32 =>
    simp only [FatUsed, FatKind.scanKind, ScanKind.fatSize, le32, le16, oneUsed]
    by_cases same : m = n
    · subst same
      simp
    · have apart : ¬ m * 4 = n * 4 := by omega
      have one : ¬ m * 4 + 1 = n * 4 := by omega
      have two : ¬ m * 4 + 2 = n * 4 := by omega
      have three : ¬ m * 4 + 3 = n * 4 := by omega
      simp [same, apart, one, two, three, Nat.add_assoc]

/-- A request that is not excluded shows the blocks it meets. -/
theorem shown_of_meets {list : List Extent} {e : Extent} (mem : e ∈ list) (fits : e.stop < 2 ^ 64)
    {b : Nat} (meets : e.Meets BLOCK_SIZE b) : Shown [] list b := by
  have some_ : 0 < e.number := by
    by_contra empty
    exact Extent.not_meets_empty (by omega) meets
  exact ⟨e, mem, rfl, (touches_iff some_ (Nat.le_of_lt fits)).mpr meets⟩

/-- The places are the true ones with two tables and, on FAT16, 512 entries in the root directory. -/
theorem fatPlaced_usual {kind : FatKind} {boot : Image} {p : PartitionInfo}
    (volume : FatVolume kind boot p) (copies : numOfFat boot = 2)
    (root : kind = .fat16 → kind.rootDirectory boot = 32) (wide : totalSec boot = 0) :
    FatPlaced kind boot [] := by
  have total : fatTotalSectors boot = bigTotalSec boot := by
    unfold fatTotalSectors
    rw [if_neg (by omega)]
  have below : bigTotalSec boot < 2 ^ 32 := le32_lt boot 32
  have inside := volume.inside
  rw [total] at inside
  have start : assumedStart kind boot = kind.dataStart boot
      ∧ Blocks.Covers (fixedRequests kind boot) ⟨0, kind.dataStart boot⟩
      ∧ ∀ e ∈ fixedRequests kind boot, e.stop < 2 ^ 64 := by
    cases kind with
    | fat16 =>
      have rootEq := root rfl
      simp only [FatKind.dataStart, FatKind.tableSectors, rootEq, copies] at inside ⊢
      have whole : u32 (resSec boot + secPerFat boot * 2 + 32)
          = resSec boot + 2 * secPerFat boot + 32 := by
        rw [u32_eq (by omega)]
        omega
      refine ⟨whole, fun x has => ⟨_, List.mem_singleton.mpr rfl, ?_⟩, fun e mem => ?_⟩
      · rw [whole]
        exact has
      · rw [List.mem_singleton.mp mem]
        simp only [Extent.stop, whole]
        omega
    | fat32 =>
      simp only [FatKind.dataStart, FatKind.tableSectors, FatKind.rootDirectory, copies] at inside ⊢
      have table : u32 (bigSecPerFat boot * 2) = bigSecPerFat boot * 2 := u32_eq (by omega)
      have whole : u32 (resSec boot + bigSecPerFat boot * 2)
          = resSec boot + 2 * bigSecPerFat boot + 0 := by
        rw [u32_eq (by omega)]
        omega
      refine ⟨whole, fun x has => ?_, fun e mem => ?_⟩
      · -- The reserved sectors and the tables lie next to each other.
        simp only [Extent.Has, Extent.stop] at has
        by_cases front : x < resSec boot
        · exact ⟨⟨0, resSec boot⟩, by simp [fixedRequests], by simp only [Extent.Has, Extent.stop]; omega⟩
        · refine ⟨⟨resSec boot, u32 (bigSecPerFat boot * 2)⟩, by simp [fixedRequests], ?_⟩
          simp only [Extent.Has, Extent.stop, table]
          omega
      · simp only [fixedRequests, List.mem_cons, List.not_mem_nil, or_false] at mem
        rcases mem with rfl | rfl
        · simp only [Extent.stop]
          omega
        · simp only [Extent.stop, table]
          omega
  obtain ⟨startEq, covers, fits⟩ := start
  constructor
  · intro b meets
    obtain ⟨e, mem, meets'⟩ := covers.meets meets
    exact shown_of_meets mem (fits e mem) meets'
  · intro n cluster b meets
    have place := cluster.2.1
    simp only [FatKind.clusterExtent, Extent.stop, total] at place
    refine shown_of_meets (List.mem_append.mpr (Or.inr ?_)) ?_ meets
    · simp only [assumedRequests, startEq]
      rw [if_pos (by omega)]
      exact List.mem_singleton.mpr rfl
    · simp only [FatKind.clusterExtent, Extent.stop]
      omega

/-- A FAT16 boot sector: one reserved sector, two tables of one sector, and the fields given. -/
def fat16Boot (spc rootEntryHigh bigTotalSecLow : Byte) : Image := fun i =>
  ([0, 0, 0, 0, 0, 0, 0, 0, 0, 0, 0, 0, 2, spc, 1, 0, 2, 0, rootEntryHigh, 0, 0, 0, 1, 0, 0, 0, 0, 0, 0,
    0, 0, 0, bigTotalSecLow, 1, 0, 0, 0, 0, 0, 0, 0, 0, 0, 0, 0, 0, 0, 0, 0, 0, 0, 0, 0, 0, 0x46, 0x41,
    0x54, 0x31, 0x36] ++ List.replicate 451 0 ++ [0x55, 0xaa]).getD i 0

/-- The record of a selected partition that starts at sector 63. -/
def sampleRecord : PartitionInfo := { bootBegin := 63, partitionType := FAT16, bIfBackup := true }

/-- The record of the volume once its boot sector has been read. -/
def fat16Record (boot : Image) : PartitionInfo :=
  { sampleRecord with
    totalSectors := bigTotalSec boot
    firstFatSector := 1
    sectorsPerFAT := 1
    fatCopies := 2
    rootSectors := rootEntry boot * 32 / 512
    sectorsPerClr := secPerClr boot }

end Okr
