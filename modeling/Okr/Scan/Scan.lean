import Okr.Scan.Bitmap
import Okr.Scan.Ntfs
import Okr.Scan.PartitionType

/-! The scan of a partition: which sectors it asks to be backed up. -/

namespace Okr

open Blocks (Extent)

/-- Bytes of the scan buffer, and of alignment added to the bitmap buffer. -/
def SCANBUFFER_SIZE : Nat := 0x10000
def ALGIN_SIZE_BYTE : Nat := 4096

/-- A group whose block bitmap was never written. -/
def EXT4_BG_BLOCK_UNINIT : Nat := 2

/-- Bytes of a group descriptor. -/
def groupDescSize : Nat := 32

/-- The partition types that are known and not backed up. -/
def unsupportedTypes : List Nat :=
  [0x82, 0x01, 0x02, 0x03, 0x04, 0x42, 0x39, 0x41, 0x51, 0x53, 0x54, 0x55, 0x63, 0x64, 0x81, 0x85,
    0x86, 0xA5, 0xA6, 0xA9, 0xB7, 0xFD]

/-- `IsUnSupportedPartition(pid) == TRUE`: a type that no branch names is 2 there, not TRUE. -/
def isUnSupportedPartition (pid : Nat) : Bool :=
  unsupportedTypes.contains pid

/-- The file systems the scan loop tells apart, by `m_PartitionType` and `m_FatSize`. -/
inductive ScanKind where
  | fat16
  | fat32
  | ntfs
  | ext
  deriving DecidableEq, Repr

/-- `m_FatSize`: bytes of an entry of the allocation table, or of the bitmap. -/
def ScanKind.fatSize : ScanKind → Nat
  | .fat16 => 2
  | .fat32 => 4
  | .ntfs => 1
  | .ext => 1

/-- What stays the same through the scan loop. -/
structure ScanSetup where
  kind : ScanKind
  disk : Image
  part : PartitionInfo
  /-- `m_BitmapSectorList`, and the memory behind it from slot 16 on. -/
  bitmapSectorList : Nat → Extent := fun _ => ⟨0, 0⟩
  /-- `m_group_desc`, and the memory behind it. -/
  groupdesc : Image := fun _ => 0
  databeginsector : Nat := 0
  bitmapsize : Nat := 0
  buffersize : Nat := SCANBUFFER_SIZE

/-- The variables of the scan loop. -/
structure ScanState where
  total : Nat
  fatSector : Nat := 0
  cluster : Nat := 0
  groupindex : Nat := 0
  k : Nat := 0
  remainSectors : Nat := 0
  buffer : Image := fun _ => 0

/-- The group descriptors `GetExt3BitmapSector` reads at its first call, in whole 4 KiB pages. -/
def readGroupDesc (disk : Image) (p : PartitionInfo) (groupdesc : Image) : Image :=
  let descSize := u32 (p.groupsCount * groupDescSize)
  let descSize := u32 (descSize + 0xfff) / 4096 * 4096
  diskRead disk (p.groupDescSector + p.bootBegin) (descSize / SECTOR_SIZE) groupdesc

/-- `GetExt3BitmapSector`: the sector of a group's block bitmap, or zero when it has none. -/
def getExt3BitmapSector (s : ScanSetup) (groupIndex : Nat) : Nat :=
  let desc := groupIndex * groupDescSize
  if le16 s.groupdesc (desc + 18) &&& EXT4_BG_BLOCK_UNINIT ≠ 0 then 0
  else u32 (le32 s.groupdesc desc * s.part.sectorsPerClr)

/-- The sectors read in one pass, apart from the Linux file systems. -/
def chunkCount (s : ScanSetup) (st : ScanState) : Nat :=
  let count := if st.total > s.buffersize / SECTOR_SIZE then s.buffersize / SECTOR_SIZE else u32 st.total
  if s.kind = .ntfs ∧ count > st.remainSectors then st.remainSectors else count

/-- `bUsed`: the entry with this index in the buffer is not zero. -/
def bUsed (kind : ScanKind) (buffer : Image) (i : Nat) : Bool :=
  if buffer (i * kind.fatSize) ≠ 0 then true
  else
    match kind with
    | .fat16 => le16 buffer (i * 2) != 0
    | .fat32 => le32 buffer (i * 4) != 0
    | _ => false

/-- What a used entry asks for, if anything. -/
def usedRequest (s : ScanSetup) (cluster : Nat) : Option Extent :=
  let spc := s.part.sectorsPerClr
  if s.kind.fatSize = 1 then
    if cluster * 8 * spc < s.part.totalSectors then some ⟨cluster * 8 * spc, u32 (spc * 8)⟩ else none
  else if cluster ≥ 2 ∧ (cluster - 2) * spc ≤ s.part.totalSectors then
    some ⟨s.databeginsector + (cluster - 2) * spc, spc⟩
  else none

/-- The inner loop: the requests of the entries from `i` on, `cluster` standing at the first. -/
def entryRequests (s : ScanSetup) (buffer : Image) : Nat → Nat → Nat → List Extent
  | 0, _, _ => []
  | count + 1, i, cluster =>
    let rest := entryRequests s buffer count (i + 1) (cluster + 1)
    if bUsed s.kind buffer i then (usedRequest s cluster).toList ++ rest else rest

/-- The number of entries in what a pass has read, and the loop's variables for the next. -/
def afterRead (s : ScanSetup) (st : ScanState) (count : Nat) : Nat × ScanState :=
  let st := { st with total := sub64 st.total count, fatSector := st.fatSector + count }
  match s.kind with
  | .fat16 => (count * 256, st)
  | .fat32 => (count * 128, st)
  | .ntfs =>
    let remainSectors := st.remainSectors - count
    let st := { st with remainSectors := remainSectors }
    let st :=
      if remainSectors = 0 then
        let next := s.bitmapSectorList st.k
        { st with
          fatSector := next.start + s.part.bootBegin
          remainSectors := next.number
          k := st.k + 1
          total := next.number }
      else st
    (count * 512, st)
  | .ext =>
    let group := s.part.blocksPerGroup
    let bits :=
      if st.total = 0 then u32 (s.part.totalSectors / s.part.sectorsPerClr % group) else group
    (u32 (bits + 7) / 8, { st with cluster := u32 (st.groupindex * group) / 8 })

/-- Read one chunk and go through its entries. -/
def scanChunk (s : ScanSetup) (st : ScanState) (count : Nat) : List Extent × ScanState :=
  let buffer := diskRead s.disk st.fatSector count st.buffer
  let (entries, st) := afterRead s st count
  (entryRequests s buffer entries 0 st.cluster,
    { st with cluster := st.cluster + entries, groupindex := st.groupindex + 1, buffer := buffer })

/-- One pass of the scan loop. -/
def scanPass (s : ScanSetup) (st : ScanState) : List Extent × ScanState :=
  match s.kind with
  | .ext =>
    let sector := getExt3BitmapSector s st.groupindex
    if sector = 0 then
      ([], { st with total := sub64 st.total s.bitmapsize, groupindex := st.groupindex + 1 })
    else scanChunk s { st with fatSector := sector + s.part.bootBegin } s.bitmapsize
  | _ => scanChunk s st (chunkCount s st)

/-- The scan loop; nothing when it never ends. -/
def scanLoop (s : ScanSetup) : Nat → ScanState → Option (List Extent)
  | fuel, st =>
    if st.total = 0 then some []
    else
      match fuel with
      | 0 => none
      | fuel + 1 =>
        let (requests, st) := scanPass s st
        (scanLoop s fuel st).map (requests ++ ·)

/-- What the scan of a partition comes to. -/
inductive ScanResult where
  /-- The value -1. -/
  | failed
  /-- A file system without a scan: that many bytes of the bitmap are set. -/
  | raw (total : Nat)
  /-- The calls of `getdatafunc`. -/
  | requests (list : List Extent)
  deriving DecidableEq, Repr

/-- The memory a scan may meet: the old content of its buffers, and what follows its run array. -/
structure ScanMemory where
  scanbuffer : Image := fun _ => 0
  behindList : Nat → Extent := fun _ => ⟨0, 0⟩
  groupdesc : Image := fun _ => 0

/-- `m_BitmapSectorList` once `InitNTFS` has filled its front over zeros. -/
def sectorList (memory : ScanMemory) (runs : List Extent) : Nat → Extent := fun i =>
  if i < BITMAP_SECTOR_LIST then runs.getD i ⟨0, 0⟩ else memory.behindList (i - BITMAP_SECTOR_LIST)

/-- The FAT16 set-up: two copies of the table and 32 sectors of root directory. -/
def scanFat16 (fuel : Nat) (disk : Image) (memory : ScanMemory) (p : PartitionInfo) :
    Option (List Extent) :=
  let databeginsector := u32 (p.firstFatSector + p.sectorsPerFAT * 2 + 32)
  let s : ScanSetup := { kind := .fat16, disk := disk, part := p, databeginsector := databeginsector }
  let st : ScanState :=
    { total := p.sectorsPerFAT
      fatSector := p.firstFatSector + p.bootBegin
      buffer := memory.scanbuffer }
  (scanLoop s fuel st).map ([⟨0, databeginsector⟩] ++ ·)

/-- The FAT32 set-up: the reserved sectors, and two copies of the table. -/
def scanFat32 (fuel : Nat) (disk : Image) (memory : ScanMemory) (p : PartitionInfo) :
    Option (List Extent) :=
  let databeginsector := u32 (p.firstFatSector + p.sectorsPerFAT * 2)
  let s : ScanSetup := { kind := .fat32, disk := disk, part := p, databeginsector := databeginsector }
  let st : ScanState :=
    { total := p.sectorsPerFAT
      fatSector := p.firstFatSector + p.bootBegin
      buffer := memory.scanbuffer }
  (scanLoop s fuel st).map
    ([⟨0, p.firstFatSector⟩, ⟨p.firstFatSector, u32 (p.sectorsPerFAT * 2)⟩] ++ ·)

/-- The NTFS set-up: a bit a cluster, read along the runs of `$Bitmap`. -/
def scanNtfs (fuel : Nat) (disk : Image) (memory : ScanMemory) (p : PartitionInfo) :
    Option (Option (List Extent)) :=
  match initNTFS fuel disk p memory.scanbuffer with
  | none => none
  | some none => some none
  | some (some runs) =>
    let list := sectorList memory runs
    let s : ScanSetup := { kind := .ntfs, disk := disk, part := p, bitmapSectorList := list }
    let st : ScanState :=
      { total := u32 (p.totalSectors / p.sectorsPerClr / (512 * 8) + 1)
        fatSector := (list 0).start + p.bootBegin
        remainSectors := (list 0).number
        k := 1
        buffer := memory.scanbuffer }
    (scanLoop s fuel st).map some

/-- Bytes a group's bitmap takes in whole blocks: `(n + blocksize - 1) & ~(blocksize - 1)`. -/
def groupBitmapBytes (p : PartitionInfo) : Nat :=
  let blocksize := p.sectorsPerClr * SECTOR_SIZE
  u32 (u32 (p.blocksPerGroup + 7) / 8 + blocksize + 2 ^ 32 - 1) &&& (2 ^ 32 - 1 - u32 (blocksize + 2 ^ 32 - 1))

/-- The set-up of the Linux file systems: a bitmap for each group. -/
def scanExt (fuel : Nat) (disk : Image) (memory : ScanMemory) (p : PartitionInfo) :
    Option (List Extent) :=
  let bitmapsize := u32 (groupBitmapBytes p + SECTOR_SIZE - 1) / SECTOR_SIZE
  let s : ScanSetup :=
    { kind := .ext
      disk := disk
      part := p
      groupdesc := readGroupDesc disk p memory.groupdesc
      bitmapsize := bitmapsize
      buffersize := max SCANBUFFER_SIZE (groupBitmapBytes p) }
  scanLoop s fuel { total := u32 (p.groupsCount * bitmapsize), buffer := memory.scanbuffer }

/-- `ScanPartitionData`; nothing when it never ends. -/
def scanPartitionData (fuel : Nat) (disk : Image) (memory : ScanMemory) (p : PartitionInfo) :
    Option ScanResult :=
  if ¬ (p.bGpt = true ∧ p.typeGuid = partitionLinuxBootGuid) ∧ isUnSupportedPartition p.partitionType then
    some .failed
  else if p.partitionType = FAT16_E ∨ p.partitionType = FAT16 then
    (scanFat16 fuel disk memory p).map .requests
  else if p.partitionType = FAT32 ∨ p.partitionType = FAT32_E then
    (scanFat32 fuel disk memory p).map .requests
  else if p.partitionType = NTFS then
    (scanNtfs fuel disk memory p).map fun
      | none => .failed
      | some list => .requests list
  else if p.partitionType = PARTITION_LINUX then
    (scanExt fuel disk memory p).map .requests
  else some (.raw (u32 (u32 ((p.totalSectors + (BLOCK_SIZE - 1)) / BLOCK_SIZE) + 7) / 8))

/-- The bitmap a scan leaves of one it starts from. -/
def scanBitmap (unused : List Extent) (bitmap : Bitmap) : ScanResult → Bitmap
  | .failed => bitmap
  | .raw total =>
    { bytes := List.replicate (min total bitmap.bytes.length) 0xff ++ bitmap.bytes.drop total
      overrun := bitmap.overrun || decide (bitmap.bytes.length < total) }
  | .requests list => list.foldl (fun bitmap e => getDataToBitmap unused e bitmap) bitmap

/-- The bytes of bitmap a partition needs. -/
def bitmapBytes (p : PartitionInfo) : Nat :=
  ((p.totalSectors + (BLOCK_SIZE - 1)) / BLOCK_SIZE + 7) / 8

/-- The bitmap buffer of `InitGlobalDataForBackup`: for the largest selected partition, and 4 KiB. -/
def databitmapSize (parts : List PartitionInfo) : Nat :=
  ((parts.filter (·.bIfBackup)).map bitmapBytes).foldr max 0 + ALGIN_SIZE_BYTE

end Okr
