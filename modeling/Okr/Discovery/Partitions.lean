import Okr.NewDisk.Gpt
import Okr.Scan.Scan

/-! `GetPartitionInfo`: the partitions of all disks are read into one table. -/

namespace Okr

/-- The type of a record whose entry names none. -/
def UNKNOWN_PARTITION : Nat := 0xff

/-- Types of the entries that lead to another boot record. -/
def EXTEND_PARTITION : Nat := 0x05
def BIG_EXTEND_PARTITION : Nat := 0x0F

/-- Sectors read at the front of a GPT disk. -/
def GPT_SECTORS : Nat := 64

/-- A disk that is scanned: its bytes, its size, and whether the firmware reads a range of it. -/
structure ScanDisk where
  bytes : Image
  totalsector : Nat
  readable : Nat → Nat → Bool

/-- What the scan touches: a slot of the table, or an entry of a GPT among so many loaded bytes. -/
inductive Access where
  | slot (index : Nat)
  | entry (address loaded : Nat)
deriving Repr, DecidableEq

/--
The variables of the scan.

The table goes on behind its last slot, as memory does.
The buffer is what stands at every address from its start on, with whatever lies behind it.
-/
structure Discovery where
  table : Nat → PartitionInfo := fun _ => {}
  total : Nat := 0
  recursiveTimes : Nat := 0
  formatted : Nat → Bool := fun _ => false
  buffer : Image
  accesses : List Access := []

namespace Discovery

/-- `DiskRead` to an address of the buffer; a read that fails leaves it as it was. -/
def read (s : Discovery) (disk : ScanDisk) (sector count at_ : Nat) : Bool × Discovery :=
  if disk.readable sector count then
    (true,
      { s with
        buffer := fun a =>
          if at_ ≤ a ∧ a < at_ + count * SECTOR_SIZE then
            disk.bytes (sector * SECTOR_SIZE + (a - at_))
          else s.buffer a })
  else (false, s)

/-- A slot of the table is written. -/
def write (s : Discovery) (index : Nat) (p : PartitionInfo) : Discovery :=
  { s with
    table := fun i => if i = index then p else s.table i
    accesses := .slot index :: s.accesses }

end Discovery

/-- Fields of an entry of a boot record. -/
def entryId (buffer : Image) (prt : Nat) : Nat := (buffer prt).toNat
def entryBeginHead (buffer : Image) (prt : Nat) : Nat := (buffer (prt + 1)).toNat
def entryBeginSector (buffer : Image) (prt : Nat) : Nat := le16 buffer (prt + 2) % 64
def entryPid (buffer : Image) (prt : Nat) : Nat := (buffer (prt + 4)).toNat
def entryFront (buffer : Image) (prt : Nat) : Nat := le32 buffer (prt + 8)
def entryTotal (buffer : Image) (prt : Nat) : Nat := le32 buffer (prt + 12)

/-- The types that are backed up, whatever the file system. -/
def supportedTypes : List Nat := [NTFS, FAT16, FAT32, FAT16_E, FAT32_E, PARTITION_LINUX]

/-- `VerifyPartition`: an entry of an unknown type must start at a usual place. -/
def verifyPartition (buffer : Image) (prt begin : Nat) (disk : ScanDisk) : Bool :=
  let pid := entryPid buffer prt
  if pid = 0 then false
  else if disk.totalsector ≤ begin then false
  else if supportedTypes.contains pid || unsupportedTypes.contains pid then true
  else
    (entryBeginHead buffer prt == 0 || entryBeginHead buffer prt == 1)
      && entryBeginSector buffer prt == 1

/-- `m_PartitionType` after `CheckPartitionType`. -/
def checkedPartitionType (buffer : Image) (p : PartitionInfo) : Nat :=
  if (checkPartitionType buffer p).isNone then UNKNOWN_PARTITION
  else if announcedType buffer p = FAT16 ∧ secPerClr buffer > 128 then PARTITION_UNUSED
  else announcedType buffer p

/-- The record `ParseMasterPartition` starts from: of an entry of a boot record, or of a range. -/
def masterRecord (old : PartitionInfo) (buffer : Image) (prt : Option Nat)
    (begin totalSectors diskNumber : Nat) : PartitionInfo :=
  match prt with
  | some prt =>
    { old with
      diskNumber := diskNumber % 2 ^ 8
      bootBegin := u64 (begin + entryFront buffer prt)
      partitionType := entryPid buffer prt
      totalSectors := entryTotal buffer prt
      bBootPartition := entryId buffer prt == 0x80 }
  | none =>
    { old with
      diskNumber := diskNumber % 2 ^ 8
      bootBegin := begin
      partitionType := UNKNOWN_PARTITION
      totalSectors := totalSectors }

/-- Is an entry one to look at? A doubtful one is, if it leads to a boot sector. -/
def isKnownEntry (disk : ScanDisk) (prt begin at_ : Nat) (s : Discovery) : Bool × Discovery :=
  if verifyPartition s.buffer prt begin disk then (true, s)
  else
    let (ok, s) := s.read disk (u64 (begin + entryFront s.buffer prt)) 1 at_
    (ok && le16 s.buffer (at_ + 0x1fe) == 0xAA55, s)

/-- The record of a partition is written to its slot, with what its boot sector says. -/
def placePartition (disk : ScanDisk) (p : PartitionInfo) (index diskNumber at_ : Nat) (s : Discovery) :
    Bool × Discovery :=
  let s := (s.read disk p.bootBegin 4 at_).2
  let boot : Image := fun a => s.buffer (at_ + a)
  let s := s.write index ((checkPartitionType boot p).getD p)
  if checkedPartitionType boot p = PARTITION_UNUSED then (false, s)
  else (true, { s with formatted := fun d => if d = diskNumber then true else s.formatted d })

/--
`ParseMasterPartition`: is the partition kept?

The entry stands at `prt` in the buffer, and `at_` is where the boot sector is read to.
The range of a GPT entry, or of a whole disk, comes without an entry.
-/
def parseMasterPartition (disk : ScanDisk) (prt : Option Nat)
    (index begin totalSectors diskNumber at_ : Nat) (s : Discovery) : Bool × Discovery :=
  let (known, s) :=
    match prt with
    | some prt => isKnownEntry disk prt begin at_ s
    | none => (true, s)
  if known then
    placePartition disk (masterRecord (s.table index) s.buffer prt begin totalSectors diskNumber) index
      diskNumber at_ s
  else (false, s)

/-- The variables of the loop of `ParseExtendPartition` over the four entries. -/
structure ExtendState where
  partitionIndex : Nat
  partitionNumber : Nat
  s : Discovery

/-- The type leads to another boot record. -/
def isExtend (pid : Nat) : Bool := pid == EXTEND_PARTITION || pid == BIG_EXTEND_PARTITION

/-- One entry of a boot record; `walk` follows the entry to another one. -/
def extendEntry (walk : Nat → Nat → Nat → Nat → Discovery → Nat × Discovery) (disk : ScanDisk)
    (begin nextBegin diskNumber at_ prt : Nat) (e : ExtendState) : ExtendState :=
  let pid := entryPid e.s.buffer prt
  if isExtend pid then
    let (count, s) := walk prt e.partitionIndex begin (at_ + 512) e.s
    -- The index advances by all partitions found so far, not only by those of this entry.
    { partitionIndex := e.partitionIndex + (e.partitionNumber + count)
      partitionNumber := e.partitionNumber + count
      s := s }
  else if pid ≠ 0 then
    match parseMasterPartition disk (some prt) e.partitionIndex nextBegin (entryTotal e.s.buffer prt)
        diskNumber (at_ + 512) e.s with
    | (true, s) => ⟨e.partitionIndex + 1, e.partitionNumber + 1, s⟩
    | (false, s) => { e with s := s }
  else e

/-- The loop over the entries, which stops at the index 32. -/
def extendLoop (walk : Nat → Nat → Nat → Nat → Discovery → Nat × Discovery) (disk : ScanDisk)
    (begin nextBegin diskNumber at_ : Nat) : List Nat → ExtendState → ExtendState
  | [], e => e
  | prt :: prts, e =>
    let e := extendEntry walk disk begin nextBegin diskNumber at_ prt e
    if 32 ≤ e.partitionIndex then e
    else extendLoop walk disk begin nextBegin diskNumber at_ prts e

/-- Where the four entries of a boot record at an address stand. -/
def recordEntries (at_ : Nat) : List Nat := (List.range 4).map fun i => at_ + 0x1be + 16 * i

/--
`ParseExtendPartition`: how many partitions are found from an entry on.

The fuel runs out where the counter of the source ends the recursion at the latest.
-/
def parseExtendPartition (disk : ScanDisk) (diskNumber : Nat) :
    Nat → Nat → Nat → Nat → Nat → Discovery → Nat × Discovery
  | 0, _, _, _, _, s => (0, { s with recursiveTimes := s.recursiveTimes + 1 })
  | fuel + 1, prt, index, begin, at_, s =>
    let s := { s with recursiveTimes := s.recursiveTimes + 1 }
    if 32 ≤ s.recursiveTimes then (0, s)
    else
      let nextBegin := u32 (entryFront s.buffer prt + begin)
      let begin := if begin = 0 then nextBegin else begin
      match s.read disk nextBegin 1 at_ with
      | (false, s) => (0, s)
      | (true, s) =>
        if le16 s.buffer (at_ + 0x1fe) ≠ 0xaa55 then (0, s)
        else
          let e := extendLoop (parseExtendPartition disk diskNumber fuel) disk begin nextBegin
            diskNumber at_ (recordEntries at_) ⟨index, 0, s⟩
          (e.partitionNumber, e.s)

/-- One entry of the boot record of a disk. -/
def mbrEntry (disk : ScanDisk) (diskNumber prt : Nat) (s : Discovery) : Discovery :=
  let pid := entryPid s.buffer prt
  if isExtend pid then
    let (count, s) := parseExtendPartition disk diskNumber 32 prt s.total 0 512 s
    { s with total := s.total + count }
  else if pid ≠ PARTITION_UNUSED then
    match parseMasterPartition disk (some prt) s.total 0 (entryTotal s.buffer prt) diskNumber 512 s with
    | (true, s) => { s with total := s.total + 1 }
    | (false, s) => s
  else s

/-- The four entries of the boot record, as long as there is room in the table. -/
def mbrLoop (disk : ScanDisk) (diskNumber : Nat) : List Nat → Discovery → Discovery
  | [], s => s
  | prt :: prts, s =>
    let s := mbrEntry disk diskNumber prt s
    if MAX_NUM_PARTITIONS ≤ s.total then s else mbrLoop disk diskNumber prts s

/-! ### A GPT disk -/

/-- `strnicmp(signature, "EFI PART", 8) == 0`, of the header at an address. -/
def textEfiPart : List Nat := [0x45, 0x46, 0x49, 0x20, 0x50, 0x41, 0x52, 0x54]

/-- How many entries are looked at. -/
def gptCount (buffer : Image) : Nat := min (le32 buffer (512 + 0x50)) 128

/-- Where an entry stands from the start of the buffer on, as 64-bit pointers are computed. -/
def gptEntryAddress (buffer : Image) (i : Nat) : Nat :=
  u64 (512 + u64 (sub64 (le64 buffer (512 + 0x48)) (myLBA fun a => buffer (512 + a)) * SECTOR_SIZE)
    + i * le32 buffer (512 + 0x54))

/-- The bytes of an entry up to the end of its last sector. -/
def ENTRY_FIELDS : Nat := 48

/-- An entry is taken for valid when its type is set in the front half, and both its sectors are. -/
def isValidEntry (buffer : Image) (entry : Nat) : Bool :=
  le64 buffer entry != 0 && le64 buffer (entry + 32) != 0 && le64 buffer (entry + 40) != 0

/-- The boot sector of a GPT partition is read to this address. -/
def GPT_BOOT : Nat := 0x8000

/-- The range of an entry goes through `ParseMasterPartition`, to the next slot. -/
def gptMaster (disk : ScanDisk) (diskNumber entry : Nat) (s : Discovery) : Bool × Discovery :=
  let starting := le64 s.buffer (entry + 32)
  let ending := le64 s.buffer (entry + 40)
  parseMasterPartition disk none s.total starting (u64 (sub64 ending starting + 1)) diskNumber GPT_BOOT s

/-- The record of a partition that is kept gets the identifiers of its entry. -/
def keepEntry (entry : Nat) (s : Discovery) : Discovery :=
  let s := s.write s.total
    { s.table s.total with
      typeGuid := bytesAt s.buffer entry 16
      uniGuid := bytesAt s.buffer (entry + 16) 16
      bGpt := true }
  { s with total := s.total + 1 }

/-- One entry of the array; `loaded` bytes of the disk are in the buffer. -/
def gptEntry (disk : ScanDisk) (diskNumber loaded : Nat) (s : Discovery) (i : Nat) : Discovery :=
  let entry := gptEntryAddress s.buffer i
  let s := { s with accesses := .entry entry loaded :: s.accesses }
  if isValidEntry s.buffer entry then
    match gptMaster disk diskNumber entry s with
    | (true, s) => keepEntry entry s
    | (false, s) => s
  else s

/-- `ParseGPTInfo`. -/
def parseGPTInfo (disk : ScanDisk) (diskNumber : Nat) (s : Discovery) : Discovery :=
  let (ok, s) := s.read disk 0 GPT_SECTORS 0
  if strnicmp s.buffer 512 textEfiPart then
    let loaded := if ok then GPT_SECTORS * SECTOR_SIZE else 0
    (List.range (gptCount s.buffer)).foldl (gptEntry disk diskNumber loaded) s
  else s

/-! ### All disks -/

/-- Two slots change places when they are of one disk and in the wrong order. -/
def sortSlots (s : Discovery) (i j : Nat) : Discovery :=
  if (s.table j).bootBegin < (s.table i).bootBegin ∧ (s.table i).diskNumber = (s.table j).diskNumber then
    (s.write i (s.table j)).write j (s.table i)
  else s

/-- `SortPartitionInfo`. -/
def sortPartitionInfo (s : Discovery) : Discovery :=
  (List.range s.total).foldl (fun s i =>
    (List.range' (i + 1) (s.total - (i + 1))).foldl (fun s j => sortSlots s i j) s) s

/-- One disk of `GetPartitionInfo`. -/
def scanDisk (s : Discovery) (diskNumber : Nat) (disk : ScanDisk) : Discovery :=
  if disk.readable 0 1 && isGPT disk.bytes then sortPartitionInfo (parseGPTInfo disk diskNumber s)
  else
    match s.read disk 0 1 0 with
    | (false, s) => s
    | (true, s) =>
      match parseMasterPartition disk none s.total 0 0 diskNumber 0 s with
      | (true, s) => sortPartitionInfo { s with total := s.total + 1 }
      | (false, s) => sortPartitionInfo (mbrLoop disk diskNumber (recordEntries 0) s)

/-- The disks one after the other, as long as there is room in the table. -/
def scanDisks : List ScanDisk → Nat → Discovery → Discovery
  | [], _, s => s
  | disk :: disks, diskNumber, s =>
    if MAX_NUM_PARTITIONS ≤ s.total then s
    else scanDisks disks (diskNumber + 1) (scanDisk s diskNumber disk)

/-- The labels of the partitions are read, which the disks give for a record. -/
def readLabels (volumeName : PartitionInfo → List Nat) (s : Discovery) : Discovery :=
  (List.range s.total).foldl (fun s i =>
    s.write i { s.table i with label := volumeName (s.table i) }) s

/-- `GetPartitionInfo`, from an empty table. -/
def getPartitionInfo (volumeName : PartitionInfo → List Nat) (memory : Image) (disks : List ScanDisk) :
    Discovery :=
  readLabels volumeName (scanDisks disks 0 { buffer := memory })

end Okr
