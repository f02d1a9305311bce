import Okr.Scan.Scan

/-! The operations on numbers, in the probe of a partition and in its scan, that can go wrong. -/

namespace Okr

/--
A division or a remainder, a shift of a 32-bit number, or a number stored in so many bits.

Divisions by constants and shifts by them are not listed.
-/
inductive NumericStep where
  | divide (divisor : Nat)
  | shift (count : Nat)
  | store (value bits : Nat)
  deriving DecidableEq, Repr

/-- The operation has a meaning, and what is stored is the number itself. -/
def NumericStep.Sound : NumericStep → Prop
  | .divide divisor => divisor ≠ 0
  | .shift count => count < 32
  | .store value bits => value < 2 ^ bits

instance : DecidablePred NumericStep.Sound
  | .divide divisor => inferInstanceAs (Decidable (divisor ≠ 0))
  | .shift count => inferInstanceAs (Decidable (count < 32))
  | .store value bits => inferInstanceAs (Decidable (value < 2 ^ bits))

/-! ### The scan -/

/-- A pass of the scan divides behind the last bitmap of a Linux file system. -/
def passSteps (s : ScanSetup) (st : ScanState) : List NumericStep :=
  match s.kind with
  | .ext =>
    if getExt3BitmapSector s st.groupindex = 0 then []
    else if sub64 st.total s.bitmapsize = 0 then
      [.divide s.part.sectorsPerClr, .divide s.part.blocksPerGroup]
    else []
  | _ => []

/-- The scan loop, pass after pass. -/
def scanLoopSteps (s : ScanSetup) : Nat → ScanState → List NumericStep
  | 0, _ => []
  | fuel + 1, st =>
    if st.total = 0 then [] else passSteps s st ++ scanLoopSteps s fuel (scanPass s st).2

/-- The set-up of the scan of a Linux file system, as `scanExt` has it. -/
def extSetup (disk : Image) (memory : ScanMemory) (p : PartitionInfo) : ScanSetup where
  kind := .ext
  disk := disk
  part := p
  groupdesc := readGroupDesc disk p memory.groupdesc
  bitmapsize := u32 (groupBitmapBytes p + SECTOR_SIZE - 1) / SECTOR_SIZE
  buffersize := max SCANBUFFER_SIZE (groupBitmapBytes p)

/-- `ScanPartitionData`: the size of an NTFS bitmap, and the last group of a Linux file system. -/
def scanSteps (fuel : Nat) (disk : Image) (memory : ScanMemory) (p : PartitionInfo) :
    List NumericStep :=
  if ¬ (p.bGpt = true ∧ p.typeGuid = partitionLinuxBootGuid) ∧ isUnSupportedPartition p.partitionType then []
  else if p.partitionType = NTFS then
    match initNTFS fuel disk p memory.scanbuffer with
    | some (some _) => [.divide p.sectorsPerClr]
    | _ => []
  else if p.partitionType = PARTITION_LINUX then
    let s := extSetup disk memory p
    scanLoopSteps s fuel { total := u32 (p.groupsCount * s.bitmapsize), buffer := memory.scanbuffer }
  else []

/-! ### The count of free clusters -/

/-- Bytes of a group's bitmap for blocks of a size, in 32 bits. -/
def wholeBlocks (blocksize blocksPerGroup : Nat) : Nat :=
  u32 (u32 (blocksPerGroup + 7) / 8 + blocksize + 2 ^ 32 - 1) &&& (2 ^ 32 - 1 - u32 (blocksize + 2 ^ 32 - 1))

/-- The loop of `GetPartTotalClr` over the groups of a Linux file system; its count has 32 bits. -/
def clrLoopSteps (s : ScanSetup) (sectorsPerCluster : Nat) : Nat → Nat → Nat → List NumericStep
  | 0, _, _ => []
  | fuel + 1, total, groupindex =>
    if total = 0 then []
    else
      let rest := u32 (total + 2 ^ 32 - s.bitmapsize)
      let steps :=
        if getExt3BitmapSector s groupindex = 0 then []
        else if rest = 0 then [.divide sectorsPerCluster, .divide s.part.blocksPerGroup]
        else []
      steps ++ clrLoopSteps s sectorsPerCluster fuel rest (groupindex + 1)

/-- What the count of free clusters may meet: passes, a disk, old memory, and room for its buffer. -/
structure ClrEnv where
  fuel : Nat
  disk : Image
  memory : ScanMemory
  allocated : Bool

/-- `CalcPartitionSize` and `GetPartTotalClr` of an NTFS volume. -/
def ntfsClrSteps (env : ClrEnv) (sectorsPerCluster : Nat) (p : PartitionInfo) : List NumericStep :=
  match initNTFS env.fuel env.disk p env.memory.scanbuffer with
  | some (some _) => [.divide sectorsPerCluster]
  | _ => []

/-- `GetPartTotalClr` of a Linux file system; its sectors per cluster were not cut to a byte. -/
def extClrSteps (env : ClrEnv) (sectorsPerCluster : Nat) (p : PartitionInfo) : List NumericStep :=
  let buffersize := wholeBlocks (u32 (sectorsPerCluster * SECTOR_SIZE)) p.blocksPerGroup
  let s : ScanSetup :=
    { extSetup env.disk env.memory p with
      bitmapsize := u32 (buffersize + SECTOR_SIZE - 1) / SECTOR_SIZE }
  if env.allocated then
    clrLoopSteps s sectorsPerCluster env.fuel (u32 (p.groupsCount * s.bitmapsize)) 0
  else []

/-! ### The probe -/

/-- The NTFS branch. -/
def ntfsSteps (buffer : Image) : List NumericStep :=
  .store (ntTotalSectors buffer) 64 ::
    if clustersPerFileRecord buffer > 0x80 then
      [.shift (u32 (2 ^ 32 + 0x100 - clustersPerFileRecord buffer)), .divide (secInByte buffer)]
    else []

/-- The branch of the Linux file systems. -/
def extSteps (buffer : Image) : List NumericStep :=
  let count := u32 (sLogBlockSize buffer + 1)
  [.shift count, .store (shiftOne count) 8, .store (sBlocksCount buffer * shiftOne count) 64,
    .store (sBlocksPerGroup buffer) 32, .divide (sBlocksPerGroup buffer)]

/-- `CheckPartitionType`, with the count of free clusters when that is wanted. -/
def probeSteps (env : ClrEnv) (bGetFreeClr : Bool) (buffer : Image) (p : PartitionInfo) :
    List NumericStep :=
  match checkPartitionType buffer p with
  | none => []
  | some p' =>
    let type := announcedType buffer p
    .store (secPerClr buffer) 8 ::
      if type = NTFS then
        ntfsSteps buffer ++ if bGetFreeClr then ntfsClrSteps env (secPerClr buffer) p' else []
      else if type = FAT32 then [.store (bigTotalSec buffer) 64]
      else if type = FAT16 then
        if secPerClr buffer > 128 then [] else [.store (bigTotalSec buffer) 64]
      else if type = PARTITION_LINUX then
        extSteps buffer ++
          if bGetFreeClr then extClrSteps env (shiftOne (u32 (sLogBlockSize buffer + 1))) p' else []
      else []

/-- `CheckPartitionType` followed by `ScanPartitionData` on the record it leaves. -/
def partitionSteps (env : ClrEnv) (bGetFreeClr : Bool) (buffer : Image) (p : PartitionInfo) :
    List NumericStep :=
  probeSteps env bGetFreeClr buffer p
    ++ scanSteps env.fuel env.disk env.memory ((checkPartitionType buffer p).getD p)

/-! ### When all of them are sound -/

/-- The sizes in the parameter block are powers of two, and a sector has whole 512 bytes. -/
def SaneBlock (buffer : Image) : Prop :=
  secInByte buffer ≠ 0 ∧ secInByte buffer &&& 0x1ff = 0 ∧ secInByte buffer &&& (secInByte buffer - 1) = 0
    ∧ secPerClr buffer ≠ 0 ∧ secPerClr buffer &&& (secPerClr buffer - 1) = 0

/-- The texts and the parameter block, or the record, make the partition an NTFS volume. -/
def NamesNtfs (buffer : Image) (p : PartitionInfo) : Prop :=
  guessedType buffer
    (namedType buffer (if le16 buffer 0x1fe ≠ 0xaa55 then PARTITION_LINUX else p.partitionType)) = NTFS

/-- A record size of an NTFS volume is a number of clusters, or a power of two of 32 bits. -/
def SoundRecordSize (buffer : Image) : Prop :=
  clustersPerFileRecord buffer ≤ 0x80
    ∨ (0xE1 ≤ clustersPerFileRecord buffer ∧ clustersPerFileRecord buffer ≤ 0x100)

/-- A superblock's groups have blocks, and a block has at most 128 sectors. -/
def SoundSuperblock (buffer : Image) : Prop :=
  u32 (sLogBlockSize buffer + 1) ≤ 7 ∧ sBlocksPerGroup buffer ≠ 0

/--
The branch that is taken finds sound sizes.

Without a valid signature there is no branch, and behind a parameter block that makes no sense
the superblock is looked at, if there is one.
-/
def SoundGeometry (buffer : Image) (p : PartitionInfo) : Prop :=
  (le16 buffer 0x1fe ≠ 0xaa55 ∧ sMagic buffer ≠ 0xEF53)
    ∨ ((SaneBlock buffer → NamesNtfs buffer p → SoundRecordSize buffer)
      ∧ (¬ SaneBlock buffer → sMagic buffer = 0xEF53 → SoundSuperblock buffer))

end Okr
