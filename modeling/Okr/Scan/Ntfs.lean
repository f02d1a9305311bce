import Okr.Base.Disk
import Okr.Lib.Blocks

/-! The runs of an NTFS file: its record, its attributes and its mapping pairs. -/

namespace Okr

open Blocks (Extent)

/-- Index of the `$Bitmap` record in the master file table. -/
def INODE_BITMAP : Nat := 6

/-- The type of a data attribute, and the number that ends the attributes of a record. -/
def AttributeData : Nat := 0x80
def attributeEnd : Nat := 0xffffffff

/-- Slots of `m_BitmapSectorList`. -/
def BITMAP_SECTOR_LIST : Nat := 0x10

/-- Offsets of the update sequence array and of the attributes in a file record. -/
def usaOffset (record : Image) : Nat := le16 record 4
def usaCount (record : Image) : Nat := le16 record 6
def attributesOffset (record : Image) : Nat := le16 record 20

/-- Store a 16-bit number of `source` at another address. -/
def copyWord (buffer : Image) (target source : Nat) : Image := fun i =>
  if i = target then buffer source
  else if i = target + 1 then buffer (source + 1)
  else buffer i

/-- The loop of `FixupInode`: the last word of each sector comes from the update sequence array. -/
def fixupLoop : Nat → Nat → Image → Image
  | 0, _, record => record
  | n + 1, i, record =>
    fixupLoop n (i + 1) (copyWord record (510 + 512 * (i - 1)) (usaOffset record + 2 * i))

/-- `FixupInode`; its callers pass the size in bytes or in sectors. -/
def fixupInode (record : Image) (inodeSize : Nat) : Option Image :=
  if usaCount record > inodeSize + 1 ∨ usaCount record = 0 then none
  else some (fixupLoop (usaCount record - 1) 1 record)

/-- The loop of `FindAttribute`; nothing when it never ends, no address when it finds none. -/
def findAttributeLoop (record : Image) (attrType : Nat) : Nat → Nat → Option (Option Nat)
  | 0, _ => none
  | fuel + 1, attr =>
    if le32 record attr = attributeEnd then some none
    else if le32 record attr = attrType then some (some attr)
    else findAttributeLoop record attrType fuel (attr + le32 record (attr + 4))

/-- `FindAttribute`: the address of the first attribute of a type. -/
def findAttribute (fuel : Nat) (record : Image) (attrType : Nat) : Option (Option Nat) :=
  findAttributeLoop record attrType fuel (attributesOffset record)

/-- The two nibbles in front of a run: the bytes of its count and of its cluster offset. -/
def runCountBytes (record : Image) (run : Nat) : Nat := (record run).toNat % 16
def runLcnBytes (record : Image) (run : Nat) : Nat := (record run).toNat / 16

/-- `RunLength`: the bytes of a run. -/
def runLength (record : Image) (run : Nat) : Nat :=
  runCountBytes record run + runLcnBytes record run + 1

/-- `(x << 8) + byte` over `n` bytes that end in front of `stop`, the highest first, in 64 bits. -/
def shiftIn (record : Image) (first : Nat) : Nat → Nat → Nat
  | 0, x => x
  | n + 1, x => shiftIn record first n (u64 (x * 2 ^ 8 + (record (first + n)).toNat))

/-- A signed byte widened to 64 bits. -/
def signExtend (b : Byte) : Nat :=
  if b.toNat < 2 ^ 7 then b.toNat else 2 ^ 64 - 2 ^ 8 + b.toNat

/-- `RunLCN`: the signed difference to the cluster of the run before. -/
def runLCN (record : Image) (run : Nat) : Nat :=
  let n1 := runCountBytes record run
  let n2 := runLcnBytes record run
  if n2 = 0 then 0
  else shiftIn record (run + n1 + 1) (n2 - 1) (signExtend (record (run + n1 + n2)))

/-- `RunCount`: the clusters of a run, cut to 32 bits. -/
def runCount (record : Image) (run : Nat) : Nat :=
  u32 (shiftIn record (run + 1) (runCountBytes record run) 0)

/-- What `FindRun` finds: the cluster of a file position and how many follow it in the run. -/
structure FoundRun where
  lcn : Nat
  count : Nat
  deriving DecidableEq, Repr

/-- The loop of `FindRun`; nothing when it never ends. -/
def findRunLoop (record : Image) (vcn : Nat) : Nat → Nat → Nat → Nat → Option (Option FoundRun)
  | 0, _, _, _ => none
  | fuel + 1, run, base, lcn =>
    if record run = 0 then some none
    else
      let lcn := u64 (lcn + runLCN record run)
      let count := runCount record run
      if vcn ≥ base ∧ vcn < u64 (base + count) then
        some (some
          { lcn := if runLCN record run = 0 then 0 else sub64 (u64 (lcn + vcn)) base
            count := u32 (count + 2 ^ 32 - u32 (sub64 vcn base)) })
      else findRunLoop record vcn fuel (run + runLength record run) (u64 (base + count)) lcn

/-- `FindRun` over the attribute at an address. -/
def findRun (fuel : Nat) (record : Image) (attr vcn : Nat) : Option (Option FoundRun) :=
  if vcn < le64 record (attr + 16) ∨ vcn > le64 record (attr + 24) then some none
  else findRunLoop record vcn fuel (attr + le16 record (attr + 32)) (le64 record (attr + 16)) 0

/-- The loop of `GetBitmapFileRecordSector` over the first runs of the master file table. -/
def bitmapRecordLoop (fuel : Nat) (record : Image) (attr secperclr : Nat) :
    Nat → Nat → Nat → Option Nat
  | 0, _, _ => some 0
  | i + 1, offset, vcn =>
    match findRun fuel record attr vcn with
    | none => none
    | some none => some 0
    | some (some r) =>
      if offset < u32 (r.count * secperclr) then some (u64 (r.lcn * secperclr + offset))
      else
        bitmapRecordLoop fuel record attr secperclr i
          (u32 (offset + 2 ^ 32 - u32 (r.count * secperclr))) (u64 (vcn + r.count))

/-- `GetBitmapFileRecordSector`, and the buffer it leaves; zero stands for failure. -/
def getBitmapFileRecordSector (fuel : Nat) (disk : Image) (p : PartitionInfo) (buffer : Image) :
    Option (Nat × Image) :=
  let recordsize := p.sectorsPerFileRecord
  let buffer := diskRead disk (p.bootBegin + p.mftBeginSector) recordsize buffer
  match fixupInode buffer (recordsize * SECTOR_SIZE) with
  | none => some (0, buffer)
  | some buffer =>
    match findAttribute fuel buffer AttributeData with
    | none => none
    | some none => some (0, buffer)
    | some (some attr) =>
      (bitmapRecordLoop fuel buffer attr p.sectorsPerClr 3 (INODE_BITMAP * recordsize) 0).map
        (·, buffer)

/-- The loop of `InitNTFS`: the runs of `$Bitmap` in sectors, as far as the array has room. -/
def bitmapRunsLoop (fuel : Nat) (record : Image) (attr secperclr : Nat) :
    Nat → Nat → Option (List Extent)
  | 0, _ => some []
  | i + 1, vcn =>
    match findRun fuel record attr vcn with
    | none => none
    | some none => some []
    | some (some r) =>
      (bitmapRunsLoop fuel record attr secperclr i (u64 (vcn + r.count))).map
        ({ start := u64 (r.lcn * secperclr), number := u32 (r.count * secperclr) } :: ·)

/-- `InitNTFS`: the filled front of `m_BitmapSectorList`, or no list when it returns FALSE. -/
def initNTFS (fuel : Nat) (disk : Image) (p : PartitionInfo) (buffer : Image) :
    Option (Option (List Extent)) :=
  let recordsize := p.sectorsPerFileRecord
  let secperclr := p.sectorsPerClr
  if secperclr &&& (secperclr - 1) ≠ 0 ∨ recordsize > 32 then some none
  else
    match getBitmapFileRecordSector fuel disk p buffer with
    | none => none
    | some (0, _) => some none
    | some (bitmapsector, buffer) =>
      let buffer := diskRead disk (u64 (bitmapsector + p.bootBegin)) recordsize buffer
      match fixupInode buffer recordsize with
      | none => some none
      | some buffer =>
        match findAttribute fuel buffer AttributeData with
        | none => none
        | some none => some none
        | some (some attr) =>
          (bitmapRunsLoop fuel buffer attr secperclr BITMAP_SECTOR_LIST 0).map some

end Okr
