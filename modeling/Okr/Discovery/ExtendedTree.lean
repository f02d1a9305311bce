import Okr.Discovery.Partitions

/-! The tree of extended boot records on a disk, and what a walk of it has to leave in the table. -/

namespace Okr

/-- The entries of a boot record from one on, with the records they lead to. -/
inductive Entries where
  | nil
  | other (rest : Entries)
  | partition (start : Nat) (rest : Entries)
  | link (record rest : Entries)
deriving Repr, DecidableEq

namespace Entries

/-- The first sectors of the logical partitions, in the order of the entries. -/
def starts : Entries → List Nat
  | nil => []
  | other rest => rest.starts
  | partition start rest => start :: rest.starts
  | link record rest => record.starts ++ rest.starts

/-- How many records the entries lead to. -/
def links : Entries → Nat
  | nil => 0
  | other rest => rest.links
  | partition _ rest => rest.links
  | link record rest => 1 + record.links + rest.links

end Entries

/-- Where an entry of the record in a sector stands on the disk. -/
def diskEntry (sector i : Nat) : Nat := sector * SECTOR_SIZE + 0x1be + 16 * i

/-- A sector that can be read and has the signature of a boot record. -/
def IsRecord (disk : ScanDisk) (sector : Nat) : Prop :=
  disk.readable sector 1 = true ∧ le16 disk.bytes (sector * SECTOR_SIZE + 0x1fe) = 0xaa55

instance (disk : ScanDisk) (sector : Nat) : Decidable (IsRecord disk sector) :=
  inferInstanceAs (Decidable (_ ∧ _))

/-- Is an entry taken for a partition? Its place is a usual one, or leads to a boot sector. -/
def knownOnDisk (disk : ScanDisk) (sector i : Nat) : Bool :=
  let start := u64 (sector + entryFront disk.bytes (diskEntry sector i))
  verifyPartition disk.bytes (diskEntry sector i) sector disk
    || (disk.readable start 1 && le16 disk.bytes (start * SECTOR_SIZE + 0x1fe) == 0xAA55)

/-- The sector from which links count: the first record's own one. -/
def baseSector (base sector : Nat) : Nat := if base = 0 then sector else base

/--
The disk has the tree of entries in the record of a sector, from the entry `i` on.

Sector numbers of records have 32 bits, and those of partitions 64.
-/
def Entries.At (disk : ScanDisk) : Entries → Nat → Nat → Nat → Prop
  | .nil, _, _, i => i = 4
  | .other rest, base, sector, i =>
    isExtend (entryPid disk.bytes (diskEntry sector i)) = false
      ∧ (entryPid disk.bytes (diskEntry sector i) = 0 ∨ knownOnDisk disk sector i = false)
      ∧ rest.At disk base sector (i + 1)
  | .partition start rest, base, sector, i =>
    isExtend (entryPid disk.bytes (diskEntry sector i)) = false
      ∧ entryPid disk.bytes (diskEntry sector i) ≠ 0
      ∧ knownOnDisk disk sector i = true
      ∧ start = u64 (sector + entryFront disk.bytes (diskEntry sector i))
      ∧ rest.At disk base sector (i + 1)
  | .link record rest, base, sector, i =>
    let next := u32 (entryFront disk.bytes (diskEntry sector i) + base)
    isExtend (entryPid disk.bytes (diskEntry sector i)) = true
      ∧ IsRecord disk next
      ∧ record.At disk (baseSector base next) next 0
      ∧ rest.At disk base sector (i + 1)

instance Entries.decidableAt (disk : ScanDisk) :
    ∀ (t : Entries) (base sector i : Nat), Decidable (t.At disk base sector i)
  | .nil, _, _, i => inferInstanceAs (Decidable (i = 4))
  | .other rest, base, sector, i =>
    have := decidableAt disk rest base sector (i + 1)
    inferInstanceAs (Decidable (_ ∧ _ ∧ _))
  | .partition _ rest, base, sector, i =>
    have := decidableAt disk rest base sector (i + 1)
    inferInstanceAs (Decidable (_ ∧ _ ∧ _ ∧ _ ∧ _))
  | .link record rest, base, sector, i =>
    have := decidableAt disk rest base sector (i + 1)
    have := decidableAt disk record
      (baseSector base (u32 (entryFront disk.bytes (diskEntry sector i) + base)))
      (u32 (entryFront disk.bytes (diskEntry sector i) + base)) 0
    inferInstanceAs (Decidable (_ ∧ _ ∧ _ ∧ _))

/-- The entry at an address of the buffer leads to a tree of records. -/
def Entries.Behind (disk : ScanDisk) (prt base : Nat) (s : Discovery) (t : Entries) : Prop :=
  let sector := u32 (entryFront s.buffer prt + base)
  IsRecord disk sector ∧ t.At disk (baseSector base sector) sector 0

instance (disk : ScanDisk) (prt base : Nat) (s : Discovery) (t : Entries) :
    Decidable (t.Behind disk prt base s) := inferInstanceAs (Decidable (_ ∧ _))

/-- A call of `ParseMasterPartition`, with the state it is made in. -/
structure MasterCall where
  prt : Nat
  index : Nat
  begin_ : Nat
  at_ : Nat
  s : Discovery

/-- The call writes a slot of the table, but does not keep the partition. -/
def MasterCall.Refused (disk : ScanDisk) (diskNumber : Nat) (c : MasterCall) : Prop :=
  (isKnownEntry disk c.prt c.begin_ c.at_ c.s).1 = true
    ∧ (parseMasterPartition disk (some c.prt) c.index c.begin_ (entryTotal c.s.buffer c.prt)
        diskNumber c.at_ c.s).1 = false

/-- The calls one entry leads to; `calls` are those of a walk from an entry on. -/
def entryCalls (calls : Nat → Nat → Nat → Nat → Discovery → List MasterCall)
    (begin nextBegin at_ prt : Nat) (e : ExtendState) : List MasterCall :=
  let pid := entryPid e.s.buffer prt
  if isExtend pid then calls prt e.partitionIndex begin (at_ + 512) e.s
  else if pid ≠ 0 then [⟨prt, e.partitionIndex, nextBegin, at_ + 512, e.s⟩]
  else []

/-- The calls of the loop over the entries. -/
def loopCalls (walk : Nat → Nat → Nat → Nat → Discovery → Nat × Discovery)
    (calls : Nat → Nat → Nat → Nat → Discovery → List MasterCall) (disk : ScanDisk)
    (begin nextBegin diskNumber at_ : Nat) : List Nat → ExtendState → List MasterCall
  | [], _ => []
  | prt :: prts, e =>
    let after := extendEntry walk disk begin nextBegin diskNumber at_ prt e
    entryCalls calls begin nextBegin at_ prt e
      ++ if 32 ≤ after.partitionIndex then []
        else loopCalls walk calls disk begin nextBegin diskNumber at_ prts after

/-- The calls of `ParseMasterPartition` that `ParseExtendPartition` makes, in their order. -/
def extendCalls (disk : ScanDisk) (diskNumber : Nat) :
    Nat → Nat → Nat → Nat → Nat → Discovery → List MasterCall
  | 0, _, _, _, _, _ => []
  | fuel + 1, prt, index, begin, at_, s =>
    let s := { s with recursiveTimes := s.recursiveTimes + 1 }
    if 32 ≤ s.recursiveTimes then []
    else
      let nextBegin := u32 (entryFront s.buffer prt + begin)
      let begin := if begin = 0 then nextBegin else begin
      match s.read disk nextBegin 1 at_ with
      | (false, _) => []
      | (true, s) =>
        if le16 s.buffer (at_ + 0x1fe) ≠ 0xaa55 then []
        else
          loopCalls (parseExtendPartition disk diskNumber fuel) (extendCalls disk diskNumber fuel) disk
            begin nextBegin diskNumber at_ (recordEntries at_) ⟨index, 0, s⟩

/--
A call of `ParseExtendPartition` recorded the logical partitions of a tree.

They are in the slots from `index` on, each with its first sector, and no other slot was written.
-/
structure RecordsTree (t : Entries) (index : Nat) (s : Discovery) (result : Nat × Discovery) :
    Prop where
  count : result.1 = t.starts.length
  filled : ∀ k (short : k < t.starts.length), (result.2.table (index + k)).bootBegin = t.starts[k]
  exactly : ∃ slots : List Nat, result.2.accesses = slots.map .slot ++ s.accesses
    ∧ ∀ i, i ∈ slots ↔ index ≤ i ∧ i < index + t.starts.length
  others : ∀ i, (i < index ∨ index + t.starts.length ≤ i) → result.2.table i = s.table i

/--
The walk gives the partitions of the entries the slots from `index` on.

`found` partitions were found before in the same record.
Behind a link whose record had some before it, the next slot is not the next free one.
At the slot 32 the walk ends.
-/
def Entries.Fits : Entries → Nat → Nat → Prop
  | .nil, _, _ => True
  | .other rest, index, found => (rest.starts ≠ [] → index < 32) ∧ rest.Fits index found
  | .partition _ rest, index, found =>
    (rest.starts ≠ [] → index + 1 < 32) ∧ rest.Fits (index + 1) (found + 1)
  | .link record rest, index, found =>
    record.Fits index 0
      ∧ (rest.starts ≠ [] → found = 0 ∧ index + record.starts.length < 32)
      ∧ rest.Fits (index + record.starts.length) (found + record.starts.length)

instance Entries.decidableFits : ∀ (t : Entries) (index found : Nat), Decidable (t.Fits index found)
  | .nil, _, _ => inferInstanceAs (Decidable True)
  | .other rest, index, found =>
    have := decidableFits rest index found
    inferInstanceAs (Decidable (_ ∧ _))
  | .partition _ rest, index, found =>
    have := decidableFits rest (index + 1) (found + 1)
    inferInstanceAs (Decidable (_ ∧ _))
  | .link record rest, index, found =>
    have := decidableFits record index 0
    have := decidableFits rest (index + record.starts.length) (found + record.starts.length)
    inferInstanceAs (Decidable (_ ∧ _ ∧ _))

end Okr
