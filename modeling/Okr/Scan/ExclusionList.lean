import Okr.Scan.MappingPairs

/-! The sectors of a file of an NTFS volume that the backup leaves out. -/

namespace Okr

open Blocks (Extent)

/-- The type of the attribute that lists the attributes of a file in other records. -/
def AttributeAttributeList : Nat := 0x20

/-- The byte of an attribute that tells whether its value is outside the record, and its name's length. -/
def nonresident (record : Image) (attr : Nat) : Nat := (record (attr + 8)).toNat
def attributeNameLength (record : Image) (attr : Nat) : Nat := (record (attr + 9)).toNat

/-- The offset of a value that is in the record. -/
def valueOffset (record : Image) (attr : Nat) : Nat := le16 record (attr + 20)

/-- The first and the last position of the file that an attribute outside the record has. -/
def lowVcn (record : Image) (attr : Nat) : Nat := le64 record (attr + 16)
def highVcn (record : Image) (attr : Nat) : Nat := le64 record (attr + 24)

/-- An entry of an attribute list: its type, its length and the record the attribute is in. -/
def listedType (record : Image) (entry : Nat) : Nat := le32 record entry
def listedLength (record : Image) (entry : Nat) : Nat := le16 record (entry + 4)
def listedReference (record : Image) (entry : Nat) : Nat := le32 record (entry + 16)

/-- The loop over `FindRun`: the runs, as far as the list has room, and the position behind them. -/
def vcnLoop (fuel : Nat) (record : Image) (attr : Nat) : Nat → Nat → Option (List FoundRun × Nat)
  | 0, vcn => some ([], vcn)
  | room + 1, vcn =>
    match findRun fuel record attr vcn with
    | none => none
    | some none => some ([], vcn)
    | some (some r) =>
      (vcnLoop fuel record attr room (u32 (vcn + r.count))).map fun l => (r :: l.1, l.2)

/--
The first loop of `FindAttributeFromAttributeListEx`: entries of other types are passed over.

`offset` grows by the length of the entry that is reached, not of the one that is left.
-/
def skipEntries (record : Image) (attrType attrlistlen : Nat) : Nat → Nat → Nat → Option (Option Nat)
  | 0, _, _ => none
  | fuel + 1, attrlist, offset =>
    if listedType record attrlist = attrType then some (some attrlist)
    else if listedType record attrlist = 0 ∨ listedType record attrlist = attributeEnd
        ∨ listedLength record attrlist = 0 then some none
    else
      let next := attrlist + listedLength record attrlist
      let offset := u32 (offset + listedLength record next)
      if offset ≥ attrlistlen then some none else skipEntries record attrType attrlistlen fuel next offset

/--
The second loop: the records of the entries are read until one has the position.

It gives the attribute and its entry, and what the buffer holds then.
-/
def tryEntries (fuel : Nat) (getNtfsFileRecord : Nat → Image → Image) (record : Image)
    (attrType vcn : Nat) : Nat → Nat → Image → Option (Option (Nat × Nat) × Image)
  | 0, _, _ => none
  | passes + 1, attrlist, buffer =>
    if listedType record attrlist ≠ attrType then some (none, buffer)
    else
      let buffer := getNtfsFileRecord (listedReference record attrlist) buffer
      let next := attrlist + listedLength record attrlist
      match findAttribute fuel buffer attrType with
      | none => none
      | some none => tryEntries fuel getNtfsFileRecord record attrType vcn passes next buffer
      | some (some attr) =>
        if vcn < lowVcn buffer attr ∨ vcn > highVcn buffer attr then
          tryEntries fuel getNtfsFileRecord record attrType vcn passes next buffer
        else some (some (attr, attrlist), buffer)

/-- `FindAttributeFromAttributeListEx`: the attribute, and how far its entry is from `AttrList`. -/
def findAttributeFromAttributeListEx (fuel : Nat) (getNtfsFileRecord : Nat → Image → Image)
    (record : Image) (attrList : Nat) (bAttrHeader : Bool) (attrType vcn : Nat) (buffer : Image) :
    Option (Option (Nat × Nat) × Image) :=
  if bAttrHeader ∧ nonresident record attrList = 1 then some (none, buffer)
  else
    let attrlistlen := if bAttrHeader then le32 record (attrList + 4) else 1024
    let attrlist := if bAttrHeader then attrList + valueOffset record attrList else attrList
    match skipEntries record attrType attrlistlen fuel attrlist 0 with
    | none => none
    | some none => some (none, buffer)
    | some (some entry) =>
      (tryEntries fuel getNtfsFileRecord record attrType vcn fuel entry buffer).map fun found =>
        (found.1.map fun f => (f.1, (f.2 - attrList) % 2 ^ 16), found.2)

/-- The loop of `GetInodeVcnList` over an attribute list. -/
def attributeListLoop (fuel : Nat) (getNtfsFileRecord : Nat → Image → Image) (record : Image)
    (attrlistlen : Nat) :
    Nat → Nat → Bool → Nat → Nat → Nat → Image → Option (List FoundRun)
  | 0, _, _, _, _, _, _ => none
  | passes + 1, attrlist, bAttrHeader, offset, vcn, room, buffer =>
    if offset < attrlistlen then
      match findAttributeFromAttributeListEx fuel getNtfsFileRecord record attrlist bAttrHeader
          AttributeData vcn buffer with
      | none => none
      | some (none, _) => some []
      | some (some (attr, attroffset), buffer) =>
        match vcnLoop fuel buffer attr room vcn with
        | none => none
        | some (list, vcn) =>
          if room ≤ list.length then some list
          else
            let entry := attrlist + attroffset
            let length := listedLength record entry
            (attributeListLoop fuel getNtfsFileRecord record attrlistlen passes (entry + length) false
              ((offset + attroffset + length) % 2 ^ 16) vcn (room - list.length) buffer).map (list ++ ·)
    else some []

/-- `GetInodeVcnList`; `heap` is what the buffer for the other records holds at first. -/
def getInodeVcnList (fuel : Nat) (getNtfsFileRecord : Nat → Image → Image) (heap record : Image)
    (maxListNumber : Nat) : Option (List FoundRun) :=
  match findAttribute fuel record AttributeData with
  | none => none
  | some (some attr) => (vcnLoop fuel record attr maxListNumber 0).map Prod.fst
  | some none =>
    match findAttribute fuel record AttributeAttributeList with
    | none => none
    | some none => some []
    | some (some attrlist) =>
      attributeListLoop fuel getNtfsFileRecord record (le32 record (attrlist + 4)) fuel attrlist true 0 0
        maxListNumber heap

/-- `GetInodeSectorList`: a run in sectors of the partition. -/
def inSectors (sectorsPerClr : Nat) (r : FoundRun) : Extent where
  start := u64 (r.lcn * sectorsPerClr)
  number := u32 (r.count * sectorsPerClr)

/-- What `DumpFileSectorListNtfs` finds of the volume and of the file. -/
structure ExclusionVolume where
  sectorsPerClr : Nat
  loadMFT : Bool
  /-- The number that `FindInodeFromNameInRoot` returns, and what its buffer holds then. -/
  inode : Nat
  root : Image
  /-- The buffer after `GetNtfsFileRecord`, which leaves it as it was where it fails. -/
  getNtfsFileRecord : Nat → Image → Image
  heap : Image

/-- The record of the file. -/
def ExclusionVolume.record (v : ExclusionVolume) : Image := v.getNtfsFileRecord v.inode v.root

/-- `DumpFileSectorListNtfs`. -/
def dumpFileSectorListNtfs (fuel : Nat) (v : ExclusionVolume) (maxListNumber : Nat) :
    Option (List Extent) :=
  if ¬ v.loadMFT ∨ v.inode = 0 then some []
  else
    (getInodeVcnList fuel v.getNtfsFileRecord v.heap v.record maxListNumber).map
      (List.map (inSectors v.sectorsPerClr))

end Okr
