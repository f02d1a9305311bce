import Okr.Restore.Serials

/-! The reads of `FindNewHdd` from the record: a pointer is followed only where it was set. -/

namespace Okr

/-- The bytes of the memo from the record on: the record starts 100 bytes into 240. -/
def RECORD_BYTES : Nat := 240 - 100

/-- A pointer of the array `temphddsn` that was set, and leads to bytes of the memo. -/
def SlotFilled (buffer : Image) (i : Nat) : Prop :=
  i < diskcountOf buffer ∧ i < MAX_SUPPORED_HDD_NO ∧ 12 + 20 * i + 20 ≤ RECORD_BYTES

instance (buffer : Image) (i : Nat) : Decidable (SlotFilled buffer i) :=
  inferInstanceAs (Decidable (_ ∧ _ ∧ _))

/-- Follow a pointer of the array. -/
def derefHddsn (buffer : Image) (i : Nat) : Option Serial :=
  if SlotFilled buffer i then some (serialAt buffer (12 + 20 * i)) else none

/-- The comparison of a disk with one entry, which is read first. -/
def readEntry (buffer : Image) (disk : DiskInfo) (m : Marking) (i : Nat) : Option Marking :=
  (derefHddsn buffer i).map fun sn => compareEntry (fun _ => sn) disk m i

/-- One disk of the outer loop of `FindNewHdd`: its new mark, when it gets one. -/
def readMarkOf (buffer : Image) (disk : DiskInfo) : Option (Option DiskType) :=
  if disk.totalsector = 0 ∨ checkIfSnZero disk.disksn then some none
  else
    ((List.range (diskcountOf buffer)).foldlM (readEntry buffer disk)
      ⟨disk.disksn, disk.curdisktype, false⟩).map fun m =>
        some (if m.found then m.curdisktype else .newFound)

/-- The marks of all disks, one after the other. -/
def readMarks (buffer : Image) : List DiskInfo → Option (List (Option DiskType))
  | [] => some []
  | disk :: disks =>
    match readMarkOf buffer disk with
    | none => none
    | some mark => (readMarks buffer disks).map (mark :: ·)

/-- `FindNewHdd`, as long as every pointer it follows was set and leads into the memo. -/
def readNewHdd (version : Nat) (buffer : Image) (g : Globals) : Option (Globals × Bool) :=
  let g := { g with curImageSyspartitionsize := 0 }
  if version ≠ OKR_VERSION then some (g, false)
  else if buffer 0 ≠ 0x44 ∨ buffer 1 ≠ 0x53 ∨ buffer 2 ≠ 0x4E then some (g, false)
  else
    let g := { g with curImageSyspartitionsize := le64 buffer 4 }
    if g.curImageSyspartitionsize = 0 then some (g, false)
    else
      match derefHddsn buffer 0 with
      | none => none
      | some sn =>
        let g :=
          { g with
            sysdisktypeInBackupfile := if isSata sn then .sata else .nvme
            enumGSKUSkipType := if isRAIDSerial sn then .newHddFunc else g.enumGSKUSkipType }
        (readMarks buffer g.disklist).map fun marks =>
          ({ g with
              disklist := List.zipWith (fun disk mark =>
                { disk with curdisktype := mark.getD disk.curdisktype }) g.disklist marks },
            marks.any fun mark => mark == some .newFound)

/-- The record of a header is looked at: version and mark fit, and a size is recorded. -/
def RecordUsed (version : Nat) (buffer : Image) : Prop :=
  version = OKR_VERSION ∧ buffer 0 = 0x44 ∧ buffer 1 = 0x53 ∧ buffer 2 = 0x4E ∧ le64 buffer 4 ≠ 0

instance (version : Nat) (buffer : Image) : Decidable (RecordUsed version buffer) :=
  inferInstanceAs (Decidable (_ ∧ _ ∧ _ ∧ _ ∧ _))

end Okr
