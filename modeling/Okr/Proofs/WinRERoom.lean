import Okr.Proofs.NewHdd

/-! Whether the entry that becomes WinRE's has room for the sectors the image restores there. -/

namespace Okr

open Slots

/-- The functions that write an entry of WinRE onto a new disk. -/
inductive WinREWriter where
  | fixNewHDD
  | fixNewHDDPartitionTable
  | fixNoDataPartTable
deriving DecidableEq, Repr

/-- What a function leaves. -/
def WinREWriter.run (writer : WinREWriter) (fw : Firmware) (bootBegin totalSector : Nat) (n : NewDisk) :
    NewDisk :=
  match writer with
  | .fixNewHDD => Okr.fixNewHDD fw bootBegin totalSector n
  | .fixNewHDDPartitionTable => Okr.fixNewHDDPartitionTable fw n
  | .fixNoDataPartTable => Okr.fixNoDataPartTable fw bootBegin totalSector n

/-- There is room for a data partition between the system and WinRE. -/
def roomForData (bootBegin totalSector : Nat) (n : NewDisk) : Prop :=
  n.totalsector > u64 (0x64000 + u64 (u64 (bootBegin + totalSector) + n.wireTotalSectors))

instance (bootBegin totalSector : Nat) (n : NewDisk) : Decidable (roomForData bootBegin totalSector n) :=
  inferInstanceAs (Decidable (_ > _))

/-- Where `FixNewHDD` keeps the entry of WinRE: behind the system, or behind the data partition. -/
def keptPlace (bootBegin totalSector : Nat) (n : NewDisk) (table : Image) : Nat :=
  entryStarting table bootBegin + if roomForData bootBegin totalSector n then 2 else 1

/-- The entry a function makes that of WinRE, if it makes one. -/
def WinREWriter.entry (writer : WinREWriter) (fw : Firmware) (bootBegin totalSector : Nat)
    (n : NewDisk) : Option Nat :=
  let table := readGpt n.disk fw.heap
  match writer with
  | .fixNewHDD =>
    if findsSystem fw bootBegin totalSector n ∧ n.winREState ≠ 0
        ∧ keptPlace bootBegin totalSector n table ≤ winREEntry table then
      some (keptPlace bootBegin totalSector n table)
    else none
  | .fixNewHDDPartitionTable =>
    if hasTable fw n then (chooseRecord (put 4 table 0x10 0) n.header).map Prod.snd else none
  | .fixNoDataPartTable =>
    if findsSystem fw bootBegin totalSector n ∧ n.winREState ≠ 0 then
      some (entryStarting table bootBegin + 1)
    else none

/-- The entry has so many sectors from its first one to its last. -/
def RoomFor (sectors : Nat) (slot : Slot) : Prop := slot.first + sectors ≤ slot.last + 1

/-- Where `FixNoDataPartTable` starts WinRE: behind the system, or so that it ends with the disk. -/
def noDataFirst (bootBegin totalSector : Nat) (n : NewDisk) : Nat :=
  if n.totalsector > u64 (u64 (bootBegin + totalSector) + n.wireTotalSectors) then
    low16 (u64 (bootBegin + totalSector + 0xF))
  else
    low16 (u64 (bootBegin
      + sub64 (sub64 n.totalsector (u64 (bootBegin + n.wireTotalSectors))) 0x22))

/--
When the entry a function writes has room for WinRE.

`FixNoDataPartTable` rounds the end behind the last sector down to 256, which loses sectors unless at
most one is behind the boundary. At the end of the disk both ends are rounded, and the end must not
lose more than the start. `FixNewHDD` keeps the place that the entry of the image has.
-/
def WinREWriter.Holds (writer : WinREWriter) (fw : Firmware) (bootBegin totalSector : Nat)
    (n : NewDisk) : Prop :=
  match writer with
  | .fixNewHDD =>
    let table := readGpt n.disk fw.heap
    RoomFor n.wireTotalSectors (slotAt table (winREEntry table))
  | .fixNewHDDPartitionTable =>
    n.wireTotalSectors + 0x22 ≤ n.totalsector
      ∧ (n.totalsector - 0x22) % 256 ≤ (n.totalsector - n.wireTotalSectors - 0x22) % 16 + 1
  | .fixNoDataPartTable =>
    let behind := noDataFirst bootBegin totalSector n + n.wireTotalSectors
    behind < 2 ^ 64 ∧ behind % 256 ≤ 1

/-! ### The place each function enters -/

variable {fw : Firmware} {bootBegin totalSector : Nat} {n : NewDisk}

/-- `FixNoDataPartTable` puts WinRE into the entry behind the system's. -/
theorem noDataEntries_slot {k : Nat} (buffer : Image) (state : n.winREState ≠ 0) :
    slotAt (noDataEntries bootBegin totalSector k buffer n).1 (k + 1)
      = { used := True
          first := noDataFirst bootBegin totalSector n
          last := low256 (u64 (noDataFirst bootBegin totalSector n + n.wireTotalSectors)) } := by
  -- Either way the entry is written first, and only entries behind it are cleared.
  simp only [noDataEntries, noDataFirst, if_pos state]
  split
  · rename_i enough
    dsimp only
    rw [(sameEntry_clearFrom (Nat.lt_succ_self _)).slot]
    exact slotAt_putWinRE (low16_lt (u64_lt _)) (low256_lt (u64_lt _))
  · rename_i tight
    dsimp only
    rw [(sameEntry_clearFrom (Nat.lt_succ_self _)).slot]
    exact slotAt_putWinRE (low16_lt (u64_lt _)) (low256_lt (u64_lt _))

/-- Behind the system so many sectors fit when their end is not rounded away. -/
theorem roomFor_behind {first sectors : Nat} :
    RoomFor sectors { used := True, first := first, last := low256 (u64 (first + sectors)) }
      ↔ first + sectors < 2 ^ 64 ∧ (first + sectors) % 256 ≤ 1 := by
  rw [RoomFor, low256_eq (u64_lt _)]
  dsimp only
  by_cases word : first + sectors < 2 ^ 64
  · rw [u64_eq word]
    omega
  · -- An end that wraps around lies far in front of the start.
    have wrapped : u64 (first + sectors) + 2 ^ 64 ≤ first + sectors := by
      rw [u64]
      omega
    omega

/-- At the end of the disk so many sectors fit when the end loses no more than the start. -/
theorem roomFor_end (size : 0x22 ≤ n.totalsector) (fits : n.totalsector < 2 ^ 64)
    (word : n.wireTotalSectors < 2 ^ 64) :
    RoomFor n.wireTotalSectors (placedSlot n)
      ↔ n.wireTotalSectors + 0x22 ≤ n.totalsector
        ∧ (n.totalsector - 0x22) % 256 ≤ (n.totalsector - n.wireTotalSectors - 0x22) % 16 + 1 := by
  have last : low256 (sub64 n.totalsector 0x22) = (n.totalsector - 0x22) / 256 * 256 := by
    rw [sub64_eq size fits]
    exact low256_eq (by omega)
  rw [RoomFor, placedSlot, last, low16_eq (sub64_lt _ _)]
  dsimp only
  by_cases room : n.wireTotalSectors + 0x22 ≤ n.totalsector
  · have first : sub64 (sub64 n.totalsector n.wireTotalSectors) 0x22
        = n.totalsector - n.wireTotalSectors - 0x22 := by
      rw [sub64_eq (by omega) fits, sub64_eq (by omega) (by omega)]
    rw [first]
    omega
  · -- A start that wraps around lies far behind the end.
    have first : sub64 (sub64 n.totalsector n.wireTotalSectors) 0x22
        = n.totalsector + 2 ^ 64 - n.wireTotalSectors - 0x22 := by
      simp only [sub64]
      omega
    rw [first]
    omega

/-- `FixNewHDD` copies the image's entry of WinRE in front of its place. -/
theorem newHddTable_kept (state : n.winREState ≠ 0)
    (behind : keptPlace bootBegin totalSector n (readGpt n.disk fw.heap)
      ≤ winREEntry (readGpt n.disk fw.heap)) :
    slotAt (newHddTable fw bootBegin totalSector n)
        (keptPlace bootBegin totalSector n (readGpt n.disk fw.heap))
      = slotAt (readGpt n.disk fw.heap) (winREEntry (readGpt n.disk fw.heap)) := by
  have search : (findEntry fun m => le64 (fitHeader n.totalsector (readGpt n.disk fw.heap)) (entryPos m)
      == winrePartGUID1) = winREEntry (readGpt n.disk fw.heap) :=
    winREEntry_fitHeader n.totalsector (readGpt n.disk fw.heap)
  rw [newHddTable, newHddEntries]
  dsimp only
  rw [search]
  -- with room for a data entry the kept entry stands one place further on
  by_cases room : roomForData bootBegin totalSector n
  · have place : keptPlace bootBegin totalSector n (readGpt n.disk fw.heap)
        = entryStarting (readGpt n.disk fw.heap) bootBegin + 2 := by rw [keptPlace, if_pos room]
    rw [place] at behind ⊢
    rw [roomForData] at room
    rw [if_pos room]
    dsimp only
    rw [keepWinRE, if_pos ⟨state, behind⟩, (sameEntry_clearFrom (Nat.lt_succ_self _)).slot,
      slotAt_copyMem, (addDataEntry_other (by omega)).slot, slotAt_fitHeader]
  · have place : keptPlace bootBegin totalSector n (readGpt n.disk fw.heap)
        = entryStarting (readGpt n.disk fw.heap) bootBegin + 1 := by rw [keptPlace, if_neg room]
    rw [place] at behind ⊢
    rw [roomForData] at room
    rw [if_neg room]
    dsimp only
    rw [keepWinRE, if_pos ⟨state, behind⟩, (sameEntry_clearFrom (Nat.lt_succ_self _)).slot,
      slotAt_copyMem]
    have other : ∀ table : Image, SameEntry table
        (growSystem (entryStarting (readGpt n.disk fw.heap) bootBegin) table n)
        (winREEntry (readGpt n.disk fw.heap)) :=
      fun _ => SameEntry.put_entry (by omega) (by decide)
    rw [(other _).slot, slotAt_fitHeader]

/-! ### The entry on the disk -/

/-- `FixNewHDD` leaves the image's entry of WinRE behind the others. -/
theorem newHdd_written (found : findsSystem fw bootBegin totalSector n = true)
    (state : n.winREState ≠ 0)
    (behind : keptPlace bootBegin totalSector n (readGpt n.disk fw.heap)
      ≤ winREEntry (readGpt n.disk fw.heap)) :
    slotAt (readGpt (fixNewHDD fw bootBegin totalSector n).disk fw.heap)
        (keptPlace bootBegin totalSector n (readGpt n.disk fw.heap))
      = slotAt (readGpt n.disk fw.heap) (winREEntry (readGpt n.disk fw.heap)) := by
  -- The place is among the first entries, since the system is.
  have inside : keptPlace bootBegin totalSector n (readGpt n.disk fw.heap) < gptEntries := by
    simp only [findsSystem, Bool.and_eq_true, decide_eq_true_eq] at found
    have near := found.2
    rw [keptPlace, gptEntries]
    split
    · omega
    · omega
  rw [(newHdd_entry found inside).slot, newHddTable_kept state behind]

/-- `FixNewHDDPartitionTable` leaves WinRE at the end of the disk. -/
theorem placed_written (table : hasTable fw n = true) (copies : 67 ≤ n.totalsector)
    (fits : n.totalsector < 2 ^ 64) {i k : Nat}
    (choice : chooseRecord (put 4 (readGpt n.disk fw.heap) 0x10 0) n.header = some (i, k)) :
    slotAt (readGpt (fixNewHDDPartitionTable fw n).disk fw.heap) k = placedSlot n := by
  rw [(placed_entry table copies fits (chooseRecord_inside choice)).slot, placedEntries, choice]
  dsimp only
  rw [placeWinRE]
  dsimp only
  rw [(sameEntry_clearFrom (Nat.lt_succ_self _)).slot,
    slotAt_putWinRE (low16_lt (sub64_lt _ _)) (low256_lt (sub64_lt _ _)), placedSlot]

/-- `FixNoDataPartTable` leaves WinRE behind the system. -/
theorem noData_written (found : findsSystem fw bootBegin totalSector n = true)
    (state : n.winREState ≠ 0) (copies : 67 ≤ n.totalsector) (fits : n.totalsector < 2 ^ 64) :
    slotAt (readGpt (fixNoDataPartTable fw bootBegin totalSector n).disk fw.heap)
        (entryStarting (readGpt n.disk fw.heap) bootBegin + 1)
      = { used := True
          first := noDataFirst bootBegin totalSector n
          last := low256 (u64 (noDataFirst bootBegin totalSector n + n.wireTotalSectors)) } := by
  simp only [findsSystem, hasTable, Bool.and_eq_true, bne_iff_ne, decide_eq_true_eq] at found
  obtain ⟨⟨⟨positive, some_⟩, gpt, efi⟩, near⟩ := found
  have go : ¬(bootBegin = 0 ∨ totalSector = 0) := by omega
  have far : ¬28 < entryStarting (readGpt n.disk fw.heap) bootBegin := by omega
  have inside : entryStarting (readGpt n.disk fw.heap) bootBegin + 1 < gptEntries := by
    simp only [gptEntries]
    omega
  rw [fixNoDataPartTable, if_neg go, if_pos gpt, fittedGpt]
  dsimp only
  rw [if_pos efi]
  dsimp only
  rw [findOs_eq, if_neg far]
  dsimp only
  rw [slotAt_written fw.crc32 copies fits _ _ _ inside, noDataEntries_slot _ state]

/--
The entry of WinRE that a function writes has room for the recorded sectors exactly when the residues
of the sizes allow it.
-/
theorem winRE_roomFor_iff {writer : WinREWriter} {k : Nat} (fits : n.totalsector < 2 ^ 64)
    (word : n.wireTotalSectors < 2 ^ 64) (copies : 67 ≤ n.totalsector)
    (written : writer.entry fw bootBegin totalSector n = some k) :
    RoomFor n.wireTotalSectors
        (slotAt (readGpt (writer.run fw bootBegin totalSector n).disk fw.heap) k)
      ↔ writer.Holds fw bootBegin totalSector n := by
  -- each of the three writers places its entry by its own rule; `written` names the place
  cases writer with
  | fixNewHDD =>
    simp only [WinREWriter.entry] at written
    split at written
    · rename_i all
      obtain ⟨found, state, behind⟩ := all
      cases written
      rw [WinREWriter.run, newHdd_written found state behind]
      rfl
    · cases written
  | fixNewHDDPartitionTable =>
    simp only [WinREWriter.entry] at written
    split at written
    · rename_i table
      obtain ⟨chosen, choice, same⟩ := Option.map_eq_some_iff.mp written
      cases same
      rw [WinREWriter.run, placed_written table copies fits choice]
      exact roomFor_end (by omega) fits word
    · cases written
  | fixNoDataPartTable =>
    simp only [WinREWriter.entry] at written
    split at written
    · rename_i all
      obtain ⟨found, state⟩ := all
      cases written
      rw [WinREWriter.run, noData_written found state copies fits]
      exact roomFor_behind
    · cases written

/-- The sample disk with so many sectors for WinRE. -/
def winREDisk (sectors : Nat) : NewDisk := { sampleNewDisk 2000000 with wireTotalSectors := sectors }

/-- The system is found in the first entry of the sample disk. -/
theorem winREDisk_found (sectors : Nat) :
    findsSystem sampleFirmware 2048 1000000 (winREDisk sectors) = true
      ∧ entryStarting (readGpt (winREDisk sectors).disk sampleFirmware.heap) 2048 = 0 := by
  have on : OnGpt sampleFirmware (sampleNewDisk 2000000) := sampleNewDisk_on (by decide)
  have image := sampleNewDisk_image 2000000
  exact ⟨findsSystem_image (n := winREDisk sectors) ⟨on.gpt, on.efi, on.fits⟩ image (by decide),
    findSystem_image image⟩

/-- Behind the system 960 sectors end at a boundary, and fit. -/
theorem winRE_roomFor_boundary :
    RoomFor 960 (slotAt (readGpt (fixNoDataPartTable sampleFirmware 2048 1000000
      (winREDisk 960)).disk sampleFirmware.heap) 1) := by
  obtain ⟨found, first⟩ := winREDisk_found 960
  have written : WinREWriter.fixNoDataPartTable.entry sampleFirmware 2048 1000000 (winREDisk 960)
      = some 1 := by
    simp only [WinREWriter.entry]
    rw [if_pos ⟨found, by decide⟩, first]
  exact (winRE_roomFor_iff (by decide) (by decide) (by decide) written).mpr
    (show _ < 2 ^ 64 ∧ _ % 256 ≤ 1 by decide)

/-- Of 1000 sectors behind the system 39 are rounded away. -/
theorem winRE_tooSmall :
    ¬∀ (writer : WinREWriter) (fw : Firmware) (bootBegin totalSector : Nat) (n : NewDisk) (k : Nat),
        n.totalsector < 2 ^ 64 → n.wireTotalSectors < 2 ^ 64 → 67 ≤ n.totalsector →
        bootBegin + totalSector + n.wireTotalSectors + 0x22 ≤ n.totalsector →
        writer.entry fw bootBegin totalSector n = some k →
        RoomFor n.wireTotalSectors
          (slotAt (readGpt (writer.run fw bootBegin totalSector n).disk fw.heap) k) := by
  intro roomy
  obtain ⟨found, first⟩ := winREDisk_found 1000
  have written : WinREWriter.fixNoDataPartTable.entry sampleFirmware 2048 1000000 (winREDisk 1000)
      = some 1 := by
    simp only [WinREWriter.entry]
    rw [if_pos ⟨found, by decide⟩, first]
  have room := roomy .fixNoDataPartTable sampleFirmware 2048 1000000 (winREDisk 1000) 1 (by decide)
    (by decide) (by decide) (by decide) written
  have slot := noData_written found (by decide) (by decide) (by decide)
  rw [first] at slot
  rw [WinREWriter.run, slot] at room
  exact absurd room (show ¬(_ + 1000 ≤ _ + 1) by decide)

end Okr
