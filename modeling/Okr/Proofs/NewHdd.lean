import Okr.Proofs.RightRecord

/-! The table with a data partition is in order for some sizes of the disk only. -/

namespace Okr

open Slots (Slot WellFormed Before wellFormed_trim wellFormed_succ)

/-- The entries once the chosen record, if there is one, has been placed. -/
def placedEntries (buffer : Image) (n : NewDisk) : Image :=
  match chooseRecord buffer n.header with
  | none => buffer
  | some chosen => (placeWinRE buffer n chosen.1 chosen.2).1

/-- On a disk with a table `FixNewHDDPartitionTable` writes both copies. -/
theorem fixNewHDDPartitionTable_disk {fw : Firmware} {n : NewDisk} (table : hasTable fw n = true) :
    ∃ disk, (fixNewHDDPartitionTable fw n).disk = writeGptCopies fw.crc32 n.totalsector
      (sealGpt fw.crc32 (placedEntries (put 4 (readGpt n.disk fw.heap) 0x10 0) n)) disk := by
  simp only [hasTable, Bool.and_eq_true] at table
  simp only [fixNewHDDPartitionTable, if_pos table.1, if_pos table.2, placedEntries]
  cases chooseRecord (put 4 (readGpt n.disk fw.heap) 0x10 0) n.header with
  | none => exact ⟨n.disk, rfl⟩
  | some chosen =>
    obtain ⟨disk, header, rest⟩ :=
      placeWinRE_rest (put 4 (readGpt n.disk fw.heap) 0x10 0) n chosen.1 chosen.2
    simp only [rest]
    exact ⟨disk, rfl⟩

/-- Without a table it does nothing. -/
theorem fixNewHDDPartitionTable_bare {fw : Firmware} {n : NewDisk} (bare : ¬ hasTable fw n = true) :
    fixNewHDDPartitionTable fw n = n := by
  simp only [hasTable, Bool.and_eq_true, not_and] at bare
  unfold fixNewHDDPartitionTable
  by_cases gpt : isGPT n.disk = true
  · rw [if_pos gpt]
    simp only [if_neg (bare gpt)]
  · rw [if_neg gpt]

/-- The table `FixNewHDD` writes to the front of the disk where it finds the system. -/
def newHddTable (fw : Firmware) (bootBegin totalSector : Nat) (n : NewDisk) : Image :=
  (newHddEntries fw bootBegin totalSector (entryStarting (readGpt n.disk fw.heap) bootBegin)
    (fitHeader n.totalsector (readGpt n.disk fw.heap)) n).1

/-- The disk on which it writes its table: the first sector behind the system is cleared. -/
def newHddDisk (fw : Firmware) (bootBegin totalSector : Nat) (n : NewDisk) : Image :=
  (newHddEntries fw bootBegin totalSector (entryStarting (readGpt n.disk fw.heap) bootBegin)
    (fitHeader n.totalsector (readGpt n.disk fw.heap)) n).2.disk

/-- Where it finds the system, `FixNewHDD` writes that table. -/
theorem fixNewHDD_disk {fw : Firmware} {bootBegin totalSector : Nat} {n : NewDisk}
    (found : findsSystem fw bootBegin totalSector n = true) :
    (fixNewHDD fw bootBegin totalSector n).disk
      = diskWrite (newHddDisk fw bootBegin totalSector n) 1 (GPT_SIZE / 512)
        (sealGpt fw.crc32 (newHddTable fw bootBegin totalSector n)) := by
  simp only [findsSystem, hasTable, Bool.and_eq_true, bne_iff_ne, decide_eq_true_eq] at found
  obtain ⟨⟨⟨positive, some_⟩, gpt, efi⟩, near⟩ := found
  have go : ¬ (bootBegin = 0 ∨ totalSector = 0) := by omega
  have far : ¬ 28 < entryStarting (readGpt n.disk fw.heap) bootBegin := by omega
  simp only [fixNewHDD, if_neg go, if_pos gpt, fittedGpt, if_pos efi, findOs_eq, if_neg far,
    newHddTable, newHddDisk]

/-- The entries `FixNewHDD` leaves on the disk. -/
theorem newHdd_entry {fw : Firmware} {bootBegin totalSector : Nat} {n : NewDisk}
    (found : findsSystem fw bootBegin totalSector n = true) {l : Nat} (inside : l < gptEntries) :
    SameEntry (newHddTable fw bootBegin totalSector n)
      (readGpt (fixNewHDD fw bootBegin totalSector n).disk fw.heap) l := by
  rw [fixNewHDD_disk found]
  refine (sameEntry_sealGpt fw.crc32 _ l).trans fun a below => ?_
  apply diskRead_diskWrite
  simp only [GPT_SIZE, SECTOR_SIZE, gptEntries, entryPos] at inside ⊢
  omega

/-- The header `FixNewHDD` leaves on the disk, but for its checksums. -/
theorem newHdd_header {fw : Firmware} {bootBegin totalSector : Nat} {n : NewDisk}
    (found : findsSystem fw bootBegin totalSector n = true) {a : Nat} (inside : a < 512)
    (header : a < 0x10 ∨ 0x14 ≤ a) (array : a < 0x58 ∨ 0x5c ≤ a) :
    readGpt (fixNewHDD fw bootBegin totalSector n).disk fw.heap a
      = fitHeader n.totalsector (readGpt n.disk fw.heap) a := by
  have read : readGpt (fixNewHDD fw bootBegin totalSector n).disk fw.heap a
      = sealGpt fw.crc32 (newHddTable fw bootBegin totalSector n) a := by
    rw [fixNewHDD_disk found]
    apply diskRead_diskWrite
    simp only [GPT_SIZE, SECTOR_SIZE]
    omega
  rw [read, sealGpt_other header array]
  exact sameHeader_newHddEntries fw bootBegin totalSector _ _ n a inside

/-- Placing a record leaves the header. -/
theorem sameHeader_placedEntries (buffer : Image) (n : NewDisk) :
    SameHeader buffer (placedEntries buffer n) := by
  unfold placedEntries
  cases chooseRecord buffer n.header with
  | none => exact fun _ _ => rfl
  | some chosen => exact sameHeader_putWinRE.trans sameHeader_clearFrom

/-- What `FixNewHDDPartitionTable` leaves of the header, but for its checksums. -/
theorem placed_header {fw : Firmware} {n : NewDisk} (table : hasTable fw n = true)
    (copies : 67 ≤ n.totalsector) (fits : n.totalsector < 2 ^ 64) {a : Nat} (inside : a < 512)
    (header : a < 0x10 ∨ 0x14 ≤ a) (array : a < 0x58 ∨ 0x5c ≤ a) :
    readGpt (fixNewHDDPartitionTable fw n).disk fw.heap a = readGpt n.disk fw.heap a := by
  obtain ⟨disk, written⟩ := fixNewHDDPartitionTable_disk table
  rw [written, readGpt_writeGptCopies fw.crc32 copies fits _ _ _ (by simp only [GPT_SIZE]; omega),
    sealGpt_other header array, sameHeader_placedEntries _ _ a inside, put_other (by omega)]

/-- What it leaves of the entries. -/
theorem placed_entry {fw : Firmware} {n : NewDisk} (table : hasTable fw n = true)
    (copies : 67 ≤ n.totalsector) (fits : n.totalsector < 2 ^ 64) {l : Nat} (inside : l < gptEntries) :
    SameEntry (placedEntries (put 4 (readGpt n.disk fw.heap) 0x10 0) n)
      (readGpt (fixNewHDDPartitionTable fw n).disk fw.heap) l := by
  obtain ⟨disk, written⟩ := fixNewHDDPartitionTable_disk table
  rw [written]
  exact sameEntry_written fw.crc32 copies fits _ disk fw.heap inside

/-! ### The entries behind the system -/

/-- The entry of the image in which `FixNewHDD` sees WinRE; one behind the last when it sees none. -/
def winREEntry (buffer : Image) : Nat := findEntry fun m => le64 buffer (entryPos m) == winrePartGUID1

/-- The path takes the layout with a data partition, behind which it places WinRE. -/
structure DataLayout (fw : Firmware) (bootBegin totalSector k : Nat) (n : NewDisk) : Prop where
  near : k ≤ 28
  state : n.winREState ≠ 0
  room : n.totalsector > u64 (0x64000 + u64 (u64 (bootBegin + totalSector) + n.wireTotalSectors))
  behind : ∀ i l, chooseRecord (readGpt (fixNewHDD fw bootBegin totalSector n).disk fw.heap) n.header
    = some (i, l) → l = k + 2

/-- What `FixNewHDD` makes of the table when there is room for a data partition. -/
structure DataTable (fw : Firmware) (bootBegin totalSector k : Nat) (n : NewDisk) (table : Image) :
    Prop where
  front : ∀ l < k, SameEntry (readGpt n.disk fw.heap) table l
  system : slotAt table k
    = { used := True, first := bootBegin, last := bootBegin + totalSector - 1 }
  data : slotAt table (k + 1)
    = { used := True, first := low16 (u64 (bootBegin + totalSector + 0xF)), last := lastBefore n }
  kept : k + 2 ≤ winREEntry (readGpt n.disk fw.heap) →
    slotAt table (k + 2)
      = slotAt (readGpt n.disk fw.heap) (winREEntry (readGpt n.disk fw.heap))
  cleared : winREEntry (readGpt n.disk fw.heap) < k + 2 → ¬ (slotAt table (k + 2)).used
  rest : ∀ l, k + 3 ≤ l → l < gptEntries → ¬ (slotAt table l).used

variable {fw : Firmware} {low bootBegin totalSector k : Nat} {n : NewDisk}

/-- The entry of the system is the one with its place. -/
theorem system_slot (image : ImageGpt low (readGpt n.disk fw.heap) bootBegin totalSector k) :
    slotAt (readGpt n.disk fw.heap) k
      = { used := True, first := bootBegin, last := bootBegin + totalSector - 1 } := by
  have last := image.last
  have lastEq : endingLBA (readGpt n.disk fw.heap) k = bootBegin + totalSector - 1 := by omega
  simp only [slotAt, image.first, lastEq, eq_true image.used]

/-- The data partition's entry, which starts as a copy of the system's. -/
theorem addDataEntry_slot (buffer : Image) (used : (slotAt buffer k).used) (state : n.winREState ≠ 0) :
    slotAt (addDataEntry fw bootBegin totalSector k buffer n) (k + 1)
      = { used := True, first := low16 (u64 (bootBegin + totalSector + 0xF)), last := lastBefore n } := by
  simp only [addDataEntry, if_pos state]
  -- The copy is in use like the system's entry, and its random number is not its type.
  have copied : (slotAt (copyMem buffer (entryPos (k + 1)) (entryPos k) 128) (k + 1)).used := by
    rw [slotAt_copyMem]
    exact used
  obtain ⟨a, below, some_⟩ := copied
  apply slotAt_putPlace
  · exact ⟨a, below, by rw [put_other (by omega), put_other (by omega)]; exact some_⟩
  · exact low16_lt (u64_lt _)
  · exact low256_lt (sub64_lt _ _)

/-- The data partition's entry is the only one that changes. -/
theorem addDataEntry_other {buffer : Image} {l : Nat} (other : l ≠ k + 1) :
    SameEntry buffer (addDataEntry fw bootBegin totalSector k buffer n) l :=
  (((sameEntry_copyMem (by omega)).trans (SameEntry.put_entry (by omega) (by decide))).trans
    (SameEntry.put_entry (by omega) (by decide))).trans (sameEntry_putPlace (by omega))

/-- The search for WinRE looks at the entries alone. -/
theorem winREEntry_fitHeader (totalsector : Nat) (buffer : Image) :
    winREEntry (fitHeader totalsector buffer) = winREEntry buffer := by
  apply findEntry_congr
  intro m _
  have same : le64 (fitHeader totalsector buffer) (entryPos m) = le64 buffer (entryPos m) :=
    le64_congr fun a below => sameEntry_fitHeader totalsector buffer m a (by omega)
  rw [same]

/-- The table of `FixNewHDD` when there is room for a data partition. -/
theorem newHddTable_data (image : ImageGpt low (readGpt n.disk fw.heap) bootBegin totalSector k)
    (near : k ≤ 28) (state : n.winREState ≠ 0)
    (room : n.totalsector > u64 (0x64000 + u64 (u64 (bootBegin + totalSector) + n.wireTotalSectors))) :
    DataTable fw bootBegin totalSector k n (newHddTable fw bootBegin totalSector n) := by
  have place : entryStarting (readGpt n.disk fw.heap) bootBegin = k := findSystem_image image
  have search : (findEntry fun m => le64 (fitHeader n.totalsector (readGpt n.disk fw.heap)) (entryPos m)
      == winrePartGUID1) = winREEntry (readGpt n.disk fw.heap) :=
    winREEntry_fitHeader n.totalsector (readGpt n.disk fw.heap)
  simp only [newHddTable, place, newHddEntries, if_pos room, search]
  have system := system_slot image
  have used : (slotAt (fitHeader n.totalsector (readGpt n.disk fw.heap)) k).used := by
    rw [slotAt_fitHeader, system]
    trivial
  have data := @addDataEntry_slot fw bootBegin totalSector k n _ used state
  have added : ∀ l, l ≠ k + 1 → SameEntry (readGpt n.disk fw.heap) (addDataEntry fw bootBegin totalSector
      k (fitHeader n.totalsector (readGpt n.disk fw.heap)) n) l :=
    fun l other => (sameEntry_fitHeader n.totalsector _ l).trans (addDataEntry_other other)
  -- from here only what the new table holds entry for entry matters
  generalize addDataEntry fw bootBegin totalSector k
    (fitHeader n.totalsector (readGpt n.disk fw.heap)) n = buffer at data added
  have inside : k + 2 < gptEntries := by
    simp only [gptEntries]
    omega
  have same : ∀ l < k + 2, SameEntry buffer
      (keepWinRE (winREEntry (readGpt n.disk fw.heap)) (k + 2) buffer n) l := by
    intro l below
    unfold keepWinRE
    split
    · exact (sameEntry_copyMem (by omega)).trans (sameEntry_clearFrom (by omega))
    · exact sameEntry_clearFrom below
  constructor
  · exact fun l below => (added l (by omega)).trans (same l (by omega))
  · rw [(same k (by omega)).slot, (added k (by omega)).slot, system]
  · rw [(same (k + 1) (by omega)).slot, data]
  · intro behind
    rw [keepWinRE, if_pos ⟨state, behind⟩, (sameEntry_clearFrom (by omega)).slot, slotAt_copyMem,
      (added _ (by omega)).slot]
  · intro front
    rw [keepWinRE, if_neg (by omega)]
    exact clearFrom_free (Nat.le_refl _) inside
  · intro l behind below
    unfold keepWinRE
    split
    · exact clearFrom_free (by omega) below
    · exact clearFrom_free (by omega) below

/-- The rest of the disk in front of WinRE, less one: the data partition ends in it. -/
def dataRest (n : NewDisk) : Nat := sub64 (sub64 n.totalsector n.wireTotalSectors) 0x23

/-- The image's WinRE entry lies apart from the system, the data partition and what is in front. -/
def KeptFits (low bootBegin totalSector k : Nat) (n : NewDisk) (image : Image) : Prop :=
  let kept := slotAt image (winREEntry image)
  kept.used →
    kept.Fits low (n.totalsector - 0x22)
      ∧ (∀ l ≤ k, (slotAt image l).used → (slotAt image l).Apart kept)
      ∧ (dataRest n / 256 * 256 < kept.first ∨ kept.last < (bootBegin + totalSector + 15) / 16 * 16)

/--
The sizes for which the table with a data partition comes out in order.

The rest of the disk must hold the data partition.
When WinRE is placed behind it, the two roundings of the rest must not fall together, and WinRE must end
behind its start.
-/
def NewHddFits (low bootBegin totalSector k : Nat) (n : NewDisk) (image : Image) : Prop :=
  let rest := dataRest n
  (bootBegin + totalSector + 15) / 16 * 16 ≤ rest / 256 * 256
    ∧ rest / 256 * 256 + 0x22 ≤ n.totalsector
    ∧ if (recoveryBehind n.header).isSome then
        ((rest + 1) % 256 = 0 ∨ 16 ≤ (rest + 1) % 256)
          ∧ (rest + 1) / 16 * 16 ≤ (n.totalsector - 0x22) / 256 * 256
      else k + 2 ≤ winREEntry image → KeptFits low bootBegin totalSector k n image

/-- The entries of the table on the disk in the end. -/
structure FinalTable (fw : Firmware) (bootBegin totalSector k : Nat) (n : NewDisk) (table : Image) :
    Prop where
  front : ∀ l < k, SameEntry (readGpt n.disk fw.heap) table l
  system : slotAt table k
    = { used := True, first := bootBegin, last := bootBegin + totalSector - 1 }
  data : slotAt table (k + 1)
    = { used := True, first := low16 (u64 (bootBegin + totalSector + 0xF)), last := lastBefore n }
  rest : ∀ l, k + 3 ≤ l → l < gptEntries → ¬ (slotAt table l).used

/-- What stands behind the data partition when WinRE is placed there. -/
def placedSlot (n : NewDisk) : Slot :=
  { used := True
    first := low16 (sub64 (sub64 n.totalsector n.wireTotalSectors) 0x22)
    last := low256 (sub64 n.totalsector 0x22) }

/-- The path finds the system in a table an image left. -/
theorem findsSystem_image (on : OnGpt fw n)
    (image : ImageGpt low (readGpt n.disk fw.heap) bootBegin totalSector k) (near : k ≤ 28) :
    findsSystem fw bootBegin totalSector n = true := by
  have positive := image.positive
  have some_ := image.some_
  have place : entryStarting (readGpt n.disk fw.heap) bootBegin = k := findSystem_image image
  simp only [findsSystem, hasTable, on.gpt, on.efi, place, Bool.and_eq_true, bne_iff_ne,
    decide_eq_true_eq, and_true]
  omega

/-- The table in the end, and what stands behind the data partition. -/
theorem finalTable (on : OnGpt fw n) (copies : 67 ≤ n.totalsector)
    (image : ImageGpt low (readGpt n.disk fw.heap) bootBegin totalSector k)
    (layout : DataLayout fw bootBegin totalSector k n)
    (front : ¬ clearsFront bootBegin totalSector n = true) :
    let table := readGpt (fixNewHDDPartitionTable fw (fixNewHDD fw bootBegin totalSector n)).disk fw.heap
    FinalTable fw bootBegin totalSector k n table
      ∧ if (recoveryBehind n.header).isSome then slotAt table (k + 2) = placedSlot n
        else slotAt table (k + 2) = slotAt (newHddTable fw bootBegin totalSector n) (k + 2) := by
  have found := findsSystem_image on image layout.near
  obtain ⟨table, free⟩ := fixNewHDD_found found
  rw [Bool.eq_false_of_not_eq_true front] at table
  have data := newHddTable_data image layout.near layout.state layout.room
  obtain ⟨disk, small, rest⟩ := fixNewHDD_rest fw bootBegin totalSector n
  have header : (fixNewHDD fw bootBegin totalSector n).header = n.header := by rw [rest]
  have size : (fixNewHDD fw bootBegin totalSector n).totalsector = n.totalsector := by rw [rest]
  have wire : (fixNewHDD fw bootBegin totalSector n).wireTotalSectors = n.wireTotalSectors := by rw [rest]
  have first : ∀ l < gptEntries, SameEntry (newHddTable fw bootBegin totalSector n)
      (put 4 (readGpt (fixNewHDD fw bootBegin totalSector n).disk fw.heap) 0x10 0) l :=
    fun l inside => (newHdd_entry found inside).trans (SameEntry.put_header (by decide) l)
  have second := fun l (inside : l < gptEntries) => @placed_entry fw _ table
    (by rw [size]; exact copies) (by rw [size]; exact on.fits) l inside
  have choice : chooseRecord (put 4 (readGpt (fixNewHDD fw bootBegin totalSector n).disk fw.heap) 0x10 0)
        (fixNewHDD fw bootBegin totalSector n).header
      = chooseRecord (readGpt (fixNewHDD fw bootBegin totalSector n).disk fw.heap) n.header := by
    rw [header]
    exact chooseRecord_congr n.header fun l _ => (SameEntry.put_header (by decide) l).slot
  have record : (chooseRecord (readGpt (fixNewHDD fw bootBegin totalSector n).disk fw.heap)
      n.header).map Prod.fst = recoveryBehind n.header := recordLoop_free free n.header _ _
  have inside : k + 2 < gptEntries := by
    have near := layout.near
    simp only [gptEntries]
    omega
  cases chosen : chooseRecord (readGpt (fixNewHDD fw bootBegin totalSector n).disk fw.heap) n.header with
  | none =>
    -- Nothing is placed, and the table is that of `FixNewHDD`.
    rw [chosen, Option.map_none] at record
    simp only [placedEntries, choice, chosen] at second
    have same := fun l (inside : l < gptEntries) => (first l inside).trans (second l inside)
    simp only [← record, Option.isSome_none, Bool.false_eq_true, if_false]
    refine ⟨⟨fun l below => (data.front l below).trans (same l (by omega)), ?_, ?_, ?_⟩, ?_⟩
    · rw [(same k (by omega)).slot, data.system]
    · rw [(same (k + 1) (by omega)).slot, data.data]
    · intro l behind below
      rw [(same l below).slot]
      exact data.rest l behind below
    · exact (same (k + 2) inside).slot
  | some pair =>
    obtain ⟨i, l⟩ := pair
    have at_ : l = k + 2 := layout.behind i l chosen
    subst at_
    rw [chosen, Option.map_some] at record
    simp only [placedEntries, choice, chosen, placeWinRE, size, wire] at second
    have same : ∀ l < k + 2, SameEntry (newHddTable fw bootBegin totalSector n)
        (readGpt (fixNewHDDPartitionTable fw (fixNewHDD fw bootBegin totalSector n)).disk fw.heap) l :=
      fun l below => (((first l (by omega)).trans (sameEntry_putWinRE (by omega))).trans
        (sameEntry_clearFrom (by omega))).trans (second l (by omega))
    simp only [← record, Option.isSome_some, if_true]
    refine ⟨⟨fun l below => (data.front l below).trans (same l (by omega)), ?_, ?_, ?_⟩, ?_⟩
    · rw [(same k (by omega)).slot, data.system]
    · rw [(same (k + 1) (by omega)).slot, data.data]
    · intro l behind below
      rw [(second l below).slot]
      exact clearFrom_free behind below
    · rw [(second (k + 2) inside).slot, (sameEntry_clearFrom (by omega)).slot,
        slotAt_putWinRE (low16_lt (sub64_lt _ _)) (low256_lt (sub64_lt _ _)), placedSlot]

/-- The residues of a rest behind which WinRE is placed apart from the data partition. -/
theorem placed_residues {low total rest first : Nat} (fits : rest < 2 ^ 64) (usable : 0 < low)
    (ordered : first ≤ rest / 256 * 256)
    (winOrdered : u64 (rest + 1) / 16 * 16 ≤ (total - 0x22) / 256 * 256)
    (winLow : low ≤ u64 (rest + 1) / 16 * 16)
    (apart : rest / 256 * 256 < u64 (rest + 1) / 16 * 16 ∨ (total - 0x22) / 256 * 256 < first) :
    ((rest + 1) % 256 = 0 ∨ 16 ≤ (rest + 1) % 256)
      ∧ (rest + 1) / 16 * 16 ≤ (total - 0x22) / 256 * 256 := by
  by_cases wraps : rest + 1 = 2 ^ 64
  · have zero : u64 (rest + 1) = 0 := by rw [wraps]; rfl
    rw [zero] at winLow
    omega
  · have word : u64 (rest + 1) = rest + 1 := u64_eq (by omega)
    rw [word] at winOrdered winLow apart
    omega

/-- With these residues WinRE comes to stand behind the data partition. -/
theorem placed_behind {total rest : Nat} (fits : rest < 2 ^ 64) (fits' : total < 2 ^ 64)
    (residue : (rest + 1) % 256 = 0 ∨ 16 ≤ (rest + 1) % 256)
    (room : (rest + 1) / 16 * 16 ≤ (total - 0x22) / 256 * 256) :
    rest / 256 * 256 < u64 (rest + 1) / 16 * 16
      ∧ u64 (rest + 1) / 16 * 16 ≤ (total - 0x22) / 256 * 256 := by
  have word : u64 (rest + 1) = rest + 1 := u64_eq (by omega)
  rw [word]
  omega

/-- A table whose first three parts stand one behind the other is in order with them. -/
theorem FinalTable.data_inOrder {table : Image} (final : FinalTable fw bootBegin totalSector k n table)
    (image : ImageGpt low (readGpt n.disk fw.heap) bootBegin totalSector k) {high : Nat}
    (start : low16 (u64 (bootBegin + totalSector + 0xF)) = (bootBegin + totalSector + 15) / 16 * 16)
    (ordered : (bootBegin + totalSector + 15) / 16 * 16 ≤ lastBefore n)
    (ends : lastBefore n ≤ high) :
    WellFormed low high (k + 2) (slotAt table)
      ∧ Before (lastBefore n + 1) (k + 2) (slotAt table) := by
  have above := image.above
  have some_ := image.some_
  -- entry by entry: the front as it stood, then the system, then the data entry
  have front : WellFormed low high k (slotAt table) :=
    (image.front.congr fun l below => (final.front l below).slot).widen (Nat.le_refl _) (by omega)
  have before : Before bootBegin k (slotAt table) := by
    intro l below used
    rw [(final.front l below).slot] at used ⊢
    exact image.before l below used
  have before' : Before (bootBegin + totalSector) (k + 1) (slotAt table) := by
    refine before.succ (by omega) fun _ => ?_
    rw [final.system]
    dsimp only
    omega
  have system : WellFormed low high (k + 1) (slotAt table) := by
    refine front.succ before (fun _ => ?_) fun _ => ?_
    · rw [final.system]
    · rw [final.system]
      constructor <;> dsimp only <;> omega
  constructor
  · refine system.succ before' (fun _ => ?_) fun _ => ?_
    · rw [final.data]
      dsimp only
      omega
    · rw [final.data]
      constructor <;> dsimp only <;> omega
  · refine before'.succ (by omega) fun _ => ?_
    rw [final.data]
    dsimp only
    omega

/-- The last sector of the data partition in ordinary numbers. -/
theorem lastBefore_rest (n : NewDisk) : lastBefore n = dataRest n / 256 * 256 := by
  rw [lastBefore_eq]
  exact low256_eq (sub64_lt _ _)

/-- The place of WinRE in ordinary numbers. -/
theorem placedSlot_eq (copies : 67 ≤ n.totalsector) (fits : n.totalsector < 2 ^ 64) :
    placedSlot n
      = { used := True
          first := u64 (dataRest n + 1) / 16 * 16
          last := (n.totalsector - 0x22) / 256 * 256 } := by
  have next : sub64 (sub64 n.totalsector n.wireTotalSectors) 0x22 = u64 (dataRest n + 1) := by
    unfold dataRest
    generalize sub64 n.totalsector n.wireTotalSectors = rest
    unfold sub64 u64
    omega
  have end_ : sub64 n.totalsector 0x22 = n.totalsector - 0x22 := sub64_eq (by omega) fits
  rw [placedSlot, next, end_, low16_eq (u64_lt _), low256_eq (by omega)]

/-- When the first sector of the disk is cleared, the data partition starts there and does not fit. -/
theorem cleared_never (on : OnGpt fw n) (usable : 0 < low)
    (image : ImageGpt low (readGpt n.disk fw.heap) bootBegin totalSector k)
    (layout : DataLayout fw bootBegin totalSector k n)
    (front : clearsFront bootBegin totalSector n = true) {high : Nat} :
    ¬ WellFormed low high gptEntries (slotAt (readGpt
        (fixNewHDDPartitionTable fw (fixNewHDD fw bootBegin totalSector n)).disk fw.heap)) := by
  have found := findsSystem_image on image layout.near
  obtain ⟨table, -⟩ := fixNewHDD_found found
  rw [front] at table
  have same := fixNewHDDPartitionTable_bare (by rw [table]; decide)
  have data := newHddTable_data image layout.near layout.state layout.room
  have inside : k + 1 < gptEntries := by
    have near := layout.near
    simp only [gptEntries]
    omega
  -- the data entry starts at zero, below the first usable sector
  intro wf
  have slot := (newHdd_entry found inside).slot.trans data.data
  rw [same] at wf
  have fits := wf.fits (k + 1) inside (by rw [slot]; trivial)
  have above := fits.above
  rw [slot] at above
  have first : low16 (u64 (bootBegin + totalSector + 0xF)) = 0 := by
    simp only [clearsFront, Bool.and_eq_true, decide_eq_true_eq] at front
    rw [low16_eq (u64_lt _)]
    omega
  dsimp only at above
  omega

section
variable {table : Image} (final : FinalTable fw bootBegin totalSector k n table)
  (image : ImageGpt low (readGpt n.disk fw.heap) bootBegin totalSector k) (copies : 67 ≤ n.totalsector)
  (start : low16 (u64 (bootBegin + totalSector + 0xF)) = (bootBegin + totalSector + 15) / 16 * 16)
include final copies start

/-- In a table that is in order the data partition fits into the rest of the disk. -/
theorem FinalTable.dataFits (wf : WellFormed low (n.totalsector - 0x22) (k + 3) (slotAt table)) :
    (bootBegin + totalSector + 15) / 16 * 16 ≤ dataRest n / 256 * 256
      ∧ dataRest n / 256 * 256 + 0x22 ≤ n.totalsector := by
  have fits := wf.fits (k + 1) (by omega) (by rw [final.data]; trivial)
  rw [final.data, start, lastBefore_rest n] at fits
  have ordered := fits.ordered
  have below := fits.below
  dsimp only at ordered below
  omega

include image

/-- A data partition that fits is in order with what is in front of it. -/
theorem FinalTable.data_both (ordered : (bootBegin + totalSector + 15) / 16 * 16 ≤ dataRest n / 256 * 256)
    (ends : dataRest n / 256 * 256 + 0x22 ≤ n.totalsector) :
    WellFormed low (n.totalsector - 0x22) (k + 2) (slotAt table)
      ∧ Before (dataRest n / 256 * 256 + 1) (k + 2) (slotAt table) := by
  have last := lastBefore_rest n
  rw [← last]
  exact final.data_inOrder image start (by omega) (by omega)

/-- With WinRE behind the data partition, the table is in order for these residues of the rest. -/
theorem FinalTable.inOrder_placed (fits : n.totalsector < 2 ^ 64) (usable : 0 < low)
    (behind : slotAt table (k + 2) = placedSlot n) :
    WellFormed low (n.totalsector - 0x22) (k + 3) (slotAt table)
      ↔ (bootBegin + totalSector + 15) / 16 * 16 ≤ dataRest n / 256 * 256
        ∧ dataRest n / 256 * 256 + 0x22 ≤ n.totalsector
        ∧ ((dataRest n + 1) % 256 = 0 ∨ 16 ≤ (dataRest n + 1) % 256)
        ∧ (dataRest n + 1) / 16 * 16 ≤ (n.totalsector - 0x22) / 256 * 256 := by
  have word : dataRest n < 2 ^ 64 := sub64_lt _ _
  have above := image.above
  rw [placedSlot_eq copies fits] at behind
  constructor
  · intro wf
    obtain ⟨ordered, ends⟩ := final.dataFits copies start wf
    have winFits := wf.fits (k + 2) (by omega) (by rw [behind]; trivial)
    have apart := wf.apart (k + 1) (by omega) (k + 2) (by omega) (by omega)
      (by rw [final.data]; trivial) (by rw [behind]; trivial)
    rw [behind] at winFits apart
    rw [final.data, start, lastBefore_rest n] at apart
    exact ⟨ordered, ends, placed_residues word usable ordered winFits.ordered winFits.above apart⟩
  · rintro ⟨ordered, ends, residues⟩
    obtain ⟨wf, before⟩ := final.data_both image copies start ordered ends
    have winBehind := placed_behind word fits residues.1 residues.2
    -- from here on only where WinRE starts matters, not how that was computed
    generalize u64 (dataRest n + 1) / 16 * 16 = winFirst at behind winBehind
    refine wf.succ before (fun _ => ?_) fun _ => ?_
    · rw [behind]
      exact winBehind.1
    · have winLow : low ≤ winFirst := by omega
      rw [behind]
      exact ⟨winBehind.2, winLow, Nat.div_mul_le_self _ _⟩

/-- With the image's WinRE behind the data partition, the table is in order if that one fits there. -/
theorem FinalTable.inOrder_kept (kept : k + 2 ≤ winREEntry (readGpt n.disk fw.heap))
    (behind : slotAt table (k + 2)
      = slotAt (readGpt n.disk fw.heap) (winREEntry (readGpt n.disk fw.heap))) :
    WellFormed low (n.totalsector - 0x22) (k + 3) (slotAt table)
      ↔ (bootBegin + totalSector + 15) / 16 * 16 ≤ dataRest n / 256 * 256
        ∧ dataRest n / 256 * 256 + 0x22 ≤ n.totalsector
        ∧ (k + 2 ≤ winREEntry (readGpt n.disk fw.heap) →
          KeptFits low bootBegin totalSector k n (readGpt n.disk fw.heap)) := by
  have last := lastBefore_rest n
  -- the entries in front are those of the image, so its own order can be used
  have same : ∀ l ≤ k, slotAt table l = slotAt (readGpt n.disk fw.heap) l := by
    intro l before
    by_cases system : l = k
    · rw [system, final.system, system_slot image]
    · exact (final.front l (by omega)).slot
  constructor
  · intro wf
    obtain ⟨ordered, ends⟩ := final.dataFits copies start wf
    refine ⟨ordered, ends, fun _ used => ?_⟩
    rw [← behind] at used ⊢
    refine ⟨wf.fits (k + 2) (by omega) used, fun l before used' => ?_, ?_⟩
    · rw [← same l before] at used' ⊢
      exact wf.apart l (by omega) (k + 2) (by omega) (by omega) used' used
    · have apart := wf.apart (k + 1) (by omega) (k + 2) (by omega) (by omega)
        (by rw [final.data]; trivial) used
      rw [final.data, start, last] at apart
      exact apart
  · rintro ⟨ordered, ends, keptFits⟩
    obtain ⟨wf, -⟩ := final.data_both image copies start ordered ends
    -- an unused third entry asks for nothing
    by_cases used : (slotAt table (k + 2)).used
    · have fits := keptFits kept
      unfold KeptFits at fits
      rw [← behind] at fits
      obtain ⟨inBounds, others, apart⟩ := fits used
      refine (wellFormed_succ used).mpr ⟨wf, inBounds, fun l below used' => ?_⟩
      by_cases new : l = k + 1
      · rw [new, final.data, start, last]
        exact apart
      · rw [same l (by omega)] at used' ⊢
        exact others l (by omega) used'
    · refine (wellFormed_trim (Nat.le_succ (k + 2)) fun l low below => ?_).mpr wf
      have at_ : l = k + 2 := by omega
      rw [at_]
      exact used

/-- With nothing behind the data partition, the table is in order as soon as that one fits. -/
theorem FinalTable.inOrder_cleared (cleared : ¬ (slotAt table (k + 2)).used) :
    WellFormed low (n.totalsector - 0x22) (k + 3) (slotAt table)
      ↔ (bootBegin + totalSector + 15) / 16 * 16 ≤ dataRest n / 256 * 256
        ∧ dataRest n / 256 * 256 + 0x22 ≤ n.totalsector := by
  constructor
  · exact final.dataFits copies start
  · rintro ⟨ordered, ends⟩
    obtain ⟨wf, -⟩ := final.data_both image copies start ordered ends
    refine (wellFormed_trim (Nat.le_succ (k + 2)) fun l low below => ?_).mpr wf
    have at_ : l = k + 2 := by omega
    rw [at_]
    exact cleared

end

/-- Where the sum of the system's end is small, a front that is cleared leaves no room for the data. -/
theorem NewHddFits.front_kept (fits : NewHddFits low bootBegin totalSector k n (readGpt n.disk fw.heap))
    (some_ : 0 < bootBegin + totalSector) (end_ : bootBegin + totalSector ≤ 2 ^ 64) :
    ¬ clearsFront bootBegin totalSector n = true := by
  have word : dataRest n < 2 ^ 64 := sub64_lt _ _
  intro front
  obtain ⟨room, -, -⟩ := fits
  simp only [clearsFront, Bool.and_eq_true, decide_eq_true_eq] at front
  have small := front.2
  unfold u64 at small
  omega

/-- The start of the data partition in ordinary numbers, where the front is kept. -/
theorem dataStart_eq
    (room : n.totalsector > u64 (0x64000 + u64 (u64 (bootBegin + totalSector) + n.wireTotalSectors)))
    (end_ : bootBegin + totalSector ≤ 2 ^ 64) (front : ¬ clearsFront bootBegin totalSector n = true) :
    low16 (u64 (bootBegin + totalSector + 0xF)) = (bootBegin + totalSector + 15) / 16 * 16 := by
  have large : ¬ u64 (bootBegin + totalSector + 0xF) < 16 := by
    intro small
    exact front (by simp only [clearsFront, decide_eq_true room, decide_eq_true small, Bool.and_self])
  have sum : u64 (bootBegin + totalSector + 0xF) = bootBegin + totalSector + 15 := by
    apply u64_eq
    unfold u64 at large
    omega
  rw [low16_eq (u64_lt _), sum]

/-- The table in the end is in order exactly for the sizes that fit. -/
theorem finalTable_inOrder (on : OnGpt fw n) (copies : 67 ≤ n.totalsector) (usable : 0 < low)
    (image : ImageGpt low (readGpt n.disk fw.heap) bootBegin totalSector k)
    (layout : DataLayout fw bootBegin totalSector k n) :
    WellFormed low (n.totalsector - 0x22) gptEntries (slotAt (readGpt
        (fixNewHDDPartitionTable fw (fixNewHDD fw bootBegin totalSector n)).disk fw.heap))
      ↔ NewHddFits low bootBegin totalSector k n (readGpt n.disk fw.heap) := by
  have inside : k + 2 < gptEntries := by
    have near := layout.near
    simp only [gptEntries]
    omega
  have some_ := image.some_
  have positive := image.positive
  -- The system's last sector is a word, so its end is one at most.
  have end_ : bootBegin + totalSector ≤ 2 ^ 64 := by
    have last := image.last
    have lt : endingLBA (readGpt n.disk fw.heap) k < 2 ^ 64 := le64_lt _ _
    omega
  by_cases front : clearsFront bootBegin totalSector n = true
  · have never := @cleared_never fw low bootBegin totalSector k n on usable image layout front
      (n.totalsector - 0x22)
    exact ⟨fun wf => absurd wf never, fun fits => absurd front (fits.front_kept (by omega) end_)⟩
  · have start := dataStart_eq layout.room end_ front
    obtain ⟨final, behind⟩ := finalTable on copies image layout front
    have data := newHddTable_data image layout.near layout.state layout.room
    generalize readGpt (fixNewHDDPartitionTable fw (fixNewHDD fw bootBegin totalSector n)).disk fw.heap
      = table at final behind ⊢
    rw [wellFormed_trim inside fun l low below => final.rest l low below]
    unfold NewHddFits
    by_cases placed : (recoveryBehind n.header).isSome = true
    · simp only [if_pos placed] at behind ⊢
      rw [final.inOrder_placed image copies start on.fits usable behind]
    · simp only [if_neg placed] at behind ⊢
      by_cases kept : k + 2 ≤ winREEntry (readGpt n.disk fw.heap)
      · rw [data.kept kept] at behind
        exact final.inOrder_kept image copies start kept behind
      · have cleared : ¬ (slotAt table (k + 2)).used := by
          rw [behind]
          exact data.cleared (by omega)
        rw [final.inOrder_cleared image copies start cleared]
        exact ⟨fun fits => ⟨fits.1, fits.2, fun behind' => absurd behind' kept⟩,
          fun fits => ⟨fits.1, fits.2.1⟩⟩

/-- The header in the end is the fitted one, but for its checksums. -/
theorem finalTable_header (found : findsSystem fw bootBegin totalSector n = true)
    (copies : 67 ≤ n.totalsector) (fits : n.totalsector < 2 ^ 64) {a : Nat} (inside : a < 512)
    (header : a < 0x10 ∨ 0x14 ≤ a) (array : a < 0x58 ∨ 0x5c ≤ a) :
    readGpt (fixNewHDDPartitionTable fw (fixNewHDD fw bootBegin totalSector n)).disk fw.heap a
      = fitHeader n.totalsector (readGpt n.disk fw.heap) a := by
  obtain ⟨disk, small, rest⟩ := fixNewHDD_rest fw bootBegin totalSector n
  have size : (fixNewHDD fw bootBegin totalSector n).totalsector = n.totalsector := by rw [rest]
  rw [← newHdd_header found inside header array]
  by_cases table : hasTable fw (fixNewHDD fw bootBegin totalSector n) = true
  · exact placed_header table (by rw [size]; exact copies) (by rw [size]; exact fits) inside header array
  · rw [fixNewHDDPartitionTable_bare table]

/-- The entries in front of the system's stay as they are. -/
theorem finalTable_front (on : OnGpt fw n) (copies : 67 ≤ n.totalsector)
    (image : ImageGpt low (readGpt n.disk fw.heap) bootBegin totalSector k)
    (layout : DataLayout fw bootBegin totalSector k n) :
    ∀ l < k, SameEntry (readGpt n.disk fw.heap) (readGpt
      (fixNewHDDPartitionTable fw (fixNewHDD fw bootBegin totalSector n)).disk fw.heap) l := by
  have found := findsSystem_image on image layout.near
  obtain ⟨table, -⟩ := fixNewHDD_found found
  by_cases front : clearsFront bootBegin totalSector n = true
  · intro l below
    have inside := Nat.lt_trans below image.inside
    have data := newHddTable_data image layout.near layout.state layout.room
    rw [fixNewHDDPartitionTable_bare (by rw [table, front]; decide)]
    exact (data.front l below).trans (newHdd_entry found inside)
  · exact (finalTable on copies image layout front).1.front

/--
With a data partition, the table the path leaves is in order exactly for the sizes that fit.

The bounds are those of the header on the disk afterwards, and the entries in front of the system's are
kept.
-/
theorem newHdd_inOrder (on : OnGpt fw n) (copies : 67 ≤ n.totalsector)
    (usable : 0 < firstUsableLBA (readGpt n.disk fw.heap))
    (image : ImageGpt (firstUsableLBA (readGpt n.disk fw.heap)) (readGpt n.disk fw.heap) bootBegin
      totalSector k)
    (layout : DataLayout fw bootBegin totalSector k n) :
    let table := readGpt (fixNewHDDPartitionTable fw (fixNewHDD fw bootBegin totalSector n)).disk fw.heap
    (WellFormed (firstUsableLBA table) (lastUsableLBA table) gptEntries (slotAt table)
        ∧ ∀ l < k, SameEntry (readGpt n.disk fw.heap) table l)
      ↔ NewHddFits (firstUsableLBA (readGpt n.disk fw.heap)) bootBegin totalSector k n
          (readGpt n.disk fw.heap) := by
  have found := findsSystem_image on image layout.near
  have field := fun a (inside : a < 512) => @finalTable_header fw bootBegin totalSector n found copies
    on.fits a inside
  -- the header keeps its first usable sector and moves its last one to the new end
  have first : firstUsableLBA (readGpt
      (fixNewHDDPartitionTable fw (fixNewHDD fw bootBegin totalSector n)).disk fw.heap)
      = firstUsableLBA (readGpt n.disk fw.heap) := by
    apply le64_congr
    intro a below
    rw [field _ (by omega) (by omega) (by omega), fitHeader_other (by omega) (by omega) (by omega)]
  have last : lastUsableLBA (readGpt
      (fixNewHDDPartitionTable fw (fixNewHDD fw bootBegin totalSector n)).disk fw.heap)
      = n.totalsector - 0x22 := by
    have fits := on.fits
    have end_ : sub64 n.totalsector 0x22 = n.totalsector - 0x22 := sub64_eq (by omega) fits
    have stored := le64_put (m := put 8 (put 4 (readGpt n.disk fw.heap) 0x10 0) 0x20
      (sub64 n.totalsector 1)) (i := 0x30) (sub64_lt n.totalsector 0x22)
    rw [← end_]
    refine Eq.trans (le64_congr fun a below => ?_) stored
    rw [field _ (by omega) (by omega) (by omega)]
    rfl
  simp only [first, last]
  constructor
  · rintro ⟨wf, -⟩
    exact (finalTable_inOrder on copies usable image layout).mp wf
  · intro fits
    exact ⟨(finalTable_inOrder on copies usable image layout).mpr fits,
      finalTable_front on copies image layout⟩

/-- A disk of that size with the sample system, for an image whose WinRE of 1000 sectors stood farther on. -/
def dataDisk (totalsector : Nat) : NewDisk :=
  { disk := put 8 (sampleGpt 2048 1002047) (512 + 0x28) 34
    totalsector := totalsector
    header :=
      { partitionCount := 2
        disksize := 2000000
        partition := fun i =>
          if i = 0 then
            { bootBegin := 2048, totalSectors := 1000000, typeGuid := windowsDataTypeGuid,
              bIfBackup := true, hasWindows := true }
          else
            { bootBegin := 1302048, totalSectors := 1000, typeGuid := windowRecoveryTypeGuid,
              bIfBackup := true } }
    winREState := 1
    wireTotalSectors := 1000 }

/-- The disk of the sample has a GPT. -/
theorem dataDisk_on {totalsector : Nat} (fits : totalsector < 2 ^ 64) :
    OnGpt sampleFirmware (dataDisk totalsector) :=
  ⟨show isGPT (put 8 (sampleGpt 2048 1002047) (512 + 0x28) 34) = true by decide +kernel,
    show isEfiPart (readGpt (put 8 (sampleGpt 2048 1002047) (512 + 0x28) 34) fun _ => 0) = true by
      decide +kernel, fits⟩

/-- Its table is one an image left. -/
theorem dataDisk_image (totalsector : Nat) :
    ImageGpt (firstUsableLBA (readGpt (dataDisk totalsector).disk sampleFirmware.heap))
      (readGpt (dataDisk totalsector).disk sampleFirmware.heap) 2048 1000000 0 where
  inside := by decide
  used := show inUse (readGpt (put 8 (sampleGpt 2048 1002047) (512 + 0x28) 34) fun _ => 0) 0 by
    decide +kernel
  above := show firstUsableLBA (readGpt (put 8 (sampleGpt 2048 1002047) (512 + 0x28) 34) fun _ => 0)
    ≤ 2048 by decide +kernel
  positive := by decide
  some_ := by decide
  first := show startingLBA (readGpt (put 8 (sampleGpt 2048 1002047) (512 + 0x28) 34) fun _ => 0) 0
    = 2048 by decide +kernel
  last := show endingLBA (readGpt (put 8 (sampleGpt 2048 1002047) (512 + 0x28) 34) fun _ => 0) 0 + 1
    = 1002048 by decide +kernel
  front := ⟨fun l below => absurd below (Nat.not_lt_zero _),
    fun l below => absurd below (Nat.not_lt_zero _)⟩
  before := fun l below => absurd below (Nat.not_lt_zero _)
  blank := fun l below => absurd below (Nat.not_lt_zero _)

/-- The path places WinRE in entry 2 of a disk on which there is room for a data partition. -/
theorem dataDisk_layout {totalsector : Nat}
    (room : totalsector > u64 (0x64000 + u64 (u64 (2048 + 1000000) + 1000)))
    (chosen : chooseRecord (readGpt (fixNewHDD sampleFirmware 2048 1000000
      (dataDisk totalsector)).disk sampleFirmware.heap) (dataDisk totalsector).header = some (1, 2)) :
    DataLayout sampleFirmware 2048 1000000 0 (dataDisk totalsector) where
  near := by decide
  state := show 1 ≠ 0 by decide
  room := room
  behind := by
    intro i l other
    rw [chosen, Option.some.injEq, Prod.mk.injEq] at other
    exact other.2.symm

/-- On a disk of 2000000 sectors the rest leaves 118 of the 256, and the table is in order. -/
theorem newHdd_inOrder_rest :
    let table := readGpt (fixNewHDDPartitionTable sampleFirmware
      (fixNewHDD sampleFirmware 2048 1000000 (dataDisk 2000000))).disk sampleFirmware.heap
    WellFormed (firstUsableLBA table) (lastUsableLBA table) gptEntries (slotAt table)
      ∧ ∀ l < 0, SameEntry (readGpt (dataDisk 2000000).disk sampleFirmware.heap) table l :=
  (newHdd_inOrder (dataDisk_on (by decide)) (by decide) (by decide +kernel) (dataDisk_image 2000000)
    (dataDisk_layout (by decide) (by decide +kernel))).mpr (by
      have placed : (recoveryBehind (dataDisk 2000000).header).isSome = true := by decide
      unfold NewHddFits
      dsimp only
      rw [if_pos placed]
      decide +kernel)

/-- On a disk of 1999887 sectors, five are left over: the data partition's last sector is WinRE's first. -/
theorem newHdd_overlaps :
    ¬ ∀ (fw : Firmware) (bootBegin totalSector k : Nat) (n : NewDisk), OnGpt fw n →
        67 ≤ n.totalsector → 0 < firstUsableLBA (readGpt n.disk fw.heap) →
        ImageGpt (firstUsableLBA (readGpt n.disk fw.heap)) (readGpt n.disk fw.heap) bootBegin
          totalSector k →
        DataLayout fw bootBegin totalSector k n →
        let table :=
          readGpt (fixNewHDDPartitionTable fw (fixNewHDD fw bootBegin totalSector n)).disk fw.heap
        WellFormed (firstUsableLBA table) (lastUsableLBA table) gptEntries (slotAt table)
          ∧ ∀ l < k, SameEntry (readGpt n.disk fw.heap) table l := by
  intro inOrder
  have wf := (inOrder sampleFirmware 2048 1000000 0 (dataDisk 1999887) (dataDisk_on (by decide))
    (by decide) (by decide +kernel) (dataDisk_image 1999887)
    (dataDisk_layout (by decide) (by decide +kernel))).1
  -- Entry 1 ends at sector 1998848 and entry 2 starts there.
  have used : inUse (readGpt (fixNewHDDPartitionTable sampleFirmware
        (fixNewHDD sampleFirmware 2048 1000000 (dataDisk 1999887))).disk sampleFirmware.heap) 1
      ∧ inUse (readGpt (fixNewHDDPartitionTable sampleFirmware
        (fixNewHDD sampleFirmware 2048 1000000 (dataDisk 1999887))).disk sampleFirmware.heap) 2 := by
    decide +kernel
  have place : endingLBA (readGpt (fixNewHDDPartitionTable sampleFirmware
          (fixNewHDD sampleFirmware 2048 1000000 (dataDisk 1999887))).disk sampleFirmware.heap) 1
        = 1998848
      ∧ startingLBA (readGpt (fixNewHDDPartitionTable sampleFirmware
          (fixNewHDD sampleFirmware 2048 1000000 (dataDisk 1999887))).disk sampleFirmware.heap) 2
        = 1998848
      ∧ startingLBA (readGpt (fixNewHDDPartitionTable sampleFirmware
          (fixNewHDD sampleFirmware 2048 1000000 (dataDisk 1999887))).disk sampleFirmware.heap) 1
        = 1002048
      ∧ endingLBA (readGpt (fixNewHDDPartitionTable sampleFirmware
          (fixNewHDD sampleFirmware 2048 1000000 (dataDisk 1999887))).disk sampleFirmware.heap) 2
        = 1999616 := by
    decide +kernel
  have apart := wf.apart 1 (by decide) 2 (by decide) (by decide) used.1 used.2
  simp only [Slot.Apart, slotAt, place] at apart
  omega

end Okr
