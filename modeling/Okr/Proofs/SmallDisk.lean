import Okr.Proofs.NoData

/-! A volume that was shrunk to a small disk fits its partition only when nothing follows it. -/

namespace Okr

open Slots (Slot)

/-- The number of sectors the boot sector in a sector of the disk gives its volume. -/
def volumeSectors (disk : Image) (sector : Nat) : Nat := le64 disk (sector * SECTOR_SIZE + 0x28)

/-- The entry that starts at a sector. -/
def entryStarting (buffer : Image) (sector : Nat) : Nat :=
  findEntry fun k => startingLBA buffer k == sector

/-- The same in the table of an MBR, whose numbers have 32 bits. -/
def mbrStarting (buffer : Image) (sector : Nat) : Nat :=
  (List.range 4).findIdx fun i => le32 buffer (0x1c6 + i * 16) == u32 sector

/--
A volume of this size lies inside the entry that starts where it does.

The table is the one on the disk, of the kind given.
-/
def VolumeFits (fw : Firmware) (gpt : Bool) (disk : Image) (bootBegin sectors : Nat) : Prop :=
  if gpt then
    let table := readGpt disk fw.heap
    bootBegin + sectors ≤ endingLBA table (entryStarting table bootBegin) + 1
  else
    let table := diskRead disk 0 1 fun _ => 0
    sectors ≤ le32 table (0x1ca + mbrStarting table bootBegin * 16)

/--
The sizes for which the shrunken volume fits.

On a GPT disk the size of the disk and the size less WinRE and the copy of the table must round down to
the same multiple of 256.
-/
def SmallFits (bootBegin : Nat) (n : NewDisk) : Prop :=
  if isGPT n.disk then
    bootBegin ≤ low256 n.totalsector + 1
      ∧ low256 n.totalsector
        ≤ low256 (sub64 (sub64 n.totalsector n.wireTotalSectors)
          (if n.isNoDataPartFlag then 0x22 else 0x23))
  else
    let rest := u64 (sub64 n.totalsector bootBegin + 1)
    rest ≤ 2 ^ 32 ∧ n.totalsector % 256 ≤ rest
      ∧ (n.totalsector % 256 = 0 → rest % 64 = 0 → rest = 0)

/-- What `FixSmallDiskCSize` writes depends on the size of the disk alone. -/
theorem fixSmallDiskCSize_writes {bootBegin totalSector : Nat} (restored : NewDisk)
    (positive : bootBegin ≠ 0) (some_ : totalSector ≠ 0) :
    volumeSectors (fixSmallDiskCSize bootBegin totalSector restored).disk bootBegin
      = smallDiskSectors restored.totalsector bootBegin := by
  have fits : smallDiskSectors restored.totalsector bootBegin < 2 ^ 64 :=
    Nat.lt_of_le_of_lt Nat.and_le_left (u64_lt _)
  rw [fixSmallDiskCSize, if_neg (by omega)]
  simp only [volumeSectors]
  have stored := le64_put (m := diskRead restored.disk bootBegin 1 fun _ => 0) (i := 0x28) fits
  refine Eq.trans (le64_congr fun a below => ?_) stored
  rw [diskWrite, if_pos (by simp only [SECTOR_SIZE]; omega)]
  congr 1
  omega

/-- The volume's size in ordinary numbers. -/
theorem smallDiskSectors_eq {totalsector : Nat} (fits : totalsector < 2 ^ 64) (bootBegin : Nat) :
    smallDiskSectors totalsector bootBegin
      = u64 (sub64 (totalsector / 256 * 256) bootBegin + 1) / 64 * 64 := by
  rw [smallDiskSectors, low256_eq fits]
  exact and_high 64 6 (by decide) (u64_lt _)

/-- A volume measured to the last multiple of 256 fits an entry that ends there, or behind. -/
theorem volume_fits_iff {total last bootBegin : Nat} (fits : total < 2 ^ 64) (fits' : last < 2 ^ 64)
    (fits'' : bootBegin < 2 ^ 64) :
    bootBegin + u64 (sub64 (total / 256 * 256) bootBegin + 1) / 64 * 64 ≤ last / 256 * 256 + 1
      ↔ bootBegin ≤ total / 256 * 256 + 1 ∧ total / 256 * 256 ≤ last / 256 * 256 := by
  unfold u64 sub64
  omega

/-- What the two preparing functions leave for the path. -/
structure Prepared (stack : Stack) (n : NewDisk) (next : NewDisk) : Prop where
  disk : next.disk = n.disk
  totalsector : next.totalsector = n.totalsector
  header : next.header = n.header
  fixSmallc : next.fixSmallc = n.fixSmallc
  moved : next.moved = n.moved
  state : next.winREState ≠ 0

/-- `IsFixNewHddWay` sets the flag and the state, which is 1 or 2 afterwards. -/
theorem isFixNewHddWay_eq (stack : Stack) (n : NewDisk) :
    ∃ flag state, state ≠ 0
      ∧ isFixNewHddWay stack n = { n with isNoDataPartFlag := flag, winREState := state } := by
  -- Whatever the size between the two partitions is, one of the two states is taken.
  have pick : ∀ sizeMined, ∃ flag state, state ≠ 0
      ∧ (if sizeMined < 0x1000 then { n with isNoDataPartFlag := true, winREState := 2 }
          else { n with isNoDataPartFlag := false, winREState := 1 } : NewDisk)
        = { n with isNoDataPartFlag := flag, winREState := state } := by
    intro sizeMined
    by_cases small : sizeMined < 0x1000
    · exact ⟨true, 2, by decide, if_pos small⟩
    · exact ⟨false, 1, by decide, if_neg small⟩
  exact pick _

/-- The state is never 0 on the path. -/
theorem prepared (stack : Stack) (n : NewDisk) :
    Prepared stack n (getWirePartSector stack (isFixNewHddWay stack n)) := by
  obtain ⟨flag, state, some_, eq⟩ := isFixNewHddWay_eq stack n
  rw [eq]
  exact ⟨rfl, rfl, rfl, rfl, rfl, some_⟩

/-- The entries in front of the system's and its first sector stay, so it is found again. -/
theorem entryStarting_kept {buffer buffer' : Image} {sector k : Nat}
    (found : entryStarting buffer sector = k) (inside : k < gptEntries)
    (kept : ∀ l ≤ k, startingLBA buffer' l = startingLBA buffer l) :
    entryStarting buffer' sector = k := by
  obtain ⟨has, first⟩ := findEntry_spec found inside
  apply findEntry_eq inside
  · rw [kept k (Nat.le_refl k)]
    exact has
  · intro l below
    rw [kept l (Nat.le_of_lt below)]
    exact first l below

/-- The system's entry is found among the first 29, or not at all. -/
theorem findOs_eq (totalsector : Nat) (buffer : Image) (bootBegin : Nat) :
    findOs (fitHeader totalsector buffer) bootBegin
      = if 28 < entryStarting buffer bootBegin then none else some (entryStarting buffer bootBegin) := by
  have start : ∀ l, startingLBA (fitHeader totalsector buffer) l = startingLBA buffer l :=
    fun l => congrArg Slots.Slot.first (slotAt_fitHeader totalsector buffer l)
  have found : (findEntry fun k => startingLBA (fitHeader totalsector buffer) k == bootBegin)
      = entryStarting buffer bootBegin := by
    simp only [entryStarting, start]
  simp only [findOs, found, entryPos]
  by_cases far : 28 < entryStarting buffer bootBegin
  · rw [if_pos (by omega), if_pos far]
  · rw [if_neg (by omega), if_neg far]

/-! ### The two functions when the disk is too small -/

/-- When only the end of the system's entry moved, it is found with its new end. -/
theorem endingLBA_moved {buffer buffer' : Image} {sector last : Nat}
    (inside : entryStarting buffer sector < gptEntries)
    (front : ∀ l < entryStarting buffer sector, slotAt buffer' l = slotAt buffer l)
    (moved : slotAt buffer' (entryStarting buffer sector)
      = { slotAt buffer (entryStarting buffer sector) with last := last }) :
    endingLBA buffer' (entryStarting buffer' sector) = last := by
  have found : entryStarting buffer' sector = entryStarting buffer sector := by
    apply entryStarting_kept rfl inside
    intro l before
    by_cases system : l = entryStarting buffer sector
    · rw [system]
      exact congrArg Slot.first moved
    · exact congrArg Slot.first (front l (by omega))
  rw [found]
  exact congrArg Slot.last moved

/-- The sector up to which the system may reach in front of a WinRE at the end of the disk. -/
theorem beforeWinRE (bootBegin total wire : Nat) :
    u64 (bootBegin + sub64 (sub64 total (u64 (bootBegin + wire))) 0x22)
      = sub64 (sub64 total wire) 0x22 := by
  unfold u64 sub64
  omega

/-- `FixNoDataPartTable` asks for a smaller volume only when the disk is too small. -/
theorem noDataEntries_small {bootBegin totalSector k : Nat} {buffer : Image} {n : NewDisk}
    (state : n.winREState ≠ 0)
    (small : (noDataEntries bootBegin totalSector k buffer n).2.fixSmallc = true) :
    ∃ first last, (noDataEntries bootBegin totalSector k buffer n).1
      = clearFrom
          (putWinRE
            (put 8 buffer (entryPos k + 0x28)
              (low256 (sub64 (sub64 n.totalsector n.wireTotalSectors) 0x22)))
            (k + 1) first last)
          (k + 2) := by
  simp only [noDataEntries] at small ⊢
  by_cases enough : n.totalsector > u64 (u64 (bootBegin + totalSector) + n.wireTotalSectors)
  · simp only [if_pos enough, if_pos state, Bool.false_eq_true] at small
  · simp only [if_neg enough, if_pos state, beforeWinRE]
    exact ⟨_, _, rfl⟩

/-- When `FixNoDataPartTable` asks for a smaller volume, it has moved the end of the system's entry. -/
theorem noData_small {fw : Firmware} {bootBegin totalSector : Nat} {n : NewDisk}
    (gpt : isGPT n.disk = true) (fits : n.totalsector < 2 ^ 64) (copies : 67 ≤ n.totalsector)
    (state : n.winREState ≠ 0) (unset : n.fixSmallc = false)
    (small : (fixNoDataPartTable fw bootBegin totalSector n).fixSmallc = true) :
    let table := readGpt (fixNoDataPartTable fw bootBegin totalSector n).disk fw.heap
    endingLBA table (entryStarting table bootBegin)
      = low256 (sub64 (sub64 n.totalsector n.wireTotalSectors) 0x22) := by
  have set_ : ¬ n.fixSmallc = true := by rw [unset]; decide
  simp only [fixNoDataPartTable, gpt, if_true, fittedGpt] at small ⊢
  -- only the branch which finds the system entry sets the mark
  by_cases nothing : bootBegin = 0 ∨ totalSector = 0
  · rw [if_pos nothing] at small
    exact absurd small set_
  rw [if_neg nothing] at small ⊢
  by_cases efi : isEfiPart (readGpt n.disk fw.heap) = true
  · simp only [if_pos efi, findOs_eq] at small ⊢
    by_cases far : 28 < entryStarting (readGpt n.disk fw.heap) bootBegin
    · simp only [if_pos far] at small
      exact absurd small set_
    · simp only [if_neg far] at small ⊢
      have inside : entryStarting (readGpt n.disk fw.heap) bootBegin < gptEntries := by
        simp only [gptEntries]
        omega
      obtain ⟨first, last, entries⟩ := noDataEntries_small state small
      rw [entries]
      apply endingLBA_moved inside
      · intro l below
        rw [slotAt_written fw.crc32 copies fits _ _ fw.heap (by omega),
          (sameEntry_clearFrom (by omega)).slot, (sameEntry_putWinRE (by omega)).slot,
          (SameEntry.put_entry (by omega) (by decide)).slot, slotAt_fitHeader]
      · rw [slotAt_written fw.crc32 copies fits _ _ fw.heap inside,
          (sameEntry_clearFrom (by omega)).slot, (sameEntry_putWinRE (by omega)).slot,
          slotAt_putLast (low256_lt (sub64_lt _ _)), slotAt_fitHeader]
  · simp only [if_neg efi] at small
    exact absurd small set_

/-- Keeping or clearing what follows leaves the entries in front. -/
theorem keepWinRE_front {m i l : Nat} {buffer : Image} {n : NewDisk} (front : l < i) :
    slotAt (keepWinRE m i buffer n) l = slotAt buffer l := by
  unfold keepWinRE
  split
  · rw [(sameEntry_clearFrom (by omega)).slot, (sameEntry_copyMem (by omega)).slot]
  · rw [(sameEntry_clearFrom front).slot]

/-- The two subtractions of `FixNewHDD` are one. -/
theorem lastBefore_eq (n : NewDisk) :
    lastBefore n = low256 (sub64 (sub64 n.totalsector n.wireTotalSectors) 0x23) := by
  have sum : ∀ rest, sub64 (sub64 rest 0x22) 1 = sub64 rest 0x23 := by
    intro rest
    unfold sub64
    omega
  rw [lastBefore, sum]

/-- `FixNewHDD` asks for a smaller volume only when the disk is too small. -/
theorem newHddEntries_small {fw : Firmware} {bootBegin totalSector k : Nat} {buffer : Image}
    {n : NewDisk} (state : n.winREState ≠ 0)
    (small : (newHddEntries fw bootBegin totalSector k buffer n).2.fixSmallc = true) :
    ∀ l ≤ k, slotAt (newHddEntries fw bootBegin totalSector k buffer n).1 l
      = slotAt (put 8 buffer (entryPos k + 0x28)
          (low256 (sub64 (sub64 n.totalsector n.wireTotalSectors) 0x23))) l := by
  intro l before
  simp only [newHddEntries] at small ⊢
  by_cases enough : n.totalsector
      > u64 (0x64000 + u64 (u64 (bootBegin + totalSector) + n.wireTotalSectors))
  · -- With room for a data partition the volume keeps its size.
    simp only [if_pos enough, Bool.false_eq_true] at small
  · simp only [if_neg enough]
    rw [keepWinRE_front (by omega), growSystem, if_pos state, lastBefore_eq]

/-- When `FixNewHDD` asks for a smaller volume, it has moved the end of the system's entry. -/
theorem newHdd_small {fw : Firmware} {bootBegin totalSector : Nat} {n : NewDisk}
    (gpt : isGPT n.disk = true) (state : n.winREState ≠ 0) (unset : n.fixSmallc = false)
    (small : (fixNewHDD fw bootBegin totalSector n).fixSmallc = true) :
    let table := readGpt (fixNewHDD fw bootBegin totalSector n).disk fw.heap
    endingLBA table (entryStarting table bootBegin)
      = low256 (sub64 (sub64 n.totalsector n.wireTotalSectors) 0x23) := by
  have set_ : ¬ n.fixSmallc = true := by rw [unset]; decide
  simp only [fixNewHDD, gpt, if_true, fittedGpt] at small ⊢
  -- only the branch which finds the system entry sets the mark
  by_cases nothing : bootBegin = 0 ∨ totalSector = 0
  · rw [if_pos nothing] at small
    exact absurd small set_
  rw [if_neg nothing] at small ⊢
  by_cases efi : isEfiPart (readGpt n.disk fw.heap) = true
  · simp only [if_pos efi, findOs_eq] at small ⊢
    by_cases far : 28 < entryStarting (readGpt n.disk fw.heap) bootBegin
    · simp only [if_pos far] at small
      exact absurd small set_
    · simp only [if_neg far] at small ⊢
      have inside : entryStarting (readGpt n.disk fw.heap) bootBegin < gptEntries := by
        simp only [gptEntries]
        omega
      have entries := newHddEntries_small state small
      apply endingLBA_moved inside
      · intro l below
        rw [slotAt_writtenFront fw.crc32 _ _ fw.heap (by omega), entries l (by omega),
          (SameEntry.put_entry (by omega) (by decide)).slot, slotAt_fitHeader]
      · rw [slotAt_writtenFront fw.crc32 _ _ fw.heap inside, entries _ (Nat.le_refl _),
          slotAt_putLast (low256_lt (sub64_lt _ _)), slotAt_fitHeader]
  · simp only [if_neg efi] at small
    exact absurd small set_

/-- The low 28 bits of a 32-bit number, from bit 4 on. -/
theorem and_low32 (n : Nat) : n &&& 0xfffffff0 = n % 2 ^ 32 / 16 * 16 := by
  rw [@and_narrow 32 n _ (by decide)]
  exact and_high 32 4 (by decide) (Nat.mod_lt _ (by decide))

/-- An MBR has four entries. -/
theorem mbrStarting_le (buffer : Image) (sector : Nat) : mbrStarting buffer sector ≤ 4 := by
  have size : (List.range 4).length = 4 := List.length_range
  exact le_of_le_of_eq List.findIdx_le_length size

/-- On an MBR disk that is too small, the system's entry reaches to the end of the disk. -/
theorem mbr_small {bootBegin totalSector : Nat} {n : NewDisk} (unset : n.fixSmallc = false)
    (small : ((fixMbr bootBegin totalSector n).getD n).fixSmallc = true) :
    let table := diskRead ((fixMbr bootBegin totalSector n).getD n).disk 0 1 fun _ => 0
    le32 table (0x1ca + mbrStarting table bootBegin * 16)
      = sub64 n.totalsector bootBegin % 2 ^ 32 / 16 * 16 := by
  have set_ : ¬ n.fixSmallc = true := by rw [unset]; decide
  simp only [fixMbr] at small ⊢
  generalize diskRead n.disk 0 1 (fun _ => 0) = buffer at small ⊢
  have start : (List.range 4).findIdx (fun i => le32 buffer (0x1c6 + i * 16) == u32 bootBegin)
      = mbrStarting buffer bootBegin := rfl
  rw [start] at small ⊢
  by_cases nothing : le16 buffer 0x1fe ≠ 0xaa55 ∨ mbrStarting buffer bootBegin = 4
  · rw [if_pos nothing] at small
    exact absurd small set_
  rw [if_neg nothing] at small ⊢
  by_cases room : n.totalsector > u64 (0x64000 + (bootBegin + totalSector))
      ∧ mbrStarting buffer bootBegin < 3
  · rw [if_pos room] at small
    simp only [Option.getD_some, Bool.false_eq_true] at small
  · rw [if_neg room]
    simp only [Option.getD_some]
    have small_ := mbrStarting_le buffer bootBegin
    have inside : mbrStarting buffer bootBegin < 4 := by omega
    have spec := findIdx_range_spec start inside
    generalize mbrStarting buffer bootBegin = i at inside spec ⊢
    obtain ⟨has, first⟩ := spec
    have size : u32 (sub64 n.totalsector bootBegin &&& 0xfffffff0)
        = sub64 n.totalsector bootBegin % 2 ^ 32 / 16 * 16 := by
      rw [and_low32]
      exact u32_eq (by omega)
    rw [size]
    have fits : sub64 n.totalsector bootBegin % 2 ^ 32 / 16 * 16 < 2 ^ 32 := by omega
    generalize sub64 n.totalsector bootBegin % 2 ^ 32 / 16 * 16 = length at fits ⊢
    -- What is read back is the sector that was written.
    have byte : ∀ a < 512, diskRead (diskWrite n.disk 0 1 (zeroFill (put 4 buffer (0x1ca + i * 16) length)
          (0x1be + i * 16 + 16) 0x1fe)) 0 1 (fun _ => 0) a
        = zeroFill (put 4 buffer (0x1ca + i * 16) length) (0x1be + i * 16 + 16) 0x1fe a := by
      intro a below
      exact diskRead_diskWrite _ _ _ _ _ (by simp only [SECTOR_SIZE]; omega)
    have front : ∀ l ≤ i, le32 (diskRead (diskWrite n.disk 0 1 (zeroFill
          (put 4 buffer (0x1ca + i * 16) length) (0x1be + i * 16 + 16) 0x1fe)) 0 1 (fun _ => 0))
          (0x1c6 + l * 16) = le32 buffer (0x1c6 + l * 16) := by
      intro l before
      apply le32_congr
      intro a below
      rw [byte _ (by omega), zeroFill_other (by omega), put_other (by omega)]
    have found : mbrStarting (diskRead (diskWrite n.disk 0 1 (zeroFill
          (put 4 buffer (0x1ca + i * 16) length) (0x1be + i * 16 + 16) 0x1fe)) 0 1 (fun _ => 0))
          bootBegin = i := by
      apply findIdx_range_eq inside
      · rw [front i (Nat.le_refl i)]
        exact has
      · intro l before
        rw [front l (by omega)]
        exact first l before
    rw [found]
    have stored := le32_put (m := buffer) (i := 0x1ca + i * 16) fits
    refine Eq.trans (le32_congr fun a below => ?_) stored
    rw [byte _ (by omega), zeroFill_other (by omega)]

/-- On an MBR disk the volume fits unless both its ends fall on a boundary. -/
theorem volume_fits_mbr {total bootBegin : Nat} (fits : total < 2 ^ 64) (fits' : bootBegin < 2 ^ 64) :
    u64 (sub64 (total / 256 * 256) bootBegin + 1) / 64 * 64
        ≤ sub64 total bootBegin % 2 ^ 32 / 16 * 16
      ↔ u64 (sub64 total bootBegin + 1) ≤ 2 ^ 32
        ∧ total % 256 ≤ u64 (sub64 total bootBegin + 1)
        ∧ (total % 256 = 0 → u64 (sub64 total bootBegin + 1) % 64 = 0
            → u64 (sub64 total bootBegin + 1) = 0) := by
  -- Counted from the end of the disk, the volume's size comes from the length of the rest.
  have volume : u64 (sub64 (total / 256 * 256) bootBegin + 1)
      = u64 (sub64 total bootBegin + 1 + (2 ^ 64 - total % 256)) := by
    unfold u64 sub64
    omega
  have word := sub64_lt total bootBegin
  have residue : total % 256 < 256 := Nat.mod_lt _ (by decide)
  rw [volume]
  generalize sub64 total bootBegin = d at word ⊢
  generalize total % 256 = r at residue ⊢
  by_cases last : d + 1 = 2 ^ 64
  · -- The system starts right behind the end of the disk.
    have empty : u64 (d + 1) = 0 := by rw [last]; rfl
    have left : u64 (d + 1 + (2 ^ 64 - r)) = if r = 0 then 0 else 2 ^ 64 - r := by
      unfold u64
      split <;> omega
    rw [empty, left]
    split <;> omega
  · have length : u64 (d + 1) = d + 1 := u64_eq (by omega)
    rw [length]
    by_cases fitsRest : r ≤ d + 1
    · have left : u64 (d + 1 + (2 ^ 64 - r)) = d + 1 - r := by
        unfold u64
        omega
      rw [left]
      by_cases narrow : d < 2 ^ 32
      · rw [Nat.mod_eq_of_lt narrow]
        omega
      · omega
    · have left : u64 (d + 1 + (2 ^ 64 - r)) = d + 1 + (2 ^ 64 - r) := u64_eq (by omega)
      rw [left]
      omega

/-- What `FixNewHDDPartitionTable` changes apart from the disk. -/
theorem placeWinRE_rest (buffer : Image) (n : NewDisk) (i k : Nat) :
    ∃ disk header, (placeWinRE buffer n i k).2
      = { n with disk := disk, header := header, moved := some (i, k) } :=
  ⟨_, _, rfl⟩

/-- `FixNewHDDPartitionTable` does not look at the flag. -/
theorem fixNewHDDPartitionTable_small (fw : Firmware) (n : NewDisk) :
    (fixNewHDDPartitionTable fw n).fixSmallc = n.fixSmallc := by
  unfold fixNewHDDPartitionTable
  by_cases gpt : isGPT n.disk = true
  · by_cases efi : isEfiPart (readGpt n.disk fw.heap) = true
    · simp only [if_pos gpt, if_pos efi]
      cases chooseRecord (put 4 (readGpt n.disk fw.heap) 0x10 0) n.header with
      | none => rfl
      | some chosen =>
        obtain ⟨disk, header, rest⟩ :=
          placeWinRE_rest (put 4 (readGpt n.disk fw.heap) 0x10 0) n chosen.1 chosen.2
        simp only [rest]
    · simp only [if_pos gpt, if_neg efi]
  · simp only [if_neg gpt]

/-- The flag the path leaves is that of its first function. -/
theorem newDiskPath_small (fw : Firmware) (stack : Stack) (bootBegin totalSector : Nat) (n : NewDisk) :
    (newDiskPath fw stack bootBegin totalSector n).fixSmallc
      = (fixFirst fw stack bootBegin totalSector n.start).fixSmallc := by
  have second : ∀ m : NewDisk,
      (if ¬ m.isNoDataPartFlag ∧ m.winREState ≠ 0 then fixNewHDDPartitionTable fw m else m).fixSmallc
        = m.fixSmallc := by
    intro m
    split
    · exact fixNewHDDPartitionTable_small _ _
    · rfl
  exact second _

/-- The first function on a GPT disk that is too small. -/
theorem fixFirst_small {fw : Firmware} {stack : Stack} {bootBegin totalSector : Nat} {n : NewDisk}
    (gpt : isGPT n.disk = true) (fits : n.totalsector < 2 ^ 64) (copies : 67 ≤ n.totalsector)
    (unset : n.fixSmallc = false)
    (small : (fixFirst fw stack bootBegin totalSector n).fixSmallc = true) :
    let next := getWirePartSector stack (isFixNewHddWay stack n)
    let table := readGpt (fixFirst fw stack bootBegin totalSector n).disk fw.heap
    endingLBA table (entryStarting table bootBegin)
      = low256 (sub64 (sub64 n.totalsector next.wireTotalSectors)
          (if next.isNoDataPartFlag then 0x22 else 0x23)) := by
  have ready := prepared stack n
  simp only [fixFirst] at small ⊢
  generalize getWirePartSector stack (isFixNewHddWay stack n) = next at ready small ⊢
  rw [← ready.totalsector] at fits copies ⊢
  have gpt' : isGPT next.disk = true := by
    rw [ready.disk]
    exact gpt
  have unset' : next.fixSmallc = false := ready.fixSmallc.trans unset
  by_cases noData : next.isNoDataPartFlag = true
  · simp only [if_pos noData] at small ⊢
    exact noData_small gpt' fits copies ready.state unset' small
  · simp only [if_neg noData] at small ⊢
    exact newHdd_small gpt' ready.state unset' small

/-- The first function on an MBR disk, whichever it is. -/
theorem fixFirst_mbr {fw : Firmware} {stack : Stack} {bootBegin totalSector : Nat} {n : NewDisk}
    (mbr : ¬ isGPT n.disk = true)
    (small : (fixFirst fw stack bootBegin totalSector n).fixSmallc = true) (unset : n.fixSmallc = false) :
    ∃ next, Prepared stack n next
      ∧ fixFirst fw stack bootBegin totalSector n = (fixMbr bootBegin totalSector next).getD next := by
  have ready := prepared stack n
  refine ⟨_, ready, ?_⟩
  simp only [fixFirst] at small ⊢
  generalize getWirePartSector stack (isFixNewHddWay stack n) = next at ready small ⊢
  have mbr' : ¬ isGPT next.disk = true := by
    rw [ready.disk]
    exact mbr
  have set_ : ¬ next.fixSmallc = true := by
    rw [ready.fixSmallc, unset]
    decide
  -- both functions give up on an empty system partition, which leaves the flag unset
  by_cases noData : next.isNoDataPartFlag = true
  · simp only [if_pos noData, fixNoDataPartTable, if_neg mbr'] at small ⊢
    by_cases nothing : bootBegin = 0 ∨ totalSector = 0
    · rw [if_pos nothing] at small
      exact absurd small set_
    · rw [if_neg nothing]
  · simp only [if_neg noData, fixNewHDD, if_neg mbr'] at small ⊢
    by_cases nothing : bootBegin = 0 ∨ totalSector = 0
    · rw [if_pos nothing] at small
      exact absurd small set_
    · rw [if_neg nothing]

/-- A path that asks for a smaller volume has a system to shrink. -/
theorem small_some {fw : Firmware} {stack : Stack} {bootBegin totalSector : Nat} {n : NewDisk}
    (unset : n.fixSmallc = false)
    (small : (fixFirst fw stack bootBegin totalSector n).fixSmallc = true) :
    bootBegin ≠ 0 ∧ totalSector ≠ 0 := by
  by_contra nothing
  have zero : bootBegin = 0 ∨ totalSector = 0 := by omega
  have ready := prepared stack n
  simp only [fixFirst, fixNoDataPartTable, fixNewHDD, if_pos zero, ite_self] at small
  rw [ready.fixSmallc, unset] at small
  exact absurd small (by decide)

/-- An image of a system of 1000000 sectors from sector 2048 on, with WinRE right behind it. -/
def smallHeader (winRE : Nat) : OkrHeader :=
  { partitionCount := 2
    disksize := 2000000
    partition := fun i =>
      if i = 0 then
        { bootBegin := 2048, totalSectors := 1000000, typeGuid := windowsDataTypeGuid, bIfBackup := true,
          hasWindows := true }
      else
        { bootBegin := 1002048, totalSectors := winRE, typeGuid := windowRecoveryTypeGuid,
          bIfBackup := true } }

/-- The image on a new disk of that size. -/
def smallDisk (totalsector winRE : Nat) : NewDisk :=
  { disk := sampleGpt 2048 1002047, totalsector := totalsector, header := smallHeader winRE }

end Okr
