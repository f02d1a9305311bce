import Okr.Proofs.GptTable

/-! The rewritten table without a data partition is in order for some sizes only. -/

namespace Okr

open Slots (Slot WellFormed Before wellFormed_last wellFormed_succ wellFormed_trim)

/--
The table an image left on the disk: entry `k` is the operating system's.

The entries in front of it are in order from the sector `low` on and end before it.
-/
structure ImageGpt (low : Nat) (buffer : Image) (bootBegin totalSector k : Nat) : Prop where
  inside : k < gptEntries
  used : inUse buffer k
  above : low ≤ bootBegin
  positive : 0 < bootBegin
  some_ : 0 < totalSector
  first : startingLBA buffer k = bootBegin
  last : endingLBA buffer k + 1 = bootBegin + totalSector
  front : WellFormed low bootBegin k (slotAt buffer)
  before : Before bootBegin k (slotAt buffer)
  blank : ∀ l < k, ¬ inUse buffer l → startingLBA buffer l = 0

/-- The path works on a GPT disk whose header is there. -/
structure OnGpt (fw : Firmware) (n : NewDisk) : Prop where
  gpt : isGPT n.disk = true
  efi : isEfiPart (readGpt n.disk fw.heap) = true
  fits : n.totalsector < 2 ^ 64

/-- The entries of a fitted table are those of the image. -/
theorem slotAt_fitHeader (totalsector : Nat) (buffer : Image) (k : Nat) :
    slotAt (fitHeader totalsector buffer) k = slotAt buffer k :=
  (sameEntry_fitHeader totalsector buffer k).slot

/-- No entry in front of the operating system's starts where it does. -/
theorem findSystem_image {low bootBegin totalSector k : Nat} {buffer : Image}
    (image : ImageGpt low buffer bootBegin totalSector k) :
    (findEntry fun l => startingLBA buffer l == bootBegin) = k := by
  apply findEntry_eq image.inside
  · rw [image.first]
    exact beq_self_eq_true _
  · -- An entry in front ends before the operating system, or is blank.
    intro l below
    apply beq_false_of_ne
    by_cases used : inUse buffer l
    · have ordered := (image.front.fits l below used).ordered
      have ends := image.before l below used
      simp only [slotAt] at ordered ends
      omega
    · have positive := image.positive
      rw [image.blank l below used]
      omega

/-- The search finds the entry of the operating system, unless it stands too far behind. -/
theorem findOs_image (totalsector : Nat) {low bootBegin totalSector k : Nat} {buffer : Image}
    (image : ImageGpt low buffer bootBegin totalSector k) :
    findOs (fitHeader totalsector buffer) bootBegin = if 28 < k then none else some k := by
  have start : ∀ l, startingLBA (fitHeader totalsector buffer) l = startingLBA buffer l :=
    fun l => congrArg Slot.first (slotAt_fitHeader totalsector buffer l)
  have found : (findEntry fun l => startingLBA (fitHeader totalsector buffer) l == bootBegin) = k := by
    simp only [start]
    exact findSystem_image image
  simp only [findOs, found, entryPos]
  by_cases far : 28 < k
  · rw [if_pos (by omega), if_pos far]
  · rw [if_neg (by omega), if_neg far]

/-- The table written to both ends of the disk is read back from its front. -/
theorem readGpt_writeGptCopies (crc32 : Bytes → Nat) {totalsector : Nat} (copies : 67 ≤ totalsector)
    (fits : totalsector < 2 ^ 64) (buffer disk heap : Image) {a : Nat} (inside : a < GPT_SIZE) :
    readGpt (writeGptCopies crc32 totalsector buffer disk) heap a = buffer a := by
  simp only [GPT_SIZE] at inside
  have array : sub64 totalsector 33 = totalsector - 33 := sub64_eq (by omega) fits
  have header : sub64 totalsector 1 = totalsector - 1 := sub64_eq (by omega) fits
  -- The copies at the end lie behind sector 33.
  have front : readGpt (writeGptCopies crc32 totalsector buffer disk) heap a
      = readGpt (diskWrite disk 1 (GPT_SIZE / 512) buffer) heap a := by
    unfold readGpt diskRead writeGptCopies
    rw [array, header, if_pos (by simp only [GPT_SIZE, SECTOR_SIZE]; omega),
      if_pos (by simp only [GPT_SIZE, SECTOR_SIZE]; omega),
      diskWrite_other (by simp only [SECTOR_SIZE]; omega),
      diskWrite_other (by simp only [SECTOR_SIZE]; omega)]
  rw [front]
  exact diskRead_diskWrite _ _ _ _ _ (by simp only [GPT_SIZE, SECTOR_SIZE]; omega)

/-- The entries at the front of the disk are those of the table that was sealed and written there. -/
theorem slotAt_writtenFront (crc32 : Bytes → Nat) (buffer disk heap : Image) {k : Nat}
    (inside : k < gptEntries) :
    slotAt (readGpt (diskWrite disk 1 (GPT_SIZE / 512) (sealGpt crc32 buffer)) heap) k
      = slotAt buffer k := by
  rw [← (sameEntry_sealGpt crc32 buffer k).slot]
  apply SameEntry.slot
  intro a below
  apply diskRead_diskWrite
  simp only [GPT_SIZE, SECTOR_SIZE, gptEntries, entryPos] at inside ⊢
  omega

/-- The bytes of the entries on the disk are those of the table that was sealed and written. -/
theorem sameEntry_written (crc32 : Bytes → Nat) {totalsector : Nat} (copies : 67 ≤ totalsector)
    (fits : totalsector < 2 ^ 64) (buffer disk heap : Image) {k : Nat} (inside : k < gptEntries) :
    SameEntry buffer
      (readGpt (writeGptCopies crc32 totalsector (sealGpt crc32 buffer) disk) heap) k := by
  refine (sameEntry_sealGpt crc32 buffer k).trans fun a below => ?_
  apply readGpt_writeGptCopies crc32 copies fits
  simp only [GPT_SIZE, gptEntries, entryPos] at inside ⊢
  omega

/-- The entries on the disk are those of the table that was sealed and written. -/
theorem slotAt_written (crc32 : Bytes → Nat) {totalsector : Nat} (copies : 67 ≤ totalsector)
    (fits : totalsector < 2 ^ 64) (buffer disk heap : Image) {k : Nat} (inside : k < gptEntries) :
    slotAt (readGpt (writeGptCopies crc32 totalsector (sealGpt crc32 buffer) disk) heap) k
      = slotAt buffer k :=
  (sameEntry_written crc32 copies fits buffer disk heap inside).slot

/--
The sizes for which the table comes out in order.

Behind a system that keeps its size, WinRE must end on or behind the sector it starts at and before the
end of the disk.
In front of a WinRE at the end of the disk, the system's last sector must not be WinRE's first.
-/
def NoDataFits (bootBegin totalSector : Nat) (n : NewDisk) : Prop :=
  if n.totalsector > u64 (u64 (bootBegin + totalSector) + n.wireTotalSectors) then
    bootBegin + totalSector + 0x21 ≤ n.totalsector
      ∧ (n.winREState ≠ 0 →
          let first := (bootBegin + totalSector + 15) / 16 * 16
          first + n.wireTotalSectors < 2 ^ 64
            ∧ (first % 256 = 0 ∨ 256 ≤ first % 256 + n.wireTotalSectors)
            ∧ (first + n.wireTotalSectors) / 256 * 256 + 0x22 ≤ n.totalsector)
  else
    n.winREState ≠ 0 →
      let rest := (n.totalsector - n.wireTotalSectors - 0x22) % 256
      16 ≤ rest ∧ 256 ≤ rest / 16 * 16 + n.wireTotalSectors

/-- The table `FixNoDataPartTable` writes, and the rest it leaves. -/
theorem fixNoDataPartTable_eq {fw : Firmware} {low bootBegin totalSector k : Nat} {n : NewDisk}
    (on : OnGpt fw n)
    (image : ImageGpt low (readGpt n.disk fw.heap) bootBegin totalSector k) :
    fixNoDataPartTable fw bootBegin totalSector n
      = if 28 < k then n
        else
          let entries := noDataEntries bootBegin totalSector k
            (fitHeader n.totalsector (readGpt n.disk fw.heap)) n
          { entries.2 with
            disk := writeGptCopies fw.crc32 n.totalsector (sealGpt fw.crc32 entries.1)
              entries.2.disk } := by
  have positive := image.positive
  have some_ := image.some_
  have found := findOs_image n.totalsector image
  simp only [fixNoDataPartTable, if_neg (show ¬ (bootBegin = 0 ∨ totalSector = 0) by omega), on.gpt,
    if_true, fittedGpt, on.efi, found]
  by_cases far : 28 < k
  · simp only [if_pos far]
  · simp only [if_neg far]

/-! ### The entries behind those of the image -/

section Tail

variable {low bootBegin totalSector k : Nat} {table buffer : Image}
  (image : ImageGpt low table bootBegin totalSector k)
  (front : ∀ l < k, slotAt buffer l = slotAt table l)
  (first : (slotAt buffer k).first = bootBegin) (used : (slotAt buffer k).used)

include image front first used in
/-- When the rest is cleared behind the system, its entry has to fit. -/
theorem wellFormed_one (inside : k + 1 < gptEntries) (high : Nat) :
    WellFormed low high gptEntries (slotAt (clearFrom buffer (k + 1)))
      ↔ (slotAt buffer k).Fits low high := by
  have same : ∀ l < k + 1, slotAt (clearFrom buffer (k + 1)) l = slotAt buffer l :=
    fun l below => (sameEntry_clearFrom below).slot
  have last := same k (by omega)
  rw [← last]
  apply wellFormed_last (by omega)
  · rw [last]
    exact used
  · rw [last, first]
    exact image.front.congr fun l below => (same l (by omega)).trans (front l below)
  · rw [last, first]
    intro l below used'
    rw [same l (by omega), front l below] at used' ⊢
    exact image.before l below used'
  · exact fun l behind below => clearFrom_free behind below

include image front first used in
/-- An entry of WinRE behind the system has to fit too, and both have to be apart. -/
theorem wellFormed_two (inside : k + 2 < gptEntries) (high : Nat) {winFirst winLast : Nat}
    (behind : bootBegin ≤ winFirst) (fits : winFirst < 2 ^ 64) (fits' : winLast < 2 ^ 64) :
    WellFormed low high gptEntries
        (slotAt (clearFrom (putWinRE buffer (k + 1) winFirst winLast) (k + 2)))
      ↔ (slotAt buffer k).Fits low high ∧ winFirst ≤ winLast ∧ winLast ≤ high
        ∧ ((slotAt buffer k).last < winFirst ∨ winLast < bootBegin) := by
  have same : ∀ l < k + 1, slotAt (clearFrom (putWinRE buffer (k + 1) winFirst winLast) (k + 2)) l
      = slotAt buffer l := by
    intro l below
    rw [(sameEntry_clearFrom (by omega)).slot, (sameEntry_putWinRE (by omega)).slot]
  have last := same k (by omega)
  have win : slotAt (clearFrom (putWinRE buffer (k + 1) winFirst winLast) (k + 2)) (k + 1)
      = { used := True, first := winFirst, last := winLast } := by
    rw [(sameEntry_clearFrom (by omega)).slot, slotAt_putWinRE fits fits']
  have above := image.above
  rw [wellFormed_trim (Nat.le_of_lt inside) (fun l low below => clearFrom_free low below),
    wellFormed_succ (by rw [win]; trivial)]
  have system : WellFormed low high (k + 1)
        (slotAt (clearFrom (putWinRE buffer (k + 1) winFirst winLast) (k + 2)))
      ↔ (slotAt buffer k).Fits low high := by
    rw [← last]
    apply wellFormed_last (by omega)
    · rw [last]
      exact used
    · rw [last, first]
      exact image.front.congr fun l below => (same l (by omega)).trans (front l below)
    · rw [last, first]
      intro l below used'
      rw [same l (by omega), front l below] at used' ⊢
      exact image.before l below used'
    · intro l low below
      omega
  rw [system, win]
  constructor
  · rintro ⟨fits, winFits, apart⟩
    have pair := apart k (by omega) (by rw [last]; exact used)
    simp only [Slot.Apart, last, first] at pair
    exact ⟨fits, winFits.ordered, winFits.below, pair⟩
  · rintro ⟨fits, ordered, below, pair⟩
    refine ⟨fits, ⟨ordered, Nat.le_trans above behind, below⟩, fun l inside used' => ?_⟩
    by_cases system : l = k
    · rw [system, last]
      simp only [Slot.Apart, first]
      exact pair
    · -- The entries of the image in front end before the system and so before WinRE.
      rw [same l inside, front l (by omega)] at used' ⊢
      have ends := image.before l (by omega) used'
      exact Or.inl (Nat.lt_of_lt_of_le ends behind)

end Tail

/-- What `FixNoDataPartTable` writes when the system keeps its size. -/
theorem noDataEntries_enough {bootBegin totalSector k : Nat} {buffer : Image} {n : NewDisk}
    (enough : n.totalsector > u64 (u64 (bootBegin + totalSector) + n.wireTotalSectors)) :
    (noDataEntries bootBegin totalSector k buffer n).1
      = if n.winREState ≠ 0 then
          let first := low16 (u64 (bootBegin + totalSector + 0xF))
          clearFrom (putWinRE buffer (k + 1) first (low256 (u64 (first + n.wireTotalSectors)))) (k + 2)
        else clearFrom buffer (k + 1) := by
  simp only [noDataEntries, if_pos enough]
  by_cases state : n.winREState ≠ 0
  · simp only [if_pos state]
  · simp only [if_neg state]

/-- What it writes when the system has to shrink. -/
theorem noDataEntries_tight {bootBegin totalSector k : Nat} {buffer : Image} {n : NewDisk}
    (tight : ¬ n.totalsector > u64 (u64 (bootBegin + totalSector) + n.wireTotalSectors))
    (fits : n.totalsector < 2 ^ 64) (room : bootBegin + n.wireTotalSectors + 0x22 ≤ n.totalsector) :
    (noDataEntries bootBegin totalSector k buffer n).1
      = if n.winREState ≠ 0 then
          let rest := n.totalsector - n.wireTotalSectors - 0x22
          let first := rest / 16 * 16
          clearFrom
            (putWinRE (put 8 buffer (entryPos k + 0x28) (rest / 256 * 256)) (k + 1) first
              ((first + n.wireTotalSectors) / 256 * 256))
            (k + 2)
        else
          clearFrom (put 8 buffer (entryPos k + 0x28) ((n.totalsector - 0x22) / 256 * 256)) (k + 1) := by
  simp only [noDataEntries, if_neg tight]
  -- with `room` no subtraction goes below zero, so the words are the numbers
  by_cases state : n.winREState ≠ 0
  · have sum : u64 (bootBegin + n.wireTotalSectors) = bootBegin + n.wireTotalSectors :=
      u64_eq (by omega)
    have total : sub64 (sub64 n.totalsector (bootBegin + n.wireTotalSectors)) 0x22
        = n.totalsector - (bootBegin + n.wireTotalSectors) - 0x22 := by
      rw [sub64_eq (by omega) fits, sub64_eq (by omega) (by omega)]
    have rest : u64 (bootBegin + (n.totalsector - (bootBegin + n.wireTotalSectors) - 0x22))
        = n.totalsector - n.wireTotalSectors - 0x22 := by
      rw [u64_eq (by omega)]
      omega
    have sum' : u64 ((n.totalsector - n.wireTotalSectors - 0x22) / 16 * 16 + n.wireTotalSectors)
        = (n.totalsector - n.wireTotalSectors - 0x22) / 16 * 16 + n.wireTotalSectors :=
      u64_eq (by omega)
    simp only [if_pos state, sum, total, rest]
    rw [low16_eq (by omega), sum', low256_eq (by omega), low256_eq (by omega)]
  · have total : sub64 (sub64 n.totalsector bootBegin) 0x22 = n.totalsector - bootBegin - 0x22 := by
      rw [sub64_eq (by omega) fits, sub64_eq (by omega) (by omega)]
    have rest : u64 (bootBegin + (n.totalsector - bootBegin - 0x22)) = n.totalsector - 0x22 := by
      rw [u64_eq (by omega)]
      omega
    simp only [if_neg state, total, rest]
    rw [low256_eq (by omega)]

/-- The table as it stands on the disk afterwards. -/
theorem noData_table {fw : Firmware} {low bootBegin totalSector k : Nat} {n : NewDisk}
    (on : OnGpt fw n) (image : ImageGpt low (readGpt n.disk fw.heap) bootBegin totalSector k)
    (copies : 67 ≤ n.totalsector) (near : ¬ 28 < k) {l : Nat} (inside : l < gptEntries) :
    slotAt (readGpt (fixNoDataPartTable fw bootBegin totalSector n).disk fw.heap) l
      = slotAt (noDataEntries bootBegin totalSector k
          (fitHeader n.totalsector (readGpt n.disk fw.heap)) n).1 l := by
  rw [fixNoDataPartTable_eq on image, if_neg near]
  dsimp only
  exact slotAt_written fw.crc32 copies on.fits _ _ _ inside

section
variable {fw : Firmware} {bootBegin totalSector k : Nat} {n : NewDisk}

/-- The entry of the system in the buffer with the fitted header. -/
theorem fitted_system (image : ImageGpt 0 (readGpt n.disk fw.heap) bootBegin totalSector k) :
    slotAt (fitHeader n.totalsector (readGpt n.disk fw.heap)) k
      = { used := True, first := bootBegin, last := bootBegin + totalSector - 1 } := by
  have last := image.last
  have lastEq : endingLBA (readGpt n.disk fw.heap) k = bootBegin + totalSector - 1 := by omega
  rw [slotAt_fitHeader]
  simp only [slotAt, image.first, lastEq, eq_true image.used]

/-- The table on the disk is in order exactly when the one that was put together is. -/
theorem noData_inOrder_written (on : OnGpt fw n)
    (image : ImageGpt 0 (readGpt n.disk fw.heap) bootBegin totalSector k) (copies : 67 ≤ n.totalsector)
    (near : ¬ 28 < k) {high : Nat} :
    WellFormed 0 high gptEntries
        (slotAt (readGpt (fixNoDataPartTable fw bootBegin totalSector n).disk fw.heap))
      ↔ WellFormed 0 high gptEntries (slotAt (noDataEntries bootBegin totalSector k
          (fitHeader n.totalsector (readGpt n.disk fw.heap)) n).1) := by
  have same := fun l (inside : l < gptEntries) => noData_table on image copies near inside
  exact ⟨fun wf => wf.congr fun l inside => (same l inside).symm, fun wf => wf.congr same⟩

/-- A table whose system keeps its size is in order when it ends on the disk, and WinRE behind it. -/
theorem noDataEntries_inOrder_enough (fits : n.totalsector < 2 ^ 64)
    (image : ImageGpt 0 (readGpt n.disk fw.heap) bootBegin totalSector k)
    (room : bootBegin + n.wireTotalSectors + 0x122 < n.totalsector)
    (enough : n.totalsector > u64 (u64 (bootBegin + totalSector) + n.wireTotalSectors))
    (inside : k + 2 < gptEntries) :
    WellFormed 0 (n.totalsector - 0x22) gptEntries (slotAt (noDataEntries bootBegin totalSector k
          (fitHeader n.totalsector (readGpt n.disk fw.heap)) n).1)
      ↔ NoDataFits bootBegin totalSector n := by
  have fitted := slotAt_fitHeader n.totalsector (readGpt n.disk fw.heap)
  have system := fitted_system image
  have some_ := image.some_
  have oneFits : (slotAt (fitHeader n.totalsector (readGpt n.disk fw.heap)) k).Fits 0
        (n.totalsector - 0x22)
      ↔ bootBegin + totalSector + 0x21 ≤ n.totalsector := by
    rw [system]
    constructor
    · rintro ⟨ordered, above, below⟩
      simp only at below
      omega
    · intro below
      constructor <;> simp only <;> omega
  unfold NoDataFits
  rw [if_pos enough, noDataEntries_enough enough]
  by_cases state : n.winREState ≠ 0
  · rw [if_pos state]
    by_cases ends : bootBegin + totalSector + 0x21 ≤ n.totalsector
    · -- Behind the end of the system no sum wraps but that with the size of WinRE.
      have sum : u64 (bootBegin + totalSector + 15) = bootBegin + totalSector + 15 :=
        u64_eq (by omega)
      have start : low16 (bootBegin + totalSector + 15)
          = (bootBegin + totalSector + 15) / 16 * 16 := low16_eq (by omega)
      have stop := low256_eq
        (u64_lt ((bootBegin + totalSector + 15) / 16 * 16 + n.wireTotalSectors))
      simp only [sum, start, stop]
      rw [wellFormed_two image (fun l _ => fitted l) (by rw [system]) (by rw [system]; trivial)
        inside _ (by omega) (by omega)
        (Nat.lt_of_le_of_lt (Nat.div_mul_le_self _ _) (u64_lt _)), oneFits]
      simp only [system, ends, true_and]
      have wrapped : u64 ((bootBegin + totalSector + 15) / 16 * 16 + n.wireTotalSectors)
          = ((bootBegin + totalSector + 15) / 16 * 16 + n.wireTotalSectors) % 2 ^ 64 := rfl
      rw [wrapped]
      clear system oneFits stop wrapped
      omega
    · -- The system's own entry ends behind the last usable sector.
      refine ⟨fun wf => absurd ?_ ends, fun cond => absurd cond.1 ends⟩
      have same : slotAt (clearFrom (putWinRE (fitHeader n.totalsector (readGpt n.disk fw.heap))
          (k + 1) (low16 (u64 (bootBegin + totalSector + 0xF)))
          (low256 (u64 (low16 (u64 (bootBegin + totalSector + 0xF)) + n.wireTotalSectors))))
          (k + 2)) k = slotAt (fitHeader n.totalsector (readGpt n.disk fw.heap)) k := by
        rw [(sameEntry_clearFrom (by omega)).slot, (sameEntry_putWinRE (by omega)).slot]
      have osFits := wf.fits k image.inside (by rw [same, system]; trivial)
      rw [same] at osFits
      exact oneFits.mp osFits
  · rw [if_neg state, wellFormed_one image (fun l _ => fitted l) (by rw [system])
      (by rw [system]; trivial) (by omega), oneFits]
    exact ⟨fun ends => ⟨ends, fun state' => absurd state' state⟩, fun cond => cond.1⟩

/-- A table whose system shrinks is in order when WinRE starts behind it and ends behind its start. -/
theorem noDataEntries_inOrder_tight (fits : n.totalsector < 2 ^ 64)
    (image : ImageGpt 0 (readGpt n.disk fw.heap) bootBegin totalSector k)
    (room : bootBegin + n.wireTotalSectors + 0x122 < n.totalsector)
    (tight : ¬ n.totalsector > u64 (u64 (bootBegin + totalSector) + n.wireTotalSectors))
    (inside : k + 2 < gptEntries) :
    WellFormed 0 (n.totalsector - 0x22) gptEntries (slotAt (noDataEntries bootBegin totalSector k
          (fitHeader n.totalsector (readGpt n.disk fw.heap)) n).1)
      ↔ NoDataFits bootBegin totalSector n := by
  have fitted := slotAt_fitHeader n.totalsector (readGpt n.disk fw.heap)
  have system := fitted_system image
  have some_ := image.some_
  unfold NoDataFits
  rw [if_neg tight, noDataEntries_tight tight fits (by omega)]
  by_cases state : n.winREState ≠ 0
  · rw [if_pos state]
    -- the system ends where WinRE is to start
    have shrunk : slotAt (put 8 (fitHeader n.totalsector (readGpt n.disk fw.heap))
          (entryPos k + 0x28) ((n.totalsector - n.wireTotalSectors - 0x22) / 256 * 256)) k
        = { used := True, first := bootBegin,
            last := (n.totalsector - n.wireTotalSectors - 0x22) / 256 * 256 } := by
      rw [slotAt_putLast (by omega), system]
    simp only
    rw [wellFormed_two image
      (fun l below => ((SameEntry.put_entry (by omega) (by decide)).slot).trans (fitted l))
      (by rw [shrunk]) (by rw [shrunk]; trivial) inside _ (by omega) (by omega) (by omega)]
    have osFits : Slot.Fits 0 (n.totalsector - 0x22)
        { used := True, first := bootBegin,
          last := (n.totalsector - n.wireTotalSectors - 0x22) / 256 * 256 } := by
      constructor <;> simp only <;> omega
    rw [shrunk]
    simp only [osFits, true_and]
    clear osFits shrunk system
    omega
  · rw [if_neg state, wellFormed_one image
      (fun l below => ((SameEntry.put_entry (by omega) (by decide)).slot).trans (fitted l))
      (by rw [slotAt_putLast (by omega), system]) (by rw [slotAt_putLast (by omega), system]; trivial)
      (by omega), slotAt_putLast (by omega), system]
    -- without WinRE the shrunk system is the last entry, and nothing is asked
    refine ⟨fun _ state' => absurd state' state, fun _ => ?_⟩
    constructor <;> simp only <;> omega

end

/--
The table `FixNoDataPartTable` leaves on the disk is in order exactly for the sizes that fit.

An entry of the system behind the first 29 is not found, and the image's table stays as it is.
-/
theorem fixNoDataPartTable_inOrder {fw : Firmware} {bootBegin totalSector k : Nat} {n : NewDisk}
    (on : OnGpt fw n) (image : ImageGpt 0 (readGpt n.disk fw.heap) bootBegin totalSector k)
    (room : bootBegin + n.wireTotalSectors + 0x122 < n.totalsector) :
    WellFormed 0 (n.totalsector - 0x22) gptEntries
        (slotAt (readGpt (fixNoDataPartTable fw bootBegin totalSector n).disk fw.heap))
      ↔ if 28 < k then
          WellFormed 0 (n.totalsector - 0x22) gptEntries (slotAt (readGpt n.disk fw.heap))
        else NoDataFits bootBegin totalSector n := by
  by_cases far : 28 < k
  · rw [if_pos far, fixNoDataPartTable_eq on image, if_pos far]
  · have some_ := image.some_
    have inside : k + 2 < gptEntries := by
      simp only [gptEntries]
      omega
    rw [if_neg far, noData_inOrder_written on image (by omega) far]
    by_cases enough : n.totalsector > u64 (u64 (bootBegin + totalSector) + n.wireTotalSectors)
    · exact noDataEntries_inOrder_enough on.fits image room enough inside
    · exact noDataEntries_inOrder_tight on.fits image room enough inside

/-- A disk with a protective entry, and a table whose first entry is the system's. -/
def sampleGpt (bootBegin last : Nat) : Image :=
  let disk : Image := putBytes (putBytes (fun _ => 0) 0x1c2 [0xEE]) 0x1fe [0x55, 0xAA]
  let disk := putBytes disk 512 [0x45, 0x46, 0x49, 0x20, 0x50, 0x41, 0x52, 0x54]
  -- On the disk the table stands one sector behind its place in the buffer.
  let disk := putBytes disk (512 + entryPos 0) windowsDataTypeGuid
  put 8 (put 8 disk (512 + entryPos 0 + 0x20) bootBegin) (512 + entryPos 0 + 0x28) last

/-- One byte enters the checksum, bit by bit. -/
def crcStep (crc : UInt32) (byte : UInt8) : UInt32 :=
  (List.range 8).foldl (fun crc _ => if crc &&& 1 = 1 then crc >>> 1 ^^^ 0xEDB88320 else crc >>> 1)
    (crc ^^^ byte.toUInt32)

/-- The checksum the firmware's `CalculateCrc32` computes. -/
def calculateCrc32 (bytes : Bytes) : Nat := (bytes.foldl crcStep 0xFFFFFFFF ^^^ 0xFFFFFFFF).toNat

/-- The check value of this checksum is that of the nine digits. -/
example : calculateCrc32 [0x31, 0x32, 0x33, 0x34, 0x35, 0x36, 0x37, 0x38, 0x39] = 0xCBF43926 := by
  decide +kernel

/-- Firmware whose heap is blank and whose random numbers are zero. -/
def sampleFirmware : Firmware := { crc32 := calculateCrc32 }

/-- Its checksums are words of 32 bits. -/
theorem sampleFirmware_word (bytes : Bytes) : sampleFirmware.crc32 bytes < 2 ^ 32 :=
  UInt32.toNat_lt _

/-- A disk of that size whose system starts at sector 2048 and has 1000000 sectors, with WinRE behind it. -/
def sampleNewDisk (totalsector : Nat) : NewDisk :=
  { disk := sampleGpt 2048 1002047
    totalsector := totalsector
    header := { partitionCount := 0, disksize := 0, partition := fun _ => {} }
    winREState := 2
    wireTotalSectors := 1000 }

/-- The sample disk has a GPT. -/
theorem sampleNewDisk_on {totalsector : Nat} (fits : totalsector < 2 ^ 64) :
    OnGpt sampleFirmware (sampleNewDisk totalsector) :=
  ⟨show isGPT (sampleGpt 2048 1002047) = true by decide +kernel,
    show isEfiPart (readGpt (sampleGpt 2048 1002047) fun _ => 0) = true by decide +kernel, fits⟩

/-- The sample table is one that an image left. -/
theorem sampleNewDisk_image (totalsector : Nat) :
    ImageGpt 0 (readGpt (sampleNewDisk totalsector).disk sampleFirmware.heap) 2048 1000000 0 where
  inside := by decide
  used := show inUse (readGpt (sampleGpt 2048 1002047) fun _ => 0) 0 by decide +kernel
  above := by decide
  positive := by decide
  some_ := by decide
  first := show startingLBA (readGpt (sampleGpt 2048 1002047) fun _ => 0) 0 = 2048 by decide +kernel
  last := show endingLBA (readGpt (sampleGpt 2048 1002047) fun _ => 0) 0 + 1 = 1002048 by decide +kernel
  front := ⟨fun l below => absurd below (Nat.not_lt_zero _),
    fun l below => absurd below (Nat.not_lt_zero _)⟩
  before := fun l below => absurd below (Nat.not_lt_zero _)
  blank := fun l below => absurd below (Nat.not_lt_zero _)

/-- On a disk of 513090 sectors, 56 of the 256 are left over and the table is in order. -/
theorem fixNoDataPartTable_inOrder_rest :
    WellFormed 0 (513090 - 0x22) gptEntries
      (slotAt (readGpt (fixNoDataPartTable sampleFirmware 2048 1000000 (sampleNewDisk 513090)).disk
        sampleFirmware.heap)) :=
  (fixNoDataPartTable_inOrder (sampleNewDisk_on (by decide)) (sampleNewDisk_image 513090)
    (by decide)).mpr (by
      rw [if_neg (by decide)]
      unfold NoDataFits
      decide +kernel)

/-- On a disk of 513039 sectors, five are left over: the system's last sector is WinRE's first. -/
theorem fixNoDataPartTable_overlaps :
    ¬ ∀ (fw : Firmware) (n : NewDisk) (bootBegin totalSector k : Nat), OnGpt fw n →
        ImageGpt 0 (readGpt n.disk fw.heap) bootBegin totalSector k →
        bootBegin + n.wireTotalSectors + 0x122 < n.totalsector →
        WellFormed 0 (n.totalsector - 0x22) gptEntries
          (slotAt (readGpt (fixNoDataPartTable fw bootBegin totalSector n).disk fw.heap)) := by
  intro inOrder
  have wf := inOrder sampleFirmware (sampleNewDisk 513039) 2048 1000000 0
    (sampleNewDisk_on (by decide)) (sampleNewDisk_image 513039) (by decide)
  -- Entry 0 ends at sector 512000 and entry 1 starts there.
  have used : inUse (readGpt (fixNoDataPartTable sampleFirmware 2048 1000000
        (sampleNewDisk 513039)).disk sampleFirmware.heap) 0
      ∧ inUse (readGpt (fixNoDataPartTable sampleFirmware 2048 1000000
        (sampleNewDisk 513039)).disk sampleFirmware.heap) 1 := by
    decide +kernel
  have notApart : ¬ (endingLBA (readGpt (fixNoDataPartTable sampleFirmware 2048 1000000
          (sampleNewDisk 513039)).disk sampleFirmware.heap) 0
        < startingLBA (readGpt (fixNoDataPartTable sampleFirmware 2048 1000000
          (sampleNewDisk 513039)).disk sampleFirmware.heap) 1
      ∨ endingLBA (readGpt (fixNoDataPartTable sampleFirmware 2048 1000000
          (sampleNewDisk 513039)).disk sampleFirmware.heap) 1
        < startingLBA (readGpt (fixNoDataPartTable sampleFirmware 2048 1000000
          (sampleNewDisk 513039)).disk sampleFirmware.heap) 0) := by
    decide +kernel
  exact notApart (wf.apart 0 (by decide) 1 (by decide) (by decide) used.1 used.2)

end Okr
