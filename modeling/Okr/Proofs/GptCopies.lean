import Okr.Proofs.NewHdd

/-! The two copies of the table agree after the new-disk path only where it writes both. -/

namespace Okr

/-- The header's checksum is that of its first 0x5c bytes, with its own field zero. -/
def HeaderSealed (crc32 : Bytes → Nat) (header : Image) : Prop :=
  le32 header 0x10 = crc32 (bytesAt (put 4 header 0x10 0) 0 0x5c)

/-- A sector of the disk as a buffer. -/
def sectorAt (disk : Image) (sector : Nat) : Image := fun a => disk (sector * SECTOR_SIZE + a)

/-- A header that is whole, and whose fields say where it and the other copy stand. -/
structure GoodHeader (crc32 : Bytes → Nat) (totalsector : Nat) (header : Image) (entries : Bytes)
    (mine other : Nat) : Prop where
  checksum : HeaderSealed crc32 header
  array : arrayCrc header = crc32 entries
  mine : myLBA header = mine
  other : alternateLBA header = other
  last : lastUsableLBA header = totalsector - 0x22

/-- A copy of the table: its header in one sector, its entries from another one on. -/
def GptCopy (crc32 : Bytes → Nat) (totalsector : Nat) (disk : Image) (sector array other : Nat) : Prop :=
  GoodHeader crc32 totalsector (sectorAt disk sector) (bytesAt disk (array * SECTOR_SIZE) 16384) sector
    other

/-- The bytes of the entries that stand from a sector on. -/
def SameArray (disk : Image) (sector : Nat) (array : Image) : Prop :=
  ∀ a < 16384, disk (sector * SECTOR_SIZE + a) = array a

/-- Both copies of the table are whole, point at each other and have the same entries. -/
structure GptPair (crc32 : Bytes → Nat) (totalsector : Nat) (disk : Image) : Prop where
  front : GptCopy crc32 totalsector disk 1 2 (totalsector - 1)
  back : GptCopy crc32 totalsector disk (totalsector - 1) (totalsector - 33) 1
  same : SameArray disk (totalsector - 33) fun a => disk (2 * SECTOR_SIZE + a)

/-! ### Sealing a header -/

variable {crc32 : Bytes → Nat}

/-- Whether a header is sealed depends on its first 0x5c bytes. -/
theorem headerSealed_congr {header header' : Image} (same : ∀ a < 0x5c, header' a = header a) :
    HeaderSealed crc32 header' ↔ HeaderSealed crc32 header := by
  have field : le32 header' 0x10 = le32 header 0x10 := le32_congr fun a below => same _ (by omega)
  have bytes : bytesAt (put 4 header' 0x10 0) 0 0x5c = bytesAt (put 4 header 0x10 0) 0 0x5c := by
    apply bytesAt_congr
    intro a below
    simp only [put, same (0 + a) (by omega)]
  rw [HeaderSealed, HeaderSealed, field, bytes]

/-- Whether a header is good depends on these bytes too. -/
theorem GoodHeader.congr {totalsector mine other : Nat} {header header' : Image} {entries : Bytes}
    (same : ∀ a < 0x5c, header' a = header a) :
    GoodHeader crc32 totalsector header' entries mine other
      ↔ GoodHeader crc32 totalsector header entries mine other := by
  have words : ∀ i, i + 8 ≤ 0x5c → le64 header' i = le64 header i :=
    fun i inside => le64_congr fun a below => same _ (by omega)
  have array : arrayCrc header' = arrayCrc header := le32_congr fun a below => same _ (by omega)
  have my : myLBA header' = myLBA header := words 0x18 (by decide)
  have alternate : alternateLBA header' = alternateLBA header := words 0x20 (by decide)
  have last : lastUsableLBA header' = lastUsableLBA header := words 0x30 (by decide)
  constructor
  · rintro ⟨checksum, array', mine', other', last'⟩
    rw [array] at array'
    rw [my] at mine'
    rw [alternate] at other'
    rw [last] at last'
    exact ⟨(headerSealed_congr same).mp checksum, array', mine', other', last'⟩
  · rintro ⟨checksum, array', mine', other', last'⟩
    rw [← array] at array'
    rw [← my] at mine'
    rw [← alternate] at other'
    rw [← last] at last'
    exact ⟨(headerSealed_congr same).mpr checksum, array', mine', other', last'⟩

/-- The checksum entered is the one that is found. -/
theorem headerSealed_sealHeader (word : ∀ bytes, crc32 bytes < 2 ^ 32) (buffer : Image) :
    HeaderSealed crc32 (sealHeader crc32 buffer) := by
  have field : le32 (sealHeader crc32 buffer) 0x10
      = crc32 (bytesAt (put 4 buffer 0x10 0) 0 0x5c) := le32_put (word _)
  rw [HeaderSealed, field]
  refine congrArg crc32 (bytesAt_congr fun a below => ?_)
  simp only [sealHeader, put]
  by_cases inside : 0x10 ≤ 0 + a ∧ 0 + a < 0x10 + 4
  · rw [if_pos inside, if_pos inside]
  · rw [if_neg inside, if_neg inside, if_neg inside]

/-- A sealed header is good when its places are. -/
theorem goodHeader_sealGpt (word : ∀ bytes, crc32 bytes < 2 ^ 32) (buffer : Image)
    (totalsector mine other : Nat) :
    GoodHeader crc32 totalsector (sealGpt crc32 buffer) (bytesAt buffer 512 16384) mine other
      ↔ myLBA buffer = mine ∧ alternateLBA buffer = other
        ∧ lastUsableLBA buffer = totalsector - 0x22 := by
  have words : ∀ i, 0x14 ≤ i → i + 8 ≤ 0x58 → le64 (sealGpt crc32 buffer) i = le64 buffer i :=
    fun i low high => le64_congr fun a below => sealGpt_other (by omega) (by omega)
  have my : myLBA (sealGpt crc32 buffer) = myLBA buffer := words 0x18 (by decide) (by decide)
  have alternate : alternateLBA (sealGpt crc32 buffer) = alternateLBA buffer :=
    words 0x20 (by decide) (by decide)
  have last : lastUsableLBA (sealGpt crc32 buffer) = lastUsableLBA buffer :=
    words 0x30 (by decide) (by decide)
  have array : arrayCrc (sealGpt crc32 buffer) = crc32 (bytesAt buffer 512 16384) := by
    refine Eq.trans (le32_congr fun a below => ?_)
      (le32_put (m := buffer) (i := 0x58) (word (bytesAt buffer 512 16384)))
    unfold sealGpt sealHeader
    rw [put_other (by omega), put_other (by omega)]
  constructor
  · rintro ⟨-, -, mine', other', last'⟩
    exact ⟨my ▸ mine', alternate ▸ other', last ▸ last'⟩
  · rintro ⟨mine', other', last'⟩
    exact ⟨headerSealed_sealHeader word _, array, my.trans mine', alternate.trans other',
      last.trans last'⟩

/-- The header of the copy at the end swaps the two places and keeps the rest. -/
theorem backupHeader_fields (buffer : Image) :
    myLBA (backupHeader crc32 buffer) = alternateLBA buffer
      ∧ alternateLBA (backupHeader crc32 buffer) = myLBA buffer
      ∧ lastUsableLBA (backupHeader crc32 buffer) = lastUsableLBA buffer
      ∧ arrayCrc (backupHeader crc32 buffer) = arrayCrc buffer := by
  -- each field is followed back through the writes: the checksum comes last, the places first
  refine ⟨?_, ?_, ?_, ?_⟩
  · refine Eq.trans (le64_congr fun a below => ?_)
      (le64_put (m := put 8 buffer 0x20 (le64 buffer 0x18)) (i := 0x18) (le64_lt buffer 0x20))
    unfold backupHeader sealHeader
    rw [put_other (by omega), put_other (by omega), put_other (by omega)]
    rfl
  · refine Eq.trans (le64_congr fun a below => ?_)
      (le64_put (m := buffer) (i := 0x20) (le64_lt buffer 0x18))
    unfold backupHeader sealHeader
    rw [put_other (by omega), put_other (by omega), put_other (by omega), put_other (by omega)]
    rfl
  · apply le64_congr
    intro a below
    unfold backupHeader sealHeader
    rw [put_other (by omega), put_other (by omega), put_other (by omega), put_other (by omega),
      put_other (by omega)]
  · apply le32_congr
    intro a below
    unfold backupHeader sealHeader
    rw [put_other (by omega), put_other (by omega), put_other (by omega), put_other (by omega),
      put_other (by omega)]

/-- The header of the copy at the end is good when the places are, in the other order. -/
theorem goodHeader_backup (word : ∀ bytes, crc32 bytes < 2 ^ 32) (buffer : Image)
    (totalsector mine other : Nat) :
    GoodHeader crc32 totalsector (backupHeader crc32 (sealGpt crc32 buffer))
        (bytesAt buffer 512 16384) mine other
      ↔ alternateLBA buffer = mine ∧ myLBA buffer = other
        ∧ lastUsableLBA buffer = totalsector - 0x22 := by
  obtain ⟨my, alternate, last, array⟩ := @backupHeader_fields crc32 (sealGpt crc32 buffer)
  -- The header in front is good for the places it has.
  have front := goodHeader_sealGpt word buffer totalsector other mine
  constructor
  · rintro ⟨-, array', mine', other', last'⟩
    have good : GoodHeader crc32 totalsector (sealGpt crc32 buffer) (bytesAt buffer 512 16384) other
        mine :=
      ⟨headerSealed_sealHeader word _, array.symm.trans array', alternate.symm.trans other',
        my.symm.trans mine', last.symm.trans last'⟩
    obtain ⟨mine'', other'', last''⟩ := front.mp good
    exact ⟨other'', mine'', last''⟩
  · rintro ⟨mine', other', last'⟩
    have good := front.mpr ⟨other', mine', last'⟩
    exact ⟨headerSealed_sealHeader word _, array.trans good.array, my.trans good.other,
      alternate.trans good.mine, last.trans good.last⟩

/-! ### What was written -/

/-- The copy in front after a table was sealed and written there. -/
theorem gptCopy_front (word : ∀ bytes, crc32 bytes < 2 ^ 32) {buffer disk : Image}
    {totalsector other : Nat} (written : ∀ a < GPT_SIZE, disk (SECTOR_SIZE + a) = sealGpt crc32 buffer a) :
    GptCopy crc32 totalsector disk 1 2 other
      ↔ myLBA buffer = 1 ∧ alternateLBA buffer = other
        ∧ lastUsableLBA buffer = totalsector - 0x22 := by
  have header : ∀ a < 0x5c, sectorAt disk 1 a = sealGpt crc32 buffer a := by
    intro a below
    rw [sectorAt, Nat.one_mul]
    exact written a (by simp only [GPT_SIZE]; omega)
  have entries : bytesAt disk (2 * SECTOR_SIZE) 16384 = bytesAt buffer 512 16384 := by
    apply bytesAt_congr
    intro a below
    have place : 2 * SECTOR_SIZE + a = SECTOR_SIZE + (512 + a) := by
      simp only [SECTOR_SIZE]
      omega
    rw [place, written _ (by simp only [GPT_SIZE]; omega), sealGpt_other (by omega) (by omega)]
  rw [GptCopy, entries, GoodHeader.congr header]
  exact goodHeader_sealGpt word buffer totalsector 1 other

/-- A table in front leaves the sectors at the end. -/
theorem written_end {totalsector sector : Nat} {buffer disk : Image} (copies : 67 ≤ totalsector)
    (behind : totalsector - 33 ≤ sector) (a : Nat) :
    diskWrite disk 1 (GPT_SIZE / 512) buffer (sector * SECTOR_SIZE + a)
      = disk (sector * SECTOR_SIZE + a) :=
  diskWrite_other (by simp only [SECTOR_SIZE, GPT_SIZE]; omega)

/-- When only the front is written, the end has to hold the copy of that table already. -/
theorem gptPair_front (word : ∀ bytes, crc32 bytes < 2 ^ 32) {totalsector : Nat}
    (copies : 67 ≤ totalsector) (buffer disk : Image) :
    GptPair crc32 totalsector (diskWrite disk 1 (GPT_SIZE / 512) (sealGpt crc32 buffer))
      ↔ (myLBA buffer = 1 ∧ alternateLBA buffer = totalsector - 1
          ∧ lastUsableLBA buffer = totalsector - 0x22)
        ∧ GptCopy crc32 totalsector disk (totalsector - 1) (totalsector - 33) 1
        ∧ SameArray disk (totalsector - 33) fun a => buffer (512 + a) := by
  have written : ∀ a < GPT_SIZE, diskWrite disk 1 (GPT_SIZE / 512) (sealGpt crc32 buffer) (SECTOR_SIZE + a)
      = sealGpt crc32 buffer a := by
    intro a below
    rw [diskWrite, if_pos (by simp only [GPT_SIZE, SECTOR_SIZE] at below ⊢; omega), Nat.one_mul,
      Nat.add_sub_cancel_left]
  -- Only the front is written, so the copy at the end is the one of before.
  have front := @gptCopy_front crc32 word buffer _ totalsector (totalsector - 1) written
  have header : sectorAt (diskWrite disk 1 (GPT_SIZE / 512) (sealGpt crc32 buffer)) (totalsector - 1)
      = sectorAt disk (totalsector - 1) :=
    funext fun a => written_end copies (by omega) a
  have entries : bytesAt (diskWrite disk 1 (GPT_SIZE / 512) (sealGpt crc32 buffer))
        ((totalsector - 33) * SECTOR_SIZE) 16384
      = bytesAt disk ((totalsector - 33) * SECTOR_SIZE) 16384 :=
    bytesAt_congr fun a _ => written_end copies (Nat.le_refl _) a
  have back : GptCopy crc32 totalsector (diskWrite disk 1 (GPT_SIZE / 512) (sealGpt crc32 buffer))
        (totalsector - 1) (totalsector - 33) 1
      ↔ GptCopy crc32 totalsector disk (totalsector - 1) (totalsector - 33) 1 := by
    rw [GptCopy, GptCopy, header, entries]
  have array : ∀ a < 16384, diskWrite disk 1 (GPT_SIZE / 512) (sealGpt crc32 buffer)
      (2 * SECTOR_SIZE + a) = buffer (512 + a) := by
    intro a below
    have place : 2 * SECTOR_SIZE + a = SECTOR_SIZE + (512 + a) := by
      simp only [SECTOR_SIZE]
      omega
    rw [place, written _ (by simp only [GPT_SIZE]; omega), sealGpt_other (by omega) (by omega)]
  constructor
  · rintro ⟨front', back', same⟩
    refine ⟨front.mp front', back.mp back', fun a below => ?_⟩
    have read := (written_end copies (Nat.le_refl _) a).symm.trans (same a below)
    exact read.trans (array a below)
  · rintro ⟨front', back', same⟩
    refine ⟨front.mpr front', back.mpr back', fun a below => ?_⟩
    have read := (@written_end totalsector _ (sealGpt crc32 buffer) disk copies (Nat.le_refl _) a).trans
      (same a below)
    exact read.trans (array a below).symm

/-- When both copies are written, they agree if the places in the header are right. -/
theorem gptPair_written (word : ∀ bytes, crc32 bytes < 2 ^ 32) {totalsector : Nat}
    (copies : 67 ≤ totalsector) (fits : totalsector < 2 ^ 64) (buffer disk : Image) :
    GptPair crc32 totalsector (writeGptCopies crc32 totalsector (sealGpt crc32 buffer) disk)
      ↔ myLBA buffer = 1 ∧ alternateLBA buffer = totalsector - 1
        ∧ lastUsableLBA buffer = totalsector - 0x22 := by
  have first : sub64 totalsector 33 = totalsector - 33 := sub64_eq (by omega) fits
  have last : sub64 totalsector 1 = totalsector - 1 := sub64_eq (by omega) fits
  have written : ∀ a < GPT_SIZE, writeGptCopies crc32 totalsector (sealGpt crc32 buffer) disk
      (SECTOR_SIZE + a) = sealGpt crc32 buffer a := by
    intro a below
    simp only [GPT_SIZE] at below
    unfold writeGptCopies
    rw [first, last, diskWrite_other (by simp only [SECTOR_SIZE]; omega),
      diskWrite_other (by simp only [SECTOR_SIZE]; omega), diskWrite,
      if_pos (by simp only [GPT_SIZE, SECTOR_SIZE]; omega), Nat.one_mul, Nat.add_sub_cancel_left]
  have front := @gptCopy_front crc32 word buffer _ totalsector (totalsector - 1) written
  -- The last sector holds the other header, the 32 in front of it the entries once more.
  have header : ∀ a < 0x5c, sectorAt (writeGptCopies crc32 totalsector (sealGpt crc32 buffer) disk)
      (totalsector - 1) a = backupHeader crc32 (sealGpt crc32 buffer) a := by
    intro a below
    rw [sectorAt, writeGptCopies, last, diskWrite, if_pos (by simp only [SECTOR_SIZE]; omega),
      Nat.add_sub_cancel_left]
  have array : ∀ a < 16384, writeGptCopies crc32 totalsector (sealGpt crc32 buffer) disk
      ((totalsector - 33) * SECTOR_SIZE + a) = buffer (512 + a) := by
    intro a below
    unfold writeGptCopies
    rw [first, last, diskWrite_other (by simp only [SECTOR_SIZE]; omega), diskWrite,
      if_pos (by simp only [SECTOR_SIZE]; omega), Nat.add_sub_cancel_left]
    exact sealGpt_other (by omega) (by omega)
  have entries : bytesAt (writeGptCopies crc32 totalsector (sealGpt crc32 buffer) disk)
      ((totalsector - 33) * SECTOR_SIZE) 16384 = bytesAt buffer 512 16384 :=
    bytesAt_congr fun a below => array a below
  have back : GptCopy crc32 totalsector (writeGptCopies crc32 totalsector (sealGpt crc32 buffer) disk)
        (totalsector - 1) (totalsector - 33) 1
      ↔ alternateLBA buffer = totalsector - 1 ∧ myLBA buffer = 1
        ∧ lastUsableLBA buffer = totalsector - 0x22 := by
    rw [GptCopy, entries, GoodHeader.congr header]
    exact goodHeader_backup word buffer totalsector (totalsector - 1) 1
  constructor
  · exact fun pair => front.mp pair.front
  · rintro ⟨mine, other, end_⟩
    refine ⟨front.mpr ⟨mine, other, end_⟩, back.mpr ⟨other, mine, end_⟩, fun a below => ?_⟩
    have place : 2 * SECTOR_SIZE + a = SECTOR_SIZE + (512 + a) := by
      simp only [SECTOR_SIZE]
      omega
    dsimp only
    rw [array a below, place, written _ (by simp only [GPT_SIZE]; omega),
      sealGpt_other (by omega) (by omega)]

/-! ### The places in the header -/

/-- The places of a table for a disk of this size. -/
def FittingPlaces (totalsector : Nat) (buffer : Image) : Prop :=
  myLBA buffer = 1 ∧ alternateLBA buffer = totalsector - 1
    ∧ lastUsableLBA buffer = totalsector - 0x22

/-- The places are fields of the header. -/
theorem fittingPlaces_congr {totalsector : Nat} {buffer buffer' : Image}
    (same : ∀ a, 0x18 ≤ a → a < 0x38 → buffer' a = buffer a) :
    FittingPlaces totalsector buffer' ↔ FittingPlaces totalsector buffer := by
  have my : myLBA buffer' = myLBA buffer := le64_congr fun a below => same _ (by omega) (by omega)
  have alternate : alternateLBA buffer' = alternateLBA buffer :=
    le64_congr fun a below => same _ (by omega) (by omega)
  have last : lastUsableLBA buffer' = lastUsableLBA buffer :=
    le64_congr fun a below => same _ (by omega) (by omega)
  rw [FittingPlaces, FittingPlaces, my, alternate, last]

/-- A fitted header has its places right if it stood in sector 1. -/
theorem fittingPlaces_fitHeader {totalsector : Nat} (copies : 67 ≤ totalsector)
    (fits : totalsector < 2 ^ 64) (buffer : Image) :
    FittingPlaces totalsector (fitHeader totalsector buffer) ↔ myLBA buffer = 1 := by
  have my : myLBA (fitHeader totalsector buffer) = myLBA buffer :=
    le64_congr fun a below => fitHeader_other (by omega) (by omega) (by omega)
  have alternate : alternateLBA (fitHeader totalsector buffer) = totalsector - 1 := by
    rw [← sub64_eq (by omega) fits]
    refine Eq.trans (le64_congr fun a below => ?_)
      (le64_put (m := put 4 buffer 0x10 0) (i := 0x20) (sub64_lt totalsector 1))
    unfold fitHeader
    rw [put_other (by omega)]
  have last : lastUsableLBA (fitHeader totalsector buffer) = totalsector - 0x22 := by
    rw [← sub64_eq (by omega) fits]
    exact le64_put (sub64_lt totalsector 0x22)
  rw [FittingPlaces, my, alternate, last]
  simp only [and_true]

/-! ### The functions of the path -/

variable {fw : Firmware} {bootBegin totalSector : Nat} {n : NewDisk}

/-- Where `FixNoDataPartTable` finds the system, it writes both copies. -/
theorem fixNoData_disk (found : findsSystem fw bootBegin totalSector n = true) :
    ∃ disk buffer, (fixNoDataPartTable fw bootBegin totalSector n).disk
        = writeGptCopies fw.crc32 n.totalsector (sealGpt fw.crc32 buffer) disk
      ∧ SameHeader (fitHeader n.totalsector (readGpt n.disk fw.heap)) buffer := by
  simp only [findsSystem, hasTable, Bool.and_eq_true, bne_iff_ne, decide_eq_true_eq] at found
  obtain ⟨⟨⟨positive, some_⟩, gpt, efi⟩, near⟩ := found
  have go : ¬ (bootBegin = 0 ∨ totalSector = 0) := by omega
  have far : ¬ 28 < entryStarting (readGpt n.disk fw.heap) bootBegin := by omega
  simp only [fixNoDataPartTable, if_neg go, if_pos gpt, fittedGpt, if_pos efi, findOs_eq, if_neg far]
  refine ⟨_, _, rfl, ?_⟩
  generalize fitHeader n.totalsector (readGpt n.disk fw.heap) = buffer
  generalize entryStarting (readGpt n.disk fw.heap) bootBegin = k
  have grown : ∀ last, SameHeader buffer (put 8 buffer (entryPos k + 0x28) last) :=
    fun last => SameHeader.put (by unfold entryPos; omega)
  simp only [noDataEntries]
  split
  · split
    · exact sameHeader_putWinRE.trans sameHeader_clearFrom
    · exact sameHeader_clearFrom
  · split
    · exact ((grown _).trans sameHeader_putWinRE).trans sameHeader_clearFrom
    · exact (grown _).trans sameHeader_clearFrom

/-- Where it does not find it on a GPT disk, it leaves the disk. -/
theorem fixNoData_missed (gpt : isGPT n.disk = true)
    (missed : ¬ findsSystem fw bootBegin totalSector n = true) :
    fixNoDataPartTable fw bootBegin totalSector n = n := by
  by_cases nothing : bootBegin = 0 ∨ totalSector = 0
  · rw [fixNoDataPartTable, if_pos nothing]
  by_cases efi : isEfiPart (readGpt n.disk fw.heap) = true
  · have far : 28 < entryStarting (readGpt n.disk fw.heap) bootBegin := by
      simp only [findsSystem, hasTable, gpt, efi, Bool.and_eq_true, bne_iff_ne, decide_eq_true_eq,
        and_true] at missed
      omega
    simp only [fixNoDataPartTable, if_neg nothing, if_pos gpt, fittedGpt, if_pos efi, findOs_eq,
      if_pos far]
  · simp only [fixNoDataPartTable, if_neg nothing, if_pos gpt, fittedGpt, if_neg efi]

/-- `FixNewHDD` leaves a GPT disk too when it does not find the system. -/
theorem fixNewHDD_same (gpt : isGPT n.disk = true)
    (missed : ¬ findsSystem fw bootBegin totalSector n = true) :
    fixNewHDD fw bootBegin totalSector n = n := by
  by_cases nothing : bootBegin = 0 ∨ totalSector = 0
  · rw [fixNewHDD, if_pos nothing]
  by_cases efi : isEfiPart (readGpt n.disk fw.heap) = true
  · have table : hasTable fw n = true := by simp only [hasTable, gpt, efi, Bool.and_self]
    exact (fixNewHDD_missed missed).2 table
  · simp only [fixNewHDD, if_neg nothing, if_pos gpt, fittedGpt, if_neg efi]

/-- The end of the disk holds a copy with these entries. -/
def EndHolds (fw : Firmware) (bootBegin totalSector : Nat) (n : NewDisk) : Prop :=
  GptCopy fw.crc32 n.totalsector (newHddDisk fw bootBegin totalSector n) (n.totalsector - 1)
      (n.totalsector - 33) 1
    ∧ SameArray (newHddDisk fw bootBegin totalSector n) (n.totalsector - 33) fun a =>
        newHddTable fw bootBegin totalSector n (512 + a)

/-- After `FixNewHDD` alone the end of the disk must hold the copy of its table already. -/
theorem fixNewHDD_pair (word : ∀ bytes, fw.crc32 bytes < 2 ^ 32) (copies : 67 ≤ n.totalsector)
    (fits : n.totalsector < 2 ^ 64) (found : findsSystem fw bootBegin totalSector n = true) :
    GptPair fw.crc32 n.totalsector (fixNewHDD fw bootBegin totalSector n).disk
      ↔ myLBA (readGpt n.disk fw.heap) = 1 ∧ EndHolds fw bootBegin totalSector n := by
  have places : FittingPlaces n.totalsector (newHddTable fw bootBegin totalSector n)
      ↔ myLBA (readGpt n.disk fw.heap) = 1 := by
    rw [← fittingPlaces_fitHeader copies fits]
    exact fittingPlaces_congr fun a _ below =>
      sameHeader_newHddEntries fw bootBegin totalSector _ _ n a (by omega)
  rw [fixNewHDD_disk found, gptPair_front word copies]
  exact and_congr places Iff.rfl

/-- After `FixNewHDDPartitionTable` the places in the header it finds decide. -/
theorem fixNewHDDPartitionTable_pair (word : ∀ bytes, fw.crc32 bytes < 2 ^ 32)
    (copies : 67 ≤ n.totalsector) (fits : n.totalsector < 2 ^ 64) (table : hasTable fw n = true) :
    GptPair fw.crc32 n.totalsector (fixNewHDDPartitionTable fw n).disk
      ↔ FittingPlaces n.totalsector (readGpt n.disk fw.heap) := by
  obtain ⟨disk, written⟩ := fixNewHDDPartitionTable_disk table
  rw [written, gptPair_written word copies fits]
  refine fittingPlaces_congr fun a low below => ?_
  rw [sameHeader_placedEntries _ _ a (by omega), put_other (by omega)]

/-! ### The whole path -/

/-- The copies agree after `FixNewHDD` alone. -/
def FrontFits (fw : Firmware) (bootBegin totalSector : Nat) (n : NewDisk) : Prop :=
  if findsSystem fw bootBegin totalSector n then
    myLBA (readGpt n.disk fw.heap) = 1 ∧ EndHolds fw bootBegin totalSector n
  else GptPair fw.crc32 n.totalsector n.disk

/--
The copies agree after the functions called for a new disk.

Where the system is found, the header left by the image has to say that it stands in sector 1, and the
data partition must not start in sector 0, which is then cleared.
Where it is not found, the table with a data partition is written with the places of the image.
-/
def PathFits (fw : Firmware) (bootBegin totalSector : Nat) (n : NewDisk) : Prop :=
  if n.isNoDataPartFlag then
    if findsSystem fw bootBegin totalSector n then myLBA (readGpt n.disk fw.heap) = 1
    else GptPair fw.crc32 n.totalsector n.disk
  else if ¬ hasTable fw n then GptPair fw.crc32 n.totalsector n.disk
  else if ¬ findsSystem fw bootBegin totalSector n then
    FittingPlaces n.totalsector (readGpt n.disk fw.heap)
  else if clearsFront bootBegin totalSector n then FrontFits fw bootBegin totalSector n
  else myLBA (readGpt n.disk fw.heap) = 1

/-- The restore works the size of its disk into the table. -/
def RestoreMode.Fixes (mode : RestoreMode) : Prop :=
  mode.destdisktype = NEW_FOUND_DISK ∧ mode.comefromnewhddface
    ∨ ¬ mode.comefromnewhddface ∧ ¬ mode.bForceRestorePartition ∧ mode.olddisk = 2

/-- When the copies agree after the path, told from the disk and the image it finds. -/
def CopiesFit (fw : Firmware) (stack : Stack) (mode : RestoreMode) (bootBegin totalSector : Nat)
    (n : NewDisk) : Prop :=
  if mode.comefromnewhddface then
    PathFits fw bootBegin totalSector (getWirePartSector stack (isFixNewHddWay stack n.start))
  else FrontFits fw bootBegin totalSector n.start

/-- The functions called for a new disk, once the sizes are prepared. -/
theorem path_pair (word : ∀ bytes, fw.crc32 bytes < 2 ^ 32) (copies : 67 ≤ n.totalsector)
    (fits : n.totalsector < 2 ^ 64) (gpt : isGPT n.disk = true) (state : n.winREState ≠ 0) :
    let next := if n.isNoDataPartFlag then fixNoDataPartTable fw bootBegin totalSector n
      else fixNewHDD fw bootBegin totalSector n
    GptPair fw.crc32 n.totalsector
        (if ¬ next.isNoDataPartFlag ∧ next.winREState ≠ 0 then fixNewHDDPartitionTable fw next
          else next).disk
      ↔ PathFits fw bootBegin totalSector n := by
  cases flag : n.isNoDataPartFlag with
  | true =>
    obtain ⟨disk, header, small, moved, rest⟩ := fixNoDataPartTable_rest fw bootBegin totalSector n
    have stop : ¬ (¬ (fixNoDataPartTable fw bootBegin totalSector n).isNoDataPartFlag
        ∧ (fixNoDataPartTable fw bootBegin totalSector n).winREState ≠ 0) := by
      rw [rest]
      exact fun both => both.1 flag
    simp only [if_true]
    rw [if_neg stop, PathFits, if_pos flag]
    by_cases found : findsSystem fw bootBegin totalSector n = true
    · obtain ⟨disk', buffer, written, header'⟩ := fixNoData_disk found
      rw [if_pos found, written, gptPair_written word copies fits,
        ← fittingPlaces_fitHeader copies fits (readGpt n.disk fw.heap)]
      exact fittingPlaces_congr fun a _ below => header' a (by omega)
    · rw [if_neg found, fixNoData_missed gpt found]
  | false =>
    obtain ⟨disk, small, rest⟩ := fixNewHDD_rest fw bootBegin totalSector n
    have unset : ¬ n.isNoDataPartFlag = true := by rw [flag]; decide
    have go : ¬ (fixNewHDD fw bootBegin totalSector n).isNoDataPartFlag
        ∧ (fixNewHDD fw bootBegin totalSector n).winREState ≠ 0 := by
      rw [rest]
      exact ⟨unset, state⟩
    have size : (fixNewHDD fw bootBegin totalSector n).totalsector = n.totalsector := by rw [rest]
    simp only [Bool.false_eq_true, if_false]
    rw [if_pos go, PathFits, if_neg unset]
    by_cases found : findsSystem fw bootBegin totalSector n = true
    · obtain ⟨table, -⟩ := fixNewHDD_found found
      have before : hasTable fw n = true := by
        simp only [findsSystem, Bool.and_eq_true] at found
        exact found.1.2
      rw [if_neg (not_not_intro before), if_neg (not_not_intro found)]
      by_cases front : clearsFront bootBegin totalSector n = true
      · -- The second function finds no GPT disk any more.
        rw [if_pos front, FrontFits, if_pos found,
          fixNewHDDPartitionTable_bare (by rw [table, front]; decide)]
        exact fixNewHDD_pair word copies fits found
      · have table' : hasTable fw (fixNewHDD fw bootBegin totalSector n) = true := by
          rw [table, Bool.eq_false_of_not_eq_true front]
          rfl
        have second := fixNewHDDPartitionTable_pair word (by rw [size]; exact copies)
          (by rw [size]; exact fits) table'
        rw [size] at second
        rw [if_neg front, second, ← fittingPlaces_fitHeader copies fits (readGpt n.disk fw.heap)]
        exact fittingPlaces_congr fun a low below =>
          newHdd_header found (by omega) (by omega) (by omega)
    · rw [fixNewHDD_same gpt found]
      by_cases before : hasTable fw n = true
      · rw [if_neg (not_not_intro before), if_pos found]
        exact fixNewHDDPartitionTable_pair word copies fits before
      · rw [if_pos before, fixNewHDDPartitionTable_bare before]

/--
Both copies of the table agree after the path exactly when it writes both with the right places, or when
the disk it leaves alone holds two that agree.
-/
theorem fixDisk_pair {stack : Stack} {mode : RestoreMode} (word : ∀ bytes, fw.crc32 bytes < 2 ^ 32)
    (copies : 67 ≤ n.totalsector) (fits : n.totalsector < 2 ^ 64) (gpt : isGPT n.disk = true)
    (fixes : mode.Fixes) :
    GptPair fw.crc32 n.totalsector (fixDisk fw stack mode bootBegin totalSector n).disk
      ↔ CopiesFit fw stack mode bootBegin totalSector n := by
  unfold CopiesFit fixDisk
  -- A new disk takes one of the two paths, an old one the plain correction.
  rcases fixes with ⟨new, come⟩ | ⟨notCome, notForced, old⟩
  · have ready := prepared stack n.start
    have disk : (getWirePartSector stack (isFixNewHddWay stack n.start)).disk = n.disk := ready.disk
    have size : (getWirePartSector stack (isFixNewHddWay stack n.start)).totalsector = n.totalsector :=
      ready.totalsector
    have pair := @path_pair fw bootBegin totalSector
      (getWirePartSector stack (isFixNewHddWay stack n.start)) word (by rw [size]; exact copies)
      (by rw [size]; exact fits) (by rw [disk]; exact gpt) ready.state
    rw [size] at pair
    rw [if_neg (fun both => both.1 come), if_neg (fun both => both.1 come), if_pos ⟨new, come⟩,
      if_pos come]
    exact pair
  · rw [if_neg (fun both => notForced both.2), if_pos ⟨notCome, old⟩,
      if_neg (fun both => notCome both.2), if_neg notCome, FrontFits]
    have gpt' : isGPT n.start.disk = true := gpt
    by_cases found : findsSystem fw bootBegin totalSector n.start = true
    · rw [if_pos found]
      exact @fixNewHDD_pair fw bootBegin totalSector n.start word copies fits found
    · rw [if_neg found, fixNewHDD_same gpt' found]
      exact Iff.rfl

/-- A disk whose table says that it stands in sector 1, for an image with WinRE behind the system. -/
def pairDisk : NewDisk :=
  { disk := put 8 (sampleGpt 2048 1002047) (512 + 0x18) 1
    totalsector := 513090
    header := smallHeader 1000 }

/-- A restore to a disk found as a new one, and one to a disk of the machine whose table changed. -/
def onNewDisk : RestoreMode := ⟨true, false, NEW_FOUND_DISK, 0⟩
def onOldDisk : RestoreMode := ⟨false, false, 1, 2⟩

/-- The sample disk has a GPT. -/
theorem pairDisk_gpt : isGPT pairDisk.disk = true := by decide +kernel

/-- On a new disk both copies are written. -/
theorem fixDisk_pair_newDisk :
    GptPair sampleFirmware.crc32 513090 (fixDisk sampleFirmware {} onNewDisk 2048 1000000 pairDisk).disk :=
  (@fixDisk_pair sampleFirmware 2048 1000000 pairDisk {} onNewDisk sampleFirmware_word (by decide)
    (by decide) pairDisk_gpt (Or.inl ⟨rfl, rfl⟩)).mpr (by
      have flag : (getWirePartSector {} (isFixNewHddWay {} pairDisk.start)).isNoDataPartFlag = true := by
        decide
      have found : findsSystem sampleFirmware 2048 1000000
          (getWirePartSector {} (isFixNewHddWay {} pairDisk.start)) = true := by decide +kernel
      have come : onNewDisk.comefromnewhddface = true := rfl
      rw [CopiesFit, if_pos come, PathFits, if_pos flag, if_pos found]
      decide +kernel)

/-- On a disk of the machine the copy at the end of the disk is not written. -/
theorem fixDisk_onlyFront :
    ¬ ∀ (fw : Firmware) (stack : Stack) (mode : RestoreMode) (bootBegin totalSector : Nat) (n : NewDisk),
        (∀ bytes, fw.crc32 bytes < 2 ^ 32) → 67 ≤ n.totalsector → n.totalsector < 2 ^ 64 →
        isGPT n.disk = true → mode.Fixes →
        GptPair fw.crc32 n.totalsector (fixDisk fw stack mode bootBegin totalSector n).disk := by
  intro each
  have pair := each sampleFirmware {} onOldDisk 2048 1000000 pairDisk sampleFirmware_word (by decide)
    (by decide) pairDisk_gpt (Or.inr ⟨by decide, by decide, rfl⟩)
  have mine := pair.back.mine
  have blank : myLBA (sectorAt (fixDisk sampleFirmware {} onOldDisk 2048 1000000 pairDisk).disk
      (pairDisk.totalsector - 1)) = 0 := by decide +kernel
  rw [blank] at mine
  exact absurd mine (by decide)

end Okr
