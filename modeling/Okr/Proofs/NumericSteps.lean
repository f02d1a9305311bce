import Okr.Scan.NumericSteps

/-! The probe of a partition computes with sound numbers exactly when its boot sector has them. -/

namespace Okr

variable {buffer disk record : Image} {memory : ScanMemory} {p : PartitionInfo} {env : ClrEnv}
variable {s : ScanSetup} {st : ScanState} {step : NumericStep}

/-! ### The scan never divides by zero -/

/-- A number and the complement of it have no bit in common. -/
theorem and_complement {x : Nat} (fits : x < 2 ^ 32) : x &&& (2 ^ 32 - 1 - x) = 0 := by
  have complement : 2 ^ 32 - 1 - x = 2 ^ 32 - (x + 1) := by omega
  apply Nat.eq_of_testBit_eq
  intro i
  rw [complement, Nat.testBit_and, Nat.testBit_two_pow_sub_succ fits, Nat.zero_testBit]
  cases x.testBit i <;> simp

/-- Blocks without a byte, and groups without a block, have an empty bitmap. -/
theorem wholeBlocks_zero {blocksize blocksPerGroup : Nat} (none_ : u32 blocksize = 0 ∨ blocksPerGroup = 0) :
    wholeBlocks blocksize blocksPerGroup = 0 := by
  rw [wholeBlocks]
  rcases none_ with nothing | rfl
  · -- The mask keeps no bit.
    have mask : u32 (blocksize + 2 ^ 32 - 1) = 2 ^ 32 - 1 := by
      rw [u32] at nothing ⊢
      omega
    rw [mask, Nat.sub_self, Nat.and_zero]
  · -- The last block is not begun.
    have first : u32 (0 + 7) / 8 + blocksize + 2 ^ 32 - 1 = blocksize + 2 ^ 32 - 1 := by
      rw [Nat.zero_add, show u32 7 / 8 = 0 from rfl, Nat.zero_add]
    rw [first]
    exact and_complement (Nat.mod_lt _ (by decide))

/-- An empty bitmap has no sector. -/
theorem bitmapsize_zero : u32 (0 + SECTOR_SIZE - 1) / SECTOR_SIZE = 0 := rfl

/-- A pass over the groups divides by the sectors and by the blocks of a group only. -/
theorem scanLoopSteps_divide (member : step ∈ scanLoopSteps s fuel st) :
    st.total ≠ 0 ∧ (step = .divide s.part.sectorsPerClr ∨ step = .divide s.part.blocksPerGroup) := by
  induction fuel generalizing st with
  | zero => cases member
  | succ fuel ih =>
    rw [scanLoopSteps] at member
    split at member
    · cases member
    · next more =>
      refine ⟨more, ?_⟩
      cases List.mem_append.mp member with
      | inl here =>
        rw [passSteps] at here
        split at here
        · split at here
          · cases here
          · split at here
            · simpa using here
            · cases here
        · cases here
      | inr later => exact (ih later).2

/-- The count of the clusters divides by no other numbers either. -/
theorem clrLoopSteps_divide {spc fuel : Nat} :
    ∀ {total groupindex : Nat}, step ∈ clrLoopSteps s spc fuel total groupindex →
      total ≠ 0 ∧ (step = .divide spc ∨ step = .divide s.part.blocksPerGroup) := by
  induction fuel with
  | zero => exact fun member => nomatch member
  | succ fuel ih =>
    intro total groupindex member
    rw [clrLoopSteps] at member
    split at member
    · cases member
    · next more =>
      refine ⟨more, ?_⟩
      cases List.mem_append.mp member with
      | inl here =>
        split at here
        · cases here
        · split at here
          · simpa using here
          · cases here
      | inr later => exact (ih later).2

/-- Without sectors in a cluster the record of `$Bitmap` is never found. -/
theorem bitmapRecordLoop_zero {fuel attr : Nat} (i : Nat) :
    ∀ {offset vcn sector : Nat}, bitmapRecordLoop fuel record attr 0 i offset vcn = some sector → sector = 0 := by
  induction i with
  | zero =>
    intro offset vcn sector found
    rw [bitmapRecordLoop] at found
    cases found
    rfl
  | succ i ih =>
    intro offset vcn sector found
    rw [bitmapRecordLoop] at found
    split at found
    · cases found
    · cases found
      rfl
    · rw [Nat.mul_zero, show u32 0 = 0 from rfl, if_neg (Nat.not_lt_zero _)] at found
      exact ih found

/-- An NTFS volume whose bitmap was found has sectors in a cluster. -/
theorem initNTFS_sectors {fuel : Nat} {runs : List Blocks.Extent}
    (found : initNTFS fuel disk p buffer = some (some runs)) : p.sectorsPerClr ≠ 0 := by
  intro none_
  rw [initNTFS, none_] at found
  dsimp only at found
  split at found
  · cases found
  · -- With no sectors in a cluster every record is looked for in sector zero, and none is found.
    have lost : ∀ sector after, getBitmapFileRecordSector fuel disk p buffer = some (sector, after) →
        sector = 0 := by
      intro sector after found
      rw [getBitmapFileRecordSector, none_] at found
      split at found
      · cases found
        rfl
      · split at found
        · cases found
        · cases found
          rfl
        · obtain ⟨sector', looked, same⟩ := Option.map_eq_some_iff.mp found
          cases same
          exact bitmapRecordLoop_zero 3 looked
    cases looked : getBitmapFileRecordSector fuel disk p buffer with
    | none =>
      rw [looked] at found
      cases found
    | some result =>
      obtain ⟨sector, after⟩ := result
      rw [looked, lost sector after looked] at found
      cases found

/-- The scan divides by no zero, whatever the record it is given. -/
theorem scanSteps_sound {fuel : Nat} (member : step ∈ scanSteps fuel disk memory p) : step.Sound := by
  rw [scanSteps] at member
  split at member
  · cases member
  · split at member
    · split at member
      · next found =>
        rw [List.mem_singleton.mp member]
        exact initNTFS_sectors found
      · cases member
    · split at member
      · obtain ⟨passes, which⟩ := scanLoopSteps_divide member
        -- A loop with a pass has bitmaps, so blocks have sectors and groups have blocks.
        have sectors : groupBitmapBytes p ≠ 0 := by
          intro none_
          refine passes ?_
          dsimp only [extSetup]
          rw [none_, bitmapsize_zero]
          rfl
        rcases which with rfl | rfl
        · intro none_
          change p.sectorsPerClr = 0 at none_
          refine sectors (wholeBlocks_zero (Or.inl ?_))
          rw [none_, Nat.zero_mul]
          rfl
        · exact fun none_ => sectors (wholeBlocks_zero (Or.inr none_))
      · cases member

/-! ### Neither does the count of free clusters -/

/-- The count of an NTFS volume divides by its sectors per cluster. -/
theorem ntfsClrSteps_sound {spc : Nat} (some_ : spc ≠ 0) (member : step ∈ ntfsClrSteps env spc p) :
    step.Sound := by
  rw [ntfsClrSteps] at member
  split at member
  · rw [List.mem_singleton.mp member]
    exact some_
  · cases member

/-- The count of a Linux file system divides where there are bitmaps only. -/
theorem extClrSteps_sound {spc : Nat} (member : step ∈ extClrSteps env spc p) : step.Sound := by
  rw [extClrSteps] at member
  dsimp only at member
  split at member
  · obtain ⟨passes, which⟩ := clrLoopSteps_divide member
    have sectors : wholeBlocks (u32 (spc * SECTOR_SIZE)) p.blocksPerGroup ≠ 0 := by
      intro none_
      refine passes ?_
      rw [none_, bitmapsize_zero]
      rfl
    rcases which with rfl | rfl
    · intro none_
      change spc = 0 at none_
      refine sectors (wholeBlocks_zero (Or.inl ?_))
      rw [none_, Nat.zero_mul]
      rfl
    · exact fun none_ => sectors (wholeBlocks_zero (Or.inr none_))
  · cases member

/-! ### Which branch of the probe is taken -/

instance (buffer : Image) : Decidable (SaneBlock buffer) :=
  inferInstanceAs (Decidable (_ ∧ _ ∧ _ ∧ _ ∧ _))

/-- A parameter block that makes no sense leaves the type to the superblock. -/
theorem checkedType_eq (type : Nat) : checkedType buffer type
    = if SaneBlock buffer then
        if type = PARTITION_UNUSED ∧ sMagic buffer = 0xEF53 then PARTITION_LINUX else type
      else if sMagic buffer = 0xEF53 then PARTITION_LINUX else PARTITION_UNUSED := by
  rw [checkedType]
  by_cases sane : SaneBlock buffer
  · obtain ⟨bytes, whole, power, sectors, power'⟩ := sane
    -- A sane block passes all three tests.
    have first : ¬(secInByte buffer = 0 ∨ secInByte buffer &&& 0x1ff ≠ 0 ∨ secPerClr buffer = 0) := by
      rintro (none_ | part | none_)
      · exact bytes none_
      · exact part whole
      · exact sectors none_
    rw [if_neg (not_not.mpr power'), if_neg (not_not.mpr power), if_neg first]
    exact (if_pos ⟨bytes, whole, power, sectors, power'⟩).symm
  · -- One of the tests in a row fails, and what it leaves goes through the rest of them.
    have unused : (if secPerClr buffer &&& (secPerClr buffer - 1) ≠ 0 then PARTITION_UNUSED
        else if secInByte buffer &&& (secInByte buffer - 1) ≠ 0 then PARTITION_UNUSED
        else if secInByte buffer = 0 ∨ secInByte buffer &&& 0x1ff ≠ 0 ∨ secPerClr buffer = 0 then
          PARTITION_UNUSED
        else type) = PARTITION_UNUSED := by
      split
      · rfl
      · next power' =>
        split
        · rfl
        · next power =>
          rw [if_pos]
          by_contra other
          push Not at other
          exact sane ⟨other.1, other.2.1, not_not.mp power, other.2.2, not_not.mp power'⟩
    rw [unused, if_neg sane]
    by_cases magic : sMagic buffer = 0xEF53
    · rw [if_pos ⟨rfl, magic⟩, if_pos magic]
    · rw [if_neg fun both => magic both.2, if_neg magic]

/-- The guess is never a Linux file system, and never nothing. -/
theorem guessedType_known (type : Nat) :
    guessedType buffer type ≠ PARTITION_LINUX ∧ guessedType buffer type ≠ PARTITION_UNUSED := by
  rw [guessedType]
  split
  · split
    · split <;> decide
    · split <;> decide
  · next known =>
    constructor
    · rintro rfl
      exact known (by decide)
    · rintro rfl
      exact known (by decide)

/-- The branch of NTFS is taken behind a parameter block that makes sense. -/
theorem announcedType_ntfs : announcedType buffer p = NTFS ↔ SaneBlock buffer ∧ NamesNtfs buffer p := by
  rw [announcedType, NamesNtfs, checkedType_eq]
  generalize namedType buffer _ = named
  obtain ⟨-, some_⟩ := @guessedType_known buffer named
  by_cases sane : SaneBlock buffer
  · rw [if_pos sane, if_neg fun both => some_ both.1]
    exact (and_iff_right sane).symm
  · rw [if_neg sane]
    refine iff_of_false ?_ fun both => sane both.1
    split <;> decide

/-- The branch of the Linux file systems is taken behind one that makes none. -/
theorem announcedType_linux :
    announcedType buffer p = PARTITION_LINUX ↔ ¬ SaneBlock buffer ∧ sMagic buffer = 0xEF53 := by
  rw [announcedType, checkedType_eq]
  generalize namedType buffer _ = named
  obtain ⟨other, some_⟩ := @guessedType_known buffer named
  by_cases sane : SaneBlock buffer
  · rw [if_pos sane, if_neg fun both => some_ both.1]
    exact iff_of_false other fun both => both.1 sane
  · rw [if_neg sane]
    by_cases magic : sMagic buffer = 0xEF53
    · rw [if_pos magic]
      exact iff_of_true rfl ⟨sane, magic⟩
    · rw [if_neg magic]
      exact iff_of_false (by decide) fun both => magic both.2

/-! ### The branches -/

/-- In the NTFS branch the record size decides. -/
theorem ntfsSteps_sound (sane : SaneBlock buffer) :
    (∀ step ∈ ntfsSteps buffer, step.Sound) ↔ SoundRecordSize buffer := by
  have size : ntTotalSectors buffer < 2 ^ 64 := le64_lt buffer 40
  have most : clustersPerFileRecord buffer < 2 ^ 32 := le32_lt buffer 64
  rw [ntfsSteps, SoundRecordSize]
  by_cases shifts : clustersPerFileRecord buffer > 0x80
  · have count : u32 (2 ^ 32 + 0x100 - clustersPerFileRecord buffer) < 32
        ↔ 0xE1 ≤ clustersPerFileRecord buffer ∧ clustersPerFileRecord buffer ≤ 0x100 := by
      rw [u32]
      omega
    simp only [if_pos shifts, List.mem_cons, List.not_mem_nil, or_false, forall_eq_or_imp, forall_eq,
      NumericStep.Sound, size, true_and, count, sane.1, ne_eq, not_false_eq_true, and_true]
    omega
  · simp only [if_neg shifts, List.mem_cons, List.not_mem_nil, or_false, forall_eq, NumericStep.Sound, size]
    exact iff_of_true trivial (Or.inl (Nat.le_of_not_lt shifts))

/-- A shift by less than the width gives a power of two, which fits in a byte up to 128. -/
theorem shiftOne_byte (count : Nat) : count < 32 ∧ shiftOne count < 2 ^ 8 ↔ count ≤ 7 := by
  constructor
  · rintro ⟨width, byte⟩
    rw [shiftOne, Nat.mod_eq_of_lt width] at byte
    exact Nat.le_of_lt_succ ((Nat.pow_lt_pow_iff_right (by decide)).mp byte)
  · intro small
    have width : count < 32 := by omega
    refine ⟨width, ?_⟩
    rw [shiftOne, Nat.mod_eq_of_lt width]
    exact Nat.pow_lt_pow_right (by decide) (by omega)

/-- In the branch of the Linux file systems the superblock decides. -/
theorem extSteps_sound : (∀ step ∈ extSteps buffer, step.Sound) ↔ SoundSuperblock buffer := by
  have blocks : sBlocksCount buffer < 2 ^ 32 := le32_lt buffer _
  have groups : sBlocksPerGroup buffer < 2 ^ 32 := le32_lt buffer _
  have total : sBlocksCount buffer * shiftOne (u32 (sLogBlockSize buffer + 1)) < 2 ^ 64 := by
    have one : shiftOne (u32 (sLogBlockSize buffer + 1)) ≤ 2 ^ 31 :=
      Nat.pow_le_pow_right (by decide) (Nat.le_of_lt_succ (Nat.mod_lt _ (by decide)))
    calc sBlocksCount buffer * shiftOne (u32 (sLogBlockSize buffer + 1))
        ≤ 2 ^ 32 * 2 ^ 31 := Nat.mul_le_mul (Nat.le_of_lt blocks) one
      _ < 2 ^ 64 := by decide
  rw [extSteps, SoundSuperblock, ← shiftOne_byte]
  simp only [List.mem_cons, List.not_mem_nil, or_false, forall_eq_or_imp, forall_eq, NumericStep.Sound,
    total, groups, true_and, and_assoc]

/-- A record whose boot sector has neither signature is left alone. -/
theorem checkPartitionType_none :
    checkPartitionType buffer p = none ↔ le16 buffer 0x1fe ≠ 0xaa55 ∧ sMagic buffer ≠ 0xEF53 := by
  rw [checkPartitionType]
  split
  · next neither => exact iff_of_true rfl neither
  · next some_ => exact iff_of_false (Option.some_ne_none _) some_

/-- The probe computes soundly exactly when the branch it takes finds sound sizes. -/
theorem probeSteps_sound {bGetFreeClr : Bool} :
    (∀ step ∈ probeSteps env bGetFreeClr buffer p, step.Sound) ↔ SoundGeometry buffer p := by
  rw [probeSteps, SoundGeometry, ← @checkPartitionType_none buffer p]
  cases result : checkPartitionType buffer p with
  | none => exact iff_of_true (fun step member => nomatch member) (Or.inl rfl)
  | some p' =>
    have byte : NumericStep.Sound (.store (secPerClr buffer) 8) := (buffer 13).toNat_lt
    have total : NumericStep.Sound (.store (bigTotalSec buffer) 64) :=
      Nat.lt_of_lt_of_le (le32_lt buffer 32) (by decide)
    dsimp only
    rw [List.forall_mem_cons, and_iff_right byte, or_iff_right (Option.some_ne_none p')]
    by_cases ntfs : announcedType buffer p = NTFS
    · -- The NTFS branch; the other one is not taken.
      obtain ⟨sane, names⟩ := announcedType_ntfs.mp ntfs
      have free : ∀ step ∈ (if bGetFreeClr then ntfsClrSteps env (secPerClr buffer) p' else []),
          step.Sound := by
        intro step member
        split at member
        · exact ntfsClrSteps_sound sane.2.2.2.1 member
        · cases member
      rw [if_pos ntfs, List.forall_mem_append, and_iff_left free, ntfsSteps_sound sane]
      exact ⟨fun sound => ⟨fun _ _ => sound, fun other => absurd sane other⟩, fun both => both.1 sane names⟩
    by_cases linux : announcedType buffer p = PARTITION_LINUX
    · obtain ⟨senseless, magic⟩ := announcedType_linux.mp linux
      have free : ∀ step ∈ (if bGetFreeClr then
          extClrSteps env (shiftOne (u32 (sLogBlockSize buffer + 1))) p' else []), step.Sound := by
        intro step member
        split at member
        · exact extClrSteps_sound member
        · cases member
      have apart : announcedType buffer p ≠ FAT32 ∧ announcedType buffer p ≠ FAT16 := by
        rw [linux]
        decide
      rw [if_neg ntfs, if_neg apart.1, if_neg apart.2, if_pos linux, List.forall_mem_append,
        and_iff_left free, extSteps_sound]
      exact ⟨fun sound => ⟨fun sane => absurd sane senseless, fun _ _ => sound⟩,
        fun both => both.2 senseless magic⟩
    · -- The other branches have nothing that could go wrong.
      rw [if_neg ntfs]
      refine iff_of_true ?_ ⟨fun sane names => absurd (announcedType_ntfs.mpr ⟨sane, names⟩) ntfs,
        fun senseless magic => absurd (announcedType_linux.mpr ⟨senseless, magic⟩) linux⟩
      intro step member
      rw [if_neg linux] at member
      split at member
      · rw [List.mem_singleton.mp member]
        exact total
      · split at member
        · split at member
          · cases member
          · rw [List.mem_singleton.mp member]
            exact total
        · cases member

/--
Probing a partition and scanning it computes soundly exactly when its boot sector has sound sizes.

It is the probe alone that decides: the scan divides by no zero, whatever it is given.
-/
theorem partitionSteps_sound_iff (env : ClrEnv) (bGetFreeClr : Bool) (buffer : Image) (p : PartitionInfo) :
    (∀ step ∈ partitionSteps env bGetFreeClr buffer p, step.Sound) ↔ SoundGeometry buffer p := by
  rw [partitionSteps, List.forall_mem_append, probeSteps_sound]
  exact and_iff_left fun step member => scanSteps_sound member

/-- A superblock with its magic number in front of nothing but zeros. -/
def emptySuperblock : Image := fun i =>
  if i = 1024 + 0x38 then 0x53 else if i = 1024 + 0x39 then 0xEF else 0

/-- The probe of the empty superblock divides by its blocks per group, which are none. -/
theorem partitionSteps_emptySuperblock :
    ¬ ∀ (env : ClrEnv) (bGetFreeClr : Bool) (buffer : Image) (p : PartitionInfo),
        ∀ step ∈ partitionSteps env bGetFreeClr buffer p, step.Sound := by
  intro sound
  let env : ClrEnv := { fuel := 0, disk := fun _ => 0, memory := {}, allocated := false }
  have member : NumericStep.divide 0 ∈ partitionSteps env false emptySuperblock {} := by decide
  exact sound env false emptySuperblock {} _ member rfl

end Okr
