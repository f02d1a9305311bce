import Mathlib.Tactic.IntervalCases
import Okr.Proofs.Serials
import Okr.Restore.SerialSlots

/-! When `FindNewHdd` follows only pointers it has set, and that the record is written inside the memo. -/

namespace Okr

variable {buffer : Image}

/-! ### The reads of one disk -/

/-- A comparison looks at its own entry only. -/
theorem compareEntry_congr {T T' : Nat → Serial} {i : Nat} (same : T i = T' i) (disk : DiskInfo)
    (m : Marking) : compareEntry T disk m i = compareEntry T' disk m i := by
  simp only [compareEntry, same]

/-- A filled slot is the entry the pointer leads to. -/
theorem temphddsnOf_filled (stray : Nat → Serial) {i : Nat} (filled : SlotFilled buffer i) :
    temphddsnOf stray buffer i = serialAt buffer (12 + 20 * i) := by
  rw [temphddsnOf, if_pos ⟨filled.1, filled.2.1⟩]

/-- The entries of a disk are compared when all of them are filled; otherwise a read goes astray. -/
theorem readEntries_eq (stray : Nat → Serial) (disk : DiskInfo) (slots : List Nat) :
    ∀ m, slots.foldlM (readEntry buffer disk) m
      = if ∀ i ∈ slots, SlotFilled buffer i then
          some (slots.foldl (compareEntry (temphddsnOf stray buffer) disk) m)
        else none := by
  -- The induction is on the slots still to come; the first unfilled one ends the run.
  induction slots with
  | nil => exact fun m => (if_pos (by simp)).symm
  | cons i rest ih =>
    intro m
    rw [List.foldlM_cons, List.foldl_cons]
    by_cases filled : SlotFilled buffer i
    · have entry : readEntry buffer disk m i
          = some (compareEntry (temphddsnOf stray buffer) disk m i) := by
        rw [readEntry, derefHddsn, if_pos filled, Option.map_some]
        exact congrArg some (compareEntry_congr (temphddsnOf_filled stray filled).symm disk m)
      rw [entry]
      show rest.foldlM _ _ = _
      rw [ih]
      simp only [List.forall_mem_cons, filled, true_and]
    · have entry : readEntry buffer disk m i = none := by
        rw [readEntry, derefHddsn, if_neg filled, Option.map_none]
      rw [entry, if_neg fun all => filled (all i List.mem_cons_self)]
      rfl

/-- All entries the count announces are filled when it is six at most. -/
theorem allFilled_iff :
    (∀ i ∈ List.range (diskcountOf buffer), SlotFilled buffer i)
      ↔ diskcountOf buffer ≤ MAX_SUPPORED_HDD_NO := by
  constructor
  · intro filled
    by_contra more
    have last := filled MAX_SUPPORED_HDD_NO (List.mem_range.mpr (by omega))
    exact absurd last.2.1 (Nat.lt_irrefl _)
  · intro few i member
    have below := List.mem_range.mp member
    refine ⟨below, by omega, ?_⟩
    simp only [MAX_SUPPORED_HDD_NO, RECORD_BYTES] at few ⊢
    omega

/-- A disk that is compared needs all entries, another one none. -/
theorem readMarkOf_eq (stray : Nat → Serial) (disk : DiskInfo) :
    readMarkOf buffer disk
      = if disk.Present → diskcountOf buffer ≤ MAX_SUPPORED_HDD_NO then
          some (markOf (temphddsnOf stray buffer) (diskcountOf buffer) disk)
        else none := by
  have skipped : (disk.totalsector = 0 ∨ checkIfSnZero disk.disksn = true) ↔ ¬disk.Present := by
    rw [checkIfSnZero_iff, DiskInfo.Present, not_and_or, not_not, not_not]
  rw [readMarkOf, markOf]
  by_cases present : disk.Present
  · rw [if_neg fun skip => skipped.mp skip present, if_neg fun skip => skipped.mp skip present,
      readEntries_eq stray]
    by_cases few : diskcountOf buffer ≤ MAX_SUPPORED_HDD_NO
    · rw [if_pos (allFilled_iff.mpr few), if_pos fun _ => few]
      rfl
    · rw [if_neg fun all => few (allFilled_iff.mp all), if_neg fun all => few (all present)]
      rfl
  · rw [if_pos (skipped.mpr present), if_pos (skipped.mpr present),
      if_pos fun there => absurd there present]

/-! ### The reads of all disks -/

/-- The marks are found when the disks that are compared find all their entries. -/
theorem readMarks_eq (stray : Nat → Serial) (disks : List DiskInfo) :
    readMarks buffer disks
      = if ∀ disk ∈ disks, disk.Present → diskcountOf buffer ≤ MAX_SUPPORED_HDD_NO then
          some (disks.map (markOf (temphddsnOf stray buffer) (diskcountOf buffer)))
        else none := by
  induction disks with
  | nil => exact (if_pos (by simp)).symm
  | cons disk rest ih =>
    rw [readMarks, readMarkOf_eq stray, ih]
    by_cases first : disk.Present → diskcountOf buffer ≤ MAX_SUPPORED_HDD_NO
    · rw [if_pos first]
      dsimp only
      by_cases others : ∀ disk ∈ rest, disk.Present → diskcountOf buffer ≤ MAX_SUPPORED_HDD_NO
      · rw [if_pos others, if_pos (List.forall_mem_cons.mpr ⟨first, others⟩)]
        rfl
      · rw [if_neg others, if_neg fun all => others (List.forall_mem_cons.mp all).2]
        rfl
    · rw [if_neg first, if_neg fun all => first (List.forall_mem_cons.mp all).1]

/-- The count of a record is right for these disks: some entry, and six at most where one is compared. -/
def CountFits (buffer : Image) (disks : List DiskInfo) : Prop :=
  0 < diskcountOf buffer
    ∧ (diskcountOf buffer ≤ MAX_SUPPORED_HDD_NO ∨ ∀ disk ∈ disks, ¬disk.Present)

instance (buffer : Image) (disks : List DiskInfo) : Decidable (CountFits buffer disks) :=
  inferInstanceAs (Decidable (_ ∧ (_ ∨ _)))

/-- The marks are found when the count is six at most, or no disk is compared. -/
theorem marksFound_iff (disks : List DiskInfo) :
    (∀ disk ∈ disks, disk.Present → diskcountOf buffer ≤ MAX_SUPPORED_HDD_NO)
      ↔ diskcountOf buffer ≤ MAX_SUPPORED_HDD_NO ∨ ∀ disk ∈ disks, ¬disk.Present := by
  constructor
  · intro all
    by_cases few : diskcountOf buffer ≤ MAX_SUPPORED_HDD_NO
    · exact Or.inl few
    · exact Or.inr fun disk member present => few (all disk member present)
  · intro either disk member present
    cases either with
    | inl few => exact few
    | inr absent => exact absurd present (absent disk member)

/-- The first entry is read when it is there. -/
theorem derefHddsn_first (stray : Nat → Serial) :
    derefHddsn buffer 0
      = if 0 < diskcountOf buffer then some (temphddsnOf stray buffer 0) else none := by
  rw [derefHddsn]
  by_cases some_ : 0 < diskcountOf buffer
  · have filled : SlotFilled buffer 0 := ⟨some_, by decide, by decide⟩
    rw [if_pos filled, if_pos some_, temphddsnOf_filled stray filled]
  · rw [if_neg fun filled => some_ filled.1, if_neg some_]

/-- A run that reads in bounds finds what the function finds, whatever lies behind other pointers. -/
theorem readNewHdd_eq (stray : Nat → Serial) (version : Nat) (buffer : Image) (g : Globals) :
    readNewHdd version buffer g
      = if RecordUsed version buffer → CountFits buffer g.disklist then
          some (findNewHdd stray version buffer g)
        else none := by
  unfold readNewHdd findNewHdd
  dsimp only
  -- the four tests before the record is used, in their order; only then does the count matter
  by_cases sameVersion : version = OKR_VERSION
  · rw [if_neg (not_not.mpr sameVersion), if_neg (not_not.mpr sameVersion)]
    by_cases marked : buffer 0 ≠ 0x44 ∨ buffer 1 ≠ 0x53 ∨ buffer 2 ≠ 0x4E
    · rw [if_pos marked, if_pos marked, if_pos]
      intro used
      obtain ⟨-, first, second, third, -⟩ := used
      rcases marked with bad | bad | bad
      · exact absurd first bad
      · exact absurd second bad
      · exact absurd third bad
    · rw [if_neg marked, if_neg marked]
      by_cases size : le64 buffer 4 = 0
      · rw [if_pos size, if_pos size, if_pos fun used => absurd size used.2.2.2.2]
      · have used : RecordUsed version buffer := by
          simp only [ne_eq, not_or, not_not] at marked
          exact ⟨sameVersion, marked.1, marked.2.1, marked.2.2, size⟩
        rw [if_neg size, if_neg size, derefHddsn_first stray]
        by_cases some_ : 0 < diskcountOf buffer
        · rw [if_pos some_]
          dsimp only
          rw [readMarks_eq stray]
          by_cases found : ∀ disk ∈ g.disklist, disk.Present → diskcountOf buffer ≤ MAX_SUPPORED_HDD_NO
          · rw [if_pos found, if_pos fun _ => ⟨some_, (marksFound_iff _).mp found⟩, Option.map_some,
              List.zipWith_map_right, List.zipWith_self, List.any_map]
            rfl
          · have bad : ¬(RecordUsed version buffer → CountFits buffer g.disklist) :=
              fun fits => found ((marksFound_iff _).mpr (fits used).2)
            rw [if_neg found, if_neg bad, Option.map_none]
        · have bad : ¬(RecordUsed version buffer → CountFits buffer g.disklist) :=
            fun fits => some_ (fits used).1
          rw [if_neg some_, if_neg bad]
  · rw [if_pos sameVersion, if_pos sameVersion, if_pos fun used => absurd used.1 sameVersion]

/-! ### The record a machine writes -/

/-- One disk is stored behind the first entry and inside the memo, while there is room. -/
theorem addHddSn_outside {writer : Globals} {backupDiskNumber : Option Nat} {s : SnBuffer} {i : Nat}
    (few : s.totaldisknum ≤ 5) :
    (addHddSn writer backupDiskNumber s i).totaldisknum ≤ 5
      ∧ ∀ a, a < 32 ∨ RECORD_BYTES ≤ a →
        (addHddSn writer backupDiskNumber s i).buffer a = s.buffer a := by
  unfold addHddSn
  split
  case isTrue stored =>
    have room : s.totaldisknum < 5 := stored.2.1
    refine ⟨room, fun a outside => putSerial_other ?_⟩
    rw [RECORD_BYTES] at outside
    omega
  case isFalse => exact ⟨few, fun a _ => rfl⟩

/-- So do all of them, one after the other. -/
theorem addHddSn_fold_outside {writer : Globals} {backupDiskNumber : Option Nat}
    (slots : List Nat) {s : SnBuffer} (few : s.totaldisknum ≤ 5) {a : Nat}
    (outside : a < 32 ∨ RECORD_BYTES ≤ a) :
    (slots.foldl (addHddSn writer backupDiskNumber) s).buffer a = s.buffer a := by
  induction slots generalizing s with
  | nil => rfl
  | cons i slots ih =>
    -- The first slot leaves the byte, and room for the others as before.
    obtain ⟨later, kept⟩ := @addHddSn_outside writer backupDiskNumber s i few
    rw [List.foldl_cons, ih later, kept a outside]

variable {writer : Globals} {backupDiskNumber : Option Nat} {memo : Image} {size : Nat}

/-- `AddAllHddSn` writes inside the memo. -/
theorem addAllHddSn_behind {a : Nat} (behind : RECORD_BYTES ≤ a) :
    addAllHddSn writer backupDiskNumber memo a = memo a := by
  have far : 140 ≤ a := behind
  simp only [addAllHddSn]
  rw [addHddSn_fold_outside _ (Nat.zero_le 5) (Or.inr behind)]
  have front : ∀ bytes : Bytes, bytes.length = 4 → putBytes memo 0 bytes a = memo a :=
    fun bytes four => putBytes_other (Or.inr (by omega))
  split
  case h_1 b =>
    split
    · exact (putSerial_other (Or.inr (by omega))).trans (front _ rfl)
    · exact front _ rfl
  case h_2 => exact front _ rfl

/-- The mark and the count stand in front of all entries. -/
theorem addAllHddSn_front {a : Nat} (front : a < 4) :
    addAllHddSn writer backupDiskNumber memo a
      = putBytes memo 0 [0x44, 0x53, 0x4E, UInt8.ofNat (announced writer)] a := by
  simp only [addAllHddSn]
  rw [addHddSn_fold_outside _ (Nat.zero_le 5) (Or.inl (by omega))]
  split
  case h_1 b =>
    split
    · exact putSerial_other (Or.inl (by omega))
    · rfl
  case h_2 => rfl

/-- The count of a record that was written is the one announced. -/
theorem diskcountOf_written :
    diskcountOf (updatepartcsize (addAllHddSn writer backupDiskNumber memo) size)
      = announced writer := by
  have few := announced_le writer
  have byte : updatepartcsize (addAllHddSn writer backupDiskNumber memo) size 3
      = UInt8.ofNat (announced writer) := by
    rw [updatepartcsize, put_other (Or.inl (by decide)), addAllHddSn_front (by decide)]
    rfl
  have value : (UInt8.ofNat (announced writer)).toNat = announced writer :=
    UInt8.toNat_ofNat_of_lt' (Nat.lt_of_le_of_lt few (by decide))
  rw [diskcountOf, byte, value, char8_eq (by omega) (by omega), Int.toNat_natCast]

/-- Of a size 64 bits are stored. -/
theorem put_u64 (m : Image) (i v : Nat) : put 8 m i v = put 8 m i (u64 v) := by
  funext a
  unfold put u64
  split
  case isFalse => rfl
  case isTrue inside =>
    have low : v / 256 ^ (a - i) % 256 = v % 2 ^ 64 / 256 ^ (a - i) % 256 := by
      have place : a - i < 8 := by omega
      generalize a - i = k at place
      interval_cases k <;> omega
    exact UInt8.toNat_inj.mp (by simpa using low)

/-- A record that was written is looked at when a size is recorded. -/
theorem recordUsed_written {version : Nat} :
    RecordUsed version (updatepartcsize (addAllHddSn writer backupDiskNumber memo) size)
      ↔ version = OKR_VERSION ∧ u64 size ≠ 0 := by
  have front : ∀ a < 4, updatepartcsize (addAllHddSn writer backupDiskNumber memo) size a
      = putBytes memo 0 [0x44, 0x53, 0x4E, UInt8.ofNat (announced writer)] a := by
    intro a below
    rw [updatepartcsize, put_other (Or.inl (by omega)), addAllHddSn_front below]
  have word : le64 (updatepartcsize (addAllHddSn writer backupDiskNumber memo) size) 4
      = u64 size := by
    rw [updatepartcsize, put_u64]
    exact le64_put (Nat.mod_lt _ (by decide))
  have letters := And.intro (front 0 (by decide)) (And.intro (front 1 (by decide)) (front 2 (by decide)))
  rw [RecordUsed, word, letters.1, letters.2.1, letters.2.2]
  exact ⟨fun used => ⟨used.1, used.2.2.2.2⟩, fun used => ⟨used.1, rfl, rfl, rfl, used.2⟩⟩

/-- Some disk of the machine shows a byte of its serial number where `AddAllHddSn` looks. -/
def AnyShown (writer : Globals) : Prop :=
  ∃ i < MAX_DISK_NUM, sampled (writer.disk i).disksn = true

instance (writer : Globals) : Decidable (AnyShown writer) :=
  inferInstanceAs (Decidable (∃ i < MAX_DISK_NUM, _))

/-- The count of a record is not zero exactly when a disk was shown, and is never above six. -/
theorem countFits_written (disks : List DiskInfo) :
    CountFits (updatepartcsize (addAllHddSn writer backupDiskNumber memo) size) disks
      ↔ AnyShown writer := by
  have few : announced writer ≤ MAX_SUPPORED_HDD_NO := announced_le writer
  rw [CountFits, diskcountOf_written, and_iff_left (Or.inl few), announced, Nat.lt_min,
    List.countP_pos_iff]
  constructor
  · rintro ⟨⟨i, inside, shown⟩, -⟩
    exact ⟨i, List.mem_range.mp inside, shown⟩
  · rintro ⟨i, inside, shown⟩
    exact ⟨⟨i, List.mem_range.mpr inside, shown⟩, by decide⟩

/--
`FindNewHdd` follows only pointers it has set, into the memo, exactly if the count is right.

The count of a record that was written is right exactly if some disk showed its serial number.
`AddAllHddSn` itself leaves everything behind the memo as it was.
-/
theorem readNewHdd_inside_iff (version : Nat) (g : Globals) :
    (∀ buffer, (readNewHdd version buffer g).isSome
      ↔ (RecordUsed version buffer → CountFits buffer g.disklist))
    ∧ ∀ (writer : Globals) (backupDiskNumber : Option Nat) (memo : Image),
      (∀ size, (readNewHdd version
          (updatepartcsize (addAllHddSn writer backupDiskNumber memo) size) g).isSome
        ↔ (version = OKR_VERSION ∧ u64 size ≠ 0 → AnyShown writer))
      ∧ ∀ a, RECORD_BYTES ≤ a → addAllHddSn writer backupDiskNumber memo a = memo a := by
  have exact_ : ∀ buffer, (readNewHdd version buffer g).isSome
      ↔ (RecordUsed version buffer → CountFits buffer g.disklist) := by
    intro buffer
    rw [readNewHdd_eq fun _ => Serial.zero]
    split
    case isTrue fits => exact iff_of_true rfl fits
    case isFalse bad => exact iff_of_false Bool.false_ne_true bad
  refine ⟨exact_, fun writer backupDiskNumber memo => ⟨fun size => ?_, ?_⟩⟩
  · rw [exact_, recordUsed_written, countFits_written]
  · exact fun a behind => addAllHddSn_behind behind

/-- The record of a machine that reports no serial numbers announces none, and the first is read. -/
theorem readNewHdd_follows_null :
    ¬ ∀ (version : Nat) (buffer : Image) (g : Globals), (readNewHdd version buffer g).isSome := by
  intro all
  have read := all OKR_VERSION 
    (updatepartcsize (addAllHddSn { disklist := [] } none fun _ => 0) 1) { disklist := [] }
  revert read
  decide

end Okr
