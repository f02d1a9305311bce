import Okr.Restore.VolumeDirty

/-! When the dirty flag is entered in the flags of the volume, and nothing else is changed. -/

namespace Okr

/-! ### The flags of a volume -/

/--
The place of a byte of the record in its sectors.

The last word of a sector is kept in the update sequence array.
-/
def onSectors (record : Image) (x : Nat) : Nat :=
  if x % 512 ≥ 510 ∧ x / 512 + 1 < usaCount record then
    usaOffset record + 2 * (x / 512 + 1) + (x % 512 - 510)
  else x

/-- The record as it is meant, with the last words put back. -/
def meant (record : Image) : Image := fun x => record (onSectors record x)

/-- An attribute has its header in the record, and those before it lead to it. -/
inductive AttributeAt (record : Image) : Nat → Prop where
  | first : AttributeAt record (attributesOffset record)
  | next {attr : Nat} : AttributeAt record attr → attr + 8 ≤ VOLUME_RECORD →
    le32 record attr ≠ attributeEnd → AttributeAt record (attr + le32 record (attr + 4))

/-- Where the flags are in the value of `$VOLUME_INFORMATION`. -/
def flagsAt (record : Image) (attr : Nat) : Nat := attr + le16 record (attr + 0x14) + 10

/-- A resident attribute of type 0x70 whose flags lie in the record. -/
structure VolumeInformation (record : Image) (attr : Nat) : Prop where
  reached : AttributeAt record attr
  header : attr + 0x16 ≤ VOLUME_RECORD
  type : le32 record attr = 0x70
  resident : record (attr + 8) = 0
  inside : flagsAt record attr + 2 ≤ VOLUME_RECORD

/-- The bytes of the sectors that hold the flags of the volume. -/
def InFlags (record : Image) (b : Nat) : Prop :=
  ∃ attr, VolumeInformation (meant record) attr
    ∧ (b = onSectors record (flagsAt (meant record) attr)
      ∨ b = onSectors record (flagsAt (meant record) attr + 1))

/-- With an array in the first sector, that is the record `FixupInode` makes of the two sectors. -/
theorem fixupInode_meant {record : Image} (words : usaCount record = 3)
    (array : usaOffset record + 6 ≤ 510) :
    ∃ fixed, fixupInode record 2 = some fixed ∧ ∀ x < VOLUME_RECORD, fixed x = meant record x := by
  -- The first word that is stored does not move the array.
  have offset : usaOffset (copyWord record 510 (usaOffset record + 2)) = usaOffset record := by
    apply le16_congr
    intro a below
    rw [copyWord, if_neg (by omega), if_neg (by omega)]
  refine ⟨fixupLoop 2 1 record, by rw [fixupInode, words]; rfl, fun x below => ?_⟩
  have loop : fixupLoop 2 1 record
      = copyWord (copyWord record 510 (usaOffset record + 2)) 1022 (usaOffset record + 4) := by
    rw [fixupLoop, fixupLoop, fixupLoop, offset]
  rw [loop, meant, onSectors, words]
  simp only [VOLUME_RECORD] at below
  simp only [copyWord]
  by_cases first : x = 510 ∨ x = 511
  · rcases first with first | first <;> simp [first]
  · by_cases second : x = 1022 ∨ x = 1023
    · rcases second with second | second
      · subst second
        simp only [if_true]
        rw [if_neg (by omega), if_neg (by omega), if_pos (by omega)]
      · subst second
        simp only [if_true]
        rw [if_neg (by omega), if_neg (by omega), if_neg (by omega), if_pos (by omega)]
    · rw [if_neg (by omega), if_neg (by omega), if_neg (by omega), if_neg (by omega), if_neg (by omega)]

/-! ### What the function touches -/

/-- The accesses of the loop in so many passes: a byte of the type, and the length to go on. -/
def dirtyWalkAccesses (record : Image) : Nat → Nat → List (Nat × Nat)
  | 0, _ => []
  | passes + 1, i =>
    if i < VOLUME_RECORD then
      (i, 1) ::
        if char (record i) = 0x70 ∨ char (record i) = 0xFF ∨ char (record i) = 0 then []
        else (i + 4, 4) :: dirtyWalkAccesses record passes (u32 (i + le32 record (i + 4)))
    else []

/-- The accesses behind the loop: the type once more, the offset of the value, and the two bytes. -/
def enterAccesses (record : Image) (i : Nat) : List (Nat × Nat) :=
  (i, 1) ::
    if char (record i) ≠ 0x70 then []
    else [(i % 2 ^ 16 + 0x14, 2), (runlistStart record i + 8 + 1 + 1, 1),
      (runlistStart record i + 8 + 1 + 1 + 1, 1)]

/-- The accesses to the record in so many passes. -/
def dirtyAccesses (passes : Nat) (record : Image) : List (Nat × Nat) :=
  (0, 4) ::
    if ¬isFileRecord record then []
    else
      (0x14, 2) :: (dirtyWalkAccesses record passes (le16 record 0x14)
        ++ ((dirtyWalk record passes (le16 record 0x14)).map (enterAccesses record)).getD [])

/-- The record the function reads, if the volume is one of NTFS. -/
def volumeRecord (heap disk : Image) (sectoroff : Nat) : Option Image :=
  let buffer := diskRead disk sectoroff 1 fun _ => 0
  if ¬isNtfsVolume buffer then none
  else some (diskRead disk (volumeRecordSector buffer sectoroff) 2 heap)

/-- The flag is entered, and nothing but the flags of the volume is changed. -/
structure Surgical (heap disk : Image) (sectoroff : Nat) : Prop where
  ends : ∃ fuel, setNTFSVolDirty fuel heap disk sectoroff ≠ none
  inside : ∀ record, volumeRecord heap disk sectoroff = some record →
    ∀ passes, ∀ a ∈ dirtyAccesses passes record, a.1 + a.2 ≤ VOLUME_RECORD
  flags : ∀ record, volumeRecord heap disk sectoroff = some record →
    ∀ fuel write, setNTFSVolDirty fuel heap disk sectoroff = some (some write) →
      ∀ b < VOLUME_RECORD, ¬InFlags record b → write.buffer b = record b
  unwritten : ∀ record, volumeRecord heap disk sectoroff = some record →
    (∀ attr, ¬VolumeInformation (meant record) attr) →
    ∀ fuel write, setNTFSVolDirty fuel heap disk sectoroff ≠ some (some write)

/-! ### When that is so -/

/-- The loop comes from one index to another, at which it stops inside the record. -/
inductive WalksTo (record : Image) : Nat → Nat → Prop where
  | here {i : Nat} : i < VOLUME_RECORD → record i = 0x70 ∨ record i = 0 → WalksTo record i i
  | more {i stop : Nat} : i + 8 ≤ VOLUME_RECORD → record i ≠ 0x70 → record i ≠ 0 →
    WalksTo record (u32 (i + le32 record (i + 4))) stop → WalksTo record i stop

/-- The two bytes behind an index are in the record, and hold the flags or what is entered already. -/
structure FlagsFit (record : Image) (i : Nat) : Prop where
  offset : i + 0x16 ≤ VOLUME_RECORD
  value : runlistStart record i + 12 ≤ VOLUME_RECORD
  exists_ : ∃ attr, VolumeInformation (meant record) attr
  low : InFlags record (runlistStart record i + 10) ∨ record (runlistStart record i + 10) = 0x01
  high : InFlags record (runlistStart record i + 11) ∨ record (runlistStart record i + 11) = 0x0f

/--
A record in which the flag is entered as it should be.

The bytes with the types lead to one that is 0, or to one that is 0x70 and belongs to the attribute.
-/
def DirtyFits (record : Image) : Prop :=
  isFileRecord record = true →
    ∃ i, WalksTo record (le16 record 0x14) i ∧ (record i = 0x70 → FlagsFit record i)

variable {record : Image} {i stop fuel : Nat}

/-- The type bytes of the loop, compared as signed ones: 0xFF stops at no byte. -/
theorem stops_iff (b : Byte) :
    (char b = 0x70 ∨ char b = 0xFF ∨ char b = 0) ↔ b = 0x70 ∨ b = 0 := by
  have value : ∀ n : Nat, n < 256 → (char8 n = 0x70 ∨ char8 n = 0xFF ∨ char8 n = 0 ↔ n = 0x70 ∨ n = 0) := by
    intro n below
    unfold char8
    omega
  have same : ∀ n : Byte, b = n ↔ b.toNat = n.toNat := fun n => UInt8.toNat_inj.symm
  rw [char, value _ (UInt8.toNat_lt b), same, same]
  rfl

/-- The attribute is found where the byte is 0x70. -/
theorem char_type (b : Byte) : char b = 0x70 ↔ b = 0x70 := by
  have value : ∀ n : Nat, n < 256 → (char8 n = 0x70 ↔ n = 0x70) := by
    intro n below
    unfold char8
    omega
  rw [char, value _ (UInt8.toNat_lt b), ← UInt8.toNat_inj]
  rfl

/-- A loop that ends inside the record, and reads inside it, has walked there. -/
theorem walksTo_of_run (stops : dirtyWalk record fuel i = some stop) (inside : stop < VOLUME_RECORD)
    (reads : ∀ a ∈ dirtyWalkAccesses record fuel i, a.1 + a.2 ≤ VOLUME_RECORD) :
    WalksTo record i stop := by
  -- A pass either stops or reads the length and goes on.
  induction fuel generalizing i with
  | zero => cases stops
  | succ fuel ih =>
    simp only [dirtyWalk, stops_iff] at stops
    simp only [dirtyWalkAccesses, stops_iff] at reads
    by_cases within : i < VOLUME_RECORD
    · rw [if_pos within] at stops reads
      by_cases last : record i = 0x70 ∨ record i = 0
      · rw [if_pos last] at stops
        cases stops
        exact .here within last
      · rw [if_neg last] at stops reads
        have length : i + 4 + 4 ≤ VOLUME_RECORD :=
          reads (i + 4, 4) (List.mem_cons_of_mem _ (List.mem_cons_self ..))
        rw [not_or] at last
        refine .more length last.1 last.2 (ih stops fun a member => ?_)
        exact reads a (List.mem_cons_of_mem _ (List.mem_cons_of_mem _ member))
    · rw [if_neg within] at stops
      cases stops
      exact absurd inside within

/-- A pass at another type goes on by the length. -/
theorem dirtyWalk_goes (within : i + 8 ≤ VOLUME_RECORD) (other : record i ≠ 0x70) (some_ : record i ≠ 0)
    (fuel : Nat) :
    dirtyWalk record (fuel + 1) i = dirtyWalk record fuel (u32 (i + le32 record (i + 4)))
      ∧ dirtyWalkAccesses record (fuel + 1) i
        = (i, 1) :: (i + 4, 4) :: dirtyWalkAccesses record fuel (u32 (i + le32 record (i + 4))) := by
  have inside : i < VOLUME_RECORD := by omega
  have goes : ¬(record i = 0x70 ∨ record i = 0) := not_or.mpr ⟨other, some_⟩
  simp only [dirtyWalk, dirtyWalkAccesses, stops_iff, if_pos inside, if_neg goes, and_self]

/-- The loop takes that walk, if it may take as many passes. -/
theorem WalksTo.run (walks : WalksTo record i stop) : ∃ fuel, dirtyWalk record fuel i = some stop := by
  induction walks with
  | here within last =>
    refine ⟨1, ?_⟩
    simp only [dirtyWalk, stops_iff, if_pos within, if_pos last]
  | more within other some_ _ ih =>
    obtain ⟨fuel, stops⟩ := ih
    exact ⟨fuel + 1, (dirtyWalk_goes within other some_ fuel).1.trans stops⟩

/-- It leads to an index of the record. -/
theorem WalksTo.inside (walks : WalksTo record i stop) : stop < VOLUME_RECORD := by
  induction walks with
  | here within _ => exact within
  | more _ _ _ _ ih => exact ih

/-- It stops nowhere else. -/
theorem WalksTo.only (walks : WalksTo record i stop) (fuel : Nat) {j : Nat}
    (stops : dirtyWalk record fuel i = some j) : j = stop := by
  -- A run stops where the walk does, and takes its steps before.
  induction walks generalizing fuel with
  | @here i within last =>
    cases fuel with
    | zero => cases stops
    | succ fuel =>
      simp only [dirtyWalk, stops_iff, if_pos within, if_pos last] at stops
      exact (Option.some.inj stops).symm
  | more within other some_ _ ih =>
    cases fuel with
    | zero => cases stops
    | succ fuel =>
      rw [(dirtyWalk_goes within other some_ fuel).1] at stops
      exact ih fuel stops

/-- It reads inside the record, in however many passes. -/
theorem WalksTo.reads (walks : WalksTo record i stop) (passes : Nat) :
    ∀ a ∈ dirtyWalkAccesses record passes i, a.1 + a.2 ≤ VOLUME_RECORD := by
  -- Each pass reads a type and a length that the walk has inside the record.
  induction walks generalizing passes with
  | @here i within last =>
    cases passes with
    | zero => simp [dirtyWalkAccesses]
    | succ passes =>
      simp only [dirtyWalkAccesses, stops_iff, if_pos within, if_pos last]
      intro a member
      rw [List.mem_singleton.mp member]
      exact within
  | @more i stop within other some_ _ ih =>
    cases passes with
    | zero => simp [dirtyWalkAccesses]
    | succ passes =>
      rw [(dirtyWalk_goes within other some_ passes).2]
      intro a member
      rcases List.mem_cons.mp member with type | member
      · rw [type]
        show i + 1 ≤ VOLUME_RECORD
        omega
      · rcases List.mem_cons.mp member with length | later
        · rw [length]
          exact within
        · exact ih passes a later

/-- What the function does with the record of an NTFS volume. -/
theorem setNTFSVolDirty_record {heap disk : Image} {sectoroff : Nat}
    (read : volumeRecord heap disk sectoroff = some record) :
    ∃ sector, ∀ fuel, setNTFSVolDirty fuel heap disk sectoroff =
      if ¬isFileRecord record then some none
      else (dirtyWalk record fuel (le16 record 0x14)).map fun i =>
        (enterDirty record i).map fun written => { sector := sector, count := 2, buffer := written } := by
  -- The check for NTFS was made when the record was read.
  simp only [volumeRecord] at read
  split at read
  · cases read
  · next ntfs =>
    cases read
    refine ⟨volumeRecordSector (diskRead disk sectoroff 1 fun _ => 0) sectoroff, fun fuel => ?_⟩
    rw [setNTFSVolDirty]
    dsimp only
    rw [if_neg ntfs]

/-- On another volume it does nothing. -/
theorem setNTFSVolDirty_other {heap disk : Image} {sectoroff : Nat}
    (none_ : volumeRecord heap disk sectoroff = none) (fuel : Nat) :
    setNTFSVolDirty fuel heap disk sectoroff = some none := by
  simp only [volumeRecord] at none_
  split at none_
  · next other =>
    rw [setNTFSVolDirty]
    dsimp only
    rw [if_pos other]
  · cases none_

/-- What is entered: two bytes of the value. -/
theorem enterDirty_bytes (type : record i = 0x70) :
    ∃ written, enterDirty record i = some written
      ∧ written (runlistStart record i + 10) = 0x01 ∧ written (runlistStart record i + 11) = 0x0f
      ∧ ∀ b, b ≠ runlistStart record i + 10 → b ≠ runlistStart record i + 11 → written b = record b := by
  -- The second byte that is put does not touch the first one.
  refine ⟨_, by rw [enterDirty, if_neg (not_not.mpr ((char_type _).mpr type))], ?_, ?_, fun b low high => ?_⟩
  · show putBytes (putBytes record (runlistStart record i + 10) [0x01]) (runlistStart record i + 11) [0x0f]
      (runlistStart record i + 10) = 0x01
    rw [putBytes_other (by simp only [List.length_singleton]; omega)]
    simp [putBytes]
  · show putBytes (putBytes record (runlistStart record i + 10) [0x01]) (runlistStart record i + 11) [0x0f]
      (runlistStart record i + 11) = 0x0f
    simp [putBytes]
  · show putBytes (putBytes record (runlistStart record i + 10) [0x01]) (runlistStart record i + 11) [0x0f] b
      = record b
    rw [putBytes_other (by simp only [List.length_singleton]; omega),
      putBytes_other (by simp only [List.length_singleton]; omega)]

/-- Nothing is entered at another type. -/
theorem enterDirty_none (other : record i ≠ 0x70) : enterDirty record i = none := by
  rw [enterDirty, if_pos fun type => other ((char_type _).mp type)]

/-- The accesses behind a loop that stops inside the record. -/
theorem enterAccesses_iff (within : i < VOLUME_RECORD) :
    (∀ a ∈ enterAccesses record i, a.1 + a.2 ≤ VOLUME_RECORD) ↔
      (record i = 0x70 → i + 0x16 ≤ VOLUME_RECORD ∧ runlistStart record i + 12 ≤ VOLUME_RECORD) := by
  have short : i % 2 ^ 16 = i := Nat.mod_eq_of_lt (Nat.lt_trans within (by decide))
  -- The value is looked at only where the attribute is found.
  by_cases type : record i = 0x70
  · have found : ¬char (record i) ≠ 0x70 := not_not.mpr ((char_type _).mpr type)
    rw [enterAccesses, if_neg found, short]
    simp only [List.forall_mem_cons]
    constructor
    · rintro ⟨-, offset, -, high, -⟩ -
      exact ⟨offset, high⟩
    · intro fits
      obtain ⟨offset, high⟩ := fits type
      exact ⟨within, offset, by omega, high, fun a none_ => absurd none_ List.not_mem_nil⟩
  · have missed : char (record i) ≠ 0x70 := fun found => type ((char_type _).mp found)
    rw [enterAccesses, if_pos missed]
    refine ⟨fun _ found => absurd found type, fun _ a only => ?_⟩
    rw [List.mem_singleton.mp only]
    exact within

/-- The accesses of a run that ends are those of the loop and those behind it. -/
theorem dirtyAccesses_run (file : isFileRecord record = true)
    (stops : dirtyWalk record fuel (le16 record 0x14) = some i) :
    dirtyAccesses fuel record = (0, 4) :: (0x14, 2) ::
      (dirtyWalkAccesses record fuel (le16 record 0x14) ++ enterAccesses record i) := by
  rw [dirtyAccesses, if_neg (not_not.mpr file), stops, Option.map_some, Option.getD_some]

/-- A record is entered as it should be exactly when the loop leads to the flags. -/
theorem dirty_fits_of_surgical {heap disk : Image} {sectoroff : Nat}
    (read : volumeRecord heap disk sectoroff = some record) (surgical : Surgical heap disk sectoroff) :
    DirtyFits record := by
  intro file
  obtain ⟨sector, result⟩ := setNTFSVolDirty_record read
  -- The run that ends tells where the loop has stopped.
  obtain ⟨fuel, ends⟩ := surgical.ends
  rw [result, if_neg (not_not.mpr file)] at ends
  cases stops : dirtyWalk record fuel (le16 record 0x14) with
  | none => exact absurd (by rw [stops]; rfl) ends
  | some i =>
    have inside := surgical.inside record read fuel
    rw [dirtyAccesses_run file stops] at inside
    have touched : ∀ a, a ∈ dirtyWalkAccesses record fuel (le16 record 0x14) ++ enterAccesses record i →
        a.1 + a.2 ≤ VOLUME_RECORD :=
      fun a member => inside a (List.mem_cons_of_mem _ (List.mem_cons_of_mem _ member))
    have within : i < VOLUME_RECORD :=
      touched (i, 1) (List.mem_append_right _ (List.mem_cons_self ..))
    refine ⟨i, walksTo_of_run stops within fun a member => touched a (List.mem_append_left _ member), ?_⟩
    -- Where the attribute is found, the two bytes are written.
    intro type
    obtain ⟨offset, value⟩ := (enterAccesses_iff within).mp
      (fun a member => touched a (List.mem_append_right _ member)) type
    obtain ⟨written, entered, low, high, -⟩ := enterDirty_bytes type
    have writes : setNTFSVolDirty fuel heap disk sectoroff
        = some (some { sector := sector, count := 2, buffer := written }) := by
      rw [result, if_neg (not_not.mpr file), stops, Option.map_some, entered, Option.map_some]
    have kept := surgical.flags record read fuel _ writes
    refine ⟨offset, value, ?_, ?_, ?_⟩
    · by_contra none_
      exact surgical.unwritten record read (not_exists.mp none_) fuel _ writes
    · by_contra neither
      rw [not_or] at neither
      exact neither.2 ((kept _ (by omega) neither.1).symm.trans low)
    · by_contra neither
      rw [not_or] at neither
      exact neither.2 ((kept _ (by omega) neither.1).symm.trans high)

/-- Every write comes from the index to which the walk leads, and there the attribute is found. -/
theorem WalksTo.written {heap disk : Image} {sectoroff : Nat} {write : SectorWrite}
    (file : isFileRecord record = true) (read : volumeRecord heap disk sectoroff = some record)
    (walks : WalksTo record (le16 record 0x14) i)
    (writes : setNTFSVolDirty fuel heap disk sectoroff = some (some write)) :
    enterDirty record i = some write.buffer ∧ record i = 0x70 := by
  obtain ⟨sector, result⟩ := setNTFSVolDirty_record read
  have entered : enterDirty record i = some write.buffer := by
    rw [result, if_neg (not_not.mpr file)] at writes
    -- the walk stops at no other index, whatever its fuel
    cases stops : dirtyWalk record fuel (le16 record 0x14) with
    | none =>
      rw [stops] at writes
      cases writes
    | some j =>
      rw [walks.only fuel stops] at stops
      rw [stops, Option.map_some] at writes
      cases buffer : enterDirty record i with
      | none =>
        rw [buffer] at writes
        cases writes
      | some buffer' =>
        rw [buffer] at writes
        cases writes
        rfl
  refine ⟨entered, ?_⟩
  -- at any other kind of attribute nothing is written
  by_contra other
  rw [enterDirty_none other] at entered
  cases entered

/-- The accesses of every run are inside the record where the walk and those behind it are. -/
theorem WalksTo.accesses (file : isFileRecord record = true) (walks : WalksTo record (le16 record 0x14) i)
    (entered : ∀ a ∈ enterAccesses record i, a.1 + a.2 ≤ VOLUME_RECORD) (passes : Nat) :
    ∀ a ∈ dirtyAccesses passes record, a.1 + a.2 ≤ VOLUME_RECORD := by
  intro a member
  rw [dirtyAccesses, if_neg (not_not.mpr file), List.mem_cons, List.mem_cons, List.mem_append] at member
  rcases member with magic | start | loop | behind
  · rw [magic]
    decide
  · rw [start]
    decide
  · exact walks.reads passes a loop
  · cases stops : dirtyWalk record passes (le16 record 0x14) with
    | none =>
      rw [stops] at behind
      cases behind
    | some j =>
      rw [walks.only passes stops] at stops
      rw [stops] at behind
      exact entered a behind

/-- A record that is no file record is left alone at once. -/
theorem surgical_other {heap disk : Image} {sectoroff : Nat}
    (read : volumeRecord heap disk sectoroff = some record) (other : ¬ isFileRecord record = true) :
    Surgical heap disk sectoroff := by
  obtain ⟨sector, result⟩ := setNTFSVolDirty_record read
  have nothing : ∀ fuel, setNTFSVolDirty fuel heap disk sectoroff = some none := by
    intro fuel
    rw [result, if_pos other]
  constructor
  · exact ⟨0, by rw [nothing]; exact Option.some_ne_none _⟩
  · intro record' read' passes a member
    cases read.symm.trans read'
    rw [dirtyAccesses, if_pos other] at member
    rw [List.mem_singleton.mp member]
    decide
  · intro record' read' fuel write writes
    rw [nothing] at writes
    cases writes
  · intro record' read' none_ fuel write writes
    rw [nothing] at writes
    cases writes

/-- With a walk that leads to the flags, all that is asked for holds. -/
theorem surgical_of_dirty_fits {heap disk : Image} {sectoroff : Nat}
    (read : volumeRecord heap disk sectoroff = some record) (fits : DirtyFits record) :
    Surgical heap disk sectoroff := by
  by_cases file : isFileRecord record = true
  · obtain ⟨i, walks, found⟩ := fits file
    constructor
    · obtain ⟨sector, result⟩ := setNTFSVolDirty_record read
      obtain ⟨fuel, stops⟩ := walks.run
      refine ⟨fuel, ?_⟩
      rw [result, if_neg (not_not.mpr file), stops, Option.map_some]
      exact Option.some_ne_none _
    · intro record' read' passes
      cases read.symm.trans read'
      exact walks.accesses file ((enterAccesses_iff walks.inside).mpr
        fun type => ⟨(found type).offset, (found type).value⟩) passes
    · intro record' read' fuel write writes b below outside
      cases read.symm.trans read'
      obtain ⟨buffer, type⟩ := walks.written file read writes
      have flags := found type
      -- Only the two bytes of the flags are written, and what is written there fits.
      obtain ⟨entry, made, low, high, rest⟩ := enterDirty_bytes type
      rw [buffer] at made
      cases made
      by_cases first : b = runlistStart record i + 10
      · rw [first] at outside ⊢
        exact low.trans (flags.low.resolve_left outside).symm
      · by_cases second : b = runlistStart record i + 11
        · rw [second] at outside ⊢
          exact high.trans (flags.high.resolve_left outside).symm
        · exact rest b first second
    · intro record' read' none_ fuel write writes
      cases read.symm.trans read'
      obtain ⟨attr, exists_⟩ := (found (walks.written file read writes).2).exists_
      exact none_ attr exists_
  · exact surgical_other read file

/-- The flag is entered as it should be exactly in a record that leads to it. -/
theorem setNTFSVolDirty_surgical_iff (heap disk : Image) (sectoroff : Nat) :
    Surgical heap disk sectoroff ↔
      ∀ record, volumeRecord heap disk sectoroff = some record → DirtyFits record := by
  cases read : volumeRecord heap disk sectoroff with
  | none =>
    refine iff_of_true ?_ fun record some_ => nomatch some_
    have nothing := setNTFSVolDirty_other read
    refine ⟨⟨0, by rw [nothing]; exact Option.some_ne_none _⟩, fun record some_ => ?_, fun record some_ => ?_,
      fun record some_ => ?_⟩
    all_goals
      rw [read] at some_
      cases some_
  | some record =>
    constructor
    · rintro surgical record' same
      cases same
      exact dirty_fits_of_surgical read surgical
    · intro fits
      exact surgical_of_dirty_fits read (fits record rfl)

/-- A volume whose `$Volume` record has no attributes, and no number behind the mark that ends them. -/
def bareVolume : Image :=
  let disk := put 8 (putBytes (fun _ => 0) 3 [0x4e, 0x54, 0x46, 0x53]) 0x30 1
  let disk := put 2 (putBytes disk (14 * 512) [0x46, 0x49, 0x4c, 0x45]) (14 * 512 + 0x14) 56
  put 4 disk (14 * 512 + 56) attributeEnd

/-- The loop does not stop at the mark, and goes on to it again and again. -/
theorem setNTFSVolDirty_hangs :
    ¬∀ (heap disk : Image) (sectoroff : Nat), Surgical heap disk sectoroff := by
  intro always
  obtain ⟨fuel, ends⟩ := (always (fun _ => 0) bareVolume 0).ends
  obtain ⟨record, read, file, start, mark, length⟩ : ∃ record,
      volumeRecord (fun _ => 0) bareVolume 0 = some record ∧ isFileRecord record = true
        ∧ le16 record 0x14 = 56 ∧ record 56 = 0xFF ∧ le32 record (56 + 4) = 0 := by
    refine ⟨diskRead bareVolume 14 2 (fun _ => 0), ?_, by decide +kernel, by decide +kernel,
      by decide +kernel, by decide +kernel⟩
    have ntfs : isNtfsVolume (diskRead bareVolume 0 1 fun _ => 0) = true := by decide +kernel
    have place : volumeRecordSector (diskRead bareVolume 0 1 fun _ => 0) 0 = 14 := by decide +kernel
    simp only [volumeRecord, ntfs, place, not_true, if_false]
  have stays : ∀ fuel, dirtyWalk record fuel 56 = none := by
    intro fuel
    induction fuel with
    | zero => rfl
    | succ fuel ih =>
      have inside : 56 < VOLUME_RECORD := by decide
      have goes : ¬((0xFF : Byte) = 0x70 ∨ (0xFF : Byte) = 0) := by decide
      simp only [dirtyWalk, stops_iff, if_pos inside, mark, if_neg goes, length]
      exact ih
  obtain ⟨sector, result⟩ := setNTFSVolDirty_record read
  rw [result, if_neg (not_not.mpr file), start, stays] at ends
  exact ends rfl

end Okr
