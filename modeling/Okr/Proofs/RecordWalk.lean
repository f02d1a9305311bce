import Okr.Base.Memory
import Okr.Scan.Ntfs

/-! What the functions that walk an NTFS file record touch, and when the walk ends inside it. -/

namespace Okr

/-- An access: the address in the record, and the bytes from there on. -/
abbrev RecordAccess := Nat × Nat

/-- The bytes of an access are all in a record of that size. -/
def RecordAccess.Within (size : Nat) (a : RecordAccess) : Prop := a.1 + a.2 ≤ size

/-- The unit in which a caller of `FixupInode` passes the size of the record. -/
inductive InodeUnit where
  /-- `GetBitmapFileRecordSector`. -/
  | bytes
  /-- All other callers. -/
  | sectors
deriving DecidableEq, Repr

/-- The size passed for a record of so many sectors. -/
def InodeUnit.inodeSize (unit : InodeUnit) (recordsize : Nat) : Nat :=
  match unit with
  | .bytes => recordsize * SECTOR_SIZE
  | .sectors => recordsize

/-- What `FixupInode` reads and writes: two fields, then a word of the array and one of each sector. -/
def fixupAccesses (record : Image) (inodeSize : Nat) : List RecordAccess :=
  (4, 2) :: (6, 2) ::
    if usaCount record > inodeSize + 1 ∨ usaCount record = 0 then []
    else (List.range (usaCount record - 1)).flatMap fun i =>
      [(usaOffset record + 2 * (i + 1), 2), (510 + 512 * i, 2)]

/-- What the loop of `FindAttribute` reads in so many passes: the type, and the length to go on. -/
def findAttributeReads (record : Image) (attrType : Nat) : Nat → Nat → List RecordAccess
  | 0, _ => []
  | passes + 1, attr =>
    (attr, 4) ::
      if le32 record attr = attributeEnd then []
      else if le32 record attr = attrType then []
      else (attr + 4, 4) :: findAttributeReads record attrType passes (attr + le32 record (attr + 4))

/-- A record of so many sectors is walked safely. -/
structure WalkSafe (unit : InodeUnit) (recordsize : Nat) (record : Image) (attrType : Nat) : Prop where
  fixup : ∀ a ∈ fixupAccesses record (unit.inodeSize recordsize), a.Within (recordsize * SECTOR_SIZE)
  start : RecordAccess.Within (recordsize * SECTOR_SIZE) (20, 2)
  reads : ∀ passes, ∀ a ∈ findAttributeReads record attrType passes (attributesOffset record),
    a.Within (recordsize * SECTOR_SIZE)
  ends : ∃ fuel, findAttribute fuel record attrType ≠ none

/-- The attributes from an address on: their headers lie in the record, up to the last one looked at. -/
inductive Attributes (record : Image) (size attrType : Nat) : Nat → Prop where
  | last {attr : Nat} : attr + 4 ≤ size →
    le32 record attr = attributeEnd ∨ le32 record attr = attrType → Attributes record size attrType attr
  | more {attr : Nat} : attr + 8 ≤ size → le32 record attr ≠ attributeEnd → le32 record attr ≠ attrType →
    0 < le32 record (attr + 4) →
    Attributes record size attrType (attr + le32 record (attr + 4)) → Attributes record size attrType attr

/-- The update sequence array lies in the record and has a word for each of some of its sectors. -/
def UsaFits (recordsize : Nat) (record : Image) : Prop :=
  usaOffset record + 2 * usaCount record ≤ recordsize * SECTOR_SIZE ∧ usaCount record ≤ recordsize + 1

/--
A record that is walked safely.

An array of one word or none is not used, nor is one with more words than the unit lets pass.
-/
structure WellFormedRecord (unit : InodeUnit) (recordsize : Nat) (record : Image) (attrType : Nat) :
    Prop where
  some_ : 0 < recordsize
  usa : usaCount record ≤ 1 ∨ unit.inodeSize recordsize + 1 < usaCount record ∨ UsaFits recordsize record
  attributes : Attributes record (recordsize * SECTOR_SIZE) attrType (attributesOffset record)

variable {record : Image} {size attrType attr recordsize : Nat} {unit : InodeUnit}

/-- The walk over well-formed attributes reads inside the record. -/
theorem Attributes.reads (attributes : Attributes record size attrType attr) (passes : Nat) :
    ∀ a ∈ findAttributeReads record attrType passes attr, a.Within size := by
  -- Each pass reads the header of one attribute, the last one its type only.
  induction attributes generalizing passes with
  | @last attr inside stops =>
    cases passes with
    | zero => simp [findAttributeReads]
    | succ passes =>
      rcases stops with ended | found
      · simp [findAttributeReads, ended, RecordAccess.Within, inside]
      · simp [findAttributeReads, found, RecordAccess.Within, inside]
  | @more attr inside open_ other _ _ ih =>
    cases passes with
    | zero => simp [findAttributeReads]
    | succ passes =>
      rw [findAttributeReads, if_neg open_, if_neg other]
      intro a member
      rcases List.mem_cons.mp member with type | member
      · rw [type, RecordAccess.Within]
        omega
      · rcases List.mem_cons.mp member with length | later
        · rw [length, RecordAccess.Within]
          omega
        · exact ih passes a later

/-- The walk over well-formed attributes ends. -/
theorem Attributes.ends (attributes : Attributes record size attrType attr) :
    ∃ fuel, findAttributeLoop record attrType fuel attr ≠ none := by
  -- It takes one pass for each attribute.
  induction attributes with
  | last inside stops =>
    refine ⟨1, ?_⟩
    rw [findAttributeLoop]
    rcases stops with ended | found
    · simp [ended]
    · split <;> simp
  | more inside open_ other _ _ ih =>
    obtain ⟨fuel, ends⟩ := ih
    refine ⟨fuel + 1, ?_⟩
    rw [findAttributeLoop, if_neg open_, if_neg other]
    exact ends

/-- A length of zero leads back to the same attribute for ever. -/
theorem findAttributeLoop_stays (open_ : le32 record attr ≠ attributeEnd)
    (other : le32 record attr ≠ attrType) (zero : le32 record (attr + 4) = 0) (fuel : Nat) :
    findAttributeLoop record attrType fuel attr = none := by
  induction fuel with
  | zero => rfl
  | succ fuel ih => rw [findAttributeLoop, if_neg open_, if_neg other, zero, Nat.add_zero, ih]

/-- A walk that ends and reads inside the record is one over well-formed attributes. -/
theorem attributes_of_walk (fuel : Nat) (ends : findAttributeLoop record attrType fuel attr ≠ none)
    (reads : ∀ a ∈ findAttributeReads record attrType fuel attr, a.Within size) :
    Attributes record size attrType attr := by
  -- Every pass either is the last one or goes on behind an attribute that has a length.
  induction fuel generalizing attr with
  | zero => exact absurd rfl ends
  | succ fuel ih =>
    rw [findAttributeReads] at reads
    have type : attr + 4 ≤ size := reads (attr, 4) (List.mem_cons_self ..)
    by_cases ended : le32 record attr = attributeEnd
    · exact .last type (Or.inl ended)
    by_cases found : le32 record attr = attrType
    · exact .last type (Or.inr found)
    rw [if_neg ended, if_neg found] at reads
    have length : attr + 4 + 4 ≤ size :=
      reads (attr + 4, 4) (List.mem_cons_of_mem _ (List.mem_cons_self ..))
    have positive : 0 < le32 record (attr + 4) := by
      apply Nat.pos_of_ne_zero
      intro zero
      exact ends (findAttributeLoop_stays ended found zero (fuel + 1))
    rw [findAttributeLoop, if_neg ended, if_neg found] at ends
    refine .more length ended found positive (ih ends fun a member => ?_)
    exact reads a (List.mem_cons_of_mem _ (List.mem_cons_of_mem _ member))

/-- The fields that lead the functions lie in the first sector. -/
theorem recordHeader_within : RecordAccess.Within (recordsize * SECTOR_SIZE) (20, 2) ↔ 0 < recordsize := by
  simp only [RecordAccess.Within, SECTOR_SIZE]
  omega

/-- The fixups stay in the record if the array is not used, or lies in it with no word too many. -/
theorem fixup_within_iff (some_ : 0 < recordsize) :
    (∀ a ∈ fixupAccesses record (unit.inodeSize recordsize), a.Within (recordsize * SECTOR_SIZE)) ↔
      usaCount record ≤ 1 ∨ unit.inodeSize recordsize + 1 < usaCount record
        ∨ UsaFits recordsize record := by
  have fields : 8 ≤ recordsize * SECTOR_SIZE := by
    simp only [SECTOR_SIZE]
    omega
  constructor
  · intro within
    by_cases unused : usaCount record ≤ 1
    · exact Or.inl unused
    by_cases refused : unit.inodeSize recordsize + 1 < usaCount record
    · exact Or.inr (Or.inl refused)
    -- The last word of the array and the last sector are the farthest accesses.
    have passes : ¬(usaCount record > unit.inodeSize recordsize + 1 ∨ usaCount record = 0) := by omega
    have all : ∀ a ∈ (List.range (usaCount record - 1)).flatMap fun i =>
        [(usaOffset record + 2 * (i + 1), 2), (510 + 512 * i, 2)],
        RecordAccess.Within (recordsize * SECTOR_SIZE) a := by
      intro a member
      apply within
      rw [fixupAccesses, if_neg passes]
      exact List.mem_cons_of_mem _ (List.mem_cons_of_mem _ member)
    have farthest : usaCount record - 2 ∈ List.range (usaCount record - 1) :=
      List.mem_range.mpr (by omega)
    have word := all (usaOffset record + 2 * (usaCount record - 2 + 1), 2)
      (List.mem_flatMap.mpr ⟨_, farthest, List.mem_cons_self ..⟩)
    have sector := all (510 + 512 * (usaCount record - 2), 2)
      (List.mem_flatMap.mpr ⟨_, farthest, List.mem_cons_of_mem _ (List.mem_singleton_self _)⟩)
    simp only [RecordAccess.Within, SECTOR_SIZE] at word sector
    refine Or.inr (Or.inr ⟨?_, ?_⟩)
    · rw [SECTOR_SIZE]
      omega
    · omega
  · intro fits a member
    rw [fixupAccesses, List.mem_cons, List.mem_cons] at member
    rcases member with offset | count | entry
    · rw [offset, RecordAccess.Within]
      omega
    · rw [count, RecordAccess.Within]
      omega
    · split at entry
      · cases entry
      · next passes =>
        obtain ⟨i, below, either⟩ := List.mem_flatMap.mp entry
        rw [List.mem_range] at below
        -- A word is stored, so the array is used.
        rcases fits with unused | refused | ⟨array, count⟩
        · omega
        · omega
        · simp only [List.mem_cons, List.not_mem_nil, or_false] at either
          simp only [SECTOR_SIZE] at array ⊢
          rcases either with word | sector
          · rw [word, RecordAccess.Within]
            omega
          · rw [sector, RecordAccess.Within]
            omega

/-- A record is walked safely exactly when its array and its attributes are well formed. -/
theorem recordWalk_safe_iff (unit : InodeUnit) (recordsize : Nat) (record : Image) (attrType : Nat) :
    WalkSafe unit recordsize record attrType ↔ WellFormedRecord unit recordsize record attrType := by
  constructor
  · intro safe
    have some_ := recordHeader_within.mp safe.start
    obtain ⟨fuel, ends⟩ := safe.ends
    exact ⟨some_, (fixup_within_iff some_).mp safe.fixup, attributes_of_walk fuel ends (safe.reads fuel)⟩
  · intro wf
    exact ⟨(fixup_within_iff wf.some_).mpr wf.usa, recordHeader_within.mpr wf.some_, wf.attributes.reads,
      wf.attributes.ends⟩

/-- A record of two sectors whose first attribute has no length. -/
def lengthless : Image :=
  put 4 (put 2 (put 2 (put 2 (fun _ => 0) 4 48) 6 3) 20 56) 56 0x10

/-- The search for its data attribute never ends. -/
theorem recordWalk_hangs :
    ¬∀ (unit : InodeUnit) (recordsize : Nat) (record : Image) (attrType : Nat),
      WalkSafe unit recordsize record attrType := by
  intro always
  obtain ⟨fuel, ends⟩ := (always .sectors 2 lengthless AttributeData).ends
  have first : attributesOffset lengthless = 56 := by decide
  rw [findAttribute, first] at ends
  exact ends (findAttributeLoop_stays (by decide) (by decide) (by decide) fuel)

end Okr
