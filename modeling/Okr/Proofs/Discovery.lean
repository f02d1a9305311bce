import Okr.Discovery.Partitions

/-! The scan of the partitions stays inside its table and its buffer unless a GPT does not fit. -/

namespace Okr

/-- The slot is in the table; the entry's fields are among the loaded bytes. -/
def Access.Inside : Access → Prop
  | .slot index => index < MAX_NUM_PARTITIONS
  | .entry address loaded => address + ENTRY_FIELDS ≤ loaded

/-- The table was never left, and no entry was read where no sector was loaded. -/
structure Discovery.Safe (s : Discovery) : Prop where
  total : s.total ≤ MAX_NUM_PARTITIONS
  accesses : ∀ a ∈ s.accesses, a.Inside

/-- A part of the scan adds to the count and to what was touched. -/
structure Grows (s s' : Discovery) : Prop where
  total : s.total ≤ s'.total
  accesses : ∀ a ∈ s.accesses, a ∈ s'.accesses

/-- A part of the scan that touches the table inside only. -/
structure Within (s s' : Discovery) : Prop extends Grows s s' where
  inside : ∀ a ∈ s'.accesses, a ∈ s.accesses ∨ a.Inside

/-- Nothing happened. -/
theorem Within.refl (s : Discovery) : Within s s :=
  ⟨⟨Nat.le_refl _, fun _ old => old⟩, fun _ old => Or.inl old⟩

/-- One part after the other. -/
theorem Grows.trans {a b c : Discovery} (first : Grows a b) (second : Grows b c) : Grows a c :=
  ⟨Nat.le_trans first.total second.total, fun x old => second.accesses x (first.accesses x old)⟩

/-- One part after the other. -/
theorem Within.trans {a b c : Discovery} (first : Within a b) (second : Within b c) : Within a c := by
  refine ⟨first.toGrows.trans second.toGrows, ?_⟩
  intro x new
  rcases second.inside x new with old | inside
  · exact first.inside x old
  · exact Or.inr inside

/-- What was unsafe stays unsafe. -/
theorem Grows.safe {s s' : Discovery} (grows : Grows s s') (safe : s'.Safe) : s.Safe :=
  ⟨Nat.le_trans grows.total safe.total, fun a old => safe.accesses a (grows.accesses a old)⟩

/-- What touches the table inside only, and leaves room, keeps the scan safe. -/
theorem Within.safe {s s' : Discovery} (within : Within s s') (safe : s.Safe)
    (room : s'.total ≤ MAX_NUM_PARTITIONS) : s'.Safe := by
  refine ⟨room, ?_⟩
  intro a new
  rcases within.inside a new with old | inside
  · exact safe.accesses a old
  · exact inside

variable {s : Discovery} {disk : ScanDisk} {diskNumber : Nat}

/-! ### The parts of a boot record -/

/-- A read touches neither the table nor the count. -/
theorem read_accesses (sector count at_ : Nat) :
    (s.read disk sector count at_).2.total = s.total
      ∧ (s.read disk sector count at_).2.accesses = s.accesses := by
  rw [Discovery.read]
  split <;> exact ⟨rfl, rfl⟩

/-- What `ParseMasterPartition` touches is the one slot, and it counts nothing. -/
structure OneSlot (index : Nat) (s s' : Discovery) : Prop where
  total : s'.total = s.total
  accesses : s'.accesses = s.accesses ∨ s'.accesses = .slot index :: s.accesses

/-- What writing a partition to its slot leaves, and whether it is kept. -/
structure Placed (disk : ScanDisk) (p : PartitionInfo) (index at_ : Nat) (s : Discovery)
    (result : Bool × Discovery) : Prop where
  kept : result.1 = (checkedPartitionType
    (fun a => (s.read disk p.bootBegin 4 at_).2.buffer (at_ + a)) p != PARTITION_UNUSED)
  buffer : result.2.buffer = (s.read disk p.bootBegin 4 at_).2.buffer
  total : result.2.total = s.total
  accesses : result.2.accesses = .slot index :: s.accesses

/-- The partition is written to its slot. -/
theorem placePartition_placed (p : PartitionInfo) (index at_ : Nat) :
    Placed disk p index at_ s (placePartition disk p index diskNumber at_ s) := by
  have read := @read_accesses s disk p.bootBegin 4 at_
  have accesses : (Access.slot index :: (s.read disk p.bootBegin 4 at_).2.accesses)
      = .slot index :: s.accesses := by rw [read.2]
  rw [placePartition]
  split
  · next unused => exact ⟨by simp [unused], rfl, read.1, accesses⟩
  · next used => exact ⟨by simp [used], rfl, read.1, accesses⟩

/-- The partition is written to its slot, or nothing is. -/
theorem parseMasterPartition_oneSlot (prt : Option Nat) (index begin totalSectors at_ : Nat) :
    OneSlot index s
      (parseMasterPartition disk prt index begin totalSectors diskNumber at_ s).2 := by
  cases prt with
  | none =>
    have place := @placePartition_placed s disk diskNumber
      (masterRecord (s.table index) s.buffer none begin totalSectors diskNumber) index at_
    exact ⟨place.total, Or.inr place.accesses⟩
  | some prt =>
    -- Looking at the entry touches nothing.
    have look : (isKnownEntry disk prt begin at_ s).2.total = s.total
        ∧ (isKnownEntry disk prt begin at_ s).2.accesses = s.accesses := by
      rw [isKnownEntry]
      split
      · exact ⟨rfl, rfl⟩
      · exact read_accesses _ _ _
    rw [parseMasterPartition]
    dsimp only
    split
    · have place := @placePartition_placed (isKnownEntry disk prt begin at_ s).2 disk diskNumber
        (masterRecord ((isKnownEntry disk prt begin at_ s).2.table index)
          (isKnownEntry disk prt begin at_ s).2.buffer (some prt) begin totalSectors diskNumber) index at_
      refine ⟨place.total.trans look.1, Or.inr ?_⟩
      rw [← look.2]
      exact place.accesses
    · exact ⟨look.1, Or.inl look.2⟩

/-- A slot of the table is touched inside. -/
theorem OneSlot.within {index : Nat} {s' : Discovery} (touched : OneSlot index s s')
    (inside : index < MAX_NUM_PARTITIONS) : Within s s' := by
  rcases touched.accesses with same | one
  · refine ⟨⟨Nat.le_of_eq touched.total.symm, fun a old => by rwa [same]⟩, fun a new => ?_⟩
    rw [same] at new
    exact Or.inl new
  · refine ⟨⟨Nat.le_of_eq touched.total.symm, fun a old => by rw [one]; exact List.mem_cons_of_mem _ old⟩,
      fun a new => ?_⟩
    rw [one, List.mem_cons] at new
    rcases new with rfl | old
    · exact Or.inr inside
    · exact Or.inl old

/-! ### The walk of the extended boot records -/

/-- How many partitions a walk from a slot on can find: the slots up to 32, or one. -/
def walkBound (index : Nat) : Nat := if index < 32 then 32 - index else 1

/-- What a walk from a slot on leaves. -/
structure Walked (index : Nat) (s : Discovery) (count : Nat) (s' : Discovery) : Prop where
  within : Within s s'
  total : s'.total = s.total
  bound : count ≤ walkBound index

/-- A walk that finds nothing and touches nothing. -/
theorem Walked.nothing (index : Nat) {s' : Discovery} (total : s'.total = s.total)
    (accesses : s'.accesses = s.accesses) : Walked index s 0 s' := by
  refine ⟨⟨⟨Nat.le_of_eq total.symm, fun a old => by rwa [accesses]⟩, fun a new => ?_⟩, total,
    Nat.zero_le _⟩
  rw [accesses] at new
  exact Or.inl new

/--
What holds in the loop over the entries of a record whose first slot is `first`.

While the loop goes on its slot is below 32, or no entry was looked at yet.
-/
structure Looping (first : Nat) (s : Discovery) (e : ExtendState) : Prop where
  within : Within s e.s
  total : e.s.total = s.total
  reached : first + e.partitionNumber ≤ e.partitionIndex
  bound : e.partitionNumber ≤ walkBound first

/-- What the loop leaves is what the walk leaves. -/
theorem Looping.walked {first : Nat} {e : ExtendState} (looping : Looping first s e) :
    Walked first s e.partitionNumber e.s :=
  ⟨looping.within, looping.total, looping.bound⟩

/-- One entry of a record, at a slot below 32 or at the first slot. -/
theorem extendEntry_looping {walk : Nat → Nat → Nat → Nat → Discovery → Nat × Discovery}
    (walks : ∀ prt index begin at_ s, index < MAX_NUM_PARTITIONS →
      Walked index s (walk prt index begin at_ s).1 (walk prt index begin at_ s).2)
    {first begin nextBegin at_ prt : Nat} {e : ExtendState} (valid : first < MAX_NUM_PARTITIONS)
    (looping : Looping first s e)
    (here : e.partitionIndex < 32 ∨ e.partitionNumber = 0 ∧ e.partitionIndex = first) :
    Looping first s (extendEntry walk disk begin nextBegin diskNumber at_ prt e) := by
  have sixtyFour : MAX_NUM_PARTITIONS = 64 := rfl
  have inside : e.partitionIndex < MAX_NUM_PARTITIONS := by
    rcases here with below | ⟨-, same⟩ <;> omega
  -- One more partition, or those of another walk, still fit.
  have fits : ∀ count, count ≤ walkBound e.partitionIndex →
      e.partitionNumber + count ≤ walkBound first := by
    intro count few
    have before := looping.reached
    rcases here with below | ⟨none, same⟩
    · rw [walkBound, if_pos below] at few
      rw [walkBound, if_pos (by omega)]
      omega
    · rw [none, Nat.zero_add, ← same]
      exact few
  have one : 1 ≤ walkBound e.partitionIndex := by
    unfold walkBound
    split <;> omega
  have before := looping.reached
  rw [extendEntry]
  dsimp only
  split
  · -- The entry leads to another boot record.
    have walked := walks prt e.partitionIndex begin (at_ + 512) e.s inside
    refine ⟨looping.within.trans walked.within, walked.total.trans looping.total, ?_, fits _ walked.bound⟩
    dsimp only
    omega
  · split
    · -- The entry is a partition, which is kept or not.
      have master := @parseMasterPartition_oneSlot e.s disk diskNumber (some prt) e.partitionIndex
        nextBegin (entryTotal e.s.buffer prt) (at_ + 512)
      have within := looping.within.trans (master.within inside)
      have total := master.total.trans looping.total
      split
      · next kept eq =>
        rw [eq] at within total
        exact ⟨within, total, by dsimp only; omega, fits 1 one⟩
      · next kept eq =>
        rw [eq] at within total
        exact ⟨within, total, before, looping.bound⟩
    · exact looping

/-- The loop over the entries. -/
theorem extendLoop_looping {walk : Nat → Nat → Nat → Nat → Discovery → Nat × Discovery}
    (walks : ∀ prt index begin at_ s, index < MAX_NUM_PARTITIONS →
      Walked index s (walk prt index begin at_ s).1 (walk prt index begin at_ s).2)
    {first begin nextBegin at_ : Nat} (valid : first < MAX_NUM_PARTITIONS) (prts : List Nat)
    {e : ExtendState} (looping : Looping first s e)
    (here : e.partitionIndex < 32 ∨ e.partitionNumber = 0 ∧ e.partitionIndex = first) :
    Looping first s (extendLoop walk disk begin nextBegin diskNumber at_ prts e) := by
  induction prts generalizing e with
  | nil => exact looping
  | cons prt prts ih =>
    have entry := @extendEntry_looping s disk diskNumber walk walks first begin nextBegin at_ prt e valid
      looping here
    rw [extendLoop]
    split
    · exact entry
    · next below => exact ih entry (Or.inl (Nat.lt_of_not_le below))

/-- The walk from an entry on: the induction is on the fuel, that is on the depth of the records. -/
theorem parseExtendPartition_walked (fuel : Nat) :
    ∀ prt index begin at_ s, index < MAX_NUM_PARTITIONS →
      Walked index s (parseExtendPartition disk diskNumber fuel prt index begin at_ s).1
        (parseExtendPartition disk diskNumber fuel prt index begin at_ s).2 := by
  induction fuel with
  | zero =>
    intro prt index begin at_ s valid
    exact Walked.nothing index rfl rfl
  | succ fuel ih =>
    intro prt index begin at_ s valid
    rw [parseExtendPartition]
    dsimp only
    split
    · exact Walked.nothing index rfl rfl
    · -- The record is read before anything else happens.
      have read := @read_accesses { s with recursiveTimes := s.recursiveTimes + 1 } disk
        (u32 (entryFront s.buffer prt + begin)) 1 at_
      split
      · next failed eq =>
        rw [eq] at read
        exact Walked.nothing index read.1 read.2
      · next loaded eq =>
        rw [eq] at read
        have same : Walked index s 0 loaded := Walked.nothing index read.1 read.2
        split
        · exact same
        · have start : Looping index s ⟨index, 0, loaded⟩ :=
            ⟨same.within, same.total, Nat.le_refl _, Nat.zero_le _⟩
          exact (extendLoop_looping ih valid _ start (Or.inr ⟨rfl, rfl⟩)).walked

/-! ### A disk with a boot record -/

/-- One entry of the boot record of a disk: there is room for what it leads to. -/
theorem mbrEntry_within (prt : Nat) (room : s.total < MAX_NUM_PARTITIONS) :
    Within s (mbrEntry disk diskNumber prt s)
      ∧ (mbrEntry disk diskNumber prt s).total ≤ MAX_NUM_PARTITIONS := by
  have sixtyFour : MAX_NUM_PARTITIONS = 64 := rfl
  rw [mbrEntry]
  dsimp only
  split
  · -- A walk from the last slot below 32 on ends there, and one from a later slot finds one.
    have walked := @parseExtendPartition_walked disk diskNumber 32 prt s.total 0 512 s room
    have bound := walked.bound
    have total := walked.total
    unfold walkBound at bound
    refine ⟨⟨⟨?_, walked.within.accesses⟩, walked.within.inside⟩, ?_⟩
    · dsimp only
      omega
    · dsimp only
      split at bound <;> omega
  · split
    · have master := @parseMasterPartition_oneSlot s disk diskNumber (some prt) s.total 0
        (entryTotal s.buffer prt) 512
      have within := master.within room
      have total := master.total
      split
      · next kept eq =>
        rw [eq] at within total
        dsimp only at total
        refine ⟨⟨⟨?_, within.accesses⟩, within.inside⟩, ?_⟩
        · dsimp only
          omega
        · dsimp only
          omega
      · next kept eq =>
        rw [eq] at within total
        dsimp only at total
        exact ⟨within, by omega⟩
    · exact ⟨Within.refl s, Nat.le_of_lt room⟩

/-- The boot record of a disk: the loop stops when the table is full. -/
theorem mbrLoop_within (prts : List Nat) (room : s.total < MAX_NUM_PARTITIONS) :
    Within s (mbrLoop disk diskNumber prts s)
      ∧ (mbrLoop disk diskNumber prts s).total ≤ MAX_NUM_PARTITIONS := by
  induction prts generalizing s with
  | nil => exact ⟨Within.refl s, Nat.le_of_lt room⟩
  | cons prt prts ih =>
    obtain ⟨within, total⟩ := @mbrEntry_within s disk diskNumber prt room
    rw [mbrLoop]
    split
    · exact ⟨within, total⟩
    · next below =>
      obtain ⟨rest, total'⟩ := ih (Nat.lt_of_not_le below)
      exact ⟨within.trans rest, total'⟩

/-! ### The order of the slots and the labels -/

/-- A loop keeps what each of its steps keeps. -/
theorem foldl_keeps {α β : Type} {keeps : β → β → Prop} (refl : ∀ b, keeps b b)
    (trans : ∀ {a b c}, keeps a b → keeps b c → keeps a c) {f : β → α → β} {items : List α}
    (step : ∀ b, ∀ x ∈ items, keeps b (f b x)) (b : β) : keeps b (items.foldl f b) := by
  induction items generalizing b with
  | nil => exact refl b
  | cons x items ih =>
    exact trans (step b x (by simp)) (ih (fun b y member => step b y (by simp [member])) (f b x))

/-- Slots below a bound are touched, and the count stays. -/
structure SlotsBelow (bound : Nat) (s s' : Discovery) : Prop where
  total : s'.total = s.total
  kept : ∀ a ∈ s.accesses, a ∈ s'.accesses
  slots : ∀ a ∈ s'.accesses, a ∈ s.accesses ∨ ∃ i < bound, a = .slot i

/-- One part after the other. -/
theorem SlotsBelow.trans {bound : Nat} {a b c : Discovery} (first : SlotsBelow bound a b)
    (second : SlotsBelow bound b c) : SlotsBelow bound a c := by
  refine ⟨second.total.trans first.total, fun x old => second.kept x (first.kept x old), ?_⟩
  intro x new
  rcases second.slots x new with old | slot
  · exact first.slots x old
  · exact Or.inr slot

/-- Nothing happened. -/
theorem SlotsBelow.refl (bound : Nat) (s : Discovery) : SlotsBelow bound s s :=
  ⟨rfl, fun _ old => old, fun _ old => Or.inl old⟩

/-- Touching slots below the count makes no scan unsafe, and none safe. -/
theorem SlotsBelow.safe_iff {s s' : Discovery} (below : SlotsBelow s.total s s') :
    s'.Safe ↔ s.Safe := by
  constructor
  · intro safe
    exact ⟨below.total ▸ safe.total, fun a old => safe.accesses a (below.kept a old)⟩
  · intro safe
    refine ⟨below.total ▸ safe.total, fun a new => ?_⟩
    rcases below.slots a new with old | ⟨i, inside, rfl⟩
    · exact safe.accesses a old
    · exact Nat.lt_of_lt_of_le inside safe.total

/-- Two slots below a bound are exchanged, or nothing happens. -/
theorem sortSlots_below {bound i j : Nat} (first : i < bound) (second : j < bound) :
    SlotsBelow bound s (sortSlots s i j) := by
  rw [sortSlots]
  split
  · refine ⟨rfl, fun a old => ?_, fun a new => ?_⟩
    · exact List.mem_cons_of_mem _ (List.mem_cons_of_mem _ old)
    · simp only [Discovery.write, List.mem_cons] at new
      rcases new with rfl | rfl | old
      · exact Or.inr ⟨j, second, rfl⟩
      · exact Or.inr ⟨i, first, rfl⟩
      · exact Or.inl old
  · exact SlotsBelow.refl bound s

/-- Sorting touches slots below the count. -/
theorem sortPartitionInfo_below : SlotsBelow s.total s (sortPartitionInfo s) := by
  -- Either loop keeps the count, which is the bound of the inner one.
  have outer := @foldl_keeps Nat Discovery (fun a b => a.total = s.total → SlotsBelow s.total a b)
    (fun a _ => SlotsBelow.refl s.total a)
    (fun first second same => (first same).trans (second ((first same).total.trans same)))
    (fun s i => (List.range' (i + 1) (s.total - (i + 1))).foldl (fun s j => sortSlots s i j) s)
    (List.range s.total)
  apply outer _ s rfl
  intro b i inRange same
  rw [List.mem_range] at inRange
  rw [same]
  apply foldl_keeps (SlotsBelow.refl _) SlotsBelow.trans
  intro c j inRange'
  rw [List.mem_range'_1] at inRange'
  exact sortSlots_below inRange (by omega)

/-- Reading the labels touches slots below the count. -/
theorem readLabels_below (volumeName : PartitionInfo → List Nat) :
    SlotsBelow s.total s (readLabels volumeName s) := by
  rw [readLabels]
  apply foldl_keeps (SlotsBelow.refl _) SlotsBelow.trans
  intro b i inRange
  rw [List.mem_range] at inRange
  refine ⟨rfl, fun a old => List.mem_cons_of_mem _ old, fun a new => ?_⟩
  simp only [Discovery.write, List.mem_cons] at new
  rcases new with rfl | old
  · exact Or.inr ⟨i, inRange, rfl⟩
  · exact Or.inl old

/-! ### A GPT disk -/

/-- The buffer after one entry of the array: the boot sector of a valid entry is read. -/
def gptRead (disk : ScanDisk) (buffer : Image) (i : Nat) : Image :=
  let entry := gptEntryAddress buffer i
  if isValidEntry buffer entry then
    (Discovery.read { buffer := buffer } disk (le64 buffer (entry + 32)) 4 GPT_BOOT).2.buffer
  else buffer

/-- The buffer after the first `n` entries. -/
def gptBuffer (disk : ScanDisk) (buffer : Image) : Nat → Image
  | 0 => buffer
  | n + 1 => gptRead disk (gptBuffer disk buffer n) n

/-- An entry that is kept: it is valid, and its boot sector does not say that it is unused. -/
def gptKeptNow (disk : ScanDisk) (buffer : Image) (i : Nat) : Bool :=
  isValidEntry buffer (gptEntryAddress buffer i)
    && checkedPartitionType (fun a => gptRead disk buffer i (GPT_BOOT + a))
      { partitionType := UNKNOWN_PARTITION } != PARTITION_UNUSED

/-- An entry that is kept when its turn comes. -/
def gptKept (disk : ScanDisk) (buffer : Image) (i : Nat) : Bool :=
  gptKeptNow disk (gptBuffer disk buffer i) i

/-- How many entries are kept before one of the array. -/
def keptBefore (disk : ScanDisk) (buffer : Image) (i : Nat) : Nat :=
  (List.range i).countP (gptKept disk buffer)

/--
The array of a GPT disk fits.

The entries lie among the loaded sectors, and when a valid one comes there is a slot left for it.
-/
def GptFits (disk : ScanDisk) (s : Discovery) : Prop :=
  let front := (s.read disk 0 GPT_SECTORS 0).2.buffer
  let loaded := if disk.readable 0 GPT_SECTORS then GPT_SECTORS * SECTOR_SIZE else 0
  strnicmp front 512 textEfiPart = true → ∀ i < gptCount front,
    gptEntryAddress front i + ENTRY_FIELDS ≤ loaded
      ∧ (isValidEntry front (gptEntryAddress front i) = true →
        s.total + keptBefore disk front i < MAX_NUM_PARTITIONS)

/-- A boot sector leaves what is in front of it. -/
theorem gptBuffer_front (buffer : Image) (n : Nat) {a : Nat} (front : a < GPT_BOOT) :
    gptBuffer disk buffer n a = buffer a := by
  induction n with
  | zero => rfl
  | succ n ih =>
    rw [gptBuffer, gptRead]
    split
    · rw [Discovery.read]
      split
      · dsimp only
        rw [if_neg (by omega), ih]
      · exact ih
    · exact ih

/-- Where an entry stands is decided by the header. -/
theorem gptEntryAddress_buffer (buffer : Image) (n i : Nat) :
    gptEntryAddress (gptBuffer disk buffer n) i = gptEntryAddress buffer i := by
  have boot : GPT_BOOT = 0x8000 := rfl
  have same : ∀ a, a < 0x8000 → gptBuffer disk buffer n a = buffer a := fun a front =>
    gptBuffer_front buffer n (by omega)
  have place : le64 (gptBuffer disk buffer n) (512 + 0x48) = le64 buffer (512 + 0x48) :=
    le64_congr fun a below => same _ (by omega)
  have size : le32 (gptBuffer disk buffer n) (512 + 0x54) = le32 buffer (512 + 0x54) :=
    le32_congr fun a below => same _ (by omega)
  have mine : (myLBA fun a => gptBuffer disk buffer n (512 + a)) = myLBA fun a => buffer (512 + a) :=
    le64_congr fun a below => same _ (by omega)
  rw [gptEntryAddress, gptEntryAddress, place, size, mine]

/-- Whether an entry in front is valid stays the same. -/
theorem isValidEntry_buffer (buffer : Image) (n : Nat) {entry : Nat}
    (inside : entry + ENTRY_FIELDS ≤ GPT_BOOT) :
    isValidEntry (gptBuffer disk buffer n) entry = isValidEntry buffer entry := by
  have fields : ENTRY_FIELDS = 48 := rfl
  have word : ∀ i, i + 8 ≤ entry + 48 → le64 (gptBuffer disk buffer n) i = le64 buffer i :=
    fun i behind => le64_congr fun a below => gptBuffer_front buffer n (by omega)
  rw [isValidEntry, isValidEntry, word _ (by omega), word _ (by omega), word _ (by omega)]

/-- The type that is checked depends on the type the record starts with only. -/
theorem checkedPartitionType_congr (boot : Image) {p q : PartitionInfo}
    (same : p.partitionType = q.partitionType) :
    checkedPartitionType boot p = checkedPartitionType boot q := by
  have announced : announcedType boot p = announcedType boot q := by
    rw [announcedType, announcedType, same]
  have none : (checkPartitionType boot p).isNone = (checkPartitionType boot q).isNone := by
    rw [checkPartitionType, checkPartitionType]
    split <;> rfl
  rw [checkedPartitionType, checkedPartitionType, announced, none]

/-- A read does not depend on the other variables. -/
theorem read_buffer (sector count at_ : Nat) :
    (s.read disk sector count at_).2.buffer
      = (Discovery.read { buffer := s.buffer } disk sector count at_).2.buffer := by
  rw [Discovery.read, Discovery.read]
  split <;> rfl

/-- The range of an entry is placed as a record of no known type that starts where it says. -/
theorem gptMaster_placed (entry : Nat) :
    ∃ p : PartitionInfo, p.bootBegin = le64 s.buffer (entry + 32) ∧ p.partitionType = UNKNOWN_PARTITION
      ∧ Placed disk p s.total GPT_BOOT s (gptMaster disk diskNumber entry s) :=
  ⟨_, rfl, rfl, placePartition_placed (masterRecord (s.table s.total) s.buffer none _ _ diskNumber) _ _⟩

/-- What one entry of the array leaves. -/
structure GptEntryDone (disk : ScanDisk) (loaded : Nat) (s : Discovery) (i : Nat) (s' : Discovery) :
    Prop where
  buffer : s'.buffer = gptRead disk s.buffer i
  total : s'.total = s.total + if gptKeptNow disk s.buffer i then 1 else 0
  kept : ∀ a ∈ s.accesses, a ∈ s'.accesses
  entry : .entry (gptEntryAddress s.buffer i) loaded ∈ s'.accesses
  slot : isValidEntry s.buffer (gptEntryAddress s.buffer i) = true → .slot s.total ∈ s'.accesses
  touched : ∀ a ∈ s'.accesses, a ∈ s.accesses ∨ a = .entry (gptEntryAddress s.buffer i) loaded
    ∨ isValidEntry s.buffer (gptEntryAddress s.buffer i) = true ∧ a = .slot s.total

/-- One entry of the array. -/
theorem gptEntry_done (loaded i : Nat) :
    GptEntryDone disk loaded s i (gptEntry disk diskNumber loaded s i) := by
  cases valid : isValidEntry s.buffer (gptEntryAddress s.buffer i) with
  | false =>
    have skip : gptEntry disk diskNumber loaded s i
        = { s with accesses := .entry (gptEntryAddress s.buffer i) loaded :: s.accesses } := by
      rw [gptEntry]
      simp only [valid]
      rfl
    rw [skip]
    refine ⟨?_, ?_, fun a old => List.mem_cons_of_mem _ old, List.mem_cons_self, ?_, fun a new => ?_⟩
    · rw [gptRead, valid]
      rfl
    · rw [gptKeptNow, valid]
      rfl
    · rw [valid]
      intro impossible
      cases impossible
    · rcases List.mem_cons.mp new with here | old
      · exact Or.inr (Or.inl here)
      · exact Or.inl old
  | true =>
    -- The boot sector is read, and the record is written to the next slot.
    generalize entryAt : gptEntryAddress s.buffer i = entry at valid
    obtain ⟨p, begin, type, placed⟩ := @gptMaster_placed
      { s with accesses := .entry entry loaded :: s.accesses } disk diskNumber entry
    have bytes : (Discovery.read { s with accesses := .entry entry loaded :: s.accesses } disk
        p.bootBegin 4 GPT_BOOT).2.buffer = gptRead disk s.buffer i := by
      rw [gptRead, entryAt, if_pos valid, begin]
      exact read_buffer _ _ _
    have kept := placed.kept
    have buffer := placed.buffer
    rw [bytes] at kept buffer
    have now : gptKeptNow disk s.buffer i
        = (gptMaster disk diskNumber entry
          { s with accesses := .entry entry loaded :: s.accesses }).1 := by
      rw [gptKeptNow, entryAt, valid, Bool.true_and, kept,
        checkedPartitionType_congr _ (show p.partitionType = PartitionInfo.partitionType
          { partitionType := UNKNOWN_PARTITION } from type)]
    have total := placed.total
    have accesses := placed.accesses
    have unfolded : gptEntry disk diskNumber loaded s i
        = if (gptMaster disk diskNumber entry
            { s with accesses := .entry entry loaded :: s.accesses }).1 then
          keepEntry entry (gptMaster disk diskNumber entry
            { s with accesses := .entry entry loaded :: s.accesses }).2
        else (gptMaster disk diskNumber entry
            { s with accesses := .entry entry loaded :: s.accesses }).2 := by
      rw [gptEntry]
      simp only [entryAt, valid, if_true]
      split
      · next t eq => rw [eq]; rfl
      · next t eq => rw [eq]; rfl
    rw [unfolded]
    -- A partition that is kept is written once more, and counted.
    cases result : gptMaster disk diskNumber entry
        { s with accesses := .entry entry loaded :: s.accesses } with
    | mk ok t =>
      rw [result] at buffer total accesses now
      dsimp only at buffer total accesses now
      cases ok with
      | true =>
        show GptEntryDone disk loaded s i (keepEntry entry t)
        refine ⟨buffer, ?_, ?_, ?_, ?_, ?_⟩
        · rw [now, if_pos rfl, ← total]
          rfl
        all_goals simp only [keepEntry, Discovery.write, accesses, total, entryAt, valid, List.mem_cons]
        all_goals tauto
      | false =>
        show GptEntryDone disk loaded s i t
        refine ⟨buffer, ?_, ?_, ?_, ?_, ?_⟩
        · rw [now, total]
          rfl
        all_goals simp only [accesses, entryAt, valid, List.mem_cons]
        all_goals tauto

/-- An entry keeps the scan safe when it lies inside and, if it is valid, a slot is left. -/
theorem GptEntryDone.safe_iff {loaded i : Nat} {s' : Discovery}
    (done : GptEntryDone disk loaded s i s') :
    s'.Safe ↔ s.Safe ∧ gptEntryAddress s.buffer i + ENTRY_FIELDS ≤ loaded
      ∧ (isValidEntry s.buffer (gptEntryAddress s.buffer i) = true → s.total < MAX_NUM_PARTITIONS) := by
  have total := done.total
  constructor
  · intro safe
    have bound := safe.total
    refine ⟨⟨?_, fun a old => safe.accesses a (done.kept a old)⟩, safe.accesses _ done.entry,
      fun valid => safe.accesses _ (done.slot valid)⟩
    rw [total] at bound
    omega
  · rintro ⟨safe, inside, room⟩
    refine ⟨?_, fun a new => ?_⟩
    · -- Only a valid entry is counted.
      have bound := safe.total
      rw [total]
      cases valid : isValidEntry s.buffer (gptEntryAddress s.buffer i) with
      | false =>
        rw [gptKeptNow, valid]
        simpa using bound
      | true =>
        have slot := room valid
        split <;> omega
    · rcases done.touched a new with old | rfl | ⟨valid, rfl⟩
      · exact safe.accesses a old
      · exact inside
      · exact room valid

/-- The array of a GPT, entry by entry. -/
theorem gptEntries_fold {loaded : Nat} (front : loaded ≤ GPT_BOOT) (n : Nat) :
    let t := (List.range n).foldl (gptEntry disk diskNumber loaded) s
    t.buffer = gptBuffer disk s.buffer n ∧ t.total = s.total + keptBefore disk s.buffer n
      ∧ (t.Safe ↔ s.Safe ∧ ∀ i < n, gptEntryAddress s.buffer i + ENTRY_FIELDS ≤ loaded
        ∧ (isValidEntry s.buffer (gptEntryAddress s.buffer i) = true →
          s.total + keptBefore disk s.buffer i < MAX_NUM_PARTITIONS)) := by
  induction n with
  | zero => simp [gptBuffer, keptBefore]
  | succ n ih =>
    rw [List.range_succ, List.foldl_append, List.foldl_cons, List.foldl_nil]
    generalize (List.range n).foldl (gptEntry disk diskNumber loaded) s = t at ih ⊢
    obtain ⟨buffer, total, safe⟩ := ih
    have done := @gptEntry_done t disk diskNumber loaded n
    have safe' := done.safe_iff
    have counted := done.total
    have kept : gptKeptNow disk t.buffer n = gptKept disk s.buffer n := by rw [buffer]; rfl
    have address : gptEntryAddress t.buffer n = gptEntryAddress s.buffer n := by
      rw [buffer, gptEntryAddress_buffer]
    refine ⟨?_, ?_, ?_⟩
    · rw [done.buffer, buffer]
      rfl
    · rw [counted, kept, total, keptBefore, keptBefore, List.range_succ, List.countP_append,
        List.countP_singleton, Nat.add_assoc]
    · rw [safe', safe, address, total, and_assoc, Nat.forall_lt_succ_right]
      apply and_congr_right
      intro _
      apply and_congr_right
      intro _
      apply and_congr_right
      intro inside
      -- The entry lies in front of the boot sectors, which left it as it was.
      rw [buffer, isValidEntry_buffer _ _ (Nat.le_trans inside front)]

/-- A GPT disk keeps the scan safe exactly if its array fits. -/
theorem parseGPTInfo_safe_iff :
    (parseGPTInfo disk diskNumber s).Safe ↔ s.Safe ∧ GptFits disk s := by
  have read := @read_accesses s disk 0 GPT_SECTORS 0
  have ok : (s.read disk 0 GPT_SECTORS 0).1 = disk.readable 0 GPT_SECTORS := by
    rw [Discovery.read]
    cases disk.readable 0 GPT_SECTORS <;> rfl
  -- the read of the array itself touches neither the counter nor the accesses
  have same : (s.read disk 0 GPT_SECTORS 0).2.Safe ↔ s.Safe := by
    constructor
    · intro safe
      exact ⟨read.1 ▸ safe.total, read.2 ▸ safe.accesses⟩
    · intro safe
      exact ⟨read.1.symm ▸ safe.total, read.2.symm ▸ safe.accesses⟩
  rw [parseGPTInfo, GptFits]
  simp only [ok]
  cases sign : strnicmp (s.read disk 0 GPT_SECTORS 0).2.buffer 512 textEfiPart with
  | false => simpa using same
  | true =>
    -- what is in the buffer ends at `GPT_BOOT` whether the read succeeded or not
    have loaded : (if disk.readable 0 GPT_SECTORS = true then GPT_SECTORS * SECTOR_SIZE else 0)
        ≤ GPT_BOOT := by
      have bytes : GPT_SECTORS * SECTOR_SIZE = GPT_BOOT := rfl
      split <;> omega
    obtain ⟨-, -, safe⟩ := @gptEntries_fold (s.read disk 0 GPT_SECTORS 0).2 disk diskNumber _ loaded
      (gptCount (s.read disk 0 GPT_SECTORS 0).2.buffer)
    rw [if_pos rfl, safe, same, read.1]
    simp

/-! ### All disks -/

/-- A disk that is scanned as a GPT disk. -/
def IsGptScan (disk : ScanDisk) : Prop := (disk.readable 0 1 && isGPT disk.bytes) = true

instance (disk : ScanDisk) : Decidable (IsGptScan disk) :=
  inferInstanceAs (Decidable (_ = true))

/-- A disk without a GPT keeps the scan safe when it begins with a slot left. -/
theorem scanDisk_mbr (mbr : ¬IsGptScan disk) (room : s.total < MAX_NUM_PARTITIONS) :
    (scanDisk s diskNumber disk).Safe ↔ s.Safe := by
  -- What is touched before the sorting is inside, and there are slots for what is counted.
  have equiv : ∀ t : Discovery, Within s t → t.total ≤ MAX_NUM_PARTITIONS → (t.Safe ↔ s.Safe) :=
    fun t within bound => ⟨within.toGrows.safe, fun safe => within.safe safe bound⟩
  unfold IsGptScan at mbr
  rw [scanDisk, if_neg mbr]
  have read := @read_accesses s disk 0 1 0
  split
  · next t eq =>
    rw [eq] at read
    dsimp only at read
    refine equiv t ⟨⟨Nat.le_of_eq read.1.symm, fun a old => by rwa [read.2]⟩, fun a new => ?_⟩ (by omega)
    rw [read.2] at new
    exact Or.inl new
  · next t eq =>
    rw [eq] at read
    dsimp only at read
    have first : Within s t := by
      refine ⟨⟨Nat.le_of_eq read.1.symm, fun a old => by rwa [read.2]⟩, fun a new => ?_⟩
      rw [read.2] at new
      exact Or.inl new
    have master := @parseMasterPartition_oneSlot t disk diskNumber none t.total 0 0 0
    have within := first.trans (master.within (by omega))
    have total := master.total
    split
    · next u eq' =>
      rw [eq'] at within total
      dsimp only at within total
      rw [sortPartitionInfo_below.safe_iff]
      refine equiv _ ⟨⟨?_, within.accesses⟩, within.inside⟩ ?_
      · dsimp only
        omega
      · dsimp only
        omega
    · next u eq' =>
      rw [eq'] at within total
      dsimp only at within total
      obtain ⟨rest, bound⟩ := @mbrLoop_within u disk diskNumber (recordEntries 0) (by omega)
      rw [sortPartitionInfo_below.safe_iff]
      exact equiv _ (within.trans rest) bound

/-- One disk keeps the scan safe exactly if it has no GPT or its array fits. -/
theorem scanDisk_safe_iff (room : s.total < MAX_NUM_PARTITIONS) :
    (scanDisk s diskNumber disk).Safe ↔ s.Safe ∧ (IsGptScan disk → GptFits disk s) := by
  by_cases gpt : IsGptScan disk
  · have test := gpt
    unfold IsGptScan at test
    rw [scanDisk, if_pos test, sortPartitionInfo_below.safe_iff, parseGPTInfo_safe_iff]
    simp [gpt]
  · rw [scanDisk_mbr gpt room]
    simp [gpt]

/-- Every GPT disk the scan comes to fits into what the disks before it left. -/
def RunFits : List ScanDisk → Nat → Discovery → Prop
  | [], _, _ => True
  | disk :: disks, diskNumber, s =>
    s.total < MAX_NUM_PARTITIONS →
      (IsGptScan disk → GptFits disk s) ∧ RunFits disks (diskNumber + 1) (scanDisk s diskNumber disk)

/-- The disks one after the other: what was unsafe once is unsafe at the end. -/
theorem scanDisks_safe_iff (disks : List ScanDisk) (diskNumber : Nat) (s : Discovery) :
    (scanDisks disks diskNumber s).Safe ↔ s.Safe ∧ RunFits disks diskNumber s := by
  induction disks generalizing diskNumber s with
  | nil => simp [scanDisks, RunFits]
  | cons disk disks ih =>
    rw [scanDisks, RunFits]
    split
    · next full => simp [Nat.not_lt.mpr full]
    · next room =>
      have room' : s.total < MAX_NUM_PARTITIONS := Nat.lt_of_not_le room
      rw [ih, scanDisk_safe_iff room']
      simp only [room', forall_const, and_assoc]

/-- The boot sectors cannot be read, so the buffer stays as it is. -/
theorem gptBuffer_unreadable (unreadable : ∀ sector, disk.readable sector 4 = false) (buffer : Image)
    (n : Nat) : gptBuffer disk buffer n = buffer := by
  induction n with
  | zero => rfl
  | succ n ih =>
    rw [gptBuffer, ih, gptRead, Discovery.read, unreadable, if_neg Bool.false_ne_true, ite_self]

/--
The front of a GPT disk: an array of so many entries that are all in use.

Every entry has the same type, and lies in sectors 34 to 35.
-/
def fullGpt (count : Nat) : Image := fun a =>
  if a = 0x1fe then 0x55
  else if a = 0x1ff then 0xAA
  else if a = 0x1be + 4 then 0xEE
  else if a < 512 then 0
  else if a < 520 then [0x45, 0x46, 0x49, 0x20, 0x50, 0x41, 0x52, 0x54].getD (a - 512) 0
  else if a = 512 + 0x18 then 1
  else if a = 512 + 0x48 then 2
  else if a = 512 + 0x50 then UInt8.ofNat count
  else if a = 512 + 0x54 then 128
  else if a < 1024 then 0
  else if a % 128 = 0 then 1
  else if a % 128 = 32 then 34
  else if a % 128 = 40 then 35
  else 0

/-- Only the front of the disk can be read. -/
def fullDisk (count : Nat) : ScanDisk where
  bytes := fullGpt count
  totalsector := 0x100000
  readable sector number := sector == 0 && number != 4

/-- The front of the disk in a buffer that held zeros. -/
def fullFront (count : Nat) : Image :=
  (Discovery.read { buffer := fun _ => 0 } (fullDisk count) 0 GPT_SECTORS 0).2.buffer

set_option maxRecDepth 8192 in
/-- Each entry is valid and is kept. -/
theorem fullFront_kept : ∀ i < 64, gptKeptNow (fullDisk 65) (fullFront 65) i = true := by
  decide

end Okr
