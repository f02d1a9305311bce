import Mathlib.Data.List.Nodup
import Okr.Discovery.ExtendedTree

/-! The walk of the extended boot records fills the next free slots unless data follow a link. -/

namespace Okr

/-! ### The slots of a tree -/

/-- Each number is at least as far behind the first one as its place in the list. -/
def Climbs : Nat → List Nat → Prop
  | _, [] => True
  | index, slot :: slots => index ≤ slot ∧ Climbs (index + 1) slots

/-- A list that climbs from a number climbs from each smaller one. -/
theorem Climbs.weaken {low index : Nat} {slots : List Nat} (climbs : Climbs index slots)
    (le : low ≤ index) : Climbs low slots := by
  induction slots generalizing low index with
  | nil => trivial
  | cons slot slots ih => exact ⟨Nat.le_trans le climbs.1, ih climbs.2 (Nat.succ_le_succ le)⟩

/-- All numbers are at least the first one. -/
theorem Climbs.le {index slot : Nat} {slots : List Nat} (climbs : Climbs index slots)
    (mem : slot ∈ slots) : index ≤ slot := by
  induction slots generalizing index with
  | nil => cases mem
  | cons first slots ih =>
    rcases List.mem_cons.mp mem with rfl | later
    · exact climbs.1
    · exact Nat.le_of_succ_le (ih climbs.2 later)

/-- One list that climbs behind another. -/
theorem Climbs.append {index : Nat} {front back : List Nat} (first : Climbs index front)
    (second : Climbs (index + front.length) back) : Climbs index (front ++ back) := by
  induction front generalizing index with
  | nil => exact second
  | cons slot front ih =>
    -- The second list starts one further on for each number in front of it.
    refine ⟨first.1, ih first.2 ?_⟩
    rw [List.length_cons, Nat.add_comm front.length, ← Nat.add_assoc] at second
    exact second

/-- A list that climbs and has just as many numbers in a row has them in their order. -/
theorem Climbs.eq_range' {index : Nat} {slots : List Nat} (climbs : Climbs index slots)
    (all : ∀ i, i ∈ slots ↔ index ≤ i ∧ i < index + slots.length) :
    slots = List.range' index slots.length := by
  induction slots generalizing index with
  | nil => rfl
  | cons slot slots ih =>
    obtain ⟨low, later⟩ := climbs
    rw [List.length_cons] at all
    -- The first number of the row can only stand in front.
    have first : index = slot := by
      refine (List.mem_cons.mp ((all index).mpr (by omega))).resolve_right fun mem => ?_
      have := later.le mem
      omega
    subst first
    rw [List.length_cons, List.range'_succ, ← ih later]
    intro i
    constructor
    -- The others are above the first one, and the row tells how far they go.
    · intro mem
      have above := later.le mem
      have below := ((all i).mp (List.mem_cons_of_mem _ mem)).2
      omega
    · rintro ⟨above, below⟩
      refine (List.mem_cons.mp ((all i).mpr (by omega))).resolve_left ?_
      omega

namespace Entries

/-- The slots in which the walk puts the partitions, when it keeps all and does not end. -/
def slots : Entries → Nat → Nat → List Nat
  | nil, _, _ => []
  | other rest, index, found => rest.slots index found
  | partition _ rest, index, found => index :: rest.slots (index + 1) (found + 1)
  | link record rest, index, found =>
    record.slots index 0
      ++ rest.slots (index + (found + record.starts.length)) (found + record.starts.length)

/-- The walk gets to every partition when it keeps all of them. -/
def Visited : Entries → Nat → Nat → Prop
  | nil, _, _ => True
  | other rest, index, found => (rest.starts ≠ [] → index < 32) ∧ rest.Visited index found
  | partition _ rest, index, found =>
    (rest.starts ≠ [] → index + 1 < 32) ∧ rest.Visited (index + 1) (found + 1)
  | link record rest, index, found =>
    record.Visited index 0
      ∧ (rest.starts ≠ [] → index + (found + record.starts.length) < 32)
      ∧ rest.Visited (index + (found + record.starts.length)) (found + record.starts.length)

variable {t : Entries} {index found : Nat}

/-- Each partition has a slot. -/
@[simp] theorem slots_length (t : Entries) (index found : Nat) :
    (t.slots index found).length = t.starts.length := by
  induction t generalizing index found with
  | nil => rfl
  | other rest ih => exact ih _ _
  | partition _ rest ih => simp only [slots, starts, List.length_cons, ih]
  | link record rest ihRecord ihRest =>
    simp only [slots, starts, List.length_append, ihRecord, ihRest]

/-- The walk leaves slots out, but it does not go back in a record. -/
theorem slots_climbs (t : Entries) (index found : Nat) : Climbs index (t.slots index found) := by
  induction t generalizing index found with
  | nil => trivial
  | other rest ih => exact ih _ _
  | partition _ rest ih => exact ⟨Nat.le_refl _, ih _ _⟩
  | link record rest ihRecord ihRest =>
    -- The walk goes on at or behind the next free slot.
    refine (ihRecord index 0).append ((ihRest _ _).weaken ?_)
    rw [slots_length]
    omega

/-- Where no partitions are, the walk may end. -/
theorem visited_of_none (none_ : t.starts = []) : t.Visited index found := by
  induction t generalizing index found with
  | nil => trivial
  | other rest ih => exact ⟨fun some_ => absurd none_ some_, ih none_⟩
  | partition _ rest ih => cases none_
  | link record rest ihRecord ihRest =>
    obtain ⟨first, second⟩ := List.append_eq_nil_iff.mp none_
    exact ⟨ihRecord first, fun some_ => absurd second some_, ihRest second⟩

/-- Where no partitions are, none can get a wrong slot. -/
theorem fits_of_none (none_ : t.starts = []) : t.Fits index found := by
  induction t generalizing index found with
  | nil => trivial
  | other rest ih => exact ⟨fun some_ => absurd none_ some_, ih none_⟩
  | partition _ rest ih => cases none_
  | link record rest ihRecord ihRest =>
    obtain ⟨first, second⟩ := List.append_eq_nil_iff.mp none_
    exact ⟨ihRecord first, fun some_ => absurd second some_, ihRest second⟩

/-- A tree fits when the walk gets everywhere and leaves no slot out. -/
theorem fits_iff (t : Entries) (index found : Nat) :
    t.Fits index found
      ↔ t.Visited index found ∧ t.slots index found = List.range' index t.starts.length := by
  induction t generalizing index found with
  | nil => simp only [Fits, Visited, slots, starts, List.length_nil, List.range'_zero, and_self]
  | other rest ih => simp only [Fits, Visited, slots, starts, ih, and_assoc]
  | partition _ rest ih =>
    simp only [Fits, Visited, slots, starts, ih, List.length_cons, List.range'_succ,
      List.cons.injEq, true_and, and_assoc]
  | link record rest ihRecord ihRest =>
    -- The row of slots splits behind those of the record the link leads to.
    have parts : List.range' index (record.starts.length + rest.starts.length)
        = List.range' index record.starts.length
          ++ List.range' (index + record.starts.length) rest.starts.length := by
      rw [← List.range'_append_1]
    have split : (link record rest).slots index found
          = List.range' index (link record rest).starts.length
        ↔ record.slots index 0 = List.range' index record.starts.length
          ∧ rest.slots (index + (found + record.starts.length)) (found + record.starts.length)
            = List.range' (index + record.starts.length) rest.starts.length := by
      rw [slots, starts, List.length_append, parts]
      constructor
      · intro same
        exact List.append_inj same (by rw [slots_length, List.length_range'])
      · rintro ⟨first, second⟩
        rw [first, second]
    rw [split]
    by_cases none_ : rest.starts = []
    · -- Behind the link there are no partitions.
      have empty : ∀ i m, rest.slots i m = [] := by
        intro i m
        rw [← List.length_eq_zero_iff, slots_length, none_, List.length_nil]
      simp only [Fits, Visited, ihRecord, none_, empty, fits_of_none none_, visited_of_none none_,
        ne_eq, not_true_eq_false, false_imp_iff, and_true, List.length_nil, List.range'_zero]
    · simp only [Fits, Visited, ihRecord, none_, ne_eq, not_false_eq_true, true_imp_iff]
      constructor
      · rintro ⟨⟨visited, same⟩, ⟨rfl, room⟩, rest⟩
        rw [Nat.zero_add] at rest ⊢
        obtain ⟨visitedRest, sameRest⟩ := (ihRest _ _).mp rest
        exact ⟨⟨visited, room, visitedRest⟩, same, sameRest⟩
      · rintro ⟨⟨visited, room, visitedRest⟩, same, sameRest⟩
        -- The first partition behind the link has the next slot, so none were found before it.
        have zero : found = 0 := by
          have climbs := slots_climbs rest (index + (found + record.starts.length))
            (found + record.starts.length)
          obtain ⟨start, more, front⟩ := List.exists_cons_of_ne_nil none_
          rw [sameRest, front, List.length_cons, List.range'_succ] at climbs
          have low := climbs.1
          omega
        subst zero
        rw [Nat.zero_add] at visitedRest sameRest room
        rw [Nat.zero_add]
        exact ⟨⟨visited, same⟩, ⟨rfl, room⟩, (ihRest _ _).mpr ⟨visitedRest, sameRest⟩⟩

end Entries

/-! ### One call of `ParseMasterPartition` -/

variable {disk : ScanDisk} {diskNumber : Nat}

/-- Reading leaves the buffer before the address, and all but the buffer. -/
theorem read_frame (s : Discovery) (sector count at_ : Nat) :
    (∀ a < at_, (s.read disk sector count at_).2.buffer a = s.buffer a)
      ∧ (s.read disk sector count at_).2.table = s.table
      ∧ (s.read disk sector count at_).2.accesses = s.accesses
      ∧ (s.read disk sector count at_).2.recursiveTimes = s.recursiveTimes := by
  unfold Discovery.read
  split
  -- A read only fills the buffer from the address on.
  · exact ⟨fun a before => if_neg (by omega), rfl, rfl, rfl⟩
  · exact ⟨fun _ _ => rfl, rfl, rfl, rfl⟩

/-- A sector that can be read is in the buffer. -/
theorem read_loads {s : Discovery} {sector at_ : Nat} (readable : disk.readable sector 1 = true) :
    (s.read disk sector 1 at_).1 = true
      ∧ ∀ a < 512, (s.read disk sector 1 at_).2.buffer (at_ + a)
          = disk.bytes (sector * SECTOR_SIZE + a) := by
  rw [Discovery.read, if_pos readable]
  refine ⟨rfl, fun a small => ?_⟩
  have size : SECTOR_SIZE = 512 := rfl
  simp only
  rw [if_pos (by omega), Nat.add_sub_cancel_left]

/-- Looking at an entry leaves all but the buffer behind the record. -/
theorem isKnownEntry_frame (s : Discovery) (prt begin_ at_ : Nat) :
    (∀ a < at_, (isKnownEntry disk prt begin_ at_ s).2.buffer a = s.buffer a)
      ∧ (isKnownEntry disk prt begin_ at_ s).2.table = s.table
      ∧ (isKnownEntry disk prt begin_ at_ s).2.accesses = s.accesses
      ∧ (isKnownEntry disk prt begin_ at_ s).2.recursiveTimes = s.recursiveTimes := by
  unfold isKnownEntry
  split
  · exact ⟨fun _ _ => rfl, rfl, rfl, rfl⟩
  · exact read_frame _ _ _ _

/-- The type that is found does not change where the partition starts. -/
theorem checkPartitionType_bootBegin (boot : Image) (p : PartitionInfo) :
    ((checkPartitionType boot p).getD p).bootBegin = p.bootBegin := by
  unfold checkPartitionType
  split
  · rfl
  · simp only [Option.getD_some]
    unfold ntfsGeometry fat32Geometry fat16Geometry extGeometry
    repeat' split
    all_goals rfl

/-- What a call of `ParseMasterPartition` for an entry leaves. -/
structure Placing (prt index begin_ at_ : Nat) (s s' : Discovery) : Prop where
  frame : ∀ a < at_, s'.buffer a = s.buffer a
  recursions : s'.recursiveTimes = s.recursiveTimes
  accesses : s'.accesses = .slot index :: s.accesses
  start : (s'.table index).bootBegin = u64 (begin_ + entryFront s.buffer prt)
  others : ∀ i, i ≠ index → s'.table i = s.table i

/-- The fields of an entry are the same in buffers with the same bytes. -/
theorem entryFront_congr {m m' : Image} {prt prt' : Nat}
    (same : ∀ a < 16, m (prt + a) = m' (prt' + a)) : entryFront m prt = entryFront m' prt' := by
  simp only [entryFront, le32, le16, Nat.add_assoc]
  simp only [same 8 (by decide), same (8 + 1) (by decide), same (8 + 2) (by decide),
    same (8 + (2 + 1)) (by decide)]

/-- A partition whose entry is known is written to the slot. -/
theorem parseMasterPartition_known {prt index begin_ total at_ : Nat} {s : Discovery}
    (before : prt + 16 ≤ at_) (known : (isKnownEntry disk prt begin_ at_ s).1 = true) :
    Placing prt index begin_ at_ s
      (parseMasterPartition disk (some prt) index begin_ total diskNumber at_ s).2 := by
  -- The boot sector is read behind the record, so the fields of the entry stay.
  obtain ⟨look, table, accesses, recursions⟩ := @isKnownEntry_frame disk s prt begin_ at_
  have same : entryFront (isKnownEntry disk prt begin_ at_ s).2.buffer prt
      = entryFront s.buffer prt := by
    refine entryFront_congr fun a small => look _ ?_
    omega
  rw [parseMasterPartition]
  simp only [known, if_true, placePartition]
  split <;>
  · refine ⟨fun a small => ?_, ?_, ?_, ?_, fun i other => ?_⟩
    · simp only [Discovery.write]
      rw [(read_frame _ _ _ _).1 a small, look a small]
    · simp only [Discovery.write]
      rw [(read_frame _ _ _ _).2.2.2, recursions]
    · simp only [Discovery.write]
      rw [(read_frame _ _ _ _).2.2.1, accesses]
    · simp only [Discovery.write, if_true]
      rw [checkPartitionType_bootBegin]
      simp only [masterRecord, same]
    · simp only [Discovery.write, if_neg other]
      rw [(read_frame _ _ _ _).2.1, table]

/-- An entry that is not known leaves the table alone. -/
theorem parseMasterPartition_unknown {prt index begin_ total at_ : Nat} {s : Discovery}
    (unknown : (isKnownEntry disk prt begin_ at_ s).1 = false) :
    parseMasterPartition disk (some prt) index begin_ total diskNumber at_ s
      = (false, (isKnownEntry disk prt begin_ at_ s).2) := by
  rw [parseMasterPartition]
  simp only [unknown, Bool.false_eq_true, if_false]

/-! ### A record in the buffer -/

/-- The record of a sector stands at an address of the buffer. -/
def Loaded (disk : ScanDisk) (sector at_ : Nat) (buffer : Image) : Prop :=
  ∀ a < 512, buffer (at_ + a) = disk.bytes (sector * SECTOR_SIZE + a)

/-- Where the entries of a record stand in the buffer, from one on. -/
def entriesFrom (at_ i : Nat) : List Nat :=
  (List.range' i (4 - i)).map fun i => at_ + 0x1be + 16 * i

/-- One entry, and those behind it. -/
theorem entriesFrom_cons {at_ i : Nat} (inside : i < 4) :
    entriesFrom at_ i = (at_ + 0x1be + 16 * i) :: entriesFrom at_ (i + 1) := by
  have some_ : 4 - i = (4 - (i + 1)) + 1 := by omega
  rw [entriesFrom, some_, List.range'_succ, List.map_cons]
  rfl

/-- There are four entries. -/
theorem recordEntries_eq (at_ : Nat) : recordEntries at_ = entriesFrom at_ 0 := rfl

/-- An entry's bytes in the buffer are those on the disk. -/
theorem Loaded.entry {sector at_ i : Nat} {buffer : Image} (loaded : Loaded disk sector at_ buffer)
    (inside : i < 4) : ∀ a < 16,
      buffer (at_ + 0x1be + 16 * i + a) = disk.bytes (diskEntry sector i + a) := by
  intro a small
  -- Four entries of 16 bytes end before the signature.
  have byte := loaded (0x1be + 16 * i + a) (by omega)
  simp only [diskEntry, Nat.add_assoc] at byte ⊢
  exact byte

/-- The type of an entry is the same in buffers with the same bytes. -/
theorem entryPid_congr {m m' : Image} {prt prt' : Nat}
    (same : ∀ a < 16, m (prt + a) = m' (prt' + a)) : entryPid m prt = entryPid m' prt' := by
  rw [entryPid, entryPid, same 4 (by decide)]

/-- The check of an entry is the same in buffers with the same bytes. -/
theorem verifyPartition_congr {m m' : Image} {prt prt' : Nat} (begin_ : Nat)
    (same : ∀ a < 16, m (prt + a) = m' (prt' + a)) :
    verifyPartition m prt begin_ disk = verifyPartition m' prt' begin_ disk := by
  have head : entryBeginHead m prt = entryBeginHead m' prt' := by
    rw [entryBeginHead, entryBeginHead, same 1 (by decide)]
  have sector : entryBeginSector m prt = entryBeginSector m' prt' := by
    simp only [entryBeginSector, le16, Nat.add_assoc]
    rw [same 2 (by decide), same (2 + 1) (by decide)]
  rw [verifyPartition, verifyPartition, entryPid_congr same, head, sector]

/-- What stands in the buffer and on the disk decides alike whether an entry is known. -/
theorem Loaded.known {sector at_ i : Nat} {s : Discovery} (loaded : Loaded disk sector at_ s.buffer)
    (inside : i < 4) :
    (isKnownEntry disk (at_ + 0x1be + 16 * i) sector (at_ + 512) s).1
      = knownOnDisk disk sector i := by
  have same := loaded.entry inside
  -- Both look at the same fields, and then at the same sector when it can be read.
  unfold isKnownEntry knownOnDisk
  simp only [verifyPartition_congr sector same, entryFront_congr same]
  generalize u64 (sector + entryFront disk.bytes (diskEntry sector i)) = start
  cases verifyPartition disk.bytes (diskEntry sector i) sector disk with
  | true => rfl
  | false =>
    simp only [Bool.false_eq_true, if_false, Bool.false_or]
    cases readable : disk.readable start 1 with
    | false =>
      have failed : (s.read disk start 1 (at_ + 512)).1 = false := by
        rw [Discovery.read, readable]
        rfl
      simp only [failed, Bool.false_and]
    | true =>
      obtain ⟨done, bytes⟩ := @read_loads disk s start (at_ + 512) readable
      have signature : le16 (s.read disk start 1 (at_ + 512)).2.buffer (at_ + 512 + 0x1fe)
          = le16 disk.bytes (start * SECTOR_SIZE + 0x1fe) := by
        simp only [le16, Nat.add_assoc (at_ + 512), Nat.add_assoc (start * SECTOR_SIZE)]
        rw [bytes 0x1fe (by decide), bytes (0x1fe + 1) (by decide)]
      simp only [done, signature]

/-! ### The walk of a tree -/

/-- Partitions came to slots of the table, in this order. -/
structure CameToSlots (slots starts : List Nat) (s s' : Discovery) : Prop where
  accesses : s'.accesses = (slots.map Access.slot).reverse ++ s.accesses
  filled : slots.Nodup → ∀ pair ∈ slots.zip starts, (s'.table pair.1).bootBegin = pair.2
  others : ∀ i, i ∉ slots → s'.table i = s.table i

/-- Nothing came to the table. -/
theorem CameToSlots.nothing {s s' : Discovery} (table : s'.table = s.table)
    (accesses : s'.accesses = s.accesses) : CameToSlots [] [] s s' :=
  ⟨accesses, fun _ _ mem => absurd mem List.not_mem_nil, fun _ _ => by rw [table]⟩

/-- Some partitions after others. -/
theorem CameToSlots.append {slots starts slots' starts' : List Nat} {s₁ s₂ s₃ : Discovery}
    (first : CameToSlots slots starts s₁ s₂) (second : CameToSlots slots' starts' s₂ s₃)
    (each : slots.length = starts.length) : CameToSlots (slots ++ slots') (starts ++ starts') s₁ s₃ where
  accesses := by
    rw [second.accesses, first.accesses, List.map_append, List.reverse_append, List.append_assoc]
  filled := by
    intro distinct pair mem
    -- A slot of the first part is no slot of the second one, which leaves it alone.
    obtain ⟨own, later, apart⟩ := List.nodup_append'.mp distinct
    rw [List.zip_append each] at mem
    rcases List.mem_append.mp mem with early | late
    · rw [second.others _ (apart (List.of_mem_zip early).1)]
      exact first.filled own pair early
    · exact second.filled later pair late
  others := by
    intro i other
    obtain ⟨early, late⟩ := not_or.mp fun mem => other (List.mem_append.mpr mem)
    rw [second.others i late, first.others i early]

/--
What a part of the walk left: of an entry, of the entries from one on, or of a whole record.

It finds the partitions that are there at most, and all of them when each call keeps its own and
the walk does not end before.
-/
structure Ran (disk : ScanDisk) (diskNumber low links : Nat) (starts slots : List Nat)
    (visited : Prop) (e r : ExtendState) (calls : List MasterCall) : Prop where
  few : r.partitionNumber ≤ e.partitionNumber + starts.length
  frame : ∀ a < low, r.s.buffer a = e.s.buffer a
  recursions : r.s.recursiveTimes ≤ e.s.recursiveTimes + links
  all : r.partitionNumber = e.partitionNumber + starts.length
    ↔ (∀ c ∈ calls, ¬ c.Refused disk diskNumber) ∧ visited
  wrote : r.partitionNumber = e.partitionNumber + starts.length → CameToSlots slots starts e.s r.s

variable {low links next : Nat} {own ownSlots : List Nat} {visited : Prop} {e after : ExtendState}
  {calls : List MasterCall}

/-- An entry at which the walk ends: all are found only if none are left behind it. -/
theorem Ran.last {rest : Entries}
    (first : Ran disk diskNumber low links own ownSlots visited e after calls)
    (index : after.partitionNumber = e.partitionNumber + own.length → after.partitionIndex = next)
    (ends : 32 ≤ after.partitionIndex) :
    Ran disk diskNumber low (links + rest.links) (own ++ rest.starts)
      (ownSlots ++ rest.slots next (e.partitionNumber + own.length))
      (visited ∧ (rest.starts ≠ [] → next < 32)
        ∧ rest.Visited next (e.partitionNumber + own.length)) e after calls := by
  have few := first.few
  -- finding all of them means that nothing was left, since the walk ends here
  have none_ : after.partitionNumber = e.partitionNumber + (own ++ rest.starts).length →
      rest.starts = [] ∧ after.partitionNumber = e.partitionNumber + own.length := by
    intro full
    rw [List.length_append] at full
    exact ⟨List.length_eq_zero_iff.mp (by omega), by omega⟩
  constructor
  · rw [List.length_append]
    omega
  · exact first.frame
  · exact Nat.le_trans first.recursions (by omega)
  · constructor
    · intro full
      obtain ⟨nil, found⟩ := none_ full
      obtain ⟨kept, seen⟩ := first.all.mp found
      exact ⟨kept, seen, fun some_ => absurd nil some_, Entries.visited_of_none nil⟩
    · rintro ⟨kept, seen, room, -⟩
      have found := first.all.mpr ⟨kept, seen⟩
      -- entries behind would need a place below 32, where the walk has ended
      have nil : rest.starts = [] := by
        by_contra some_
        have below := room some_
        rw [← index found] at below
        omega
      rw [nil, List.append_nil]
      exact found
  · intro full
    obtain ⟨nil, found⟩ := none_ full
    have empty : rest.slots next (e.partitionNumber + own.length) = [] := by
      rw [← List.length_eq_zero_iff, Entries.slots_length, nil, List.length_nil]
    rw [nil, empty, List.append_nil, List.append_nil]
    exact first.wrote found

/-- An entry behind which the walk goes on: all are found when both parts find all of theirs. -/
theorem Ran.goesOn {rest : Entries} {final : ExtendState} {callsRest : List MasterCall}
    (first : Ran disk diskNumber low links own ownSlots visited e after calls)
    (each : ownSlots.length = own.length)
    (index : after.partitionNumber = e.partitionNumber + own.length → after.partitionIndex = next)
    (more : after.partitionIndex < 32)
    (second : Ran disk diskNumber low rest.links rest.starts
      (rest.slots after.partitionIndex after.partitionNumber)
      (rest.Visited after.partitionIndex after.partitionNumber) after final callsRest) :
    Ran disk diskNumber low (links + rest.links) (own ++ rest.starts)
      (ownSlots ++ rest.slots next (e.partitionNumber + own.length))
      (visited ∧ (rest.starts ≠ [] → next < 32)
        ∧ rest.Visited next (e.partitionNumber + own.length)) e final (calls ++ callsRest) := by
  have few := first.few
  have fewRest := second.few
  -- each part finds at most its own, so a full count is full in both
  have parts : final.partitionNumber = e.partitionNumber + (own ++ rest.starts).length →
      after.partitionNumber = e.partitionNumber + own.length
        ∧ final.partitionNumber = after.partitionNumber + rest.starts.length := by
    intro full
    rw [List.length_append] at full
    omega
  constructor
  · rw [List.length_append]
    omega
  · intro a small
    rw [second.frame a small, first.frame a small]
  · have one := first.recursions
    have two := second.recursions
    omega
  · constructor
    · intro full
      obtain ⟨found, foundRest⟩ := parts full
      obtain ⟨kept, seen⟩ := first.all.mp found
      obtain ⟨keptRest, seenRest⟩ := second.all.mp foundRest
      rw [index found, found] at seenRest
      refine ⟨fun c mem => (List.mem_append.mp mem).elim (kept c) (keptRest c), seen, ?_, seenRest⟩
      intro _
      rw [← index found]
      exact more
    · rintro ⟨kept, seen, -, seenRest⟩
      have found := first.all.mpr ⟨fun c mem => kept c (List.mem_append_left _ mem), seen⟩
      rw [← index found, ← found] at seenRest
      have foundRest := second.all.mpr ⟨fun c mem => kept c (List.mem_append_right _ mem), seenRest⟩
      rw [List.length_append]
      omega
  · intro full
    obtain ⟨found, foundRest⟩ := parts full
    have written := second.wrote foundRest
    rw [index found, found] at written
    exact (first.wrote found).append written each

/-- An entry and the entries behind it, of which the walk may not get to see any. -/
theorem Ran.step {rest : Entries} {loop : ExtendState → ExtendState}
    {loopOf : ExtendState → List MasterCall}
    (first : Ran disk diskNumber low links own ownSlots visited e after calls)
    (each : ownSlots.length = own.length)
    (index : after.partitionNumber = e.partitionNumber + own.length → after.partitionIndex = next)
    (second : Ran disk diskNumber low rest.links rest.starts
      (rest.slots after.partitionIndex after.partitionNumber)
      (rest.Visited after.partitionIndex after.partitionNumber) after (loop after) (loopOf after)) :
    Ran disk diskNumber low (links + rest.links) (own ++ rest.starts)
      (ownSlots ++ rest.slots next (e.partitionNumber + own.length))
      (visited ∧ (rest.starts ≠ [] → next < 32)
        ∧ rest.Visited next (e.partitionNumber + own.length))
      e (if 32 ≤ after.partitionIndex then after else loop after)
      (calls ++ if 32 ≤ after.partitionIndex then [] else loopOf after) := by
  by_cases ends : 32 ≤ after.partitionIndex
  · rw [if_pos ends, if_pos ends, List.append_nil]
    exact first.last index ends
  · rw [if_neg ends, if_neg ends]
    exact first.goesOn each index (Nat.not_le.mp ends) second

section Entry

variable {walk : Nat → Nat → Nat → Nat → Discovery → Nat × Discovery}
  {callsOf : Nat → Nat → Nat → Nat → Discovery → List MasterCall} {base sector at_ i : Nat}

/-- An entry that is no partition, or is not known as one, changes nothing in the table. -/
theorem extendEntry_other (loaded : Loaded disk sector at_ e.s.buffer) (inside : i < 4)
    (plain : isExtend (entryPid disk.bytes (diskEntry sector i)) = false)
    (none_ : entryPid disk.bytes (diskEntry sector i) = 0 ∨ knownOnDisk disk sector i = false) :
    Ran disk diskNumber (at_ + 512) 0 [] [] True e
        (extendEntry walk disk base sector diskNumber at_ (at_ + 0x1be + 16 * i) e)
        (entryCalls callsOf base sector at_ (at_ + 0x1be + 16 * i) e)
      ∧ (extendEntry walk disk base sector diskNumber at_ (at_ + 0x1be + 16 * i) e).partitionIndex
        = e.partitionIndex := by
  have pid := entryPid_congr (loaded.entry inside)
  by_cases zero : entryPid disk.bytes (diskEntry sector i) = 0
  -- An entry without a type is passed over.
  · have unused : isExtend 0 = false := rfl
    simp only [extendEntry, entryCalls, pid, zero, unused, Bool.false_eq_true, if_false, ne_eq,
      not_true_eq_false]
    refine ⟨⟨Nat.le_refl _, fun _ _ => rfl, Nat.le_refl _, ?_, fun _ => .nothing rfl rfl⟩, trivial⟩
    simp
  -- An entry of a type that is not known is looked at, and the index stays.
  · have unknown := none_.resolve_left zero
    rw [← loaded.known inside] at unknown
    obtain ⟨look, table, accesses, recursions⟩ :=
      @isKnownEntry_frame disk e.s (at_ + 0x1be + 16 * i) sector (at_ + 512)
    simp only [extendEntry, entryCalls, pid, plain, zero, Bool.false_eq_true, if_false, ne_eq,
      not_false_eq_true, if_true, parseMasterPartition_unknown unknown]
    refine ⟨⟨Nat.le_refl _, look, Nat.le_of_eq recursions, ?_, fun _ => .nothing table accesses⟩, ?_⟩
    · simp [MasterCall.Refused, unknown]
    · trivial

/-- A partition comes to the next slot, and is kept or not. -/
theorem extendEntry_partition (loaded : Loaded disk sector at_ e.s.buffer) (inside : i < 4)
    (plain : isExtend (entryPid disk.bytes (diskEntry sector i)) = false)
    (some_ : entryPid disk.bytes (diskEntry sector i) ≠ 0)
    (known : knownOnDisk disk sector i = true) :
    Ran disk diskNumber (at_ + 512) 0
        [u64 (sector + entryFront disk.bytes (diskEntry sector i))] [e.partitionIndex] True e
        (extendEntry walk disk base sector diskNumber at_ (at_ + 0x1be + 16 * i) e)
        (entryCalls callsOf base sector at_ (at_ + 0x1be + 16 * i) e)
      ∧ ((extendEntry walk disk base sector diskNumber at_ (at_ + 0x1be + 16 * i) e).partitionNumber
          = e.partitionNumber + 1 →
        (extendEntry walk disk base sector diskNumber at_ (at_ + 0x1be + 16 * i) e).partitionIndex
          = e.partitionIndex + 1) := by
  have pid := entryPid_congr (loaded.entry inside)
  have front := entryFront_congr (loaded.entry inside)
  rw [← loaded.known inside] at known
  have placing := @parseMasterPartition_known disk diskNumber (at_ + 0x1be + 16 * i) e.partitionIndex
    sector (entryTotal e.s.buffer (at_ + 0x1be + 16 * i)) (at_ + 512) e.s (by omega) known
  have written : CameToSlots [e.partitionIndex] [u64 (sector + entryFront disk.bytes (diskEntry sector i))]
      e.s (parseMasterPartition disk (some (at_ + 0x1be + 16 * i)) e.partitionIndex sector
        (entryTotal e.s.buffer (at_ + 0x1be + 16 * i)) diskNumber (at_ + 512) e.s).2 := by
    refine ⟨placing.accesses, fun _ pair mem => ?_, fun i other => ?_⟩
    · rw [List.zip_cons_cons, List.zip_nil_right, List.mem_singleton] at mem
      rw [mem, placing.start, front]
    · exact placing.others i fun same => other (List.mem_singleton.mpr same)
  simp only [extendEntry, entryCalls, pid, plain, some_, Bool.false_eq_true, if_false, ne_eq,
    not_false_eq_true, if_true]
  -- Whether the partition is kept or not, its slot is written.
  have frame := placing.frame
  have recursions := placing.recursions
  clear placing
  cases kept : parseMasterPartition disk (some (at_ + 0x1be + 16 * i)) e.partitionIndex sector
      (entryTotal e.s.buffer (at_ + 0x1be + 16 * i)) diskNumber (at_ + 512) e.s with
  | mk keeps s =>
    rw [kept] at written frame recursions
    cases keeps with
    | true =>
      refine ⟨⟨Nat.le_refl _, frame, Nat.le_of_eq recursions, ?_, fun _ => written⟩, fun _ => rfl⟩
      simp [MasterCall.Refused, kept]
    | false =>
      refine ⟨⟨Nat.le_succ _, frame, Nat.le_of_eq recursions, ?_, fun _ => written⟩, ?_⟩
      · simp [MasterCall.Refused, kept, known]
      · simp

/-- The partitions of another record come to the next slots. -/
theorem extendEntry_link {record : Entries} (loaded : Loaded disk sector at_ e.s.buffer)
    (inside : i < 4) (leads : isExtend (entryPid disk.bytes (diskEntry sector i)) = true)
    (walked : Ran disk diskNumber (at_ + 512) (1 + record.links) record.starts
      (record.slots e.partitionIndex 0) (record.Visited e.partitionIndex 0) ⟨e.partitionIndex, 0, e.s⟩
      ⟨0, (walk (at_ + 0x1be + 16 * i) e.partitionIndex base (at_ + 512) e.s).1,
        (walk (at_ + 0x1be + 16 * i) e.partitionIndex base (at_ + 512) e.s).2⟩
      (callsOf (at_ + 0x1be + 16 * i) e.partitionIndex base (at_ + 512) e.s)) :
    Ran disk diskNumber (at_ + 512) (1 + record.links) record.starts
        (record.slots e.partitionIndex 0) (record.Visited e.partitionIndex 0) e
        (extendEntry walk disk base sector diskNumber at_ (at_ + 0x1be + 16 * i) e)
        (entryCalls callsOf base sector at_ (at_ + 0x1be + 16 * i) e)
      ∧ ((extendEntry walk disk base sector diskNumber at_ (at_ + 0x1be + 16 * i) e).partitionNumber
          = e.partitionNumber + record.starts.length →
        (extendEntry walk disk base sector diskNumber at_ (at_ + 0x1be + 16 * i) e).partitionIndex
          = e.partitionIndex + (e.partitionNumber + record.starts.length)) := by
  have pid := entryPid_congr (loaded.entry inside)
  simp only [extendEntry, entryCalls, pid, leads, if_true]
  -- The record counts its own partitions, which come on top of those found before.
  obtain ⟨few, frame, recursions, all, wrote⟩ := walked
  simp only [Nat.zero_add] at few all wrote
  refine ⟨⟨Nat.add_le_add_left few _, frame, recursions, ?_, fun full => ?_⟩, fun full => ?_⟩
  · rw [← all]
    exact Nat.add_left_cancel_iff
  · exact wrote (Nat.add_left_cancel full)
  · rw [full]

end Entry

/-- A record is read and walked; `loop` says what the loop over its entries does. -/
theorem parseExtendPartition_ran {t : Entries} {fuel prt index base at_ : Nat} {s : Discovery}
    {sector : Nat} (place : sector = u32 (entryFront s.buffer prt + base))
    (record : IsRecord disk sector) (limit : s.recursiveTimes + 1 + t.links < 32)
    (loop : ∀ e : ExtendState, Loaded disk sector at_ e.s.buffer →
      e.s.recursiveTimes + t.links < 32 →
      Ran disk diskNumber (at_ + 512) t.links t.starts (t.slots e.partitionIndex e.partitionNumber)
        (t.Visited e.partitionIndex e.partitionNumber) e
        (extendLoop (parseExtendPartition disk diskNumber fuel) disk (baseSector base sector) sector
          diskNumber at_ (recordEntries at_) e)
        (loopCalls (parseExtendPartition disk diskNumber fuel) (extendCalls disk diskNumber fuel) disk
          (baseSector base sector) sector diskNumber at_ (recordEntries at_) e)) :
    Ran disk diskNumber at_ (1 + t.links) t.starts (t.slots index 0) (t.Visited index 0)
      ⟨index, 0, s⟩
      ⟨0, (parseExtendPartition disk diskNumber (fuel + 1) prt index base at_ s).1,
        (parseExtendPartition disk diskNumber (fuel + 1) prt index base at_ s).2⟩
      (extendCalls disk diskNumber (fuel + 1) prt index base at_ s) := by
  obtain ⟨done, bytes⟩ :=
    @read_loads disk { s with recursiveTimes := s.recursiveTimes + 1 } sector at_ record.1
  obtain ⟨frame, table, accesses, recursions⟩ :=
    @read_frame disk { s with recursiveTimes := s.recursiveTimes + 1 } sector 1 at_
  cases read : Discovery.read { s with recursiveTimes := s.recursiveTimes + 1 } disk sector 1 at_ with
  | mk ok s' =>
    rw [read] at done bytes frame table accesses recursions
    simp only at done bytes frame table accesses recursions
    subst done
    have signature : le16 s'.buffer (at_ + 0x1fe) = 0xaa55 := by
      rw [← record.2]
      simp only [le16, Nat.add_assoc]
      rw [bytes 0x1fe (by decide), bytes (0x1fe + 1) (by decide)]
    -- The counter of the calls leaves room for the records the entries lead to.
    have ran := loop ⟨index, 0, s'⟩ bytes (by simp only [recursions]; omega)
    have walk : parseExtendPartition disk diskNumber (fuel + 1) prt index base at_ s
        = ((extendLoop (parseExtendPartition disk diskNumber fuel) disk (baseSector base sector) sector
            diskNumber at_ (recordEntries at_) ⟨index, 0, s'⟩).partitionNumber,
          (extendLoop (parseExtendPartition disk diskNumber fuel) disk (baseSector base sector) sector
            diskNumber at_ (recordEntries at_) ⟨index, 0, s'⟩).s) := by
      rw [parseExtendPartition]
      simp only
      rw [if_neg (by omega), ← place, read]
      simp only [signature, ne_eq, not_true_eq_false, if_false]
      rfl
    have made : extendCalls disk diskNumber (fuel + 1) prt index base at_ s
        = loopCalls (parseExtendPartition disk diskNumber fuel) (extendCalls disk diskNumber fuel) disk
          (baseSector base sector) sector diskNumber at_ (recordEntries at_) ⟨index, 0, s'⟩ := by
      rw [extendCalls]
      simp only
      rw [if_neg (by omega), ← place, read]
      simp only [signature, ne_eq, not_true_eq_false, if_false]
      rfl
    rw [walk, made]
    refine ⟨ran.few, fun a small => ?_, ?_, ran.all, fun full => ?_⟩
    · rw [ran.frame a (by omega), frame a small]
    · have more := ran.recursions
      simp only [recursions] at more
      simp only
      omega
    · have written := ran.wrote full
      refine ⟨?_, written.filled, fun i other => ?_⟩
      · rw [written.accesses, accesses]
      · rw [written.others i other, table]

/-- Behind the last entry the tree ends. -/
theorem Entries.At.le {t : Entries} {base sector i : Nat} (tree : t.At disk base sector i) :
    i ≤ 4 := by
  induction t generalizing base sector i with
  | nil => exact Nat.le_of_eq tree
  | other rest ih => exact Nat.le_of_succ_le (ih tree.2.2)
  | partition _ rest ih => exact Nat.le_of_succ_le (ih tree.2.2.2.2)
  | link record rest _ ih => exact Nat.le_of_succ_le (ih tree.2.2.2)

/-- The loop over the entries: the induction is on the tree, with the records the entries lead to. -/
theorem extendLoop_ran (t : Entries) {fuel base sector at_ i : Nat} {e : ExtendState}
    (tree : t.At disk base sector i) (loaded : Loaded disk sector at_ e.s.buffer)
    (limit : e.s.recursiveTimes + t.links < 32) (enough : t.links ≤ fuel) :
    Ran disk diskNumber (at_ + 512) t.links t.starts (t.slots e.partitionIndex e.partitionNumber)
      (t.Visited e.partitionIndex e.partitionNumber) e
      (extendLoop (parseExtendPartition disk diskNumber fuel) disk base sector diskNumber at_
        (entriesFrom at_ i) e)
      (loopCalls (parseExtendPartition disk diskNumber fuel) (extendCalls disk diskNumber fuel) disk
        base sector diskNumber at_ (entriesFrom at_ i) e) := by
  induction t generalizing fuel base sector at_ i e with
  | nil =>
    have last : i = 4 := tree
    subst last
    refine ⟨Nat.le_refl _, fun _ _ => rfl, Nat.le_refl _, ?_, fun _ => .nothing rfl rfl⟩
    simp [extendLoop, entriesFrom, loopCalls, Entries.starts, Entries.Visited]
  | other rest ih =>
    obtain ⟨plain, none_, tree⟩ := tree
    have inside : i < 4 := tree.le
    rw [entriesFrom_cons inside]
    obtain ⟨first, index⟩ := @extendEntry_other disk diskNumber e
      (parseExtendPartition disk diskNumber fuel) (extendCalls disk diskNumber fuel) base sector at_ i
      loaded inside plain none_
    have recursions := first.recursions
    have second := @ih fuel base sector at_ (i + 1) _ tree
      (fun a small => (first.frame _ (by omega)).trans (loaded a small)) (by
        have same : (Entries.other rest).links = rest.links := rfl
        omega) enough
    -- The entry itself adds nothing to what the entries behind it leave.
    have both := first.step rfl (fun _ => index) second
    simp only [Nat.zero_add, List.nil_append, List.length_nil, Nat.add_zero, true_and] at both
    exact both
  | partition start rest ih =>
    obtain ⟨plain, some_, known, rfl, tree⟩ := tree
    have inside : i < 4 := tree.le
    rw [entriesFrom_cons inside]
    obtain ⟨first, index⟩ := @extendEntry_partition disk diskNumber e
      (parseExtendPartition disk diskNumber fuel) (extendCalls disk diskNumber fuel) base sector at_ i
      loaded inside plain some_ known
    have recursions := first.recursions
    have second := @ih fuel base sector at_ (i + 1) _ tree
      (fun a small => (first.frame _ (by omega)).trans (loaded a small)) (by
        have same : (Entries.partition (u64 (sector + entryFront disk.bytes (diskEntry sector i)))
          rest).links = rest.links := rfl
        omega) enough
    -- The slot behind this partition is the next one.
    have both := first.step rfl index second
    simp only [Nat.zero_add, List.length_singleton, List.singleton_append, true_and] at both
    exact both
  | link record rest ihRecord ihRest =>
    obtain ⟨leads, isRecord, inner, tree⟩ := tree
    have inside : i < 4 := tree.le
    have all : (Entries.link record rest).links = 1 + record.links + rest.links := rfl
    obtain ⟨fuel, rfl⟩ : ∃ n, fuel = n + 1 := ⟨fuel - 1, by omega⟩
    rw [entriesFrom_cons inside]
    have front := entryFront_congr (loaded.entry inside)
    -- The record the entry leads to is walked with the buffer behind this one.
    have walked := @parseExtendPartition_ran disk diskNumber record fuel (at_ + 0x1be + 16 * i)
      e.partitionIndex base (at_ + 512) e.s
      (u32 (entryFront disk.bytes (diskEntry sector i) + base)) (by rw [front]) isRecord (by omega)
      (fun e' loaded' limit' => by
        rw [recordEntries_eq]
        exact ihRecord inner loaded' limit' (by omega))
    obtain ⟨first, index⟩ := @extendEntry_link disk diskNumber e
      (parseExtendPartition disk diskNumber (fuel + 1)) (extendCalls disk diskNumber (fuel + 1)) base
      sector at_ i record loaded inside leads walked
    have recursions := first.recursions
    have second := @ihRest (fuel + 1) base sector at_ (i + 1) _ tree
      (fun a small => (first.frame _ (by omega)).trans (loaded a small)) (by omega) (by omega)
    -- Behind the link the index has advanced by all partitions found in this record so far.
    have both := first.step (Entries.slots_length _ _ _) index second
    exact both

/-! ### A whole call -/

/-- The call records the tree exactly when the tree fits and no partition of it is refused. -/
theorem parseExtendPartition_records_iff {t : Entries} {prt index base at_ : Nat} {s : Discovery}
    (tree : t.Behind disk prt base s) (limit : s.recursiveTimes + 1 + t.links < 32) :
    RecordsTree t index s (parseExtendPartition disk diskNumber 32 prt index base at_ s)
      ↔ t.Fits index 0
        ∧ ∀ c ∈ extendCalls disk diskNumber 32 prt index base at_ s, ¬ c.Refused disk diskNumber := by
  obtain ⟨record, tree⟩ := tree
  have ran := @parseExtendPartition_ran disk diskNumber t 31 prt index base at_ s _ rfl record limit
    (fun e loaded limit' => by
      rw [recordEntries_eq]
      exact extendLoop_ran t tree loaded limit' (by omega))
  obtain ⟨-, -, -, all, wrote⟩ := ran
  simp only [Nat.zero_add] at all wrote
  rw [Entries.fits_iff]
  constructor
  · intro records
    obtain ⟨kept, visited⟩ := all.mp records.count
    refine ⟨⟨visited, ?_⟩, kept⟩
    obtain ⟨slots, accesses, exactly⟩ := records.exactly
    rw [(wrote records.count).accesses] at accesses
    have same := List.append_cancel_right accesses
    -- The slots written climb and are just those in a row.
    have row := (Entries.slots_climbs t index 0).eq_range' fun i => by
      rw [Entries.slots_length, ← exactly i]
      have mem := @List.mem_reverse _ (Access.slot i) ((t.slots index 0).map Access.slot)
      rw [same] at mem
      simpa using mem.symm
    rwa [Entries.slots_length] at row
  · rintro ⟨⟨visited, row⟩, kept⟩
    have full := all.mpr ⟨kept, visited⟩
    have written := wrote full
    rw [row] at written
    refine ⟨full, fun k short => ?_, ⟨(List.range' index t.starts.length).reverse, ?_, fun i => ?_⟩,
      fun i other => ?_⟩
    -- The slots of the row are different, so none was written over.
    · refine written.filled List.nodup_range' (index + k, t.starts[k]) ?_
      have place : k < ((List.range' index t.starts.length).zip t.starts).length := by
        simpa using short
      have pair : ((List.range' index t.starts.length).zip t.starts)[k]
          = (index + k, t.starts[k]) := by
        simp
      rw [← pair]
      exact List.getElem_mem place
    · rw [written.accesses, List.map_reverse]
    · rw [List.mem_reverse, List.mem_range'_1]
    · refine written.others i fun mem => ?_
      have inside := List.mem_range'_1.mp mem
      omega

/-- A boot record whose entries have these types and first sectors, all below 256. -/
def recordImage (entries : List (Nat × Nat)) (a : Nat) : Byte :=
  if a = 0x1fe then 0x55
  else if a = 0x1ff then 0xaa
  else if a < 0x1be then 0
  else
    let entry := entries.getD ((a - 0x1be) / 16) (0, 0)
    if (a - 0x1be) % 16 = 4 then UInt8.ofNat entry.1
    else if (a - 0x1be) % 16 = 8 then UInt8.ofNat entry.2
    else 0

/-- A disk with some boot records, whose partitions have empty boot sectors. -/
def recordsDisk (records : Nat → Option (List (Nat × Nat))) : ScanDisk where
  bytes a := ((records (a / 512)).map fun entries => recordImage entries (a % 512)).getD 0
  totalsector := 1000
  readable _ _ := true

/-- The extended partition starts at sector 10; the record in it has a partition and a link. -/
def chainDisk : ScanDisk :=
  recordsDisk fun sector =>
    if sector = 10 then some [(NTFS, 1), (EXTEND_PARTITION, 20)]
    else if sector = 30 then some [(NTFS, 1)]
    else none

/-- The entry in the buffer that leads to it. -/
def chainStart : Discovery where
  buffer := recordImage [(EXTEND_PARTITION, 10)]

/-- A chain with one partition in each record. -/
theorem parseExtendPartition_records_chain :
    RecordsTree (.partition 11 (.link (.partition 31 (.other (.other (.other .nil))))
        (.other (.other .nil)))) 0 chainStart
      (parseExtendPartition chainDisk 0 32 0x1be 0 0 512 chainStart) ↔
    Entries.Fits (.partition 11 (.link (.partition 31 (.other (.other (.other .nil))))
        (.other (.other .nil)))) 0 0
      ∧ ∀ c ∈ extendCalls chainDisk 0 32 0x1be 0 0 512 chainStart, ¬ c.Refused chainDisk 0 :=
  parseExtendPartition_records_iff (by decide) (by decide)

/-- The record has another partition behind the link. -/
def forkDisk : ScanDisk :=
  recordsDisk fun sector =>
    if sector = 10 then some [(NTFS, 1), (EXTEND_PARTITION, 20), (NTFS, 5)]
    else if sector = 30 then some [(NTFS, 1)]
    else none

/-- The partition behind the link comes to the slot 3, and the slot 2 stays empty. -/
theorem parseExtendPartition_skipsSlot :
    ¬ ∀ (disk : ScanDisk) (diskNumber prt index base at_ : Nat) (s : Discovery) (t : Entries),
      t.Behind disk prt base s → s.recursiveTimes + 1 + t.links < 32 →
        RecordsTree t index s (parseExtendPartition disk diskNumber 32 prt index base at_ s) := by
  intro always
  -- The link is the second of three entries, with a partition before it and one behind it.
  have records := always forkDisk 0 0x1be 0 0 512 chainStart
    (.partition 11 (.link (.partition 31 (.other (.other (.other .nil))))
      (.partition 15 (.other .nil)))) (by decide) (by decide)
  exact absurd (records.filled 2 (by decide)) (by decide +kernel)

end Okr
