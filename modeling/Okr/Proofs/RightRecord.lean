import Okr.Proofs.SmallDisk

/-! The record the path moves is the one it took WinRE's size from only when its searches agree. -/

namespace Okr

open Slots (Slot)

/-- The type of an entry. -/
def entryType (buffer : Image) (k : Nat) : Bytes := bytesAt buffer (entryPos k) 16

/-- The record from which `GetWirePartSector` takes the size of WinRE. -/
def sizedRecord (stack : Stack) (header : OkrHeader) : Nat :=
  (header.findRecord isWinRE).getD stack.wirecount

/--
Only the record that gave the size is moved, to the place of the entry made for it.

The record moved and the entry are those of the last assignment to a record's first sector.
-/
structure MovesRight (heap : Image) (header : OkrHeader) (wire : Nat) (after : NewDisk) : Prop where
  same : ∀ i k, after.moved = some (i, k) → i = wire
  place : ∀ i k, after.moved = some (i, k) →
    (after.header.partition i).bootBegin = startingLBA (readGpt after.disk heap) k
  type : ∀ i k, after.moved = some (i, k) →
    entryType (readGpt after.disk heap) k = windowRecoveryTypeGuid
  others : ∀ j, (∀ k, after.moved ≠ some (j, k)) →
    (after.header.partition j).bootBegin = (header.partition j).bootBegin

/-- A recovery record that is restored. -/
def isRestoredRecovery (p : PartitionInfo) : Bool := p.bIfBackup && isRecoveryType p

/-- The first restored recovery record behind that of the operating system. -/
def recoveryBehind (header : OkrHeader) : Option Nat :=
  let partcCount := (header.findRecord isOsRecord).getD 0
  (List.range' (partcCount + 1) (header.partitionCount - (partcCount + 1))).find? fun i =>
    isRestoredRecovery (header.partition i)

/-- Does the disk carry a table the path can change? -/
def hasTable (fw : Firmware) (n : NewDisk) : Bool :=
  isGPT n.disk && isEfiPart (readGpt n.disk fw.heap)

/-- Does the first function of the path find the entry of the operating system? -/
def findsSystem (fw : Firmware) (bootBegin totalSector : Nat) (n : NewDisk) : Bool :=
  bootBegin != 0 && totalSector != 0 && hasTable fw n
    && decide (entryStarting (readGpt n.disk fw.heap) bootBegin ≤ 28)

/-- Does the data partition start in sector 0, which is then cleared? -/
def clearsFront (bootBegin totalSector : Nat) (n : NewDisk) : Bool :=
  decide (n.totalsector > u64 (0x64000 + u64 (u64 (bootBegin + totalSector) + n.wireTotalSectors)))
    && decide (u64 (bootBegin + totalSector + 0xF) < 16)

/-- The record the path moves, told from the header and the table it finds. -/
def movedRecord (fw : Firmware) (bootBegin totalSector : Nat) (n : NewDisk) : Option Nat :=
  if n.isNoDataPartFlag then
    if findsSystem fw bootBegin totalSector n then n.header.findRecord isRecoveryType else none
  else if ¬ hasTable fw n then none
  else if findsSystem fw bootBegin totalSector n then
    if clearsFront bootBegin totalSector n then none else recoveryBehind n.header
  else (chooseRecord (readGpt n.disk fw.heap) n.header).map Prod.fst

/-! ### Which record the loop stops at -/

/-- With a free entry the loop stops at the first restored recovery record. -/
theorem recordLoop_free {buffer : Image} (free : freeEntry buffer < gptEntries) (header : OkrHeader)
    (count i : Nat) :
    (recordLoop buffer header count i).map Prod.fst
      = (List.range' i count).find? fun i => isRestoredRecovery (header.partition i) := by
  induction count generalizing i with
  | zero => rfl
  | succ count ih =>
    rw [List.range'_succ]
    by_cases recovery : isRestoredRecovery (header.partition i) = true
    · -- The entry is the one at the record's place, or else the free one.
      have stop : ∃ k, entryFor buffer (header.partition i) = some k := by
        have is_ : ((header.partition i).bIfBackup && isRecoveryType (header.partition i)) = true :=
          recovery
        simp only [entryFor, if_pos is_]
        by_cases place : entryOfRecord buffer (header.partition i) < gptEntries
        · simp only [if_pos place]
          exact ⟨_, rfl⟩
        · simp only [if_neg place, if_pos free]
          exact ⟨_, rfl⟩
      obtain ⟨k, stop⟩ := stop
      simp only [recordLoop, stop, Option.map_some, List.find?_cons, recovery]
    · have pass : entryFor buffer (header.partition i) = none := if_neg recovery
      simp only [recordLoop, pass, List.find?_cons, Bool.eq_false_of_not_eq_true recovery]
      exact ih (i + 1)

/-- Which record and entry are chosen depends on the places of the entries alone. -/
theorem chooseRecord_congr {buffer buffer' : Image} (header : OkrHeader)
    (same : ∀ k < gptEntries, slotAt buffer' k = slotAt buffer k) :
    chooseRecord buffer' header = chooseRecord buffer header := by
  have first : ∀ k < gptEntries, startingLBA buffer' k = startingLBA buffer k :=
    fun k inside => congrArg Slot.first (same k inside)
  have last : ∀ k < gptEntries, endingLBA buffer' k = endingLBA buffer k :=
    fun k inside => congrArg Slot.last (same k inside)
  have place : ∀ p, entryOfRecord buffer' p = entryOfRecord buffer p :=
    fun p => findEntry_congr fun k inside => by rw [first k inside]
  have free : freeEntry buffer' = freeEntry buffer :=
    findEntry_congr fun k inside => by rw [first k inside, last k inside]
  have entry : ∀ p, entryFor buffer' p = entryFor buffer p := by
    intro p
    simp only [entryFor, place, free]
  have loop : ∀ count i, recordLoop buffer' header count i = recordLoop buffer header count i := by
    intro count
    induction count with
    | zero => exact fun _ => rfl
    | succ count ih =>
      intro i
      simp only [recordLoop, entry, ih]
  exact loop _ _

/-- The entry chosen is one of the table. -/
theorem chooseRecord_inside {buffer : Image} {header : OkrHeader} {i k : Nat}
    (chosen : chooseRecord buffer header = some (i, k)) : k < gptEntries := by
  have inside : ∀ p k, entryFor buffer p = some k → k < gptEntries := by
    intro p k found
    unfold entryFor at found
    grind
  have loop : ∀ count i', recordLoop buffer header count i' = some (i, k) → k < gptEntries := by
    intro count
    induction count with
    | zero => exact fun _ stop => nomatch stop
    | succ count ih =>
      intro i' stop
      rw [recordLoop] at stop
      cases found : entryFor buffer (header.partition i') with
      | none =>
        rw [found] at stop
        exact ih (i' + 1) stop
      | some l =>
        rw [found] at stop
        simp only [Option.some.injEq, Prod.mk.injEq] at stop
        exact stop.2 ▸ inside _ _ found
  exact loop _ _ chosen

/-- An entry that was cleared is free. -/
theorem freeEntry_cleared {buffer : Image} {i : Nat} (behind : i < gptEntries) :
    freeEntry (clearFrom buffer i) < gptEntries := by
  have zero : startingLBA (clearFrom buffer i) i = 0 := by
    apply le64_zero
    intro a below
    rw [Nat.add_assoc]
    exact clearFrom_byte (Nat.le_refl i) behind (by omega)
  unfold freeEntry findEntry
  have size : (List.range gptEntries).length = gptEntries := List.length_range
  refine Nat.lt_of_lt_of_eq (List.findIdx_lt_length_of_exists ?_) size
  refine ⟨i, List.mem_range.mpr behind, ?_⟩
  rw [zero]
  rfl

/-! ### The path keeps the marks by which the table is known -/

/-- What follows the last entry kept is behind the header. -/
theorem sameHeader_keepWinRE {m i : Nat} {buffer : Image} {n : NewDisk} :
    SameHeader buffer (keepWinRE m i buffer n) := by
  unfold keepWinRE
  split
  · exact sameHeader_copyMem.trans sameHeader_clearFrom
  · exact sameHeader_clearFrom

/-- The entries of `FixNewHDD` leave the header. -/
theorem sameHeader_newHddEntries (fw : Firmware) (bootBegin totalSector k : Nat) (buffer : Image)
    (n : NewDisk) : SameHeader buffer (newHddEntries fw bootBegin totalSector k buffer n).1 := by
  have data : SameHeader buffer (addDataEntry fw bootBegin totalSector k buffer n) :=
    ((sameHeader_copyMem.trans (SameHeader.put (by unfold entryPos; omega))).trans
      (SameHeader.put (by unfold entryPos; omega))).trans sameHeader_putPlace
  have grown : SameHeader buffer (growSystem k buffer n) := SameHeader.put (by unfold entryPos; omega)
  simp only [newHddEntries]
  split
  · exact data.trans sameHeader_keepWinRE
  · exact grown.trans sameHeader_keepWinRE

/-- The first sector of the disk decides whether it is a GPT disk. -/
theorem isGPT_congr {disk disk' : Image} (same : ∀ a < 512, disk' a = disk a) :
    isGPT disk' = isGPT disk := by
  have signature : le16 disk' 0x1fe = le16 disk 0x1fe :=
    le16_congr fun a below => same _ (by omega)
  have types : ((List.range 4).any fun i => disk' (0x1be + 16 * i + 4) == 0xEE
        || disk' (0x1be + 16 * i + 4) == 0xEF)
      = (List.range 4).any fun i => disk (0x1be + 16 * i + 4) == 0xEE
        || disk (0x1be + 16 * i + 4) == 0xEF := by
    rw [Bool.eq_iff_iff, List.any_eq_true, List.any_eq_true]
    have each : ∀ i ∈ List.range 4, disk' (0x1be + 16 * i + 4) = disk (0x1be + 16 * i + 4) := by
      intro i member
      have inside : i < 4 := List.mem_range.mp member
      exact same _ (by omega)
    constructor
    · rintro ⟨i, member, is_⟩
      exact ⟨i, member, by rw [← each i member]; exact is_⟩
    · rintro ⟨i, member, is_⟩
      exact ⟨i, member, by rw [each i member]; exact is_⟩
  rw [isGPT, isGPT, signature, types]

/-- A disk whose first sector was cleared is no GPT disk. -/
theorem isGPT_cleared (disk : Image) : isGPT (clearSector 0 disk) = false := by
  have zero : le16 (clearSector 0 disk) 0x1fe = 0 := rfl
  rw [isGPT, zero]
  rfl

/-- Writing the table leaves the first sector. -/
theorem isGPT_writeTable (buffer disk : Image) :
    isGPT (diskWrite disk 1 (GPT_SIZE / 512) buffer) = isGPT disk :=
  isGPT_congr fun a below => diskWrite_other (by simp only [SECTOR_SIZE, GPT_SIZE]; omega)

/-- Clearing another sector leaves the first one. -/
theorem isGPT_clearSector {sector : Nat} (positive : 0 < sector) (disk : Image) :
    isGPT (clearSector sector disk) = isGPT disk :=
  isGPT_congr fun a below => diskWrite_other (by simp only [SECTOR_SIZE]; omega)

/-! ### A record moved to the entry made for it -/

/-- Record `i` was moved to entry `k`, and nothing else in the header changed. -/
structure MovedTo (heap : Image) (header : OkrHeader) (after : NewDisk) (i k : Nat) : Prop where
  moved : after.moved = some (i, k)
  header : after.header = header.setBootBegin i (startingLBA (readGpt after.disk heap) k)
  type : entryType (readGpt after.disk heap) k = windowRecoveryTypeGuid

/-- A move is right when it is the move of the record that gave the size. -/
theorem MovedTo.right {heap : Image} {header : OkrHeader} {after : NewDisk} {i k : Nat}
    (done : MovedTo heap header after i k) (wire : Nat) :
    MovesRight heap header wire after ↔ i = wire := by
  constructor
  · exact fun right => right.same i k done.moved
  · intro same
    have only : ∀ j l, after.moved = some (j, l) → i = j ∧ k = l := by
      intro j l moved
      rw [done.moved, Option.some.injEq, Prod.mk.injEq] at moved
      exact moved
    -- One record was moved, so each condition speaks of that one.
    refine ⟨?_, ?_, ?_, ?_⟩
    · intro j l moved
      rw [← (only j l moved).1]
      exact same
    · intro j l moved
      obtain ⟨record, entry⟩ := only j l moved
      subst record entry
      rw [done.header, OkrHeader.setBootBegin]
      simp only [if_true]
    · intro j l moved
      rw [← (only j l moved).2]
      exact done.type
    · intro j other
      have apart : j ≠ i := fun record => other k (by rw [record]; exact done.moved)
      rw [done.header, OkrHeader.setBootBegin]
      simp only [if_neg apart]

/-- When no record is moved, there is nothing to get wrong. -/
theorem movesRight_of_none {heap : Image} {header : OkrHeader} {wire : Nat} {after : NewDisk}
    (none_ : after.moved = none) (kept : after.header = header) :
    MovesRight heap header wire after := by
  have no : ∀ i k, after.moved ≠ some (i, k) := by
    intro i k
    rw [none_]
    exact fun moved => nomatch moved
  refine ⟨fun i k moved => absurd moved (no i k), fun i k moved => absurd moved (no i k),
    fun i k moved => absurd moved (no i k), fun j _ => ?_⟩
  rw [kept]

/-- The same bytes are the same type. -/
theorem SameEntry.type {buffer buffer' : Image} {k : Nat} (same : SameEntry buffer buffer' k) :
    entryType buffer' k = entryType buffer k :=
  bytesAt_congr fun a below => same a (by omega)

/-- The entry made for WinRE is of the recovery type. -/
theorem entryType_putWinRE (buffer : Image) (k first last : Nat) :
    entryType (putWinRE buffer k first last) k = windowRecoveryTypeGuid := by
  have byte : ∀ a ∈ List.range 16, putWinRE buffer k first last (entryPos k + a)
      = windowRecoveryTypeGuid.getD a 0 :=
    fun a member => putWinRE_type (List.mem_range.mp member)
  rw [entryType, bytesAt, List.map_congr_left byte]
  rfl

/-- The table written with an entry for WinRE has it there on the disk. -/
theorem written_winRE (crc32 : Bytes → Nat) {totalsector : Nat} (copies : 67 ≤ totalsector)
    (fits : totalsector < 2 ^ 64) (buffer disk heap : Image) {k first last : Nat}
    (inside : k < gptEntries) (word : first < 2 ^ 64) (word' : last < 2 ^ 64) :
    let table := readGpt (writeGptCopies crc32 totalsector
      (sealGpt crc32 (clearFrom (putWinRE buffer k first last) (k + 1))) disk) heap
    startingLBA table k = first ∧ entryType table k = windowRecoveryTypeGuid := by
  have same : SameEntry (putWinRE buffer k first last)
      (readGpt (writeGptCopies crc32 totalsector
        (sealGpt crc32 (clearFrom (putWinRE buffer k first last) (k + 1))) disk) heap) k :=
    (sameEntry_clearFrom (Nat.lt_succ_self k)).trans
      (sameEntry_written crc32 copies fits _ disk heap inside)
  constructor
  · have slot := same.slot.trans (slotAt_putWinRE word word')
    exact congrArg Slot.first slot
  · rw [same.type]
    exact entryType_putWinRE buffer k first last

/-- The record given is moved, and no other; without one the header stays. -/
def Moves (heap : Image) (header : OkrHeader) (after : NewDisk) : Option Nat → Prop
  | none => after.moved = none ∧ after.header = header
  | some i => ∃ k, MovedTo heap header after i k

/-- The move is right when the record moved, if there is one, gave the size. -/
theorem Moves.right {heap : Image} {header : OkrHeader} {after : NewDisk} {record : Option Nat}
    (moves : Moves heap header after record) (wire : Nat) :
    MovesRight heap header wire after ↔ ∀ i, record = some i → i = wire := by
  cases record with
  | none =>
    constructor
    · exact fun _ i some_ => nomatch some_
    · exact fun _ => movesRight_of_none moves.1 moves.2
  | some i =>
    obtain ⟨k, done⟩ := moves
    rw [done.right wire]
    constructor
    · intro same j other
      rw [← Option.some.inj other]
      exact same
    · exact fun each => each i rfl

/-- The record moved is the one given. -/
theorem Moves.record {heap : Image} {header : OkrHeader} {after : NewDisk} {record : Option Nat}
    (moves : Moves heap header after record) : after.moved.map Prod.fst = record := by
  cases record with
  | none => rw [moves.1, Option.map_none]
  | some i =>
    obtain ⟨k, done⟩ := moves
    rw [done.moved, Option.map_some]

/-! ### The first function -/

/-- The repair of an MBR touches the disk and the flag alone. -/
theorem fixMbr_rest (bootBegin totalSector : Nat) (n : NewDisk) :
    ∃ disk small, (fixMbr bootBegin totalSector n).getD n
      = { n with disk := disk, fixSmallc := small } := by
  simp only [fixMbr]
  split
  · exact ⟨n.disk, n.fixSmallc, rfl⟩
  · split
    · exact ⟨_, _, rfl⟩
    · exact ⟨_, _, rfl⟩

/-- `FixNoDataPartTable` keeps the flag and the state by which the path goes on. -/
theorem fixNoDataPartTable_rest (fw : Firmware) (bootBegin totalSector : Nat) (n : NewDisk) :
    ∃ disk header small moved, fixNoDataPartTable fw bootBegin totalSector n
      = { n with disk := disk, header := header, fixSmallc := small, moved := moved } := by
  have update : ∀ k first, ∃ header moved, updateOKRHeaderInfo k first n
      = { n with header := header, moved := moved } := by
    intro k first
    cases record : n.header.findRecord isRecoveryType with
    | none => exact ⟨n.header, n.moved, by simp only [updateOKRHeaderInfo, record]⟩
    | some i => exact ⟨_, _, by simp only [updateOKRHeaderInfo, record]; rfl⟩
  have entries : ∀ k buffer, ∃ disk header small moved, (noDataEntries bootBegin totalSector k buffer n).2
      = { n with disk := disk, header := header, fixSmallc := small, moved := moved } := by
    intro k buffer
    simp only [noDataEntries]
    split
    · split
      · obtain ⟨header, moved, eq⟩ := update (k + 1) (low16 (u64 (bootBegin + totalSector + 0xF)))
        rw [eq]
        exact ⟨_, _, _, _, rfl⟩
      · exact ⟨_, _, _, _, rfl⟩
    · split
      · obtain ⟨header, moved, eq⟩ := update (k + 1) (low16 (u64 (bootBegin
          + sub64 (sub64 n.totalsector (u64 (bootBegin + n.wireTotalSectors))) 0x22)))
        rw [eq]
        exact ⟨_, _, _, _, rfl⟩
      · exact ⟨_, _, _, _, rfl⟩
  have same : ∃ disk header small moved,
      n = { n with disk := disk, header := header, fixSmallc := small, moved := moved } :=
    ⟨_, _, _, _, rfl⟩
  -- Each way through the function ends in one of these steps or changes nothing.
  rw [fixNoDataPartTable]
  by_cases nothing : bootBegin = 0 ∨ totalSector = 0
  · rw [if_pos nothing]
    exact same
  rw [if_neg nothing]
  by_cases gpt : isGPT n.disk = true
  · rw [if_pos gpt]
    cases fittedGpt fw n with
    | none => exact same
    | some buffer =>
      cases os : findOs buffer bootBegin with
      | none =>
        simp only [os]
        exact same
      | some k =>
        obtain ⟨disk, header, small, moved, rest⟩ := entries k buffer
        simp only [os, rest]
        exact ⟨_, _, _, _, rfl⟩
  · obtain ⟨disk, small, rest⟩ := fixMbr_rest bootBegin totalSector n
    rw [if_neg gpt, rest]
    exact ⟨_, _, _, _, rfl⟩

/-- With WinRE to be placed, `FixNoDataPartTable` makes the entry behind the system's that of WinRE. -/
theorem noDataEntries_winRE {bootBegin totalSector k : Nat} {buffer : Image} {n : NewDisk}
    (state : n.winREState ≠ 0) :
    ∃ buffer' disk first last small, first < 2 ^ 64 ∧ last < 2 ^ 64
      ∧ noDataEntries bootBegin totalSector k buffer n
        = (clearFrom (putWinRE buffer' (k + 1) first last) (k + 2),
            { updateOKRHeaderInfo (k + 1) first n with disk := disk, fixSmallc := small }) := by
  simp only [noDataEntries, if_pos state]
  split
  · exact ⟨_, _, _, _, _, low16_lt (u64_lt _), low256_lt (u64_lt _), rfl⟩
  · exact ⟨_, _, _, _, _, low16_lt (u64_lt _), low256_lt (u64_lt _), rfl⟩

/-- What `FixNoDataPartTable` moves. -/
theorem fixNoData_moves {fw : Firmware} {bootBegin totalSector : Nat} {n : NewDisk}
    (fits : n.totalsector < 2 ^ 64) (copies : 67 ≤ n.totalsector) (state : n.winREState ≠ 0)
    (unset : n.moved = none) :
    Moves fw.heap n.header (fixNoDataPartTable fw bootBegin totalSector n)
      (if findsSystem fw bootBegin totalSector n then n.header.findRecord isRecoveryType else none) := by
  -- The record is moved only where the system is found in a table; every other way is quick.
  by_cases nothing : bootBegin = 0 ∨ totalSector = 0
  · have not_ : ¬ findsSystem fw bootBegin totalSector n = true := by
      simp only [findsSystem, Bool.and_eq_true, bne_iff_ne]
      omega
    rw [fixNoDataPartTable, if_pos nothing, if_neg not_]
    exact ⟨unset, rfl⟩
  rw [fixNoDataPartTable, if_neg nothing]
  by_cases gpt : isGPT n.disk = true
  · rw [if_pos gpt]
    by_cases efi : isEfiPart (readGpt n.disk fw.heap) = true
    · simp only [fittedGpt, if_pos efi, findOs_eq]
      by_cases far : 28 < entryStarting (readGpt n.disk fw.heap) bootBegin
      · have not_ : ¬ findsSystem fw bootBegin totalSector n = true := by
          simp only [findsSystem, Bool.and_eq_true, decide_eq_true_eq]
          omega
        rw [if_pos far, if_neg not_]
        exact ⟨unset, rfl⟩
      · have found : findsSystem fw bootBegin totalSector n = true := by
          simp only [findsSystem, hasTable, gpt, efi, Bool.and_eq_true, bne_iff_ne,
            decide_eq_true_eq, and_true]
          omega
        simp only [if_neg far, if_pos found]
        generalize entryStarting (readGpt n.disk fw.heap) bootBegin = k at far
        obtain ⟨buffer', disk, first, last, small, word, word', entries⟩ :=
          @noDataEntries_winRE bootBegin totalSector k
            (fitHeader n.totalsector (readGpt n.disk fw.heap)) n state
        have inside : k + 1 < gptEntries := by
          simp only [gptEntries]
          omega
        -- Where it is found, the entry written is the one of WinRE.
        obtain ⟨place, type⟩ :=
          written_winRE fw.crc32 copies fits buffer' disk fw.heap inside word word'
        rw [entries]
        cases record : n.header.findRecord isRecoveryType with
        | none =>
          have same : updateOKRHeaderInfo (k + 1) first n = n := by
            simp only [updateOKRHeaderInfo, record]
          rw [same]
          exact ⟨unset, rfl⟩
        | some i =>
          have moved : updateOKRHeaderInfo (k + 1) first n
              = { n with header := n.header.setBootBegin i first, moved := some (i, k + 1) } := by
            simp only [updateOKRHeaderInfo, record]
          rw [moved]
          refine ⟨k + 1, rfl, ?_, ?_⟩
          · dsimp only
            rw [place]
          · dsimp only
            exact type
    · have not_ : ¬ findsSystem fw bootBegin totalSector n = true := by
        simp only [findsSystem, hasTable, efi, Bool.and_eq_true]
        simp
      simp only [fittedGpt, if_neg efi, if_neg not_]
      exact ⟨unset, rfl⟩
  · have not_ : ¬ findsSystem fw bootBegin totalSector n = true := by
      simp only [findsSystem, hasTable, gpt, Bool.and_eq_true]
      simp
    obtain ⟨disk, small, rest⟩ := fixMbr_rest bootBegin totalSector n
    rw [if_neg gpt, if_neg not_, rest]
    exact ⟨unset, rfl⟩

/-- `FixNewHDD` touches the disk and the flag alone. -/
theorem fixNewHDD_rest (fw : Firmware) (bootBegin totalSector : Nat) (n : NewDisk) :
    ∃ disk small, fixNewHDD fw bootBegin totalSector n = { n with disk := disk, fixSmallc := small } := by
  have entries : ∀ k buffer, ∃ disk small, (newHddEntries fw bootBegin totalSector k buffer n).2
      = { n with disk := disk, fixSmallc := small } := by
    intro k buffer
    simp only [newHddEntries]
    split
    · exact ⟨_, _, rfl⟩
    · exact ⟨_, _, rfl⟩
  have same : ∃ disk small, n = { n with disk := disk, fixSmallc := small } := ⟨_, _, rfl⟩
  -- Each way through the function ends in the entries or changes nothing.
  rw [fixNewHDD]
  by_cases nothing : bootBegin = 0 ∨ totalSector = 0
  · rw [if_pos nothing]
    exact same
  rw [if_neg nothing]
  by_cases gpt : isGPT n.disk = true
  · rw [if_pos gpt]
    cases fittedGpt fw n with
    | none => exact same
    | some buffer =>
      cases os : findOs buffer bootBegin with
      | none =>
        simp only [os]
        exact same
      | some k =>
        obtain ⟨disk, small, rest⟩ := entries k buffer
        simp only [os, rest]
        exact ⟨_, _, rfl⟩
  · rw [if_neg gpt]
    exact fixMbr_rest bootBegin totalSector n

/-- The types in the first sector are those before, or not that of a GPT. -/
theorem isGPT_types {disk disk' : Image} (mbr : ¬ isGPT disk = true)
    (signature : le16 disk' 0x1fe = le16 disk 0x1fe)
    (types : ∀ i < 4, disk' (0x1be + 16 * i + 4) = disk (0x1be + 16 * i + 4)
      ∨ disk' (0x1be + 16 * i + 4) = 0 ∨ disk' (0x1be + 16 * i + 4) = 7) :
    ¬ isGPT disk' = true := by
  intro gpt
  apply mbr
  simp only [isGPT, Bool.and_eq_true, List.any_eq_true, List.mem_range] at gpt ⊢
  obtain ⟨marked, i, inside, type⟩ := gpt
  rw [signature] at marked
  refine ⟨marked, i, inside, ?_⟩
  rcases types i inside with same | zero | ntfs
  · rw [← same]
    exact type
  · rw [zero] at type
    exact absurd type (by decide)
  · rw [ntfs] at type
    exact absurd type (by decide)

/-- The repair of an MBR makes no GPT disk of it. -/
theorem isGPT_fixMbr {bootBegin totalSector : Nat} {n : NewDisk} (mbr : ¬ isGPT n.disk = true) :
    ¬ isGPT ((fixMbr bootBegin totalSector n).getD n).disk = true := by
  simp only [fixMbr]
  have sector : ∀ a < 512, diskRead n.disk 0 1 (fun _ => 0) a = n.disk a := by
    intro a below
    rw [diskRead, if_pos (by simp only [SECTOR_SIZE]; omega)]
    congr 1
    omega
  have written : ∀ (buffer disk : Image), ∀ a < 512, diskWrite disk 0 1 buffer a = buffer a := by
    intro buffer disk a below
    rw [diskWrite, if_pos (by simp only [SECTOR_SIZE]; omega)]
    congr 1
  generalize diskRead n.disk 0 1 (fun _ => 0) = buffer at sector
  have start : (List.range 4).findIdx (fun i => le32 buffer (0x1c6 + i * 16) == u32 bootBegin)
      = mbrStarting buffer bootBegin := rfl
  rw [start]
  by_cases nothing : le16 buffer 0x1fe ≠ 0xaa55 ∨ mbrStarting buffer bootBegin = 4
  · rw [if_pos nothing]
    exact mbr
  rw [if_neg nothing]
  by_cases room : n.totalsector > u64 (0x64000 + (bootBegin + totalSector))
      ∧ mbrStarting buffer bootBegin < 3
  · rw [if_pos room]
    generalize mbrStarting buffer bootBegin = m at room
    apply isGPT_types mbr
    · apply le16_congr
      intro a below
      dsimp only [Option.getD_some]
      rw [written _ _ _ (by omega), zeroFill_other (by omega), put_other (by omega), put_other (by omega),
        putBytes_other (by simp only [List.length_cons, List.length_nil]; omega), sector _ (by omega)]
    · intro i inside
      dsimp only [Option.getD_some]
      rw [written _ _ _ (by omega)]
      rcases Nat.lt_trichotomy i (m + 1) with front | new | behind
      · left
        rw [zeroFill_other (by omega), put_other (by omega), put_other (by omega),
          putBytes_other (by simp only [List.length_cons, List.length_nil]; omega), sector _ (by omega)]
      · -- The entry added is that of a data partition.
        right; right
        rw [zeroFill_other (by omega), put_other (by omega), put_other (by omega), putBytes,
          if_pos (by simp only [List.length_cons, List.length_nil]; omega)]
        have fourth : 0x1be + 16 * i + 4 - (0x1be + 16 * (m + 1)) = 4 := by omega
        rw [fourth]
        rfl
      · right; left
        exact zeroFill_inside (by omega)
  · rw [if_neg room]
    have inside : mbrStarting buffer bootBegin < 4 := by
      have upto := mbrStarting_le buffer bootBegin
      omega
    generalize mbrStarting buffer bootBegin = m at inside
    apply isGPT_types mbr
    · apply le16_congr
      intro a below
      dsimp only [Option.getD_some]
      rw [written _ _ _ (by omega), zeroFill_other (by omega), put_other (by omega), sector _ (by omega)]
    · intro i within
      dsimp only [Option.getD_some]
      rw [written _ _ _ (by omega)]
      by_cases front : i ≤ m
      · left
        rw [zeroFill_other (by omega), put_other (by omega), sector _ (by omega)]
      · right; left
        exact zeroFill_inside (by omega)

/-- The entries of `FixNewHDD` are followed by free ones. -/
theorem newHddEntries_free {fw : Firmware} {bootBegin totalSector k : Nat} {buffer : Image}
    {n : NewDisk} (inside : k ≤ 28) :
    ∃ buffer' i, i < gptEntries
      ∧ (newHddEntries fw bootBegin totalSector k buffer n).1 = clearFrom buffer' i := by
  have kept : ∀ m i buffer, i ≤ 30 → ∃ buffer' j, j < gptEntries
      ∧ keepWinRE m i buffer n = clearFrom buffer' j := by
    intro m i buffer front
    unfold keepWinRE
    split
    · exact ⟨_, i + 1, by simp only [gptEntries]; omega, rfl⟩
    · exact ⟨_, i, by simp only [gptEntries]; omega, rfl⟩
  simp only [newHddEntries]
  split
  · exact kept _ _ _ (by omega)
  · exact kept _ _ _ (by omega)

/-- Whether `FixNewHDD` leaves a GPT disk depends on the sector it clears. -/
theorem newHddEntries_gpt {fw : Firmware} {bootBegin totalSector k : Nat} {buffer : Image}
    {n : NewDisk} (gpt : isGPT n.disk = true) :
    isGPT (newHddEntries fw bootBegin totalSector k buffer n).2.disk
      = !clearsFront bootBegin totalSector n := by
  simp only [newHddEntries, clearsFront]
  by_cases enough : n.totalsector
      > u64 (0x64000 + u64 (u64 (bootBegin + totalSector) + n.wireTotalSectors))
  · have round := low16_eq (u64_lt (bootBegin + totalSector + 0xF))
    simp only [if_pos enough, decide_eq_true enough, Bool.true_and, round]
    by_cases front : u64 (bootBegin + totalSector + 0xF) < 16
    · have zero : u64 (bootBegin + totalSector + 0xF) / 16 * 16 = 0 := by omega
      rw [zero, isGPT_cleared, decide_eq_true front]
      rfl
    · rw [isGPT_clearSector (by omega), gpt, decide_eq_false front]
      rfl
  · simp only [if_neg enough, gpt, decide_eq_false enough, Bool.false_and, Bool.not_false]

/-- What `FixNewHDD` leaves where it finds the system: a table with a free entry, if a GPT at all. -/
theorem fixNewHDD_found {fw : Firmware} {bootBegin totalSector : Nat} {n : NewDisk}
    (found : findsSystem fw bootBegin totalSector n = true) :
    let next := fixNewHDD fw bootBegin totalSector n
    hasTable fw next = !clearsFront bootBegin totalSector n
      ∧ freeEntry (readGpt next.disk fw.heap) < gptEntries := by
  simp only [findsSystem, hasTable, Bool.and_eq_true, bne_iff_ne, decide_eq_true_eq] at found
  obtain ⟨⟨⟨positive, some_⟩, gpt, efi⟩, near⟩ := found
  have go : ¬ (bootBegin = 0 ∨ totalSector = 0) := by omega
  have far : ¬ 28 < entryStarting (readGpt n.disk fw.heap) bootBegin := by omega
  simp only [fixNewHDD, if_neg go, if_pos gpt, fittedGpt, if_pos efi, findOs_eq, if_neg far, hasTable]
  generalize entryStarting (readGpt n.disk fw.heap) bootBegin = k at near
  have table : ∀ (buffer disk : Image) (a : Nat), a < GPT_SIZE →
      readGpt (diskWrite disk 1 (GPT_SIZE / 512) buffer) fw.heap a = buffer a := by
    intro buffer disk a below
    apply diskRead_diskWrite
    simp only [GPT_SIZE, SECTOR_SIZE] at below ⊢
    omega
  constructor
  · -- The signature stands in front of everything that is changed.
    have mark : isEfiPart (readGpt (diskWrite (newHddEntries fw bootBegin totalSector k
          (fitHeader n.totalsector (readGpt n.disk fw.heap)) n).2.disk 1 (GPT_SIZE / 512)
        (sealGpt fw.crc32 (newHddEntries fw bootBegin totalSector k
          (fitHeader n.totalsector (readGpt n.disk fw.heap)) n).1)) fw.heap) = true := by
      rw [← efi]
      apply isEfiPart_congr
      intro a below
      rw [table _ _ a (by simp only [GPT_SIZE]; omega), sealGpt_other (by omega) (by omega),
        sameHeader_newHddEntries fw bootBegin totalSector k _ n a (by omega),
        fitHeader_other (by omega) (by omega) (by omega)]
    rw [isGPT_writeTable, newHddEntries_gpt gpt, mark, Bool.and_true]
  · obtain ⟨buffer', i, inside, cleared⟩ := @newHddEntries_free fw bootBegin totalSector k
      (fitHeader n.totalsector (readGpt n.disk fw.heap)) n near
    rw [cleared]
    have free := @freeEntry_cleared buffer' i inside
    have same : freeEntry (readGpt (diskWrite (newHddEntries fw bootBegin totalSector k
          (fitHeader n.totalsector (readGpt n.disk fw.heap)) n).2.disk 1 (GPT_SIZE / 512)
          (sealGpt fw.crc32 (clearFrom buffer' i))) fw.heap) = freeEntry (clearFrom buffer' i) := by
      refine findEntry_congr fun l within => ?_
      have slot := slotAt_writtenFront fw.crc32 (clearFrom buffer' i)
        (newHddEntries fw bootBegin totalSector k
          (fitHeader n.totalsector (readGpt n.disk fw.heap)) n).2.disk fw.heap within
      have first := congrArg Slot.first slot
      have last := congrArg Slot.last slot
      simp only [slotAt] at first last
      rw [first, last]
    rw [same]
    exact free

/-- Where `FixNewHDD` does not find the system, it adds no table and changes none. -/
theorem fixNewHDD_missed {fw : Firmware} {bootBegin totalSector : Nat} {n : NewDisk}
    (missed : ¬ findsSystem fw bootBegin totalSector n = true) :
    let next := fixNewHDD fw bootBegin totalSector n
    hasTable fw next = hasTable fw n ∧ (hasTable fw n = true → next = n) := by
  by_cases nothing : bootBegin = 0 ∨ totalSector = 0
  · simp only [fixNewHDD, if_pos nothing, true_and, implies_true]
  by_cases gpt : isGPT n.disk = true
  · by_cases efi : isEfiPart (readGpt n.disk fw.heap) = true
    · have far : 28 < entryStarting (readGpt n.disk fw.heap) bootBegin := by
        simp only [findsSystem, hasTable, gpt, efi, Bool.and_eq_true, bne_iff_ne, decide_eq_true_eq,
          and_true] at missed
        omega
      simp only [fixNewHDD, if_neg nothing, if_pos gpt, fittedGpt, if_pos efi, findOs_eq, if_pos far,
        true_and, implies_true]
    · simp only [fixNewHDD, if_neg nothing, if_pos gpt, fittedGpt, if_neg efi, true_and, implies_true]
  · have mbr := @isGPT_fixMbr bootBegin totalSector n gpt
    have repaired : fixNewHDD fw bootBegin totalSector n = (fixMbr bootBegin totalSector n).getD n := by
      rw [fixNewHDD, if_neg nothing, if_neg gpt]
    rw [repaired]
    simp only [hasTable, Bool.eq_false_of_not_eq_true gpt, Bool.eq_false_of_not_eq_true mbr,
      Bool.false_and, true_and, Bool.false_eq_true, false_implies]

/-! ### The second function -/

/-- What `FixNewHDDPartitionTable` moves. -/
theorem fixNewHDDPartitionTable_moves {fw : Firmware} {n : NewDisk} (fits : n.totalsector < 2 ^ 64)
    (copies : 67 ≤ n.totalsector) (unset : n.moved = none) :
    Moves fw.heap n.header (fixNewHDDPartitionTable fw n)
      (if hasTable fw n then (chooseRecord (readGpt n.disk fw.heap) n.header).map Prod.fst
        else none) := by
  -- The record is chosen from a table; without one nothing is done.
  by_cases gpt : isGPT n.disk = true
  · by_cases efi : isEfiPart (readGpt n.disk fw.heap) = true
    · have table : hasTable fw n = true := by simp only [hasTable, gpt, efi, Bool.and_self]
      have same : chooseRecord (put 4 (readGpt n.disk fw.heap) 0x10 0) n.header
          = chooseRecord (readGpt n.disk fw.heap) n.header :=
        chooseRecord_congr n.header fun k _ => (SameEntry.put_header (by decide) k).slot
      simp only [fixNewHDDPartitionTable, if_pos gpt, if_pos efi, if_pos table, same]
      cases chosen : chooseRecord (readGpt n.disk fw.heap) n.header with
      | none => exact ⟨unset, rfl⟩
      | some pair =>
        obtain ⟨i, k⟩ := pair
        obtain ⟨place, type⟩ := written_winRE fw.crc32 copies fits
          (put 4 (readGpt n.disk fw.heap) 0x10 0)
          (clearSector (low16 (sub64 (sub64 n.totalsector n.wireTotalSectors) 0x22)) n.disk) fw.heap
          (chooseRecord_inside chosen)
          (low16_lt (sub64_lt (sub64 n.totalsector n.wireTotalSectors) 0x22))
          (low256_lt (sub64_lt n.totalsector 0x22))
        refine ⟨k, rfl, ?_, ?_⟩
        · dsimp only [placeWinRE]
          rw [place]
        · dsimp only [placeWinRE]
          exact type
    · have no : ¬ hasTable fw n = true := by
        simp only [hasTable, efi, Bool.and_false]
        decide
      simp only [fixNewHDDPartitionTable, if_pos gpt, if_neg efi, if_neg no]
      exact ⟨unset, rfl⟩
  · have no : ¬ hasTable fw n = true := by
      simp only [hasTable, Bool.eq_false_of_not_eq_true gpt, Bool.false_and]
      decide
    simp only [fixNewHDDPartitionTable, if_neg gpt, if_neg no]
    exact ⟨unset, rfl⟩

/-- What both functions move together, when there is a data partition. -/
theorem fixNewHDD_moves {fw : Firmware} {bootBegin totalSector : Nat} {n : NewDisk}
    (fits : n.totalsector < 2 ^ 64) (copies : 67 ≤ n.totalsector) (unset : n.moved = none)
    (data : n.isNoDataPartFlag = false) :
    Moves fw.heap n.header (fixNewHDDPartitionTable fw (fixNewHDD fw bootBegin totalSector n))
      (movedRecord fw bootBegin totalSector n) := by
  obtain ⟨disk, small, rest⟩ := fixNewHDD_rest fw bootBegin totalSector n
  have header : (fixNewHDD fw bootBegin totalSector n).header = n.header := by rw [rest]
  have size : (fixNewHDD fw bootBegin totalSector n).totalsector = n.totalsector := by rw [rest]
  have still : (fixNewHDD fw bootBegin totalSector n).moved = none := by rw [rest]; exact unset
  have second := @fixNewHDDPartitionTable_moves fw _ (by rw [size]; exact fits)
    (by rw [size]; exact copies) still
  rw [header] at second
  have record : movedRecord fw bootBegin totalSector n
      = if hasTable fw (fixNewHDD fw bootBegin totalSector n) then
          (chooseRecord (readGpt (fixNewHDD fw bootBegin totalSector n).disk fw.heap) n.header).map
            Prod.fst
        else none := by
    have flag : ¬ n.isNoDataPartFlag = true := by rw [data]; decide
    rw [movedRecord, if_neg flag]
    by_cases found : findsSystem fw bootBegin totalSector n = true
    · -- Behind the entries `FixNewHDD` writes there is always a free one.
      obtain ⟨table, free⟩ := fixNewHDD_found found
      have before : hasTable fw n = true := by
        simp only [findsSystem, Bool.and_eq_true] at found
        exact found.1.2
      have loop : (chooseRecord (readGpt (fixNewHDD fw bootBegin totalSector n).disk fw.heap)
          n.header).map Prod.fst = recoveryBehind n.header := recordLoop_free free n.header _ _
      rw [if_neg (not_not_intro before), if_pos found, table, loop]
      cases clearsFront bootBegin totalSector n <;> rfl
    · obtain ⟨table, same⟩ := fixNewHDD_missed found
      rw [table, if_neg found]
      by_cases before : hasTable fw n = true
      · rw [if_neg (not_not_intro before), if_pos before, same before]
      · rw [if_pos before, if_neg before]
  rw [record]
  exact second

/-- What the prepared path moves: its first function, and behind it the second one when it is called. -/
theorem path_moves {fw : Firmware} {bootBegin totalSector : Nat} {n : NewDisk}
    (fits : n.totalsector < 2 ^ 64) (copies : 67 ≤ n.totalsector) (state : n.winREState ≠ 0)
    (unset : n.moved = none) :
    let next := if n.isNoDataPartFlag then fixNoDataPartTable fw bootBegin totalSector n
      else fixNewHDD fw bootBegin totalSector n
    Moves fw.heap n.header
      (if ¬ next.isNoDataPartFlag ∧ next.winREState ≠ 0 then fixNewHDDPartitionTable fw next else next)
      (movedRecord fw bootBegin totalSector n) := by
  -- The flag decides between the one function and the two behind each other.
  cases flag : n.isNoDataPartFlag with
  | true =>
    obtain ⟨disk, header, small, moved, rest⟩ := fixNoDataPartTable_rest fw bootBegin totalSector n
    have stop : ¬ (¬ (fixNoDataPartTable fw bootBegin totalSector n).isNoDataPartFlag
        ∧ (fixNoDataPartTable fw bootBegin totalSector n).winREState ≠ 0) := by
      rw [rest]
      exact fun both => both.1 flag
    simp only [if_true]
    rw [if_neg stop, movedRecord, if_pos flag]
    exact fixNoData_moves fits copies state unset
  | false =>
    obtain ⟨disk, small, rest⟩ := fixNewHDD_rest fw bootBegin totalSector n
    have unset_ : ¬ n.isNoDataPartFlag = true := by rw [flag]; decide
    have go : ¬ (fixNewHDD fw bootBegin totalSector n).isNoDataPartFlag
        ∧ (fixNewHDD fw bootBegin totalSector n).winREState ≠ 0 := by
      rw [rest]
      exact ⟨unset_, state⟩
    simp only [Bool.false_eq_true, if_false]
    rw [if_pos go]
    exact fixNewHDD_moves fits copies unset flag

/--
The path moves the record that gave WinRE's size exactly when that is the record its second search stops
at.

The record moved is the one told by `movedRecord`, on every disk and for every header.
-/
theorem newDiskPath_movesRight {fw : Firmware} {stack : Stack} {bootBegin totalSector : Nat}
    {n : NewDisk} (fits : n.totalsector < 2 ^ 64) (copies : 67 ≤ n.totalsector) :
    let ready := getWirePartSector stack (isFixNewHddWay stack n.start)
    let after := newDiskPath fw stack bootBegin totalSector n
    after.moved.map Prod.fst = movedRecord fw bootBegin totalSector ready
      ∧ (MovesRight fw.heap n.header (sizedRecord stack n.header) after
        ↔ ∀ i, movedRecord fw bootBegin totalSector ready = some i
            → i = sizedRecord stack n.header) := by
  have ready := prepared stack n.start
  have header : (getWirePartSector stack (isFixNewHddWay stack n.start)).header = n.header :=
    ready.header
  have size : (getWirePartSector stack (isFixNewHddWay stack n.start)).totalsector = n.totalsector :=
    ready.totalsector
  have moves := @path_moves fw bootBegin totalSector _ (by rw [size]; exact fits)
    (by rw [size]; exact copies) ready.state ready.moved
  rw [header] at moves
  exact ⟨moves.record, moves.right _⟩

/-- With WinRE as the only recovery partition, it is the one moved. -/
theorem newDiskPath_movesRight_winRE :
    MovesRight sampleFirmware.heap (smallHeader 1000) (sizedRecord {} (smallHeader 1000))
      (newDiskPath sampleFirmware {} 2048 1000000 (smallDisk 513039 1000)) :=
  (@newDiskPath_movesRight sampleFirmware {} 2048 1000000 (smallDisk 513039 1000) (by decide)
    (by decide)).2.mpr (by
      have record : movedRecord sampleFirmware 2048 1000000 (getWirePartSector {} (isFixNewHddWay {}
          (smallDisk 513039 1000).start)) = some 1 := by decide +kernel
      have sized : sizedRecord {} (smallDisk 513039 1000).header = 1 := by decide
      intro i moved
      rw [record] at moved
      rw [sized]
      exact (Option.some.inj moved).symm)

/-- The same image with the vendor's own recovery partition between the system and WinRE. -/
def vendorHeader : OkrHeader :=
  { partitionCount := 3
    disksize := 2000000
    partition := fun i =>
      if i = 0 then
        { bootBegin := 2048, totalSectors := 1000000, typeGuid := windowsDataTypeGuid, bIfBackup := true,
          hasWindows := true }
      else if i = 1 then
        { bootBegin := 1002048, totalSectors := 500, typeGuid := windowRecoveryTypeGuid,
          bIfBackup := true, label := lenovoPart ++ List.replicate 22 0 }
      else
        { bootBegin := 1002548, totalSectors := 1000, typeGuid := windowRecoveryTypeGuid,
          bIfBackup := true } }

/-- The vendor's record is moved to the place made for WinRE. -/
theorem newDiskPath_movesVendor :
    ¬ ∀ (fw : Firmware) (stack : Stack) (bootBegin totalSector : Nat) (n : NewDisk),
        n.totalsector < 2 ^ 64 → 67 ≤ n.totalsector →
        MovesRight fw.heap n.header (sizedRecord stack n.header)
          (newDiskPath fw stack bootBegin totalSector n) := by
  intro each
  have right := each sampleFirmware {} 2048 1000000
    { disk := sampleGpt 2048 1002047, totalsector := 513039, header := vendorHeader } (by decide)
    (by decide)
  have moved : (newDiskPath sampleFirmware {} 2048 1000000
      { disk := sampleGpt 2048 1002047, totalsector := 513039, header := vendorHeader }).moved
        = some (1, 1) := by decide +kernel
  have same := right.same 1 1 moved
  have sized : sizedRecord {} vendorHeader = 2 := by decide
  rw [sized] at same
  exact absurd same (by decide)

end Okr
