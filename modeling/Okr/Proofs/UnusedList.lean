import Okr.Backup.UnusedList
import Mathlib.Data.List.Nodup

/-! When the current list shows what was recorded for its partition since the last release. -/

namespace Okr

open Overlay (window)

/-! ### What was recorded -/

/-- The extents recorded for each partition since the last release, in their order. -/
abbrev Recorded := Nat → List SizeL

/-- Extents are recorded for a partition. -/
def Recorded.record (log : Recorded) (p : Nat) (pList : List SizeL) : Recorded :=
  fun q => if q = p then log q ++ pList else log q

/-- The files of a partition are recorded one after the other. -/
def Recorded.recordFiles (log : Recorded) (p : Nat) (files : List (List SizeL)) : Recorded :=
  files.foldl (fun log pList => log.record p pList) log

/-- What a call records; after the table is complete only `RecordList` itself does. -/
def Recorded.step (init : Bool) (log : Recorded) : ListCall → Recorded
  | .record p pList => log.record p pList
  | .get p files => if init then log else log.recordFiles p files
  | .getAll partitions =>
    if init then log
    else partitions.foldl (fun log partition => log.recordFiles partition.1 partition.2) log
  | .release => fun _ => []

/-- The program and what was recorded, after some calls from the start. -/
def listRun (calls : List ListCall) : UnusedLists × Recorded :=
  calls.foldl (fun run call => (listStep run.1 call, run.2.step run.1.unusedListInit call))
    ({}, fun _ => [])

/-! ### The calls that keep the table in order -/

/-- No descriptor is in use. -/
def UnusedLists.AllFree (s : UnusedLists) : Prop := ∀ file ∈ s.unusedFile, file.listCount = 0

/-- The descriptor's extents are the last of the table, unless it has none. -/
def UnusedFile.IsLast (file : UnusedFile) (s : UnusedLists) : Prop :=
  file.listCount ≠ 0 → (file.pList.map fun p => p.offset + file.listCount) = some s.unusedListCount

/--
A record that keeps the lists right.

The table has to have room, unless no descriptor points into it; the extents recorded before for the
partition have to be the last of the table, or a descriptor has to be free; and 16 bits have to count
them.
-/
structure RecordSafe (p : Nat) (pList : List SizeL) (s : UnusedLists) : Prop where
  small : s.maxUnusedListCount + s.unusedListCount + pList.length + 0x1fff < 2 ^ 32
  alone : s.grows pList.length = true → s.AllFree
  last : pList ≠ [] → ∃ file, s.unusedFile.find? (·.takes p) = some file
    ∧ file.listCount + pList.length < 2 ^ 16 ∧ file.IsLast s

/-- Each file of a partition is recorded safely; descriptors left of a freed table are not looked up. -/
def FilesSafe (p : Nat) : List (List SizeL) → UnusedLists → Prop
  | [], s => s.unusedList = none → s.AllFree
  | pList :: rest, s =>
    if pList = [] then FilesSafe p rest s
    else RecordSafe p pList s ∧ FilesSafe p rest (recordList p pList s)

/-- The current list is set back. -/
def UnusedLists.noCurrent (s : UnusedLists) : UnusedLists :=
  { s with currentUnusedList := none, currentUnusedListCount := 0 }

/-- The table is set back. -/
def UnusedLists.noTable (s : UnusedLists) : UnusedLists :=
  { s with
    unusedListCount := 0
    maxUnusedListCount := 0
    unusedList := none
    unusedFile := List.replicate MAX_UNUSED_FILES {} }

/-- Each partition is recorded safely. -/
def PartitionsSafe : List (Nat × List (List SizeL)) → UnusedLists → Prop
  | [], _ => True
  | partition :: rest, s =>
    FilesSafe partition.1 partition.2 s.noCurrent
      ∧ PartitionsSafe rest (getUnusedDataList partition.1 partition.2 s)

/--
A call that keeps the lists right.

Before the table is complete, a release does nothing and `GetAllUnusedDataSize` drops what is there,
so neither may come while extents are recorded.
-/
def CallSafe (s : UnusedLists) : ListCall → Prop
  | .record p pList => RecordSafe p pList s
  | .get p files => s.unusedListInit = true ∨ FilesSafe p files s.noCurrent
  | .getAll partitions =>
    s.unusedListInit = true
      ∨ (s.unusedList = none ∨ s.AllFree) ∧ PartitionsSafe partitions s.noTable
  | .release => s.unusedListInit = true ∨ s.unusedList = none ∨ s.AllFree

/-- Each of some calls keeps the lists right in the state it meets. -/
def CallsSafe : List ListCall → UnusedLists → Prop
  | [], _ => True
  | call :: rest, s => CallSafe s call ∧ CallsSafe rest (listStep s call)

/-! ### The invariant -/

/-- The table stands in a live block that it fills up to its count, or there is none. -/
def UnusedLists.Holds (s : UnusedLists) (content : List SizeL) : Prop :=
  match s.unusedList with
  | none => content = []
  | some b =>
    s.heap b = some ⟨s.maxUnusedListCount, content⟩ ∧ content.length = s.unusedListCount
      ∧ s.unusedListCount ≤ s.maxUnusedListCount

/-- A descriptor in use shows the extents recorded for its partition. -/
structure UnusedFile.Shows (file : UnusedFile) (table : Option Nat) (content : List SizeL)
    (log : Recorded) : Prop where
  some_ : file.listCount ≠ 0
  counted : file.listCount < 2 ^ 16
  shown : ∃ p, file.pList = some p ∧ some p.block = table
    ∧ p.offset + file.listCount ≤ content.length
    ∧ window content p.offset file.listCount = log file.partitionIndex

/-- The descriptors in use come first, one for each partition with extents. -/
structure Described (table : Option Nat) (content : List SizeL) (log : Recorded)
    (used : List UnusedFile) : Prop where
  shows : ∀ file ∈ used, file.Shows table content log
  apart : (used.map (·.partitionIndex)).Nodup
  all : ∀ p, log p ≠ [] → p ∈ used.map (·.partitionIndex)

/-- The table and its descriptors show what was recorded. -/
structure UnusedLists.Valid (s : UnusedLists) (log : Recorded) (content : List SizeL)
    (used free : List UnusedFile) : Prop where
  holds : s.Holds content
  files : s.unusedFile = used ++ free
  free : ∀ file ∈ free, file.listCount = 0
  described : Described s.unusedList content log used

/-- Some table and some descriptors do. -/
def UnusedLists.Faithful (s : UnusedLists) (log : Recorded) : Prop :=
  ∃ content used free, s.Valid log content used free

/-- They do, or the table was released and nothing has been recorded since. -/
def UnusedLists.InOrder (s : UnusedLists) (log : Recorded) : Prop :=
  s.Faithful log
    ∨ (s.unusedList = none ∧ s.unusedListInit = false ∧ ∀ p, log p = [])

variable {s : UnusedLists} {log : Recorded} {content : List SizeL} {used free : List UnusedFile}

/-- Without descriptors in use nothing has been recorded. -/
theorem UnusedLists.Valid.none_used (valid : s.Valid log content used free) (allFree : s.AllFree) :
    used = [] ∧ ∀ p, log p = [] := by
  have none_ : used = [] := by
    cases used with
    | nil => rfl
    | cons file rest =>
      have some_ := (valid.described.shows file List.mem_cons_self).some_
      exact absurd (allFree file (by rw [valid.files]; exact List.mem_cons_self)) some_
  refine ⟨none_, fun p => ?_⟩
  by_contra recorded
  have member := valid.described.all p recorded
  rw [none_] at member
  cases member

/-- Where nothing was recorded, free descriptors show it. -/
theorem valid_of_free (holds : s.Holds content) (allFree : s.AllFree) (nothing : ∀ p, log p = []) :
    s.Valid log content [] s.unusedFile where
  holds := holds
  files := rfl
  free := allFree
  described :=
    { shows := fun _ member => by cases member
      apart := List.nodup_nil
      all := fun p recorded => absurd (nothing p) recorded }

/-- A state in order whose descriptors are free is one in which nothing was recorded. -/
theorem UnusedLists.InOrder.valid (inOrder : s.InOrder log) (stale : s.unusedList = none → s.AllFree) :
    s.Faithful log := by
  cases inOrder with
  | inl valid => exact valid
  | inr released =>
    obtain ⟨none_, -, nothing⟩ := released
    have holds : s.Holds [] := by rw [UnusedLists.Holds, none_]
    exact ⟨[], [], _, valid_of_free holds (stale none_) nothing⟩

/-- A complete table is a live one. -/
theorem UnusedLists.InOrder.complete (inOrder : s.InOrder log) (init : s.unusedListInit = true) :
    s.Faithful log := by
  cases inOrder with
  | inl valid => exact valid
  | inr released =>
    rw [released.2.1] at init
    cases init

/-! ### A record -/

/-- Recording nothing records nothing. -/
@[simp] theorem Recorded.record_nil (log : Recorded) (p : Nat) : log.record p [] = log := by
  funext q
  by_cases same : q = p
  · rw [Recorded.record, if_pos same, List.append_nil]
  · rw [Recorded.record, if_neg same]

/-- The log of the partition grows by the record. -/
theorem Recorded.record_self (log : Recorded) (p : Nat) (pList : List SizeL) :
    log.record p pList p = log p ++ pList := if_pos rfl

/-- The log of another partition stays. -/
theorem Recorded.record_other (log : Recorded) {p q : Nat} (pList : List SizeL) (other : q ≠ p) :
    log.record p pList q = log q := if_neg other

/-- The descriptors are not touched by a larger table. -/
@[simp] theorem UnusedLists.grow_unusedFile (s : UnusedLists) (listNumber : Nat) :
    (s.grow listNumber).unusedFile = s.unusedFile := by
  unfold UnusedLists.grow
  split <;> rfl

/-- A table without room gets some, and holds what it held. -/
theorem UnusedLists.Holds.grow {listNumber : Nat} (holds : s.Holds content)
    (small : s.maxUnusedListCount + s.unusedListCount + listNumber + 0x1fff < 2 ^ 32) :
    (s.grow listNumber).Holds content
      ∧ (s.grow listNumber).unusedListCount + listNumber ≤ (s.grow listNumber).maxUnusedListCount
      ∧ (s.grow listNumber).maxUnusedListCount < 2 ^ 32 := by
  have rounds : listNumber ≤ roundList listNumber
      ∧ roundList listNumber ≤ listNumber + 0x1fff := by
    rw [roundList, u32_eq (by omega)]
    omega
  have max_ : ∀ old, old ≤ s.maxUnusedListCount →
      u32 (old + roundList listNumber) = old + roundList listNumber :=
    fun old _ => u32_eq (by omega)
  cases table : s.unusedList with
  | none =>
    rw [UnusedLists.Holds, table] at holds
    subst holds
    simp only [UnusedLists.Holds, UnusedLists.grow, table, Option.isNone_none, if_true,
      Option.bind_none, Option.elim_none, List.take_nil, List.length_nil, max_ 0 (Nat.zero_le _)]
    exact ⟨⟨trivial, trivial, Nat.zero_le _⟩, by omega, by omega⟩
  | some b =>
    rw [UnusedLists.Holds, table] at holds
    obtain ⟨live, count, fits⟩ := holds
    -- The old table is copied up to its count, that is, whole.
    have all : content.take s.unusedListCount = content := List.take_of_length_le (by omega)
    simp only [UnusedLists.Holds, UnusedLists.grow, table, Option.isNone_some,
      Option.bind_some, live, Option.elim_some, all, max_ _ (Nat.le_refl _), if_true,
      Bool.false_eq_true, if_false]
    exact ⟨⟨trivial, count, by omega⟩, by omega, by omega⟩

/-- A table with room for a record holds it behind the rest. -/
theorem UnusedLists.Holds.append {pList : List SizeL} {b : Nat} (holds : s.Holds content)
    (table : s.unusedList = some b)
    (room : s.unusedListCount + pList.length ≤ s.maxUnusedListCount)
    (small : s.maxUnusedListCount < 2 ^ 32) : (s.append pList).Holds (content ++ pList) := by
  rw [UnusedLists.Holds, table] at holds
  obtain ⟨live, count, -⟩ := holds
  have all : content.take s.unusedListCount = content := List.take_of_length_le (by omega)
  have sum : u32 (s.unusedListCount + pList.length) = s.unusedListCount + pList.length :=
    u32_eq (by omega)
  simp only [UnusedLists.Holds, UnusedLists.append, table, if_true, live, Option.map_some, all, sum,
    List.length_append]
  exact ⟨trivial, by omega, room⟩

/-- The table as `RecordList` leaves it before the extents are copied. -/
def UnusedLists.withRoom (s : UnusedLists) (listNumber : Nat) : UnusedLists :=
  if s.grows listNumber then s.grow listNumber else s

/-- The descriptors are not touched by the room. -/
@[simp] theorem UnusedLists.withRoom_unusedFile (s : UnusedLists) (listNumber : Nat) :
    (s.withRoom listNumber).unusedFile = s.unusedFile := by
  unfold UnusedLists.withRoom
  split
  · exact s.grow_unusedFile listNumber
  · rfl

/-- Every table has room after the first part of `RecordList`. -/
theorem UnusedLists.Holds.withRoom {listNumber : Nat} (holds : s.Holds content)
    (small : s.maxUnusedListCount + s.unusedListCount + listNumber + 0x1fff < 2 ^ 32) :
    (s.withRoom listNumber).Holds content
      ∧ (∃ b, (s.withRoom listNumber).unusedList = some b)
      ∧ (s.withRoom listNumber).unusedListCount + listNumber
        ≤ (s.withRoom listNumber).maxUnusedListCount
      ∧ (s.withRoom listNumber).maxUnusedListCount < 2 ^ 32 := by
  by_cases grows : s.grows listNumber = true
  · rw [UnusedLists.withRoom, if_pos grows]
    obtain ⟨after, room, max_⟩ := holds.grow small
    exact ⟨after, ⟨_, rfl⟩, room, max_⟩
  · rw [UnusedLists.withRoom, if_neg grows]
    rw [UnusedLists.grows, u32_eq (by omega)] at grows
    simp only [Bool.or_eq_true, Option.isNone_iff_eq_none, decide_eq_true_eq, not_or] at grows
    obtain ⟨table, room⟩ := grows
    exact ⟨holds, Option.ne_none_iff_exists'.mp table, by omega, by omega⟩

/-- Where descriptors are in use the room leaves the table where it is. -/
theorem UnusedLists.withRoom_used {p : Nat} {pList : List SizeL} (safe : RecordSafe p pList s)
    (some_ : ¬ s.AllFree) : s.withRoom pList.length = s :=
  if_neg fun grows => some_ (safe.alone grows)

/-- A record passes the descriptors that do not take it. -/
theorem addRecord_append {p : Nat} {before : List UnusedFile} (newList : Option Ptr)
    (pList : List SizeL) (rest : List UnusedFile) (passes : ∀ file ∈ before, ¬ file.takes p) :
    addRecord p newList pList (before ++ rest) = before ++ addRecord p newList pList rest := by
  induction before with
  | nil => rfl
  | cons file before ih =>
    rw [List.cons_append, addRecord, if_neg (passes file List.mem_cons_self),
      ih fun other member => passes other (List.mem_cons_of_mem _ member)]
    rfl

/-- The search passes them too. -/
theorem find_takes_append {p : Nat} {before : List UnusedFile} (rest : List UnusedFile)
    (passes : ∀ file ∈ before, ¬ file.takes p) :
    (before ++ rest).find? (·.takes p) = rest.find? (·.takes p) := by
  rw [List.find?_append, List.find?_eq_none.mpr passes]
  rfl

/-- The search ends at one that does. -/
theorem find_takes_cons {file : UnusedFile} {p : Nat} (rest : List UnusedFile)
    (takes : file.takes p = true) : (file :: rest).find? (·.takes p) = some file := by
  rw [List.find?_cons, takes]

/-- A descriptor in use of another partition does not take the record. -/
theorem UnusedFile.not_takes {file : UnusedFile} {p : Nat} (some_ : file.listCount ≠ 0)
    (other : file.partitionIndex ≠ p) : ¬ file.takes p := by
  rw [UnusedFile.takes, Bool.or_eq_true, beq_iff_eq, beq_iff_eq]
  exact fun takes => takes.elim other some_

variable {table : Option Nat}

/-- A descriptor of another partition shows after a record what it showed before. -/
theorem UnusedFile.Shows.other {file : UnusedFile} {p : Nat} (shows_ : file.Shows table content log)
    (pList : List SizeL) (other : file.partitionIndex ≠ p) :
    file.Shows table (content ++ pList) (log.record p pList) := by
  obtain ⟨some_, counted, place, stands, live, inside, shown⟩ := shows_
  have longer : place.offset + file.listCount ≤ (content ++ pList).length := by
    rw [List.length_append]
    omega
  refine ⟨some_, counted, place, stands, live, longer, ?_⟩
  rw [Overlay.window_append_left pList inside, shown, log.record_other pList other]

/-- The descriptor of the partition shows the record behind the rest, if that ends the table. -/
theorem UnusedFile.Shows.self {file : UnusedFile} {newList : Option Ptr} {pList : List SizeL}
    (shows_ : file.Shows table content log)
    (small : file.listCount + pList.length < 2 ^ 16)
    (last : pList ≠ [] → (file.pList.map fun p => p.offset + file.listCount) = some content.length) :
    (file.add file.partitionIndex newList pList).Shows table (content ++ pList)
      (log.record file.partitionIndex pList) := by
  obtain ⟨some_, -, place, stands, live, inside, shown⟩ := shows_
  have count : (file.add file.partitionIndex newList pList).listCount
      = file.listCount + pList.length := by
    rw [UnusedFile.add, if_neg some_]
    exact Nat.mod_eq_of_lt small
  have same : (file.add file.partitionIndex newList pList).pList = some place := by
    rw [UnusedFile.add, if_neg some_]
    exact stands
  have index : (file.add file.partitionIndex newList pList).partitionIndex = file.partitionIndex := by
    rw [UnusedFile.add, if_neg some_]
  have ends : place.offset + file.listCount + pList.length ≤ (content ++ pList).length := by
    rw [List.length_append]
    omega
  -- The entry has room for the new extents, which stand right behind its own.
  refine ⟨by omega, by omega, place, same, live, by omega, ?_⟩
  rw [count, index, Overlay.window_append, Overlay.window_append_left pList inside, shown,
    log.record_self]
  congr 1
  cases pList with
  | nil => rfl
  | cons extent rest =>
    have end_ := last (List.cons_ne_nil _ _)
    rw [stands, Option.map_some, Option.some.injEq] at end_
    rw [end_, Overlay.window_append_right]

/-- A free descriptor shows the first record of a partition. -/
theorem UnusedFile.shows_first {file : UnusedFile} {p b : Nat} {pList : List SizeL}
    (isFree : file.listCount = 0) (some_ : pList ≠ []) (small : pList.length < 2 ^ 16)
    (first : log p = []) :
    (file.add p (some ⟨b, content.length⟩) pList).Shows (some b) (content ++ pList)
      (log.record p pList) := by
  have count : (file.add p (some ⟨b, content.length⟩) pList).listCount = pList.length := by
    rw [UnusedFile.add, if_pos isFree]
    show (file.listCount + pList.length) % 2 ^ 16 = pList.length
    rw [isFree, Nat.zero_add, Nat.mod_eq_of_lt small]
  have place : (file.add p (some ⟨b, content.length⟩) pList).pList = some ⟨b, content.length⟩ := by
    rw [UnusedFile.add, if_pos isFree]
  have index : (file.add p (some ⟨b, content.length⟩) pList).partitionIndex = p := by
    rw [UnusedFile.add, if_pos isFree]
  have long : pList.length ≠ 0 := fun none_ => some_ (List.length_eq_zero_iff.mp none_)
  refine ⟨by omega, by omega, _, place, rfl, ?_, ?_⟩
  · rw [count, List.length_append]
  · rw [count, index, Overlay.window_append_right, log.record_self, first, List.nil_append]

/-- What the descriptors need of a record: the one that takes it ends the table, and can count it. -/
def Takes (p : Nat) (pList content : List SizeL) (files : List UnusedFile) : Prop :=
  pList ≠ [] → ∃ file, files.find? (·.takes p) = some file
    ∧ file.listCount + pList.length < 2 ^ 16
    ∧ (file.listCount ≠ 0 →
      (file.pList.map fun p => p.offset + file.listCount) = some content.length)

/-- A record of a partition that has a descriptor goes to that one. -/
theorem Described.record_known {p : Nat} {newList : Option Ptr} {pList : List SizeL}
    (described : Described table content log used) (known : p ∈ used.map (·.partitionIndex))
    (takes : Takes p pList content (used ++ free)) :
    ∃ after, addRecord p newList pList (used ++ free) = after ++ free
      ∧ Described table (content ++ pList) (log.record p pList) after := by
  obtain ⟨file, member, index⟩ := List.mem_map.mp known
  obtain ⟨before, behind, split_⟩ := List.append_of_mem member
  subst index
  have apart := described.apart
  rw [split_, List.map_append, List.map_cons, List.nodup_middle, List.nodup_cons,
    ← List.map_append] at apart
  obtain ⟨alone, apart⟩ := apart
  have other : ∀ next ∈ before ++ behind, next.partitionIndex ≠ file.partitionIndex :=
    fun next inside same => alone (same ▸ List.mem_map_of_mem inside)
  have within : ∀ next ∈ before ++ behind, next ∈ used := fun next inside => by
    rw [split_]
    cases List.mem_append.mp inside with
    | inl front => exact List.mem_append_left _ front
    | inr back => exact List.mem_append_right _ (List.mem_cons_of_mem _ back)
  have takesIt : file.takes file.partitionIndex = true := by simp [UnusedFile.takes]
  -- The descriptors in front are in use by other partitions.
  have passes : ∀ next ∈ before, ¬ next.takes file.partitionIndex := fun next inside =>
    UnusedFile.not_takes (described.shows next (within next (List.mem_append_left _ inside))).some_
      (other next (List.mem_append_left _ inside))
  have whole : used ++ free = before ++ (file :: (behind ++ free)) := by
    rw [split_, List.append_assoc, List.cons_append]
  refine ⟨before ++ file.add file.partitionIndex newList pList :: behind, ?_, ?_⟩
  · rw [whole, addRecord_append _ _ _ passes, addRecord, if_pos takesIt, List.append_assoc,
      List.cons_append]
  · have shows_ := described.shows file member
    have added : (file.add file.partitionIndex newList pList).Shows table (content ++ pList)
        (log.record file.partitionIndex pList) := by
      by_cases none_ : pList = []
      · refine shows_.self ?_ fun some_ => absurd none_ some_
        rw [none_]
        exact shows_.counted
      · obtain ⟨found, search, small, last⟩ := takes none_
        rw [whole, find_takes_append _ passes, find_takes_cons _ takesIt,
          Option.some.injEq] at search
        subst search
        exact shows_.self small fun _ => last shows_.some_
    have index : (file.add file.partitionIndex newList pList).partitionIndex
        = file.partitionIndex := by
      rw [UnusedFile.add, if_neg shows_.some_]
    refine ⟨fun next inside => ?_, ?_, fun q recorded => ?_⟩
    · cases List.mem_append.mp inside with
      | inl front =>
        exact (described.shows next (within next (List.mem_append_left _ front))).other pList
          (other next (List.mem_append_left _ front))
      | inr back =>
        cases List.mem_cons.mp back with
        | inl same => exact same ▸ added
        | inr behind_ =>
          exact (described.shows next (within next (List.mem_append_right _ behind_))).other pList
            (other next (List.mem_append_right _ behind_))
    · rw [List.map_append, List.map_cons, index, List.nodup_middle, List.nodup_cons,
        ← List.map_append]
      exact ⟨alone, apart⟩
    · rw [List.map_append, List.map_cons, index]
      have was : q ∈ used.map (·.partitionIndex) := by
        by_cases same : q = file.partitionIndex
        · exact same ▸ known
        · rw [log.record_other pList same] at recorded
          exact described.all q recorded
      rw [split_, List.map_append, List.map_cons] at was
      exact was

/-- A record of a new partition goes to a free descriptor. -/
theorem Described.record_new {p b : Nat} {pList : List SizeL}
    (described : Described (some b) content log used) (isFree : ∀ file ∈ free, file.listCount = 0)
    (new : p ∉ used.map (·.partitionIndex)) (takes : Takes p pList content (used ++ free)) :
    ∃ after rest, addRecord p (some ⟨b, content.length⟩) pList (used ++ free) = after ++ rest
      ∧ (∀ file ∈ rest, file.listCount = 0)
      ∧ Described (some b) (content ++ pList) (log.record p pList) after := by
  have nothing : log p = [] := by
    by_contra recorded
    exact new (described.all p recorded)
  have other : ∀ next ∈ used, next.partitionIndex ≠ p :=
    fun next inside same => new (same ▸ List.mem_map_of_mem inside)
  have passes : ∀ next ∈ used, ¬ next.takes p := fun next inside =>
    UnusedFile.not_takes (described.shows next inside).some_ (other next inside)
  rw [addRecord_append _ _ _ passes]
  by_cases none_ : pList = []
  · -- An empty record leaves the free descriptors free.
    refine ⟨used, _, rfl, ?_, ?_⟩
    · subst none_
      cases free with
      | nil => exact fun file member => by cases member
      | cons file rest =>
        have isFree_ := isFree file List.mem_cons_self
        have takesIt : file.takes p = true := by simp [UnusedFile.takes, isFree_]
        rw [addRecord, if_pos takesIt]
        intro next member
        cases List.mem_cons.mp member with
        | inl same =>
          rw [same, UnusedFile.add, if_pos isFree_]
          show (file.listCount + 0) % 2 ^ 16 = 0
          rw [isFree_, Nat.zero_add, Nat.zero_mod]
        | inr behind => exact isFree next (List.mem_cons_of_mem _ behind)
    · rw [none_, List.append_nil, log.record_nil]
      exact described
  · obtain ⟨found, search, small, -⟩ := takes none_
    rw [find_takes_append _ passes] at search
    cases free with
    | nil => cases search
    | cons file rest =>
      have isFree_ := isFree file List.mem_cons_self
      have takesIt : file.takes p = true := by simp [UnusedFile.takes, isFree_]
      rw [find_takes_cons _ takesIt, Option.some.injEq] at search
      subst search
      have added := @UnusedFile.shows_first log content file p b pList isFree_ none_
        (by omega) nothing
      have index : (file.add p (some ⟨b, content.length⟩) pList).partitionIndex = p := by
        rw [UnusedFile.add, if_pos isFree_]
      refine ⟨used ++ [file.add p (some ⟨b, content.length⟩) pList], rest, ?_,
        fun next member => isFree next (List.mem_cons_of_mem _ member), ?_, ?_, fun q recorded => ?_⟩
      · rw [addRecord, if_pos takesIt, List.append_assoc, List.singleton_append]
      · intro next member
        cases List.mem_append.mp member with
        | inl front => exact (described.shows next front).other pList (other next front)
        | inr back => exact List.mem_singleton.mp back ▸ added
      · rw [List.map_append, List.map_singleton, index, List.nodup_append_comm,
          List.singleton_append, List.nodup_cons]
        exact ⟨new, described.apart⟩
      · rw [List.map_append, List.map_singleton, index, List.mem_append, List.mem_singleton]
        by_cases same : q = p
        · exact Or.inr same
        · rw [log.record_other pList same] at recorded
          exact Or.inl (described.all q recorded)

/-- A live table counts its extents. -/
theorem UnusedLists.Holds.count {b : Nat} (holds : s.Holds content) (live : s.unusedList = some b) :
    content.length = s.unusedListCount := by
  rw [UnusedLists.Holds, live] at holds
  exact holds.2.1

/-- `RecordList` with the table that has room. -/
theorem recordList_eq (p : Nat) (pList : List SizeL) (s : UnusedLists) :
    recordList p pList s =
      { (s.withRoom pList.length).append pList with
        unusedFile := addRecord p
          ((s.withRoom pList.length).unusedList.map fun b =>
            (⟨b, (s.withRoom pList.length).unusedListCount⟩ : Ptr))
          pList (s.withRoom pList.length).unusedFile } := rfl

/-- With room the descriptors are as they were, or free. -/
theorem UnusedLists.Valid.withRoom {p : Nat} {pList : List SizeL}
    (valid : s.Valid log content used free) (safe : RecordSafe p pList s) :
    ∃ used free, (s.withRoom pList.length).Valid log content used free
      ∧ Takes p pList content (used ++ free) := by
  obtain ⟨holds, ⟨b, live⟩, -, -⟩ := valid.holds.withRoom safe.small
  by_cases allFree : s.AllFree
  · have free_ : (s.withRoom pList.length).AllFree := by
      rw [UnusedLists.AllFree, s.withRoom_unusedFile]
      exact allFree
    refine ⟨[], _, valid_of_free holds free_ (valid.none_used allFree).2, fun some_ => ?_⟩
    obtain ⟨file, search, small, -⟩ := safe.last some_
    have member := List.mem_of_find?_eq_some search
    rw [List.nil_append, s.withRoom_unusedFile]
    exact ⟨file, search, small, fun inUse => absurd (allFree file member) inUse⟩
  · rw [UnusedLists.withRoom_used safe allFree] at live ⊢
    refine ⟨used, free, valid, fun some_ => ?_⟩
    obtain ⟨file, search, small, last⟩ := safe.last some_
    rw [← valid.files, valid.holds.count live]
    exact ⟨file, search, small, last⟩

/-- A safe record keeps the table and its descriptors right. -/
theorem UnusedLists.Valid.record {p : Nat} {pList : List SizeL}
    (valid : s.Valid log content used free) (safe : RecordSafe p pList s) :
    (recordList p pList s).Faithful (log.record p pList) := by
  obtain ⟨holds, ⟨b, live⟩, room, small⟩ := valid.holds.withRoom safe.small
  obtain ⟨used, free, valid, takes⟩ := valid.withRoom safe
  have after := holds.append live room small
  have described := valid.described
  rw [live] at described
  rw [recordList_eq, live, Option.map_some, ← holds.count live, valid.files]
  -- The descriptor of the partition takes the record, or else a free one.
  by_cases known : p ∈ used.map (·.partitionIndex)
  · obtain ⟨files, added, described⟩ :=
      described.record_known known takes
    refine ⟨content ++ pList, files, free, after, added, valid.free, ?_⟩
    show Described (s.withRoom pList.length).unusedList _ _ _
    rw [live]
    exact described
  · obtain ⟨files, rest, added, isFree, described⟩ := described.record_new valid.free known takes
    refine ⟨content ++ pList, files, rest, after, added, isFree, ?_⟩
    show Described (s.withRoom pList.length).unusedList _ _ _
    rw [live]
    exact described

/-! ### The calls -/

/-- `RecordList` does not touch the current list, nor the flag of the complete table. -/
theorem recordList_frame (p : Nat) (pList : List SizeL) (s : UnusedLists) :
    (recordList p pList s).currentUnusedListCount = s.currentUnusedListCount
      ∧ (recordList p pList s).unusedListInit = s.unusedListInit := by
  have room : ∀ listNumber, (s.withRoom listNumber).currentUnusedListCount = s.currentUnusedListCount
      ∧ (s.withRoom listNumber).unusedListInit = s.unusedListInit := fun listNumber => by
    unfold UnusedLists.withRoom UnusedLists.grow
    by_cases grows : s.grows listNumber = true
    · rw [if_pos grows]
      cases s.unusedList.isNone <;> exact ⟨rfl, rfl⟩
    · rw [if_neg grows]
      exact ⟨rfl, rfl⟩
  exact room pList.length

/-- The files of a partition do not either. -/
theorem recordFiles_frame (p : Nat) (files : List (List SizeL)) (s : UnusedLists) :
    (recordFiles p files s).currentUnusedListCount = s.currentUnusedListCount
      ∧ (recordFiles p files s).unusedListInit = s.unusedListInit := by
  induction files generalizing s with
  | nil => exact ⟨rfl, rfl⟩
  | cons pList rest ih =>
    obtain ⟨current, init⟩ := ih (if pList = [] then s else recordList p pList s)
    rw [recordFiles, List.foldl_cons, ← recordFiles, current, init]
    by_cases none_ : pList = []
    · rw [if_pos none_]
      exact ⟨rfl, rfl⟩
    · rw [if_neg none_]
      exact recordList_frame p pList s

/-- Files recorded safely leave the table and its descriptors right. -/
theorem UnusedLists.InOrder.recordFiles {p : Nat} {files : List (List SizeL)}
    (inOrder : s.InOrder log) (safe : FilesSafe p files s) :
    (Okr.recordFiles p files s).Faithful (log.recordFiles p files) := by
  induction files generalizing s log with
  | nil => exact inOrder.valid safe
  | cons pList rest ih =>
    rw [Okr.recordFiles, Recorded.recordFiles, List.foldl_cons, List.foldl_cons, ← Okr.recordFiles,
      ← Recorded.recordFiles]
    rw [FilesSafe] at safe
    by_cases none_ : pList = []
    · rw [if_pos none_] at safe ⊢
      rw [none_, log.record_nil]
      exact ih inOrder safe
    · rw [if_neg none_] at safe ⊢
      obtain ⟨record, rest_⟩ := safe
      -- A record after a release needs a new table, so the descriptors have to be free.
      obtain ⟨content, used, free, valid⟩ := inOrder.valid fun table =>
        record.alone (by rw [UnusedLists.grows, table]; rfl)
      exact ih (Or.inl (valid.record record)) rest_

/-- Looking a partition up changes only the current list. -/
theorem UnusedLists.Valid.lookUp (valid : s.Valid log content used free) (p : Nat) :
    (s.lookUp p).Valid log content used free := by
  unfold UnusedLists.lookUp
  split
  · exact ⟨valid.holds, valid.files, valid.free, valid.described⟩
  · exact valid

/-- The current list after a partition was looked up shows what was recorded for it. -/
theorem UnusedLists.Valid.shown {p : Nat} (valid : s.Valid log content used free)
    (clear : s.currentUnusedListCount = 0) : (s.lookUp p).currentExtents = some (log p) := by
  by_cases known : p ∈ used.map (·.partitionIndex)
  · -- The descriptor that is found is one in use.
    obtain ⟨other, member, index⟩ := List.mem_map.mp known
    have search : (used.find? fun file => file.partitionIndex == p).isSome := by
      rw [List.find?_isSome]
      exact ⟨other, member, beq_iff_eq.mpr index⟩
    obtain ⟨file, found⟩ := Option.isSome_iff_exists.mp search
    have is_ : file.partitionIndex = p :=
      beq_iff_eq.mp (List.find?_some (p := fun file : UnusedFile => file.partitionIndex == p) found)
    obtain ⟨some_, -, place, stands, live, inside, shown⟩ :=
      valid.described.shows file (List.mem_of_find?_eq_some found)
    have holds := valid.holds
    rw [UnusedLists.Holds, ← live] at holds
    obtain ⟨block, count, fits⟩ := holds
    rw [UnusedLists.lookUp, valid.files, List.find?_append, found, Option.some_or]
    simp only [UnusedLists.currentExtents, some_, if_false, stands, ← live, block]
    rw [if_pos ⟨trivial, by omega⟩, shown, is_]
  · have nothing : log p = [] := by
      by_contra recorded
      exact known (valid.described.all p recorded)
    have passes : (used.find? fun file => file.partitionIndex == p) = none := by
      rw [List.find?_eq_none]
      exact fun file member same => known (beq_iff_eq.mp same ▸ List.mem_map_of_mem member)
    rw [nothing, UnusedLists.lookUp, valid.files, List.find?_append, passes, Option.none_or]
    -- A free descriptor may still bear the number of the partition.
    cases search : free.find? fun file => file.partitionIndex == p with
    | none => exact if_pos clear
    | some file => exact if_pos (valid.free file (List.mem_of_find?_eq_some search))

/-- `GetUnusedDataList` keeps the lists in order, and sets the current list to those recorded. -/
theorem UnusedLists.InOrder.get {p : Nat} {files : List (List SizeL)} (inOrder : s.InOrder log)
    (safe : s.unusedListInit = true ∨ FilesSafe p files s.noCurrent) :
    (getUnusedDataList p files s).Faithful (log.step s.unusedListInit (.get p files))
      ∧ (getUnusedDataList p files s).currentExtents
        = some (log.step s.unusedListInit (.get p files) p) := by
  -- A complete table is only looked up; otherwise the files are recorded first.
  cases init : s.unusedListInit with
  | true =>
    obtain ⟨content, used, free, valid⟩ := inOrder.complete init
    have clear : s.noCurrent.Valid log content used free :=
      ⟨valid.holds, valid.files, valid.free, valid.described⟩
    have same : getUnusedDataList p files s = s.noCurrent.lookUp p :=
      congrArg (UnusedLists.lookUp p) (if_pos init)
    rw [same]
    exact ⟨⟨content, used, free, clear.lookUp p⟩, clear.shown rfl⟩
  | false =>
    have incomplete : ¬ s.unusedListInit = true := by rw [init]; exact Bool.noConfusion
    have files_ : FilesSafe p files s.noCurrent := safe.resolve_left incomplete
    have clear : s.noCurrent.InOrder log := by
      cases inOrder with
      | inl valid =>
        obtain ⟨content, used, free, valid⟩ := valid
        exact Or.inl ⟨content, used, free, valid.holds, valid.files, valid.free, valid.described⟩
      | inr released => exact Or.inr released
    obtain ⟨content, used, free, valid⟩ := clear.recordFiles files_
    have same : getUnusedDataList p files s = (Okr.recordFiles p files s.noCurrent).lookUp p :=
      congrArg (UnusedLists.lookUp p) (if_neg incomplete)
    rw [same]
    exact ⟨⟨content, used, free, valid.lookUp p⟩, valid.shown (recordFiles_frame p files _).1⟩

/-- `GetUnusedDataList` does not complete the table. -/
theorem getUnusedDataList_init (p : Nat) (files : List (List SizeL)) (s : UnusedLists) :
    (getUnusedDataList p files s).unusedListInit = s.unusedListInit := by
  have found : ∀ s : UnusedLists, (s.lookUp p).unusedListInit = s.unusedListInit := fun s => by
    unfold UnusedLists.lookUp
    split <;> rfl
  rw [getUnusedDataList, found]
  by_cases init : s.unusedListInit = true
  · rw [if_pos init]
  · rw [if_neg init]
    exact (recordFiles_frame p files _).2

/-- What is recorded for some partitions, one after the other. -/
def Recorded.recordAll (log : Recorded) (partitions : List (Nat × List (List SizeL))) : Recorded :=
  partitions.foldl (fun log partition => log.recordFiles partition.1 partition.2) log

/-- The partitions of `GetAllUnusedDataSize`, one after the other. -/
def getPartitions (partitions : List (Nat × List (List SizeL))) (s : UnusedLists) : UnusedLists :=
  partitions.foldl (fun s partition => getUnusedDataList partition.1 partition.2 s) s

/-- Partitions that are recorded safely leave the lists in order, and the table incomplete. -/
theorem UnusedLists.Faithful.getPartitions {partitions : List (Nat × List (List SizeL))}
    (faithful : s.Faithful log) (init : s.unusedListInit = false)
    (safe : PartitionsSafe partitions s) :
    (Okr.getPartitions partitions s).Faithful (log.recordAll partitions)
      ∧ (Okr.getPartitions partitions s).unusedListInit = false := by
  induction partitions generalizing s log with
  | nil => exact ⟨faithful, init⟩
  | cons partition rest ih =>
    obtain ⟨files, rest_⟩ := safe
    have next := (UnusedLists.InOrder.get (Or.inl faithful) (Or.inr files)).1
    rw [init] at next
    exact ih next ((getUnusedDataList_init _ _ s).trans init) rest_

/-- Partitions are recorded safely when those in front are, and then those behind. -/
theorem partitionsSafe_append (front back : List (Nat × List (List SizeL))) (s : UnusedLists) :
    PartitionsSafe (front ++ back) s
      ↔ PartitionsSafe front s ∧ PartitionsSafe back (getPartitions front s) := by
  induction front generalizing s with
  | nil => exact ⟨fun safe => ⟨trivial, safe⟩, fun safe => safe.2⟩
  | cons partition rest ih =>
    rw [List.cons_append, PartitionsSafe, PartitionsSafe, ih, and_assoc]
    rfl

/-- Without a table, or without descriptors in use, nothing has been recorded. -/
theorem UnusedLists.InOrder.nothing (inOrder : s.InOrder log)
    (gone : s.unusedList = none ∨ s.AllFree) : ∀ p, log p = [] := by
  cases inOrder with
  | inr released => exact released.2.2
  | inl valid =>
    obtain ⟨content, used, free, valid⟩ := valid
    cases gone with
    | inr allFree => exact (valid.none_used allFree).2
    | inl table =>
      intro p
      by_contra recorded
      -- A descriptor in use would point into the table that is not there.
      obtain ⟨file, member, -⟩ := List.mem_map.mp (valid.described.all p recorded)
      obtain ⟨-, -, place, -, live, -⟩ := valid.described.shows file member
      rw [table] at live
      cases live

/-- The table that was set back shows nothing. -/
theorem UnusedLists.noTable_faithful (s : UnusedLists) (nothing : ∀ p, log p = []) :
    s.noTable.Faithful log := by
  have holds : s.noTable.Holds [] := rfl
  have free : s.noTable.AllFree := fun file member => by
    rw [List.eq_of_mem_replicate member]
  exact ⟨[], [], _, valid_of_free holds free nothing⟩

/-- Completing the table changes nothing else. -/
theorem UnusedLists.Faithful.completed (faithful : s.Faithful log) :
    ({ s with unusedListInit := true } : UnusedLists).Faithful log := by
  obtain ⟨content, used, free, valid⟩ := faithful
  exact ⟨content, used, free, valid.holds, valid.files, valid.free, valid.described⟩

/-- A call that finds the lists in order, and is safe, leaves them so. -/
theorem UnusedLists.InOrder.step {call : ListCall} (inOrder : s.InOrder log)
    (safe : CallSafe s call) : (listStep s call).InOrder (log.step s.unusedListInit call) := by
  cases call with
  | record p pList =>
    -- After a release only free descriptors can take a record.
    have stale : s.unusedList = none → s.AllFree := fun table =>
      safe.alone (by rw [UnusedLists.grows, table]; rfl)
    obtain ⟨content, used, free, valid⟩ := inOrder.valid stale
    exact Or.inl (valid.record safe)
  | get p files => exact Or.inl (inOrder.get safe).1
  | getAll partitions =>
    cases init : s.unusedListInit with
    | true =>
      have same : listStep s (.getAll partitions) = { s with unusedListInit := true } :=
        congrArg (fun s : UnusedLists => { s with unusedListInit := true }) (if_pos init)
      rw [same]
      exact Or.inl (inOrder.complete init).completed
    | false =>
      have incomplete : ¬ s.unusedListInit = true := by rw [init]; exact Bool.noConfusion
      obtain ⟨gone, partitions_⟩ := safe.resolve_left incomplete
      have same : listStep s (.getAll partitions)
          = { getPartitions partitions s.noTable with unusedListInit := true } :=
        congrArg (fun s : UnusedLists => { s with unusedListInit := true }) (if_neg incomplete)
      rw [same]
      have start := s.noTable_faithful (inOrder.nothing gone)
      exact Or.inl (start.getPartitions init partitions_).1.completed
  | release =>
    cases init : s.unusedListInit with
    | true =>
      refine Or.inr ⟨?_, ?_, fun p => rfl⟩
      · show (if s.unusedListInit = true then _ else s).unusedList = none
        rw [if_pos init]
      · show (if s.unusedListInit = true then _ else s).unusedListInit = false
        rw [if_pos init]
    | false =>
      have incomplete : ¬ s.unusedListInit = true := by rw [init]; exact Bool.noConfusion
      have nothing := inOrder.nothing (safe.resolve_left incomplete)
      have same : listStep s .release = s := if_neg incomplete
      have log_ : log = fun _ => [] := funext nothing
      rw [same]
      show s.InOrder fun _ => []
      rw [← log_]
      exact inOrder

/-! ### The runs -/

/-- The program and what was recorded, after some calls from any state. -/
def runFrom (calls : List ListCall) (run : UnusedLists × Recorded) : UnusedLists × Recorded :=
  calls.foldl (fun run call => (listStep run.1 call, run.2.step run.1.unusedListInit call)) run

/-- Safe calls keep the lists in order. -/
theorem runFrom_inOrder {calls : List ListCall} {run : UnusedLists × Recorded}
    (inOrder : run.1.InOrder run.2) (safe : CallsSafe calls run.1) :
    (runFrom calls run).1.InOrder (runFrom calls run).2 := by
  induction calls generalizing run with
  | nil => exact inOrder
  | cons call rest ih => exact ih (inOrder.step safe.1) safe.2

/-- The last of some safe calls is safe where the others lead. -/
theorem callsSafe_append (front : List ListCall) (call : ListCall) (run : UnusedLists × Recorded) :
    CallsSafe (front ++ [call]) run.1
      ↔ CallsSafe front run.1 ∧ CallSafe (runFrom front run).1 call := by
  induction front generalizing run with
  | nil => exact ⟨fun safe => ⟨trivial, safe.1⟩, fun safe => ⟨safe.2, trivial⟩⟩
  | cons next rest ih =>
    rw [List.cons_append, CallsSafe, CallsSafe, and_assoc]
    exact and_congr_right fun _ => ih (listStep run.1 next, run.2.step run.1.unusedListInit next)

/-- The lists are in order at the start of the program. -/
theorem start_inOrder : ({} : UnusedLists).InOrder fun _ => [] := by
  have holds : ({} : UnusedLists).Holds [] := rfl
  have free : ({} : UnusedLists).AllFree := fun file member => by
    rw [List.eq_of_mem_replicate member]
  exact Or.inl ⟨[], [], _, valid_of_free holds free fun _ => rfl⟩

/-- One more call makes one more step. -/
theorem listRun_append (calls : List ListCall) (call : ListCall) :
    listRun (calls ++ [call])
      = (listStep (listRun calls).1 call,
        (listRun calls).2.step (listRun calls).1.unusedListInit call) := by
  rw [listRun, List.foldl_append]
  rfl

/--
In a run of safe calls the current list shows what was recorded for the partition.

So it does after each call of `GetUnusedDataList`, and after each that `GetAllUnusedDataSize` makes.
-/
theorem getUnusedDataList_shows (calls : List ListCall) (p : Nat) (files : List (List SizeL)) :
    (CallsSafe (calls ++ [.get p files]) {} →
        (listRun (calls ++ [.get p files])).1.currentExtents
          = some ((listRun (calls ++ [.get p files])).2 p))
      ∧ ∀ front, (listRun calls).1.unusedListInit = false →
          CallsSafe (calls ++ [.getAll (front ++ [(p, files)])]) {} →
          (listRun (calls ++ [.getAll (front ++ [(p, files)])])).1.currentExtents
            = some ((listRun (calls ++ [.getAll (front ++ [(p, files)])])).2 p) := by
  have inOrder : CallsSafe calls {} → (listRun calls).1.InOrder (listRun calls).2 :=
    fun safe => runFrom_inOrder start_inOrder safe
  -- A single call shows what it recorded, and a call for all what its last one did.
  refine ⟨fun safe => ?_, fun front init safe => ?_⟩
  · obtain ⟨before, last⟩ := (callsSafe_append calls _ ({}, fun _ => [])).mp safe
    rw [listRun_append]
    exact ((inOrder before).get last).2
  · obtain ⟨before, last⟩ := (callsSafe_append calls _ ({}, fun _ => [])).mp safe
    have incomplete : ¬ (listRun calls).1.unusedListInit = true := by
      rw [init]
      exact Bool.noConfusion
    obtain ⟨gone, partitions⟩ := last.resolve_left incomplete
    rw [partitionsSafe_append] at partitions
    obtain ⟨front_, last_, -⟩ := partitions
    have start := (listRun calls).1.noTable_faithful ((inOrder before).nothing gone)
    obtain ⟨faithful, init_⟩ := start.getPartitions init front_
    have shown := (UnusedLists.InOrder.get (Or.inl faithful) (Or.inr last_)).2
    rw [listRun_append]
    have same : listStep (listRun calls).1 (.getAll (front ++ [(p, files)]))
        = { getUnusedDataList p files (getPartitions front (listRun calls).1.noTable) with
            unusedListInit := true } := by
      refine congrArg (fun s : UnusedLists => { s with unusedListInit := true })
        ((if_neg incomplete).trans ?_)
      exact List.foldl_append
    rw [same]
    refine shown.trans (congrArg (fun log : Recorded => some (log p)) ?_)
    rw [init_, init]
    show ((listRun calls).2.recordAll front).recordFiles p files
      = (listRun calls).2.recordAll (front ++ [(p, files)])
    rw [Recorded.recordAll, Recorded.recordAll, List.foldl_append]
    rfl

/-- Two partitions whose extents are recorded safely, one after the other. -/
def samplePartitions : List (Nat × List (List SizeL)) :=
  [(2, [[⟨64, 8⟩], [], [⟨128, 8⟩]]), (3, [[⟨256, 16⟩, ⟨512, 8⟩]])]

/-- They are safe: the table is made for the first record, and has room for the others. -/
theorem samplePartitions_safe : CallsSafe [.getAll samplePartitions] {} := by
  have noRoom : ∀ {s : UnusedLists} {n : Nat}, s.grows n = false → s.grows n = true → s.AllFree :=
    fun no yes => absurd yes (by rw [no]; exact Bool.noConfusion)
  refine ⟨Or.inr ⟨Or.inl rfl, ?_⟩, trivial⟩
  refine ⟨⟨⟨by decide, fun _ => by unfold UnusedLists.AllFree; decide, fun _ => ?_⟩,
    ⟨by decide, noRoom rfl, fun _ => ?_⟩, fun none_ => ?_⟩,
    ⟨⟨by decide, noRoom rfl, fun _ => ?_⟩, fun none_ => ?_⟩, trivial⟩
  · exact ⟨_, rfl, by decide, fun inUse => absurd rfl inUse⟩
  · exact ⟨_, rfl, by decide, fun _ => rfl⟩
  · cases none_
  · exact ⟨_, rfl, by decide, fun inUse => absurd rfl inUse⟩
  · cases none_

/-- Both partitions are shown what was recorded for them. -/
theorem getUnusedDataList_shows_two :
    (listRun [.getAll samplePartitions, .get 2 []]).1.currentExtents = some [⟨64, 8⟩, ⟨128, 8⟩]
      ∧ (listRun [.getAll samplePartitions]).1.currentExtents = some [⟨256, 16⟩, ⟨512, 8⟩] := by
  refine ⟨?_, ?_⟩
  · exact ((getUnusedDataList_shows [.getAll samplePartitions] 2 []).1
      ⟨samplePartitions_safe.1, Or.inl rfl, trivial⟩).trans rfl
  · exact ((getUnusedDataList_shows [] 3 [[⟨256, 16⟩, ⟨512, 8⟩]]).2
      [(2, [[⟨64, 8⟩], [], [⟨128, 8⟩]])] rfl samplePartitions_safe).trans rfl

/-! ### A table that moves -/

/-- The first descriptor is that of partition 0, and its extents start at a place. -/
structure UnusedLists.First (s : UnusedLists) (table count listCount : Nat) (place : Ptr) : Prop where
  live : s.unusedList = some table
  next : s.nextBlock = table + 1
  count : s.unusedListCount = count
  max_ : s.maxUnusedListCount = 0x2000
  files : ∃ totalSize rest, s.unusedFile = ⟨0, listCount, totalSize, some place⟩ :: rest

/-- A descriptor of partition 0 that is in use counts one more record, and stays where it is. -/
theorem addRecord_first {listCount totalSize : Nat} {place : Ptr} {pList : List SizeL}
    (newList : Option Ptr) (rest : List UnusedFile) (some_ : listCount ≠ 0)
    (small : listCount + pList.length < 2 ^ 16) :
    ∃ totalSize', addRecord 0 newList pList (⟨0, listCount, totalSize, some place⟩ :: rest)
      = ⟨0, listCount + pList.length, totalSize', some place⟩ :: rest := by
  have takesIt : (⟨0, listCount, totalSize, some place⟩ : UnusedFile).takes 0 = true := rfl
  rw [addRecord, if_pos takesIt, UnusedFile.add]
  simp only [some_, if_false, Nat.mod_eq_of_lt small]
  exact ⟨_, rfl⟩

/-- A record of partition 0 that finds room. -/
theorem UnusedLists.First.record {s : UnusedLists} {table count listCount : Nat} {place : Ptr}
    {pList : List SizeL} (first : s.First table count listCount place)
    (room : pList.length + count ≤ 0x2000) (some_ : listCount ≠ 0)
    (small : listCount + pList.length < 2 ^ 16) :
    (recordList 0 pList s).First table (count + pList.length) (listCount + pList.length) place := by
  obtain ⟨live, next, count_, max_, totalSize, rest, files⟩ := first
  have stays : s.withRoom pList.length = s := by
    refine if_neg ?_
    rw [UnusedLists.grows, live, max_, count_, u32_eq (by omega)]
    simp [room]
  obtain ⟨totalSize', added⟩ := @addRecord_first listCount totalSize place pList
    (s.unusedList.map fun b => ⟨b, s.unusedListCount⟩) rest some_ small
  rw [recordList_eq, stays]
  refine ⟨live, next, ?_, max_, totalSize', rest, ?_⟩
  · show u32 (s.unusedListCount + pList.length) = _
    rw [count_, u32_eq (by omega)]
  · rw [← added, ← files]


/-- A record of partition 0 that finds no room: the table moves, the descriptor stays. -/
theorem UnusedLists.First.record_grows {s : UnusedLists} {table count listCount : Nat} {place : Ptr}
    {pList : List SizeL} (first : s.First table count listCount place)
    (full : 0x2000 < pList.length + count) (fits : pList.length + count < 2 ^ 32)
    (some_ : listCount ≠ 0) (small : listCount + pList.length < 2 ^ 16) :
    (recordList 0 pList s).unusedList = some (table + 1)
      ∧ ∃ totalSize rest, (recordList 0 pList s).unusedFile
        = ⟨0, listCount + pList.length, totalSize, some place⟩ :: rest := by
  obtain ⟨live, next, count_, max_, totalSize, rest, files⟩ := first
  have moves : s.withRoom pList.length = s.grow pList.length := by
    refine if_pos ?_
    rw [UnusedLists.grows, live, max_, count_, u32_eq fits]
    simp [full]
  obtain ⟨totalSize', added⟩ := @addRecord_first listCount totalSize place pList
    ((s.grow pList.length).unusedList.map fun b => ⟨b, (s.grow pList.length).unusedListCount⟩)
    rest some_ small
  rw [recordList_eq, moves]
  refine ⟨?_, totalSize', rest, ?_⟩
  · show (s.grow pList.length).unusedList = _
    rw [← next]
    simp only [UnusedLists.grow, live, Option.isNone_some, Bool.false_eq_true, if_false]
  · rw [← added, ← files, ← s.grow_unusedFile pList.length]

/-- The first record of all. -/
theorem first_start {pList : List SizeL} (some_ : pList ≠ []) (small : pList.length ≤ 0x2000) :
    (recordList 0 pList {}).First 0 pList.length pList.length ⟨0, 0⟩ := by
  have long : 0 < pList.length := List.length_pos_iff.mpr some_
  have rounds : roundList pList.length = 0x2000 := by
    rw [roundList, u32_eq (by omega)]
    omega
  refine ⟨rfl, rfl, ?_, ?_, ?_⟩
  · show u32 (0 + pList.length) = pList.length
    rw [Nat.zero_add, u32_eq (by omega)]
  · show u32 (0 + roundList pList.length) = 0x2000
    rw [rounds]
    rfl
  · refine ⟨u32 (0 + sectorsOf pList), List.replicate 7 {}, ?_⟩
    show (⟨0, (0 + pList.length) % 2 ^ 16, _, _⟩ : UnusedFile) :: _ = _
    rw [Nat.zero_add, Nat.mod_eq_of_lt (by omega)]
    rfl

/-- A descriptor that points into another block than the table shows nothing of it. -/
theorem lookUp_stale {s : UnusedLists} {table block offset listCount totalSize : Nat}
    {rest : List UnusedFile} (live : s.unusedList = some table)
    (files : s.unusedFile = ⟨0, listCount, totalSize, some ⟨block, offset⟩⟩ :: rest)
    (moved : block ≠ table) (some_ : listCount ≠ 0) : (s.lookUp 0).currentExtents = none := by
  have found : s.unusedFile.find? (fun file => file.partitionIndex == 0)
      = some ⟨0, listCount, totalSize, some ⟨block, offset⟩⟩ := by
    rw [files, List.find?_cons]
    rfl
  rw [UnusedLists.lookUp, found]
  simp only [UnusedLists.currentExtents, some_, if_false, live]
  cases s.heap table with
  | none => rfl
  | some extents => exact if_neg fun inside => moved inside.1

/--
The extents of three files of a partition need a second table when the third is recorded.

The descriptor then still points into the first table, which was freed.
-/
theorem getUnusedDataList_stale {A B C : List SizeL} (some_ : A ≠ []) (someB : B ≠ [])
    (room : A.length + B.length ≤ 0x2000) (full : 0x2000 < A.length + B.length + C.length)
    (small : A.length + B.length + C.length < 2 ^ 16) :
    (getUnusedDataList 0 [A, B, C] {}).currentExtents = none := by
  have long : 0 < A.length := List.length_pos_iff.mpr some_
  have third : C ≠ [] := fun none_ => by
    rw [none_, List.length_nil] at full
    omega
  have first := first_start some_ (by omega)
  have second := @UnusedLists.First.record _ _ _ _ _ B first (by omega) (by omega) (by omega)
  obtain ⟨live, totalSize, rest, files⟩ :=
    @UnusedLists.First.record_grows _ _ _ _ _ C second (by omega) (by omega) (by omega) (by omega)
  have all : getUnusedDataList 0 [A, B, C] {}
      = (recordList 0 C (recordList 0 B (recordList 0 A {}))).lookUp 0 := by
    show UnusedLists.lookUp 0 (recordFiles 0 [A, B, C] {}) = _
    simp only [recordFiles, List.foldl_cons, List.foldl_nil, some_, someB, third, if_false]
  rw [all]
  exact lookUp_stale live files (by omega) (by omega)

/-- The three files of a partition that fill a table and one place more are not shown. -/
theorem getAllUnusedDataSize_moves :
    (listRun [.getAll [(0, [List.replicate 4096 ⟨64, 8⟩, List.replicate 4096 ⟨64, 8⟩,
        [⟨64, 8⟩]])]]).1.currentExtents
      ≠ some ((listRun [.getAll [(0, [List.replicate 4096 ⟨64, 8⟩, List.replicate 4096 ⟨64, 8⟩,
        [⟨64, 8⟩]])]]).2 0) := by
  obtain ⟨A, isA⟩ : ∃ A : List SizeL, A = List.replicate 4096 ⟨64, 8⟩ := ⟨_, rfl⟩
  rw [← isA]
  have length_ : A.length = 4096 := by rw [isA, List.length_replicate]
  have some_ : A ≠ [] := fun none_ => by
    rw [none_] at length_
    cases length_
  have stale := @getUnusedDataList_stale A A [⟨64, 8⟩] some_ some_ (by omega)
    (by rw [length_]; decide) (by rw [length_]; decide)
  have none_ : (listRun [.getAll [(0, [A, A, [⟨64, 8⟩]])]]).1.currentExtents = none := stale
  rw [none_]
  exact fun shown => by cases shown

end Okr
