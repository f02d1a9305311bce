import Okr.Base.Word
import Okr.Lib.Overlay

/-! The sectors a backup leaves out, file by file, in one table that grows on the heap. -/

namespace Okr

/-- A run of sectors of a file. -/
structure SizeL where
  start : Nat
  number : Nat
deriving Repr, DecidableEq

/-- A place in a block of the heap. -/
structure Ptr where
  block : Nat
  offset : Nat
deriving Repr, DecidableEq

/-- A block of the heap: how many extents it was allocated for, and those written so far. -/
structure ExtentBlock where
  capacity : Nat
  extents : List SizeL
deriving Repr, DecidableEq

/-- `UNUSED_FILE_DESC`: where the extents of a partition stand, and how many there are. -/
structure UnusedFile where
  partitionIndex : Nat := 0
  listCount : Nat := 0
  totalSize : Nat := 0
  pList : Option Ptr := none
deriving Repr, DecidableEq

/-- Slots of `g_UnusedFile`. -/
def MAX_UNUSED_FILES : Nat := 8

/-- The variables of the table, as they are at the start of the program. -/
structure UnusedLists where
  /-- The live blocks of the heap; a block that was freed is never handed out again. -/
  heap : Nat → Option ExtentBlock := fun _ => none
  nextBlock : Nat := 0
  unusedList : Option Nat := none
  unusedListCount : Nat := 0
  maxUnusedListCount : Nat := 0
  unusedFile : List UnusedFile := List.replicate MAX_UNUSED_FILES {}
  unusedListInit : Bool := false
  currentUnusedList : Option Ptr := none
  currentUnusedListCount : Nat := 0

/-- The sectors of some extents, in 32 bits. -/
def sectorsOf (extents : List SizeL) : Nat :=
  extents.foldl (fun totalsize extent => u32 (totalsize + extent.number)) 0

/-- `(ListNumber + 0x1fff) & ~0x1fff`. -/
def roundList (listNumber : Nat) : Nat := u32 (listNumber + 0x1fff) / 0x2000 * 0x2000

/-- There is no table yet, or too small a one. -/
def UnusedLists.grows (s : UnusedLists) (listNumber : Nat) : Bool :=
  s.unusedList.isNone || decide (s.maxUnusedListCount < u32 (listNumber + s.unusedListCount))

/-- The first part of `RecordList`: a new table takes over the extents of the old one, which is freed. -/
def UnusedLists.grow (s : UnusedLists) (listNumber : Nat) : UnusedLists :=
  let s :=
    if s.unusedList.isNone then { s with maxUnusedListCount := 0, unusedListCount := 0 } else s
  let newListCount := u32 (s.maxUnusedListCount + roundList listNumber)
  let old := (s.unusedList.bind s.heap).elim [] (·.extents)
  let heap := fun b =>
    if b = s.nextBlock then some ⟨newListCount, old.take s.unusedListCount⟩
    else if s.unusedListCount ≠ 0 ∧ some b = s.unusedList then none
    else s.heap b
  { s with
    heap := heap
    nextBlock := s.nextBlock + 1
    unusedList := some s.nextBlock
    maxUnusedListCount := newListCount }

/-- The second part: the extents go behind those of the table. -/
def UnusedLists.append (s : UnusedLists) (pList : List SizeL) : UnusedLists :=
  let heap := fun b =>
    if some b = s.unusedList then
      (s.heap b).map fun block =>
        { block with extents := block.extents.take s.unusedListCount ++ pList }
    else s.heap b
  { s with
    heap := heap
    unusedListCount := u32 (s.unusedListCount + pList.length) }

/-- The descriptor a record goes to is that of the partition, or a free one. -/
def UnusedFile.takes (file : UnusedFile) (partitionIndex : Nat) : Bool :=
  file.partitionIndex == partitionIndex || file.listCount == 0

/-- The descriptor with another record; `ListCount` has 16 bits. -/
def UnusedFile.add (file : UnusedFile) (partitionIndex : Nat) (newList : Option Ptr)
    (pList : List SizeL) : UnusedFile :=
  let file :=
    if file.listCount = 0 then { file with partitionIndex := partitionIndex, pList := newList }
    else file
  { file with
    listCount := (file.listCount + pList.length) % 2 ^ 16
    totalSize := u32 (file.totalSize + sectorsOf pList) }

/-- The first descriptor that takes a record gets it, if there is one. -/
def addRecord (partitionIndex : Nat) (newList : Option Ptr) (pList : List SizeL) :
    List UnusedFile → List UnusedFile
  | [] => []
  | file :: rest =>
    if file.takes partitionIndex then file.add partitionIndex newList pList :: rest
    else file :: addRecord partitionIndex newList pList rest

/-- `RecordList`. -/
def recordList (partitionIndex : Nat) (pList : List SizeL) (s : UnusedLists) : UnusedLists :=
  let s := if s.grows pList.length then s.grow pList.length else s
  let newList := s.unusedList.map fun b => (⟨b, s.unusedListCount⟩ : Ptr)
  let s := s.append pList
  { s with unusedFile := addRecord partitionIndex newList pList s.unusedFile }

/-- The last part of `GetUnusedDataList`: the first descriptor of the partition is looked up. -/
def UnusedLists.lookUp (partitionIndex : Nat) (s : UnusedLists) : UnusedLists :=
  match s.unusedFile.find? fun file => file.partitionIndex == partitionIndex with
  | some file =>
    { s with
      currentUnusedList := file.pList
      currentUnusedListCount := file.listCount }
  | none => s

/-- The extents of the files of a partition are recorded, file by file; a file without any is not. -/
def recordFiles (partitionIndex : Nat) (files : List (List SizeL)) (s : UnusedLists) : UnusedLists :=
  files.foldl (fun s pList => if pList = [] then s else recordList partitionIndex pList s) s

/--
`GetUnusedDataList`.

`files` are the extents the volume shows at the time for the three files that are left out.
-/
def getUnusedDataList (partitionIndex : Nat) (files : List (List SizeL)) (s : UnusedLists) :
    UnusedLists :=
  let s := { s with currentUnusedList := none, currentUnusedListCount := 0 }
  let s := if s.unusedListInit then s else recordFiles partitionIndex files s
  s.lookUp partitionIndex

/-- The size `GetUnusedDataList` returns. -/
def UnusedLists.fileSize (partitionIndex : Nat) (s : UnusedLists) : Nat :=
  ((s.unusedFile.find? fun file => file.partitionIndex == partitionIndex).map (·.totalSize)).getD 0

/-- `GetAllUnusedDataSize`, over the partitions that are backed up, and what their files show. -/
def getAllUnusedDataSize (partitions : List (Nat × List (List SizeL))) (s : UnusedLists) :
    UnusedLists :=
  let s :=
    if s.unusedListInit then s
    else
      partitions.foldl (fun s partition => getUnusedDataList partition.1 partition.2 s)
        { s with
          unusedListCount := 0
          maxUnusedListCount := 0
          unusedList := none
          unusedFile := List.replicate MAX_UNUSED_FILES {} }
  { s with unusedListInit := true }

/-- The size `GetAllUnusedDataSize` returns. -/
def UnusedLists.allSize (s : UnusedLists) : Nat :=
  s.unusedFile.foldl (fun totalsize file => u32 (totalsize + file.totalSize)) 0

/-- `ReleaseUnusedDataList`: the table is freed, the descriptors stay. -/
def releaseUnusedDataList (s : UnusedLists) : UnusedLists :=
  if s.unusedListInit then
    { s with
      heap := fun b => if some b = s.unusedList then none else s.heap b
      unusedList := none
      unusedListInit := false }
  else s

/-- The extents that the current list shows, when it lies inside the live table. -/
def UnusedLists.currentExtents (s : UnusedLists) : Option (List SizeL) :=
  if s.currentUnusedListCount = 0 then some []
  else
    match s.currentUnusedList, s.unusedList with
    | some p, some b =>
      match s.heap b with
      | some block =>
        if p.block = b ∧ p.offset + s.currentUnusedListCount ≤ block.capacity then
          some (Overlay.window block.extents p.offset s.currentUnusedListCount)
        else none
      | none => none
    | _, _ => none

/-- A call of one of the four functions. -/
inductive ListCall where
  | record (partitionIndex : Nat) (pList : List SizeL)
  | get (partitionIndex : Nat) (files : List (List SizeL))
  | getAll (partitions : List (Nat × List (List SizeL)))
  | release
deriving Repr, DecidableEq

/-- What a call does. -/
def listStep (s : UnusedLists) : ListCall → UnusedLists
  | .record p pList => recordList p pList s
  | .get p files => getUnusedDataList p files s
  | .getAll partitions => getAllUnusedDataSize partitions s
  | .release => releaseUnusedDataList s

end Okr
