import Okr.Images.FindAll
import Okr.Lib.Strings

/-! The names in the directories of the images, packed into one buffer and walked through there. -/

namespace Okr

open Strings

/-- The size in bytes that `GetBackupFileList` gives its buffer for the names. -/
def NAME_BUFFER_SIZE : Nat := 1024 * 1024

/-- How many characters of a name are copied at most. -/
def NAME_COPY_CHARS : Nat := 100

/-- The name of an entry of a directory, as it stands in `EFI_FILE_INFO` in front of its zero. -/
structure FileName where
  chars : List UInt16
  ended : 0 ∉ chars

/-- `L"."` or `L".."`. -/
def FileName.isDots (name : FileName) : Bool := name.chars == [0x2e] || name.chars == [0x2e, 0x2e]

/--
What a volume answers about one of the two directories.

`reads` is what `FileRead` brings, entry after entry; where it is nothing, the read fails. Behind them a read
has the size zero.
-/
structure NameDir where
  exists_ : Bool
  opens : Bool
  reads : List (Option FileName)

/-- The variables behind the pointers of `GetFileNamelistFunc`, and what it has stored so far. -/
structure NameBuffer where
  filelist : Nat := 0
  size : Int
  stores : List (Nat × List UInt16) := []

/-- `StrnCpy`: as many characters as it is told, with zeros behind a shorter string. -/
def strnCpy (source : List UInt16) (length : Nat) : List UInt16 := source.takeD length 0

/-- A name goes into the buffer; the size is one in bytes and is counted down by characters. -/
def NameBuffer.put (b : NameBuffer) (name : FileName) : NameBuffer where
  filelist := b.filelist + (name.chars.length + 1)
  size := b.size - (name.chars.length + 1)
  stores := b.stores ++ [(b.filelist, strnCpy name.chars NAME_COPY_CHARS)]

/-- The loop of `GetFileNamelistFunc`; the count is nothing where it returns -1. -/
def namelistLoop : List (Option FileName) → Nat → NameBuffer → Option Nat × NameBuffer
  | [], ret, b => (some ret, b)
  | none :: _, ret, b => if 0 < b.size then (none, b) else (some ret, b)
  | some name :: reads, ret, b =>
    if 0 < b.size then
      if name.isDots then namelistLoop reads ret b else namelistLoop reads (ret + 1) (b.put name)
    else (some ret, b)

/-- `GetFileNamelistFunc`: the names of one directory. -/
def getFileNamelistFunc (dir : NameDir) (b : NameBuffer) : Option Nat × NameBuffer :=
  if dir.opens then namelistLoop dir.reads 0 b else (none, b)

/-- The volume of the images with its two directories, `BACKUP_DIR` and `BACKUP_DIR_CUSTOMER`. -/
structure NameVolume where
  isLenovoPart : Bool
  dir : NameDir
  customer : NameDir

/-- A directory's count is added where it has one; its names stay in the buffer where it has none. -/
def addNamelist (dir : NameDir) (ret : Nat) (b : NameBuffer) : Nat × NameBuffer :=
  let iRet := getFileNamelistFunc dir b
  (match iRet.1 with
    | some count => ret + count
    | none => ret, iRet.2)

/-- `GetFileNamelist`: the names of the directories that are there. -/
def getFileNamelist (v : NameVolume) (size : Int) : Nat × NameBuffer :=
  let b : NameBuffer := { size := size }
  if v.isLenovoPart then addNamelist v.dir 0 b
  else
    let customer := if v.customer.exists_ then addNamelist v.customer 0 b else (0, b)
    if v.dir.exists_ then addNamelist v.dir customer.1 customer.2 else customer

section
variable {State : Type}

/-- What is done with a name: one that is empty, or that a header has no room for, is passed over. -/
def visitName (check : State → List UInt16 → State × Bool) (s : State) (filename : List UInt16) :
    State × Bool :=
  if filename.length = 0 then (s, false)
  else if filename.length + 1 ≤ FILE_NAME_CHARS then check s filename
  else (s, false)

/--
The loop of `GetBackupFileList` over the buffer: the names it comes to, and what it makes of them.

`check` opens and reads the file of a name, and tells whether the list of headers is full. There is no
result where a string has no end.
-/
def walkNames (fuel : Nat) (m : Nat → UInt16) (check : State → List UInt16 → State × Bool) :
    Nat → Nat → State → Option (List (List UInt16) × State)
  | _, 0, s => some ([], s)
  | filename, filenum + 1, s =>
    match Strings.length 0 m fuel filename with
    | none => none
    | some strLength =>
      let name := window m filename strLength
      let visited := visitName check s name
      if visited.2 then some ([name], visited.1)
      else
        (walkNames fuel m check (filename + (strLength + 1)) filenum visited.1).map
          fun (names, s) => (name :: names, s)

/-- The same over a list of names. -/
def visitNames (check : State → List UInt16 → State × Bool) :
    List (List UInt16) → State → List (List UInt16) × State
  | [], s => ([], s)
  | name :: rest, s =>
    let visited := visitName check s name
    if visited.2 then ([name], visited.1)
    else
      let later := visitNames check rest visited.1
      (name :: later.1, later.2)

/-- The names of a volume as `GetBackupFileList` comes to them in a buffer with any content. -/
def walkBackupNames (fuel : Nat) (v : NameVolume) (m : Nat → UInt16)
    (check : State → List UInt16 → State × Bool) (s : State) : Option (List (List UInt16) × State) :=
  let list := getFileNamelist v NAME_BUFFER_SIZE
  walkNames fuel (layAll m list.2.stores) check 0 list.1 s

end

/-- The part of the loop for a name that can be used, with the count of the headers of this volume. -/
def checkFile (partindex : Nat) (bReadOnly : Bool) (maxnum : Int) (file : List UInt16 → BackupFile)
    (s : Int × HeaderList) (filename : List UInt16) : (Int × HeaderList) × Bool :=
  match (file filename).checked with
  | none => (s, false)
  | some header =>
    if header.bComplete then
      ((s.1 + 1, s.2.add partindex (file filename) header.image), decide (s.1 + 1 ≥ maxnum))
    else ((s.1, s.2.reject partindex bReadOnly (file filename)), false)

/-- The directories that are looked into, in this order. -/
def NameVolume.dirs (v : NameVolume) : List NameDir :=
  if v.isLenovoPart then [v.dir]
  else [v.customer, v.dir].filter NameDir.exists_

/-- The names that reads bring: those in front of one that fails. -/
def namesOf (reads : List (Option FileName)) : List (List UInt16) :=
  (((reads.takeWhile Option.isSome).filterMap id).filter fun name => !name.isDots).map FileName.chars

/-- The names that can be read from a directory. -/
def NameDir.readable (dir : NameDir) : List (List UInt16) := if dir.opens then namesOf dir.reads else []

/-- The directory opens and can be read to its end. -/
def NameDir.isListed (dir : NameDir) : Bool := dir.opens && dir.reads.all Option.isSome

/-- The names of the directories that can be read to their ends. -/
def NameVolume.listed (v : NameVolume) : List (List UInt16) :=
  (v.dirs.filter NameDir.isListed).flatMap NameDir.readable

/-- Every name that can be read from the directories. -/
def NameVolume.readable (v : NameVolume) : List (List UInt16) := v.dirs.flatMap NameDir.readable

/-- The characters that names take in the buffer, each with a zero behind it. -/
def spaceOf (names : List (List UInt16)) : Nat := (names.map fun name => name.length + 1).sum

/--
The names are stored inside the buffer, and the walk through it comes to those of the listed directories.

This is so whatever the buffer has held before, whatever is done with the names, and up to the one that
fills the list of headers.
-/
def NameVolume.RoundTrips (v : NameVolume) : Prop :=
  (∀ store ∈ (getFileNamelist v NAME_BUFFER_SIZE).2.stores,
      2 * (store.1 + store.2.length) ≤ NAME_BUFFER_SIZE)
    ∧ ∀ (m : Nat → UInt16) (State : Type) (check : State → List UInt16 → State × Bool) (s : State),
        ∃ enough, ∀ fuel ≥ enough, walkBackupNames fuel v m check s = some (visitNames check v.listed s)

/--
What the packing relies on: room for every name that can be read, and for one whole copy of the last; names
of listed directories that a copy does not cut; and no name that can be read in front of them.
-/
structure NameVolume.Packs (v : NameVolume) : Prop where
  size : spaceOf v.readable < NAME_BUFFER_SIZE
  room : v.readable ≠ [] → 2 * (spaceOf v.readable.dropLast + NAME_COPY_CHARS) ≤ NAME_BUFFER_SIZE
  short : ∀ name ∈ v.listed, name.length < NAME_COPY_CHARS
  first : v.listed <+: v.readable

end Okr
