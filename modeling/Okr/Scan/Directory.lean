import Okr.Base.Disk
import Okr.Lib.Loop

/-! The search of a FAT directory for a name, in the sectors of it that are loaded. -/

namespace Okr

/--
The size of the structure `FAT_DIRECTORY_ENTRY`.

It contains a pointer, which takes eight bytes and is aligned to as many.
-/
def FAT_DIRECTORY_ENTRY : Nat := 40

/-- A letter of the name as `RevertFileName` writes it. -/
def revertChar (c : Byte) : Byte := if 0x61 ≤ char c ∧ char c ≤ 0x7a then c - 0x20 else c

/-- The loop of `RevertFileName`: what is written, and its length; no success with too long a name. -/
def revertLoop : Bytes → Nat → Bytes → Bool × Bytes × Nat
  | [], i, dosName => (true, dosName, i)
  | [c], i, dosName =>
    if i > 11 then (false, dosName, i)
    else if c ≠ 0x2e then (true, dosName ++ [revertChar c], i + 1)
    else if i = 0 then (true, dosName ++ 0x2e :: List.replicate 10 0x20, 11)
    else if i < 8 then (true, dosName ++ List.replicate (8 - i) 0x20, 8)
    else if i > 8 then (true, dosName ++ [0x2e], i + 1)
    else (true, dosName, i)
  | c :: next :: fileName, i, dosName =>
    if i > 11 then (false, dosName, i)
    else if c ≠ 0x2e then revertLoop (next :: fileName) (i + 1) (dosName ++ [revertChar c])
    else if i = 0 then
      -- The parent directory takes both points.
      if next = 0x2e then revertLoop fileName 11 (dosName ++ 0x2e :: 0x2e :: List.replicate 9 0x20)
      else revertLoop (next :: fileName) 8 (dosName ++ List.replicate 8 0x20)
    else if i < 8 then revertLoop (next :: fileName) 8 (dosName ++ List.replicate (8 - i) 0x20)
    else if i > 8 then revertLoop (next :: fileName) (i + 1) (dosName ++ [0x2e])
    else revertLoop (next :: fileName) i dosName

/-- `RevertFileName`: the name as a directory has it, with spaces up to eleven characters. -/
def revertFileName (fileName : Bytes) : Bool × Bytes :=
  match revertLoop fileName 0 [] with
  | (false, dosName, _) => (false, dosName)
  | (true, dosName, i) => (true, dosName ++ List.replicate (11 - i) 0x20)

/-- The array `name`: what `RevertFileName` writes, cut by a zero byte. -/
def directoryName (fileName : Bytes) : Image := fun i =>
  if i < 11 then (revertFileName fileName).2.getD i 0 else 0

/-- The two characters let the loop of `strnicmp` go on. -/
def strnicmpGoes (a b : Int) : Bool :=
  (a = b ∨ a = b + 0x20 ∨ a = b - 0x20) ∧ a ≠ 0 ∧ b ≠ 0

/-- The number `strnicmp` returns, from the characters with a number on. -/
def strnicmpFrom (str1 str2 : Image) : Nat → Nat → Int
  | 0, _ => 0
  | len + 1, i =>
    let a := char (str1 i)
    let b := char (str2 i)
    if strnicmpGoes a b then
      if a > b ∧ (a < 0x61 ∨ a > 0x7a) then 1
      else if a < b ∧ (a < 0x41 ∨ a > 0x5a) then -1
      else strnicmpFrom str1 str2 len (i + 1)
    else if a > b then 1
    else if a = b then 0
    else -1

/-- How many characters `strnicmp` reads: the loop looks at two before it asks for the length. -/
def strnicmpReads (str1 str2 : Image) : Nat → Nat → Nat
  | 0, _ => 1
  | len + 1, i =>
    let a := char (str1 i)
    let b := char (str2 i)
    if strnicmpGoes a b then
      if a > b ∧ (a < 0x61 ∨ a > 0x7a) then 1
      else if a < b ∧ (a < 0x41 ∨ a > 0x5a) then 1
      else strnicmpReads str1 str2 len (i + 1) + 1
    else 1

/-- A place in a buffer, taken as the start of another one. -/
def bufferFrom (buffer : Image) (pos : Nat) : Image := fun i => buffer (pos + i)

/-- `Buffer` and `BufferSize`: where the search is, and what the 16-bit counter has left. -/
structure DirectoryScan where
  pos : Nat
  bufferSize : Nat
deriving DecidableEq, Repr

/-- One pass of the loop of `GetDirectoryItem`. -/
def directoryPass (name buffer : Image) (s : DirectoryScan) :
    Loop.Pass DirectoryScan (Option Nat) :=
  if s.bufferSize ≠ 0 ∧ buffer s.pos ≠ 0 then
    if strnicmpFrom name (bufferFrom buffer s.pos) 11 0 = 0 then .done (some s.pos)
    else .next ⟨s.pos + FAT_DIRECTORY_ENTRY, (s.bufferSize + 2 ^ 16 - FAT_DIRECTORY_ENTRY) % 2 ^ 16⟩
  else .done none

/-- What a pass reads of the buffer: addresses, and the bytes from there on. -/
def directoryReads (name buffer : Image) (s : DirectoryScan) : List (Nat × Nat) :=
  if s.bufferSize = 0 then []
  else if buffer s.pos = 0 then [(s.pos, 1)]
  else [(s.pos, 1), (s.pos, strnicmpReads name (bufferFrom buffer s.pos) 11 0)]

/-- `GetDirectoryItem`: where the item is in the buffer; nothing when the search never ends. -/
def getDirectoryItem (fuel : Nat) (fileName : Bytes) (buffer : Image) (bufferSize : Nat) :
    Option (Option Nat) :=
  Loop.run (directoryPass (directoryName fileName) buffer) fuel ⟨0, bufferSize % 2 ^ 16⟩

/-- The sectors of a directory that are in the buffer at a time, and what is in memory behind them. -/
structure LoadedSectors where
  sectors : Nat
  behind : Image
  some_ : 0 < sectors
  /-- The buffer has 32 KiB. -/
  fits : sectors * SECTOR_SIZE ≤ 0x8000

/-- The buffer with the sectors of a directory from one on. -/
def LoadedSectors.buffer (piece : LoadedSectors) (dir : Image) (first : Nat) : Image :=
  diskRead dir first piece.sectors piece.behind

/--
The search of a directory that is loaded piece by piece: where in it the item is.

The pieces follow each other, and the search goes on with the next one while it has no item.
-/
def searchDirectory (fuel : Nat) (fileName : Bytes) (dir : Image) :
    List LoadedSectors → Nat → Option (Option Nat)
  | [], _ => some none
  | piece :: pieces, first =>
    match getDirectoryItem fuel fileName (piece.buffer dir first) (piece.sectors * SECTOR_SIZE) with
    | none => none
    | some (some pos) => some (some (first * SECTOR_SIZE + pos))
    | some none => searchDirectory fuel fileName dir pieces (first + piece.sectors)

end Okr
