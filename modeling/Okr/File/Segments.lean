import Okr.File.Fat
import Okr.File.Legacy

/-! Files in segments, with the names `name`, `name.1`, `name.2` and so on, read and written as one. -/

namespace Okr

/-- A file is continued in its next segment once it holds more than this. -/
def SPLIT_SIZE : Nat := 1510612736

/--
A file opened through `FileOpen` or `SegFileOpen`: the segment that is open, and what is stored.

Nothing is open once a segment could not be opened.
The volume gives what it stores under the name of each segment.
-/
structure SegFile where
  backend : Backend
  ifneedseg : Bool
  currentfileseg : Nat := 0
  currentfilesize : Nat := 0
  ifeof : Bool := false
  opened : Option OpenFile
  volume : Nat → Option Bytes

/-- What the volume stores under the name of a segment changes. -/
def storeSegment (volume : Nat → Option Bytes) (k : Nat) (stored : Option Bytes) : Nat → Option Bytes :=
  fun i => if i = k then stored else volume i

namespace SegFile

/-- `FileClose`: the volume stores what the open segment holds. -/
def close (f : SegFile) : SegFile :=
  match f.opened with
  | none => f
  | some file =>
    { f with
      opened := none
      volume := storeSegment f.volume f.currentfileseg (some file.close) }

/-- `_FileOpen` for reading: a segment that is not there cannot be opened. -/
def openRead (f : SegFile) (k : Nat) : SegFile :=
  { f with currentfileseg := k, opened := (f.volume k).map fun data => openFile f.backend data [] }

end SegFile

/-- `FileOpen` of the first segment for reading; on NTFS it never goes on to another segment. -/
def segFileOpen (backend : Backend) (ifneedseg : Bool) (volume : Nat → Option Bytes) : SegFile :=
  ({ backend := backend, ifneedseg := ifneedseg, opened := none, volume := volume } : SegFile).openRead 0

/-- `FileSetPos`; without an open segment a null handle is followed. -/
def SegFile.setPos (f : SegFile) (pos : Nat) : Reply × SegFile :=
  match f.opened with
  | none => (.crash, { f with ifeof := false })
  | some file => (.done, { f with ifeof := false, opened := some (file.setPos pos) })

/-- A read from the segment that is open. -/
def SegFile.readOpen (f : SegFile) (size : Nat) : Reply × SegFile :=
  match f.opened with
  | none => (.crash, f)
  | some file =>
    let (reply, file) := file.read size
    (reply, { f with opened := some file })

/-- `FileRead`, up to the conversion: at the end of a segment the next one is opened and read. -/
def SegFile.readNext (f : SegFile) (size : Nat) : Reply × SegFile :=
  match f.readOpen size with
  | (.bytes bytes, f) =>
    if f.ifneedseg ∧ bytes = [] then
      let f := f.close.openRead (f.currentfileseg + 1)
      match f.opened with
      | none => (.bytes [], { f with ifeof := true })
      | some _ => f.readOpen size
    else (.bytes bytes, f)
  | other => other

/-- The global variables in which `FileRead` notes that a header was converted. -/
structure OldHeader where
  oldImage : Bool := false
  oldStructSize : Nat := 0
deriving Repr, DecidableEq

/-- The caller's buffer with the bytes of a read in front. -/
def readInto (bytes : Bytes) (buffer : Image) : Image := fun a =>
  if a < bytes.length then bytes.getD a 0 else buffer a

/--
The end of `FileRead`: a buffer that begins like an older header is converted.

The test looks at the buffer, whatever was read into it and from wherever in the file.
-/
def convertRead (bytes : Bytes) (buffer heap : Image) : Bytes × OldHeader :=
  let full := readInto bytes buffer
  if isLegacy full then
    (bytesAt (convertHeader full heap) 0 bytes.length, ⟨true, le32 full 8⟩)
  else (bytes, {})

/-- `FileRead`, with the caller's buffer and the heap as they are before. -/
def fileRead (f : SegFile) (size : Nat) (buffer heap : Image) (old : OldHeader) :
    Reply × SegFile × OldHeader :=
  if f.ifeof then (.bytes [], f, old)
  else
    match f.readNext size with
    | (.bytes bytes, f) =>
      -- A file that ends here is left before the conversion.
      if f.ifeof then (.bytes [], f, old)
      else
        let (bytes, old) := convertRead bytes buffer heap
        (.bytes bytes, f, old)
    | (reply, f) => (reply, f, old)

/-- A write to the segment that is open. -/
def SegFile.writeOpen (f : SegFile) (buffer : Bytes) : Reply × SegFile :=
  match f.opened with
  | none => (.crash, f)
  | some file =>
    let (reply, file) := file.write buffer
    (reply, { f with opened := some file })

/-- `_FileOpen` for writing: a segment that is not there is created, unless the volume refuses. -/
def SegFile.openCreate (f : SegFile) (k : Nat) (refused : Bool) : SegFile :=
  if refused then { f with currentfileseg := k, opened := none }
  else
    let data := (f.volume k).getD []
    { f with
      currentfileseg := k
      opened := some (openFile f.backend data [])
      volume := storeSegment f.volume k (some data) }

/-- `FileWrite`: after a write that fills a segment the next one is created. -/
def fileWrite (f : SegFile) (buffer : Bytes) (refused : Bool) : Bool × SegFile :=
  match f.writeOpen buffer with
  | (.wrote n, f) =>
    if n ≠ buffer.length then (false, f)
    else
      let f := { f with currentfilesize := f.currentfilesize + n }
      if f.ifneedseg ∧ SPLIT_SIZE < f.currentfilesize then
        let f := { f.close with currentfilesize := 0 }
        let f := f.openCreate (f.currentfileseg + 1) refused
        (f.opened.isSome, f)
      else (true, f)
  | (_, f) => (false, f)

end Okr
