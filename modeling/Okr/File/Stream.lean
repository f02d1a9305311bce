import Okr.File.Plain
import Okr.File.Segments

/-! What segmented files stand for: a sequence of contents with a place in it, and when they do. -/

namespace Okr

/--
An image as its readers take it: the contents of its segments, and a position in one of them.

It has ended once a segment is asked for that is not there.
-/
structure Stream where
  segments : Nat → Option Bytes
  segmented : Bool
  current : Nat := 0
  pos : Nat := 0
  ended : Bool := false

namespace Stream

/-- The bytes of the segment the position is in. -/
def content (s : Stream) : Bytes := (s.segments s.current).getD []

/-- Seeking stays in the segment. -/
def setPos (s : Stream) (pos : Nat) : Stream := { s with pos := pos, ended := false }

/-- The bytes at the position; behind the last byte of a segment the next one follows. -/
def plainRead (s : Stream) (size : Nat) : Bytes × Stream :=
  if s.ended then ([], s)
  else
    let bytes := Overlay.window s.content s.pos size
    if s.segmented ∧ bytes = [] then
      match s.segments (s.current + 1) with
      | none => ([], { s with current := s.current + 1, ended := true })
      | some next =>
        let bytes := Overlay.window next 0 size
        (bytes, { s with current := s.current + 1, pos := bytes.length })
    else (bytes, { s with pos := s.pos + bytes.length })

/-- The bytes are read from the front of the image, and are those of an older header. -/
def readsLegacy (s : Stream) (bytes : Bytes) : Bool :=
  s.current == 0 && s.pos == 0 && decide (8 ≤ bytes.length) && isLegacy (readInto bytes fun _ => 0)

/-- A header in the form of today, as far as it was read. -/
def convertedForm (bytes : Bytes) : Bytes :=
  bytesAt (convertHeader (readInto bytes fun _ => 0) fun _ => 0) 0 bytes.length

/-- A read gives the bytes at the position, and an older header in converted form. -/
def read (s : Stream) (size : Nat) : Bytes × Stream :=
  let (bytes, s') := s.plainRead size
  (if s.readsLegacy bytes then convertedForm bytes else bytes, s')

end Stream

/-- A call on a file, a read with the caller's buffer and the heap as it finds them. -/
inductive SegOp where
  | setPos (pos : Nat)
  | read (size : Nat) (buffer heap : Image)

/-- One call on the file. -/
def segStep (f : SegFile) (old : OldHeader) : SegOp → Reply × SegFile × OldHeader
  | .setPos pos => let (reply, f) := f.setPos pos; (reply, f, old)
  | .read size buffer heap => fileRead f size buffer heap old

/-- What the call is to do. -/
def Stream.step (s : Stream) : SegOp → Reply × Stream
  | .setPos pos => (.done, s.setPos pos)
  | .read size _ _ => let (bytes, s) := s.read size; (.bytes bytes, s)

/-- Every call of a run replies as the stream does. -/
def Transparent : SegFile → OldHeader → Stream → List SegOp → Prop
  | _, _, _, [] => True
  | f, old, s, op :: ops =>
    (segStep f old op).1 = (s.step op).1
      ∧ Transparent (segStep f old op).2.1 (segStep f old op).2.2 (s.step op).2 ops

/--
A read the segment's own calls can serve.

On NTFS the cached handle must read rightly in its state.
On FAT the position must not be behind the end, and a read in pieces must not meet the end.
-/
def OpenFile.ReadSafe : OpenFile → Nat → Prop
  | .ntfs h, size => h.ReadSafe size
  | .fat f, size =>
    f.pos ≤ f.data.length ∧ (size < MY_DEFINE_BUFFER_SIZE ∨ f.pos + size ≤ f.data.length)

/-- The position is not in front of the last byte the volume stores. -/
def OpenFile.AtEnd : OpenFile → Prop
  | .ntfs h => h.file.data.length ≤ h.filepos
  | .fat f => f.data.length ≤ f.pos

/--
A read that the segments serve: the open one does, and where it has ended the next one does.

An empty read in front of the end of a segment is none of them, as it skips the rest of the segment.
-/
def SegFile.Serves (f : SegFile) (size : Nat) : Prop :=
  f.ifeof = true ∨
    ∃ file, f.opened = some file ∧ file.ReadSafe size ∧
      (f.ifneedseg = true → (0 < size ∨ file.AtEnd) ∧
        (file.AtEnd → ∀ next, f.volume (f.currentfileseg + 1) = some next →
          (openFile f.backend next []).ReadSafe size))

/--
The conversion touches an older header at the front of the image and nothing else.

Such a header is read with its count of partitions, and not past the largest header;
any other read does not look like one in the caller's buffer.
-/
def Stream.ConvertsHeaderOnly (s : Stream) (size : Nat) (buffer : Image) : Prop :=
  let bytes := (s.plainRead size).1
  if s.readsLegacy bytes then
    (bytes.length ≤ 8 ∨ OLD_PARTITION_COUNT + 2 ≤ bytes.length) ∧ bytes.length ≤ OKR_HEADER_MAX_SIZE
  else isLegacy (readInto bytes buffer) = false

/-- A call that is served as the stream says. -/
def OpHolds (f : SegFile) (s : Stream) : SegOp → Prop
  | .setPos pos => f.opened.isSome = true ∧ (f.backend = .fat → pos ≠ 2 ^ 64 - 1)
  | .read size buffer _ =>
    f.Serves size ∧ (s.ended = false → (s.plainRead size).2.ended = false → s.ConvertsHeaderOnly size buffer)

/-- Every call of the run is served in the state it meets. -/
def RunHolds : SegFile → OldHeader → Stream → List SegOp → Prop
  | _, _, _, [] => True
  | f, old, s, op :: ops =>
    OpHolds f s op ∧ RunHolds (segStep f old op).2.1 (segStep f old op).2.2 (s.step op).2 ops

end Okr
