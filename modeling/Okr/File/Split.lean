import Okr.File.Stream
import Okr.Lib.Split

/-! Writing an image in segments, and reading it back from the first segment on. -/

namespace Okr

/-- A read, with the caller's buffer and the heap as it finds them. -/
structure ReadCall where
  size : Nat
  buffer : Image
  heap : Image

/--
A write, and the reads that are to bring its bytes back.

The volume may refuse the next segment, if one is due behind the write.
-/
structure Block where
  bytes : Bytes
  refused : Bool
  reads : List ReadCall
  subdivides : (reads.map (·.size)).sum = bytes.length

/-- The writer's file, just created on a FAT volume that has no file of the name or a segment's. -/
def createFile : SegFile :=
  ({ backend := .fat, ifneedseg := true, opened := none, volume := fun _ => none } : SegFile).openCreate
    0 false

/-- The writer stops at the first write that fails. -/
def writeRun (f : SegFile) : List Block → Bool × SegFile
  | [] => (true, f)
  | b :: blocks =>
    match fileWrite f b.bytes b.refused with
    | (true, f) => writeRun f blocks
    | (false, f) => (false, f)

/-- The replies to reads, one after the other. -/
def readRun (f : SegFile) (old : OldHeader) : List ReadCall → List Reply
  | [] => []
  | c :: calls =>
    let (reply, f, old) := fileRead f c.size c.buffer c.heap old
    reply :: readRun f old calls

/-- What the writer leaves on the volume once its file is closed. -/
def written (blocks : List Block) : Nat → Option Bytes :=
  (writeRun createFile blocks).2.close.volume

/-- The bytes of writes, one behind the other. -/
def bytesOf (blocks : List Block) : Bytes := blocks.flatMap (·.bytes)

/-- The reads that bring writes back. -/
def readsOf (blocks : List Block) : List ReadCall := blocks.flatMap (·.reads)

/-- A segment shorter than a FAT file may be, and not longer than the limit and one write together. -/
def SegmentFits (blocks : List Block) (data : Bytes) : Prop :=
  data.length < MAX_FAT_FILE ∧
    (data.length ≤ SPLIT_SIZE ∨ ∃ b ∈ blocks, data.length ≤ SPLIT_SIZE + b.bytes.length)

/-- No segment is too long. -/
def Bounded (blocks : List Block) (volume : Nat → Option Bytes) : Prop :=
  ∀ k data, volume k = some data → SegmentFits blocks data

/-- The segments are made of whole writes in their order, so that none straddles two. -/
def Unbroken (blocks : List Block) (volume : Nat → Option Bytes) : Prop :=
  ∃ groups : List (List Block), groups.flatten = blocks ∧ ∀ k, volume k = groups[k]?.map bytesOf

/-- The reads bring all the bytes back in order, and a further one brings none. -/
def ReadsBack (blocks : List Block) (volume : Nat → Option Bytes) (last : ReadCall) (mark : OldHeader) :
    Prop :=
  ∃ parts : List Bytes, parts.flatten = bytesOf blocks ∧
    parts.map List.length = (readsOf blocks).map (·.size) ∧
    readRun (segFileOpen .fat true volume) mark (readsOf blocks ++ [last])
      = parts.map Reply.bytes ++ [.bytes []]

/-- Segments behave as one stream: for the writes, and for reading back what was written. -/
def OneStream (blocks : List Block) (last : ReadCall) (mark : OldHeader) : Prop :=
  Bounded blocks (written blocks) ∧
    ((writeRun createFile blocks).1 = true →
      Unbroken blocks (written blocks) ∧ ReadsBack blocks (written blocks) last mark)

/--
A read that the place in the image allows.

At the end of a segment it must not be a long one, and in front of the end not an empty one.
What it brings must not look like a header of the older version, if it is as long as to show it.
-/
def Stream.Allows (s : Stream) (c : ReadCall) : Prop :=
  (if s.content.length ≤ s.pos then c.size < MY_DEFINE_BUFFER_SIZE else 0 < c.size) ∧
    ((s.plainRead c.size).1.length < 5 ∨ isLegacy (readInto (s.plainRead c.size).1 c.buffer) = false)

/-- Every read of a run is allowed in the place it meets, up to the end of the image. -/
def ReadsAllowed (s : Stream) : List ReadCall → Prop
  | [] => True
  | c :: calls => (s.ended = false → s.Allows c) ∧ ReadsAllowed (s.plainRead c.size).2 calls

end Okr
