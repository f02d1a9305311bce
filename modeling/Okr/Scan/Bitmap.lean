import Okr.Base.Disk
import Okr.Lib.Blocks

/-! The backup bitmap, a bit for every 64 sectors, and how requests are marked in it. -/

namespace Okr

open Blocks (Extent)

/-- A bitmap buffer; `overrun` remembers a write outside it, which the source does not check. -/
structure Bitmap where
  bytes : Bytes
  overrun : Bool := false
  deriving DecidableEq, Repr

/-- `MarkBit`: set the bit of a block. -/
def markBit (block : Nat) (bitmap : Bitmap) : Bitmap :=
  let byte := block / 8
  let mask : Byte := 1 <<< (UInt8.ofNat block &&& 7)
  { bytes := bitmap.bytes.modify byte (· ||| mask)
    overrun := bitmap.overrun || decide (bitmap.bytes.length ≤ byte) }

/-- `ReadBit`: the bit of a block. -/
def readBit (block : Nat) (bytes : Bytes) : Bool :=
  let mask : Byte := 1 <<< (UInt8.ofNat block &&& 7)
  mask &&& bytes.getD (block / 8) 0 != 0

/-- The `while` loop of `GetDataToBitmap`, from `firstblk` on. -/
def markBits : Nat → Nat → Bitmap → Bitmap
  | 0, _, bitmap => bitmap
  | count + 1, firstblk, bitmap => markBits count (firstblk + 1) (markBit firstblk bitmap)

/-- The last sector of a request, computed in 64 bits. -/
def lastSector (e : Extent) : Nat := sub64 (u64 (e.start + e.number)) 1

/-- A request that lies inside an extent of an unused file is dropped; both ends have 64 bits. -/
def excluded (unused : List Extent) (e : Extent) : Bool :=
  unused.any fun list =>
    decide (e.start ≥ list.start ∧ u64 (e.start + e.number) ≤ u64 (list.start + list.number))

/-- `GetDataToBitmap`: mark the blocks of a request unless it lies inside an unused file. -/
def getDataToBitmap (unused : List Extent) (e : Extent) (bitmap : Bitmap) : Bitmap :=
  if excluded unused e then bitmap
  else
    let firstblk := e.start / BLOCK_SIZE
    let lastblk := lastSector e / BLOCK_SIZE
    markBits (lastblk + 1 - firstblk) firstblk bitmap

/-- The blocks `GetDataToBitmap` runs over for a request. -/
def Touches (e : Extent) (block : Nat) : Prop :=
  e.start / BLOCK_SIZE ≤ block ∧ block ≤ lastSector e / BLOCK_SIZE

instance (e : Extent) (block : Nat) : Decidable (Touches e block) :=
  inferInstanceAs (Decidable (_ ∧ _))

/-- A call in the words it has: sectors of 64 bits, and the extents of the unused files. -/
structure MarkCall where
  sector : UInt64
  num : UInt64
  unused : List (UInt64 × UInt32) := []
deriving DecidableEq, Repr

/-- The range of the call. -/
def MarkCall.range (c : MarkCall) : Extent := ⟨c.sector.toNat, c.num.toNat⟩

/-- The extents that are left out. -/
def MarkCall.lists (c : MarkCall) : List Extent :=
  c.unused.map fun list => ⟨list.1.toNat, list.2.toNat⟩

/-- The call on a bitmap buffer. -/
def MarkCall.run (c : MarkCall) (bytes : Bytes) : Bitmap :=
  getDataToBitmap c.lists c.range { bytes := bytes }

/-- The range is wholly inside an extent that is left out. -/
def MarkCall.LeftOut (c : MarkCall) : Prop := ∃ list ∈ c.lists, c.range.Within list

/--
The call marks what it is to mark: the blocks the range meets, unless it is left out.

Nothing is written outside the buffer, and without any sectors nothing changes.
-/
structure MarkCall.Exact (c : MarkCall) (bytes : Bytes) : Prop where
  inside : (c.run bytes).overrun = false
  marked : ∀ b < 8 * bytes.length, readBit b (c.run bytes).bytes
    ↔ readBit b bytes ∨ (c.range.Meets BLOCK_SIZE b ∧ ¬ c.LeftOut)
  unchanged : c.num = 0 → (c.run bytes).bytes = bytes

/-- The extents are tested rightly, and the last sector of the range has a number of 64 bits. -/
def MarkCall.Plain (c : MarkCall) : Prop :=
  (excluded c.lists c.range ↔ c.LeftOut) ∧ (excluded c.lists c.range ∨ c.range.stop ≤ 2 ^ 64)

/--
When a call marks what it is to mark.

The blocks the loop runs over are in the buffer, and without any sectors they are set before.
Where the 64-bit sums of a range with sectors lead astray, this shows in no clear bit.
-/
def MarkCall.Right (c : MarkCall) (bytes : Bytes) : Prop :=
  (excluded c.lists c.range ∨ ∀ b, Touches c.range b → b < 8 * bytes.length)
    ∧ (c.num = 0 → excluded c.lists c.range ∨ ∀ b, Touches c.range b → readBit b bytes)
    ∧ (c.num ≠ 0 → c.Plain ∨ ∀ b < 8 * bytes.length, c.range.Meets BLOCK_SIZE b → ¬ readBit b bytes →
        excluded c.lists c.range = false ∧ ¬ c.LeftOut ∧ Touches c.range b)

end Okr
