import Okr.Scan.Scan

/-! `Init_BufferArray`: the memory for the units of a backup or a restore, and its buffers. -/

namespace Okr

/-- The sizes of a unit between which a backup chooses. -/
def MAX_COMPRESS_BLOCK_SIZE : Nat := 500 * 1024 * 1024
def MIN_COMPRESS_BLOCK_SIZE : Nat := 100 * 1024 * 1024

/-- What `Init_BufferArray` reads of the program's data; `recover` is the command of a restore. -/
structure BufferSetup where
  recover : Bool := false
  bMultiThread : Bool := false
  bAsyncIO : Bool := false
  memoryPagesNumber : UInt32 := 0
  compressBlockSize : UInt32 := 0
deriving Repr, DecidableEq

/-- Buffers that are asked for together: how many, and the size of each. -/
structure BufferTry where
  number : Nat
  size : Nat
deriving Repr, DecidableEq

/-- The buffers that are asked for first; a restore takes the size from the image. -/
def BufferSetup.firstTry (g : BufferSetup) : BufferTry :=
  let size := if g.memoryPagesNumber = 0 then MIN_COMPRESS_BLOCK_SIZE else MAX_COMPRESS_BLOCK_SIZE
  let first : BufferTry :=
    if g.bMultiThread then
      if g.bAsyncIO then { number := 4, size := MAX_COMPRESS_BLOCK_SIZE / 2 }
      else { number := 2, size := size }
    else { number := 1, size := size }
  if g.recover then { first with size := g.compressBlockSize.toNat } else first

/-- There are pages enough for the buffers and one more, or nothing is known of the pages. -/
def BufferTry.allowed (t : BufferTry) (memoryPagesNumber : Nat) : Bool :=
  decide (u32 (t.size * (t.number + 1)) / 4096 < memoryPagesNumber) || memoryPagesNumber == 0

/-- The length the buffers are asked for with, in 32 bits. -/
def BufferTry.length (t : BufferTry) : Nat :=
  u32 (t.size * t.number + t.number * ALGIN_SIZE_BYTE)

/-- `myalloc`: a page at least. -/
def myallocLength (length : Nat) : Nat := if length < 0x1000 then 0x1000 else length

/-- The next buffers that are asked for: half as many in a restore, smaller ones in a backup. -/
def BufferTry.next (recover : Bool) (t : BufferTry) : Option BufferTry :=
  if recover then
    if t.number / 2 = 0 then none else some { t with number := t.number / 2 }
  else
    let size := sub32 t.size MIN_COMPRESS_BLOCK_SIZE
    if size < MIN_COMPRESS_BLOCK_SIZE then none else some { t with size := size }

/-- What the firmware answers to the request with a number for so many bytes: an address, or none. -/
abbrev PoolAnswers := Nat → Nat → Option Nat

/-- The answer to one try, which is not asked for without the pages. -/
def BufferSetup.answer (g : BufferSetup) (allocatePool : PoolAnswers) (i : Nat) (t : BufferTry) :
    Option Nat :=
  if t.allowed g.memoryPagesNumber.toNat then allocatePool i (myallocLength t.length) else none

/-- The loop of `Init_BufferArray`, from its pass `i` on: the buffers that there is memory for. -/
def BufferSetup.allocLoop (g : BufferSetup) (allocatePool : PoolAnswers) :
    Nat → Nat → BufferTry → Option (BufferTry × Nat)
  | 0, _, _ => none
  | passes + 1, i, t =>
    match g.answer allocatePool i t with
    | some buffer => some (t, buffer)
    | none =>
      match t.next g.recover with
      | none => none
      | some t => g.allocLoop allocatePool passes (i + 1) t

/-- `BUFFER_INFO`: where a buffer is, and its size. -/
structure BufferPlace where
  pointer : Nat
  totalsize : Nat
deriving Repr, DecidableEq

/-- What `Init_BufferArray` leaves: its buffers, the memory they are in, and the program's data. -/
structure BufferArray where
  buffers : List BufferPlace
  memory : BufferPlace
  compressBlockSize : Nat
  bMultiThread : Bool
deriving Repr, DecidableEq

/-- The place of a buffer in the memory; the product has 32 bits. -/
def BufferTry.place (t : BufferTry) (i : Nat) : Nat := u32 (t.size * i) + ALGIN_SIZE_BYTE * i

/-- The buffers in the memory at an address. -/
def BufferTry.buffers (t : BufferTry) (buffer : Nat) : List BufferPlace :=
  (List.range t.number).map fun i => { pointer := buffer + t.place i, totalsize := t.size }

/-- `Init_BufferArray`. -/
def initBufferArray (g : BufferSetup) (allocatePool : PoolAnswers) : Option BufferArray :=
  (g.allocLoop allocatePool 256 0 g.firstTry).map fun (t, buffer) =>
    { buffers := t.buffers buffer
      memory := { pointer := buffer, totalsize := myallocLength t.length }
      compressBlockSize := t.size
      bMultiThread := if t.number = 1 then false else g.bMultiThread }

/-- A block of memory is inside another one. -/
def BufferPlace.Within (b outer : BufferPlace) : Prop :=
  outer.pointer ≤ b.pointer ∧ b.pointer + b.totalsize ≤ outer.pointer + outer.totalsize

/-- Two blocks have no byte in common. -/
def BufferPlace.Apart (b c : BufferPlace) : Prop :=
  b.pointer + b.totalsize ≤ c.pointer ∨ c.pointer + c.totalsize ≤ b.pointer

/-- The buffers are laid out well; a backup also cuts its data into whole parts of 32768 bytes. -/
structure BufferArray.WellLaid (a : BufferArray) (recover : Bool) : Prop where
  disjoint : a.buffers.Pairwise BufferPlace.Apart
  aligned : ∀ b ∈ a.buffers, b.pointer % 4096 = 0
  large : ∀ b ∈ a.buffers, a.compressBlockSize ≤ b.totalsize
  inside : ∀ b ∈ a.buffers, b.Within a.memory
  unit : recover = false → 0 < a.compressBlockSize ∧ a.compressBlockSize % 32768 = 0

/-- The buffers that are asked for one after the other, as long as there is no memory for them. -/
def BufferTry.tries (recover : Bool) : Nat → BufferTry → List BufferTry
  | 0, _ => []
  | passes + 1, t => t :: ((t.next recover).map (tries recover passes)).getD []

/-- The first of the tries that the firmware has memory for, and where. -/
def BufferSetup.Served (g : BufferSetup) (allocatePool : PoolAnswers) (t : BufferTry) (buffer : Nat) :
    Prop :=
  let tries := BufferTry.tries g.recover 256 g.firstTry
  ∃ i, tries[i]? = some t ∧ g.answer allocatePool i t = some buffer
    ∧ ∀ j < i, ∀ earlier ∈ tries[j]?, g.answer allocatePool j earlier = none

/-- Buffers that can be laid out well in memory from a whole page on. -/
def BufferTry.Fits (t : BufferTry) : Prop :=
  (t.number = 1 ∨ t.size % 4096 = 0) ∧ t.number * (t.size + ALGIN_SIZE_BYTE) < 2 ^ 32

end Okr
