import Okr.File.Fat
import Okr.Lib.Loop

/-! `SegFileRead` over any firmware: a read in pieces of at most 20 MiB. -/

namespace Okr

open Loop (Pass Passes)

/-- The file protocol of a firmware, as far as reading goes, and what is left to read of a file. -/
structure FirmwareFile (F : Type) where
  /-- `Read`: the bytes it delivers, or nothing with an error, and the file after it. -/
  read : F → Nat → Option Bytes × F
  remaining : F → Bytes

/-- Every read succeeds, and delivers as much as is wanted and left. -/
def FirmwareFile.Serves {F : Type} (io : FirmwareFile F) : Prop :=
  ∀ f size, (io.read f size).1 = some ((io.remaining f).take size)
    ∧ io.remaining (io.read f size).2 = (io.remaining f).drop size

/-- What `SegFileRead` returns: its value, the caller's size, and the bytes in the buffer. -/
structure SegReadResult where
  ok : Bool
  size : Nat
  buffer : Bytes
deriving Repr, DecidableEq

variable {F : Type}

/--
A pass of the loop of `SegFileRead`, with the bytes read so far.

The sum of the index and the piece does not wrap, as both buffers are in the memory.
-/
def segReadPass (io : FirmwareFile F) (size : Nat) (t : Bytes × F) : Pass (Bytes × F) SegReadResult :=
  if t.1.length < size then
    let buffersize :=
      if size ≤ t.1.length + MY_DEFINE_BUFFER_SIZE then size - t.1.length else MY_DEFINE_BUFFER_SIZE
    match io.read t.2 buffersize with
    | (none, _) => .done { ok := false, size := t.1.length, buffer := t.1 }
    | (some bytes, f) => .next (t.1 ++ bytes, f)
  else .done { ok := true, size := size, buffer := t.1 }

/-- `SegFileRead` returns so: at once for a small size, else when the loop does. -/
def SegReadReturns (io : FirmwareFile F) (f : F) (size : Nat) (r : SegReadResult) : Prop :=
  if size < MY_DEFINE_BUFFER_SIZE then
    r = match (io.read f size).1 with
      | none => { ok := false, size := size, buffer := [] }
      | some bytes => { ok := true, size := bytes.length, buffer := bytes }
  else ∃ n t, Passes (segReadPass io size) n ([], f) t ∧ segReadPass io size t = .done r

/-- `SegFileRead` returns with what there was to read. -/
def SegReadReports (io : FirmwareFile F) (f : F) (size : Nat) : Prop :=
  ∃ r, SegReadReturns io f size r ∧ r.ok = true
    ∧ r.size = min size (io.remaining f).length
    ∧ r.buffer = (io.remaining f).take size

/-- The firmware's files on a FAT volume. -/
def fatFirmware : FirmwareFile FatFile where
  read := efiRead
  remaining f := f.data.drop f.pos

end Okr
