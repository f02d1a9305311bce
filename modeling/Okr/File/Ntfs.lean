import Okr.Base.Word
import Okr.Lib.Overlay

/-! The NTFS driver's file calls, as the cached handle uses them. -/

namespace Okr

/-- What can go wrong in one call of the driver. -/
inductive Fault where
  /-- The call reports failure, by its status or by a count of -1. -/
  | fail
  /-- Only so many bytes are transferred, and the call still reports success. -/
  | short (n : Nat)
  deriving DecidableEq, Repr

/--
A file as the volume stores it, with the faults of the calls to come.

A call takes its fault from the front of the list, and runs without one once the list is empty.
-/
structure NtfsFile where
  data : Bytes
  faults : List (Option Fault) := []
  deriving DecidableEq, Repr

/-- The fault of the next call, and the file it leaves for the calls after it. -/
def NtfsFile.nextFault (f : NtfsFile) : Option Fault × NtfsFile :=
  match f.faults with
  | [] => (none, f)
  | fault :: faults => (fault, { f with faults := faults })

/--
`n_readfile`: the bytes read, or nothing when the status or the count is the failing one.

A size that reaches past the end is cut there, and an offset past the end makes it negative,
which the driver answers with a count of -1.
-/
def nReadFile (f : NtfsFile) (offset size : Nat) : Option Bytes × NtfsFile :=
  let (fault, f) := f.nextFault
  if f.data.length < offset then (none, f)
  else
    match fault with
    | none => (some (Overlay.window f.data offset size), f)
    | some .fail => (none, f)
    | some (.short n) => (some (Overlay.window f.data offset (min n size)), f)

/-- The driver's offsets and sizes are signed 64-bit numbers. -/
def MAX_OFFSET : Nat := 2 ^ 63

/--
`n_writefile`: the count written, or nothing when the status or the count is the failing one.

The file is first grown to hold the whole request, and the new bytes read as zero.
An offset that is negative as a signed number, or an end past the largest one, is refused.
-/
def nWriteFile (f : NtfsFile) (offset : Nat) (bytes : Bytes) : Option Nat × NtfsFile :=
  let (fault, f) := f.nextFault
  if MAX_OFFSET ≤ offset + bytes.length then (none, f)
  else
    match fault with
    | none => (some bytes.length, { f with data := Overlay.write 0 f.data offset bytes })
    | some .fail => (none, f)
    | some (.short n) =>
      let grown := f.data ++ List.replicate (offset + bytes.length - f.data.length) 0
      (some (min n bytes.length), { f with data := Overlay.write 0 grown offset (bytes.take n) })

/-- Without faults a read inside the file returns its window. -/
theorem nReadFile_eq {f : NtfsFile} {offset : Nat} (size : Nat) (sound : f.faults = [])
    (inside : offset ≤ f.data.length) :
    nReadFile f offset size = (some (Overlay.window f.data offset size), f) := by
  have notPast : ¬ f.data.length < offset := by omega
  simp only [nReadFile, NtfsFile.nextFault, sound, if_neg notPast]

/-- Without faults a write the driver can address lays its bytes over the file. -/
theorem nWriteFile_eq {f : NtfsFile} {offset : Nat} {bytes : Bytes} (sound : f.faults = [])
    (fits : offset + bytes.length < MAX_OFFSET) :
    nWriteFile f offset bytes
      = (some bytes.length, { f with data := Overlay.write 0 f.data offset bytes }) := by
  have inRange : ¬ MAX_OFFSET ≤ offset + bytes.length := by omega
  simp only [nWriteFile, NtfsFile.nextFault, sound, if_neg inRange]

end Okr
