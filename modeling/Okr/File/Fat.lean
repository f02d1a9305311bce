import Okr.File.Handle

/-! Files on a FAT volume, read and written through the firmware in bounded pieces. -/

namespace Okr

/-- Bytes `SegFileRead` and `SegFileWrite` hand to the firmware in one call. -/
def MY_DEFINE_BUFFER_SIZE : Nat := 20 * 1024 * 1024

/-- A FAT file is shorter than this. -/
def MAX_FAT_FILE : Nat := 2 ^ 32

/--
An open file of the firmware's file protocol, with the faults of the reads and writes to come.

A fault makes the call report an error; a short one leaves so much of a write behind.
-/
structure FatFile where
  data : Bytes
  pos : Nat := 0
  faults : List (Option Fault) := []
  deriving DecidableEq, Repr

/-- The fault of the next call, and the file it leaves for the calls after it. -/
def FatFile.nextFault (f : FatFile) : Option Fault × FatFile :=
  match f.faults with
  | [] => (none, f)
  | fault :: faults => (fault, { f with faults := faults })

/-- The faults are taken from the front of the list. -/
theorem FatFile.nextFault_eq (f : FatFile) :
    f.nextFault = (f.faults.headD none, { f with faults := f.faults.tail }) := by
  cases f with
  | mk data pos faults => cases faults <;> rfl

/-- The protocol's `Read`: as much as the file still has, and an error from past its end. -/
def efiRead (f : FatFile) (size : Nat) : Option Bytes × FatFile :=
  let (fault, f) := f.nextFault
  if fault.isSome ∨ f.data.length < f.pos then (none, f)
  else
    let bytes := Overlay.window f.data f.pos size
    (some bytes, { f with pos := f.pos + bytes.length })

/-- The protocol's `Write`: all of the buffer, or an error with some of it written. -/
def efiWrite (f : FatFile) (buffer : Bytes) : Bool × FatFile :=
  let (fault, f) := f.nextFault
  if MAX_FAT_FILE ≤ f.pos + buffer.length then (false, f)
  else
    let put (bytes : Bytes) : FatFile :=
      { f with data := Overlay.write 0 f.data f.pos bytes, pos := f.pos + bytes.length }
    match fault with
    | none => (true, put buffer)
    | some .fail => (false, f)
    | some (.short n) => (false, put (buffer.take n))

/-- The protocol's `SetPosition`: the largest position stands for the end of the file. -/
def efiSetPosition (f : FatFile) (pos : Nat) : FatFile :=
  { f with pos := if pos = 2 ^ 64 - 1 then f.data.length else pos }

/-- The loop of `SegFileRead`: it does not stop at a read of no bytes. -/
def segReadLoop : Nat → Nat → Bytes → FatFile → Reply × FatFile
  | 0, _, _, f => (.hang, f)
  | fuel + 1, size, out, f =>
    if size ≤ out.length then (.bytes out, f)
    else
      match efiRead f (min MY_DEFINE_BUFFER_SIZE (size - out.length)) with
      | (none, f) => (.failed, f)
      | (some bytes, f) => segReadLoop fuel size (out ++ bytes) f

/-- `SegFileRead`: small requests go straight to the firmware. -/
def segFileRead (f : FatFile) (size : Nat) : Reply × FatFile :=
  if size < MY_DEFINE_BUFFER_SIZE then
    match efiRead f size with
    | (none, f) => (.failed, f)
    | (some bytes, f) => (.bytes bytes, f)
  else segReadLoop (size + 1) size [] f

/-- The loop of `SegFileWrite` over the pieces of the buffer. -/
def segWriteLoop : Nat → Bytes → FatFile → Bool × FatFile
  | 0, rest, f => (rest.isEmpty, f)
  | fuel + 1, rest, f =>
    if rest = [] then (true, f)
    else
      match efiWrite f (rest.take MY_DEFINE_BUFFER_SIZE) with
      | (false, f) => (false, f)
      | (true, f) => segWriteLoop fuel (rest.drop MY_DEFINE_BUFFER_SIZE) f

/-- `SegFileWrite`: small buffers go straight to the firmware. -/
def segFileWrite (f : FatFile) (buffer : Bytes) : Bool × FatFile :=
  if buffer.length < MY_DEFINE_BUFFER_SIZE then efiWrite f buffer
  else segWriteLoop buffer.length buffer f

/-- The two kinds of volume an image can be on. -/
inductive Backend where
  | ntfs
  | fat
  deriving DecidableEq, Repr

/-- A file opened through `FileOpen`, whichever volume it is on. -/
inductive OpenFile where
  | ntfs (h : Handle)
  | fat (f : FatFile)
  deriving DecidableEq, Repr

/-- `FileOpen` of an existing file; `faults` are those of the calls on this handle. -/
def openFile (backend : Backend) (data : Bytes) (faults : List (Option Fault)) : OpenFile :=
  match backend with
  | .ntfs => .ntfs { file := { data := data, faults := faults } }
  | .fat => .fat { data := data, faults := faults }

/-- What the volume stores of the file. -/
def OpenFile.data : OpenFile → Bytes
  | .ntfs h => h.file.data
  | .fat f => f.data

/-- `FileGetSize`: the size the driver or the firmware knows, without what a cache holds. -/
def OpenFile.getSize (file : OpenFile) : Nat := file.data.length

/-- `FileSetPos` on either volume. -/
def OpenFile.setPos : OpenFile → Nat → OpenFile
  | .ntfs h, pos => .ntfs (fileSetPos h pos)
  | .fat f, pos => .fat (efiSetPosition f pos)

/-- `NormalFileRead` on either volume. -/
def OpenFile.read : OpenFile → Nat → Reply × OpenFile
  | .ntfs h, size => let (reply, h) := normalFileRead h size; (reply, .ntfs h)
  | .fat f, size => let (reply, f) := segFileRead f size; (reply, .fat f)

/-- `NormalFileWrite` on either volume. -/
def OpenFile.write : OpenFile → Bytes → Reply × OpenFile
  | .ntfs h, buffer => let (reply, h) := normalFileWrite h buffer; (reply, .ntfs h)
  | .fat f, buffer =>
    let (ok, f) := segFileWrite f buffer
    (if ok then .wrote buffer.length else .failed, .fat f)

/-- `FileClose`, and what the volume stores afterwards. -/
def OpenFile.close : OpenFile → Bytes
  | .ntfs h => (fileClose h).file.data
  | .fat f => f.data

end Okr
