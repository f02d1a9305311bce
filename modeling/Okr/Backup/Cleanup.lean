import Okr.File.Segments
import Okr.Model.CheckValue

/-! The files of a backup: how they come into being, and what a backup that fails deletes of them. -/

namespace Okr

/-- The faults that the next calls on an open file meet. -/
def OpenFile.withFaults : OpenFile → List (Option Fault) → OpenFile
  | .ntfs h, faults => .ntfs { h with file := { h.file with faults := faults } }
  | .fat f, faults => .fat { f with faults := faults }

/-- The faults that the next calls on the open segment meet. -/
def SegFile.withFaults (f : SegFile) (faults : List (Option Fault)) : SegFile :=
  { f with opened := f.opened.map fun file => file.withFaults faults }

/-- A call of `FileWrite`, the faults it meets, and whether the volume refuses a further segment. -/
structure BackupWrite where
  buffer : Bytes
  faults : List (Option Fault) := []
  refused : Bool := false

/--
What a backup does with its files once the first one is created.

`writes` are the calls of `FileWrite` its loops come to, for the header, the bitmaps and the data;
`broken` tells that another step behind them ends it, a scan, a read or the user's break.
The loops with asynchronous input and output hand their zero on as the result of what follows.
-/
structure BackupRun where
  backend : Backend
  async : Bool
  writes : List BackupWrite
  broken : Bool
  reopened : Bool
  header : BackupWrite
  hash : CheckHash
  env : CheckEnv

/-- A file the destination volume had none of, just created with `FileOpen`. -/
def createImage (backend : Backend) : SegFile :=
  ({ backend := backend, ifneedseg := backend == .fat, opened := none, volume := fun _ => none } :
    SegFile).openCreate 0 false

/-- The writes, one after the other, up to the first that fails. -/
def backupWrites (f : SegFile) : List BackupWrite → Bool × SegFile
  | [] => (true, f)
  | w :: writes =>
    match fileWrite (f.withFaults w.faults) w.buffer w.refused with
    | (true, f) => backupWrites f writes
    | (false, f) => (false, f)

/-- `FileDelete`, when it succeeds. -/
def deleteSegment (volume : Nat → Option Bytes) (k : Nat) : Nat → Option Bytes :=
  storeSegment volume k none

/--
The clean-up of a failed backup: the first file, and as many further segments as the handle counts.

The count is compared as a 16-bit number; its counter never exceeds the largest one.
-/
def deleteImage (volume : Nat → Option Bytes) (currentfileseg : Nat) : Option (Nat → Option Bytes) :=
  let count := currentfileseg % 2 ^ 16
  if count = 2 ^ 16 - 1 then none
  else some ((List.range count).foldl (fun volume i => deleteSegment volume (i + 1)) (deleteSegment volume 0))

/-- The end of `Backup`: a negative result deletes the files. -/
def backupDone (ret : Int) (f : SegFile) : Option (Int × (Nat → Option Bytes)) :=
  let volume := f.close.volume
  if ret < 0 then (deleteImage volume f.currentfileseg).map fun volume => (ret, volume)
  else some (ret, volume)

/-- The first segments, if they are all there. -/
def segmentsOf (volume : Nat → Option Bytes) : Nat → Option (List Bytes)
  | 0 => some []
  | count + 1 =>
    match segmentsOf volume count, volume count with
    | some front, some data => some (front ++ [data])
    | _, _ => none

/-- What the volume stores once a check value was made, or not, over its first segments. -/
def storeResult (volume : Nat → Option Bytes) (fileNumber : Nat) (r : CheckResult) :
    Nat → Option Bytes := fun k =>
  if k = fileNumber - 1 then some r.last
  else if k < fileNumber - 1 then
    match r.first[k]? with
    | some data => some data
    | none => volume k
  else volume k

/--
`CalculateFileCheckValue` on the files of the volume.

It opens the last segment first; one that is missing makes it fail. Nothing is returned when it hangs.
-/
def calculateOnVolume (c : CheckHash) (env : CheckEnv) (backend : Backend) (volume : Nat → Option Bytes)
    (fileNumber : Nat) : Option (Bool × (Nat → Option Bytes)) :=
  match volume (fileNumber - 1), segmentsOf volume (fileNumber - 1) with
  | some last, some first =>
    let img : ImageFiles :=
      { backend := backend
        first := if backend = .ntfs then [] else first
        last := last
        whole := fun ntfs => if_pos ntfs }
    (calculateFileCheckValue c env img).map fun r => (r.ok, storeResult volume fileNumber r)
  | _, _ => some (false, volume)

/--
`Backup` from the creation of its first file on: its result, and what the volume stores afterwards.

Opening the image once more for the header makes a new handle, which counts no further segments.
-/
def backupFiles (run : BackupRun) : Option (Int × (Nat → Option Bytes)) :=
  match backupWrites (createImage run.backend) run.writes with
  | (false, f) => backupDone (-1) f
  | (true, f) =>
    if run.broken then backupDone (-1) f
    else
      let ret : Int := if run.async then 0 else -1
      -- The asynchronous loops leave the number of files in the header at zero.
      let fileNumber := if run.async then 0 else f.currentfileseg + 1
      let handle : SegFile :=
        { backend := run.backend, ifneedseg := false, opened := none, volume := f.close.volume }
      if run.reopened then
        match fileWrite ((handle.openRead 0).withFaults run.header.faults) run.header.buffer
            run.header.refused with
        | (false, f) => backupDone ret f
        | (true, f) =>
          let f := f.close
          match calculateOnVolume run.hash run.env run.backend f.volume fileNumber with
          | none => none
          | some (false, volume) => backupDone ret { f with volume := volume }
          | some (true, volume) => some (0, volume)
      else backupDone ret handle

end Okr
