import Okr.File.Fat

/-! The check value of an image: the digest over its files and the 32 bytes appended to the last. -/

namespace Okr

/-- Bytes of the check value and of its salt. -/
def PBKDF2P_LEN : Nat := 32
def SALT_LEN : Nat := 32

/-- The sampled parts of a large file, their sizes, and the chunk they are read in. -/
def FILE_SHA256_SEG_NUMBER : Nat := 17
def FILE_PER_SECTOR_DATA : Nat := 10 * 1024 * 1024
def MULTI_FILE_PER_SECTOR_DATA : Nat := 5 * 1024 * 1024
def hashChunk : Nat := 8192
def hashGroup : Nat := 2 * 1024 * 1024

/-- Files above this size are sampled. -/
def largeFile : Nat := FILE_SHA256_SEG_NUMBER * 20 * 1024 * 1024

/-- The two digests the check value is made of, over whole messages. -/
structure CheckHash where
  sha256 : Bytes → Bytes
  pbkdf2 : Bytes → Bytes → Nat → Bytes
  pbkdf2_length : ∀ password salt iterations,
    (pbkdf2 password salt iterations).length = PBKDF2P_LEN

/-- A file being hashed: the outer digest's message, the inner one's, and the counters. -/
structure HashState where
  file : OpenFile
  ctx : Bytes
  ctxSec : Bytes := []
  llSectorReadSize : Nat := 0
  llReadSize : Nat := 0
  llSectorDataReadSize : Nat := 0
  iSegIndex : Nat := 0

/-- Close the inner digest and feed it to the outer one. -/
def HashState.closeGroup (c : CheckHash) (s : HashState) : HashState :=
  { s with ctx := s.ctx ++ c.sha256 s.ctxSec, ctxSec := [], llSectorReadSize := 0 }

/-- What the whole-file loop asks for next; the check value is left out by a 32-bit subtraction. -/
def nextHashSize (filesize llReadSize : Nat) (bIsCheckValue : Bool) : Nat :=
  if filesize - llReadSize > hashChunk then hashChunk
  else if bIsCheckValue then u32 (filesize - llReadSize + 2 ^ 32 - PBKDF2P_LEN)
  else filesize - llReadSize

/-- The bytes of one read enter the digest; a full group or the last read closes the group. -/
def absorbWhole (c : CheckHash) (filesize : Nat) (s : HashState) (bytes : Bytes) : HashState :=
  if bytes = [] then s
  else
    let s :=
      { s with
        llReadSize := s.llReadSize + bytes.length
        llSectorReadSize := s.llSectorReadSize + bytes.length
        ctxSec := s.ctxSec ++ bytes }
    if s.llSectorReadSize ≥ hashGroup ∨ ¬ (bytes.length = hashChunk ∧ s.llReadSize < filesize) then
      s.closeGroup c
    else s

/--
The loop of `_CalFileSHA256Value`, a chunk a pass.

The first component is the value returned: a read error ends the loop but not with failure,
a user's break does. Nothing is returned when a read never ends.
-/
def calFileLoop (c : CheckHash) (breaks : Nat → Bool) (filesize : Nat) (bIsCheckValue : Bool) :
    Nat → Nat → HashState → Option (Bool × HashState)
  | 0, _, _ => none
  | fuel + 1, i, s =>
    if breaks i then some (false, s)
    else
      match s.file.read (nextHashSize filesize s.llReadSize bIsCheckValue) with
      | (.failed, file) => some (true, { s with file := file })
      | (.bytes bytes, file) =>
        let s := absorbWhole c filesize { s with file := file } bytes
        let s := { s with file := s.file.setPos s.llReadSize }
        if bytes.length = hashChunk ∧ s.llReadSize < filesize then
          calFileLoop c breaks filesize bIsCheckValue fuel (i + 1) s
        else some (true, s)
      | _ => none

/-- `_CalFileSHA256Value`: the digest of a file read from end to end. -/
def calFileSHA256Value (c : CheckHash) (breaks : Nat → Bool) (bIsCheckValue : Bool)
    (file : OpenFile) (ctx : Bytes) : Option (Bool × HashState) :=
  let filesize := file.getSize
  calFileLoop c breaks filesize bIsCheckValue (filesize + 1) 0 { file := file.setPos 0, ctx := ctx }

/-- The bytes of one read enter the digest of a sampled file. -/
def absorbSampled (c : CheckHash) (s : HashState) (bytes : Bytes) : HashState :=
  if bytes = [] then s
  else
    let s :=
      { s with
        llReadSize := s.llReadSize + bytes.length
        llSectorReadSize := s.llSectorReadSize + bytes.length
        llSectorDataReadSize := s.llSectorDataReadSize + bytes.length
        ctxSec := s.ctxSec ++ bytes }
    if s.llSectorReadSize ≥ hashGroup then s.closeGroup c else s

/-- Where the sampling goes after a part is done, or nowhere after the last one. -/
def nextSample (filesize limit iSegIndex : Nat) (bIsCheckValue : Bool) : Option Nat :=
  if iSegIndex < FILE_SHA256_SEG_NUMBER then some (iSegIndex * (filesize / FILE_SHA256_SEG_NUMBER))
  else if iSegIndex = FILE_SHA256_SEG_NUMBER then
    some (if bIsCheckValue then filesize - limit - 32 else filesize - limit)
  else none

/-- The loop of `_CalculateFileSHA256ValueBySegData`, a chunk a pass. -/
def segDataLoop (c : CheckHash) (breaks : Nat → Bool) (filesize limit : Nat) (bIsCheckValue : Bool) :
    Nat → Nat → HashState → Option (Bool × HashState)
  | 0, _, _ => none
  | fuel + 1, i, s =>
    if breaks i then some (false, s)
    else
      match s.file.read hashChunk with
      | (.failed, file) => some (true, { s with file := file })
      | (.bytes bytes, file) =>
        let s := absorbSampled c { s with file := file } bytes
        if s.llSectorDataReadSize ≥ limit then
          match nextSample filesize limit (s.iSegIndex + 1) bIsCheckValue with
          | none => some (true, s.closeGroup c)
          | some pos =>
            let s :=
              { s with
                iSegIndex := s.iSegIndex + 1
                llReadSize := pos
                llSectorDataReadSize := 0
                file := s.file.setPos pos }
            if bytes.length = hashChunk ∧ s.llReadSize < filesize then
              segDataLoop c breaks filesize limit bIsCheckValue fuel (i + 1) s
            else some (true, s)
        else
          let s := { s with file := s.file.setPos s.llReadSize }
          if bytes.length = hashChunk ∧ s.llReadSize < filesize then
            segDataLoop c breaks filesize limit bIsCheckValue fuel (i + 1) s
          else some (true, s)
      | _ => none

/-- Passes of the sampling loop: eighteen parts of at most 10 MiB, a chunk a pass. -/
def samplePasses : Nat := (FILE_SHA256_SEG_NUMBER + 1) * (FILE_PER_SECTOR_DATA / hashChunk) + 1

/-- `_CalculateFileSHA256ValueBySegData`: the digest of a sampled file. -/
def calFileSHA256ValueBySegData (c : CheckHash) (breaks : Nat → Bool) (bIsCheckValue : Bool)
    (fileNumber : Nat) (file : OpenFile) (ctx : Bytes) : Option (Bool × HashState) :=
  let limit := if fileNumber > 1 then MULTI_FILE_PER_SECTOR_DATA else FILE_PER_SECTOR_DATA
  segDataLoop c breaks file.getSize limit bIsCheckValue samplePasses 0
    { file := file.setPos 0, ctx := ctx }

/-- The digest of one file, sampled when it is large. -/
def hashFile (c : CheckHash) (breaks : Nat → Bool) (bIsCheckValue : Bool) (fileNumber : Nat)
    (file : OpenFile) (ctx : Bytes) : Option (Bool × HashState) :=
  if file.getSize > largeFile then
    calFileSHA256ValueBySegData c breaks bIsCheckValue fileNumber file ctx
  else calFileSHA256Value c breaks bIsCheckValue file ctx

/-- What the devices and the user do while a check value is made. -/
structure CheckEnv where
  /-- Faults of the calls on the last segment's handle. -/
  last : List (Option Fault) := []
  /-- Faults of the calls on the handle that hashes segment `i`. -/
  hashed : Nat → List (Option Fault) := fun _ => []
  /-- Faults of the calls on the handle that reads the salt from the first segment. -/
  salted : List (Option Fault) := []
  /-- Whether the user breaks in pass `j` over segment `i`. -/
  breaks : Nat → Nat → Bool := fun _ _ => false

/--
The segments before the last are opened for reading, hashed and closed one after the other.

The list returned is what the volume stores of them afterwards.
-/
def hashSegments (c : CheckHash) (env : CheckEnv) (backend : Backend) (fileNumber : Nat) :
    Nat → List Bytes → Bytes → Option (Bool × Bytes × List Bytes)
  | _, [], ctx => some (true, ctx, [])
  | i, data :: rest, ctx =>
    match hashFile c (env.breaks i) false fileNumber (openFile backend data (env.hashed i)) ctx with
    | none => none
    | some (false, s) => some (false, s.ctx, s.file.close :: rest)
    | some (true, s) =>
      match hashSegments c env backend fileNumber (i + 1) rest s.ctx with
      | none => none
      | some (ok, ctx, rest) => some (ok, ctx, s.file.close :: rest)

/-- Bytes read into a buffer of zeros. -/
def intoZeros (size : Nat) (bytes : Bytes) : Bytes :=
  bytes ++ List.replicate (size - bytes.length) 0

/-- `_GetSaltValue`: 32 bytes from the middle of the file and one from its first third. -/
def getSaltValue (file : OpenFile) : Option (Option (Bytes × Nat) × OpenFile) :=
  let filesize := file.getSize
  match (file.setPos (filesize / 2)).read SALT_LEN with
  | (.failed, file) => some (none, file)
  | (.bytes salt, file) =>
    match (file.setPos (filesize / 3)).read 4 with
    | (.failed, file) => some (none, file)
    | (.bytes iter, file) =>
      some (some (intoZeros SALT_LEN salt, ((intoZeros 4 iter).headD 0).toNat), file)
    | _ => none
  | _ => none

/--
An image: its segments, the last one apart.

Only FAT images are ever split, since `FileOpen` clears `ifneedseg` on NTFS.
-/
structure ImageFiles where
  backend : Backend
  first : List Bytes := []
  last : Bytes
  whole : backend = .ntfs → first = []

/-- The number of segments. -/
def ImageFiles.fileNumber (img : ImageFiles) : Nat := img.first.length + 1

/-- `CalculateFileSHA256Value`: the digest over all segments, the last of which is open. -/
def calculateFileSHA256Value (c : CheckHash) (env : CheckEnv) (img : ImageFiles) (file : OpenFile) :
    Option (Option Bytes × List Bytes × OpenFile) :=
  match hashSegments c env img.backend img.fileNumber 0 img.first [] with
  | none => none
  | some (false, _, first) => some (none, first, file)
  | some (true, ctx, first) =>
    match hashFile c (env.breaks img.first.length) true img.fileNumber file ctx with
    | none => none
    | some (false, s) => some (none, first, s.file)
    | some (true, s) => some (some (c.sha256 s.ctx), first, s.file)

/-- The 32 characters written first to make room for the check value. -/
def placeholder : Bytes := List.replicate 31 0x30 ++ [0]

/-- `SaveZeroDataToFileEndForCheckValue`: append the placeholder; its result is never looked at. -/
def saveZeroData (file : OpenFile) : Reply × OpenFile :=
  (file.setPos file.getSize).write placeholder

/-- `SaveFileCheckValue`: write over the last 32 bytes of the size the volume reports. -/
def saveFileCheckValue (file : OpenFile) (value : Bytes) : Reply × OpenFile :=
  let filesize := file.getSize
  let pos := if filesize > 0 then sub64 filesize SALT_LEN else filesize
  (file.setPos pos).write value

/-- What making a check value leaves behind. -/
structure CheckResult where
  ok : Bool
  first : List Bytes
  last : Bytes
  /-- The check value, when it was computed. -/
  value : Bytes := []
  deriving DecidableEq, Repr

/-- `CalCheckValue`: hash every segment, then salt and stretch the digest. -/
def calCheckValue (c : CheckHash) (env : CheckEnv) (img : ImageFiles) (file : OpenFile) :
    Option (Option Bytes × List Bytes × OpenFile) :=
  match hashSegments c env img.backend img.fileNumber 0 img.first [] with
  | none => none
  | some (false, _, first) => some (none, first, file)
  | some (true, ctx, first) =>
    match hashFile c (env.breaks img.first.length) true img.fileNumber file ctx with
    | none => none
    | some (false, s) => some (none, first, s.file)
    | some (true, s) =>
      -- A split image takes its salt from the first segment, opened once more.
      match first with
      | [] =>
        match getSaltValue s.file with
        | none => none
        | some (none, file) => some (none, first, file)
        | some (some (salt, iterations), file) =>
          some (some (c.pbkdf2 (c.sha256 s.ctx) salt (3000 + iterations)), first, file)
      | data :: rest =>
        match getSaltValue (openFile img.backend data env.salted) with
        | none => none
        | some (none, seg) => some (none, seg.close :: rest, s.file)
        | some (some (salt, iterations), seg) =>
          some (some (c.pbkdf2 (c.sha256 s.ctx) salt (3000 + iterations)), seg.close :: rest, s.file)

/-- `CalculateFileCheckValue` behind the placeholder: compute the value, store it, and close. -/
def storeCheckValue (c : CheckHash) (env : CheckEnv) (img : ImageFiles) (file : OpenFile) :
    Option CheckResult :=
  match calCheckValue c env img file with
  | none => none
  | some (none, first, file) => some { ok := false, first := first, last := file.close }
  | some (some value, first, file) =>
    match saveFileCheckValue file value with
    | (.hang, _) | (.crash, _) => none
    | (.failed, file) => some { ok := false, first := first, last := file.close, value := value }
    | (_, file) => some { ok := true, first := first, last := file.close, value := value }

/-- `CalculateFileCheckValue`: append a check value to the image. -/
def calculateFileCheckValue (c : CheckHash) (env : CheckEnv) (img : ImageFiles) :
    Option CheckResult :=
  match saveZeroData (openFile img.backend img.last env.last) with
  | (.hang, _) | (.crash, _) => none
  | (_, file) => storeCheckValue c env img file

/-- `GetFileCheckValue`: read the last 32 bytes of the size the volume reports. -/
def getFileCheckValue (file : OpenFile) : Option (Option Bytes) :=
  let filesize := file.getSize
  let pos := if filesize > 0 then sub64 filesize SALT_LEN else filesize
  match (file.setPos pos).read PBKDF2P_LEN with
  | (.failed, _) => some none
  | (.bytes value, _) => some (some (intoZeros PBKDF2P_LEN value))
  | _ => none

/--
`ValidImageCheckValue`: compute the check value once more and compare it with the stored one.

The last segment is opened for reading only, and nothing is written.
-/
def validImageCheckValue (c : CheckHash) (env : CheckEnv) (img : ImageFiles) : Option Bool :=
  match calCheckValue c env img (openFile img.backend img.last env.last) with
  | none => none
  | some (none, _, _) => some false
  | some (some value, _, file) =>
    match getFileCheckValue file with
    | none => none
    | some none => some false
    | some (some stored) => some (stored == value)

/-- The last segment is the old bytes and one check value, and the other segments are unchanged. -/
def CheckAppended (img : ImageFiles) (r : CheckResult) : Prop :=
  r.last = img.last ++ r.value ∧ r.value.length = PBKDF2P_LEN ∧ r.first = img.first

/-- How many of `size` bytes a call stores that meets this fault. -/
def storedUnder (fault : Option Fault) (size : Nat) : Nat :=
  match fault with
  | none => size
  | some .fail => 0
  | some (.short n) => min n size

/-- How much of the placeholder a FAT volume stores behind a segment of this size. -/
def placeholderWritten (faults : List (Option Fault)) (size : Nat) : Nat :=
  if MAX_FAT_FILE ≤ size + PBKDF2P_LEN then 0
  else storedUnder (faults.headD none) PBKDF2P_LEN

/--
When a check value that is reported as made has been appended.

On NTFS the placeholder stays in the cache, so the reported size is the old one: the value goes over
the last 32 bytes of the segment unless there are none, and the flush in `FileClose`, the driver's
third call there, must then store it.
On FAT the placeholder must have been stored whole, unless the segment is empty or its 31 bytes turn
the position into the one that stands for the end of the file.
-/
def CheckSafe (env : CheckEnv) (img : ImageFiles) : Prop :=
  match img.backend with
  | .ntfs => img.last = [] ∧ storedUnder (env.last.tail.tail.headD none) PBKDF2P_LEN = PBKDF2P_LEN
  | .fat =>
    let written := placeholderWritten env.last img.last.length
    written = PBKDF2P_LEN ∨ (written = 0 ∧ (img.last.length = 0 ∨ img.last.length = 31))

end Okr
