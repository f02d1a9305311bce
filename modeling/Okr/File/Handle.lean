import Okr.File.Ntfs

/-! The cached file handle on an NTFS volume: seek, read, write and close. -/

namespace Okr

/-- Bytes the cache of a handle holds. -/
def DEFAULT_FILE_CACHE_SIZE : Nat := 0x100000

/-- Bytes one call of the driver transfers at most. -/
def DRIVER_CHUNK : Nat := 16 * 1024 * 1024

/-- `n & ~(cachesize - 1)`: the cache size is a 32-bit number, so the mask drops the upper half. -/
def cacheMultiple (n : Nat) : Nat :=
  u32 n / DEFAULT_FILE_CACHE_SIZE * DEFAULT_FILE_CACHE_SIZE

/--
An open file on an NTFS volume.

`cache` holds the `cachedatasize` valid bytes of the cache, which stand at `cachedatapos`.
-/
structure Handle where
  file : NtfsFile
  isOpen : Bool := true
  filepos : Nat := 0
  ifeof : Bool := false
  cachedirty : Bool := false
  cachedatapos : Nat := 0
  cache : Bytes := []
  deriving DecidableEq, Repr

/-- How a stage of a transfer ends: go on, stop with success, report failure, or worse. -/
inductive Progress where
  | go
  | stop
  | fail
  /-- The loop never ends. -/
  | hang
  /-- Memory past the cache is overwritten. -/
  | crash
  deriving DecidableEq, Repr

/-- The variables of a read in progress: what is still wanted and what has been delivered. -/
structure ReadState where
  h : Handle
  total : Nat
  out : Bytes := []

/-- The position is not a sector boundary and lies outside the cached bytes. -/
def Handle.misses (h : Handle) : Bool :=
  h.filepos % 512 != 0
    && (decide (h.filepos < h.cachedatapos) || decide (h.cachedatapos + h.cache.length < h.filepos))

/-- An unaligned position outside the cache fills the cache from the 4 KiB page in front of it. -/
def loadAligned (s : ReadState) : Progress × ReadState :=
  if s.h.misses then
    let h := { s.h with cachedatapos := s.h.filepos / 4096 * 4096 }
    match nReadFile h.file h.cachedatapos DEFAULT_FILE_CACHE_SIZE with
    | (none, file) => (.fail, { s with h := { h with file := file } })
    | (some bytes, file) =>
      (if bytes = [] then .stop else .go, { s with h := { h with file := file, cache := bytes } })
  else (.go, s)

/-- How many of the next `total` bytes the cache can deliver. -/
def Handle.cachedPart (h : Handle) (total : Nat) : Nat :=
  if h.cachedatapos ≤ h.filepos ∧ h.filepos < h.cachedatapos + h.cache.length then
    min total (h.cachedatapos + h.cache.length - h.filepos)
  else 0

/-- Deliver what the cache holds at the position. -/
def copyCached (s : ReadState) : ReadState :=
  let count := s.h.cachedPart s.total
  { h := { s.h with filepos := s.h.filepos + count }
    total := s.total - count
    out := s.out ++ Overlay.window s.h.cache (s.h.filepos - s.h.cachedatapos) count }

/-- Read whole multiples of the cache size past the cache, in chunks; the end of file ends it all. -/
def readDirect : Nat → Nat → ReadState → Progress × ReadState
  | 0, readsize, s => if readsize = 0 then (.go, s) else (.hang, s)
  | fuel + 1, readsize, s =>
    if readsize = 0 then (.go, s)
    else
      match nReadFile s.h.file s.h.filepos (min readsize DRIVER_CHUNK) with
      | (none, file) => (.fail, { s with h := { s.h with file := file } })
      | (some bytes, file) =>
        if bytes = [] then (.go, { s with h := { s.h with file := file }, total := 0 })
        else
          readDirect fuel (readsize - bytes.length)
            { h := { s.h with file := file, filepos := s.h.filepos + bytes.length }
              total := s.total - bytes.length
              out := s.out ++ bytes }

/-- Fill the cache at the position itself; the next pass delivers from it. -/
def loadNext (s : ReadState) : Progress × ReadState :=
  match nReadFile s.h.file s.h.filepos DEFAULT_FILE_CACHE_SIZE with
  | (none, file) => (.fail, { s with h := { s.h with file := file } })
  | (some bytes, file) =>
    (if bytes = [] then .stop else .go,
      { s with h := { s.h with file := file, cache := bytes, cachedatapos := s.h.filepos } })

/-- One pass of the read loop. -/
def readPass (s : ReadState) : Progress × ReadState :=
  match loadAligned s with
  | (.go, s) =>
    let s := copyCached s
    if s.total = 0 then (.go, s)
    else
      match readDirect s.total (cacheMultiple s.total) s with
      | (.go, s) => if s.total = 0 then (.go, s) else loadNext s
      | other => other
  | other => other

/-- The read loop, which runs until nothing is wanted any more. -/
def readLoop : Nat → ReadState → Progress × ReadState
  | fuel, s =>
    if s.total = 0 then (.stop, s)
    else
      match fuel with
      | 0 => (.hang, s)
      | fuel + 1 =>
        match readPass s with
        | (.go, s) => readLoop fuel s
        | other => other

/-- What a call on the handle reports. -/
inductive Reply where
  | done
  | bytes (b : Bytes)
  | wrote (n : Nat)
  | failed
  | hang
  | crash
  deriving DecidableEq, Repr

/-- `NormalFileRead`, and `_FileRead` with it: the two have the same text up to the progress bar. -/
def normalFileRead (h : Handle) (size : Nat) : Reply × Handle :=
  if h.ifeof then (.bytes [], h)
  else
    match readLoop (2 * size + 2) { h := h, total := size } with
    | (.fail, s) => (.failed, s.h)
    | (.hang, s) => (.hang, s.h)
    | (.crash, s) => (.crash, s.h)
    | (_, s) => (.bytes s.out, s.h)

/-- Write the cached bytes at their place; a short count passes for success. -/
def flushCache (h : Handle) : Bool × Handle :=
  match nWriteFile h.file h.cachedatapos h.cache with
  | (none, file) => (false, { h with file := file })
  | (some _, file) => (true, { h with file := file })

/-- A position that does not continue the cached bytes flushes them first. -/
def settleCache (h : Handle) : Bool × Handle :=
  if h.filepos ≠ h.cachedatapos + h.cache.length then
    match flushCache h with
    | (false, h) => (false, h)
    | (true, h) => (true, { h with cache := [], cachedatapos := h.filepos })
  else (true, h)

/-- Append to the cache; a full cache is flushed and leaves the rest of the buffer. -/
def fillCache (h : Handle) (buffer : Bytes) : Progress × Handle × Bytes :=
  let room := DEFAULT_FILE_CACHE_SIZE - h.cache.length
  let rest := buffer.drop room
  let filled := { h with cache := h.cache ++ buffer.take room }
  if filled.cache.length = DEFAULT_FILE_CACHE_SIZE then
    match flushCache filled with
    | (false, h) => (.fail, h, rest)
    | (true, h) =>
      (.go,
        { h with
          cachedatapos := h.cachedatapos + h.cache.length
          filepos := h.cachedatapos + h.cache.length
          cache := []
          cachedirty := false }, rest)
  else
    (.stop, { filled with cachedirty := true, filepos := h.filepos + (buffer.take room).length }, rest)

/-- Write whole multiples of the cache size past the cache, in chunks. -/
def writeDirect : Nat → Nat → Handle → Bytes → Progress × Handle × Bytes
  | 0, writesize, h, rest => if writesize = 0 then (.go, h, rest) else (.hang, h, rest)
  | fuel + 1, writesize, h, rest =>
    if writesize = 0 then (.go, h, rest)
    else
      match nWriteFile h.file h.filepos (rest.take (min writesize DRIVER_CHUNK)) with
      | (none, file) => (.fail, { h with file := file }, rest)
      | (some count, file) =>
        writeDirect fuel (writesize - count) { h with file := file, filepos := h.filepos + count }
          (rest.drop count)

/-- What is left goes to the cache, which holds no more than its size. -/
def keepTail (h : Handle) (rest : Bytes) : Progress × Handle × Bytes :=
  if rest = [] then (.stop, h, [])
  else if DEFAULT_FILE_CACHE_SIZE < rest.length then (.crash, h, rest)
  else
    (.stop,
      { h with
        cache := rest
        cachedatapos := h.filepos
        filepos := h.filepos + rest.length
        cachedirty := true }, [])

/-- The part of a write that runs with an empty cache. -/
def writePast (h : Handle) (rest : Bytes) : Progress × Handle × Bytes :=
  match writeDirect rest.length (cacheMultiple rest.length) h rest with
  | (.go, h, rest) => keepTail h rest
  | other => other

/-- The stages of a write in their order. -/
def writeStages (h : Handle) (buffer : Bytes) : Progress × Handle × Bytes :=
  if h.cache = [] then writePast h buffer
  else
    match settleCache h with
    | (false, h) => (.fail, h, buffer)
    | (true, h) =>
      match fillCache h buffer with
      | (.go, h, rest) => writePast h rest
      | other => other

/-- `NormalFileWrite`, and `_FileWrite` with it. -/
def normalFileWrite (h : Handle) (buffer : Bytes) : Reply × Handle :=
  match writeStages h buffer with
  | (.fail, h, _) => (.failed, h)
  | (.hang, h, _) => (.hang, h)
  | (.crash, h, _) => (.crash, h)
  | (_, h, rest) => (.wrote (buffer.length - rest.length), h)

/-- `FileSetPos`: only the position changes, whatever the cache holds. -/
def fileSetPos (h : Handle) (pos : Nat) : Handle :=
  { h with ifeof := false, filepos := pos }

/-- `FileClose`: flush a dirty cache, look at no result, and give the file back. -/
def fileClose (h : Handle) : Handle :=
  let h :=
    if h.isOpen then
      let h := if h.cachedirty ∧ h.cache ≠ [] then (flushCache h).2 else h
      { h with cachedirty := false, isOpen := false }
    else h
  { h with cache := [], filepos := 0 }

/-- `FileOpen` of an existing file of this content. -/
def fileOpen (content : Bytes) : Handle :=
  { file := { data := content } }

/-- A call on the handle. -/
inductive Op where
  | setPos (pos : Nat)
  | read (size : Nat)
  | write (buffer : Bytes)
  | close
  deriving DecidableEq, Repr

/-- A call together with the faults the driver meets it with. -/
structure Call where
  op : Op
  faults : List (Option Fault) := []
  deriving DecidableEq, Repr

/-- One call on the handle; reading or writing through a closed handle follows a null pointer. -/
def handleStep (h : Handle) (c : Call) : Reply × Handle :=
  let h := { h with file := { h.file with faults := c.faults } }
  match c.op with
  | .setPos pos => (.done, fileSetPos h pos)
  | .read size => if h.isOpen then normalFileRead h size else (.crash, h)
  | .write buffer => if h.isOpen then normalFileWrite h buffer else (.crash, h)
  | .close => (.done, fileClose h)

end Okr
