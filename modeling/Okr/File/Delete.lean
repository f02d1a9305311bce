import Okr.Base.Partition

/-! The deletion of a file on a FAT volume of the firmware and on an NTFS volume of the library. -/

namespace Okr

/-- What separates the parts of a path. -/
def PATH_SEP : UInt16 := 0x5C

/-- A path as the callers hand it over: it starts at the root, and no zero stands before its end. -/
structure FilePath where
  chars : List UInt16
  rooted : chars.head? = some PATH_SEP
  ended : 0 ∉ chars
  short : chars.length < 256

/-- The files of a volume, by what the volume knows them by, each with its bytes. -/
abbrev FileTable (File : Type) := File → Option Bytes

/-- A volume: the file system that is on it, and the file that a path names there. -/
structure FileVolume (File : Type) where
  ifntfs : Bool
  unicode : List UInt16 → File
  ascii : Bytes → File

/-- The low byte of a character. -/
def lowByte (c : UInt16) : Byte := c.toUInt8

/-- `Unicode2Ascii`: the low bytes of the characters, up to the first that is zero. -/
def asciiFilename (chars : List UInt16) : Bytes := (chars.map lowByte).takeWhile (· != 0)

/-- The file a path names: the NTFS library is only ever given the low bytes of a path. -/
def FileVolume.file {File : Type} (v : FileVolume File) (path : FilePath) : File :=
  if v.ifntfs then v.ascii (asciiFilename path.chars) else v.unicode path.chars

/-- What `Delete` of the firmware reports: the specification has success and a warning. -/
inductive DeleteStatus where
  | success
  | warnDeleteFailure
  | error
deriving DecidableEq

/-- What the firmware and the library answer to the calls of one `FileDelete`. -/
structure DeleteAnswers where
  opens : Bool
  creates : Bool
  delete : DeleteStatus
  strdup : Bool
  inode : Bool
  mftNo : Nat
  converts : Bool
  parent : Bool
  removes : Bool
  errno : Nat

/-- What the functions of the library return. -/
def N_SUCCESS : Nat := 0
def N_PATH_NOT_FOUND : Nat := 3
def N_NOT_ENOUGH_MEMORY : Nat := 8
def N_METAFILE : Nat := 0xC0000001

/-- The first record of an NTFS volume that is no file of the file system itself. -/
def FILE_first_user : Nat := 16

section
variable {File : Type} [DecidableEq File]

/-- The files without one of them. -/
def FileTable.without (files : FileTable File) (f : File) : FileTable File :=
  Function.update files f none

/-- What `n_deletefile` does after the copy of its path: the value of `ret`, and the files. -/
def removeInode (a : DeleteAnswers) (f : File) (files : FileTable File) : Nat × FileTable File :=
  -- `ntfs_pathname_to_inode`
  if (files f).isNone ∨ ¬ a.inode then (N_PATH_NOT_FOUND, files)
  else if a.mftNo < FILE_first_user then (N_METAFILE, files)
  -- `ntfs_mbstoucs` of the name behind the last separator
  else if ¬ a.converts then (N_NOT_ENOUGH_MEMORY, files)
  else if ¬ a.parent then (N_PATH_NOT_FOUND, files)
  -- `ntfs_delete`, with `-errno` where it fails
  else (sub32 0 a.errno, if a.removes then files.without f else files)

/-- `n_deletefile`: the value of `ret` is not what is returned. -/
def nDeletefile (v : FileVolume File) (a : DeleteAnswers) (orgPath : Bytes) (files : FileTable File) :
    Nat × FileTable File :=
  if ¬ a.strdup then (N_NOT_ENOUGH_MEMORY, files)
  else (N_SUCCESS, (removeInode a (v.ascii orgPath) files).2)

/-- `FileOpen` on a FAT volume with `EFI_FILE_MODE_CREATE`: a file that is not there is made. -/
def fatOpen (a : DeleteAnswers) (f : File) (files : FileTable File) : Bool × FileTable File :=
  match files f with
  | some _ => (a.opens, files)
  | none => (a.creates, if a.creates then Function.update files f (some []) else files)

/-- `FileDelete` on a FAT volume: a warning is no error. -/
def fatDelete (a : DeleteAnswers) (f : File) (files : FileTable File) : Bool × FileTable File :=
  let opened := fatOpen a f files
  if ¬ opened.1 then (false, opened.2)
  else
    match a.delete with
    | .success => (true, opened.2.without f)
    | .warnDeleteFailure => (true, opened.2)
    | .error => (false, opened.2)

/-- `FileDelete`. -/
def FileVolume.fileDelete (v : FileVolume File) (a : DeleteAnswers) (path : FilePath)
    (files : FileTable File) : Bool × FileTable File :=
  if v.ifntfs then
    let deleted := nDeletefile v a (asciiFilename path.chars) files
    (deleted.1 == 0, deleted.2)
  else fatDelete a (v.unicode path.chars) files

/-- `GetFileSizeByName`: the size is zero where the file cannot be opened. -/
def getFileSizeByName (files : FileTable File) (f : File) (opens : Bool) : Nat :=
  match files f with
  | some bytes => if opens then u64 bytes.length else 0
  | none => 0

end

end Okr
