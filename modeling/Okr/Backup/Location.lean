import Okr.Base.Partition
import Okr.File.Fat
import Okr.Restore.Globals

/-! The file that records where the automatic backup is: its text is written and read again. -/

namespace Okr

/-! ### Strings of the firmware -/

/-- The string that an array holds: its characters up to a zero; without a zero the array is left. -/
def strOf : List Nat → Option (List Nat)
  | [] => none
  | c :: rest => if c = 0 then some [] else (strOf rest).map (c :: ·)

/-- `StrLen`. -/
def strLen (chars : List Nat) : Option Nat := (strOf chars).map List.length

/-- `StrStr`: the string from the first occurrence of another one on. -/
def strStr (pattern : List Nat) : List Nat → Option (List Nat)
  | [] => if pattern = [] then some [] else none
  | c :: rest =>
    if pattern.isPrefixOf (c :: rest) then some (c :: rest) else strStr pattern rest

/-- `StrnCpy` into an array of 100 characters: what the array holds, unless the copy leaves it. -/
def strnCpy100 (source : List Nat) (length : Nat) : Option (List Nat) :=
  if 100 < length then none
  else some (source.take length ++ List.replicate (100 - (source.take length).length) 0)

/-- `StrDecimalToUintn`: blanks are skipped, and the digits end at anything else. -/
def strDecimalToUintn (chars : List Nat) : Nat :=
  let digits := (chars.dropWhile fun c => c == 0x20 || c == 0x09).takeWhile fun c =>
    decide (0x30 ≤ c) && decide (c ≤ 0x39)
  min (digits.foldl (fun value c => 10 * value + (c - 0x30)) 0) (2 ^ 64 - 1)

/-- The characters of an array of bytes. -/
def chars16 : Bytes → List Nat
  | low :: high :: rest => (low.toNat + 256 * high.toNat) :: chars16 rest
  | _ => []

/-- The bytes of some characters. -/
def bytes16 (chars : List Nat) : Bytes :=
  chars.flatMap fun c => [UInt8.ofNat c, UInt8.ofNat (c / 256)]

/-- `SPrint` into a buffer of 100 bytes: 49 characters and the zero behind them. -/
def sPrint (chars : List Nat) : List Nat := chars.take 49

/-- `%lld`: a number of 64 bits is printed with its sign. -/
def lld (value : Nat) : List Nat :=
  if value < 2 ^ 63 then (Nat.toDigits 10 value).map Char.toNat
  else ('-' :: Nat.toDigits 10 (2 ^ 64 - value)).map Char.toNat

/-! ### The names and the line ends of the text -/

def snPreFix : List Nat := ['S', 'N', '='].map Char.toNat
def bootBeginPreFix : List Nat := ['B', 'o', 'o', 't', 'B', 'e', 'g', 'i', 'n', '='].map Char.toNat
def timePreFix : List Nat := ['T', 'i', 'm', 'e', '='].map Char.toNat
def lineEnd : List Nat := [0x0D, 0x0A]

/-! ### The record is written -/

/--
The copy of the serial number: both are arrays of bytes, and are handled as characters of 16 bits.

What follows `disksn` in the record of the disk is `raidDisksn`.
-/
def copyDisksn (disk : DiskInfo) : Option Bytes :=
  match strLen (chars16 (List.ofFn disk.disksn ++ List.ofFn disk.raidDisksn)) with
  | some n =>
    if n ≤ 10 then some ((List.ofFn disk.disksn).take (2 * n) ++ List.replicate (20 - 2 * n) 0)
    else none
  | none => none

/-- `disksn` and `BootBegin` of the partition the backup is on. -/
def locationOf (disklist : List DiskInfo) (partitions : List PartitionInfo) (iBackupPartIndex : Nat) :
    Option (Bytes × Nat) :=
  match partitions[iBackupPartIndex]? with
  | none => some (List.replicate 20 0, 0)
  | some partition =>
    match disklist[partition.diskNumber]? with
    | none => some (List.replicate 20 0, partition.bootBegin)
    | some disk => (copyDisksn disk).map fun disksn => (disksn, partition.bootBegin)

/-- `%a`: the bytes up to the first zero, also behind the end of `disksn`. -/
def printedSn (disksn stack : Bytes) : List Nat :=
  ((disksn ++ stack).takeWhile (· != 0)).map UInt8.toNat

/-- The three lines. -/
def bootBeginLine (bootBegin : Nat) : List Nat := sPrint (bootBeginPreFix ++ lld bootBegin ++ lineEnd)
def timeLine (time : Nat) : List Nat := sPrint (timePreFix ++ lld time ++ lineEnd)
def snLine (disksn stack : Bytes) : List Nat := sPrint (snPreFix ++ printedSn disksn stack ++ lineEnd)

/-- Texts are written one behind the other, from a position on; the writes all have to succeed. -/
def writeLines (file : FatFile) (iPos : Nat) : List (List Nat) → Option FatFile
  | [] => some file
  | line :: rest =>
    match efiWrite (efiSetPosition file iPos) (bytes16 line) with
    | (true, file) => writeLines file (iPos + 2 * line.length) rest
    | (false, _) => none

/--
`SaveAutoBackupFileLocation` once the file is open: what it leaves, if it succeeds.

`stack` is what lies behind the array `disksn`.
-/
def saveAutoBackupFileLocation (disklist : List DiskInfo) (partitions : List PartitionInfo)
    (iBackupPartIndex time : Nat) (stack : Bytes) (file : FatFile) : Option FatFile := do
  let (disksn, bootBegin) ← locationOf disklist partitions iBackupPartIndex
  writeLines file 0 [bootBeginLine bootBegin, timeLine time, snLine disksn stack]

/-! ### The record is read -/

/-- What `GetAutoBackupLocationFromConfigFile` returns, and leaves in its arguments. -/
inductive Location where
  /-- An array is left. -/
  | outside
  /-- `FALSE`. -/
  | notFound
  | found (disksn : Bytes) (bootBegin time : Nat)
deriving Repr, DecidableEq

/-- `Unicode2Ascii`: the low bytes up to the first that is zero. -/
def unicode2Ascii : List Nat → Option Bytes
  | [] => none
  | c :: rest => if UInt8.ofNat c = 0 then some [0] else (unicode2Ascii rest).map (UInt8.ofNat c :: ·)

/-- `Unicode2Ascii` into the caller's array of 20 bytes, which was zero. -/
def unicode2Disksn (chars : List Nat) : Option Bytes :=
  match unicode2Ascii chars with
  | none => none
  | some ascii =>
    if 20 < ascii.length then none else some (ascii ++ List.replicate (20 - ascii.length) 0)

/-- The number of characters of a line, as the differences of lengths have it. -/
def lineLength (whole preFix rest : List Nat) : Nat :=
  sub64 (sub64 whole.length preFix.length) rest.length

/-- The three values of the text. -/
def parseLocation (text : List Nat) : Location :=
  match strStr bootBeginPreFix text, strStr timePreFix text, strStr snPreFix text with
  | some bootBegin, some time, some sn =>
    let values := do
      let bootBeginValue ← strnCpy100 (bootBegin.drop bootBeginPreFix.length)
        (lineLength text bootBeginPreFix time)
      let timeValue ← strnCpy100 (time.drop timePreFix.length) (lineLength time timePreFix sn)
      let snValue ← strnCpy100 (sn.drop snPreFix.length) (lineLength sn snPreFix [])
      let disksn ← unicode2Disksn snValue
      some (Location.found disksn (strDecimalToUintn bootBeginValue)
        (u32 (strDecimalToUintn timeValue)))
    values.getD .outside
  | _, _, _ => .notFound

/-- `GetAutoBackupLocationFromConfigFile` once the file is open. -/
def getAutoBackupLocationFromConfigFile (file : FatFile) : Location :=
  match (efiRead file 1024).1 with
  | none => .notFound
  | some [] => .notFound
  | some bytes =>
    match strOf (chars16 (bytes ++ List.replicate (1024 - bytes.length) 0)) with
    | none => .outside
    | some text => parseLocation text

end Okr
