import Mathlib.Data.Fintype.Pi
import Okr.Base.Memory

/-! The disk list of the program, and the global variables its restore decision is spread over. -/

namespace Okr

/-- How many serial numbers an image keeps. -/
def MAX_SUPPORED_HDD_NO : Nat := 6

/-- The version a header must have. -/
def OKR_VERSION : Nat := 0x09000811

/-- A serial number of a disk: twenty bytes. -/
abbrev Serial := Fin 20 → Byte

/-- The serial number of a disk that reports none. -/
def Serial.zero : Serial := fun _ => 0

/-- `CompareHddSN`: all bytes are the same. -/
def compareHddSN (sn1 sn2 : Serial) : Bool := decide (∀ i, sn1 i = sn2 i)

/-- `checkIfSnZero`: all bytes are zero. -/
def checkIfSnZero (sn : Serial) : Bool := decide (∀ i, sn i = 0)

/-- What a disk is to the image that is to be restored: `curdisktype`. -/
inductive DiskType where
  | data
  | sysdisk
  | newFound
  | raid
deriving Repr, DecidableEq

/-- A disk of the machine, as far as the restore looks at it. -/
structure DiskInfo where
  totalsector : Nat := 0
  removable : Bool := false
  formatted : Bool := false
  disksn : Serial := Serial.zero
  raidDisksn : Serial := Serial.zero
  isRAIDDisk : Bool := false
  curdisktype : DiskType := .data

/-- Which restores onto another disk the machine's policy forbids. -/
inductive SkipType where
  | nvmeToSata
  | sataToNvme
  | differentType
  | newHddFunc
  | nvmeToNvme
  | sataToSata
  | sameType
  | notGsku
deriving Repr, DecidableEq

/-- The kind of disk the image was taken from. -/
inductive SysdiskType where
  | none
  | nvme
  | sata
deriving Repr, DecidableEq

/-- The variables a restore is decided by, with their values at the start of the program. -/
structure Globals where
  /-- The disks that were found, `g_disknum` of them. -/
  disklist : List DiskInfo
  selecteddisk : Option Nat := none
  recoverDiskNumber : Option Nat := none
  comefromnewhddface : Bool := false
  destdisktype : DiskType := .data
  bForceRestorePartition : Bool := false
  needlimit : Bool := false
  partCBootBegin : Nat := 0
  partCTotalSector : Nat := 0
  curImageSyspartitionsize : Nat := 0
  sysdisktypeInBackupfile : SysdiskType := .none
  enumGSKUSkipType : SkipType := .notGsku

/-- A slot of `g_disklist`; the slots behind the last disk are zero. -/
def Globals.disk (g : Globals) (i : Nat) : DiskInfo := g.disklist.getD i {}

/-- Two serial numbers compare as the same exactly if they are. -/
@[simp] theorem compareHddSN_iff {sn1 sn2 : Serial} : compareHddSN sn1 sn2 = true ↔ sn1 = sn2 := by
  rw [compareHddSN, decide_eq_true_iff, funext_iff]

/-- A serial number tests as zero exactly if it is. -/
@[simp] theorem checkIfSnZero_iff {sn : Serial} : checkIfSnZero sn = true ↔ sn = Serial.zero := by
  rw [checkIfSnZero, decide_eq_true_iff, funext_iff]
  rfl

end Okr
