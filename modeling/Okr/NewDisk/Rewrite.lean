import Okr.NewDisk.Gpt

/-! Restoring onto a new disk: its size and the place of WinRE are worked into the restored table. -/

namespace Okr

/-- The label that marks the vendor's own recovery partition. -/
def lenovoPart : List Nat :=
  [0x4C, 0x45, 0x4E, 0x4F, 0x56, 0x4F, 0x5F, 0x50, 0x41, 0x52, 0x54]

/-- The header of an image, as far as the new-disk path reads it; behind its records lies memory. -/
structure OkrHeader where
  partitionCount : Nat
  disksize : Nat
  partition : Nat → PartitionInfo

namespace OkrHeader

/-- The first record with a property, or nothing when all of them lack it. -/
def findRecord (header : OkrHeader) (p : PartitionInfo → Bool) : Option Nat :=
  (List.range header.partitionCount).find? fun i => p (header.partition i)

/-- A record gets another first sector. -/
def setBootBegin (header : OkrHeader) (i sector : Nat) : OkrHeader :=
  { header with
    partition := fun j =>
      if j = i then { header.partition j with bootBegin := sector } else header.partition j }

end OkrHeader

/-- A record with the type of a recovery partition. -/
def isRecoveryType (p : PartitionInfo) : Bool := p.typeGuid == windowRecoveryTypeGuid

/-- A recovery partition that is not the vendor's own. -/
def isWinRE (p : PartitionInfo) : Bool := isRecoveryType p && p.label.take 11 != lenovoPart

/-- What the uninitialised `wirecount` and `t` hold when a search leaves them unset. -/
structure Stack where
  wirecount : Nat := 0
  t : Nat := 0

/-- The variables of the new-disk path, the destination disk among them. -/
structure NewDisk where
  disk : Image
  totalsector : Nat
  header : OkrHeader
  isNoDataPartFlag : Bool := false
  winREState : Nat := 0
  wireTotalSectors : Nat := 0
  fixSmallc : Bool := false
  /-- The record whose first sector was assigned last, and the entry it was taken from. -/
  moved : Option (Nat × Nat) := none

/-- The variables as `Recover` sets them before the path: no volume to shrink, nothing moved. -/
def NewDisk.start (n : NewDisk) : NewDisk := { n with fixSmallc := false, moved := none }

/-- What the firmware supplies: the checksum, random numbers, and the old content of the heap. -/
structure Firmware where
  crc32 : Bytes → Nat
  random : Nat × Nat := (0, 0)
  heap : Image := fun _ => 0

/-- `IsFixNewHddWay`: is there a data partition between the system and WinRE? -/
def isFixNewHddWay (stack : Stack) (n : NewDisk) : NewDisk :=
  let header := n.header
  let wire := header.partition ((header.findRecord isWinRE).getD stack.wirecount)
  let os := header.partition ((header.findRecord fun p => p.bIfBackup && p.hasWindows).getD stack.t)
  let sizeMined :=
    if wire.bootBegin ≥ os.bootBegin then sub64 (sub64 wire.bootBegin os.bootBegin) os.totalSectors
    else sub64 (sub64 header.disksize os.bootBegin) os.totalSectors
  -- The state 0 of a WinRE in front of the system is overwritten in either case.
  if sizeMined < 0x1000 then { n with isNoDataPartFlag := true, winREState := 2 }
  else { n with isNoDataPartFlag := false, winREState := 1 }

/-- `GetWirePartSector`. -/
def getWirePartSector (stack : Stack) (n : NewDisk) : NewDisk :=
  let wire := (n.header.findRecord isWinRE).getD stack.wirecount
  { n with wireTotalSectors := (n.header.partition wire).totalSectors }

/-- `x & 0xfffffffffffffff0` and `x & 0xffffffffffffff00`. -/
def low16 (x : Nat) : Nat := x &&& 0xfffffffffffffff0
def low256 (x : Nat) : Nat := x &&& 0xffffffffffffff00

/-- The sector in which a file system would start is cleared. -/
def clearSector (sector : Nat) (disk : Image) : Image := diskWrite disk sector 1 fun _ => 0

/-- The first and last sector of an entry are entered. -/
def putPlace (buffer : Image) (k first last : Nat) : Image :=
  put 8 (put 8 buffer (entryPos k + 0x20) first) (entryPos k + 0x28) last

/-- An entry becomes that of WinRE. -/
def putWinRE (buffer : Image) (k first last : Nat) : Image :=
  let buffer := putPlace buffer k first last
  put 8 (putBytes buffer (entryPos k) windowRecoveryTypeGuid) (entryPos k + 0x30) 0x8000000000000001

/-- Everything from an entry on is cleared. -/
def clearFrom (buffer : Image) (k : Nat) : Image := zeroFill buffer (entryPos k) GPT_SIZE

/-- `UpdateOKRHeaderInfo`: the first record of the recovery type gets the new place. -/
def updateOKRHeaderInfo (entry sector : Nat) (n : NewDisk) : NewDisk :=
  match n.header.findRecord isRecoveryType with
  | some i => { n with header := n.header.setBootBegin i sector, moved := some (i, entry) }
  | none => n

/-- The MBR branch, which both functions have in the same words; nothing when it does nothing. -/
def fixMbr (bootBegin totalSector : Nat) (n : NewDisk) : Option NewDisk :=
  let buffer := diskRead n.disk 0 1 fun _ => 0
  let i := (List.range 4).findIdx fun i => le32 buffer (0x1c6 + i * 16) == u32 bootBegin
  if le16 buffer 0x1fe ≠ 0xaa55 ∨ i = 4 then none
  else if n.totalsector > u64 (0x64000 + (bootBegin + totalSector)) ∧ i < 3 then
    let i := i + 1
    let entry := 0x1be + 16 * i
    let begin_ := u32 (u64 (bootBegin + totalSector + 0xff) &&& 0xffffff00)
    let size := u32 (sub64 (sub64 (sub64 n.totalsector bootBegin) totalSector) 0xff &&& 0xfffffff0)
    let buffer := putBytes buffer entry [0, 0xfe, 0xff, 0xff, 7, 0xfe, 0xff, 0xff]
    let buffer := put 4 (put 4 buffer (entry + 8) begin_) (entry + 12) size
    let buffer := zeroFill buffer (entry + 16) 0x1fe
    some { n with
      disk := diskWrite (clearSector begin_ n.disk) 0 1 buffer
      fixSmallc := false }
  else
    let size := u32 (sub64 n.totalsector bootBegin &&& 0xfffffff0)
    let buffer := put 4 buffer (0x1ca + i * 16) size
    let buffer := zeroFill buffer (0x1be + i * 16 + 16) 0x1fe
    some { n with disk := diskWrite n.disk 0 1 buffer, fixSmallc := true }

/-- The table of the destination disk with the header fitted to its size, when there is one. -/
def fittedGpt (fw : Firmware) (n : NewDisk) : Option Image :=
  let buffer := readGpt n.disk fw.heap
  if isEfiPart buffer then some (fitHeader n.totalsector buffer) else none

/-- The place of the operating system's entry; one behind byte 4096 counts as not found. -/
def findOs (buffer : Image) (bootBegin : Nat) : Option Nat :=
  let k := findEntry fun k => startingLBA buffer k == bootBegin
  if entryPos k > 4096 then none else some k

/-- `FixNoDataPartTable` once the system's entry is found: the entries, and what else changes. -/
def noDataEntries (bootBegin totalSector k : Nat) (buffer : Image) (n : NewDisk) : Image × NewDisk :=
  if n.totalsector > u64 (u64 (bootBegin + totalSector) + n.wireTotalSectors) then
    -- The system keeps its size, and WinRE comes right behind it.
    if n.winREState ≠ 0 then
      let first := low16 (u64 (bootBegin + totalSector + 0xF))
      let buffer := putWinRE buffer (k + 1) first (low256 (u64 (first + n.wireTotalSectors)))
      let n := updateOKRHeaderInfo (k + 1) first n
      (clearFrom buffer (k + 2), { n with disk := clearSector first n.disk, fixSmallc := false })
    else (clearFrom buffer (k + 1), { n with fixSmallc := false })
  else
    if n.winREState ≠ 0 then
      let total := sub64 (sub64 n.totalsector (u64 (bootBegin + n.wireTotalSectors))) 0x22
      let buffer := put 8 buffer (entryPos k + 0x28) (low256 (u64 (bootBegin + total)))
      let first := low16 (u64 (bootBegin + total))
      let buffer := putWinRE buffer (k + 1) first (low256 (u64 (first + n.wireTotalSectors)))
      let n := updateOKRHeaderInfo (k + 1) first n
      (clearFrom buffer (k + 2), { n with disk := clearSector first n.disk, fixSmallc := true })
    else
      let total := sub64 (sub64 n.totalsector bootBegin) 0x22
      let buffer := put 8 buffer (entryPos k + 0x28) (low256 (u64 (bootBegin + total)))
      (clearFrom buffer (k + 1), { n with fixSmallc := true })

/-- `FixNoDataPartTable`: the layout in which WinRE directly follows the system. -/
def fixNoDataPartTable (fw : Firmware) (bootBegin totalSector : Nat) (n : NewDisk) : NewDisk :=
  if bootBegin = 0 ∨ totalSector = 0 then n
  else if isGPT n.disk then
    match fittedGpt fw n with
    | none => n
    | some buffer =>
      match findOs buffer bootBegin with
      | none => n
      | some k =>
        let entries := noDataEntries bootBegin totalSector k buffer n
        { entries.2 with
          disk := writeGptCopies fw.crc32 n.totalsector (sealGpt fw.crc32 entries.1) entries.2.disk }
  else (fixMbr bootBegin totalSector n).getD n

/-- The first half of `WinrePartGUID1`, by which the entry of WinRE is recognised. -/
def winrePartGUID1 : Nat := 0x4d4006d1de94bba4

/-- The last sector in front of a WinRE at the end of the disk, as `FixNewHDD` rounds it. -/
def lastBefore (n : NewDisk) : Nat :=
  low256 (sub64 (sub64 (sub64 n.totalsector n.wireTotalSectors) 0x22) 1)

/-- The data partition behind the system's entry `k`, which starts as a copy of that entry. -/
def addDataEntry (fw : Firmware) (bootBegin totalSector k : Nat) (buffer : Image) (n : NewDisk) :
    Image :=
  let buffer := copyMem buffer (entryPos (k + 1)) (entryPos k) 128
  let buffer := put 8 buffer (entryPos (k + 1) + 0x10) fw.random.1
  let buffer := put 8 buffer (entryPos (k + 1) + 0x18) fw.random.2
  let last := if n.winREState ≠ 0 then lastBefore n else low16 (sub64 n.totalsector 0x22)
  putPlace buffer (k + 1) (low16 (u64 (bootBegin + totalSector + 0xF))) last

/-- The system's entry `k` ends in front of WinRE, or at the end of the disk. -/
def growSystem (k : Nat) (buffer : Image) (n : NewDisk) : Image :=
  put 8 buffer (entryPos k + 0x28)
    (if n.winREState ≠ 0 then lastBefore n else low256 (sub64 n.totalsector 0x22))

/-- What follows entry `i - 1`: the WinRE entry `m` of the image when it stands farther behind. -/
def keepWinRE (m i : Nat) (buffer : Image) (n : NewDisk) : Image :=
  if n.winREState ≠ 0 ∧ m ≥ i then
    -- The entry keeps the place it has in the image.
    clearFrom (copyMem buffer (entryPos i) (entryPos m) 128) (i + 1)
  else clearFrom buffer i

/-- `FixNewHDD` once the system's entry is found: the entries, and what else changes. -/
def newHddEntries (fw : Firmware) (bootBegin totalSector k : Nat) (buffer : Image) (n : NewDisk) :
    Image × NewDisk :=
  let m := findEntry fun m => le64 buffer (entryPos m) == winrePartGUID1
  if n.totalsector > u64 (0x64000 + u64 (u64 (bootBegin + totalSector) + n.wireTotalSectors)) then
    let first := low16 (u64 (bootBegin + totalSector + 0xF))
    (keepWinRE m (k + 2) (addDataEntry fw bootBegin totalSector k buffer n) n,
      { n with disk := clearSector first n.disk, fixSmallc := false })
  else (keepWinRE m (k + 1) (growSystem k buffer n) n, { n with fixSmallc := true })

/-- `FixNewHDD`: only the table at the front of the disk is written. -/
def fixNewHDD (fw : Firmware) (bootBegin totalSector : Nat) (n : NewDisk) : NewDisk :=
  if bootBegin = 0 ∨ totalSector = 0 then n
  else if isGPT n.disk then
    match fittedGpt fw n with
    | none => n
    | some buffer =>
      match findOs buffer bootBegin with
      | none => n
      | some k =>
        let entries := newHddEntries fw bootBegin totalSector k buffer n
        { entries.2 with
          disk := diskWrite entries.2.disk 1 (GPT_SIZE / 512) (sealGpt fw.crc32 entries.1) }
  else (fixMbr bootBegin totalSector n).getD n

/-- A record of the operating system. -/
def isOsRecord (p : PartitionInfo) : Bool := p.typeGuid == windowsDataTypeGuid && p.hasWindows

/-- The entry that starts where the record does, or 0x20 sectors behind. -/
def entryOfRecord (buffer : Image) (p : PartitionInfo) : Nat :=
  findEntry fun k => startingLBA buffer k == p.bootBegin || startingLBA buffer k == u64 (p.bootBegin + 0x20)

/-- The first entry that is free. -/
def freeEntry (buffer : Image) : Nat :=
  findEntry fun k => startingLBA buffer k == 0 || endingLBA buffer k == 0

/-- The entry in which the loop puts a record, if it stops at it. -/
def entryFor (buffer : Image) (p : PartitionInfo) : Option Nat :=
  if p.bIfBackup && isRecoveryType p then
    let k := entryOfRecord buffer p
    let k := if k < gptEntries then k else freeEntry buffer
    if k < gptEntries then some k else none
  else none

/-- The loop over the records behind the operating system: where it stops, and with which entry. -/
def recordLoop (buffer : Image) (header : OkrHeader) : Nat → Nat → Option (Nat × Nat)
  | 0, _ => none
  | count + 1, i =>
    match entryFor buffer (header.partition i) with
    | some k => some (i, k)
    | none => recordLoop buffer header count (i + 1)

/-- The record and the entry that `FixNewHDDPartitionTable` makes those of WinRE. -/
def chooseRecord (buffer : Image) (header : OkrHeader) : Option (Nat × Nat) :=
  let partcCount := (header.findRecord isOsRecord).getD 0
  recordLoop buffer header (header.partitionCount - (partcCount + 1)) (partcCount + 1)

/-- Record `i` and entry `k` become those of WinRE at the end of the disk. -/
def placeWinRE (buffer : Image) (n : NewDisk) (i k : Nat) : Image × NewDisk :=
  let first := low16 (sub64 (sub64 n.totalsector n.wireTotalSectors) 0x22)
  let buffer := putWinRE buffer k first (low256 (sub64 n.totalsector 0x22))
  (clearFrom buffer (k + 1),
    { n with
      header := n.header.setBootBegin i first
      disk := clearSector first n.disk
      moved := some (i, k) })

/-- `FixNewHDDPartitionTable`: WinRE goes to the end of the disk. -/
def fixNewHDDPartitionTable (fw : Firmware) (n : NewDisk) : NewDisk :=
  if isGPT n.disk then
    let buffer := readGpt n.disk fw.heap
    if isEfiPart buffer then
      let buffer := put 4 buffer 0x10 0
      let placed :=
        match chooseRecord buffer n.header with
        | none => (buffer, n)
        | some chosen => placeWinRE buffer n chosen.1 chosen.2
      { placed.2 with
        disk := writeGptCopies fw.crc32 n.totalsector (sealGpt fw.crc32 placed.1) placed.2.disk }
    else n
  else n

/-- The first function of the new-disk path: with or without a data partition in the image. -/
def fixFirst (fw : Firmware) (stack : Stack) (bootBegin totalSector : Nat) (n : NewDisk) : NewDisk :=
  let n := getWirePartSector stack (isFixNewHddWay stack n)
  if n.isNoDataPartFlag then fixNoDataPartTable fw bootBegin totalSector n
  else fixNewHDD fw bootBegin totalSector n

/-- The new-disk path of `Recover`. -/
def newDiskPath (fw : Firmware) (stack : Stack) (bootBegin totalSector : Nat) (n : NewDisk) : NewDisk :=
  let n := fixFirst fw stack bootBegin totalSector n.start
  if ¬ n.isNoDataPartFlag ∧ n.winREState ≠ 0 then fixNewHDDPartitionTable fw n else n

/-- A disk that is no disk of the image's machine. -/
def NEW_FOUND_DISK : Nat := 2

/-- What `Recover` goes by: how the restore was started, and what its disk is. -/
structure RestoreMode where
  comefromnewhddface : Bool
  bForceRestorePartition : Bool
  destdisktype : Nat
  olddisk : Nat

/-- The part of `Recover` that works the size of the disk into the restored table. -/
def fixDisk (fw : Firmware) (stack : Stack) (mode : RestoreMode) (bootBegin totalSector : Nat)
    (n : NewDisk) : NewDisk :=
  if ¬ mode.comefromnewhddface ∧ mode.bForceRestorePartition then n.start
  else
    let n :=
      if mode.destdisktype = NEW_FOUND_DISK ∧ mode.comefromnewhddface then
        newDiskPath fw stack bootBegin totalSector n
      else n.start
    -- A disk whose table changed keeps the state and the size that an earlier restore set.
    if ¬ mode.comefromnewhddface ∧ mode.olddisk = 2 then fixNewHDD fw bootBegin totalSector n else n

/-- The number `FixSmallDiskCSize` writes into the boot sector of the operating system. -/
def smallDiskSectors (totalsector bootBegin : Nat) : Nat :=
  u64 (sub64 (low256 totalsector) bootBegin + 1) &&& 0xffffffffffffffc0

/-- `FixSmallDiskCSize`. -/
def fixSmallDiskCSize (bootBegin totalSector : Nat) (n : NewDisk) : NewDisk :=
  if bootBegin = 0 ∨ totalSector = 0 then n
  else
    let buffer := diskRead n.disk bootBegin 1 fun _ => 0
    let buffer := put 8 buffer 0x28 (smallDiskSectors n.totalsector bootBegin)
    { n with disk := diskWrite n.disk bootBegin 1 buffer }

end Okr
