import Okr.Proofs.RightRecord

/-! The table an MBR disk is left with when its system is restored to a disk of another size. -/

namespace Okr

open Slots

/-- Fields of an entry of a boot record. -/
def mbrStart (disk : Image) (j : Nat) : Nat := le32 disk (0x1c6 + j * 16)
def mbrLength (disk : Image) (j : Nat) : Nat := le32 disk (0x1ca + j * 16)

/-- The sectors of an entry; an entry without sectors is empty. -/
def mbrSlot (disk : Image) (j : Nat) : Slot where
  used := 0 < mbrLength disk j
  first := mbrStart disk j
  last := mbrStart disk j + mbrLength disk j - 1

/--
A disk to be rewritten, with the entry of the system's partition in its boot record.

The entries before it are disjoint, and begin and end before the partition.
-/
structure SystemMbr extends NewDisk where
  bootBegin : Nat
  totalSector : Nat
  index : Nat
  word : totalsector < 2 ^ 64
  mbr : isGPT disk = false
  signature : le16 disk 0x1fe = 0xaa55
  bounded : index < 4
  start : mbrStart disk index = bootBegin
  length : mbrLength disk index = totalSector
  begins : 0 < bootBegin
  holds : 0 < totalSector
  precede : ∀ j < index, mbrStart disk j < bootBegin
  earlier : WellFormed 0 (bootBegin - 1) index (mbrSlot disk)

/-- The functions with an MBR branch. -/
inductive MbrWriter where
  | fixNewHDD
  | fixNoDataPartTable
deriving DecidableEq, Repr

/-- What a function leaves. -/
def MbrWriter.run (writer : MbrWriter) (fw : Firmware) (m : SystemMbr) : NewDisk :=
  match writer with
  | .fixNewHDD => Okr.fixNewHDD fw m.bootBegin m.totalSector m.toNewDisk
  | .fixNoDataPartTable => Okr.fixNoDataPartTable fw m.bootBegin m.totalSector m.toNewDisk

namespace SystemMbr

/-- A new entry comes behind the system: there is an entry left, and 200 MiB of room. -/
def MakesData (m : SystemMbr) : Prop :=
  m.bootBegin + m.totalSector + 0x64000 < m.totalsector ∧ m.index < 3

/-- The numbers that are stored are the ones that are meant, rounded down as the code rounds them. -/
def Untruncated (m : SystemMbr) (disk : Image) : Prop :=
  (m.MakesData →
    mbrStart disk (m.index + 1) = (m.bootBegin + m.totalSector + 0xff) / 256 * 256
      ∧ (mbrLength disk (m.index + 1) : Int)
        = ((m.totalsector : Int) - m.bootBegin - m.totalSector - 0xff) / 16 * 16)
  ∧ (¬m.MakesData →
    (mbrLength disk m.index : Int) = ((m.totalsector : Int) - m.bootBegin) / 16 * 16)

/-- The boot record is a well-formed one. -/
structure Rewritten (m : SystemMbr) (disk : Image) : Prop where
  wellFormed : WellFormed 0 (m.totalsector - 1) 4 (mbrSlot disk)
  behind : m.MakesData → m.bootBegin + m.totalSector ≤ mbrStart disk (m.index + 1)
  earlier : ∀ j < m.index, ∀ a < 16, disk (0x1be + 16 * j + a) = m.disk (0x1be + 16 * j + a)
  untruncated : m.Untruncated disk

/-- The disk is small enough for the fields of 32 bits, and not smaller than where the system begins. -/
def Fits (m : SystemMbr) : Prop :=
  (m.MakesData →
    m.bootBegin + m.totalSector + 0xff < 2 ^ 32
      ∧ m.totalsector - m.bootBegin - m.totalSector - 0xff < 2 ^ 32)
  ∧ (¬m.MakesData → m.bootBegin ≤ m.totalsector ∧ m.totalsector - m.bootBegin < 2 ^ 32)

variable (m : SystemMbr)

/-- The fields of the system's entry have 32 bits. -/
theorem narrow : m.bootBegin < 2 ^ 32 ∧ m.totalSector < 2 ^ 32 := by
  rw [← m.start, ← m.length]
  exact ⟨le32_lt _ _, le32_lt _ _⟩

/-- The search stops at the entry of the system. -/
theorem mbrStarting_index (buffer : Image) (same : ∀ a < 512, buffer a = m.disk a) :
    mbrStarting buffer m.bootBegin = m.index := by
  -- The entries before the system begin at smaller sectors.
  have fields : ∀ j < 4, le32 buffer (0x1c6 + j * 16) = mbrStart m.disk j := by
    intro j inside
    apply le32_congr
    intro a below
    exact same _ (by omega)
  have narrow := u32_eq m.narrow.1
  have bounded := m.bounded
  refine findIdx_range_eq bounded ?_ fun j before => ?_
  · rw [fields _ bounded, m.start, narrow]
    exact beq_self_eq_true _
  · have less := m.precede j before
    rw [fields j (by omega), narrow]
    exact beq_eq_false_iff_ne.mpr (Nat.ne_of_lt less)

end SystemMbr

/-- The first sector as it is read. -/
theorem bootRecord_read (disk : Image) {a : Nat} (below : a < 512) :
    diskRead disk 0 1 (fun _ => 0) a = disk a := by
  rw [diskRead, if_pos (by simp only [SECTOR_SIZE]; omega), Nat.zero_mul, Nat.zero_add]

/-- The first sector as it is written. -/
theorem bootRecord_write (disk buffer : Image) {a : Nat} (below : a < 512) :
    diskWrite disk 0 1 buffer a = buffer a := by
  rw [diskWrite, if_pos (by simp only [SECTOR_SIZE]; omega), Nat.zero_mul, Nat.sub_zero]

/-- The address of the sector that is rounded down to 256. -/
theorem and_low24 (n : Nat) : n &&& 0xffffff00 = n % 2 ^ 32 / 256 * 256 := by
  rw [@and_narrow 32 n _ (by decide)]
  exact and_high 32 8 (by decide) (Nat.mod_lt _ (by decide))

/-- The boot record with a new entry at a place, and nothing behind it. -/
def withData (buffer : Image) (i begin_ size : Nat) : Image :=
  zeroFill (put 4 (put 4 (putBytes buffer (0x1be + 16 * i) [0, 0xfe, 0xff, 0xff, 7, 0xfe, 0xff, 0xff])
    (0x1be + 16 * i + 8) begin_) (0x1be + 16 * i + 12) size) (0x1be + 16 * i + 16) 0x1fe

/-- The boot record with another length of an entry, and nothing behind it. -/
def withLength (buffer : Image) (i size : Nat) : Image :=
  zeroFill (put 4 buffer (0x1ca + i * 16) size) (0x1be + i * 16 + 16) 0x1fe

variable {m : SystemMbr}

/-- The new entry of a disk with room: the rounded end of the system, and what is left of the disk. -/
def SystemMbr.dataBegin (m : SystemMbr) : Nat := (m.bootBegin + m.totalSector + 0xff) % 2 ^ 32 / 256 * 256
def SystemMbr.dataSize (m : SystemMbr) : Nat :=
  (m.totalsector - m.bootBegin - m.totalSector - 0xff) % 2 ^ 32 / 16 * 16

/-- The length of the system's entry on a disk without room. -/
def SystemMbr.systemSize (m : SystemMbr) : Nat :=
  (m.totalsector + 2 ^ 64 - m.bootBegin) % 2 ^ 64 % 2 ^ 32 / 16 * 16

/-- Both functions come to their MBR branch. -/
theorem mbrWriter_fixMbr (writer : MbrWriter) (fw : Firmware) :
    writer.run fw m = (fixMbr m.bootBegin m.totalSector m.toNewDisk).getD m.toNewDisk := by
  -- Neither function returns in front of it: the system has a place, and the disk is no GPT disk.
  have placed : ¬(m.bootBegin = 0 ∨ m.totalSector = 0) := by
    have begins := m.begins
    have holds := m.holds
    omega
  cases writer with
  | fixNewHDD =>
    show Okr.fixNewHDD fw m.bootBegin m.totalSector m.toNewDisk = _
    rw [fixNewHDD, if_neg placed, m.mbr, if_neg Bool.noConfusion]
  | fixNoDataPartTable =>
    show Okr.fixNoDataPartTable fw m.bootBegin m.totalSector m.toNewDisk = _
    rw [fixNoDataPartTable, if_neg placed, m.mbr, if_neg Bool.noConfusion]

/-- The room is looked at in 64 bits, which the sum does not leave. -/
theorem makesData_iff :
    m.MakesData ↔ m.totalsector > u64 (0x64000 + (m.bootBegin + m.totalSector)) ∧ m.index < 3 := by
  have narrow := m.narrow
  rw [SystemMbr.MakesData, u64_eq (by omega)]
  omega

/-- A byte of the boot record comes from the same byte of the old one, if it is an old one. -/
theorem withData_congr {buffer buffer' : Image} {i begin_ size a : Nat} (same : buffer a = buffer' a) :
    withData buffer i begin_ size a = withData buffer' i begin_ size a := by
  simp only [withData, zeroFill, put, putBytes, same]

/-- The same with another length. -/
theorem withLength_congr {buffer buffer' : Image} {i size a : Nat} (same : buffer a = buffer' a) :
    withLength buffer i size a = withLength buffer' i size a := by
  simp only [withLength, zeroFill, put, same]

/-- The numbers the branch stores. -/
theorem stored_numbers :
    u32 (u64 (m.bootBegin + m.totalSector + 0xff) &&& 0xffffff00) = m.dataBegin
      ∧ (m.MakesData → u32 (sub64 (sub64 (sub64 m.totalsector m.bootBegin) m.totalSector) 0xff &&& 0xfffffff0)
          = m.dataSize)
      ∧ u32 (sub64 m.totalsector m.bootBegin &&& 0xfffffff0) = m.systemSize := by
  have narrow := m.narrow
  have word := m.word
  refine ⟨?_, fun room => ?_, ?_⟩
  · rw [and_low24, u64_eq (by omega), SystemMbr.dataBegin]
    exact u32_eq (by omega)
  · -- Nothing wraps below zero where there is room.
    have enough := room.1
    have first : sub64 m.totalsector m.bootBegin = m.totalsector - m.bootBegin :=
      sub64_eq (by omega) word
    have second : sub64 (m.totalsector - m.bootBegin) m.totalSector
        = m.totalsector - m.bootBegin - m.totalSector := sub64_eq (by omega) (by omega)
    have third : sub64 (m.totalsector - m.bootBegin - m.totalSector) 0xff
        = m.totalsector - m.bootBegin - m.totalSector - 0xff := sub64_eq (by omega) (by omega)
    rw [and_low32, first, second, third, SystemMbr.dataSize]
    exact u32_eq (by omega)
  · have small : m.bootBegin % 2 ^ 64 = m.bootBegin := Nat.mod_eq_of_lt (by omega)
    rw [and_low32, sub64, small, SystemMbr.systemSize]
    exact u32_eq (by omega)

/-- The boot record the branch leaves. -/
theorem mbrWriter_run (writer : MbrWriter) (fw : Firmware) {a : Nat} (below : a < 512) :
    (m.MakesData →
      (writer.run fw m).disk a = withData m.disk (m.index + 1) m.dataBegin m.dataSize a)
    ∧ (¬m.MakesData → (writer.run fw m).disk a = withLength m.disk m.index m.systemSize a) := by
  have read : ∀ a < 512, diskRead m.disk 0 1 (fun _ => 0) a = m.disk a :=
    fun a below => bootRecord_read m.disk below
  -- The buffer has the first sector, so all numbers are those of the disk.
  obtain ⟨begins, size, length⟩ := @stored_numbers m
  rw [mbrWriter_fixMbr, fixMbr]
  dsimp only
  generalize diskRead m.disk 0 1 (fun _ => 0) = buffer at read ⊢
  have found : (List.range 4).findIdx (fun i => le32 buffer (0x1c6 + i * 16) == u32 m.bootBegin)
      = m.index := m.mbrStarting_index buffer read
  have signed : le16 buffer 0x1fe = 0xaa55 := by
    rw [← m.signature]
    exact le16_congr fun a below => read _ (by omega)
  have known : ¬(le16 buffer 0x1fe ≠ 0xaa55 ∨ m.index = 4) := by
    have bounded := m.bounded
    omega
  rw [found, if_neg known]
  constructor
  · intro room
    rw [if_pos (makesData_iff.mp room), begins, size room, Option.getD_some]
    exact (bootRecord_write _ _ below).trans (withData_congr (read a below))
  · intro room
    rw [if_neg fun enough => room (makesData_iff.mpr enough), length, Option.getD_some]
    exact (bootRecord_write _ _ below).trans (withLength_congr (read a below))

/-! ### The entries of the new boot record -/

/-- Nothing before a new entry is changed. -/
theorem withData_before {buffer : Image} {i begin_ size a : Nat} (below : a < 0x1be + 16 * i) :
    withData buffer i begin_ size a = buffer a := by
  rw [withData, zeroFill_other (by omega), put_other (by omega), put_other (by omega),
    putBytes_other (by omega)]

/-- Nothing before a changed length is changed. -/
theorem withLength_before {buffer : Image} {i size a : Nat} (below : a < 0x1ca + i * 16) :
    withLength buffer i size a = buffer a := by
  rw [withLength, zeroFill_other (by omega), put_other (by omega)]

/-- Numbers whose bytes are all zero are zero. -/
theorem le32_zero {buffer : Image} {i : Nat} (zero : ∀ a < 4, buffer (i + a) = 0) : le32 buffer i = 0 := by
  have same : le32 buffer i = le32 (fun _ => 0) 0 := le32_congr fun a below => zero a below
  rw [same]
  rfl

/-- A number is read back where the bytes are the stored ones. -/
theorem le32_stored {buffer inner : Image} {i number : Nat} (i' : Nat) (narrow : number < 2 ^ 32)
    (same : ∀ a < 4, buffer (i + a) = put 4 inner i' number (i' + a)) : le32 buffer i = number :=
  (le32_congr same).trans (le32_put narrow)

/-- The fields of an entry before a new one, of the new one, and of those behind. -/
theorem withData_fields {buffer : Image} {i begin_ size : Nat} (inside : i < 4)
    (begins : begin_ < 2 ^ 32) (sized : size < 2 ^ 32) :
    (∀ j < i, mbrStart (withData buffer i begin_ size) j = mbrStart buffer j
        ∧ mbrLength (withData buffer i begin_ size) j = mbrLength buffer j)
      ∧ mbrStart (withData buffer i begin_ size) i = begin_
      ∧ mbrLength (withData buffer i begin_ size) i = size
      ∧ ∀ j, i < j → j < 4 → mbrLength (withData buffer i begin_ size) j = 0 := by
  -- Every field is read back from the last function that writes to it.
  refine ⟨fun j front => ⟨?_, ?_⟩, ?_, ?_, fun j behind last => ?_⟩
  · exact le32_congr fun a below => withData_before (by omega)
  · exact le32_congr fun a below => withData_before (by omega)
  · apply le32_stored (0x1be + 16 * i + 8) begins
    intro a below
    have address : 0x1c6 + i * 16 + a = 0x1be + 16 * i + 8 + a := by omega
    rw [address, withData, zeroFill_other (by omega), put_other (by omega)]
  · apply le32_stored (0x1be + 16 * i + 12) sized
    intro a below
    have address : 0x1ca + i * 16 + a = 0x1be + 16 * i + 12 + a := by omega
    rw [address, withData, zeroFill_other (by omega)]
  · -- The entries behind are cleared.
    exact le32_zero fun a below => zeroFill_inside (by omega)

/-- The fields of the entries before one whose length is changed, of that one, and of those behind. -/
theorem withLength_fields {buffer : Image} {i size : Nat} (inside : i < 4) (sized : size < 2 ^ 32) :
    (∀ j < i, mbrStart (withLength buffer i size) j = mbrStart buffer j
        ∧ mbrLength (withLength buffer i size) j = mbrLength buffer j)
      ∧ mbrStart (withLength buffer i size) i = mbrStart buffer i
      ∧ mbrLength (withLength buffer i size) i = size
      ∧ ∀ j, i < j → j < 4 → mbrLength (withLength buffer i size) j = 0 := by
  refine ⟨fun j front => ⟨?_, ?_⟩, ?_, ?_, fun j behind last => ?_⟩
  · exact le32_congr fun a below => withLength_before (by omega)
  · exact le32_congr fun a below => withLength_before (by omega)
  · exact le32_congr fun a below => withLength_before (by omega)
  · apply le32_stored (0x1ca + i * 16) sized
    intro a below
    rw [withLength, zeroFill_other (by omega)]
  · -- The entries behind are cleared.
    exact le32_zero fun a below => zeroFill_inside (by omega)

/-- Boot records with the same first sector have the same entries. -/
theorem mbrFields_congr {disk disk' : Image} (same : ∀ a < 512, disk a = disk' a) {j : Nat}
    (inside : j < 4) : mbrStart disk j = mbrStart disk' j ∧ mbrLength disk j = mbrLength disk' j :=
  ⟨le32_congr fun a below => same _ (by omega), le32_congr fun a below => same _ (by omega)⟩

/-- An entry is decided by its two fields. -/
theorem mbrSlot_eq {disk disk' : Image} {j : Nat} (start : mbrStart disk j = mbrStart disk' j)
    (length : mbrLength disk j = mbrLength disk' j) : mbrSlot disk j = mbrSlot disk' j := by
  rw [mbrSlot, mbrSlot, start, length]

/-- The entries whose fields are kept are the old ones. -/
theorem slots_front {disk new old : Image} {n : Nat} (left : ∀ a < 512, disk a = new a) (most : n ≤ 4)
    (kept : ∀ j < n, mbrStart new j = mbrStart old j ∧ mbrLength new j = mbrLength old j) :
    ∀ j < n, mbrSlot disk j = mbrSlot old j := by
  intro j front
  obtain ⟨start, length⟩ := mbrFields_congr left (show j < 4 by omega)
  exact mbrSlot_eq (start.trans (kept j front).1) (length.trans (kept j front).2)

/-- The entries whose lengths are cleared are free. -/
theorem slots_free {disk new : Image} {n : Nat} (left : ∀ a < 512, disk a = new a)
    (cleared : ∀ j, n < j → j < 4 → mbrLength new j = 0) :
    ∀ j, n + 1 ≤ j → j < 4 → ¬(mbrSlot disk j).used := by
  intro j behind inside
  have none : mbrLength disk j = 0 := (mbrFields_congr left inside).2.trans (cleared j behind inside)
  show ¬0 < mbrLength disk j
  omega

/-- With the same entries in front of it, the system's entry still comes behind them. -/
theorem front_inOrder {disk : Image} (placed : m.bootBegin ≤ m.totalsector)
    (same : ∀ j < m.index, mbrSlot disk j = mbrSlot m.disk j) :
    WellFormed 0 (m.totalsector - 1) m.index (mbrSlot disk)
      ∧ Before m.bootBegin m.index (mbrSlot disk) := by
  have front : WellFormed 0 (m.bootBegin - 1) m.index (mbrSlot disk) := m.earlier.congr same
  refine ⟨front.widen (Nat.le_refl _) (by omega), fun j before used => ?_⟩
  have fits := (front.fits j before used).below
  have begins := m.begins
  omega

/-- The boot record with a new entry: in order, unless one of the numbers is truncated. -/
theorem data_rewritten {disk : Image} (room : m.MakesData)
    (left : ∀ a < 512, disk a = withData m.disk (m.index + 1) m.dataBegin m.dataSize a) :
    m.Rewritten disk ↔ m.Fits := by
  have bounded := room.2
  have enough := room.1
  have begins : m.dataBegin < 2 ^ 32 := by rw [SystemMbr.dataBegin]; omega
  have sized : m.dataSize < 2 ^ 32 := by rw [SystemMbr.dataSize]; omega
  obtain ⟨before, start, length, behind⟩ :=
    @withData_fields m.disk (m.index + 1) _ _ (by omega) begins sized
  have fields := fun {j} (inside : j < 4) => mbrFields_congr left inside
  have newStart : mbrStart disk (m.index + 1) = m.dataBegin := (fields (by omega)).1.trans start
  have newLength : mbrLength disk (m.index + 1) = m.dataSize := (fields (by omega)).2.trans length
  constructor
  · -- A number that does not fit would have been stored as a smaller one.
    intro rewritten
    obtain ⟨startTold, lengthTold⟩ := rewritten.untruncated.1 room
    rw [newStart, SystemMbr.dataBegin] at startTold
    rw [newLength, SystemMbr.dataSize] at lengthTold
    exact ⟨fun _ => ⟨by omega, by omega⟩, fun none => absurd room none⟩
  · intro fits
    obtain ⟨startFits, lengthFits⟩ := fits.1 room
    rw [SystemMbr.dataBegin, Nat.mod_eq_of_lt startFits] at newStart
    rw [SystemMbr.dataSize, Nat.mod_eq_of_lt lengthFits] at newLength
    -- Up to the system the entries are the old ones; the new one comes behind, and nothing behind it.
    have old := slots_front left (by omega) before
    have system : (mbrSlot disk m.index).first = m.bootBegin
        ∧ (mbrSlot disk m.index).last = m.bootBegin + m.totalSector - 1 := by
      rw [old _ (by omega), mbrSlot, m.start, m.length]
      exact ⟨rfl, rfl⟩
    have data : (mbrSlot disk (m.index + 1)).first = (m.bootBegin + m.totalSector + 0xff) / 256 * 256
        ∧ (mbrSlot disk (m.index + 1)).last = (m.bootBegin + m.totalSector + 0xff) / 256 * 256
          + (m.totalsector - m.bootBegin - m.totalSector - 0xff) / 16 * 16 - 1 := by
      rw [mbrSlot, newStart, newLength]
      exact ⟨rfl, rfl⟩
    have holds := m.holds
    have free := slots_free left behind
    obtain ⟨front, ends⟩ := front_inOrder (m := m) (by omega) fun j less => old j (by omega)
    have withSystem : WellFormed 0 (m.totalsector - 1) (m.index + 1) (mbrSlot disk) := by
      refine front.succ ends (fun _ => Nat.le_of_eq system.1.symm) fun _ => ?_
      exact ⟨by omega, by omega, by omega⟩
    have systemEnds : Before (m.bootBegin + m.totalSector) (m.index + 1) (mbrSlot disk) :=
      ends.succ (by omega) fun _ => by omega
    have withNew : WellFormed 0 (m.totalsector - 1) (m.index + 2) (mbrSlot disk) := by
      refine withSystem.succ systemEnds (fun _ => by omega) fun _ => ?_
      exact ⟨by omega, by omega, by omega⟩
    exact {
      wellFormed := (wellFormed_trim (by omega) free).mpr withNew
      behind := fun _ => by omega
      earlier := fun j less a below => (left _ (by omega)).trans (withData_before (by omega))
      untruncated := ⟨fun _ => ⟨newStart, by omega⟩, fun none => absurd room none⟩ }

/-- The boot record with another length of the system's entry. -/
theorem length_rewritten {disk : Image} (room : ¬m.MakesData)
    (left : ∀ a < 512, disk a = withLength m.disk m.index m.systemSize a) :
    m.Rewritten disk ↔ m.Fits := by
  have bounded := m.bounded
  have word := m.word
  have narrow := m.narrow
  have sized : m.systemSize < 2 ^ 32 := by rw [SystemMbr.systemSize]; omega
  obtain ⟨before, start, length, behind⟩ := @withLength_fields m.disk _ _ bounded sized
  have fields := fun {j} (inside : j < 4) => mbrFields_congr left inside
  have newStart : mbrStart disk m.index = m.bootBegin :=
    ((fields bounded).1.trans start).trans m.start
  have newLength : mbrLength disk m.index = m.systemSize := (fields bounded).2.trans length
  constructor
  · -- A difference that wraps or does not fit would have been stored as another number.
    intro rewritten
    have lengthTold := rewritten.untruncated.2 room
    rw [newLength, SystemMbr.systemSize] at lengthTold
    exact ⟨fun some => absurd some room, fun _ => ⟨by omega, by omega⟩⟩
  · intro fits
    -- The system keeps its start and reaches to the end of the disk.
    obtain ⟨placed, lengthFits⟩ := fits.2 room
    have size : m.systemSize = (m.totalsector - m.bootBegin) / 16 * 16 := by
      rw [SystemMbr.systemSize]
      omega
    rw [size] at newLength
    have old := slots_front left (by omega) before
    have free := slots_free left behind
    obtain ⟨front, ends⟩ := front_inOrder (m := m) placed old
    have system : (mbrSlot disk m.index).first = m.bootBegin
        ∧ (mbrSlot disk m.index).last = m.bootBegin + (m.totalsector - m.bootBegin) / 16 * 16 - 1 := by
      rw [mbrSlot, newStart, newLength]
      exact ⟨rfl, rfl⟩
    have withSystem : WellFormed 0 (m.totalsector - 1) (m.index + 1) (mbrSlot disk) := by
      refine front.succ ends (fun _ => Nat.le_of_eq system.1.symm) fun used => ?_
      have some : 0 < mbrLength disk m.index := used
      exact ⟨by omega, by omega, by omega⟩
    exact {
      wellFormed := (wellFormed_trim (by omega) free).mpr withSystem
      behind := fun some => absurd some room
      earlier := fun j less a below => (left _ (by omega)).trans (withLength_before (by omega))
      untruncated := ⟨fun some => absurd some room, fun _ => by omega⟩ }

/-- The boot record is rewritten into a well-formed one exactly on a disk whose numbers fit. -/
theorem mbrRewrite_wellFormed_iff (writer : MbrWriter) (fw : Firmware) (m : SystemMbr) :
    m.Rewritten (writer.run fw m).disk ↔ m.Fits := by
  by_cases room : m.MakesData
  · exact data_rewritten room fun a below => (mbrWriter_run writer fw below).1 room
  · exact length_rewritten room fun a below => (mbrWriter_run writer fw below).2 room

/-- A disk of 4 TiB on which the system is the only entry, from sector 63 on. -/
def wideMbr : SystemMbr where
  disk := put 2 (put 4 (put 4 (fun _ => 0) 0x1c6 63) 0x1ca 2000000) 0x1fe 0xaa55
  totalsector := 2 ^ 33
  header := { partitionCount := 0, disksize := 0, partition := fun _ => {} }
  bootBegin := 63
  totalSector := 2000000
  index := 0
  word := by decide
  mbr := by decide +kernel
  signature := by decide +kernel
  bounded := by decide
  start := by decide +kernel
  length := by decide +kernel
  begins := by decide
  holds := by decide
  precede := fun j below => absurd below (Nat.not_lt_zero j)
  earlier := ⟨fun j below => absurd below (Nat.not_lt_zero j),
    fun j below => absurd below (Nat.not_lt_zero j)⟩

/-- There the length of the data entry loses its upper bits. -/
theorem mbrRewrite_truncates :
    ¬ ∀ (writer : MbrWriter) (fw : Firmware) (m : SystemMbr), m.Rewritten (writer.run fw m).disk := by
  intro always
  have room : wideMbr.MakesData := ⟨by decide, by decide⟩
  have fits := (data_rewritten room fun a below =>
    (mbrWriter_run .fixNewHDD sampleFirmware below).1 room).mp (always .fixNewHDD sampleFirmware wideMbr)
  have narrow : 2 ^ 33 - 63 - 2000000 - 0xff < 2 ^ 32 := (fits.1 room).2
  exact absurd narrow (by decide)

end Okr
