import Mathlib.Data.Finset.Card
import Mathlib.Data.List.GetD
import Okr.Restore.Serials

/-! The disks `FindNewHdd` recognises, for a record that `AddAllHddSn` and `updatepartcsize` wrote. -/

namespace Okr

/-! ### Entries in a buffer -/

/-- A serial number that was stored is read back. -/
theorem serialAt_putSerial (buffer : Image) (i : Nat) (sn : Serial) :
    serialAt (putSerial buffer i sn) i = sn := by
  funext a
  have below := a.isLt
  rw [serialAt, putSerial, putBytes, if_pos (by simp), Nat.add_sub_cancel_left]
  rw [List.getD_eq_getElem _ _ (by simp), List.getElem_ofFn]

/-- Storing a serial number leaves the bytes around it. -/
theorem putSerial_other {buffer : Image} {i a : Nat} {sn : Serial} (apart : a < i ∨ i + 20 ≤ a) :
    putSerial buffer i sn a = buffer a := by
  apply putBytes_other
  simpa using apart

/-- An entry is decided by its twenty bytes. -/
theorem serialAt_congr {buffer buffer' : Image} {i : Nat}
    (same : ∀ a < 20, buffer (i + a) = buffer' (i + a)) : serialAt buffer i = serialAt buffer' i := by
  funext a
  exact same a a.isLt

/-- A disk that `AddAllHddSn` records besides the one backed up. -/
def isOther (g : Globals) (b : Nat) (i : Nat) : Bool := i ≠ b && sampled (g.disk i).disksn

/-- The serial numbers of the other disks among some slots. -/
def othersAmong (g : Globals) (b : Nat) (slots : List Nat) : List Serial :=
  (slots.filter (isOther g b)).map fun i => (g.disk i).disksn

/-- The loop stores the other disks one behind the other, as long as there is room. -/
theorem addHddSn_fold (g : Globals) (b : Nat) (slots : List Nat) (s : SnBuffer) :
    (∀ k, ∀ sn, ((othersAmong g b slots).take (5 - s.totaldisknum))[k]? = some sn →
      serialAt (slots.foldl (addHddSn g (some b)) s).buffer (12 + 20 * (s.totaldisknum + 1 + k)) = sn)
    ∧ ∀ a < 12 + 20 * (s.totaldisknum + 1),
      (slots.foldl (addHddSn g (some b)) s).buffer a = s.buffer a := by
  induction slots generalizing s with
  | nil => simp [othersAmong]
  | cons i slots ih =>
    rw [List.foldl_cons]
    by_cases other : isOther g b i
    · have parts : i ≠ b ∧ sampled (g.disk i).disksn := by simpa [isOther] using other
      have list : othersAmong g b (i :: slots) = (g.disk i).disksn :: othersAmong g b slots := by
        simp [othersAmong, other]
      by_cases room : s.totaldisknum < 5
      · -- The entry is stored, and the rest of the loop stands behind it.
        have step : addHddSn g (some b) s i
            = ⟨putSerial s.buffer (12 + 20 * (s.totaldisknum + 1)) (g.disk i).disksn,
              s.totaldisknum + 1⟩ := by
          rw [addHddSn, if_pos]
          exact ⟨by simpa using parts.1, room, parts.2⟩
        have count : 5 - s.totaldisknum = 5 - (s.totaldisknum + 1) + 1 := by omega
        obtain ⟨entries, front⟩ := ih (addHddSn g (some b) s i)
        rw [step] at entries front ⊢
        constructor
        · intro k sn here
          rw [list, count, List.take_succ_cons] at here
          cases k with
          | zero =>
            rw [List.getElem?_cons_zero, Option.some_inj] at here
            rw [Nat.add_zero, ← here]
            refine Eq.trans (serialAt_congr fun a below => front _ ?_) (serialAt_putSerial _ _ _)
            dsimp only
            omega
          | succ k =>
            have read := entries k sn (by simpa using here)
            rw [show s.totaldisknum + 1 + (k + 1) = s.totaldisknum + 1 + 1 + k from by omega]
            exact read
        · intro a below
          rw [front a (by dsimp only; omega)]
          exact putSerial_other (Or.inl below)
      · -- No room is left: nothing is stored any more.
        have step : addHddSn g (some b) s i = s := by
          rw [addHddSn, if_neg]
          intro all
          exact room all.2.1
        obtain ⟨-, front⟩ := ih s
        rw [step]
        refine ⟨?_, front⟩
        intro k sn here
        rw [show 5 - s.totaldisknum = 0 from by omega, List.take_zero] at here
        cases here
    · have step : addHddSn g (some b) s i = s := by
        rw [addHddSn, if_neg]
        rintro ⟨apart, -, sample⟩
        exact other (by simpa [isOther] using ⟨by simpa using apart, sample⟩)
      have list : othersAmong g b (i :: slots) = othersAmong g b slots := by
        simp [othersAmong, other]
      rw [step, list]
      exact ih s

/-! ### The record as a list -/

/-- The other disks of the machine, in the order of their slots. -/
def others (g : Globals) (b : Nat) : List Nat := (List.range MAX_DISK_NUM).filter (isOther g b)

/-- How many disks the record announces. -/
def announced (g : Globals) : Nat :=
  min ((List.range MAX_DISK_NUM).countP fun i => sampled (g.disk i).disksn) MAX_SUPPORED_HDD_NO

/-- The front of the record: the mark, the count, and the entry of the backed-up disk. -/
def recordFront (g : Globals) (b : Nat) (desc : Image) : Image :=
  putSerial (putBytes desc 0 [0x44, 0x53, 0x4E, UInt8.ofNat (announced g)]) 12
    (backupSerial (g.disk b))

/-- The record as `Backup` leaves it in the header. -/
def diskRecord (g : Globals) (b : Nat) (desc : Image) (size : Nat) : Image :=
  updatepartcsize (addAllHddSn g (some b) desc) size

variable {g : Globals} {b size : Nat} {desc : Image}

/-- The loop over the slots starts behind the front of the record. -/
theorem addAllHddSn_eq (valid : b < MAX_DISK_NUM) :
    addAllHddSn g (some b) desc
      = ((List.range MAX_DISK_NUM).foldl (addHddSn g (some b)) ⟨recordFront g b desc, 0⟩).buffer := by
  simp only [addAllHddSn, if_pos valid]
  rfl

/-- Six entries at most are announced. -/
theorem announced_le (g : Globals) : announced g ≤ 6 := Nat.min_le_right _ _

/-- The front of the record, up to the first entry. -/
theorem diskRecord_front (valid : b < MAX_DISK_NUM) {a : Nat} (front : a < 4) :
    diskRecord g b desc size a
      = putBytes desc 0 [0x44, 0x53, 0x4E, UInt8.ofNat (announced g)] a := by
  rw [diskRecord, updatepartcsize, put_other (Or.inl front), addAllHddSn_eq valid]
  rw [(addHddSn_fold g b _ _).2 a (by dsimp only; omega)]
  exact putSerial_other (Or.inl (by omega))

/-- The size stands between the count and the entries, which it leaves alone. -/
theorem serialAt_record {i : Nat} (behind : 12 ≤ i) :
    serialAt (diskRecord g b desc size) i = serialAt (addAllHddSn g (some b) desc) i :=
  serialAt_congr fun _ _ => put_other (Or.inr (by omega))

/-- The first entry is the backed-up disk's. -/
theorem diskRecord_first (valid : b < MAX_DISK_NUM) :
    serialAt (diskRecord g b desc size) 12 = backupSerial (g.disk b) := by
  rw [serialAt_record (Nat.le_refl _), addAllHddSn_eq valid]
  have same : ∀ a < 20, _ = recordFront g b desc (12 + a) := fun a below =>
    (addHddSn_fold g b (List.range MAX_DISK_NUM) ⟨recordFront g b desc, 0⟩).2 _
      (by dsimp only; omega)
  rw [serialAt_congr same]
  exact serialAt_putSerial _ 12 _

/-- The entries behind it are those of the other disks, five at most. -/
theorem diskRecord_other (valid : b < MAX_DISK_NUM) {k i : Nat} (room : k < 5)
    (here : (others g b)[k]? = some i) :
    serialAt (diskRecord g b desc size) (12 + 20 * (k + 1)) = (g.disk i).disksn := by
  rw [serialAt_record (by omega), addAllHddSn_eq valid]
  have entries := (addHddSn_fold g b (List.range MAX_DISK_NUM) ⟨recordFront g b desc, 0⟩).1 k
    (g.disk i).disksn
  rw [show 0 + 1 + k = k + 1 from by omega] at entries
  apply entries
  rw [others] at here
  rw [List.getElem?_take_of_lt (by omega), othersAmong, List.getElem?_map, here]
  rfl

/-- The announced count is read back. -/
theorem diskcountOf_record (valid : b < MAX_DISK_NUM) :
    diskcountOf (diskRecord g b desc size) = announced g := by
  have few := announced_le g
  rw [diskcountOf, diskRecord_front valid (by decide)]
  have byte : putBytes desc 0 [0x44, 0x53, 0x4E, UInt8.ofNat (announced g)] 3
      = UInt8.ofNat (announced g) := rfl
  have value : (UInt8.ofNat (announced g)).toNat = announced g :=
    UInt8.toNat_ofNat_of_lt' (Nat.lt_of_le_of_lt few (by decide))
  rw [byte, value, char8_eq (by omega) (by omega), Int.toNat_natCast]

/-- The pointers lead to the entries as far as the count goes. -/
theorem temphddsnOf_record (stray : Nat → Serial) (valid : b < MAX_DISK_NUM) {i : Nat}
    (below : i < announced g) :
    temphddsnOf stray (diskRecord g b desc size) i
      = serialAt (diskRecord g b desc size) (12 + 20 * i) := by
  have few := announced_le g
  rw [temphddsnOf, diskcountOf_record valid, if_pos]
  exact ⟨below, Nat.lt_of_lt_of_le below few⟩

/-! ### What the record announces -/

/-- Only a disk with a serial number passes the test of the six bytes. -/
theorem ne_zero_of_sampled {sn : Serial} (sample : sampled sn = true) : sn ≠ Serial.zero := by
  rintro rfl
  exact absurd sample (by decide)

/-- Behind the last disk no slot passes it. -/
theorem lt_of_sampled {i : Nat} (sample : sampled (g.disk i).disksn = true) :
    i < g.disklist.length := by
  by_contra beyond
  have empty : g.disk i = {} := List.getD_eq_default _ _ (by omega)
  rw [empty] at sample
  exact absurd sample (by decide)

/-- The other disks are those that pass the test. -/
theorem mem_others (few : g.disklist.length ≤ MAX_SUPPORED_HDD_NO) {i : Nat} :
    i ∈ others g b ↔ i ≠ b ∧ sampled (g.disk i).disksn = true := by
  rw [others, List.mem_filter, List.mem_range, isOther, Bool.and_eq_true, decide_eq_true_iff]
  refine ⟨And.right, fun other => ⟨?_, other⟩⟩
  have inside := lt_of_sampled other.2
  exact Nat.lt_of_lt_of_le inside (Nat.le_trans few (by decide))

/-- They stand in the order of their slots. -/
theorem others_sorted (g : Globals) (b : Nat) : (others g b).Pairwise (· < ·) :=
  List.pairwise_lt_range.filter _

/-- Of six disks at most, five at most are others. -/
theorem length_others_le (few : g.disklist.length ≤ MAX_SUPPORED_HDD_NO)
    (valid : b < g.disklist.length) : (others g b).length ≤ 5 := by
  have nodup : (others g b).Nodup := (others_sorted g b).imp fun below => Nat.ne_of_lt below
  have slots : (others g b).toFinset ⊆ (Finset.range g.disklist.length).erase b := by
    intro i inside
    rw [List.mem_toFinset, mem_others few] at inside
    rw [Finset.mem_erase, Finset.mem_range]
    exact ⟨inside.1, lt_of_sampled inside.2⟩
  have card := Finset.card_le_card slots
  rw [List.toFinset_card_of_nodup nodup, Finset.card_erase_of_mem (Finset.mem_range.mpr valid),
    Finset.card_range] at card
  have six : MAX_SUPPORED_HDD_NO = 6 := rfl
  omega

/-- Setting one slot aside splits the count of the slots. -/
theorem countP_split (p : Nat → Bool) (b : Nat) {slots : List Nat} (nodup : slots.Nodup) :
    slots.countP p
      = (slots.filter fun i => i ≠ b && p i).length + if b ∈ slots ∧ p b then 1 else 0 := by
  induction slots with
  | nil => simp
  | cons i slots ih =>
    rw [List.nodup_cons] at nodup
    rw [List.countP_cons, ih nodup.2]
    by_cases same : i = b
    · -- The slot itself: it does not occur a second time.
      subst same
      simp [nodup.1]
    · have apart : b ≠ i := fun eq => same eq.symm
      by_cases holds : p i
      · simp [same, apart, holds]
        omega
      · simp [same, apart, holds]

/-- The count announces the others, and the backed-up disk only when it passes the test itself. -/
theorem announced_eq (few : g.disklist.length ≤ MAX_SUPPORED_HDD_NO)
    (valid : b < g.disklist.length) :
    announced g = (others g b).length + if sampled (g.disk b).disksn then 1 else 0 := by
  have five := length_others_le few valid
  have inside : b ∈ List.range MAX_DISK_NUM :=
    List.mem_range.mpr (Nat.lt_of_lt_of_le valid (Nat.le_trans few (by decide)))
  have split := @countP_split (fun i => sampled (g.disk i).disksn) b (List.range MAX_DISK_NUM)
    List.nodup_range
  have others : (List.range MAX_DISK_NUM).filter (fun i => i ≠ b && sampled (g.disk i).disksn)
      = others g b := rfl
  rw [announced, split, others, MAX_SUPPORED_HDD_NO]
  simp only [inside, true_and]
  split <;> omega

/-! ### The entries a disk is compared with -/

/-- The mark a disk gets from the entries it matches; a later entry overrules an earlier one. -/
def readMark (temphddsn : Nat → Serial) (disk : DiskInfo) (n : Nat) : Option DiskType :=
  if ∃ i < n, 0 < i ∧ temphddsn i = backupSerial disk then some .data
  else if 0 < n ∧ temphddsn 0 = backupSerial disk then some .sysdisk
  else if 0 < n ∧ disk.isRAIDDisk then some .raid
  else none

/-- What the loop over the entries has worked out after the first `n` of them. -/
structure Compared (temphddsn : Nat → Serial) (disk : DiskInfo) (n : Nat) (m : Marking) : Prop where
  number : m.tmpDisksn = if n = 0 then disk.disksn else backupSerial disk
  found : m.found = (readMark temphddsn disk n).isSome
  mark : ∀ mark, readMark temphddsn disk n = some mark → m.curdisktype = mark

/-- The first entry decides about the backed-up disk, and about a RAID disk. -/
theorem compared_first (temphddsn : Nat → Serial) (disk : DiskInfo) :
    Compared temphddsn disk 1 (compareEntry temphddsn disk ⟨disk.disksn, disk.curdisktype, false⟩ 0) := by
  have none : ¬∃ i < 1, 0 < i ∧ temphddsn i = backupSerial disk := by
    rintro ⟨i, below, positive, -⟩
    omega
  have mark : readMark temphddsn disk 1 = if temphddsn 0 = backupSerial disk then some .sysdisk
      else if disk.isRAIDDisk then some .raid else Option.none := by
    rw [readMark, if_neg none]
    simp only [Nat.zero_lt_one, true_and]
  cases raid : disk.isRAIDDisk with
  | false =>
    have own : backupSerial disk = disk.disksn := by rw [backupSerial, raid]; rfl
    rw [own] at mark
    by_cases same : disk.disksn = temphddsn 0
    · constructor <;> simp [compareEntry, raid, same, own, mark]
    · have apart : temphddsn 0 ≠ disk.disksn := fun eq => same eq.symm
      constructor <;> simp [compareEntry, raid, same, apart, own, mark]
  | true =>
    have own : backupSerial disk = disk.raidDisksn := by rw [backupSerial, raid]; rfl
    rw [own] at mark
    by_cases same : disk.raidDisksn = temphddsn 0
    · constructor <;> simp [compareEntry, raid, same, own, mark]
    · have apart : temphddsn 0 ≠ disk.raidDisksn := fun eq => same eq.symm
      constructor <;> simp [compareEntry, raid, same, apart, own, mark]

/-- A later entry marks the disk as a data disk, or leaves what was worked out. -/
theorem compared_next {temphddsn : Nat → Serial} {disk : DiskInfo} {n : Nat} {m : Marking}
    (positive : 0 < n) (before : Compared temphddsn disk n m) :
    Compared temphddsn disk (n + 1) (compareEntry temphddsn disk m n) := by
  have number : m.tmpDisksn = backupSerial disk := by
    rw [before.number, if_neg (by omega)]
  have late : ¬(n = 0 ∧ disk.isRAIDDisk = true) := fun both => by omega
  -- a serial which agrees marks the disk, and an earlier mark is the same one
  by_cases same : temphddsn n = backupSerial disk
  · have mark : readMark temphddsn disk (n + 1) = some .data := by
      rw [readMark, if_pos ⟨n, Nat.lt_succ_self n, positive, same⟩]
    have step : compareEntry temphddsn disk m n = { m with curdisktype := .data, found := true } := by
      rw [compareEntry, if_neg late]
      simp [number, same, Nat.ne_of_gt positive]
    rw [step]
    constructor <;> simp [mark, number]
  · have mark : readMark temphddsn disk (n + 1) = readMark temphddsn disk n := by
      have entries : (∃ i < n + 1, 0 < i ∧ temphddsn i = backupSerial disk)
          ↔ ∃ i < n, 0 < i ∧ temphddsn i = backupSerial disk := by
        constructor
        · rintro ⟨i, below, early, eq⟩
          refine ⟨i, ?_, early, eq⟩
          rcases Nat.lt_succ_iff_lt_or_eq.mp below with earlier | rfl
          · exact earlier
          · exact absurd eq same
        · rintro ⟨i, below, rest⟩
          exact ⟨i, by omega, rest⟩
      simp only [readMark, entries, Nat.zero_lt_succ, positive]
    have step : compareEntry temphddsn disk m n = m := by
      rw [compareEntry, if_neg late]
      simp [number, Ne.symm same]
    rw [step]
    refine ⟨?_, ?_, ?_⟩
    · rw [number, if_neg (by omega)]
    · rw [mark, before.found]
    · rw [mark]
      exact before.mark

/-- The loop over the entries works out the mark. -/
theorem compared_fold (temphddsn : Nat → Serial) (disk : DiskInfo) (n : Nat) :
    Compared temphddsn disk n
      ((List.range n).foldl (compareEntry temphddsn disk) ⟨disk.disksn, disk.curdisktype, false⟩) := by
  induction n with
  | zero => constructor <;> simp [readMark]
  | succ n ih =>
    rw [List.range_succ, List.foldl_append, List.foldl_cons, List.foldl_nil]
    cases n with
    | zero => exact compared_first temphddsn disk
    | succ n => exact compared_next (Nat.succ_pos n) ih

/-- A disk that has a serial number and is there. -/
def DiskInfo.Present (disk : DiskInfo) : Prop := disk.totalsector ≠ 0 ∧ disk.disksn ≠ Serial.zero

instance (disk : DiskInfo) : Decidable disk.Present :=
  inferInstanceAs (Decidable (disk.totalsector ≠ 0 ∧ disk.disksn ≠ Serial.zero))

/-- A disk that is there gets the mark of the entries, or is new. -/
theorem markOf_present {temphddsn : Nat → Serial} {n : Nat} {disk : DiskInfo}
    (present : disk.Present) :
    markOf temphddsn n disk = some ((readMark temphddsn disk n).getD .newFound) := by
  have skip : ¬(disk.totalsector = 0 ∨ checkIfSnZero disk.disksn = true) := by
    rw [checkIfSnZero_iff]
    exact fun either => either.elim present.1 present.2
  have compared := compared_fold temphddsn disk n
  rw [markOf, if_neg skip]
  dsimp only
  rw [compared.found]
  cases mark : readMark temphddsn disk n with
  | none => rfl
  | some mark' => simp [compared.mark _ mark]

/-! ### The disks that are recognised -/

/-- A machine as it is backed up: some plain disks, whose serial numbers tell them apart. -/
structure PlainMachine (g : Globals) : Prop where
  few : g.disklist.length ≤ MAX_SUPPORED_HDD_NO
  plain : ∀ i < g.disklist.length, (g.disk i).isRAIDDisk = false
  distinct : ∀ i < g.disklist.length, ∀ j < g.disklist.length, i ≠ j →
    (g.disk i).disksn ≠ Serial.zero → (g.disk i).disksn ≠ (g.disk j).disksn

/-- What the disk with a serial number was to the machine that was backed up. -/
def roleOf (g : Globals) (b : Nat) (sn : Serial) : DiskType :=
  if (g.disk b).disksn = sn then .sysdisk
  else if ∃ i < g.disklist.length, (g.disk i).disksn = sn then .data
  else .newFound

/-- Some disk passes the test of the six bytes. -/
def AnySampled (g : Globals) : Prop := ∃ i < g.disklist.length, sampled (g.disk i).disksn = true

instance : Decidable (AnySampled g) :=
  inferInstanceAs (Decidable (∃ i < g.disklist.length, sampled (g.disk i).disksn = true))

/-- The backed-up disk's entry is read: the count is not zero. -/
def FirstRead (g : Globals) (b : Nat) (sn : Serial) : Prop :=
  AnySampled g ∧ (g.disk b).disksn = sn

instance (sn : Serial) : Decidable (FirstRead g b sn) :=
  inferInstanceAs (Decidable (AnySampled g ∧ (g.disk b).disksn = sn))

/--
The entry of another disk is read.

It is stored when its serial number passes the test of the six bytes.
The count leaves room for it when that of the backed-up disk passes too, or a later disk's does.
-/
def OtherRead (g : Globals) (b : Nat) (sn : Serial) : Prop :=
  ∃ i < g.disklist.length, i ≠ b ∧ sampled (g.disk i).disksn = true ∧ (g.disk i).disksn = sn
    ∧ (sampled (g.disk b).disksn = true
      ∨ ∃ k < g.disklist.length, i < k ∧ k ≠ b ∧ sampled (g.disk k).disksn = true)

instance (sn : Serial) : Decidable (OtherRead g b sn) := by
  unfold OtherRead
  infer_instance

/-- The count is zero when no disk passes the test. -/
theorem announced_pos (few : g.disklist.length ≤ MAX_SUPPORED_HDD_NO) :
    0 < announced g ↔ AnySampled g := by
  rw [announced, Nat.lt_min, List.countP_pos_iff]
  constructor
  · rintro ⟨⟨i, -, sample⟩, -⟩
    exact ⟨i, lt_of_sampled sample, sample⟩
  · rintro ⟨i, inside, sample⟩
    have slot : i ∈ List.range MAX_DISK_NUM :=
      List.mem_range.mpr (Nat.lt_of_lt_of_le inside (Nat.le_trans few (by decide)))
    exact ⟨⟨i, slot, sample⟩, by decide⟩

/-- The place of an entry among the others says whether a later one follows. -/
theorem others_next (few : g.disklist.length ≤ MAX_SUPPORED_HDD_NO) {k i : Nat}
    (here : (others g b)[k]? = some i) :
    k + 1 < (others g b).length
      ↔ ∃ j < g.disklist.length, i < j ∧ j ≠ b ∧ sampled (g.disk j).disksn = true := by
  have sorted := List.pairwise_iff_getElem.mp (others_sorted g b)
  obtain ⟨inside, value⟩ := List.getElem?_eq_some_iff.mp here
  constructor
  · intro next
    have member := (mem_others few).mp (List.getElem_mem next)
    have below := sorted k (k + 1) inside next (Nat.lt_succ_self k)
    rw [value] at below
    exact ⟨(others g b)[k + 1], lt_of_sampled member.2, below, member⟩
  · rintro ⟨j, -, below, other⟩
    obtain ⟨k', inside', value'⟩ := List.getElem_of_mem ((mem_others (b := b) few).mpr other)
    -- The later slot stands at a later place.
    have later : k < k' := by
      by_contra earlier
      rcases Nat.lt_or_eq_of_le (Nat.le_of_not_lt earlier) with before | rfl
      · have order := sorted k' k inside' inside before
        omega
      · omega
    omega

variable {stray : Nat → Serial}

/-- The first entry is read as the backed-up disk's. -/
theorem firstRead_iff (machine : PlainMachine g) (valid : b < g.disklist.length) (sn : Serial) :
    (0 < announced g ∧ temphddsnOf stray (diskRecord g b desc size) 0 = sn) ↔ FirstRead g b sn := by
  have slot : b < MAX_DISK_NUM := Nat.lt_of_lt_of_le valid (Nat.le_trans machine.few (by decide))
  rw [FirstRead, announced_pos machine.few]
  apply and_congr_right
  intro sample
  have positive := (announced_pos machine.few).mpr sample
  have own : backupSerial (g.disk b) = (g.disk b).disksn := by
    rw [backupSerial, machine.plain b valid]
    rfl
  rw [temphddsnOf_record stray slot positive, Nat.mul_zero, Nat.add_zero, diskRecord_first slot, own]

/-- The entries behind it are read as the other disks', as far as the count goes. -/
theorem otherRead_iff (machine : PlainMachine g) (valid : b < g.disklist.length) (sn : Serial) :
    (∃ i < announced g, 0 < i ∧ temphddsnOf stray (diskRecord g b desc size) i = sn)
      ↔ OtherRead g b sn := by
  have few := machine.few
  have slot : b < MAX_DISK_NUM := Nat.lt_of_lt_of_le valid (Nat.le_trans few (by decide))
  have five := length_others_le few valid
  have count := announced_eq few valid
  -- An entry is read if the count goes beyond its place.
  have place : ∀ k i, (others g b)[k]? = some i → (k + 1 < announced g
      ↔ sampled (g.disk b).disksn = true
        ∨ ∃ j < g.disklist.length, i < j ∧ j ≠ b ∧ sampled (g.disk j).disksn = true) := by
    intro k i here
    obtain ⟨inside, -⟩ := List.getElem?_eq_some_iff.mp here
    rw [← others_next few here, count]
    split <;> simp_all
  constructor
  · rintro ⟨n, below, positive, rfl⟩
    obtain ⟨k, rfl⟩ : ∃ k, n = k + 1 := ⟨n - 1, by omega⟩
    have inside : k < (others g b).length := by
      rw [count] at below
      split at below <;> omega
    have here : (others g b)[k]? = some (others g b)[k] := List.getElem?_eq_getElem inside
    have member := (mem_others few).mp (List.getElem_mem inside)
    have read := @diskRecord_other g b size desc slot k _ (by omega) here
    refine ⟨(others g b)[k], lt_of_sampled member.2, member.1, member.2, ?_, (place k _ here).mp below⟩
    rw [temphddsnOf_record stray slot below, read]
  · rintro ⟨i, -, apart, sample, rfl, room⟩
    obtain ⟨k, inside, rfl⟩ := List.getElem_of_mem ((mem_others few).mpr ⟨apart, sample⟩)
    have here : (others g b)[k]? = some (others g b)[k] := List.getElem?_eq_getElem inside
    have below := (place k _ here).mpr room
    have read := @diskRecord_other g b size desc slot k _ (by omega) here
    exact ⟨k + 1, below, Nat.succ_pos k, by rw [temphddsnOf_record stray slot below, read]⟩

/--
The disks of a restore that are marked as what they were.

A RAID disk is compared under its own number, and is never taken for a new one.
-/
def Recognised (g : Globals) (b : Nat) (disk : DiskInfo) : Prop :=
  if disk.isRAIDDisk = true ∧ AnySampled g then
    FirstRead g b disk.raidDisksn ∧ roleOf g b disk.disksn = .sysdisk
      ∨ OtherRead g b disk.raidDisksn ∧ roleOf g b disk.disksn = .data
  else
    FirstRead g b disk.disksn ∨ OtherRead g b disk.disksn ∨ roleOf g b disk.disksn = .newFound

instance (disk : DiskInfo) : Decidable (Recognised g b disk) := by
  unfold Recognised
  infer_instance

/-- No disk is read both as the backed-up one and as another one. -/
theorem not_both (machine : PlainMachine g) (valid : b < g.disklist.length) {sn : Serial}
    (other : OtherRead g b sn) : (g.disk b).disksn ≠ sn := by
  obtain ⟨i, inside, apart, sample, rfl, -⟩ := other
  have distinct := machine.distinct i inside b valid apart (ne_zero_of_sampled sample)
  exact fun eq => distinct eq.symm

/-- The disk another entry is read for was a data disk. -/
theorem roleOf_other (machine : PlainMachine g) (valid : b < g.disklist.length) {sn : Serial}
    (other : OtherRead g b sn) : roleOf g b sn = .data := by
  have apart := not_both machine valid other
  obtain ⟨i, inside, -, -, rfl, -⟩ := other
  rw [roleOf, if_neg apart, if_pos ⟨i, inside, rfl⟩]

/-- The disk the first entry is read for was the system disk. -/
theorem roleOf_first {sn : Serial} (first : FirstRead g b sn) : roleOf g b sn = .sysdisk := by
  rw [roleOf, if_pos first.2]

/-- The mark that is read from the record, in terms of the machine that was backed up. -/
theorem readMark_record (machine : PlainMachine g) (valid : b < g.disklist.length)
    (disk : DiskInfo) :
    readMark (temphddsnOf stray (diskRecord g b desc size)) disk (announced g)
      = if OtherRead g b (backupSerial disk) then some .data
        else if FirstRead g b (backupSerial disk) then some .sysdisk
        else if disk.isRAIDDisk = true ∧ AnySampled g then some .raid
        else none := by
  have first := @firstRead_iff g b size desc stray machine valid (backupSerial disk)
  have other := @otherRead_iff g b size desc stray machine valid (backupSerial disk)
  have raid : (0 < announced g ∧ disk.isRAIDDisk = true)
      ↔ (disk.isRAIDDisk = true ∧ AnySampled g) := by
    rw [announced_pos machine.few, and_comm]
  simp only [readMark, first, other, raid]

/-- The mark of a disk is what it was to the machine exactly if it is recognised. -/
theorem mark_iff (machine : PlainMachine g) (valid : b < g.disklist.length) {disk : DiskInfo} :
    (readMark (temphddsnOf stray (diskRecord g b desc size)) disk (announced g)).getD .newFound
        = roleOf g b disk.disksn
      ↔ Recognised g b disk := by
  rw [readMark_record machine valid, Recognised]
  have apart : ∀ sn, OtherRead g b sn → ¬FirstRead g b sn :=
    fun sn other first => not_both machine valid other first.2
  by_cases raid : disk.isRAIDDisk = true ∧ AnySampled g
  · have own : backupSerial disk = disk.raidDisksn := by rw [backupSerial, if_pos raid.1]
    have role : roleOf g b disk.disksn ≠ .raid := by
      unfold roleOf
      split
      · decide
      · split <;> decide
    rw [own, if_pos raid, if_pos raid]
    by_cases other : OtherRead g b disk.raidDisksn
    · simp only [other, apart _ other, if_true, Option.getD_some, false_and, true_and, false_or]
      exact eq_comm
    · by_cases first : FirstRead g b disk.raidDisksn
      · simp only [other, first, if_true, if_false, Option.getD_some, false_and, true_and, or_false]
        exact eq_comm
      · simp [other, first, role.symm]
  · rw [if_neg raid, if_neg raid]
    by_cases any : AnySampled g
    · -- The disk is compared under the serial number it reports.
      have own : backupSerial disk = disk.disksn := by
        rw [backupSerial, if_neg fun flag => raid ⟨flag, any⟩]
      rw [own]
      by_cases other : OtherRead g b disk.disksn
      · simp [other, roleOf_other machine valid other]
      · by_cases first : FirstRead g b disk.disksn
        · simp [other, first, roleOf_first first]
        · simp only [other, first, if_false, Option.getD_none, false_or]
          exact eq_comm
    · -- No entry is read at all.
      have first : ∀ sn, ¬FirstRead g b sn := fun sn read => any read.1
      have other : ∀ sn, ¬OtherRead g b sn := by
        rintro sn ⟨i, inside, -, sample, -, -⟩
        exact any ⟨i, inside, sample⟩
      simp only [first, other, if_false, Option.getD_none, false_or]
      exact eq_comm

/-- The mark of the record: the three letters, the count and the size. -/
theorem findNewHdd_record (valid : b < MAX_DISK_NUM) (fits : size < 2 ^ 64) (positive : size ≠ 0)
    (now : Globals) :
    (findNewHdd stray OKR_VERSION (diskRecord g b desc size) now).1.disklist
      = now.disklist.map
        (markDisk (temphddsnOf stray (diskRecord g b desc size)) (announced g)) := by
  have d : diskRecord g b desc size 0 = 0x44 := diskRecord_front valid (by decide)
  have s : diskRecord g b desc size 1 = 0x53 := diskRecord_front valid (by decide)
  have n : diskRecord g b desc size 2 = 0x4E := diskRecord_front valid (by decide)
  have count := @diskcountOf_record g b size desc valid
  have word : le64 (diskRecord g b desc size) 4 = size := le64_put fits
  simp only [findNewHdd, ne_eq, not_true_eq_false, if_false, d, s, n, or_self, word, positive, count]

/--
The disks of a restore are marked as what they were exactly if each of them is recognised.

The record is the one the backup wrote, over any description, and with a size that is not zero.
-/
theorem findNewHdd_marks_iff (stray : Nat → Serial) (machine : PlainMachine g)
    (valid : b < g.disklist.length) (fits : size < 2 ^ 64) (positive : size ≠ 0) (now : Globals) :
    (∀ j < now.disklist.length, (now.disk j).Present →
      ((findNewHdd stray OKR_VERSION (diskRecord g b desc size) now).1.disk j).curdisktype
        = roleOf g b (now.disk j).disksn)
      ↔ ∀ j < now.disklist.length, (now.disk j).Present → Recognised g b (now.disk j) := by
  have slot : b < MAX_DISK_NUM := Nat.lt_of_lt_of_le valid (Nat.le_trans machine.few (by decide))
  apply forall_congr'
  intro j
  apply forall_congr'
  intro inside
  apply forall_congr'
  intro present
  -- The disk keeps its place in the list, and gets the mark its entries give it.
  have marked : ((findNewHdd stray OKR_VERSION (diskRecord g b desc size) now).1.disk j)
      = markDisk (temphddsnOf stray (diskRecord g b desc size)) (announced g) (now.disk j) := by
    rw [Globals.disk, findNewHdd_record slot fits positive, Globals.disk,
      List.getD_eq_getElem _ _ (by simpa using inside), List.getD_eq_getElem _ _ inside,
      List.getElem_map]
  rw [marked, markDisk, markOf_present present, Option.getD_some]
  exact mark_iff machine valid

/-! ### A backed-up disk without a serial number -/

/-- A disk whose serial number is some bytes followed by blanks. -/
def sampleDisk (front : Bytes) : DiskInfo :=
  { totalsector := 0x10000000
    disksn := fun i => front.getD i 0x20 }

/-- Two disks; the backed-up one, in front, reports no serial number. -/
def sampleMachine : Globals :=
  { disklist := [{ totalsector := 0x10000000 }, sampleDisk [0x53, 0x31]] }

/-- Its serial numbers tell its disks apart. -/
theorem sampleMachine_plain : PlainMachine sampleMachine where
  few := by decide
  plain := by decide
  distinct := by
    intro i inside j inside'
    have two : sampleMachine.disklist.length = 2 := rfl
    obtain rfl | rfl : i = 0 ∨ i = 1 := by omega
    all_goals obtain rfl | rfl : j = 0 ∨ j = 1 := by omega
    all_goals decide

/-- The data disk of the backed-up machine is taken for a new one. -/
theorem findNewHdd_dataDisk :
    PlainMachine sampleMachine ∧ (sampleMachine.disk 1).Present
      ∧ ((findNewHdd (fun _ => Serial.zero) OKR_VERSION
          (diskRecord sampleMachine 0 (fun _ => 0) 0x1000) sampleMachine).1.disk 1).curdisktype
        = .newFound
      ∧ roleOf sampleMachine 0 (sampleMachine.disk 1).disksn = .data :=
  ⟨sampleMachine_plain, by decide, by decide, by decide⟩

/-- With the other disk backed up, every disk is marked as what it was. -/
theorem findNewHdd_marks_iff_otherDisk :
    PlainMachine sampleMachine
      ∧ ∀ j < sampleMachine.disklist.length, (sampleMachine.disk j).Present →
        ((findNewHdd (fun _ => Serial.zero) OKR_VERSION
            (diskRecord sampleMachine 1 (fun _ => 0) 0x1000) sampleMachine).1.disk j).curdisktype
          = roleOf sampleMachine 1 (sampleMachine.disk j).disksn :=
  ⟨sampleMachine_plain,
    (findNewHdd_marks_iff (fun _ => Serial.zero) sampleMachine_plain (by decide) (by decide)
      (by decide) sampleMachine).mpr (by decide)⟩

end Okr
