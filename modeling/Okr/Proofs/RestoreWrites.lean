import Okr.Proofs.SmartDiskIo
import Okr.Restore.SyncRestore

/-! Whatever the image file holds, a restore writes the partitions that were backed up and nothing else. -/

namespace Okr

open Loop (Pass)

/-- All sectors of a request are in a set. -/
def DiskRequest.Within (S : Nat → Prop) (r : DiskRequest) : Prop := ∀ k < r.number, S (r.sector + k)

/-- All transfers are writes to a disk, inside a set of its sectors. -/
def DiskLog.WritesIn (S : Nat → Prop) (disk : Nat) (log : DiskLog) : Prop :=
  ∀ entry ∈ log, entry.1.command = .write ∧ entry.1.disk = disk ∧ entry.1.Within S

/-- What is pending is to be written to a disk, inside a set of its sectors. -/
structure ContinueRwdiskInfo.WritesIn (S : Nat → Prop) (disk : Nat) (info : ContinueRwdiskInfo) :
    Prop where
  func : info.func = .write
  diskNumber : info.diskNumber = disk
  pending : info.pending.Within S

variable {S : Nat → Prop} {n number : Nat} {info : ContinueRwdiskInfo} {log issued : DiskLog}
variable {r : DiskRequest} {device : DiskDevice} {memory disk : Image}

/-- A request without sectors is within any set. -/
theorem DiskRequest.within_none (none_ : r.number = 0) : r.Within S :=
  fun k below => absurd below (by omega)

/-- The log goes on with transfers of the same kind. -/
theorem DiskLog.WritesIn.append (log_ : log.WritesIn S n) (issued_ : issued.WritesIn S n) :
    DiskLog.WritesIn S n (log ++ issued) := by
  intro entry member
  rcases List.mem_append.mp member with before | new
  · exact log_ entry before
  · exact issued_ entry new

/-- The loop that issues what is pending stays in its sectors. -/
theorem issuePending_within (bounded : ∀ sector, S sector → sector + 1 < 2 ^ 64) (fuel : Nat) :
    ∀ (info : ContinueRwdiskInfo) (log : DiskLog), info.WritesIn S n →
      ∃ issued, (issuePending device fuel info log).2.2 = log ++ issued ∧ issued.WritesIn S n := by
  -- each pass issues the first sectors of what is pending and keeps those behind
  induction fuel with
  | zero => exact fun info log _ => ⟨[], (List.append_nil log).symm, fun entry member => absurd member List.not_mem_nil⟩
  | succ fuel ih =>
    intro info log within
    rw [issuePending]
    by_cases none_ : info.pending.number = 0
    · rw [if_pos none_]
      exact ⟨[], (List.append_nil log).symm, fun entry member => absurd member List.not_mem_nil⟩
    · obtain ⟨some_, short, inside⟩ := smartCount_spec none_
      have one : ∀ ret, DiskLog.WritesIn S n [(info.transfer, ret)] := by
        intro ret entry member
        rw [List.mem_singleton.mp member]
        exact ⟨within.func, within.diskNumber, fun k below => within.pending k (Nat.lt_of_lt_of_le below inside)⟩
      rw [if_neg none_]
      cases answer : device log info.transfer with
      | false => exact ⟨[(info.transfer, false)], rfl, one false⟩
      | true =>
        have first := bounded _ (within.pending (smartCount info.pending.number - 1) (by omega))
        have behind : (info.pending.behind (smartCount info.pending.number)).Within S := by
          intro k below
          have there := within.pending (smartCount info.pending.number + k)
            (by simp only [DiskRequest.behind] at below; omega)
          simp only [DiskRequest.behind]
          rw [u64_eq (by omega), Nat.add_assoc]
          exact there
        obtain ⟨issued, later, writes⟩ := ih
          { info with pending := info.pending.behind (smartCount info.pending.number) }
          (log ++ [(info.transfer, true)]) ⟨within.func, within.diskNumber, behind⟩
        rw [if_pos rfl]
        exact ⟨(info.transfer, true) :: issued, by rw [later, List.append_assoc]; rfl, (one true).append writes⟩

/-- A call stays in the sectors of what is pending and of its request. -/
theorem smartDiskIo_within (bounded : ∀ sector, S sector → sector + 1 < 2 ^ 64)
    (within : info.WritesIn S n) (request : r.Within S) :
    ∃ issued, (smartDiskIo device info log r).2.2 = log ++ issued ∧ issued.WritesIn S n
      ∧ (smartDiskIo device info log r).2.1.WritesIn S n := by
  have nothing : DiskLog.WritesIn S n [] := fun entry member => absurd member List.not_mem_nil
  rw [smartDiskIo]
  by_cases none_ : info.pending.number = 0
  · rw [if_pos none_]
    exact ⟨[], (List.append_nil log).symm, nothing, within.func, within.diskNumber, request⟩
  rw [if_neg none_]
  by_cases joins : r.number ≠ 0 ∧ r.sector = u64 (info.pending.sector + info.pending.number)
  · rw [if_pos joins]
    refine ⟨[], (List.append_nil log).symm, nothing, within.func, within.diskNumber, ?_⟩
    -- The last pending sector is not the last number there is, so the sum does not wrap.
    have last := bounded _ (within.pending (info.pending.number - 1) (by omega))
    have place := joins.2
    rw [u64_eq (by omega)] at place
    intro k below
    have short : k < info.pending.number + r.number := Nat.lt_of_lt_of_le below (Nat.mod_le _ _)
    by_cases front : k < info.pending.number
    · exact within.pending k front
    · have later := request (k - info.pending.number) (by omega)
      rw [place] at later
      dsimp only
      rw [show info.pending.sector + k
        = info.pending.sector + info.pending.number + (k - info.pending.number) by omega]
      exact later
  · rw [if_neg joins]
    obtain ⟨issued, later, writes⟩ :=
      @issuePending_within S n device bounded info.pending.number info log within
    exact ⟨issued, later, writes, within.func, within.diskNumber, request⟩

/-- Bytes outside the sectors that are written stay as they are. -/
theorem writeTransfers_other (log_ : log.WritesIn S n) {a : Nat} (outside : ¬ S (a / SECTOR_SIZE)) :
    writeTransfers memory log disk a = disk a := by
  rw [writeTransfers]
  induction log generalizing disk with
  | nil => rfl
  | cons entry log ih =>
    have later := fun disk' => @ih disk' fun entry member => log_ entry (List.mem_cons_of_mem _ member)
    rw [List.foldl_cons, later]
    split
    · refine diskWrite_other ?_
      -- A byte inside the transfer is in one of its sectors.
      by_contra inside
      simp only [SECTOR_SIZE] at inside outside
      have within := (log_ entry List.mem_cons_self).2.2 (a / 512 - entry.1.sector) (by omega)
      rw [show entry.1.sector + (a / 512 - entry.1.sector) = a / 512 by omega] at within
      exact outside within
    · rfl

/-! ### The loop -/

/-- The sectors of a partition. -/
def PartitionInfo.Has (p : PartitionInfo) (sector : Nat) : Prop :=
  p.bootBegin ≤ sector ∧ sector < p.bootBegin + p.totalSectors

/-- The sectors of the partitions that were backed up. -/
def RecoverJob.Target (j : RecoverJob) (sector : Nat) : Prop :=
  ∃ p ∈ j.partitions, p.bIfBackup = true ∧ p.Has sector

/-- Only the sectors of a set were touched so far, and only they are pending. -/
structure RecoverState.Touches (S : Nat → Prop) (n : Nat) (disk : Image) (s : RecoverState) : Prop where
  info : s.info.WritesIn S n
  log : s.log.WritesIn S n
  other : ∀ a, ¬ S (a / SECTOR_SIZE) → s.disk a = disk a

variable {j : RecoverJob} {p : PartitionInfo} {bitmap : Bytes} {s : RecoverState}

/-- A block of a partition begins inside it. -/
theorem block_lt {block : Nat} (small : p.totalSectors < 2 ^ 64) (inside : block < maxblock p) :
    block * BLOCK_SIZE < p.totalSectors := by
  simp only [maxblock, u64, BLOCK_SIZE] at inside ⊢
  omega

/-- The request for a block asks for sectors of the partition only. -/
theorem writeRequest_within {block pointer : Nat} (ends : p.bootBegin + p.totalSectors < 2 ^ 64)
    (inside : block < maxblock p) (has : ∀ sector, p.Has sector → S sector) :
    (writeRequest p block pointer).Within S := by
  have starts := block_lt (by omega) inside
  intro k below
  refine has _ ?_
  rw [PartitionInfo.Has]
  simp only [writeRequest] at below ⊢
  rw [u64_eq (by omega)]
  split at below
  · next last =>
    rw [sub64_eq (by omega) (by omega)] at below
    have short : k < p.totalSectors - block * BLOCK_SIZE := Nat.lt_of_lt_of_le below (Nat.mod_le _ _)
    omega
  · next last =>
    -- A block that is not the last one is whole.
    simp only [maxblock, u64, BLOCK_SIZE] at inside last below starts ⊢
    omega

/-- The blocks of a unit stay in the partition. -/
theorem writeBlocks_touches (bounded : ∀ sector, S sector → sector + 1 < 2 ^ 64)
    (ends : p.bootBegin + p.totalSectors < 2 ^ 64) (has : ∀ sector, p.Has sector → S sector) (left : Nat) :
    ∀ (datasize pointer : Nat) (s : RecoverState), s.info.WritesIn S n → left ≤ maxblock p - s.currentblock →
      ∃ issued, (j.writeBlocks p bitmap left datasize pointer s).2.log = s.log ++ issued
        ∧ issued.WritesIn S n ∧ (j.writeBlocks p bitmap left datasize pointer s).2.info.WritesIn S n
        ∧ (j.writeBlocks p bitmap left datasize pointer s).2.disk = s.disk := by
  have nothing : DiskLog.WritesIn S n [] := fun entry member => absurd member List.not_mem_nil
  induction left with
  | zero => exact fun datasize pointer s within _ => ⟨[], (List.append_nil _).symm, nothing, within, rfl⟩
  | succ left ih =>
    intro datasize pointer s within blocks
    rw [RecoverJob.writeBlocks]
    dsimp only
    have passed := fun datasize pointer => ih datasize pointer
      { s with currentblock := s.currentblock + 1 } within (by dsimp only; omega)
    split
    · exact ⟨[], (List.append_nil _).symm, nothing, within, rfl⟩
    split
    · split
      · exact passed _ _
      · obtain ⟨issued, later, writes, pending⟩ := @smartDiskIo_within S n s.info s.log
          (writeRequest p s.currentblock pointer) j.device bounded within
          (writeRequest_within ends (by omega) has)
        rcases called : j.call (writeRequest p s.currentblock pointer)
          { s with currentblock := s.currentblock + 1 } with ⟨ret, after⟩
        have log' : after.log = s.log ++ issued := (congrArg (·.2.log) called).symm.trans later
        have info' : after.info.WritesIn S n := by rw [← congrArg (·.2.info) called]; exact pending
        have block : after.currentblock = s.currentblock + 1 := (congrArg (·.2.currentblock) called).symm
        have disk' : after.disk = s.disk := (congrArg (·.2.disk) called).symm
        cases ret with
        | false => exact ⟨issued, log', writes, info', disk'⟩
        | true =>
          obtain ⟨more, behind, writes', pending', same⟩ := ih (sub64 datasize BLOCK_BYTES)
            (pointer + BLOCK_BYTES) after info' (by omega)
          refine ⟨issued ++ more, ?_, writes.append writes', pending', same.trans disk'⟩
          rw [behind, log', List.append_assoc]
    · exact passed _ _

/-- A unit that is written stays in the partition. -/
theorem writeUnit_touches (bounded : ∀ sector, S sector → sector + 1 < 2 ^ 64)
    (ends : p.bootBegin + p.totalSectors < 2 ^ 64) (has : ∀ sector, p.Has sector → S sector)
    (touches : s.Touches S n disk) (g_lz4_size : Nat) :
    (j.writeUnit p bitmap g_lz4_size s).2.Touches S n disk := by
  obtain ⟨issued, later, writes, pending, same⟩ := @writeBlocks_touches S n j p bitmap bounded ends has
    (maxblock p - s.currentblock) g_lz4_size j.g_lz4_buffer s touches.info (Nat.le_refl _)
  rw [RecoverJob.writeUnit]
  dsimp only
  generalize j.writeBlocks p bitmap (maxblock p - s.currentblock) g_lz4_size j.g_lz4_buffer s = blocks
    at later pending same
  have all : ∃ issued, (if blocks.1 then j.call flushRequest blocks.2 else blocks).2.log = s.log ++ issued
      ∧ issued.WritesIn S n
      ∧ (if blocks.1 then j.call flushRequest blocks.2 else blocks).2.info.WritesIn S n := by
    split
    · obtain ⟨more, behind, writes', pending'⟩ := @smartDiskIo_within S n blocks.2.info blocks.2.log
        flushRequest j.device bounded pending (DiskRequest.within_none rfl)
      refine ⟨issued ++ more, ?_, writes.append writes', pending'⟩
      rw [← List.append_assoc, ← later]
      exact behind
    · exact ⟨issued, later, writes, pending⟩
  obtain ⟨issued, later, writes, pending⟩ := all
  refine ⟨pending, ?_, fun a outside => ?_⟩
  · dsimp only
    rw [later]
    exact touches.log.append writes
  · dsimp only
    rw [later, List.drop_left, writeTransfers_other writes outside]
    exact touches.other a outside

/-- A result of a round is in some state, whose disk has been touched inside a set only. -/
def PassTouches (S : Nat → Prop) (n : Nat) (disk : Image) :
    Pass RecoverState (Option (Bool × RecoverState)) → Prop
  | .next s => s.Touches S n disk
  | .done none => True
  | .done (some (_, s)) => s.Touches S n disk

/-- The end of a round stays in the partition. -/
theorem endRound_touches (bounded : ∀ sector, S sector → sector + 1 < 2 ^ 64)
    (ends : p.bootBegin + p.totalSectors < 2 ^ 64) (has : ∀ sector, p.Has sector → S sector)
    (decompressed : Option (Bytes × Nat)) (touches : s.Touches S n disk) :
    PassTouches S n disk (j.endRound p bitmap decompressed s) := by
  unfold RecoverJob.endRound
  split
  · exact touches
  cases decompressed with
  | none => exact touches
  | some data =>
    obtain ⟨data, g_lz4_size⟩ := data
    have same : RecoverState.Touches S n disk
        { s with breaks := s.breaks + 1, memory := putBytes s.memory j.g_lz4_buffer data } :=
      ⟨touches.info, touches.log, touches.other⟩
    dsimp only
    split
    · exact same
    split
    · have written := @writeUnit_touches S n disk j p bitmap _ bounded ends has same g_lz4_size
      split
      · next after => rw [after] at written; exact written
      · next after => rw [after] at written; exact written
    · exact same

/-- Reading a unit touches no disk. -/
theorem readUnit_same {buffer buffer' : RecoverBuffer} {totaldatasize : Nat} {after : RecoverState}
    (read : j.readUnit totaldatasize buffer s = some (buffer', after)) :
    after.info = s.info ∧ after.log = s.log ∧ after.disk = s.disk := by
  rw [RecoverJob.readUnit] at read
  split at read
  · split at read
    · cases read
    · dsimp only at read
      split at read
      · cases read
        exact ⟨rfl, rfl, rfl⟩
      · rw [RecoverJob.readData] at read
        split at read
        · split at read
          · cases read
          · split at read
            · cases read
              exact ⟨rfl, rfl, rfl⟩
            · cases read
        · cases read
  · cases read
    exact ⟨rfl, rfl, rfl⟩

/-- A round stays in the partition. -/
theorem syncRound_touches (bounded : ∀ sector, S sector → sector + 1 < 2 ^ 64)
    (ends : p.bootBegin + p.totalSectors < 2 ^ 64) (has : ∀ sector, p.Has sector → S sector)
    (bMultiThread : Bool) (totaldatasize : Nat) (touches : s.Touches S n disk) :
    PassTouches S n disk (j.syncRound bMultiThread p bitmap totaldatasize s) := by
  rw [RecoverJob.syncRound]
  split
  · exact touches
  split
  · trivial
  split
  · exact touches
  · next buffer after read =>
    obtain ⟨info, log, disk'⟩ := readUnit_same read
    have same : RecoverState.Touches S n disk after :=
      ⟨by rw [info]; exact touches.info, by rw [log]; exact touches.log, by rw [disk']; exact touches.other⟩
    split
    · exact endRound_touches bounded ends has _ ⟨same.info, same.log, same.other⟩
    · exact endRound_touches bounded ends has _ ⟨same.info, same.log, same.other⟩

/-- However many rounds there are, they stay in the partition. -/
theorem rounds_touches (bounded : ∀ sector, S sector → sector + 1 < 2 ^ 64)
    (ends : p.bootBegin + p.totalSectors < 2 ^ 64) (has : ∀ sector, p.Has sector → S sector)
    (bMultiThread : Bool) (totaldatasize rounds : Nat) {ret : Bool} {after : RecoverState} :
    ∀ s : RecoverState, s.Touches S n disk →
      Loop.run (j.syncRound bMultiThread p bitmap totaldatasize) rounds s = some (some (ret, after)) →
      after.Touches S n disk := by
  induction rounds with
  | zero => exact fun s _ result => nomatch result
  | succ rounds ih =>
    intro s touches result
    have round := @syncRound_touches S n disk j p bitmap s bounded ends has bMultiThread totaldatasize touches
    rw [Loop.run] at result
    cases pass : j.syncRound bMultiThread p bitmap totaldatasize s with
    | next s' =>
      rw [pass] at result round
      exact ih s' round result
    | done r =>
      rw [pass] at result round
      cases result
      exact round

/-- A partition is written inside itself. -/
theorem syncPartition_touches (bounded : ∀ sector, S sector → sector + 1 < 2 ^ 64)
    (ends : p.bootBegin + p.totalSectors < 2 ^ 64)
    (has : p.bIfBackup = true → ∀ sector, p.Has sector → S sector) (bMultiThread : Bool) (rounds : Nat)
    {ret : Bool} {after : RecoverState} (touches : s.Touches S (j.recoverDiskNumber % 256) disk)
    (result : j.syncPartition bMultiThread rounds p s = some (ret, after)) :
    after.Touches S (j.recoverDiskNumber % 256) disk := by
  rw [RecoverJob.syncPartition] at result
  split at result
  · cases result
    exact touches
  next backed =>
  have backed : p.bIfBackup = true := by
    cases own : p.bIfBackup with
    | true => rfl
    | false => rw [own] at backed; exact absurd rfl backed
  split at result
  · cases result
    exact touches
  · next bitmap read =>
    split at result
    · have clean : (j.clean bitmap s).Touches S (j.recoverDiskNumber % 256) disk :=
        ⟨⟨rfl, rfl, DiskRequest.within_none rfl⟩, touches.log, touches.other⟩
      cases ran : Loop.run (j.syncRound bMultiThread p bitmap (unitsSize p)) rounds (j.clean bitmap s) with
      | none => rw [ran] at result; cases result
      | some r =>
        rw [ran] at result
        cases result
        exact rounds_touches bounded ends (has backed) bMultiThread (unitsSize p) rounds _ clean ran
    · cases result
      exact touches

/-- A restore of a partition of one block, from a file that ends behind the bitmap. -/
def cutImage : RecoverJob where
  partitions := [{ bootBegin := 8, totalSectors := 64, bIfBackup := true, backupDataSize := 8192 }]
  dataOffset := 0
  FileRead pos n := if pos = 0 then some (List.replicate n 1) else none
  compressBlockSize := BLOCK_BYTES
  totalsize := BLOCK_BYTES
  number := 5
  number_ge := by decide
  g_lz4_buffer := 0x100000
  LZ4_decompress_safe _ := none
  recoverDiskNumber := 1
  device _ _ := true
  userBreak _ := false
  needlimit := false
  curImageSyspartitionsize := 0

end Okr
