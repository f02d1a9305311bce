import Okr.Proofs.BackupPlan
import Okr.Proofs.RestoreWrites

/-! What a restore leaves of the disk when no transfer fails: the cells of its requests. -/

namespace Okr

variable {device : DiskDevice} {info : ContinueRwdiskInfo} {log issued : DiskLog} {r : DiskRequest}
variable {memory source disk : Image} {S : Nat → Prop} {n : Nat}

/-- A device that does not fail. -/
def DiskDevice.Works (device : DiskDevice) : Prop := ∀ log transfer, device log transfer = true

/-- No transfer of the log failed. -/
def DiskLog.Sound (log : DiskLog) : Prop := ∀ entry ∈ log, entry.2 = true

/-- A device that works gets through all that is pending. -/
theorem issuePending_works (works : device.Works) (fuel : Nat) :
    ∀ (info : ContinueRwdiskInfo) (log : DiskLog), (issuePending device fuel info log).1 = true := by
  induction fuel with
  | zero => exact fun _ _ => rfl
  | succ fuel ih =>
    intro info log
    rw [issuePending]
    split
    · rfl
    · rw [works log info.transfer, if_pos rfl]
      exact ih _ _

/-- A request and the one that goes on where it ends, as one request. -/
theorem cells_join {pending : DiskRequest} (sector : r.sector = u64 (pending.sector + pending.number))
    (buffer : r.buffer = u64 (pending.buffer + 512 * pending.number)) :
    DiskRequest.cells { pending with number := pending.number + r.number } = pending.cells ++ r.cells := by
  rw [@cells_first_behind { pending with number := pending.number + r.number } pending.number
    (Nat.le_add_right _ _)]
  have behind : DiskRequest.behind { pending with number := pending.number + r.number } pending.number = r := by
    rw [DiskRequest.behind]
    simp only [Nat.add_sub_cancel_left, ← sector]
    rw [Nat.mul_comm, ← buffer]
  rw [behind]
  rfl

/-- The request goes on in memory where the pending sectors end, and their count stays small. -/
def RunsOn (info : ContinueRwdiskInfo) (r : DiskRequest) : Prop :=
  info.pending.number ≠ 0 → r.buffer = u64 (info.pending.buffer + 512 * info.pending.number)
    ∧ info.pending.number + r.number < 2 ^ 32

/-- A call that no transfer fails: its cells are issued, or pending behind those that were. -/
theorem smartDiskIo_cells (works : device.Works) (runsOn : r.number ≠ 0 → RunsOn info r) :
    (smartDiskIo device info log r).1 = true
      ∧ ∃ issued, (smartDiskIo device info log r).2.2 = log ++ issued ∧ issued.Sound
        ∧ issued.cells ++ (smartDiskIo device info log r).2.1.pending.cells
          = info.pending.cells ++ r.cells := by
  have nothing : DiskLog.Sound [] := fun entry member => absurd member List.not_mem_nil
  rw [smartDiskIo]
  by_cases none_ : info.pending.number = 0
  · rw [if_pos none_, cells_none none_]
    exact ⟨rfl, [], (List.append_nil _).symm, nothing, rfl⟩
  rw [if_neg none_]
  by_cases joins : r.number ≠ 0 ∧ r.sector = u64 (info.pending.sector + info.pending.number)
  · obtain ⟨buffer, short⟩ := runsOn joins.1 none_
    rw [if_pos joins]
    refine ⟨rfl, [], (List.append_nil _).symm, nothing, ?_⟩
    dsimp only
    rw [u32_eq short, cells_join joins.2 buffer]
    rfl
  · rw [if_neg joins]
    obtain ⟨issued, later, issues⟩ :=
      @issuePending_issues device info.pending.number info log (Nat.le_refl _)
    have all := @issuePending_works device works info.pending.number info log
    refine ⟨all, issued, later, fun entry member => ?_, ?_⟩
    · cases answer : entry.2 with
      | true => rfl
      | false =>
        have failed := issues.failed.mpr ⟨entry, member, answer⟩
        rw [all] at failed
        cases failed
    · obtain ⟨rest, cells, none_⟩ := issues.cells
      rw [none_ all, List.append_nil] at cells
      rw [cells]

/-- What is pending behind a call ends where its request does. -/
theorem smartDiskIo_pending (runsOn : r.number ≠ 0 → RunsOn info r) :
    (smartDiskIo device info log r).2.1.pending = r
      ∨ info.pending.number ≠ 0 ∧ r.number ≠ 0
        ∧ (smartDiskIo device info log r).2.1.pending
          = { info.pending with number := info.pending.number + r.number } := by
  rw [smartDiskIo]
  by_cases none_ : info.pending.number = 0
  · rw [if_pos none_]
    exact Or.inl rfl
  rw [if_neg none_]
  by_cases joins : r.number ≠ 0 ∧ r.sector = u64 (info.pending.sector + info.pending.number)
  · rw [if_pos joins, u32_eq (runsOn joins.1 none_).2]
    exact Or.inr ⟨none_, joins.1, rfl⟩
  · rw [if_neg joins]
    exact Or.inl rfl

/-! ### The disk -/

/-- A cell whose address holds the sector's content. -/
def RightCell (memory source : Image) (cell : Nat × Nat) : Prop :=
  cell.2 + SECTOR_SIZE ≤ 2 ^ 64
    ∧ ∀ x < SECTOR_SIZE, memory (cell.2 + x) = source (cell.1 * SECTOR_SIZE + x)

/-- Transfers whose cells are all right bring the content into the sectors of their cells. -/
theorem writeTransfers_right (sound : log.Sound) (within : log.WritesIn S n)
    (bounded : ∀ sector, S sector → sector + 1 < 2 ^ 64) (right : ∀ c ∈ log.cells, RightCell memory source c)
    (a : Nat) :
    ((∃ c ∈ log.cells, c.1 = a / SECTOR_SIZE) → writeTransfers memory log disk a = source a)
      ∧ ((∀ c ∈ log.cells, c.1 ≠ a / SECTOR_SIZE) → writeTransfers memory log disk a = disk a) := by
  rw [writeTransfers]
  -- by induction on the transfers; whichever comes last, it brings the same content
  induction log generalizing disk with
  | nil =>
    refine ⟨?_, fun _ => rfl⟩
    rintro ⟨c, member, -⟩
    exact absurd member List.not_mem_nil
  | cons entry log ih =>
    have own : ∀ c ∈ entry.1.cells, c ∈ DiskLog.cells (entry :: log) := fun c member =>
      List.mem_flatMap.mpr ⟨entry, List.mem_cons_self, member⟩
    have others : ∀ c ∈ DiskLog.cells log, c ∈ DiskLog.cells (entry :: log) := fun c member => by
      obtain ⟨e, inside, cell⟩ := List.mem_flatMap.mp member
      exact List.mem_flatMap.mpr ⟨e, List.mem_cons_of_mem _ inside, cell⟩
    obtain ⟨later, same⟩ := @ih
      (diskWrite disk entry.1.sector entry.1.number fun a => memory (u64 (entry.1.buffer + a)))
      (fun e member => sound e (List.mem_cons_of_mem _ member))
      (fun e member => within e (List.mem_cons_of_mem _ member))
      (fun c member => right c (others c member))
    rw [List.foldl_cons, if_pos (sound entry List.mem_cons_self)]
    by_cases again : ∃ c ∈ DiskLog.cells log, c.1 = a / SECTOR_SIZE
    · refine ⟨fun _ => later again, fun none_ => ?_⟩
      obtain ⟨c, member, place⟩ := again
      exact absurd place (none_ c (others c member))
    have rest := same fun c member place => again ⟨c, member, place⟩
    by_cases inside : entry.1.sector ≤ a / SECTOR_SIZE ∧ a / SECTOR_SIZE < entry.1.sector + entry.1.number
    · have small := bounded _ ((within entry List.mem_cons_self).2.2 (a / SECTOR_SIZE - entry.1.sector) (by omega))
      have cell : (a / SECTOR_SIZE, u64 (entry.1.buffer + 512 * (a / SECTOR_SIZE - entry.1.sector)))
          ∈ entry.1.cells := by
        refine List.mem_map.mpr ⟨a / SECTOR_SIZE - entry.1.sector, List.mem_range.mpr (by omega), ?_⟩
        rw [u64_eq (by omega), Nat.add_sub_cancel' inside.1]
      refine ⟨fun _ => ?_, fun none_ => absurd rfl (none_ _ (own _ cell))⟩
      obtain ⟨fits, content⟩ := right _ (own _ cell)
      have byte := content (a % SECTOR_SIZE) (Nat.mod_lt _ (by decide))
      simp only [SECTOR_SIZE] at inside byte fits rest ⊢
      rw [rest, diskWrite, if_pos (by simp only [SECTOR_SIZE]; omega)]
      rw [show a / 512 * 512 + a % 512 = a by omega] at byte
      rw [← byte]
      -- The address of the byte is that of the cell and the place in the sector.
      congr 1
      simp only [u64, SECTOR_SIZE] at fits ⊢
      omega
    · have apart : ∀ c ∈ entry.1.cells, c.1 ≠ a / SECTOR_SIZE := by
        intro c member place
        obtain ⟨k, below, rfl⟩ := List.mem_map.mp member
        have below := List.mem_range.mp below
        have small := bounded _ ((within entry List.mem_cons_self).2.2 k below)
        dsimp only at place
        rw [u64_eq (by omega)] at place
        omega
      refine ⟨?_, fun _ => ?_⟩
      · rintro ⟨c, member, place⟩
        obtain ⟨e, here, cell⟩ := List.mem_flatMap.mp member
        rcases List.mem_cons.mp here with rfl | behind
        · exact absurd place (apart c cell)
        · exact absurd ⟨c, List.mem_flatMap.mpr ⟨e, behind, cell⟩, place⟩ again
      · rw [rest]
        refine diskWrite_other ?_
        simp only [SECTOR_SIZE] at inside ⊢
        omega

/-! ### The blocks of a unit -/

variable {j : RecoverJob} {p : PartitionInfo} {bitmap : Bytes} {s : RecoverState}

/-- What `SmartDiskIo` is asked for blocks whose data stands in memory one after the other. -/
def unitRequests (p : PartitionInfo) : Nat → List Nat → List DiskRequest
  | _, [] => []
  | pointer, b :: blocks => writeRequest p b pointer :: unitRequests p (pointer + BLOCK_BYTES) blocks

/-- The marked blocks from a block on: the block itself, if it is marked, and those behind it. -/
theorem markedFrom_step {block : Nat} (inside : block < maxblock p) :
    markedFrom p bitmap block
      = if readBit block bitmap then block :: markedFrom p bitmap (block + 1)
        else markedFrom p bitmap (block + 1) := by
  obtain ⟨left, count⟩ : ∃ left, maxblock p - block = left + 1 := ⟨maxblock p - block - 1, by omega⟩
  have behind : maxblock p - (block + 1) = left := by omega
  rw [markedFrom, markedFrom, count, behind, marked, marked, List.range'_succ, List.filter_cons]

/-- The blocks marked behind a block are behind it, and blocks of the partition. -/
theorem mem_markedFrom {block b : Nat} :
    b ∈ markedFrom p bitmap block ↔ block ≤ b ∧ b < maxblock p ∧ readBit b bitmap = true := by
  rw [markedFrom, marked, List.mem_filter, List.mem_range'_1]
  constructor
  · rintro ⟨⟨least, most⟩, bit⟩
    exact ⟨least, by omega, bit⟩
  · rintro ⟨least, most, bit⟩
    exact ⟨⟨least, by omega⟩, bit⟩

/-- A request for a block has no more sectors than a block, and as many unless it is the last one. -/
theorem writeRequest_number {block : Nat} (pointer : Nat) (small : p.totalSectors < 2 ^ 64)
    (inside : block < maxblock p) :
    (writeRequest p block pointer).number = min BLOCK_SIZE (p.totalSectors - block * BLOCK_SIZE) := by
  have starts := block_lt small inside
  simp only [writeRequest]
  rw [sub64_eq (by omega) small]
  by_cases last : block = maxblock p - 1
  · rw [if_pos last]
    simp only [maxblock, u64, u32, BLOCK_SIZE] at inside last starts ⊢
    omega
  · rw [if_neg last]
    simp only [maxblock, u64, BLOCK_SIZE] at inside last starts ⊢
    omega

/-- The loop asks for the blocks of its data, and stops behind the last of them. -/
theorem writeBlocks_cells (works : j.device.Works) (unlimited : j.needlimit = false)
    (small : p.totalSectors < 2 ^ 64) (left : Nat) :
    ∀ (blocks rest : List Nat) (pointer : Nat) (s : RecoverState), s.currentblock + left = maxblock p →
      markedFrom p bitmap s.currentblock = blocks ++ rest →
      (s.info.pending.number ≠ 0 → blocks ≠ [] →
        s.info.pending.buffer + 512 * s.info.pending.number = pointer) →
      pointer + blocks.length * BLOCK_BYTES ≤ 2 ^ 64 → 0 < pointer →
      s.info.pending.number + BLOCK_SIZE * blocks.length < 2 ^ 32 →
      ∃ issued info block, j.writeBlocks p bitmap left (blocks.length * BLOCK_BYTES) pointer s
          = (true, { s with info := info, log := s.log ++ issued, currentblock := block })
        ∧ issued.Sound
        ∧ issued.cells ++ info.pending.cells
          = s.info.pending.cells ++ requestCells (unitRequests p pointer blocks)
        ∧ markedFrom p bitmap block = rest ∧ block ≤ maxblock p := by
  have bytes : BLOCK_BYTES = 32768 := rfl
  have sectors : BLOCK_SIZE = 64 := rfl
  have none_ : ∀ (rest : List Nat) (pointer : Nat) (s : RecoverState),
      markedFrom p bitmap s.currentblock = rest → s.currentblock ≤ maxblock p →
      ∃ issued info block, (true, s) = (true, { s with info := info, log := s.log ++ issued, currentblock := block })
        ∧ DiskLog.Sound issued
        ∧ DiskLog.cells issued ++ info.pending.cells
          = s.info.pending.cells ++ requestCells (unitRequests p pointer [])
        ∧ markedFrom p bitmap block = rest ∧ block ≤ maxblock p := fun rest pointer s marks within =>
    ⟨[], s.info, s.currentblock, by rw [List.append_nil], fun entry member => absurd member List.not_mem_nil,
      (List.append_nil _).symm, marks, within⟩
  induction left with
  | zero =>
    intro blocks rest pointer s last marks _ _ _ _
    rw [markedFrom_end (by omega)] at marks
    obtain ⟨rfl, rfl⟩ := List.append_eq_nil_iff.mp marks.symm
    exact none_ [] pointer s (markedFrom_end (by omega)) (by omega)
  | succ left ih =>
    intro blocks rest pointer s place marks goesOn fits some_ few
    rw [RecoverJob.writeBlocks]
    cases blocks with
    | nil =>
      rw [if_pos (by rw [List.length_nil, Nat.zero_mul])]
      exact none_ rest pointer s marks (by omega)
    | cons b blocks =>
      rw [List.length_cons] at fits few ⊢
      rw [if_neg (by rw [bytes]; omega)]
      rw [markedFrom_step (by omega)] at marks
      rw [bytes] at fits
      rw [sectors] at few
      by_cases bit : readBit s.currentblock bitmap
      · rw [if_pos bit] at marks ⊢
        obtain ⟨rfl, others⟩ := List.cons.inj marks
        have count := @writeRequest_number p s.currentblock pointer small (by omega)
        rw [sectors] at count
        -- The request goes on where what is pending ends.
        have runsOn : (writeRequest p s.currentblock pointer).number ≠ 0 →
            RunsOn s.info (writeRequest p s.currentblock pointer) := by
          intro _ pending
          have end_ := goesOn pending (List.cons_ne_nil _ _)
          refine ⟨?_, by rw [count]; omega⟩
          rw [end_]
          show pointer = u64 pointer
          exact (u64_eq (by omega)).symm
        obtain ⟨ok, issued, later, sound, cells⟩ := @smartDiskIo_cells j.device s.info s.log _ works runsOn
        have pends := @smartDiskIo_pending j.device s.info s.log _ runsOn
        have free : j.limited p s.currentblock = false := by rw [RecoverJob.limited, unlimited]; rfl
        have rest_ : sub64 ((blocks.length + 1) * BLOCK_BYTES) BLOCK_BYTES = blocks.length * BLOCK_BYTES := by
          rw [bytes, sub64_eq (by omega) (by omega)]
          omega
        dsimp only
        rw [rest_, if_neg (by rw [free]; exact Bool.false_ne_true), RecoverJob.call]
        dsimp only
        rw [ok]
        generalize (smartDiskIo j.device s.info s.log (writeRequest p s.currentblock pointer)).2.1 = info
          at cells pends ⊢
        have number : info.pending.number ≤ s.info.pending.number + 64 := by
          rcases pends with own | ⟨-, -, joined⟩
          · rw [own, count]
            omega
          · rw [joined]
            dsimp only
            omega
        have goesOn' : info.pending.number ≠ 0 → blocks ≠ [] →
            info.pending.buffer + 512 * info.pending.number = pointer + BLOCK_BYTES := by
          intro _ more
          -- A block with another one behind it is whole.
          obtain ⟨next, blocks, rfl⟩ := List.exists_cons_of_ne_nil more
          have behind : next ∈ markedFrom p bitmap (s.currentblock + 1) := by
            rw [others]
            exact List.mem_cons_self
          obtain ⟨least, inside, -⟩ := mem_markedFrom.mp behind
          have whole := block_lt small inside
          have start : (writeRequest p s.currentblock pointer).buffer = pointer := rfl
          rw [sectors] at whole
          rw [bytes]
          rcases pends with own | ⟨pending, -, joined⟩
          · rw [own, start, count]
            omega
          · have end_ := goesOn pending (List.cons_ne_nil _ _)
            rw [joined]
            dsimp only
            rw [count]
            omega
        obtain ⟨more, info', block, run, sound', cells', marks', within⟩ := ih blocks rest (pointer + BLOCK_BYTES)
          { s with currentblock := s.currentblock + 1, info := info, log := s.log ++ issued }
          (by dsimp only; omega) others goesOn' (by rw [bytes]; omega) (by omega)
          (by dsimp only; rw [sectors]; omega)
        rw [later]
        dsimp only at run cells' ⊢
        rw [run]
        refine ⟨issued ++ more, info', block, by rw [List.append_assoc], ?_, ?_, marks', within⟩
        · intro entry member
          rcases List.mem_append.mp member with before | new
          · exact sound entry before
          · exact sound' entry new
        · rw [DiskLog.cells, List.flatMap_append, List.append_assoc]
          show DiskLog.cells issued ++ (DiskLog.cells more ++ info'.pending.cells) = _
          rw [cells', ← List.append_assoc, cells, List.append_assoc]
          rfl
      · rw [if_neg bit] at marks ⊢
        obtain ⟨issued, info, block, run, rest_⟩ := ih (b :: blocks) rest pointer
          { s with currentblock := s.currentblock + 1 } (by dsimp only; omega) marks goesOn
          (by rw [List.length_cons, bytes]; exact fits) some_ (by rw [List.length_cons, sectors]; exact few)
        exact ⟨issued, info, block, run, rest_⟩

end Okr
