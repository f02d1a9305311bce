import Okr.Proofs.RestoreCells
import Okr.Proofs.UnitRoundTrip

/-! A unit of a backup, written by a restore: its blocks have the content of the source again. -/

namespace Okr

variable {j : RecoverJob} {p : PartitionInfo} {bitmap : Bytes} {s : RecoverState}
variable {source memory : Image} {blocks rest : List Nat} {pointer : Nat}

/-- The sectors some blocks of a partition have. -/
def PartitionInfo.InBlocks (p : PartitionInfo) (blocks : List Nat) (sector : Nat) : Prop :=
  p.Has sector ∧ (sector - p.bootBegin) / BLOCK_SIZE ∈ blocks

/-- A sector of a block is where the block begins and less than its sectors further. -/
theorem inBlock_iff {b sector : Nat} :
    p.InBlocks [b] sector ↔ ∃ k < min BLOCK_SIZE (p.totalSectors - b * BLOCK_SIZE),
      sector = b * BLOCK_SIZE + p.bootBegin + k := by
  rw [PartitionInfo.InBlocks, List.mem_singleton, PartitionInfo.Has]
  simp only [BLOCK_SIZE]
  constructor
  · rintro ⟨⟨least, most⟩, rfl⟩
    exact ⟨(sector - p.bootBegin) % 64, by omega, by omega⟩
  · rintro ⟨k, below, rfl⟩
    omega

/-- The cells of the requests for blocks are the sectors of the blocks. -/
theorem unitRequests_sectors (ends : p.bootBegin + p.totalSectors < 2 ^ 64) (sector : Nat) :
    ∀ (blocks : List Nat) (pointer : Nat), (∀ b ∈ blocks, b < maxblock p) →
      ((∃ c ∈ requestCells (unitRequests p pointer blocks), c.1 = sector) ↔ p.InBlocks blocks sector) := by
  intro blocks
  induction blocks with
  | nil =>
    intro pointer _
    refine iff_of_false ?_ fun inside => absurd inside.2 List.not_mem_nil
    rintro ⟨c, member, -⟩
    exact absurd member List.not_mem_nil
  | cons b blocks ih =>
    intro pointer within
    have own := within b List.mem_cons_self
    have starts := block_lt (p := p) (by omega) own
    have later := ih (pointer + BLOCK_BYTES) fun b' member => within b' (List.mem_cons_of_mem _ member)
    have first : (∃ c ∈ (writeRequest p b pointer).cells, c.1 = sector) ↔ p.InBlocks [b] sector := by
      rw [inBlock_iff, ← writeRequest_number pointer (by omega) own]
      constructor
      · rintro ⟨c, member, rfl⟩
        obtain ⟨k, below, rfl⟩ := List.mem_map.mp member
        have below := List.mem_range.mp below
        refine ⟨k, below, ?_⟩
        rw [writeRequest_number pointer (by omega) own] at below
        simp only [writeRequest]
        rw [u64_eq (n := b * BLOCK_SIZE + p.bootBegin) (by omega), u64_eq (by omega)]
      · rintro ⟨k, below, rfl⟩
        refine ⟨_, List.mem_map.mpr ⟨k, List.mem_range.mpr below, rfl⟩, ?_⟩
        rw [writeRequest_number pointer (by omega) own] at below
        simp only [writeRequest]
        rw [u64_eq (n := b * BLOCK_SIZE + p.bootBegin) (by omega), u64_eq (by omega)]
    have split : (∃ c ∈ requestCells (unitRequests p pointer (b :: blocks)), c.1 = sector)
        ↔ (∃ c ∈ (writeRequest p b pointer).cells, c.1 = sector)
          ∨ ∃ c ∈ requestCells (unitRequests p (pointer + BLOCK_BYTES) blocks), c.1 = sector := by
      rw [unitRequests, requestCells, List.flatMap_cons]
      simp only [List.mem_append, or_and_right, exists_or]
      rfl
    rw [split, first, later, PartitionInfo.InBlocks, PartitionInfo.InBlocks, PartitionInfo.InBlocks,
      ← and_or_left, List.mem_singleton, List.mem_cons]

/-- The cells of the requests for blocks are right when their data stands in memory. -/
theorem unitRequests_right (ends : p.bootBegin + p.totalSectors < 2 ^ 64) :
    ∀ (blocks : List Nat) (pointer : Nat), (∀ b ∈ blocks, b < maxblock p) →
      pointer + blocks.length * BLOCK_BYTES ≤ 2 ^ 64 →
      (∀ k < blocks.length * BLOCK_BYTES, memory (pointer + k) = (blockData source p blocks).getD k 0) →
      ∀ c ∈ requestCells (unitRequests p pointer blocks), RightCell memory source c := by
  have bytes : BLOCK_BYTES = 32768 := rfl
  have sectors : BLOCK_SIZE = 64 := rfl
  have bytesOf : SECTOR_SIZE = 512 := rfl
  intro blocks
  induction blocks with
  | nil => exact fun _ _ _ _ c member => absurd member List.not_mem_nil
  | cons b blocks ih =>
    intro pointer within fits holds c member
    have own := within b List.mem_cons_self
    have starts := block_lt (p := p) (by omega) own
    rw [List.length_cons, bytes] at fits holds
    have parts : blockData source p (b :: blocks)
        = bytesAt source (u64 (b * BLOCK_SIZE + p.bootBegin) * SECTOR_SIZE) BLOCK_BYTES
          ++ blockData source p blocks := rfl
    rw [unitRequests, requestCells, List.flatMap_cons] at member
    rcases List.mem_append.mp member with here | later
    · obtain ⟨k, below, rfl⟩ := List.mem_map.mp here
      have below := List.mem_range.mp below
      rw [writeRequest_number pointer (by omega) own] at below
      have place : (writeRequest p b pointer).sector = b * BLOCK_SIZE + p.bootBegin := u64_eq (by omega)
      have address : (writeRequest p b pointer).buffer = pointer := rfl
      rw [RightCell]
      dsimp only
      rw [place, address, u64_eq (by omega), u64_eq (by omega)]
      refine ⟨by omega, fun x inside => ?_⟩
      rw [Nat.add_assoc, holds (512 * k + x) (by omega), parts, u64_eq (by omega),
        List.getD_append _ _ _ _ (by rw [length_bytesAt]; omega), bytesAt_getD (by omega)]
      exact congrArg source (by rw [bytesOf]; omega)
    · have behind : ∀ k < blocks.length * BLOCK_BYTES,
          memory (pointer + BLOCK_BYTES + k) = (blockData source p blocks).getD k 0 := by
        intro k less
        rw [bytes] at less
        rw [Nat.add_assoc, holds (BLOCK_BYTES + k) (by rw [bytes]; omega), parts,
          List.getD_append_right _ _ _ _ (by rw [length_bytesAt]; omega), length_bytesAt,
          Nat.add_sub_cancel_left]
      have room : pointer + BLOCK_BYTES + blocks.length * BLOCK_BYTES ≤ 2 ^ 64 := by
        rw [bytes]
        omega
      exact ih (pointer + BLOCK_BYTES) (fun b' member => within b' (List.mem_cons_of_mem _ member)) room behind c
        later

/-- The data of blocks has the size of the blocks. -/
theorem length_blockData (source : Image) (p : PartitionInfo) (blocks : List Nat) :
    (blockData source p blocks).length = blocks.length * BLOCK_BYTES := by
  rw [blockData]
  induction blocks with
  | nil => rw [List.flatMap_nil, List.length_nil, List.length_nil, Nat.zero_mul]
  | cons b blocks ih =>
    rw [List.flatMap_cons, List.length_append, length_bytesAt, ih, List.length_cons, Nat.succ_mul, Nat.add_comm]

/-- What a round leaves that has written blocks: they have their content, and the loop stands behind them. -/
structure WroteBlocks (source : Image) (p : PartitionInfo) (bitmap : Bytes) (blocks rest : List Nat)
    (s after : RecoverState) : Prop where
  ring : after.ring = s.ring
  producer : after.producer = s.producer
  consumer : after.consumer = s.consumer
  filepos : after.filepos = s.filepos
  currentdata : after.currentdata = s.currentdata
  idle : after.info.pending.number = 0
  func : after.info.func = .write
  marks : markedFrom p bitmap after.currentblock = rest
  within : after.currentblock ≤ maxblock p
  written : ∀ a, p.InBlocks blocks (a / SECTOR_SIZE) → after.disk a = source a
  other : ∀ a, ¬ p.InBlocks blocks (a / SECTOR_SIZE) → after.disk a = s.disk a

/-- The surroundings of a restore in which nothing fails, and no block is left out. -/
structure RecoverJob.Smooth (j : RecoverJob) : Prop where
  works : j.device.Works
  unbroken : ∀ n, j.userBreak n = false
  unlimited : j.needlimit = false
  fits : j.compressBlockSize ≤ LZ4_MAX_INPUT_SIZE
  room : j.compressBlockSize ≤ j.totalsize
  allocated : 0 < j.g_lz4_buffer
  address : j.g_lz4_buffer + j.compressBlockSize ≤ 2 ^ 64

/-- A round that got the data of the next blocks writes them and goes on. -/
theorem endRound_unit (smooth : j.Smooth) (ends : p.bootBegin + p.totalSectors < 2 ^ 64)
    (marks : markedFrom p bitmap s.currentblock = blocks ++ rest) (some_ : blocks ≠ [])
    (short : blocks.length * BLOCK_BYTES ≤ j.compressBlockSize) (within : s.currentblock ≤ maxblock p)
    (idle : s.info.pending.number = 0) (func : s.info.func = .write) :
    ∃ after, j.endRound p bitmap (some (blockData source p blocks, (blockData source p blocks).length)) s
        = .next after ∧ WroteBlocks source p bitmap blocks rest s after := by
  have bytes : BLOCK_BYTES = 32768 := rfl
  have sectors : BLOCK_SIZE = 64 := rfl
  have limit : LZ4_MAX_INPUT_SIZE = 0x7E000000 := rfl
  have fits := smooth.fits
  have address := smooth.address
  have positive := List.length_pos_iff.mpr some_
  have inside : ∀ b ∈ blocks, b < maxblock p := fun b member =>
    (mem_markedFrom.mp (by rw [marks]; exact List.mem_append_left _ member)).2.1
  let s₁ : RecoverState :=
    { s with
      breaks := s.breaks + 1
      memory := putBytes s.memory j.g_lz4_buffer (blockData source p blocks) }
  -- The loop over the blocks, and the call that issues what it has put off.
  obtain ⟨issued, info, block, run, sound, cells, marks', within'⟩ := @writeBlocks_cells j p bitmap smooth.works
    smooth.unlimited (by omega) (maxblock p - s.currentblock) blocks rest j.g_lz4_buffer s₁
    (Nat.add_sub_cancel' within) marks (fun pending _ => absurd idle pending) (by omega) smooth.allocated
    (by rw [bytes] at short; rw [sectors]; show s.info.pending.number + _ < _; omega)
  obtain ⟨ok, more, flushed, sound', cells'⟩ := @smartDiskIo_cells j.device info (s.log ++ issued) flushRequest
    smooth.works fun number => absurd rfl number
  have empty : (smartDiskIo j.device info (s.log ++ issued) flushRequest).2.1.pending = flushRequest := by
    rcases @smartDiskIo_pending j.device info (s.log ++ issued) flushRequest fun number => absurd rfl number with
      own | ⟨-, number, -⟩
    · exact own
    · exact absurd rfl number
  have own : s.info.pending.cells = [] := cells_none idle
  -- Together they issue the cells of the requests for the blocks.
  have all : DiskLog.cells (issued ++ more) = requestCells (unitRequests p j.g_lz4_buffer blocks) := by
    have none_ : flushRequest.cells = [] := cells_none rfl
    rw [empty, none_, List.append_nil, List.append_nil] at cells'
    rw [DiskLog.cells, List.flatMap_append]
    show DiskLog.cells issued ++ DiskLog.cells more = _
    rw [cells', cells, show s₁.info.pending.cells = [] from own, List.nil_append]
  have bounded : ∀ sector, p.Has sector → sector + 1 < 2 ^ 64 := fun sector has => by
    have := has.2
    omega
  have idleWrites : s₁.info.WritesIn p.Has s.info.diskNumber :=
    ⟨func, rfl, DiskRequest.within_none idle⟩
  obtain ⟨issued', log, writes, pending, -⟩ := @writeBlocks_touches p.Has s.info.diskNumber j p bitmap bounded ends
    (fun _ has => has) (maxblock p - s.currentblock) (blocks.length * BLOCK_BYTES) j.g_lz4_buffer s₁ idleWrites
    (Nat.le_refl _)
  rw [run] at log pending
  obtain rfl : issued = issued' := List.append_cancel_left log
  obtain ⟨more', log', writes', after⟩ := @smartDiskIo_within p.Has s.info.diskNumber info (s.log ++ issued)
    flushRequest j.device bounded pending (DiskRequest.within_none rfl)
  obtain rfl : more = more' := List.append_cancel_left (flushed.symm.trans log')
  have holds : ∀ k < blocks.length * BLOCK_BYTES,
      s₁.memory (j.g_lz4_buffer + k) = (blockData source p blocks).getD k 0 := by
    intro k below
    show putBytes s.memory j.g_lz4_buffer (blockData source p blocks) (j.g_lz4_buffer + k) = _
    rw [putBytes, length_blockData, if_pos (by omega), Nat.add_sub_cancel_left]
  have right := @unitRequests_right p source s₁.memory ends blocks j.g_lz4_buffer inside (by omega) holds
  rw [← all] at right
  have sound₂ : DiskLog.Sound (issued ++ more) := fun entry member =>
    (List.mem_append.mp member).elim (sound entry) (sound' entry)
  have disk := fun a => @writeTransfers_right (issued ++ more) s₁.memory source s.disk p.Has s.info.diskNumber sound₂
    (writes.append writes') bounded right a
  have covered := fun a => unitRequests_sectors (p := p) ends (a / SECTOR_SIZE) blocks j.g_lz4_buffer inside
  rw [← all] at covered
  have round : j.endRound p bitmap (some (blockData source p blocks, (blockData source p blocks).length)) s
      = .next { s₁ with
          currentblock := block
          info := (smartDiskIo j.device info (s.log ++ issued) flushRequest).2.1
          log := s.log ++ issued ++ more
          disk := writeTransfers s₁.memory (issued ++ more) s.disk } := by
    have large : blocks.length * BLOCK_BYTES > 8 := by
      rw [bytes]
      omega
    unfold RecoverJob.endRound
    rw [smooth.unbroken, length_blockData]
    dsimp only
    rw [if_neg Bool.false_ne_true, if_neg (Nat.ne_of_gt (Nat.lt_of_le_of_lt (Nat.zero_le 8) large)), if_pos large]
    have unit : j.writeUnit p bitmap (blocks.length * BLOCK_BYTES) s₁ = (true, { s₁ with
          currentblock := block
          info := (smartDiskIo j.device info (s.log ++ issued) flushRequest).2.1
          log := s.log ++ issued ++ more
          disk := writeTransfers s₁.memory (issued ++ more) s.disk }) := by
      rw [RecoverJob.writeUnit, run]
      dsimp only
      rw [if_pos rfl, RecoverJob.call]
      dsimp only
      rw [ok, flushed, List.append_assoc, List.drop_left]
    rw [unit]
  exact ⟨_, round, rfl, rfl, rfl, rfl, rfl, by rw [empty]; rfl, after.func, marks', within',
    fun a inside => (disk a).1 ((covered a).mpr inside),
    fun a outside => (disk a).2 fun c member place => outside ((covered a).mp ⟨c, member, place⟩)⟩

end Okr
