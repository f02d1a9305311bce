import Okr.Proofs.SyncBackup

/-! What `Backup` asks `SmartDiskIo` to read, against the sectors of the partition. -/

namespace Okr

open BufferRing Chunks

variable {b : BackupJob} {pointers : Nat → Nat} {p : PartitionInfo} {bitmap : Bytes}

/-- The sectors of a request are those of a partition, counted in 64-bit numbers. -/
def DiskRequest.Inside (r : DiskRequest) (p : PartitionInfo) : Prop :=
  sub64 r.sector p.bootBegin + r.number ≤ p.totalSectors

instance (r : DiskRequest) : Decidable (r.Inside p) := inferInstanceAs (Decidable (_ ≤ _))

/-- Where the sectors of a partition have 64-bit numbers, they are the ones between its ends. -/
theorem inside_iff {r : DiskRequest} (sector : r.sector < 2 ^ 64) (some_ : 0 < r.number)
    (ends : p.bootBegin + p.totalSectors ≤ 2 ^ 64) :
    r.Inside p ↔ p.bootBegin ≤ r.sector ∧ r.sector + r.number ≤ p.bootBegin + p.totalSectors := by
  -- Without a wrap the distance from the first sector is the plain difference.
  rw [DiskRequest.Inside, sub64]
  omega

/-- The first sector of a block is as far behind the partition's first one as its number says. -/
theorem readRequest_offset {currentblock : Nat} (pointer : Nat) (block : currentblock < maxblock p) :
    sub64 (readRequest p pointer currentblock).sector p.bootBegin = currentblock * BLOCK_SIZE := by
  have size : BLOCK_SIZE = 64 := rfl
  have small : currentblock * 64 < 2 ^ 64 := by
    rw [maxblock, u64, size] at block
    omega
  simp only [readRequest, sub64, u64, size]
  -- The first sector's own number cancels, also when the sum wraps.
  generalize currentblock * 64 = offset at small ⊢
  omega

/-- The request for a block is inside when the block ends in the partition. -/
theorem readRequest_inside {currentblock : Nat} (pointer : Nat) (block : currentblock < maxblock p) :
    (readRequest p pointer currentblock).Inside p
      ↔ (currentblock + 1) * BLOCK_SIZE ≤ p.totalSectors := by
  rw [DiskRequest.Inside, readRequest_offset pointer block, Nat.succ_mul]
  rfl

/-- All blocks but the last one end in the partition. -/
theorem block_inside {currentblock : Nat} (block : currentblock + 1 < maxblock p) :
    (currentblock + 1) * BLOCK_SIZE ≤ p.totalSectors := by
  have size : BLOCK_SIZE = 64 := rfl
  -- Rounding up adds less than a block, so only the last one can be short.
  rw [maxblock, u64, size] at block
  rw [size]
  omega

/-- A marked block is one of the partition. -/
theorem lt_of_mem_markedFrom {currentblock block : Nat}
    (mem : block ∈ markedFrom p bitmap currentblock) : block < maxblock p := by
  have range := List.mem_range'_1.mp (List.mem_filter.mp mem).1
  omega

/-- The marked blocks are in the order of their numbers. -/
theorem markedFrom_sorted (p : PartitionInfo) (bitmap : Bytes) (currentblock : Nat) :
    (markedFrom p bitmap currentblock).Pairwise (· < ·) :=
  List.Pairwise.filter _ (List.pairwise_lt_range' ..)

/-- The marked blocks left are those that are read and those behind them. -/
theorem ReadsChunk.split {size currentblock : Nat} {read : List Nat × Nat}
    (reads : ReadsChunk size p bitmap currentblock read) :
    markedFrom p bitmap currentblock = read.1 ++ markedFrom p bitmap read.2 := by
  rw [reads.blocks, reads.rest, List.take_append_drop]

/-- Once the last block of the partition is read, no marked ones are left. -/
theorem ReadsChunk.last_read {size currentblock last : Nat} {read : List Nat × Nat}
    (reads : ReadsChunk size p bitmap currentblock read) (end_ : last + 1 = maxblock p)
    (mem : last ∈ read.1) : markedFrom p bitmap read.2 = [] := by
  -- A block that was left would have a larger number than the last one.
  have sorted := markedFrom_sorted p bitmap currentblock
  rw [reads.split] at sorted
  refine List.eq_nil_iff_forall_not_mem.mpr fun block left => ?_
  have before := (List.pairwise_append.mp sorted).2.2 last mem block left
  have below := lt_of_mem_markedFrom left
  omega

/-- The blocks the rounds of the loop read until the last one. -/
def BackupJob.blocksRead (b : BackupJob) (multi : Bool) (p : PartitionInfo) (bitmap : Bytes) :
    Nat → SyncState → List Nat
  | 0, _ => []
  | rounds + 1, s =>
    match b.syncRound multi p bitmap s with
    | none => []
    | some (_, true) => (b.syncRead p bitmap s.currentblock).1
    | some (after, false) =>
      (b.syncRead p bitmap s.currentblock).1 ++ b.blocksRead multi p bitmap rounds after

/-- What is compressed and written leaves the next block to read. -/
theorem writeCompressed_currentblock (blocks : List Nat) (s : SyncState) :
    (b.writeCompressed p blocks s).1.currentblock = s.currentblock := by
  unfold BackupJob.writeCompressed
  split
  · rfl
  · split <;> rfl

/-- A round goes on behind the blocks it read. -/
theorem syncRound_currentblock {multi : Bool} {s after : SyncState} {last : Bool}
    (round : b.syncRound multi p bitmap s = some (after, last)) :
    after.currentblock = (b.syncRead p bitmap s.currentblock).2 := by
  cases multi with
  | false =>
    simp only [BackupJob.syncRound, Bool.false_eq_true, if_false] at round
    split at round
    · cases round
    · rw [← congrArg (·.1.currentblock) (Option.some_inj.mp round)]
      exact writeCompressed_currentblock _ _
  | true =>
    simp only [BackupJob.syncRound, if_true] at round
    split at round
    · cases round
    · split at round
      · rw [← congrArg (·.1.currentblock) (Option.some_inj.mp round)]
        exact writeCompressed_currentblock _ _
      · rw [← congrArg (·.1.currentblock) (Option.some_inj.mp round)]

/-- Only marked blocks are read. -/
theorem blocksRead_marked {multi : Bool} {rounds block : Nat} {s : SyncState}
    (mem : block ∈ b.blocksRead multi p bitmap rounds s) :
    block ∈ markedFrom p bitmap s.currentblock := by
  induction rounds generalizing s with
  | zero => cases mem
  | succ rounds ih =>
    -- What a round reads are the first marked blocks left, and the next round starts behind them.
    have split := (syncRead_readsChunk b p bitmap s.currentblock).split
    rw [split, List.mem_append]
    unfold BackupJob.blocksRead at mem
    cases round : b.syncRound multi p bitmap s with
    | none =>
      rw [round] at mem
      cases mem
    | some result =>
      obtain ⟨after, last⟩ := result
      rw [round] at mem
      cases last with
      | true => exact Or.inl mem
      | false =>
        refine (List.mem_append.mp mem).imp id fun later => ?_
        have left := ih later
        rw [syncRound_currentblock round] at left
        exact left

/-- The requests of a round are inside when the blocks it reads end in the partition. -/
theorem roundRequests_inside {multi : Bool} (s : SyncState) :
    (∀ r ∈ b.roundRequests pointers multi p bitmap s, r.Inside p)
      ↔ ∀ block ∈ (b.syncRead p bitmap s.currentblock).1,
          (block + 1) * BLOCK_SIZE ≤ p.totalSectors := by
  have split := (syncRead_readsChunk b p bitmap s.currentblock).split
  -- Only blocks of the partition are read, whatever bits the bitmap has behind them.
  have below : ∀ block ∈ (b.syncRead p bitmap s.currentblock).1, block < maxblock p := by
    intro block mem
    -- What is read is a part of the marked blocks left.
    refine @lt_of_mem_markedFrom p bitmap s.currentblock block ?_
    rw [split]
    exact List.mem_append_left _ mem
  constructor
  · intro inside block mem
    obtain ⟨k, short, rfl⟩ := List.getElem_of_mem mem
    exact (readRequest_inside _ (below _ mem)).mp (inside _ (List.mem_mapIdx.mpr ⟨k, short, rfl⟩))
  · intro ends r mem
    obtain ⟨k, short, rfl⟩ := List.mem_mapIdx.mp mem
    have read := List.getElem_mem short
    exact (readRequest_inside _ (below _ read)).mpr (ends _ read)

/-- The requests of the rounds are inside when the blocks they read end in the partition. -/
theorem syncRequests_inside {multi : Bool} (rounds : Nat) (s : SyncState) :
    (∀ r ∈ b.syncRequests pointers multi p bitmap rounds s, r.Inside p)
      ↔ ∀ block ∈ b.blocksRead multi p bitmap rounds s,
          (block + 1) * BLOCK_SIZE ≤ p.totalSectors := by
  induction rounds generalizing s with
  | zero => simp only [BackupJob.syncRequests, BackupJob.blocksRead, List.not_mem_nil, false_imp_iff,
      implies_true]
  | succ rounds ih =>
    unfold BackupJob.syncRequests BackupJob.blocksRead
    cases round : b.syncRound multi p bitmap s with
    | none => simp only [List.not_mem_nil, false_imp_iff, implies_true]
    | some result =>
      obtain ⟨after, last⟩ := result
      cases last with
      | true => exact roundRequests_inside s
      | false =>
        simp only [List.forall_mem_append]
        exact and_congr (roundRequests_inside s) (ih after)

/-- A round more reads no less. -/
theorem blocksRead_succ {multi : Bool} {rounds block : Nat} {s : SyncState}
    (mem : block ∈ b.blocksRead multi p bitmap rounds s) :
    block ∈ b.blocksRead multi p bitmap (rounds + 1) s := by
  induction rounds generalizing s with
  | zero => cases mem
  | succ rounds ih =>
    unfold BackupJob.blocksRead at mem ⊢
    cases round : b.syncRound multi p bitmap s with
    | none =>
      rw [round] at mem
      cases mem
    | some result =>
      obtain ⟨after, last⟩ := result
      rw [round] at mem
      cases last with
      | true => exact mem
      | false => exact List.mem_append.mpr ((List.mem_append.mp mem).imp id ih)

/-- More rounds read no less. -/
theorem blocksRead_mono {multi : Bool} {rounds more block : Nat} {s : SyncState}
    (le : rounds ≤ more) (mem : block ∈ b.blocksRead multi p bitmap rounds s) :
    block ∈ b.blocksRead multi p bitmap more s := by
  induction le with
  | refl => exact mem
  | step _ ih => exact blocksRead_succ ih

/-- The buffers whose failure the loop finds before it reads the last one, which is one round later
with multiple threads. -/
def foundBeforeLast (multi : Bool) (buffers : List (List Nat)) : List (List Nat) :=
  if multi then buffers.dropLast.dropLast else buffers.dropLast

/-- A buffer cannot be compressed, and the loop ends before it reads the last marked blocks. -/
def BackupJob.StopsEarly (b : BackupJob) (multi : Bool) (p : PartitionInfo) (bitmap : Bytes) :
    Prop :=
  ∃ blocks ∈ foundBeforeLast multi (chunks b.blocksPerBuffer (markedFrom p bitmap 0)),
    b.compress p blocks = none

/-- Marked blocks that are left fill further buffers. -/
theorem chunks_ne_nil {blocks : List Nat} (some_ : blocks ≠ []) :
    chunks b.blocksPerBuffer blocks ≠ [] := by
  rw [chunks_of_ne_nil b.blocksPerBuffer_pos some_]
  exact List.cons_ne_nil _ _

/-- With one buffer the last block is read when it is marked and all buffers before compress. -/
theorem blocksRead_single {last rounds : Nat} {s : SyncState} (end_ : last + 1 = maxblock p)
    (free : s.ring.valid 0 = false) (within : s.currentblock ≤ maxblock p)
    (enough : maxblock p - s.currentblock < rounds) :
    last ∈ b.blocksRead false p bitmap rounds s
      ↔ last ∈ markedFrom p bitmap s.currentblock
        ∧ ∀ blocks ∈ (chunks b.blocksPerBuffer (markedFrom p bitmap s.currentblock)).dropLast,
            b.compress p blocks ≠ none := by
  induction rounds generalizing s with
  | zero => omega
  | succ rounds ih =>
    have reads : ReadsChunk b.blocksPerBuffer p bitmap s.currentblock
        (b.syncRead p bitmap s.currentblock) := syncRead_readsChunk b p bitmap s.currentblock
    simp only [BackupJob.blocksRead, BackupJob.syncRound, Bool.false_eq_true, if_false, free,
      BackupJob.writeCompressed]
    by_cases empty : (b.syncRead p bitmap s.currentblock).1 = []
    · -- Nothing is left to read.
      have none_ := (reads.none_left b.blocksPerBuffer_pos empty).1
      simp only [empty, if_true, none_, List.not_mem_nil, false_and]
    · rw [if_neg empty, reads.chunks_left b.blocksPerBuffer_pos empty, reads.split, List.mem_append]
      cases compressed : b.compress p (b.syncRead p bitmap s.currentblock).1 with
      | none =>
        -- The loop ends here, and it was at the last block only if nothing is left.
        constructor
        · intro read
          rw [reads.last_read end_ read]
          exact ⟨Or.inl read, by simp⟩
        · rintro ⟨read | left, ok⟩
          · exact read
          · have more := @chunks_ne_nil b _ (List.ne_nil_of_mem left)
            rw [List.dropLast_cons_of_ne_nil more] at ok
            exact absurd compressed (ok _ List.mem_cons_self)
      | some record =>
        have further := reads.further (reads.below empty)
        have inside := reads.within within
        -- The buffer is free again, and the rounds go on behind the blocks.
        have rest := @ih
          { s with
            ring := ((s.ring.fill 0 (b.syncRead p bitmap s.currentblock).1).publish 0).clear 0
            currentblock := (b.syncRead p bitmap s.currentblock).2
            written := s.written ++ [record] }
          (by simp [Buffers.clear]) inside (by simp only; omega)
        simp only [List.mem_append]
        rw [rest]
        simp only
        by_cases none_ : markedFrom p bitmap (b.syncRead p bitmap s.currentblock).2 = []
        · simp [none_]
        · rw [List.dropLast_cons_of_ne_nil (chunks_ne_nil none_), List.forall_mem_cons]
          have notYet : last ∉ (b.syncRead p bitmap s.currentblock).1 :=
            fun read => none_ (reads.last_read end_ read)
          simp [notYet, compressed]

/-- With a ring a buffer is read before the one that is held is found to fail. -/
theorem blocksRead_ring {last rounds taken : Nat} {held : List Nat} {s : SyncState}
    (end_ : last + 1 = maxblock p) (holding : s.Holding b taken held)
    (gone : held = [] → markedFrom p bitmap s.currentblock = [])
    (within : s.currentblock ≤ maxblock p)
    (enough : maxblock p - s.currentblock < rounds) :
    last ∈ b.blocksRead true p bitmap rounds s
      ↔ last ∈ markedFrom p bitmap s.currentblock
        ∧ ∀ blocks ∈ (held
            :: chunks b.blocksPerBuffer (markedFrom p bitmap s.currentblock)).dropLast.dropLast,
            b.compress p blocks ≠ none := by
  induction rounds generalizing s taken held with
  | zero => omega
  | succ rounds ih =>
    have reads : ReadsChunk b.blocksPerBuffer p bitmap s.currentblock
        (b.syncRead p bitmap s.currentblock) := syncRead_readsChunk b p bitmap s.currentblock
    by_cases empty : (b.syncRead p bitmap s.currentblock).1 = []
    · -- No marked blocks are left, whatever becomes of the buffer that is held.
      have none_ := (reads.none_left b.blocksPerBuffer_pos empty).1
      constructor
      · intro read
        exact absurd (blocksRead_marked read) (by rw [none_]; exact List.not_mem_nil)
      · rintro ⟨left, -⟩
        rw [none_] at left
        cases left
    -- Nothing is read behind an empty buffer, so the one that is held has data.
    · have some_ : held ≠ [] := by
        intro none_
        rw [reads.blocks, gone none_, List.take_nil] at empty
        exact empty rfl
      rw [BackupJob.blocksRead, reads.chunks_left b.blocksPerBuffer_pos empty, reads.split,
        List.mem_append, List.dropLast_cons_of_ne_nil (List.cons_ne_nil _ _)]
      cases compressed : b.compress p held with
      | none =>
        -- The loop ends here, and it was at the last block only if nothing is left.
        obtain ⟨after, round, -⟩ :=
          @SyncState.Holding.ends b p bitmap s taken held holding (Or.inr compressed)
        rw [round]
        constructor
        · intro read
          rw [reads.last_read end_ read]
          exact ⟨Or.inl read, by simp⟩
        · rintro ⟨read | left, ok⟩
          · exact read
          · have more := @chunks_ne_nil b _ (List.ne_nil_of_mem left)
            rw [List.dropLast_cons_of_ne_nil more,
              List.dropLast_cons_of_ne_nil (List.cons_ne_nil _ _)] at ok
            exact absurd compressed (ok _ List.mem_cons_self)
      | some record =>
        have further := reads.further (reads.below empty)
        have inside := reads.within within
        have rest := @ih (taken + 1) (b.syncRead p bitmap s.currentblock).1
          (b.afterRound p bitmap s record) (holding.round record) (fun none_ => absurd none_ empty)
          inside (by simp only [BackupJob.afterRound]; omega)
        rw [holding.goesOn some_ compressed]
        simp only
        rw [List.mem_append]
        refine (or_congr_right rest).trans ?_
        simp only [BackupJob.afterRound]
        by_cases none_ : markedFrom p bitmap (b.syncRead p bitmap s.currentblock).2 = []
        · simp [none_]
        · have notYet : last ∉ (b.syncRead p bitmap s.currentblock).1 :=
            fun read => none_ (reads.last_read end_ read)
          rw [List.dropLast_cons_of_ne_nil (chunks_ne_nil none_),
            List.dropLast_cons_of_ne_nil (List.cons_ne_nil _ _), List.forall_mem_cons]
          simp [notYet, compressed]

/-- The last block is read when it is marked and the loop does not stop early. -/
theorem blocksRead_last {multi : Bool} {last rounds : Nat} (end_ : last + 1 = maxblock p)
    (enough : maxblock p + 1 < rounds) :
    last ∈ b.blocksRead multi p bitmap rounds .start
      ↔ last ∈ markedFrom p bitmap 0 ∧ ¬ b.StopsEarly multi p bitmap := by
  simp only [BackupJob.StopsEarly, not_exists, not_and]
  cases multi with
  | false =>
    exact blocksRead_single end_ rfl (Nat.zero_le _) (by simp only [SyncState.start]; omega)
  | true =>
    obtain ⟨rounds, rfl⟩ : ∃ n, rounds = n + 1 := ⟨rounds - 1, by omega⟩
    have reads : ReadsChunk b.blocksPerBuffer p bitmap 0 (b.syncRead p bitmap 0) :=
      syncRead_readsChunk b p bitmap 0
    -- the first round fills a buffer; the ring reads what that round has left
    obtain ⟨after, first, holding, onward, -⟩ := firstRound b p bitmap
    have rest := @blocksRead_ring b p bitmap last rounds 0 (b.syncRead p bitmap 0).1 after end_ holding
      (fun none_ => by rw [onward]; exact (reads.none_left b.blocksPerBuffer_pos none_).2)
      (by rw [onward]; exact reads.within (Nat.zero_le _)) (by omega)
    rw [onward] at rest
    rw [BackupJob.blocksRead, first]
    simp only [List.mem_append, rest, SyncState.start, foundBeforeLast, if_true]
    rw [reads.split, List.mem_append]
    -- the last block is read in the ring exactly if the first round left something
    by_cases empty : (b.syncRead p bitmap 0).1 = []
    · obtain ⟨-, left⟩ := reads.none_left b.blocksPerBuffer_pos empty
      simp [empty, left]
    · have all := reads.chunks_left b.blocksPerBuffer_pos empty
      rw [reads.split] at all
      rw [all]
      by_cases none_ : markedFrom p bitmap (b.syncRead p bitmap 0).2 = []
      · simp [none_]
      · have notYet : last ∉ (b.syncRead p bitmap 0).1 :=
          fun read => none_ (reads.last_read end_ read)
        simp [notYet]

/-- The reads of a partition are inside exactly when its last block is whole, or is never read. -/
theorem syncRequests_inside_iff (b : BackupJob) (pointers : Nat → Nat) (bMultiThread : Bool)
    (p : PartitionInfo) (bitmap : Bytes) :
    (∀ rounds, ∀ r ∈ b.syncRequests pointers bMultiThread p bitmap rounds .start, r.Inside p)
      ↔ maxblock p * BLOCK_SIZE ≤ p.totalSectors ∨ maxblock p - 1 ∉ markedFrom p bitmap 0
        ∨ b.StopsEarly bMultiThread p bitmap := by
  simp only [syncRequests_inside]
  constructor
  · intro inside
    by_contra not_
    simp only [not_or, not_not] at not_
    obtain ⟨partial_, marked_, goesOn⟩ := not_
    -- A marked last block that is reached is read, and it ends behind the partition.
    have below := lt_of_mem_markedFrom marked_
    have end_ : maxblock p - 1 + 1 = maxblock p := by omega
    have read := (@blocksRead_last b p bitmap bMultiThread (maxblock p - 1) (maxblock p + 2) end_
      (Nat.lt_succ_self _)).mpr ⟨marked_, goesOn⟩
    have ends := inside _ _ read
    rw [end_] at ends
    exact partial_ ends
  · intro condition rounds block read
    have below := lt_of_mem_markedFrom (blocksRead_marked read)
    by_cases end_ : block + 1 = maxblock p
    · -- The last block was read, so it is marked and the loop did not stop before it.
      have more := blocksRead_mono (Nat.le_max_left rounds (maxblock p + 2)) read
      obtain ⟨marked_, goesOn⟩ := (blocksRead_last end_
        (Nat.lt_of_lt_of_le (Nat.lt_succ_self _) (Nat.le_max_right rounds _))).mp more
      have same : maxblock p - 1 = block := by omega
      rw [same] at condition
      rw [end_]
      exact condition.resolve_right (not_or.mpr ⟨not_not.mpr marked_, goesOn⟩)
    -- Every other block ends before the last one begins.
    · exact block_inside (by omega)

/-- A disk with a partition of 65 sectors, all of them in use, and one right behind it. -/
def oneSectorMore : BackupJob where
  disk _ := 0
  partitions := [{ bIfBackup := true, bootBegin := 2048, totalSectors := 65 },
    { bootBegin := 2113, totalSectors := 64 }]
  ScanPartitionData _ := some [3]
  LZ4_compress data := [data.headD 0]
  number := 3
  number_ge := by decide
  blocksPerBuffer := 5
  blocksPerBuffer_pos := by decide

/-- Of the second block only one sector belongs to the partition, but all 64 are asked for. -/
theorem backup_readsNextPartition :
    ¬ ∀ (b : BackupJob) (pointers : Nat → Nat) (bMultiThread : Bool) (p : PartitionInfo)
        (bitmap : Bytes) (rounds : Nat),
      ∀ r ∈ b.syncRequests pointers bMultiThread p bitmap rounds .start, r.Inside p := by
  intro inside
  -- The first round already reads both blocks, since the buffer has room for them.
  have second : readRequest { bIfBackup := true, bootBegin := 2048, totalSectors := 65 } BLOCK_BYTES 1
      ∈ oneSectorMore.syncRequests (fun _ => 0) true
        { bIfBackup := true, bootBegin := 2048, totalSectors := 65 } [3] 1 .start := by
    decide +kernel
  exact absurd (inside oneSectorMore (fun _ => 0) true _ [3] 1 _ second) (by decide)

end Okr
