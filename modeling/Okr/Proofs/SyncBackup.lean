import Okr.Backup.SyncBackup
import Okr.Proofs.BackupPlan

/-! The loop of `Backup` writes what is planned, with one buffer and with a ring of them. -/

namespace Okr

open BufferRing Chunks

variable {b : BackupJob} {p : PartitionInfo} {bitmap : Bytes}

/-- Every buffer of marked blocks from a block on can be compressed. -/
def Compresses (b : BackupJob) (p : PartitionInfo) (bitmap : Bytes) (currentblock : Nat) : Prop :=
  ∀ blocks ∈ chunks b.blocksPerBuffer (markedFrom p bitmap currentblock),
    b.compress p blocks = some (b.record p blocks)

/-- The units of the marked blocks from a block on. -/
def BackupJob.recordsFrom (b : BackupJob) (p : PartitionInfo) (bitmap : Bytes) (currentblock : Nat) :
    List UnitRecord :=
  (chunks b.blocksPerBuffer (markedFrom p bitmap currentblock)).map (b.record p)

/-- After a chunk was read, it and the rest can be compressed. -/
theorem Compresses.read {currentblock : Nat} {read : List Nat × Nat}
    (compresses : Compresses b p bitmap currentblock)
    (reads : ReadsChunk b.blocksPerBuffer p bitmap currentblock read) (some_ : read.1 ≠ []) :
    b.compress p read.1 = some (b.record p read.1) ∧ Compresses b p bitmap read.2 := by
  have left := reads.chunks_left b.blocksPerBuffer_pos some_
  unfold Compresses at compresses ⊢
  rw [left] at compresses
  exact ⟨compresses _ List.mem_cons_self, fun blocks mem => compresses blocks (List.mem_cons_of_mem _ mem)⟩

/-- The units left are that of the chunk read and those behind it. -/
theorem recordsFrom_read {currentblock : Nat} {read : List Nat × Nat}
    (reads : ReadsChunk b.blocksPerBuffer p bitmap currentblock read) (some_ : read.1 ≠ []) :
    b.recordsFrom p bitmap currentblock = b.record p read.1 :: b.recordsFrom p bitmap read.2 := by
  simp only [BackupJob.recordsFrom, reads.chunks_left b.blocksPerBuffer_pos some_, List.map_cons]

/-- A chunk that is not empty is read before the end of the partition. -/
theorem ReadsChunk.below {size currentblock : Nat} {read : List Nat × Nat}
    (reads : ReadsChunk size p bitmap currentblock read) (some_ : read.1 ≠ []) :
    currentblock < maxblock p := by
  by_contra last
  exact some_ (by rw [reads.blocks, markedFrom_end (by omega), List.take_nil])

/-- With one buffer the rounds write the units left. -/
theorem syncRounds_single (rounds : Nat) (s : SyncState)
    (compresses : Compresses b p bitmap s.currentblock)
    (within : s.currentblock ≤ maxblock p) (free : s.ring.valid 0 = false)
    (enough : maxblock p - s.currentblock < rounds) :
    ∃ last, b.syncRounds false p bitmap rounds s = some last
      ∧ last.written = s.written ++ b.recordsFrom p bitmap s.currentblock := by
  induction rounds generalizing s with
  | zero => omega
  | succ rounds ih =>
    have reads : ReadsChunk b.blocksPerBuffer p bitmap s.currentblock
        (b.syncRead p bitmap s.currentblock) := syncRead_readsChunk b p bitmap s.currentblock
    simp only [BackupJob.syncRounds, BackupJob.syncRound, Bool.false_eq_true, if_false, free,
      BackupJob.writeCompressed]
    by_cases empty : (b.syncRead p bitmap s.currentblock).1 = []
    · -- Nothing was read, and the loop ends.
      have none_ := (reads.none_left b.blocksPerBuffer_pos empty).1
      rw [if_pos empty]
      exact ⟨_, rfl, by simp [BackupJob.recordsFrom, none_]⟩
    · obtain ⟨now, later⟩ := compresses.read reads empty
      rw [if_neg empty, now]
      have further := reads.further (reads.below empty)
      have inside := reads.within within
      obtain ⟨last, ends, written⟩ := ih
        { s with
          ring := ((s.ring.fill 0 _).publish 0).clear 0
          currentblock := (b.syncRead p bitmap s.currentblock).2
          written := s.written ++ [b.record p (b.syncRead p bitmap s.currentblock).1] }
        later inside (by simp [Buffers.clear]) (by simp only; omega)
      refine ⟨last, ends, ?_⟩
      rw [written, recordsFrom_read reads empty, List.append_assoc, List.singleton_append]

/-- The unit of the buffer that waits to be compressed. -/
def BackupJob.heldRecords (b : BackupJob) (p : PartitionInfo) (held : List Nat) : List UnitRecord :=
  if held = [] then [] else [b.record p held]

/-- After a chunk was read, the rest can be compressed. -/
theorem Compresses.rest {currentblock : Nat} {read : List Nat × Nat}
    (compresses : Compresses b p bitmap currentblock)
    (reads : ReadsChunk b.blocksPerBuffer p bitmap currentblock read) :
    Compresses b p bitmap read.2 := by
  by_cases none_ : read.1 = []
  · have left := (reads.none_left b.blocksPerBuffer_pos none_).2
    intro blocks mem
    rw [left] at mem
    cases mem
  · exact (compresses.read reads none_).2

/-- The units left are that of the buffer read, if it has data, and those behind it. -/
theorem recordsFrom_split {currentblock : Nat} {read : List Nat × Nat}
    (reads : ReadsChunk b.blocksPerBuffer p bitmap currentblock read) :
    b.recordsFrom p bitmap currentblock = b.heldRecords p read.1 ++ b.recordsFrom p bitmap read.2 := by
  unfold BackupJob.heldRecords
  by_cases none_ : read.1 = []
  · obtain ⟨before, after⟩ := reads.none_left b.blocksPerBuffer_pos none_
    rw [if_pos none_, BackupJob.recordsFrom, BackupJob.recordsFrom, before, after]
    rfl
  · rw [if_neg none_, recordsFrom_read reads none_, List.singleton_append]

/-- Reading into the buffer behind the one that is held puts it into the ring. -/
theorem ring_read {s : SyncState} {taken : Nat} {queue : List (List Nat)} (blocks : List Nat)
    (holds : Holds b.number s.ring taken queue) (short : queue.length < b.number)
    (producer : s.producer = (taken + queue.length) % b.number) :
    s.ring.valid s.producer = false
      ∧ Holds b.number ((s.ring.fill s.producer blocks).publish s.producer) taken (queue ++ [blocks]) := by
  rw [producer]
  refine ⟨?_, (holds.fill short blocks).publish short (Function.update_self ..)⟩
  rw [holds.valid _ short]
  exact decide_eq_false (Nat.lt_irrefl _)

/-- Between two rounds a buffer of the ring is held, and the next one is free. -/
structure SyncState.Holding (b : BackupJob) (s : SyncState) (taken : Nat) (held : List Nat) :
    Prop where
  ring : Holds b.number s.ring taken [held]
  consumer : s.consumer = taken % b.number
  producer : s.producer = (taken + 1) % b.number

/-- The variables behind a round that writes the unit of the buffer held. -/
def BackupJob.afterRound (b : BackupJob) (p : PartitionInfo) (bitmap : Bytes) (s : SyncState)
    (record : UnitRecord) : SyncState :=
  { s with
    ring := ((s.ring.fill s.producer (b.syncRead p bitmap s.currentblock).1).publish
      s.producer).clear s.consumer
    producer := advance b.number s.producer
    consumer := advance b.number s.consumer
    currentblock := (b.syncRead p bitmap s.currentblock).2
    written := s.written ++ [record] }

section Holding

variable {s : SyncState} {taken : Nat} {held : List Nat}

/-- Behind the round the buffer that was read is held. -/
theorem SyncState.Holding.round (holding : s.Holding b taken held) (record : UnitRecord) :
    (b.afterRound p bitmap s record).Holding b (taken + 1) (b.syncRead p bitmap s.currentblock).1 := by
  obtain ⟨-, both⟩ := ring_read (b.syncRead p bitmap s.currentblock).1 holding.ring b.number_ge
    holding.producer
  constructor
  · rw [BackupJob.afterRound, holding.consumer]
    exact both.clear
  · rw [BackupJob.afterRound, holding.consumer]
    exact advance_mod b.number_pos taken
  · rw [BackupJob.afterRound, holding.producer]
    exact advance_mod b.number_pos (taken + 1)

/-- What a round does with the buffer that is held. -/
theorem SyncState.Holding.syncRound (holding : s.Holding b taken held) :
    b.syncRound true p bitmap s
      = some (b.writeCompressed p held
          { s with
            ring := ((s.ring.fill s.producer (b.syncRead p bitmap s.currentblock).1).publish
              s.producer).clear s.consumer
            producer := advance b.number s.producer
            consumer := advance b.number s.consumer
            currentblock := (b.syncRead p bitmap s.currentblock).2 }) := by
  have started : s.ring.valid s.consumer = true := by
    rw [holding.consumer, holding.ring.front_valid b.number_pos]
    rfl
  have content : s.ring.content s.consumer = held := by
    rw [holding.consumer]
    exact holding.ring.front_content
  obtain ⟨free, -⟩ := ring_read (b.syncRead p bitmap s.currentblock).1 holding.ring b.number_ge
    holding.producer
  simp only [BackupJob.syncRound, if_true, free, Bool.false_eq_true, if_false, started, content]

/-- The loop goes on behind a buffer that is compressed. -/
theorem SyncState.Holding.goesOn (holding : s.Holding b taken held) (some_ : held ≠ [])
    {record : UnitRecord} (compressed : b.compress p held = some record) :
    b.syncRound true p bitmap s = some (b.afterRound p bitmap s record, false) := by
  rw [holding.syncRound, BackupJob.writeCompressed, if_neg some_, compressed]
  rfl

/-- The loop ends at a buffer that is empty or cannot be compressed. -/
theorem SyncState.Holding.ends (holding : s.Holding b taken held)
    (failed : held = [] ∨ b.compress p held = none) :
    ∃ last, b.syncRound true p bitmap s = some (last, true) ∧ last.written = s.written := by
  rw [holding.syncRound, BackupJob.writeCompressed]
  split
  · exact ⟨_, rfl, rfl⟩
  · next some_ =>
    rw [failed.resolve_left some_]
    exact ⟨_, rfl, rfl⟩

end Holding

/-- With a ring the rounds write the unit that is held and the units left. -/
theorem syncRounds_ring (rounds : Nat) (s : SyncState) (taken : Nat) (held : List Nat)
    (holding : s.Holding b taken held)
    (ready : held ≠ [] → b.compress p held = some (b.record p held))
    (gone : held = [] → markedFrom p bitmap s.currentblock = [])
    (compresses : Compresses b p bitmap s.currentblock)
    (within : s.currentblock ≤ maxblock p)
    (enough : maxblock p - s.currentblock + (b.heldRecords p held).length < rounds) :
    ∃ last, b.syncRounds true p bitmap rounds s = some last
      ∧ last.written
        = s.written ++ (b.heldRecords p held ++ b.recordsFrom p bitmap s.currentblock) := by
  induction rounds generalizing s taken held with
  | zero => omega
  | succ rounds ih =>
    have reads : ReadsChunk b.blocksPerBuffer p bitmap s.currentblock
        (b.syncRead p bitmap s.currentblock) := syncRead_readsChunk b p bitmap s.currentblock
    rw [BackupJob.syncRounds]
    by_cases empty : held = []
    · -- The buffer that is held has no data, and the loop ends.
      obtain ⟨last, round, written⟩ := @SyncState.Holding.ends b p bitmap s taken held holding (Or.inl empty)
      rw [round]
      exact ⟨last, rfl, by simp [written, BackupJob.heldRecords, BackupJob.recordsFrom, empty, gone empty]⟩
    · rw [holding.goesOn empty (ready empty)]
      have one : b.heldRecords p held = [b.record p held] := if_neg empty
      rw [one, List.length_singleton] at enough
      have onward := reads.onward
      obtain ⟨last, ends, written⟩ := ih (b.afterRound p bitmap s (b.record p held)) (taken + 1)
        (b.syncRead p bitmap s.currentblock).1 (holding.round _)
        (fun some_ => (compresses.read reads some_).1)
        (fun none_ => (reads.none_left b.blocksPerBuffer_pos none_).2)
        (compresses.rest reads)
        (reads.within within)
        (by
          by_cases none_ : (b.syncRead p bitmap s.currentblock).1 = []
          · rw [BackupJob.heldRecords, if_pos none_, List.length_nil]
            show maxblock p - (b.syncRead p bitmap s.currentblock).2 + 0 < rounds
            omega
          · have below := reads.below none_
            have further := reads.further below
            rw [BackupJob.heldRecords, if_neg none_, List.length_singleton]
            show maxblock p - (b.syncRead p bitmap s.currentblock).2 + 1 < rounds
            omega)
      refine ⟨last, ends, ?_⟩
      rw [written, one, recordsFrom_split reads, BackupJob.afterRound, List.append_assoc]

/-- The first round only reads, since no buffer waits to be compressed. -/
theorem firstRound (b : BackupJob) (p : PartitionInfo) (bitmap : Bytes) :
    ∃ after, b.syncRound true p bitmap .start = some (after, false)
      ∧ after.Holding b 0 (b.syncRead p bitmap 0).1
      ∧ after.currentblock = (b.syncRead p bitmap 0).2 ∧ after.written = [] := by
  -- `Clean_BufferArray` leaves an empty ring.
  have clean : Holds b.number SyncState.start.ring 0 [] := .empty fun _ => rfl
  obtain ⟨-, both⟩ := ring_read (b.syncRead p bitmap 0).1 clean b.number_pos (Nat.zero_mod _).symm
  have next := advance_mod b.number_pos 0
  rw [Nat.zero_mod] at next
  exact ⟨_, rfl, ⟨both, (Nat.zero_mod _).symm, next⟩, rfl, rfl⟩

/-- The loop for one partition writes its units, in either mode. -/
theorem syncRounds_eq (bMultiThread : Bool) (rounds : Nat)
    (compresses : Compresses b p bitmap 0) (enough : maxblock p + 3 ≤ rounds) :
    ∃ last, b.syncRounds bMultiThread p bitmap rounds .start = some last
      ∧ last.written = b.recordsFrom p bitmap 0 := by
  -- with two threads the first round only reads; what it holds is one record behind
  cases bMultiThread with
  | false =>
    exact syncRounds_single rounds .start compresses (Nat.zero_le _) rfl
      (by simp only [SyncState.start]; omega)
  | true =>
    obtain ⟨rounds, rfl⟩ : ∃ n, rounds = n + 1 := ⟨rounds - 1, by omega⟩
    have reads : ReadsChunk b.blocksPerBuffer p bitmap 0 (b.syncRead p bitmap 0) :=
      syncRead_readsChunk b p bitmap 0
    obtain ⟨after, first, holding, onward, nothing⟩ := firstRound b p bitmap
    obtain ⟨last, ends, written⟩ := @syncRounds_ring b p bitmap rounds after 0
      (b.syncRead p bitmap 0).1 holding
      (fun some_ => (compresses.read reads some_).1)
      (fun none_ => by rw [onward]; exact (reads.none_left b.blocksPerBuffer_pos none_).2)
      (by rw [onward]; exact compresses.rest reads)
      (by rw [onward]; exact reads.within (Nat.zero_le _))
      (by
        have one : (b.heldRecords p (b.syncRead p bitmap 0).1).length ≤ 1 := by
          unfold BackupJob.heldRecords
          split <;> simp
        omega)
    refine ⟨last, ?_, ?_⟩
    · rw [BackupJob.syncRounds, first]
      exact ends
    · rw [written, nothing, onward, recordsFrom_split reads]
      rfl

/-- What is written of the buffers of a partition are its units. -/
theorem unitItems_buffersOf (i : Nat) :
    unitItems (b.buffersOf i p 0) = (b.recordsFrom p (b.bitmapOf i) 0).map .unit := by
  simp only [unitItems, BackupJob.buffersOf, BackupJob.recordsFrom, List.map_map]
  rfl

/-- The sizes used of the buffers of a partition are those of its units. -/
theorem usedsize_buffersOf (i : Nat) :
    (b.buffersOf i p 0).map (·.usedsize)
      = (b.recordsFrom p (b.bitmapOf i) 0).map (·.align_lz4_size) := by
  simp only [BackupJob.buffersOf, BackupJob.recordsFrom, List.map_map]
  rfl

/-- One partition is written as it is planned. -/
theorem syncPartition_eq (bMultiThread : Bool) {rounds i : Nat}
    (scans : b.ScanPartitionData i = some (b.bitmapOf i))
    (compresses : Compresses b p (b.bitmapOf i) 0) (enough : maxblock p + 3 ≤ rounds) :
    b.syncPartition bMultiThread rounds i p
      = some (.bitmap (b.bitmapOf i) :: unitItems (b.buffersOf i p 0),
        partitionSize p (b.buffersOf i p 0)) := by
  obtain ⟨last, ends, written⟩ := syncRounds_eq bMultiThread rounds compresses enough
  simp only [BackupJob.syncPartition, scans, ends, Option.map_some, written, unitItems_buffersOf,
    partitionSize, usedsize_buffersOf]

/-- All partitions are written as they are planned. -/
theorem syncFrom_eq (bMultiThread : Bool) {rounds : Nat} (succeeds : b.Succeeds) (i : Nat)
    (enough : ∀ p ∈ b.partitions, maxblock p + 3 ≤ rounds) :
    b.syncFrom bMultiThread rounds i (b.partitions.drop i)
      = some { items := b.itemsFor i, backupDataSize := b.sizesFor i } := by
  -- on the partitions left, each one either passed over or written whole
  induction left : b.partitions.length - i generalizing i with
  | zero =>
    have last : b.partitions.length ≤ i := by omega
    rw [List.drop_eq_nil_of_le last, BackupJob.itemsFor, BackupJob.sizesFor, plan_end last,
      plan_end last]
    rfl
  | succ left ih =>
    have inside : i < b.partitions.length := by omega
    have found : b.partitions[i]? = some b.partitions[i] := List.getElem?_eq_getElem inside
    have rest := ih (i + 1) (by omega)
    rw [List.drop_eq_getElem_cons inside]
    unfold BackupJob.syncFrom
    cases backed : (b.partitions[i]).bIfBackup with
    | false =>
      rw [if_pos (by decide), rest]
      simp only [BackupJob.itemsFor, BackupJob.sizesFor, plan_skip found backed]
    | true =>
      have written := syncPartition_eq bMultiThread (succeeds.scans i _ found backed)
        (succeeds.compresses i _ found backed) (enough _ (List.getElem_mem inside))
      have own := BackupJob.backed_of_found found backed
      rw [if_neg (by decide), written, rest, itemsFor_backed own, sizesFor_backed own,
        BackupJob.entry_eq found]
      rfl

/-- The backup without the second thread for the disk leaves what is planned. -/
theorem sync_eq (bMultiThread : Bool) {rounds : Nat} (succeeds : b.Succeeds)
    (enough : ∀ p ∈ b.partitions, maxblock p + 3 ≤ rounds) :
    b.sync bMultiThread rounds = some b.planned :=
  syncFrom_eq bMultiThread succeeds 0 enough

end Okr
