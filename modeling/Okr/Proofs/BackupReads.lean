import Okr.Proofs.BackupPartition
import Okr.Proofs.SyncBackup

/-! The reading thread of the backup hands over what is planned, in order. -/

namespace Okr

open BufferRing Chunks

variable {b : BackupJob} {s : BackupState}

/-- The buffers with data among those handed over. -/
def used (buffers : List BackupBuffer) : List BackupBuffer :=
  buffers.filter fun c => decide (0 < c.usedsize)

/-- What `DiskReadThread` has still to hand over at each of its places. -/
def ReadThread.Remaining (b : BackupJob) (ring : Buffers BackupBuffer) (t : ReadThread)
    (rem : List BackupBuffer) : Prop :=
  let p := b.entry t.i
  let rest := b.buffersOf t.i p t.currentblock ++ b.buffersFor (t.i + 1)
  match t.pc with
  | .next => rem = b.buffersFor t.i
  | .waitWrite | .waitCompleted | .checkCompleted | .clearBitmap | .scan | .setBitmapValid
  | .setPartition => rem = b.buffersOf t.i p 0 ++ b.buffersFor (t.i + 1)
  | .compress _ blocks =>
    (b.compress p blocks = some (b.record p blocks) ∧ rem = b.buffer p blocks :: rest)
      ∧ Compresses b p (b.bitmapOf t.i) t.currentblock
  | .fill _ readn unit =>
    (0 < unit.align_lz4_size ∧ rem = ⟨readn, unit.align_lz4_size, unit⟩ :: rest)
      ∧ Compresses b p (b.bitmapOf t.i) t.currentblock
  | .publish slot true =>
    (0 < (ring.content slot).usedsize ∧ rem = ring.content slot :: rest)
      ∧ Compresses b p (b.bitmapOf t.i) t.currentblock
  | .publish _ false =>
    (b.buffersOf t.i p t.currentblock = [] ∧ rem = rest)
      ∧ Compresses b p (b.bitmapOf t.i) t.currentblock
  | .leave | .finished => True
  | _ => rem = rest ∧ Compresses b p (b.bitmapOf t.i) t.currentblock

/-- The buffers with data are those planned, and at most stale ones behind all of them. -/
structure HandsOver (b : BackupJob) (published rem : List BackupBuffer) : Prop where
  order : ∃ done extra, used published = done ++ extra ∧ done ++ rem = b.buffersFor 0
    ∧ (extra = [] ∨ rem = [])

/-- `DiskReadThread` keeps to the plan. -/
def OnReadPlan (b : BackupJob) (s : BackupState) : Prop :=
  ∃ rem, HandsOver b s.read.published rem ∧ s.read.Remaining b s.shared.ring rem

/-- Data that could be compressed takes room. -/
theorem compress_pos {p : PartitionInfo} {blocks : List Nat} {record : UnitRecord}
    (compressed : b.compress p blocks = some record) : 0 < record.align_lz4_size := by
  -- The head alone takes the smallest size.
  have head : ∀ n, 0 < calcAliginSize (n + LZ4_BUFFER_HEAD_SIZE) := by
    intro n
    simp only [calcAliginSize, LZ4_BUFFER_HEAD_SIZE, ALGIN_SIZE_BYTE]
    omega
  simp only [BackupJob.compress, compressBuffer] at compressed
  split_ifs at compressed <;>
    · rw [← Option.some_inj.mp compressed]
      exact head _

/-- Nothing is planned behind the last data. -/
theorem buffersFor_lastData {i : Nat} (last : b.LastData i) : b.buffersFor (i + 1) = [] := by
  induction left : b.partitions.length - (i + 1) generalizing i with
  | zero => exact plan_end (by omega)
  | succ left ih =>
    -- The next partition has no data, and neither have those behind it.
    have inside : i + 1 < b.partitions.length := by omega
    have found : b.partitions[i + 1]? = some b.partitions[i + 1] := List.getElem?_eq_getElem inside
    have later := ih (i := i + 1) (fun k below behind => last k below (by omega)) (by omega)
    cases backed : (b.partitions[i + 1]).bIfBackup with
    | false => exact (plan_skip found backed).trans later
    | true =>
      have own := BackupJob.backed_of_found found backed
      have none_ := last (i + 1) inside (Nat.lt_succ_self i) own.2
      rw [buffersFor_backed own, later, BackupJob.buffersOf, none_]
      rfl

/-- The buffers used before and after one more was handed over. -/
theorem used_append (buffers more : List BackupBuffer) :
    used (buffers ++ more) = used buffers ++ used more := List.filter_append ..

/-- A buffer with data is handed over as planned. -/
theorem HandsOver.publish {published rem : List BackupBuffer} {c : BackupBuffer}
    (hands : HandsOver b published (c :: rem)) (some_ : 0 < c.usedsize) :
    HandsOver b (published ++ [c]) rem := by
  obtain ⟨done, extra, before, plan, fine⟩ := hands
  have none_ : extra = [] := fine.resolve_right (by simp)
  refine ⟨done ++ [c], [], ?_, ?_, .inl rfl⟩
  · rw [used_append, before, none_]
    simp [used, some_]
  · rw [List.append_assoc]
    exact plan

/-- A buffer without data changes nothing. -/
theorem HandsOver.publishEmpty {published rem : List BackupBuffer} {c : BackupBuffer}
    (hands : HandsOver b published rem) (empty : c.usedsize = 0) :
    HandsOver b (published ++ [c]) rem := by
  obtain ⟨done, extra, before, plan, fine⟩ := hands
  refine ⟨done, extra, ?_, plan, fine⟩
  rw [used_append, before]
  simp [used, empty]

/-- Behind all that is planned a stale buffer does no harm. -/
theorem HandsOver.publishStale {published : List BackupBuffer} (c : BackupBuffer)
    (hands : HandsOver b published []) : HandsOver b (published ++ [c]) [] := by
  obtain ⟨done, extra, before, plan, -⟩ := hands
  exact ⟨done, extra ++ used [c], by rw [used_append, before, List.append_assoc], plan, .inr rfl⟩

/-- Where all that is planned was taken, nothing remains. -/
theorem HandsOver.all_taken {published rem more : List BackupBuffer}
    (hands : HandsOver b published rem) (taken : used published = b.buffersFor 0 ++ more) :
    rem = [] := by
  obtain ⟨done, extra, before, plan, fine⟩ := hands
  rcases fine with none_ | none_
  · rw [taken, ← plan, none_, List.append_nil, List.append_assoc] at before
    exact (List.append_eq_nil_iff.mp (List.append_right_eq_self.mp before)).1
  · exact none_

/-- A step of `DiskReadThread` that hands nothing over. -/
theorem OnReadPlan.quiet {t : ReadThread} {g : BackupShared} {rem : List BackupBuffer}
    (hands : HandsOver b s.read.published rem) (published : t.published = s.read.published)
    (remaining : t.Remaining b g.ring rem) : OnReadPlan b { s with read := t, shared := g } :=
  ⟨rem, by rw [published]; exact hands, remaining⟩

/-- Each step of `DiskReadThread` that meets no gap keeps to the plan. -/
theorem OnReadPlan.readStep (plan : OnReadPlan b s) (agree : BackupOnPartition b s)
    (succeeds : b.Succeeds) (keeps : Keeps b s .read)
    (taken : s.shared.bCompleted = true → s.read.pc ≠ .finished →
      ∃ more, used s.read.published = b.buffersFor 0 ++ more)
    {t : ReadThread} {g : BackupShared} (step : ReadStep b s.read s.shared t g) :
    OnReadPlan b { s with read := t, shared := g } := by
  obtain ⟨rem, hands, remaining⟩ := plan
  have read := agree.read
  cases step with
  | allRead pc => exact .quiet hands rfl trivial
  | skip pc found backed =>
    simp only [ReadThread.Remaining, pc] at remaining
    refine .quiet hands rfl ?_
    simp only [ReadThread.Remaining, pc]
    exact remaining.trans (plan_skip found backed)
  | waitWrite pc found backed =>
    simp only [ReadThread.Remaining, pc] at remaining
    refine .quiet hands rfl ?_
    simp only [ReadThread.Remaining]
    rw [remaining, buffersFor_backed (BackupJob.backed_of_found found backed)]
  | stopped pc => exact .quiet hands rfl trivial
  | scanFailed pc scan =>
    simp only [ReadThread.OnPartition, pc] at read
    rw [succeeds.scans _ _ read.1.1 read.1.2] at scan
    cases scan
  | setPartition pc =>
    simp only [ReadThread.Remaining, pc] at remaining
    simp only [ReadThread.OnPartition, pc] at read
    exact .quiet hands rfl ⟨remaining, succeeds.compresses _ _ read.1.1 read.1.2⟩
  | unitsRead pc last =>
    simp only [ReadThread.Remaining, pc] at remaining
    refine .quiet hands rfl ?_
    -- Behind the last block nothing is planned for the partition.
    simp only [ReadThread.Remaining]
    rw [remaining.1, BackupJob.buffersOf, markedFrom_end (by omega)]
    rfl
  | noBuffer pc completed =>
    obtain ⟨more, all⟩ := taken completed (by simp [pc])
    have none_ := hands.all_taken all
    simp only [ReadThread.Remaining, pc] at remaining
    refine .quiet hands rfl ?_
    simp only [ReadThread.Remaining]
    have both := remaining.1
    rw [none_] at both ⊢
    exact (List.append_eq_nil_iff.mp both.symm).2.symm
  | @readNothing slot pc empty =>
    simp only [ReadThread.OnPartition, pc] at read
    simp only [ReadThread.Remaining, pc] at remaining
    have reads := asyncRead_readsChunk b (b.entry s.read.i) s.shared.databitmap s.read.currentblock
    obtain ⟨before, after⟩ := reads.none_left b.blocksPerBuffer_pos empty
    have later := remaining.2.rest (by rw [← read.2.2]; exact reads)
    rw [read.2.2] at before after later
    -- Nothing was left of the partition, and nothing is left of it now.
    have none_ : b.buffersOf s.read.i (b.entry s.read.i) s.read.currentblock = [] := by
      rw [BackupJob.buffersOf, before]
      rfl
    have still : b.buffersOf s.read.i (b.entry s.read.i)
        (b.asyncRead (b.entry s.read.i) (b.bitmapOf s.read.i) s.read.currentblock).2 = [] := by
      rw [BackupJob.buffersOf, after]
      rfl
    refine .quiet hands rfl ?_
    simp only [ReadThread.Remaining]
    rw [read.2.2]
    refine ⟨⟨still, ?_⟩, later⟩
    rw [remaining.1, none_, still]
  | @readUnit slot pc some_ =>
    simp only [ReadThread.OnPartition, pc] at read
    simp only [ReadThread.Remaining, pc] at remaining
    have reads := asyncRead_readsChunk b (b.entry s.read.i) s.shared.databitmap s.read.currentblock
    rw [read.2.2] at reads some_
    obtain ⟨now, later⟩ := remaining.2.read reads some_
    refine .quiet hands rfl ?_
    simp only [ReadThread.Remaining]
    rw [read.2.2]
    refine ⟨⟨now, ?_⟩, later⟩
    rw [remaining.1, BackupJob.buffersOf, reads.chunks_left b.blocksPerBuffer_pos some_]
    rfl
  | compressFailed pc failed =>
    simp only [ReadThread.Remaining, pc] at remaining
    rw [remaining.1.1] at failed
    cases failed
  | @compress slot blocks unit pc compressed =>
    simp only [ReadThread.Remaining, pc] at remaining
    have own : unit = b.record (b.entry s.read.i) blocks :=
      Option.some_inj.mp (compressed.symm.trans remaining.1.1)
    refine .quiet hands rfl ⟨⟨compress_pos compressed, ?_⟩, remaining.2⟩
    rw [remaining.1.2, own]
    rfl
  | @fill slot readn unit pc =>
    simp only [ReadThread.Remaining, pc] at remaining
    refine .quiet hands rfl ?_
    simp only [ReadThread.Remaining, Buffers.fill, Function.update_self]
    exact remaining
  | @publish slot filled pc =>
    cases filled with
    | true =>
      simp only [ReadThread.Remaining, pc] at remaining
      obtain ⟨⟨some_, left⟩, later⟩ := remaining
      rw [left] at hands
      exact ⟨_, hands.publish some_, rfl, later⟩
    | false =>
      simp only [ReadThread.Remaining, pc] at remaining
      refine ⟨rem, ?_, remaining.1.2, remaining.2⟩
      rcases keeps slot (by rw [pc]; rfl) with empty | last
      · exact hands.publishEmpty empty
      · -- No buffer is planned behind the stale one.
        have none_ : rem = [] := by
          rw [remaining.1.2, remaining.1.1, buffersFor_lastData last]
          rfl
        rw [none_] at hands ⊢
        exact hands.publishStale _
  | leave pc => exact .quiet hands rfl trivial
  | stay pc => exact ⟨rem, hands, remaining⟩
  | _ => exact .quiet hands rfl (by simp_all [ReadThread.Remaining])

/-- Each step of `BackupWithAsyncIo` leaves what the other thread has read. -/
theorem OnReadPlan.mainStep (plan : OnReadPlan b s) {goesOn finished : Bool} {m : BackupThread}
    {g : BackupShared} (step : SaveStep b goesOn finished s.main s.shared m g) :
    OnReadPlan b { s with main := m, shared := g } := by
  obtain ⟨rem, hands, remaining⟩ := plan
  -- Giving a buffer back keeps what is in it.
  have content : g.ring.content = s.shared.ring.content := by
    cases step with
    | _ => rfl
  refine ⟨rem, hands, ?_⟩
  unfold ReadThread.Remaining at remaining ⊢
  simp only [content]
  exact remaining

end Okr
