import Okr.Proofs.BackupReads
import Mathlib.Algebra.BigOperators.Ring.List

/-! The writing thread of the backup writes what is planned, in order. -/

namespace Okr

open BufferRing Chunks

variable {b : BackupJob} {s : BackupState} {i : Nat} {items : List FileItem}
  {taken : List BackupBuffer} {sizes : List (Nat × Nat)}

/-- What is written, taken and set so far is the plan without the partitions from one on. -/
structure UpTo (b : BackupJob) (i : Nat) (items : List FileItem) (taken : List BackupBuffer)
    (sizes : List (Nat × Nat)) : Prop where
  items : items ++ b.itemsFor i = b.itemsFor 0
  buffers : used taken ++ b.buffersFor i = b.buffersFor 0
  sizes : sizes ++ b.sizesFor i = b.sizesFor 0

/-- Within a partition, what is written and taken is the plan without the buffers left. -/
structure WithinPartition (b : BackupJob) (i total totalwrite : Nat) (items : List FileItem)
    (taken : List BackupBuffer) (sizes : List (Nat × Nat)) (left : List BackupBuffer) : Prop where
  items : items ++ (unitItems left ++ b.itemsFor (i + 1)) = b.itemsFor 0
  buffers : used taken ++ (left ++ b.buffersFor (i + 1)) = b.buffersFor 0
  sizes : sizes ++ (i, totalwrite + (left.map (·.usedsize)).sum) :: b.sizesFor (i + 1)
    = b.sizesFor 0
  total : total = (left.map (·.srcsize)).sum
  data : ∀ c ∈ left, 0 < c.srcsize ∧ 0 < c.usedsize

/-- `BackupWithAsyncIo` keeps to the plan at each of its places. -/
def OnSavePlan (b : BackupJob) (s : BackupState) : Prop :=
  let m := s.main
  let within := WithinPartition b m.i m.total m.totalwrite m.items
  let sizes := s.shared.backupDataSize
  match m.pc with
  | .next | .waitBitmap | .waitCompleted | .checkPartition | .countTotal =>
    UpTo b m.i m.items m.consumed sizes
  | .writeBitmap =>
    UpTo b m.i m.items m.consumed sizes
      ∧ m.total = ((b.buffersOf m.i (b.entry m.i) 0).map (·.srcsize)).sum
  | .setWrite | .nextUnit => ∃ left, within m.consumed sizes left
  | .clear _ => ∀ c, s.pending.head? = some c → ∃ left, within (m.consumed ++ [c]) sizes left
  | .done ret | .join ret | .returned ret =>
    ret = 0 ∧ UpTo b b.partitions.length m.items m.consumed sizes
  | _ => (∃ left, within m.consumed sizes left) ∧ m.total ≠ 0

/-- The start, with nothing written. -/
theorem OnSavePlan.start (b : BackupJob) : OnSavePlan b .start := by
  show UpTo b 0 [] [] []
  exact ⟨rfl, rfl, rfl⟩

/-- The bytes counted in the bitmap are those of the planned buffers. -/
theorem countTotal_eq (b : BackupJob) (i : Nat) (p : PartitionInfo) :
    countTotal p (b.bitmapOf i) = ((b.buffersOf i p 0).map (·.srcsize)).sum := by
  -- The chunks together have the marked blocks of the partition.
  have all : ((chunks b.blocksPerBuffer (markedFrom p (b.bitmapOf i) 0)).map List.length).sum
      = (markedFrom p (b.bitmapOf i) 0).length := by
    rw [← List.length_flatten, flatten_chunks b.blocksPerBuffer_pos]
  rw [BackupJob.buffersOf, List.map_map]
  show _ = ((chunks b.blocksPerBuffer (markedFrom p (b.bitmapOf i) 0)).map
    fun blocks => blocks.length * BLOCK_BYTES).sum
  rw [List.sum_map_mul_right, all, countTotal, List.range_eq_range']
  rfl

/-- The planned buffers have data. -/
theorem buffersOf_data (succeeds : b.Succeeds) (backed : b.Backed i) :
    ∀ c ∈ b.buffersOf i (b.entry i) 0, 0 < c.srcsize ∧ 0 < c.usedsize := by
  intro c mem
  obtain ⟨blocks, chunk, rfl⟩ := List.mem_map.mp mem
  have some_ := List.length_pos_iff.mpr (ne_nil_of_mem_chunks b.blocksPerBuffer_pos chunk)
  refine ⟨Nat.mul_pos some_ (by decide), ?_⟩
  exact compress_pos (succeeds.compresses i _ backed.1 backed.2 blocks chunk)

/-- What is left with a partition that is passed over is left without it. -/
theorem UpTo.skip {p : PartitionInfo} (upTo : UpTo b i items taken sizes)
    (found : b.partitions[i]? = some p) (backed : p.bIfBackup = false) :
    UpTo b (i + 1) items taken sizes where
  items := by
    rw [← upTo.items]
    exact congrArg _ (plan_skip found backed).symm
  buffers := by
    rw [← upTo.buffers]
    exact congrArg _ (plan_skip found backed).symm
  sizes := by
    rw [← upTo.sizes]
    exact congrArg _ (plan_skip found backed).symm

/-- Behind the last partition nothing is left. -/
theorem UpTo.all (upTo : UpTo b i items taken sizes) (last : b.partitions.length ≤ i) :
    UpTo b b.partitions.length items taken sizes where
  items := by
    rw [← upTo.items, BackupJob.itemsFor, plan_end last, plan_end (Nat.le_refl _)]
  buffers := by
    rw [← upTo.buffers, BackupJob.buffersFor, plan_end last, plan_end (Nat.le_refl _)]
  sizes := by
    rw [← upTo.sizes, BackupJob.sizesFor, plan_end last, plan_end (Nat.le_refl _)]

/-- With the bitmap written, the buffers of the partition are left. -/
theorem UpTo.enter (upTo : UpTo b i items taken sizes) (succeeds : b.Succeeds)
    (backed : b.Backed i) :
    WithinPartition b i ((b.buffersOf i (b.entry i) 0).map (·.srcsize)).sum
      (bitmapSize (b.entry i)) (items ++ [.bitmap (b.bitmapOf i)]) taken sizes
      (b.buffersOf i (b.entry i) 0) where
  items := by
    rw [← upTo.items, itemsFor_backed backed, List.append_assoc]
    rfl
  buffers := by rw [← upTo.buffers, buffersFor_backed backed]
  sizes := by
    rw [← upTo.sizes, sizesFor_backed backed]
    rfl
  total := rfl
  data := buffersOf_data succeeds backed

/-- When no bytes are left, all buffers of the partition were written. -/
theorem WithinPartition.leave {totalwrite : Nat} {left : List BackupBuffer}
    (within : WithinPartition b i 0 totalwrite items taken sizes left) :
    UpTo b (i + 1) items taken (sizes ++ [(i, totalwrite)]) := by
  have none_ : left = [] := by
    cases left with
    | nil => rfl
    | cons c rest =>
      -- A buffer that is left would have bytes.
      have total := within.total
      have some_ := (within.data c List.mem_cons_self).1
      rw [List.map_cons, List.sum_cons] at total
      omega
  subst none_
  exact ⟨within.items, within.buffers, by simpa using within.sizes⟩

/-- The next buffer with data that was handed over is the next one planned. -/
theorem HandsOver.next {published rem rest more : List BackupBuffer} {c d : BackupBuffer}
    (hands : HandsOver b published rem) (order : used published = taken ++ c :: rest)
    (plan : taken ++ d :: more = b.buffersFor 0) : c = d := by
  obtain ⟨done, extra, before, all, fine⟩ := hands
  rw [order] at before
  rw [← plan] at all
  rcases fine with none_ | none_
  · -- What was handed over is part of the plan.
    rw [none_, List.append_nil] at before
    rw [← before, List.append_assoc, List.cons_append] at all
    exact (List.cons.inj (List.append_cancel_left all)).1
  · -- The whole plan was handed over.
    rw [none_, List.append_nil] at all
    rw [all, List.append_assoc, List.cons_append] at before
    exact (List.cons.inj (List.append_cancel_left before)).1

/-- Writing the next buffer planned leaves those behind it. -/
theorem WithinPartition.write {total totalwrite : Nat} {c : BackupBuffer}
    {later : List BackupBuffer}
    (within : WithinPartition b i total totalwrite items taken sizes (c :: later)) :
    WithinPartition b i (total - c.srcsize) (totalwrite + c.usedsize) (items ++ [.unit c.unit])
      (taken ++ [c]) sizes later where
  items := by
    rw [← within.items, List.append_assoc]
    rfl
  buffers := by
    have some_ := (within.data c List.mem_cons_self).2
    rw [← within.buffers, used_append, List.append_assoc]
    simp [used, some_]
  sizes := by
    rw [← within.sizes, List.map_cons, List.sum_cons, Nat.add_assoc]
  total := by
    rw [within.total, List.map_cons, List.sum_cons, Nat.add_sub_cancel_left]
  data d mem := within.data d (List.mem_cons_of_mem c mem)

/-- A buffer without data leaves the same buffers when it is taken. -/
theorem WithinPartition.pass {total totalwrite : Nat} {c : BackupBuffer}
    {left : List BackupBuffer} (empty : ¬ c.usedsize > 0)
    (within : WithinPartition b i total totalwrite items taken sizes left) :
    WithinPartition b i total totalwrite items (taken ++ [c]) sizes left where
  items := within.items
  buffers := by
    rw [← within.buffers, used_append]
    simp [used, empty]
  sizes := within.sizes
  total := within.total
  data := within.data

/-- Each step of `DiskReadThread` leaves what the other thread has to write. -/
theorem OnSavePlan.readStep (plan : OnSavePlan b s) (onRing : BackupOnRing b s)
    (agree : BackupOnPartition b s) (succeeds : b.Succeeds) {t : ReadThread} {g : BackupShared}
    (step : ReadStep b s.read s.shared t g) : OnSavePlan b { s with read := t, shared := g } := by
  have read := agree.read
  -- The thread hands over buffers, and sets a size only for a partition that was not scanned.
  have kept : g.backupDataSize = s.shared.backupDataSize
      ∧ ∃ more, t.published = s.read.published ++ more := by
    cases step with
    | scanFailed pc scan =>
      simp only [ReadThread.OnPartition, pc] at read
      rw [succeeds.scans _ _ read.1.1 read.1.2] at scan
      cases scan
    | publish pc => exact ⟨rfl, _, rfl⟩
    | _ => exact ⟨rfl, [], (List.append_nil _).symm⟩
  obtain ⟨same, more, published⟩ := kept
  unfold OnSavePlan at plan ⊢
  simp only [same]
  cases pc : s.main.pc <;> simp only [pc] at plan ⊢ <;> try exact plan
  case clear slot =>
    -- The buffer that is next stays the next one.
    have before := onRing.next_content (by rw [pc]; rfl)
    intro c head
    refine plan c ?_
    rw [← head, before, BackupState.pending, published, List.head?_drop,
      List.getElem?_append_left, ← List.head?_drop]
    · exact before.symm
    · exact List.getElem?_eq_some_iff.mp ((List.head?_drop ..).symm.trans before) |>.1

/-- Each step of `BackupWithAsyncIo` that meets no gap keeps to the plan. -/
theorem OnSavePlan.mainStep (plan : OnSavePlan b s) (onRing : BackupOnRing b s)
    (agree : BackupOnPartition b s) (succeeds : b.Succeeds) {rem : List BackupBuffer}
    (hands : HandsOver b s.read.published rem) {goesOn finished : Bool} {m : BackupThread}
    {g : BackupShared} (keeps : Keeps b s (.main goesOn))
    (step : SaveStep b goesOn finished s.main s.shared m g) :
    OnSavePlan b { s with main := m, shared := g } := by
  have main := agree.main
  obtain ⟨on, asks, current⟩ := keeps
  cases step with
  | allSaved pc found =>
    simp only [OnSavePlan, pc] at plan
    exact ⟨rfl, plan.all (List.getElem?_eq_none_iff.mp found)⟩
  | skip pc found backed =>
    simp only [OnSavePlan, pc] at plan
    simp only [OnSavePlan, pc]
    exact plan.skip found backed
  | leaveOut pc invalid =>
    rcases invalid with bad | other
    · exact absurd bad (agree.valid _)
    · exact absurd (current pc) other
  | countTotal pc =>
    simp only [OnSavePlan, pc] at plan
    refine ⟨plan, ?_⟩
    show countTotal _ s.shared.databitmap = _
    rw [agree.bitmap (.inl pc), countTotal_eq]
  | writeBitmap pc =>
    simp only [OnSavePlan, pc] at plan
    simp only [BackupThread.OnPartition, pc] at main
    have enter := plan.1.enter succeeds main.1
    rw [← plan.2, ← agree.bitmap (.inr pc)] at enter
    exact ⟨_, enter⟩
  | partitionSaved pc all =>
    simp only [OnSavePlan, pc, all] at plan
    obtain ⟨left, within⟩ := plan
    exact within.leave
  | moreUnits pc more =>
    simp only [OnSavePlan, pc] at plan
    exact ⟨plan, more⟩
  | @writeUnit slot pc some_ =>
    simp only [OnSavePlan, pc] at plan
    obtain ⟨⟨left, within⟩, more⟩ := plan
    intro c head
    have first : s.shared.ring.content slot = c :=
      Option.some_inj.mp ((onRing.next_content (by rw [pc]; rfl)).symm.trans head)
    rw [first] at some_ ⊢
    -- The bytes that are left are those of a planned buffer, which is the one handed over.
    cases left with
    | nil => exact absurd within.total more
    | cons d later =>
      have pending : c :: s.pending.tail = s.pending := List.cons_head?_tail head
      have order : used s.read.published = used s.main.consumed ++ c :: used s.pending.tail := by
        rw [← onRing.order, ← pending, used_append]
        simp [used, some_]
      obtain rfl := hands.next order within.buffers
      exact ⟨later, within.write⟩
  | @passUnit slot pc empty =>
    simp only [OnSavePlan, pc] at plan
    obtain ⟨⟨left, within⟩, -⟩ := plan
    intro c head
    have first : s.shared.ring.content slot = c :=
      Option.some_inj.mp ((onRing.next_content (by rw [pc]; rfl)).symm.trans head)
    rw [first] at empty
    exact ⟨left, within.pass empty⟩
  | @clear slot pc =>
    simp only [OnSavePlan, pc] at plan
    exact plan _ (onRing.next_content (by rw [pc]; rfl))
  | giveUp consumer pc completed =>
    rw [asks pc] at completed
    cases completed
  | stop pc why =>
    rcases why with off | failed
    · rw [on] at off
      cases off
    · exact absurd agree.compressed (by omega)
  | completed pc =>
    simp only [OnSavePlan, pc] at plan
    exact plan
  | joined pc =>
    simp only [OnSavePlan, pc] at plan
    exact plan
  | stay => exact plan
  | _ =>
    unfold OnSavePlan at plan
    simp_all only
    exact plan

end Okr
