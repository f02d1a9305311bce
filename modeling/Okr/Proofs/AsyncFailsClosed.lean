import Okr.Proofs.AsyncPlan

/-! When the restore with two threads reports success only for a restore that was complete. -/

namespace Okr

open BufferRing Runs

variable {r : AsyncRestore} {s : AsyncState}

/-- The buffer the thread decompresses next. -/
def WritePc.decompressing : WritePc → Option Nat
  | .decompress slot => some slot
  | _ => none

/-- The backed-up partitions behind a partition. -/
def RestoreImage.behind (image : RestoreImage) (i : Nat) : List Nat :=
  image.backedUp.filter fun k => decide (i < k)

/--
A failed decompression makes the reader wait for something that does not come any more.

That is a free buffer, when more units follow than the ring has buffers.
Or it is the start of the partition before, when two further partitions follow.
-/
def Noticed (r : AsyncRestore) (unit i : Nat) : Prop :=
  ∀ units ∈ r.image.units, unit + 1 + r.number < units.length ∨ 2 ≤ (r.image.behind i).length

/-- Nothing is lost at the end, the disk takes every write, and a bad unit is noticed. -/
def FailsSafely (r : AsyncRestore) (s : AsyncState) : AsyncAction → Prop
  | .main _ => True
  | .write answer =>
    TestKeeps s (.write answer) ∧ (s.write.Calls → answer = true)
      ∧ ∀ slot ∈ s.write.pc.decompressing,
        decompressBuffer r.LZ4_decompress_safe (s.shared.ring.content slot) = none →
          Noticed r s.write.consumed.length (s.shared.ring.content slot).partitionindex

instance (unit i : Nat) : Decidable (Noticed r unit i) :=
  inferInstanceAs (Decidable (∀ units ∈ r.image.units, _ ∨ _))

instance (w : WriteThread) : Decidable w.Calls := inferInstanceAs (Decidable (_ ∧ _))

instance : ∀ action, Decidable (FailsSafely r s action)
  | .main _ => instDecidableTrue
  | .write _ => inferInstanceAs (Decidable (_ ∧ _ ∧ ∀ slot ∈ s.write.pc.decompressing, _))

/-- What the thread knows of the data and of the disk, and of a failure. -/
structure OnData (r : AsyncRestore) (s : AsyncState) : Prop where
  next : ∀ slot data, s.write.pc = .clear slot data → ∀ b, s.pending.head? = some b →
    data = decompressBuffer r.LZ4_decompress_safe b
      ∧ (data = none → Noticed r s.write.consumed.length b.partitionindex)
  data : ∀ t ∈ s.write.consumed, t.data = decompressBuffer r.LZ4_decompress_safe t.buffer
  calls : ∀ call ∈ s.write.calls, call.succeeded = true
  failed : Failed s → s.write.pc.Left ∧ ∃ i, s.shared.partition_write = some i
    ∧ ∀ units ∈ r.image.units,
      s.write.consumed.length + r.number < units.length ∨ 2 ≤ (r.image.behind i).length

/-- A return of 0 stands for a restore in which nothing went wrong. -/
def FailsClosed (r : AsyncRestore) (s : AsyncState) : Prop :=
  s.main.pc = .returned 0 →
    r.image.units = some (s.write.consumed.map (·.buffer))
      ∧ (∀ t ∈ s.write.consumed, ∃ data,
        decompressBuffer r.LZ4_decompress_safe t.buffer = some data)
      ∧ ∀ call ∈ s.write.calls, call.succeeded = true

/-- The other thread's steps leave what was announced, and hand over one buffer at most. -/
theorem MainStep.keeps {image : RestoreImage} {number : Nat} {finished : Bool} {m m' : MainThread}
    {g g' : SharedData} (step : MainStep image number finished m g m' g') :
    g'.partition_write = g.partition_write
      ∧ ∃ more, m'.published = m.published ++ more := by
  cases step with
  | publish pc => exact ⟨rfl, _, rfl⟩
  | _ => exact ⟨rfl, [], (List.append_nil _).symm⟩

/-- Each step of `RecoverWithAsyncIo` keeps the data. -/
theorem OnData.mainStep (onData : OnData r s) (onRing : OnRing r s) {finished : Bool}
    {m : MainThread} {g : SharedData}
    (step : MainStep r.image r.number finished s.main s.shared m g) :
    OnData r { s with main := m, shared := g } := by
  obtain ⟨announced, more, published⟩ := step.keeps
  refine ⟨?_, onData.data, onData.calls, ?_⟩
  · intro slot data pc b head
    -- The next unit is there already, and stays the next one.
    have before := onRing.next_content (by rw [pc]; rfl)
    rw [AsyncState.pending, published, pending_publish onRing more, head_more before more,
      Option.some_inj] at head
    rw [← head]
    exact onData.next slot data pc _ before
  · intro failed
    obtain ⟨left, i, written, noticed⟩ := onData.failed failed
    exact ⟨left, i, announced.trans written, noticed⟩

/-- Before the thread leaves its loop, nothing has failed. -/
theorem OnData.unfailed (onData : OnData r s) (before : ¬ s.write.pc.Left) : ¬ Failed s :=
  fun failed => before (onData.failed failed).1

/-- A step of `DiskWriteThread` that takes nothing, announces nothing and decompresses nothing. -/
theorem OnData.writeQuiet (onData : OnData r s) {w : WriteThread} {g : SharedData}
    (consumed : w.consumed = s.write.consumed)
    (written : g.partition_write = s.shared.partition_write)
    (calls : ∀ call ∈ w.calls, call.succeeded = true)
    (pc : ∀ slot data, w.pc ≠ .clear slot data) (left : s.write.pc.Left → w.pc.Left) :
    OnData r { s with write := w, shared := g } := by
  refine ⟨fun slot data same => absurd same (pc slot data), ?_, calls, ?_⟩
  · rw [consumed]
    exact onData.data
  · intro failed
    simp only [Failed, consumed] at failed
    obtain ⟨before, i, announced, noticed⟩ := onData.failed failed
    rw [consumed]
    exact ⟨left before, i, written.trans announced, noticed⟩

/-- A buffer taken with its own data joins those taken before. -/
theorem OnData.taken (onData : OnData r s) {t : Taken}
    (own : t.data = decompressBuffer r.LZ4_decompress_safe t.buffer) :
    ∀ t' ∈ s.write.consumed ++ [t], t'.data = decompressBuffer r.LZ4_decompress_safe t'.buffer := by
  intro t' mem
  rcases List.mem_append.mp mem with before | last
  · exact onData.data t' before
  · rw [List.mem_singleton.mp last]
    exact own

/-- Each step of `DiskWriteThread` keeps the data, when its failures are safe. -/
theorem OnData.writeStep (onData : OnData r s) (sound : Sound r s) {answer : Bool}
    {w : WriteThread} {g : SharedData} (safe : FailsSafely r s (.write answer))
    (step : WriteStep r.number r.LZ4_decompress_safe answer s.write s.shared w g) :
    OnData r { s with write := w, shared := g } := by
  obtain ⟨-, accepts, bad⟩ := safe
  cases step with
  | setWrite pc =>
    have unfailed := onData.unfailed (by simp [pc, WritePc.Left])
    exact ⟨by simp, onData.data, onData.calls, fun failed => absurd failed unfailed⟩
  | @decompress slot pc =>
    have head := sound.ring.next_content (by rw [pc]; rfl)
    have unfailed := onData.unfailed (by simp [pc, WritePc.Left])
    refine ⟨?_, onData.data, onData.calls, fun failed => absurd failed unfailed⟩
    intro slot' data same b' head'
    -- The data comes from the unit that is next, and a bad one was promised to be noticed.
    have next := Option.some_inj.mp (head.symm.trans head')
    have result := (WritePc.clear.inj same).2
    rw [next] at result
    refine ⟨result.symm, fun none_ => ?_⟩
    have noticed := bad slot (by rw [pc]; rfl)
    rw [next, result, none_] at noticed
    exact noticed rfl
  | @failed slot pc =>
    have head := sound.ring.next_content (by rw [pc]; rfl)
    obtain ⟨result, noticed⟩ := onData.next slot none pc _ head
    have agree := sound.partition.write
    simp only [WriteThread.OnPartition, pc] at agree
    obtain ⟨steady, b', head', own⟩ := agree
    have next := Option.some_inj.mp (head.symm.trans head')
    refine ⟨by simp, onData.taken result, onData.calls, ?_⟩
    intro _
    refine ⟨trivial, (s.shared.ring.content slot).partitionindex, ?_, ?_⟩
    · show s.shared.partition_write = _
      rw [← steady.1, own, ← next]
    · intro units all
      rw [List.length_append, List.length_singleton]
      exact noticed rfl units all
  | @take slot data pc =>
    have head := sound.ring.next_content (by rw [pc]; rfl)
    obtain ⟨result, -⟩ := onData.next slot (some data) pc _ head
    have unfailed := onData.unfailed (by simp [pc, WritePc.Left])
    refine ⟨by simp, onData.taken result, onData.calls, ?_⟩
    rintro ⟨t, mem, none_⟩
    rcases List.mem_append.mp mem with before | last
    · exact absurd ⟨t, before, none_⟩ unfailed
    · rw [List.mem_singleton.mp last] at none_
      cases none_
  | onDisk pc started works =>
    refine onData.writeQuiet works.consumed rfl ?_ ?_ ?_
    · intro call mem
      rcases works.calls call mem with before | ⟨answered, called⟩
      · exact onData.calls call before
      · rw [answered]
        exact accepts called
    · intro slot data same
      have onDisk := works.pc
      rw [same] at onDisk
      exact onDisk.elim
    · intro left
      cases at_ : s.write.pc <;> simp_all [WritePc.OnDisk, WritePc.Left]
  | stay => exact onData
  | _ => exact onData.writeQuiet rfl rfl onData.calls (by simp) (by simp_all [WritePc.Left])

/-- What a run keeps in which failures are safe. -/
structure Safe (r : AsyncRestore) (s : AsyncState) : Prop where
  sound : Sound r s
  lossless : Lossless s
  plan : OnPlan r.image s.main
  track : OnTrack r.image s.main s.shared
  data : OnData r s

/-- The start is safe. -/
theorem Safe.start (r : AsyncRestore) : Safe r .start where
  sound := .start r
  lossless := fun left => left.elim
  plan := by
    intro _
    simp [AsyncState.start, MainThread.remaining, RestoreImage.units]
  track :=
    { passed := fun k _ below => absurd below (Nat.not_lt_zero k)
      ordered := by simp [AsyncState.start]
      read := by simp [AsyncState.start] }
  data := by
    constructor <;> simp [AsyncState.start, Failed]

/-- Each step whose failures are safe keeps a run safe. -/
theorem Safe.step (safe : Safe r s) {action : AsyncAction} (fails : FailsSafely r s action) :
    Safe r (r.step s action) := by
  obtain ⟨sound, lossless, plan, track, data⟩ := safe
  apply AsyncRestore.step_induct
  · intro goesOn m g _ step
    exact ⟨sound.mainStep step, lossless.mainStep step, plan.mainStep sound.ring step,
      track.mainStep sound.partition step, data.mainStep sound.ring step⟩
  · intro answer w g same step
    rw [same] at fails
    exact ⟨sound.writeStep step, lossless.writeStep sound fails.1 step, plan,
      track.writeStep sound.partition step, data.writeStep sound fails step⟩

/-- Behind the partition being written, the reader has passed one at most. -/
theorem Track.behind {image : RestoreImage} {i reached : Nat} {g : SharedData}
    (track : Track image reached g) (all : image.partition.length ≤ reached)
    (written : g.partition_write = some i) : (image.behind i).length ≤ 1 := by
  have single : ∀ k ∈ image.behind i, g.partition = some k := by
    intro k mem
    obtain ⟨backed, further⟩ := List.mem_filter.mp mem
    obtain ⟨p, found, -⟩ := mem_backedUp.mp backed
    have inside := (List.getElem?_eq_some_iff.mp found).1
    rcases track.passed k backed (by omega) with ⟨w, same, before⟩ | reading
    · rw [written, Option.some_inj] at same
      have later := of_decide_eq_true further
      omega
    · exact reading
  have nodup : (image.behind i).Nodup := (List.nodup_range.filter _).filter _
  -- Two partitions behind would both be the one being read.
  match list : image.behind i with
  | [] => exact Nat.zero_le 1
  | [_] => exact Nat.le_refl 1
  | k :: k' :: rest =>
    rw [list] at single nodup
    have first := single k (by simp)
    have second := single k' (by simp)
    rw [first, Option.some_inj] at second
    simp [second] at nodup

/-- In a safe run a return of 0 stands for a complete restore. -/
theorem Safe.failsClosed (safe : Safe r s) : FailsClosed r s := by
  intro main
  have fine : ¬ s.main.pc.Fails := by simp [main, MainPc.Fails]
  have units := safe.plan fine
  simp only [MainThread.remaining, main, Option.map_some, List.append_nil] at units
  have gone : s.write.pc = .finished := by
    have success := safe.sound.ending.success (by rw [main]; rfl)
    simpa [main] using success
  -- A failure would have been noticed by the reader.
  have unfailed : ¬ Failed s := by
    intro failed
    obtain ⟨-, i, written, noticed⟩ := safe.data.failed failed
    have length := safe.sound.ring.published_length
    have fits : s.pending.length ≤ r.number := safe.sound.ring.linked.holds.fits
    have track := safe.track
    simp only [OnTrack, main] at track
    obtain ⟨all, passed⟩ := track trivial
    have behind := passed.behind all written
    rcases noticed _ units with more | two <;> omega
  have empty : s.pending = [] := by
    rcases safe.lossless (by rw [gone]; trivial) with failed | ⟨empty, -⟩ | fails
    · exact absurd failed unfailed
    · exact empty
    · exact absurd fails fine
  refine ⟨?_, ?_, safe.data.calls⟩
  · have order := safe.sound.ring.order
    rw [empty, List.append_nil] at order
    rw [units, order]
  · intro t mem
    rw [← safe.data.data t mem]
    exact Option.ne_none_iff_exists'.mp fun none_ => unfailed ⟨t, mem, none_⟩

/-- The same steps with a disk that takes no write. -/
def refusingDisk : List AsyncAction :=
  List.replicate 14 (.main true) ++ List.replicate 20 (.write false) ++ List.replicate 3 (.main true)

end Okr
