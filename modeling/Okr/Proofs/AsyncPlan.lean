import Okr.Proofs.AsyncHandOver

/-! What the reading thread has handed over and has still to read, and how far ahead it gets. -/

namespace Okr

open BufferRing

variable {r : AsyncRestore} {s : AsyncState}

/-- The units of the partitions behind the current one. -/
def MainThread.later (image : RestoreImage) (m : MainThread) : Option (List BufferInfo) :=
  unitsFrom image.compressBlockSize (m.i + 1) (image.partition.drop (m.i + 1))

/-- The units left in the current partition, and those behind it. -/
def MainThread.left (image : RestoreImage) (m : MainThread) (currentdata : Nat) :
    Option (List BufferInfo) :=
  (unitsOf image.compressBlockSize m.i m.totaldatasize currentdata m.units).bind fun units =>
    (m.later image).map (units ++ ·)

/-- The units that are not handed over yet, if the file has them all. -/
def MainThread.remaining (image : RestoreImage) (m : MainThread) : Option (List BufferInfo) :=
  match m.pc with
  | .next => unitsFrom image.compressBlockSize m.i (image.partition.drop m.i)
  | .waitWrite | .waitCompleted | .setPartition | .setBitmap => m.left image 0
  | .nextUnit => m.left image m.currentdata
  | .getProducter record | .testProducter record _ | .testCompleted record _ | .fill record _ =>
    if record.accepted image.compressBlockSize then
      (m.left image (record.after m.currentdata)).map (record.buffer m.i :: ·)
    else none
  | .publish record _ => (m.left image m.currentdata).map (record.buffer m.i :: ·)
  | _ => some []

/-- Unless an error ended the reading, the units are those handed over and those remaining. -/
def OnPlan (image : RestoreImage) (m : MainThread) : Prop :=
  ¬ m.pc.Fails → image.units = (m.remaining image).map (m.published ++ ·)

/-- The units behind a partition that is passed over. -/
theorem unitsFrom_skip {image : RestoreImage} {i : Nat} {p : PartitionData}
    (found : image.partition[i]? = some p) (skipped : p.skipped = true) :
    unitsFrom image.compressBlockSize i (image.partition.drop i)
      = unitsFrom image.compressBlockSize (i + 1) (image.partition.drop (i + 1)) := by
  rw [List.drop_eq_getElem?_toList_append, found]
  simp only [Option.toList_some, List.singleton_append, unitsFrom, skipped, if_true]

/-- The units of a backed-up partition, and those behind it. -/
theorem unitsFrom_read {image : RestoreImage} {i : Nat} {p : PartitionData}
    (found : image.partition[i]? = some p) (kept : p.skipped = false) :
    unitsFrom image.compressBlockSize i (image.partition.drop i)
      = (unitsOf image.compressBlockSize i (unitsSize p.entry) 0 p.units).bind fun units =>
        (unitsFrom image.compressBlockSize (i + 1) (image.partition.drop (i + 1))).map
          (units ++ ·) := by
  rw [List.drop_eq_getElem?_toList_append, found]
  simp only [Option.toList_some, List.singleton_append, unitsFrom, kept, Bool.false_eq_true,
    if_false]

/-- Once its data is used up, a partition has no more units. -/
theorem unitsOf_done {compressBlockSize i total currentdata : Nat} {units : List UnitRecord}
    (all : ¬ currentdata < total) :
    unitsOf compressBlockSize i total currentdata units = some [] := by
  cases units <;> simp only [unitsOf, all, if_false]

/-- Before the end only a failure makes the reading side fail. -/
theorem MainPc.InLoop.not_fails {pc : MainPc} (before : pc.InLoop) : ¬ pc.Fails := by
  cases pc <;> simp_all [MainPc.InLoop, MainPc.Fails]

/-- A step that leaves what is handed over and what remains. -/
theorem OnPlan.same {image : RestoreImage} {m m' : MainThread} (plan : OnPlan image m)
    (before : ¬ m.pc.Fails) (remaining : m'.remaining image = m.remaining image)
    (published : m'.published = m.published) : OnPlan image m' := by
  intro _
  rw [remaining, published]
  exact plan before

/-- Each step of `RecoverWithAsyncIo` keeps to the plan. -/
theorem OnPlan.mainStep (plan : OnPlan r.image s.main) (onRing : OnRing r s) {finished : Bool}
    {m : MainThread} {g : SharedData}
    (step : MainStep r.image r.number finished s.main s.shared m g) : OnPlan r.image m := by
  cases step with
  | allRestored pc found =>
    refine plan.same (by simp [pc, MainPc.Fails]) ?_ rfl
    have none_ : r.image.partition.drop s.main.i = [] :=
      List.drop_eq_nil_of_le (List.getElem?_eq_none_iff.mp found)
    simp only [MainThread.remaining, pc, none_, unitsFrom]
  | skip pc found skipped =>
    refine plan.same (by simp [pc, MainPc.Fails]) ?_ rfl
    simp only [MainThread.remaining, pc, unitsFrom_skip found skipped]
  | readBitmap pc found kept =>
    refine plan.same (by simp [pc, MainPc.Fails]) ?_ rfl
    simp only [MainThread.remaining, MainThread.left, MainThread.later, pc,
      unitsFrom_read found kept]
  | setBitmap pc =>
    refine plan.same (by simp [pc, MainPc.Fails]) ?_ rfl
    simp only [MainThread.remaining, MainThread.left, MainThread.later, pc]
  | partitionRead pc all =>
    refine plan.same (by simp [pc, MainPc.Fails]) ?_ rfl
    simp only [MainThread.remaining, MainThread.left, MainThread.later, pc, unitsOf_done all,
      Option.bind_some, List.nil_append, Option.map_id']
  | @readHead record units pc more head =>
    refine plan.same (by simp [pc, MainPc.Fails]) ?_ rfl
    simp only [MainThread.remaining, MainThread.left, MainThread.later, pc, head, unitsOf, more,
      if_true]
    -- Only a head that passes the checks is followed by further units.
    split
    · simp only [Option.map_bind, Option.bind_map, Option.map_map, Function.comp_def,
        List.cons_append]
    · rfl
  | fill pc accepted =>
    refine plan.same (by simp [pc, MainPc.Fails]) ?_ rfl
    simp only [MainThread.remaining, MainThread.left, MainThread.later, pc, accepted, if_true]
  | @publish record slot pc =>
    intro _
    have content := onRing.content record slot pc
    have units := plan (by simp [pc, MainPc.Fails])
    simp only [MainThread.remaining, pc] at units ⊢
    -- The unit moves from those remaining to those handed over.
    rw [units, content, Option.map_map]
    simp only [Function.comp_def, List.append_assoc, List.singleton_append]
    rfl
  | fail producer pc => exact fun fine => absurd (by simp [MainPc.Fails]) fine
  | return_ pc =>
    intro fine
    have units := plan (by rw [pc]; exact fine)
    simpa only [MainThread.remaining, pc] using units
  | stay => exact plan
  | _ =>
    refine plan.same (by simp_all [MainPc.Fails]) ?_ rfl
    simp_all [MainThread.remaining, MainThread.left, MainThread.later]

/-- `RecoverWithAsyncIo` has passed a partition when the other thread has got to the one before. -/
structure Track (image : RestoreImage) (reached : Nat) (g : SharedData) : Prop where
  passed : ∀ k ∈ image.backedUp, k < reached →
    (∃ i, g.partition_write = some i ∧ k ≤ i) ∨ g.partition = some k
  ordered : ∀ i, g.partition_write = some i → ∃ j, g.partition = some j ∧ i ≤ j
  read : ∀ j, g.partition = some j → j < reached

/-- How far `RecoverWithAsyncIo` has got at each of its places. -/
def OnTrack (image : RestoreImage) (m : MainThread) (g : SharedData) : Prop :=
  match m.pc with
  | .next | .waitWrite | .waitCompleted | .setPartition => Track image m.i g
  | .complete | .join => image.partition.length ≤ m.i ∧ Track image m.i g
  | .done ret | .returned ret => ret = 0 → image.partition.length ≤ m.i ∧ Track image m.i g
  | _ => Track image (m.i + 1) g

/-- The indices of backed-up partitions. -/
theorem mem_backedUp {image : RestoreImage} {i : Nat} :
    i ∈ image.backedUp ↔ ∃ p, image.partition[i]? = some p ∧ p.skipped = false := by
  unfold RestoreImage.backedUp
  rw [List.mem_filter, List.mem_range]
  constructor
  · intro ⟨inside, backed⟩
    rw [List.getElem?_eq_getElem inside] at backed ⊢
    exact ⟨_, rfl, by simpa using backed⟩
  · intro ⟨p, found, kept⟩
    exact ⟨(List.getElem?_eq_some_iff.mp found).1, by simp [found, kept]⟩

/-- A partition that is passed over does not count. -/
theorem Track.skip {image : RestoreImage} {i : Nat} {p : PartitionData} {g : SharedData}
    (track : Track image i g) (found : image.partition[i]? = some p) (skipped : p.skipped = true) :
    Track image (i + 1) g := by
  refine ⟨fun k backed below => ?_, track.ordered, fun j same => Nat.lt_succ_of_lt (track.read j same)⟩
  have other : k ≠ i := by
    intro same
    obtain ⟨p', found', kept⟩ := mem_backedUp.mp backed
    rw [same, found, Option.some_inj] at found'
    rw [← found', skipped] at kept
    cases kept
  exact track.passed k backed (by omega)

/-- A new partition is read once the other thread is at the former one. -/
theorem Track.setPartition {image : RestoreImage} {i : Nat} {g : SharedData}
    (track : Track image i g) (passes : g.partition = none ∨ g.partition_write = g.partition) :
    Track image (i + 1) { g with partition := some i } := by
  constructor
  · intro k backed below
    rcases Nat.lt_succ_iff_lt_or_eq.mp below with before | last
    · -- What was being read before is being written now.
      rcases track.passed k backed before with written | reading
      · exact .inl written
      · rcases passes with none_ | same
        · rw [none_] at reading
          cases reading
        · exact .inl ⟨k, same.trans reading, Nat.le_refl k⟩
    · rw [last]
      exact .inr rfl
  · intro w written
    obtain ⟨j, reading, ordered⟩ := track.ordered w written
    exact ⟨i, rfl, Nat.le_of_lt (Nat.lt_of_le_of_lt ordered (track.read j reading))⟩
  · intro j same
    rw [← Option.some_inj.mp same]
    exact Nat.lt_succ_self i

/-- The other thread moves on to the partition being read. -/
theorem Track.setWrite {image : RestoreImage} {reached i : Nat} {g : SharedData}
    (track : Track image reached g) (reading : g.partition = some i) :
    Track image reached { g with partition_write := some i } := by
  constructor
  · intro k backed below
    rcases track.passed k backed below with ⟨w, written, ordered⟩ | current
    · obtain ⟨j, same, further⟩ := track.ordered w written
      rw [reading, Option.some_inj] at same
      exact .inl ⟨i, rfl, by omega⟩
    · exact .inr current
  · intro w written
    rw [← Option.some_inj.mp written]
    exact ⟨i, reading, Nat.le_refl i⟩
  · exact track.read

/-- Where the other thread gets on, the track is kept at every place. -/
theorem OnTrack.move {image : RestoreImage} {m : MainThread} {g g' : SharedData}
    (track : OnTrack image m g)
    (moves : ∀ reached, Track image reached g → Track image reached g') : OnTrack image m g' := by
  unfold OnTrack at track ⊢
  cases at_ : m.pc <;> simp only [at_] at track ⊢ <;> try exact moves _ track
  case complete => exact ⟨track.1, moves _ track.2⟩
  case join => exact ⟨track.1, moves _ track.2⟩
  case done => exact fun zero => ⟨(track zero).1, moves _ (track zero).2⟩
  case returned => exact fun zero => ⟨(track zero).1, moves _ (track zero).2⟩

/-- Each step of `RecoverWithAsyncIo` keeps the track. -/
theorem OnTrack.mainStep (track : OnTrack r.image s.main s.shared) (agree : OnPartition r s)
    {finished : Bool} {m : MainThread} {g : SharedData}
    (step : MainStep r.image r.number finished s.main s.shared m g) : OnTrack r.image m g := by
  cases step with
  | allRestored pc found =>
    simp only [OnTrack, pc] at track
    exact ⟨List.getElem?_eq_none_iff.mp found, track⟩
  | skip pc found skipped =>
    simp only [OnTrack, pc] at track ⊢
    exact track.skip found skipped
  | setPartition pc =>
    have main := agree.main
    simp only [MainThread.OnPartition, pc] at main
    simp only [OnTrack, pc] at track
    exact track.setPartition main.2
  | fail producer pc => exact fun zero => absurd zero (by decide)
  | joined pc =>
    simp only [OnTrack, pc] at track
    exact fun _ => track
  | @return_ ret pc =>
    simp only [OnTrack, pc] at track
    intro zero
    obtain ⟨all, passed, ordered, read⟩ := track zero
    exact ⟨all, passed, ordered, read⟩
  | complete pc =>
    simp only [OnTrack, pc] at track
    obtain ⟨all, passed, ordered, read⟩ := track
    exact ⟨all, passed, ordered, read⟩
  | stay => exact track
  | _ =>
    -- The other steps leave the partitions and the progress as they are.
    simp_all only [OnTrack]
    try exact ⟨track.passed, track.ordered, track.read⟩

/-- Each step of `DiskWriteThread` keeps the track. -/
theorem OnTrack.writeStep (track : OnTrack r.image s.main s.shared) (agree : OnPartition r s)
    {answer : Bool} {w : WriteThread} {g : SharedData}
    (step : WriteStep r.number r.LZ4_decompress_safe answer s.write s.shared w g) :
    OnTrack r.image s.main g := by
  cases step with
  | setWrite pc =>
    have write := agree.write
    simp only [WriteThread.OnPartition, pc] at write
    obtain ⟨⟨b, -, own, -⟩, partition, -⟩ := write
    have written : s.write.partition = some b.partitionindex := partition.trans own.symm
    rw [written]
    exact track.move fun reached before => before.setWrite own.symm
  | failed pc => exact track.move fun reached before => ⟨before.passed, before.ordered, before.read⟩
  | take pc => exact track.move fun reached before => ⟨before.passed, before.ordered, before.read⟩
  | leave pc => exact track.move fun reached before => ⟨before.passed, before.ordered, before.read⟩
  | _ => exact track

end Okr
