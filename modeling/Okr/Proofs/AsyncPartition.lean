import Okr.Proofs.AsyncRing

/-! The two threads agree on the partition and the bitmap of every unit they hand over. -/

namespace Okr

open BufferRing

variable {r : AsyncRestore} {s : AsyncState}

/-- Units of the partition that is being written come first, then those of the one being read. -/
def Handed (partition_write partition : Option Nat) (pending : List BufferInfo) : Prop :=
  ∃ old new, pending = old ++ new ∧ (∀ b ∈ old, some b.partitionindex = partition_write)
    ∧ ∀ b ∈ new, some b.partitionindex = partition

/-- The unit to be taken next belongs to the partition being read, which is not written yet. -/
def Switches (g : SharedData) (pending : List BufferInfo) : Prop :=
  ∃ b, pending.head? = some b ∧ some b.partitionindex = g.partition
    ∧ g.partition_write ≠ g.partition

/-- The writing thread holds the partition it has announced, with the bitmap of the image. -/
def WriteThread.Steady (image : RestoreImage) (g : SharedData) (w : WriteThread) : Prop :=
  w.partition = g.partition_write ∧ ∀ i, w.partition = some i → w.bitbuffer = image.bitmap i

/-- What `RecoverWithAsyncIo` knows of the partitions at each of its places. -/
def MainThread.OnPartition (image : RestoreImage) (pending : List BufferInfo) (g : SharedData)
    (m : MainThread) : Prop :=
  match m.pc with
  | .waitWrite | .waitCompleted => m.i < 256 ∧ m.bitbuffer = image.bitmap m.i
  | .setPartition =>
    (m.i < 256 ∧ m.bitbuffer = image.bitmap m.i)
      ∧ (g.partition = none ∨ g.partition_write = g.partition)
  | .setBitmap =>
    (m.i < 256 ∧ m.bitbuffer = image.bitmap m.i) ∧ g.partition = some m.i
      ∧ ∀ b ∈ pending, some b.partitionindex = g.partition_write
  | .nextUnit | .getProducter _ | .testProducter _ _ | .testCompleted _ _ | .fill _ _
  | .publish _ _ => m.i < 256 ∧ g.partition = some m.i
  | _ => True

/-- What `DiskWriteThread` knows of the partitions at each of its places. -/
def WriteThread.OnPartition (image : RestoreImage) (pending : List BufferInfo) (g : SharedData)
    (w : WriteThread) : Prop :=
  match w.pc with
  | .readPartition _ => Switches g pending
  | .readBitmap _ => Switches g pending ∧ w.partition = g.partition
  | .setWrite _ =>
    Switches g pending ∧ w.partition = g.partition
      ∧ ∀ i, w.partition = some i → w.bitbuffer = image.bitmap i
  | .decompress _ | .clear _ _ =>
    w.Steady image g ∧ ∃ b, pending.head? = some b ∧ w.partition = some b.partitionindex
  | _ => w.Steady image g

/-- The partition and the bitmap a unit was taken with are its own. -/
def Taken.Right (image : RestoreImage) (t : Taken) : Prop :=
  t.partition = some t.buffer.partitionindex
    ∧ t.bitbuffer = image.bitmap t.buffer.partitionindex

/-- The threads agree on the partitions. -/
structure OnPartition (r : AsyncRestore) (s : AsyncState) : Prop where
  handed : Handed s.shared.partition_write s.shared.partition s.pending
  bitmap : s.main.pc ≠ .setBitmap →
    ∀ i, s.shared.partition = some i → s.shared.databitmap = r.image.bitmap i
  main : s.main.OnPartition r.image s.pending s.shared
  write : s.write.OnPartition r.image s.pending s.shared
  taken : ∀ t ∈ s.write.consumed, t.Right r.image

/-- One more unit of the partition being read goes to the end. -/
theorem Handed.publish {partition_write partition : Option Nat} {pending : List BufferInfo}
    (handed : Handed partition_write partition pending) {b : BufferInfo}
    (own : some b.partitionindex = partition) :
    Handed partition_write partition (pending ++ [b]) := by
  obtain ⟨old, new, split, first, second⟩ := handed
  refine ⟨old, new ++ [b], by rw [split, List.append_assoc], first, ?_⟩
  intro b' mem
  rcases List.mem_append.mp mem with before | last
  · exact second b' before
  · rw [List.mem_singleton.mp last]
    exact own

/-- Taking a unit leaves the order of the rest. -/
theorem Handed.take {partition_write partition : Option Nat} {pending : List BufferInfo}
    (handed : Handed partition_write partition pending) :
    Handed partition_write partition pending.tail := by
  obtain ⟨old, new, rfl, first, second⟩ := handed
  cases old with
  | nil =>
    -- Only units of the partition being read are pending.
    exact ⟨[], new.tail, rfl, by simp, fun b mem => second b (List.mem_of_mem_tail mem)⟩
  | cons b old =>
    exact ⟨old, new, rfl, fun b mem => first b (List.mem_cons_of_mem _ mem), second⟩

/-- When all pending units are of the partition being written, any other one may be read. -/
theorem Handed.next {partition_write : Option Nat} {pending : List BufferInfo}
    (own : ∀ b ∈ pending, some b.partitionindex = partition_write) (partition : Option Nat) :
    Handed partition_write partition pending :=
  ⟨pending, [], by rw [List.append_nil], own, by simp⟩

/-- Once the reading side may pass on, all pending units are of the partition being written. -/
theorem Handed.own {partition_write partition : Option Nat} {pending : List BufferInfo}
    (handed : Handed partition_write partition pending)
    (passes : partition = none ∨ partition_write = partition) :
    ∀ b ∈ pending, some b.partitionindex = partition_write := by
  obtain ⟨old, new, rfl, first, second⟩ := handed
  intro b mem
  rcases List.mem_append.mp mem with before | after
  · exact first b before
  · have own := second b after
    rcases passes with none_ | same
    · rw [none_] at own
      cases own
    · rw [same]
      exact own

/-- Where the writing side switches, no unit of the former partition is pending any more. -/
theorem Handed.switch {g : SharedData} {pending : List BufferInfo}
    (handed : Handed g.partition_write g.partition pending) (switches : Switches g pending) :
    Handed g.partition g.partition pending := by
  obtain ⟨old, new, rfl, first, second⟩ := handed
  obtain ⟨b, head, own, other⟩ := switches
  cases old with
  | nil => exact ⟨[], new, rfl, by simp, second⟩
  | cons b' old =>
    -- The first unit would be of the former partition and of the new one.
    rw [List.cons_append, List.head?_cons, Option.some_inj] at head
    have former := first b' List.mem_cons_self
    rw [head, own] at former
    exact absurd former.symm other

/-- A switch shows that the reading side has not passed on. -/
theorem Switches.not_pass {g : SharedData} {pending : List BufferInfo}
    (switches : Switches g pending) :
    ¬ (g.partition = none ∨ g.partition_write = g.partition) := by
  obtain ⟨b, -, own, other⟩ := switches
  rintro (none_ | same)
  · rw [none_] at own
    cases own
  · exact other same

/-- A switch shows that not all pending units are of the partition being written. -/
theorem Switches.not_own {g : SharedData} {pending : List BufferInfo}
    (switches : Switches g pending) :
    ¬ ∀ b ∈ pending, some b.partitionindex = g.partition_write := by
  obtain ⟨b, head, own, other⟩ := switches
  intro all
  rw [← own] at other
  exact other (all b (List.mem_of_mem_head? head)).symm

/-- More pending units leave the next one in place. -/
theorem head_more {pending : List BufferInfo} {b : BufferInfo} (head : pending.head? = some b)
    (more : List BufferInfo) : (pending ++ more).head? = some b := by
  rw [List.head?_append, head, Option.some_or]

/-- More pending units leave a switch in place. -/
theorem Switches.more {g : SharedData} {pending : List BufferInfo} (switches : Switches g pending)
    (more : List BufferInfo) : Switches g (pending ++ more) := by
  obtain ⟨b, head, own, other⟩ := switches
  exact ⟨b, head_more head more, own, other⟩

/-- The index of a partition of the image fits into a byte. -/
theorem partition_index {image : RestoreImage} {i : Nat} {p : PartitionData}
    (found : image.partition[i]? = some p) : i < 256 := by
  have inside := (List.getElem?_eq_some_iff.mp found).1
  have bounded := image.bounded
  unfold MAX_NUM_PARTITIONS at bounded
  omega

/-- A step of `RecoverWithAsyncIo` that changes no partition and hands nothing over. -/
theorem OnPartition.mainQuiet (agree : OnPartition r s) {m : MainThread} {ring : Buffers BufferInfo}
    {bCompleted : Bool} (published : m.published = s.main.published)
    (before : s.main.pc ≠ .setBitmap)
    (main : m.OnPartition r.image s.pending s.shared) :
    OnPartition r
      { s with main := m, shared := { s.shared with ring := ring, bCompleted := bCompleted } } := by
  have pending : AsyncState.pending
      { s with main := m, shared := { s.shared with ring := ring, bCompleted := bCompleted } }
        = s.pending := by
    simp only [AsyncState.pending, published]
  constructor
  · rw [pending]
    exact agree.handed
  · intro _
    exact agree.bitmap before
  · rw [pending]
    exact main
  · rw [pending]
    exact agree.write
  · exact agree.taken

/-- A step of `DiskWriteThread` that changes no partition and takes nothing. -/
theorem OnPartition.writeQuiet (agree : OnPartition r s) {w : WriteThread} {bCompleted : Bool}
    (consumed : w.consumed = s.write.consumed)
    (write : w.OnPartition r.image s.pending s.shared) :
    OnPartition r { s with write := w, shared := { s.shared with bCompleted := bCompleted } } := by
  have pending : AsyncState.pending
      { s with write := w, shared := { s.shared with bCompleted := bCompleted } } = s.pending := by
    simp only [AsyncState.pending, consumed]
  constructor
  · rw [pending]
    exact agree.handed
  · exact agree.bitmap
  · rw [pending]
    exact agree.main
  · rw [pending]
    exact write
  · rw [consumed]
    exact agree.taken

/-- Each step of `RecoverWithAsyncIo` keeps the agreement. -/
theorem OnPartition.mainStep (agree : OnPartition r s) (onRing : OnRing r s) {finished : Bool}
    {m : MainThread} {g : SharedData}
    (step : MainStep r.image r.number finished s.main s.shared m g) :
    OnPartition r { s with main := m, shared := g } := by
  have main := agree.main
  cases step with
  | allRestored pc => exact agree.mainQuiet rfl (by simp [pc]) trivial
  | skip pc => exact agree.mainQuiet rfl (by simp [pc]) (by simp [MainThread.OnPartition, pc])
  | readBitmap pc found =>
    refine agree.mainQuiet rfl (by simp [pc]) ⟨partition_index found, ?_⟩
    simp only [RestoreImage.bitmap, found, Option.map_some, Option.getD_some]
  | mustWait pc =>
    exact agree.mainQuiet rfl (by simp [pc]) (by simpa [MainThread.OnPartition, pc] using main)
  | mayPass pc passes =>
    simp only [MainThread.OnPartition, pc] at main
    exact agree.mainQuiet rfl (by simp [pc]) ⟨main, passes⟩
  | waitAgain pc =>
    exact agree.mainQuiet rfl (by simp [pc]) (by simpa [MainThread.OnPartition, pc] using main)
  | setPartition pc =>
    simp only [MainThread.OnPartition, pc] at main
    obtain ⟨data, passes⟩ := main
    have own := agree.handed.own passes
    constructor
    · exact Handed.next own _
    · exact fun other => absurd rfl other
    · exact ⟨data, rfl, own⟩
    · -- The other thread does not look at the partition now, since it does not switch.
      have write := agree.write
      unfold WriteThread.OnPartition at write ⊢
      cases place : s.write.pc <;> simp only [place] at write ⊢ <;> try exact write
      case readPartition => exact absurd passes write.not_pass
      case readBitmap => exact absurd passes write.1.not_pass
      case setWrite => exact absurd passes write.1.not_pass
    · exact agree.taken
  | setBitmap pc =>
    simp only [MainThread.OnPartition, pc] at main
    obtain ⟨⟨below, bitbuffer⟩, partition, own⟩ := main
    constructor
    · exact agree.handed
    · intro _ i same
      rw [partition, Option.some_inj] at same
      rw [← same]
      exact bitbuffer
    · exact ⟨below, partition⟩
    · exact agree.write
    · exact agree.taken
  | partitionRead pc => exact agree.mainQuiet rfl (by simp [pc]) trivial
  | readHead pc =>
    exact agree.mainQuiet rfl (by simp [pc]) (by simpa [MainThread.OnPartition, pc] using main)
  | getProducter pc =>
    exact agree.mainQuiet rfl (by simp [pc]) (by simpa [MainThread.OnPartition, pc] using main)
  | bufferFull pc =>
    exact agree.mainQuiet rfl (by simp [pc]) (by simpa [MainThread.OnPartition, pc] using main)
  | bufferFree pc =>
    exact agree.mainQuiet rfl (by simp [pc]) (by simpa [MainThread.OnPartition, pc] using main)
  | testAgain pc =>
    exact agree.mainQuiet rfl (by simp [pc]) (by simpa [MainThread.OnPartition, pc] using main)
  | fill pc =>
    exact agree.mainQuiet rfl (by simp [pc]) (by simpa [MainThread.OnPartition, pc] using main)
  | @publish record slot pc =>
    simp only [MainThread.OnPartition, pc] at main
    have content := onRing.content record slot pc
    -- The unit belongs to the partition being read.
    have own : some (s.shared.ring.content slot).partitionindex = s.shared.partition := by
      rw [content, main.2]
      exact congrArg some (Nat.mod_eq_of_lt main.1)
    have left := pending_publish onRing [s.shared.ring.content slot]
    constructor
    · rw [AsyncState.pending, left]
      exact agree.handed.publish own
    · exact fun _ => agree.bitmap (by simp [pc])
    · exact main
    · have write := agree.write
      rw [AsyncState.pending, left]
      unfold WriteThread.OnPartition at write ⊢
      cases place : s.write.pc <;> simp only [place] at write ⊢ <;> try exact write
      case readPartition => exact write.more _
      case readBitmap => exact ⟨write.1.more _, write.2⟩
      case setWrite => exact ⟨write.1.more _, write.2⟩
      all_goals
        obtain ⟨steady, b, head, same⟩ := write
        exact ⟨steady, b, head_more head _, same⟩
    · exact agree.taken
  | fail producer pc =>
    refine agree.mainQuiet rfl ?_ trivial
    intro bitmap
    simp only [bitmap, MainPc.MayFail] at pc
  | complete pc => exact agree.mainQuiet rfl (by simp [pc]) trivial
  | joined pc => exact agree.mainQuiet rfl (by simp [pc]) trivial
  | return_ pc => exact agree.mainQuiet rfl (by simp [pc]) trivial
  | stay => exact agree

/-- Taking the unit that is next, with its own partition and bitmap, keeps the agreement. -/
theorem OnPartition.take (agree : OnPartition r s) (onRing : OnRing r s) {slot : Nat}
    {data : Option (Bytes × Nat)} {w : WriteThread} {ring : Buffers BufferInfo}
    (pc : s.write.pc = .clear slot data)
    (consumed : w.consumed = s.write.consumed
      ++ [⟨s.shared.ring.content slot, s.write.partition, s.write.bitbuffer, data⟩])
    (write : s.write.Steady r.image s.shared → w.OnPartition r.image s.pending.tail s.shared) :
    OnPartition r { s with write := w, shared := { s.shared with ring := ring } } := by
  have holds := agree.write
  simp only [WriteThread.OnPartition, pc] at holds
  obtain ⟨steady, b, head, same⟩ := holds
  -- The buffer in the slot is the one that is next.
  have content : s.shared.ring.content slot = b :=
    Option.some_inj.mp ((onRing.next_content (by rw [pc]; rfl)).symm.trans head)
  have left : AsyncState.pending
      { s with write := w, shared := { s.shared with ring := ring } } = s.pending.tail := by
    rw [AsyncState.pending, consumed]
    exact pending_take s _
  constructor
  · rw [left]
    exact agree.handed.take
  · exact agree.bitmap
  · rw [left]
    have main := agree.main
    unfold MainThread.OnPartition at main ⊢
    cases at_ : s.main.pc <;> simp only [at_] at main ⊢ <;> try exact main
    exact ⟨main.1, main.2.1, fun b' mem => main.2.2 b' (List.mem_of_mem_tail mem)⟩
  · rw [left]
    exact write steady
  · intro t mem
    rw [consumed] at mem
    rcases List.mem_append.mp mem with before | last
    · exact agree.taken t before
    · rw [List.mem_singleton.mp last]
      constructor
      · rw [content]
        exact same
      · rw [content]
        exact steady.2 _ same

/-- Between two units the thread holds the partition it has announced. -/
theorem WriteThread.onPartition_onDisk {image : RestoreImage} {pending : List BufferInfo}
    {g : SharedData} {w : WriteThread} (onDisk : w.pc.OnDisk) :
    w.OnPartition image pending g ↔ w.Steady image g := by
  unfold WriteThread.OnPartition
  cases pc : w.pc <;> simp only [pc, WritePc.OnDisk] at onDisk ⊢

/-- Each step of `DiskWriteThread` keeps the agreement. -/
theorem OnPartition.writeStep (agree : OnPartition r s) (onRing : OnRing r s) {answer : Bool}
    {w : WriteThread} {g : SharedData}
    (step : WriteStep r.number r.LZ4_decompress_safe answer s.write s.shared w g) :
    OnPartition r { s with write := w, shared := g } := by
  have write := agree.write
  cases step with
  | getConsumer pc =>
    exact agree.writeQuiet rfl (by simpa [WriteThread.OnPartition, WriteThread.Steady, pc] using write)
  | bufferEmpty pc =>
    exact agree.writeQuiet rfl (by simpa [WriteThread.OnPartition, WriteThread.Steady, pc] using write)
  | bufferValid pc =>
    exact agree.writeQuiet rfl (by simpa [WriteThread.OnPartition, WriteThread.Steady, pc] using write)
  | giveUp pc =>
    exact agree.writeQuiet rfl (by simpa [WriteThread.OnPartition, WriteThread.Steady, pc] using write)
  | testAgain pc =>
    exact agree.writeQuiet rfl (by simpa [WriteThread.OnPartition, WriteThread.Steady, pc] using write)
  | otherPartition pc other =>
    have head := onRing.next_content (by rw [pc]; rfl)
    simp only [WriteThread.OnPartition, pc] at write
    rw [write.1] at other
    refine agree.writeQuiet rfl ⟨_, head, ?_⟩
    -- A unit that is not of the partition being written is of the one being read.
    obtain ⟨old, new, split, first, second⟩ := agree.handed
    have mem := List.mem_of_mem_head? head
    rw [split] at mem
    rcases List.mem_append.mp mem with before | after
    · exact absurd (first _ before).symm other
    · have own := second _ after
      rw [← own]
      exact ⟨rfl, other⟩
  | samePartition pc same =>
    have head := onRing.next_content (by rw [pc]; rfl)
    simp only [WriteThread.OnPartition, pc] at write
    exact agree.writeQuiet rfl ⟨write, _, head, same⟩
  | readPartition pc =>
    simp only [WriteThread.OnPartition, pc] at write
    exact agree.writeQuiet rfl ⟨write, rfl⟩
  | readBitmap pc =>
    simp only [WriteThread.OnPartition, pc] at write
    refine agree.writeQuiet rfl ⟨write.1, write.2, ?_⟩
    intro i same
    refine agree.bitmap ?_ i (write.2 ▸ same)
    -- While the bitmap is not set, no unit of its partition is pending.
    intro setting
    have main := agree.main
    simp only [MainThread.OnPartition, setting] at main
    exact write.1.not_own main.2.2
  | setWrite pc =>
    simp only [WriteThread.OnPartition, pc] at write
    obtain ⟨switches, partition, bitbuffer⟩ := write
    have main := agree.main
    constructor
    · rw [partition]
      exact agree.handed.switch switches
    · exact agree.bitmap
    · unfold MainThread.OnPartition at main ⊢
      cases at_ : s.main.pc <;> simp only [at_] at main ⊢ <;> try exact main
      case setPartition => exact absurd main.2 switches.not_pass
      case setBitmap => exact absurd main.2.2 switches.not_own
    · obtain ⟨b, head, own, -⟩ := switches
      exact ⟨⟨rfl, bitbuffer⟩, b, head, partition.trans own.symm⟩
    · exact agree.taken
  | decompress pc =>
    exact agree.writeQuiet rfl (by simpa [WriteThread.OnPartition, WriteThread.Steady, pc] using write)
  | failed pc => exact agree.take onRing pc rfl fun steady => steady
  | take pc => exact agree.take onRing pc rfl fun steady => steady
  | onDisk pc started works =>
    rw [WriteThread.onPartition_onDisk pc] at write
    refine agree.writeQuiet works.consumed ?_
    rw [WriteThread.onPartition_onDisk works.pc, WriteThread.Steady, works.partition,
      works.bitbuffer]
    exact write
  | leave pc =>
    exact agree.writeQuiet rfl (by simpa [WriteThread.OnPartition, WriteThread.Steady, pc] using write)
  | stay => exact agree

end Okr
