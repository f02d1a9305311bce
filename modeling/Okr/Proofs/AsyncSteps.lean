import Okr.Restore.AsyncRestore

/-! What one step of either thread of the restore can do, branch by branch. -/

namespace Okr

open BufferRing (Buffers advance retreat)

/-- The places from which `RecoverWithAsyncIo` goes to its end with an error. -/
def MainPc.MayFail : MainPc → Prop
  | .next | .waitCompleted | .nextUnit | .testCompleted _ _ | .fill _ _ => True
  | _ => False

/-- The steps of `RecoverWithAsyncIo`: what allows each of them, and what it leaves behind. -/
inductive MainStep (image : RestoreImage) (number : Nat) (finished : Bool) (m : MainThread)
    (g : SharedData) : MainThread → SharedData → Prop
  | allRestored (pc : m.pc = .next) (found : image.partition[m.i]? = none) :
    MainStep image number finished m g { m with pc := .complete } g
  | skip {p : PartitionData} (pc : m.pc = .next) (found : image.partition[m.i]? = some p)
      (skipped : p.skipped = true) : MainStep image number finished m g { m with i := m.i + 1 } g
  | readBitmap {p : PartitionData} (pc : m.pc = .next) (found : image.partition[m.i]? = some p)
      (kept : p.skipped = false) :
    MainStep image number finished m g
      { m with
        pc := .waitWrite
        bitbuffer := p.bitmap
        units := p.units
        totaldatasize := unitsSize p.entry } g
  | mustWait (pc : m.pc = .waitWrite) :
    MainStep image number finished m g { m with pc := .waitCompleted } g
  | mayPass (pc : m.pc = .waitWrite) (passes : g.partition = none ∨ g.partition_write = g.partition) :
    MainStep image number finished m g { m with pc := .setPartition } g
  | waitAgain (pc : m.pc = .waitCompleted) :
    MainStep image number finished m g { m with pc := .waitWrite } g
  | setPartition (pc : m.pc = .setPartition) :
    MainStep image number finished m g { m with pc := .setBitmap } { g with partition := some m.i }
  | setBitmap (pc : m.pc = .setBitmap) :
    MainStep image number finished m g { m with pc := .nextUnit, currentdata := 0 }
      { g with databitmap := m.bitbuffer }
  | partitionRead (pc : m.pc = .nextUnit) (all : ¬ m.currentdata < m.totaldatasize) :
    MainStep image number finished m g { m with pc := .next, i := m.i + 1 } g
  | readHead {record : UnitRecord} {units : List UnitRecord} (pc : m.pc = .nextUnit)
      (more : m.currentdata < m.totaldatasize) (head : m.units = record :: units) :
    MainStep image number finished m g { m with pc := .getProducter record, units := units } g
  | getProducter {record : UnitRecord} (pc : m.pc = .getProducter record) :
    MainStep image number finished m g
      { m with pc := .testProducter record m.producer, producer := advance number m.producer } g
  | bufferFull {record : UnitRecord} {slot : Nat} (pc : m.pc = .testProducter record slot) :
    MainStep image number finished m g { m with pc := .testCompleted record slot } g
  | bufferFree {record : UnitRecord} {slot : Nat} (pc : m.pc = .testProducter record slot)
      (free : g.ring.valid slot = false) :
    MainStep image number finished m g { m with pc := .fill record slot } g
  | testAgain {record : UnitRecord} {slot : Nat} (pc : m.pc = .testCompleted record slot) :
    MainStep image number finished m g { m with pc := .testProducter record slot } g
  | fill {record : UnitRecord} {slot : Nat} (pc : m.pc = .fill record slot)
      (accepted : record.accepted image.compressBlockSize = true) :
    MainStep image number finished m g
      { m with pc := .publish record slot, currentdata := record.after m.currentdata }
      { g with ring := g.ring.fill slot (record.buffer m.i) }
  | publish {record : UnitRecord} {slot : Nat} (pc : m.pc = .publish record slot) :
    MainStep image number finished m g
      { m with pc := .nextUnit, published := m.published ++ [g.ring.content slot] }
      { g with ring := g.ring.publish slot }
  | fail (producer : Nat) (pc : m.pc.MayFail) :
    MainStep image number finished m g { m with pc := .done (-1), producer := producer } g
  | complete (pc : m.pc = .complete) :
    MainStep image number finished m g { m with pc := .join } { g with bCompleted := true }
  | joined (pc : m.pc = .join) (ended : finished = true) :
    MainStep image number finished m g { m with pc := .done 0 } g
  | return_ {ret : Int} (pc : m.pc = .done ret) :
    MainStep image number finished m g { m with pc := .returned ret } { g with bCompleted := true }
  | stay : MainStep image number finished m g m g

/-- Each step of `RecoverWithAsyncIo` is one of these. -/
theorem mainStep_cases (image : RestoreImage) (number : Nat) (goesOn finished : Bool)
    (m : MainThread) (g : SharedData) :
    MainStep image number finished m g (m.step image number goesOn finished g).1
      (m.step image number goesOn finished g).2 := by
  -- one case for each program counter; every check that fails leads to `fail`
  unfold MainThread.step
  split
  case h_1 pc =>
    split
    · exact .allRestored pc ‹_›
    · split
      · exact .skip pc ‹_› ‹_›
      · rename_i kept
        split
        · exact .readBitmap pc ‹_› (Bool.eq_false_of_not_eq_true kept)
        · exact .fail m.producer (by simp [MainPc.MayFail, pc])
  case h_2 pc =>
    split
    · exact .mustWait pc
    · rename_i passes
      exact .mayPass pc (by tauto)
  case h_3 pc =>
    split
    · exact .fail m.producer (by simp [MainPc.MayFail, pc])
    · exact .waitAgain pc
  case h_4 pc => exact .setPartition pc
  case h_5 pc => exact .setBitmap pc
  case h_6 pc =>
    split
    · split
      · exact .fail m.producer (by simp [MainPc.MayFail, pc])
      · split
        · exact .readHead pc ‹_› ‹_›
        · exact .fail m.producer (by simp [MainPc.MayFail, pc])
    · exact .partitionRead pc ‹_›
  case h_7 pc => exact .getProducter pc
  case h_8 pc =>
    split
    · exact .bufferFull pc
    · exact .bufferFree pc (Bool.eq_false_of_not_eq_true ‹_›)
  case h_9 pc =>
    split
    · exact .fail _ (by simp [MainPc.MayFail, pc])
    · exact .testAgain pc
  case h_10 pc =>
    split
    · rename_i accepted
      exact .fill pc (by simp_all)
    · exact .fail m.producer (by simp [MainPc.MayFail, pc])
  case h_11 pc => exact .publish pc
  case h_12 pc => exact .complete pc
  case h_13 pc =>
    split
    · exact .joined pc ‹_›
    · exact .stay
  case h_14 pc => exact .return_ pc
  case h_15 pc => exact .stay

/-- Steps of `DiskWriteThread` at which it only works on its data and on the disk. -/
def WritePc.OnDisk : WritePc → Prop
  | .getConsumer | .block _ | .smartDiskIo _ _ | .flush _ _ => True
  | _ => False

/-- The thread is in the loop of `SmartDiskIo`. -/
def WritePc.flushing : WritePc → Bool
  | .flush _ _ => true
  | _ => false

/-- The next step of the thread calls `DiskWrite`. -/
def WriteThread.Calls (w : WriteThread) : Prop := w.pc.flushing = true ∧ w.info.number ≠ 0

/-- A step on the data and on the disk leaves the rest of the thread's variables. -/
structure WriteThread.WorksOnDisk (answer : Bool) (w w' : WriteThread) : Prop where
  pc : w'.pc.OnDisk
  partition : w'.partition = w.partition
  bitbuffer : w'.bitbuffer = w.bitbuffer
  consumer : w'.consumer = w.consumer
  consumed : w'.consumed = w.consumed
  calls : ∀ call ∈ w'.calls, call ∈ w.calls ∨ call.succeeded = answer ∧ w.Calls

/-- The steps of `DiskWriteThread`: what allows each of them, and what it leaves behind. -/
inductive WriteStep (number : Nat) (LZ4_decompress_safe : Bytes → Option Bytes) (answer : Bool)
    (w : WriteThread) (g : SharedData) : WriteThread → SharedData → Prop
  | getConsumer (pc : w.pc = .getConsumer) :
    WriteStep number LZ4_decompress_safe answer w g
      { w with pc := .testConsumer w.consumer, consumer := advance number w.consumer } g
  | bufferEmpty {slot : Nat} (pc : w.pc = .testConsumer slot) (empty : g.ring.valid slot = false) :
    WriteStep number LZ4_decompress_safe answer w g { w with pc := .testCompleted slot } g
  | bufferValid {slot : Nat} (pc : w.pc = .testConsumer slot) (valid : g.ring.valid slot = true) :
    WriteStep number LZ4_decompress_safe answer w g { w with pc := .readIndex slot } g
  | giveUp {slot : Nat} (pc : w.pc = .testCompleted slot) (completed : g.bCompleted = true) :
    WriteStep number LZ4_decompress_safe answer w g
      { w with pc := .leave, consumer := retreat number w.consumer } g
  | testAgain {slot : Nat} (pc : w.pc = .testCompleted slot) :
    WriteStep number LZ4_decompress_safe answer w g { w with pc := .testConsumer slot } g
  | otherPartition {slot : Nat} (pc : w.pc = .readIndex slot)
      (other : w.partition ≠ some (g.ring.content slot).partitionindex) :
    WriteStep number LZ4_decompress_safe answer w g { w with pc := .readPartition slot } g
  | samePartition {slot : Nat} (pc : w.pc = .readIndex slot)
      (same : w.partition = some (g.ring.content slot).partitionindex) :
    WriteStep number LZ4_decompress_safe answer w g { w with pc := .decompress slot } g
  | readPartition {slot : Nat} (pc : w.pc = .readPartition slot) :
    WriteStep number LZ4_decompress_safe answer w g
      { w with pc := .readBitmap slot, partition := g.partition } g
  | readBitmap {slot : Nat} (pc : w.pc = .readBitmap slot) :
    WriteStep number LZ4_decompress_safe answer w g
      { w with pc := .setWrite slot, bitbuffer := g.databitmap } g
  | setWrite {slot : Nat} (pc : w.pc = .setWrite slot) :
    WriteStep number LZ4_decompress_safe answer w g
      { w with pc := .decompress slot, currentblock := 0, info := {} }
      { g with partition_write := w.partition }
  | decompress {slot : Nat} (pc : w.pc = .decompress slot) :
    WriteStep number LZ4_decompress_safe answer w g
      { w with pc := .clear slot (decompressBuffer LZ4_decompress_safe (g.ring.content slot)) } g
  | failed {slot : Nat} (pc : w.pc = .clear slot none) :
    WriteStep number LZ4_decompress_safe answer w g
      { w with
        pc := .leave
        consumed := w.consumed ++ [⟨g.ring.content slot, w.partition, w.bitbuffer, none⟩] }
      { g with ring := g.ring.clear slot }
  | take {slot : Nat} {data : Bytes × Nat} (pc : w.pc = .clear slot (some data)) :
    WriteStep number LZ4_decompress_safe answer w g
      { w with
        pc := .block data
        consumed := w.consumed ++ [⟨g.ring.content slot, w.partition, w.bitbuffer, some data⟩] }
      { g with ring := g.ring.clear slot }
  | onDisk {w' : WriteThread} (pc : w.pc.OnDisk) (started : w.pc ≠ .getConsumer)
      (works : w.WorksOnDisk answer w') : WriteStep number LZ4_decompress_safe answer w g w' g
  | leave (pc : w.pc = .leave) :
    WriteStep number LZ4_decompress_safe answer w g { w with pc := .finished }
      { g with bCompleted := true }
  | stay (pc : w.pc = .finished) : WriteStep number LZ4_decompress_safe answer w g w g

/-- The thread goes on with the rest of the unit or with the next one. -/
theorem after_onDisk (rest : Option (Bytes × Nat)) : (WritePc.after rest).OnDisk := by
  cases rest <;> trivial

/-- A round of the loop over the blocks changes nothing else. -/
theorem block_worksOnDisk (answer : Bool) (entry : PartitionInfo) (w : WriteThread) (p : Bytes)
    (number : Nat) : w.WorksOnDisk answer (w.block entry p number) := by
  unfold WriteThread.block
  split
  · exact ⟨trivial, rfl, rfl, rfl, rfl, fun _ mem => .inl mem⟩
  · split <;> exact ⟨trivial, rfl, rfl, rfl, rfl, fun _ mem => .inl mem⟩

/-- The start of `SmartDiskIo` changes nothing else. -/
theorem smartDiskIo_worksOnDisk (answer : Bool) (w : WriteThread) (request : ContinueInfo)
    (rest : Option (Bytes × Nat)) : w.WorksOnDisk answer (w.smartDiskIo request rest) := by
  unfold WriteThread.smartDiskIo
  split
  · exact ⟨after_onDisk rest, rfl, rfl, rfl, rfl, fun _ mem => .inl mem⟩
  · split
    · exact ⟨after_onDisk rest, rfl, rfl, rfl, rfl, fun _ mem => .inl mem⟩
    · exact ⟨trivial, rfl, rfl, rfl, rfl, fun _ mem => .inl mem⟩

/-- A round of the loop of `SmartDiskIo` calls the disk once at most. -/
theorem flush_worksOnDisk (answer : Bool) (w : WriteThread) (request : ContinueInfo)
    (rest : Option (Bytes × Nat)) (pc : w.pc = .flush request rest) :
    w.WorksOnDisk answer (w.flush answer request rest) := by
  have last : w.info.number ≠ 0 → ∀ call : DiskCall, call.succeeded = answer →
      ∀ c ∈ w.calls ++ [call], c ∈ w.calls ∨ c.succeeded = answer ∧ w.Calls := by
    intro more call succeeded c mem
    rcases List.mem_append.mp mem with before | new
    · exact .inl before
    · rw [List.mem_singleton.mp new]
      exact .inr ⟨succeeded, by rw [pc]; rfl, more⟩
  unfold WriteThread.flush
  split
  · exact ⟨after_onDisk rest, rfl, rfl, rfl, rfl, fun _ mem => .inl mem⟩
  · rename_i more
    dsimp only
    split
    · exact ⟨by simp [WritePc.OnDisk, pc], rfl, rfl, rfl, rfl, last more _ rfl⟩
    · exact ⟨after_onDisk rest, rfl, rfl, rfl, rfl, last more _ rfl⟩

/-- Each step of `DiskWriteThread` is one of these. -/
theorem writeStep_cases (image : RestoreImage) (number : Nat)
    (LZ4_decompress_safe : Bytes → Option Bytes) (answer : Bool) (w : WriteThread)
    (g : SharedData) :
    WriteStep number LZ4_decompress_safe answer w g
      (w.step image number LZ4_decompress_safe answer g).1
      (w.step image number LZ4_decompress_safe answer g).2 := by
  -- one step of the relation for each value of the program counter
  unfold WriteThread.step
  split
  case h_1 pc => exact .getConsumer pc
  case h_2 pc =>
    split
    · exact .bufferValid pc ‹_›
    · exact .bufferEmpty pc (Bool.eq_false_of_not_eq_true ‹_›)
  case h_3 pc =>
    split
    · exact .giveUp pc ‹_›
    · exact .testAgain pc
  case h_4 pc =>
    split
    · exact .otherPartition pc ‹_›
    · exact .samePartition pc (not_not.mp ‹_›)
  case h_5 pc => exact .readPartition pc
  case h_6 pc => exact .readBitmap pc
  case h_7 pc => exact .setWrite pc
  case h_8 pc => exact .decompress pc
  case h_9 slot data pc =>
    cases data with
    | none => exact .failed pc
    | some data => exact .take pc
  case h_10 data pc =>
    exact .onDisk (by simp [WritePc.OnDisk, pc]) (by simp [pc]) (block_worksOnDisk _ _ _ _ _)
  case h_11 request rest pc =>
    exact .onDisk (by simp [WritePc.OnDisk, pc]) (by simp [pc]) (smartDiskIo_worksOnDisk _ _ _ _)
  case h_12 request rest pc =>
    exact .onDisk (by simp [WritePc.OnDisk, pc]) (by simp [pc]) (flush_worksOnDisk _ _ _ _ pc)
  case h_13 pc => exact .leave pc
  case h_14 pc => exact .stay pc

/-- What holds after each step of either thread holds after a step of the restore. -/
theorem AsyncRestore.step_induct {r : AsyncRestore} {s : AsyncState} {action : AsyncAction}
    {motive : AsyncState → Prop}
    (main : ∀ goesOn m g, action = .main goesOn →
      MainStep r.image r.number (s.write.pc == .finished) s.main s.shared m g →
      motive { s with main := m, shared := g })
    (write : ∀ answer w g, action = .write answer →
      WriteStep r.number r.LZ4_decompress_safe answer s.write s.shared w g →
      motive { s with write := w, shared := g }) : motive (r.step s action) := by
  cases action with
  | main goesOn => exact main goesOn _ _ rfl (mainStep_cases ..)
  | write answer => exact write answer _ _ rfl (writeStep_cases ..)

end Okr
