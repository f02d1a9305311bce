import Okr.Lib.Runs
import Okr.Proofs.AsyncPartition

/-! The hand-over between the two threads of the restore, unless the last units are lost. -/

namespace Okr

open BufferRing Runs

variable {r : AsyncRestore} {s : AsyncState}

/-- The thread has left its loop. -/
def WritePc.Left : WritePc → Prop
  | .leave | .finished => True
  | _ => False

/-- `RecoverWithAsyncIo` has read everything, and ends without an error. -/
def MainPc.Succeeds : MainPc → Prop
  | .join => True
  | .done ret | .returned ret => ret = 0
  | _ => False

/-- `RecoverWithAsyncIo` ends with an error. -/
def MainPc.Fails : MainPc → Prop
  | .done ret | .returned ret => ret ≠ 0
  | _ => False

/-- `bCompleted` is set at an end, and a return without error comes after the other thread's end. -/
structure Ending (s : AsyncState) : Prop where
  completed : s.shared.bCompleted = true →
    s.main.pc = .join ∨ (∃ ret, s.main.pc = .returned ret) ∨ s.write.pc = .finished
  success : s.main.pc.Succeeds → s.main.pc = .join ∨ s.write.pc = .finished

/-- The state of the restore in every run. -/
structure Sound (r : AsyncRestore) (s : AsyncState) : Prop where
  ring : OnRing r s
  partition : OnPartition r s
  ending : Ending s

/-- A failed decompression was the last one of the thread. -/
def Failed (s : AsyncState) : Prop := ∃ t ∈ s.write.consumed, t.data = none

/-- The thread left after a failure, with nothing pending at the end, or after an error elsewhere. -/
def Lossless (s : AsyncState) : Prop :=
  s.write.pc.Left → Failed s ∨ s.pending = [] ∧ s.main.pc.Succeeds ∨ s.main.pc.Fails

/-- The buffer that was found empty, where the thread asks whether all is completed. -/
def WritePc.testing : WritePc → Option Nat
  | .testCompleted slot => some slot
  | _ => none

/-- The completion test of `GetConsumer` never ends the thread while a finished reader left data. -/
def TestKeeps (s : AsyncState) : AsyncAction → Prop
  | .main _ => True
  | .write _ =>
    ∀ slot ∈ s.write.pc.testing, ¬ (s.main.pc = .join ∧ s.shared.ring.valid slot = true)

instance (s : AsyncState) : ∀ action, Decidable (TestKeeps s action)
  | .main _ => instDecidableTrue
  | .write _ =>
    inferInstanceAs (Decidable (∀ slot ∈ s.write.pc.testing,
      ¬ (s.main.pc = .join ∧ s.shared.ring.valid slot = true)))

/-- Both threads have ended without an error. -/
def FinishedWithoutError (s : AsyncState) : Prop :=
  s.main.pc = .returned 0 ∧ s.write.pc = .finished ∧ ¬ Failed s

instance (s : AsyncState) : Decidable (Failed s) :=
  inferInstanceAs (Decidable (∃ t ∈ s.write.consumed, t.data = none))

instance (s : AsyncState) : Decidable (FinishedWithoutError s) :=
  inferInstanceAs (Decidable (_ ∧ _ ∧ _))

/-- Buffers are taken once, in the order they were handed over, with partition and bitmap. -/
structure HandedOver (image : RestoreImage) (s : AsyncState) : Prop where
  own : ∀ t ∈ s.write.consumed, t.Right image
  order : s.write.consumed.map (·.buffer) <+: s.main.published
  all : FinishedWithoutError s → s.write.consumed.map (·.buffer) = s.main.published

/-- `RecoverWithAsyncIo` is before its end. -/
def MainPc.InLoop : MainPc → Prop
  | .join | .done _ | .returned _ => False
  | _ => True

/-- Before its end `RecoverWithAsyncIo` sees `bCompleted` only from the other thread. -/
theorem Ending.inLoop (ending : Ending s) {m : MainThread} {g : SharedData}
    (before : s.main.pc.InLoop) (same : g.bCompleted = s.shared.bCompleted)
    (after : ¬ m.pc.Succeeds) : Ending { s with main := m, shared := g } := by
  refine ⟨fun set => ?_, fun succeeds => absurd succeeds after⟩
  rw [show g.bCompleted = _ from same] at set
  rcases ending.completed set with join | ⟨ret, returned⟩ | gone
  · rw [join] at before
    exact before.elim
  · rw [returned] at before
    exact before.elim
  · exact .inr (.inr gone)

/-- Each step of `RecoverWithAsyncIo` keeps the facts about the end. -/
theorem Ending.mainStep (ending : Ending s) {m : MainThread} {g : SharedData}
    (step : MainStep r.image r.number (s.write.pc == .finished) s.main s.shared m g) :
    Ending { s with main := m, shared := g } := by
  cases step with
  | stay => exact ending
  | complete pc => exact ⟨fun _ => .inl rfl, fun _ => .inl rfl⟩
  | joined pc ended =>
    have gone : s.write.pc = .finished := by simpa using ended
    exact ⟨fun _ => .inr (.inr gone), fun _ => .inr gone⟩
  | @return_ ret pc =>
    refine ⟨fun _ => .inr (.inl ⟨ret, rfl⟩), fun zero => ?_⟩
    have succeeds : s.main.pc.Succeeds := by
      rw [pc]
      exact zero
    rcases ending.success succeeds with join | gone
    · rw [pc] at join
      cases join
    · exact .inr gone
  | fail producer pc =>
    refine ending.inLoop ?_ rfl (by simp [MainPc.Succeeds])
    cases at_ : s.main.pc <;> simp only [at_, MainPc.MayFail, MainPc.InLoop] at pc ⊢
  | _ => exact ending.inLoop (by simp_all [MainPc.InLoop]) rfl (by simp_all [MainPc.Succeeds])

/-- Each step of `DiskWriteThread` keeps the facts about the end. -/
theorem Ending.writeStep (ending : Ending s) {answer : Bool} {w : WriteThread} {g : SharedData}
    (step : WriteStep r.number r.LZ4_decompress_safe answer s.write s.shared w g) :
    Ending { s with write := w, shared := g } := by
  have before : s.write.pc ≠ .finished → g.bCompleted = s.shared.bCompleted →
      Ending { s with write := w, shared := g } := by
    intro on same
    constructor
    · intro set
      rw [show g.bCompleted = _ from same] at set
      rcases ending.completed set with join | returned | gone
      · exact .inl join
      · exact .inr (.inl returned)
      · exact absurd gone on
    · intro succeeds
      exact .inl ((ending.success succeeds).resolve_right on)
  cases step with
  | stay => exact ending
  | leave pc =>
    -- The thread sets the flag as its last step.
    exact ⟨fun _ => .inr (.inr rfl), fun _ => .inr rfl⟩
  | onDisk pc =>
    refine before ?_ rfl
    intro gone
    simp only [gone, WritePc.OnDisk] at pc
  | _ => exact before (by simp_all) rfl

/-- The start is as it should be. -/
theorem Sound.start (r : AsyncRestore) : Sound r .start where
  ring := .start r
  partition :=
    { handed := ⟨[], [], rfl, by simp, by simp⟩
      bitmap := by
        intro _ i none_
        cases none_
      main := trivial
      write := by
        refine ⟨rfl, ?_⟩
        intro i none_
        cases none_
      taken := by
        intro t mem
        cases mem }
  ending := ⟨fun set => absurd set Bool.false_ne_true, fun succeeds => succeeds.elim⟩

/-- Each step of `RecoverWithAsyncIo` keeps the state sound. -/
theorem Sound.mainStep (sound : Sound r s) {m : MainThread} {g : SharedData}
    (step : MainStep r.image r.number (s.write.pc == .finished) s.main s.shared m g) :
    Sound r { s with main := m, shared := g } where
  ring := sound.ring.mainStep step
  partition := sound.partition.mainStep sound.ring step
  ending := sound.ending.mainStep step

/-- Each step of `DiskWriteThread` keeps the state sound. -/
theorem Sound.writeStep (sound : Sound r s) {answer : Bool} {w : WriteThread} {g : SharedData}
    (step : WriteStep r.number r.LZ4_decompress_safe answer s.write s.shared w g) :
    Sound r { s with write := w, shared := g } where
  ring := sound.ring.writeStep step
  partition := sound.partition.writeStep sound.ring step
  ending := sound.ending.writeStep step

/-- An end without an error is not an end with one. -/
theorem MainPc.Succeeds.not_fails {pc : MainPc} (succeeds : pc.Succeeds) : ¬ pc.Fails := by
  cases pc <;> simp_all [MainPc.Succeeds, MainPc.Fails]

/-- Each step of `RecoverWithAsyncIo` keeps that nothing is lost. -/
theorem Lossless.mainStep (lossless : Lossless s) {m : MainThread} {g : SharedData} {finished : Bool}
    (step : MainStep r.image r.number finished s.main s.shared m g) :
    Lossless { s with main := m, shared := g } := by
  intro left
  rcases lossless left with failed | ⟨empty, succeeds⟩ | fails
  · exact .inl failed
  · -- At its end without an error the reading side hands nothing over any more.
    refine .inr (.inl ?_)
    cases step with
    | stay => exact ⟨empty, succeeds⟩
    | joined pc => exact ⟨empty, rfl⟩
    | return_ pc =>
      rw [pc] at succeeds
      exact ⟨empty, succeeds⟩
    | fail producer pc => cases at_ : s.main.pc <;> simp_all [MainPc.MayFail, MainPc.Succeeds]
    | _ => simp_all [MainPc.Succeeds]
  · refine .inr (.inr ?_)
    cases step with
    | stay => exact fails
    | return_ pc =>
      rw [pc] at fails
      exact fails
    | fail producer pc => cases at_ : s.main.pc <;> simp_all [MainPc.MayFail, MainPc.Fails]
    | _ => simp_all [MainPc.Fails]

/-- Each step of `DiskWriteThread` keeps that nothing is lost, when its test does. -/
theorem Lossless.writeStep (lossless : Lossless s) (sound : Sound r s) {answer : Bool}
    {w : WriteThread} {g : SharedData} (keeps : TestKeeps s (.write answer))
    (step : WriteStep r.number r.LZ4_decompress_safe answer s.write s.shared w g) :
    Lossless { s with write := w, shared := g } := by
  cases step with
  | @giveUp slot pc completed =>
    intro _
    rcases sound.ending.completed completed with join | ⟨ret, returned⟩ | gone
    · -- The reading side has finished, and the test finds the front buffer empty.
      have linked := sound.ring.linked
      simp only [pc, WritePc.phase] at linked
      have none_ : s.pending = [] := by
        by_contra some_
        refine keeps slot (by rw [pc]; rfl) ⟨join, ?_⟩
        rw [linked.front_valid r.number_pos]
        exact decide_eq_true some_
      refine .inr (.inl ⟨none_, ?_⟩)
      show s.main.pc.Succeeds
      rw [join]
      trivial
    · refine .inr (.inr ?_)
      show s.main.pc.Fails
      rw [returned]
      intro zero
      -- A return without an error would have waited for this thread.
      have success := sound.ending.success (by rw [returned]; exact zero)
      simp [returned, pc] at success
    · rw [pc] at gone
      cases gone
  | failed pc =>
    intro _
    exact .inl ⟨_, List.mem_append_right _ (List.mem_singleton.mpr rfl), rfl⟩
  | leave pc =>
    intro _
    exact lossless (by rw [pc]; trivial)
  | stay => exact lossless
  | onDisk pc started works =>
    intro left
    have onDisk := works.pc
    cases at_ : w.pc <;> simp_all [WritePc.OnDisk, WritePc.Left]
  | _ => exact fun left => left.elim

/-- In a run that loses nothing, the buffers are handed over. -/
theorem handedOver (sound : Sound r s) (lossless : Lossless s) : HandedOver r.image s := by
  refine ⟨sound.partition.taken, ⟨s.pending, sound.ring.order⟩, ?_⟩
  rintro ⟨main, write, succeeded⟩
  rcases lossless (by rw [write]; trivial) with failed | ⟨empty, -⟩ | fails
  · exact absurd failed succeeded
  · have order := sound.ring.order
    rw [empty, List.append_nil] at order
    exact order
  · rw [main] at fails
    exact absurd rfl fails

/-- What a run keeps whose completion tests keep what is pending. -/
structure Keeping (r : AsyncRestore) (s : AsyncState) : Prop where
  sound : Sound r s
  lossless : Lossless s

/-- Each step whose completion test keeps what is pending loses nothing. -/
theorem Keeping.step (keeping : Keeping r s) {action : AsyncAction} (keeps : TestKeeps s action) :
    Keeping r (r.step s action) := by
  apply AsyncRestore.step_induct
  · intro goesOn m g _ step
    exact ⟨keeping.sound.mainStep step, keeping.lossless.mainStep step⟩
  · intro answer w g same step
    rw [same] at keeps
    exact ⟨keeping.sound.writeStep step, keeping.lossless.writeStep keeping.sound keeps step⟩

/--
The ring hands every unit over exactly once and in order, with its own partition and bitmap.

This holds in every state of a run, whatever the order of the steps of the two threads.
The only step to be excluded is the thread's completion test right after the last buffers came.
-/
theorem restore_handsOver (r : AsyncRestore) (actions : List AsyncAction)
    (keeps : Along r.step TestKeeps .start actions) :
    HandedOver r.image (run r.step .start actions) := by
  have kept : ∀ s action, Keeping r s → TestKeeps s action → Keeping r (r.step s action) :=
    fun s action before test => before.step test
  have last : Keeping r (run r.step .start actions) :=
    invariant kept ⟨.start r, fun left => left.elim⟩ keeps
  exact handedOver last.sound last.lossless

/-- An image with one partition of one block, and a single unit that was kept as it is. -/
def oneUnit : AsyncRestore where
  image :=
    { partition :=
        [{ entry := { bIfBackup := true, backupDataSize := 4096 + 20, totalSectors := 64 }
           bitmap := [1]
           units := [⟨UNCOMPRESS_MAGIC, 4, 20, [1, 2, 3, 4]⟩] }]
      compressBlockSize := 65536
      bounded := by decide }
  number := 2
  number_pos := by decide
  LZ4_decompress_safe := fun _ => none

/-- The steps of the threads one after the other: the unit is there when it is looked for. -/
def keepingOrder : List AsyncAction :=
  List.replicate 14 (.main true) ++ List.replicate 20 (.write true) ++ List.replicate 3 (.main true)

/-- The whole restore of the image with one unit hands it over. -/
theorem restore_handsOver_oneUnit :
    HandedOver oneUnit.image (run oneUnit.step .start keepingOrder)
      ∧ FinishedWithoutError (run oneUnit.step .start keepingOrder)
      ∧ (run oneUnit.step .start keepingOrder).main.published.length = 1 :=
  ⟨restore_handsOver oneUnit keepingOrder (by decide), by decide, by decide⟩

/-- The thread tests its buffer, the unit comes and the reader finishes, then it tests the end. -/
def losingOrder : List AsyncAction :=
  List.replicate 2 (.write true) ++ List.replicate 14 (.main true) ++ List.replicate 2 (.write true)
    ++ List.replicate 2 (.main true)

/-- Both threads end without an error, and nobody has taken the unit. -/
theorem restore_loses :
    ¬ ∀ (r : AsyncRestore) (actions : List AsyncAction),
      HandedOver r.image (run r.step .start actions) := by
  intro all
  have order := (all oneUnit losingOrder).all (by decide)
  revert order
  decide

end Okr
