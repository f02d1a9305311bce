import Okr.Proofs.BackupSteps

/-! The ring between the two threads of the backup is a queue in every order of their steps. -/

namespace Okr

open BufferRing

variable {b : BackupJob} {s : BackupState}

/-- The buffers handed over and not taken yet. -/
def BackupState.pending (s : BackupState) : List BackupBuffer :=
  s.read.published.drop s.main.consumed.length

/-- What `DiskReadThread` does with the ring at each of its places. -/
def ReadPc.phase : ReadPc → Producer
  | .testProducter slot | .testCompleted slot => .testing slot
  | .readUnit slot | .compress slot _ | .fill slot _ _ | .publish slot _ => .writing slot
  | .leave | .finished => .gone
  | _ => .idle

/-- What `BackupWithAsyncIo` does with the ring at each of its places. -/
def BackupPc.phase : BackupPc → Consumer
  | .testConsumer slot | .testCompleted slot => .testing slot
  | .writeUnit slot | .clear slot => .reading slot
  | .done _ | .join _ | .returned _ => .gone
  | _ => .idle

/-- The threads use the ring as a queue, and what was taken is what was handed over first. -/
structure BackupOnRing (b : BackupJob) (s : BackupState) : Prop where
  order : s.main.consumed ++ s.pending = s.read.published
  linked : Linked b.number s.shared.ring s.read.producer s.main.consumer s.read.published
    s.main.consumed.length s.read.pc.phase s.main.pc.phase

/-- The start, with an empty ring. -/
theorem BackupOnRing.start (b : BackupJob) : BackupOnRing b .start where
  order := rfl
  linked := .start fun _ => rfl

/-- Where `BackupWithAsyncIo` looks at a buffer it was handed, this is the one that is next. -/
theorem BackupOnRing.next_content (onRing : BackupOnRing b s) {slot : Nat}
    (pc : s.main.pc.phase = .reading slot) :
    s.pending.head? = some (s.shared.ring.content slot) := by
  have linked := onRing.linked
  rw [pc] at linked
  exact linked.front

/-- A step of `DiskReadThread` that does nothing with the ring. -/
theorem BackupOnRing.readQuiet (onRing : BackupOnRing b s) {t : ReadThread} {g : BackupShared}
    (published : t.published = s.read.published) (producer : t.producer = s.read.producer)
    (ring : g.ring = s.shared.ring) (phase : t.pc.phase = s.read.pc.phase) :
    BackupOnRing b { s with read := t, shared := g } where
  order := by
    simp only [BackupState.pending, published]
    exact onRing.order
  linked := by
    simp only [published, producer, ring, phase]
    exact onRing.linked

/-- A step of `BackupWithAsyncIo` that does nothing with the ring. -/
theorem BackupOnRing.mainQuiet (onRing : BackupOnRing b s) {m : BackupThread} {g : BackupShared}
    (consumed : m.consumed = s.main.consumed) (consumer : m.consumer = s.main.consumer)
    (ring : g.ring = s.shared.ring) (phase : m.pc.phase = s.main.pc.phase) :
    BackupOnRing b { s with main := m, shared := g } where
  order := by
    simp only [BackupState.pending, consumed]
    exact onRing.order
  linked := by
    simp only [consumed, consumer, ring, phase]
    exact onRing.linked

/-- Each step of `DiskReadThread` keeps the queue. -/
theorem BackupOnRing.readStep (onRing : BackupOnRing b s) {t : ReadThread} {g : BackupShared}
    (step : ReadStep b s.read s.shared t g) :
    BackupOnRing b { s with read := t, shared := g } := by
  have linked := onRing.linked
  cases step with
  | getProducter pc =>
    simp only [pc, ReadPc.phase] at linked
    exact ⟨onRing.order, linked.getProducer b.number_pos⟩
  | bufferFree pc free =>
    simp only [pc, ReadPc.phase] at linked
    exact ⟨onRing.order, linked.foundFree b.number_pos free⟩
  | noBuffer pc =>
    simp only [pc, ReadPc.phase] at linked
    exact ⟨onRing.order, linked.giveBack b.number_pos⟩
  | fill pc =>
    simp only [pc, ReadPc.phase] at linked
    exact ⟨onRing.order, linked.fill _⟩
  -- the queue grows by the chunk of this slot; every other step leaves it
  | @publish slot filled pc =>
    simp only [pc, ReadPc.phase] at linked
    refine ⟨?_, linked.publish⟩
    rw [BackupState.pending, linked.drop_append, ← List.append_assoc]
    exact congrArg (· ++ _) onRing.order
  | allRead pc => exact ⟨onRing.order, linked.producerGone _⟩
  | stopped pc => exact ⟨onRing.order, linked.producerGone _⟩
  | compressFailed pc => exact ⟨onRing.order, linked.producerGone _⟩
  | stay pc => exact onRing
  | _ => exact onRing.readQuiet rfl rfl rfl (by simp_all [ReadPc.phase])

/-- Each step of `BackupWithAsyncIo` keeps the queue. -/
theorem BackupOnRing.mainStep (onRing : BackupOnRing b s) {goesOn finished : Bool}
    {m : BackupThread} {g : BackupShared}
    (step : SaveStep b goesOn finished s.main s.shared m g) :
    BackupOnRing b { s with main := m, shared := g } := by
  have linked := onRing.linked
  cases step with
  | getConsumer pc =>
    simp only [pc, BackupPc.phase] at linked
    exact ⟨onRing.order, linked.getConsumer b.number_pos⟩
  | bufferValid pc valid =>
    simp only [pc, BackupPc.phase] at linked
    exact ⟨onRing.order, linked.foundValid b.number_pos valid⟩
  | @clear slot pc =>
    have head := onRing.next_content (by rw [pc]; rfl)
    simp only [pc, BackupPc.phase] at linked
    constructor
    · -- The buffer taken is the first of those that were pending.
      have left : s.pending = s.shared.ring.content slot :: s.pending.tail :=
        (List.cons_head?_tail head).symm
      rw [BackupState.pending, List.length_append, List.length_singleton, ← List.tail_drop,
        List.append_assoc, List.singleton_append]
      exact (congrArg (s.main.consumed ++ ·) left.symm).trans onRing.order
    · simp only [List.length_append, List.length_singleton]
      exact linked.take
  | allSaved pc => exact ⟨onRing.order, linked.consumerGone _⟩
  | giveUp consumer pc => exact ⟨onRing.order, linked.consumerGone _⟩
  | stop pc => exact ⟨onRing.order, linked.consumerGone _⟩
  | stay => exact onRing
  | _ => exact onRing.mainQuiet rfl rfl rfl (by simp_all [BackupPc.phase])

end Okr
