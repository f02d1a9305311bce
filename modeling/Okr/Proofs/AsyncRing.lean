import Okr.Proofs.AsyncSteps

/-! The ring between the two threads of the restore is a queue in every order of their steps. -/

namespace Okr

open BufferRing

variable {r : AsyncRestore} {s : AsyncState}

/-- The buffers handed over and not taken yet. -/
def AsyncState.pending (s : AsyncState) : List BufferInfo :=
  s.main.published.drop s.write.consumed.length

/-- What `RecoverWithAsyncIo` does with the ring at each of its places. -/
def MainPc.phase : MainPc → Producer
  | .testProducter _ slot | .testCompleted _ slot => .testing slot
  | .fill _ slot | .publish _ slot => .writing slot
  | .done _ | .returned _ => .gone
  | _ => .idle

/-- What `DiskWriteThread` does with the ring at each of its places. -/
def WritePc.phase : WritePc → Consumer
  | .testConsumer slot | .testCompleted slot => .testing slot
  | .readIndex slot | .readPartition slot | .readBitmap slot | .setWrite slot | .decompress slot
  | .clear slot _ => .reading slot
  | .leave | .finished => .gone
  | _ => .idle

/-- The threads use the ring as a queue, and what was taken is what was handed over first. -/
structure OnRing (r : AsyncRestore) (s : AsyncState) : Prop where
  order : s.write.consumed.map (·.buffer) ++ s.pending = s.main.published
  linked : Linked r.number s.shared.ring s.main.producer s.write.consumer s.main.published
    s.write.consumed.length s.main.pc.phase s.write.pc.phase
  content : ∀ record slot, s.main.pc = .publish record slot →
    s.shared.ring.content slot = record.buffer s.main.i

/-- The start, with an empty ring. -/
theorem OnRing.start (r : AsyncRestore) : OnRing r .start where
  order := rfl
  linked := .start fun _ => rfl
  content := by
    intro record slot pc
    cases pc

/-- The buffers handed over are those taken and those pending. -/
theorem OnRing.published_length (onRing : OnRing r s) :
    s.main.published.length = s.write.consumed.length + s.pending.length :=
  onRing.linked.length

/-- Where `DiskWriteThread` looks at a buffer it was handed, this is the one that is next. -/
theorem OnRing.next_content (onRing : OnRing r s) {slot : Nat}
    (pc : s.write.pc.phase = .reading slot) :
    s.pending.head? = some (s.shared.ring.content slot) := by
  have linked := onRing.linked
  rw [pc] at linked
  exact linked.front

/-- What is pending stays pending when more is handed over. -/
theorem pending_publish (onRing : OnRing r s) (more : List BufferInfo) :
    (s.main.published ++ more).drop s.write.consumed.length = s.pending ++ more :=
  onRing.linked.drop_append more

/-- Taking a buffer leaves the rest pending. -/
theorem pending_take (s : AsyncState) (t : Taken) :
    s.main.published.drop (s.write.consumed ++ [t]).length = s.pending.tail := by
  rw [List.length_append, List.length_singleton, AsyncState.pending, List.tail_drop]

/-- A step of `RecoverWithAsyncIo` that does nothing with the ring. -/
theorem OnRing.mainQuiet (onRing : OnRing r s) {m : MainThread} {g : SharedData}
    (published : m.published = s.main.published) (producer : m.producer = s.main.producer)
    (ring : g.ring = s.shared.ring) (phase : m.pc.phase = s.main.pc.phase)
    (before : ∀ record slot, m.pc ≠ .publish record slot) :
    OnRing r { s with main := m, shared := g } where
  order := by
    simp only [AsyncState.pending, published]
    exact onRing.order
  linked := by
    simp only [published, producer, ring, phase]
    exact onRing.linked
  content record slot pc := absurd pc (before record slot)

/-- A step of `DiskWriteThread` that does nothing with the ring. -/
theorem OnRing.writeQuiet (onRing : OnRing r s) {w : WriteThread} {g : SharedData}
    (consumed : w.consumed = s.write.consumed) (consumer : w.consumer = s.write.consumer)
    (ring : g.ring = s.shared.ring) (phase : w.pc.phase = s.write.pc.phase) :
    OnRing r { s with write := w, shared := g } where
  order := by
    simp only [AsyncState.pending, consumed]
    exact onRing.order
  linked := by
    simp only [consumed, consumer, ring, phase]
    exact onRing.linked
  content := by
    rw [show g.ring = _ from ring]
    exact onRing.content

/-- Each step of `RecoverWithAsyncIo` keeps the queue. -/
theorem OnRing.mainStep (onRing : OnRing r s) {finished : Bool} {m : MainThread} {g : SharedData}
    (step : MainStep r.image r.number finished s.main s.shared m g) :
    OnRing r { s with main := m, shared := g } := by
  have linked := onRing.linked
  cases step with
  | getProducter pc =>
    simp only [pc, MainPc.phase] at linked
    exact ⟨onRing.order, linked.getProducer r.number_pos, by simp⟩
  | bufferFree pc free =>
    simp only [pc, MainPc.phase] at linked
    exact ⟨onRing.order, linked.foundFree r.number_pos free, by simp⟩
  -- the slot to be published holds what was just written into it
  | @fill record slot pc accepted =>
    simp only [pc, MainPc.phase] at linked
    refine ⟨onRing.order, linked.fill _, ?_⟩
    intro record' slot' same
    obtain ⟨rfl, rfl⟩ := MainPc.publish.inj same
    exact Function.update_self ..
  -- only here does the queue itself grow, at its end
  | @publish record slot pc =>
    simp only [pc, MainPc.phase] at linked
    refine ⟨?_, linked.publish, by simp⟩
    rw [AsyncState.pending, pending_publish onRing, ← List.append_assoc, onRing.order]
  | fail producer pc => exact ⟨onRing.order, linked.producerGone _, by simp⟩
  | joined pc => exact ⟨onRing.order, linked.producerGone _, by simp⟩
  | stay => exact onRing
  | _ => exact onRing.mainQuiet rfl rfl rfl (by simp_all [MainPc.phase]) (by simp_all)

/-- Taking the front buffer keeps the queue. -/
theorem OnRing.take (onRing : OnRing r s) {slot : Nat} {w : WriteThread} {t : Taken}
    (pc : s.write.pc.phase = .reading slot) (consumed : w.consumed = s.write.consumed ++ [t])
    (consumer : w.consumer = s.write.consumer) (buffer : t.buffer = s.shared.ring.content slot)
    (idle : w.pc.phase = .idle ∨ w.pc.phase = .gone) :
    OnRing r
      { s with write := w, shared := { s.shared with ring := s.shared.ring.clear slot } } := by
  have linked := onRing.linked
  rw [pc] at linked
  constructor
  · -- The buffer taken is the first of those that were pending.
    have left : s.pending = t.buffer :: s.pending.tail := by
      rw [buffer]
      exact (List.cons_head?_tail (onRing.next_content pc)).symm
    rw [AsyncState.pending, consumed, pending_take, List.map_append, List.append_assoc,
      List.map_singleton, List.singleton_append, ← left]
    exact onRing.order
  · simp only [consumed, consumer, List.length_append, List.length_singleton]
    rcases idle with idle | gone
    · rw [idle]
      exact linked.take
    · rw [gone]
      exact linked.take.consumerGone _
  · exact onRing.content

/-- Each step of `DiskWriteThread` keeps the queue. -/
theorem OnRing.writeStep (onRing : OnRing r s) {answer : Bool} {w : WriteThread} {g : SharedData}
    (step : WriteStep r.number r.LZ4_decompress_safe answer s.write s.shared w g) :
    OnRing r { s with write := w, shared := g } := by
  have linked := onRing.linked
  cases step with
  | getConsumer pc =>
    simp only [pc, WritePc.phase] at linked
    exact ⟨onRing.order, linked.getConsumer r.number_pos, onRing.content⟩
  | bufferValid pc valid =>
    simp only [pc, WritePc.phase] at linked
    exact ⟨onRing.order, linked.foundValid r.number_pos valid, onRing.content⟩
  | giveUp pc => exact ⟨onRing.order, linked.consumerGone _, onRing.content⟩
  | failed pc => exact onRing.take (by rw [pc]; rfl) rfl rfl rfl (.inr rfl)
  | take pc => exact onRing.take (by rw [pc]; rfl) rfl rfl rfl (.inl rfl)
  | onDisk pc started works =>
    have idle : ∀ pc : WritePc, pc.OnDisk → pc.phase = .idle := by
      intro pc onDisk
      cases pc <;> simp only [WritePc.OnDisk] at onDisk <;> rfl
    exact onRing.writeQuiet works.consumed works.consumer rfl ((idle _ works.pc).trans (idle _ pc).symm)
  | stay => exact onRing
  | _ => exact onRing.writeQuiet rfl rfl rfl (by simp_all [WritePc.phase])

end Okr
