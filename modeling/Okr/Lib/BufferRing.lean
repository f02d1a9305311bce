import Mathlib.Logic.Function.Basic
import Mathlib.Data.Nat.ModEq
import Mathlib.Tactic.Ring

/-! A ring of buffers with valid flags between one producer and one consumer, as a queue. -/

namespace BufferRing

/-- The buffers of a ring: which of them hold data that was handed over, and their contents. -/
structure Buffers (α : Type*) where
  valid : Nat → Bool
  content : Nat → α

/-- The slot after a slot, which is the first one after the last. -/
def advance (number slot : Nat) : Nat := if slot + 1 ≥ number then 0 else slot + 1

/-- The slot before a slot, which is the last one before the first. -/
def retreat (number slot : Nat) : Nat := if slot = 0 then number - 1 else slot - 1

variable {α : Type*}

/-- Write a buffer that is not handed over yet. -/
def Buffers.fill (ring : Buffers α) (slot : Nat) (value : α) : Buffers α :=
  { ring with content := Function.update ring.content slot value }

/-- Hand a buffer over to the consumer. -/
def Buffers.publish (ring : Buffers α) (slot : Nat) : Buffers α :=
  { ring with valid := Function.update ring.valid slot true }

/-- Hand a buffer back to the producer. -/
def Buffers.clear (ring : Buffers α) (slot : Nat) : Buffers α :=
  { ring with valid := Function.update ring.valid slot false }

/-- The ring holds a queue, whose front lies in the slot of the buffer to be taken next. -/
structure Holds (number : Nat) (ring : Buffers α) (taken : Nat) (pending : List α) : Prop where
  fits : pending.length ≤ number
  valid : ∀ k < number, ring.valid ((taken + k) % number) = decide (k < pending.length)
  content : ∀ k (inside : k < pending.length), ring.content ((taken + k) % number) = pending[k]

variable {number taken : Nat} {ring : Buffers α} {pending rest : List α} {a : α}

/-- The indices of the slots follow the number of the buffers used so far. -/
theorem advance_mod (positive : 0 < number) (count : Nat) :
    advance number (count % number) = (count + 1) % number := by
  have below := Nat.mod_lt count positive
  unfold advance
  rw [← Nat.mod_add_mod]
  by_cases last : count % number + 1 = number
  · -- The last slot of a round is followed by the first slot of the next one.
    rw [if_pos (Nat.le_of_eq last.symm), last, Nat.mod_self]
  · have inside : count % number + 1 < number := by omega
    rw [if_neg (by omega), Nat.mod_eq_of_lt inside]

/-- Going back undoes going on. -/
theorem retreat_mod (positive : 0 < number) (count : Nat) :
    retreat number ((count + 1) % number) = count % number := by
  have below := Nat.mod_lt count positive
  rw [← advance_mod positive]
  unfold retreat advance
  split <;> split <;> omega

/-- Slots within one round of the ring are different. -/
theorem slot_inj {j k : Nat} (below : j < number) (below' : k < number)
    (same : (taken + j) % number = (taken + k) % number) : j = k :=
  Nat.ModEq.eq_of_lt_of_lt (Nat.ModEq.add_left_cancel' taken same) below below'

/-- A ring without valid buffers holds the empty queue. -/
theorem Holds.empty (free : ∀ slot, ring.valid slot = false) : Holds number ring taken [] where
  fits := Nat.zero_le _
  valid k _ := by simp [free]
  content k inside := absurd inside (Nat.not_lt_zero k)

/-- The front buffer is valid exactly when the queue is not empty. -/
theorem Holds.front_valid (positive : 0 < number) (holds : Holds number ring taken pending) :
    ring.valid (taken % number) = decide (pending ≠ []) := by
  have front := holds.valid 0 positive
  rw [Nat.add_zero] at front
  rw [front]
  exact decide_eq_decide.mpr List.length_pos_iff

/-- The front buffer contains the front of the queue. -/
theorem Holds.front_content (holds : Holds number ring taken (a :: rest)) :
    ring.content (taken % number) = a :=
  holds.content 0 (Nat.succ_pos _)

/-- When the buffer behind the queue is free, the queue is not full. -/
theorem Holds.room (positive : 0 < number) (holds : Holds number ring taken pending)
    (free : ring.valid ((taken + pending.length) % number) = false) : pending.length < number := by
  -- In a full ring the buffer behind the queue is its front again.
  by_contra full
  have all : pending.length = number := Nat.le_antisymm holds.fits (Nat.le_of_not_lt full)
  rw [all, Nat.add_mod_right, holds.front_valid positive] at free
  have none_ := of_decide_eq_false free
  rw [ne_eq, not_not] at none_
  rw [none_, List.length_nil] at all
  omega

/-- Writing the buffer behind a queue with room leaves the queue as it is. -/
theorem Holds.fill (holds : Holds number ring taken pending) (room : pending.length < number)
    (value : α) : Holds number (ring.fill ((taken + pending.length) % number) value) taken pending where
  fits := holds.fits
  valid := holds.valid
  content k inside := by
    have other : (taken + k) % number ≠ (taken + pending.length) % number := fun same =>
      Nat.ne_of_lt inside (slot_inj (Nat.lt_trans inside room) room same)
    simp only [Buffers.fill, Function.update_of_ne other]
    exact holds.content k inside

/-- Handing over the buffer behind a queue with room puts its content at the end. -/
theorem Holds.publish (holds : Holds number ring taken pending) (room : pending.length < number)
    (filled : ring.content ((taken + pending.length) % number) = a) :
    Holds number (ring.publish ((taken + pending.length) % number)) taken (pending ++ [a]) where
  fits := by
    rw [List.length_append]
    exact room
  valid k below := by
    rw [List.length_append, List.length_singleton]
    by_cases last : k = pending.length
    · subst last
      simp [Buffers.publish]
    · have other : (taken + k) % number ≠ (taken + pending.length) % number := fun same =>
        last (slot_inj below room same)
      simp only [Buffers.publish, Function.update_of_ne other, holds.valid k below]
      exact decide_eq_decide.mpr (by omega)
  content k inside := by
    rw [List.length_append, List.length_singleton] at inside
    by_cases last : k = pending.length
    · subst last
      simpa [Buffers.publish] using filled
    · rw [List.getElem_append_left (by omega)]
      exact holds.content k (by omega)

/-- The buffer behind a queue with room is free; filled and handed over, it is the end of the queue. -/
theorem Holds.handOver (holds : Holds number ring taken pending) (room : pending.length < number)
    (value : α) {slot : Nat} (place : slot = (taken + pending.length) % number) :
    ring.valid slot = false
      ∧ Holds number ((ring.fill slot value).publish slot) taken (pending ++ [value]) := by
  rw [place]
  refine ⟨?_, (holds.fill room value).publish room (Function.update_self ..)⟩
  rw [holds.valid _ room]
  exact decide_eq_false (Nat.lt_irrefl _)

/-- Handing the front buffer back takes the front off the queue. -/
theorem Holds.clear (holds : Holds number ring taken (a :: rest)) :
    Holds number (ring.clear (taken % number)) (taken + 1) rest where
  fits := Nat.le_of_succ_le holds.fits
  valid k below := by
    have move : taken + 1 + k = taken + (k + 1) := by omega
    rw [move]
    -- One round after the front lies the front again, which is free now.
    by_cases last : k + 1 = number
    · have room : rest.length < number := holds.fits
      rw [last, Nat.add_mod_right]
      simp only [Buffers.clear, Function.update_self]
      exact (decide_eq_false (by omega)).symm
    · have other : (taken + (k + 1)) % number ≠ taken % number := fun same => by
        have zero := slot_inj (k := 0) (by omega) (by omega) same
        omega
      have before := holds.valid (k + 1) (by omega)
      simp only [Buffers.clear, Function.update_of_ne other, before]
      exact decide_eq_decide.mpr (by simp)
  content k inside := by
    have move : taken + 1 + k = taken + (k + 1) := by omega
    rw [move]
    exact holds.content (k + 1) (by simpa using inside)

/-- What the producer is about to do with a buffer. -/
inductive Producer where
  | idle
  | testing (slot : Nat)
  | writing (slot : Nat)
  | gone

/-- What the consumer is about to do with a buffer. -/
inductive Consumer where
  | idle
  | testing (slot : Nat)
  | reading (slot : Nat)
  | gone

/-- The producer's index stands behind the buffers handed over, and it writes only where there is room. -/
def Producer.At (number index handed left : Nat) : Producer → Prop
  | .idle => index = handed % number
  | .testing slot => slot = handed % number ∧ index = (handed + 1) % number
  | .writing slot => slot = handed % number ∧ index = (handed + 1) % number ∧ left < number
  | .gone => True

/-- The consumer's index stands behind the buffers taken, and it reads only what was handed over. -/
def Consumer.At (number index taken left : Nat) : Consumer → Prop
  | .idle => index = taken % number
  | .testing slot => slot = taken % number ∧ index = (taken + 1) % number
  | .reading slot => slot = taken % number ∧ index = (taken + 1) % number ∧ left ≠ 0
  | .gone => True

/--
A producer and a consumer with indices of their own use a ring as a queue.

The buffers handed over are listed from the start, and the first of them have been taken.
-/
structure Linked (number : Nat) (ring : Buffers α) (producer consumer : Nat) (handed : List α)
    (taken : Nat) (p : Producer) (c : Consumer) : Prop where
  within : taken ≤ handed.length
  holds : Holds number ring taken (handed.drop taken)
  producer : p.At number producer handed.length (handed.drop taken).length
  consumer : c.At number consumer taken (handed.drop taken).length

variable {producer consumer slot : Nat} {handed : List α} {p : Producer} {c : Consumer}

/-- The start: nothing is handed over, and both indices stand at the first buffer. -/
theorem Linked.start (free : ∀ slot, ring.valid slot = false) :
    Linked number ring 0 0 [] 0 .idle .idle where
  within := Nat.le_refl 0
  holds := .empty free
  producer := (Nat.zero_mod number).symm
  consumer := (Nat.zero_mod number).symm

/-- The buffers handed over are those taken and those left. -/
theorem Linked.length (linked : Linked number ring producer consumer handed taken p c) :
    handed.length = taken + (handed.drop taken).length := by
  have within := linked.within
  rw [List.length_drop]
  omega

/-- The producer takes a buffer from the ring and moves its index on. -/
theorem Linked.getProducer (positive : 0 < number)
    (linked : Linked number ring producer consumer handed taken .idle c) :
    Linked number ring (advance number producer) consumer handed taken (.testing producer) c where
  within := linked.within
  holds := linked.holds
  producer := by
    have place : producer = handed.length % number := linked.producer
    exact ⟨place, by rw [place, advance_mod positive]⟩
  consumer := linked.consumer

/-- The buffer behind the queue is not valid, so there is room for one more. -/
theorem Linked.foundFree (positive : 0 < number)
    (linked : Linked number ring producer consumer handed taken (.testing slot) c)
    (free : ring.valid slot = false) :
    Linked number ring producer consumer handed taken (.writing slot) c where
  within := linked.within
  holds := linked.holds
  producer := by
    obtain ⟨behind, index⟩ := linked.producer
    rw [behind, linked.length] at free
    exact ⟨behind, index, linked.holds.room positive free⟩
  consumer := linked.consumer

/-- The producer writes its buffer. -/
theorem Linked.fill (linked : Linked number ring producer consumer handed taken (.writing slot) c)
    (value : α) :
    Linked number (ring.fill slot value) producer consumer handed taken (.writing slot) c where
  within := linked.within
  holds := by
    obtain ⟨behind, -, room⟩ := linked.producer
    rw [behind, linked.length]
    exact linked.holds.fill room value
  producer := linked.producer
  consumer := linked.consumer

/-- More buffers stay in the ring once one is handed over. -/
theorem Linked.drop_append (linked : Linked number ring producer consumer handed taken p c)
    (more : List α) : (handed ++ more).drop taken = handed.drop taken ++ more :=
  List.drop_append_of_le_length linked.within

/-- The producer hands its buffer over as it is. -/
theorem Linked.publish
    (linked : Linked number ring producer consumer handed taken (.writing slot) c) :
    Linked number (ring.publish slot) producer consumer (handed ++ [ring.content slot]) taken .idle
      c where
  within := by
    rw [List.length_append]
    exact Nat.le_add_right_of_le linked.within
  holds := by
    obtain ⟨behind, -, room⟩ := linked.producer
    have length := linked.length
    rw [linked.drop_append, behind, length]
    exact linked.holds.publish room rfl
  producer := by
    rw [List.length_append, List.length_singleton]
    exact linked.producer.2.1
  consumer := by
    have consumer := linked.consumer
    rw [linked.drop_append, List.length_append, List.length_singleton]
    cases c with
    | reading slot => exact ⟨consumer.1, consumer.2.1, Nat.succ_ne_zero _⟩
    | _ => exact consumer

/-- The producer gives its buffer up, and its index goes back. -/
theorem Linked.giveBack (positive : 0 < number)
    (linked : Linked number ring producer consumer handed taken (.testing slot) c) :
    Linked number ring (retreat number producer) consumer handed taken .idle c where
  within := linked.within
  holds := linked.holds
  producer := by
    obtain ⟨-, index⟩ := linked.producer
    show retreat number producer = handed.length % number
    rw [index, retreat_mod positive]
  consumer := linked.consumer

/-- The producer may leave at any time. -/
theorem Linked.producerGone (linked : Linked number ring producer consumer handed taken p c)
    (index : Nat) : Linked number ring index consumer handed taken .gone c where
  within := linked.within
  holds := linked.holds
  producer := trivial
  consumer := linked.consumer

/-- The consumer takes a buffer from the ring and moves its index on. -/
theorem Linked.getConsumer (positive : 0 < number)
    (linked : Linked number ring producer consumer handed taken p .idle) :
    Linked number ring producer (advance number consumer) handed taken p (.testing consumer) where
  within := linked.within
  holds := linked.holds
  producer := linked.producer
  consumer := by
    have place : consumer = taken % number := linked.consumer
    exact ⟨place, by rw [place, advance_mod positive]⟩

/-- The front buffer of the ring is valid exactly when something is left. -/
theorem Linked.front_valid (positive : 0 < number)
    (linked : Linked number ring producer consumer handed taken p (.testing slot)) :
    ring.valid slot = decide (handed.drop taken ≠ []) := by
  rw [linked.consumer.1]
  exact linked.holds.front_valid positive

/-- A valid buffer at the consumer's place has been handed over. -/
theorem Linked.foundValid (positive : 0 < number)
    (linked : Linked number ring producer consumer handed taken p (.testing slot))
    (valid : ring.valid slot = true) :
    Linked number ring producer consumer handed taken p (.reading slot) where
  within := linked.within
  holds := linked.holds
  producer := linked.producer
  consumer := by
    rw [linked.front_valid positive] at valid
    have some_ := of_decide_eq_true valid
    exact ⟨linked.consumer.1, linked.consumer.2, fun zero => some_ (List.length_eq_zero_iff.mp zero)⟩

/-- While the consumer reads a buffer, something is left. -/
theorem Linked.cons_left
    (linked : Linked number ring producer consumer handed taken p (.reading slot)) :
    ∃ a rest, handed.drop taken = a :: rest :=
  List.exists_cons_of_length_pos (Nat.pos_of_ne_zero linked.consumer.2.2)

/-- The buffer the consumer reads is the first of those left. -/
theorem Linked.front (linked : Linked number ring producer consumer handed taken p (.reading slot)) :
    (handed.drop taken).head? = some (ring.content slot) := by
  obtain ⟨place, -, -⟩ := linked.consumer
  obtain ⟨a, rest, left⟩ := linked.cons_left
  have holds := linked.holds
  rw [left] at holds
  rw [place, holds.front_content, left, List.head?_cons]

/-- The consumer hands its buffer back. -/
theorem Linked.take (linked : Linked number ring producer consumer handed taken p (.reading slot)) :
    Linked number (ring.clear slot) producer consumer handed (taken + 1) p .idle := by
  obtain ⟨place, index, -⟩ := linked.consumer
  obtain ⟨a, rest, left⟩ := linked.cons_left
  have tail : handed.drop (taken + 1) = rest := by rw [← List.tail_drop, left, List.tail_cons]
  have holds := linked.holds
  have writer := linked.producer
  have length := linked.length
  rw [left] at holds writer length
  refine ⟨?_, ?_, ?_, index⟩
  · rw [List.length_cons] at length
    omega
  · rw [tail, place]
    exact holds.clear
  · rw [tail]
    cases p with
    | writing slot => exact ⟨writer.1, writer.2.1, Nat.lt_of_succ_lt writer.2.2⟩
    | _ => exact writer

/-- The consumer may leave at any time. -/
theorem Linked.consumerGone (linked : Linked number ring producer consumer handed taken p c)
    (index : Nat) : Linked number ring producer index handed taken p .gone where
  within := linked.within
  holds := linked.holds
  producer := linked.producer
  consumer := trivial

end BufferRing
