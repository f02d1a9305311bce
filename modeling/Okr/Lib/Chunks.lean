import Mathlib.Tactic.Ring

/-! A list cut into chunks of one length, the last of which may be shorter. -/

namespace Chunks

variable {α : Type*} {size : Nat}

/-- The first so many chunks of a list. -/
def firstChunks (size : Nat) : Nat → List α → List (List α)
  | 0, _ => []
  | _ + 1, [] => []
  | n + 1, a :: l => (a :: l).take size :: firstChunks size n ((a :: l).drop size)

/-- A list has no more chunks than elements. -/
def chunks (size : Nat) (l : List α) : List (List α) := firstChunks size l.length l

/-- Counting further than the length finds no more chunks. -/
theorem firstChunks_eq (positive : 0 < size) {n : Nat} {l : List α} (long : l.length ≤ n) :
    firstChunks size n l = chunks size l := by
  unfold chunks
  induction n using Nat.strong_induction_on generalizing l with
  | _ n ih =>
    match n, l with
    | 0, l =>
      rw [List.length_eq_zero_iff.mp (Nat.le_zero.mp long)]
      rfl
    | n + 1, [] => rfl
    | n + 1, a :: l =>
      -- What is left after the first chunk is shorter, so both counts suffice for it.
      have shorter : ((a :: l).drop size).length ≤ l.length := by
        rw [List.length_drop, List.length_cons]
        omega
      rw [List.length_cons] at long
      simp only [firstChunks, List.length_cons]
      rw [ih n (by omega) (by omega), ih l.length (by omega) shorter]

/-- The empty list has no chunks. -/
@[simp] theorem chunks_nil : chunks size ([] : List α) = [] := rfl

/-- The first chunk is the front of the list, and the others are the chunks of what is left. -/
theorem chunks_of_ne_nil (positive : 0 < size) {l : List α} (some_ : l ≠ []) :
    chunks size l = l.take size :: chunks size (l.drop size) := by
  obtain ⟨a, l, rfl⟩ := List.exists_cons_of_ne_nil some_
  have shorter : ((a :: l).drop size).length ≤ l.length := by
    rw [List.length_drop, List.length_cons]
    omega
  rw [← firstChunks_eq positive shorter]
  rfl

/-- What holds of the empty list and of every list by its rest behind the first chunk. -/
theorem chunks_induct (positive : 0 < size) {motive : List α → Prop} (nil : motive [])
    (cut : ∀ l, l ≠ [] → motive (l.drop size) → motive l) (l : List α) : motive l := by
  induction length : l.length using Nat.strong_induction_on generalizing l with
  | _ n ih =>
    by_cases none_ : l = []
    · rw [none_]
      exact nil
    · have shorter : (l.drop size).length < n := by
        have := List.length_pos_iff.mpr none_
        rw [List.length_drop]
        omega
      exact cut l none_ (ih _ shorter _ rfl)

/-- Every chunk has an element. -/
theorem ne_nil_of_mem_chunks (positive : 0 < size) {l chunk : List α}
    (mem : chunk ∈ chunks size l) : chunk ≠ [] := by
  induction l using chunks_induct positive with
  | nil => cases mem
  | cut l some_ ih =>
    rw [chunks_of_ne_nil positive some_] at mem
    rcases List.mem_cons.mp mem with first | later
    · rw [first, ne_eq, List.take_eq_nil_iff, not_or]
      exact ⟨by omega, some_⟩
    · exact ih later

/-- No chunk is longer than the others may be. -/
theorem length_le_of_mem_chunks (positive : 0 < size) {l chunk : List α}
    (mem : chunk ∈ chunks size l) : chunk.length ≤ size := by
  induction l using chunks_induct positive with
  | nil => cases mem
  | cut l some_ ih =>
    rw [chunks_of_ne_nil positive some_] at mem
    rcases List.mem_cons.mp mem with first | later
    · rw [first, List.length_take]
      exact Nat.min_le_left _ _
    · exact ih later

/-- There are no more chunks than elements. -/
theorem length_chunks_le (positive : 0 < size) (l : List α) : (chunks size l).length ≤ l.length := by
  induction l using chunks_induct positive with
  | nil => exact Nat.le_refl 0
  | cut l some_ ih =>
    have positive' := List.length_pos_iff.mpr some_
    rw [chunks_of_ne_nil positive some_, List.length_cons]
    rw [List.length_drop] at ih
    omega

/-- The chunks have the elements of the list, in its order. -/
theorem flatten_chunks (positive : 0 < size) (l : List α) : (chunks size l).flatten = l := by
  induction l using chunks_induct positive with
  | nil => rfl
  | cut l some_ ih =>
    rw [chunks_of_ne_nil positive some_, List.flatten_cons, ih, List.take_append_drop]

/-- A list of at most one chunk is that chunk. -/
theorem chunks_single {l : List α} (some_ : l ≠ []) (short : l.length ≤ size) :
    chunks size l = [l] := by
  have positive : 0 < size := by
    have := List.length_pos_iff.mpr some_
    omega
  rw [chunks_of_ne_nil positive some_, List.take_of_length_le short, List.drop_of_length_le short,
    chunks_nil]

/-- Behind whole chunks the cutting starts anew. -/
theorem chunks_append (positive : 0 < size) (l : List α) {rest : List α}
    (whole : l.length % size = 0) : chunks size (l ++ rest) = chunks size l ++ chunks size rest := by
  induction l using chunks_induct positive with
  | nil => rfl
  | cut l some_ ih =>
    have length := List.length_pos_iff.mpr some_
    -- A chunk is whole, so it is the first one with the rest behind it, too.
    have long : size ≤ l.length := Nat.le_of_dvd length (Nat.dvd_of_mod_eq_zero whole)
    have less : (l.drop size).length % size = 0 := by
      rw [List.length_drop, ← Nat.mod_eq_sub_mod long]
      exact whole
    have longer : l ++ rest ≠ [] := fun empty => some_ (List.append_eq_nil_iff.mp empty).1
    rw [chunks_of_ne_nil positive longer, chunks_of_ne_nil positive some_,
      List.take_append_of_le_length long, List.drop_append_of_le_length long, ih less,
      List.cons_append]

end Chunks
