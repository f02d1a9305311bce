import Mathlib.Data.List.GetD

/-! Filling the gaps of a list in place: each gap takes the next entry that stands behind it. -/

namespace Compact

variable {α : Type} (live : α → Bool) (gap : α)

/-- The first entry from a place on. -/
def nextLive (entries : List α) (i : Nat) : Option Nat :=
  (List.range' (i + 1) (entries.length - (i + 1))).find? fun j => live (entries.getD j gap)

/-- A gap takes the next entry, which leaves a gap where it stood. -/
def step (entries : List α) (i : Nat) : List α :=
  if live (entries.getD i gap) then entries
  else
    match nextLive live gap entries i with
    | some j => (entries.set i (entries.getD j gap)).set j gap
    | none => entries

/-- One pass over the places of the list. -/
def compact (entries : List α) : List α :=
  (List.range entries.length).foldl (step live gap) entries

variable {live gap}

/-- A list is its entries between gaps: either gaps only, or a first entry behind some of them. -/
theorem gaps_or_entry {entries : List α} (gaps : ∀ x ∈ entries, live x = false → x = gap) :
    entries = List.replicate entries.length gap
      ∨ ∃ k x tail, live x = true ∧ entries = List.replicate k gap ++ x :: tail := by
  induction entries with
  | nil => exact Or.inl rfl
  | cons x entries ih =>
    cases alive : live x with
    | true => exact Or.inr ⟨0, x, entries, alive, rfl⟩
    | false =>
      have dead : x = gap := gaps x (by simp) alive
      subst dead
      rcases ih fun y member => gaps y (by simp [member]) with all | ⟨k, y, tail, alive', eq⟩
      · left
        rw [List.length_cons, List.replicate_succ, ← all]
      · right
        exact ⟨k + 1, y, tail, alive', by rw [List.replicate_succ, List.cons_append, ← eq]⟩

/-- The entry that is looked for stands behind the gaps. -/
theorem nextLive_gaps (dead : live gap = false) {x : α} (alive : live x = true) (front tail : List α)
    (k : Nat) :
    nextLive live gap (front ++ gap :: (List.replicate k gap ++ x :: tail)) front.length
      = some (front.length + 1 + k) := by
  have here : ∀ j, (front ++ gap :: (List.replicate k gap ++ x :: tail)).getD (front.length + 1 + j) gap
      = (List.replicate k gap ++ x :: tail).getD j gap := by
    intro j
    rw [List.getD_append_right _ _ _ _ (by omega),
      show front.length + 1 + j - front.length = j + 1 from by omega, List.getD_cons_succ]
  rw [nextLive, List.find?_eq_some_iff_getElem]
  have length : (front ++ gap :: (List.replicate k gap ++ x :: tail)).length
      = front.length + 1 + k + 1 + tail.length := by
    simp only [List.length_append, List.length_cons, List.length_replicate]
    omega
  refine ⟨?_, k, by simp only [List.length_range', length]; omega, by simp, ?_⟩
  · rw [here, List.getD_append_right _ _ _ _ (by simp)]
    simpa using alive
  · intro j below
    rw [List.getElem_range', Nat.one_mul, here, List.getD_append _ _ _ _ (by simpa using below)]
    simp [below, dead]

/-- At an entry nothing moves. -/
theorem step_entry {x : α} (alive : live x = true) (front tail : List α) :
    step live gap (front ++ x :: tail) front.length = (front ++ [x]) ++ tail := by
  have place : (front ++ x :: tail).getD front.length gap = x := by
    rw [List.getD_append_right _ _ _ _ (Nat.le_refl _), Nat.sub_self, List.getD_cons_zero]
  rw [step, place, if_pos alive, List.append_assoc, List.singleton_append]

/-- At a gap behind which there are only gaps, nothing moves. -/
theorem step_gaps (dead : live gap = false) (front : List α) (k : Nat) :
    step live gap (front ++ gap :: List.replicate k gap) front.length
      = (front ++ [gap]) ++ List.replicate k gap := by
  have place : (front ++ gap :: List.replicate k gap).getD front.length gap = gap := by
    rw [List.getD_append_right _ _ _ _ (Nat.le_refl _), Nat.sub_self, List.getD_cons_zero]
  have none : nextLive live gap (front ++ gap :: List.replicate k gap) front.length = none := by
    rw [nextLive, List.find?_eq_none]
    intro j member
    rw [List.mem_range'_1] at member
    rw [List.getD_append_right _ _ _ _ (by omega), ← List.replicate_succ, List.getD_eq_getElem?_getD,
      List.getElem?_replicate]
    split <;> simp [dead]
  rw [step, place, if_neg (by simp [dead]), none, List.append_assoc, List.singleton_append]

/-- At a gap the next entry moves to its place, and leaves a gap. -/
theorem step_moves (dead : live gap = false) {y : α} (alive : live y = true) (front back : List α)
    (k : Nat) :
    step live gap (front ++ gap :: (List.replicate k gap ++ y :: back)) front.length
      = (front ++ [y]) ++ (List.replicate k gap ++ gap :: back) := by
  have place : (front ++ gap :: (List.replicate k gap ++ y :: back)).getD front.length gap = gap := by
    rw [List.getD_append_right _ _ _ _ (Nat.le_refl _), Nat.sub_self, List.getD_cons_zero]
  have value : (front ++ gap :: (List.replicate k gap ++ y :: back)).getD (front.length + 1 + k) gap
      = y := by
    rw [List.getD_append_right _ _ _ _ (by omega),
      show front.length + 1 + k - front.length = k + 1 from by omega, List.getD_cons_succ,
      List.getD_append_right _ _ _ _ (by simp)]
    simp
  rw [step, place, if_neg (by simp [dead]), nextLive_gaps dead alive front back k]
  dsimp only
  rw [value, List.set_append_right _ _ (Nat.le_refl _), Nat.sub_self, List.set_cons_zero,
    List.set_append_right _ _ (by omega),
    show front.length + 1 + k - front.length = k + 1 from by omega, List.set_cons_succ,
    List.set_append_right _ _ (by simp)]
  simp

/-- The pass over the rest of a list leaves its entries in front and gaps behind them. -/
theorem fold_step (dead : live gap = false) (n : Nat) (front rest : List α)
    (length : rest.length = n) (gaps : ∀ x ∈ rest, live x = false → x = gap) :
    (List.range' front.length n).foldl (step live gap) (front ++ rest)
      = front ++ (rest.filter live ++ List.replicate (n - (rest.filter live).length) gap) := by
  -- The induction is on the length, since filling a gap moves an entry within the rest.
  induction n generalizing front rest with
  | zero =>
    rw [List.length_eq_zero_iff] at length
    subst length
    rfl
  | succ n ih =>
    rw [List.range'_succ, List.foldl_cons]
    cases rest with
    | nil => cases length
    | cons x tail =>
      have tailLength : tail.length = n := by simpa using length
      cases alive : live x with
      | true =>
        -- An entry stays where it is.
        have along := ih (front ++ [x]) tail tailLength fun y member => gaps y (by simp [member])
        rw [List.length_append, List.length_singleton] at along
        rw [step_entry alive, along, List.filter_cons_of_pos alive, List.length_cons,
          Nat.add_sub_add_right]
        simp
      | false =>
        have isGap : x = gap := gaps x (by simp) alive
        subst isGap
        rw [List.filter_cons_of_neg (by simp [alive])]
        have tailGaps : ∀ y ∈ tail, live y = false → y = x := fun y member =>
          gaps y (List.mem_cons_of_mem _ member)
        rcases gaps_or_entry tailGaps with all | ⟨k, y, back, live', eq⟩
        · -- Only gaps are left.
          have along := ih (front ++ [x]) tail tailLength tailGaps
          have empty : tail.filter live = [] := by
            rw [all, List.filter_replicate_of_neg (by simp [alive])]
          have stay := step_gaps alive front tail.length
          rw [← all] at stay
          rw [List.length_append, List.length_singleton, empty] at along
          rw [stay, along, empty]
          simp [List.replicate_succ]
        · -- The next entry moves to this place, and leaves a gap.
          subst eq
          have along := ih (front ++ [y]) (List.replicate k x ++ x :: back) (by simpa using tailLength)
            (by
              intro z member dead'
              simp only [List.mem_append, List.mem_replicate, List.mem_cons] at member
              rcases member with ⟨-, same⟩ | same | inBack
              · exact same
              · exact same
              · exact tailGaps z (by simp [inBack]) dead')
          rw [List.length_append, List.length_singleton] at along
          rw [step_moves alive live', along]
          simp only [List.filter_append, List.filter_replicate_of_neg (by simp [alive] : ¬live x = true),
            List.nil_append, List.filter_cons_of_pos live',
            List.filter_cons_of_neg (by simp [alive] : ¬live x = true), List.length_cons,
            List.append_assoc, List.cons_append, Nat.add_sub_add_right]

/-- After the pass the entries stand in front, in their order, and the gaps behind them. -/
theorem compact_eq (dead : live gap = false) {entries : List α}
    (gaps : ∀ x ∈ entries, live x = false → x = gap) :
    compact live gap entries
      = entries.filter live
        ++ List.replicate (entries.length - (entries.filter live).length) gap := by
  have pass := fold_step dead entries.length [] entries rfl gaps
  rw [List.length_nil, List.nil_append, List.nil_append, ← List.range_eq_range'] at pass
  exact pass

end Compact
