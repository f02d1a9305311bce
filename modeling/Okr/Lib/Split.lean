import Mathlib.Tactic.Ring

/-! Blocks gathered into groups up to a limit, and sizes that cut the groups up again. -/

namespace Split

universe u

variable {β : Type u}

/-! ### Gathering -/

section Gathering

variable (weight : β → Nat) (limit : Nat)

/-- What the blocks of a group weigh together. -/
def total (group : List β) : Nat := (group.map weight).sum

/-- The blocks go into the open group, which is closed once it weighs more than the limit. -/
def groups (group : List β) : List β → List (List β)
  | [] => [group]
  | b :: blocks =>
    if limit < total weight (group ++ [b]) then (group ++ [b]) :: groups [] blocks
    else groups (group ++ [b]) blocks

/-- A block more weighs what it weighs alone. -/
theorem total_append (group : List β) (b : β) :
    total weight (group ++ [b]) = total weight group + weight b := by
  rw [total, total, List.map_append, List.sum_append]
  rfl

/-- No block is split, and none is lost. -/
theorem flatten_groups (blocks : List β) :
    ∀ group, (groups weight limit group blocks).flatten = group ++ blocks := by
  induction blocks with
  | nil =>
    intro group
    rw [groups, List.flatten_cons, List.flatten_nil]
  | cons b blocks ih =>
    intro group
    rw [groups]
    split
    · rw [List.flatten_cons, ih, List.append_assoc]
      rfl
    · rw [ih, List.append_assoc]
      rfl

/-- There is always an open group. -/
theorem groups_ne_nil (group blocks : List β) : groups weight limit group blocks ≠ [] := by
  induction blocks generalizing group with
  | nil => exact List.cons_ne_nil _ _
  | cons b blocks ih =>
    rw [groups]
    split
    · exact List.cons_ne_nil _ _
    · exact ih _

/-- Every closed group weighs more than the limit. -/
theorem groups_heavy (blocks : List β) :
    ∀ group, ∀ g ∈ (groups weight limit group blocks).dropLast, limit < total weight g := by
  induction blocks with
  | nil =>
    intro group g member
    cases member
  | cons b blocks ih =>
    intro group g member
    rw [groups] at member
    split at member
    · next heavy =>
      rw [List.dropLast_cons_of_ne_nil (groups_ne_nil weight limit _ _)] at member
      cases member with
      | head => exact heavy
      | tail _ later => exact ih _ g later
    · exact ih _ g member

end Gathering

/-! ### Cutting -/

/--
Sizes that cut up what is left of a group and the groups behind it, without crossing a border.

`left` is what is left of the group, and `later` are the sizes of the groups behind it.
-/
def Cuts (left : Nat) (later : List Nat) : List Nat → Prop
  | [] => left = 0 ∧ later.sum = 0
  | n :: sizes =>
    (n ≤ left ∧ Cuts (left - n) later sizes) ∨
      (left = 0 ∧ ∃ next rest, later = next :: rest ∧ n ≤ next ∧ Cuts (next - n) rest sizes)

/-- Where nothing is left of a group, its border may as well be crossed at once. -/
theorem Cuts.enter {next : Nat} {rest : List Nat} {sizes : List Nat} :
    Cuts 0 (next :: rest) sizes → Cuts next rest sizes := by
  induction sizes with
  | nil =>
    rintro ⟨-, nothing⟩
    rw [List.sum_cons] at nothing
    exact ⟨by omega, by omega⟩
  | cons n sizes ih =>
    intro cuts
    cases cuts with
    | inl stays =>
      -- An empty cut is made on either side of the border.
      obtain ⟨none_, cuts⟩ := stays
      have zero : n = 0 := by omega
      refine Or.inl ⟨by omega, ?_⟩
      rw [zero] at cuts ⊢
      exact ih cuts
    | inr crosses =>
      obtain ⟨-, next', rest', eq, fits, cuts⟩ := crosses
      cases eq
      exact Or.inl ⟨fits, cuts⟩

/-- Where nothing is left at all, every cut is empty. -/
theorem Cuts.nothing {sizes : List Nat} (cuts : Cuts 0 [] sizes) : ∀ n ∈ sizes, n = 0 := by
  induction sizes with
  | nil =>
    intro n member
    cases member
  | cons m sizes ih =>
    intro n member
    cases cuts with
    | inl stays =>
      obtain ⟨zero, rest⟩ := stays
      cases member with
      | head => omega
      | tail _ later => exact ih (by rw [Nat.zero_sub] at rest; exact rest) n later
    | inr crosses =>
      obtain ⟨-, next, rest, eq, -⟩ := crosses
      cases eq

/-- Cuts of the group in front of cuts of the later ones. -/
theorem Cuts.append {later : List Nat} {sizes : List Nat} (cuts : Cuts 0 later sizes) :
    ∀ front : List Nat, Cuts front.sum later (front ++ sizes) := by
  intro front
  induction front with
  | nil => exact cuts
  | cons n front ih =>
    refine Or.inl ⟨?_, ?_⟩
    · rw [List.sum_cons]
      omega
    · rw [List.sum_cons, Nat.add_sub_cancel_left]
      exact ih

/-- Groups that are each cut up by themselves are cut up together, if only the last may be empty. -/
theorem cuts_groups {γ : Type u} (size : γ → Nat) (sizes : γ → List Nat) :
    ∀ groups : List γ, (∀ g ∈ groups, (sizes g).sum = size g) →
      (∀ g ∈ groups.dropLast, 0 < size g) → Cuts 0 (groups.map size) (groups.flatMap sizes) := by
  intro groups
  induction groups with
  | nil => exact fun _ _ => ⟨rfl, rfl⟩
  | cons g groups ih =>
    intro whole some_
    have rest : Cuts 0 (groups.map size) (groups.flatMap sizes) := by
      apply ih fun h member => whole h (List.mem_cons_of_mem g member)
      intro h member
      cases groups with
      | nil => cases member
      | cons h' groups => exact some_ h (List.mem_cons_of_mem g member)
    have sum := whole g List.mem_cons_self
    rw [List.map_cons, List.flatMap_cons]
    cases cut : sizes g with
    | nil =>
      -- Nothing is in this group, so it is the last one.
      rw [cut, List.sum_nil] at sum
      cases groups with
      | nil => exact ⟨rfl, by rw [List.map_nil, List.sum_cons, List.sum_nil]; omega⟩
      | cons h groups =>
        have positive := some_ g List.mem_cons_self
        omega
    | cons n front =>
      rw [cut, List.sum_cons] at sum
      refine Or.inr ⟨rfl, size g, groups.map size, rfl, by omega, ?_⟩
      have left : size g - n = front.sum := by omega
      rw [left]
      exact rest.append front

end Split
