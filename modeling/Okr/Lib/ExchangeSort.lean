import Mathlib.Data.List.Nodup
import Mathlib.Logic.Equiv.Basic
import Mathlib.Order.Lattice

/-! The exchange sort of a table in place, within the groups of its records. -/

namespace ExchangeSort

variable {α κ γ : Type*}

/-- Two slots change places. -/
def swap (t : Nat → α) (i j : Nat) : Nat → α := fun a =>
  if a = j then t i else if a = i then t j else t a

/-- Records from one slot on changed places within their groups, and nothing else happened. -/
structure Shuffled (group : α → γ) (first n : Nat) (t t' : Nat → α) : Prop where
  outside : ∀ a, a < first ∨ n ≤ a → t' a = t a
  groups : ∀ a, group (t' a) = group (t a)
  perm : ((List.range' first (n - first)).map t').Perm ((List.range' first (n - first)).map t)

section Shuffled

variable {group : α → γ} {first n i j : Nat} {t t' : Nat → α}

/-- Nothing happened. -/
theorem Shuffled.refl (group : α → γ) (first n : Nat) (t : Nat → α) : Shuffled group first n t t :=
  ⟨fun _ _ => rfl, fun _ => rfl, .refl _⟩

/-- One part after the other. -/
theorem Shuffled.trans (before : Shuffled group first n t t') {u : Nat → α}
    (after : Shuffled group first n t' u) : Shuffled group first n t u where
  outside a out := (after.outside a out).trans (before.outside a out)
  groups a := (after.groups a).trans (before.groups a)
  perm := after.perm.trans before.perm

/-- What is shuffled from one slot on is shuffled from an earlier one on. -/
theorem Shuffled.widen {earlier : Nat} (le : earlier ≤ first) (inside : first ≤ n)
    (shuffled : Shuffled group first n t t') : Shuffled group earlier n t t' where
  outside a out := shuffled.outside a (by omega)
  groups := shuffled.groups
  perm := by
    -- The slots in between kept their records.
    have split : List.range' earlier (n - earlier)
        = List.range' earlier (first - earlier) ++ List.range' first (n - first) := by
      have count : n - earlier = (first - earlier) + (n - first) := by omega
      have next : earlier + 1 * (first - earlier) = first := by omega
      rw [count, ← List.range'_append, next]
    have kept : (List.range' earlier (first - earlier)).map t'
        = (List.range' earlier (first - earlier)).map t := by
      refine List.map_congr_left fun a member => shuffled.outside a (Or.inl ?_)
      have := List.mem_range'_1.mp member
      omega
    rw [split, List.map_append, List.map_append, kept]
    exact shuffled.perm.append_left _

/-- A record in a shuffled slot was in one of these slots before. -/
theorem Shuffled.origin (shuffled : Shuffled group first n t t') {b : Nat} (behind : first ≤ b)
    (below : b < n) : ∃ c, first ≤ c ∧ c < n ∧ t' b = t c := by
  have here : t' b ∈ (List.range' first (n - first)).map t' :=
    List.mem_map_of_mem (List.mem_range'_1.mpr ⟨behind, by omega⟩)
  obtain ⟨c, member, same⟩ := List.mem_map.mp (shuffled.perm.subset here)
  have place := List.mem_range'_1.mp member
  exact ⟨c, place.1, by omega, same.symm⟩

/-- Two slots change places as their numbers do. -/
theorem swap_eq (t : Nat → α) (i j : Nat) : swap t i j = t ∘ Equiv.swap i j := by
  funext a
  rw [swap, Function.comp, Equiv.swap_apply_def]
  by_cases second : a = j
  · rw [if_pos second]
    by_cases first : a = i
    · rw [if_pos first, ← first, second]
    · rw [if_neg first, if_pos second]
  · rw [if_neg second, if_neg second]
    split <;> rfl

/-- Numbers of a range that change places leave the range as it is. -/
theorem range'_swap (firstIn : first ≤ i ∧ i < n) (secondIn : first ≤ j ∧ j < n) :
    ((List.range' first (n - first)).map (Equiv.swap i j)).Perm (List.range' first (n - first)) := by
  have nodup : (List.range' first (n - first)).Nodup := List.nodup_range'
  rw [List.perm_ext_iff_of_nodup (nodup.map (Equiv.swap i j).injective) nodup]
  intro a
  rw [List.mem_map_of_involutive (Equiv.swap_apply_self i j), List.mem_range'_1, List.mem_range'_1,
    Equiv.swap_apply_def]
  split
  · omega
  · split <;> omega

/-- Two slots of one group that change places are shuffled. -/
theorem swap_shuffled (firstIn : first ≤ i ∧ i < n) (secondIn : first ≤ j ∧ j < n)
    (same : group (t i) = group (t j)) : Shuffled group first n t (swap t i j) where
  outside a out := by
    rw [swap, if_neg (by omega), if_neg (by omega)]
  groups a := by
    rw [swap]
    split
    · next eq => rw [eq, same]
    · split
      · next eq => rw [eq, same]
      · rfl
  perm := by
    rw [swap_eq, ← List.map_map]
    exact (range'_swap firstIn secondIn).map t

end Shuffled

variable [LinearOrder κ] [DecidableEq γ] (key : α → κ) (group : α → γ)

/-- Two slots of one group change places when their keys are in the wrong order. -/
def exchange (t : Nat → α) (i j : Nat) : Nat → α :=
  if key (t j) < key (t i) ∧ group (t i) = group (t j) then swap t i j else t

/-- The inner loop: so many slots behind one are compared with it. -/
def sortBehind (t : Nat → α) (i count : Nat) : Nat → α :=
  (List.range' (i + 1) count).foldl (fun t j => exchange key group t i j) t

/-- The outer loop over so many slots of the first `n`, from one on. -/
def sortFrom (n : Nat) (t : Nat → α) (first count : Nat) : Nat → α :=
  (List.range' first count).foldl (fun t i => sortBehind key group t i (n - (i + 1))) t

/-- The slots of every group among the first `n`, from one on, have ascending keys. -/
def Sorted (first n : Nat) (t : Nat → α) : Prop :=
  ∀ a b, first ≤ a → a < b → b < n → group (t a) = group (t b) → key (t a) ≤ key (t b)

variable {key group} {first n i j : Nat} {t : Nat → α}

/-- Comparing two slots shuffles those from the first one on. -/
theorem exchange_shuffled (order : i < j) (below : j < n) :
    Shuffled group i n t (exchange key group t i j) := by
  rw [exchange]
  split
  · next wrong => exact swap_shuffled ⟨Nat.le_refl i, by omega⟩ ⟨by omega, below⟩ wrong.2
  · exact .refl group i n t

/-- After comparing two slots the first one is not behind the second one. -/
theorem exchange_pair (apart : i ≠ j)
    (same : group (exchange key group t i j i) = group (exchange key group t i j j)) :
    key (exchange key group t i j i) ≤ key (exchange key group t i j j) := by
  rw [exchange] at same ⊢
  split at same
  · next wrong =>
    rw [if_pos wrong, swap, swap, if_neg apart, if_pos rfl, if_pos rfl]
    exact le_of_lt wrong.1
  · next right =>
    -- The test failed on the order, as the groups are the same.
    rw [if_neg right]
    exact le_of_not_gt fun less => right ⟨less, same⟩

/-- Comparing two slots lowers the first one, if anything. -/
theorem exchange_lowers (apart : i ≠ j) : key (exchange key group t i j i) ≤ key (t i) := by
  rw [exchange]
  split
  · next wrong =>
    rw [swap, if_neg apart, if_pos rfl]
    exact le_of_lt wrong.1
  · exact le_refl _

/-- A slot that is not compared keeps its record. -/
theorem exchange_other {a : Nat} (notFirst : a ≠ i) (notSecond : a ≠ j) :
    exchange key group t i j a = t a := by
  rw [exchange]
  split
  · exact (if_neg notSecond).trans (if_neg notFirst)
  · rfl

/-- The inner loop brings the least of the remaining records of a group to its slot. -/
theorem sortBehind_least (count : Nat) (fits : i + count < n) :
    Shuffled group i n t (sortBehind key group t i count) ∧
      ∀ b, i < b → b ≤ i + count →
        group (sortBehind key group t i count i) = group (sortBehind key group t i count b) →
        key (sortBehind key group t i count i) ≤ key (sortBehind key group t i count b) := by
  induction count with
  | zero =>
    refine ⟨.refl group i n t, fun b above below => ?_⟩
    omega
  | succ count ih =>
    obtain ⟨shuffled, least⟩ := ih (by omega)
    have last : sortBehind key group t i (count + 1)
        = exchange key group (sortBehind key group t i count) i (i + 1 + count) := by
      rw [sortBehind, sortBehind, List.range'_1_concat, List.foldl_append]
      rfl
    have step := @exchange_shuffled _ _ _ _ _ key group n i (i + 1 + count)
      (sortBehind key group t i count) (by omega) (by omega)
    rw [last]
    refine ⟨shuffled.trans step, fun b above below same => ?_⟩
    -- The slot compared last is put right by the step, the others were, and the front only sank.
    by_cases now : b = i + 1 + count
    · rw [now] at same ⊢
      exact exchange_pair (by omega) same
    · rw [step.groups i, step.groups b] at same
      rw [exchange_other (by omega) now]
      exact le_trans (exchange_lowers (by omega)) (least b above (by omega) same)

/-- The outer loop puts one slot after the other in order, and never touches them again. -/
theorem sortFrom_front (count : Nat) (fits : first + count ≤ n) :
    Shuffled group first n t (sortFrom key group n t first count) ∧
      ∀ a b, first ≤ a → a < first + count → a < b → b < n →
        group (sortFrom key group n t first count a) = group (sortFrom key group n t first count b) →
        key (sortFrom key group n t first count a) ≤ key (sortFrom key group n t first count b) := by
  induction count with
  | zero =>
    refine ⟨.refl group first n t, fun a b behind below => ?_⟩
    omega
  | succ count ih =>
    obtain ⟨before, ordered⟩ := ih (by omega)
    have last : sortFrom key group n t first (count + 1)
        = sortBehind key group (sortFrom key group n t first count) (first + count)
          (n - (first + count + 1)) := by
      rw [sortFrom, sortFrom, List.range'_1_concat, List.foldl_append]
      rfl
    obtain ⟨shuffled, least⟩ := @sortBehind_least _ _ _ _ _ key group n (first + count)
      (sortFrom key group n t first count) (n - (first + count + 1)) (by omega)
    rw [last]
    refine ⟨before.trans (shuffled.widen (by omega) (by omega)), fun a b behind below order inside same => ?_⟩
    by_cases new : a = first + count
    · -- The slot of this turn has the least of those behind it.
      rw [new] at same order ⊢
      exact least b order (by omega) same
    · have old : a < first + count := by omega
      rw [shuffled.outside a (Or.inl old)] at same ⊢
      by_cases front : b < first + count
      · rw [shuffled.outside b (Or.inl front)] at same ⊢
        exact ordered a b behind old order inside same
      · -- A later slot holds a record that was behind the slot before.
        obtain ⟨c, from_, below', origin⟩ := shuffled.origin (by omega) inside
        rw [origin] at same ⊢
        exact ordered a c behind old (by omega) below' same

/-- The sort of all slots from one on shuffles them into order. -/
theorem sortFrom_sorted (within : first ≤ n) :
    Shuffled group first n t (sortFrom key group n t first (n - first)) ∧
      Sorted key group first n (sortFrom key group n t first (n - first)) := by
  obtain ⟨shuffled, ordered⟩ := @sortFrom_front _ _ _ _ _ key group first n t (n - first) (by omega)
  exact ⟨shuffled, fun a b behind order inside => ordered a b behind (by omega) order inside⟩

end ExchangeSort
