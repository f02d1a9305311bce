import Mathlib.Data.List.Basic
import Mathlib.Tactic.Ring

/-! Contents as literals and matches: what a match copies, and when a parse gives a content. -/

namespace Lz77

universe u

variable {α : Type u}

/-- Some literals, and then a match: so many elements, each from so far back. -/
structure Sequence (α : Type u) where
  literals : List α
  offset : Nat
  length : Nat
  deriving DecidableEq, Repr

/-- Elements are copied one by one, so that a match may reach into what it copies itself. -/
def copyBack (offset : Nat) : Nat → List α → List α
  | 0, out => out
  | n + 1, out => copyBack offset n (out ++ (out[out.length - offset]?).toList)

/-- The output behind a sequence. -/
def Sequence.apply (s : Sequence α) (out : List α) : List α :=
  copyBack s.offset s.length (out ++ s.literals)

/-- The output behind sequences, one after the other. -/
def expand (sequences : List (Sequence α)) (out : List α) : List α :=
  sequences.foldl (fun out s => s.apply out) out

/-- The elements a sequence brings. -/
def Sequence.size (s : Sequence α) : Nat := s.literals.length + s.length

/-- The elements sequences bring. -/
def size (sequences : List (Sequence α)) : Nat := (sequences.map Sequence.size).sum

/-- From `start` on every element is the one `offset` in front of it. -/
structure Periodic (content : Nat → α) (start offset : Nat) : Prop where
  positive : 0 < offset
  within : offset ≤ start
  back : ∀ i, start ≤ i → content i = content (i - offset)

variable {content : Nat → α} {start offset p n : Nat} {out input : List α}

/-- An element is also the one several times `offset` in front of it. -/
theorem Periodic.back_mul (periodic : Periodic content start offset) (times : Nat) {i : Nat}
    (reach : start + times * offset ≤ i + offset) : content i = content (i - times * offset) := by
  induction times generalizing i with
  | zero => simp
  | succ times ih =>
    rw [Nat.succ_mul] at reach ⊢
    -- One step back, and then the others from there.
    rw [periodic.back i (by omega), ih (by have := periodic.within; omega), Nat.sub_sub,
      Nat.add_comm offset]

/-- A match makes the output longer by its length. -/
theorem length_copyBack (positive : 0 < offset) (within : offset ≤ out.length) :
    (copyBack offset n out).length = out.length + n := by
  induction n generalizing out with
  | zero => rfl
  | succ n ih =>
    have one : (out[out.length - offset]?).toList.length = 1 := by
      rw [List.getElem?_eq_getElem (by omega)]
      rfl
    rw [copyBack, ih (by rw [List.length_append]; omega), List.length_append, one]
    omega

/-- A match takes a content on that repeats itself, if it had the content so far. -/
theorem copyBack_periodic (periodic : Periodic content start offset) (reached : start ≤ p) :
    copyBack offset n ((List.range p).map content) = (List.range (p + n)).map content := by
  induction n generalizing p with
  | zero => rfl
  | succ n ih =>
    have inside : offset ≤ p := Nat.le_trans periodic.within reached
    have next : ((List.range p).map content)[((List.range p).map content).length - offset]?
        = some (content p) := by
      have below : p - offset < p := by
        have := periodic.positive
        omega
      rw [List.length_map, List.length_range, List.getElem?_map, List.getElem?_range below,
        Option.map_some, ← periodic.back p reached]
    have longer : (List.range p).map content ++ [content p] = (List.range (p + 1)).map content := by
      rw [List.range_succ, List.map_append]
      rfl
    rw [copyBack, next, Option.toList_some, longer, ih (by omega)]
    congr 2
    omega

/-- A match that was compared with the content brings the part of it that comes next. -/
theorem copyBack_take (positive : 0 < offset) (within : offset ≤ p) (inside : p + n ≤ input.length)
    (same : ∀ k < n, input[p + k]? = input[p + k - offset]?) :
    copyBack offset n (input.take p) = input.take (p + n) := by
  induction n generalizing p with
  | zero => rfl
  | succ n ih =>
    have length : (input.take p).length = p := List.length_take_of_le (by omega)
    have next : (input.take p)[(input.take p).length - offset]? = input[p]? := by
      rw [length, List.getElem?_take_of_lt (by omega)]
      exact (same 0 (by omega)).symm
    have longer : input.take p ++ (input[p]?).toList = input.take (p + 1) := List.take_add_one.symm
    rw [copyBack, next, longer, ih (by omega) (by omega)]
    · congr 1
      omega
    · -- What was compared for this match also stands for its rest.
      intro k below
      have later := same (k + 1) (by omega)
      have shift : p + (k + 1) = p + 1 + k := by omega
      rw [shift] at later
      exact later

/-- The prefix of a content on which a periodic content goes on: how a match continues an output. -/
def prolong [Inhabited α] (out : List α) (offset i : Nat) : α :=
  if i < out.length then out[i]! else out[out.length - offset + (i - out.length) % offset]!

/-- An output goes on by repeating its end. -/
theorem prolong_periodic [Inhabited α] (positive : 0 < offset) (within : offset ≤ out.length) :
    Periodic (prolong out offset) out.length offset where
  positive := positive
  within := within
  back i behind := by
    have rest := Nat.mod_lt (i - out.length) positive
    rw [prolong, if_neg (by omega), prolong]
    by_cases first : i - offset < out.length
    · -- Within the first period the element in front is still one of the output.
      rw [if_pos first, Nat.mod_eq_of_lt (by omega)]
      congr 1
      omega
    · rw [if_neg first]
      have less : i - offset - out.length = i - out.length - offset := by omega
      rw [less, ← Nat.mod_eq_sub_mod (by omega)]

/-- The output itself is the front of what it goes on as. -/
theorem map_prolong [Inhabited α] : (List.range out.length).map (prolong out offset) = out := by
  refine List.ext_getElem (by simp) fun i low high => ?_
  rw [List.getElem_map, List.getElem_range, prolong, if_pos high, getElem!_pos out i high]

/-- A match is read off the content the output goes on as. -/
theorem copyBack_prolong [Inhabited α] (positive : 0 < offset) (within : offset ≤ out.length) :
    copyBack offset n out = (List.range (out.length + n)).map (prolong out offset) := by
  have longer := copyBack_periodic (n := n) (prolong_periodic positive within) (Nat.le_refl out.length)
  rw [map_prolong] at longer
  exact longer

/-- Sequences in front of others are expanded first. -/
theorem expand_append (first later : List (Sequence α)) (out : List α) :
    expand (first ++ later) out = expand later (expand first out) := by
  rw [expand, expand, expand, List.foldl_append]

/-- The elements of sequences in front of others are counted with them. -/
theorem size_append (first later : List (Sequence α)) : size (first ++ later) = size first + size later := by
  rw [size, size, size, List.map_append, List.sum_append]

end Lz77
