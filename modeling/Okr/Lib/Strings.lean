import Mathlib.Data.List.Basic
import Mathlib.Data.List.TakeDrop

/-! Strings in a memory, each up to a mark behind it, and what the contents laid over it leave in place. -/

namespace Strings

universe u

variable {α : Type u}

/-- A memory once a content is laid over it from a position on. -/
def lay (m : Nat → α) (p : Nat) (w : List α) : Nat → α := fun a =>
  if p ≤ a then (w[a - p]?).getD (m a) else m a

/-- The contents of a list, laid over a memory one after the other. -/
def layAll (m : Nat → α) (contents : List (Nat × List α)) : Nat → α :=
  contents.foldl (fun m c => lay m c.1 c.2) m

/-- So many places of a memory from a position on. -/
def window (m : Nat → α) (p n : Nat) : List α := (List.range n).map fun k => m (p + k)

/-- How far the mark behind a string is; nothing when it is not met in so many steps. -/
def length [DecidableEq α] (mark : α) (m : Nat → α) : Nat → Nat → Option Nat
  | 0, _ => none
  | fuel + 1, p => if m p = mark then some 0 else (length mark m fuel (p + 1)).map (· + 1)

/-- The string stands at the position: its characters, none of them the mark, and the mark behind them. -/
structure At (mark : α) (m : Nat → α) (p : Nat) (s : List α) : Prop where
  unmarked : mark ∉ s
  chars : ∀ k (below : k < s.length), m (p + k) = s[k]
  ended : m (p + s.length) = mark

variable {mark : α} {m m' : Nat → α} {p : Nat} {s w : List α}

/-- Nothing in front of a content is changed by it. -/
theorem lay_before {a : Nat} (before : a < p) : lay m p w a = m a := by
  rw [lay, if_neg (Nat.not_le.mpr before)]

/-- Nothing behind a content is changed by it. -/
theorem lay_behind {a : Nat} (behind : p + w.length ≤ a) : lay m p w a = m a := by
  rw [lay, if_pos (by omega), List.getElem?_eq_none (by omega), Option.getD_none]

/-- A content stands where it is laid. -/
theorem lay_at {k : Nat} (below : k < w.length) : lay m p w (p + k) = w[k] := by
  rw [lay, if_pos (Nat.le_add_right p k), Nat.add_sub_cancel_left, List.getElem?_eq_getElem below,
    Option.getD_some]

/-- Contents laid from a position on leave what is in front of it. -/
theorem layAll_before {contents : List (Nat × List α)} {a : Nat}
    (before : ∀ c ∈ contents, a < c.1) : layAll m contents a = m a := by
  induction contents generalizing m with
  | nil => rfl
  | cons c contents rest =>
    -- The first content begins behind the place, and so do the others.
    have kept := rest (m := lay m c.1 c.2) fun c' member => before c' (List.mem_cons_of_mem c member)
    calc layAll m (c :: contents) a
      _ = layAll (lay m c.1 c.2) contents a := rfl
      _ = lay m c.1 c.2 a := kept
      _ = m a := lay_before (before c List.mem_cons_self)

/-- A string stands in every memory that is the same up to its mark. -/
theorem At.congr (at_ : At mark m p s) (same : ∀ a, p ≤ a → a ≤ p + s.length → m' a = m a) :
    At mark m' p s where
  unmarked := at_.unmarked
  chars := by
    intro k below
    rw [same (p + k) (by omega) (by omega), at_.chars k below]
  ended := by rw [same (p + s.length) (by omega) (Nat.le_refl _), at_.ended]

/-- The window of its length is the string. -/
theorem At.window_eq (at_ : At mark m p s) : window m p s.length = s := by
  apply List.ext_getElem
  · rw [window, List.length_map, List.length_range]
  · intro k _ below
    simp only [window, List.getElem_map, List.getElem_range, at_.chars k below]

section
variable [DecidableEq α]

/-- The mark of a string is found, given the steps to it. -/
theorem At.length_eq (at_ : At mark m p s) {fuel : Nat} (steps : s.length < fuel) :
    length mark m fuel p = some s.length := by
  induction s generalizing p fuel with
  | nil =>
    obtain ⟨fuel, rfl⟩ := Nat.exists_eq_add_of_lt steps
    have here : m p = mark := at_.ended
    rw [length, if_pos here, List.length_nil]
  | cons c s rest =>
    obtain ⟨fuel, rfl⟩ : ∃ f, fuel = f + 1 := ⟨fuel - 1, by rw [List.length_cons] at steps; omega⟩
    have first : m p = c := at_.chars 0 (Nat.succ_pos _)
    have goesOn : m p ≠ mark := fun end_ =>
      at_.unmarked (List.mem_cons.mpr (.inl (by rw [← first, end_])))
    -- The rest of the string stands one place later.
    have tail : At mark m (p + 1) s := by
      refine ⟨fun member => at_.unmarked (List.mem_cons_of_mem c member), fun k below => ?_, ?_⟩
      · have char := at_.chars (k + 1) (Nat.succ_lt_succ below)
        rw [List.getElem_cons_succ, Nat.add_comm k 1, ← Nat.add_assoc] at char
        exact char
      · have ended := at_.ended
        rw [List.length_cons, Nat.add_comm s.length 1, ← Nat.add_assoc] at ended
        exact ended
    rw [length, if_neg goesOn, rest tail (Nat.lt_of_succ_lt_succ steps), Option.map_some,
      List.length_cons]

/-- No place in front of the mark that is found has it. -/
theorem length_unmarked {fuel n : Nat} (found : length mark m fuel p = some n) {k : Nat} (below : k < n) :
    m (p + k) ≠ mark := by
  induction fuel generalizing p n k with
  | zero => cases found
  | succ fuel rest =>
    rw [length] at found
    split_ifs at found with here
    · cases found
      omega
    · obtain ⟨n', later, rfl⟩ := Option.map_eq_some_iff.mp found
      cases k with
      | zero => exact here
      | succ k =>
        have := rest later (Nat.lt_of_succ_lt_succ below)
        rwa [Nat.add_assoc, Nat.add_comm 1 k] at this

/-- The mark is at the place where it is found. -/
theorem length_marked {fuel n : Nat} (found : length mark m fuel p = some n) : m (p + n) = mark := by
  induction fuel generalizing p n with
  | zero => cases found
  | succ fuel rest =>
    rw [length] at found
    split_ifs at found with here
    · cases found
      exact here
    · obtain ⟨n', later, rfl⟩ := Option.map_eq_some_iff.mp found
      have := rest later
      rwa [Nat.add_assoc, Nat.add_comm 1 n'] at this

/-- Where a string stands, no other mark than the one behind it is found. -/
theorem At.found (at_ : At mark m p s) {fuel n : Nat} (found : length mark m fuel p = some n) :
    n = s.length := by
  -- In front of the end there are characters of the string, which are no marks.
  rcases Nat.lt_trichotomy n s.length with early | same | late
  · have marked := length_marked found
    rw [at_.chars n early] at marked
    exact absurd (marked ▸ List.getElem_mem early) at_.unmarked
  · exact same
  · exact absurd at_.ended (length_unmarked found late)

end

end Strings
