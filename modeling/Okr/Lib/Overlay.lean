import Mathlib.Data.List.Basic
import Mathlib.Tactic.Ring

/-! Contents written at positions: what a write changes, and what a window of the result holds. -/

namespace Overlay

universe u

variable {α : Type u}

/-- The content `f` once `w` is written at `p`; a gap past the end of `f` is filled with `z`. -/
def write (z : α) (f : List α) (p : Nat) (w : List α) : List α :=
  match w with
  | [] => f
  | _ => f.take p ++ List.replicate (p - f.length) z ++ w ++ f.drop (p + w.length)

/-- The part of `f` that starts at `p` and is `n` long, or as long as `f` allows. -/
def window (f : List α) (p n : Nat) : List α :=
  (f.drop p).take n

/-- Writing nothing changes nothing, wherever it is written. -/
@[simp] theorem write_nil (z : α) (f : List α) (p : Nat) : write z f p [] = f := rfl

/-- A write that brings content lays it over the old one, gap included. -/
theorem write_of_ne_nil (z : α) (f : List α) (p : Nat) {w : List α} (some_ : w ≠ []) :
    write z f p w = f.take p ++ List.replicate (p - f.length) z ++ w ++ f.drop (p + w.length) := by
  cases w with
  | nil => exact absurd rfl some_
  | cons a w => rfl

/-- A write reaches at least to its own end and never shortens. -/
theorem length_write (z : α) (f : List α) (p : Nat) {w : List α} (some_ : w ≠ []) :
    (write z f p w).length = max f.length (p + w.length) := by
  rw [write_of_ne_nil z f p some_]
  simp only [List.length_append, List.length_take, List.length_replicate, List.length_drop]
  omega

/-- A write that covers the rest of the content replaces it. -/
theorem write_tail (z : α) (f : List α) {g w : List α} (covers : g.length ≤ w.length) :
    write z (f ++ g) f.length w = f ++ w := by
  cases w with
  | nil =>
    have none_ : g = [] := List.length_eq_zero_iff.mp (Nat.le_zero.mp covers)
    rw [none_, write_nil]
  | cons a w =>
    rw [write_of_ne_nil z (f ++ g) f.length (by simp), List.take_left, List.length_append,
      Nat.sub_eq_zero_of_le (Nat.le_add_right _ _), List.replicate_zero, List.append_nil,
      List.drop_eq_nil_of_le (by rw [List.length_append]; omega), List.append_nil]

/-- A write at the end of the content appends. -/
theorem write_end (z : α) (f w : List α) : write z f f.length w = f ++ w := by
  have whole := write_tail z f (g := []) (w := w) (Nat.zero_le _)
  rw [List.append_nil] at whole
  exact whole

/-- A write within or at the end of the content reaches no further than the longer of the two. -/
theorem length_write_le (z : α) (f : List α) (p : Nat) (w : List α) :
    (write z f p w).length ≤ max f.length (p + w.length) := by
  cases w with
  | nil => exact Nat.le_max_left _ _
  | cons a w => exact Nat.le_of_eq (length_write z f p (by simp))

/-- What stands at a position after a write: the written content, the old one, or the gap's fill. -/
theorem getElem?_write (z : α) (f : List α) (p : Nat) {w : List α} (some_ : w ≠ []) (i : Nat) :
    (write z f p w)[i]? =
      if p ≤ i ∧ i < p + w.length then w[i - p]?
      else if i < f.length then f[i]?
      else if i < p then some z
      else none := by
  rw [write_of_ne_nil z f p some_]
  -- The four pieces are told apart by the lengths in front of them.
  simp only [List.getElem?_append, List.length_append, List.length_take, List.length_replicate,
    List.getElem?_take, List.getElem?_drop, List.getElem?_replicate]
  have gap : min p f.length + (p - f.length) = p := by omega
  rw [gap]
  by_cases before : i < p
  · have notWritten : ¬ (p ≤ i ∧ i < p + w.length) := by omega
    rw [if_neg notWritten, if_pos (by omega), if_pos before]
    by_cases old : i < f.length
    · rw [if_pos (by omega), if_pos before, if_pos old]
    · rw [if_neg (by omega), if_neg old, if_pos before, if_pos (by omega)]
  · by_cases within : i < p + w.length
    · rw [if_pos within, if_neg before, if_pos ⟨by omega, within⟩]
    · have notWritten : ¬ (p ≤ i ∧ i < p + w.length) := by omega
      have back : p + w.length + (i - (p + w.length)) = i := by omega
      rw [if_neg within, if_neg notWritten, back, if_neg before]
      by_cases old : i < f.length
      · rw [if_pos old]
      · rw [if_neg old, List.getElem?_eq_none (by omega)]

/-- A write leaves what lies behind it. -/
theorem getElem?_write_behind (z : α) {f w : List α} {p i : Nat} (behind : p + w.length ≤ i)
    (old : i < f.length) : (write z f p w)[i]? = f[i]? := by
  by_cases empty : w = []
  · rw [empty, write_nil]
  · rw [getElem?_write z f p empty, if_neg (by omega), if_pos old]

/-- The positions of a window are those of the content, moved by its start. -/
theorem getElem?_window (f : List α) (p n i : Nat) :
    (window f p n)[i]? = if i < n then f[p + i]? else none := by
  simp only [window, List.getElem?_take, List.getElem?_drop]

/-- A window is cut short only by the end of the content. -/
@[simp] theorem length_window (f : List α) (p n : Nat) :
    (window f p n).length = min n (f.length - p) := by
  simp only [window, List.length_take, List.length_drop]

/-- A window of length zero is empty. -/
@[simp] theorem window_zero (f : List α) (p : Nat) : window f p 0 = [] := rfl

/-- Nothing stands past the end. -/
theorem window_of_le {f : List α} {p : Nat} (n : Nat) (past : f.length ≤ p) : window f p n = [] := by
  rw [window, List.drop_eq_nil_of_le past, List.take_nil]

/-- A window is the window of its first part followed by the window of the rest. -/
theorem window_append (f : List α) (p a b : Nat) :
    window f p (a + b) = window f p a ++ window f (p + a) b := by
  simp only [window, List.take_add, List.drop_drop]

/-- What is appended is not seen by a window that lies in front of it. -/
theorem window_append_left {f : List α} (g : List α) {p n : Nat} (inside : p + n ≤ f.length) :
    window (f ++ g) p n = window f p n := by
  have longEnough : n ≤ (f.drop p).length := by rw [List.length_drop]; omega
  rw [window, window, List.drop_append_of_le_length (by omega),
    List.take_append_of_le_length longEnough]

/-- The window of what was appended shows it. -/
theorem window_append_right (f g : List α) : window (f ++ g) f.length g.length = g := by
  rw [window, List.drop_left, List.take_length]

/-- A window that ends before its length does is the same for any longer length. -/
theorem window_of_short {f : List α} {p n : Nat} (m : Nat) (short : f.length ≤ p + n)
    (longer : n ≤ m) : window f p m = window f p n := by
  rw [window, window, List.take_of_length_le (by simp only [List.length_drop]; omega),
    List.take_of_length_le (by simp only [List.length_drop]; omega)]

/-- Two writes that meet are one. -/
theorem write_append (z : α) (f : List α) (p : Nat) (a b : List α) :
    write z (write z f p a) (p + a.length) b = write z f p (a ++ b) := by
  by_cases noFirst : a = []
  · subst noFirst
    simp
  by_cases noSecond : b = []
  · subst noSecond
    simp
  refine List.ext_getElem? fun i => ?_
  have reach := length_write z f p noFirst
  rw [getElem?_write z _ _ noSecond, getElem?_write z f p noFirst,
    getElem?_write z f p (w := a ++ b) (by simp [noFirst]), List.length_append,
    List.getElem?_append]
  -- Where both writes are silent the first one's result is the old content.
  by_cases second : p + a.length ≤ i ∧ i < p + a.length + b.length
  · rw [if_pos second, if_pos (by omega), if_neg (by omega)]
    congr 1
    omega
  · rw [if_neg second]
    by_cases first : p ≤ i ∧ i < p + a.length
    · rw [if_pos (by omega), if_pos first, if_pos (by omega), if_pos (by omega)]
    · rw [if_neg first, if_neg (by omega : ¬ (p ≤ i ∧ i < p + (a.length + b.length)))]
      by_cases old : i < f.length
      · rw [if_pos (by omega), if_pos old]
      · rw [if_neg old]
        by_cases gap : i < p
        · rw [if_pos (by omega), if_pos gap]
        · rw [if_neg gap, if_neg (by omega), if_neg (by omega)]

/-- Writing back what already stands there changes nothing. -/
theorem write_window (z : α) (f : List α) {p : Nat} (n : Nat) (inside : p ≤ f.length) :
    write z f p (window f p n) = f := by
  by_cases none_ : window f p n = []
  · rw [none_, write_nil]
  refine List.ext_getElem? fun i => ?_
  rw [getElem?_write z f p none_, getElem?_window, length_window]
  by_cases written : p ≤ i ∧ i < p + min n (f.length - p)
  · rw [if_pos written, if_pos (by omega)]
    congr 1
    omega
  · rw [if_neg written]
    by_cases old : i < f.length
    · rw [if_pos old]
    · rw [if_neg old, if_neg (by omega), List.getElem?_eq_none (by omega)]

/-- A window inside the written part shows the written content. -/
theorem window_write_inside (z : α) (f : List α) {p i n : Nat} {w : List α} (starts : p ≤ i)
    (ends : i + n ≤ p + w.length) : window (write z f p w) i n = window w (i - p) n := by
  by_cases none_ : w = []
  · subst none_
    have empty : n = 0 := by simp only [List.length_nil] at ends; omega
    subst empty
    rfl
  refine List.ext_getElem? fun j => ?_
  rw [getElem?_window, getElem?_window]
  by_cases within : j < n
  · rw [if_pos within, if_pos within, getElem?_write z f p none_, if_pos (by omega)]
    congr 1
    omega
  · rw [if_neg within, if_neg within]

end Overlay
