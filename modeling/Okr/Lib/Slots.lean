import Mathlib.Tactic.Ring

/-! Tables of slots, some of which hold a range of numbers, and when their ranges are in order. -/

namespace Slots

/-- A slot of a table; a slot in use holds the numbers from `first` to `last`. -/
structure Slot where
  used : Prop
  first : Nat
  last : Nat

/-- Two ranges have no number in common. -/
def Slot.Apart (a b : Slot) : Prop := a.last < b.first ∨ b.last < a.first

/-- A range that is not empty and lies between two bounds. -/
structure Slot.Fits (low high : Nat) (a : Slot) : Prop where
  ordered : a.first ≤ a.last
  above : low ≤ a.first
  below : a.last ≤ high

/-- The slots in use among the first `count` fit between the bounds and are pairwise apart. -/
structure WellFormed (low high count : Nat) (table : Nat → Slot) : Prop where
  fits : ∀ k < count, (table k).used → (table k).Fits low high
  apart : ∀ k < count, ∀ l < count, k ≠ l → (table k).used → (table l).used →
    (table k).Apart (table l)

/-- The slots in use among the first `count` end before a bound. -/
def Before (bound count : Nat) (table : Nat → Slot) : Prop :=
  ∀ k < count, (table k).used → (table k).last < bound

variable {low high count : Nat} {table table' : Nat → Slot}

/-- Being apart does not depend on the order. -/
theorem Slot.Apart.symm {a b : Slot} (apart : a.Apart b) : b.Apart a :=
  Or.symm apart

/-- Tables with the same slots are in order together. -/
theorem WellFormed.congr (wf : WellFormed low high count table)
    (same : ∀ k < count, table' k = table k) : WellFormed low high count table' := by
  constructor
  · intro k below used
    rw [same k below] at used ⊢
    exact wf.fits k below used
  · intro k below l below' other used used'
    rw [same k below] at used ⊢
    rw [same l below'] at used' ⊢
    exact wf.apart k below l below' other used used'

/-- Free slots at the end do not count. -/
theorem wellFormed_trim {n : Nat} (shorter : n ≤ count)
    (free : ∀ k, n ≤ k → k < count → ¬ (table k).used) :
    WellFormed low high count table ↔ WellFormed low high n table := by
  constructor
  · intro wf
    exact ⟨fun k below used => wf.fits k (by omega) used,
      fun k below l below' other used used' => wf.apart k (by omega) l (by omega) other used used'⟩
  · intro wf
    have front : ∀ k < count, (table k).used → k < n := by
      intro k below used
      by_contra behind
      exact free k (by omega) below used
    exact ⟨fun k below used => wf.fits k (front k below used) used,
      fun k below l below' other used used' =>
        wf.apart k (front k below used) l (front l below' used') other used used'⟩

/-- One more slot in use has to fit and to be apart from those before. -/
theorem wellFormed_succ {n : Nat} (used : (table n).used) :
    WellFormed low high (n + 1) table
      ↔ WellFormed low high n table ∧ (table n).Fits low high
        ∧ ∀ k < n, (table k).used → (table k).Apart (table n) := by
  constructor
  · intro wf
    exact ⟨⟨fun k below used => wf.fits k (by omega) used,
        fun k below l below' other used used' => wf.apart k (by omega) l (by omega) other used used'⟩,
      wf.fits n (by omega) used,
      fun k below used' => wf.apart k (by omega) n (by omega) (by omega) used' used⟩
  · rintro ⟨wf, fits, apart⟩
    constructor
    · intro k below used'
      by_cases last : k = n
      · rw [last]
        exact fits
      · exact wf.fits k (by omega) used'
    · -- Either one of the two slots is the new one, or both are old.
      intro k below l below' other used₁ used₂
      by_cases first : k = n
      · rw [first] at used₁ other ⊢
        exact (apart l (by omega) used₂).symm
      · by_cases second : l = n
        · rw [second] at used₂ ⊢
          exact apart k (by omega) used₁
        · exact wf.apart k (by omega) l (by omega) other used₁ used₂

/-- A range from a bound on is apart from the slots that end before the bound. -/
theorem Before.apart {bound n : Nat} (before : Before bound n table) {a : Slot}
    (behind : bound ≤ a.first) : ∀ k < n, (table k).used → (table k).Apart a := by
  intro k below used
  have ends := before k below used
  exact Or.inl (by omega)

/-- A bound may be moved behind one more slot. -/
theorem Before.succ {bound bound' n : Nat} (before : Before bound n table) (later : bound ≤ bound')
    (ends : (table n).used → (table n).last < bound') : Before bound' (n + 1) table := by
  intro k below used
  by_cases last : k = n
  · rw [last] at used ⊢
    exact ends used
  · exact Nat.lt_of_lt_of_le (before k (by omega) used) later

/-- A slot behind all others keeps the table in order when it fits. -/
theorem WellFormed.succ {bound n : Nat} (wf : WellFormed low high n table)
    (before : Before bound n table) (behind : (table n).used → bound ≤ (table n).first)
    (fits : (table n).used → (table n).Fits low high) : WellFormed low high (n + 1) table := by
  by_cases used : (table n).used
  · exact (wellFormed_succ used).mpr ⟨wf, fits used, before.apart (behind used)⟩
  · refine (wellFormed_trim (Nat.le_succ n) fun k low below => ?_).mpr wf
    have last : k = n := by omega
    rw [last]
    exact used

/-- The bounds of a table can be widened. -/
theorem WellFormed.widen {low' high' : Nat} (wf : WellFormed low high count table) (below : low' ≤ low)
    (above : high ≤ high') : WellFormed low' high' count table := by
  refine ⟨fun k inside used => ?_, wf.apart⟩
  have fits := wf.fits k inside used
  exact ⟨fits.ordered, Nat.le_trans below fits.above, Nat.le_trans fits.below above⟩

/-- With a front that ends before it, the last slot in use is the only one that has to fit. -/
theorem wellFormed_last {k : Nat} (inside : k < count) (used : (table k).used)
    (front : WellFormed low (table k).first k table) (before : Before (table k).first k table)
    (free : ∀ l, k < l → l < count → ¬ (table l).used) :
    WellFormed low high count table ↔ (table k).Fits low high := by
  rw [wellFormed_trim inside (fun l low below => free l low below), wellFormed_succ used]
  constructor
  · rintro ⟨-, fits, -⟩
    exact fits
  · intro fits
    exact ⟨front.widen (Nat.le_refl _) (Nat.le_trans fits.ordered fits.below), fits,
      before.apart (Nat.le_refl _)⟩

end Slots
