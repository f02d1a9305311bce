import Mathlib.Data.List.Basic
import Mathlib.Tactic.Ring

/-! Extents of a linear space and the blocks of fixed size that they meet. -/

namespace Blocks

/-- A run of consecutive units. -/
structure Extent where
  start : Nat
  number : Nat
  deriving DecidableEq, Repr

namespace Extent

/-- The first unit behind the extent. -/
def stop (e : Extent) : Nat := e.start + e.number

/-- The unit lies in the extent. -/
def Has (e : Extent) (x : Nat) : Prop := e.start ≤ x ∧ x < e.stop

instance (e : Extent) (x : Nat) : Decidable (e.Has x) :=
  inferInstanceAs (Decidable (_ ∧ _))

/-- Every unit of the first extent is one of the second. -/
def Within (e outer : Extent) : Prop := outer.start ≤ e.start ∧ e.stop ≤ outer.stop

instance (e outer : Extent) : Decidable (e.Within outer) :=
  inferInstanceAs (Decidable (_ ∧ _))

/-- The extent and the block with this index share a unit. -/
def Meets (size : Nat) (e : Extent) (block : Nat) : Prop :=
  ∃ x, e.Has x ∧ x / size = block

/-- An extent that is not empty meets the blocks from that of its first unit to that of its last. -/
theorem meets_iff {size : Nat} {e : Extent} (some_ : 0 < e.number) (positive : 0 < size)
    {block : Nat} :
    e.Meets size block ↔ e.start / size ≤ block ∧ block ≤ (e.stop - 1) / size := by
  constructor
  · rintro ⟨x, ⟨low, high⟩, rfl⟩
    exact ⟨Nat.div_le_div_right low, Nat.div_le_div_right (by omega)⟩
  · rintro ⟨low, high⟩
    -- The witness is the first unit of the block, or the first of the extent behind it.
    have reach : block * size ≤ e.stop - 1 := (Nat.le_div_iff_mul_le positive).mp high
    have before : e.start < (block + 1) * size := (Nat.div_lt_iff_lt_mul positive).mp (by omega)
    have next : (block + 1) * size = block * size + size := by ring
    simp only [stop] at reach
    by_cases inside : e.start ≤ block * size
    · refine ⟨block * size, ⟨inside, by simp only [stop]; omega⟩, Nat.mul_div_cancel _ positive⟩
    · refine ⟨e.start, ⟨Nat.le_refl _, by simp only [stop]; omega⟩, ?_⟩
      apply Nat.le_antisymm low
      exact (Nat.le_div_iff_mul_le positive).mpr (by omega)

/-- An empty extent meets no block. -/
theorem not_meets_empty {size : Nat} {e : Extent} (empty : e.number = 0) {block : Nat} :
    ¬ e.Meets size block := by
  rintro ⟨x, ⟨low, high⟩, -⟩
  simp only [stop] at high
  omega

/-- A block met by an extent is met by every extent around it. -/
theorem Meets.mono {size : Nat} {e outer : Extent} {block : Nat} (meets : e.Meets size block)
    (within : e.Within outer) : outer.Meets size block := by
  obtain ⟨x, ⟨low, high⟩, rfl⟩ := meets
  exact ⟨x, ⟨Nat.le_trans within.1 low, Nat.lt_of_lt_of_le high within.2⟩, rfl⟩

/-- A block that holds a unit of the extent is met by it. -/
theorem Has.meets {e : Extent} {x : Nat} (has : e.Has x) (size : Nat) : e.Meets size (x / size) :=
  ⟨x, has, rfl⟩

end Extent

/-- Every unit of the extent is in one of the extents of the list. -/
def Covers (es : List Extent) (e : Extent) : Prop :=
  ∀ x, e.Has x → ∃ c ∈ es, c.Has x

/-- Covering extents meet every block the covered one meets. -/
theorem Covers.meets {es : List Extent} {e : Extent} (covers : Covers es e) {size block : Nat}
    (meets : e.Meets size block) : ∃ c ∈ es, c.Meets size block := by
  obtain ⟨x, has, rfl⟩ := meets
  obtain ⟨c, mem, has'⟩ := covers x has
  exact ⟨c, mem, has'.meets size⟩

end Blocks
