import Mathlib.Tactic.Ring

/-! Machine words of the source: the wrap-around of its unsigned types and little-endian reads. -/

namespace Okr

/-- A byte of a disk, a file or a buffer. -/
abbrev Byte := UInt8

/-- A buffer or a file is the list of its bytes, first byte first. -/
abbrev Bytes := List Byte

/-- The value a 32-bit unsigned variable keeps of a result. -/
def u32 (n : Nat) : Nat := n % 2 ^ 32

/-- The value a 64-bit unsigned variable keeps of a result. -/
def u64 (n : Nat) : Nat := n % 2 ^ 64

/-- Subtraction of 64-bit unsigned variables, which wraps below zero. -/
def sub64 (a b : Nat) : Nat := (a + 2 ^ 64 - b % 2 ^ 64) % 2 ^ 64

/-- Subtraction of 32-bit unsigned variables, which wraps below zero. -/
def sub32 (a b : Nat) : Nat := (a + 2 ^ 32 - b % 2 ^ 32) % 2 ^ 32

/-- The value a signed 8-bit variable keeps of a small result. -/
def char8 (n : Int) : Int := (n + 128) % 256 - 128

/-- A byte as a `char` of C. -/
def char (b : Byte) : Int := char8 b.toNat

/-- A value below the width is kept by a 32-bit variable. -/
@[simp] theorem u32_eq {n : Nat} (fits : n < 2 ^ 32) : u32 n = n :=
  Nat.mod_eq_of_lt fits

/-- A value below the width is kept by a 64-bit variable. -/
@[simp] theorem u64_eq {n : Nat} (fits : n < 2 ^ 64) : u64 n = n :=
  Nat.mod_eq_of_lt fits

/-- Subtraction that does not go below zero is the usual one. -/
theorem sub64_eq {a b : Nat} (ordered : b ≤ a) (fits : a < 2 ^ 64) : sub64 a b = a - b := by
  -- The borrow of one whole word is dropped again by the reduction.
  unfold sub64
  omega

/-- Subtraction that does not go below zero is the usual one. -/
theorem sub32_eq {a b : Nat} (ordered : b ≤ a) (fits : a < 2 ^ 32) : sub32 a b = a - b := by
  unfold sub32
  omega

/-- A small non-negative number survives the conversion to a signed byte. -/
theorem char8_eq {n : Int} (low : -128 ≤ n) (high : n < 128) : char8 n = n := by
  unfold char8
  omega

end Okr
