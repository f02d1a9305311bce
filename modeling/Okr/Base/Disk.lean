import Okr.Base.Partition

/-! Bytes at addresses: sectors of a disk, buffers, and the little-endian numbers in them. -/

namespace Okr

/-- A disk or a buffer as the byte at every address. -/
abbrev Image := Nat → Byte

/-- The 16-bit number at an address. -/
def le16 (m : Image) (i : Nat) : Nat :=
  (m i).toNat + 2 ^ 8 * (m (i + 1)).toNat

/-- The 32-bit number at an address. -/
def le32 (m : Image) (i : Nat) : Nat :=
  le16 m i + 2 ^ 16 * le16 m (i + 2)

/-- The 64-bit number at an address. -/
def le64 (m : Image) (i : Nat) : Nat :=
  le32 m i + 2 ^ 32 * le32 m (i + 4)

/-- `DiskRead`: the bytes of `count` sectors from `sector` on come into the buffer. -/
def diskRead (disk : Image) (sector count : Nat) (buffer : Image) : Image := fun i =>
  if i < count * SECTOR_SIZE then disk (sector * SECTOR_SIZE + i) else buffer i

/-- A 16-bit number fits its width. -/
theorem le16_lt (m : Image) (i : Nat) : le16 m i < 2 ^ 16 := by
  have low := (m i).toNat_lt
  have high := (m (i + 1)).toNat_lt
  unfold le16
  omega

/-- A 32-bit number fits its width. -/
theorem le32_lt (m : Image) (i : Nat) : le32 m i < 2 ^ 32 := by
  have low := le16_lt m i
  have high := le16_lt m (i + 2)
  unfold le32
  omega

/-- A 64-bit number fits its width. -/
theorem le64_lt (m : Image) (i : Nat) : le64 m i < 2 ^ 64 := by
  have low := le32_lt m i
  have high := le32_lt m (i + 4)
  unfold le64
  omega

end Okr
