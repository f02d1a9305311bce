import Okr.Base.Disk

/-! Stores into buffers and disks, and what they leave in place. -/

namespace Okr

/-- Store a little-endian number of `size` bytes at an address. -/
def put (size : Nat) (m : Image) (i v : Nat) : Image := fun a =>
  if i ≤ a ∧ a < i + size then UInt8.ofNat (v / 256 ^ (a - i)) else m a

/-- `CopyMem` of constant bytes to an address. -/
def putBytes (m : Image) (i : Nat) (bytes : Bytes) : Image := fun a =>
  if i ≤ a ∧ a < i + bytes.length then bytes.getD (a - i) 0 else m a

/-- `memcpy` inside one buffer. -/
def copyMem (m : Image) (target source count : Nat) : Image := fun a =>
  if target ≤ a ∧ a < target + count then m (source + (a - target)) else m a

/-- Zeros from one address up to another. -/
def zeroFill (m : Image) (start stop : Nat) : Image := fun a =>
  if start ≤ a ∧ a < stop then 0 else m a

/-- The bytes of a part of a buffer, as a function of the firmware gets them. -/
def bytesAt (m : Image) (start count : Nat) : Bytes :=
  (List.range count).map fun a => m (start + a)

/-- `DiskWrite`: the front of the buffer goes into `count` sectors from `sector` on. -/
def diskWrite (disk : Image) (sector count : Nat) (buffer : Image) : Image := fun a =>
  if sector * SECTOR_SIZE ≤ a ∧ a < (sector + count) * SECTOR_SIZE then buffer (a - sector * SECTOR_SIZE)
  else disk a

/-- A 16-bit number is decided by its two bytes. -/
theorem le16_congr {m m' : Image} {i i' : Nat} (same : ∀ a < 2, m (i + a) = m' (i' + a)) :
    le16 m i = le16 m' i' := by
  have low := same 0 (by omega)
  have high := same 1 (by omega)
  simp only [Nat.add_zero] at low
  simp only [le16, low, high]

/-- A 32-bit number is decided by its four bytes. -/
theorem le32_congr {m m' : Image} {i i' : Nat} (same : ∀ a < 4, m (i + a) = m' (i' + a)) :
    le32 m i = le32 m' i' := by
  have low := le16_congr fun a below => same a (by omega)
  have high : le16 m (i + 2) = le16 m' (i' + 2) := by
    apply le16_congr
    intro a below
    rw [Nat.add_assoc, Nat.add_assoc]
    exact same (2 + a) (by omega)
  simp only [le32, low, high]

/-- A 64-bit number is decided by its eight bytes. -/
theorem le64_congr {m m' : Image} {i i' : Nat} (same : ∀ a < 8, m (i + a) = m' (i' + a)) :
    le64 m i = le64 m' i' := by
  have low := le32_congr fun a below => same a (by omega)
  have high : le32 m (i + 4) = le32 m' (i' + 4) := by
    apply le32_congr
    intro a below
    rw [Nat.add_assoc, Nat.add_assoc]
    exact same (4 + a) (by omega)
  simp only [le64, low, high]

/-- A stored number is read back. -/
theorem le32_put {m : Image} {i v : Nat} (fits : v < 2 ^ 32) : le32 (put 4 m i v) i = v := by
  have byte : ∀ a < 4, (put 4 m i v (i + a)).toNat = v / 256 ^ a % 256 := by
    intro a below
    rw [put, if_pos (by omega), Nat.add_sub_cancel_left]
    exact UInt8.toNat_ofNat'
  have b0 := byte 0 (by omega)
  have b1 := byte 1 (by omega)
  have b2 := byte 2 (by omega)
  have b3 := byte 3 (by omega)
  simp only [Nat.add_zero] at b0
  simp only [le32, le16, Nat.add_assoc, Nat.reduceAdd, b0, b1, b2, b3]
  omega

/-- A stored number is read back. -/
theorem le64_put {m : Image} {i v : Nat} (fits : v < 2 ^ 64) : le64 (put 8 m i v) i = v := by
  have byte : ∀ a < 8, (put 8 m i v (i + a)).toNat = v / 256 ^ a % 256 := by
    intro a below
    rw [put, if_pos (by omega), Nat.add_sub_cancel_left]
    exact UInt8.toNat_ofNat'
  have b0 := byte 0 (by omega)
  have b1 := byte 1 (by omega)
  have b2 := byte 2 (by omega)
  have b3 := byte 3 (by omega)
  have b4 := byte 4 (by omega)
  have b5 := byte 5 (by omega)
  have b6 := byte 6 (by omega)
  have b7 := byte 7 (by omega)
  simp only [Nat.add_zero] at b0
  simp only [le64, le32, le16, Nat.add_assoc, Nat.reduceAdd, b0, b1, b2, b3, b4, b5, b6, b7]
  omega

/-- A store leaves the bytes around it. -/
theorem put_other {size : Nat} {m : Image} {i v a : Nat} (apart : a < i ∨ i + size ≤ a) :
    put size m i v a = m a := by
  rw [put, if_neg (by omega)]

/-- A store leaves the bytes around it. -/
theorem putBytes_other {m : Image} {i a : Nat} {bytes : Bytes}
    (apart : a < i ∨ i + bytes.length ≤ a) : putBytes m i bytes a = m a := by
  rw [putBytes, if_neg (by omega)]

/-- A copy leaves the bytes around it. -/
theorem copyMem_other {m : Image} {target source count a : Nat}
    (apart : a < target ∨ target + count ≤ a) : copyMem m target source count a = m a := by
  rw [copyMem, if_neg (by omega)]

/-- A filled byte is zero. -/
theorem zeroFill_inside {m : Image} {start stop a : Nat} (inside : start ≤ a ∧ a < stop) :
    zeroFill m start stop a = 0 := by
  rw [zeroFill, if_pos inside]

/-- Filling leaves the bytes around it. -/
theorem zeroFill_other {m : Image} {start stop a : Nat} (apart : a < start ∨ stop ≤ a) :
    zeroFill m start stop a = m a := by
  rw [zeroFill, if_neg (by omega)]

/-- A number whose bytes are all zero is zero. -/
theorem le64_zero {m : Image} {i : Nat} (zero : ∀ a < 8, m (i + a) = 0) : le64 m i = 0 := by
  have same : le64 m i = le64 (fun _ => 0) 0 := le64_congr fun a below => zero a below
  rw [same]
  rfl

/-- A write leaves the bytes of other sectors. -/
theorem diskWrite_other {disk buffer : Image} {sector count a : Nat}
    (apart : a < sector * SECTOR_SIZE ∨ (sector + count) * SECTOR_SIZE ≤ a) :
    diskWrite disk sector count buffer a = disk a := by
  rw [diskWrite, if_neg (by omega)]

/-- What was written is read back. -/
theorem diskRead_diskWrite (disk buffer memory : Image) (sector count : Nat) {a : Nat}
    (inside : a < count * SECTOR_SIZE) :
    diskRead (diskWrite disk sector count buffer) sector count memory a = buffer a := by
  rw [diskRead, if_pos inside, diskWrite, if_pos, Nat.add_sub_cancel_left]
  rw [Nat.add_mul]
  omega

/-- Parts of buffers with the same bytes are the same. -/
theorem bytesAt_congr {m m' : Image} {i i' count : Nat}
    (same : ∀ a < count, m (i + a) = m' (i' + a)) : bytesAt m i count = bytesAt m' i' count := by
  apply List.map_congr_left
  intro a mem
  exact same a (List.mem_range.mp mem)

/-- Dropping the low bits of a word rounds it down. -/
theorem and_high (width bits : Nat) (narrow : bits ≤ width) {n : Nat} (fits : n < 2 ^ width) :
    n &&& (2 ^ width - 2 ^ bits) = n / 2 ^ bits * 2 ^ bits := by
  have whole : 2 ^ width = 2 ^ (width - bits) * 2 ^ bits := by
    rw [← Nat.pow_add]
    congr 1
    omega
  have mask : 2 ^ width - 2 ^ bits = (2 ^ (width - bits) - 1) <<< bits := by
    rw [Nat.shiftLeft_eq, Nat.sub_mul, ← whole, Nat.one_mul]
  apply Nat.eq_of_testBit_eq
  intro b
  rw [Nat.testBit_and, mask, Nat.testBit_shiftLeft, Nat.testBit_two_pow_sub_one,
    Nat.testBit_mul_two_pow, Nat.testBit_div_two_pow]
  by_cases low : bits ≤ b
  · have back : b - bits + bits = b := by omega
    by_cases high : b < width
    · have inside : b - bits < width - bits := by omega
      simp [low, inside, back]
    · have zero : n.testBit b = false :=
        Nat.testBit_lt_two_pow (Nat.lt_of_lt_of_le fits (Nat.pow_le_pow_right (by decide) (by omega)))
      simp [zero, back]
  · simp [low]

/-- A mask of fewer bits looks at these bits only. -/
theorem and_narrow {width : Nat} (n : Nat) {mask : Nat} (narrow : mask < 2 ^ width) :
    n &&& mask = n % 2 ^ width &&& mask := by
  have below : n &&& mask < 2 ^ width := Nat.lt_of_le_of_lt Nat.and_le_right narrow
  rw [← Nat.mod_eq_of_lt below, Nat.and_mod_two_pow, Nat.mod_eq_of_lt narrow]

end Okr
