import Mathlib.Data.Nat.Bitwise
import Okr.Scan.Bitmap

/-! Exactly which bits a request sets in the backup bitmap. -/

namespace Okr

open Blocks (Extent)

/-- The mask of a block is the power of two of its place in the byte. -/
theorem mask_toNat (block : Nat) :
    ((1 : Byte) <<< (UInt8.ofNat block &&& 7)).toNat = 2 ^ (block % 8) := by
  have place : (UInt8.ofNat block &&& 7).toNat = block % 8 := by
    rw [UInt8.toNat_and, UInt8.toNat_ofNat']
    have seven : (7 : UInt8).toNat = 2 ^ 3 - 1 := rfl
    rw [seven, Nat.and_two_pow_sub_one_eq_mod]
    omega
  rw [UInt8.toNat_shiftLeft, place]
  have one : (1 : UInt8).toNat = 1 := rfl
  rw [one, Nat.one_shiftLeft, Nat.mod_mod]
  have below : block % 8 < 8 := Nat.mod_lt _ (by decide)
  exact Nat.mod_eq_of_lt (Nat.pow_lt_pow_right (by decide) below)

/-- Reading a bit is testing it in the number the byte is. -/
theorem readBit_eq (block : Nat) (bytes : Bytes) :
    readBit block bytes = (bytes.getD (block / 8) 0).toNat.testBit (block % 8) := by
  have masked : ((1 : Byte) <<< (UInt8.ofNat block &&& 7) &&& bytes.getD (block / 8) 0).toNat
      = 2 ^ (block % 8) * ((bytes.getD (block / 8) 0).toNat.testBit (block % 8)).toNat := by
    rw [UInt8.toNat_and, mask_toNat, Nat.two_pow_and]
  unfold readBit
  cases bit : (bytes.getD (block / 8) 0).toNat.testBit (block % 8) with
  | true =>
    rw [bit] at masked
    have positive : 0 < 2 ^ (block % 8) := Nat.two_pow_pos _
    have some_ : (1 : Byte) <<< (UInt8.ofNat block &&& 7) &&& bytes.getD (block / 8) 0 ≠ 0 := by
      intro zero
      rw [zero, Bool.toNat_true, Nat.mul_one] at masked
      exact absurd masked.symm (Nat.ne_of_gt positive)
    rw [bne_iff_ne]
    exact some_
  | false =>
    rw [bit] at masked
    have zero : (1 : Byte) <<< (UInt8.ofNat block &&& 7) &&& bytes.getD (block / 8) 0 = 0 :=
      UInt8.toNat_inj.mp (by rw [masked]; rfl)
    show ((1 : Byte) <<< (UInt8.ofNat block &&& 7) &&& bytes.getD (block / 8) 0 != 0) = false
    rw [zero]
    rfl

/-- Marking a block sets its bit and no other. -/
theorem readBit_markBit (b block : Nat) (bitmap : Bitmap) :
    readBit b (markBit block bitmap).bytes
      = (readBit b bitmap.bytes || decide (b = block ∧ block / 8 < bitmap.bytes.length)) := by
  rw [readBit_eq, readBit_eq]
  simp only [markBit, List.getD_eq_getElem?_getD, List.getElem?_modify]
  by_cases byte : block / 8 = b / 8
  · cases old : bitmap.bytes[b / 8]? with
    | none =>
      have behind := List.getElem?_eq_none_iff.mp old
      simp [byte, Nat.not_lt.mpr behind]
    | some v =>
      have inside : b / 8 < bitmap.bytes.length := (List.getElem?_eq_some_iff.mp old).1
      simp only [byte, if_true, Option.map_eq_map, Option.map_some, Option.getD_some,
        UInt8.toNat_or, mask_toNat, Nat.testBit_or, Nat.testBit_two_pow, inside, and_true]
      congr 1
      have same : block % 8 = b % 8 ↔ b = block := by omega
      exact decide_eq_decide.mpr same
  · -- Blocks of different bytes do not touch each other.
    have differ : ¬ (b = block ∧ block / 8 < bitmap.bytes.length) := by
      rintro ⟨rfl, -⟩
      exact byte rfl
    simp [byte, differ]

/-- Marking keeps the size of the buffer. -/
theorem markBit_length (block : Nat) (bitmap : Bitmap) :
    (markBit block bitmap).bytes.length = bitmap.bytes.length :=
  List.length_modify _ _ _

/-- A run of marks sets exactly the bits of its blocks that the buffer holds. -/
theorem markBits_spec (count : Nat) :
    ∀ (firstblk : Nat) (bitmap : Bitmap),
      (markBits count firstblk bitmap).bytes.length = bitmap.bytes.length
        ∧ ((markBits count firstblk bitmap).overrun
            ↔ bitmap.overrun ∨ ∃ b, firstblk ≤ b ∧ b < firstblk + count ∧ bitmap.bytes.length ≤ b / 8)
        ∧ ∀ b, readBit b (markBits count firstblk bitmap).bytes
            ↔ readBit b bitmap.bytes
              ∨ (firstblk ≤ b ∧ b < firstblk + count ∧ b / 8 < bitmap.bytes.length) := by
  -- on the count; the first bit is marked in advance and the rest are marked behind it
  induction count with
  | zero =>
    intro firstblk bitmap
    refine ⟨rfl, ⟨Or.inl, ?_⟩, fun b => ⟨Or.inl, ?_⟩⟩
    · rintro (spill | ⟨b, low, high, -⟩)
      · exact spill
      · omega
    · rintro (set | ⟨low, high, -⟩)
      · exact set
      · omega
  | succ count ih =>
    intro firstblk bitmap
    obtain ⟨length, spill, bits⟩ := ih (firstblk + 1) (markBit firstblk bitmap)
    simp only [markBits]
    rw [markBit_length] at length spill bits
    refine ⟨length, ?_, fun b => ?_⟩
    · rw [spill]
      simp only [markBit, Bool.or_eq_true, decide_eq_true_eq]
      constructor
      · rintro ((old | here) | ⟨b, low, high, behind⟩)
        · exact Or.inl old
        · exact Or.inr ⟨firstblk, Nat.le_refl _, by omega, here⟩
        · exact Or.inr ⟨b, by omega, by omega, behind⟩
      · rintro (old | ⟨b, low, high, behind⟩)
        · exact Or.inl (Or.inl old)
        · by_cases first : b = firstblk
          · exact Or.inl (Or.inr (by rw [← first]; exact behind))
          · exact Or.inr ⟨b, by omega, by omega, behind⟩
    · -- a bit is set where it was, at the first place, or at a later one
      rw [bits, readBit_markBit, Bool.or_eq_true, decide_eq_true_eq]
      constructor
      · rintro ((old | ⟨rfl, inside⟩) | ⟨low, high, inside⟩)
        · exact Or.inl old
        · exact Or.inr ⟨Nat.le_refl _, by omega, inside⟩
        · exact Or.inr ⟨by omega, by omega, inside⟩
      · rintro (old | ⟨low, high, inside⟩)
        · exact Or.inl (Or.inl old)
        · by_cases first : b = firstblk
          · exact Or.inl (Or.inr ⟨first, by rw [← first]; exact inside⟩)
          · exact Or.inr ⟨by omega, by omega, inside⟩

/-- A request that is not empty touches exactly the blocks it meets. -/
theorem touches_iff {e : Extent} (some_ : 0 < e.number) (fits : e.stop ≤ 2 ^ 64) {block : Nat} :
    Touches e block ↔ e.Meets BLOCK_SIZE block := by
  have last : lastSector e = e.stop - 1 := by
    -- Behind the last sector there is may be the number 2^64, whose word is zero.
    simp only [Extent.stop] at fits ⊢
    rw [lastSector, sub64, u64]
    omega
  rw [Extent.meets_iff some_ (by decide), Touches, last]

/-- A request sets exactly the bits of the blocks it touches, unless it is excluded. -/
theorem getDataToBitmap_spec (unused : List Extent) (e : Extent) (bitmap : Bitmap) :
    (getDataToBitmap unused e bitmap).bytes.length = bitmap.bytes.length
      ∧ ((getDataToBitmap unused e bitmap).overrun
          ↔ bitmap.overrun
            ∨ (excluded unused e = false ∧ ∃ b, Touches e b ∧ bitmap.bytes.length ≤ b / 8))
      ∧ ∀ b, readBit b (getDataToBitmap unused e bitmap).bytes
          ↔ readBit b bitmap.bytes
            ∨ (excluded unused e = false ∧ Touches e b ∧ b / 8 < bitmap.bytes.length) := by
  unfold getDataToBitmap
  cases drop : excluded unused e with
  | true => simp
  | false =>
    obtain ⟨length, spill, bits⟩ := markBits_spec
      (lastSector e / BLOCK_SIZE + 1 - e.start / BLOCK_SIZE) (e.start / BLOCK_SIZE) bitmap
    -- The count of passes is the number of blocks from the first to the last.
    have range : ∀ b, (e.start / BLOCK_SIZE ≤ b
        ∧ b < e.start / BLOCK_SIZE + (lastSector e / BLOCK_SIZE + 1 - e.start / BLOCK_SIZE))
        ↔ Touches e b := by
      intro b
      unfold Touches
      omega
    simp only [Bool.false_eq_true, if_false, true_and]
    refine ⟨length, ?_, fun b => ?_⟩
    · rw [spill]
      simp only [← and_assoc, range]
    · rw [bits b]
      simp only [← and_assoc, range]

/-- A list of requests sets exactly the bits that one of them that is not excluded touches. -/
theorem markAll_spec (unused : List Extent) (requests : List Extent) :
    ∀ bitmap : Bitmap,
      (requests.foldl (fun bitmap e => getDataToBitmap unused e bitmap) bitmap).bytes.length
          = bitmap.bytes.length
        ∧ ((requests.foldl (fun bitmap e => getDataToBitmap unused e bitmap) bitmap).overrun
            ↔ bitmap.overrun ∨ ∃ e ∈ requests, excluded unused e = false
              ∧ ∃ b, Touches e b ∧ bitmap.bytes.length ≤ b / 8)
        ∧ ∀ b, readBit b (requests.foldl (fun bitmap e => getDataToBitmap unused e bitmap) bitmap).bytes
            ↔ readBit b bitmap.bytes ∨ ∃ e ∈ requests, excluded unused e = false
              ∧ Touches e b ∧ b / 8 < bitmap.bytes.length := by
  induction requests with
  | nil => simp
  | cons e rest ih =>
    intro bitmap
    obtain ⟨length, spill, bits⟩ := ih (getDataToBitmap unused e bitmap)
    obtain ⟨length₁, spill₁, bits₁⟩ := getDataToBitmap_spec unused e bitmap
    simp only [List.foldl_cons]
    rw [length₁] at length spill bits
    refine ⟨length, ?_, fun b => ?_⟩
    · rw [spill, spill₁]
      simp only [List.mem_cons, exists_eq_or_imp, or_assoc]
    · rw [bits b, bits₁ b]
      simp only [List.mem_cons, exists_eq_or_imp, or_assoc]

/-! ### A call that marks what it is to mark -/

/-- Buffers of one length with the same bits are the same. -/
theorem bytes_of_bits {a b : Bytes} (length : a.length = b.length)
    (bits : ∀ k, readBit k a = readBit k b) : a = b := by
  apply List.ext_getElem length
  intro i inA inB
  apply UInt8.toNat_inj.mp
  apply Nat.eq_of_testBit_eq
  intro j
  by_cases low : j < 8
  · have same := bits (8 * i + j)
    have byte : (8 * i + j) / 8 = i := by omega
    have place : (8 * i + j) % 8 = j := by omega
    rw [readBit_eq, readBit_eq, byte, place] at same
    simpa [inA, inB] using same
  · -- A byte has eight bits.
    have high : 2 ^ 8 ≤ 2 ^ j := Nat.pow_le_pow_right (by decide) (by omega)
    rw [Nat.testBit_lt_two_pow (Nat.lt_of_lt_of_le (UInt8.toNat_lt _) high),
      Nat.testBit_lt_two_pow (Nat.lt_of_lt_of_le (UInt8.toNat_lt _) high)]

/-- The words of a call are below the width. -/
theorem MarkCall.start_lt (c : MarkCall) : c.range.start < 2 ^ 64 := c.sector.toNat_lt

theorem MarkCall.number_lt (c : MarkCall) : c.range.number < 2 ^ 64 := c.num.toNat_lt

/-- A call with sectors has a range that is not empty. -/
theorem MarkCall.number_pos {c : MarkCall} (some_ : c.num ≠ 0) : 0 < c.range.number := by
  apply Nat.pos_of_ne_zero
  intro zero
  exact some_ (UInt64.toNat_inj.mp zero)

/-- The loop runs over no block that a range with sectors does not meet. -/
theorem MarkCall.meets_of_touches {c : MarkCall} (some_ : c.num ≠ 0) {b : Nat}
    (touches : Touches c.range b) : c.range.Meets BLOCK_SIZE b := by
  have positive := c.number_pos some_
  by_cases fits : c.range.stop ≤ 2 ^ 64
  · exact (touches_iff positive fits).mp touches
  · -- The last sector has wrapped around to one in front of the first, so there is one block at most.
    obtain ⟨low, high⟩ := touches
    have start := c.start_lt
    have number := c.number_lt
    simp only [Extent.stop] at fits
    have wrapped : lastSector c.range < c.range.start := by
      rw [lastSector, sub64, u64]
      omega
    have same : b = c.range.start / BLOCK_SIZE :=
      Nat.le_antisymm (Nat.le_trans high (Nat.div_le_div_right (Nat.le_of_lt wrapped))) low
    rw [same]
    exact Extent.Has.meets ⟨Nat.le_refl _, by simp only [Extent.stop]; omega⟩ BLOCK_SIZE

/-- A range that is left out and does not end among the words passes the test. -/
theorem MarkCall.excluded_of_leftOut {c : MarkCall} (leftOut : c.LeftOut)
    (long : 2 ^ 64 ≤ c.range.stop) : excluded c.lists c.range := by
  obtain ⟨list, member, front, back⟩ := leftOut
  obtain ⟨words, -, same⟩ := List.mem_map.mp member
  have start := c.start_lt
  have number := c.number_lt
  have lists : list.start < 2 ^ 64 ∧ list.number < 2 ^ 32 := by
    rw [← same]
    exact ⟨words.1.toNat_lt, words.2.toNat_lt⟩
  simp only [Extent.stop] at back long
  -- Both ends lose the same multiple of the width.
  apply List.any_eq_true.mpr
  refine ⟨list, member, decide_eq_true ⟨front, ?_⟩⟩
  rw [u64, u64]
  omega

/-- Nothing is written outside the buffer when the blocks of the loop are in it. -/
theorem MarkCall.overrun_iff (c : MarkCall) (bytes : Bytes) :
    (c.run bytes).overrun = false
      ↔ excluded c.lists c.range ∨ ∀ b, Touches c.range b → b < 8 * bytes.length := by
  obtain ⟨-, spill, -⟩ := getDataToBitmap_spec c.lists c.range { bytes := bytes }
  rw [← Bool.not_eq_true, MarkCall.run, spill]
  cases excluded c.lists c.range with
  | true => simp
  | false =>
    simp only [Bool.false_eq_true, false_or, true_and, not_exists, not_and, Nat.not_le]
    exact forall_congr' fun b => imp_congr_right fun _ => by omega

/-- The bits of the buffer a call sets. -/
theorem MarkCall.bit_iff (c : MarkCall) {bytes : Bytes} {b : Nat} (inside : b < 8 * bytes.length) :
    readBit b (c.run bytes).bytes
      ↔ readBit b bytes ∨ (excluded c.lists c.range = false ∧ Touches c.range b) := by
  obtain ⟨-, -, bits⟩ := getDataToBitmap_spec c.lists c.range { bytes := bytes }
  have byte : b / 8 < bytes.length := by omega
  rw [MarkCall.run, bits]
  simp only [byte, and_true]

/-- The buffer is as before when the blocks of the loop were set. -/
theorem MarkCall.unchanged_iff (c : MarkCall) (bytes : Bytes) :
    (c.run bytes).bytes = bytes ↔ excluded c.lists c.range
      ∨ ∀ b < 8 * bytes.length, Touches c.range b → readBit b bytes := by
  obtain ⟨length, -, bits⟩ := getDataToBitmap_spec c.lists c.range { bytes := bytes }
  constructor
  · intro same
    cases dropped : excluded c.lists c.range with
    | true => exact Or.inl rfl
    | false =>
      refine Or.inr fun b inside touches => ?_
      rw [← same]
      exact (c.bit_iff inside).mpr (Or.inr ⟨dropped, touches⟩)
  · intro before
    refine bytes_of_bits length fun b => Bool.eq_iff_iff.mpr ((bits b).trans ?_)
    refine or_iff_left_of_imp fun set => ?_
    obtain ⟨notDropped, touches, inside⟩ := set
    rcases before with dropped | all
    · rw [notDropped] at dropped
      cases dropped
    · exact all b (by simp only at inside; omega) touches

/-- A range with sectors is marked rightly when its test is right, or where that does not show. -/
theorem MarkCall.marked_iff {c : MarkCall} (some_ : c.num ≠ 0) (bytes : Bytes) :
    (∀ b < 8 * bytes.length, readBit b (c.run bytes).bytes
        ↔ readBit b bytes ∨ (c.range.Meets BLOCK_SIZE b ∧ ¬ c.LeftOut))
      ↔ c.Plain ∨ ∀ b < 8 * bytes.length, c.range.Meets BLOCK_SIZE b → ¬ readBit b bytes →
          excluded c.lists c.range = false ∧ ¬ c.LeftOut ∧ Touches c.range b := by
  constructor
  · intro marked
    by_cases plain : c.Plain
    · exact Or.inl plain
    refine Or.inr fun b inside meets clear => ?_
    -- A test that passes a range makes the call plain, if the range is left out.
    have bit := (c.bit_iff inside).symm.trans (marked b inside)
    simp only [clear, Bool.false_eq_true, false_or, meets, true_and] at bit
    by_cases leftOut : c.LeftOut
    · have none_ : ¬ (excluded c.lists c.range = false ∧ Touches c.range b) :=
        fun set => bit.mp set leftOut
      have notDropped : excluded c.lists c.range = false := by
        by_contra dropped
        rw [Bool.not_eq_false] at dropped
        exact plain ⟨⟨fun _ => leftOut, fun _ => dropped⟩, Or.inl dropped⟩
      have short : c.range.stop ≤ 2 ^ 64 := by
        by_contra long
        rw [c.excluded_of_leftOut leftOut (by omega)] at notDropped
        cases notDropped
      exact absurd ⟨notDropped, (touches_iff (c.number_pos some_) short).mpr meets⟩ none_
    · obtain ⟨notDropped, touches⟩ := bit.mpr leftOut
      exact ⟨notDropped, leftOut, touches⟩
  · intro right b inside
    rw [c.bit_iff inside]
    by_cases set : readBit b bytes = true
    · simp only [set, true_or]
    simp only [set, Bool.false_eq_true, false_or]
    rcases right with ⟨test, last⟩ | hidden
    · cases dropped : excluded c.lists c.range with
      | true => simp [test.mp dropped]
      | false =>
        rw [dropped] at test last
        have short : c.range.stop ≤ 2 ^ 64 := last.resolve_left Bool.false_ne_true
        have kept : ¬ c.LeftOut := fun leftOut => Bool.false_ne_true (test.mpr leftOut)
        simp only [touches_iff (c.number_pos some_) short, kept, true_and, not_false_eq_true, and_true]
    · constructor
      · rintro ⟨-, touches⟩
        have meets := c.meets_of_touches some_ touches
        exact ⟨meets, (hidden b inside meets set).2.1⟩
      · rintro ⟨meets, -⟩
        obtain ⟨notDropped, -, touches⟩ := hidden b inside meets set
        exact ⟨notDropped, touches⟩

/-- A range without sectors meets no block. -/
theorem MarkCall.not_meets {c : MarkCall} (none_ : c.num = 0) (b : Nat) :
    ¬ c.range.Meets BLOCK_SIZE b :=
  Extent.not_meets_empty (congrArg UInt64.toNat none_)

/--
`GetDataToBitmap` marks what it is to mark exactly under `Right`.

Without sectors the loop may run over a block all the same, or over all that there are.
-/
theorem getDataToBitmap_exact_iff (c : MarkCall) (bytes : Bytes) : c.Exact bytes ↔ c.Right bytes := by
  constructor
  · rintro ⟨inside, marked, unchanged⟩
    have fits := (c.overrun_iff bytes).mp inside
    refine ⟨fits, fun none_ => ?_, fun some_ => (c.marked_iff some_ bytes).mp marked⟩
    rcases fits with dropped | fits
    · exact Or.inl dropped
    · refine ((c.unchanged_iff bytes).mp (unchanged none_)).imp id fun set b touches => ?_
      exact set b (fits b touches) touches
  · rintro ⟨fits, empty, some_⟩
    have same : c.num = 0 → (c.run bytes).bytes = bytes := fun none_ =>
      (c.unchanged_iff bytes).mpr ((empty none_).imp id fun set b _ touches => set b touches)
    refine ⟨(c.overrun_iff bytes).mpr fits, ?_, same⟩
    by_cases none_ : c.num = 0
    · intro b _
      rw [same none_]
      simp only [c.not_meets none_, false_and, or_false]
    · exact (c.marked_iff none_ bytes).mpr (some_ none_)

/-- Without sectors nothing is run over only behind a whole block, and not at the first sector. -/
theorem touches_empty {c : MarkCall} (none_ : c.num = 0) {b : Nat} :
    Touches c.range b ↔ if c.range.start = 0 then b < 2 ^ 58
      else c.range.start % BLOCK_SIZE ≠ 0 ∧ b = c.range.start / BLOCK_SIZE := by
  have zero : c.range.number = 0 := congrArg UInt64.toNat none_
  have start := c.start_lt
  have size : BLOCK_SIZE = 64 := rfl
  rw [Touches, lastSector, zero, Nat.add_zero, u64_eq start, sub64, size]
  split <;> omega

/-- Ten sectors into the first block, a call without sectors sets the bit of the block. -/
theorem getDataToBitmap_marksEmpty : ¬ MarkCall.Exact { sector := 10, num := 0 } [0] := by
  intro exact_
  exact absurd (exact_.unchanged rfl) (by decide)

end Okr
