import Okr.Backup.BufferArray

/-! When the buffers of `Init_BufferArray` are laid out well in the memory they are given. -/

namespace Okr

/-! ### The loop takes the first try there is memory for -/

section
variable {g : BufferSetup} {allocatePool : PoolAnswers} {u : BufferTry} {buffer : Nat}

/-- The first try that is served, among those from a pass of the loop on. -/
def FirstServed (g : BufferSetup) (allocatePool : PoolAnswers) (i : Nat) (tries : List BufferTry)
    (u : BufferTry) (buffer : Nat) : Prop :=
  ∃ k, tries[k]? = some u ∧ g.answer allocatePool (i + k) u = some buffer
    ∧ ∀ j < k, ∀ earlier ∈ tries[j]?, g.answer allocatePool (i + j) earlier = none

/-- Without tries, none is served. -/
theorem not_firstServed_nil {i : Nat} : ¬ FirstServed g allocatePool i [] u buffer := by
  rintro ⟨k, found, -⟩
  cases found

/-- It is the first try, or that one is not served and it is the first of the others. -/
theorem firstServed_cons {i : Nat} {t : BufferTry} {rest : List BufferTry} :
    FirstServed g allocatePool i (t :: rest) u buffer
      ↔ (t = u ∧ g.answer allocatePool i t = some buffer)
        ∨ (g.answer allocatePool i t = none ∧ FirstServed g allocatePool (i + 1) rest u buffer) := by
  constructor
  · rintro ⟨k, found, served, before⟩
    -- The number of passes in front is zero for the first try, and one less for the others.
    cases k with
    | zero =>
      cases found
      exact .inl ⟨rfl, served⟩
    | succ k =>
      refine .inr ⟨before 0 (Nat.succ_pos k) t rfl, k, found, ?_, fun j below earlier member => ?_⟩
      · rw [Nat.add_right_comm]
        exact served
      · rw [Nat.add_right_comm]
        exact before (j + 1) (Nat.succ_lt_succ below) earlier member
  · rintro (⟨rfl, served⟩ | ⟨unserved, k, found, served, before⟩)
    · exact ⟨0, rfl, served, fun j below => absurd below (Nat.not_lt_zero j)⟩
    · rw [Nat.add_right_comm] at served
      refine ⟨k + 1, found, served, fun j below earlier member => ?_⟩
      cases j with
      | zero =>
        cases member
        exact unserved
      | succ j =>
        have later := before j (Nat.lt_of_succ_lt_succ below) earlier member
        rwa [Nat.add_right_comm] at later

/-- The loop finds the first of its tries that is served. -/
theorem allocLoop_served (passes : Nat) : ∀ (i : Nat) (t : BufferTry),
    g.allocLoop allocatePool passes i t = some (u, buffer)
      ↔ FirstServed g allocatePool i (BufferTry.tries g.recover passes t) u buffer := by
  induction passes with
  | zero =>
    intro i t
    simp [BufferSetup.allocLoop, BufferTry.tries, not_firstServed_nil]
  | succ passes ih =>
    intro i t
    rw [BufferSetup.allocLoop, BufferTry.tries, firstServed_cons]
    cases answer : g.answer allocatePool i t with
    | some given => simp
    | none =>
      cases t.next g.recover with
      | none => simp [not_firstServed_nil]
      | some t' => simp [ih (i + 1) t']

end

/-! ### What holds of every try -/

/-- What holds of the first try and stays: four, two or one buffers of a size that has 32 bits. -/
structure BufferTry.Sound (recover : Bool) (t : BufferTry) : Prop where
  number : t.number = 1 ∨ t.number = 2 ∨ t.number = 4
  size : t.size < 2 ^ 32
  backup : recover = false → MIN_COMPRESS_BLOCK_SIZE ≤ t.size ∧ t.size % 32768 = 0
    ∧ t.number * t.size ≤ 2 * MAX_COMPRESS_BLOCK_SIZE

/-- The first try is sound. -/
theorem firstTry_sound (g : BufferSetup) : g.firstTry.Sound g.recover := by
  have image := g.compressBlockSize.toNat_lt
  have sizes : MAX_COMPRESS_BLOCK_SIZE = 500 * 1024 * 1024 ∧ MIN_COMPRESS_BLOCK_SIZE = 100 * 1024 * 1024 :=
    ⟨rfl, rfl⟩
  unfold BufferSetup.firstTry
  constructor
  · cases g.recover <;> cases g.bMultiThread <;> cases g.bAsyncIO <;> simp
  · cases g.recover with
    | true => exact image
    | false =>
      simp only [Bool.false_eq_true, if_false]
      split_ifs <;> dsimp only <;> omega
  · intro backup
    simp only [backup, Bool.false_eq_true, if_false]
    split_ifs <;> dsimp only <;> omega

/-- A try that follows a sound one is sound. -/
theorem BufferTry.Sound.next {recover : Bool} {t u : BufferTry} (sound : t.Sound recover)
    (next : t.next recover = some u) : u.Sound recover := by
  have number := sound.number
  have size := sound.size
  have least : MIN_COMPRESS_BLOCK_SIZE = 100 * 1024 * 1024 := rfl
  cases recover with
  | true =>
    simp only [BufferTry.next, if_true, Option.ite_none_left_eq_some, Option.some_inj] at next
    obtain ⟨some_, rfl⟩ := next
    exact ⟨by dsimp only; omega, size, fun other => nomatch other⟩
  | false =>
    obtain ⟨above, whole, all⟩ := sound.backup rfl
    simp only [BufferTry.next, Bool.false_eq_true, if_false, Option.ite_none_left_eq_some,
      Option.some_inj] at next
    obtain ⟨large, rfl⟩ := next
    rw [sub32_eq above size] at large ⊢
    refine ⟨number, by dsimp only; omega, fun _ => ⟨by dsimp only; omega, by dsimp only; omega, ?_⟩⟩
    exact Nat.le_trans (Nat.mul_le_mul_left _ (Nat.sub_le _ _)) all

/-- All tries are sound. -/
theorem tries_sound {recover : Bool} (passes : Nat) : ∀ {t u : BufferTry}, t.Sound recover →
    u ∈ BufferTry.tries recover passes t → u.Sound recover := by
  induction passes with
  | zero =>
    intro t u _ member
    cases member
  | succ passes ih =>
    intro t u sound member
    rw [BufferTry.tries] at member
    rcases List.mem_cons.mp member with same | later
    · rw [same]
      exact sound
    · cases next : t.next recover with
      | none =>
        rw [next] at later
        cases later
      | some t' =>
        rw [next] at later
        exact ih (sound.next next) later

/-! ### The places of the buffers -/

/-- The buffers of a try, by their places. -/
theorem mem_buffers {t : BufferTry} {buffer : Nat} {b : BufferPlace} :
    b ∈ t.buffers buffer ↔ ∃ i < t.number, b = { pointer := buffer + t.place i, totalsize := t.size } := by
  simp only [BufferTry.buffers, List.mem_map, List.mem_range]
  exact exists_congr fun i => and_congr_right fun _ => eq_comm

/-- Buffers that fit follow each other with a page between them. -/
theorem BufferTry.Fits.place {t : BufferTry} (fits : t.Fits) {i : Nat} (inside : i < t.number) :
    t.place i = (t.size + ALGIN_SIZE_BYTE) * i := by
  have all : t.size * i < 2 ^ 32 := by
    calc t.size * i ≤ t.size * t.number := Nat.mul_le_mul_left _ (Nat.le_of_lt inside)
      _ ≤ t.number * (t.size + ALGIN_SIZE_BYTE) := by
        rw [Nat.mul_comm t.size]
        exact Nat.mul_le_mul_left _ (Nat.le_add_right _ _)
      _ < 2 ^ 32 := fits.2
  rw [BufferTry.place, u32_eq all, Nat.add_mul]

/-- A buffer that fits ends in front of the place of each later one, and of the end of them all. -/
theorem BufferTry.Fits.stop_le {t : BufferTry} (fits : t.Fits) {i j : Nat} (less : i < j)
    (inside : j ≤ t.number) : t.place i + t.size ≤ (t.size + ALGIN_SIZE_BYTE) * j := by
  rw [fits.place (Nat.lt_of_lt_of_le less inside)]
  calc (t.size + ALGIN_SIZE_BYTE) * i + t.size
      ≤ (t.size + ALGIN_SIZE_BYTE) * (i + 1) := by rw [Nat.mul_succ]; omega
    _ ≤ (t.size + ALGIN_SIZE_BYTE) * j := Nat.mul_le_mul_left _ less

/-- The length that is asked for is that of all buffers that fit. -/
theorem BufferTry.Fits.length {t : BufferTry} (fits : t.Fits) :
    (t.size + ALGIN_SIZE_BYTE) * t.number ≤ myallocLength t.length := by
  have all : t.size * t.number + t.number * ALGIN_SIZE_BYTE = t.number * (t.size + ALGIN_SIZE_BYTE) := by
    ring
  rw [BufferTry.length, all, u32_eq fits.2, Nat.mul_comm, myallocLength]
  split <;> omega

/-- Buffers whose lengths together do not fit 32 bits leave the memory they are given. -/
theorem BufferTry.Sound.fits_of_inside {recover : Bool} {t : BufferTry} (sound : t.Sound recover)
    (inside : ∀ i < t.number, t.place i + t.size ≤ myallocLength t.length) :
    t.number * (t.size + ALGIN_SIZE_BYTE) < 2 ^ 32 := by
  have size := sound.size
  have page : ALGIN_SIZE_BYTE = 4096 := rfl
  simp only [BufferTry.place, BufferTry.length, myallocLength, u32, page] at inside ⊢
  rcases sound.number with one | two | four
  · have first := inside 0 (by omega)
    rw [one] at first ⊢
    split at first <;> omega
  · have second := inside 1 (by omega)
    rw [two] at second ⊢
    split at second <;> omega
  · -- The second buffer bounds the size by half the width, and the third one leaves then.
    have second := inside 1 (by omega)
    have third := inside 2 (by omega)
    rw [four] at second third ⊢
    split at second <;> split at third <;> omega

/-! ### The buffers that are left -/

/-- What `Init_BufferArray` makes of a try that is served. -/
theorem initBufferArray_eq {g : BufferSetup} {allocatePool : PoolAnswers} {a : BufferArray} :
    initBufferArray g allocatePool = some a
      ↔ ∃ t buffer, g.Served allocatePool t buffer ∧ a =
          { buffers := t.buffers buffer
            memory := { pointer := buffer, totalsize := myallocLength t.length }
            compressBlockSize := t.size
            bMultiThread := if t.number = 1 then false else g.bMultiThread } := by
  rw [initBufferArray, Option.map_eq_some_iff, Prod.exists]
  refine exists_congr fun t => exists_congr fun buffer => ?_
  rw [allocLoop_served, FirstServed, BufferSetup.Served]
  simp only [Nat.zero_add, eq_comm]

/-- A try that is served is sound. -/
theorem BufferSetup.Served.sound {g : BufferSetup} {allocatePool : PoolAnswers} {t : BufferTry}
    {buffer : Nat} (served : g.Served allocatePool t buffer) : t.Sound g.recover := by
  obtain ⟨i, found, -, -⟩ := served
  exact tries_sound 256 (firstTry_sound g) (List.mem_of_getElem? found)

/-- Sound buffers are laid out well exactly from a whole page on, if they fit. -/
theorem BufferTry.Sound.wellLaid_iff {recover : Bool} {t : BufferTry} (sound : t.Sound recover)
    (buffer : Nat) (bMultiThread : Bool) :
    BufferArray.WellLaid
        { buffers := t.buffers buffer
          memory := { pointer := buffer, totalsize := myallocLength t.length }
          compressBlockSize := t.size
          bMultiThread := bMultiThread } recover
      ↔ buffer % 4096 = 0 ∧ t.Fits := by
  have page : ALGIN_SIZE_BYTE = 4096 := rfl
  have number := sound.number
  constructor
  · rintro ⟨-, aligned, -, inside, -⟩
    -- The first buffer is where the memory is.
    have first := aligned _ (mem_buffers.mpr ⟨0, by omega, rfl⟩)
    simp only [BufferTry.place, u32, Nat.mul_zero, Nat.zero_mod, Nat.add_zero] at first
    refine ⟨first, ?_, ?_⟩
    · by_cases one : t.number = 1
      · exact Or.inl one
      · -- The second buffer is as far from a page as the size is.
        have second := aligned _ (mem_buffers.mpr ⟨1, by omega, rfl⟩)
        simp only [BufferTry.place, Nat.mul_one, u32_eq sound.size, page] at second
        exact Or.inr (by omega)
    · refine sound.fits_of_inside fun i below => ?_
      have within := (inside _ (mem_buffers.mpr ⟨i, below, rfl⟩)).2
      dsimp only at within
      omega
  · rintro ⟨first, fits⟩
    constructor
    · rw [BufferTry.buffers, List.pairwise_map]
      refine List.Pairwise.imp_of_mem (fun inI inJ less => ?_) List.pairwise_lt_range
      have below := List.mem_range.mp inJ
      have stop := fits.stop_le less (Nat.le_of_lt below)
      rw [← fits.place below] at stop
      exact Or.inl (by dsimp only; omega)
    · intro b member
      obtain ⟨i, below, rfl⟩ := mem_buffers.mp member
      dsimp only
      rw [fits.place below, page]
      rcases fits.1 with one | whole
      · have zero : i = 0 := by omega
        rw [zero, Nat.mul_zero]
        exact first
      · obtain ⟨k, size⟩ := Nat.dvd_of_mod_eq_zero whole
        have pages : (t.size + 4096) * i = 4096 * ((k + 1) * i) := by
          rw [size]
          ring
        rw [pages]
        omega
    · intro b member
      obtain ⟨i, below, rfl⟩ := mem_buffers.mp member
      exact Nat.le_refl _
    · intro b member
      obtain ⟨i, below, rfl⟩ := mem_buffers.mp member
      have stop := fits.stop_le below (Nat.le_refl _)
      have length := fits.length
      constructor <;> dsimp only <;> omega
    · intro backup
      obtain ⟨above, whole, -⟩ := sound.backup backup
      have least : MIN_COMPRESS_BLOCK_SIZE = 100 * 1024 * 1024 := rfl
      exact ⟨by dsimp only; omega, whole⟩

/-- The buffers of a backup fit. -/
theorem BufferTry.Sound.fits {t : BufferTry} (sound : t.Sound false) : t.Fits := by
  obtain ⟨-, whole, all⟩ := sound.backup rfl
  have number := sound.number
  have most : MAX_COMPRESS_BLOCK_SIZE = 500 * 1024 * 1024 := rfl
  have page : ALGIN_SIZE_BYTE = 4096 := rfl
  refine ⟨Or.inr (by omega), ?_⟩
  rw [Nat.mul_add, page]
  omega

/--
The buffers are laid out well when the memory begins at a page, and in a restore when they fit.

The source leaves room for a page in front of each buffer, but aligns none.
-/
theorem initBufferArray_wellLaid_iff (g : BufferSetup) (allocatePool : PoolAnswers) :
    (∀ a, initBufferArray g allocatePool = some a → a.WellLaid g.recover)
      ↔ ∀ t buffer, g.Served allocatePool t buffer → buffer % 4096 = 0 ∧ (g.recover = true → t.Fits) := by
  have fits : ∀ {t buffer}, g.Served allocatePool t buffer →
      (buffer % 4096 = 0 ∧ t.Fits ↔ buffer % 4096 = 0 ∧ (g.recover = true → t.Fits)) := by
    intro t buffer served
    refine and_congr_right fun _ => ⟨fun fits _ => fits, fun restored => ?_⟩
    by_cases restore : g.recover = true
    · exact restored restore
    · have sound := served.sound
      rw [Bool.not_eq_true] at restore
      rw [restore] at sound
      exact sound.fits
  constructor
  · intro laid t buffer served
    have result := laid _ (initBufferArray_eq.mpr ⟨t, buffer, served, rfl⟩)
    exact (fits served).mp ((served.sound.wellLaid_iff buffer _).mp result)
  · intro right a made
    obtain ⟨t, buffer, served, rfl⟩ := initBufferArray_eq.mp made
    exact (served.sound.wellLaid_iff buffer _).mpr ((fits served).mpr (right t buffer served))

/-- A unit of almost 4 GiB in an image: the length asked for wraps around to a single page. -/
theorem initBufferArray_leavesMemory :
    ¬ ∀ a, initBufferArray { recover := true, compressBlockSize := 0xfffff000 }
        (fun _ _ => some 0x100000) = some a → a.WellLaid true := by
  intro laid
  have inside := (laid _ rfl).inside _ List.mem_cons_self
  exact absurd inside.2 (by decide)

end Okr
