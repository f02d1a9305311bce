import Okr.File.SegFileRead

/-! `SegFileRead` ends with what it read, unless a long read meets the end of the file. -/

namespace Okr

open Loop (Passes)

variable {F : Type} {io : FirmwareFile F} {f : F} {size : Nat} {content : Bytes}

/-- The bytes read so far and those still to read are the content. -/
def SegReadAt (io : FirmwareFile F) (content : Bytes) (t : Bytes × F) : Prop :=
  t.1 ++ io.remaining t.2 = content

/-- A pass in front of the size reads a piece, and goes on. -/
theorem segReadPass_next (serves : io.Serves) {t : Bytes × F} (place : SegReadAt io content t)
    (more : t.1.length < size) :
    ∃ piece t', 0 < piece ∧ piece ≤ size - t.1.length ∧ segReadPass io size t = .next t'
      ∧ t'.1 = t.1 ++ (io.remaining t.2).take piece ∧ SegReadAt io content t' := by
  have pass : ∀ piece, 0 < piece → piece ≤ size - t.1.length →
      piece = (if size ≤ t.1.length + MY_DEFINE_BUFFER_SIZE then size - t.1.length
        else MY_DEFINE_BUFFER_SIZE) →
      ∃ piece t', 0 < piece ∧ piece ≤ size - t.1.length ∧ segReadPass io size t = .next t'
        ∧ t'.1 = t.1 ++ (io.remaining t.2).take piece ∧ SegReadAt io content t' := by
    intro piece some_ fits eq
    obtain ⟨read, rest⟩ := serves t.2 piece
    refine ⟨piece, (t.1 ++ (io.remaining t.2).take piece, (io.read t.2 piece).2), some_, fits, ?_,
      rfl, ?_⟩
    · rw [segReadPass, if_pos more]
      dsimp only
      rw [← eq]
      generalize io.read t.2 piece = result at read ⊢
      obtain ⟨bytes, f'⟩ := result
      dsimp only at read ⊢
      rw [read]
    · rw [SegReadAt, rest, List.append_assoc, List.take_append_drop]
      exact place
  -- the last piece is the rest, any other one a whole buffer
  by_cases last : size ≤ t.1.length + MY_DEFINE_BUFFER_SIZE
  · exact pass (size - t.1.length) (by omega) (Nat.le_refl _) (if_pos last).symm
  · exact pass MY_DEFINE_BUFFER_SIZE (by decide) (by omega) (if_neg last).symm

/-- The loop reads a size that is there, and ends. -/
theorem segReadPasses_whole (serves : io.Serves) (enough : size ≤ (io.remaining f).length) :
    ∃ n t r, Passes (segReadPass io size) n ([], f) t ∧ segReadPass io size t = .done r
      ∧ r = { ok := true, size := size, buffer := (io.remaining f).take size } := by
  have start : SegReadAt io (io.remaining f) ([], f) := List.nil_append _
  refine @Loop.ends_of_measure _ _ (segReadPass io size) ([], f)
    (fun t => SegReadAt io (io.remaining f) t ∧ t.1.length ≤ size)
    (fun r => r = { ok := true, size := size, buffer := (io.remaining f).take size })
    (fun t => size - t.1.length) ?_ ⟨start, Nat.zero_le _⟩
  rintro t ⟨place, inside⟩
  by_cases more : t.1.length < size
  · -- A piece is not empty, as the content has bytes up to the size.
    obtain ⟨piece, t', some_, fits, next, read, place'⟩ := segReadPass_next serves place more
    have left : (io.remaining f).length = t.1.length + (io.remaining t.2).length := by
      rw [← place, List.length_append]
    have length : t'.1.length = t.1.length + piece := by
      rw [read, List.length_append, List.length_take]
      omega
    exact Or.inr ⟨t', next, ⟨place', by omega⟩, by omega⟩
  · refine Or.inl ⟨_, ?_, rfl⟩
    have whole : t.1.length = size := by omega
    have front : (io.remaining f).take size = t.1 := by
      rw [← place, List.take_append_of_le_length (Nat.le_of_eq whole.symm), ← whole, List.take_length]
    rw [segReadPass, if_neg more, front]

/-- The loop never ends when the file does before the size. -/
theorem segReadPasses_short (serves : io.Serves) (short : (io.remaining f).length < size) :
    ¬ Loop.Ends (segReadPass io size) ([], f) := by
  have start : SegReadAt io (io.remaining f) ([], f) := List.nil_append _
  refine @Loop.not_ends _ _ (segReadPass io size) ([], f) (SegReadAt io (io.remaining f)) ?_ start
  intro t place
  have inside : t.1.length ≤ (io.remaining f).length := by
    rw [← place, List.length_append]
    exact Nat.le_add_right _ _
  have more : t.1.length < size := Nat.lt_of_le_of_lt inside short
  obtain ⟨-, t', -, -, next, -, place'⟩ := segReadPass_next serves place more
  exact ⟨t', next, place'⟩

/-- Over a firmware whose reads succeed, `SegFileRead` reports what it read exactly when it ends. -/
theorem segReadReports_iff (serves : io.Serves) :
    SegReadReports io f size ↔ size < MY_DEFINE_BUFFER_SIZE ∨ size ≤ (io.remaining f).length := by
  by_cases small : size < MY_DEFINE_BUFFER_SIZE
  · have returns : SegReadReturns io f size
        { ok := true
          size := ((io.remaining f).take size).length
          buffer := (io.remaining f).take size } := by
      rw [SegReadReturns, if_pos small, (serves f size).1]
    exact iff_of_true ⟨_, returns, rfl, List.length_take, rfl⟩ (Or.inl small)
  · rw [or_iff_right small]
    constructor
    · rintro ⟨r, returns, -⟩
      rw [SegReadReturns, if_neg small] at returns
      obtain ⟨n, t, passes, last⟩ := returns
      -- A loop that came to an end did not meet the end of the file.
      by_contra short
      exact segReadPasses_short serves (by omega) ⟨n, t, r, passes, last⟩
    · intro enough
      obtain ⟨n, t, r, passes, last, rfl⟩ := @segReadPasses_whole _ io f size serves enough
      have returns : SegReadReturns io f size
          { ok := true, size := size, buffer := (io.remaining f).take size } := by
        rw [SegReadReturns, if_neg small]
        exact ⟨n, t, passes, last⟩
      exact ⟨_, returns, rfl, (Nat.min_eq_left enough).symm, rfl⟩

/--
`SegFileRead` terminates and reports what it read, for every file, position and size, exactly so.

It is the missing end of file that a long read does not survive.
-/
theorem segFileRead_reports_iff (F : Type) (io : FirmwareFile F) (serves : io.Serves) (f : F)
    (size : Nat) :
    SegReadReports io f size ↔ size < MY_DEFINE_BUFFER_SIZE ∨ size ≤ (io.remaining f).length :=
  segReadReports_iff serves

/-- A file in the memory, by what is left of it. -/
def memoryFile : FirmwareFile Bytes where
  read f size := (some (f.take size), f.drop size)
  remaining := id

/-- A file in the memory serves every read. -/
theorem memoryFile_serves : memoryFile.Serves := fun _ _ => ⟨rfl, rfl⟩

/-- A short read of three bytes reports them. -/
theorem segFileRead_reportsShort : SegReadReports memoryFile [1, 2, 3] 8 :=
  (segFileRead_reports_iff Bytes memoryFile memoryFile_serves [1, 2, 3] 8).mpr (Or.inl (by decide))

/-- A read of 20 MiB from a file with a byte left never ends. -/
theorem segFileRead_hangsLong : ¬ SegReadReports memoryFile [1] MY_DEFINE_BUFFER_SIZE := by
  rw [segReadReports_iff memoryFile_serves]
  decide

/-! ### Files on a FAT volume -/

/-- What a caller sees of a result. -/
def SegReadResult.reply (r : SegReadResult) : Reply := if r.ok then .bytes r.buffer else .failed

/-- The loop over a file on a FAT volume is its passes one after the other. -/
theorem segReadLoop_run (fuel : Nat) :
    ∀ (out : Bytes) (f : FatFile), (segReadLoop fuel size out f).1
      = (Loop.run (segReadPass fatFirmware size) fuel (out, f)).elim .hang SegReadResult.reply := by
  induction fuel with
  | zero => exact fun _ _ => rfl
  | succ fuel ih =>
    intro out f
    rw [segReadLoop, Loop.run, segReadPass]
    by_cases more : out.length < size
    · have piece : (if size ≤ out.length + MY_DEFINE_BUFFER_SIZE then size - out.length
          else MY_DEFINE_BUFFER_SIZE) = min MY_DEFINE_BUFFER_SIZE (size - out.length) := by
        split <;> omega
      rw [if_neg (by omega), if_pos more]
      dsimp only [fatFirmware]
      rw [piece]
      generalize efiRead f (min MY_DEFINE_BUFFER_SIZE (size - out.length)) = result
      obtain ⟨bytes, f'⟩ := result
      cases bytes with
      | none => rfl
      | some bytes => exact ih _ _
    · rw [if_pos (by omega), if_neg more]
      rfl

/-- What is answered for a file on a FAT volume is what `SegFileRead` returns there. -/
theorem segFileRead_returns {f : FatFile} (ends : (segFileRead f size).1 ≠ .hang) :
    ∃ r, SegReadReturns fatFirmware f size r ∧ (segFileRead f size).1 = r.reply := by
  rw [segFileRead] at ends ⊢
  by_cases small : size < MY_DEFINE_BUFFER_SIZE
  · simp only [SegReadReturns, if_pos small, exists_eq_left]
    dsimp only [fatFirmware]
    generalize efiRead f size = result
    obtain ⟨bytes, f'⟩ := result
    cases bytes <;> rfl
  · rw [if_neg small, segReadLoop_run] at ends ⊢
    cases run : Loop.run (segReadPass fatFirmware size) (size + 1) ([], f) with
    | none =>
      rw [run] at ends
      exact absurd rfl ends
    | some r =>
      obtain ⟨n, t, -, passes, last⟩ := Loop.run_some run
      refine ⟨r, ?_, rfl⟩
      rw [SegReadReturns, if_neg small]
      exact ⟨n, t, passes, last⟩

end Okr
