import Okr.Lib.Loop
import Okr.Proofs.WholeDigest

/-! A read that fails while an image is hashed is never reported: the hashing ends with success. -/

namespace Okr

open Loop (Pass Passes)

variable {c : CheckHash} {breaks : Nat → Bool} {check : Bool} {filesize limit fuel : Nat}
variable {file : OpenFile} {ctx bytes : Bytes} {s : HashState}

/-- What the hashing loops return, when they do: a read that never ends returns nothing. -/
abbrev HashResult := Option (Bool × HashState)

/-! ### The two loops by their passes -/

/-- A pass of the loop of `_CalFileSHA256Value`. -/
def wholePass (c : CheckHash) (breaks : Nat → Bool) (filesize : Nat) (check : Bool)
    (t : Nat × HashState) : Pass (Nat × HashState) HashResult :=
  if breaks t.1 then .done (some (false, t.2))
  else
    match t.2.file.read (nextHashSize filesize t.2.llReadSize check) with
    | (.failed, file) => .done (some (true, { t.2 with file := file }))
    | (.bytes bytes, file) =>
      let s := passOver c filesize t.2 file bytes
      if bytes.length = hashChunk ∧ s.llReadSize < filesize then .next (t.1 + 1, s)
      else .done (some (true, s))
    | _ => .done none

/-- Where the sampling goes on after the bytes of a read, or nowhere after the last part. -/
def sampleNext (filesize limit : Nat) (check : Bool) (s : HashState) : Option HashState :=
  if s.llSectorDataReadSize ≥ limit then
    (nextSample filesize limit (s.iSegIndex + 1) check).map fun pos =>
      { s with
        iSegIndex := s.iSegIndex + 1
        llReadSize := pos
        llSectorDataReadSize := 0
        file := s.file.setPos pos }
  else some { s with file := s.file.setPos s.llReadSize }

/-- A pass of the loop of `_CalculateFileSHA256ValueBySegData`. -/
def samplePass (c : CheckHash) (breaks : Nat → Bool) (filesize limit : Nat) (check : Bool)
    (t : Nat × HashState) : Pass (Nat × HashState) HashResult :=
  if breaks t.1 then .done (some (false, t.2))
  else
    match t.2.file.read hashChunk with
    | (.failed, file) => .done (some (true, { t.2 with file := file }))
    | (.bytes bytes, file) =>
      let s := absorbSampled c { t.2 with file := file } bytes
      match sampleNext filesize limit check s with
      | none => .done (some (true, s.closeGroup c))
      | some s =>
        if bytes.length = hashChunk ∧ s.llReadSize < filesize then .next (t.1 + 1, s)
        else .done (some (true, s))
    | _ => .done none

/-- The whole-file loop is its passes one after the other. -/
theorem calFileLoop_run (fuel : Nat) :
    ∀ (i : Nat) (s : HashState), calFileLoop c breaks filesize check fuel i s
      = (Loop.run (wholePass c breaks filesize check) fuel (i, s)).join := by
  induction fuel with
  | zero => exact fun _ _ => rfl
  | succ fuel ih =>
    intro i s
    rw [calFileLoop, Loop.run, wholePass]
    dsimp only
    split
    · rfl
    · generalize s.file.read (nextHashSize filesize s.llReadSize check) = result
      obtain ⟨reply, file⟩ := result
      cases reply with
      | bytes bytes =>
        dsimp only
        by_cases more : bytes.length = hashChunk
            ∧ (passOver c filesize s file bytes).llReadSize < filesize
        · rw [if_pos more]
          exact (if_pos more).trans (ih _ _)
        · rw [if_neg more]
          exact if_neg more
      | _ => rfl

/-- The sampling loop is its passes one after the other. -/
theorem segDataLoop_run (fuel : Nat) :
    ∀ (i : Nat) (s : HashState), segDataLoop c breaks filesize limit check fuel i s
      = (Loop.run (samplePass c breaks filesize limit check) fuel (i, s)).join := by
  induction fuel with
  | zero => exact fun _ _ => rfl
  | succ fuel ih =>
    intro i s
    rw [segDataLoop, Loop.run, samplePass]
    dsimp only
    split
    · rfl
    · generalize s.file.read hashChunk = result
      obtain ⟨reply, file⟩ := result
      cases reply with
      | bytes bytes =>
        dsimp only
        by_cases full : (absorbSampled c { s with file := file } bytes).llSectorDataReadSize ≥ limit
        · -- A part is done: the next one starts, or it was the last.
          rw [if_pos full, sampleNext, if_pos full]
          cases nextSample filesize limit
            ((absorbSampled c { s with file := file } bytes).iSegIndex + 1) check with
          | none => rfl
          | some pos =>
            dsimp only [Option.map_some]
            split
            · exact ih _ _
            · rfl
        · rw [if_neg full, sampleNext, if_neg full]
          dsimp only
          split
          · exact ih _ _
          · rfl
      | _ => rfl

/-! ### How many passes there are -/

/-- The whole-file loop takes fewer passes than the file has bytes, and one more. -/
theorem wholePass_count {n : Nat} {t : Nat × HashState}
    (passes : Passes (wholePass c breaks filesize check) n (0, { file := file, ctx := ctx }) t) :
    n < filesize + 1 := by
  have counted : t.2.llReadSize = (0 + n) * hashChunk ∧ (0 + n = 0 ∨ t.2.llReadSize < filesize) := by
    refine @Loop.Passes.keeps _ _ _ _ _ _ (fun k t => t.2.llReadSize = k * hashChunk
      ∧ (k = 0 ∨ t.2.llReadSize < filesize)) ?_ passes 0 ⟨(Nat.zero_mul _).symm, Or.inl rfl⟩
    intro k t t' inv next
    rw [wholePass] at next
    split at next
    · cases next
    · generalize t.2.file.read (nextHashSize filesize t.2.llReadSize check) = result at next
      obtain ⟨reply, file⟩ := result
      cases reply with
      | bytes bytes =>
        dsimp only at next
        split at next
        · next goes =>
          cases next
          refine ⟨?_, Or.inr goes.2⟩
          rw [passOver_read, inv.1, goes.1, Nat.succ_mul]
        · cases next
      | _ => cases next
  rw [hashChunk] at counted
  omega

/-- The next part, if there is one, is one of the eighteen. -/
theorem nextSample_some {iSegIndex pos : Nat}
    (found : nextSample filesize limit iSegIndex check = some pos) :
    iSegIndex ≤ FILE_SHA256_SEG_NUMBER := by
  rw [nextSample] at found
  split at found
  · omega
  · split at found
    · omega
    · cases found

/-- A sampled read of a whole chunk counts it in its part. -/
theorem absorbSampled_chunk (chunk : bytes.length = hashChunk) :
    (absorbSampled c s bytes).llSectorDataReadSize = s.llSectorDataReadSize + hashChunk
      ∧ (absorbSampled c s bytes).iSegIndex = s.iSegIndex := by
  have some_ : bytes ≠ [] := List.ne_nil_of_length_pos (by rw [chunk]; decide)
  rw [absorbSampled, if_neg some_]
  dsimp only
  rw [chunk]
  split <;> exact ⟨rfl, rfl⟩

/-- The chunks of the parts that are done, and of the one that is being read. -/
structure SampledParts (limit k : Nat) (s : HashState) : Prop where
  counted : k * hashChunk = s.iSegIndex * limit + s.llSectorDataReadSize
  open_ : s.llSectorDataReadSize < limit
  parts : s.iSegIndex ≤ FILE_SHA256_SEG_NUMBER
  whole : s.llSectorDataReadSize % hashChunk = 0

/-- A chunk more in its part, or in the next one. -/
theorem SampledParts.next {k : Nat} {s' : HashState} (multiple : limit % hashChunk = 0)
    (positive : 0 < limit) (parts : SampledParts limit k s) (chunk : bytes.length = hashChunk)
    (goes : sampleNext filesize limit check (absorbSampled c { s with file := file } bytes) = some s') :
    SampledParts limit (k + 1) s' := by
  obtain ⟨counted, open_, inside, whole⟩ := parts
  obtain ⟨read, index⟩ := @absorbSampled_chunk c bytes { s with file := file } chunk
  generalize absorbSampled c { s with file := file } bytes = t at read index goes
  dsimp only at read index
  rw [sampleNext, read, index] at goes
  split at goes
  · next full =>
    obtain ⟨pos, found, rfl⟩ := Option.map_eq_some_iff.mp goes
    refine ⟨?_, positive, nextSample_some found, rfl⟩
    -- The part is full to the byte, as it is a whole number of chunks.
    have filled : s.llSectorDataReadSize + hashChunk = limit := by
      simp only [hashChunk] at full multiple whole ⊢
      omega
    dsimp only
    rw [Nat.succ_mul, Nat.succ_mul, counted, Nat.add_assoc, filled, Nat.add_zero]
  · next room =>
    cases goes
    refine ⟨?_, ?_, inside, ?_⟩
    · dsimp only
      rw [Nat.succ_mul, counted, Nat.add_assoc]
    · dsimp only
      omega
    · dsimp only
      rw [Nat.add_mod_right]
      exact whole

/-- The bytes read of a part of a file. -/
def sampleLimit (fileNumber : Nat) : Nat :=
  if fileNumber > 1 then MULTI_FILE_PER_SECTOR_DATA else FILE_PER_SECTOR_DATA

/-- A part is a whole number of chunks, and at most 10 MiB. -/
theorem sampleLimit_spec (fileNumber : Nat) :
    sampleLimit fileNumber % hashChunk = 0 ∧ 0 < sampleLimit fileNumber
      ∧ sampleLimit fileNumber ≤ FILE_PER_SECTOR_DATA := by
  rw [sampleLimit]
  split
  · decide
  · decide

/-- The sampling loop takes fewer passes than the parts have chunks, and one more. -/
theorem samplePass_count {n fileNumber : Nat} {t : Nat × HashState}
    (passes : Passes (samplePass c breaks filesize (sampleLimit fileNumber) check) n
      (0, { file := file, ctx := ctx }) t) : n < samplePasses := by
  obtain ⟨multiple, positive, most⟩ := sampleLimit_spec fileNumber
  have start : SampledParts (sampleLimit fileNumber) 0 { file := file, ctx := ctx } :=
    ⟨by rw [Nat.zero_mul, Nat.zero_mul]; rfl, positive, Nat.zero_le _, rfl⟩
  -- Every pass but the last one takes a whole chunk of a part.
  have parts : SampledParts (sampleLimit fileNumber) (0 + n) t.2 := by
    refine @Loop.Passes.keeps _ _ _ _ _ _
      (fun k t => SampledParts (sampleLimit fileNumber) k t.2) ?_ passes 0 start
    intro k t t' inv next
    rw [samplePass] at next
    split at next
    · cases next
    · generalize t.2.file.read hashChunk = result at next
      obtain ⟨reply, file⟩ := result
      cases reply with
      | bytes bytes =>
        dsimp only at next
        cases goes : sampleNext filesize (sampleLimit fileNumber) check
            (absorbSampled c { t.2 with file := file } bytes) with
        | none =>
          rw [goes] at next
          cases next
        | some s' =>
          rw [goes] at next
          dsimp only at next
          split at next
          · next more =>
            cases next
            exact inv.next multiple positive more.1 goes
          · cases next
      | _ => cases next
  obtain ⟨counted, open_, inside, -⟩ := parts
  have bound : t.2.iSegIndex * sampleLimit fileNumber ≤ FILE_SHA256_SEG_NUMBER * FILE_PER_SECTOR_DATA :=
    Nat.mul_le_mul inside most
  simp only [FILE_SHA256_SEG_NUMBER, FILE_PER_SECTOR_DATA, hashChunk] at counted bound most
  simp only [samplePasses, FILE_SHA256_SEG_NUMBER, FILE_PER_SECTOR_DATA, hashChunk]
  omega

/-! ### What a failed read leads to -/

/-- The loop comes to a read that fails: nobody breaks, and the read of the pass is answered so. -/
def WholeReadFails (c : CheckHash) (breaks : Nat → Bool) (check : Bool) (file : OpenFile)
    (ctx : Bytes) : Prop :=
  ∃ n t, Passes (wholePass c breaks file.getSize check) n (0, { file := file.setPos 0, ctx := ctx }) t
    ∧ breaks t.1 = false
    ∧ (t.2.file.read (nextHashSize file.getSize t.2.llReadSize check)).1 = .failed

/-- The sampling loop comes to a read that fails. -/
def SampleReadFails (c : CheckHash) (breaks : Nat → Bool) (check : Bool) (fileNumber : Nat)
    (file : OpenFile) (ctx : Bytes) : Prop :=
  ∃ n t, Passes (samplePass c breaks file.getSize (sampleLimit fileNumber) check) n
      (0, { file := file.setPos 0, ctx := ctx }) t
    ∧ breaks t.1 = false ∧ (t.2.file.read hashChunk).1 = .failed

/-- A failed read ends the whole-file loop with success. -/
theorem calFileSHA256Value_failed (failed : WholeReadFails c breaks check file ctx) :
    ∃ s, calFileSHA256Value c breaks check file ctx = some (true, s) := by
  obtain ⟨n, t, passes, quiet, failed⟩ := failed
  have last : wholePass c breaks file.getSize check t
      = .done (some (true, { t.2 with
          file := (t.2.file.read (nextHashSize file.getSize t.2.llReadSize check)).2 })) := by
    rw [wholePass, quiet, if_neg Bool.false_ne_true]
    generalize t.2.file.read (nextHashSize file.getSize t.2.llReadSize check) = result at failed
    obtain ⟨reply, after⟩ := result
    dsimp only at failed ⊢
    rw [failed]
  have whole : calFileSHA256Value c breaks check file ctx
      = (Loop.run (wholePass c breaks file.getSize check) (file.getSize + 1)
          (0, { file := file.setPos 0, ctx := ctx })).join := by
    rw [calFileSHA256Value, calFileLoop_run]
  exact ⟨_, whole.trans (congrArg Option.join (Loop.run_done passes last (wholePass_count passes)))⟩

/-- A failed read ends the sampling loop with success. -/
theorem calFileSHA256ValueBySegData_failed {fileNumber : Nat}
    (failed : SampleReadFails c breaks check fileNumber file ctx) :
    ∃ s, calFileSHA256ValueBySegData c breaks check fileNumber file ctx = some (true, s) := by
  obtain ⟨n, t, passes, quiet, failed⟩ := failed
  have last : samplePass c breaks file.getSize (sampleLimit fileNumber) check t
      = .done (some (true, { t.2 with file := (t.2.file.read hashChunk).2 })) := by
    rw [samplePass, quiet, if_neg Bool.false_ne_true]
    generalize t.2.file.read hashChunk = result at failed
    obtain ⟨reply, after⟩ := result
    dsimp only at failed ⊢
    rw [failed]
  have whole : calFileSHA256ValueBySegData c breaks check fileNumber file ctx
      = (Loop.run (samplePass c breaks file.getSize (sampleLimit fileNumber) check) samplePasses
          (0, { file := file.setPos 0, ctx := ctx })).join := by
    rw [← segDataLoop_run, calFileSHA256ValueBySegData, sampleLimit]
  exact ⟨_, whole.trans (congrArg Option.join (Loop.run_done passes last (samplePass_count passes)))⟩

/-- A read fails while a file is hashed. -/
def HashReadFails (c : CheckHash) (breaks : Nat → Bool) (check : Bool) (fileNumber : Nat)
    (file : OpenFile) (ctx : Bytes) : Prop :=
  if file.getSize > largeFile then SampleReadFails c breaks check fileNumber file ctx
  else WholeReadFails c breaks check file ctx

/-- A failed read ends the hashing of a file with success. -/
theorem hashFile_failed {fileNumber : Nat}
    (failed : HashReadFails c breaks check fileNumber file ctx) :
    ∃ s, hashFile c breaks check fileNumber file ctx = some (true, s) := by
  rw [HashReadFails] at failed
  rw [hashFile]
  split
  · next large =>
    rw [if_pos large] at failed
    exact calFileSHA256ValueBySegData_failed failed
  · next small =>
    rw [if_neg small] at failed
    exact calFileSHA256Value_failed failed

/-! ### What is reported -/

/-- A user breaks while a file is hashed. -/
def HashBreaks (c : CheckHash) (breaks : Nat → Bool) (check : Bool) (fileNumber : Nat)
    (file : OpenFile) (ctx : Bytes) : Prop :=
  let start : Nat × HashState := (0, { file := file.setPos 0, ctx := ctx })
  if file.getSize > largeFile then
    ∃ n t, Passes (samplePass c breaks file.getSize (sampleLimit fileNumber) check) n start t
      ∧ breaks t.1 = true
  else ∃ n t, Passes (wholePass c breaks file.getSize check) n start t ∧ breaks t.1 = true

/-- Only a user's break makes a pass over a whole file the last one with a failure. -/
theorem wholePass_false {t : Nat × HashState} :
    (∃ s, wholePass c breaks filesize check t = .done (some (false, s))) ↔ breaks t.1 = true := by
  rw [wholePass]
  cases quiet : breaks t.1 with
  | true => exact ⟨fun _ => rfl, fun _ => ⟨t.2, rfl⟩⟩
  | false =>
    refine iff_of_false ?_ Bool.false_ne_true
    rintro ⟨s, last⟩
    rw [if_neg Bool.false_ne_true] at last
    generalize t.2.file.read (nextHashSize filesize t.2.llReadSize check) = result at last
    obtain ⟨reply, file⟩ := result
    cases reply with
    | bytes bytes =>
      dsimp only at last
      split at last
      · cases last
      · cases last
    | _ => cases last

/-- Only a user's break makes a sampling pass the last one with a failure. -/
theorem samplePass_false {t : Nat × HashState} :
    (∃ s, samplePass c breaks filesize limit check t = .done (some (false, s)))
      ↔ breaks t.1 = true := by
  rw [samplePass]
  -- Nothing but a read that breaks ends a pass without success.
  cases quiet : breaks t.1 with
  | true => exact ⟨fun _ => rfl, fun _ => ⟨t.2, rfl⟩⟩
  | false =>
    refine iff_of_false ?_ Bool.false_ne_true
    rintro ⟨s, last⟩
    rw [if_neg Bool.false_ne_true] at last
    generalize t.2.file.read hashChunk = result at last
    obtain ⟨reply, file⟩ := result
    cases reply with
    | bytes bytes =>
      dsimp only at last
      cases goes : sampleNext filesize limit check (absorbSampled c { t.2 with file := file } bytes) with
      | none =>
        rw [goes] at last
        cases last
      | some s' =>
        rw [goes] at last
        dsimp only at last
        split at last
        · cases last
        · cases last
    | _ => cases last

/-- A loop reports a failure exactly when it comes to a pass that does. -/
theorem run_false {pass : Nat × HashState → Pass (Nat × HashState) HashResult}
    {start : Nat × HashState} (count : ∀ n t, Passes pass n start t → n < fuel) :
    (∃ s, (Loop.run pass fuel start).join = some (false, s)) ↔
      ∃ n t, Passes pass n start t ∧ ∃ s, pass t = .done (some (false, s)) := by
  constructor
  · rintro ⟨s, result⟩
    obtain ⟨n, t, -, passes, last⟩ := Loop.run_some (Option.join_eq_some_iff.mp result)
    exact ⟨n, t, passes, s, last⟩
  · rintro ⟨n, t, passes, s, last⟩
    exact ⟨s, congrArg Option.join (Loop.run_done passes last (count n t passes))⟩

/-- Hashing a file reports a failure exactly when a user breaks. -/
theorem hashFile_false {fileNumber : Nat} :
    (∃ s, hashFile c breaks check fileNumber file ctx = some (false, s)) ↔
      HashBreaks c breaks check fileNumber file ctx := by
  rw [HashBreaks, hashFile]
  split
  · rw [calFileSHA256ValueBySegData, segDataLoop_run, ← sampleLimit, run_false fun n t => samplePass_count]
    simp only [samplePass_false]
  · rw [calFileSHA256Value, calFileLoop_run, run_false fun n t => wholePass_count]
    simp only [wholePass_false]

/-- Hashing the segments comes to one that something happens in. -/
def SegmentsCome (c : CheckHash) (env : CheckEnv) (backend : Backend) (fileNumber : Nat)
    (event : (Nat → Bool) → Bool → OpenFile → Bytes → Prop) : Nat → List Bytes → Bytes → Prop
  | _, [], _ => False
  | i, data :: rest, ctx =>
    event (env.breaks i) false (openFile backend data (env.hashed i)) ctx ∨
      ∃ s, hashFile c (env.breaks i) false fileNumber (openFile backend data (env.hashed i)) ctx
          = some (true, s)
        ∧ SegmentsCome c env backend fileNumber event (i + 1) rest s.ctx

/-- Hashing an image comes to a segment that something happens in. -/
def ImageComes (c : CheckHash) (env : CheckEnv) (img : ImageFiles) (file : OpenFile)
    (event : (Nat → Bool) → Bool → OpenFile → Bytes → Prop) : Prop :=
  SegmentsCome c env img.backend img.fileNumber event 0 img.first [] ∨
    ∃ ctx first, hashSegments c env img.backend img.fileNumber 0 img.first []
        = some (true, ctx, first)
      ∧ event (env.breaks img.first.length) true file ctx

/-- A read fails while an image is hashed. -/
def ImageReadFails (c : CheckHash) (env : CheckEnv) (img : ImageFiles) (file : OpenFile) : Prop :=
  ImageComes c env img file fun breaks check file ctx =>
    HashReadFails c breaks check img.fileNumber file ctx

/-- A user breaks while an image is hashed. -/
def ImageBreaks (c : CheckHash) (env : CheckEnv) (img : ImageFiles) (file : OpenFile) : Prop :=
  ImageComes c env img file fun breaks check file ctx =>
    HashBreaks c breaks check img.fileNumber file ctx

/-- Hashing the segments reports a failure exactly when a user breaks in one. -/
theorem hashSegments_false {env : CheckEnv} {backend : Backend} {fileNumber : Nat}
    (segments : List Bytes) :
    ∀ (i : Nat) (ctx : Bytes),
      (∃ ctx' first, hashSegments c env backend fileNumber i segments ctx = some (false, ctx', first)) ↔
        SegmentsCome c env backend fileNumber
          (fun breaks check file ctx => HashBreaks c breaks check fileNumber file ctx) i segments ctx := by
  -- The first segment that fails decides; until then the digest goes on.
  induction segments with
  | nil =>
    intro i ctx
    refine iff_of_false ?_ id
    rintro ⟨ctx', first, result⟩
    cases result
  | cons data rest ih =>
    intro i ctx
    rw [hashSegments, SegmentsCome, ← hashFile_false]
    cases hashFile c (env.breaks i) false fileNumber (openFile backend data (env.hashed i)) ctx with
    | none => simp
    | some result =>
      obtain ⟨ok, s⟩ := result
      cases ok with
      | false => simp
      | true =>
        simp only [Option.some.injEq, Prod.mk.injEq, Bool.true_eq_false, false_and, exists_false,
          true_and, false_or, exists_eq_left', ← ih]
        cases hashSegments c env backend fileNumber (i + 1) rest s.ctx with
        | none => simp
        | some later =>
          obtain ⟨ok, ctx', first⟩ := later
          simp

/-- Hashing an image reports a failure exactly when a user breaks. -/
theorem calculateFileSHA256Value_none {env : CheckEnv} {img : ImageFiles} :
    (∃ first after, calculateFileSHA256Value c env img file = some (none, first, after)) ↔
      ImageBreaks c env img file := by
  rw [calculateFileSHA256Value, ImageBreaks, ImageComes, ← hashSegments_false]
  simp only [← hashFile_false]
  cases hashSegments c env img.backend img.fileNumber 0 img.first [] with
  | none => simp
  | some result =>
    obtain ⟨ok, ctx, first⟩ := result
    cases ok with
    | false => simp
    | true =>
      simp only [Option.some.injEq, Prod.mk.injEq, Bool.true_eq_false, false_and, exists_false,
        true_and, false_or]
      cases hashed : hashFile c (env.breaks img.first.length) true img.fileNumber file ctx with
      | none => simp [hashed]
      | some last =>
        obtain ⟨ok, s⟩ := last
        cases ok <;> simp [hashed]

/-- Without a digest there is no check value, neither to store nor to compare. -/
theorem calCheckValue_digest {env : CheckEnv} {img : ImageFiles} {first : List Bytes}
    {after : OpenFile}
    (refused : calculateFileSHA256Value c env img file = some (none, first, after)) :
    calCheckValue c env img file = some (none, first, after) := by
  rw [calculateFileSHA256Value] at refused
  rw [calCheckValue]
  -- The digest is refused by a segment or by the last file, and both are handed on.
  cases segments : hashSegments c env img.backend img.fileNumber 0 img.first [] with
  | none =>
    rw [segments] at refused
    cases refused
  | some result =>
    obtain ⟨ok, ctx, first'⟩ := result
    rw [segments] at refused
    cases ok with
    | false => exact refused
    | true =>
      dsimp only at refused ⊢
      cases hashed : hashFile c (env.breaks img.first.length) true img.fileNumber file ctx with
      | none =>
        rw [hashed] at refused
        cases refused
      | some last =>
        obtain ⟨ok, s⟩ := last
        rw [hashed] at refused
        cases ok with
        | false => exact refused
        | true => cases refused

/--
A failed read is reported exactly when there is none.

The hashing of a file goes on to success from there, in both loops;
that of an image reports a failure only when a user breaks it, whatever the reads did.
-/
theorem hashFailures_reported_iff (c : CheckHash) :
    (∀ breaks check file ctx,
      (WholeReadFails c breaks check file ctx →
          ∃ s, calFileSHA256Value c breaks check file ctx = some (false, s)) ↔
        ¬ WholeReadFails c breaks check file ctx)
    ∧ (∀ breaks check fileNumber file ctx,
      (SampleReadFails c breaks check fileNumber file ctx →
          ∃ s, calFileSHA256ValueBySegData c breaks check fileNumber file ctx = some (false, s)) ↔
        ¬ SampleReadFails c breaks check fileNumber file ctx)
    ∧ ∀ env img file,
      (ImageReadFails c env img file →
          ∃ first after, calculateFileSHA256Value c env img file = some (none, first, after)
            ∧ calCheckValue c env img file = some (none, first, after)) ↔
        ¬ ImageReadFails c env img file ∨ ImageBreaks c env img file := by
  -- A failed read never makes the two hashes fail, and the digest only by its segments.
  refine ⟨fun breaks check file ctx => ?_, fun breaks check fileNumber file ctx => ?_,
    fun env img file => ?_⟩
  · refine ⟨fun reported failed => ?_, fun none_ failed => absurd failed none_⟩
    obtain ⟨s, refused⟩ := reported failed
    obtain ⟨s', passed⟩ := calFileSHA256Value_failed failed
    rw [passed] at refused
    cases refused
  · refine ⟨fun reported failed => ?_, fun none_ failed => absurd failed none_⟩
    obtain ⟨s, refused⟩ := reported failed
    obtain ⟨s', passed⟩ := calFileSHA256ValueBySegData_failed failed
    rw [passed] at refused
    cases refused
  · rw [← calculateFileSHA256Value_none, ← imp_iff_not_or]
    refine imp_congr_right fun _ => ⟨?_, ?_⟩
    · rintro ⟨first, after, refused, -⟩
      exact ⟨first, after, refused⟩
    · rintro ⟨first, after, refused⟩
      exact ⟨first, after, refused, calCheckValue_digest refused⟩

/-- The device fails the first read of an image of one byte, and nobody breaks. -/
def failingRead : CheckEnv where
  last := [none, some .fail]

/-- A check value is stored for the image though none of it could be read. -/
theorem hashFailure_stores :
    WholeReadFails plainHash (fun _ => false) true (openFile .fat (List.replicate 33 7) [some .fail]) []
      ∧ (calFileSHA256Value plainHash (fun _ => false) true
          (openFile .fat (List.replicate 33 7) [some .fail]) []).map Prod.fst = some true
      ∧ (calculateFileCheckValue plainHash failingRead
          { backend := .fat, last := [7], whole := Backend.noConfusion }).map CheckResult.ok
        = some true := by
  refine ⟨⟨0, _, .here _, rfl, ?_⟩, ?_, ?_⟩ <;> decide

end Okr
