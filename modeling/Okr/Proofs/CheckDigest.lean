import Okr.Model.CheckValue
import Okr.Proofs.HandleFrame

/-! What taking a digest and a salt keeps of a file, and what a finished check value went through. -/

namespace Okr

/-! ### The digest only seeks and reads -/

/-- The digest of a read leaves the file to the read. -/
theorem absorbWhole_file (c : CheckHash) (filesize : Nat) (s : HashState) (bytes : Bytes) :
    (absorbWhole c filesize s bytes).file = s.file := by
  unfold absorbWhole
  split
  · rfl
  · simp only
    split <;> rfl

/-- The whole-file loop counts the bytes of every read. -/
theorem absorbWhole_read (c : CheckHash) (filesize : Nat) (s : HashState) (bytes : Bytes) :
    (absorbWhole c filesize s bytes).llReadSize = s.llReadSize + bytes.length := by
  unfold absorbWhole
  split
  · rename_i none_
    rw [none_]
    rfl
  · simp only
    split <;> rfl

/-- The digest of a sampled read leaves the file to the read. -/
theorem absorbSampled_file (c : CheckHash) (s : HashState) (bytes : Bytes) :
    (absorbSampled c s bytes).file = s.file := by
  unfold absorbSampled
  split
  · rfl
  · simp only
    split <;> rfl

section Preserved

variable (Inv : OpenFile → Prop) (seek : ∀ file pos, Inv file → Inv (file.setPos pos))

include seek

/-- A property kept by seeks and by reads from sector boundaries is kept by the whole-file digest. -/
theorem calFileLoop_preserves
    (reads : ∀ file pos size, Inv file → pos % 512 = 0 → Inv ((file.setPos pos).read size).2)
    (c : CheckHash) (breaks : Nat → Bool) (filesize : Nat) (check : Bool) (fuel : Nat) :
    ∀ (i : Nat) (s : HashState) (ok : Bool) (s' : HashState),
      (∃ g, Inv g ∧ s.file = g.setPos s.llReadSize) → s.llReadSize % hashChunk = 0 →
      calFileLoop c breaks filesize check fuel i s = some (ok, s') → Inv s'.file := by
  -- The invariant is that the file stands where the loop has read up to, a multiple of a chunk.
  induction fuel with
  | zero =>
    intro i s ok s' _ _ result
    simp [calFileLoop] at result
  | succ fuel ih =>
    intro i s ok s' ⟨g, inv, stands⟩ whole result
    have aligned : s.llReadSize % 512 = 0 := by simp only [hashChunk] at whole; omega
    have kept : ∀ size, Inv (s.file.read size).2 := by
      intro size
      rw [stands]
      exact reads g s.llReadSize size inv aligned
    simp only [calFileLoop] at result
    split at result
    · simp only [Option.some.injEq, Prod.mk.injEq] at result
      rw [← result.2, stands]
      exact seek g _ inv
    · have read := kept (nextHashSize filesize s.llReadSize check)
      cases reply : s.file.read (nextHashSize filesize s.llReadSize check) with
      | mk answer file =>
        rw [reply] at read result
        cases answer with
        | failed =>
          simp only [Option.some.injEq, Prod.mk.injEq] at result
          rw [← result.2]
          exact read
        | bytes bytes =>
          simp only [absorbWhole_read, absorbWhole_file] at result
          split at result
          · rename_i full
            refine ih _ _ _ _ ⟨file, read, rfl⟩ ?_ result
            have len : bytes.length = hashChunk := full.1
            simp only [len]
            simp only [hashChunk] at whole ⊢
            omega
          · simp only [Option.some.injEq, Prod.mk.injEq] at result
            rw [← result.2]
            exact seek _ _ read
        | done => simp at result
        | wrote n => simp at result
        | hang => simp at result
        | crash => simp at result

/-- A property kept by seeks and by all reads is kept by the sampling digest. -/
theorem segDataLoop_preserves (reads : ∀ file size, Inv file → Inv (file.read size).2)
    (c : CheckHash) (breaks : Nat → Bool) (filesize limit : Nat) (check : Bool) (fuel : Nat) :
    ∀ (i : Nat) (s : HashState) (ok : Bool) (s' : HashState), Inv s.file →
      segDataLoop c breaks filesize limit check fuel i s = some (ok, s') → Inv s'.file := by
  -- on the fuel; a pass touches the file by one read and at most one seek
  induction fuel with
  | zero =>
    intro i s ok s' _ result
    simp [segDataLoop] at result
  | succ fuel ih =>
    intro i s ok s' inv result
    simp only [segDataLoop] at result
    split at result
    · simp only [Option.some.injEq, Prod.mk.injEq] at result
      rw [← result.2]
      exact inv
    · have read := reads s.file hashChunk inv
      cases reply : s.file.read hashChunk with
      | mk answer file =>
        rw [reply] at read result
        cases answer with
        | failed =>
          simp only [Option.some.injEq, Prod.mk.injEq] at result
          rw [← result.2]
          exact read
        | bytes bytes =>
          have absorbed : Inv (absorbSampled c { s with file := file } bytes).file := by
            rw [absorbSampled_file]
            exact read
          simp only at result
          split at result
          · split at result
            · simp only [Option.some.injEq, Prod.mk.injEq] at result
              rw [← result.2]
              exact absorbed
            · split at result
              · exact ih _ _ _ _ (seek _ _ absorbed) result
              · simp only [Option.some.injEq, Prod.mk.injEq] at result
                rw [← result.2]
                exact seek _ _ absorbed
          · split at result
            · exact ih _ _ _ _ (seek _ _ absorbed) result
            · simp only [Option.some.injEq, Prod.mk.injEq] at result
              rw [← result.2]
              exact seek _ _ absorbed
        | done => simp at result
        | wrote n => simp at result
        | hang => simp at result
        | crash => simp at result

/-- The digest of a file keeps what its seeks and reads keep; only large files are read unaligned. -/
theorem hashFile_preserves {c : CheckHash} {breaks : Nat → Bool} {check : Bool} {fileNumber : Nat}
    {file : OpenFile} {ctx : Bytes} {ok : Bool} {s : HashState}
    (aligned : ∀ file pos size, Inv file → pos % 512 = 0 → Inv ((file.setPos pos).read size).2)
    (large : file.getSize > largeFile → ∀ file size, Inv file → Inv (file.read size).2)
    (inv : Inv file) (result : hashFile c breaks check fileNumber file ctx = some (ok, s)) :
    Inv s.file := by
  unfold hashFile at result
  split at result
  · rename_i isLarge
    exact segDataLoop_preserves Inv seek (large isLarge) c breaks _ _ check _ _ _ _ _
      (seek file 0 inv) result
  · exact calFileLoop_preserves Inv seek aligned c breaks _ check _ _ _ _ _ ⟨file, inv, rfl⟩ rfl result

end Preserved

/-! ### What a finished check value went through -/

/-- A salt was found by two reads, both of which returned bytes. -/
theorem getSaltValue_some {file after : OpenFile} {salt : Bytes × Nat}
    (result : getSaltValue file = some (some salt, after)) :
    ∃ bytes₁ bytes₂ mid, (file.setPos (file.getSize / 2)).read SALT_LEN = (.bytes bytes₁, mid)
      ∧ (mid.setPos (file.getSize / 3)).read 4 = (.bytes bytes₂, after) := by
  -- of the replies, only bytes let the function go on, at both reads
  unfold getSaltValue at result
  simp only at result
  cases first : (file.setPos (file.getSize / 2)).read SALT_LEN with
  | mk answer mid =>
    rw [first] at result
    cases answer with
    | bytes bytes₁ =>
      simp only at result
      cases second : (mid.setPos (file.getSize / 3)).read 4 with
      | mk answer last =>
        rw [second] at result
        cases answer with
        | bytes bytes₂ =>
          simp only [Option.some.injEq, Prod.mk.injEq] at result
          exact ⟨bytes₁, bytes₂, mid, rfl, by rw [second, result.2]⟩
        | failed => simp at result
        | done => simp at result
        | wrote n => simp at result
        | hang => simp at result
        | crash => simp at result
    | failed => simp at result
    | done => simp at result
    | wrote n => simp at result
    | hang => simp at result
    | crash => simp at result

/-- A check value was computed over hashed segments and a salt, and has its fixed length. -/
theorem calCheckValue_some {c : CheckHash} {env : CheckEnv} {img : ImageFiles}
    {file after : OpenFile} {value : Bytes} {segments : List Bytes}
    (result : calCheckValue c env img file = some (some value, segments, after)) :
    value.length = PBKDF2P_LEN ∧ ∃ ctx first s salt,
      hashSegments c env img.backend img.fileNumber 0 img.first [] = some (true, ctx, first)
        ∧ hashFile c (env.breaks img.first.length) true img.fileNumber file ctx = some (true, s)
        ∧ ((first = [] ∧ segments = [] ∧ getSaltValue s.file = some (some salt, after))
          ∨ ∃ data rest seg, first = data :: rest ∧ segments = seg.close :: rest ∧ after = s.file
              ∧ getSaltValue (openFile img.backend data env.salted) = some (some salt, seg)) := by
  unfold calCheckValue at result
  split at result
  · simp at result
  · simp at result
  · rename_i ctx first hashed
    split at result
    · simp at result
    · simp at result
    · rename_i s last
      -- the salt is read from the one file, or from the first segment reopened
      cases first with
      | nil =>
        simp only at result
        split at result
        · simp at result
        · simp at result
        · rename_i salt iterations file' found
          simp only [Option.some.injEq, Prod.mk.injEq] at result
          obtain ⟨rfl, rfl, rfl⟩ := result
          exact ⟨c.pbkdf2_length _ _ _, ctx, [], s, (salt, iterations), hashed, last,
            Or.inl ⟨rfl, rfl, found⟩⟩
      | cons data rest =>
        simp only at result
        split at result
        · simp at result
        · simp at result
        · rename_i salt iterations seg found
          simp only [Option.some.injEq, Prod.mk.injEq] at result
          obtain ⟨rfl, rfl, rfl⟩ := result
          exact ⟨c.pbkdf2_length _ _ _, ctx, data :: rest, s, (salt, iterations), hashed, last,
            Or.inr ⟨data, rest, seg, rfl, rfl, rfl, found⟩⟩

/-- A success wrote the value over the last 32 bytes of the size reported then, and closed. -/
theorem calculateFileCheckValue_ok {c : CheckHash} {env : CheckEnv} {img : ImageFiles}
    {r : CheckResult} (result : calculateFileCheckValue c env img = some r) (ok : r.ok = true) :
    ∃ file, calCheckValue c env img (saveZeroData (openFile img.backend img.last env.last)).2
        = some (some r.value, r.first, file)
      ∧ (saveFileCheckValue file r.value).1 ≠ .failed
      ∧ r.last = (saveFileCheckValue file r.value).2.close := by
  -- A placeholder that was not written changes nothing in what follows.
  have computed : storeCheckValue c env img
      (saveZeroData (openFile img.backend img.last env.last)).2 = some r := by
    unfold calculateFileCheckValue at result
    split at result
    · simp at result
    · simp at result
    · rename_i save
      rw [save]
      exact result
  unfold storeCheckValue at computed
  split at computed
  · simp at computed
  · simp only [Option.some.injEq] at computed
    rw [← computed] at ok
    simp at ok
  · rename_i value first file found
    cases save : saveFileCheckValue file value with
    | mk reply after =>
      rw [save] at computed
      cases reply with
      | failed =>
        simp only [Option.some.injEq] at computed
        rw [← computed] at ok
        simp at ok
      | hang => simp at computed
      | crash => simp at computed
      | done =>
        simp only [Option.some.injEq] at computed
        subst computed
        exact ⟨file, found, by rw [save]; simp, by rw [save]⟩
      | bytes b =>
        simp only [Option.some.injEq] at computed
        subst computed
        exact ⟨file, found, by rw [save]; simp, by rw [save]⟩
      | wrote n =>
        simp only [Option.some.injEq] at computed
        subst computed
        exact ⟨file, found, by rw [save]; simp, by rw [save]⟩

/-- No more is stored than was to be. -/
theorem storedUnder_le (fault : Option Fault) (size : Nat) : storedUnder fault size ≤ size := by
  unfold storedUnder
  split
  · exact Nat.le_refl _
  · exact Nat.zero_le _
  · exact Nat.min_le_right _ _

end Okr
