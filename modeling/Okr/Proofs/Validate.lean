import Okr.Proofs.CheckValue

/-! A check value just made is found valid: both modes hash the same bytes and never the value. -/

namespace Okr

open Overlay (window)

/-! ### A digest no break ended -/

/-- A whole-file digest that was not broken is the one of a run no break can end. -/
theorem calFileLoop_unbroken {c : CheckHash} {breaks calm : Nat → Bool} {filesize : Nat}
    {check : Bool} (never : ∀ i, calm i = false) (fuel : Nat) :
    ∀ (i : Nat) (s s' : HashState),
      calFileLoop c breaks filesize check fuel i s = some (true, s') →
      calFileLoop c calm filesize check fuel i s = some (true, s') := by
  -- A break ends the loop with failure, so a run that succeeded met none of them.
  induction fuel with
  | zero => exact fun _ _ _ result => result
  | succ fuel ih =>
    intro i s s' result
    rw [calFileLoop] at result ⊢
    rw [if_neg (by simp [never i])]
    split at result
    · simp at result
    · split at result
      · exact result
      · dsimp only at result ⊢
        split at result
        · rename_i full
          rw [if_pos full]
          exact ih _ _ _ result
        · rename_i last
          rw [if_neg last]
          exact result
      · simp at result

/-- A sampled digest that was not broken is the one of a run no break can end. -/
theorem segDataLoop_unbroken {c : CheckHash} {breaks calm : Nat → Bool} {filesize limit : Nat}
    {check : Bool} (never : ∀ i, calm i = false) (fuel : Nat) :
    ∀ (i : Nat) (s s' : HashState),
      segDataLoop c breaks filesize limit check fuel i s = some (true, s') →
      segDataLoop c calm filesize limit check fuel i s = some (true, s') := by
  induction fuel with
  | zero => exact fun _ _ _ result => result
  | succ fuel ih =>
    intro i s s' result
    rw [segDataLoop] at result ⊢
    rw [if_neg (by simp [never i])]
    split at result
    · simp at result
    · split at result
      · exact result
      · dsimp only at result ⊢
        split at result
        · -- The part is done, and the sampling goes on with the next one or ends.
          rename_i done
          rw [if_pos done]
          split at result
          · exact result
          · split at result
            · rename_i full
              rw [if_pos full]
              exact ih _ _ _ result
            · rename_i last
              rw [if_neg last]
              exact result
        · rename_i more
          rw [if_neg more]
          split at result
          · rename_i full
            rw [if_pos full]
            exact ih _ _ _ result
          · rename_i last
            rw [if_neg last]
            exact result
      · simp at result

/-- A file's digest that was not broken is the one of a run no break can end. -/
theorem hashFile_unbroken {c : CheckHash} {breaks calm : Nat → Bool} {check : Bool}
    {fileNumber : Nat} {file : OpenFile} {ctx : Bytes} {s : HashState}
    (never : ∀ i, calm i = false)
    (result : hashFile c breaks check fileNumber file ctx = some (true, s)) :
    hashFile c calm check fileNumber file ctx = some (true, s) := by
  unfold hashFile at result ⊢
  split at result
  · rename_i large
    rw [if_pos large]
    exact segDataLoop_unbroken never _ _ _ _ result
  · rename_i few
    rw [if_neg few]
    exact calFileLoop_unbroken never _ _ _ _ result

/-- Every call of the devices is answered; only the user may break. -/
structure CheckEnv.Answered (env : CheckEnv) : Prop where
  last : env.last = []
  hashed : ∀ i, env.hashed i = []
  salted : env.salted = []

/-- The segments before the last hash alike where no break can end it. -/
theorem hashSegments_unbroken {c : CheckHash} {env check : CheckEnv} {backend : Backend}
    {fileNumber : Nat} (answered : env.Answered) (checked : check.Answered)
    (never : ∀ i j, check.breaks i j = false) (segments : List Bytes) :
    ∀ (i : Nat) (ctx ctx' : Bytes) (after : List Bytes),
      hashSegments c env backend fileNumber i segments ctx = some (true, ctx', after) →
      hashSegments c check backend fileNumber i segments ctx = some (true, ctx', after) := by
  induction segments with
  | nil => exact fun _ _ _ _ result => result
  | cons data rest ih =>
    intro i ctx ctx' after result
    rw [hashSegments] at result ⊢
    split at result
    · simp at result
    · simp at result
    · rename_i s hashed
      rw [answered.hashed i, ← checked.hashed i] at hashed
      rw [hashFile_unbroken (never i) hashed]
      dsimp only
      split at result
      · simp at result
      · rename_i ok ctx'' rest' more
        simp only [Option.some.injEq, Prod.mk.injEq] at result
        obtain ⟨rfl, rfl, rfl⟩ := result
        rw [ih _ _ _ _ more]

/-- A computed value is computed alike where no break can end it. -/
theorem calCheckValue_unbroken {c : CheckHash} {env check : CheckEnv} {img : ImageFiles}
    {file after : OpenFile} {value : Bytes} {first : List Bytes}
    (answered : env.Answered) (checked : check.Answered)
    (never : ∀ i j, check.breaks i j = false)
    (result : calCheckValue c env img file = some (some value, first, after)) :
    calCheckValue c check img file = some (some value, first, after) := by
  unfold calCheckValue at result ⊢
  split at result
  · simp at result
  · simp at result
  · rename_i ctx segments hashed
    rw [hashSegments_unbroken answered checked never _ _ _ _ _ hashed]
    dsimp only
    split at result
    · simp at result
    · simp at result
    · rename_i s last
      rw [hashFile_unbroken (never _) last]
      rw [answered.salted] at result
      rw [checked.salted]
      exact result

/-! ### The bytes in front of the check value -/

/-- A file on a FAT volume stands here in these bytes, with 32 check bytes behind them. -/
def FatAt (data check : Bytes) (pos : Nat) (file : OpenFile) : Prop :=
  file = .fat { data := data ++ check, pos := pos } ∧ check.length = PBKDF2P_LEN

variable {data check check' : Bytes} {pos : Nat} {file : OpenFile}

/-- The check value counts in the size of the file. -/
theorem FatAt.getSize (stands : FatAt data check pos file) : file.getSize = data.length + PBKDF2P_LEN := by
  obtain ⟨rfl, length⟩ := stands
  show (data ++ check).length = _
  rw [List.length_append, length]

/-- Seeking below the number that stands for the end. -/
theorem FatAt.setPos (stands : FatAt data check pos file) (place : Nat) (usual : place ≠ 2 ^ 64 - 1) :
    FatAt data check place (file.setPos place) := by
  obtain ⟨rfl, length⟩ := stands
  refine ⟨?_, length⟩
  rw [OpenFile.setPos, efiSetPosition, if_neg usual]

/-- A small read that ends in front of the check value sees the bytes there, whatever the value. -/
theorem FatAt.read (stands : FatAt data check pos file) (size : Nat) (small : size < MY_DEFINE_BUFFER_SIZE)
    (inside : pos + size ≤ data.length) :
    ∃ file', file.read size = (.bytes (window data pos size), file')
      ∧ FatAt data check (pos + size) file' := by
  obtain ⟨rfl, length⟩ := stands
  have same : window (data ++ check) pos size = window data pos size := by
    rw [window, window, List.drop_append_of_le_length (by omega),
      List.take_append_of_le_length (by rw [List.length_drop]; omega)]
  have full : (window data pos size).length = size := by
    rw [Overlay.length_window]
    omega
  have served : efiRead { data := data ++ check, pos := pos } size
      = (some (window data pos size), { data := data ++ check, pos := pos + size }) := by
    rw [efiRead, FatFile.nextFault]
    dsimp only
    rw [if_neg (by simp; omega), same, full]
  refine ⟨_, ?_, rfl, length⟩
  rw [OpenFile.read, segFileRead, if_pos small, served]

/-- A file on a FAT volume of these bytes and these check bytes. -/
def Sealed (data check : Bytes) (file : OpenFile) : Prop :=
  ∃ pos, FatAt data check pos file

/-! ### The whole-file digest -/

/-- The digest of a read does not look at the file. -/
theorem absorbWhole_withFile (c : CheckHash) (filesize : Nat) (s : HashState) (file : OpenFile)
    (bytes : Bytes) :
    absorbWhole c filesize { s with file := file } bytes
      = { absorbWhole c filesize s bytes with file := file } := by
  unfold absorbWhole
  split
  · rfl
  · dsimp only
    split <;> rfl

/-- In check mode the next chunk of a file of whole pages ends in front of the check value. -/
theorem nextHashSize_inside {size read : Nat} (pages : size % 4096 = 0) (chunks : read % hashChunk = 0)
    (inside : read ≤ size) :
    read + nextHashSize (size + PBKDF2P_LEN) read true ≤ size
      ∧ nextHashSize (size + PBKDF2P_LEN) read true < MY_DEFINE_BUFFER_SIZE := by
  -- More than a chunk is left of the file just when a whole chunk is left in front of the value.
  simp only [nextHashSize, hashChunk, PBKDF2P_LEN, MY_DEFINE_BUFFER_SIZE, u32] at chunks ⊢
  split
  · omega
  · rw [if_pos trivial]
    omega

/-- The whole-file digest in check mode is the same for every check value behind these bytes. -/
theorem calFileLoop_check {c : CheckHash} {breaks : Nat → Bool} (pages : data.length % 4096 = 0)
    (fits : data.length < 2 ^ 63) (fuel : Nat) :
    ∀ (i : Nat) (s s' : HashState) (ok : Bool) (other : OpenFile),
      FatAt data check s.llReadSize s.file → FatAt data check' s.llReadSize other →
      s.llReadSize % hashChunk = 0 → s.llReadSize ≤ data.length →
      calFileLoop c breaks (data.length + PBKDF2P_LEN) true fuel i s = some (ok, s') →
      ∃ other', calFileLoop c breaks (data.length + PBKDF2P_LEN) true fuel i { s with file := other }
          = some (ok, { s' with file := other' })
        ∧ Sealed data check s'.file ∧ Sealed data check' other' := by
  -- The invariant is that both files stand at the same chunk, in front of the check value.
  induction fuel with
  | zero =>
    intro i s s' ok other _ _ _ _ result
    simp [calFileLoop] at result
  | succ fuel ih =>
    intro i s s' ok other stands stands' chunks inside result
    obtain ⟨reach, small⟩ := nextHashSize_inside pages chunks inside
    obtain ⟨file₁, read₁, after₁⟩ := stands.read _ small reach
    obtain ⟨file₂, read₂, after₂⟩ := stands'.read _ small reach
    rw [calFileLoop] at result ⊢
    split at result
    · rename_i broken
      simp only [Option.some.injEq, Prod.mk.injEq] at result
      obtain ⟨rfl, rfl⟩ := result
      rw [if_pos broken]
      exact ⟨other, rfl, ⟨_, stands⟩, ⟨_, stands'⟩⟩
    · rename_i calm
      rw [if_neg calm]
      dsimp only
      rw [read₁] at result
      rw [read₂]
      dsimp only at result ⊢
      simp only [absorbWhole_withFile, absorbWhole_read] at result ⊢
      generalize bytesEq : window data s.llReadSize
        (nextHashSize (data.length + PBKDF2P_LEN) s.llReadSize true) = bytes at result ⊢
      have read : s.llReadSize + bytes.length ≤ data.length := by
        rw [← bytesEq, Overlay.length_window]
        omega
      have usual : s.llReadSize + bytes.length ≠ 2 ^ 64 - 1 := by omega
      have next₁ := after₁.setPos _ usual
      have next₂ := after₂.setPos _ usual
      split at result
      · -- A full chunk was read, and the loop goes on behind it.
        rename_i full
        rw [if_pos full]
        refine ih _ _ _ _ _ next₁ next₂ ?_ read result
        show (s.llReadSize + bytes.length) % hashChunk = 0
        rw [full.1, Nat.add_mod_right]
        exact chunks
      · rename_i last
        rw [if_neg last]
        simp only [Option.some.injEq, Prod.mk.injEq] at result
        obtain ⟨rfl, rfl⟩ := result
        exact ⟨_, rfl, ⟨_, next₁⟩, ⟨_, next₂⟩⟩

/-! ### The sampled digest -/

/-- The digest of a sampled read does not look at the file. -/
theorem absorbSampled_withFile (c : CheckHash) (s : HashState) (file : OpenFile) (bytes : Bytes) :
    absorbSampled c { s with file := file } bytes
      = { absorbSampled c s bytes with file := file } := by
  unfold absorbSampled
  split
  · rfl
  · dsimp only
    split <;> rfl

/-- A sampled read moves both counters on and stays in its part. -/
theorem absorbSampled_counts (c : CheckHash) (s : HashState) {bytes : Bytes} (some_ : bytes ≠ []) :
    (absorbSampled c s bytes).llReadSize = s.llReadSize + bytes.length
      ∧ (absorbSampled c s bytes).llSectorDataReadSize = s.llSectorDataReadSize + bytes.length
      ∧ (absorbSampled c s bytes).iSegIndex = s.iSegIndex := by
  rw [absorbSampled, if_neg some_]
  dsimp only
  split <;> exact ⟨rfl, rfl, rfl⟩

/-- In check mode every part of a large file ends in front of the check value. -/
theorem nextSample_inside {size limit index pos : Nat} (large : largeFile < size + PBKDF2P_LEN)
    (part : limit ≤ FILE_PER_SECTOR_DATA)
    (next : nextSample (size + PBKDF2P_LEN) limit index true = some pos) : pos + limit ≤ size := by
  -- The parts but the last start at multiples of a seventeenth, which is over twice their size.
  have value : PBKDF2P_LEN = 32 := rfl
  have parts : FILE_SHA256_SEG_NUMBER = 17 := rfl
  have room : 32 ≤ FILE_PER_SECTOR_DATA := by decide
  have twice : 2 * FILE_PER_SECTOR_DATA * 17 = largeFile := by decide
  have long : 2 * FILE_PER_SECTOR_DATA ≤ (size + PBKDF2P_LEN) / 17 :=
    (Nat.le_div_iff_mul_le (by decide)).mpr (by omega)
  rw [nextSample] at next
  split at next
  · rename_i early
    cases next
    have most : index * ((size + PBKDF2P_LEN) / FILE_SHA256_SEG_NUMBER)
        ≤ 16 * ((size + PBKDF2P_LEN) / FILE_SHA256_SEG_NUMBER) :=
      Nat.mul_le_mul_right _ (by omega)
    have whole : FILE_SHA256_SEG_NUMBER * ((size + PBKDF2P_LEN) / FILE_SHA256_SEG_NUMBER)
        ≤ size + PBKDF2P_LEN := Nat.mul_div_le _ _
    rw [parts] at most whole early ⊢
    omega
  · split at next
    · rw [if_pos rfl] at next
      cases next
      omega
    · cases next

/-- The sampled digest in check mode is the same for every check value behind these bytes. -/
theorem segDataLoop_check {c : CheckHash} {breaks : Nat → Bool} {limit : Nat}
    (large : largeFile < data.length + PBKDF2P_LEN) (part : limit ≤ FILE_PER_SECTOR_DATA)
    (chunked : limit % hashChunk = 0) (fits : data.length < 2 ^ 63) (fuel : Nat) :
    ∀ (i : Nat) (s s' : HashState) (ok : Bool) (other : OpenFile),
      FatAt data check s.llReadSize s.file → FatAt data check' s.llReadSize other →
      s.llSectorDataReadSize % hashChunk = 0 → s.llSectorDataReadSize < limit →
      s.llReadSize + limit ≤ data.length + s.llSectorDataReadSize →
      segDataLoop c breaks (data.length + PBKDF2P_LEN) limit true fuel i s = some (ok, s') →
      ∃ other', segDataLoop c breaks (data.length + PBKDF2P_LEN) limit true fuel i
            { s with file := other } = some (ok, { s' with file := other' })
        ∧ Sealed data check s'.file ∧ Sealed data check' other' := by
  -- The invariant is that the part both files stand in ends in front of the check value.
  induction fuel with
  | zero =>
    intro i s s' ok other _ _ _ _ _ result
    simp [segDataLoop] at result
  | succ fuel ih =>
    intro i s s' ok other stands stands' chunks within inside result
    have small : hashChunk < MY_DEFINE_BUFFER_SIZE := by decide
    have reach : s.llReadSize + hashChunk ≤ data.length := by
      simp only [hashChunk] at chunks chunked ⊢
      omega
    obtain ⟨file₁, read₁, after₁⟩ := stands.read _ small reach
    obtain ⟨file₂, read₂, after₂⟩ := stands'.read _ small reach
    rw [segDataLoop] at result ⊢
    split at result
    · rename_i broken
      simp only [Option.some.injEq, Prod.mk.injEq] at result
      obtain ⟨rfl, rfl⟩ := result
      rw [if_pos broken]
      exact ⟨other, rfl, ⟨_, stands⟩, ⟨_, stands'⟩⟩
    · rename_i calm
      rw [if_neg calm]
      dsimp only
      rw [read₁] at result
      rw [read₂]
      dsimp only at result ⊢
      have length : (window data s.llReadSize hashChunk).length = hashChunk := by
        rw [Overlay.length_window]
        omega
      generalize window data s.llReadSize hashChunk = bytes at result length ⊢
      obtain ⟨moved, counted, same⟩ := absorbSampled_counts c s (List.ne_nil_of_length_pos (by rw [length]; decide) : bytes ≠ [])
      simp only [absorbSampled_withFile, moved, counted, same, length] at result ⊢
      split at result
      · -- The part is done.
        rename_i done
        rw [if_pos done]
        cases next : nextSample (data.length + PBKDF2P_LEN) limit (s.iSegIndex + 1) true with
        | none =>
          rw [next] at result
          simp only [Option.some.injEq, Prod.mk.injEq] at result
          obtain ⟨rfl, rfl⟩ := result
          exact ⟨file₂, rfl, ⟨_, after₁⟩, ⟨_, after₂⟩⟩
        | some place =>
          rw [next] at result
          dsimp only at result ⊢
          have room := nextSample_inside large part next
          have next₁ := after₁.setPos place (by omega)
          have next₂ := after₂.setPos place (by omega)
          have more : place < data.length + PBKDF2P_LEN := by
            simp only [PBKDF2P_LEN]
            omega
          rw [if_pos ⟨trivial, more⟩] at result ⊢
          exact ih _ _ _ _ _ next₁ next₂ rfl (by show 0 < limit; omega) room result
      · -- The part goes on behind this chunk.
        rename_i going
        rw [if_neg going]
        have usual : s.llReadSize + hashChunk ≠ 2 ^ 64 - 1 := by omega
        have next₁ := after₁.setPos _ usual
        have next₂ := after₂.setPos _ usual
        have more : s.llReadSize + hashChunk < data.length + PBKDF2P_LEN := by
          simp only [PBKDF2P_LEN]
          omega
        rw [if_pos ⟨trivial, more⟩] at result ⊢
        refine ih _ _ _ _ _ next₁ next₂ ?_ ?_ ?_ result
        · show (s.llSectorDataReadSize + hashChunk) % hashChunk = 0
          rw [Nat.add_mod_right]
          exact chunks
        · show s.llSectorDataReadSize + hashChunk < limit
          omega
        · show s.llReadSize + hashChunk + limit ≤ data.length + (s.llSectorDataReadSize + hashChunk)
          omega

/-! ### The value -/

section Value

variable {c : CheckHash} {other : OpenFile} (pages : data.length % 4096 = 0)
  (fits : data.length < MAX_FAT_FILE)

include pages fits

/-- The digest in check mode is the same for every check value behind these bytes. -/
theorem hashFile_check {breaks : Nat → Bool} {fileNumber : Nat} {ctx : Bytes} {ok : Bool}
    {s : HashState} (stands : Sealed data check file) (stands' : Sealed data check' other)
    (result : hashFile c breaks true fileNumber file ctx = some (ok, s)) :
    ∃ other', hashFile c breaks true fileNumber other ctx = some (ok, { s with file := other' })
      ∧ Sealed data check s.file ∧ Sealed data check' other' := by
  have far : data.length < 2 ^ 63 := by
    simp only [MAX_FAT_FILE] at fits
    omega
  obtain ⟨pos, stands⟩ := stands
  obtain ⟨pos', stands'⟩ := stands'
  have start := stands.setPos 0 (by decide)
  have start' := stands'.setPos 0 (by decide)
  rw [hashFile, stands.getSize] at result
  rw [hashFile, stands'.getSize]
  split at result
  · rename_i large
    rw [if_pos large]
    rw [calFileSHA256ValueBySegData, stands.getSize] at result
    rw [calFileSHA256ValueBySegData, stands'.getSize]
    -- Either part size is a multiple of a chunk.
    have part : ∀ limit, limit = (if fileNumber > 1 then MULTI_FILE_PER_SECTOR_DATA
        else FILE_PER_SECTOR_DATA) → limit ≤ FILE_PER_SECTOR_DATA ∧ limit % hashChunk = 0
          ∧ 0 < limit ∧ limit ≤ data.length := by
      intro limit limitEq
      have least : FILE_PER_SECTOR_DATA + PBKDF2P_LEN ≤ largeFile := by decide
      have most : MULTI_FILE_PER_SECTOR_DATA ≤ FILE_PER_SECTOR_DATA := by decide
      rw [limitEq]
      split
      · exact ⟨most, by decide, by decide, by omega⟩
      · exact ⟨Nat.le_refl _, by decide, by decide, by omega⟩
    obtain ⟨small, chunked, some_, within⟩ := part _ rfl
    exact segDataLoop_check large small chunked far _ _ _ _ _ _ start start' rfl some_
      (by show 0 + _ ≤ data.length + 0; omega) result
  · rename_i few
    rw [if_neg few]
    rw [calFileSHA256Value, stands.getSize] at result
    rw [calFileSHA256Value, stands'.getSize]
    exact calFileLoop_check pages far _ _ _ _ _ _ start start' rfl (Nat.zero_le _) result

/-- The salt of a file with a page in front of the check value does not come from the value. -/
theorem getSaltValue_check (header : data ≠ []) :
    ∃ salt, ∀ {check file}, Sealed data check file →
      ∃ after, getSaltValue file = some (some salt, after) ∧ Sealed data check after := by
  have page : 4096 ≤ data.length := by
    have some_ := List.length_pos_iff.mpr header
    omega
  have half : (data.length + PBKDF2P_LEN) / 2 + SALT_LEN ≤ data.length := by
    simp only [PBKDF2P_LEN, SALT_LEN]
    omega
  have third : (data.length + PBKDF2P_LEN) / 3 + 4 ≤ data.length := by
    simp only [PBKDF2P_LEN]
    omega
  simp only [MAX_FAT_FILE] at fits
  refine ⟨(intoZeros SALT_LEN (window data ((data.length + PBKDF2P_LEN) / 2) SALT_LEN),
    ((intoZeros 4 (window data ((data.length + PBKDF2P_LEN) / 3) 4)).headD 0).toNat), ?_⟩
  rintro check file ⟨pos, stands⟩
  obtain ⟨mid, read, stands₁⟩ := (stands.setPos ((data.length + PBKDF2P_LEN) / 2)
    (by omega)).read SALT_LEN (by decide) half
  obtain ⟨after, read', stands₂⟩ := (stands₁.setPos ((data.length + PBKDF2P_LEN) / 3)
    (by omega)).read 4 (by decide) third
  refine ⟨after, ?_, _, stands₂⟩
  rw [getSaltValue, stands.getSize, read]
  dsimp only
  rw [read']

/-- The value computed over a last segment does not depend on the check bytes behind it. -/
theorem calCheckValue_check {env : CheckEnv} {img img' : ImageFiles} {after : OpenFile}
    {value : Bytes} {first : List Bytes} (kind : img.backend = .fat) (kind' : img'.backend = .fat)
    (same : img'.first = img.first) (header : img.first = [] → data ≠ [])
    (stands : Sealed data check file) (stands' : Sealed data check' other)
    (result : calCheckValue c env img file = some (some value, first, after)) :
    ∃ after', calCheckValue c env img' other = some (some value, first, after')
      ∧ Sealed data check' after' := by
  have number : img'.fileNumber = img.fileNumber := by rw [ImageFiles.fileNumber, same]; rfl
  unfold calCheckValue at result ⊢
  rw [kind', same, number]
  rw [kind] at result
  split at result
  · simp at result
  · simp at result
  · rename_i ctx segments hashed
    split at result
    · simp at result
    · simp at result
    · rename_i s last
      obtain ⟨other', last', sealed, sealed'⟩ := hashFile_check pages fits stands stands' last
      rw [last']
      dsimp only
      have unchanged := hashSegments_fat img.first _ _ _ _ _ hashed
      cases segments with
      | nil =>
        -- A single segment holds the header, and the salt comes from in front of the check value.
        obtain ⟨salt, found⟩ := getSaltValue_check pages fits (header unchanged.symm)
        obtain ⟨after₁, salt₁, -⟩ := found sealed
        obtain ⟨after₂, salt₂, sealed₂⟩ := found sealed'
        rw [salt₁] at result
        rw [salt₂]
        simp only [Option.some.injEq, Prod.mk.injEq] at result ⊢
        exact ⟨after₂, ⟨result.1, result.2.1, rfl⟩, sealed₂⟩
      | cons data rest =>
        dsimp only at result ⊢
        split at result
        · simp at result
        · simp at result
        · rename_i salt iterations seg found
          simp only [Option.some.injEq, Prod.mk.injEq] at result ⊢
          exact ⟨other', ⟨result.1, result.2.1, rfl⟩, sealed'⟩

/-- The placeholder takes the room of the check value. -/
theorem saveZeroData_sealed :
    ∃ file, saveZeroData (openFile .fat data []) = (.wrote PBKDF2P_LEN, file)
      ∧ Sealed data placeholder file := by
  have length : placeholder.length = PBKDF2P_LEN := rfl
  -- Whole pages below the largest size leave room for 32 bytes more.
  have room : data.length + PBKDF2P_LEN < MAX_FAT_FILE := by
    simp only [MAX_FAT_FILE, PBKDF2P_LEN] at fits ⊢
    omega
  have usual : data.length ≠ 2 ^ 64 - 1 := by
    simp only [MAX_FAT_FILE] at fits
    omega
  have small : placeholder.length < MY_DEFINE_BUFFER_SIZE := by decide
  have stored : efiWrite { data := data, pos := data.length } placeholder
      = (true, { data := data ++ placeholder, pos := data.length + PBKDF2P_LEN }) := by
    rw [efiWrite, FatFile.nextFault]
    dsimp only
    rw [length, if_neg (Nat.not_le.mpr room), Overlay.write_end]
  refine ⟨.fat { data := data ++ placeholder, pos := data.length + PBKDF2P_LEN }, ?_, _, rfl, length⟩
  rw [saveZeroData, openFile]
  show OpenFile.write (.fat (efiSetPosition { data := data } data.length)) placeholder = _
  rw [efiSetPosition, if_neg usual, OpenFile.write, segFileWrite, if_pos small, stored]
  rfl

/-- The stored value is read back from behind the bytes. -/
theorem getFileCheckValue_sealed (stands : Sealed data check file) :
    getFileCheckValue file = some (some check) := by
  obtain ⟨pos, stands⟩ := stands
  have size := stands.getSize
  obtain ⟨rfl, length⟩ := stands
  have place : sub64 (data.length + PBKDF2P_LEN) SALT_LEN = data.length := by
    simp only [sub64, PBKDF2P_LEN, SALT_LEN, MAX_FAT_FILE] at fits ⊢
    omega
  -- a position of all ones would mean the end of the file
  have usual : data.length ≠ 2 ^ 64 - 1 := by
    simp only [MAX_FAT_FILE] at fits
    omega
  have small : PBKDF2P_LEN < MY_DEFINE_BUFFER_SIZE := by decide
  have tail : window (data ++ check) data.length PBKDF2P_LEN = check := by
    rw [window, List.drop_left, List.take_of_length_le (by omega)]
  have served : efiRead { data := data ++ check, pos := data.length } PBKDF2P_LEN
      = (some check, { data := data ++ check, pos := data.length + PBKDF2P_LEN }) := by
    rw [efiRead, FatFile.nextFault]
    dsimp only
    rw [if_neg (by simp), tail, length]
  have read : ((OpenFile.fat { data := data ++ check, pos := pos }).setPos data.length).read PBKDF2P_LEN
      = (.bytes check, .fat { data := data ++ check, pos := data.length + PBKDF2P_LEN }) := by
    rw [OpenFile.setPos, efiSetPosition, if_neg usual, OpenFile.read, segFileRead, if_pos small, served]
  rw [getFileCheckValue, size, if_pos (by simp [PBKDF2P_LEN]), place, read]
  dsimp only
  rw [intoZeros, length, Nat.sub_self, List.replicate_zero, List.append_nil]

/-- A check value is stored in the room there is. -/
theorem saveFileCheckValue_sealed {value : Bytes} (stands : Sealed data check file)
    (length : value.length = PBKDF2P_LEN) :
    ∃ after, saveFileCheckValue file value = (.wrote PBKDF2P_LEN, after) := by
  obtain ⟨pos, stands⟩ := stands
  have size := stands.getSize
  obtain ⟨rfl, -⟩ := stands
  -- The value is written over the one at the end of the file.
  have place : sub64 (data.length + PBKDF2P_LEN) SALT_LEN = data.length := by
    simp only [sub64, PBKDF2P_LEN, SALT_LEN, MAX_FAT_FILE] at fits ⊢
    omega
  have usual : data.length ≠ 2 ^ 64 - 1 := by
    simp only [MAX_FAT_FILE] at fits
    omega
  have room : data.length + PBKDF2P_LEN < MAX_FAT_FILE := by
    simp only [MAX_FAT_FILE, PBKDF2P_LEN] at fits ⊢
    omega
  have small : value.length < MY_DEFINE_BUFFER_SIZE := by
    rw [length]
    decide
  have stored : (efiWrite { data := data ++ check, pos := data.length } value).1 = true := by
    rw [efiWrite, FatFile.nextFault]
    dsimp only
    rw [length, if_neg (Nat.not_le.mpr room)]
  rw [saveFileCheckValue, size, if_pos (by simp [PBKDF2P_LEN]), place]
  rw [OpenFile.setPos, efiSetPosition, if_neg usual, OpenFile.write, segFileWrite, if_pos small]
  dsimp only
  rw [stored, length]
  exact ⟨_, rfl⟩

end Value

/-! ### The image -/

/-- The image a check value was made for on a FAT volume, as it is stored afterwards. -/
def CheckResult.onFat (r : CheckResult) : ImageFiles where
  backend := .fat
  first := r.first
  last := r.last
  whole := nofun

/--
A check value just made is found valid, and it is the value computed whatever the check bytes are.

A last segment has whole pages, and a single segment holds at least the header. The user may break
the calculation, which then fails, and does not break the validation.
-/
theorem validImage_calculated {c : CheckHash} {env checked : CheckEnv} {img : ImageFiles}
    {r : CheckResult} (fat : img.backend = .fat) (answered : env.Answered)
    (answered' : checked.Answered) (calm : ∀ i j, checked.breaks i j = false)
    (pages : img.last.length % 4096 = 0) (fits : img.last.length < MAX_FAT_FILE)
    (header : img.first = [] → img.last ≠ [])
    (result : calculateFileCheckValue c env img = some r) (ok : r.ok = true) :
    validImageCheckValue c checked r.onFat = some true
      ∧ ∀ check, check.length = PBKDF2P_LEN →
          ∃ after, calCheckValue c checked r.onFat (openFile .fat (img.last ++ check) [])
            = some (some r.value, img.first, after) := by
  -- The value was appended, and the segments before the last are unchanged.
  have appended : CheckAppended img r := by
    refine (checkValue_fat fat ?_ result ok).mpr ?_
    · simp only [MAX_OFFSET, MAX_FAT_FILE] at fits ⊢
      omega
    · rw [CheckSafe, fat]
      refine Or.inl ?_
      rw [placeholderWritten, answered.last, if_neg]
      · rfl
      · simp only [MAX_FAT_FILE, PBKDF2P_LEN] at fits ⊢
        omega
  obtain ⟨last, length, first⟩ := appended
  -- The placeholder was behind the bytes while it was computed.
  obtain ⟨file, computed, -, -⟩ := calculateFileCheckValue_ok result ok
  obtain ⟨opened, written, sealed⟩ := saveZeroData_sealed pages fits
  rw [fat, answered.last, written, first] at computed
  have same : r.onFat.first = img.first := first
  -- Whatever stands there instead, the same value comes out of it.
  have again : ∀ check, check.length = PBKDF2P_LEN →
      ∃ after, calCheckValue c checked r.onFat (openFile .fat (img.last ++ check) [])
          = some (some r.value, img.first, after) ∧ Sealed img.last check after :=
    fun check length => calCheckValue_check pages fits fat rfl same header sealed ⟨0, rfl, length⟩
      (calCheckValue_unbroken answered answered' calm computed)
  constructor
  · obtain ⟨after, computed', sealed'⟩ := again r.value length
    have opened' : openFile r.onFat.backend r.onFat.last checked.last
        = openFile .fat (img.last ++ r.value) [] := by
      rw [answered'.last, ← last]
      rfl
    rw [validImageCheckValue, opened', computed']
    dsimp only
    rw [getFileCheckValue_sealed pages fits sealed']
    simp
  · intro check length
    obtain ⟨after, computed', -⟩ := again check length
    exact ⟨after, computed'⟩

/-- One read takes the page in front of a check value, and it is the last. -/
theorem hashFile_page {c : CheckHash} (page : data.length = 4096) (stands : Sealed data check file) :
    ∃ s, hashFile c (fun _ => false) true 1 file [] = some (true, s) ∧ Sealed data check s.file := by
  obtain ⟨pos, stands⟩ := stands
  obtain ⟨filesize, size⟩ : ∃ filesize, filesize = data.length + PBKDF2P_LEN := ⟨_, rfl⟩
  have few : ¬ filesize > largeFile := by
    have least : 4096 + PBKDF2P_LEN ≤ largeFile := by decide
    omega
  have next : nextHashSize filesize 0 true = 4096 := by
    rw [size, page]
    rfl
  obtain ⟨after, reply, stands'⟩ := (stands.setPos 0 (by decide)).read 4096
    (by decide) (by omega)
  have length : (window data 0 4096).length = 4096 := by
    rw [Overlay.length_window]
    omega
  rw [hashFile, stands.getSize, ← size, if_neg few, calFileSHA256Value, stands.getSize, ← size]
  rw [calFileLoop, if_neg Bool.false_ne_true, next, reply]
  dsimp only
  rw [length, if_neg (fun full => absurd full.1 (by decide))]
  refine ⟨_, rfl, ?_⟩
  rw [absorbWhole_read, absorbWhole_file, length]
  exact ⟨_, stands'.setPos _ (by show 0 + 4096 ≠ _; decide)⟩

/-- An image of one page gets its check value. -/
theorem calculateFileCheckValue_page (c : CheckHash) (page : data.length = 4096) :
    ∃ r, calculateFileCheckValue c {} { backend := .fat, last := data, whole := nofun } = some r
      ∧ r.ok = true := by
  have pages : data.length % 4096 = 0 := by rw [page]
  have fits : data.length < MAX_FAT_FILE := by
    rw [page]
    decide
  have header : data ≠ [] := List.ne_nil_of_length_pos (by rw [page]; decide)
  -- the stages of the source in turn: zeros, the hash, the salt, the value itself
  obtain ⟨opened, written, stands⟩ := saveZeroData_sealed pages fits
  obtain ⟨s, hashed, sealed⟩ := hashFile_page (c := c) page stands
  obtain ⟨salt, found⟩ := getSaltValue_check pages fits header
  obtain ⟨after, salted, sealed'⟩ := found sealed
  obtain ⟨last, saved⟩ := saveFileCheckValue_sealed pages fits sealed'
    (c.pbkdf2_length (c.sha256 s.ctx) salt.1 (3000 + salt.2))
  rw [calculateFileCheckValue]
  dsimp only
  rw [written]
  dsimp only
  rw [storeCheckValue, calCheckValue]
  dsimp only [hashSegments, ImageFiles.fileNumber, List.length_nil]
  rw [hashed]
  dsimp only
  rw [salted]
  dsimp only
  rw [saved]
  exact ⟨_, rfl, rfl⟩

/-- The check value of one page of sevens is found valid. -/
theorem validImage_calculated_page :
    ∃ r, calculateFileCheckValue threeBytesHash {}
        { backend := .fat, last := List.replicate 4096 7, whole := nofun } = some r
      ∧ validImageCheckValue threeBytesHash {} r.onFat = some true := by
  have length : (List.replicate 4096 (7 : UInt8)).length = 4096 := List.length_replicate
  obtain ⟨r, result, ok⟩ := calculateFileCheckValue_page threeBytesHash length
  have some_ : List.replicate 4096 (7 : UInt8) ≠ [] :=
    List.ne_nil_of_length_pos (by rw [length]; decide)
  have answered : CheckEnv.Answered {} := ⟨rfl, fun _ => rfl, rfl⟩
  have valid := validImage_calculated rfl answered answered (fun _ _ => rfl) (by rw [length])
    (by rw [length]; decide) (fun _ => some_) result ok
  exact ⟨r, result, valid.1⟩

end Okr
