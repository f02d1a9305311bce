import Okr.Proofs.CheckDigest

/-! The check value of an image on a FAT volume. -/

namespace Okr

open Overlay (window)

/-- Reading through the firmware changes no byte of the file. -/
theorem efiRead_data (f : FatFile) (size : Nat) : (efiRead f size).2.data = f.data := by
  simp only [efiRead, f.nextFault_eq]
  split <;> rfl

/-- The loop of `SegFileRead` changes no byte of the file. -/
theorem segReadLoop_data (fuel : Nat) :
    ∀ (size : Nat) (out : Bytes) (f : FatFile), (segReadLoop fuel size out f).2.data = f.data := by
  induction fuel with
  | zero => exact fun _ _ _ => rfl
  | succ fuel ih =>
    intro size out f
    rw [segReadLoop]
    split
    · rfl
    · have piece := efiRead_data f (min MY_DEFINE_BUFFER_SIZE (size - out.length))
      split <;> rename_i read <;> rw [read] at piece
      · exact piece
      · exact (ih _ _ _).trans piece

/-- `SegFileRead` changes no byte of the file. -/
theorem segFileRead_data (f : FatFile) (size : Nat) : (segFileRead f size).2.data = f.data := by
  unfold segFileRead
  split
  · have piece := efiRead_data f size
    split <;> rename_i read <;> rw [read] at piece <;> exact piece
  · exact segReadLoop_data _ _ _ _

/-- A file on a FAT volume that stores these bytes. -/
def OnFat (data : Bytes) (file : OpenFile) : Prop :=
  ∃ f, file = .fat f ∧ f.data = data

/-- Seeking keeps what a FAT volume stores. -/
theorem OnFat.setPos {data : Bytes} {file : OpenFile} (pos : Nat) (onFat : OnFat data file) :
    OnFat data (file.setPos pos) := by
  obtain ⟨f, rfl, same⟩ := onFat
  exact ⟨_, rfl, same⟩

/-- Reading keeps what a FAT volume stores. -/
theorem OnFat.read {data : Bytes} {file : OpenFile} (size : Nat) (onFat : OnFat data file) :
    OnFat data (file.read size).2 := by
  obtain ⟨f, rfl, same⟩ := onFat
  exact ⟨_, rfl, (segFileRead_data f size).trans same⟩

/-- Taking the salt keeps what a FAT volume stores. -/
theorem OnFat.salt {data : Bytes} {file after : OpenFile} {salt : Bytes × Nat}
    (onFat : OnFat data file) (result : getSaltValue file = some (some salt, after)) :
    OnFat data after := by
  obtain ⟨bytes₁, bytes₂, mid, first, second⟩ := getSaltValue_some result
  have onMid : OnFat data mid := by
    have read := (onFat.setPos (file.getSize / 2)).read SALT_LEN
    rw [first] at read
    exact read
  have read := (onMid.setPos (file.getSize / 3)).read 4
  rw [second] at read
  exact read

/-- Hashing keeps what a FAT volume stores. -/
theorem OnFat.hash {data : Bytes} {c : CheckHash} {breaks : Nat → Bool} {check : Bool}
    {fileNumber : Nat} {file : OpenFile} {ctx : Bytes} {ok : Bool} {s : HashState}
    (onFat : OnFat data file) (result : hashFile c breaks check fileNumber file ctx = some (ok, s)) :
    OnFat data s.file :=
  hashFile_preserves (OnFat data) (fun _ pos inv => inv.setPos pos)
    (fun _ pos size inv _ => (inv.setPos pos).read size) (fun _ _ size inv => inv.read size) onFat
    result

/-- Closing a file on a FAT volume stores what it had. -/
theorem OnFat.close {data : Bytes} {file : OpenFile} (onFat : OnFat data file) :
    file.close = data := by
  obtain ⟨f, rfl, same⟩ := onFat
  exact same

/-- The segments before the last are left as they were. -/
theorem hashSegments_fat {c : CheckHash} {env : CheckEnv} {fileNumber : Nat} (segments : List Bytes) :
    ∀ (i : Nat) (ctx ctx' : Bytes) (ok : Bool) (after : List Bytes),
      hashSegments c env .fat fileNumber i segments ctx = some (ok, ctx', after) →
      after = segments := by
  induction segments with
  | nil =>
    intro i ctx ctx' ok after result
    simp only [hashSegments, Option.some.injEq, Prod.mk.injEq] at result
    exact result.2.2.symm
  | cons data rest ih =>
    intro i ctx ctx' ok after result
    have opened : OnFat data (openFile .fat data (env.hashed i)) := ⟨_, rfl, rfl⟩
    simp only [hashSegments] at result
    split at result
    · simp at result
    · rename_i s hashed
      simp only [Option.some.injEq, Prod.mk.injEq] at result
      rw [← result.2.2, (opened.hash hashed).close]
    · rename_i s hashed
      split at result
      · simp at result
      · rename_i ok' ctx'' rest' more
        simp only [Option.some.injEq, Prod.mk.injEq] at result
        rw [← result.2.2, (opened.hash hashed).close, ih _ _ _ _ _ more]

/-- A write through the firmware lays over the file what its fault lets through. -/
theorem efiWrite_data (f : FatFile) (buffer : Bytes) :
    (efiWrite f buffer).2.data
      = if MAX_FAT_FILE ≤ f.pos + buffer.length then f.data
        else Overlay.write 0 f.data f.pos
          (buffer.take (storedUnder (f.faults.headD none) buffer.length)) := by
  simp only [efiWrite, f.nextFault_eq]
  split
  · rfl
  · rcases f.faults.headD none with - | - | n
    · simp only [storedUnder, List.take_length]
    · simp only [storedUnder, List.take_zero, Overlay.write_nil]
    · simp only [storedUnder]
      rw [List.take_eq_take_iff.mpr (by omega : min n buffer.length = min (min n buffer.length) buffer.length)]

/-- A write the firmware reports as done met no fault and ends below the largest size. -/
theorem efiWrite_done {f : FatFile} {buffer : Bytes} (done : (efiWrite f buffer).1 = true) :
    f.pos + buffer.length < MAX_FAT_FILE
      ∧ (efiWrite f buffer).2.data = Overlay.write 0 f.data f.pos buffer := by
  simp only [efiWrite, f.nextFault_eq] at done ⊢
  split at done
  · simp at done
  · rename_i fits
    rw [if_neg fits]
    refine ⟨by omega, ?_⟩
    rcases fault : f.faults.headD none with - | - | n
    · rfl
    · simp only [fault, Bool.false_eq_true] at done
    · simp only [fault, Bool.false_eq_true] at done

/-- What the placeholder leaves on a FAT volume. -/
theorem saveZeroData_fat (data : Bytes) (faults : List (Option Fault))
    (stored : data.length < MAX_OFFSET) :
    OnFat (data ++ placeholder.take (placeholderWritten faults data.length))
      (saveZeroData (openFile .fat data faults)).2 := by
  -- The position is the end of the file, far from the number that stands for it.
  have far : data.length ≠ 2 ^ 64 - 1 := by simp only [MAX_OFFSET] at stored; omega
  have length : placeholder.length = PBKDF2P_LEN := rfl
  refine ⟨(efiWrite { data := data, pos := data.length, faults := faults } placeholder).2, ?_, ?_⟩
  · simp only [saveZeroData, openFile, OpenFile.setPos, OpenFile.getSize, OpenFile.data,
      efiSetPosition, if_neg far, OpenFile.write, segFileWrite, length]
    rfl
  · rw [efiWrite_data]
    simp only [placeholderWritten, length]
    split
    · rw [List.take_zero, List.append_nil]
    · exact Overlay.write_end 0 data _

/-- Where the check value goes on a FAT volume that reports this size; 31 stands for the end. -/
def valuePos (size : Nat) : Nat :=
  if size = 31 then 31 else size - PBKDF2P_LEN

/-- A check value written on a FAT volume went over the last 32 bytes, or behind 31. -/
theorem saveFileCheckValue_fat {data value : Bytes} {file : OpenFile} (onFat : OnFat data file)
    (length : value.length = PBKDF2P_LEN) (stored : data.length < 2 ^ 64 - 1)
    (done : (saveFileCheckValue file value).1 ≠ .failed) :
    (data.length = 0 ∨ 31 ≤ data.length)
      ∧ (saveFileCheckValue file value).2.close
        = Overlay.write 0 data (valuePos data.length) value := by
  obtain ⟨f, rfl, rfl⟩ := onFat
  -- The position the firmware is asked for, and the one it makes of it.
  obtain ⟨asked, askedEq⟩ : ∃ asked, asked
      = if f.data.length > 0 then sub64 f.data.length SALT_LEN else f.data.length := ⟨_, rfl⟩
  obtain ⟨pos, posEq⟩ : ∃ pos, pos
      = if asked = 2 ^ 64 - 1 then f.data.length else asked := ⟨_, rfl⟩
  have small : value.length < MY_DEFINE_BUFFER_SIZE := by rw [length]; decide
  have written : saveFileCheckValue (.fat f) value
      = ((if (efiWrite { f with pos := pos } value).1 then .wrote value.length else .failed),
          .fat (efiWrite { f with pos := pos } value).2) := by
    rw [posEq, askedEq]
    simp only [saveFileCheckValue, OpenFile.getSize, OpenFile.data, OpenFile.setPos,
      efiSetPosition, OpenFile.write, segFileWrite, if_pos small]
    rfl
  rw [written] at done ⊢
  have success : (efiWrite { f with pos := pos } value).1 = true := by
    by_contra failed
    simp only [if_neg failed] at done
    exact absurd rfl done
  obtain ⟨reach, result⟩ := efiWrite_done success
  -- A size from 1 to 30 wraps to a position no FAT file reaches.
  have place : (f.data.length = 0 ∨ 31 ≤ f.data.length) ∧ pos = valuePos f.data.length := by
    simp only [valuePos, PBKDF2P_LEN, SALT_LEN, sub64, MAX_FAT_FILE, length] at reach askedEq ⊢
    split at askedEq <;> split at posEq <;> split <;> omega
  rw [← place.2]
  exact ⟨place.1, result⟩

/-- What a check value reported as made left: the segments as they were, and the value in its place. -/
theorem calculated_onFat {c : CheckHash} {env : CheckEnv} {img : ImageFiles} {r : CheckResult}
    (fat : img.backend = .fat) (stored : img.last.length < MAX_OFFSET)
    (result : calculateFileCheckValue c env img = some r) (ok : r.ok = true) :
    r.first = img.first ∧ r.value.length = PBKDF2P_LEN ∧ ∃ file,
      OnFat (img.last ++ placeholder.take (placeholderWritten env.last img.last.length)) file
        ∧ (saveFileCheckValue file r.value).1 ≠ .failed
        ∧ r.last = (saveFileCheckValue file r.value).2.close := by
  obtain ⟨file, computed, done, last⟩ := calculateFileCheckValue_ok result ok
  rw [fat] at computed
  obtain ⟨length, ctx, first, s, salt, hashed, whole, salted⟩ := calCheckValue_some computed
  rw [fat] at hashed salted
  refine ⟨?_, length, file, ?_, done, last⟩
  · -- The segments before the last are only read.
    have same := hashSegments_fat img.first _ _ _ _ _ hashed
    rcases salted with ⟨none_, none_', -⟩ | ⟨data, rest, seg, some_, some_', -, found⟩
    · rw [none_', ← same, none_]
    · have opened : OnFat data (openFile .fat data env.salted) := ⟨_, rfl, rfl⟩
      rw [some_', ← same, some_, (opened.salt found).close]
  · -- The last segment holds what the placeholder left until the value is written.
    have hashed' := (saveZeroData_fat img.last env.last stored).hash whole
    rcases salted with ⟨-, -, found⟩ | ⟨-, -, -, -, -, same, -⟩
    · exact hashed'.salt found
    · rw [same]
      exact hashed'

/-- The placeholder is stored in part at most. -/
theorem placeholderWritten_le (faults : List (Option Fault)) (size : Nat) :
    placeholderWritten faults size ≤ PBKDF2P_LEN := by
  rw [placeholderWritten]
  split
  · exact Nat.zero_le _
  · exact storedUnder_le _ _

/-- On a FAT volume the check value is appended exactly when the placeholder left room for it. -/
theorem checkValue_fat {c : CheckHash} {env : CheckEnv} {img : ImageFiles} {r : CheckResult}
    (fat : img.backend = .fat) (stored : img.last.length < MAX_OFFSET)
    (result : calculateFileCheckValue c env img = some r) (ok : r.ok = true) :
    CheckAppended img r ↔ CheckSafe env img := by
  obtain ⟨segments, length, file, held, done, last⟩ := calculated_onFat fat stored result ok
  let written := placeholderWritten env.last img.last.length
  have fits : written ≤ PBKDF2P_LEN := placeholderWritten_le _ _
  have size : (img.last ++ placeholder.take written).length = img.last.length + written := by
    have whole : placeholder.length = PBKDF2P_LEN := rfl
    rw [List.length_append, List.length_take, whole]
    omega
  have saved := saveFileCheckValue_fat held length
    (by rw [size]; simp only [MAX_OFFSET, PBKDF2P_LEN] at stored fits; omega) done
  rw [size] at saved
  have appended : CheckAppended img r ↔ r.last = img.last ++ r.value :=
    ⟨fun all => all.1, fun last => ⟨last, length, segments⟩⟩
  rw [appended, last, saved.2]
  simp only [CheckSafe, fat]
  show _ ↔ written = PBKDF2P_LEN ∨ (written = 0 ∧ (img.last.length = 0 ∨ img.last.length = 31))
  constructor
  · -- The lengths alone decide: the value ends at the end of the file or 32 bytes behind it.
    intro same
    have lengths := congrArg List.length same
    have some_ : r.value ≠ [] := by
      intro empty
      rw [empty] at length
      exact absurd length (by decide)
    rw [Overlay.length_write _ _ _ some_, size, List.length_append, length] at lengths
    simp only [valuePos, PBKDF2P_LEN] at lengths fits ⊢
    split at lengths <;> omega
  · intro room
    have place : valuePos (img.last.length + written) = img.last.length := by
      simp only [valuePos, PBKDF2P_LEN] at room ⊢
      split <;> omega
    rw [place]
    refine Overlay.write_tail 0 img.last ?_
    rw [List.length_take, length]
    omega

end Okr
