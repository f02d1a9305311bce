import Okr.Proofs.CheckFat
import Okr.Proofs.CheckNtfs

/-! When a check value is appended and leaves the image's own bytes alone. -/

namespace Okr

/--
A check value reported as made is appended, whatever the digests, exactly when the state was safe.

What is known of the digests is the length of the value; the segments before the last never change.
-/
theorem checkValue_appended (env : CheckEnv) (img : ImageFiles)
    (stored : img.last.length < MAX_OFFSET)
    (succeeds : ∃ c r, calculateFileCheckValue c env img = some r ∧ r.ok = true) :
    (∀ c r, calculateFileCheckValue c env img = some r → r.ok = true → CheckAppended img r)
      ↔ CheckSafe env img := by
  cases backend : img.backend with
  | fat =>
    constructor
    · intro appended
      obtain ⟨c, r, result, ok⟩ := succeeds
      exact (checkValue_fat backend stored result ok).mp (appended c r result ok)
    · intro safe c r result ok
      exact (checkValue_fat backend stored result ok).mpr safe
  | ntfs =>
    by_cases empty : img.last = []
    · exact checkValue_empty backend empty succeeds
    · -- With bytes in the segment nothing is ever appended, and the condition fails too.
      obtain ⟨c, r, result, ok⟩ := succeeds
      constructor
      · intro appended
        have same := checkValue_ntfs backend stored empty result ok
        obtain ⟨last, length, -⟩ := appended c r result ok
        rw [last, List.length_append, length] at same
        simp only [PBKDF2P_LEN] at same
        omega
      · intro safe
        simp only [CheckSafe, backend] at safe
        exact absurd safe.1 empty

/-- SHA-256 and PBKDF2 at the messages the check value of the bytes 1, 2, 3 asks them about. -/
def threeBytesHash : CheckHash where
  sha256 := fun message =>
    if message = [1, 2, 3] then
      [3, 144, 88, 198, 242, 192, 203, 73, 44, 83, 59, 10, 77, 20, 239, 119, 204, 15, 120, 171, 204,
        206, 213, 40, 125, 132, 161, 162, 1, 28, 251, 129]
    else
      [25, 198, 25, 126, 33, 64, 185, 208, 52, 251, 32, 185, 172, 123, 183, 83, 164, 18, 51, 202,
        241, 225, 218, 253, 167, 49, 106, 153, 206, 244, 20, 22]
  pbkdf2 := fun _ _ _ =>
    [237, 13, 201, 199, 35, 172, 177, 233, 101, 242, 0, 132, 114, 116, 212, 196, 147, 193, 204, 40,
      8, 89, 130, 0, 86, 252, 232, 101, 198, 98, 135, 102]
  pbkdf2_length := fun _ _ _ => rfl

/-- What making a check value leaves of a segment of three bytes on a FAT volume. -/
def threeBytesResult : CheckResult :=
  { ok := true
    first := []
    last := [1, 2, 3] ++ threeBytesHash.pbkdf2 [] [] 0
    value := threeBytesHash.pbkdf2 [] [] 0 }

/-- With every call answered, the value is appended to the three bytes. -/
theorem checkValue_appended_threeBytes :
    CheckAppended { backend := .fat, last := [1, 2, 3], whole := nofun } threeBytesResult :=
  have made : calculateFileCheckValue threeBytesHash {}
      { backend := .fat, last := [1, 2, 3], whole := nofun } = some threeBytesResult := by
    decide +kernel
  (checkValue_appended {} { backend := .fat, last := [1, 2, 3], whole := nofun } (by decide)
    ⟨threeBytesHash, threeBytesResult, made, rfl⟩).mpr (Or.inl rfl) threeBytesHash threeBytesResult
    made rfl

/-- SHA-256 and PBKDF2 at the messages the check value of forty sevens asks them about. -/
def fortySevensHash : CheckHash where
  sha256 := fun message =>
    if message = List.replicate 8 7 then
      [129, 220, 190, 207, 136, 211, 93, 130, 128, 150, 223, 217, 249, 178, 75, 37, 47, 144, 234, 20,
        82, 157, 97, 152, 115, 79, 86, 43, 92, 86, 199, 5]
    else
      [206, 123, 136, 241, 33, 93, 168, 204, 207, 58, 133, 186, 158, 75, 210, 42, 95, 27, 25, 137,
        220, 215, 215, 105, 117, 255, 113, 111, 185, 96, 236, 62]
  pbkdf2 := fun _ _ _ =>
    [15, 39, 165, 155, 162, 73, 158, 177, 215, 103, 211, 11, 194, 248, 151, 35, 104, 228, 189, 217,
      99, 168, 93, 183, 4, 205, 167, 111, 117, 235, 69, 31]
  pbkdf2_length := fun _ _ _ => rfl

/-- On an NTFS volume the check value of a segment of forty bytes goes over its last 32. -/
theorem checkValue_overwrites :
    ¬ ∀ (c : CheckHash) (env : CheckEnv) (img : ImageFiles) (r : CheckResult),
        calculateFileCheckValue c env img = some r → r.ok = true → CheckAppended img r := by
  intro appended
  let value := fortySevensHash.pbkdf2 [] [] 0
  let img : ImageFiles := { backend := .ntfs, last := List.replicate 40 7, whole := fun _ => rfl }
  let r : CheckResult :=
    { ok := true, first := [], last := List.replicate 8 7 ++ value, value := value }
  have made : calculateFileCheckValue fortySevensHash {} img = some r := by decide +kernel
  have lengths := congrArg List.length (appended fortySevensHash {} img r made rfl).1
  exact absurd lengths (by decide)

end Okr
