import Okr.Backup.Cleanup
import Okr.Proofs.OneStream

/-! When the clean-up of a failed backup leaves no file of the image behind. -/

namespace Okr

/-! ### What the writes leave -/

/-- The segments in front of the current one are stored, and none behind it is. -/
structure SegFile.Grown (f : SegFile) : Prop where
  before : ∀ k < f.currentfileseg, (f.volume k).isSome = true
  behind : ∀ k > f.currentfileseg, f.volume k = none

variable {f : SegFile} {w : BackupWrite}

/-- Closing stores the open segment and keeps the others. -/
theorem close_volume (f : SegFile) (k : Nat) :
    f.close.volume k =
      if k = f.currentfileseg then
        (match f.opened with
          | none => f.volume k
          | some file => some file.close)
      else f.volume k := by
  rw [SegFile.close]
  cases opened : f.opened with
  | none =>
    dsimp only
    split <;> rfl
  | some file => rfl

/-- Closing keeps the count of segments. -/
theorem close_current (f : SegFile) : f.close.currentfileseg = f.currentfileseg := by
  rw [SegFile.close]
  cases f.opened <;> rfl

/-- Closing keeps the kind of volume, and whether the file goes on in further segments. -/
theorem close_kind (f : SegFile) : f.close.backend = f.backend ∧ f.close.ifneedseg = f.ifneedseg := by
  rw [SegFile.close]
  cases f.opened <;> exact ⟨rfl, rfl⟩

/-- A write that succeeds has an open segment to go to. -/
theorem writeOpen_wrote {buffer : Bytes} {n : Nat} (wrote : (f.writeOpen buffer).1 = .wrote n) :
    ∃ file, f.writeOpen buffer = (.wrote n, { f with opened := some file }) := by
  rw [SegFile.writeOpen] at wrote ⊢
  cases opened : f.opened with
  | none =>
    rw [opened] at wrote
    cases wrote
  | some file =>
    rw [opened] at wrote
    dsimp only at wrote ⊢
    exact ⟨_, Prod.ext wrote rfl⟩

/-- A write to the open segment changes nothing but what is open. -/
theorem writeOpen_frame (f : SegFile) (buffer : Bytes) :
    ∃ opened, (f.writeOpen buffer).2 = { f with opened := opened } := by
  rw [SegFile.writeOpen]
  cases opened : f.opened with
  | none =>
    refine ⟨none, ?_⟩
    dsimp only
    rw [← opened]
  | some file => exact ⟨_, rfl⟩

/-- The open segment after a write that went well. -/
def SegFile.wroteTo (f : SegFile) (file : OpenFile) (n : Nat) : SegFile :=
  { f with opened := some file, currentfilesize := f.currentfilesize + n }

/--
What `FileWrite` does with the segments, apart from the bytes of the open one.

It fails in its segment, or stays in it, or goes on to the next one, which the volume may refuse.
-/
inductive Writes (f : SegFile) (n : Nat) (refused : Bool) : Bool × SegFile → Prop where
  | fails (opened : Option OpenFile) : Writes f n refused (false, { f with opened := opened })
  | stays (file : OpenFile) (light : ¬(f.ifneedseg = true ∧ SPLIT_SIZE < f.currentfilesize + n)) :
      Writes f n refused (true, f.wroteTo file n)
  | crosses (file : OpenFile) (segmented : f.ifneedseg = true) (heavy : SPLIT_SIZE < f.currentfilesize + n) :
      Writes f n refused
        (!refused, ({ (f.wroteTo file n).close with currentfilesize := 0 } : SegFile).openCreate
          (f.currentfileseg + 1) refused)

/-- `FileWrite` does one of these. -/
theorem fileWrite_writes (f : SegFile) (buffer : Bytes) (refused : Bool) :
    Writes f buffer.length refused (fileWrite f buffer refused) := by
  obtain ⟨opened, frame⟩ := writeOpen_frame f buffer
  rw [fileWrite]
  -- Only a write that was answered can go on in the next segment.
  cases reply : (f.writeOpen buffer).1 with
  | wrote n =>
    obtain ⟨file, eq⟩ := writeOpen_wrote reply
    rw [eq]
    dsimp only
    split
    · exact .fails (some file)
    · next whole =>
      have whole : n = buffer.length := by
        by_contra other
        exact whole other
      rw [whole]
      split
      · next both =>
        have result : Writes f buffer.length refused _ := Writes.crosses file both.1 both.2
        cases refused with
        | true => exact result
        | false => exact result
      · next light => exact .stays file light
  | _ =>
    -- With any other answer the write fails, and the open file alone may have changed.
    have eq : f.writeOpen buffer = (_, { f with opened := opened }) := Prod.ext reply frame
    rw [eq]
    exact .fails opened

/-- Creating the next segment leaves the others as they are. -/
theorem openCreate_volume (f : SegFile) (refused : Bool) {k n : Nat} (other : k ≠ n) :
    (f.openCreate n refused).volume k = f.volume k := by
  rw [SegFile.openCreate]
  split
  · rfl
  · dsimp only
    rw [storeSegment, if_neg other]

/-- The handle is on the segment that was to be created. -/
theorem openCreate_current (f : SegFile) (refused : Bool) (n : Nat) :
    (f.openCreate n refused).currentfileseg = n := by
  rw [SegFile.openCreate]
  split <;> rfl

variable {n : Nat} {refused : Bool} {r : Bool × SegFile}

/-- One write keeps the segments in order. -/
theorem Writes.grown (writes : Writes f n refused r) (grown : f.Grown) : r.2.Grown := by
  cases writes with
  | fails opened => exact ⟨grown.before, grown.behind⟩
  | stays file light => exact ⟨grown.before, grown.behind⟩
  | crosses file segmented heavy =>
    dsimp only
    generalize crossed : ({ (f.wroteTo file n).close with currentfilesize := 0 } : SegFile) = g
    have volume : ∀ k, g.volume k
        = if k = f.currentfileseg then some file.close else f.volume k := by
      intro k
      rw [← crossed]
      exact close_volume (f.wroteTo file n) k
    constructor
    · intro k before
      rw [openCreate_current] at before
      rw [openCreate_volume g refused (by omega), volume]
      split
      · rfl
      · exact grown.before k (by omega)
    · intro k behind
      rw [openCreate_current] at behind
      rw [openCreate_volume g refused (by omega), volume, if_neg (by omega)]
      exact grown.behind k (by omega)

/-- Faults are none of the segments. -/
theorem SegFile.Grown.withFaults (grown : f.Grown) (faults : List (Option Fault)) :
    (f.withFaults faults).Grown :=
  ⟨grown.before, grown.behind⟩

/-- The writes of a backup keep the segments in order. -/
theorem backupWrites_grown (writes : List BackupWrite) :
    ∀ f : SegFile, f.Grown → (backupWrites f writes).2.Grown := by
  induction writes with
  | nil => exact fun _ grown => grown
  | cons w writes ih =>
    intro f grown
    have next := (fileWrite_writes (f.withFaults w.faults) w.buffer w.refused).grown
      (grown.withFaults w.faults)
    rw [backupWrites]
    generalize fileWrite (f.withFaults w.faults) w.buffer w.refused = result at next
    obtain ⟨ok, g⟩ := result
    cases ok with
    | false => exact next
    | true => exact ih g next

/-- A file just created is the only one. -/
theorem createImage_grown (backend : Backend) : (createImage backend).Grown := by
  constructor
  · intro k before
    exact absurd before (Nat.not_lt_zero k)
  · intro k behind
    have other : k ≠ 0 := by
      have positive : 0 < k := behind
      omega
    exact openCreate_volume _ false other

/-! ### One segment, or more -/

/-- The first segment is being written, with so much in it, or a later one is. -/
structure SegFile.Sized (f : SegFile) (backend : Backend) (total : Nat) : Prop where
  segmented : f.ifneedseg = (backend == .fat)
  opened : f.opened.isSome = true
  size : (f.currentfileseg = 0 ∧ f.currentfilesize = total
      ∧ (backend = .fat → total ≤ SPLIT_SIZE))
    ∨ (0 < f.currentfileseg ∧ backend = .fat ∧ SPLIT_SIZE < total)

variable {backend : Backend} {total : Nat}

/-- A write that succeeds adds to the first segment, or goes on behind it. -/
theorem Writes.sized (writes : Writes f n refused r) (sized : f.Sized backend total) (ok : r.1 = true) :
    r.2.Sized backend (total + n) := by
  -- The first segment has all bytes until a write comes to its end.
  cases writes with
  | fails opened => cases ok
  | stays file light =>
    refine ⟨sized.segmented, rfl, ?_⟩
    cases sized.size with
    | inl first =>
      obtain ⟨current, size, -⟩ := first
      refine Or.inl ⟨current, by rw [← size]; rfl, fun fat => ?_⟩
      by_contra heavy
      apply light
      rw [sized.segmented, size, fat]
      exact ⟨rfl, by omega⟩
    | inr later =>
      obtain ⟨current, fat, heavy⟩ := later
      exact Or.inr ⟨current, fat, by omega⟩
  | crosses file segmented heavy =>
    have goes : refused = false := by
      cases refused with
      | false => rfl
      | true => cases ok
    rw [goes]
    have fat : backend = .fat := by
      rw [sized.segmented] at segmented
      cases backend with
      | ntfs => cases segmented
      | fat => rfl
    have kept : (f.wroteTo file n).close.ifneedseg = f.ifneedseg := (close_kind _).2
    refine ⟨?_, ?_, Or.inr ⟨?_, fat, ?_⟩⟩
    · rw [SegFile.openCreate, if_neg Bool.false_ne_true]
      exact kept.trans sized.segmented
    · rw [SegFile.openCreate, if_neg Bool.false_ne_true]
      rfl
    · dsimp only
      rw [openCreate_current]
      exact Nat.succ_pos _
    · cases sized.size with
      | inl first =>
        obtain ⟨-, size, -⟩ := first
        omega
      | inr later =>
        obtain ⟨-, -, heavy⟩ := later
        omega

/-- Faults change nothing of the sizes. -/
theorem SegFile.Sized.withFaults (sized : f.Sized backend total) (faults : List (Option Fault)) :
    (f.withFaults faults).Sized backend total := by
  refine ⟨sized.segmented, ?_, sized.size⟩
  rw [SegFile.withFaults, Option.isSome_map]
  exact sized.opened

/-- The size of some writes together. -/
def writesSize (writes : List BackupWrite) : Nat := (writes.map (·.buffer.length)).sum

/-- Writes that all succeed are in one segment as long as they do not exceed the limit. -/
theorem backupWrites_sized (writes : List BackupWrite) :
    ∀ (f : SegFile) (total : Nat), f.Sized backend total → (backupWrites f writes).1 = true →
      (backupWrites f writes).2.Sized backend (total + writesSize writes) := by
  induction writes with
  | nil =>
    intro f total sized _
    exact sized
  | cons w writes ih =>
    intro f total sized done
    have next := (fileWrite_writes (f.withFaults w.faults) w.buffer w.refused).sized
      (sized.withFaults w.faults)
    rw [backupWrites] at done ⊢
    generalize fileWrite (f.withFaults w.faults) w.buffer w.refused = result at next done ⊢
    obtain ⟨ok, g⟩ := result
    cases ok with
    | false => cases done
    | true =>
      have rest := ih g _ (next rfl) done
      rw [writesSize, List.map_cons, List.sum_cons, ← Nat.add_assoc]
      exact rest

/-- A file just created has nothing in it. -/
theorem createImage_sized (backend : Backend) : (createImage backend).Sized backend 0 :=
  ⟨rfl, rfl, Or.inl ⟨rfl, rfl, fun _ => Nat.zero_le _⟩⟩

/-! ### The clean-up -/

/-- The clean-up deletes the first segments, as many as the 16-bit count tells. -/
theorem deleteImage_eq (volume : Nat → Option Bytes) (current : Nat) :
    deleteImage volume current =
      if current % 2 ^ 16 = 2 ^ 16 - 1 then none
      else some fun k => if k ≤ current % 2 ^ 16 then none else volume k := by
  rw [deleteImage]
  generalize current % 2 ^ 16 = count
  split
  · rfl
  · congr 1
    -- Every pass deletes one segment more.
    have loop : ∀ m, (List.range m).foldl (fun volume i => deleteSegment volume (i + 1))
        (deleteSegment volume 0) = fun k => if k ≤ m then none else volume k := by
      intro m
      induction m with
      | zero =>
        funext k
        rw [List.range_zero, List.foldl_nil, deleteSegment, storeSegment]
        by_cases first : k = 0
        · rw [if_pos first, if_pos (by omega)]
        · rw [if_neg first, if_neg (by omega)]
      | succ m ih =>
        funext k
        rw [List.range_succ, List.foldl_append, ih, List.foldl_cons, List.foldl_nil, deleteSegment,
          storeSegment]
        by_cases last : k = m + 1
        · rw [if_pos last, if_pos (by omega)]
        · rw [if_neg last]
          by_cases inside : k ≤ m
          · rw [if_pos inside, if_pos (by omega)]
          · rw [if_neg inside, if_neg (by omega)]
    exact loop count

/-- What is in use after the clean-up of the first segment alone. -/
theorem backupDone_first {ret : Int} {volume : Nat → Option Bytes} {result : Int × (Nat → Option Bytes)}
    (done : backupDone ret f = some result) (failed : result.1 < 0) (first : f.currentfileseg = 0)
    (same : ∀ k, 0 < k → (f.close.volume k = none ↔ volume k = none)) :
    (∀ k, result.2 k = none) ↔ ∀ k, 0 < k → volume k = none := by
  rw [backupDone] at done
  split at done
  · rw [deleteImage_eq, first, Nat.zero_mod, if_neg (by decide), Option.map_some] at done
    cases done
    dsimp only
    constructor
    · intro clear k positive
      have gone := clear k
      rw [if_neg (by omega)] at gone
      exact (same k positive).mp gone
    · intro clear k
      split
      · rfl
      · next behind =>
        have positive : 0 < k := by omega
        exact (same k positive).mpr (clear k positive)
  · next passed =>
    cases done
    exact absurd failed passed

/-- Segments that are all there are each there. -/
theorem segmentsOf_some {volume : Nat → Option Bytes} (count : Nat) :
    ∀ {front : List Bytes}, segmentsOf volume count = some front → ∀ k < count, volume k ≠ none := by
  induction count with
  | zero =>
    intro front _ k below
    exact absurd below (Nat.not_lt_zero k)
  | succ count ih =>
    intro front all k below
    rw [segmentsOf] at all
    split at all
    · next front' data before last =>
      by_cases this : k = count
      · rw [this, last]
        exact Option.some_ne_none data
      · exact ih before k (by omega)
    · cases all

/-- Making a check value neither creates nor deletes a file. -/
theorem calculateOnVolume_names {c : CheckHash} {env : CheckEnv} {backend : Backend}
    {volume volume' : Nat → Option Bytes} {fileNumber : Nat} {ok : Bool}
    (made : calculateOnVolume c env backend volume fileNumber = some (ok, volume')) (k : Nat) :
    volume' k = none ↔ volume k = none := by
  rw [calculateOnVolume] at made
  split at made
  · next last front lastThere frontThere =>
    obtain ⟨r, -, eq⟩ := Option.map_eq_some_iff.mp made
    have same : storeResult volume fileNumber r = volume' := congrArg Prod.snd eq
    rw [← same, storeResult]
    split
    · next this =>
      rw [this, lastThere]
      exact ⟨fun none_ => (Option.some_ne_none _ none_).elim, fun none_ => (Option.some_ne_none _ none_).elim⟩
    · split
      · next before =>
        have there := segmentsOf_some _ frontThere k before
        split
        · exact ⟨fun none_ => (Option.some_ne_none _ none_).elim, fun none_ => absurd none_ there⟩
        · exact Iff.rfl
      · exact Iff.rfl
  · cases made
    exact Iff.rfl

/-- Rewriting the header in the first segment neither creates nor deletes another one. -/
theorem headerWrite_names {volume : Nat → Option Bytes} {g : SegFile} (current : g.currentfileseg = 0)
    (plain : g.ifneedseg = false) (same : g.volume = volume) (buffer : Bytes) (refused : Bool) :
    (fileWrite g buffer refused).2.currentfileseg = 0
      ∧ ∀ k, 0 < k → (fileWrite g buffer refused).2.close.volume k = volume k := by
  have writes := fileWrite_writes g buffer refused
  generalize fileWrite g buffer refused = result at writes
  cases writes with
  | fails opened =>
    refine ⟨current, fun k later => ?_⟩
    rw [close_volume, if_neg]
    · exact congrFun same k
    · change k ≠ g.currentfileseg
      omega
  | stays file light =>
    refine ⟨current, fun k later => ?_⟩
    rw [close_volume, if_neg]
    · exact congrFun same k
    · change k ≠ g.currentfileseg
      omega
  | crosses file segmented heavy =>
    rw [plain] at segmented
    cases segmented

/-! ### A whole backup -/

/--
The backup fails while its handle still counts all of its segments, or with a single one.

Once all data is written, the image is opened anew, and then only an image in one file is cleaned up:
one on NTFS, or one whose writes do not exceed the limit together.
-/
def BackupRun.FailsInTime (run : BackupRun) : Prop :=
  if (backupWrites (createImage run.backend) run.writes).1 = true ∧ run.broken = false then
    run.backend = .ntfs ∨ writesSize run.writes ≤ SPLIT_SIZE
  else (backupWrites (createImage run.backend) run.writes).2.currentfileseg < 2 ^ 16

/-- A backup that fails before its image is opened anew leaves nothing behind, if it counts rightly. -/
theorem backupDone_early {g : SegFile} {result : Int × (Nat → Option Bytes)} (grown : g.Grown)
    (done : backupDone (-1) g = some result) :
    (∀ k, result.2 k = none) ↔ g.currentfileseg < 2 ^ 16 := by
  rw [backupDone, if_pos (by decide), deleteImage_eq] at done
  split at done
  · cases done
  · next counts =>
    cases done
    dsimp only
    constructor
    · intro clear
      by_contra many
      -- The first segment behind the 16-bit count is stored, and stays.
      have gone := clear (g.currentfileseg % 2 ^ 16 + 1)
      have there := grown.before (g.currentfileseg % 2 ^ 16 + 1) (by omega)
      rw [if_neg (by omega), close_volume, if_neg (by omega)] at gone
      rw [gone] at there
      cases there
    · intro few k
      rw [Nat.mod_eq_of_lt few]
      split
      · rfl
      · next behind =>
        rw [close_volume, if_neg (by omega)]
        exact grown.behind k (by omega)

/-- Where a backup is complete, only its first segment is deleted. -/
theorem backupDone_late {g : SegFile} {backend : Backend} {total : Nat} (grown : g.Grown)
    (sized : g.Sized backend total) :
    (∀ k, 0 < k → g.close.volume k = none) ↔ backend = .ntfs ∨ total ≤ SPLIT_SIZE := by
  constructor
  · intro clear
    cases sized.size with
    | inl first =>
      obtain ⟨-, -, light⟩ := first
      cases backend with
      | ntfs => exact Or.inl rfl
      | fat => exact Or.inr (light rfl)
    | inr later =>
      -- The segment that is open is stored, too.
      obtain ⟨current, -, -⟩ := later
      have gone := clear g.currentfileseg current
      rw [close_volume, if_pos rfl] at gone
      obtain ⟨file, opened⟩ := Option.isSome_iff_exists.mp sized.opened
      rw [opened] at gone
      cases gone
  · intro small k later
    cases sized.size with
    | inl first =>
      obtain ⟨current, -, -⟩ := first
      rw [close_volume, if_neg (by omega)]
      exact grown.behind k (by omega)
    | inr later' =>
      obtain ⟨-, fat, heavy⟩ := later'
      cases small with
      | inl ntfs =>
        rw [ntfs] at fat
        cases fat
      | inr light => omega

/-- A backup that returned failure leaves nothing behind exactly when it failed in time. -/
theorem backupFiles_clears {run : BackupRun} {result : Int × (Nat → Option Bytes)}
    (done : backupFiles run = some result) (failed : result.1 < 0) :
    (∀ k, result.2 k = none) ↔ run.FailsInTime := by
  have grown := backupWrites_grown run.writes (createImage run.backend) (createImage_grown run.backend)
  have sized := backupWrites_sized run.writes (createImage run.backend) 0 (createImage_sized run.backend)
  rw [Nat.zero_add] at sized
  rw [backupFiles] at done
  rw [BackupRun.FailsInTime]
  generalize backupWrites (createImage run.backend) run.writes = written at *
  obtain ⟨ok, f⟩ := written
  cases ok with
  | false =>
    rw [if_neg fun both => Bool.noConfusion both.1]
    exact backupDone_early grown done
  | true =>
    dsimp only at done grown sized ⊢
    cases broken : run.broken with
    | true =>
      rw [broken] at done
      rw [if_neg fun both => Bool.noConfusion both.2]
      exact backupDone_early grown done
    | false =>
      rw [broken, if_neg Bool.false_ne_true] at done
      rw [if_pos ⟨rfl, rfl⟩, ← backupDone_late grown (sized rfl)]
      generalize f.close.volume = volume at done ⊢
      by_cases reopened : run.reopened = true
      · rw [if_pos reopened] at done
        -- The header is written to the first segment, whatever else there is.
        obtain ⟨current, kept⟩ := headerWrite_names
          (g := ((({ backend := run.backend, ifneedseg := false, opened := none, volume := volume } :
            SegFile).openRead 0).withFaults run.header.faults))
          rfl rfl rfl run.header.buffer run.header.refused
        generalize fileWrite _ run.header.buffer run.header.refused = header at done current kept
        obtain ⟨ok, g⟩ := header
        dsimp only at current kept
        cases ok with
        | false =>
          dsimp only at done
          apply backupDone_first done failed current
          intro k later
          rw [kept k later]
          exact Iff.rfl
        | true =>
          dsimp only at done
          cases made : calculateOnVolume run.hash run.env run.backend g.close.volume
              (if run.async = true then 0 else f.currentfileseg + 1) with
          | none =>
            rw [made] at done
            cases done
          | some outcome =>
            rw [made] at done
            obtain ⟨ok, volume'⟩ := outcome
            cases ok with
            | true =>
              cases done
              have negative : (0 : Int) < 0 := failed
              omega
            | false =>
              dsimp only at done
              apply backupDone_first done failed ((close_current g).trans current)
              intro k later
              have opened : ({ g.close with volume := volume' } : SegFile).close.volume k = volume' k := by
                rw [close_volume]
                have other : k ≠ g.close.currentfileseg := by
                  rw [close_current, current]
                  omega
                exact if_neg other
              rw [opened, calculateOnVolume_names made k, kept k later]
              exact Iff.rfl
      · rw [if_neg reopened] at done
        exact backupDone_first done failed rfl fun k _ => Iff.rfl

/--
A failed backup leaves no file of its image behind exactly when it failed in time.

The runs are those of either kind of volume and of either loop, with any writes,
any faults in them, and any end of the steps behind them.
-/
theorem backupFiles_clears_iff (run : BackupRun) :
    (∀ ret volume, backupFiles run = some (ret, volume) → ret < 0 → ∀ k, volume k = none) ↔
      (∀ ret volume, backupFiles run = some (ret, volume) → ret < 0 → run.FailsInTime) := by
  constructor
  · intro clears ret volume done failed
    exact (backupFiles_clears done failed).mp (clears ret volume done failed)
  · intro inTime ret volume done failed
    exact (backupFiles_clears done failed).mpr (inTime ret volume done failed)

/-! ### A backup that fails behind its second segment -/

/-- Digests of nothing but zeros. -/
def zeroHash : CheckHash where
  sha256 _ := []
  pbkdf2 _ _ _ := List.replicate PBKDF2P_LEN 0
  pbkdf2_length _ _ _ := List.length_replicate

/-- A backup on a FAT volume with one write of so many zeros; its image cannot be opened anew. -/
def unopenedRun (n : Nat) : BackupRun where
  backend := .fat
  async := false
  writes := [{ buffer := (zeroBlock n).bytes }]
  broken := false
  reopened := false
  header := { buffer := [] }
  hash := zeroHash
  env := {}

/-- One write that is done is all that is to be written. -/
theorem backupWrites_single {f g : SegFile} {w : BackupWrite}
    (done : fileWrite (f.withFaults w.faults) w.buffer w.refused = (true, g)) :
    backupWrites f [w] = (true, g) := by
  rw [backupWrites, done]
  rfl

/-- Where the write fills the first segment, the second one stays. -/
theorem unopenedRun_leaves {n : Nat} (fills : SPLIT_SIZE < n) (short : n < MAX_FAT_FILE) :
    ¬∀ ret volume, backupFiles (unopenedRun n) = some (ret, volume) → ret < 0 → ∀ k, volume k = none := by
  intro clears
  have length : (zeroBlock n).bytes.length = n := List.length_replicate
  -- The one write succeeds, so a file is left when the last step fails.
  have written : ∃ f, backupWrites (createImage .fat) (unopenedRun n).writes = (true, f) := by
    have done := fileWrite_done (b := zeroBlock n) createFile_writing (by
      rw [length]
      change 0 + n < _
      omega) rfl
    have single : fileWrite createFile (zeroBlock n).bytes (zeroBlock n).refused
        = (true, (fileWrite createFile (zeroBlock n).bytes (zeroBlock n).refused).2) :=
      Prod.ext done rfl
    exact ⟨_, backupWrites_single single⟩
  obtain ⟨f, written⟩ := written
  have complete : backupWrites (createImage (unopenedRun n).backend) (unopenedRun n).writes = (true, f) :=
    written
  have ran : ∃ volume, backupFiles (unopenedRun n) = some (-1, volume) := by
    rw [backupFiles, complete]
    exact ⟨_, rfl⟩
  obtain ⟨volume, ran⟩ := ran
  have failed : (-1 : Int) < 0 := by decide
  have inTime := (backupFiles_clears ran failed).mp (clears _ _ ran failed)
  rw [BackupRun.FailsInTime, complete, if_pos ⟨rfl, rfl⟩] at inTime
  cases inTime with
  | inl ntfs => cases ntfs
  | inr light =>
    have size : writesSize (unopenedRun n).writes = n := by
      change (zeroBlock n).bytes.length + 0 = n
      rw [length, Nat.add_zero]
    omega

/-- A backup of two segments whose image cannot be opened for its header leaves the second behind. -/
theorem backupFiles_leavesSegment :
    ¬∀ ret volume, backupFiles (unopenedRun (SPLIT_SIZE + 1)) = some (ret, volume) → ret < 0 →
      ∀ k, volume k = none :=
  unopenedRun_leaves (Nat.lt_succ_self _) (by decide)

end Okr
