import Okr.Proofs.HashFailure
import Okr.Proofs.Validate

/-! The digest of a large file: its sampling ends, keeps to the payload, and is the same in both runs. -/

namespace Okr

open Loop (Pass Passes)
open Overlay (window)

/-- Where an open file stands. -/
def OpenFile.pos : OpenFile → Nat
  | .ntfs h => h.filepos
  | .fat f => f.pos

/-- The range that a pass of the sampling hands to the digest: where it stands in the file, and its size. -/
def sampledRead (breaks : Nat → Bool) (t : Nat × HashState) : List (Nat × Nat) :=
  if breaks t.1 then []
  else
    match t.2.file.read hashChunk with
    | (.bytes bytes, _) => [(t.2.file.pos, bytes.length)]
    | _ => []

/-- The ranges that `_CalculateFileSHA256ValueBySegData` samples, pass after pass. -/
def sampledRanges (c : CheckHash) (breaks : Nat → Bool) (bIsCheckValue : Bool) (fileNumber : Nat)
    (file : OpenFile) (ctx : Bytes) : List (Nat × Nat) :=
  Loop.emitted (samplePass c breaks file.getSize (sampleLimit fileNumber) bIsCheckValue)
    (sampledRead breaks) samplePasses (0, { file := file.setPos 0, ctx := ctx })

/-- The two runs over an image: the one that makes the check value, and the one that compares it. -/
inductive CheckMode where
  | calculate
  | check
  deriving DecidableEq, Repr

/--
The last segment as a run hashes it: the calculation has appended the placeholder before.

The other segments are opened in both runs as the check opens this one.
-/
def CheckMode.opened (mode : CheckMode) (backend : Backend) (data : Bytes)
    (faults : List (Option Fault)) : OpenFile :=
  match mode with
  | .calculate => (saveZeroData (openFile backend data faults)).2
  | .check => openFile backend data faults

/-- A file above the threshold, opened in one of the runs, and what its devices do there. -/
structure LargeFile where
  mode : CheckMode
  backend : Backend
  data : Bytes
  faults : List (Option Fault)
  large : largeFile < (mode.opened backend data faults).getSize
  addressable : (mode.opened backend data faults).getSize < MAX_OFFSET

/-- The file as the run has opened it. -/
def LargeFile.file (f : LargeFile) : OpenFile := f.mode.opened f.backend f.data f.faults

/-! ### A short read, whatever the devices do -/

/-- A read in progress has as much to deliver as it has not delivered yet, and does not go astray. -/
structure ReadGoes (s : ReadState) (progress : Progress) (s' : ReadState) : Prop where
  counted : s'.out.length + s'.total = s.out.length + s.total
  alive : progress ≠ .hang ∧ progress ≠ .crash
  closer : progress = .go → s'.total < s.total ∨ (s'.total = s.total ∧ ¬ s.h.hits ∧ s'.h.hits)

/-- Loading the page in front of the position delivers nothing, and a hit makes it needless. -/
theorem loadAligned_goes (s : ReadState) :
    (loadAligned s).2.out = s.out ∧ (loadAligned s).2.total = s.total
      ∧ ((loadAligned s).1 ≠ .hang ∧ (loadAligned s).1 ≠ .crash)
      ∧ (s.h.hits → loadAligned s = (.go, s)) := by
  by_cases miss : s.h.misses = true
  · have missed : ¬ s.h.hits := by
      simp only [Handle.misses, Bool.and_eq_true, Bool.or_eq_true, decide_eq_true_eq] at miss
      rw [Handle.hits]
      omega
    rw [loadAligned, if_pos miss]
    dsimp only
    split
    · exact ⟨rfl, rfl, ⟨by simp, by simp⟩, fun hit => absurd hit missed⟩
    · refine ⟨rfl, rfl, ?_, fun hit => absurd hit missed⟩
      split <;> exact ⟨by simp, by simp⟩
  · rw [loadAligned, if_neg miss]
    exact ⟨rfl, rfl, ⟨by simp, by simp⟩, fun _ => rfl⟩

/-- What the cache has is delivered, something on a hit. -/
theorem copyCached_goes (s : ReadState) :
    (copyCached s).out.length + (copyCached s).total = s.out.length + s.total
      ∧ (copyCached s).total ≤ s.total
      ∧ (s.h.hits → 0 < s.total → (copyCached s).total < s.total) := by
  have fewer := s.h.cachedPart_le s.total
  have length : (window s.h.cache (s.h.filepos - s.h.cachedatapos) (s.h.cachedPart s.total)).length
      = s.h.cachedPart s.total := by
    rw [Handle.cachedPart]
    split
    · rw [Overlay.length_window]
      omega
    · rfl
  refine ⟨?_, Nat.sub_le _ _, fun hit wanted => ?_⟩
  · simp only [copyCached, List.length_append, length]
    omega
  · rw [Handle.hits] at hit
    simp only [copyCached, Handle.cachedPart, if_pos hit]
    omega

/-- Filling the cache at the position delivers nothing, and makes the next pass hit. -/
theorem loadNext_goes (s : ReadState) :
    (loadNext s).2.out = s.out ∧ (loadNext s).2.total = s.total
      ∧ ((loadNext s).1 ≠ .hang ∧ (loadNext s).1 ≠ .crash)
      ∧ ((loadNext s).1 = .go → (loadNext s).2.h.hits) := by
  rw [loadNext]
  split
  · exact ⟨rfl, rfl, ⟨by simp, by simp⟩, by simp⟩
  · next bytes file _ =>
    dsimp only
    refine ⟨rfl, rfl, ?_, fun goes => ?_⟩
    · split <;> exact ⟨by simp, by simp⟩
    · have some_ : bytes ≠ [] := by
        rintro rfl
        exact absurd goes (by simp)
      have length := List.length_pos_of_ne_nil some_
      exact ⟨Nat.le_refl _, Nat.lt_add_of_pos_right length⟩

/-- A pass of a read below the cache size. -/
theorem readPass_goes {s : ReadState} (wanted : 0 < s.total) (small : s.total < DEFAULT_FILE_CACHE_SIZE) :
    ReadGoes s (readPass s).1 (readPass s).2 := by
  obtain ⟨out, total, alive, hit⟩ := loadAligned_goes s
  cases load : loadAligned s with
  | mk progress s₁ =>
    rw [load] at out total alive hit
    dsimp only at out total alive
    -- A hit leaves the state as it was, so what is delivered then is delivered from it.
    have kept : s.h.hits → s₁ = s := fun hits => congrArg Prod.snd (hit hits)
    obtain ⟨counted, fewer, delivers⟩ := copyCached_goes s₁
    cases progress with
    | go =>
      simp only [readPass, load]
      split
      · next done =>
        exact ⟨by rw [counted, out, total], ⟨by simp, by simp⟩, fun _ => Or.inl (by dsimp only; omega)⟩
      · next more =>
        have direct : readDirect (copyCached s₁).total (cacheMultiple (copyCached s₁).total)
            (copyCached s₁) = (.go, copyCached s₁) := by
          rw [cacheMultiple_small (by omega)]
          cases (copyCached s₁).total <;> simp [readDirect]
        simp only [direct, if_neg more]
        obtain ⟨out', total', alive', hits'⟩ := loadNext_goes (copyCached s₁)
        refine ⟨by rw [out', total', counted, out, total], alive', fun goes => ?_⟩
        by_cases hits : s.h.hits
        · have same := kept hits
          subst same
          exact Or.inl (by rw [total']; exact delivers hits wanted)
        · by_cases less : (copyCached s₁).total < s.total
          · exact Or.inl (by rw [total']; exact less)
          · exact Or.inr ⟨by omega, hits, hits' goes⟩
    | stop => simp only [readPass, load]; exact ⟨by rw [out, total], alive, by simp⟩
    | fail => simp only [readPass, load]; exact ⟨by rw [out, total], alive, by simp⟩
    | hang => exact absurd rfl alive.1
    | crash => exact absurd rfl alive.2

/-- A read below the cache size ends, and delivers no more than was wanted. -/
theorem readLoop_goes (fuel : Nat) :
    ∀ s : ReadState, s.total < DEFAULT_FILE_CACHE_SIZE → EnoughPasses fuel s →
      ((readLoop fuel s).1 = .stop ∨ (readLoop fuel s).1 = .fail)
        ∧ (readLoop fuel s).2.out.length ≤ s.out.length + s.total := by
  -- Two passes in a row deliver something, so the passes left stay enough.
  induction fuel with
  | zero =>
    intro s small enough
    have done : s.total = 0 := by
      rcases enough with plenty | ⟨-, plenty⟩ <;> omega
    rw [readLoop, if_pos done]
    exact ⟨Or.inl rfl, Nat.le_add_right _ _⟩
  | succ fuel ih =>
    intro s small enough
    rw [readLoop]
    by_cases done : s.total = 0
    · rw [if_pos done]
      exact ⟨Or.inl rfl, Nat.le_add_right _ _⟩
    · rw [if_neg done]
      obtain ⟨counted, alive, closer⟩ := readPass_goes (Nat.pos_of_ne_zero done) small
      cases pass : readPass s with
      | mk progress s₁ =>
        rw [pass] at counted alive closer
        dsimp only at counted alive closer
        cases progress with
        | go =>
          have enough₁ : EnoughPasses fuel s₁ := by
            rcases closer rfl with fewer | ⟨same, missed, hit⟩
            · rcases enough with plenty | ⟨-, plenty⟩
              · exact Or.inl (by omega)
              · exact Or.inl (by omega)
            · rcases enough with plenty | ⟨hit₀, -⟩
              · exact Or.inr ⟨hit, by omega⟩
              · exact absurd hit₀ missed
          have fewer := closer rfl
          obtain ⟨ends, length⟩ := ih s₁ (by omega) enough₁
          exact ⟨ends, by dsimp only; omega⟩
        | stop => exact ⟨Or.inl rfl, by dsimp only; omega⟩
        | fail => exact ⟨Or.inr rfl, by dsimp only; omega⟩
        | hang => exact absurd rfl alive.1
        | crash => exact absurd rfl alive.2

/-- A read of a chunk fails or brings no more than the chunk, whatever the devices do. -/
theorem OpenFile.read_chunk (file : OpenFile) :
    (∃ bytes, (file.read hashChunk).1 = .bytes bytes ∧ bytes.length ≤ hashChunk)
      ∨ (file.read hashChunk).1 = .failed := by
  cases file with
  | ntfs h =>
    obtain ⟨ends, length⟩ := readLoop_goes (2 * hashChunk + 2) { h := h, total := hashChunk }
      (by show hashChunk < DEFAULT_FILE_CACHE_SIZE; decide) (Or.inl (by dsimp only; omega))
    rw [OpenFile.read, normalFileRead]
    dsimp only
    split
    · exact Or.inl ⟨[], rfl, Nat.zero_le _⟩
    · cases loop : readLoop (2 * hashChunk + 2) { h := h, total := hashChunk } with
      | mk progress s =>
        rw [loop] at ends length
        -- A read below the cache size has ended, with what it has delivered or failed.
        cases ends with
        | inl stops =>
          dsimp only at stops
          subst stops
          exact Or.inl ⟨s.out, rfl, by simpa using length⟩
        | inr fails =>
          dsimp only at fails
          subst fails
          exact Or.inr rfl
  | fat f =>
    rw [OpenFile.read, segFileRead, if_pos (by decide), efiRead]
    generalize f.nextFault = result
    obtain ⟨fault, f'⟩ := result
    dsimp only
    by_cases bad : fault.isSome = true ∨ f'.data.length < f'.pos
    · rw [if_pos bad]
      exact Or.inr rfl
    · rw [if_neg bad]
      refine Or.inl ⟨_, rfl, ?_⟩
      rw [Overlay.length_window]
      exact Nat.min_le_left _ _

/-! ### Where the sampling stands -/

variable {c : CheckHash} {breaks : Nat → Bool} {check : Bool} {filesize limit fileNumber k : Nat}
variable {file : OpenFile} {ctx bytes : Bytes} {s s' : HashState}

/-- How much of a file of this size is in front of the check value, when it has one. -/
def payloadSize (bIsCheckValue : Bool) (filesize : Nat) : Nat :=
  if bIsCheckValue then filesize - PBKDF2P_LEN else filesize

/-- The payload of a file has the size that its length says. -/
theorem payload_length (data : Bytes) : (payload check data).length = payloadSize check data.length := by
  rw [payload, payloadSize]
  split
  · rw [List.length_take]
    exact Nat.min_eq_left (Nat.sub_le _ _)
  · rfl

/-- Every part of a large file ends within the payload. -/
theorem nextSample_payload {index pos : Nat} (large : largeFile < filesize)
    (part : limit ≤ FILE_PER_SECTOR_DATA) (next : nextSample filesize limit index check = some pos) :
    pos + limit ≤ payloadSize check filesize := by
  cases check with
  | true =>
    have value : PBKDF2P_LEN ≤ filesize := Nat.le_of_lt (Nat.lt_trans (by decide) large)
    obtain ⟨size, rfl⟩ := Nat.exists_eq_add_of_le' value
    rw [payloadSize, if_pos rfl, Nat.add_sub_cancel]
    exact nextSample_inside large part next
  -- Without a check value the file is all payload.
  | false =>
    rw [payloadSize, if_neg Bool.false_ne_true]
    rw [nextSample] at next
    split at next
    · -- The parts in front of the last one start where they do in front of a check value.
      next early =>
      have value : PBKDF2P_LEN ≤ filesize := Nat.le_of_lt (Nat.lt_trans (by decide) large)
      obtain ⟨size, rfl⟩ := Nat.exists_eq_add_of_le' value
      have same : nextSample (size + PBKDF2P_LEN) limit index true = some pos := by
        rw [nextSample, if_pos early, next]
      have inside := nextSample_inside large part same
      omega
    · split at next
      · rw [if_neg Bool.false_ne_true] at next
        cases next
        have least : FILE_PER_SECTOR_DATA ≤ largeFile := by decide
        omega
      · cases next

/-- The sampling is in a part that ends within the payload, and the file stands where it counts. -/
structure SampleAt (filesize limit : Nat) (check : Bool) (k : Nat) (s : HashState) : Prop
    extends SampledParts limit k s where
  stands : s.file.pos = s.llReadSize
  reach : s.llReadSize + limit ≤ payloadSize check filesize + s.llSectorDataReadSize

/-- A file stands where it was put, apart from the position that stands for its end. -/
theorem OpenFile.setPos_pos (file : OpenFile) {pos : Nat} (usual : pos ≠ 2 ^ 64 - 1) :
    (file.setPos pos).pos = pos := by
  cases file with
  | ntfs h => rfl
  | fat f => exact if_neg usual

/-- The payload is no longer than the file. -/
theorem payloadSize_le : payloadSize check filesize ≤ filesize := by
  rw [payloadSize]
  split
  · exact Nat.sub_le _ _
  · exact Nat.le_refl _

/-- At the front of a large file the first part lies ahead. -/
theorem sampleAt_start (large : largeFile < filesize) (positive : 0 < limit)
    (part : limit ≤ FILE_PER_SECTOR_DATA) :
    SampleAt filesize limit check 0 { file := file.setPos 0, ctx := ctx } where
  counted := by rw [Nat.zero_mul, Nat.zero_mul]; rfl
  open_ := positive
  parts := Nat.zero_le _
  whole := rfl
  stands := file.setPos_pos (by decide)
  reach := by
    have first : nextSample filesize limit 0 check = some 0 := by
      rw [nextSample, if_pos (by decide), Nat.zero_mul]
    exact nextSample_payload large part first

/-- A chunk further the sampling is in the same part, or at the front of the next. -/
theorem SampleAt.next {bytes : Bytes} (at_ : SampleAt filesize limit check k s) (large : largeFile < filesize)
    (addressable : filesize < MAX_OFFSET) (multiple : limit % hashChunk = 0) (positive : 0 < limit)
    (part : limit ≤ FILE_PER_SECTOR_DATA) (chunk : bytes.length = hashChunk)
    (goes : sampleNext filesize limit check (absorbSampled c { s with file := file } bytes) = some s') :
    SampleAt filesize limit check (k + 1) s' := by
  have parts := at_.toSampledParts.next multiple positive chunk goes
  refine { parts with stands := ?_, reach := ?_ }
  all_goals
    have some_ : bytes ≠ [] := List.ne_nil_of_length_pos (by rw [chunk]; decide)
    obtain ⟨read, counted, index⟩ := absorbSampled_counts c { s with file := file } some_
    generalize absorbSampled c { s with file := file } bytes = t at goes read counted index
    have reach := at_.reach
    have room := @payloadSize_le check filesize
    have bound : MAX_OFFSET = 2 ^ 63 := rfl
    dsimp only at read counted
    rw [sampleNext] at goes
  · -- The position is set to the next part, or stays at the end of the chunk.
    split at goes
    · obtain ⟨pos, found, rfl⟩ := Option.map_eq_some_iff.mp goes
      have inside := nextSample_payload large part found
      exact t.file.setPos_pos (by omega)
    · next more =>
      cases goes
      exact t.file.setPos_pos (by omega)
  · split at goes
    · obtain ⟨pos, found, rfl⟩ := Option.map_eq_some_iff.mp goes
      exact nextSample_payload large part found
    · cases goes
      dsimp only
      omega

/-- A pass that goes on has read a chunk. -/
theorem samplePass_next {t t' : Nat × HashState}
    (next : samplePass c breaks filesize limit check t = .next t') :
    ∃ bytes file, bytes.length = hashChunk
      ∧ sampleNext filesize limit check (absorbSampled c { t.2 with file := file } bytes) = some t'.2 := by
  rw [samplePass] at next
  -- every other outcome of a pass ends it
  split at next
  · cases next
  · generalize t.2.file.read hashChunk = result at next
    obtain ⟨reply, file⟩ := result
    cases reply with
    | bytes bytes =>
      dsimp only at next
      cases goes : sampleNext filesize limit check (absorbSampled c { t.2 with file := file } bytes) with
      | none =>
        rw [goes] at next
        cases next
      | some s' =>
        rw [goes] at next
        dsimp only at next
        split at next
        · next more =>
          cases next
          exact ⟨bytes, file, more.1, goes⟩
        · cases next
    | _ => cases next

/-- All along the loop the sampling is in a part within the payload. -/
theorem samplePass_at {n : Nat} {t : Nat × HashState} (large : largeFile < filesize)
    (addressable : filesize < MAX_OFFSET)
    (passes : Passes (samplePass c breaks filesize (sampleLimit fileNumber) check) n
      (0, { file := file.setPos 0, ctx := ctx }) t) :
    SampleAt filesize (sampleLimit fileNumber) check n t.2 := by
  obtain ⟨multiple, positive, part⟩ := sampleLimit_spec fileNumber
  rw [← Nat.zero_add n]
  refine @Loop.Passes.keeps _ _ _ _ _ _
    (fun k t => SampleAt filesize (sampleLimit fileNumber) check k t.2) ?_ passes 0
    (sampleAt_start large positive part)
  intro k t t' at_ next
  obtain ⟨bytes, file, chunk, goes⟩ := samplePass_next next
  exact at_.next large addressable multiple positive part chunk goes

/-- What a pass reads lies within the payload. -/
theorem sampledRead_inside {t : Nat × HashState} {range : Nat × Nat} (multiple : limit % hashChunk = 0)
    (at_ : SampleAt filesize limit check k t.2) (read : range ∈ sampledRead breaks t) :
    range.1 + range.2 ≤ payloadSize check filesize := by
  rw [sampledRead] at read
  split at read
  · cases read
  · have chunk := t.2.file.read_chunk
    generalize t.2.file.read hashChunk = result at read chunk
    obtain ⟨reply, file⟩ := result
    cases reply with
    | bytes bytes =>
      rw [List.mem_singleton.mp read]
      have length : bytes.length ≤ hashChunk := by
        rcases chunk with ⟨bytes', same, length⟩ | failed
        · cases same
          exact length
        · cases failed
      -- A part that is not full has room for a chunk.
      obtain ⟨⟨-, open_, -, whole⟩, stands, reach⟩ := at_
      simp only [hashChunk] at length multiple whole
      dsimp only
      omega
    | _ => cases read

/-- The sampling loop ends, whatever the devices and the user do. -/
theorem calFileSHA256ValueBySegData_ends (c : CheckHash) (breaks : Nat → Bool) (check : Bool)
    (fileNumber : Nat) (file : OpenFile) (ctx : Bytes) :
    ∃ ok s, calFileSHA256ValueBySegData c breaks check fileNumber file ctx = some (ok, s) := by
  rw [calFileSHA256ValueBySegData, segDataLoop_run, ← sampleLimit]
  obtain ⟨result, runs⟩ := Loop.run_total fun n t passes =>
    @samplePass_count c breaks check file.getSize (file.setPos 0) ctx n fileNumber t passes
  rw [runs]
  -- The last pass had an answer to its read, so it gave a result.
  obtain ⟨n, t, -, -, last⟩ := Loop.run_some runs
  cases result with
  | some result => exact ⟨result.1, result.2, rfl⟩
  | none =>
    have chunk := t.2.file.read_chunk
    rw [samplePass] at last
    split at last
    · cases last
    · generalize t.2.file.read hashChunk = result at last chunk
      obtain ⟨reply, file⟩ := result
      rcases chunk with ⟨bytes, same, -⟩ | failed
      · dsimp only at same
        subst same
        dsimp only at last
        split at last
        · cases last
        · split at last
          · cases last
          · cases last
      · dsimp only at failed
        subst failed
        cases last

/-- Every range sampled of a large file lies within its payload. -/
theorem sampledRanges_inside (large : largeFile < file.getSize) (addressable : file.getSize < MAX_OFFSET)
    {range : Nat × Nat} (sampled : range ∈ sampledRanges c breaks check fileNumber file ctx) :
    range.1 + range.2 ≤ (payload check file.data).length := by
  obtain ⟨n, t, passes, read⟩ := Loop.mem_emitted sampled
  rw [payload_length file.data]
  exact sampledRead_inside (sampleLimit_spec fileNumber).1 (samplePass_at large addressable passes) read

/-! ### Two runs over files of one size -/

/-- A file of these bytes with answered calls: whatever its cache holds unwritten is behind them. -/
def OpenFile.Stores (data : Bytes) : OpenFile → Prop
  | .ntfs h => (h.file.data = data ∧ h.file.faults = []) ∧ h.isOpen = true ∧ h.ifeof = false
      ∧ h.cache.length ≤ DEFAULT_FILE_CACHE_SIZE ∧ (h.Flushed ∨ data.length ≤ h.cachedatapos)
  | .fat f => f.data = data ∧ f.faults = []

variable {data data' : Bytes}

/-- Seeking keeps what is stored. -/
theorem OpenFile.Stores.setPos (stores : file.Stores data) (pos : Nat) : (file.setPos pos).Stores data := by
  cases file with
  | ntfs h =>
    obtain ⟨same, opened, -, small, place⟩ := stores
    exact ⟨same, opened, rfl, small, place⟩
  | fat f => exact stores

/-- A cache behind the position is of no use to a read, which replaces it. -/
theorem normalFileRead_ahead {h : Handle} {size : Nat} (live : h.ifeof = false) (sound : h.file.faults = [])
    (wanted : 0 < size) (small : size < DEFAULT_FILE_CACHE_SIZE) (ahead : h.filepos < h.cachedatapos)
    (inside : h.filepos ≤ h.file.data.length) :
    normalFileRead h size = normalFileRead { h with cache := [] } size := by
  have page : nReadFile h.file (h.filepos / 4096 * 4096) DEFAULT_FILE_CACHE_SIZE
      = (some (window h.file.data (h.filepos / 4096 * 4096) DEFAULT_FILE_CACHE_SIZE), h.file) :=
    nReadFile_eq _ sound (by omega)
  have here : nReadFile h.file h.filepos DEFAULT_FILE_CACHE_SIZE
      = (some (window h.file.data h.filepos DEFAULT_FILE_CACHE_SIZE), h.file) :=
    nReadFile_eq _ sound inside
  have misses : ({ h with cache := [] } : Handle).misses = h.misses := by
    simp only [Handle.misses, ahead, decide_true, Bool.true_or]
  -- The first pass loads the page, or misses the cache and loads from the position.
  have pass : readPass { h := h, total := size } = readPass { h := { h with cache := [] }, total := size } := by
    by_cases miss : h.misses = true
    · have aligned : loadAligned { h := h, total := size }
          = loadAligned { h := { h with cache := [] }, total := size } := by
        simp only [loadAligned, misses, miss, if_true, page]
      rw [readPass, readPass, aligned]
    · have nothing : ∀ cache, copyCached { h := { h with cache := cache }, total := size }
          = { h := { h with cache := cache }, total := size } := by
        intro cache
        have none_ : ({ h with cache := cache } : Handle).cachedPart size = 0 := by
          rw [Handle.cachedPart]
          exact if_neg (by dsimp only; omega)
        rw [copyCached]
        dsimp only
        rw [none_, Overlay.window_zero]
        rfl
      have direct : ∀ s : ReadState, readDirect size 0 s = (.go, s) := by
        intro s
        cases size <;> simp [readDirect]
      have first := nothing h.cache
      have second := nothing []
      simp only [readPass, loadAligned, misses, if_neg miss, first, second, cacheMultiple_small small,
        direct, if_neg (Nat.ne_of_gt wanted), loadNext, here]
  have wanted' : ∀ h : Handle, ({ h := h, total := size } : ReadState).total ≠ 0 :=
    fun _ => Nat.ne_of_gt wanted
  have loop : readLoop (2 * size + 2) { h := h, total := size }
      = readLoop (2 * size + 2) { h := { h with cache := [] }, total := size } := by
    rw [readLoop, if_neg (wanted' _), readLoop, if_neg (wanted' _), pass]
  rw [normalFileRead, normalFileRead, loop]
  rw [live, if_neg Bool.false_ne_true, if_neg Bool.false_ne_true]

/-- A read of a chunk in front of the end brings it. -/
theorem OpenFile.Stores.read (stores : file.Stores data) (addressable : data.length < MAX_OFFSET)
    (inside : file.pos + hashChunk ≤ data.length) :
    ∃ after, file.read hashChunk = (.bytes (window data file.pos hashChunk), after)
      ∧ after.Stores data := by
  cases file with
  | ntfs h =>
    obtain ⟨⟨stored, sound⟩, opened, live, small, place⟩ := stores
    change h.filepos + hashChunk ≤ data.length at inside
    -- Over a flushed cache the handle reads as the plain file of its bytes.
    have flushed : ∀ h : Handle, h.file.data = data → h.file.faults = [] → h.isOpen = true →
        h.ifeof = false → h.filepos + hashChunk ≤ data.length →
        h.cache.length ≤ DEFAULT_FILE_CACHE_SIZE → h.Flushed →
        ∃ after, OpenFile.read (.ntfs h) hashChunk = (.bytes (window data h.filepos hashChunk), after)
          ∧ after.Stores data := by
      intro h stored sound opened live inside small flushed
      have refines : h.Refines { content := data, pos := h.filepos } :=
        ⟨flushed.trans stored, rfl, live, small, fun _ => flushed,
          fun shut => absurd (opened.symm.trans shut) (by decide), addressable⟩
      have safe : h.ReadSafe hashChunk :=
        Or.inr (Or.inl ⟨flushed, Or.inl (by rw [stored]; omega)⟩)
      obtain ⟨reply, after⟩ := normalFileRead_refines refines sound opened safe
      obtain ⟨frame, -⟩ := normalFileRead_frame h hashChunk
      have kept : (normalFileRead h hashChunk).2.file.data = data := frame.data.trans stored
      exact ⟨.ntfs (normalFileRead h hashChunk).2, Prod.ext reply rfl, ⟨kept, frame.sound sound⟩,
        frame.stillOpen.trans opened, after.eof, after.small, Or.inl (after.view.trans kept.symm)⟩
    rcases place with here | behind
    · exact flushed h stored sound opened live inside small here
    · have empty := flushed { h with cache := [] } stored sound opened live inside (Nat.zero_le _) (flushed_empty rfl)
      have drops : normalFileRead h hashChunk = normalFileRead { h with cache := [] } hashChunk :=
        normalFileRead_ahead live sound (by decide) (by decide)
          (by simp only [hashChunk] at inside; omega) (by rw [stored]; omega)
      simp only [OpenFile.read, drops]
      exact empty
  | fat f =>
    obtain ⟨stored, sound⟩ := stores
    change f.pos + hashChunk ≤ data.length at inside
    have safe : OpenFile.ReadSafe (.fat f) hashChunk := by
      refine ⟨?_, Or.inl (by decide)⟩
      rw [stored]
      omega
    obtain ⟨reply, -⟩ := @OpenFile.Reads.read (.fat f) { content := data, pos := f.pos } hashChunk
      ⟨stored, rfl, sound⟩ safe
    refine ⟨_, Prod.ext reply rfl, ?_⟩
    rw [OpenFile.read, segFileRead_window sound safe]
    exact ⟨stored, sound⟩

/-- Two samplings have counted the same, and stand in the same part. -/
structure Alike (s s' : HashState) : Prop where
  read : s'.llReadSize = s.llReadSize
  counted : s'.llSectorDataReadSize = s.llSectorDataReadSize
  part : s'.iSegIndex = s.iSegIndex

/-- Reads of one length are counted alike. -/
theorem Alike.absorb {bytes bytes' : Bytes} {file file' : OpenFile} (alike : Alike s s')
    (some_ : bytes ≠ []) (some' : bytes' ≠ []) (length : bytes'.length = bytes.length) :
    Alike (absorbSampled c { s with file := file } bytes)
      (absorbSampled c { s' with file := file' } bytes') := by
  obtain ⟨read, counted, part⟩ := absorbSampled_counts c { s with file := file } some_
  obtain ⟨read', counted', part'⟩ := absorbSampled_counts c { s' with file := file' } some'
  refine ⟨?_, ?_, ?_⟩
  · rw [read, read', length]
    exact congrArg (· + bytes.length) alike.read
  · rw [counted, counted', length]
    exact congrArg (· + bytes.length) alike.counted
  · rw [part, part']
    exact alike.part

/-- Samplings that are alike go on alike: both are done, or both seek the same position. -/
theorem Alike.next (alike : Alike s s') :
    (sampleNext filesize limit check s = none ∧ sampleNext filesize limit check s' = none)
      ∨ ∃ u u' pos, sampleNext filesize limit check s = some u
        ∧ sampleNext filesize limit check s' = some u' ∧ Alike u u'
        ∧ u.file = s.file.setPos pos ∧ u'.file = s'.file.setPos pos := by
  rw [sampleNext, sampleNext, alike.counted, alike.part]
  split
  · cases nextSample filesize limit (s.iSegIndex + 1) check with
    | none => exact Or.inl ⟨rfl, rfl⟩
    | some pos => exact Or.inr ⟨_, _, pos, rfl, rfl, ⟨rfl, rfl, rfl⟩, rfl, rfl⟩
  · refine Or.inr ⟨_, _, s.llReadSize, rfl, rfl, ⟨alike.read, rfl, rfl⟩, rfl, ?_⟩
    rw [alike.read]

/-- Two runs of the sampling loop over files of one size, at the same place. -/
structure Together (data data' : Bytes) (limit : Nat) (check : Bool) (t t' : Nat × HashState) : Prop where
  pass : t'.1 = t.1
  alike : Alike t.2 t'.2
  stores : t.2.file.Stores data
  stores' : t'.2.file.Stores data'
  place : ∃ k, SampleAt data.length limit check k t.2
  place' : ∃ k, SampleAt data.length limit check k t'.2

/-- A part that is not done has a chunk ahead of it in the file. -/
theorem SampleAt.room {data : Bytes} (at_ : SampleAt data.length limit check k s)
    (multiple : limit % hashChunk = 0) : s.file.pos + hashChunk ≤ data.length := by
  obtain ⟨⟨-, open_, -, whole⟩, stands, reach⟩ := at_
  have room := @payloadSize_le check data.length
  simp only [hashChunk] at multiple whole ⊢
  omega

/-- The chunk in front of a part's end comes whole. -/
theorem window_chunk_length {pos : Nat} (room : pos + hashChunk ≤ data.length) :
    (window data pos hashChunk).length = hashChunk ∧ window data pos hashChunk ≠ [] := by
  have length : (window data pos hashChunk).length = hashChunk := by
    rw [Overlay.length_window]
    omega
  exact ⟨length, List.ne_nil_of_length_pos (by rw [length]; decide)⟩

section Runs

variable (addressable : data.length < MAX_OFFSET) (same : data'.length = data.length)
variable {t t' : Nat × HashState}
include addressable same

/-- At the same place two runs sample the same range. -/
theorem Together.sampledRead (together : Together data data' (sampleLimit fileNumber) check t t') :
    sampledRead breaks t = sampledRead breaks t' := by
  obtain ⟨pass, alike, stores, stores', ⟨k, place⟩, k', place'⟩ := together
  have multiple := (sampleLimit_spec fileNumber).1
  have room := place.room multiple
  have room' : t'.2.file.pos + hashChunk ≤ data'.length := by
    rw [same]
    exact place'.room multiple
  obtain ⟨after, read, -⟩ := stores.read addressable room
  obtain ⟨after', read', -⟩ := stores'.read (by rw [same]; exact addressable) room'
  rw [Okr.sampledRead, Okr.sampledRead, read, read', pass]
  dsimp only
  rw [(window_chunk_length room).1, (window_chunk_length room').1, place.stands, place'.stands, alike.read]

variable (large : largeFile < data.length)
include large

/-- Two runs at the same place both end there, or go on to the same place. -/
theorem Together.step (together : Together data data' (sampleLimit fileNumber) check t t') :
    (∃ u u', samplePass c breaks data.length (sampleLimit fileNumber) check t = .next u
        ∧ samplePass c breaks data.length (sampleLimit fileNumber) check t' = .next u'
        ∧ Together data data' (sampleLimit fileNumber) check u u')
      ∨ ∃ r r', samplePass c breaks data.length (sampleLimit fileNumber) check t = .done r
        ∧ samplePass c breaks data.length (sampleLimit fileNumber) check t' = .done r' := by
  obtain ⟨pass, alike, stores, stores', ⟨k, place⟩, k', place'⟩ := together
  obtain ⟨multiple, positive, part⟩ := sampleLimit_spec fileNumber
  have room := place.room multiple
  have room' : t'.2.file.pos + hashChunk ≤ data'.length := by
    rw [same]
    exact place'.room multiple
  obtain ⟨after, read, later⟩ := stores.read addressable room
  obtain ⟨after', read', later'⟩ := stores'.read (by rw [same]; exact addressable) room'
  obtain ⟨length, some_⟩ := window_chunk_length room
  obtain ⟨length', some'⟩ := window_chunk_length room'
  -- Both passes have the number, and both read a chunk that lies inside the payload.
  rw [samplePass, samplePass, pass, read, read']
  by_cases broken : breaks t.1 = true
  · rw [if_pos broken, if_pos broken]
    exact Or.inr ⟨_, _, rfl, rfl⟩
  rw [if_neg broken, if_neg broken]
  dsimp only
  have absorbed : Alike (absorbSampled c { t.2 with file := after } (window data t.2.file.pos hashChunk))
      (absorbSampled c { t'.2 with file := after' } (window data' t'.2.file.pos hashChunk)) :=
    alike.absorb some_ some' (length'.trans length.symm)
  rcases @Alike.next check data.length (sampleLimit fileNumber) _ _ absorbed with
    ⟨ends, ends'⟩ | ⟨u, u', pos, goes, goes', next, file, file'⟩
  · rw [ends, ends']
    exact Or.inr ⟨_, _, rfl, rfl⟩
  · have further := place.next large addressable multiple positive part length goes
    have further' := place'.next large addressable multiple positive part length' goes'
    rw [goes, goes']
    dsimp only
    rw [length, length', next.read]
    -- Both have counted the same, so both go on or both end.
    by_cases more : u.llReadSize < data.length
    · rw [if_pos ⟨rfl, more⟩, if_pos ⟨rfl, more⟩]
      refine Or.inl ⟨_, _, rfl, rfl, rfl, next, ?_, ?_, ⟨_, further⟩, _, further'⟩
      · dsimp only
        rw [file, absorbSampled_file]
        exact later.setPos pos
      · dsimp only
        rw [file', absorbSampled_file]
        exact later'.setPos pos
    · rw [if_neg fun both => more both.2, if_neg fun both => more both.2]
      exact Or.inr ⟨_, _, rfl, rfl⟩

/-- Over files of one size both runs sample the same ranges. -/
theorem sampledRanges_same {file file' : OpenFile} (stores : file.Stores data) (stores' : file'.Stores data')
    (size : file.getSize = data.length) (size' : file'.getSize = data'.length) :
    sampledRanges c breaks check fileNumber file ctx = sampledRanges c breaks check fileNumber file' ctx := by
  obtain ⟨multiple, positive, part⟩ := sampleLimit_spec fileNumber
  rw [sampledRanges, sampledRanges, size, size', same]
  refine @Loop.emitted_congr _ _ _ _ _ _ _ _ _ (Together data data' (sampleLimit fileNumber) check)
    (fun t t' together => together.sampledRead addressable same)
    (fun t t' together => together.step addressable same large) samplePasses _ _ ?_
  exact ⟨rfl, ⟨rfl, rfl, rfl⟩, stores.setPos 0, stores'.setPos 0,
    ⟨0, sampleAt_start large positive part⟩, 0, sampleAt_start large positive part⟩

end Runs

/-! ### The last segment in both runs -/

/-- What the calculation has opened is a file of its bytes, the placeholder stored or behind them. -/
theorem calculate_stores (backend : Backend) (data : Bytes) :
    (CheckMode.calculate.opened backend data []).Stores (CheckMode.calculate.opened backend data []).data := by
  cases backend with
  | ntfs =>
    rw [CheckMode.opened, saveZeroData_ntfs]
    exact ⟨⟨rfl, rfl⟩, rfl, rfl, by show placeholder.length ≤ _; decide, Or.inr (Nat.le_refl _)⟩
  | fat =>
    have quiet : ∀ f : FatFile, f.faults = [] → (efiWrite f placeholder).2.faults = [] := by
      intro f none_
      rw [efiWrite, FatFile.nextFault, none_]
      dsimp only
      split
      · exact none_
      · exact none_
    exact ⟨rfl, quiet (efiSetPosition { data := data } data.length) rfl⟩

/-- The placeholder makes a segment 32 bytes longer at most. -/
theorem calculate_size_le (backend : Backend) {data : Bytes} (addressable : data.length < MAX_OFFSET) :
    (CheckMode.calculate.opened backend data []).getSize ≤ data.length + PBKDF2P_LEN := by
  rw [CheckMode.opened]
  cases backend with
  | ntfs =>
    rw [saveZeroData_ntfs]
    exact Nat.le_add_right _ _
  | fat =>
    obtain ⟨f, opened, bytes⟩ := saveZeroData_fat data [] addressable
    rw [opened]
    show f.data.length ≤ _
    have fits := placeholderWritten_le [] data.length
    rw [bytes, List.length_append, List.length_take]
    omega

/-- A file just opened is one of its bytes. -/
theorem check_stores (backend : Backend) (data : Bytes) :
    (CheckMode.check.opened backend data []).Stores data := by
  cases backend with
  | ntfs => exact ⟨⟨rfl, rfl⟩, rfl, rfl, Nat.zero_le _, Or.inl (flushed_empty rfl)⟩
  | fat => exact ⟨rfl, rfl⟩

/-- The check value goes over the last bytes of the segment that was hashed. -/
theorem calculated_size {env : CheckEnv} {img : ImageFiles} {r : CheckResult}
    (addressable : img.last.length < MAX_OFFSET)
    (result : calculateFileCheckValue c env img = some r) (ok : r.ok = true)
    (room : PBKDF2P_LEN ≤ (CheckMode.calculate.opened img.backend img.last env.last).getSize) :
    r.first = img.first
      ∧ r.last.length = (CheckMode.calculate.opened img.backend img.last env.last).getSize := by
  rw [CheckMode.opened] at room ⊢
  cases kind : img.backend with
  | ntfs =>
    rw [kind, saveZeroData_ntfs] at room
    rw [saveZeroData_ntfs]
    have some_ : img.last ≠ [] := List.ne_nil_of_length_pos (Nat.lt_of_lt_of_le (by decide) room)
    refine ⟨?_, checkValue_ntfs kind addressable some_ result ok⟩
    -- There is one segment only.
    obtain ⟨file, computed, -, -⟩ := calculateFileCheckValue_ok result ok
    obtain ⟨-, ctx, first, s, salt, hashed, -, salted⟩ := calCheckValue_some computed
    rw [img.whole kind] at hashed ⊢
    cases hashed
    rcases salted with ⟨-, none_, -⟩ | ⟨data, rest, seg, more, -⟩
    · exact none_
    · cases more
  | fat =>
    obtain ⟨segments, length, file, held, done, last⟩ := calculated_onFat kind addressable result ok
    obtain ⟨f, opened, data⟩ := saveZeroData_fat img.last env.last addressable
    rw [kind, opened] at room
    rw [opened]
    change PBKDF2P_LEN ≤ f.data.length at room
    refine ⟨segments, ?_⟩
    have fits := placeholderWritten_le env.last img.last.length
    obtain ⟨-, saved⟩ := saveFileCheckValue_fat held length (by
      rw [List.length_append, List.length_take]
      simp only [MAX_OFFSET, PBKDF2P_LEN] at addressable fits
      omega) done
    have some_ : r.value ≠ [] := List.ne_nil_of_length_pos (by rw [length]; decide)
    rw [last, saved, Overlay.length_write _ _ _ some_, length, ← data]
    show _ = f.data.length
    simp only [valuePos, PBKDF2P_LEN] at room ⊢
    split <;> omega

/--
The sampling of a large file is well defined, whether its check value is made or compared.

In either run, with or without check bytes at the end, and whatever the devices and the user do,
the loop ends and every range it samples lies within the payload.
A check value that was made leaves the segments to the comparing run that the making run sampled,
and when the devices answer, the same ranges of the last one are sampled in both.
-/
theorem segDataDigest_wellDefined (c : CheckHash) (breaks : Nat → Bool) (fileNumber : Nat) (ctx : Bytes) :
    (∀ (f : LargeFile) (check : Bool),
      (∃ ok s, calFileSHA256ValueBySegData c breaks check fileNumber f.file ctx = some (ok, s))
      ∧ ∀ range ∈ sampledRanges c breaks check fileNumber f.file ctx,
          range.1 + range.2 ≤ (payload check f.file.data).length)
    ∧ ∀ (env : CheckEnv) (img : ImageFiles) (r : CheckResult), env.Answered →
        img.last.length + PBKDF2P_LEN < MAX_OFFSET →
        largeFile < (CheckMode.calculate.opened img.backend img.last env.last).getSize →
        calculateFileCheckValue c env img = some r → r.ok = true →
        r.first = img.first
          ∧ sampledRanges c breaks true fileNumber
              (CheckMode.calculate.opened img.backend img.last env.last) ctx
            = sampledRanges c breaks true fileNumber (CheckMode.check.opened img.backend r.last []) ctx := by
  refine ⟨fun f check => ⟨?_, ?_⟩, ?_⟩
  · exact calFileSHA256ValueBySegData_ends c breaks check fileNumber f.file ctx
  · exact fun range sampled => sampledRanges_inside f.large f.addressable sampled
  · intro env img r answered addressable large result ok
    -- A file with room for the check value is the first of the two states, with the value behind it.
    have value : PBKDF2P_LEN ≤ (CheckMode.calculate.opened img.backend img.last env.last).getSize :=
      Nat.le_of_lt (Nat.lt_trans (by decide) large)
    obtain ⟨segments, size⟩ :=
      calculated_size (Nat.lt_of_le_of_lt (Nat.le_add_right _ _) addressable) result ok value
    refine ⟨segments, ?_⟩
    rw [answered.last] at large size ⊢
    have most := calculate_size_le img.backend (Nat.lt_of_le_of_lt (Nat.le_add_right _ _) addressable)
    exact sampledRanges_same (Nat.lt_of_le_of_lt most addressable) size large
      (calculate_stores img.backend img.last) (check_stores img.backend r.last) rfl
      (by cases img.backend <;> rfl)

/-- A large image of whole pages on a FAT volume gets its check value, when nothing is in the way. -/
theorem calculateFileCheckValue_large (c : CheckHash) {data : Bytes} (pages : data.length % 4096 = 0)
    (fits : data.length < MAX_FAT_FILE) (large : largeFile < data.length) :
    ∃ r, calculateFileCheckValue c {} { backend := .fat, last := data, whole := by simp } = some r
      ∧ r.ok = true := by
  have header : data ≠ [] := List.ne_nil_of_length_pos (Nat.lt_of_le_of_lt (Nat.zero_le _) large)
  obtain ⟨opened, written, stands⟩ := saveZeroData_sealed pages fits
  have size : opened.getSize = data.length + PBKDF2P_LEN := by
    obtain ⟨pos, stands⟩ := stands
    exact stands.getSize
  have sampled : ∀ ctx, hashFile c (fun _ => false) true 1 opened ctx
      = calFileSHA256ValueBySegData c (fun _ => false) true 1 opened ctx := by
    intro ctx
    rw [hashFile, if_pos]
    rw [size]
    omega
  obtain ⟨ok, s, ends⟩ := calFileSHA256ValueBySegData_ends c (fun _ => false) true 1 opened []
  -- Nobody breaks, so the hashing ends with success.
  cases ok with
  | false =>
    have broken := hashFile_false.mp ⟨s, (sampled []).trans ends⟩
    rw [HashBreaks, if_pos (by rw [size]; omega)] at broken
    obtain ⟨n, t, -, breaks⟩ := broken
    cases breaks
  | true =>
    have hashed := (sampled []).trans ends
    obtain ⟨-, -, sealed, -⟩ := hashFile_check pages fits stands stands hashed
    obtain ⟨salt, found⟩ := getSaltValue_check pages fits header
    obtain ⟨after, salted, sealed'⟩ := found sealed
    obtain ⟨last, saved⟩ := saveFileCheckValue_sealed pages fits sealed'
      (c.pbkdf2_length (c.sha256 s.ctx) salt.1 (3000 + salt.2))
    rw [calculateFileCheckValue]
    dsimp only
    rw [written]
    dsimp only
    rw [storeCheckValue, calCheckValue]
    dsimp only [hashSegments, ImageFiles.fileNumber, List.length_nil]
    rw [hashed]
    dsimp only
    rw [salted]
    dsimp only
    rw [saved]
    exact ⟨_, rfl, rfl⟩

/-- Ninety thousand pages of sevens on a FAT volume, which is more than the threshold. -/
def sevens : ImageFiles where
  backend := .fat
  last := List.replicate (4096 * 90000) 7
  whole := by simp

/-- The two runs over the sevens sample the same ranges. -/
theorem segDataDigest_wellDefined_sevens :
    ∃ r, calculateFileCheckValue threeBytesHash {} sevens = some r ∧ r.ok = true
      ∧ sampledRanges threeBytesHash (fun _ => false) true 1 (CheckMode.calculate.opened .fat sevens.last [])
          []
        = sampledRanges threeBytesHash (fun _ => false) true 1 (CheckMode.check.opened .fat r.last []) [] := by
  have length : sevens.last.length = 4096 * 90000 := List.length_replicate
  have fits : sevens.last.length < MAX_FAT_FILE := by
    rw [length]
    decide
  have large : largeFile < sevens.last.length := by
    rw [length]
    decide
  have pages : sevens.last.length % 4096 = 0 := by rw [length]
  obtain ⟨r, result, ok⟩ := calculateFileCheckValue_large threeBytesHash pages fits large
  have size : largeFile < (CheckMode.calculate.opened .fat sevens.last []).getSize := by
    obtain ⟨opened, written, pos, stands⟩ := saveZeroData_sealed pages fits
    rw [CheckMode.opened, written, stands.getSize]
    omega
  have addressable : sevens.last.length + PBKDF2P_LEN < MAX_OFFSET := by
    rw [length]
    decide
  obtain ⟨-, same⟩ := (segDataDigest_wellDefined threeBytesHash (fun _ => false) 1 []).2 {} sevens r
    ⟨rfl, fun _ => rfl, rfl⟩ addressable size result ok
  exact ⟨r, result, ok, same⟩

end Okr
