import Okr.Proofs.Handle

/-! What reads and small writes may do to a cached handle, whatever faults the driver meets them with. -/

namespace Okr

open Overlay (window)

/-- The faults are taken from the front of the list. -/
theorem nextFault_eq (f : NtfsFile) :
    f.nextFault = (f.faults.headD none, { f with faults := f.faults.tail }) := by
  cases f with
  | mk data faults => cases faults <;> rfl

/-- Taking a fault from the list leaves the bytes, and an empty list stays empty. -/
theorem nextFault_frame (f : NtfsFile) :
    f.nextFault.2.data = f.data ∧ (f.faults = [] → f.nextFault.2.faults = []) := by
  unfold NtfsFile.nextFault
  cases faults : f.faults with
  | nil => exact ⟨rfl, fun _ => faults⟩
  | cons fault faults => exact ⟨rfl, by simp⟩

/-- Reading changes no byte of the file and answers later calls as sound ones if it was sound. -/
theorem nReadFile_frame (f : NtfsFile) (offset size : Nat) :
    (nReadFile f offset size).2.data = f.data
      ∧ (f.faults = [] → (nReadFile f offset size).2.faults = []) := by
  -- Only the list of faults is ever taken from.
  have taken : (nReadFile f offset size).2 = f.nextFault.2 := by
    by_cases past : f.nextFault.2.data.length < offset
    · simp only [nReadFile, if_pos past]
    · simp only [nReadFile, if_neg past]
      rcases f.nextFault.1 with - | - | n <;> rfl
  rw [taken]
  exact nextFault_frame f

/-- What a read returns stands in the file, at the offset asked for. -/
theorem nReadFile_some {f f' : NtfsFile} {offset size : Nat} {bytes : Bytes}
    (read : nReadFile f offset size = (some bytes, f')) :
    offset + bytes.length ≤ f.data.length ∧ bytes.length ≤ size := by
  have kept := (nextFault_frame f).1
  by_cases past : f.data.length < offset
  · simp [nReadFile, kept, if_pos past] at read
  · -- Both a full and a short read return a window of the file.
    have shape : ∃ n, n ≤ size ∧ bytes = window f.data offset n := by
      simp only [nReadFile, kept, if_neg past] at read
      rcases fault : f.nextFault.1 with - | - | n
      · simp only [fault, Prod.mk.injEq, Option.some.injEq] at read
        exact ⟨size, Nat.le_refl _, read.1.symm⟩
      · simp [fault] at read
      · simp only [fault, Prod.mk.injEq, Option.some.injEq] at read
        exact ⟨min n size, Nat.min_le_right _ _, read.1.symm⟩
    obtain ⟨n, fits, rfl⟩ := shape
    rw [Overlay.length_window]
    omega

/-- What no read touches: the stored bytes and the state of the handle apart from its cache. -/
structure Undisturbed (h h' : Handle) : Prop where
  data : h'.file.data = h.file.data
  sound : h.file.faults = [] → h'.file.faults = []
  stillOpen : h'.isOpen = h.isOpen
  dirty : h'.cachedirty = h.cachedirty
  eof : h'.ifeof = h.ifeof

theorem Undisturbed.refl (h : Handle) : Undisturbed h h :=
  ⟨rfl, id, rfl, rfl, rfl⟩

theorem Undisturbed.trans {h h' h'' : Handle} (first : Undisturbed h h')
    (second : Undisturbed h' h'') : Undisturbed h h'' :=
  ⟨second.data.trans first.data, fun sound => second.sound (first.sound sound),
    second.stillOpen.trans first.stillOpen, second.dirty.trans first.dirty,
    second.eof.trans first.eof⟩

/-- The cache is empty or was filled from inside the file. -/
def Handle.Fetched (h : Handle) : Prop :=
  h.cache.length ≤ DEFAULT_FILE_CACHE_SIZE
    ∧ (h.cache = [] ∨ h.cachedatapos + h.cache.length ≤ h.file.data.length)

/-- The cached bytes and their place are the same. -/
def SameCache (h h' : Handle) : Prop :=
  h'.cache = h.cache ∧ h'.cachedatapos = h.cachedatapos

/-- What the bytes brought by a read make of the cache. -/
theorem fetched_of_read {h : Handle} {f f' : NtfsFile} {offset : Nat} {bytes : Bytes}
    (read : nReadFile f offset DEFAULT_FILE_CACHE_SIZE = (some bytes, f')) (file : h.file = f')
    (cache : h.cache = bytes) (pos : h.cachedatapos = offset) : h.Fetched := by
  have reach := nReadFile_some read
  have same := (nReadFile_frame f offset DEFAULT_FILE_CACHE_SIZE).1
  rw [read] at same
  have stored : h.file.data = f.data := (congrArg NtfsFile.data file).trans same
  refine ⟨by rw [cache]; exact reach.2, Or.inr ?_⟩
  rw [cache, pos, stored]
  exact reach.1

/-- Reading past the cache leaves the handle's cache alone. -/
theorem readDirect_frame (fuel : Nat) :
    ∀ (readsize : Nat) (s : ReadState), Undisturbed s.h (readDirect fuel readsize s).2.h
      ∧ SameCache s.h (readDirect fuel readsize s).2.h := by
  induction fuel with
  | zero =>
    intro readsize s
    unfold readDirect
    split <;> exact ⟨Undisturbed.refl _, rfl, rfl⟩
  | succ fuel ih =>
    intro readsize s
    have frame := nReadFile_frame s.h.file s.h.filepos (min readsize DRIVER_CHUNK)
    unfold readDirect
    split
    · exact ⟨Undisturbed.refl _, rfl, rfl⟩
    · split
      · rename_i read
        rw [read] at frame
        exact ⟨⟨frame.1, frame.2, rfl, rfl, rfl⟩, rfl, rfl⟩
      · rename_i bytes file read
        rw [read] at frame
        split
        · exact ⟨⟨frame.1, frame.2, rfl, rfl, rfl⟩, rfl, rfl⟩
        -- The rest of the loop starts from a handle that differs in position and faults only.
        · have rest := ih (readsize - bytes.length)
            { h := { s.h with file := file, filepos := s.h.filepos + bytes.length }
              total := s.total - bytes.length
              out := s.out ++ bytes }
          have moved : Undisturbed s.h
              { s.h with file := file, filepos := s.h.filepos + bytes.length } :=
            ⟨frame.1, frame.2, rfl, rfl, rfl⟩
          exact ⟨moved.trans rest.1, rest.2⟩

/-- Reading past the cache fails with its first chunk. -/
theorem readDirect_refused {fuel readsize : Nat} {s : ReadState} {file : NtfsFile}
    (wanted : readsize ≠ 0)
    (refused : nReadFile s.h.file s.h.filepos (min readsize DRIVER_CHUNK) = (none, file)) :
    readDirect (fuel + 1) readsize s = (.fail, { s with h := { s.h with file := file } }) := by
  rw [readDirect, if_neg wanted]
  simp only [refused]

/-- Filling the cache at the position either fails without touching it or leaves it fetched. -/
theorem loadNext_frame (s : ReadState) :
    Undisturbed s.h (loadNext s).2.h
      ∧ (((loadNext s).1 = .fail ∧ SameCache s.h (loadNext s).2.h)
        ∨ ((loadNext s).1 ≠ .fail ∧ (loadNext s).2.h.Fetched ∧ ¬ (loadNext s).2.h.misses)) := by
  have frame := nReadFile_frame s.h.file s.h.filepos DEFAULT_FILE_CACHE_SIZE
  cases read : nReadFile s.h.file s.h.filepos DEFAULT_FILE_CACHE_SIZE with
  | mk bytes file =>
    rw [read] at frame
    cases bytes with
    | none =>
      simp only [loadNext, read]
      exact ⟨⟨frame.1, frame.2, rfl, rfl, rfl⟩, Or.inl ⟨trivial, rfl, rfl⟩⟩
    | some bytes =>
      simp only [loadNext, read]
      refine ⟨⟨frame.1, frame.2, rfl, rfl, rfl⟩, Or.inr ⟨?_, ?_, ?_⟩⟩
      · split <;> simp
      · exact fetched_of_read read rfl rfl rfl
      -- The cache starts at the position itself.
      · simp only [Handle.misses, Bool.and_eq_true, Bool.or_eq_true, decide_eq_true_eq]
        omega

/-- Loading the page in front of an unaligned position fails with the cache misplaced, or fetches. -/
theorem loadAligned_frame (s : ReadState) :
    Undisturbed s.h (loadAligned s).2.h
      ∧ (loadAligned s).2.total = s.total ∧ (loadAligned s).2.h.filepos = s.h.filepos
      ∧ ((s.h.misses = false ∧ loadAligned s = (.go, s))
        ∨ (s.h.misses = true ∧ (loadAligned s).1 = .fail ∧ (loadAligned s).2.h.cache = s.h.cache)
        ∨ (s.h.misses = true ∧ (loadAligned s).1 ≠ .fail ∧ (loadAligned s).2.h.Fetched)) := by
  cases miss : s.h.misses with
  | false =>
    simp only [loadAligned, miss, Bool.false_eq_true, if_false]
    exact ⟨Undisturbed.refl _, trivial, trivial, Or.inl ⟨trivial, trivial⟩⟩
  | true =>
    have frame := nReadFile_frame s.h.file (s.h.filepos / 4096 * 4096) DEFAULT_FILE_CACHE_SIZE
    cases read : nReadFile s.h.file (s.h.filepos / 4096 * 4096) DEFAULT_FILE_CACHE_SIZE with
    | mk bytes file =>
      rw [read] at frame
      cases bytes with
      | none =>
        simp only [loadAligned, miss, if_true, read]
        exact ⟨⟨frame.1, frame.2, rfl, rfl, rfl⟩, trivial, trivial, Or.inr (Or.inl ⟨trivial, trivial, trivial⟩)⟩
      | some bytes =>
        simp only [loadAligned, miss, if_true, read]
        refine ⟨⟨frame.1, frame.2, rfl, rfl, rfl⟩, trivial, trivial, Or.inr (Or.inr ⟨trivial, ?_, ?_⟩)⟩
        · split <;> simp
        · exact fetched_of_read read rfl rfl rfl

/-- The same cache over the same stored bytes is as fetched as before. -/
theorem Handle.Fetched.same {h h' : Handle} (fetched : h.Fetched) (frame : Undisturbed h h')
    (same : SameCache h h') : h'.Fetched := by
  obtain ⟨small, empty | inside⟩ := fetched
  · exact ⟨by rw [same.1]; exact small, Or.inl (by rw [same.1]; exact empty)⟩
  · exact ⟨by rw [same.1]; exact small, Or.inr (by rw [same.1, same.2, frame.data]; exact inside)⟩

/-- What a pass or a whole loop may have done to the cache, and how it ended. -/
def CacheEffect (h : Handle) (p : Progress) (h' : Handle) : Prop :=
  SameCache h h' ∨ (h.misses = true ∧ p = .fail ∧ h'.cache = h.cache) ∨ h'.Fetched

/-- One pass keeps the cache, misplaces it while it fails, or leaves it fetched. -/
theorem readPass_frame (s : ReadState) :
    Undisturbed s.h (readPass s).2.h ∧ CacheEffect s.h (readPass s).1 (readPass s).2.h
      ∧ ((readPass s).1 = .go → (readPass s).2.total = 0 ∨ (readPass s).2.h.misses = false) := by
  obtain ⟨frame, -, -, aligned⟩ := loadAligned_frame s
  cases load : loadAligned s with
  | mk p s₁ =>
    rw [load] at frame aligned
    -- What the aligned load left, as the effect it has had so far.
    have effect₁ : CacheEffect s.h p s₁.h := by
      rcases aligned with ⟨-, same⟩ | ⟨miss, failed, kept⟩ | ⟨-, -, fetched⟩
      · simp only [Prod.mk.injEq] at same
        rw [same.2]
        exact Or.inl ⟨rfl, rfl⟩
      · exact Or.inr (Or.inl ⟨miss, failed, kept⟩)
      · exact Or.inr (Or.inr fetched)
    have settled : p ≠ .fail → SameCache s.h s₁.h ∨ s₁.h.Fetched := by
      intro noFail
      rcases effect₁ with same | ⟨-, failed, -⟩ | fetched
      · exact Or.inl same
      · exact absurd failed noFail
      · exact Or.inr fetched
    -- The later stages keep the cache or fetch it again.
    have onward : ∀ (p' : Progress) (h' : Handle), p ≠ .fail → Undisturbed s₁.h h' →
        SameCache s₁.h h' ∨ h'.Fetched → CacheEffect s.h p' h' := by
      intro p' h' noFail frame' kept
      rcases kept with same | fetched
      · rcases settled noFail with before | before
        · exact Or.inl ⟨same.1.trans before.1, same.2.trans before.2⟩
        · exact Or.inr (Or.inr (before.same frame' same))
      · exact Or.inr (Or.inr fetched)
    have copied : Undisturbed s₁.h (copyCached s₁).h := ⟨rfl, id, rfl, rfl, rfl⟩
    cases p with
    | go =>
      simp only [readPass, load]
      split
      · rename_i done
        exact ⟨frame.trans copied, onward _ _ (by simp) copied (Or.inl ⟨rfl, rfl⟩),
          fun _ => Or.inl done⟩
      · have direct := readDirect_frame (copyCached s₁).total (cacheMultiple (copyCached s₁).total)
          (copyCached s₁)
        cases read : readDirect (copyCached s₁).total (cacheMultiple (copyCached s₁).total)
            (copyCached s₁) with
        | mk q s₂ =>
          rw [read] at direct
          have frame₂ : Undisturbed s₁.h s₂.h := copied.trans direct.1
          have same₂ : SameCache s₁.h s₂.h := direct.2
          cases q with
          | go =>
            simp only
            split
            · rename_i done
              exact ⟨frame.trans frame₂, onward _ _ (by simp) frame₂ (Or.inl same₂),
                fun _ => Or.inl done⟩
            · obtain ⟨frame₃, failed | fetched⟩ := loadNext_frame s₂
              · refine ⟨frame.trans (frame₂.trans frame₃), onward _ _ (by simp)
                  (frame₂.trans frame₃) (Or.inl ⟨failed.2.1.trans same₂.1, failed.2.2.trans same₂.2⟩),
                  fun goes => ?_⟩
                rw [failed.1] at goes
                exact absurd goes (by simp)
              · exact ⟨frame.trans (frame₂.trans frame₃),
                  onward _ _ (by simp) (frame₂.trans frame₃) (Or.inr fetched.2.1),
                  fun _ => Or.inr (by simpa using fetched.2.2)⟩
          | stop => exact ⟨frame.trans frame₂, onward _ _ (by simp) frame₂ (Or.inl same₂), by simp⟩
          | fail => exact ⟨frame.trans frame₂, onward _ _ (by simp) frame₂ (Or.inl same₂), by simp⟩
          | hang => exact ⟨frame.trans frame₂, onward _ _ (by simp) frame₂ (Or.inl same₂), by simp⟩
          | crash => exact ⟨frame.trans frame₂, onward _ _ (by simp) frame₂ (Or.inl same₂), by simp⟩
    | stop => simp only [readPass, load]; exact ⟨frame, effect₁, by simp⟩
    | fail => simp only [readPass, load]; exact ⟨frame, effect₁, by simp⟩
    | hang => simp only [readPass, load]; exact ⟨frame, effect₁, by simp⟩
    | crash => simp only [readPass, load]; exact ⟨frame, effect₁, by simp⟩

/-- The loop ends once nothing is wanted any more. -/
theorem readLoop_done (fuel : Nat) {s : ReadState} (done : s.total = 0) :
    readLoop fuel s = (.stop, s) := by
  unfold readLoop
  rw [if_pos done]

/-- A pass that goes on hands its state to the rest of the loop. -/
theorem readLoop_go (fuel : Nat) {s s' : ReadState} (wanted : s.total ≠ 0)
    (pass : readPass s = (.go, s')) : readLoop (fuel + 1) s = readLoop fuel s' := by
  rw [readLoop, if_neg wanted]
  simp only [pass]

/-- A pass that does not go on ends the loop. -/
theorem readLoop_ends (fuel : Nat) {s s' : ReadState} {p : Progress} (wanted : s.total ≠ 0)
    (pass : readPass s = (p, s')) (ends : p ≠ .go) : readLoop (fuel + 1) s = (p, s') := by
  rw [readLoop, if_neg wanted]
  cases p <;> simp only [pass]
  exact absurd rfl ends

/-- The whole loop has the effect of one pass: only its first one can misplace the cache. -/
theorem readLoop_frame (fuel : Nat) :
    ∀ s : ReadState, Undisturbed s.h (readLoop fuel s).2.h
      ∧ CacheEffect s.h (readLoop fuel s).1 (readLoop fuel s).2.h := by
  induction fuel with
  | zero =>
    intro s
    rw [readLoop]
    split <;> exact ⟨Undisturbed.refl _, Or.inl ⟨rfl, rfl⟩⟩
  | succ fuel ih =>
    intro s
    rw [readLoop]
    split
    · exact ⟨Undisturbed.refl _, Or.inl ⟨rfl, rfl⟩⟩
    · obtain ⟨frame, effect, next⟩ := readPass_frame s
      cases pass : readPass s with
      | mk p s₁ =>
        rw [pass] at frame effect next
        cases p with
        | go =>
          obtain ⟨frame', effect'⟩ := ih s₁
          refine ⟨frame.trans frame', ?_⟩
          -- With nothing wanted any more the loop ends at once, otherwise the next pass hits.
          have kept : SameCache s₁.h (readLoop fuel s₁).2.h ∨ (readLoop fuel s₁).2.h.Fetched := by
            rcases next rfl with done | hit
            · rw [readLoop_done fuel done]
              exact Or.inl ⟨rfl, rfl⟩
            · rcases effect' with same | ⟨miss, -⟩ | fetched
              · exact Or.inl same
              · rw [hit] at miss
                exact absurd miss (by simp)
              · exact Or.inr fetched
          rcases kept with same | fetched
          · rcases effect with before | ⟨-, failed, -⟩ | before
            · exact Or.inl ⟨same.1.trans before.1, same.2.trans before.2⟩
            · exact absurd failed (by simp)
            · exact Or.inr (Or.inr (before.same frame' same))
          · exact Or.inr (Or.inr fetched)
        | stop => exact ⟨frame, effect⟩
        | fail => exact ⟨frame, effect⟩
        | hang => exact ⟨frame, effect⟩
        | crash => exact ⟨frame, effect⟩

/-- A read disturbs nothing but the cache. -/
theorem normalFileRead_frame (h : Handle) (size : Nat) :
    Undisturbed h (normalFileRead h size).2
      ∧ (h.misses = false → SameCache h (normalFileRead h size).2 ∨ (normalFileRead h size).2.Fetched)
      ∧ (h.cache.length ≤ DEFAULT_FILE_CACHE_SIZE →
          (normalFileRead h size).2.cache.length ≤ DEFAULT_FILE_CACHE_SIZE) := by
  by_cases ended : h.ifeof = true
  · simp only [normalFileRead, if_pos ended]
    exact ⟨Undisturbed.refl _, fun _ => Or.inl ⟨rfl, rfl⟩, id⟩
  · -- the loop keeps the cache, misses it, or fetches a new one
    obtain ⟨frame, effect⟩ := readLoop_frame (2 * size + 2) { h := h, total := size }
    have result : (normalFileRead h size).2
        = (readLoop (2 * size + 2) { h := h, total := size }).2.h := by
      simp only [normalFileRead, if_neg ended]
      split <;> rename_i loop <;> rw [loop]
    rw [result]
    refine ⟨frame, fun hit => ?_, fun small => ?_⟩
    · rcases effect with same | ⟨miss, -⟩ | fetched
      · exact Or.inl same
      · exact absurd (miss.symm.trans hit) (by simp)
      · exact Or.inr fetched
    · rcases effect with same | ⟨-, -, kept⟩ | fetched
      · rw [same.1]
        exact small
      · rw [kept]
        exact small
      · exact fetched.1

/-- Below the cache size nothing goes past the cache. -/
theorem cacheMultiple_small {n : Nat} (small : n < DEFAULT_FILE_CACHE_SIZE) : cacheMultiple n = 0 := by
  simp only [DEFAULT_FILE_CACHE_SIZE] at small
  rw [cacheMultiple, u32_eq (by omega), DEFAULT_FILE_CACHE_SIZE, Nat.div_eq_of_lt small,
    Nat.zero_mul]

/-- One pass of a request below the cache size fails, is served by the cache alone, or fetches. -/
theorem readPass_small {s : ReadState} (small : s.total < DEFAULT_FILE_CACHE_SIZE) :
    (readPass s).1 = .fail ∨ (readPass s).2.h.Fetched
      ∨ (SameCache s.h (readPass s).2.h ∧ s.h.cachedPart s.total = s.total
          ∧ (readPass s).2.total = 0) := by
  obtain ⟨-, total, pos, aligned⟩ := loadAligned_frame s
  cases load : loadAligned s with
  | mk p s₁ =>
    rw [load] at aligned total pos
    simp only at total pos
    cases p with
    | go =>
      simp only [readPass, load]
      split
      · rename_i done
        rcases aligned with ⟨-, same⟩ | ⟨-, failed, -⟩ | ⟨-, -, fetched⟩
        · simp only [Prod.mk.injEq, true_and] at same
          subst same
          -- The part delivered was all that was wanted.
          right; right
          have part := s₁.h.cachedPart_le s₁.total
          simp only [copyCached] at done
          exact ⟨⟨rfl, rfl⟩, by omega, done⟩
        · exact absurd failed (by simp)
        · exact Or.inr (Or.inl fetched)
      · rename_i wanted
        have direct : readDirect (copyCached s₁).total (cacheMultiple (copyCached s₁).total)
            (copyCached s₁) = (.go, copyCached s₁) := by
          rw [cacheMultiple_small (by simp only [copyCached]; omega)]
          cases (copyCached s₁).total <;> simp [readDirect]
        simp only [direct, if_neg wanted]
        rcases (loadNext_frame (copyCached s₁)).2 with failed | fetched
        · exact Or.inl failed.1
        · exact Or.inr (Or.inl fetched.2.1)
    | fail => simp [readPass, load]
    | stop =>
      simp only [readPass, load]
      rcases aligned with ⟨-, same⟩ | ⟨-, failed, -⟩ | ⟨-, -, fetched⟩
      · simp at same
      · exact absurd failed (by simp)
      · exact Or.inr (Or.inl fetched)
    | hang =>
      simp only [readPass, load]
      rcases aligned with ⟨-, same⟩ | ⟨-, failed, -⟩ | ⟨-, -, fetched⟩
      · simp at same
      · exact absurd failed (by simp)
      · exact Or.inr (Or.inl fetched)
    | crash =>
      simp only [readPass, load]
      rcases aligned with ⟨-, same⟩ | ⟨-, failed, -⟩ | ⟨-, -, fetched⟩
      · simp at same
      · exact absurd failed (by simp)
      · exact Or.inr (Or.inl fetched)

/-- A read below the cache size that reports bytes was served by the cache alone, or fetched. -/
theorem normalFileRead_small {h : Handle} {size : Nat} (wanted : 0 < size)
    (small : size < DEFAULT_FILE_CACHE_SIZE) (live : h.ifeof = false) {bytes : Bytes}
    (reply : (normalFileRead h size).1 = .bytes bytes) :
    (normalFileRead h size).2.Fetched
      ∨ (SameCache h (normalFileRead h size).2 ∧ h.cachedPart size = size) := by
  have wanted' : ({ h := h, total := size } : ReadState).total ≠ 0 := by simp only; omega
  have result : (normalFileRead h size).2
      = (readLoop (2 * size + 2) { h := h, total := size }).2.h := by
    simp only [normalFileRead, live, Bool.false_eq_true, if_false]
    split <;> rename_i loop <;> rw [loop]
  have passed : (readLoop (2 * size + 2) { h := h, total := size }).1 ≠ .fail := by
    intro failed
    simp only [normalFileRead, live, Bool.false_eq_true, if_false] at reply
    cases loop : readLoop (2 * size + 2) { h := h, total := size } with
    | mk p s₁ =>
      rw [loop] at reply failed
      subst failed
      simp at reply
  rw [result]
  -- the first pass decides: it fetches a cache full or the cached part was enough
  have first := readPass_small (s := { h := h, total := size }) small
  cases pass : readPass { h := h, total := size } with
  | mk p s₁ =>
    rw [pass] at first
    by_cases goes : p = .go
    · subst goes
      rw [readLoop_go _ wanted' pass] at passed ⊢
      rcases first with failed | fetched | ⟨same, all, done⟩
      · exact absurd failed (by simp)
      · obtain ⟨frame', effect'⟩ := readLoop_frame (2 * size + 1) s₁
        rcases effect' with same | ⟨-, failed, -⟩ | again
        · exact Or.inl (fetched.same frame' same)
        · exact absurd failed passed
        · exact Or.inl again
      · rw [readLoop_done _ done]
        exact Or.inr ⟨same, all⟩
    · rw [readLoop_ends _ wanted' pass goes] at passed ⊢
      rcases first with failed | fetched | ⟨same, all, -⟩
      · exact absurd failed passed
      · exact Or.inl fetched
      · exact Or.inr ⟨same, all⟩

/-! ### Small writes inside the file -/

/-- A write of these bytes there either stays inside the file or is refused by the driver. -/
def NtfsFile.Keeps (f : NtfsFile) (offset size : Nat) : Prop :=
  offset + size ≤ f.data.length ∨ MAX_OFFSET ≤ offset + size

/-- A write inside the file or past the driver's range leaves the file as long as it was. -/
theorem nWriteFile_keeps {f : NtfsFile} {offset : Nat} {bytes : Bytes}
    (keeps : f.Keeps offset bytes.length) :
    (nWriteFile f offset bytes).2.data.length = f.data.length := by
  have same := (nextFault_frame f).1
  by_cases refused : MAX_OFFSET ≤ offset + bytes.length
  · simp only [nWriteFile, if_pos refused, same]
  · have inside : offset + bytes.length ≤ f.data.length := by
      rcases keeps with inside | past
      · exact inside
      · omega
    -- Laying a part of the bytes over the file never makes it longer.
    have laid : ∀ part : Bytes, part.length ≤ bytes.length →
        (Overlay.write 0 f.data offset part).length = f.data.length := by
      intro part fits
      by_cases empty : part = []
      · rw [empty, Overlay.write_nil]
      · rw [Overlay.length_write 0 f.data offset empty]
        omega
    simp only [nWriteFile, if_neg refused]
    rcases fault : f.nextFault.1 with - | - | n
    · simp only [same]
      exact laid bytes (Nat.le_refl _)
    · simp only [same]
    · simp only [same, Nat.sub_eq_zero_of_le inside, List.replicate_zero, List.append_nil]
      exact laid _ (by rw [List.length_take]; omega)

/-- Flushing the cache would leave the file as long as it is. -/
def Handle.Contained (h : Handle) : Prop :=
  h.cache = [] ∨ h.file.Keeps h.cachedatapos h.cache.length

/-- A fetched cache came from inside the file. -/
theorem Handle.Fetched.contained {h : Handle} (fetched : h.Fetched) : h.Contained := by
  rcases fetched.2 with empty | inside
  · exact Or.inl empty
  · exact Or.inr (Or.inl inside)

/-- What is kept by a flush whose cache stays inside the file. -/
theorem flushCache_keeps {h : Handle} (keeps : h.file.Keeps h.cachedatapos h.cache.length) :
    (flushCache h).2.file.data.length = h.file.data.length := by
  have length := nWriteFile_keeps keeps
  unfold flushCache
  split <;> rename_i write <;> rw [write] at length <;> exact length

/-- A flush changes the stored file only. -/
theorem flushCache_frame (h : Handle) : ∃ file, (flushCache h).2 = { h with file := file } := by
  unfold flushCache
  split <;> exact ⟨_, rfl⟩

/-- A write below the cache size that finds the cache empty puts all of it there. -/
theorem writePast_small {h : Handle} {rest : Bytes} (small : rest.length < DEFAULT_FILE_CACHE_SIZE) :
    writePast h rest
      = if rest = [] then (.stop, h, [])
        else
          (.stop,
            { h with
              cache := rest
              cachedatapos := h.filepos
              filepos := h.filepos + rest.length
              cachedirty := true }, []) := by
  have none_ : writeDirect rest.length (cacheMultiple rest.length) h rest = (.go, h, rest) := by
    rw [cacheMultiple_small small]
    cases rest.length <;> simp [writeDirect]
  simp only [writePast, none_, keepTail]
  rw [if_neg (by omega : ¬ DEFAULT_FILE_CACHE_SIZE < rest.length)]

/-- What a write stage leaves behind: a file as long as before and a cache that keeps it so. -/
def KeepsLength (h h' : Handle) : Prop :=
  h'.file.data.length = h.file.data.length ∧ h'.Contained

/-- A request at this position stays inside the file or starts past the driver's range. -/
def NtfsFile.Takes (f : NtfsFile) (pos size : Nat) : Prop :=
  pos + size ≤ f.data.length ∨ MAX_OFFSET ≤ pos

/-- A small write to an empty cache keeps the file as long as it was. -/
theorem writePast_keeps {h : Handle} {rest : Bytes} (small : rest.length < DEFAULT_FILE_CACHE_SIZE)
    (contained : h.Contained) (takes : h.file.Takes h.filepos rest.length) :
    KeepsLength h (writePast h rest).2.1 := by
  rw [writePast_small small]
  split
  · exact ⟨rfl, contained⟩
  · refine ⟨rfl, Or.inr ?_⟩
    unfold NtfsFile.Keeps
    unfold NtfsFile.Takes at takes
    simp only
    omega

/-- Settling the cache leaves it right in front of the position. -/
theorem settleCache_keeps {h : Handle} (keeps : h.file.Keeps h.cachedatapos h.cache.length) :
    KeepsLength h (settleCache h).2 ∧ (settleCache h).2.filepos = h.filepos
      ∧ ((settleCache h).1 = true →
          h.filepos = (settleCache h).2.cachedatapos + (settleCache h).2.cache.length) := by
  by_cases apart : h.filepos = h.cachedatapos + h.cache.length
  · have skip : ¬ (h.filepos ≠ h.cachedatapos + h.cache.length) := fun differ => differ apart
    simp only [settleCache, if_neg skip]
    exact ⟨⟨rfl, Or.inr keeps⟩, trivial, fun _ => apart⟩
  · have length := flushCache_keeps keeps
    obtain ⟨file, frame⟩ := flushCache_frame h
    simp only [settleCache, if_pos apart]
    cases flush : flushCache h with
    | mk ok h' =>
      rw [flush] at length frame
      simp only at frame
      subst frame
      cases ok with
      | false =>
        refine ⟨⟨length, Or.inr ?_⟩, rfl, by simp⟩
        unfold NtfsFile.Keeps at keeps ⊢
        rw [length]
        exact keeps
      | true => exact ⟨⟨length, Or.inl rfl⟩, rfl, fun _ => by simp⟩

/-- Appending to the cache stores nothing the request itself would not store. -/
theorem fillCache_keeps {h : Handle} {buffer : Bytes}
    (stands : h.filepos = h.cachedatapos + h.cache.length)
    (takes : h.file.Takes h.filepos buffer.length) :
    KeepsLength h (fillCache h buffer).2.1
      ∧ (fillCache h buffer).2.2.length ≤ buffer.length
      ∧ ((fillCache h buffer).1 = .go →
          (fillCache h buffer).2.1.file.Takes (fillCache h buffer).2.1.filepos
            (fillCache h buffer).2.2.length) := by
  -- The filled cache ends inside the request.
  have room : (buffer.take (DEFAULT_FILE_CACHE_SIZE - h.cache.length)).length
      + (buffer.drop (DEFAULT_FILE_CACHE_SIZE - h.cache.length)).length = buffer.length := by
    rw [← List.length_append, List.take_append_drop]
  unfold NtfsFile.Takes at takes
  have keeps : h.file.Keeps h.cachedatapos
      (h.cache ++ buffer.take (DEFAULT_FILE_CACHE_SIZE - h.cache.length)).length := by
    unfold NtfsFile.Keeps
    rw [List.length_append]
    omega
  by_cases full : (h.cache ++ buffer.take (DEFAULT_FILE_CACHE_SIZE - h.cache.length)).length
      = DEFAULT_FILE_CACHE_SIZE
  · obtain ⟨file, frame⟩ := flushCache_frame
      { h with cache := h.cache ++ buffer.take (DEFAULT_FILE_CACHE_SIZE - h.cache.length) }
    have length := flushCache_keeps
      (h := { h with cache := h.cache ++ buffer.take (DEFAULT_FILE_CACHE_SIZE - h.cache.length) }) keeps
    simp only [fillCache, if_pos full]
    cases flush : flushCache
        { h with cache := h.cache ++ buffer.take (DEFAULT_FILE_CACHE_SIZE - h.cache.length) } with
    | mk ok h' =>
      rw [flush] at frame length
      simp only at frame length
      subst frame
      cases ok with
      | false =>
        refine ⟨⟨length, Or.inr ?_⟩, by simp only; omega, by simp⟩
        unfold NtfsFile.Keeps at keeps ⊢
        rw [length]
        exact keeps
      | true =>
        refine ⟨⟨length, Or.inl rfl⟩, by simp only; omega, fun _ => ?_⟩
        simp only [NtfsFile.Takes, length]
        rw [List.length_append]
        omega
  · simp only [fillCache, if_neg full]
    exact ⟨⟨rfl, Or.inr keeps⟩, by omega, by simp⟩

/-- A small write inside the file, or past the driver's range, leaves the file as long as it was. -/
theorem normalFileWrite_keeps {h : Handle} {buffer : Bytes}
    (small : buffer.length < DEFAULT_FILE_CACHE_SIZE) (contained : h.Contained)
    (takes : h.file.Takes h.filepos buffer.length) :
    KeepsLength h (normalFileWrite h buffer).2 := by
  have result : (normalFileWrite h buffer).2 = (writeStages h buffer).2.1 := by
    unfold normalFileWrite
    split <;> rename_i stages <;> rw [stages]
  rw [result]
  unfold writeStages
  split
  · exact writePast_keeps small contained takes
  · rename_i filled
    -- three stages: settle what is cached, fill the cache up, write the rest past it
    obtain ⟨settled, pos, next⟩ := settleCache_keeps (contained.resolve_left filled)
    cases settle : settleCache h with
    | mk ok h₁ =>
      rw [settle] at settled pos next
      simp only at settled pos next
      cases ok with
      | false => exact settled
      | true =>
        have takes₁ : h₁.file.Takes h₁.filepos buffer.length := by
          unfold NtfsFile.Takes at takes ⊢
          rw [settled.1, pos]
          exact takes
        obtain ⟨kept, fewer, more⟩ := fillCache_keeps (h := h₁) (by rw [pos]; exact next rfl) takes₁
        cases fill : fillCache h₁ buffer with
        | mk p left =>
          obtain ⟨h₂, rest⟩ := left
          rw [fill] at kept fewer more
          simp only at kept fewer more
          have sofar : KeepsLength h h₂ := ⟨kept.1.trans settled.1, kept.2⟩
          cases p with
          | go =>
            simp only [fill]
            obtain ⟨length, last⟩ := writePast_keeps (by omega) kept.2 (more rfl)
            exact ⟨length.trans sofar.1, last⟩
          | stop => simp only [fill]; exact sofar
          | fail => simp only [fill]; exact sofar
          | hang => simp only [fill]; exact sofar
          | crash => simp only [fill]; exact sofar

/-- Closing the handle leaves the file as long as it was when the cache keeps it so. -/
theorem fileClose_keeps {h : Handle} (contained : h.Contained) :
    (fileClose h).file.data.length = h.file.data.length := by
  unfold fileClose
  split
  · simp only
    split
    · rename_i dirty
      exact flushCache_keeps (contained.resolve_left dirty.2)
    · rfl
  · rfl

end Okr
