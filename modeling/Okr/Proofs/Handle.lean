import Okr.File.Plain

/-! The cached handle behaves like a plain file on every run whose calls are safe. -/

namespace Okr

open Overlay (window)

/-- Cached bytes show in the content the handle stands for. -/
theorem Handle.view_window {h : Handle} {i n : Nat} (starts : h.cachedatapos ≤ i)
    (ends : i + n ≤ h.cachedatapos + h.cache.length) :
    window h.view i n = window h.cache (i - h.cachedatapos) n :=
  Overlay.window_write_inside 0 _ starts ends

/-- Flushed bytes lie inside the stored file. -/
theorem Handle.Flushed.end_le {h : Handle} (flushed : h.Flushed) (some_ : h.cache ≠ []) :
    h.cachedatapos + h.cache.length ≤ h.file.data.length := by
  have reach := Overlay.length_write 0 h.file.data h.cachedatapos some_
  have same : (Overlay.write 0 h.file.data h.cachedatapos h.cache).length = h.file.data.length :=
    congrArg List.length flushed
  omega

/-- A cache filled from the file, at a position inside it, holds nothing unwritten. -/
theorem flushed_loaded {h : Handle} {n : Nat} (inside : h.cachedatapos ≤ h.file.data.length)
    (loaded : h.cache = window h.file.data h.cachedatapos n) : h.Flushed := by
  simp only [Handle.Flushed, Handle.view, loaded]
  exact Overlay.write_window 0 h.file.data n inside

/-- An empty cache holds nothing unwritten. -/
theorem flushed_empty {h : Handle} (empty : h.cache = []) : h.Flushed := by
  simp only [Handle.Flushed, Handle.view, empty, Overlay.write_nil]

/-- The cache delivers no more than what is wanted. -/
theorem Handle.cachedPart_le (h : Handle) (total : Nat) : h.cachedPart total ≤ total := by
  unfold Handle.cachedPart
  split
  · exact Nat.min_le_left _ _
  · exact Nat.zero_le _

/-- A cache that delivers all that is wanted holds all of it. -/
theorem Handle.cachedPart_whole {h : Handle} {total : Nat} (wanted : 0 < total)
    (whole : h.cachedPart total = total) :
    h.cachedatapos ≤ h.filepos ∧ h.filepos + total ≤ h.cachedatapos + h.cache.length := by
  unfold Handle.cachedPart at whole
  split at whole <;> omega

/-- What the cache delivers are the bytes of the content the handle stands for. -/
theorem Handle.cachedPart_window (h : Handle) (total : Nat) :
    window h.cache (h.filepos - h.cachedatapos) (h.cachedPart total)
      = window h.view h.filepos (h.cachedPart total) := by
  unfold Handle.cachedPart
  split
  · rename_i hit
    exact (Handle.view_window hit.1 (by omega)).symm
  · rfl

/-- The cache holds the next byte wanted. -/
def Handle.hits (h : Handle) : Prop :=
  h.cachedatapos ≤ h.filepos ∧ h.filepos < h.cachedatapos + h.cache.length

/-- A read in progress over a cache without unwritten bytes, begun in state `h₀` for `n` bytes. -/
structure ReadInv (h₀ : Handle) (n : Nat) (s : ReadState) : Prop where
  file : s.h.file = h₀.file
  stillOpen : s.h.isOpen = h₀.isOpen
  eof : s.h.ifeof = h₀.ifeof
  flushed : s.h.Flushed
  small : s.h.cache.length ≤ DEFAULT_FILE_CACHE_SIZE
  inside : s.h.filepos ≤ h₀.file.data.length
  pos : s.h.filepos = h₀.filepos + s.out.length
  left : s.out ++ window h₀.file.data s.h.filepos s.total = window h₀.file.data h₀.filepos n

/-- Loading the page in front of an unaligned position keeps the read on course. -/
theorem loadAligned_spec {h₀ : Handle} {n : Nat} {s : ReadState} (sound : h₀.file.faults = [])
    (inv : ReadInv h₀ n s) :
    ∃ s', loadAligned s = (.go, s') ∧ ReadInv h₀ n s' ∧ s'.total = s.total
      ∧ (s.h.hits → s'.h.hits) ∧ ¬ s'.h.misses := by
  by_cases miss : s.h.misses = true
  · -- The page starts inside the file, and an unaligned position lies strictly behind it.
    have unaligned := miss
    simp only [Handle.misses, Bool.and_eq_true, Bool.or_eq_true, decide_eq_true_eq, bne_iff_ne]
      at unaligned
    have inside := inv.inside
    have page : s.h.filepos / 4096 * 4096 < h₀.file.data.length := by omega
    have loaded : nReadFile s.h.file (s.h.filepos / 4096 * 4096) DEFAULT_FILE_CACHE_SIZE
        = (some (window h₀.file.data (s.h.filepos / 4096 * 4096) DEFAULT_FILE_CACHE_SIZE),
            h₀.file) := by
      rw [inv.file]
      exact nReadFile_eq _ sound (by omega)
    have width : (window h₀.file.data (s.h.filepos / 4096 * 4096) DEFAULT_FILE_CACHE_SIZE).length
        = min 0x100000 (h₀.file.data.length - s.h.filepos / 4096 * 4096) :=
      Overlay.length_window _ _ _
    have some_ : window h₀.file.data (s.h.filepos / 4096 * 4096) DEFAULT_FILE_CACHE_SIZE ≠ [] := by
      intro none_
      rw [none_, List.length_nil] at width
      omega
    simp only [loadAligned, miss, if_true, loaded, if_neg some_]
    refine ⟨_, rfl, ⟨rfl, inv.stillOpen, inv.eof, ?_, ?_, inside, inv.pos, inv.left⟩, rfl, ?_, ?_⟩
    · exact flushed_loaded (h := { s.h with
        file := h₀.file
        cachedatapos := s.h.filepos / 4096 * 4096
        cache := window h₀.file.data (s.h.filepos / 4096 * 4096) DEFAULT_FILE_CACHE_SIZE })
        (by simp only; omega) rfl
    · simp only [width]
      exact Nat.min_le_left _ _
    · intro hit
      simp only [Handle.hits] at hit
      omega
    · simp only [Handle.misses, width, Bool.and_eq_true, Bool.or_eq_true, decide_eq_true_eq]
      omega
  · simp only [loadAligned, miss, Bool.false_eq_true, if_false]
    exact ⟨s, rfl, inv, rfl, id, miss⟩

/-- Delivering from the cache keeps the read on course and delivers something on a hit. -/
theorem copyCached_spec {h₀ : Handle} {n : Nat} {s : ReadState} (inv : ReadInv h₀ n s) :
    ReadInv h₀ n (copyCached s) ∧ (copyCached s).total ≤ s.total
      ∧ (s.h.hits → 0 < s.total → (copyCached s).total < s.total) := by
  have delivered := s.h.cachedPart_window s.total
  have fewer := s.h.cachedPart_le s.total
  have flushed : s.h.view = h₀.file.data := inv.flushed.trans (congrArg NtfsFile.data inv.file)
  rw [flushed] at delivered
  -- A part of the cache ends with the cache, and the flushed cache ends inside the file.
  have reach : s.h.filepos + s.h.cachedPart s.total ≤ h₀.file.data.length := by
    unfold Handle.cachedPart
    split
    · rename_i hit
      have some_ : s.h.cache ≠ [] := by
        intro none_
        simp only [none_, List.length_nil] at hit
        omega
      have bound := inv.flushed.end_le some_
      rw [inv.file] at bound
      omega
    · exact inv.inside
  refine ⟨⟨inv.file, inv.stillOpen, inv.eof, inv.flushed, inv.small, reach, ?_, ?_⟩, ?_, ?_⟩
  · have count : (window s.h.cache (s.h.filepos - s.h.cachedatapos) (s.h.cachedPart s.total)).length
        = s.h.cachedPart s.total := by
      rw [delivered, Overlay.length_window]
      omega
    have pos := inv.pos
    simp only [copyCached, List.length_append, count]
    omega
  · simp only [copyCached, delivered, List.append_assoc]
    rw [← Overlay.window_append, Nat.add_sub_cancel' fewer]
    exact inv.left
  · exact Nat.sub_le _ _
  · intro hit wanted
    simp only [copyCached, Handle.cachedPart, Handle.hits] at hit ⊢
    rw [if_pos hit]
    omega

/-- The state after `readsize` bytes, or as many as the file has, were read past the cache. -/
def pastCache (readsize : Nat) (s : ReadState) : ReadState :=
  let bytes := window s.h.file.data s.h.filepos readsize
  { h := { s.h with filepos := s.h.filepos + bytes.length }
    total := if bytes.length = readsize then s.total - readsize else 0
    out := s.out ++ bytes }

/-- A request is the bytes of its first chunk followed by those of the rest. -/
theorem window_chunk (data : Bytes) (pos readsize chunk : Nat) (fits : chunk ≤ readsize) :
    window data pos readsize
      = window data pos chunk
        ++ window data (pos + (window data pos chunk).length)
            (readsize - (window data pos chunk).length) := by
  have width := Overlay.length_window data pos chunk
  by_cases full : pos + chunk ≤ data.length
  · have whole : (window data pos chunk).length = chunk := by omega
    rw [whole, ← Overlay.window_append, Nat.add_sub_cancel' fits]
  -- The first chunk already reached the end of the file.
  · rw [Overlay.window_of_le _ (by omega : data.length ≤ pos + (window data pos chunk).length),
      List.append_nil]
    exact Overlay.window_of_short _ (by omega) fits

/-- Reading past the cache delivers the next bytes of the stored file and leaves the cache alone. -/
theorem readDirect_spec (fuel : Nat) :
    ∀ (readsize : Nat) (s : ReadState), s.h.file.faults = [] → s.h.filepos ≤ s.h.file.data.length →
      readsize ≤ fuel → readsize ≤ s.total →
      readDirect fuel readsize s = (.go, pastCache readsize s) := by
  -- A pass reads one chunk, and its bytes are the front of the window still to read.
  induction fuel with
  | zero =>
    intro readsize s sound inside enough fits
    have empty : readsize = 0 := by omega
    subst empty
    simp [readDirect, pastCache]
  | succ fuel ih =>
    intro readsize s sound inside enough fits
    by_cases empty : readsize = 0
    · subst empty
      simp [readDirect, pastCache]
    simp only [readDirect, if_neg empty, nReadFile_eq _ sound inside]
    have chunk : 0 < min readsize DRIVER_CHUNK := by simp only [DRIVER_CHUNK]; omega
    have width := Overlay.length_window s.h.file.data s.h.filepos (min readsize DRIVER_CHUNK)
    by_cases ended : window s.h.file.data s.h.filepos (min readsize DRIVER_CHUNK) = []
    -- The file ends here, so nothing of the request is left.
    · rw [if_pos ended]
      rw [ended, List.length_nil] at width
      have past : s.h.file.data.length ≤ s.h.filepos := by omega
      simp only [pastCache, Overlay.window_of_le _ past, List.length_nil, Nat.add_zero,
        List.append_nil]
      rw [if_neg (by omega)]
    · rw [if_neg ended]
      have got : 0 < (window s.h.file.data s.h.filepos (min readsize DRIVER_CHUNK)).length :=
        List.length_pos_of_ne_nil ended
      have tail := ih
        (readsize - (window s.h.file.data s.h.filepos (min readsize DRIVER_CHUNK)).length)
        { h := { s.h with filepos := s.h.filepos
            + (window s.h.file.data s.h.filepos (min readsize DRIVER_CHUNK)).length }
          total := s.total - (window s.h.file.data s.h.filepos (min readsize DRIVER_CHUNK)).length
          out := s.out ++ window s.h.file.data s.h.filepos (min readsize DRIVER_CHUNK) }
        sound (by simp only; omega) (by omega) (by simp only; omega)
      refine tail.trans ?_
      have joined := window_chunk s.h.file.data s.h.filepos readsize (min readsize DRIVER_CHUNK)
        (Nat.min_le_left _ _)
      have lengths := congrArg List.length joined
      rw [List.length_append] at lengths
      simp only [pastCache, Prod.mk.injEq, true_and, ReadState.mk.injEq]
      refine ⟨?_, ?_, ?_⟩
      · rw [lengths, Nat.add_assoc]
      · rw [lengths]
        split <;> split <;> omega
      · rw [List.append_assoc, ← joined]

/-- Reading past the cache keeps the read on course. -/
theorem pastCache_spec {h₀ : Handle} {n readsize : Nat} {s : ReadState} (inv : ReadInv h₀ n s)
    (fits : readsize ≤ s.total) :
    ReadInv h₀ n (pastCache readsize s) ∧ (pastCache readsize s).total ≤ s.total := by
  have inside := inv.inside
  have pos := inv.pos
  have width := Overlay.length_window h₀.file.data s.h.filepos readsize
  refine ⟨⟨inv.file, inv.stillOpen, inv.eof, inv.flushed, inv.small, ?_, ?_, ?_⟩, ?_⟩
  · simp only [pastCache, inv.file]
    omega
  · simp only [pastCache, List.length_append]
    omega
  · -- A short count means that the window of the whole request ends there too.
    simp only [pastCache, inv.file, List.append_assoc]
    rw [← inv.left]
    congr 1
    by_cases full : (window h₀.file.data s.h.filepos readsize).length = readsize
    · rw [if_pos full, full, ← Overlay.window_append, Nat.add_sub_cancel' fits]
    · rw [if_neg full, Overlay.window_zero, List.append_nil]
      exact (Overlay.window_of_short _ (by omega) fits).symm
  · simp only [pastCache]
    split
    · exact Nat.sub_le _ _
    · exact Nat.zero_le _

/-- Refilling the cache either brings the next byte or shows that the file ends here. -/
theorem loadNext_spec {h₀ : Handle} {n : Nat} {s : ReadState} (sound : h₀.file.faults = [])
    (inv : ReadInv h₀ n s) :
    ∃ s', ReadInv h₀ n s' ∧ s'.total = s.total ∧
      ((loadNext s = (.go, s') ∧ s'.h.hits)
        ∨ (loadNext s = (.stop, s') ∧ s'.out = window h₀.file.data h₀.filepos n)) := by
  have inside := inv.inside
  have width := Overlay.length_window h₀.file.data s.h.filepos DEFAULT_FILE_CACHE_SIZE
  have loaded : nReadFile s.h.file s.h.filepos DEFAULT_FILE_CACHE_SIZE
      = (some (window h₀.file.data s.h.filepos DEFAULT_FILE_CACHE_SIZE), h₀.file) := by
    rw [inv.file]
    exact nReadFile_eq _ sound inside
  simp only [loadNext, loaded]
  refine ⟨{ s with h := { s.h with
      file := h₀.file
      cache := window h₀.file.data s.h.filepos DEFAULT_FILE_CACHE_SIZE
      cachedatapos := s.h.filepos } },
    ⟨rfl, inv.stillOpen, inv.eof, ?_, ?_, inside, inv.pos, inv.left⟩, rfl, ?_⟩
  · exact flushed_loaded (h := { s.h with
      file := h₀.file
      cache := window h₀.file.data s.h.filepos DEFAULT_FILE_CACHE_SIZE
      cachedatapos := s.h.filepos }) inside rfl
  · simp only [width]
    exact Nat.min_le_left _ _
  · -- Nothing is read behind the end of the file, and then all that is wanted is out.
    by_cases ended : window h₀.file.data s.h.filepos DEFAULT_FILE_CACHE_SIZE = []
    · right
      rw [if_pos ended]
      refine ⟨rfl, ?_⟩
      have past : h₀.file.data.length ≤ s.h.filepos := by
        rw [ended, List.length_nil] at width
        simp only [DEFAULT_FILE_CACHE_SIZE] at width
        omega
      have left := inv.left
      rwa [Overlay.window_of_le _ past, List.append_nil] at left
    · left
      rw [if_neg ended]
      have some_ := List.length_pos_of_ne_nil ended
      refine ⟨rfl, ?_⟩
      simp only [Handle.hits]
      omega

/-- A multiple of the cache size that fits is asked for. -/
theorem cacheMultiple_le (n : Nat) : cacheMultiple n ≤ n := by
  have low : u32 n ≤ n := Nat.mod_le _ _
  have multiple := Nat.div_mul_le_self (u32 n) DEFAULT_FILE_CACHE_SIZE
  exact Nat.le_trans multiple low

/--
One pass of a read over a cache without unwritten bytes.

It delivers something, or brings the next byte into the cache, or finds the end of the file.
-/
theorem readPass_spec {h₀ : Handle} {n : Nat} {s : ReadState} (sound : h₀.file.faults = [])
    (inv : ReadInv h₀ n s) (wanted : 0 < s.total) :
    ∃ s', ReadInv h₀ n s' ∧
      ((readPass s = (.go, s')
          ∧ (s'.total < s.total ∨ (s'.total = s.total ∧ ¬ s.h.hits ∧ s'.h.hits)))
        ∨ (readPass s = (.stop, s') ∧ s'.out = window h₀.file.data h₀.filepos n)) := by
  -- The cache is aligned, what it has is copied, whole blocks are read, and the rest is loaded.
  obtain ⟨s₁, aligned, inv₁, total₁, stays, -⟩ := loadAligned_spec sound inv
  obtain ⟨inv₂, total₂, delivers⟩ := copyCached_spec inv₁
  have progress : s.h.hits → (copyCached s₁).total < s.total := by
    intro hit
    have fewer := delivers (stays hit) (by omega)
    omega
  simp only [readPass, aligned]
  by_cases done : (copyCached s₁).total = 0
  · rw [if_pos done]
    exact ⟨_, inv₂, Or.inl ⟨rfl, Or.inl (by omega)⟩⟩
  · rw [if_neg done]
    have direct := readDirect_spec (copyCached s₁).total (cacheMultiple (copyCached s₁).total)
      (copyCached s₁) (by rw [inv₂.file]; exact sound) (by rw [inv₂.file]; exact inv₂.inside)
      (cacheMultiple_le _) (cacheMultiple_le _)
    obtain ⟨inv₃, total₃⟩ := pastCache_spec inv₂ (cacheMultiple_le (copyCached s₁).total)
    simp only [direct]
    by_cases finished : (pastCache (cacheMultiple (copyCached s₁).total) (copyCached s₁)).total = 0
    · rw [if_pos finished]
      exact ⟨_, inv₃, Or.inl ⟨rfl, Or.inl (by omega)⟩⟩
    · rw [if_neg finished]
      obtain ⟨s₄, inv₄, total₄, next | ended⟩ := loadNext_spec sound inv₃
      · refine ⟨s₄, inv₄, Or.inl ⟨next.1, ?_⟩⟩
        by_cases fewer : s₄.total < s.total
        · exact Or.inl fewer
        · exact Or.inr ⟨by omega, fun hit => by have := progress hit; omega, next.2⟩
      · exact ⟨s₄, inv₄, Or.inr ended⟩

/-- Passes enough to deliver all that is wanted: two a byte, and one more when the cache misses. -/
def EnoughPasses (fuel : Nat) (s : ReadState) : Prop :=
  2 * s.total + 1 ≤ fuel ∨ (s.h.hits ∧ 2 * s.total ≤ fuel)

/-- A read over a cache without unwritten bytes ends, with the bytes of the stored file. -/
theorem readLoop_spec {h₀ : Handle} {n : Nat} (sound : h₀.file.faults = []) (fuel : Nat) :
    ∀ s, ReadInv h₀ n s → EnoughPasses fuel s →
      ∃ s', readLoop fuel s = (.stop, s') ∧ ReadInv h₀ n s'
        ∧ s'.out = window h₀.file.data h₀.filepos n := by
  induction fuel with
  | zero =>
    intro s inv enough
    have done : s.total = 0 := by
      rcases enough with plenty | ⟨-, plenty⟩ <;> omega
    have left := inv.left
    rw [done, Overlay.window_zero, List.append_nil] at left
    exact ⟨s, by simp [readLoop, done], inv, left⟩
  | succ fuel ih =>
    intro s inv enough
    by_cases done : s.total = 0
    · have left := inv.left
      rw [done, Overlay.window_zero, List.append_nil] at left
      exact ⟨s, by simp [readLoop, done], inv, left⟩
    · obtain ⟨s₁, inv₁, ⟨pass, progress⟩ | ⟨pass, delivered⟩⟩ :=
        readPass_spec sound inv (by omega)
      · -- A pass that delivers nothing was made on a miss, and the next one hits.
        have enough₁ : EnoughPasses fuel s₁ := by
          rcases progress with fewer | ⟨same, missed, hit⟩
          · rcases enough with plenty | ⟨-, plenty⟩
            · exact Or.inl (by omega)
            · exact Or.inl (by omega)
          · rcases enough with plenty | ⟨hit₀, -⟩
            · exact Or.inr ⟨hit, by omega⟩
            · exact absurd hit₀ missed
        obtain ⟨s₂, ends, result⟩ := ih s₁ inv₁ enough₁
        refine ⟨s₂, ?_, result⟩
        rw [readLoop]
        simp only [if_neg done, pass]
        exact ends
      · refine ⟨s₁, ?_, inv₁, delivered⟩
        rw [readLoop]
        simp only [if_neg done, pass]

/-- The handle stands for the plain file. -/
structure Handle.Refines (h : Handle) (p : Plain) : Prop where
  view : h.view = p.content
  pos : h.filepos = p.pos
  eof : h.ifeof = false
  small : h.cache.length ≤ DEFAULT_FILE_CACHE_SIZE
  clean : h.cachedirty = false → h.Flushed
  closed : h.isOpen = false → h.cache = []
  addressable : p.content.length < MAX_OFFSET

/-- Cached bytes end where the driver can still address them. -/
theorem Handle.Refines.end_lt {h : Handle} {p : Plain} (refines : h.Refines p)
    (some_ : h.cache ≠ []) : h.cachedatapos + h.cache.length < MAX_OFFSET := by
  have reach := Overlay.length_write 0 h.file.data h.cachedatapos some_
  have same : (Overlay.write 0 h.file.data h.cachedatapos h.cache).length = p.content.length :=
    congrArg List.length refines.view
  have bound := refines.addressable
  omega

/-- Moving the position on both sides leaves the rest as it is. -/
theorem Handle.Refines.move {h : Handle} {p : Plain} (refines : h.Refines p) (pos : Nat) :
    ({ h with filepos := pos } : Handle).Refines { p with pos := pos } :=
  ⟨refines.view, rfl, refines.eof, refines.small, refines.clean, refines.closed,
    refines.addressable⟩

/-- The faults of the next call are not part of what the handle stands for. -/
theorem Handle.Refines.withFaults {h : Handle} {p : Plain} (refines : h.Refines p)
    (faults : List (Option Fault)) :
    ({ h with file := { h.file with faults := faults } } : Handle).Refines p :=
  ⟨refines.view, refines.pos, refines.eof, refines.small, refines.clean, refines.closed,
    refines.addressable⟩

/-- Asking for no bytes past the cache does nothing. -/
theorem pastCache_zero (s : ReadState) : pastCache 0 s = s := by
  simp [pastCache]

/-- A read that leaves the cache alone is one pass: the cached part, then the rest past it. -/
theorem readLoop_once {h : Handle} {size : Nat} (fuel : Nat) (sound : h.file.faults = [])
    (aligned : ¬ h.misses) (multiple : cacheMultiple (size - h.cachedPart size) = size - h.cachedPart size)
    (inside : 0 < size - h.cachedPart size → h.filepos + h.cachedPart size ≤ h.file.data.length) :
    readLoop (fuel + 1) { h := h, total := size }
      = (.stop, pastCache (size - h.cachedPart size) (copyCached { h := h, total := size })) := by
  by_cases nothing : size = 0
  · subst nothing
    have none_ : h.cachedPart 0 = 0 := Nat.le_zero.mp (h.cachedPart_le 0)
    simp [readLoop, copyCached, none_, pastCache]
  rw [readLoop]
  simp only [if_neg nothing, readPass, loadAligned, if_neg aligned]
  -- Either the cache has all that is wanted, or one direct read gives the rest.
  by_cases done : size - h.cachedPart size = 0
  · rw [done, pastCache_zero]
    have none_ : (copyCached { h := h, total := size }).total = 0 := done
    simp only [none_, if_true]
    unfold readLoop
    simp only [none_, if_true]
  · have some_ : ¬ (copyCached { h := h, total := size }).total = 0 := done
    have direct := readDirect_spec (size - h.cachedPart size) (size - h.cachedPart size)
      (copyCached { h := h, total := size }) sound (inside (by omega)) (Nat.le_refl _)
      (Nat.le_refl _)
    have wanted : (copyCached { h := h, total := size }).total = size - h.cachedPart size := rfl
    have ended : (pastCache (size - h.cachedPart size) (copyCached { h := h, total := size })).total
        = 0 := by
      simp only [pastCache, wanted]
      split <;> omega
    rw [if_neg some_]
    simp only [wanted, multiple, direct, ended, if_true]
    unfold readLoop
    simp only [ended, if_true]

/-- A read that leaves the cache alone delivers the plain file's bytes. -/
theorem normalFileRead_once {h : Handle} {p : Plain} {size : Nat} (refines : h.Refines p)
    (sound : h.file.faults = []) (aligned : ¬ h.misses)
    (multiple : cacheMultiple (size - h.cachedPart size) = size - h.cachedPart size)
    (inside : 0 < size - h.cachedPart size → h.filepos + h.cachedPart size ≤ h.file.data.length)
    (same : window h.file.data (h.filepos + h.cachedPart size) (size - h.cachedPart size)
      = window h.view (h.filepos + h.cachedPart size) (size - h.cachedPart size)) :
    (normalFileRead h size).1 = (plainStep p (.read size)).1
      ∧ (normalFileRead h size).2.Refines (plainStep p (.read size)).2 := by
  -- What the cache has and what the file has behind it make the window that is asked for.
  have out : (pastCache (size - h.cachedPart size) (copyCached { h := h, total := size })).out
      = window p.content p.pos size := by
    simp only [pastCache, copyCached, List.nil_append, same, h.cachedPart_window]
    rw [← Overlay.window_append, Nat.add_sub_cancel' (h.cachedPart_le size), refines.view,
      refines.pos]
  have count : h.filepos + h.cachedPart size
      + (window h.file.data (h.filepos + h.cachedPart size) (size - h.cachedPart size)).length
      = p.pos + (window p.content p.pos size).length := by
    have part : (window h.cache (h.filepos - h.cachedatapos) (h.cachedPart size)).length
        = h.cachedPart size := by
      unfold Handle.cachedPart
      split
      · rw [Overlay.length_window]
        omega
      · rfl
    rw [← out, ← refines.pos]
    simp only [pastCache, copyCached, List.nil_append, List.length_append, part, Nat.add_assoc]
  simp only [normalFileRead, refines.eof, Bool.false_eq_true, if_false,
    readLoop_once (2 * size + 1) sound aligned multiple inside, out, plainStep]
  refine ⟨trivial, ?_⟩
  rw [← count]
  exact refines.move _

/-- Whole multiples of the cache size below 4 GiB pass the 32-bit mask. -/
theorem cacheMultiple_eq {n : Nat} (small : n < 2 ^ 32) (multiple : n % DEFAULT_FILE_CACHE_SIZE = 0) :
    cacheMultiple n = n := by
  simp only [cacheMultiple, u32_eq small]
  have whole := Nat.div_add_mod n DEFAULT_FILE_CACHE_SIZE
  rw [multiple, Nat.add_zero, Nat.mul_comm] at whole
  exact whole

/-- An unaligned position whose page is the end of the file reads nothing and empties the cache. -/
theorem normalFileRead_past {h : Handle} {p : Plain} {size : Nat} (refines : h.Refines p)
    (sound : h.file.faults = []) (flushed : h.Flushed)
    (wanted : size ≠ 0) (miss : h.misses = true)
    (page : h.filepos / 4096 * 4096 = h.file.data.length) :
    (normalFileRead h size).1 = (plainStep p (.read size)).1
      ∧ (normalFileRead h size).2.Refines (plainStep p (.read size)).2 := by
  have stored : p.content = h.file.data := refines.view.symm.trans flushed
  have nothing : window h.file.data h.filepos size = [] :=
    Overlay.window_of_le _ (by omega)
  have loaded : nReadFile h.file (h.filepos / 4096 * 4096) DEFAULT_FILE_CACHE_SIZE
      = (some [], h.file) := by
    rw [nReadFile_eq _ sound (by omega), Overlay.window_of_le _ (by omega)]
  have loop : readLoop (2 * size + 2) { h := h, total := size }
      = (.stop, { h := { h with cachedatapos := h.filepos / 4096 * 4096, cache := [] }
                  total := size }) := by
    rw [readLoop]
    simp only [if_neg wanted, readPass, loadAligned, miss, if_true, loaded]
  simp only [normalFileRead, refines.eof, Bool.false_eq_true, if_false, loop, plainStep, stored,
    ← refines.pos, nothing, List.length_nil, Nat.add_zero, true_and]
  refine ⟨?_, rfl, rfl, Nat.zero_le _, fun _ => flushed_empty rfl, fun _ => rfl,
    stored ▸ refines.addressable⟩
  simp only [Handle.view, Overlay.write_nil]

/-- A safe read delivers the plain file's bytes. -/
theorem normalFileRead_refines {h : Handle} {p : Plain} {size : Nat} (refines : h.Refines p)
    (sound : h.file.faults = []) (opened : h.isOpen = true) (safe : h.ReadSafe size) :
    (normalFileRead h size).1 = (plainStep p (.read size)).1
      ∧ (normalFileRead h size).2.Refines (plainStep p (.read size)).2 := by
  by_cases empty : size = 0
  · subst empty
    have unread : normalFileRead h 0 = (.bytes [], h) := by
      simp [normalFileRead, refines.eof, readLoop]
    rw [unread]
    exact ⟨rfl, refines⟩
  rcases safe with cached | ⟨flushed, inside | ⟨miss, page⟩⟩ | ⟨aligned, small, multiple, inside, same⟩
  -- The cache delivers all of it, so the position is in the cache and nothing is left.
  · have nothing : size - h.cachedPart size = 0 := by omega
    have hit : h.cachedatapos ≤ h.filepos ∧ h.filepos < h.cachedatapos + h.cache.length := by
      by_contra missed
      simp only [Handle.cachedPart, if_neg missed] at cached
      omega
    refine normalFileRead_once refines sound ?_ ?_ ?_ ?_
    · simp only [Handle.misses, Bool.and_eq_true, Bool.or_eq_true, decide_eq_true_eq]
      omega
    · rw [nothing]
      rfl
    · omega
    · rw [nothing, Overlay.window_zero, Overlay.window_zero]
  -- Nothing unwritten is in the cache, so the cache may be refilled at will.
  · have stored : p.content = h.file.data := refines.view.symm.trans flushed
    have start : ReadInv h size { h := h, total := size } :=
      ⟨rfl, rfl, rfl, flushed, refines.small, inside, rfl, rfl⟩
    obtain ⟨s, ends, inv, delivered⟩ :=
      readLoop_spec sound (2 * size + 2) _ start (Or.inl (by simp only; omega))
    simp only [normalFileRead, refines.eof, Bool.false_eq_true, if_false, ends, delivered,
      plainStep, stored, ← refines.pos, true_and]
    refine ⟨inv.flushed.trans (congrArg NtfsFile.data inv.file), ?_, inv.eof.trans refines.eof,
      inv.small, fun _ => inv.flushed, ?_, stored ▸ refines.addressable⟩
    · rw [inv.pos, delivered]
    · intro shut
      rw [inv.stillOpen, opened] at shut
      exact absurd shut (by decide)
  · exact normalFileRead_past refines sound flushed empty miss page
  -- What the cache does not deliver is read past it, and the stored file has the right bytes there.
  · exact normalFileRead_once refines sound aligned (cacheMultiple_eq small multiple)
      (fun _ => inside) same

/-- A write that ends below the largest offset leaves a file the driver can address. -/
theorem plainWrite_addressable {p : Plain} {buffer : Bytes}
    (addressable : p.content.length < MAX_OFFSET) (reach : p.pos + buffer.length < MAX_OFFSET) :
    (plainStep p (.write buffer)).2.content.length < MAX_OFFSET := by
  have longest := Overlay.length_write_le 0 p.content p.pos buffer
  simp only [plainStep]
  omega

/-- A handle whose cache is empty, with so much of its file already written. -/
structure WriteInv (p : Plain) (buffer : Bytes) (h : Handle) (rest : Bytes) : Prop where
  sound : h.file.faults = []
  opened : h.isOpen = true
  eof : h.ifeof = false
  empty : h.cache = []
  addressable : p.content.length < MAX_OFFSET
  reach : h.filepos + rest.length < MAX_OFFSET
  suffix : ∃ done, buffer = done ++ rest ∧ h.filepos = p.pos + done.length
    ∧ h.file.data = Overlay.write 0 p.content p.pos done

/-- Flushing without faults stores the content the handle stands for. -/
theorem flushCache_eq {h : Handle} (sound : h.file.faults = [])
    (fits : h.cachedatapos + h.cache.length < MAX_OFFSET) :
    flushCache h = (true, { h with file := { h.file with data := h.view } }) := by
  simp only [flushCache, nWriteFile_eq sound fits]
  rfl

/-- Writing past the cache stores the front of the buffer at the position. -/
theorem writeDirect_spec {p : Plain} {buffer : Bytes} (fuel : Nat) :
    ∀ (writesize : Nat) (h : Handle) (rest : Bytes), WriteInv p buffer h rest →
      writesize ≤ fuel → writesize ≤ rest.length →
      ∃ h', writeDirect fuel writesize h rest = (.go, h', rest.drop writesize)
        ∧ WriteInv p buffer h' (rest.drop writesize) := by
  induction fuel with
  | zero =>
    intro writesize h rest inv enough fits
    have nothing : writesize = 0 := by omega
    subst nothing
    exact ⟨h, by simp [writeDirect], by simpa using inv⟩
  | succ fuel ih =>
    intro writesize h rest inv enough fits
    by_cases nothing : writesize = 0
    · subst nothing
      exact ⟨h, by simp [writeDirect], by simpa using inv⟩
    -- One chunk more is stored, right behind what is there already.
    have chunk : 0 < min writesize DRIVER_CHUNK := by simp only [DRIVER_CHUNK]; omega
    have count : (rest.take (min writesize DRIVER_CHUNK)).length = min writesize DRIVER_CHUNK := by
      rw [List.length_take]
      omega
    obtain ⟨done, whole, pos, data⟩ := inv.suffix
    have inv' : WriteInv p buffer
        { h with
          file := { h.file with
            data := Overlay.write 0 h.file.data h.filepos (rest.take (min writesize DRIVER_CHUNK)) }
          filepos := h.filepos + (rest.take (min writesize DRIVER_CHUNK)).length }
        (rest.drop (min writesize DRIVER_CHUNK)) := by
      have reach := inv.reach
      refine ⟨inv.sound, inv.opened, inv.eof, inv.empty, inv.addressable, ?_,
        done ++ rest.take (min writesize DRIVER_CHUNK), ?_, ?_, ?_⟩
      · simp only [List.length_drop, count]
        omega
      · rw [List.append_assoc, List.take_append_drop, whole]
      · simp only [pos, List.length_append, Nat.add_assoc]
      · simp only [data, pos, Overlay.write_append]
    obtain ⟨h', stored, result⟩ := ih (writesize - min writesize DRIVER_CHUNK) _ _ inv'
      (by omega) (by rw [List.length_drop]; omega)
    have back : min writesize DRIVER_CHUNK + (writesize - min writesize DRIVER_CHUNK) = writesize := by
      omega
    rw [List.drop_drop, back] at stored result
    refine ⟨h', ?_, result⟩
    have reach := inv.reach
    have fits : h.filepos + (rest.take (min writesize DRIVER_CHUNK)).length < MAX_OFFSET := by omega
    simp only [writeDirect, if_neg nothing, nWriteFile_eq inv.sound fits]
    rw [count] at stored ⊢
    exact stored

/-- With an empty cache a write below 4 GiB stores its multiples and keeps the rest in the cache. -/
theorem writePast_spec {p : Plain} {buffer rest : Bytes} {h : Handle} (inv : WriteInv p buffer h rest)
    (small : rest.length < 2 ^ 32) :
    ∃ h', writePast h rest = (.stop, h', []) ∧ h'.Refines (plainStep p (.write buffer)).2 := by
  obtain ⟨h₁, direct, inv₁⟩ := writeDirect_spec rest.length (cacheMultiple rest.length) h rest inv
    (cacheMultiple_le _) (cacheMultiple_le _)
  obtain ⟨done, whole, pos, data⟩ := inv₁.suffix
  have count := congrArg List.length whole
  rw [List.length_append] at count
  have addressable : (plainStep p (.write buffer)).2.content.length < MAX_OFFSET := by
    have reach := inv₁.reach
    exact plainWrite_addressable inv.addressable (by omega)
  simp only [writePast, direct, keepTail]
  by_cases nothing : rest.drop (cacheMultiple rest.length) = []
  -- Everything is stored already.
  · rw [if_pos nothing]
    rw [nothing, List.append_nil] at whole
    refine ⟨h₁, rfl, ?_, ?_, inv₁.eof, ?_, fun _ => flushed_empty inv₁.empty, fun _ => inv₁.empty,
      addressable⟩
    · simp only [Handle.view, inv₁.empty, Overlay.write_nil, data, plainStep, whole]
    · simp only [pos, plainStep, whole]
    · rw [inv₁.empty]
      exact Nat.zero_le _
  · -- The remainder below one cache size always fits.
    have tail : (rest.drop (cacheMultiple rest.length)).length ≤ DEFAULT_FILE_CACHE_SIZE := by
      have whole_ := Nat.div_add_mod rest.length DEFAULT_FILE_CACHE_SIZE
      have below : rest.length % DEFAULT_FILE_CACHE_SIZE < DEFAULT_FILE_CACHE_SIZE :=
        Nat.mod_lt _ (by decide)
      rw [List.length_drop, cacheMultiple, u32_eq small, Nat.mul_comm]
      omega
    rw [if_neg nothing, if_neg (by omega)]
    refine ⟨_, rfl, ?_, ?_, inv₁.eof, tail, ?_, ?_, addressable⟩
    · simp only [Handle.view, data, pos, Overlay.write_append, ← whole, plainStep]
    · simp only [pos, plainStep]
      omega
    · intro clean
      exact absurd clean (by simp)
    · intro shut
      exact absurd (shut.symm.trans inv₁.opened) (by decide)

/-- Before a write goes on in the cache, the cached bytes end at the position. -/
theorem settleCache_spec {h : Handle} {p : Plain} (refines : h.Refines p)
    (sound : h.file.faults = []) (opened : h.isOpen = true) (some_ : h.cache ≠ []) :
    ∃ h', settleCache h = (true, h') ∧ h'.Refines p ∧ h'.file.faults = [] ∧ h'.isOpen = true
      ∧ h'.filepos = h.filepos
      ∧ h'.filepos = h'.cachedatapos + h'.cache.length
      ∧ h'.cache.length
          = if h.filepos ≠ h.cachedatapos + h.cache.length then 0 else h.cache.length := by
  by_cases apart : h.filepos ≠ h.cachedatapos + h.cache.length
  · simp only [settleCache, if_pos apart, flushCache_eq sound (refines.end_lt some_)]
    refine ⟨_, rfl, ⟨?_, refines.pos, refines.eof, Nat.zero_le _, fun _ => flushed_empty rfl,
      fun _ => rfl, refines.addressable⟩, sound, opened, rfl, rfl, rfl⟩
    exact refines.view
  · simp only [settleCache, if_neg apart]
    exact ⟨h, rfl, refines, sound, opened, rfl, not_not.mp apart, rfl⟩

/-- A write that continues the cached bytes lays them over the content. -/
theorem fillCache_spec {h : Handle} {p : Plain} (buffer : Bytes) (refines : h.Refines p)
    (sound : h.file.faults = []) (opened : h.isOpen = true)
    (meets : h.filepos = h.cachedatapos + h.cache.length)
    (reach : h.filepos + buffer.length < MAX_OFFSET) :
    (∃ h', fillCache h buffer = (.stop, h', []) ∧ h'.Refines (plainStep p (.write buffer)).2)
      ∨ ∃ h', fillCache h buffer
            = (.go, h', buffer.drop (DEFAULT_FILE_CACHE_SIZE - h.cache.length))
          ∧ WriteInv p buffer h' (buffer.drop (DEFAULT_FILE_CACHE_SIZE - h.cache.length)) := by
  have small := refines.small
  have pos := refines.pos
  have joined : Overlay.write 0 h.file.data h.cachedatapos
      (h.cache ++ buffer.take (DEFAULT_FILE_CACHE_SIZE - h.cache.length))
      = Overlay.write 0 p.content p.pos (buffer.take (DEFAULT_FILE_CACHE_SIZE - h.cache.length)) := by
    rw [← Overlay.write_append, ← meets, pos, ← refines.view]
    rfl
  have taken := List.length_take (l := buffer) (i := DEFAULT_FILE_CACHE_SIZE - h.cache.length)
  by_cases full : (h.cache ++ buffer.take (DEFAULT_FILE_CACHE_SIZE - h.cache.length)).length
      = DEFAULT_FILE_CACHE_SIZE
  -- A full cache is stored, and the rest of the buffer goes on without it.
  · right
    have flushed := flushCache_eq
      (h := { h with cache := h.cache ++ buffer.take (DEFAULT_FILE_CACHE_SIZE - h.cache.length) })
      sound (by simp only [List.length_append]; omega)
    simp only [fillCache, if_pos full, flushed]
    refine ⟨_, rfl, sound, opened, refines.eof, rfl, refines.addressable, ?_, _,
      (List.take_append_drop (DEFAULT_FILE_CACHE_SIZE - h.cache.length) buffer).symm, ?_, ?_⟩
    · simp only [List.length_append, List.length_drop]
      omega
    · simp only [List.length_append]
      omega
    · exact joined
  -- The buffer fits, so the cache holds all of it.
  · left
    rw [List.length_append] at full
    have fits : buffer.length ≤ DEFAULT_FILE_CACHE_SIZE - h.cache.length := by omega
    have all := List.take_of_length_le fits
    have none_ : buffer.drop (DEFAULT_FILE_CACHE_SIZE - h.cache.length) = [] :=
      List.drop_eq_nil_of_le fits
    rw [all] at joined full
    simp only [fillCache, List.length_append, if_neg full, all, none_]
    refine ⟨_, rfl, joined, ?_, refines.eof, ?_, ?_, ?_,
      plainWrite_addressable refines.addressable (by omega)⟩
    · simp only [plainStep, pos]
    · simp only [List.length_append]
      omega
    · intro clean
      exact absurd clean (by simp)
    · intro shut
      exact absurd (shut.symm.trans opened) (by decide)

/-- A safe write lays its bytes over the plain file. -/
theorem normalFileWrite_refines {h : Handle} {p : Plain} {buffer : Bytes} (refines : h.Refines p)
    (sound : h.file.faults = []) (opened : h.isOpen = true)
    (reach : h.filepos + buffer.length < MAX_OFFSET) (small : h.writeLeft buffer.length < 2 ^ 32) :
    (normalFileWrite h buffer).1 = (plainStep p (.write buffer)).1
      ∧ (normalFileWrite h buffer).2.Refines (plainStep p (.write buffer)).2 := by
  -- Both ways through the stages end with the whole buffer taken.
  suffices stages : ∃ h', writeStages h buffer = (.stop, h', [])
      ∧ h'.Refines (plainStep p (.write buffer)).2 by
    obtain ⟨h', ends, result⟩ := stages
    simp only [normalFileWrite, ends]
    exact ⟨rfl, result⟩
  by_cases empty : h.cache = []
  · simp only [writeStages, if_pos empty]
    simp only [Handle.writeLeft, if_pos empty] at small
    refine writePast_spec ⟨sound, opened, refines.eof, empty, refines.addressable, reach, [], rfl,
      refines.pos, ?_⟩ small
    have view := refines.view
    simp only [Handle.view, empty, Overlay.write_nil] at view
    rw [Overlay.write_nil, view]
  · obtain ⟨h₁, settled, refines₁, sound₁, opened₁, pos₁, meets, length⟩ :=
      settleCache_spec refines sound opened empty
    simp only [writeStages, if_neg empty, settled]
    simp only [Handle.writeLeft, if_neg empty] at small
    rcases fillCache_spec buffer refines₁ sound₁ opened₁ meets (by rw [pos₁]; exact reach) with
      ⟨h', ends, result⟩ | ⟨h', goes, inv⟩
    · simp only [ends]
      exact ⟨h', rfl, result⟩
    · simp only [goes]
      refine writePast_spec inv ?_
      rw [List.length_drop, length]
      split at small <;> rename_i apart
      · rw [if_pos apart]
        exact small
      · rw [if_neg apart]
        exact small

/-- Closing stores the content the handle stands for. -/
theorem fileClose_refines {h : Handle} {p : Plain} (refines : h.Refines p)
    (sound : h.file.faults = []) :
    (fileClose h).file.data = p.content ∧ (fileClose h).Refines (plainStep p .close).2 := by
  have stored : (fileClose h).file.data = p.content := by
    by_cases opened : h.isOpen = true
    · by_cases dirty : h.cachedirty = true ∧ h.cache ≠ []
      · simp only [fileClose, if_pos opened, if_pos dirty,
          flushCache_eq sound (refines.end_lt dirty.2)]
        exact refines.view
      · simp only [fileClose, if_pos opened, if_neg dirty]
        -- A cache that is clean or empty holds nothing unwritten.
        have flushed : h.Flushed := by
          by_cases clean : h.cachedirty = true
          · exact flushed_empty (by_contra fun some_ => dirty ⟨clean, some_⟩)
          · exact refines.clean (by simpa using clean)
        exact flushed.symm.trans refines.view
    · simp only [fileClose, if_neg opened]
      have flushed : h.Flushed := flushed_empty (refines.closed (by simpa using opened))
      exact flushed.symm.trans refines.view
  refine ⟨stored, ?_, rfl, ?_, Nat.zero_le _, fun _ => flushed_empty rfl, fun _ => rfl,
    refines.addressable⟩
  · simp only [Handle.view, plainStep, ← stored]
    rfl
  · by_cases opened : h.isOpen = true
    · by_cases dirty : h.cachedirty = true ∧ h.cache ≠ []
      · simp only [fileClose, if_pos opened, if_pos dirty,
          flushCache_eq sound (refines.end_lt dirty.2)]
        exact refines.eof
      · simp only [fileClose, if_pos opened, if_neg dirty]
        exact refines.eof
    · simp only [fileClose, if_neg opened]
      exact refines.eof

/-- One safe call keeps the handle in step with the plain file. -/
theorem handleStep_refines {h : Handle} {p : Plain} {c : Call} (refines : h.Refines p)
    (safe : h.Safe c) :
    (handleStep h c).1 = (plainStep p c.op).1
      ∧ (c.op = .close → (handleStep h c).2.file.data = p.content)
      ∧ (handleStep h c).2.Refines (plainStep p c.op).2 := by
  obtain ⟨op, faults⟩ := c
  obtain ⟨sound, request⟩ := safe
  have refines := refines.withFaults faults
  cases op with
  | setPos pos => exact ⟨rfl, by simp, refines.view, rfl, rfl, refines.small, refines.clean, refines.closed,
    refines.addressable⟩
  | read size =>
    obtain ⟨opened, able⟩ := request
    simp only [handleStep, if_pos opened]
    obtain ⟨reply, next⟩ := normalFileRead_refines refines sound opened able
    exact ⟨reply, by simp, next⟩
  | write buffer =>
    obtain ⟨opened, reach, left⟩ := request
    simp only [handleStep, if_pos opened]
    obtain ⟨reply, next⟩ := normalFileWrite_refines refines sound opened reach left
    exact ⟨reply, by simp, next⟩
  | close =>
    obtain ⟨stored, next⟩ := fileClose_refines refines sound
    exact ⟨rfl, fun _ => stored, next⟩

/-- A handle in step with a plain file conforms to it for as long as the calls are safe. -/
theorem conforms_of_refines (calls : List Call) :
    ∀ (h : Handle) (p : Plain), h.Refines p → SafeRun h calls → Conforms h p calls := by
  induction calls with
  | nil => exact fun _ _ _ _ => trivial
  | cons c calls ih =>
    intro h p refines safe
    obtain ⟨reply, stored, next⟩ := handleStep_refines refines safe.1
    exact ⟨reply, stored, ih _ _ next safe.2⟩

/-- A handle just opened stands for the file's content. -/
theorem fileOpen_refines {content : Bytes} (addressable : content.length < MAX_OFFSET) :
    (fileOpen content).Refines { content := content } :=
  ⟨rfl, rfl, rfl, Nat.zero_le _, fun _ => rfl, fun _ => rfl, addressable⟩

/--
On every run whose calls are safe in the states they meet, the cached handle is a plain file.

Every reply is the plain file's, and after a close the volume stores the plain file's bytes.
-/
theorem handle_conforms (content : Bytes) (calls : List Call)
    (addressable : content.length < MAX_OFFSET) (safe : SafeRun (fileOpen content) calls) :
    Conforms (fileOpen content) { content := content } calls :=
  conforms_of_refines calls _ _ (fileOpen_refines addressable) safe

/-- A write that is read back from the cache before the handle is closed. -/
theorem handle_conforms_readBack :
    Conforms (fileOpen [7, 8]) { content := [7, 8] }
      [⟨.write [1, 2, 3], []⟩, ⟨.setPos 1, []⟩, ⟨.read 2, []⟩, ⟨.close, []⟩] :=
  handle_conforms [7, 8] _ (by decide) (by decide +kernel)

/-- A read behind an unwritten byte drops it, and closing reports success over the old content. -/
theorem handle_readDropsWrite :
    ¬ ∀ (content : Bytes) (calls : List Call), (∀ c ∈ calls, c.faults = []) →
      Conforms (fileOpen content) { content := content } calls := by
  intro claim
  have run := claim [7] [⟨.write [1], []⟩, ⟨.read 1, []⟩, ⟨.close, []⟩] (by decide)
  have lost : (handleStep (handleStep (handleStep (fileOpen [7]) ⟨.write [1], []⟩).2
      ⟨.read 1, []⟩).2 ⟨.close, []⟩).2.file.data = [7] := by decide +kernel
  have stored := run.2.2.2.2.2.1 rfl
  rw [lost] at stored
  exact absurd stored (by decide)

end Okr
