import Okr.Proofs.Segments

/-! What a read brings from a file that was only read so far. -/

namespace Okr

/-- Nothing unwritten is in the cache of a file that was only read. -/
def OpenFile.Clean : OpenFile → Prop
  | .ntfs h => h.cachedirty = false
  | .fat _ => True

/-- The kind of volume a file was opened on. -/
def OpenFile.backend : OpenFile → Backend
  | .ntfs _ => .ntfs
  | .fat _ => .fat

/-- A file just opened is clean, and of the kind of its volume. -/
theorem openFile_clean (backend : Backend) (data : Bytes) :
    (openFile backend data []).Clean ∧ (openFile backend data []).backend = backend := by
  cases backend with
  | ntfs => exact ⟨rfl, rfl⟩
  | fat => exact ⟨trivial, rfl⟩

/-- Reading writes nothing, and stays with the kind of file. -/
theorem OpenFile.Clean.read {file : OpenFile} (clean : file.Clean) (size : Nat) :
    (file.read size).2.Clean ∧ (file.read size).2.backend = file.backend := by
  cases file with
  | ntfs h => exact ⟨(normalFileRead_frame h size).1.dirty.trans clean, rfl⟩
  | fat f => exact ⟨trivial, rfl⟩

/-- Seeking writes nothing, and stays with the kind of file. -/
theorem OpenFile.Clean.setPos {file : OpenFile} (clean : file.Clean) (pos : Nat) :
    (file.setPos pos).Clean ∧ (file.setPos pos).backend = file.backend := by
  cases file with
  | ntfs h => exact ⟨clean, rfl⟩
  | fat f => exact ⟨trivial, rfl⟩

variable {file : OpenFile} {p : Plain} {size : Nat}

/-- A clean file serves every read from inside it, apart from long ones past a FAT file's end. -/
theorem OpenFile.Reads.safe (reads : file.Reads p) (clean : file.Clean)
    (inside : p.pos ≤ p.content.length)
    (served : file.backend = .fat → size < MY_DEFINE_BUFFER_SIZE ∨ p.pos + size ≤ p.content.length) :
    file.ReadSafe size := by
  cases file with
  | ntfs h =>
    obtain ⟨refines, -, -⟩ := reads
    have flushed := refines.clean clean
    have stored : p.content = h.file.data := refines.view.symm.trans flushed
    refine Or.inr (Or.inl ⟨flushed, Or.inl ?_⟩)
    rw [refines.pos, ← stored]
    exact inside
  | fat f =>
    obtain ⟨data, pos, -⟩ := reads
    rw [← data, ← pos] at inside served
    exact ⟨inside, served rfl⟩

/-- The loop over the pieces of a long read goes on for ever at the end of the file. -/
theorem segReadLoop_short {data : Bytes} {start : Nat} (short : data.length < start + size)
    (fuel : Nat) :
    ∀ (out : Bytes) (pos : Nat), pos = start + out.length → pos ≤ data.length →
      (segReadLoop fuel size out { data := data, pos := pos }).1 = .hang := by
  induction fuel with
  | zero => exact fun _ _ _ _ => rfl
  | succ fuel ih =>
    intro out pos reached inside
    rw [segReadLoop, if_neg (by omega), efiRead_window _ rfl inside]
    dsimp only
    have length := Overlay.length_window data pos (min MY_DEFINE_BUFFER_SIZE (size - out.length))
    apply ih
    · rw [List.length_append]
      omega
    · omega

/-- A long read that meets the end of a FAT file never ends. -/
theorem segFileRead_short {f : FatFile} (sound : f.faults = []) (inside : f.pos ≤ f.data.length)
    (long : MY_DEFINE_BUFFER_SIZE ≤ size) (short : f.data.length < f.pos + size) :
    (segFileRead f size).1 = .hang := by
  obtain ⟨data, pos, faults⟩ := f
  cases sound
  rw [segFileRead, if_neg (by omega)]
  exact segReadLoop_short short (size + 1) [] pos rfl inside

/-- Behind the end of a FAT file every read fails. -/
theorem segFileRead_beyond {f : FatFile} (sound : f.faults = []) (beyond : f.data.length < f.pos) :
    (segFileRead f size).1 = .failed := by
  have fails : ∀ count, (efiRead f count).1 = none := by
    intro count
    rw [efiRead, FatFile.nextFault, sound]
    dsimp only
    rw [if_pos (Or.inr beyond)]
  rw [segFileRead]
  split
  · have none := fails size
    generalize efiRead f size = result at none
    obtain ⟨bytes, f'⟩ := result
    dsimp only at none
    rw [none]
  · next long =>
    -- The first piece fails.
    rw [segReadLoop, List.length_nil, Nat.sub_zero,
      if_neg (by rw [MY_DEFINE_BUFFER_SIZE] at long; omega)]
    have none := fails (min MY_DEFINE_BUFFER_SIZE size)
    generalize efiRead f (min MY_DEFINE_BUFFER_SIZE size) = result at none
    obtain ⟨bytes, f'⟩ := result
    dsimp only at none
    rw [none]

/-- Filling the cache fails when the driver does. -/
theorem loadNext_fails {s : ReadState}
    (fails : ∀ count, nReadFile s.h.file s.h.filepos count = (none, s.h.file)) :
    (loadNext s).1 = .fail := by
  rw [loadNext, fails]

/-- A pass that finds nothing in the cache fails when the driver does. -/
theorem readPass_fails {s : ReadState} (wanted : s.total ≠ 0) (missless : s.h.misses = false)
    (copied : copyCached s = s)
    (fails : ∀ count, nReadFile s.h.file s.h.filepos count = (none, s.h.file)) :
    (readPass s).1 = .fail := by
  obtain ⟨fuel, more⟩ : ∃ n, s.total = n + 1 := ⟨s.total - 1, by omega⟩
  have aligned : loadAligned s = (.go, s) := by
    rw [loadAligned, missless, if_neg Bool.false_ne_true]
  rw [readPass, aligned]
  simp only [copied, if_neg wanted]
  -- Either the part past the cache or the refill of the cache asks the driver.
  by_cases direct : cacheMultiple s.total = 0
  · have nothing : readDirect s.total 0 s = (.go, s) := by
      rw [more, readDirect, if_pos rfl]
    rw [direct, nothing]
    simp only [if_neg wanted]
    exact loadNext_fails fails
  · rw [more] at direct ⊢
    rw [readDirect_refused direct (fails _)]

/-- Behind the end of an NTFS file the driver is asked for a page it does not have. -/
theorem normalFileRead_beyond {h : Handle} (refines : h.Refines p) (sound : h.file.faults = [])
    (wanted : 0 < size) (aligned : p.pos % 512 = 0) (beyond : p.content.length < p.pos) :
    (normalFileRead h size).1 = .failed := by
  have pos := refines.pos
  have end_ : h.file.data.length ≤ p.content.length
      ∧ (h.cache ≠ [] → h.cachedatapos + h.cache.length ≤ p.content.length) := by
    rw [← refines.view, Handle.view]
    by_cases empty : h.cache = []
    · rw [empty, Overlay.write_nil]
      exact ⟨Nat.le_refl _, fun other => absurd rfl other⟩
    · rw [Overlay.length_write 0 _ _ empty]
      exact ⟨Nat.le_max_left _ _, fun _ => Nat.le_max_right _ _⟩
  -- the cache ends inside the content, so it holds nothing at the position
  have hitless : h.cachedPart size = 0 := by
    rw [Handle.cachedPart, if_neg]
    intro hit
    have some : h.cache ≠ [] := by
      intro empty
      rw [empty, List.length_nil] at hit
      omega
    have reach := end_.2 some
    omega
  have missless : h.misses = false := by
    rw [Handle.misses, pos, aligned]
    rfl
  -- and the file itself ends before it: the driver has no byte to give
  have fails : ∀ count, nReadFile h.file h.filepos count = (none, h.file) := by
    intro count
    have past : h.file.data.length < h.filepos := by omega
    simp only [nReadFile, NtfsFile.nextFault, sound, if_pos past]
  have copied : copyCached { h := h, total := size } = { h := h, total := size } := by
    rw [copyCached]
    dsimp only
    rw [hitless, Overlay.window_zero]
    rfl
  have nonzero : size ≠ 0 := by omega
  have pass : (readPass { h := h, total := size }).1 = .fail :=
    readPass_fails nonzero missless copied fails
  rw [normalFileRead, refines.eof, if_neg Bool.false_ne_true, readLoop]
  dsimp only
  rw [if_neg nonzero]
  generalize readPass { h := h, total := size } = result at pass
  obtain ⟨progress, s⟩ := result
  dsimp only at pass
  rw [pass]

/-- Behind the end nothing is read: a call on either kind of file fails. -/
theorem OpenFile.Reads.beyond (reads : file.Reads p) (wanted : 0 < size) (aligned : p.pos % 512 = 0)
    (beyond : p.content.length < p.pos) : (file.read size).1 = .failed := by
  cases file with
  | ntfs h =>
    obtain ⟨refines, sound, -⟩ := reads
    exact normalFileRead_beyond refines sound wanted aligned beyond
  | fat f =>
    obtain ⟨data, pos, sound⟩ := reads
    rw [← data, ← pos] at beyond
    exact segFileRead_beyond sound beyond

/-- A long read past the end of a FAT file never ends. -/
theorem OpenFile.Reads.short (reads : file.Reads p) (kind : file.backend = .fat)
    (inside : p.pos ≤ p.content.length) (long : MY_DEFINE_BUFFER_SIZE ≤ size)
    (short : p.content.length < p.pos + size) : (file.read size).1 = .hang := by
  cases file with
  | ntfs h => cases kind
  | fat f =>
    obtain ⟨data, pos, sound⟩ := reads
    rw [← data, ← pos] at inside short
    exact segFileRead_short sound inside long short

end Okr
