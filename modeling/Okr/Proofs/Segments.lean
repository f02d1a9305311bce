import Okr.File.Stream
import Okr.Proofs.Handle
import Okr.Proofs.HandleFrame

/-! Reading a segmented file up to the conversion gives the bytes of its segments, one after the other. -/

namespace Okr

/-! ### One segment -/

/-- An open file reads as a plain one would, without a fault to come. -/
def OpenFile.Reads : OpenFile → Plain → Prop
  | .ntfs h, p => h.Refines p ∧ h.file.faults = [] ∧ h.isOpen = true
  | .fat f, p => f.data = p.content ∧ f.pos = p.pos ∧ f.faults = []

/-- Without a fault, and not behind the end, the firmware reads the window at the position. -/
theorem efiRead_window {f : FatFile} (size : Nat) (sound : f.faults = []) (inside : f.pos ≤ f.data.length) :
    efiRead f size
      = (some (Overlay.window f.data f.pos size),
          { f with pos := f.pos + (Overlay.window f.data f.pos size).length }) := by
  have quiet : f.nextFault = (none, f) := by rw [FatFile.nextFault, sound]
  rw [efiRead, quiet]
  dsimp only
  rw [if_neg]
  intro bad
  cases bad with
  | inl fault => exact absurd fault (by decide)
  | inr past => omega

/-- The loop over the pieces ends with the whole window, when the file holds it. -/
theorem segReadLoop_window {data : Bytes} {start size : Nat} (inside : start + size ≤ data.length)
    (fuel : Nat) :
    ∀ done, done ≤ size → size - done < fuel →
      segReadLoop fuel size (Overlay.window data start done) { data := data, pos := start + done }
        = (.bytes (Overlay.window data start size), { data := data, pos := start + size }) := by
  induction fuel with
  | zero => exact fun done _ none => absurd none (Nat.not_lt_zero _)
  | succ fuel ih =>
    intro done reached enough
    have length : (Overlay.window data start done).length = done := by
      rw [Overlay.length_window]
      omega
    rw [segReadLoop, length]
    by_cases whole : size ≤ done
    · have eq : done = size := by omega
      rw [if_pos whole, eq]
    · rw [if_neg whole]
      -- A piece is not empty, as the window goes on behind what was read.
      generalize piece : min MY_DEFINE_BUFFER_SIZE (size - done) = count
      have some : 0 < count ∧ done + count ≤ size := by
        rw [MY_DEFINE_BUFFER_SIZE] at piece
        omega
      rw [efiRead_window _ rfl (by dsimp only; omega)]
      dsimp only
      have read : (Overlay.window data (start + done) count).length = count := by
        rw [Overlay.length_window]
        omega
      rw [read, ← Overlay.window_append, Nat.add_assoc start]
      exact ih (done + count) some.2 (by omega)

/-- `SegFileRead` gives the window at the position. -/
theorem segFileRead_window {f : FatFile} {size : Nat} (sound : f.faults = [])
    (safe : (OpenFile.fat f).ReadSafe size) :
    segFileRead f size
      = (.bytes (Overlay.window f.data f.pos size),
          { f with pos := f.pos + (Overlay.window f.data f.pos size).length }) := by
  obtain ⟨data, pos, faults⟩ := f
  cases sound
  obtain ⟨inside, whole⟩ := safe
  dsimp only at inside whole ⊢
  rw [segFileRead]
  split
  · rw [efiRead_window size rfl inside]
  · next large =>
    have whole : pos + size ≤ data.length := by
      cases whole with
      | inl small => exact absurd small large
      | inr whole => exact whole
    have length : (Overlay.window data pos size).length = size := by
      rw [Overlay.length_window]
      omega
    rw [length]
    exact segReadLoop_window whole (size + 1) 0 (Nat.zero_le _) (by omega)

/-- A safe read of an open file replies and moves as the plain file does. -/
theorem OpenFile.Reads.read {file : OpenFile} {p : Plain} {size : Nat} (reads : file.Reads p)
    (safe : file.ReadSafe size) :
    (file.read size).1 = .bytes (Overlay.window p.content p.pos size)
      ∧ (file.read size).2.Reads (plainStep p (.read size)).2 := by
  cases file with
  | ntfs h =>
    obtain ⟨refines, sound, opened⟩ := reads
    obtain ⟨reply, next⟩ := normalFileRead_refines refines sound opened safe
    obtain ⟨frame, -⟩ := normalFileRead_frame h size
    exact ⟨reply, next, frame.sound sound, frame.stillOpen.trans opened⟩
  | fat f =>
    obtain ⟨data, pos, sound⟩ := reads
    rw [OpenFile.read, segFileRead_window sound safe, data, pos]
    exact ⟨rfl, rfl, rfl, sound⟩

/-- Behind the last byte of the plain file there is nothing stored either. -/
theorem OpenFile.Reads.atEnd {file : OpenFile} {p : Plain} (reads : file.Reads p)
    (past : p.content.length ≤ p.pos) : file.AtEnd := by
  cases file with
  | ntfs h =>
    obtain ⟨refines, -, -⟩ := reads
    rw [← refines.view, ← refines.pos, Handle.view] at past
    rw [OpenFile.AtEnd]
    by_cases empty : h.cache = []
    · rw [empty, Overlay.write_nil] at past
      exact past
    · rw [Overlay.length_write 0 _ _ empty] at past
      omega
  | fat f =>
    obtain ⟨data, pos, -⟩ := reads
    rw [OpenFile.AtEnd, data, pos]
    exact past

/-- Closing a file that was read leaves its bytes. -/
theorem OpenFile.Reads.close {file : OpenFile} {p : Plain} (reads : file.Reads p) :
    file.close = p.content := by
  cases file with
  | ntfs h => exact (fileClose_refines reads.1 reads.2.1).1
  | fat f => exact reads.1

/-- Seeking moves the plain file; the largest position is the end of a FAT file instead. -/
theorem OpenFile.Reads.setPos {file : OpenFile} {p : Plain} (pos : Nat) (reads : file.Reads p)
    (usual : ∀ f, file = .fat f → pos ≠ 2 ^ 64 - 1) :
    (file.setPos pos).Reads { p with pos := pos } := by
  cases file with
  | ntfs h =>
    obtain ⟨refines, sound, opened⟩ := reads
    exact ⟨⟨refines.view, rfl, rfl, refines.small, refines.clean, refines.closed, refines.addressable⟩,
      sound, opened⟩
  | fat f =>
    obtain ⟨data, -, sound⟩ := reads
    exact ⟨data, if_neg (usual f rfl), sound⟩

/-- A file just opened reads as its bytes from the front. -/
theorem openFile_reads (backend : Backend) {data : Bytes} (addressable : data.length < MAX_OFFSET) :
    (openFile backend data []).Reads { content := data } := by
  cases backend with
  | ntfs => exact ⟨fileOpen_refines addressable, rfl, rfl⟩
  | fat => exact ⟨rfl, rfl, rfl⟩

/-! ### One segment after the other -/

/-- The file stands where the stream does, and has the segment open that it is in. -/
structure SegFile.Follows (f : SegFile) (s : Stream) : Prop where
  volume : f.volume = s.segments
  segmented : f.ifneedseg = s.segmented
  current : f.currentfileseg = s.current
  ended : f.ifeof = s.ended
  kind : ∀ g, f.opened = some (.fat g) → f.backend = .fat
  stored : ∀ file, f.opened = some file → s.segments s.current = some s.content
  reads : ∀ file, f.opened = some file → file.Reads { content := s.content, pos := s.pos }

/-- The segments are files a volume can hold. -/
def Addressable (segments : Nat → Option Bytes) : Prop :=
  ∀ k data, segments k = some data → data.length < MAX_OFFSET

/-- What stands for a segment is kept by storing it once more. -/
theorem storeSegment_same {segments : Nat → Option Bytes} {k : Nat} {data : Bytes}
    (same : segments k = some data) : storeSegment segments k (some data) = segments := by
  funext i
  rw [storeSegment]
  split
  · next eq => rw [eq, same]
  · rfl

/-- A call on a FAT volume gives a FAT file, and one on an NTFS volume an NTFS file. -/
theorem OpenFile.read_kind {file : OpenFile} (size : Nat) {g : FatFile}
    (result : (file.read size).2 = .fat g) : ∃ g', file = .fat g' := by
  cases file with
  | ntfs h => exact OpenFile.noConfusion result
  | fat f => exact ⟨f, rfl⟩

/-- Going on to another segment changes what is open, and nothing of how the file is read. -/
theorem close_openRead (f : SegFile) (k : Nat) :
    (f.close.openRead k).backend = f.backend ∧ (f.close.openRead k).ifneedseg = f.ifneedseg
      ∧ (f.close.openRead k).currentfileseg = k ∧ (f.close.openRead k).ifeof = f.ifeof := by
  rw [SegFile.openRead, SegFile.close]
  cases f.opened with
  | none => exact ⟨rfl, rfl, rfl, rfl⟩
  | some file => exact ⟨rfl, rfl, rfl, rfl⟩

/-- The next segment is opened as the volume stores it. -/
theorem openNext_follows {f : SegFile} {s : Stream} {file : OpenFile} (follows : f.Follows s)
    (opened : f.opened = some file) :
    (f.close.openRead (f.currentfileseg + 1)).volume = s.segments
      ∧ (f.close.openRead (f.currentfileseg + 1)).opened
        = (s.segments (s.current + 1)).map fun data => openFile f.backend data [] := by
  have closed : f.close.volume = s.segments := by
    rw [SegFile.close, opened]
    dsimp only
    rw [(follows.reads file opened).close, follows.volume, follows.current]
    exact storeSegment_same (follows.stored file opened)
  refine ⟨closed, ?_⟩
  rw [SegFile.openRead]
  dsimp only
  rw [closed, follows.current]
  have backend : f.close.backend = f.backend := by
    rw [SegFile.close, opened]
  rw [backend]

/-- Reading the open segment follows the stream within the segment. -/
theorem readOpen_follows {f : SegFile} {s : Stream} {file : OpenFile} {size : Nat}
    (follows : f.Follows s) (opened : f.opened = some file) (safe : file.ReadSafe size) :
    (f.readOpen size).1 = .bytes (Overlay.window s.content s.pos size)
      ∧ (f.readOpen size).2.Follows
          { s with pos := s.pos + (Overlay.window s.content s.pos size).length }
      ∧ (f.readOpen size).2.opened = some (file.read size).2 := by
  obtain ⟨reply, next⟩ := (follows.reads file opened).read safe
  rw [SegFile.readOpen, opened]
  dsimp only
  refine ⟨reply, ⟨follows.volume, follows.segmented, follows.current, follows.ended, ?_, ?_, ?_⟩, rfl⟩
  · intro g eq
    obtain ⟨g', kind⟩ := OpenFile.read_kind size (Option.some.inj eq)
    exact follows.kind g' (kind ▸ opened)
  · exact fun _ _ => follows.stored file opened
  · intro file' eq
    cases eq
    exact next

/-- The content of a stream at the front of its next segment. -/
theorem Stream.next_content {s : Stream} {data : Bytes} (more : s.segments (s.current + 1) = some data) :
    ({ s with current := s.current + 1, pos := 0 } : Stream).content = data := by
  rw [Stream.content]
  dsimp only
  rw [more]
  rfl

/-- Where the next segment has been opened, the file follows the stream at its front. -/
theorem SegFile.follows_next {g : SegFile} {s : Stream} {data : Bytes}
    (addressable : Addressable s.segments) (more : s.segments (s.current + 1) = some data)
    (volume : g.volume = s.segments) (flag : g.ifneedseg = s.segmented)
    (current : g.currentfileseg = s.current + 1) (eof : g.ifeof = s.ended)
    (opens : g.opened = some (openFile g.backend data [])) :
    g.Follows { s with current := s.current + 1, pos := 0 } := by
  have content := Stream.next_content more
  refine ⟨volume, flag, current, eof, ?_, ?_, ?_⟩
  · intro f eq
    rw [opens] at eq
    cases kind : g.backend with
    | ntfs =>
      rw [kind] at eq
      cases eq
    | fat => rfl
  · intro file _
    rw [content]
    exact more
  · intro file eq
    rw [opens] at eq
    cases eq
    rw [content]
    exact openFile_reads g.backend (addressable _ data more)

/-- A read that the segments serve is the stream's, up to the conversion. -/
theorem readNext_follows {f : SegFile} {s : Stream} {size : Nat} (follows : f.Follows s)
    (addressable : Addressable s.segments) (going : s.ended = false) (serves : f.Serves size) :
    (f.readNext size).1 = .bytes (s.plainRead size).1
      ∧ (f.readNext size).2.Follows (s.plainRead size).2
      ∧ ((s.plainRead size).2.ended = false → (f.readNext size).2.opened.isSome = true) := by
  have goes : f.ifeof = false := follows.ended.trans going
  obtain ended | ⟨file, opened, safe, across⟩ := serves
  · rw [goes] at ended
    exact Bool.noConfusion ended
  obtain ⟨reply, next, stays⟩ := readOpen_follows follows opened safe
  rw [SegFile.readNext, Stream.plainRead, if_neg (by simp [going])]
  generalize read : f.readOpen size = result at reply next stays
  obtain ⟨given, f'⟩ := result
  dsimp only at reply next stays
  rw [reply]
  dsimp only
  have sameFlag : f'.ifneedseg = s.segmented := next.segmented
  rw [sameFlag]
  by_cases crosses : s.segmented = true ∧ Overlay.window s.content s.pos size = []
  · -- The segment has ended, so the next one is opened, if there is one.
    rw [if_pos crosses, if_pos crosses]
    obtain ⟨volume, opens⟩ := openNext_follows next stays
    dsimp only at volume opens
    obtain ⟨kind, flag, current, eof⟩ := close_openRead f' (f'.currentfileseg + 1)
    have current := current.trans (congrArg (· + 1) next.current)
    have backend : f'.backend = f.backend := by
      have same := congrArg (fun r => r.2.backend) read
      dsimp only at same
      rw [← same, SegFile.readOpen, opened]
    rw [backend] at opens
    generalize f'.close.openRead (f'.currentfileseg + 1) = g at volume opens kind flag current eof
    obtain ⟨gBackend, gFlag, gCurrent, gSize, gEof, gOpened, gVolume⟩ := g
    dsimp only at volume opens kind flag current eof
    cases more : s.segments (s.current + 1) with
    | none =>
      rw [more, Option.map_none] at opens
      rw [opens]
      dsimp only
      refine ⟨rfl, ⟨volume, flag.trans sameFlag, current, rfl, ?_, ?_, ?_⟩,
        fun other => Bool.noConfusion other⟩
      all_goals
        intro file none
        cases none
    | some data =>
      rw [more, Option.map_some] at opens
      rw [opens]
      dsimp only
      -- The next segment is read from its front, as a stream at its start is.
      have needed : f.ifneedseg = true := follows.segmented.trans crosses.1
      obtain ⟨wanted, across⟩ := across needed
      have atEnd : file.AtEnd := by
        cases wanted with
        | inl wanted =>
          have past : s.content.length ≤ s.pos := by
            have length := congrArg List.length crosses.2
            rw [Overlay.length_window, List.length_nil] at length
            omega
          exact (follows.reads file opened).atEnd past
        | inr atEnd => exact atEnd
      have safe' := across atEnd data
        (by rw [follows.volume, follows.current, more])
      have start : (⟨gBackend, gFlag, gCurrent, gSize, gEof, some (openFile f.backend data []), gVolume⟩ :
          SegFile).Follows { s with current := s.current + 1, pos := 0 } :=
        SegFile.follows_next addressable more volume (flag.trans sameFlag) current
          (eof.trans next.ended) (by dsimp only; rw [kind, backend])
      obtain ⟨reply', next', stays'⟩ := readOpen_follows start rfl safe'
      rw [Stream.next_content more] at reply' next'
      dsimp only at reply' next'
      rw [Nat.zero_add] at next'
      exact ⟨reply', next', fun _ => by rw [stays']; rfl⟩
  · rw [if_neg crosses, if_neg crosses]
    exact ⟨rfl, next, fun _ => by rw [stays]; rfl⟩

/-- The first segment, when it is there, is opened at its front. -/
theorem segFileOpen_follows {backend : Backend} {ifneedseg : Bool} {volume : Nat → Option Bytes}
    {first : Bytes} (stored : volume 0 = some first) (addressable : Addressable volume) :
    (segFileOpen backend ifneedseg volume).Follows { segments := volume, segmented := ifneedseg } := by
  have content : ({ segments := volume, segmented := ifneedseg } : Stream).content = first := by
    rw [Stream.content]
    dsimp only
    rw [stored]
    rfl
  have opened : (segFileOpen backend ifneedseg volume).opened = some (openFile backend first []) := by
    rw [segFileOpen, SegFile.openRead]
    dsimp only
    rw [stored]
    rfl
  -- the place and the flags agree at once; the open file is at the front of the first segment
  refine ⟨rfl, rfl, rfl, rfl, ?_, ?_, ?_⟩
  · intro g eq
    rw [opened] at eq
    cases backend with
    | ntfs => cases eq
    | fat => rfl
  · intro file _
    rw [content]
    exact stored
  · intro file eq
    rw [opened] at eq
    cases eq
    rw [content]
    exact openFile_reads backend (addressable 0 first stored)

end Okr
