import Okr.Proofs.CleanRead
import Okr.Proofs.FileRead
import Okr.Restore.LegacyBoot

/-! What a seek and a read in full bring from an image that was only read so far. -/

namespace Okr

variable {file : OpenFile} {p : Plain} {size : Nat}

/-! ### A seek and a read of the segment that is open -/

/--
The bytes a read in full brings from a position of the open segment.

At its end they come from the front of the next segment, if there is one;
a long read of a FAT file does not come back from there.
-/
def Stream.wholeBytes (s : Stream) (backend : Backend) (pos size : Nat) : Option Bytes :=
  if pos + size ≤ s.content.length then some (Overlay.window s.content pos size)
  else if pos = s.content.length ∧ s.segmented ∧ (backend = .fat → size < MY_DEFINE_BUFFER_SIZE) then
    match s.segments (s.current + 1) with
    | none => none
    | some next => if size ≤ next.length then some (Overlay.window next 0 size) else none
  else none

/-- A segment of an image that was only read so far is open where the stream is. -/
structure SegFile.Holds (f : SegFile) (s : Stream) (file : OpenFile) : Prop where
  follows : f.Follows s
  opened : f.opened = some file
  clean : file.Clean
  kind : file.backend = f.backend

variable {f : SegFile} {s : Stream} {buffer heap : Image} {mark : OldHeader}

/-- An image just opened is held at its front. -/
theorem segFileOpen_holds {backend : Backend} {ifneedseg : Bool} {volume : Nat → Option Bytes}
    {first : Bytes} (stored : volume 0 = some first) (addressable : Addressable volume) :
    (segFileOpen backend ifneedseg volume).Holds { segments := volume, segmented := ifneedseg }
      (openFile backend first []) := by
  obtain ⟨clean, kind⟩ := openFile_clean backend first
  refine ⟨segFileOpen_follows stored addressable, ?_, clean, kind⟩
  rw [segFileOpen, SegFile.openRead]
  dsimp only
  rw [stored]
  rfl

/-- Seeking moves the stream. -/
theorem SegFile.Holds.setPos (holds : f.Holds s file) {pos : Nat} (usual : pos ≠ 2 ^ 64 - 1) :
    ∃ f', f.setPos pos = (.done, f') ∧ f'.Holds (s.setPos pos) (file.setPos pos)
      ∧ f'.backend = f.backend := by
  have opened : f.opened.isSome = true := by rw [holds.opened]; rfl
  obtain ⟨reply, follows⟩ := setPos_follows holds.follows opened fun _ => usual
  obtain ⟨clean, kind⟩ := holds.clean.setPos pos
  have result : (f.setPos pos).2
      = { f with ifeof := false, opened := some (file.setPos pos) } := by
    rw [SegFile.setPos, holds.opened]
  refine ⟨(f.setPos pos).2, Prod.ext reply rfl, ⟨follows, ?_, clean, ?_⟩, ?_⟩
  · rw [result]
  · rw [result]
    exact kind.trans holds.kind
  · rw [result]

/-- A read of the open segment is one of its file. -/
theorem readOpen_eq (opened : f.opened = some file) :
    f.readOpen size = ((file.read size).1, { f with opened := some (file.read size).2 }) := by
  rw [SegFile.readOpen, opened]

/-- A read that brings bytes stays in the segment. -/
theorem fileRead_stays {bytes : Bytes} (going : f.ifeof = false) (opened : f.opened = some file)
    (reply : (file.read size).1 = .bytes bytes) (some_ : bytes ≠ []) :
    fileRead f size buffer heap mark
      = (.bytes (convertRead bytes buffer heap).1, { f with opened := some (file.read size).2 },
          (convertRead bytes buffer heap).2) := by
  have next : f.readNext size = (.bytes bytes, { f with opened := some (file.read size).2 }) := by
    rw [SegFile.readNext, readOpen_eq opened, reply]
    dsimp only
    rw [if_neg fun crosses => some_ crosses.2]
  rw [fileRead, if_neg (by simp [going]), next]
  dsimp only
  rw [if_neg (by simp [going])]

/-- A call of the open segment that does not reply with bytes ends the read. -/
theorem fileRead_stuck (opened : f.opened = some file) (going : f.ifeof = false) {reply : Reply}
    (stuck : (file.read size).1 = reply) (none_ : ∀ bytes, reply ≠ .bytes bytes) :
    (fileRead f size buffer heap mark).1 = reply := by
  rw [fileRead, if_neg (by simp [going]), SegFile.readNext, readOpen_eq opened, stuck]
  cases reply with
  | bytes bytes => exact absurd rfl (none_ bytes)
  | done => rfl
  | wrote n => rfl
  | failed => rfl
  | hang => rfl
  | crash => rfl

/-- The conversion keeps the length of what was read. -/
theorem length_convertRead (bytes : Bytes) (buffer heap : Image) :
    (convertRead bytes buffer heap).1.length = bytes.length := by
  rw [convertRead]
  split
  · rw [bytesAt, List.length_map, List.length_range]
  · rfl

/-- A read that is served gives the stream's bytes, converted, or nothing at the end of it all. -/
theorem fileRead_served (follows : f.Follows s) (addressable : Addressable s.segments)
    (going : s.ended = false) (serves : f.Serves size) :
    (fileRead f size buffer heap mark).1
      = .bytes (if (s.plainRead size).2.ended then []
          else (convertRead (s.plainRead size).1 buffer heap).1) := by
  obtain ⟨reply, next, -⟩ := readNext_follows follows addressable going serves
  rw [fileRead, if_neg (by simp [follows.ended, going])]
  generalize f.readNext size = result at reply next
  obtain ⟨given, f'⟩ := result
  dsimp only at reply next
  rw [reply]
  dsimp only
  rw [next.ended]
  split <;> rfl

/-- Bytes that come are given on when they are as many as were wanted. -/
theorem readWhole_bytes {f' : SegFile} {pos : Nat} {bytes : Bytes} (seek : f.setPos pos = (.done, f'))
    (reply : (fileRead f' size buffer heap mark).1 = .bytes bytes) :
    readWhole f pos size buffer heap mark = if bytes.length = size then some bytes else none := by
  rw [readWhole, seek]
  dsimp only
  generalize fileRead f' size buffer heap mark = result at reply
  obtain ⟨given, rest⟩ := result
  dsimp only at reply
  rw [reply]

/-- A read that does not reply with bytes gives nothing on. -/
theorem readWhole_stuck {f' : SegFile} {pos : Nat} {reply : Reply} (seek : f.setPos pos = (.done, f'))
    (stuck : (fileRead f' size buffer heap mark).1 = reply) (none_ : ∀ bytes, reply ≠ .bytes bytes) :
    readWhole f pos size buffer heap mark = none := by
  rw [readWhole, seek]
  dsimp only
  generalize fileRead f' size buffer heap mark = result at stuck
  obtain ⟨given, rest⟩ := result
  dsimp only at stuck
  rw [stuck]
  cases reply with
  | bytes bytes => exact absurd rfl (none_ bytes)
  | done => rfl
  | wrote n => rfl
  | failed => rfl
  | hang => rfl
  | crash => rfl

/-- From inside the segment the segments serve a read that is not a long one past a FAT file's end. -/
theorem SegFile.Holds.serves {pos : Nat} (holds : f.Holds (s.setPos pos) file) (wanted : 0 < size)
    (inside : pos ≤ s.content.length)
    (served : f.backend = .fat → size < MY_DEFINE_BUFFER_SIZE ∨ pos + size ≤ s.content.length) :
    f.Serves size := by
  have reads := holds.follows.reads file holds.opened
  refine Or.inr ⟨file, holds.opened, ?_, fun _ => ⟨Or.inl wanted, ?_⟩⟩
  · apply reads.safe holds.clean inside
    rw [holds.kind]
    exact served
  · -- At the end of a FAT file the read is a short one, which the next segment serves as well.
    intro atEnd next _
    cases file with
    | ntfs h =>
      have ntfs : f.backend = .ntfs := holds.kind.symm
      rw [ntfs]
      exact Or.inr (Or.inl ⟨flushed_empty rfl, Or.inl (Nat.zero_le _)⟩)
    | fat g =>
      obtain ⟨data, at_, -⟩ := reads
      change g.data = s.content at data
      change g.pos = pos at at_
      change g.data.length ≤ g.pos at atEnd
      rw [data, at_] at atEnd
      have fat : f.backend = .fat := holds.kind.symm
      rw [fat]
      refine ⟨Nat.zero_le _, Or.inl ?_⟩
      cases served fat with
      | inl small => exact small
      | inr fits => omega

/-- Inside a segment a read stays in it. -/
theorem plainRead_stays (size : Nat) (going : s.ended = false)
    (stays : ¬(s.segmented = true ∧ Overlay.window s.content s.pos size = [])) :
    s.plainRead size = (Overlay.window s.content s.pos size,
      { s with pos := s.pos + (Overlay.window s.content s.pos size).length }) := by
  rw [Stream.plainRead, if_neg (by simp [going])]
  exact if_neg stays

/-- At the end of the last segment the stream ends. -/
theorem plainRead_last (size : Nat) (going : s.ended = false)
    (crosses : s.segmented = true ∧ Overlay.window s.content s.pos size = [])
    (last : s.segments (s.current + 1) = none) :
    s.plainRead size = ([], { s with current := s.current + 1, ended := true }) := by
  rw [Stream.plainRead, if_neg (by simp [going])]
  dsimp only
  rw [if_pos crosses, last]

/-- At the end of a segment the next one is read from its front. -/
theorem plainRead_next {next : Bytes} (size : Nat) (going : s.ended = false)
    (crosses : s.segmented = true ∧ Overlay.window s.content s.pos size = [])
    (more : s.segments (s.current + 1) = some next) :
    s.plainRead size = (Overlay.window next 0 size,
      { s with current := s.current + 1, pos := (Overlay.window next 0 size).length }) := by
  rw [Stream.plainRead, if_neg (by simp [going])]
  dsimp only
  rw [if_pos crosses, more]

/-- A read in full brings what is stored, up to the conversion, or does not come back with it. -/
theorem readWhole_eq {pos : Nat} (holds : f.Holds s file) (addressable : Addressable s.segments)
    (wanted : 0 < size) (usual : pos ≠ 2 ^ 64 - 1)
    (aligned : pos % 512 = 0 ∨ pos ≤ s.content.length) :
    readWhole f pos size buffer heap mark
      = (s.wholeBytes f.backend pos size).map fun bytes => (convertRead bytes buffer heap).1 := by
  obtain ⟨f', seek, holds', backend⟩ := holds.setPos usual
  have reads := holds'.follows.reads _ holds'.opened
  have going : f'.ifeof = false := holds'.follows.ended
  rw [Stream.wholeBytes]
  by_cases beyond : s.content.length < pos
  · -- Behind the end nothing is read.
    rw [if_neg (by omega), if_neg (by omega), Option.map_none]
    have aligned : pos % 512 = 0 := by omega
    have fails := reads.beyond wanted aligned beyond
    exact readWhole_stuck seek (fileRead_stuck holds'.opened going fails fun _ => Reply.noConfusion)
      fun _ => Reply.noConfusion
  have inside : pos ≤ s.content.length := by omega
  by_cases long : f.backend = .fat ∧ MY_DEFINE_BUFFER_SIZE ≤ size ∧ s.content.length < pos + size
  · -- A long read of a FAT file meets its end.
    obtain ⟨fat, long, short⟩ := long
    rw [if_neg (by omega), if_neg fun other => absurd (other.2.2 fat) (by omega), Option.map_none]
    have kind : (file.setPos pos).backend = .fat := holds'.kind.trans (backend.trans fat)
    have hangs := reads.short kind inside long short
    exact readWhole_stuck seek (fileRead_stuck holds'.opened going hangs fun _ => Reply.noConfusion)
      fun _ => Reply.noConfusion
  have served : f.backend = .fat → size < MY_DEFINE_BUFFER_SIZE ∨ pos + size ≤ s.content.length := by
    intro fat
    by_contra other
    exact long ⟨fat, by omega, by omega⟩
  have serves : f'.Serves size := holds'.serves wanted inside (backend ▸ served)
  have reply : (fileRead f' size buffer heap mark).1 = .bytes (if ((s.setPos pos).plainRead size).2.ended
      then [] else (convertRead ((s.setPos pos).plainRead size).1 buffer heap).1) :=
    fileRead_served holds'.follows addressable rfl serves
  have content : (s.setPos pos).content = s.content := rfl
  have start : (s.setPos pos).ended = false := rfl
  have length := Overlay.length_window s.content pos size
  rw [readWhole_bytes seek reply]
  by_cases crosses : s.segmented = true ∧ Overlay.window s.content pos size = []
  · -- The segment has ended, so the bytes are those of the next one.
    have ends : pos = s.content.length := by
      rw [crosses.2, List.length_nil] at length
      omega
    have behind : ¬pos + size ≤ s.content.length := by omega
    have short : f.backend = .fat → size < MY_DEFINE_BUFFER_SIZE := by
      intro fat
      have served := served fat
      omega
    have passes : pos = s.content.length ∧ s.segmented = true
        ∧ (f.backend = .fat → size < MY_DEFINE_BUFFER_SIZE) := ⟨ends, crosses.1, short⟩
    rw [if_neg behind, if_pos passes]
    cases more : s.segments (s.current + 1) with
    | none =>
      have plain := plainRead_last (s := s.setPos pos) size start crosses more
      rw [congrArg (fun r => r.2.ended) plain, if_pos rfl, List.length_nil, if_neg (by omega),
        Option.map_none]
    | some next =>
      have plain := plainRead_next (s := s.setPos pos) size start crosses more
      have length := Overlay.length_window next 0 size
      rw [plain]
      dsimp only
      rw [start, if_neg Bool.false_ne_true, length_convertRead]
      by_cases fits : size ≤ next.length
      · rw [if_pos (by omega), if_pos fits, Option.map_some]
      · rw [if_neg (by omega), if_neg fits, Option.map_none]
  · have plain := plainRead_stays (s := s.setPos pos) size start crosses
    rw [plain, content]
    change (if (if (s.setPos pos).ended = true then _ else _ : Bytes).length = size then _ else _)
      = _
    rw [start, if_neg Bool.false_ne_true, length_convertRead]
    change (if (Overlay.window s.content pos size).length = size then
      some (convertRead (Overlay.window s.content pos size) buffer heap).1 else none) = _
    by_cases fits : pos + size ≤ s.content.length
    · rw [if_pos (by omega), if_pos fits, Option.map_some]
    · rw [if_neg (by omega), if_neg fits, if_neg, Option.map_none]
      -- At the very end of a segmented file the read would have gone on.
      intro other
      apply crosses
      refine ⟨other.2.1, List.eq_nil_of_length_eq_zero ?_⟩
      omega

end Okr
