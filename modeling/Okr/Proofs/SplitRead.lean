import Okr.Proofs.LegacyBoot
import Okr.Proofs.SplitWrite

/-! Reading segments back gives the writes in their order, as long as each read is allowed. -/

namespace Okr

/-! ### One read -/

/-- The segments of a FAT volume are read where the stream is, and one is open before its end. -/
structure SegFile.ReadsFat (f : SegFile) (s : Stream) : Prop where
  follows : f.Follows s
  backend : f.backend = .fat
  kind : ∀ file, f.opened = some file → file.backend = .fat
  stays : s.ended = false → f.opened.isSome = true

variable {f : SegFile} {s : Stream} {c : ReadCall} {mark : OldHeader}

/-- A file opened on a FAT volume is a FAT file. -/
theorem openFile_backend (backend : Backend) (data : Bytes) :
    (openFile backend data []).backend = backend := by
  cases backend with
  | ntfs => rfl
  | fat => rfl

/-- A call of a file gives a file of the same kind. -/
theorem read_backend (file : OpenFile) (size : Nat) : (file.read size).2.backend = file.backend := by
  cases file with
  | ntfs h => rfl
  | fat f => rfl

/-- Reading on a FAT volume stays there. -/
theorem readNext_fat (size : Nat) (backend : f.backend = .fat)
    (kind : ∀ file, f.opened = some file → file.backend = .fat) :
    (f.readNext size).2.backend = .fat ∧
      ∀ file, (f.readNext size).2.opened = some file → file.backend = .fat := by
  -- One read of the open segment.
  have one : ∀ g : SegFile, g.backend = .fat → (∀ file, g.opened = some file → file.backend = .fat) →
      (g.readOpen size).2.backend = .fat ∧
        ∀ file, (g.readOpen size).2.opened = some file → file.backend = .fat := by
    intro g backend kind
    rw [SegFile.readOpen]
    cases opened : g.opened with
    | none =>
      refine ⟨backend, fun file eq => ?_⟩
      rw [opened] at eq
      cases eq
    | some file =>
      refine ⟨backend, fun file' eq => ?_⟩
      rw [← Option.some.inj eq]
      exact (read_backend file size).trans (kind file opened)
  have first := one f backend kind
  rw [SegFile.readNext]
  generalize f.readOpen size = result at first
  obtain ⟨reply, g⟩ := result
  cases reply with
  | bytes bytes =>
    dsimp only at first ⊢
    split
    · obtain ⟨same, -, -, -⟩ := close_openRead g (g.currentfileseg + 1)
      have next : ∀ file, (g.close.openRead (g.currentfileseg + 1)).opened = some file →
          file.backend = .fat := by
        intro file eq
        rw [SegFile.openRead] at eq
        obtain ⟨data, -, eq⟩ := Option.map_eq_some_iff.mp eq
        rw [← eq, openFile_backend]
        rw [SegFile.openRead] at same
        exact same.trans first.1
      split
      · next none_ =>
        refine ⟨same.trans first.1, fun file eq => ?_⟩
        rw [none_] at eq
        cases eq
      · exact one _ (same.trans first.1) next
    · exact first
  | done => exact first
  | wrote n => exact first
  | failed => exact first
  | hang => exact first
  | crash => exact first

/-- A read that is allowed, and that the segment has room for, is served. -/
theorem SegFile.ReadsFat.serves (reads : f.ReadsFat s) (going : s.ended = false)
    (inside : s.pos ≤ s.content.length) (allowed : s.Allows c)
    (room : s.pos < s.content.length → s.pos + c.size ≤ s.content.length) : f.Serves c.size := by
  obtain ⟨file, opened⟩ := Option.isSome_iff_exists.mp (reads.stays going)
  have kind := reads.kind file opened
  have like := reads.follows.reads file opened
  cases file with
  | ntfs h => cases kind
  | fat g =>
    obtain ⟨data, pos, -⟩ := like
    dsimp only at data pos
    have place := allowed.1
    -- at the end of the segment the read must not start, in front of it it must fit
    refine Or.inr ⟨.fat g, opened, ⟨?_, ?_⟩, fun _ => ⟨?_, ?_⟩⟩
    · rw [data, pos]
      exact inside
    · rw [data, pos]
      by_cases atEnd : s.content.length ≤ s.pos
      · rw [if_pos atEnd] at place
        exact Or.inl place
      · exact Or.inr (room (by omega))
    · by_cases atEnd : s.content.length ≤ s.pos
      · right
        rw [OpenFile.AtEnd, data, pos]
        exact atEnd
      · rw [if_neg atEnd] at place
        exact Or.inl place
    · intro atEnd next _
      rw [OpenFile.AtEnd, data, pos] at atEnd
      rw [if_pos atEnd] at place
      rw [reads.backend]
      exact ⟨Nat.zero_le _, Or.inl place⟩

/-- An allowed read brings the stream's bytes as they are. -/
theorem fileRead_allowed (mark : OldHeader) (reads : f.ReadsFat s) (addressable : Addressable s.segments)
    (going : s.ended = false) (inside : s.pos ≤ s.content.length) (allowed : s.Allows c)
    (room : s.pos < s.content.length → s.pos + c.size ≤ s.content.length) :
    (fileRead f c.size c.buffer c.heap mark).1 = .bytes (s.plainRead c.size).1
      ∧ (fileRead f c.size c.buffer c.heap mark).2.1.ReadsFat (s.plainRead c.size).2 := by
  have serves := reads.serves going inside allowed room
  obtain ⟨reply, next, stays⟩ := readNext_follows reads.follows addressable going serves
  obtain ⟨backend, kind⟩ := readNext_fat c.size reads.backend reads.kind
  -- an allowed read brings nothing that is taken for a legacy header
  have unaltered : (convertRead (s.plainRead c.size).1 c.buffer c.heap).1 = (s.plainRead c.size).1 :=
    (convertRead_self _).mpr allowed.2
  rw [fileRead, if_neg (by simp [reads.follows.ended, going])]
  generalize f.readNext c.size = result at reply next stays backend kind
  obtain ⟨given, f'⟩ := result
  dsimp only at reply next stays backend kind
  rw [reply]
  dsimp only
  rw [next.ended]
  cases ended : (s.plainRead c.size).2.ended with
  | true =>
    rw [if_pos rfl]
    refine ⟨?_, next, backend, kind, stays⟩
    rw [plainRead_ended going ended]
  | false =>
    rw [if_neg Bool.false_ne_true]
    dsimp only
    rw [unaltered]
    exact ⟨rfl, next, backend, kind, stays⟩

/-! ### A run of reads -/

/-- Behind the end every read replies with nothing. -/
theorem readRun_ended (calls : List ReadCall) (f : SegFile) (mark : OldHeader) (ended : f.ifeof = true) :
    readRun f mark calls = calls.map fun _ => .bytes [] := by
  induction calls generalizing mark with
  | nil => rfl
  | cons c calls ih =>
    have nothing : fileRead f c.size c.buffer c.heap mark = (.bytes [], f, mark) := by
      rw [fileRead, if_pos ended]
    rw [readRun, nothing, List.map_cons, ← ih mark]

/-- The reply to the first read, and the run that goes on behind it. -/
theorem readRun_cons (c : ReadCall) (calls : List ReadCall) :
    readRun f mark (c :: calls) = (fileRead f c.size c.buffer c.heap mark).1
      :: readRun (fileRead f c.size c.buffer c.heap mark).2.1
          (fileRead f c.size c.buffer c.heap mark).2.2 calls := rfl

/-- Lengths that add up to nothing are those of empty lists. -/
theorem flatten_nothing (contents : List Bytes) (none_ : (contents.map List.length).sum = 0) :
    contents.flatten = [] := by
  apply List.eq_nil_of_length_eq_zero
  rw [List.length_flatten]
  exact none_

/-- The reads to come cut up what is left of the image, which is some later segments. -/
structure Stream.Due (s : Stream) (contents : List Bytes) (sizes : List Nat) : Prop where
  going : s.ended = false
  segmented : s.segmented = true
  inside : s.pos ≤ s.content.length
  later : ∀ j, s.segments (s.current + 1 + j) = contents[j]?
  some_ : ∀ data ∈ contents.dropLast, 0 < data.length
  cuts : Split.Cuts (s.content.length - s.pos) (contents.map List.length) sizes

variable {contents : List Bytes} {data : Bytes} {n : Nat} {sizes : List Nat}

/-- At the end of a segment every read crosses. -/
theorem Stream.Due.crosses (due : s.Due contents sizes) (atEnd : s.content.length ≤ s.pos) (size : Nat) :
    s.segmented = true ∧ Overlay.window s.content s.pos size = [] :=
  ⟨due.segmented, Overlay.window_of_le _ atEnd⟩

/-- A window from the front and the rest behind it are the whole. -/
theorem window_drop (data : Bytes) (pos n : Nat) :
    Overlay.window data pos n ++ data.drop (pos + n) = data.drop pos := by
  rw [Overlay.window, ← List.drop_drop]
  exact List.take_append_drop n (data.drop pos)

/-- Inside a segment a read gives as much as it asks for, and the rest is due behind it. -/
theorem Stream.Due.within (due : s.Due contents (n :: sizes)) (before : s.pos < s.content.length)
    (some_ : 0 < n) :
    (Overlay.window s.content s.pos n).length = n ∧ s.pos + n ≤ s.content.length ∧
      s.plainRead n = (Overlay.window s.content s.pos n, { s with pos := s.pos + n }) ∧
      ({ s with pos := s.pos + n } : Stream).Due contents sizes := by
  have content : ({ s with pos := s.pos + n } : Stream).content = s.content := rfl
  have length := Overlay.length_window s.content s.pos n
  cases due.cuts with
  | inr crosses =>
    have empty := crosses.1
    omega
  | inl stays =>
    obtain ⟨fits, cuts⟩ := stays
    have full : (Overlay.window s.content s.pos n).length = n := by omega
    have plain := plainRead_stays n due.going fun crosses => by
      rw [crosses.2, List.length_nil] at full
      omega
    rw [full] at plain
    refine ⟨full, by omega, plain, due.going, due.segmented, ?_, due.later, due.some_, ?_⟩
    · rw [content]
      dsimp only
      omega
    · rw [content, ← Nat.sub_sub]
      exact cuts

/-- At the end of a segment a read gives as much as it asks for of the next one. -/
theorem Stream.Due.next (due : s.Due (data :: contents) (n :: sizes))
    (atEnd : s.content.length ≤ s.pos) :
    (Overlay.window data 0 n).length = n ∧
      s.plainRead n = (Overlay.window data 0 n, { s with current := s.current + 1, pos := n }) ∧
      ({ s with current := s.current + 1, pos := n } : Stream).content = data ∧
      ({ s with current := s.current + 1, pos := n } : Stream).Due contents sizes := by
  have left : s.content.length - s.pos = 0 := by omega
  have cuts := due.cuts
  rw [left, List.map_cons] at cuts
  have content : ({ s with current := s.current + 1, pos := n } : Stream).content = data := by
    rw [Stream.content]
    dsimp only
    rw [due.later 0]
    rfl
  have length := Overlay.length_window data 0 n
  -- Only the last segment can be empty, so the read is in the next one.
  cases cuts.enter with
  | inr crosses =>
    obtain ⟨empty, next, others, eq, -⟩ := crosses
    cases contents with
    | nil => cases eq
    | cons other contents =>
      have positive := due.some_ data List.mem_cons_self
      omega
  | inl stays =>
    obtain ⟨fits, cuts⟩ := stays
    have full : (Overlay.window data 0 n).length = n := by omega
    have plain := plainRead_next n due.going (due.crosses atEnd n) (due.later 0)
    rw [full] at plain
    refine ⟨full, plain, content, due.going, due.segmented, ?_, ?_, ?_, ?_⟩
    · rw [content]
      exact fits
    · intro j
      have later := due.later (j + 1)
      rw [List.getElem?_cons_succ] at later
      rw [← later]
      dsimp only
      congr 1
      omega
    · intro d member
      cases contents with
      | nil => cases member
      | cons other contents => exact due.some_ d (List.mem_cons_of_mem data member)
    · rw [content]
      exact cuts

/-- The end of a run at the end of the image: a further read brings nothing. -/
theorem readLast_spec {last : ReadCall} (reads : f.ReadsFat s) (addressable : Addressable s.segments)
    (due : s.Due contents []) (allowed : s.Allows last) : readRun f mark [last] = [.bytes []] := by
  obtain ⟨left, none_⟩ := due.cuts
  have inside := due.inside
  have crosses := due.crosses (by omega) last.size
  have empty : (s.plainRead last.size).1 = [] := by
    cases contents with
    | nil => rw [plainRead_last last.size due.going crosses (due.later 0)]
    | cons next contents =>
      rw [List.map_cons, List.sum_cons] at none_
      have nothing : next = [] := List.eq_nil_of_length_eq_zero (by omega)
      rw [plainRead_next last.size due.going crosses (due.later 0), nothing]
      exact Overlay.window_of_le _ (Nat.le_refl _)
  have reply := (fileRead_allowed mark reads addressable due.going inside allowed (by omega)).1
  rw [readRun_cons, readRun, reply, empty]

/-- Reading across all segments with sizes that cut them up brings their contents. -/
theorem readRun_spec {last : ReadCall} (calls : List ReadCall) :
    ∀ (f : SegFile) (s : Stream) (contents : List Bytes) (mark : OldHeader), f.ReadsFat s →
      Addressable s.segments → s.Due contents (calls.map (·.size)) → ReadsAllowed s (calls ++ [last]) →
      ∃ parts : List Bytes, parts.flatten = s.content.drop s.pos ++ contents.flatten ∧
        parts.map List.length = calls.map (·.size) ∧
        readRun f mark (calls ++ [last]) = parts.map Reply.bytes ++ [.bytes []] := by
  induction calls with
  | nil =>
    intro f s contents mark reads addressable due allowed
    obtain ⟨left, none_⟩ := due.cuts
    refine ⟨[], ?_, rfl, readLast_spec reads addressable due (allowed.1 due.going)⟩
    rw [flatten_nothing contents none_, List.drop_eq_nil_of_le (by omega)]
    rfl
  | cons c calls ih =>
    intro f s contents mark reads addressable due allowed
    obtain ⟨this, rest⟩ := allowed
    have this := this due.going
    have room : s.pos < s.content.length → s.pos + c.size ≤ s.content.length := by
      intro before
      have place := this.1
      rw [if_neg (by omega)] at place
      exact (due.within before place).2.1
    obtain ⟨reply, next⟩ := fileRead_allowed mark reads addressable due.going due.inside this room
    rw [List.cons_append, readRun_cons, reply]
    generalize (fileRead f c.size c.buffer c.heap mark).2 = result at next ⊢
    by_cases atEnd : s.content.length ≤ s.pos
    · rw [List.drop_eq_nil_of_le atEnd, List.nil_append]
      cases contents with
      | nil =>
        -- The image has ended, and all reads to come are empty ones.
        have left : s.content.length - s.pos = 0 := by omega
        have cuts := due.cuts
        rw [left] at cuts
        rw [plainRead_last c.size due.going (due.crosses atEnd c.size) (due.later 0)] at next ⊢
        refine ⟨(c :: calls).map fun _ => [], ?_, ?_, ?_⟩
        · exact List.flatten_eq_nil_iff.mpr fun bytes member => by
            obtain ⟨_, -, eq⟩ := List.mem_map.mp member
            exact eq.symm
        · rw [List.map_map]
          apply List.map_congr_left
          intro d member
          exact (cuts.nothing d.size (List.mem_map_of_mem member)).symm
        · rw [readRun_ended _ _ _ next.follows.ended, List.map_append, List.map_map]
          rfl
      | cons data contents =>
        obtain ⟨full, plain, content, due'⟩ := due.next atEnd
        rw [plain] at next rest ⊢
        obtain ⟨parts, whole, lengths, replies⟩ := ih result.1 _ contents result.2 next addressable due' rest
        rw [content] at whole
        refine ⟨Overlay.window data 0 c.size :: parts, ?_, ?_, ?_⟩
        · rw [List.flatten_cons, whole, List.flatten_cons, ← List.append_assoc]
          congr 1
          have joined := window_drop data 0 c.size
          rw [Nat.zero_add, List.drop_zero] at joined
          exact joined
        · rw [List.map_cons, List.map_cons, lengths, full]
        · rw [replies]
          rfl
    · have place := this.1
      rw [if_neg atEnd] at place
      obtain ⟨full, -, plain, due'⟩ := due.within (by omega) place
      rw [plain] at next rest ⊢
      obtain ⟨parts, whole, lengths, replies⟩ := ih result.1 _ contents result.2 next addressable due' rest
      have content : ({ s with pos := s.pos + c.size } : Stream).content = s.content := rfl
      rw [content] at whole
      refine ⟨Overlay.window s.content s.pos c.size :: parts, ?_, ?_, ?_⟩
      · rw [List.flatten_cons, whole, ← List.append_assoc]
        congr 1
        exact window_drop s.content s.pos c.size
      · rw [List.map_cons, List.map_cons, lengths, full]
      · rw [replies]
        rfl

end Okr
