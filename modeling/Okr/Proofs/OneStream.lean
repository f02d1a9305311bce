import Okr.Proofs.SplitRead

/-! Segments behave as one stream where every read is allowed in its place. -/

namespace Okr

/-- The reads of some writes ask for as much as was written. -/
theorem readsOf_sum (group : List Block) :
    ((readsOf group).map (·.size)).sum = (bytesOf group).length := by
  induction group with
  | nil => rfl
  | cons b group ih =>
    rw [readsOf, bytesOf, List.flatMap_cons, List.flatMap_cons, List.map_append, List.sum_append,
      List.length_append, b.subdivides]
    rw [readsOf, bytesOf] at ih
    rw [ih]

/-- What is written group by group is what is written. -/
theorem bytesOf_flatten (groups : List (List Block)) :
    (groups.map bytesOf).flatten = bytesOf groups.flatten := by
  induction groups with
  | nil => rfl
  | cons g groups ih => rw [List.map_cons, List.flatten_cons, List.flatten_cons, bytesOf_append, ih]

/-- What is read group by group is what is read. -/
theorem readsOf_flatten (groups : List (List Block)) :
    groups.flatMap (fun g => (readsOf g).map (·.size)) = (readsOf groups.flatten).map (·.size) := by
  induction groups with
  | nil => rfl
  | cons g groups ih =>
    rw [List.flatMap_cons, ih, List.flatten_cons, readsOf, readsOf, readsOf, List.flatMap_append,
      List.map_append]

variable {blocks : List Block}

/-- A stream over the segments that were written. -/
def writtenStream (blocks : List Block) : Stream := { segments := written blocks, segmented := true }

/-- The reads cut up the segments that were written, from the first one on. -/
theorem writtenStream_due (done : (writeRun createFile blocks).1 = true) :
    ∃ (first : Bytes) (contents : List Bytes), written blocks 0 = some first ∧
      (writtenStream blocks).content = first ∧ first ++ contents.flatten = bytesOf blocks ∧
      (writtenStream blocks).Due contents ((readsOf blocks).map (·.size)) := by
  have stored := (written_spec blocks).2 done
  have whole := Split.flatten_groups blockSize SPLIT_SIZE blocks []
  have heavy := Split.groups_heavy blockSize SPLIT_SIZE blocks []
  have some_ := Split.groups_ne_nil blockSize SPLIT_SIZE [] blocks
  rw [List.nil_append] at whole
  generalize Split.groups blockSize SPLIT_SIZE [] blocks = groups at stored whole heavy some_
  cases groups with
  | nil => exact absurd rfl some_
  | cons g groups =>
    have first : written blocks 0 = some (bytesOf g) := stored 0
    have content : (writtenStream blocks).content = bytesOf g := by
      rw [Stream.content, writtenStream]
      dsimp only
      rw [first]
      rfl
    -- A closed group is not empty, as it weighs more than the limit.
    have positive : ∀ h ∈ (g :: groups).dropLast, 0 < (bytesOf h).length := by
      intro h member
      have weight := heavy h member
      rw [← length_bytesOf] at weight
      omega
    refine ⟨bytesOf g, groups.map bytesOf, first, content, ?_, rfl, rfl, Nat.zero_le _, ?_, ?_, ?_⟩
    · rw [bytesOf_flatten, ← bytesOf_append, ← List.flatten_cons, whole]
    · intro j
      have later := stored (j + 1)
      rw [List.getElem?_cons_succ] at later
      rw [List.getElem?_map, ← later]
      change written blocks (0 + 1 + j) = _
      congr 1
      omega
    · intro data member
      rw [← List.map_dropLast] at member
      obtain ⟨h, inside, eq⟩ := List.mem_map.mp member
      rw [← eq]
      apply positive
      cases groups with
      | nil => cases inside
      | cons other groups => exact List.mem_cons_of_mem g inside
    · have cuts := Split.cuts_groups (fun g => (bytesOf g).length) (fun g => (readsOf g).map (·.size))
        (g :: groups) (fun h _ => readsOf_sum h) positive
      rw [readsOf_flatten, whole, List.map_cons] at cuts
      have entered := cuts.enter
      rw [content, List.map_map]
      exact entered

/-- A file of segments that were written is read from its first one. -/
theorem written_readsFat {first : Bytes} (stored : written blocks 0 = some first)
    (addressable : Addressable (written blocks)) :
    (segFileOpen .fat true (written blocks)).ReadsFat (writtenStream blocks) := by
  have holds : (segFileOpen .fat true (written blocks)).Holds (writtenStream blocks) _ :=
    segFileOpen_holds stored addressable
  refine ⟨holds.follows, rfl, fun file eq => ?_, fun _ => ?_⟩
  · rw [holds.opened] at eq
    cases eq
    rfl
  · rw [holds.opened]
    rfl

/-- Segments of a FAT volume are ones a volume can hold. -/
theorem Bounded.addressable {volume : Nat → Option Bytes} (bounded : Bounded blocks volume) :
    Addressable volume := by
  intro k data stored
  have short := (bounded k data stored).1
  rw [MAX_FAT_FILE] at short
  rw [MAX_OFFSET]
  omega

/--
Segments behave as one stream for any writes and for any reads that are allowed in their places.

The segments are bounded also where a write fails, be it as the volume refuses the next segment.
-/
theorem segments_oneStream (blocks : List Block) (last : ReadCall) (mark : OldHeader)
    (allowed : (writeRun createFile blocks).1 = true →
      ReadsAllowed { segments := written blocks, segmented := true } (readsOf blocks ++ [last])) :
    OneStream blocks last mark := by
  obtain ⟨bounded, stored⟩ := written_spec blocks
  refine ⟨bounded, fun done => ⟨⟨_, ?_, stored done⟩, ?_⟩⟩
  · exact Split.flatten_groups blockSize SPLIT_SIZE blocks []
  · obtain ⟨first, contents, front, content, whole, due⟩ := writtenStream_due done
    have reads := written_readsFat front bounded.addressable
    obtain ⟨parts, joined, lengths, replies⟩ :=
      readRun_spec (readsOf blocks) _ _ contents mark reads bounded.addressable due (allowed done)
    refine ⟨parts, ?_, lengths, replies⟩
    rw [joined, content]
    exact whole

/-! ### A short image, and one with a long read behind the end of a segment -/

/-- A read into a buffer of zeros. -/
def zeroRead (size : Nat) : ReadCall := ⟨size, fun _ => 0, fun _ => 0⟩

/-- A write of zeros that is read back at once. -/
def zeroBlock (n : Nat) : Block where
  bytes := List.replicate n 0
  refused := false
  reads := [zeroRead n]
  subdivides := by
    rw [List.length_replicate]
    exact Nat.add_zero n

/-- One write of two bytes is read back. -/
theorem segments_oneStream_short :
    ((writeRun createFile [zeroBlock 2]).1 = true →
      ReadsAllowed { segments := written [zeroBlock 2], segmented := true }
        (readsOf [zeroBlock 2] ++ [zeroRead 1])) ∧
      OneStream [zeroBlock 2] (zeroRead 1) {} := by
  have allowed : (writeRun createFile [zeroBlock 2]).1 = true →
      ReadsAllowed { segments := written [zeroBlock 2], segmented := true }
        (readsOf [zeroBlock 2] ++ [zeroRead 1]) := by
    intro _
    refine ⟨fun _ => ⟨?_, Or.inl ?_⟩, fun _ => ⟨?_, Or.inl ?_⟩, trivial⟩
    · decide
    · decide
    · decide
    · decide
  exact ⟨allowed, segments_oneStream [zeroBlock 2] (zeroRead 1) {} allowed⟩

/-- A write that fits the file and is not refused its next segment succeeds. -/
theorem fileWrite_done {f : SegFile} {closed : List (List Block)} {group : List Block} {b : Block}
    (writing : f.Writing closed group) (fits : (bytesOf group).length + b.bytes.length < MAX_FAT_FILE)
    (goes : b.refused = false) : (fileWrite f b.bytes b.refused).1 = true := by
  have done := segFileWrite_fits fits
  have write : ∃ g, f.writeOpen b.bytes = (.wrote b.bytes.length, g) := by
    rw [SegFile.writeOpen, writing.opened]
    refine ⟨_, Prod.ext ?_ rfl⟩
    change (if (segFileWrite (appended (bytesOf group)) b.bytes).1 = true then _ else _) = _
    rw [if_pos done]
  obtain ⟨g, write⟩ := write
  rw [fileWrite, write, goes]
  dsimp only
  rw [if_neg (by simp)]
  split
  · -- The next segment is created.
    rw [SegFile.openCreate, if_neg Bool.false_ne_true]
    rfl
  · rfl

/-- A long read at the end of a segment never comes back. -/
theorem fileRead_hangs {f : SegFile} {s : Stream} {c : ReadCall} {mark : OldHeader}
    (reads : f.ReadsFat s) (going : s.ended = false) (atEnd : s.pos = s.content.length)
    (long : MY_DEFINE_BUFFER_SIZE ≤ c.size) :
    (fileRead f c.size c.buffer c.heap mark).1 = .hang := by
  obtain ⟨file, opened⟩ := Option.isSome_iff_exists.mp (reads.stays going)
  have like := reads.follows.reads file opened
  have some_ : 0 < c.size := Nat.lt_of_lt_of_le (by decide) long
  have hangs := like.short (reads.kind file opened) (Nat.le_of_eq atEnd) long (by dsimp only; omega)
  exact fileRead_stuck opened (reads.follows.ended.trans going) hangs fun _ => Reply.noConfusion

/-- Zeros do not look like an older header. -/
theorem zeros_notLegacy (data : Bytes) (zero : ∀ b ∈ data, b = 0) :
    isLegacy (readInto data fun _ => 0) = false := by
  have same : isLegacy (readInto data fun _ => 0) = isLegacy fun _ => 0 := by
    apply isLegacy_congr
    intro i _
    rw [readInto]
    split
    · next inside =>
      rw [List.getD, List.getElem?_eq_getElem inside]
      exact zero _ (List.getElem_mem inside)
    · rfl
  rw [same]
  decide

theorem zeroBlock_length (k : Nat) : (zeroBlock k).bytes.length = k := List.length_replicate

/-- A write that fills the first segment succeeds, and the next one in a segment of its own. -/
theorem zeroBlocks_written {n m : Nat} (fills : SPLIT_SIZE < n) (short : n < MAX_FAT_FILE)
    (short' : m < MAX_FAT_FILE) : (writeRun createFile [zeroBlock n, zeroBlock m]).1 = true := by
  have heavy : SPLIT_SIZE < Split.total blockSize ([] ++ [zeroBlock n]) := by
    rw [Split.total_append, blockSize, zeroBlock_length]
    omega
  have first := fileWrite_done (b := zeroBlock n) createFile_writing (by
    rw [zeroBlock_length]
    change 0 + n < _
    omega) rfl
  have member : zeroBlock n ∈ [zeroBlock n] := List.mem_singleton.mpr rfl
  have next := (fileWrite_writing createFile_writing member fun g none_ => by cases none_).1 first
  -- past the split size the writer moves on to an empty segment
  rw [Continues, if_pos heavy] at next
  have second := fileWrite_done (b := zeroBlock m) next.1 (by
    rw [zeroBlock_length]
    change 0 + m < _
    omega) rfl
  rw [writeRun]
  generalize fileWrite createFile (zeroBlock n).bytes (zeroBlock n).refused = result at first second
  obtain ⟨ok, f⟩ := result
  dsimp only at first second
  rw [first]
  dsimp only
  rw [writeRun]
  generalize fileWrite f (zeroBlock m).bytes (zeroBlock m).refused = result at second
  obtain ⟨ok', f'⟩ := result
  dsimp only at second
  rw [second]
  rfl

/-- A write that fills the first segment and a long one in the next are not read back. -/
theorem longRead_fails {n m : Nat} (fills : SPLIT_SIZE < n) (long : MY_DEFINE_BUFFER_SIZE ≤ m)
    (short : n < MAX_FAT_FILE) (short' : m < MAX_FAT_FILE) (last : ReadCall) (mark : OldHeader) :
    ¬OneStream [zeroBlock n, zeroBlock m] last mark := by
  intro oneStream
  have heavy : SPLIT_SIZE < Split.total blockSize ([] ++ [zeroBlock n]) := by
    rw [Split.total_append, blockSize, zeroBlock_length]
    omega
  have done := zeroBlocks_written fills short short'
  obtain ⟨bounded, holds⟩ := oneStream
  obtain ⟨-, parts, -, lengths, replies⟩ := holds done
  obtain ⟨first, contents, front, content, whole, due⟩ := writtenStream_due done
  have reads := written_readsFat front bounded.addressable
  have firstBytes : first = (zeroBlock n).bytes := by
    have stored := (written_spec [zeroBlock n, zeroBlock m]).2 done 0
    rw [Split.groups, if_pos heavy, front] at stored
    rw [Option.some.inj stored]
    exact List.append_nil _
  have size : first.length = n := by rw [firstBytes, zeroBlock_length]
  -- The first read brings the whole segment.
  have inside : (writtenStream [zeroBlock n, zeroBlock m]).pos
      < (writtenStream [zeroBlock n, zeroBlock m]).content.length := by
    rw [content, size]
    exact Nat.lt_of_le_of_lt (Nat.zero_le _) fills
  have positive : 0 < n := Nat.lt_of_le_of_lt (Nat.zero_le _) fills
  have due : (writtenStream [zeroBlock n, zeroBlock m]).Due contents (n :: [m]) := due
  obtain ⟨-, room, plain, due'⟩ := due.within inside positive
  have zeros : ∀ b ∈ Overlay.window (writtenStream [zeroBlock n, zeroBlock m]).content
      (writtenStream [zeroBlock n, zeroBlock m]).pos n, b = 0 := by
    intro b member
    rw [content, firstBytes] at member
    exact List.eq_of_mem_replicate (List.mem_of_mem_drop (List.mem_of_mem_take member))
  have allowed : (writtenStream [zeroBlock n, zeroBlock m]).Allows (zeroRead n) := by
    refine ⟨?_, Or.inr ?_⟩
    · rw [if_neg (by omega)]
      exact positive
    · change isLegacy (readInto ((writtenStream _).plainRead n).1 fun _ => 0) = false
      rw [plain]
      exact zeros_notLegacy _ zeros
  have next := (fileRead_allowed mark reads bounded.addressable due.going due.inside allowed
    fun _ => room).2
  change (fileRead _ _ _ _ mark).2.1.ReadsFat ((writtenStream _).plainRead n).2 at next
  rw [plain] at next
  -- The second one finds the end of the segment and does not come back.
  have atEnd : (writtenStream [zeroBlock n, zeroBlock m]).pos + n
      = (writtenStream [zeroBlock n, zeroBlock m]).content.length := by
    rw [content, size]
    exact Nat.zero_add n
  have run : readsOf [zeroBlock n, zeroBlock m] ++ [last] = [zeroRead n, zeroRead m, last] := rfl
  have sizes : (readsOf [zeroBlock n, zeroBlock m]).map (·.size) = [n, m] := rfl
  rw [sizes] at lengths
  rw [run, readRun_cons, readRun_cons, fileRead_hangs (c := zeroRead m) next due.going atEnd long] at replies
  have two : parts.length = 2 := by simpa using congrArg List.length lengths
  obtain ⟨p, q, rfl⟩ := List.length_eq_two.mp two
  have second := (List.cons.inj (List.cons.inj replies).2).1
  cases second

/-- A write more than the limit long and a further one of 20 MiB: reading them back never ends. -/
theorem oneStream_hangs :
    ¬OneStream [zeroBlock (SPLIT_SIZE + 1), zeroBlock MY_DEFINE_BUFFER_SIZE] (zeroRead 1) {} :=
  longRead_fails (Nat.lt_succ_self _) (Nat.le_refl _) (by decide) (by decide) (zeroRead 1) {}

end Okr
