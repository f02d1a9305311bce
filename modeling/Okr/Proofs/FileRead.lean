import Okr.Proofs.Segments

/-! `FileRead` gives the bytes of the file, and an older header in converted form. -/

namespace Okr

/-! ### The converted header -/

variable {old old' heap heap' base base' source : Image} {n a : Nat}

/-- Copies decide a byte by the bytes in front of it in the older header, and by what was there. -/
theorem copies_congr (fields : List (Nat × Nat × Nat)) (forward : ∀ f ∈ fields, f.2.1 ≤ f.1)
    (same : ∀ i, i ≤ a → old i = old' i) (start : base a = base' a) :
    (fields.foldl (copyFrom old) base) a = (fields.foldl (copyFrom old') base') a := by
  induction fields generalizing base base' with
  | nil => exact start
  | cons f fields ih =>
    rw [List.foldl_cons, List.foldl_cons]
    apply ih fun g member => forward g (List.mem_cons_of_mem f member)
    have ahead := forward f List.mem_cons_self
    rw [copyFrom, copyFrom]
    split
    · exact same _ (by omega)
    · exact start

/-- A byte in front of all copies stays. -/
theorem copies_other (fields : List (Nat × Nat × Nat)) (behind : ∀ f ∈ fields, a < f.1) :
    (fields.foldl (copyFrom old) base) a = base a := by
  induction fields generalizing base with
  | nil => rfl
  | cons f fields ih =>
    rw [List.foldl_cons, ih fun g member => behind g (List.mem_cons_of_mem f member), copyFrom, if_neg]
    have apart := behind f List.mem_cons_self
    omega

/-- No field moves to the front. -/
theorem legacyFields_forward : ∀ f ∈ legacyFields, f.2.1 ≤ f.1 := by
  decide

/-- No partition record moves to the front, and all go behind the fixed fields. -/
theorem legacyPartitions_forward (count : Nat) :
    ∀ f ∈ legacyPartitions count, f.2.1 ≤ f.1 ∧ HEADER_FRONT ≤ f.1 := by
  intro f member
  rw [legacyPartitions, List.mem_map] at member
  obtain ⟨i, -, eq⟩ := member
  rw [← eq, OLD_HEADER_FRONT, HEADER_FRONT]
  dsimp only
  omega

/-- The byte of a header before the copies: zero, apart from the version and the size. -/
def freshHeader (heap : Image) (count : Nat) : Image :=
  put 4 (put 4 (fun a => if a < OKR_HEADER_MAX_SIZE then 0 else heap a) 4 HEADER_VERSION) 8
    (structSizeOf count)

/-- The heap shows behind the largest header only. -/
theorem freshHeader_heap (count : Nat) (inside : a < OKR_HEADER_MAX_SIZE) :
    freshHeader heap count a = freshHeader heap' count a := by
  simp only [freshHeader, put, if_pos inside]

/--
The front of the converted header is decided by the front of the older one.

Up to the version nothing but the magic is needed; further on the count of partitions is.
-/
theorem convertHeader_congr (same : ∀ i < n, old i = old' i)
    (counted : n ≤ 8 ∨ OLD_PARTITION_COUNT + 2 ≤ n) (fits : n ≤ OKR_HEADER_MAX_SIZE) (inside : a < n) :
    convertHeader old heap a = convertHeader old' heap' a := by
  change (List.foldl (copyFrom old) (freshHeader heap _) _) a
    = (List.foldl (copyFrom old') (freshHeader heap' _) _) a
  have before : ∀ i, i ≤ a → old i = old' i := fun i le => same i (by omega)
  cases counted with
  | inl short =>
    -- The records go far behind these bytes, and the size of the header too.
    rw [List.foldl_append, List.foldl_append]
    have behind : ∀ count, ∀ f ∈ legacyPartitions count, a < f.1 := by
      intro count f member
      have front := (legacyPartitions_forward count f member).2
      rw [HEADER_FRONT] at front
      omega
    rw [copies_other _ (behind _), copies_other _ (behind _)]
    apply copies_congr legacyFields legacyFields_forward before
    have noSize : ∀ heap count, freshHeader heap count a = freshHeader heap 0 a := by
      intro heap count
      have apart : a < 8 := by omega
      rw [freshHeader, freshHeader, put_other (Or.inl apart), put_other (Or.inl apart)]
    rw [noSize heap, noSize heap']
    exact freshHeader_heap 0 (by omega)
  | inr counted =>
    have count : le16 old OLD_PARTITION_COUNT = le16 old' OLD_PARTITION_COUNT := by
      apply le16_congr
      intro b below
      exact same _ (by omega)
    rw [count]
    apply copies_congr _ _ before (freshHeader_heap _ (by omega))
    intro f member
    cases List.mem_append.mp member with
    | inl fixed => exact legacyFields_forward f fixed
    | inr record => exact (legacyPartitions_forward _ f record).1

/-! ### The test and the conversion -/

/-- In front of what was read the buffer holds what was read. -/
theorem readInto_front (bytes : Bytes) (buffer buffer' : Image) (front : a < bytes.length) :
    readInto bytes buffer a = readInto bytes buffer' a := by
  rw [readInto, readInto, if_pos front, if_pos front]

/-- Eight bytes decide whether a buffer begins like an older header. -/
theorem isLegacy_congr (same : ∀ i < 8, old i = old' i) : isLegacy old = isLegacy old' := by
  have magic : le32 old 0 = le32 old' 0 := le32_congr fun i below => same _ (by omega)
  have version : le32 old 4 = le32 old' 4 := le32_congr fun i below => same _ (by omega)
  rw [isLegacy, isLegacy, magic, version]

/-- What the stream gives for a read: the plain bytes, or their converted form. -/
theorem read_bytes (s : Stream) (size : Nat) :
    (s.read size).1 =
      if s.readsLegacy (s.plainRead size).1 then Stream.convertedForm (s.plainRead size).1
      else (s.plainRead size).1 := rfl

/-- The conversion does what the stream says where it touches a header only. -/
theorem convertRead_eq {s : Stream} {size : Nat} {buffer : Image}
    (only : s.ConvertsHeaderOnly size buffer) :
    (convertRead (s.plainRead size).1 buffer heap).1 = (s.read size).1 := by
  rw [Stream.ConvertsHeaderOnly] at only
  rw [read_bytes, convertRead]
  generalize (s.plainRead size).1 = bytes at only ⊢
  cases legacy : s.readsLegacy bytes with
  | false =>
    rw [legacy] at only
    rw [if_neg (by simpa using only), if_neg (by decide)]
  | true =>
    rw [legacy, if_pos rfl] at only
    obtain ⟨counted, fits⟩ := only
    rw [Stream.readsLegacy, Bool.and_eq_true, Bool.and_eq_true, decide_eq_true_iff] at legacy
    obtain ⟨⟨-, whole⟩, mark⟩ := legacy
    -- The test sees the same eight bytes, whatever stood in the buffer.
    have mark' : isLegacy (readInto bytes buffer) = true := by
      rw [← mark]
      exact isLegacy_congr fun i below => readInto_front bytes _ _ (by omega)
    rw [if_pos mark', if_pos rfl, Stream.convertedForm]
    apply bytesAt_congr
    intro i below
    exact convertHeader_congr (fun j front => readInto_front bytes _ _ front) counted fits (by omega)

/-! ### One call, and a run -/

variable {f : SegFile} {s : Stream}

/-- A read with which the stream ends brings no byte. -/
theorem plainRead_ended {size : Nat} (going : s.ended = false)
    (ended : (s.plainRead size).2.ended = true) : (s.plainRead size).1 = [] := by
  rw [Stream.plainRead, if_neg (by simp [going])] at ended ⊢
  dsimp only at ended ⊢
  split
  · next crosses =>
    rw [if_pos crosses] at ended
    cases more : s.segments (s.current + 1) with
    | none => rfl
    | some data =>
      rw [more] at ended
      exact absurd ended (by simp [going])
  · next stays =>
    rw [if_neg stays] at ended
    exact absurd ended (by simp [going])

/-- One read that holds replies as the stream, and goes on like it. -/
theorem fileRead_follows {size : Nat} {buffer : Image} (mark : OldHeader) (follows : f.Follows s)
    (addressable : Addressable s.segments) (serves : f.Serves size)
    (only : s.ended = false → (s.plainRead size).2.ended = false → s.ConvertsHeaderOnly size buffer) :
    (fileRead f size buffer heap mark).1 = .bytes (s.read size).1
      ∧ (fileRead f size buffer heap mark).2.1.Follows (s.read size).2 := by
  rw [fileRead]
  cases going : s.ended with
  | true =>
    -- Nothing is left, and nothing is converted.
    have plain : s.plainRead size = ([], s) := by rw [Stream.plainRead, if_pos going]
    have nothing : s.readsLegacy [] = false := by
      simp [Stream.readsLegacy]
    rw [if_pos (follows.ended.trans going), Stream.read, plain]
    dsimp only
    rw [nothing]
    exact ⟨rfl, follows⟩
  | false =>
    rw [if_neg (by simp [follows.ended, going])]
    obtain ⟨reply, next, -⟩ := readNext_follows follows addressable going serves
    generalize f.readNext size = result at reply next
    obtain ⟨given, f'⟩ := result
    dsimp only at reply next
    rw [reply]
    dsimp only
    have state : (s.read size).2 = (s.plainRead size).2 := rfl
    cases ended : (s.plainRead size).2.ended with
    | true =>
      rw [if_pos (next.ended.trans ended)]
      have empty := plainRead_ended going ended
      have nothing : s.readsLegacy [] = false := by
        simp [Stream.readsLegacy]
      rw [state]
      refine ⟨?_, next⟩
      rw [read_bytes, empty, nothing]
      rfl
    | false =>
      rw [if_neg (by simp [next.ended, ended]), state]
      refine ⟨?_, next⟩
      exact congrArg Reply.bytes (convertRead_eq (only going ended))

/-- Seeking follows the stream, as long as a segment is open. -/
theorem setPos_follows {pos : Nat} (follows : f.Follows s) (opened : f.opened.isSome = true)
    (usual : f.backend = .fat → pos ≠ 2 ^ 64 - 1) :
    (f.setPos pos).1 = .done ∧ (f.setPos pos).2.Follows (s.setPos pos) := by
  obtain ⟨file, opened⟩ := Option.isSome_iff_exists.mp opened
  have reads := (follows.reads file opened).setPos pos fun g eq => usual (follows.kind g (eq ▸ opened))
  rw [SegFile.setPos, opened]
  dsimp only
  refine ⟨rfl, follows.volume, follows.segmented, follows.current, rfl, ?_, ?_, ?_⟩
  · intro g eq
    cases file with
    | ntfs h => cases eq
    | fat g' => exact follows.kind g' opened
  · exact fun _ _ => follows.stored file opened
  · intro file' eq
    cases eq
    exact reads

/-- Every call keeps the segments the stream was made of. -/
theorem step_segments (op : SegOp) : (s.step op).2.segments = s.segments := by
  cases op with
  | setPos pos => rfl
  | read size buffer heap =>
    rw [Stream.step, Stream.read, Stream.plainRead]
    dsimp only
    split
    · rfl
    · split
      · split <;> rfl
      · rfl

/-- One call that holds replies as the stream, and goes on like it. -/
theorem segStep_follows {op : SegOp} (mark : OldHeader) (follows : f.Follows s)
    (addressable : Addressable s.segments) (holds : OpHolds f s op) :
    (segStep f mark op).1 = (s.step op).1 ∧ (segStep f mark op).2.1.Follows (s.step op).2 := by
  cases op with
  | setPos pos =>
    obtain ⟨opened, usual⟩ := holds
    exact setPos_follows follows opened usual
  | read size buffer heap =>
    obtain ⟨serves, only⟩ := holds
    exact fileRead_follows mark follows addressable serves only

/-- A file that stands where the stream does stays with it, as long as the calls hold. -/
theorem transparent_of_follows (ops : List SegOp) :
    ∀ (f : SegFile) (mark : OldHeader) (s : Stream), f.Follows s → Addressable s.segments →
      RunHolds f mark s ops → Transparent f mark s ops := by
  induction ops with
  | nil => exact fun _ _ _ _ _ _ => trivial
  | cons op ops ih =>
    intro f mark s follows addressable holds
    obtain ⟨reply, next⟩ := segStep_follows mark follows addressable holds.1
    refine ⟨reply, ih _ _ _ next ?_ holds.2⟩
    rw [step_segments op]
    exact addressable

/--
`FileRead` is transparent on every run whose calls hold in the states they meet.

The image is any files of either kind of volume, opened at its first segment,
and the calls are any seeks and reads with any buffers.
-/
theorem fileRead_transparent (backend : Backend) (ifneedseg : Bool) (volume : Nat → Option Bytes)
    (first : Bytes) (mark : OldHeader) (ops : List SegOp) (stored : volume 0 = some first)
    (addressable : Addressable volume)
    (holds : RunHolds (segFileOpen backend ifneedseg volume) mark
      { segments := volume, segmented := ifneedseg } ops) :
    Transparent (segFileOpen backend ifneedseg volume) mark
      { segments := volume, segmented := ifneedseg } ops :=
  transparent_of_follows ops _ _ _ (segFileOpen_follows stored addressable) addressable holds

/-! ### Two short images -/

/-- A volume with one file. -/
def oneFile (data : Bytes) : Nat → Option Bytes := fun k => if k = 0 then some data else none

/-- A file of eight bytes is read as it is. -/
theorem fileRead_transparent_short :
    RunHolds (segFileOpen .fat true (oneFile [1, 2, 3, 4, 5, 6, 7, 8])) {}
        { segments := oneFile [1, 2, 3, 4, 5, 6, 7, 8], segmented := true }
        [.read 8 (fun _ => 0) fun _ => 0] ∧
      Transparent (segFileOpen .fat true (oneFile [1, 2, 3, 4, 5, 6, 7, 8])) {}
        { segments := oneFile [1, 2, 3, 4, 5, 6, 7, 8], segmented := true }
        [.read 8 (fun _ => 0) fun _ => 0] := by
  have holds : RunHolds (segFileOpen .fat true (oneFile [1, 2, 3, 4, 5, 6, 7, 8])) {}
      { segments := oneFile [1, 2, 3, 4, 5, 6, 7, 8], segmented := true }
      [.read 8 (fun _ => 0) fun _ => 0] := by
    refine ⟨⟨Or.inr ⟨_, rfl, ⟨by decide, Or.inl (by decide)⟩, fun _ => ⟨Or.inl (by decide), ?_⟩⟩, ?_⟩, trivial⟩
    · intro _ next none
      cases none
    · intro _ _
      rw [Stream.ConvertsHeaderOnly, if_neg (by decide)]
      decide
  refine ⟨holds, fileRead_transparent .fat true _ [1, 2, 3, 4, 5, 6, 7, 8] {} _ rfl ?_ holds⟩
  intro k data stored
  rw [oneFile] at stored
  split at stored
  · cases stored
    decide
  · cases stored

/-- A file whose second eight bytes look like the front of an older header. -/
def lookalike : Bytes :=
  [0, 0, 0, 0, 0, 0, 0, 0, 0x6f, 0x6b, 0x72, 0x39, 0x10, 0x08, 0x00, 0x09]

/-- Bytes in the middle of a file are altered, as they look like an older header. -/
theorem fileRead_altersPayload :
    ¬Transparent (segFileOpen .fat true (oneFile lookalike)) {}
      { segments := oneFile lookalike, segmented := true }
      [.setPos 8, .read 8 (fun _ => 0) fun _ => 0] := by
  intro transparent
  have reply := transparent.2.1
  exact absurd reply (by decide)

end Okr
