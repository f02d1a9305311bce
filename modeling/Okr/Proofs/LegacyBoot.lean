import Okr.Proofs.WholeRead

/-! Which bytes a restore of an image of the older version takes for its boot area. -/

namespace Okr

/-! ### The fields of the converted header -/

variable {old heap base : Image} {a : Nat}

/-- A copy to another place leaves a byte as it is. -/
theorem copyFrom_apart {field : Nat × Nat × Nat} (apart : a < field.1 ∨ field.1 + field.2.2 ≤ a) :
    copyFrom old base field a = base a := by
  rw [copyFrom, if_neg (by omega)]

/-- Copies to other places leave a byte as it is. -/
theorem copies_apart (fields : List (Nat × Nat × Nat))
    (apart : ∀ f ∈ fields, a < f.1 ∨ f.1 + f.2.2 ≤ a) :
    (fields.foldl (copyFrom old) base) a = base a := by
  induction fields generalizing base with
  | nil => rfl
  | cons f fields ih =>
    rw [List.foldl_cons, ih fun g member => apart g (List.mem_cons_of_mem f member)]
    exact copyFrom_apart (apart f List.mem_cons_self)

/-- Fields that do not overlap all arrive. -/
theorem copies_field (fields : List (Nat × Nat × Nat))
    (separate : fields.Pairwise fun f g => f.1 + f.2.2 ≤ g.1 ∨ g.1 + g.2.2 ≤ f.1)
    {field : Nat × Nat × Nat} (member : field ∈ fields) {i : Nat} (inside : i < field.2.2) :
    (fields.foldl (copyFrom old) base) (field.1 + i) = old (field.2.1 + i) := by
  induction fields generalizing base with
  | nil => cases member
  | cons f fields ih =>
    rw [List.foldl_cons]
    obtain ⟨first, rest⟩ := List.pairwise_cons.mp separate
    cases member with
    | head =>
      -- The later fields go elsewhere.
      rw [copies_apart fields fun g later => by have := first g later; omega, copyFrom,
        if_pos (by omega), Nat.add_sub_cancel_left]
    | tail _ later => exact ih rest later

/-- In front of the partition records only the fixed fields are copied. -/
theorem convertHeader_front (front : a < HEADER_FRONT) :
    convertHeader old heap a
      = (legacyFields.foldl (copyFrom old) (freshHeader heap (le16 old OLD_PARTITION_COUNT))) a := by
  change (List.foldl (copyFrom old) (freshHeader heap _) _) a = _
  rw [List.foldl_append]
  apply copies_other
  intro f member
  exact Nat.lt_of_lt_of_le front (legacyPartitions_forward _ f member).2

/-- Every fixed field of the older header is in the converted one. -/
theorem convertHeader_field {field : Nat × Nat × Nat} (member : field ∈ legacyFields) {i : Nat}
    (inside : i < field.2.2) : convertHeader old heap (field.1 + i) = old (field.2.1 + i) := by
  have ends : ∀ f ∈ legacyFields, f.1 + f.2.2 ≤ HEADER_FRONT := by decide
  have reach := ends field member
  rw [convertHeader_front (by omega)]
  exact copies_field legacyFields (by decide) member inside

/-- The size of a header with a 16-bit count of records fits its field, and is one of whole sectors. -/
theorem structSizeOf_bound {count : Nat} (narrow : count < 2 ^ 16) :
    structSizeOf count < 2 ^ 32 ∧ structSizeOf count % 512 = 0 := by
  rw [structSizeOf, SECTOR_SIZE, HEADER_FRONT, PARTITION_RECORD]
  omega

/-- A 16-bit number is one. -/
theorem le16_bound (m : Image) (i : Nat) : le16 m i < 2 ^ 16 := by
  have low := (m i).toNat_lt
  have high := (m (i + 1)).toNat_lt
  rw [le16]
  omega

/-- The converted header is as large as a header of today with as many partition records. -/
theorem convertHeader_structSize (old heap : Image) :
    headerStructSize (convertHeader old heap) = structSizeOf (le16 old OLD_PARTITION_COUNT) := by
  have narrow := le16_bound old OLD_PARTITION_COUNT
  have fits := (structSizeOf_bound narrow).1
  have same : le32 (convertHeader old heap) 8
      = le32 (freshHeader heap (le16 old OLD_PARTITION_COUNT)) 8 := by
    apply le32_congr
    intro i below
    have apart : ∀ f ∈ legacyFields, f.1 + f.2.2 ≤ 8 ∨ 12 ≤ f.1 := by decide
    rw [convertHeader_front (by rw [HEADER_FRONT]; omega)]
    apply copies_apart
    intro f member
    have apart := apart f member
    omega
  rw [headerStructSize, same, freshHeader]
  exact le32_put fits

/-- The converted header keeps the magic, the size of the boot area and the mark of completion. -/
theorem convertHeader_fields (old heap : Image) :
    le32 (convertHeader old heap) 0 = le32 old 0
      ∧ headerGptSize (convertHeader old heap) = le32 old 0x11C
      ∧ headerComplete (convertHeader old heap) = (old 0x121 == 1) := by
  refine ⟨?_, ?_, ?_⟩
  · apply le32_congr
    intro i below
    exact convertHeader_field (show (0x0, 0x0, 4) ∈ legacyFields by decide) below
  · apply le32_congr
    intro i below
    exact convertHeader_field (show (0x53C, 0x11C, 4) ∈ legacyFields by decide) below
  · have field : convertHeader old heap (0x541 + 0) = old (0x121 + 0) :=
      convertHeader_field (show (0x541, 0x121, 1) ∈ legacyFields by decide) (by decide)
    rw [Nat.add_zero, Nat.add_zero] at field
    rw [headerComplete, field]

/-! ### The header as it is loaded -/

/-- The image is complete and as long as the read of a header demands. -/
def LegacyFile.Accepted (image : LegacyFile) : Prop :=
  OKR_HEADER_MAX_SIZE ≤ image.bytes.length ∧ (readInto image.bytes fun _ => 0) 0x121 = 1

/-- Bytes read out of a buffer stand in the buffer they are read into. -/
theorem readInto_bytesAt {m buffer : Image} {n : Nat} (below : a < n) :
    readInto (bytesAt m 0 n) buffer a = m a := by
  have length : (bytesAt m 0 n).length = n := by
    rw [bytesAt, List.length_map, List.length_range]
  rw [readInto, if_pos (by omega), bytesAt]
  simp [List.getD, below]

/-- The front of a file in a buffer is the front of the file. -/
theorem readInto_window {data : Bytes} {buffer : Image} {n : Nat} (below : a < n)
    (fits : n ≤ data.length) :
    readInto (Overlay.window data 0 n) buffer a = readInto data (fun _ => 0) a := by
  have length := Overlay.length_window data 0 n
  have byte := Overlay.getElem?_window data 0 n a
  rw [readInto, readInto, if_pos (by omega), if_pos (by omega), List.getD, List.getD, byte, if_pos below,
    Nat.zero_add]

variable {image : LegacyFile} {f : SegFile} {s : Stream} {file : OpenFile}

/-- What the program looks at in the buffer after an image of the older form was read and converted. -/
structure ConvertedHeader (image : LegacyFile) (result : Image) : Prop where
  magic : le32 result 0 = OKR_IMAGE_MAGIC
  complete : headerComplete result = ((readInto image.bytes fun _ => 0) 0x121 == 1)
  gptSize : headerGptSize result = image.gptSize
  structSize : headerStructSize result = structSizeOf image.partitionCount

/-- The front of a file of the older form is converted, and the buffer then holds the converted header. -/
theorem LegacyFile.converted (image : LegacyFile) (enough : OKR_HEADER_MAX_SIZE ≤ image.bytes.length)
    (buffer heap : Image) :
    ∃ conv : Image, convertRead (Overlay.window image.bytes 0 OKR_HEADER_MAX_SIZE) buffer heap
        = (bytesAt conv 0 OKR_HEADER_MAX_SIZE, ⟨true, image.structSize⟩)
      ∧ ConvertedHeader image (readInto (bytesAt conv 0 OKR_HEADER_MAX_SIZE) buffer) := by
  have length : (Overlay.window image.bytes 0 OKR_HEADER_MAX_SIZE).length = OKR_HEADER_MAX_SIZE := by
    rw [Overlay.length_window]
    omega
  -- The buffer holds the front of the file, so the test sees the older header there.
  generalize read : Overlay.window image.bytes 0 OKR_HEADER_MAX_SIZE = bytes at *
  have same : ∀ i < OKR_HEADER_MAX_SIZE,
      readInto bytes buffer i = readInto image.bytes (fun _ => 0) i := by
    intro i below
    rw [← read]
    exact readInto_window below enough
  have legacy : isLegacy (readInto bytes buffer) = true := by
    rw [← image.legacy]
    exact isLegacy_congr fun i below => same i (by rw [OKR_HEADER_MAX_SIZE]; omega)
  have inside : ∀ i, i < 0x600 → i < OKR_HEADER_MAX_SIZE := by
    intro i below
    rw [OKR_HEADER_MAX_SIZE]
    omega
  have field : ∀ i, i + 4 ≤ 0x600 →
      le32 (readInto bytes buffer) i = le32 (readInto image.bytes fun _ => 0) i := by
    intro i below
    exact le32_congr fun b _ => same _ (inside _ (by omega))
  have count : le16 (readInto bytes buffer) OLD_PARTITION_COUNT = image.partitionCount := by
    apply le16_congr
    exact fun b below => same _ (inside _ (by rw [OLD_PARTITION_COUNT]; omega))
  have converted : convertRead bytes buffer heap
      = (bytesAt (convertHeader (readInto bytes buffer) heap) 0 OKR_HEADER_MAX_SIZE,
          ⟨true, image.structSize⟩) := by
    rw [convertRead, if_pos legacy, LegacyFile.structSize, ← field 8 (by omega), length]
  refine ⟨_, converted, ?_⟩
  -- The header in the buffer is the converted one, as far as it was read.
  have header : ∀ i < OKR_HEADER_MAX_SIZE,
      readInto (bytesAt (convertHeader (readInto bytes buffer) heap) 0 OKR_HEADER_MAX_SIZE) buffer i
        = convertHeader (readInto bytes buffer) heap i :=
    fun i below => readInto_bytesAt below
  obtain ⟨magic, gptSize, done⟩ := convertHeader_fields (readInto bytes buffer) heap
  have structSize := convertHeader_structSize (readInto bytes buffer) heap
  generalize convertHeader (readInto bytes buffer) heap = conv at *
  generalize readInto (bytesAt conv 0 OKR_HEADER_MAX_SIZE) buffer = result at header ⊢
  have copy : ∀ i, i + 4 ≤ 0x600 → le32 result i = le32 conv i := by
    intro i below
    exact le32_congr fun b _ => header _ (inside _ (by omega))
  constructor
  · rw [copy 0 (by omega), magic]
    rw [isLegacy, Bool.and_eq_true, beq_iff_eq] at legacy
    exact legacy.1
  · rw [headerComplete] at done ⊢
    rw [header _ (inside _ (by omega)), done, same _ (inside _ (by omega))]
  · rw [headerGptSize] at gptSize ⊢
    rw [copy _ (by omega), gptSize, field _ (by omega)]
    rfl
  · rw [headerStructSize] at structSize ⊢
    rw [copy _ (by omega), structSize, count]

/--
A complete image is loaded with its own size noted and the size of the converted header in the buffer.

The file is then open behind the header, and nothing else of it has changed.
-/
theorem loadImageHeader_whole (buffer heap : Image) (mark : OldHeader)
    (enough : OKR_HEADER_MAX_SIZE ≤ image.bytes.length) (holds : f.Holds s file)
    (going : s.ended = false) (front : s.pos = 0) (content : s.content = image.bytes) :
    ∃ (header : Image) (f' : SegFile) (file' : OpenFile),
      (loadImageHeader f buffer heap mark =
          if (readInto image.bytes fun _ => 0) 0x121 = 1 then
            some (header, f', ⟨true, image.structSize⟩)
          else none)
        ∧ headerGptSize header = image.gptSize
        ∧ headerStructSize header = structSizeOf image.partitionCount
        ∧ f'.backend = f.backend
        ∧ f'.Holds { s with pos := OKR_HEADER_MAX_SIZE } file' := by
  have length : (Overlay.window image.bytes 0 OKR_HEADER_MAX_SIZE).length = OKR_HEADER_MAX_SIZE := by
    rw [Overlay.length_window]
    omega
  have some_ : Overlay.window image.bytes 0 OKR_HEADER_MAX_SIZE ≠ [] := by
    intro none_
    rw [none_, List.length_nil, OKR_HEADER_MAX_SIZE] at length
    omega
  have reads := holds.follows.reads file holds.opened
  have safe : file.ReadSafe OKR_HEADER_MAX_SIZE := by
    apply reads.safe holds.clean
    · rw [front]
      exact Nat.zero_le _
    · exact fun _ => Or.inl (by decide)
  obtain ⟨reply, next, opened⟩ := readOpen_follows holds.follows holds.opened safe
  rw [readOpen_eq holds.opened] at reply next opened
  rw [content, front] at reply next
  dsimp only at reply next opened
  rw [length, Nat.zero_add] at next
  have loaded : fileRead f OKR_HEADER_MAX_SIZE buffer heap mark = _ :=
    fileRead_stays (holds.follows.ended.trans going) holds.opened reply some_
  obtain ⟨conv, converted, fields⟩ := image.converted enough buffer heap
  rw [converted] at loaded
  obtain ⟨clean, kind⟩ := holds.clean.read OKR_HEADER_MAX_SIZE
  refine ⟨readInto (bytesAt conv 0 OKR_HEADER_MAX_SIZE) buffer, _, _, ?_, fields.gptSize,
    fields.structSize, ?_, next, rfl, clean, kind.trans holds.kind⟩
  · rw [loadImageHeader, loaded]
    dsimp only
    have whole : (bytesAt conv 0 OKR_HEADER_MAX_SIZE).length = OKR_HEADER_MAX_SIZE := by
      rw [bytesAt, List.length_map, List.length_range]
    rw [whole, fields.magic, fields.complete]
    -- The header is taken only where the image is complete.
    by_cases complete : (readInto image.bytes fun _ => 0) 0x121 = 1
    · simp [complete]
    · simp [complete]
  · rfl

variable {buffer : Image} {mark : OldHeader}

/-- An image that is shorter than the largest header is refused. -/
theorem loadImageHeader_short (short : image.bytes.length < OKR_HEADER_MAX_SIZE)
    (holds : f.Holds s file) (going : s.ended = false) (front : s.pos = 0)
    (content : s.content = image.bytes) : loadImageHeader f buffer heap mark = none := by
  have length : (Overlay.window image.bytes 0 OKR_HEADER_MAX_SIZE).length = image.bytes.length := by
    rw [Overlay.length_window]
    omega
  have some_ : Overlay.window image.bytes 0 OKR_HEADER_MAX_SIZE ≠ [] := by
    -- An empty file has no magic.
    intro none_
    rw [none_, List.length_nil] at length
    have empty := List.eq_nil_of_length_eq_zero length.symm
    have legacy := image.legacy
    rw [empty] at legacy
    exact absurd legacy (by decide)
  have reads := holds.follows.reads file holds.opened
  have safe : file.ReadSafe OKR_HEADER_MAX_SIZE := by
    apply reads.safe holds.clean
    · rw [front]
      exact Nat.zero_le _
    · exact fun _ => Or.inl (by decide)
  have reply := (reads.read safe).1
  rw [content, front] at reply
  have loaded : fileRead f OKR_HEADER_MAX_SIZE buffer heap mark = _ :=
    fileRead_stays (holds.follows.ended.trans going) holds.opened reply some_
  rw [loadImageHeader, loaded]
  dsimp only
  rw [length_convertRead, length, if_pos (by omega)]

/-! ### The boot area -/

/-- The bytes are the boot area, and are left as they are or are converted into it. -/
def LegacyFile.Arrives (image : LegacyFile) (bytes : Bytes) (buffer heap : Image) : Prop :=
  if isLegacy (readInto bytes buffer) then
    bytesAt (convertHeader (readInto bytes buffer) heap) 0 bytes.length = image.bootArea
  else bytes = image.bootArea

/-- What is read is the boot area exactly when the bytes arrive as it. -/
theorem convertRead_arrives (bytes : Bytes) :
    (convertRead bytes buffer heap).1 = image.bootArea ↔ image.Arrives bytes buffer heap := by
  rw [convertRead, LegacyFile.Arrives]
  split
  · exact Iff.rfl
  · exact Iff.rfl

/-- A buffer gives back what was read into it. -/
theorem bytesAt_readInto (bytes : Bytes) (buffer : Image) :
    bytesAt (readInto bytes buffer) 0 bytes.length = bytes := by
  apply List.ext_getElem
  · rw [bytesAt, List.length_map, List.length_range]
  · intro i _ below
    simp only [bytesAt, List.getElem_map, List.getElem_range, readInto, Nat.zero_add, if_pos below]
    simp [List.getD, below]

/-- The version of the converted header is that of today. -/
theorem convertHeader_version : convertHeader old heap 4 = 0x11 := by
  have apart : ∀ f ∈ legacyFields, 4 < f.1 ∨ f.1 + f.2.2 ≤ 4 := by decide
  rw [convertHeader_front (by decide), copies_apart _ apart, freshHeader, put_other (by decide), put,
    if_pos (by decide)]
  rfl

/-- Only the fifth byte tells: what begins like an older header is altered there. -/
theorem convertRead_self (bytes : Bytes) :
    (convertRead bytes buffer heap).1 = bytes
      ↔ bytes.length < 5 ∨ isLegacy (readInto bytes buffer) = false := by
  rw [convertRead]
  cases legacy : isLegacy (readInto bytes buffer) with
  | false =>
    rw [if_neg Bool.false_ne_true]
    exact ⟨fun _ => Or.inr rfl, fun _ => rfl⟩
  | true =>
    rw [if_pos rfl]
    dsimp only
    constructor
    · intro same
      by_contra other
      have long : 4 < bytes.length := by
        by_contra short
        exact other (Or.inl (by omega))
      -- The fifth byte is the low one of the version.
      have byte : convertHeader (readInto bytes buffer) heap 4 = readInto bytes buffer 4 := by
        have given : readInto (bytesAt (convertHeader (readInto bytes buffer) heap) 0 bytes.length) buffer 4
            = convertHeader (readInto bytes buffer) heap 4 := readInto_bytesAt long
        rw [← given, same]
      rw [convertHeader_version] at byte
      rw [isLegacy, Bool.and_eq_true, beq_iff_eq, beq_iff_eq] at legacy
      have version := legacy.2
      rw [le32, le16, ← byte, LEGACY_VERSION] at version
      have low : (0x11 : UInt8).toNat = 0x11 := rfl
      omega
    · intro short
      have short : bytes.length < 5 := by
        cases short with
        | inl short => exact short
        | inr other => cases other
      -- The magic is copied.
      refine Eq.trans (bytesAt_congr fun i below => ?_) (bytesAt_readInto bytes buffer)
      exact convertHeader_field (show (0x0, 0x0, 4) ∈ legacyFields by decide)
        (show i < 4 by omega)

variable {backend : Backend} {ifneedseg passes : Bool} {volume : Nat → Option Bytes}
  {memory : RestoreMemory}

/-- The image as a stream, at its front. -/
def imageStream (volume : Nat → Option Bytes) (ifneedseg : Bool) : Stream :=
  { segments := volume, segmented := ifneedseg }

/-- The first segment is what the stream is in. -/
theorem imageStream_content {first : Bytes} (stored : volume 0 = some first) :
    (imageStream volume ifneedseg).content = first := by
  rw [Stream.content, imageStream]
  dsimp only
  rw [stored]
  rfl

/-- What is stored at a position does not depend on where the stream was. -/
theorem wholeBytes_pos (s : Stream) (at_ pos size : Nat) :
    ({ s with pos := at_ } : Stream).wholeBytes backend pos size = s.wholeBytes backend pos size :=
  rfl

/-- The boot area is stored behind the header of the older version. -/
theorem wholeBytes_bootArea (stored : volume 0 = some image.bytes) (whole : image.Whole) :
    (imageStream volume ifneedseg).wholeBytes backend image.structSize image.gptSize
      = some image.bootArea := by
  rw [Stream.wholeBytes, imageStream_content stored, LegacyFile.bootArea]
  exact if_pos whole

/-- An empty read in full brings nothing. -/
theorem readWhole_empty {pos : Nat} {bytes : Bytes}
    (read : readWhole f pos 0 buffer heap mark = some bytes) : bytes = [] := by
  rw [readWhole] at read
  split at read
  · split at read
    · split at read
      · next empty =>
        cases read
        exact List.eq_nil_of_length_eq_zero empty
      · cases read
    · cases read
  · cases read

/-- The bytes a restore reads on each route, where it comes to the read. -/
def LegacyFile.readOn (image : LegacyFile) (route : RestoreRoute) (s : Stream) (backend : Backend) :
    Option Bytes :=
  match route with
  | .recover => some image.bootArea
  | .recoverLinux => s.wholeBytes backend (structSizeOf image.partitionCount) image.gptSize

/-- A restore of an accepted image brings what its route reads, up to the conversion. -/
theorem restoredBootArea_eq (cur : Nat) (stored : volume 0 = some image.bytes) (whole : image.Whole)
    (addressable : Addressable volume) (wanted : 0 < image.gptSize) (accepted : image.Accepted) :
    restoredBootArea cur backend ifneedseg true volume memory mark
      = (image.readOn (selectRoute cur) (imageStream volume ifneedseg) backend).map
          fun bytes => (convertRead bytes memory.data memory.heap').1 := by
  have holds : (segFileOpen backend ifneedseg volume).Holds (imageStream volume ifneedseg) _ :=
    segFileOpen_holds stored addressable
  have content : (imageStream volume ifneedseg).content = image.bytes := imageStream_content stored
  have kind : (segFileOpen backend ifneedseg volume).backend = backend := rfl
  rw [restoredBootArea]
  -- both routes load the same header; they differ in the seek they read behind
  cases selectRoute cur with
  | recover =>
    obtain ⟨header, f', file', loaded, gptSize, -, -, -⟩ :=
      loadImageHeader_whole memory.header memory.heap { mark with oldImage := false } accepted.1 holds
        rfl rfl content
    rw [if_pos accepted.2] at loaded
    dsimp only
    rw [recoverBootArea, loaded]
    dsimp only
    have whole' : image.structSize ≤ image.bytes.length := by
      have whole : image.structSize + image.gptSize ≤ image.bytes.length := whole
      omega
    -- the seek to -1 is the one the reader refuses, and no stored file is that long
    have usual : image.structSize ≠ 2 ^ 64 - 1 := by
      have bound := addressable 0 _ stored
      rw [MAX_OFFSET] at bound
      omega
    rw [if_pos rfl, if_pos rfl, gptSize, readWhole_eq holds addressable wanted usual
      (Or.inr (content ▸ whole')), kind, wholeBytes_bootArea stored whole]
    rfl
  | recoverLinux =>
    obtain ⟨header, f', file', loaded, gptSize, structSize, same, holds'⟩ :=
      loadImageHeader_whole memory.header memory.heap mark accepted.1 holds rfl rfl content
    rw [if_pos accepted.2] at loaded
    dsimp only
    rw [recoverLinuxBootArea, loaded]
    dsimp only
    -- a 16-bit count keeps the computed offset far below any limit of the reader
    have narrow : image.partitionCount < 2 ^ 16 := le16_bound _ _
    obtain ⟨small, aligned⟩ := structSizeOf_bound narrow
    rw [if_pos rfl, gptSize, structSize, readWhole_eq holds' addressable wanted (by omega)
      (Or.inl aligned), same, wholeBytes_pos]
    rfl

/-- A restore brings nothing of an image it refuses, or once one of its tests ends it. -/
theorem restoredBootArea_refused (cur : Nat) (stored : volume 0 = some image.bytes)
    (addressable : Addressable volume) (refused : ¬(image.Accepted ∧ passes = true)) :
    restoredBootArea cur backend ifneedseg passes volume memory mark = none := by
  have holds : (segFileOpen backend ifneedseg volume).Holds (imageStream volume ifneedseg) _ :=
    segFileOpen_holds stored addressable
  have content : (imageStream volume ifneedseg).content = image.bytes := imageStream_content stored
  -- The header is refused, or the tests do not pass.
  have ends : ∀ mark, loadImageHeader (segFileOpen backend ifneedseg volume) memory.header memory.heap mark
      = none ∨ passes = false := by
    intro mark
    by_cases enough : OKR_HEADER_MAX_SIZE ≤ image.bytes.length
    · obtain ⟨header, f', file', loaded, -⟩ :=
        loadImageHeader_whole memory.header memory.heap mark enough holds rfl rfl content
      by_cases complete : (readInto image.bytes fun _ => 0) 0x121 = 1
      · right
        cases other : passes with
        | false => rfl
        | true => exact absurd ⟨⟨enough, complete⟩, other⟩ refused
      · left
        rw [loaded, if_neg complete]
    · left
      exact loadImageHeader_short (by omega) holds rfl rfl content
  rw [restoredBootArea]
  cases selectRoute cur with
  | recover =>
    dsimp only
    rw [recoverBootArea]
    cases ends { mark with oldImage := false } with
    | inl none_ => rw [none_]
    | inr stops =>
      dsimp only
      rw [stops]
      split <;> rfl
  | recoverLinux =>
    dsimp only
    rw [recoverLinuxBootArea]
    cases ends mark with
    | inl none_ => rw [none_]
    | inr stops =>
      rw [stops]
      split <;> rfl

/-- Without a boot area nothing is brought. -/
theorem restoredBootArea_empty (cur : Nat) (stored : volume 0 = some image.bytes)
    (addressable : Addressable volume) (empty : image.gptSize = 0) (accepted : image.Accepted)
    {bytes : Bytes}
    (read : restoredBootArea cur backend ifneedseg true volume memory mark = some bytes) : bytes = [] := by
  have holds : (segFileOpen backend ifneedseg volume).Holds (imageStream volume ifneedseg) _ :=
    segFileOpen_holds stored addressable
  have content : (imageStream volume ifneedseg).content = image.bytes := imageStream_content stored
  rw [restoredBootArea] at read
  -- nothing wanted is nothing read, on either route
  cases route : selectRoute cur with
  | recover =>
    obtain ⟨header, f', file', loaded, gptSize, -, -, -⟩ :=
      loadImageHeader_whole memory.header memory.heap { mark with oldImage := false } accepted.1 holds
        rfl rfl content
    rw [if_pos accepted.2] at loaded
    rw [empty] at gptSize
    rw [route, recoverBootArea, loaded] at read
    dsimp only at read
    rw [if_pos rfl, if_pos rfl, gptSize] at read
    exact readWhole_empty read
  | recoverLinux =>
    obtain ⟨header, f', file', loaded, gptSize, -, -, -⟩ :=
      loadImageHeader_whole memory.header memory.heap mark accepted.1 holds rfl rfl content
    rw [if_pos accepted.2] at loaded
    rw [empty] at gptSize
    rw [route, recoverLinuxBootArea, loaded] at read
    dsimp only at read
    rw [if_pos rfl, gptSize] at read
    exact readWhole_empty read

/--
The selected route takes the boot area from the layout of the older version.

`Recover` seeks to the size the older header notes, `Recover_Linux` to that of the converted one.
-/
def LegacyFile.KeepsLayout (image : LegacyFile) (cur : Nat) (s : Stream) (backend : Backend)
    (memory : RestoreMemory) : Prop :=
  match selectRoute cur with
  | .recover => image.gptSize < 5 ∨ isLegacy (readInto image.bootArea memory.data) = false
  | .recoverLinux =>
    ∀ bytes, s.wholeBytes backend (structSizeOf image.partitionCount) image.gptSize = some bytes →
      image.Arrives bytes memory.data memory.heap'

/-- Without a boot area both routes keep to it. -/
theorem keepsLayout_empty (cur : Nat) (empty : image.gptSize = 0) :
    image.KeepsLayout cur s backend memory := by
  rw [LegacyFile.KeepsLayout]
  have nothing : image.bootArea = [] := by
    rw [LegacyFile.bootArea, empty, Overlay.window_zero]
  cases selectRoute cur with
  | recover =>
    exact Or.inl (by omega)
  | recoverLinux =>
    intro bytes stored
    -- with an empty area every way to read it whole gives no bytes
    have none_ : bytes = [] := by
      rw [Stream.wholeBytes, empty] at stored
      split at stored
      · cases stored
        rfl
      · split at stored
        · split at stored
          · cases stored
          · split at stored
            · cases stored
              rfl
            · cases stored
        · cases stored
    rw [LegacyFile.Arrives, nothing, none_]
    split <;> rfl

/--
A restore takes the boot area of an image of the older version exactly when its route keeps the layout.

The image is any first segment with a header of the older version and the boot area behind it,
on either kind of volume, whatever the buffers hold and whatever was converted before.
-/
theorem restoredBootArea_iff_keepsLayout (cur : Nat) (backend : Backend) (ifneedseg passes : Bool)
    (volume : Nat → Option Bytes) (memory : RestoreMemory) (mark : OldHeader) (image : LegacyFile)
    (stored : volume 0 = some image.bytes) (whole : image.Whole) (addressable : Addressable volume) :
    (∀ b, restoredBootArea cur backend ifneedseg passes volume memory mark = some b →
        b = image.bootArea) ↔
      (image.Accepted → passes = true →
        image.KeepsLayout cur (imageStream volume ifneedseg) backend memory) := by
  by_cases refused : image.Accepted ∧ passes = true
  case neg =>
    -- Nothing is read at all.
    rw [restoredBootArea_refused cur stored addressable refused]
    constructor
    · exact fun _ accepted goes => absurd ⟨accepted, goes⟩ refused
    · intro _ b none_
      cases none_
  obtain ⟨accepted, goes⟩ := refused
  rw [goes]
  by_cases empty : image.gptSize = 0
  case pos =>
    have keeps : image.KeepsLayout cur (imageStream volume ifneedseg) backend memory :=
      keepsLayout_empty cur empty
    refine ⟨fun _ _ _ => keeps, fun _ b read => ?_⟩
    rw [restoredBootArea_empty cur stored addressable empty accepted read, LegacyFile.bootArea, empty,
      Overlay.window_zero]
  rw [restoredBootArea_eq cur stored whole addressable (by omega) accepted, LegacyFile.KeepsLayout]
  cases selectRoute cur with
  | recover =>
    dsimp only [LegacyFile.readOn]
    rw [Option.map_some]
    have area : image.structSize + image.gptSize ≤ image.bytes.length := whole
    have length : image.bootArea.length = image.gptSize := by
      rw [LegacyFile.bootArea, Overlay.length_window]
      omega
    have self : (convertRead image.bootArea memory.data memory.heap').1 = image.bootArea ↔ _ :=
      convertRead_self image.bootArea
    rw [length] at self
    generalize (convertRead image.bootArea memory.data memory.heap').1 = brought at self ⊢
    constructor
    · intro right _ _
      exact self.mp (right brought rfl)
    · intro keeps b read
      cases read
      exact self.mpr (keeps accepted rfl)
  | recoverLinux =>
    dsimp only [LegacyFile.readOn]
    constructor
    · intro right _ _ bytes found
      apply (convertRead_arrives bytes).mp
      apply right
      rw [found, Option.map_some]
    · intro keeps b read
      obtain ⟨bytes, found, eq⟩ := Option.map_eq_some_iff.mp read
      rw [← eq]
      exact (convertRead_arrives bytes).mpr (keeps accepted rfl bytes found)

/-! ### An image whose header grows by the conversion -/

/-- The bytes of a header without partition records in one sector, with one byte of boot area behind. -/
def sectorHeader : Image := fun a =>
  if a < 4 then UInt8.ofNat (OKR_IMAGE_MAGIC / 256 ^ a)
  else if a = 4 then 0x10
  else if a = 5 then 0x08
  else if a = 7 then 0x09
  else if a = 9 then 2        -- StructSize is 0x200.
  else if a = 0x11C then 1    -- GptSize
  else if a = 0x121 then 1    -- bComplete
  else if a = 0x200 then 1    -- the boot area
  else 0

variable {n : Nat}

/-- The bytes of a file that holds them. -/
theorem sectorHeader_byte (file : image.bytes = bytesAt sectorHeader 0 n) (below : a < n) :
    readInto image.bytes (fun _ => 0) a = sectorHeader a := by
  rw [file]
  exact readInto_bytesAt below

/-- The bytes of a file that holds them, one at a time. -/
theorem sectorHeader_window (file : image.bytes = bytesAt sectorHeader 0 n) {pos : Nat}
    (inside : pos < n) : Overlay.window image.bytes pos 1 = [sectorHeader pos] := by
  apply List.ext_getElem?
  intro i
  rw [Overlay.getElem?_window, file]
  cases i with
  | zero =>
    rw [if_pos (by decide), Nat.add_zero]
    simp [bytesAt, inside]
  | succ i =>
    rw [if_neg (by omega)]
    rfl

/-- The fields of an image with these bytes. -/
theorem sectorHeader_fields (file : image.bytes = bytesAt sectorHeader 0 n)
    (large : OKR_HEADER_MAX_SIZE ≤ n) :
    image.bytes.length = n ∧ image.structSize = 0x200 ∧ image.gptSize = 1 ∧ image.partitionCount = 0
      ∧ image.Accepted ∧ image.Whole := by
  have length : image.bytes.length = n := by
    rw [file, bytesAt, List.length_map, List.length_range]
  -- every field lies below the stored size, so the padding is never looked at
  have byte : ∀ a, a < 0x4C00 → readInto image.bytes (fun _ => 0) a = sectorHeader a :=
    fun a below => sectorHeader_byte file (Nat.lt_of_lt_of_le below large)
  have structSize : image.structSize = 0x200 := by
    have same : image.structSize = le32 sectorHeader 8 := le32_congr fun b below => byte _ (by omega)
    rw [same]
    decide
  have gptSize : image.gptSize = 1 := by
    have same : image.gptSize = le32 sectorHeader 0x11C :=
      le32_congr fun b below => byte _ (by omega)
    rw [same]
    decide
  refine ⟨length, structSize, gptSize, ?_, ⟨length ▸ large, ?_⟩, ?_⟩
  · have same : image.partitionCount = le16 sectorHeader 0x11A :=
      le16_congr fun b below => byte _ (by rw [OLD_PARTITION_COUNT]; omega)
    rw [same]
    decide
  · rw [byte _ (by omega)]
    decide
  · rw [LegacyFile.Whole, structSize, gptSize, length]
    rw [OKR_HEADER_MAX_SIZE] at large
    omega

/-- A buffer with these bytes begins like a header of the older version. -/
theorem sectorHeader_legacy (large : OKR_HEADER_MAX_SIZE ≤ n) :
    isLegacy (readInto (bytesAt sectorHeader 0 n) fun _ => 0) = true := by
  have same : isLegacy (readInto (bytesAt sectorHeader 0 n) fun _ => 0) = isLegacy sectorHeader := by
    apply isLegacy_congr
    intro i below
    rw [OKR_HEADER_MAX_SIZE] at large
    exact readInto_bytesAt (by omega)
  rw [same]
  decide

/-- An image of the older version whose converted header is sixteen times as large as its own. -/
def sectorImage : LegacyFile :=
  ⟨bytesAt sectorHeader 0 OKR_HEADER_MAX_SIZE, sectorHeader_legacy (Nat.le_refl _)⟩

/-- The bytes of the image. -/
theorem sectorImage_bytes : sectorImage.bytes = bytesAt sectorHeader 0 OKR_HEADER_MAX_SIZE := by
  rw [sectorImage]

/-- The image is in one file. -/
theorem sectorImage_stored :
    sectorImage.Whole ∧ Addressable (oneFile sectorImage.bytes) := by
  have file := sectorImage_bytes
  obtain ⟨length, -, -, -, -, whole⟩ := sectorHeader_fields file (Nat.le_refl _)
  refine ⟨whole, fun k data stored => ?_⟩
  rw [oneFile] at stored
  split at stored
  · rw [← Option.some.inj stored, length]
    decide
  · cases stored

/-- The memory of a restore that finds zeros everywhere. -/
def zeroMemory : RestoreMemory := ⟨fun _ => 0, fun _ => 0, fun _ => 0, fun _ => 0⟩

/-- The image in one file of a FAT volume is restored from its layout as its route keeps to it. -/
theorem restoredBootArea_iff_keepsLayout_sector :
    (sectorImage.Whole ∧ Addressable (oneFile sectorImage.bytes)) ∧
      ((∀ b, restoredBootArea 0 .fat true true (oneFile sectorImage.bytes) zeroMemory {} = some b →
          b = sectorImage.bootArea) ↔
        (sectorImage.Accepted → true = true →
          sectorImage.KeepsLayout 0 (imageStream (oneFile sectorImage.bytes) true) .fat zeroMemory)) :=
  ⟨sectorImage_stored,
    restoredBootArea_iff_keepsLayout 0 .fat true true (oneFile sectorImage.bytes) zeroMemory {} sectorImage
      rfl sectorImage_stored.1 sectorImage_stored.2⟩

/-- `Recover_Linux` takes a byte of the payload for the boot area of the image. -/
theorem restoredBootArea_readsPayload :
    ¬∀ b, restoredBootArea 0 .fat true true (oneFile sectorImage.bytes) zeroMemory {} = some b →
        b = sectorImage.bootArea := by
  have file := sectorImage_bytes
  obtain ⟨length, structSize, gptSize, count, accepted, whole⟩ :=
    sectorHeader_fields file (Nat.le_refl _)
  have addressable := sectorImage_stored.2
  have content : (imageStream (oneFile sectorImage.bytes) true).content = sectorImage.bytes :=
    imageStream_content rfl
  -- the route reads at the offset it computes, where the payload stands
  have read : sectorImage.readOn (selectRoute 0) (imageStream (oneFile sectorImage.bytes) true) .fat
      = some [sectorHeader 0x2000] := by
    change Stream.wholeBytes _ _ _ _ = _
    have large : structSizeOf sectorImage.partitionCount = 0x2000 := by
      rw [count]
      decide
    have inside : 0x2000 + 1 ≤ sectorImage.bytes.length := by
      rw [length]
      decide
    rw [Stream.wholeBytes, content, large, gptSize, if_pos inside, sectorHeader_window file (by decide)]
  have brought : restoredBootArea 0 .fat true true (oneFile sectorImage.bytes) zeroMemory {}
      = some (convertRead [sectorHeader 0x2000] zeroMemory.data zeroMemory.heap').1 := by
    rw [restoredBootArea_eq 0 rfl whole addressable (by rw [gptSize]; decide) accepted, read,
      Option.map_some]
  intro right
  have area := right _ brought
  rw [LegacyFile.bootArea, structSize, gptSize, sectorHeader_window file (by decide)] at area
  exact absurd area (by decide)

end Okr
