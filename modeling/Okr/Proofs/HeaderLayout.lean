import Okr.File.HeaderLayout
import Okr.Proofs.LegacyBoot

/-! An older header is carried over whole, but only some reads of one may be converted. -/

namespace Okr

variable {old heap base : Image} {bytes : Bytes} {buffer : Image} {read room count a : Nat}

/-! ### What the conversion carries over -/

/-- Every field of both headers but the version and the size is copied from its place to its place. -/
theorem legacyFields_common : ∀ field ∈ okrHeader810, field ≠ .version → field ≠ .structSize →
    (place okrHeader field, place okrHeader810 field, field.size) ∈ legacyFields := by
  decide

/-- Nothing is copied over a field that only the header of today has. -/
theorem legacyFields_fresh : ∀ field ∈ okrHeader, field ∉ okrHeader810 →
    12 ≤ place okrHeader field ∧ place okrHeader field + field.size ≤ HEADER_FRONT
      ∧ ∀ f ∈ legacyFields, place okrHeader field + field.size ≤ f.1 ∨ f.1 + f.2.2 ≤ place okrHeader field := by
  decide

/-- The partition records are copied to places of their own. -/
theorem legacyPartitions_separate (count : Nat) :
    (legacyPartitions count).Pairwise fun f g => f.1 + f.2.2 ≤ g.1 ∨ g.1 + g.2.2 ≤ f.1 := by
  rw [legacyPartitions, List.pairwise_map]
  refine List.Pairwise.imp ?_ List.pairwise_lt_range
  intro i j less
  refine Or.inl ?_
  rw [PARTITION_RECORD]
  dsimp only
  omega

/-- Every counted record of the older header is in the converted one. -/
theorem convertHeader_record {k i : Nat} (counted : k < le16 old OLD_PARTITION_COUNT)
    (inside : i < PARTITION_RECORD) :
    convertHeader old heap (HEADER_FRONT + k * PARTITION_RECORD + i)
      = old (OLD_HEADER_FRONT + k * PARTITION_RECORD + i) := by
  have member : (HEADER_FRONT + k * PARTITION_RECORD, OLD_HEADER_FRONT + k * PARTITION_RECORD,
      PARTITION_RECORD) ∈ legacyPartitions (le16 old OLD_PARTITION_COUNT) := by
    rw [legacyPartitions]
    exact List.mem_map.mpr ⟨k, List.mem_range.mpr counted, rfl⟩
  rw [convertHeader, List.foldl_append]
  exact copies_field _ (legacyPartitions_separate _) member inside

/-- A byte no field is copied over is as it was made: zero behind the size. -/
theorem convertHeader_untouched (behind : 12 ≤ a) (front : a < HEADER_FRONT)
    (apart : ∀ f ∈ legacyFields, a < f.1 ∨ f.1 + f.2.2 ≤ a) : convertHeader old heap a = 0 := by
  rw [convertHeader_front front, copies_apart legacyFields apart, freshHeader,
    put_other (by omega), put_other (by omega), if_pos]
  rw [HEADER_FRONT] at front
  rw [OKR_HEADER_MAX_SIZE]
  omega

/-- The converted header is of the version of today. -/
theorem convertHeader_isToday : le32 (convertHeader old heap) 4 = HEADER_VERSION := by
  have same : le32 (convertHeader old heap) 4
      = le32 (put 4 (fun a => if a < OKR_HEADER_MAX_SIZE then 0 else heap a) 4 HEADER_VERSION) 4 := by
    apply le32_congr
    intro i below
    have apart : ∀ f ∈ legacyFields, f.1 + f.2.2 ≤ 4 ∨ 8 ≤ f.1 := by decide
    rw [convertHeader_front (by rw [HEADER_FRONT]; omega), copies_apart legacyFields, freshHeader,
      put_other (by omega)]
    intro f member
    have apart := apart f member
    omega
  rw [same, le32_put (by decide)]

/-- The size of a header of at most 64 partitions is one that is accepted. -/
theorem structSizeOf_accepted (few : count ≤ MAX_NUM_PARTITIONS) :
    structSizeOf count % SECTOR_SIZE = 0 ∧ structSizeOf count ≤ OKR_HEADER_MAX_SIZE
      ∧ OKR_HEADER_MIN_SIZE ≤ structSizeOf count := by
  rw [structSizeOf, SECTOR_SIZE, HEADER_FRONT, PARTITION_RECORD, OKR_HEADER_MAX_SIZE,
    OKR_HEADER_MIN_SIZE]
  rw [MAX_NUM_PARTITIONS] at few
  omega

/-- An older header of at most 64 partitions is carried over whole, and accepted. -/
theorem convertHeader_preserved (legacy : isLegacy old = true)
    (few : le16 old OLD_PARTITION_COUNT ≤ MAX_NUM_PARTITIONS) :
    HeaderPreserved old (convertHeader old heap) where
  common field member notVersion notSize i inside :=
    convertHeader_field (legacyFields_common field member notVersion notSize) inside
  records k counted i inside := convertHeader_record counted inside
  fresh field member new i inside := by
    -- a new field lies between the copied ones, where the heap shows through
    obtain ⟨behind, front, apart⟩ := legacyFields_fresh field member new
    refine convertHeader_untouched (by omega) (by omega) fun f member => ?_
    have apart := apart f member
    omega
  version := by
    have place_ : place okrHeader .version = 4 := by decide
    rw [place_]
    exact convertHeader_isToday
  accepted := by
    -- the size of a header with so few partitions is one `isImage` accepts
    obtain ⟨whole, most, least⟩ := structSizeOf_accepted few
    have size : le32 (convertHeader old heap) 8 = structSizeOf (le16 old OLD_PARTITION_COUNT) :=
      convertHeader_structSize old heap
    have magic : le32 (convertHeader old heap) 0 = OKR_IMAGE_MAGIC := by
      rw [(convertHeader_fields old heap).1]
      rw [isLegacy, Bool.and_eq_true, beq_iff_eq] at legacy
      exact legacy.1
    have places : place okrHeader .magic = 0 ∧ place okrHeader .structSize = 8 := by decide
    rw [FoundHeader.isImage, places.1, places.2, size, magic, whole]
    simp only [beq_self_eq_true, Bool.true_and, Bool.and_eq_true, decide_eq_true_eq]
    exact ⟨most, least⟩

/-! ### Where the conversion stays inside -/

/-- Checked copies succeed when all are inside, and are the copies then. -/
theorem copiesChecked (fields : List (Nat × Nat × Nat)) :
    fields.foldl (copyChecked read room old) (some base)
      = if ∀ f ∈ fields, f.2.1 + f.2.2 ≤ read ∧ f.1 + f.2.2 ≤ room then
          some (fields.foldl (copyFrom old) base)
        else none := by
  have stuck : ∀ fields : List (Nat × Nat × Nat),
      fields.foldl (copyChecked read room old) none = none := by
    intro fields
    induction fields with
    | nil => rfl
    | cons f fields ih => exact ih
  induction fields generalizing base with
  | nil => rfl
  | cons f fields ih =>
    rw [List.foldl_cons, List.foldl_cons, copyChecked, Option.bind_some]
    by_cases inside : f.2.1 + f.2.2 ≤ read ∧ f.1 + f.2.2 ≤ room
    · rw [if_pos inside, ih]
      simp only [List.forall_mem_cons, inside, true_and]
    · rw [if_neg inside, stuck, if_neg]
      exact fun all => inside (all f List.mem_cons_self)

/-- All copies are inside when the records that are counted are. -/
theorem copies_inside_iff :
    (∀ f ∈ legacyFields ++ legacyPartitions count,
        f.2.1 + f.2.2 ≤ read ∧ f.1 + f.2.2 ≤ OKR_HEADER_MAX_SIZE) ↔
      OLD_HEADER_FRONT + count * PARTITION_RECORD ≤ read
        ∧ HEADER_FRONT + count * PARTITION_RECORD ≤ OKR_HEADER_MAX_SIZE := by
  -- The fixed fields end where the records begin, and some field ends right there.
  have fixed : ∀ f ∈ legacyFields, f.2.1 + f.2.2 ≤ OLD_HEADER_FRONT ∧ f.1 + f.2.2 ≤ HEADER_FRONT := by
    decide
  have last : (0x5A0, 0x180, 0x80) ∈ legacyFields := by decide
  simp only [List.forall_mem_append, legacyPartitions, List.forall_mem_map, List.mem_range]
  simp only [OLD_HEADER_FRONT, HEADER_FRONT, PARTITION_RECORD, OKR_HEADER_MAX_SIZE] at fixed ⊢
  constructor
  · rintro ⟨fields, records⟩
    have front := fields _ last
    dsimp only at front
    rcases Nat.eq_zero_or_pos count with none_ | some_
    · rw [none_]
      omega
    · have record := records (count - 1) (by omega)
      omega
  · rintro ⟨reads, fits⟩
    refine ⟨fun f member => ?_, fun i below => ?_⟩
    · have fixed := fixed f member
      omega
    · omega

/-- The checked conversion is the conversion, exactly when that fits. -/
theorem convertChecked_eq_iff (legacy : isLegacy (readInto bytes buffer) = true) :
    convertChecked bytes.length (readInto bytes buffer) heap = some (convertRead bytes buffer heap).1 ↔
      ConversionFits bytes buffer := by
  rw [convertRead, if_pos legacy, ConversionFits, convertChecked]
  dsimp only
  rw [copiesChecked]
  simp only [copies_inside_iff]
  -- the records must fit in what was read and in the new header
  by_cases inside : OLD_HEADER_FRONT + le16 (readInto bytes buffer) OLD_PARTITION_COUNT * PARTITION_RECORD
        ≤ bytes.length
      ∧ HEADER_FRONT + le16 (readInto bytes buffer) OLD_PARTITION_COUNT * PARTITION_RECORD
        ≤ OKR_HEADER_MAX_SIZE
  · have counted : OLD_PARTITION_COUNT + 2 ≤ bytes.length := by
      have front := inside.1
      rw [OLD_HEADER_FRONT] at front
      rw [OLD_PARTITION_COUNT]
      omega
    rw [if_pos counted, if_pos inside, Option.bind_some]
    by_cases short : bytes.length ≤ OKR_HEADER_MAX_SIZE
    · rw [if_pos short]
      exact iff_of_true rfl ⟨inside.1, inside.2, short⟩
    · rw [if_neg short]
      exact iff_of_false (by simp) fun fits => short fits.2.2
  · have stuck : ¬ (if OLD_PARTITION_COUNT + 2 ≤ bytes.length then (none : Option Bytes) else none)
        = some (bytesAt (convertHeader (readInto bytes buffer) heap) 0 bytes.length) := by
      split <;> simp
    rw [if_neg inside, Option.bind_none]
    exact iff_of_false stuck fun fits => inside ⟨fits.1, fits.2.1⟩

/-- The conversion does what it is for exactly when it stays inside. -/
theorem conversionSound_iff (legacy : isLegacy (readInto bytes buffer) = true) :
    ConversionSound bytes buffer heap ↔ ConversionFits bytes buffer := by
  rw [← convertChecked_eq_iff legacy, ConversionSound]
  exact and_iff_right fun few => convertHeader_preserved legacy few

/--
The conversion of an older header carries it over, and stays inside its buffers, exactly so:
the records that are counted were read and are at most 66, and at most a largest header was read.

It is for any bytes, any count and any size of the read; with up to 64 partitions the fields and records
are carried over in every case.
-/
theorem fileRead_convertsSoundly (bytes : Bytes) (buffer heap : Image)
    (legacy : isLegacy (readInto bytes buffer) = true) :
    (ConversionSound bytes buffer heap ↔ ConversionFits bytes buffer)
      ∧ (le16 (readInto bytes buffer) OLD_PARTITION_COUNT ≤ MAX_NUM_PARTITIONS →
          HeaderPreserved (readInto bytes buffer) (convertHeader (readInto bytes buffer) heap)) :=
  ⟨conversionSound_iff legacy, fun few => convertHeader_preserved legacy few⟩

/-- The front of an older header with so many partitions, and zeros behind it. -/
def legacyBytes (count : UInt8) (size : Nat) : Bytes :=
  [0x6f, 0x6b, 0x72, 0x39, 0x10, 0x08, 0x00, 0x09] ++ List.replicate 274 0 ++ [count]
    ++ List.replicate (size - 283) 0

/-- An older header without partitions that was read whole is converted soundly. -/
theorem fileRead_convertsSoundly_empty :
    ConversionSound (legacyBytes 0 512) (fun _ => 0) (fun _ => 0) :=
  (fileRead_convertsSoundly (legacyBytes 0 512) (fun _ => 0) (fun _ => 0)
    (by decide +kernel)).1.mpr (by decide +kernel)

/-- An older header of 41 partitions of which the least size was read is converted with bytes behind it. -/
theorem fileRead_convertsUnread :
    isLegacy (readInto (legacyBytes 41 OKR_HEADER_MIN_SIZE) fun _ => 0) = true
      ∧ le16 (readInto (legacyBytes 41 OKR_HEADER_MIN_SIZE) fun _ => 0) OLD_PARTITION_COUNT = 41
      ∧ ¬ ConversionSound (legacyBytes 41 OKR_HEADER_MIN_SIZE) (fun _ => 0) (fun _ => 0) := by
  have legacy : isLegacy (readInto (legacyBytes 41 OKR_HEADER_MIN_SIZE) fun _ => 0) = true := by
    decide +kernel
  have count : le16 (readInto (legacyBytes 41 OKR_HEADER_MIN_SIZE) fun _ => 0) OLD_PARTITION_COUNT
      = 41 := by decide +kernel
  refine ⟨legacy, count, ?_⟩
  rw [conversionSound_iff legacy, ConversionFits, count]
  have length : (legacyBytes 41 OKR_HEADER_MIN_SIZE).length = OKR_HEADER_MIN_SIZE := by
    simp only [legacyBytes, List.length_append, List.length_cons, List.length_nil, List.length_replicate,
      OKR_HEADER_MIN_SIZE]
  rw [length]
  decide

end Okr
