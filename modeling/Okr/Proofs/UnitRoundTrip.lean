import Okr.Images.ImageFile
import Okr.Proofs.Lz4RoundTrip
import Okr.Restore.SyncRestore

/-! A unit that was written is read, checked and decompressed to its data. -/

namespace Okr

variable {data rest file : Bytes} {dest stale : Image} {destSize compressBlockSize totaldatasize : Nat}
variable {record : UnitRecord} {j : RecoverJob} {s : RecoverState}

/-- A unit that stands for data of at most one buffer. -/
structure UnitRecord.StandsFor (record : UnitRecord) (compressBlockSize : Nat) (data : Bytes) : Prop where
  some_ : record.data ≠ []
  short : record.data.length ≤ data.length
  fits : data.length ≤ compressBlockSize
  lz4_size : record.lz4_size = record.data.length
  align_lz4_size : record.align_lz4_size = calcAliginSize (record.data.length + LZ4_BUFFER_HEAD_SIZE)
  flag : record.compress_flag = COMPRESS_MAGIC ∨ record.compress_flag = UNCOMPRESS_MAGIC
  opens : ∀ dest, decompressBuffer (lz4DecompressSafe dest compressBlockSize)
    { ifcompressed := record.compressed, pointer := record.data, usedsize := record.data.length }
      = some (data, data.length)

/-- Rounding up goes to the next multiple at most. -/
theorem calcAliginSize_bounds (num : Nat) :
    num ≤ calcAliginSize num ∧ calcAliginSize num < num + ALGIN_SIZE_BYTE := by
  simp only [calcAliginSize, ALGIN_SIZE_BYTE]
  omega

/-- A larger unit has the larger bound. -/
theorem LZ4_COMPRESSBOUND_mono {isize isize' : Nat} (less : isize ≤ isize') (fits : isize' ≤ LZ4_MAX_INPUT_SIZE) :
    LZ4_COMPRESSBOUND isize ≤ LZ4_COMPRESSBOUND isize' := by
  rw [LZ4_COMPRESSBOUND_eq fits, LZ4_COMPRESSBOUND_eq (Nat.le_trans less fits)]
  omega

/-- With the real compression no buffer fails, and its unit stands for the data. -/
theorem compressBuffer_lz4 (dest : Image) (some_ : data ≠ []) (short : data.length ≤ compressBlockSize)
    (fits : compressBlockSize ≤ LZ4_MAX_INPUT_SIZE) (large : LZ4_COMPRESSBOUND compressBlockSize ≤ destSize) :
    ∃ record, compressBuffer (lz4CompressBytes dest destSize) compressBlockSize data = some record
      ∧ record.StandsFor compressBlockSize data := by
  obtain ⟨b, bytes, content⟩ := @lz4CompressBytes_block data destSize dest (Nat.le_trans short fits)
    (Nat.le_trans (LZ4_COMPRESSBOUND_mono short fits) large)
  have positive := List.length_pos_iff.mpr some_
  have token : 0 < b.bytes.length := by
    have last := length_closingBytes b.last
    rw [Lz4Block.bytes, List.length_append]
    omega
  have limit : LZ4_MAX_INPUT_SIZE = 0x7E000000 := rfl
  -- Whatever is kept is not longer than the data, so that the rounded size is allowed.
  have allowed : ∀ kept : Bytes, kept.length ≤ data.length →
      ¬ u32 (calcAliginSize (kept.length + LZ4_BUFFER_HEAD_SIZE))
        > LZ4_COMPRESSBOUND compressBlockSize + LZ4_BUFFER_HEAD_SIZE + ALGIN_SIZE_BYTE := by
    intro kept less
    have near := (calcAliginSize_bounds (kept.length + LZ4_BUFFER_HEAD_SIZE)).2
    have narrow : u32 (calcAliginSize (kept.length + LZ4_BUFFER_HEAD_SIZE))
        ≤ calcAliginSize (kept.length + LZ4_BUFFER_HEAD_SIZE) := Nat.mod_le _ _
    rw [LZ4_COMPRESSBOUND_eq fits]
    omega
  unfold compressBuffer
  dsimp only
  rw [bytes, if_neg (Nat.pos_iff_ne_zero.mp token)]
  by_cases larger : b.bytes.length > data.length
  · simp only [larger, if_true]
    rw [if_neg (allowed data (Nat.le_refl _))]
    exact ⟨_, rfl, some_, Nat.le_refl _, short, rfl, rfl, Or.inr rfl, fun dest' => by
      rw [decompressBuffer]
      simp only [ne_eq, Nat.pos_iff_ne_zero.mp positive, not_false_eq_true, if_true, List.take_length]
      rfl⟩
  · simp only [larger, if_false]
    rw [if_neg (allowed b.bytes (by omega))]
    have room : b.size ≤ compressBlockSize := by
      rw [← b.length_content, content]
      exact short
    refine ⟨_, rfl, List.length_pos_iff.mp token, by dsimp only; omega, short, rfl, rfl, Or.inl rfl, fun dest' => ?_⟩
    rw [decompressBuffer]
    have flag : UnitRecord.compressed ⟨COMPRESS_MAGIC, b.bytes.length,
        calcAliginSize (b.bytes.length + LZ4_BUFFER_HEAD_SIZE), b.bytes⟩ = true := rfl
    simp only [ne_eq, Nat.pos_iff_ne_zero.mp token, not_false_eq_true, if_true, List.take_length, flag]
    rw [lz4DecompressSafe_block b dest' room, content]
    dsimp only
    rw [if_neg (Nat.pos_iff_ne_zero.mp positive)]

/-! ### The file -/

/-- A unit takes its rounded size in the file. -/
theorem UnitRecord.length_written (record : UnitRecord) (stale : Image) :
    (record.written stale).length = record.align_lz4_size := by
  rw [UnitRecord.written, length_bytesAt]

/-- The fields of a head are in the buffer, and the data stands behind it. -/
theorem UnitRecord.inBuffer_spec (record : UnitRecord) (stale : Image) (flag : record.compress_flag < 2 ^ 32)
    (lz4_size : record.lz4_size < 2 ^ 32) (align_lz4_size : record.align_lz4_size < 2 ^ 32) :
    le32 (record.inBuffer stale) 0 = record.compress_flag
      ∧ le32 (record.inBuffer stale) 4 = record.lz4_size
      ∧ le32 (record.inBuffer stale) 8 = record.align_lz4_size
      ∧ ∀ a < record.data.length, record.inBuffer stale (LZ4_BUFFER_HEAD_SIZE + a) = record.data.getD a 0 := by
  have size : LZ4_BUFFER_HEAD_SIZE = 16 := rfl
  refine ⟨?_, ?_, ?_, fun a below => ?_⟩
  · rw [← @le32_put stale 0 record.compress_flag flag]
    refine le32_congr fun a below => ?_
    rw [UnitRecord.inBuffer, putBytes_other (by omega), put_other (by omega), put_other (by omega)]
  · rw [← @le32_put (put 4 stale 0 record.compress_flag) 4 record.lz4_size lz4_size]
    refine le32_congr fun a below => ?_
    rw [UnitRecord.inBuffer, putBytes_other (by omega), put_other (by omega)]
  · rw [← @le32_put (put 4 (put 4 stale 0 record.compress_flag) 4 record.lz4_size) 8 record.align_lz4_size
      align_lz4_size]
    refine le32_congr fun a below => ?_
    rw [UnitRecord.inBuffer, putBytes_other (by omega)]
  · rw [UnitRecord.inBuffer, putBytes, if_pos (by omega), Nat.add_sub_cancel_left]

/-- The file handle gives the bytes of a file. -/
def RecoverJob.Reads (j : RecoverJob) (file : Bytes) : Prop :=
  ∀ pos n, j.FileRead pos n = some (Overlay.window file pos n)

/-- Bytes of a buffer are those at one place and those behind them. -/
theorem bytesAt_add (m : Image) (start count more : Nat) :
    bytesAt m start (count + more) = bytesAt m start count ++ bytesAt m (start + count) more := by
  simp only [bytesAt, List.range_add, List.map_append, List.map_map, Function.comp_def, Nat.add_assoc]

/-- What was put into a buffer from elsewhere is read there as it was. -/
theorem putBytes_bytesAt {m m' : Image} {start count a : Nat} (below : a < count) :
    putBytes m 0 (bytesAt m' start count) a = m' (start + a) := by
  rw [putBytes, length_bytesAt, if_pos (by omega), bytesAt_getD (by omega), Nat.sub_zero]

/-- A unit that was written comes into the buffer, from where it is decompressed to its data. -/
theorem readUnit_written (reads : j.Reads file) (stands : record.StandsFor j.compressBlockSize data)
    (fits : j.compressBlockSize ≤ LZ4_MAX_INPUT_SIZE) (room : j.compressBlockSize ≤ j.totalsize)
    (lz4 : j.LZ4_decompress_safe = lz4DecompressSafe dest j.compressBlockSize)
    (below : s.currentdata < totaldatasize) (at_ : file.drop s.filepos = record.written stale ++ rest)
    (small : s.currentdata + record.align_lz4_size < 2 ^ 64) (buffer : RecoverBuffer) :
    ∃ buffer' head, j.readUnit totaldatasize buffer s
        = some (buffer', { s with
            filepos := s.filepos + record.align_lz4_size
            lz4_buffer_head := head
            currentdata := s.currentdata + record.align_lz4_size })
      ∧ j.decompress buffer' = some (data, data.length) := by
  have size : LZ4_BUFFER_HEAD_SIZE = 16 := rfl
  have page : ALGIN_SIZE_BYTE = 4096 := rfl
  have limit : LZ4_MAX_INPUT_SIZE = 0x7E000000 := rfl
  have short := Nat.le_trans stands.short stands.fits
  obtain ⟨least, most⟩ := calcAliginSize_bounds (record.data.length + LZ4_BUFFER_HEAD_SIZE)
  rw [← stands.align_lz4_size] at least most
  have narrow : record.compress_flag < 2 ^ 32 := by
    rcases stands.flag with flag | flag <;> rw [flag] <;> decide
  obtain ⟨flag, lz4_size, align, content⟩ := record.inBuffer_spec stale narrow
    (by rw [stands.lz4_size]; omega) (by omega)
  -- The head is read first, and then what the unit takes behind it.
  obtain ⟨behind, count⟩ : ∃ behind, record.align_lz4_size = LZ4_BUFFER_HEAD_SIZE + behind :=
    ⟨record.align_lz4_size - LZ4_BUFFER_HEAD_SIZE, by omega⟩
  have parts : file.drop s.filepos = bytesAt (record.inBuffer stale) 0 LZ4_BUFFER_HEAD_SIZE
      ++ (bytesAt (record.inBuffer stale) LZ4_BUFFER_HEAD_SIZE behind ++ rest) := by
    rw [at_, UnitRecord.written, count, bytesAt_add, Nat.zero_add, List.append_assoc]
  have first : Overlay.window file s.filepos LZ4_BUFFER_HEAD_SIZE
      = bytesAt (record.inBuffer stale) 0 LZ4_BUFFER_HEAD_SIZE := by
    rw [Overlay.window, parts, List.take_left' length_bytesAt]
  have second : Overlay.window file (s.filepos + LZ4_BUFFER_HEAD_SIZE) behind
      = bytesAt (record.inBuffer stale) LZ4_BUFFER_HEAD_SIZE behind := by
    rw [Overlay.window, ← List.drop_drop, parts, List.drop_left' length_bytesAt,
      List.take_left' length_bytesAt]
  have fields : ∀ i, i + 4 ≤ LZ4_BUFFER_HEAD_SIZE →
      le32 (putBytes s.lz4_buffer_head 0 (bytesAt (record.inBuffer stale) 0 LZ4_BUFFER_HEAD_SIZE)) i
        = le32 (record.inBuffer stale) i := fun i inside => le32_congr fun a less => by
    rw [putBytes_bytesAt (by omega), Nat.zero_add]
  have head : ∀ s' : RecoverState, s'.lz4_buffer_head
        = putBytes s.lz4_buffer_head 0 (bytesAt (record.inBuffer stale) 0 LZ4_BUFFER_HEAD_SIZE) →
      s'.head = { record with data := [] } := by
    intro s' same
    rw [RecoverState.head, same, fields 0 (by omega), fields 4 (by omega), fields 8 (by omega), flag, lz4_size,
      align]
  have readn : UnitRecord.readn { record with data := [] } = behind := by
    rw [UnitRecord.readn, sub64_eq (by dsimp only; omega) (by dsimp only; omega)]
    dsimp only
    omega
  have accepted : UnitRecord.accepted j.compressBlockSize { record with data := [] } = true := by
    rw [UnitRecord.accepted, readn, u32_eq (by omega), Bool.and_eq_true, decide_eq_true_eq]
    refine ⟨?_, by omega⟩
    rcases stands.flag with own | own <;>
      rw [UnitRecord.compressed, UnitRecord.uncompressed] <;> dsimp only <;> rw [own] <;> rfl
  refine ⟨{ ifcompressed := record.compressed
            pointer := putBytes buffer.pointer 0 (bytesAt (record.inBuffer stale) LZ4_BUFFER_HEAD_SIZE behind)
            usedsize := record.lz4_size },
    putBytes s.lz4_buffer_head 0 (bytesAt (record.inBuffer stale) 0 LZ4_BUFFER_HEAD_SIZE), ?_, ?_⟩
  · have some_ : bytesAt (record.inBuffer stale) 0 LZ4_BUFFER_HEAD_SIZE ≠ [] := by
      refine List.length_pos_iff.mp ?_
      rw [length_bytesAt]
      decide
    rw [RecoverJob.readUnit, if_pos below, reads, first]
    dsimp only
    rw [if_neg some_, RecoverJob.readData, head _ rfl]
    rw [if_pos ⟨accepted, by dsimp only; rw [stands.lz4_size]; omega⟩, readn, reads]
    dsimp only
    rw [length_bytesAt, second, length_bytesAt, if_pos rfl, u64_eq small, count, Nat.add_assoc]
    rfl
  · -- The data is in front of what was read behind the head.
    have front : bytesAt (putBytes buffer.pointer 0 (bytesAt (record.inBuffer stale) LZ4_BUFFER_HEAD_SIZE behind))
        0 record.lz4_size = record.data := by
      rw [stands.lz4_size]
      refine List.ext_getElem length_bytesAt fun a below below' => ?_
      rw [length_bytesAt] at below
      have byte := content a below
      rw [List.getD_eq_getElem _ _ below'] at byte
      rw [← byte]
      simp only [bytesAt, List.getElem_map, List.getElem_range, Nat.zero_add]
      exact putBytes_bytesAt (by omega)
    have opens := stands.opens dest
    rw [RecoverJob.decompress, lz4]
    dsimp only
    rw [front, stands.lz4_size]
    exact opens

end Okr
