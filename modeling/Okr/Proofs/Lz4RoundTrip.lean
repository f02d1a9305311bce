import Okr.Backup.UnitsOfDisk
import Okr.Proofs.Lz4Compress
import Okr.Restore.AsyncRestore

/-! What is compressed for the image file comes out again, as a whole and unit by unit. -/

namespace Okr

variable {source data : Bytes} {dest dest' memory memory' : Image} {destSize maxOutputSize blockSize : Nat}

/-- The promised size is the bound of the compression. -/
theorem LZ4_COMPRESSBOUND_eq {isize : Nat} (fits : isize ≤ LZ4_MAX_INPUT_SIZE) :
    LZ4_COMPRESSBOUND isize = isize + isize / 255 + 16 :=
  if_neg (Nat.not_lt.mpr fits)

/-- In memory of the promised size the compression succeeds, and changes nothing behind its output. -/
theorem lz4Compress_bounded (fits : source.length ≤ LZ4_MAX_INPUT_SIZE)
    (large : LZ4_COMPRESSBOUND source.length ≤ destSize) :
    ∃ n dest', lz4Compress source destSize dest = some (n, dest') ∧ 0 < n
      ∧ n ≤ LZ4_COMPRESSBOUND source.length ∧ SameBehind n dest dest' := by
  rw [LZ4_COMPRESSBOUND_eq fits] at large ⊢
  obtain ⟨b, dest', result, -, -, same, bounded⟩ := @lz4Compress_compressed source dest destSize fits large
  refine ⟨_, dest', result, ?_, bounded, same⟩
  have token := length_closingBytes b.last
  rw [Lz4Block.bytes, List.length_append]
  omega

/-- The compression of three bytes. -/
theorem lz4Compress_bounded_three : ∃ n dest', lz4Compress [1, 2, 3] 19 (fun _ => 9) = some (n, dest') ∧ 0 < n
    ∧ n ≤ LZ4_COMPRESSBOUND 3 ∧ SameBehind n (fun _ => 9) dest' :=
  @lz4Compress_bounded [1, 2, 3] _ _ (by decide) (by decide)

/-- What the compression leaves is a block of its input. -/
theorem lz4CompressBytes_block (dest : Image) (fits : source.length ≤ LZ4_MAX_INPUT_SIZE)
    (large : LZ4_COMPRESSBOUND source.length ≤ destSize) :
    ∃ b : Lz4Block, lz4CompressBytes dest destSize source = b.bytes ∧ b.content = source := by
  rw [LZ4_COMPRESSBOUND_eq fits] at large
  obtain ⟨b, dest', result, content, shows_, -, -⟩ := @lz4Compress_compressed source dest destSize fits large
  refine ⟨b, ?_, content⟩
  rw [lz4CompressBytes, result]
  exact shows_.bytesAt_eq

/-- Decompressing gives back what was compressed, into any memory that has room for it. -/
theorem lz4_roundTrip (dest dest' : Image) (fits : source.length ≤ LZ4_MAX_INPUT_SIZE)
    (large : LZ4_COMPRESSBOUND source.length ≤ destSize) (room : source.length ≤ maxOutputSize) :
    lz4DecompressSafe dest' maxOutputSize (lz4CompressBytes dest destSize source) = some source := by
  obtain ⟨b, bytes, content⟩ := lz4CompressBytes_block dest fits large
  rw [bytes, lz4DecompressSafe_block b dest' (by rw [← b.length_content, content]; exact room), content]

/-- The round trip of three bytes. -/
theorem lz4_roundTrip_three : lz4DecompressSafe (fun _ => 7) 3 (lz4CompressBytes (fun _ => 9) 19 [1, 2, 3])
    = some [1, 2, 3] :=
  @lz4_roundTrip [1, 2, 3] _ _ _ _ (by decide) (by decide) (by decide)

end Okr
