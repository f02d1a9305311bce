import Okr.Backup.UnitsOfDisk

/-! The bytes of an image file behind its header: bitmaps, and units with their heads. -/

namespace Okr

/--
`g_lz4_buffer` behind `CompressBuffer`.

The reserved bytes of the head and those behind the data are what the buffer held before.
-/
def UnitRecord.inBuffer (record : UnitRecord) (g_lz4_buffer : Image) : Image :=
  let flagged := put 4 g_lz4_buffer 0 record.compress_flag
  putBytes (put 4 (put 4 flagged 4 record.lz4_size) 8 record.align_lz4_size) LZ4_BUFFER_HEAD_SIZE record.data

/-- The bytes a unit takes in the file: those of the buffer up to the rounded size. -/
def UnitRecord.written (record : UnitRecord) (g_lz4_buffer : Image) : Bytes :=
  bytesAt (record.inBuffer g_lz4_buffer) 0 record.align_lz4_size

/-- What `FileWrite` is given for an item. -/
def FileItem.written (g_lz4_buffer : Image) : FileItem → Bytes
  | .bitmap bytes => bytes
  | .unit record => record.written g_lz4_buffer

/-- The bytes of items one after the other; `before` is what the buffer held before each of them. -/
def itemsWritten (before : Nat → Image) : Nat → List FileItem → Bytes
  | _, [] => []
  | i, item :: items => item.written (before i) ++ itemsWritten before (i + 1) items

/-- The header's entries of the partitions, with the sizes a backup sets in them. -/
def BackupImage.header (image : BackupImage) (partitions : List PartitionInfo) : List PartitionInfo :=
  partitions.mapIdx fun i p =>
    match image.backupDataSize.lookup i with
    | some size => { p with backupDataSize := size }
    | none => p

end Okr
