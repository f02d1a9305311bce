import Okr.Backup.AsyncBackup
import Okr.Backup.BufferArray
import Okr.Backup.Cleanup
import Okr.Backup.Location
import Okr.Backup.Progress
import Okr.Backup.SyncBackup
import Okr.Backup.UnitsOfDisk
import Okr.Backup.UnusedList
import Okr.Base.Memory
import Okr.Base.SmartDiskIo
import Okr.Clock.Time
import Okr.Discovery.ExtendedTree
import Okr.Discovery.Partitions
import Okr.File.Delete
import Okr.File.Segments
import Okr.File.Split
import Okr.File.Stream
import Okr.Images.CheckAll
import Okr.Images.FindAll
import Okr.Images.ImageFile
import Okr.Images.NameList
import Okr.Images.PreAutoBackup
import Okr.Images.SegmentFiles
import Okr.Lib.BufferRing
import Okr.Lib.Chunks
import Okr.Lib.Compact
import Okr.Lib.ExchangeSort
import Okr.Lib.Loop
import Okr.Lib.Lz77
import Okr.Lib.Runs
import Okr.Lib.Slots
import Okr.Lib.Split
import Okr.Lib.Strings
import Okr.Lz4.Compress
import Okr.Lz4.Decompress
import Okr.Lz4.Format
import Okr.Model.Probe
import Okr.NewDisk.Gpt
import Okr.NewDisk.Rewrite
import Okr.Proofs.AsyncFailsClosed
import Okr.Proofs.AsyncHandOver
import Okr.Proofs.AsyncPartition
import Okr.Proofs.AsyncPlan
import Okr.Proofs.AsyncRing
import Okr.Proofs.AsyncSteps
import Okr.Proofs.BackupAgrees
import Okr.Proofs.BackupPartition
import Okr.Proofs.BackupPlan
import Okr.Proofs.BackupReads
import Okr.Proofs.BackupRequests
import Okr.Proofs.BackupRing
import Okr.Proofs.BackupSteps
import Okr.Proofs.BackupWrites
import Okr.Proofs.Bitmap
import Okr.Proofs.BootArea
import Okr.Proofs.BufferArray
import Okr.Proofs.Calendar
import Okr.Proofs.CheckAll
import Okr.Proofs.CheckValue
import Okr.Proofs.CleanRead
import Okr.Proofs.Cleanup
import Okr.Proofs.Delete
import Okr.Proofs.Directory
import Okr.Proofs.Discovery
import Okr.Proofs.DiskPolicy
import Okr.Proofs.ExclusionList
import Okr.Proofs.ExclusionWalk
import Okr.Proofs.ExtendedTree
import Okr.Proofs.FatExtents
import Okr.Proofs.FileRead
import Okr.Proofs.FindAll
import Okr.Proofs.GptCopies
import Okr.Proofs.GptTable
import Okr.Proofs.Handle
import Okr.Proofs.HandleFrame
import Okr.Proofs.HashFailure
import Okr.Proofs.HeaderLayout
import Okr.Proofs.ImageOrder
import Okr.Proofs.LargeDigest
import Okr.Proofs.LayoutState
import Okr.Proofs.LegacyBoot
import Okr.Proofs.LinuxDestination
import Okr.Proofs.Location
import Okr.Proofs.Lz4Compress
import Okr.Proofs.Lz4Copy
import Okr.Proofs.Lz4Decompress
import Okr.Proofs.Lz4Match
import Okr.Proofs.Lz4RoundTrip
import Okr.Proofs.MappingPairs
import Okr.Proofs.MbrRewrite
import Okr.Proofs.NameList
import Okr.Proofs.NewHdd
import Okr.Proofs.NewHddBounds
import Okr.Proofs.NoData
import Okr.Proofs.NumericSteps
import Okr.Proofs.OneStream
import Okr.Proofs.PreAutoBackup
import Okr.Proofs.Probe
import Okr.Proofs.Progress
import Okr.Proofs.RecordWalk
import Okr.Proofs.RestoreCells
import Okr.Proofs.RestoreRoundTrip
import Okr.Proofs.RestoreRounds
import Okr.Proofs.RestoreUnit
import Okr.Proofs.RestoreWrites
import Okr.Proofs.RightRecord
import Okr.Proofs.ScanFat
import Okr.Proofs.ScanLoop
import Okr.Proofs.SegFileRead
import Okr.Proofs.Segments
import Okr.Proofs.SerialSlots
import Okr.Proofs.Serials
import Okr.Proofs.SmallDisk
import Okr.Proofs.SmartDiskIo
import Okr.Proofs.SplitRead
import Okr.Proofs.SplitWrite
import Okr.Proofs.SyncBackup
import Okr.Proofs.TableOrder
import Okr.Proofs.TableStep
import Okr.Proofs.TickCount
import Okr.Proofs.UnitRoundTrip
import Okr.Proofs.UnusedList
import Okr.Proofs.Validate
import Okr.Proofs.VolumeDirty
import Okr.Proofs.WholeDigest
import Okr.Proofs.WholeRead
import Okr.Proofs.WinRERoom
import Okr.Restore.AsyncRestore
import Okr.Restore.BootArea
import Okr.Restore.DiskPolicy
import Okr.Restore.LegacyBoot
import Okr.Restore.LinuxDestination
import Okr.Restore.SerialSlots
import Okr.Restore.SyncRestore
import Okr.Restore.TableStep
import Okr.Restore.VolumeDirty
import Okr.Scan.Bitmap
import Okr.Scan.Directory
import Okr.Scan.ExclusionList
import Okr.Scan.FatExtents
import Okr.Scan.FatVolume
import Okr.Scan.MappingPairs
import Okr.Scan.Ntfs
import Okr.Scan.PartitionType
