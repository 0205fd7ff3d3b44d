import BlkdevSnapshot.Machine
import BlkdevSnapshot.RestoreScan
import BlkdevSnapshot.CachedLog
import BlkdevSnapshot.BlockImage
import BlkdevSnapshot.EndToEnd
import BlkdevSnapshot.FailedWrites
import BlkdevSnapshot.RestoreTorn
import BlkdevSnapshot.Originals
import BlkdevSnapshot.CivilDate
import BlkdevSnapshot.MountDate
import BlkdevSnapshot.Epoch
import BlkdevSnapshot.MountProbes
import BlkdevSnapshot.MountBalance
import BlkdevSnapshot.MountRoutes
import BlkdevSnapshot.EpochLifetime
import BlkdevSnapshot.SnapshotDirs
import BlkdevSnapshot.SnapshotQueue
import BlkdevSnapshot.Activation
import BlkdevSnapshot.LoopKeys
import BlkdevSnapshot.ModuleInit
import BlkdevSnapshot.PartialWalk
import BlkdevSnapshot.ReadersAgree
import BlkdevSnapshot.ReadersEnd
import BlkdevSnapshot.Restorable
import BlkdevSnapshot.CaptureTable
import BlkdevSnapshot.EpochDestruction
import BlkdevSnapshot.QueueClosing
import BlkdevSnapshot.CacheHits
import BlkdevSnapshot.LruHistory
import BlkdevSnapshot.ConcurrentRegistry
import BlkdevSnapshot.HandlerFaults
import BlkdevSnapshot.LoadedModule
import BlkdevSnapshot.ModuleExit
import BlkdevSnapshot.Registration
import BlkdevSnapshot.RestoreInPlace
import BlkdevSnapshot.SnapshotHandles
import BlkdevSnapshot.SnapshotResources
import BlkdevSnapshot.SweepWindows
import BlkdevSnapshot.ActivationIoctl
import BlkdevSnapshot.ActivationTool
import BlkdevSnapshot.Prompts
import BlkdevSnapshot.RepeatedRecords
import BlkdevSnapshot.TruncatedLog
import BlkdevSnapshot.AnsweringMachine
import BlkdevSnapshot.BoundedFile
import BlkdevSnapshot.MakeSingleFileFs
import BlkdevSnapshot.SingleFileProbes
import BlkdevSnapshot.WriteTool
import BlkdevSnapshot.ActivatedDisks
import BlkdevSnapshot.ActivationMain
import BlkdevSnapshot.PointInTime
import BlkdevSnapshot.QueueFlush
import BlkdevSnapshot.RestoreMain
