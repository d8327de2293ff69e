import FlatpakDart.SerialQueue
import FlatpakDart.FlatpakTypes
import FlatpakDart.FlatpakPost
import FlatpakDart.GlazeCodec
import FlatpakDart.WireAgreement
import FlatpakDart.TransactionResult
import FlatpakDart.RemoteManager
import FlatpakDart.CatalogHistory
import FlatpakDart.CatalogBuild
import FlatpakDart.CatalogRace
import FlatpakDart.CatalogFailure
import FlatpakDart.CatalogHandles
import FlatpakDart.CatalogOwnership
import FlatpakDart.IconRanking
import FlatpakDart.InstanceSignal
import FlatpakDart.StartTime
import FlatpakDart.ReaperLoop
import FlatpakDart.LaunchTarget
import FlatpakDart.ExtensionResolution
import FlatpakDart.PromptClose
import FlatpakDart.PermissionPortal
import FlatpakDart.PermissionCalls
import FlatpakDart.RemoteConfigGuard
import FlatpakDart.RemoteRemove
import FlatpakDart.RemoteHistory
import FlatpakDart.OperationContract
import FlatpakDart.ChildPid
import FlatpakDart.UpdateMonitor
import FlatpakDart.NativeHandles
import FlatpakDart.LaunchQueue
import FlatpakDart.ComponentDetails
import FlatpakDart.ArchPolicy
import FlatpakDart.ArchSupportCache
import FlatpakDart.PathHash
import FlatpakDart.TransactionCurrent
import FlatpakDart.TransactionOverlap
import FlatpakDart.StderrCapture
import FlatpakDart.TransactionStream
import FlatpakDart.ReaderBounds
import FlatpakDart.CodecBounds
import FlatpakDart.SocketReaders
import FlatpakDart.CacheDirectory
import FlatpakDart.KernelArches
import FlatpakDart.Dependencies
import FlatpakDart.StopVerdict
import FlatpakDart.Delegation
