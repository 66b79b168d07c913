import NodeComponents.Lib.Heights
import NodeComponents.Lib.Growth
import NodeComponents.HostRpc.Notifier
import NodeComponents.HostRpc.Outcomes
import NodeComponents.HostRpc.View
import NodeComponents.HostRpc.Delivery
import NodeComponents.HostRpc.Segments
import NodeComponents.HostRpc.Recorded
import NodeComponents.HostRpc.Retry
import NodeComponents.HostRpc.Errors
import NodeComponents.HostReth.Backfill
import NodeComponents.HostReth.Notifier
import NodeComponents.HostReth.Anchor
import NodeComponents.HostReth.Handover
import NodeComponents.Node.Storage
import NodeComponents.Node.Commit
import NodeComponents.Node.Events
import NodeComponents.Node.Recovery
import NodeComponents.Node.Tagged
import NodeComponents.Node.HostChain
import NodeComponents.Node.System
import NodeComponents.Node.Effects
import NodeComponents.Node.LatestTag
import NodeComponents.Node.Finished
import NodeComponents.Rpc.Filters
import NodeComponents.Rpc.Replay
import NodeComponents.Rpc.PollCursor
import NodeComponents.Rpc.FailedPoll
import NodeComponents.Rpc.TagWrites
import NodeComponents.Rpc.SubscriptionReplay
import NodeComponents.Blobber.Blobs
import NodeComponents.Blobber.FirstAnswer
import NodeComponents.HostRpc.ForkPoint
import NodeComponents.Node.Revert
import NodeComponents.Rpc.FeeHistory
import NodeComponents.HostRpc.DrainHandover
import NodeComponents.Rpc.PollCalls
import NodeComponents.Rpc.Snapshots
import NodeComponents.Rpc.ColdLag
import NodeComponents.Rpc.ConcurrentPolls
import NodeComponents.Rpc.ReorgRing
import NodeComponents.Rpc.Retraction
import NodeComponents.Rpc.Tracing
import NodeComponents.Rpc.TraceAgreement
import NodeComponents.Lib.Word
import NodeComponents.HostRpc.Builder
import NodeComponents.Lib.Fallible
import NodeComponents.Node.BackfillWindows
import NodeComponents.Rpc.FeeRequest
import NodeComponents.Rpc.Helpers
import NodeComponents.Lib.Ranked
import NodeComponents.Rpc.GasOracle
import NodeComponents.Rpc.GasOracleRuns
import NodeComponents.Rpc.GasOracleCache
import NodeComponents.HostRpc.Latest
import NodeComponents.Blobber.Handle
import NodeComponents.Rpc.SubscriptionManager
import NodeComponents.Node.PollingClient
import NodeComponents.Node.Subscribers
import NodeComponents.Blobber.Concurrent
import NodeComponents.BlockProcessor.Alias
import NodeComponents.BlockProcessor.Processor
import NodeComponents.Node.Agreement
import NodeComponents.Rpc.ManagedFilters
import NodeComponents.Rpc.FilterLeases
import NodeComponents.Rpc.BlockQueries
import NodeComponents.Rpc.QuerySnapshots
import NodeComponents.Rpc.TraceFilter
import NodeComponents.Node.Finality
import NodeComponents.Node.FinalHost
