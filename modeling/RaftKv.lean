import RaftKv.Cluster.Cluster
import RaftKv.Cluster.LogChecks
import RaftKv.Cluster.LogMatching
import RaftKv.Cluster.PreVotes
import RaftKv.Cluster.Reads
import RaftKv.Cluster.Safety
import RaftKv.Cluster.Startup
import RaftKv.Core.FramedStream
import RaftKv.Core.Glob
import RaftKv.Core.IdMap
import RaftKv.Core.IncrementalParser
import RaftKv.Core.MsgPack
import RaftKv.Core.OrderedMap
import RaftKv.Core.Outcome
import RaftKv.Core.RecordLog
import RaftKv.Core.Resp
import RaftKv.Core.Run
import RaftKv.Driver.Campaigns
import RaftKv.Driver.Candidacies
import RaftKv.Driver.ConfChanges
import RaftKv.Driver.Driver
import RaftKv.Driver.HandedOut
import RaftKv.Driver.LogMoves
import RaftKv.Driver.Membership
import RaftKv.Driver.Monotone
import RaftKv.Driver.PendingReady
import RaftKv.Driver.Proposals
import RaftKv.Driver.Quota
import RaftKv.Driver.ReadyFlags
import RaftKv.Driver.Requests
import RaftKv.Leader.CheckQuorum
import RaftKv.Leader.Commit
import RaftKv.Leader.Drain
import RaftKv.Leader.Office
import RaftKv.Leader.Peers
import RaftKv.Leader.PendingReads
import RaftKv.Leader.ReadQueue
import RaftKv.Leader.ReadQuorum
import RaftKv.Leader.ReadRound
import RaftKv.Leader.ReadRoutes
import RaftKv.Leader.Tracking
import RaftKv.Leader.Work
import RaftKv.Raft.Bootstrap
import RaftKv.Raft.Calls
import RaftKv.Raft.Candidacies
import RaftKv.Raft.Config
import RaftKv.Raft.Deeds
import RaftKv.Raft.Effects
import RaftKv.Raft.InFlights
import RaftKv.Raft.Inversion
import RaftKv.Raft.LogChecks
import RaftKv.Raft.LogRefinement
import RaftKv.Raft.LogicalLog
import RaftKv.Raft.Lookups
import RaftKv.Raft.MaybeAppend
import RaftKv.Raft.Membership
import RaftKv.Raft.Node
import RaftKv.Raft.Origins
import RaftKv.Raft.Outbox
import RaftKv.Raft.Progress
import RaftKv.Raft.Proto
import RaftKv.Raft.Raft
import RaftKv.Raft.RaftLog
import RaftKv.Raft.ReadOnly
import RaftKv.Raft.Restore
import RaftKv.Raft.Rising
import RaftKv.Raft.SnapshotHandshake
import RaftKv.Raft.SnapshotSends
import RaftKv.Raft.Storage
import RaftKv.Raft.StoredLog
import RaftKv.Raft.Unstable
import RaftKv.Replication.Invariant
import RaftKv.Replication.Majority
import RaftKv.Replication.Preservation
import RaftKv.Replication.World
import RaftKv.Safety.Election
import RaftKv.Safety.Leader
import RaftKv.Safety.LogChecks
import RaftKv.Safety.Simulation
import RaftKv.Safety.Step
import RaftKv.Safety.UncompactedLog
import RaftKv.Server.ByteBuffer
import RaftKv.Server.Commands
import RaftKv.Server.Compaction
import RaftKv.Server.CrashPoints
import RaftKv.Server.CrashRuns
import RaftKv.Server.CrashWindow
import RaftKv.Server.Durable
import RaftKv.Server.HandleRead
import RaftKv.Server.Incarnations
import RaftKv.Server.Numbering
import RaftKv.Server.PatternReads
import RaftKv.Server.Patterns
import RaftKv.Server.Process
import RaftKv.Server.Publish
import RaftKv.Server.PullReady
import RaftKv.Server.RaftNode
import RaftKv.Server.Recovery
import RaftKv.Server.RedisStore
import RaftKv.Server.Replies
import RaftKv.Server.ReplyOrder
import RaftKv.Server.Restart
import RaftKv.Server.RocksDB
import RaftKv.Server.Rounds
import RaftKv.Server.SnapshotData
import RaftKv.Server.Snapshotter
import RaftKv.Server.StringMatch
import RaftKv.Service.Acknowledged
import RaftKv.Service.Agreement
import RaftKv.Service.Deployment
import RaftKv.Service.Once
import RaftKv.Service.Requests
import RaftKv.Service.Rounds
import RaftKv.Service.Service
import RaftKv.Service.Stores
import RaftKv.Transport.Link
import RaftKv.Transport.Message
import RaftKv.Transport.Session
import RaftKv.Transport.Transport
import RaftKv.Wal.Append
import RaftKv.Wal.Calls
import RaftKv.Wal.Framing
import RaftKv.Wal.Gapless
import RaftKv.Wal.Names
import RaftKv.Wal.Open
import RaftKv.Wal.Reading
import RaftKv.Wal.Replay
import RaftKv.Wal.Torn
import RaftKv.Wal.Wal
