import RsqliteRsync.Foundation.Fallible
import RsqliteRsync.Foundation.Schedule
import RsqliteRsync.Foundation.Process
import RsqliteRsync.Foundation.Script
import RsqliteRsync.Foundation.HalfDuplex
import RsqliteRsync.Foundation.Conduct
import RsqliteRsync.Foundation.Breakdown
import RsqliteRsync.Foundation.Interference
import RsqliteRsync.Foundation.Chunks
import RsqliteRsync.Foundation.PagedFile
import RsqliteRsync.Foundation.Packing
import RsqliteRsync.Foundation.Stream
import RsqliteRsync.Foundation.Wire
import RsqliteRsync.Foundation.LeaseRegister
import RsqliteRsync.Foundation.Transaction
import RsqliteRsync.Foundation.UnixPath
import RsqliteRsync.Foundation.FileTree
import RsqliteRsync.Foundation.Directory
import RsqliteRsync.Foundation.Splitting
import RsqliteRsync.Foundation.WorkPool
import RsqliteRsync.Foundation.MachineInt
import RsqliteRsync.Foundation.Digits
import RsqliteRsync.Foundation.IpText
import RsqliteRsync.Foundation.Csv
import RsqliteRsync.Protocol.Messages
import RsqliteRsync.Protocol.Script
import RsqliteRsync.Protocol.Hash
import RsqliteRsync.Db.Connection
import RsqliteRsync.Db.Snapshot
import RsqliteRsync.Db.Wal
import RsqliteRsync.Protocol.Origin
import RsqliteRsync.Protocol.Replica
import RsqliteRsync.Protocol.Difference
import RsqliteRsync.Protocol.OriginSpec
import RsqliteRsync.Protocol.ReplicaSpec
import RsqliteRsync.Protocol.Session
import RsqliteRsync.Protocol.SentPages
import RsqliteRsync.Protocol.Panics
import RsqliteRsync.Protocol.Convergence
import RsqliteRsync.Protocol.Exactness
import RsqliteRsync.Protocol.Progress
import RsqliteRsync.Protocol.FailedWrite
import RsqliteRsync.Protocol.Acknowledged
import RsqliteRsync.Protocol.LiveSync
import RsqliteRsync.Protocol.WalReplica
import RsqliteRsync.Protocol.EmptyReplica
import RsqliteRsync.Protocol.ReplicaScript
import RsqliteRsync.Protocol.ReplicaOutcome
import RsqliteRsync.Protocol.ReplicaPages
import RsqliteRsync.Transport.Framing
import RsqliteRsync.Transport.RoundTrip
import RsqliteRsync.Transport.Grpc
import RsqliteRsync.Protocol.OriginScript
import RsqliteRsync.Protocol.OriginOutcome
import RsqliteRsync.Protocol.Turns
import RsqliteRsync.Transport.WiredSession
import RsqliteRsync.Protocol.Tuning
import RsqliteRsync.Protocol.GroupRanges
import RsqliteRsync.Ha.Policy
import RsqliteRsync.Ha.Runtime
import RsqliteRsync.Ha.Executor
import RsqliteRsync.Ha.Loop
import RsqliteRsync.Ha.LoopSpec
import RsqliteRsync.Ha.Fence
import RsqliteRsync.Ha.Publication
import RsqliteRsync.Ha.Member
import RsqliteRsync.Ha.Cluster
import RsqliteRsync.Ha.Tenure
import RsqliteRsync.Ha.Generations
import RsqliteRsync.Gateway.Status
import RsqliteRsync.Gateway.Access
import RsqliteRsync.Gateway.Server
import RsqliteRsync.Gateway.Admission
import RsqliteRsync.Gateway.Exclusion
import RsqliteRsync.Gateway.Paths
import RsqliteRsync.Gateway.Aliases
import RsqliteRsync.Gateway.Drop
import RsqliteRsync.Gateway.Listing
import RsqliteRsync.Ha.KvText
import RsqliteRsync.Ha.LeaseFile
import RsqliteRsync.Ha.KvFormat
import RsqliteRsync.Sql.Statement
import RsqliteRsync.Gateway.Query
import RsqliteRsync.Gateway.Batch
import RsqliteRsync.Gateway.Execute
import RsqliteRsync.Gateway.Handlers
import RsqliteRsync.Gateway.Auth
import RsqliteRsync.Gateway.Stamp
import RsqliteRsync.Gateway.BatchSpec
import RsqliteRsync.Gateway.BatchAtomicity
import RsqliteRsync.Client.Client
import RsqliteRsync.Client.Retry
import RsqliteRsync.Client.Failover
import RsqliteRsync.Client.Sessions
import RsqliteRsync.Client.Backends
import RsqliteRsync.Client.Discovery
import RsqliteRsync.Cli.SplitSql
import RsqliteRsync.Cli.BatchRunner
import RsqliteRsync.Cli.RetryDelay
import RsqliteRsync.Cli.Values
import RsqliteRsync.Cli.Delimited
import RsqliteRsync.Endpoint
import RsqliteRsync.Cli.BatchMode
