import PgCluster.Foundation.Filters
import PgCluster.Foundation.BasicRegex
import PgCluster.Foundation.TextTools
import PgCluster.Foundation.Directory
import PgCluster.Foundation.TransitionSystem
import PgCluster.Foundation.WorkerPool
import PgCluster.Foundation.LinearPlay
import PgCluster.Foundation.Majority
import PgCluster.Foundation.Selections
import PgCluster.Foundation.Machine
import PgCluster.Foundation.Threads
import PgCluster.Foundation.OrderedDict
import PgCluster.Foundation.RowLocks
import PgCluster.Foundation.RoundRobin
import PgCluster.Foundation.Divisions
import PgCluster.Foundation.TextTables
import PgCluster.Foundation.TextSearch
import PgCluster.Foundation.Numerals
import PgCluster.Foundation.BlockYaml
import PgCluster.Foundation.IpAddress
import PgCluster.Foundation.BigEndian
import PgCluster.Foundation.Objects
import PgCluster.Foundation.MessageStream
import PgCluster.Foundation.MemoryFile
import PgCluster.Foundation.ChunkList
import PgCluster.Foundation.BinaryFields
import PgCluster.Foundation.SizedStream
import PgCluster.Inventory
import PgCluster.MajorVersion
import PgCluster.Etcd.Variables
import PgCluster.Etcd.Members
import PgCluster.Etcd.MembershipPlan
import PgCluster.Etcd.MemberRemoval
import PgCluster.Etcd.Convergence
import PgCluster.Etcd.Configuration
import PgCluster.Etcd.Idempotence
import PgCluster.Etcd.ClusterDiscovery
import PgCluster.Etcd.PeerAddresses
import PgCluster.Etcd.Restarts
import PgCluster.Patroni.Naming
import PgCluster.Patroni.Upgrade
import PgCluster.Patroni.Handover
import PgCluster.Patroni.NewLeader
import PgCluster.Patroni.BootstrapScript
import PgCluster.Patroni.BootstrapConfiguration
import PgCluster.Patroni.PasswordEncryption
import PgCluster.Pgbouncer.AuthType
import PgCluster.Keepalived.LeaderCheck
import PgCluster.Certificates.Role
import PgCluster.Certificates.Repair
import PgCluster.Certificates.AltNames
import PgCluster.Backend.Handlers
import PgCluster.Backend.Worker
import PgCluster.Backend.ClusterTest
import PgCluster.Backend.OperationCount
import PgCluster.Backend.Attempts
import PgCluster.Backend.Transfers
import PgCluster.Backend.Validation
import PgCluster.Backend.Survival
import PgCluster.Backend.StopRequest
import PgCluster.Backend.Registry
import PgCluster.Backend.ClusterSpecific
import PgCluster.Backend.HostRotation
import PgCluster.Backend.Logger
import PgCluster.Backend.SignalHandler
import PgCluster.Backend.Supervision
import PgCluster.Backend.SignalContexts
import PgCluster.Backend.FileLock
import PgCluster.Backend.Wildcards
import PgCluster.Backend.ConfValues
import PgCluster.Postgresql.MessageBuffer
import PgCluster.Postgresql.OptimizedBuffer
import PgCluster.Postgresql.ServerElements
import PgCluster.Postgresql.ClientElements
import PgCluster.Postgresql.Elements
import PgCluster.Postgresql.OptimizedElements
import PgCluster.Postgresql.Instructions
import PgCluster.Postgresql.InstructionRuns
import PgCluster.Postgresql.InstructionSafety
import PgCluster.Postgresql.Conversations
import PgCluster.Postgresql.CopyWire
import PgCluster.Postgresql.CopyProducer
import PgCluster.Postgresql.CopyManager
import PgCluster.Postgresql.CopyTransfer
import PgCluster.Postgresql.Transactions
import PgCluster.Postgresql.Connections
import PgCluster.Postgresql.Sessions
