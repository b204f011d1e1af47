import Verglas.Consensus.Refusal
import Verglas.Consensus.Fencing
import Verglas.Consensus.Persistence
import Verglas.Consensus.LeaseRetry
import Verglas.Consensus.Attempts
import Verglas.Cache.DamagedFragments
import Verglas.Cache.Flights
import Verglas.Cache.MetaFence
import Verglas.Cache.EntryKeys
import Verglas.Cache.Admission
import Verglas.CacheNode.Replacement
import Verglas.CacheNode.SpaceBroker
import Verglas.Safekeeper.SpawnArchive
import Verglas.Safekeeper.Drain
import Verglas.Writeback.RangeReads
import Verglas.Writeback.QuorumAck
import Verglas.Writeback.Repair
import Verglas.Writeback.Propagation
import Verglas.Writeback.Barrier
import Verglas.Backend.Resilience
import Verglas.S3.StreamedPut
import Verglas.Cache.Materialized
import Verglas.Tables.Mapper
import Verglas.Tables.Lifecycle
import Verglas.S3.Semantic
import Verglas.S3.VectorBuckets
import Verglas.Graph.Nodes
import Verglas.Vectors.Attachment
import Verglas.Tables.Prefetch
import Verglas.Core.Activity
import Verglas.Core.Glob
import Verglas.Kv.Capacity
import Verglas.Cluster.Ring
import Verglas.Iceberg.Compaction
import Verglas.Cluster.LocalStore
import Verglas.Safekeeper.WalProtocol
