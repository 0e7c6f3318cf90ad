import GraphRec.Lib.Transition
import GraphRec.Lib.Text
import GraphRec.Lib.Csv
import GraphRec.Lib.Table
import GraphRec.Training.Job
import GraphRec.Training.System
import GraphRec.Training.Steps
import GraphRec.Training.Lifecycle
import GraphRec.Training.Queue
import GraphRec.Training.Artifacts
import GraphRec.Registry.Version
import GraphRec.Registry.System
import GraphRec.Registry.Invariant
import GraphRec.Registry.Rollback
import GraphRec.Lib.Frontier
import GraphRec.Lib.Grouping
import GraphRec.Dgsr.Data
import GraphRec.Dgsr.Graph
import GraphRec.Dgsr.Leakage
import GraphRec.Dgsr.Serving
import GraphRec.Dgsr.VirtualRoot
import GraphRec.Dgsr.Positions
import GraphRec.Serving.Ranking
import GraphRec.Serving.Rules
import GraphRec.Serving.Cache
import GraphRec.Serving.Query
import GraphRec.Serving.Pipeline
import GraphRec.Serving.Safety
import GraphRec.Auth.Account
import GraphRec.Auth.System
import GraphRec.Auth.Invariant
import GraphRec.Auth.Revocation
import GraphRec.Auth.Rotation
import GraphRec.Auth.Recovery
import GraphRec.ApiKeys.Key
import GraphRec.ApiKeys.System
import GraphRec.ApiKeys.Lifetime
import GraphRec.ApiKeys.Delegation
import GraphRec.Lib.Session
import GraphRec.Usage.Telemetry
import GraphRec.Usage.Quota
import GraphRec.Usage.Requests
import GraphRec.Usage.Refund
import GraphRec.Usage.Ledger
import GraphRec.Lib.SlidingWindow
import GraphRec.Lib.Binary64
import GraphRec.Usage.RateLimit
import GraphRec.Lib.Leases
import GraphRec.Usage.Slots
import GraphRec.Usage.SlotSafety
import GraphRec.Lib.Transactions
import GraphRec.Ingestion.Store
import GraphRec.Ingestion.Events
import GraphRec.Ingestion.Catalog
import GraphRec.Ingestion.InteractionLog
import GraphRec.Ingestion.Versions
import GraphRec.Ingestion.Writes
import GraphRec.Ingestion.System
import GraphRec.Ingestion.Outcomes
import GraphRec.Ingestion.CatalogOutcomes
import GraphRec.Ingestion.VersionOutcomes
import GraphRec.Ingestion.Accounting
import GraphRec.Ingestion.ExactlyOnce
import GraphRec.Ingestion.Customers
import GraphRec.Ingestion.Inventory
import GraphRec.Ingestion.MonthlyQuota
import GraphRec.Lib.Idempotency
import GraphRec.Ingestion.Replay
import GraphRec.Ingestion.LogParser
import GraphRec.Ingestion.LogIds
import GraphRec.Dgsr.FromCsv
import GraphRec.Dgsr.Export
import GraphRec.Auth.Administrators
import GraphRec.Api.Error
import GraphRec.Operators.System
import GraphRec.Operators.Management
import GraphRec.Tenants.Store
import GraphRec.Tenants.Members
import GraphRec.Tenants.Plans
import GraphRec.Tenants.System
import GraphRec.Tenants.Outcomes
import GraphRec.Tenants.Soundness
import GraphRec.Tenants.Registration
import GraphRec.Tenants.Invitations
import GraphRec.Tenants.Identity
import GraphRec.Tenants.Limits
import GraphRec.Tenants.PlanRequests
import GraphRec.Recommendations.Store
import GraphRec.Recommendations.Requests
import GraphRec.Recommendations.System
import GraphRec.Recommendations.Outcomes
import GraphRec.Recommendations.FeedbackIntegrity
import GraphRec.Recommendations.Replay
import GraphRec.Retraining.Policy
import GraphRec.Retraining.System
import GraphRec.Retraining.Evaluation
import GraphRec.Retraining.Schedule
import GraphRec.Lib.Schedule
import GraphRec.Lib.TopK
import GraphRec.Serving.VectorIndex
import GraphRec.Serving.Fallback
import GraphRec.Lib.Core
import GraphRec.Dgsr.CoreFilter
import GraphRec.Lib.Keyset
import GraphRec.Audit.Listing
import GraphRec.Lib.Purge
import GraphRec.Retention.Rules
import GraphRec.Retention.Integrity
import GraphRec.Lib.Packing
import GraphRec.Sdk.Serialization
import GraphRec.Sdk.Batching
import GraphRec.Lib.Alone
import GraphRec.Ingestion.Alone
import GraphRec.Ingestion.Upload
import GraphRec.Ingestion.Chunks
import GraphRec.Sdk.Bulk
import GraphRec.Lib.Newest
import GraphRec.Sdk.Queue
import GraphRec.Sdk.Tracker
import GraphRec.Sdk.AsyncTracker
import GraphRec.Sdk.Retry
import GraphRec.Sdk.Client
import GraphRec.Web.Client
import GraphRec.Dgsr.Partition
import GraphRec.Lib.Lru
import GraphRec.Dgsr.Subgraph
import GraphRec.Serving.KnownPath
import GraphRec.Lib.Extended
import GraphRec.Serving.FastTopK
import GraphRec.Lib.RoundRobin
import GraphRec.Serving.Neighbors
import GraphRec.Lib.Greedy
import GraphRec.Serving.Mmr
import GraphRec.Lib.Capped
import GraphRec.Serving.CategoryCap
import GraphRec.Lib.Places
import GraphRec.Serving.Freshness
import GraphRec.Lib.Percentile
import GraphRec.Serving.Scores
import GraphRec.Serving.FallbackPolicy
import GraphRec.Lib.Breaker
import GraphRec.Serving.QdrantBreaker
import GraphRec.Dgsr.Trainable
import GraphRec.Dgsr.OwnEvents
import GraphRec.Dgsr.CommonEvaluation
import GraphRec.Lib.Softmax
import GraphRec.Dgsr.Loss
import GraphRec.Lib.Scatter
import GraphRec.Dgsr.Network
import GraphRec.Dgsr.NodeStates
import GraphRec.Dgsr.GraphMaps
import GraphRec.Dgsr.Batching
import GraphRec.Dgsr.Relabelling
import GraphRec.Lib.Buckets
import GraphRec.Capacity.Controller
import GraphRec.Capacity.Scaling
import GraphRec.Lib.DateTime
import GraphRec.Lib.Fallible
import GraphRec.Usage.Trends
import GraphRec.Usage.TrendTotals
import GraphRec.Lib.Dict
import GraphRec.Usage.Windows
import GraphRec.Usage.Throttling
import GraphRec.Capacity.ServingSlots
import GraphRec.Dgsr.Recurrence
import GraphRec.Lib.Paging
import GraphRec.Ingestion.Listing
import GraphRec.Sdk.Iterate
import GraphRec.Ingestion.LogTotality
import GraphRec.Lib.Decimal
import GraphRec.Ingestion.ProductRoutes
import GraphRec.Sdk.Products
import GraphRec.Lib.RowIsolation
import GraphRec.Lib.RowSecurity
import GraphRec.Database.RowPolicies
import GraphRec.Sdk.Delivery
import GraphRec.Sdk.CatalogSync
import GraphRec.Lib.RowLocks
import GraphRec.Lib.Counters
import GraphRec.Auth.RecoveryTokens
import GraphRec.Api.Metrics
import GraphRec.Sdk.SharedAuth
import GraphRec.Web.Resource
import GraphRec.Lib.PercentEncoding
import GraphRec.Lib.PathTemplate
import GraphRec.Api.Endpoints
import GraphRec.Sdk.Routes
