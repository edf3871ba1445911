import AiScheduler.Proofs.Acyclic
import AiScheduler.Proofs.AgentLoop
import AiScheduler.Proofs.AgentTools
import AiScheduler.Proofs.Backoff
import AiScheduler.Proofs.Buffering
import AiScheduler.Proofs.Capacity
import AiScheduler.Proofs.Chains
import AiScheduler.Proofs.Columns
import AiScheduler.Proofs.Deliveries
import AiScheduler.Proofs.Doubles
import AiScheduler.Proofs.DurationStats
import AiScheduler.Proofs.EngineVsLoop
import AiScheduler.Proofs.Eviction
import AiScheduler.Proofs.Executions
import AiScheduler.Proofs.Fairness
import AiScheduler.Proofs.FastPath
import AiScheduler.Proofs.Framing
import AiScheduler.Proofs.HeadOfLine
import AiScheduler.Proofs.HeapTicks
import AiScheduler.Proofs.History
import AiScheduler.Proofs.Leadership
import AiScheduler.Proofs.Limiter
import AiScheduler.Proofs.Load
import AiScheduler.Proofs.LoadBounds
import AiScheduler.Proofs.LostUpdate
import AiScheduler.Proofs.Migrations
import AiScheduler.Proofs.Occurrences
import AiScheduler.Proofs.Pagination
import AiScheduler.Proofs.Pending
import AiScheduler.Proofs.Pressure
import AiScheduler.Proofs.Rendering
import AiScheduler.Proofs.Requests
import AiScheduler.Proofs.Resuming
import AiScheduler.Proofs.RetryWindow
import AiScheduler.Proofs.Sessions
import AiScheduler.Proofs.ShardRuns
import AiScheduler.Proofs.SuccessFrame
import AiScheduler.Proofs.Tenancy
import AiScheduler.Proofs.Transports
import AiScheduler.Proofs.Truncation
import AiScheduler.Proofs.Upserts
import AiScheduler.Proofs.Warming
import AiScheduler.Proofs.WheelTime
import AiScheduler.Proofs.TenantHeader
