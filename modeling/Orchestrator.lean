import Orchestrator.Lib.Dict
import Orchestrator.Lib.Lts
import Orchestrator.Lib.Coro
import Orchestrator.Lib.Table
import Orchestrator.PyText
import Orchestrator.Exn
import Orchestrator.Json
import Orchestrator.TaskStore
import Orchestrator.TaskParse
import Orchestrator.StoreFile
import Orchestrator.StoreInvariant
import Orchestrator.Idempotency
import Orchestrator.Policy
import Orchestrator.Limiter
import Orchestrator.LimiterCounts
import Orchestrator.InFlight
import Orchestrator.TokenPolicy
import Orchestrator.Routing
import Orchestrator.ResolveOutcomes
import Orchestrator.ContextPlan
import Orchestrator.Executor
import Orchestrator.ClockOrder
import Orchestrator.FairChoice
import Orchestrator.StoreSound
import Orchestrator.Durability
import Orchestrator.Fairness
import Orchestrator.Outcomes
import Orchestrator.PostgresTaskStore
import Orchestrator.RowTasks
import Orchestrator.RowClaim
import Orchestrator.StoreRefinement
import Orchestrator.ClaimWorkers
import Orchestrator.ModelNames
import Orchestrator.AdmissionContract
import Orchestrator.Lib.Pool
import Orchestrator.Lib.Holding
import Orchestrator.Lib.Turns
import Orchestrator.Lib.Messages
import Orchestrator.Backend
import Orchestrator.BackendRegistry
import Orchestrator.Adapters
import Orchestrator.Runtime
import Orchestrator.LiveLoads
import Orchestrator.Cleanup
import Orchestrator.Controller
import Orchestrator.AllocationService
import Orchestrator.IdleStops
import Orchestrator.UnleasedStops
import Orchestrator.LoadCounts
import Orchestrator.LifecycleRestart
import Orchestrator.Initialization
import Orchestrator.ProxySystem
import Orchestrator.AttemptTurns
import Orchestrator.Attempts
import Orchestrator.ExecutorTokens
import Orchestrator.Cancellation
import Orchestrator.Restart
import Orchestrator.Endpoints
import Orchestrator.TaskGauge
import Orchestrator.SubmissionErrors
import Orchestrator.Templates
import Orchestrator.PreparationErrors
import Orchestrator.TenantScope
import Orchestrator.PlanShapes
import Orchestrator.ClaimChoice
import Orchestrator.ModelConfig
import Orchestrator.Forward
import Orchestrator.SlotRelease
import Orchestrator.UpstreamCalls
import Orchestrator.Records
import Orchestrator.RegistryFile
import Orchestrator.Metrics
import Orchestrator.OverrideLaws
import Orchestrator.Placement
import Orchestrator.HardMismatch
import Orchestrator.FailedStarts
import Orchestrator.HostPorts
import Orchestrator.IdleReplicas
import Orchestrator.RegistryReplies
import Orchestrator.LeaseRouting
import Orchestrator.LeaseCounts
import Orchestrator.ReplicaLimits
import Orchestrator.SharedLoads
import Orchestrator.UserLoads
import Orchestrator.RunningProcesses
import Orchestrator.InstanceOrigins
import Orchestrator.IntText
import Orchestrator.JsonText
import Orchestrator.LmsBridge
import Orchestrator.StoreText
