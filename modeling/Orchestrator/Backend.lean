import Orchestrator.Lib.Dict
import Orchestrator.Clock
import Orchestrator.Json

/-!
The data of the lifecycle service: model profiles, context plans, GPUs, backend instances, the loads
that LM Studio reports, and placement decisions.
-/

namespace Orchestrator.Lifecycle

open Clock

inductive BackendState
  | starting
  | warming
  | ready
  | draining
  | stopping
  | stopped
  | failed
  | external
  deriving DecidableEq

namespace BackendState

/-- `ACTIVE_STATES` -/
def isActive : BackendState → Bool
  | starting | warming | ready | draining | stopping => true
  | stopped | failed | external => false

/-- `RESERVED_STATES` -/
def isReserved (s : BackendState) : Bool := s.isActive || s = external

end BackendState

structure ContextPlan where
  queuedTasks : ℤ
  maxRequiredContextTokens : ℤ
  recommendedLmsContextLength : Option ℤ
  requestedParallel : ℤ
  recommendedLmsParallel : Option ℤ
  totalSlotContextTokens : ℤ
  contextCapTokens : Option ℤ
  oversizedTasks : List String
  reloadRequired : Bool
  taskContexts : List Mapping

structure GpuState where
  id : String
  index : ℤ
  memoryFreeMb : ℤ

structure VolumeMount where
  hostPath : String
  containerPath : String
  mode : String

structure EnvironmentVariable where
  name : String
  value : String

structure ModelProfile where
  publicName : String
  backendModel : String
  runtime : String
  artifact : Option String
  runtimeImage : Option String
  hostPortStart : ℤ
  containerPort : ℤ
  publicHost : String
  baseUrl : Option String
  dockerExtraArgs : List String
  runtimeExtraArgs : List String
  volumeMounts : List VolumeMount
  environment : List EnvironmentVariable
  healthcheckPath : String
  warmupEnabled : Bool
  warmupPrompt : String
  warmupMaxTokens : ℤ
  estimatedVramMb : ℤ
  safetyMarginMb : ℤ
  minReplicas : ℤ
  maxReplicas : ℤ
  idleTtlSeconds : ℤ
  loadStrategy : String
  lmsBinary : String
  lmsGpu : Option String
  lmsContextLength : Option ℤ
  lmsParallel : Option ℤ
  lmsTtlSeconds : Option ℤ
  preferredGpus : List String
  reloadMinDwellSeconds : ℤ
  reloadAllowBucketOnly : Bool

/-- What a backend of the profile reserves. -/
def ModelProfile.requiredVramMb (p : ModelProfile) : ℤ := p.estimatedVramMb + p.safetyMarginMb

/-- The configured profiles, each under its public name. -/
structure Profiles where
  list : List ModelProfile
  distinct : (list.map ModelProfile.publicName).Nodup

def Profiles.get? (profiles : Profiles) (model : String) : Option ModelProfile :=
  profiles.list.find? fun p => p.publicName = model

structure BackendInstance where
  instanceId : String
  model : String
  backendModel : String
  runtime : String
  baseUrl : String
  gpuIds : List String
  state : BackendState
  reservedVramMb : ℤ
  hostPort : Option ℤ
  containerName : Option String
  runtimeCommand : List String
  activeRequests : ℤ
  failureReason : Option String
  createdAt : String
  updatedAt : String
  lastUsedAt : Option String
  dryRun : Bool
  metadata : Mapping

structure LmStudioLoad where
  identifier : String
  modelKey : String
  status : Option String
  contextLength : Option ℤ
  parallel : Option ℤ
  gpu : Option String
  ttlSeconds : Option ℤ
  raw : Mapping

inductive ScaleAction
  | start
  | reload
  | rejectOversized
  | noop
  deriving DecidableEq

structure PlacementDecision where
  model : String
  action : ScaleAction
  gpuId : Option String
  reason : String
  requiredVramMb : ℤ
  availableVramMb : Option ℤ
  instanceId : Option String
  lmsContextLength : Option ℤ
  lmsParallel : Option ℤ
  currentLmsContextLength : Option ℤ
  currentLmsParallel : Option ℤ
  contextPlan : Option ContextPlan

/-! ### Values of the metadata -/

def optInt : Option ℤ → Json
  | some n => .int n
  | none => .null

def optText : Option String → Json
  | some s => .str s
  | none => .null

/-- `optional_int` of `lifecycle.models` -/
def optionalInt (value : Json) : Except Exn (Option ℤ) :=
  if value.isNoneOrEmpty then .ok none else value.toInt.map some

def LmStudioLoad.toDict (load : LmStudioLoad) : Mapping :=
  [("identifier", .str load.identifier),
   ("model_key", .str load.modelKey),
   ("status", optText load.status),
   ("context_length", optInt load.contextLength),
   ("parallel", optInt load.parallel),
   ("gpu", optText load.gpu),
   ("ttl_seconds", optInt load.ttlSeconds),
   ("raw", .obj load.raw)]

end Orchestrator.Lifecycle
