import Orchestrator.Adapters

/-!
Placement, and the life of one backend instance: its start, its initialization and its stop.
-/

namespace Orchestrator.Lifecycle

open Lib Lib.Coro Clock

/-! ### The scheduler -/

/-- The GPUs that the profile may use and that have room, each with the room it has. -/
def gpuCandidates (profile : ModelProfile) (gpus : List GpuState) (registry : Registry) :
    List (GpuState × ℤ) :=
  (gpus.filter fun gpu => "auto" ∈ profile.preferredGpus || gpu.id ∈ profile.preferredGpus ||
      textOf gpu.index ∈ profile.preferredGpus).filterMap fun gpu =>
    let available := gpu.memoryFreeMb - registry.reservedVramByGpu gpu.id
    if profile.requiredVramMb ≤ available then some (gpu, available) else none

/-- `max(candidates, key=lambda item: item[1])`: the first of the greatest. -/
def roomiest : List (GpuState × ℤ) → Option (GpuState × ℤ)
  | [] => none
  | c :: rest =>
    match roomiest rest with
    | none => some c
    | some d => if c.2 < d.2 then some d else some c

def chooseGpu (profile : ModelProfile) (gpus : List GpuState) (registry : Registry) :
    PlacementDecision :=
  let decision (action : ScaleAction) (gpuId : Option String) (reason : String)
      (availableVramMb : Option ℤ) : PlacementDecision := {
    model := profile.publicName
    action := action
    gpuId := gpuId
    reason := reason
    requiredVramMb := profile.requiredVramMb
    availableVramMb := availableVramMb
    instanceId := none
    lmsContextLength := profile.lmsContextLength
    lmsParallel := profile.lmsParallel
    currentLmsContextLength := none
    currentLmsParallel := none
    contextPlan := none }
  match roomiest (gpuCandidates profile gpus registry) with
  | none => decision .noop none "no_gpu_with_enough_vram"
      (gpus.map fun gpu => gpu.memoryFreeMb - registry.reservedVramByGpu gpu.id).max?
  | some (gpu, available) => decision .start (some gpu.id) "vram_available" (some available)

def desiredReplicas (profile : ModelProfile) (readyReplicas queueLength : ℤ) : ℤ :=
  let desired := max profile.minReplicas readyReplicas
  min profile.maxReplicas (if 0 < queueLength then desired + 1 else desired)

/-! ### The controller's settings -/

structure LifecycleSettings where
  dryRun : Bool
  dockerBinary : String
  profiles : Profiles
  /-- `dynamic_models` of the configuration -/
  dynamicConfig : Mapping
  /-- `load_dynamic_model_profile` of a model and overrides -/
  dynamicProfile : String → Mapping → Except Exn (Option ModelProfile)
  /-- `dynamic_model_allowed` -/
  dynamicAllowed : String → Bool
  /-- the first eight digits of a SHA-1 digest -/
  sha1 : String → String
  /-- the first ten digits of a SHA-256 digest -/
  sha256 : String → String

variable (settings : LifecycleSettings)

/-! ### One instance -/

def instanceIdFor (model gpuId seed : String) : String :=
  let digest := settings.sha1 (model ++ ":" ++ gpuId ++ ":" ++ seed)
  let safeModel := String.ofList (model.toList.map fun c => if c = '/' || c = ':' then '-' else c)
  safeModel ++ "-" ++ gpuId ++ "-" ++ digest

/-- `gpu_by_id`: a later GPU of the same id replaces an earlier one. -/
def gpuById (gpus : List GpuState) (gpuId : String) : Option GpuState :=
  gpus.reverse.find? fun gpu => gpu.id = gpuId

def shapeMetadata (profile : ModelProfile) : Mapping :=
  [("idle_ttl_seconds", .int profile.idleTtlSeconds),
   ("estimated_vram_mb", .int profile.estimatedVramMb),
   ("safety_margin_mb", .int profile.safetyMarginMb),
   ("lms_context_length", optInt profile.lmsContextLength),
   ("lms_parallel", optInt profile.lmsParallel),
   ("lms_gpu", optText profile.lmsGpu),
   ("lms_ttl_seconds", optInt profile.lmsTtlSeconds)]

def startInstance (profile : ModelProfile) (decision : PlacementDecision) (gpus : List GpuState) :
    Service BackendInstance :=
  let gpuId := decision.gpuId.getD "None"
  match gpuById gpus gpuId with
  | none => raise (.keyError gpuId)
  | some gpu => nowText.after <| onOk fun seed => .get fun s =>
    let instanceId := instanceIdFor settings profile.publicName gpuId seed
    let hostPort := s.registry.nextHostPort profile.hostPortStart
    ((adapterFor profile settings.dryRun).start settings.dockerBinary profile gpuId gpu.index
      hostPort
      instanceId decision.requiredVramMb).after <| onOk fun i =>
        pure { i with metadata := Mapping.merge i.metadata (shapeMetadata profile) }

def shouldVerifyBeforeStart (profile : ModelProfile) : Bool :=
  if profile.runtime ≠ "lmstudio" then true
  else
    let strategy := profile.loadStrategy.toLower
    strategy = "none" || strategy = "api" || strategy = "external"

/-- What `verify_model_available` makes of the answer. -/
def checkVisible (profile : ModelProfile) : Except Exn (List String) → Except Exn Unit
  | .ok ids =>
    if profile.backendModel ∈ ids then .ok ()
    else .error ⟨.other, "LookupError", "Model is not visible"⟩
  | .error e => .error e

def verifyModelAvailable (profile : ModelProfile) : Service Unit :=
  if !(profile.runtime = "lmstudio" || profile.runtime = "openai-compatible" ||
      profile.runtime = "external") then pure ()
  else match profile.baseUrl.filter (· ≠ "") with
    | none => raise (.valueError "Model has no base_url.")
    | some baseUrl => .call (.getModels baseUrl) fun r => lift (checkVisible profile r)

def warmupPayload (profile : ModelProfile) : Mapping :=
  [("model", .str profile.backendModel),
   ("messages", .arr [.obj [("role", .str "user"), ("content", .str profile.warmupPrompt)]]),
   ("temperature", .int 0),
   ("max_tokens", .int profile.warmupMaxTokens)]

def warmup (profile : ModelProfile) (i : BackendInstance) : Service Unit :=
  .call (.postWarmup i.baseUrl (warmupPayload profile)) fun r => lift r

/-- `try p except Exception as exc: h exc` -/
def exceptException {α : Type} (p : Service α) (h : Exn → Service α) : Service α :=
  p.after fun
    | .ok a => pure a
    | .error e => if e.isException then h e else raise e

/-- `with suppress(Exception): p` -/
def suppressException (p : Service Unit) : Service Unit := exceptException p fun _ => pure ()

def initializeInstance (profile : ModelProfile) (i : BackendInstance) : Service BackendInstance :=
  if i.dryRun then markState i.instanceId .ready
  else exceptException
    (Coro.after (.call (.waitForHealth i.baseUrl profile.healthcheckPath) fun r => lift r) <|
      onOk fun _ =>
      (if shouldVerifyBeforeStart profile then pure () else verifyModelAvailable profile).after <|
        onOk fun _ => (markState i.instanceId .warming).after <| onOk fun _ =>
          (if profile.warmupEnabled then warmup profile i else pure ()).after <| onOk fun _ =>
            markState i.instanceId .ready)
    fun e => (suppressException ((adapterFor profile (i.dryRun || settings.dryRun)).stop
      settings.dockerBinary i)).after <| onOk fun _ => markFailed i.instanceId e.name

def stopInstance (profile : ModelProfile) (i : BackendInstance) : Service BackendInstance :=
  (markState i.instanceId .draining).after <| onOk fun _ =>
  (noteNow fun registry => .stopping i registry).after <| onOk fun _ => exceptException
    (((adapterFor profile (i.dryRun || settings.dryRun)).stop settings.dockerBinary i).after <|
      onOk fun _ => markState i.instanceId .stopped)
    fun e => markFailed i.instanceId e.name

end Orchestrator.Lifecycle
