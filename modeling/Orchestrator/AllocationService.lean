import Orchestrator.Controller

/-!
The allocation of a backend for a model: a ready one, or a new one where there is room.
-/

namespace Orchestrator.Lifecycle

open Lib Lib.Coro Clock

/-- The items of `allocation_overrides`: the keys of the hints and those of the profile. -/
def overrideKeys : List String :=
  ["runtime", "base_url", "estimated_vram_gb", "safety_margin_gb", "preferred_gpus",
    "idle_ttl_seconds", "min_replicas", "max_replicas", "warmup_enabled", "warmup_prompt",
    "warmup_max_tokens", "startup_timeout_seconds", "load_strategy", "lms_gpu",
    "lms_context_length", "lms_parallel", "lms_ttl_seconds"]

/-- The orchestration of a payload, if it is an object. -/
def payloadOrchestration (payload : Mapping) : Mapping :=
  match Mapping.get payload "orchestration" with
  | .obj m => m
  | _ => []

def allocationOverrides (payload : Mapping) : Mapping :=
  let orchestration := payloadOrchestration payload
  let lifecycle : Mapping := overrideKeys.filterMap fun key =>
    (orchestration.lookup key).map fun value => (key, value)
  let lifecycle := if orchestration.has "max_parallel" && !lifecycle.has "lms_parallel" then
      lifecycle.set "lms_parallel" (orchestration.get "max_parallel") else lifecycle
  let lifecycle := if orchestration.has "gpu" && !lifecycle.has "preferred_gpus" then
      lifecycle.set "preferred_gpus" (match orchestration.get "gpu" with
        | .arr l => .arr l
        | gpu => .arr [gpu])
    else lifecycle
  if lifecycle.isEmpty then [] else [("lifecycle", .obj lifecycle)]

/-- The least integer that is at least the float. -/
def ceilFloat : FloatValue → Except Exn ℤ
  | .fin q => .ok q.ceil
  | .nan => .error (.valueError "cannot convert float NaN to integer")
  | .inf _ => .error (.overflowError "cannot convert float infinity to integer")

def scaled (q : ℚ) : FloatValue → FloatValue
  | .fin x => Json.nearestFloat (x * q)
  | x => x

def estimateVramMb (metadata : Mapping) (fallbackMb : ℤ) : Except Exn ℤ :=
  let rawSize := metadata.get "sizeBytes"
  if rawSize.isNoneOrEmpty then .ok fallbackMb
  else do
    let size ← rawSize.toFloat
    let sizeMb ← ceilFloat (scaled (1 / (1024 * 1024)) size)
    let contextLength ← ((metadata.get "maxContextLength").or (.int 0)).toInt
    let pages ← ceilFloat (Json.nearestFloat (contextLength / 4096))
    let padded ← ceilFloat (scaled (Lib.Binary64.nearest 1.15) (Json.nearestFloat sizeMb))
    pure (padded + min 4096 (max 512 (pages * 64)))

def compactMetadata (metadata : Mapping) : Mapping :=
  ["type", "modelKey", "displayName", "path", "sizeBytes", "paramsString", "architecture",
    "quantization", "maxContextLength", "vision", "trainedForToolUse", "selectedVariant"].filterMap
    fun key => (metadata.lookup key).map fun value => (key, value)

def enrichProfileFromLmstudioMetadata (profile : ModelProfile) (dynamicConfig payload : Mapping) :
    Service (ModelProfile × Mapping) :=
  if profile.runtime ≠ "lmstudio" then pure (profile, [])
  else if (payloadOrchestration payload).has "estimated_vram_gb" then pure (profile, [])
  else if !((dynamicConfig.lookup "auto_vram_from_lms").getD (.bool true)).truthy then
    pure (profile, [])
  else
    let lmsBinary := ((dynamicConfig.get "lms_binary").or (.str profile.lmsBinary)).toStr
    .call (.metadataForModel profile.backendModel lmsBinary) fun (metadata : Mapping) =>
      if metadata.isEmpty then pure (profile, [])
      else (lift (estimateVramMb metadata profile.estimatedVramMb)).after <| onOk fun estimate =>
        if estimate ≤ 0 then pure (profile, [("lmstudio_metadata", .obj metadata)])
        else pure ({ profile with estimatedVramMb := estimate },
          [("lmstudio_metadata", .obj (compactMetadata metadata)),
           ("auto_estimated_vram_mb", .int estimate)])

/-- `min(ready_instances, key=lambda item: item.active_requests)`: the first of the least. -/
def leastActiveInstance : List BackendInstance → Option BackendInstance
  | [] => none
  | i :: rest =>
    match leastActiveInstance rest with
    | none => some i
    | some j => if j.activeRequests < i.activeRequests then some j else some i

structure AllocationResult where
  created : Bool
  decision : Option PlacementDecision
  backend : Option BackendInstance

variable (settings : LifecycleSettings)

def resolveProfile (model : String) (overrides : Mapping) :
    Except Exn (ModelProfile × Mapping) :=
  match settings.profiles.get? model with
  | some profile => .ok (profile, [])
  | none =>
    if !settings.dynamicAllowed model then
      .error ⟨.other, "PermissionError", "Model is not allowed by dynamic model policy."⟩
    else do
      match ← settings.dynamicProfile model overrides with
      | some profile => pure (profile, settings.dynamicConfig)
      | none => .error ⟨.other, "LookupError", "Model is not configured"⟩

/-- The part of `allocate` for a model without a ready instance. -/
def allocateNew (profile : ModelProfile) (dynamicConfig payload : Mapping) :
    Service AllocationResult :=
  (enrichProfileFromLmstudioMetadata profile dynamicConfig payload).after <| onOk fun enriched =>
    let profile := enriched.1
    (if shouldVerifyBeforeStart profile then verifyModelAvailable profile else pure ()).after <|
      onOk fun _ => gpuStates.after <| onOk fun gpus => .get fun s =>
        let decision := chooseGpu profile gpus s.registry
        if decision.action ≠ .start || (decision.gpuId.filter (· ≠ "")).isNone then
          pure ⟨false, some decision, none⟩
        else (startInstance settings profile decision gpus).after <| onOk fun i =>
          (upsert { i with metadata := Mapping.merge i.metadata enriched.2 }).after <| onOk fun i =>
            (initializeInstance settings profile i).after <| onOk fun i =>
              pure ⟨i.state = .ready, some decision, some i⟩

def allocate (payload : Mapping) : Service AllocationResult :=
  let model := PyText.strip ((payload.get "model").or (.str "")).toStr
  if model = "" then raise (.valueError "Allocation requires a non-empty model.")
  else (lift (resolveProfile settings model (allocationOverrides payload))).after <|
    onOk fun found =>
    .get fun s =>
      match leastActiveInstance (s.registry.readyForModel found.1.publicName) with
      | some i => pure ⟨false, none, some i⟩
      | none => allocateNew settings found.1 found.2 payload

end Orchestrator.Lifecycle
