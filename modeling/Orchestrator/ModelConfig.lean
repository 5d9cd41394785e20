import Orchestrator.AllocationService
import Orchestrator.Policy

/-!
The profile of a model that is not configured: it is made of the configuration's defaults and the
hints of an allocation.
-/

namespace Orchestrator.Lifecycle

/-- What `load_orchestrator_config` reads, without the configured models. -/
structure OrchestratorConfig where
  defaults : Mapping
  dynamicModels : Mapping

/-! ### Values -/

/-- `int(x)` of a float. -/
def truncated (x : FloatValue) : Except Exn ℤ := (Json.float ⟨"", x⟩).toInt

def vramMb : Json → Except Exn ℤ
  | .null => .ok 0
  | value => do truncated (scaled 1024 (← value.toFloat))

def optionalStr : Json → Option String
  | .null => none
  | value => if value.toStr = "" then none else some value.toStr

def stringTuple : Json → List String
  | .null => []
  | .arr items => items.map Json.toStr
  | value => [value.toStr]

/-- `str(x) for x in value` -/
def iterTexts : Json → Except Exn (List String)
  | .arr items => .ok (items.map Json.toStr)
  | .obj m => .ok (m.map Prod.fst)
  | .str s => .ok (s.toList.map String.singleton)
  | _ => .error (.typeError "object is not iterable")

def volumeMount : Json → Option VolumeMount
  | .obj item =>
    match optionalStr ((Mapping.get item "host_path").or (Mapping.get item "host")),
        optionalStr ((Mapping.get item "container_path").or (Mapping.get item "container")) with
    | some host, some container =>
      some ⟨host, container, ((Mapping.get item "mode").or (.str "ro")).toStr⟩
    | _, _ => none
  | _ => none

def volumeMounts : Json → List VolumeMount
  | .arr items => items.filterMap volumeMount
  | _ => []

def environmentVariables : Json → List EnvironmentVariable
  | .obj m => m.map fun p => ⟨p.1, p.2.toStr⟩
  | _ => []

/-! ### Profiles -/

/-- `value or {}`, of which the items are used. -/
def itemsOf (e : Exn) (value : Json) : Except Exn Mapping :=
  match value.or (.obj []) with
  | .obj m => .ok m
  | _ => .error e

def modelProfileFromData (modelKey : String) (modelConfig defaults : Mapping) :
    Except Exn ModelProfile := do
  let modelData := defaults.merge modelConfig
  let lifecycleData ← itemsOf ⟨.other, "AttributeError", "object has no attribute 'get'"⟩
    (modelData.get "lifecycle")
  let publicName := ((modelData.get "public_name").or (.str modelKey)).toStr
  let either (key : String) (default : Json) : Json :=
    lifecycleData.getOr key (modelData.getOr key default)
  let estimatedVramMb ← vramMb (either "estimated_vram_gb" (.int 0))
  let safetyMarginMb ← vramMb (either "safety_margin_gb" (.int 1))
  let preferredGpus ← iterTexts (lifecycleData.getOr "preferred_gpus" (.arr [.str "auto"]))
  let hostPortStart ← (lifecycleData.getOr "host_port_start" (.int 8100)).toInt
  let containerPort ← (lifecycleData.getOr "container_port" (.int 8000)).toInt
  -- the two durations are checked and, here, not used
  let _ ← (lifecycleData.getOr "startup_timeout_seconds" (.int 120)).toFloat
  let _ ← (lifecycleData.getOr "healthcheck_interval_seconds" (.int 2)).toFloat
  let warmupMaxTokens ← (lifecycleData.getOr "warmup_max_tokens" (.int 8)).toInt
  let minReplicas ← (lifecycleData.getOr "min_replicas" (.int 0)).toInt
  let maxReplicas ← (lifecycleData.getOr "max_replicas" (.int 1)).toInt
  let idleTtlSeconds ← (lifecycleData.getOr "idle_ttl_seconds" (.int 3600)).toInt
  let lmsContextLength ← optionalInt (either "lms_context_length" .null)
  let lmsParallel ← optionalInt (either "lms_parallel" .null)
  let lmsTtlSeconds ← optionalInt (either "lms_ttl_seconds" .null)
  let reloadMinDwellSeconds ← (either "reload_min_dwell_seconds" (.int 300)).toInt
  pure {
    publicName := publicName
    backendModel := ((modelData.get "backend_model").or (.str publicName)).toStr
    runtime := (either "runtime" (.str "external")).toStr
    artifact := optionalStr (either "artifact" .null)
    runtimeImage := optionalStr (either "runtime_image" .null)
    hostPortStart := hostPortStart
    containerPort := containerPort
    publicHost := (lifecycleData.getOr "public_host" (.str "host.docker.internal")).toStr
    baseUrl := optionalStr (either "base_url" .null)
    dockerExtraArgs := stringTuple (lifecycleData.getOr "docker_extra_args" (.arr []))
    runtimeExtraArgs := stringTuple (lifecycleData.getOr "runtime_extra_args" (.arr []))
    volumeMounts := volumeMounts (lifecycleData.getOr "volumes" (.arr []))
    environment := environmentVariables (lifecycleData.getOr "environment" (.obj []))
    healthcheckPath := (lifecycleData.getOr "healthcheck_path" (.str "/v1/models")).toStr
    warmupEnabled := (lifecycleData.getOr "warmup_enabled" (.bool true)).truthy
    warmupPrompt := (lifecycleData.getOr "warmup_prompt" (.str "Return exactly: ok")).toStr
    warmupMaxTokens := warmupMaxTokens
    estimatedVramMb := estimatedVramMb
    safetyMarginMb := safetyMarginMb
    minReplicas := minReplicas
    maxReplicas := maxReplicas
    idleTtlSeconds := idleTtlSeconds
    loadStrategy := (either "load_strategy" (.str "none")).toStr
    lmsBinary := (either "lms_binary" (.str "lms")).toStr
    lmsGpu := optionalStr (either "lms_gpu" .null)
    lmsContextLength := lmsContextLength
    lmsParallel := lmsParallel
    lmsTtlSeconds := lmsTtlSeconds
    preferredGpus := preferredGpus
    reloadMinDwellSeconds := reloadMinDwellSeconds
    reloadAllowBucketOnly := (either "reload_allow_bucket_only" (.bool false)).truthy }

/-- What `load_dynamic_model_profile` starts from. -/
def dynamicLifecycle : Mapping :=
  [("runtime", .str "lmstudio"),
   ("base_url", .str "http://host.docker.internal:1234/v1"),
   ("estimated_vram_gb", .int 8),
   ("safety_margin_gb", .int 1),
   ("min_replicas", .int 0),
   ("max_replicas", .int 1),
   ("idle_ttl_seconds", .int 900),
   ("preferred_gpus", .arr [.str "auto"]),
   ("load_strategy", .str "cli-if-available"),
   ("lms_binary", .str "lms")]

/-- The lifecycle data of a dynamic model: of the configuration, and then of the request. -/
def dynamicData (config : OrchestratorConfig) (overrides : Mapping) : Except Exn Mapping := do
  let notMapping := Exn.typeError "object is not a mapping"
  let lifecycleDefaults ← itemsOf notMapping (config.dynamicModels.get "lifecycle")
  let lifecycleOverrides ← itemsOf notMapping (overrides.get "lifecycle")
  pure ((dynamicLifecycle.merge lifecycleDefaults).merge lifecycleOverrides)

def loadDynamicModelProfile (config : OrchestratorConfig) (model : String) (overrides : Mapping) :
    Except Exn (Option ModelProfile) :=
  if !(config.dynamicModels.getOr "enabled" (.bool false)).truthy then .ok none
  else do
    let lifecycle ← dynamicData config overrides
    let modelConfig := ((config.dynamicModels.merge overrides).merge
      [("public_name", .str model), ("backend_model", .str model)]).merge
      [("lifecycle", .obj lifecycle)]
    (modelProfileFromData model modelConfig config.defaults).map some

end Orchestrator.Lifecycle
