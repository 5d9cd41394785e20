import Orchestrator.Runtime

/-!
LM Studio's live loads: how a record takes over the shape of a load, and how reconcile records the
loads that lifecycle did not make.
-/

namespace Orchestrator.Lifecycle

open Lib Lib.Coro Clock

/-- The texts that a load answers to. -/
def loadNames (load : LmStudioLoad) : List String :=
  [load.identifier, load.modelKey] ++
  (["model", "modelKey", "selectedVariant", "indexedModelIdentifier"].filterMap fun key =>
    match load.raw.get key with
    | .null => none
    | value => some value.toStr)

def lmstudioLoadMatchesProfile (load : LmStudioLoad) (profile : ModelProfile) : Bool :=
  profile.backendModel ∈ loadNames load || profile.publicName ∈ loadNames load

/-- `inspect_loaded_model` -/
def inspectLoadedModel (model lmsBinary : String) : Service (Option LmStudioLoad) :=
  .call (.loadedModels lmsBinary) fun (loads : List LmStudioLoad) =>
    pure (loads.find? fun load => model ∈ loadNames load)

def matchingLmstudioLoad (i : BackendInstance) (loads : List LmStudioLoad) : Option LmStudioLoad :=
  let preferred := ((i.metadata.get "lmstudio_identifier").or (.str "")).toStr
  let candidates := [i.backendModel, i.model] ++ (if preferred = "" then [] else [preferred])
  loads.find? fun load => load.identifier ∈ candidates || load.modelKey ∈ candidates

/-- A time stamp, read from the clock if the record has none. -/
def stampOr (text : String) : Service String := if text = "" then nowText else pure text

/-- `BackendInstance.from_dict(instance.to_dict())` -/
def copied (i : BackendInstance) : Service BackendInstance :=
  (stampOr i.createdAt).after <| onOk fun created =>
    (stampOr i.updatedAt).after <| onOk fun updated =>
      pure { i with
        backendModel := if i.backendModel = "" then i.model else i.backendModel
        runtime := if i.runtime = "" then "external" else i.runtime
        createdAt := created
        updatedAt := updated }

/-- `metadata[key] = value`, if there is a value. -/
def setSome (m : Mapping) (key : String) : Option Json → Mapping
  | some value => m.set key value
  | none => m

/-- The metadata of a record with a live load. -/
def loadMetadata (m : Mapping) (load : LmStudioLoad) (reconciledAt : String) : Mapping :=
  let m := m.set "live_lmstudio_load" (.obj load.toDict)
  let m := m.set "live_lmstudio_reconciled_at" (.str reconciledAt)
  let m := m.set "lmstudio_identifier" (.str load.identifier)
  let m := m.set "lmstudio_ownership"
    (.str (if (m.get "lmstudio_loaded_with_lms").truthy then "owned" else "external"))
  let m := setSome m "lms_context_length" (load.contextLength.map Json.int)
  let m := setSome m "lms_parallel" (load.parallel.map Json.int)
  let m := setSome m "lms_gpu" (load.gpu.map Json.str)
  setSome m "lms_ttl_seconds" (load.ttlSeconds.map Json.int)

def instanceWithLmstudioLoad (i : BackendInstance) (load : LmStudioLoad) :
    Service BackendInstance :=
  (copied i).after <| onOk fun copy => nowText.after <| onOk fun t =>
    pure { copy with metadata := loadMetadata copy.metadata load t }

def instanceWithLiveLmstudioShape (profile : ModelProfile) (i : BackendInstance) :
    Service BackendInstance :=
  if profile.runtime ≠ "lmstudio" then pure i
  else
    let lmsBinary := ((i.metadata.get "lms_binary").or (.str profile.lmsBinary)).toStr
    (inspectLoadedModel i.backendModel lmsBinary).after <| onOk fun
      | none => pure i
      | some load => instanceWithLmstudioLoad i load

/-- `gpu_ids_from_lmstudio_load` -/
def gpuIdsFromLmstudioLoad (load : LmStudioLoad) (profile : ModelProfile) : List String :=
  let rawGpu := (PyText.strip (load.gpu.getD "")).toLower
  if "gpu".toList.isPrefixOf rawGpu.toList then [rawGpu]
  else if rawGpu ≠ "" && rawGpu.toList.all (fun c => (PyText.digitValue c).isSome) then
    ["gpu" ++ rawGpu]
  else (profile.preferredGpus.filter fun gpuId =>
    gpuId ≠ "auto" && gpuId ≠ "max" && "gpu".toList.isPrefixOf gpuId.toList).take 1

variable (settings : LifecycleSettings)

/-- A character that `stable_id` keeps. -/
def isStableChar (c : Char) : Bool := c.isAlphanum || c = '_' || c = '.' || c = '-'

/-- Every run of other characters becomes one `-`. -/
def dashRuns : Bool → List Char → List Char
  | _, [] => []
  | inRun, c :: rest =>
    if isStableChar c then c :: dashRuns false rest
    else if inRun then dashRuns true rest
    else '-' :: dashRuns true rest

/-- `stable_id`; `digest` is the beginning of a SHA-256 digest. -/
def stableId (digest value : String) : String :=
  let trimmed := rstrip ['-'] (lstrip ['-'] (String.ofList (dashRuns false value.toList)))
  let cleaned := String.ofList (trimmed.toLower.toList.take 48)
  (if cleaned = "" then "load" else cleaned) ++ "-" ++ digest

def externalLmstudioInstance (profile : ModelProfile) (load : LmStudioLoad) :
    Service BackendInstance :=
  (newInstance {
    instanceId := "external-lmstudio-" ++ stableId (settings.sha256 load.identifier) load.identifier
    model := profile.publicName
    backendModel := profile.backendModel
    runtime := "lmstudio"
    baseUrl := profile.baseUrl.getD ""
    gpuIds := gpuIdsFromLmstudioLoad load profile
    state := .external
    reservedVramMb := profile.requiredVramMb
    hostPort := none
    containerName := none
    runtimeCommand := []
    activeRequests := 0
    failureReason := none
    createdAt := ""
    updatedAt := ""
    lastUsedAt := none
    dryRun := false
    metadata := [("lmstudio_identifier", .str load.identifier),
      ("lmstudio_ownership", .str "external"),
      ("lmstudio_loaded_with_lms", .bool false), ("lms_binary", .str profile.lmsBinary)] }).after <|
    onOk fun i => instanceWithLmstudioLoad i load

/-! ### Synchronization -/

/-- The records of a profile take over their loads; the results are the identifiers of the loads
that a record matches. -/
def syncRecords (profile : ModelProfile) (profileLoads : List LmStudioLoad) :
    List BackendInstance → Service (List String)
  | [] => pure []
  | i :: rest =>
    if i.runtime ≠ "lmstudio" || i.model ≠ profile.publicName then
      syncRecords profile profileLoads rest
    else match matchingLmstudioLoad i profileLoads with
      | none =>
        (if i.state = .external then removeInstance i.instanceId else pure ()).after <|
        onOk fun _ =>
          syncRecords profile profileLoads rest
      | some load =>
        (instanceWithLmstudioLoad i load).after <| onOk fun updated =>
          (upsertUntouched updated).after <| onOk fun _ =>
            (syncRecords profile profileLoads rest).after <| onOk fun others =>
              pure (load.identifier :: others)

/-- Loads that no record matches are recorded. -/
def recordExternal (profile : ModelProfile) (matched : List String) :
    List LmStudioLoad → Service Unit
  | [] => pure ()
  | load :: rest =>
    if load.identifier ∈ matched then recordExternal profile matched rest
    else (externalLmstudioInstance settings profile load).after <| onOk fun i =>
      (upsert i).after <| onOk fun _ => recordExternal profile matched rest

def syncProfileLiveLmstudioLoad (profile : ModelProfile) (loads : List LmStudioLoad) :
    Service Unit :=
  let profileLoads := loads.filter fun load => lmstudioLoadMatchesProfile load profile
  .get fun s => (syncRecords profile profileLoads s.registry.list).after <| onOk fun matched =>
    recordExternal settings profile matched profileLoads

/-- The loop of `sync_live_lmstudio_state`; `loadsByBinary` holds the first answer of each
binary. -/
def syncProfiles : List ModelProfile → Dict String (List LmStudioLoad) → Service Unit
  | [], _ => pure ()
  | profile :: rest, loadsByBinary =>
    if profile.runtime ≠ "lmstudio" then syncProfiles rest loadsByBinary
    else .call (.loadedModels profile.lmsBinary) fun (answer : List LmStudioLoad) =>
      let loads := (loadsByBinary.get? profile.lmsBinary).getD answer
      (syncProfileLiveLmstudioLoad settings profile loads).after <| onOk fun _ =>
        syncProfiles rest (loadsByBinary.set profile.lmsBinary loads)

def syncLiveLmstudioState : Service Unit := syncProfiles settings settings.profiles.list .empty

end Orchestrator.Lifecycle
