import Mathlib.Data.List.Infix
import Orchestrator.BackendRegistry

/-!
The runtime adapters: how a backend of a profile is started and stopped, with the commands of
docker and of LM Studio.
-/

namespace Orchestrator.Lifecycle

open Lib Lib.Coro Clock

/-! ### Commands -/

def textOf (n : ℤ) : String := toString n

/-- `part in text` -/
def contains (part text : String) : Bool := part.toList <:+: text.toList

/-- `text.rstrip(chars)` -/
def rstrip (chars : List Char) (text : String) : String :=
  String.ofList (text.toList.rdropWhile (· ∈ chars))

def lstrip (chars : List Char) (text : String) : String :=
  String.ofList (text.toList.dropWhile (· ∈ chars))

def containerName (instanceId : String) : String :=
  (String.ofList (("llm-" ++ instanceId).toList.map fun c =>
    if c = '_' || c = '/' then '-' else c)).toLower

/-- The path in the container of an artifact under a mounted directory. -/
def mountedPath (artifact : String) : List VolumeMount → Option String
  | [] => none
  | mount :: rest =>
    let host := rstrip ['/', '\\'] mount.hostPath
    let normalized := rstrip ['/', '\\'] artifact
    if normalized = host then some mount.containerPath
    else if (host ++ "/").toList.isPrefixOf normalized.toList ||
        (host ++ "\\").toList.isPrefixOf normalized.toList then
      let suffix := lstrip ['/', '\\'] (String.ofList (normalized.toList.drop host.length))
      some (rstrip ['/'] mount.containerPath ++ "/" ++
        String.ofList (suffix.toList.map fun c => if c = '\\' then '/' else c))
    else mountedPath artifact rest

def containerModelPath (profile : ModelProfile) : String :=
  match profile.artifact with
  | none => profile.backendModel
  | some artifact =>
    if artifact = "" then profile.backendModel
    else (mountedPath artifact profile.volumeMounts).getD artifact

def dockerVolumeArgs (profile : ModelProfile) : List String :=
  profile.volumeMounts.flatMap fun mount =>
    ["-v", mount.hostPath ++ ":" ++ mount.containerPath ++ ":" ++ mount.mode]

def dockerEnvironmentArgs (profile : ModelProfile) : List String :=
  profile.environment.flatMap fun item => ["-e", item.name ++ "=" ++ item.value]

/-- `profile.runtime_image or "vllm/vllm-openai:latest"` -/
def runtimeImage (profile : ModelProfile) : String :=
  match profile.runtimeImage with
  | some image => if image = "" then "vllm/vllm-openai:latest" else image
  | none => "vllm/vllm-openai:latest"

def dockerVllmCommand (profile : ModelProfile) (gpuIndex hostPort : ℤ)
    (instanceId dockerBinary : String) : List String :=
  [dockerBinary, "run", "-d", "--name", containerName instanceId, "--gpus",
    "device=" ++ textOf gpuIndex, "-p", textOf hostPort ++ ":" ++ textOf profile.containerPort] ++
  dockerVolumeArgs profile ++ dockerEnvironmentArgs profile ++ profile.dockerExtraArgs ++
  [runtimeImage profile, "--model", containerModelPath profile, "--served-model-name",
    profile.backendModel, "--host", "0.0.0.0", "--port", textOf profile.containerPort] ++
  profile.runtimeExtraArgs

def lmstudioLoadCommand (profile : ModelProfile) : List String :=
  let flag (name : String) : Option ℤ → List String
    | some n => [name, textOf n]
    | none => []
  [profile.lmsBinary, "load", profile.backendModel, "--identifier", profile.backendModel,
    "--yes"] ++
  (match profile.lmsGpu with
    | some gpu => if gpu = "" then [] else ["--gpu", gpu]
    | none => []) ++
  flag "--context-length" profile.lmsContextLength ++ flag "--parallel" profile.lmsParallel ++
  flag "--ttl" profile.lmsTtlSeconds

def lmstudioUnloadCommand (lmsBinary identifier : String) : List String :=
  [lmsBinary, "unload", identifier]

def lmstudioIdentifierAlreadyExists (stdout stderr : String) : Bool :=
  let output := (stdout ++ "\n" ++ stderr).toLower
  contains "identifier" output && contains "already exists" output

/-! ### Adapters -/

inductive RuntimeAdapter
  | dryRun
  | dockerVllm
  | externalOpenAI
  deriving DecidableEq

def adapterFor (profile : ModelProfile) (dryRun : Bool) : RuntimeAdapter :=
  if dryRun then .dryRun
  else if profile.runtime = "external" || profile.runtime = "lmstudio" ||
      profile.runtime = "openai-compatible" then .externalOpenAI
  else if profile.runtime = "vllm" then .dockerVllm
  else .dryRun

/-- `subprocess.run(command, check=True)` -/
def runCommand (command : List String) : Service Unit := .call (.run command) fun
  | .ok _ => pure ()
  | .error e => raise e.exn

/-- `maybe_load_lmstudio` -/
def maybeLoadLmstudio (profile : ModelProfile) : Service (List String × Bool) :=
  let command := lmstudioLoadCommand profile
  let strategy := profile.loadStrategy.toLower
  if strategy = "none" || strategy = "api" || strategy = "external" then
    pure (["external-openai", profile.baseUrl.getD ""], false)
  else .call (.run command) fun
    | .ok _ => pure (command, true)
    | .error (.calledProcess stdout stderr) =>
      if lmstudioIdentifierAlreadyExists stdout stderr then
        pure ("lmstudio-preexisting" :: command, false)
      else raise (RunError.calledProcess stdout stderr).exn
    | .error .fileNotFound =>
      if strategy = "cli-if-available" || strategy = "if-available" || strategy = "auto" then
        pure ("lmstudio-cli-unavailable" :: command, false)
      else raise RunError.fileNotFound.exn
    | .error (.other e) => raise e

/-- The record of a new instance; both its time stamps are read from the clock. -/
def newInstance (i : BackendInstance) : Service BackendInstance :=
  nowText.after <| onOk fun created => nowText.after <| onOk fun updated =>
    pure { i with createdAt := created, updatedAt := updated }

def dryRunStart (profile : ModelProfile) (gpuId : String) (gpuIndex hostPort : ℤ)
    (instanceId : String) (reservedVramMb : ℤ) : Service BackendInstance :=
  newInstance {
    instanceId := instanceId
    model := profile.publicName
    backendModel := profile.backendModel
    runtime := profile.runtime
    baseUrl := "dry-run://" ++ profile.publicName ++ "/" ++ instanceId
    gpuIds := [gpuId]
    state := .ready
    reservedVramMb := reservedVramMb
    hostPort := some hostPort
    containerName := some (containerName instanceId)
    runtimeCommand :=
      if profile.runtime = "vllm" then
        dockerVllmCommand profile gpuIndex hostPort instanceId "docker"
      else ["dry-run", profile.runtime, profile.backendModel]
    activeRequests := 0
    failureReason := none
    createdAt := ""
    updatedAt := ""
    lastUsedAt := none
    dryRun := true
    metadata := [] }

def dockerVllmStart (dockerBinary : String) (profile : ModelProfile) (gpuId : String)
    (gpuIndex hostPort : ℤ) (instanceId : String) (reservedVramMb : ℤ) : Service BackendInstance :=
  let command := dockerVllmCommand profile gpuIndex hostPort instanceId dockerBinary
  (runCommand command).after <| onOk fun _ =>
  (noteNow fun _ => .launched (.container (containerName instanceId)) instanceId).after <|
    onOk fun _ =>
  newInstance {
    instanceId := instanceId
    model := profile.publicName
    backendModel := profile.backendModel
    runtime := profile.runtime
    baseUrl := "http://" ++ profile.publicHost ++ ":" ++ textOf hostPort ++ "/v1"
    gpuIds := [gpuId]
    state := .starting
    reservedVramMb := reservedVramMb
    hostPort := some hostPort
    containerName := some (containerName instanceId)
    runtimeCommand := command
    activeRequests := 0
    failureReason := none
    createdAt := ""
    updatedAt := ""
    lastUsedAt := none
    dryRun := false
    metadata := [] }

/-- The command of the record, and whether lifecycle made the load. -/
def externalCommand (profile : ModelProfile) (baseUrl : String) : Service (List String × Bool) :=
  if profile.runtime = "lmstudio" then maybeLoadLmstudio profile
  else pure (["external-openai", baseUrl], false)

/-- The note of a load that lifecycle has made. -/
def noteLoad (profile : ModelProfile) (instanceId : String) (loaded : Bool) : Service Unit :=
  if loaded then
    noteNow fun _ => .launched (.load profile.lmsBinary profile.backendModel) instanceId
  else pure ()

def externalOpenAIStart (profile : ModelProfile) (gpuId : String) (hostPort : ℤ)
    (instanceId : String) (reservedVramMb : ℤ) : Service BackendInstance :=
  match profile.baseUrl.filter (· ≠ "") with
  | none => raise (.valueError "Model uses a runtime but has no lifecycle.base_url")
  | some baseUrl => (externalCommand profile baseUrl).after <| onOk fun loaded =>
    (noteLoad profile instanceId loaded.2).after <| onOk fun _ => newInstance {
      instanceId := instanceId
      model := profile.publicName
      backendModel := profile.backendModel
      runtime := profile.runtime
      baseUrl := baseUrl
      gpuIds := [gpuId]
      state := .starting
      reservedVramMb := reservedVramMb
      hostPort := some hostPort
      containerName := none
      runtimeCommand := loaded.1
      activeRequests := 0
      failureReason := none
      createdAt := ""
      updatedAt := ""
      lastUsedAt := none
      dryRun := false
      metadata := [("lmstudio_loaded_with_lms", .bool loaded.2),
        ("lms_binary", .str profile.lmsBinary)] }

/-- `adapter.start` -/
def RuntimeAdapter.start (adapter : RuntimeAdapter) (dockerBinary : String) (profile : ModelProfile)
    (gpuId : String) (gpuIndex hostPort : ℤ) (instanceId : String) (reservedVramMb : ℤ) :
    Service BackendInstance :=
  match adapter with
  | .dryRun => dryRunStart profile gpuId gpuIndex hostPort instanceId reservedVramMb
  | .dockerVllm =>
    dockerVllmStart dockerBinary profile gpuId gpuIndex hostPort instanceId reservedVramMb
  | .externalOpenAI => externalOpenAIStart profile gpuId hostPort instanceId reservedVramMb

/-- The binary that `stop` unloads with. -/
def unloadBinary (i : BackendInstance) : String :=
  ((i.metadata.get "lms_binary").or (.str (i.runtimeCommand.headD "lms"))).toStr

/-- The command of an adapter's stop, with a note of what came of it. -/
def haltCommand (process : Process) (i : BackendInstance) (command : List String) : Service Unit :=
  (runCommand command).after fun x =>
    (noteNow fun registry => .halted process i.instanceId registry x.isOk).after <|
    onOk fun _ => lift x

/-- `adapter.stop` -/
def RuntimeAdapter.stop (adapter : RuntimeAdapter) (dockerBinary : String) (i : BackendInstance) :
    Service Unit :=
  match adapter with
  | .dryRun => pure ()
  | .dockerVllm =>
    match i.containerName.filter (· ≠ "") with
    | none => pure ()
    | some name => haltCommand (.container name) i [dockerBinary, "stop", name]
  | .externalOpenAI =>
    if i.runtime ≠ "lmstudio" then pure ()
    else if !(i.metadata.get "lmstudio_loaded_with_lms").truthy then pure ()
    else haltCommand (.load (unloadBinary i) i.backendModel) i
      (lmstudioUnloadCommand (unloadBinary i) i.backendModel)

end Orchestrator.Lifecycle
