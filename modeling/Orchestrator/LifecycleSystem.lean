import Orchestrator.InstanceStart

/-!
The lifecycle service as a whole: its operations, of which any number overlap, one running at a time
until it suspends.
-/

namespace Orchestrator.Lifecycle

open Lib Lib.Coro Clock

inductive Operation
  | lease (instanceId : String)
  | release (instanceId : String)
  | reconcile (queueLengths : Dict String ℤ) (contextPlans : Dict String ContextPlan)
  | cleanup (queueLengths : Dict String ℤ)
  | allocate (payload : Mapping)

/-- The operation without its result. -/
def discard {α : Type} (p : Service α) : Service Unit := p.after fun x => done (x.map fun _ => ())

variable (settings : LifecycleSettings)

def body : Operation → Service Unit
  | .lease instanceId => discard (adjustActiveRequests instanceId 1)
  | .release instanceId => discard (adjustActiveRequests instanceId (-1))
  | .reconcile queueLengths contextPlans => discard (reconcile settings queueLengths contextPlans)
  | .cleanup queueLengths => discard (cleanup settings queueLengths)
  | .allocate payload => discard (allocate settings payload)

/-- The state of the service and the operations under way. -/
abbrev Processes := Pool LifecycleState LifecycleCall LifecycleCall.Answer Exn Unit

abbrev ProcessStep := PoolStep Operation LifecycleCall LifecycleCall.Answer

/-- Text that was read from the clock, in the past. -/
def Stamp (clock : DateTime) (text : String) : Prop := ∃ t, t ≤ clock ∧ text = nowIso t

/-- The time stamps of a record are from the clock. -/
def Stamped (clock : DateTime) (i : BackendInstance) : Prop :=
  Stamp clock i.updatedAt ∧ ∀ text, i.lastUsedAt = some text → Stamp clock text

/-- A registry as lifecycle has written it, possibly empty, and a history that begins. -/
structure Loaded (s : LifecycleState) : Prop where
  keyed : Keyed s
  stamped : ∀ id i, s.registry.get? id = some i → Stamped s.clock i
  log : s.log = []

def lifecycleLts : Lts Processes ProcessStep := Pool.lts world (body settings) Loaded

variable {settings} {I : LifecycleState → Prop}

/-- Every operation is made of the parts. -/
lemma Blocks.body {G : ModelProfile → Prop} {Keep : (α : Type) → Service α → (α → Prop) → Prop}
    (B : Blocks settings G Keep)
    (hadjust : ∀ id delta, Keep _ (adjustActiveRequests id delta) fun _ => True)
    {op : Operation} (hop : ∀ payload, op = .allocate payload → Allocates settings G payload) :
    Keep _ (body settings op) fun _ => True := by
  have hdiscard : ∀ {α : Type} {p : Service α}, Keep _ p (fun _ => True) →
      Keep _ (discard p) fun _ => True := fun hp => B.seq _ _ _ _ _ _ hp fun _ _ => B.result _
  cases op with
  | lease id => exact hdiscard (hadjust id 1)
  | release id => exact hdiscard (hadjust id (-1))
  | reconcile queueLengths contextPlans => exact hdiscard (B.reconcile queueLengths contextPlans)
  | cleanup queueLengths => exact hdiscard (B.cleanup queueLengths)
  | allocate payload => exact hdiscard (B.allocate (hop payload rfl))

/-- **What every change keeps**, and every stop, holds in every run. -/
theorem reachable_closed (hI : Closed I) (hidle : IdleStopsKeep settings I)
    (hstop : StopKeeps settings I) {init : LifecycleState → Prop} (hinit : ∀ s, init s → I s)
    {A : Processes → ProcessStep → Prop} {P : Processes}
    (h : (Pool.lts world (body settings) init).Reachable A P) : I P.state := by
  refine Pool.reachable_invariant hinit (fun op => keeps_of_triple (Holds.triple ?_)) h
  refine ((closed_blocks hI hidle hstop).body (fun id delta => Within.of_holds ?_) ?_).holds
  · exact (resting_single hI.still).of_triple fun _ _ =>
      triple_adjustActiveRequests hI.leaseKeeps id delta
  · exact fun _ _ _ _ _ _ _ => trivial

/-! ### A service that starts nothing -/

/-- A vLLM model, with the defaults of the configuration where it has any. -/
def vllmProfile (publicName : String) (estimatedVramMb : ℤ) : ModelProfile where
  publicName := publicName
  backendModel := publicName
  runtime := "vllm"
  artifact := none
  runtimeImage := none
  hostPortStart := 8101
  containerPort := 8000
  publicHost := "localhost"
  baseUrl := none
  dockerExtraArgs := []
  runtimeExtraArgs := []
  volumeMounts := []
  environment := []
  healthcheckPath := "/v1/models"
  warmupEnabled := true
  warmupPrompt := "Return exactly: ok"
  warmupMaxTokens := 8
  estimatedVramMb := estimatedVramMb
  safetyMarginMb := 0
  minReplicas := 0
  maxReplicas := 1
  idleTtlSeconds := 120
  loadStrategy := "none"
  lmsBinary := "lms"
  lmsGpu := none
  lmsContextLength := none
  lmsParallel := none
  lmsTtlSeconds := none
  preferredGpus := ["auto"]
  reloadMinDwellSeconds := 300
  reloadAllowBucketOnly := false

/-- A model that LM Studio serves, loaded by lifecycle. -/
def lmstudioProfile (publicName backendModel : String) (estimatedVramMb : ℤ) : ModelProfile :=
  { vllmProfile publicName estimatedVramMb with
    backendModel := backendModel
    runtime := "lmstudio"
    baseUrl := some "http://localhost:1234/v1"
    loadStrategy := "cli" }

/-- Settings of a service of one model; a digest is the text itself. -/
def settingsFor (dryRun : Bool) (profile : ModelProfile) : LifecycleSettings where
  dryRun := dryRun
  dockerBinary := "docker"
  profiles := ⟨[profile], List.nodup_singleton _⟩
  dynamicConfig := []
  dynamicProfile _ _ := .ok none
  dynamicAllowed _ := false
  sha1 text := text
  sha256 text := text

/-- The answers of an outside world that is in order, at a time. -/
def answersAt (time : DateTime) (gpus : List GpuState) (c : LifecycleCall) (s : LifecycleState) :
    c.Answer :=
  match c with
  | .now => if s.clock ≤ time then time else s.clock
  | .getGpus => .ok gpus
  | .loadedModels _ => []
  | .estimateVram _ => .ok none
  | .metadataForModel _ _ => []
  | .run _ => .ok ()
  | .waitForHealth _ _ => .ok ()
  | .getModels _ => .ok []
  | .postWarmup _ _ => .ok ()

lemma allowed_answersAt (time : DateTime) (gpus : List GpuState) (c : LifecycleCall)
    (s : LifecycleState) : world.allowed c (answersAt time gpus c s) s := by
  cases c with
  | now =>
    show s.clock ≤ if s.clock ≤ time then time else s.clock
    split
    · assumption
    · exact le_rfl
  | _ => trivial

def atSecond (n : Fin 1000) : DateTime := ⟨n.1 * 1000000, second_lt n⟩

/-- An operation begins. -/
def beginAt (settings : LifecycleSettings) (second : Fin 1000) (gpus : List GpuState)
    (P : Processes)
    (op : Operation) : Processes :=
  P.beginWith world (body settings) (answersAt (atSecond second) gpus) op

lemma run_beginAt {init : LifecycleState → Prop} (second : Fin 1000) (gpus : List GpuState)
    (P : Processes) (op : Operation) : (Pool.lts world (body settings) init).Run Lts.anyStep P
      (beginAt settings second gpus P op) :=
  Lts.Run.single (l := .begin op _) trivial (Pool.step_beginWith (allowed_answersAt _ gpus) P op)

end Orchestrator.Lifecycle
