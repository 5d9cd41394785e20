import Orchestrator.LiveLoads
import Orchestrator.Cleanup

/-!
The reconcile loop of lifecycle: a plan of one decision for each model, made before any is acted
on, and then the starts and reloads one after the other.
-/

namespace Orchestrator.Lifecycle

open Lib Lib.Coro Clock

/-! ### Shapes -/

/-- `profile_with_context_plan`; a recommendation of zero is none. -/
def profileWithContextPlan (profile : ModelProfile) (contextPlan : Option ContextPlan) :
    ModelProfile :=
  match contextPlan with
  | none => profile
  | some plan =>
    if plan.queuedTasks ≤ 0 then profile
    else { profile with
      lmsContextLength :=
        (plan.recommendedLmsContextLength.filter (· ≠ 0)).or profile.lmsContextLength
      lmsParallel := (plan.recommendedLmsParallel.filter (· ≠ 0)).or profile.lmsParallel }

/-- `profile_with_lmstudio_estimate` -/
def profileWithLmstudioEstimate (profile : ModelProfile) : Service ModelProfile :=
  if profile.runtime ≠ "lmstudio" then pure profile
  else .call (.estimateVram profile) fun
    | .ok (some estimate) =>
      pure (if estimate = 0 then profile else { profile with estimatedVramMb := estimate })
    | .ok none => pure profile
    | .error _ => pure profile

def lmsContextLengthFromInstance (i : BackendInstance) : Except Exn (Option ℤ) :=
  optionalInt (i.metadata.get "lms_context_length")

def lmsParallelFromInstance (i : BackendInstance) : Except Exn (Option ℤ) :=
  optionalInt (i.metadata.get "lms_parallel")

structure ReloadAssessment where
  reloadNeeded : Bool
  hardContextMismatch : Bool
  reloadReason : Option String
  noopReason : Option String

/-- A shape of the profile is wanted; zero is none. -/
def wanted (n : Option ℤ) : Option ℤ := n.filter (· ≠ 0)

def assessReloadNeed (currentContext currentParallel : Option ℤ) (profile : ModelProfile)
    (plan : ContextPlan) : ReloadAssessment :=
  let requiredContext := plan.maxRequiredContextTokens
  let below (current desired : Option ℤ) : Bool :=
    match current, wanted desired with
    | some c, some d => c < d
    | _, _ => false
  if (wanted profile.lmsContextLength).isSome && currentContext.isNone then
    ⟨true, true, some "backend_context_unknown", none⟩
  else if (wanted profile.lmsParallel).isSome && currentParallel.isNone then
    ⟨true, false, some "backend_parallel_unknown", none⟩
  else if currentContext.any fun c => 0 < requiredContext && c < requiredContext then
    ⟨true, true, some "backend_context_too_small_for_task", none⟩
  else if below currentContext profile.lmsContextLength && !profile.reloadAllowBucketOnly then
    ⟨false, false, none, some "current_context_satisfies_required_tokens"⟩
  else if below currentContext profile.lmsContextLength then
    ⟨true, false, some "backend_context_below_desired_bucket", none⟩
  else if below currentParallel profile.lmsParallel then
    ⟨true, false, some "backend_parallel_too_small", none⟩
  else ⟨false, false, none, none⟩

/-- `reload_dwell_satisfied`; an age that cannot be read counts as enough. -/
def reloadDwellSatisfied (profile : ModelProfile) (i : BackendInstance) : Service Bool :=
  if profile.reloadMinDwellSeconds ≤ 0 then pure true
  else match parseIso i.createdAt with
    | .error _ => pure true
    | .ok created => now.after <| onOk fun t =>
        pure ((profile.reloadMinDwellSeconds : ℚ) ≤
          (((t.1 : ℤ) - created.1 : ℤ) : ℚ) / 1000000 : Bool)

/-! ### Decisions -/

def shapeDecision (profile : ModelProfile) (i : BackendInstance) (action : ScaleAction)
    (reason : String) (currentContext currentParallel : Option ℤ) (plan : ContextPlan) :
    PlacementDecision where
  model := profile.publicName
  action := action
  gpuId := i.gpuIds.head?
  reason := reason
  requiredVramMb := profile.requiredVramMb
  availableVramMb := none
  instanceId := some i.instanceId
  lmsContextLength := profile.lmsContextLength
  lmsParallel := profile.lmsParallel
  currentLmsContextLength := currentContext
  currentLmsParallel := currentParallel
  contextPlan := some plan

/-- A decision about the model as a whole. -/
def modelDecision (profile : ModelProfile) (action : ScaleAction) (reason : String)
    (plan : Option ContextPlan) : PlacementDecision where
  model := profile.publicName
  action := action
  gpuId := none
  reason := reason
  requiredVramMb := profile.requiredVramMb
  availableVramMb := none
  instanceId := none
  lmsContextLength := profile.lmsContextLength
  lmsParallel := profile.lmsParallel
  currentLmsContextLength := none
  currentLmsParallel := none
  contextPlan := plan

/-- `reason or default` of an optional text. -/
def textOr (text : Option String) (default : String) : String :=
  match text.filter (· ≠ "") with
  | some t => t
  | none => default

/-- The loop of `reload_decision_for_context_plan`. -/
def reloadDecision (profile : ModelProfile) (plan : ContextPlan) :
    List BackendInstance → Service (Option PlacementDecision)
  | [] => pure none
  | i :: rest =>
    if i.state ≠ .ready && i.state ≠ .draining then reloadDecision profile plan rest
    else
      (lift (lmsContextLengthFromInstance i)).after <| onOk fun currentContext =>
      (lift (lmsParallelFromInstance i)).after <| onOk fun currentParallel =>
      let assessment := assessReloadNeed currentContext currentParallel profile plan
      let decision (action : ScaleAction) (reason : String) : Service (Option PlacementDecision) :=
        pure (some (shapeDecision profile i action reason currentContext currentParallel plan))
      if !assessment.reloadNeeded then
        match assessment.noopReason with
        | some reason => decision .noop reason
        | none => reloadDecision profile plan rest
      else
        (if assessment.hardContextMismatch then pure true
          else reloadDwellSatisfied profile i).after <|
          onOk fun satisfied =>
            if satisfied then
              decision .reload (textOr assessment.reloadReason "backend_shape_mismatch")
            else decision .noop "reload_hysteresis_min_dwell"

def reloadDecisionForContextPlan (profile : ModelProfile) (activeInstances : List BackendInstance)
    (contextPlan : Option ContextPlan) : Service (Option PlacementDecision) :=
  match contextPlan with
  | none => pure none
  | some plan =>
    if profile.runtime ≠ "lmstudio" then pure none else reloadDecision profile plan activeInstances

/-- The decisions of a model: what to start, reload or leave. -/
def decide (profile : ModelProfile) (gpus : List GpuState) (registry : Registry)
    (activeInstances : List BackendInstance) (desiredCount queueLength : ℤ)
    (contextPlan : Option ContextPlan) : Service (List PlacementDecision) :=
  let activeCount : ℤ := activeInstances.length
  let satisfied : List PlacementDecision :=
    if desiredCount = activeCount then
      [modelDecision profile .noop "desired_replicas_satisfied" contextPlan]
    else []
  if contextPlan.any fun plan => !plan.oversizedTasks.isEmpty then
    pure [modelDecision profile .rejectOversized "context_plan_has_oversized_tasks" contextPlan]
  else if activeCount < desiredCount then pure [chooseGpu profile gpus registry]
  else if 0 < queueLength then
    (reloadDecisionForContextPlan profile activeInstances contextPlan).after <| onOk fun
      | some decision => pure [decision]
      | none => pure satisfied
  else pure satisfied

/-- The plan of one model. -/
structure ModelPlan where
  model : String
  readyReplicas : ℤ
  activeReplicas : ℤ
  desiredReplicas : ℤ
  decisions : List PlacementDecision

def planModel (gpus : List GpuState) (queueLengths : Dict String ℤ)
    (contextPlans : Dict String ContextPlan) (profile : ModelProfile) : Service ModelPlan :=
  let contextPlan := contextPlans.get? profile.publicName
  (profileWithLmstudioEstimate (profileWithContextPlan profile contextPlan)).after <|
    onOk fun effective =>
    .get fun s =>
    let readyCount : ℤ := (s.registry.readyForModel profile.publicName).length
    (mapEach (instanceWithLiveLmstudioShape effective)
        (s.registry.activeForModel profile.publicName)).after <| onOk fun activeInstances =>
      let queueLength := max ((queueLengths.get? profile.publicName).getD 0)
        ((contextPlan.map ContextPlan.queuedTasks).getD 0)
      let desiredCount := desiredReplicas effective readyCount queueLength
      (decide effective gpus s.registry activeInstances desiredCount queueLength
        contextPlan).after <|
        onOk fun decisions => pure {
          model := profile.publicName
          readyReplicas := readyCount
          activeReplicas := activeInstances.length
          desiredReplicas := desiredCount
          decisions := decisions }

variable (settings : LifecycleSettings)

def gpuStates : Service (List GpuState) := .call .getGpus fun r => lift r

def plan (queueLengths : Dict String ℤ) (contextPlans : Dict String ContextPlan) :
    Service (List ModelPlan) :=
  gpuStates.after <| onOk fun gpus =>
    mapEach (planModel gpus queueLengths contextPlans) settings.profiles.list

/-! ### Acting on a plan -/

def reloadInstance (profile : ModelProfile) (decision : PlacementDecision) (gpus : List GpuState) :
    Service Unit :=
  match decision.instanceId.filter (· ≠ "") with
  | none => pure ()
  | some instanceId => (getInstance instanceId).after <| onOk fun record =>
    (instanceWithLiveLmstudioShape profile record).after <| onOk fun i =>
      if 0 < i.activeRequests then
        if i.state = .draining then pure ()
        else (markState i.instanceId .draining).after <| onOk fun _ => pure ()
      else if i.runtime = "lmstudio" && !i.dryRun &&
          !(i.metadata.get "lmstudio_loaded_with_lms").truthy then pure ()
      else (stopInstance settings profile i).after <| onOk fun _ =>
        (startInstance settings profile decision gpus).after <| onOk fun replacement =>
          (upsert replacement).after <| onOk fun replacement =>
            (initializeInstance settings profile replacement).after <| onOk fun _ => pure ()

def actOn (profile : ModelProfile) (gpus : List GpuState) (decision : PlacementDecision) :
    Service Unit :=
  match decision.action with
  | .reload => reloadInstance settings profile decision gpus
  | .start =>
    if (decision.gpuId.filter (· ≠ "")).isNone then pure ()
    else (startInstance settings profile decision gpus).after <| onOk fun i =>
      (upsert i).after <| onOk fun i =>
        (initializeInstance settings profile i).after <| onOk fun _ => pure ()
  | _ => pure ()

/-- The decisions of one model, acted on. -/
def actOnModel (contextPlans : Dict String ContextPlan) (modelPlan : ModelPlan) : Service Unit :=
  match settings.profiles.get? modelPlan.model with
  | none => raise (.keyError modelPlan.model)
  | some configured =>
    (profileWithLmstudioEstimate
        (profileWithContextPlan configured (contextPlans.get? modelPlan.model))).after <|
      onOk fun profile => gpuStates.after <| onOk fun gpus =>
        forEach (actOn settings profile gpus) modelPlan.decisions

def reconcile (queueLengths : Dict String ℤ) (contextPlans : Dict String ContextPlan) :
    Service (List ModelPlan) :=
  (syncLiveLmstudioState settings).after <| onOk fun _ =>
    (stopIdleInstances settings queueLengths settings.profiles.list).after <| onOk fun _ =>
      (plan settings queueLengths contextPlans).after <| onOk fun plans =>
        (forEach (actOnModel settings contextPlans) plans).after <| onOk fun _ => pure plans

end Orchestrator.Lifecycle
