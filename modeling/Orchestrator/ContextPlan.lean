import Orchestrator.TaskStore

/-!
Queue lengths and context plans: what the queue proxy tells lifecycle about the tasks of each
model, and what it shows to submitters.
-/

namespace Orchestrator

open Lib FieldChecks PyText

/-- An entry of `task_contexts`. -/
structure TaskContext where
  taskId : String
  jobId : String
  requiredContextTokens : ℕ
  estimatedInputTokens : ℕ
  maxOutputTokens : ℕ

structure ContextPlan where
  queuedTasks : ℕ
  maxRequiredContextTokens : ℕ
  recommendedLmsContextLength : ℕ
  requestedParallel : ℕ
  recommendedLmsParallel : ℕ
  totalSlotContextTokens : ℕ
  contextCapTokens : Option ℕ
  oversizedTasks : List String
  reloadRequired : Bool
  taskContexts : List TaskContext

namespace ContextPlan

/-- The JSON object that `context_plan_for_model` returns. -/
def toMapping (p : ContextPlan) : Mapping :=
  [("queued_tasks", .int p.queuedTasks),
   ("max_required_context_tokens", .int p.maxRequiredContextTokens),
   ("recommended_lms_context_length", .int p.recommendedLmsContextLength),
   ("requested_parallel", .int p.requestedParallel),
   ("recommended_lms_parallel", .int p.recommendedLmsParallel),
   ("total_slot_context_tokens", .int p.totalSlotContextTokens),
   ("context_cap_tokens", match p.contextCapTokens with
      | some n => .int n
      | none => .null),
   ("oversized_tasks", .arr (p.oversizedTasks.map .str)),
   ("reload_required", .bool p.reloadRequired),
   ("task_contexts", .arr (p.taskContexts.map fun c => .obj
      [("task_id", .str c.taskId),
       ("job_id", .str c.jobId),
       ("required_context_tokens", .int c.requiredContextTokens),
       ("estimated_input_tokens", .int c.estimatedInputTokens),
       ("max_output_tokens", .int c.maxOutputTokens)]))]

def contextBuckets : List ℕ := [2048, 4096, 8192, 16384, 32768, 65536, 131072]

def contextBucket (requiredContextTokens : ℕ) : ℕ :=
  let required := max 1 requiredContextTokens
  (contextBuckets.find? fun bucket => required ≤ bucket).getD required

def requestedParallelForTask (t : StoredTask) : Except Exn ℕ := do
  let own ← optionalPositiveInt (t.orchestration.get "lms_parallel") "lms_parallel"
  match own with
  | some n => pure n.1
  | none =>
    let common ← optionalPositiveInt (t.orchestration.get "max_parallel") "max_parallel"
    match common with
    | some n => pure n.1
    | none => pure 1

def contextCapForTask (t : StoredTask) : Except Exn (Option ℕ) :=
  (optionalPositiveInt (t.orchestration.get "lms_context_length") "lms_context_length").map
    (Option.map Subtype.val)

/-- The results of a check on every task, or the first exception. -/
def checkEach {α : Type} (check : StoredTask → Except Exn α) : List StoredTask → Except Exn (List α)
  | [] => .ok []
  | t :: rest => do
    let a ← check t
    let others ← checkEach check rest
    pure (a :: others)

def contextPlanForModel (tasks : List StoredTask) : Except Exn ContextPlan := do
  let maxRequiredContext := (tasks.map fun t => t.requiredContextTokens.1).foldr max 0
  let parallels ← checkEach requestedParallelForTask tasks
  let requestedParallel := match parallels with
    | [] => 1
    | n :: rest => rest.foldr max n
  let desiredParallel := max 1 (min tasks.length requestedParallel)
  let caps ← checkEach contextCapForTask tasks
  let contextCap := match caps.filterMap id with
    | [] => none
    | n :: rest => some (rest.foldr min n)
  let recommended := contextBucket maxRequiredContext
  let oversized := tasks.filter fun t => match contextCap with
    | some cap => cap < t.requiredContextTokens.1
    | none => false
  let recommended := match contextCap with
    | some cap => min recommended cap
    | none => recommended
  pure {
    queuedTasks := tasks.length
    maxRequiredContextTokens := maxRequiredContext
    recommendedLmsContextLength := recommended
    requestedParallel := requestedParallel
    recommendedLmsParallel := desiredParallel
    totalSlotContextTokens := recommended * desiredParallel
    contextCapTokens := contextCap
    oversizedTasks := oversized.map fun t => t.jobId.1
    reloadRequired := false
    taskContexts := tasks.map fun t =>
      ⟨t.taskId.1, t.jobId.1, t.requiredContextTokens.1, t.estimatedInputTokens,
        t.maxOutputTokens.1⟩ }

/-- The plans of the groups of a list of tasks by model, in the order of the models. -/
def plansByModel (tasks : List StoredTask) : Except Exn (List (String × ContextPlan)) :=
  let groups := (Dict.groupBy (fun t : StoredTask => t.model.1) tasks).entries.insertionSort
    fun a b => a.1 ≤ b.1
  let rec plans : List (String × List StoredTask) → Except Exn (List (String × ContextPlan))
    | [] => .ok []
    | (model, group) :: rest => do
      let plan ← contextPlanForModel group
      let others ← plans rest
      pure ((model, plan) :: others)
  plans groups

def contextPlansForTasks (tasks : List StoredTask) : Except Exn (List (String × ContextPlan)) :=
  plansByModel (tasks.filter fun t => t.state = .queued)

def queueLengthsForTasks (tasks : List StoredTask) : List (String × ℕ) :=
  (Dict.countBy (fun t : StoredTask => t.model.1)
    (tasks.filter fun t => t.state = .queued)).entries.insertionSort fun a b => a.1 ≤ b.1

end ContextPlan

namespace TaskStore

def activeTasks (s : TaskStore) : List StoredTask := s.tasks.filter fun t => t.state.isActive

def queueLengthsByModel (s : TaskStore) : List (String × ℕ) :=
  (Dict.countBy (fun t : StoredTask => t.model.1) s.activeTasks).entries

def contextPlansByModel (s : TaskStore) : Except Exn (List (String × ContextPlan)) :=
  ContextPlan.plansByModel s.activeTasks

end TaskStore

end Orchestrator
