import Orchestrator.FieldChecks

/-!
Durable tasks: what a submission asks for, what the store keeps about it, and the three JSON
forms of a stored task.

The fields a submission sets are checked once, when it is parsed; their types say so.
-/

namespace Orchestrator

open PyText FieldChecks

structure QueueTask where
  tenant : NonBlank
  project : NonBlank
  service : NonBlank
  task : NonBlank
  jobId : NonBlank
  idempotencyKey : NonBlank
  priority : NonBlank
  model : NonBlank
  endpoint : NonBlank
  estimatedInputTokens : ℕ
  maxOutputTokens : Positive
  requiredContextTokens : Positive
  payload : Mapping
  orchestration : Mapping
  artifacts : Mapping
  labels : Mapping

/-- The key of the idempotency index. -/
def QueueTask.pair (t : QueueTask) : String × String := (t.tenant.1, t.idempotencyKey.1)

/-- The states the store and its clients give a task. -/
def knownStates : List String :=
  ["submitted", "queued", "allocating", "starting", "warming", "running", "succeeded", "failed",
    "cancelled"]

/-- A state; a file may hold texts that are no known state. -/
inductive TaskState
  | submitted
  | queued
  | allocating
  | starting
  | warming
  | running
  | succeeded
  | failed
  | cancelled
  | other (text : NonBlank) (unknown : text.1 ∉ knownStates)
  deriving DecidableEq

namespace TaskState

def text : TaskState → NonBlank
  | submitted => ⟨"submitted", by decide⟩
  | queued => ⟨"queued", by decide⟩
  | allocating => ⟨"allocating", by decide⟩
  | starting => ⟨"starting", by decide⟩
  | warming => ⟨"warming", by decide⟩
  | running => ⟨"running", by decide⟩
  | succeeded => ⟨"succeeded", by decide⟩
  | failed => ⟨"failed", by decide⟩
  | cancelled => ⟨"cancelled", by decide⟩
  | other s _ => s

def ofText (s : NonBlank) : TaskState :=
  if h : s.1 ∈ knownStates then
    if s.1 = "submitted" then submitted
    else if s.1 = "queued" then queued
    else if s.1 = "allocating" then allocating
    else if s.1 = "starting" then starting
    else if s.1 = "warming" then warming
    else if s.1 = "running" then running
    else if s.1 = "succeeded" then succeeded
    else if s.1 = "failed" then failed
    else cancelled
  else other s h

@[simp] lemma ofText_text (s : TaskState) : ofText s.text = s := by
  cases s with
  | other s h => exact dif_neg h
  | _ => decide

/-- `ACTIVE_STATES` -/
def isActive : TaskState → Bool
  | submitted | queued | allocating | starting | warming | running => true
  | _ => false

/-- `CLAIMABLE_STATES` -/
def isClaimable (s : TaskState) : Bool := s = queued

/-- The states that `cancel_task` leaves alone. -/
def isTerminal : TaskState → Bool
  | succeeded | failed | cancelled => true
  | _ => false

end TaskState

structure StoredTask extends QueueTask where
  taskId : NonBlank
  state : TaskState
  createdAt : String
  updatedAt : String
  attemptCount : ℕ
  startedAt : Option String
  finishedAt : Option String
  nextAttemptAt : Option String
  result : Option Mapping
  error : Option Mapping

namespace StoredTask

def optStr : Option String → Json
  | some s => .str s
  | none => .null

def optObj : Option Mapping → Json
  | some m => .obj m
  | none => .null

def toSummary (t : StoredTask) (reused : Bool) : Mapping :=
  [("task_id", .str t.taskId.1),
   ("tenant", .str t.tenant.1),
   ("project", .str t.project.1),
   ("service", .str t.service.1),
   ("task", .str t.task.1),
   ("job_id", .str t.jobId.1),
   ("idempotency_key", .str t.idempotencyKey.1),
   ("priority", .str t.priority.1),
   ("model", .str t.model.1),
   ("endpoint", .str t.endpoint.1),
   ("estimated_input_tokens", .int t.estimatedInputTokens),
   ("max_output_tokens", .int t.maxOutputTokens.1),
   ("required_context_tokens", .int t.requiredContextTokens.1),
   ("state", .str t.state.text.1),
   ("attempt_count", .int t.attemptCount),
   ("next_attempt_at", optStr t.nextAttemptAt),
   ("created_at", .str t.createdAt),
   ("updated_at", .str t.updatedAt),
   ("reused", .bool reused)]

def toDetail (t : StoredTask) : Mapping :=
  (t.toSummary false).merge
    [("payload", .obj t.payload),
     ("orchestration", .obj t.orchestration),
     ("artifacts", .obj t.artifacts),
     ("labels", .obj t.labels),
     ("attempt_count", .int t.attemptCount),
     ("started_at", optStr t.startedAt),
     ("finished_at", optStr t.finishedAt),
     ("next_attempt_at", optStr t.nextAttemptAt),
     ("result", optObj t.result),
     ("error", optObj t.error)]

def toRecord (t : StoredTask) : Mapping :=
  [("task_id", .str t.taskId.1),
   ("tenant", .str t.tenant.1),
   ("project", .str t.project.1),
   ("service", .str t.service.1),
   ("task", .str t.task.1),
   ("job_id", .str t.jobId.1),
   ("idempotency_key", .str t.idempotencyKey.1),
   ("priority", .str t.priority.1),
   ("model", .str t.model.1),
   ("endpoint", .str t.endpoint.1),
   ("estimated_input_tokens", .int t.estimatedInputTokens),
   ("max_output_tokens", .int t.maxOutputTokens.1),
   ("required_context_tokens", .int t.requiredContextTokens.1),
   ("state", .str t.state.text.1),
   ("payload", .obj t.payload),
   ("orchestration", .obj t.orchestration),
   ("artifacts", .obj t.artifacts),
   ("labels", .obj t.labels),
   ("created_at", .str t.createdAt),
   ("updated_at", .str t.updatedAt),
   ("attempt_count", .int t.attemptCount),
   ("started_at", optStr t.startedAt),
   ("finished_at", optStr t.finishedAt),
   ("next_attempt_at", optStr t.nextAttemptAt),
   ("result", optObj t.result),
   ("error", optObj t.error)]

/-- `from_record`; `now` is the reading of `now_iso` for missing time stamps. -/
def fromRecord (now : String) (record : Mapping) : Except Exn StoredTask := do
  let taskId ← stringValue (record.get "task_id") "task_id"
  let tenant ← stringValue (record.get "tenant") "tenant"
  let project ← stringValue (record.get "project") "project"
  let service ← stringValue (record.get "service") "service"
  let task ← stringValue (record.get "task") "task"
  let jobId ← stringValue (record.get "job_id") "job_id"
  let idempotencyKey ← stringValue (record.get "idempotency_key") "idempotency_key"
  let priority ← stringValue (record.get "priority") "priority"
  let model ← stringValue (record.get "model") "model"
  let endpoint ← stringValue (record.get "endpoint") "endpoint"
  let estimated ← optionalNonNegativeInt (record.get "estimated_input_tokens")
    "estimated_input_tokens"
  let maxOutput ← optionalPositiveInt (record.get "max_output_tokens") "max_output_tokens"
  let required ← optionalPositiveInt (record.get "required_context_tokens")
    "required_context_tokens"
  let state ← stringValue ((record.get "state").or (.str "queued")) "state"
  let payload ← optionalMapping (record.get "payload") "payload"
  let orchestration ← optionalMapping (record.get "orchestration") "orchestration"
  let artifacts ← optionalMapping (record.get "artifacts") "artifacts"
  let labels ← optionalMapping (record.get "labels") "labels"
  let attemptCount ← optionalNonNegativeInt (record.get "attempt_count") "attempt_count"
  let result ← optionalMappingOrNone (record.get "result") "result"
  let error ← optionalMappingOrNone (record.get "error") "error"
  pure {
    taskId, tenant, project, service, task, jobId, idempotencyKey, priority, model, endpoint
    estimatedInputTokens := estimated.getD 0
    maxOutputTokens := maxOutput.getD ⟨1024, one_le_1024⟩
    requiredContextTokens := required.getD ⟨1, by decide⟩
    state := .ofText state
    payload, orchestration, artifacts, labels
    createdAt := (optionalString (record.get "created_at")).getD now
    updatedAt := (optionalString (record.get "updated_at")).getD now
    attemptCount := attemptCount.getD 0
    startedAt := optionalString (record.get "started_at")
    finishedAt := optionalString (record.get "finished_at")
    nextAttemptAt := optionalString (record.get "next_attempt_at")
    result, error }

end StoredTask

end Orchestrator
