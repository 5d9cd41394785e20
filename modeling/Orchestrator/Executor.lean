import Orchestrator.ContextPlan
import Orchestrator.Policy
import Orchestrator.Routing

/-!
The durable task executor: what happens to a claimed task, from the claim to the next turn of
the loop.

The state is the task store and, for the sake of the results, the outcomes recorded since the
claim.
-/

namespace Orchestrator

open Lib Lib.Coro Clock

/-- A recording operation of the store. -/
inductive Recorded
  | result
  | error
  | retry
  deriving DecidableEq

structure ExecutorState where
  store : TaskStore
  recorded : List Recorded

namespace Executor

open BackendResolver TaskStore

/-- A store operation that records an outcome. -/
def record (outcome : Recorded) (op : TaskStore → Except Exn StoredTask × TaskStore) :
    Proxy ExecutorState StoredTask :=
  .get fun s =>
    match op s.store with
    | (.ok t, store) => .set ⟨store, s.recorded ++ [outcome]⟩ (pure t)
    | (.error e, store) => .set ⟨store, s.recorded⟩ (raise e)

/-! ### Capacity -/

inductive Capacity
  | skipped
  | failed (errorType : String)
  | reconciled (result : Json)

def reconcilePayload (queueLengths : List (String × ℕ))
    (contextPlans : List (String × ContextPlan)) : Mapping :=
  [("queue_lengths", .obj (queueLengths.map fun p => (p.1, .int p.2))),
   ("context_plans", .obj (contextPlans.map fun p => (p.1, .obj p.2.toMapping)))]

def reconcileCapacity {σ : Type} (settings : Settings) (queueLengths : List (String × ℕ))
    (contextPlans : List (String × ContextPlan)) : Proxy σ Capacity :=
  if !settings.hasRegistryClient then pure .skipped
  else exceptHTTP (RegistryClient.reconcile (reconcilePayload queueLengths contextPlans))
    (fun e => pure (.failed e.name))
    (fun result => pure (.reconciled result))

/-- `reconcile_current_task_capacity`, without the idle reconcile it schedules in the
background. -/
def reconcileCurrentTaskCapacity (settings : Settings) : Proxy ExecutorState Capacity :=
  .get fun s => do
    let contextPlans ← lift s.store.contextPlansByModel
    reconcileCapacity settings s.store.queueLengthsByModel contextPlans

/-! ### Failures -/

/-- `retry_delay_seconds`; powers of two from `2 ** 1024` on do not fit a float. -/
def retryDelaySeconds (settings : Settings) (attemptCount : ℕ) : Except Exn ℚ :=
  let exponent := attemptCount - 1
  if 1024 ≤ exponent then
    .error ⟨.other, "OverflowError", "int too large to convert to float"⟩
  else
    .ok (min (settings.taskExecutorRetryBaseSeconds.1 * 2 ^ exponent)
      settings.taskExecutorRetryMaxSeconds.1)

/-- The delay and the time of the next attempt, for a failure at `now`. -/
def retryAt (settings : Settings) (attemptCount : ℕ) (now : DateTime) :
    Except Exn (ℚ × DateTime) := do
  let delay ← retryDelaySeconds settings attemptCount
  let next ← addSeconds now delay
  pure (delay, next)

def isRetryableUpstreamStatus (statusCode : ℕ) : Bool :=
  statusCode = 408 || statusCode = 409 || statusCode = 425 || statusCode = 429 ||
    500 ≤ statusCode

def enrichedError (settings : Settings) (task : StoredTask) (error : Mapping) (retryable : Bool) :
    Mapping :=
  error.merge
    [("retryable", .bool retryable),
     ("attempt_count", .int task.attemptCount),
     ("max_attempts", .int settings.taskExecutorMaxAttempts.1)]

/-- The branch of `record_task_failure` that schedules another attempt. -/
def recordTaskRetry (settings : Settings) (task : StoredTask) (error : Mapping) :
    Proxy ExecutorState StoredTask :=
  .call .datetimeNow fun (now : DateTime) => do
    let (delay, next) ← lift (retryAt settings task.attemptCount now)
    let error := (error.set "next_attempt_at" (.str (nowIso next))).set "retry_delay_seconds"
      (.float ⟨settings.floatText delay, .fin delay⟩)
    .call .utcNow fun (now : DateTime) =>
      record .retry (recordRetry now task.taskId.1 error (nowIso next))

/-- The branch of `record_task_failure` that gives up. -/
def recordTaskError (task : StoredTask) (error : Mapping) : Proxy ExecutorState StoredTask :=
  .call .utcNow fun (now : DateTime) => do
    let failed ← record .error (recordError now task.taskId.1 error)
    let _ ← lift (secondsBetween failed.startedAt failed.finishedAt)
    pure failed

def willRetry (settings : Settings) (task : StoredTask) (retryable : Bool) : Bool :=
  retryable && task.attemptCount < settings.taskExecutorMaxAttempts.1

def recordTaskFailure (settings : Settings) (task : StoredTask) (error : Mapping)
    (retryable : Bool) : Proxy ExecutorState StoredTask :=
  if willRetry settings task retryable then
    recordTaskRetry settings task (enrichedError settings task error retryable)
  else recordTaskError task (enrichedError settings task error retryable)

def recordTaskFailureAndReconcile (settings : Settings) (task : StoredTask) (error : Mapping)
    (retryable : Bool) : Proxy ExecutorState Unit := do
  let _ ← recordTaskFailure settings task error retryable
  let _ ← reconcileCurrentTaskCapacity settings
  pure ()

/-! ### The payload -/

def endsWith (s suffix : String) : Bool := suffix.toList.isSuffixOf s.toList

/-- `isinstance(value, list) and bool(value)` -/
def isNonEmptyList : Json → Bool
  | .arr l => !l.isEmpty
  | _ => false

def invalidTaskPayloadError (task : StoredTask) (message : String) : Mapping :=
  [("type", .str "invalid_task_payload"),
   ("message", .str message),
   ("endpoint", .str task.endpoint.1)]

def validateExecutableTaskPayload (task : StoredTask) : Option Mapping :=
  let endpoint := (PyText.strip task.endpoint.1).toLower
  let given (key : String) : Bool := !(task.payload.get key).isNoneOrEmpty
  if endsWith endpoint "/chat/completions" then
    if isNonEmptyList (task.payload.get "messages") then none
    else some (invalidTaskPayloadError task "chat completions tasks require payload.messages.")
  else if endsWith endpoint "/responses" then
    if given "input" || isNonEmptyList (task.payload.get "messages") then none
    else some (invalidTaskPayloadError task
      "responses tasks require payload.input or payload.messages.")
  else if endsWith endpoint "/completions" then
    if given "prompt" then none
    else some (invalidTaskPayloadError task "completions tasks require payload.prompt.")
  else if endsWith endpoint "/embeddings" then
    if given "input" then none
    else some (invalidTaskPayloadError task "embeddings tasks require payload.input.")
  else if given "messages" || given "input" || given "prompt" then none
  else some (invalidTaskPayloadError task
    "durable task payload must contain OpenAI-compatible input.")

/-- The payload that is posted upstream. -/
def upstreamPayload (policy : ModelPolicy) (instanceId : Option String) (payload : Mapping) :
    Mapping :=
  let clean := stripInternalFields payload
  let clean := if clean.has "model" then clean else clean.set "model" (.str policy.publicName)
  if instanceId.isSome then clean.set "model" (.str policy.backendModel) else clean

/-- `"json" in content_type.lower()` -/
def isJsonContent (contentType : String) : Bool :=
  contentType.toLower.toList.tails.any fun l => "json".toList.isPrefixOf l

def responseBody (r : HttpResponse) : Except Exn Json :=
  if !isJsonContent r.contentType then .ok (.str r.text)
  else match r.json with
    | .ok body => .ok body
    | .error e => if e.kind = .jsonDecode then .ok (.str r.text) else .error e

/-! ### The execution of one task -/

def instanceJson : Option String → Json
  | some id => .str id
  | none => .null

/-- The `try` statement of `execute_stored_task`: the response, or nothing if the request failed
and the failure has been recorded. -/
def postUpstream (settings : Settings) (policy : ModelPolicy) (task : StoredTask) (baseUrl : String)
    (instanceId : Option String) : Proxy ExecutorState (Option HttpResponse) :=
  ensuring
    (exceptHTTP
      (.call (.postUpstream (openaiUrl baseUrl task.endpoint.1 false)
        (upstreamPayload policy instanceId task.payload)) fun (r : Except Exn HttpResponse) =>
          lift r)
      (fun e => do
        recordTaskFailureAndReconcile settings task
          [("type", .str "upstream_request_failed"),
           ("message", .str "Upstream LLM gateway request failed."),
           ("error_type", .str e.name),
           ("backend_instance_id", instanceJson instanceId)] true
        pure none)
      (fun response => pure (some response)))
    (release settings instanceId)

/-- The part of `execute_stored_task` after the response. -/
def recordResponse (settings : Settings) (task : StoredTask) (instanceId : Option String)
    (response : HttpResponse) : Proxy ExecutorState Unit := do
  let body ← lift (responseBody response)
  if 400 ≤ response.statusCode then
    recordTaskFailureAndReconcile settings task
      [("type", .str "upstream_status"),
       ("message", .str "Upstream LLM backend returned an error status."),
       ("status_code", .int response.statusCode),
       ("body", body),
       ("backend_instance_id", instanceJson instanceId)]
      (isRetryableUpstreamStatus response.statusCode)
  else
    .call .utcNow fun (now : DateTime) => do
      let completed ← record .result (recordResult now task.taskId.1
        [("status_code", .int response.statusCode),
         ("body", body),
         ("backend_instance_id", instanceJson instanceId)])
      let _ ← lift (secondsBetween completed.startedAt completed.finishedAt)
      let _ ← reconcileCurrentTaskCapacity settings
      pure ()

def executeStoredTask (settings : Settings) (policies : PolicyRegistry) (task : StoredTask) :
    Proxy ExecutorState Unit :=
  if task.payload.isEmpty then
    recordTaskFailureAndReconcile settings task
      [("type", .str "missing_task_payload"),
       ("message",
         .str "Durable task execution requires a stored OpenAI-compatible payload.")] false
  else match validateExecutableTaskPayload task with
    | some payloadError => recordTaskFailureAndReconcile settings task payloadError false
    | none => do
      let policy := policies.resolve task.model.1
      let (baseUrl, instanceId) ← resolve settings policy.publicName task.orchestration
      match baseUrl with
      | none =>
        recordTaskFailureAndReconcile settings task
          [("type", .str "no_ready_backend"),
           ("message", .str "No ready backend instance is available for this task.")] true
      | some baseUrl => do
        let sent ← postUpstream settings policy task baseUrl instanceId
        match sent with
        | none => pure ()
        | some response => recordResponse settings task instanceId response

/-- One turn of `task_executor_loop` after a claim. The loop goes on if it returns. -/
def processTask (settings : Settings) (policies : PolicyRegistry) (task : StoredTask) :
    Proxy ExecutorState Unit := do
  let _ ← lift (secondsBetween (some task.createdAt) task.startedAt)
  (executeStoredTask settings policies task).after fun
    | .ok _ => pure ()
    | .error e =>
      if e.isException then
        recordTaskFailureAndReconcile settings task
          [("type", .str e.name), ("message", .str e.message)] true
      else raise e

end Executor

end Orchestrator
