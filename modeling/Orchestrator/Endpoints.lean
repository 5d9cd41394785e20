import Orchestrator.Executor
import Orchestrator.TaskParse

/-!
The task endpoints of the queue proxy: from a request to the status and the JSON body of the
response.
-/

namespace Orchestrator.Endpoints

open Lib Lib.Coro Clock Executor BackendResolver TaskStore

/-- What the task endpoints read of a request. -/
structure Request where
  authorization : Option String
  tenantParam : Option String
  tenantHeader : Option String
  state : Option String
  model : Option String
  limit : Option String
  taskId : String
  /-- what `request.json()` returns or raises -/
  json : Except Exn Json

structure Response where
  status : ℕ
  body : Mapping

abbrev Endpoint := Proxy ExecutorState Response

def errorResponse (statusCode : ℕ) (errorType message : String) : Response :=
  ⟨statusCode, [("error", .obj [("type", .str errorType), ("message", .str message)])]⟩

/-- The check of the API key, where one is set. -/
def validateProxyAuth (settings : Settings) (request : Request) : Option Response :=
  if settings.queueProxyApiKey = "" then none
  else if request.authorization.getD "" ≠ "Bearer " ++ settings.queueProxyApiKey then
    some (errorResponse 401 "unauthorized" "Missing or invalid queue proxy API key.")
  else none

def tenantFromRequest (request : Request) : Option String :=
  let tenant := match request.tenantParam with
    | some tenant => if tenant = "" then request.tenantHeader else some tenant
    | none => request.tenantHeader
  (tenant.map PyText.strip).filter (· ≠ "")

def missingTenantResponse : Response :=
  errorResponse 400 "missing_tenant"
    "Task status requests require tenant query parameter or X-Tenant-ID header."

/-- `max(1, min(int(raw_limit), most))` -/
def readLimit (raw : Option String) (default_ : String) (most : ℤ) : Option ℤ :=
  (PyText.parseInt (raw.getD default_)).map fun n => max 1 (min n most)

def invalidLimitResponse : Response :=
  errorResponse 400 "invalid_task_query" "limit must be an integer."

def notFoundResponse : Response :=
  errorResponse 404 "task_not_found" "Task was not found for this tenant."

/-! ### Capacity -/

def skippedJson : Json :=
  .obj [("state", .str "skipped"), ("reason", .str "backend_registry_url_not_configured")]

def failedJson (errorType : String) : Json :=
  .obj [("state", .str "failed"), ("error_type", .str errorType)]

def capacityJson : Capacity → Json
  | .skipped => skippedJson
  | .failed errorType => failedJson errorType
  | .reconciled result => .obj [("state", .str "reconciled"), ("result", result)]

/-- The client's `explain_plan` sends what `reconcile` sends, to another path. -/
def explainCapacity (settings : Settings) (queueLengths : List (String × ℕ))
    (contextPlans : List (String × ContextPlan)) : Proxy ExecutorState Json :=
  if !settings.hasRegistryClient then pure skippedJson
  else exceptHTTP
    (.call (.postExplain (reconcilePayload queueLengths contextPlans))
      fun (r : Except Exn HttpResponse) => lift (RegistryClient.reconcileResult r))
    (fun e => pure (failedJson e.name))
    (fun result => pure (.obj [("state", .str "explained"), ("result", result)]))

/-! ### Bodies -/

def queueLengthsJson (queueLengths : List (String × ℕ)) : Json :=
  .obj (queueLengths.map fun p => (p.1, .int p.2))

def contextPlansJson (plans : List (String × ContextPlan)) : Json :=
  .obj (plans.map fun p => (p.1, .obj p.2.toMapping))

def submitBody (accepted reused : List StoredTask) (queueLengths : List (String × ℕ))
    (contextPlans : List (String × ContextPlan)) (capacity : Json) : Mapping :=
  [("accepted_tasks", .int accepted.length),
   ("reused_tasks", .int reused.length),
   ("queue_lengths", queueLengthsJson queueLengths),
   ("context_plans", contextPlansJson contextPlans),
   ("tasks", .arr (accepted.map (fun t => .obj (t.toSummary false)) ++
     reused.map (fun t => .obj (t.toSummary true)))),
   ("capacity", capacity)]

def explainBody (tenant : String) (tasks : List StoredTask) (queueLengths : List (String × ℕ))
    (contextPlans : List (String × ContextPlan)) (capacity : Json) : Mapping :=
  [("tenant", .str tenant),
   ("scope", .str "tenant_queued_tasks"),
   ("queue_lengths", queueLengthsJson queueLengths),
   ("context_plans", contextPlansJson contextPlans),
   ("tasks", .arr (tasks.map fun t => .obj (t.toSummary false))),
   ("capacity", capacity)]

/-! ### The endpoints -/

/-- What an endpoint does for an authorized request. -/
def authorized (settings : Settings) (request : Request) (endpoint : Endpoint) : Endpoint :=
  match validateProxyAuth settings request with
  | some response => pure response
  | none => endpoint

/-- The common beginning of the endpoints for one tenant. -/
def forTenant (settings : Settings) (request : Request) (endpoint : String → Endpoint) : Endpoint :=
  authorized settings request
    (match tenantFromRequest request with
    | none => pure missingTenantResponse
    | some tenant => endpoint tenant)

def stamped (stamps : ℕ → Stamp) (tasks : List QueueTask) : List (QueueTask × Stamp) :=
  tasks.mapIdx fun i task => (task, stamps i)

/-- The part of `submit_task_queue` after the submission, which left `store`. -/
def submitted (settings : Settings) (store : TaskStore)
    (r : Except Exn (List StoredTask × List StoredTask)) : Endpoint := do
  let (accepted, reused) ← lift r
  let contextPlans ← lift store.contextPlansByModel
  let capacity ← reconcileCapacity settings store.queueLengthsByModel contextPlans
  pure ⟨202, submitBody accepted reused store.queueLengthsByModel contextPlans
    (capacityJson capacity)⟩

/-- `POST /tasks/queue`, where the `i`-th task would get the `i`-th stamp. -/
def submitTaskQueue (settings : Settings) (stamps : ℕ → Stamp) (request : Request) : Endpoint :=
  authorized settings request <|
    match request.json >>= TaskParse.parseTaskQueuePayload with
    | .error e =>
      if e.kind = .taskProtocol then pure (errorResponse 400 "invalid_task_protocol" e.message)
      else if e.kind = .jsonDecode then
        pure (errorResponse 400 "invalid_json" ("Invalid JSON request body: " ++ e.message))
      else raise e
    | .ok tasks => .get fun s =>
      let r := submitMany (stamped stamps tasks) s.store
      .set ⟨r.2, s.recorded⟩ (submitted settings r.2 r.1)

/-- `GET /tasks` -/
def listTasks (settings : Settings) (request : Request) : Endpoint :=
  forTenant settings request fun tenant =>
    match readLimit request.limit "100" 500 with
    | none => pure invalidLimitResponse
    | some limit => .get fun s =>
      let tasks := TaskStore.listTasks tenant request.state request.model limit s.store
      pure ⟨200, [("tasks", .arr (tasks.map fun t => .obj (t.toSummary false)))]⟩

/-- `GET /tasks/explain` -/
def explainTasks (settings : Settings) (request : Request) : Endpoint :=
  forTenant settings request fun tenant =>
    match readLimit request.limit "500" 1000 with
    | none => pure invalidLimitResponse
    | some limit => .get fun s => do
      let tasks := TaskStore.listTasks tenant (some "queued") request.model limit s.store
      let queueLengths := ContextPlan.queueLengthsForTasks tasks
      let contextPlans ← lift (ContextPlan.contextPlansForTasks tasks)
      let capacity ← explainCapacity settings queueLengths contextPlans
      pure ⟨200, explainBody tenant tasks queueLengths contextPlans capacity⟩

/-- `GET /tasks/{task_id}` -/
def getTask (settings : Settings) (request : Request) : Endpoint :=
  forTenant settings request fun tenant => .get fun s =>
    match TaskStore.getTask tenant request.taskId s.store with
    | none => pure notFoundResponse
    | some t => pure ⟨200, t.toDetail⟩

/-- The part of `cancel_task` after the cancellation. -/
def cancelled (settings : Settings) : Option StoredTask → Endpoint
  | none => pure notFoundResponse
  | some t =>
    if t.state = .cancelled then do
      let _ ← reconcileCurrentTaskCapacity settings
      pure ⟨200, t.toDetail⟩
    else pure ⟨200, t.toDetail⟩

/-- `DELETE /tasks/{task_id}` -/
def cancelTask (settings : Settings) (request : Request) : Endpoint :=
  forTenant settings request fun tenant => .call .utcNow fun (now : DateTime) => .get fun s =>
    let r := TaskStore.cancelTask now tenant request.taskId s.store
    .set ⟨r.2, s.recorded⟩ (cancelled settings r.1)

end Orchestrator.Endpoints
