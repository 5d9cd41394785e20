import Orchestrator.Lib.Table
import Orchestrator.TaskStore

/-!
The task store in a PostgreSQL table: its rows, and the operations as the statements they execute.

Each operation is one transaction. A time stamp of a row is an instant; a row that is read becomes
a task through `StoredTask.from_record`, with the instants as ISO texts.
-/

namespace Orchestrator

open Lib Lib.Table Clock FieldChecks

/-- A row of `llmo_tasks`. -/
structure Row extends QueueTask where
  taskId : PyText.NonBlank
  state : TaskState
  createdAt : DateTime
  updatedAt : DateTime
  attemptCount : ℕ
  startedAt : Option DateTime
  finishedAt : Option DateTime
  nextAttemptAt : Option DateTime
  result : Option Mapping
  error : Option Mapping

namespace PostgresTaskStore

/-! ### Rows read -/

def isoValue : Option DateTime → Json
  | some t => .str (nowIso t)
  | none => .null

def jsonValue : Option Mapping → Json
  | some m => .obj m
  | none => .null

/-- The record that `stored_task_from_row` builds. -/
def rowRecord (r : Row) : Mapping :=
  [("task_id", .str r.taskId.1),
   ("tenant", .str r.tenant.1),
   ("project", .str r.project.1),
   ("service", .str r.service.1),
   ("task", .str r.task.1),
   ("job_id", .str r.jobId.1),
   ("idempotency_key", .str r.idempotencyKey.1),
   ("priority", .str r.priority.1),
   ("model", .str r.model.1),
   ("endpoint", .str r.endpoint.1),
   ("estimated_input_tokens", .int r.estimatedInputTokens),
   ("max_output_tokens", .int r.maxOutputTokens.1),
   ("required_context_tokens", .int r.requiredContextTokens.1),
   ("state", .str r.state.text.1),
   ("payload", .obj r.payload),
   ("orchestration", .obj r.orchestration),
   ("artifacts", .obj r.artifacts),
   ("labels", .obj r.labels),
   ("created_at", isoValue (some r.createdAt)),
   ("updated_at", isoValue (some r.updatedAt)),
   ("attempt_count", .int r.attemptCount),
   ("started_at", isoValue r.startedAt),
   ("finished_at", isoValue r.finishedAt),
   ("next_attempt_at", isoValue r.nextAttemptAt),
   ("result", jsonValue r.result),
   ("error", jsonValue r.error)]

/-- `stored_task_from_row`; no time stamp of a row is missing, so no clock is read. -/
def storedTaskFromRow (r : Row) : Except Exn StoredTask := StoredTask.fromRecord "" (rowRecord r)

def storedTasksFromRows : List Row → Except Exn (List StoredTask)
  | [] => .ok []
  | r :: rest => do
    let task ← storedTaskFromRow r
    let others ← storedTasksFromRows rest
    pure (task :: others)

/-- `stored_task_from_row(row) if row is not None else None` -/
def storedTaskFromRow? : Option Row → Except Exn (Option StoredTask)
  | some r => (storedTaskFromRow r).map some
  | none => .ok none

/-! ### Submission -/

def uniqueViolation : Exn := ⟨.other, "UniqueViolation", "duplicate key value"⟩

def newRow (now : DateTime) (task : QueueTask) (taskId : PyText.NonBlank) : Row where
  toQueueTask := task
  taskId := taskId
  state := .queued
  createdAt := now
  updatedAt := now
  attemptCount := 0
  startedAt := none
  finishedAt := none
  nextAttemptAt := none
  result := none
  error := none

def hasPair (task : QueueTask) (r : Row) : Bool :=
  r.tenant.1 = task.tenant.1 && r.idempotencyKey.1 = task.idempotencyKey.1

/-- The statement of `insert_task`: the row, or nothing on a conflict of tenant and key. -/
def insertTask (now : DateTime) (task : QueueTask) (taskId : PyText.NonBlank) (table : List Row) :
    Except Exn (Option Row × List Row) :=
  if table.any (hasPair task) then .ok (none, table)
  else if table.any fun r => r.taskId.1 = taskId.1 then .error uniqueViolation
  else .ok (some (newRow now task taskId), table ++ [newRow now task taskId])

/-- The loop of `submit_many`. -/
def submitRows (now : DateTime) : List (QueueTask × PyText.NonBlank) → List Row →
    Except Exn (List StoredTask × List StoredTask × List Row)
  | [], table => .ok ([], [], table)
  | (task, taskId) :: rest, table => do
    let (row, table) ← insertTask now task taskId table
    match row with
    | some row => do
      let stored ← storedTaskFromRow row
      let (accepted, reused, table) ← submitRows now rest table
      pure (stored :: accepted, reused, table)
    | none =>
      match table.find? (hasPair task) with
      | some row => do
        let stored ← storedTaskFromRow row
        let (accepted, reused, table) ← submitRows now rest table
        pure (accepted, stored :: reused, table)
      | none => submitRows now rest table

/-- `submit_many`; a transaction that raises is rolled back. -/
def submitMany (now : DateTime) (batch : List (QueueTask × PyText.NonBlank)) (table : List Row) :
    Except Exn (List StoredTask × List StoredTask) × List Row :=
  match submitRows now batch table with
  | .ok (accepted, reused, table) => (.ok (accepted, reused), table)
  | .error e => (.error e, table)

/-! ### Reading -/

def queueLengthsByModel (table : List Row) : List (String × ℕ) :=
  counts (fun r => r.model.1) (table.filter fun r => r.state.isActive)

def taskCountsByState (table : List Row) : List (List String × ℕ) :=
  counts (fun r =>
    [r.tenant.1, r.project.1, r.service.1, r.task.1, r.model.1, r.state.text.1]) table

def getTask (tenant taskId : String) (table : List Row) : Except Exn (Option StoredTask) :=
  storedTaskFromRow? (table.find? fun r => r.tenant.1 = tenant && r.taskId.1 = taskId)

def listTasks (tenant : String) (state model : Option String) (limit : ℤ) (table : List Row) :
    Except Exn (List StoredTask) :=
  let rows := table.filter fun r =>
    r.tenant.1 = tenant && (state.isNone || state = some r.state.text.1) &&
      (model.isNone || model = some r.model.1)
  storedTasksFromRows ((rows.insertionSort fun a b =>
    toLex (a.createdAt, a.taskId.1) ≤ toLex (b.createdAt, b.taskId.1)).take (max 1 limit).toNat)

/-! ### Claims -/

/-- The conditions on a candidate. -/
def runnable (now : DateTime) (model : Option String) (r : Row) : Bool :=
  r.state.isClaimable && (model.isNone || model = some r.model.1) &&
    match r.nextAttemptAt with
    | none => true
    | some due => due ≤ now

def groupColumns (r : Row) : List String :=
  [r.tenant.1, r.project.1, r.service.1, r.task.1, r.priority.1, r.model.1]

/-- A row of `group_scores`. -/
structure GroupScore where
  group : List String
  oldestRunnableAt : Option DateTime
  lastClaimedAt : Option DateTime

def groupScores (now : DateTime) (model : Option String) (table : List Row) : List GroupScore :=
  (groupBy groupColumns (table.filter (runnable now model))).map fun g =>
    ⟨g.1, (g.2.map Row.createdAt).min?,
      ((table.filter fun r => groupColumns r = g.1 && 0 < r.attemptCount).map Row.updatedAt).max?⟩

/-- The order of `selected_group`: nulls come first. -/
def scoreKey (g : GroupScore) : Bool ×ₗ WithBot DateTime ×ₗ WithBot DateTime ×ₗ List String :=
  toLex (g.lastClaimedAt.isSome, toLex (g.lastClaimedAt, toLex (g.oldestRunnableAt, g.group)))

/-- The row of `next_task`. -/
def nextTask (now : DateTime) (model : Option String) (table : List Row) : Option Row :=
  (first scoreKey (groupScores now model table)).bind fun selected =>
    first (fun r => toLex (r.createdAt, r.taskId.1))
      (table.filter fun r => groupColumns r = selected.group && runnable now model r)

def claimRow (now : DateTime) (r : Row) : Row :=
  { r with
    state := .running
    startedAt := some (r.startedAt.getD now)
    attemptCount := r.attemptCount + 1
    nextAttemptAt := none
    updatedAt := now }

/-- A statement `UPDATE … RETURNING …` of which the first row is fetched. -/
def updateReturning (p : Row → Bool) (f : Row → Row) (table : List Row) : Option Row × List Row :=
  ((returning p f table).head?, update p f table)

def claimNext (now : DateTime) (model : Option String) (table : List Row) :
    Except Exn (Option StoredTask) × List Row :=
  let chosen (r : Row) : Bool := (nextTask now model table).any fun n => n.taskId.1 = r.taskId.1
  let updated := updateReturning chosen (claimRow now) table
  (storedTaskFromRow? updated.1, updated.2)

/-! ### Outcomes -/

/-- The changes of a result, of a final error and of a retry. -/
def resultRow (now : DateTime) (result : Mapping) (r : Row) : Row :=
  { r with
    state := .succeeded
    result := some result
    error := none
    nextAttemptAt := none
    finishedAt := some now
    updatedAt := now }

def errorRow (now : DateTime) (error : Mapping) (r : Row) : Row :=
  { r with
    state := .failed
    error := some error
    nextAttemptAt := none
    finishedAt := some now
    updatedAt := now }

def retryRow (now : DateTime) (error : Mapping) (next : DateTime) (r : Row) : Row :=
  { r with
    state := .queued
    error := some error
    nextAttemptAt := some next
    updatedAt := now }

/-- An update of the row with an id, which must exist. -/
def recordRow (taskId : String) (f : Row → Row) (table : List Row) :
    Except Exn StoredTask × List Row :=
  let updated := updateReturning (fun r => r.taskId.1 = taskId) f table
  (match updated.1 with
    | some r => storedTaskFromRow r
    | none => .error (.keyError taskId), updated.2)

def recordResult (now : DateTime) (taskId : String) (result : Mapping) (table : List Row) :
    Except Exn StoredTask × List Row := recordRow taskId (resultRow now result) table

def recordError (now : DateTime) (taskId : String) (error : Mapping) (table : List Row) :
    Except Exn StoredTask × List Row := recordRow taskId (errorRow now error) table

/-- `record_retry`, with the cast of the text to `timestamptz`. -/
def recordRetry (now : DateTime) (taskId : String) (error : Mapping) (nextAttemptAt : String)
    (table : List Row) : Except Exn StoredTask × List Row :=
  match parseIso nextAttemptAt with
  | .ok next => recordRow taskId (retryRow now error next) table
  | .error _ => (.error ⟨.other, "InvalidDatetimeFormat", "invalid input syntax"⟩, table)

/-- The changes of a cancellation. -/
def cancelRow (now : DateTime) (r : Row) : Row :=
  { r with
    state := .cancelled
    finishedAt := some (r.finishedAt.getD now)
    nextAttemptAt := none
    updatedAt := now }

def cancelTask (now : DateTime) (tenant taskId : String) (table : List Row) :
    Except Exn (Option StoredTask) × List Row :=
  let updated := updateReturning (fun r =>
    r.tenant.1 = tenant && r.taskId.1 = taskId && !r.state.isTerminal) (cancelRow now) table
  (match updated.1 with
    | some r => (storedTaskFromRow r).map some
    | none => getTask tenant taskId updated.2, updated.2)

end PostgresTaskStore

end Orchestrator
