import Mathlib.Data.List.MinMax
import Mathlib.Data.Prod.Lex
import Mathlib.Data.List.Lex
import Orchestrator.Lib.Dict
import Orchestrator.Clock
import Orchestrator.Task

/-!
The in-memory task store: a map of the tasks by id and an index of the ids by tenant and
idempotency key.

An operation yields what it returns or raises, and the store it leaves. The ids and clock
readings it draws are arguments.
-/

namespace Orchestrator

open Lib Clock FieldChecks

structure TaskStore where
  tasksById : Dict String StoredTask
  idempotencyIndex : Dict (String × String) String

/-- The id and the two clock readings that `submit_many` draws for a new task. -/
structure Stamp where
  taskId : PyText.NonBlank
  created : DateTime
  updated : DateTime

namespace TaskStore

def empty : TaskStore := ⟨.empty, .empty⟩

def tasks (s : TaskStore) : List StoredTask := s.tasksById.values

def newTask (task : QueueTask) (stamp : Stamp) : StoredTask where
  toQueueTask := task
  taskId := stamp.taskId
  state := .queued
  createdAt := nowIso stamp.created
  updatedAt := nowIso stamp.updated
  attemptCount := 0
  startedAt := none
  finishedAt := none
  nextAttemptAt := none
  result := none
  error := none

/-- Store a task and index it. -/
def insert (s : TaskStore) (t : StoredTask) : TaskStore where
  tasksById := s.tasksById.set t.taskId.1 t
  idempotencyIndex := s.idempotencyIndex.set t.pair t.taskId.1

/-- `submit_many`, on a batch whose tasks come with the stamps drawn for them. The results are
the accepted and the reused tasks. -/
def submitMany : List (QueueTask × Stamp) → TaskStore →
    Except Exn (List StoredTask × List StoredTask) × TaskStore
  | [], s => (.ok ([], []), s)
  | (task, stamp) :: rest, s =>
    match s.idempotencyIndex.get? task.pair with
    | some existing =>
      match s.tasksById.get? existing with
      | some t =>
        let r := submitMany rest s
        (r.1.map fun p => (p.1, t :: p.2), r.2)
      | none => (.error (.keyError existing), s)
    | none =>
      let stored := newTask task stamp
      let r := submitMany rest (s.insert stored)
      (r.1.map fun p => (stored :: p.1, p.2), r.2)

def getTask (tenant taskId : String) (s : TaskStore) : Option StoredTask :=
  (s.tasksById.get? taskId).filter fun t => t.tenant.1 = tenant

def listTasks (tenant : String) (state model : Option String) (limit : ℤ) (s : TaskStore) :
    List StoredTask :=
  let tasks := s.tasks.filter fun t =>
    t.tenant.1 = tenant && (state.isNone || state = some t.state.text.1) &&
      (model.isNone || model = some t.model.1)
  (tasks.insertionSort fun a b =>
    toLex (a.createdAt, a.taskId.1) ≤ toLex (b.createdAt, b.taskId.1)).take (max 1 limit).toNat

def taskStateCountKey (t : StoredTask) : List String :=
  [t.tenant.1, t.project.1, t.service.1, t.task.1, t.model.1, t.state.text.1]

def taskCountsByState (s : TaskStore) : List (List String × ℕ) :=
  (Dict.countBy taskStateCountKey s.tasks).entries

/-! ### Claims -/

def isTaskClaimable (now : DateTime) (model : Option String) (t : StoredTask) : Except Exn Bool :=
  if !t.state.isClaimable then .ok false
  else if model.isSome && model != some t.model.1 then .ok false
  else match t.nextAttemptAt with
    | none => .ok true
    | some text => (parseIso text).map fun due => due ≤ now

def candidates (now : DateTime) (model : Option String) : List StoredTask →
    Except Exn (List StoredTask)
  | [] => .ok []
  | t :: rest => do
    let claimable ← isTaskClaimable now model t
    let others ← candidates now model rest
    pure (if claimable then t :: others else others)

/-- The values of `FAIRNESS_GROUP_FIELDS`. -/
def fairnessGroupKey (t : StoredTask) : List String :=
  [t.tenant.1, t.project.1, t.service.1, t.task.1, t.priority.1, t.model.1]

def lastClaimedByGroup (allTasks : List StoredTask) : Dict (List String) String :=
  allTasks.foldl (fun last t =>
    if t.attemptCount < 1 then last
    else match last.get? (fairnessGroupKey t) with
      | none => last.set (fairnessGroupKey t) t.updatedAt
      | some current =>
        if current < t.updatedAt then last.set (fairnessGroupKey t) t.updatedAt else last) .empty

/-- `min(strings)` -/
def minText : List String → String
  | [] => ""
  | [a] => a
  | a :: r => min a (minText r)

def groupSortKey (last : Dict (List String) String) (group : List String × List StoredTask) :
    Bool ×ₗ String ×ₗ String ×ₗ List String :=
  let lastClaimedAt := last.get? group.1
  toLex (lastClaimedAt.isSome, toLex (lastClaimedAt.getD "",
    toLex (minText (group.2.map StoredTask.createdAt), group.1)))

def chooseFairTask (candidates allTasks : List StoredTask) : Option StoredTask :=
  let groups := (Dict.groupBy fairnessGroupKey candidates).entries
  match groups.argmin (groupSortKey (lastClaimedByGroup allTasks)) with
  | none => none
  | some selected => selected.2.argmin fun t => toLex (t.createdAt, t.taskId.1)

/-- The changes of a claim to the claimed task. -/
def claimed (now : DateTime) (t : StoredTask) : StoredTask :=
  { t with
    state := .running
    attemptCount := t.attemptCount + 1
    startedAt := some (match t.startedAt with
      | some text => if text = "" then nowIso now else text
      | none => nowIso now)
    updatedAt := nowIso now
    nextAttemptAt := none }

def put (s : TaskStore) (t : StoredTask) : TaskStore :=
  { s with tasksById := s.tasksById.set t.taskId.1 t }

def claimNext (now : DateTime) (model : Option String) (s : TaskStore) :
    Except Exn (Option StoredTask) × TaskStore :=
  match candidates now model s.tasks with
  | .error e => (.error e, s)
  | .ok found =>
    match chooseFairTask found s.tasks with
    | none => (.ok none, s)
    | some t => (.ok (some (claimed now t)), s.put (claimed now t))

/-! ### Outcomes -/

/-- Change the task with an id. -/
def modify (taskId : String) (f : StoredTask → StoredTask) (s : TaskStore) :
    Except Exn StoredTask × TaskStore :=
  match s.tasksById.get? taskId with
  | some t => (.ok (f t), { s with tasksById := s.tasksById.set taskId (f t) })
  | none => (.error (.keyError taskId), s)

/-- The changes of a result, of a final error and of a retry. -/
def succeeded (now : DateTime) (result : Mapping) (t : StoredTask) : StoredTask :=
  { t with
    state := .succeeded
    result := some result
    error := none
    nextAttemptAt := none
    finishedAt := some (nowIso now)
    updatedAt := nowIso now }

def failed (now : DateTime) (error : Mapping) (t : StoredTask) : StoredTask :=
  { t with
    state := .failed
    error := some error
    nextAttemptAt := none
    finishedAt := some (nowIso now)
    updatedAt := nowIso now }

def retried (now : DateTime) (error : Mapping) (nextAttemptAt : String) (t : StoredTask) :
    StoredTask :=
  { t with
    state := .queued
    error := some error
    nextAttemptAt := some nextAttemptAt
    updatedAt := nowIso now }

def recordResult (now : DateTime) (taskId : String) (result : Mapping) (s : TaskStore) :
    Except Exn StoredTask × TaskStore := s.modify taskId (succeeded now result)

def recordError (now : DateTime) (taskId : String) (error : Mapping) (s : TaskStore) :
    Except Exn StoredTask × TaskStore := s.modify taskId (failed now error)

def recordRetry (now : DateTime) (taskId : String) (error : Mapping) (nextAttemptAt : String)
    (s : TaskStore) : Except Exn StoredTask × TaskStore :=
  s.modify taskId (retried now error nextAttemptAt)

/-- The changes of a cancellation. -/
def cancelled (now : DateTime) (t : StoredTask) : StoredTask :=
  { t with
    state := .cancelled
    nextAttemptAt := none
    finishedAt := some (nowIso now)
    updatedAt := nowIso now }

def cancelTask (now : DateTime) (tenant taskId : String) (s : TaskStore) :
    Option StoredTask × TaskStore :=
  match s.getTask tenant taskId with
  | none => (none, s)
  | some t =>
    if t.state.isTerminal then (some t, s)
    else (some (cancelled now t), s.put (cancelled now t))

/-! ### Loading -/

def loadTasks (tasks : List StoredTask) : TaskStore := tasks.foldl insert empty

end TaskStore

/-! ### A small submission, for concrete runs -/

lemma nonBlank_endpoint : PyText.strip "/v1/chat/completions" = "/v1/chat/completions" ∧
    "/v1/chat/completions" ≠ "" := by decide
lemma nonBlank_globex : PyText.strip "globex" = "globex" ∧ "globex" ≠ "" := by decide
lemma nonBlank_acme : PyText.strip "acme" = "acme" ∧ "acme" ≠ "" := by decide
lemma nonBlank_task1 : PyText.strip "task_1" = "task_1" ∧ "task_1" ≠ "" := by decide
lemma nonBlank_task2 : PyText.strip "task_2" = "task_2" ∧ "task_2" ≠ "" := by decide
lemma nonBlank_task3 : PyText.strip "task_3" = "task_3" ∧ "task_3" ≠ "" := by decide
lemma nonBlank_k1 : PyText.strip "k1" = "k1" ∧ "k1" ≠ "" := by decide
lemma nonBlank_key1 : PyText.strip "key-1" = "key-1" ∧ "key-1" ≠ "" := by decide
lemma nonBlank_tenantA : PyText.strip "tenant-a" = "tenant-a" ∧ "tenant-a" ≠ "" := by decide
lemma nonBlank_tenantB : PyText.strip "tenant-b" = "tenant-b" ∧ "tenant-b" ≠ "" := by decide

def sampleTask (tenant idempotencyKey : PyText.NonBlank) (payload : Mapping) : QueueTask where
  tenant := tenant
  project := ⟨"docs", by decide⟩
  service := ⟨"indexer", by decide⟩
  task := ⟨"summarize", by decide⟩
  jobId := ⟨"job-1", by decide⟩
  idempotencyKey := idempotencyKey
  priority := ⟨"batch", by decide⟩
  model := ⟨"local-model", by decide⟩
  endpoint := ⟨"/v1/chat/completions", nonBlank_endpoint⟩
  estimatedInputTokens := 2
  maxOutputTokens := ⟨1024, one_le_1024⟩
  requiredContextTokens := ⟨1026, by decide⟩
  payload := payload
  orchestration := []
  artifacts := []
  labels := []

def sampleStamp (taskId : PyText.NonBlank) : Stamp :=
  ⟨taskId, ⟨63892886400000000, sampleTime_lt⟩, ⟨63892886400000000, sampleTime_lt⟩⟩

end Orchestrator
