import Orchestrator.RowClaim

/-!
The two task stores side by side: every operation is executed on both, with the same clock reading
and ids. One operation keeps the table a representation of the map and answers the same on both,
except where the SQL keeps the end of a task that is retried after an error and then cancelled.
-/

namespace Orchestrator.StoreRefinement

open Lib Clock TaskStore PostgresTaskStore Idempotency FieldChecks RowTasks RowClaim

/-! ### Operations on both -/

inductive Op
  | submitMany (now : DateTime) (batch : List (QueueTask × PyText.NonBlank))
  | claimNext (now : DateTime) (model : Option String)
  | recordResult (now : DateTime) (taskId : String) (result : Mapping)
  | recordError (now : DateTime) (taskId : String) (error : Mapping)
  | recordRetry (now : DateTime) (taskId : String) (error : Mapping) (nextAttemptAt : String)
  | cancelTask (now : DateTime) (tenant taskId : String)
  | getTask (tenant taskId : String)
  | listTasks (tenant : String) (state model : Option String) (limit : ℤ)
  | queueLengthsByModel
  | taskCountsByState

/-- What an operation returns or raises. -/
inductive Answer
  | raised (e : Exn)
  | submitted (accepted reused : List StoredTask)
  | task (t : Option StoredTask)
  | tasks (l : List StoredTask)
  | lengths (count : String → Option ℕ)
  | counts (count : List String → Option ℕ)

def answer {α : Type} (f : α → Answer) : Except Exn α → Answer
  | .ok a => f a
  | .error e => .raised e

def recorded (r : Except Exn StoredTask) : Answer := answer (fun t => .task (some t)) r

/-- An operation of `InMemoryTaskStore`. -/
def inMemory (op : Op) (s : TaskStore) : Answer × TaskStore :=
  match op with
  | .submitMany now batch =>
    let r := s.submitMany (stamped now batch)
    (answer (fun p => .submitted p.1 p.2) r.1, r.2)
  | .claimNext now model => (answer .task (s.claimNext now model).1, (s.claimNext now model).2)
  | .recordResult now taskId result =>
    (recorded (s.recordResult now taskId result).1, (s.recordResult now taskId result).2)
  | .recordError now taskId error =>
    (recorded (s.recordError now taskId error).1, (s.recordError now taskId error).2)
  | .recordRetry now taskId error nextAttemptAt =>
    let r := s.recordRetry now taskId error nextAttemptAt
    (recorded r.1, r.2)
  | .cancelTask now tenant taskId =>
    (.task (s.cancelTask now tenant taskId).1, (s.cancelTask now tenant taskId).2)
  | .getTask tenant taskId => (.task (s.getTask tenant taskId), s)
  | .listTasks tenant state model limit => (.tasks (s.listTasks tenant state model limit), s)
  | .queueLengthsByModel => (.lengths (countOf s.queueLengthsByModel), s)
  | .taskCountsByState => (.counts (countOf s.taskCountsByState), s)

/-- An operation of `PostgresTaskStore`. -/
def inPostgres (op : Op) (table : List Row) : Answer × List Row :=
  match op with
  | .submitMany now batch =>
    let r := PostgresTaskStore.submitMany now batch table
    (answer (fun p => .submitted p.1 p.2) r.1, r.2)
  | .claimNext now model =>
    let r := PostgresTaskStore.claimNext now model table
    (answer .task r.1, r.2)
  | .recordResult now taskId result =>
    let r := PostgresTaskStore.recordResult now taskId result table
    (recorded r.1, r.2)
  | .recordError now taskId error =>
    let r := PostgresTaskStore.recordError now taskId error table
    (recorded r.1, r.2)
  | .recordRetry now taskId error nextAttemptAt =>
    let r := PostgresTaskStore.recordRetry now taskId error nextAttemptAt table
    (recorded r.1, r.2)
  | .cancelTask now tenant taskId =>
    let r := PostgresTaskStore.cancelTask now tenant taskId table
    (answer .task r.1, r.2)
  | .getTask tenant taskId => (answer .task (PostgresTaskStore.getTask tenant taskId table), table)
  | .listTasks tenant state model limit =>
    (answer .tasks (PostgresTaskStore.listTasks tenant state model limit table), table)
  | .queueLengthsByModel =>
    (.lengths (countOf (PostgresTaskStore.queueLengthsByModel table)), table)
  | .taskCountsByState => (.counts (countOf (PostgresTaskStore.taskCountsByState table)), table)

structure Stores where
  memory : TaskStore
  postgres : List Row

/-- The ids that an operation draws are new. -/
def DrawsNew (s : TaskStore) : Op → Prop
  | .submitMany now batch => Fresh s (stamped now batch)
  | _ => True

/-- One operation executed on both stores, with the same clock reading and ids. -/
def both (op : Op) (c : Stores) : Stores :=
  ⟨(inMemory op c.memory).2, (inPostgres op c.postgres).2⟩

def bothStep (c : Stores) (op : Op) (c' : Stores) : Prop := DrawsNew c.memory op ∧ c' = both op c

def emptyStores : Stores := ⟨TaskStore.empty, []⟩

def bothLts : Lts Stores Op where
  init c := c = emptyStores
  step := bothStep

/-- The retry time is the text of an instant, and a task that is cancelled has not ended before
a retry. -/
def Alike (c : Stores) : Op → Prop
  | .recordRetry _ _ _ nextAttemptAt => IsTime nextAttemptAt
  | .cancelTask now tenant taskId => ∀ t, c.memory.getTask tenant taskId = some t →
      t.state.isTerminal = false → t.finishedAt = none ∨ t.finishedAt = some (nowIso now)
  | _ => True

/-- **One operation** on both: they answer the same and stay alike. -/
lemma op_agree {c : Stores} {op : Op} (h : Represents c.postgres c.memory)
    (hd : DrawsNew c.memory op)
    (ha : Alike c op) :
    (inPostgres op c.postgres).1 = (inMemory op c.memory).1 ∧
      Represents (inPostgres op c.postgres).2 (inMemory op c.memory).2 := by
  cases op with
  | submitMany now batch =>
    obtain ⟨accepted, reused, table', s', hrows, hmap, hrep⟩ := submitMany_agree h hd
    simp only [inPostgres, inMemory, PostgresTaskStore.submitMany, hrows, hmap]
    exact ⟨trivial, hrep⟩
  | claimNext now model =>
    obtain ⟨hanswer, hrep⟩ := claimNext_agree h now model
    exact ⟨congrArg (answer .task) hanswer, hrep⟩
  | recordResult now taskId result =>
    obtain ⟨hanswer, hrep⟩ := recordRow_agree h taskId (f := resultRow now result)
      (g := succeeded now result) (fun _ => rfl) (fun _ => rfl) fun _ => rfl
    exact ⟨congrArg recorded hanswer, hrep⟩
  | recordError now taskId error =>
    obtain ⟨hanswer, hrep⟩ := recordRow_agree h taskId (f := errorRow now error)
      (g := failed now error) (fun _ => rfl) (fun _ => rfl) fun _ => rfl
    exact ⟨congrArg recorded hanswer, hrep⟩
  | recordRetry now taskId error nextAttemptAt =>
    obtain ⟨next, rfl⟩ := ha
    obtain ⟨hanswer, hrep⟩ := recordRow_agree h taskId (f := retryRow now error next)
      (g := retried now error (nowIso next)) (fun _ => rfl) (fun _ => rfl) fun _ => rfl
    simp only [inPostgres, PostgresTaskStore.recordRetry, parseIso_nowIso]
    exact ⟨congrArg recorded hanswer, hrep⟩
  | cancelTask now tenant taskId =>
    obtain ⟨hanswer, hrep⟩ := cancelTask_agree h now ha
    exact ⟨congrArg (answer .task) hanswer, hrep⟩
  | getTask tenant taskId => exact ⟨congrArg (answer .task) (getTask_agree h tenant taskId), h⟩
  | listTasks tenant state model limit =>
    exact ⟨congrArg (answer .tasks) (listTasks_agree h tenant state model limit), h⟩
  | queueLengthsByModel =>
    exact ⟨congrArg Answer.lengths (funext (queueLengthsByModel_agree h)), h⟩
  | taskCountsByState =>
    exact ⟨congrArg Answer.counts (funext (taskCountsByState_agree h)), h⟩

lemma represents_reachable {c : Stores} (h : bothLts.Reachable Alike c) :
    Represents c.postgres c.memory := by
  refine h.invariant (I := fun c => Represents c.postgres c.memory) (fun c hc => ?_)
    fun c op c' hrep ha hstep => ?_
  · rw [hc]
    exact .empty
  · obtain ⟨hd, rfl⟩ := hstep
    exact (op_agree hrep hd ha).2

/-- **The two stores are one**: after every run of operations that are alike, the rows are read as
the tasks of the map, and the next such operation returns or raises the same on both. -/
theorem stores_agree {c : Stores} (h : bothLts.Reachable Alike c) :
    storedTasksFromRows c.postgres = .ok c.memory.tasks ∧
      ∀ op, DrawsNew c.memory op → Alike c op →
        (inPostgres op c.postgres).1 = (inMemory op c.memory).1 := by
  have hrep := represents_reachable h
  refine ⟨?_, fun op hd ha => (op_agree hrep hd ha).1⟩
  rw [storedTasksFromRows_eq, hrep.tasks]

/-! ### An end that is kept -/

def sampleNow (seconds : ℕ) (h : 63892886400000000 + seconds * 1000000 < limit) : DateTime :=
  ⟨63892886400000000 + seconds * 1000000, h⟩

def submitted : Stores :=
  both (.submitMany (sampleNow 0 (by decide))
    [(sampleTask ⟨"acme", nonBlank_acme⟩ ⟨"key-1", nonBlank_key1⟩ [], ⟨"task_1", nonBlank_task1⟩)])
    emptyStores

def failedOnce : Stores := both (.recordError (sampleNow 1 (by decide)) "task_1" []) submitted

def queuedAgain : Stores :=
  both (.recordRetry (sampleNow 1 (by decide)) "task_1" [] (nowIso (sampleNow 2 (by decide))))
    failedOnce

lemma reachable_both {P : Stores → Op → Prop} {c : Stores} (h : bothLts.Reachable P c) (op : Op)
    (hd : DrawsNew c.memory op) (hP : P c op) : bothLts.Reachable P (both op c) :=
  h.run (.single hP ⟨hd, rfl⟩)

lemma queuedAgain_reachable : bothLts.Reachable Alike queuedAgain := by
  have hempty : bothLts.Reachable Alike emptyStores := .init rfl
  have hsubmitted : bothLts.Reachable Alike submitted :=
    reachable_both hempty _ ⟨by decide, by decide⟩ trivial
  have hfailed : bothLts.Reachable Alike failedOnce := reachable_both hsubmitted _ trivial trivial
  exact reachable_both hfailed _ trivial ⟨_, rfl⟩

/-- The task claimed again. -/
theorem stores_agree_sample :
    storedTasksFromRows queuedAgain.postgres = .ok queuedAgain.memory.tasks ∧
      (inPostgres (.claimNext (sampleNow 3 (by decide)) none) queuedAgain.postgres).1 =
        (inMemory (.claimNext (sampleNow 3 (by decide)) none) queuedAgain.memory).1 := by
  obtain ⟨htasks, hanswer⟩ := stores_agree queuedAgain_reachable
  exact ⟨htasks, hanswer _ trivial trivial⟩

/-- The task cancelled: the map has the time of the cancellation, the table that of the error. -/
theorem cancelled_end_differs : ∃ c, bothLts.Reachable Lts.anyStep c ∧
    storedTasksFromRows c.postgres ≠ .ok c.memory.tasks := by
  refine ⟨both (.cancelTask (sampleNow 3 (by decide)) "acme" "task_1") queuedAgain, ?_, ?_⟩
  · obtain ⟨c₀, h₀, hrun⟩ := queuedAgain_reachable
    have hany : bothLts.Reachable Lts.anyStep queuedAgain :=
      ⟨c₀, h₀, hrun.mono fun _ _ _ => trivial⟩
    exact reachable_both hany _ trivial trivial
  · intro h
    have hends := congrArg (fun r => r.toOption.map fun l => l.map StoredTask.finishedAt) h
    revert hends
    decide +kernel

end Orchestrator.StoreRefinement
