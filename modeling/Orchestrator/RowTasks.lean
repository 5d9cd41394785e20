import Orchestrator.ContextPlan
import Orchestrator.Durability
import Orchestrator.ClockOrder
import Orchestrator.PostgresTaskStore

/-!
Rows as tasks: the rows of the table stand for the tasks of the map, in the order of insertion, and
what a statement makes of the rows is what the operation on the map makes of the tasks.
-/

namespace Orchestrator.RowTasks

open Lib Lib.Table Clock TaskStore PostgresTaskStore Idempotency Durability FieldChecks

/-! ### Rows as tasks -/

/-- The task that a row stands for. -/
def rowTask (r : Row) : StoredTask where
  toQueueTask := r.toQueueTask
  taskId := r.taskId
  state := r.state
  createdAt := nowIso r.createdAt
  updatedAt := nowIso r.updatedAt
  attemptCount := r.attemptCount
  startedAt := r.startedAt.map nowIso
  finishedAt := r.finishedAt.map nowIso
  nextAttemptAt := r.nextAttemptAt.map nowIso
  result := r.result
  error := r.error

lemma map_nowIso_ne (o : Option DateTime) : o.map nowIso ≠ some "" := by
  cases o with
  | none => nofun
  | some t => exact Stamped.some_nowIso_ne t

lemma stamped_rowTask (r : Row) : Stamped (rowTask r) :=
  ⟨nowIso_ne_empty _, nowIso_ne_empty _, map_nowIso_ne _, map_nowIso_ne _, map_nowIso_ne _⟩

lemma rowRecord_eq (r : Row) : rowRecord r = (rowTask r).toRecord := by
  have htime : ∀ o : Option DateTime, isoValue o = StoredTask.optStr (o.map nowIso) := by
    intro o
    cases o <;> rfl
  have hjson : ∀ o : Option Mapping, jsonValue o = StoredTask.optObj o := by
    intro o
    cases o <;> rfl
  simp only [rowRecord, htime, hjson]
  rfl

/-- **A row is read back** as the task it stands for. -/
lemma storedTaskFromRow_eq (r : Row) : storedTaskFromRow r = .ok (rowTask r) := by
  rw [storedTaskFromRow, rowRecord_eq]
  exact (stamped_rowTask r).fromRecord_toRecord ""

lemma storedTaskFromRow?_eq (o : Option Row) : storedTaskFromRow? o = .ok (o.map rowTask) := by
  cases o with
  | none => rfl
  | some r => rw [storedTaskFromRow?, storedTaskFromRow_eq]; rfl

lemma storedTasksFromRows_eq (table : List Row) :
    storedTasksFromRows table = .ok (table.map rowTask) := by
  induction table with
  | nil => rfl
  | cons r table ih =>
    rw [storedTasksFromRows, storedTaskFromRow_eq, ih]
    rfl

/-- The map holds the tasks of the rows, in their order. -/
structure Represents (table : List Row) (s : TaskStore) : Prop where
  inverse : Inverse s
  tasks : s.tasks = table.map rowTask

variable {table : List Row} {s : TaskStore}

lemma Represents.empty : Represents [] TaskStore.empty := ⟨Inverse.empty, rfl⟩

namespace Represents

lemma mem (h : Represents table s) {r : Row} (hr : r ∈ table) : rowTask r ∈ s.tasks := by
  rw [h.tasks]
  exact List.mem_map_of_mem hr

/-- The primary key. -/
lemma ids_nodup (h : Represents table s) : (table.map fun r => r.taskId.1).Nodup := by
  have hids := h.inverse.tasks_nodup
  rw [h.tasks, List.map_map] at hids
  exact hids

lemma unique (h : Represents table s) {r r' : Row} (hr : r ∈ table) (hr' : r' ∈ table)
    (hid : r.taskId.1 = r'.taskId.1) : r = r' :=
  List.inj_on_of_nodup_map h.ids_nodup hr hr' hid

/-- What the map holds under an id. -/
lemma get?_eq (h : Represents table s) (id : String) :
    s.tasksById.get? id = (table.find? fun r => r.taskId.1 = id).map rowTask := by
  cases hfind : table.find? fun r => r.taskId.1 = id with
  | none =>
    rw [List.find?_eq_none] at hfind
    rw [Option.map_none, Option.eq_none_iff_forall_ne_some]
    intro t ht
    have hmem := mem_tasks ht
    rw [h.tasks, List.mem_map] at hmem
    obtain ⟨r, hr, rfl⟩ := hmem
    have hid : r.taskId.1 = id := h.inverse.keyed ht
    exact hfind r hr (decide_eq_true hid)
  | some r =>
    have hr := List.mem_of_find?_eq_some hfind
    have hid : r.taskId.1 = id := by simpa using List.find?_some hfind
    have hget := h.inverse.get?_of_mem (h.mem hr)
    rwa [show (rowTask r).taskId.1 = id from hid] at hget

lemma get?_row (h : Represents table s) {r : Row} (hr : r ∈ table) :
    s.tasksById.get? r.taskId.1 = some (rowTask r) := h.inverse.get?_of_mem (h.mem hr)

end Represents

/-! ### Updates -/

/-- The tasks after the task under an id is changed. -/
lemma tasks_set (hs : Inverse s) {id : String} {t : StoredTask} (h : s.tasksById.get? id = some t)
    (g : StoredTask → StoredTask) :
    (s.tasksById.set id (g t)).values = update (fun u => u.taskId.1 = id) g s.tasks := by
  rw [Dict.values_set_of_some _ h, update, TaskStore.tasks, Dict.values, List.map_map]
  refine List.map_congr_left fun p hp => ?_
  obtain ⟨k, u⟩ := p
  have hget := Dict.get?_eq_some.mpr hp
  have hkey : u.taskId.1 = k := hs.keyed hget
  simp only [Function.comp_apply, hkey, decide_eq_true_eq]
  by_cases hk : k = id
  · subst hk
    rw [h, Option.some.injEq] at hget
    rw [if_pos rfl, if_pos rfl, hget]
  · rw [if_neg hk, if_neg hk]

/-- **One row updated**, as the task that it stands for. -/
lemma Represents.update (h : Represents table s) {r : Row} (hr : r ∈ table) {f : Row → Row}
    {g : StoredTask → StoredTask} (hfg : rowTask (f r) = g (rowTask r))
    (hid : ∀ t, (g t).taskId = t.taskId) (hp : ∀ t, (g t).pair = t.pair) :
    Represents (Table.update (fun x => x.taskId.1 = r.taskId.1) f table)
      { s with tasksById := s.tasksById.set r.taskId.1 (g (rowTask r)) } := by
  have hget := h.get?_row hr
  have hupdated : Updated r.taskId.1 (rowTask r) (g (rowTask r)) s
      { s with tasksById := s.tasksById.set r.taskId.1 (g (rowTask r)) } :=
    ⟨hget, rfl, hid _, hp _⟩
  refine ⟨hupdated.inverse h.inverse, ?_⟩
  rw [TaskStore.tasks, tasks_set h.inverse hget, h.tasks]
  refine (map_update (fun _ => rfl) fun x hx hxr => ?_).symm
  rw [h.unique hx hr (of_decide_eq_true hxr), hfg]

/-! ### Submission -/

/-- A batch with the clock reading of the operation. -/
def stamped (now : DateTime) (batch : List (QueueTask × PyText.NonBlank)) :
    List (QueueTask × Stamp) := batch.map fun b => (b.1, ⟨b.2, now, now⟩)

lemma rowTask_newRow (now : DateTime) (task : QueueTask) (taskId : PyText.NonBlank) :
    rowTask (newRow now task taskId) = newTask task ⟨taskId, now, now⟩ := rfl

lemma hasPair_iff {task : QueueTask} {r : Row} :
    hasPair task r = true ↔ (rowTask r).pair = task.pair := by
  simp only [hasPair, QueueTask.pair, Bool.and_eq_true, decide_eq_true_eq, Prod.mk.injEq]
  rfl

/-- A conflict of tenant and key is an entry of the index. -/
lemma Represents.find?_pair (h : Represents table s) (task : QueueTask) :
    (table.find? (hasPair task)).map rowTask =
      (s.idempotencyIndex.get? task.pair).bind s.tasksById.get? := by
  cases hfind : table.find? (hasPair task) with
  | none =>
    rw [List.find?_eq_none] at hfind
    cases hindex : s.idempotencyIndex.get? task.pair with
    | none => rfl
    | some id =>
      obtain ⟨t, ht, hpair⟩ := h.inverse.names hindex
      have hmem := mem_tasks ht
      rw [h.tasks, List.mem_map] at hmem
      obtain ⟨r, hr, rfl⟩ := hmem
      exact absurd (hasPair_iff.mpr hpair) (hfind r hr)
  | some r =>
    have hpair := hasPair_iff.mp (List.find?_some hfind)
    have hget := h.get?_row (List.mem_of_find?_eq_some hfind)
    rw [← hpair, h.inverse.indexed hget, Option.bind_some, hget, Option.map_some]

lemma insert_tasks {t : StoredTask} (h : s.tasksById.get? t.taskId.1 = none) :
    (s.insert t).tasks = s.tasks ++ [t] := by
  have hentries := Dict.set_entries_of_none t h
  simp only [TaskStore.tasks, TaskStore.insert, Dict.values, hentries, List.map_append,
    List.map_cons,
    List.map_nil]

lemma Represents.insert (h : Represents table s) {t : DateTime} {task : QueueTask}
    {taskId : PyText.NonBlank} (hid : s.tasksById.get? taskId.1 = none)
    (hp : s.idempotencyIndex.get? task.pair = none) :
    Represents (table ++ [newRow t task taskId]) (s.insert (newTask task ⟨taskId, t, t⟩)) := by
  refine ⟨insert_inverse h.inverse hid hp, ?_⟩
  rw [insert_tasks hid, h.tasks, List.map_append]
  rfl

/-- **A batch submitted to both.** -/
lemma submitMany_agree {now : DateTime} {batch : List (QueueTask × PyText.NonBlank)}
    (h : Represents table s) (hf : Fresh s (stamped now batch)) :
    ∃ accepted reused table' s', submitRows now batch table = .ok (accepted, reused, table') ∧
      TaskStore.submitMany (stamped now batch) s = (.ok (accepted, reused), s') ∧
      Represents table' s' := by
  induction batch generalizing table s with
  | nil => exact ⟨[], [], table, s, rfl, rfl, h⟩
  | cons b batch ih =>
    obtain ⟨task, taskId⟩ := b
    have hpair := h.find?_pair task
    cases hfind : table.find? (hasPair task) with
    | some r =>
      -- the row of the pair is read, and the task of the pair is in the index
      have hget := h.get?_row (List.mem_of_find?_eq_some hfind)
      have hindex : s.idempotencyIndex.get? task.pair = some r.taskId.1 := by
        rw [← hasPair_iff.mp (List.find?_some hfind)]
        exact h.inverse.indexed hget
      obtain ⟨accepted, reused, table', s', hrows, hmap, hrep⟩ := ih h hf.tail
      have hany : table.any (hasPair task) = true :=
        List.any_eq_true.mpr ⟨r, List.mem_of_find?_eq_some hfind, List.find?_some hfind⟩
      refine ⟨accepted, rowTask r :: reused, table', s', ?_, ?_, hrep⟩
      · rw [submitRows, insertTask, if_pos hany]
        simp only [bind, Except.bind, hfind, storedTaskFromRow_eq, hrows]
        rfl
      · rw [stamped, List.map_cons, TaskStore.submitMany, hindex]
        simp only [hget]
        rw [← stamped, hmap]
        rfl
    | none =>
      have hindex : s.idempotencyIndex.get? task.pair = none := by
        rw [hfind, Option.map_none] at hpair
        cases hi : s.idempotencyIndex.get? task.pair with
        | none => rfl
        | some id =>
          obtain ⟨t, ht, -⟩ := h.inverse.names hi
          rw [hi, Option.bind_some, ht] at hpair
          cases hpair
      have hid : s.tasksById.get? taskId.1 = none := hf.2 _ List.mem_cons_self
      obtain ⟨accepted, reused, table', s', hrows, hmap, hrep⟩ :=
        ih (h.insert (t := now) hid hindex) hf.insert
      have hany : table.any (hasPair task) = false := by
        rw [List.any_eq_false]
        exact List.find?_eq_none.mp hfind
      have hids : (table.any fun r => r.taskId.1 = taskId.1) = false := by
        rw [List.any_eq_false]
        intro r hr hc
        have hget := h.get?_row hr
        rw [of_decide_eq_true hc, hid] at hget
        cases hget
      refine ⟨newTask task ⟨taskId, now, now⟩ :: accepted, reused, table', s', ?_, ?_, hrep⟩
      · rw [submitRows, insertTask, hany, hids]
        simp only [Bool.false_eq_true, if_false, bind, Except.bind, storedTaskFromRow_eq, hrows,
          rowTask_newRow]
        rfl
      · rw [stamped, List.map_cons, TaskStore.submitMany, hindex]
        simp only
        rw [← stamped, hmap]
        rfl

/-! ### Outcomes -/

/-- An outcome recorded in both, where the changes of the row are those of the task. -/
lemma recordRow_agree (h : Represents table s) (id : String) {f : Row → Row}
    {g : StoredTask → StoredTask} (hfg : ∀ r, rowTask (f r) = g (rowTask r))
    (hid : ∀ t, (g t).taskId = t.taskId) (hp : ∀ t, (g t).pair = t.pair) :
    (recordRow id f table).1 = (s.modify id g).1 ∧
      Represents (recordRow id f table).2 (s.modify id g).2 := by
  have hget := h.get?_eq id
  rw [recordRow, updateReturning, returning_head?, TaskStore.modify, hget]
  cases hfind : table.find? fun r => r.taskId.1 = id with
  | none =>
    rw [update_of_find?_eq_none f hfind]
    exact ⟨rfl, h⟩
  | some r =>
    have hr := List.mem_of_find?_eq_some hfind
    obtain rfl : r.taskId.1 = id := by simpa using List.find?_some hfind
    refine ⟨?_, h.update hr (hfg r) hid hp⟩
    simp only [Option.map_some, storedTaskFromRow_eq, hfg]

lemma getTask_agree (h : Represents table s) (tenant id : String) :
    PostgresTaskStore.getTask tenant id table = .ok (s.getTask tenant id) := by
  rw [PostgresTaskStore.getTask, storedTaskFromRow?_eq, find?_and h.ids_nodup, TaskStore.getTask,
    h.get?_eq]
  cases table.find? fun r => r.taskId.1 = id with
  | none => rfl
  | some r =>
    simp only [Option.filter_some, Option.map_some, rowTask]
    split <;> rfl

/-- A cancellation in both, of a task that has not ended before. -/
lemma cancelTask_agree (h : Represents table s) (now : DateTime) {tenant id : String}
    (hended : ∀ t, s.getTask tenant id = some t → t.state.isTerminal = false →
      t.finishedAt = none ∨ t.finishedAt = some (nowIso now)) :
    (PostgresTaskStore.cancelTask now tenant id table).1 =
        .ok (s.cancelTask now tenant id).1 ∧
      Represents (PostgresTaskStore.cancelTask now tenant id table).2
        (s.cancelTask now tenant id).2 := by
  have hread := getTask_agree h tenant id
  rw [PostgresTaskStore.cancelTask, updateReturning, returning_head?, TaskStore.cancelTask]
  cases hfind : table.find? fun r =>
      r.tenant.1 = tenant && r.taskId.1 = id && !r.state.isTerminal with
  | none =>
    -- no row is changed, and the task has ended or is not there
    rw [update_of_find?_eq_none _ hfind, Option.map_none, hread]
    rw [List.find?_eq_none] at hfind
    cases ht : s.getTask tenant id with
    | none => exact ⟨rfl, h⟩
    | some t =>
      obtain ⟨hget, htenant⟩ := Option.filter_eq_some_iff.mp ht
      have hmem := mem_tasks hget
      rw [h.tasks, List.mem_map] at hmem
      obtain ⟨r, hr, rfl⟩ := hmem
      have hid : r.taskId.1 = id := h.inverse.keyed hget
      have hterm : (rowTask r).state.isTerminal = true := by
        by_contra hc
        refine hfind r hr ?_
        simp only [Bool.and_eq_true, decide_eq_true_eq, Bool.not_eq_true'] at htenant ⊢
        exact ⟨⟨htenant, hid⟩, Bool.eq_false_iff.mpr hc⟩
      simp only [hterm, if_true]
      exact ⟨trivial, h⟩
  | some r =>
    have hr := List.mem_of_find?_eq_some hfind
    have hmeets := List.find?_some hfind
    have hfields := hmeets
    simp only [Bool.and_eq_true, decide_eq_true_eq, Bool.not_eq_true'] at hfields
    obtain ⟨⟨htenant, rfl⟩, hterm⟩ := hfields
    have ht : s.getTask tenant r.taskId.1 = some (rowTask r) :=
      Option.filter_eq_some_iff.mpr ⟨h.get?_row hr, decide_eq_true htenant⟩
    have hterm' : (rowTask r).state.isTerminal = false := hterm
    have hrow : rowTask (cancelRow now r) = cancelled now (rowTask r) := by
      rcases hended _ ht hterm' with he | he
      · have he : r.finishedAt = none := Option.map_eq_none_iff.mp he
        simp only [rowTask, cancelRow, cancelled, he]
        rfl
      · obtain ⟨ended, hfinished, htext⟩ := Option.map_eq_some_iff.mp he
        obtain rfl := nowIso_injective htext
        simp only [rowTask, cancelRow, cancelled, hfinished]
        rfl
    rw [ht]
    simp only [hterm', Bool.false_eq_true, if_false, Option.map_some, storedTaskFromRow_eq, hrow]
    refine ⟨rfl, ?_⟩
    rw [update_key h.ids_nodup _ hr (fun x hx => ?_) hmeets]
    · exact h.update hr hrow (fun _ => rfl) fun _ => rfl
    · simp only [Bool.and_eq_true, decide_eq_true_eq] at hx
      exact hx.1.2

/-! ### Reading -/

/-- Rows are ordered as the tasks that they stand for. -/
lemma row_order (r r' : Row) :
    toLex (r.createdAt, r.taskId.1) ≤ toLex (r'.createdAt, r'.taskId.1) ↔
      toLex ((rowTask r).createdAt, (rowTask r).taskId.1) ≤
        toLex ((rowTask r').createdAt, (rowTask r').taskId.1) := by
  simp only [Prod.Lex.toLex_le_toLex, rowTask, nowIso_lt_iff, nowIso_injective.eq_iff]

lemma listTasks_agree (h : Represents table s) (tenant : String) (state model : Option String)
    (limit : ℤ) : PostgresTaskStore.listTasks tenant state model limit table =
      .ok (s.listTasks tenant state model limit) := by
  rw [PostgresTaskStore.listTasks, storedTasksFromRows_eq, TaskStore.listTasks, h.tasks,
    List.filter_map, List.map_take]
  refine congrArg (fun l => Except.ok (List.take _ l)) ?_
  exact List.map_insertionSort _ _ _ _ fun r _ r' _ => row_order r r'

/-- What a dictionary of counts holds under a key. -/
def countOf {κ : Type} [DecidableEq κ] (counts : List (κ × ℕ)) (key : κ) : Option ℕ :=
  counts.lookup key

lemma queueLengthsByModel_agree (h : Represents table s) (model : String) :
    countOf (PostgresTaskStore.queueLengthsByModel table) model =
      countOf s.queueLengthsByModel model := by
  have hcount := Dict.get?_countBy (fun t : StoredTask => t.model.1) s.activeTasks model
  rw [countOf, PostgresTaskStore.queueLengthsByModel, lookup_counts]
  refine Eq.trans ?_ hcount.symm
  rw [activeTasks, h.tasks, List.filter_map, List.countP_map]
  rfl

lemma taskCountsByState_agree (h : Represents table s) (key : List String) :
    countOf (PostgresTaskStore.taskCountsByState table) key = countOf s.taskCountsByState key := by
  have hcount := Dict.get?_countBy taskStateCountKey s.tasks key
  rw [countOf, PostgresTaskStore.taskCountsByState, lookup_counts]
  refine Eq.trans ?_ hcount.symm
  rw [h.tasks, List.countP_map]
  rfl

end Orchestrator.RowTasks
