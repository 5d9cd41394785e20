import Mathlib.Data.List.Forall2
import Orchestrator.Lib.Lts
import Orchestrator.StoreInvariant

/-!
Runs of the task store, and idempotent submission: in every reachable store the map and the
index are inverse to each other, a submission accounts for each of its tasks once, and the same
submission made again later reuses what the first one stored.
-/

namespace Orchestrator.Idempotency

open Lib Clock TaskStore

/-! ### The store as a transition system -/

/-- An operation with the ids and the clock readings it draws. -/
inductive StoreOp
  | submitMany (batch : List (QueueTask × Stamp))
  | claimNext (now : DateTime) (model : Option String)
  | recordResult (now : DateTime) (taskId : String) (result : Mapping)
  | recordError (now : DateTime) (taskId : String) (error : Mapping)
  | recordRetry (now : DateTime) (taskId : String) (error : Mapping) (nextAttemptAt : String)
  | cancelTask (now : DateTime) (tenant taskId : String)
  | reload (now : DateTime)

/-- The ids drawn for a batch are new and distinct. -/
def Fresh (s : TaskStore) (batch : List (QueueTask × Stamp)) : Prop :=
  (batch.map fun b => b.2.taskId.1).Nodup ∧ ∀ b ∈ batch, s.tasksById.get? b.2.taskId.1 = none

def storeStep (s : TaskStore) (op : StoreOp) (s' : TaskStore) : Prop :=
  match op with
  | .submitMany batch => Fresh s batch ∧ ∃ r, submitMany batch s = (r, s')
  | .claimNext now model => ∃ r, claimNext now model s = (r, s')
  | .recordResult now taskId result => ∃ r, recordResult now taskId result s = (r, s')
  | .recordError now taskId error => ∃ r, recordError now taskId error s = (r, s')
  | .recordRetry now taskId error nextAttemptAt =>
    ∃ r, recordRetry now taskId error nextAttemptAt s = (r, s')
  | .cancelTask now tenant taskId => ∃ r, cancelTask now tenant taskId s = (r, s')
  | .reload now => reload now s = .ok s'

def storeLts : Lts TaskStore StoreOp where
  init s := s = TaskStore.empty
  step := storeStep

/-! ### One submission -/

/-- What a submission makes of one of its tasks: whether it is new, and the stored task. -/
abbrev Outcome := Bool × StoredTask

/-- The outcomes that account for a batch: each has the pair of its task, and a new one has all
its fields. -/
def Accounts (batch : List QueueTask) (outcomes : List Outcome) : Prop :=
  List.Forall₂ (fun task o => o.2.pair = task.pair ∧ (o.1 = true → o.2.toQueueTask = task))
    batch outcomes

def accepted (outcomes : List Outcome) : List StoredTask :=
  (outcomes.filter fun o => o.1).map Prod.snd
def reused (outcomes : List Outcome) : List StoredTask :=
  (outcomes.filter fun o => !o.1).map Prod.snd

lemma Fresh.tail {s : TaskStore} {b : QueueTask × Stamp} {batch : List (QueueTask × Stamp)}
    (h : Fresh s (b :: batch)) : Fresh s batch :=
  ⟨(List.nodup_cons.mp h.1).2, fun c hc => h.2 c (List.mem_cons_of_mem b hc)⟩

lemma Fresh.insert {s : TaskStore} {b : QueueTask × Stamp} {batch : List (QueueTask × Stamp)}
    (h : Fresh s (b :: batch)) : Fresh (s.insert (newTask b.1 b.2)) batch := by
  refine ⟨h.tail.1, fun c hc => ?_⟩
  have hne : c.2.taskId.1 ≠ b.2.taskId.1 := by
    intro he
    exact (List.nodup_cons.mp h.1).1 (List.mem_map.mpr ⟨c, hc, he⟩)
  have hget : (s.insert (newTask b.1 b.2)).tasksById.get? c.2.taskId.1 =
      s.tasksById.get? c.2.taskId.1 := Dict.get?_set_ne _ _ hne
  rw [hget]
  exact h.tail.2 c hc

/-- **One submission** to a store whose map and index are inverse: it never fails, accounts for
each task once, changes no stored task, and leaves every task of the batch indexed. -/
theorem submitMany_spec {s : TaskStore} {batch : List (QueueTask × Stamp)} (hs : Inverse s)
    (hf : Fresh s batch) :
    ∃ outcomes s', submitMany batch s = (.ok (accepted outcomes, reused outcomes), s') ∧
      Accounts (batch.map Prod.fst) outcomes ∧ Inverse s' ∧
      (∀ id t, s.tasksById.get? id = some t → s'.tasksById.get? id = some t) ∧
      ∀ o ∈ outcomes, s'.tasksById.get? o.2.taskId.1 = some o.2 := by
  induction batch generalizing s with
  | nil => exact ⟨[], s, rfl, .nil, hs, fun _ _ h => h, by simp⟩
  | cons b batch ih =>
    obtain ⟨task, stamp⟩ := b
    cases hi : s.idempotencyIndex.get? task.pair with
    | some existing =>
      obtain ⟨t, ht, hp⟩ := hs.names hi
      obtain ⟨outcomes, s', h, hacc, hinv, hkeep, hst⟩ := ih hs hf.tail
      refine ⟨(false, t) :: outcomes, s', ?_, .cons ⟨hp, fun hb => by cases hb⟩ hacc, hinv,
        hkeep, ?_⟩
      · simp only [submitMany, hi, ht, h]
        rfl
      · rw [List.forall_mem_cons]
        refine ⟨?_, hst⟩
        rw [show t.taskId.1 = existing from hs.keyed ht]
        exact hkeep _ t ht
    | none =>
      have hid : s.tasksById.get? (newTask task stamp).taskId.1 = none :=
        hf.2 (task, stamp) (by simp)
      obtain ⟨outcomes, s', h, hacc, hinv, hkeep, hst⟩ :=
        ih (insert_inverse (t := newTask task stamp) hs hid hi) hf.insert
      refine ⟨(true, newTask task stamp) :: outcomes, s', ?_, .cons ⟨rfl, fun _ => rfl⟩ hacc, hinv,
        fun id t ht => hkeep id t (insert_get?_of_some hid ht), ?_⟩
      · simp only [submitMany, hi, h]
        rfl
      · rw [List.forall_mem_cons]
        exact ⟨hkeep _ _ (Dict.get?_set_self ..), hst⟩

/-- A submission all of whose pairs are indexed reuses the tasks they name. -/
lemma submitMany_indexed {s : TaskStore} (hs : Inverse s) {batch : List (QueueTask × Stamp)}
    {ids : List String}
    (h : List.Forall₂ (fun b id => s.idempotencyIndex.get? b.1.pair = some id) batch ids) :
    ∃ tasks, submitMany batch s = (.ok ([], tasks), s) ∧ tasks.map (fun t => t.taskId.1) = ids := by
  induction h with
  | nil => exact ⟨[], rfl, rfl⟩
  | cons hb _ ih =>
    obtain ⟨tasks, ht, hids⟩ := ih
    obtain ⟨t, hget, -⟩ := hs.names hb
    refine ⟨t :: tasks, ?_, ?_⟩
    · simp only [submitMany, hb, hget, ht]
      rfl
    · rw [List.map_cons, hids, hs.keyed hget]

/-! ### Steps and runs -/

lemma modify_keeps {s s' : TaskStore} (hs : Inverse s) {id : String} {f : StoredTask → StoredTask}
    (hid : ∀ t, (f t).taskId = t.taskId) (hp : ∀ t, (f t).pair = t.pair)
    (h : ∃ r, s.modify id f = (r, s')) : Inverse s' ∧ Extends s s' := by
  obtain ⟨r, h⟩ := h
  rcases modify_cases hid hp h with ⟨-, rfl, -⟩ | ⟨t, -, hu⟩
  · exact ⟨hs, Extends.refl s'⟩
  · exact ⟨hu.inverse hs, hu.extends⟩

/-- **One step** keeps the inverse maps, and every task under its id and its pair. -/
lemma storeStep_keeps {s s' : TaskStore} {op : StoreOp} (hs : Inverse s)
    (h : storeStep s op s') : Inverse s' ∧ Extends s s' := by
  cases op with
  | submitMany batch =>
    obtain ⟨hf, r, h⟩ := h
    obtain ⟨outcomes, s'', he, -, hinv, hkeep, -⟩ := submitMany_spec hs hf
    obtain ⟨-, rfl⟩ := Prod.mk.inj (h.symm.trans he)
    exact ⟨hinv, fun id t ht => ⟨t, hkeep id t ht, rfl⟩⟩
  | claimNext now model =>
    obtain ⟨r, h⟩ := h
    rcases claimNext_cases hs h with ⟨_, -, rfl⟩ | ⟨-, rfl, -⟩ | ⟨t, -, -, hu⟩
    · exact ⟨hs, Extends.refl s'⟩
    · exact ⟨hs, Extends.refl s'⟩
    · exact ⟨hu.inverse hs, hu.extends⟩
  | recordResult now taskId result =>
    exact modify_keeps hs (fun _ => by rfl) (fun _ => by rfl) h
  | recordError now taskId error =>
    exact modify_keeps hs (fun _ => by rfl) (fun _ => by rfl) h
  | recordRetry now taskId error nextAttemptAt =>
    exact modify_keeps hs (fun _ => by rfl) (fun _ => by rfl) h
  | cancelTask now tenant taskId =>
    obtain ⟨r, h⟩ := h
    rcases cancelTask_cases hs h with rfl | ⟨t, -, -, -, hu⟩
    · exact ⟨hs, Extends.refl s'⟩
    · exact ⟨hu.inverse hs, hu.extends⟩
  | reload now => exact ⟨(reload_spec hs h).1, reload_extends hs h⟩

variable {s u : TaskStore}

lemma inverse_of_run (h : storeLts.Run Lts.anyStep s u) (hs : Inverse s) : Inverse u :=
  h.invariant (I := Inverse) (fun _ _ _ hs _ hl => (storeStep_keeps hs hl).1) hs

lemma extends_of_run (h : storeLts.Run Lts.anyStep s u) (hs : Inverse s) : Extends s u :=
  h.stable (I := Inverse) (K := Extends s) (fun _ _ _ hs _ hl => (storeStep_keeps hs hl).1)
    (fun _ _ _ hs hk _ hl => hk.trans (storeStep_keeps hs hl).2) hs (Extends.refl s)

theorem inverse_of_reachable (h : storeLts.Reachable Lts.anyStep s) : Inverse s :=
  h.invariant (I := Inverse) (fun s h0 => by
    rw [show s = TaskStore.empty from h0]; exact Inverse.empty)
    fun _ _ _ hs _ hl => (storeStep_keeps hs hl).1

/-- **Submission is idempotent.** In every reachable store the map and the index are inverse to
each other, so that at most one task exists per pair. Every submission with fresh ids accounts
for each of its tasks once and changes no stored task; made again at any later point, it accepts
nothing and reuses the same ids in the order of the batch. -/
theorem submission_idempotent (h : storeLts.Reachable Lts.anyStep s) :
    ((∀ p id, s.idempotencyIndex.get? p = some id →
        ∃ t, s.tasksById.get? id = some t ∧ (t.tenant.1, t.idempotencyKey.1) = p) ∧
      (∀ id t, s.tasksById.get? id = some t →
        s.idempotencyIndex.get? (t.tenant.1, t.idempotencyKey.1) = some id) ∧
      ∀ t ∈ s.tasks, ∀ u ∈ s.tasks, t.pair = u.pair → t = u) ∧
    ∀ batch, Fresh s batch →
      ∃ outcomes s', submitMany batch s = (.ok (accepted outcomes, reused outcomes), s') ∧
        Accounts (batch.map Prod.fst) outcomes ∧
        (∀ id t, s.tasksById.get? id = some t → s'.tasksById.get? id = some t) ∧
        ∀ u again, storeLts.Run Lts.anyStep s' u → again.map Prod.fst = batch.map Prod.fst →
          ∃ tasks, submitMany again u = (.ok ([], tasks), u) ∧
            tasks.map (fun t => t.taskId.1) = outcomes.map fun o => o.2.taskId.1 := by
  have hs := inverse_of_reachable h
  refine ⟨⟨fun p id hp => hs.names hp, fun id t ht => hs.indexed ht,
    fun t ht u hu he => hs.unique ht hu he⟩, fun batch hf => ?_⟩
  obtain ⟨outcomes, s', he, hacc, hinv, hkeep, hst⟩ := submitMany_spec hs hf
  refine ⟨outcomes, s', he, hacc, hkeep, fun u again hrun hagain => ?_⟩
  have hu := inverse_of_run hrun hinv
  refine submitMany_indexed hu ?_
  -- the index of the later store still names, pair by pair, the tasks of the outcomes
  rw [Accounts, ← hagain, List.forall₂_map_left_iff] at hacc
  rw [List.forall₂_map_right_iff]
  refine ((List.forall₂_and_left _ _).mpr ⟨hst, hacc.flip⟩).flip.imp fun b o ho => ?_
  obtain ⟨hget, hp, -⟩ := ho
  rw [← hp]
  exact hinv.index_extends hu (extends_of_run hrun hinv) (hinv.indexed hget)

/-- A batch with a repeated key and a key that another tenant uses too. -/
def sampleBatch (ids : PyText.NonBlank × PyText.NonBlank × PyText.NonBlank) :
    List (QueueTask × Stamp) :=
  [(sampleTask ⟨"acme", nonBlank_acme⟩ ⟨"k", by decide⟩ [], sampleStamp ids.1),
   (sampleTask ⟨"globex", nonBlank_globex⟩ ⟨"k", by decide⟩ [], sampleStamp ids.2.1),
   (sampleTask ⟨"acme", nonBlank_acme⟩ ⟨"k", by decide⟩ [], sampleStamp ids.2.2)]

theorem submission_idempotent_sample :
    ∃ outcomes s', submitMany (sampleBatch
        (⟨"task_1", nonBlank_task1⟩, ⟨"task_2", nonBlank_task2⟩, ⟨"task_3", nonBlank_task3⟩))
        TaskStore.empty =
        (.ok (accepted outcomes, reused outcomes), s') ∧
      ∃ tasks, submitMany (sampleBatch
          (⟨"task_4", by decide⟩, ⟨"task_5", by decide⟩, ⟨"task_6", by decide⟩)) s' =
          (.ok ([], tasks), s') ∧
        tasks.map (fun t => t.taskId.1) = outcomes.map fun o => o.2.taskId.1 := by
  have hf : Fresh TaskStore.empty (sampleBatch
      (⟨"task_1", nonBlank_task1⟩, ⟨"task_2", nonBlank_task2⟩, ⟨"task_3", nonBlank_task3⟩)) :=
    ⟨by decide, fun _ _ => rfl⟩
  obtain ⟨outcomes, s', h, -, -, hagain⟩ :=
    (submission_idempotent (Lts.Reachable.init rfl)).2 _ hf
  exact ⟨outcomes, s', h, hagain s' _ (Lts.Run.refl s') rfl⟩

end Orchestrator.Idempotency
