import Orchestrator.StoreFile

/-!
What every operation of the task store keeps: the map and the index are inverse to each other
(`Inverse`), and no task leaves its id or its pair (`Extends`).

All operations but `submit_many` and a restart are single updates, `update_inverse` and
`update_extends`; `claimNext_cases` and its companions say which.
-/

namespace Orchestrator.TaskStore

open Lib Clock PyText

/-- The map and the index are inverse to each other. -/
structure Inverse (s : TaskStore) : Prop where
  keyed : ∀ {id t}, s.tasksById.get? id = some t → t.taskId.1 = id
  names : ∀ {p id}, s.idempotencyIndex.get? p = some id →
    ∃ t, s.tasksById.get? id = some t ∧ t.pair = p
  indexed : ∀ {id t}, s.tasksById.get? id = some t → s.idempotencyIndex.get? t.pair = some id

/-- Every task of `s` is still in `s'`, under its id and its pair. -/
def Extends (s s' : TaskStore) : Prop :=
  ∀ id t, s.tasksById.get? id = some t → ∃ t', s'.tasksById.get? id = some t' ∧ t'.pair = t.pair

lemma Extends.refl (s : TaskStore) : Extends s s := fun _ t h => ⟨t, h, rfl⟩

lemma Extends.trans {s t u : TaskStore} (h : Extends s t) (h' : Extends t u) : Extends s u := by
  intro id a ha
  obtain ⟨b, hb, hab⟩ := h id a ha
  obtain ⟨c, hc, hbc⟩ := h' id b hb
  exact ⟨c, hc, hbc.trans hab⟩

variable {s s' : TaskStore}

lemma Inverse.empty : Inverse TaskStore.empty := ⟨nofun, nofun, nofun⟩

lemma Inverse.index_extends (hs : Inverse s) (hs' : Inverse s') (he : Extends s s')
    {p : String × String} {id : String} (h : s.idempotencyIndex.get? p = some id) :
    s'.idempotencyIndex.get? p = some id := by
  obtain ⟨t, ht, rfl⟩ := hs.names h
  obtain ⟨t', ht', hp⟩ := he id t ht
  rw [← hp]
  exact hs'.indexed ht'

lemma Inverse.get?_of_mem (hs : Inverse s) {t : StoredTask} (h : t ∈ s.tasks) :
    s.tasksById.get? t.taskId.1 = some t := by
  obtain ⟨id, hid⟩ := Dict.mem_values.mp h
  rwa [hs.keyed hid]

lemma mem_tasks {id : String} {t : StoredTask} (h : s.tasksById.get? id = some t) : t ∈ s.tasks :=
  Dict.mem_values_of_get? h

/-- **At most one task exists per pair.** -/
theorem Inverse.unique (hs : Inverse s) {t u : StoredTask} (ht : t ∈ s.tasks) (hu : u ∈ s.tasks)
    (h : t.pair = u.pair) : t = u := by
  have h1 := hs.indexed (hs.get?_of_mem ht)
  have h2 := hs.indexed (hs.get?_of_mem hu)
  rw [h, h2, Option.some_inj] at h1
  have h3 := hs.get?_of_mem ht
  rw [← h1, hs.get?_of_mem hu] at h3
  exact (Option.some.inj h3).symm

/-! ### One task inserted -/

lemma insert_inverse (hs : Inverse s) {t : StoredTask}
    (hid : s.tasksById.get? t.taskId.1 = none) (hp : s.idempotencyIndex.get? t.pair = none) :
    Inverse (s.insert t) := by
  refine ⟨fun {id u} h => ?_, fun {p id} h => ?_, fun {id u} h => ?_⟩
  · rw [insert, Dict.get?_set] at h
    split at h
    · next he => cases h; exact he.symm
    · exact hs.keyed h
  · rw [insert, Dict.get?_set] at h
    split at h
    · next he => cases h; exact ⟨t, Dict.get?_set_self .., he.symm⟩
    · obtain ⟨u, hu, hup⟩ := hs.names h
      have hne : id ≠ t.taskId.1 := by rintro rfl; rw [hid] at hu; cases hu
      exact ⟨u, by rw [insert, Dict.get?_set_ne _ _ hne, hu], hup⟩
  · rw [insert, Dict.get?_set] at h
    split at h
    · next he => cases h; rw [he]; exact Dict.get?_set_self ..
    · have hi := hs.indexed h
      have hne : u.pair ≠ t.pair := by intro hc; rw [hc, hp] at hi; cases hi
      rw [insert, Dict.get?_set_ne _ _ hne, hi]

lemma insert_get?_of_some {t u : StoredTask} {id : String}
    (hid : s.tasksById.get? t.taskId.1 = none) (h : s.tasksById.get? id = some u) :
    (s.insert t).tasksById.get? id = some u := by
  have hne : id ≠ t.taskId.1 := by rintro rfl; rw [hid] at h; cases h
  rw [insert, Dict.get?_set_ne _ _ hne, h]

/-! ### One task updated -/

/-- `s'` is `s` with the task under `id` changed by `f`. -/
structure Updated (id : String) (t t' : StoredTask) (s s' : TaskStore) : Prop where
  before : s.tasksById.get? id = some t
  after : s' = { s with tasksById := s.tasksById.set id t' }
  sameId : t'.taskId = t.taskId
  samePair : t'.pair = t.pair

lemma Updated.get? {id : String} {t t' : StoredTask} (h : Updated id t t' s s') (x : String) :
    s'.tasksById.get? x = if x = id then some t' else s.tasksById.get? x := by
  rw [h.after]; exact Dict.get?_set ..

lemma Updated.get?_self {id : String} {t t' : StoredTask} (h : Updated id t t' s s') :
    s'.tasksById.get? id = some t' := by rw [h.get?, if_pos rfl]

lemma Updated.get?_ne {id x : String} {t t' : StoredTask} (h : Updated id t t' s s') (hx : x ≠ id) :
    s'.tasksById.get? x = s.tasksById.get? x := by rw [h.get?, if_neg hx]

lemma Updated.extends {id : String} {t t' : StoredTask} (h : Updated id t t' s s') :
    Extends s s' := by
  intro x u hu
  by_cases hx : x = id
  · subst hx
    rw [h.before] at hu
    cases hu
    exact ⟨t', h.get?_self, h.samePair⟩
  · exact ⟨u, by rw [h.get?_ne hx, hu], rfl⟩

lemma Updated.inverse {id : String} {t t' : StoredTask} (h : Updated id t t' s s')
    (hs : Inverse s) : Inverse s' := by
  have hidx : s'.idempotencyIndex = s.idempotencyIndex := by rw [h.after]
  refine ⟨fun {x u} hu => ?_, fun {p x} hp => ?_, fun {x u} hu => ?_⟩
  · rw [h.get?] at hu
    split at hu
    · next he => cases hu; rw [h.sameId, he]; exact hs.keyed h.before
    · exact hs.keyed hu
  · rw [hidx] at hp
    obtain ⟨u, hu, rfl⟩ := hs.names hp
    exact h.extends x u hu
  · rw [hidx]
    rw [h.get?] at hu
    split at hu
    · next he => cases hu; rw [h.samePair, he]; exact hs.indexed h.before
    · exact hs.indexed hu

/-! ### The operations as updates -/

lemma mem_candidates {now : DateTime} {model : Option String} {l found : List StoredTask}
    (h : candidates now model l = .ok found) {t : StoredTask} :
    t ∈ found ↔ t ∈ l ∧ isTaskClaimable now model t = .ok true := by
  induction l generalizing found with
  | nil => cases h; simp
  | cons u l ih =>
    simp only [candidates] at h
    cases hc : isTaskClaimable now model u with
    | error e => rw [hc] at h; cases h
    | ok b =>
      cases hr : candidates now model l with
      | error e => rw [hc, hr] at h; cases h
      | ok rest =>
        rw [hc, hr] at h
        cases h
        cases b
        · rw [if_neg Bool.false_ne_true, ih hr, List.mem_cons]
          constructor
          · exact fun h => ⟨Or.inr h.1, h.2⟩
          · rintro ⟨rfl | h, h'⟩
            · rw [hc] at h'; cases h'
            · exact ⟨h, h'⟩
        · rw [if_pos rfl, List.mem_cons, List.mem_cons, ih hr]
          constructor
          · rintro (rfl | h)
            · exact ⟨Or.inl rfl, hc⟩
            · exact ⟨Or.inr h.1, h.2⟩
          · rintro ⟨rfl | h, h'⟩
            · exact Or.inl rfl
            · exact Or.inr ⟨h, h'⟩

lemma claimable_queued {now : DateTime} {model : Option String} {t : StoredTask}
    (h : isTaskClaimable now model t = .ok true) : t.state = .queued := by
  rw [isTaskClaimable] at h
  split at h
  · cases h
  · next hq => simpa [TaskState.isClaimable] using hq

lemma mem_of_chooseFairTask {found all : List StoredTask} {t : StoredTask}
    (h : chooseFairTask found all = some t) : t ∈ found := by
  rw [chooseFairTask] at h
  split at h
  · cases h
  · next selected hsel =>
    have hg := Dict.get?_eq_some.mpr (List.argmin_mem hsel)
    exact (((Dict.mem_groupBy hg).2 t).mp (List.argmin_mem h)).1

lemma chooseFairTask_eq_none {found all : List StoredTask}
    (h : chooseFairTask found all = none) : found = [] := by
  rw [chooseFairTask] at h
  split at h
  · next hsel =>
    rw [List.argmin_eq_none] at hsel
    by_contra hne
    obtain ⟨t, ht⟩ := List.exists_mem_of_ne_nil found hne
    have hg := Dict.get?_groupBy fairnessGroupKey found (fairnessGroupKey t)
    rw [Dict.get?, hsel] at hg
    split at hg
    · next he => simpa using List.filter_eq_nil_iff.mp he t ht
    · cases hg
  · next selected hsel =>
    have hg := Dict.get?_eq_some.mpr (List.argmin_mem hsel)
    exact absurd (List.argmin_eq_none.mp h) (Dict.mem_groupBy hg).1

/-- What `claim_next` does: nothing, or it claims one claimable task. -/
lemma claimNext_cases (hs : Inverse s) {now : DateTime} {model : Option String}
    {r : Except Exn (Option StoredTask)} (h : claimNext now model s = (r, s')) :
    (∃ e, r = .error e ∧ s' = s) ∨ (r = .ok none ∧ s' = s ∧ candidates now model s.tasks = .ok []) ∨
      ∃ t, r = .ok (some (claimed now t)) ∧ isTaskClaimable now model t = .ok true ∧
        Updated t.taskId.1 t (claimed now t) s s' := by
  rw [claimNext] at h
  split at h
  · next e he => cases h; exact Or.inl ⟨e, rfl, rfl⟩
  · next found hf =>
    split at h
    · next hn => cases h; exact Or.inr (Or.inl ⟨rfl, rfl, by rw [hf, chooseFairTask_eq_none hn]⟩)
    · next t ht =>
      cases h
      have hm := (mem_candidates hf).mp (mem_of_chooseFairTask ht)
      exact Or.inr (Or.inr ⟨t, rfl, hm.2, hs.get?_of_mem hm.1, rfl, rfl, rfl⟩)

/-- What recording an outcome does: it raises and changes nothing, or it updates the task. -/
lemma modify_cases {id : String} {f : StoredTask → StoredTask}
    (hid : ∀ t, (f t).taskId = t.taskId) (hp : ∀ t, (f t).pair = t.pair)
    {r : Except Exn StoredTask} (h : s.modify id f = (r, s')) :
    (r = .error (.keyError id) ∧ s' = s ∧ s.tasksById.get? id = none) ∨
      ∃ t, r = .ok (f t) ∧ Updated id t (f t) s s' := by
  rw [modify] at h
  split at h
  · next t ht => cases h; exact Or.inr ⟨t, rfl, ht, rfl, hid t, hp t⟩
  · next hn => cases h; exact Or.inl ⟨rfl, rfl, hn⟩

/-- What `cancel_task` does: nothing, or it cancels a task that is not terminal. -/
lemma cancelTask_cases (hs : Inverse s) {now : DateTime} {tenant id : String}
    {r : Option StoredTask} (h : cancelTask now tenant id s = (r, s')) :
    s' = s ∨ ∃ t, r = some (cancelled now t) ∧ t.state.isTerminal = false ∧ t.tenant.1 = tenant ∧
      Updated id t (cancelled now t) s s' := by
  rw [cancelTask] at h
  split at h
  · cases h; exact Or.inl rfl
  · next t ht =>
    rw [getTask, Option.filter_eq_some_iff] at ht
    split at h
    · cases h; exact Or.inl rfl
    · next hterm =>
      cases h
      have hid := hs.keyed ht.1
      refine Or.inr ⟨t, rfl, by simpa using hterm, by simpa using ht.2, ht.1, ?_, rfl, rfl⟩
      rw [put, show (cancelled now t).taskId.1 = id from hid]

/-! ### Restarts -/

lemma loadTasks_snoc (l : List StoredTask) (t : StoredTask) :
    loadTasks (l ++ [t]) = (loadTasks l).insert t := by simp [loadTasks, List.foldl_append]

/-- The tasks of a store that was loaded, by their ids. -/
lemma loadTasks_get? {l : List StoredTask} (hid : (l.map fun t => t.taskId.1).Nodup) (id : String)
    (t : StoredTask) : (loadTasks l).tasksById.get? id = some t ↔ t ∈ l ∧ t.taskId.1 = id := by
  induction l using List.reverseRecOn generalizing id t with
  | nil => simp [loadTasks, TaskStore.empty]
  | append_singleton l u ih =>
    rw [List.map_append, List.nodup_append] at hid
    rw [loadTasks_snoc, insert, Dict.get?_set]
    split
    · next he =>
      subst he
      constructor
      · intro h
        cases h
        exact ⟨by simp, rfl⟩
      · rintro ⟨hm, he⟩
        rcases List.mem_append.mp hm with hm | hm
        · exact absurd he (hid.2.2 _ (List.mem_map.mpr ⟨t, hm, rfl⟩) _ (by simp))
        · rw [List.mem_singleton.mp hm]
    · next he =>
      rw [ih hid.1]
      constructor
      · exact fun h => ⟨List.mem_append_left _ h.1, h.2⟩
      · rintro ⟨hm, rfl⟩
        rcases List.mem_append.mp hm with hm | hm
        · exact ⟨hm, rfl⟩
        · rw [List.mem_singleton.mp hm] at he
          exact absurd rfl he

lemma loadTasks_inverse {l : List StoredTask} (hid : (l.map fun t => t.taskId.1).Nodup)
    (hp : (l.map fun t => t.pair).Nodup) : Inverse (loadTasks l) := by
  induction l using List.reverseRecOn with
  | nil => exact Inverse.empty
  | append_singleton l t ih =>
    rw [List.map_append, List.nodup_append] at hid hp
    have hinv := ih hid.1 hp.1
    have hget := loadTasks_get? hid.1
    have hnone : (loadTasks l).tasksById.get? t.taskId.1 = none := by
      rw [Option.eq_none_iff_forall_ne_some]
      intro u hu
      obtain ⟨hm, he⟩ := (hget _ u).mp hu
      exact hid.2.2 _ (List.mem_map.mpr ⟨u, hm, rfl⟩) _ (by simp) he
    have hpnone : (loadTasks l).idempotencyIndex.get? t.pair = none := by
      rw [Option.eq_none_iff_forall_ne_some]
      intro id hi
      obtain ⟨u, hu, hup⟩ := hinv.names hi
      exact hp.2.2 _ (List.mem_map.mpr ⟨u, ((hget _ u).mp hu).1, rfl⟩) _ (by simp) hup
    rw [loadTasks_snoc]
    exact insert_inverse hinv hnone hpnone

lemma ids_nodup (hkeyed : ∀ id t, s.tasksById.get? id = some t → t.taskId.1 = id) :
    (s.tasks.map fun t => t.taskId.1).Nodup := by
  have h : s.tasks.map (fun t => t.taskId.1) = s.tasksById.keys := by
    rw [tasks, Dict.values, Dict.keys, List.map_map]
    refine List.map_congr_left fun p hp => ?_
    exact hkeyed _ _ (Dict.get?_eq_some.mpr hp)
  rw [h]
  exact s.tasksById.keys_nodup

lemma Inverse.tasks_nodup (hs : Inverse s) : (s.tasks.map fun t => t.taskId.1).Nodup :=
  ids_nodup fun _ _ h => hs.keyed h

lemma Inverse.pairs_nodup (hs : Inverse s) : (s.tasks.map fun t => t.pair).Nodup :=
  (hs.tasks_nodup.of_map _).map_on fun _ ht _ hu h => hs.unique ht hu h

/-- **A restart** keeps every task under its id, up to the order of keys. -/
theorem reload_spec (hs : Inverse s) {now : DateTime} (h : reload now s = .ok s') :
    Inverse s' ∧ ∀ id, s'.tasksById.get? id =
      (s.tasksById.get? id).map (StoredTask.reloaded (nowIso now)) := by
  rw [reload_eq] at h
  cases h
  have hperm := List.perm_insertionSort (fun a b : StoredTask => a.taskId.1 ≤ b.taskId.1) s.tasks
  have hid : ((s.fileTasks now).map fun t => t.taskId.1).Nodup := by
    rw [fileTasks, List.map_map]
    exact (hperm.map _).nodup_iff.mpr hs.tasks_nodup
  have hp : ((s.fileTasks now).map fun t => t.pair).Nodup := by
    rw [fileTasks, List.map_map]
    exact (hperm.map _).nodup_iff.mpr hs.pairs_nodup
  refine ⟨loadTasks_inverse hid hp, fun id => ?_⟩
  ext t
  rw [loadTasks_get? hid, Option.map_eq_some_iff, fileTasks, List.mem_map]
  constructor
  · rintro ⟨⟨u, hu, rfl⟩, rfl⟩
    exact ⟨u, hs.get?_of_mem (hperm.mem_iff.mp hu), rfl⟩
  · rintro ⟨u, hu, rfl⟩
    exact ⟨⟨u, hperm.mem_iff.mpr (mem_tasks hu), rfl⟩, show u.taskId.1 = id from hs.keyed hu⟩

lemma reload_extends (hs : Inverse s) {now : DateTime} (h : reload now s = .ok s') :
    Extends s s' := by
  intro id t ht
  exact ⟨t.reloaded (nowIso now), by rw [(reload_spec hs h).2, ht]; rfl, rfl⟩

end Orchestrator.TaskStore
