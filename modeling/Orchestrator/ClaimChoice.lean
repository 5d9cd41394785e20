import Orchestrator.Durability
import Orchestrator.FairChoice

/-!
What `claim_next` takes. The choice is a least element in two steps, over groups and then in the
group; the keys of both steps are total, so the task that is taken depends on which tasks there are,
and not on the order in which they are stored.
-/

namespace Orchestrator.ClaimChoice

open Lib Clock TaskStore Durability

variable {s s' : TaskStore} {now : DateTime} {model : Option String}
  {found found' all all' : List StoredTask}

/-! ### The tasks a claim may take -/

/-- A queued task, of the model that is asked for, whose next attempt is due. -/
structure Claimable (now : DateTime) (model : Option String) (t : StoredTask) : Prop where
  queued : t.state = .queued
  model : ∀ name, model = some name → t.model.1 = name
  due : ∀ text, t.nextAttemptAt = some text → ∃ time, parseIso text = .ok time ∧ time ≤ now

lemma isTaskClaimable_iff {t : StoredTask} :
    isTaskClaimable now model t = .ok true ↔ Claimable now model t := by
  have hstate : (!t.state.isClaimable) = true ↔ t.state ≠ .queued := by
    cases t.state <;> simp [TaskState.isClaimable]
  have hmodel : (model.isSome && model != some t.model.1) = true ↔
      ¬ ∀ name, model = some name → t.model.1 = name := by
    cases model with
    | none => simp
    | some name =>
      simp only [Option.isSome_some, Bool.true_and, bne_iff_ne, ne_eq, Option.some.injEq,
        forall_eq']
      exact not_congr eq_comm
  rw [isTaskClaimable]
  split
  · next h => exact ⟨(fun hc => by cases hc), fun hc => absurd hc.queued (hstate.mp h)⟩
  next hqueued =>
  have hqueued := not_not.mp (fun h => hqueued (hstate.mpr h))
  split
  · next h => exact ⟨(fun hc => by cases hc), fun hc => absurd hc.model (hmodel.mp h)⟩
  next hname =>
  have hname := not_not.mp (fun h => hname (hmodel.mpr h))
  split
  · next hnone =>
    exact ⟨fun _ => ⟨hqueued, hname, fun text h => by cases hnone.symm.trans h⟩, fun _ => rfl⟩
  · next text htext =>
    constructor
    · intro h
      refine ⟨hqueued, hname, fun text' h' => ?_⟩
      cases htext.symm.trans h'
      cases hparse : parseIso text with
      | error e =>
        rw [hparse] at h
        cases h
      | ok time =>
        rw [hparse] at h
        exact ⟨time, rfl, decide_eq_true_eq.mp (Except.ok.inj h)⟩
    · intro hc
      obtain ⟨time, hparse, hle⟩ := hc.due text htext
      rw [hparse]
      exact congrArg Except.ok (decide_eq_true hle)

/-! ### The choice -/

/-- `f` keeps what the choice reads of the tasks of a list. -/
structure KeepsKeys (f : StoredTask → StoredTask) (all : List StoredTask) : Prop where
  taskId : ∀ t ∈ all, (f t).taskId = t.taskId
  group : ∀ t ∈ all, fairnessGroupKey (f t) = fairnessGroupKey t
  created : ∀ t ∈ all, (f t).createdAt = t.createdAt
  updated : ∀ t ∈ all, (f t).updatedAt = t.updatedAt
  attempts : ∀ t ∈ all, (f t).attemptCount = t.attemptCount

variable {f : StoredTask → StoredTask}

lemma KeepsKeys.attempted (h : KeepsKeys f all) {t : StoredTask} (ht : t ∈ all) (g : List String) :
    Attempted g (f t) ↔ Attempted g t := by
  rw [Attempted, Attempted, h.attempts t ht, h.group t ht]

lemma KeepsKeys.lastClaimed (h : KeepsKeys f all) (hall : ∀ t', t' ∈ all' ↔ ∃ t ∈ all, f t = t')
    (g : List String) : (lastClaimedByGroup all').get? g = (lastClaimedByGroup all).get? g := by
  refine lastClaimedByGroup_eq ?_
  have hspec := lastClaimedByGroup_spec all g
  cases ho : (lastClaimedByGroup all).get? g with
  | none =>
    rw [ho] at hspec
    intro t' ht' hatt
    obtain ⟨t, ht, rfl⟩ := (hall t').mp ht'
    exact hspec t ht ((h.attempted ht g).mp hatt)
  | some u =>
    rw [ho] at hspec
    obtain ⟨⟨t, ht, hatt, rfl⟩, hmax⟩ := hspec
    refine ⟨⟨f t, (hall _).mpr ⟨t, ht, rfl⟩, (h.attempted ht g).mpr hatt, h.updated t ht⟩, ?_⟩
    intro t' ht' hatt'
    obtain ⟨u, hu, rfl⟩ := (hall t').mp ht'
    rw [h.updated u hu]
    exact hmax u hu ((h.attempted hu g).mp hatt')

/-- The key of the group of a candidate does not depend on the order of the tasks. -/
lemma KeepsKeys.candidateKey_eq (h : KeepsKeys f all) (hall : ∀ t', t' ∈ all' ↔ ∃ t ∈ all, f t = t')
    (hfound : ∀ t', t' ∈ found' ↔ ∃ t ∈ found, f t = t') (hsub : found ⊆ all) {t : StoredTask}
    (ht : t ∈ found) : candidateKey found' all' (f t) = candidateKey found all t := by
  have hgroup := h.group t (hsub ht)
  have holdest : minText ((found'.filter fun x => fairnessGroupKey x = fairnessGroupKey t).map
      StoredTask.createdAt) = minText ((found.filter fun x => fairnessGroupKey x =
        fairnessGroupKey t).map StoredTask.createdAt) := by
    refine minText_congr ?_ fun text => ?_
    · exact List.ne_nil_of_mem (List.mem_map_of_mem (List.mem_filter.mpr ⟨ht, decide_eq_true rfl⟩))
    simp only [List.mem_map, List.mem_filter, decide_eq_true_eq]
    constructor
    · rintro ⟨x, ⟨hx, hkey⟩, rfl⟩
      obtain ⟨u, hu, rfl⟩ := (hfound x).mp hx
      rw [h.group u (hsub hu)] at hkey
      exact ⟨u, ⟨hu, hkey⟩, (h.created u (hsub hu)).symm⟩
    · rintro ⟨u, ⟨hu, hkey⟩, rfl⟩
      exact ⟨f u, ⟨(hfound _).mpr ⟨u, hu, rfl⟩, (h.group u (hsub hu)).trans hkey⟩,
        h.created u (hsub hu)⟩
  rw [candidateKey, candidateKey, hgroup, groupSortKey, groupSortKey, h.lastClaimed hall, holdest]

/-- **The choice** is the same among the same tasks, and commutes with what keeps its keys. -/
theorem chooseFairTask_map (h : KeepsKeys f all) (hall : ∀ t', t' ∈ all' ↔ ∃ t ∈ all, f t = t')
    (hfound : ∀ t', t' ∈ found' ↔ ∃ t ∈ found, f t = t') (hsub : found ⊆ all)
    (hids : (all.map fun t => t.taskId.1).Nodup) :
    chooseFairTask found' all' = (chooseFairTask found all).map f := by
  cases hchoose : chooseFairTask found all with
  | none =>
    have hnil := chooseFairTask_eq_none hchoose
    have hnil' : found' = [] := by
      refine List.eq_nil_iff_forall_not_mem.mpr fun t' ht' => ?_
      obtain ⟨t, ht, -⟩ := (hfound t').mp ht'
      rw [hnil] at ht
      cases ht
    rw [hnil']
    rfl
  | some t =>
    obtain ⟨ht, hkey, holdest⟩ := chooseFairTask_spec hchoose
    have hft : f t ∈ found' := (hfound _).mpr ⟨t, ht, rfl⟩
    cases hchoose' : chooseFairTask found' all' with
    | none => exact absurd (chooseFairTask_eq_none hchoose') (List.ne_nil_of_mem hft)
    | some t' =>
      obtain ⟨ht', hkey', holdest'⟩ := chooseFairTask_spec hchoose'
      obtain ⟨u, hu, rfl⟩ := (hfound t').mp ht'
      -- both groups have the least key, and the group is a part of the key
      have hle := hkey' (f t) hft
      rw [h.candidateKey_eq hall hfound hsub ht, h.candidateKey_eq hall hfound hsub hu] at hle
      have hsame : fairnessGroupKey u = fairnessGroupKey t :=
        congrArg (fun k => k.2.2.2) (le_antisymm hle (hkey u hu))
      have hfirst := holdest u hu hsame
      have hlast := holdest' (f t) hft
        ((h.group t (hsub ht)).trans (hsame.symm.trans (h.group u (hsub hu)).symm))
      rw [h.created t (hsub ht), h.created u (hsub hu), h.taskId t (hsub ht),
        h.taskId u (hsub hu)] at hlast
      have hid : t.taskId.1 = u.taskId.1 :=
        congrArg Prod.snd (toLex_inj.mp (le_antisymm hfirst hlast))
      rw [List.inj_on_of_nodup_map hids (hsub hu) (hsub ht) hid.symm, Option.map_some]

/-! ### A claim -/

/-- `u` is `t` after a claim, which leaves the other tasks of the store as they are. -/
structure Taken (now : DateTime) (model : Option String) (s : TaskStore) (t u : StoredTask)
    (s' : TaskStore) : Prop where
  mem : t ∈ s.tasks
  claimable : Claimable now model t
  oldest : ∀ t' ∈ s.tasks, Claimable now model t' → fairnessGroupKey t' = fairnessGroupKey t →
    toLex (t.createdAt, t.taskId.1) ≤ toLex (t'.createdAt, t'.taskId.1)
  changed : u = { t with
    state := .running
    attemptCount := t.attemptCount + 1
    startedAt := u.startedAt
    updatedAt := nowIso now
    nextAttemptAt := none }
  started : ∀ text, t.startedAt = some text → text ≠ "" → u.startedAt = some text
  starts : t.startedAt.filter (· ≠ "") = none → u.startedAt = some (nowIso now)
  others : ∀ id, s'.tasksById.get? id = if id = t.taskId.1 then some u else s.tasksById.get? id

lemma get?_iff (hkeyed : ∀ id t, s.tasksById.get? id = some t → t.taskId.1 = id) {id : String}
    {t : StoredTask} : s.tasksById.get? id = some t ↔ t ∈ s.tasks ∧ t.taskId.1 = id := by
  rw [tasks, Dict.mem_values]
  constructor
  · exact fun ht => ⟨⟨id, ht⟩, hkeyed id t ht⟩
  · rintro ⟨⟨id', ht⟩, rfl⟩
    exact hkeyed id' t ht ▸ ht

/-- With times that can be read, the result of a claim is that of the choice. -/
lemma claimNext_eq (hread : Readable s.tasks) (now : DateTime) (model : Option String) :
    ∃ found, candidates now model s.tasks = .ok found ∧
      (∀ t, t ∈ found ↔ t ∈ s.tasks ∧ Claimable now model t) ∧
      claimNext now model s = match chooseFairTask found s.tasks with
        | none => (.ok none, s)
        | some t => (.ok (some (claimed now t)), s.put (claimed now t)) := by
  obtain ⟨found, hfound⟩ := candidates_ok hread now model
  refine ⟨found, hfound, fun t => ?_, ?_⟩
  · rw [mem_candidates hfound, isTaskClaimable_iff]
  · cases hchosen : chooseFairTask found s.tasks with
    | none => simp only [claimNext, hfound, hchosen]
    | some t => simp only [claimNext, hfound, hchosen]

lemma taken_of_choose {t : StoredTask}
    (hfound : ∀ t, t ∈ found ↔ t ∈ s.tasks ∧ Claimable now model t)
    (h : chooseFairTask found s.tasks = some t) :
    Taken now model s t (claimed now t) (s.put (claimed now t)) := by
  obtain ⟨hmem, -, holdest⟩ := chooseFairTask_spec h
  obtain ⟨ht, hclaimable⟩ := (hfound t).mp hmem
  refine ⟨ht, hclaimable, fun t' ht' hc hsame => holdest t' ((hfound t').mpr ⟨ht', hc⟩) hsame, rfl,
    fun text htext hne => ?_, fun hnone => ?_, fun id => Dict.get?_set _ _ _ _⟩
  · simp only [claimed, htext, if_neg hne]
  · cases hs : t.startedAt with
    | none => simp only [claimed, hs]
    | some text =>
      rw [hs] at hnone
      have hempty : text = "" := by
        by_contra hne
        simp [Option.filter, hne] at hnone
      simp only [claimed, hs, if_pos hempty]

/-- The tasks that are read back from the file of a store. -/
lemma mem_reloaded {later : DateTime}
    (hkeyed : ∀ id t, s.tasksById.get? id = some t → t.taskId.1 = id)
    (h : reload later s = .ok s') :
    (∀ id t, s'.tasksById.get? id = some t → t.taskId.1 = id) ∧
      ∀ t', t' ∈ s'.tasks ↔ ∃ t ∈ s.tasks, t.reloaded (nowIso later) = t' := by
  rw [reload_eq] at h
  cases h
  have hperm := List.perm_insertionSort (fun a b : StoredTask => a.taskId.1 ≤ b.taskId.1) s.tasks
  have hids : ((s.fileTasks later).map fun t => t.taskId.1).Nodup := by
    rw [fileTasks, List.map_map]
    exact (hperm.map _).nodup_iff.mpr (ids_nodup hkeyed)
  have hget := loadTasks_get? hids
  have hkeyed' : ∀ id t, (loadTasks (s.fileTasks later)).tasksById.get? id = some t →
      t.taskId.1 = id := fun id t ht => ((hget id t).mp ht).2
  refine ⟨hkeyed', fun t' => ?_⟩
  have hmem : t' ∈ (loadTasks (s.fileTasks later)).tasks ↔ t' ∈ s.fileTasks later := by
    rw [← and_iff_left (a := t' ∈ s.fileTasks later) rfl, ← hget t'.taskId.1, get?_iff hkeyed',
      and_iff_left rfl]
  rw [hmem, fileTasks, List.mem_map]
  simp only [hperm.mem_iff]

/-- The same tasks, up to a function that keeps what a claim reads: the same choice. -/
lemma claimNext_map (now : DateTime) (model : Option String) (hkeys : KeepsKeys f s.tasks)
    (hkeyed : ∀ id t, s.tasksById.get? id = some t → t.taskId.1 = id)
    (hread : Readable s.tasks) (hread' : Readable s'.tasks)
    (hall : ∀ t', t' ∈ s'.tasks ↔ ∃ t ∈ s.tasks, f t = t')
    (hclaimable : ∀ t ∈ s.tasks, Claimable now model (f t) ↔ Claimable now model t) :
    ∃ o : Option StoredTask, (∀ t ∈ o, t ∈ s.tasks) ∧
      claimNext now model s = (match o with
        | none => (.ok none, s)
        | some t => (.ok (some (claimed now t)), s.put (claimed now t))) ∧
      claimNext now model s' = (match o with
        | none => (.ok none, s')
        | some t => (.ok (some (claimed now (f t))), s'.put (claimed now (f t)))) := by
  obtain ⟨found, -, hfound, heq⟩ := claimNext_eq hread now model
  obtain ⟨found', -, hfound', heq'⟩ := claimNext_eq hread' now model
  have hmap : ∀ t', t' ∈ found' ↔ ∃ t ∈ found, f t = t' := by
    intro t'
    rw [hfound', hall]
    constructor
    · rintro ⟨⟨t, ht, rfl⟩, hc⟩
      exact ⟨t, (hfound t).mpr ⟨ht, (hclaimable t ht).mp hc⟩, rfl⟩
    · rintro ⟨t, ht, rfl⟩
      obtain ⟨ht, hc⟩ := (hfound t).mp ht
      exact ⟨⟨t, ht, rfl⟩, (hclaimable t ht).mpr hc⟩
  have hchoose := chooseFairTask_map hkeys hall hmap (fun t ht => ((hfound t).mp ht).1)
    (ids_nodup hkeyed)
  refine ⟨chooseFairTask found s.tasks, fun t ht => ?_, heq, ?_⟩
  · exact ((hfound t).mp (chooseFairTask_spec ht).1).1
  · rw [heq', hchoose]
    cases chooseFairTask found s.tasks <;> rfl

lemma keepsKeys_id (all : List StoredTask) : KeepsKeys id all :=
  ⟨fun _ _ => rfl, fun _ _ => rfl, fun _ _ => rfl, fun _ _ => rfl, fun _ _ => rfl⟩

/-- A file keeps what a claim reads. -/
lemma keepsKeys_reloaded (later : DateTime)
    (hdated : ∀ t ∈ all, t.createdAt ≠ "" ∧ t.updatedAt ≠ "") :
    KeepsKeys (StoredTask.reloaded (nowIso later)) all :=
  ⟨fun _ _ => rfl, fun _ _ => rfl, fun t ht => if_neg (hdated t ht).1,
    fun t ht => if_neg (hdated t ht).2, fun _ _ => rfl⟩

lemma parseIso_empty : parseIso "" = .error (.valueError "Invalid isoformat string") := rfl

lemma reloaded_next {t : StoredTask} {text : String} (later : String)
    (h : ∀ text, t.nextAttemptAt = some text → ∃ time, parseIso text = .ok time) :
    (t.reloaded later).nextAttemptAt = some text ↔ t.nextAttemptAt = some text := by
  show t.nextAttemptAt.filter (· ≠ "") = some text ↔ _
  rw [filter_nonempty]
  intro hempty
  obtain ⟨time, htime⟩ := h "" hempty
  cases parseIso_empty.symm.trans htime

lemma claimed_reloaded (now later : DateTime) (t : StoredTask) :
    claimed now (t.reloaded (nowIso later)) = (claimed now t).reloaded (nowIso later) := by
  have hstarted : (claimed now (t.reloaded (nowIso later))).startedAt =
      ((claimed now t).reloaded (nowIso later)).startedAt := by
    have hne := nowIso_ne_empty now
    cases hs : t.startedAt with
    | none => simp [claimed, StoredTask.reloaded, hs, hne, Option.filter]
    | some text =>
      by_cases hempty : text = "" <;>
        simp [claimed, StoredTask.reloaded, hs, hne, hempty, Option.filter]
  have hupdated : ((claimed now t).reloaded (nowIso later)).updatedAt = nowIso now :=
    if_neg (nowIso_ne_empty now)
  rw [StoredTask.mk.injEq]
  exact ⟨rfl, rfl, rfl, rfl, hupdated.symm, rfl, hstarted, rfl, rfl, rfl, rfl⟩

/-- A claim in another order of the tasks. -/
lemma claimNext_perm (now : DateTime) (model : Option String) {s₂ : TaskStore}
    (hkeyed : ∀ id t, s.tasksById.get? id = some t → t.taskId.1 = id)
    (hkeyed₂ : ∀ id t, s₂.tasksById.get? id = some t → t.taskId.1 = id)
    (hread : Readable s.tasks) (hperm : s₂.tasks.Perm s.tasks) :
    (claimNext now model s₂).1 = (claimNext now model s).1 ∧
      ∀ id, (claimNext now model s₂).2.tasksById.get? id =
        (claimNext now model s).2.tasksById.get? id := by
  obtain ⟨o, -, heq, heq₂⟩ := claimNext_map now model (keepsKeys_id s.tasks) hkeyed hread
    (fun t ht => hread t (hperm.mem_iff.mp ht)) (fun t' => by simp [hperm.mem_iff])
    fun _ _ => Iff.rfl
  have hget : ∀ id, s₂.tasksById.get? id = s.tasksById.get? id := by
    intro id
    ext t
    rw [get?_iff hkeyed₂, get?_iff hkeyed, hperm.mem_iff]
  rw [heq, heq₂]
  cases o with
  | none => exact ⟨rfl, hget⟩
  | some t =>
    refine ⟨rfl, fun id => ?_⟩
    show (s₂.tasksById.set _ _).get? id = (s.tasksById.set _ _).get? id
    rw [Dict.get?_set, Dict.get?_set, hget, id_eq]

/-- A claim after the store was reopened. -/
lemma claimNext_reloaded (now : DateTime) (model : Option String) {later : DateTime}
    (hkeyed : ∀ id t, s.tasksById.get? id = some t → t.taskId.1 = id)
    (hread : Readable s.tasks) (hdated : ∀ t ∈ s.tasks, t.createdAt ≠ "" ∧ t.updatedAt ≠ "")
    (h : reload later s = .ok s') :
    (claimNext now model s').1 =
      (claimNext now model s).1.map (Option.map (StoredTask.reloaded (nowIso later))) := by
  obtain ⟨-, hall⟩ := mem_reloaded hkeyed h
  have hread' : Readable s'.tasks := by
    intro t' ht' text htext
    obtain ⟨t, ht, rfl⟩ := (hall t').mp ht'
    exact hread t ht text ((reloaded_next _ (hread t ht)).mp htext)
  have hclaimable : ∀ t ∈ s.tasks,
      Claimable now model (t.reloaded (nowIso later)) ↔ Claimable now model t := by
    intro t ht
    have hnext := fun text => @reloaded_next t text (nowIso later) (hread t ht)
    constructor
    · exact fun hc => ⟨hc.queued, hc.model, fun text htext => hc.due text ((hnext text).mpr htext)⟩
    · exact fun hc => ⟨hc.queued, hc.model, fun text htext => hc.due text ((hnext text).mp htext)⟩
  obtain ⟨o, -, heq, heq'⟩ := claimNext_map now model (keepsKeys_reloaded later hdated) hkeyed hread
    hread' hall hclaimable
  rw [heq, heq']
  cases o with
  | none => rfl
  | some t => exact congrArg (fun u => Except.ok (some u)) (claimed_reloaded now later t)

/-- **What a claim takes.** -/
theorem claimNext_takes (s : TaskStore)
    (hkeyed : ∀ id t, s.tasksById.get? id = some t → t.taskId.1 = id) (hread : Readable s.tasks)
    (now : DateTime) (model : Option String) :
    ∃ r s', claimNext now model s = (.ok r, s') ∧
      (r = none ↔ ∀ t ∈ s.tasks, ¬ Claimable now model t) ∧
      (r = none → s' = s) ∧
      (∀ u, r = some u → ∃ t, Taken now model s t u s') ∧
      (∀ s₂ : TaskStore, (∀ id t, s₂.tasksById.get? id = some t → t.taskId.1 = id) →
        s₂.tasks.Perm s.tasks → ∃ s₂', claimNext now model s₂ = (.ok r, s₂') ∧
          ∀ id, s₂'.tasksById.get? id = s'.tasksById.get? id) ∧
      ((∀ t ∈ s.tasks, t.createdAt ≠ "" ∧ t.updatedAt ≠ "") → ∀ later, ∃ s₂ s₂',
        reload later s = .ok s₂ ∧
          claimNext now model s₂ = (.ok (r.map (StoredTask.reloaded (nowIso later))), s₂')) := by
  have horder : ∀ {r s'}, claimNext now model s = (.ok r, s') → ∀ s₂ : TaskStore,
      (∀ id t, s₂.tasksById.get? id = some t → t.taskId.1 = id) → s₂.tasks.Perm s.tasks →
      ∃ s₂', claimNext now model s₂ = (.ok r, s₂') ∧
        ∀ id, s₂'.tasksById.get? id = s'.tasksById.get? id := by
    intro r s' h s₂ hkeyed₂ hperm
    obtain ⟨hr, hget⟩ := claimNext_perm now model hkeyed hkeyed₂ hread hperm
    rw [h] at hr hget
    exact ⟨(claimNext now model s₂).2, Prod.ext hr rfl, hget⟩
  have hreopen : ∀ {r s'}, claimNext now model s = (.ok r, s') →
      (∀ t ∈ s.tasks, t.createdAt ≠ "" ∧ t.updatedAt ≠ "") → ∀ later, ∃ s₂ s₂',
        reload later s = .ok s₂ ∧
          claimNext now model s₂ = (.ok (r.map (StoredTask.reloaded (nowIso later))), s₂') := by
    intro r s' h hdated later
    have hreload := reload_eq later s
    have hr := claimNext_reloaded now model hkeyed hread hdated hreload
    rw [h] at hr
    exact ⟨loadTasks (s.fileTasks later), (claimNext now model (loadTasks (s.fileTasks later))).2,
      hreload, Prod.ext hr rfl⟩
  obtain ⟨found, -, hfound, heq⟩ := claimNext_eq hread now model
  cases hchoose : chooseFairTask found s.tasks with
  | none =>
    rw [hchoose] at heq
    refine ⟨none, s, heq, ?_, fun _ => rfl, fun u hu => ?_, horder heq, hreopen heq⟩
    · refine iff_of_true rfl fun t ht hc => ?_
      have hmem := (hfound t).mpr ⟨ht, hc⟩
      rw [chooseFairTask_eq_none hchoose] at hmem
      cases hmem
    · cases hu
  | some t =>
    rw [hchoose] at heq
    have htaken := taken_of_choose hfound hchoose
    have hsome : some (claimed now t) ≠ none := Option.some_ne_none _
    refine ⟨some (claimed now t), s.put (claimed now t), heq, ?_, fun hnone => absurd hnone hsome,
      fun u hu => ?_, horder heq, hreopen heq⟩
    · exact iff_of_false hsome fun hnone => hnone t htaken.mem htaken.claimable
    · cases hu
      exact ⟨t, htaken⟩

/-! ### Two tasks that are queued again -/

/-- A task that is queued again, for a second of the year 1. -/
def waitingTask (tenant taskId : PyText.NonBlank) (second : Fin 1000) : StoredTask :=
  { TaskStore.newTask (sampleTask tenant ⟨"k1", nonBlank_k1⟩ []) (sampleStamp taskId) with
    nextAttemptAt := some (nowIso ⟨second * 1000000, second_lt second⟩) }

def sampleTasks : List StoredTask :=
  [waitingTask ⟨"acme", nonBlank_acme⟩ ⟨"task_1", nonBlank_task1⟩ 30,
   waitingTask ⟨"globex", nonBlank_globex⟩ ⟨"task_2", nonBlank_task2⟩ 10]

def secondTwenty : DateTime := ⟨20 * 1000000, by decide⟩

/-- Of the two tasks the second is taken, which is due. -/
theorem claimNext_takes_sample : ∃ t u s',
    claimNext secondTwenty none (loadTasks sampleTasks) = (.ok (some u), s') ∧
      Taken secondTwenty none (loadTasks sampleTasks) t u s' ∧ t.taskId.1 = "task_2" := by
  have hget := loadTasks_get? (l := sampleTasks) (by decide)
  have hkeyed : ∀ id t, (loadTasks sampleTasks).tasksById.get? id = some t → t.taskId.1 = id :=
    fun id t ht => ((hget id t).mp ht).2
  have hmem : ∀ t, t ∈ (loadTasks sampleTasks).tasks ↔ t ∈ sampleTasks := fun t => by
    have h := (get?_iff hkeyed).symm.trans (hget t.taskId.1 t)
    simpa using h
  have hwaits : ∀ t ∈ sampleTasks, ∃ second, t.nextAttemptAt = some (nowIso second) := by
    simp only [sampleTasks, List.forall_mem_cons, List.not_mem_nil, false_imp_iff, implies_true,
      and_true]
    exact ⟨⟨_, rfl⟩, ⟨_, rfl⟩⟩
  have hread : Readable (loadTasks sampleTasks).tasks := by
    intro t ht text htext
    obtain ⟨second, hsecond⟩ := hwaits t ((hmem t).mp ht)
    obtain rfl := Option.some.inj (hsecond.symm.trans htext)
    exact ⟨second, parseIso_nowIso second⟩
  obtain ⟨r, s', h, hnone, -, htaken, -⟩ :=
    claimNext_takes (loadTasks sampleTasks) hkeyed hread secondTwenty none
  have hdue : ∀ t ∈ sampleTasks, Claimable secondTwenty none t ↔ t.taskId.1 = "task_2" := by
    simp only [sampleTasks, List.forall_mem_cons, List.not_mem_nil, false_imp_iff, implies_true,
      and_true]
    refine ⟨iff_of_false (fun hc => ?_) (by decide), iff_of_true ⟨rfl, nofun, ?_⟩ rfl⟩
    · obtain ⟨time, htime, hle⟩ := hc.due _ rfl
      rw [parseIso_nowIso] at htime
      cases htime
      exact absurd hle (by decide)
    · intro text htext
      cases htext
      exact ⟨_, parseIso_nowIso _, by decide⟩
  have hlast : waitingTask ⟨"globex", nonBlank_globex⟩ ⟨"task_2", nonBlank_task2⟩ 10 ∈
      sampleTasks :=
    List.mem_cons_of_mem _ List.mem_cons_self
  cases r with
  | none => exact absurd ((hdue _ hlast).mpr rfl) (hnone.mp rfl _ ((hmem _).mpr hlast))
  | some u =>
    obtain ⟨t, ht⟩ := htaken u rfl
    exact ⟨t, u, s', h, ht, (hdue t ((hmem t).mp ht.mem)).mp ht.claimable⟩

end Orchestrator.ClaimChoice
