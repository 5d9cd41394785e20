import Orchestrator.Controller
import Orchestrator.Executor
import Orchestrator.StoreSound
import Orchestrator.TenantScope

/-!
The queue as lifecycle sees it. The queue proxy counts its active tasks under the model names they
were submitted with, and routes them by the public names these resolve to; lifecycle looks the
counts and the plans up under the public names of its profiles.
-/

namespace Orchestrator.Lifecycle

open Lib

/-! ### Reading a request -/

/-- `{model: f(value) for model, value in raw.items()}`, without the items that `f` skips. -/
def dictOf {β : Type} (f : Json → Except Exn (Option β)) :
    Mapping → Dict String β → Except Exn (Dict String β)
  | [], d => .ok d
  | (model, value) :: raw, d => do
    let b ← f value
    dictOf f raw <| match b with
      | some b => d.set model b
      | none => d

def queueLengthsFromPayload (payload : Mapping) : Except Exn (Dict String ℤ) :=
  match payload.getOr "queue_lengths" (.obj []) with
  | .obj raw => dictOf (fun value => value.toInt.map some) raw .empty
  | _ => .ok .empty

def itemsOr (value : Json) : List Json :=
  match value with
  | .arr items => items
  | _ => []

def ContextPlan.fromDict (payload : Mapping) : Except Exn ContextPlan := do
  let queuedTasks ← optionalInt (payload.get "queued_tasks")
  let maxRequired ← optionalInt (payload.get "max_required_context_tokens")
  let recommendedContext ← optionalInt (payload.get "recommended_lms_context_length")
  let requestedParallel ← optionalInt (payload.get "requested_parallel")
  let recommendedParallel ← optionalInt (payload.get "recommended_lms_parallel")
  let totalSlot ← optionalInt (payload.get "total_slot_context_tokens")
  let contextCap ← optionalInt (payload.get "context_cap_tokens")
  pure {
    queuedTasks := queuedTasks.getD 0
    maxRequiredContextTokens := maxRequired.getD 0
    recommendedLmsContextLength := recommendedContext
    requestedParallel := (wanted requestedParallel).getD 1
    recommendedLmsParallel := recommendedParallel
    totalSlotContextTokens := totalSlot.getD 0
    contextCapTokens := contextCap
    oversizedTasks := (itemsOr (payload.getOr "oversized_tasks" (.arr []))).map Json.toStr
    reloadRequired := (payload.getOr "reload_required" (.bool false)).truthy
    taskContexts := (itemsOr (payload.getOr "task_contexts" (.arr []))).filterMap fun
      | .obj item => some item
      | _ => none }

/-- A plan that is not an object is skipped. -/
def readPlan : Json → Except Exn (Option ContextPlan)
  | .obj rawPlan => (ContextPlan.fromDict rawPlan).map some
  | _ => .ok none

def contextPlansFromPayload (payload : Mapping) : Except Exn (Dict String ContextPlan) :=
  match payload.getOr "context_plans" (.obj []) with
  | .obj raw => dictOf readPlan raw .empty
  | _ => .ok .empty

/-- Each model once: the dictionary has what the items have. -/
lemma dictOf_map {β γ : Type} {f : Json → Except Exn (Option β)} {g : γ → Json} {h : γ → β}
    (hf : ∀ c, f (g c) = .ok (some (h c))) (l : List (String × γ)) (d : Dict String β)
    (hl : (l.map Prod.fst).Nodup) :
    ∃ d', dictOf f (l.map fun p => (p.1, g p.2)) d = .ok d' ∧
      ∀ model, d'.get? model = ((l.lookup model).map h).or (d.get? model) := by
  induction l generalizing d with
  | nil => exact ⟨d, rfl, fun model => rfl⟩
  | cons p l ih =>
    obtain ⟨k, c⟩ := p
    rw [List.map_cons, List.nodup_cons] at hl
    obtain ⟨d', hd, hget⟩ := ih (d.set k (h c)) hl.2
    refine ⟨d', ?_, fun model => ?_⟩
    · simp only [List.map_cons, dictOf, hf]
      exact hd
    · rw [hget, Dict.get?_set, Dict.lookup_cons_ite]
      by_cases hm : model = k
      · subst hm
        have hnone : l.lookup model = none := by
          cases hk : l.lookup model with
          | none => rfl
          | some c' =>
            have hmem := (Dict.lookup_eq_some hl.2).mp hk
            exact absurd (List.mem_map.mpr ⟨_, hmem, rfl⟩) hl.1
        rw [hnone, if_pos rfl, if_pos rfl]
        rfl
      · rw [if_neg hm, if_neg hm]

/-! ### The plans of the proxy -/

/-- The plan that lifecycle reads of one that the proxy sends. -/
def ContextPlan.ofProxy (p : Orchestrator.ContextPlan) : ContextPlan where
  queuedTasks := p.queuedTasks
  maxRequiredContextTokens := p.maxRequiredContextTokens
  recommendedLmsContextLength := some p.recommendedLmsContextLength
  requestedParallel := if p.requestedParallel = 0 then 1 else p.requestedParallel
  recommendedLmsParallel := some p.recommendedLmsParallel
  totalSlotContextTokens := p.totalSlotContextTokens
  contextCapTokens := p.contextCapTokens.map fun (n : ℕ) => (n : ℤ)
  oversizedTasks := p.oversizedTasks
  reloadRequired := p.reloadRequired
  taskContexts := p.taskContexts.map fun c =>
    [("task_id", .str c.taskId),
     ("job_id", .str c.jobId),
     ("required_context_tokens", .int c.requiredContextTokens),
     ("estimated_input_tokens", .int c.estimatedInputTokens),
     ("max_output_tokens", .int c.maxOutputTokens)]

lemma optionalInt_optNat (n : Option ℕ) :
    optionalInt (match n with
      | some n => .int n
      | none => .null) = .ok (n.map fun (n : ℕ) => (n : ℤ)) := by
  cases n with
  | none => rfl
  | some n => rfl

/-- **Nothing of a plan is lost on the way.** -/
theorem ContextPlan.fromDict_toMapping (p : Orchestrator.ContextPlan) :
    ContextPlan.fromDict p.toMapping = .ok (ContextPlan.ofProxy p) := by
  have hint : ∀ (key : String) (n : ℕ), p.toMapping.get key = .int n →
      optionalInt (p.toMapping.get key) = .ok (some (n : ℤ)) := by
    intro key n h
    rw [h]
    rfl
  have hoversized : p.toMapping.getOr "oversized_tasks" (.arr []) =
      .arr (p.oversizedTasks.map .str) := rfl
  have hreload : p.toMapping.getOr "reload_required" (.bool false) = .bool p.reloadRequired := rfl
  have htasks : p.toMapping.getOr "task_contexts" (.arr []) =
      .arr ((ContextPlan.ofProxy p).taskContexts.map .obj) := by
    rw [ContextPlan.ofProxy, List.map_map]
    rfl
  have hcap := optionalInt_optNat p.contextCapTokens
  rw [ContextPlan.fromDict, hint "queued_tasks" p.queuedTasks rfl,
    hint "max_required_context_tokens" p.maxRequiredContextTokens rfl,
    hint "recommended_lms_context_length" p.recommendedLmsContextLength rfl,
    hint "requested_parallel" p.requestedParallel rfl,
    hint "recommended_lms_parallel" p.recommendedLmsParallel rfl,
    hint "total_slot_context_tokens" p.totalSlotContextTokens rfl]
  change (do
    let contextCap ← optionalInt (match p.contextCapTokens with
      | some n => .int n
      | none => .null)
    _) = _
  rw [hcap, hoversized, hreload, htasks]
  have hparallel : (wanted (some (p.requestedParallel : ℤ))).getD 1 =
      (ContextPlan.ofProxy p).requestedParallel := by
    rw [wanted, ContextPlan.ofProxy]
    by_cases h : p.requestedParallel = 0 <;> simp [h, Option.filter]
  have hnames : (itemsOr (.arr (p.oversizedTasks.map .str))).map Json.toStr = p.oversizedTasks := by
    rw [itemsOr, List.map_map]
    exact List.map_id p.oversizedTasks
  have hcontexts : (itemsOr (.arr ((ContextPlan.ofProxy p).taskContexts.map .obj))).filterMap
      (fun
        | .obj item => some item
        | _ => none) = (ContextPlan.ofProxy p).taskContexts := by
    rw [itemsOr, List.filterMap_map]
    exact List.filterMap_some
  simp only [pure, Except.pure, bind, Except.bind, hparallel, hnames, hcontexts]
  rfl

end Orchestrator.Lifecycle

namespace Orchestrator.ModelNames

open Lib Lifecycle ContextPlan Executor

/-! ### What arrives -/

/-- What lifecycle has of the queue after a reconcile request. -/
structure Received where
  queueLengths : Dict String ℤ
  contextPlans : Dict String Lifecycle.ContextPlan

/-- The payload of `reconcile_current_task_capacity`, as lifecycle reads it. -/
def received (s : TaskStore) : Except Exn Received := do
  let contextPlans ← s.contextPlansByModel
  let payload := reconcilePayload s.queueLengthsByModel contextPlans
  let queueLengths ← queueLengthsFromPayload payload
  let contextPlans ← contextPlansFromPayload payload
  pure ⟨queueLengths, contextPlans⟩

/-- The tasks of a list with a model. -/
def ofModel (tasks : List StoredTask) (model : String) : List StoredTask :=
  tasks.filter fun t => t.model.1 = model

lemma plansByModel_lookup {tasks : List StoredTask}
    {plans : List (String × Orchestrator.ContextPlan)}
    (h : plansByModel tasks = .ok plans) :
    (plans.map Prod.fst).Nodup ∧ ∀ model, match plans.lookup model with
      | none => ofModel tasks model = []
      | some p => ofModel tasks model ≠ [] ∧ contextPlanForModel (ofModel tasks model) = .ok p := by
  have hplans : ∀ {groups : List (String × List StoredTask)}
      {plans : List (String × Orchestrator.ContextPlan)}, plansByModel.plans groups = .ok plans →
      plans.map Prod.fst = groups.map Prod.fst ∧ ∀ model, match plans.lookup model with
        | none => groups.lookup model = none
        | some p =>
          ∃ group, groups.lookup model = some group ∧ contextPlanForModel group = .ok p := by
    intro groups
    induction groups with
    | nil =>
      intro plans h
      cases h
      exact ⟨rfl, fun _ => rfl⟩
    | cons g groups ih =>
      intro plans h
      obtain ⟨k, group⟩ := g
      simp only [plansByModel.plans, bind_eq_ok] at h
      obtain ⟨p, hp, rest, hrest, h⟩ := h
      cases h
      obtain ⟨hkeys, hlookup⟩ := ih hrest
      refine ⟨by simp only [List.map_cons, hkeys], fun model => ?_⟩
      rw [Dict.lookup_cons_ite, Dict.lookup_cons_ite]
      by_cases hm : model = k
      · rw [if_pos hm, if_pos hm]
        exact ⟨group, rfl, hp⟩
      · rw [if_neg hm, if_neg hm]
        exact hlookup model
  obtain ⟨hkeys, hlookup⟩ := hplans h
  have hperm := List.perm_insertionSort (fun a b : String × List StoredTask => a.1 ≤ b.1)
    (Dict.groupBy (fun t : StoredTask => t.model.1) tasks).entries
  have hnodup : (((Dict.groupBy (fun t : StoredTask => t.model.1) tasks).entries.insertionSort
      fun a b => a.1 ≤ b.1).map Prod.fst).Nodup :=
    (hperm.map Prod.fst).nodup_iff.mpr (Dict.keys_nodup _)
  have hgroups : ∀ model, ((Dict.groupBy (fun t : StoredTask =>
    t.model.1) tasks).entries.insertionSort
      fun a b => a.1 ≤ b.1).lookup model =
        (Dict.groupBy (fun t : StoredTask => t.model.1) tasks).get? model := by
    intro model
    ext group
    rw [Dict.get?_eq_some, Dict.lookup_eq_some hnodup]
    exact hperm.mem_iff
  refine ⟨hkeys ▸ hnodup, fun model => ?_⟩
  have hmodel := hlookup model
  rw [hgroups, Dict.get?_groupBy] at hmodel
  cases hp : plans.lookup model with
  | none =>
    rw [hp] at hmodel
    dsimp only at hmodel ⊢
    split at hmodel
    · next hnil => exact hnil
    · cases hmodel
  | some p =>
    rw [hp] at hmodel
    obtain ⟨group, hgroup, hplan⟩ := hmodel
    split at hgroup
    · cases hgroup
    · next hne =>
      cases hgroup
      exact ⟨hne, hplan⟩

lemma contextPlanForModel_queued {tasks : List StoredTask} {p : Orchestrator.ContextPlan}
    (h : contextPlanForModel tasks = .ok p) : p.queuedTasks = tasks.length := by
  simp only [contextPlanForModel, bind_eq_ok] at h
  obtain ⟨parallels, -, caps, -, h⟩ := h
  cases h
  rfl

/-- **What arrives for a model**: the active tasks that were submitted with its name. -/
theorem received_spec {s : TaskStore} {r : Received} (h : received s = .ok r) (model : String) :
    (r.queueLengths.get? model).getD 0 = ((ofModel s.activeTasks model).length : ℤ) ∧
      ((r.contextPlans.get? model).map Lifecycle.ContextPlan.queuedTasks).getD 0 =
        ((ofModel s.activeTasks model).length : ℤ) ∧
      ((r.contextPlans.get? model).map fun p =>
        p.taskContexts.map (Mapping.get · "task_id")).getD [] =
        (ofModel s.activeTasks model).map fun t => .str t.taskId.1 := by
  simp only [received, bind_eq_ok] at h
  obtain ⟨plans, hplans, lengths, hlengths, contexts, hcontexts, h⟩ := h
  cases h
  obtain ⟨hnodup, hlookup⟩ := plansByModel_lookup hplans
  constructor
  · obtain ⟨d, hd, hget⟩ := dictOf_map (f := fun value => value.toInt.map some)
      (g := fun n : ℕ => .int n) (h := fun n : ℕ => (n : ℤ)) (fun _ => rfl) s.queueLengthsByModel
      .empty (Dict.keys_nodup _)
    cases hd.symm.trans hlengths
    have hcount : s.queueLengthsByModel.lookup model = if (ofModel s.activeTasks model).length = 0
        then none else some (ofModel s.activeTasks model).length := by
      rw [ofModel, ← List.countP_eq_length_filter]
      exact Dict.get?_countBy _ _ model
    rw [hget, hcount]
    by_cases hzero : (ofModel s.activeTasks model).length = 0
    · rw [if_pos hzero, hzero]
      rfl
    · rw [if_neg hzero]
      rfl
  · obtain ⟨d, hd, hget⟩ := dictOf_map (f := readPlan)
      (g := fun p : Orchestrator.ContextPlan => .obj p.toMapping)
      (h := Lifecycle.ContextPlan.ofProxy)
      (fun p => congrArg (Except.map some) (ContextPlan.fromDict_toMapping p)) plans .empty hnodup
    cases hd.symm.trans hcontexts
    have hmodel := hlookup model
    rw [hget]
    cases hp : plans.lookup model with
    | none =>
      rw [hp] at hmodel
      rw [show ofModel s.activeTasks model = [] from hmodel]
      exact ⟨rfl, rfl⟩
    | some p =>
      rw [hp] at hmodel
      have hqueued := contextPlanForModel_queued hmodel.2
      have hcontexts := (TenantScope.contextPlanForModel_ids hmodel.2).1
      constructor
      · exact congrArg Nat.cast hqueued
      · simp only [Option.map_some, Option.some_or, Option.getD_some, Lifecycle.ContextPlan.ofProxy,
          hcontexts, List.map_map]
        rfl

lemma received_ok {s : TaskStore} (hs : s.Sound) : ∃ r, received s = .ok r := by
  obtain ⟨plans, hplans⟩ := hs.contextPlans_ok
  obtain ⟨d, hd, -⟩ := dictOf_map (f := fun value => value.toInt.map some)
    (g := fun n : ℕ => .int n) (h := fun n : ℕ => (n : ℤ)) (fun _ => rfl) s.queueLengthsByModel
    .empty (Dict.keys_nodup _)
  obtain ⟨e, he, -⟩ := dictOf_map (f := readPlan)
    (g := fun p : Orchestrator.ContextPlan => .obj p.toMapping) (h := Lifecycle.ContextPlan.ofProxy)
    (fun p => congrArg (Except.map some) (ContextPlan.fromDict_toMapping p)) plans .empty
    (plansByModel_lookup hplans).1
  refine ⟨⟨d, e⟩, ?_⟩
  simp only [received, bind_eq_ok]
  exact ⟨plans, hplans, d, hd, e, he, rfl⟩

/-! ### The name a task is routed by -/

/-- The name that `execute_stored_task` resolves a backend for. -/
def routedName (policies : PolicyRegistry) (t : StoredTask) : String :=
  (policies.resolve t.model.1).publicName

def routedTo (policies : PolicyRegistry) (tasks : List StoredTask)
    (name : String) : List StoredTask :=
  tasks.filter fun t => routedName policies t = name

/-- What lifecycle looks up under a name is about the tasks that are routed by it; and a model
that tasks are routed to is neither stopped as idle nor planned as if nothing were queued. -/
structure CountedAsRouted (policies : PolicyRegistry) (tasks : List StoredTask) (r : Received) :
    Prop where
  lengths : ∀ name, (r.queueLengths.get? name).getD 0 = ((routedTo policies tasks name).length : ℤ)
  planned : ∀ name, ((r.contextPlans.get? name).map Lifecycle.ContextPlan.queuedTasks).getD 0 =
    ((routedTo policies tasks name).length : ℤ)
  listed : ∀ name,
    ((r.contextPlans.get? name).map fun p => p.taskContexts.map (Mapping.get · "task_id")).getD [] =
      (routedTo policies tasks name).map fun t => .str t.taskId.1
  kept : ∀ (settings : LifecycleSettings) (profile : ModelProfile),
    routedTo policies tasks profile.publicName ≠ [] →
      stopIdleOf settings r.queueLengths profile = pure []
  demanded : ∀ profile : ModelProfile, routedTo policies tasks profile.publicName ≠ [] →
    0 < max ((r.queueLengths.get? profile.publicName).getD 0)
      (((r.contextPlans.get? profile.publicName).map Lifecycle.ContextPlan.queuedTasks).getD 0)

variable {policies : PolicyRegistry} {s : TaskStore} {r : Received}

lemma counted_of_lookups
    (lengths : ∀ name, (r.queueLengths.get? name).getD 0 =
      ((routedTo policies s.activeTasks name).length : ℤ))
    (planned : ∀ name, ((r.contextPlans.get? name).map Lifecycle.ContextPlan.queuedTasks).getD 0 =
      ((routedTo policies s.activeTasks name).length : ℤ))
    (listed : ∀ name,
      ((r.contextPlans.get? name).map fun p =>
        p.taskContexts.map (Mapping.get · "task_id")).getD [] =
        (routedTo policies s.activeTasks name).map fun t => .str t.taskId.1) :
    CountedAsRouted policies s.activeTasks r := by
  have hpos : ∀ {name}, routedTo policies s.activeTasks name ≠ [] →
      0 < (r.queueLengths.get? name).getD 0 := by
    intro name hne
    rw [lengths]
    exact_mod_cast List.length_pos_iff.mpr hne
  refine ⟨lengths, planned, listed, fun settings profile hne => ?_, fun profile hne => ?_⟩
  · rw [stopIdleOf, if_pos (hpos hne)]
  · exact lt_of_lt_of_le (hpos hne) (le_max_left _ _)

/-- **The active tasks are counted under the names they are routed by** exactly when each was
submitted with the public name of its policy. -/
theorem counted_as_routed_iff (policies : PolicyRegistry) {s : TaskStore}
    (hkeyed : ∀ id t, s.tasksById.get? id = some t → t.taskId.1 = id) :
    (s.Sound → ∃ r, received s = .ok r) ∧ ∀ r, received s = .ok r →
      (CountedAsRouted policies s.activeTasks r ↔
        ∀ t ∈ s.activeTasks, routedName policies t = t.model.1) := by
  refine ⟨received_ok, fun r h => ⟨fun hcounted t ht => ?_, fun hnames => ?_⟩⟩
  · -- the plan of the name that the task is routed by lists the task, and only tasks of that model
    have hlisted := (received_spec h (routedName policies t)).2.2
    rw [hcounted.listed] at hlisted
    have hmem : t ∈ routedTo policies s.activeTasks (routedName policies t) := by
      simp [routedTo, ht]
    have hid := List.mem_map_of_mem (f := fun t : StoredTask => Json.str t.taskId.1) hmem
    rw [hlisted] at hid
    obtain ⟨u, hu, hid⟩ := List.mem_map.mp hid
    rw [ofModel, List.mem_filter, decide_eq_true_eq] at hu
    have huid : u.taskId.1 = t.taskId.1 := by injection hid
    have hsame : ∀ v ∈ s.activeTasks, s.tasksById.get? v.taskId.1 = some v := by
      intro v hv
      obtain ⟨id, hget⟩ := Dict.mem_values.mp (List.mem_filter.mp hv).1
      rw [hkeyed id v hget]
      exact hget
    have hut := hsame u hu.1
    rw [huid, hsame t ht] at hut
    cases hut
    exact hu.2.symm
  · have hof : ∀ name, ofModel s.activeTasks name = routedTo policies s.activeTasks name := by
      intro name
      refine List.filter_congr fun t ht => ?_
      rw [hnames t ht]
    have hspec := received_spec h
    simp only [hof] at hspec
    exact counted_of_lookups (fun name => (hspec name).1) (fun name => (hspec name).2.1)
      fun name => (hspec name).2.2

/-! ### One task -/

def queuedTask : StoredTask :=
  TaskStore.newTask (sampleTask ⟨"tenant-a", nonBlank_tenantA⟩ ⟨"key-1", nonBlank_key1⟩ [])
    (sampleStamp ⟨"task_1", nonBlank_task1⟩)

def queuedStore : TaskStore := TaskStore.empty.insert queuedTask

/-- One policy, under a public name and perhaps an alias. -/
def policiesFor (publicName : String) (aliases : List String) : PolicyRegistry where
  policies := [⟨publicName, "backend", aliases, 1, 8, 60, 1024, 8192, 2048, 8192, 4, "clamp"⟩]
  defaultPolicy := ⟨publicName, "backend", aliases, 1, 8, 60, 1024, 8192, 2048, 8192, 4, "clamp"⟩
  dynamicModelsEnabled := false

lemma queuedStore_sound : queuedStore.Sound := by
  refine TaskStore.insert_sound TaskStore.Sound.empty (.newTask ?_ _) rfl rfl
  intro key hkey
  exact ⟨none, rfl⟩

lemma queuedStore_active : queuedStore.activeTasks = [queuedTask] := rfl

/-- The task was submitted under the alias of its policy: for the public name nothing arrives. -/
theorem alias_not_counted : ∃ r, received queuedStore = .ok r ∧
    (r.queueLengths.get? "chat").getD 0 = 0 ∧
    ¬ CountedAsRouted (policiesFor "chat" ["local-model"]) queuedStore.activeTasks r := by
  obtain ⟨r, hr⟩ := received_ok queuedStore_sound
  have hzero : (r.queueLengths.get? "chat").getD 0 = 0 := (received_spec hr "chat").1
  refine ⟨r, hr, hzero, fun hcounted => ?_⟩
  have hone := hcounted.lengths "chat"
  rw [hzero, queuedStore_active, routedTo,
    List.filter_cons_of_pos (by decide)] at hone
  simp at hone

theorem counted_as_routed_sample : ∃ r, received queuedStore = .ok r ∧
    CountedAsRouted (policiesFor "local-model" ["chat"]) queuedStore.activeTasks r := by
  obtain ⟨hok, hiff⟩ := counted_as_routed_iff (policiesFor "local-model" ["chat"])
    (s := queuedStore) fun _ _ h => queuedStore_sound.inverse.keyed h
  obtain ⟨r, hr⟩ := hok queuedStore_sound
  refine ⟨r, hr, (hiff r hr).mpr ?_⟩
  rw [queuedStore_active, List.forall_mem_singleton]
  decide

end Orchestrator.ModelNames
