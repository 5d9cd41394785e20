import Orchestrator.Endpoints
import Orchestrator.ProxySystem

/-!
Whose tasks the task endpoints show.

All endpoints but one read the store through queries of one tenant. `POST /tasks/queue` also
shows the context plans of all active tasks, so it shows a tenant the ids of the others' tasks
exactly if the others have active tasks.
-/

namespace Orchestrator.TenantScope

open Lib Lib.Coro Clock Executor TaskStore Idempotency Outcomes Endpoints ProxySystem

/-! ### The ids in a body -/

inductive ShownId
  | task (id : String)
  | job (id : String)
  deriving DecidableEq

def itemsOf : Json → List Json
  | .arr l => l
  | _ => []

/-- The ids of a summary, of a detail or of an entry of `task_contexts`. -/
def idsOf (m : Mapping) : List ShownId :=
  (match m.get "task_id" with
    | .str id => [.task id]
    | _ => []) ++
  (match m.get "job_id" with
    | .str id => [.job id]
    | _ => [])

def entryIds : Json → List ShownId
  | .obj m => idsOf m
  | _ => []

def oversizedId : Json → Option ShownId
  | .str id => some (.job id)
  | _ => none

def planIds : Json → List ShownId
  | .obj m => (itemsOf (Mapping.get m "task_contexts")).flatMap entryIds ++
      (itemsOf (Mapping.get m "oversized_tasks")).filterMap oversizedId
  | _ => []

def plansIds : Json → List ShownId
  | .obj plans => plans.flatMap fun p => planIds p.2
  | _ => []

/-- The ids that a body takes from the task store. -/
def shownIds (body : Mapping) : List ShownId :=
  (itemsOf (body.get "tasks")).flatMap entryIds ++ plansIds (body.get "context_plans") ++ idsOf body

def taskIds (t : StoredTask) : List ShownId := [.task t.taskId.1, .job t.jobId.1]

/-- The id is that of a task of the tenant. -/
def Belongs (s : TaskStore) (tenant : String) : ShownId → Prop
  | .task id => ∃ t ∈ s.tasks, t.taskId.1 = id ∧ t.tenant.1 = tenant
  | .job id => ∃ t ∈ s.tasks, t.jobId.1 = id ∧ t.tenant.1 = tenant

lemma shownIds_detail (t : StoredTask) : shownIds t.toDetail = taskIds t := by
  have hget : ∀ key ∈ ["task_id", "job_id", "tasks", "context_plans"],
      t.toDetail.get key = (t.toSummary false).get key := by
    intro key hkey
    refine Mapping.get_merge_of_ne _ _ ?_
    simp only [List.mem_cons, List.not_mem_nil, or_false] at hkey
    rcases hkey with rfl | rfl | rfl | rfl <;> simp
  have hids : idsOf t.toDetail = idsOf (t.toSummary false) := by
    rw [idsOf, hget "task_id" (by simp), hget "job_id" (by simp)]
    rfl
  rw [shownIds, hids, hget "tasks" (by simp), hget "context_plans" (by simp)]
  rfl

lemma planIds_plan (p : ContextPlan) :
    planIds (.obj p.toMapping) =
      (p.taskContexts.flatMap fun c => [.task c.taskId, .job c.jobId]) ++
      p.oversizedTasks.map .job := by
  have hc : itemsOf (p.toMapping.get "task_contexts") = p.taskContexts.map fun c => .obj
      [("task_id", .str c.taskId), ("job_id", .str c.jobId),
       ("required_context_tokens", .int c.requiredContextTokens),
       ("estimated_input_tokens", .int c.estimatedInputTokens),
       ("max_output_tokens", .int c.maxOutputTokens)] := rfl
  have ho : itemsOf (p.toMapping.get "oversized_tasks") = p.oversizedTasks.map .str := rfl
  rw [planIds, hc, ho, List.flatMap_map, List.filterMap_map]
  congr 1
  exact congrFun (List.filterMap_eq_map (f := ShownId.job)) p.oversizedTasks

lemma shownIds_submit (accepted reused : List StoredTask) (queueLengths : List (String × ℕ))
    (plans : List (String × ContextPlan)) (capacity : Json) :
    shownIds (submitBody accepted reused queueLengths plans capacity) =
      (accepted ++ reused).flatMap taskIds ++ plansIds (contextPlansJson plans) := by
  have htasks : itemsOf ((submitBody accepted reused queueLengths plans capacity).get "tasks") =
      accepted.map (fun t => .obj (t.toSummary false)) ++
        reused.map (fun t => .obj (t.toSummary true)) := rfl
  have hplans : (submitBody accepted reused queueLengths plans capacity).get "context_plans" =
      contextPlansJson plans := rfl
  have hids : idsOf (submitBody accepted reused queueLengths plans capacity) = [] := rfl
  rw [shownIds, htasks, hplans, hids, List.append_nil, List.flatMap_append, List.flatMap_map,
    List.flatMap_map, List.flatMap_append]
  rfl

lemma shownIds_explain (tenant : String) (tasks : List StoredTask)
    (queueLengths : List (String × ℕ))
    (plans : List (String × ContextPlan)) (capacity : Json) :
    shownIds (explainBody tenant tasks queueLengths plans capacity) =
      tasks.flatMap taskIds ++ plansIds (contextPlansJson plans) := by
  have htasks : itemsOf ((explainBody tenant tasks queueLengths plans capacity).get "tasks") =
      tasks.map fun t => .obj (t.toSummary false) := rfl
  have hplans : (explainBody tenant tasks queueLengths plans capacity).get "context_plans" =
      contextPlansJson plans := rfl
  have hids : idsOf (explainBody tenant tasks queueLengths plans capacity) = [] := rfl
  rw [shownIds, htasks, hplans, hids, List.append_nil, List.flatMap_map]
  rfl

lemma shownIds_list (tasks : List StoredTask) :
    shownIds [("tasks", .arr (tasks.map fun t => .obj (t.toSummary false)))] =
      tasks.flatMap taskIds := by
  have htasks : itemsOf (Mapping.get [("tasks", .arr (tasks.map fun t => .obj (t.toSummary false)))]
      "tasks") = tasks.map fun t => .obj (t.toSummary false) := rfl
  have hplans : plansIds (Mapping.get [("tasks", .arr (tasks.map fun t =>
    .obj (t.toSummary false)))]
      "context_plans") = [] := rfl
  have hids : idsOf [("tasks", .arr (tasks.map fun t => .obj (t.toSummary false)))] = [] := rfl
  rw [shownIds, htasks, hplans, hids, List.append_nil, List.append_nil, List.flatMap_map]
  rfl

lemma shownIds_error (statusCode : ℕ) (errorType message : String) :
    shownIds (errorResponse statusCode errorType message).body = [] := rfl

/-! ### The ids in a plan -/

lemma contextPlanForModel_ids {tasks : List StoredTask} {p : ContextPlan}
    (h : ContextPlan.contextPlanForModel tasks = .ok p) :
    (p.taskContexts = tasks.map fun t => ⟨t.taskId.1, t.jobId.1, t.requiredContextTokens.1,
      t.estimatedInputTokens, t.maxOutputTokens.1⟩) ∧
      ∀ job ∈ p.oversizedTasks, ∃ t ∈ tasks, t.jobId.1 = job := by
  simp only [ContextPlan.contextPlanForModel, bind_eq_ok] at h
  obtain ⟨parallels, -, caps, -, h⟩ := h
  cases h
  refine ⟨rfl, fun job hjob => ?_⟩
  obtain ⟨t, ht, rfl⟩ := List.mem_map.mp hjob
  exact ⟨t, (List.mem_filter.mp ht).1, rfl⟩

/-- A plan shows all its tasks, and nothing else. -/
lemma plan_shows {tasks : List StoredTask} {p : ContextPlan}
    (h : ContextPlan.contextPlanForModel tasks = .ok p) :
    (∀ id ∈ planIds (.obj p.toMapping), ∃ t ∈ tasks, id ∈ taskIds t) ∧
      ∀ t ∈ tasks, .task t.taskId.1 ∈ planIds (.obj p.toMapping) := by
  obtain ⟨hc, ho⟩ := contextPlanForModel_ids h
  rw [planIds_plan, hc, List.flatMap_map]
  constructor
  · intro id hid
    rcases List.mem_append.mp hid with hid | hid
    · exact List.mem_flatMap.mp hid
    · obtain ⟨job, hjob, rfl⟩ := List.mem_map.mp hid
      obtain ⟨t, ht, rfl⟩ := ho job hjob
      exact ⟨t, ht, by simp [taskIds]⟩
  · intro t ht
    refine List.mem_append_left _ (List.mem_flatMap.mpr ⟨t, ht, ?_⟩)
    simp

/-- The plans of a list of tasks show all these tasks, and nothing else. -/
lemma plans_show {tasks : List StoredTask} {plans : List (String × ContextPlan)}
    (h : ContextPlan.plansByModel tasks = .ok plans) :
    (∀ id ∈ plansIds (contextPlansJson plans), ∃ t ∈ tasks, id ∈ taskIds t) ∧
      ∀ t ∈ tasks, .task t.taskId.1 ∈ plansIds (contextPlansJson plans) := by
  have hgroups : ∀ {groups : List (String × List StoredTask)} {plans : List (String × ContextPlan)},
      ContextPlan.plansByModel.plans groups = .ok plans →
      (∀ id ∈ plansIds (contextPlansJson plans), ∃ g ∈ groups, ∃ t ∈ g.2, id ∈ taskIds t) ∧
        ∀ g ∈ groups, ∀ t ∈ g.2, .task t.taskId.1 ∈ plansIds (contextPlansJson plans) := by
    intro groups
    induction groups with
    | nil =>
      intro plans h
      cases h
      exact ⟨by simp [contextPlansJson, plansIds], by simp⟩
    | cons g groups ih =>
      intro plans h
      obtain ⟨model, group⟩ := g
      simp only [ContextPlan.plansByModel.plans, bind_eq_ok] at h
      obtain ⟨p, hp, ps, hps, h⟩ := h
      cases h
      obtain ⟨hshown, hall⟩ := ih hps
      obtain ⟨hshown', hall'⟩ := plan_shows hp
      have hcons : plansIds (contextPlansJson ((model, p) :: ps)) =
          planIds (.obj p.toMapping) ++ plansIds (contextPlansJson ps) := rfl
      rw [hcons]
      constructor
      · intro id hid
        rcases List.mem_append.mp hid with hid | hid
        · obtain ⟨t, ht, hid⟩ := hshown' id hid
          exact ⟨_, List.mem_cons_self, t, ht, hid⟩
        · obtain ⟨g, hg, t, ht, hid⟩ := hshown id hid
          exact ⟨g, List.mem_cons_of_mem _ hg, t, ht, hid⟩
      · intro g hg t ht
        rcases List.mem_cons.mp hg with rfl | hg
        · exact List.mem_append_left _ (hall' t ht)
        · exact List.mem_append_right _ (hall g hg t ht)
  obtain ⟨hshown, hall⟩ := hgroups h
  have hmem : ∀ {g}, g ∈ (Dict.groupBy (fun t : StoredTask =>
    t.model.1) tasks).entries.insertionSort
      (fun a b => a.1 ≤ b.1) ↔
        g ∈ (Dict.groupBy (fun t : StoredTask => t.model.1) tasks).entries :=
    (List.perm_insertionSort _ _).mem_iff
  constructor
  · intro id hid
    obtain ⟨g, hg, t, ht, hid⟩ := hshown id hid
    exact ⟨t, (((Dict.mem_groupBy (Dict.get?_eq_some.mpr (hmem.mp hg))).2 t).mp ht).1, hid⟩
  · intro t ht
    obtain ⟨group, hgroup⟩ : ∃ group,
        (Dict.groupBy (fun t : StoredTask => t.model.1) tasks).get? t.model.1 = some group := by
      rw [Dict.get?_groupBy]
      split
      · next hnil => simpa using List.filter_eq_nil_iff.mp hnil t ht
      · exact ⟨_, rfl⟩
    refine hall (t.model.1, group) (hmem.mpr (Dict.get?_eq_some.mp hgroup)) t ?_
    exact ((Dict.mem_groupBy hgroup).2 t).mpr ⟨ht, rfl⟩

/-! ### Belonging -/

variable {s : TaskStore} {tenant : String} {t : StoredTask}

lemma belongs_of_mem (ht : t ∈ s.tasks) (htenant : t.tenant.1 = tenant) :
    ∀ id ∈ taskIds t, Belongs s tenant id := by
  intro id hid
  simp only [taskIds, List.mem_cons, List.not_mem_nil, or_false] at hid
  rcases hid with rfl | rfl
  · exact ⟨t, ht, rfl, htenant⟩
  · exact ⟨t, ht, rfl, htenant⟩

/-- A task id belongs to one task only. -/
lemma tenant_of_belongs (hs : Inverse s) (ht : t ∈ s.tasks)
    (h : Belongs s tenant (.task t.taskId.1)) : t.tenant.1 = tenant := by
  obtain ⟨u, hu, hid, htenant⟩ := h
  have hget := hs.get?_of_mem hu
  rw [hid, hs.get?_of_mem ht] at hget
  cases hget
  exact htenant

lemma mem_listTasks {state model : Option String} {limit : ℤ}
    (h : t ∈ TaskStore.listTasks tenant state model limit s) :
      t ∈ s.tasks ∧ t.tenant.1 = tenant := by
  have hmem := (List.perm_insertionSort _ _).mem_iff.mp (List.mem_of_mem_take h)
  obtain ⟨ht, hp⟩ := List.mem_filter.mp hmem
  simp only [Bool.and_eq_true, decide_eq_true_eq] at hp
  exact ⟨ht, hp.1.1⟩

/-! ### The endpoints of one tenant -/

/-- Others may change the store at every call that suspends. -/
def anyone : Contract ExecutorState ProxyCall ProxyCall.Answer where
  rely := Others
  guar _ _ := True

/-- Every response of the endpoint is in `Q`. -/
def Responds (Q : Response → Prop) (p : Endpoint) (s : ExecutorState) : Prop :=
  p.wp anyone (fun _ x _ => ∀ response, x = .ok response → Q response) s

section Responds

variable {Q : Response → Prop} {settings : Settings} {request : Request} {e : ExecutorState}

lemma responds_pure {response : Response} (h : Q response) : Responds Q (pure response) e := by
  rintro _ ⟨⟩
  exact h

lemma responds_after {α : Type} {p : Proxy ExecutorState α} {k : Except Exn α → Endpoint}
    (h : ∀ x e, Responds Q (k x) e) : Responds Q (p.after k) e := by
  induction p generalizing e with
  | done x => exact h x e
  | get f ih => exact ih e
  | set t p ih => exact ⟨trivial, ih⟩
  | call c f ih => exact fun r t _ => ih r

lemma responds_authorized {p : Endpoint} (h401 : ∀ response,
    validateProxyAuth settings request = some response → Q response)
    (h : validateProxyAuth settings request = none → Responds Q p e) :
    Responds Q (authorized settings request p) e := by
  rw [authorized]
  split
  · next response hr => exact responds_pure (h401 response hr)
  · next hr => exact h hr

lemma validateProxyAuth_shows {response : Response}
    (h : validateProxyAuth settings request = some response) : shownIds response.body = [] := by
  unfold validateProxyAuth at h
  split at h
  · cases h
  split at h
  · cases h
    exact shownIds_error _ _ _
  · cases h

/-- The shown ids belong to the tenant. -/
def ScopedTo (s : TaskStore) (tenant : String) (response : Response) : Prop :=
  ∀ id ∈ shownIds response.body, Belongs s tenant id

lemma scopedTo_of_nil {response : Response} (h : shownIds response.body = []) :
    ScopedTo s tenant response := by
  intro id hid
  rw [h] at hid
  cases hid

lemma responds_forTenant {p : String → Endpoint} (hT : tenantFromRequest request = some tenant)
    (h : Responds (ScopedTo s tenant) (p tenant) e) :
    Responds (ScopedTo s tenant) (forTenant settings request p) e := by
  refine responds_authorized (fun _ hr => scopedTo_of_nil (validateProxyAuth_shows hr)) fun _ => ?_
  rw [hT]
  exact h

lemma responds_get {f : ExecutorState → Endpoint} (h : Responds Q (f e) e) :
    Responds Q (.get f) e := h

end Responds

variable {settings : Settings} {request : Request} {e : ExecutorState}

lemma scoped_flatMap {tasks : List StoredTask}
    (h : ∀ t ∈ tasks, t ∈ s.tasks ∧ t.tenant.1 = tenant) :
    ∀ id ∈ tasks.flatMap taskIds, Belongs s tenant id := by
  intro id hid
  obtain ⟨t, ht, hid⟩ := List.mem_flatMap.mp hid
  exact belongs_of_mem (h t ht).1 (h t ht).2 id hid

lemma listTasks_scoped (hT : tenantFromRequest request = some tenant) :
    Responds (ScopedTo e.store tenant) (Endpoints.listTasks settings request) e := by
  refine responds_forTenant hT ?_
  split
  · exact responds_pure (scopedTo_of_nil (shownIds_error _ _ _))
  · show Responds (ScopedTo e.store tenant) (pure _) e
    refine responds_pure fun id hid => ?_
    rw [shownIds_list] at hid
    exact scoped_flatMap (fun t ht => mem_listTasks ht) id hid

lemma explainTasks_scoped (hT : tenantFromRequest request = some tenant) :
    Responds (ScopedTo e.store tenant) (explainTasks settings request) e := by
  refine responds_forTenant hT ?_
  split
  · exact responds_pure (scopedTo_of_nil (shownIds_error _ _ _))
  · next limit _ =>
    have htasks : ∀ t ∈ TaskStore.listTasks tenant (some "queued") request.model limit e.store,
        t ∈ e.store.tasks ∧ t.tenant.1 = tenant := fun t ht => mem_listTasks ht
    change Responds _ ((lift (ContextPlan.contextPlansForTasks _)).after (onOk fun contextPlans =>
      (explainCapacity _ _ contextPlans).after (onOk fun capacity => _))) e
    cases hplans : ContextPlan.contextPlansForTasks
        (TaskStore.listTasks tenant (some "queued") request.model limit e.store) with
    | error ex => exact nofun
    | ok plans =>
      change Responds _ ((explainCapacity _ _ plans).after (onOk fun capacity => _)) e
      refine responds_after fun x e' => ?_
      cases x with
      | error ex => exact nofun
      | ok capacity =>
        show Responds (ScopedTo e.store tenant) (pure _) e'
        refine responds_pure fun id hid => ?_
        rw [shownIds_explain] at hid
        rcases List.mem_append.mp hid with hid | hid
        · exact scoped_flatMap htasks id hid
        · obtain ⟨t, ht, hid⟩ := (plans_show hplans).1 id hid
          have ht := htasks t (List.mem_filter.mp ht).1
          exact belongs_of_mem ht.1 ht.2 id hid

lemma getTask_scoped (hT : tenantFromRequest request = some tenant) :
    Responds (ScopedTo e.store tenant) (Endpoints.getTask settings request) e := by
  refine responds_forTenant hT ?_
  refine responds_get ?_
  cases hget : TaskStore.getTask tenant request.taskId e.store with
  | none => exact responds_pure (scopedTo_of_nil (shownIds_error _ _ _))
  | some t =>
    rw [TaskStore.getTask, Option.filter_eq_some_iff] at hget
    refine responds_pure fun id hid => ?_
    rw [shownIds_detail] at hid
    exact belongs_of_mem (mem_tasks hget.1) (by simpa using hget.2) id hid

lemma cancelTask_scoped (hT : tenantFromRequest request = some tenant) :
    Responds (ScopedTo e.store tenant) (Endpoints.cancelTask settings request) e := by
  refine responds_forTenant hT ?_
  intro now e' ho
  change Others .utcNow now e e' at ho
  rw [Others, if_neg (by simp [ProxyCall.suspends])] at ho
  subst ho
  refine ⟨trivial, ?_⟩
  change Responds (ScopedTo e'.store tenant) (Endpoints.cancelled settings
    (TaskStore.cancelTask now tenant request.taskId e'.store).1) _
  have hfound : ∀ t, (TaskStore.cancelTask now tenant request.taskId e'.store).1 = some t →
      ScopedTo e'.store tenant ⟨200, t.toDetail⟩ := by
    intro t ht
    rw [TaskStore.cancelTask] at ht
    split at ht
    · cases ht
    · next u hu =>
      rw [TaskStore.getTask, Option.filter_eq_some_iff] at hu
      have hids : taskIds t = taskIds u := by
        split at ht
        · cases ht; rfl
        · cases ht; rfl
      intro id hid
      rw [shownIds_detail, hids] at hid
      exact belongs_of_mem (mem_tasks hu.1) (by simpa using hu.2) id hid
  generalize (TaskStore.cancelTask now tenant request.taskId e'.store).1 = found at hfound
  cases found with
  | none => exact responds_pure (scopedTo_of_nil (shownIds_error _ _ _))
  | some t =>
    rw [Endpoints.cancelled]
    split
    · refine responds_after fun x e'' => ?_
      cases x with
      | error ex => exact fun _ hr => by cases hr
      | ok capacity => exact responds_pure (hfound t rfl)
    · exact responds_pure (hfound t rfl)

/-! ### The submission -/

/-- The tenant of a submission. -/
def queueTenant (payload : Json) : Option String :=
  match payload with
  | .obj m =>
    match Mapping.get m "orchestration" with
    | .obj orchestration =>
      match FieldChecks.stringValue (Mapping.get orchestration "tenant") "orchestration.tenant" with
      | .ok tenant => some tenant.1
      | .error _ => none
    | _ => none
  | _ => none

lemma parseTasks_tenant {common : Mapping} {model endpoint : PyText.NonBlank}
    {template : Option Mapping} {vars : Mapping} {index : ℕ} {raw : List Json}
    {tasks : List QueueTask}
    (h : TaskParse.parseTasks common model endpoint template vars index raw = .ok tasks) :
    ∀ t ∈ tasks,
      FieldChecks.stringValue (common.get "tenant") "orchestration.tenant" = .ok t.tenant := by
  induction raw generalizing index tasks with
  | nil => cases h; simp
  | cons x raw ih =>
    cases x with
    | obj m =>
      rw [TaskParse.parseTasks] at h
      simp only [bind_eq_ok] at h
      obtain ⟨t, ht, rest, hrest, h⟩ := h
      cases h
      rw [List.forall_mem_cons]
      refine ⟨?_, ih hrest⟩
      unfold TaskParse.parseQueueTask at ht
      simp only [bind_eq_ok] at ht
      obtain ⟨_, -, _, -, _, -, _, -, _, -, _, -, _, -, _, -, tenant, htenant, _, -, _, -,
        _, -, _, -,
        ht⟩ := ht
      cases ht
      exact htenant
    | _ => cases h

/-- All tasks of a submission are of its tenant. -/
lemma parse_tenant {payload : Json} {tasks : List QueueTask} {tenant : String}
    (h : TaskParse.parseTaskQueuePayload payload = .ok tasks)
    (hT : queueTenant payload = some tenant) :
    ∀ t ∈ tasks, t.tenant.1 = tenant := by
  intro t ht
  cases payload with
  | obj m =>
    rw [TaskParse.parseTaskQueuePayload, TaskParse.parseQueueObject] at h
    simp only [bind_eq_ok] at h
    obtain ⟨common, hcommon, _, -, _, -, _, -, _, -, _, -, h⟩ := h
    split at h
    · have htenant := parseTasks_tenant h t ht
      cases horch : Mapping.get m "orchestration" with
      | obj orchestration =>
        rw [horch] at hcommon
        cases hcommon
        simp only [queueTenant, horch, htenant] at hT
        exact Option.some.inj hT
      | _ =>
        rw [horch] at hcommon
        cases hcommon
    · cases h
  | _ => cases h

lemma accounts_tenant {batch : List QueueTask} {outcomes : List Outcome}
    (h : Accounts batch outcomes) (hT : ∀ t ∈ batch, t.tenant.1 = tenant) :
    ∀ o ∈ outcomes, o.2.tenant.1 = tenant := by
  induction h with
  | nil => simp
  | cons ho _ ih =>
    rw [List.forall_mem_cons] at hT ⊢
    refine ⟨?_, ih hT.2⟩
    have hpair := congrArg Prod.fst ho.1
    exact hpair.trans hT.1

lemma mem_activeTasks : t ∈ s.activeTasks ↔ t ∈ s.tasks ∧ t.state.isActive = true := List.mem_filter

/-- What the body of a submission shows: besides the tasks of the batch, all active tasks. -/
lemma submitted_scoped {batch : List (QueueTask × Stamp)} (hs : Inverse s) (hf : Fresh s batch)
    (hT : ∀ b ∈ batch, b.1.tenant.1 = tenant) :
    Responds (fun response => ScopedTo (submitMany batch s).2 tenant response ↔
        ∀ t ∈ s.activeTasks, t.tenant.1 = tenant)
      (submitted settings (submitMany batch s).2 (submitMany batch s).1) e := by
  obtain ⟨outcomes, s', hsub, hacc, hs', hkeep, hstored⟩ := submitMany_spec hs hf
  have htenants : ∀ o ∈ outcomes, o.2.tenant.1 = tenant := by
    refine accounts_tenant hacc fun t ht => ?_
    obtain ⟨b, hb, rfl⟩ := List.mem_map.mp ht
    exact hT b hb
  rw [hsub]
  change Responds _ ((lift s'.contextPlansByModel).after (onOk fun contextPlans =>
    (reconcileCapacity settings s'.queueLengthsByModel contextPlans).after (onOk fun capacity =>
      _))) e
  cases hplans : s'.contextPlansByModel with
  | error ex => exact nofun
  | ok plans =>
    change Responds _ ((reconcileCapacity settings _ plans).after (onOk fun capacity => _)) e
    refine responds_after fun x e' => ?_
    cases x with
    | error ex => exact nofun
    | ok capacity =>
      show Responds _ (pure _) e'
      refine responds_pure ?_
      obtain ⟨hshown, hall⟩ := plans_show hplans
      constructor
      · intro hscope t ht
        obtain ⟨hmem, hactive⟩ := mem_activeTasks.mp ht
        have hget := hkeep _ t (hs.get?_of_mem hmem)
        have hmem' : t ∈ s'.activeTasks := mem_activeTasks.mpr ⟨mem_tasks hget, hactive⟩
        refine tenant_of_belongs hs' (mem_tasks hget) (hscope _ ?_)
        rw [shownIds_submit]
        exact List.mem_append_right _ (hall t hmem')
      · intro hown id hid
        rw [shownIds_submit] at hid
        rcases List.mem_append.mp hid with hid | hid
        · refine scoped_flatMap (fun t ht => ?_) id hid
          obtain ⟨o, ho, rfl⟩ : ∃ o ∈ outcomes, o.2 = t := by
            rcases List.mem_append.mp ht with ht | ht
            · obtain ⟨o, ho, rfl⟩ := List.mem_map.mp ht
              exact ⟨o, (List.mem_filter.mp ho).1, rfl⟩
            · obtain ⟨o, ho, rfl⟩ := List.mem_map.mp ht
              exact ⟨o, (List.mem_filter.mp ho).1, rfl⟩
          exact ⟨mem_tasks (hstored o ho), htenants o ho⟩
        · obtain ⟨t, ht, hid⟩ := hshown id hid
          obtain ⟨hmem, hactive⟩ := mem_activeTasks.mp ht
          refine belongs_of_mem hmem ?_ id hid
          -- an active task was stored and active before, or is a task of the batch
          rcases submitMany_new hsub (hs'.get?_of_mem hmem) with hold | ⟨b, hb, rfl⟩
          · exact hown t (mem_activeTasks.mpr ⟨mem_tasks hold, hactive⟩)
          · exact hT b hb

/-! ### The five endpoints -/

inductive TaskCall
  | submit
  | list
  | explain
  | get
  | cancel

def handle (settings : Settings) (stamps : ℕ → Stamp) (request : Request) : TaskCall → Endpoint
  | .submit => submitTaskQueue settings stamps request
  | .list => Endpoints.listTasks settings request
  | .explain => explainTasks settings request
  | .get => Endpoints.getTask settings request
  | .cancel => Endpoints.cancelTask settings request

/-- The tasks that a submission asks for. -/
def parsed (request : Request) : Except Exn (List QueueTask) :=
  request.json >>= TaskParse.parseTaskQueuePayload

/-- The tenant that a request is made for. -/
def requestTenant (request : Request) : TaskCall → Option String
  | .submit => request.json.toOption.bind queueTenant
  | _ => tenantFromRequest request

/-- The tasks of a submission with the ids drawn for them. -/
def drawn (stamps : ℕ → Stamp) (request : Request) : TaskCall → List (QueueTask × Stamp)
  | .submit =>
    match parsed request with
    | .ok tasks => stamped stamps tasks
    | .error _ => []
  | _ => []

/-- The store a response is taken from: a submission shows the store it leaves. -/
def shownStore (stamps : ℕ → Stamp) (request : Request) (call : TaskCall) (s : TaskStore) :
    TaskStore := (submitMany (drawn stamps request call) s).2

/-- No other tenant has an active task when a submission is admitted. -/
def AloneAtSubmission (settings : Settings) (request : Request) (tenant : String) (s : TaskStore) :
    TaskCall → Prop
  | .submit => validateProxyAuth settings request = none → (∃ tasks, parsed request = .ok tasks) →
      ∀ t ∈ s.activeTasks, t.tenant.1 = tenant
  | _ => True

variable {stamps : ℕ → Stamp} {call : TaskCall}

lemma submit_scoped (hs : Inverse e.store) (hf : Fresh e.store (drawn stamps request .submit))
    (hT : requestTenant request .submit = some tenant) :
    Responds (fun response => ScopedTo (shownStore stamps request .submit e.store) tenant response ↔
        AloneAtSubmission settings request tenant e.store .submit)
      (submitTaskQueue settings stamps request) e := by
  refine responds_authorized (fun response hr => ?_) fun hauth => ?_
  · exact iff_of_true (scopedTo_of_nil (validateProxyAuth_shows hr))
      fun hauth => by rw [hauth] at hr; cases hr
  cases hp : request.json >>= TaskParse.parseTaskQueuePayload with
  | error ex =>
    replace hp : parsed request = .error ex := hp
    have hmsg : ∀ errorType message,
        ScopedTo (shownStore stamps request .submit e.store) tenant
          (errorResponse 400 errorType message) ↔
        AloneAtSubmission settings request tenant e.store .submit := by
      intro errorType message
      refine iff_of_true (scopedTo_of_nil (shownIds_error _ _ _)) fun _ hok => ?_
      obtain ⟨tasks, hok⟩ := hok
      rw [hp] at hok
      cases hok
    dsimp only
    split
    · exact responds_pure (hmsg _ _)
    split
    · exact responds_pure (hmsg _ _)
    · exact fun _ hr => by cases hr
  | ok tasks =>
    replace hp : parsed request = .ok tasks := hp
    have hown : ∀ b ∈ stamped stamps tasks, b.1.tenant.1 = tenant := by
      obtain ⟨payload, hjson, hparse⟩ := bind_eq_ok.mp hp
      have hpayload : queueTenant payload = some tenant := by
        rw [requestTenant, hjson] at hT
        exact hT
      intro b hb
      obtain ⟨i, hi, rfl⟩ := List.mem_mapIdx.mp hb
      exact parse_tenant hparse hpayload _ (List.getElem_mem hi)
    have hdrawn : drawn stamps request .submit = stamped stamps tasks := by rw [drawn, hp]
    rw [shownStore]
    rw [hdrawn] at hf ⊢
    refine ⟨trivial, wp_mono (submitted_scoped hs hf hown) ?_⟩
    intro _ x _ h response hx
    refine (h response hx).trans ?_
    constructor
    · exact fun h _ _ => h
    · exact fun h => h hauth ⟨tasks, hp⟩

/-- **Whose tasks a response shows.** A response to a request of a tenant shows ids of the
tenant's tasks only, exactly if the request is no admitted submission, or no other tenant has an
active task at the submission. -/
theorem scoped_iff {es : List ProxyEvent} {response : Response} {e' : ExecutorState}
    (hs : Inverse e.store) (hf : Fresh e.store (drawn stamps request call))
    (hT : requestTenant request call = some tenant)
    (hr : (handle settings stamps request call).Runs Others e es (.ok response) e') :
    (∀ id ∈ shownIds response.body, Belongs (shownStore stamps request call e.store) tenant id) ↔
      AloneAtSubmission settings request tenant e.store call := by
  have hsound : ∀ {Q : Response → Prop}, Responds Q (handle settings stamps request call) e →
      Q response := fun hq => wp_sound hq hr response rfl
  cases call with
  | submit => exact hsound (submit_scoped hs hf hT)
  | list => exact iff_of_true (hsound (listTasks_scoped hT)) trivial
  | explain => exact iff_of_true (hsound (explainTasks_scoped hT)) trivial
  | get => exact iff_of_true (hsound (getTask_scoped hT)) trivial
  | cancel => exact iff_of_true (hsound (cancelTask_scoped hT)) trivial

/-- The submission of a tenant, to a store that holds a queued task of the tenant `acme`. -/
def sampleSubmission (tenant : String) : Request where
  authorization := none
  tenantParam := none
  tenantHeader := none
  state := none
  model := none
  limit := none
  taskId := ""
  json := .ok (.obj [("model", .str "local-model"),
    ("orchestration", .obj (Mapping.set sampleOrchestration "tenant" (.str tenant))),
    ("tasks", .arr [.obj [("job_id", .str "job-2"), ("idempotency_key", .str "key-2"),
      ("payload", .obj samplePayload)]])])

def sampleStamps (_ : ℕ) : Stamp := sampleStamp ⟨"task_2", nonBlank_task2⟩

/-- The run of the submission in which every call is answered and nobody else acts. -/
def sampleSubmit (tenant : String) : List ProxyEvent × Except Exn Response × ExecutorState :=
  (handle sampleSettings sampleStamps (sampleSubmission tenant) .submit).play
    (sampleAnswer (.ok (.obj []))) sampleSubmitted.exec

def sampleResponse (tenant : String) : Response :=
  match (sampleSubmit tenant).2.1 with
  | .ok response => response
  | .error _ => notFoundResponse

lemma sampleSubmit_runs {tenant : String} (h : (sampleSubmit tenant).2.1.isOk = true) :
    (handle sampleSettings sampleStamps (sampleSubmission tenant) .submit).Runs Others
      sampleSubmitted.exec (sampleSubmit tenant).1 (.ok (sampleResponse tenant))
      (sampleSubmit tenant).2.2 := by
  have hok : (sampleSubmit tenant).2.1 = .ok (sampleResponse tenant) := by
    rw [sampleResponse]
    cases hx : (sampleSubmit tenant).2.1 with
    | ok response => rfl
    | error ex =>
      rw [hx] at h
      cases h
  rw [← hok]
  exact runs_play (fun c s => others_refl c _ s) _ _

theorem scoped_iff_sample :
    (∀ id ∈ shownIds (sampleResponse "acme").body,
        Belongs (shownStore sampleStamps (sampleSubmission "acme") .submit sampleStore) "acme" id) ↔
      AloneAtSubmission sampleSettings (sampleSubmission "acme") "acme" sampleStore .submit := by
  have hs : Inverse sampleSubmitted.exec.store := insert_inverse Inverse.empty rfl rfl
  have hf : Fresh sampleSubmitted.exec.store
      (drawn sampleStamps (sampleSubmission "acme") .submit) := by
    refine ⟨by decide +kernel, fun b hb => Dict.get?_eq_none.mpr ?_⟩
    revert b
    decide +kernel
  exact scoped_iff hs hf (by decide +kernel) (sampleSubmit_runs (by decide +kernel))

/-- The tenant `globex` submits a task and is shown the id of the task of `acme`. -/
theorem submission_shows_others :
    (proxyLts sampleSettings samplePolicies).Reachable Lts.anyStep sampleSubmitted ∧
      requestTenant (sampleSubmission "globex") .submit = some "globex" ∧
      ∃ es e', (handle sampleSettings sampleStamps (sampleSubmission "globex") .submit).Runs Others
          sampleSubmitted.exec es (.ok (sampleResponse "globex")) e' ∧
        ¬∀ id ∈ shownIds (sampleResponse "globex").body,
          Belongs (shownStore sampleStamps (sampleSubmission "globex") .submit sampleStore)
            "globex" id := by
  refine ⟨sample_submit fun _ => trivial, by decide +kernel, _, _,
    sampleSubmit_runs (by decide +kernel), fun h => ?_⟩
  have hshown : ShownId.task "task_1" ∈ shownIds (sampleResponse "globex").body := by
    decide +kernel
  obtain ⟨t, ht, hid, htenant⟩ := h _ hshown
  have hothers : ∀ t ∈ (shownStore sampleStamps (sampleSubmission "globex") .submit
      sampleStore).tasks, t.taskId.1 = "task_1" → t.tenant.1 = "acme" := by
    decide +kernel
  rw [hothers t ht hid] at htenant
  simp at htenant

end Orchestrator.TenantScope
