import Orchestrator.IdleStops
import Orchestrator.ModelNames
import Mathlib.Order.Bounds.Basic
import Mathlib.Order.Lattice.Nat

/-!
The shape that is planned for the tasks of a model. The queue proxy merges the sizes and the hints
of all the tasks into one plan, and lifecycle turns what it reads of the plan into a context length
and a number of slots.

A plan is described by extrema over the set of tasks: the greatest size, the greatest parallelism
and the least cap. `Merges` says so, and everything else here is about those extrema: they do not
depend on the order of the tasks, and fewer tasks have smaller ones or a greater cap.
-/

namespace Orchestrator.PlanShapes

open Lib ContextPlan

/-! ### Extrema of lists -/

lemma isGreatest_foldr_max (n : ℕ) (l : List ℕ) : IsGreatest {x | x ∈ n :: l} (l.foldr max n) := by
  induction l with
  | nil => simp
  | cons m l ih =>
    have hset : {x | x ∈ n :: m :: l} = insert m {x | x ∈ n :: l} := by
      ext x
      simp only [List.mem_cons, Set.mem_ofPred_eq, Set.mem_insert_iff]
      tauto
    rw [hset]
    exact ih.insert m

lemma isLeast_foldr_min (n : ℕ) (l : List ℕ) : IsLeast {x | x ∈ n :: l} (l.foldr min n) := by
  induction l with
  | nil => simp
  | cons m l ih =>
    have hset : {x | x ∈ n :: m :: l} = insert m {x | x ∈ n :: l} := by
      ext x
      simp only [List.mem_cons, Set.mem_ofPred_eq, Set.mem_insert_iff]
      tauto
    rw [hset]
    exact ih.insert m

/-! ### What the tasks ask for -/

def sizes (tasks : List StoredTask) : Set ℕ := {n | ∃ t ∈ tasks, t.requiredContextTokens.1 = n}

def parallels (tasks : List StoredTask) : Set ℕ :=
  {n | ∃ t ∈ tasks, requestedParallelForTask t = .ok n}

def caps (tasks : List StoredTask) : Set ℕ := {n | ∃ t ∈ tasks, contextCapForTask t = .ok (some n)}

/-- A task that is larger than the cap of some task of the list, which need not be its own. -/
def exceedsCap (tasks : List StoredTask) (t : StoredTask) : Bool :=
  tasks.any fun u => match contextCapForTask u with
    | .ok (some cap) => cap < t.requiredContextTokens.1
    | _ => false

variable {tasks tasks' : List StoredTask}

lemma exceedsCap_iff {t : StoredTask} :
    exceedsCap tasks t = true ↔ ∃ cap ∈ caps tasks, cap < t.requiredContextTokens.1 := by
  rw [exceedsCap, List.any_eq_true]
  constructor
  · rintro ⟨u, hu, hcap⟩
    split at hcap
    · next cap hu' => exact ⟨cap, ⟨u, hu, hu'⟩, decide_eq_true_eq.mp hcap⟩
    · cases hcap
  · rintro ⟨cap, ⟨u, hu, hu'⟩, hcap⟩
    refine ⟨u, hu, ?_⟩
    rw [hu']
    exact decide_eq_true hcap

/-- What a plan says of the tasks it is for. -/
structure Merges (tasks : List StoredTask) (p : ContextPlan) : Prop where
  queued : p.queuedTasks = tasks.length
  required : IsGreatest (sizes tasks) p.maxRequiredContextTokens
  parallel : IsGreatest (parallels tasks) p.requestedParallel
  cap : ∀ c, p.contextCapTokens = some c ↔ IsLeast (caps tasks) c
  context : p.recommendedLmsContextLength = match p.contextCapTokens with
    | some cap => min (contextBucket p.maxRequiredContextTokens) cap
    | none => contextBucket p.maxRequiredContextTokens
  slots : p.recommendedLmsParallel = max 1 (min tasks.length p.requestedParallel)
  total : p.totalSlotContextTokens = p.recommendedLmsContextLength * p.recommendedLmsParallel
  oversized : p.oversizedTasks = (tasks.filter (exceedsCap tasks)).map fun t => t.jobId.1
  reload : p.reloadRequired = false
  contexts : p.taskContexts = tasks.map fun t =>
    ⟨t.taskId.1, t.jobId.1, t.requiredContextTokens.1, t.estimatedInputTokens, t.maxOutputTokens.1⟩

/-! ### What the planner computes -/

lemma mem_checkEach {α : Type} {check : StoredTask → Except Exn α} {as : List α}
    (h : checkEach check tasks = .ok as) {a : α} : a ∈ as ↔ ∃ t ∈ tasks, check t = .ok a := by
  induction tasks generalizing as with
  | nil =>
    cases h
    simp
  | cons t tasks ih =>
    simp only [checkEach, bind_eq_ok] at h
    obtain ⟨b, hb, rest, hrest, h⟩ := h
    cases h
    rw [List.mem_cons, ih hrest, List.exists_mem_cons_iff, hb]
    exact or_congr ⟨fun he => he ▸ rfl, fun he => (Except.ok.inj he).symm⟩ Iff.rfl

lemma checkEach_ne_nil {α : Type} {check : StoredTask → Except Exn α} {as : List α}
    (h : checkEach check tasks = .ok as) (hne : tasks ≠ []) : as ≠ [] := by
  cases tasks with
  | nil => exact absurd rfl hne
  | cons t tasks =>
    simp only [checkEach, bind_eq_ok] at h
    obtain ⟨b, -, rest, -, h⟩ := h
    cases h
    exact List.cons_ne_nil _ _

/-- The greatest element of a list, zero if there is none. -/
lemma isGreatest_sizes (hne : tasks ≠ []) :
    IsGreatest (sizes tasks) ((tasks.map fun t => t.requiredContextTokens.1).foldr max 0) := by
  have h := isGreatest_foldr_max 0 (tasks.map fun t => t.requiredContextTokens.1)
  constructor
  · rcases List.mem_cons.mp h.1 with hzero | hmem
    · -- every size is at most zero, and there is one
      obtain ⟨t, ht⟩ := List.exists_mem_of_ne_nil _ hne
      have hle := h.2 (List.mem_cons_of_mem _ (List.mem_map_of_mem ht))
      rw [hzero] at hle ⊢
      exact ⟨t, ht, Nat.le_zero.mp hle⟩
    · exact List.mem_map.mp hmem
  · rintro n ⟨t, ht, rfl⟩
    exact h.2 (List.mem_cons_of_mem _ (List.mem_map_of_mem ht))

/-- The least of the caps, as the planner folds it. -/
lemma isLeast_caps {declared : List (Option ℕ)}
    (h : checkEach contextCapForTask tasks = .ok declared)
    (c : ℕ) : (match declared.filterMap id with
      | [] => none
      | n :: rest => some (rest.foldr min n)) = some c ↔ IsLeast (caps tasks) c := by
  have hset : caps tasks = {n | n ∈ declared.filterMap id} := by
    ext n
    rw [Set.mem_ofPred_eq, List.mem_filterMap]
    constructor
    · exact fun hn => ⟨some n, (mem_checkEach h).mpr hn, rfl⟩
    · rintro ⟨o, ho, rfl⟩
      exact (mem_checkEach h).mp ho
  rw [hset]
  cases declared.filterMap id with
  | nil => exact ⟨nofun, fun hc => absurd hc.1 List.not_mem_nil⟩
  | cons n rest =>
    have hleast := isLeast_foldr_min n rest
    exact ⟨fun he => Option.some.inj he ▸ hleast, fun hc => congrArg some (hleast.unique hc)⟩

lemma exceedsCap_of_isLeast {o : Option ℕ} (h : ∀ c, o = some c ↔ IsLeast (caps tasks) c)
    (t : StoredTask) :
    exceedsCap tasks t = o.any fun cap => decide (cap < t.requiredContextTokens.1) := by
  rw [Bool.eq_iff_iff, exceedsCap_iff]
  cases o with
  | none =>
    have hempty : caps tasks = ∅ := by
      rcases (caps tasks).eq_empty_or_nonempty with he | hne
      · exact he
      · cases (h _).mpr ⟨Nat.sInf_mem hne, fun _ => Nat.sInf_le⟩
    simp [hempty]
  | some c =>
    have hc := (h c).mp rfl
    rw [Option.any_some, decide_eq_true_eq]
    constructor
    · rintro ⟨cap, hcap, hlt⟩
      exact lt_of_le_of_lt (hc.2 hcap) hlt
    · exact fun hlt => ⟨c, hc.1, hlt⟩

/-- **What `context_plan_for_model` computes.** -/
theorem merges_of_ok {p : ContextPlan} (hne : tasks ≠ []) (h : contextPlanForModel tasks = .ok p) :
    Merges tasks p := by
  simp only [contextPlanForModel, bind_eq_ok] at h
  obtain ⟨asked, hasked, declared, hdeclared, h⟩ := h
  have hcap := isLeast_caps hdeclared
  have hexceeds := exceedsCap_of_isLeast hcap
  cases h
  refine ⟨rfl, isGreatest_sizes hne, ?_, hcap, rfl, rfl, rfl, ?_, rfl, rfl⟩
  · have hset : parallels tasks = {n | n ∈ asked} := by
      ext n
      exact (mem_checkEach hasked).symm
    rw [hset]
    cases asked with
    | nil => exact absurd rfl (checkEach_ne_nil hasked hne)
    | cons n rest => exact isGreatest_foldr_max n rest
  · refine congrArg (List.map _) (List.filter_congr fun t _ => ?_)
    rw [hexceeds t]
    cases declared.filterMap id <;> rfl

/-- Admitted tasks have a plan. -/
lemma exists_merges (hne : tasks ≠ []) (hadmitted : ∀ t ∈ tasks, Plannable t.orchestration) :
    ∃ p, contextPlanForModel tasks = .ok p ∧ Merges tasks p := by
  obtain ⟨p, hp⟩ := TaskStore.contextPlanForModel_ok hadmitted
  exact ⟨p, hp, merges_of_ok hne hp⟩

/-! ### Order and number of the tasks -/

/-- All of a plan but its two lists. -/
def totals (p : ContextPlan) : ContextPlan := { p with oversizedTasks := [], taskContexts := [] }

lemma sizes_mono (h : tasks' ⊆ tasks) : sizes tasks' ⊆ sizes tasks :=
  fun _ ⟨t, ht, he⟩ => ⟨t, h ht, he⟩

lemma parallels_mono (h : tasks' ⊆ tasks) : parallels tasks' ⊆ parallels tasks :=
  fun _ ⟨t, ht, he⟩ => ⟨t, h ht, he⟩

lemma caps_mono (h : tasks' ⊆ tasks) : caps tasks' ⊆ caps tasks :=
  fun _ ⟨t, ht, he⟩ => ⟨t, h ht, he⟩

/-- **The order of the tasks** only shows in the lists of a plan. -/
theorem Merges.perm {p p' : ContextPlan} (h : Merges tasks p) (h' : Merges tasks' p')
    (hperm : tasks'.Perm tasks) :
    totals p' = totals p ∧ p'.oversizedTasks.Perm p.oversizedTasks ∧
      p'.taskContexts.Perm p.taskContexts := by
  have hsub := hperm.subset
  have hsup := hperm.symm.subset
  have hrequired : p'.maxRequiredContextTokens = p.maxRequiredContextTokens := by
    have hset := (sizes_mono hsub).antisymm (sizes_mono hsup)
    exact h'.required.unique (hset ▸ h.required)
  have hparallel : p'.requestedParallel = p.requestedParallel := by
    have hset := (parallels_mono hsub).antisymm (parallels_mono hsup)
    exact h'.parallel.unique (hset ▸ h.parallel)
  have hcaps : caps tasks' = caps tasks := (caps_mono hsub).antisymm (caps_mono hsup)
  have hcap : p'.contextCapTokens = p.contextCapTokens := by
    ext c
    rw [h'.cap, h.cap, hcaps]
  have hcontext : p'.recommendedLmsContextLength = p.recommendedLmsContextLength := by
    rw [h'.context, h.context, hcap, hrequired]
  have hslots : p'.recommendedLmsParallel = p.recommendedLmsParallel := by
    rw [h'.slots, h.slots, hperm.length_eq, hparallel]
  refine ⟨?_, ?_, ?_⟩
  · rw [totals, totals, ContextPlan.mk.injEq]
    refine ⟨?_, hrequired, hcontext, hparallel, hslots, ?_, hcap, rfl, ?_, rfl⟩
    · rw [h'.queued, h.queued, hperm.length_eq]
    · rw [h'.total, h.total, hcontext, hslots]
    · rw [h'.reload, h.reload]
  · have hexceeds : exceedsCap tasks' = exceedsCap tasks := by
      funext t
      rw [Bool.eq_iff_iff, exceedsCap_iff, exceedsCap_iff, hcaps]
    rw [h'.oversized, h.oversized, hexceeds]
    exact (hperm.filter _).map _
  · rw [h'.contexts, h.contexts]
    exact hperm.map _

/-! ### The planned shape -/

lemma le_contextBucket (n : ℕ) : max 1 n ≤ contextBucket n := by
  rw [contextBucket]
  cases h : contextBuckets.find? fun bucket => max 1 n ≤ bucket with
  | none => exact le_rfl
  | some bucket =>
    have hle := List.find?_some h
    exact decide_eq_true_eq.mp hle

/-- No task of the list is larger than a cap of the list. -/
lemma Merges.oversized_nil_iff {p : ContextPlan} (h : Merges tasks p) :
    p.oversizedTasks = [] ↔ ∀ n ∈ sizes tasks, ∀ cap ∈ caps tasks, n ≤ cap := by
  rw [h.oversized, List.map_eq_nil_iff, List.filter_eq_nil_iff]
  constructor
  · rintro hnone n ⟨t, ht, rfl⟩ cap hcap
    exact not_lt.mp fun hlt => hnone t ht (exceedsCap_iff.mpr ⟨cap, hcap, hlt⟩)
  · intro hfit t ht hexceeds
    obtain ⟨cap, hcap, hlt⟩ := exceedsCap_iff.mp hexceeds
    exact absurd (hfit _ ⟨t, ht, rfl⟩ cap hcap) (not_le.mpr hlt)

lemma Merges.context_bounds {p : ContextPlan} (h : Merges tasks p) (hfit : p.oversizedTasks = []) :
    p.maxRequiredContextTokens ≤ p.recommendedLmsContextLength ∧
      ∀ cap ∈ caps tasks, p.recommendedLmsContextLength ≤ cap := by
  have hbucket := (le_max_right _ _).trans (le_contextBucket p.maxRequiredContextTokens)
  rw [h.context]
  cases hc : p.contextCapTokens with
  | none =>
    refine ⟨hbucket, fun cap hcap => ?_⟩
    cases hc.symm.trans ((h.cap _).mpr ⟨Nat.sInf_mem ⟨cap, hcap⟩, fun _ => Nat.sInf_le⟩)
  | some c =>
    have hleast := (h.cap c).mp hc
    exact ⟨le_min hbucket (h.oversized_nil_iff.mp hfit _ h.required.1 c hleast.1), fun cap hcap =>
      (min_le_right _ _).trans (hleast.2 hcap)⟩

lemma Merges.required_pos {p : ContextPlan} (h : Merges tasks p) :
    0 < p.maxRequiredContextTokens := by
  obtain ⟨t, -, ht⟩ := h.required.1
  rw [← ht]
  exact t.requiredContextTokens.2

lemma one_le_parallel {n : ℕ} (h : n ∈ parallels tasks) : 1 ≤ n := by
  obtain ⟨t, -, ht⟩ := h
  simp only [requestedParallelForTask, bind_eq_ok] at ht
  obtain ⟨own, -, ht⟩ := ht
  cases own with
  | some n => exact Except.ok.inj ht ▸ n.2
  | none =>
    simp only [bind_eq_ok] at ht
    obtain ⟨common, -, ht⟩ := ht
    cases common with
    | some n => exact Except.ok.inj ht ▸ n.2
    | none => exact (Except.ok.inj ht).le

/-- Slots for the tasks, but no more than some task asks for. -/
lemma Merges.slots_eq {p : ContextPlan} (h : Merges tasks p) (hne : tasks ≠ []) :
    p.recommendedLmsParallel = min tasks.length p.requestedParallel := by
  have hlength : 1 ≤ tasks.length := List.length_pos_iff.mpr hne
  have hasked := one_le_parallel h.parallel.1
  rw [h.slots]
  omega

/-! ### Two submitters -/

def sampleSubmission (tenant jobId taskId : PyText.NonBlank)
    (requiredContextTokens : FieldChecks.Positive) (orchestration : Mapping) : StoredTask :=
  TaskStore.newTask
    { sampleTask tenant jobId [] with
      jobId := jobId
      requiredContextTokens := requiredContextTokens
      orchestration := orchestration }
    (sampleStamp taskId)

def cappedTask : StoredTask :=
  sampleSubmission ⟨"tenant-a", nonBlank_tenantA⟩ ⟨"job-a", by decide⟩ ⟨"task_a", by decide⟩
    ⟨1000, by decide⟩ [("lms_context_length", .int 2048)]

def uncappedTask : StoredTask :=
  sampleSubmission ⟨"tenant-b", nonBlank_tenantB⟩ ⟨"job-b", by decide⟩ ⟨"task_b", by decide⟩
    ⟨4000, by decide⟩ [("max_parallel", .int 2)]

lemma sample_admitted : ∀ t ∈ [cappedTask, uncappedTask], Plannable t.orchestration := by
  simp only [List.forall_mem_cons, List.not_mem_nil, false_imp_iff, implies_true, and_true,
    Plannable,
    planFields]
  exact ⟨⟨⟨_, rfl⟩, ⟨_, rfl⟩, ⟨_, rfl⟩⟩, ⟨_, rfl⟩, ⟨_, rfl⟩, ⟨_, rfl⟩⟩

/-! ### What lifecycle makes of a plan -/

/-- Each field of a plan, as the queue proxy wrote it and as lifecycle reads it. -/
structure SameValues (p : ContextPlan) (q : Lifecycle.ContextPlan) : Prop where
  queuedTasks : q.queuedTasks = p.queuedTasks
  maxRequiredContextTokens : q.maxRequiredContextTokens = p.maxRequiredContextTokens
  recommendedLmsContextLength : q.recommendedLmsContextLength = some ↑p.recommendedLmsContextLength
  requestedParallel : q.requestedParallel = p.requestedParallel
  recommendedLmsParallel : q.recommendedLmsParallel = some ↑p.recommendedLmsParallel
  totalSlotContextTokens : q.totalSlotContextTokens = p.totalSlotContextTokens
  contextCapTokens : q.contextCapTokens = p.contextCapTokens.map fun n : ℕ => (n : ℤ)
  oversizedTasks : q.oversizedTasks = p.oversizedTasks
  reloadRequired : q.reloadRequired = p.reloadRequired
  taskContexts : q.taskContexts = p.taskContexts.map fun c =>
    [("task_id", .str c.taskId),
     ("job_id", .str c.jobId),
     ("required_context_tokens", .int c.requiredContextTokens),
     ("estimated_input_tokens", .int c.estimatedInputTokens),
     ("max_output_tokens", .int c.maxOutputTokens)]

lemma Merges.sameValues {p : ContextPlan} (h : Merges tasks p) :
    SameValues p (Lifecycle.ContextPlan.ofProxy p) := by
  have hasked : p.requestedParallel ≠ 0 := by
    have := one_le_parallel h.parallel.1
    omega
  exact ⟨rfl, rfl, rfl, if_neg hasked, rfl, rfl, rfl, rfl, rfl, rfl⟩

lemma Merges.profile_eq {p : ContextPlan} (h : Merges tasks p) (hne : tasks ≠ [])
    (hcontext : 0 < p.recommendedLmsContextLength) (profile : Lifecycle.ModelProfile) :
    Lifecycle.profileWithContextPlan profile (some (.ofProxy p)) =
      { profile with
        lmsContextLength := some ↑p.recommendedLmsContextLength
        lmsParallel := some ↑p.recommendedLmsParallel } := by
  have hqueued : 0 < p.queuedTasks := by
    rw [h.queued]
    exact List.length_pos_iff.mpr hne
  have hslots : 0 < p.recommendedLmsParallel := by
    rw [h.slots]
    exact lt_of_lt_of_le one_pos (le_max_left _ _)
  have hfilter : ∀ {n : ℕ}, 0 < n → (some (n : ℤ)).filter (· ≠ 0) = some (n : ℤ) := by
    intro n hn
    rw [Option.filter_some, if_pos]
    exact decide_eq_true (Int.natCast_ne_zero.mpr hn.ne')
  have hpos : ¬ (p.queuedTasks : ℤ) ≤ 0 := by omega
  simp only [Lifecycle.profileWithContextPlan, Lifecycle.ContextPlan.ofProxy, if_neg hpos,
    hfilter hcontext, hfilter hslots, Option.some_or]

/-- The bounds that the planned shape keeps. -/
def ShapeBounds (tasks : List StoredTask) (profile : Lifecycle.ModelProfile)
    (q : Lifecycle.ContextPlan) : Prop :=
  ∃ context slots : ℕ, profile.lmsContextLength = some (context : ℤ) ∧
    profile.lmsParallel = some (slots : ℤ) ∧
    (∀ t ∈ tasks, t.requiredContextTokens.1 ≤ context) ∧
    (∀ t ∈ tasks, ∀ cap, contextCapForTask t = .ok (some cap) → context ≤ cap) ∧
    1 ≤ slots ∧ slots ≤ tasks.length ∧
    (∃ t ∈ tasks, ∃ asked, requestedParallelForTask t = .ok asked ∧ slots ≤ asked) ∧
    q.totalSlotContextTokens = context * slots

/-- **From the tasks to the shape.** -/
theorem planned_shape (hne : tasks ≠ []) (hadmitted : ∀ t ∈ tasks, Plannable t.orchestration) :
    ∃ p q, contextPlanForModel tasks = .ok p ∧
      Lifecycle.ContextPlan.fromDict p.toMapping = .ok q ∧ SameValues p q ∧
      (∀ tasks', tasks'.Perm tasks → ∃ p', contextPlanForModel tasks' = .ok p' ∧
        totals p' = totals p ∧ p'.oversizedTasks.Perm p.oversizedTasks ∧
        p'.taskContexts.Perm p.taskContexts) ∧
      (p.oversizedTasks = [] → ∀ profile,
        ShapeBounds tasks (Lifecycle.profileWithContextPlan profile (some q)) q) := by
  obtain ⟨p, hp, h⟩ := exists_merges hne hadmitted
  refine ⟨p, .ofProxy p, hp, Lifecycle.ContextPlan.fromDict_toMapping p, h.sameValues, ?_, ?_⟩
  · intro tasks' hperm
    have hne' : tasks' ≠ [] := fun hnil => hne ((hnil ▸ hperm).nil_eq).symm
    obtain ⟨p', hp', h'⟩ := exists_merges hne' fun t ht => hadmitted t (hperm.subset ht)
    exact ⟨p', hp', h.perm h' hperm⟩
  · intro hfit profile
    obtain ⟨hrequired, hcaps⟩ := h.context_bounds hfit
    rw [h.profile_eq hne (lt_of_lt_of_le h.required_pos hrequired)]
    have hasked := one_le_parallel h.parallel.1
    have hlength : 1 ≤ tasks.length := List.length_pos_iff.mpr hne
    have hslots := h.slots_eq hne
    refine ⟨_, _, rfl, rfl, fun t ht => ?_, fun t ht cap hcap => ?_, ?_, ?_, ?_, ?_⟩
    · exact (h.required.2 ⟨t, ht, rfl⟩).trans hrequired
    · exact hcaps cap ⟨t, ht, hcap⟩
    · omega
    · omega
    · obtain ⟨t, ht, hn⟩ := h.parallel.1
      exact ⟨t, ht, _, hn, hslots ▸ min_le_right _ _⟩
    · show (p.totalSlotContextTokens : ℤ) = _
      rw [h.total]
      exact Nat.cast_mul _ _

lemma uncapped_admitted (n : ℕ) :
    ∀ t ∈ List.replicate n uncappedTask, Plannable t.orchestration := by
  intro t ht
  rw [List.eq_of_mem_replicate ht]
  exact sample_admitted _ (by simp)

/-- Two tasks of which none declares a cap. -/
theorem planned_shape_sample : ∃ p q, contextPlanForModel (List.replicate 2 uncappedTask) = .ok p ∧
    Lifecycle.ContextPlan.fromDict p.toMapping = .ok q ∧ SameValues p q ∧
    p.recommendedLmsContextLength = 4096 ∧ p.recommendedLmsParallel = 2 ∧
    ∀ profile, ShapeBounds (List.replicate 2 uncappedTask)
      (Lifecycle.profileWithContextPlan profile (some q)) q := by
  obtain ⟨p, q, hp, hq, hsame, -, hbounds⟩ := planned_shape (by decide) (uncapped_admitted 2)
  refine ⟨p, q, hp, hq, hsame, ?_⟩
  cases hp
  exact ⟨by decide, by decide, hbounds rfl⟩

/-! ### Reloads -/

section Reloads

open Coro Lifecycle

variable {profile : ModelProfile}

/-- The shape in the metadata of an instance is that of a profile. -/
structure Recorded (profile : ModelProfile) (i : BackendInstance) : Prop where
  context : i.metadata.get "lms_context_length" = optInt profile.lmsContextLength
  parallel : i.metadata.get "lms_parallel" = optInt profile.lmsParallel

/-- `start_instance` records the shape of the profile it starts. -/
lemma ticking_startInstance_recorded (settings : LifecycleSettings) (profile : ModelProfile)
    (decision : PlacementDecision) (gpus : List GpuState) :
    Ticking Note.AboutProcess (startInstance settings profile decision gpus)
      (Recorded profile) := by
  dsimp only [startInstance]
  split
  · exact Ticking.raise _
  · refine Ticking.nowText.bind fun _ _ => Ticking.get fun s => ?_
    refine (ticking_start _ _ _ _ _ _ _ _).bind fun i _ => Ticking.pure ⟨?_, ?_⟩
    · simp [Mapping.merge, shapeMetadata, Mapping.get, Mapping.lookup_set]
    · simp [Mapping.merge, shapeMetadata, Mapping.get, Mapping.lookup_set]

lemma optionalInt_optInt (n : Option ℤ) : Lifecycle.optionalInt (optInt n) = .ok n := by
  cases n <;> rfl

/-- What is recorded is at least what is wanted: nothing to reload. -/
lemma assess_keeps {context slots : ℤ} {plan : Lifecycle.ContextPlan}
    (hbucket : profile.reloadAllowBucketOnly = false)
    (hrequired : plan.maxRequiredContextTokens ≤ context)
    (hslots : ∀ n, profile.lmsParallel = some n → n ≤ slots) :
    (assessReloadNeed (some context) (some slots) profile plan).reloadNeeded = false := by
  dsimp only [assessReloadNeed]
  simp only [Option.isNone_some, Bool.and_false, hbucket, Bool.not_false, Bool.and_true]
  have hfits : (decide (0 < plan.maxRequiredContextTokens) &&
      decide (context < plan.maxRequiredContextTokens)) = false := by
    rw [decide_eq_false (not_lt.mpr hrequired), Bool.and_false]
  rw [if_neg Bool.false_ne_true, if_neg Bool.false_ne_true, Option.any_some, hfits,
    if_neg Bool.false_ne_true]
  split
  · rfl
  · split
    · next hbelow =>
      split at hbelow
      · next c d hc hd =>
        cases hc
        have hle := hslots d (Option.filter_eq_some_iff.mp hd).1
        exact absurd (decide_eq_true_eq.mp hbelow) (not_lt.mpr hle)
      · cases hbelow
    · rfl

/-- A decision to reload is about an instance whose shape has to change. -/
lemma reloadDecision_runs {plan : Lifecycle.ContextPlan} {l : List BackendInstance}
    {E : (c : LifecycleCall) → c.Answer → LifecycleState → LifecycleState → Prop}
    {s s' : LifecycleState} {es : List (Event LifecycleCall LifecycleCall.Answer)}
    {d : PlacementDecision} (h : (reloadDecision profile plan l).Runs E s es (.ok (some d)) s') :
    d.action = .noop ∨ d.action = .reload ∧ ∃ j ∈ l, d.instanceId = some j.instanceId ∧
      ∃ context slots, lmsContextLengthFromInstance j = .ok context ∧
        lmsParallelFromInstance j = .ok slots ∧
        (assessReloadNeed context slots profile plan).reloadNeeded = true := by
  induction l generalizing s es with
  | nil => cases (runs_done.mp h).2.1
  | cons i rest ih =>
    have hrest : ∀ {s es}, (reloadDecision profile plan rest).Runs E s es (.ok (some d)) s' →
        d.action = .noop ∨ d.action = .reload ∧ ∃ j ∈ i :: rest, d.instanceId = some j.instanceId ∧
          ∃ context slots, lmsContextLengthFromInstance j = .ok context ∧
            lmsParallelFromInstance j = .ok slots ∧
            (assessReloadNeed context slots profile plan).reloadNeeded = true :=
      fun hr => (ih hr).imp_right fun ⟨ha, j, hj, hd⟩ => ⟨ha, j, List.mem_cons_of_mem _ hj, hd⟩
    rw [reloadDecision] at h
    split at h
    · exact hrest h
    cases hc : lmsContextLengthFromInstance i with
    | error e =>
      rw [hc] at h
      cases (runs_done.mp h).2.1
    | ok context =>
      cases hn : lmsParallelFromInstance i with
      | error e =>
        rw [hc, hn] at h
        cases (runs_done.mp h).2.1
      | ok slots =>
        rw [hc, hn] at h
        simp only [lift, after_done, onOk_ok] at h
        split at h
        · split at h
          · cases (runs_done.mp h).2.1
            exact Or.inl rfl
          · exact hrest h
        · next hneeded =>
          obtain ⟨_, _, x, _, -, -, h⟩ := runs_after.mp h
          cases x with
          | error e => cases (runs_done.mp h).2.1
          | ok satisfied =>
            rw [onOk_ok] at h
            split at h
            · cases (runs_done.mp h).2.1
              refine Or.inr ⟨rfl, i, List.mem_cons_self, rfl, context, slots, hc, hn, ?_⟩
              simpa using hneeded
            · cases (runs_done.mp h).2.1
              exact Or.inl rfl

/-- Fewer tasks have fewer caps to exceed. -/
lemma Merges.fits_of_subset {p p' : Orchestrator.ContextPlan} (h : Merges tasks p)
    (h' : Merges tasks' p') (hfit : p.oversizedTasks = []) (hsub : tasks' ⊆ tasks) :
    p'.oversizedTasks = [] :=
  h'.oversized_nil_iff.mpr fun n hn cap hcap =>
    h.oversized_nil_iff.mp hfit n (sizes_mono hsub hn) cap (caps_mono hsub hcap)

/-- Fewer tasks are no larger and get no more slots. -/
lemma Merges.shrinks {p p' : Orchestrator.ContextPlan} (h : Merges tasks p) (h' : Merges tasks' p')
    (hne : tasks ≠ []) (hne' : tasks' ≠ []) (hsub : tasks'.Subperm tasks) :
    p'.maxRequiredContextTokens ≤ p.maxRequiredContextTokens ∧
      p'.recommendedLmsParallel ≤ p.recommendedLmsParallel := by
  have hrequired := h.required.2 (sizes_mono hsub.subset h'.required.1)
  have hasked := h.parallel.2 (parallels_mono hsub.subset h'.parallel.1)
  refine ⟨hrequired, ?_⟩
  rw [h.slots_eq hne, h'.slots_eq hne']
  exact min_le_min hsub.length_le hasked

/-- **An instance with the shape planned for some tasks** is not reloaded for fewer of them. -/
theorem drained_never_reloads (profile : ModelProfile)
    (hbucket : profile.reloadAllowBucketOnly = false) (hne : tasks ≠ [])
    (hadmitted : ∀ t ∈ tasks, Plannable t.orchestration) :
    ∃ p q, contextPlanForModel tasks = .ok p ∧ Lifecycle.ContextPlan.fromDict p.toMapping = .ok q ∧
      (p.oversizedTasks = [] → ∀ tasks', tasks' ≠ [] → tasks'.Subperm tasks →
        ∃ p' q', contextPlanForModel tasks' = .ok p' ∧
          Lifecycle.ContextPlan.fromDict p'.toMapping = .ok q' ∧
          ∀ (active : List BackendInstance), (active.map (·.instanceId)).Nodup →
            ∀ i ∈ active, Recorded (profileWithContextPlan profile (some q)) i →
            ∀ E s es d s', (reloadDecisionForContextPlan (profileWithContextPlan profile (some q'))
                active (some q')).Runs E s es (.ok (some d)) s' →
              d.action = .reload → d.instanceId ≠ some i.instanceId) := by
  obtain ⟨p, hp, h⟩ := exists_merges hne hadmitted
  refine ⟨p, .ofProxy p, hp, Lifecycle.ContextPlan.fromDict_toMapping p, ?_⟩
  intro hfit tasks' hne' hsub
  obtain ⟨p', hp', h'⟩ := exists_merges hne' fun t ht => hadmitted t (hsub.subset ht)
  refine ⟨p', .ofProxy p', hp', Lifecycle.ContextPlan.fromDict_toMapping p', ?_⟩
  intro active hkeyed i hi hrecorded E s es d s' hrun hreload hid
  rw [reloadDecisionForContextPlan] at hrun
  split at hrun
  · cases (runs_done.mp hrun).2.1
  rcases reloadDecision_runs hrun with hnoop | ⟨-, j, hj, hdj, context, slots, hc, hn, hneeded⟩
  · cases hnoop.symm.trans hreload
  obtain rfl : j = i := by
    have hsame : j.instanceId = i.instanceId := Option.some.inj (hdj.symm.trans hid)
    exact List.inj_on_of_nodup_map hkeyed hj hi hsame
  obtain ⟨hrequired, -⟩ := h.context_bounds hfit
  obtain ⟨hsize, hslots⟩ := h.shrinks h' hne hne' hsub
  have hprofile := h.profile_eq hne (lt_of_lt_of_le h.required_pos hrequired) profile
  rw [hprofile] at hrecorded
  -- what the instance records is the shape of the plan of all the tasks
  rw [lmsContextLengthFromInstance, hrecorded.context, optionalInt_optInt] at hc
  rw [lmsParallelFromInstance, hrecorded.parallel, optionalInt_optInt] at hn
  cases hc
  cases hn
  obtain ⟨hrequired', -⟩ := h'.context_bounds (h.fits_of_subset h' hfit hsub.subset)
  rw [h'.profile_eq hne' (lt_of_lt_of_le h'.required_pos hrequired')] at hneeded
  refine absurd hneeded (ne_of_eq_of_ne (assess_keeps hbucket ?_ ?_) Bool.false_ne_true)
  · exact Int.ofNat_le.mpr (hsize.trans hrequired)
  · intro n hn
    cases hn
    exact Int.ofNat_le.mpr hslots

/-- The instance that was loaded for three tasks, when one of them is left. -/
theorem drained_never_reloads_sample : ∃ q q',
    ∀ E s es d s', (reloadDecisionForContextPlan
        (profileWithContextPlan (lmstudioProfile "local-model" "local-model" 8000) (some q'))
        [{ dryInstance "backend-1" (lmstudioProfile "local-model" "local-model" 8000) with
          metadata := shapeMetadata
            (profileWithContextPlan (lmstudioProfile "local-model" "local-model" 8000) (some q)) }]
        (some q')).Runs E s es (.ok (some d)) s' →
      d.action = .reload → d.instanceId ≠ some "backend-1" := by
  obtain ⟨p, q, hp, -, hdrained⟩ := drained_never_reloads
    (lmstudioProfile "local-model" "local-model" 8000) rfl (by decide) (uncapped_admitted 3)
  have hfit : p.oversizedTasks = [] := by
    cases hp
    decide
  obtain ⟨p', q', -, -, hnever⟩ := hdrained hfit (List.replicate 1 uncappedTask) (by decide)
    (List.Sublist.subperm (List.replicate_sublist_replicate _ |>.mpr (by decide)))
  exact ⟨q, q', hnever [_] (List.nodup_singleton _) _ (List.mem_singleton.mpr rfl) ⟨rfl, rfl⟩⟩

/-! ### Tasks that do not fit -/

lemma decide_runs {gpus : List GpuState} {registry : Registry} {active : List BackendInstance}
    {desiredCount queueLength : ℤ} {plan : Lifecycle.ContextPlan} (hfit : plan.oversizedTasks = [])
    {E : (c : LifecycleCall) → c.Answer → LifecycleState → LifecycleState → Prop}
    {s s' : LifecycleState} {es : List (Event LifecycleCall LifecycleCall.Answer)}
    {ds : List PlacementDecision}
    (h : (Lifecycle.decide profile gpus registry active desiredCount queueLength (some plan)).Runs
      E s es (.ok ds) s') : ∀ d ∈ ds, d.action ≠ .rejectOversized := by
  have hsatisfied : ∀ d ∈ (if desiredCount = (active.length : ℤ) then
      [modelDecision profile .noop "desired_replicas_satisfied" (some plan)] else []),
      d.action ≠ .rejectOversized := by
    intro d hd
    split at hd
    · rw [List.mem_singleton.mp hd]
      exact ScaleAction.noConfusion
    · cases hd
  dsimp only [Lifecycle.decide] at h
  rw [Option.any_some, hfit, if_neg (by simp)] at h
  split at h
  · cases (runs_done.mp h).2.1
    rintro d hd
    rw [List.mem_singleton.mp hd, chooseGpu]
    dsimp only
    split <;> exact ScaleAction.noConfusion
  · split at h
    · obtain ⟨_, _, x, _, -, hx, h⟩ := runs_after.mp h
      cases x with
      | error e => cases (runs_done.mp h).2.1
      | ok o =>
        cases o with
        | none =>
          cases (runs_done.mp h).2.1
          exact hsatisfied
        | some d =>
          cases (runs_done.mp h).2.1
          intro d' hd'
          rw [List.mem_singleton.mp hd']
          rw [reloadDecisionForContextPlan] at hx
          split at hx
          · cases (runs_done.mp hx).2.1
          · rcases reloadDecision_runs hx with hd | ⟨hd, -⟩ <;>
              exact fun hc => ScaleAction.noConfusion (hd.symm.trans hc)
    · cases (runs_done.mp h).2.1
      exact hsatisfied

/-- **A task is oversized** when it is larger than the least cap among the tasks of its model,
and lifecycle then rejects the plan for all of them. -/
theorem oversized_by_least_cap (hadmitted : ∀ t ∈ tasks, Plannable t.orchestration) :
    ∃ p q, contextPlanForModel tasks = .ok p ∧ Lifecycle.ContextPlan.fromDict p.toMapping = .ok q ∧
      p.oversizedTasks = (tasks.filter (exceedsCap tasks)).map (fun t => t.jobId.1) ∧
      (∀ t, exceedsCap tasks t = true ↔
        ∃ cap, IsLeast (caps tasks) cap ∧ cap < t.requiredContextTokens.1) ∧
      (∀ more t, exceedsCap (tasks ++ more) t = (exceedsCap tasks t || exceedsCap more t)) ∧
      ∀ profile gpus registry active desiredCount queueLength E s es ds s',
        (Lifecycle.decide profile gpus registry active desiredCount queueLength (some q)).Runs
          E s es (.ok ds) s' →
        ((∃ d ∈ ds, d.action = .rejectOversized) ↔ ∃ t ∈ tasks, exceedsCap tasks t = true) := by
  obtain ⟨p, hp⟩ := TaskStore.contextPlanForModel_ok hadmitted
  have hoversized : p.oversizedTasks = (tasks.filter (exceedsCap tasks)).map fun t =>
    t.jobId.1 := by
    rcases eq_or_ne tasks [] with rfl | hne
    · cases hp
      rfl
    · exact (merges_of_ok hne hp).oversized
  refine ⟨p, .ofProxy p, hp, Lifecycle.ContextPlan.fromDict_toMapping p, hoversized, ?_, ?_, ?_⟩
  · intro t
    rw [exceedsCap_iff]
    constructor
    · rintro ⟨cap, hcap, hlt⟩
      have hle : sInf (caps tasks) ≤ cap := Nat.sInf_le hcap
      exact ⟨_, ⟨Nat.sInf_mem ⟨cap, hcap⟩, fun _ => Nat.sInf_le⟩, lt_of_le_of_lt hle hlt⟩
    · rintro ⟨cap, hcap, hlt⟩
      exact ⟨cap, hcap.1, hlt⟩
  · exact fun more t => List.any_append
  · intro profile gpus registry active desiredCount queueLength E s es ds s' hrun
    constructor
    · rintro ⟨d, hd, hreject⟩
      by_contra hnone
      have hfit : p.oversizedTasks = [] := by
        rw [hoversized, List.map_eq_nil_iff, List.filter_eq_nil_iff]
        exact fun t ht hexceeds => hnone ⟨t, ht, hexceeds⟩
      exact decide_runs hfit hrun d hd hreject
    · rintro ⟨t, ht, hexceeds⟩
      have hne : (Lifecycle.ContextPlan.ofProxy p).oversizedTasks ≠ [] := by
        intro hnil
        have hnil : p.oversizedTasks = [] := hnil
        rw [hoversized, List.map_eq_nil_iff, List.filter_eq_nil_iff] at hnil
        exact hnil t ht hexceeds
      dsimp only [Lifecycle.decide] at hrun
      rw [Option.any_some, if_pos (by simpa using hne)] at hrun
      cases (runs_done.mp hrun).2.1
      exact ⟨_, List.mem_singleton.mpr rfl, rfl⟩

theorem oversized_by_least_cap_sample :
    ∃ p, contextPlanForModel [cappedTask, uncappedTask] = .ok p ∧ p.oversizedTasks = ["job-b"] := by
  obtain ⟨p, -, hp, -, hoversized, -⟩ := oversized_by_least_cap sample_admitted
  refine ⟨p, hp, ?_⟩
  rw [hoversized]
  decide

end Reloads

/-- A task that is larger than the cap it was submitted with. -/
def exceedsOwn (t : StoredTask) : Bool :=
  match contextCapForTask t with
  | .ok (some cap) => cap < t.requiredContextTokens.1
  | _ => false

/-- The cap of one tenant makes the task of another oversized. -/
theorem foreign_cap_oversizes : ¬ ∀ (tasks : List StoredTask) (p : ContextPlan),
    (∀ t ∈ tasks, Plannable t.orchestration ∧ t.state.isActive = true ∧ t.model.1 = "local-model") →
    contextPlanForModel tasks = .ok p →
    p.oversizedTasks = (tasks.filter exceedsOwn).map fun t => t.jobId.1 := by
  intro h
  obtain ⟨p, hp⟩ := TaskStore.contextPlanForModel_ok sample_admitted
  have hactive : ∀ t ∈ [cappedTask, uncappedTask],
      t.state.isActive = true ∧ t.model.1 = "local-model" := by decide
  have heq := h _ p (fun t ht => ⟨sample_admitted t ht, hactive t ht⟩) hp
  cases hp
  exact absurd heq (by decide)

end Orchestrator.PlanShapes
