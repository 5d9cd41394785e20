import Orchestrator.ContextPlan
import Orchestrator.Idempotency

/-!
Tasks in working order: the numbers a context plan reads from a task pass their checks, and the
time stamps are texts of instants. A task that is parsed from a submission is in order, and every
operation keeps it so; therefore no plan and no claim ever raises.
-/

namespace Orchestrator

open Lib Clock FieldChecks TaskStore Idempotency

/-- The three numbers that a context plan reads. -/
def planFields : List String := ["lms_parallel", "max_parallel", "lms_context_length"]

/-- The numbers that a context plan reads pass their checks. -/
def Plannable (orchestration : Mapping) : Prop :=
  ∀ key ∈ planFields, ∃ n, optionalPositiveInt (orchestration.get key) key = .ok n

def IsTime (text : String) : Prop := ∃ t, text = nowIso t

structure StoredTask.Valid (t : StoredTask) : Prop where
  plan : Plannable t.orchestration
  created : IsTime t.createdAt
  started : ∀ text ∈ t.startedAt, IsTime text
  finished : ∀ text ∈ t.finishedAt, IsTime text
  next : ∀ text ∈ t.nextAttemptAt, IsTime text

/-! ### Parsed tasks -/

/-- The name of the field only occurs in the message. -/
lemma optionalInt_rename {least : ℕ} {kind a b : String} {value : Json}
    {n : Option {n : ℕ // least ≤ n}} (h : optionalInt least kind value a = .ok n) :
    optionalInt least kind value b = .ok n := by
  rw [optionalInt] at h ⊢
  cases hn : value.isNoneOrEmpty with
  | true => simpa only [hn, if_true] using h
  | false =>
    cases hi : value.toInt with
    | error e =>
      simp only [hn, hi, Bool.false_eq_true, if_false] at h
      by_cases he : e.name = "TypeError" ∨ e.name = "ValueError"
      · rw [if_pos he] at h; cases h
      · rw [if_neg he] at h; cases h
    | ok m =>
      simp only [hn, hi, Bool.false_eq_true, if_false] at h ⊢
      by_cases hm : (least : ℤ) ≤ m
      · rw [dif_pos hm] at h ⊢; exact h
      · rw [dif_neg hm] at h; cases h

/-- The order of keys inside a value does not matter. -/
lemma optionalInt_sortKeys (least : ℕ) (kind fieldName : String) (value : Json) :
    optionalInt least kind value.sortKeys fieldName = optionalInt least kind value fieldName := by
  cases value <;> simp [Json.sortKeys, optionalInt, Json.isNoneOrEmpty, Json.toInt]

lemma checkAll_ok {check : String → Except Exn Unit} {names : List String}
    (h : TaskParse.checkAll check names = .ok ()) : ∀ name ∈ names, check name = .ok () := by
  induction names with
  | nil => simp
  | cons name names ih =>
    rw [TaskParse.checkAll, bind_eq_ok] at h
    obtain ⟨u, hu, hrest⟩ := h
    rw [List.forall_mem_cons]
    exact ⟨hu, ih hrest⟩

lemma plannable_of_validate {m : Mapping} (h : TaskParse.validateCommonOrchestration m = .ok ()) :
    Plannable m := by
  unfold TaskParse.validateCommonOrchestration at h
  obtain ⟨version, -, h⟩ := bind_eq_ok.mp h
  split at h
  · cases h
  obtain ⟨-, -, h⟩ := bind_eq_ok.mp h
  split at h
  · cases h
  intro key hkey
  have hc := checkAll_ok h key hkey
  obtain ⟨n, hn, -⟩ := bind_eq_ok.mp hc
  exact ⟨n, optionalInt_rename hn⟩

/-- The fields of a task replace four keys only. -/
lemma plannable_override {m rawTask : Mapping} (h : Plannable m) :
    Plannable (["job_id", "idempotency_key", "labels", "artifacts"].foldl
      (fun m key => if rawTask.has key then m.set key (rawTask.get key) else m) m) := by
  have hstep : ∀ (m : Mapping) (name key : String), key ∈ planFields → name ∉ planFields →
      (if rawTask.has name then m.set name (rawTask.get name) else m).get key = m.get key := by
    intro m name key hkey hname
    split
    · exact Mapping.get_set_ne m _ fun he => hname (he ▸ hkey)
    · rfl
  intro key hkey
  obtain ⟨n, hn⟩ := h key hkey
  refine ⟨n, ?_⟩
  simp only [List.foldl_cons, List.foldl_nil]
  rw [hstep _ _ _ hkey (by decide), hstep _ _ _ hkey (by decide), hstep _ _ _ hkey (by decide),
    hstep _ _ _ hkey (by decide)]
  exact hn

lemma parseQueueTask_plannable {rawTask common : Mapping} {model endpoint : PyText.NonBlank}
    {template : Option Mapping} {vars : Mapping} {index : ℕ} {t : QueueTask}
    (hc : Plannable common)
    (h : TaskParse.parseQueueTask rawTask common model endpoint template vars index = .ok t) :
    Plannable t.orchestration := by
  unfold TaskParse.parseQueueTask at h
  simp only [bind_eq_ok] at h
  obtain ⟨_, -, _, -, _, -, _, -, _, -, _, -, _, -, _, -, _, -, _, -, _, -, _, -, _, -, h⟩ := h
  cases h
  exact plannable_override hc

lemma parseTasks_plannable {common : Mapping} {model endpoint : PyText.NonBlank}
    {template : Option Mapping} {vars : Mapping} {index : ℕ} {raw : List Json}
    {tasks : List QueueTask}
    (hc : Plannable common)
    (h : TaskParse.parseTasks common model endpoint template vars index raw = .ok tasks) :
    ∀ t ∈ tasks, Plannable t.orchestration := by
  induction raw generalizing index tasks with
  | nil => cases h; simp
  | cons x raw ih =>
    cases x with
    | obj m =>
      rw [TaskParse.parseTasks] at h
      simp only [bind_eq_ok] at h
      obtain ⟨t, ht, rest, hrest, h⟩ := h
      cases h
      rw [List.forall_mem_cons]
      exact ⟨parseQueueTask_plannable hc ht, ih hrest⟩
    | _ => cases h

/-- **Every admitted task can be planned.** -/
theorem parse_plannable {payload : Json} {tasks : List QueueTask}
    (h : TaskParse.parseTaskQueuePayload payload = .ok tasks) :
    ∀ t ∈ tasks, Plannable t.orchestration := by
  cases payload with
  | obj m =>
    rw [TaskParse.parseTaskQueuePayload, TaskParse.parseQueueObject] at h
    simp only [bind_eq_ok] at h
    obtain ⟨common, -, u, hu, model, -, endpoint, -, template, -, vars, -, h⟩ := h
    split at h
    · exact parseTasks_plannable (plannable_of_validate hu) h
    · cases h
  | _ => cases h

/-! ### What the operations keep -/

lemma isTime_nowIso (t : DateTime) : IsTime (nowIso t) := ⟨t, rfl⟩

lemma isTime_parse {text : String} (h : IsTime text) : ∃ t, parseIso text = .ok t := by
  obtain ⟨t, rfl⟩ := h
  exact ⟨t, parseIso_nowIso t⟩

lemma isTime_ne_empty {text : String} (h : IsTime text) : text ≠ "" := by
  obtain ⟨t, ht⟩ := isTime_parse h
  rintro rfl
  have he : parseIso "" = .error (.valueError "Invalid isoformat string") := by rfl
  rw [he] at ht
  cases ht

lemma secondsBetween_ok {start stop : Option String} (h : ∀ text ∈ start, IsTime text)
    (h' : ∀ text ∈ stop, IsTime text) : ∃ q, secondsBetween start stop = .ok q := by
  cases start with
  | none => exact ⟨0, rfl⟩
  | some a =>
    cases stop with
    | none => exact ⟨0, rfl⟩
    | some b =>
      obtain ⟨t, ht⟩ := isTime_parse (h a rfl)
      obtain ⟨u, hu⟩ := isTime_parse (h' b rfl)
      simp only [secondsBetween, ht, hu]
      exact ⟨_, rfl⟩

namespace StoredTask.Valid

variable {t : StoredTask}

lemma newTask {task : QueueTask} (h : Plannable task.orchestration) (stamp : Stamp) :
    (newTask task stamp).Valid :=
  ⟨h, isTime_nowIso _, nofun, nofun, nofun⟩

lemma claimed (h : t.Valid) (now : DateTime) : (claimed now t).Valid := by
  refine ⟨h.plan, h.created, ?_, h.finished, nofun⟩
  intro text ht
  cases hs : t.startedAt with
  | none =>
    rw [TaskStore.claimed, hs] at ht
    cases ht
    exact isTime_nowIso now
  | some old =>
    have hold := h.started old (by rw [hs]; rfl)
    rw [TaskStore.claimed, hs] at ht
    simp only [if_neg (isTime_ne_empty hold)] at ht
    cases ht
    exact hold

lemma succeeded (h : t.Valid) (now : DateTime) (result : Mapping) :
    (succeeded now result t).Valid := by
  refine ⟨h.plan, h.created, h.started, ?_, nofun⟩
  intro text ht
  cases ht
  exact isTime_nowIso now

lemma failed (h : t.Valid) (now : DateTime) (error : Mapping) : (failed now error t).Valid := by
  refine ⟨h.plan, h.created, h.started, ?_, nofun⟩
  intro text ht
  cases ht
  exact isTime_nowIso now

lemma cancelled (h : t.Valid) (now : DateTime) : (cancelled now t).Valid := by
  refine ⟨h.plan, h.created, h.started, ?_, nofun⟩
  intro text ht
  cases ht
  exact isTime_nowIso now

lemma retried (h : t.Valid) (now next : DateTime) (error : Mapping) :
    (retried now error (nowIso next) t).Valid := by
  refine ⟨h.plan, h.created, h.started, h.finished, ?_⟩
  intro text ht
  cases ht
  exact isTime_nowIso next

lemma reloaded (h : t.Valid) (now : String) : (t.reloaded now).Valid := by
  have hfilter : ∀ {o : Option String}, (∀ text ∈ o, IsTime text) →
      ∀ text ∈ o.filter (· ≠ ""), IsTime text := by
    intro o ho text ht
    exact ho text (Option.filter_eq_some_iff.mp ht).1
  refine ⟨?_, ?_, hfilter h.started, hfilter h.finished, hfilter h.next⟩
  · intro key hkey
    obtain ⟨n, hn⟩ := h.plan key hkey
    refine ⟨n, ?_⟩
    rw [StoredTask.reloaded, Json.get_reloadItems, optionalPositiveInt, optionalInt_sortKeys]
    exact hn
  · rw [StoredTask.reloaded, if_neg (isTime_ne_empty h.created)]
    exact h.created

end StoredTask.Valid

namespace TaskStore

/-- A store whose maps are inverse to each other and whose tasks are in order. -/
structure Sound (s : TaskStore) : Prop where
  inverse : Inverse s
  valid : ∀ {id t}, s.tasksById.get? id = some t → t.Valid

variable {s s' : TaskStore}

lemma Sound.empty : Sound TaskStore.empty := ⟨Inverse.empty, nofun⟩

lemma Sound.valid_of_mem (hs : Sound s) {t : StoredTask} (h : t ∈ s.tasks) : t.Valid :=
  hs.valid (hs.inverse.get?_of_mem h)

lemma Updated.sound {id : String} {t t' : StoredTask} (h : Updated id t t' s s') (hs : Sound s)
    (ht : t'.Valid) : Sound s' := by
  refine ⟨h.inverse hs.inverse, fun {x u} hu => ?_⟩
  rw [h.get?] at hu
  split at hu
  · cases hu; exact ht
  · exact hs.valid hu

lemma insert_sound (hs : Sound s) {t : StoredTask} (ht : t.Valid)
    (hid : s.tasksById.get? t.taskId.1 = none) (hp : s.idempotencyIndex.get? t.pair = none) :
    Sound (s.insert t) := by
  refine ⟨insert_inverse hs.inverse hid hp, fun {x u} hu => ?_⟩
  have hget : (s.insert t).tasksById.get? x =
      if x = t.taskId.1 then some t else s.tasksById.get? x := Dict.get?_set ..
  rw [hget] at hu
  split at hu
  · cases hu; exact ht
  · exact hs.valid hu

/-- A submission adds new tasks of the batch and nothing else. -/
lemma submitMany_new {batch : List (QueueTask × Stamp)}
    {r : Except Exn (List StoredTask × List StoredTask)} (h : submitMany batch s = (r, s'))
    {id : String} {t : StoredTask} (ht : s'.tasksById.get? id = some t) :
    s.tasksById.get? id = some t ∨ ∃ b ∈ batch, t = newTask b.1 b.2 := by
  induction batch generalizing s r with
  | nil =>
    cases h
    exact Or.inl ht
  | cons b batch ih =>
    obtain ⟨task, stamp⟩ := b
    rw [submitMany] at h
    split at h
    · split at h
      · obtain ⟨-, h⟩ := Prod.mk.inj h
        rcases ih (Prod.ext rfl h) with h | ⟨b, hb, rfl⟩
        · exact Or.inl h
        · exact Or.inr ⟨b, List.mem_cons_of_mem _ hb, rfl⟩
      · cases h
        exact Or.inl ht
    · obtain ⟨-, h⟩ := Prod.mk.inj h
      rcases ih (Prod.ext rfl h) with h | ⟨b, hb, rfl⟩
      · rw [insert, Dict.get?_set] at h
        split at h
        · cases h
          exact Or.inr ⟨_, List.mem_cons_self, rfl⟩
        · exact Or.inl h
      · exact Or.inr ⟨b, List.mem_cons_of_mem _ hb, rfl⟩

lemma submitMany_sound (hs : Sound s) {batch : List (QueueTask × Stamp)} (hf : Fresh s batch)
    (hp : ∀ b ∈ batch, Plannable b.1.orchestration)
    {r : Except Exn (List StoredTask × List StoredTask)} (h : submitMany batch s = (r, s')) :
    Sound s' ∧ ∀ id t, s.tasksById.get? id = some t → s'.tasksById.get? id = some t := by
  obtain ⟨outcomes, s'', he, -, hinv, hkeep, -⟩ := submitMany_spec hs.inverse hf
  obtain ⟨-, rfl⟩ := Prod.mk.inj (h.symm.trans he)
  refine ⟨⟨hinv, fun {id t} ht => ?_⟩, hkeep⟩
  rcases submitMany_new h ht with ht | ⟨b, hb, rfl⟩
  · exact hs.valid ht
  · exact .newTask (hp b hb) b.2

lemma reload_sound (hs : Sound s) {now : DateTime} (h : reload now s = .ok s') : Sound s' := by
  obtain ⟨hinv, hget⟩ := reload_spec hs.inverse h
  refine ⟨hinv, fun {id t} ht => ?_⟩
  rw [hget, Option.map_eq_some_iff] at ht
  obtain ⟨u, hu, rfl⟩ := ht
  exact (hs.valid hu).reloaded _

/-! ### Plans never raise -/

lemma checkEach_ok {α : Type} {check : StoredTask → Except Exn α} {l : List StoredTask}
    (h : ∀ t ∈ l, ∃ a, check t = .ok a) : ∃ as, ContextPlan.checkEach check l = .ok as := by
  induction l with
  | nil => exact ⟨[], rfl⟩
  | cons t l ih =>
    rw [List.forall_mem_cons] at h
    obtain ⟨a, ha⟩ := h.1
    obtain ⟨as, has⟩ := ih h.2
    exact ⟨a :: as, by simp only [ContextPlan.checkEach, ha, has]; rfl⟩

lemma requestedParallel_ok {t : StoredTask} (h : Plannable t.orchestration) :
    ∃ n, ContextPlan.requestedParallelForTask t = .ok n := by
  obtain ⟨n, hn⟩ := h "lms_parallel" (by decide)
  obtain ⟨m, hm⟩ := h "max_parallel" (by decide)
  unfold ContextPlan.requestedParallelForTask
  rw [hn]
  cases n with
  | some n => exact ⟨n.1, rfl⟩
  | none =>
    cases m with
    | some m => exact ⟨m.1, by rw [hm]; rfl⟩
    | none => exact ⟨1, by rw [hm]; rfl⟩

lemma contextCap_ok {t : StoredTask} (h : Plannable t.orchestration) :
    ∃ c, ContextPlan.contextCapForTask t = .ok c := by
  obtain ⟨c, hc⟩ := h "lms_context_length" (by decide)
  exact ⟨c.map Subtype.val, by rw [ContextPlan.contextCapForTask, hc]; rfl⟩

lemma contextPlanForModel_ok {l : List StoredTask} (h : ∀ t ∈ l, Plannable t.orchestration) :
    ∃ p, ContextPlan.contextPlanForModel l = .ok p := by
  obtain ⟨ns, hns⟩ := checkEach_ok fun t ht => requestedParallel_ok (h t ht)
  obtain ⟨cs, hcs⟩ := checkEach_ok fun t ht => contextCap_ok (h t ht)
  unfold ContextPlan.contextPlanForModel
  rw [hns, hcs]
  exact ⟨_, rfl⟩

lemma plansByModel_ok {l : List StoredTask} (h : ∀ t ∈ l, t.Valid) :
    ∃ ps, ContextPlan.plansByModel l = .ok ps := by
  have hg : ∀ g ∈ (Dict.groupBy (fun t : StoredTask => t.model.1) l).entries.insertionSort
      (fun a b => a.1 ≤ b.1), ∀ t ∈ g.2, t.Valid := by
    intro g hmem t ht
    have hget := Dict.get?_eq_some.mpr ((List.perm_insertionSort _ _).mem_iff.mp hmem)
    exact h t (((Dict.mem_groupBy hget).2 t).mp ht).1
  rw [ContextPlan.plansByModel]
  generalize (Dict.groupBy (fun t : StoredTask => t.model.1) l).entries.insertionSort
      (fun a b => a.1 ≤ b.1) = groups at hg
  induction groups with
  | nil => exact ⟨[], rfl⟩
  | cons g groups ih =>
    obtain ⟨model, group⟩ := g
    rw [List.forall_mem_cons] at hg
    obtain ⟨p, hp⟩ := contextPlanForModel_ok fun t ht => (hg.1 t ht).plan
    obtain ⟨ps, hps⟩ := ih hg.2
    exact ⟨(model, p) :: ps, by simp only [ContextPlan.plansByModel.plans, hp, hps]; rfl⟩

/-- **Planning never raises** on a sound store. -/
theorem Sound.contextPlans_ok (hs : Sound s) : ∃ ps, s.contextPlansByModel = .ok ps :=
  plansByModel_ok fun _ ht => hs.valid_of_mem (List.mem_filter.mp ht).1

/-- Each time of a next attempt is one that can be read. -/
def Readable (tasks : List StoredTask) : Prop :=
  ∀ t ∈ tasks, ∀ text, t.nextAttemptAt = some text → ∃ time, parseIso text = .ok time

lemma candidates_ok {tasks : List StoredTask} (h : Readable tasks) (now : DateTime)
    (model : Option String) : ∃ found, candidates now model tasks = .ok found := by
  induction tasks with
  | nil => exact ⟨[], rfl⟩
  | cons t tasks ih =>
    rw [Readable, List.forall_mem_cons] at h
    obtain ⟨found, hfound⟩ := ih h.2
    have hclaimable : ∃ b, isTaskClaimable now model t = .ok b := by
      unfold isTaskClaimable
      split
      · exact ⟨_, rfl⟩
      split
      · exact ⟨_, rfl⟩
      split
      · exact ⟨_, rfl⟩
      · next text htext =>
        obtain ⟨time, htime⟩ := h.1 text htext
        rw [htime]
        exact ⟨_, rfl⟩
    obtain ⟨b, hb⟩ := hclaimable
    exact ⟨if b then t :: found else found, by simp only [candidates, hb, hfound]; rfl⟩

lemma Sound.readable (hs : Sound s) : Readable s.tasks :=
  fun _ ht text htext => isTime_parse ((hs.valid_of_mem ht).next text htext)

/-- **Claiming never raises** on a sound store. -/
theorem Sound.candidates_ok (hs : Sound s) (now : DateTime) (model : Option String) :
    ∃ found, candidates now model s.tasks = .ok found :=
  TaskStore.candidates_ok hs.readable now model

end TaskStore

end Orchestrator
