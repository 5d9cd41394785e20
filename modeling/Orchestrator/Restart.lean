import Orchestrator.ProxySystem

/-!
Running tasks, over whole runs of the queue proxy with stops and restarts.

Nothing puts a running task back into the queue: neither the shutdown handler, nor the load of
the file. A task is therefore left running by every stop and every restart between its claim and
its outcome, and if the loop dies because the time of a next attempt cannot be represented.
Otherwise every running task is the one the loop has claimed and not yet recorded.
-/

namespace Orchestrator.Restart

open Lib Lib.Coro Clock Executor TaskStore Idempotency Outcomes ProxySystem

/-- The live loop has claimed the task and not recorded an outcome yet. -/
def Held (s : ProxyState) (id : String) : Prop :=
  ∃ task calls rest, s.loop = .working task calls rest ∧ task.taskId.1 = id ∧ s.exec.recorded = []

/-- The times of next attempts computed in these calls can be represented. -/
def Timely (settings : Settings) (task : StoredTask) (calls : List ProxyEvent) : Prop :=
  ∀ now ∈ retryReadings calls, Representable settings task now

/-- The condition on a step: no stop and no restart while a task is held, and no next attempt
whose time cannot be represented. -/
def Steady (settings : Settings) (s : ProxyState) : ProxyStep → Prop
  | .stop _ _ | .restart _ => ¬∃ id, Held s id
  | .claim now calls => ∀ task store,
      claimNext now none s.exec.store = (.ok (some task), store) → Timely settings task calls
  | .answer event calls => ∀ task before rest, s.loop = .working task before rest →
      Timely settings task (event :: calls)
  | _ => True

/-- What the invariant says about the stored tasks and the calls of the loop. -/
structure Settled (settings : Settings) (s : ProxyState) : Prop where
  running : ∀ {id t}, s.exec.store.tasksById.get? id = some t → t.state = .running → Held s id
  calls : ∀ {task calls rest}, s.loop = .working task calls rest → s.exec.recorded = [] →
    Ordinary calls ∧ Timely settings task calls
  known : ∀ {id t}, s.exec.store.tasksById.get? id = some t →
    t.state = .queued ∨ t.state = .running ∨ t.state.isTerminal = true

variable {settings : Settings} {policies : PolicyRegistry} {s s' : ProxyState} {l : ProxyStep}

lemma ordinary_of_advance {p rest : Proxy ExecutorState Unit} {e e' : ExecutorState}
    {calls : List ProxyEvent} (h : p.Advance ProxyCall.suspends e calls rest e') :
    Ordinary calls := by
  intro event hmem
  have hq := advance_quiet h event hmem
  obtain ⟨c, r⟩ := event
  cases c with
  | utcNow => trivial
  | datetimeNow => trivial
  | _ => cases hq

lemma timely_append {task : StoredTask} {es fs : List ProxyEvent} :
    Timely settings task (es ++ fs) ↔ Timely settings task es ∧ Timely settings task fs := by
  rw [Timely, retryReadings_append]
  exact List.forall_mem_append

section Turns

variable {task : StoredTask} {calls : List ProxyEvent} {rest : Proxy ExecutorState Unit}
  {e : ExecutorState}

/-- After a turn of a loop that held every running task, it still does. -/
lemma settled_turn (h : TurnResult settings False task calls rest e s'.exec)
    (hloop : s'.loop = settle task calls rest)
    (hrun : ∀ {id t}, e.store.tasksById.get? id = some t → t.state = .running →
      task.taskId.1 = id ∧ e.recorded = [])
    (hcalls : e.recorded = [] → Ordinary calls ∧ Timely settings task calls)
    (hknown : ∀ {id t}, e.store.tasksById.get? id = some t →
      t.state = .queued ∨ t.state = .running ∨ t.state.isTerminal = true) :
    Settled settings s' := by
  have hback : s'.exec.recorded = [] → s'.exec = e := by
    intro hnil
    rcases h.guar.1 with heq | ⟨hne, -⟩
    · exact heq
    · exact absurd hnil hne
  refine ⟨fun {id t} ht hr => ?_, fun {task' calls' rest'} hw hnil => ?_, fun {id t} ht => ?_⟩
  · -- a turn that leaves a task running has recorded nothing, so it is not over
    rcases h.guar.1 with heq | ⟨-, -, hothers, u, hu, hstate⟩
    · rw [heq] at ht
      obtain ⟨rfl, hnil⟩ := hrun ht hr
      rcases h.next with hw | ⟨x, rfl, hend⟩
      · refine ⟨task, calls, rest, ?_, rfl, by rw [heq, hnil]⟩
        obtain ⟨c, f, rfl, -⟩ := hw.suspended
        exact hloop
      · obtain ⟨hord, htime⟩ := hcalls hnil
        rw [heq] at hend
        exact absurd hnil (hend.recorded hord htime)
    · by_cases hid : id = task.taskId.1
      · subst hid
        rw [hu] at ht
        cases ht
        rcases hstate with hstate | hstate | hstate <;> · rw [hstate] at hr; cases hr
      · rw [hothers id hid] at ht
        exact absurd (hrun ht hr).1.symm hid
  · obtain ⟨rfl, rfl, -⟩ := h.waiting (hloop ▸ hw)
    exact hcalls (by rw [← hback hnil]; exact hnil)
  · rcases h.guar.1 with heq | ⟨-, -, hothers, u, hu, hstate⟩
    · rw [heq] at ht
      exact hknown ht
    · by_cases hid : id = task.taskId.1
      · subst hid
        rw [hu] at ht
        cases ht
        rcases hstate with hstate | hstate | hstate <;> simp [hstate, TaskState.isTerminal]
      · rw [hothers id hid] at ht
        exact hknown ht

end Turns

/-- Steps that leave the loop where it is. -/
lemma settled_others (h : Settled settings s) {store : TaskStore}
    (hstate : ∀ {id t}, store.tasksById.get? id = some t → s.exec.store.tasksById.get? id = some t ∨
      t.state = .queued ∨ t.state.isTerminal = true) :
    Settled settings ⟨⟨store, s.exec.recorded⟩, s.loop⟩ := by
  refine ⟨fun ht hr => ?_, h.calls, fun ht => ?_⟩
  · rcases hstate ht with ht | hq | hterm
    · exact h.running ht hr
    · rw [hr] at hq; cases hq
    · rw [hr] at hterm; cases hterm
  · rcases hstate ht with ht | hq | hterm
    · exact h.known ht
    · exact Or.inl hq
    · exact Or.inr (Or.inr hterm)

/-- A loop that holds nothing leaves nothing running. -/
lemma settled_loop (h : Settled settings s) (hheld : ¬∃ id, Held s id) {e : ExecutorState}
    {loop : Loop} (hloop : loop = .idle ∨ loop = .dead)
    (hstate : ∀ {id t}, e.store.tasksById.get? id = some t →
      ∃ t₀, s.exec.store.tasksById.get? id = some t₀ ∧ t.state = t₀.state) :
    Settled settings ⟨e, loop⟩ := by
  refine ⟨fun {id t} ht hr => ?_, fun hw => ?_, fun ht => ?_⟩
  · obtain ⟨t₀, ht₀, heq⟩ := hstate ht
    exact absurd ⟨id, h.running ht₀ (heq ▸ hr)⟩ hheld
  · rcases hloop with rfl | rfl <;> cases hw
  · obtain ⟨t₀, ht₀, heq⟩ := hstate ht
    rw [heq]
    exact h.known ht₀

lemma idle_held (hidle : s.loop = .idle) : ¬∃ id, Held s id := by
  rintro ⟨id, task, calls, rest, hw, -⟩
  rw [hidle] at hw
  cases hw

/-- **Every steady step** keeps every running task held. -/
theorem steady_step (h : Inv settings False s) (hs : Settled settings s) (ho : Steady settings s l)
    (hl : proxyStep settings policies s l s') : Settled settings s' := by
  cases l with
  | submit batch =>
    obtain ⟨-, r, store, he, rfl⟩ := hl
    refine settled_others hs fun ht => ?_
    rcases submitMany_new he ht with ht | ⟨b, -, rfl⟩
    · exact Or.inl ht
    · exact Or.inr (Or.inl rfl)
  | cancel now tenant taskId =>
    obtain ⟨r, store, he, rfl⟩ := hl
    rcases cancelTask_cases h.sound.inverse he with rfl | ⟨t, -, -, -, hu⟩
    · exact hs
    · refine settled_others hs fun {id u} hget => ?_
      by_cases hid : id = taskId
      · subst hid
        rw [hu.get?_self] at hget
        cases hget
        exact Or.inr (Or.inr rfl)
      · rw [hu.get?_ne hid] at hget
        exact Or.inl hget
  | claim now calls =>
    obtain ⟨hidle, ⟨store, hc, rfl⟩ | ⟨e, store, hc, rfl⟩ | ⟨task, store, rest, hc, ha, hloop⟩⟩ :=
      hl
    · rcases claimNext_cases h.sound.inverse hc with ⟨_, hr, -⟩ | ⟨-, rfl, -⟩ | ⟨t, hr, -⟩
      · cases hr
      · exact settled_loop hs (idle_held hidle) (Or.inl rfl) fun ht => ⟨_, ht, rfl⟩
      · cases hr
    · rcases claimNext_cases h.sound.inverse hc with ⟨_, -, rfl⟩ | ⟨hr, -, -⟩ | ⟨t, hr, -⟩
      · exact settled_loop hs (idle_held hidle) (Or.inr rfl) fun ht => ⟨_, ht, rfl⟩
      · cases hr
      · cases hr
    · obtain ⟨-, hget, -, hrun, t, hu, -⟩ := claimed_holds h.sound hc
      refine settled_turn (claim_turn h.sound hc ha) hloop (fun {id u} hget' hr => ⟨?_, rfl⟩)
        (fun _ => ⟨ordinary_of_advance ha, ho task store hc⟩) fun {id u} hget' => ?_
      · by_contra hne
        rw [hu.get?_ne (Ne.symm hne)] at hget'
        exact idle_held hidle ⟨id, hs.running hget' hr⟩
      · by_cases hid : id = task.taskId.1
        · subst hid
          rw [hget] at hget'
          cases hget'
          exact Or.inr (Or.inl hrun)
        · rw [hu.get?_ne hid] at hget'
          exact hs.known hget'
  | answer event calls =>
    obtain ⟨hord, task, before, f, rest, hloop, ha, hloop'⟩ := hl
    refine settled_turn (resume_turn h.sound (h.waiting hloop) nofun ha) hloop'
      (fun {id t} ht hr => ?_) (fun hnil => ?_) hs.known
    · obtain ⟨task', calls', rest', hw, hid, hnil⟩ := hs.running ht hr
      rw [hloop] at hw
      cases hw
      exact ⟨hid, hnil⟩
    · obtain ⟨hbefore, htime⟩ := hs.calls hloop hnil
      refine ⟨ordinary_append.mpr ⟨hbefore, ?_⟩, timely_append.mpr ⟨htime, ?_⟩⟩
      · exact List.forall_mem_cons.mpr ⟨hord, ordinary_of_advance ha⟩
      · exact ho task before _ hloop
  | stop event calls =>
    obtain ⟨hidle, rfl⟩ | ⟨hint, task, before, f, rest, hloop, ha, hloop'⟩ := hl
    · exact settled_loop hs (idle_held hidle) (Or.inr rfl) fun ht => ⟨_, ht, rfl⟩
    · refine settled_turn (resume_turn h.sound (h.waiting hloop) nofun ha) hloop'
        (fun {id t} ht hr => ?_) (fun hnil => ?_) hs.known
      · exact absurd ⟨id, hs.running ht hr⟩ ho
      · exact absurd ⟨task.taskId.1, task, before, _, hloop, rfl, hnil⟩ ho
  | restart now =>
    obtain ⟨store, hr, rfl⟩ := hl
    refine settled_loop hs ho (Or.inl rfl) fun {id t} ht => ?_
    rw [(reload_spec h.sound.inverse hr).2, Option.map_eq_some_iff] at ht
    obtain ⟨t₀, ht₀, rfl⟩ := ht
    exact ⟨t₀, ht₀, rfl⟩

/-- A queued task is claimable from some moment on. -/
lemma claimable_of_queued {t : StoredTask} (hv : t.Valid) (hq : t.state = .queued) :
    ∃ due, ∀ now, due ≤ now → isTaskClaimable now none t = .ok true := by
  cases hn : t.nextAttemptAt with
  | none =>
    refine ⟨sampleNow, fun now _ => ?_⟩
    simp [isTaskClaimable, TaskState.isClaimable, hq, hn]
  | some text =>
    obtain ⟨due, hdue⟩ := isTime_parse (hv.next text (by rw [hn]; rfl))
    refine ⟨due, fun now hle => ?_⟩
    simp only [isTaskClaimable, TaskState.isClaimable, hq, hn, hdue, Except.map]
    simp [hle]

/-- The process restarts while the upstream request is under way. -/
def sampleRestarted : ProxyState :=
  ⟨⟨loadTasks (fileTasks sampleNow (sampleWorking (.ok (.obj []))).exec.store), []⟩, .idle⟩

end Orchestrator.Restart
