import Orchestrator.Outcomes

/-!
The queue proxy as a transition system: one task store, the requests that submit and cancel
tasks, one executor loop, and the stops and restarts of the process.

A step of the loop is a turn, from an awaited call to the next. `Working` is the invariant of a
loop that waits in the middle of a task.
-/

namespace Orchestrator.ProxySystem

open Lib Lib.Coro Clock Executor TaskStore Idempotency Outcomes

/-- Where the executor loop is. -/
inductive Loop
  /-- about to claim, or asleep because there was nothing to claim -/
  | idle
  /-- awaiting a call, after the calls `calls`, with `rest` still to run -/
  | working (task : StoredTask) (calls : List ProxyEvent) (rest : Proxy ExecutorState Unit)
  /-- ended by an exception -/
  | dead

structure ProxyState where
  exec : ExecutorState
  loop : Loop

inductive ProxyStep
  | submit (batch : List (QueueTask × Stamp))
  | cancel (now : DateTime) (tenant taskId : String)
  /-- the loop claims a task and goes on to the first awaited call, through the calls `calls` -/
  | claim (now : DateTime) (calls : List ProxyEvent)
  /-- the awaited call is answered -/
  | answer (event : ProxyEvent) (calls : List ProxyEvent)
  /-- the shutdown handler cancels the loop -/
  | stop (event : ProxyEvent) (calls : List ProxyEvent)
  /-- the process ends and a new one loads the file -/
  | restart (now : DateTime)

/-- The loop after a turn. -/
def settle (task : StoredTask) (calls : List ProxyEvent) : Proxy ExecutorState Unit → Loop
  | .done (.ok _) => .idle
  | .done (.error _) => .dead
  | rest => .working task calls rest

/-- A batch that `parse_task_queue_payload` produced, with new ids. -/
def Submittable (s : TaskStore) (batch : List (QueueTask × Stamp)) : Prop :=
  Fresh s batch ∧ ∃ payload, TaskParse.parseTaskQueuePayload payload = .ok (batch.map Prod.fst)

/-- The answer of an awaited call that is cancelled. -/
def interrupted : ProxyEvent → Prop
  | ⟨.utcNow, _⟩ => False
  | ⟨.datetimeNow, _⟩ => False
  | ⟨.getRegistry, r⟩ => r = .error Exn.cancelledError
  | ⟨.postAllocation _, r⟩ => r = .error Exn.cancelledError
  | ⟨.postLease _, r⟩ => r = .error Exn.cancelledError
  | ⟨.deleteLease _, r⟩ => r = .error Exn.cancelledError
  | ⟨.postReconcile _, r⟩ => r = .error Exn.cancelledError
  | ⟨.postExplain _, r⟩ => r = .error Exn.cancelledError
  | ⟨.postUpstream _ _, r⟩ => r = .error Exn.cancelledError

variable (settings : Settings) (policies : PolicyRegistry)

/-- The awaited call returns or raises, and the loop goes on to the next one. -/
def resumes (s : ProxyState) (event : ProxyEvent) (calls : List ProxyEvent) (s' : ProxyState) :
    Prop :=
  ∃ task before f rest, s.loop = .working task before (.call event.1 f) ∧
    (f event.2).Advance ProxyCall.suspends s.exec calls rest s'.exec ∧
    s'.loop = settle task (before ++ event :: calls) rest

def proxyStep (s : ProxyState) (l : ProxyStep) (s' : ProxyState) : Prop :=
  match l with
  | .submit batch => Submittable s.exec.store batch ∧
      ∃ r store, submitMany batch s.exec.store = (r, store) ∧
        s' = ⟨⟨store, s.exec.recorded⟩, s.loop⟩
  | .cancel now tenant taskId => ∃ r store, cancelTask now tenant taskId s.exec.store = (r, store) ∧
      s' = ⟨⟨store, s.exec.recorded⟩, s.loop⟩
  | .claim now calls => s.loop = .idle ∧
      ((∃ store, claimNext now none s.exec.store = (.ok none, store) ∧
          s' = ⟨⟨store, s.exec.recorded⟩, .idle⟩) ∨
        (∃ e store, claimNext now none s.exec.store = (.error e, store) ∧
          s' = ⟨⟨store, s.exec.recorded⟩, .dead⟩) ∨
        ∃ task store rest, claimNext now none s.exec.store = (.ok (some task), store) ∧
          (processTask settings policies task).Advance ProxyCall.suspends ⟨store, []⟩ calls rest
            s'.exec ∧
          s'.loop = settle task calls rest)
  | .answer event calls => ordinary event ∧ resumes s event calls s'
  | .stop event calls =>
      (s.loop = .idle ∧ s' = ⟨s.exec, .dead⟩) ∨ (interrupted event ∧ resumes s event calls s')
  | .restart now => ∃ store, reload now s.exec.store = .ok store ∧ s' = ⟨⟨store, []⟩, .idle⟩

def proxyLts : Lts ProxyState ProxyStep where
  init s := s = ⟨⟨TaskStore.empty, []⟩, .idle⟩
  step := proxyStep settings policies

/-! ### The contract over turns -/

variable {settings policies} {id : String} {once : Prop} {task : StoredTask}

lemma recording_trans {s t u : ExecutorState} (h : Recording id s t) (h' : Recording id t u) :
    Recording id s u := by
  rcases h' with rfl | ⟨hrec', hs', hne', hid'⟩
  · exact h
  rcases h with rfl | ⟨-, hs, hne, -⟩
  · exact Or.inr ⟨hrec', hs', hne', hid'⟩
  · exact Or.inr ⟨hrec', fun h => hs' (hs h), fun x hx => (hne' x hx).trans (hne x hx), hid'⟩

lemma guar_trans {s t u : ExecutorState} (h : (contract id once).guar s t)
    (h' : (contract id once).guar t u) : (contract id once).guar s u := by
  refine ⟨recording_trans h.1 h'.1, fun ho => ?_⟩
  rcases h.2 ho with rfl | hrec
  · exact h'.2 ho
  · exact Or.inr hrec

lemma contract_quiet : (contract id once).Quiet ProxyCall.suspends := by
  intro c r s hc
  refine ⟨by rw [Others, if_neg (by simp [hc])], fun _ _ => ?_⟩
  cases c <;> trivial

/-- The loop awaits a call in the middle of a task, and its rest keeps to the contract. -/
structure Waiting (settings : Settings) (once : Prop) (task : StoredTask) (calls : List ProxyEvent)
    (rest : Proxy ExecutorState Unit) (s : ExecutorState) : Prop where
  suspended : ∃ c f, rest = .call c f ∧ c.suspends = true
  stored : ∃ t, s.store.tasksById.get? task.taskId.1 = some t
  keeps : rest.wp (contract task.taskId.1 once) (fun es => TurnEnd settings task (calls ++ es)) s

/-- **One turn** keeps to the contract, and ends in an awaited call or with the task. -/
lemma turn_settles {calls calls' : List ProxyEvent} {p rest : Proxy ExecutorState Unit}
    {s s' : ExecutorState} (hs : Holds task.taskId.1 s)
    (h : p.wp (contract task.taskId.1 once) (fun es => TurnEnd settings task (calls ++ es)) s)
    (ha : p.Advance ProxyCall.suspends s calls' rest s') :
    (contract task.taskId.1 once).guar s s' ∧ Holds task.taskId.1 s' ∧
      (Waiting settings once task (calls ++ calls') rest s' ∨
        ∃ x, rest = .done x ∧ TurnEnd settings task (calls ++ calls') x s') := by
  obtain ⟨hg, hrest⟩ := wp_advance contract_quiet (fun s => ⟨Or.inl rfl, fun _ => Or.inl rfl⟩)
    (fun _ _ _ => guar_trans) h ha
  have hs' : Holds task.taskId.1 s' := by
    rcases hg.1 with rfl | ⟨-, hsound, -, t, ht, -⟩
    · exact hs
    · exact ⟨hsound hs.1, t, ht⟩
  refine ⟨hg, hs', ?_⟩
  simp only [← List.append_assoc] at hrest
  rcases advance_stops ha with ⟨x, rfl⟩ | hsusp
  · rw [wp_done, List.append_nil] at hrest
    exact Or.inr ⟨x, rfl, hrest⟩
  · exact Or.inl ⟨hsusp, hs'.2, hrest⟩

/-- Others may act while the loop waits. -/
lemma Waiting.others {calls : List ProxyEvent} {rest : Proxy ExecutorState Unit}
    {s t : ExecutorState} (h : Waiting settings once task calls rest s)
    (hrec : t.recorded = s.recorded) (hsound : Sound s.store → Sound t.store)
    (hext : Extends s.store t.store) : Waiting settings once task calls rest t := by
  obtain ⟨c, f, rfl, hc⟩ := h.suspended
  obtain ⟨u, hu⟩ := h.stored
  obtain ⟨v, hv, -⟩ := hext _ u hu
  refine ⟨⟨c, f, rfl, hc⟩, ⟨v, hv⟩, wp_call_rely h.keeps fun r w hw => ⟨?_, fun ho hne => ?_⟩⟩
  · have ho := hw.1
    rw [Others, if_pos hc] at ho ⊢
    exact ⟨ho.1.trans hrec, fun h => ho.2.1 (hsound h), hext.trans ho.2.2⟩
  · exact hw.2 ho (by rwa [hrec])

/-! ### The invariant of every run -/

/-- The store is sound, and a waiting loop keeps to its contract. -/
structure Inv (settings : Settings) (once : Prop) (s : ProxyState) : Prop where
  sound : Sound s.exec.store
  waiting : ∀ {task calls rest}, s.loop = .working task calls rest →
    Waiting settings once task calls rest s.exec

/-- The answer, if the step is one, does not make the loop record a second outcome. -/
def Calm (s : ProxyState) : ProxyStep → Prop
  | .answer event _ => s.exec.recorded ≠ [] → calm event
  | _ => True

lemma settle_working {calls calls' : List ProxyEvent} {p rest : Proxy ExecutorState Unit}
    {task' : StoredTask} (h : settle task calls p = .working task' calls' rest) :
    task' = task ∧ calls' = calls ∧ rest = p := by
  unfold settle at h
  split at h
  · cases h
  · cases h
  · cases h
    exact ⟨rfl, rfl, rfl⟩

lemma claimed_holds {s : TaskStore} {now : DateTime} {store : TaskStore} (hs : Sound s)
    (h : claimNext now none s = (.ok (some task), store)) :
    Sound store ∧ store.tasksById.get? task.taskId.1 = some task ∧ task.Valid ∧
      task.state = .running ∧ ∃ t, Updated task.taskId.1 t task s store ∧ t.state = .queued := by
  rcases claimNext_cases hs.inverse h with ⟨e, hr, -⟩ | ⟨hr, -, -⟩ | ⟨t, hr, hq, hu⟩
  · cases hr
  · cases hr
  · cases hr
    have hv : (claimed now t).Valid := (hs.valid hu.before).claimed now
    exact ⟨hu.sound hs hv, hu.get?_self, hv, rfl, t, hu, claimable_queued hq⟩

/-- What a turn of the loop leads to: the loop waits again, or it is through with the task. -/
structure TurnResult (settings : Settings) (once : Prop) (task : StoredTask)
    (calls : List ProxyEvent) (rest : Proxy ExecutorState Unit) (s s' : ExecutorState) : Prop where
  guar : (contract task.taskId.1 once).guar s s'
  holds : Holds task.taskId.1 s'
  next : Waiting settings once task calls rest s' ∨
    ∃ x, rest = .done x ∧ TurnEnd settings task calls x s'

lemma TurnResult.waiting {calls calls' : List ProxyEvent} {rest rest' : Proxy ExecutorState Unit}
    {s s' : ExecutorState} {task' : StoredTask} (h : TurnResult settings once task calls rest s s')
    (hw : settle task calls rest = .working task' calls' rest') :
    task' = task ∧ calls' = calls ∧ Waiting settings once task' calls' rest' s' := by
  obtain ⟨rfl, rfl, rfl⟩ := settle_working hw
  rcases h.next with hnext | ⟨x, rfl, -⟩
  · exact ⟨rfl, rfl, hnext⟩
  · cases x <;> cases hw

/-- The first turn of a task, after the claim. -/
lemma claim_turn {s s' : ExecutorState} {store : TaskStore} {now : DateTime}
    {calls : List ProxyEvent} {rest : Proxy ExecutorState Unit} (hs : Sound s.store)
    (hc : claimNext now none s.store = (.ok (some task), store))
    (ha : (processTask settings policies task).Advance ProxyCall.suspends
      ⟨store, []⟩ calls rest s') :
    TurnResult settings once task calls rest ⟨store, []⟩ s' := by
  obtain ⟨hstore, hget, hv, -⟩ := claimed_holds hs hc
  have hholds : Holds task.taskId.1 ⟨store, []⟩ := ⟨hstore, task, hget⟩
  have hwp : (processTask settings policies task).wp (contract task.taskId.1 once)
      (fun es => TurnEnd settings task ([] ++ es)) ⟨store, []⟩ :=
      wp_processTask hholds rfl hv policies
  obtain ⟨hg, hs', hnext⟩ := turn_settles hholds hwp ha
  exact ⟨hg, hs', hnext⟩

/-- A later turn of a task, after an answer. -/
lemma resume_turn {s s' : ExecutorState} {before calls : List ProxyEvent} {event : ProxyEvent}
    {f : event.1.Answer → Proxy ExecutorState Unit} {rest : Proxy ExecutorState Unit}
    (hs : Sound s.store) (hw : Waiting settings once task before (.call event.1 f) s)
    (hcalm : once → s.recorded ≠ [] → calm event)
    (ha : (f event.2).Advance ProxyCall.suspends s calls rest s') :
    TurnResult settings once task (before ++ event :: calls) rest s s' := by
  obtain ⟨c, f', hf, hsusp⟩ := hw.suspended
  cases hf
  have hrely : (contract task.taskId.1 once).rely event.1 event.2 s s := by
    refine ⟨?_, hcalm⟩
    rw [Others, if_pos hsusp]
    exact ⟨rfl, id, Extends.refl _⟩
  have hwp : (f event.2).wp (contract task.taskId.1 once)
      (fun es => TurnEnd settings task ((before ++ [event]) ++ es)) s := by
    have h := hw.keeps event.2 s hrely
    simpa only [List.append_assoc, List.singleton_append] using h
  obtain ⟨hg, hs', hnext⟩ := turn_settles ⟨hs, hw.stored⟩ hwp ha
  rw [List.append_assoc, List.singleton_append] at hnext
  exact ⟨hg, hs', hnext⟩

lemma calm_of_interrupted {event : ProxyEvent} (h : interrupted event) : calm event := by
  obtain ⟨c, r⟩ := event
  cases c with
  | deleteLease i =>
    rintro e he
    rw [show r = .error Exn.cancelledError from h] at he
    cases he
    exact Or.inr rfl
  | postReconcile payload =>
    rintro e he
    rw [show r = .error Exn.cancelledError from h] at he
    cases he
    exact Or.inr rfl
  | _ => trivial

/-- **Every step** keeps the store sound and the waiting loop within its contract. -/
theorem step_inv {s s' : ProxyState} {l : ProxyStep} (h : Inv settings once s)
    (hcalm : once → Calm s l) (hl : proxyStep settings policies s l s') : Inv settings once s' := by
  cases l with
  | submit batch =>
    obtain ⟨⟨hf, payload, hp⟩, r, store, he, rfl⟩ := hl
    have hplan : ∀ b ∈ batch, Plannable b.1.orchestration :=
      fun b hb => parse_plannable hp _ (List.mem_map_of_mem hb)
    obtain ⟨hsound, hkeep⟩ := submitMany_sound h.sound hf hplan he
    refine ⟨hsound, fun hw => (h.waiting hw).others rfl (fun _ => hsound) fun id t ht => ?_⟩
    exact ⟨t, hkeep id t ht, rfl⟩
  | cancel now tenant taskId =>
    obtain ⟨r, store, he, rfl⟩ := hl
    rcases cancelTask_cases h.sound.inverse he with rfl | ⟨t, -, -, -, hu⟩
    · exact h
    · have hsound := hu.sound h.sound ((h.sound.valid hu.before).cancelled now)
      exact ⟨hsound, fun hw => (h.waiting hw).others rfl (fun _ => hsound) hu.extends⟩
  | claim now calls =>
    obtain ⟨hidle, ⟨store, hc, rfl⟩ | ⟨e, store, hc, rfl⟩ | ⟨task, store, rest, hc, ha, hloop⟩⟩ :=
      hl
    · rcases claimNext_cases h.sound.inverse hc with ⟨_, hr, -⟩ | ⟨-, rfl, -⟩ | ⟨t, hr, -⟩
      · cases hr
      · exact ⟨h.sound, nofun⟩
      · cases hr
    · rcases claimNext_cases h.sound.inverse hc with ⟨_, -, rfl⟩ | ⟨hr, -, -⟩ | ⟨t, hr, -⟩
      · exact ⟨h.sound, nofun⟩
      · cases hr
      · cases hr
    · have hturn : TurnResult settings once task calls rest ⟨store, []⟩ s'.exec :=
        claim_turn h.sound hc ha
      refine ⟨hturn.holds.1, fun hw => ?_⟩
      exact (hturn.waiting (hloop ▸ hw)).2.2
  | answer event calls =>
    obtain ⟨-, task, before, f, rest, hloop, ha, hloop'⟩ := hl
    have hturn := resume_turn h.sound (h.waiting hloop) hcalm ha
    exact ⟨hturn.holds.1, fun hw => (hturn.waiting (hloop' ▸ hw)).2.2⟩
  | stop event calls =>
    obtain ⟨-, rfl⟩ | ⟨hint, task, before, f, rest, hloop, ha, hloop'⟩ := hl
    · exact ⟨h.sound, nofun⟩
    · have hturn := resume_turn h.sound (h.waiting hloop) (fun _ _ => calm_of_interrupted hint) ha
      exact ⟨hturn.holds.1, fun hw => (hturn.waiting (hloop' ▸ hw)).2.2⟩
  | restart now =>
    obtain ⟨store, hr, rfl⟩ := hl
    exact ⟨reload_sound h.sound hr, nofun⟩

lemma inv_init {s : ProxyState} (h : (proxyLts settings policies).init s) :
    Inv settings once s := by
  rw [show s = ⟨⟨TaskStore.empty, []⟩, .idle⟩ from h]
  exact ⟨Sound.empty, nofun⟩

theorem inv_of_reachable {P : ProxyState → ProxyStep → Prop} {s : ProxyState}
    (h : (proxyLts settings policies).Reachable P s) : Inv settings False s :=
  h.invariant (fun _ hs => inv_init hs) fun s l t hs _
    (hl : proxyStep settings policies s l t) => step_inv hs False.elim hl

/-! ### A small run, for concrete inputs -/

def samplePayload : Mapping :=
  [("messages", .arr [.obj [("role", .str "user"), ("content", .str "hello")]])]

def sampleOrchestration : Mapping :=
  [("schema_version", .str "llmo.task.v1"), ("tenant", .str "acme"), ("project", .str "docs"),
   ("service", .str "indexer"), ("task", .str "summarize"), ("priority", .str "batch")]

def sampleRequest : Json :=
  .obj [("model", .str "local-model"), ("orchestration", .obj sampleOrchestration),
    ("tasks", .arr [.obj [("job_id", .str "job-1"), ("idempotency_key", .str "key-1"),
      ("payload", .obj samplePayload)]])]

/-- The task of the request. -/
def sampleQueued : QueueTask :=
  { sampleTask ⟨"acme", nonBlank_acme⟩ ⟨"key-1", nonBlank_key1⟩ samplePayload with
    estimatedInputTokens := 1
    requiredContextTokens := ⟨1025, by decide⟩
    orchestration := sampleOrchestration ++
      [("job_id", .str "job-1"), ("idempotency_key", .str "key-1")] }

lemma sample_parse : TaskParse.parseTaskQueuePayload sampleRequest = .ok [sampleQueued] := by
  rfl

def sampleNow : DateTime := ⟨63892886400000000, sampleTime_lt⟩
def sampleStored : StoredTask := newTask sampleQueued (sampleStamp ⟨"task_1", nonBlank_task1⟩)
def sampleRunning : StoredTask := claimed sampleNow sampleStored
def sampleStore : TaskStore := TaskStore.empty.insert sampleStored

lemma sample_claim :
    claimNext sampleNow none sampleStore = (.ok (some sampleRunning),
      sampleStore.put sampleRunning) := by
  rfl

def sampleSettings : Settings where
  upstreamBaseUrl := "http://127.0.0.1:8000/v1"
  backendRegistryUrl := "http://127.0.0.1:8090"
  enableBackendRegistryRouting := false
  requireBackendRegistryBackend := false
  queueProxyApiKey := ""
  taskExecutorMaxAttempts := ⟨3, one_le_three⟩
  taskExecutorRetryBaseSeconds := ⟨5, by decide⟩
  taskExecutorRetryMaxSeconds := ⟨60, by decide⟩
  floatText _ := ""

def samplePolicies : PolicyRegistry where
  policies := []
  defaultPolicy := ⟨"local-model", "local-model", [], 1, 8, 60, 1024, 8192, 2048, 8192, 4, "clamp"⟩
  dynamicModelsEnabled := true

/-- Every call is answered; `reconciled` is what the answer to a reconcile holds. -/
def sampleAnswer (reconciled : Except Exn Json) : (c : ProxyCall) → c.Answer
  | .utcNow => sampleNow
  | .datetimeNow => sampleNow
  | .postReconcile _ => .ok ⟨200, "application/json", "", reconciled⟩
  | .getRegistry | .postAllocation _ | .postLease _ | .deleteLease _ | .postExplain _ |
    .postUpstream _ _ =>
    .ok ⟨200, "application/json", "", .ok (.obj [])⟩

lemma sample_ordinary {reconciled : Except Exn Json}
    (h : ∀ e, reconciled = .error e → e.isException = true) (c : ProxyCall) :
    ordinary ⟨c, sampleAnswer reconciled c⟩ := by
  cases c with
  | utcNow => trivial
  | datetimeNow => trivial
  | postReconcile payload =>
    refine ⟨nofun, fun a e ha he => h e ?_⟩
    cases ha
    exact he
  | _ =>
    refine ⟨nofun, fun a e ha he => ?_⟩
    cases ha
    cases he

/-- The task is submitted to the empty store. -/
def sampleSubmitted : ProxyState := ⟨⟨sampleStore, []⟩, .idle⟩

lemma sample_submit {P : ProxyState → ProxyStep → Prop}
    (hP : ∀ batch, P ⟨⟨TaskStore.empty, []⟩, .idle⟩ (.submit batch)) :
    (proxyLts sampleSettings samplePolicies).Reachable P sampleSubmitted := by
  refine (Lts.Reachable.init rfl).run
    (Lts.Run.single (hP [(sampleQueued, sampleStamp ⟨"task_1", nonBlank_task1⟩)]) ?_)
  refine ⟨⟨⟨by simp, fun _ _ => rfl⟩, sampleRequest, sample_parse⟩, _, _, rfl, rfl⟩

/-- The first turn of the task. -/
def sampleTurn (reconciled : Except Exn Json) :
    List ProxyEvent × Proxy ExecutorState Unit × ExecutorState :=
  (processTask sampleSettings samplePolicies sampleRunning).turn ProxyCall.suspends
    (sampleAnswer reconciled) ⟨sampleStore.put sampleRunning, []⟩

/-- The loop claims the task and awaits its first call. -/
def sampleWorking (reconciled : Except Exn Json) : ProxyState :=
  ⟨(sampleTurn reconciled).2.2,
    settle sampleRunning (sampleTurn reconciled).1 (sampleTurn reconciled).2.1⟩

lemma sample_work (reconciled : Except Exn Json) {P : ProxyState → ProxyStep → Prop}
    (hP : P sampleSubmitted (.claim sampleNow (sampleTurn reconciled).1)) :
    (proxyLts sampleSettings samplePolicies).Run P sampleSubmitted (sampleWorking reconciled) := by
  refine Lts.Run.single hP ⟨rfl, Or.inr (Or.inr ?_)⟩
  exact ⟨sampleRunning, sampleStore.put sampleRunning, (sampleTurn reconciled).2.1, sample_claim,
    advance_turn (sampleAnswer reconciled) _ _, rfl⟩

variable {s : ProxyState}

/-- The awaited call is answered, and the loop goes on to the next one. -/
def resumed (o : (c : ProxyCall) → c.Answer) (s : ProxyState) : ProxyState :=
  match s.loop with
  | .working task before (.call c f) =>
    let turn := (f (o c)).turn ProxyCall.suspends o s.exec
    ⟨turn.2.2, settle task (before ++ ⟨c, o c⟩ :: turn.1) turn.2.1⟩
  | _ => s

def isWaiting : Loop → Bool
  | .working _ _ (.call _ _) => true
  | _ => false

lemma resumed_step {o : (c : ProxyCall) → c.Answer} (ho : ∀ c, ordinary ⟨c, o c⟩)
    (hw : isWaiting s.loop = true) :
    ∃ event calls, (proxyLts settings policies).step s (.answer event calls) (resumed o s) := by
  obtain ⟨exec, loop⟩ := s
  cases loop with
  | idle => cases hw
  | dead => cases hw
  | working task before rest =>
    cases rest with
    | call c f =>
      exact ⟨⟨c, o c⟩, _, ho c, task, before, f, _, rfl, advance_turn o (f (o c)) exec, rfl⟩
    | _ => cases hw

/-! ### One outcome per turn -/

variable {s' : ExecutorState} {now : DateTime} {store : TaskStore}
  {es : List ProxyEvent} {x : Except Exn Unit}

lemma turn_end (h : Inv settings False s)
    (hc : claimNext now none s.exec.store = (.ok (some task), store))
    (hr : (processTask settings policies task).Runs Others ⟨store, []⟩ es x s') :
    TurnEnd settings task es x s' := by
  obtain ⟨hstore, hget, hv, -⟩ := claimed_holds h.sound hc
  have hholds : Holds task.taskId.1 ⟨store, []⟩ := ⟨hstore, task, hget⟩
  exact wp_sound (wp_processTask hholds rfl hv policies)
    (runs_mono (fun _ _ _ _ he => ⟨he, False.elim⟩) hr)

/-- **One outcome.** A claimed attempt of a task gets exactly one outcome and lets the loop go on,
for any ordinary exceptions of its calls and any requests meanwhile, exactly if no reconcile ended
in an exception other than an HTTP error, no release did after a recorded upstream failure, and
the time of the next attempt could be represented. -/
theorem outcome_once_iff (h : (proxyLts settings policies).Reachable Lts.anyStep s)
    (hc : claimNext now none s.exec.store = (.ok (some task), store))
    (hr : (processTask settings policies task).Runs Others ⟨store, []⟩ es x s')
    (ho : Ordinary es) :
    s'.recorded.length = 1 ∧ x = .ok () ↔ OnceCondition settings task es :=
  (turn_end (inv_of_reachable h) hc hr).once_iff ho

/-- The whole turn of the task. -/
def samplePlay (reconciled : Except Exn Json) : List ProxyEvent × Except Exn Unit × ExecutorState :=
  (processTask sampleSettings samplePolicies sampleRunning).play (sampleAnswer reconciled)
    ⟨sampleStore.put sampleRunning, []⟩

lemma others_refl (c : ProxyCall) (r : c.Answer) (s : ExecutorState) : Others c r s s := by
  rw [Others]
  split
  · exact ⟨rfl, id, Extends.refl _⟩
  · rfl

lemma sample_runs (reconciled : Except Exn Json) :
    (processTask sampleSettings samplePolicies sampleRunning).Runs Others
      ⟨sampleStore.put sampleRunning, []⟩ (samplePlay reconciled).1 (samplePlay reconciled).2.1
      (samplePlay reconciled).2.2 := runs_play (fun c s => others_refl c _ s) _ _

lemma sample_calls {reconciled : Except Exn Json}
    (h : ∀ e, reconciled = .error e → e.isException = true) :
    Ordinary (samplePlay reconciled).1 := by
  intro e he
  have ha := play_answers (sampleAnswer reconciled) _ _ e he
  obtain ⟨c, r⟩ := e
  rw [show r = sampleAnswer reconciled c from ha]
  exact sample_ordinary h c

theorem outcome_once_sample :
    (samplePlay (.ok (.obj []))).2.2.recorded.length = 1 ∧
    (samplePlay (.ok (.obj []))).2.1 = .ok () ↔
      OnceCondition sampleSettings sampleRunning (samplePlay (.ok (.obj []))).1 := by
  have hs : (proxyLts sampleSettings samplePolicies).Reachable Lts.anyStep sampleSubmitted :=
    sample_submit fun _ => trivial
  have hord : Ordinary (samplePlay (.ok (.obj []))).1 := sample_calls nofun
  exact outcome_once_iff hs sample_claim (sample_runs _) hord

/-- What a reconcile answers whose body is no JSON. -/
def notJson : Except Exn Json := .error ⟨.jsonDecode, "JSONDecodeError", "Expecting value"⟩

lemma samplePlay_notJson : (samplePlay notJson).2.2.recorded = [.result, .retry] := by
  decide +kernel

/-- The upstream answers, and the reconcile after the result with a body that is no JSON: the loop
records a retry for the attempt that has succeeded. -/
theorem outcome_twice :
    ∃ s store es x s', (proxyLts sampleSettings samplePolicies).Reachable Lts.anyStep s ∧
      claimNext sampleNow none s.exec.store = (.ok (some sampleRunning), store) ∧
      (processTask sampleSettings samplePolicies sampleRunning).Runs Others ⟨store, []⟩ es x s' ∧
      Ordinary es ∧ s'.recorded = [.result, .retry] ∧ ¬(s'.recorded.length = 1 ∧ x = .ok ()) := by
  have hord : Ordinary (samplePlay notJson).1 := by
    refine sample_calls fun e he => ?_
    rw [notJson, Except.error.injEq] at he
    rw [← he]
    rfl
  refine ⟨sampleSubmitted, sampleStore.put sampleRunning, _, _, _, sample_submit fun _ => trivial,
    sample_claim, sample_runs notJson, hord, samplePlay_notJson, fun h => ?_⟩
  have hlen := h.1
  rw [samplePlay_notJson] at hlen
  simp at hlen

end Orchestrator.ProxySystem
