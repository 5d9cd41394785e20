import Orchestrator.ProxySystem

/-!
A cancelled task, over whole runs of the queue proxy.

`cancel_task` checks the state of the task; the operations that record an outcome do not. A task
therefore stays cancelled as long as no cancellation takes effect between a claim and the first
outcome of the attempt, and no turn comes to record a second one.
-/

namespace Orchestrator.Cancellation

open Lib Lib.Coro Clock Executor TaskStore Idempotency Outcomes ProxySystem

/-- A cancellation changes the task. -/
def TakesEffect (s : TaskStore) (tenant taskId : String) : Prop :=
  ∃ t, s.getTask tenant taskId = some t ∧ t.state.isTerminal = false

/-- The condition on a step: no cancellation takes effect on the task of the loop before its
outcome is recorded, and after it no call raises what makes the loop record another. -/
structure Orderly (s : ProxyState) (l : ProxyStep) : Prop where
  calm : Calm s l
  cancels : ∀ now tenant, ∀ {task calls rest}, s.loop = .working task calls rest →
    l = .cancel now tenant task.taskId.1 → TakesEffect s.exec.store tenant task.taskId.1 →
    s.exec.recorded ≠ []

variable {settings : Settings} {policies : PolicyRegistry} {s s' : ProxyState} {l : ProxyStep}

def Cancelled (s : TaskStore) (id : String) : Prop :=
  ∃ t, s.tasksById.get? id = some t ∧ t.state = .cancelled

/-- The task of a waiting loop is not cancelled before its outcome is recorded. -/
def Spared (s : ProxyState) : Prop :=
  ∀ {task calls rest}, s.loop = .working task calls rest →
    Cancelled s.exec.store task.taskId.1 → s.exec.recorded ≠ []

section Turns

variable {task : StoredTask} {calls : List ProxyEvent} {rest : Proxy ExecutorState Unit}
  {e e' : ExecutorState}

/-- A turn leaves cancelled tasks alone. -/
lemma spares (h : TurnResult settings True task calls rest e e')
    (hspared : Cancelled e.store task.taskId.1 → e.recorded ≠ []) {id : String} {t : StoredTask}
    (ht : e.store.tasksById.get? id = some t) (hc : t.state = .cancelled) :
    e'.store.tasksById.get? id = some t := by
  by_cases hid : id = task.taskId.1
  · subst hid
    have hne := hspared ⟨t, ht, hc⟩
    rw [(h.guar.2 trivial).resolve_right hne]
    exact ht
  · rcases h.guar.1 with rfl | ⟨-, -, hothers, -⟩
    · exact ht
    · rw [hothers id hid]
      exact ht

lemma spared_after (h : TurnResult settings True task calls rest e e')
    (hspared : Cancelled e.store task.taskId.1 → e.recorded ≠ [])
    (hc : Cancelled e'.store task.taskId.1) : e'.recorded ≠ [] := by
  rcases h.guar.1 with rfl | ⟨hrec, -⟩
  · exact hspared hc
  · exact hrec

lemma spared_turn (h : TurnResult settings True task calls rest s.exec s'.exec)
    (hspared : Cancelled s.exec.store task.taskId.1 → s.exec.recorded ≠ [])
    (hloop : s'.loop = settle task calls rest) : Spared s' := by
  intro _ _ _ hw
  obtain ⟨rfl, -⟩ := h.waiting (hloop ▸ hw)
  exact spared_after h hspared

end Turns

/-- A task that is cancelled in `s` is so in `s'`, and has not been claimed. -/
def Keeps (s s' : TaskStore) : Prop :=
  ∀ id t, s.tasksById.get? id = some t → t.state = .cancelled →
    ∃ t', s'.tasksById.get? id = some t' ∧ t'.state = .cancelled ∧ t'.attemptCount = t.attemptCount

lemma keeps_of_same {s s' : TaskStore}
    (h : ∀ id t, s.tasksById.get? id = some t → t.state = .cancelled →
      s'.tasksById.get? id = some t) : Keeps s s' :=
  fun id t ht hc => ⟨t, h id t ht hc, hc, rfl⟩

lemma Keeps.trans {s t u : TaskStore} (h : Keeps s t) (h' : Keeps t u) : Keeps s u := by
  intro id a ha hc
  obtain ⟨b, hb, hbc, hab⟩ := h id a ha hc
  obtain ⟨c, hcget, hcc, hbc'⟩ := h' id b hb hbc
  exact ⟨c, hcget, hcc, hbc'.trans hab⟩

/-- **Every orderly step** keeps every cancelled task. -/
theorem orderly_step (h : Inv settings True s) (hsp : Spared s) (ho : Orderly s l)
    (hl : proxyStep settings policies s l s') : Spared s' ∧ Keeps s.exec.store s'.exec.store := by
  cases l with
  | submit batch =>
    obtain ⟨⟨hf, payload, hp⟩, r, store, he, rfl⟩ := hl
    have hplan : ∀ b ∈ batch, Plannable b.1.orchestration :=
      fun b hb => parse_plannable hp _ (List.mem_map_of_mem hb)
    obtain ⟨-, hkeep⟩ := submitMany_sound h.sound hf hplan he
    refine ⟨fun hw hc => ?_, keeps_of_same fun id t ht _ => hkeep id t ht⟩
    obtain ⟨t, ht⟩ := (h.waiting hw).stored
    obtain ⟨u, hu, hcu⟩ := hc
    rw [hkeep _ t ht] at hu
    cases hu
    exact hsp hw ⟨t, ht, hcu⟩
  | cancel now tenant taskId =>
    obtain ⟨r, store, he, rfl⟩ := hl
    rcases cancelTask_cases h.sound.inverse he with rfl | ⟨t, -, hterm, htenant, hu⟩
    · exact ⟨hsp, keeps_of_same fun _ _ ht _ => ht⟩
    refine ⟨fun {task calls rest} hw hc => ?_, keeps_of_same fun id u hget hc => ?_⟩
    · by_cases hid : task.taskId.1 = taskId
      · subst hid
        refine ho.cancels now tenant hw rfl ⟨t, ?_, hterm⟩
        rw [getTask, hu.before]
        simp [htenant]
      · obtain ⟨u, hget, hcu⟩ := hc
        rw [hu.get?_ne hid] at hget
        exact hsp hw ⟨u, hget, hcu⟩
    · rw [hu.get?_ne ?_]
      · exact hget
      · rintro rfl
        rw [hu.before] at hget
        cases hget
        rw [hc] at hterm
        cases hterm
  | claim now calls =>
    obtain ⟨hidle, ⟨store, hc, rfl⟩ | ⟨e, store, hc, rfl⟩ | ⟨task, store, rest, hc, ha, hloop⟩⟩ :=
      hl
    · rcases claimNext_cases h.sound.inverse hc with ⟨_, hr, -⟩ | ⟨-, rfl, -⟩ | ⟨t, hr, -⟩
      · cases hr
      · exact ⟨(fun hw => by cases hw), keeps_of_same fun _ _ ht _ => ht⟩
      · cases hr
    · rcases claimNext_cases h.sound.inverse hc with ⟨_, -, rfl⟩ | ⟨hr, -, -⟩ | ⟨t, hr, -⟩
      · exact ⟨(fun hw => by cases hw), keeps_of_same fun _ _ ht _ => ht⟩
      · cases hr
      · cases hr
    · have hturn : TurnResult settings True task calls rest ⟨store, []⟩ s'.exec :=
        claim_turn h.sound hc ha
      obtain ⟨-, hget, -, hrun, t, hu, hq⟩ := claimed_holds h.sound hc
      have hspared : Cancelled store task.taskId.1 → ([] : List Recorded) ≠ [] := by
        rintro ⟨u, hu', hcu⟩
        rw [hget] at hu'
        cases hu'
        rw [hrun] at hcu
        cases hcu
      refine ⟨spared_turn (s := ⟨⟨store, []⟩, .idle⟩) hturn hspared hloop, keeps_of_same ?_⟩
      intro id u hu' hcu
      have hne : id ≠ task.taskId.1 := by
        rintro rfl
        rw [hu.before] at hu'
        cases hu'
        rw [hq] at hcu
        cases hcu
      exact spares hturn hspared (by rw [hu.get?_ne hne]; exact hu') hcu
  | answer event calls =>
    obtain ⟨-, task, before, f, rest, hloop, ha, hloop'⟩ := hl
    have hturn := resume_turn h.sound (h.waiting hloop) (fun _ => ho.calm) ha
    exact ⟨spared_turn hturn (hsp hloop) hloop',
      keeps_of_same fun id t ht hc => spares hturn (hsp hloop) ht hc⟩
  | stop event calls =>
    obtain ⟨-, rfl⟩ | ⟨hint, task, before, f, rest, hloop, ha, hloop'⟩ := hl
    · exact ⟨(fun hw => by cases hw), keeps_of_same fun _ _ ht _ => ht⟩
    · have hturn := resume_turn h.sound (h.waiting hloop)
        (fun _ _ => calm_of_interrupted hint) ha
      exact ⟨spared_turn hturn (hsp hloop) hloop',
        keeps_of_same fun id t ht hc => spares hturn (hsp hloop) ht hc⟩
  | restart now =>
    obtain ⟨store, hr, rfl⟩ := hl
    refine ⟨(fun hw => by cases hw), fun id t ht hc => ?_⟩
    exact ⟨t.reloaded (nowIso now), by rw [(reload_spec h.sound.inverse hr).2, ht]; rfl, hc, rfl⟩

/-- **A cancelled task stays cancelled** and is never claimed again, in every run in which no
cancellation takes effect on the task of the loop before its outcome is recorded, and no call
makes the loop record a second outcome. -/
theorem cancelled_stays {u : ProxyState} (h : (proxyLts settings policies).Reachable Orderly s)
    (hr : (proxyLts settings policies).Run Orderly s u) {id : String} {t : StoredTask}
    (ht : s.exec.store.tasksById.get? id = some t) (hc : t.state = .cancelled) :
    ∃ t', u.exec.store.tasksById.get? id = some t' ∧ t'.state = .cancelled ∧
      t'.attemptCount = t.attemptCount := by
  have hstep : ∀ s l t, Inv settings True s ∧ Spared s → Orderly s l →
      proxyStep settings policies s l t → Inv settings True t ∧ Spared t :=
    fun s l t hs ho hl =>
      ⟨step_inv hs.1 (fun _ => ho.calm) hl, (orderly_step hs.1 hs.2 ho hl).1⟩
  have hs : Inv settings True s ∧ Spared s := by
    refine h.invariant (I := fun s => Inv settings True s ∧ Spared s) (fun s hs => ?_) hstep
    refine ⟨inv_init hs, ?_⟩
    rw [show s = ⟨⟨TaskStore.empty, []⟩, .idle⟩ from hs]
    nofun
  have hkeeps : Keeps s.exec.store u.exec.store :=
    hr.stable (I := fun s => Inv settings True s ∧ Spared s)
      (K := fun v => Keeps s.exec.store v.exec.store) hstep
      (fun v l w hv hk ho (hl : proxyStep settings policies v l w) =>
        hk.trans (orderly_step hv.1 hv.2 ho hl).2)
      hs (keeps_of_same fun _ _ ht _ => ht)
  exact hkeeps id t ht hc

/-- The task of the loop is cancelled while the upstream request is under way. -/
def sampleCancelled : ProxyState :=
  ⟨⟨(cancelTask sampleNow "acme" "task_1" (sampleWorking (.ok (.obj []))).exec.store).2,
    (sampleWorking (.ok (.obj []))).exec.recorded⟩, (sampleWorking (.ok (.obj []))).loop⟩

def sampleOverwritten : ProxyState := resumed (sampleAnswer (.ok (.obj []))) sampleCancelled

def stateOf (s : ProxyState) (id : String) : Option TaskState :=
  (s.exec.store.tasksById.get? id).map fun t => t.state

/-- A cancelled task becomes succeeded when the upstream answers. -/
theorem cancelled_overwritten :
    ∃ s u, (proxyLts sampleSettings samplePolicies).Reachable Lts.anyStep s ∧
      (proxyLts sampleSettings samplePolicies).Run Lts.anyStep s u ∧
      stateOf s "task_1" = some .cancelled ∧ stateOf u "task_1" = some .succeeded := by
  have hcancel : (proxyLts sampleSettings samplePolicies).step (sampleWorking (.ok (.obj [])))
      (.cancel sampleNow "acme" "task_1") sampleCancelled := ⟨_, _, rfl, rfl⟩
  have hwaiting : isWaiting sampleCancelled.loop = true := by decide +kernel
  have hord : ∀ c, ordinary ⟨c, sampleAnswer (.ok (.obj [])) c⟩ := sample_ordinary nofun
  obtain ⟨event, calls, hanswer⟩ : ∃ event calls, (proxyLts sampleSettings samplePolicies).step
      sampleCancelled (.answer event calls) sampleOverwritten := resumed_step hord hwaiting
  have hs : (proxyLts sampleSettings samplePolicies).Reachable Lts.anyStep sampleCancelled :=
    (sample_submit fun _ => trivial).run ((sample_work _ trivial).tail trivial hcancel)
  exact ⟨_, _, hs, Lts.Run.single trivial hanswer, by decide +kernel, by decide +kernel⟩

/-- The task is cancelled before it is claimed. -/
def sampleWithdrawn : ProxyState :=
  ⟨⟨(cancelTask sampleNow "acme" "task_1" sampleStore).2, []⟩, .idle⟩

lemma sampleWithdrawn_task : sampleWithdrawn.exec.store.tasksById.get? "task_1" =
    some (cancelled sampleNow sampleStored) := by rfl

lemma orderly_idle (hidle : s.loop = .idle) (hcalm : Calm s l) : Orderly s l := by
  refine ⟨hcalm, fun now tenant task calls rest hw => ?_⟩
  rw [hidle] at hw
  cases hw

theorem cancelled_stays_sample :
    ∃ t', sampleWithdrawn.exec.store.tasksById.get? "task_1" = some t' ∧ t'.state = .cancelled ∧
      t'.attemptCount = (cancelled sampleNow sampleStored).attemptCount := by
  have hcancel : (proxyLts sampleSettings samplePolicies).step sampleSubmitted
      (.cancel sampleNow "acme" "task_1") sampleWithdrawn := ⟨_, _, rfl, rfl⟩
  have hclaim : (proxyLts sampleSettings samplePolicies).step sampleWithdrawn
      (.claim sampleNow []) sampleWithdrawn := ⟨rfl, Or.inl ⟨_, rfl, rfl⟩⟩
  have hfirst : Orderly sampleSubmitted (.cancel sampleNow "acme" "task_1") :=
    orderly_idle rfl trivial
  have hsecond : Orderly sampleWithdrawn (.claim sampleNow []) := orderly_idle rfl trivial
  have hs : (proxyLts sampleSettings samplePolicies).Reachable Orderly sampleWithdrawn :=
    (sample_submit (fun _ => orderly_idle rfl trivial)).run (Lts.Run.single hfirst hcancel)
  exact cancelled_stays hs (Lts.Run.single hsecond hclaim) sampleWithdrawn_task rfl

end Orchestrator.Cancellation
