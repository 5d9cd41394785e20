import Mathlib.Algebra.Order.Ring.Rat
import Mathlib.Tactic.Positivity
import Orchestrator.AttemptTurns

/-!
The attempts of one task, over whole runs of the queue proxy with cancellations, stops and
restarts.

A run is logged by what it does to the task: the claims, and the failures that are recorded.
`Lawful` says what the executor makes of a log, entry by entry: a task is claimed only while an
attempt is left, and not before the last retry is due; and a failure is retried exactly if it is
retryable and not one of the last attempt.
-/

namespace Orchestrator.Attempts

open Lib Lib.Coro Clock Executor TaskStore Idempotency Outcomes ProxySystem AttemptTurns

/-! ### Logs -/

/-- What a run did to a task. -/
inductive Entry
  | claimed (now : DateTime)
  /-- a failure with the error that was stored, and the reading of the clock from which the time of
  the next attempt was computed, if it was -/
  | failed (error : Mapping) (failedAt : Option DateTime)

/-- How often the task was claimed. -/
def claims : List Entry → ℕ
  | [] => 0
  | .claimed _ :: log => claims log + 1
  | .failed _ _ :: log => claims log

def Retryable (error : Mapping) : Prop := error.lookup "retryable" = some (.bool true)

/-- The delay that was recorded with a failure. -/
def recordedDelay (error : Mapping) : Option ℚ :=
  match error.lookup "retry_delay_seconds" with
  | some (.float ⟨_, .fin delay⟩) => some delay
  | _ => none

/-- The failures that a turn recorded, after the outcomes `before`. -/
def failures (calls : List ProxyEvent) (id : String) (before : List Recorded) (s : ExecutorState) :
    List Entry :=
  (s.recorded.drop before.length).filterMap fun
    | .result => none
    | _ => some (.failed (((s.store.tasksById.get? id).bind fun t => t.error).getD [])
      (retryReadings calls).getLast?)

/-- What a step does to the task `id`, the newest first: a turn of the loop on the task may begin
with its claim, and record failures. -/
def entries (id : String) (s : ProxyState) (l : ProxyStep) (s' : ProxyState) : List Entry :=
  match l with
  | .claim now calls =>
    match (claimNext now none s.exec.store).1 with
    | .ok (some task) =>
      if task.taskId.1 = id then failures calls id [] s'.exec ++ [.claimed now] else []
    | _ => []
  | .answer event calls | .stop event calls =>
    match s.loop with
    | .working task _ _ =>
      if task.taskId.1 = id then failures (event :: calls) id s.exec.recorded s'.exec else []
    | _ => []
  | _ => []

/-- The condition on a step: a reconcile that is answered does not raise. -/
def Reconciles : ProxyStep → Prop
  | .answer event _ => reconcileHandled event
  | _ => True

/-- The states that are reached, with the logs of the task `id`, the newest entry first. -/
inductive Logged (settings : Settings) (policies : PolicyRegistry) (id : String) :
    List Entry → ProxyState → Prop
  | start : Logged settings policies id [] ⟨⟨TaskStore.empty, []⟩, .idle⟩
  | step {log : List Entry} {s s' : ProxyState} {l : ProxyStep}
      (before : Logged settings policies id log s) (condition : Reconciles l)
      (step : proxyStep settings policies s l s') :
      Logged settings policies id (entries id s l s' ++ log) s'

/-! ### The law of logs -/

section Law

variable (settings : Settings)

/-- `min(base * 2 ** (attempt - 1), cap)` -/
def retryDelay (attempt : ℕ) : ℚ :=
  min (settings.taskExecutorRetryBaseSeconds.1 * 2 ^ (attempt - 1))
    settings.taskExecutorRetryMaxSeconds.1

/-- A final failure was recorded: one that is not retryable, or one of the last attempt. -/
def Over : List Entry → Prop
  | [] => False
  | .claimed _ :: log => Over log
  | .failed error _ :: log =>
    ¬(Retryable error ∧ claims log < settings.taskExecutorMaxAttempts.1) ∨ Over log

/-- A retry was recorded since the last claim, and is due then. -/
def Pending (due : DateTime) : List Entry → Prop
  | .failed error failedAt :: log =>
    Retryable error ∧ claims log < settings.taskExecutorMaxAttempts.1 ∧
      ∃ time, failedAt = some time ∧ addSeconds time (retryDelay settings (claims log)) = .ok due
  | _ => False

/-- A retry comes with the time at which it is due, and with its delay. -/
def Scheduled (error : Mapping) (failedAt : Option DateTime) (attempt : ℕ) : Prop :=
  ∃ time due, failedAt = some time ∧ addSeconds time (retryDelay settings attempt) = .ok due ∧
    recordedDelay error = some (retryDelay settings attempt)

def Lawful : List Entry → Prop
  | [] => True
  | .claimed now :: log =>
    (claims log < settings.taskExecutorMaxAttempts.1 ∧ ¬Over settings log ∧
      ∀ due, Pending settings due log → due ≤ now) ∧ Lawful log
  | .failed error failedAt :: log =>
    (Retryable error → claims log < settings.taskExecutorMaxAttempts.1 →
      Scheduled settings error failedAt (claims log)) ∧ Lawful log

end Law

variable {settings : Settings}

lemma claims_append (log log' : List Entry) : claims (log ++ log') = claims log + claims log' := by
  induction log with
  | nil => rw [List.nil_append, claims, Nat.zero_add]
  | cons entry log ih =>
    cases entry with
    | claimed now => rw [List.cons_append, claims, claims, ih]; omega
    | failed error failedAt => rw [List.cons_append, claims, claims, ih]

lemma Lawful.earlier {log log' : List Entry} (h : Lawful settings (log ++ log')) :
    Lawful settings log' := by
  induction log with
  | nil => exact h
  | cons entry log ih => cases entry <;> exact ih h.2

lemma Over.later {log : List Entry} (h : Over settings log) (log' : List Entry) :
    Over settings (log' ++ log) := by
  induction log' with
  | nil => exact h
  | cons entry log' ih =>
    cases entry with
    | claimed now => exact ih
    | failed error failedAt => exact Or.inr ih

/-- After a final failure a task is not claimed. -/
lemma Lawful.ended {log log' : List Entry} (h : Lawful settings (log ++ log'))
    (hover : Over settings log') : claims log = 0 := by
  induction log with
  | nil => rfl
  | cons entry log ih =>
    cases entry with
    | claimed now => exact absurd (hover.later log) h.1.2.1
    | failed error failedAt => exact ih h.2

lemma addSeconds_mono {t t' u u' : DateTime} {q : ℚ} (ht : t ≤ t') (hu : addSeconds t q = .ok u)
    (hu' : addSeconds t' q = .ok u') : u ≤ u' := by
  have hle : t.1 ≤ t'.1 := ht
  simp only [addSeconds] at hu hu'
  split at hu
  · split at hu'
    · cases hu
      cases hu'
      show Int.toNat _ ≤ Int.toNat _
      omega
    · cases hu'
  · cases hu

/-- A retry is not claimed before it is due, unless a later failure of the attempt was recorded
with an earlier reading of the clock. -/
lemma Lawful.due {between earlier : List Entry} {now time due : DateTime} {error : Mapping}
    (h : Lawful settings (.claimed now :: (between ++ .failed error (some time) :: earlier)))
    (hretry : Retryable error ∧ claims earlier < settings.taskExecutorMaxAttempts.1)
    (hdue : addSeconds time (retryDelay settings (claims earlier)) = .ok due)
    (hclaims : claims between = 0)
    (hclock : ∀ e time', .failed e (some time') ∈ between → time ≤ time') : due ≤ now := by
  obtain ⟨⟨-, hover, hpending⟩, hlawful⟩ := h
  cases between with
  | nil => exact hpending due ⟨hretry.1, hretry.2, time, rfl, hdue⟩
  | cons entry between =>
    cases entry with
    | claimed now' => cases hclaims
    | failed e failedAt =>
      have hcount : claims (between ++ .failed error (some time) :: earlier) = claims earlier := by
        rw [claims_append, show claims between = 0 from hclaims, Nat.zero_add, claims]
      have hlast : Retryable e ∧ claims (between ++ .failed error (some time) :: earlier) <
          settings.taskExecutorMaxAttempts.1 := by
        by_contra hno
        exact hover (Or.inl hno)
      obtain ⟨time', due', rfl, hdue', -⟩ := hlawful.1 hlast.1 hlast.2
      have hle : due' ≤ now := hpending due' ⟨hlast.1, hlast.2, time', rfl, hdue'⟩
      have hsame : addSeconds time' (retryDelay settings (claims earlier)) = .ok due' := by
        rw [← hcount]
        exact hdue'
      exact (addSeconds_mono (hclock e time' List.mem_cons_self) hdue hsame).trans hle

lemma retryDelay_mono {m n : ℕ} (h : m ≤ n) : retryDelay settings m ≤ retryDelay settings n := by
  have hbase : 0 < settings.taskExecutorRetryBaseSeconds.1 :=
    settings.taskExecutorRetryBaseSeconds.2
  refine min_le_min_right _ (mul_le_mul_of_nonneg_left ?_ hbase.le)
  exact pow_le_pow_right₀ one_le_two (Nat.sub_le_sub_right h 1)

lemma retryAt_eq_ok {n : ℕ} {time due : DateTime} {delay : ℚ}
    (h : retryAt settings n time = .ok (delay, due)) :
    delay = retryDelay settings n ∧ addSeconds time (retryDelay settings n) = .ok due := by
  rw [retryAt, bind_eq_ok] at h
  obtain ⟨d, hd, h⟩ := h
  rw [bind_eq_ok] at h
  obtain ⟨u, hu, h⟩ := h
  cases h
  simp only [retryDelaySeconds] at hd
  split at hd
  · cases hd
  · cases hd
    exact ⟨rfl, hu⟩

/-! ### The log and the stored task -/

/-- The log of the task `id` is lawful, and says what is known about the stored task, while the
loop works on `current`. -/
structure Tallied (settings : Settings) (id : String) (log : List Entry) (s : ExecutorState)
    (current : Option StoredTask) : Prop where
  lawful : Lawful settings log
  limit : claims log ≤ settings.taskExecutorMaxAttempts.1
  absent : s.store.tasksById.get? id = none → log = []
  count : ∀ {t}, s.store.tasksById.get? id = some t → t.attemptCount = claims log
  queued : ∀ {t}, s.store.tasksById.get? id = some t → t.state = .queued →
    claims log < settings.taskExecutorMaxAttempts.1
  due : ∀ {t due}, s.store.tasksById.get? id = some t → t.state = .queued →
    Pending settings due log → t.nextAttemptAt = some (nowIso due)
  ended : Over settings log → ∃ t, s.store.tasksById.get? id = some t ∧ t.state = .failed
  working : ∀ {task}, current = some task → task.taskId.1 = id →
    task.attemptCount = claims log ∧ (Over settings log → .error ∈ s.recorded)

variable {id : String} {log : List Entry} {e e' : ExecutorState} {current : Option StoredTask}
  {task : StoredTask} {calls : List ProxyEvent}

lemma tallied_start : Tallied settings id [] ⟨TaskStore.empty, []⟩ none where
  lawful := trivial
  limit := Nat.zero_le _
  absent _ := rfl
  count := nofun
  queued := nofun
  due := nofun
  ended := nofun
  working := nofun

/-- The loop leaves its task. -/
lemma Tallied.leave (h : Tallied settings id log e current) : Tallied settings id log e none :=
  { h with working := nofun }

/-- Without a task, the recorded outcomes do not matter. -/
lemma Tallied.forget (h : Tallied settings id log e none) (recorded : List Recorded) :
    Tallied settings id log ⟨e.store, recorded⟩ none :=
  ⟨h.lawful, h.limit, h.absent, h.count, h.queued, h.due, h.ended, nofun⟩

/-- A stored task is as it was, or cancelled. -/
structure Carried (t t' : StoredTask) : Prop where
  count : t'.attemptCount = t.attemptCount
  state : t'.state = t.state ∨ t.state.isTerminal = false ∧ t'.state = .cancelled
  next : t'.state = .queued → t'.nextAttemptAt = t.nextAttemptAt

lemma Carried.refl (t : StoredTask) : Carried t t := ⟨rfl, Or.inl rfl, fun _ => rfl⟩

lemma carried_cancelled {t : StoredTask} (h : t.state.isTerminal = false) (now : DateTime) :
    Carried t (cancelled now t) := ⟨rfl, Or.inr ⟨h, rfl⟩, nofun⟩

lemma carried_reloaded {t : StoredTask} (h : t.Valid) (now : DateTime) :
    Carried t (t.reloaded (nowIso now)) := by
  refine ⟨rfl, Or.inl rfl, fun _ => ?_⟩
  cases hn : t.nextAttemptAt with
  | none => rw [StoredTask.reloaded, hn]; rfl
  | some text =>
    have hne : text ≠ "" := isTime_ne_empty (h.next text (by rw [hn]; rfl))
    simp [StoredTask.reloaded, hn, hne]

/-- Others leave the log as it is. -/
lemma Tallied.carried (h : Tallied settings id log e current) (hrec : e'.recorded = e.recorded)
    (hback : ∀ t, e.store.tasksById.get? id = some t →
      ∃ t', e'.store.tasksById.get? id = some t' ∧ Carried t t')
    (hnew : e.store.tasksById.get? id = none → ∀ t', e'.store.tasksById.get? id = some t' →
      t'.attemptCount = 0) :
    Tallied settings id log e' current := by
  cases hget : e.store.tasksById.get? id with
  | none =>
    have hnil := h.absent hget
    subst hnil
    refine ⟨trivial, Nat.zero_le _, fun _ => rfl, fun ht => hnew hget _ ht, ?_, nofun, nofun, ?_⟩
    · exact fun _ _ => settings.taskExecutorMaxAttempts.2
    · intro task hc hid
      exact ⟨(h.working hc hid).1, False.elim⟩
  | some t =>
    obtain ⟨t', ht', hcarried⟩ := hback t hget
    have hqueued : t'.state = .queued → t.state = .queued := by
      intro hq
      rcases hcarried.state with hstate | ⟨-, hstate⟩
      · rw [← hstate, hq]
      · rw [hstate] at hq
        cases hq
    refine ⟨h.lawful, h.limit, fun hnone => ?_, fun {u} hu => ?_, fun {u} hu hq => ?_,
      fun {u due} hu hq hp => ?_, fun hover => ?_, fun hc hid => ?_⟩
    · rw [ht'] at hnone
      cases hnone
    · rw [ht'] at hu
      cases hu
      rw [hcarried.count]
      exact h.count hget
    · rw [ht'] at hu
      cases hu
      exact h.queued hget (hqueued hq)
    · rw [ht'] at hu
      cases hu
      rw [hcarried.next hq]
      exact h.due hget (hqueued hq) hp
    · obtain ⟨u, hu, hfailed⟩ := h.ended hover
      rw [hget] at hu
      cases hu
      refine ⟨t', ht', ?_⟩
      rcases hcarried.state with hstate | ⟨hterm, -⟩
      · rw [hstate, hfailed]
      · rw [hfailed] at hterm
        cases hterm
    · obtain ⟨hatt, hrecorded⟩ := h.working hc hid
      exact ⟨hatt, fun hover => hrec ▸ hrecorded hover⟩

/-! ### Turns -/

lemma failures_of {before after : List Recorded} (h : e'.recorded = before ++ after) :
    failures calls id before e' = after.filterMap fun
      | .result => none
      | _ => some (.failed (((e'.store.tasksById.get? id).bind fun t => t.error).getD [])
        (retryReadings calls).getLast?) := by
  rw [failures, h, List.drop_left]

lemma retryable_enriched {error : Mapping} {retryable : Bool} :
    (enrichedError settings task error retryable).lookup "retryable" = some (.bool retryable) := by
  rw [enrichedError, Mapping.merge]
  simp [Mapping.lookup_set]

lemma retryable_retryError {error : Mapping} {delay : ℚ} {next : DateTime} :
    Retryable (retryError settings task error delay next) := by
  rw [Retryable, retryError, Mapping.lookup_set, Mapping.lookup_set]
  simp [retryable_enriched]

lemma recordedDelay_retryError {error : Mapping} {delay : ℚ} {next : DateTime} :
    recordedDelay (retryError settings task error delay next) = some delay := by
  rw [recordedDelay, retryError, Mapping.lookup_set]
  simp

/-- The loop records an outcome of its task. -/
lemma Tallied.updated {log' : List Entry} {before after : StoredTask}
    (h : Tallied settings id log e (some task)) (hid : task.taskId.1 = id)
    (hu : Updated id before after e.store e'.store)
    (hcount : after.attemptCount = before.attemptCount) (hclaims : claims log' = claims log)
    (hlawful : Lawful settings log')
    (hqueued : after.state = .queued → claims log < settings.taskExecutorMaxAttempts.1 ∧
      ∀ due, Pending settings due log' → after.nextAttemptAt = some (nowIso due))
    (hover : Over settings log' → after.state = .failed ∧ .error ∈ e'.recorded) :
    Tallied settings id log' e' (some task) := by
  have hget := hu.get?_self
  refine ⟨hlawful, hclaims ▸ h.limit, fun hnone => ?_, fun {t} ht => ?_, fun {t} ht hq => ?_,
    fun {t due} ht hq => ?_, fun ho => ⟨after, hget, (hover ho).1⟩, fun hc _ => ?_⟩
  · rw [hget] at hnone
    cases hnone
  · rw [hget] at ht
    cases ht
    rw [hcount, hclaims]
    exact h.count hu.before
  · rw [hget] at ht
    cases ht
    rw [hclaims]
    exact (hqueued hq).1
  · rw [hget] at ht
    cases ht
    exact (hqueued hq).2 due
  · cases hc
    exact ⟨hclaims ▸ (h.working rfl hid).1, fun ho => (hover ho).2⟩

/-- **One turn** of the loop on the task. -/
lemma Tallied.turn (h : Tallied settings id log e (some task)) (hid : task.taskId.1 = id)
    (ho : Outcome settings task calls e e') :
    Tallied settings id (failures calls id e.recorded e' ++ log) e' (some task) := by
  obtain ⟨hatt, hover⟩ := h.working rfl hid
  subst hid
  cases ho with
  | nothing same =>
    rw [same, failures_of (List.append_nil _).symm]
    exact h
  | result recorded live now result before updated =>
    rw [failures_of recorded]
    exact h.updated rfl updated rfl rfl h.lawful (fun hq => by cases hq)
      fun ho => absurd (hover ho) live
  | retry recorded live again failedAt delay next reading due now error before updated =>
    have hleft : claims log < settings.taskExecutorMaxAttempts.1 := by
      rw [← hatt]
      simpa [willRetry] using again
    obtain ⟨rfl, hdue⟩ := retryAt_eq_ok due
    rw [hatt] at hdue
    have hlog : failures calls task.taskId.1 e.recorded e' =
        [.failed (retryError settings task error (retryDelay settings task.attemptCount) next)
          (some failedAt)] := by
      rw [failures_of recorded, updated.get?_self, reading]
      rfl
    rw [hlog, List.singleton_append]
    refine h.updated rfl updated rfl rfl ⟨fun _ _ => ⟨failedAt, next, rfl, hdue, ?_⟩, h.lawful⟩
      (fun _ => ⟨hleft, fun due hp => ?_⟩) fun ho => ?_
    · rw [recordedDelay_retryError, hatt]
    · obtain ⟨-, -, _, ⟨⟩, hdue'⟩ := hp
      rw [hdue] at hdue'
      cases hdue'
      rfl
    · rcases ho with hfinal | ho
      · exact absurd ⟨retryable_retryError, hleft⟩ hfinal
      · exact absurd (hover ho) live
  | failure recorded retryable final now error before updated =>
    have hlog : failures calls task.taskId.1 e.recorded e' =
        [.failed (enrichedError settings task error retryable) (retryReadings calls).getLast?] := by
      rw [failures_of recorded, updated.get?_self]
      rfl
    rw [hlog, List.singleton_append]
    refine h.updated rfl updated rfl rfl ⟨fun hr hleft => ?_, h.lawful⟩ (fun hq => by cases hq)
      fun _ => ⟨rfl, by rw [recorded]; simp⟩
    rw [Retryable, retryable_enriched] at hr
    cases hr
    rw [← hatt] at hleft
    simp [willRetry, hleft] at final

/-- A turn on another task. -/
lemma Tallied.elsewhere (h : Tallied settings id log e current) (hid : task.taskId.1 ≠ id)
    (hothers : e'.store.tasksById.get? id = e.store.tasksById.get? id) :
    Tallied settings id log e' (some task) := by
  refine ⟨h.lawful, h.limit, ?_, ?_, ?_, ?_, ?_, fun hc heq => ?_⟩
  · rw [hothers]
    exact h.absent
  · rw [hothers]
    exact h.count
  · rw [hothers]
    exact h.queued
  · rw [hothers]
    exact h.due
  · rw [hothers]
    exact h.ended
  · cases hc
    exact absurd heq hid

lemma outcome_others (h : Outcome settings task calls e e') (hid : task.taskId.1 ≠ id) :
    e'.store.tasksById.get? id = e.store.tasksById.get? id := by
  cases h with
  | nothing same => rw [same]
  | result recorded live now result before updated => exact updated.get?_ne (Ne.symm hid)
  | retry recorded live again failedAt delay next reading due now error before updated =>
    exact updated.get?_ne (Ne.symm hid)
  | failure recorded retryable final now error before updated =>
    exact updated.get?_ne (Ne.symm hid)

/-- The claim of the task. -/
lemma Tallied.claim {now : DateTime} {t : StoredTask} {store : TaskStore}
    (h : Tallied settings id log e current) (hid : t.taskId.1 = id)
    (hc : isTaskClaimable now none t = .ok true)
    (hu : Updated t.taskId.1 t (claimed now t) e.store store) :
    Tallied settings id (.claimed now :: log) ⟨store, []⟩ (some (claimed now t)) := by
  subst hid
  have hq := claimable_queued hc
  have hcount := h.count hu.before
  have hleft := h.queued hu.before hq
  have hget := hu.get?_self
  have hover : ¬Over settings log := by
    intro ho
    obtain ⟨u, hu', hf⟩ := h.ended ho
    rw [hu.before] at hu'
    cases hu'
    rw [hq] at hf
    cases hf
  refine ⟨⟨⟨hleft, hover, fun due hp => ?_⟩, h.lawful⟩, hleft, fun hnone => ?_, fun {u} hu' => ?_,
    fun {u} hu' hq' => ?_, nofun, fun ho => absurd ho hover, fun hw _ => ?_⟩
  · rw [isTaskClaimable, h.due hu.before hq hp] at hc
    simp only [hq, TaskState.isClaimable, parseIso_nowIso, Except.map] at hc
    simpa using hc
  · rw [hget] at hnone
    cases hnone
  · rw [hget] at hu'
    cases hu'
    exact congrArg (· + 1) hcount
  · rw [hget] at hu'
    cases hu'
    cases hq'
  · cases hw
    exact ⟨congrArg (· + 1) hcount, fun ho => absurd ho hover⟩

/-! ### Runs -/

/-- What the turns of an attempt end in. -/
def Turned (settings : Settings) (task : StoredTask) (calls : List ProxyEvent)
    (_ : Except Exn Unit) (s t : ExecutorState) : Prop :=
  Holds task.taskId.1 t ∧ Outcome settings task calls s t

/-- The task that the loop works on. -/
def currentOf : Loop → Option StoredTask
  | .working task _ _ => some task
  | _ => none

/-- The log of the task is lawful, and a waiting loop keeps to its terms. -/
structure Kept (settings : Settings) (id : String) (log : List Entry) (s : ProxyState) : Prop where
  inv : Inv settings False s
  tallied : Tallied settings id log s.exec (currentOf s.loop)
  waits : ∀ {task calls rest}, s.loop = .working task calls rest →
    rest.Waits (terms settings task) (Turned settings task) s.exec

variable {policies : PolicyRegistry} {s s' : ProxyState} {l : ProxyStep}

lemma tallied_settle {rest : Proxy ExecutorState Unit}
    (h : Tallied settings id log e (some task)) :
    Tallied settings id log e (currentOf (settle task calls rest)) := by
  unfold settle
  split
  · exact h.leave
  · exact h.leave
  · exact h

/-- What a turn of the loop has done, and how it goes on. -/
lemma turn_outcome {p rest : Proxy ExecutorState Unit} {es fs : List ProxyEvent}
    (h : p.wpe (terms settings task) (Turned settings task) es e e)
    (ha : p.Advance ProxyCall.suspends e fs rest e') :
    Outcome settings task (es ++ fs) e e' ∧
      ∀ {task' calls' rest'}, settle task calls rest = .working task' calls' rest' →
        rest'.Waits (terms settings task') (Turned settings task') e' := by
  rcases wpe_advance h ha with ⟨x, rfl, -, hout⟩ | ⟨hout, hwaits⟩
  · refine ⟨hout, fun hw => ?_⟩
    cases x <;> cases hw
  · refine ⟨hout, fun hw => ?_⟩
    obtain ⟨rfl, -, rfl⟩ := settle_working hw
    exact hwaits

/-- What the others did before does not matter while the loop waits. -/
lemma waits_others {rest : Proxy ExecutorState Unit}
    (h : rest.Waits (terms settings task) (Turned settings task) e)
    (hrec : e'.recorded = e.recorded) (hsound : Sound e.store → Sound e'.store)
    (hext : Extends e.store e'.store) :
    rest.Waits (terms settings task) (Turned settings task) e' := by
  refine h.others fun c r t hc ht => ⟨?_, ht.2⟩
  have hsusp : c.suspends = true := hc
  have ho := ht.1
  rw [Others, if_pos hsusp] at ho ⊢
  exact ⟨ho.1.trans hrec, fun h => ho.2.1 (hsound h), hext.trans ho.2.2⟩

/-- The loop goes on after an answer. -/
lemma Kept.resumes {event : ProxyEvent} (h : Kept settings id log s) (hr : reconciled event)
    (hl : ProxySystem.resumes s event calls s') :
    Tallied settings id ((match s.loop with
      | .working task _ _ =>
        if task.taskId.1 = id then failures (event :: calls) id s.exec.recorded s'.exec else []
      | _ => []) ++ log) s'.exec (currentOf s'.loop) ∧
      ∀ {task calls rest}, s'.loop = .working task calls rest →
        rest.Waits (terms settings task) (Turned settings task) s'.exec := by
  obtain ⟨task, before, f, rest, hloop, ha, hloop'⟩ := hl
  have htally := h.tallied
  obtain ⟨c, g, hcall, hc, hg⟩ := h.waits hloop
  cases hcall
  have hothers : (terms settings task).others event.1 event.2 s.exec s.exec :=
    ⟨others_refl _ _ _, hr⟩
  obtain ⟨hout, hwaits⟩ := turn_outcome (hg event.2 s.exec hothers) ha
  rw [hloop]
  rw [hloop] at htally
  refine ⟨?_, fun hw => hwaits (hloop' ▸ hw)⟩
  rw [hloop']
  refine tallied_settle ?_
  by_cases hid : task.taskId.1 = id
  · simp only [if_pos hid]
    exact htally.turn hid hout
  · simp only [if_neg hid]
    exact htally.elsewhere hid (outcome_others hout hid)

lemma reconciled_of_handled {event : ProxyEvent} (h : reconcileHandled event) :
    reconciled event := by
  obtain ⟨c, r⟩ := event
  cases c with
  | postReconcile payload => exact fun e he => Or.inl (h e he)
  | _ => trivial

lemma reconciled_of_interrupted {event : ProxyEvent} (h : interrupted event) :
    reconciled event := by
  have hcalm := calm_of_interrupted h
  obtain ⟨c, r⟩ := event
  cases c with
  | postReconcile payload => exact hcalm
  | _ => trivial

/-- **Every step** whose reconciles do not raise keeps the log lawful. -/
theorem kept_step (h : Kept settings id log s) (hr : Reconciles l)
    (hl : proxyStep settings policies s l s') :
    Kept settings id (entries id s l s' ++ log) s' := by
  have hinv : Inv settings False s' := step_inv h.inv False.elim hl
  have hsound := h.inv.sound
  cases l with
  | submit batch =>
    obtain ⟨⟨hf, payload, hp⟩, r, store, he, rfl⟩ := hl
    have hplan : ∀ b ∈ batch, Plannable b.1.orchestration :=
      fun b hb => parse_plannable hp _ (List.mem_map_of_mem hb)
    obtain ⟨hstore, hkeep⟩ := submitMany_sound hsound hf hplan he
    have hext : Extends s.exec.store store := fun x t ht => ⟨t, hkeep x t ht, rfl⟩
    refine ⟨hinv, h.tallied.carried rfl (fun t ht => ⟨t, hkeep id t ht, .refl t⟩)
      fun hnone t ht => ?_, fun hw => waits_others (h.waits hw) rfl (fun _ => hstore) hext⟩
    rcases submitMany_new he ht with hold | ⟨b, -, rfl⟩
    · rw [hnone] at hold
      cases hold
    · rfl
  | cancel now tenant taskId =>
    obtain ⟨r, store, he, rfl⟩ := hl
    rcases cancelTask_cases hsound.inverse he with rfl | ⟨t, -, hterm, -, hu⟩
    · exact ⟨hinv, h.tallied, h.waits⟩
    · refine ⟨hinv, h.tallied.carried rfl (fun u hget => ?_) fun hnone u hget => ?_,
        fun hw => waits_others (h.waits hw) rfl (fun _ => hinv.sound) hu.extends⟩
      · by_cases hid : id = taskId
        · subst hid
          rw [hu.before] at hget
          cases hget
          exact ⟨_, hu.get?_self, carried_cancelled hterm now⟩
        · exact ⟨u, by rw [hu.get?_ne hid, hget], .refl u⟩
      · obtain ⟨v, hv, -⟩ : ∃ v, s.exec.store.tasksById.get? id = some v ∧ True := by
          by_cases hid : id = taskId
          · exact ⟨t, hid ▸ hu.before, trivial⟩
          · exact ⟨u, by rw [← hu.get?_ne hid]; exact hget, trivial⟩
        rw [hnone] at hv
        cases hv
  | claim now calls =>
    obtain ⟨hidle, ⟨store, hc, rfl⟩ | ⟨e, store, hc, rfl⟩ | ⟨task, store, rest, hc, ha, hloop⟩⟩ :=
      hl
    · rcases claimNext_cases hsound.inverse hc with ⟨_, he, -⟩ | ⟨-, rfl, -⟩ | ⟨t, he, -⟩
      · cases he
      · simp only [entries, hc, List.nil_append]
        exact ⟨hinv, h.tallied.leave, nofun⟩
      · cases he
    · rcases claimNext_cases hsound.inverse hc with ⟨_, -, rfl⟩ | ⟨he, -, -⟩ | ⟨t, he, -⟩
      · simp only [entries, hc, List.nil_append]
        exact ⟨hinv, h.tallied.leave, nofun⟩
      · cases he
      · cases he
    · obtain ⟨hstore, hget, hv, -⟩ := claimed_holds hsound hc
      have hholds : Holds task.taskId.1 ⟨store, []⟩ := ⟨hstore, task, hget⟩
      have hwpe : (processTask settings policies task).wpe (terms settings task)
          (Turned settings task) [] ⟨store, []⟩ ⟨store, []⟩ :=
          wpe_processTask hholds rfl hv policies
      obtain ⟨hout, hwaits⟩ := turn_outcome hwpe ha
      refine ⟨hinv, ?_, fun hw => hwaits (hloop ▸ hw)⟩
      rw [hloop]
      refine tallied_settle ?_
      simp only [entries, hc]
      rcases claimNext_cases hsound.inverse hc with ⟨_, he, -⟩ | ⟨he, -, -⟩ | ⟨t, he, hdue, hu⟩
      · cases he
      · cases he
      cases he
      by_cases hid : (claimed now t).taskId.1 = id
      · rw [if_pos hid, List.append_assoc, List.singleton_append]
        exact (h.tallied.claim (t := t) hid hdue hu).turn hid hout
      · rw [if_neg hid]
        refine h.tallied.elsewhere hid ((outcome_others hout hid).trans ?_)
        exact hu.get?_ne (Ne.symm hid)
  | answer event calls =>
    obtain ⟨-, hl⟩ := hl
    obtain ⟨htally, hwaits⟩ := h.resumes (reconciled_of_handled hr) hl
    exact ⟨hinv, htally, hwaits⟩
  | stop event calls =>
    obtain ⟨hidle, rfl⟩ | ⟨hint, hl⟩ := hl
    · simp only [entries, hidle, List.nil_append]
      exact ⟨hinv, h.tallied.leave, nofun⟩
    · obtain ⟨htally, hwaits⟩ := h.resumes (reconciled_of_interrupted hint) hl
      exact ⟨hinv, htally, hwaits⟩
  | restart now =>
    obtain ⟨store, he, rfl⟩ := hl
    have hget := (reload_spec hsound.inverse he).2
    refine ⟨hinv, ?_, nofun⟩
    refine (h.tallied.leave.forget []).carried rfl (fun t ht => ?_) fun hnone t ht => ?_
    · exact ⟨_, by rw [hget, ht]; rfl, carried_reloaded (hsound.valid ht) now⟩
    · rw [hget, hnone] at ht
      cases ht

lemma kept_logged (h : Logged settings policies id log s) : Kept settings id log s := by
  induction h with
  | start =>
    have hinit : (proxyLts settings policies).init ⟨⟨TaskStore.empty, []⟩, .idle⟩ := rfl
    exact ⟨inv_init hinit, tallied_start, nofun⟩
  | step before condition step ih => exact kept_step ih condition step

/-! ### The attempts of a task -/

/-- What holds of every log, newest first, with `claims earlier` the number of the attempt that
failed. -/
structure AttemptsBounded (settings : Settings) (log : List Entry) : Prop where
  limit : claims log ≤ settings.taskExecutorMaxAttempts.1
  /-- A retry is not claimed before the delay after its failure, unless the clock read an earlier
  time at a later failure of the same attempt. -/
  retried : ∀ {later error failedAt earlier}, log = later ++ .failed error failedAt :: earlier →
    Retryable error → claims earlier < settings.taskExecutorMaxAttempts.1 →
    ∃ time due, failedAt = some time ∧
      addSeconds time (retryDelay settings (claims earlier)) = .ok due ∧
      ∀ {after now between}, later = after ++ .claimed now :: between → claims between = 0 →
        (∀ e time', .failed e (some time') ∈ between → time ≤ time') → due ≤ now
  /-- A final failure is the end. -/
  ended : ∀ {later error failedAt earlier}, log = later ++ .failed error failedAt :: earlier →
    claims earlier = settings.taskExecutorMaxAttempts.1 ∨ ¬Retryable error → claims later = 0
  /-- The recorded delays are those of the attempts, and never decrease. -/
  delays : ∀ {later error failedAt earlier}, log = later ++ .failed error failedAt :: earlier →
    Retryable error → claims earlier < settings.taskExecutorMaxAttempts.1 →
    recordedDelay error = some (retryDelay settings (claims earlier)) ∧
      ∀ {after e failedAt' between}, later = after ++ .failed e failedAt' :: between →
        retryDelay settings (claims earlier) ≤
          retryDelay settings (claims (between ++ .failed error failedAt :: earlier))

lemma Lawful.bounded (h : Lawful settings log)
    (hlimit : claims log ≤ settings.taskExecutorMaxAttempts.1) : AttemptsBounded settings log := by
  refine ⟨hlimit, fun {later error failedAt earlier} hlog hr hleft => ?_,
    fun {later error failedAt earlier} hlog hfinal => ?_,
    fun {later error failedAt earlier} hlog hr hleft => ?_⟩
  · subst hlog
    obtain ⟨time, due, rfl, hdue, -⟩ := h.earlier.1 hr hleft
    refine ⟨time, due, rfl, hdue, fun {after now between} hlater hclaims hclock => ?_⟩
    subst hlater
    rw [List.append_assoc, List.cons_append] at h
    exact h.earlier.due ⟨hr, hleft⟩ hdue hclaims hclock
  · subst hlog
    refine h.ended (Or.inl ?_)
    rintro ⟨hr, hleft⟩
    rcases hfinal with hlast | hno
    · omega
    · exact hno hr
  · subst hlog
    obtain ⟨-, -, -, -, hdelay⟩ := h.earlier.1 hr hleft
    refine ⟨hdelay, fun _ => retryDelay_mono ?_⟩
    rw [claims_append, claims]
    exact Nat.le_add_left _ _

/-- **The attempts of a task**, in every run in which no answered reconcile raises, with
cancellations, stops and restarts. -/
theorem attempts_bounded (h : Logged settings policies id log s) : AttemptsBounded settings log :=
  (kept_logged h).tallied.lawful.bounded (kept_logged h).tallied.limit

/-! ### A clock that is set back -/

def failingSettings : Settings :=
  { sampleSettings with
    backendRegistryUrl := "http://127.0.0.1:8090"
    enableBackendRegistryRouting := true }

def sampleRegistry : Json :=
  .obj [("instances", .arr [.obj [("instance_id", .str "one"), ("model", .str "local-model"),
    ("base_url", .str "http://127.0.0.1:9000/v1"), ("state", .str "ready")]])]

/-- The upstream cannot be reached, and the release of the lease raises. -/
def failingAnswer (now : DateTime) : (c : ProxyCall) → c.Answer
  | .utcNow | .datetimeNow => now
  | .postUpstream _ _ => .error ⟨.http, "ConnectError", "All connection attempts failed"⟩
  | .deleteLease _ => .error ⟨.other, "RuntimeError", "Event loop is closed"⟩
  | .getRegistry | .postAllocation _ | .postLease _ | .postReconcile _ | .postExplain _ =>
    .ok ⟨200, "application/json", "", .ok sampleRegistry⟩

/-- The step in which the awaited call is answered. -/
def answered (o : (c : ProxyCall) → c.Answer) (s : ProxyState) : ProxyStep :=
  match s.loop with
  | .working _ _ (.call c f) => .answer ⟨c, o c⟩ ((f (o c)).turn ProxyCall.suspends o s.exec).1
  | _ => .restart sampleNow

/-- Answers that raise ordinary exceptions only, and none in a reconcile. -/
def Fair (o : (c : ProxyCall) → c.Answer) : Prop :=
  ∀ c, ordinary ⟨c, o c⟩ ∧ reconcileHandled ⟨c, o c⟩

lemma answered_step {o : (c : ProxyCall) → c.Answer} (ho : Fair o)
    (hw : isWaiting s.loop = true) :
    Reconciles (answered o s) ∧ proxyStep settings policies s (answered o s) (resumed o s) := by
  obtain ⟨exec, loop⟩ := s
  cases loop with
  | idle => cases hw
  | dead => cases hw
  | working task before rest =>
    cases rest with
    | call c f =>
      exact ⟨(ho c).2, (ho c).1, task, before, f, _, rfl, advance_turn o (f (o c)) exec, rfl⟩
    | _ => cases hw

/-- The awaited calls are answered one by one. -/
def follow (id : String) : List ((c : ProxyCall) → c.Answer) → List Entry → ProxyState →
    List Entry × ProxyState
  | [], log, s => (log, s)
  | o :: os, log, s => follow id os (entries id s (answered o s) (resumed o s) ++ log) (resumed o s)

def waitsFor : List ((c : ProxyCall) → c.Answer) → ProxyState → Bool
  | [], _ => true
  | o :: os, s => isWaiting s.loop && waitsFor os (resumed o s)

lemma logged_follow {os : List ((c : ProxyCall) → c.Answer)} (ho : ∀ o ∈ os, Fair o)
    (hw : waitsFor os s = true) (h : Logged settings policies id log s) :
    Logged settings policies id (follow id os log s).1 (follow id os log s).2 := by
  induction os generalizing log s with
  | nil => exact h
  | cons o os ih =>
    rw [List.forall_mem_cons] at ho
    rw [waitsFor, Bool.and_eq_true] at hw
    obtain ⟨hr, hl⟩ : Reconciles (answered o s) ∧
        proxyStep settings policies s (answered o s) (resumed o s) := answered_step ho.1 hw.1
    exact ih ho.2 hw.2 (.step h hr hl)

/-- The first turn of the task. -/
def failingTurn : List ProxyEvent × Proxy ExecutorState Unit × ExecutorState :=
  (processTask failingSettings samplePolicies sampleRunning).turn ProxyCall.suspends
    (failingAnswer sampleNow) ⟨sampleStore.put sampleRunning, []⟩

/-- The task is claimed, and the loop asks for the backends. -/
def failingClaimed : ProxyState :=
  ⟨failingTurn.2.2, settle sampleRunning failingTurn.1 failingTurn.2.1⟩

lemma inFive_lt : 63892886405000000 < limit := by decide
lemma inTen_lt : 63892886410000000 < limit := by decide
lemma inFifteen_lt : 63892886415000000 < limit := by decide

def inFive : DateTime := ⟨63892886405000000, inFive_lt⟩
def inTen : DateTime := ⟨63892886410000000, inTen_lt⟩
def inFifteen : DateTime := ⟨63892886415000000, inFifteen_lt⟩

def isIdle : Loop → Bool
  | .idle => true
  | _ => false

lemma failingAnswer_fair (now : DateTime) : Fair (failingAnswer now) := by
  intro c
  cases c with
  | utcNow | datetimeNow => exact ⟨trivial, trivial⟩
  | postUpstream url payload | deleteLease i =>
    refine ⟨⟨fun e he => ?_, nofun⟩, trivial⟩
    cases he
    rfl
  | postReconcile payload =>
    refine ⟨⟨nofun, fun a e ha he => ?_⟩, fun e he => ?_⟩
    · cases ha
      cases he
    · cases he
  | _ =>
    refine ⟨⟨nofun, fun a e ha he => ?_⟩, trivial⟩
    cases ha
    cases he

/-- Ten seconds after the claim the upstream request fails, and a retry is recorded; then the clock
is set back, the release of the lease raises, and another retry is recorded. -/
def failingAnswers : List ((c : ProxyCall) → c.Answer) :=
  [failingAnswer inTen, failingAnswer inTen, failingAnswer inTen, failingAnswer inTen,
    failingAnswer sampleNow, failingAnswer sampleNow]

def failingRun : List Entry × ProxyState :=
  follow "task_1" failingAnswers
    (failures failingTurn.1 "task_1" [] failingClaimed.exec ++ [.claimed sampleNow]) failingClaimed

lemma failing_logged :
    Logged failingSettings samplePolicies "task_1" failingRun.1 failingRun.2 := by
  refine logged_follow (fun o ho => ?_) (by decide +kernel) ?_
  · simp only [failingAnswers, List.mem_cons, List.not_mem_nil, or_false] at ho
    rcases ho with rfl | rfl | rfl | rfl | rfl | rfl <;> exact failingAnswer_fair _
  · have hsubmit : proxyStep failingSettings samplePolicies ⟨⟨TaskStore.empty, []⟩, .idle⟩
        (.submit [(sampleQueued, sampleStamp ⟨"task_1", nonBlank_task1⟩)]) sampleSubmitted :=
      ⟨⟨⟨by simp, fun _ _ => rfl⟩, sampleRequest, sample_parse⟩, _, _, rfl, rfl⟩
    have hclaim : proxyStep failingSettings samplePolicies sampleSubmitted
        (.claim sampleNow failingTurn.1) failingClaimed :=
      ⟨rfl, Or.inr (Or.inr ⟨sampleRunning, sampleStore.put sampleRunning, failingTurn.2.1,
        sample_claim, advance_turn (failingAnswer sampleNow) _ _, rfl⟩)⟩
    have hentries :
        entries "task_1" sampleSubmitted (.claim sampleNow failingTurn.1) failingClaimed =
          failures failingTurn.1 "task_1" [] failingClaimed.exec ++ [.claimed sampleNow] := by
      have hc : (claimNext sampleNow none sampleSubmitted.exec.store).1 =
          .ok (some sampleRunning) := congrArg Prod.fst sample_claim
      simp only [entries, hc]
      exact if_pos rfl
    have hlogged : Logged failingSettings samplePolicies "task_1"
        (entries "task_1" sampleSubmitted (.claim sampleNow failingTurn.1) failingClaimed ++ [])
        failingClaimed :=
      .step (.step .start (l := .submit _) trivial hsubmit) (l := .claim _ _) trivial hclaim
    rwa [hentries, List.append_nil] at hlogged

theorem attempts_bounded_sample :
    AttemptsBounded failingSettings failingRun.1 ∧ claims failingRun.1 = 1 :=
  ⟨attempts_bounded failing_logged, by decide +kernel⟩

/-- Whether an entry is a claim, its time, and whether it is a retryable failure. -/
def Entry.summary : Entry → Bool × Option DateTime × Bool
  | .claimed now => (true, some now, false)
  | .failed error failedAt =>
    (false, failedAt, match error.lookup "retryable" with
      | some (.bool retryable) => retryable
      | _ => false)

lemma retryable_of_summary {error : Mapping} {failedAt : Option DateTime}
    (h : (Entry.failed error failedAt).summary.2.2 = true) : Retryable error := by
  simp only [Entry.summary] at h
  split at h
  · next b hb => rw [Retryable, hb, h]
  · cases h

lemma failing_summary : failingRun.1.map Entry.summary =
    [(false, some sampleNow, true), (false, some inTen, true), (true, some sampleNow, false)] := by
  decide +kernel

/-- The log of the run: a claim, and two failures of its attempt. -/
lemma failing_log : ∃ first second now, failingRun.1 =
    [.failed second (some sampleNow), .failed first (some inTen), .claimed now] ∧
      Retryable first := by
  obtain ⟨a, rest, hlog, ha, hrest⟩ := List.map_eq_cons_iff.mp failing_summary
  obtain ⟨b, rest, rfl, hb, hrest⟩ := List.map_eq_cons_iff.mp hrest
  obtain ⟨c, rest, rfl, hc, hrest⟩ := List.map_eq_cons_iff.mp hrest
  obtain rfl := List.map_eq_nil_iff.mp hrest
  cases a with
  | claimed now => cases ha
  | failed second failedAt =>
    cases b with
    | claimed now => cases hb
    | failed first failedAt' =>
      cases c with
      | failed error failedAt => cases hc
      | claimed now =>
        obtain rfl : failedAt = some sampleNow := congrArg (fun x => x.2.1) ha
        obtain rfl : failedAt' = some inTen := congrArg (fun x => x.2.1) hb
        exact ⟨first, second, now, hlog, retryable_of_summary (congrArg (fun x => x.2.2) hb)⟩

/-- The task is due again five seconds after the second failure. -/
lemma failing_due : ∃ task store, claimNext inFive none failingRun.2.exec.store =
    (.ok (some task), store) ∧ task.taskId.1 = "task_1" := by
  have hclaimed : ((claimNext inFive none failingRun.2.exec.store).1.toOption.join.map
      fun t => t.taskId.1) = some "task_1" := by decide +kernel
  obtain ⟨task, hjoin, hid⟩ := Option.map_eq_some_iff.mp hclaimed
  refine ⟨task, (claimNext inFive none failingRun.2.exec.store).2, ?_, hid⟩
  cases hr : (claimNext inFive none failingRun.2.exec.store).1 with
  | error e => rw [hr] at hjoin; cases hjoin
  | ok found =>
    rw [hr] at hjoin
    rw [show found = some task from hjoin] at hr
    exact Prod.ext hr rfl

lemma failing_delay : addSeconds inTen (retryDelay failingSettings 1) = .ok inFifteen := by
  have hsome : (addSeconds inTen (retryDelay failingSettings 1)).toOption = some inFifteen := by
    decide +kernel
  cases hadd : addSeconds inTen (retryDelay failingSettings 1) with
  | error e => rw [hadd] at hsome; cases hsome
  | ok due => rw [hadd] at hsome; rw [show due = inFifteen from Option.some.inj hsome]

/-- A task is claimed ten seconds before a recorded retry is due: the release of its lease raised,
and the clock had been set back when the second retry of the attempt was recorded. -/
theorem claimed_early :
    ¬∀ (settings : Settings) (policies : PolicyRegistry) (id : String) (log : List Entry)
      (s : ProxyState), Logged settings policies id log s →
      ∀ after now between error time earlier due,
        log = after ++ .claimed now :: (between ++ .failed error (some time) :: earlier) →
        claims between = 0 → Retryable error →
        claims earlier < settings.taskExecutorMaxAttempts.1 →
        addSeconds time (retryDelay settings (claims earlier)) = .ok due → due ≤ now := by
  intro h
  obtain ⟨first, second, now, hlog, hretry⟩ := failing_log
  obtain ⟨task, store, hclaim, hid⟩ := failing_due
  have hrun := failing_logged
  rw [hlog] at hrun
  have hidle : failingRun.2.loop = .idle := by
    have hb : isIdle failingRun.2.loop = true := by decide +kernel
    cases hl : failingRun.2.loop with
    | idle => rfl
    | dead => rw [hl] at hb; cases hb
    | working task calls rest => rw [hl] at hb; cases hb
  let turn := (processTask failingSettings samplePolicies task).turn ProxyCall.suspends
    (failingAnswer inFive) ⟨store, []⟩
  have hstep : proxyStep failingSettings samplePolicies failingRun.2 (.claim inFive turn.1)
      ⟨turn.2.2, settle task turn.1 turn.2.1⟩ :=
    ⟨hidle, Or.inr (Or.inr ⟨task, store, turn.2.1, hclaim, advance_turn _ _ _, rfl⟩)⟩
  have hagain := Logged.step hrun (l := .claim inFive turn.1) trivial hstep
  have hentries : entries "task_1" failingRun.2 (.claim inFive turn.1)
      ⟨turn.2.2, settle task turn.1 turn.2.1⟩ =
        failures turn.1 "task_1" [] turn.2.2 ++ [.claimed inFive] := by
    simp only [entries, hclaim, if_pos hid]
  rw [hentries, List.append_assoc, List.singleton_append] at hagain
  have hleft : claims [.claimed now] < failingSettings.taskExecutorMaxAttempts.1 := by
    show 1 < 3
    decide
  have hdue := h failingSettings samplePolicies "task_1" _ _ hagain
    (failures turn.1 "task_1" [] turn.2.2) inFive [.failed second (some sampleNow)] first inTen
    [.claimed now] inFifteen rfl rfl hretry hleft failing_delay
  exact absurd hdue (by decide)

end Orchestrator.Attempts
