import Orchestrator.Lib.Turns
import Orchestrator.ProxySystem

/-!
What one turn of the executor loop records, and with which time.

A turn changes the store at most once. It records a result, a retry, which is due the delay of the
attempt after the last clock reading of the turn, or a final failure. After a final failure an
attempt records only further ones, provided no reconcile call raises what the loop's handler
catches.
-/

namespace Orchestrator.AttemptTurns

open Lib Lib.Coro Clock Executor TaskStore BackendResolver RegistryClient Outcomes ProxySystem

/-- The error that is recorded with a retry. -/
def retryError (settings : Settings) (task : StoredTask) (error : Mapping) (delay : ℚ)
    (next : DateTime) : Mapping :=
  ((enrichedError settings task error true).set "next_attempt_at" (.str (nowIso next))).set
    "retry_delay_seconds" (.float ⟨settings.floatText delay, .fin delay⟩)

/-- What a turn of the loop on `task` with the calls `es` does to the store. -/
inductive Outcome (settings : Settings) (task : StoredTask) (es : List ProxyEvent)
    (s t : ExecutorState) : Prop
  | nothing (same : t = s)
  | result (recorded : t.recorded = s.recorded ++ [.result]) (live : .error ∉ s.recorded)
      (now : DateTime) (result : Mapping) (before : StoredTask)
      (updated : Updated task.taskId.1 before (succeeded now result before) s.store t.store)
  | retry (recorded : t.recorded = s.recorded ++ [.retry]) (live : .error ∉ s.recorded)
      (again : willRetry settings task true = true) (failedAt : DateTime) (delay : ℚ)
      (next : DateTime) (reading : (retryReadings es).getLast? = some failedAt)
      (due : retryAt settings task.attemptCount failedAt = .ok (delay, next)) (now : DateTime)
      (error : Mapping) (before : StoredTask)
      (updated : Updated task.taskId.1 before
        (retried now (retryError settings task error delay next) (nowIso next) before)
        s.store t.store)
  | failure (recorded : t.recorded = s.recorded ++ [.error]) (retryable : Bool)
      (final : willRetry settings task retryable = false) (now : DateTime) (error : Mapping)
      (before : StoredTask)
      (updated : Updated task.taskId.1 before
        (failed now (enrichedError settings task error retryable) before) s.store t.store)

/-- A reconcile that does not raise what the handler of the loop catches. -/
def reconciled : ProxyEvent → Prop
  | ⟨.postReconcile _, r⟩ =>
    ∀ e, reconcileResult r = .error e → e.isHTTPError = true ∨ e.isException = false
  | _ => True

def terms (settings : Settings) (task : StoredTask) :
    Terms ExecutorState ProxyCall ProxyCall.Answer where
  suspends := ProxyCall.suspends
  others c r s t := Others c r s t ∧ reconciled ⟨c, r⟩
  turn := Outcome settings task

/-- After a final failure there is no attempt left. -/
def Final (settings : Settings) (task : StoredTask) (s : ExecutorState) : Prop :=
  .error ∈ s.recorded → willRetry settings task true = false

variable {settings : Settings} {task : StoredTask} {es fs : List ProxyEvent}
  {s s₀ t : ExecutorState} {α : Type}

lemma holds_others {c : ProxyCall} {r : c.Answer}
    (hs : Holds task.taskId.1 s) (h : (terms settings task).others c r s t) :
    Holds task.taskId.1 t ∧ t.recorded = s.recorded := by
  have hrely : (contract task.taskId.1 False).rely c r s t := ⟨h.1, False.elim⟩
  exact hs.others hrely

/-- How a part of a task's execution ends: an exception that the handler of the loop catches leaves
it another outcome to record. -/
structure Ends (settings : Settings) (task : StoredTask) (es : List ProxyEvent) (x : Except Exn α)
    (s₀ s : ExecutorState) : Prop where
  holds : Holds task.taskId.1 s
  outcome : Outcome settings task es s₀ s
  raised : ∀ e, x = .error e → e.isException = true → s = s₀ ∧ Final settings task s

lemma Ends.ok (hs : Holds task.taskId.1 s) (h : Outcome settings task es s₀ s) (a : α) :
    Ends settings task es (.ok a) s₀ s := ⟨hs, h, nofun⟩

lemma Ends.early (hs : Holds task.taskId.1 s) (hf : Final settings task s) (x : Except Exn α) :
    Ends settings task es x s s := ⟨hs, .nothing rfl, fun _ _ _ => ⟨rfl, hf⟩⟩

/-- An exception that is passed on. -/
lemma Ends.raise {β : Type} {e : Exn} (h : Ends settings task es (.error e : Except Exn α) s₀ s) :
    Ends settings task es (.error e : Except Exn β) s₀ s := by
  refine ⟨h.holds, h.outcome, ?_⟩
  rintro _ ⟨⟩
  exact h.raised e rfl

/-- An exception that the handler of the loop does not catch. -/
lemma Ends.escape {e : Exn} (hs : Holds task.taskId.1 s) (h : Outcome settings task es s₀ s)
    (he : e.isException = false) : Ends settings task es (.error e : Except Exn α) s₀ s := by
  refine ⟨hs, h, ?_⟩
  rintro _ ⟨⟩ hexc
  rw [he] at hexc
  cases hexc

lemma final_of_nil (h : s.recorded = []) : Final settings task s := by
  rw [Final, h]
  simp

lemma final_congr (h : t.recorded = s.recorded) :
    Final settings task t ↔ Final settings task s := by rw [Final, Final, h]

/-! ### Routing -/

lemma stateless_exceptHTTP {σ β : Type} {p : Proxy σ α} {h : Exn → Proxy σ β}
    {k : α → Proxy σ β} (hp : p.Stateless) (hh : ∀ e, (h e).Stateless)
    (hk : ∀ a, (k a).Stateless) : (exceptHTTP p h k).Stateless := by
  refine stateless_after hp fun x => ?_
  cases x with
  | ok a => exact hk a
  | error e =>
    dsimp only
    split
    · exact hh e
    · trivial

lemma stateless_leaseChosen {σ : Type} (backend : ProxyInstance) :
    (leaseChosen settings backend : Proxy σ _).Stateless :=
  stateless_exceptHTTP (fun _ => trivial) (fun _ => trivial) fun _ => trivial

lemma stateless_allocateAndLease {σ : Type} (model : String) (orchestration : Mapping) :
    (allocateAndLease settings model orchestration : Proxy σ _).Stateless := by
  refine stateless_after (stateless_after (fun _ => trivial) fun x => ?_) fun x => ?_
  · cases x with
    | ok i => trivial
    | error e =>
      dsimp only [allocationFailed]
      split
      · split <;> trivial
      · trivial
      · trivial
  · match x with
    | .ok (some backend) =>
      dsimp only
      split
      · exact stateless_leaseChosen backend
      · trivial
    | .ok none => trivial
    | .error e =>
      dsimp only
      split <;> trivial

lemma stateless_resolve {σ : Type} (model : String) (orchestration : Mapping) :
    (resolve settings model orchestration : Proxy σ _).Stateless := by
  rw [resolve]
  split
  · trivial
  · refine stateless_exceptHTTP (stateless_bind (fun _ => trivial) fun _ => trivial)
      (fun _ => trivial) fun backend => ?_
    cases backend with
    | some backend => exact stateless_leaseChosen backend
    | none => exact stateless_allocateAndLease model orchestration

/-- What records nothing keeps the task and the outcomes. -/
lemma wpe_stateless {p : Proxy ExecutorState α} (hp : p.Stateless) (hs : Holds task.taskId.1 s) :
    p.wpe (terms settings task) (fun _ _ t₀ t => t = t₀ ∧ Holds task.taskId.1 t ∧
      t.recorded = s.recorded) es s s := by
  refine hp.wpe (I := fun t => Holds task.taskId.1 t ∧ t.recorded = s.recorded)
    (fun _ _ _ => .nothing rfl) (fun c r u v _ hu ho => ?_) ⟨hs, rfl⟩
  obtain ⟨hv, hrec⟩ := holds_others hu.1 ho
  exact ⟨hv, hrec.trans hu.2⟩

/-! ### Capacity and outcomes -/

/-- A reconcile of the current queues, in a turn that has done `Outcome`. -/
lemma wpe_reconcile (hs : Holds task.taskId.1 s) (h : Outcome settings task es s₀ s) :
    (reconcileCurrentTaskCapacity settings).wpe (terms settings task) (fun fs x t₀ t =>
      (Holds task.taskId.1 t ∧ t.recorded = s.recorded) ∧ Outcome settings task fs t₀ t ∧
        ∀ e, x = .error e → e.isException = false) es s₀ s := by
  obtain ⟨plans, hplans⟩ := hs.1.contextPlans_ok
  rw [reconcileCurrentTaskCapacity, wpe_get, hplans, bind_eq, lift, after_done, onOk_ok,
    reconcileCapacity]
  split
  · exact ⟨⟨hs, rfl⟩, h, fun _ hx => by cases hx⟩
  · rw [exceptHTTP, RegistryClient.reconcile, after_call, wpe_await rfl]
    refine ⟨h, fun (r : Except Exn HttpResponse) t ht => ?_⟩
    have hheld := holds_others hs ht
    cases hx : reconcileResult r with
    | ok a => exact ⟨hheld, .nothing rfl, fun _ hx => by cases hx⟩
    | error e =>
      by_cases he : e.isHTTPError = true
      · simp only [lift, after_done, he, if_true]
        exact ⟨hheld, .nothing rfl, fun _ hx => by cases hx⟩
      · simp only [lift, after_done, he]
        refine ⟨hheld, .nothing rfl, ?_⟩
        rintro _ ⟨⟩
        exact (ht.2 e hx).resolve_left he

/-- Recording an outcome of a task that is there. -/
lemma wpe_record {o : Recorded} (f : StoredTask → StoredTask)
    (hid : ∀ t, (f t).taskId = t.taskId) (hp : ∀ t, (f t).pair = t.pair)
    (hv : ∀ t, t.Valid → (f t).Valid)
    {Q : List ProxyEvent → Except Exn StoredTask → ExecutorState → ExecutorState → Prop}
    (hs : Holds task.taskId.1 s)
    (hQ : ∀ before t, Updated task.taskId.1 before (f before) s.store t.store →
      t.recorded = s.recorded ++ [o] → (f before).Valid → Holds task.taskId.1 t →
      Q es (.ok (f before)) s₀ t) :
    (record o (TaskStore.modify task.taskId.1 f)).wpe (terms settings task) Q es s₀ s := by
  obtain ⟨t, ht⟩ := hs.2
  rw [record, wpe_get]
  rcases hm : s.store.modify task.taskId.1 f with ⟨r, store⟩
  rcases modify_cases hid hp hm with ⟨-, -, hn⟩ | ⟨u, rfl, hu⟩
  · rw [hn] at ht
    cases ht
  · have hvalid := hv u (hs.1.valid hu.before)
    exact hQ u ⟨store, s.recorded ++ [o]⟩ hu rfl hvalid ⟨hu.sound hs.1 hvalid, _, hu.get?_self⟩

/-! ### Failures -/

lemma willRetry_eq {retryable : Bool} (h : willRetry settings task retryable = true) :
    retryable = true ∧ willRetry settings task true = true := by
  cases retryable with
  | true => exact ⟨rfl, h⟩
  | false => cases h

/-- A failure is recorded, or the time of the next attempt cannot be represented. -/
lemma wpe_recordTaskFailure (hs : Holds task.taskId.1 s) (hf : Final settings task s)
    (error : Mapping) (retryable : Bool) :
    (recordTaskFailure settings task error retryable).wpe (terms settings task) (fun fs x t₀ t =>
      Holds task.taskId.1 t ∧ (retryable = true → Final settings task t) ∧
        Outcome settings task fs t₀ t ∧ ((∃ a, x = .ok a) ∨ t₀ = s ∧ t = s)) es s s := by
  rw [recordTaskFailure]
  by_cases hw : willRetry settings task retryable = true
  · obtain ⟨rfl, -⟩ := willRetry_eq hw
    rw [if_pos hw, recordTaskRetry, wpe_call rfl]
    refine fun (now : DateTime) => ?_
    cases hnext : retryAt settings task.attemptCount now with
    | error e => exact ⟨hs, fun _ => hf, .nothing rfl, Or.inr ⟨rfl, rfl⟩⟩
    | ok at_ =>
      obtain ⟨delay, next⟩ := at_
      rw [bind_eq, lift, after_done, onOk_ok, wpe_call rfl]
      refine fun (later : DateTime) => ?_
      have hlive : Recorded.error ∉ s.recorded := fun hmem => by
        rw [hf hmem] at hw
        cases hw
      refine wpe_record (retried later _ (nowIso next)) (fun _ => rfl) (fun _ => rfl)
        (fun t ht => ht.retried later next _) hs fun before t hu hrec _ ht => ?_
      refine ⟨ht, fun _ hmem => ?_, ?_, Or.inl ⟨_, rfl⟩⟩
      · rw [hrec] at hmem
        exact absurd hmem (by simpa using hlive)
      · refine .retry hrec hlive hw now delay next ?_ hnext later error before hu
        rw [retryReadings_append, retryReadings_append]
        exact (congrArg List.getLast? (List.append_nil _)).trans List.getLast?_concat
  · rw [Bool.not_eq_true] at hw
    rw [if_neg (by simp [hw]), recordTaskError, wpe_call rfl]
    refine fun (now : DateTime) => ?_
    rw [bind_eq]
    refine wpe_after (wpe_record (failed now _) (fun _ => rfl) (fun _ => rfl)
      (fun t ht => ht.failed now _) hs fun before t hu hrec hvalid ht => ?_)
    obtain ⟨q, hq⟩ := secondsBetween_ok hvalid.started hvalid.finished
    rw [onOk_ok, hq]
    refine ⟨ht, ?_, .failure hrec retryable hw now error before hu, Or.inl ⟨_, rfl⟩⟩
    rintro rfl _
    exact hw

/-- **Recording a failure** and reconciling. -/
lemma wpe_recordTaskFailureAndReconcile (hs : Holds task.taskId.1 s) (hf : Final settings task s)
    (error : Mapping) (retryable : Bool) :
    (recordTaskFailureAndReconcile settings task error retryable).wpe (terms settings task)
      (fun fs x t₀ t => Ends settings task fs x t₀ t ∧ (retryable = true → Final settings task t))
      es s s := by
  rw [recordTaskFailureAndReconcile, bind_eq]
  refine wpe_after (wpe_mono (wpe_recordTaskFailure hs hf error retryable) fun fs x t₀ t h => ?_)
  obtain ⟨ht, hfinal, hout, hx⟩ := h
  cases x with
  | ok a =>
    rw [onOk_ok, bind_eq]
    refine wpe_after (wpe_mono (wpe_reconcile ht hout) fun gs y u₀ u h => ?_)
    obtain ⟨⟨hu, hrec⟩, hout', hy⟩ := h
    have hf' : retryable = true → Final settings task u :=
      fun hr => (final_congr hrec).mpr (hfinal hr)
    cases y with
    | ok b => exact ⟨Ends.ok hu hout' (), hf'⟩
    | error e => exact ⟨Ends.escape hu hout' (hy e rfl), hf'⟩
  | error e =>
    rcases hx with ⟨a, ha⟩ | ⟨rfl, rfl⟩
    · cases ha
    · exact ⟨Ends.early hs hf _, fun _ => hf⟩

/-! ### The execution of a task -/

/-- A release, in a turn that has done `Outcome`: its call, if any, begins another turn. -/
lemma wpe_release (hs : Holds task.taskId.1 s) (h : Outcome settings task es s₀ s)
    (instanceId : Option String) :
    (release settings instanceId).wpe (terms settings task) (fun fs y t₀ t =>
      (Holds task.taskId.1 t ∧ t.recorded = s.recorded) ∧
        (t = t₀ ∨ y = .ok () ∧ fs = es ∧ t₀ = s₀ ∧ t = s)) es s₀ s := by
  unfold release
  split
  · exact ⟨⟨hs, rfl⟩, Or.inr ⟨rfl, rfl, rfl, rfl⟩⟩
  · split
    · exact ⟨⟨hs, rfl⟩, Or.inr ⟨rfl, rfl, rfl, rfl⟩⟩
    · rw [exceptHTTP, releaseBackend, after_call, wpe_await rfl]
      refine ⟨h, fun (r : Except Exn HttpResponse) t ht => ?_⟩
      have hheld := holds_others hs ht
      cases statusOnly r with
      | ok u => exact ⟨hheld, Or.inl rfl⟩
      | error e =>
        simp only [lift, after_done]
        split <;> exact ⟨hheld, Or.inl rfl⟩

/-- The upstream request, up to the release of the lease. -/
lemma wpe_postUpstream (hs : Holds task.taskId.1 s) (hnil : s.recorded = [])
    (policy : ModelPolicy) (baseUrl : String) (instanceId : Option String) :
    (postUpstream settings policy task baseUrl instanceId).wpe (terms settings task)
      (fun fs x t₀ t => Ends settings task fs x t₀ t ∧
        ∀ response, x = .ok (some response) → t = t₀ ∧ t.recorded = []) es s s := by
  have hbody : (exceptHTTP
      (.call (.postUpstream (openaiUrl baseUrl task.endpoint.1 false)
        (upstreamPayload policy instanceId task.payload))
        fun (r : Except Exn HttpResponse) => lift r)
      (fun e => do
        recordTaskFailureAndReconcile settings task
          [("type", .str "upstream_request_failed"),
           ("message", .str "Upstream LLM gateway request failed."),
           ("error_type", .str e.name),
           ("backend_instance_id", instanceJson instanceId)] true
        pure none)
      (fun response => pure (some response)) : Proxy ExecutorState (Option HttpResponse)).wpe
        (terms settings task) (fun fs x t₀ t => Ends settings task fs x t₀ t ∧
          Final settings task t ∧ ∀ response, x = .ok (some response) → t = t₀ ∧ t.recorded = [])
        es s s := by
    rw [exceptHTTP, after_call, wpe_await rfl]
    refine ⟨.nothing rfl, fun (r : Except Exn HttpResponse) t hothers => ?_⟩
    obtain ⟨ht, hrec⟩ := holds_others hs hothers
    rw [hnil] at hrec
    cases r with
    | ok response =>
      exact ⟨Ends.early ht (final_of_nil hrec) _, final_of_nil hrec, fun _ _ => ⟨rfl, hrec⟩⟩
    | error e =>
      simp only [lift, after_done]
      split
      · rw [bind_eq]
        refine wpe_after (wpe_mono (wpe_recordTaskFailureAndReconcile ht (final_of_nil hrec) _ true)
          fun fs x u₀ u h => ?_)
        obtain ⟨hends, hfinal⟩ := h
        cases x with
        | ok a =>
          exact ⟨Ends.ok hends.holds hends.outcome none, hfinal rfl, fun _ hx => by cases hx⟩
        | error e => exact ⟨hends.raise, hfinal rfl, fun _ hx => by cases hx⟩
      · exact ⟨Ends.early ht (final_of_nil hrec) _, final_of_nil hrec,
          fun _ hx => by cases hx⟩
  rw [postUpstream, ensuring]
  refine wpe_after (wpe_mono hbody fun fs x t₀ t h => ?_)
  obtain ⟨hends, hfinal, hsent⟩ := h
  refine wpe_after (wpe_mono (wpe_release hends.holds hends.outcome instanceId)
    fun gs y u₀ u h => ?_)
  obtain ⟨⟨hu, hrec⟩, rfl | ⟨rfl, rfl, rfl, rfl⟩⟩ := h
  · refine ⟨Ends.early hu ((final_congr hrec).mpr hfinal) _, fun response hx => ⟨rfl, ?_⟩⟩
    rw [hrec]
    cases y with
    | ok a => exact (hsent response hx).2
    | error e => cases hx
  · exact ⟨hends, hsent⟩

/-- What follows the response to the request. -/
lemma wpe_recordResponse (hs : Holds task.taskId.1 s) (hnil : s.recorded = [])
    (instanceId : Option String) (response : HttpResponse) :
    (recordResponse settings task instanceId response).wpe (terms settings task)
      (Ends settings task) es s s := by
  rw [recordResponse, bind_eq, lift, after_done]
  cases responseBody response with
  | error e => exact Ends.early hs (final_of_nil hnil) _
  | ok body =>
    rw [onOk_ok]
    split
    · exact wpe_mono (wpe_recordTaskFailureAndReconcile hs (final_of_nil hnil) _ _)
        fun _ _ _ _ h => h.1
    · rw [wpe_call rfl]
      refine fun (now : DateTime) => ?_
      rw [bind_eq]
      refine wpe_after (wpe_record (succeeded now _) (fun _ => rfl) (fun _ => rfl)
        (fun t ht => ht.succeeded now _) hs fun before t hu hrec hvalid ht => ?_)
      obtain ⟨q, hq⟩ := secondsBetween_ok hvalid.started hvalid.finished
      have hlive : Recorded.error ∉ s.recorded := by simp [hnil]
      rw [onOk_ok, hq, bind_eq, lift, after_done, onOk_ok, bind_eq]
      refine wpe_after (wpe_mono (wpe_reconcile ht (.result hrec hlive now _ before hu))
        fun gs y u₀ u h => ?_)
      obtain ⟨⟨hu', -⟩, hout, hy⟩ := h
      cases y with
      | ok b => exact Ends.ok hu' hout ()
      | error e => exact Ends.escape hu' hout (hy e rfl)

/-- **The execution of a task.** -/
lemma wpe_executeStoredTask (hs : Holds task.taskId.1 s) (hnil : s.recorded = [])
    (policies : PolicyRegistry) :
    (executeStoredTask settings policies task).wpe (terms settings task) (Ends settings task)
      es s s := by
  have hfail : ∀ {es : List ProxyEvent} {s : ExecutorState} (error : Mapping) (retryable : Bool),
      Holds task.taskId.1 s → s.recorded = [] →
      (recordTaskFailureAndReconcile settings task error retryable).wpe (terms settings task)
        (Ends settings task) es s s := fun error retryable hs hnil =>
    wpe_mono (wpe_recordTaskFailureAndReconcile hs (final_of_nil hnil) error retryable)
      fun _ _ _ _ h => h.1
  rw [executeStoredTask]
  split
  · exact hfail _ _ hs hnil
  split
  · exact hfail _ _ hs hnil
  rw [bind_eq]
  refine wpe_after (wpe_mono (wpe_stateless (stateless_resolve _ _) hs) fun fs x t₀ t h => ?_)
  obtain ⟨rfl, ht, hrec⟩ := h
  rw [hnil] at hrec
  cases x with
  | error e => exact Ends.early ht (final_of_nil hrec) _
  | ok resolved =>
    obtain ⟨baseUrl, instanceId⟩ := resolved
    rw [onOk_ok]
    cases baseUrl with
    | none => exact hfail _ true ht hrec
    | some baseUrl =>
      change wpe _ (_ >>= _) _ _ _ _
      rw [bind_eq]
      refine wpe_after (wpe_mono (wpe_postUpstream ht hrec _ baseUrl instanceId)
        fun gs y u₀ u h => ?_)
      obtain ⟨hends, hsent⟩ := h
      cases y with
      | error e => exact hends.raise
      | ok sent =>
        rw [onOk_ok]
        cases sent with
        | none => exact Ends.ok hends.holds hends.outcome ()
        | some response =>
          obtain ⟨rfl, hrec'⟩ := hsent response rfl
          exact wpe_recordResponse hends.holds hrec' instanceId response

/-- **A whole attempt**: each of its turns does `Outcome`. -/
theorem wpe_processTask (hs : Holds task.taskId.1 s) (hnil : s.recorded = []) (hv : task.Valid)
    (policies : PolicyRegistry) :
    (processTask settings policies task).wpe (terms settings task)
      (fun fs _ t₀ t => Holds task.taskId.1 t ∧ Outcome settings task fs t₀ t) es s s := by
  have hcreated : ∀ text ∈ some task.createdAt, IsTime text := by
    rintro _ ⟨⟩
    exact hv.created
  obtain ⟨q, hq⟩ := secondsBetween_ok hcreated hv.started
  rw [processTask, hq, bind_eq, lift, after_done, onOk_ok]
  refine wpe_after (wpe_mono (wpe_executeStoredTask hs hnil policies) fun fs x t₀ t h => ?_)
  cases x with
  | ok a => exact ⟨h.holds, h.outcome⟩
  | error e =>
    change wpe _ (if e.isException = true then _ else _) _ _ _ _
    by_cases he : e.isException = true
    · rw [if_pos he]
      obtain ⟨rfl, hfinal⟩ := h.raised e rfl he
      exact wpe_mono (wpe_recordTaskFailureAndReconcile h.holds hfinal _ true)
        fun _ _ _ _ h => ⟨h.1.holds, h.1.outcome⟩
    · rw [if_neg he]
      exact ⟨h.holds, h.outcome⟩

end Orchestrator.AttemptTurns
