import Orchestrator.Executor
import Orchestrator.StoreSound

/-!
How many outcomes one turn of the executor loop records.

A turn is run against every choice of answers, with exceptions anywhere, and while other requests
change the store. It records exactly one outcome and lets the loop go on, except in three
situations, which `outcome_once_iff` names: a reconcile call raises something other than an HTTP
error, the release after a recorded upstream failure does, or the time of the next attempt cannot
be represented.
-/

namespace Orchestrator.Outcomes

open Lib Lib.Coro Clock Executor BackendResolver RegistryClient TaskStore

/-! ### The executor and the others -/

/-- What other requests do to the store while the executor waits. -/
def Others (c : ProxyCall) (_ : c.Answer) (s t : ExecutorState) : Prop :=
  if c.suspends then
    t.recorded = s.recorded ∧ (Sound s.store → Sound t.store) ∧ Extends s.store t.store
  else t = s

/-- What the executor itself does to the store: nothing, or it records outcomes of its task. -/
def Recording (id : String) (s t : ExecutorState) : Prop :=
  t = s ∨ t.recorded ≠ [] ∧ (Sound s.store → Sound t.store) ∧
    (∀ x, x ≠ id → t.store.tasksById.get? x = s.store.tasksById.get? x) ∧
    ∃ u, t.store.tasksById.get? id = some u ∧
      (u.state = .queued ∨ u.state = .succeeded ∨ u.state = .failed)

/-- An answer after which the loop's handler does not record another outcome. -/
def calm : ProxyEvent → Prop
  | ⟨.postReconcile _, r⟩ =>
    ∀ e, reconcileResult r = .error e → e.isHTTPError = true ∨ e.isException = false
  | ⟨.deleteLease _, r⟩ =>
    ∀ e, statusOnly r = .error e → e.isHTTPError = true ∨ e.isException = false
  | _ => True

/-- The contract of a turn. If `once`, the executor relies on calm answers once it has recorded an
outcome, and guarantees not to record another. -/
def contract (id : String) (once : Prop) : Contract ExecutorState ProxyCall ProxyCall.Answer where
  rely c r s t := Others c r s t ∧ (once → s.recorded ≠ [] → calm ⟨c, r⟩)
  guar s t := Recording id s t ∧ (once → t = s ∨ s.recorded = [])

/-- The store is sound and has a task under `id`. -/
def Holds (id : String) (s : ExecutorState) : Prop :=
  Sound s.store ∧ ∃ t, s.store.tasksById.get? id = some t

lemma Holds.others {id : String} {once : Prop} {c : ProxyCall} {r : c.Answer} {s t : ExecutorState}
    (h : Holds id s) (ho : (contract id once).rely c r s t) :
    Holds id t ∧ t.recorded = s.recorded := by
  have ho := ho.1
  rw [Others] at ho
  split at ho
  · obtain ⟨u, hu⟩ := h.2
    obtain ⟨v, hv, -⟩ := ho.2.2 id u hu
    exact ⟨⟨ho.2.1 h.1, v, hv⟩, ho.1⟩
  · subst ho
    exact ⟨h, rfl⟩

/-! ### What the calls of a turn tell -/

/-- An answer whose exceptions, if any, are ordinary ones. -/
def OrdinaryResponse (r : Except Exn HttpResponse) : Prop :=
  (∀ e, r = .error e → e.isException = true) ∧
    ∀ a e, r = .ok a → a.json = .error e → e.isException = true

def ordinary : ProxyEvent → Prop
  | ⟨.utcNow, _⟩ => True
  | ⟨.datetimeNow, _⟩ => True
  | ⟨.getRegistry, r⟩ => OrdinaryResponse r
  | ⟨.postAllocation _, r⟩ => OrdinaryResponse r
  | ⟨.postLease _, r⟩ => OrdinaryResponse r
  | ⟨.deleteLease _, r⟩ => OrdinaryResponse r
  | ⟨.postReconcile _, r⟩ => OrdinaryResponse r
  | ⟨.postExplain _, r⟩ => OrdinaryResponse r
  | ⟨.postUpstream _ _, r⟩ => OrdinaryResponse r

def reconcileHandled : ProxyEvent → Prop
  | ⟨.postReconcile _, r⟩ => ∀ e, reconcileResult r = .error e → e.isHTTPError = true
  | _ => True

def upstreamFailed : ProxyEvent → Prop
  | ⟨.postUpstream _ _, r⟩ => ∃ e : Exn, r = .error e ∧ e.isHTTPError = true
  | _ => False

def releaseRaised : ProxyEvent → Prop
  | ⟨.deleteLease _, r⟩ => ∃ e, statusOnly r = .error e ∧ e.isHTTPError = false
  | _ => False

def retryReading : ProxyEvent → Option DateTime
  | ⟨.datetimeNow, t⟩ => some t
  | _ => none

/-- Every exception that a call raised is an ordinary one. -/
def Ordinary (es : List ProxyEvent) : Prop := ∀ e ∈ es, ordinary e

/-- No reconcile call ended in an exception other than an HTTP error. -/
def ReconcileHandled (es : List ProxyEvent) : Prop := ∀ e ∈ es, reconcileHandled e

/-- The upstream request ended in an HTTP error. -/
def UpstreamFailed (es : List ProxyEvent) : Prop := ∃ e ∈ es, upstreamFailed e

/-- The release of the lease ended in an exception other than an HTTP error. -/
def ReleaseRaised (es : List ProxyEvent) : Prop := ∃ e ∈ es, releaseRaised e

/-- The clock readings from which times of next attempts were computed, in order. -/
def retryReadings (es : List ProxyEvent) : List DateTime := es.filterMap retryReading

/-- The time of the next attempt after a failure at `now` is within the range of `datetime`. -/
def Representable (settings : Settings) (task : StoredTask) (now : DateTime) : Prop :=
  ∃ next, retryAt settings task.attemptCount now = .ok next

lemma ordinary_append {es fs : List ProxyEvent} :
    Ordinary (es ++ fs) ↔ Ordinary es ∧ Ordinary fs := List.forall_mem_append

lemma reconcileHandled_append {es fs : List ProxyEvent} :
    ReconcileHandled (es ++ fs) ↔ ReconcileHandled es ∧ ReconcileHandled fs :=
      List.forall_mem_append

lemma upstreamFailed_append {es fs : List ProxyEvent} :
    UpstreamFailed (es ++ fs) ↔ UpstreamFailed es ∨ UpstreamFailed fs := by
  simp only [UpstreamFailed, List.mem_append, or_and_right, exists_or]

lemma releaseRaised_append {es fs : List ProxyEvent} :
    ReleaseRaised (es ++ fs) ↔ ReleaseRaised es ∨ ReleaseRaised fs := by
  simp only [ReleaseRaised, List.mem_append, or_and_right, exists_or]

lemma retryReadings_append (es fs : List ProxyEvent) :
    retryReadings (es ++ fs) = retryReadings es ++ retryReadings fs := List.filterMap_append

/-- Calls that neither post upstream, nor release, nor schedule a retry. -/
structure Silent (es : List ProxyEvent) : Prop where
  upstream : ¬UpstreamFailed es
  release : ¬ReleaseRaised es
  retry : retryReadings es = []

lemma silent_nil : Silent [] := ⟨by simp [UpstreamFailed], by simp [ReleaseRaised], rfl⟩

lemma Silent.append {es fs : List ProxyEvent} (h : Silent es) (h' : Silent fs) :
    Silent (es ++ fs) := by
  refine ⟨?_, ?_, ?_⟩
  · rw [upstreamFailed_append, not_or]; exact ⟨h.upstream, h'.upstream⟩
  · rw [releaseRaised_append, not_or]; exact ⟨h.release, h'.release⟩
  · rw [retryReadings_append, h.retry, h'.retry]; rfl

lemma reconcileHandled_nil : ReconcileHandled [] := by simp [ReconcileHandled]

/-- The result is an exception, and an ordinary one if those of the calls are. -/
def Raised {α : Type} (es : List ProxyEvent) (x : Except Exn α) : Prop :=
  ∃ e, x = .error e ∧ (Ordinary es → e.isException = true)

lemma Raised.append {α : Type} {es fs : List ProxyEvent} {x : Except Exn α} (h : Raised fs x) :
    Raised (es ++ fs) x := by
  obtain ⟨e, rfl, he⟩ := h
  exact ⟨e, rfl, fun ho => he (ordinary_append.mp ho).2⟩

/-- If `once`, the result is no exception that the loop handles. -/
def Escapes {α : Type} (once : Prop) (x : Except Exn α) : Prop :=
  once → ∀ e, x = .error e → e.isException = false

/-! ### Capacity and outcomes -/

lemma raiseForStatus_error {a : HttpResponse} {e : Exn} (h : raiseForStatus a = .error e) :
    e.isHTTPError = true ∧ e.isException = true := by
  rw [raiseForStatus] at h
  split at h
  · cases h
  · cases h
    exact ⟨rfl, rfl⟩

lemma raiseForStatus_ok {a b : HttpResponse} (h : raiseForStatus a = .ok b) : b = a := by
  rw [raiseForStatus] at h
  split at h
  · cases h; rfl
  · cases h

lemma reconcileResult_ordinary {r : Except Exn HttpResponse} (hr : OrdinaryResponse r) {e : Exn}
    (h : reconcileResult r = .error e) : e.isException = true := by
  rw [reconcileResult, bind_eq_error] at h
  rcases h with rfl | ⟨a, rfl, h⟩
  · exact hr.1 e rfl
  · rw [bind_eq_error] at h
    rcases h with h | ⟨b, hb, h⟩
    · exact (raiseForStatus_error h).2
    · rw [raiseForStatus_ok hb] at h
      exact hr.2 a e rfl h

variable {settings : Settings} {id : String} {once : Prop} {s : ExecutorState}

/-- A reconcile of the current queues leaves the outcomes alone, and returns exactly if it is
handled. -/
lemma wp_reconcile (hs : Holds id s) (hrec : s.recorded ≠ []) :
    (reconcileCurrentTaskCapacity settings).wp (contract id once) (fun es x t =>
      (Holds id t ∧ t.recorded = s.recorded) ∧ Silent es ∧
        ((∃ a, x = .ok a) ∧ ReconcileHandled es ∨
          Raised es x ∧ ¬ReconcileHandled es ∧ Escapes once x)) s := by
  obtain ⟨plans, hplans⟩ := hs.1.contextPlans_ok
  rw [reconcileCurrentTaskCapacity, wp_get, hplans, bind_eq, lift, after_done, onOk_ok,
    reconcileCapacity]
  split
  · exact ⟨⟨hs, rfl⟩, silent_nil, Or.inl ⟨⟨_, rfl⟩, reconcileHandled_nil⟩⟩
  · rw [exceptHTTP, RegistryClient.reconcile, after_call, wp_call]
    refine fun (r : Except Exn HttpResponse) t ho => ?_
    have hsilent : Silent [⟨.postReconcile (reconcilePayload s.store.queueLengthsByModel plans),
      r⟩] :=
      ⟨by simp [UpstreamFailed, upstreamFailed], by simp [ReleaseRaised, releaseRaised], rfl⟩
    cases hx : reconcileResult r with
    | ok a =>
      refine ⟨hs.others ho, hsilent, Or.inl ⟨⟨_, rfl⟩, ?_⟩⟩
      simp [ReconcileHandled, reconcileHandled, hx]
    | error e =>
      by_cases he : e.isHTTPError = true
      · simp only [lift, after_done, he, if_true]
        refine ⟨hs.others ho, hsilent, Or.inl ⟨⟨_, rfl⟩, ?_⟩⟩
        simp [ReconcileHandled, reconcileHandled, hx, he]
      · simp only [lift, after_done, he]
        refine ⟨hs.others ho, hsilent, Or.inr ⟨⟨e, rfl, fun hord => ?_⟩, ?_, fun ho' => ?_⟩⟩
        · exact reconcileResult_ordinary (hord _ (List.mem_singleton.mpr rfl)) hx
        · simp [ReconcileHandled, reconcileHandled, hx, he]
        · rintro _ ⟨⟩
          exact (ho.2 ho' hrec e hx).resolve_left he

/-- Recording an outcome of a task that is there. -/
lemma wp_record {o : Recorded} (f : StoredTask → StoredTask) (hid : ∀ t, (f t).taskId = t.taskId)
    (hp : ∀ t, (f t).pair = t.pair) (hv : ∀ t, t.Valid → (f t).Valid)
    (hstate : ∀ t, (f t).state = .queued ∨ (f t).state = .succeeded ∨ (f t).state = .failed)
    (hs : Holds id s) (hrec : once → s.recorded = [])
    {Q : List ProxyEvent → Except Exn StoredTask → ExecutorState → Prop}
    (hQ : ∀ t u, t.Valid → Holds id u → u.recorded = s.recorded ++ [o] → Q [] (.ok t) u) :
    (record o (TaskStore.modify id f)).wp (contract id once) Q s := by
  obtain ⟨t, ht⟩ := hs.2
  rw [record, wp_get]
  rcases hm : s.store.modify id f with ⟨r, store⟩
  rcases modify_cases hid hp hm with ⟨-, -, hn⟩ | ⟨u, rfl, hu⟩
  · rw [hn] at ht; cases ht
  · have hvalid := hv u (hs.1.valid hu.before)
    refine ⟨⟨Or.inr ⟨by simp, fun h => hu.sound h hvalid, fun x hx => hu.get?_ne hx, f u,
      hu.get?_self, hstate u⟩, fun ho => Or.inr (hrec ho)⟩, ?_⟩
    exact hQ _ _ hvalid ⟨hu.sound hs.1 hvalid, _, hu.get?_self⟩ rfl

/-! ### Recording a failure -/

/-- The retry readings of one recorded failure. -/
def ReadingOk (settings : Settings) (task : StoredTask) (retryable : Bool) (es : List ProxyEvent) :
    Prop :=
  if willRetry settings task retryable then
    ∃ now, retryReadings es = [now] ∧ Representable settings task now
  else retryReadings es = []

/-- How an attempt to record a failure and to reconcile ends, when `n` outcomes were recorded
before it. -/
inductive Attempt (once : Prop) (settings : Settings) (task : StoredTask) (retryable : Bool) (n : ℕ)
    (es : List ProxyEvent) (x : Except Exn Unit) (t : ExecutorState) : Prop
  | done (result : x = .ok ()) (recorded : t.recorded.length = n + 1)
      (handled : ReconcileHandled es) (reading : ReadingOk settings task retryable es)
  | unreconciled (raised : Raised es x) (recorded : t.recorded.length = n + 1)
      (unhandled : ¬ReconcileHandled es) (reading : ReadingOk settings task retryable es)
      (escapes : Escapes once x)
  | unrepresentable (raised : Raised es x) (recorded : t.recorded.length = n)
      (handled : ReconcileHandled es) (retry : willRetry settings task retryable = true)
      (now : DateTime)
      (reading : retryReadings es = [now]) (range : ¬Representable settings task now)

variable {task : StoredTask}

lemma retryAt_ordinary {n : ℕ} {now : DateTime} {e : Exn} (h : retryAt settings n now = .error e) :
    e.isException = true := by
  rw [retryAt, bind_eq_error] at h
  rcases h with h | ⟨delay, -, h⟩
  · simp only [retryDelaySeconds] at h
    split at h
    · cases h; rfl
    · cases h
  rw [bind_eq_error, addSeconds] at h
  rcases h with h | ⟨next, -, h⟩
  · split at h
    · cases h
    · cases h; rfl
  · cases h

/-- **Recording a failure** either records one outcome, or raises because the time of the next
attempt cannot be represented. -/
lemma wp_recordTaskFailure (hs : Holds task.taskId.1 s) (hrec : once → s.recorded = [])
    (error : Mapping) (retryable : Bool) :
    (recordTaskFailure settings task error retryable).wp (contract task.taskId.1 once)
    (fun es x t =>
      Holds task.taskId.1 t ∧ ReconcileHandled es ∧ ¬UpstreamFailed es ∧ ¬ReleaseRaised es ∧
        ((∃ a, x = .ok a) ∧ t.recorded.length = s.recorded.length + 1 ∧
            ReadingOk settings task retryable es ∨
          Raised es x ∧ t.recorded.length = s.recorded.length ∧
            willRetry settings task retryable = true ∧
            ∃ now, retryReadings es = [now] ∧ ¬Representable settings task now)) s := by
  rw [recordTaskFailure]
  by_cases hw : willRetry settings task retryable = true
  · rw [if_pos hw, recordTaskRetry, wp_call]
    refine fun (now : DateTime) s₁ ho => ?_
    obtain ⟨hs₁, hr₁⟩ := hs.others ho
    cases hnext : retryAt settings task.attemptCount now with
    | error e =>
      refine ⟨hs₁, by simp [ReconcileHandled, reconcileHandled],
        by simp [UpstreamFailed, upstreamFailed], by simp [ReleaseRaised, releaseRaised],
        Or.inr ⟨⟨e, rfl, fun _ => ?_⟩, by rw [hr₁], hw, now, rfl, ?_⟩⟩
      · exact retryAt_ordinary hnext
      · rintro ⟨next, h⟩
        rw [hnext] at h
        cases h
    | ok at_ =>
      obtain ⟨delay, next⟩ := at_
      rw [bind_eq, lift, after_done, onOk_ok, wp_call]
      refine fun (later : DateTime) s₂ ho₂ => ?_
      obtain ⟨hs₂, hr₂⟩ := hs₁.others ho₂
      refine wp_record (retried later _ (nowIso next)) (fun _ => rfl) (fun _ => rfl)
        (fun t ht => ht.retried later next _) (fun _ => Or.inl rfl) hs₂
        (by rwa [hr₂, hr₁]) fun t u _ hu hrec => ?_
      refine ⟨hu, by simp [ReconcileHandled, reconcileHandled],
        by simp [UpstreamFailed, upstreamFailed], by simp [ReleaseRaised, releaseRaised],
        Or.inl ⟨⟨t, rfl⟩, by rw [hrec, hr₂, hr₁]; simp, ?_⟩⟩
      rw [ReadingOk, if_pos hw]
      exact ⟨now, rfl, _, hnext⟩
  · rw [if_neg hw, recordTaskError, wp_call]
    refine fun (now : DateTime) s₁ ho => ?_
    obtain ⟨hs₁, hr₁⟩ := hs.others ho
    rw [bind_eq, wp_after]
    refine wp_record (failed now _) (fun _ => rfl) (fun _ => rfl) (fun t ht => ht.failed now _)
      (fun _ => Or.inr (Or.inr rfl)) hs₁ (by rwa [hr₁]) fun t u ht hu hrec => ?_
    obtain ⟨q, hq⟩ := secondsBetween_ok ht.started ht.finished
    rw [onOk_ok, hq]
    refine ⟨hu, by simp [ReconcileHandled, reconcileHandled],
      by simp [UpstreamFailed, upstreamFailed], by simp [ReleaseRaised, releaseRaised],
      Or.inl ⟨⟨t, rfl⟩, by rw [hrec, hr₁]; simp, ?_⟩⟩
    rw [ReadingOk, if_neg hw]
    rfl

lemma readingOk_append {retryable : Bool} {es fs : List ProxyEvent} (hf : retryReadings fs = []) :
    ReadingOk settings task retryable (es ++ fs) ↔ ReadingOk settings task retryable es := by
  rw [ReadingOk, ReadingOk, retryReadings_append, hf, List.append_nil]

/-- A failure is recorded and the capacity reconciled in one of three ways. -/
lemma wp_recordTaskFailureAndReconcile (hs : Holds task.taskId.1 s)
    (hfree : once → s.recorded = []) (error : Mapping) (retryable : Bool) :
    (recordTaskFailureAndReconcile settings task error retryable).wp (contract task.taskId.1 once)
      (fun es x t => Holds task.taskId.1 t ∧ (¬UpstreamFailed es ∧ ¬ReleaseRaised es) ∧
        Attempt once settings task retryable s.recorded.length es x t) s := by
  rw [recordTaskFailureAndReconcile, bind_eq, wp_after]
  refine wp_mono (wp_recordTaskFailure hs hfree error retryable) fun es x t h => ?_
  obtain ⟨ht, hh, hu, hl, ⟨⟨a, rfl⟩, hrec, hread⟩ | ⟨hraised, hrec, hw, now, hnow, hrange⟩⟩ := h
  · rw [onOk_ok, bind_eq, wp_after]
    have hne : t.recorded ≠ [] := by
      intro h0
      rw [h0] at hrec
      simp at hrec
    refine wp_mono (wp_reconcile ht hne) fun fs y u h => ?_
    obtain ⟨⟨hu', hrec'⟩, hsil, h⟩ := h
    have hflags : ¬UpstreamFailed (es ++ fs) ∧ ¬ReleaseRaised (es ++ fs) := by
      rw [upstreamFailed_append, releaseRaised_append, not_or, not_or]
      exact ⟨⟨hu, hsil.upstream⟩, hl, hsil.release⟩
    rw [← hrec'] at hrec
    rw [← readingOk_append hsil.retry] at hread
    rcases h with ⟨⟨b, rfl⟩, hok⟩ | ⟨hraised, hbad, hesc⟩
    · rw [onOk_ok, pure_eq, wp_done, List.append_nil]
      exact ⟨hu', hflags, .done rfl hrec (reconcileHandled_append.mpr ⟨hh, hok⟩) hread⟩
    · obtain ⟨e, rfl, he⟩ := hraised
      rw [onOk_error, wp_done, List.append_nil]
      refine ⟨hu', hflags, .unreconciled (Raised.append ⟨e, rfl, he⟩) hrec ?_ hread fun ho => ?_⟩
      · rw [reconcileHandled_append]
        exact fun h => hbad h.2
      · rintro _ ⟨⟩
        exact hesc ho e rfl
  · obtain ⟨e, rfl, he⟩ := hraised
    rw [onOk_error, wp_done, List.append_nil]
    exact ⟨ht, ⟨hu, hl⟩, .unrepresentable ⟨e, rfl, he⟩ hrec hh hw now hnow hrange⟩

/-! ### Routing -/

/-- Calls that a turn's outcome does not depend on. -/
structure Unrelated (es : List ProxyEvent) : Prop where
  silent : Silent es
  handled : ReconcileHandled es

lemma Unrelated.nil : Unrelated [] := ⟨silent_nil, reconcileHandled_nil⟩

lemma Unrelated.append {es fs : List ProxyEvent} (h : Unrelated es) (h' : Unrelated fs) :
    Unrelated (es ++ fs) :=
  ⟨h.silent.append h'.silent, reconcileHandled_append.mpr ⟨h.handled, h'.handled⟩⟩

/-- `p` makes only unrelated calls, and raises only ordinary exceptions if those of its calls
are ordinary and `P` holds. -/
def Routes {α : Type} (id : String) (once P : Prop) (p : Proxy ExecutorState α) : Prop :=
  ∀ s, Holds id s → p.wp (contract id once) (fun es x t => (Holds id t ∧ t.recorded = s.recorded) ∧
    Unrelated es ∧ ((∃ a, x = .ok a) ∨
      ∃ e, x = .error e ∧ (Ordinary es → P → e.isException = true))) s

section Routes

variable {α β : Type} {P : Prop}

lemma routes_ok (a : α) : Routes id once P (pure a : Proxy ExecutorState α) :=
  fun _ hs => ⟨⟨hs, rfl⟩, Unrelated.nil, Or.inl ⟨a, rfl⟩⟩

lemma routes_raise {e : Exn} (h : P → e.isException = true) :
    Routes id once P (raise e : Proxy ExecutorState α) :=
  fun _ hs => ⟨⟨hs, rfl⟩, Unrelated.nil, Or.inr ⟨e, rfl, fun _ hP => h hP⟩⟩

lemma routes_after {p : Proxy ExecutorState α} {k : Except Exn α → Proxy ExecutorState β}
    (hp : Routes id once P p) (hok : ∀ a, Routes id once P (k (.ok a)))
    (herr : ∀ e, Routes id once (e.isException = true) (k (.error e))) :
    Routes id once P (p.after k) := by
  intro s hs
  rw [wp_after]
  refine wp_mono (hp s hs) fun es x t h => ?_
  obtain ⟨⟨ht, hrec⟩, hun, ⟨a, rfl⟩ | ⟨e, rfl, he⟩⟩ := h
  · refine wp_mono (hok a t ht) fun fs y u h => ?_
    obtain ⟨⟨hu, hrec'⟩, hun', h⟩ := h
    refine ⟨⟨hu, hrec'.trans hrec⟩, hun.append hun', h.imp_right ?_⟩
    rintro ⟨e, rfl, he⟩
    exact ⟨e, rfl, fun ho => he (ordinary_append.mp ho).2⟩
  · refine wp_mono (herr e t ht) fun fs y u h => ?_
    obtain ⟨⟨hu, hrec'⟩, hun', h⟩ := h
    refine ⟨⟨hu, hrec'.trans hrec⟩, hun.append hun', h.imp_right ?_⟩
    rintro ⟨e', rfl, he'⟩
    refine ⟨e', rfl, fun ho hP => ?_⟩
    rw [ordinary_append] at ho
    exact he' ho.2 (he ho.1 hP)

/-- A call of the registry client other than a release or a reconcile. -/
lemma routes_call {c : ProxyCall} {f : c.Answer → Except Exn α}
    (hc : ∀ r, Unrelated [⟨c, r⟩])
    (hf : ∀ r e, ordinary ⟨c, r⟩ → f r = .error e → e.isException = true) :
    Routes id once P (.call c fun r => lift (f r)) := by
  intro s hs r t ho
  refine ⟨hs.others ho, hc r, ?_⟩
  cases hx : f r with
  | ok a => exact Or.inl ⟨a, rfl⟩
  | error e => exact Or.inr ⟨e, rfl, fun hord _ => hf r e (hord _ (List.mem_singleton.mpr rfl)) hx⟩

lemma routes_exceptHTTP {p : Proxy ExecutorState α} {h : Exn → Proxy ExecutorState β}
    {k : α → Proxy ExecutorState β} (hp : Routes id once P p)
    (hh : ∀ e, Routes id once (e.isException = true) (h e))
    (hk : ∀ a, Routes id once P (k a)) : Routes id once P (exceptHTTP p h k) := by
  refine routes_after hp hk fun e => ?_
  show Routes id once _ (if e.isHTTPError then h e else raise e)
  split
  · exact hh e
  · exact routes_raise fun h => h

end Routes

lemma toInt_ordinary {x : Json} {e : Exn} (h : x.toInt = .error e) : e.isException = true := by
  cases x with
  | float x =>
    obtain ⟨text, value⟩ := x
    cases value <;> cases h <;> rfl
  | str text =>
    rw [Json.toInt] at h
    split at h
    · cases h
    · cases h
      rfl
  | int n => cases h
  | bool b => cases h
  | null | arr l | obj m =>
    cases h
    rfl

lemma parseEach_ordinary {l : List Json} {e : Exn} (h : ProxyInstance.parseEach l = .error e) :
    e.isException = true := by
  induction l with
  | nil => cases h
  | cons x l ih =>
    cases x with
    | obj item =>
      rw [ProxyInstance.parseEach, bind_eq_error] at h
      rcases h with h | ⟨i, -, h⟩
      · rw [ProxyInstance.parse, bind_eq_error] at h
        rcases h with h | ⟨n, -, h⟩
        · exact toInt_ordinary h
        · cases h
      · rw [bind_eq_error] at h
        rcases h with h | ⟨is, -, h⟩
        · exact ih h
        · cases h
    | _ => exact ih h

lemma parseRegistryInstances_ordinary {x : Json} {e : Exn}
    (h : ProxyInstance.parseRegistryInstances x = .error e) : e.isException = true := by
  unfold ProxyInstance.parseRegistryInstances at h
  split at h
  · split at h
    · exact parseEach_ordinary h
    · cases h
  · cases h
    rfl

lemma statusOnly_ordinary {r : Except Exn HttpResponse} (hr : OrdinaryResponse r) {e : Exn}
    (h : statusOnly r = .error e) : e.isException = true := by
  rw [statusOnly, bind_eq_error] at h
  rcases h with rfl | ⟨a, rfl, h⟩
  · exact hr.1 e rfl
  · rw [bind_eq_error] at h
    rcases h with h | ⟨b, -, h⟩
    · exact (raiseForStatus_error h).2
    · cases h

lemma allocationResult_ordinary {r : Except Exn HttpResponse} (hr : OrdinaryResponse r) {e : Exn}
    (h : allocationResult r = .error e) : e.isException = true := by
  rw [allocationResult, bind_eq_error] at h
  rcases h with rfl | ⟨a, rfl, h⟩
  · exact hr.1 e rfl
  split at h
  · cases h
  rw [bind_eq_error] at h
  rcases h with h | ⟨b, hb, h⟩
  · exact (raiseForStatus_error h).2
  rw [raiseForStatus_ok hb, bind_eq_error] at h
  rcases h with h | ⟨data, -, h⟩
  · exact hr.2 a e rfl h
  split at h
  · split at h
    · rw [bind_eq_error] at h
      rcases h with h | ⟨is, -, h⟩
      · exact parseRegistryInstances_ordinary h
      · cases h
    · cases h
  · cases h
    rfl

lemma listInstances_ordinary {r : Except Exn HttpResponse} (hr : OrdinaryResponse r) {e : Exn}
    (h : (do
      let response ← r
      let response ← raiseForStatus response
      let payload ← response.json
      ProxyInstance.parseRegistryInstances payload) = .error e) : e.isException = true := by
  rw [bind_eq_error] at h
  rcases h with rfl | ⟨a, rfl, h⟩
  · exact hr.1 e rfl
  rw [bind_eq_error] at h
  rcases h with h | ⟨b, hb, h⟩
  · exact (raiseForStatus_error h).2
  rw [raiseForStatus_ok hb, bind_eq_error] at h
  rcases h with h | ⟨data, -, h⟩
  · exact hr.2 a e rfl h
  · exact parseRegistryInstances_ordinary h

lemma routes_leaseChosen (backend : ProxyInstance) {P : Prop} :
    Routes id once P (leaseChosen settings backend) := by
  refine routes_exceptHTTP (routes_call ?_ fun r e hr he => statusOnly_ordinary hr he)
    (fun _ => routes_ok _) (fun _ => routes_ok _)
  intro r
  exact ⟨⟨by simp [UpstreamFailed, upstreamFailed], by simp [ReleaseRaised, releaseRaised], rfl⟩,
    by simp [ReconcileHandled, reconcileHandled]⟩

lemma routes_ensureAllocation (model : String) (orchestration : Mapping) {P : Prop} :
    Routes id once P (BackendResolver.ensureAllocation model orchestration) := by
  refine routes_after (routes_call ?_ fun r e hr he => allocationResult_ordinary hr he)
    (fun _ => routes_ok _) fun e => ?_
  · intro r
    exact ⟨⟨by simp [UpstreamFailed, upstreamFailed], by simp [ReleaseRaised, releaseRaised], rfl⟩,
      by simp [ReconcileHandled, reconcileHandled]⟩
  · show Routes id once _ (allocationFailed e)
    rw [allocationFailed]
    split
    · split
      · exact routes_raise fun _ => rfl
      · exact routes_ok _
    · exact routes_ok _
    · exact routes_raise fun h => h

/-- **Routing** makes only unrelated calls. -/
lemma routes_resolve (model : String) (orchestration : Mapping) :
    Routes id once True (resolve settings model orchestration) := by
  rw [resolve]
  split
  · exact routes_ok _
  refine routes_exceptHTTP ?_ (fun _ => routes_ok _) fun chosen => ?_
  · refine routes_after (routes_call ?_ fun r e hr he => listInstances_ordinary hr he)
      (fun _ => routes_ok _) fun e => routes_raise fun h => h
    intro r
    exact ⟨⟨by simp [UpstreamFailed, upstreamFailed], by simp [ReleaseRaised, releaseRaised], rfl⟩,
      by simp [ReconcileHandled, reconcileHandled]⟩
  · cases chosen with
    | some backend => exact routes_leaseChosen backend
    | none =>
      refine routes_after (routes_ensureAllocation model orchestration)
        (fun found => ?_) fun e => ?_
      · cases found with
        | none => exact routes_ok _
        | some backend =>
          show Routes id once _ (if backend.isReady then leaseChosen settings backend
            else pure (fallback settings))
          split
          · exact routes_leaseChosen backend
          · exact routes_ok _
      · show Routes id once _
          (if e.kind = .allocationUnavailable then pure (none, none) else raise e)
        split
        · exact routes_ok _
        · exact routes_raise fun h => h

/-! ### The execution of a task -/

/-- How the execution of a task ends, when `n` outcomes were recorded before it. -/
inductive Execution (once : Prop) (settings : Settings) (task : StoredTask) (n : ℕ)
    (es : List ProxyEvent)
    (x : Except Exn Unit) (t : ExecutorState) : Prop
  | done (result : x = .ok ()) (recorded : t.recorded.length = n + 1)
      (handled : ReconcileHandled es) (released : ¬(UpstreamFailed es ∧ ReleaseRaised es))
      (reading : ∀ now ∈ retryReadings es, Representable settings task now)
  | early (raised : Raised es x) (recorded : t.recorded.length = n)
      (handled : ReconcileHandled es) (released : ¬(UpstreamFailed es ∧ ReleaseRaised es))
      (reading : retryReadings es = [])
  | unrepresentable (raised : Raised es x) (recorded : t.recorded.length = n)
      (handled : ReconcileHandled es) (retry : willRetry settings task true = true)
      (now : DateTime) (reading : retryReadings es = [now])
      (range : ¬Representable settings task now)
  | unreconciled (raised : Raised es x) (recorded : t.recorded.length = n + 1)
      (unhandled : ¬ReconcileHandled es) (escapes : Escapes once x)
  | unreleased (raised : Raised es x) (recorded : t.recorded.length = n + 1)
      (upstream : UpstreamFailed es) (release : ReleaseRaised es)
      (reading : ReadingOk settings task true es) (escapes : Escapes once x)

lemma ReadingOk.representable {retryable : Bool} {es : List ProxyEvent}
    (h : ReadingOk settings task retryable es) :
    ∀ now ∈ retryReadings es, Representable settings task now := by
  rw [ReadingOk] at h
  split at h
  · obtain ⟨now, hr, hn⟩ := h
    rw [hr]
    simpa using hn
  · rw [h]
    simp

lemma willRetry_true {retryable : Bool} (h : willRetry settings task retryable = true) :
    willRetry settings task true = true := by
  simp only [willRetry, Bool.and_eq_true, Bool.true_and] at h ⊢
  exact h.2

lemma Attempt.execution {retryable : Bool} {n : ℕ} {es : List ProxyEvent} {x : Except Exn Unit}
    {t : ExecutorState} (h : Attempt once settings task retryable n es x t)
    (hu : ¬UpstreamFailed es) :
    Execution once settings task n es x t := by
  have hflags : ¬(UpstreamFailed es ∧ ReleaseRaised es) := fun h => hu h.1
  cases h with
  | done result recorded handled reading =>
    exact .done result recorded handled hflags reading.representable
  | unreconciled raised recorded unhandled reading escapes =>
    exact .unreconciled raised recorded unhandled escapes
  | unrepresentable raised recorded handled retry now reading range =>
    exact .unrepresentable raised recorded handled (willRetry_true retry) now reading range

lemma Execution.append {n : ℕ} {es fs : List ProxyEvent} {x : Except Exn Unit} {t : ExecutorState}
    (hun : Unrelated es) (h : Execution once settings task n fs x t) :
    Execution once settings task n (es ++ fs) x t := by
  have hr : retryReadings (es ++ fs) = retryReadings fs := by
    rw [retryReadings_append, hun.silent.retry, List.nil_append]
  have hup : UpstreamFailed (es ++ fs) ↔ UpstreamFailed fs := by
    rw [upstreamFailed_append, or_iff_right hun.silent.upstream]
  have hre : ReleaseRaised (es ++ fs) ↔ ReleaseRaised fs := by
    rw [releaseRaised_append, or_iff_right hun.silent.release]
  have hh : ReconcileHandled (es ++ fs) ↔ ReconcileHandled fs := by
    rw [reconcileHandled_append, and_iff_right hun.handled]
  cases h with
  | done result recorded handled released reading =>
    exact .done result recorded (hh.mpr handled) (by rwa [hup, hre]) (by rwa [hr])
  | early raised recorded handled released reading =>
    exact .early raised.append recorded (hh.mpr handled) (by rwa [hup, hre]) (by rwa [hr])
  | unrepresentable raised recorded handled retry now reading range =>
    exact .unrepresentable raised.append recorded (hh.mpr handled) retry now (by rwa [hr]) range
  | unreconciled raised recorded unhandled escapes =>
    exact .unreconciled raised.append recorded (by rwa [hh]) escapes
  | unreleased raised recorded upstream release reading escapes =>
    exact .unreleased raised.append recorded (hup.mpr upstream) (hre.mpr release)
      (by rw [ReadingOk, hr]; exact reading) escapes

/-- The release of a lease returns unless its answer is no HTTP error. -/
lemma wp_release (hs : Holds id s) (instanceId : Option String) :
    (release settings instanceId).wp (contract id once) (fun es x t =>
      (Holds id t ∧ t.recorded = s.recorded) ∧ ReconcileHandled es ∧ ¬UpstreamFailed es ∧
        retryReadings es = [] ∧
        (x = .ok () ∧ ¬ReleaseRaised es ∨
          Raised es x ∧ ReleaseRaised es ∧ (s.recorded ≠ [] → Escapes once x))) s := by
  have hret : (pure () : Proxy ExecutorState Unit).wp (contract id once) (fun es x t =>
      (Holds id t ∧ t.recorded = s.recorded) ∧ ReconcileHandled es ∧ ¬UpstreamFailed es ∧
        retryReadings es = [] ∧
        (x = .ok () ∧ ¬ReleaseRaised es ∨
          Raised es x ∧ ReleaseRaised es ∧ (s.recorded ≠ [] → Escapes once x))) s :=
    ⟨⟨hs, rfl⟩, reconcileHandled_nil, silent_nil.upstream, rfl, Or.inl ⟨rfl, silent_nil.release⟩⟩
  cases instanceId with
  | none => exact hret
  | some i =>
    rw [release]
    split
    · exact hret
    rw [exceptHTTP, releaseBackend, after_call, wp_call]
    refine fun (r : Except Exn HttpResponse) t ho => ?_
    have hh : ReconcileHandled [⟨.deleteLease i, r⟩] := by simp [ReconcileHandled, reconcileHandled]
    have hu : ¬UpstreamFailed [⟨.deleteLease i, r⟩] := by simp [UpstreamFailed, upstreamFailed]
    cases hx : statusOnly r with
    | ok a =>
      refine ⟨hs.others ho, hh, hu, rfl, Or.inl ⟨rfl, ?_⟩⟩
      simp [ReleaseRaised, releaseRaised, hx]
    | error e =>
      simp only [lift, after_done]
      by_cases he : e.isHTTPError = true
      · rw [if_pos he]
        refine ⟨hs.others ho, hh, hu, rfl, Or.inl ⟨rfl, ?_⟩⟩
        simp [ReleaseRaised, releaseRaised, hx, he]
      · rw [if_neg he]
        refine ⟨hs.others ho, hh, hu, rfl, Or.inr ⟨⟨e, rfl, fun hord => ?_⟩, ?_, fun hne ho' => ?_⟩⟩
        · exact statusOnly_ordinary (hord _ (List.mem_singleton.mpr rfl)) hx
        · simp [ReleaseRaised, releaseRaised, hx, he]
        · rintro _ ⟨⟩
          exact (ho.2 ho' hne e hx).resolve_left he

/-- How the request and the release end: with a response, or like an execution. -/
def Sent (once : Prop) (settings : Settings) (task : StoredTask) (n : ℕ) (es : List ProxyEvent)
    (x : Except Exn (Option HttpResponse)) (t : ExecutorState) : Prop :=
  match x with
  | .ok (some r) => t.recorded.length = n ∧ Unrelated es ∧
      (Ordinary es → ∀ e, r.json = .error e → e.isException = true)
  | .ok none => Execution once settings task n es (.ok ()) t
  | .error e => Execution once settings task n es (.error e) t

lemma Attempt.append {retryable : Bool} {n : ℕ} {es fs : List ProxyEvent} {x : Except Exn Unit}
    {t : ExecutorState} (hh : ReconcileHandled es) (hr : retryReadings es = [])
    (h : Attempt once settings task retryable n fs x t) :
    Attempt once settings task retryable n (es ++ fs) x t := by
  have hreads : retryReadings (es ++ fs) = retryReadings fs := by
    rw [retryReadings_append, hr, List.nil_append]
  have hhand : ReconcileHandled (es ++ fs) ↔ ReconcileHandled fs := by
    rw [reconcileHandled_append, and_iff_right hh]
  have hok : ReadingOk settings task retryable fs →
      ReadingOk settings task retryable (es ++ fs) := by
    rw [ReadingOk, ReadingOk, hreads]
    exact id
  cases h with
  | done result recorded handled reading =>
    exact .done result recorded (hhand.mpr handled) (hok reading)
  | unreconciled raised recorded unhandled reading escapes =>
    exact .unreconciled raised.append recorded (by rwa [hhand]) (hok reading) escapes
  | unrepresentable raised recorded handled retry now reading range =>
    exact .unrepresentable raised.append recorded (hhand.mpr handled) retry now (by rwa [hreads])
      range

/-- What an attempt to record the upstream failure becomes when the lease is released. -/
lemma Attempt.released {n : ℕ} {es fs : List ProxyEvent} {x y : Except Exn Unit}
    {t u : ExecutorState} (h : Attempt once settings task true n es x t) (hup : UpstreamFailed es)
    (hre : ¬ReleaseRaised es) (hrec : u.recorded = t.recorded) (hh : ReconcileHandled fs)
    (hr : retryReadings fs = [])
    (hy : y = .ok () ∧ ¬ReleaseRaised fs ∨
      Raised fs y ∧ ReleaseRaised fs ∧ (t.recorded ≠ [] → Escapes once y)) :
    Execution once settings task n (es ++ fs) (replaced x y) u := by
  have hreads : retryReadings (es ++ fs) = retryReadings es := by
    rw [retryReadings_append, hr, List.append_nil]
  have hhand : ReconcileHandled (es ++ fs) ↔ ReconcileHandled es := by
    rw [reconcileHandled_append, and_iff_left hh]
  have hrel : ReleaseRaised (es ++ fs) ↔ ReleaseRaised fs := by
    rw [releaseRaised_append, or_iff_right hre]
  have hext : ∀ {z : Except Exn Unit}, Raised es z → Raised (es ++ fs) z := by
    rintro z ⟨e, rfl, he⟩
    exact ⟨e, rfl, fun ho => he (ordinary_append.mp ho).1⟩
  rcases hy with ⟨rfl, hno⟩ | ⟨hraised, hyes, hesc⟩
  · -- the lease is released, and the attempt decides
    cases h with
    | done result recorded handled reading =>
      refine .done result (by rw [hrec, recorded]) (hhand.mpr handled) ?_ ?_
      · rw [hrel]; exact fun h => hno h.2
      · rw [hreads]; exact reading.representable
    | unreconciled raised recorded unhandled reading escapes =>
      exact .unreconciled (hext raised) (by rw [hrec, recorded]) (by rwa [hhand]) escapes
    | unrepresentable raised recorded handled retry now reading range =>
      exact .unrepresentable (hext raised) (by rw [hrec, recorded]) (hhand.mpr handled) retry now
        (by rwa [hreads]) range
  · -- the release raises, and replaces the result of the attempt
    have hraised' : Raised (es ++ fs) (replaced x y) := by
      obtain ⟨e, rfl, he⟩ := hraised
      exact ⟨e, rfl, fun ho => he (ordinary_append.mp ho).2⟩
    have hesc' : t.recorded.length = n + 1 → Escapes once (replaced x y) := by
      intro hlen ho e he
      cases y with
      | ok a => exact absurd hraised (by rintro ⟨e, ⟨⟩, -⟩)
      | error e' => exact hesc (by intro h0; rw [h0] at hlen; simp at hlen) ho e he
    cases h with
    | done result recorded handled reading =>
      refine .unreleased hraised' (by rw [hrec, recorded]) ?_ (hrel.mpr hyes) ?_ (hesc' recorded)
      · exact upstreamFailed_append.mpr (Or.inl hup)
      · exact (readingOk_append hr).mpr reading
    | unreconciled raised recorded unhandled reading escapes =>
      exact .unreconciled hraised' (by rw [hrec, recorded]) (by rwa [hhand]) (hesc' recorded)
    | unrepresentable raised recorded handled retry now reading range =>
      exact .unrepresentable hraised' (by rw [hrec, recorded]) (hhand.mpr handled) retry now
        (by rwa [hreads]) range

/-- The calls of a request that did not raise an HTTP error, and of the release after it. -/
lemma unrelated_upstream {url : String} {m : Mapping} {r : Except Exn HttpResponse}
    (hr : ∀ e, r = .error e → e.isHTTPError = false) : Unrelated [⟨.postUpstream url m, r⟩] := by
  refine ⟨⟨?_, by simp [ReleaseRaised, releaseRaised], rfl⟩,
    by simp [ReconcileHandled, reconcileHandled]⟩
  rintro ⟨ev, hmem, hev⟩
  rw [List.mem_singleton] at hmem
  subst hmem
  obtain ⟨e, he, hh⟩ := hev
  rw [hr e he] at hh
  cases hh

/-- **The request**, with its handler and its `finally` clause. -/
lemma wp_postUpstream (hs : Holds task.taskId.1 s) (hfree : once → s.recorded = [])
    (policy : ModelPolicy) (baseUrl : String)
    (instanceId : Option String) :
    (postUpstream settings policy task baseUrl instanceId).wp (contract task.taskId.1 once)
      (fun es x t => Holds task.taskId.1 t ∧ Sent once settings task s.recorded.length es x t)
      s := by
  rw [postUpstream, ensuring, exceptHTTP, after_call, after_call, wp_call]
  generalize openaiUrl baseUrl task.endpoint.1 false = url
  generalize upstreamPayload policy instanceId task.payload = m
  refine fun (r : Except Exn HttpResponse) s₁ ho => ?_
  obtain ⟨hs₁, hr₁⟩ := hs.others ho
  cases r with
  | ok response =>
    change wp _ ((release settings instanceId).after _) _ s₁
    rw [wp_after]
    refine wp_mono (wp_release hs₁ instanceId) fun fs y u h => ?_
    obtain ⟨⟨hu, hrec⟩, hh, hnu, hread, hy⟩ := h
    have hun := @unrelated_upstream url m (.ok response) (by intro e h; cases h)
    rw [wp_done, List.append_nil, ← List.singleton_append]
    refine ⟨hu, ?_⟩
    rcases hy with ⟨rfl, hno⟩ | ⟨⟨e, rfl, he⟩, -, -⟩
    · refine ⟨by rw [hrec, hr₁], hun.append ⟨⟨hnu, hno, hread⟩, hh⟩, fun hord e he => ?_⟩
      exact (hord _ List.mem_cons_self).2 response e rfl he
    · refine Execution.append hun (.early ⟨e, rfl, he⟩ (by rw [hrec, hr₁]) hh ?_ hread)
      exact fun h => hnu h.1
  | error e =>
    by_cases he : e.isHTTPError = true
    · change wp _ (((if e.isHTTPError = true then _ else _ : Proxy _ _)).after _) _ s₁
      rw [if_pos he, bind_eq, after_assoc, wp_after]
      refine wp_mono (wp_recordTaskFailureAndReconcile hs₁ (by rwa [hr₁]) _ true) fun es x t h => ?_
      obtain ⟨ht, hflags, hatt⟩ := h
      rw [hr₁] at hatt
      have hstep : ∀ k : Except Exn (Option HttpResponse) →
        Proxy ExecutorState (Option HttpResponse),
          (onOk (fun _ => pure none) x).after k = k (x.map fun _ => none) := by
        intro k
        cases x <;> rfl
      rw [hstep, wp_after]
      refine wp_mono (wp_release ht instanceId) fun fs y u h => ?_
      obtain ⟨⟨hu, hrec⟩, hh, -, hread, hy⟩ := h
      rw [wp_done, List.append_nil]
      refine ⟨hu, ?_⟩
      have hup : UpstreamFailed ([⟨.postUpstream url m, .error e⟩] ++ es) :=
        ⟨_, List.mem_cons_self, e, rfl, he⟩
      have hrel : ¬ReleaseRaised ([⟨.postUpstream url m, .error e⟩] ++ es) := by
        rw [releaseRaised_append, not_or]
        exact ⟨by simp [ReleaseRaised, releaseRaised], hflags.2⟩
      have hrh : ReconcileHandled [⟨.postUpstream url m, .error e⟩] := by
        simp [ReconcileHandled, reconcileHandled]
      have hex := (hatt.append hrh rfl).released hup hrel hrec hh hread hy
      rw [← List.singleton_append, ← List.append_assoc]
      cases x with
      | ok a => cases y with
        | ok b => exact hex
        | error e' => exact hex
      | error e' => cases y with
        | ok b => exact hex
        | error e' => exact hex
    · change wp _ (((if e.isHTTPError = true then _ else _ : Proxy _ _)).after _) _ s₁
      rw [if_neg he]
      change wp _ ((release settings instanceId).after _) _ s₁
      rw [wp_after]
      refine wp_mono (wp_release hs₁ instanceId) fun fs y u h => ?_
      obtain ⟨⟨hu, hrec⟩, hh, hnu, hread, hy⟩ := h
      have hun := @unrelated_upstream url m (.error e) (by rintro _ ⟨⟩; simpa using he)
      rw [wp_done, List.append_nil, ← List.singleton_append]
      refine ⟨hu, ?_⟩
      rcases hy with ⟨rfl, hno⟩ | ⟨⟨e, rfl, he⟩, -, -⟩
      · have hall := hun.append ⟨⟨hnu, hno, hread⟩, hh⟩
        refine .early ⟨e, rfl, fun hord => ?_⟩ (by rw [hrec, hr₁]) hall.handled
          (fun h => hall.silent.upstream h.1) hall.silent.retry
        exact (hord _ List.mem_cons_self).1 e rfl
      · refine Execution.append hun (.early ⟨e, rfl, he⟩ (by rw [hrec, hr₁]) hh ?_ hread)
        exact fun h => hnu h.1

lemma responseBody_error {r : HttpResponse} {e : Exn} (h : responseBody r = .error e) :
    r.json = .error e := by
  rw [responseBody] at h
  split at h
  · cases h
  · split at h
    · cases h
    · next e' hj =>
      split at h
      · cases h
      · cases h
        exact hj

/-- What follows the response to the request, after the calls `es`. -/
lemma wp_recordResponse (hs : Holds task.taskId.1 s) (hfree : once → s.recorded = [])
    (instanceId : Option String) (response : HttpResponse) {es : List ProxyEvent}
    (hun : Unrelated es)
    (hj : Ordinary es → ∀ e, response.json = .error e → e.isException = true) :
    (recordResponse settings task instanceId response).wp (contract task.taskId.1 once)
      (fun fs x t => Holds task.taskId.1 t ∧
        Execution once settings task s.recorded.length (es ++ fs) x t) s := by
  rw [recordResponse, bind_eq, lift, after_done]
  cases hb : responseBody response with
  | error e =>
    rw [onOk_error, wp_done, List.append_nil]
    refine ⟨hs, .early ⟨e, rfl, fun ho => hj ho e (responseBody_error hb)⟩ rfl hun.handled
      (fun h => hun.silent.upstream h.1) hun.silent.retry⟩
  | ok body =>
    rw [onOk_ok]
    split
    · refine wp_mono (wp_recordTaskFailureAndReconcile hs hfree _ _) fun fs x t h => ?_
      obtain ⟨ht, hflags, hatt⟩ := h
      exact ⟨ht, .append hun (hatt.execution hflags.1)⟩
    · rw [wp_call]
      refine fun (now : DateTime) s₁ ho => ?_
      obtain ⟨hs₁, hr₁⟩ := hs.others ho
      rw [bind_eq, wp_after]
      refine wp_record (succeeded now _) (fun _ => rfl) (fun _ => rfl)
        (fun t ht => ht.succeeded now _) (fun _ => Or.inr (Or.inl rfl)) hs₁ (by rwa [hr₁])
        fun t u ht hu hrec => ?_
      obtain ⟨q, hq⟩ := secondsBetween_ok ht.started ht.finished
      have hlen : u.recorded.length = s.recorded.length + 1 := by
        rw [hrec, hr₁, List.length_append, List.length_singleton]
      rw [onOk_ok, hq, bind_eq, lift, after_done, onOk_ok, bind_eq, wp_after]
      have hne : u.recorded ≠ [] := by
        rw [hrec]
        simp
      refine wp_mono (wp_reconcile hu hne) fun fs y v h => ?_
      obtain ⟨⟨hv, hrec'⟩, hsil, h⟩ := h
      have hcall : Unrelated [(⟨.utcNow, now⟩ : ProxyEvent)] :=
        ⟨⟨by simp [UpstreamFailed, upstreamFailed], by simp [ReleaseRaised, releaseRaised], rfl⟩,
          by simp [ReconcileHandled, reconcileHandled]⟩
      rw [← hrec'] at hlen
      rcases h with ⟨⟨b, rfl⟩, hok⟩ | ⟨⟨e, rfl, he⟩, hbad, hesc⟩
      · rw [onOk_ok, pure_eq, wp_done, List.append_nil, List.nil_append,
          ← List.singleton_append]
        refine ⟨hv, .append hun (.append hcall (.done rfl hlen hok ?_ ?_))⟩
        · exact fun h => hsil.upstream h.1
        · rw [hsil.retry]; simp
      · rw [onOk_error, wp_done, List.append_nil, List.nil_append, ← List.singleton_append]
        refine ⟨hv, .append hun (.append hcall (.unreconciled ⟨e, rfl, he⟩ hlen hbad ?_))⟩
        rintro ho _ ⟨⟩
        exact hesc ho e rfl

/-- **The execution of a task.** -/
lemma wp_executeStoredTask (hs : Holds task.taskId.1 s) (hfree : once → s.recorded = [])
    (policies : PolicyRegistry) :
    (executeStoredTask settings policies task).wp (contract task.taskId.1 once) (fun es x t =>
      Holds task.taskId.1 t ∧ Execution once settings task s.recorded.length es x t) s := by
  have hfail : ∀ {s : ExecutorState} (error : Mapping) (retryable : Bool),
      Holds task.taskId.1 s → (once → s.recorded = []) →
      (recordTaskFailureAndReconcile settings task error retryable).wp (contract task.taskId.1 once)
        (fun es x t => Holds task.taskId.1 t ∧
        Execution once settings task s.recorded.length es x t) s := by
    intro s error retryable hs hfree
    refine wp_mono (wp_recordTaskFailureAndReconcile hs hfree error retryable) fun es x t h => ?_
    exact ⟨h.1, h.2.2.execution h.2.1.1⟩
  rw [executeStoredTask]
  split
  · exact hfail _ _ hs hfree
  split
  · exact hfail _ _ hs hfree
  rw [bind_eq, wp_after]
  refine wp_mono (routes_resolve _ _ s hs) fun es x t h => ?_
  obtain ⟨⟨ht, hrec⟩, hun, ⟨⟨baseUrl, instanceId⟩, rfl⟩ | ⟨e, rfl, he⟩⟩ := h
  · rw [onOk_ok]
    cases baseUrl with
    | none =>
      refine wp_mono (hfail _ true ht (by rwa [hrec])) fun fs y u h => ?_
      rw [hrec] at h
      exact ⟨h.1, .append hun h.2⟩
    | some baseUrl =>
      change wp _ (_ >>= _) _ t
      rw [bind_eq, wp_after]
      refine wp_mono (wp_postUpstream ht (by rwa [hrec]) _ baseUrl instanceId) fun fs y u h => ?_
      obtain ⟨hu, hsent⟩ := h
      rw [hrec] at hsent
      match y with
      | .ok (some response) =>
        obtain ⟨hrec', hun', hj⟩ := hsent
        rw [onOk_ok]
        refine wp_mono (wp_recordResponse hu
          (by rwa [← List.length_eq_zero_iff, hrec', List.length_eq_zero_iff]) instanceId response
          hun' hj) fun gs z v h => ?_
        rw [hrec'] at h
        exact ⟨h.1, .append hun h.2⟩
      | .ok none =>
        rw [onOk_ok, pure_eq, wp_done, List.append_nil]
        exact ⟨hu, .append hun hsent⟩
      | .error e =>
        rw [onOk_error, wp_done, List.append_nil]
        exact ⟨hu, .append hun hsent⟩
  · rw [onOk_error, wp_done, List.append_nil]
    exact ⟨ht, .early ⟨e, rfl, fun ho => he ho trivial⟩ (by rw [hrec]) hun.handled
      (fun h => hun.silent.upstream h.1) hun.silent.retry⟩

/-! ### A turn of the loop -/

/-- The condition under which a turn with the calls `es` records exactly one outcome and lets the
loop go on. -/
structure OnceCondition (settings : Settings) (task : StoredTask)
    (es : List ProxyEvent) : Prop where
  handled : ReconcileHandled es
  released : ¬(UpstreamFailed es ∧ ReleaseRaised es ∧
    ∀ now ∈ (retryReadings es).head?, Representable settings task now)
  range : ∀ now ∈ (retryReadings es).getLast?, Representable settings task now

lemma Execution.returned {n : ℕ} {es : List ProxyEvent} {t : ExecutorState}
    (h : Execution once settings task n es (.ok ()) t) :
    t.recorded.length = n + 1 ∧ OnceCondition settings task es := by
  cases h with
  | done result recorded handled released reading =>
    exact ⟨recorded, handled, fun h => released ⟨h.1, h.2.1⟩,
      fun now h => reading now (List.mem_of_mem_getLast? h)⟩
  | early raised | unrepresentable raised | unreconciled raised | unreleased raised =>
    obtain ⟨e, he, -⟩ := raised
    cases he

lemma Execution.raised {n : ℕ} {es : List ProxyEvent} {e : Exn} {t : ExecutorState}
    (h : Execution once settings task n es (.error e) t) (ho : Ordinary es) :
    e.isException = true := by
  have of : Raised es (.error e : Except Exn Unit) → e.isException = true := by
    rintro ⟨_, ⟨⟩, he⟩
    exact he ho
  cases h with
  | done result => cases result
  | early raised | unrepresentable raised | unreconciled raised | unreleased raised =>
    exact of raised

/-- The handler of the loop makes the second attempt to record an outcome. -/
lemma Execution.handled {n : ℕ} {es fs : List ProxyEvent} {e : Exn} {x : Except Exn Unit}
    {t u : ExecutorState} (h : Execution once settings task n es (.error e) t)
    (ha : Attempt once settings task true t.recorded.length fs x u) (hup : ¬UpstreamFailed fs)
    (hre : ¬ReleaseRaised fs) :
    u.recorded.length = n + 1 ∧ x = .ok () ↔ OnceCondition settings task (es ++ fs) := by
  have hup' : UpstreamFailed (es ++ fs) ↔ UpstreamFailed es := by
    rw [upstreamFailed_append, or_iff_left hup]
  have hre' : ReleaseRaised (es ++ fs) ↔ ReleaseRaised es := by
    rw [releaseRaised_append, or_iff_left hre]
  have hreads := retryReadings_append es fs
  cases ha with
  | unreconciled raised recorded unhandled reading escapes =>
    obtain ⟨e', rfl, -⟩ := raised
    refine ⟨fun h => (nomatch h.2), fun h => ?_⟩
    exact absurd (reconcileHandled_append.mp h.handled).2 unhandled
  | unrepresentable raised recorded handled retry now reading range =>
    obtain ⟨e', rfl, -⟩ := raised
    refine ⟨fun h => (nomatch h.2), fun h => absurd (h.range now ?_) range⟩
    rw [hreads, reading]
    simp
  | done result recorded handled reading =>
    rw [recorded, and_iff_left result, Nat.add_right_cancel_iff]
    -- the second outcome is the only one exactly if the first attempt recorded none
    cases h with
    | done result => cases result
    | early raised recorded handled' released reading' =>
      refine ⟨fun _ => ⟨reconcileHandled_append.mpr ⟨handled', handled⟩, ?_, ?_⟩, fun _ => recorded⟩
      · rw [hup', hre']
        exact fun h => released ⟨h.1, h.2.1⟩
      · rw [hreads, reading', List.nil_append]
        exact fun now h => reading.representable now (List.mem_of_mem_getLast? h)
    | unrepresentable raised recorded handled' retry now reading' range =>
      refine ⟨fun _ => ⟨reconcileHandled_append.mpr ⟨handled', handled⟩, ?_, ?_⟩, fun _ => recorded⟩
      · rw [hreads, reading']
        exact fun h => range (h.2.2 now rfl)
      · rw [ReadingOk, if_pos retry] at reading
        obtain ⟨now', hnow', hrep⟩ := reading
        rw [hreads, hnow']
        simpa using hrep
    | unreconciled raised recorded unhandled escapes =>
      refine ⟨fun h => by omega, fun h => ?_⟩
      exact absurd (reconcileHandled_append.mp h.handled).1 unhandled
    | unreleased raised recorded upstream release reading' escapes =>
      refine ⟨fun h => by omega, fun h =>
        absurd ⟨hup'.mpr upstream, hre'.mpr release, ?_⟩ h.released⟩
      rw [ReadingOk] at reading reading'
      rw [hreads]
      split at reading'
      · obtain ⟨now, hnow, hrep⟩ := reading'
        rw [hnow]
        simpa using hrep
      · next hw =>
        rw [if_neg hw] at reading
        rw [reading, reading']
        simp

/-- The handler records the only outcome, if `once`. -/
lemma Execution.free {es : List ProxyEvent} {e : Exn} {t : ExecutorState}
    (h : Execution once settings task 0 es (.error e) t) (he : e.isException = true) :
    once → t.recorded = [] := by
  intro ho
  cases h with
  | done result => cases result
  | early raised recorded | unrepresentable raised recorded =>
    exact List.length_eq_zero_iff.mp recorded
  | unreconciled raised recorded unhandled escapes =>
    rw [escapes ho e rfl] at he
    cases he
  | unreleased raised recorded upstream release reading escapes =>
    rw [escapes ho e rfl] at he
    cases he

lemma Attempt.recorded {retryable : Bool} {n : ℕ} {es : List ProxyEvent} {x : Except Exn Unit}
    {t : ExecutorState} (h : Attempt once settings task retryable n es x t)
    (hr : ∀ now ∈ retryReadings es, Representable settings task now) : t.recorded ≠ [] := by
  have of : t.recorded.length = n + 1 → t.recorded ≠ [] := by
    rintro hlen h0
    rw [h0] at hlen
    cases hlen
  cases h with
  | done result recorded | unreconciled raised recorded => exact of recorded
  | unrepresentable raised recorded handled retry now reading range =>
    exact absurd (hr now (by rw [reading]; exact List.mem_singleton.mpr rfl)) range

/-- What is known at the end of a turn with the calls `es`. -/
structure TurnEnd (settings : Settings) (task : StoredTask) (es : List ProxyEvent)
    (x : Except Exn Unit) (t : ExecutorState) : Prop where
  holds : Holds task.taskId.1 t
  once_iff : Ordinary es →
    (t.recorded.length = 1 ∧ x = .ok () ↔ OnceCondition settings task es)
  recorded : Ordinary es → (∀ now ∈ retryReadings es, Representable settings task now) →
    t.recorded ≠ []

/-- How a turn ends, for any choice of answers. -/
theorem wp_processTask (hs : Holds task.taskId.1 s) (h0 : s.recorded = []) (hv : task.Valid)
    (policies : PolicyRegistry) :
    (processTask settings policies task).wp (contract task.taskId.1 once)
      (TurnEnd settings task) s := by
  have hcreated : ∀ text ∈ some task.createdAt, IsTime text := by
    rintro _ ⟨⟩
    exact hv.created
  obtain ⟨q, hq⟩ := secondsBetween_ok hcreated hv.started
  rw [processTask, hq, bind_eq, lift, after_done, onOk_ok, wp_after]
  refine wp_mono (wp_executeStoredTask hs (fun _ => h0) policies) fun es x t h => ?_
  obtain ⟨ht, hex⟩ := h
  rw [h0, List.length_nil] at hex
  cases x with
  | ok a =>
    obtain ⟨hrec, honce⟩ := hex.returned
    rw [pure_eq, wp_done, List.append_nil]
    refine ⟨ht, fun _ => ⟨fun _ => honce, fun _ => ⟨hrec, rfl⟩⟩, fun _ _ hnil => ?_⟩
    rw [hnil] at hrec
    cases hrec
  | error e =>
    change wp _ (if e.isException = true then _ else _) _ t
    by_cases he : e.isException = true
    · rw [if_pos he]
      refine wp_mono (wp_recordTaskFailureAndReconcile ht (hex.free he) _ true) fun fs y u h => ?_
      obtain ⟨hu, hflags, hatt⟩ := h
      refine ⟨hu, fun _ => ?_, fun _ hr => hatt.recorded fun now hnow => hr now ?_⟩
      · have h := hex.handled hatt hflags.1 hflags.2
        rwa [Nat.zero_add] at h
      · rw [retryReadings_append]
        exact List.mem_append_right _ hnow
    · rw [if_neg he, raise, wp_done, List.append_nil]
      exact ⟨ht, fun ho => absurd (hex.raised ho) he, fun ho => absurd (hex.raised ho) he⟩

end Orchestrator.Outcomes
