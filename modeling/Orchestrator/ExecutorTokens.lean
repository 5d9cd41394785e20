import Orchestrator.ProxySystem
import Orchestrator.TokenPolicy

/-!
The payload that the durable executor posts upstream, beside what the token policy makes of the
stored payload.

The executor posts the stored payload as it is, up to the model. This is what the synchronous path
would send only where the token policy has nothing to change and nothing to reject.
-/

namespace Orchestrator.ExecutorTokens

open Lib Lib.Coro Executor BackendResolver RegistryClient Outcomes TokenPolicy ProxySystem

/-! ### The calls of the executor -/

/-- The calls that record an outcome and reconcile the capacity. -/
def Bookkeeping : ProxyCall → Prop
  | .utcNow | .datetimeNow | .postReconcile _ => True
  | _ => False

def PostsNothing : ProxyCall → Prop
  | .postUpstream _ _ => False
  | _ => True

/-- The calls that post nothing upstream but `task`'s payload. -/
def PostsPayload (policies : PolicyRegistry) (task : StoredTask) : ProxyCall → Prop
  | .postUpstream _ p => ∃ id, p = upstreamPayload (policies.resolve task.model.1) id task.payload
  | _ => True

variable {settings : Settings} {policies : PolicyRegistry} {task : StoredTask} {σ α β : Type}

lemma Bookkeeping.postsNothing {c : ProxyCall} (h : Bookkeeping c) : PostsNothing c := by
  cases c <;> trivial

lemma PostsNothing.postsPayload {c : ProxyCall} (h : PostsNothing c) :
    PostsPayload policies task c := by
  cases c <;> trivial

lemma makes_exceptHTTP {P : ProxyCall → Prop} {p : Proxy σ α} {h : Exn → Proxy σ β}
    {k : α → Proxy σ β} (hp : p.Makes P) (hh : ∀ e, (h e).Makes P) (hk : ∀ a, (k a).Makes P) :
    (exceptHTTP p h k).Makes P := by
  refine makes_after hp fun x => ?_
  cases x with
  | ok a => exact hk a
  | error e =>
    dsimp only
    split
    · exact hh e
    · trivial

lemma makes_record (outcome : Recorded) (op : TaskStore → Except Exn StoredTask × TaskStore) :
    (record outcome op).Makes Bookkeeping := by
  intro s
  dsimp only
  split <;> trivial

lemma makes_reconcileCurrentTaskCapacity :
    (reconcileCurrentTaskCapacity settings).Makes Bookkeeping := by
  intro s
  refine makes_bind trivial fun contextPlans => ?_
  rw [reconcileCapacity]
  split
  · trivial
  · exact makes_exceptHTTP ⟨trivial, fun _ => trivial⟩ (fun _ => trivial) fun _ => trivial

lemma makes_recordTaskFailure (error : Mapping) (retryable : Bool) :
    (recordTaskFailure settings task error retryable).Makes Bookkeeping := by
  rw [recordTaskFailure]
  split
  · refine ⟨trivial, fun now => makes_bind trivial fun r => ⟨trivial, fun now' => ?_⟩⟩
    exact makes_record _ _
  · exact ⟨trivial, fun now => makes_bind (makes_record _ _) fun _ =>
      makes_bind trivial fun _ => trivial⟩

lemma makes_recordTaskFailureAndReconcile (error : Mapping) (retryable : Bool) :
    (recordTaskFailureAndReconcile settings task error retryable).Makes Bookkeeping :=
  makes_bind (makes_recordTaskFailure error retryable) fun _ =>
    makes_bind makes_reconcileCurrentTaskCapacity fun _ => trivial

lemma makes_leaseChosen (backend : ProxyInstance) :
    (leaseChosen settings backend : Proxy σ _).Makes PostsNothing :=
  makes_exceptHTTP ⟨trivial, fun _ => trivial⟩ (fun _ => trivial) fun _ => trivial

lemma makes_allocateAndLease (model : String) (orchestration : Mapping) :
    (allocateAndLease settings model orchestration : Proxy σ _).Makes PostsNothing := by
  have hensure : (BackendResolver.ensureAllocation model orchestration : Proxy σ _).Makes
      PostsNothing := by
    refine makes_after ⟨trivial, fun _ => trivial⟩ fun x => ?_
    cases x with
    | ok i => trivial
    | error e =>
      dsimp only [allocationFailed]
      split
      · split <;> trivial
      · trivial
      · trivial
  refine makes_after hensure fun x => ?_
  cases x with
  | ok backend =>
    cases backend with
    | some backend =>
      dsimp only
      split
      · exact makes_leaseChosen backend
      · trivial
    | none => trivial
  | error e =>
    dsimp only
    split <;> trivial

lemma makes_resolve (model : String) (orchestration : Mapping) :
    (resolve settings model orchestration : Proxy σ _).Makes PostsNothing := by
  rw [resolve]
  split
  · trivial
  · refine makes_exceptHTTP ?_ (fun _ => trivial) fun backend => ?_
    · exact makes_bind ⟨trivial, fun _ => trivial⟩ fun _ => trivial
    · cases backend with
      | some backend => exact makes_leaseChosen backend
      | none => exact makes_allocateAndLease model orchestration

lemma makes_release (instanceId : Option String) :
    (release settings instanceId : Proxy σ _).Makes PostsNothing := by
  unfold release
  split
  · trivial
  · split
    · trivial
    · exact makes_exceptHTTP ⟨trivial, fun _ => trivial⟩ (fun _ => trivial) fun _ => trivial

lemma makes_failure (error : Mapping) (retryable : Bool) :
    (recordTaskFailureAndReconcile settings task error retryable).Makes
      (PostsPayload policies task) :=
  (makes_recordTaskFailureAndReconcile error retryable).mono fun _ h =>
    h.postsNothing.postsPayload

lemma makes_postUpstream (baseUrl : String) (instanceId : Option String) :
    (postUpstream settings (policies.resolve task.model.1) task baseUrl instanceId).Makes
      (PostsPayload policies task) := by
  refine makes_ensuring (makes_exceptHTTP ?_ (fun e => ?_) fun _ => trivial)
    ((makes_release _).mono fun _ => PostsNothing.postsPayload)
  · exact ⟨⟨instanceId, rfl⟩, fun _ => trivial⟩
  · exact makes_bind (makes_failure _ _) fun _ => trivial

lemma makes_recordResponse (instanceId : Option String) (response : HttpResponse) :
    (recordResponse settings task instanceId response).Makes Bookkeeping := by
  refine makes_bind trivial fun body => ?_
  split
  · exact makes_recordTaskFailureAndReconcile _ _
  · exact ⟨trivial, fun now => makes_bind (makes_record _ _) fun _ => makes_bind trivial fun _ =>
      makes_bind makes_reconcileCurrentTaskCapacity fun _ => trivial⟩

/-- All that the executor posts upstream is the stored payload, with the model rewritten. -/
lemma makes_executeStoredTask :
    (executeStoredTask settings policies task).Makes (PostsPayload policies task) := by
  unfold executeStoredTask
  split
  · exact makes_failure _ _
  split
  · exact makes_failure _ _
  refine makes_bind ((makes_resolve _ _).mono fun _ => PostsNothing.postsPayload) fun resolved => ?_
  obtain ⟨baseUrl, instanceId⟩ := resolved
  cases baseUrl with
  | none => exact makes_failure _ _
  | some baseUrl =>
    refine makes_bind (makes_postUpstream baseUrl instanceId) fun sent => ?_
    cases sent with
    | none => trivial
    | some response =>
      exact (makes_recordResponse instanceId response).mono fun _ h => h.postsNothing.postsPayload

/-! ### The token limits of the posted payload -/

/-- The posted payload is what the token policy makes of the stored one, up to the model. -/
def PostedAsPrepared (policy : ModelPolicy) (payload posted : Mapping) : Prop :=
  ∃ prepared, applyTokenPolicy payload policy = .ok prepared ∧
    ∀ key, key ≠ "model" → posted.lookup key = (stripInternalFields prepared).lookup key

/-- The token policy has nothing to reject, to default and to cap. -/
def WithinLimits (policy : ModelPolicy) (payload : Mapping) : Prop :=
  ∃ inputTokens n, estimateInputTokens payload policy = .ok inputTokens ∧
    inputTokens ≤ policy.maxInputTokens ∧ inputTokens < policy.maxTotalTokens ∧
    (payload.get (outputTokenKey payload)).toInt = .ok n ∧ n ≤ outputCap policy inputTokens

lemma upstreamPayload_lookup {policy : ModelPolicy} {instanceId : Option String}
    {payload : Mapping} {key : String} (h : key ≠ "model") :
    (upstreamPayload policy instanceId payload).lookup key =
      (stripInternalFields payload).lookup key := by
  unfold upstreamPayload
  dsimp only
  split <;> split <;> simp only [Mapping.lookup_set, if_neg h]

lemma lookup_internal {payload : Mapping} {key : String}
    (h : key = "_orchestrator" ∨ key = "orchestration") :
    (stripInternalFields payload).lookup key = none := by
  refine List.lookup_eq_none_iff.mpr fun p hp => ?_
  have hkept := (List.mem_filter.mp hp).2
  simp only [Bool.and_eq_true, decide_eq_true_eq] at hkept
  rw [bne_iff_ne]
  rcases h with rfl | rfl
  · exact hkept.1.symm
  · exact hkept.2.symm

variable {policy : ModelPolicy} {payload : Mapping}

lemma requestedOutput_of_toInt {key : String} {n : ℤ} (h : (payload.get key).toInt = .ok n) :
    requestedOutput payload key policy = .ok ⟨n, payload, false⟩ := by
  unfold requestedOutput
  split
  · next hnull =>
    rw [hnull] at h
    cases h
  · rw [h]
    rfl

/-- A payload within the limits is accepted. -/
lemma applyTokenPolicy_within (h : WithinLimits policy payload) :
    ∃ prepared, applyTokenPolicy payload policy = .ok prepared := by
  obtain ⟨inputTokens, n, hinput, hmax, hroom, hn, hcap⟩ := h
  have hout : ¬policy.maxOutputTokens < n := not_lt.mpr (hcap.trans (min_le_left _ _))
  have hremaining : ¬policy.maxTotalTokens - inputTokens < 1 := by omega
  simp only [applyTokenPolicy, hinput, requestedOutput_of_toInt hn, bind, Except.bind,
    if_neg (not_lt.mpr hmax), if_neg hremaining, hout, decide_false, Bool.false_and,
    Bool.false_eq_true, if_false]
  exact ⟨_, rfl⟩

/-- The payload of a post is what the token policy makes of the stored payload exactly if that
payload is within the limits. -/
lemma upstreamPayload_prepared_iff {instanceId : Option String} :
    PostedAsPrepared policy payload (upstreamPayload policy instanceId payload) ↔
      WithinLimits policy payload := by
  have hkey : outputTokenKey payload ≠ "model" ∧ outputTokenKey payload ≠ "_orchestrator" ∧
      outputTokenKey payload ≠ "orchestration" := by
    have hmem := outputTokenKey_mem payload
    refine ⟨?_, ?_, ?_⟩ <;> intro heq <;> simp [heq, outputLimitFields] at hmem
  constructor
  · rintro ⟨prepared, hprepared, hsame⟩
    obtain ⟨inputTokens, o, hinput, hmax, hroom, ho, -, hlookup⟩ := applyTokenPolicy_ok hprepared
    have hchosen := hsame _ hkey.1
    rw [upstreamPayload_lookup hkey.1, lookup_stripInternalFields hkey.2.1 hkey.2.2,
      lookup_stripInternalFields hkey.2.1 hkey.2.2, hlookup _ hkey.2.1] at hchosen
    simp only [true_and] at hchosen
    have hint : (payload.get (outputTokenKey payload)).toInt = .ok o.requested ∧
        o.requested ≤ outputCap policy inputTokens := by
      by_cases hover : outputCap policy inputTokens < o.requested
      · -- a value that was capped is not the one that is posted
        rw [if_pos hover] at hchosen
        rcases requestedOutput_ok ho with ⟨hnull, -, -⟩ | ⟨-, hint, -⟩
        · rw [get_eq hchosen] at hnull
          cases hnull
        · rw [get_eq hchosen, Json.toInt, Except.ok.injEq] at hint
          exact absurd hint hover.ne
      · rw [if_neg hover] at hchosen
        rcases requestedOutput_ok ho with ⟨hnull, -, ho⟩ | ⟨-, hint, -⟩
        · rw [ho, if_pos rfl] at hchosen
          rw [get_eq hchosen] at hnull
          cases hnull
        · exact ⟨hint, not_lt.mp hover⟩
    exact ⟨inputTokens, o.requested, hinput, hmax, by omega, hint⟩
  · intro h
    obtain ⟨prepared, hprepared⟩ := applyTokenPolicy_within h
    obtain ⟨inputTokens, n, hinput, -, -, hn, hcap⟩ := h
    refine ⟨prepared, hprepared, fun key hmodel => ?_⟩
    rw [upstreamPayload_lookup hmodel]
    by_cases hinternal : key = "_orchestrator" ∨ key = "orchestration"
    · rw [lookup_internal hinternal, lookup_internal hinternal]
    rw [not_or] at hinternal
    obtain ⟨inputTokens', o, hinput', -, -, ho, -, hlookup⟩ := applyTokenPolicy_ok hprepared
    rw [hinput] at hinput'
    cases hinput'
    rw [requestedOutput_of_toInt hn] at ho
    cases ho
    rw [lookup_stripInternalFields hinternal.1 hinternal.2,
      lookup_stripInternalFields hinternal.1 hinternal.2, hlookup key hinternal.1,
      if_neg fun hc => absurd hc.2 (not_lt.mpr hcap)]

/-- **The posted payload.** In every run of the executor on a stored task, over all answers of its
calls and all interference, what it posts upstream is what the token policy makes of the stored
payload, exactly if that payload is within the limits of the policy of the task's model. -/
theorem posted_as_prepared_iff
    {E : (c : ProxyCall) → c.Answer → ExecutorState → ExecutorState → Prop} {s s' : ExecutorState}
    {es : List ProxyEvent} {x : Except Exn Unit} {url : String}
    {posted : Mapping} {r : Except Exn HttpResponse}
    (hr : (executeStoredTask settings policies task).Runs E s es x s')
    (hposted : (⟨.postUpstream url posted, r⟩ : ProxyEvent) ∈ es) :
    PostedAsPrepared (policies.resolve task.model.1) task.payload posted ↔
      WithinLimits (policies.resolve task.model.1) task.payload := by
  obtain ⟨instanceId, hpayload⟩ := makes_executeStoredTask.mem hr _ hposted
  rw [hpayload]
  exact upstreamPayload_prepared_iff

/-! ### Samples -/

/-- The sample task with output limits in its payload. -/
def sampleLimited (limits : Mapping) : StoredTask :=
  { sampleRunning with payload := samplePayload ++ limits }

def samplePost (limits : Mapping) : List ProxyEvent × Except Exn Unit × ExecutorState :=
  (executeStoredTask sampleSettings samplePolicies (sampleLimited limits)).play
    (sampleAnswer (.ok (.obj []))) ⟨sampleStore.put (sampleLimited limits), []⟩

lemma samplePost_runs (limits : Mapping) :
    (executeStoredTask sampleSettings samplePolicies (sampleLimited limits)).Runs Others
      ⟨sampleStore.put (sampleLimited limits), []⟩ (samplePost limits).1 (samplePost limits).2.1
      (samplePost limits).2.2 := runs_play (fun c s => others_refl c _ s) _ _

def isPost : ProxyEvent → Bool
  | ⟨.postUpstream _ _, _⟩ => true
  | _ => false

lemma exists_post {es : List ProxyEvent} (h : es.any isPost = true) :
    ∃ url posted r, (⟨.postUpstream url posted, r⟩ : ProxyEvent) ∈ es := by
  obtain ⟨⟨c, r⟩, hmem, hpost⟩ := List.any_eq_true.mp h
  cases c with
  | postUpstream url posted => exact ⟨url, posted, r, hmem⟩
  | _ => cases hpost

/-- A limit that the policy allows is posted as the synchronous path sends it. -/
theorem posted_as_prepared_sample :
    ∃ url posted r,
      (⟨.postUpstream url posted, r⟩ : ProxyEvent) ∈ (samplePost [("max_tokens", .int 64)]).1 ∧
      PostedAsPrepared samplePolicies.defaultPolicy
        (sampleLimited [("max_tokens", .int 64)]).payload posted := by
  have hany : (samplePost [("max_tokens", .int 64)]).1.any isPost = true := by decide +kernel
  obtain ⟨url, posted, r, hmem⟩ := exists_post hany
  refine ⟨url, posted, r, hmem, (posted_as_prepared_iff (samplePost_runs _) hmem).2 ?_⟩
  exact ⟨1, 64, by decide +kernel, by decide, by decide, rfl, by decide⟩

/-- A task without an output limit is posted without one. -/
theorem posted_without_limit :
    ∃ url posted r, (⟨.postUpstream url posted, r⟩ : ProxyEvent) ∈ (samplePost []).1 ∧
      (executeStoredTask sampleSettings samplePolicies sampleRunning).Runs Others
        ⟨sampleStore.put sampleRunning, []⟩ (samplePost []).1 (samplePost []).2.1
        (samplePost []).2.2 ∧
      ¬PostedAsPrepared (samplePolicies.resolve sampleRunning.model.1) sampleRunning.payload
        posted := by
  have hany : (samplePost []).1.any isPost = true := by decide +kernel
  obtain ⟨url, posted, r, hmem⟩ := exists_post hany
  refine ⟨url, posted, r, hmem, samplePost_runs [], fun hprepared => ?_⟩
  obtain ⟨instanceId, hpayload⟩ := makes_executeStoredTask.mem (samplePost_runs []) _ hmem
  rw [hpayload] at hprepared
  obtain ⟨-, n, -, -, -, hn, -⟩ := upstreamPayload_prepared_iff.1 hprepared
  cases hn

end Orchestrator.ExecutorTokens
