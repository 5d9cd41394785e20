import Orchestrator.Routing

/-!
The outcomes of a resolution. `Resolved` lists, for what lifecycle answers to the lookup, the
allocation and the lease, the calls that are made and the result; `resolve_runs` says that a
resolution does nothing else.
-/

namespace Orchestrator.ResolveOutcomes

open Lib Lib.Coro RegistryClient ProxyInstance BackendResolver

/-- A base URL and an instance, where there are any. -/
abbrev Target := Option String × Option String

variable {σ : Type} {settings : Settings} {model : String} {orchestration : Mapping}

/-! ### What is read from an answer -/

/-- What `list_instances` makes of an answer. -/
def instancesOf (r : Except Exn HttpResponse) : Except Exn (List ProxyInstance) := do
  let response ← r
  let response ← raiseForStatus response
  let payload ← response.json
  parseRegistryInstances payload

/-- The instances that a lookup chooses from. -/
def readyFor (model : String) (instances : List ProxyInstance) : List ProxyInstance :=
  instances.filter fun i => i.model = model && i.isReady

/-- What is returned after the answer to a lease of a backend. -/
def leaseOutcome (settings : Settings) (backend : ProxyInstance) (r : Except Exn HttpResponse) :
    Except Exn Target :=
  match statusOnly r with
  | .ok _ => .ok (some backend.baseUrl, some backend.instanceId)
  | .error e => if e.isHTTPError then .ok (fallback settings) else .error e

/-- The status codes of an allocation that is refused for good. -/
def isRefusal (statusCode : ℕ) : Bool := statusCode = 403 || statusCode = 404 || statusCode = 409

/-- The outcome of an allocation that gives no instance, for an exception. -/
def allocationOutcome (settings : Settings) (e : Exn) : Except Exn Target :=
  match e.kind with
  | .httpStatus code => if isRefusal code then .ok (none, none) else .ok (fallback settings)
  | .http => .ok (fallback settings)
  | .allocationUnavailable => .ok (none, none)
  | _ => .error e

/-- The calls of a resolution that asks the registry, and its result. -/
inductive Resolved (settings : Settings) (model : String) (orchestration : Mapping) :
    List ProxyEvent → Except Exn Target → Prop
  | lookupFailed {r e} (h : instancesOf r = .error e) (he : e.isHTTPError = true) :
      Resolved settings model orchestration [⟨.getRegistry, r⟩] (.ok (fallback settings))
  | lookupRaised {r e} (h : instancesOf r = .error e) (he : e.isHTTPError = false) :
      Resolved settings model orchestration [⟨.getRegistry, r⟩] (.error e)
  | chosen {r instances backend l} (h : instancesOf r = .ok instances)
      (hleast : leastActive (readyFor model instances) = some backend) :
      Resolved settings model orchestration
        [⟨.getRegistry, r⟩, ⟨.postLease backend.instanceId, l⟩] (leaseOutcome settings backend l)
  | notAllocated {r instances a e} (h : instancesOf r = .ok instances)
      (hnone : leastActive (readyFor model instances) = none) (ha : allocationResult a = .error e) :
      Resolved settings model orchestration
        [⟨.getRegistry, r⟩, ⟨.postAllocation (allocationPayload model orchestration), a⟩]
        (allocationOutcome settings e)
  | nothingReady {r instances a o} (h : instancesOf r = .ok instances)
      (hnone : leastActive (readyFor model instances) = none) (ha : allocationResult a = .ok o)
      (hready : ∀ backend ∈ o, backend.isReady = false) : Resolved settings model orchestration
        [⟨.getRegistry, r⟩, ⟨.postAllocation (allocationPayload model orchestration), a⟩]
        (.ok (fallback settings))
  | allocated {r instances a backend l} (h : instancesOf r = .ok instances)
      (hnone : leastActive (readyFor model instances) = none)
      (ha : allocationResult a = .ok (some backend)) (hready : backend.isReady = true) :
      Resolved settings model orchestration
        [⟨.getRegistry, r⟩, ⟨.postAllocation (allocationPayload model orchestration), a⟩,
          ⟨.postLease backend.instanceId, l⟩] (leaseOutcome settings backend l)

/-! ### What a resolution does -/

section Runs

variable {E : (c : ProxyCall) → c.Answer → σ → σ → Prop} {s s' : σ} {es : List ProxyEvent}
  {x : Except Exn Target}

lemma leaseChosen_runs {backend : ProxyInstance}
    (h : (leaseChosen settings backend : Proxy σ Target).Runs E s es x s') :
    ∃ l, es = [⟨.postLease backend.instanceId, l⟩] ∧ x = leaseOutcome settings backend l := by
  rw [leaseChosen, exceptHTTP, leaseBackend, after_call, runs_call] at h
  obtain ⟨l, t, fs, rfl, -, h⟩ := h
  refine ⟨l, ?_⟩
  rw [leaseOutcome]
  cases hl : statusOnly l with
  | ok a =>
    simp only [lift, hl, after_done] at h
    obtain ⟨rfl, rfl, -⟩ := runs_done.mp h
    exact ⟨rfl, rfl⟩
  | error e =>
    simp only [lift, hl, after_done] at h
    dsimp only
    split at h
    · next he =>
      obtain ⟨rfl, rfl, -⟩ := runs_done.mp h
      exact ⟨rfl, (if_pos he).symm⟩
    · next he =>
      obtain ⟨rfl, rfl, -⟩ := runs_done.mp h
      exact ⟨rfl, (if_neg he).symm⟩

lemma allocateAndLease_runs
    (h : (allocateAndLease settings model orchestration : Proxy σ Target).Runs E s es x s') :
    ∃ a fs, es = ⟨.postAllocation (allocationPayload model orchestration), a⟩ :: fs ∧
      ((∃ e, allocationResult a = .error e ∧ fs = [] ∧ x = allocationOutcome settings e) ∨
        (∃ o, allocationResult a = .ok o ∧ (∀ backend ∈ o, backend.isReady = false) ∧ fs = [] ∧
          x = .ok (fallback settings)) ∨
        ∃ backend l, allocationResult a = .ok (some backend) ∧ backend.isReady = true ∧
          fs = [⟨.postLease backend.instanceId, l⟩] ∧ x = leaseOutcome settings backend l) := by
  rw [allocateAndLease, BackendResolver.ensureAllocation, RegistryClient.ensureAllocation,
    after_call,
    after_call, runs_call] at h
  obtain ⟨a, t, fs, rfl, -, h⟩ := h
  refine ⟨a, fs, rfl, ?_⟩
  cases ha : allocationResult a with
  | error e =>
    refine Or.inl ⟨e, rfl, ?_⟩
    simp only [lift, ha, after_done] at h
    rw [allocationFailed] at h
    rw [allocationOutcome]
    cases hkind : e.kind with
    | httpStatus code =>
      simp only [hkind] at h
      change (after (if isRefusal code then
        raise (Exn.mk .allocationUnavailable "AllocationUnavailable" "") else pure none) _).Runs
          _ _ _ _ _ at h
      dsimp only
      split at h
      · next hrefusal =>
        obtain ⟨rfl, rfl, -⟩ := runs_done.mp h
        exact ⟨rfl, (if_pos hrefusal).symm⟩
      · next hrefusal =>
        obtain ⟨rfl, rfl, -⟩ := runs_done.mp h
        exact ⟨rfl, (if_neg hrefusal).symm⟩
    | http =>
      simp only [hkind] at h
      obtain ⟨rfl, rfl, -⟩ := runs_done.mp h
      exact ⟨rfl, rfl⟩
    | allocationUnavailable =>
      simp only [hkind, raise, after_done, if_true] at h
      obtain ⟨rfl, rfl, -⟩ := runs_done.mp h
      exact ⟨rfl, rfl⟩
    | _ =>
      simp only [hkind, raise, after_done, reduceCtorEq, if_false] at h
      obtain ⟨rfl, rfl, -⟩ := runs_done.mp h
      exact ⟨rfl, rfl⟩
  | ok o =>
    simp only [lift, ha, after_done] at h
    cases o with
    | none =>
      obtain ⟨rfl, rfl, -⟩ := runs_done.mp h
      exact Or.inr (Or.inl ⟨none, rfl, nofun, rfl, rfl⟩)
    | some backend =>
      change (if backend.isReady then leaseChosen settings backend else
        pure (fallback settings) : Proxy σ Target).Runs E t fs x s' at h
      split at h
      · next hready =>
        obtain ⟨l, rfl, rfl⟩ := leaseChosen_runs h
        exact Or.inr (Or.inr ⟨backend, l, rfl, hready, rfl, rfl⟩)
      · next hready =>
        obtain ⟨rfl, rfl, -⟩ := runs_done.mp h
        refine Or.inr (Or.inl ⟨some backend, rfl, fun b hb => ?_, rfl, rfl⟩)
        rw [← Option.some.inj hb]
        simpa using hready

/-- **A resolution** makes the calls of one of the cases, and has its result. -/
theorem resolve_runs (hrouting : settings.enableBackendRegistryRouting = true)
    (hclient : settings.hasRegistryClient = true)
    (h : (resolve settings model orchestration : Proxy σ Target).Runs E s es x s') :
    Resolved settings model orchestration es x := by
  rw [resolve, hrouting, hclient, if_neg (by decide), exceptHTTP] at h
  obtain ⟨r, t, fs, rfl, -, h⟩ := runs_call.mp h
  change (after (lift (instancesOf r) |>.after (onOk fun instances =>
    pure (leastActive (readyFor model instances)))) _).Runs _ _ _ _ _ at h
  cases hr : instancesOf r with
  | error e =>
    simp only [lift, hr, after_done, onOk_error] at h
    split at h
    · next he =>
      obtain ⟨rfl, rfl, -⟩ := runs_done.mp h
      exact .lookupFailed hr he
    · next he =>
      obtain ⟨rfl, rfl, -⟩ := runs_done.mp h
      exact .lookupRaised hr (by simpa using he)
  | ok instances =>
    simp only [lift, hr, after_done, onOk_ok, pure_eq] at h
    cases hleast : leastActive (readyFor model instances) with
    | some backend =>
      rw [hleast] at h
      obtain ⟨l, rfl, rfl⟩ := leaseChosen_runs h
      exact .chosen hr hleast
    | none =>
      rw [hleast] at h
      obtain ⟨a, gs, rfl, hcases⟩ := allocateAndLease_runs h
      rcases hcases with ⟨e, ha, rfl, rfl⟩ | ⟨o, ha, hready, rfl, rfl⟩ | ⟨backend, l, ha, hready,
        rfl, rfl⟩
      · exact .notAllocated hr hleast ha
      · exact .nothingReady hr hleast ha hready
      · exact .allocated hr hleast ha hready

end Runs

/-! ### What is promised of a resolution -/

/-- The lease of an instance was granted. -/
def LeaseGranted (es : List ProxyEvent) (id : String) : Prop :=
  ∃ r, ⟨.postLease id, r⟩ ∈ es ∧ statusOnly r = .ok ()

/-- An instance was reported ready, by the lookup or by the allocation. -/
def ReportedReady (es : List ProxyEvent) (id : String) : Prop :=
  ∃ i : ProxyInstance, i.instanceId = id ∧ i.isReady = true ∧
    ((∃ r instances, ⟨.getRegistry, r⟩ ∈ es ∧ instancesOf r = .ok instances ∧ i ∈ instances) ∨
      ∃ payload r, ⟨.postAllocation payload, r⟩ ∈ es ∧ allocationResult r = .ok (some i))

/-- The allocation was answered with a status. -/
def AllocationAnswered (es : List ProxyEvent) (statusCode : ℕ) : Prop :=
  ∃ payload response, ⟨.postAllocation payload, .ok response⟩ ∈ es ∧
    response.statusCode = statusCode

structure Promised (settings : Settings) (es : List ProxyEvent) (x : Except Exn Target) : Prop where
  leased : ∀ id, (∃ url, x = .ok (url, some id)) ↔ LeaseGranted es id ∧ ReportedReady es id
  required : settings.requireBackendRegistryBackend = true → ∀ url, x ≠ .ok (some url, none)
  refused : ∀ statusCode, isRefusal statusCode = true → AllocationAnswered es statusCode →
    ∀ url, x ≠ .ok (some url, none)

section Promises

variable {es : List ProxyEvent} {x : Except Exn Target} {id : String}

lemma fallback_snd (settings : Settings) : (fallback settings).2 = none := by
  rw [fallback]
  split <;> rfl

lemma leaseOutcome_iff {backend : ProxyInstance} {l : Except Exn HttpResponse} :
    (∃ url, leaseOutcome settings backend l = .ok (url, some id)) ↔
      statusOnly l = .ok () ∧ backend.instanceId = id := by
  rw [leaseOutcome]
  cases hl : statusOnly l with
  | ok a =>
    simp only [Except.ok.injEq, Prod.mk.injEq, Option.some.injEq, true_and]
    exact ⟨fun ⟨_, _, hid⟩ => hid, fun hid => ⟨_, rfl, hid⟩⟩
  | error e =>
    refine iff_of_false ?_ nofun
    rintro ⟨url, hurl⟩
    dsimp only at hurl
    split at hurl
    · have hnone := fallback_snd settings
      rw [Except.ok.inj hurl] at hnone
      cases hnone
    · cases hurl

lemma leastActive_mem {l : List ProxyInstance} {i : ProxyInstance} (h : leastActive l = some i) :
    i ∈ l := by
  induction l with
  | nil => cases h
  | cons j rest ih =>
    rw [leastActive] at h
    split at h
    · cases h
      exact List.mem_cons_self
    · next k hk =>
      split at h
      · cases h
        exact List.mem_cons_of_mem _ (ih hk)
      · cases h
        exact List.mem_cons_self

/-- No instance is returned where none was leased. -/
lemma allocationOutcome_snd {e : Exn} {o : Target} (h : allocationOutcome settings e = .ok o) :
    o.2 = none := by
  unfold allocationOutcome at h
  split at h
  · split at h
    · cases h
      rfl
    · cases h
      exact fallback_snd settings
  · cases h
    exact fallback_snd settings
  · cases h
    rfl
  · cases h

/-- The last call is the only lease. -/
lemma leaseGranted_iff {backend : ProxyInstance} {l : Except Exn HttpResponse}
    (hes : ∀ r, (⟨.postLease id, r⟩ : ProxyEvent) ∉ es) :
    LeaseGranted (es ++ [⟨.postLease backend.instanceId, l⟩]) id ↔
      statusOnly l = .ok () ∧ backend.instanceId = id := by
  constructor
  · rintro ⟨r, hr, hok⟩
    rcases List.mem_append.mp hr with hr | hr
    · exact absurd hr (hes r)
    · cases List.mem_singleton.mp hr
      exact ⟨hok, rfl⟩
  · rintro ⟨hok, rfl⟩
    exact ⟨l, List.mem_append_right _ (List.mem_singleton.mpr rfl), hok⟩

/-- The lease of an instance that was reported ready decides. -/
lemma leased_of_last (es : List ProxyEvent) {backend : ProxyInstance} {l : Except Exn HttpResponse}
    (hes : ∀ r, (⟨.postLease id, r⟩ : ProxyEvent) ∉ es)
    (hready : ReportedReady (es ++ [⟨.postLease backend.instanceId, l⟩]) backend.instanceId) :
    (∃ url, leaseOutcome settings backend l = .ok (url, some id)) ↔
      LeaseGranted (es ++ [⟨.postLease backend.instanceId, l⟩]) id ∧
        ReportedReady (es ++ [⟨.postLease backend.instanceId, l⟩]) id := by
  rw [leaseOutcome_iff, leaseGranted_iff hes]
  exact ⟨fun h => ⟨h, h.2 ▸ hready⟩, fun h => h.1⟩

lemma Resolved.leased (h : Resolved settings model orchestration es x) (id : String) :
    (∃ url, x = .ok (url, some id)) ↔ LeaseGranted es id ∧ ReportedReady es id := by
  -- where no lease is asked for, none is granted and no instance is returned
  have hnone : ∀ {es : List ProxyEvent} {x : Except Exn Target},
      (∀ r, (⟨.postLease id, r⟩ : ProxyEvent) ∉ es) → (∀ o, x = .ok o → o.2 = none) →
      ((∃ url, x = .ok (url, some id)) ↔ LeaseGranted es id ∧ ReportedReady es id) := by
    intro es x hes hx
    refine iff_of_false ?_ fun hc => ?_
    · rintro ⟨url, rfl⟩
      cases hx _ rfl
    · obtain ⟨⟨r, hr, -⟩, -⟩ := hc
      exact hes r hr
  cases h with
  | lookupFailed h he => exact hnone (by simp) fun o ho => Except.ok.inj ho ▸ fallback_snd settings
  | lookupRaised h he => exact hnone (by simp) nofun
  | notAllocated h hleast ha => exact hnone (by simp) fun o ho => allocationOutcome_snd ho
  | nothingReady h hleast ha hready =>
    exact hnone (by simp) fun o ho => Except.ok.inj ho ▸ fallback_snd settings
  | @chosen r instances backend l h hleast =>
    have hmem := List.mem_filter.mp (leastActive_mem hleast)
    refine leased_of_last [⟨.getRegistry, r⟩] (by simp) ⟨backend, rfl, ?_, Or.inl ?_⟩
    · exact (Bool.and_eq_true_iff.mp hmem.2).2
    · exact ⟨r, instances, List.mem_cons_self, h, hmem.1⟩
  | @allocated r instances a backend l h hleast ha hready =>
    refine leased_of_last
      [⟨.getRegistry, r⟩, ⟨.postAllocation (allocationPayload model orchestration), a⟩] (by simp)
      ⟨backend, rfl, hready, Or.inr ⟨allocationPayload model orchestration, a, ?_, ha⟩⟩
    exact List.mem_cons_of_mem _ List.mem_cons_self

/-- A base URL without an instance is the fallback. -/
lemma static_of_fallback {url : String} (h : fallback settings = (some url, none)) :
    settings.requireBackendRegistryBackend = false := by
  rw [fallback] at h
  split at h
  · cases h
  · next hrequired => simpa using hrequired

lemma leaseOutcome_static {backend : ProxyInstance} {l : Except Exn HttpResponse} {url : String}
    (h : leaseOutcome settings backend l = .ok (some url, none)) :
    settings.requireBackendRegistryBackend = false := by
  rw [leaseOutcome] at h
  split at h
  · cases h
  · split at h
    · exact static_of_fallback (Except.ok.inj h)
    · cases h

lemma allocationOutcome_static {e : Exn} {url : String}
    (h : allocationOutcome settings e = .ok (some url, none)) :
    settings.requireBackendRegistryBackend = false ∧
      ∀ code, e.kind = .httpStatus code → isRefusal code = false := by
  rw [allocationOutcome] at h
  split at h
  · next code hkind =>
    split at h
    · cases h
    · next hrefusal =>
      refine ⟨static_of_fallback (Except.ok.inj h), fun code' hkind' => ?_⟩
      cases hkind.symm.trans hkind'
      simpa using hrefusal
  · next hkind =>
    exact ⟨static_of_fallback (Except.ok.inj h), fun code hcode => by cases hkind.symm.trans hcode⟩
  · cases h
  · cases h

lemma allocationResult_not_found {response : HttpResponse} (h : response.statusCode = 404) :
    allocationResult (.ok response) = .ok none := by
  show (if response.statusCode = 404 then pure none else _) = Except.ok none
  rw [if_pos h]
  rfl

lemma allocationResult_refused {response : HttpResponse} (h : isRefusal response.statusCode = true)
    (hne : response.statusCode ≠ 404) : ∃ e : Exn, allocationResult (.ok response) = .error e ∧
      e.kind = .httpStatus response.statusCode := by
  refine ⟨⟨.httpStatus response.statusCode, "HTTPStatusError", "unexpected status"⟩, ?_, rfl⟩
  have hstatus : ¬ (200 ≤ response.statusCode && response.statusCode < 300) = true := by
    simp only [isRefusal, Bool.or_eq_true, decide_eq_true_eq] at h
    simp only [Bool.and_eq_true, decide_eq_true_eq]
    omega
  show (if response.statusCode = 404 then pure none else
    raiseForStatus response >>= _) = Except.error _
  rw [if_neg hne, raiseForStatus, if_neg hstatus]
  rfl

/-- The answer to the allocation is the one that was read. -/
lemma allocationAnswered_iff {a r : Except Exn HttpResponse} {tail : List ProxyEvent}
    {payload : Mapping}
    {statusCode : ℕ}
    (htail : ∀ payload a, (⟨.postAllocation payload, a⟩ : ProxyEvent) ∉ tail) :
    AllocationAnswered (⟨.getRegistry, r⟩ :: ⟨.postAllocation payload, a⟩ :: tail) statusCode ↔
      ∃ response, a = .ok response ∧ response.statusCode = statusCode := by
  constructor
  · rintro ⟨p, response, hmem, hcode⟩
    rcases List.mem_cons.mp hmem with hmem | hmem
    · cases hmem
    · rcases List.mem_cons.mp hmem with hmem | hmem
      · cases hmem
        exact ⟨response, rfl, hcode⟩
      · exact absurd hmem (htail _ _)
  · rintro ⟨response, rfl, hcode⟩
    exact ⟨payload, response, List.mem_cons_of_mem _ List.mem_cons_self, hcode⟩

/-- Without an allocation nothing is answered to one. -/
lemma not_answered {statusCode : ℕ}
    (hes : ∀ payload a, (⟨.postAllocation payload, a⟩ : ProxyEvent) ∉ es) :
    ¬ AllocationAnswered es statusCode := by
  rintro ⟨payload, response, hmem, -⟩
  exact hes _ _ hmem

/-- The client reads a 404 as no instance. -/
lemma Resolved.not_found (h : Resolved settings model orchestration es x)
    (hcode : AllocationAnswered es 404) : x = .ok (fallback settings) := by
  cases h with
  | lookupFailed h he => exact absurd hcode (not_answered (by simp))
  | lookupRaised h he => exact absurd hcode (not_answered (by simp))
  | chosen h hleast => exact absurd hcode (not_answered (by simp))
  | notAllocated h hnone ha =>
    obtain ⟨response, rfl, hstatus⟩ := (allocationAnswered_iff (by simp)).mp hcode
    cases ha.symm.trans (allocationResult_not_found hstatus)
  | nothingReady h hnone ha hready => rfl
  | allocated h hnone ha hready =>
    obtain ⟨response, rfl, hstatus⟩ := (allocationAnswered_iff (by simp)).mp hcode
    cases ha.symm.trans (allocationResult_not_found hstatus)

/-- The static upstream is only returned where the setting allows it, and of the refusals only
after a 404. -/
lemma Resolved.static {url : String}
    (h : Resolved settings model orchestration es (.ok (some url, none))) :
    settings.requireBackendRegistryBackend = false ∧ ∀ statusCode, isRefusal statusCode = true →
      AllocationAnswered es statusCode → statusCode = 404 := by
  generalize hx : (Except.ok (some url, none) : Except Exn Target) = x at h
  cases h with
  | lookupFailed h he =>
    refine ⟨static_of_fallback (Except.ok.inj hx.symm), fun _ _ hc => ?_⟩
    exact absurd hc (not_answered (by simp))
  | lookupRaised h he => cases hx
  | chosen h hleast =>
    exact ⟨leaseOutcome_static hx.symm, fun _ _ hc => absurd hc (not_answered (by simp))⟩
  | notAllocated h hnone ha =>
    obtain ⟨hrequired, hkind⟩ := allocationOutcome_static hx.symm
    refine ⟨hrequired, fun statusCode hrefusal hc => ?_⟩
    obtain ⟨response, rfl, rfl⟩ := (allocationAnswered_iff (by simp)).mp hc
    by_contra hne
    obtain ⟨e, he, hcode⟩ := allocationResult_refused hrefusal hne
    cases ha.symm.trans he
    exact absurd hrefusal (by rw [hkind _ hcode]; decide)
  | nothingReady h hnone ha hready =>
    refine ⟨static_of_fallback (Except.ok.inj hx.symm), fun statusCode hrefusal hc => ?_⟩
    obtain ⟨response, rfl, rfl⟩ := (allocationAnswered_iff (by simp)).mp hc
    by_contra hne
    obtain ⟨e, he, -⟩ := allocationResult_refused hrefusal hne
    cases ha.symm.trans he
  | allocated h hnone ha hready =>
    refine ⟨leaseOutcome_static hx.symm, fun statusCode hrefusal hc => ?_⟩
    obtain ⟨response, rfl, rfl⟩ := (allocationAnswered_iff (by simp)).mp hc
    by_contra hne
    obtain ⟨e, he, -⟩ := allocationResult_refused hrefusal hne
    cases ha.symm.trans he

end Promises

/-- **A resolution keeps its promises** exactly if no static upstream is allowed, or no allocation
is answered with 404. -/
theorem resolve_promised_iff {E : (c : ProxyCall) → c.Answer → σ → σ → Prop} {s s' : σ}
    {es : List ProxyEvent} {x : Except Exn Target}
    (hrouting : settings.enableBackendRegistryRouting = true)
    (hclient : settings.hasRegistryClient = true)
    (h : (resolve settings model orchestration : Proxy σ Target).Runs E s es x s') :
    Promised settings es x ↔
      settings.requireBackendRegistryBackend = true ∨ ¬ AllocationAnswered es 404 := by
  have hresolved := resolve_runs hrouting hclient h
  constructor
  · intro hpromised
    by_contra hc
    obtain ⟨hrequired, hcode⟩ := not_or.mp hc
    refine hpromised.refused 404 rfl (not_not.mp hcode) settings.upstreamBaseUrl ?_
    rw [hresolved.not_found (not_not.mp hcode), fallback, if_neg hrequired]
  · intro hcond
    refine ⟨hresolved.leased, fun hrequired url hx => ?_,
      fun statusCode hrefusal hcode url hx => ?_⟩
    · subst hx
      cases hrequired.symm.trans hresolved.static.1
    · subst hx
      obtain ⟨hrequired, hrefused⟩ := hresolved.static
      cases hrefused statusCode hrefusal hcode
      rcases hcond with hcond | hcond
      · cases hrequired.symm.trans hcond
      · exact hcond hcode

/-! ### A model that lifecycle does not know -/

def routingSettings : Settings where
  upstreamBaseUrl := "http://static:4000"
  backendRegistryUrl := "http://lifecycle:4100"
  enableBackendRegistryRouting := true
  requireBackendRegistryBackend := false
  queueProxyApiKey := ""
  taskExecutorMaxAttempts := ⟨3, one_le_three⟩
  taskExecutorRetryBaseSeconds := ⟨1, by decide⟩
  taskExecutorRetryMaxSeconds := ⟨30, by decide⟩
  floatText _ := "1.0"

/-- A registry without instances, which answers an allocation with a status. -/
def refuses (statusCode : ℕ) : (c : ProxyCall) → c.Answer
  | .utcNow => ⟨63892886400000000, Clock.sampleTime_lt⟩
  | .datetimeNow => ⟨63892886400000000, Clock.sampleTime_lt⟩
  | .getRegistry => .ok ⟨200, "application/json", "", .ok (.obj [("instances", .arr [])])⟩
  | .postAllocation _ => .ok ⟨statusCode, "application/json", "", .ok (.obj [("detail", .str "")])⟩
  | .postLease _ => .ok ⟨404, "application/json", "", .ok (.obj [])⟩
  | .deleteLease _ => .ok ⟨404, "application/json", "", .ok (.obj [])⟩
  | .postReconcile _ => .ok ⟨200, "application/json", "", .ok (.obj [])⟩
  | .postExplain _ => .ok ⟨200, "application/json", "", .ok (.obj [])⟩
  | .postUpstream _ _ => .ok ⟨200, "application/json", "", .ok (.obj [])⟩

def refusal (statusCode : ℕ) : List ProxyEvent :=
  [⟨.getRegistry, refuses statusCode .getRegistry⟩,
   ⟨.postAllocation [("model", .str "chat")], refuses statusCode (.postAllocation [])⟩]

lemma refusal_runs (statusCode : ℕ) {x : Except Exn Target}
    (hx : ((resolve routingSettings "chat" [] : Proxy Unit Target).play (refuses statusCode) ()) =
      (refusal statusCode, x, ())) :
    (resolve routingSettings "chat" [] : Proxy Unit Target).Runs (fun _ _ _ _ => True) ()
      (refusal statusCode) x () := by
  have h := runs_play (E := fun _ _ _ _ => True) (o := refuses statusCode) (fun _ _ => trivial)
    (resolve routingSettings "chat" [] : Proxy Unit Target) ()
  rw [hx] at h
  exact h

theorem resolve_promised_iff_sample :
    Promised routingSettings (refusal 409) (.ok (none, none)) := by
  refine (resolve_promised_iff rfl rfl (refusal_runs 409 rfl)).mpr (Or.inr ?_)
  rintro ⟨payload, response, hmem, hcode⟩
  simp only [refusal, List.mem_cons, List.not_mem_nil, or_false] at hmem
  rcases hmem with hmem | hmem
  · cases hmem
  · cases hmem
    cases hcode

/-- The allocation is refused with 404, and the request goes to the static upstream. -/
theorem unknown_model_falls_back : ∃ es x,
    (resolve routingSettings "chat" [] : Proxy Unit Target).Runs (fun _ _ _ _ => True) () es x () ∧
      AllocationAnswered es 404 ∧ x = .ok (some "http://static:4000", none) ∧
      ¬ Promised routingSettings es x := by
  have hanswered : AllocationAnswered (refusal 404) 404 :=
    ⟨_, _, List.mem_cons_of_mem _ List.mem_cons_self, rfl⟩
  refine ⟨refusal 404, .ok (some "http://static:4000", none), refusal_runs 404 rfl, hanswered, rfl,
    fun h => ?_⟩
  exact h.refused 404 rfl hanswered _ rfl

end Orchestrator.ResolveOutcomes
