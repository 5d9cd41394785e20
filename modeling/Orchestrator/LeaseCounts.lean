import Orchestrator.LeaseDiscipline
import Orchestrator.LeaseRouting
import Orchestrator.SteadyCounters

/-!
Requests, executions of tasks and lifecycle at the same time, over lost and late messages and
restarts of lifecycle. The counter of an instance covers the leases of it that are held, and no
instance is stopped while a lease of it is held.

This rests on the ids of the instances: a record that has never been leased must not take the id of
one of which a lease is owed.
-/

namespace Orchestrator.Leases

open Lib Lib.Coro Lifecycle LeaseRouting RegistryReplies RegistryClient

variable {lifecycle : LifecycleSettings}

/-! ### The callers -/

/-- An exception instead of a reply of lifecycle, or what others than lifecycle answer. -/
def failed : (c : ForwardCall) → c.Answer → Prop
  | .proxy .getRegistry, r | .proxy (.postAllocation _), r | .proxy (.postLease _), r
  | .proxy (.deleteLease _), r => ∃ e : Exn, r = .error e
  | _, _ => True

lemma not_granted_failed (c : ForwardCall) (r : c.Answer) (h : failed c r) :
    leases.granted ⟨c, r⟩ = none := by
  cases c with
  | proxy c =>
    cases c with
    | postLease id =>
      obtain ⟨e, rfl⟩ := h
      rfl
    | _ => rfl
  | _ => rfl

abbrev Request := Borrower ForwardState Exn Unit ForwardCall.Answer String
abbrev Execution := Borrower ExecutorState Exn Unit ForwardCall.Answer String

def requests : Parties Request ForwardCall ForwardCall.Answer :=
  borrowers leases SlotRelease.shared.rely (fun p s =>
    ∃ settings policy path payload metadata limiter,
      p = Forward.request settings policy path payload metadata ∧ s = Forward.start limiter) failed

def executions : Parties Execution ForwardCall ForwardCall.Answer :=
  borrowers leases anything.rely (fun p _ => ∃ settings policies task,
    p = (Executor.processTask settings policies task).embed ForwardCall.proxy) failed

abbrev Callers := Request ⊕ Execution

def callers : Parties Callers ForwardCall ForwardCall.Answer := requests.sum executions

def heldBy : Callers → Option String := Sum.elim Borrower.held Borrower.held

/-- What is left of a caller honours its lease. -/
def Honest : Callers → Prop :=
  Sum.elim (fun x => Honours leases SlotRelease.shared x.rest x.held x.state)
    fun x => Honours leases anything x.rest x.held x.state

/-- Nobody gets a slot by waiting. -/
def refused : (c : ForwardCall) → c.Answer
  | .await (.waitForSlot _) => .error ⟨.other, "TimeoutError", ""⟩
  | c => SlotRelease.sampleAnswer SlotRelease.releasedOk c

lemma shared_refused (c : ForwardCall) (s : ForwardState) :
    SlotRelease.shared.rely c (refused c) s s := by
  refine ⟨rfl, ?_⟩
  cases c with
  | await a => cases a <;> trivial
  | _ => trivial

lemma callers_lends : Exchange.Lends leases callers heldBy Honest := by
  refine .sum (Exchange.lends_borrowers (fun _ _ => trivial) shared_refused ?_ not_granted_failed)
    (Exchange.lends_borrowers (o := refused) (fun _ _ => trivial) (fun _ _ => trivial) ?_
      not_granted_failed)
  · rintro _ _ ⟨settings, policy, path, payload, metadata, limiter, rfl, rfl⟩
    exact (leasing_request limiter).honours
  · rintro _ s ⟨settings, policies, task, rfl⟩
    exact (leasing_processTask s).honours

/-! ### The service -/

inductive LeaseStep
  /-- any other step than a release -/
  | service (k : ServiceStep)
  | release (calls : List LifecycleEvent)
  | restart (calls : List LifecycleEvent)

def LeaseStep.serve (lifecycle : LifecycleSettings) (s : RegistryService) (l : LeaseStep)
    (taken : Option (ℕ × ProxyCall)) (sent : List (ℕ × ProxyEvent)) (s' : RegistryService) : Prop :=
  match l with
  | .service k => (∀ id calls, k ≠ .lifecycle (.begin (.release id) calls)) ∧
      LeaseRouting.serve lifecycle s k taken sent s'
  | .release calls => ∃ n id x t, taken = some (n, .deleteLease id) ∧
      (adjustActiveRequests id (-1)).Turn world s.processes.state calls (.done x) t ∧
      sent = [(n, ⟨.deleteLease id, .ok (leaseResponse x)⟩)] ∧
      s' = { s with processes := ⟨t, s.processes.waiting⟩ }
  | .restart calls => taken = none ∧ sent = [] ∧ ∃ x t,
      loadRegistry.Turn world s.processes.state calls (.done x) t ∧
      s' = { s with
        processes := ⟨t, []⟩
        allocations := [] }

def leaseService (lifecycle : LifecycleSettings) :
    Server RegistryService LeaseStep ProxyCall ProxyCall.Answer where
  init s := LoadedCounted s.processes.state ∧ s.processes.waiting = [] ∧ s.allocations = []
  serve := LeaseStep.serve lifecycle

/-- The service, which the callers reach through their clients. -/
def servedLeases (lifecycle : LifecycleSettings) :
    Server RegistryService LeaseStep ForwardCall ForwardCall.Answer :=
  (leaseService lifecycle).embed ForwardCall.proxy

abbrev Leased := Exchange RegistryService Callers ForwardCall ForwardCall.Answer
abbrev LeasedStep := ExchangeStep LeaseStep Callers ForwardCall ForwardCall.Answer

/-- All the callers, and lifecycle. -/
def leaseLts (lifecycle : LifecycleSettings) : Lts Leased LeasedStep :=
  Exchange.lts callers (servedLeases lifecycle)

lemma leaseService_replies : Exchange.Replies (leaseService lifecycle) holds where
  init s n hs hn := by
    obtain ⟨payload, p, hp⟩ := hn
    rw [hs.2.2] at hp
    cases hp
  sent s l taken sent s' h q hq := by
    cases l with
    | service k => exact service_replies.sent s k taken sent s' h.2 q hq
    | release calls =>
      obtain ⟨n, id, x, t, rfl, -, rfl, -⟩ := h
      obtain rfl := List.mem_singleton.mp hq
      exact Or.inr ⟨_, rfl⟩
    | restart calls =>
      obtain ⟨-, rfl, -⟩ := h
      cases hq
  held s l taken sent s' h n hn := by
    cases l with
    | service k => exact service_replies.held s k taken sent s' h.2 n hn
    | release calls =>
      obtain ⟨m, id, x, t, -, -, -, rfl⟩ := h
      exact Or.inl hn
    | restart calls =>
      obtain ⟨-, -, x, t, -, rfl⟩ := h
      obtain ⟨payload, p, hp⟩ := hn
      cases hp

lemma servedLeases_replies : Exchange.Replies (servedLeases lifecycle) holds :=
  Exchange.Replies.embed (f := ForwardCall.proxy) leaseService_replies

/-! ### The condition -/

/-- The step shows the registry at a stop, or at its end. -/
def ShownIn (s s' : LifecycleState) (r : Registry) : Prop :=
  r = s'.registry ∨ ∃ recent i t, s'.log = recent ++ s.log ∧ ⟨.stopping i r, t⟩ ∈ recent

/-- No record that has never been leased is under an id of which a lease is owed. -/
def KeepsIds (lifecycle : LifecycleSettings) (e : Leased) (l : LeasedStep) : Prop :=
  ∀ k taken sent s, l = .serve k taken sent →
    (servedLeases lifecycle).serve e.server k taken sent s →
      ∀ r, ShownIn e.server.processes.state s.processes.state r → ∀ id i, r.get? id = some i →
        i.lastUsedAt = none → e.owed leases callers heldBy id = 0

/-! ### One step of the service -/

/-- The rest of an operation, of which every turn is steady. -/
def Steadily {α : Type} (p : Service α) : Prop :=
  ∃ c f, p = .call c f ∧ ∀ t, Guarded t → ∀ r, world.allowed c r t →
    (f r).wph steadyTurns (fun _ k₀ s₀ s => AtSteady k₀ s₀ s) () t t

structure Standing (s : RegistryService) : Prop where
  balanced : Pool.Balanced steadyTurns (fun _ => Guarded) s.processes
  allocating : ∀ a ∈ s.allocations, Steadily a.2.2

lemma Standing.guarded {s : RegistryService} (hs : Standing s) : Guarded s.processes.state := by
  obtain ⟨_, -, h⟩ := hs.balanced
  exact h

/-- The counters follow the leases that are granted and the releases that are taken up. -/
structure Accounted (s s' : RegistryService) (taken : Option (ℕ × ForwardCall))
    (sent : List (ℕ × SlotRelease.ForwardEvent)) : Prop where
  counts : ∀ id i', s'.registry.get? id = some i' →
    i'.lastUsedAt = none ∧ Exchange.grantsOf leases id sent = 0 ∨
    ∃ i, s.registry.get? id = some i ∧ i.activeRequests + Exchange.grantsOf leases id sent ≤
      i'.activeRequests + Exchange.returnsOf leases id taken
  stops : ∃ recent, s'.processes.state.log = recent ++ s.processes.state.log ∧
    ∀ i r t, ⟨.stopping i r, t⟩ ∈ recent → Steady s.registry r

/-- A turn without leases and releases. -/
lemma SteadySince.accounted {s s' : RegistryService} {taken : Option (ℕ × ForwardCall)}
    {sent : List (ℕ × SlotRelease.ForwardEvent)}
    (h : SteadySince s.processes.state s'.processes.state)
    (hsent : ∀ id, ∀ q ∈ sent, leases.granted q.2 ≠ some id) : Accounted s s' taken sent where
  counts id i' hi' := by
    have hgrants : Exchange.grantsOf leases id sent = 0 := Exchange.grantsOf_eq_zero (hsent id)
    rw [hgrants]
    by_cases hused : i'.lastUsedAt = none
    · exact Or.inl ⟨hused, rfl⟩
    · obtain ⟨i, hi, hcount, -⟩ := h.steady id i' hi' hused
      exact Or.inr ⟨i, hi, by omega⟩
  stops := h.stops

lemma steady_balance : Pool.Balance steadyTurns fun _ => Guarded where
  resume _ _ _ _ hs := hs
  own _ _ _ _ _ _ _ ht := ht.guarded
  drop _ _ _ hs := hs

/-- Any operation but a lease or a release. -/
lemma steady_body {op : Operation} (hlease : ∀ id, op ≠ .lease id)
    (hrelease : ∀ id, op ≠ .release id) {s : LifecycleState} (hs : Guarded s) :
    (body lifecycle op).wph steadyTurns (Pool.Over steadyTurns) () s s := by
  have B := steady_blocks lifecycle
  have hdiscard : ∀ {α : Type} {p : Service α}, Within steadyTurns AtSteady p (fun _ => True) →
      (Lifecycle.discard p).wph steadyTurns (Pool.Over steadyTurns) () s s := by
    intro α p hp
    have hdone := B.seq _ _ _ (fun x => .done (x.map fun _ => ())) _ (fun _ => True) hp
      fun _ _ => B.result _
    exact hdone.holds () s s (.refl hs)
  cases op with
  | lease id => exact absurd rfl (hlease id)
  | release id => exact absurd rfl (hrelease id)
  | reconcile queueLengths contextPlans => exact hdiscard (B.reconcile queueLengths contextPlans)
  | cleanup queueLengths => exact hdiscard (B.cleanup queueLengths)
  | allocate payload => exact hdiscard (B.allocate fun _ _ _ _ _ => trivial)

lemma AllocationTurn.standing {s s' : RegistryService} {n : ℕ} {payload : Mapping}
    {p : Service AllocationResult} {before after : List (ℕ × Mapping × Service AllocationResult)}
    {calls : List LifecycleEvent} {sent : List (ℕ × ProxyEvent)} (hs : Standing s)
    (hp : p.wph steadyTurns (fun _ k₀ s₀ s => AtSteady k₀ s₀ s) () s.processes.state
      s.processes.state)
    (hothers : ∀ a ∈ before ++ after, Steadily a.2.2)
    (h : AllocationTurn s n payload p before after calls sent s') :
    Standing s' ∧ SteadySince s.processes.state s'.processes.state := by
  obtain ⟨p', t, hturn, -, rfl⟩ := h
  obtain ⟨ks, hks, -⟩ := hs.balanced
  have hstanding : Guarded t → (∀ a ∈ remaining n payload p', Steadily a.2.2) →
      Standing { s with
        processes := ⟨t, s.processes.waiting⟩
        allocations := before ++ remaining n payload p' ++ after } := by
    refine fun ht hp' => ⟨⟨ks, hks, ht⟩, fun a ha => ?_⟩
    rw [List.append_assoc, List.mem_append, List.mem_append] at ha
    rcases ha with ha | ha | ha
    · exact hothers a (List.mem_append_left _ ha)
    · exact hp' a ha
    · exact hothers a (List.mem_append_right _ ha)
  rcases wph_turn (H := steadyTurns) hp hturn with
    ⟨x, rfl, hown⟩ | ⟨c, f, k, rfl, -, hown, hrest⟩
  · exact ⟨hstanding hown.guarded fun a ha => absurd ha List.not_mem_nil, hown⟩
  · refine ⟨hstanding hown.guarded fun a ha => ?_, hown⟩
    rw [mem_remaining ha]
    exact ⟨c, f, rfl, hrest⟩

/-- A lease or a release of an instance that is there, or nothing. -/
lemma adjusted_turn {s t : LifecycleState} {id : String} {delta : ℤ} {calls : List LifecycleEvent}
    {x : Except Exn BackendInstance} (hs : Guarded s)
    (h : (adjustActiveRequests id delta).Turn world s calls (.done x) t) : Guarded t ∧
      ((∃ e, x = .error e) ∧ t.registry = s.registry ∨ ∃ i u, s.registry.get? id = some i ∧
        t.registry = s.registry.set id (adjusted i delta u)) ∧
      ∃ recent, t.log = recent ++ s.log ∧ ∀ i r u, ⟨.stopping i r, u⟩ ∉ recent := by
  have hends : ∀ {A : LifecycleState → Prop}
      {M : Except Exn BackendInstance → LifecycleState → Prop},
      Triple world (fun _ => False) A (adjustActiveRequests id delta) M → A s → M x t := by
    intro A M hM hA
    rcases wpt_turn (D := keeping world fun _ => False) (hM s s hA) h with
      ⟨y, hy, ht⟩ | ⟨_, _, hc, -⟩
    · cases hy
      exact ht
    · cases hc
  refine ⟨hends (triple_adjustActiveRequests guarded_closed.leaseKeeps id delta) hs, ?_, ?_⟩
  · exact hends (triple_adjusted s.registry id delta) rfl
  · have hlog : LeaseKeeps fun u => ∃ recent, u.log = recent ++ s.log ∧
        ∀ i r w, ⟨.stopping i r, w⟩ ∉ recent := by
      have hnoted : ∀ {u : LifecycleState} {e : Lifecycle.Entry},
          (∀ i r w, e ≠ ⟨.stopping i r, w⟩) →
          (∃ recent, u.log = recent ++ s.log ∧ ∀ i r w, ⟨.stopping i r, w⟩ ∉ recent) →
          ∃ recent, e :: u.log = recent ++ s.log ∧ ∀ i r w, ⟨.stopping i r, w⟩ ∉ recent := by
        rintro u e he ⟨recent, hlog, hstops⟩
        refine ⟨e :: recent, by rw [hlog, List.cons_append], fun i r w hmem => ?_⟩
        rcases List.mem_cons.mp hmem with heq | hmem
        · exact he i r w heq.symm
        · exact hstops i r w hmem
      refine ⟨fun _ _ hu _ => hu, fun u id i delta hu _ _ => ?_, fun u id i delta hu _ _ => ?_⟩
      · exact hnoted (fun _ _ _ h => by cases h) hu
      · exact hnoted (fun _ _ _ h => by cases h) (hnoted (fun _ _ _ h => by cases h) hu)
    refine hends (triple_adjustActiveRequests hlog id delta) ⟨[], rfl, fun _ _ _ h => ?_⟩
    exact absurd h List.not_mem_nil

/-- What an adjustment of the counter under `id` accounts for. -/
lemma adjusted_accounted {s s' : RegistryService} {id : String} {delta : ℤ}
    {calls : List LifecycleEvent} {x : Except Exn BackendInstance}
    {taken : Option (ℕ × ForwardCall)} {sent : List (ℕ × SlotRelease.ForwardEvent)}
    (hs : Guarded s.processes.state)
    (h : (adjustActiveRequests id delta).Turn world s.processes.state calls (.done x)
      s'.processes.state)
    (hraised : ∀ e, x = .error e → Exchange.grantsOf leases id sent = 0)
    (hothers : ∀ k, k ≠ id → Exchange.grantsOf leases k sent = 0)
    (hdelta : ∀ c : ℤ, 0 ≤ c → c + Exchange.grantsOf leases id sent ≤
      max 0 (c + delta) + Exchange.returnsOf leases id taken) :
    Guarded s'.processes.state ∧ Accounted s s' taken sent := by
  obtain ⟨hguarded, hregistry, recent, hlog, hstops⟩ := adjusted_turn hs h
  refine ⟨hguarded, fun k i' hi' => ?_, recent, hlog, fun i r t ht => absurd ht (hstops i r t)⟩
  have hsame : k ≠ id ∨ (∃ e, x = .error e) → s.registry.get? k = some i' →
      ∃ i, s.registry.get? k = some i ∧ i.activeRequests + Exchange.grantsOf leases k sent ≤
        i'.activeRequests + Exchange.returnsOf leases k taken := by
    intro hk hi
    have hgrants : Exchange.grantsOf leases k sent = 0 := by
      by_cases hne : k = id
      · obtain ⟨e, he⟩ := hk.resolve_left fun h => h hne
        exact hne ▸ hraised e he
      · exact hothers k hne
    exact ⟨i', hi, by omega⟩
  have hi' : s'.processes.state.registry.get? k = some i' := hi'
  rcases hregistry with ⟨hx, hr⟩ | ⟨i, u, hi, hr⟩
  · rw [hr] at hi'
    exact Or.inr (hsame (Or.inr hx) hi')
  · rw [hr, Dict.get?_set] at hi'
    split at hi'
    · next hk =>
      cases hi'
      subst hk
      exact Or.inr ⟨i, hi, hdelta _ (hs.counted _ i hi)⟩
    · next hk => exact Or.inr (hsame (Or.inl hk) hi')

/-- The reply to a call. -/
def replyTo (n : ℕ) (c : ProxyCall) (r : c.Answer) : List (ℕ × SlotRelease.ForwardEvent) :=
  [(n, ⟨.proxy c, r⟩)]

/-- The replies that grant nothing. -/
lemma not_granted {n : ℕ} {c : ProxyCall} {r : c.Answer}
    (hc : leases.granted ⟨.proxy c, r⟩ = none) (id : String) :
    ∀ q ∈ replyTo n c r, leases.granted q.2 ≠ some id := by
  intro q hq
  obtain rfl := List.mem_singleton.mp hq
  rw [hc]
  exact fun h => by cases h

/-- The reply to a lease grants nothing else, and nothing if it failed. -/
lemma grantsOf_leaseResponse (n : ℕ) {id k : String} {x : Except Exn BackendInstance}
    (h : k ≠ id ∨ ∃ e, x = .error e) :
    Exchange.grantsOf leases k (replyTo n (.postLease id) (.ok (leaseResponse x))) = 0 := by
  refine Exchange.grantsOf_eq_zero fun q hq => ?_
  obtain rfl := List.mem_singleton.mp hq
  show leases.granted ⟨.proxy (.postLease id), .ok (leaseResponse x)⟩ ≠ some k
  rw [granted_postLease]
  rcases h with hne | ⟨e, rfl⟩
  · split
    · exact fun hk => hne (Option.some.inj hk).symm
    · exact fun hk => by cases hk
  · exact fun hk => by cases hk

lemma AllocationTurn.accounted {s s' : RegistryService} {n : ℕ} {payload : Mapping}
    {p : Service AllocationResult} {before after : List (ℕ × Mapping × Service AllocationResult)}
    {calls : List LifecycleEvent} {sent : List (ℕ × ProxyEvent)} {taken : Option (ℕ × ForwardCall)}
    (hs : Standing s)
    (hp : p.wph steadyTurns (fun _ k₀ s₀ s => AtSteady k₀ s₀ s) () s.processes.state
      s.processes.state)
    (hothers : ∀ a ∈ before ++ after, Steadily a.2.2)
    (h : AllocationTurn s n payload p before after calls sent s') :
    Standing s' ∧ Accounted s s' taken (sent.map fun q => (q.1, ⟨.proxy q.2.1, q.2.2⟩)) := by
  obtain ⟨hstanding, hsince⟩ := AllocationTurn.standing hs hp hothers h
  refine ⟨hstanding, SteadySince.accounted hsince fun id q hq => ?_⟩
  obtain ⟨reply, hreply, rfl⟩ := List.mem_map.mp hq
  obtain ⟨p', t, -, rfl, -⟩ := h
  obtain ⟨x, -, rfl⟩ := mem_replies hreply
  exact fun h => by cases h

/-- **One step of lifecycle** accounts for the leases. -/
theorem Standing.serve {s s' : RegistryService} {l : LeaseStep}
    {taken : Option (ℕ × ForwardCall)} {sent : List (ℕ × SlotRelease.ForwardEvent)}
    (hs : Standing s) (h : (servedLeases lifecycle).serve s l taken sent s') :
    Standing s' ∧ Accounted s s' taken sent := by
  obtain ⟨taken, sent, rfl, rfl, h⟩ := h
  obtain ⟨ks, hks, hguarded⟩ := hs.balanced
  cases l with
  | service k =>
    obtain ⟨hrelease, h⟩ := h
    cases k with
    | lifecycle l =>
      obtain ⟨rfl, rfl, hlease, processes, hstep, rfl⟩ := h
      have hbegin : ∀ op calls, l = .begin op calls → ∀ ks : List Unit,
          Guarded s.processes.state → Guarded s.processes.state ∧ (body lifecycle op).wph
            steadyTurns (Pool.Over steadyTurns) () s.processes.state s.processes.state := by
        refine fun op calls hl _ hs => ⟨hs, steady_body (fun id hop => ?_) (fun id hop => ?_) hs⟩
        · exact hlease id calls (by rw [hl, hop])
        · exact hrelease id calls (by rw [hl, hop])
      obtain ⟨_, _, _, _, -, hown, hbalanced⟩ :=
        Pool.step_balanced steady_balance hbegin hs.balanced hstep
      exact ⟨⟨hbalanced, hs.allocating⟩, SteadySince.accounted hown fun _ q hq => by cases hq⟩
    | list =>
      obtain ⟨rfl, n, rfl, rfl⟩ := h
      exact ⟨hs, SteadySince.accounted (.refl hguarded) (not_granted rfl)⟩
    | lease calls =>
      obtain ⟨n, id, x, t, rfl, hturn, rfl, hs'⟩ := h
      have hturn : (adjustActiveRequests id 1).Turn world s.processes.state calls (.done x)
          s'.processes.state := hs' ▸ hturn
      have hone : Exchange.grantsOf leases id
          (replyTo n (.postLease id) (.ok (leaseResponse x))) ≤ 1 := Exchange.grantsOf_le_one _
      obtain ⟨ht, haccounted⟩ := adjusted_accounted hguarded hturn
        (fun e he => grantsOf_leaseResponse n (Or.inr ⟨e, he⟩))
        (fun k hk => grantsOf_leaseResponse n (Or.inl hk)) fun c hc => by omega
      refine ⟨?_, haccounted⟩
      rw [hs'] at ht ⊢
      exact ⟨⟨ks, hks, ht⟩, hs.allocating⟩
    | allocate calls =>
      obtain ⟨n, payload, rfl, h⟩ := h
      have hallocate : Within steadyTurns AtSteady (Lifecycle.allocate lifecycle payload)
          fun _ => True := (steady_blocks lifecycle).allocate fun _ _ _ _ _ => trivial
      refine AllocationTurn.accounted hs (hallocate.holds () _ _ (.refl hguarded))
        (fun a ha => ?_) h
      rw [List.append_nil] at ha
      exact hs.allocating a ha
    | goOn answer calls =>
      obtain ⟨rfl, n, payload, before, f, after, hsplit, hallowed, h⟩ := h
      have hmem : ∀ a ∈ before ++ (n, payload, .call answer.1 f) :: after, Steadily a.2.2 :=
        hsplit ▸ hs.allocating
      obtain ⟨c, g, hcall, hrest⟩ := hmem _ (List.mem_append_right _ List.mem_cons_self)
      cases hcall
      refine AllocationTurn.accounted hs (hrest _ hguarded _ hallowed) (fun a ha => hmem a ?_) h
      rcases List.mem_append.mp ha with ha | ha
      · exact List.mem_append_left _ ha
      · exact List.mem_append_right _ (List.mem_cons_of_mem _ ha)
  | release calls =>
    obtain ⟨n, id, x, t, rfl, hturn, rfl, hs'⟩ := h
    have hturn : (adjustActiveRequests id (-1)).Turn world s.processes.state calls (.done x)
        s'.processes.state := hs' ▸ hturn
    have hnone : ∀ k, Exchange.grantsOf leases k
        (replyTo n (.deleteLease id) (.ok (leaseResponse x))) = 0 :=
      fun k => Exchange.grantsOf_eq_zero (not_granted rfl k)
    have hreturned : Exchange.returnsOf leases id
        (some ((n, .proxy (.deleteLease id)) : ℕ × ForwardCall)) = 1 :=
      Exchange.returnsOf_eq_one rfl
    obtain ⟨ht, haccounted⟩ := adjusted_accounted hguarded hturn (fun _ _ => hnone id)
      (fun k _ => hnone k) fun c hc => by rw [hnone, hreturned]; omega
    refine ⟨?_, haccounted⟩
    rw [hs'] at ht ⊢
    exact ⟨⟨ks, hks, ht⟩, hs.allocating⟩
  | restart calls =>
    obtain ⟨rfl, rfl, x, t, hturn, rfl⟩ := h
    have hload := (steadySince_loadKeeps s.processes.state).triple (I := fun _ => False)
      s.processes.state s.processes.state (.refl hguarded)
    rcases wpt_turn (D := keeping world fun _ => False) hload hturn with
      ⟨_, -, hsince⟩ | ⟨_, _, hc, -⟩
    · exact ⟨⟨⟨[], .nil, hsince.guarded⟩, fun a ha => absurd ha List.not_mem_nil⟩,
        SteadySince.accounted hsince fun _ q hq => by cases hq⟩
    · cases hc

/-! ### Runs -/

/-- The counter of an instance. -/
def counterOf (s : RegistryService) (id : String) : Option ℤ :=
  (s.registry.get? id).map BackendInstance.activeRequests

lemma granted_taken : Exchange.GrantsTaken leases (servedLeases lifecycle) := by
  rintro s l _ _ s' ⟨taken, sent, rfl, rfl, h⟩ q hq hgranted
  obtain ⟨p, hp, rfl⟩ := List.mem_map.mp hq
  have hlease : ∀ {c : ProxyCall} {r : c.Answer}, (∀ id, c ≠ .postLease id) →
      leases.granted ⟨.proxy c, r⟩ = none := by
    intro c r hc
    cases c with
    | postLease id => exact absurd rfl (hc id)
    | _ => rfl
  cases l with
  | service k =>
    cases k with
    | lifecycle l =>
      obtain ⟨-, -, rfl, -⟩ := h
      cases hp
    | list =>
      obtain ⟨-, -, n, -, rfl⟩ := h
      obtain rfl := List.mem_singleton.mp hp
      exact absurd (hlease fun _ h => by cases h) hgranted
    | lease calls =>
      obtain ⟨-, n, id, x, t, rfl, -, rfl, -⟩ := h
      obtain rfl := List.mem_singleton.mp hp
      exact ⟨_, rfl⟩
    | allocate calls =>
      obtain ⟨-, n, payload, -, p', t, -, rfl, -⟩ := h
      obtain ⟨x, -, rfl⟩ := mem_replies hp
      exact absurd (hlease fun _ h => by cases h) hgranted
    | goOn answer calls =>
      obtain ⟨-, -, n, payload, before, f, after, -, -, p', t, -, rfl, -⟩ := h
      obtain ⟨x, -, rfl⟩ := mem_replies hp
      exact absurd (hlease fun _ h => by cases h) hgranted
  | release calls =>
    obtain ⟨n, id, x, t, -, -, rfl, -⟩ := h
    obtain rfl := List.mem_singleton.mp hp
    exact absurd (hlease fun _ h => by cases h) hgranted
  | restart calls =>
    obtain ⟨-, rfl, -⟩ := h
    cases hp

/-- The callers and lifecycle are in order, and the counters cover the leases. -/
structure InCount (e : Leased) : Prop where
  numbered : Exchange.Numbered holds e
  honest : ∀ n x, e.parties.get? n = some x → Honest x
  standing : Standing e.server
  covered : Exchange.Covered leases callers heldBy counterOf e

/-- **One step** of the callers and lifecycle. -/
theorem InCount.step {e e' : Leased} {l : LeasedStep} (h : InCount e) (hl : KeepsIds lifecycle e l)
    (hstep : Exchange.step callers (servedLeases lifecycle) e l e') : InCount e' := by
  refine ⟨h.numbered.step servedLeases_replies hstep, ?_, ?_, ?_⟩
  · exact Exchange.parties_step (fun x hx => (callers_lends.enters x hx).1)
      (fun x d r x' hx hd hgoes => (callers_lends.goes x d r x' hx hd hgoes).1) h.honest hstep
  · by_cases hserve : ∃ k taken sent, l = .serve k taken sent
    · obtain ⟨k, taken, sent, rfl⟩ := hserve
      obtain ⟨-, s, hserve, rfl⟩ := hstep
      exact (h.standing.serve hserve).1
    · rw [Exchange.server_eq (fun k taken sent he => hserve ⟨k, taken, sent, he⟩) hstep]
      exact h.standing
  · refine h.covered.step callers_lends h.numbered h.honest granted_taken ?_ hstep
    rintro k taken sent s rfl hserve id c' hc'
    obtain ⟨hstanding, haccounted⟩ := h.standing.serve hserve
    obtain ⟨i', hi', rfl⟩ := Option.map_eq_some_iff.mp hc'
    rcases haccounted.counts id i' hi' with ⟨hunused, hgrants⟩ | ⟨i, hi, hle⟩
    · refine Or.inr ⟨?_, hgrants, hstanding.guarded.counted id i' hi'⟩
      exact hl k taken sent s rfl hserve _ (Or.inl rfl) id i' hi' hunused
    · exact Or.inl ⟨i.activeRequests, Option.map_eq_some_iff.mpr ⟨i, hi, rfl⟩, hle⟩

lemma reachable_inCount {e : Leased}
    (h : (leaseLts lifecycle).Reachable (KeepsIds lifecycle) e) : InCount e := by
  refine h.invariant (fun e he => ?_) fun e l e' he hl hstep => he.step hl hstep
  obtain ⟨⟨hloaded, hwaiting, hallocations⟩, hparties, hrequests, hreplies⟩ := he
  have hnone : ∀ n, e.parties.get? n = none := by
    rw [hparties]
    exact fun _ => rfl
  refine ⟨⟨fun n p hp => ?_, ?_, ?_, ?_⟩, fun n x hx => ?_, ⟨⟨[], ?_, hloaded.guarded⟩, ?_⟩, ?_⟩
  · rw [hnone] at hp
    cases hp
  · rw [hrequests]
    exact fun _ hq => absurd hq List.not_mem_nil
  · rw [hreplies]
    exact fun _ hq => absurd hq List.not_mem_nil
  · rintro n ⟨payload, p, hp⟩
    rw [hallocations] at hp
    cases hp
  · rw [hnone] at hx
    cases hx
  · rw [hwaiting]
    exact .nil
  · rw [hallocations]
    exact fun _ hq => absurd hq List.not_mem_nil
  · intro id c hc
    have hzero : e.owed leases callers heldBy id = 0 := by
      refine Exchange.owed_eq_zero (fun p hp => ?_) (fun q hq => ?_) fun q hq => ?_
      · rw [hparties] at hp
        cases hp
      · rw [hreplies] at hq
        cases hq
      · rw [hrequests] at hq
        cases hq
    obtain ⟨i, hi, rfl⟩ := Option.map_eq_some_iff.mp hc
    rw [hzero]
    exact hloaded.2 id i hi

/-- **Leases are counted**: the counter of an instance is at least the number of callers that hold a
lease of it and of releases that are on their way. -/
theorem leases_counted {e : Leased} (h : (leaseLts lifecycle).Reachable (KeepsIds lifecycle) e)
    {id : String} {i : BackendInstance} (hi : e.server.registry.get? id = some i) :
    e.holders leases callers heldBy id + e.returning leases id ≤ i.activeRequests := by
  have hcovered := (reachable_inCount h).covered id i.activeRequests
    (Option.map_eq_some_iff.mpr ⟨i, hi, rfl⟩)
  have hle : e.holders leases callers heldBy id + e.returning leases id ≤
      e.owed leases callers heldBy id := Exchange.holders_returning_le
  omega

/-! ### A run -/

def chatPolicy : ModelPolicy := { SlotRelease.samplePolicy with publicName := "chat" }

def secondInstance : BackendInstance := { servedInstance with instanceId := "chat-2" }

/-- Two instances that are ready. -/
def twoReady : RegistryService where
  processes := ⟨⟨(Dict.empty.set "chat-1" servedInstance).set "chat-2" secondInstance,
    ⟨0, Clock.limit_pos⟩, []⟩, []⟩
  allocations := []
  counted := []

lemma twoReady_get {id : String} {i : BackendInstance} (hi : twoReady.registry.get? id = some i) :
    id = "chat-2" ∧ i = secondInstance ∨ id = "chat-1" ∧ i = servedInstance := by
  have hi : ((Dict.empty.set "chat-1" servedInstance).set "chat-2" secondInstance).get? id =
    some i := hi
  rw [Dict.get?_set] at hi
  split at hi
  · next hid =>
    cases hi
    exact Or.inl ⟨hid, rfl⟩
  · rw [Dict.get?_set] at hi
    split at hi
    · next hid =>
      cases hi
      exact Or.inr ⟨hid, rfl⟩
    · cases hi

lemma twoReady_loaded : LoadedCounted twoReady.processes.state := by
  refine ⟨⟨fun id i hi => ?_, fun id i hi => ?_, rfl⟩, fun id i hi => ?_⟩
  all_goals rcases twoReady_get hi with ⟨rfl, rfl⟩ | ⟨rfl, rfl⟩
  · rfl
  · rfl
  · exact ⟨⟨_, Nat.le_refl _, rfl⟩, fun _ h => by cases h⟩
  · exact ⟨⟨_, Nat.le_refl _, rfl⟩, fun _ h => by cases h⟩
  · exact Int.le_refl 0
  · exact Int.le_refl 0

/-- The turn of the lease. -/
def leaseTurn : List LifecycleEvent × Service BackendInstance × LifecycleState :=
  (adjustActiveRequests "chat-1" 1).turnWith world (answersAt (atSecond 1) [])
    twoReady.processes.state

def leaseResult : Except Exn BackendInstance :=
  match leaseTurn.2.1 with
  | .done x => x
  | _ => .error Exn.cancelledError

lemma leaseTurn_turn : (adjustActiveRequests "chat-1" 1).Turn world twoReady.processes.state
    leaseTurn.1 (.done leaseResult) leaseTurn.2.2 :=
  turn_turnWith (W := world) (allowed_answersAt (atSecond 1) []) (adjustActiveRequests "chat-1" 1)
    twoReady.processes.state

/-- What a request is answered. -/
def answered : (c : ForwardCall) → c.Answer
  | .proxy .getRegistry => .ok (registryResponse twoReady.registry)
  | .proxy (.postLease _) => .ok (leaseResponse leaseResult)
  | c => refused c

/-- The request after a turn, with what it holds. -/
def turned (p : Caller ForwardState Unit) (s : ForwardState) (h : Option String) : Request :=
  ⟨(p.turn (fun _ => true) answered s).2.1, (p.turn (fun _ => true) answered s).2.2, h⟩

/-- The request after its next answer. -/
def next (x : Request) : Request :=
  match x.rest with
  | .call c f => turned (f (answered c)) x.state (leases.held x.held ⟨c, answered c⟩)
  | _ => x

lemma turned_advance (p : Caller ForwardState Unit) (s : ForwardState) (h : Option String) :
    p.Advance (fun _ => true) s [] (turned p s h).rest (turned p s h).state := by
  have hturn : p.Advance (fun _ => true) s _ _ _ := advance_turn answered p s
  have hnil : (p.turn (fun _ => true) answered s).1 = [] := by
    refine List.eq_nil_iff_forall_not_mem.mpr fun e he => ?_
    exact absurd (advance_quiet hturn e he) (by simp)
  rwa [hnil] at hturn

lemma goes_next {x : Request} {c : ForwardCall} (h : x.rest.awaited = some c) :
    callers.goes (.inl x) c (answered c) (.inl (next x)) := by
  have hshared : SlotRelease.shared.rely c (answered c) x.state x.state := by
    refine ⟨rfl, ?_⟩
    cases c with
    | await a => cases a <;> trivial
    | _ => trivial
  cases hrest : x.rest with
  | call d f =>
    rw [hrest] at h
    cases h
    have hnext : next x = turned (f (answered c)) x.state
        (leases.held x.held ⟨c, answered c⟩) := by
      rw [next, hrest]
    rw [hnext]
    exact ⟨f, x.state, hrest, hshared, turned_advance _ _ _, rfl⟩
  | _ =>
    rw [hrest] at h
    cases h

def entered : Request :=
  turned (Forward.request ResolveOutcomes.routingSettings chatPolicy "chat/completions"
    ProxySystem.samplePayload []) (Forward.start (ModelLimiter.new chatPolicy)) none

def admitted : Request := next entered
def shown : Request := next admitted
def granted : Request := next shown

lemma entered_waits : entered.rest.awaited = some (.await (.lock .acquire)) := rfl
lemma admitted_waits : admitted.rest.awaited = some (.proxy .getRegistry) := rfl
lemma shown_waits : shown.rest.awaited = some (.proxy (.postLease "chat-1")) := rfl
lemma granted_waits : granted.rest.awaited = some (.await .openClient) := rfl
lemma granted_held : granted.held = some "chat-1" := by decide +kernel

/-- One request waits. -/
def waiting (s : RegistryService) (n : ℕ) (x : Request) (requests : List (ℕ × ForwardCall))
    (replies : List (ℕ × SlotRelease.ForwardEvent)) : Leased :=
  ⟨s, Dict.empty.set n (.inl x), n + 1, requests, replies⟩

/-- The request goes on to its next call. -/
lemma waiting_goes {s : RegistryService} {n : ℕ} {x y : Request}
    {requests : List (ℕ × ForwardCall)} {replies : List (ℕ × SlotRelease.ForwardEvent)}
    {d : ForwardCall} (hd : y.rest.awaited = some d) :
    ((waiting s n x requests replies).leave n).arrive callers (.inl y) =
      waiting s (n + 1) y (requests ++ [(n + 1, d)]) replies := by
  have hcall : callers.call (.inl y) = some d := hd
  have hparties : ((Dict.empty : Dict ℕ Callers).set n (.inl x)).erase n = Dict.empty := by
    rw [Dict.erase_set, Dict.erase_eq_self rfl]
  rw [Exchange.arrive, hcall]
  show Exchange.mk s ((((Dict.empty : Dict ℕ Callers).set n (.inl x)).erase n).set (n + 1)
    (.inl y)) _ _ _ = _
  rw [hparties]
  rfl

lemma goes_waiting {s : RegistryService} {n : ℕ} {x : Request} {c : ForwardCall}
    {requests : List (ℕ × ForwardCall)} {replies : List (ℕ × SlotRelease.ForwardEvent)}
    (hc : x.rest.awaited = some c) :
    (waiting s n x requests replies).GoesOn callers n ⟨c, answered c⟩ (.inl (next x)) :=
  ⟨.inl x, Dict.get?_set_self _ _ _, hc, goes_next hc⟩

lemma waiting_resume {s : RegistryService} {n : ℕ} {x : Request} {c d : ForwardCall}
    {requests : List (ℕ × ForwardCall)} {replies : List (ℕ × SlotRelease.ForwardEvent)}
    (hc : x.rest.awaited = some c) (hd : (next x).rest.awaited = some d)
    (hmem : (n, ⟨c, answered c⟩) ∈ replies) :
    Exchange.step callers (servedLeases serving) (waiting s n x requests replies)
      (.resume n ⟨c, answered c⟩ (.inl (next x)))
      (waiting s (n + 1) (next x) (requests ++ [(n + 1, d)]) replies) :=
  ⟨hmem, goes_waiting hc, (waiting_goes hd).symm⟩

/-- A request that holds nothing. -/
lemma owed_waiting {s : RegistryService} {n : ℕ} {x : Request} {requests : List (ℕ × ForwardCall)}
    {replies : List (ℕ × SlotRelease.ForwardEvent)} {id : String} (hx : x.held ≠ some id)
    (hreplies : ∀ q ∈ replies, leases.granted q.2 ≠ some id)
    (hrequests : ∀ q ∈ requests, leases.returns q.2 ≠ some id) :
    (waiting s n x requests replies).owed leases callers heldBy id = 0 := by
  refine Exchange.owed_eq_zero (fun p hp => ?_) hreplies hrequests
  obtain rfl := List.mem_singleton.mp hp
  exact hx

def lockAsked : List (ℕ × ForwardCall) := [(0, .await (.lock .acquire))]

def shownReply : List (ℕ × SlotRelease.ForwardEvent) :=
  replyTo 1 .getRegistry (.ok (registryResponse twoReady.registry))

def leaseReply : List (ℕ × SlotRelease.ForwardEvent) :=
  replyTo 2 (.postLease "chat-1") (.ok (leaseResponse leaseResult))

/-- The lease has been counted. -/
def leasedServer : RegistryService :=
  { twoReady with
    processes := ⟨leaseTurn.2.2, []⟩
    counted := leased twoReady.registry "chat-1" }

/-- The request has its lease. -/
def holding : Leased :=
  waiting leasedServer 3 granted (lockAsked ++ [(3, .await .openClient)]) (shownReply ++ leaseReply)

lemma keepsIds_quiet {e : Leased} {l : LeasedStep} (hl : ∀ k taken sent, l ≠ .serve k taken sent) :
    KeepsIds serving e l := fun k taken sent _ h => absurd h (hl k taken sent)

/-- Nothing is owed yet. -/
lemma keepsIds_waiting {s : RegistryService} {n : ℕ} {x : Request} {l : LeasedStep}
    {requests : List (ℕ × ForwardCall)} {replies : List (ℕ × SlotRelease.ForwardEvent)}
    (hx : x.held = none) (hreplies : ∀ q ∈ replies, leases.granted q.2 = none)
    (hrequests : ∀ q ∈ requests, leases.returns q.2 = none) :
    KeepsIds serving (waiting s n x requests replies) l := by
  intro _ _ _ _ _ _ _ _ id _ _ _
  refine owed_waiting (fun h => ?_) (fun q hq h => ?_) fun q hq h => ?_
  · rw [hx] at h
    cases h
  · rw [hreplies q hq] at h
    cases h
  · rw [hrequests q hq] at h
    cases h

lemma reachable_holding : (leaseLts serving).Reachable (KeepsIds serving) holding := by
  have henter : (leaseLts serving).step ⟨twoReady, Dict.empty, 0, [], []⟩ (.enter (.inl entered))
      (waiting twoReady 0 entered lockAsked []) := by
    refine ⟨⟨rfl, _, _, ⟨_, _, _, _, _, _, rfl, rfl⟩, turned_advance _ _ _⟩, ?_⟩
    have hcall : callers.call (.inl entered) = some (.await (.lock .acquire)) := entered_waits
    rw [Exchange.arrive, hcall]
    rfl
  have hacquire : (leaseLts serving).step (waiting twoReady 0 entered lockAsked [])
      (.giveUp 0 ⟨.await (.lock .acquire), answered _⟩ (.inl admitted))
      (waiting twoReady 1 admitted (lockAsked ++ [(1, .proxy .getRegistry)]) []) :=
    ⟨Or.inl trivial, goes_waiting entered_waits, (waiting_goes admitted_waits).symm⟩
  have hlist : (leaseLts serving).step
      (waiting twoReady 1 admitted (lockAsked ++ [(1, .proxy .getRegistry)]) [])
      (.serve (.service .list) (some (1, .proxy .getRegistry)) shownReply)
      (waiting twoReady 1 admitted lockAsked shownReply) := by
    refine ⟨fun q hq => ?_, twoReady,
      ⟨some (1, .getRegistry), [(1, ⟨.getRegistry, _⟩)], rfl, rfl, ?_⟩, rfl⟩
    · cases hq
      exact List.mem_append_right _ (List.mem_singleton.mpr rfl)
    · exact ⟨(fun _ _ h => by cases h), rfl, 1, rfl, rfl⟩
  have hshown : (leaseLts serving).step (waiting twoReady 1 admitted lockAsked shownReply)
      (.resume 1 ⟨.proxy .getRegistry, answered _⟩ (.inl shown))
      (waiting twoReady 2 shown (lockAsked ++ [(2, .proxy (.postLease "chat-1"))]) shownReply) :=
    waiting_resume admitted_waits shown_waits (List.mem_singleton.mpr rfl)
  have hlease : (leaseLts serving).step
      (waiting twoReady 2 shown (lockAsked ++ [(2, .proxy (.postLease "chat-1"))]) shownReply)
      (.serve (.service (.lease leaseTurn.1)) (some (2, .proxy (.postLease "chat-1"))) leaseReply)
      (waiting leasedServer 2 shown lockAsked (shownReply ++ leaseReply)) := by
    refine ⟨fun q hq => ?_, leasedServer,
      ⟨some (2, .postLease "chat-1"), [(2, ⟨.postLease "chat-1", _⟩)], rfl, rfl, ?_⟩, rfl⟩
    · cases hq
      exact List.mem_append_right _ (List.mem_singleton.mpr rfl)
    · exact ⟨(fun _ _ h => by cases h), 2, "chat-1", leaseResult, leaseTurn.2.2, rfl,
        leaseTurn_turn, rfl, rfl⟩
  have hgranted : (leaseLts serving).step
      (waiting leasedServer 2 shown lockAsked (shownReply ++ leaseReply))
      (.resume 2 ⟨.proxy (.postLease "chat-1"), answered _⟩ (.inl granted)) holding :=
    waiting_resume shown_waits granted_waits
      (List.mem_append_right _ (List.mem_singleton.mpr rfl))
  have hinit : (leaseLts serving).init ⟨twoReady, Dict.empty, 0, [], []⟩ :=
    ⟨⟨twoReady_loaded, rfl, rfl⟩, rfl, rfl, rfl⟩
  refine (Lts.Reachable.init hinit).run ((((((Lts.Run.single (keepsIds_quiet ?_) henter).tail
    (keepsIds_quiet ?_) hacquire).tail (keepsIds_waiting rfl ?_ ?_) hlist).tail (keepsIds_quiet ?_)
    hshown).tail (keepsIds_waiting rfl ?_ ?_) hlease).tail (keepsIds_quiet ?_) hgranted)
  · exact fun _ _ _ h => by cases h
  · exact fun _ _ _ h => by cases h
  · exact fun q hq => absurd hq List.not_mem_nil
  · exact List.forall_mem_cons.mpr ⟨rfl, List.forall_mem_singleton.mpr rfl⟩
  · exact fun _ _ _ h => by cases h
  · exact List.forall_mem_singleton.mpr rfl
  · exact List.forall_mem_cons.mpr ⟨rfl, List.forall_mem_singleton.mpr rfl⟩
  · exact fun _ _ _ h => by cases h

lemma holding_holds : Exchange.Holds leases callers heldBy "chat-1" (.inl granted) :=
  ⟨granted_held, _, granted_waits, rfl⟩

lemma holding_get : holding.parties.get? 3 = some (.inl granted) := Dict.get?_set_self _ _ _

theorem leases_counted_sample : ∃ (e : Leased) (i : BackendInstance),
    e.server.registry.get? "chat-1" = some i ∧ i.activeRequests = 1 ∧
    e.holders leases callers heldBy "chat-1" = 1 ∧ e.returning leases "chat-1" = 0 := by
  have hcounter : (holding.server.registry.get? "chat-1").map BackendInstance.activeRequests =
      some 1 := by decide +kernel
  obtain ⟨i, hi, hone⟩ := Option.map_eq_some_iff.mp hcounter
  have hcounted := leases_counted reachable_holding hi
  have hpos : holding.holders leases callers heldBy "chat-1" ≠ 0 := fun h =>
    Exchange.not_holds h holding_get holding_holds
  exact ⟨holding, i, hi, hone, by omega, by omega⟩

/-! ### Stops -/

/-- **No instance is stopped under a lease**: when `stop_instance` calls the stop of an adapter, no
caller holds a lease of the instance. -/
theorem stopped_unheld {e e' : Leased} {l : LeasedStep}
    (h : (leaseLts lifecycle).Reachable (KeepsIds lifecycle) e) (hl : KeepsIds lifecycle e l)
    (hstep : (leaseLts lifecycle).step e l e') {recent : List Lifecycle.Entry} {i : BackendInstance}
    {r : Registry} {t : Clock.DateTime}
    (hlog : e'.server.processes.state.log = recent ++ e.server.processes.state.log)
    (hstop : ⟨.stopping i r, t⟩ ∈ recent) {n : ℕ} {x : Callers} (hx : e.parties.get? n = some x) :
    ¬ Exchange.Holds leases callers heldBy i.instanceId x := by
  have hcount := reachable_inCount h
  have hzero : e.owed leases callers heldBy i.instanceId = 0 := by
    by_cases hserve : ∃ k taken sent, l = .serve k taken sent
    · obtain ⟨k, taken, sent, rfl⟩ := hserve
      obtain ⟨-, s, hserve, rfl⟩ := hstep
      obtain ⟨hstanding, haccounted⟩ := hcount.standing.serve hserve
      obtain ⟨record, hrecord, hnone⟩ := hstanding.guarded.stops i r t
        (hlog ▸ List.mem_append_left _ hstop)
      by_cases hused : record.lastUsedAt = none
      · have hshown : ShownIn e.server.processes.state s.processes.state r :=
          Or.inr ⟨recent, i, t, hlog, hstop⟩
        exact hl k taken sent s rfl hserve r hshown _ record hrecord hused
      · -- the record has been leased, so its counter is that of the beginning of the step
        obtain ⟨recent', hlog', hsteady⟩ := haccounted.stops
        obtain rfl := List.append_cancel_right (hlog.symm.trans hlog')
        obtain ⟨i₀, hi₀, hcount₀, -⟩ := hsteady i r t hstop _ record hrecord hused
        have hcovered := hcount.covered i.instanceId i₀.activeRequests
          (Option.map_eq_some_iff.mpr ⟨i₀, hi₀, rfl⟩)
        omega
    · rw [Exchange.server_eq (fun k taken sent he => hserve ⟨k, taken, sent, he⟩) hstep] at hlog
      have hnil : recent = [] := List.append_cancel_right (hlog.symm.trans (List.nil_append _).symm)
      rw [hnil] at hstop
      cases hstop
  have hle : e.holders leases callers heldBy i.instanceId + e.returning leases i.instanceId ≤
      e.owed leases callers heldBy i.instanceId := Exchange.holders_returning_le
  exact Exchange.not_holds (by omega) hx

/-- Five minutes later lifecycle stops the other instance. -/
def cleanup : List LifecycleEvent × Service Unit × LifecycleState :=
  (body serving (.cleanup .empty)).turnWith world (answersAt (atSecond 300) [])
    holding.server.processes.state

def otherStopped : Leased :=
  { holding with server := { holding.server with
      processes := holding.server.processes.beginWith world (body serving)
        (answersAt (atSecond 300) []) (.cleanup .empty) } }

abbrev stoppingOther : LeasedStep :=
  .serve (.service (.lifecycle (.begin (.cleanup .empty) cleanup.1))) none []

/-- The instance of the request has been leased. -/
def chatUsed (r : Registry) : Bool := (r.get? "chat-1").all fun i => i.lastUsedAt.isSome

def chatUsedAt : Lifecycle.Entry → Bool
  | ⟨.stopping _ r, _⟩ => chatUsed r
  | _ => true

lemma chatUsed_shown {r : Registry}
    (h : ShownIn holding.server.processes.state otherStopped.server.processes.state r) :
    chatUsed r = true := by
  have hlog : otherStopped.server.processes.state.log.all chatUsedAt = true := by decide +kernel
  rcases h with rfl | ⟨recent, i, t, hrecent, hmem⟩
  · decide +kernel
  · rw [hrecent] at hlog
    exact List.all_eq_true.mp hlog _ (List.mem_append_left _ hmem)

def stopsOther : Lifecycle.Entry → Bool
  | ⟨.stopping i _, _⟩ => i.instanceId = "chat-2"
  | _ => false

lemma serve_otherStopped : (servedLeases serving).serve holding.server
    (.service (.lifecycle (.begin (.cleanup .empty) cleanup.1))) none [] otherStopped.server := by
  refine ⟨none, [], rfl, rfl, fun _ _ h => ?_, rfl, rfl, fun _ _ h => ?_, _,
    Pool.step_beginWith (allowed_answersAt (atSecond 300) []) _ _, rfl⟩
  · cases h
  · cases h

lemma keepsIds_otherStopped : KeepsIds serving holding stoppingOther := by
  intro k taken sent s hl hserve r hr id i hi hunused
  cases hl
  obtain ⟨_, _, -, -, -, -, -, -, processes, ⟨p, hturn, -⟩, rfl⟩ := hserve
  obtain ⟨-, hstate⟩ := hturn.unique (turn_turnWith (allowed_answersAt (atSecond 300) []) _ _)
  have hr : ShownIn holding.server.processes.state processes.state r := hr
  rw [hstate] at hr
  have hused : chatUsed r = true := chatUsed_shown hr
  have hid : "chat-1" ≠ id := by
    rintro rfl
    rw [chatUsed, hi, Option.all_some, hunused] at hused
    cases hused
  have hgranted : leases.granted ⟨.proxy (.postLease "chat-1"), answered _⟩ = some "chat-1" := by
    decide +kernel
  refine owed_waiting (fun h => hid ?_) (fun q hq h => ?_) fun q hq h => ?_
  · exact Option.some.inj (granted_held.symm.trans h)
  · rcases List.mem_cons.mp hq with rfl | hq
    · cases h
    · obtain rfl := List.mem_singleton.mp hq
      exact hid (Option.some.inj (hgranted.symm.trans h))
  · rcases List.mem_cons.mp hq with rfl | hq
    · cases h
    · obtain rfl := List.mem_singleton.mp hq
      cases h

/-- The request keeps its instance while lifecycle stops the other one. -/
theorem stopped_unheld_sample : ∃ (e e' : Leased) (n : ℕ) (x : Callers)
    (recent : List Lifecycle.Entry) (i : BackendInstance) (r : Registry) (t : Clock.DateTime),
    e'.server.processes.state.log = recent ++ e.server.processes.state.log ∧
    ⟨.stopping i r, t⟩ ∈ recent ∧ i.instanceId = "chat-2" ∧ e.parties.get? n = some x ∧
    Exchange.Holds leases callers heldBy "chat-1" x ∧
    ¬ Exchange.Holds leases callers heldBy i.instanceId x := by
  have hstep : (leaseLts serving).step holding stoppingOther otherStopped :=
    ⟨(fun q hq => by cases hq), _, serve_otherStopped, rfl⟩
  have haccounted := ((reachable_inCount reachable_holding).standing.serve serve_otherStopped).2
  obtain ⟨recent, hlog, -⟩ := haccounted.stops
  have hbefore : holding.server.processes.state.log.any stopsOther = false := by decide +kernel
  have hafter : otherStopped.server.processes.state.log.any stopsOther = true := by decide +kernel
  rw [hlog, List.any_append, hbefore, Bool.or_false] at hafter
  obtain ⟨⟨entry, t⟩, hmem, hstops⟩ := List.any_eq_true.mp hafter
  cases entry with
  | stopping i r =>
    have hunheld := stopped_unheld reachable_holding keepsIds_otherStopped hstep hlog hmem
      holding_get
    exact ⟨holding, otherStopped, 3, _, recent, i, r, t, hlog, hmem, of_decide_eq_true hstops,
      holding_get, holding_holds, hunheld⟩
  | _ => cases hstops

end Orchestrator.Leases
