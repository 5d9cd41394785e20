import Orchestrator.Lib.Messages
import Orchestrator.RegistryReplies
import Orchestrator.UnleasedStops

/-!
Routing and the operations of lifecycle at the same time. A client reads the registry, chooses a
ready instance and leases it with another call, and lifecycle does anything between the two: the
lease does not look at the state of the instance.

So what is leased is ready exactly as long as lifecycle leaves alone the instances of which a lease
is due, from its reply to the lookup, or to the allocation, until it counts the lease.
-/

namespace Orchestrator.LeaseRouting

open Lib Lib.Coro Lifecycle BackendResolver RegistryClient ProxyInstance ResolveOutcomes
open RegistryReplies

variable {lifecycle : LifecycleSettings} {settings : Settings}

/-! ### The clients -/

/-- What is left of a resolution. -/
abbrev Client := Proxy Unit Target

def call : Client → Option ProxyCall
  | .call c _ => some c
  | _ => none

/-- The turn of a client that gets an answer. -/
def goes (p : Client) (c : ProxyCall) (r : c.Answer) (p' : Client) : Prop :=
  ∃ f es, p = .call c f ∧ (f r).Advance ProxyCall.suspends () es p' ()

/-- An exception instead of a response: a timeout, an unreachable server, a cancellation. -/
def givenUp : (c : ProxyCall) → c.Answer → Prop
  | .utcNow, _ | .datetimeNow, _ => False
  | .getRegistry, r | .postAllocation _, r | .postLease _, r | .deleteLease _, r
  | .postReconcile _, r | .postExplain _, r | .postUpstream _ _, r => ∃ e : Exn, r = .error e

def clients (settings : Settings) : Parties Client ProxyCall ProxyCall.Answer where
  enters p := ∃ model orchestration es,
    (resolve settings model orchestration).Advance ProxyCall.suspends () es p ()
  call := call
  goes := goes
  failure := givenUp

/-! ### The service -/

/-- The lifecycle service with the allocations that it makes for clients, and for the sake of the
results the leases that it has counted, with the states of the instances then. -/
structure RegistryService where
  processes : Processes
  allocations : List (ℕ × Mapping × Service AllocationResult)
  counted : List (String × BackendState)

abbrev LifecycleEvent := Event LifecycleCall LifecycleCall.Answer

inductive ServiceStep
  /-- any other operation than a lease -/
  | lifecycle (l : ProcessStep)
  | list
  | lease (calls : List LifecycleEvent)
  | allocate (calls : List LifecycleEvent)
  | goOn (answer : LifecycleEvent) (calls : List LifecycleEvent)

def RegistryService.registry (s : RegistryService) : Registry := s.processes.state.registry

/-- The allocation, if it is not over. -/
def remaining (n : ℕ) (payload : Mapping) :
    Service AllocationResult → List (ℕ × Mapping × Service AllocationResult)
  | .done _ => []
  | p => [(n, payload, p)]

/-- The reply to an allocation that is over. -/
def replies (n : ℕ) (payload : Mapping) : Service AllocationResult → List (ℕ × ProxyEvent)
  | .done x => [(n, ⟨.postAllocation payload, .ok (allocationResponse x)⟩)]
  | _ => []

/-- The lease of an instance that is there. -/
def leased (r : Registry) (id : String) : List (String × BackendState) :=
  match r.get? id with
  | some i => [(id, i.state)]
  | none => []

/-- A turn of an allocation, which stands between others. -/
def AllocationTurn (s : RegistryService) (n : ℕ) (payload : Mapping) (p : Service AllocationResult)
    (before after : List (ℕ × Mapping × Service AllocationResult)) (calls : List LifecycleEvent)
    (sent : List (ℕ × ProxyEvent)) (s' : RegistryService) : Prop :=
  ∃ p' t, p.Turn world s.processes.state calls p' t ∧ sent = replies n payload p' ∧
    s' = { s with
      processes := ⟨t, s.processes.waiting⟩
      allocations := before ++ remaining n payload p' ++ after }

def serve (lifecycle : LifecycleSettings) (s : RegistryService) (l : ServiceStep)
    (taken : Option (ℕ × ProxyCall)) (sent : List (ℕ × ProxyEvent)) (s' : RegistryService) : Prop :=
  match l with
  | .lifecycle l => taken = none ∧ sent = [] ∧ (∀ id calls, l ≠ .begin (.lease id) calls) ∧
      ∃ processes, Pool.step world (body lifecycle) s.processes l processes ∧
        s' = { s with processes }
  | .list => s' = s ∧ ∃ n, taken = some (n, .getRegistry) ∧
      sent = [(n, ⟨.getRegistry, .ok (registryResponse s.registry)⟩)]
  | .lease calls => ∃ n id x t, taken = some (n, .postLease id) ∧
      (adjustActiveRequests id 1).Turn world s.processes.state calls (.done x) t ∧
      sent = [(n, ⟨.postLease id, .ok (leaseResponse x)⟩)] ∧
      s' = { s with
        processes := ⟨t, s.processes.waiting⟩
        counted := leased s.registry id ++ s.counted }
  | .allocate calls => ∃ n payload, taken = some (n, .postAllocation payload) ∧
      AllocationTurn s n payload (allocate lifecycle payload) s.allocations [] calls sent s'
  | .goOn answer calls => taken = none ∧ ∃ n payload before f after,
      s.allocations = before ++ (n, payload, .call answer.1 f) :: after ∧
      world.allowed answer.1 answer.2 s.processes.state ∧
      AllocationTurn s n payload (f answer.2) before after calls sent s'

/-- A registry as lifecycle has written it. -/
def service (lifecycle : LifecycleSettings) :
    Server RegistryService ServiceStep ProxyCall ProxyCall.Answer where
  init s := Keyed s.processes.state ∧ s.processes.waiting = [] ∧ s.allocations = [] ∧ s.counted = []
  serve := serve lifecycle

abbrev Routes := Exchange RegistryService Client ProxyCall ProxyCall.Answer
abbrev RouteStep := ExchangeStep ServiceStep Client ProxyCall ProxyCall.Answer

variable (settings lifecycle) in
/-- The clients that route requests, and lifecycle. -/
def routingLts : Lts Routes RouteStep := Exchange.lts (clients settings) (service lifecycle)

/-! ### The property and the condition -/

/-- A lease of the id, if it is counted now, is that of a ready instance. -/
def ReadyIn (s : RegistryService) (id : String) : Prop :=
  ∀ i, s.registry.get? id = some i → i.state = .ready

/-- The lease is due: its call is on its way, or its client makes it as soon as the reply of
lifecycle, which has been sent, arrives. -/
def LeaseDue (settings : Settings) (e : Routes) (id : String) : Prop :=
  e.Due (clients settings) (.postLease id)

/-- The step is one of lifecycle's operations, a lease apart. -/
def ServiceStep.isOwn : ServiceStep → Bool
  | .lifecycle _ | .allocate _ | .goOn _ _ => true
  | .list | .lease _ => false

/-- No operation of lifecycle leaves an instance in another state than ready while a lease of it is
due. -/
def Undisturbed (settings : Settings) (lifecycle : LifecycleSettings) (e : Routes)
    (l : RouteStep) : Prop :=
  ∀ k taken sent, l = .serve k taken sent → k.isOwn = true →
    ∀ s, serve lifecycle e.server k taken sent s →
      ∀ id, LeaseDue settings e id → ReadyIn e.server id → ReadyIn s id

/-! ### What a client leases -/

lemma leaseChosen_next (settings : Settings) (backend : ProxyInstance) :
    ∃ f : _ → Client, leaseChosen settings backend = .call (.postLease backend.instanceId) f ∧
      ∀ r, ∃ x, f r = .done x := by
  refine ⟨_, rfl, fun r => ?_⟩
  cases hr : statusOnly r with
  | ok a => exact ⟨_, by simp only [hr, lift, after_done]; rfl⟩
  | error e =>
    simp only [hr, lift, after_done]
    split <;> exact ⟨_, rfl⟩

lemma allocationFailed_done (e : Exn) : ∃ x, (allocationFailed e : Proxy Unit _) = .done x ∧
    ∀ backend, x ≠ .ok (some backend) := by
  unfold allocationFailed
  split
  · split
    · exact ⟨_, rfl, fun _ h => by cases h⟩
    · exact ⟨_, rfl, fun _ h => by cases h⟩
  · exact ⟨_, rfl, fun _ h => by cases h⟩
  · exact ⟨_, rfl, fun _ h => by cases h⟩

lemma allocateAndLease_next (settings : Settings) (model : String) (orchestration : Mapping) :
    ∃ f : _ → Client, allocateAndLease settings model orchestration =
        .call (.postAllocation (allocationPayload model orchestration)) f ∧
      ∀ r, (∃ x, f r = .done x) ∨ ∃ backend, f r = leaseChosen settings backend ∧
        allocationResult r = .ok (some backend) ∧ backend.isReady = true := by
  refine ⟨_, rfl, fun r => ?_⟩
  cases hr : allocationResult r with
  | error e =>
    obtain ⟨x, hx, hnot⟩ := allocationFailed_done e
    simp only [hr, lift, after_done, hx]
    refine Or.inl ?_
    split
    · exact absurd rfl (hnot _)
    · exact ⟨_, rfl⟩
    · split <;> exact ⟨_, rfl⟩
  | ok o =>
    simp only [hr, lift, after_done, pure_eq]
    cases o with
    | none => exact Or.inl ⟨_, rfl⟩
    | some backend =>
      dsimp only
      split
      · next hready => exact Or.inr ⟨backend, rfl, rfl, hready⟩
      · exact Or.inl ⟨_, rfl⟩

/-- The part of `resolve` after the answer of the registry. -/
def looked (settings : Settings) (model : String) (orchestration : Mapping) :
    Except Exn (Option ProxyInstance) → Client
  | .ok (some backend) => leaseChosen settings backend
  | .ok none => allocateAndLease settings model orchestration
  | .error e => if e.isHTTPError then pure (fallback settings) else raise e

lemma resolve_call {model : String} {orchestration : Mapping}
    (h : ¬ (!settings.enableBackendRegistryRouting || !settings.hasRegistryClient) = true) :
    (resolve settings model orchestration : Client) = .call .getRegistry fun r =>
      looked settings model orchestration
        ((instancesOf r).map fun instances => leastActive (readyFor model instances)) := by
  rw [resolve, if_neg h]
  refine congrArg (Coro.call ProxyCall.getRegistry) (funext fun r => ?_)
  show after (after (lift (instancesOf r)) (onOk fun instances =>
    pure (leastActive (readyFor model instances)))) _ = _
  cases instancesOf r with
  | error e => rfl
  | ok instances =>
    show _ = looked settings model orchestration (.ok (leastActive (readyFor model instances)))
    simp only [lift, after_done, onOk_ok, pure_eq]
    cases leastActive (readyFor model instances) <;> rfl

lemma resolve_next (settings : Settings) (model : String) (orchestration : Mapping) :
    (∃ x, (resolve settings model orchestration : Client) = .done x) ∨
    ∃ f : _ → Client, resolve settings model orchestration = .call .getRegistry f ∧
      ∀ r, (∃ x, f r = .done x) ∨ f r = allocateAndLease settings model orchestration ∨
        ∃ instances backend, f r = leaseChosen settings backend ∧ instancesOf r = .ok instances ∧
          backend ∈ instances ∧ backend.isReady = true := by
  by_cases h : (!settings.enableBackendRegistryRouting || !settings.hasRegistryClient) = true
  · exact Or.inl ⟨_, by rw [resolve, if_pos h]; rfl⟩
  refine Or.inr ⟨_, resolve_call h, fun r => ?_⟩
  cases hr : instancesOf r with
  | error e =>
    show (∃ x, (if e.isHTTPError then pure (fallback settings) else raise e : Client) = _) ∨ _
    split <;> exact Or.inl ⟨_, rfl⟩
  | ok instances =>
    cases hleast : leastActive (readyFor model instances) with
    | none => exact Or.inr (Or.inl (by rw [Except.map, hleast]; rfl))
    | some backend =>
      have hmem := leastActive_mem hleast
      rw [readyFor, List.mem_filter, Bool.and_eq_true] at hmem
      refine Or.inr (Or.inr ⟨instances, backend, ?_, rfl, hmem.1, hmem.2.2⟩)
      rw [Except.map, hleast]
      rfl

/-- What is left of a resolution. -/
inductive Resolving (settings : Settings) : Client → Prop
  | lookup (model : String) (orchestration : Mapping) :
      Resolving settings (resolve settings model orchestration)
  | allocation (model : String) (orchestration : Mapping) :
      Resolving settings (allocateAndLease settings model orchestration)
  | lease (backend : ProxyInstance) : Resolving settings (leaseChosen settings backend)
  | ended (x : Except Exn Target) : Resolving settings (.done x)

/-- A client calls right away. -/
lemma Resolving.stands {p p' : Client} (h : Resolving settings p) {es : List ProxyEvent}
    (ha : p.Advance ProxyCall.suspends () es p' ()) : p' = p := by
  have hcall : ∀ {c : ProxyCall} {f : c.Answer → Client}, c.suspends = true → p = .call c f →
      p' = p := by
    rintro c f hc rfl
    exact ((advance_await hc).mp ha).2.1
  cases h with
  | lookup model orchestration =>
    rcases resolve_next settings model orchestration with ⟨x, hx⟩ | ⟨f, hf, -⟩
    · rw [hx] at ha ⊢
      exact (advance_done.mp ha).2.1
    · exact hcall rfl hf
  | allocation model orchestration =>
    obtain ⟨f, hf, -⟩ := allocateAndLease_next settings model orchestration
    exact hcall rfl hf
  | lease backend =>
    obtain ⟨f, hf, -⟩ := leaseChosen_next settings backend
    exact hcall rfl hf
  | ended x => exact (advance_done.mp ha).2.1

/-- **One turn of a client**: it leases only what its answer shows. -/
lemma Resolving.goes {p p' : Client} (h : Resolving settings p) {c : ProxyCall} {r : c.Answer}
    (hgoes : goes p c r p') : Resolving settings p' ∧
      ∀ id, call p' = some (.postLease id) → Shows c r id := by
  obtain ⟨f, es, hp, ha⟩ := hgoes
  have hover : ∀ x, f r = .done x → Resolving settings p' ∧
      ∀ id, call p' = some (.postLease id) → Shows c r id := by
    intro x hx
    rw [hx] at ha
    obtain rfl := (advance_done.mp ha).2.1
    exact ⟨.ended x, fun _ h => by cases h⟩
  have hlease : ∀ backend, f r = leaseChosen settings backend → Shows c r backend.instanceId →
      Resolving settings p' ∧ ∀ id, call p' = some (.postLease id) → Shows c r id := by
    intro backend hx hshows
    rw [hx] at ha
    obtain rfl := (Resolving.lease backend).stands ha
    refine ⟨.lease backend, fun id hid => ?_⟩
    obtain ⟨g, hg, -⟩ := leaseChosen_next settings backend
    rw [hg] at hid
    cases hid
    exact hshows
  cases h with
  | lookup model orchestration =>
    rcases resolve_next settings model orchestration with ⟨x, hx⟩ | ⟨g, hg, hnext⟩
    · rw [hx] at hp
      cases hp
    · rw [hg] at hp
      cases hp
      rcases hnext r with ⟨x, hx⟩ | hx | ⟨instances, backend, hx, hr, hmem, hready⟩
      · exact hover x hx
      · rw [hx] at ha
        obtain rfl := (Resolving.allocation model orchestration).stands ha
        refine ⟨.allocation model orchestration, fun id hid => ?_⟩
        obtain ⟨g', hg', -⟩ := allocateAndLease_next settings model orchestration
        rw [hg'] at hid
        cases hid
      · exact hlease backend hx ⟨instances, backend, hr, hmem, hready, rfl⟩
  | allocation model orchestration =>
    obtain ⟨g, hg, hnext⟩ := allocateAndLease_next settings model orchestration
    rw [hg] at hp
    cases hp
    rcases hnext r with ⟨x, hx⟩ | ⟨backend, hx, hr, hready⟩
    · exact hover x hx
    · exact hlease backend hx ⟨backend, hr, hready, rfl⟩
  | lease backend =>
    obtain ⟨g, hg, hnext⟩ := leaseChosen_next settings backend
    rw [hg] at hp
    cases hp
    obtain ⟨x, hx⟩ := hnext r
    exact hover x hx
  | ended x => cases hp

lemma not_shows_givenUp {c : ProxyCall} {r : c.Answer} (h : givenUp c r) (id : String) :
    ¬ Shows c r id := by
  cases c with
  | getRegistry =>
    obtain ⟨e, rfl⟩ := h
    rintro ⟨_, _, hr, -⟩
    cases hr
  | postAllocation payload =>
    obtain ⟨e, rfl⟩ := h
    rintro ⟨_, hr, -⟩
    cases hr
  | _ => exact fun h => h

/-! ### The invariant -/

/-- The calls of the allocations that are under way. -/
def holds (s : RegistryService) (n : ℕ) : Prop := ∃ payload p, (n, payload, p) ∈ s.allocations

/-- The rest of an allocation, which waits. -/
def Allocating (p : Service AllocationResult) : Prop :=
  ∃ c f, p = .call c f ∧ ∀ t, Keyed t → ∀ r, world.allowed c r t →
    (f r).wpt (keeping world Keyed) (fun x _ s => Keyed s ∧ Returned x s) t t

/-- The registry and the operations under way are in order, and each lease counted so far was that
of a ready instance. -/
structure InOrder (s : RegistryService) : Prop where
  keyed : Keyed s.processes.state
  waiting : ∀ q ∈ s.processes.waiting, Pool.Waits (keeping world Keyed) q s.processes.state
  allocating : ∀ a ∈ s.allocations, Allocating a.2.2
  counted : ∀ p ∈ s.counted, p.2 = .ready

structure Routed (settings : Settings) (e : Routes) : Prop where
  numbered : Exchange.Numbered holds e
  inOrder : InOrder e.server
  resolving : ∀ n p, e.parties.get? n = some p → Resolving settings p
  due : ∀ c, e.Due (clients settings) c → ∀ id, c = .postLease id → ReadyIn e.server id

lemma waits_keyed {q : Service Unit} {s t : LifecycleState}
    (h : Pool.Waits (keeping world Keyed) q s) : Pool.Waits (keeping world Keyed) q t := by
  obtain ⟨c, f, rfl, hf⟩ := h
  exact ⟨c, f, rfl, hf⟩

lemma mem_remaining {n : ℕ} {payload : Mapping} {p : Service AllocationResult}
    {a : ℕ × Mapping × Service AllocationResult} (h : a ∈ remaining n payload p) :
    a = (n, payload, p) := by
  cases p with
  | done x => cases h
  | _ => exact List.mem_singleton.mp h

lemma mem_replies {n : ℕ} {payload : Mapping} {p : Service AllocationResult} {q : ℕ × ProxyEvent}
    (h : q ∈ replies n payload p) : ∃ x, p = .done x ∧
      q = (n, ⟨.postAllocation payload, .ok (allocationResponse x)⟩) := by
  cases p with
  | done x => exact ⟨x, rfl, List.mem_singleton.mp h⟩
  | _ => cases h

/-- A turn of an allocation keeps the registry in order; when it is over, it shows what is ready. -/
lemma AllocationTurn.keeps {s s' : RegistryService} {n : ℕ} {payload : Mapping}
    {p : Service AllocationResult} {before after : List (ℕ × Mapping × Service AllocationResult)}
    {calls : List LifecycleEvent} {sent : List (ℕ × ProxyEvent)}
    (hp : p.wpt (keeping world Keyed) (fun x _ t => Keyed t ∧ Returned x t) s.processes.state
      s.processes.state)
    (hothers : ∀ a ∈ before ++ after, Allocating a.2.2)
    (h : AllocationTurn s n payload p before after calls sent s') :
    Keyed s'.processes.state ∧ (∀ a ∈ s'.allocations, Allocating a.2.2) ∧
      ∀ q ∈ sent, ∃ x, q = (n, ⟨.postAllocation payload, .ok (allocationResponse x)⟩) ∧
        Returned x s'.processes.state := by
  obtain ⟨p', t, hturn, rfl, rfl⟩ := h
  have hallocating : Allocating p' ∨ (∃ x, p' = .done x) →
      ∀ a ∈ before ++ remaining n payload p' ++ after, Allocating a.2.2 := by
    intro hp' a ha
    rw [List.append_assoc, List.mem_append, List.mem_append] at ha
    rcases ha with ha | ha | ha
    · exact hothers a (List.mem_append_left _ ha)
    · rcases hp' with hp' | ⟨x, rfl⟩
      · rw [mem_remaining ha]
        exact hp'
      · cases ha
    · exact hothers a (List.mem_append_right _ ha)
  rcases wpt_turn (D := keeping world Keyed) hp hturn with
    ⟨x, rfl, hkeyed, hreturned⟩ | ⟨c, f, rfl, hkeyed, hrest⟩
  · refine ⟨hkeyed, hallocating (Or.inr ⟨x, rfl⟩), fun q hq => ?_⟩
    obtain ⟨y, hy, hq⟩ := mem_replies hq
    cases hy
    exact ⟨x, hq, hreturned⟩
  · refine ⟨hkeyed, hallocating (Or.inl ⟨c, f, rfl, hrest⟩), fun q hq => ?_⟩
    obtain ⟨x, hx, -⟩ := mem_replies hq
    cases hx

/-- Lifecycle answers the calls that it takes up, an allocation perhaps later. -/
lemma service_replies : Exchange.Replies (service lifecycle) holds where
  init s n hs hn := by
    obtain ⟨payload, p, hp⟩ := hn
    rw [hs.2.2.1] at hp
    cases hp
  sent s l taken sent s' h q hq := by
    cases l with
    | lifecycle l =>
      obtain ⟨-, rfl, -⟩ := h
      cases hq
    | list =>
      obtain ⟨-, n, rfl, rfl⟩ := h
      obtain rfl := List.mem_singleton.mp hq
      exact Or.inr ⟨_, rfl⟩
    | lease calls =>
      obtain ⟨n, id, x, t, rfl, -, rfl, -⟩ := h
      obtain rfl := List.mem_singleton.mp hq
      exact Or.inr ⟨_, rfl⟩
    | allocate calls =>
      obtain ⟨n, payload, rfl, p', t, -, rfl, -⟩ := h
      obtain ⟨x, -, rfl⟩ := mem_replies hq
      exact Or.inr ⟨_, rfl⟩
    | goOn answer calls =>
      obtain ⟨-, n, payload, before, f, after, hs, -, p', t, -, rfl, -⟩ := h
      obtain ⟨x, -, rfl⟩ := mem_replies hq
      exact Or.inl ⟨payload, _, hs ▸ List.mem_append_right _ List.mem_cons_self⟩
  held s l taken sent s' h n hn := by
    obtain ⟨payload, p, hp⟩ := hn
    cases l with
    | lifecycle l =>
      obtain ⟨-, -, -, processes, -, rfl⟩ := h
      exact Or.inl ⟨payload, p, hp⟩
    | list =>
      obtain ⟨rfl, -⟩ := h
      exact Or.inl ⟨payload, p, hp⟩
    | lease calls =>
      obtain ⟨m, id, x, t, -, -, -, rfl⟩ := h
      exact Or.inl ⟨payload, p, hp⟩
    | allocate calls =>
      obtain ⟨m, payload', rfl, p', t, -, -, rfl⟩ := h
      rw [List.append_nil] at hp
      rcases List.mem_append.mp hp with hp | hp
      · exact Or.inl ⟨payload, p, hp⟩
      · cases mem_remaining hp
        exact Or.inr ⟨_, rfl⟩
    | goOn answer calls =>
      obtain ⟨-, m, payload', before, f, after, hs, -, p', t, -, -, rfl⟩ := h
      refine Or.inl ?_
      rw [List.append_assoc, List.mem_append, List.mem_append] at hp
      rcases hp with hp | hp | hp
      · exact ⟨payload, p, hs ▸ List.mem_append_left _ hp⟩
      · cases mem_remaining hp
        exact ⟨payload, _, hs ▸ List.mem_append_right _ List.mem_cons_self⟩
      · exact ⟨payload, p, hs ▸ List.mem_append_right _ (List.mem_cons_of_mem _ hp)⟩

/-- Leases leave the states of the instances alone. -/
lemma ready_leaseKeeps (id : String) :
    LeaseKeeps fun s => Keyed s ∧ ∀ i, s.registry.get? id = some i → i.state = .ready := by
  have hset : ∀ {s : LifecycleState} {x : String} {i : BackendInstance} {delta : ℤ},
      (Keyed s ∧ ∀ i, s.registry.get? id = some i → i.state = .ready) → s.registry.get? x = some i →
        Keyed (s.change (s.registry.set x (adjusted i delta s.clock))) ∧ ∀ j,
          (s.registry.set x (adjusted i delta s.clock)).get? id = some j → j.state = .ready := by
    intro s x i delta hs hi
    refine ⟨keyed_set hs.1 (hs.1 x i hi), fun j hj => ?_⟩
    rw [Dict.get?_set] at hj
    split at hj
    · next hx =>
      cases hj
      exact hs.2 i (hx ▸ hi)
    · exact hs.2 j hj
  exact ⟨fun _ _ hs _ => hs, fun _ _ _ _ hs hi _ => hset hs hi, fun _ _ _ _ hs hi _ => hset hs hi⟩

/-- A lease is over in one turn. -/
lemma lease_turn {s t : LifecycleState} {id : String} {calls : List LifecycleEvent}
    {p : Service BackendInstance} {A : LifecycleState → Prop} (hA : LeaseKeeps A)
    (h : (adjustActiveRequests id 1).Turn world s calls p t) (hs : A s) : A t := by
  have hwpt := triple_adjustActiveRequests (I := A) hA id 1 s s hs
  rcases wpt_turn (D := keeping world A) hwpt h with ⟨x, -, ht⟩ | ⟨c, f, -, ht, -⟩
  · exact ht
  · exact ht

/-- The replies show, as ready, only what is ready. -/
def Truthful (sent : List (ℕ × ProxyEvent)) (s : RegistryService) : Prop :=
  ∀ q ∈ sent, ∀ id, Shows q.2.1 q.2.2 id → ReadyIn s id

lemma AllocationTurn.inOrder {s s' : RegistryService} {n : ℕ} {payload : Mapping}
    {p : Service AllocationResult} {before after : List (ℕ × Mapping × Service AllocationResult)}
    {calls : List LifecycleEvent} {sent : List (ℕ × ProxyEvent)} (hs : InOrder s)
    (hp : p.wpt (keeping world Keyed) (fun x _ t => Keyed t ∧ Returned x t) s.processes.state
      s.processes.state)
    (hothers : ∀ a ∈ before ++ after, Allocating a.2.2)
    (h : AllocationTurn s n payload p before after calls sent s') :
    InOrder s' ∧ Truthful sent s' := by
  obtain ⟨hkeyed, hallocating, hsent⟩ := h.keeps hp hothers
  obtain ⟨p', t, -, -, rfl⟩ := h
  refine ⟨⟨hkeyed, fun q hq => waits_keyed (hs.waiting q hq), hallocating, hs.counted⟩, ?_⟩
  intro q hq id hshows i hi
  obtain ⟨x, rfl, hreturned⟩ := hsent q hq
  obtain ⟨r, j, rfl, hj, rfl, hready⟩ := shows_allocation hshows
  obtain ⟨k, hk, hready⟩ := hreturned r j rfl hj hready
  have hki : some k = some i := hk.symm.trans hi
  exact Option.some.inj hki ▸ hready

/-- **One step of lifecycle**, where the lease that it takes up is that of a ready instance. -/
theorem InOrder.serve {s s' : RegistryService} {k : ServiceStep} {taken : Option (ℕ × ProxyCall)}
    {sent : List (ℕ × ProxyEvent)} (hs : InOrder s)
    (htaken : ∀ n id, taken = some (n, .postLease id) → ReadyIn s id)
    (h : serve lifecycle s k taken sent s') : InOrder s' ∧ Truthful sent s' := by
  cases k with
  | lifecycle l =>
    obtain ⟨-, rfl, -, processes, hstep, rfl⟩ := h
    have hbody : ∀ op t, Keyed t → (body lifecycle op).wpt (keeping world Keyed)
        (fun _ => (keeping world Keyed).own) t t := by
      intro op t ht
      have hkeeps : Keeps world Keyed (body lifecycle op) fun _ => True := by
        refine keeps_of_triple (Holds.triple ?_)
        refine ((keyed_blocks lifecycle).body (fun id delta => Within.of_holds ?_)
          fun _ _ _ _ _ _ _ => trivial).holds
        exact keyed_resting.of_triple fun _ _ =>
          triple_adjustActiveRequests keyed_closed.leaseKeeps id delta
      exact wpt_mono (hkeeps t t ht) fun _ _ _ hx => hx.1
    obtain ⟨hkeyed, hwaiting⟩ := Pool.step_keeps (D := keeping world Keyed) (I := Keyed)
      (fun _ _ ht => ht) (fun _ _ _ _ ht => ht) (fun _ ht => ht) hbody hs.keyed hs.waiting hstep
    exact ⟨⟨hkeyed, hwaiting, hs.allocating, hs.counted⟩, fun q hq => by cases hq⟩
  | list =>
    obtain ⟨rfl, n, rfl, rfl⟩ := h
    refine ⟨hs, fun q hq id hshows i hi => ?_⟩
    obtain rfl := List.mem_singleton.mp hq
    obtain ⟨j, hj, rfl, hready⟩ := shows_registry hshows
    have hji : some j = some i := ((current_list hs.keyed).2 j hj).symm.trans hi
    exact Option.some.inj hji ▸ hready
  | lease calls =>
    obtain ⟨n, id, x, t, rfl, hturn, rfl, rfl⟩ := h
    have hkeyed : Keyed t := lease_turn keyed_closed.leaseKeeps hturn hs.keyed
    refine ⟨⟨hkeyed, fun q hq => waits_keyed (hs.waiting q hq), hs.allocating, fun p hp => ?_⟩,
      fun q hq id hshows => ?_⟩
    · rcases List.mem_append.mp hp with hp | hp
      · rw [leased] at hp
        split at hp
        · next i hi =>
          obtain rfl := List.mem_singleton.mp hp
          exact htaken n id rfl i hi
        · cases hp
      · exact hs.counted p hp
    · obtain rfl := List.mem_singleton.mp hq
      exact hshows.elim
  | allocate calls =>
    obtain ⟨n, payload, rfl, h⟩ := h
    refine h.inOrder hs (triple_allocate payload _ _ hs.keyed) fun a ha => ?_
    rw [List.append_nil] at ha
    exact hs.allocating a ha
  | goOn answer calls =>
    obtain ⟨-, n, payload, before, f, after, hsplit, hallowed, h⟩ := h
    have hmem : ∀ a ∈ before ++ (n, payload, .call answer.1 f) :: after, Allocating a.2.2 :=
      hsplit ▸ hs.allocating
    obtain ⟨c, g, hcall, hrest⟩ := hmem _ (List.mem_append_right _ List.mem_cons_self)
    cases hcall
    refine h.inOrder hs (hrest _ hs.keyed _ hallowed) fun a ha => hmem a ?_
    rcases List.mem_append.mp ha with ha | ha
    · exact List.mem_append_left _ ha
    · exact List.mem_append_right _ (List.mem_cons_of_mem _ ha)

/-- **One step** of the clients and lifecycle. -/
theorem Routed.step {e e' : Routes} {l : RouteStep} (h : Routed settings e)
    (hl : Undisturbed settings lifecycle e l)
    (hstep : Exchange.step (clients settings) (service lifecycle) e l e') : Routed settings e' := by
  have hdue : ∀ id, LeaseDue settings e id → ReadyIn e.server id := fun id hid => h.due _ hid id rfl
  refine ⟨h.numbered.step service_replies hstep, ?_, ?_, ?_⟩
  · cases l with
    | serve k taken sent =>
      obtain ⟨htaken, s, hserve, rfl⟩ := hstep
      refine (h.inOrder.serve (fun n id hn => hdue id (Or.inl ⟨n, ?_⟩)) hserve).1
      exact htaken _ hn
    | enter p =>
      obtain ⟨-, rfl⟩ := hstep
      rw [Exchange.arrive_server]
      exact h.inOrder
    | resume n answer p =>
      obtain ⟨-, -, rfl⟩ := hstep
      rw [Exchange.arrive_server]
      exact h.inOrder
    | giveUp n answer p =>
      obtain ⟨-, -, rfl⟩ := hstep
      rw [Exchange.arrive_server]
      exact h.inOrder
    | lose n =>
      obtain rfl := hstep
      exact h.inOrder
  · refine Exchange.parties_step (N := Resolving settings) ?_ ?_ h.resolving hstep
    · rintro p ⟨model, orchestration, es, hp⟩
      rw [(Resolving.lookup model orchestration).stands hp]
      exact .lookup model orchestration
    · exact fun p c r p' hp _ hgoes => (hp.goes hgoes).1
  · have hgoes : ∀ {n answer p}, e.GoesOn (clients settings) n answer p →
        ∀ id, call p = some (.postLease id) → Shows answer.1 answer.2 id := by
      rintro n answer p ⟨q, hq, -, hgo⟩ id hid
      exact ((h.resolving n q hq).goes hgo).2 id hid
    refine Exchange.due_step (G := fun s c => ∀ id, c = .postLease id → ReadyIn s id)
      h.numbered ?_ ?_ ?_ h.due hstep
    · rintro p _ ⟨model, orchestration, es, hp⟩ hcall id rfl
      rw [(Resolving.lookup model orchestration).stands hp] at hcall
      rcases resolve_next settings model orchestration with ⟨x, hx⟩ | ⟨f, hf, -⟩
      · rw [hx] at hcall
        cases hcall
      · rw [hf] at hcall
        cases hcall
    · rintro n answer p _ hgo hfail hcall id rfl
      exact absurd (hgoes hgo id hcall) (not_shows_givenUp hfail id)
    · rintro k taken sent s rfl hserve
      refine ⟨?_, ?_⟩
      · rintro _ hd id rfl
        cases k with
        | list =>
          obtain ⟨rfl, -⟩ := hserve
          exact hdue id hd
        | lease calls =>
          obtain ⟨n, x, y, t, -, hturn, -, rfl⟩ := hserve
          exact (lease_turn (ready_leaseKeeps id) hturn ⟨h.inOrder.keyed, hdue id hd⟩).2
        | _ => exact hl _ _ _ rfl rfl s hserve id hd (hdue id hd)
      · rintro n answer p _ hmem hgo hcall id rfl
        exact (h.inOrder.serve (fun m x hm => hdue x (Or.inl ⟨m, hstep.1 _ hm⟩)) hserve).2
          (n, answer) hmem id (hgoes hgo id hcall)

/-- **Only ready instances are leased**: in every run in which no operation of lifecycle takes an
instance out of its ready state while a lease of it is due, every lease was counted on a ready
instance. -/
theorem leased_ready {e : Routes}
    (h : (routingLts lifecycle settings).Reachable (Undisturbed settings lifecycle) e) :
    ∀ p ∈ e.server.counted, p.2 = .ready := by
  have hrouted : Routed settings e := by
    refine h.invariant (fun e he => ?_) fun e l e' he hl hstep => he.step hl hstep
    obtain ⟨⟨hkeyed, hwaiting, hallocations, hcounted⟩, hparties, hrequests, hreplies⟩ := he
    have hnone : ∀ n, e.parties.get? n = none := by
      rw [hparties]
      exact fun _ => rfl
    refine ⟨⟨fun n p hp => ?_, ?_, ?_, ?_⟩, ⟨hkeyed, ?_, ?_, ?_⟩, fun n p hp => ?_, ?_⟩
    · rw [hnone] at hp
      cases hp
    · rw [hrequests]
      exact fun _ hq => absurd hq List.not_mem_nil
    · rw [hreplies]
      exact fun _ hq => absurd hq List.not_mem_nil
    · rintro n ⟨payload, p, hp⟩
      rw [hallocations] at hp
      cases hp
    · rw [hwaiting]
      exact fun _ hq => absurd hq List.not_mem_nil
    · rw [hallocations]
      exact fun _ hq => absurd hq List.not_mem_nil
    · rw [hcounted]
      exact fun _ hq => absurd hq List.not_mem_nil
    · rw [hnone] at hp
      cases hp
    · rintro c (⟨n, hn⟩ | ⟨n, answer, x, hn, -⟩)
      · rw [hrequests] at hn
        cases hn
      · rw [hreplies] at hn
        cases hn
  exact hrouted.inOrder.counted

/-! ### A cleanup between the lookup and the lease -/

def servedInstance : BackendInstance :=
  { dryInstance "chat-1" chatProfile with baseUrl := "http://localhost:8101/v1", dryRun := false }

/-- Lifecycle with one ready instance, and no client yet. -/
def quiet : Routes where
  server := ⟨⟨⟨Dict.empty.set "chat-1" servedInstance, ⟨0, Clock.limit_pos⟩, []⟩, []⟩, [], []⟩
  parties := Dict.empty
  calls := 0
  requests := []
  replies := []

def serving : LifecycleSettings := settingsFor false chatProfile

/-- A client has asked for the registry. -/
def asked : Routes := quiet.arrive (clients routingSettings) (resolve routingSettings "chat" [])

def shownResponse : HttpResponse := registryResponse quiet.server.registry

/-- The reply has been sent. -/
def answered : Routes :=
  { asked.take (some (0, .getRegistry)) with replies := [(0, ⟨.getRegistry, .ok shownResponse⟩)] }

def shownBackend : ProxyInstance := ⟨"chat-1", "chat", "http://localhost:8101/v1", "ready", 0⟩

/-- The client has read the reply and asked for a lease. -/
def chosen : Routes :=
  (answered.leave 0).arrive (clients routingSettings) (leaseChosen routingSettings shownBackend)

lemma asked_next : goes (resolve routingSettings "chat" []) .getRegistry (.ok shownResponse)
    (leaseChosen routingSettings shownBackend) := by
  refine ⟨_, [], resolve_call (by decide), ?_⟩
  have hread : instancesOf (.ok shownResponse) = .ok [shownBackend] := by
    show parseEach [.obj servedInstance.toDict] = _
    rw [parseEach, parse_toDict]
    rfl
  have hready : shownBackend.isReady = true := by decide +kernel
  have hleast : leastActive (readyFor "chat" [shownBackend]) = some shownBackend := by
    rw [readyFor, List.filter_cons_of_pos (by rw [hready]; rfl)]
    rfl
  rw [hread, Except.map, hleast]
  exact (advance_await rfl).mpr ⟨rfl, rfl, rfl⟩

/-- The lease is due, and no operation of lifecycle has begun. -/
lemma run_chosen {A : Routes → RouteStep → Prop}
    (hA : ∀ e l, (∀ k taken sent, l = .serve k taken sent → k.isOwn = false) → A e l) :
    (routingLts serving routingSettings).Reachable A chosen := by
  refine Lts.Reachable.run (Lts.Reachable.init (s := quiet) ?_) ?_
  · refine ⟨⟨fun id i hi => ?_, rfl, rfl, rfl⟩, rfl, rfl, rfl⟩
    have hi : (Dict.empty.set "chat-1" servedInstance).get? id = some i := hi
    rw [Dict.get?_set] at hi
    split at hi
    · next hid =>
      cases hi
      exact hid.symm
    · cases hi
  have henter : (routingLts serving routingSettings).step quiet
      (.enter (resolve routingSettings "chat" [])) asked := by
    refine ⟨⟨"chat", [], [], ?_⟩, rfl⟩
    rw [resolve_call (by decide)]
    exact (advance_await rfl).mpr ⟨rfl, rfl, rfl⟩
  have hlist : (routingLts serving routingSettings).step asked
      (.serve .list (some (0, .getRegistry)) answered.replies) answered := by
    refine ⟨fun q hq => ?_, _, ⟨rfl, 0, rfl, rfl⟩, rfl⟩
    cases hq
    exact List.mem_singleton.mpr rfl
  have hresume : (routingLts serving routingSettings).step answered
      (.resume 0 ⟨.getRegistry, .ok shownResponse⟩ (leaseChosen routingSettings shownBackend))
      chosen :=
    ⟨List.mem_singleton.mpr rfl, ⟨_, rfl, rfl, asked_next⟩, rfl⟩
  refine ((Lts.Run.single (hA _ _ fun _ _ _ h => ?_) henter).tail
    (hA _ _ fun _ _ _ h => ?_) hlist).tail (hA _ _ fun _ _ _ h => ?_) hresume
  · cases h
  · cases h
    rfl
  · cases h

/-- A lease call is counted at once. -/
lemma exists_lease (s : LifecycleState) (id : String) : ∃ calls x t,
    (adjustActiveRequests id 1).Turn world s calls (.done x) t := by
  have hturn := turn_turnWith (W := world) (allowed_answersAt (atSecond 301) [])
    (adjustActiveRequests id 1) s
  have hkeeps : LeaseKeeps fun _ : LifecycleState => True :=
    ⟨fun _ _ _ _ => trivial, fun _ _ _ _ _ _ _ => trivial, fun _ _ _ _ _ _ _ => trivial⟩
  have hwpt := triple_adjustActiveRequests (I := fun _ => False) hkeeps id 1 s s trivial
  rcases wpt_turn (D := keeping world fun _ => False) hwpt hturn with
    ⟨x, hx, -⟩ | ⟨_, _, _, hown, _⟩
  · rw [hx] at hturn
    exact ⟨_, x, _, hturn⟩
  · exact hown.elim

/-- The due lease is counted. -/
lemma run_lease {A : Routes → RouteStep → Prop} {e : Routes}
    (hA : ∀ e l, (∀ k taken sent, l = .serve k taken sent → k.isOwn = false) → A e l)
    (he : (routingLts serving routingSettings).Reachable A e)
    (hdue : (1, .postLease "chat-1") ∈ e.requests) :
    ∃ e', (routingLts serving routingSettings).Reachable A e' ∧
      e'.server.counted = leased e.server.registry "chat-1" ++ e.server.counted := by
  obtain ⟨calls, x, t, hturn⟩ := exists_lease e.server.processes.state "chat-1"
  have hlease : (routingLts serving routingSettings).step e (.serve (.lease calls)
      (some (1, .postLease "chat-1")) [(1, ⟨.postLease "chat-1", .ok (leaseResponse x)⟩)]) _ :=
    ⟨fun q hq => Option.some.inj hq ▸ hdue, _, ⟨1, "chat-1", x, t, rfl, hturn, rfl, rfl⟩, rfl⟩
  refine ⟨_, he.run (Lts.Run.single (hA _ _ fun _ _ _ h => ?_) hlease), rfl⟩
  cases h
  rfl

/-- Where no operation of lifecycle begins or goes on, nothing is disturbed. -/
lemma undisturbed_of_answers {e : Routes} {l : RouteStep}
    (h : ∀ k taken sent, l = .serve k taken sent → k.isOwn = false) :
    Undisturbed routingSettings serving e l := by
  intro k taken sent hl hown
  rw [h k taken sent hl] at hown
  cases hown

/-- A cleanup at the given second, before the lease is counted. -/
def swept (second : Fin 1000) : Processes :=
  beginAt serving second [] chosen.server.processes (.cleanup .empty)

def cleanedAt (second : Fin 1000) : Routes :=
  { chosen with server := { chosen.server with processes := swept second } }

/-- The answers of the world at that second determine what the cleanup does. -/
lemma serve_cleanup (second : Fin 1000) : ∃ calls,
    ∀ s, serve serving chosen.server (.lifecycle (.begin (.cleanup .empty) calls)) none [] s ↔
      s = (cleanedAt second).server := by
  obtain ⟨calls, hcleanup⟩ : ∃ calls, Pool.step world (body serving) chosen.server.processes
      (.begin (.cleanup .empty) calls) (swept second) :=
    ⟨_, Pool.step_beginWith (allowed_answersAt (atSecond second) []) _ _⟩
  refine ⟨calls, fun s => ⟨?_, ?_⟩⟩
  · rintro ⟨-, -, -, processes, hprocesses, rfl⟩
    obtain rfl : processes = swept second := hprocesses.unique hcleanup
    rfl
  · rintro rfl
    exact ⟨rfl, rfl, nofun, swept second, hcleanup, rfl⟩

lemma run_cleaned {A : Routes → RouteStep → Prop} (second : Fin 1000)
    (hA : ∀ e l, (∀ k taken sent, l = .serve k taken sent → k.isOwn = false) → A e l)
    (hsweep : ∀ calls,
      (∀ s, serve serving chosen.server (.lifecycle (.begin (.cleanup .empty) calls)) none [] s →
        s = (cleanedAt second).server) →
      A chosen (.serve (.lifecycle (.begin (.cleanup .empty) calls)) none [])) :
    (routingLts serving routingSettings).Reachable A (cleanedAt second) := by
  obtain ⟨calls, hserve⟩ := serve_cleanup second
  have hstep : (routingLts serving routingSettings).step chosen
      (.serve (.lifecycle (.begin (.cleanup .empty) calls)) none []) (cleanedAt second) := by
    refine ⟨fun q hq => ?_, _, (hserve _).mpr rfl, rfl⟩
    cases hq
  exact (run_chosen hA).run (Lts.Run.single (hsweep calls fun s => (hserve s).mp) hstep)

/-- A cleanup after half a minute leaves the instance ready for the lease that is due. -/
theorem leased_ready_sample : ∃ e : Routes,
    (∃ p, p ∈ e.server.counted) ∧ ∀ p ∈ e.server.counted, p.2 = .ready := by
  have hready : ∀ i ∈ (cleanedAt 30).server.registry.list, i.state = .ready := by decide +kernel
  have hcleaned := run_cleaned (A := Undisturbed routingSettings serving) 30
    (fun _ _ => undisturbed_of_answers) fun calls hserve k taken sent hl _ s hs id _ _ => by
      cases hl
      rw [hserve s hs]
      exact fun i hi => hready i (List.mem_map_of_mem (Dict.get?_eq_some.mp hi))
  obtain ⟨e, he, hcounted⟩ := run_lease (fun _ _ => undisturbed_of_answers) hcleaned
    (List.mem_singleton.mpr rfl)
  refine ⟨e, ⟨("chat-1", .ready), ?_⟩, leased_ready he⟩
  have hleased : leased (cleanedAt 30).server.registry "chat-1" = [("chat-1", .ready)] := by
    decide +kernel
  rw [hcounted, hleased]
  exact List.mem_singleton.mpr rfl

/-- A client is told of a ready instance, which lifecycle stops after five minutes of idleness, and
the client leases it. -/
theorem leased_stopped : ∃ e, (routingLts serving routingSettings).Reachable Lts.anyStep e ∧
    ∃ p ∈ e.server.counted, p.2 = .stopped := by
  have hcleaned := run_cleaned (A := Lts.anyStep) 300 (fun _ _ _ => trivial)
    fun _ _ => trivial
  obtain ⟨e, he, hcounted⟩ := run_lease (fun _ _ _ => trivial) hcleaned (List.mem_singleton.mpr rfl)
  have hstopped : leased (cleanedAt 300).server.registry "chat-1" = [("chat-1", .stopped)] := by
    decide +kernel
  rw [hstopped] at hcounted
  refine ⟨e, he, ("chat-1", .stopped), ?_, rfl⟩
  rw [hcounted]
  exact List.mem_singleton.mpr rfl

end Orchestrator.LeaseRouting
