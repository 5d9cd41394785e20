import Orchestrator.ExecutorTokens
import Orchestrator.Lib.Loans
import Orchestrator.ResolveOutcomes
import Orchestrator.SlotRelease

/-!
Leases as loans. A request and the execution of a task release only the lease that they hold, and
only once, whatever their awaits return or raise.
-/

namespace Orchestrator.Leases

open Lib Lib.Coro BackendResolver RegistryClient ResolveOutcomes

/-! ### The loans -/

def leaseOf : ForwardCall → Option String
  | .proxy (.postLease id) => some id
  | _ => none

def releaseOf : ForwardCall → Option String
  | .proxy (.deleteLease id) => some id
  | _ => none

/-- Whether the answer is that of a lease that was counted. -/
def isGranted : (c : ForwardCall) → c.Answer → Bool
  | .proxy (.postLease _), r => (statusOnly r).isOk
  | _, _ => false

def leases : Loans ForwardCall ForwardCall.Answer String := ⟨leaseOf, releaseOf, isGranted⟩

variable {σ α β : Type} {K : Contract σ ForwardCall ForwardCall.Answer} {R : σ → Prop}
  {h : Option String} {s : σ} {settings : Settings}

abbrev Caller (σ α : Type) := Coro σ ForwardCall ForwardCall.Answer Exn α

/-- Where `h` is held, `p` releases only what it holds, and `Q` says what is held at the end. -/
def Leasing (K : Contract σ ForwardCall ForwardCall.Answer) (h : Option String) (p : Caller σ α)
    (Q : Except Exn α → Option String → σ → Prop) (s : σ) : Prop :=
  p.wp K (fun es x t => leases.Minds h es ∧ Q x (leases.heldAfter h es) t) s

/-- The calls of `p` have nothing to do with leases. -/
abbrev Unrelated (p : Caller σ α) : Prop := p.Makes leases.Plain

namespace Leasing

variable {p : Caller σ α} {Q Q' : Except Exn α → Option String → σ → Prop}

lemma honours (hp : Leasing K h p Q s) : Honours leases K p h s := wp_mono hp fun _ _ _ hx => hx.1

lemma mono (hp : Leasing K h p Q s) (hQ : ∀ x h t, Q x h t → Q' x h t) : Leasing K h p Q' s :=
  wp_mono hp fun _ _ _ hx => ⟨hx.1, hQ _ _ _ hx.2⟩

lemma after {k : Except Exn α → Caller σ β} {T : Except Exn β → Option String → σ → Prop}
    (hp : Leasing K h p (fun x h t => Leasing K h (k x) T t) s) : Leasing K h (p.after k) T s := by
  refine wp_after.mpr (wp_mono hp ?_)
  rintro es x t ⟨hes, hk⟩
  refine wp_mono hk ?_
  rintro fs y u ⟨hfs, hy⟩
  rw [Loans.heldAfter_append]
  exact ⟨Loans.minds_append.mpr ⟨hes, hfs⟩, hy⟩

lemma done {x : Except Exn α} (hx : Q x h s) : Leasing K h (.done x) Q s := ⟨trivial, hx⟩

/-- A call that is no release. -/
lemma call {c : ForwardCall} {f : c.Answer → Caller σ α} (hc : releaseOf c = none)
    (hf : ∀ r t, K.rely c r s t → Leasing K ((leases.granted ⟨c, r⟩).or h) (f r) Q t) :
    Leasing K h (.call c f) Q s := by
  intro r t hr
  have hheld : leases.held h ⟨c, r⟩ = (leases.granted ⟨c, r⟩).or h := if_neg (by simp [leases, hc])
  refine wp_mono (hf r t hr) ?_
  rintro es x u ⟨hes, hx⟩
  rw [← hheld] at hes hx
  refine ⟨⟨fun k hk => ?_, hes⟩, hx⟩
  exact absurd (hc.symm.trans hk) (by simp)

/-- The release of what is held. -/
lemma giveBack {id : String} {f : Except Exn HttpResponse → Caller σ α}
    (hf : ∀ r t, K.rely (.proxy (.deleteLease id)) r s t → Leasing K none (f r) Q t) :
    Leasing K (some id) (.call (.proxy (.deleteLease id)) f) Q s := by
  intro r t hr
  refine wp_mono (hf r t hr) ?_
  rintro es x u ⟨hes, hx⟩
  exact ⟨⟨fun _ hk => hk, hes⟩, hx⟩

lemma unrelated (hp : Unrelated p) (hR : p.wp K (fun _ _ t => R t) s)
    (hQ : ∀ x t, R t → Q x h t) : Leasing K h p Q s := by
  refine wp_mono (wp_makes hR hp) ?_
  rintro es x t ⟨hes, ht⟩
  rw [Loans.heldAfter_plain hes]
  exact ⟨Loans.minds_plain hes, hQ x t ht⟩

end Leasing

/-! ### Routing -/

/-- The others keep `R`. -/
def Rests (K : Contract σ ForwardCall ForwardCall.Answer) (R : σ → Prop) : Prop :=
  ∀ c r s t, K.rely c r s t → R s → R t

/-- The lease that a resolution ends with. -/
def leasedBy : Except Exn Target → Option String
  | .ok target => target.2
  | .error _ => none

/-- A lease comes with a base URL, from a registry that there is a client for. -/
def Backed (settings : Settings) (target : Target) : Prop :=
  target.2 ≠ none → target.1 ≠ none ∧ settings.hasRegistryClient = true

/-- `p` ends with the lease that its result tells. -/
def Resolves (settings : Settings) (K : Contract σ ForwardCall ForwardCall.Answer) (R : σ → Prop)
    (p : Proxy σ Target) : Prop := ∀ s, R s → Leasing K none (p.embed .proxy)
      (fun x h t => h = leasedBy x ∧ (∀ target, x = .ok target → Backed settings target) ∧ R t) s

lemma granted_postLease (id : String) (r : Except Exn HttpResponse) :
    leases.granted ⟨.proxy (.postLease id), r⟩ =
      match statusOnly r with
      | .ok _ => some id
      | .error _ => none := by
  show (if (statusOnly r).isOk then some id else none) = _
  cases statusOnly r <;> rfl

section Routing

variable (hK : Rests K R)

lemma resolves_raise (e : Exn) : Resolves settings K R (raise e : Proxy σ Target) :=
  fun _ hs => .done ⟨rfl, (fun _ h => by cases h), hs⟩

/-- A result without a lease. -/
lemma resolves_plain (baseUrl : Option String) :
    Resolves settings K R (pure (baseUrl, none) : Proxy σ Target) :=
  fun _ hs => .done ⟨rfl, fun _ h hne => absurd (by cases h; rfl) hne, hs⟩

lemma resolves_fallback : Resolves settings K R (pure (fallback settings) : Proxy σ Target) := by
  unfold fallback
  split <;> exact resolves_plain _

include hK in
lemma resolves_leaseChosen (hclient : settings.hasRegistryClient = true) (backend : ProxyInstance) :
    Resolves settings K R (leaseChosen settings backend : Proxy σ Target) := by
  refine fun s hs => Leasing.call rfl fun r t hr => ?_
  have ht : R t := hK _ _ _ _ hr hs
  have hgranted := granted_postLease backend.instanceId r
  cases hstatus : statusOnly r with
  | ok u =>
    simp only [hstatus] at hgranted
    simp only [lift, hstatus, after_done, hgranted]
    refine .done ⟨rfl, fun target h _ => ?_, ht⟩
    cases h
    exact ⟨by simp, hclient⟩
  | error e =>
    simp only [hstatus] at hgranted
    simp only [lift, hstatus, after_done, hgranted]
    split
    · exact resolves_fallback t ht
    · exact resolves_raise e t ht

include hK in
/-- A call before a resolution, which is no lease. -/
lemma resolves_call {c : ProxyCall} {f : c.Answer → Proxy σ Target}
    (hc : leases.Plain (.proxy c)) (hf : ∀ r, Resolves settings K R (f r)) :
    Resolves settings K R (.call c f) := by
  refine fun s hs => Leasing.call hc.2 fun r t hr => ?_
  rw [hc.granted]
  exact hf r t (hK _ _ _ _ hr hs)

include hK in
lemma resolves_allocateAndLease (hclient : settings.hasRegistryClient = true) (model : String)
    (orchestration : Mapping) :
    Resolves settings K R (allocateAndLease settings model orchestration : Proxy σ Target) := by
  refine resolves_call hK ⟨rfl, rfl⟩ fun r => ?_
  cases hr : allocationResult r with
  | ok chosen =>
    simp only [hr, lift, after_done, pure_eq]
    rcases chosen with _ | backend
    · exact resolves_fallback
    · dsimp only
      split
      · exact resolves_leaseChosen hK hclient backend
      · exact resolves_fallback
  | error e =>
    simp only [hr, lift, after_done, allocationFailed]
    split
    · split
      · exact resolves_plain none
      · exact resolves_fallback
    · exact resolves_fallback
    · simp only [raise, after_done]
      split
      · exact resolves_plain none
      · exact resolves_raise e

include hK in
/-- **A resolution** ends with the lease that it returns, and with none if it raises. -/
theorem resolves_resolve (model : String) (orchestration : Mapping) :
    Resolves settings K R (resolve settings model orchestration : Proxy σ Target) := by
  unfold resolve
  split
  · exact resolves_plain _
  next henabled =>
  have hclient : settings.hasRegistryClient = true := by
    cases h : settings.hasRegistryClient with
    | true => rfl
    | false => exact absurd (by simp [h]) henabled
  refine resolves_call hK ⟨rfl, rfl⟩ fun r => ?_
  show Resolves settings K R (after (after (lift (instancesOf r)) (onOk fun instances =>
    pure (leastActive (readyFor model instances)))) _)
  cases instancesOf r with
  | error e =>
    simp only [lift, after_done, onOk_error]
    split
    · exact resolves_fallback
    · exact resolves_raise e
  | ok instances =>
    simp only [lift, after_done, onOk_ok, pure_eq]
    cases leastActive (readyFor model instances) with
    | none => exact resolves_allocateAndLease hK hclient model orchestration
    | some backend => exact resolves_leaseChosen hK hclient backend

include hK in
/-- The release of the lease that is held. -/
lemma leasing_release (hclient : h ≠ none → settings.hasRegistryClient = true) (hs : R s) :
    Leasing K h ((release settings h).embed .proxy : Caller σ Unit)
      (fun _ h t => h = none ∧ R t) s := by
  cases h with
  | none => exact .done ⟨rfl, hs⟩
  | some id =>
    rw [release, if_neg (by simp [hclient])]
    refine Leasing.giveBack fun r t hr => ?_
    have ht : R t := hK _ _ _ _ hr hs
    cases hstatus : statusOnly r with
    | ok u =>
      simp only [lift, hstatus, after_done]
      exact .done ⟨rfl, ht⟩
    | error e =>
      simp only [lift, hstatus, after_done]
      split <;> exact .done ⟨rfl, ht⟩

end Routing

/-! ### The request -/

section Request

open Forward

variable {policy : ModelPolicy} {path : String} {payload metadata : Mapping}

/-- What is held is what `release_once` will release, until it has been here; then nothing is held
once the slot has been given back, or if there never was one. -/
structure Remembers (settings : Settings) (h : Option String) (s : ForwardState) : Prop where
  knows : s.released = false → s.backendInstanceId = h
  freed : s.freed ≠ 0 → h = none
  admitted : s.admitted = false → h = none
  client : h ≠ none → settings.hasRegistryClient = true

lemma shared_rests (settings : Settings) (h : Option String) :
    Rests SlotRelease.shared (Remembers settings h) := by
  rintro c r s t ⟨ht, -⟩ hs
  rw [ht]
  exact ⟨hs.knows, hs.freed, hs.admitted, hs.client⟩

/-- `p` releases only what is held, where `release_once` knows of it. -/
def Keeping (settings : Settings) (p : Forward α) : Prop := ∀ h s, Remembers settings h s →
  Leasing SlotRelease.shared h p (fun _ h t => Remembers settings h t) s

namespace Keeping

lemma done (x : Except Exn α) : Keeping settings (.done x : Forward α) := fun _ _ hs => .done hs

lemma after {p : Forward α} {k : Except Exn α → Forward β} (hp : Keeping settings p)
    (hk : ∀ x, Keeping settings (k x)) : Keeping settings (p.after k) :=
  fun h s hs => Leasing.after ((hp h s hs).mono fun x h t ht => hk x h t ht)

lemma onOk {p : Forward α} {f : α → Forward β} (hp : Keeping settings p)
    (hf : ∀ a, Keeping settings (f a)) : Keeping settings (p.after (Coro.onOk f)) := by
  refine hp.after fun x => ?_
  cases x with
  | ok a => exact hf a
  | error e => exact done _

lemma call {c : ForwardCall} {f : c.Answer → Forward α} (hc : leases.Plain c)
    (hf : ∀ r, Keeping settings (f r)) : Keeping settings (.call c f) := by
  refine fun h s hs => Leasing.call hc.2 fun r t hr => ?_
  rw [hc.granted]
  exact hf r h t (shared_rests settings h c r s t hr hs)

lemma suppress {p : Forward α} (hp : Keeping settings p) : Keeping settings (Coro.suppress p) :=
  hp.after fun _ => done _

lemma ensuring {p : Forward α} {q : Forward Unit} (hp : Keeping settings p)
    (hq : Keeping settings q) : Keeping settings (Coro.ensuring p q) :=
  hp.after fun _ => hq.after fun _ => done _

lemma awaiting (a : Await) : Keeping settings (Forward.awaiting a) :=
  call ⟨rfl, rfl⟩ fun r => done r

end Keeping

/-- An await, of which the lease that is held is none. -/
lemma leasing_await {a : Await} {f : Except Exn Unit → Forward α}
    {Q : Except Exn α → Option String → ForwardState → Prop} {s : ForwardState}
    (hf : ∀ r t, t = { s with limiter := t.limiter } → Leasing SlotRelease.shared h (f r) Q t) :
    Leasing SlotRelease.shared h (.call (.await a) f) Q s := .call rfl fun r t hr => hf r t hr.1

lemma leasing_get {f : ForwardState → Forward α} {s : ForwardState}
    {Q : Except Exn α → Option String → ForwardState → Prop}
    (hf : Leasing SlotRelease.shared h (f s) Q s) : Leasing SlotRelease.shared h (.get f) Q s := hf

lemma leasing_set {p : Forward α} {Q : Except Exn α → Option String → ForwardState → Prop}
    {s t : ForwardState} (hp : Leasing SlotRelease.shared h p Q t) :
    Leasing SlotRelease.shared h (.set t p) Q s := ⟨trivial, hp⟩

/-- A slot is given back when nothing is held. -/
lemma leasing_limiterRelease (place : LockPlace) {s : ForwardState}
    (hs : Remembers settings none s) : Leasing SlotRelease.shared none (limiterRelease place)
      (fun _ h t => Remembers settings h t) s := by
  refine leasing_await fun r t ht => ?_
  have hremembers : Remembers settings none t := by
    rw [ht]
    exact ⟨hs.knows, hs.freed, hs.admitted, hs.client⟩
  cases r with
  | ok u =>
    exact leasing_set (.done ⟨hremembers.knows, fun _ => rfl, fun _ => rfl, hremembers.client⟩)
  | error e => exact .done hremembers

/-- A request that has not looked for a backend yet. -/
def Clean (s : ForwardState) : Prop :=
  s.released = false ∧ s.backendInstanceId = none ∧ s.freed = 0

lemma Clean.remembers {s : ForwardState} (hs : Clean s) : Remembers settings none s :=
  ⟨fun _ => hs.2.1, fun _ => rfl, fun _ => rfl, fun h => absurd rfl h⟩

lemma leasing_acquire {s : ForwardState} (hs : Clean s) :
    Leasing SlotRelease.shared none acquire
      (fun x h t => h = none ∧ Clean t ∧ (x = .ok () → t.admitted = true)) s := by
  refine leasing_await fun r t ht => ?_
  have hclean : Clean t := by
    rw [ht]
    exact hs
  have hraised : ∀ {u : ForwardState} (e : Exn), Clean u → Leasing SlotRelease.shared none
      (raise e) (fun x h t => h = none ∧ Clean t ∧ (x = .ok () → t.admitted = true)) u :=
    fun e hu => .done ⟨rfl, hu, fun h => by cases h⟩
  cases r with
  | error e => exact hraised e hclean
  | ok u =>
    refine leasing_get ?_
    rcases t.limiter.enter with ⟨entry, limiter⟩
    cases entry with
    | granted =>
      refine leasing_set ?_
      exact .done ⟨rfl, hclean, fun _ => rfl⟩
    | full =>
      refine leasing_set ?_
      exact hraised _ hclean
    | queued =>
      refine leasing_set (leasing_get ?_)
      refine leasing_await fun r v hv => ?_
      have hv' : Clean v := by
        rw [hv]
        exact hclean
      cases r with
      | ok u =>
        refine leasing_get (leasing_set ?_)
        exact .done ⟨rfl, hv', fun _ => rfl⟩
      | error e =>
        simp only [lift, after_done]
        split
        · refine leasing_get (leasing_set ?_)
          exact hraised _ hv'
        · exact hraised e hv'

lemma keeping_sendResult :
    Keeping settings (.call .sendResult fun (r : Except Exn HttpResponse) => lift r) :=
  .call ⟨rfl, rfl⟩ fun r => .done r

lemma keeping_sendBuffered (url : String) (payload : Mapping) :
    Keeping settings (sendBuffered url payload) := by
  refine (Keeping.awaiting _).onOk fun _ => .ensuring (.call ⟨rfl, rfl⟩ fun first => ?_) ?_
  · refine (Keeping.done first).onOk fun disconnected => ?_
    cases disconnected with
    | true => exact (Keeping.awaiting _).suppress.after fun _ => .done _
    | false => exact keeping_sendResult
  · refine (Keeping.awaiting _).suppress.after fun _ => .call ⟨rfl, rfl⟩ fun sent => ?_
    cases sent with
    | true => exact .done _
    | false => exact (Keeping.awaiting _).suppress

lemma keeping_exchangeBuffered (url : String) (payload : Mapping) :
    Keeping settings (exchangeBuffered url payload) :=
  (Keeping.awaiting _).onOk fun _ => .ensuring (keeping_sendBuffered url payload) (.awaiting _)

lemma keeping_sendStreamed (url : String) (payload : Mapping) :
    Keeping settings (sendStreamed url payload) := by
  have hclose : ∀ e, Keeping settings ((awaiting (.closeClient .request)).after
      (onOk fun _ => (raise e : Forward HttpResponse))) :=
    fun e => (Keeping.awaiting _).onOk fun _ => .done _
  refine (Keeping.awaiting _).onOk fun _ => .after (.call ⟨rfl, rfl⟩ fun first => ?_) fun x => ?_
  · refine (Keeping.done first).onOk fun disconnected => ?_
    cases disconnected with
    | true => exact (Keeping.awaiting _).suppress.after fun _ => hclose _
    | false => exact (Keeping.awaiting _).suppress.after fun _ => keeping_sendResult
  · cases x with
    | ok r => exact .done _
    | error e =>
      dsimp only
      split
      · exact (Keeping.awaiting _).suppress.after fun _ =>
          (Keeping.awaiting _).suppress.after fun _ => hclose e
      · exact .done _

lemma keeping_chunks (n : ℕ) : Keeping settings (chunks n) := by
  induction n with
  | zero => exact .awaiting _
  | succ n ih => exact (Keeping.awaiting _).onOk fun _ => (Keeping.awaiting _).onOk fun _ => ih

/-- `release_once` releases what is held, or has been here. -/
lemma keeping_releaseOnce : Keeping settings (releaseOnce settings) := by
  intro h s hs
  rw [releaseOnce, Leasing, wp_get]
  cases hreleased : s.released with
  | true => exact Keeping.done _ h s hs
  | false =>
    refine ⟨trivial, ?_⟩
    rw [hs.knows hreleased]
    have hrests : Rests SlotRelease.shared fun t : ForwardState => t.released = true := by
      rintro c r u v ⟨hv, -⟩ hu
      rw [hv]
      exact hu
    refine Leasing.after ((leasing_release hrests hs.client rfl).mono ?_)
    rintro x h t ⟨rfl, ht⟩
    have hover : Remembers settings none t := ⟨fun hf => absurd (hf.symm.trans ht) (by simp),
      fun _ => rfl, fun _ => rfl, fun hne => absurd rfl hne⟩
    cases x with
    | ok u => exact leasing_limiterRelease _ hover
    | error e => exact .done hover

lemma keeping_handleFailure (e : Exn) : Keeping settings (handleFailure settings e) := by
  unfold handleFailure
  split
  · exact keeping_releaseOnce.onOk fun _ => .done _
  · split
    · exact keeping_releaseOnce.onOk fun _ => .done _
    · exact keeping_releaseOnce.onOk fun _ => .done _

lemma keeping_forwardTo (baseUrl : String) (id : Option String) :
    Keeping settings (forwardTo settings policy path payload baseUrl id) := by
  unfold forwardTo
  dsimp only
  split
  · exact (keeping_sendStreamed _ _).onOk fun _ => .done _
  · refine ((keeping_exchangeBuffered _ _).after fun x => ?_).onOk fun _ =>
      keeping_releaseOnce.onOk fun _ => .done _
    cases x with
    | ok r => exact .done _
    | error e =>
      dsimp only
      split <;> exact .done _

/-- What the request holds is what the resolution has leased. -/
lemma leasing_forwardAdmitted {s : ForwardState} (hs : Clean s) (hadmitted : s.admitted = true) :
    Leasing SlotRelease.shared none (forwardAdmitted settings policy path payload metadata)
      (fun _ h t => Remembers settings h t) s := by
  unfold forwardAdmitted
  dsimp only
  have hrests : Rests SlotRelease.shared fun t : ForwardState => Clean t ∧ t.admitted = true := by
    rintro c r u v ⟨hv, -⟩ hu
    rw [hv]
    exact hu
  refine Leasing.after ((resolves_resolve hrests _ _ s ⟨hs, hadmitted⟩).mono ?_)
  rintro x h t ⟨rfl, hbacked, hclean, hadmitted⟩
  cases x with
  | error e => exact .done hclean.remembers
  | ok resolved =>
    obtain ⟨baseUrl, id⟩ := resolved
    have hbacked := hbacked _ rfl
    refine ⟨trivial, ?_⟩
    have hremembers : Remembers settings id { t with backendInstanceId := id } :=
      ⟨fun _ => rfl, fun hf => absurd hclean.2.2 hf,
        fun hf => absurd (hf.symm.trans hadmitted) (by simp), fun hne => (hbacked hne).2⟩
    cases baseUrl with
    | none =>
      have hnone : id = none := by
        by_contra hne
        exact (hbacked hne).1 rfl
      subst hnone
      refine Leasing.after ((leasing_limiterRelease _ hremembers).mono fun x h t ht => ?_)
      cases x with
      | ok u => exact .done ht
      | error e => exact .done ht
    | some baseUrl =>
      exact ((keeping_forwardTo baseUrl id).onOk fun response =>
        (Keeping.done (tokenMetadata metadata)).onOk fun capped => .done _) id _ hremembers

lemma keeping_serve (response : ForwardResponse) : Keeping settings (serve settings response) := by
  unfold serve
  split
  · refine .call ⟨rfl, rfl⟩ fun taken => ?_
    cases taken with
    | none => exact .done _
    | some n =>
      exact .ensuring (keeping_chunks n) ((Keeping.awaiting _).onOk fun _ =>
        (Keeping.awaiting _).onOk fun _ => keeping_releaseOnce)
  · exact .done _

lemma leasing_request (limiter : ModelLimiter) : Leasing SlotRelease.shared none
    (request settings policy path payload metadata) (fun _ h t => Remembers settings h t)
    (start limiter) := by
  have hpath : Leasing SlotRelease.shared none
      (forwardOpenaiPath settings policy path payload metadata)
      (fun _ h t => Remembers settings h t) (start limiter) := by
    unfold forwardOpenaiPath
    refine Leasing.after ((leasing_acquire ⟨rfl, rfl, rfl⟩).mono ?_)
    rintro x h t ⟨rfl, hclean, hadmitted⟩
    cases x with
    | ok u =>
      refine Leasing.after ((leasing_forwardAdmitted hclean (hadmitted rfl)).mono ?_)
      intro y h u hu
      cases y with
      | ok response => exact .done hu
      | error e => exact keeping_handleFailure e h u hu
    | error e =>
      dsimp only
      split
      · exact .done hclean.remembers
      · split <;> exact .done hclean.remembers
  refine Leasing.after (hpath.mono fun x h t ht => ?_)
  cases x with
  | ok response => exact keeping_serve response h t ht
  | error e => exact .done ht

/-- **A request** releases only the lease that it holds, and only once. Where nothing keeps it from
giving its slot back, it gives back its lease as well. -/
theorem request_leases {limiter : ModelLimiter} {es : List SlotRelease.ForwardEvent}
    {x : Except Exn Unit} {t : ForwardState}
    (hr : (request settings policy path payload metadata).Runs SlotRelease.Shared (start limiter)
      es x t) : leases.Minds none es ∧
        ((∀ e ∈ es, SlotRelease.harmless e) → leases.heldAfter none es = none) := by
  obtain ⟨hminds, hremembers⟩ := wp_sound (leasing_request limiter) hr
  refine ⟨hminds, fun hcalm => ?_⟩
  cases hadmitted : t.admitted with
  | false => exact hremembers.admitted hadmitted
  | true =>
    have hsettled : SlotRelease.Settled es t :=
      wp_sound (SlotRelease.wp_request limiter) hr hadmitted
    rcases hsettled with ⟨hfreed, -⟩ | ⟨-, hharmed⟩
    · exact hremembers.freed (by omega)
    · exact absurd hcalm hharmed

def isLeaseOf (id : String) (e : SlotRelease.ForwardEvent) : Bool := leases.granted e = some id

/-- A request leases a backend and gives it back. -/
theorem request_leases_sample :
    (SlotRelease.samplePlay SlotRelease.releasedOk).1.any (isLeaseOf "backend-1") = true ∧
      leases.Minds none (SlotRelease.samplePlay SlotRelease.releasedOk).1 ∧
        ((∀ e ∈ (SlotRelease.samplePlay SlotRelease.releasedOk).1, SlotRelease.harmless e) →
          leases.heldAfter none (SlotRelease.samplePlay SlotRelease.releasedOk).1 = none) :=
  ⟨by decide +kernel, request_leases (SlotRelease.sample_runs SlotRelease.releasedOk)⟩

end Request

/-! ### The execution of a task -/

section Execution

open Executor

variable {policies : PolicyRegistry} {task : StoredTask}

/-- Anything may happen during an await. -/
def anything : Contract ExecutorState ForwardCall ForwardCall.Answer where
  rely _ _ _ _ := True
  guar _ _ := True

lemma anything_rests : Rests anything fun _ => True := fun _ _ _ _ _ _ => trivial

/-- The calls of the executor have nothing to do with leases. -/
def Aside (p : Proxy ExecutorState α) : Prop := p.Makes fun c => leases.Plain (.proxy c)

lemma Aside.leasing {p : Proxy ExecutorState α} (hp : Aside p) (h : Option String)
    (s : ExecutorState) : Leasing anything h (p.embed .proxy) (fun _ h' _ => h' = h) s :=
  Leasing.unrelated (makes_embed hp) (wp_true (fun _ _ => trivial) _ s) fun _ _ _ => rfl

lemma plain_of_bookkeeping {c : ProxyCall} (h : ExecutorTokens.Bookkeeping c) :
    leases.Plain (.proxy c) := by
  cases c <;> first | exact ⟨rfl, rfl⟩ | exact h.elim

lemma aside_recordTaskFailure (error : Mapping) (retryable : Bool) :
    Aside (recordTaskFailureAndReconcile settings task error retryable) :=
  (ExecutorTokens.makes_recordTaskFailureAndReconcile error retryable).mono fun _ =>
    plain_of_bookkeeping

lemma aside_recordResponse (instanceId : Option String) (response : HttpResponse) :
    Aside (recordResponse settings task instanceId response) :=
  (ExecutorTokens.makes_recordResponse instanceId response).mono fun _ => plain_of_bookkeeping

/-- The request is sent while the lease is held, and then the lease is released. -/
lemma leasing_postUpstream {policy : ModelPolicy} (baseUrl : String)
    (hclient : h ≠ none → settings.hasRegistryClient = true) (s : ExecutorState) :
    Leasing anything h ((postUpstream settings policy task baseUrl h).embed .proxy)
      (fun _ h _ => h = none) s := by
  unfold postUpstream ensuring
  rw [embed_after]
  have hsend : Aside (exceptHTTP
      (.call (.postUpstream (openaiUrl baseUrl task.endpoint.1 false)
        (upstreamPayload policy h task.payload)) fun (r : Except Exn HttpResponse) => lift r)
      (fun e => do
        recordTaskFailureAndReconcile settings task
          [("type", .str "upstream_request_failed"),
           ("message", .str "Upstream LLM gateway request failed."),
           ("error_type", .str e.name),
           ("backend_instance_id", instanceJson h)] true
        pure none)
      (fun response => pure (some response))) :=
    ExecutorTokens.makes_exceptHTTP ⟨⟨rfl, rfl⟩, fun _ => trivial⟩
      (fun e => makes_bind (aside_recordTaskFailure _ _) fun _ => trivial) fun _ => trivial
  refine Leasing.after ((hsend.leasing h s).mono ?_)
  rintro x _ t rfl
  rw [embed_after]
  refine Leasing.after ((leasing_release anything_rests hclient trivial).mono ?_)
  rintro y h u ⟨rfl, -⟩
  exact .done rfl

lemma leasing_executeStoredTask (s : ExecutorState) :
    Leasing anything none ((executeStoredTask settings policies task).embed .proxy)
      (fun _ h _ => h = none) s := by
  unfold executeStoredTask
  split
  · exact (aside_recordTaskFailure _ _).leasing _ _
  split
  · exact (aside_recordTaskFailure _ _).leasing _ _
  dsimp only
  rw [bind_eq, embed_after]
  refine Leasing.after ((resolves_resolve anything_rests _ _ s trivial).mono ?_)
  rintro x h t ⟨rfl, hbacked, -⟩
  cases x with
  | error e => exact .done rfl
  | ok resolved =>
    obtain ⟨baseUrl, id⟩ := resolved
    have hbacked := hbacked _ rfl
    cases baseUrl with
    | none =>
      have hnone : id = none := by
        by_contra hne
        exact (hbacked hne).1 rfl
      subst hnone
      exact (aside_recordTaskFailure _ _).leasing none t
    | some baseUrl =>
      show Leasing anything id
        (((postUpstream settings _ task baseUrl id).after _).embed .proxy) _ t
      rw [embed_after]
      refine Leasing.after ((leasing_postUpstream baseUrl (fun hne => (hbacked hne).2) t).mono ?_)
      rintro y h u rfl
      rcases y with e | (_ | response)
      · exact .done rfl
      · exact .done rfl
      · exact (aside_recordResponse _ _).leasing none u

lemma leasing_processTask (s : ExecutorState) :
    Leasing anything none ((processTask settings policies task).embed .proxy)
      (fun _ h _ => h = none) s := by
  unfold processTask
  rw [bind_eq, embed_after]
  have hread : Aside (lift (Clock.secondsBetween (some task.createdAt) task.startedAt)) := trivial
  refine Leasing.after ((hread.leasing none s).mono ?_)
  rintro x _ t rfl
  cases x with
  | error e => exact .done rfl
  | ok seconds =>
    show Leasing anything none
      (((executeStoredTask settings policies task).after _).embed .proxy) _ t
    rw [embed_after]
    refine Leasing.after ((leasing_executeStoredTask t).mono ?_)
    rintro y h u rfl
    cases y with
    | ok _ => exact .done rfl
    | error e =>
      dsimp only
      split
      · exact (aside_recordTaskFailure _ _).leasing none u
      · exact .done rfl

/-- **The execution of a task** releases only the lease that it holds, only once, and always. -/
theorem execution_leases {s t : ExecutorState} {es : List SlotRelease.ForwardEvent}
    {x : Except Exn Unit} (hr : ((processTask settings policies task).embed ForwardCall.proxy).Runs
      anything.rely s es x t) : leases.Minds none es ∧ leases.heldAfter none es = none :=
  wp_sound (leasing_processTask s) hr

/-- The backend cannot be reached. -/
def unreachable : (c : ForwardCall) → c.Answer
  | .proxy (.postUpstream _ _) => .error ⟨.http, "ConnectError", ""⟩
  | c => SlotRelease.sampleAnswer SlotRelease.releasedOk c

def unreachablePlay : List SlotRelease.ForwardEvent × Except Exn Unit × ExecutorState :=
  ((processTask SlotRelease.sampleRouting ProxySystem.samplePolicies
      ProxySystem.sampleRunning).embed ForwardCall.proxy).play unreachable
    ⟨ProxySystem.sampleStore.put ProxySystem.sampleRunning, []⟩

theorem execution_leases_sample : unreachablePlay.1.any (isLeaseOf "backend-1") = true ∧
    leases.Minds none unreachablePlay.1 ∧ leases.heldAfter none unreachablePlay.1 = none :=
  ⟨by decide +kernel, execution_leases (runs_play (fun _ _ => trivial) _ _)⟩

end Execution

end Orchestrator.Leases
