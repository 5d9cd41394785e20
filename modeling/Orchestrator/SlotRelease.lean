import Orchestrator.Forward
import Orchestrator.ProxySystem

/-!
How often a request gives its slot back.

A request is run against every choice of what its awaits do. It gives the slot back exactly once,
except in four situations, which `harmless` names: the release of the backend lease or the lock of
the limiter raises inside `release_once`, which has marked itself done by then; closing the
upstream response or its client raises at the end of a stream; or the server never iterates the
body of a stream.
-/

namespace Orchestrator.SlotRelease

open Lib Lib.Coro Forward BackendResolver RegistryClient

abbrev ForwardEvent := Event ForwardCall ForwardCall.Answer

/-! ### The request and the others -/

/-- The wait for a slot ends normally only when a slot is free. -/
def slotFree (l : ModelLimiter) : ForwardEvent → Prop
  | ⟨.await (.waitForSlot _), .ok ()⟩ => l.activeRequests < l.maxActiveRequests
  | _ => True

/-- What other requests do during an await: they use the limiter. -/
def Shared (c : ForwardCall) (r : c.Answer) (s t : ForwardState) : Prop :=
  t = { s with limiter := t.limiter } ∧ slotFree t.limiter ⟨c, r⟩

def shared : Contract ForwardState ForwardCall ForwardCall.Answer where
  rely := Shared
  guar _ _ := True

/-- An answer that does not keep the slot from being given back. -/
def harmless : ForwardEvent → Prop
  | ⟨.proxy (.deleteLease _), r⟩ => ∀ e, statusOnly r = .error e → e.isHTTPError = true
  | ⟨.await (.lock .releaseOnce), r⟩ => r = .ok ()
  | ⟨.await .closeResponse, r⟩ => r = .ok ()
  | ⟨.await (.closeClient .body), r⟩ => r = .ok ()
  | ⟨.iterate, r⟩ => r ≠ none
  | _ => True

def Calm (es : List ForwardEvent) : Prop := ∀ e ∈ es, harmless e

lemma calm_nil : Calm [] := by simp [Calm]

lemma calm_append {es fs : List ForwardEvent} : Calm (es ++ fs) ↔ Calm es ∧ Calm fs :=
  List.forall_mem_append

lemma calm_cons {e : ForwardEvent} {es : List ForwardEvent} :
    Calm (e :: es) ↔ harmless e ∧ Calm es := List.forall_mem_cons

/-! ### Steps that do not touch the slot -/

variable {α β : Type} {s t : ForwardState} {settings : Settings} {policy : ModelPolicy}

/-- Nothing but the limiter is changed, and every answer is harmless. -/
def Plain (p : Forward α) : Prop :=
  ∀ s, p.wp shared (fun es _ t => Calm es ∧ t = { s with limiter := t.limiter }) s

/-- A harmless beginning does not matter. -/
def Prefixed (Q : List ForwardEvent → Except Exn α → ForwardState → Prop) : Prop :=
  ∀ es fs x t, Calm es → Q fs x t → Q (es ++ fs) x t

lemma Plain.then {p : Forward α} {k : Except Exn α → Forward β}
    {Q : List ForwardEvent → Except Exn β → ForwardState → Prop} (hp : Plain p) (hQ : Prefixed Q)
    (hk : ∀ x t, t = { s with limiter := t.limiter } → (k x).wp shared Q t) :
    (p.after k).wp shared Q s := by
  refine wp_after.mpr (wp_mono (hp s) ?_)
  intro es x t ht
  refine wp_mono (hk x t ht.2) ?_
  intro fs y u hu
  exact hQ es fs y u ht.1 hu

lemma plain_done (x : Except Exn α) : Plain (.done x) := fun _ => ⟨calm_nil, rfl⟩

lemma plain_call {c : ForwardCall} {f : c.Answer → Forward α} (hc : ∀ r, harmless ⟨c, r⟩)
    (hf : ∀ r, Plain (f r)) : Plain (.call c f) := by
  intro s r t hr
  refine wp_mono (hf r t) ?_
  rintro es x u ⟨hes, hu⟩
  refine ⟨calm_cons.mpr ⟨hc r, hes⟩, ?_⟩
  rw [hu, hr.1]

lemma plain_after {p : Forward α} {k : Except Exn α → Forward β} (hp : Plain p)
    (hk : ∀ x, Plain (k x)) : Plain (p.after k) := by
  intro s
  refine hp.then ?_ fun x t ht => ?_
  · intro es fs x t hes h
    exact ⟨calm_append.mpr ⟨hes, h.1⟩, h.2⟩
  · refine wp_mono (hk x t) ?_
    rintro es y u ⟨hes, hu⟩
    refine ⟨hes, ?_⟩
    rw [hu, ht]

lemma plain_onOk {f : α → Forward β} (hf : ∀ a, Plain (f a)) (x : Except Exn α) :
    Plain (onOk f x) := by
  cases x with
  | ok a => exact hf a
  | error e => exact plain_done _

lemma plain_await {a : Await} (ha : ∀ r, harmless ⟨.await a, r⟩) : Plain (awaiting a) :=
  plain_call ha fun r => plain_done r

lemma plain_suppress {p : Forward α} (hp : Plain p) : Plain (suppress p) :=
  plain_after hp fun _ => plain_done _

lemma plain_ensuring {p : Forward α} {q : Forward Unit} (hp : Plain p) (hq : Plain q) :
    Plain (ensuring p q) := plain_after hp fun _ => plain_after hq fun _ => plain_done _

/-! ### Routing -/

/-- The resolver's calls, seen from the request. -/
def PlainProxy (p : Proxy ForwardState α) : Prop := Plain (p.embed ForwardCall.proxy)

lemma plainProxy_done (x : Except Exn α) : PlainProxy (.done x) := plain_done x

lemma plainProxy_call {c : ProxyCall} {f : c.Answer → Proxy ForwardState α}
    (hc : ∀ r, harmless ⟨.proxy c, r⟩) (hf : ∀ r, PlainProxy (f r)) : PlainProxy (.call c f) :=
  plain_call hc hf

lemma plainProxy_after {p : Proxy ForwardState α} {k : Except Exn α → Proxy ForwardState β}
    (hp : PlainProxy p) (hk : ∀ x, PlainProxy (k x)) : PlainProxy (p.after k) := by
  rw [PlainProxy, embed_after]
  exact plain_after hp hk

lemma plainProxy_exceptHTTP {p : Proxy ForwardState α} {h : Exn → Proxy ForwardState β}
    {k : α → Proxy ForwardState β} (hp : PlainProxy p) (hh : ∀ e, PlainProxy (h e))
    (hk : ∀ a, PlainProxy (k a)) : PlainProxy (exceptHTTP p h k) := by
  refine plainProxy_after hp fun x => ?_
  cases x with
  | ok a => exact hk a
  | error e =>
    dsimp only
    split
    · exact hh e
    · exact plainProxy_done _

lemma plain_leaseChosen (backend : ProxyInstance) :
    PlainProxy (leaseChosen settings backend : Proxy ForwardState _) :=
  plainProxy_exceptHTTP (plainProxy_call (fun _ => trivial) fun _ => plainProxy_done _)
    (fun _ => plainProxy_done _) fun _ => plainProxy_done _

lemma plain_allocateAndLease (model : String) (orchestration : Mapping) :
    PlainProxy (allocateAndLease settings model orchestration : Proxy ForwardState _) := by
  have hfailed : ∀ e, PlainProxy (allocationFailed e : Proxy ForwardState _) := by
    intro e
    unfold allocationFailed
    split
    · split
      · exact plainProxy_done _
      · exact plainProxy_done _
    · exact plainProxy_done _
    · exact plainProxy_done _
  refine plainProxy_after (plainProxy_after
    (plainProxy_call (fun _ => trivial) fun _ => plainProxy_done _) fun x => ?_) fun x => ?_
  · cases x with
    | ok i => exact plainProxy_done _
    | error e => exact hfailed e
  · rcases x with e | (_ | backend)
    · dsimp only
      split
      · exact plainProxy_done _
      · exact plainProxy_done _
    · exact plainProxy_done _
    · dsimp only
      split
      · exact plain_leaseChosen backend
      · exact plainProxy_done _

lemma plain_resolve (model : String) (orchestration : Mapping) :
    PlainProxy (resolve settings model orchestration : Proxy ForwardState _) := by
  unfold resolve
  split
  · exact plainProxy_done _
  · refine plainProxy_exceptHTTP ?_ (fun _ => plainProxy_done _) fun chosen => ?_
    · refine plainProxy_after (plainProxy_call (fun _ => trivial) fun _ => plainProxy_done _)
        fun x => ?_
      cases x with
      | ok instances => exact plainProxy_done _
      | error e => exact plainProxy_done _
    · cases chosen with
      | none => exact plain_allocateAndLease model orchestration
      | some backend => exact plain_leaseChosen backend

/-! ### Forwarding -/

lemma plain_sendBuffered (url : String) (payload : Mapping) : Plain (sendBuffered url payload) := by
  refine plain_after (plain_await fun _ => trivial) (plain_onOk fun _ => ?_)
  refine plain_ensuring (plain_call (fun _ => trivial) fun first => ?_) ?_
  · refine plain_after (plain_done first) (plain_onOk fun disconnected => ?_)
    cases disconnected with
    | true =>
      exact plain_after (plain_suppress (plain_await fun _ => trivial)) fun _ => plain_done _
    | false => exact plain_call (fun _ => trivial) fun r => plain_done r
  · refine plain_after (plain_suppress (plain_await fun _ => trivial)) fun _ => ?_
    refine plain_call (fun _ => trivial) fun sent => ?_
    cases sent with
    | true => exact plain_done _
    | false => exact plain_suppress (plain_await fun _ => trivial)

lemma plain_exchangeBuffered (url : String) (payload : Mapping) :
    Plain (exchangeBuffered url payload) := by
  refine plain_after (plain_await fun _ => trivial) (plain_onOk fun _ => ?_)
  exact plain_ensuring (plain_sendBuffered url payload) (plain_await fun _ => trivial)

lemma plain_sendStreamed (url : String) (payload : Mapping) :
    Plain (sendStreamed url payload) := by
  have hclose : ∀ e, Plain ((awaiting (.closeClient .request)).after
      (onOk fun _ => (raise e : Forward HttpResponse))) := fun e =>
    plain_after (plain_await fun _ => trivial) (plain_onOk fun _ => plain_done _)
  refine plain_after (plain_await fun _ => trivial) (plain_onOk fun _ => ?_)
  refine plain_after ?_ fun x => ?_
  · refine plain_call (fun _ => trivial) fun first => ?_
    refine plain_after (plain_done first) (plain_onOk fun disconnected => ?_)
    cases disconnected with
    | true =>
      exact plain_after (plain_suppress (plain_await fun _ => trivial)) fun _ => hclose _
    | false =>
      refine plain_after (plain_suppress (plain_await fun _ => trivial)) fun _ => ?_
      exact plain_call (fun _ => trivial) fun r => plain_done r
  · cases x with
    | ok r => exact plain_done _
    | error e =>
      dsimp only
      split
      · refine plain_after (plain_suppress (plain_await fun _ => trivial)) fun _ => ?_
        exact plain_after (plain_suppress (plain_await fun _ => trivial)) fun _ => hclose e
      · exact plain_done _

lemma plain_chunks (n : ℕ) : Plain (chunks n) := by
  induction n with
  | zero => exact plain_await fun _ => trivial
  | succ n ih =>
    refine plain_after (plain_await fun _ => trivial) (plain_onOk fun _ => ?_)
    exact plain_after (plain_await fun _ => trivial) (plain_onOk fun _ => ih)

/-! ### Giving the slot back -/

/-- The request holds its slot and nothing has gone wrong. -/
def Held (t : ForwardState) : Prop := t.released = false ∧ t.freed = 0

/-- The slot has been given back once, or an answer has kept it from being given back at all. -/
def Settled (es : List ForwardEvent) (t : ForwardState) : Prop :=
  t.freed = 1 ∧ Calm es ∨ t.freed = 0 ∧ ¬Calm es

lemma Settled.prefixed : Prefixed fun es (_ : Except Exn α) t => Settled es t := by
  intro es fs _ t hes h
  rcases h with ⟨hfreed, hfs⟩ | ⟨hfreed, hfs⟩
  · exact Or.inl ⟨hfreed, calm_append.mpr ⟨hes, hfs⟩⟩
  · exact Or.inr ⟨hfreed, fun h => hfs (calm_append.mp h).2⟩

lemma calm_single {e : ForwardEvent} : Calm [e] ↔ harmless e := by simp [Calm]

/-- The release of the lease ends normally exactly after a harmless answer. -/
lemma wp_release {id : Option String} :
    ((release settings id).embed ForwardCall.proxy).wp shared
      (fun es x t => t = { s with limiter := t.limiter } ∧
        (x = .ok () ∧ Calm es ∨ (∃ e, x = .error e) ∧ ¬Calm es)) s := by
  have hnone : Calm [] := calm_nil
  cases id with
  | none => exact ⟨rfl, Or.inl ⟨rfl, hnone⟩⟩
  | some id =>
    rw [release]
    split
    · exact ⟨rfl, Or.inl ⟨rfl, hnone⟩⟩
    · intro r t hr
      cases hs : statusOnly r with
      | ok u =>
        have hcalm : harmless ⟨.proxy (.deleteLease id), r⟩ := by
          intro e he
          rw [hs] at he
          cases he
        simp only [lift, after_done, hs]
        exact ⟨hr.1, Or.inl ⟨rfl, calm_single.mpr hcalm⟩⟩
      | error e =>
        simp only [lift, after_done, hs]
        by_cases he : e.isHTTPError = true
        · have hcalm : harmless ⟨.proxy (.deleteLease id), r⟩ := by
            intro e' he'
            rw [hs] at he'
            cases he'
            exact he
          rw [if_pos he]
          exact ⟨hr.1, Or.inl ⟨rfl, calm_single.mpr hcalm⟩⟩
        · rw [if_neg he]
          exact ⟨hr.1, Or.inr ⟨⟨e, rfl⟩, fun h => he (calm_single.mp h e hs)⟩⟩

lemma wp_releaseLimiter (hs : s.freed = 0) :
    (limiterRelease .releaseOnce).wp shared
      (fun es _ t => t.released = s.released ∧ Settled es t) s := by
  intro r t hr
  have hfreed : t.freed = 0 := by rw [hr.1]; exact hs
  have hreleased : t.released = s.released := by rw [hr.1]
  cases r with
  | ok u =>
    have hcalm : Calm [⟨ForwardCall.await (.lock .releaseOnce), .ok u⟩] := calm_single.mpr rfl
    refine ⟨trivial, hreleased, Or.inl ⟨?_, hcalm⟩⟩
    show t.freed + 1 = 1
    omega
  | error e =>
    refine ⟨hreleased, Or.inr ⟨hfreed, fun h => ?_⟩⟩
    have hok := calm_single.mp h
    cases hok

/-- **`release_once` of a held slot.** Whatever happens, it does nothing from then on. -/
lemma wp_releaseOnce (hs : Held s) :
    (releaseOnce settings).wp shared (fun es _ t => t.released = true ∧ Settled es t) s := by
  rw [releaseOnce, wp_get, hs.1]
  refine ⟨trivial, wp_after.mpr (wp_mono wp_release ?_)⟩
  rintro es x t ⟨ht, hx⟩
  have hfreed : t.freed = 0 := by rw [ht]; exact hs.2
  have hreleased : t.released = true := by rw [ht]
  rcases hx with ⟨rfl, hes⟩ | ⟨⟨e, rfl⟩, hes⟩
  · refine wp_mono (wp_releaseLimiter hfreed) ?_
    rintro fs y u ⟨hu, hsettled⟩
    exact ⟨hu.trans hreleased, Settled.prefixed es fs y u hes hsettled⟩
  · refine ⟨hreleased, Or.inr ⟨hfreed, ?_⟩⟩
    rwa [List.append_nil]

lemma wp_releaseOnce_again (hs : s.released = true) {Q : List ForwardEvent → Except Exn Unit →
    ForwardState → Prop} : (releaseOnce settings).wp shared Q s ↔ Q [] (.ok ()) s := by
  rw [releaseOnce, wp_get, hs]
  rfl

/-- The direct release of the path without a backend: if it fails, the slot is still held. -/
lemma wp_releaseDirect (hs : Held s) :
    (limiterRelease .noBackend).wp shared
      (fun es x t => x = .ok () ∧ Settled es t ∨ (∃ e, x = .error e) ∧ Held t ∧ Calm es) s := by
  intro r t hr
  have hfreed : t.freed = 0 := by rw [hr.1]; exact hs.2
  have hreleased : t.released = false := by rw [hr.1]; exact hs.1
  have hcalm : Calm [⟨ForwardCall.await (.lock .noBackend), r⟩] := calm_single.mpr trivial
  cases r with
  | ok u =>
    refine ⟨trivial, Or.inl ⟨rfl, Or.inl ⟨?_, hcalm⟩⟩⟩
    show t.freed + 1 = 1
    omega
  | error e => exact Or.inr ⟨⟨e, rfl⟩, ⟨hreleased, hfreed⟩, hcalm⟩

/-! ### The request up to its response -/

def isStream (response : ForwardResponse) : Prop := ∃ r, response.body = .stream r

/-- The `try` statement before its handlers: a stream still holds the slot; another response has
settled it; an exception leaves it held, or `release_once` has been here. While it sends,
`release_once` is the only way to settle. -/
def Tried (sends : Prop) (es : List ForwardEvent) : Except Exn ForwardResponse → ForwardState → Prop
  | .ok response, t =>
    isStream response ∧ Held t ∧ Calm es ∨
      ¬isStream response ∧ (sends → t.released = true) ∧ Settled es t
  | .error _, t => Held t ∧ Calm es ∨ t.released = true ∧ Settled es t

lemma Tried.prefixed {sends : Prop} : Prefixed (Tried sends) := by
  intro es fs x t hes h
  have hsettled : Settled fs t → Settled (es ++ fs) t :=
    Settled.prefixed (α := Unit) es fs (.ok ()) t hes
  have hcalm : Calm fs → Calm (es ++ fs) := fun hfs => calm_append.mpr ⟨hes, hfs⟩
  cases x with
  | ok response =>
    rcases h with ⟨hs, ht, hfs⟩ | ⟨hs, ht, hfs⟩
    · exact Or.inl ⟨hs, ht, hcalm hfs⟩
    · exact Or.inr ⟨hs, ht, hsettled hfs⟩
  | error e =>
    rcases h with ⟨ht, hfs⟩ | ⟨ht, hfs⟩
    · exact Or.inl ⟨ht, hcalm hfs⟩
    · exact Or.inr ⟨ht, hsettled hfs⟩

lemma held_of_limiter (hs : Held s) (ht : t = { s with limiter := t.limiter }) : Held t := by
  rw [ht]
  exact hs

lemma wp_forwardTo {path baseUrl : String} {payload : Mapping} {id : Option String} (hs : Held s) :
    (forwardTo settings policy path payload baseUrl id).wp shared (Tried True) s := by
  rw [forwardTo]
  split
  · refine (plain_sendStreamed _ _).then Tried.prefixed fun x t ht => ?_
    have hheld := held_of_limiter hs ht
    cases x with
    | ok r => exact Or.inl ⟨⟨r, rfl⟩, hheld, calm_nil⟩
    | error e => exact Or.inl ⟨hheld, calm_nil⟩
  · rw [forwardBufferedResponse, exceptHTTP, after_assoc]
    refine (plain_exchangeBuffered _ _).then Tried.prefixed fun x t ht => ?_
    have hheld := held_of_limiter hs ht
    -- once there is a response, `release_once` settles the slot
    have hrelease : ∀ response, ¬isStream response →
        ((releaseOnce settings).after (onOk fun _ => pure response)).wp shared (Tried True) t := by
      intro response hstream
      refine wp_after.mpr (wp_mono (wp_releaseOnce hheld) ?_)
      rintro es y u ⟨hreleased, hsettled⟩
      cases y with
      | ok a =>
        refine Or.inr ⟨hstream, fun _ => hreleased, ?_⟩
        rwa [List.append_nil]
      | error e =>
        refine Or.inr ⟨hreleased, ?_⟩
        rwa [List.append_nil]
    cases x with
    | ok r => exact hrelease _ (by rintro ⟨r, hr⟩; cases hr)
    | error e =>
      dsimp only
      split
      · exact hrelease _ (by rintro ⟨r, hr⟩; cases hr)
      · exact Or.inl ⟨hheld, calm_nil⟩

lemma wp_forwardAdmitted {path : String} {payload metadata : Mapping} (hs : Held s) :
    (forwardAdmitted settings policy path payload metadata).wp shared (Tried False) s := by
  refine (plain_resolve _ _).then Tried.prefixed fun x t ht => ?_
  have hheld := held_of_limiter hs ht
  cases x with
  | error e => exact Or.inl ⟨hheld, calm_nil⟩
  | ok resolved =>
    obtain ⟨baseUrl, id⟩ := resolved
    refine ⟨trivial, ?_⟩
    cases baseUrl with
    | none =>
      refine wp_after.mpr (wp_mono (wp_releaseDirect hheld) ?_)
      rintro es y u (⟨rfl, hsettled⟩ | ⟨⟨e, rfl⟩, hheld', hes⟩)
      · refine Or.inr ⟨nofun, False.elim, ?_⟩
        rwa [List.append_nil]
      · refine Or.inl ⟨hheld', ?_⟩
        rwa [List.append_nil]
    | some baseUrl =>
      refine wp_after.mpr (wp_mono (wp_forwardTo hheld) ?_)
      intro es y u hy
      cases y with
      | error e =>
        rcases hy with ⟨hu, hes⟩ | ⟨hu, hes⟩
        · refine Or.inl ⟨hu, ?_⟩
          rwa [List.append_nil]
        · refine Or.inr ⟨hu, ?_⟩
          rwa [List.append_nil]
      | ok response =>
        rw [onOk_ok]
        cases htokens : tokenMetadata metadata with
        | error e =>
          rcases hy with ⟨-, hu, hes⟩ | ⟨-, hreleased, hes⟩
          · refine Or.inl ⟨hu, ?_⟩
            rwa [List.append_nil]
          · refine Or.inr ⟨hreleased trivial, ?_⟩
            rwa [List.append_nil]
        | ok capped =>
          rcases hy with ⟨hstream, hu, hes⟩ | ⟨hstream, -, hes⟩
          · refine Or.inl ⟨hstream, hu, ?_⟩
            rwa [List.append_nil]
          · refine Or.inr ⟨hstream, False.elim, ?_⟩
            rwa [List.append_nil]

/-- After the handlers: only a stream still holds the slot. -/
def Handled (es : List ForwardEvent) : Except Exn ForwardResponse → ForwardState → Prop
  | .ok response, t => isStream response ∧ Held t ∧ Calm es ∨ ¬isStream response ∧ Settled es t
  | .error _, t => Settled es t

lemma wp_handleFailure {es : List ForwardEvent} {e : Exn}
    (hs : Held s ∧ Calm es ∨ s.released = true ∧ Settled es s) :
    (handleFailure settings e).wp shared (fun fs x t => Handled (es ++ fs) x t) s := by
  have hsettles : ∀ k : Unit → Forward ForwardResponse,
    (∀ u, ∃ x, k u = .done x ∧ ∀ response, x = .ok response → ¬isStream response) →
      ((releaseOnce settings).after (onOk k)).wp shared
      (fun fs x t => Handled (es ++ fs) x t) s := by
    intro k hk
    have hdone : ∀ gs y u, Settled (es ++ gs) u →
        (onOk k y).wp shared (fun fs x t => Handled (es ++ (gs ++ fs)) x t) u := by
      intro gs y u hu
      cases y with
      | error e' =>
        show Handled (es ++ (gs ++ [])) (.error e') u
        rwa [List.append_nil]
      | ok a =>
        obtain ⟨x, hx, hother⟩ := hk a
        rw [onOk_ok, hx]
        show Handled (es ++ (gs ++ [])) x u
        rw [List.append_nil]
        cases x with
        | ok response => exact Or.inr ⟨hother response rfl, hu⟩
        | error e' => exact hu
    refine wp_after.mpr ?_
    rcases hs with ⟨hs, hes⟩ | ⟨hs, hes⟩
    · refine wp_mono (wp_releaseOnce hs) ?_
      rintro gs y u ⟨-, hu⟩
      exact hdone gs y u (Settled.prefixed es gs y u hes hu)
    · rw [wp_releaseOnce_again hs]
      refine hdone [] _ s ?_
      rwa [List.append_nil]
  rw [handleFailure]
  split
  · exact hsettles _ fun _ => ⟨_, rfl, by rintro _ ⟨⟩ ⟨r, hr⟩; cases hr⟩
  split
  · exact hsettles _ fun _ => ⟨_, rfl, by rintro _ ⟨⟩ ⟨r, hr⟩; cases hr⟩
  · exact hsettles _ fun _ => ⟨_, rfl, nofun⟩

/-! ### The whole request -/

lemma wp_acquire (hs : s.admitted = false ∧ Held s) :
    acquire.wp shared (fun es x t => Calm es ∧
      (x = .ok () ∧ t.admitted = true ∧ Held t ∨ (∃ e, x = .error e) ∧ t.admitted = false)) s := by
  have hkept : ∀ {u v : ForwardState}, v = { u with limiter := v.limiter } →
      u.admitted = false ∧ Held u → v.admitted = false ∧ Held v := by
    intro u v hv hu
    rw [hv]
    exact hu
  intro r t hr
  have ht := hkept hr.1 hs
  have hlock : harmless ⟨ForwardCall.await (.lock .acquire), r⟩ := trivial
  cases r with
  | error e => exact ⟨calm_single.mpr hlock, Or.inr ⟨⟨e, rfl⟩, ht.1⟩⟩
  | ok u =>
    simp only [lift, after_done, onOk_ok, wp_get]
    rcases t.limiter.enter_cases with ⟨-, he⟩ | ⟨-, he⟩ | ⟨-, -, he⟩
    · rw [he]
      exact ⟨trivial, calm_single.mpr hlock, Or.inl ⟨rfl, rfl, ht.2⟩⟩
    · rw [he]
      exact ⟨trivial, calm_single.mpr hlock, Or.inr ⟨⟨_, rfl⟩, ht.1⟩⟩
    · rw [he]
      refine ⟨trivial, fun r' v hv => ?_⟩
      have hv' := hkept hv.1 ht
      have hwait : ∀ {timeout}, Calm [⟨ForwardCall.await (.lock .acquire), .ok u⟩,
          ⟨ForwardCall.await (.waitForSlot timeout), r'⟩] := by
        intro timeout
        exact calm_cons.mpr ⟨hlock, calm_single.mpr trivial⟩
      cases r' with
      | ok u' => exact ⟨trivial, hwait, Or.inl ⟨rfl, rfl, hv'.2⟩⟩
      | error e =>
        simp only [lift, after_done]
        split
        · exact ⟨trivial, hwait, Or.inr ⟨⟨_, rfl⟩, hv'.1⟩⟩
        · exact ⟨hwait, Or.inr ⟨⟨e, rfl⟩, hv'.1⟩⟩

lemma wp_responseBody {n : ℕ} (hs : Held s) :
    (responseBody settings n).wp shared (fun es _ t => Settled es t) s := by
  refine (plain_chunks n).then Settled.prefixed fun x t ht => ?_
  have hheld := held_of_limiter hs ht
  have hraised : ∀ {es : List ForwardEvent} {u : ForwardState},
      u = { t with limiter := u.limiter } →
      ¬Calm es → Settled es u := by
    intro es u hu hes
    exact Or.inr ⟨(held_of_limiter hheld hu).2, hes⟩
  rw [after_assoc]
  intro r u hu
  cases r with
  | error e => exact hraised hu.1 fun h => by cases calm_single.mp h
  | ok a =>
    intro r' v hv
    have htv : v = { t with limiter := v.limiter } := by rw [hv.1, hu.1]
    cases r' with
    | error e =>
      exact hraised htv fun h => by cases (calm_cons.mp h).2 _ (List.mem_singleton.mpr rfl)
    | ok a' =>
      refine wp_after.mpr (wp_mono (wp_releaseOnce (held_of_limiter hheld htv)) ?_)
      rintro es y w ⟨-, hw⟩
      have hclosed : Calm [⟨ForwardCall.await .closeResponse, .ok a⟩,
          ⟨ForwardCall.await (.closeClient .body), .ok a'⟩] :=
        calm_cons.mpr ⟨rfl, calm_single.mpr rfl⟩
      have hes := Settled.prefixed _ es y w hclosed hw
      show Settled (_ :: _ :: (es ++ [])) w
      rwa [List.append_nil]

lemma wp_serveStream {r : HttpResponse} {capped : Bool} (hs : Held s) :
    (serve settings ⟨.stream r, capped⟩).wp shared (fun es _ t => Settled es t) s := by
  intro taken t ht
  have hheld := held_of_limiter hs ht.1
  cases taken with
  | none =>
    have hnever : ¬Calm [⟨ForwardCall.iterate, none⟩] := fun h => calm_single.mp h rfl
    exact Or.inr ⟨hheld.2, hnever⟩
  | some n =>
    refine wp_mono (wp_responseBody hheld) ?_
    intro es x u hu
    have hiterated : Calm [⟨ForwardCall.iterate, some n⟩] := calm_single.mpr nofun
    exact Settled.prefixed _ es x u hiterated hu

lemma wp_serveOther {response : ForwardResponse} (h : ¬isStream response)
    {Q : List ForwardEvent → Except Exn Unit → ForwardState → Prop} :
    (serve settings response).wp shared Q s ↔ Q [] (.ok ()) s := by
  obtain ⟨body, capped⟩ := response
  cases body with
  | stream r => exact absurd ⟨r, rfl⟩ h
  | _ => rfl

/-- The slot is settled, or there never was one. -/
def Done (es : List ForwardEvent) (x : Except Exn ForwardResponse) (t : ForwardState) : Prop :=
  (t.admitted = false ∧ ∀ response, x = .ok response → ¬isStream response) ∨ Handled es x t

lemma wp_forwardOpenaiPath {path : String} {payload metadata : Mapping}
    (hs : s.admitted = false ∧ Held s) :
    (forwardOpenaiPath settings policy path payload metadata).wp shared Done s := by
  refine wp_after.mpr (wp_mono (wp_acquire hs) ?_)
  rintro es x t ⟨hes, ⟨rfl, -, ht⟩ | ⟨⟨e, rfl⟩, ht⟩⟩
  · refine wp_after.mpr (wp_mono (wp_forwardAdmitted ht) ?_)
    intro fs y u hy
    cases y with
    | ok response =>
      show Done (es ++ (fs ++ [])) _ _
      rw [List.append_nil]
      rcases hy with ⟨hstream, hu, hfs⟩ | ⟨hstream, -, hu⟩
      · exact Or.inr (Or.inl ⟨hstream, hu, calm_append.mpr ⟨hes, hfs⟩⟩)
      · exact Or.inr (Or.inr ⟨hstream, Settled.prefixed es fs (.ok ()) u hes hu⟩)
    | error e =>
      have hfailed : Held u ∧ Calm (es ++ fs) ∨ u.released = true ∧ Settled (es ++ fs) u := by
        rcases hy with ⟨hu, hfs⟩ | ⟨hreleased, hu⟩
        · exact Or.inl ⟨hu, calm_append.mpr ⟨hes, hfs⟩⟩
        · exact Or.inr ⟨hreleased, Settled.prefixed es fs (.ok ()) u hes hu⟩
      refine wp_mono (wp_handleFailure hfailed) ?_
      intro gs z v hz
      rw [List.append_assoc] at hz
      exact Or.inr hz
  · dsimp only
    split
    · exact Or.inl ⟨ht, by rintro _ ⟨⟩ ⟨r, hr⟩; cases hr⟩
    split
    · exact Or.inl ⟨ht, by rintro _ ⟨⟩ ⟨r, hr⟩; cases hr⟩
    · exact Or.inl ⟨ht, nofun⟩

/-- **Every request that got a slot settles it.** -/
theorem wp_request {path : String} {payload metadata : Mapping} (limiter : ModelLimiter) :
    (request settings policy path payload metadata).wp shared
      (fun es _ t => t.admitted = true → Settled es t) (start limiter) := by
  refine wp_after.mpr (wp_mono (wp_forwardOpenaiPath ⟨rfl, rfl, rfl⟩) ?_)
  intro es x t hx
  cases x with
  | error e =>
    rcases hx with ⟨ht, -⟩ | ht
    · exact fun hadmitted => by rw [ht] at hadmitted; cases hadmitted
    · show t.admitted = true → Settled (es ++ []) t
      rw [List.append_nil]
      exact fun _ => ht
  | ok response =>
    rw [onOk_ok]
    rcases hx with ⟨ht, hresponse⟩ | ⟨⟨r, hr⟩, ht, hes⟩ | ⟨hstream, ht⟩
    · rw [wp_serveOther (hresponse response rfl)]
      exact fun hadmitted => by rw [ht] at hadmitted; cases hadmitted
    · obtain ⟨_, capped⟩ := response
      cases hr
      refine wp_mono (wp_serveStream ht) ?_
      intro fs y u hu _
      exact Settled.prefixed es fs y u hes hu
    · rw [wp_serveOther hstream]
      show t.admitted = true → Settled (es ++ []) t
      rw [List.append_nil]
      exact fun _ => ht

/-- **One release.** A request that got a slot gives it back exactly once, for any behaviour of its
awaits and of the server, exactly if every answer is harmless. -/
theorem slot_freed_once_iff {path : String} {payload metadata : Mapping} {limiter : ModelLimiter}
    {es : List ForwardEvent} {x : Except Exn Unit}
    (hr : (request settings policy path payload metadata).Runs Shared (start limiter) es x t)
    (ha : t.admitted = true) : t.freed = 1 ↔ ∀ e ∈ es, harmless e := by
  have hsettled : Settled es t := wp_sound (wp_request limiter) hr ha
  rcases hsettled with ⟨hfreed, hes⟩ | ⟨hfreed, hes⟩
  · exact iff_of_true hfreed hes
  · exact iff_of_false (by omega) hes

/-- Routing over the registry. -/
def sampleRouting : Settings :=
  { ProxySystem.sampleSettings with enableBackendRegistryRouting := true }

def sampleRegistry : Json :=
  .obj [("instances", .arr [.obj [("instance_id", .str "backend-1"), ("model", .str "local-model"),
    ("base_url", .str "http://127.0.0.1:8001/v1"), ("state", .str "ready"),
    ("active_requests", .int 0)]])]

/-- Everything succeeds; `released` answers the release of the lease. -/
def sampleAnswer (released : Except Exn HttpResponse) : (c : ForwardCall) → c.Answer
  | .proxy .utcNow => ProxySystem.sampleNow
  | .proxy .datetimeNow => ProxySystem.sampleNow
  | .proxy .getRegistry => .ok ⟨200, "application/json", "", .ok sampleRegistry⟩
  | .proxy (.deleteLease _) => released
  | .proxy (.postAllocation _) | .proxy (.postLease _) | .proxy (.postReconcile _)
  | .proxy (.postExplain _) | .proxy (.postUpstream _ _) =>
    .ok ⟨200, "application/json", "", .ok (.obj [])⟩
  | .await (.waitForSlot _) => .error ⟨.other, "TimeoutError", ""⟩
  | .await _ => .ok ()
  | .waitFirst => .ok false
  | .sendDone => true
  | .sendResult => .ok ⟨200, "application/json", "", .ok (.obj [])⟩
  | .iterate => some 2

def samplePolicy : ModelPolicy := ProxySystem.samplePolicies.defaultPolicy

def samplePlay (released : Except Exn HttpResponse) :
    List ForwardEvent × Except Exn Unit × ForwardState :=
  (request sampleRouting samplePolicy "chat/completions" ProxySystem.samplePayload []).play
    (sampleAnswer released) (start (ModelLimiter.new samplePolicy))

lemma sample_runs (released : Except Exn HttpResponse) :
    (request sampleRouting samplePolicy "chat/completions" ProxySystem.samplePayload []).Runs Shared
      (start (ModelLimiter.new samplePolicy)) (samplePlay released).1 (samplePlay released).2.1
      (samplePlay released).2.2 := by
  refine runs_play (fun c s => ⟨rfl, ?_⟩) _ _
  cases c with
  | await a => cases a <;> trivial
  | _ => trivial

/-- What a lifecycle that answers makes of the release. -/
def releasedOk : Except Exn HttpResponse := .ok ⟨200, "application/json", "", .ok (.obj [])⟩

theorem slot_freed_once_sample :
    (samplePlay releasedOk).2.2.freed = 1 ↔ ∀ e ∈ (samplePlay releasedOk).1, harmless e :=
  slot_freed_once_iff (sample_runs releasedOk) (by decide +kernel)

/-- The handler is cancelled while `release_once` awaits the release of the lease: the slot is
never given back. -/
theorem slot_lost :
    ∃ es x t, (request sampleRouting samplePolicy "chat/completions" ProxySystem.samplePayload
        []).Runs Shared (start (ModelLimiter.new samplePolicy)) es x t ∧
      t.admitted = true ∧ t.limiter.activeRequests = 1 ∧ ¬t.freed = 1 :=
  ⟨_, _, _, sample_runs (.error Exn.cancelledError), by decide +kernel, by decide +kernel,
    by decide +kernel⟩

end Orchestrator.SlotRelease
