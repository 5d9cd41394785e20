import Orchestrator.ExecutorTokens
import Orchestrator.InFlight
import Orchestrator.Lib.Calls
import Orchestrator.SlotRelease

/-!
The steps of `InFlight` as calls of the code.

A request sends upstream once, while it holds its slot, and gives back only a slot that it holds,
after its upstream request is over; the exceptions are a stream whose handler is cancelled before
it has the response, and one whose token counts cannot be read. The execution of a task posts once.
Hence the steps `send`, `finish`, `release` and `post` are possible where the code comes to them.
-/

namespace Orchestrator.InFlight

open Lib Lib.Coro Forward SlotRelease BackendResolver LimiterSystem

/-! ### The upstream request of a client -/

/-- Where the upstream request of a client stands. -/
inductive Sending
  | before
  /-- it is being sent, or its response is being streamed -/
  | flying (stream : Bool)
  | ended
  /-- the handler of a stream was cancelled while it waited: the task goes on -/
  | abandoned
  deriving DecidableEq

namespace Sending

def inFlight : Sending → Bool
  | flying _ | abandoned => true
  | before | ended => false

/-- What an answer to the request makes of it. -/
def next (m : Sending) : ForwardEvent → Sending
  | ⟨.await (.startSend _ _ stream), .ok _⟩ => flying stream
  | ⟨.await (.startSend _ _ _), .error _⟩ => ended
  | ⟨.await .sendTask, _⟩ => ended
  | ⟨.sendDone, true⟩ => ended
  | ⟨.sendResult, .error _⟩ => ended
  | ⟨.sendResult, .ok _⟩ => if m = flying true then m else ended
  | ⟨.await .closeResponse, .ok _⟩ => ended
  | ⟨.waitFirst, .error e⟩ => if m = flying true ∧ e.isException = false then abandoned else m
  | _ => m

end Sending

/-- Where the upstream request of a client stands after its calls. -/
def sending (es : List ForwardEvent) : Sending := es.foldl Sending.next .before

/-- The upstream request is started. -/
def sends : ForwardCall → Bool
  | .await (.startSend _ _ _) => true
  | _ => false

/-- The slot is given back, once there is the lock. -/
def givesBack : ForwardCall → Bool
  | .await (.lock .noBackend) | .await (.lock .releaseOnce) => true
  | _ => false

def Holding (s : ForwardState) : Prop := s.admitted = true ∧ s.freed = 0

/-- The response is over, or the token counts cannot be read. -/
def Landed (metadata : Mapping) (m : Sending) : Prop :=
  ∀ stream, m = .flying stream → ∃ e, tokenMetadata metadata = .error e

def slotRule (metadata : Mapping) : Rule ForwardState ForwardCall ForwardCall.Answer Sending where
  allows c m s := (sends c = true → Holding s ∧ m = .before) ∧
    (givesBack c = true → Holding s ∧ Landed metadata m)
  next := Sending.next

/-- A call that has nothing to do with the slot and the upstream request. -/
def Apart (c : ForwardCall) : Prop :=
  sends c = false ∧ givesBack c = false ∧ ∀ m r, Sending.next m ⟨c, r⟩ = m

variable {α : Type} {m : Sending} {s t v : ForwardState} {settings : Settings}
  {policy : ModelPolicy} {path : String} {payload metadata : Mapping}

lemma allowed_of_neither {c : ForwardCall} (hs : sends c = false) (hg : givesBack c = false) :
    (slotRule metadata).allows c m s :=
  ⟨fun h => absurd (hs.symm.trans h) nofun, fun h => absurd (hg.symm.trans h) nofun⟩

lemma Apart.free {c : ForwardCall} (h : Apart c) : (slotRule metadata).Free c :=
  ⟨fun _ _ => allowed_of_neither h.1 h.2.1, h.2.2⟩

lemma apart_await {a : Await} (ha : Apart (.await a)) : (awaiting a).Makes Apart :=
  ⟨ha, fun _ => trivial⟩

lemma apart_proxy {p : Proxy ForwardState α} {P : ProxyCall → Prop} (hp : p.Makes P) :
    (p.embed ForwardCall.proxy : Forward α).Makes Apart :=
  makes_embed (hp.mono fun _ _ => ⟨rfl, rfl, fun _ _ => rfl⟩)

lemma apart_acquire : acquire.Makes Apart := by
  refine makes_after (apart_await ⟨rfl, rfl, fun _ _ => rfl⟩) fun x => ?_
  cases x with
  | error e => trivial
  | ok u =>
    intro s
    dsimp only
    split
    · trivial
    · trivial
    · refine fun s' => makes_after (apart_await ⟨rfl, rfl, fun _ _ => rfl⟩) fun y => ?_
      cases y with
      | ok u => exact fun _ => trivial
      | error e =>
        dsimp only
        split
        · exact fun _ => trivial
        · trivial

lemma apart_chunks (n : ℕ) : (chunks n).Makes Apart := by
  induction n with
  | zero => exact apart_await ⟨rfl, rfl, fun _ _ => rfl⟩
  | succ n ih =>
    exact makes_bind (apart_await ⟨rfl, rfl, fun _ _ => rfl⟩) fun _ =>
      makes_bind (apart_await ⟨rfl, rfl, fun _ _ => rfl⟩) fun _ => ih

/-! ### While it holds the slot -/

/-- A coroutine with calls apart from the slot leaves all but the limiter as it is. -/
lemma obeys_plain {p : Forward α} (hp : Plain p) (hm : p.Makes Apart) :
    p.Obeys Shared (slotRule metadata)
      (fun _ m' t => m' = m ∧ t = { s with limiter := t.limiter }) m s := by
  refine (Obeys.of_wp (hm.mono fun _ => Apart.free) (hp s)).mono ?_
  rintro x m' t ⟨hm', es, -, ht⟩
  exact ⟨hm', ht⟩

/-- A call that neither sends nor gives back. -/
lemma obeys_call {c : ForwardCall} {f : c.Answer → Forward α}
    {Q : Except Exn α → Sending → ForwardState → Prop} (hs : sends c = false)
    (hg : givesBack c = false) (hf : ∀ r t, t = { s with limiter := t.limiter } →
      (f r).Obeys Shared (slotRule metadata) Q (m.next ⟨c, r⟩) t) :
    (Coro.call c f).Obeys Shared (slotRule metadata) Q m s :=
  ⟨allowed_of_neither hs hg, fun r t hr => hf r t hr.1⟩

lemma Holding.shared (hs : Holding s) (ht : t = { s with limiter := t.limiter }) : Holding t := by
  rw [ht]
  exact hs

lemma shared_trans (ht : t = { s with limiter := t.limiter })
    (hv : v = { t with limiter := v.limiter }) : v = { s with limiter := v.limiter } := by
  rw [hv, ht]

/-- However the exchange ends, the upstream request is over then. -/
lemma obeys_sendBuffered (hs : Holding s) (url : String) :
    (sendBuffered url payload).Obeys Shared (slotRule metadata)
      (fun _ m t => m = .ended ∧ t = { s with limiter := t.limiter }) .before s := by
  refine ⟨⟨fun _ => ⟨hs, rfl⟩, nofun⟩, fun r t hr => ?_⟩
  have ht : t = { s with limiter := t.limiter } := hr.1
  cases r with
  | error e => exact ⟨rfl, ht⟩
  | ok u =>
    simp only [lift, after_done, onOk_ok]
    refine obeys_after.mpr
      (Obeys.mono (Q := fun _ _ v => v = { t with limiter := v.limiter }) ?_ ?_)
    · refine obeys_call (c := .waitFirst) rfl rfl fun first v hv => ?_
      rcases first with e | (_ | _)
      · exact hv
      · exact obeys_call (c := .sendResult) rfl rfl fun r w hw => shared_trans hv hw
      · exact obeys_call (c := .await .sendTask) rfl rfl fun r w hw => shared_trans hv hw
    · intro x m v hv
      have hv := shared_trans ht hv
      refine obeys_call (c := .await .disconnectTask) rfl rfl fun r w hw => ?_
      have hw := shared_trans hv hw
      refine obeys_call (c := .sendDone) rfl rfl fun sent z hz => ?_
      have hz := shared_trans hw hz
      cases sent with
      | true => exact ⟨rfl, hz⟩
      | false =>
        exact obeys_call (c := .await .sendTask) rfl rfl fun r y hy => ⟨rfl, shared_trans hz hy⟩

lemma obeys_exchangeBuffered (hs : Holding s) (url : String) :
    (exchangeBuffered url payload).Obeys Shared (slotRule metadata) (fun _ m t =>
      (m = .before ∨ m = .ended) ∧ t = { s with limiter := t.limiter }) .before s := by
  refine obeys_call (c := .await .openClient) rfl rfl fun r t ht => ?_
  cases r with
  | error e => exact ⟨Or.inl rfl, ht⟩
  | ok u =>
    simp only [lift, after_done, onOk_ok]
    refine obeys_after.mpr ((obeys_sendBuffered (hs.shared ht) url).mono ?_)
    rintro y m v ⟨rfl, hv⟩
    refine obeys_call (c := .await (.closeClient .request)) rfl rfl fun r w hw => ?_
    exact ⟨Or.inr rfl, shared_trans (shared_trans ht hv) hw⟩

/-- A response is being streamed; an exception ends the upstream request, or leaves it alone. -/
def Streamed : Except Exn HttpResponse → Sending → Prop
  | .ok _, m => m = .flying true
  | .error _, m => m = .ended ∨ m = .abandoned

/-- The `try` statement of `stream_response` before its handler. -/
lemma obeys_waitStreamed : (Coro.call .waitFirst fun (first : Except Exn Bool) =>
    (lift first : Forward Bool).after <| onOk fun
      | true => (suppress (awaiting .sendTask)).after fun _ =>
        (awaiting (.closeClient .request)).after <| onOk fun _ => raise clientDisconnected
      | false => (suppress (awaiting .disconnectTask)).after fun _ =>
        .call .sendResult fun (r : Except Exn HttpResponse) => lift r).Obeys Shared
    (slotRule metadata) (fun x m t => t = { s with limiter := t.limiter } ∧
      (Streamed x m ∨ ∃ e, x = .error e ∧ e.isException = true)) (.flying true) s := by
  refine obeys_call rfl rfl fun first t ht => ?_
  rcases first with e | (_ | _)
  · refine ⟨ht, ?_⟩
    cases he : e.isException with
    | true => exact Or.inr ⟨e, rfl, he⟩
    | false => exact Or.inl (Or.inr (if_pos ⟨rfl, he⟩))
  · refine obeys_call (c := .await .disconnectTask) rfl rfl fun _ v hv => ?_
    refine obeys_call (c := .sendResult) rfl rfl fun r w hw => ?_
    refine ⟨shared_trans (shared_trans ht hv) hw, Or.inl ?_⟩
    cases r with
    | ok r => exact rfl
    | error e => exact Or.inl rfl
  · refine obeys_call (c := .await .sendTask) rfl rfl fun _ v hv => ?_
    refine obeys_call (c := .await (.closeClient .request)) rfl rfl fun r w hw => ?_
    have hw := shared_trans (shared_trans ht hv) hw
    cases r with
    | ok u => exact ⟨hw, Or.inl (Or.inl rfl)⟩
    | error e => exact ⟨hw, Or.inl (Or.inl rfl)⟩

lemma obeys_sendStreamed (hs : Holding s) (url : String) :
    (sendStreamed url payload).Obeys Shared (slotRule metadata)
      (fun x m t => t = { s with limiter := t.limiter } ∧ Streamed x m) .before s := by
  refine ⟨⟨fun _ => ⟨hs, rfl⟩, nofun⟩, fun r t hr => ?_⟩
  have ht : t = { s with limiter := t.limiter } := hr.1
  cases r with
  | error e => exact ⟨ht, Or.inl rfl⟩
  | ok u =>
    simp only [lift, after_done, onOk_ok]
    refine obeys_after.mpr (obeys_waitStreamed.mono ?_)
    rintro x m v ⟨hv, hx⟩
    have hv := shared_trans ht hv
    cases x with
    | ok r =>
      refine ⟨hv, hx.resolve_right ?_⟩
      rintro ⟨_, ⟨⟩, -⟩
    | error e =>
      dsimp only
      split
      · -- the handler ends the upstream request
        refine obeys_call (c := .await .disconnectTask) rfl rfl fun _ w hw => ?_
        refine obeys_call (c := .await .sendTask) rfl rfl fun _ y hy => ?_
        refine obeys_call (c := .await (.closeClient .request)) rfl rfl fun r z hz => ?_
        have hz := shared_trans (shared_trans (shared_trans hv hw) hy) hz
        cases r with
        | ok u => exact ⟨hz, Or.inl rfl⟩
        | error e => exact ⟨hz, Or.inl rfl⟩
      · next hraised =>
        refine ⟨hv, hx.resolve_right ?_⟩
        rintro ⟨_, ⟨⟩, he⟩
        exact hraised he

/-! ### Giving it back -/

/-- The slot is held, unless `release_once` has been here. -/
def Owes (s : ForwardState) : Prop := s.admitted = true ∧ (s.released = false → s.freed = 0)

lemma Holding.owes (hs : Holding s) : Owes s := ⟨hs.1, fun _ => hs.2⟩

lemma Owes.shared (hs : Owes s) (ht : t = { s with limiter := t.limiter }) : Owes t := by
  rw [ht]
  exact hs

lemma landed_of_ne (hm : ∀ stream, m ≠ .flying stream) : Landed metadata m :=
  fun stream h => absurd h (hm stream)

/-- If the lock cannot be had, the slot is still held. -/
lemma obeys_limiterRelease (place : LockPlace) (hplace : ∀ m r,
      Sending.next m ⟨.await (.lock place), r⟩ = m) (hs : Holding s) (hm : Landed metadata m) :
    (limiterRelease place).Obeys Shared (slotRule metadata) (fun x m' t => m' = m ∧
      t.admitted = true ∧ t.released = s.released ∧ ∀ e, x = .error e → t.freed = 0) m s := by
  refine ⟨⟨nofun, fun _ => ⟨hs, hm⟩⟩, fun r t hr => ?_⟩
  have ht := hs.shared hr.1
  have hreleased : t.released = s.released := by rw [hr.1]
  cases r with
  | ok u => exact ⟨hplace m (.ok u), ht.1, hreleased, nofun⟩
  | error e => exact ⟨hplace m (.error e), ht.1, hreleased, fun _ _ => ht.2⟩

lemma obeys_releaseOnce (hs : Owes s) (hm : Landed metadata m) :
    (releaseOnce settings).Obeys Shared (slotRule metadata) (fun _ m' t => m' = m ∧ Owes t)
      m s := by
  show Obeys _ _ (if s.released then _ else _) _ _ _
  split
  · exact ⟨rfl, hs⟩
  · next hreleased =>
    have hheld : Holding { s with released := true } := ⟨hs.1, hs.2 (by simpa using hreleased)⟩
    refine obeys_after.mpr ((Obeys.of_wp ((apart_proxy (ExecutorTokens.makes_release _)).mono
      fun _ => Apart.free) wp_release).mono ?_)
    rintro x m' t ⟨rfl, es, ht, -⟩
    have hreleased : t.released = true := by rw [ht]
    have ht := hheld.shared ht
    cases x with
    | error e => exact ⟨rfl, ht.owes⟩
    | ok u =>
      refine (obeys_limiterRelease .releaseOnce (fun _ _ => rfl) ht hm).mono ?_
      rintro y m' v ⟨rfl, hadmitted, hv, -⟩
      exact ⟨rfl, hadmitted, fun h => by rw [hv, hreleased] at h; cases h⟩

/-- Where an exception is handled, the slot may be given back. -/
def Forwarded (metadata : Mapping) (x : Except Exn ForwardResponse) (m : Sending)
    (t : ForwardState) : Prop := Owes t ∧ ∀ e, x = .error e → Landed metadata m

lemma obeys_forwardTo {baseUrl : String} {id : Option String} (hs : Holding s) :
    (forwardTo settings policy path payload baseUrl id).Obeys Shared (slotRule metadata)
      (Forwarded metadata) .before s := by
  rw [forwardTo]
  split
  · refine obeys_after.mpr ((obeys_sendStreamed hs _).mono ?_)
    rintro x m t ⟨ht, hx⟩
    have ht := (hs.shared ht).owes
    cases x with
    | ok r => exact ⟨ht, fun _ h => by cases h⟩
    | error e => exact ⟨ht, fun _ _ => landed_of_ne (by rcases hx with rfl | rfl <;> simp)⟩
  · rw [forwardBufferedResponse, exceptHTTP, after_assoc]
    refine obeys_after.mpr ((obeys_exchangeBuffered hs _).mono ?_)
    rintro x m t ⟨hm, ht⟩
    have ht := (hs.shared ht).owes
    have hm : Landed metadata m := landed_of_ne (by rcases hm with rfl | rfl <;> simp)
    have hrelease : ∀ response, ((releaseOnce settings).after (onOk fun _ =>
        (pure response : Forward ForwardResponse))).Obeys Shared (slotRule metadata)
        (Forwarded metadata) m t := by
      intro response
      refine obeys_after.mpr ((obeys_releaseOnce ht hm).mono ?_)
      rintro y m' v ⟨rfl, hv⟩
      cases y with
      | ok u => exact ⟨hv, fun _ h => by cases h⟩
      | error e => exact ⟨hv, fun _ _ => hm⟩
    cases x with
    | ok r => exact hrelease _
    | error e =>
      dsimp only
      split
      · exact hrelease _
      · exact ⟨ht, fun _ _ => hm⟩

/-! ### The whole request -/

/-- Only for a stream there is a slot to give back after the response. -/
def Owing (metadata : Mapping) : Except Exn ForwardResponse → Sending → ForwardState → Prop
  | .ok response, _, t => isStream response → Owes t
  | .error _, m, t => Owes t ∧ Landed metadata m

lemma obeys_forwardAdmitted (hs : Holding s) :
    (forwardAdmitted settings policy path payload metadata).Obeys Shared (slotRule metadata)
      (Owing metadata) .before s := by
  refine obeys_after.mpr ((obeys_plain (plain_resolve _ _)
    (apart_proxy (ExecutorTokens.makes_resolve _ _))).mono ?_)
  rintro x m t ⟨rfl, ht⟩
  have ht := hs.shared ht
  have hbefore : Landed metadata .before := landed_of_ne (by simp)
  cases x with
  | error e => exact ⟨ht.owes, hbefore⟩
  | ok resolved =>
    obtain ⟨baseUrl, id⟩ := resolved
    have hset : Holding { t with backendInstanceId := id } := ht
    cases baseUrl with
    | none =>
      refine obeys_after.mpr ((obeys_limiterRelease .noBackend (fun _ _ => rfl) hset
        hbefore).mono ?_)
      rintro y m v ⟨rfl, hadmitted, -, hfreed⟩
      cases y with
      | ok u => exact fun h => by obtain ⟨r, hr⟩ := h; cases hr
      | error e => exact ⟨⟨hadmitted, fun _ => hfreed e rfl⟩, hbefore⟩
    | some baseUrl =>
      refine obeys_after.mpr ((obeys_forwardTo hset).mono ?_)
      rintro y m v ⟨hv, hm⟩
      cases y with
      | error e => exact ⟨hv, hm e rfl⟩
      | ok response =>
        rw [onOk_ok]
        cases htokens : tokenMetadata metadata with
        | error e => exact ⟨hv, fun _ _ => ⟨e, htokens⟩⟩
        | ok capped => exact fun _ => hv

/-- The handlers end with a response that is no stream, or raise. -/
lemma obeys_handleFailure {e : Exn} (hs : Owes s) (hm : Landed metadata m) :
    (handleFailure settings e).Obeys Shared (slotRule metadata)
      (fun x _ t => ∀ response, x = .ok response → isStream response → Owes t) m s := by
  have hrelease : ∀ k : Unit → Forward ForwardResponse, (∀ u, ∃ x, k u = .done x) →
      ((releaseOnce settings).after (onOk k)).Obeys Shared (slotRule metadata)
        (fun x _ t => ∀ response, x = .ok response → isStream response → Owes t) m s := by
    intro k hk
    refine obeys_after.mpr ((obeys_releaseOnce hs hm).mono ?_)
    rintro y m' t ⟨rfl, ht⟩
    cases y with
    | error e' => exact fun _ _ _ => ht
    | ok u =>
      obtain ⟨x, hx⟩ := hk u
      rw [onOk_ok, hx]
      exact fun _ _ _ => ht
  rw [handleFailure]
  split
  · exact hrelease _ fun _ => ⟨_, rfl⟩
  split
  · exact hrelease _ fun _ => ⟨_, rfl⟩
  · exact hrelease _ fun _ => ⟨_, rfl⟩

lemma obeys_forwardOpenaiPath (hs : s.admitted = false ∧ Held s) :
    (forwardOpenaiPath settings policy path payload metadata).Obeys Shared (slotRule metadata)
      (fun x _ t => ∀ response, x = .ok response → isStream response → Owes t) .before s := by
  refine obeys_after.mpr ((Obeys.of_wp (apart_acquire.mono fun _ => Apart.free)
    (wp_acquire hs)).mono ?_)
  rintro x m t ⟨rfl, es, -, ⟨rfl, hadmitted, ht⟩ | ⟨⟨e, rfl⟩, -⟩⟩
  · have hheld : Holding t := ⟨hadmitted, ht.2⟩
    refine obeys_after.mpr ((obeys_forwardAdmitted hheld).mono ?_)
    intro y m v hv
    cases y with
    | ok response => exact fun _ h => by cases h; exact hv
    | error e => exact obeys_handleFailure hv.1 hv.2
  · have hother : ∀ r, ¬isStream ⟨.error r, false⟩ := by
      rintro r ⟨_, hr⟩
      cases hr
    dsimp only
    split
    · exact fun _ h hstream => by cases h; exact absurd hstream (hother _)
    split
    · exact fun _ h hstream => by cases h; exact absurd hstream (hother _)
    · exact nofun

/-- The response is closed before the slot is given back. -/
lemma obeys_responseBody {n : ℕ} (hs : Owes s) :
    (responseBody settings n).Obeys Shared (slotRule metadata) (fun _ _ _ => True) m s := by
  refine obeys_after.mpr ((obeys_plain (plain_chunks n) (apart_chunks n)).mono ?_)
  rintro x _ t ⟨-, ht⟩
  rw [after_assoc]
  refine obeys_call (c := .await .closeResponse) rfl rfl fun r v hv => ?_
  cases r with
  | error e => trivial
  | ok u =>
    refine obeys_call (c := .await (.closeClient .body)) rfl rfl fun r w hw => ?_
    cases r with
    | error e => trivial
    | ok u =>
      have howes := ((hs.shared ht).shared hv).shared hw
      refine obeys_after.mpr ((obeys_releaseOnce howes (landed_of_ne ?_)).mono fun _ _ _ _ => ?_)
      · exact nofun
      · trivial

/-- **A request** sends once and while it holds its slot, and gives back only what it holds and
after its upstream request. -/
theorem obeys_request (limiter : ModelLimiter) :
    (request settings policy path payload metadata).Obeys Shared (slotRule metadata)
      (fun _ _ _ => True) .before (start limiter) := by
  refine obeys_after.mpr ((obeys_forwardOpenaiPath ⟨rfl, rfl, rfl⟩).mono ?_)
  intro x m t ht
  cases x with
  | error e => trivial
  | ok response =>
    obtain ⟨body, capped⟩ := response
    cases body with
    | stream r =>
      have ht := ht _ rfl ⟨r, rfl⟩
      refine obeys_call (c := .iterate) rfl rfl fun taken v hv => ?_
      cases taken with
      | none => trivial
      | some n => exact obeys_responseBody (ht.shared hv)
    | _ => trivial

lemma sending_append (es : List ForwardEvent) (e : ForwardEvent) :
    sending (es ++ [e]) = (sending es).next e := List.foldl_concat ..

lemma Sending.next_before {e : ForwardEvent} (h : m.next e = .before) :
    m = .before ∧ sends e.1 = false := by
  obtain ⟨c, x⟩ := e
  cases c with
  | await a =>
    cases a with
    | startSend url body stream => cases x <;> cases h
    | sendTask => cases h
    | closeResponse =>
      cases x with
      | ok u => cases h
      | error e => exact ⟨h, rfl⟩
    | _ => exact ⟨h, rfl⟩
  | waitFirst =>
    cases x with
    | ok first => exact ⟨h, rfl⟩
    | error e =>
      rw [Sending.next] at h
      split at h
      · cases h
      · exact ⟨h, rfl⟩
  | sendDone =>
    cases x with
    | true => cases h
    | false => exact ⟨h, rfl⟩
  | sendResult =>
    cases x with
    | error e => cases h
    | ok r =>
      rw [Sending.next] at h
      split at h
      · next hm =>
        rw [hm] at h
        cases h
      · cases h
  | _ => exact ⟨h, rfl⟩

/-- Nothing has been sent before the upstream request. -/
lemma sends_of_before {es : List ForwardEvent} (h : sending es = .before) :
    ∀ e ∈ es, sends e.1 = false := by
  induction es using List.reverseRecOn with
  | nil => simp
  | append_singleton es e ih =>
    rw [sending_append] at h
    obtain ⟨hes, he⟩ := Sending.next_before h
    rw [List.forall_mem_append]
    exact ⟨ih hes, by simpa using he⟩

theorem sends_once {limiter : ModelLimiter} {es fs : List ForwardEvent} {e : ForwardEvent}
    {x : Except Exn Unit}
    (hr : (request settings policy path payload metadata).Runs Shared (start limiter)
      (es ++ e :: fs) x t) (he : sends e.1 = true) : ∀ e' ∈ es, sends e'.1 = false := by
  obtain ⟨v, hv⟩ := hr.calling
  exact sends_of_before (((obeys_request limiter).allowed hv).1 he).2

example : (samplePlay releasedOk).1.any (fun e => sends e.1) = true ∧
    sending (samplePlay releasedOk).1 = .ended := by decide +kernel

/-! ### The steps of a request -/

/-- The request `r`, whose upstream request stands at `m`, is in step with `u` in `v`. -/
structure InStep (r : ℕ) (m : Sending) (v : ForwardState) (u : UpstreamState) : Prop where
  limiter : u.limits.limiter = some v.limiter
  holding : Holding v → u.limits.requests.get? r = some .holding
  sent : r ∈ u.sent → m.inFlight = true

variable {r : ℕ} {es : List ForwardEvent} {u u' : UpstreamState} {limiter : ModelLimiter}

/-- **Others**: their steps keep a request in step. -/
theorem InStep.others {a : UpstreamStep} {l : ModelLimiter} (hu : InStep r m v u)
    (h : upstreamStep u a u') (hsend : a ≠ .send r) (hrelease : a ≠ .limiter (.release r))
    (hl : u'.limits.limiter = some l) : InStep r m { v with limiter := l } u' := by
  refine ⟨hl, fun hv => ?_, fun hr => hu.sent ?_⟩
  · have hheld := hu.holding hv
    cases a with
    | limiter a =>
      obtain ⟨-, limits, hstep, rfl⟩ := h
      exact holding_kept hstep hheld fun ha => hrelease (by rw [ha])
    | send x =>
      obtain ⟨-, -, rfl⟩ := h
      exact hheld
    | post =>
      obtain ⟨-, rfl⟩ := h
      exact hheld
    | finish _ | postDone =>
      cases h
      exact hheld
  · cases a with
    | limiter a =>
      obtain ⟨-, limits, -, rfl⟩ := h
      exact hr
    | send x =>
      obtain ⟨-, -, rfl⟩ := h
      rcases Finset.mem_insert.mp hr with rfl | hr
      · exact absurd rfl hsend
      · exact hr
    | post =>
      obtain ⟨-, rfl⟩ := h
      exact hr
    | finish x =>
      cases h
      exact Finset.mem_of_mem_erase hr
    | postDone =>
      cases h
      exact hr

/-- **Answers** that do not end the upstream request are no steps. -/
theorem InStep.answered (hu : InStep r m v u) {e : ForwardEvent}
    (he : m.inFlight = true → (m.next e).inFlight = true) : InStep r (m.next e) v u :=
  { hu with sent := fun hr => he (hu.sent hr) }

/-- **Sending**: where a request that is in step starts its upstream request, the step `send` is
possible, and the request stays in step. -/
theorem send_possible {url : String} {body : Mapping} {stream : Bool}
    (hc : (request settings policy path payload metadata).Calling Shared (start limiter) es
      (.await (.startSend url body stream)) v) (hu : InStep r (sending es) v u) :
    ∃ u', upstreamStep u (.send r) u' ∧
      InStep r (sending (es ++ [⟨.await (.startSend url body stream), .ok ()⟩])) v u' := by
  obtain ⟨hheld, hbefore⟩ := ((obeys_request limiter).allowed hc).1 rfl
  have hbefore : sending es = .before := hbefore
  have hfirst : r ∉ u.sent := by
    intro hr
    have hflying := hu.sent hr
    rw [hbefore] at hflying
    cases hflying
  refine ⟨_, ⟨hu.holding hheld, hfirst, rfl⟩, hu.limiter, fun _ => hu.holding hheld, fun _ => ?_⟩
  rw [sending_append]
  rfl

/-- **The end**: whatever ends the upstream request of a request that is in step, the step `finish`
is possible, and the request stays in step. -/
theorem finish_possible (hu : InStep r m v u) (e : ForwardEvent) :
    ∃ u', upstreamStep u (.finish r) u' ∧ InStep r (m.next e) v u' :=
  ⟨_, rfl, hu.limiter, hu.holding, fun hr => absurd hr (Finset.notMem_erase r _)⟩

/-- **Giving back**: where a request that is in step has got the lock to give its slot back, the
step `release` is possible, and the request stays in step. Its upstream request is over, unless the
handler of a stream was cancelled while it waited, or the token counts cannot be read. -/
theorem release_possible {place : LockPlace} (hplace : place ≠ .acquire)
    (hc : (request settings policy path payload metadata).Calling Shared (start limiter) es
      (.await (.lock place)) v) (ht : t = { v with limiter := t.limiter })
    (hu : InStep r (sending es) t u) :
    (r ∈ u.sent → sending es = .abandoned ∨ ∃ e, tokenMetadata metadata = .error e) ∧
    ∃ u', upstreamStep u (.limiter (.release r)) u' ∧
      InStep r (sending (es ++ [⟨.await (.lock place), .ok ()⟩]))
        { t with limiter := t.limiter.release, freed := t.freed + 1 } u' := by
  have hgives : givesBack (.await (.lock place)) = true := by
    cases place with
    | acquire => exact absurd rfl hplace
    | _ => rfl
  obtain ⟨hv, hlanded⟩ := ((obeys_request limiter).allowed hc).2 hgives
  have hsame : sending (es ++ [⟨.await (.lock place), .ok ()⟩]) = sending es := by
    rw [sending_append]
    rfl
  constructor
  · intro hr
    have hflying := hu.sent hr
    cases hm : sending es with
    | before | ended =>
      rw [hm] at hflying
      cases hflying
    | flying stream => exact Or.inr (hlanded stream hm)
    | abandoned => exact Or.inl rfl
  · refine ⟨_, ⟨nofun, _, ⟨hu.holding (hv.shared ht), _, hu.limiter, rfl⟩, rfl⟩, rfl, fun h => ?_,
      ?_⟩
    · exact absurd h.2 (Nat.succ_ne_zero _)
    · rw [hsame]
      exact hu.sent

/-! ### The executor -/

section Execution

open Executor ExecutorTokens

variable {policies : PolicyRegistry} {task : StoredTask} {execution now : ExecutorState}
  {posted : Bool} {E : (c : ProxyCall) → c.Answer → ExecutorState → ExecutorState → Prop}

def posts : ProxyCall → Bool
  | .postUpstream _ _ => true
  | _ => false

/-- One post at most. -/
def postRule : Rule ExecutorState ProxyCall ProxyCall.Answer Bool where
  allows c posted _ := posts c = true → posted = false
  next posted e := posted || posts e.1

lemma postsNothing_free {c : ProxyCall} (h : PostsNothing c) : postRule.Free c := by
  have hc : posts c = false := by
    cases c with
    | postUpstream url payload => exact h.elim
    | _ => rfl
  refine ⟨fun _ _ h => absurd (hc.symm.trans h) nofun, fun posted r => ?_⟩
  show (posted || posts c) = posted
  rw [hc, Bool.or_false]

lemma obeys_bookkeeping {p : Proxy ExecutorState α} (hp : p.Makes Bookkeeping) :
    p.Obeys E postRule (fun _ _ _ => True) posted execution :=
  (Obeys.of_makes (hp.mono fun _ h => postsNothing_free h.postsNothing)).mono
    fun _ _ _ _ => trivial

/-- The post is the first call. -/
lemma obeys_postUpstream (baseUrl : String) (id : Option String) :
    (postUpstream settings policy task baseUrl id).Obeys E postRule (fun _ _ _ => True) false
      execution := by
  refine ⟨fun _ => rfl, fun r t _ => ?_⟩
  refine (Obeys.of_makes ?_).mono fun _ _ _ _ => trivial
  refine makes_ensuring (makes_exceptHTTP (p := lift r) trivial (fun e => ?_) fun _ => trivial) ?_
  · exact makes_bind ((makes_recordTaskFailureAndReconcile _ _).mono fun _ h =>
      postsNothing_free h.postsNothing) fun _ => trivial
  · exact (makes_release id).mono fun _ => postsNothing_free

lemma obeys_executeStoredTask :
    (executeStoredTask settings policies task).Obeys E postRule (fun _ _ _ => True) false
      execution := by
  unfold executeStoredTask
  split
  · exact obeys_bookkeeping (makes_recordTaskFailureAndReconcile _ _)
  split
  · exact obeys_bookkeeping (makes_recordTaskFailureAndReconcile _ _)
  refine obeys_after.mpr ((Obeys.of_makes ((makes_resolve _ _).mono fun _ =>
    postsNothing_free)).mono ?_)
  rintro x _ t rfl
  rcases x with e | ⟨_ | baseUrl, id⟩
  · trivial
  · exact obeys_bookkeeping (makes_recordTaskFailureAndReconcile _ _)
  · refine obeys_after.mpr ((obeys_postUpstream baseUrl id).mono ?_)
    rintro y posted v -
    rcases y with e | (_ | response)
    · trivial
    · trivial
    · exact obeys_bookkeeping (makes_recordResponse _ _)

/-- **The execution of a task** posts once at most. -/
theorem obeys_processTask :
    (processTask settings policies task).Obeys E postRule (fun _ _ _ => True) false execution := by
  refine obeys_after.mpr ((Obeys.of_makes (p := lift _) trivial).mono ?_)
  rintro x _ t rfl
  cases x with
  | error e => trivial
  | ok seconds =>
    refine obeys_after.mpr (obeys_executeStoredTask.mono ?_)
    rintro y posted v -
    cases y with
    | ok _ => trivial
    | error e =>
      dsimp only
      split
      · exact obeys_bookkeeping (makes_recordTaskFailureAndReconcile _ _)
      · trivial

lemma foldl_posted (es : List (Event ProxyCall ProxyCall.Answer)) (posted : Bool) :
    es.foldl postRule.next posted = (posted || es.any fun e => posts e.1) := by
  induction es generalizing posted with
  | nil => exact (Bool.or_false posted).symm
  | cons e es ih =>
    rw [List.foldl_cons, ih, List.any_cons, ← Bool.or_assoc]
    rfl

/-- **Posting**: where the execution of a task posts, the step `post` is possible, as the executor
has no other request in flight than those of this execution. -/
theorem post_possible {es : List (Event ProxyCall ProxyCall.Answer)} {url : String} {body : Mapping}
    (hc : (processTask settings policies task).Calling E execution es (.postUpstream url body) now)
    (hu : u.posted = true → es.any (fun e => posts e.1) = true) :
    upstreamStep u .post { u with posted := true } := by
  have hnone := obeys_processTask.allowed hc rfl
  rw [foldl_posted, Bool.false_or] at hnone
  exact ⟨Bool.eq_false_iff.mpr fun h => absurd (hnone.symm.trans (hu h)) nofun, rfl⟩

end Execution

end Orchestrator.InFlight
