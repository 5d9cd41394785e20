import Orchestrator.Limiter

/-!
The two counters of a limiter and the requests they count.

What a step does to the counters and to the numbers of requests is said once, by `TallyStep`; the
results about the bounds of the counters, about lost queue places and about free slots are
invariants of it.
-/

namespace Orchestrator.LimiterSystem

open Lib ModelLimiter

/-! ### What a step does to the numbers -/

structure Tally where
  waiting : ℕ
  notified : ℕ
  holding : ℕ

/-- The changes of the first checks of `acquire`. -/
inductive Enters : ModelLimiter → Tally → ModelLimiter → Tally → Prop
  | granted {l w k h} (free : l.activeRequests < l.maxActiveRequests) :
    Enters l ⟨w, k, h⟩ { l with activeRequests := l.activeRequests + 1 } ⟨w, k, h + 1⟩
  | full {l n} (busy : l.maxActiveRequests ≤ l.activeRequests) : Enters l n l n
  | queued {l w k h} (busy : l.maxActiveRequests ≤ l.activeRequests)
      (room : l.queuedRequests < l.maxQueuedRequests) :
    Enters l ⟨w, k, h⟩ { l with queuedRequests := l.queuedRequests + 1 } ⟨w + 1, k, h⟩

/-- The changes of a step to the limiter and to the numbers of its requests. -/
inductive TallyStep :
    Option ModelLimiter → Tally → LimiterStep → Option ModelLimiter → Tally → Prop
  | arrive {o r policy n l' n'} (enters : Enters (getOrCreate o policy) n l' n') :
    TallyStep o n (.arrive r policy) (some l') n'
  | block {o r policy n} : TallyStep o n (.block r policy) (some (getOrCreate o policy)) n
  | enter {l r n l' n'} (enters : Enters l n l' n') : TallyStep (some l) n (.enter r) (some l') n'
  | giveUp {o r n} : TallyStep o n (.giveUp r) o n
  | again {l r w k h} (busy : l.maxActiveRequests ≤ l.activeRequests) :
    TallyStep (some l) ⟨w, k + 1, h⟩ (.grant r) (some l) ⟨w + 1, k, h⟩
  | woken {l r w k h} (free : l.activeRequests < l.maxActiveRequests) :
    TallyStep (some l) ⟨w, k + 1, h⟩ (.grant r)
      (some { l with
        queuedRequests := l.queuedRequests - 1
        activeRequests := l.activeRequests + 1 }) ⟨w, k, h + 1⟩
  | expire {l r w k h n} (left : w + k = n + 1) :
    TallyStep (some l) ⟨w, k, h⟩ (.expire r) (some l.expire) ⟨0, n, h⟩
  | cancel {o r w k h w' k'} (left : w + k = w' + k' + 1) (fewer : w' ≤ w) :
    TallyStep o ⟨w, k, h⟩ (.cancel r) o ⟨w', k', h⟩
  | release {l r w k h} :
    TallyStep (some l) ⟨w, k, h + 1⟩ (.release r) (some l.release) ⟨0, w + k, h⟩

def tally (requests : Dict ℕ Phase) : Tally :=
  ⟨number .waiting requests, number .notified requests, number .holding requests⟩

variable {s s' : LimiterState} {a : LimiterStep} {requests : Dict ℕ Phase} {r : ℕ}

lemma tally_ext {n : Tally} (hw : number .waiting requests = n.waiting)
    (hk : number .notified requests = n.notified) (hh : number .holding requests = n.holding) :
    tally requests = n := by
  obtain ⟨w, k, h⟩ := n
  rw [tally]
  congr 1

lemma tally_set (h : Outside requests r) (new : Phase) :
    tally (requests.set r new) =
      ⟨number .waiting requests + if new = .waiting then 1 else 0,
        number .notified requests + if new = .notified then 1 else 0,
        number .holding requests + if new = .holding then 1 else 0⟩ :=
  tally_ext (number_set_outside h new nofun) (number_set_outside h new nofun)
    (number_set_outside h new nofun)

lemma tally_gone (h : Outside requests r) : tally (requests.erase r) = tally requests :=
  tally_ext (number_erase_outside h nofun) (number_erase_outside h nofun)
    (number_erase_outside h nofun)

lemma entered_tally (h : Outside requests r) (l : ModelLimiter) :
    Enters l (tally requests) l.enter.2 (tally (entered l requests r).requests) := by
  rw [entered]
  rcases enter_cases l with ⟨free, he⟩ | ⟨busy, he⟩ | ⟨busy, room, he⟩
  · have ht : tally (requests.set r .holding) = ⟨number .waiting requests,
        number .notified requests, number .holding requests + 1⟩ := tally_set h .holding
    simp only [he, ht]
    exact .granted free
  · simp only [he, tally_gone h]
    exact .full busy
  · have ht : tally (requests.set r .waiting) = ⟨number .waiting requests + 1,
        number .notified requests, number .holding requests⟩ := tally_set h .waiting
    simp only [he, ht]
    exact .queued busy room

lemma tally_notifyAll : tally (notifyAll requests) =
    ⟨0, (tally requests).waiting + (tally requests).notified, (tally requests).holding⟩ :=
  tally_ext number_waiting_notifyAll number_notified_notifyAll number_holding_notifyAll

/-- **Every step of the limiter is a step of the numbers.** -/
theorem step_tally (h : limiterStep s a s') :
    TallyStep s.limiter (tally s.requests) a s'.limiter (tally s'.requests) := by
  cases a with
  | arrive r policy =>
    obtain ⟨hr, rfl⟩ := h
    exact .arrive (entered_tally (Or.inl hr) _)
  | block r policy =>
    obtain ⟨hr, rfl⟩ := h
    have ht : tally (s.requests.set r .blocked) = tally s.requests := tally_set (Or.inl hr) _
    rw [ht]
    exact .block
  | enter r =>
    obtain ⟨hr, l, hl, rfl⟩ := h
    rw [hl]
    exact .enter (entered_tally (Or.inr hr) l)
  | giveUp r =>
    obtain ⟨hr, rfl⟩ := h
    rw [tally_gone (Or.inr hr)]
    exact .giveUp
  | grant r =>
    obtain ⟨hr, l, hl, rfl⟩ := h
    have hn := number_set hr
    obtain ⟨k, hk⟩ : ∃ k, number .notified s.requests = k + 1 :=
      ⟨_, (Nat.succ_pred_eq_of_pos (number_pos hr)).symm⟩
    have ht : tally s.requests = ⟨number .waiting s.requests, k + 1, number .holding s.requests⟩ :=
      tally_ext rfl hk rfl
    rcases grant_cases l with ⟨busy, hg⟩ | ⟨free, hg⟩
    · have ht' : tally (s.requests.set r .waiting) =
          ⟨number .waiting s.requests + 1, k, number .holding s.requests⟩ :=
        tally_ext (by simpa using hn .waiting .waiting) (by simpa [hk] using hn .waiting .notified)
          (by simpa using hn .waiting .holding)
      simp only [hg, hl, ht, ht']
      exact .again busy
    · have ht' : tally (s.requests.set r .holding) =
          ⟨number .waiting s.requests, k, number .holding s.requests + 1⟩ :=
        tally_ext (by simpa using hn .holding .waiting) (by simpa [hk] using hn .holding .notified)
          (by simpa using hn .holding .holding)
      simp only [hg, hl, ht, ht']
      exact .woken free
  | expire r =>
    obtain ⟨⟨phase, hr, hphase⟩, l, hl, rfl⟩ := h
    have hn := number_erase hr
    rw [tally_notifyAll, hl]
    rcases hphase with rfl | rfl
    · have hw := hn .waiting
      have hk := hn .notified
      have hh := hn .holding
      simp only [reduceCtorEq, if_true, if_false, Nat.add_zero] at hw hk hh
      simp only [tally, hh]
      exact .expire (by omega)
    · have hw := hn .waiting
      have hk := hn .notified
      have hh := hn .holding
      simp only [reduceCtorEq, if_true, if_false, Nat.add_zero] at hw hk hh
      simp only [tally, hh]
      exact .expire (by omega)
  | cancel r =>
    obtain ⟨⟨phase, hr, hphase⟩, rfl⟩ := h
    have hn := number_erase hr
    have hw := hn .waiting
    have hk := hn .notified
    have hh := hn .holding
    rcases hphase with rfl | rfl
    · simp only [reduceCtorEq, if_true, if_false, Nat.add_zero] at hw hk hh
      simp only [tally, hh]
      exact .cancel (by omega) (by omega)
    · simp only [reduceCtorEq, if_true, if_false, Nat.add_zero] at hw hk hh
      simp only [tally, hh]
      exact .cancel (by omega) (by omega)
  | release r =>
    obtain ⟨hr, l, hl, rfl⟩ := h
    have hn := number_erase hr
    have hw := hn .waiting
    have hk := hn .notified
    have hh := hn .holding
    simp only [reduceCtorEq, if_true, if_false, Nat.add_zero] at hw hk hh
    rw [tally_notifyAll, hl]
    simp only [tally, hw, hk, ← hh]
    exact .release

/-! ### The counters -/

/-- The counters count the requests; the queued counter may count more. -/
structure Counted (o : Option ModelLimiter) (n : Tally) : Prop where
  absent : o = none → n = ⟨0, 0, 0⟩
  active : ∀ l, o = some l → l.activeRequests = n.holding
  queued : ∀ l, o = some l → (n.waiting + n.notified : ℤ) ≤ l.queuedRequests

lemma tally_empty : tally Dict.empty = ⟨0, 0, 0⟩ := rfl

lemma Counted.init : Counted none (tally Dict.empty) :=
  ⟨fun _ => tally_empty, nofun, nofun⟩

lemma Counted.create {o : Option ModelLimiter} {n : Tally} (hc : Counted o n)
    (policy : ModelPolicy) : Counted (some (getOrCreate o policy)) n := by
  refine ⟨nofun, ?_, ?_⟩
  · rintro _ ⟨⟩
    cases o with
    | none => simp [getOrCreate, new, hc.absent rfl]
    | some l => exact hc.active l rfl
  · rintro _ ⟨⟩
    cases o with
    | none => simp [getOrCreate, new, hc.absent rfl]
    | some l => exact hc.queued l rfl

lemma Counted.enters {l l' : ModelLimiter} {n n' : Tally} (hc : Counted (some l) n)
    (h : Enters l n l' n') : Counted (some l') n' := by
  cases h with
  | @granted w k h free =>
    have ha : l.activeRequests = h := hc.active l rfl
    refine ⟨nofun, ?_, ?_⟩
    · rintro _ ⟨⟩
      push_cast
      omega
    · rintro _ ⟨⟩
      exact hc.queued l rfl
  | full => exact hc
  | @queued w k h busy room =>
    have hq := hc.queued l rfl
    refine ⟨nofun, ?_, ?_⟩
    · rintro _ ⟨⟩
      exact hc.active l rfl
    · rintro _ ⟨⟩
      push_cast at hq ⊢
      omega

lemma Counted.step {o o' : Option ModelLimiter} {n n' : Tally} (h : TallyStep o n a o' n')
    (hc : Counted o n) : Counted o' n' := by
  have ⟨hnone, hactive, hqueued⟩ := hc
  cases h with
  | arrive enters => exact (Counted.create hc _).enters enters
  | block => exact Counted.create hc _
  | enter enters => exact Counted.enters hc enters
  | giveUp => exact ⟨hnone, hactive, hqueued⟩
  | @again l r w k h busy =>
    have hq := hqueued l rfl
    refine ⟨nofun, hactive, ?_⟩
    rintro _ ⟨⟩
    push_cast at hq ⊢
    omega
  | @woken l r w k h free =>
    have ha : l.activeRequests = h := hactive l rfl
    have hq := hqueued l rfl
    refine ⟨nofun, ?_, ?_⟩
    · rintro _ ⟨⟩
      push_cast
      omega
    · rintro _ ⟨⟩
      push_cast at hq ⊢
      omega
  | @expire l r w k h n left =>
    have hq := hqueued l rfl
    refine ⟨nofun, ?_, ?_⟩
    · rintro _ ⟨⟩
      exact hactive l rfl
    · rintro _ ⟨⟩
      simp only [expire]
      push_cast at hq ⊢
      omega
  | @cancel o r w k h w' k' left fewer =>
    refine ⟨fun ho => ?_, hactive, fun l hl => ?_⟩
    · have hn := hnone ho
      simp only [Tally.mk.injEq] at hn
      omega
    · have hq := hqueued l hl
      simp only at hq ⊢
      omega
  | @release l r w k h =>
    have ha := hactive l rfl
    have hq := hqueued l rfl
    refine ⟨nofun, ?_, ?_⟩
    · rintro _ ⟨⟩
      simp only [ModelLimiter.release]
      push_cast at ha ⊢
      omega
    · rintro _ ⟨⟩
      simp only [ModelLimiter.release]
      push_cast at hq ⊢
      omega

/-- **A rule for invariants** of a limiter: an invariant of the numbers, given that the counters
count them. -/
theorem reachable_tally {P : LimiterState → LimiterStep → Prop}
    {I : Option ModelLimiter → Tally → Prop} (hinit : I none ⟨0, 0, 0⟩)
    (hstep : ∀ s a o' n', P s a → Counted s.limiter (tally s.requests) →
      TallyStep s.limiter (tally s.requests) a o' n' → I s.limiter (tally s.requests) → I o' n')
    (h : limiterLts.Reachable P s) :
    Counted s.limiter (tally s.requests) ∧ I s.limiter (tally s.requests) := by
  refine h.invariant
    (I := fun s => Counted s.limiter (tally s.requests) ∧ I s.limiter (tally s.requests)) ?_ ?_
  · rintro _ rfl
    exact ⟨Counted.init, hinit⟩
  · intro s a s' hs hP hl
    have ht := step_tally hl
    exact ⟨hs.1.step ht, hstep s a _ _ hP hs.1 ht hs.2⟩

/-! ### The limits of the policy -/

/-- An arriving request brings the limits of the policy, lowered by its own hints. -/
def FromPolicy (policy : ModelPolicy) (_ : LimiterState) : LimiterStep → Prop
  | .arrive _ lowered | .block _ lowered =>
    ∃ hints, applyOrchestrationOverrides policy hints = .ok lowered
  | _ => True

/-- The limits and the counters are within those of the policy. -/
def Within (policy : ModelPolicy) (o : Option ModelLimiter) (_ : Tally) : Prop :=
  ∀ l, o = some l → l.maxActiveRequests ≤ policy.maxActiveRequests ∧
    l.maxQueuedRequests ≤ policy.maxQueuedRequests ∧
    l.activeRequests ≤ policy.maxActiveRequests ∧ l.queuedRequests ≤ policy.maxQueuedRequests

lemma Within.create {policy lowered : ModelPolicy} (ha : 0 ≤ policy.maxActiveRequests)
    (hq : 0 ≤ policy.maxQueuedRequests)
    (hP : ∃ hints, applyOrchestrationOverrides policy hints = .ok lowered)
    {o : Option ModelLimiter} {n : Tally} (hw : Within policy o n) :
    Within policy (some (getOrCreate o lowered)) n := by
  obtain ⟨hints, hints_ok⟩ := hP
  have hlow := applyOrchestrationOverrides_lowers hints_ok
  rintro _ ⟨⟩
  cases o with
  | none => exact ⟨hlow.maxActiveRequests, hlow.maxQueuedRequests, ha, hq⟩
  | some l =>
    obtain ⟨-, -, hactive, hqueued⟩ := hw l rfl
    exact ⟨hlow.maxActiveRequests, hlow.maxQueuedRequests, hactive, hqueued⟩

lemma Within.enters {policy : ModelPolicy} {l l' : ModelLimiter} {n n' : Tally}
    (h : Enters l n l' n') (hw : Within policy (some l) n) : Within policy (some l') n' := by
  rintro _ ⟨⟩
  obtain ⟨h1, h2, h3, h4⟩ := hw l rfl
  cases h with
  | granted free => exact ⟨h1, h2, by simp only; omega, h4⟩
  | full => exact ⟨h1, h2, h3, h4⟩
  | queued busy room => exact ⟨h1, h2, h3, by simp only; omega⟩

lemma Within.step {policy : ModelPolicy} (ha : 0 ≤ policy.maxActiveRequests)
    (hq : 0 ≤ policy.maxQueuedRequests) {o o' : Option ModelLimiter} {n n' : Tally}
    (hP : FromPolicy policy s a) (h : TallyStep o n a o' n') (hw : Within policy o n) :
    Within policy o' n' := by
  rintro l' rfl
  cases h with
  | arrive enters => exact (Within.create ha hq hP hw).enters enters _ rfl
  | block => exact Within.create ha hq hP hw _ rfl
  | enter enters => exact hw.enters enters _ rfl
  | giveUp => exact hw _ rfl
  | again => exact hw _ rfl
  | @woken l r w k h free =>
    obtain ⟨h1, h2, -, h4⟩ := hw l rfl
    exact ⟨h1, h2, by simp only; omega, by simp only; omega⟩
  | @expire l =>
    obtain ⟨h1, h2, h3, h4⟩ := hw l rfl
    exact ⟨h1, h2, h3, by simp only [expire]; omega⟩
  | cancel => exact hw _ rfl
  | @release l =>
    obtain ⟨h1, h2, h3, h4⟩ := hw l rfl
    exact ⟨h1, h2, by simp only [ModelLimiter.release]; omega, h4⟩

lemma reachable_within {policy : ModelPolicy} (ha : 0 ≤ policy.maxActiveRequests)
    (hq : 0 ≤ policy.maxQueuedRequests) (h : limiterLts.Reachable (FromPolicy policy) s) :
    Counted s.limiter (tally s.requests) ∧ Within policy s.limiter (tally s.requests) :=
  reachable_tally nofun (fun _ _ _ _ hP _ ht hw => hw.step ha hq hP ht) h

lemma holders_le {policy : ModelPolicy} (ha : 0 ≤ policy.maxActiveRequests)
    (hq : 0 ≤ policy.maxQueuedRequests) (h : limiterLts.Reachable (FromPolicy policy) s) :
    (holders s.requests : ℤ) ≤ policy.maxActiveRequests := by
  obtain ⟨hc, hw⟩ := reachable_within ha hq h
  have hholders : holders s.requests = (tally s.requests).holding := rfl
  cases hl : s.limiter with
  | none =>
    rw [hholders, hc.absent hl]
    exact ha
  | some l =>
    have hactive := hc.active l hl
    have hbound := (hw l hl).2.2.1
    omega

/-- **The policy bounds the limiter.** Whatever hints the requests of a model bring, and in every
order of arrivals, grants, time-outs, cancellations and releases, at most `max_active_requests` of
the policy hold a slot, and the counters stay between zero and the limits of the policy. -/
theorem within_policy {policy : ModelPolicy} (ha : 0 ≤ policy.maxActiveRequests)
    (hq : 0 ≤ policy.maxQueuedRequests) (h : limiterLts.Reachable (FromPolicy policy) s) :
    (holders s.requests : ℤ) ≤ policy.maxActiveRequests ∧
      ∀ l, s.limiter = some l →
        (0 ≤ l.activeRequests ∧ l.activeRequests ≤ policy.maxActiveRequests) ∧
        0 ≤ l.queuedRequests ∧ l.queuedRequests ≤ policy.maxQueuedRequests := by
  obtain ⟨hc, hw⟩ := reachable_within ha hq h
  refine ⟨holders_le ha hq h, fun l hl => ?_⟩
  have hactive := hc.active l hl
  have hqueued := hc.queued l hl
  obtain ⟨-, -, h3, h4⟩ := hw l hl
  exact ⟨⟨by omega, h3⟩, by omega, h4⟩

def samplePolicy : ModelPolicy :=
  ⟨"local-model", "local-model", [], 2, 8, 60, 1024, 8192, 2048, 8192, 4, "clamp"⟩

/-- The policy, lowered by the hint `max_parallel: 1`. -/
def sampleLowered : ModelPolicy := { samplePolicy with maxActiveRequests := 1 }

lemma sample_lowered :
    applyOrchestrationOverrides samplePolicy (.obj [("max_parallel", .int 1)]) =
      .ok sampleLowered := by
  rfl

/-- Two requests that ask for one slot have arrived: the first holds it, the second waits. -/
def sampleWaiting : LimiterState where
  limiter := some ⟨"local-model", 1, 8, 60, 1, 1⟩
  requests := ⟨[(0, .holding), (1, .waiting)], by decide⟩

lemma sample_waiting {P : LimiterState → LimiterStep → Prop}
    (harrive : ∀ s r, s.requests.count (· = .waiting) = 0 → P s (.arrive r sampleLowered)) :
    limiterLts.Reachable P sampleWaiting := by
  have h0 := (Lts.Reachable.init (T := limiterLts) (P := P) rfl).run
    (Lts.Run.single (harrive _ 0 rfl) ⟨rfl, rfl⟩)
  exact h0.run (Lts.Run.single (harrive _ 1 rfl) ⟨rfl, rfl⟩)

theorem within_policy_sample :
    (holders sampleWaiting.requests : ℤ) ≤ samplePolicy.maxActiveRequests ∧
      ∀ l, sampleWaiting.limiter = some l →
        (0 ≤ l.activeRequests ∧ l.activeRequests ≤ samplePolicy.maxActiveRequests) ∧
        0 ≤ l.queuedRequests ∧ l.queuedRequests ≤ samplePolicy.maxQueuedRequests :=
  within_policy (by decide) (by decide)
    (sample_waiting fun _ _ _ => ⟨_, sample_lowered⟩)

/-! ### Lost queue places -/

/-- No request is cancelled while it waits inside `acquire`. -/
def NoWaitCancelled (_ : LimiterState) : LimiterStep → Prop
  | .cancel _ => False
  | _ => True

/-- The queued counter counts the waiting requests exactly. -/
def Exact (o : Option ModelLimiter) (n : Tally) : Prop :=
  ∀ l, o = some l → l.queuedRequests = n.waiting + n.notified

lemma Exact.create {o : Option ModelLimiter} {n : Tally} (hc : Counted o n) (he : Exact o n)
    (policy : ModelPolicy) : Exact (some (getOrCreate o policy)) n := by
  rintro _ ⟨⟩
  cases o with
  | none => simp [getOrCreate, new, hc.absent rfl]
  | some l => exact he l rfl

lemma Exact.enters {l l' : ModelLimiter} {n n' : Tally} (h : Enters l n l' n')
    (he : Exact (some l) n) : Exact (some l') n' := by
  rintro _ ⟨⟩
  cases h with
  | granted => exact he l rfl
  | full => exact he l rfl
  | @queued w k h busy room =>
    have hq : l.queuedRequests = w + k := he l rfl
    push_cast
    omega

lemma Exact.step {o o' : Option ModelLimiter} {n n' : Tally} (hP : NoWaitCancelled s a)
    (hc : Counted o n) (h : TallyStep o n a o' n') (he : Exact o n) : Exact o' n' := by
  rintro l' rfl
  cases h with
  | arrive enters => exact (he.create hc _).enters enters _ rfl
  | block => exact he.create hc _ _ rfl
  | enter enters => exact he.enters enters _ rfl
  | giveUp => exact he _ rfl
  | @again l r w k h busy =>
    have hq := he l' rfl
    push_cast at hq ⊢
    omega
  | @woken l r w k h free =>
    have hq := he l rfl
    push_cast at hq ⊢
    omega
  | @expire l r w k h n left =>
    have hq : l.queuedRequests = w + k := he l rfl
    simp only [expire]
    push_cast
    omega
  | cancel => cases hP
  | @release l r w k h =>
    have hq : l.queuedRequests = w + k := he l rfl
    simp only [ModelLimiter.release]
    push_cast
    omega

/-- **No slot and no queue place is lost** in a run in which no request is cancelled while it waits
inside `acquire`: the counters are the numbers of the requests that wait and that hold a slot. -/
theorem counters_exact (h : limiterLts.Reachable NoWaitCancelled s) {l : ModelLimiter}
    (hl : s.limiter = some l) :
    l.queuedRequests = waiters s.requests ∧ l.activeRequests = holders s.requests := by
  obtain ⟨hc, he⟩ := reachable_tally (I := Exact) nofun
    (fun _ _ _ _ hP hc ht he => he.step hP hc ht) h
  have hq := he l hl
  exact ⟨by rw [hq, waiters, Nat.cast_add]; rfl, hc.active l hl⟩

theorem counters_exact_sample :
    (1 : ℤ) = waiters sampleWaiting.requests ∧ (1 : ℤ) = holders sampleWaiting.requests :=
  counters_exact (sample_waiting fun _ _ _ => trivial) rfl

/-- The request that waits is cancelled: its queue place is never given back. -/
theorem queue_place_lost :
    ∃ s l, limiterLts.Reachable (FromPolicy samplePolicy) s ∧ s.limiter = some l ∧
      waiters s.requests = 0 ∧ ¬l.queuedRequests = waiters s.requests := by
  have h := sample_waiting (P := FromPolicy samplePolicy) fun _ _ _ => ⟨_, sample_lowered⟩
  have hrun := h.run (Lts.Run.single (l := .cancel 1) trivial ⟨⟨.waiting, rfl, Or.inl rfl⟩, rfl⟩)
  exact ⟨_, _, hrun, rfl, rfl, by decide⟩

/-! ### Free slots -/

/-- A limit that is brought while a request waits unnotified does not free a slot, but for the one
that the arriving request takes itself. -/
def NoSlotOpened (s : LimiterState) : LimiterStep → Prop
  | .arrive _ policy => number .waiting s.requests ≠ 0 →
      ∀ l, s.limiter = some l → policy.maxActiveRequests ≤ l.activeRequests + 1
  | .block _ policy => number .waiting s.requests ≠ 0 →
      ∀ l, s.limiter = some l → policy.maxActiveRequests ≤ l.activeRequests
  | _ => True

/-- If a request waits unnotified, then no slot is free. -/
def Busy (o : Option ModelLimiter) (n : Tally) : Prop :=
  ∀ l, o = some l → n.waiting ≠ 0 → l.maxActiveRequests ≤ l.activeRequests

/-- A request that finds a slot free takes it. -/
lemma busy_enters {l l' : ModelLimiter} {n n' : Tally} (h : Enters l n l' n')
    (hb : n.waiting ≠ 0 → l.maxActiveRequests ≤ l.activeRequests + 1) : Busy (some l') n' := by
  rintro _ ⟨⟩ hw
  cases h with
  | granted free => exact hb hw
  | full busy => exact busy
  | queued busy => exact busy

lemma Busy.step {o' : Option ModelLimiter} {n' : Tally} (hP : NoSlotOpened s a)
    (hc : Counted s.limiter (tally s.requests))
    (h : TallyStep s.limiter (tally s.requests) a o' n') (hb : Busy s.limiter (tally s.requests)) :
    Busy o' n' := by
  obtain ⟨limiter, requests⟩ := s
  simp only at hc h hb
  have hwaiting : number .waiting requests = (tally requests).waiting := rfl
  generalize tally requests = n at hc h hb hwaiting
  rintro l' rfl hw
  have habsent : limiter = none → n.waiting = 0 := fun hnone => by rw [hc.absent hnone]
  cases h with
  | @arrive o r policy n l' n' enters =>
    refine busy_enters enters (fun hw => ?_) _ rfl hw
    cases limiter with
    | none => exact absurd (habsent rfl) hw
    | some l => exact hP (hwaiting ▸ hw) l rfl
  | @block o r policy n =>
    cases limiter with
    | none => exact absurd (habsent rfl) hw
    | some l => exact hP (hwaiting ▸ hw) l rfl
  | @enter l r n l' n' enters =>
    exact busy_enters enters (fun hw => (hb l rfl hw).trans (by omega)) _ rfl hw
  | giveUp => exact hb _ rfl hw
  | again busy => exact busy
  | @woken l r w k h free =>
    have hfull := hb l rfl hw
    simp only at hfull ⊢
    omega
  | expire => exact absurd rfl hw
  | @cancel o r w k h w' k' left fewer =>
    refine hb _ rfl ?_
    simp only at hw ⊢
    omega
  | release => exact absurd rfl hw

/-- **No free slot while a request waits** in a run in which no arriving request raises the limit
beyond the slot that it takes itself, while a request waits unnotified. So a request that has not
been notified times out only while all slots are taken. -/
theorem no_free_slot (h : limiterLts.Reachable NoSlotOpened s) {l : ModelLimiter}
    (hl : s.limiter = some l) :
    (number .notified s.requests = 0 → 0 < waiters s.requests →
        l.maxActiveRequests ≤ l.activeRequests) ∧
      ∀ r, s.requests.get? r = some .waiting → l.maxActiveRequests ≤ l.activeRequests := by
  obtain ⟨-, hb⟩ := reachable_tally (I := Busy) nofun
    (fun _ _ _ _ hP hc ht hb => hb.step hP hc ht) h
  constructor
  · intro hnotified hwaiters
    refine hb l hl ?_
    rw [waiters, hnotified] at hwaiters
    exact Nat.pos_iff_ne_zero.mp hwaiters
  · intro r hr
    exact hb l hl (Nat.pos_iff_ne_zero.mp (number_pos hr))

/-- A third request brings a limit of two, and takes the second slot. -/
def sampleTaken : LimiterState where
  limiter := some ⟨"local-model", 2, 8, 60, 2, 1⟩
  requests := ⟨[(0, .holding), (1, .waiting), (2, .holding)], by decide⟩

theorem no_free_slot_sample :
    (number .notified sampleTaken.requests = 0 → 0 < waiters sampleTaken.requests →
        (2 : ℤ) ≤ 2) ∧ ∀ r, sampleTaken.requests.get? r = some .waiting → (2 : ℤ) ≤ 2 := by
  have h := sample_waiting (P := NoSlotOpened) fun _ _ hw hne => absurd hw hne
  have hopened : NoSlotOpened sampleWaiting (.arrive 2 samplePolicy) := by
    rintro - l ⟨⟩
    decide
  have hrun := h.run (Lts.Run.single (t := sampleTaken) hopened ⟨rfl, rfl⟩)
  exact no_free_slot (l := ⟨"local-model", 2, 8, 60, 2, 1⟩) hrun rfl

/-- A policy of three slots. -/
def threeSlots : ModelPolicy := { samplePolicy with maxActiveRequests := 3 }

/-- A third request brings the limit of the policy itself and takes a slot. Another slot is free,
nobody is notified, and the waiting request times out. -/
theorem timed_out_beside_free_slot :
    ∃ s l s', limiterLts.Reachable (FromPolicy threeSlots) s ∧ s.limiter = some l ∧
      number .notified s.requests = 0 ∧ 0 < waiters s.requests ∧
      ¬l.maxActiveRequests ≤ l.activeRequests ∧
      s.requests.get? 1 = some .waiting ∧ limiterStep s (.expire 1) s' := by
  have h := sample_waiting (P := FromPolicy threeSlots)
    fun _ _ _ => ⟨.obj [("max_parallel", .int 1)], rfl⟩
  have hrun := h.run (Lts.Run.single (l := .arrive 2 threeSlots) ⟨.null, rfl⟩ ⟨rfl, rfl⟩)
  exact ⟨_, _, _, hrun, rfl, rfl, by decide, by decide, rfl, ⟨.waiting, rfl, Or.inl rfl⟩, _, rfl,
    rfl⟩

end Orchestrator.LimiterSystem
