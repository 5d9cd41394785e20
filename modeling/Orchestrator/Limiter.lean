import Orchestrator.Lib.Dict
import Orchestrator.Lib.Lts
import Orchestrator.Policy

/-!
The limiter of a model: how many requests of the model are active and how many wait, and the
limits on both, which every arriving request rewrites.

Each operation here is what the code does between two points at which it may suspend; the lock of
the condition is held meanwhile. It is free at such a point, so that `get_or_create` and the first
checks of `acquire` are one step; but `wait_for` with a time-out that is not positive suspends with
the lock, and a request that arrives then has to wait for it first.
-/

namespace Orchestrator

open Lib

structure ModelLimiter where
  model : String
  maxActiveRequests : ℤ
  maxQueuedRequests : ℤ
  queueTimeoutSeconds : ℚ
  activeRequests : ℤ
  queuedRequests : ℤ

/-- How `acquire` goes on after its first checks. -/
inductive Entry
  | granted
  | full
  | queued

namespace ModelLimiter

/-- `acquire`, up to the wait. -/
def enter (l : ModelLimiter) : Entry × ModelLimiter :=
  if l.activeRequests < l.maxActiveRequests then
    (.granted, { l with activeRequests := l.activeRequests + 1 })
  else if l.maxQueuedRequests ≤ l.queuedRequests then (.full, l)
  else (.queued, { l with queuedRequests := l.queuedRequests + 1 })

/-- A round of the loop of `_wait_for_slot_locked`: nothing, if it has to wait again. -/
def grant (l : ModelLimiter) : Option ModelLimiter :=
  if l.maxActiveRequests ≤ l.activeRequests then none
  else some { l with
    queuedRequests := l.queuedRequests - 1
    activeRequests := l.activeRequests + 1 }

/-- The handler of the time-out in `acquire`. -/
def expire (l : ModelLimiter) : ModelLimiter := { l with queuedRequests := l.queuedRequests - 1 }

def release (l : ModelLimiter) : ModelLimiter :=
  { l with activeRequests := max 0 (l.activeRequests - 1) }

/-- `update_limits`, with the limits of a policy. -/
def updateLimits (l : ModelLimiter) (policy : ModelPolicy) : ModelLimiter :=
  { l with
    maxActiveRequests := policy.maxActiveRequests
    maxQueuedRequests := policy.maxQueuedRequests
    queueTimeoutSeconds := policy.queueTimeoutSeconds }

/-- `ModelLimiter(...)` -/
def new (policy : ModelPolicy) : ModelLimiter :=
  ⟨policy.publicName, policy.maxActiveRequests, policy.maxQueuedRequests,
    policy.queueTimeoutSeconds, 0, 0⟩

/-- `LimiterRegistry.get_or_create`, from the limiter that is registered for the model. -/
def getOrCreate (existing : Option ModelLimiter) (policy : ModelPolicy) : ModelLimiter :=
  match existing with
  | none => new policy
  | some l => l.updateLimits policy

variable {l : ModelLimiter}

lemma enter_cases (l : ModelLimiter) :
    (l.activeRequests < l.maxActiveRequests ∧
      l.enter = (.granted, { l with activeRequests := l.activeRequests + 1 })) ∨
    (l.maxActiveRequests ≤ l.activeRequests ∧ l.enter = (.full, l)) ∨
    (l.maxActiveRequests ≤ l.activeRequests ∧ l.queuedRequests < l.maxQueuedRequests ∧
      l.enter = (.queued, { l with queuedRequests := l.queuedRequests + 1 })) := by
  unfold enter
  split
  · next h => exact Or.inl ⟨h, rfl⟩
  split
  · next h _ => exact Or.inr (Or.inl ⟨by omega, rfl⟩)
  · next h h' => exact Or.inr (Or.inr ⟨by omega, by omega, rfl⟩)

lemma grant_cases (l : ModelLimiter) :
    (l.maxActiveRequests ≤ l.activeRequests ∧ l.grant = none) ∨
    (l.activeRequests < l.maxActiveRequests ∧ l.grant = some { l with
      queuedRequests := l.queuedRequests - 1
      activeRequests := l.activeRequests + 1 }) := by
  unfold grant
  split
  · next h => exact Or.inl ⟨h, rfl⟩
  · next h => exact Or.inr ⟨by omega, rfl⟩

end ModelLimiter

/-! ### Requests around a limiter -/

/-- Where a request stands: it waits for the lock in `acquire`, waits there for a notification, has
been notified and is to check again, or holds a slot. -/
inductive Phase
  | blocked
  | waiting
  | notified
  | holding
  deriving DecidableEq

/-- The limiter of a model and the requests that use it. -/
structure LimiterState where
  limiter : Option ModelLimiter
  requests : Dict ℕ Phase

/-- What happens next, and to which request. -/
inductive LimiterStep
  /-- `get_or_create` with the limits of a policy, and the first checks of `acquire` -/
  | arrive (r : ℕ) (policy : ModelPolicy)
  /-- `get_or_create` with the limits of a policy, while another request has the lock -/
  | block (r : ℕ) (policy : ModelPolicy)
  /-- a blocked request gets the lock, for the first checks of `acquire` -/
  | enter (r : ℕ)
  /-- a blocked request is cancelled -/
  | giveUp (r : ℕ)
  /-- a notified request has the lock again -/
  | grant (r : ℕ)
  /-- the wait raises `TimeoutError` -/
  | expire (r : ℕ)
  /-- the wait raises `CancelledError` -/
  | cancel (r : ℕ)
  /-- `release` by a request that holds a slot -/
  | release (r : ℕ)

namespace LimiterSystem

def number (phase : Phase) (requests : Dict ℕ Phase) : ℕ := requests.count (· = phase)

/-- The requests that wait in `acquire`. -/
def waiters (requests : Dict ℕ Phase) : ℕ := number .waiting requests + number .notified requests

/-- The requests that hold a slot. -/
def holders (requests : Dict ℕ Phase) : ℕ := number .holding requests

def notify : Phase → Phase
  | .waiting => .notified
  | phase => phase

/-- `notify_all` -/
def notifyAll (requests : Dict ℕ Phase) : Dict ℕ Phase := requests.mapValues notify

def isWaiter (phase : Phase) : Prop := phase = .waiting ∨ phase = .notified

/-- The first checks of `acquire` for a request. -/
def entered (l : ModelLimiter) (requests : Dict ℕ Phase) (r : ℕ) : LimiterState :=
  ⟨some l.enter.2, match l.enter.1 with
    | .granted => requests.set r .holding
    | .full => requests.erase r
    | .queued => requests.set r .waiting⟩

def limiterStep (s : LimiterState) (step : LimiterStep) (s' : LimiterState) : Prop :=
  match step with
  | .arrive r policy => s.requests.get? r = none ∧
      s' = entered (ModelLimiter.getOrCreate s.limiter policy) s.requests r
  | .block r policy => s.requests.get? r = none ∧
      s' = ⟨some (ModelLimiter.getOrCreate s.limiter policy), s.requests.set r .blocked⟩
  | .enter r => s.requests.get? r = some .blocked ∧ ∃ l, s.limiter = some l ∧
      s' = entered l s.requests r
  | .giveUp r => s.requests.get? r = some .blocked ∧ s' = ⟨s.limiter, s.requests.erase r⟩
  | .grant r => s.requests.get? r = some .notified ∧ ∃ l, s.limiter = some l ∧
      s' = match l.grant with
        | none => ⟨s.limiter, s.requests.set r .waiting⟩
        | some l' => ⟨some l', s.requests.set r .holding⟩
  | .expire r => (∃ phase, s.requests.get? r = some phase ∧ isWaiter phase) ∧
      ∃ l, s.limiter = some l ∧ s' = ⟨some l.expire, notifyAll (s.requests.erase r)⟩
  | .cancel r => (∃ phase, s.requests.get? r = some phase ∧ isWaiter phase) ∧
      s' = ⟨s.limiter, s.requests.erase r⟩
  | .release r => s.requests.get? r = some .holding ∧
      ∃ l, s.limiter = some l ∧ s' = ⟨some l.release, notifyAll (s.requests.erase r)⟩

def limiterLts : Lts LimiterState LimiterStep where
  init s := s = ⟨none, .empty⟩
  step := limiterStep

/-! ### Counting the requests -/

variable {requests : Dict ℕ Phase} {r : ℕ} {phase : Phase}

lemma number_set (h : requests.get? r = some phase) (new : Phase) (p : Phase) :
    number p (requests.set r new) + (if phase = p then 1 else 0) =
      number p requests + if new = p then 1 else 0 := by
  have hset := Dict.count_set (fun q => decide (q = p)) h new
  simpa [number] using hset

lemma number_erase (h : requests.get? r = some phase) (p : Phase) :
    number p (requests.erase r) + (if phase = p then 1 else 0) = number p requests := by
  have herase := Dict.count_erase (fun q => decide (q = p)) h
  simpa [number] using herase

/-- The request takes no part in the counters of the limiter. -/
def Outside (requests : Dict ℕ Phase) (r : ℕ) : Prop :=
  requests.get? r = none ∨ requests.get? r = some .blocked

lemma number_set_outside (h : Outside requests r) (new : Phase) {p : Phase} (hp : p ≠ .blocked) :
    number p (requests.set r new) = number p requests + if new = p then 1 else 0 := by
  rcases h with h | h
  · rw [number, Dict.count_insert _ h]
    simp [number]
  · have hset := number_set h new p
    rwa [if_neg hp.symm, Nat.add_zero] at hset

lemma number_erase_outside (h : Outside requests r) {p : Phase} (hp : p ≠ .blocked) :
    number p (requests.erase r) = number p requests := by
  rcases h with h | h
  · rw [Dict.erase_eq_self h]
  · have herase := number_erase h p
    rwa [if_neg hp.symm, Nat.add_zero] at herase

lemma number_pos (h : requests.get? r = some phase) : 0 < number phase requests :=
  Dict.count_pos _ h (by simp)

@[simp] lemma number_waiting_notifyAll : number .waiting (notifyAll requests) = 0 := by
  rw [number, notifyAll, Dict.count_mapValues, Dict.count, List.countP_eq_zero]
  intro p _
  cases p <;> simp [notify]

@[simp] lemma number_notified_notifyAll :
    number .notified (notifyAll requests) = waiters requests := by
  rw [waiters, number, number, number, notifyAll, Dict.count_mapValues, Dict.count, Dict.count,
    Dict.count]
  induction requests.values with
  | nil => rfl
  | cons p l ih =>
    simp only [List.countP_cons, ih]
    cases p <;> simp [notify] <;> omega

@[simp] lemma number_holding_notifyAll :
    number .holding (notifyAll requests) = number .holding requests := by
  rw [number, number, notifyAll, Dict.count_mapValues]
  congr 1
  funext p
  cases p <;> simp [notify]

@[simp] lemma waiters_notifyAll : waiters (notifyAll requests) = waiters requests := by
  rw [waiters, number_waiting_notifyAll, number_notified_notifyAll, Nat.zero_add]

end LimiterSystem

end Orchestrator
