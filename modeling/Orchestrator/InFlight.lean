import Mathlib.Data.Finset.Card
import Orchestrator.LimiterCounts

/-!
The generation requests that the proxy has in flight upstream under one policy: those of clients,
which hold a slot of the policy's limiter, and the one of the task executor, which does not.
-/

namespace Orchestrator.InFlight

open Lib LimiterSystem

/-- The limiter of the policy with its requests, those of them that are in flight upstream, and
whether the executor has a request of the policy in flight. -/
structure UpstreamState where
  limits : LimiterState
  sent : Finset ℕ
  posted : Bool

inductive UpstreamStep
  | limiter (a : LimiterStep)
  /-- `forward_openai_path` sends its upstream request -/
  | send (r : ℕ)
  /-- the upstream request of a client is over -/
  | finish (r : ℕ)
  /-- `execute_stored_task` posts a task of the policy -/
  | post
  | postDone

/-- `release` comes after the upstream request is over, except when the handler of a stream is
cancelled before it has the response: its task goes on sending. -/
def upstreamStep (s : UpstreamState) (step : UpstreamStep) (s' : UpstreamState) : Prop :=
  match step with
  | .limiter a => (∀ r policy, a = .arrive r policy ∨ a = .block r policy → r ∉ s.sent) ∧
      ∃ limits, limiterStep s.limits a limits ∧ s' = { s with limits }
  | .send r => s.limits.requests.get? r = some .holding ∧ r ∉ s.sent ∧
      s' = { s with sent := insert r s.sent }
  | .finish r => s' = { s with sent := s.sent.erase r }
  | .post => s.posted = false ∧ s' = { s with posted := true }
  | .postDone => s' = { s with posted := false }

def upstreamLts : Lts UpstreamState UpstreamStep where
  init s := s = ⟨⟨none, .empty⟩, ∅, false⟩
  step := upstreamStep

/-- How many requests are in flight upstream. -/
def inFlight (s : UpstreamState) : ℕ := s.sent.card + if s.posted then 1 else 0

/-! ### Slots stay held -/

lemma holding_kept {s s' : LimiterState} {a : LimiterStep} (h : limiterStep s a s') {r : ℕ}
    (hr : s.requests.get? r = some .holding) (ha : a ≠ .release r) :
    s'.requests.get? r = some .holding := by
  have hset : ∀ {x : ℕ} {phase : Phase}, s.requests.get? x ≠ some .holding →
      (s.requests.set x phase).get? r = some .holding := by
    intro x phase hx
    rw [Dict.get?_set_ne _ _ fun he => hx (by rw [← he]; exact hr)]
    exact hr
  have herase : ∀ {x : ℕ}, r ≠ x → (s.requests.erase x).get? r = some .holding := by
    intro x hx
    rw [Dict.get?_erase, if_neg hx]
    exact hr
  have hnotify : ∀ {requests : Dict ℕ Phase}, requests.get? r = some .holding →
      (notifyAll requests).get? r = some .holding := by
    intro requests hget
    rw [notifyAll, Dict.get?_mapValues, hget]
    rfl
  have hne : ∀ {x : ℕ} {phase : Phase}, s.requests.get? x = some phase → phase ≠ .holding →
    r ≠ x := by
    rintro x phase hx hphase rfl
    rw [hr] at hx
    cases hx
    exact hphase rfl
  have hentered : ∀ {x : ℕ} (l : ModelLimiter), Outside s.requests x →
      (entered l s.requests x).requests.get? r = some .holding := by
    intro x l hx
    have hfree : s.requests.get? x ≠ some .holding := by rcases hx with hx | hx <;> simp [hx]
    rw [entered]
    rcases l.enter_cases with ⟨-, he⟩ | ⟨-, he⟩ | ⟨-, -, he⟩
    · rw [he]
      exact hset hfree
    · rw [he]
      refine herase ?_
      rintro rfl
      exact hfree hr
    · rw [he]
      exact hset hfree
  cases a with
  | arrive x policy =>
    obtain ⟨hx, rfl⟩ := h
    exact hentered _ (Or.inl hx)
  | block x policy =>
    obtain ⟨hx, rfl⟩ := h
    exact hset (by simp [hx])
  | enter x =>
    obtain ⟨hx, l, -, rfl⟩ := h
    exact hentered l (Or.inr hx)
  | giveUp x =>
    obtain ⟨hx, rfl⟩ := h
    exact herase (hne hx (by simp))
  | grant x =>
    obtain ⟨hx, l, -, rfl⟩ := h
    rcases l.grant_cases with ⟨-, hg⟩ | ⟨-, hg⟩
    · rw [hg]
      exact hset (by simp [hx])
    · rw [hg]
      exact hset (by simp [hx])
  | expire x =>
    obtain ⟨⟨phase, hx, hphase⟩, l, -, rfl⟩ := h
    exact hnotify (herase (hne hx (by rcases hphase with rfl | rfl <;> simp)))
  | cancel x =>
    obtain ⟨⟨phase, hx, hphase⟩, rfl⟩ := h
    exact herase (hne hx (by rcases hphase with rfl | rfl <;> simp))
  | release x =>
    obtain ⟨hx, l, -, rfl⟩ := h
    refine hnotify (herase ?_)
    rintro rfl
    exact ha rfl

lemma card_le_holders {requests : Dict ℕ Phase} {sent : Finset ℕ}
    (h : ∀ r ∈ sent, requests.get? r = some .holding) : sent.card ≤ holders requests := by
  let ids := (requests.entries.filter fun p => p.2 = .holding).map Prod.fst
  have hids : ids.length = holders requests := by
    rw [List.length_map, holders, number, Dict.count, Dict.values, List.countP_map,
      List.countP_eq_length_filter]
    rfl
  have hsub : sent ⊆ ids.toFinset := by
    intro r hr
    have hmem := Dict.get?_eq_some.mp (h r hr)
    exact List.mem_toFinset.mpr (List.mem_map.mpr ⟨_, List.mem_filter.mpr ⟨hmem, by simp⟩, rfl⟩)
  calc sent.card ≤ ids.toFinset.card := Finset.card_le_card hsub
    _ ≤ ids.length := List.toFinset_card_le ids
    _ = holders requests := hids

/-! ### The bound -/

variable {policy : ModelPolicy} {s : UpstreamState}

/-- The limiter that a step takes a slot of, if one is free. -/
def takenFrom (o : Option ModelLimiter) : LimiterStep → Option ModelLimiter
  | .arrive _ policy => some (ModelLimiter.getOrCreate o policy)
  | .enter _ | .grant _ => o
  | _ => none

/-- A slot is free beside the executor's request: when it is posted, a slot is free, and while it is
in flight, no slot is taken that is the last one. And no handler gives its slot back while its
upstream request is in flight. -/
def RoomBeside (policy : ModelPolicy) (s : UpstreamState) : UpstreamStep → Prop
  | .limiter a => (∀ r, a = .release r → r ∉ s.sent) ∧ (s.posted = true →
      (holders s.limits.requests + 1 : ℤ) < policy.maxActiveRequests ∨
        ∀ l, takenFrom s.limits.limiter a = some l → l.maxActiveRequests ≤ l.activeRequests)
  | .post => (holders s.limits.requests : ℤ) < policy.maxActiveRequests
  | _ => True

/-- The requests of the limiter come under the policy, with their own hints. -/
def UnderPolicy (policy : ModelPolicy) (s : UpstreamState) : UpstreamStep → Prop
  | .limiter a => FromPolicy policy s.limits a
  | _ => True

structure Bounded (policy : ModelPolicy) (s : UpstreamState) : Prop where
  reachable : limiterLts.Reachable (FromPolicy policy) s.limits
  sent : ∀ r ∈ s.sent, s.limits.requests.get? r = some .holding
  posted : s.posted = true → (holders s.limits.requests : ℤ) < policy.maxActiveRequests

/-- Only a request that finds a free slot adds to those that hold one. -/
lemma holders_step {s s' : LimiterState} {a : LimiterStep} (h : limiterStep s a s') :
    holders s'.requests ≤ holders s.requests ∨
      holders s'.requests = holders s.requests + 1 ∧
        ∃ l, takenFrom s.limiter a = some l ∧ l.activeRequests < l.maxActiveRequests := by
  have hb : ∀ requests, holders requests = (tally requests).holding := fun _ => rfl
  have ht := step_tally h
  rw [hb, hb]
  obtain ⟨limiter, requests⟩ := s
  obtain ⟨limiter', requests'⟩ := s'
  simp only at ht ⊢
  generalize tally requests = n at ht ⊢
  generalize tally requests' = n' at ht ⊢
  have hentered : ∀ {l l' : ModelLimiter}, Enters l n l' n' → n'.holding ≤ n.holding ∨
      n'.holding = n.holding + 1 ∧ l.activeRequests < l.maxActiveRequests := by
    intro l l' henters
    cases henters with
    | granted free => exact Or.inr ⟨rfl, free⟩
    | _ => exact Or.inl (le_refl _)
  cases ht with
  | arrive henters =>
    exact (hentered henters).imp_right fun ⟨hsucc, free⟩ => ⟨hsucc, _, rfl, free⟩
  | enter henters =>
    exact (hentered henters).imp_right fun ⟨hsucc, free⟩ => ⟨hsucc, _, rfl, free⟩
  | woken free => exact Or.inr ⟨rfl, _, rfl, free⟩
  | release => exact Or.inl (Nat.le_succ _)
  | _ => exact Or.inl (le_refl _)

lemma Bounded.step {s' : UpstreamState} {a : UpstreamStep} (hs : Bounded policy s)
    (hP : UnderPolicy policy s a) (hroom : RoomBeside policy s a) (h : upstreamStep s a s') :
    Bounded policy s' := by
  cases a with
  | limiter a =>
    obtain ⟨-, limits, hl, rfl⟩ := h
    refine ⟨hs.reachable.run (Lts.Run.single hP hl), ?_, fun hposted => ?_⟩
    · intro r hr
      refine holding_kept hl (hs.sent r hr) ?_
      rintro rfl
      exact hroom.1 _ rfl hr
    · have hlt := hs.posted hposted
      rcases holders_step hl with hle | ⟨hsucc, l, hlim, hfree⟩
      · show (holders limits.requests : ℤ) < policy.maxActiveRequests
        omega
      · rcases hroom.2 hposted with hroom | hfull
        · show (holders limits.requests : ℤ) < policy.maxActiveRequests
          omega
        · have := hfull l hlim
          omega
  | send r =>
    obtain ⟨hr, -, rfl⟩ := h
    refine ⟨hs.reachable, fun x hx => ?_, hs.posted⟩
    rcases Finset.mem_insert.mp hx with rfl | hx
    · exact hr
    · exact hs.sent x hx
  | finish r =>
    cases h
    exact ⟨hs.reachable, fun x hx => hs.sent x (Finset.mem_of_mem_erase hx), hs.posted⟩
  | post =>
    obtain ⟨-, rfl⟩ := h
    exact ⟨hs.reachable, hs.sent, fun _ => hroom⟩
  | postDone =>
    cases h
    exact ⟨hs.reachable, hs.sent, nofun⟩

/-- **The bound on what is in flight** holds in every run in which the executor's request always
leaves a slot free and no slot is given back while its request is in flight. -/
theorem in_flight_le (ha : 0 ≤ policy.maxActiveRequests) (hq : 0 ≤ policy.maxQueuedRequests)
    (h : upstreamLts.Reachable (fun s a => UnderPolicy policy s a ∧ RoomBeside policy s a) s) :
    (inFlight s : ℤ) ≤ policy.maxActiveRequests := by
  have hs : Bounded policy s := by
    refine h.invariant (I := Bounded policy) ?_ ?_
    · rintro _ rfl
      exact ⟨Lts.Reachable.init rfl, by simp, nofun⟩
    · intro s a s' hs hP hl
      exact hs.step hP.1 hP.2 hl
  have hsent := card_le_holders hs.sent
  have hholders := holders_le ha hq hs.reachable
  rw [inFlight]
  split
  · next hposted =>
    have hlt := hs.posted hposted
    push_cast
    omega
  · push_cast
    omega

/-- A request that holds the slot is in flight upstream. -/
def sampleSent : UpstreamState := ⟨sampleWaiting, {0}, false⟩

lemma sample_sent {P : UpstreamState → UpstreamStep → Prop}
    (harrive : ∀ s r, s.posted = false → P s (.limiter (.arrive r sampleLowered)))
    (hsend : ∀ s, P s (.send 0)) : upstreamLts.Reachable P sampleSent := by
  have h0 := (Lts.Reachable.init (T := upstreamLts) (P := P) rfl).run
    (Lts.Run.single (harrive _ 0 rfl) ⟨by simp, _, ⟨rfl, rfl⟩, rfl⟩)
  have h1 := h0.run (Lts.Run.single (harrive _ 1 rfl) ⟨by simp, _, ⟨rfl, rfl⟩, rfl⟩)
  exact h1.run (Lts.Run.single (hsend _) ⟨rfl, by simp, rfl⟩)

/-- The executor posts a task beside the request. -/
def samplePosted : UpstreamState := { sampleSent with posted := true }

theorem in_flight_le_sample : inFlight samplePosted = 2 ∧
    (inFlight samplePosted : ℤ) ≤ samplePolicy.maxActiveRequests := by
  have hroom : (holders sampleSent.limits.requests : ℤ) < samplePolicy.maxActiveRequests := by
    decide
  refine ⟨rfl, in_flight_le (by decide) (by decide) ((sample_sent ?_ ?_).run
    (Lts.Run.single (l := .post) ⟨trivial, hroom⟩ ⟨rfl, rfl⟩))⟩
  · intro s r hposted
    refine ⟨⟨_, sample_lowered⟩, nofun, fun h => ?_⟩
    rw [hposted] at h
    cases h
  · exact fun _ => ⟨trivial, trivial⟩

/-- A client's request takes the only slot, and the executor posts a task of the same policy. -/
theorem executor_exceeds :
    ∃ s, upstreamLts.Reachable (UnderPolicy sampleLowered) s ∧
      sampleLowered.maxActiveRequests = 1 ∧
        ¬(inFlight s : ℤ) ≤ sampleLowered.maxActiveRequests := by
  have h := sample_sent (P := UnderPolicy sampleLowered)
    (fun _ _ _ => ⟨.null, rfl⟩) fun _ => trivial
  exact ⟨_, h.run (Lts.Run.single (l := .post) trivial ⟨rfl, rfl⟩), rfl, by decide⟩

end Orchestrator.InFlight
