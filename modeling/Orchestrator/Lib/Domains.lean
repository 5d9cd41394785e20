import Mathlib.Data.List.Pairwise
import Orchestrator.Lib.Holding

/-!
Coroutines that share a state, each within a domain of its own.

A coroutine that waits is kept with its domain. Its turns change the state as the domain allows, and
what is done in one domain is something that a coroutine in a domain apart from it puts up with.
-/

namespace Orchestrator.Lib

namespace Coro

variable {σ C : Type} {R : C → Type} {ε α : Type} {D : Discipline σ C R}

/-! ### Assertions as tokens -/

/-- What a coroutine may say of the state while it waits: the others keep it. -/
structure Assertion (D : Discipline σ C R) where
  holds : σ → Prop
  stable : ∀ s t, D.others s t → holds s → holds t

/-- A coroutine that waits holds an assertion. -/
def asserting (D : Discipline σ C R) (ε : Type) : Holding σ C R ε (Assertion D) where
  toWorld := D.toWorld
  marks _ _ _ := True
  marks_after _ _ _ _ _ _ := trivial
  own _ s₀ k s := D.own s₀ s ∧ k.holds s
  resumes k s := k.holds s
  idle := ⟨fun _ => True, fun _ _ _ _ => trivial⟩

/-- **What holds with assertions** holds of the discipline. -/
theorem wpt_of_asserting {p : Coro σ C R ε α} {Q : Except ε α → σ → σ → Prop} {k₀ : Assertion D}
    {s₀ s : σ} (h : p.wph (asserting D ε) (fun x _ => Q x) k₀ s₀ s) : p.wpt D Q s₀ s := by
  induction p generalizing k₀ s₀ s with
  | done x =>
    rw [wph_done] at h
    rwa [wpt_done]
  | get f ih =>
    rw [wph_get] at h
    exact wpt_get.mpr (ih s h)
  | set t p ih =>
    rw [wph_set] at h
    exact wpt_set.mpr (ih h)
  | call c f ih =>
    cases hc : D.suspends c with
    | false =>
      rw [wph_call (H := asserting D ε) hc] at h
      rw [wpt_call hc]
      exact fun r hr => ih r (h r hr)
    | true =>
      rw [wph_await (H := asserting D ε) hc] at h
      rw [wpt_await hc]
      obtain ⟨k, -, hown, hrest⟩ := h
      exact ⟨hown.1, fun t ht r hr => ih r (hrest t (k.stable s t ht hown.2) r hr)⟩

/-! ### Domains -/

/-- What turns within a domain may do to the state, and what a coroutine there puts up with. -/
structure Domains (σ C : Type) (R : C → Type) (K : Type) extends World σ C R where
  own : K → σ → σ → Prop
  others : K → σ → σ → Prop
  apart : K → K → Prop
  symm : ∀ k l, apart k l → apart l k
  own_others : ∀ k l s t, apart k l → own k s t → others l s t
  trans : ∀ k s t u, others k s t → others k t u → others k s u

/-- The discipline of a domain. -/
def Domains.within {K : Type} (S : Domains σ C R K) (k : K) : Discipline σ C R where
  toWorld := S.toWorld
  own := S.own k
  others := S.others k

end Coro

open Coro

/-! ### Pools with domains -/

/-- The shared state and the coroutines that wait for an answer, each with its domain. -/
structure DomainPool (K σ C : Type) (R : C → Type) (ε α : Type) where
  state : σ
  waiting : List (K × Coro σ C R ε α)

namespace DomainPool

variable {K σ O C : Type} {R : C → Type} {ε α : Type}

/-- One turn, of `p` in the domain `k`, which stands between others. -/
def TurnOf (W : World σ C R) (P : DomainPool K σ C R ε α) (k : K) (p : Coro σ C R ε α)
    (before after : List (K × Coro σ C R ε α)) (calls : List (Event C R))
    (P' : DomainPool K σ C R ε α) : Prop :=
  ∃ p', p.Turn W P.state calls p' P'.state ∧
    P'.waiting = before ++ (Pool.left p').map (Prod.mk k) ++ after

/-- An operation begins in a domain that depends on the state. -/
def step (W : World σ C R) (body : O → Coro σ C R ε α) (domain : O → σ → K)
    (P : DomainPool K σ C R ε α) (l : PoolStep O C R) (P' : DomainPool K σ C R ε α) : Prop :=
  match l with
  | .begin op calls => P.TurnOf W (domain op P.state) (body op) P.waiting [] calls P'
  | .resume answer calls => ∃ before k f after,
      P.waiting = before ++ (k, .call answer.1 f) :: after ∧
      W.allowed answer.1 answer.2 P.state ∧ P.TurnOf W k (f answer.2) before after calls P'

def lts (W : World σ C R) (body : O → Coro σ C R ε α) (domain : O → σ → K) (init : σ → Prop) :
    Lts (DomainPool K σ C R ε α) (PoolStep O C R) where
  init P := init P.state ∧ P.waiting = []
  step := step W body domain

/-- The pool in which an operation has begun, with a turn in which `o` answers. -/
def beginWith (W : World σ C R) (body : O → Coro σ C R ε α) (domain : O → σ → K)
    (o : (c : C) → σ → R c) (P : DomainPool K σ C R ε α) (op : O) : DomainPool K σ C R ε α where
  state := ((body op).turnWith W o P.state).2.2
  waiting := P.waiting ++
    (Pool.left ((body op).turnWith W o P.state).2.1).map (Prod.mk (domain op P.state))

lemma step_beginWith {W : World σ C R} {body : O → Coro σ C R ε α} {domain : O → σ → K}
    {o : (c : C) → σ → R c} (ho : ∀ c s, W.allowed c (o c s) s) (P : DomainPool K σ C R ε α)
    (op : O) :
    step W body domain P (.begin op ((body op).turnWith W o P.state).1)
      (P.beginWith W body domain o op) :=
  ⟨_, turn_turnWith ho (body op) P.state, (List.append_nil _).symm⟩

lemma run_beginWith {W : World σ C R} {body : O → Coro σ C R ε α} {domain : O → σ → K}
    {init : σ → Prop} {A : DomainPool K σ C R ε α → PoolStep O C R → Prop} {o : (c : C) → σ → R c}
    (ho : ∀ c s, W.allowed c (o c s) s) (P : DomainPool K σ C R ε α) (op : O)
    (hA : ∀ calls, A P (.begin op calls)) :
    (lts W body domain init).Run A P (P.beginWith W body domain o op) :=
  Lts.Run.single (hA _) (step_beginWith ho P op)

/-- The pool in which the `n`th coroutine that waits has gone on, with a turn in which `o`
answers. -/
def resumeWith (W : World σ C R) (o : (c : C) → σ → R c) (n : ℕ) (P : DomainPool K σ C R ε α) :
    DomainPool K σ C R ε α :=
  match P.waiting[n]? with
  | some (k, .call c f) =>
    let turn := (f (o c P.state)).turnWith W o P.state
    ⟨turn.2.2, P.waiting.take n ++ (Pool.left turn.2.1).map (Prod.mk k) ++ P.waiting.drop (n + 1)⟩
  | _ => P

lemma run_resumeWith {W : World σ C R} {body : O → Coro σ C R ε α} {domain : O → σ → K}
    {init : σ → Prop} {A : DomainPool K σ C R ε α → PoolStep O C R → Prop} {o : (c : C) → σ → R c}
    (ho : ∀ c s, W.allowed c (o c s) s) (n : ℕ) (P : DomainPool K σ C R ε α)
    (hA : ∀ answer calls, A P (.resume answer calls)) :
    (lts W body domain init).Run A P (P.resumeWith W o n) := by
  unfold resumeWith
  split
  · next k c f hn =>
    obtain ⟨hlt, hget⟩ := List.getElem?_eq_some_iff.mp hn
    refine Lts.Run.single (l := .resume ⟨c, o c P.state⟩ _) (hA _ _)
      ⟨P.waiting.take n, k, f, P.waiting.drop (n + 1), ?_, ho c P.state, _,
        turn_turnWith ho _ _, rfl⟩
    rw [← hget, ← List.drop_eq_getElem_cons hlt, List.take_append_drop]
  · exact Lts.Run.refl P

lemma domain_beginWith {W : World σ C R} {body : O → Coro σ C R ε α} {domain : O → σ → K}
    {o : (c : C) → σ → R c} {P : DomainPool K σ C R ε α} {op : O} {q : K × Coro σ C R ε α}
    (hq : q ∈ (P.beginWith W body domain o op).waiting) :
    q ∈ P.waiting ∨ q.1 = domain op P.state := by
  rcases List.mem_append.mp hq with hq | hq
  · exact Or.inl hq
  · obtain ⟨p, -, rfl⟩ := List.mem_map.mp hq
    exact Or.inr rfl

/-- A coroutine that goes on stays in its domain. -/
lemma domain_resumeWith {W : World σ C R} {o : (c : C) → σ → R c} {n : ℕ}
    {P : DomainPool K σ C R ε α} {q : K × Coro σ C R ε α}
    (hq : q ∈ (P.resumeWith W o n).waiting) : ∃ r ∈ P.waiting, q.1 = r.1 := by
  unfold resumeWith at hq
  split at hq
  · next k c f hn =>
    rcases List.mem_append.mp hq with hq | hq
    · rcases List.mem_append.mp hq with hq | hq
      · exact ⟨q, List.mem_of_mem_take hq, rfl⟩
      · obtain ⟨p, -, rfl⟩ := List.mem_map.mp hq
        exact ⟨(k, .call c f), List.mem_of_getElem? hn, rfl⟩
    · exact ⟨q, List.mem_of_mem_drop hq, rfl⟩
  · exact ⟨q, hq, rfl⟩

variable {S : Domains σ C R K} {body : O → Coro σ C R ε α} {domain : O → σ → K}
  {P P' : DomainPool K σ C R ε α}

/-- The coroutines that wait are in domains apart, and keep to them. -/
structure Settled (S : Domains σ C R K) (P : DomainPool K σ C R ε α) : Prop where
  apart : P.waiting.Pairwise fun q r => S.apart q.1 r.1
  waits : ∀ q ∈ P.waiting, Pool.Waits (S.within q.1) q.2 P.state

lemma turnOf_settled {k : K} {p : Coro σ C R ε α} {before after : List (K × Coro σ C R ε α)}
    {calls : List (Event C R)} (hp : p.wpt (S.within k) (fun _ => S.own k) P.state P.state)
    (hwaits : ∀ q ∈ before ++ after, Pool.Waits (S.within q.1) q.2 P.state)
    (hpairs : (before ++ after).Pairwise fun q r => S.apart q.1 r.1)
    (hapart : ∀ q ∈ before ++ after, S.apart k q.1)
    (h : P.TurnOf S.toWorld k p before after calls P') :
    S.own k P.state P'.state ∧ P'.Settled S := by
  obtain ⟨p', hturn, hwaiting⟩ := h
  have hstay : S.own k P.state P'.state →
      ∀ q ∈ before ++ after, Pool.Waits (S.within q.1) q.2 P'.state := fun hown q hq =>
    (hwaits q hq).others (S.trans q.1) (S.own_others k q.1 _ _ (hapart q hq) hown)
  rcases wpt_turn hp hturn with ⟨x, rfl, hown⟩ | ⟨c, f, rfl, hown, hrest⟩
  · rw [Pool.left_done, List.map_nil, List.append_nil] at hwaiting
    exact ⟨hown, hwaiting ▸ hpairs, fun q hq => hstay hown q (hwaiting ▸ hq)⟩
  rw [Pool.left_call, List.map_singleton, List.append_assoc, List.singleton_append] at hwaiting
  refine ⟨hown, ?_, fun q hq => ?_⟩
  · rw [hwaiting, List.pairwise_middle fun h => S.symm _ _ h, List.pairwise_cons]
    exact ⟨hapart, hpairs⟩
  · rw [hwaiting, List.mem_append, List.mem_cons] at hq
    rcases hq with hq | rfl | hq
    · exact hstay hown q (List.mem_append_left _ hq)
    · exact ⟨c, f, rfl, hrest⟩
    · exact hstay hown q (List.mem_append_right _ hq)

/-- **One step** of a pool in which an operation begins only in a domain that is apart from those
of the coroutines that wait. -/
theorem step_settled {I : σ → Prop} (hrefl : ∀ k s, I s → S.others k s s) (hI : I P.state)
    (hP : P.Settled S) {l : PoolStep O C R}
    (hbegin : ∀ op calls, l = .begin op calls → (∀ q ∈ P.waiting, S.apart (domain op P.state) q.1) ∧
      (body op).wpt (S.within (domain op P.state)) (fun _ => S.own (domain op P.state))
        P.state P.state)
    (h : step S.toWorld body domain P l P') :
    ∃ k, S.own k P.state P'.state ∧ P'.Settled S := by
  cases l with
  | begin op calls =>
    obtain ⟨hapart, hbody⟩ := hbegin op calls rfl
    refine ⟨domain op P.state, turnOf_settled hbody ?_ ?_ ?_ h⟩
    · exact fun q hq => hP.waits q (by rwa [List.append_nil] at hq)
    · rw [List.append_nil]
      exact hP.apart
    · exact fun q hq => hapart q (by rwa [List.append_nil] at hq)
  | resume answer calls =>
    obtain ⟨before, k, f, after, hw, hallowed, h⟩ := h
    have hpairs := hP.apart
    have hwaits := hP.waits
    rw [hw, List.pairwise_middle fun h => S.symm _ _ h, List.pairwise_cons] at hpairs
    obtain ⟨c, g, hcall, hrest⟩ := hwaits (k, .call answer.1 f) (by rw [hw]; simp)
    cases hcall
    refine ⟨k, turnOf_settled (hrest _ (hrefl k _ hI) _ hallowed) (fun q hq => hwaits q ?_)
      hpairs.2 hpairs.1 h⟩
    rw [hw]
    rcases List.mem_append.mp hq with hq | hq
    · exact List.mem_append_left _ hq
    · exact List.mem_append_right _ (List.mem_cons_of_mem _ hq)

/-- **Runs** of such a pool. -/
theorem reachable_settled {I init : σ → Prop} {A : DomainPool K σ C R ε α → PoolStep O C R → Prop}
    (hrefl : ∀ k s, I s → S.others k s s) (hinit : ∀ s, init s → I s)
    (hown : ∀ k s t, S.own k s t → I s → I t)
    (hbegin : ∀ (P : DomainPool K σ C R ε α) op calls, A P (.begin op calls) → I P.state →
      (∀ q ∈ P.waiting, S.apart (domain op P.state) q.1) ∧
        (body op).wpt (S.within (domain op P.state)) (fun _ => S.own (domain op P.state))
          P.state P.state)
    (h : (lts S.toWorld body domain init).Reachable A P) : I P.state ∧ P.Settled S := by
  refine h.invariant (I := fun P => I P.state ∧ P.Settled S) (fun P hP => ?_)
    fun P l P' hP hA hstep => ?_
  · refine ⟨hinit _ hP.1, ?_, ?_⟩
    · rw [hP.2]
      exact List.Pairwise.nil
    · rw [hP.2]
      exact fun q hq => absurd hq List.not_mem_nil
  obtain ⟨k, hk, hsettled⟩ := step_settled hrefl hP.1 hP.2
    (fun op calls hl => hbegin P op calls (hl ▸ hA) hP.1) hstep
  exact ⟨hown k _ _ hk hP.1, hsettled⟩

end DomainPool

end Orchestrator.Lib
