import Orchestrator.Lib.Coro

/-!
Turns of a coroutine, together with the calls that are made in them.

`wpe` is the weakest precondition for turns whose effect depends on what their calls were
answered, such as a time that was read: a turn is looked at when it ends, with its calls, the
one it waited for first.
-/

namespace Orchestrator.Lib

namespace Coro

variable {σ C : Type} {R : C → Type} {ε α β : Type}

/-- The calls that suspend, what others do to the state during a call, and what a turn with the
calls it makes may do to it. -/
structure Terms (σ C : Type) (R : C → Type) where
  suspends : C → Bool
  others : (c : C) → R c → σ → σ → Prop
  turn : List (Event C R) → σ → σ → Prop

variable (T : Terms σ C R)

/-- In a turn that began in `s₀`, has made the calls `es` and is now in `s`, the rest of `p` keeps
to the terms and ends in `Q`, of the calls of its last turn, its result, the state in which that
turn began and the last state. -/
def wpe : Coro σ C R ε α → (List (Event C R) → Except ε α → σ → σ → Prop) →
    List (Event C R) → σ → σ → Prop
  | done x, Q, es, s₀, s => Q es x s₀ s
  | get f, Q, es, s₀, s => (f s).wpe Q es s₀ s
  | set t p, Q, es, s₀, _ => p.wpe Q es s₀ t
  | call c f, Q, es, s₀, s =>
    if T.suspends c then T.turn es s₀ s ∧ ∀ r t, T.others c r s t → (f r).wpe Q [⟨c, r⟩] t t
    else ∀ r, (f r).wpe Q (es ++ [⟨c, r⟩]) s₀ s

variable {T} {Q Q' : List (Event C R) → Except ε α → σ → σ → Prop} {es fs : List (Event C R)}
  {s₀ s s' : σ}

@[simp] lemma wpe_done {x : Except ε α} :
    (done x : Coro σ C R ε α).wpe T Q es s₀ s ↔ Q es x s₀ s := Iff.rfl
@[simp] lemma wpe_get {f : σ → Coro σ C R ε α} :
    (get f).wpe T Q es s₀ s ↔ (f s).wpe T Q es s₀ s := Iff.rfl
@[simp] lemma wpe_set {t : σ} {p : Coro σ C R ε α} :
    (set t p).wpe T Q es s₀ s ↔ p.wpe T Q es s₀ t := Iff.rfl

lemma wpe_call {c : C} {f : R c → Coro σ C R ε α} (h : T.suspends c = false) :
    (call c f).wpe T Q es s₀ s ↔ ∀ r, (f r).wpe T Q (es ++ [⟨c, r⟩]) s₀ s := by
  rw [wpe, if_neg (by simp [h])]

lemma wpe_await {c : C} {f : R c → Coro σ C R ε α} (h : T.suspends c = true) :
    (call c f).wpe T Q es s₀ s ↔
      T.turn es s₀ s ∧ ∀ r t, T.others c r s t → (f r).wpe T Q [⟨c, r⟩] t t := by
  rw [wpe, if_pos h]

lemma wpe_mono {p : Coro σ C R ε α} (h : p.wpe T Q es s₀ s)
    (hQ : ∀ fs x t₀ t, Q fs x t₀ t → Q' fs x t₀ t) : p.wpe T Q' es s₀ s := by
  induction p generalizing es s₀ s with
  | done x => exact hQ _ _ _ _ h
  | get f ih => exact ih s h
  | set t p ih => exact ih h
  | call c f ih =>
    cases hc : T.suspends c with
    | false =>
      rw [wpe_call hc] at h ⊢
      exact fun r => ih r (h r)
    | true =>
      rw [wpe_await hc] at h ⊢
      exact ⟨h.1, fun r t ht => ih r (h.2 r t ht)⟩

/-- **Sequencing.** -/
theorem wpe_after {p : Coro σ C R ε α} {k : Except ε α → Coro σ C R ε β}
    {Q : List (Event C R) → Except ε β → σ → σ → Prop}
    (h : p.wpe T (fun fs x t₀ t => (k x).wpe T Q fs t₀ t) es s₀ s) :
    (p.after k).wpe T Q es s₀ s := by
  induction p generalizing es s₀ s with
  | done x => exact h
  | get f ih => exact ih s h
  | set t p ih => exact ih h
  | call c f ih =>
    rw [after_call]
    cases hc : T.suspends c with
    | false =>
      rw [wpe_call hc] at h ⊢
      exact fun r => ih r (h r)
    | true =>
      rw [wpe_await hc] at h ⊢
      exact ⟨h.1, fun r t ht => ih r (h.2 r t ht)⟩

/-- `p` never changes the state. -/
def Stateless : Coro σ C R ε α → Prop
  | done _ => True
  | get f => ∀ s, (f s).Stateless
  | set _ _ => False
  | call _ f => ∀ r, (f r).Stateless

lemma stateless_after {p : Coro σ C R ε α} {k : Except ε α → Coro σ C R ε β} (hp : p.Stateless)
    (hk : ∀ x, (k x).Stateless) : (p.after k).Stateless := by
  induction p with
  | done x => exact hk x
  | get f ih => exact fun s => ih s (hp s)
  | set t p => exact hp.elim
  | call c f ih => exact fun r => ih r (hp r)

lemma stateless_bind {p : Coro σ C R ε α} {k : α → Coro σ C R ε β} (hp : p.Stateless)
    (hk : ∀ a, (k a).Stateless) : (p >>= k).Stateless := by
  refine stateless_after hp fun x => ?_
  cases x with
  | ok a => exact hk a
  | error e => trivial

/-- A coroutine that never changes the state keeps what the others keep. -/
lemma Stateless.wpe {p : Coro σ C R ε α} (hp : p.Stateless) {I : σ → Prop}
    (hturn : ∀ es s, I s → T.turn es s s)
    (hI : ∀ c r s t, T.suspends c = true → I s → T.others c r s t → I t) (hs : I s) :
    p.wpe T (fun _ _ t₀ t => t = t₀ ∧ I t) es s s := by
  induction p generalizing es s with
  | done x => exact ⟨rfl, hs⟩
  | get f ih => exact ih s (hp s) hs
  | set t p => exact hp.elim
  | call c f ih =>
    cases hc : T.suspends c with
    | false =>
      rw [wpe_call hc]
      exact fun r => ih r (hp r) hs
    | true =>
      rw [wpe_await hc]
      exact ⟨hturn es s hs, fun r t ht => ih r (hp r) (hI c r s t hc hs ht)⟩

variable (T) in
/-- `p` waits in `s`, and keeps to the terms whatever the answer. -/
def Waits (p : Coro σ C R ε α) (Q : List (Event C R) → Except ε α → σ → σ → Prop) (s : σ) : Prop :=
  ∃ c f, p = call c f ∧ T.suspends c = true ∧
    ∀ r t, T.others c r s t → (f r).wpe T Q [⟨c, r⟩] t t

/-- What others do before the answer comes does not matter. -/
lemma Waits.others {p : Coro σ C R ε α} (h : p.Waits T Q s)
    (hs : ∀ c r t, T.suspends c = true → T.others c r s' t → T.others c r s t) :
    p.Waits T Q s' := by
  obtain ⟨c, f, rfl, hc, hf⟩ := h
  exact ⟨c, f, rfl, hc, fun r t ht => hf r t (hs c r t hc ht)⟩

/-- **One turn** of a coroutine that keeps to the terms: it ends as the precondition says, or has
done what a turn may do, and waits. -/
theorem wpe_advance {p p' : Coro σ C R ε α} (h : p.wpe T Q es s₀ s)
    (ha : p.Advance T.suspends s fs p' s') :
    (∃ x, p' = done x ∧ Q (es ++ fs) x s₀ s') ∨ T.turn (es ++ fs) s₀ s' ∧ p'.Waits T Q s' := by
  induction p generalizing es s fs with
  | done x =>
    obtain ⟨rfl, rfl, rfl⟩ := advance_done.mp ha
    rw [List.append_nil]
    exact Or.inl ⟨x, rfl, h⟩
  | get f ih => exact ih s h (advance_get.mp ha)
  | set t p ih => exact ih h (advance_set.mp ha)
  | call c f ih =>
    cases hc : T.suspends c with
    | false =>
      obtain ⟨r, gs, rfl, hrest⟩ := (advance_call hc).mp ha
      rw [wpe_call hc] at h
      rw [← List.singleton_append, ← List.append_assoc]
      exact ih r (h r) hrest
    | true =>
      obtain ⟨rfl, rfl, rfl⟩ := (advance_await hc).mp ha
      rw [wpe_await hc] at h
      rw [List.append_nil]
      exact Or.inr ⟨h.1, c, f, rfl, hc, h.2⟩

end Coro

end Orchestrator.Lib
