import Orchestrator.Lib.Coro

/-!
The calls of a coroutine, one by one: in which states they are made, and after which others.

A rule allows a call or not, by the state and by a mark that it makes of the calls before and
their answers. `Obeys` is the weakest precondition under a rule, and `Calling` the beginning of a
run, up to a call.
-/

namespace Orchestrator.Lib.Coro

variable {σ C : Type} {R : C → Type} {ε α β γ : Type} {E : (c : C) → R c → σ → σ → Prop}

/-- `p` started in `s` makes the calls `es` and then the call `c`, in `v`. -/
def Calling (E : (c : C) → R c → σ → σ → Prop) :
    Coro σ C R ε α → σ → List (Event C R) → C → σ → Prop
  | done _, _, _, _, _ => False
  | get f, s, es, c, v => (f s).Calling E s es c v
  | set t p, _, es, c, v => p.Calling E t es c v
  | call c' f, s, es, c, v => (es = [] ∧ c = c' ∧ v = s) ∨
      ∃ r t fs, es = ⟨c', r⟩ :: fs ∧ E c' r s t ∧ (f r).Calling E t fs c v

/-- Which calls are allowed in which states, under the mark of the calls before. -/
structure Rule (σ C : Type) (R : C → Type) (γ : Type) where
  allows : C → γ → σ → Prop
  next : γ → Event C R → γ

/-- A call that is always allowed and leaves the mark as it is. -/
def Rule.Free (M : Rule σ C R γ) (c : C) : Prop :=
  (∀ m s, M.allows c m s) ∧ ∀ m r, M.next m ⟨c, r⟩ = m

/-- From `s` and the mark `m`, `p` makes allowed calls only, and ends in `Q`. -/
def Obeys (E : (c : C) → R c → σ → σ → Prop) (M : Rule σ C R γ) :
    Coro σ C R ε α → (Except ε α → γ → σ → Prop) → γ → σ → Prop
  | done x, Q, m, s => Q x m s
  | get f, Q, m, s => (f s).Obeys E M Q m s
  | set t p, Q, m, _ => p.Obeys E M Q m t
  | call c f, Q, m, s =>
    M.allows c m s ∧ ∀ r t, E c r s t → (f r).Obeys E M Q (M.next m ⟨c, r⟩) t

variable {M : Rule σ C R γ} {Q Q' : Except ε α → γ → σ → Prop} {m : γ} {s v : σ}

lemma Obeys.mono {p : Coro σ C R ε α} (h : p.Obeys E M Q m s)
    (hQ : ∀ x m t, Q x m t → Q' x m t) : p.Obeys E M Q' m s := by
  induction p generalizing m s with
  | done x => exact hQ _ _ _ h
  | get f ih => exact ih s h
  | set t p ih => exact ih h
  | call c f ih => exact ⟨h.1, fun r t he => ih r (h.2 r t he)⟩

/-- **Sequencing.** -/
theorem obeys_after {p : Coro σ C R ε α} {k : Except ε α → Coro σ C R ε β}
    {T : Except ε β → γ → σ → Prop} :
    (p.after k).Obeys E M T m s ↔ p.Obeys E M (fun x m t => (k x).Obeys E M T m t) m s := by
  induction p generalizing m s with
  | done x => rfl
  | get f ih => exact ih s
  | set t p ih => exact ih
  | call c f ih =>
    exact and_congr_right fun _ => forall_congr' fun r => forall_congr' fun t =>
      imp_congr_right fun _ => ih r

/-- Free calls keep to every rule. -/
lemma Obeys.of_wp {K : Contract σ C R} {p : Coro σ C R ε α}
    {P : List (Event C R) → Except ε α → σ → Prop} (hp : p.Makes M.Free) (h : p.wp K P s) :
    p.Obeys K.rely M (fun x m' t => m' = m ∧ ∃ es, P es x t) m s := by
  induction p generalizing s P with
  | done x => exact ⟨rfl, [], h⟩
  | get f ih => exact ih s (hp s) h
  | set t p ih => exact ih hp h.2
  | call c f ih =>
    obtain ⟨⟨hallows, hnext⟩, hf⟩ := hp
    refine ⟨hallows m s, fun r t he => ?_⟩
    rw [hnext m r]
    refine (ih r (hf r) (h r t he)).mono ?_
    rintro x m' u ⟨hm, es, hx⟩
    exact ⟨hm, _, hx⟩

lemma Obeys.of_makes {p : Coro σ C R ε α} (hp : p.Makes M.Free) :
    p.Obeys E M (fun _ m' _ => m' = m) m s :=
  (Obeys.of_wp hp (wp_true (K := ⟨E, fun _ _ => True⟩) (fun _ _ => trivial) p s)).mono
    fun _ _ _ h => h.1

/-- **Soundness**: a call is made in a state in which it is allowed, under the mark of the calls
before. -/
theorem Obeys.allowed {p : Coro σ C R ε α} {es : List (Event C R)} {c : C}
    (h : p.Obeys E M Q m s) (hc : p.Calling E s es c v) : M.allows c (es.foldl M.next m) v := by
  induction p generalizing m s es with
  | done x => exact hc.elim
  | get f ih => exact ih s h hc
  | set t p ih => exact ih h hc
  | call c' f ih =>
    rcases hc with ⟨rfl, rfl, rfl⟩ | ⟨r, t, fs, rfl, he, hc⟩
    · exact h.1
    · have hrest := ih r (h.2 r t he) hc
      exact hrest

/-- The calls of a run are made. -/
lemma Runs.calling {p : Coro σ C R ε α} {es fs : List (Event C R)} {e : Event C R} {x : Except ε α}
    {t : σ} (h : p.Runs E s (es ++ e :: fs) x t) : ∃ v, p.Calling E s es e.1 v := by
  induction p generalizing s es with
  | done y => exact absurd (runs_done.mp h).1 (by simp)
  | get f ih => exact ih s (runs_get.mp h)
  | set u p ih => exact ih (runs_set.mp h)
  | call c f ih =>
    obtain ⟨r, u, gs, heq, he, hr⟩ := runs_call.mp h
    cases es with
    | nil =>
      cases heq
      exact ⟨s, Or.inl ⟨rfl, rfl, rfl⟩⟩
    | cons e' es =>
      cases heq
      obtain ⟨v, hv⟩ := ih r hr
      exact ⟨v, Or.inr ⟨r, u, es, rfl, he, hv⟩⟩

-- as for `Runs`
attribute [irreducible] Calling

end Orchestrator.Lib.Coro
