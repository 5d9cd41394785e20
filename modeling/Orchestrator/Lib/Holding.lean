import Mathlib.Data.List.Forall2
import Orchestrator.Lib.Pool

/-!
Coroutines that hold something while they wait.

Each coroutine that waits holds a token, which says what its rest is about and what it may rely on
when it goes on. `wph` is the weakest precondition for turns that take one token and leave another.
An invariant of a pool relates its state to the tokens of all the coroutines that wait in it.
-/

namespace Orchestrator.Lib

namespace Coro

variable {σ C : Type} {R : C → Type} {ε K α β : Type}

structure Holding (σ C : Type) (R : C → Type) (ε K : Type) extends World σ C R where
  /-- the rests that may hold a token -/
  marks : K → (α : Type) → Coro σ C R ε α → Prop
  marks_after : ∀ k α β (p : Coro σ C R ε α) (q : Except ε α → Coro σ C R ε β),
    marks k α p → marks k β (p.after q)
  /-- a turn that began in one state with a token may end in another state with another token -/
  own : K → σ → K → σ → Prop
  /-- what holds when a coroutine that holds the token goes on -/
  resumes : K → σ → Prop
  /-- the token of a coroutine that is over -/
  idle : K

variable (H : Holding σ C R ε K)

/-- In a turn that began in `s₀` with `k₀` and is now in `s`, the rest of `p` keeps to `H` and ends
in `Q`, of the result, the token and the state with which its last turn began, and the last
state. -/
def wph : Coro σ C R ε α → (Except ε α → K → σ → σ → Prop) → K → σ → σ → Prop
  | done x, Q, k₀, s₀, s => Q x k₀ s₀ s
  | get f, Q, k₀, s₀, s => (f s).wph Q k₀ s₀ s
  | set t p, Q, k₀, s₀, _ => p.wph Q k₀ s₀ t
  | call c f, Q, k₀, s₀, s =>
    if H.suspends c then
      ∃ k, H.marks k α (call c f) ∧ H.own k₀ s₀ k s ∧
        ∀ t, H.resumes k t → ∀ r, H.allowed c r t → (f r).wph Q k t t
    else ∀ r, H.allowed c r s → (f r).wph Q k₀ s₀ s

variable {H} {Q Q' : Except ε α → K → σ → σ → Prop} {k₀ : K} {s₀ s s' : σ}

@[simp] lemma wph_done {x : Except ε α} :
    (done x : Coro σ C R ε α).wph H Q k₀ s₀ s ↔ Q x k₀ s₀ s := Iff.rfl
@[simp] lemma wph_get {f : σ → Coro σ C R ε α} :
    (get f).wph H Q k₀ s₀ s ↔ (f s).wph H Q k₀ s₀ s := Iff.rfl
@[simp] lemma wph_set {t : σ} {p : Coro σ C R ε α} :
    (set t p).wph H Q k₀ s₀ s ↔ p.wph H Q k₀ s₀ t := Iff.rfl

lemma wph_call {c : C} {f : R c → Coro σ C R ε α} (h : H.suspends c = false) :
    (call c f).wph H Q k₀ s₀ s ↔ ∀ r, H.allowed c r s → (f r).wph H Q k₀ s₀ s := by
  rw [wph, if_neg (by simp [h])]

lemma wph_await {c : C} {f : R c → Coro σ C R ε α} (h : H.suspends c = true) :
    (call c f).wph H Q k₀ s₀ s ↔ ∃ k, H.marks k α (call c f) ∧ H.own k₀ s₀ k s ∧
      ∀ t, H.resumes k t → ∀ r, H.allowed c r t → (f r).wph H Q k t t := by
  rw [wph, if_pos h]

lemma wph_mono {p : Coro σ C R ε α} (h : p.wph H Q k₀ s₀ s)
    (hQ : ∀ x k t₀ t, Q x k t₀ t → Q' x k t₀ t) : p.wph H Q' k₀ s₀ s := by
  induction p generalizing k₀ s₀ s with
  | done x => exact hQ _ _ _ _ h
  | get f ih => exact ih s h
  | set t p ih => exact ih h
  | call c f ih =>
    cases hc : H.suspends c with
    | false =>
      rw [wph_call hc] at h ⊢
      exact fun r hr => ih r (h r hr)
    | true =>
      rw [wph_await hc] at h ⊢
      obtain ⟨k, hk, hown, hrest⟩ := h
      exact ⟨k, hk, hown, fun t ht r hr => ih r (hrest t ht r hr)⟩

/-- **Sequencing.** -/
theorem wph_after {p : Coro σ C R ε α} {q : Except ε α → Coro σ C R ε β}
    {Q : Except ε β → K → σ → σ → Prop}
    (h : p.wph H (fun x k t₀ t => (q x).wph H Q k t₀ t) k₀ s₀ s) : (p.after q).wph H Q k₀ s₀ s := by
  induction p generalizing k₀ s₀ s with
  | done x => exact h
  | get f ih => exact ih s h
  | set t p ih => exact ih h
  | call c f ih =>
    rw [after_call]
    cases hc : H.suspends c with
    | false =>
      rw [wph_call hc] at h ⊢
      exact fun r hr => ih r (h r hr)
    | true =>
      rw [wph_await hc] at h ⊢
      obtain ⟨k, hk, hown, hrest⟩ := h
      exact ⟨k, H.marks_after k α β (call c f) q hk, hown, fun t ht r hr => ih r (hrest t ht r hr)⟩

/-- **One turn** of a coroutine that keeps to `H`: it ends as the precondition says, or waits and
holds a token, and then the rest keeps to `H`. -/
theorem wph_turn {p p' : Coro σ C R ε α} {es : List (Event C R)} (h : p.wph H Q k₀ s₀ s)
    (ht : p.Turn H.toWorld s es p' s') :
    (∃ x, p' = done x ∧ Q x k₀ s₀ s') ∨
      ∃ c f k, p' = call c f ∧ H.marks k α p' ∧ H.own k₀ s₀ k s' ∧
        ∀ t, H.resumes k t → ∀ r, H.allowed c r t → (f r).wph H Q k t t := by
  induction p generalizing s es with
  | done x =>
    unfold Turn at ht
    obtain ⟨-, rfl, rfl⟩ := ht
    exact Or.inl ⟨x, rfl, h⟩
  | get f ih =>
    unfold Turn at ht
    exact ih s h ht
  | set t p ih =>
    unfold Turn at ht
    exact ih h ht
  | call c f ih =>
    cases hc : H.suspends c with
    | false =>
      rw [turn_call hc] at ht
      obtain ⟨r, fs, -, hr, ht⟩ := ht
      rw [wph_call hc] at h
      exact ih r (h r hr) ht
    | true =>
      rw [turn_await hc] at ht
      obtain ⟨-, rfl, rfl⟩ := ht
      rw [wph_await hc] at h
      obtain ⟨k, hk, hown, hrest⟩ := h
      exact Or.inr ⟨c, f, k, rfl, hk, hown, hrest⟩

/-- The results of a computation of which the answers are in `G`. -/
lemma wph_results {G : Event C R → Prop} {E : Except ε α → Prop}
    (hG : ∀ c r s, H.allowed c r s → G ⟨c, r⟩) {p : Coro σ C R ε α} (hp : p.Results G E)
    (h : p.wph H Q k₀ s₀ s) : p.wph H (fun x k t₀ t => Q x k t₀ t ∧ E x) k₀ s₀ s := by
  induction p generalizing k₀ s₀ s with
  | done x => exact ⟨h, hp⟩
  | get f ih => exact ih s (hp s) h
  | set t p ih => exact ih hp h
  | call c f ih =>
    cases hc : H.suspends c with
    | false =>
      rw [wph_call hc] at h ⊢
      exact fun r hr => ih r (hp r (hG c r s hr)) (h r hr)
    | true =>
      rw [wph_await hc] at h ⊢
      obtain ⟨k, hk, hown, hrest⟩ := h
      exact ⟨k, hk, hown, fun t ht r hr => ih r (hp r (hG c r t hr)) (hrest t ht r hr)⟩

/-- What does not wait keeps to `H` as it keeps to any discipline. -/
lemma wph_of_wpt {W : World σ C R} (hsuspends : W.suspends = H.suspends)
    (hallowed : ∀ c r s, H.allowed c r s → W.allowed c r s) {p : Coro σ C R ε α}
    (h : p.wpt (keeping W fun _ => False) (fun x _ t => Q x k₀ s₀ t) s₀ s) : p.wph H Q k₀ s₀ s := by
  induction p generalizing s with
  | done x => exact wpt_done.mp h
  | get f ih => exact ih s (wpt_get.mp h)
  | set t p ih => exact ih (wpt_set.mp h)
  | call c f ih =>
    cases hc : W.suspends c with
    | false =>
      rw [wpt_call (D := keeping W fun _ => False) hc] at h
      rw [wph_call (hsuspends ▸ hc)]
      exact fun r hr => ih r (h r (hallowed c r s hr))
    | true =>
      rw [wpt_await (D := keeping W fun _ => False) hc] at h
      exact h.1.elim

/-! ### Triples -/

/-- From `A`, `p` keeps to `H` and ends in `Q`. -/
def Holds (H : Holding σ C R ε K) (A : K → σ → σ → Prop) (p : Coro σ C R ε α)
    (Q : Except ε α → K → σ → σ → Prop) : Prop := ∀ k₀ s₀ s, A k₀ s₀ s → p.wph H Q k₀ s₀ s

namespace Holds

variable {A B : K → σ → σ → Prop} {M : Except ε α → K → σ → σ → Prop}
  {T : Except ε β → K → σ → σ → Prop}

lemma of_done {x : Except ε α} (h : ∀ k₀ s₀ s, A k₀ s₀ s → M x k₀ s₀ s) : Holds H A (done x) M :=
  fun k₀ s₀ s hs => h k₀ s₀ s hs

lemma weaken {p : Coro σ C R ε α} {N : Except ε α → K → σ → σ → Prop} (h : Holds H B p N)
    (hA : ∀ k₀ s₀ s, A k₀ s₀ s → B k₀ s₀ s) (hN : ∀ x k₀ s₀ s, N x k₀ s₀ s → M x k₀ s₀ s) :
    Holds H A p M := fun k₀ s₀ s hs => wph_mono (h k₀ s₀ s (hA k₀ s₀ s hs)) hN

lemma seq {p : Coro σ C R ε α} {q : Except ε α → Coro σ C R ε β} (h : Holds H A p M)
    (hq : ∀ x, Holds H (M x) (q x) T) : Holds H A (p.after q) T :=
  fun k₀ s₀ s hs => wph_after (wph_mono (h k₀ s₀ s hs) fun x k t₀ t ht => hq x k t₀ t ht)

/-- Sequencing after a normal result. -/
lemma bind {p : Coro σ C R ε α} {q : α → Coro σ C R ε β} (h : Holds H A p M)
    (hq : ∀ a, Holds H (M (.ok a)) (q a) T)
    (he : ∀ e k₀ s₀ s, M (.error e) k₀ s₀ s → T (.error e) k₀ s₀ s) :
    Holds H A (p.after (onOk q)) T := by
  refine h.seq fun x => ?_
  cases x with
  | ok a => exact hq a
  | error e => exact of_done (he e)

lemma of_get {f : σ → Coro σ C R ε α}
    (h : ∀ t, Holds H (fun k₀ s₀ s => s = t ∧ A k₀ s₀ s) (f t) M) :
    Holds H A (get f) M := fun k₀ s₀ s hs => h s k₀ s₀ s ⟨rfl, hs⟩

lemma quiet {c : C} {f : R c → Coro σ C R ε α} (hc : H.suspends c = false)
    (h : ∀ r, Holds H (fun k₀ s₀ s => A k₀ s₀ s ∧ H.allowed c r s) (f r) M) :
    Holds H A (call c f) M := by
  intro k₀ s₀ s hs
  rw [wph_call hc]
  exact fun r hr => h r k₀ s₀ s ⟨hs, hr⟩

/-- A call that waits, with the token `k`. -/
lemma await {c : C} {f : R c → Coro σ C R ε α} (hc : H.suspends c = true) (k : K)
    (hmarks : H.marks k α (call c f)) (hown : ∀ k₀ s₀ s, A k₀ s₀ s → H.own k₀ s₀ k s)
    (h : ∀ r, Holds H (fun k₀ s₀ s => k₀ = k ∧ s₀ = s ∧ H.resumes k s ∧ H.allowed c r s) (f r) M) :
    Holds H A (call c f) M := by
  intro k₀ s₀ s hs
  rw [wph_await hc]
  exact ⟨k, hmarks, hown k₀ s₀ s hs, fun t ht r hr => h r k t t ⟨rfl, rfl, ht, hr⟩⟩

/-- What does not wait. -/
lemma of_triple {W : World σ C R} (hsuspends : W.suspends = H.suspends)
    (hallowed : ∀ c r s, H.allowed c r s → W.allowed c r s) {p : Coro σ C R ε α}
    (h : ∀ k₀ s₀, Triple W (fun _ => False) (A k₀ s₀) p fun x s => M x k₀ s₀ s) : Holds H A p M :=
  fun k₀ s₀ s hs => wph_of_wpt hsuspends hallowed (h k₀ s₀ s₀ s hs)

lemma results {G : Event C R → Prop} {E : Except ε α → Prop}
    (hG : ∀ c r s, H.allowed c r s → G ⟨c, r⟩) {p : Coro σ C R ε α} (hp : p.Results G E)
    (h : Holds H A p M) : Holds H A p fun x k₀ s₀ s => M x k₀ s₀ s ∧ E x :=
  fun k₀ s₀ s hs => wph_results hG hp (h k₀ s₀ s hs)

end Holds

/-- One token, which says nothing; every turn ends in `I`. -/
def single (W : World σ C R) (I : σ → Prop) : Holding σ C R ε Unit where
  toWorld := W
  marks _ _ _ := True
  marks_after _ _ _ _ _ _ := trivial
  own _ _ _ s := I s
  resumes _ s := I s
  idle := ()

/-- One token, which says nothing; from `I`, every turn keeps `A` since its beginning. -/
def turning (W : World σ C R) (I : σ → Prop) (A : σ → σ → Prop) : Holding σ C R ε Unit where
  toWorld := W
  marks _ _ _ := True
  marks_after _ _ _ _ _ _ := trivial
  own _ s₀ _ s := A s₀ s
  resumes _ s := I s
  idle := ()

/-- What holds with nothing held. -/
lemma Holds.triple {W : World σ C R} {I A : σ → Prop} {M : Except ε α → σ → Prop}
    {p : Coro σ C R ε α} (h : Holds (single W I) (fun _ _ s => A s) p fun x _ _ s => M x s) :
    Triple W I A p M := by
  have hwpt : ∀ (q : Coro σ C R ε α) (s₀ t₀ s : σ),
      q.wph (single W I) (fun x _ _ t => M x t) () s₀ s →
        q.wpt (keeping W I) (fun x _ t => M x t) t₀ s := by
    intro q
    induction q with
    | done x => exact fun _ _ _ hs => wpt_done.mpr hs
    | get f ih => exact fun s₀ t₀ s hs => wpt_get.mpr (ih s s₀ t₀ s hs)
    | set t p ih => exact fun s₀ t₀ s hs => wpt_set.mpr (ih s₀ t₀ t hs)
    | call c f ih =>
      intro s₀ t₀ s hs
      cases hc : W.suspends c with
      | false =>
        rw [wph_call (H := single W I) hc] at hs
        rw [wpt_call (D := keeping W I) hc]
        exact fun r hr => ih r s₀ t₀ s (hs r hr)
      | true =>
        rw [wph_await (H := single W I) hc] at hs
        rw [wpt_await (D := keeping W I) hc]
        obtain ⟨_, -, hI, hrest⟩ := hs
        exact ⟨hI, fun t ht r hr => ih r t t t (hrest t ht r hr)⟩
  exact fun s₀ s hs => hwpt p s s₀ s (h () s s hs)

/-! ### Rests -/

/-- What is left of `p` after some of its turns. -/
inductive LeftOf (W : World σ C R) (p : Coro σ C R ε α) : Coro σ C R ε α → Prop
  | first {s s' : σ} {es : List (Event C R)} {p' : Coro σ C R ε α} (h : p.Turn W s es p' s') :
      LeftOf W p p'
  | next {c : C} {f : R c → Coro σ C R ε α} {r : R c} {s s' : σ} {es : List (Event C R)}
      {p' : Coro σ C R ε α} (hp : LeftOf W p (call c f)) (hr : W.allowed c r s)
      (h : (f r).Turn W s es p' s') : LeftOf W p p'

/-- The same, where any rest may hold a token in `N`. -/
def Holding.marking (H : Holding σ C R ε K) (N : K → Prop) : Holding σ C R ε K :=
  { H with
    marks := fun k _ _ => N k
    marks_after := fun _ _ _ _ _ hk => hk }

lemma LeftOf.suspends {W : World σ C R} {p p' : Coro σ C R ε α} (h : LeftOf W p p') :
    ∀ c f, p' = call c f → W.suspends c = true := by
  rintro c f rfl
  cases h with
  | first ht => exact turn_suspends ht
  | next _ _ ht => exact turn_suspends ht

/-- What is left of a coroutine, where it waits, ends as the coroutine does. -/
lemma LeftOf.triple {W : World σ C R} {M : Except ε α → σ → Prop} {p p' : Coro σ C R ε α}
    (hp : Triple W (fun _ => True) (fun _ => True) p M) (h : LeftOf W p p') :
    ∀ c f, p' = call c f → ∀ A, Triple W (fun _ => True) A p' M := by
  have hturn : ∀ {q q' : Coro σ C R ε α} {s s' : σ} {es : List (Event C R)},
      q.wpt (keeping W fun _ => True) (fun x _ t => M x t) s s → q.Turn W s es q' s' →
        ∀ c f, q' = call c f → ∀ t r, W.allowed c r t →
          (f r).wpt (keeping W fun _ => True) (fun x _ u => M x u) t t := by
    rintro q q' s s' es hq ht c f rfl
    rcases wpt_turn (D := keeping W fun _ => True) hq ht with ⟨x, hx, -⟩ | ⟨_, _, hc, -, hrest⟩
    · cases hx
    · cases hc
      exact fun t r hr => hrest t trivial r hr
  have hrest : ∀ c f, p' = call c f → ∀ t r, W.allowed c r t →
      (f r).wpt (keeping W fun _ => True) (fun x _ u => M x u) t t := by
    induction h with
    | first ht => exact hturn (hp _ _ trivial) ht
    | next _ hr ht ih => exact hturn (ih _ _ rfl _ _ hr) ht
  rintro c f rfl A s₀ s -
  refine (wpt_await (D := keeping W fun _ => True) (h.suspends c f rfl)).mpr ⟨trivial, ?_⟩
  exact fun t _ r hr => hrest c f rfl t r hr

/-- The rests of `p` may be marked as such. -/
lemma wph_marked {N : K → Prop} {q p : Coro σ C R ε α}
    (hmarks : ∀ k c f, N k → LeftOf H.toWorld p (call c f) → H.marks k α (call c f))
    (hq : ∀ es q' t, q.Turn H.toWorld s es q' t → LeftOf H.toWorld p q')
    (h : q.wph (H.marking N) Q k₀ s₀ s) : q.wph H Q k₀ s₀ s := by
  induction q generalizing k₀ s₀ s with
  | done x => exact h
  | get f ih => exact ih s (fun es q' t ht => hq es q' t (by unfold Turn; exact ht)) h
  | set t q ih => exact ih (fun es q' t ht => hq es q' t (by unfold Turn; exact ht)) h
  | call c f ih =>
    cases hc : H.suspends c with
    | false =>
      rw [wph_call (H := H.marking N) hc] at h
      rw [wph_call hc]
      refine fun r hr => ih r (fun es q' t ht => hq (⟨c, r⟩ :: es) q' t ?_) (h r hr)
      exact (turn_call hc).mpr ⟨r, es, rfl, hr, ht⟩
    | true =>
      rw [wph_await (H := H.marking N) hc] at h
      rw [wph_await hc]
      obtain ⟨k, hk, hown, hrest⟩ := h
      have hleft : LeftOf H.toWorld p (call c f) := hq [] _ s ((turn_await hc).mpr ⟨rfl, rfl, rfl⟩)
      exact ⟨k, hmarks k c f hk hleft, hown, fun t ht r hr =>
        ih r (fun es q' u hu => hleft.next hr hu) (hrest t ht r hr)⟩

attribute [irreducible] wph

end Coro

open Coro

/-! ### Pools -/

namespace Pool

variable {σ O C : Type} {R : C → Type} {ε K α : Type}

/-- A coroutine that is over leaves no token. -/
def Over (H : Holding σ C R ε K) (_ : Except ε α) (k₀ : K) (s₀ s : σ) : Prop := H.own k₀ s₀ H.idle s

/-- The coroutine waits and holds the token. -/
def Held (H : Holding σ C R ε K) (k : K) (q : Coro σ C R ε α) : Prop :=
  H.marks k α q ∧ ∃ c f, q = .call c f ∧
    ∀ t, H.resumes k t → ∀ r, H.allowed c r t → (f r).wph H (Over H) k t t

/-- An invariant of the tokens of all coroutines that wait, and of the state. -/
structure Balance (H : Holding σ C R ε K) (J : List K → σ → Prop) : Prop where
  resume : ∀ ks k ls s, J (ks ++ k :: ls) s → H.resumes k s
  own : ∀ ks k₀ k ls s t, J (ks ++ k₀ :: ls) s → H.own k₀ s k t → J (ks ++ k :: ls) t
  drop : ∀ ks ls s, J (ks ++ H.idle :: ls) s → J (ks ++ ls) s

/-- The coroutines that wait hold tokens, which are in balance with the state. -/
def Balanced (H : Holding σ C R ε K) (J : List K → σ → Prop) (P : Pool σ C R ε α) : Prop :=
  ∃ ks, List.Forall₂ (Held H) ks P.waiting ∧ J ks P.state

variable {H : Holding σ C R ε K} {J : List K → σ → Prop} {body : O → Coro σ C R ε α}
  {P P' : Pool σ C R ε α}

lemma turnOf_balanced (hJ : Balance H J) {p : Coro σ C R ε α} {before after : List (Coro σ C R ε α)}
    {calls : List (Event C R)} {k₀ : K} {ks ls : List K} (hp : p.wph H (Over H) k₀ P.state P.state)
    (hbefore : List.Forall₂ (Held H) ks before) (hafter : List.Forall₂ (Held H) ls after)
    (hbalance : J (ks ++ k₀ :: ls) P.state) (h : P.TurnOf H.toWorld p before after calls P') :
    ∃ k, H.own k₀ P.state k P'.state ∧ Balanced H J P' := by
  obtain ⟨p', hturn, hwaiting⟩ := h
  rcases wph_turn hp hturn with ⟨x, rfl, hown⟩ | ⟨c, f, k, rfl, hmarks, hown, hrest⟩
  · refine ⟨H.idle, hown, ks ++ ls, ?_, hJ.drop ks ls _ (hJ.own ks k₀ _ ls _ _ hbalance hown)⟩
    rw [hwaiting, left_done, List.append_nil]
    exact List.rel_append hbefore hafter
  · refine ⟨k, hown, ks ++ k :: ls, ?_, hJ.own ks k₀ k ls _ _ hbalance hown⟩
    rw [hwaiting, left_call, List.append_assoc, List.singleton_append]
    exact List.rel_append hbefore (.cons ⟨hmarks, c, f, rfl, hrest⟩ hafter)

/-- **One step** of a pool, in which an operation begins with a token of its own. -/
theorem step_balanced (hJ : Balance H J) {start : O → K} {l : PoolStep O C R}
    (hbegin : ∀ op calls, l = .begin op calls → ∀ ks, J ks P.state →
      J (ks ++ [start op]) P.state ∧ (body op).wph H (Over H) (start op) P.state P.state)
    (hP : Balanced H J P) (h : step H.toWorld body P l P') :
    ∃ ks k₀ ls k, J (ks ++ k₀ :: ls) P.state ∧ H.own k₀ P.state k P'.state ∧ Balanced H J P' := by
  obtain ⟨ks, hks, hbalance⟩ := hP
  cases l with
  | begin op calls =>
    obtain ⟨hstart, hbody⟩ := hbegin op calls rfl ks hbalance
    obtain ⟨k, hown, hP'⟩ := turnOf_balanced hJ hbody hks .nil hstart h
    exact ⟨ks, start op, [], k, hstart, hown, hP'⟩
  | resume answer calls =>
    obtain ⟨before, f, after, hw, hallowed, h⟩ := h
    rw [hw] at hks
    have hbefore := List.forall₂_take_append ks before _ hks
    obtain ⟨k₀, ls, ⟨-, c, g, hcall, hgo⟩, hafter, hdrop⟩ :=
      List.forall₂_cons_right_iff.mp (List.forall₂_drop_append ks before _ hks)
    cases hcall
    rw [← List.take_append_drop before.length ks, hdrop] at hbalance
    have hp := hgo P.state (hJ.resume _ k₀ ls _ hbalance) answer.2 hallowed
    obtain ⟨k, hown, hP'⟩ := turnOf_balanced hJ hp hbefore hafter hbalance h
    exact ⟨_, k₀, ls, k, hbalance, hown, hP'⟩

end Pool

end Orchestrator.Lib
