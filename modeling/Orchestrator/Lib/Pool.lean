import Mathlib.Data.Nat.Notation
import Orchestrator.Lib.Coro
import Orchestrator.Lib.Lts

/-!
Coroutines that share a state, one of which runs at a time: a coroutine runs until it makes a call
that suspends, and any of the others may run before it gets the answer.

`Turn` is one turn, against the answers that the outside world may give in a state. `wpt` is the
weakest precondition for turns: what a turn does to the state is looked at when the turn ends, so
the coroutine is free in between.
-/

namespace Orchestrator.Lib

namespace Coro

variable {σ C : Type} {R : C → Type} {ε α β : Type}

/-- The calls that suspend, and the answers that a call may get in a state. -/
structure World (σ C : Type) (R : C → Type) where
  suspends : C → Bool
  allowed : (c : C) → R c → σ → Prop

/-- Nobody acts while a coroutine waits. -/
def World.alone (W : World σ C R) (c : C) (r : R c) (s t : σ) : Prop := W.allowed c r s ∧ t = s

/-- What a turn of a coroutine may do to the state, and what the others may do to it while the
coroutine waits. -/
structure Discipline (σ C : Type) (R : C → Type) extends World σ C R where
  own : σ → σ → Prop
  others : σ → σ → Prop

variable (W : World σ C R) (D : Discipline σ C R)

/-- `p` started in `s` makes the calls `es`, none of which suspends, and gets to the next
suspending call or to its end: the rest is `p'`, in `s'`. -/
def Turn : Coro σ C R ε α → σ → List (Event C R) → Coro σ C R ε α → σ → Prop
  | done y, s, es, p', s' => es = [] ∧ p' = done y ∧ s' = s
  | get f, s, es, p', s' => (f s).Turn s es p' s'
  | set t p, _, es, p', s' => p.Turn t es p' s'
  | call c f, s, es, p', s' =>
    if W.suspends c then es = [] ∧ p' = call c f ∧ s' = s
    else ∃ r fs, es = ⟨c, r⟩ :: fs ∧ W.allowed c r s ∧ (f r).Turn s fs p' s'

lemma turn_call {W : World σ C R} {c : C} (hc : W.suspends c = false) {f : R c → Coro σ C R ε α}
    {p' : Coro σ C R ε α} {es : List (Event C R)} {s s' : σ} : (call c f).Turn W s es p' s' ↔
      ∃ r fs, es = ⟨c, r⟩ :: fs ∧ W.allowed c r s ∧ (f r).Turn W s fs p' s' := by
  rw [Turn, if_neg (by simp [hc])]

lemma turn_await {W : World σ C R} {c : C} (hc : W.suspends c = true) {f : R c → Coro σ C R ε α}
    {p' : Coro σ C R ε α} {es : List (Event C R)} {s s' : σ} :
    (call c f).Turn W s es p' s' ↔ es = [] ∧ p' = call c f ∧ s' = s := by
  rw [Turn, if_pos hc]

/-- The answers determine a turn. -/
lemma Turn.unique {W : World σ C R} {p p' q' : Coro σ C R ε α} {s s' t' : σ} {es : List (Event C R)}
    (h : p.Turn W s es p' s') (h' : p.Turn W s es q' t') : p' = q' ∧ s' = t' := by
  induction p generalizing s es with
  | done y =>
    obtain ⟨-, rfl, rfl⟩ := h
    obtain ⟨-, rfl, rfl⟩ := h'
    exact ⟨rfl, rfl⟩
  | get f ih => exact ih s h h'
  | set t p ih => exact ih h h'
  | call c f ih =>
    cases hc : W.suspends c with
    | false =>
      obtain ⟨r, fs, rfl, -, h⟩ := (turn_call hc).mp h
      obtain ⟨r', fs', hes, -, h'⟩ := (turn_call hc).mp h'
      obtain ⟨hevent, rfl⟩ := List.cons.inj hes
      obtain rfl : r = r' := eq_of_heq (Sigma.mk.inj hevent).2
      exact ih r h h'
    | true =>
      obtain ⟨-, rfl, rfl⟩ := (turn_await hc).mp h
      obtain ⟨-, rfl, rfl⟩ := (turn_await hc).mp h'
      exact ⟨rfl, rfl⟩

/-- A turn ends at a call that suspends or at the end. -/
lemma turn_suspends {W : World σ C R} {p : Coro σ C R ε α} {c : C} {f : R c → Coro σ C R ε α}
    {s s' : σ} {es : List (Event C R)} (h : p.Turn W s es (call c f) s') : W.suspends c = true := by
  induction p generalizing s es with
  | done y => cases h.2.1
  | get g ih => exact ih s h
  | set t p ih => exact ih h
  | call d g ih =>
    cases hd : W.suspends d with
    | false =>
      obtain ⟨r, fs, -, -, h⟩ := (turn_call hd).mp h
      exact ih r h
    | true =>
      obtain ⟨-, hp, -⟩ := (turn_await hd).mp h
      cases hp
      exact hd

/-- The world whose answers are all in `G` as well. -/
def World.only (G : Event C R → Prop) : World σ C R where
  suspends := W.suspends
  allowed c r s := W.allowed c r s ∧ G ⟨c, r⟩

lemma Turn.only {W : World σ C R} {G : Event C R → Prop} {p p' : Coro σ C R ε α} {s s' : σ}
    {es : List (Event C R)} (h : p.Turn W s es p' s') (hes : ∀ e ∈ es, G e) :
    p.Turn (W.only G) s es p' s' := by
  induction p generalizing s es with
  | done y => exact h
  | get f ih => exact ih s h hes
  | set t p ih => exact ih h hes
  | call c f ih =>
    cases hc : W.suspends c with
    | false =>
      obtain ⟨r, fs, rfl, hr, h⟩ := (turn_call hc).mp h
      rw [List.forall_mem_cons] at hes
      exact (turn_call (W := W.only G) hc).mpr ⟨r, fs, rfl, ⟨hr, hes.1⟩, ih r h hes.2⟩
    | true => exact (turn_await (W := W.only G) hc).mpr ((turn_await hc).mp h)

/-- In a turn that began in `s₀` and is now in `s`, the rest of `p` keeps to the discipline and ends
in `Q`, of the result, the state in which its last turn began and the last state. -/
def wpt : Coro σ C R ε α → (Except ε α → σ → σ → Prop) → σ → σ → Prop
  | done x, Q, s₀, s => Q x s₀ s
  | get f, Q, s₀, s => (f s).wpt Q s₀ s
  | set t p, Q, s₀, _ => p.wpt Q s₀ t
  | call c f, Q, s₀, s =>
    if D.suspends c then
      D.own s₀ s ∧ ∀ t, D.others s t → ∀ r, D.allowed c r t → (f r).wpt Q t t
    else ∀ r, D.allowed c r s → (f r).wpt Q s₀ s

variable {D} {Q Q' : Except ε α → σ → σ → Prop} {s₀ s s' : σ}

@[simp] lemma wpt_done {x : Except ε α} : (done x : Coro σ C R ε α).wpt D Q s₀ s ↔ Q x s₀ s :=
  Iff.rfl
@[simp] lemma wpt_get {f : σ → Coro σ C R ε α} :
    (get f).wpt D Q s₀ s ↔ (f s).wpt D Q s₀ s := Iff.rfl
@[simp] lemma wpt_set {t : σ} {p : Coro σ C R ε α} :
    (set t p).wpt D Q s₀ s ↔ p.wpt D Q s₀ t := Iff.rfl

lemma wpt_call {c : C} {f : R c → Coro σ C R ε α} (h : D.suspends c = false) :
    (call c f).wpt D Q s₀ s ↔ ∀ r, D.allowed c r s → (f r).wpt D Q s₀ s := by
  rw [wpt, if_neg (by simp [h])]

lemma wpt_await {c : C} {f : R c → Coro σ C R ε α} (h : D.suspends c = true) :
    (call c f).wpt D Q s₀ s ↔
      D.own s₀ s ∧ ∀ t, D.others s t → ∀ r, D.allowed c r t → (f r).wpt D Q t t := by
  rw [wpt, if_pos h]

lemma wpt_mono {p : Coro σ C R ε α} (h : p.wpt D Q s₀ s) (hQ : ∀ x t₀ t, Q x t₀ t → Q' x t₀ t) :
    p.wpt D Q' s₀ s := by
  induction p generalizing s₀ s with
  | done x => exact hQ _ _ _ h
  | get f ih => exact ih s h
  | set t p ih => exact ih h
  | call c f ih =>
    cases hc : D.suspends c with
    | false =>
      rw [wpt_call hc] at h ⊢
      exact fun r hr => ih r (h r hr)
    | true =>
      rw [wpt_await hc] at h ⊢
      exact ⟨h.1, fun t ht r hr => ih r (h.2 t ht r hr)⟩

/-- **Sequencing.** -/
theorem wpt_after {p : Coro σ C R ε α} {k : Except ε α → Coro σ C R ε β}
    {Q : Except ε β → σ → σ → Prop} (h : p.wpt D (fun x t₀ t => (k x).wpt D Q t₀ t) s₀ s) :
    (p.after k).wpt D Q s₀ s := by
  induction p generalizing s₀ s with
  | done x => exact h
  | get f ih => exact ih s h
  | set t p ih => exact ih h
  | call c f ih =>
    rw [after_call]
    cases hc : D.suspends c with
    | false =>
      rw [wpt_call hc] at h ⊢
      exact fun r hr => ih r (h r hr)
    | true =>
      rw [wpt_await hc] at h ⊢
      exact ⟨h.1, fun t ht r hr => ih r (h.2 t ht r hr)⟩

/-- **One turn** of a coroutine that keeps to the discipline: it ends as the precondition says, or
waits, and then the rest keeps to it whatever the others do. -/
theorem wpt_turn {p p' : Coro σ C R ε α} {es : List (Event C R)} (h : p.wpt D Q s₀ s)
    (ht : p.Turn D.toWorld s es p' s') :
    (∃ x, p' = done x ∧ Q x s₀ s') ∨
      ∃ c f, p' = call c f ∧ D.own s₀ s' ∧
        ∀ t, D.others s' t → ∀ r, D.allowed c r t → (f r).wpt D Q t t := by
  induction p generalizing s es with
  | done x =>
    obtain ⟨-, rfl, rfl⟩ := ht
    exact Or.inl ⟨x, rfl, h⟩
  | get f ih => exact ih s h ht
  | set t p ih => exact ih h ht
  | call c f ih =>
    rw [Turn] at ht
    cases hc : D.suspends c with
    | false =>
      rw [if_neg (by simp [hc])] at ht
      obtain ⟨r, fs, -, hr, ht⟩ := ht
      rw [wpt_call hc] at h
      exact ih r (h r hr) ht
    | true =>
      rw [if_pos hc] at ht
      obtain ⟨-, rfl, rfl⟩ := ht
      rw [wpt_await hc] at h
      exact Or.inr ⟨c, f, rfl, h⟩

/-! ### Results -/

/-- With answers in `G`, the results of `p` are in `E`. -/
def Results (G : Event C R → Prop) (E : Except ε α → Prop) : Coro σ C R ε α → Prop
  | done x => E x
  | get f => ∀ s, (f s).Results G E
  | set _ p => p.Results G E
  | call c f => ∀ r, G ⟨c, r⟩ → (f r).Results G E

lemma results_after {G : Event C R → Prop} {F : Except ε α → Prop} {E : Except ε β → Prop}
    {p : Coro σ C R ε α} {k : Except ε α → Coro σ C R ε β} (hp : p.Results G F)
    (hk : ∀ x, F x → (k x).Results G E) : (p.after k).Results G E := by
  induction p with
  | done x => exact hk x hp
  | get f ih => exact fun s => ih s (hp s)
  | set t p ih => exact ih hp
  | call c f ih => exact fun r hr => ih r (hp r hr)

/-! ### What every turn keeps -/

/-- Every turn, of this coroutine and of the others, ends in `I`. -/
def keeping (W : World σ C R) (I : σ → Prop) : Discipline σ C R where
  toWorld := W
  own _ t := I t
  others _ t := I t

/-- From `A`, `p` ends in `Q`, and keeps `I` wherever it waits. -/
def Triple (W : World σ C R) (I A : σ → Prop) (p : Coro σ C R ε α)
    (Q : Except ε α → σ → Prop) : Prop :=
  ∀ s₀ s, A s → p.wpt (keeping W I) (fun x _ t => Q x t) s₀ s

variable {W} {I A B : σ → Prop} {M : Except ε α → σ → Prop} {T : Except ε β → σ → Prop}

namespace Triple

lemma of_done {x : Except ε α} (h : ∀ s, A s → M x s) : Triple W I A (done x) M :=
  fun _ s hs => h s hs

lemma weaken {p : Coro σ C R ε α} {N : Except ε α → σ → Prop} (h : Triple W I B p N)
    (hA : ∀ s, A s → B s) (hN : ∀ x s, N x s → M x s) : Triple W I A p M :=
  fun s₀ s hs => wpt_mono (h s₀ s (hA s hs)) fun x _ t => hN x t

lemma seq {p : Coro σ C R ε α} {k : Except ε α → Coro σ C R ε β} (h : Triple W I A p M)
    (hk : ∀ x, Triple W I (M x) (k x) T) : Triple W I A (p.after k) T :=
  fun s₀ s hs => wpt_after (wpt_mono (h s₀ s hs) fun x t₀ t ht => hk x t₀ t ht)

/-- Sequencing after a normal result. -/
lemma bind {p : Coro σ C R ε α} {k : α → Coro σ C R ε β} (h : Triple W I A p M)
    (hk : ∀ a, Triple W I (M (.ok a)) (k a) T) (he : ∀ e s, M (.error e) s → T (.error e) s) :
    Triple W I A (p.after (onOk k)) T := by
  refine h.seq fun x => ?_
  cases x with
  | ok a => exact hk a
  | error e => exact of_done (he e)

lemma of_get {f : σ → Coro σ C R ε α} (h : ∀ t, Triple W I (fun s => s = t ∧ A s) (f t) M) :
    Triple W I A (get f) M := fun s₀ s hs => h s s₀ s ⟨rfl, hs⟩

lemma quiet {c : C} {f : R c → Coro σ C R ε α} (hc : W.suspends c = false)
    (h : ∀ r, Triple W I (fun s => A s ∧ W.allowed c r s) (f r) M) : Triple W I A (call c f) M := by
  intro s₀ s hs
  rw [wpt_call (D := keeping W I) hc]
  exact fun r hr => h r s₀ s ⟨hs, hr⟩

lemma await {c : C} {f : R c → Coro σ C R ε α} (hc : W.suspends c = true) (hI : ∀ s, A s → I s)
    (h : ∀ r, Triple W I I (f r) M) : Triple W I A (call c f) M := by
  intro s₀ s hs
  rw [wpt_await (D := keeping W I) hc]
  exact ⟨hI s hs, fun t ht r _ => h r t t ht⟩

/-- A call of either kind, where `I` holds. -/
lemma ask {c : C} {f : R c → Coro σ C R ε α} (h : ∀ r, Triple W I I (f r) M) :
    Triple W I I (call c f) M := by
  cases hc : W.suspends c with
  | false => exact quiet hc fun r => (h r).weaken (fun s hs => hs.1) fun _ _ hx => hx
  | true => exact await hc (fun _ hs => hs) h

/-- A normal end in `L`, or an exception in `X`. -/
def Ends (L : σ → Prop) (X : ε → σ → Prop) : Except ε α → σ → Prop
  | .ok _, s => L s
  | .error e, s => X e s

/-- A normal end, with result and state in `N`. -/
def Returns (N : α → σ → Prop) : Except ε α → σ → Prop
  | .ok a, s => N a s
  | .error _, _ => False

/-- Conjunction. -/
lemma and {p : Coro σ C R ε α} {N : Except ε α → σ → Prop} (h : Triple W I A p M)
    (h' : Triple W I B p N) : Triple W I (fun s => A s ∧ B s) p fun x s => M x s ∧ N x s := by
  have hand : ∀ s₀ s, p.wpt (keeping W I) (fun x _ t => M x t) s₀ s →
      p.wpt (keeping W I) (fun x _ t => N x t) s₀ s →
        p.wpt (keeping W I) (fun x _ t => M x t ∧ N x t) s₀ s := by
    clear h h'
    induction p with
    | done x => exact fun _ _ h h' => ⟨h, h'⟩
    | get f ih => exact fun s₀ s h h' => ih s s₀ s h h'
    | set t p ih => exact fun s₀ s h h' => ih s₀ t h h'
    | call c f ih =>
      intro s₀ s h h'
      cases hc : W.suspends c with
      | false =>
        rw [wpt_call (D := keeping W I) hc] at h h' ⊢
        exact fun r hr => ih r s₀ s (h r hr) (h' r hr)
      | true =>
        rw [wpt_await (D := keeping W I) hc] at h h' ⊢
        exact ⟨h.1, fun t ht r hr => ih r t t (h.2 t ht r hr) (h'.2 t ht r hr)⟩
  exact fun s₀ s hs => hand s₀ s (h s₀ s hs.1) (h' s₀ s hs.2)

/-- Sequencing after a normal end. -/
lemma next {p : Coro σ C R ε α} {k : α → Coro σ C R ε β} {N : α → σ → Prop}
    (h : Triple W I A p (Returns N)) (hk : ∀ a, Triple W I (N a) (k a) T) :
    Triple W I A (p.after (onOk k)) T := h.bind hk fun _ _ hs => hs.elim

/-- A loop, where `L` holds of the elements that are left. -/
lemma of_mapEach {f : α → Coro σ C R ε β} {L : List α → σ → Prop} {X : ε → σ → Prop}
    (h : ∀ a l, Triple W I (L (a :: l)) (f a) (Ends (L l) X)) (l : List α) :
    Triple W I (L l) (mapEach f l) (Ends (L []) X) := by
  induction l with
  | nil => exact of_done fun _ hs => hs
  | cons a l ih =>
    refine (h a l).bind (fun b => ?_) fun _ _ hs => hs
    exact ih.bind (fun bs => of_done fun _ hs => hs) fun _ _ hs => hs

/-- A run during which nobody else acts. -/
lemma runs {p : Coro σ C R ε α} (h : Triple W I A p M) {s s' : σ} {es : List (Event C R)}
    {x : Except ε α} (hr : p.Runs W.alone s es x s') (hs : A s) : M x s' := by
  have hend : ∀ s₀ s es, p.wpt (keeping W I) (fun x _ t => M x t) s₀ s →
      p.Runs W.alone s es x s' → M x s' := by
    clear h hr hs
    induction p with
    | done y =>
      intro _ _ _ h hr
      obtain ⟨-, rfl, rfl⟩ := runs_done.mp hr
      exact h
    | get f ih => exact fun s₀ s es h hr => ih s s₀ s es h (runs_get.mp hr)
    | set t p ih => exact fun s₀ s es h hr => ih s₀ t es h (runs_set.mp hr)
    | call c f ih =>
      intro s₀ s es h hr
      obtain ⟨r, _, fs, -, ⟨hallowed, rfl⟩, hrest⟩ := runs_call.mp hr
      cases hc : W.suspends c with
      | false => exact ih r s₀ _ fs ((wpt_call (D := keeping W I) hc).mp h r hallowed) hrest
      | true =>
        obtain ⟨hI, h⟩ := (wpt_await (D := keeping W I) hc).mp h
        exact ih r _ _ fs (h _ hI r hallowed) hrest
  exact hend s s es (h s s hs) hr

end Triple

/-- `p` keeps `I`, and its normal results are in `R`. -/
def Keeps (W : World σ C R) (I : σ → Prop) (p : Coro σ C R ε α) (G : α → Prop) : Prop :=
  Triple W I I p fun x s => I s ∧ ∀ a, x = .ok a → G a

namespace Keeps

variable {G : α → Prop} {H : β → Prop}

lemma pure {a : α} (h : G a) : Keeps W I (done (.ok a) : Coro σ C R ε α) G :=
  Triple.of_done fun _ hs => ⟨hs, fun _ ha => Except.ok.inj ha ▸ h⟩

lemma raise (e : ε) : Keeps W I (done (.error e) : Coro σ C R ε α) G :=
  Triple.of_done fun _ hs => ⟨hs, nofun⟩

lemma mono {p : Coro σ C R ε α} {G' : α → Prop} (h : Keeps W I p G) (hG : ∀ a, G a → G' a) :
    Keeps W I p G' :=
  Triple.weaken h (fun _ hs => hs) fun _ _ hx => ⟨hx.1, fun a ha => hG a (hx.2 a ha)⟩

lemma seq {p : Coro σ C R ε α} {k : Except ε α → Coro σ C R ε β} (h : Keeps W I p G)
    (hk : ∀ x, (∀ a, x = .ok a → G a) → Keeps W I (k x) H) : Keeps W I (p.after k) H :=
  Triple.seq h fun x s₀ s hs => hk x hs.2 s₀ s hs.1

lemma bind {p : Coro σ C R ε α} {k : α → Coro σ C R ε β} (h : Keeps W I p G)
    (hk : ∀ a, G a → Keeps W I (k a) H) : Keeps W I (p.after (onOk k)) H := by
  refine h.seq fun x hx => ?_
  cases x with
  | ok a => exact hk a (hx a rfl)
  | error e => exact raise e

lemma get {f : σ → Coro σ C R ε α} (h : ∀ t, I t → Keeps W I (f t) G) : Keeps W I (Coro.get f) G :=
  fun s₀ s hs => h s hs s₀ s hs

lemma ask {c : C} {f : R c → Coro σ C R ε α} (h : ∀ r, Keeps W I (f r) G) :
    Keeps W I (call c f) G := Triple.ask h

lemma mapEach {f : α → Coro σ C R ε β} (h : ∀ a, Keeps W I (f a) H) (l : List α) :
    Keeps W I (Coro.mapEach f l) fun bs => ∀ b ∈ bs, H b := by
  induction l with
  | nil => exact pure (by simp)
  | cons a l ih =>
    refine (h a).bind fun b hb => ih.bind fun bs hbs => pure ?_
    rw [List.forall_mem_cons]
    exact ⟨hb, hbs⟩

lemma forEach {f : α → Coro σ C R ε Unit} (h : ∀ a, Keeps W I (f a) fun _ => True) (l : List α) :
    Keeps W I (Coro.forEach f l) fun _ => True := by
  induction l with
  | nil => exact pure trivial
  | cons a l ih => exact (h a).bind fun _ _ => ih

end Keeps

/-- The turn in which `o` answers. -/
def turnWith (W : World σ C R) (o : (c : C) → σ → R c) :
    Coro σ C R ε α → σ → List (Event C R) × Coro σ C R ε α × σ
  | done y, s => ([], done y, s)
  | get f, s => (f s).turnWith W o s
  | set t p, _ => p.turnWith W o t
  | call c f, s =>
    if W.suspends c then ([], call c f, s)
    else
      let r := (f (o c s)).turnWith W o s
      (⟨c, o c s⟩ :: r.1, r.2)

lemma turn_turnWith {o : (c : C) → σ → R c} (ho : ∀ c s, W.allowed c (o c s) s)
    (p : Coro σ C R ε α) (s : σ) :
    p.Turn W s (p.turnWith W o s).1 (p.turnWith W o s).2.1 (p.turnWith W o s).2.2 := by
  induction p generalizing s with
  | done y => exact ⟨rfl, rfl, rfl⟩
  | get f ih => exact ih s s
  | set t p ih => exact ih t
  | call c f ih =>
    rw [Turn, turnWith]
    split
    · exact ⟨rfl, rfl, rfl⟩
    · exact ⟨o c s, _, rfl, ho c s, ih (o c s) s⟩

/-- The calls of the turn are answered by `o`. -/
lemma mem_turnWith {o : (c : C) → σ → R c} (p : Coro σ C R ε α) (s : σ) :
    ∀ e ∈ (p.turnWith W o s).1, ∃ t, e.2 = o e.1 t := by
  induction p generalizing s with
  | done y => exact fun e he => absurd he List.not_mem_nil
  | get f ih => exact ih s s
  | set t p ih => exact ih t
  | call c f ih =>
    rw [turnWith]
    split
    · exact fun e he => absurd he List.not_mem_nil
    · exact List.forall_mem_cons.mpr ⟨⟨s, rfl⟩, ih (o c s) s⟩

-- the elaborator is not to run a concrete coroutine when it looks at a statement about its turns
attribute [irreducible] Turn wpt

end Coro

open Coro

/-! ### Pools -/

/-- The shared state and the coroutines that wait for an answer. -/
structure Pool (σ C : Type) (R : C → Type) (ε α : Type) where
  state : σ
  waiting : List (Coro σ C R ε α)

/-- What happens in a pool: an operation begins, or a waiting coroutine gets its answer; then the
coroutine makes the calls `calls` of its turn. -/
inductive PoolStep (O C : Type) (R : C → Type)
  | begin (op : O) (calls : List (Event C R))
  | resume (answer : Event C R) (calls : List (Event C R))

/-- The calls of a step with their answers. -/
def PoolStep.events {O C : Type} {R : C → Type} : PoolStep O C R → List (Event C R)
  | begin _ calls => calls
  | resume answer calls => answer :: calls

namespace Pool

variable {σ O C : Type} {R : C → Type} {ε α : Type}

/-- What is left of a coroutine after its turn. -/
def left : Coro σ C R ε α → List (Coro σ C R ε α)
  | .done _ => []
  | p => [p]

@[simp] lemma left_done (x : Except ε α) : left (.done x : Coro σ C R ε α) = [] := rfl
@[simp] lemma left_call (c : C) (f : R c → Coro σ C R ε α) : left (.call c f) = [.call c f] := rfl

/-- One turn in a pool, of `p`, which stands between others. -/
def TurnOf (W : World σ C R) (P : Pool σ C R ε α) (p : Coro σ C R ε α)
    (before after : List (Coro σ C R ε α)) (calls : List (Event C R))
    (P' : Pool σ C R ε α) : Prop :=
  ∃ p', p.Turn W P.state calls p' P'.state ∧ P'.waiting = before ++ left p' ++ after

/-- The answers determine what a turn does. -/
lemma TurnOf.unique {W : World σ C R} {P P' P'' : Pool σ C R ε α} {p : Coro σ C R ε α}
    {before after : List (Coro σ C R ε α)} {calls : List (Event C R)}
    (h : P.TurnOf W p before after calls P') (h' : P.TurnOf W p before after calls P'') :
    P' = P'' := by
  obtain ⟨p', hturn, hwaiting⟩ := h
  obtain ⟨p'', hturn', hwaiting'⟩ := h'
  obtain ⟨rfl, hstate⟩ := hturn.unique hturn'
  cases P'
  cases P''
  exact congrArg₂ Pool.mk hstate (hwaiting.trans hwaiting'.symm)

def step (W : World σ C R) (body : O → Coro σ C R ε α) (P : Pool σ C R ε α)
    (l : PoolStep O C R) (P' : Pool σ C R ε α) : Prop :=
  match l with
  | .begin op calls => P.TurnOf W (body op) P.waiting [] calls P'
  | .resume answer calls => ∃ before f after, P.waiting = before ++ .call answer.1 f :: after ∧
      W.allowed answer.1 answer.2 P.state ∧ P.TurnOf W (f answer.2) before after calls P'

def lts (W : World σ C R) (body : O → Coro σ C R ε α) (init : σ → Prop) :
    Lts (Pool σ C R ε α) (PoolStep O C R) where
  init P := init P.state ∧ P.waiting = []
  step := step W body

lemma step_only {W : World σ C R} {body : O → Coro σ C R ε α} {P P' : Pool σ C R ε α}
    {l : PoolStep O C R} {G : Event C R → Prop} (h : step W body P l P')
    (hl : ∀ e ∈ l.events, G e) :
    step (W.only G) body P l P' := by
  cases l with
  | begin op calls =>
    obtain ⟨p', hturn, hw⟩ := h
    exact ⟨p', hturn.only hl, hw⟩
  | resume answer calls =>
    rw [PoolStep.events, List.forall_mem_cons] at hl
    obtain ⟨before, f, after, hw, hallowed, p', hturn, hleft⟩ := h
    exact ⟨before, f, after, hw, ⟨hallowed, hl.1⟩, p', hturn.only hl.2, hleft⟩

/-- `p` waits, and its rest keeps to the discipline, whatever the others do first. -/
def Waits (D : Discipline σ C R) (p : Coro σ C R ε α) (s : σ) : Prop :=
  ∃ c f, p = .call c f ∧ ∀ t, D.others s t → ∀ r, D.allowed c r t →
    (f r).wpt D (fun _ => D.own) t t

/-- The pool in which an operation has begun, with a turn in which `o` answers. -/
def beginWith (W : World σ C R) (body : O → Coro σ C R ε α) (o : (c : C) → σ → R c)
    (P : Pool σ C R ε α) (op : O) : Pool σ C R ε α where
  state := ((body op).turnWith W o P.state).2.2
  waiting := P.waiting ++ left ((body op).turnWith W o P.state).2.1

lemma step_beginWith {W : World σ C R} {body : O → Coro σ C R ε α} {o : (c : C) → σ → R c}
    (ho : ∀ c s, W.allowed c (o c s) s) (P : Pool σ C R ε α) (op : O) :
    step W body P (.begin op ((body op).turnWith W o P.state).1) (P.beginWith W body o op) :=
  ⟨_, turn_turnWith ho (body op) P.state, (List.append_nil _).symm⟩

/-- The pool in which the `n`th coroutine that waits has gone on, with a turn in which `o`
answers. -/
def resumeWith (W : World σ C R) (o : (c : C) → σ → R c) (n : ℕ) (P : Pool σ C R ε α) :
    Pool σ C R ε α :=
  match P.waiting[n]? with
  | some (.call c f) =>
    let turn := (f (o c P.state)).turnWith W o P.state
    ⟨turn.2.2, P.waiting.take n ++ left turn.2.1 ++ P.waiting.drop (n + 1)⟩
  | _ => P

lemma step_resumeWith {W : World σ C R} (body : O → Coro σ C R ε α) {o : (c : C) → σ → R c}
    (ho : ∀ c s, W.allowed c (o c s) s) (n : ℕ) (P : Pool σ C R ε α) :
    P.resumeWith W o n = P ∨ ∃ answer calls, step W body P (.resume answer calls)
      (P.resumeWith W o n) ∧
      ∀ e ∈ answer :: calls, ∃ t, e.2 = o e.1 t := by
  unfold resumeWith
  split
  · next c f hn =>
    obtain ⟨hlt, hget⟩ := List.getElem?_eq_some_iff.mp hn
    refine Or.inr ⟨⟨c, o c P.state⟩, ((f (o c P.state)).turnWith W o P.state).1,
      ⟨P.waiting.take n, f, P.waiting.drop (n + 1), ?_, ho c P.state, _, turn_turnWith ho _ _,
        rfl⟩, ?_⟩
    · rw [← hget, ← List.drop_eq_getElem_cons hlt, List.take_append_drop]
    · exact List.forall_mem_cons.mpr ⟨⟨_, rfl⟩, mem_turnWith _ _⟩
  · exact Or.inl rfl

variable {D : Discipline σ C R} {body : O → Coro σ C R ε α} {P P' : Pool σ C R ε α}

lemma Waits.others (htrans : ∀ s t u, D.others s t → D.others t u → D.others s u)
    {p : Coro σ C R ε α} {s t : σ} (h : Waits D p s) (ht : D.others s t) : Waits D p t := by
  obtain ⟨c, f, rfl, hf⟩ := h
  exact ⟨c, f, rfl, fun u hu => hf u (htrans s t u ht hu)⟩

lemma turnOf_keeps (hothers : ∀ s t, D.own s t → D.others s t)
    (htrans : ∀ s t u, D.others s t → D.others t u → D.others s u) {p : Coro σ C R ε α}
    {before after : List (Coro σ C R ε α)} {calls : List (Event C R)}
    (hp : p.wpt D (fun _ => D.own) P.state P.state)
    (hwait : ∀ q ∈ before ++ after, Waits D q P.state)
    (h : P.TurnOf D.toWorld p before after calls P') :
    D.own P.state P'.state ∧ ∀ q ∈ P'.waiting, Waits D q P'.state := by
  obtain ⟨p', hturn, hwaiting⟩ := h
  have hstay : D.own P.state P'.state → ∀ q ∈ before ++ after, Waits D q P'.state :=
    fun hown q hq => (hwait q hq).others htrans (hothers _ _ hown)
  rw [hwaiting]
  rcases wpt_turn hp hturn with ⟨x, rfl, hown⟩ | ⟨c, f, rfl, hown, hrest⟩
  · refine ⟨hown, fun q hq => hstay hown q ?_⟩
    simpa using hq
  · refine ⟨hown, fun q hq => ?_⟩
    rw [List.append_assoc, List.mem_append, List.mem_append, left_call,
      List.mem_singleton] at hq
    rcases hq with hq | rfl | hq
    · exact hstay hown q (List.mem_append_left _ hq)
    · exact ⟨c, f, rfl, hrest⟩
    · exact hstay hown q (List.mem_append_right _ hq)

/-- **One step** of a pool whose operations all keep to the discipline. -/
theorem step_keeps {I : σ → Prop} (hothers : ∀ s t, D.own s t → D.others s t)
    (htrans : ∀ s t u, D.others s t → D.others t u → D.others s u)
    (hrefl : ∀ s, I s → D.others s s)
    (hbody : ∀ op s, I s → (body op).wpt D (fun _ => D.own) s s) (hI : I P.state)
    (hwait : ∀ q ∈ P.waiting, Waits D q P.state) {l : PoolStep O C R}
    (h : step D.toWorld body P l P') :
    D.own P.state P'.state ∧ ∀ q ∈ P'.waiting, Waits D q P'.state := by
  cases l with
  | begin op calls =>
    refine turnOf_keeps hothers htrans (hbody op _ hI) (fun q hq => hwait q ?_) h
    rwa [List.append_nil] at hq
  | resume answer calls =>
    obtain ⟨before, f, after, hw, hallowed, h⟩ := h
    obtain ⟨c, g, hcall, hrest⟩ := hwait (.call answer.1 f) (by rw [hw]; simp)
    cases hcall
    refine turnOf_keeps hothers htrans (hrest _ (hrefl _ hI) _ hallowed) (fun q hq => hwait q ?_) h
    rw [hw]
    rcases List.mem_append.mp hq with hq | hq
    · exact List.mem_append_left _ hq
    · exact List.mem_append_right _ (List.mem_cons_of_mem _ hq)

/-- **Runs** of a pool: what every turn keeps, the pool keeps, and each step is a turn. -/
theorem reachable_keeps {I : σ → Prop} {init : σ → Prop}
    {A : Pool σ C R ε α → PoolStep O C R → Prop}
    (hothers : ∀ s t, D.own s t → D.others s t)
    (htrans : ∀ s t u, D.others s t → D.others t u → D.others s u)
    (hrefl : ∀ s, I s → D.others s s)
    (hinit : ∀ s, init s → I s) (hI : ∀ s t, D.own s t → I s → I t)
    (hbody : ∀ op s, I s → (body op).wpt D (fun _ => D.own) s s)
    (h : (lts D.toWorld body init).Reachable A P) :
    I P.state ∧ ∀ q ∈ P.waiting, Waits D q P.state := by
  refine h.invariant (I := fun P => I P.state ∧ ∀ q ∈ P.waiting, Waits D q P.state)
    (fun P hP => ?_) fun P l P' hP _ hstep => ?_
  · refine ⟨hinit _ hP.1, ?_⟩
    rw [hP.2]
    exact fun q hq => absurd hq List.not_mem_nil
  obtain ⟨hown, hwait⟩ := step_keeps hothers htrans hrefl hbody hP.1 hP.2 hstep
  exact ⟨hI _ _ hown hP.1, hwait⟩

/-- **An invariant of a pool**: what every operation keeps holds in every reachable state. -/
theorem reachable_invariant {W : World σ C R} {I init : σ → Prop}
    {A : Pool σ C R ε α → PoolStep O C R → Prop} (hinit : ∀ s, init s → I s)
    (hbody : ∀ op, Keeps W I (body op) fun _ => True)
    (h : (lts W body init).Reachable A P) : I P.state := by
  have hkeeps := reachable_keeps (D := keeping W I) (fun _ _ ht => ht) (fun _ _ _ _ ht => ht)
    (fun _ hs => hs) hinit (fun _ _ ht _ => ht)
    (fun op s hs => wpt_mono (hbody op s s hs) fun _ _ _ hx => hx.1) h
  exact hkeeps.1

end Pool

end Orchestrator.Lib
