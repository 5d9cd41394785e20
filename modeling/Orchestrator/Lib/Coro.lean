import Mathlib.Init

/-!
Coroutines over a shared state, as trees: straight-line code reads and writes the state, a
call hands a request to the outside world and continues with its answer, and a leaf is a
result or an exception.

Exceptions are ordinary results, so `try`, `except` and `finally` are instances of one
sequencing operation, `after`, which passes the result of a coroutine, normal or not, to a
continuation. `Runs` is the semantics of a whole run, over all answers and over what others do
to the state during a call; `Advance` is that of one turn, up to the next call that suspends.
`wp` is the weakest precondition that is sound for both.
-/

namespace Orchestrator.Lib

inductive Coro (σ C : Type) (R : C → Type) (ε α : Type) : Type
  | done (x : Except ε α)
  | get (k : σ → Coro σ C R ε α)
  | set (s : σ) (k : Coro σ C R ε α)
  | call (c : C) (k : R c → Coro σ C R ε α)

namespace Coro

variable {σ C : Type} {R : C → Type} {ε α β γ : Type}

/-- Run `p`, then the continuation on its result, normal or exceptional. -/
def after : Coro σ C R ε α → (Except ε α → Coro σ C R ε β) → Coro σ C R ε β
  | done x, k => k x
  | get f, k => get fun s => (f s).after k
  | set s p, k => set s (p.after k)
  | call c f, k => call c fun r => (f r).after k

@[simp] lemma after_done (x : Except ε α) (k : Except ε α → Coro σ C R ε β) :
    (done x : Coro σ C R ε α).after k = k x := rfl
@[simp] lemma after_get (f : σ → Coro σ C R ε α) (k : Except ε α → Coro σ C R ε β) :
    (get f).after k = get fun s => (f s).after k := rfl
@[simp] lemma after_set (s : σ) (p : Coro σ C R ε α) (k : Except ε α → Coro σ C R ε β) :
    (set s p).after k = set s (p.after k) := rfl
@[simp] lemma after_call (c : C) (f : R c → Coro σ C R ε α) (k : Except ε α → Coro σ C R ε β) :
    (call c f).after k = call c fun r => (f r).after k := rfl

lemma after_assoc (p : Coro σ C R ε α) (k : Except ε α → Coro σ C R ε β)
    (l : Except ε β → Coro σ C R ε γ) : (p.after k).after l = p.after fun x => (k x).after l := by
  induction p with
  | done x => rfl
  | get f ih => simp only [after_get, ih]
  | set s p ih => simp only [after_set, ih]
  | call c f ih => simp only [after_call, ih]

lemma after_done_right (p : Coro σ C R ε α) : p.after .done = p := by
  induction p with
  | done x => rfl
  | get f ih => simp only [after_get, ih]
  | set s p ih => simp only [after_set, ih]
  | call c f ih => simp only [after_call, ih]

/-- The continuation that leaves an exception alone. -/
def onOk (f : α → Coro σ C R ε β) : Except ε α → Coro σ C R ε β
  | .ok a => f a
  | .error e => done (.error e)

@[simp] lemma onOk_ok (f : α → Coro σ C R ε β) (a : α) : onOk f (.ok a) = f a := rfl
@[simp] lemma onOk_error (f : α → Coro σ C R ε β) (e : ε) :
    onOk f (.error e) = done (.error e) := rfl

lemma after_onOk_assoc (p : Coro σ C R ε α) (f : α → Coro σ C R ε β) (g : β → Coro σ C R ε γ) :
    (p.after (onOk f)).after (onOk g) = p.after (onOk fun a => (f a).after (onOk g)) := by
  rw [after_assoc]
  refine congrArg p.after (funext fun x => ?_)
  cases x <;> rfl

instance : Monad (Coro σ C R ε) where
  pure a := done (.ok a)
  bind p f := p.after (onOk f)

lemma pure_eq (a : α) : (pure a : Coro σ C R ε α) = done (.ok a) := rfl
lemma bind_eq (p : Coro σ C R ε α) (f : α → Coro σ C R ε β) : p >>= f = p.after (onOk f) := rfl

def raise (e : ε) : Coro σ C R ε α := done (.error e)
def read : Coro σ C R ε σ := get fun s => done (.ok s)
def update (f : σ → σ) : Coro σ C R ε Unit := get fun s => set (f s) (done (.ok ()))
def ask (c : C) : Coro σ C R ε (R c) := call c fun r => done (.ok r)
/-- A result that is already there. -/
def lift (x : Except ε α) : Coro σ C R ε α := done x

/-- `try p except e: h e`; the handler passes on what it does not catch. -/
def tryWith (p : Coro σ C R ε α) (h : ε → Coro σ C R ε α) : Coro σ C R ε α :=
  p.after fun
    | .ok a => done (.ok a)
    | .error e => h e

/-- The result `x` of a `try` statement after the result of its `finally` clause. -/
def replaced (x : Except ε α) : Except ε Unit → Except ε α
  | .ok _ => x
  | .error e => .error e

/-- `try: p finally: q`; an exception of `q` replaces the result of `p`. -/
def ensuring (p : Coro σ C R ε α) (q : Coro σ C R ε Unit) : Coro σ C R ε α :=
  p.after fun x => q.after fun y => done (replaced x y)

def forEach (f : α → Coro σ C R ε Unit) : List α → Coro σ C R ε Unit
  | [] => done (.ok ())
  | a :: l => (f a).after (onOk fun _ => forEach f l)

lemma forEach_append (f : α → Coro σ C R ε Unit) (l l' : List α) :
    forEach f (l ++ l') = (forEach f l).after (onOk fun _ => forEach f l') := by
  induction l with
  | nil => rfl
  | cons a l ih => rw [List.cons_append, forEach, forEach, ih, after_onOk_assoc]

/-- `with suppress(BaseException): p` -/
def suppress (p : Coro σ C R ε α) : Coro σ C R ε Unit := p.after fun _ => done (.ok ())

/-- The results of `f` on the elements of a list, in order. -/
def mapEach (f : α → Coro σ C R ε β) : List α → Coro σ C R ε (List β)
  | [] => done (.ok [])
  | a :: l => (f a).after (onOk fun b => (mapEach f l).after (onOk fun bs => done (.ok (b :: bs))))

/-- `p` where each of its calls is made as a call of another kind. -/
def embed {D : Type} {S : D → Type} (f : C → D) : Coro σ C (fun c => S (f c)) ε α → Coro σ D S ε α
  | done x => done x
  | get k => get fun s => (k s).embed f
  | set s p => set s (p.embed f)
  | call c k => call (f c) fun r => (k r).embed f

lemma embed_after {D : Type} {S : D → Type} (f : C → D) (p : Coro σ C (fun c => S (f c)) ε α)
    (k : Except ε α → Coro σ C (fun c => S (f c)) ε β) :
    (p.after k).embed f = (p.embed f).after fun x => (k x).embed f := by
  induction p with
  | done x => rfl
  | get g ih => simp only [after_get, embed, ih]
  | set s p ih => simp only [after_set, embed, ih]
  | call c g ih => simp only [after_call, embed, ih]

/-! ### Runs -/

/-- A call and its answer. -/
abbrev Event (C : Type) (R : C → Type) := (c : C) × R c

/-- `p` started in `s` makes the calls `es` and ends with `x` in `s'`, while others change the
state during a call `c` answered by `r` as `E c r` allows. -/
def Runs (E : (c : C) → R c → σ → σ → Prop) :
    Coro σ C R ε α → σ → List (Event C R) → Except ε α → σ → Prop
  | done y, s, es, x, s' => es = [] ∧ x = y ∧ s' = s
  | get f, s, es, x, s' => (f s).Runs E s es x s'
  | set t p, _, es, x, s' => p.Runs E t es x s'
  | call c f, s, es, x, s' =>
    ∃ r t fs, es = ⟨c, r⟩ :: fs ∧ E c r s t ∧ (f r).Runs E t fs x s'

variable {E : (c : C) → R c → σ → σ → Prop}

lemma runs_done {y x : Except ε α} {s s' : σ} {es : List (Event C R)} :
    (done y : Coro σ C R ε α).Runs E s es x s' ↔ es = [] ∧ x = y ∧ s' = s := Iff.rfl

lemma runs_get {f : σ → Coro σ C R ε α} {x : Except ε α} {s s' : σ} {es : List (Event C R)} :
    (get f).Runs E s es x s' ↔ (f s).Runs E s es x s' := Iff.rfl

lemma runs_set {t : σ} {p : Coro σ C R ε α} {x : Except ε α} {s s' : σ}
    {es : List (Event C R)} : (set t p).Runs E s es x s' ↔ p.Runs E t es x s' := Iff.rfl

lemma runs_call {c : C} {f : R c → Coro σ C R ε α} {x : Except ε α} {s s' : σ}
    {es : List (Event C R)} : (call c f).Runs E s es x s' ↔
      ∃ r t fs, es = ⟨c, r⟩ :: fs ∧ E c r s t ∧ (f r).Runs E t fs x s' := Iff.rfl

lemma runs_after {p : Coro σ C R ε α} {k : Except ε α → Coro σ C R ε β} {s s' : σ}
    {es : List (Event C R)} {y : Except ε β} :
    (p.after k).Runs E s es y s' ↔
      ∃ fs gs x t, es = fs ++ gs ∧ p.Runs E s fs x t ∧ (k x).Runs E t gs y s' := by
  induction p generalizing s es with
  | done z =>
    constructor
    · intro h
      exact ⟨[], es, z, s, rfl, ⟨rfl, rfl, rfl⟩, h⟩
    · rintro ⟨_, gs, _, _, rfl, ⟨rfl, rfl, rfl⟩, h⟩
      exact h
  | get f ih => exact ih s
  | set t p ih => exact ih
  | call c f ih =>
    constructor
    · rintro ⟨r, t, _, rfl, he, hr⟩
      obtain ⟨fs, gs, x, u, rfl, hf, hk⟩ := (ih r).mp hr
      exact ⟨⟨c, r⟩ :: fs, gs, x, u, rfl, ⟨r, t, fs, rfl, he, hf⟩, hk⟩
    · rintro ⟨_, gs, x, u, rfl, ⟨r, t, fs, rfl, he, hf⟩, hk⟩
      exact ⟨r, t, fs ++ gs, rfl, he, (ih r).mpr ⟨fs, gs, x, u, rfl, hf, hk⟩⟩

/-- A normal end of a sequence. -/
lemma runs_onOk {p : Coro σ C R ε α} {k : α → Coro σ C R ε β} {s s' : σ} {es : List (Event C R)}
    {b : β} (h : (p.after (onOk k)).Runs E s es (.ok b) s') :
    ∃ fs gs a t, es = fs ++ gs ∧ p.Runs E s fs (.ok a) t ∧ (k a).Runs E t gs (.ok b) s' := by
  obtain ⟨fs, gs, x, t, rfl, hp, hk⟩ := runs_after.mp h
  cases x with
  | ok a => exact ⟨fs, gs, a, t, rfl, hp, hk⟩
  | error e => cases (runs_done.mp hk).2.1

lemma Runs.next {p : Coro σ C R ε α} {k : α → Coro σ C R ε β} {s s' t : σ}
    {fs gs : List (Event C R)} {a : α} {y : Except ε β} (hp : p.Runs E s fs (.ok a) t)
    (hk : (k a).Runs E t gs y s') : (p.after (onOk k)).Runs E s (fs ++ gs) y s' :=
  runs_after.mpr ⟨fs, gs, .ok a, t, rfl, hp, hk⟩

/-- An exception ends a sequence. -/
lemma Runs.raised {p : Coro σ C R ε α} {k : α → Coro σ C R ε β} {s t : σ} {es : List (Event C R)}
    {e : ε} (hp : p.Runs E s es (.error e) t) : (p.after (onOk k)).Runs E s es (.error e) t :=
  runs_after.mpr ⟨es, [], .error e, t, (List.append_nil es).symm, hp, runs_done.mpr ⟨rfl, rfl, rfl⟩⟩

lemma runs_mono {E' : (c : C) → R c → σ → σ → Prop} (h : ∀ c r s t, E c r s t → E' c r s t)
    {p : Coro σ C R ε α} {s s' : σ} {es : List (Event C R)} {x : Except ε α}
    (hr : p.Runs E s es x s') : p.Runs E' s es x s' := by
  induction p generalizing s es with
  | done y => exact hr
  | get f ih => exact ih s hr
  | set t p ih => exact ih hr
  | call c f ih =>
    obtain ⟨r, t, fs, rfl, he, hr⟩ := hr
    exact ⟨r, t, fs, rfl, h c r s t he, ih r hr⟩

/-- The answers determine a run, where the others do. -/
lemma Runs.unique (hE : ∀ {c r s t u}, E c r s t → E c r s u → t = u) {p : Coro σ C R ε α}
    {s s' t' : σ} {es es' fs fs' : List (Event C R)} {x y : Except ε α}
    (h : p.Runs E s es x s') (h' : p.Runs E s fs y t') (heq : es ++ es' = fs ++ fs') :
    es = fs ∧ x = y ∧ s' = t' := by
  induction p generalizing s es fs with
  | done z =>
    obtain ⟨rfl, rfl, rfl⟩ := h
    obtain ⟨rfl, rfl, rfl⟩ := h'
    exact ⟨rfl, rfl, rfl⟩
  | get f ih => exact ih s h h' heq
  | set t p ih => exact ih h h' heq
  | call c f ih =>
    obtain ⟨r, t, es, rfl, he, h⟩ := h
    obtain ⟨r', t', fs, rfl, he', h'⟩ := h'
    obtain ⟨hevent, htail⟩ := List.cons.inj heq
    obtain rfl : r = r' := eq_of_heq (Sigma.mk.inj hevent).2
    obtain rfl := hE he he'
    obtain ⟨rfl, hx, hs⟩ := ih r h h' htail
    exact ⟨rfl, hx, hs⟩

/-- The run in which `o` answers and nobody else acts. -/
def play (o : ∀ c, R c) : Coro σ C R ε α → σ → List (Event C R) × Except ε α × σ
  | done x, s => ([], x, s)
  | get f, s => (f s).play o s
  | set t p, _ => p.play o t
  | call c f, s =>
    let r := (f (o c)).play o s
    (⟨c, o c⟩ :: r.1, r.2)

/-- Coroutines neither block nor diverge: every choice of answers gives a run. -/
theorem runs_play {o : ∀ c, R c} (hE : ∀ c s, E c (o c) s s) (p : Coro σ C R ε α) (s : σ) :
    p.Runs E s (p.play o s).1 (p.play o s).2.1 (p.play o s).2.2 := by
  induction p generalizing s with
  | done x => exact ⟨rfl, rfl, rfl⟩
  | get f ih => exact ih s s
  | set t p ih => exact ih t
  | call c f ih => exact ⟨o c, s, _, rfl, hE c s, ih (o c) s⟩

/-- The run in which `o` answers, by the state, and nobody else acts. -/
def playWith (o : (c : C) → σ → R c) :
    Coro σ C R ε α → σ → List (Event C R) × Except ε α × σ
  | done x, s => ([], x, s)
  | get f, s => (f s).playWith o s
  | set t p, _ => p.playWith o t
  | call c f, s =>
    let r := (f (o c s)).playWith o s
    (⟨c, o c s⟩ :: r.1, r.2)

lemma runs_playWith {o : (c : C) → σ → R c} (hE : ∀ c s, E c (o c s) s s) (p : Coro σ C R ε α)
    (s : σ) : p.Runs E s (p.playWith o s).1 (p.playWith o s).2.1 (p.playWith o s).2.2 := by
  induction p generalizing s with
  | done x => exact ⟨rfl, rfl, rfl⟩
  | get f ih => exact ih s s
  | set t p ih => exact ih t
  | call c f ih => exact ⟨o c s, s, _, rfl, hE c s, ih (o c s) s⟩

lemma play_answers (o : ∀ c, R c) (p : Coro σ C R ε α) (s : σ) :
    ∀ e ∈ (p.play o s).1, e.2 = o e.1 := by
  induction p generalizing s with
  | done x => simp [play]
  | get f ih => exact ih s s
  | set t p ih => exact ih t
  | call c f ih => exact List.forall_mem_cons.mpr ⟨rfl, ih (o c) s⟩

/-- Every call of `p`, whatever the answers and the states, is in `P`. -/
def Makes (P : C → Prop) : Coro σ C R ε α → Prop
  | done _ => True
  | get f => ∀ s, (f s).Makes P
  | set _ p => p.Makes P
  | call c f => P c ∧ ∀ r, (f r).Makes P

lemma Makes.mono {P P' : C → Prop} (hP : ∀ c, P c → P' c) {p : Coro σ C R ε α} (h : p.Makes P) :
    p.Makes P' := by
  induction p with
  | done x => trivial
  | get f ih => exact fun s => ih s (h s)
  | set s p ih => exact ih h
  | call c f ih => exact ⟨hP c h.1, fun r => ih r (h.2 r)⟩

lemma makes_after {P : C → Prop} {p : Coro σ C R ε α} {k : Except ε α → Coro σ C R ε β}
    (hp : p.Makes P) (hk : ∀ x, (k x).Makes P) : (p.after k).Makes P := by
  induction p with
  | done x => exact hk x
  | get f ih => exact fun s => ih s (hp s)
  | set s p ih => exact ih hp
  | call c f ih => exact ⟨hp.1, fun r => ih r (hp.2 r)⟩

lemma makes_bind {P : C → Prop} {p : Coro σ C R ε α} {k : α → Coro σ C R ε β}
    (hp : p.Makes P) (hk : ∀ a, (k a).Makes P) : (p >>= k).Makes P := by
  refine makes_after hp fun x => ?_
  cases x with
  | ok a => exact hk a
  | error e => trivial

lemma makes_ensuring {P : C → Prop} {p : Coro σ C R ε α} {q : Coro σ C R ε Unit}
    (hp : p.Makes P) (hq : q.Makes P) : (p.ensuring q).Makes P :=
  makes_after hp fun _ => makes_after hq fun _ => trivial

lemma Makes.mem {P : C → Prop} {p : Coro σ C R ε α} (h : p.Makes P) {s s' : σ}
    {es : List (Event C R)} {x : Except ε α} (hr : p.Runs E s es x s') : ∀ e ∈ es, P e.1 := by
  induction p generalizing s es with
  | done y =>
    rw [hr.1]
    simp
  | get f ih => exact ih s (h s) hr
  | set t p ih => exact ih h hr
  | call c f ih =>
    obtain ⟨r, t, fs, rfl, -, hr⟩ := hr
    rw [List.forall_mem_cons]
    exact ⟨h.1, ih r (h.2 r) hr⟩

lemma makes_embed {D : Type} {S : D → Type} {f : C → D} {P : D → Prop}
    {p : Coro σ C (fun c => S (f c)) ε α} (h : p.Makes fun c => P (f c)) :
    (p.embed f : Coro σ D S ε α).Makes P := by
  induction p with
  | done x => trivial
  | get g ih => exact fun s => ih s (h s)
  | set s p ih => exact ih h
  | call c g ih => exact ⟨h.1, fun r => ih r (h.2 r)⟩

/-! ### Turns -/

/-- `p` started in `s` makes the calls `es`, none of which suspends, and gets to the next
suspending call or to its end: the rest is `p'`, in `s'`. -/
def Advance (susp : C → Bool) :
    Coro σ C R ε α → σ → List (Event C R) → Coro σ C R ε α → σ → Prop
  | done y, s, es, p', s' => es = [] ∧ p' = done y ∧ s' = s
  | get f, s, es, p', s' => (f s).Advance susp s es p' s'
  | set t p, _, es, p', s' => p.Advance susp t es p' s'
  | call c f, s, es, p', s' =>
    if susp c then es = [] ∧ p' = call c f ∧ s' = s
    else ∃ r fs, es = ⟨c, r⟩ :: fs ∧ (f r).Advance susp s fs p' s'

variable {susp : C → Bool}

lemma advance_done {y : Except ε α} {p' : Coro σ C R ε α} {s s' : σ} {es : List (Event C R)} :
    (done y).Advance susp s es p' s' ↔ es = [] ∧ p' = done y ∧ s' = s := Iff.rfl

lemma advance_get {f : σ → Coro σ C R ε α} {p' : Coro σ C R ε α} {s s' : σ}
    {es : List (Event C R)} : (get f).Advance susp s es p' s' ↔ (f s).Advance susp s es p' s' :=
  Iff.rfl

lemma advance_set {t : σ} {p p' : Coro σ C R ε α} {s s' : σ} {es : List (Event C R)} :
    (set t p).Advance susp s es p' s' ↔ p.Advance susp t es p' s' := Iff.rfl

lemma advance_call {c : C} (hc : susp c = false) {f : R c → Coro σ C R ε α} {p' : Coro σ C R ε α}
    {s s' : σ} {es : List (Event C R)} : (call c f).Advance susp s es p' s' ↔
      ∃ r fs, es = ⟨c, r⟩ :: fs ∧ (f r).Advance susp s fs p' s' := by
  rw [Advance, if_neg (by simp [hc])]

lemma advance_await {c : C} (hc : susp c = true) {f : R c → Coro σ C R ε α}
    {p' : Coro σ C R ε α} {s s' : σ} {es : List (Event C R)} :
    (call c f).Advance susp s es p' s' ↔ es = [] ∧ p' = call c f ∧ s' = s := by
  rw [Advance, if_pos hc]

/-- A turn ends at a suspending call or at the end. -/
lemma advance_stops {p p' : Coro σ C R ε α} {s s' : σ} {es : List (Event C R)}
    (h : p.Advance susp s es p' s') :
    (∃ x, p' = done x) ∨ ∃ c f, p' = call c f ∧ susp c = true := by
  induction p generalizing s es with
  | done y => exact Or.inl ⟨y, h.2.1⟩
  | get f ih => exact ih s h
  | set t p ih => exact ih h
  | call c f ih =>
    rw [Advance] at h
    split at h
    · next hc => exact Or.inr ⟨c, f, h.2.1, hc⟩
    · obtain ⟨r, fs, -, hr⟩ := h
      exact ih r hr

lemma advance_quiet {p p' : Coro σ C R ε α} {s s' : σ} {es : List (Event C R)}
    (h : p.Advance susp s es p' s') : ∀ e ∈ es, susp e.1 = false := by
  induction p generalizing s es with
  | done y =>
    rw [h.1]
    simp
  | get f ih => exact ih s h
  | set t p ih => exact ih h
  | call c f ih =>
    rw [Advance] at h
    split at h
    · rw [h.1]
      simp
    · next hc =>
      obtain ⟨r, fs, rfl, h⟩ := h
      rw [List.forall_mem_cons]
      exact ⟨by simpa using hc, ih r h⟩

/-- The turn in which `o` answers. -/
def turn (susp : C → Bool) (o : ∀ c, R c) :
    Coro σ C R ε α → σ → List (Event C R) × Coro σ C R ε α × σ
  | done y, s => ([], done y, s)
  | get f, s => (f s).turn susp o s
  | set t p, _ => p.turn susp o t
  | call c f, s =>
    if susp c then ([], call c f, s)
    else
      let r := (f (o c)).turn susp o s
      (⟨c, o c⟩ :: r.1, r.2)

lemma advance_turn (o : ∀ c, R c) (p : Coro σ C R ε α) (s : σ) :
    p.Advance susp s (p.turn susp o s).1 (p.turn susp o s).2.1 (p.turn susp o s).2.2 := by
  induction p generalizing s with
  | done y => exact ⟨rfl, rfl, rfl⟩
  | get f ih => exact ih s s
  | set t p ih => exact ih t
  | call c f ih =>
    rw [Advance, turn]
    split
    · exact ⟨rfl, rfl, rfl⟩
    · exact ⟨o c, _, rfl, ih (o c) s⟩

/-! ### Weakest preconditions -/

/-- What a coroutine may assume and must guarantee: what others do to the state during a call,
with the answers it gets in the state they leave, and the changes it makes itself. -/
structure Contract (σ C : Type) (R : C → Type) where
  rely : (c : C) → R c → σ → σ → Prop
  guar : σ → σ → Prop

/-- From `s`, `p` keeps to the contract, and its calls, its result and its last state are in
`Q`. -/
def wp (K : Contract σ C R) :
    Coro σ C R ε α → (List (Event C R) → Except ε α → σ → Prop) → σ → Prop
  | done x, Q, s => Q [] x s
  | get f, Q, s => (f s).wp K Q s
  | set t p, Q, s => K.guar s t ∧ p.wp K Q t
  | call c f, Q, s => ∀ r t, K.rely c r s t → (f r).wp K (fun es => Q (⟨c, r⟩ :: es)) t

variable {K : Contract σ C R}

@[simp] lemma wp_done {x : Except ε α} {Q : List (Event C R) → Except ε α → σ → Prop} {s : σ} :
    (done x : Coro σ C R ε α).wp K Q s ↔ Q [] x s := Iff.rfl
@[simp] lemma wp_get {f : σ → Coro σ C R ε α} {Q : List (Event C R) → Except ε α → σ → Prop}
    {s : σ} : (get f).wp K Q s ↔ (f s).wp K Q s := Iff.rfl
@[simp] lemma wp_set {t s : σ} {p : Coro σ C R ε α}
    {Q : List (Event C R) → Except ε α → σ → Prop} :
    (set t p).wp K Q s ↔ K.guar s t ∧ p.wp K Q t := Iff.rfl
@[simp] lemma wp_call {c : C} {f : R c → Coro σ C R ε α}
    {Q : List (Event C R) → Except ε α → σ → Prop} {s : σ} :
    (call c f).wp K Q s ↔
      ∀ r t, K.rely c r s t → (f r).wp K (fun es => Q (⟨c, r⟩ :: es)) t := Iff.rfl

lemma wp_mono {p : Coro σ C R ε α} {Q Q' : List (Event C R) → Except ε α → σ → Prop} {s : σ}
    (h : p.wp K Q s) (hQ : ∀ es x t, Q es x t → Q' es x t) : p.wp K Q' s := by
  induction p generalizing s Q Q' with
  | done x => exact hQ _ _ _ h
  | get f ih => exact ih s h hQ
  | set t p ih => exact ⟨h.1, ih h.2 hQ⟩
  | call c f ih =>
    refine fun r t he => ih r (h r t he) ?_
    intro es x u
    exact hQ _ x u

lemma wp_true (hguar : ∀ s t, K.guar s t) (p : Coro σ C R ε α) (s : σ) :
    p.wp K (fun _ _ _ => True) s := by
  induction p generalizing s with
  | done x => trivial
  | get f ih => exact ih s s
  | set t p ih => exact ⟨hguar s t, ih t⟩
  | call c f ih => exact fun r t _ => ih r t

lemma wp_makes {P : C → Prop} {p : Coro σ C R ε α} {Q : List (Event C R) → Except ε α → σ → Prop}
    {s : σ} (h : p.wp K Q s) (hp : p.Makes P) :
    p.wp K (fun es x t => (∀ e ∈ es, P e.1) ∧ Q es x t) s := by
  induction p generalizing s Q with
  | done x => exact ⟨fun _ he => absurd he List.not_mem_nil, h⟩
  | get f ih => exact ih s h (hp s)
  | set t p ih => exact ⟨h.1, ih h.2 hp⟩
  | call c f ih =>
    refine fun r t he => wp_mono (ih r (h r t he) (hp.2 r)) ?_
    rintro es x u ⟨hes, hx⟩
    exact ⟨List.forall_mem_cons.mpr ⟨hp.1, hes⟩, hx⟩

/-- **Sequencing.** -/
theorem wp_after {p : Coro σ C R ε α} {k : Except ε α → Coro σ C R ε β}
    {Q : List (Event C R) → Except ε β → σ → Prop} {s : σ} :
    (p.after k).wp K Q s ↔ p.wp K (fun es x t => (k x).wp K (fun fs => Q (es ++ fs)) t) s := by
  induction p generalizing s Q with
  | done x => rfl
  | get f ih => exact ih s
  | set t p ih => exact and_congr_right fun _ => ih
  | call c f ih => exact forall_congr' fun r => forall_congr' fun t => imp_congr_right fun _ => ih r

/-- **Soundness for whole runs.** -/
theorem wp_sound {p : Coro σ C R ε α} {Q : List (Event C R) → Except ε α → σ → Prop} {s s' : σ}
    {es : List (Event C R)} {x : Except ε α} (h : p.wp K Q s) (hr : p.Runs K.rely s es x s') :
    Q es x s' := by
  induction p generalizing s es Q with
  | done y =>
    obtain ⟨rfl, rfl, rfl⟩ := hr
    exact h
  | get f ih => exact ih s h hr
  | set t p ih => exact ih h.2 hr
  | call c f ih =>
    obtain ⟨r, t, fs, rfl, he, hr⟩ := hr
    have hQ := ih r (h r t he) hr
    exact hQ

/-- Calls that do not suspend leave the state alone and get any answer. -/
def Contract.Quiet (K : Contract σ C R) (susp : C → Bool) : Prop :=
  ∀ c r s, susp c = false → K.rely c r s s

/-- **Soundness for turns**: what is left of `p` keeps to the contract, and so did the turn. -/
theorem wp_advance (hq : K.Quiet susp) (hrefl : ∀ s, K.guar s s)
    (htrans : ∀ s t u, K.guar s t → K.guar t u → K.guar s u) {p p' : Coro σ C R ε α}
    {Q : List (Event C R) → Except ε α → σ → Prop} {s s' : σ} {es : List (Event C R)}
    (h : p.wp K Q s) (ha : p.Advance susp s es p' s') :
    K.guar s s' ∧ p'.wp K (fun fs => Q (es ++ fs)) s' := by
  induction p generalizing s es Q with
  | done y =>
    obtain ⟨rfl, rfl, rfl⟩ := ha
    exact ⟨hrefl _, h⟩
  | get f ih => exact ih s h ha
  | set t p ih =>
    obtain ⟨hg, hp⟩ := ih h.2 ha
    exact ⟨htrans _ _ _ h.1 hg, hp⟩
  | call c f ih =>
    rw [Advance] at ha
    split at ha
    · obtain ⟨rfl, rfl, rfl⟩ := ha
      exact ⟨hrefl _, h⟩
    · next hc =>
      obtain ⟨r, fs, rfl, ha⟩ := ha
      obtain ⟨hg, hp⟩ := ih r (h r s (hq c r s (by simpa using hc))) ha
      exact ⟨hg, hp⟩

/-- A suspended coroutine keeps to the contract while others act. -/
lemma wp_call_rely {c : C} {f : R c → Coro σ C R ε α}
    {Q : List (Event C R) → Except ε α → σ → Prop} {s t : σ} (h : (call c f).wp K Q s)
    (hrely : ∀ r u, K.rely c r t u → K.rely c r s u) : (call c f).wp K Q t :=
  fun r u hu => h r u (hrely r u hu)

-- the elaborator is not to run a concrete coroutine when it looks at a statement about its runs
attribute [irreducible] Runs Advance

end Coro

end Orchestrator.Lib
