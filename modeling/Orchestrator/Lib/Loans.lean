import Mathlib.Data.Int.Notation
import Orchestrator.Lib.Messages

/-!
Loans: some calls ask for a loan, and some give one back.

A party holds a loan from the answer that grants it to the call that gives it back. The server owes
more: also a loan of which the answer has not arrived, and one of which the return has not been
taken up. A party that gives up a call that has been granted leaves a loan behind, but none is owed
then.
-/

namespace Orchestrator.Lib

open Coro (Event)

structure Loans (D : Type) (A : D → Type) (K : Type) where
  borrows : D → Option K
  returns : D → Option K
  grants : (d : D) → A d → Bool

namespace Loans

variable {D : Type} {A : D → Type} {K : Type} (L : Loans D A K)

/-- The loan that an answer grants. -/
def granted (e : Event D A) : Option K := if L.grants e.1 e.2 then L.borrows e.1 else none

/-- What is held after a call and its answer. -/
def held (h : Option K) (e : Event D A) : Option K :=
  if (L.returns e.1).isSome then none else (L.granted e).or h

def heldAfter (h : Option K) (es : List (Event D A)) : Option K := es.foldl L.held h

/-- Only what is held is given back. -/
def Minds (h : Option K) : List (Event D A) → Prop
  | [] => True
  | e :: es => (∀ k, L.returns e.1 = some k → h = some k) ∧ Minds (L.held h e) es

/-- The call has nothing to do with loans. -/
def Plain (d : D) : Prop := L.borrows d = none ∧ L.returns d = none

variable {L} {h : Option K} {e : Event D A} {es fs : List (Event D A)} {k : K}

@[simp] lemma heldAfter_nil : L.heldAfter h [] = h := rfl

@[simp] lemma heldAfter_cons : L.heldAfter h (e :: es) = L.heldAfter (L.held h e) es := rfl

lemma heldAfter_append : L.heldAfter h (es ++ fs) = L.heldAfter (L.heldAfter h es) fs :=
  List.foldl_append

lemma minds_append :
    L.Minds h (es ++ fs) ↔ L.Minds h es ∧ L.Minds (L.heldAfter h es) fs := by
  induction es generalizing h with
  | nil => exact ⟨fun hfs => ⟨trivial, hfs⟩, fun hfs => hfs.2⟩
  | cons e es ih =>
    rw [List.cons_append, heldAfter_cons]
    exact (and_congr_right fun _ => ih).trans and_assoc.symm

lemma Plain.granted (he : L.Plain e.1) : L.granted e = none := by
  unfold Loans.granted
  split
  · exact he.1
  · rfl

lemma Plain.held (he : L.Plain e.1) : L.held h e = h := by
  rw [Loans.held, he.2, he.granted]
  rfl

lemma heldAfter_plain (hes : ∀ e ∈ es, L.Plain e.1) : L.heldAfter h es = h := by
  induction es with
  | nil => rfl
  | cons e es ih =>
    rw [List.forall_mem_cons] at hes
    rw [heldAfter_cons, hes.1.held, ih hes.2]

lemma minds_plain (hes : ∀ e ∈ es, L.Plain e.1) : L.Minds h es := by
  induction es with
  | nil => trivial
  | cons e es ih =>
    rw [List.forall_mem_cons] at hes
    refine ⟨fun k hk => ?_, ?_⟩
    · rw [hes.1.2] at hk
      cases hk
    · rw [hes.1.held]
      exact ih hes.2

lemma held_eq_some (hk : L.held h e = some k) :
    L.returns e.1 = none ∧ (L.granted e = some k ∨ h = some k) := by
  unfold held at hk
  split at hk
  · cases hk
  · next hreturns =>
    refine ⟨Option.not_isSome_iff_eq_none.mp hreturns, ?_⟩
    cases hg : L.granted e with
    | none =>
      rw [hg] at hk
      exact Or.inr hk
    | some k' =>
      rw [hg] at hk
      exact Or.inl hk

end Loans

/-! ### Coroutines that borrow -/

section Coroutines

variable {σ ε α D K : Type} {A : D → Type} (L : Loans D A K)

/-- A coroutine that waits for a call, its state, and what it holds. -/
structure Borrower (σ ε α : Type) {D : Type} (A : D → Type) (K : Type) where
  rest : Coro σ D A ε α
  state : σ
  held : Option K

/-- The call that a coroutine waits for. -/
def Coro.awaited : Coro σ D A ε α → Option D
  | .call d _ => some d
  | _ => none

/-- Coroutines that wait for each of their calls, and meanwhile others change the state as `others`
allows. -/
def borrowers (others : (d : D) → A d → σ → σ → Prop) (starts : Coro σ D A ε α → σ → Prop)
    (failure : (d : D) → A d → Prop) : Parties (Borrower σ ε α A K) D A where
  enters x := x.held = none ∧ ∃ p s, starts p s ∧ p.Advance (fun _ => true) s [] x.rest x.state
  call x := x.rest.awaited
  goes x d a x' := ∃ f t, x.rest = .call d f ∧ others d a x.state t ∧
    (f a).Advance (fun _ => true) t [] x'.rest x'.state ∧ x'.held = L.held x.held ⟨d, a⟩
  failure := failure

/-- From `s`, where `h` is held, the coroutine gives back only what it holds. -/
def Honours (C : Coro.Contract σ D A) (p : Coro σ D A ε α) (h : Option K) (s : σ) : Prop :=
  p.wp C (fun es _ _ => L.Minds h es) s

variable {L} {C : Coro.Contract σ D A} {p p' : Coro σ D A ε α} {h : Option K} {s s' t : σ}

lemma Honours.advance (hguar : ∀ s t, C.guar s t) (hp : Honours L C p h s)
    (ha : p.Advance (fun _ => true) s [] p' s') : Honours L C p' h s' := by
  have hquiet : C.Quiet fun _ => true := fun _ _ _ hc => by cases hc
  exact (Coro.wp_advance hquiet (fun _ => hguar _ _) (fun _ _ _ _ _ => hguar _ _) hp ha).2

lemma Honours.next {d : D} {f : A d → Coro σ D A ε α} (hp : Honours L C (.call d f) h s) {a : A d}
    (hrely : C.rely d a s t) : Honours L C (f a) (L.held h ⟨d, a⟩) t :=
  Coro.wp_mono (hp a t hrely) fun _ _ _ hes => hes.2

/-- Where every call may be answered. -/
lemma Honours.returns {d : D} {f : A d → Coro σ D A ε α} (hp : Honours L C (.call d f) h s)
    {o : ∀ d, A d} (ho : ∀ d s, C.rely d (o d) s s) {k : K} (hk : L.returns d = some k) :
    h = some k := by
  have hminds := Coro.wp_sound hp (Coro.runs_play ho (.call d f) s)
  exact hminds.1 k hk

end Coroutines

/-! ### Two kinds of parties -/

section Sum

variable {X Y D : Type} {A : D → Type}

def Parties.sum (P : Parties X D A) (Q : Parties Y D A) : Parties (X ⊕ Y) D A where
  enters := Sum.elim P.enters Q.enters
  call := Sum.elim P.call Q.call
  goes
    | .inl x, d, a, .inl x' => P.goes x d a x'
    | .inr y, d, a, .inr y' => Q.goes y d a y'
    | _, _, _, _ => False
  failure d a := P.failure d a ∨ Q.failure d a

end Sum

namespace Exchange

variable {S L X D K : Type} {A : D → Type}

/-! ### What is owed -/

/-- Parties that give back only what they hold, and give up no call with a grant. -/
structure Lends (B : Loans D A K) (P : Parties X D A) (held : X → Option K) (N : X → Prop) :
    Prop where
  enters : ∀ x, P.enters x → N x ∧ held x = none
  goes : ∀ x d a x', N x → P.call x = some d → P.goes x d a x' →
    N x' ∧ held x' = B.held (held x) ⟨d, a⟩
  minds : ∀ x d k, N x → P.call x = some d → B.returns d = some k → held x = some k
  fails : ∀ d a, P.failure d a → B.granted ⟨d, a⟩ = none

/-- Coroutines that honour their loans. -/
lemma lends_borrowers {σ ε α : Type} {B : Loans D A K} {C : Coro.Contract σ D A}
    (hguar : ∀ s t, C.guar s t) {o : ∀ d, A d} (ho : ∀ d s, C.rely d (o d) s s)
    {starts : Coro σ D A ε α → σ → Prop} {failure : (d : D) → A d → Prop}
    (hstarts : ∀ p s, starts p s → Honours B C p none s)
    (hfails : ∀ d a, failure d a → B.granted ⟨d, a⟩ = none) :
    Lends B (borrowers B C.rely starts failure) Borrower.held
      fun x => Honours B C x.rest x.held x.state where
  enters := by
    rintro x ⟨hheld, p, s, hp, ha⟩
    exact ⟨hheld ▸ (hstarts p s hp).advance hguar ha, hheld⟩
  goes := by
    rintro x d a x' hx - ⟨f, t, hrest, hrely, ha, hheld⟩
    rw [hrest] at hx
    exact ⟨hheld ▸ (hx.next hrely).advance hguar ha, hheld⟩
  minds := by
    intro x d k hx hcall hk
    cases hrest : x.rest with
    | call c f =>
      have hc : x.rest.awaited = some d := hcall
      rw [hrest] at hx hc
      cases hc
      exact hx.returns ho hk
    | _ =>
      have hc : x.rest.awaited = some d := hcall
      rw [hrest] at hc
      cases hc
  fails := hfails

lemma Lends.sum {Y : Type} {B : Loans D A K} {P : Parties X D A} {Q : Parties Y D A}
    {f : X → Option K} {g : Y → Option K} {N : X → Prop} {M : Y → Prop} (hP : Lends B P f N)
    (hQ : Lends B Q g M) : Lends B (P.sum Q) (Sum.elim f g) (Sum.elim N M) where
  enters := by
    rintro (x | y) h
    · exact hP.enters x h
    · exact hQ.enters y h
  goes := by
    rintro (x | y) d a (x' | y') h hcall hgoes
    · exact hP.goes x d a x' h hcall hgoes
    · exact hgoes.elim
    · exact hgoes.elim
    · exact hQ.goes y d a y' h hcall hgoes
  minds := by
    rintro (x | y) d k h hcall hk
    · exact hP.minds x d k h hcall hk
    · exact hQ.minds y d k h hcall hk
  fails d a h := h.elim (hP.fails d a) (hQ.fails d a)

section Owed

variable (B : Loans D A K) (P : Parties X D A) (held : X → Option K)

/-- The party holds the loan, and does not wait for the call that gives it back. -/
def Holds (k : K) (x : X) : Prop := held x = some k ∧ ∃ d, P.call x = some d ∧ B.returns d = none

/-- The party holds the loan, or it will when the answer arrives that has been sent. -/
def Owes (e : Exchange S X D A) (k : K) (p : ℕ × X) : Prop :=
  Holds B P held k p.2 ∨
    ∃ answer, (p.1, answer) ∈ e.replies ∧ P.call p.2 = some answer.1 ∧ B.granted answer = some k

open Classical in
/-- How many loans of `k` are on their way back. -/
noncomputable def returning (e : Exchange S X D A) (k : K) : ℕ :=
  e.requests.countP fun q => B.returns q.2 = some k

open Classical in
/-- How many loans of `k` the server owes: those of the parties, and those on their way back. -/
noncomputable def owed (e : Exchange S X D A) (k : K) : ℕ :=
  e.parties.entries.countP (fun p => Owes B P held e k p) + e.returning B k

open Classical in
/-- How many parties hold a loan of `k`. -/
noncomputable def holders (e : Exchange S X D A) (k : K) : ℕ :=
  e.parties.count fun x => Holds B P held k x

lemma not_holds {B : Loans D A K} {P : Parties X D A} {held : X → Option K} {e : Exchange S X D A}
    {k : K} (h : e.holders B P held k = 0) {n : ℕ} {x : X} (hx : e.parties.get? n = some x) :
    ¬ Holds B P held k x := by
  classical
  intro hholds
  rw [holders, Dict.count, List.countP_eq_zero] at h
  exact h x (Dict.mem_values.mpr ⟨n, hx⟩) (decide_eq_true hholds)

end Owed

variable {B : Loans D A K} {P : Parties X D A} {held : X → Option K} {N : X → Prop}
  {e e' : Exchange S X D A} {k : K} {n : ℕ} {x : X} {num : S → ℕ → Prop}

lemma holders_returning_le :
    e.holders B P held k + e.returning B k ≤ e.owed B P held k := by
  classical
  have hle : e.holders B P held k ≤ e.parties.entries.countP
      (fun p => Owes B P held e k p) := by
    rw [holders, Dict.count, Dict.values, List.countP_map]
    refine List.countP_mono_left fun p _ hp => ?_
    simp only [Function.comp_apply, decide_eq_true_eq] at hp ⊢
    exact Or.inl hp
  exact Nat.add_le_add_right hle _

/-- What a party that arrives may add. -/
lemma owed_arrive (hnum : Numbered num e) (hminds : ∀ d k, P.call x = some d →
    B.returns d = some k → held x = some k) :
    (e.arrive P x).owed B P held k ≤ e.owed B P held k + 1 ∧
      (held x ≠ some k → (e.arrive P x).owed B P held k ≤ e.owed B P held k) := by
  classical
  unfold arrive
  split
  swap
  · exact ⟨Nat.le_succ _, fun _ => Nat.le_refl _⟩
  next d hd =>
  have hnone : e.parties.get? e.calls = none := by
    cases hget : e.parties.get? e.calls with
    | none => rfl
    | some y => exact absurd (hnum.parties _ _ hget) (Nat.lt_irrefl _)
  have howes : ∀ p : ℕ × X, Owes B P held { e with
      parties := e.parties.set e.calls x
      calls := e.calls + 1
      requests := e.requests ++ [(e.calls, d)] } k p ↔ Owes B P held e k p := fun p => Iff.rfl
  have hnew : Owes B P held e k (e.calls, x) → held x = some k ∧ B.returns d = none := by
    rintro (⟨hheld, d', hd', hreturns⟩ | ⟨answer, hmem, -⟩)
    · rw [hd] at hd'
      cases hd'
      exact ⟨hheld, hreturns⟩
    · exact absurd (hnum.replies _ hmem) (Nat.lt_irrefl _)
  have hback : B.returns d = some k → held x = some k := hminds d k hd
  simp only [owed, returning, howes, Dict.set_entries_of_none x hnone, List.countP_append,
    List.countP_cons, List.countP_nil, decide_eq_true_eq]
  constructor
  · split <;> split
    · next hn hr =>
      rw [(hnew hn).2] at hr
      cases hr
    all_goals omega
  · intro hne
    rw [if_neg fun hn => hne (hnew hn).1, if_neg fun hr => hne (hback hr)]
    omega

/-- What a party that leaves takes away. -/
lemma owed_leave (hx : e.parties.get? n = some x) :
    (e.leave n).owed B P held k ≤ e.owed B P held k ∧
    (Owes B P held e k (n, x) → (e.leave n).owed B P held k + 1 ≤ e.owed B P held k) := by
  classical
  have hperm := (Dict.entries_perm hx).countP_eq fun p => decide (Owes B P held e k p)
  have howes : ∀ p : ℕ × X, Owes B P held (e.leave n) k p ↔ Owes B P held e k p := fun p => Iff.rfl
  simp only [owed, returning, howes]
  simp only [leave]
  rw [hperm, List.countP_cons]
  constructor
  · omega
  · intro howes
    rw [if_pos (decide_eq_true howes)]
    omega

/-- A party that goes on does not add to what is owed. -/
lemma owed_goesOn (hlends : Lends B P held N) (hnum : Numbered num e) {answer : Event D A}
    (hN : ∀ n x, e.parties.get? n = some x → N x) (hgo : e.GoesOn P n answer x)
    (hgranted : B.granted answer = some k → (n, answer) ∈ e.replies) :
    ((e.leave n).arrive P x).owed B P held k ≤ e.owed B P held k := by
  obtain ⟨y, hy, hcall, hgoes⟩ := hgo
  obtain ⟨hx, hheld⟩ := hlends.goes y _ _ x (hN n y hy) hcall hgoes
  have harrive : ((e.leave n).arrive P x).owed B P held k ≤ (e.leave n).owed B P held k + 1 ∧
      (held x ≠ some k →
        ((e.leave n).arrive P x).owed B P held k ≤ (e.leave n).owed B P held k) :=
    owed_arrive hnum.leave fun d k hd hk => hlends.minds x d k hx hd hk
  have hleave : (e.leave n).owed B P held k ≤ e.owed B P held k ∧
      (Owes B P held e k (n, y) → (e.leave n).owed B P held k + 1 ≤ e.owed B P held k) :=
    owed_leave hy
  by_cases hk : held x = some k
  · rw [hheld] at hk
    obtain ⟨hreturns, hk⟩ := Loans.held_eq_some hk
    have howes : Owes B P held e k (n, y) := by
      rcases hk with hk | hk
      · exact Or.inr ⟨answer, hgranted hk, hcall, hk⟩
      · exact Or.inl ⟨hk, _, hcall, hreturns⟩
    have := hleave.2 howes
    omega
  · have := harrive.2 hk
    omega

/-- The server changes in its own steps only. -/
lemma server_eq {V : Server S L D A} {l : ExchangeStep L X D A}
    (hl : ∀ j taken sent, l ≠ .serve j taken sent) (h : step P V e l e') :
    e'.server = e.server := by
  cases l with
  | enter y =>
    obtain ⟨-, rfl⟩ := h
    exact arrive_server
  | resume m answer y =>
    obtain ⟨-, -, rfl⟩ := h
    exact arrive_server
  | giveUp m answer y =>
    obtain ⟨-, -, rfl⟩ := h
    exact arrive_server
  | lose m =>
    obtain rfl := h
    rfl
  | serve j taken sent => exact absurd rfl (hl j taken sent)

/-- **Steps of the parties** do not add to what is owed. -/
theorem owed_step (hlends : Lends B P held N) (hnum : Numbered num e)
    (hN : ∀ n x, e.parties.get? n = some x → N x) {V : Server S L D A} {l : ExchangeStep L X D A}
    (hl : ∀ j taken sent, l ≠ .serve j taken sent) (h : step P V e l e') :
    e'.owed B P held k ≤ e.owed B P held k := by
  classical
  cases l with
  | enter y =>
    obtain ⟨hy, rfl⟩ := h
    obtain ⟨hNy, hnone⟩ := hlends.enters y hy
    refine (owed_arrive hnum fun d k hd hk => hlends.minds y d k hNy hd hk).2 ?_
    rw [hnone]
    exact fun h => by cases h
  | resume m answer y =>
    obtain ⟨hreply, hgo, rfl⟩ := h
    exact owed_goesOn hlends hnum hN hgo fun _ => hreply
  | giveUp m answer y =>
    obtain ⟨hfail, hgo, rfl⟩ := h
    refine owed_goesOn hlends hnum hN hgo fun hk => ?_
    rw [hlends.fails _ _ hfail] at hk
    cases hk
  | lose m =>
    obtain rfl := h
    exact Nat.add_le_add_left (List.filter_sublist.countP_le) _
  | serve j taken sent => exact absurd rfl (hl j taken sent)

/-- A change of a predicate at one key of a dictionary. -/
lemma countP_entries_le {β : Type} {d : Dict ℕ β} {p q : ℕ × β → Bool} (m : ℕ)
    (hpq : ∀ x, q x = true → p x = true ∨ x.1 = m) :
    d.entries.countP q ≤ d.entries.countP p + 1 := by
  have hsplit : ∀ l : List (ℕ × β), (l.map Prod.fst).Nodup →
      l.countP q ≤ l.countP p + 1 ∧ (m ∉ l.map Prod.fst → l.countP q ≤ l.countP p) := by
    intro l hl
    induction l with
    | nil => simp
    | cons x l ih =>
      rw [List.map_cons, List.nodup_cons] at hl
      obtain ⟨hle, habsent⟩ := ih hl.2
      simp only [List.countP_cons, List.map_cons, List.mem_cons, not_or]
      constructor
      · split <;> split
        · omega
        · next hq hp =>
          have hx : x.1 = m := (hpq x hq).resolve_left hp
          have := habsent (hx ▸ hl.1)
          omega
        all_goals omega
      · rintro ⟨hne, hm⟩
        have := habsent hm
        split <;> split
        · omega
        · next hq hp => exact absurd ((hpq x hq).resolve_left hp).symm hne
        all_goals omega
  exact (hsplit d.entries d.nodup).1

/-- The server sends a grant only to the call that it takes up. -/
def GrantsTaken (B : Loans D A K) (V : Server S L D A) : Prop :=
  ∀ s l taken sent s', V.serve s l taken sent s' → ∀ q ∈ sent, B.granted q.2 ≠ none →
    ∃ d, taken = some (q.1, d)

open Classical in
/-- Whether a grant of `k` is sent. -/
noncomputable def grantsOf (B : Loans D A K) (k : K) (sent : List (ℕ × Event D A)) : ℕ :=
  if ∃ q ∈ sent, B.granted q.2 = some k then 1 else 0

open Classical in
/-- Whether a return of `k` is taken up. -/
noncomputable def returnsOf (B : Loans D A K) (k : K) (taken : Option (ℕ × D)) : ℕ :=
  if ∃ q ∈ taken, B.returns q.2 = some k then 1 else 0

lemma grantsOf_eq_zero {sent : List (ℕ × Event D A)} (h : ∀ q ∈ sent, B.granted q.2 ≠ some k) :
    grantsOf B k sent = 0 := if_neg fun ⟨q, hq, hk⟩ => h q hq hk

lemma grantsOf_le_one (sent : List (ℕ × Event D A)) : grantsOf B k sent ≤ 1 := by
  unfold grantsOf
  split <;> omega

lemma returnsOf_eq_one {q : ℕ × D} (h : B.returns q.2 = some k) : returnsOf B k (some q) = 1 :=
  if_pos ⟨q, rfl, h⟩

lemma owed_eq_zero (hheld : ∀ p ∈ e.parties.entries, held p.2 ≠ some k)
    (hreplies : ∀ q ∈ e.replies, B.granted q.2 ≠ some k)
    (hrequests : ∀ q ∈ e.requests, B.returns q.2 ≠ some k) : e.owed B P held k = 0 := by
  classical
  have hparties : e.parties.entries.countP (fun p => Owes B P held e k p) = 0 := by
    rw [List.countP_eq_zero]
    intro p hp howes
    rcases of_decide_eq_true howes with hholds | ⟨answer, hmem, -, hgranted⟩
    · exact hheld p hp hholds.1
    · exact hreplies _ hmem hgranted
  have hreturns : e.returning B k = 0 := by
    rw [returning, List.countP_eq_zero]
    intro q hq hk
    exact hrequests q hq (of_decide_eq_true hk)
  rw [owed, hparties, hreturns]

lemma countP_drop {l : List (ℕ × D)} {q : ℕ × D} (p : ℕ × D → Bool) (hq : q ∈ l) :
    (l.filter fun x => x.1 ≠ q.1).countP p + (if p q then 1 else 0) ≤ l.countP p := by
  have hcons : (q :: l.filter fun x => x.1 ≠ q.1).countP p ≤ l.countP p := by
    obtain ⟨before, after, rfl⟩ := List.append_of_mem hq
    simp only [List.filter_append, List.filter_cons, List.countP_cons, List.countP_append]
    have hle : ∀ l : List (ℕ × D), (l.filter fun x => x.1 ≠ q.1).countP p ≤ l.countP p :=
      fun l => List.filter_sublist.countP_le
    have hbefore := hle before
    have hafter := hle after
    simp only [ne_eq, not_true_eq_false, decide_false, Bool.false_eq_true, if_false]
      at hbefore hafter ⊢
    omega
  rw [List.countP_cons] at hcons
  exact hcons

/-- **A step of the server** changes what is owed by what it grants and takes back. -/
theorem owed_serve {V : Server S L D A} (hV : GrantsTaken B V) {l : L} {taken : Option (ℕ × D)}
    {sent : List (ℕ × Event D A)} (h : step P V e (.serve l taken sent) e') :
    e'.owed B P held k + returnsOf B k taken ≤ e.owed B P held k + grantsOf B k sent := by
  classical
  obtain ⟨htaken, s, hserve, rfl⟩ := h
  have hparties : (e.take taken).parties.entries.countP (fun p => Owes B P held
      { e.take taken with server := s, replies := e.replies ++ sent } k p) ≤
        e.parties.entries.countP (fun p => Owes B P held e k p) + grantsOf B k sent := by
    rw [take_parties]
    unfold grantsOf
    split
    · next hgrant =>
      obtain ⟨q, hq, hk⟩ := hgrant
      refine countP_entries_le q.1 fun p hp => ?_
      obtain ⟨d, hd⟩ := hV _ _ _ _ _ hserve q hq fun hn => by rw [hn] at hk; cases hk
      rcases of_decide_eq_true hp with hholds | ⟨answer, hmem, hcall, hgranted⟩
      · exact Or.inl (decide_eq_true (Or.inl hholds))
      · rcases List.mem_append.mp hmem with hmem | hmem
        · exact Or.inl (decide_eq_true (Or.inr ⟨answer, hmem, hcall, hgranted⟩))
        · obtain ⟨d', hd'⟩ := hV _ _ _ _ _ hserve _ hmem fun hn => by
            rw [hn] at hgranted
            cases hgranted
          exact Or.inr (congrArg Prod.fst (Option.some.inj (hd.symm.trans hd'))).symm
    · next hgrant =>
      refine List.countP_mono_left fun p _ hp => ?_
      rcases of_decide_eq_true hp with hholds | ⟨answer, hmem, hcall, hgranted⟩
      · exact decide_eq_true (Or.inl hholds)
      · rcases List.mem_append.mp hmem with hmem | hmem
        · exact decide_eq_true (Or.inr ⟨answer, hmem, hcall, hgranted⟩)
        · exact absurd ⟨_, hmem, hgranted⟩ hgrant
  have hrequests : (e.take taken).requests.countP (fun q => B.returns q.2 = some k) +
      returnsOf B k taken ≤ e.requests.countP fun q => B.returns q.2 = some k := by
    cases taken with
    | none =>
      rw [returnsOf, if_neg fun h => by obtain ⟨_, h, -⟩ := h; cases h]
      exact Nat.le_refl _
    | some q =>
      have hdrop := countP_drop (fun q => B.returns q.2 = some k) (htaken q rfl)
      have hiff : (∃ x ∈ some q, B.returns x.2 = some k) ↔ B.returns q.2 = some k := by simp
      simp only [returnsOf, hiff]
      simpa [take, drop] using hdrop
  simp only [owed, returning] at hparties hrequests ⊢
  omega

/-! ### Counters -/

/-- The counters of the server cover what it owes. -/
def Covered (B : Loans D A K) (P : Parties X D A) (held : X → Option K) (count : S → K → Option ℤ)
    (e : Exchange S X D A) : Prop :=
  ∀ k c, count e.server k = some c → e.owed B P held k ≤ c

/-- **Counters** cover what is owed, as long as the server counts what it grants and no more than
what it takes back, and begins to count only where nothing is owed. -/
theorem Covered.step {V : Server S L D A} {count : S → K → Option ℤ} {l : ExchangeStep L X D A}
    (hlends : Lends B P held N) (hnum : Numbered num e)
    (hN : ∀ n x, e.parties.get? n = some x → N x) (hV : GrantsTaken B V)
    (hserve : ∀ j taken sent s, l = .serve j taken sent → V.serve e.server j taken sent s →
      ∀ k c', count s k = some c' →
        (∃ c, count e.server k = some c ∧ c + grantsOf B k sent ≤ c' + returnsOf B k taken) ∨
          e.owed B P held k = 0 ∧ grantsOf B k sent = 0 ∧ 0 ≤ c')
    (h : Covered B P held count e) (hstep : step P V e l e') : Covered B P held count e' := by
  intro k c' hc'
  by_cases hl : ∃ j taken sent, l = .serve j taken sent
  · obtain ⟨j, taken, sent, rfl⟩ := hl
    have howed : e'.owed B P held k + returnsOf B k taken ≤
        e.owed B P held k + grantsOf B k sent := owed_serve hV hstep
    obtain ⟨-, s, hs, rfl⟩ := hstep
    rcases hserve j taken sent s rfl hs k c' hc' with ⟨c, hc, hle⟩ | ⟨hzero, hgrants, hpos⟩
    · have := h k c hc
      omega
    · omega
  · have hparty : ∀ j taken sent, l ≠ .serve j taken sent :=
      fun j taken sent he => hl ⟨j, taken, sent, he⟩
    have hle : e'.owed B P held k ≤ e.owed B P held k := owed_step hlends hnum hN hparty hstep
    have := h k c' (server_eq hparty hstep ▸ hc')
    omega

end Exchange

/-! ### Servers of some of the calls -/

/-- A server that takes up calls of one kind. -/
def Server.embed {S L C D : Type} {A : D → Type} (f : C → D) (V : Server S L C fun c => A (f c)) :
    Server S L D A where
  init := V.init
  serve s l taken sent s' := ∃ taken₀ sent₀, taken = taken₀.map (Prod.map id f) ∧
    sent = sent₀.map (fun q => (q.1, ⟨f q.2.1, q.2.2⟩)) ∧ V.serve s l taken₀ sent₀ s'

lemma Exchange.Replies.embed {S L C D : Type} {A : D → Type} {f : C → D}
    {V : Server S L C fun c => A (f c)} {num : S → ℕ → Prop} (hV : Exchange.Replies V num) :
    Exchange.Replies (V.embed f) num where
  init := hV.init
  sent := by
    rintro s l _ _ s' ⟨taken, sent, rfl, rfl, h⟩ q hq
    obtain ⟨p, hp, rfl⟩ := List.mem_map.mp hq
    refine (hV.sent s l taken sent s' h p hp).imp_right ?_
    rintro ⟨d, rfl⟩
    exact ⟨f d, rfl⟩
  held := by
    rintro s l _ _ s' ⟨taken, sent, rfl, rfl, h⟩ n hn
    refine (hV.held s l taken sent s' h n hn).imp_right ?_
    rintro ⟨d, rfl⟩
    exact ⟨f d, rfl⟩

end Orchestrator.Lib
