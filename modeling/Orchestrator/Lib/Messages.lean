import Orchestrator.Lib.Coro
import Orchestrator.Lib.Dict
import Orchestrator.Lib.Lts

/-!
Parties that call a server, where a call is a message and so is its reply.

A party waits for one call at a time. Its request reaches the server or is lost; the server replies
at once or later; the reply arrives, or the party gives the call up before. A request that has been
given up is still on its way. Calls are numbered, so no reply is taken for that to another call.
-/

namespace Orchestrator.Lib

open Coro (Event)

/-- The parties: how they come, what they wait for, and what they do with an answer. -/
structure Parties (X D : Type) (A : D → Type) where
  enters : X → Prop
  call : X → Option D
  goes : X → (d : D) → A d → X → Prop
  /-- the answers with which a call may be given up -/
  failure : (d : D) → A d → Prop

/-- A server, which in a step may take up a request and send replies. -/
structure Server (S L D : Type) (A : D → Type) where
  init : S → Prop
  serve : S → L → Option (ℕ × D) → List (ℕ × Event D A) → S → Prop

structure Exchange (S X D : Type) (A : D → Type) where
  server : S
  /-- those who wait, under the numbers of their calls -/
  parties : Dict ℕ X
  calls : ℕ
  requests : List (ℕ × D)
  replies : List (ℕ × Event D A)

inductive ExchangeStep (L X D : Type) (A : D → Type)
  | enter (x : X)
  /-- the reply to a call arrives, and the party goes on to `x` -/
  | resume (n : ℕ) (answer : Event D A) (x : X)
  | giveUp (n : ℕ) (answer : Event D A) (x : X)
  | lose (n : ℕ)
  | serve (l : L) (taken : Option (ℕ × D)) (sent : List (ℕ × Event D A))

namespace Exchange

variable {S L X D : Type} {A : D → Type}

/-- A party makes its next call, or is over. -/
def arrive (P : Parties X D A) (e : Exchange S X D A) (x : X) : Exchange S X D A :=
  match P.call x with
  | some d => { e with
      parties := e.parties.set e.calls x
      calls := e.calls + 1
      requests := e.requests ++ [(e.calls, d)] }
  | none => e

def leave (e : Exchange S X D A) (n : ℕ) : Exchange S X D A :=
  { e with parties := e.parties.erase n }

/-- The request with the number is gone. -/
def drop (e : Exchange S X D A) (n : ℕ) : Exchange S X D A :=
  { e with requests := e.requests.filter fun q => q.1 ≠ n }

/-- The request is taken up, if there is one. -/
def take (e : Exchange S X D A) : Option (ℕ × D) → Exchange S X D A
  | some q => e.drop q.1
  | none => e

/-- The party that waits under the number goes on with the answer. -/
def GoesOn (P : Parties X D A) (e : Exchange S X D A) (n : ℕ) (answer : Event D A) (x' : X) :
    Prop :=
  ∃ x, e.parties.get? n = some x ∧ P.call x = some answer.1 ∧ P.goes x answer.1 answer.2 x'

def step (P : Parties X D A) (V : Server S L D A) (e : Exchange S X D A)
    (l : ExchangeStep L X D A) (e' : Exchange S X D A) : Prop :=
  match l with
  | .enter x => P.enters x ∧ e' = e.arrive P x
  | .resume n answer x => (n, answer) ∈ e.replies ∧ e.GoesOn P n answer x ∧
      e' = (e.leave n).arrive P x
  | .giveUp n answer x => P.failure answer.1 answer.2 ∧ e.GoesOn P n answer x ∧
      e' = (e.leave n).arrive P x
  | .lose n => e' = e.drop n
  | .serve l taken sent => (∀ q ∈ taken, q ∈ e.requests) ∧ ∃ s, V.serve e.server l taken sent s ∧
      e' = { e.take taken with server := s, replies := e.replies ++ sent }

def lts (P : Parties X D A) (V : Server S L D A) :
    Lts (Exchange S X D A) (ExchangeStep L X D A) where
  init e := V.init e.server ∧ e.parties = Dict.empty ∧ e.requests = [] ∧ e.replies = []
  step := step P V

/-! ### Numbers -/

/-- The server replies to the call it takes up and to those it holds. -/
structure Replies (V : Server S L D A) (holds : S → ℕ → Prop) : Prop where
  init : ∀ s n, V.init s → ¬ holds s n
  sent : ∀ s l taken sent s', V.serve s l taken sent s' →
    ∀ q ∈ sent, holds s q.1 ∨ ∃ d, taken = some (q.1, d)
  held : ∀ s l taken sent s', V.serve s l taken sent s' →
    ∀ n, holds s' n → holds s n ∨ ∃ d, taken = some (n, d)

/-- Every number is that of a call that has been made. -/
structure Numbered (holds : S → ℕ → Prop) (e : Exchange S X D A) : Prop where
  parties : ∀ n x, e.parties.get? n = some x → n < e.calls
  requests : ∀ q ∈ e.requests, q.1 < e.calls
  replies : ∀ q ∈ e.replies, q.1 < e.calls
  held : ∀ n, holds e.server n → n < e.calls

variable {P : Parties X D A} {V : Server S L D A} {holds : S → ℕ → Prop}
  {e e' : Exchange S X D A} {l : ExchangeStep L X D A} {n : ℕ} {x : X}

@[simp] lemma arrive_server : (e.arrive P x).server = e.server := by
  unfold arrive
  split <;> rfl

@[simp] lemma arrive_replies : (e.arrive P x).replies = e.replies := by
  unfold arrive
  split <;> rfl

lemma take_requests {taken : Option (ℕ × D)} : (e.take taken).requests ⊆ e.requests := by
  cases taken with
  | none => exact List.Subset.refl _
  | some q => exact fun _ hq => List.mem_of_mem_filter hq

lemma take_parties (taken : Option (ℕ × D)) : (e.take taken).parties = e.parties := by
  cases taken <;> rfl

lemma take_calls (taken : Option (ℕ × D)) : (e.take taken).calls = e.calls := by
  cases taken <;> rfl

/-- A party under a number, after the arrival of another. -/
lemma arrive_get? {m : ℕ} {y : X} (h : (e.arrive P x).parties.get? m = some y) :
    (m = e.calls ∧ y = x ∧ ∃ d, P.call x = some d) ∨ e.parties.get? m = some y := by
  unfold arrive at h
  split at h
  · next d hd =>
    rw [Dict.get?_set] at h
    split at h
    · next hm => exact Or.inl ⟨hm, (Option.some.inj h).symm, d, hd⟩
    · exact Or.inr h
  · exact Or.inr h

lemma leave_get? {m : ℕ} {y : X} (h : (e.leave n).parties.get? m = some y) :
    m ≠ n ∧ e.parties.get? m = some y := by
  rw [leave, Dict.get?_erase] at h
  split at h
  · cases h
  · next hm => exact ⟨hm, h⟩

lemma mem_arrive_requests {q : ℕ × D} (h : q ∈ (e.arrive P x).requests) :
    q ∈ e.requests ∨ q.1 = e.calls ∧ P.call x = some q.2 := by
  unfold arrive at h
  split at h
  · next d hd =>
    rcases List.mem_append.mp h with h | h
    · exact Or.inl h
    · obtain rfl := List.mem_singleton.mp h
      exact Or.inr ⟨rfl, hd⟩
  · exact Or.inl h

lemma calls_le_arrive : e.calls ≤ (e.arrive P x).calls := by
  unfold arrive
  split
  · exact Nat.le_succ _
  · exact Nat.le_refl _

lemma Numbered.leave (h : Numbered holds e) : Numbered holds (e.leave n) :=
  ⟨fun m y hm => h.parties m y (leave_get? hm).2, h.requests, h.replies, h.held⟩

lemma Numbered.arrive (h : Numbered holds e) : Numbered holds (e.arrive P x) where
  parties m y hm := by
    rcases arrive_get? hm with ⟨rfl, -, d, hd⟩ | hm
    · rw [Exchange.arrive, hd]
      exact Nat.lt_succ_self _
    · exact Nat.lt_of_lt_of_le (h.parties m y hm) calls_le_arrive
  requests q hq := by
    rcases mem_arrive_requests hq with hq | ⟨hn, hd⟩
    · exact Nat.lt_of_lt_of_le (h.requests q hq) calls_le_arrive
    · rw [Exchange.arrive, hd, hn]
      exact Nat.lt_succ_self _
  replies q hq := by
    rw [arrive_replies] at hq
    exact Nat.lt_of_lt_of_le (h.replies q hq) calls_le_arrive
  held m hm := by
    rw [arrive_server] at hm
    exact Nat.lt_of_lt_of_le (h.held m hm) calls_le_arrive

/-- **Numbers** stay those of calls. -/
theorem Numbered.step (hV : Replies V holds) (h : Numbered holds e) (hstep : step P V e l e') :
    Numbered holds e' := by
  cases l with
  | enter y =>
    obtain ⟨-, rfl⟩ := hstep
    exact h.arrive
  | resume m answer y =>
    obtain ⟨-, -, rfl⟩ := hstep
    exact h.leave.arrive
  | giveUp m answer y =>
    obtain ⟨-, -, rfl⟩ := hstep
    exact h.leave.arrive
  | lose m =>
    obtain rfl := hstep
    exact ⟨h.parties, fun q hq => h.requests q (List.mem_of_mem_filter hq), h.replies, h.held⟩
  | serve k taken sent =>
    obtain ⟨htaken, s, hserve, rfl⟩ := hstep
    have hlt : ∀ m, (holds e.server m ∨ ∃ d, taken = some (m, d)) → m < e.calls := by
      rintro m (hm | ⟨d, rfl⟩)
      · exact h.held m hm
      · exact h.requests _ (htaken _ rfl)
    refine ⟨fun m y hm => ?_, fun q hq => ?_, fun q hq => ?_, fun m hm => ?_⟩ <;>
      show _ < (e.take taken).calls <;> rw [take_calls]
    · exact h.parties m y (by rwa [← take_parties taken])
    · exact h.requests q (take_requests hq)
    · rcases List.mem_append.mp hq with hq | hq
      · exact h.replies q hq
      · exact hlt _ (hV.sent _ _ _ _ _ hserve q hq)
    · exact hlt m (hV.held _ _ _ _ _ hserve m hm)

/-- What all parties are like. -/
lemma parties_step {N : X → Prop} (henter : ∀ x, P.enters x → N x)
    (hgoes : ∀ x d r x', N x → P.call x = some d → P.goes x d r x' → N x')
    (h : ∀ n x, e.parties.get? n = some x → N x) (hstep : step P V e l e') :
    ∀ n x, e'.parties.get? n = some x → N x := by
  have hgone : ∀ {m answer y}, e.GoesOn P m answer y →
      ∀ n x, ((e.leave m).arrive P y).parties.get? n = some x → N x := by
    rintro m answer y ⟨z, hz, hcall, hgo⟩ n x hx
    rcases arrive_get? hx with ⟨-, rfl, -⟩ | hx
    · exact hgoes z _ _ _ (h m z hz) hcall hgo
    · exact h n x (leave_get? hx).2
  cases l with
  | enter y =>
    obtain ⟨hy, rfl⟩ := hstep
    intro n x hx
    rcases arrive_get? hx with ⟨-, rfl, -⟩ | hx
    · exact henter x hy
    · exact h n x hx
  | resume m answer y =>
    obtain ⟨-, hgo, rfl⟩ := hstep
    exact hgone hgo
  | giveUp m answer y =>
    obtain ⟨-, hgo, rfl⟩ := hstep
    exact hgone hgo
  | lose m =>
    obtain rfl := hstep
    exact h
  | serve k taken sent =>
    obtain ⟨-, s, -, rfl⟩ := hstep
    intro n x hx
    exact h n x (by rwa [← take_parties taken])

/-! ### Calls that are due -/

/-- The call is on its way, or a party makes it as soon as its reply arrives. -/
def Due (P : Parties X D A) (e : Exchange S X D A) (d : D) : Prop :=
  (∃ n, (n, d) ∈ e.requests) ∨
    ∃ n answer x, (n, answer) ∈ e.replies ∧ e.GoesOn P n answer x ∧ P.call x = some d

/-- With the arrival of a party, its call is due. -/
lemma due_arrive (hn : Numbered holds e) {d : D} (h : Due P (e.arrive P x) d) :
    Due P e d ∨ P.call x = some d := by
  rcases h with ⟨m, hm⟩ | ⟨m, answer, y, hm, ⟨z, hz, hcall, hgo⟩, hy⟩
  · rcases mem_arrive_requests hm with hm | ⟨-, hd⟩
    · exact Or.inl (Or.inl ⟨m, hm⟩)
    · exact Or.inr hd
  · rw [arrive_replies] at hm
    rcases arrive_get? hz with ⟨rfl, -⟩ | hz
    -- there is no reply to a new call
    · exact absurd (hn.replies _ hm) (Nat.lt_irrefl _)
    · exact Or.inl (Or.inr ⟨m, answer, y, hm, ⟨z, hz, hcall, hgo⟩, hy⟩)

lemma due_leave {d : D} (h : Due P (e.leave n) d) : Due P e d := by
  rcases h with h | ⟨m, answer, y, hm, ⟨z, hz, hgo⟩, hy⟩
  · exact Or.inl h
  · exact Or.inr ⟨m, answer, y, hm, ⟨z, (leave_get? hz).2, hgo⟩, hy⟩

/-- **The calls that are due** keep what the server's steps keep, where the calls of those who enter
or give up have it, and the calls that follow from a new reply. -/
theorem due_step {G : S → D → Prop} (hnumbered : Numbered holds e)
    (henter : ∀ x d, P.enters x → P.call x = some d → G e.server d)
    (hfail : ∀ n answer x d, e.GoesOn P n answer x → P.failure answer.1 answer.2 →
      P.call x = some d → G e.server d)
    (hserve : ∀ k taken sent s, l = .serve k taken sent → V.serve e.server k taken sent s →
      (∀ d, Due P e d → G s d) ∧ ∀ n answer x d, (n, answer) ∈ sent → e.GoesOn P n answer x →
        P.call x = some d → G s d)
    (h : ∀ d, Due P e d → G e.server d) (hstep : step P V e l e') :
    ∀ d, Due P e' d → G e'.server d := by
  intro d hd
  cases l with
  | enter y =>
    obtain ⟨hy, rfl⟩ := hstep
    rw [arrive_server]
    exact (due_arrive hnumbered hd).elim (h d) (henter y d hy)
  | resume m answer y =>
    obtain ⟨hreply, hgo, rfl⟩ := hstep
    rw [arrive_server]
    refine h d ((due_arrive hnumbered.leave hd).elim due_leave fun hy => ?_)
    exact Or.inr ⟨m, answer, y, hreply, hgo, hy⟩
  | giveUp m answer y =>
    obtain ⟨hanswer, hgo, rfl⟩ := hstep
    rw [arrive_server]
    exact (due_arrive hnumbered.leave hd).elim (fun hd => h d (due_leave hd))
      (hfail m answer y d hgo hanswer)
  | lose m =>
    obtain rfl := hstep
    refine h d ?_
    rcases hd with ⟨k, hk⟩ | hd
    · exact Or.inl ⟨k, List.mem_of_mem_filter hk⟩
    · exact Or.inr hd
  | serve k taken sent =>
    obtain ⟨-, s, hs, rfl⟩ := hstep
    obtain ⟨hold, hnew⟩ := hserve k taken sent s rfl hs
    rcases hd with ⟨m, hm⟩ | ⟨m, answer, y, hm, ⟨z, hz, hgo⟩, hy⟩
    · exact hold d (Or.inl ⟨m, take_requests hm⟩)
    · have hz : e.parties.get? m = some z := by rwa [← take_parties taken]
      rcases List.mem_append.mp hm with hm | hm
      · exact hold d (Or.inr ⟨m, answer, y, hm, ⟨z, hz, hgo⟩, hy⟩)
      · exact hnew m answer y d hm ⟨z, hz, hgo⟩ hy

end Exchange

end Orchestrator.Lib
