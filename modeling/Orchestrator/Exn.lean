import Mathlib.Data.Nat.Notation
import Mathlib.Tactic.Lemma

/-!
Exceptions: the distinctions the services' handlers make, the name of the class and the
message.
-/

namespace Orchestrator

inductive ExnKind
  | taskProtocol
  | jsonDecode
  | policy (statusCode : ℕ) (errorType : String)
  | queueFull
  | queueTimeout
  | allocationUnavailable
  | clientDisconnected
  | httpStatus (code : ℕ)
  | http
  | cancelled
  | other
  deriving DecidableEq

structure Exn where
  kind : ExnKind
  name : String
  message : String
  deriving DecidableEq

namespace Exn

/-- `httpx.HTTPError`, of which `httpx.HTTPStatusError` is a subclass. -/
def isHTTPError (e : Exn) : Bool :=
  match e.kind with
  | .http => true
  | .httpStatus _ => true
  | _ => false

/-- `Exception`: everything here but `asyncio.CancelledError`. -/
def isException (e : Exn) : Bool := e.kind != .cancelled

def taskProtocolError (message : String) : Exn := ⟨.taskProtocol, "TaskProtocolError", message⟩
def valueError (message : String) : Exn := ⟨.other, "ValueError", message⟩
def typeError (message : String) : Exn := ⟨.other, "TypeError", message⟩
def overflowError (message : String) : Exn := ⟨.other, "OverflowError", message⟩
def keyError (message : String) : Exn := ⟨.other, "KeyError", message⟩
def cancelledError : Exn := ⟨.cancelled, "CancelledError", ""⟩

end Exn

lemma bind_eq_ok {ε α β : Type} {x : Except ε α} {f : α → Except ε β} {b : β} :
    (x >>= f) = .ok b ↔ ∃ a, x = .ok a ∧ f a = .ok b := by
  cases x with
  | error e => exact ⟨nofun, nofun⟩
  | ok a =>
    constructor
    · intro h
      exact ⟨a, rfl, h⟩
    · rintro ⟨_, ha, h⟩
      cases ha
      exact h

lemma bind_eq_error {ε α β : Type} {x : Except ε α} {f : α → Except ε β} {e : ε} :
    (x >>= f) = .error e ↔ x = .error e ∨ ∃ a, x = .ok a ∧ f a = .error e := by
  cases x with
  | error e' =>
    constructor
    · intro h
      cases h
      exact Or.inl rfl
    · rintro (h | ⟨_, h, -⟩)
      · cases h; rfl
      · cases h
  | ok a =>
    constructor
    · intro h
      exact Or.inr ⟨a, rfl, h⟩
    · rintro (h | ⟨_, h, hf⟩)
      · cases h
      · cases h; exact hf

/-! ### What is raised -/

section Raises

variable {ε α β : Type} {Q : ε → Prop}

/-- A computation raises an exception of a kind. -/
def Raises (Q : ε → Prop) (x : Except ε α) : Prop := ∃ e, x = .error e ∧ Q e

@[simp] lemma raises_ok {a : α} : ¬Raises Q (.ok a) := fun ⟨_, h, _⟩ => by cases h

@[simp] lemma raises_pure {a : α} : ¬Raises Q (pure a : Except ε α) := raises_ok

@[simp] lemma raises_error {e : ε} : Raises Q (.error e : Except ε α) ↔ Q e := by
  constructor
  · rintro ⟨_, h, hQ⟩
    cases h
    exact hQ
  · intro hQ
    exact ⟨e, rfl, hQ⟩

lemma raises_bind {x : Except ε α} {f : α → Except ε β} :
    Raises Q (x >>= f) ↔ Raises Q x ∨ ∃ a, x = .ok a ∧ Raises Q (f a) := by
  unfold Raises
  simp only [bind_eq_error]
  constructor
  · rintro ⟨e, h | ⟨a, ha, hf⟩, hQ⟩
    · exact Or.inl ⟨e, h, hQ⟩
    · exact Or.inr ⟨a, ha, e, hf, hQ⟩
  · rintro (⟨e, h, hQ⟩ | ⟨a, ha, e, hf, hQ⟩)
    · exact ⟨e, Or.inl h, hQ⟩
    · exact ⟨e, Or.inr ⟨a, ha, hf⟩, hQ⟩

lemma raises_map {x : Except ε α} {f : α → β} : Raises Q (x.map f) ↔ Raises Q x := by
  cases x with
  | error e => exact raises_error.trans raises_error.symm
  | ok a => exact iff_of_false raises_ok raises_ok

/-- Of a list of checks, the first that does not pass fails in a way of its own. -/
def FirstFails {ι : Type} (passes fails : ι → Prop) : List ι → Prop
  | [] => False
  | i :: rest => fails i ∨ passes i ∧ FirstFails passes fails rest

lemma FirstFails.exists_mem {ι : Type} {passes fails : ι → Prop} {l : List ι}
    (h : FirstFails passes fails l) : ∃ i ∈ l, fails i := by
  induction l with
  | nil => exact h.elim
  | cons i l ih =>
    rcases h with h | ⟨-, h⟩
    · exact ⟨i, List.mem_cons_self, h⟩
    · obtain ⟨j, hj, hfails⟩ := ih h
      exact ⟨j, List.mem_cons_of_mem _ hj, hfails⟩

end Raises

end Orchestrator
