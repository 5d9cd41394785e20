import Mathlib.Data.List.Basic

/-!
Histories: lists of events, the last one first, where the state before an event can be read back
from the event and the state after it. What is said of every event is said with the state after it
and the events before it.
-/

namespace Orchestrator.Lib

variable {σ ν : Type} {back : σ → ν → σ} {I J : σ → Prop} {P Q : σ → ν → List ν → Prop}
  {s : σ} {l : List ν}

/-- `I` of the state at the beginning, and `P` of every event. -/
def Throughout (back : σ → ν → σ) (I : σ → Prop) (P : σ → ν → List ν → Prop) : σ → List ν → Prop
  | s, [] => I s
  | s, e :: l => P s e l ∧ Throughout back I P (back s e) l

instance [DecidablePred I] [∀ s e l, Decidable (P s e l)] (s : σ) (l : List ν) :
    Decidable (Throughout back I P s l) := by
  induction l generalizing s with
  | nil => exact inferInstanceAs (Decidable (I s))
  | cons e l ih =>
    have := ih (back s e)
    exact inferInstanceAs (Decidable (P s e l ∧ Throughout back I P (back s e) l))

/-- The state before an event, where there are events of others in between, which leave it. -/
def backOwn {μ : Type} (back : σ → ν → σ) (s : σ) : ν ⊕ μ → σ
  | .inl e => back s e
  | .inr _ => s

namespace Throughout

@[simp] lemma nil : Throughout back I P s [] ↔ I s := Iff.rfl

@[simp] lemma cons {e : ν} :
    Throughout back I P s (e :: l) ↔ P s e l ∧ Throughout back I P (back s e) l := Iff.rfl

lemma and (h : Throughout back I P s l) (h' : Throughout back J Q s l) :
    Throughout back (fun s => I s ∧ J s) (fun s e l => P s e l ∧ Q s e l) s l := by
  induction l generalizing s with
  | nil => exact ⟨h, h'⟩
  | cons e l ih => exact ⟨⟨h.1, h'.1⟩, ih h.2 h'.2⟩

/-- **What every event keeps** holds after the history, and before each event. -/
theorem invariant {K : σ → List ν → Prop} (h : Throughout back I P s l) (hI : ∀ s, I s → K s [])
    (hP : ∀ s e l, K (back s e) l → P s e l → K s (e :: l)) :
    K s l ∧ Throughout back I (fun s e l => P s e l ∧ K (back s e) l) s l := by
  induction l generalizing s with
  | nil => exact ⟨hI s h, h⟩
  | cons e l ih =>
    obtain ⟨hK, hrest⟩ := ih h.2
    exact ⟨hP s e l hK h.1, ⟨h.1, hK⟩, hrest⟩

lemma of_suffix (h : Throughout back I P s l) {e : ν} {m : List ν} (hm : e :: m <:+ l) :
    ∃ t, P t e m := by
  induction l generalizing s with
  | nil => exact absurd (List.suffix_nil.mp hm) (List.cons_ne_nil e m)
  | cons f l ih =>
    rcases List.suffix_cons_iff.mp hm with heq | hm
    · obtain ⟨rfl, rfl⟩ := List.cons.inj heq
      exact ⟨s, h.1⟩
    · exact ih h.2 hm

lemma of_mem (h : Throughout back I P s l) {e : ν} (he : e ∈ l) : ∃ t m, P t e m := by
  obtain ⟨m₁, m₂, rfl⟩ := List.append_of_mem he
  obtain ⟨t, ht⟩ := h.of_suffix (List.suffix_append m₁ (e :: m₂))
  exact ⟨t, m₂, ht⟩

/-! ### Other events in between -/

/-- **A history with others' events in between**: what is said of its own events still holds. -/
theorem merge {μ : Type} {l : List (ν ⊕ μ)} (h : Throughout back I P s (l.filterMap Sum.getLeft?)) :
    Throughout (backOwn back) I
      (fun s e l => ∀ n, e = .inl n → P s n (l.filterMap Sum.getLeft?)) s l := by
  induction l generalizing s with
  | nil => exact h
  | cons e l ih =>
    cases e with
    | inl n => exact ⟨fun n' hn => Sum.inl.inj hn ▸ h.1, ih h.2⟩
    | inr m => exact ⟨(fun _ hn => by cases hn), ih h⟩

end Throughout

end Orchestrator.Lib
