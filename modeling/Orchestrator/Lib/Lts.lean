import Mathlib.Logic.Relation

/-!
Labelled transition systems, runs whose steps all meet a condition, and the induction rules
every safety result goes through: an invariant of one step is an invariant of the runs, and
what one step keeps from an invariant state a whole run keeps.
-/

namespace Orchestrator.Lib

structure Lts (S L : Type) where
  init : S → Prop
  step : S → L → S → Prop

namespace Lts

variable {S L : Type} (T : Lts S L) (P : S → L → Prop)

/-- One step, with the condition `P` on the state before it and on its label. -/
def StepIf (s s' : S) : Prop := ∃ l, P s l ∧ T.step s l s'

/-- A finite run whose steps all meet `P`. -/
def Run : S → S → Prop := Relation.ReflTransGen (T.StepIf P)

/-- The states reached from an initial state by such runs. -/
def Reachable (s : S) : Prop := ∃ s₀, T.init s₀ ∧ T.Run P s₀ s

/-- No condition on the steps. -/
def anyStep : S → L → Prop := fun _ _ => True

variable {T P} {I : S → Prop}

lemma Run.refl (s : S) : T.Run P s s := Relation.ReflTransGen.refl

lemma Run.tail {s t u : S} {l : L} (h : T.Run P s t) (hP : P t l) (hs : T.step t l u) :
    T.Run P s u := Relation.ReflTransGen.tail h ⟨l, hP, hs⟩

lemma Run.single {s t : S} {l : L} (hP : P s l) (hs : T.step s l t) : T.Run P s t :=
  (Run.refl s).tail hP hs

lemma Run.trans {s t u : S} (h : T.Run P s t) (h' : T.Run P t u) : T.Run P s u :=
  Relation.ReflTransGen.trans h h'

lemma Run.mono {Q : S → L → Prop} (hPQ : ∀ s l, P s l → Q s l) {s t : S} (h : T.Run P s t) :
    T.Run Q s t :=
  Relation.ReflTransGen.mono (fun _ _ ⟨l, hP, hs⟩ => ⟨l, hPQ _ _ hP, hs⟩) _ _ h

lemma Reachable.init {s : S} (h : T.init s) : T.Reachable P s := ⟨s, h, Run.refl s⟩

lemma Reachable.run {s t : S} (h : T.Reachable P s) (h' : T.Run P s t) : T.Reachable P t := by
  obtain ⟨s₀, h0, hr⟩ := h
  exact ⟨s₀, h0, hr.trans h'⟩

/-- **Run induction** from an arbitrary state. -/
theorem Run.invariant (hstep : ∀ s l t, I s → P s l → T.step s l t → I t) {s t : S}
    (h : T.Run P s t) (hs : I s) : I t := by
  induction h with
  | refl => exact hs
  | tail _ hst ih => obtain ⟨l, hP, hl⟩ := hst; exact hstep _ _ _ ih hP hl

/-- **Invariant induction** over the reachable states. -/
theorem Reachable.invariant (hinit : ∀ s, T.init s → I s)
    (hstep : ∀ s l t, I s → P s l → T.step s l t → I t) {s : S} (h : T.Reachable P s) : I s := by
  obtain ⟨s₀, h0, hr⟩ := h
  exact hr.invariant hstep (hinit _ h0)

/-- **Stability**: what every step keeps in invariant states, a run keeps. -/
theorem Run.stable {K : S → Prop} (hstep : ∀ s l t, I s → P s l → T.step s l t → I t)
    (hkeep : ∀ s l t, I s → K s → P s l → T.step s l t → K t) {s t : S} (h : T.Run P s t)
    (hI : I s) (hK : K s) : K t := by
  have both : I t ∧ K t := Run.invariant (I := fun s => I s ∧ K s)
    (fun s l t hs hP hl => ⟨hstep s l t hs.1 hP hl, hkeep s l t hs.1 hs.2 hP hl⟩) h ⟨hI, hK⟩
  exact both.2

end Lts

end Orchestrator.Lib
