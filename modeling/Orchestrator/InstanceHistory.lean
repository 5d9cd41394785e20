import Orchestrator.Lib.Histories
import Orchestrator.LifecycleRestart

/-!
What the history of a run says of instances and of their processes.

The notes of a run come with the registries between them. An active record was active before, for
the same backend, or it has just been entered and its process launched; a process that is stopped is
that of an active record, and a record that is active no longer is that of a stop.
-/

namespace Orchestrator.Lifecycle.Lives

open Lib Lib.Coro Clock

variable {r b : Registry} {id : String} {i j k : BackendInstance} {p : Process} {l : List Entry}
  {s : LifecycleState}

/-! ### Backends of records -/

/-- The instance runs the process: the adapter has launched it and would stop it. -/
def Hosts (i : BackendInstance) : Process → Prop
  | .container name => i.dryRun = false ∧ i.containerName = some name
  | .load lmsBinary identifier => i.dryRun = false ∧ i.runtime = "lmstudio" ∧
      (i.metadata.get "lmstudio_loaded_with_lms").truthy = true ∧
      lmsBinary = unloadBinary i ∧ identifier = i.backendModel

instance (i : BackendInstance) (p : Process) : Decidable (Hosts i p) := by
  cases p <;> unfold Hosts <;> infer_instance

/-- The process is that of an active record, under the id. -/
def Hosted (r : Registry) (p : Process) (id : String) : Prop :=
  ∃ i, r.get? id = some i ∧ i.state.isActive = true ∧ Hosts i p

/-- The records are those of one instance, in what its adapter goes by. -/
structure Alike (i j : BackendInstance) : Prop where
  hostPort : j.hostPort = i.hostPort
  backendModel : j.backendModel = i.backendModel
  runtime : j.runtime = "lmstudio" ↔ i.runtime = "lmstudio"
  containerName : j.containerName = i.containerName
  dryRun : j.dryRun = i.dryRun
  unloadBinary : unloadBinary j = unloadBinary i
  loaded : j.metadata.get "lmstudio_loaded_with_lms" = i.metadata.get "lmstudio_loaded_with_lms"

namespace Alike

lemma refl (i : BackendInstance) : Alike i i := ⟨rfl, rfl, Iff.rfl, rfl, rfl, rfl, rfl⟩

lemma trans (h : Alike i j) (h' : Alike j k) : Alike i k :=
  ⟨h'.hostPort.trans h.hostPort, h'.backendModel.trans h.backendModel, h'.runtime.trans h.runtime,
    h'.containerName.trans h.containerName, h'.dryRun.trans h.dryRun,
    h'.unloadBinary.trans h.unloadBinary, h'.loaded.trans h.loaded⟩

lemma hosts (h : Alike i j) : Hosts j p ↔ Hosts i p := by
  cases p with
  | container name => simp only [Hosts, h.dryRun, h.containerName]
  | load lmsBinary identifier =>
    simp only [Hosts, h.dryRun, h.runtime, h.loaded, h.unloadBinary, h.backendModel]

/-- A mark leaves the instance the same. -/
lemma of_marked {state : BackendState} {reason : Option String} {t : String} (h : Alike i j) :
    Alike { i with state := state, failureReason := reason, updatedAt := t } j :=
  ⟨h.hostPort, h.backendModel, h.runtime, h.containerName, h.dryRun, h.unloadBinary, h.loaded⟩

lemma of_reshaped (h : Reshaped i j) (hi : i.backendModel ≠ "") : Alike i j where
  hostPort := h.hostPort
  backendModel := h.backendModel hi
  runtime := by
    by_cases hr : i.runtime = ""
    · rcases h.runtime_empty hr with h | h <;> simp [h, hr]
    · rw [h.runtime hr]
  containerName := h.containerName
  dryRun := h.dryRun
  unloadBinary := by
    rw [Lifecycle.unloadBinary, h.metadata "lms_binary" (by decide), h.runtimeCommand]
    rfl
  loaded := h.metadata _ (by decide)

end Alike

/-! ### Changes of the registry -/

/-- The record under the id is that of an instance that was not there before. -/
def Enters (b r : Registry) (id : String) (j : BackendInstance) : Prop :=
  r.get? id = some j ∧ ∀ i ∈ b.get? id, i.hostPort ≠ j.hostPort

instance {K : String → BackendInstance → Prop} [∀ id j, Decidable (K id j)] :
    Decidable (∀ id j, Enters b r id j → K id j) :=
  decidable_of_iff (∀ p ∈ r.entries, (∀ i ∈ b.get? p.1, i.hostPort ≠ p.2.hostPort) → K p.1 p.2)
    ⟨fun h id j hj => h (id, j) (Dict.get?_eq_some.mp hj.1) hj.2,
      fun h p hp hnew => h p.1 p.2 ⟨Dict.get?_eq_some.mpr hp, hnew⟩⟩

/-- An instance is entered under an id that no active record has, and with a backend model; one that
is drained was ready or draining. -/
structure Proper (b r : Registry) : Prop where
  entered : ∀ id j, Enters b r id j → ∀ i ∈ b.get? id, i.state.isActive = false
  named : ∀ id j, Enters b r id j → j.state.isActive = true → j.backendModel ≠ ""
  drained : ∀ id j, r.get? id = some j → j.state = .draining →
    ∃ i ∈ b.get? id, i.state = .ready ∨ i.state = .draining

instance (b r : Registry) : Decidable (Proper b r) :=
  have : Decidable (∀ id j, r.get? id = some j → j.state = .draining →
      ∃ i ∈ b.get? id, i.state = .ready ∨ i.state = .draining) :=
    decidable_of_iff _ Dict.forall_entries
  decidable_of_iff (_ ∧ _ ∧ _) ⟨fun h => ⟨h.1, h.2.1, h.2.2⟩, fun h => ⟨h.1, h.2, h.3⟩⟩

/-- The last thing that happened is that the process of the instance was stopped, or that its stop
was called. -/
def Halting (id : String) (i : BackendInstance) (l : List Entry) : Prop :=
  (∃ p registry ok t m, Hosts i p ∧ l = ⟨.halted p id registry ok, t⟩ :: m) ∨
    ∃ j registry t m, j.instanceId = id ∧ l = ⟨.stopping j registry, t⟩ :: m

lemma Halting.of_hosts (h : Halting id i l) (hij : ∀ p, Hosts i p → Hosts j p) : Halting id j l :=
  h.imp_left fun ⟨p, registry, ok, t, m, hp, hl⟩ => ⟨p, registry, ok, t, m, hij p hp, hl⟩

/-- An active record was active before, or it is that of an instance whose process has just been
launched. An active record is active on, or marked as stopped or failed when its process is. -/
structure Step (b r : Registry) (l : List Entry) : Prop where
  once : ∀ id id' j j', Enters b r id j → Enters b r id' j' → id = id'
  active : ∀ id j, r.get? id = some j → j.state.isActive = true →
    (∃ i, b.get? id = some i ∧ i.state.isActive = true ∧ Alike i j) ∨
      Enters b r id j ∧ j.hostPort ≠ none ∧ ∀ p, Hosts j p → ∃ t m, l = ⟨.launched p id, t⟩ :: m
  stays : ∀ id i, b.get? id = some i → i.state.isActive = true →
    ∃ j, r.get? id = some j ∧ Alike i j ∧ (j.state.isActive = true ∨
      (j.state = .stopped ∨ j.state = .failed) ∧ ∀ p, Hosts i p → Halting id i l)

lemma Enters.eq_of_set {id' : String} (h : Enters b (b.set id j) id' k) : id' = id := by
  by_contra hne
  exact h.2 k ((Dict.get?_set_ne _ _ hne).symm.trans h.1) rfl

lemma step_set (hi : b.get? id = some i)
    (hij : i.state.isActive = true → Alike i j ∧ (j.state.isActive = true ∨
      (j.state = .stopped ∨ j.state = .failed) ∧ ∀ p, Hosts i p → Halting id i l))
    (hji : j.state.isActive = true → i.state.isActive = true) : Step b (b.set id j) l where
  once _ _ _ _ h h' := h.eq_of_set.trans h'.eq_of_set.symm
  active id' j' hj' hactive := by
    rw [Dict.get?_set] at hj'
    split at hj'
    · next h =>
      cases hj'
      exact Or.inl ⟨i, h ▸ hi, hji hactive, (hij (hji hactive)).1⟩
    · exact Or.inl ⟨j', hj', hactive, Alike.refl j'⟩
  stays id' i' hi' hactive := by
    by_cases h : id' = id
    · subst h
      obtain rfl := Option.some.inj (hi.symm.trans hi')
      exact ⟨j, Dict.get?_set_self _ _ _, hij hactive⟩
    · exact ⟨i', (Dict.get?_set_ne _ _ h).trans hi', Alike.refl i', Or.inl hactive⟩

lemma step_enter (hidle : ∀ i, b.get? id = some i → i.state.isActive = false)
    (hj : j.state.isActive = true → Enters b (b.set id j) id j ∧ j.hostPort ≠ none ∧
      ∀ p, Hosts j p → ∃ t m, l = ⟨.launched p id, t⟩ :: m) : Step b (b.set id j) l where
  once _ _ _ _ h h' := h.eq_of_set.trans h'.eq_of_set.symm
  active id' j' hj' hactive := by
    rw [Dict.get?_set] at hj'
    split at hj'
    · next h =>
      cases hj'
      exact Or.inr (h ▸ hj hactive)
    · exact Or.inl ⟨j', hj', hactive, Alike.refl j'⟩
  stays id' i' hi' hactive := by
    have h : id' ≠ id := by
      rintro rfl
      exact Bool.false_ne_true ((hidle i' hi').symm.trans hactive)
    exact ⟨i', (Dict.get?_set_ne _ _ h).trans hi', Alike.refl i', Or.inl hactive⟩

lemma step_erase (hidle : ∀ i, b.get? id = some i → i.state.isActive = false) :
    Step b (b.erase id) l where
  once id₁ _ k _ h _ := by
    have hk := h.1
    rw [Dict.get?_erase] at hk
    split at hk
    · cases hk
    · exact absurd rfl (h.2 k hk)
  active id' j' hj' hactive := by
    rw [Dict.get?_erase] at hj'
    split at hj'
    · cases hj'
    · exact Or.inl ⟨j', hj', hactive, Alike.refl j'⟩
  stays id' i' hi' hactive := by
    have h : id' ≠ id := by
      rintro rfl
      exact Bool.false_ne_true ((hidle i' hi').symm.trans hactive)
    exact ⟨i', by rw [Dict.get?_erase, if_neg h, hi'], Alike.refl i', Or.inl hactive⟩

/-! ### Histories -/

/-- The registry before an event. -/
def registryBefore (r : Registry) (e : Entry) : Registry :=
  match e.note with
  | .changed before => before
  | _ => r

/-- Every change of the registry so far, with the events before it. -/
def EveryChange (Q : Registry → Registry → List Entry → Prop) (s : LifecycleState) : Prop :=
  Throughout registryBefore (fun _ => True)
    (fun r e l => ∀ before, e.note = .changed before → Q before r l) s.registry s.log

instance {Q : Registry → Registry → List Entry → Prop} [∀ b r l, Decidable (Q b r l)]
    (s : LifecycleState) : Decidable (EveryChange Q s) :=
  have : ∀ r e l, Decidable (∀ before, Entry.note e = .changed before → Q before r l) :=
    fun r e l => match e with
      | ⟨.changed before, _⟩ =>
        decidable_of_iff (Q before r l) ⟨(fun h _ hb => Note.changed.inj hb ▸ h), fun h => h _ rfl⟩
      | ⟨.released _, _⟩ | ⟨.idleStop _ _, _⟩ | ⟨.stopping _ _, _⟩ | ⟨.launched _ _, _⟩
      | ⟨.halted _ _ _ _, _⟩ => isTrue fun _ hb => by cases hb
  inferInstanceAs (Decidable (Throughout _ _ _ _ _))

/-- The condition on a run: all changes are proper. -/
def Orderly : LifecycleState → Prop := EveryChange fun b r _ => Proper b r

instance (s : LifecycleState) : Decidable (Orderly s) :=
  inferInstanceAs (Decidable (EveryChange _ s))

/-- The last thing that happened is the launch of a process. -/
def Launched (l : List Entry) (p : Process) (id : String) : Prop :=
  ∃ t m, l = ⟨.launched p id, t⟩ :: m

/-- What an event says of the registry after it and of the events before it. -/
structure Told (r : Registry) (e : Entry) (l : List Entry) : Prop where
  step : ∀ before, e.note = .changed before → Step before r l
  entered : ∀ p id, Launched l p id → (∃ before, e.note = .changed before) ∧ Hosted r p id
  halted : ∀ p id registry ok, e.note = .halted p id registry ok → registry = r ∧ Hosted r p id

/-- The history of a run that began without records. -/
def Lawful (s : LifecycleState) : Prop :=
  Throughout registryBefore (· = .empty) Told s.registry s.log

lemma everyChange_change {Q : Registry → Registry → List Entry → Prop} :
    EveryChange Q (s.change r) ↔ Q s.registry r s.log ∧ EveryChange Q s := by
  rw [EveryChange, LifecycleState.change_log, Throughout.cons]
  refine and_congr ⟨fun h => h _ rfl, fun h before hb => ?_⟩ Iff.rfl
  exact Note.changed.inj hb ▸ h

lemma orderly_change : Orderly (s.change r) ↔ Proper s.registry r ∧ Orderly s := everyChange_change

lemma registryBefore_noted {note : Note} (h : ∀ before, note ≠ .changed before) (t : DateTime) :
    registryBefore r ⟨note, t⟩ = r := by
  cases note with
  | changed before => exact absurd rfl (h before)
  | _ => rfl

lemma orderly_noted {note : Note} (h : ∀ before, note ≠ .changed before) :
    Orderly (s.noted note) ↔ Orderly s := by
  rw [Orderly, EveryChange, LifecycleState.noted_log, Throughout.cons,
    LifecycleState.noted_registry, registryBefore_noted h]
  exact and_iff_right fun before hb => absurd hb (h before)

/-- The active records have a backend model and a port. -/
def Named (r : Registry) : Prop :=
  ∀ id i, r.get? id = some i → i.state.isActive = true → i.backendModel ≠ "" ∧ i.hostPort ≠ none

lemma Named.step (hb : Named b) (hproper : Proper b r) (hstep : Step b r l) : Named r := by
  intro id j hj hactive
  rcases hstep.active id j hj hactive with ⟨i, hi, hiactive, hij⟩ | ⟨hentered, hport, -⟩
  · rw [hij.backendModel, hij.hostPort]
    exact hb id i hi hiactive
  · exact ⟨hproper.named id j hentered hactive, hport⟩

/-- A restart changes nothing. -/
lemma step_reloaded (hnamed : Named b) (h' : Reloaded b r) : Step b r l where
  once id _ j _ h _ := by
    obtain ⟨i, hi, hij⟩ := h'.of_some h.1
    exact absurd hij.hostPort.symm (h.2 i hi)
  active id j hj hactive := by
    obtain ⟨i, hi, hij⟩ := h'.of_some hj
    rw [hij.state] at hactive
    exact Or.inl ⟨i, hi, hactive, Alike.of_reshaped hij (hnamed id i hi hactive).1⟩
  stays id i hi hactive := by
    obtain ⟨j, hj, hij⟩ := h'.present id i hi
    exact ⟨j, hj, Alike.of_reshaped hij (hnamed id i hi hactive).1, Or.inl (hij.state ▸ hactive)⟩

lemma Lawful.named (h : Lawful s) (horderly : Orderly s) : Named s.registry := by
  refine ((Throughout.and h horderly).invariant (K := fun r _ => Named r) (fun r hr => ?_)
    fun r e l hr he => ?_).1
  · rw [hr.1]
    exact fun _ _ hi => by cases hi
  · obtain ⟨note, t⟩ := e
    cases note with
    | changed before => exact Named.step hr (he.2 before rfl) (he.1.step before rfl)
    | _ => exact hr

end Orchestrator.Lifecycle.Lives
