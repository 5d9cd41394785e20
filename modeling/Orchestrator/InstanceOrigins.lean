import Orchestrator.RunningProcesses

/-!
Where instances and their processes come from. A process that lifecycle stops for an instance is one
that it has launched for it, and a record that is active was so before or has been entered since: no
stopped or failed instance comes back.
-/

namespace Orchestrator.Lifecycle.Origins

open Lib Lib.Coro Clock Lives

variable {r b : Registry} {id : String} {i j k : BackendInstance} {p : Process} {e : Entry}
  {l recent older : List Entry}

/-! ### Launches -/

/-- The last event, if it is a stop, is that of a process that was launched for the instance. -/
def StopsOwn : List Entry → Prop
  | ⟨.halted p id _ _, _⟩ :: before => ∃ e ∈ before, e.note = .launched p id
  | _ => True

/-- What an active record runs was launched for it. -/
def Founded (r : Registry) (l : List Entry) : Prop :=
  ∀ p id, Hosted r p id → ∃ e ∈ l, e.note = .launched p id

lemma Founded.step (h : Founded (registryBefore r e) l) (htold : Told r e l) :
    Founded r (e :: l) := by
  intro p id hosted
  have hold : Hosted (registryBefore r e) p id → ∃ e' ∈ e :: l, e'.note = .launched p id := by
    intro hosted
    obtain ⟨e', he', hn⟩ := h p id hosted
    exact ⟨e', List.mem_cons_of_mem _ he', hn⟩
  obtain ⟨note, t⟩ := e
  cases note with
  | changed before =>
    obtain ⟨j, hj, hactive, hosts⟩ := hosted
    rcases (htold.step before rfl).active id j hj hactive with ⟨i, hi, hiactive, hij⟩ | ⟨-, -, hl⟩
    · exact hold ⟨i, hi, hiactive, hij.hosts.mp hosts⟩
    · obtain ⟨t', m, rfl⟩ := hl p hosts
      exact ⟨_, List.mem_cons_of_mem _ List.mem_cons_self, rfl⟩
  | _ => exact hold hosted

/-- **Lifecycle stops what it has launched**: in every orderly run, over all interleavings and
restarts, a process is stopped for an instance only after it was launched for it. -/
theorem stops_own {S : Server} (h : serverLts.Reachable Lts.anyStep S)
    (horderly : Orderly S.processes.state) :
    ∀ recent, recent <:+ S.processes.state.log → StopsOwn recent := by
  have hhistory := (reachable_honest h horderly).1.invariant (K := Founded)
    (fun r hr p id hosted => ?_) fun r e l hr he => hr.step he
  · intro recent hrecent
    unfold StopsOwn
    split
    next p id registry ok t before =>
      obtain ⟨r, htold, hfounded⟩ := hhistory.2.of_suffix hrecent
      obtain ⟨-, hosted⟩ := htold.halted p id registry ok rfl
      exact hfounded p id hosted
    next => trivial
  · obtain ⟨i, hi, -⟩ := hosted
    rw [hr] at hi
    cases hi

theorem stops_own_cleanedUp :
    (∃ recent ∈ (Shared.cleanedUp Shared.chatReady).processes.state.log.tails,
      ∃ e ∈ recent.head?, (Running.endedFor e.note).isSome) ∧
    ∀ recent, recent <:+ (Shared.cleanedUp Shared.chatReady).processes.state.log →
      StopsOwn recent :=
  ⟨by decide +kernel, stops_own (Lts.Reachable.run Shared.reachable_chatReady
    (Shared.run_called 300 _ _)) (by decide +kernel)⟩

/-! ### Lives -/

/-- The registry before the last events. -/
def registryAt (s : LifecycleState) (recent : List Entry) : Registry :=
  recent.foldl registryBefore s.registry

/-- The record under the id was entered at one of the events, for an instance as the given one. -/
def EnteredIn (r : Registry) (id : String) (j : BackendInstance) (recent : List Entry) : Prop :=
  ∃ newer e mid before k, recent = newer ++ e :: mid ∧ e.note = .changed before ∧
    Enters before (newer.foldl registryBefore r) id k ∧ Alike k j

lemma EnteredIn.cons (h : EnteredIn (registryBefore r e) id i recent) (hij : Alike i j) :
    EnteredIn r id j (e :: recent) := by
  obtain ⟨newer, e', mid, before, k, rfl, he', henters, hk⟩ := h
  exact ⟨e :: newer, e', mid, before, k, rfl, he', henters, hk.trans hij⟩

lemma active_or_entered (h : Throughout registryBefore (· = .empty) Told r (recent ++ older))
    (hj : r.get? id = some j) (hactive : j.state.isActive = true) :
    (∃ i, (recent.foldl registryBefore r).get? id = some i ∧ i.state.isActive = true ∧ Alike i j) ∨
      EnteredIn r id j recent := by
  induction recent generalizing r j with
  | nil => exact Or.inl ⟨j, hj, hactive, Alike.refl j⟩
  | cons e recent ih =>
    obtain ⟨htold, hrest⟩ := h
    have hbefore : ∀ i, (registryBefore r e).get? id = some i → i.state.isActive = true →
        Alike i j → (∃ i, ((e :: recent).foldl registryBefore r).get? id = some i ∧
          i.state.isActive = true ∧ Alike i j) ∨ EnteredIn r id j (e :: recent) := by
      intro i hi hiactive hij
      rcases ih hrest hi hiactive with ⟨k, hk, hkactive, hki⟩ | hentered
      · exact Or.inl ⟨k, hk, hkactive, hki.trans hij⟩
      · exact Or.inr (hentered.cons hij)
    obtain ⟨note, t⟩ := e
    cases note with
    | changed before =>
      rcases (htold.step before rfl).active id j hj hactive with ⟨i, hi, hiactive, hij⟩ | ⟨he, -⟩
      · exact hbefore i hi hiactive hij
      · exact Or.inr ⟨[], _, recent, before, j, rfl, rfl, he, Alike.refl j⟩
    | _ => exact hbefore j hj hactive (Alike.refl j)

/-- **No instance comes back**: in every orderly run, over all interleavings and restarts, a record
that is active now was active at any earlier moment, for the same port, model and process, or it has
been entered since, for a new instance. -/
theorem active_since {S : Server} (h : serverLts.Reachable Lts.anyStep S)
    (horderly : Orderly S.processes.state) (hlog : S.processes.state.log = recent ++ older)
    (hj : S.processes.state.registry.get? id = some j) (hactive : j.state.isActive = true) :
    (∃ i, (registryAt S.processes.state recent).get? id = some i ∧ i.state.isActive = true ∧
      Alike i j) ∨ EnteredIn S.processes.state.registry id j recent := by
  have hhonest : Throughout registryBefore (· = .empty) Told S.processes.state.registry
      (recent ++ older) := hlog ▸ (reachable_honest h horderly).1
  exact active_or_entered hhonest hj hactive

/-- The instance is ready, and two notes ago it was not. -/
theorem active_since_chatReady : ∃ j,
    Shared.chatReady.processes.state.registry.get? Shared.chatId = some j ∧
    ((∃ i, (registryAt Shared.chatReady.processes.state
        (Shared.chatReady.processes.state.log.take 2)).get? Shared.chatId = some i ∧
          i.state.isActive = true ∧ Alike i j) ∨
      EnteredIn Shared.chatReady.processes.state.registry Shared.chatId j
        (Shared.chatReady.processes.state.log.take 2)) := by
  have hactive : ∃ j ∈ Shared.chatReady.processes.state.registry.get? Shared.chatId,
      j.state.isActive = true := by decide +kernel
  obtain ⟨j, hj, hactive⟩ := hactive
  exact ⟨j, hj, active_since Shared.reachable_chatReady (by decide +kernel)
    (List.take_append_drop 2 _).symm hj hactive⟩

end Orchestrator.Lifecycle.Origins
