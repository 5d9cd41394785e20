import Orchestrator.InstanceLives

/-!
The loads that instances share. LM Studio has one load for an identifier, and an unload that
lifecycle issues for one instance takes it from all that it serves. None of the others holds a
request, as long as a shared load is not leased, and one that is leased not shared.
-/

namespace Orchestrator.Lifecycle.Shared

open Lib Lib.Coro Clock Lives

variable {b r : Registry} {id id' lmsBinary identifier : String} {i j : BackendInstance}
  {l : List Entry}

/-- LM Studio serves the instance, with the load of the identifier. -/
def Serves (lmsBinary identifier : String) (i : BackendInstance) : Prop :=
  i.dryRun = false ∧ i.runtime = "lmstudio" ∧ i.backendModel = identifier ∧
    unloadBinary i = lmsBinary

instance (lmsBinary identifier : String) (i : BackendInstance) :
    Decidable (Serves lmsBinary identifier i) :=
  inferInstanceAs (Decidable (_ ∧ _))

lemma Serves.of_alike (h : Serves lmsBinary identifier j) (hij : Alike i j) :
    Serves lmsBinary identifier i :=
  ⟨hij.dryRun.symm.trans h.1, hij.runtime.mp h.2.1, hij.backendModel.symm.trans h.2.2.1,
    hij.unloadBinary.symm.trans h.2.2.2⟩

lemma serves_of_hosts (h : Hosts i (.load lmsBinary identifier)) : Serves lmsBinary identifier i :=
  ⟨h.1, h.2.1, h.2.2.2.2.symm, h.2.2.2.1.symm⟩

/-- The instance is active and holds a request. -/
def Busy (i : BackendInstance) : Prop := i.state.isActive = true ∧ 0 < i.activeRequests

instance (i : BackendInstance) : Decidable (Busy i) := inferInstanceAs (Decidable (_ ∧ _))

/-- The load that serves `j`, which is under `id`, serves an active instance under another id. -/
def ServesOther (r : Registry) (id : String) (j : BackendInstance) : Prop :=
  ∃ p ∈ r.entries, p.1 ≠ id ∧ p.2.state.isActive = true ∧
    Serves (unloadBinary j) j.backendModel p.2

/-- No request begins on an active instance while its load serves another, and none is entered while
its load serves a busy one. -/
structure Unshared (b r : Registry) : Prop where
  leased : ∀ p ∈ r.entries, Busy p.2 → (∀ i ∈ b.get? p.1, ¬ Busy i) →
    Serves (unloadBinary p.2) p.2.backendModel p.2 → ¬ ServesOther r p.1 p.2
  entered : ∀ id j, Enters b r id j → j.state.isActive = true →
    Serves (unloadBinary j) j.backendModel j →
      ∀ p ∈ b.entries, Busy p.2 → ¬ Serves (unloadBinary j) j.backendModel p.2

instance (r : Registry) (id : String) (j : BackendInstance) : Decidable (ServesOther r id j) :=
  inferInstanceAs (Decidable (∃ p ∈ r.entries, _))

instance (b r : Registry) : Decidable (Unshared b r) :=
  have : Decidable (∀ id j, Enters b r id j → j.state.isActive = true →
      Serves (unloadBinary j) j.backendModel j →
        ∀ p ∈ b.entries, Busy p.2 → ¬ Serves (unloadBinary j) j.backendModel p.2) :=
    inferInstanceAs (Decidable (∀ id j, Enters b r id j → _))
  decidable_of_iff (_ ∧ _) ⟨fun h => ⟨h.1, h.2⟩, fun h => ⟨h.1, h.2⟩⟩

/-- The load of a busy instance serves no other active one. -/
def Lone (r : Registry) : Prop :=
  ∀ lmsBinary identifier id id' i j, r.get? id = some i → r.get? id' = some j → Busy i →
    j.state.isActive = true → Serves lmsBinary identifier i → Serves lmsBinary identifier j →
      id = id'

lemma Unshared.eq_of_begins (h : Unshared b r) (hi : r.get? id = some i) (hbusy : Busy i)
    (hidle : ∀ i₀ ∈ b.get? id, ¬ Busy i₀) (hserves : Serves lmsBinary identifier i)
    (hj : r.get? id' = some j) (hjactive : j.state.isActive = true)
    (hjs : Serves lmsBinary identifier j) : id = id' := by
  by_contra hne
  obtain ⟨hdry, hruntime, rfl, rfl⟩ := hserves
  exact h.leased (id, i) (Dict.get?_eq_some.mp hi) hbusy hidle ⟨hdry, hruntime, rfl, rfl⟩
    ⟨(id', j), Dict.get?_eq_some.mp hj, Ne.symm hne, hjactive, hjs⟩

lemma Unshared.not_serves (h : Unshared b r) (hj : Enters b r id j)
    (hactive : j.state.isActive = true) (hserves : Serves lmsBinary identifier j)
    (hi : b.get? id' = some i) (hbusy : Busy i) : ¬ Serves lmsBinary identifier i := by
  obtain ⟨hdry, hruntime, rfl, rfl⟩ := hserves
  exact h.entered id j hj hactive ⟨hdry, hruntime, rfl, rfl⟩ (id', i) (Dict.get?_eq_some.mp hi)
    hbusy

/-- **Loads of busy instances** are not shared after a change, if none was before. -/
theorem Lone.step (hb : Lone b) (hunshared : Unshared b r) (hstep : Step b r l) : Lone r := by
  intro lmsBinary identifier id id' i j hi hj hbusy hjactive his hjs
  by_cases hheld : ∃ i₀ ∈ b.get? id, Busy i₀
  · obtain ⟨i₀, hi₀, hbusy₀⟩ := hheld
    have his₀ : Serves lmsBinary identifier i₀ := by
      obtain ⟨k, hk, halike, -⟩ := hstep.stays id i₀ hi₀ hbusy₀.1
      cases hk.symm.trans hi
      exact his.of_alike halike
    rcases hstep.active id' j hj hjactive with ⟨j₀, hj₀, hjactive₀, halike⟩ | ⟨hentered, -⟩
    · exact hb lmsBinary identifier id id' i₀ j₀ hi₀ hj₀ hbusy₀ hjactive₀ his₀
        (hjs.of_alike halike)
    · exact absurd his₀ (hunshared.not_serves hentered hjactive hjs hi₀ hbusy₀)
  · exact hunshared.eq_of_begins hi hbusy (fun i₀ hi₀ hbusy₀ => hheld ⟨i₀, hi₀, hbusy₀⟩) his hj
      hjactive hjs

/-- The event is an unload of a load that serves another instance, one that is active with a
request. -/
def UnloadsLeased (e : Entry) : Prop :=
  ∃ lmsBinary identifier id registry ok,
    e.note = .halted (.load lmsBinary identifier) id registry ok ∧ ∃ p ∈ registry.entries,
      p.1 ≠ id ∧ Serves lmsBinary identifier p.2 ∧ p.2.state.isActive = true ∧
        0 < p.2.activeRequests

instance (e : Entry) : Decidable (UnloadsLeased e) :=
  match e with
  | ⟨.halted (.load lmsBinary identifier) id registry ok, _⟩ =>
    decidable_of_iff (∃ p ∈ registry.entries, p.1 ≠ id ∧ Serves lmsBinary identifier p.2 ∧
        p.2.state.isActive = true ∧ 0 < p.2.activeRequests)
      ⟨fun h => ⟨_, _, _, _, _, rfl, h⟩, fun ⟨_, _, _, _, _, hn, h⟩ => by cases hn; exact h⟩
  | ⟨.halted (.container _) _ _ _, _⟩ | ⟨.changed _, _⟩ | ⟨.released _, _⟩ | ⟨.idleStop _ _, _⟩
  | ⟨.stopping _ _, _⟩ | ⟨.launched _ _, _⟩ => isFalse fun ⟨_, _, _, _, _, hn, _⟩ => by cases hn

/-- **No load is unloaded under another instance's request**, in every run in which no request is
granted on a shared load, and no load is shared that serves a busy instance. -/
theorem unloads_unshared {S : Server} (h : serverLts.Reachable Lts.anyStep S)
    (horderly : Orderly S.processes.state)
    (hunshared : EveryChange (fun b r _ => Unshared b r) S.processes.state) :
    ∀ e ∈ S.processes.state.log, ¬ UnloadsLeased e := by
  rintro ⟨_, t⟩ hunload ⟨lmsBinary, identifier, id, registry, ok, rfl, ⟨id', i⟩, hi, hother,
    hserves, hactive, hheld⟩
  have hhistory := (Throughout.and (reachable_honest h horderly).1 hunshared).invariant
    (K := fun r _ => Lone r) (fun r hr => ?_) fun r e l hr he => ?_
  · obtain ⟨r, l, ⟨htold, -⟩, hlone⟩ := hhistory.2.of_mem hunload
    obtain ⟨rfl, j, hj, hjactive, hhosts⟩ := htold.halted _ _ _ _ rfl
    exact hother (hlone lmsBinary identifier id' id i j (Dict.get?_eq_some.mpr hi) hj
      ⟨hactive, hheld⟩ hjactive hserves (serves_of_hosts hhosts))
  · rw [hr.1]
    exact fun _ _ _ _ _ _ hi => by cases hi
  · obtain ⟨note, t⟩ := e
    cases note with
    | changed before => exact Lone.step hr (he.2 before rfl) (he.1.step before rfl)
    | _ => exact hr

/-! ### Runs -/

/-- Two models that LM Studio serves with one load. -/
def twoModels : LifecycleSettings :=
  { settingsFor false (lmstudioProfile "chat" "m" 4096) with
    profiles := ⟨[lmstudioProfile "chat" "m" 4096, lmstudioProfile "code" "m" 4096], by decide⟩ }

def gpu : GpuState where
  id := "gpu0"
  index := 0
  memoryFreeMb := 24576

def noInstance : Server := ⟨twoModels, ⟨⟨.empty, atSecond 0, []⟩, []⟩⟩

def allocate (model : String) : Operation := .allocate [("model", .str model)]

/-- Lifecycle has loaded the model for an instance of the first. -/
def chatReady : Server := complete (answersOf "m" (.ok ()) 1 [gpu]) noInstance (allocate "chat") 5

/-- A call about a lease, which is answered at once. -/
def called (second : Fin 1000) (op : Operation) (S : Server) : Server :=
  S.begin (answersOf "m" (.ok ()) second [gpu]) op

def chatId : String := "chat-gpu0-chat:gpu0:0001-01-01T00:00:01+00:00"
def codeId : String := "code-gpu0-code:gpu0:0001-01-01T00:00:04+00:00"

/-- A request has used the instance. -/
def chatUsed : Server := called 3 (.release chatId) (called 2 (.lease chatId) chatReady)

def loadExists : RunError := .calledProcess "" "Error: identifier m already exists"

/-- The load is there, and an instance of the second uses it too. -/
def codeReady : Server :=
  complete (answersOf "m" (.error loadExists) 4 [gpu]) chatUsed (allocate "code") 5

def codeLeased : Server := called 5 (.lease codeId) codeReady

/-- The instances have been idle for long. -/
def cleanedUp (S : Server) : Server := called 300 (.cleanup .empty) S

lemma run_called (second : Fin 1000) (op : Operation) (S : Server) :
    serverLts.Run Lts.anyStep S (called second op S) :=
  Server.run_begin (allowed_answersOf _ _ _ _) S _ fun _ _ => trivial

lemma reachable_chatReady : serverLts.Reachable Lts.anyStep chatReady :=
  Lts.Reachable.run (.init ⟨rfl, rfl, rfl⟩) (run_complete (allowed_answersOf _ _ _ _) _ _ _)

lemma reachable_codeReady : serverLts.Reachable Lts.anyStep codeReady :=
  Lts.Reachable.run reachable_chatReady
    (((run_called 2 _ _).trans (run_called 3 _ _)).trans
      (run_complete (allowed_answersOf _ _ _ _) _ _ _))

/-- A load that two instances share is unloaded, while neither holds a request. -/
theorem unloads_unshared_cleanedUp : serverLts.Reachable Lts.anyStep (cleanedUp codeReady) ∧
    (codeReady.processes.state.registry.list.filter (·.state.isActive)).length = 2 ∧
    ∀ e ∈ (cleanedUp codeReady).processes.state.log, ¬ UnloadsLeased e := by
  have hreachable := Lts.Reachable.run reachable_codeReady (run_called 300 (.cleanup .empty) _)
  exact ⟨hreachable, by decide +kernel,
    unloads_unshared hreachable (by decide +kernel) (by decide +kernel)⟩

/-- **A load is unloaded** while it serves an instance that holds a request. -/
theorem unloads_shared : serverLts.Reachable Lts.anyStep (cleanedUp codeLeased) ∧
    ∃ e ∈ (cleanedUp codeLeased).processes.state.log, UnloadsLeased e :=
  ⟨Lts.Reachable.run reachable_codeReady
    ((run_called 5 (.lease codeId) _).trans (run_called 300 (.cleanup .empty) _)),
    by decide +kernel⟩

end Orchestrator.Lifecycle.Shared
