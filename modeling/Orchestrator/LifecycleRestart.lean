import Orchestrator.LifecycleSystem

/-!
The lifecycle service over restarts of its process. A restart drops the operations under way, reads
the registry file, and may find other settings.
-/

namespace Orchestrator.Lifecycle

open Lib Lib.Coro Clock

/-- `{item["instance_id"]: ... for item in instances}` -/
def registryOf (l : List BackendInstance) : Registry :=
  l.foldl (fun r i => r.set i.instanceId i) .empty

/-- `BackendRegistry.load`, of the file that `save` has written. -/
def loadRegistry : Service Unit := .get fun s =>
  (mapEach copied s.registry.list).after <| onOk fun instances => .get fun s =>
    .set (s.change (registryOf instances)) (pure ())

/-- The service with the settings that it was started with. -/
structure Server where
  settings : LifecycleSettings
  processes : Processes

inductive ServerStep
  | work (l : ProcessStep)
  | restart (settings : LifecycleSettings) (calls : List (Event LifecycleCall LifecycleCall.Answer))

def serverLts : Lts Server ServerStep where
  init S := S.processes.state.registry = .empty ∧ S.processes.state.log = [] ∧
    S.processes.waiting = []
  step S l S' :=
    match l with
    | .work l => S'.settings = S.settings ∧
        Pool.step world (body S.settings) S.processes l S'.processes
    | .restart settings calls => S'.settings = settings ∧ S'.processes.waiting = [] ∧
        ∃ x, loadRegistry.Turn world S.processes.state calls (.done x) S'.processes.state

/-! ### What a restart keeps -/

lemma get?_foldl_set (l : List BackendInstance) (r : Registry) {id : String}
    (h : id ∉ l.map BackendInstance.instanceId) :
    (l.foldl (fun r i => r.set i.instanceId i) r).get? id = r.get? id := by
  induction l generalizing r with
  | nil => rfl
  | cons i l ih =>
    rw [List.map_cons, List.mem_cons, not_or] at h
    rw [List.foldl_cons, ih _ h.2, Dict.get?_set_ne _ _ h.1]

lemma get?_registryOf {l : List BackendInstance} (h : (l.map BackendInstance.instanceId).Nodup)
    {i : BackendInstance} (hi : i ∈ l) : (registryOf l).get? i.instanceId = some i := by
  rw [registryOf]
  generalize Dict.empty = r
  induction l generalizing r with
  | nil => exact absurd hi List.not_mem_nil
  | cons j l ih =>
    rw [List.map_cons, List.nodup_cons] at h
    rw [List.foldl_cons]
    rcases List.mem_cons.mp hi with rfl | hi
    · rw [get?_foldl_set _ _ h.1, Dict.get?_set_self]
    · exact ih h.2 hi _

/-- The records of a registry after it was read from the file. -/
structure Reloaded (r r' : Registry) : Prop where
  absent : ∀ id, r.get? id = none → r'.get? id = none
  present : ∀ id i, r.get? id = some i → ∃ j, r'.get? id = some j ∧ Reshaped i j

lemma Reloaded.of_some {r r' : Registry} (h : Reloaded r r') {id : String} {j : BackendInstance}
    (hj : r'.get? id = some j) : ∃ i, r.get? id = some i ∧ Reshaped i j := by
  cases hi : r.get? id with
  | none =>
    rw [h.absent id hi] at hj
    cases hj
  | some i =>
    obtain ⟨j', hj', hij⟩ := h.present id i hi
    rw [hj'] at hj
    exact ⟨i, rfl, Option.some.inj hj ▸ hij⟩

lemma reloaded_registryOf {s : LifecycleState} {l : List BackendInstance} (hs : Keyed s)
    (h : List.Forall₂ Reshaped s.registry.list l) : Reloaded s.registry (registryOf l) := by
  have hids : l.map BackendInstance.instanceId =
      s.registry.list.map BackendInstance.instanceId := by
    generalize s.registry.list = u at h
    induction h with
    | nil => rfl
    | cons hi _ ih => rw [List.map_cons, List.map_cons, hi.instanceId, ih]
  have hcurrent := current_list hs
  have hnodup : (l.map BackendInstance.instanceId).Nodup := hids ▸ hcurrent.1
  refine ⟨fun id hid => ?_, fun id i hi => ?_⟩
  · rw [registryOf, get?_foldl_set _ _ fun hmem => ?_]
    · rfl
    · rw [hids, List.mem_map] at hmem
      obtain ⟨i, hi, rfl⟩ := hmem
      rw [hcurrent.2 i hi] at hid
      cases hid
  · have hmem : i ∈ s.registry.list := Dict.mem_values.mpr ⟨id, hi⟩
    obtain ⟨n, hn, rfl⟩ := List.mem_iff_getElem.mp hmem
    have hn' : n < l.length := h.length_eq ▸ hn
    have hreshaped : Reshaped s.registry.list[n] l[n] := h.get hn hn'
    refine ⟨l[n], ?_, hreshaped⟩
    rw [← hs id _ hi, ← hreshaped.instanceId]
    exact get?_registryOf hnodup (List.getElem_mem hn')

/-- What a restart keeps. -/
structure LoadKeeps (A : LifecycleState → Prop) : Prop where
  calm : Calm (fun _ => False) A
  keyed : ∀ s, A s → Keyed s
  load : ∀ s r, A s → Reloaded s.registry r → A (s.change r)

lemma triple_loadRegistry {I A T : LifecycleState → Prop} (hA : Calm (fun _ => False) A)
    (hload : ∀ s l, A s → List.Forall₂ Reshaped s.registry.list l → T (s.change (registryOf l)))
    (herror : ∀ s, A s → T s) : Triple world I A loadRegistry fun _ s => T s := by
  refine Triple.of_get fun u => ?_
  have hcalm : Calm (fun _ => False) fun s => s.registry = u.registry ∧ A s :=
    ⟨fun s t hs ht => ⟨hs.1, hA.tick s t hs.2 ht⟩, fun _ _ _ hn => hn.elim⟩
  refine Triple.weaken (B := fun s => s.registry = u.registry ∧ A s) ?_
    (fun s hs => ⟨congrArg LifecycleState.registry hs.1, hs.2⟩) fun _ _ hs => hs
  refine (Ticking.mapEach₂ ticking_copied _ I _ hcalm).bind (fun l s₀ s hs => ?_)
    fun _ s hs => herror s hs.1.2
  obtain ⟨⟨hr, hs⟩, hl⟩ := hs
  rw [wpt_get, wpt_set, pure_eq, wpt_done]
  exact hload s l hs (hr ▸ hl l rfl)

lemma LoadKeeps.triple {I A : LifecycleState → Prop} (hA : LoadKeeps A) :
    Triple world I A loadRegistry fun _ s => A s :=
  triple_loadRegistry hA.calm
    (fun s _ hs hl => hA.load s _ hs (reloaded_registryOf (hA.keyed s hs) hl)) fun _ hs => hs

/-- **A restart** keeps what the load of the registry keeps. -/
theorem restart_keeps {A : LifecycleState → Prop} (hA : LoadKeeps A) {S S' : Server}
    {settings : LifecycleSettings} {calls : List (Event LifecycleCall LifecycleCall.Answer)}
    (h : serverLts.step S (.restart settings calls) S') (hS : A S.processes.state) :
    A S'.processes.state := by
  obtain ⟨-, -, x, hturn⟩ := h
  have hload := hA.triple (I := fun _ => False) S.processes.state S.processes.state hS
  rcases wpt_turn (D := keeping world fun _ => False) hload hturn with ⟨_, -, hs⟩ | ⟨_, _, hc, -⟩
  · exact hs
  · cases hc

/-! ### Runs with given answers -/

namespace Server

variable (o : (c : LifecycleCall) → LifecycleState → c.Answer)

def begin (S : Server) (op : Operation) : Server :=
  { S with processes := S.processes.beginWith world (body S.settings) o op }

def resume (S : Server) (n : ℕ) : Server := { S with processes := S.processes.resumeWith world o n }

def restart (S : Server) (settings : LifecycleSettings) : Server :=
  ⟨settings, ⟨(loadRegistry.turnWith world o S.processes.state).2.2, []⟩⟩

variable {o} {A : Server → ServerStep → Prop}

lemma run_begin (ho : ∀ c s, world.allowed c (o c s) s) (S : Server) (op : Operation)
    (hA : ∀ calls, (∀ e ∈ calls, ∃ t, e.2 = o e.1 t) → A S (.work (.begin op calls))) :
    serverLts.Run A S (S.begin o op) :=
  Lts.Run.single (l := .work (.begin op _)) (hA _ (mem_turnWith _ _))
    ⟨rfl, Pool.step_beginWith ho S.processes op⟩

lemma run_resume (ho : ∀ c s, world.allowed c (o c s) s) (S : Server) (n : ℕ)
    (hA : ∀ answer calls, (∀ e ∈ answer :: calls, ∃ t, e.2 = o e.1 t) →
      A S (.work (.resume answer calls))) : serverLts.Run A S (S.resume o n) := by
  rcases Pool.step_resumeWith (body S.settings) ho n S.processes with heq | ⟨_, _, hstep, hl⟩
  · rw [resume, heq]
    exact Lts.Run.refl S
  · exact Lts.Run.single (l := .work (.resume _ _)) (hA _ _ hl) ⟨rfl, hstep⟩

lemma step_restart (ho : ∀ c s, world.allowed c (o c s) s) (S : Server)
    (settings : LifecycleSettings) : serverLts.step S
      (.restart settings (loadRegistry.turnWith world o S.processes.state).1)
      (S.restart o settings) := by
  refine ⟨rfl, rfl, ?_⟩
  have hturn := turn_turnWith ho loadRegistry S.processes.state
  have hload := triple_loadRegistry (I := fun _ => False) (A := fun _ => True) (T := fun _ => True)
    ⟨fun _ _ _ _ => trivial, fun _ _ _ _ => trivial⟩ (fun _ _ _ _ => trivial) (fun _ _ => trivial)
  rcases wpt_turn (D := keeping world fun _ => False) (hload S.processes.state _ trivial) hturn with
    ⟨x, hx, -⟩ | ⟨_, _, -, hfalse, -⟩
  · exact ⟨x, hx ▸ hturn⟩
  · exact hfalse.elim

end Server

end Orchestrator.Lifecycle
