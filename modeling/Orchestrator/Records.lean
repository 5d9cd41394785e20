import Orchestrator.Initialization

/-!
Properties of single records. What is true of every record that is made, and is left true by every
change of a record, is true of all records of the registry in every run of the server.
-/

namespace Orchestrator.Lifecycle

open Lib Lib.Coro Clock

variable {settings : LifecycleSettings} {G : ModelProfile → Prop} {R : BackendInstance → Prop}
  {s : LifecycleState}

/-! ### Runs of the server -/

/-- **Runs of the server** keep what its operations keep and the load of the registry file. -/
theorem server_invariant {I : LifecycleState → Prop} {A : Server → ServerStep → Prop}
    (hinit : ∀ s, s.registry = .empty → I s) (hload : LoadKeeps I)
    (hbody : ∀ S op calls, A S (.work (.begin op calls)) →
      Holds (single world I) (fun _ _ s => I s) (body S.settings op) fun _ _ _ s => I s)
    {S : Server} (h : serverLts.Reachable A S) : I S.processes.state := by
  have hbalance : Pool.Balance (ε := Exn) (single world I) fun _ => I :=
    ⟨fun _ _ _ _ hs => hs, fun _ _ _ _ _ _ _ ht => ht, fun _ _ _ hs => hs⟩
  have hbalanced : Pool.Balanced (single world I) (fun _ => I) S.processes := by
    refine h.invariant (I := fun S => Pool.Balanced (single world I) (fun _ => I) S.processes)
      (fun S hS => ?_) fun S l S' hS hl hstep => ?_
    · obtain ⟨hregistry, -, hwaiting⟩ := hS
      exact ⟨[], hwaiting ▸ .nil, hinit _ hregistry⟩
    cases l with
    | work l =>
      obtain ⟨-, hstep⟩ := hstep
      have hbegin : ∀ op calls, l = .begin op calls → ∀ ks : List Unit, I S.processes.state →
          I S.processes.state ∧ (body S.settings op).wph (single world I)
            (Pool.Over (single world I)) () S.processes.state S.processes.state := by
        rintro op calls rfl _ hs
        exact ⟨hs, hbody S op calls hl _ _ _ hs⟩
      obtain ⟨_, _, _, _, -, -, hS'⟩ := Pool.step_balanced hbalance hbegin hS hstep
      exact hS'
    | restart settings calls =>
      obtain ⟨_, -, hs⟩ := hS
      have hs' := restart_keeps hload hstep hs
      obtain ⟨-, hwaiting, -⟩ := hstep
      exact ⟨[], hwaiting ▸ .nil, hs'⟩
  obtain ⟨_, -, hs⟩ := hbalanced
  exact hs

/-- What the parts of the operations keep that change the registry. -/
structure PartsKeep (settings : LifecycleSettings) (G : ModelProfile → Prop)
    (I : LifecycleState → Prop) : Prop where
  calm : Calm (fun _ => True) I
  marked : ∀ id, Marked id (fun _ => True) I
  lease : LeaseKeeps I
  sync : SyncKeeps settings I
  purge : PurgeKeeps I
  entered : ∀ profile decision gpus extra, G profile → Extra extra →
    Triple world (fun _ => False) I (enteredInstance settings profile decision gpus extra)
      fun _ s => I s

namespace PartsKeep

variable {I : LifecycleState → Prop}

lemma stopKeeps (h : PartsKeep settings G I) : StopKeeps settings I := fun profile i =>
  (triple_stopInstance settings ⟨h.calm.tick, fun s k state reason hs hk _ =>
      (h.marked i.instanceId).mark s k state reason hs hk trivial⟩ profile
    (fun s hs => h.calm.note s _ hs trivial)
    (triple_stop ⟨h.calm.tick, fun s note hs _ => h.calm.note s note hs trivial⟩ _ _ _)).weaken
      (fun _ hs => hs.1) fun _ _ hs => hs

/-- **Operations** keep what their parts keep. -/
theorem holds_body (h : PartsKeep settings G I) (hG : Configures settings G) {op : Operation}
    (hop : ∀ payload, op = .allocate payload → Allocates settings G payload) :
    Holds (single world I) (fun _ _ s => I s) (body settings op) fun _ _ _ s => I s := by
  have hA := resting_single (I := I) ⟨h.calm.tick, fun _ _ _ hn => hn.elim⟩
  have hidle : IdleStopsKeep settings I := h.stopKeeps.idle ⟨h.calm.tick, fun _ _ _ hn => hn.elim⟩
    h.sync.keyed fun s _ _ hs => h.calm.note s _ hs trivial
  have B := hA.blocks hG (fun _ _ => h.sync) (fun _ _ => h.purge) (fun _ _ => hidle)
    (fun _ _ id => ⟨h.calm.tick, fun s i state reason hs hi _ =>
      (h.marked id).mark s i state reason hs hi trivial⟩) (fun _ _ => h.stopKeeps)
    fun profile decision gpus extra hprofile hextra => within_startedInstance
      ⟨h.calm.tick, fun s note hs _ => h.calm.note s note hs trivial⟩ h.marked
      (h.entered profile decision gpus extra hprofile hextra)
  refine (B.body (fun id delta => Within.of_holds ?_) hop).holds
  exact hA.of_triple fun _ _ => triple_adjustActiveRequests h.lease id delta

end PartsKeep

/-! ### Records -/

/-- Every record is under its own id, and in `R`. -/
def Records (R : BackendInstance → Prop) (s : LifecycleState) : Prop :=
  Keyed s ∧ ∀ id i, s.registry.get? id = some i → R i

/-- A record that is made is in `R`, for a profile in `G`, and every change leaves it there. -/
structure RecordKeeps (settings : LifecycleSettings) (G : ModelProfile → Prop)
    (R : BackendInstance → Prop) : Prop where
  mark : ∀ i state reason t, R i →
    R { i with state := state, failureReason := reason, updatedAt := nowIso t }
  adjust : ∀ i delta t, R i → R (adjusted i delta t)
  reshape : ∀ i j, R i → Reshaped i j → R j
  external : ∀ i t, External settings i → R { i with updatedAt := nowIso t }
  started : ∀ profile i extra t, G profile → Extra extra → Made profile i →
    R { i with metadata := Mapping.merge i.metadata extra, updatedAt := nowIso t }

namespace Records

lemma set (h : Records R s) {id : String} {j : BackendInstance} (hid : j.instanceId = id)
    (hj : R j) : Records R (s.change (s.registry.set id j)) := by
  refine ⟨keyed_set h.1 hid, fun id' i hi => ?_⟩
  rw [LifecycleState.change_registry, Dict.get?_set] at hi
  split at hi
  · exact Option.some.inj hi ▸ hj
  · exact h.2 id' i hi

lemma erase (h : Records R s) (id : String) :
    Records R (s.change (s.registry.erase id)) := by
  refine ⟨keyed_erase h.1 id, fun id' i hi => ?_⟩
  rw [LifecycleState.change_registry, Dict.get?_erase] at hi
  split at hi
  · cases hi
  · exact h.2 id' i hi

lemma calm (R : BackendInstance → Prop) (N : Note → Prop) : Calm N (Records R) :=
  ⟨fun _ _ hs _ => hs, fun _ _ hs _ => hs⟩

lemma empty (hs : s.registry = .empty) : Records R s := by
  refine ⟨fun id i hi => ?_, fun id i hi => ?_⟩
  · rw [hs] at hi
    cases hi
  · rw [hs] at hi
    cases hi

lemma loadKeeps (h : ∀ i j, R i → Reshaped i j → R j) : LoadKeeps (Records R) where
  calm := calm R _
  keyed _ hs := hs.1
  load s r hs hr := by
    refine ⟨fun id j hj => ?_, fun id j hj => ?_⟩
    · obtain ⟨i, hi, hij⟩ := hr.of_some hj
      exact hij.instanceId.trans (hs.1 id i hi)
    · obtain ⟨i, hi, hij⟩ := hr.of_some hj
      exact h i j (hs.2 id i hi) hij

end Records

/-- Records that every change leaves in `R` are kept in `R` by the operations. -/
lemma RecordKeeps.partsKeep (h : RecordKeeps settings G R) : PartsKeep settings G (Records R) where
  calm := Records.calm R _
  marked id := {
    tick _ _ hs _ := hs
    mark s i state reason hs hi _ :=
      hs.set (hs.1 id i hi) (h.mark i state reason s.clock (hs.2 id i hi)) }
  lease := {
    tick _ _ hs _ := hs
    adjust s id i delta hs hi _ := hs.set (hs.1 id i hi) (h.adjust i delta s.clock (hs.2 id i hi))
    release s id i delta hs hi _ := hs.set (hs.1 id i hi)
      (h.adjust i delta s.clock (hs.2 id i hi)) }
  sync := {
    calm := Records.calm R _
    keyed _ hs := hs.1
    change s s' hs hchange := by
      cases hchange with
      | reshape hi hj => exact hs.set rfl (h.reshape _ _ (hs.2 _ _ hi) hj)
      | remove hi _ => exact hs.erase _
      | enter hi => exact hs.set rfl (h.external _ s.clock hi) }
  purge := {
    calm := Records.calm R _
    keyed _ hs := hs.1
    remove _ _ hs _ _ := hs.erase _ }
  entered profile _ _ extra hprofile hextra := triple_enteredInstance (Records.calm R _)
    fun s i hs hi => hs.set rfl (h.started profile i extra s.clock hprofile hextra hi)

/-! ### Profiles -/

/-- The profiles that a step of the server acts with are in `G`: those of the configuration, and the
one that an allocation finds. -/
def ActsWith (G : ModelProfile → Prop) (S : Server) : ServerStep → Prop
  | .work (.begin op _) => (∀ p ∈ S.settings.profiles.list, G p) ∧
      ∀ payload, op = .allocate payload → requestedModel payload ≠ "" →
        ∀ found, resolveProfile S.settings (requestedModel payload)
          (allocationOverrides payload) = .ok found → G found.1
  | .work (.resume _ _) | .restart _ _ => True

/-- **Records over runs**: where all steps act with profiles in `G`, all records are in `R`. -/
theorem server_records (hG : ∀ p q, Variant p q → G p → G q)
    (h : ∀ settings, (∀ p ∈ settings.profiles.list, G p) → RecordKeeps settings G R)
    (hreshape : ∀ i j, R i → Reshaped i j → R j) {S : Server}
    (hS : serverLts.Reachable (ActsWith G) S) : Records R S.processes.state := by
  refine server_invariant (fun _ hs => Records.empty hs) (Records.loadKeeps hreshape)
    (fun S op calls hA => ?_) hS
  refine (h S.settings hA.1).partsKeep.holds_body (fun p hp q hq => hG p q hq (hA.1 p hp)) ?_
  intro payload hpayload hmodel found hfound q hq
  exact hG found.1 q hq (hA.2 payload hpayload hmodel found hfound)

end Orchestrator.Lifecycle
