import Mathlib.Order.Bounds.Basic
import Orchestrator.Records

/-!
The ports of instances. A new instance gets the first port that no record has, whatever its state,
and nothing changes the port of a record, so the ports of the records are distinct.
-/

namespace Orchestrator.Lifecycle.HostPorts

open Lib Lib.Coro Clock

/-! ### The first free port -/

lemma countP_from (used : List ℤ) (port : ℤ) : used.countP (fun p => port ≤ p) =
    used.countP (fun p => port + 1 ≤ p) + used.count port := by
  induction used with
  | nil => rfl
  | cons p used ih =>
    rw [List.countP_cons, List.countP_cons, List.count_cons, ih]
    rcases lt_trichotomy p port with h | rfl | h
    · simp [h.ne, not_le.mpr h, not_le.mpr (h.trans (lt_add_one port))]
    · simp
      omega
    · simp [h.ne', h.le, Int.add_one_le_iff.mpr h]
      omega

/-- The loop goes over used ports and stops at one that is free, if the fuel is enough for the used
ports that it may meet. -/
lemma firstFree_stops {used : List ℤ} {port : ℤ} {fuel : ℕ}
    (h : used.countP (fun p => port ≤ p) ≤ fuel) :
    ∃ offset : ℕ, Registry.firstFree used port fuel = port + offset ∧ port + offset ∉ used ∧
      ∀ n < offset, port + n ∈ used := by
  induction fuel generalizing port with
  | zero =>
    refine ⟨0, by simp [Registry.firstFree], fun hmem => ?_,
      fun n hn => absurd hn (Nat.not_lt_zero n)⟩
    have hpos : 0 < used.countP fun p => port ≤ p :=
      List.countP_pos_iff.mpr ⟨_, hmem, by simp⟩
    omega
  | succ fuel ih =>
    rw [Registry.firstFree]
    split
    · next hmem =>
      have hcount : 0 < used.count port := List.count_pos_iff.mpr hmem
      rw [countP_from] at h
      have hnext : used.countP (fun p => port + 1 ≤ p) ≤ fuel := by omega
      obtain ⟨offset, hresult, hfree, hused⟩ := ih hnext
      have hshift : ∀ n : ℕ, port + 1 + n = port + (n + 1 : ℕ) := fun n => by push_cast; ring
      refine ⟨offset + 1, hresult.trans (hshift _), hshift offset ▸ hfree, fun n hn => ?_⟩
      cases n with
      | zero => simpa using hmem
      | succ n => exact hshift n ▸ hused n (Nat.lt_of_succ_lt_succ hn)
    · next hfree =>
      exact ⟨0, by simp, by simpa using hfree, fun n hn => absurd hn (Nat.not_lt_zero n)⟩

/-- The port is that of a record. -/
def Used (r : Registry) (port : ℤ) : Prop := ∃ i ∈ r.list, i.hostPort = some port

lemma mem_used {r : Registry} {port : ℤ} :
    port ∈ r.list.filterMap BackendInstance.hostPort ↔ Used r port := List.mem_filterMap

lemma nextHostPort_stops (r : Registry) (start : ℤ) :
    ∃ offset : ℕ, r.nextHostPort start = start + offset ∧ ¬Used r (start + offset) ∧
      ∀ n < offset, Used r (start + n) := by
  simp only [← mem_used]
  exact firstFree_stops List.countP_le_length

lemma nextHostPort_free (r : Registry) (start : ℤ) : ¬Used r (r.nextHostPort start) := by
  obtain ⟨offset, h, hfree, -⟩ := nextHostPort_stops r start
  exact h ▸ hfree

lemma nextHostPort_least (r : Registry) (start : ℤ) :
    IsLeast {port | start ≤ port ∧ ¬Used r port} (r.nextHostPort start) := by
  obtain ⟨offset, h, hfree, hused⟩ := nextHostPort_stops r start
  rw [h]
  refine ⟨⟨by omega, hfree⟩, fun port hport => ?_⟩
  by_contra hlt
  obtain ⟨n, rfl⟩ := Int.le.dest hport.1
  exact hport.2 (hused n (by omega))

example : Registry.firstFree [8101, 8103, 8102] 8101 3 = 8104 := by decide

/-! ### Distinct ports -/

/-- The records are under their own ids, and no two have one port. -/
def Distinct (s : LifecycleState) : Prop :=
  Keyed s ∧ ∀ id id' i j port, s.registry.get? id = some i → s.registry.get? id' = some j →
    i.hostPort = some port → j.hostPort = some port → id = id'

namespace Distinct

variable {s : LifecycleState} (h : Distinct s)

include h

/-- A record whose port no other record has. -/
lemma set {i : BackendInstance} (hi : ∀ id j port, id ≠ i.instanceId → s.registry.get? id = some j →
    j.hostPort = some port → i.hostPort ≠ some port) :
    Distinct (s.change (s.registry.set i.instanceId i)) := by
  refine ⟨keyed_set h.1 rfl, fun id id' j j' port hj hj' hport hport' => ?_⟩
  rw [LifecycleState.change_registry, Dict.get?_set] at hj hj'
  split at hj <;> split at hj'
  · next hid hid' => exact hid.trans hid'.symm
  · next hid' =>
    cases hj
    exact absurd hport (hi id' j' port hid' hj' hport')
  · next hid _ =>
    cases hj'
    exact absurd hport' (hi id j port hid hj hport)
  · exact h.2 id id' j j' port hj hj' hport hport'

/-- A record in place of another with its port. -/
lemma replace {id : String} {i j : BackendInstance} (hi : s.registry.get? id = some i)
    (hid : j.instanceId = id) (hport : j.hostPort = i.hostPort) :
    Distinct (s.change (s.registry.set id j)) := by
  subst hid
  exact h.set fun id' i' port hne hi' hport' hj =>
    hne (h.2 id' _ i' i port hi' hi hport' (hport ▸ hj))

lemma erase (id : String) : Distinct (s.change (s.registry.erase id)) := by
  refine ⟨keyed_erase h.1 id, fun id₁ id₂ i j port hi hj hport hport' => ?_⟩
  rw [LifecycleState.change_registry, Dict.get?_erase] at hi hj
  split at hi
  · cases hi
  split at hj
  · cases hj
  exact h.2 id₁ id₂ i j port hi hj hport hport'

lemma external {settings : LifecycleSettings} {i : BackendInstance} (hi : External settings i)
    (t : DateTime) : Distinct (s.change (s.registry.set i.instanceId
      { i with updatedAt := nowIso t })) := by
  refine set (i := { i with updatedAt := nowIso t }) h fun id j port _ _ _ hport => ?_
  rw [show i.hostPort = none from hi.hostPort] at hport
  cases hport

end Distinct

lemma distinct_empty {s : LifecycleState} (hs : s.registry = .empty) : Distinct s := by
  refine ⟨fun id i hi => ?_, fun id _ i _ _ hi => ?_⟩
  · rw [hs] at hi
    cases hi
  · rw [hs] at hi
    cases hi

/-! ### Runs -/

variable {settings : LifecycleSettings} {I : LifecycleState → Prop}

/-- A new instance has a port that no record has. -/
lemma triple_startInstance (profile : ModelProfile) (decision : PlacementDecision)
    (gpus : List GpuState) : Triple world I Distinct (startInstance settings profile decision gpus)
      fun x s => Distinct s ∧ ∀ i, x = .ok i →
        ∃ port, i.hostPort = some port ∧ ¬Used s.registry port := by
  have hcalm : Calm Note.AboutProcess Distinct := ⟨fun _ _ hs _ => hs, fun _ _ hs _ => hs⟩
  dsimp only [startInstance]
  split
  · exact Triple.of_done fun _ hs => ⟨hs, fun _ h => by cases h⟩
  refine (Ticking.nowText _ _ hcalm).bind (fun _ => Triple.of_get fun u => ?_)
    fun _ _ hs => ⟨hs.1, fun _ h => by cases h⟩
  have hfixed : Calm Note.AboutProcess fun s => s.registry = u.registry ∧ Distinct s :=
    ⟨fun _ _ hs _ => hs, fun _ _ hs _ => hs⟩
  refine Triple.weaken (B := fun s => s.registry = u.registry ∧ Distinct s) ?_
    (fun s hs => ⟨congrArg LifecycleState.registry hs.1, hs.2.1⟩) fun _ _ hs => hs
  refine (ticking_start _ _ _ _ _ _ _ _ _ _ hfixed).bind (fun i => Triple.of_done fun s hs => ?_)
    fun _ _ hs => ⟨hs.1.2, fun _ h => by cases h⟩
  obtain ⟨⟨hr, hs⟩, hi⟩ := hs
  refine ⟨hs, fun j hj => ?_⟩
  obtain rfl := Except.ok.inj hj
  refine ⟨_, (hi i rfl).2, ?_⟩
  rw [hr]
  exact nextHostPort_free u.registry profile.hostPortStart

lemma triple_enteredInstance (profile : ModelProfile) (decision : PlacementDecision)
    (gpus : List GpuState) (extra : Mapping) : Triple world I Distinct
      (enteredInstance settings profile decision gpus extra) fun _ s => Distinct s := by
  refine (triple_startInstance profile decision gpus).bind (fun i => ?_) fun _ _ hs => hs.1
  refine triple_nowText (fun _ _ hs _ => hs) fun t s₀ s hs => ?_
  obtain ⟨⟨hs, hi⟩, rfl⟩ := hs
  obtain ⟨port, hport, hfree⟩ := hi i rfl
  refine wpt_putInstance.mpr (hs.set (i := { i with
      metadata := Mapping.merge i.metadata extra, updatedAt := nowIso s.clock })
    fun id j port' _ hj hport' hsame => hfree ?_)
  obtain rfl := Option.some.inj (hport.symm.trans hsame)
  exact ⟨j, Dict.mem_values_of_get? hj, hport'⟩

lemma marked (id : String) : Marked id (fun _ => True) Distinct where
  tick _ _ hs _ := hs
  mark _ i _ _ hs hi _ := hs.replace hi (hs.1 id i hi) rfl

lemma leaseKeeps : LeaseKeeps Distinct where
  tick _ _ hs _ := hs
  adjust _ id i _ hs hi _ := hs.replace hi (hs.1 id i hi) rfl
  release _ id i _ hs hi _ := hs.replace hi (hs.1 id i hi) rfl

lemma syncKeeps : SyncKeeps settings Distinct where
  calm := ⟨fun _ _ hs _ => hs, fun _ _ hs _ => hs⟩
  keyed _ hs := hs.1
  change s s' hs hchange := by
    cases hchange with
    | reshape hi hj => exact hs.replace (hj.instanceId ▸ hi) rfl hj.hostPort
    | remove hi _ => exact hs.erase _
    | enter hi => exact hs.external hi s.clock

/-- **The operations** keep the ports distinct. -/
lemma partsKeep : PartsKeep settings (fun _ => True) Distinct where
  calm := ⟨fun _ _ hs _ => hs, fun _ _ hs _ => hs⟩
  marked := marked
  lease := leaseKeeps
  sync := syncKeeps
  purge := {
    calm := ⟨fun _ _ hs _ => hs, fun _ _ hs _ => hs⟩
    keyed _ hs := hs.1
    remove _ _ hs _ _ := hs.erase _ }
  entered profile decision gpus extra _ _ := triple_enteredInstance profile decision gpus extra

lemma loadKeeps : LoadKeeps Distinct where
  calm := ⟨fun _ _ hs _ => hs, fun _ _ hs _ => hs⟩
  keyed _ hs := hs.1
  load s r hs hr := by
    refine ⟨fun id j hj => ?_, fun id id' j j' port hj hj' hport hport' => ?_⟩
    · obtain ⟨i, hi, hij⟩ := hr.of_some hj
      exact hij.instanceId.trans (hs.1 id i hi)
    · obtain ⟨i, hi, hij⟩ := hr.of_some hj
      obtain ⟨i', hi', hij'⟩ := hr.of_some hj'
      exact hs.2 id id' i i' port hi hi' (hij.hostPort ▸ hport) (hij'.hostPort ▸ hport')

/-- What is done to the registry, in any order and with any arguments. -/
inductive RegistryOperation
  | start (settings : LifecycleSettings) (profile : ModelProfile) (decision : PlacementDecision)
      (gpus : List GpuState) (extra : Mapping)
  | markState (instanceId : String) (state : BackendState)
  | markFailed (instanceId reason : String)
  | adjustActiveRequests (instanceId : String) (delta : ℤ)
  | sync (settings : LifecycleSettings)
  | remove (instanceId : String)

def registryBody : RegistryOperation → Service Unit
  | .start settings profile decision gpus extra =>
    discard (enteredInstance settings profile decision gpus extra)
  | .markState instanceId state => discard (Lifecycle.markState instanceId state)
  | .markFailed instanceId reason => discard (Lifecycle.markFailed instanceId reason)
  | .adjustActiveRequests instanceId delta =>
    discard (Lifecycle.adjustActiveRequests instanceId delta)
  | .sync settings => discard (syncLiveLmstudioState settings)
  | .remove instanceId => removeInstance instanceId

def registryLts : Lts Processes (PoolStep RegistryOperation LifecycleCall LifecycleCall.Answer) :=
  Pool.lts world registryBody fun s => s.registry = .empty

lemma triple_discard {α : Type} {p : Service α}
    (h : Triple world I Distinct p fun _ s => Distinct s) :
    Triple world I Distinct (discard p) fun _ s => Distinct s :=
  h.seq fun _ => Triple.of_done fun _ hs => hs

lemma triple_registryBody (op : RegistryOperation) :
    Triple world Distinct Distinct (registryBody op) fun _ s => Distinct s := by
  cases op with
  | start settings profile decision gpus extra =>
    exact triple_discard (triple_enteredInstance profile decision gpus extra)
  | markState id state => exact triple_discard (triple_markState (marked id) trivial)
  | markFailed id reason => exact triple_discard (triple_markFailed (marked id) reason trivial)
  | adjustActiveRequests id delta =>
    exact triple_discard (triple_adjustActiveRequests leaseKeeps id delta)
  | sync settings => exact triple_discard (triple_syncLiveLmstudioState syncKeeps)
  | remove id =>
    intro s₀ s hs
    rw [registryBody, removeInstance, wpt_get, wpt_set, pure_eq, wpt_done]
    exact hs.erase id

lemma registry_distinct {P : Processes} (h : registryLts.Reachable Lts.anyStep P) :
    Distinct P.state :=
  Pool.reachable_invariant (fun _ hs => distinct_empty hs)
    (fun op => keeps_of_triple (triple_registryBody op)) h

lemma server_distinct {S : Server} (h : serverLts.Reachable Lts.anyStep S) :
    Distinct S.processes.state :=
  server_invariant (fun _ hs => distinct_empty hs) loadKeeps (fun _ _ _ _ =>
    partsKeep.holds_body (fun _ _ _ _ => trivial) fun _ _ _ _ _ _ _ => trivial) h

/-- **Ports are the first free ones, and distinct.** The loop goes over used ports only and stops at
the least port that is free. So no two records have one port: in the runs of the changes of a
registry, in any order, and in those of the server, over its restarts. -/
theorem host_ports_distinct :
    (∀ (r : Registry) (start : ℤ),
      (∃ offset : ℕ, r.nextHostPort start = start + offset ∧ ¬Used r (start + offset) ∧
        ∀ n < offset, Used r (start + n)) ∧
      IsLeast {port | start ≤ port ∧ ¬Used r port} (r.nextHostPort start)) ∧
    (∀ P, registryLts.Reachable Lts.anyStep P → ∀ id id' i j port,
      P.state.registry.get? id = some i → P.state.registry.get? id' = some j →
        i.hostPort = some port → j.hostPort = some port → id = id') ∧
    ∀ S, serverLts.Reachable Lts.anyStep S → ∀ id id' i j port,
      S.processes.state.registry.get? id = some i → S.processes.state.registry.get? id' = some j →
        i.hostPort = some port → j.hostPort = some port → id = id' :=
  ⟨fun r start => ⟨nextHostPort_stops r start, nextHostPort_least r start⟩,
    fun _ h => (registry_distinct h).2, fun _ h => (server_distinct h).2⟩

end Orchestrator.Lifecycle.HostPorts
