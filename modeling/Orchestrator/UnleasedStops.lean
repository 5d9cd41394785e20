import Orchestrator.IdleStops

/-!
The moment of a stop. Whether a cleanup or a reload calls it, `stop_instance` calls the stop of an
adapter for an instance that holds no request: the check of the counter and the stop stand in one
turn, and counters are never below zero.
-/

namespace Orchestrator.Lifecycle

open Lib Lib.Coro Clock

/-- No counter of requests is below zero. -/
def Counted (s : LifecycleState) : Prop :=
  ∀ id i, s.registry.get? id = some i → 0 ≤ i.activeRequests

/-- The instance is in the registry and holds no request. -/
def Unleased (r : Registry) (id : String) : Prop := ∃ i, r.get? id = some i ∧ i.activeRequests = 0

/-- Each stop so far came when the instance held no request. -/
def StopsUnleased (log : List Entry) : Prop :=
  ∀ i registry t, ⟨.stopping i registry, t⟩ ∈ log → Unleased registry i.instanceId

/-- The invariant of the runs. -/
structure Guarded (s : LifecycleState) : Prop where
  keyed : Keyed s
  counted : Counted s
  stops : StopsUnleased s.log

lemma StopsUnleased.cons {log : List Entry} (h : StopsUnleased log) {e : Entry}
    (he : ∀ i registry, e.note = .stopping i registry → Unleased registry i.instanceId) :
    StopsUnleased (e :: log) := by
  intro i registry t hmem
  rcases List.mem_cons.mp hmem with rfl | hmem
  · exact he i registry rfl
  · exact h i registry t hmem

lemma Guarded.change {s : LifecycleState} (hs : Guarded s) {r : Registry}
    (hkeyed : Keyed (s.change r)) (hcounted : Counted (s.change r)) : Guarded (s.change r) where
  keyed := hkeyed
  counted := hcounted
  stops := hs.stops.cons fun _ _ h => by cases h

/-- A record under its own id. -/
lemma Guarded.set {s : LifecycleState} (hs : Guarded s) {id : String} {j : BackendInstance}
    (hid : j.instanceId = id) (hj : 0 ≤ j.activeRequests) :
    Guarded (s.change (s.registry.set id j)) := by
  refine hs.change ?_ ?_ <;> intro x k hk
  all_goals
    rw [LifecycleState.change_registry, Dict.get?_set] at hk
    split at hk
  · next hx =>
    cases hk
    exact hx ▸ hid
  · exact hs.keyed x k hk
  · cases hk
    exact hj
  · exact hs.counted x k hk

lemma Guarded.noted {s : LifecycleState} (hs : Guarded s) {note : Note}
    (hn : ∀ i registry, note = .stopping i registry → Unleased registry i.instanceId) :
    Guarded (s.noted note) where
  keyed := hs.keyed
  counted := hs.counted
  stops := hs.stops.cons hn

lemma guarded_closed : Closed Guarded where
  keyed _ hs := hs.keyed
  change s s' hs h := by
    cases h with
    | tick ht => exact ⟨hs.keyed, hs.counted, hs.stops⟩
    | note hn =>
      refine hs.noted fun i registry h => ?_
      subst h
      cases hn
    | @mark id i state reason hi => exact hs.set (hs.keyed id i hi) (hs.counted id i hi)
    | @adjust id i delta hi hheld => exact hs.set (hs.keyed id i hi) (le_max_left _ _)
    | @release id i delta hi hheld =>
      have hset := hs.set (j := adjusted i delta s.clock) (hs.keyed id i hi) (le_max_left _ _)
      exact hset.noted fun j registry h => by cases h
    | enter hi => exact hs.set rfl hi.1.ge
    | reshape hi hj => exact hs.set rfl (hj.activeRequests ▸ hs.counted _ _ hi)
    | remove id =>
      have hold : ∀ x k, (s.registry.erase id).get? x = some k → s.registry.get? x = some k := by
        intro x k hk
        rw [Dict.get?_erase] at hk
        split at hk
        · cases hk
        · exact hk
      exact hs.change (fun x k hk => hs.keyed x k (hold x k hk))
        fun x k hk => hs.counted x k (hold x k hk)

/-! ### Stops -/

/-- The runs so far are guarded, and the instance holds no request. -/
def Releasable (id : String) (s : LifecycleState) : Prop := Guarded s ∧ Unleased s.registry id

lemma releasable_calm (id : String) : Calm Note.AboutProcess (Releasable id) where
  tick _ _ hs ht := ⟨guarded_closed.tick _ _ hs.1 ht, hs.2⟩
  note _ _ hs hn := ⟨guarded_closed.calm.note _ _ hs.1 hn, hs.2⟩

lemma releasable_marked (id : String) (L : BackendState → Prop) : Marked id L (Releasable id) where
  tick := (releasable_calm id).tick
  mark s j state reason hs hj _ := by
    refine ⟨guarded_closed.change s _ hs.1 (.mark state reason hj), ?_⟩
    obtain ⟨k, hk, hzero⟩ := hs.2
    rw [hj] at hk
    cases hk
    rw [Unleased, LifecycleState.change_registry, Dict.get?_set_self]
    exact ⟨_, rfl, hzero⟩

lemma Releasable.notesStop (i : BackendInstance) : NotesStop (Releasable i.instanceId) i := by
  intro s hs
  refine ⟨hs.1.noted fun j registry h => ?_, hs.2⟩
  cases h
  exact hs.2

variable (settings : LifecycleSettings)

lemma guarded_stop : StopKeeps settings Guarded := by
  intro profile i
  refine (triple_stopInstance settings (releasable_marked _ Leaving) profile
    (Releasable.notesStop i)
    (triple_stop (releasable_calm _) _ _ _)).weaken (fun s hs => ⟨hs.1, ?_⟩) fun _ _ hs => hs.1
  obtain ⟨hguarded, ⟨record, hrecord, hreshaped⟩, hunleased⟩ := hs
  have hcounted := hguarded.counted _ record hrecord
  have hsame := hreshaped.activeRequests
  exact ⟨record, hrecord, by omega⟩

lemma guarded_idle : IdleStopsKeep settings Guarded :=
  (guarded_stop settings).idle ⟨guarded_closed.tick, fun _ _ _ hn => hn.elim⟩ guarded_closed.keyed
    fun _ _ _ hs => hs.noted fun _ _ h => by cases h

/-- The registry file of an earlier process, with the counters that process wrote. -/
def LoadedCounted (s : LifecycleState) : Prop := Loaded s ∧ Counted s

lemma LoadedCounted.guarded {s : LifecycleState} (h : LoadedCounted s) : Guarded s where
  keyed := h.1.keyed
  counted := h.2
  stops := by
    rw [h.1.log]
    exact fun _ _ _ hmem => absurd hmem List.not_mem_nil

variable {settings}

/-- **No instance is stopped under a request**: in every run, whenever `stop_instance` calls the
stop of an adapter, the record of the instance counts no active request. -/
theorem stopped_unleased {A : Processes → ProcessStep → Prop} {P : Processes}
    (h : (Pool.lts world (body settings) LoadedCounted).Reachable A P) {i : BackendInstance}
    {registry : Registry} {t : DateTime} (hstop : ⟨.stopping i registry, t⟩ ∈ P.state.log) :
    ∃ record, registry.get? i.instanceId = some record ∧ record.activeRequests = 0 :=
  (reachable_closed guarded_closed (guarded_idle settings) (guarded_stop settings)
    (fun _ hs => hs.guarded) h).stops i registry t hstop

/-! ### A stop -/

/-- The only instance has been idle for long, and a cleanup stops it. -/
def cleanedUp : Processes := nextAt 300 oneReady (.cleanup .empty)

lemma reachable_cleanedUp : (Pool.lts world (body (settingsFor true chatProfile))
    LoadedCounted).Reachable Lts.anyStep cleanedUp := by
  have hinit : (Pool.lts world (body (settingsFor true chatProfile)) LoadedCounted).init
    oneReady := by
    refine ⟨⟨oneReady_loaded, fun id i hi => ?_⟩, rfl⟩
    obtain ⟨-, rfl⟩ := oneReady_get hi
    exact le_rfl
  exact Lts.Reachable.run (.init hinit) (run_beginAt 300 [] oneReady (.cleanup .empty))

def isStopping (e : Entry) : Bool :=
  match e.note with
  | .stopping _ _ => true
  | _ => false

lemma cleanedUp_stops : cleanedUp.state.log.any isStopping = true := by decide +kernel

theorem stopped_unleased_sample : ∃ i registry t, ⟨.stopping i registry, t⟩ ∈ cleanedUp.state.log ∧
    ∃ record, registry.get? i.instanceId = some record ∧ record.activeRequests = 0 := by
  obtain ⟨⟨note, t⟩, hmem, hnote⟩ := List.any_eq_true.mp cleanedUp_stops
  cases note with
  | stopping i registry => exact ⟨i, registry, t, hmem, stopped_unleased reachable_cleanedUp hmem⟩
  | _ => cases hnote

end Orchestrator.Lifecycle
