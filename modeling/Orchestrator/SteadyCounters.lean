import Orchestrator.LifecycleRestart
import Orchestrator.UnleasedStops

/-!
The counters of requests over one turn. Nothing but a lease or a release changes the counter of an
instance that has been leased; its record may go, and another record may take its id, which then has
not been leased.
-/

namespace Orchestrator.Lifecycle

open Lib Lib.Coro Clock

/-- The records that have been leased have their counters from the earlier registry. -/
def Steady (r₀ r : Registry) : Prop := ∀ id i, r.get? id = some i → i.lastUsedAt ≠ none →
  ∃ i₀, r₀.get? id = some i₀ ∧ i₀.activeRequests = i.activeRequests ∧ i₀.lastUsedAt = i.lastUsedAt

variable {r₀ r r' : Registry} {s₀ s : LifecycleState} {settings : LifecycleSettings}

lemma Steady.refl (r : Registry) : Steady r r := fun _ i hi _ => ⟨i, hi, rfl, rfl⟩

lemma Steady.trans (h : Steady r₀ r) (h' : Steady r r') : Steady r₀ r' := by
  intro id k hk hused
  obtain ⟨j, hj, hcount, htext⟩ := h' id k hk hused
  obtain ⟨i, hi, hcount', htext'⟩ := h id j hj (htext ▸ hused)
  exact ⟨i, hi, hcount'.trans hcount, htext'.trans htext⟩

/-- A record that is changed apart from its counter. -/
lemma steady_set {id : String} {i j : BackendInstance} (hi : r.get? id = some i)
    (hcount : j.activeRequests = i.activeRequests) (hused : j.lastUsedAt = i.lastUsedAt) :
    Steady r (r.set id j) := by
  intro x k hk hk'
  rw [Dict.get?_set] at hk
  split at hk
  · next hx =>
    cases hk
    exact ⟨i, hx ▸ hi, hcount.symm, hused.symm⟩
  · exact ⟨k, hk, rfl, rfl⟩

/-- A record that has not been leased. -/
lemma steady_enter {id : String} {j : BackendInstance} (hj : j.lastUsedAt = none) :
    Steady r (r.set id j) := by
  intro x k hk hused
  rw [Dict.get?_set] at hk
  split at hk
  · cases hk
    exact absurd hj hused
  · exact ⟨k, hk, rfl, rfl⟩

lemma steady_erase (id : String) : Steady r (r.erase id) := by
  intro x k hk _
  rw [Dict.get?_erase] at hk
  split at hk
  · cases hk
  · exact ⟨k, hk, rfl, rfl⟩

/-! ### One turn -/

/-- Since the turn began in `s₀`, the counters have been steady, also at each stop. -/
structure SteadySince (s₀ s : LifecycleState) : Prop where
  guarded : Guarded s
  steady : Steady s₀.registry s.registry
  stops : ∃ recent, s.log = recent ++ s₀.log ∧
    ∀ i registry t, ⟨.stopping i registry, t⟩ ∈ recent → Steady s₀.registry registry

namespace SteadySince

lemma refl (h : Guarded s) : SteadySince s s :=
  ⟨h, .refl _, [], rfl, fun _ _ _ hmem => absurd hmem List.not_mem_nil⟩

lemma tick {t : DateTime} (h : SteadySince s₀ s) (ht : s.clock ≤ t) : SteadySince s₀ (s.tick t) :=
  ⟨guarded_closed.tick s t h.guarded ht, h.steady, h.stops⟩

lemma changed (h : SteadySince s₀ s) (hguarded : Guarded (s.change r)) (hr : Steady s.registry r) :
    SteadySince s₀ (s.change r) := by
  obtain ⟨recent, hlog, hstops⟩ := h.stops
  refine ⟨hguarded, h.steady.trans hr, ⟨.changed s.registry, s.clock⟩ :: recent, ?_,
    fun i registry t hmem => ?_⟩
  · rw [LifecycleState.change_log, hlog, List.cons_append]
  · rcases List.mem_cons.mp hmem with heq | hmem
    · cases heq
    · exact hstops i registry t hmem

lemma change (h : SteadySince s₀ s) (hc : Change s (s.change r)) (hr : Steady s.registry r) :
    SteadySince s₀ (s.change r) := h.changed (guarded_closed.change s _ h.guarded hc) hr

/-- The registry is read from the file. -/
lemma reload (h : SteadySince s₀ s) (hr : Reloaded s.registry r) : SteadySince s₀ (s.change r) := by
  refine h.changed (h.guarded.change (fun id j hj => ?_) fun id j hj => ?_) fun id j hj _ => ?_
  all_goals obtain ⟨i, hi, hij⟩ := hr.of_some hj
  · exact hij.instanceId.trans (h.guarded.keyed id i hi)
  · exact hij.activeRequests ▸ h.guarded.counted id i hi
  · exact ⟨i, hi, hij.activeRequests.symm, hij.lastUsedAt.symm⟩

/-- A note, which tells of the registry as it is if it tells of a stop. -/
lemma noted {note : Note} (h : SteadySince s₀ s) (hguarded : Guarded (s.noted note))
    (hnote : ∀ i registry, note = .stopping i registry → registry = s.registry) :
    SteadySince s₀ (s.noted note) := by
  obtain ⟨recent, hlog, hstops⟩ := h.stops
  refine ⟨hguarded, h.steady, ⟨note, s.clock⟩ :: recent, ?_, fun i registry t hmem => ?_⟩
  · rw [LifecycleState.noted_log, hlog, List.cons_append]
  · rcases List.mem_cons.mp hmem with heq | hmem
    · cases heq
      rw [hnote i registry rfl]
      exact h.steady
    · exact hstops i registry t hmem

end SteadySince

variable (s₀)

lemma steadySince_calm : Calm Note.AboutProcess (SteadySince s₀) where
  tick _ _ hs ht := hs.tick ht
  note s note hs hn := by
    refine hs.noted (guarded_closed.calm.note s note hs.guarded hn) fun i registry h => ?_
    subst h
    cases hn

lemma steadySince_still : Calm (fun _ => False) (SteadySince s₀) :=
  ⟨(steadySince_calm s₀).tick, fun _ _ _ hn => hn.elim⟩

lemma steadySince_marked (id : String) (L : BackendState → Prop) :
    Marked id L (SteadySince s₀) where
  tick := (steadySince_calm s₀).tick
  mark _ _ state reason hs hi _ := hs.change (.mark state reason hi) (steady_set hi rfl rfl)

lemma steadySince_syncKeeps : SyncKeeps settings (SteadySince s₀) where
  calm := steadySince_still s₀
  keyed _ hs := hs.guarded.keyed
  change s s' hs h := by
    cases h with
    | reshape hi hj =>
      refine hs.change (.reshape hi hj) ?_
      rw [hj.instanceId]
      exact steady_set hi hj.activeRequests hj.lastUsedAt
    | remove hi _ => exact hs.change (.remove _) (steady_erase _)
    | enter hi => exact hs.change (.enter hi.fresh) (steady_enter hi.fresh.2)

lemma steadySince_purgeKeeps : PurgeKeeps (SteadySince s₀) where
  calm := steadySince_still s₀
  keyed _ hs := hs.guarded.keyed
  remove _ _ hs _ _ := hs.change (.remove _) (steady_erase _)

lemma steadySince_stop : StopKeeps settings (SteadySince s₀) := by
  intro profile i
  let A (s : LifecycleState) : Prop := SteadySince s₀ s ∧ Unleased s.registry i.instanceId
  have hcalm : Calm Note.AboutProcess A := ⟨fun s t hs ht => ⟨hs.1.tick ht, hs.2⟩,
    fun s note hs hn => ⟨(steadySince_calm s₀).note s note hs.1 hn, hs.2⟩⟩
  have hmarked : Marked i.instanceId Leaving A := by
    refine ⟨hcalm.tick, fun s j state reason hs hj hstate => ?_⟩
    refine ⟨(steadySince_marked s₀ _ _).mark s j state reason hs.1 hj hstate, ?_⟩
    exact ((releasable_marked _ Leaving).mark s j state reason ⟨hs.1.guarded, hs.2⟩ hj hstate).2
  have hnote : NotesStop A i := fun s hs =>
    ⟨hs.1.noted (Releasable.notesStop i s ⟨hs.1.guarded, hs.2⟩).1 fun _ _ h => by
      cases h; rfl, hs.2⟩
  refine (triple_stopInstance settings hmarked profile hnote (triple_stop hcalm _ _ _)).weaken
    (fun s hs => ⟨hs.1, ?_⟩) fun _ _ hs => hs.1
  obtain ⟨hsince, ⟨record, hrecord, hreshaped⟩, hunleased⟩ := hs
  have hcounted := hsince.guarded.counted _ record hrecord
  have hsame := hreshaped.activeRequests
  exact ⟨record, hrecord, by omega⟩

lemma steadySince_loadKeeps : LoadKeeps (SteadySince s₀) where
  calm := steadySince_still s₀
  keyed _ hs := hs.guarded.keyed
  load _ _ hs hr := hs.reload hr

lemma steadySince_idle : IdleStopsKeep settings (SteadySince s₀) :=
  (steadySince_stop s₀).idle (steadySince_still s₀) (fun _ hs => hs.guarded.keyed) fun s _ _ hs =>
    hs.noted (hs.guarded.noted fun _ _ h => by cases h) fun _ _ h => by cases h

/-! ### Operations -/

/-- A lease or a release adjusts the record that is there. -/
lemma triple_adjusted {I : LifecycleState → Prop} (r : Registry) (id : String) (delta : ℤ) :
    Triple world I (fun s => s.registry = r) (adjustActiveRequests id delta) fun x s =>
      (∃ e, x = .error e) ∧ s.registry = r ∨
        ∃ i t, r.get? id = some i ∧ s.registry = r.set id (adjusted i delta t) := by
  refine triple_getInstance (fun i => ?_) fun _ hr _ => Or.inl ⟨⟨_, rfl⟩, hr⟩
  refine triple_nowText (fun _ _ hs _ => hs) fun t s₀ s hs => ?_
  obtain ⟨⟨rfl, hi⟩, rfl⟩ := hs
  simp only [putInstance, noteRelease, pure_eq, after_get, wpt_get, after_set, wpt_set, after_done,
    onOk_ok]
  split
  all_goals
    simp only [after_set, wpt_set, after_done, onOk_ok, wpt_done]
    exact Or.inr ⟨i, s.clock, hi, rfl⟩

/-- Any turn of an operation is steady. -/
def steadyTurns : Holding LifecycleState LifecycleCall LifecycleCall.Answer Exn Unit :=
  turning world Guarded SteadySince

abbrev AtSteady (_ : Unit) (s₀ s : LifecycleState) : Prop := SteadySince s₀ s

lemma steady_resting : Resting steadyTurns () AtSteady where
  suspends := rfl
  allowed _ _ _ h := h
  marks _ _ := trivial
  own _ _ _ hs := hs
  resumes _ hs := .refl hs
  calm _ s₀ := steadySince_still s₀

variable (settings) in
lemma steady_blocks : Blocks settings (fun _ => True) fun _ p M =>
    Within steadyTurns AtSteady p M :=
  steady_resting.blocks (fun _ _ _ _ => trivial) (fun _ s₀ => steadySince_syncKeeps s₀)
    (fun _ s₀ => steadySince_purgeKeeps s₀) (fun _ s₀ => steadySince_idle s₀)
    (fun _ s₀ id => steadySince_marked s₀ id _) (fun _ s₀ => steadySince_stop s₀)
    fun _ _ _ extra _ _ => steady_resting.started (fun _ s₀ => steadySince_calm s₀)
      (fun id _ s₀ => steadySince_marked s₀ id _) fun _ s₀ =>
        triple_enteredInstance (steadySince_calm s₀) fun _ i hs hi => hs.change
          (.enter (i := { i with metadata := Mapping.merge i.metadata extra })
            ⟨hi.fresh.1, hi.fresh.2⟩)
          (steady_enter hi.fresh.2)

end Orchestrator.Lifecycle
