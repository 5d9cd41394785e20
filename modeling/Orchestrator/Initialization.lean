import Orchestrator.LifecycleRestart

/-!
Who drives an instance that is starting or warming.

An instance is entered in the turn in which its initialization begins to wait, and the
initialization leaves it ready or failed unless its process ends. Nothing takes it up again after
a restart.
-/

namespace Orchestrator.Lifecycle

open Lib Lib.Coro Clock

variable {α β : Type} {settings : LifecycleSettings}

/-! ### Instances under way -/

/-- An instance is recorded as starting or warming. -/
def Starting (s : LifecycleState) (id : String) : Prop :=
  ∃ i, s.registry.get? id = some i ∧ (i.state = .starting ∨ i.state = .warming)

/-- Whatever happens while `p` waits, the record is ready or failed at its end. -/
def Concludes (id : String) (p : Service α) : Prop :=
  Triple (world.only Ordinary) (fun _ => True) (fun _ => True) p fun _ s => Concluded s id

/-- `q` is what is left of a call of `initialize_instance` for the id, with what comes after. -/
def Drives (settings : LifecycleSettings) (id : String) (q : Service α) : Prop :=
  ∃ (profile : ModelProfile) (i : BackendInstance) (p : Service BackendInstance)
    (k : Except Exn BackendInstance → Service α), i.instanceId = id ∧
    LeftOf (world.only Ordinary) (initializeInstance settings profile i) p ∧ Concludes id p ∧
    q = p.after k

/-- In a turn that began with the token `k₀`, only instances that it has not begun with, and the one
of the token `k`, are under way besides those of others. -/
def Underway (k₀ : Option String) (s₀ : LifecycleState) (k : Option String) (s : LifecycleState) :
    Prop :=
  Keyed s ∧ ∀ id, Starting s id → k = some id ∨ (Starting s₀ id ∧ k₀ ≠ some id)

/-- An initialization under way holds the id of its instance. -/
def initializing (settings : LifecycleSettings) :
    Holding LifecycleState LifecycleCall LifecycleCall.Answer Exn (Option String) where
  toWorld := world.only Ordinary
  marks k _ q := ∀ id, k = some id → Drives settings id q
  marks_after := by
    intro k α β q r hq id hid
    obtain ⟨profile, i, p, l, hi, hp, hconcludes, rfl⟩ := hq id hid
    exact ⟨profile, i, p, fun x => (l x).after r, hi, hp, hconcludes, after_assoc p l r⟩
  own := Underway
  resumes _ s := Keyed s
  idle := none

/-- The instances under way are those of the tokens. -/
def Covered (ks : List (Option String)) (s : LifecycleState) : Prop :=
  Keyed s ∧ ∀ id, Starting s id → some id ∈ ks

lemma covered_balance : Pool.Balance (initializing settings) Covered where
  resume _ _ _ _ h := h.1
  own ks k₀ k ls s t h hown := by
    refine ⟨hown.1, fun id hid => ?_⟩
    rcases hown.2 id hid with rfl | ⟨hs, hne⟩
    · simp
    · have hmem := h.2 id hs
      simp only [List.mem_append, List.mem_cons] at hmem ⊢
      rcases hmem with hmem | rfl | hmem
      · exact Or.inl hmem
      · exact absurd rfl hne
      · exact Or.inr (Or.inr hmem)
  drop ks ls s h := ⟨h.1, fun id hid => by simpa [initializing] using h.2 id hid⟩

/-! ### What keeps the instances under way -/

variable {k₀ k : Option String} {s₀ s : LifecycleState}

lemma keyed_set (hs : Keyed s) {id : String} {i : BackendInstance} (hi : i.instanceId = id) :
    Keyed (s.change (s.registry.set id i)) := by
  intro id' j hj
  rw [LifecycleState.change_registry, Dict.get?_set] at hj
  split at hj
  · next h => exact h ▸ Option.some.inj hj ▸ hi
  · exact hs id' j hj

lemma keyed_erase (hs : Keyed s) (id : String) : Keyed (s.change (s.registry.erase id)) := by
  intro id' j hj
  rw [LifecycleState.change_registry, Dict.get?_erase] at hj
  split at hj
  · cases hj
  · exact hs id' j hj

namespace Underway

lemma set (h : Underway k₀ s₀ k s) {id : String} {j : BackendInstance} (hid : j.instanceId = id)
    (hj : j.state = .starting ∨ j.state = .warming → k = some id ∨ Starting s id) :
    Underway k₀ s₀ k (s.change (s.registry.set id j)) := by
  refine ⟨keyed_set h.1 hid, fun id' hid' => ?_⟩
  obtain ⟨i, hi, hstate⟩ := hid'
  rw [LifecycleState.change_registry, Dict.get?_set] at hi
  split at hi
  · next heq =>
    subst heq
    cases Option.some.inj hi
    exact (hj hstate).elim Or.inl (h.2 id')
  · exact h.2 id' ⟨i, hi, hstate⟩

lemma erase (h : Underway k₀ s₀ k s) (id : String) :
    Underway k₀ s₀ k (s.change (s.registry.erase id)) := by
  refine ⟨keyed_erase h.1 id, fun id' hid' => h.2 id' ?_⟩
  obtain ⟨i, hi, hstate⟩ := hid'
  rw [LifecycleState.change_registry, Dict.get?_erase] at hi
  split at hi
  · cases hi
  · exact ⟨i, hi, hstate⟩

/-- The instance of the token is under way no longer. -/
lemma ended {id : String} (h : Underway k₀ s₀ (some id) s) (hid : Concluded s id) :
    Underway k₀ s₀ none s := by
  refine ⟨h.1, fun id' hid' => ?_⟩
  rcases h.2 id' hid' with heq | hother
  · cases Option.some.inj heq
    obtain ⟨i, hi, hstate⟩ := hid'
    rcases hid i hi with hready | hfailed
    · simp [hready] at hstate
    · simp [hfailed] at hstate
  · exact Or.inr hother

/-- A new instance. -/
lemma enter (h : Underway k₀ s₀ none s) {id : String} {j : BackendInstance}
    (hid : j.instanceId = id) :
    Underway k₀ s₀ (some id) (s.change (s.registry.set id j)) :=
  Underway.set ⟨h.1, fun id' hid' => Or.inr ((h.2 id' hid').resolve_left nofun)⟩ hid
    fun _ => Or.inl rfl

lemma calm (k₀ : Option String) (s₀ : LifecycleState) (k : Option String) (N : Note → Prop) :
    Calm N (Underway k₀ s₀ k) := ⟨fun _ _ hs _ => hs, fun _ _ hs _ => hs⟩

lemma marked (k₀ : Option String) (s₀ : LifecycleState) (id : String) :
    Marked id Leaving (Underway k₀ s₀ none) where
  tick _ _ hs _ := hs
  mark s i state _ hs hi hstate := hs.set (hs.1 id i hi) fun h => by
    rcases h with rfl | rfl <;> exact hstate.elim

lemma leaseKeeps (k₀ : Option String) (s₀ : LifecycleState) : LeaseKeeps (Underway k₀ s₀ none) where
  tick _ _ hs _ := hs
  adjust _ id i _ hs hi _ := hs.set (hs.1 id i hi) fun h => Or.inr ⟨i, hi, h⟩
  release _ id i _ hs hi _ := hs.set (hs.1 id i hi) fun h => Or.inr ⟨i, hi, h⟩

lemma syncKeeps (k₀ : Option String) (s₀ : LifecycleState) :
    SyncKeeps settings (Underway k₀ s₀ none) where
  calm := calm k₀ s₀ none _
  keyed _ hs := hs.1
  change s s' hs h := by
    cases h with
    | reshape hi hj =>
      refine hs.set rfl fun h => Or.inr ⟨_, hj.instanceId ▸ hi, ?_⟩
      rwa [← hj.state]
    | remove hi _ => exact hs.erase _
    | enter hi =>
      refine hs.set rfl fun h => ?_
      simp [hi.state] at h

lemma purgeKeeps (k₀ : Option String) (s₀ : LifecycleState) : PurgeKeeps (Underway k₀ s₀ none) where
  calm := calm k₀ s₀ none _
  keyed _ hs := hs.1
  remove _ _ hs _ _ := hs.erase _

end Underway

lemma resting_idle (settings : LifecycleSettings) :
    Resting (initializing settings) none fun k₀ s₀ s => Underway k₀ s₀ none s where
  suspends := rfl
  allowed _ _ _ h := h.1
  marks _ _ _ h := by cases h
  own _ _ _ hs := hs
  resumes _ hs := ⟨hs, fun _ hid => Or.inr ⟨hid, nofun⟩⟩
  calm k₀ s₀ := Underway.calm k₀ s₀ none _

lemma resting_initialization (settings : LifecycleSettings) (id : String) :
    Resting ((initializing settings).marking (· = some id)) (some id)
      fun k₀ s₀ s => Underway k₀ s₀ (some id) s where
  suspends := rfl
  allowed _ _ _ h := h.1
  marks _ _ := rfl
  own _ _ _ hs := hs
  resumes s hs := by
    refine ⟨hs, fun id' hid => ?_⟩
    by_cases heq : id' = id
    · exact Or.inl (heq ▸ rfl)
    · exact Or.inr ⟨hid, fun h => heq (Option.some.inj h).symm⟩
  calm k₀ s₀ := Underway.calm k₀ s₀ (some id) _

lemma resting_free : Resting (single (world.only Ordinary) fun _ => True) () fun _ _ _ => True where
  suspends := rfl
  allowed _ _ _ h := h.1
  marks _ _ := trivial
  own _ _ _ _ := trivial
  resumes _ _ := trivial
  calm _ _ := ⟨fun _ _ _ _ => trivial, fun _ _ _ _ => trivial⟩

/-- An initialization keeps what its marks keep, and notes, and it concludes. -/
lemma holds_concluded {K : Type}
    {H : Holding LifecycleState LifecycleCall LifecycleCall.Answer Exn K}
    {k : K} {B : K → LifecycleState → LifecycleState → Prop} (hB : Resting H k B)
    (hordinary : ∀ c r s, H.allowed c r s → Ordinary ⟨c, r⟩)
    (hcalm : ∀ k₀ s₀, Calm Note.AboutProcess (B k₀ s₀)) (profile : ModelProfile)
    (i : BackendInstance)
    (hmark : KeepsMarks B i.instanceId) : Holds H B (initializeInstance settings profile i)
      fun _ k₀ s₀ s => B k₀ s₀ s ∧ Concluded s i.instanceId := by
  cases hi : i.dryRun with
  | true => exact holds_initializeDry hB profile hi hmark
  | false =>
    have hinit : Holds H B (initializeInstance settings profile i) _ :=
      holds_initializeInstance hB hB.own profile hi hmark
        (hB.of_triple fun k₀ s₀ => triple_stop (hcalm k₀ s₀) _ _ _)
    exact (hinit.results hordinary (mild_initializeInstance profile i)).weaken (fun _ _ _ hs => hs)
      fun _ _ _ _ hs => ⟨hs.1.1, hs.1.2 hs.2⟩

/-- An initialization concludes, whatever happens while it waits. -/
lemma concludes_initializeInstance (profile : ModelProfile) (i : BackendInstance) :
    Concludes i.instanceId (initializeInstance settings profile i) :=
  Holds.triple ((holds_concluded resting_free (fun _ _ _ h => h.2)
    (fun _ _ => ⟨fun _ _ _ _ => trivial, fun _ _ _ _ => trivial⟩) profile i
    fun _ _ => ⟨fun _ _ _ _ => trivial, fun _ _ _ _ _ _ _ => trivial⟩).weaken
      (fun _ _ _ _ => trivial)
      fun _ _ _ _ hs => hs.2)

/-- An initialization that waits drives its instance. -/
lemma holds_initialization (profile : ModelProfile) (i : BackendInstance) :
    Holds (initializing settings) (fun k₀ s₀ s => Underway k₀ s₀ (some i.instanceId) s)
      (initializeInstance settings profile i) fun _ k₀ s₀ s => Underway k₀ s₀ none s := by
  intro k₀ s₀ s hs
  refine wph_marked (N := (· = some i.instanceId)) ?_ (fun _ _ _ ht => .first ht) ?_
  · rintro _ c f rfl hleft id hid
    cases Option.some.inj hid
    have hconcludes := hleft.triple (concludes_initializeInstance profile i) c f rfl
    exact ⟨profile, i, _, .done, rfl, hleft, hconcludes _, (after_done_right _).symm⟩
  · exact wph_mono (holds_concluded (resting_initialization settings _) (fun _ _ _ h => h.2)
      (fun k₀ s₀ => Underway.calm k₀ s₀ _ _) profile i
      (fun _ _ => ⟨fun _ _ hs _ => hs, fun _ j _ _ hs hj _ =>
        hs.set (hs.1 _ j hj) fun _ => Or.inl rfl⟩)
      k₀ s₀ s hs) fun _ _ _ _ ht => ht.1.ended ht.2

lemma holds_started (profile : ModelProfile) (decision : PlacementDecision) (gpus : List GpuState)
    (extra : Mapping) : Holds (initializing settings) (fun k₀ s₀ s => Underway k₀ s₀ none s)
      (startedInstance settings profile decision gpus extra) fun _ k₀ s₀ s =>
      Underway k₀ s₀ none s := by
  have hidle := resting_idle settings
  refine Holds.bind (M := fun _ k₀ s₀ s => Underway k₀ s₀ none s) ?_
    (fun i => ?_) fun _ _ _ _ hs => hs
  · exact hidle.of_triple fun k₀ s₀ => (ticking_startInstance settings profile decision gpus _ _
      (Underway.calm k₀ s₀ none _)).weaken (fun _ hs => hs) fun _ _ hs => hs.1
  refine Holds.bind (M := fun x k₀ s₀ s => (∃ a, x = .ok a ∧ a.instanceId = i.instanceId) ∧
    Underway k₀ s₀ (some i.instanceId) s) ?_ (fun a => ?_) ?_
  · refine hidle.of_triple fun k₀ s₀ => triple_nowText (fun _ _ hs _ => hs) fun t _ s hs => ?_
    exact wpt_putInstance.mpr ⟨⟨_, rfl, rfl⟩, hs.1.enter rfl⟩
  · intro k₀ s₀ s hs
    obtain ⟨⟨_, heq, ha⟩, hs⟩ := hs
    cases heq
    exact holds_initialization profile a k₀ s₀ s (ha ▸ hs)
  · rintro e k₀ s₀ s ⟨⟨a, ha, -⟩, -⟩
    cases ha

lemma holds_body (op : Operation) : Holds (initializing settings)
    (fun k₀ s₀ s => Underway k₀ s₀ none s) (body settings op) fun _ k₀ s₀ s =>
    Underway k₀ s₀ none s := by
  have hidle := resting_idle settings
  have hstop : ∀ k₀ s₀, StopKeeps settings (Underway k₀ s₀ none) := fun k₀ s₀ profile i =>
    (triple_stopInstance settings (Underway.marked k₀ s₀ i.instanceId) profile (fun _ hs => hs)
      (triple_stop (Underway.calm k₀ s₀ none _) _ _ _)).weaken (fun _ hs => hs.1) fun _ _ hs => hs
  have hG : Configures settings fun _ => True := fun _ _ _ _ => trivial
  have B := hidle.blocks hG
    Underway.syncKeeps Underway.purgeKeeps
    (fun k₀ s₀ => (hstop k₀ s₀).idle (Underway.calm k₀ s₀ none _)
      (fun _ hs => hs.1) fun _ _ _ hs => hs)
    (fun k₀ s₀ id => (Underway.marked k₀ s₀ id).mono fun _ h => h ▸ trivial) hstop
    fun profile decision gpus extra _ _ =>
      Within.of_holds (holds_started profile decision gpus extra)
  refine (B.body (fun id delta => Within.of_holds ?_) fun _ _ _ _ _ _ _ => trivial).holds
  exact hidle.of_triple fun k₀ s₀ =>
    triple_adjustActiveRequests (Underway.leaseKeeps k₀ s₀) id delta

/-! ### Runs -/

/-- Every instance that is recorded as starting or warming is driven by an operation that waits. -/
def Attended (S : Server) : Prop :=
  ∀ id, Starting S.processes.state id → ∃ q ∈ S.processes.waiting, Drives S.settings id q

/-- No restart while an instance is starting or warming, and no exception outside `Exception`. -/
def Undisturbed (S : Server) : ServerStep → Prop
  | .work l => ∀ e ∈ l.events, Ordinary e
  | .restart _ _ => ∀ id, ¬ Starting S.processes.state id

lemma loadKeeps_starting (u : LifecycleState) : LoadKeeps fun s => Keyed s ∧
    ∀ id, Starting s id ↔ Starting u id where
  calm := ⟨fun _ _ hs _ => hs, fun _ _ hs _ => hs⟩
  keyed _ hs := hs.1
  load s r hs h := by
    refine ⟨fun id j hj => ?_, fun id => (hs.2 id).symm.trans ?_ |>.symm⟩
    · obtain ⟨i, hi, hij⟩ := h.of_some hj
      exact hij.instanceId.trans (hs.1 id i hi)
    · constructor
      · rintro ⟨i, hi, hstate⟩
        obtain ⟨j, hj, hij⟩ := h.present id i hi
        exact ⟨j, hj, hij.state ▸ hstate⟩
      · rintro ⟨j, hj, hstate⟩
        obtain ⟨i, hi, hij⟩ := h.of_some hj
        exact ⟨i, hi, hij.state ▸ hstate⟩

lemma restart_starting {S S' : Server} {settings : LifecycleSettings}
    {calls : List (Event LifecycleCall LifecycleCall.Answer)}
    (h : serverLts.step S (.restart settings calls) S') (hS : Keyed S.processes.state) :
    Keyed S'.processes.state ∧ ∀ id, Starting S'.processes.state id ↔
      Starting S.processes.state id :=
  restart_keeps (loadKeeps_starting S.processes.state) h ⟨hS, fun _ => Iff.rfl⟩

lemma reachable_covered {S : Server} (h : serverLts.Reachable Undisturbed S) :
    Pool.Balanced (initializing S.settings) Covered S.processes := by
  refine h.invariant (I := fun S => Pool.Balanced (initializing S.settings) Covered S.processes)
    (fun S hS => ?_) fun S l S' hS hl hstep => ?_
  · obtain ⟨hregistry, -, hwaiting⟩ := hS
    refine ⟨[], hwaiting ▸ .nil, fun id i hi => ?_, fun id ⟨i, hi, _⟩ => ?_⟩
    · rw [hregistry] at hi
      cases hi
    · rw [hregistry] at hi
      cases hi
  cases l with
  | work l =>
    obtain ⟨hsettings, hstep⟩ := hstep
    rw [hsettings]
    have hbegin : ∀ op calls, l = .begin op calls → ∀ ks, Covered ks S.processes.state →
        Covered (ks ++ [none]) S.processes.state ∧
          (body S.settings op).wph (initializing S.settings)
          (Pool.Over (initializing S.settings)) none S.processes.state S.processes.state :=
      fun op _ _ ks hks => ⟨⟨hks.1, fun id hid => List.mem_append_left _ (hks.2 id hid)⟩,
        holds_body op _ _ _ ((resting_idle S.settings).resumes _ hks.1)⟩
    obtain ⟨_, _, _, _, -, -, hbalanced⟩ :=
      Pool.step_balanced covered_balance hbegin hS (Pool.step_only hstep hl)
    exact hbalanced
  | restart settings calls =>
    obtain ⟨ks, -, hkeyed, -⟩ := hS
    obtain ⟨hkeyed, hstarting⟩ := restart_starting hstep hkeyed
    obtain ⟨-, hwaiting, -⟩ := hstep
    exact ⟨[], hwaiting ▸ .nil, hkeyed, fun id hid => absurd ((hstarting id).mp hid) (hl id)⟩

/-- **Instances that are starting or warming** are driven to ready or failed in every undisturbed
run. A restart leaves it so just if it finds no such instance. -/
theorem starting_driven {S : Server} (h : serverLts.Reachable Undisturbed S) :
    Attended S ∧ ∀ settings calls S', serverLts.step S (.restart settings calls) S' →
      (Attended S' ↔ ∀ id, ¬ Starting S.processes.state id) := by
  obtain ⟨ks, hks, hkeyed, hcovered⟩ := reachable_covered h
  refine ⟨fun id hid => ?_, fun settings calls S' hstep => ?_⟩
  · obtain ⟨n, hn, hk⟩ := List.mem_iff_getElem.mp (hcovered id hid)
    have hn' : n < S.processes.waiting.length := hks.length_eq ▸ hn
    have hheld : Pool.Held (initializing S.settings) ks[n] S.processes.waiting[n] := hks.get hn hn'
    exact ⟨_, List.getElem_mem hn', hheld.1 id hk⟩
  · have hstarting := (restart_starting hstep hkeyed).2
    obtain ⟨-, hwaiting, -⟩ := hstep
    constructor
    · intro hS' id hid
      obtain ⟨q, hq, -⟩ := hS' id ((hstarting id).mpr hid)
      rw [hwaiting] at hq
      exact absurd hq List.not_mem_nil
    · exact fun hnone id hid => absurd ((hstarting id).mp hid) (hnone id)

/-! ### A restart during an initialization -/

def qwenSettings : LifecycleSettings := settingsFor false (vllmProfile "qwen" 8000)

/-- The answers of an outside world in order, with one GPU. -/
def inOrder : (c : LifecycleCall) → LifecycleState → c.Answer :=
  answersAt (atSecond 1) [⟨"gpu0", 0, 24000⟩]

lemma ordinary_inOrder (c : LifecycleCall) (s : LifecycleState) : Ordinary ⟨c, inOrder c s⟩ := by
  intro x hx
  cases c <;> cases hx

def qwenStarted : Server := ⟨qwenSettings, ⟨⟨.empty, atSecond 0, []⟩, []⟩⟩

/-- The first allocation has started a backend and waits for it. -/
def qwenWaiting : Server :=
  (qwenStarted.begin inOrder (.allocate [("model", .str "qwen")])).resume inOrder 0

lemma run_qwenWaiting {A : Server → ServerStep → Prop}
    (hA : ∀ S l, (∀ e ∈ l.events, ∃ t, e.2 = inOrder e.1 t) → A S (.work l)) :
    serverLts.Reachable A qwenWaiting :=
  Lts.Reachable.run (.init ⟨rfl, rfl, rfl⟩)
    ((Server.run_begin (allowed_answersAt _ _) _ _ fun _ hcalls => hA _ (.begin _ _) hcalls).trans
      (Server.run_resume (allowed_answersAt _ _) _ 0 fun _ _ hcalls =>
        hA _ (.resume _ _) hcalls))

lemma reachable_qwenWaiting : serverLts.Reachable Undisturbed qwenWaiting := by
  refine run_qwenWaiting fun S l hl e he => ?_
  obtain ⟨t, ht⟩ := hl e he
  have hordinary := ordinary_inOrder e.1 t
  rwa [← ht] at hordinary

lemma starting_of_any {s : LifecycleState}
    (h : s.registry.list.any (fun i => i.state = .starting) = true) : ∃ id, Starting s id := by
  obtain ⟨i, hi, hstate⟩ := List.any_eq_true.mp h
  obtain ⟨id, hid⟩ := Dict.mem_values.mp hi
  exact ⟨id, i, hid, Or.inl (by simpa using hstate)⟩

theorem starting_driven_sample : (∃ id, Starting qwenWaiting.processes.state id) ∧
    Attended qwenWaiting :=
  ⟨starting_of_any (by decide +kernel), (starting_driven reachable_qwenWaiting).1⟩

/-- The process restarts while the backend starts, and nothing drives the instance any more. -/
theorem restart_undriven : ∃ S, serverLts.Reachable Lts.anyStep S ∧ ¬ Attended S := by
  refine ⟨qwenWaiting.restart inOrder qwenSettings, ?_, fun h => ?_⟩
  · exact Lts.Reachable.run (run_qwenWaiting fun _ _ _ => trivial)
      (Lts.Run.single trivial (Server.step_restart (allowed_answersAt _ _) _ _))
  · obtain ⟨id, hid⟩ := starting_of_any
      (s := (qwenWaiting.restart inOrder qwenSettings).processes.state)
      (by decide +kernel)
    obtain ⟨q, hq, -⟩ := h id hid
    exact absurd hq List.not_mem_nil

end Orchestrator.Lifecycle
