import Orchestrator.HostPorts
import Orchestrator.InstanceHistory

/-!
Every orderly run has a lawful history.

An operation that waits for an instance to come up holds that instance. The others leave its record
alone, as long as no id is given to an instance while another has it, and no instance is drained but
one that is ready or draining.
-/

namespace Orchestrator.Lifecycle.Lives

open Lib Lib.Coro Clock

variable {α : Type} {settings : LifecycleSettings} {r b : Registry} {id : String}
  {i j k : BackendInstance} {p : Process} {l : List Entry} {s s₀ : LifecycleState}

/-! ### Instances under way -/

/-- The record of the instance is starting or warming. -/
def Underway (i : BackendInstance) (s : LifecycleState) : Prop :=
  ∃ j, s.registry.get? i.instanceId = some j ∧ (j.state = .starting ∨ j.state = .warming) ∧
    Alike i j

/-- Another instance than that of the token. -/
def Apart (i : BackendInstance) (k : Option BackendInstance) : Prop :=
  ∀ j, k = some j → i.instanceId ≠ j.instanceId

lemma apart_none (i : BackendInstance) : Apart i none := fun _ h => by cases h

lemma underway_active (h : j.state = .starting ∨ j.state = .warming) : j.state.isActive = true := by
  rcases h with h | h <;> rw [h] <;> rfl

lemma Underway.set_ne (h : Underway i s) (hid : i.instanceId ≠ id) :
    Underway i (s.change (s.registry.set id j)) := by
  obtain ⟨k, hk, hstate⟩ := h
  exact ⟨k, (Dict.get?_set_ne _ _ hid).trans hk, hstate⟩

/-- No active record has the id. -/
def Idle (r : Registry) (id : String) : Prop := ∀ i, r.get? id = some i → i.state.isActive = false

lemma Underway.ne_of_idle (h : Underway i s) (hid : Idle s.registry id) : i.instanceId ≠ id := by
  rintro rfl
  obtain ⟨k, hk, hstate, -⟩ := h
  exact Bool.false_ne_true ((hid k hk).symm.trans (underway_active hstate))

/-- In an orderly run, a turn that began in `s₀` with the token `k₀` and is now in `s` with `k`
leaves the other instances under way as they are. -/
structure Core (k₀ : Option BackendInstance) (s₀ : LifecycleState) (k : Option BackendInstance)
    (s : LifecycleState) : Prop where
  since : Orderly s₀
  lawful : Lawful s
  settled : ∀ p id, ¬ Launched s.log p id
  others : ∀ i, Underway i s₀ → Apart i k₀ → Underway i s ∧ Apart i k
  own : ∀ i, k = some i → Underway i s

structure Kept (k₀ : Option BackendInstance) (s₀ : LifecycleState) (k : Option BackendInstance)
    (s : LifecycleState) : Prop where
  keyed : Keyed s
  core : Orderly s → Core k₀ s₀ k s

variable {k₀ k₁ k₂ : Option BackendInstance}

lemma lawful_change (h : Lawful s) (hsettled : ∀ p id, ¬ Launched s.log p id)
    (hstep : Step s.registry r s.log) : Lawful (s.change r) := by
  rw [Lawful, LifecycleState.change_log, Throughout.cons]
  refine ⟨⟨fun before hb => ?_, fun p id hl => absurd hl (hsettled p id),
    fun _ _ _ _ hh => by cases hh⟩, h⟩
  cases hb
  exact hstep

lemma lawful_noted (h : Lawful s) (hsettled : ∀ p id, ¬ Launched s.log p id) {note : Note}
    (hchanged : ∀ before, note ≠ .changed before)
    (hhalted : ∀ p id registry ok, note = .halted p id registry ok →
      registry = s.registry ∧ Hosted s.registry p id) :
    Lawful (s.noted note) := by
  rw [Lawful, LifecycleState.noted_log, Throughout.cons, LifecycleState.noted_registry,
    registryBefore_noted hchanged]
  exact ⟨⟨fun before hb => absurd hb (hchanged before), fun p id hl => absurd hl (hsettled p id),
    hhalted⟩, h⟩

lemma not_launched_changed (b : Registry) (t : DateTime) (p : Process) (id : String) :
    ¬ Launched (⟨.changed b, t⟩ :: l) p id := by
  rintro ⟨_, _, h⟩
  cases h

/-- A change that leaves the other instances under way as they are. -/
lemma Core.change (h : Core k₀ s₀ k₁ s) (hstep : Step s.registry r s.log)
    (hothers : ∀ i, Underway i s → Apart i k₁ → Underway i (s.change r) ∧ Apart i k₂)
    (hown : ∀ i, k₂ = some i → Underway i (s.change r)) : Core k₀ s₀ k₂ (s.change r) where
  since := h.since
  lawful := lawful_change h.lawful h.settled hstep
  settled := not_launched_changed _ _
  others i hi hi₀ := hothers i (h.others i hi hi₀).1 (h.others i hi hi₀).2
  own := hown

namespace Kept

lemma tick (h : Kept k₀ s₀ k₁ s) (t : DateTime) : Kept k₀ s₀ k₁ (s.tick t) where
  keyed := h.keyed
  core horderly := { h.core horderly with }

/-- Nothing is held any more. -/
lemma drop (h : Kept k₀ s₀ k₁ s) : Kept k₀ s₀ none s where
  keyed := h.keyed
  core horderly := { h.core horderly with
    others := fun i hi hi₀ => ⟨((h.core horderly).others i hi hi₀).1, apart_none i⟩
    own := fun _ hi => by cases hi }

lemma named (h : Kept k₀ s₀ k₁ s) (horderly : Orderly s) : Named s.registry :=
  (h.core horderly).lawful.named horderly

lemma of_change (hkeyed : Keyed (s.change r))
    (hcore : Proper s.registry r → Orderly s → Core k₀ s₀ k₂ (s.change r)) :
    Kept k₀ s₀ k₂ (s.change r) where
  keyed := hkeyed
  core horderly := hcore (orderly_change.mp horderly).1 (orderly_change.mp horderly).2

/-- A record in the place of another of the same instance, with the same state. -/
lemma replace (h : Kept k₀ s₀ k₁ s) (hi : s.registry.get? id = some i) (hid : j.instanceId = id)
    (hstate : j.state = i.state) (halike : i.backendModel ≠ "" → Alike i j) :
    Kept k₀ s₀ k₁ (s.change (s.registry.set id j)) := by
  refine Kept.of_change (keyed_set h.keyed hid) fun _ horderly => ?_
  have hij : i.state.isActive = true → Alike i j := fun hactive =>
    halike (h.named horderly id i hi hactive).1
  have hunderway : ∀ x, Underway x s → Underway x (s.change (s.registry.set id j)) := by
    intro x hx
    by_cases hne : x.instanceId = id
    · obtain ⟨y, hy, hy', hxy⟩ := hx
      rw [hne, hi] at hy
      obtain rfl := Option.some.inj hy
      refine ⟨j, ?_, hstate ▸ hy', hxy.trans (hij (underway_active hy'))⟩
      rw [hne]
      exact Dict.get?_set_self _ _ _
    · exact hx.set_ne hne
  refine (h.core horderly).change (step_set hi (fun ha => ⟨hij ha, Or.inl (hstate ▸ ha)⟩)
    fun ha => hstate ▸ ha) (fun x hx hk => ⟨hunderway x hx, hk⟩) fun x hx => ?_
  exact hunderway x ((h.core horderly).own x hx)

/-- A record that is not active goes. -/
lemma erase (h : Kept k₀ s₀ k₁ s) (hi : s.registry.get? id = some i)
    (hidle : i.state.isActive = false) : Kept k₀ s₀ k₁ (s.change (s.registry.erase id)) := by
  have hidle : Idle s.registry id := fun j hj => Option.some.inj (hi.symm.trans hj) ▸ hidle
  have hunderway : ∀ x, Underway x s → Underway x (s.change (s.registry.erase id)) := by
    intro x hx
    have hne := hx.ne_of_idle hidle
    obtain ⟨y, hy, hstate⟩ := hx
    exact ⟨y, by rw [LifecycleState.change_registry, Dict.get?_erase, if_neg hne, hy], hstate⟩
  refine Kept.of_change (keyed_erase h.keyed id) fun _ horderly => (h.core horderly).change
    (step_erase hidle) (fun x hx hk => ⟨hunderway x hx, hk⟩) fun x hx => ?_
  exact hunderway x ((h.core horderly).own x hx)

/-- A mark of an active record, which no other operation that waits for an instance holds. -/
lemma mark (h : Kept k₀ s₀ k₁ s) (hi : s.registry.get? id = some i) {state : BackendState}
    {reason : Option String} (hstate : state.isActive = true ∨
      (state = .stopped ∨ state = .failed) ∧ (Orderly s → ∀ p, Hosts i p → Halting id i s.log))
    (hactive : Proper s.registry (s.registry.set id { i with
      state := state, failureReason := reason, updatedAt := nowIso s.clock }) → Orderly s →
        i.state.isActive = true ∧ ∀ x, Underway x s → Apart x k₁ → x.instanceId ≠ id)
    (hk : ∀ x, Apart x k₁ → Apart x k₂)
    (hown : ∀ x, k₂ = some x → Orderly s → Underway x (s.change (s.registry.set id { i with
      state := state, failureReason := reason, updatedAt := nowIso s.clock }))) :
    Kept k₀ s₀ k₂ (s.change (s.registry.set id { i with
      state := state, failureReason := reason, updatedAt := nowIso s.clock })) := by
  refine Kept.of_change (keyed_set h.keyed (h.keyed id i hi)) fun hproper horderly => ?_
  obtain ⟨hiactive, hne⟩ := hactive hproper horderly
  have hstays := hstate.imp_right fun h => And.intro h.1 (h.2 horderly)
  refine (h.core horderly).change (step_set hi (fun _ => ⟨?_, hstays⟩) fun _ => hiactive)
    (fun x hx hxk => ⟨hx.set_ne (hne x hx hxk), hk x hxk⟩) fun x hx => hown x hx horderly
  exact ⟨rfl, rfl, Iff.rfl, rfl, rfl, rfl, rfl⟩

/-- The record of a load that lifecycle did not make. -/
lemma external (h : Kept k₀ s₀ k₁ s) (hj : j.state = .external) (hport : j.hostPort = none) :
    Kept k₀ s₀ k₁ (s.change (s.registry.set j.instanceId j)) := by
  refine Kept.of_change (keyed_set h.keyed rfl) fun hproper horderly => ?_
  have hidle : Idle s.registry j.instanceId := by
    intro i hi
    by_contra hactive
    have hactive : i.state.isActive = true := by simpa using hactive
    have hne := (h.named horderly _ i hi hactive).2
    have hentered : Enters s.registry (s.registry.set j.instanceId j) j.instanceId j := by
      refine ⟨Dict.get?_set_self _ _ _, fun i' hi' heq => ?_⟩
      obtain rfl := Option.some.inj (hi.symm.trans hi')
      exact hne (heq.trans hport)
    exact Bool.false_ne_true ((hproper.entered _ j hentered i hi).symm.trans hactive)
  refine (h.core horderly).change (step_enter hidle fun ha => ?_)
    (fun x hx hk => ⟨hx.set_ne (hx.ne_of_idle hidle), hk⟩) fun x hx => ?_
  · rw [hj] at ha
    cases ha
  · have hunderway := (h.core horderly).own x hx
    exact hunderway.set_ne (hunderway.ne_of_idle hidle)

lemma noted (h : Kept k₀ s₀ k₁ s) {note : Note} (hchanged : ∀ before, note ≠ .changed before)
    (hlaunched : ∀ p id, note ≠ .launched p id)
    (hhalted : Orderly s → ∀ p id registry ok, note = .halted p id registry ok →
      registry = s.registry ∧ Hosted s.registry p id) :
    Kept k₀ s₀ k₁ (s.noted note) where
  keyed := h.keyed
  core horderly := by
    have horderly := (orderly_noted hchanged).mp horderly
    have hcore := h.core horderly
    exact { hcore with
      lawful := lawful_noted hcore.lawful hcore.settled hchanged (hhalted horderly)
      settled := by
        rintro p id ⟨_, _, heq⟩
        exact hlaunched p id (congrArg Entry.note (List.cons.inj heq).1) }

end Kept

/-! ### The start of an instance -/

/-- The stop of the adapter has a command for the process. -/
def Reaches (adapter : RuntimeAdapter) : Process → Prop
  | .container name => adapter = .dockerVllm ∧ name ≠ ""
  | .load _ _ => adapter = .externalOpenAI

def Reached (adapter : RuntimeAdapter) (i : BackendInstance) : Prop :=
  ∀ p, Hosts i p → Reaches adapter p

lemma Reached.alike {adapter : RuntimeAdapter} (h : Reached adapter i) (hij : Alike i j) :
    Reached adapter j := fun p hp => h p (hij.hosts.mp hp)

/-- An instance of which the process, if it has one, has just been launched, and which is yet to be
entered. -/
structure Prepared (adapter : RuntimeAdapter) (k₀ : Option BackendInstance) (s₀ : LifecycleState)
    (i : BackendInstance) (s : LifecycleState) : Prop where
  reached : Reached adapter i
  fresh : ∀ id j, s.registry.get? id = some j → j.hostPort ≠ i.hostPort
  port : i.hostPort ≠ none
  state : i.dryRun = true ∧ i.state = .ready ∨ i.dryRun = false ∧ i.state = .starting
  launched : (∀ p, ¬ Hosts i p) ∧ Kept k₀ s₀ none s ∨
    ∃ t m p, s.log = ⟨.launched p i.instanceId, t⟩ :: m ∧ (∀ q, Hosts i q ↔ q = p) ∧
      Kept k₀ s₀ none { s with log := m }

namespace Prepared

variable {adapter : RuntimeAdapter}

lemma tick (h : Prepared adapter k₀ s₀ i s) (t : DateTime) :
    Prepared adapter k₀ s₀ i (s.tick t) where
  reached := h.reached
  fresh := h.fresh
  port := h.port
  state := h.state
  launched := by
    rcases h.launched with ⟨hnone, hs⟩ | ⟨u, m, p, hlog, hp, hs⟩
    · exact Or.inl ⟨hnone, hs.tick t⟩
    · exact Or.inr ⟨u, m, p, hlog, hp, hs.tick t⟩

lemma alike (h : Prepared adapter k₀ s₀ i s) (hij : Alike i j) (hid : j.instanceId = i.instanceId)
    (hstate : j.state = i.state) : Prepared adapter k₀ s₀ j s where
  reached := h.reached.alike hij
  fresh id k hk := hij.hostPort ▸ h.fresh id k hk
  port := hij.hostPort ▸ h.port
  state := by rw [hij.dryRun, hstate]; exact h.state
  launched := by
    simp only [hij.hosts, hid]
    exact h.launched

lemma keyed (h : Prepared adapter k₀ s₀ i s) : Keyed s := by
  rcases h.launched with ⟨-, hs⟩ | ⟨_, _, _, -, -, hs⟩ <;> exact hs.keyed

/-- **An instance is entered**, and is under way if it is no dry run. -/
theorem enter (h : Prepared adapter k₀ s₀ i s) :
    Kept k₀ s₀ (if i.dryRun then none else some i) (s.change (s.registry.set i.instanceId i)) := by
  refine Kept.of_change (keyed_set h.keyed rfl) fun hproper horderly => ?_
  have hentered : Enters s.registry (s.registry.set i.instanceId i) i.instanceId i :=
    ⟨Dict.get?_set_self _ _ _, h.fresh i.instanceId⟩
  have hidle : Idle s.registry i.instanceId := hproper.entered _ i hentered
  have hactive : i.state.isActive = true := by
    rcases h.state with ⟨-, h⟩ | ⟨-, h⟩ <;> rw [h] <;> rfl
  have hown : ∀ x, (if i.dryRun then none else some i) = some x →
      Underway x (s.change (s.registry.set i.instanceId i)) := by
    intro x hx
    split at hx
    · cases hx
    next hdry =>
    obtain rfl := Option.some.inj hx
    refine ⟨i, Dict.get?_set_self _ _ _, Or.inl ?_, Alike.refl i⟩
    exact (h.state.resolve_left fun hs => hdry hs.1).2
  have hothers : ∀ u, u.registry = s.registry → ∀ x, Underway x u →
      Underway x (s.change (s.registry.set i.instanceId i)) ∧
        Apart x (if i.dryRun then none else some i) := by
    intro u hu x hx
    have hx : Underway x s := by rwa [Underway, hu] at hx
    have hne := hx.ne_of_idle hidle
    refine ⟨hx.set_ne hne, fun y hy => ?_⟩
    split at hy
    · cases hy
    · exact Option.some.inj hy ▸ hne
  rcases h.launched with ⟨hnone, hs⟩ | ⟨t, m, p, hlog, hp, hs⟩
  · refine (hs.core horderly).change (step_enter hidle fun _ => ⟨hentered, h.port, fun p hp => ?_⟩)
      (fun x hx _ => hothers s rfl x hx) hown
    exact absurd hp (hnone p)
  · have horderly : Orderly { s with log := m } := by
      rw [Orderly, EveryChange, hlog, Throughout.cons] at horderly
      exact horderly.2
    have hcore := hs.core horderly
    refine ⟨hcore.since, ?_, not_launched_changed _ _, fun x hx hk => ?_, hown⟩
    · rw [Lawful, LifecycleState.change_log, Throughout.cons]
      refine ⟨⟨fun before hb => ?_, fun q id hl => ⟨⟨_, rfl⟩, ?_⟩,
        fun _ _ _ _ hh => by cases hh⟩, ?_⟩
      · obtain rfl : s.registry = before := Note.changed.inj hb
        refine step_enter hidle fun _ => ⟨hentered, h.port, fun q hq => ?_⟩
        exact (hp q).mp hq ▸ ⟨t, m, hlog⟩
      · obtain ⟨t', m', hl⟩ := hl
        obtain ⟨hnote, -⟩ := Entry.mk.inj (List.cons.inj (hlog.symm.trans hl)).1
        obtain ⟨rfl, rfl⟩ := Note.launched.inj hnote
        exact ⟨i, Dict.get?_set_self _ _ _, hactive, (hp p).mpr rfl⟩
      · show Throughout registryBefore (· = .empty) Told s.registry s.log
        rw [hlog, Throughout.cons]
        exact ⟨⟨(fun _ hb => by cases hb), fun q id hl => absurd hl (hcore.settled q id),
          fun _ _ _ _ hh => by cases hh⟩, hcore.lawful⟩
    · exact hothers _ rfl x (hcore.others x hx hk).1

end Prepared

/-- The end of a start. -/
def Begun (adapter : RuntimeAdapter) (k₀ : Option BackendInstance) (s₀ : LifecycleState) :
    Except Exn BackendInstance → LifecycleState → Prop
  | .ok i, s => Prepared adapter k₀ s₀ i s
  | .error _, s => Kept k₀ s₀ none s

variable {I : LifecycleState → Prop} {port : ℤ} {adapter : RuntimeAdapter}

/-- Nothing is held, and the port is free. -/
def Free (k₀ : Option BackendInstance) (s₀ : LifecycleState) (port : ℤ) (s : LifecycleState) :
    Prop := Kept k₀ s₀ none s ∧ ∀ id j, s.registry.get? id = some j → j.hostPort ≠ some port

lemma free_calm : Calm (fun _ => False) (Free k₀ s₀ port) :=
  ⟨fun _ t hs _ => ⟨hs.1.tick t, hs.2⟩, fun _ _ _ h => h.elim⟩

lemma Free.prepared (h : Free k₀ s₀ port s) (hport : i.hostPort = some port)
    (hstate : i.dryRun = true ∧ i.state = .ready ∨ i.dryRun = false ∧ i.state = .starting)
    (hnone : ∀ p, ¬ Hosts i p) : Prepared adapter k₀ s₀ i s where
  reached p hp := absurd hp (hnone p)
  fresh id j hj := hport ▸ h.2 id j hj
  port := by simp [hport]
  state := hstate
  launched := Or.inl ⟨hnone, h.1⟩

lemma Free.launched (h : Free k₀ s₀ port s) (hport : i.hostPort = some port)
    (hdry : i.dryRun = false) (hstate : i.state = .starting) (hp : ∀ q, Hosts i q ↔ q = p)
    (hid : i.instanceId = id) (hreaches : Reaches adapter p) :
    Prepared adapter k₀ s₀ i (s.noted (.launched p id)) where
  reached q hq := (hp q).mp hq ▸ hreaches
  fresh id j hj := hport ▸ h.2 id j hj
  port := by simp [hport]
  state := Or.inr ⟨hdry, hstate⟩
  launched := Or.inr ⟨s.clock, s.log, p, by rw [hid]; rfl, hp, h.1⟩

lemma triple_newInstance (i : BackendInstance) :
    Triple world I (Prepared adapter k₀ s₀ i) (newInstance i) (Begun adapter k₀ s₀) := by
  refine triple_nowText (fun s t hs _ => hs.tick t) fun created => ?_
  refine Triple.weaken (B := Prepared adapter k₀ s₀ i) ?_ (fun _ hs => hs.1) fun _ _ hs => hs
  refine triple_nowText (fun s t hs _ => hs.tick t) fun updated => Triple.of_done fun s hs => ?_
  exact hs.1.alike ⟨rfl, rfl, Iff.rfl, rfl, rfl, rfl, rfl⟩ rfl rfl

/-- A load that lifecycle has made is that of the command. -/
lemma ticking_externalCommand_loaded {N : Note → Prop} (profile : ModelProfile) (baseUrl : String) :
    Ticking N (externalCommand profile baseUrl) fun loaded => loaded.2 = true →
      profile.runtime = "lmstudio" ∧ loaded.1.headD "lms" = profile.lmsBinary := by
  unfold externalCommand
  split
  next hruntime =>
    dsimp only [maybeLoadLmstudio]
    split
    · exact Ticking.pure fun h => by cases h
    refine Ticking.ask rfl fun r => ?_
    split
    · exact Ticking.pure fun _ => ⟨hruntime, rfl⟩
    · split
      · exact Ticking.pure fun h => by cases h
      · exact Ticking.raise _
    · split
      · exact Ticking.pure fun h => by cases h
      · exact Ticking.raise _
    · exact Ticking.raise _
  · exact Ticking.pure fun h => by cases h

lemma triple_noted {A B : LifecycleState → Prop} {note : Registry → Note} {f : Unit → Service α}
    {T : Except Exn α → LifecycleState → Prop} (hf : Triple world I B (f ()) T)
    (hnote : ∀ s, A s → B (s.noted (note s.registry))) :
    Triple world I A ((noteNow note).after (onOk f)) T :=
  fun s₀ s hs => wpt_get.mpr (wpt_set.mpr (hf s₀ _ (hnote s hs)))

lemma unloadBinary_of_loaded {lmsBinary : String}
    (hi : i.metadata.get "lms_binary" = .str lmsBinary)
    (hcommand : i.runtimeCommand.headD "lms" = lmsBinary) : unloadBinary i = lmsBinary := by
  rw [unloadBinary, hi, hcommand, Json.or, ite_self]
  rfl

lemma containerName_ne_empty (instanceId : String) : containerName instanceId ≠ "" := by
  intro h
  have hempty := String.map_eq_empty.mp h
  simp at hempty

lemma triple_adapterStart (settings : LifecycleSettings) (profile : ModelProfile) (gpuId : String)
    (gpuIndex : ℤ) (instanceId : String) (vram : ℤ) :
    Triple world I (Free k₀ s₀ port) ((adapterFor profile settings.dryRun).start
      settings.dockerBinary profile gpuId gpuIndex port instanceId vram)
      (Begun (adapterFor profile settings.dryRun) k₀ s₀) := by
  cases hadapter : adapterFor profile settings.dryRun with
  | dryRun =>
    refine (triple_newInstance _).weaken (fun s hs => ?_) fun _ _ hs => hs
    refine hs.prepared rfl (Or.inl ⟨rfl, rfl⟩) fun p hp => ?_
    cases p <;> exact Bool.false_ne_true hp.1.symm
  | dockerVllm =>
    have hruntime : profile.runtime ≠ "lmstudio" := by
      intro h
      rw [adapterFor, h] at hadapter
      split at hadapter <;> cases hadapter
    refine (ticking_runCommand _ _ _ free_calm).bind (fun _ => ?_) fun _ _ hs => hs.1.1
    refine triple_noted (triple_newInstance _) fun s hs =>
      hs.1.launched rfl rfl rfl (fun q => ?_) rfl ⟨rfl, containerName_ne_empty instanceId⟩
    cases q with
    | container name => simp [Hosts, eq_comm]
    | load lmsBinary identifier => simp [Hosts, hruntime]
  | externalOpenAI =>
    rw [RuntimeAdapter.start, externalOpenAIStart]
    split
    · exact Triple.of_done fun _ hs => hs.1
    next baseUrl _ =>
    refine (ticking_externalCommand_loaded profile baseUrl _ _ free_calm).bind (fun loaded => ?_)
      fun _ _ hs => hs.1.1
    obtain ⟨command, made⟩ := loaded
    cases made with
    | false =>
      refine Triple.weaken (triple_newInstance _) (fun s hs => ?_) fun _ _ hs => hs
      refine hs.1.prepared rfl (Or.inr ⟨rfl, rfl⟩) fun p hp => ?_
      cases p with
      | container name => cases hp.2
      | load lmsBinary identifier => exact Bool.false_ne_true hp.2.2.1
    | true =>
      dsimp only
      rw [noteLoad, if_pos rfl]
      refine triple_noted (triple_newInstance _) fun s hs => ?_
      obtain ⟨hs, hloaded⟩ := hs
      obtain ⟨hruntime, hhead⟩ := hloaded _ rfl rfl
      refine hs.launched rfl rfl rfl (fun q => ?_) rfl rfl
      cases q with
      | container name => simp [Hosts]
      | load lmsBinary identifier =>
        simp only [Hosts]
        rw [unloadBinary_of_loaded rfl hhead]
        simp [hruntime, Mapping.get_cons, Json.truthy]

lemma kept_still (k₀ k₁ : Option BackendInstance) (s₀ : LifecycleState) :
    Calm (fun _ => False) (Kept k₀ s₀ k₁) := ⟨fun _ t hs _ => hs.tick t, fun _ _ _ h => h.elim⟩

lemma metadata_shape (m : Mapping) (profile : ModelProfile) {key : String} (hkey : key ∈ loadKeys) :
    (m.merge (shapeMetadata profile)).get key = m.get key := by
  refine Mapping.get_merge_of_ne _ _ fun q hq => ?_
  simp only [loadKeys, List.mem_cons, List.not_mem_nil, or_false] at hkey
  simp only [shapeMetadata, List.mem_cons, List.not_mem_nil, or_false] at hq
  rcases hkey with rfl | rfl <;> rcases hq with rfl | rfl | rfl | rfl | rfl | rfl | rfl <;> simp

/-- Metadata that says nothing about how the backend was loaded. -/
lemma alike_metadata {m : Mapping} {t : String}
    (h : ∀ key ∈ loadKeys, m.get key = i.metadata.get key) :
    Alike i { i with metadata := m, updatedAt := t } where
  hostPort := rfl
  backendModel := rfl
  runtime := Iff.rfl
  containerName := rfl
  dryRun := rfl
  unloadBinary := by rw [unloadBinary, unloadBinary, h "lms_binary" (by simp [loadKeys])]
  loaded := h _ (by simp [loadKeys])

lemma triple_startInstance (profile : ModelProfile) (decision : PlacementDecision)
    (gpus : List GpuState) : Triple world I (Kept k₀ s₀ none)
      (startInstance settings profile decision gpus)
      (Begun (adapterFor profile settings.dryRun) k₀ s₀) := by
  dsimp only [startInstance]
  split
  · exact Triple.of_done fun _ hs => hs
  refine (Ticking.nowText _ _ (kept_still k₀ none s₀)).bind (fun _ => Triple.of_get fun u => ?_)
    fun _ _ hs => hs.1
  refine ((triple_adapterStart settings profile _ _ _ _).weaken (fun s hs => ?_)
    fun _ _ hs => hs).bind (fun i => Triple.of_done fun s hs => ?_) fun _ _ hs => hs
  · refine ⟨hs.2.1, fun id j hj hport => ?_⟩
    refine HostPorts.nextHostPort_free u.registry profile.hostPortStart ⟨j, ?_, hport⟩
    rw [← hs.1]
    exact Dict.mem_values_of_get? hj
  · exact Prepared.alike hs (alike_metadata fun key hkey => metadata_shape _ profile hkey) rfl rfl

/-- The result of an entry, which is under way if it is no dry run. -/
def EntryResult (adapter : RuntimeAdapter) (k₀ : Option BackendInstance) (s₀ : LifecycleState) :
    Except Exn BackendInstance → LifecycleState → Prop
  | .ok i, s => Reached adapter i ∧ Kept k₀ s₀ (if i.dryRun then none else some i) s ∧
      (i.dryRun = true → s.registry.get? i.instanceId = some i ∧ i.state = .ready)
  | .error _, s => Kept k₀ s₀ none s

lemma triple_enteredInstance (profile : ModelProfile) (decision : PlacementDecision)
    (gpus : List GpuState) {extra : Mapping} (hextra : Extra extra) :
    Triple world I (Kept k₀ s₀ none) (enteredInstance settings profile decision gpus extra)
      (EntryResult (adapterFor profile settings.dryRun) k₀ s₀) := by
  refine (triple_startInstance profile decision gpus).bind (fun i => ?_) fun _ _ hs => hs
  refine triple_nowText (A := Prepared (adapterFor profile settings.dryRun) k₀ s₀ i)
    (fun s t hs _ => hs.tick t) fun t _ s hs => ?_
  have hprepared := hs.1.alike (alike_metadata (t := nowIso t) fun key hkey =>
    Mapping.get_merge_of_ne i.metadata extra (hextra key (List.mem_cons_of_mem _ hkey))) rfl rfl
  refine wpt_putInstance.mpr
    ⟨hprepared.reached, hprepared.enter, fun hdry => ⟨Dict.get?_set_self _ _ _, ?_⟩⟩
  exact (hprepared.state.resolve_right fun h => Bool.false_ne_true (h.1.symm.trans hdry)).2

/-! ### Stops -/

/-- The instance that is stopped is draining. -/
def Stopping (k₀ : Option BackendInstance) (s₀ : LifecycleState) (i : BackendInstance)
    (s : LifecycleState) : Prop :=
  Kept k₀ s₀ none s ∧ (Orderly s →
    ∃ j, s.registry.get? i.instanceId = some j ∧ j.state = .draining ∧ Alike j i)

lemma not_dryRun_of_adapterFor {profile : ModelProfile} {dry : Bool}
    (h : adapterFor profile (i.dryRun || dry) ≠ .dryRun) : i.dryRun = false := by
  cases hi : i.dryRun with
  | false => rfl
  | true =>
    rw [hi] at h
    exact absurd rfl h

/-- An adapter stops what the instance runs, or has no command for it. -/
lemma triple_adapterStop {A B : LifecycleState → Prop} (i : BackendInstance)
    (profile : ModelProfile) (dry : Bool) (dockerBinary : String)
    (hnote : ∀ s p ok, A s → Hosts i p → B (s.noted (.halted p i.instanceId s.registry ok)))
    (hnone : ∀ s, A s →
      (Reached (adapterFor profile (i.dryRun || dry)) i → ∀ p, ¬ Hosts i p) → B s) :
    Triple world I A ((adapterFor profile (i.dryRun || dry)).stop dockerBinary i)
      fun _ s => B s := by
  have hhalt : ∀ p command, Hosts i p →
      Triple world I A (haltCommand p i command) fun _ s => B s := by
    intro p command hp
    refine Triple.quiet rfl fun r => ?_
    refine Triple.weaken (B := A) ?_ (fun _ hs => hs.1) fun _ _ hs => hs
    cases r <;> exact fun _ s hs => wpt_get.mpr (wpt_set.mpr (wpt_done.mpr (hnote s p _ hs hp)))
  cases hadapter : adapterFor profile (i.dryRun || dry) with
  | dryRun =>
    refine Triple.of_done fun s hs => hnone s hs fun hreached p hp => ?_
    have hreaches := hreached p hp
    rw [hadapter] at hreaches
    cases p with
    | container name => cases hreaches.1
    | load lmsBinary identifier => cases hreaches
  | dockerVllm =>
    have hdry : i.dryRun = false := not_dryRun_of_adapterFor (by rw [hadapter]; decide)
    rw [RuntimeAdapter.stop]
    split
    · next hname =>
      refine Triple.of_done fun s hs => hnone s hs fun hreached p hp => ?_
      have hreaches := hreached p hp
      rw [hadapter] at hreaches
      cases p with
      | container name =>
        rw [hp.2, Option.filter_some, if_pos (by simpa using hreaches.2)] at hname
        cases hname
      | load lmsBinary identifier => cases hreaches
    · next name hname => exact hhalt _ _ ⟨hdry, (Option.filter_eq_some_iff.mp hname).1⟩
  | externalOpenAI =>
    have hdry : i.dryRun = false := not_dryRun_of_adapterFor (by rw [hadapter]; decide)
    have hreaches : ∀ p, Reached (adapterFor profile (i.dryRun || dry)) i → Hosts i p →
        i.runtime = "lmstudio" ∧ (i.metadata.get "lmstudio_loaded_with_lms").truthy = true := by
      intro p hreached hp
      have hreaches := hreached p hp
      rw [hadapter] at hreaches
      cases p with
      | container name => cases hreaches.1
      | load lmsBinary identifier => exact ⟨hp.2.1, hp.2.2.1⟩
    rw [RuntimeAdapter.stop]
    split_ifs with hruntime hloaded
    · exact Triple.of_done fun s hs => hnone s hs fun hreached p hp =>
        hruntime (hreaches p hreached hp).1
    · exact Triple.of_done fun s hs => hnone s hs fun hreached p hp => by
        simp [(hreaches p hreached hp).2] at hloaded
    · exact hhalt _ _ ⟨hdry, not_not.mp hruntime, by simpa using hloaded, rfl, rfl⟩

lemma Stopping.tick (h : Stopping k₀ s₀ i s) (t : DateTime) : Stopping k₀ s₀ i (s.tick t) :=
  ⟨h.1.tick t, h.2⟩

lemma Stopping.noted (h : Stopping k₀ s₀ i s) {note : Note}
    (hchanged : ∀ before, note ≠ .changed before) (hlaunched : ∀ p id, note ≠ .launched p id)
    (hhalted : ∀ p id registry ok, note = .halted p id registry ok →
      registry = s.registry ∧ id = i.instanceId ∧ Hosts i p) : Stopping k₀ s₀ i (s.noted note) := by
  refine ⟨h.1.noted hchanged hlaunched fun horderly p id registry ok hn => ?_,
    fun horderly => h.2 ((orderly_noted hchanged).mp horderly)⟩
  obtain ⟨hregistry, rfl, hp⟩ := hhalted p id registry ok hn
  obtain ⟨j, hj, hstate, hji⟩ := h.2 horderly
  exact ⟨hregistry, j, hj, by rw [hstate]; rfl, hji.hosts.mp hp⟩

/-- No instance under way is draining. -/
lemma Underway.ne_of_state (h : Underway i s) (hj : s.registry.get? id = some j)
    (hstate : j.state ≠ .starting ∧ j.state ≠ .warming) : i.instanceId ≠ id := by
  rintro rfl
  obtain ⟨k, hk, hk', -⟩ := h
  obtain rfl := Option.some.inj (hj.symm.trans hk)
  exact hk'.elim hstate.1 hstate.2

/-- An instance is drained only if it is ready or draining. -/
lemma Kept.drain (h : Kept k₀ s₀ none s) (hi : s.registry.get? id = some i)
    (reason : Option String) : Kept k₀ s₀ none (s.change (s.registry.set id { i with
      state := .draining, failureReason := reason, updatedAt := nowIso s.clock })) := by
  refine h.mark hi (Or.inl rfl) (fun hproper _ => ?_) (fun _ hx => hx) fun _ hx => by cases hx
  obtain ⟨j, hj, hstate⟩ := hproper.drained id _ (Dict.get?_set_self _ _ _) rfl
  obtain rfl := Option.some.inj (hi.symm.trans hj)
  refine ⟨?_, fun x hx _ => hx.ne_of_state hi ?_⟩
  · rcases hstate with hstate | hstate <;> rw [hstate] <;> rfl
  · rcases hstate with hstate | hstate <;> rw [hstate] <;> decide

lemma triple_drain (i : BackendInstance) : Triple world I (fun s => Kept k₀ s₀ none s ∧ StopOf s i)
    (markState i.instanceId .draining) fun x s =>
      (∀ a, x = .ok a → Stopping k₀ s₀ i s) ∧ ∀ e, x = .error e → Kept k₀ s₀ none s := by
  refine triple_change (f := fun j t => { j with state := .draining, updatedAt := t })
    (fun s t hs _ => ⟨hs.1.tick t, hs.2.current, hs.2.unleased⟩) (fun s j hs hj => ?_)
    fun s hs _ => ⟨(fun _ h => by cases h), fun _ _ => hs.1⟩
  refine ⟨fun _ _ => ⟨hs.1.drain hj j.failureReason, fun horderly => ?_⟩, fun _ h => by cases h⟩
  obtain ⟨hproper, horderly⟩ := orderly_change.mp horderly
  obtain ⟨k, hk, hstate⟩ := hproper.drained _ _ (Dict.get?_set_self _ _ _) rfl
  obtain rfl := Option.some.inj (hj.symm.trans hk)
  obtain ⟨record, hrecord, hreshaped⟩ := hs.2.current
  obtain rfl := Option.some.inj (hj.symm.trans hrecord)
  have hactive : j.state.isActive = true := by
    rcases hstate with hstate | hstate <;> rw [hstate] <;> rfl
  have halike := Alike.of_reshaped hreshaped (hs.1.named horderly _ j hj hactive).1
  exact ⟨_, Dict.get?_set_self _ _ _, rfl, halike.of_marked⟩

/-- The stop of the instance was called. -/
def Ending (k₀ : Option BackendInstance) (s₀ : LifecycleState) (i : BackendInstance)
    (s : LifecycleState) : Prop :=
  Stopping k₀ s₀ i s ∧ Halting i.instanceId i s.log

/-- The end of a stop. -/
lemma triple_leave {f : BackendInstance → String → BackendInstance}
    (hf : ∀ j t, ∃ state reason, (state = .stopped ∨ state = .failed) ∧
      f j t = { j with state := state, failureReason := reason, updatedAt := t }) :
    Triple world I (Ending k₀ s₀ i) ((getInstance i.instanceId).after <| onOk fun j =>
      nowText.after (onOk fun t => putInstance i.instanceId (f j t))) fun x s =>
        (∀ a, x = .ok a → Kept k₀ s₀ none s) ∧ ∀ e, x = .error e → Ending k₀ s₀ i s := by
  refine triple_change (fun s t hs _ => ⟨hs.1.tick t, hs.2⟩) (fun s j hs hj => ?_)
    fun s hs _ => ⟨(fun _ h => by cases h), fun _ _ => hs⟩
  refine ⟨fun _ _ => ?_, fun _ h => by cases h⟩
  obtain ⟨state, reason, hstate, hfj⟩ := hf j (nowIso s.clock)
  rw [hfj]
  obtain ⟨⟨hs, hrecord⟩, hhalting⟩ := hs
  have hdraining : Orderly s → j.state = .draining ∧ Alike j i := by
    intro horderly
    obtain ⟨k, hk, hdraining, hki⟩ := hrecord horderly
    obtain rfl := Option.some.inj (hj.symm.trans hk)
    exact ⟨hdraining, hki⟩
  refine hs.mark hj (Or.inr ⟨hstate, fun horderly p _ => ?_⟩) (fun _ horderly => ?_)
    (fun _ hx => hx) fun _ hx => by cases hx
  · exact hhalting.of_hosts fun p hp => (hdraining horderly).2.hosts.mp hp
  · have hdraining := (hdraining horderly).1
    refine ⟨by rw [hdraining]; rfl, fun x hx _ => hx.ne_of_state hj ?_⟩
    rw [hdraining]
    decide

lemma stopKeeps (k₀ : Option BackendInstance) (s₀ : LifecycleState) :
    StopKeeps settings (Kept k₀ s₀ none) := by
  intro profile i
  have hfailed : ∀ e : Exn, Triple world (fun _ => False) (Ending k₀ s₀ i)
      (markFailed i.instanceId e.name) fun _ s => Kept k₀ s₀ none s := fun e =>
    (triple_leave (f := fun j t => { j with
      state := .failed, failureReason := some e.name, updatedAt := t })
      fun j t => ⟨.failed, some e.name, Or.inr rfl, rfl⟩).weaken (fun _ hs => hs) fun x s hs => by
        cases x with
        | ok a => exact hs.1 a rfl
        | error e => exact (hs.2 e rfl).1.1
  refine (triple_drain i).bind (fun a => ?_) fun e s hs => hs.2 e rfl
  refine Triple.weaken (B := Stopping k₀ s₀ i) ?_ (fun s hs => hs.1 a rfl) fun _ _ hs => hs
  refine triple_noted (B := Ending k₀ s₀ i) ?_ fun s hs => ⟨?_, Or.inr ⟨i, _, _, _, rfl, rfl⟩⟩
  rotate_left
  · exact hs.noted (fun _ h => by cases h) (fun _ _ h => by cases h) fun _ _ _ _ h => by cases h
  refine Triple.seq (M := fun x s => (∀ a, x = .ok a → Kept k₀ s₀ none s) ∧
    ∀ e, x = .error e → Ending k₀ s₀ i s) ?_ fun x => ?_
  · refine (triple_adapterStop (B := Ending k₀ s₀ i) i profile _ _ (fun s p ok hs hp => ?_)
      fun _ hs _ => hs).bind (fun _ => ?_) fun e s hs => ⟨(fun _ h => by cases h), fun _ _ => hs⟩
    · refine ⟨hs.1.noted (fun _ h => by cases h) (fun _ _ h => by cases h)
        fun q id registry ok' h => ?_, Or.inl ⟨p, _, _, _, _, hp, rfl⟩⟩
      obtain ⟨rfl, rfl, rfl, -⟩ := Note.halted.inj h
      exact ⟨rfl, rfl, hp⟩
    · exact triple_leave (f := fun j t => { j with state := .stopped, updatedAt := t })
        fun j t => ⟨.stopped, j.failureReason, Or.inl rfl, rfl⟩
  cases x with
  | ok a => exact Triple.of_done fun s hs => hs.1 a rfl
  | error e =>
    show Triple world _ _ (if e.isException then Lifecycle.markFailed i.instanceId e.name
      else raise e) _
    split
    · exact (hfailed e).weaken (fun s hs => hs.2 e rfl) fun _ _ hs => hs
    · exact Triple.of_done fun s hs => (hs.2 e rfl).1.1

/-! ### Operations -/

/-- An operation that waits for an instance holds it. -/
def awaiting :
    Holding LifecycleState LifecycleCall LifecycleCall.Answer Exn (Option BackendInstance) where
  toWorld := world
  marks _ _ _ := True
  marks_after _ _ _ _ _ _ := trivial
  own := Kept
  resumes k s := Kept k s k s
  idle := none

lemma resting (k : Option BackendInstance) : Resting awaiting k fun k₀ s₀ s => Kept k₀ s₀ k s where
  suspends := rfl
  allowed _ _ _ h := h
  marks _ _ := trivial
  own _ _ _ hs := hs
  resumes _ hs := hs
  calm k₀ s₀ := kept_still k₀ k s₀

/-- The record of an instance that is under way. -/
lemma Kept.underway (h : Kept k₀ s₀ (some i) s) (hj : s.registry.get? i.instanceId = some j)
    (horderly : Orderly s) : (j.state = .starting ∨ j.state = .warming) ∧ Alike i j := by
  obtain ⟨k, hk, hstate, hik⟩ := (h.core horderly).own i rfl
  obtain rfl := Option.some.inj (hj.symm.trans hk)
  exact ⟨hstate, hik⟩

/-- The last mark of an instance that was under way. -/
lemma Kept.conclude (h : Kept k₀ s₀ (some i) s) (hj : s.registry.get? i.instanceId = some j)
    {state : BackendState} {reason : Option String}
    (hstate : state = .ready ∨ state = .failed ∧ ∀ p, Hosts i p → Halting i.instanceId i s.log) :
    Kept k₀ s₀ none (s.change (s.registry.set i.instanceId { j with
      state := state, failureReason := reason, updatedAt := nowIso s.clock })) := by
  refine h.mark hj ?_ (fun _ horderly => ⟨underway_active (h.underway hj horderly).1,
    fun x _ hx => hx i rfl⟩) (fun x _ => apart_none x) fun _ hx => by cases hx
  rcases hstate with rfl | ⟨rfl, hhalting⟩
  · exact Or.inl rfl
  · refine Or.inr ⟨Or.inr rfl, fun horderly p hp => ?_⟩
    have hosts := fun q => (h.underway hj horderly).2.hosts (p := q)
    exact (hhalting p ((hosts p).mp hp)).of_hosts fun q hq => (hosts q).mpr hq

/-- The initialization has failed, and its instance was stopped if it runs a process. -/
def Failing (k₀ : Option BackendInstance) (s₀ : LifecycleState) (i : BackendInstance)
    (s : LifecycleState) : Prop :=
  Kept k₀ s₀ (some i) s ∧ ∀ p, Hosts i p → Halting i.instanceId i s.log

/-- **An initialization** keeps its instance under way to its end. -/
theorem holds_initialization (profile : ModelProfile) (hi : i.dryRun = false)
    (hreached : Reached (adapterFor profile settings.dryRun) i) :
    Holds awaiting (fun k₀ s₀ s => Kept k₀ s₀ (some i) s) (initializeInstance settings profile i)
      fun _ k₀ s₀ s => Kept k₀ s₀ none s := by
  have hB := resting (some i)
  refine holds_initialized (F := fun k₀ s₀ s => Failing k₀ s₀ i s) hB hB.own profile hi
    (fun k₀ s₀ => ⟨fun s t hs _ => hs.tick t, ?_⟩) ?_ ?_ (fun reason => ?_)
    (fun _ _ _ hs => hs.1) fun _ _ _ _ _ hs => hs.drop
  · rintro s j state reason hs hj rfl
    refine hs.mark hj (Or.inl rfl) (fun _ horderly => ⟨underway_active (hs.underway hj horderly).1,
      fun x _ hx => hx i rfl⟩) (fun _ hx => hx) fun x hx horderly => ?_
    obtain rfl := Option.some.inj hx
    have halike := (hs.underway hj horderly).2
    exact ⟨_, Dict.get?_set_self _ _ _, Or.inr rfl, halike.hostPort, halike.backendModel,
      halike.runtime, halike.containerName, halike.dryRun, halike.unloadBinary, halike.loaded⟩
  · refine hB.of_triple fun k₀ s₀ => triple_adapterStop (B := Failing k₀ s₀ i) i profile _ _
      (fun s p ok hs hp => ⟨?_, fun _ _ => Or.inl ⟨p, _, _, _, _, hp, rfl⟩⟩)
      fun s hs hnone => ⟨hs, fun p hp => ?_⟩
    · refine hs.noted (fun _ h => by cases h) (fun _ _ h => by cases h)
        fun horderly q id registry ok' h => ?_
      obtain ⟨rfl, rfl, rfl, -⟩ := Note.halted.inj h
      obtain ⟨j, hj, hstate, hij⟩ := (hs.core horderly).own i rfl
      exact ⟨rfl, j, hj, underway_active hstate, hij.hosts.mpr hp⟩
    · rw [hi, Bool.false_or] at hnone
      exact absurd hp (hnone hreached p)
  · refine hB.of_triple fun k₀ s₀ => ?_
    refine triple_change (f := fun j t => { j with state := .ready, updatedAt := t })
      (fun s t hs _ => hs.tick t) (fun s j hs hj => ⟨fun _ _ => ?_, fun _ h => by cases h⟩)
      fun s hs _ => ⟨(fun _ h => by cases h), fun _ _ => hs⟩
    exact hs.conclude hj (Or.inl rfl)
  · refine Holds.of_triple (W := world) rfl (fun _ _ _ h => h) fun k₀ s₀ => ?_
    refine triple_change (f := fun j t => { j with
      state := .failed, failureReason := some reason, updatedAt := t })
      (fun s t hs _ => ⟨hs.1.tick t, hs.2⟩) (fun s j hs hj => ?_) fun s hs _ => hs.1.drop
    exact hs.1.conclude hj (Or.inr ⟨rfl, hs.2⟩)

/-- A dry run is ready when it is entered. -/
lemma triple_initializeDry (profile : ModelProfile) (hi : i.dryRun = true) : Triple world I
    (fun s => Kept k₀ s₀ none s ∧ s.registry.get? i.instanceId = some i ∧ i.state = .ready)
    (initializeInstance settings profile i) fun _ s => Kept k₀ s₀ none s := by
  unfold initializeInstance
  rw [if_pos hi]
  refine triple_change (f := fun j t => { j with state := .ready, updatedAt := t })
    (fun s t hs _ => ⟨hs.1.tick t, hs.2⟩) (fun s j hs hj => ?_) fun _ hs _ => hs.1
  obtain ⟨hs, hentry, hready⟩ := hs
  obtain rfl := Option.some.inj (hj.symm.trans hentry)
  refine hs.mark hj (Or.inl rfl) (fun _ _ => ⟨by rw [hready]; rfl, fun x hx _ => ?_⟩)
    (fun _ hx => hx) fun _ hx => by cases hx
  refine hx.ne_of_state hj ?_
  rw [hready]
  decide

lemma holds_started (profile : ModelProfile) (decision : PlacementDecision) (gpus : List GpuState)
    {extra : Mapping} (hextra : Extra extra) :
    Holds awaiting (fun k₀ s₀ s => Kept k₀ s₀ none s)
      (startedInstance settings profile decision gpus extra)
      fun _ k₀ s₀ s => Kept k₀ s₀ none s := by
  have hidle := resting none
  rw [startedInstance, ← after_onOk_assoc]
  refine Holds.bind
    (M := fun x k₀ s₀ s => EntryResult (adapterFor profile settings.dryRun) k₀ s₀ x s) ?_
    (fun i => ?_) fun _ _ _ _ hs => hs
  · exact hidle.of_triple fun k₀ s₀ => triple_enteredInstance profile decision gpus hextra
  cases hi : i.dryRun with
  | true =>
    refine Holds.of_triple (W := world) rfl (fun _ _ _ h => h) fun k₀ s₀ =>
      (triple_initializeDry profile hi).weaken (fun s hs => ?_) fun _ _ hs => hs
    obtain ⟨-, hs, hentry⟩ := hs
    rw [hi, if_pos rfl] at hs
    exact ⟨hs, hentry hi⟩
  | false =>
    rintro k₀ s₀ s ⟨hreached, hs, -⟩
    rw [hi, if_neg Bool.false_ne_true] at hs
    exact holds_initialization profile hi hreached k₀ s₀ s hs

lemma syncKeeps (k₀ : Option BackendInstance) (s₀ : LifecycleState) :
    SyncKeeps settings (Kept k₀ s₀ none) where
  calm := kept_still k₀ none s₀
  keyed _ hs := hs.keyed
  change s s' hs h := by
    cases h with
    | @reshape i j hi hj =>
      exact hs.replace (hj.instanceId ▸ hi) rfl hj.state fun hne => Alike.of_reshaped hj hne
    | remove hi hstate => exact hs.erase hi (by rw [hstate]; rfl)
    | @enter i hi =>
      exact hs.external (j := { i with updatedAt := nowIso s.clock }) hi.state hi.hostPort

lemma purgeKeeps (k₀ : Option BackendInstance) (s₀ : LifecycleState) :
    PurgeKeeps (Kept k₀ s₀ none) where
  calm := kept_still k₀ none s₀
  keyed _ hs := hs.keyed
  remove s i hs hi hstale := by
    refine hs.erase hi ?_
    rcases hstale.2 with hstate | hstate <;> rw [hstate] <;> rfl

lemma leaseKeeps (k₀ : Option BackendInstance) (s₀ : LifecycleState) :
    LeaseKeeps (Kept k₀ s₀ none) where
  tick s t hs _ := hs.tick t
  adjust s id i delta hs hi _ := hs.replace hi (hs.keyed id i hi) rfl fun _ =>
    ⟨rfl, rfl, Iff.rfl, rfl, rfl, rfl, rfl⟩
  release s id i delta hs hi _ := by
    have hadjusted := hs.replace (j := adjusted i delta s.clock) hi (hs.keyed id i hi) rfl fun _ =>
      ⟨rfl, rfl, Iff.rfl, rfl, rfl, rfl, rfl⟩
    exact hadjusted.noted (fun _ h => by cases h) (fun _ _ h => by cases h)
      fun _ _ _ _ _ h => by cases h

lemma holds_body (op : Operation) : Holds awaiting (fun k₀ s₀ s => Kept k₀ s₀ none s)
    (body settings op) fun _ k₀ s₀ s => Kept k₀ s₀ none s := by
  have hidle := resting none
  have hG : Configures settings fun _ => True := fun _ _ _ _ => trivial
  have B := hidle.blocks hG syncKeeps purgeKeeps
    (fun k₀ s₀ => (stopKeeps k₀ s₀).idle (kept_still k₀ none s₀) (fun _ hs => hs.keyed)
      fun s _ _ hs => hs.noted (fun _ h => by cases h) (fun _ _ h => by cases h)
        fun _ _ _ _ _ h => by cases h)
    (fun k₀ s₀ id => ⟨fun s t hs _ => hs.tick t, fun s i state reason hs hi h => by
      subst h
      exact hs.drain hi reason⟩) stopKeeps
    fun profile decision gpus extra _ hextra =>
      Within.of_holds (holds_started profile decision gpus hextra)
  refine (B.body (fun id delta => Within.of_holds ?_) fun _ _ _ _ _ _ _ => trivial).holds
  exact hidle.of_triple fun k₀ s₀ => triple_adjustActiveRequests (leaseKeeps k₀ s₀) id delta

/-! ### Runs -/

/-- The history is lawful, and every process that was launched is that of a record. -/
def Honest (s : LifecycleState) : Prop := Lawful s ∧ ∀ p id, ¬ Launched s.log p id

/-- The instances that are held are under way, and distinct. -/
structure Attended (ks : List (Option BackendInstance)) (s : LifecycleState) : Prop where
  keyed : Keyed s
  honest : Orderly s → Honest s
  underway : Orderly s → ∀ i, some i ∈ ks → Underway i s
  distinct : Orderly s → ks.Pairwise fun k k' => ∀ i, k = some i → Apart i k'

lemma attended_perm {ks ls : List (Option BackendInstance)} (h : ks.Perm ls) (hs : Attended ks s) :
    Attended ls s where
  keyed := hs.keyed
  honest := hs.honest
  underway horderly i hi := hs.underway horderly i (h.mem_iff.mpr hi)
  distinct horderly := (h.pairwise_iff fun hk i hi j hj => (hk j hj i hi).symm).mp
    (hs.distinct horderly)

lemma Attended.own {ks : List (Option BackendInstance)} {s t : LifecycleState}
    (hs : Attended (k₀ :: ks) s) (h : Kept k₀ s k₁ t) : Attended (k₁ :: ks) t where
  keyed := h.keyed
  honest horderly := ⟨(h.core horderly).lawful, (h.core horderly).settled⟩
  underway horderly i hi := by
    have hcore := h.core horderly
    rcases List.mem_cons.mp hi with hi | hi
    · exact hcore.own i hi.symm
    · have hunderway := hs.underway hcore.since i (List.mem_cons_of_mem _ hi)
      refine (hcore.others i hunderway fun j hj => ?_).1
      exact ((List.pairwise_cons.mp (hs.distinct hcore.since)).1 _ hi j hj i rfl).symm
  distinct horderly := by
    have hcore := h.core horderly
    have hpairs := List.pairwise_cons.mp (hs.distinct hcore.since)
    refine List.pairwise_cons.mpr ⟨fun k hk i hi j hj => ?_, hpairs.2⟩
    subst hj
    have hunderway := hs.underway hcore.since j (List.mem_cons_of_mem _ hk)
    exact ((hcore.others j hunderway fun x hx => (hpairs.1 _ hk x hx j rfl).symm).2 i hi).symm

lemma attended_balance : Pool.Balance awaiting Attended where
  resume ks k ls s h := by
    have h := attended_perm List.perm_middle h
    refine ⟨h.keyed, fun horderly => ?_⟩
    obtain ⟨hlawful, hsettled⟩ := h.honest horderly
    exact ⟨horderly, hlawful, hsettled, fun i hi hk => ⟨hi, hk⟩,
      fun i hi => h.underway horderly i (hi ▸ List.mem_cons_self)⟩
  own ks k₀ k ls s t h hown :=
    attended_perm List.perm_middle.symm ((attended_perm List.perm_middle h).own hown)
  drop ks ls s h := by
    have h := attended_perm List.perm_middle h
    exact ⟨h.keyed, h.honest,
      fun horderly i hi => h.underway horderly i (List.mem_cons_of_mem _ hi),
      fun horderly => (List.pairwise_cons.mp (h.distinct horderly)).2⟩

lemma loadKeeps : LoadKeeps fun s => Keyed s ∧ (Orderly s → Honest s) where
  calm := ⟨fun _ _ hs _ => hs, fun _ _ _ h => h.elim⟩
  keyed _ hs := hs.1
  load s r hs hr := by
    refine ⟨fun id j hj => ?_, fun horderly => ?_⟩
    · obtain ⟨i, hi, hij⟩ := hr.of_some hj
      exact hij.instanceId.trans (hs.1 id i hi)
    · obtain ⟨-, horderly⟩ := orderly_change.mp horderly
      obtain ⟨hlawful, hsettled⟩ := hs.2 horderly
      exact ⟨lawful_change hlawful hsettled (step_reloaded (hlawful.named horderly) hr),
        not_launched_changed _ _⟩

lemma reachable_attended {S : Server} (h : serverLts.Reachable Lts.anyStep S) :
    Pool.Balanced awaiting Attended S.processes := by
  refine h.invariant (I := fun S => Pool.Balanced awaiting Attended S.processes)
    (fun S hS => ?_) fun S l S' hS _ hstep => ?_
  · obtain ⟨hregistry, hlog, hwaiting⟩ := hS
    refine ⟨[], hwaiting ▸ .nil, fun id i hi => ?_, fun _ => ⟨?_, ?_⟩, fun _ i hi => ?_,
      fun _ => .nil⟩
    · rw [hregistry] at hi
      cases hi
    · rwa [Lawful, hlog]
    · rintro p id ⟨_, _, hl⟩
      rw [hlog] at hl
      cases hl
    · exact absurd hi List.not_mem_nil
  cases l with
  | work l =>
    obtain ⟨hsettings, hstep⟩ := hstep
    have hbegin : ∀ op calls, l = .begin op calls → ∀ ks, Attended ks S.processes.state →
        Attended (ks ++ [none]) S.processes.state ∧ (body S.settings op).wph awaiting
          (Pool.Over awaiting) none S.processes.state S.processes.state := by
      intro op _ _ ks hks
      have hstart : Attended (none :: ks) S.processes.state :=
        ⟨hks.keyed, hks.honest, fun horderly i hi => hks.underway horderly i (by simpa using hi),
          fun horderly => List.pairwise_cons.mpr
            ⟨(fun _ _ _ h => by cases h), hks.distinct horderly⟩⟩
      refine ⟨attended_perm (List.perm_append_singleton _ _).symm hstart,
        holds_body op _ _ _ ⟨hks.keyed, fun horderly => ?_⟩⟩
      exact ⟨horderly, (hks.honest horderly).1, (hks.honest horderly).2,
        fun i hi hk => ⟨hi, hk⟩, fun _ h => by cases h⟩
    obtain ⟨_, _, _, _, -, -, hbalanced⟩ := Pool.step_balanced attended_balance hbegin hS hstep
    exact hbalanced
  | restart settings calls =>
    obtain ⟨ks, -, hks⟩ := hS
    obtain ⟨hkeyed, hhonest⟩ := restart_keeps loadKeeps hstep ⟨hks.keyed, hks.honest⟩
    obtain ⟨-, hwaiting, -⟩ := hstep
    exact ⟨[], hwaiting ▸ .nil, hkeyed, hhonest, fun _ i hi => absurd hi List.not_mem_nil,
      fun _ => .nil⟩

/-- **The history of an orderly run** is lawful, over all its operations and restarts. -/
theorem reachable_honest {S : Server} (h : serverLts.Reachable Lts.anyStep S)
    (horderly : Orderly S.processes.state) : Honest S.processes.state := by
  obtain ⟨_, -, hattended⟩ := reachable_attended h
  exact hattended.honest horderly

/-! ### Runs of an operation to its end -/

/-- The answers at a time, where LM Studio has the model and commands end so. -/
def answersOf (model : String) (ran : Except RunError Unit) (second : Fin 1000)
    (gpus : List GpuState) (c : LifecycleCall) (s : LifecycleState) : c.Answer :=
  match c with
  | .getModels _ => .ok [model]
  | .run _ => ran
  | c => answersAt (atSecond second) gpus c s

lemma allowed_answersOf (model : String) (ran : Except RunError Unit) (second : Fin 1000)
    (gpus : List GpuState) (c : LifecycleCall) (s : LifecycleState) :
    world.allowed c (answersOf model ran second gpus c s) s := by
  cases c with
  | now => exact allowed_answersAt (atSecond second) gpus .now s
  | _ => trivial

variable {o : (c : LifecycleCall) → LifecycleState → c.Answer}

/-- An operation begins, and is resumed as often. -/
def complete (o : (c : LifecycleCall) → LifecycleState → c.Answer) (S : Server) (op : Operation)
    (turns : ℕ) : Server := (fun S => S.resume o 0)^[turns] (S.begin o op)

lemma run_complete (ho : ∀ c s, world.allowed c (o c s) s) (S : Server) (op : Operation)
    (turns : ℕ) : serverLts.Run Lts.anyStep S (complete o S op turns) := by
  induction turns with
  | zero => exact Server.run_begin ho S op fun _ _ => trivial
  | succ n ih =>
    rw [complete, Function.iterate_succ_apply']
    exact ih.trans (Server.run_resume ho _ 0 fun _ _ _ => trivial)

end Orchestrator.Lifecycle.Lives
