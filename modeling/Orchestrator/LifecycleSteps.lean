import Orchestrator.AllocationService

/-!
What the operations of lifecycle can do to its state: readings of the clock, notes about processes
and six changes of the registry. What all of these keep, every operation keeps between its
suspensions.
-/

namespace Orchestrator.Lifecycle

open Lib Lib.Coro Clock

def LifecycleState.tick (s : LifecycleState) (t : DateTime) : LifecycleState :=
  { s with clock := t }

@[simp] lemma LifecycleState.tick_registry (s : LifecycleState) (t : DateTime) :
    (s.tick t).registry = s.registry := rfl
@[simp] lemma LifecycleState.tick_clock (s : LifecycleState) (t : DateTime) :
    (s.tick t).clock = t := rfl
@[simp] lemma LifecycleState.tick_log (s : LifecycleState) (t : DateTime) :
    (s.tick t).log = s.log := rfl
@[simp] lemma LifecycleState.change_registry (s : LifecycleState) (r : Registry) :
    (s.change r).registry = r := rfl
@[simp] lemma LifecycleState.change_clock (s : LifecycleState) (r : Registry) :
    (s.change r).clock = s.clock := rfl
@[simp] lemma LifecycleState.change_log (s : LifecycleState) (r : Registry) :
    (s.change r).log = ⟨.changed s.registry, s.clock⟩ :: s.log := rfl
@[simp] lemma LifecycleState.noted_registry (s : LifecycleState) (note : Note) :
    (s.noted note).registry = s.registry := rfl
@[simp] lemma LifecycleState.noted_clock (s : LifecycleState) (note : Note) :
    (s.noted note).clock = s.clock := rfl
@[simp] lemma LifecycleState.noted_log (s : LifecycleState) (note : Note) :
    (s.noted note).log = ⟨note, s.clock⟩ :: s.log := rfl

/-! ### The changes -/

/-- A record with the counter of its requests adjusted. -/
def adjusted (i : BackendInstance) (delta : ℤ) (t : DateTime) : BackendInstance :=
  { i with
    activeRequests := max 0 (i.activeRequests + delta)
    updatedAt := nowIso t
    lastUsedAt := if 0 < delta then some (nowIso t) else i.lastUsedAt }

/-- The record is that of an instance that has just been made. -/
def Fresh (i : BackendInstance) : Prop := i.activeRequests = 0 ∧ i.lastUsedAt = none

/-- The keys of the metadata that the shape of a load is written to. -/
def shapeKeys : List String :=
  ["live_lmstudio_load", "live_lmstudio_reconciled_at", "lmstudio_identifier", "lmstudio_ownership",
    "lms_context_length", "lms_parallel", "lms_gpu", "lms_ttl_seconds"]

/-- The record has the shape of a load and is the same otherwise. -/
structure Reshaped (i j : BackendInstance) : Prop where
  instanceId : j.instanceId = i.instanceId
  model : j.model = i.model
  backendModel : i.backendModel ≠ "" → j.backendModel = i.backendModel
  backendModel_empty : i.backendModel = "" → j.backendModel = "" ∨ j.backendModel = i.model
  runtime : i.runtime ≠ "" → j.runtime = i.runtime
  runtime_empty : i.runtime = "" → j.runtime = "" ∨ j.runtime = "external"
  state : j.state = i.state
  gpuIds : j.gpuIds = i.gpuIds
  reservedVramMb : j.reservedVramMb = i.reservedVramMb
  hostPort : j.hostPort = i.hostPort
  containerName : j.containerName = i.containerName
  runtimeCommand : j.runtimeCommand = i.runtimeCommand
  activeRequests : j.activeRequests = i.activeRequests
  lastUsedAt : j.lastUsedAt = i.lastUsedAt
  createdAt : j.createdAt = i.createdAt ∨ i.createdAt = ""
  updatedAt : j.updatedAt = i.updatedAt ∨ i.updatedAt = ""
  dryRun : j.dryRun = i.dryRun
  metadata : ∀ key, key ∉ shapeKeys → j.metadata.get key = i.metadata.get key

/-- The note is about the processes of the backends. -/
def Note.AboutProcess : Note → Prop
  | .launched _ _ | .halted _ _ _ _ => True
  | .changed _ | .released _ | .idleStop _ _ | .stopping _ _ => False

inductive Change (s : LifecycleState) : LifecycleState → Prop
  | tick {t : DateTime} (h : s.clock ≤ t) : Change s (s.tick t)
  | note {note : Note} (h : note.AboutProcess) : Change s (s.noted note)
  | mark {id : String} {i : BackendInstance} (state : BackendState) (reason : Option String)
      (h : s.registry.get? id = some i) :
      Change s (s.change (s.registry.set id
        { i with state := state, failureReason := reason, updatedAt := nowIso s.clock }))
  | adjust {id : String} {i : BackendInstance} {delta : ℤ} (h : s.registry.get? id = some i)
      (hheld : ¬ (delta < 0 ∧ 0 < i.activeRequests)) :
      Change s (s.change (s.registry.set id (adjusted i delta s.clock)))
  | release {id : String} {i : BackendInstance} {delta : ℤ} (h : s.registry.get? id = some i)
      (hheld : delta < 0 ∧ 0 < i.activeRequests) :
      Change s ((s.change (s.registry.set id (adjusted i delta s.clock))).noted (.released id))
  | enter {i : BackendInstance} (h : Fresh i) :
      Change s (s.change (s.registry.set i.instanceId { i with updatedAt := nowIso s.clock }))
  | reshape {i j : BackendInstance} (h : s.registry.get? i.instanceId = some i)
      (hj : Reshaped i j) : Change s (s.change (s.registry.set j.instanceId j))
  | remove (id : String) : Change s (s.change (s.registry.erase id))

/-- Every record is under its own id. -/
def Keyed (s : LifecycleState) : Prop :=
  ∀ id i, s.registry.get? id = some i → i.instanceId = id

/-- What every change keeps. -/
structure Closed (I : LifecycleState → Prop) : Prop where
  keyed : ∀ s, I s → Keyed s
  change : ∀ s s', I s → Change s s' → I s'

/-- What readings of the clock and notes in `N` keep. -/
structure Calm (N : Note → Prop) (A : LifecycleState → Prop) : Prop where
  tick : ∀ s t, A s → s.clock ≤ t → A (s.tick t)
  note : ∀ s note, A s → N note → A (s.noted note)

/-- What marks of the record under the id with the states in `L` keep. -/
structure Marked (id : String) (L : BackendState → Prop) (A : LifecycleState → Prop) : Prop where
  tick : ∀ s t, A s → s.clock ≤ t → A (s.tick t)
  mark : ∀ s i state reason, A s → s.registry.get? id = some i → L state →
    A (s.change (s.registry.set id
      { i with state := state, failureReason := reason, updatedAt := nowIso s.clock }))

variable {α β : Type} {I A : LifecycleState → Prop}

lemma Marked.mono {id : String} {L M : BackendState → Prop} (h : Marked id L A)
    (hLM : ∀ state, M state → L state) : Marked id M A where
  tick := h.tick
  mark s i state reason hs hi hM := h.mark s i state reason hs hi (hLM state hM)

lemma Closed.tick (hI : Closed I) (s : LifecycleState) (t : DateTime) (hs : I s)
    (ht : s.clock ≤ t) : I (s.tick t) := hI.change s _ hs (.tick ht)

lemma Closed.calm (hI : Closed I) : Calm Note.AboutProcess I where
  tick := hI.tick
  note s _ hs h := hI.change s _ hs (.note h)

lemma Closed.marked (hI : Closed I) (id : String) (L : BackendState → Prop) : Marked id L I where
  tick := hI.tick
  mark s _ state reason hs h _ := hI.change s _ hs (.mark state reason h)

/-! ### Computations that change nothing -/

/-- `p` makes only calls that do not suspend and leaves the registry alone, up to notes in `N`; its
normal results are in `G`. -/
def Ticking (N : Note → Prop) (p : Service α) (G : α → Prop) : Prop :=
  ∀ I A : LifecycleState → Prop, Calm N A →
    Triple world I A p fun x s => A s ∧ ∀ a, x = .ok a → G a

variable {N : Note → Prop}

namespace Ticking

variable {G : α → Prop} {H : β → Prop}

lemma pure {a : α} (h : G a) : Ticking N (pure a) G :=
  fun _ _ _ => Triple.of_done fun _ hs => ⟨hs, fun _ ha => Except.ok.inj ha ▸ h⟩

lemma raise (e : Exn) : Ticking N (Coro.raise e : Service α) G :=
  fun _ _ _ => Triple.of_done fun _ hs => ⟨hs, nofun⟩

lemma lift {x : Except Exn α} (h : ∀ a, x = .ok a → G a) : Ticking N (Coro.lift x) G :=
  fun _ _ _ => Triple.of_done fun _ hs => ⟨hs, h⟩

lemma mono {p : Service α} {G' : α → Prop} (h : Ticking N p G) (hG : ∀ a, G a → G' a) :
    Ticking N p G' :=
  fun I A hA => (h I A hA).weaken (fun _ hs => hs) fun _ _ hx =>
    ⟨hx.1, fun a ha => hG a (hx.2 a ha)⟩

lemma seq {p : Service α} {k : Except Exn α → Service β} (h : Ticking N p G)
    (hk : ∀ x, (∀ a, x = .ok a → G a) → Ticking N (k x) H) : Ticking N (p.after k) H := by
  intro I A hA
  refine (h I A hA).seq fun x s₀ s hs => ?_
  exact hk x hs.2 I A hA s₀ s hs.1

lemma bind {p : Service α} {k : α → Service β} (h : Ticking N p G)
    (hk : ∀ a, G a → Ticking N (k a) H) : Ticking N (p.after (onOk k)) H := by
  refine h.seq fun x hx => ?_
  cases x with
  | ok a => exact hk a (hx a rfl)
  | error e => exact raise e

lemma get {f : LifecycleState → Service α} (h : ∀ s, Ticking N (f s) G) :
    Ticking N (Coro.get f) G :=
  fun I A hA s₀ s hs => wpt_get.mpr (h s I A hA s₀ s hs)

lemma ask {c : LifecycleCall} (hc : c.suspends = false) {f : c.Answer → Service α}
    (h : ∀ r, Ticking N (f r) G) : Ticking N (.call c f) G :=
  fun I A hA => Triple.quiet hc fun r => (h r I A hA).weaken (fun _ hs => hs.1) fun _ _ hx => hx

lemma now : Ticking N now fun _ => True := by
  intro I A hA
  refine Triple.quiet rfl fun t s₀ s hs => ?_
  exact wpt_get.mpr (wpt_set.mpr (wpt_done.mpr ⟨hA.tick s t hs.1 hs.2, fun _ _ => trivial⟩))

lemma noteNow {note : Registry → Note} (h : ∀ r, N (note r)) :
    Ticking N (noteNow note) fun _ => True := by
  intro I A hA s₀ s hs
  exact wpt_get.mpr (wpt_set.mpr (wpt_done.mpr ⟨hA.note s _ hs (h _), fun _ _ => trivial⟩))

lemma nowText : Ticking N nowText fun _ => True := now.bind fun _ _ => pure trivial

lemma mapEach {f : α → Service β} (h : ∀ a, Ticking N (f a) H) (l : List α) :
    Ticking N (Coro.mapEach f l) fun bs => ∀ b ∈ bs, H b := by
  induction l with
  | nil => exact pure (by simp)
  | cons a l ih =>
    refine (h a).bind fun b hb => ih.bind fun bs hbs => pure ?_
    rw [List.forall_mem_cons]
    exact ⟨hb, hbs⟩

lemma exceptException {p : Service α} {handler : Exn → Service α} (hp : Ticking N p G)
    (hh : ∀ e, Ticking N (handler e) G) : Ticking N (exceptException p handler) G := by
  refine hp.seq fun x hx => ?_
  cases x with
  | ok a => exact pure (hx a rfl)
  | error e =>
    by_cases he : e.isException
    · simpa [he] using hh e
    · simpa [he] using raise e

/-- The results of a loop are related to the elements of the list. -/
lemma mapEach₂ {f : α → Service β} {R : α → β → Prop} (h : ∀ a, Ticking N (f a) (R a))
    (l : List α) : Ticking N (Coro.mapEach f l) (List.Forall₂ R l) := by
  induction l with
  | nil => exact pure .nil
  | cons a l ih => exact (h a).bind fun b hb => ih.bind fun bs hbs => pure (.cons hb hbs)

lemma suppressException {p : Service Unit} (h : Ticking N p fun _ => True) :
    Ticking N (suppressException p) fun _ => True := h.exceptException fun _ => pure trivial

/-- What the clock keeps. -/
lemma keeps {p : Service α} (h : Ticking Note.AboutProcess p G) (hI : Closed I) :
    Keeps world I p G :=
  h I I hI.calm

end Ticking

/-! ### The registry operations -/

lemma triple_now {k : DateTime → Service α} {T : Except Exn α → LifecycleState → Prop}
    (hA : ∀ s t, A s → s.clock ≤ t → A (s.tick t))
    (hk : ∀ t, Triple world I (fun s => A s ∧ s.clock = t) (k t) T) :
    Triple world I A (now.after (onOk k)) T := by
  refine Triple.quiet rfl fun t s₀ s hs => ?_
  exact wpt_get.mpr (wpt_set.mpr (hk t s₀ (s.tick t) ⟨hA s t hs.1 hs.2, rfl⟩))

lemma triple_nowText {k : String → Service α} {T : Except Exn α → LifecycleState → Prop}
    (hA : ∀ s t, A s → s.clock ≤ t → A (s.tick t))
    (hk : ∀ t, Triple world I (fun s => A s ∧ s.clock = t) (k (nowIso t)) T) :
    Triple world I A (nowText.after (onOk k)) T := triple_now hA hk

lemma triple_getInstance {id : String} {k : BackendInstance → Service α}
    {T : Except Exn α → LifecycleState → Prop}
    (hk : ∀ i, Triple world I (fun s => A s ∧ s.registry.get? id = some i) (k i) T)
    (he : ∀ s, A s → s.registry.get? id = none → T (.error (.keyError id)) s) :
    Triple world I A ((getInstance id).after (onOk k)) T := by
  refine Triple.of_get fun u s₀ s hs => ?_
  obtain ⟨rfl, hs⟩ := hs
  cases h : s.registry.get? id with
  | none =>
    simp only [h]
    exact wpt_done.mpr (he s hs h)
  | some i =>
    simp only [h]
    exact hk i s₀ s ⟨hs, h⟩

lemma wpt_putInstance {D : Discipline LifecycleState LifecycleCall LifecycleCall.Answer}
    {id : String} {i : BackendInstance}
    {Q : Except Exn BackendInstance → LifecycleState → LifecycleState → Prop}
    {s₀ s : LifecycleState} :
    (putInstance id i).wpt D Q s₀ s ↔ Q (.ok i) s₀ (s.change (s.registry.set id i)) := by
  rw [putInstance, wpt_get, wpt_set, pure_eq, wpt_done]

/-- A record that is read, and changed after a reading of the clock. -/
lemma triple_change {id : String} {f : BackendInstance → String → BackendInstance}
    {T : Except Exn BackendInstance → LifecycleState → Prop}
    (hA : ∀ s t, A s → s.clock ≤ t → A (s.tick t))
    (hf : ∀ s i, A s → s.registry.get? id = some i →
      T (.ok (f i (nowIso s.clock))) (s.change (s.registry.set id (f i (nowIso s.clock)))))
    (he : ∀ s, A s → s.registry.get? id = none → T (.error (.keyError id)) s) :
    Triple world I A ((getInstance id).after <| onOk fun i =>
      nowText.after (onOk fun t => putInstance id (f i t))) T := by
  refine triple_getInstance (fun i => ?_) he
  refine triple_nowText (fun s t hs ht => ⟨hA s t hs.1 ht, hs.2⟩) fun t s₀ s hs => ?_
  obtain ⟨⟨hs, hi⟩, rfl⟩ := hs
  have hchange := hf s i hs hi
  exact wpt_putInstance.mpr hchange

variable {L : BackendState → Prop}

lemma triple_markState {id : String} (hA : Marked id L A) {state : BackendState} (hL : L state) :
    Triple world I A (markState id state) fun _ s => A s :=
  triple_change (f := fun i t => { i with state := state, updatedAt := t }) hA.tick
    (fun s i hs hi => hA.mark s i state i.failureReason hs hi hL) fun _ hs _ => hs

lemma triple_markFailed {id : String} (hA : Marked id L A) (reason : String) (hL : L .failed) :
    Triple world I A (markFailed id reason) fun _ s => A s :=
  triple_change (f := fun i t => { i with
      state := .failed, failureReason := some reason, updatedAt := t }) hA.tick
    (fun s i hs hi => hA.mark s i .failed (some reason) hs hi hL) fun _ hs _ => hs

lemma keeps_of_triple {p : Service α} (h : Triple world I I p fun _ s => I s) :
    Keeps world I p fun _ => True := h.weaken (fun _ hs => hs) fun _ _ hs =>
      ⟨hs, fun _ _ => trivial⟩

/-- What leases and releases keep. -/
structure LeaseKeeps (A : LifecycleState → Prop) : Prop where
  tick : ∀ s t, A s → s.clock ≤ t → A (s.tick t)
  adjust : ∀ s id i delta, A s → s.registry.get? id = some i →
    ¬ (delta < 0 ∧ 0 < i.activeRequests) →
    A (s.change (s.registry.set id (adjusted i delta s.clock)))
  release : ∀ s id i delta, A s → s.registry.get? id = some i → delta < 0 ∧ 0 < i.activeRequests →
    A ((s.change (s.registry.set id (adjusted i delta s.clock))).noted (.released id))

lemma Closed.leaseKeeps (hI : Closed I) : LeaseKeeps I where
  tick := hI.tick
  adjust s _ _ _ hs hi hheld := hI.change s _ hs (.adjust hi hheld)
  release s _ _ _ hs hi hheld := hI.change s _ hs (.release hi hheld)

lemma triple_adjustActiveRequests (hA : LeaseKeeps A) (id : String) (delta : ℤ) :
    Triple world I A (adjustActiveRequests id delta) fun _ s => A s := by
  refine triple_getInstance (fun i => ?_) fun _ hs _ => hs
  refine triple_nowText (fun s t hs ht => ⟨hA.tick s t hs.1 ht, hs.2⟩) fun t s₀ s hs => ?_
  obtain ⟨⟨hs, hi⟩, rfl⟩ := hs
  by_cases hheld : delta < 0 ∧ 0 < i.activeRequests
  · have hrelease := hA.release s id i delta hs hi hheld
    rw [adjusted] at hrelease
    simp only [putInstance, noteRelease, pure_eq, after_get, wpt_get, after_set, wpt_set,
      after_done,
      onOk_ok, wpt_done, Bool.and_eq_true, decide_eq_true_eq, if_pos hheld]
    exact hrelease
  · have hadjust := hA.adjust s id i delta hs hi hheld
    rw [adjusted] at hadjust
    simp only [putInstance, noteRelease, pure_eq, after_get, wpt_get, after_set, wpt_set,
      after_done,
      onOk_ok, wpt_done, Bool.and_eq_true, decide_eq_true_eq, if_neg hheld]
    exact hadjust

/-! ### One instance -/

lemma ticking_runCommand (command : List String) :
    Ticking N (runCommand command) fun _ => True := by
  refine Ticking.ask rfl fun r => ?_
  cases r with
  | ok _ => exact Ticking.pure trivial
  | error e => exact Ticking.raise _

lemma ticking_haltCommand (process : Process) (i : BackendInstance) (command : List String) :
    Ticking Note.AboutProcess (haltCommand process i command) fun _ => True :=
  (ticking_runCommand command).seq fun x _ =>
    (Ticking.noteNow fun _ => by trivial).bind fun _ _ => Ticking.lift fun _ _ => trivial

lemma ticking_stop (adapter : RuntimeAdapter) (dockerBinary : String) (i : BackendInstance) :
    Ticking Note.AboutProcess (adapter.stop dockerBinary i) fun _ => True := by
  cases adapter with
  | dryRun => exact Ticking.pure trivial
  | dockerVllm =>
    rw [RuntimeAdapter.stop]
    split
    · exact Ticking.pure trivial
    · exact ticking_haltCommand _ _ _
  | externalOpenAI =>
    rw [RuntimeAdapter.stop]
    split_ifs
    · exact Ticking.pure trivial
    · exact Ticking.pure trivial
    · exact ticking_haltCommand _ _ _

/-- The record that an adapter makes for the profile. -/
structure AdapterMade (profile : ModelProfile) (i : BackendInstance) : Prop where
  fresh : Fresh i
  model : i.model = profile.publicName
  backendModel : i.backendModel = profile.backendModel
  runtime : i.runtime = profile.runtime
  createdAt : ∃ t, i.createdAt = nowIso t

/-- The record of an instance that has been started for the profile. -/
structure Made (profile : ModelProfile) (i : BackendInstance) : Prop
    extends AdapterMade profile i where
  idleTtl : i.metadata.get "idle_ttl_seconds" = .int profile.idleTtlSeconds

lemma ticking_newInstance {profile : ModelProfile} {i : BackendInstance} (hi : Fresh i)
    (hmodel : i.model = profile.publicName) (hbackend : i.backendModel = profile.backendModel)
    (hruntime : i.runtime = profile.runtime) :
    Ticking N (newInstance i) fun j => AdapterMade profile j ∧ j.hostPort = i.hostPort :=
  Ticking.now.bind fun t _ => Ticking.nowText.bind fun _ _ =>
    Ticking.pure ⟨⟨hi, hmodel, hbackend, hruntime, t, rfl⟩, rfl⟩

lemma ticking_maybeLoadLmstudio (profile : ModelProfile) :
    Ticking N (maybeLoadLmstudio profile) fun _ => True := by
  dsimp only [maybeLoadLmstudio]
  split
  · exact Ticking.pure trivial
  refine Ticking.ask rfl fun r => ?_
  split
  · exact Ticking.pure trivial
  · split
    · exact Ticking.pure trivial
    · exact Ticking.raise _
  · split
    · exact Ticking.pure trivial
    · exact Ticking.raise _
  · exact Ticking.raise _

lemma ticking_externalCommand (profile : ModelProfile) (baseUrl : String) :
    Ticking N (externalCommand profile baseUrl) fun _ => True := by
  unfold externalCommand
  split
  · exact ticking_maybeLoadLmstudio profile
  · exact Ticking.pure trivial

lemma ticking_noteLoad (profile : ModelProfile) (instanceId : String) (loaded : Bool) :
    Ticking Note.AboutProcess (noteLoad profile instanceId loaded) fun _ => True := by
  unfold noteLoad
  split
  · exact Ticking.noteNow fun _ => by trivial
  · exact Ticking.pure trivial

lemma ticking_start (adapter : RuntimeAdapter) (dockerBinary : String) (profile : ModelProfile)
    (gpuId : String) (gpuIndex hostPort : ℤ) (instanceId : String) (reservedVramMb : ℤ) :
    Ticking Note.AboutProcess (adapter.start dockerBinary profile gpuId gpuIndex hostPort instanceId
      reservedVramMb)
      fun i => AdapterMade profile i ∧ i.hostPort = some hostPort := by
  cases adapter with
  | dryRun => exact ticking_newInstance ⟨rfl, rfl⟩ rfl rfl rfl
  | dockerVllm =>
    exact (ticking_runCommand _).bind fun _ _ =>
      (Ticking.noteNow fun _ => by trivial).bind fun _ _ =>
      ticking_newInstance ⟨rfl, rfl⟩ rfl rfl rfl
  | externalOpenAI =>
    rw [RuntimeAdapter.start, externalOpenAIStart]
    split
    · exact Ticking.raise _
    · exact (ticking_externalCommand _ _).bind fun _ _ => (ticking_noteLoad _ _ _).bind fun _ _ =>
        ticking_newInstance ⟨rfl, rfl⟩ rfl rfl rfl

variable (settings : LifecycleSettings)

lemma ticking_startInstance (profile : ModelProfile) (decision : PlacementDecision)
    (gpus : List GpuState) :
    Ticking Note.AboutProcess (startInstance settings profile decision gpus)
      (Made profile) := by
  dsimp only [startInstance]
  split
  · exact Ticking.raise _
  · refine Ticking.nowText.bind fun _ _ => Ticking.get fun s => ?_
    refine (ticking_start _ _ _ _ _ _ _ _).bind fun _ hi => Ticking.pure { hi.1 with idleTtl := ?_ }
    simp [Mapping.merge, shapeMetadata, Mapping.get, Mapping.lookup_set]

lemma triple_exceptException {p : Service α} {handler : Exn → Service α}
    (hp : Triple world I A p fun _ s => A s)
    (hh : ∀ e, Triple world I A (handler e) fun _ s => A s) :
    Triple world I A (exceptException p handler) fun _ s => A s := by
  refine hp.seq fun x => ?_
  cases x with
  | ok a => exact Triple.of_done fun _ hs => hs
  | error e =>
    show Triple world I A (if e.isException then handler e else Coro.raise e) fun _ s => A s
    split
    · exact hh e
    · exact Triple.of_done fun _ hs => hs

/-- The note of the stop of `i` keeps `A`. -/
def NotesStop (A : LifecycleState → Prop) (i : BackendInstance) : Prop :=
  ∀ s, A s → A (s.noted (.stopping i s.registry))

/-- The states of an instance from its stop on. -/
def Leaving : BackendState → Prop
  | .draining | .stopped | .failed => True
  | .starting | .warming | .ready | .stopping | .external => False

lemma triple_stop (hA : Calm Note.AboutProcess A) (adapter : RuntimeAdapter) (dockerBinary : String)
    (i : BackendInstance) : Triple world I A (adapter.stop dockerBinary i) fun _ s => A s :=
  (ticking_stop adapter dockerBinary i I A hA).weaken (fun _ hs => hs) fun _ _ hs => hs.1

lemma triple_stopInstance {i : BackendInstance} (hA : Marked i.instanceId Leaving A)
    (profile : ModelProfile) (hnote : NotesStop A i)
    (hstop : Triple world I A ((adapterFor profile (i.dryRun || settings.dryRun)).stop
      settings.dockerBinary i) fun _ s => A s) :
    Triple world I A (stopInstance settings profile i) fun _ s => A s := by
  refine (triple_markState hA (by trivial)).bind (fun _ => ?_) fun _ _ hs => hs
  refine Triple.bind (M := fun _ s => A s) (fun s₀ s hs => ?_) (fun _ => ?_) fun _ _ hs => hs
  · exact wpt_get.mpr (wpt_set.mpr (wpt_done.mpr (hnote s hs)))
  refine triple_exceptException ?_ fun e => triple_markFailed hA _ (by trivial)
  exact hstop.bind (fun _ => triple_markState hA (by trivial)) fun _ _ hs => hs

/-- A stop leaves the other records alone. -/
lemma triple_stopElsewhere (profile : ModelProfile) (i : BackendInstance) {l : List BackendInstance}
    (hl : i.instanceId ∉ l.map BackendInstance.instanceId) :
    Triple world I (fun s => ∀ j ∈ l, s.registry.get? j.instanceId = some j)
      (stopInstance settings profile i) fun _ s => ∀ j ∈ l,
        s.registry.get? j.instanceId = some j := by
  refine triple_stopInstance settings ⟨fun _ _ hs _ => hs, fun s k state reason hs _ _ j hj => ?_⟩
    profile (fun _ hs => hs) (triple_stop ⟨fun _ _ hs _ => hs, fun _ _ hs _ => hs⟩ _ _ _)
  have hne : j.instanceId ≠ i.instanceId := fun h => hl (h ▸ List.mem_map_of_mem hj)
  exact (Dict.get?_set_ne _ _ hne).trans (hs j hj)

/-! ### Live loads -/

lemma Reshaped.refl (i : BackendInstance) : Reshaped i i :=
  ⟨rfl, rfl, fun _ => rfl, Or.inl, fun _ => rfl, Or.inl, rfl, rfl, rfl, rfl, rfl, rfl, rfl, rfl,
    Or.inl rfl, Or.inl rfl, rfl, fun _ _ => rfl⟩

lemma ticking_stampOr (text : String) : Ticking N (stampOr text) fun t => t = text ∨ text = "" := by
  unfold stampOr
  split
  · next h => exact Ticking.nowText.mono fun _ _ => Or.inr h
  · exact Ticking.pure (Or.inl rfl)

lemma ticking_copied (i : BackendInstance) : Ticking N (copied i) (Reshaped i) := by
  refine (ticking_stampOr _).bind fun _ hc => (ticking_stampOr _).bind fun _ hu => Ticking.pure ?_
  exact { Reshaped.refl i with
    backendModel := fun h => if_neg h
    backendModel_empty := fun h => Or.inr (if_pos h)
    runtime := fun h => if_neg h
    runtime_empty := fun h => Or.inr (if_pos h)
    createdAt := hc
    updatedAt := hu }

lemma get_setSome_ne (m : Mapping) {key other : String} (value : Option Json) (h : other ≠ key) :
    (setSome m key value).get other = m.get other := by
  cases value with
  | none => rfl
  | some value => rw [setSome, Mapping.get, Mapping.lookup_set, if_neg h, Mapping.get]

lemma loadMetadata_get (m : Mapping) (load : LmStudioLoad) (reconciledAt : String) {key : String}
    (h : key ∉ shapeKeys) : (loadMetadata m load reconciledAt).get key = m.get key := by
  simp only [shapeKeys, List.mem_cons, List.not_mem_nil, or_false, not_or] at h
  obtain ⟨h1, h2, h3, h4, h5, h6, h7, h8⟩ := h
  have hset : ∀ (m : Mapping) (k : String) (value : Json), key ≠ k →
    (m.set k value).get key = m.get key :=
    fun m k value hne => get_setSome_ne m (some value) hne
  dsimp only [loadMetadata]
  rw [get_setSome_ne _ _ h8, get_setSome_ne _ _ h7, get_setSome_ne _ _ h6, get_setSome_ne _ _ h5,
    hset _ _ _ h4, hset _ _ _ h3, hset _ _ _ h2, hset _ _ _ h1]

lemma ticking_instanceWithLmstudioLoad (i : BackendInstance) (load : LmStudioLoad) :
    Ticking N (instanceWithLmstudioLoad i load) (Reshaped i) :=
  (ticking_copied i).bind fun _ hj => Ticking.nowText.bind fun _ _ => Ticking.pure
    { hj with metadata := fun _ h => (loadMetadata_get _ _ _ h).trans (hj.metadata _ h) }

lemma ticking_instanceWithLiveLmstudioShape (profile : ModelProfile) (i : BackendInstance) :
    Ticking N (instanceWithLiveLmstudioShape profile i) (Reshaped i) := by
  dsimp only [instanceWithLiveLmstudioShape]
  split
  · exact Ticking.pure (Reshaped.refl i)
  refine Ticking.bind (G := fun _ => True)
    (Ticking.ask rfl fun _ => Ticking.pure trivial) fun o _ => ?_
  cases o with
  | none => exact Ticking.pure (Reshaped.refl i)
  | some load => exact ticking_instanceWithLmstudioLoad i load

/-- The records of a list are those of the registry, each once. -/
def Current (l : List BackendInstance) (s : LifecycleState) : Prop :=
  (l.map BackendInstance.instanceId).Nodup ∧ ∀ i ∈ l, s.registry.get? i.instanceId = some i

lemma current_list {s : LifecycleState} (h : Keyed s) : Current s.registry.list s := by
  have hkeys : s.registry.list.map BackendInstance.instanceId = s.registry.keys := by
    rw [Registry.list, Dict.values, Dict.keys, List.map_map]
    exact List.map_congr_left fun p hp => h p.1 p.2 (Dict.get?_eq_some.mpr hp)
  refine ⟨hkeys ▸ s.registry.keys_nodup, fun i hi => ?_⟩
  obtain ⟨id, hid⟩ := Dict.mem_values.mp hi
  rw [h id i hid, hid]

lemma Current.tail {i : BackendInstance} {l : List BackendInstance} {s : LifecycleState}
    (h : Current (i :: l) s) : Current l s := by
  refine ⟨?_, fun j hj => h.2 j (List.mem_cons_of_mem _ hj)⟩
  have hnodup := h.1
  rw [List.map_cons, List.nodup_cons] at hnodup
  exact hnodup.2

lemma Current.head {i : BackendInstance} {l : List BackendInstance} {s : LifecycleState}
    (h : Current (i :: l) s) : i.instanceId ∉ l.map BackendInstance.instanceId := by
  have hnodup := h.1
  rw [List.map_cons, List.nodup_cons] at hnodup
  exact hnodup.1

/-- A change of the first record of the list leaves the rest current. -/
lemma Current.rest {i : BackendInstance} {l : List BackendInstance} {s s' : LifecycleState}
    (h : Current (i :: l) s)
    (hs : ∀ id, id ≠ i.instanceId → s'.registry.get? id = s.registry.get? id) : Current l s' := by
  refine ⟨h.tail.1, fun j hj => ?_⟩
  have hne : j.instanceId ≠ i.instanceId :=
    fun hc => h.head (hc ▸ List.mem_map.mpr ⟨j, hj, rfl⟩)
  rw [hs _ hne]
  exact h.tail.2 j hj

/-- The record of a load that lifecycle did not make. -/
structure External (settings : LifecycleSettings) (i : BackendInstance) : Prop where
  fresh : Fresh i
  state : i.state = .external
  runtime : i.runtime = "lmstudio"
  hostPort : i.hostPort = none
  loadedWithLms : i.metadata.get "lmstudio_loaded_with_lms" = .bool false
  idleTtl : i.metadata.get "idle_ttl_seconds" = .null
  backendModel : ∃ profile ∈ settings.profiles.list, profile.backendModel ≠ "" →
    i.backendModel = profile.backendModel
  named : ∃ profile ∈ settings.profiles.list, i.model = profile.publicName ∧
    (i.backendModel = profile.backendModel ∨ profile.backendModel = "" ∧ i.backendModel = i.model)
  createdAt : ∃ t, i.createdAt = nowIso t
  instanceId : ∃ text, i.instanceId = "external-lmstudio-" ++ stableId (settings.sha256 text) text

inductive SyncChange (settings : LifecycleSettings) (s : LifecycleState) : LifecycleState → Prop
  | reshape {i j : BackendInstance} (h : s.registry.get? i.instanceId = some i)
      (hj : Reshaped i j) :
      SyncChange settings s (s.change (s.registry.set j.instanceId j))
  | remove {i : BackendInstance} (h : s.registry.get? i.instanceId = some i)
      (hi : i.state = .external) :
      SyncChange settings s (s.change (s.registry.erase i.instanceId))
  | enter {i : BackendInstance} (hi : External settings i) : SyncChange settings s
      (s.change (s.registry.set i.instanceId { i with updatedAt := nowIso s.clock }))

/-- What the synchronization with LM Studio keeps. -/
structure SyncKeeps (settings : LifecycleSettings) (A : LifecycleState → Prop) : Prop where
  calm : Calm (fun _ => False) A
  keyed : ∀ s, A s → Keyed s
  change : ∀ s s', A s → SyncChange settings s s' → A s'

lemma Closed.syncKeeps (hI : Closed I) : SyncKeeps settings I where
  calm := ⟨hI.tick, fun _ _ _ h => h.elim⟩
  keyed := hI.keyed
  change s s' hs h := by
    cases h with
    | reshape h hj => exact hI.change s _ hs (.reshape h hj)
    | remove h hi => exact hI.change s _ hs (.remove _)
    | enter hi => exact hI.change s _ hs (.enter hi.fresh)

variable {settings}

lemma calm_current {l : List BackendInstance} (hA : SyncKeeps settings A) :
    Calm (fun _ => False) fun s => A s ∧ Current l s where
  tick s t h ht := ⟨hA.calm.tick s t h.1 ht, h.2⟩
  note _ _ _ hn := hn.elim

lemma triple_syncRecords (hA : SyncKeeps settings A) (profile : ModelProfile)
    (loads : List LmStudioLoad) (l : List BackendInstance) :
    Triple world I (fun s => A s ∧ Current l s) (syncRecords profile loads l) fun _ s => A s := by
  induction l with
  | nil => exact Triple.of_done fun _ hs => hs.1
  | cons i rest ih =>
    have hskip : Triple world I (fun s => A s ∧ Current (i :: rest) s)
        (syncRecords profile loads rest) fun _ s => A s :=
      ih.weaken (fun _ hs => ⟨hs.1, hs.2.tail⟩) fun _ _ hs => hs
    unfold syncRecords
    split
    · exact hskip
    split
    · split
      · next hext =>
        intro s₀ s hs
        have hi := hs.2.2 i List.mem_cons_self
        refine wpt_get.mpr (wpt_set.mpr (ih s₀ _
          ⟨hA.change s _ hs.1 (.remove hi hext), hs.2.rest fun id hne => ?_⟩))
        exact (Dict.get?_erase _ _ _).trans (if_neg hne)
      · exact hskip
    · next load _ =>
      refine (ticking_instanceWithLmstudioLoad i load I _ (calm_current hA)).bind (fun j => ?_)
        fun _ _ hs => hs.1.1
      refine Triple.seq (M := fun _ s => A s ∧ Current rest s) ?_ fun x => ?_
      · intro s₀ s hs
        obtain ⟨⟨hs, hcur⟩, hj⟩ := hs
        have hj := hj j rfl
        refine wpt_putInstance.mpr
          ⟨hA.change s _ hs (.reshape (hcur.2 i List.mem_cons_self) hj), hcur.rest fun id hne => ?_⟩
        exact Dict.get?_set_ne _ _ (hj.instanceId ▸ hne)
      · cases x with
        | ok _ => exact ih.bind (fun _ => Triple.of_done fun _ hs => hs) fun _ _ hs => hs
        | error _ => exact Triple.of_done fun _ hs => hs.1

lemma ticking_externalLmstudioInstance {profile : ModelProfile}
    (hprofile : profile ∈ settings.profiles.list) (load : LmStudioLoad) :
    Ticking N (externalLmstudioInstance settings profile load) (External settings) := by
  refine Ticking.bind (G := External settings) ?_ fun i hi => ?_
  · exact Ticking.now.bind fun t _ => Ticking.nowText.bind fun _ _ =>
      Ticking.pure ⟨⟨rfl, rfl⟩, rfl, rfl, rfl, rfl, rfl, ⟨profile, hprofile, fun _ => rfl⟩,
        ⟨profile, hprofile, rfl, Or.inl rfl⟩, ⟨t, rfl⟩, load.identifier, rfl⟩
  · refine (ticking_instanceWithLmstudioLoad i load).mono fun j hj => ?_
    exact {
      fresh := ⟨hj.activeRequests.trans hi.fresh.1, hj.lastUsedAt.trans hi.fresh.2⟩
      state := hj.state.trans hi.state
      runtime := (hj.runtime (by rw [hi.runtime]; decide)).trans hi.runtime
      hostPort := hj.hostPort.trans hi.hostPort
      loadedWithLms := (hj.metadata _ (by decide)).trans hi.loadedWithLms
      idleTtl := (hj.metadata _ (by decide)).trans hi.idleTtl
      backendModel := by
        obtain ⟨p, hp, hname⟩ := hi.backendModel
        refine ⟨p, hp, fun h => ?_⟩
        rw [hj.backendModel (hname h ▸ h), hname h]
      named := by
        obtain ⟨p, hp, hmodel, hname⟩ := hi.named
        refine ⟨p, hp, hj.model.trans hmodel, ?_⟩
        by_cases hempty : i.backendModel = ""
        · rcases hname with hname | ⟨hp, -⟩
          · exact (hj.backendModel_empty hempty).imp (fun h => h.trans (hempty.symm.trans hname))
              fun h => ⟨hname ▸ hempty, h.trans hj.model.symm⟩
          · exact (hj.backendModel_empty hempty).imp (fun h => h.trans hp.symm)
              fun h => ⟨hp, h.trans hj.model.symm⟩
        · rw [hj.backendModel hempty, hj.model]
          exact hname
      createdAt := by
        obtain ⟨t, ht⟩ := hi.createdAt
        exact ⟨t, (hj.createdAt.resolve_right (ht ▸ nowIso_ne_empty t)).trans ht⟩
      instanceId := hi.instanceId.imp fun _ hid => hj.instanceId.trans hid }

lemma triple_recordExternal (hA : SyncKeeps settings A) {profile : ModelProfile}
    (hprofile : profile ∈ settings.profiles.list) (matched : List String)
    (loads : List LmStudioLoad) :
    Triple world I A (recordExternal settings profile matched loads) fun _ s => A s := by
  induction loads with
  | nil => exact Triple.of_done fun _ hs => hs
  | cons load rest ih =>
    unfold recordExternal
    split
    · exact ih
    refine (ticking_externalLmstudioInstance hprofile load I A hA.calm).bind (fun i => ?_)
      fun _ _ hs => hs.1
    refine Triple.bind (M := fun _ s => A s) ?_ (fun _ => ih) fun _ _ hs => hs
    refine triple_nowText (fun s t hs ht => ⟨hA.calm.tick s t hs.1 ht, hs.2⟩) fun t s₀ s hs => ?_
    obtain ⟨⟨hs, hi⟩, rfl⟩ := hs
    exact wpt_putInstance.mpr (hA.change s _ hs (.enter (hi i rfl)))

lemma triple_syncLiveLmstudioState (hA : SyncKeeps settings A) :
    Triple world I A (syncLiveLmstudioState settings) fun _ s => A s := by
  have hprofile : ∀ profile ∈ settings.profiles.list, ∀ loads,
      Triple world I A (syncProfileLiveLmstudioLoad settings profile loads) fun _ s => A s := by
    intro profile hmem loads
    refine Triple.bind (p := Coro.get fun s => syncRecords profile _ s.registry.list)
      (M := fun _ s => A s) (fun s₀ s hs => ?_)
      (fun _ => triple_recordExternal hA hmem _ _) fun _ _ hs => hs
    exact wpt_get.mpr (triple_syncRecords hA profile _ _ s₀ s ⟨hs, current_list (hA.keyed s hs)⟩)
  have hprofiles : ∀ l ⊆ settings.profiles.list, ∀ loadsByBinary,
      Triple world I A (syncProfiles settings l loadsByBinary) fun _ s => A s := by
    intro l
    induction l with
    | nil => exact fun _ _ => Triple.of_done fun _ hs => hs
    | cons profile rest ih =>
      intro hl loadsByBinary
      rw [List.cons_subset] at hl
      unfold syncProfiles
      split
      · exact ih hl.2 _
      · refine Triple.quiet rfl fun answer => ?_
        refine ((hprofile _ hl.1 _).bind (fun _ => ih hl.2 _) fun _ _ hs => hs).weaken
          (fun _ hs => hs.1) fun _ _ hs => hs
  exact hprofiles _ (List.Subset.refl _) _

/-! ### Plans -/

/-- The profile with another shape of its loads and another estimate. -/
def Variant (p q : ModelProfile) : Prop :=
  ∃ c n e, q = { p with lmsContextLength := c, lmsParallel := n, estimatedVramMb := e }

lemma Variant.refl (p : ModelProfile) : Variant p p := ⟨_, _, _, rfl⟩

lemma Variant.trans {p q r : ModelProfile} (h : Variant p q) (h' : Variant q r) : Variant p r := by
  obtain ⟨_, _, _, rfl⟩ := h
  obtain ⟨c, n, e, rfl⟩ := h'
  exact ⟨c, n, e, rfl⟩

lemma variant_profileWithContextPlan (p : ModelProfile) (contextPlan : Option ContextPlan) :
    Variant p (profileWithContextPlan p contextPlan) := by
  unfold profileWithContextPlan
  split
  · exact Variant.refl p
  · split
    · exact Variant.refl p
    · exact ⟨_, _, _, rfl⟩

lemma ticking_profileWithLmstudioEstimate (profile : ModelProfile) :
    Ticking N (profileWithLmstudioEstimate profile) (Variant profile) := by
  unfold profileWithLmstudioEstimate
  split
  · exact Ticking.pure (Variant.refl profile)
  refine Ticking.ask rfl fun r => ?_
  split
  · refine Ticking.pure ?_
    split
    · exact Variant.refl profile
    · exact ⟨_, _, _, rfl⟩
  · exact Ticking.pure (Variant.refl profile)
  · exact Ticking.pure (Variant.refl profile)

lemma ticking_reloadDwellSatisfied (profile : ModelProfile) (i : BackendInstance) :
    Ticking N (reloadDwellSatisfied profile i) fun _ => True := by
  unfold reloadDwellSatisfied
  split
  · exact Ticking.pure trivial
  · split
    · exact Ticking.pure trivial
    · exact Ticking.now.bind fun _ _ => Ticking.pure trivial

lemma ticking_lift (x : Except Exn α) : Ticking N (lift x : Service α) fun _ => True :=
  Ticking.lift fun _ _ => trivial

lemma ticking_reloadDecision (profile : ModelProfile) (contextPlan : ContextPlan)
    (l : List BackendInstance) :
    Ticking N (reloadDecision profile contextPlan l) fun _ => True := by
  induction l with
  | nil => exact Ticking.pure trivial
  | cons i rest ih =>
    rw [reloadDecision]
    split
    · exact ih
    refine (ticking_lift _).bind fun _ _ => (ticking_lift _).bind fun _ _ => ?_
    dsimp only
    split
    · split
      · exact Ticking.pure trivial
      · exact ih
    refine Ticking.bind (G := fun _ => True) ?_ fun satisfied _ => ?_
    · split
      · exact Ticking.pure trivial
      · exact ticking_reloadDwellSatisfied profile i
    · split <;> exact Ticking.pure trivial

lemma ticking_decide (profile : ModelProfile) (gpus : List GpuState) (registry : Registry)
    (activeInstances : List BackendInstance) (desiredCount queueLength : ℤ)
    (contextPlan : Option ContextPlan) :
    Ticking N (decide profile gpus registry activeInstances desiredCount queueLength contextPlan)
      fun decisions => decisions.length ≤ 1 := by
  dsimp only [decide]
  have hsatisfied : ∀ d : PlacementDecision,
      (if desiredCount = activeInstances.length then [d] else []).length ≤ 1 := by
    intro d
    split <;> simp
  split
  · exact Ticking.pure (le_refl 1)
  split
  · exact Ticking.pure (le_refl 1)
  split
  · refine Ticking.bind (G := fun _ => True) ?_ fun o _ => ?_
    · unfold reloadDecisionForContextPlan
      split
      · exact Ticking.pure trivial
      · split
        · exact Ticking.pure trivial
        · exact ticking_reloadDecision _ _ _
    · cases o with
      | some d => exact Ticking.pure (le_refl 1)
      | none => exact Ticking.pure (hsatisfied _)
  · exact Ticking.pure (hsatisfied _)

lemma ticking_planModel (gpus : List GpuState) (queueLengths : Dict String ℤ)
    (contextPlans : Dict String ContextPlan) (profile : ModelProfile) :
    Ticking N (planModel gpus queueLengths contextPlans profile)
      fun modelPlan => modelPlan.decisions.length ≤ 1 := by
  dsimp only [planModel]
  refine (ticking_profileWithLmstudioEstimate _).bind fun effective _ => Ticking.get fun s => ?_
  refine Ticking.bind (G := fun _ => True) ?_ fun _ _ => ?_
  · exact (Ticking.mapEach (H := fun _ => True)
      (fun i => (ticking_instanceWithLiveLmstudioShape effective i).mono fun _ _ => trivial) _).mono
        fun _ _ => trivial
  · exact (ticking_decide _ _ _ _ _ _ _).bind fun _ hd => Ticking.pure hd

/-! ### Idleness -/

lemma ticking_isIdle (profile : ModelProfile) (i : BackendInstance) :
    Ticking N (isIdle profile i) fun idle => idle = true → i.activeRequests = 0 := by
  unfold isIdle
  split
  · exact Ticking.pure nofun
  · next hactive =>
    have hzero : i.activeRequests = 0 := not_not.mp hactive
    refine Ticking.bind (G := fun _ => True) ?_ fun _ _ => ?_
    · exact (ticking_lift _).bind fun _ _ => Ticking.now.bind fun _ _ => Ticking.pure trivial
    · exact (ticking_lift _).bind fun _ _ => Ticking.pure fun _ => hzero

lemma ticking_idleCandidates (profile : ModelProfile) (l : List BackendInstance) :
    Ticking N (idleCandidates profile l) fun c => c.Sublist l ∧ ∀ i ∈ c, i.activeRequests = 0 := by
  induction l with
  | nil => exact Ticking.pure ⟨.slnil, fun i hi => absurd hi List.not_mem_nil⟩
  | cons i rest ih =>
    refine (ticking_isIdle profile i).bind fun idle hidle => ih.bind fun others hothers => ?_
    refine Ticking.pure ?_
    cases idle with
    | false => exact ⟨hothers.1.cons i, hothers.2⟩
    | true => exact ⟨hothers.1.cons_cons i, List.forall_mem_cons.mpr ⟨hidle rfl, hothers.2⟩⟩

/-- The record is one that a purge may remove. -/
def Stale (i : BackendInstance) : Prop :=
  i.runtime = "lmstudio" ∧ (i.state = .stopped ∨ i.state = .failed)

lemma ticking_isStale (ttlSeconds : ℤ) (i : BackendInstance) :
    Ticking N (isStale ttlSeconds i) fun stale => stale = true → Stale i := by
  unfold isStale
  split
  · exact Ticking.pure nofun
  · next hstale =>
    refine Ticking.bind (G := fun _ => True) ?_ fun _ _ => Ticking.pure fun _ => ?_
    · exact (ticking_lift _).bind fun _ _ => Ticking.now.bind fun _ _ => Ticking.pure trivial
    · simpa [Stale, or_iff_not_imp_left] using hstale

/-- What a purge keeps. -/
structure PurgeKeeps (A : LifecycleState → Prop) : Prop where
  calm : Calm (fun _ => False) A
  keyed : ∀ s, A s → Keyed s
  remove : ∀ s i, A s → s.registry.get? i.instanceId = some i → Stale i →
    A (s.change (s.registry.erase i.instanceId))

lemma Closed.purgeKeeps (hI : Closed I) : PurgeKeeps I where
  calm := ⟨hI.tick, fun _ _ _ h => h.elim⟩
  keyed := hI.keyed
  remove s _ hs _ _ := hI.change s _ hs (.remove _)

lemma triple_purgeStaleInstances (hA : PurgeKeeps A) (ttlSeconds : ℤ) :
    Triple world I A (purgeStaleInstances ttlSeconds) fun _ s => A s := by
  have heach : ∀ l, Triple world I (fun s => A s ∧ Current l s) (purgeEach ttlSeconds l)
      fun _ s => A s := by
    intro l
    induction l with
    | nil => exact Triple.of_done fun _ hs => hs.1
    | cons i rest ih =>
      have hcalm : Calm (fun _ => False) fun s => A s ∧ Current (i :: rest) s :=
        ⟨fun s t hs ht => ⟨hA.calm.tick s t hs.1 ht, hs.2⟩, fun _ _ _ hn => hn.elim⟩
      refine (ticking_isStale ttlSeconds i I _ hcalm).bind (fun stale => ?_) fun _ _ hs => hs.1.1
      split
      · next hstale =>
        refine Triple.bind (M := fun _ s => A s ∧ Current rest s) (fun s₀ s hs => ?_) (fun _ => ?_)
          fun _ _ hs => hs.1
        · obtain ⟨⟨hs, hcur⟩, hi⟩ := hs
          refine wpt_get.mpr (wpt_set.mpr (wpt_done.mpr ⟨?_, hcur.rest fun id hne => ?_⟩))
          · exact hA.remove s i hs (hcur.2 i List.mem_cons_self) (hi stale rfl hstale)
          · exact (Dict.get?_erase _ _ _).trans (if_neg hne)
        · exact ih.bind (fun _ => Triple.of_done fun _ hs => hs) fun _ _ hs => hs
      · exact ih.weaken (fun _ hs => ⟨hs.1.1, hs.1.2.tail⟩) fun _ _ hs => hs
  unfold purgeStaleInstances
  split
  · exact Triple.of_done fun _ hs => hs
  · exact fun s₀ s hs => wpt_get.mpr (heach _ s₀ s ⟨hs, current_list (hA.keyed s hs)⟩)

/-- The keys of the metadata that say how a backend was loaded. -/
def loadKeys : List String := ["lmstudio_loaded_with_lms", "lms_binary"]

/-- The metadata says nothing about how a backend was loaded, and how long it may be idle. -/
def Extra (m : Mapping) : Prop := ∀ key ∈ "idle_ttl_seconds" :: loadKeys, ∀ p ∈ m, key ≠ p.1

lemma extra_nil : Extra [] := fun _ _ _ hp => absurd hp List.not_mem_nil

lemma ticking_enrichProfileFromLmstudioMetadata (profile : ModelProfile)
    (dynamicConfig payload : Mapping) :
    Ticking N (enrichProfileFromLmstudioMetadata profile dynamicConfig payload) fun r =>
      Variant profile r.1 ∧ Extra r.2 := by
  have hnone : Variant profile profile ∧ Extra [] := ⟨Variant.refl profile, extra_nil⟩
  dsimp only [enrichProfileFromLmstudioMetadata]
  split_ifs
  · exact Ticking.pure hnone
  · exact Ticking.pure hnone
  · exact Ticking.pure hnone
  refine Ticking.ask rfl fun metadata => ?_
  split
  · exact Ticking.pure hnone
  refine (ticking_lift _).bind fun estimate _ => ?_
  split
  · exact Ticking.pure ⟨Variant.refl profile, by simp [Extra, loadKeys]⟩
  · exact Ticking.pure ⟨⟨_, _, _, rfl⟩, by simp [Extra, loadKeys]⟩

end Orchestrator.Lifecycle
