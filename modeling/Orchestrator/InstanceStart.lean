import Orchestrator.LifecycleFrame

/-!
The initialization of one instance, which leaves its record ready or failed, and the start of one.
-/

namespace Orchestrator.Lifecycle

open Lib Lib.Coro Clock

variable {α β K : Type} {settings : LifecycleSettings}

/-! ### Exceptions -/

/-- What a call raises. -/
def raised : (c : LifecycleCall) → c.Answer → Option Exn
  | .getGpus, .error e => some e
  | .estimateVram _, .error e => some e
  | .run _, .error e => some e.exn
  | .waitForHealth _ _, .error e => some e
  | .getModels _, .error e => some e
  | .postWarmup _ _, .error e => some e
  | _, _ => none

/-- The call raises nothing but an `Exception`. -/
def Ordinary (e : Event LifecycleCall LifecycleCall.Answer) : Prop :=
  ∀ x, raised e.1 e.2 = some x → x.isException = true

/-- A value or an `Exception`. -/
def Tame (x : Except Exn α) : Prop := ∀ e, x = .error e → e.isException = true

/-- With such answers, such results. -/
abbrev Mild (p : Service α) : Prop := p.Results Ordinary Tame

lemma tame_ok (a : α) : Tame (.ok a : Except Exn α) := fun _ h => by cases h

lemma tame_error {e : Exn} (h : e.isException = true) : Tame (.error e : Except Exn α) :=
  fun _ he => Except.error.inj he ▸ h

namespace Mild

lemma ok (a : α) : Mild (pure a : Service α) := tame_ok a

lemma raise {e : Exn} (h : e.isException = true) : Mild (Coro.raise e : Service α) := tame_error h

lemma bind {p : Service α} {k : α → Service β} (hp : Mild p) (hk : ∀ a, Mild (k a)) :
    Mild (p.after (onOk k)) := by
  refine results_after hp fun x hx => ?_
  cases x with
  | ok a => exact hk a
  | error e => exact tame_error (hx e rfl)

lemma nowText : Mild nowText := fun _ _ _ => tame_ok _

/-- A record that is read and changed. -/
lemma change (id : String) (f : BackendInstance → String → BackendInstance) :
    Mild ((getInstance id).after <| onOk fun i =>
      Lifecycle.nowText.after (onOk fun t => putInstance id (f i t))) := by
  refine Mild.bind (fun s => ?_) fun i => nowText.bind fun t s => tame_ok _
  dsimp only
  split
  · exact tame_ok _
  · exact tame_error rfl

lemma markState (id : String) (state : BackendState) : Mild (markState id state) := change id _

lemma markFailed (id reason : String) : Mild (markFailed id reason) := change id _

lemma exceptException {p : Service α} {handler : Exn → Service α} (hp : Mild p)
    (hh : ∀ e, Mild (handler e)) : Mild (exceptException p handler) := by
  refine results_after hp fun x hx => ?_
  cases x with
  | ok a => exact ok a
  | error e =>
    show Mild (if e.isException then handler e else Coro.raise e)
    rw [if_pos (hx e rfl)]
    exact hh e

end Mild

lemma mild_verifyModelAvailable (profile : ModelProfile) : Mild (verifyModelAvailable profile) := by
  unfold verifyModelAvailable
  split
  · exact Mild.ok ()
  split
  · exact Mild.raise rfl
  · intro r hr
    cases r with
    | ok ids =>
      show Tame (if profile.backendModel ∈ ids then Except.ok () else _)
      split
      · exact tame_ok ()
      · exact tame_error rfl
    | error e => exact tame_error (hr e rfl)

lemma mild_haltCommand (process : Process) (i : BackendInstance) (command : List String) :
    Mild (haltCommand process i command) := by
  have hrun : Mild (runCommand command) := by
    intro r hr
    cases r with
    | ok _ => exact tame_ok ()
    | error e => exact tame_error (hr _ rfl)
  exact results_after hrun fun x hx => Mild.bind (fun _ => tame_ok ()) fun _ => hx

lemma mild_stop (adapter : RuntimeAdapter) (dockerBinary : String) (i : BackendInstance) :
    Mild (adapter.stop dockerBinary i) := by
  cases adapter with
  | dryRun => exact Mild.ok ()
  | dockerVllm =>
    rw [RuntimeAdapter.stop]
    split
    · exact Mild.ok ()
    · exact mild_haltCommand _ _ _
  | externalOpenAI =>
    rw [RuntimeAdapter.stop]
    split_ifs
    · exact Mild.ok ()
    · exact Mild.ok ()
    · exact mild_haltCommand _ _ _

/-! ### One initialization -/

/-- The record under the id, if there is one, is ready or failed. -/
def Concluded (s : LifecycleState) (id : String) : Prop :=
  ∀ i, s.registry.get? id = some i → i.state = .ready ∨ i.state = .failed

lemma concluded_change {s : LifecycleState} {id : String} {i : BackendInstance}
    (h : i.state = .ready ∨ i.state = .failed) : Concluded (s.change (s.registry.set id i)) id := by
  intro j hj
  rw [LifecycleState.change_registry, Dict.get?_set_self] at hj
  exact Option.some.inj hj ▸ h

lemma concluded_of_none {s : LifecycleState} {id : String} (h : s.registry.get? id = none) :
    Concluded s id := by
  intro i hi
  rw [h] at hi
  cases hi

section Tokens

variable {H : Holding LifecycleState LifecycleCall LifecycleCall.Answer Exn K} {k : K}
  {A B : K → LifecycleState → LifecycleState → Prop}

/-- All marks of the record under the id keep `B`. -/
def KeepsMarks (B : K → LifecycleState → LifecycleState → Prop) (id : String) : Prop :=
  ∀ k₀ s₀, Marked id (fun _ => True) (B k₀ s₀)

lemma holds_markState (hB : Resting H k B) {id : String} (hmark : KeepsMarks B id)
    (state : BackendState) : Holds H B (markState id state) fun _ k₀ s₀ s => B k₀ s₀ s ∧
      (state = .ready ∨ state = .failed → Concluded s id) :=
  hB.of_triple fun k₀ s₀ =>
    triple_change (f := fun i t => { i with state := state, updatedAt := t })
    (hmark k₀ s₀).tick
    (fun s i hs hi => ⟨(hmark k₀ s₀).mark s i state i.failureReason hs hi trivial,
      fun h => concluded_change h⟩)
    fun _ hs hi => ⟨hs, fun _ => concluded_of_none hi⟩

lemma holds_markFailed (hB : Resting H k B) {id : String} (hmark : KeepsMarks B id)
    (reason : String) : Holds H B (markFailed id reason) fun _ k₀ s₀ s =>
      B k₀ s₀ s ∧ Concluded s id :=
  hB.of_triple fun k₀ s₀ => triple_change
    (f := fun i t => { i with state := .failed, failureReason := some reason, updatedAt := t })
    (hmark k₀ s₀).tick
    (fun s i hs hi => ⟨(hmark k₀ s₀).mark s i .failed (some reason) hs hi trivial,
      concluded_change (Or.inr rfl)⟩)
    fun _ hs hi => ⟨hs, concluded_of_none hi⟩

/-- A handler of `Exception`, where `T` is said of values and of instances of `Exception` only. -/
lemma holds_exceptException {p : Service α} {handler : Exn → Service α}
    {M T : Except Exn α → K → LifecycleState → LifecycleState → Prop} (hp : Holds H A p M)
    (hok : ∀ a k₀ s₀ s, M (.ok a) k₀ s₀ s → T (.ok a) k₀ s₀ s)
    (hraise : ∀ e k₀ s₀ s, e.isException = false → M (.error e) k₀ s₀ s → T (.error e) k₀ s₀ s)
    (hhandler : ∀ e, Holds H (M (.error e)) (handler e) T) :
    Holds H A (exceptException p handler) T := by
  refine hp.seq fun x => ?_
  cases x with
  | ok a => exact Holds.of_done (hok a)
  | error e =>
    show Holds H _ (if e.isException then handler e else Coro.raise e) T
    cases he : e.isException with
    | true => exact hhandler e
    | false => exact Holds.of_done fun k₀ s₀ s hs => hraise e k₀ s₀ s he hs

/-- The wait for an instance, its check and its warmup. -/
def bringUp (profile : ModelProfile) (i : BackendInstance) : Service BackendInstance :=
  Coro.after (.call (.waitForHealth i.baseUrl profile.healthcheckPath) fun r => lift r) <|
    onOk fun _ =>
    (if shouldVerifyBeforeStart profile then pure () else verifyModelAvailable profile).after <|
      onOk fun _ => (markState i.instanceId .warming).after <| onOk fun _ =>
        (if profile.warmupEnabled then warmup profile i else pure ()).after <| onOk fun _ =>
          markState i.instanceId .ready

lemma mild_bringUp (profile : ModelProfile) (i : BackendInstance) : Mild (bringUp profile i) := by
  have hanswer : ∀ x : Except Exn Unit, (∀ e, x = .error e → e.isException = true) →
      Mild (lift x : Service Unit) := fun x hx => hx
  refine Mild.bind (fun r hr => hanswer r fun e he => hr e ?_) fun _ => Mild.bind ?_ fun _ =>
    (Mild.markState _ _).bind fun _ => Mild.bind ?_ fun _ => Mild.markState _ _
  · rw [he]; rfl
  · split
    · exact Mild.ok ()
    · exact mild_verifyModelAvailable profile
  · split
    · refine fun r hr => hanswer r fun e he => hr e ?_
      rw [he]; rfl
    · exact Mild.ok ()

/-- The first thing that an initialization does is to wait, and then it holds its token. -/
lemma holds_bringUp (hB : Resting H k B) (hA : ∀ k₀ s₀ s, A k₀ s₀ s → H.own k₀ s₀ k s)
    (profile : ModelProfile) (i : BackendInstance)
    (hwarming : ∀ k₀ s₀, Marked i.instanceId (· = .warming) (B k₀ s₀))
    {M : Except Exn BackendInstance → K → LifecycleState → LifecycleState → Prop}
    (hready : Holds H B (markState i.instanceId .ready) M)
    (herror : ∀ e k₀ s₀ s, B k₀ s₀ s → M (.error e) k₀ s₀ s) :
    Holds H A (bringUp profile i) M := by
  refine Holds.bind (M := fun _ => B) ?_ (fun _ => ?_) herror
  · refine Holds.await (hB.suspends ▸ rfl) k (hB.marks _ _) hA fun r =>
      Holds.of_done fun k₀ s₀ s hs => ?_
    obtain ⟨rfl, rfl, hs, -⟩ := hs
    exact hB.resumes _ hs
  refine Holds.bind (M := fun _ => B) ?_ (fun _ => ?_) herror
  · split
    · exact Resting.done _
    · exact (hB.frame.models profile).holds
  refine Holds.bind (M := fun _ => B) ?_ (fun _ => ?_) herror
  · exact hB.of_triple fun k₀ s₀ => triple_markState (hwarming k₀ s₀) rfl
  refine Holds.bind (M := fun _ => B) ?_ (fun _ => hready) herror
  split
  · exact hB.await rfl fun r => Resting.done r
  · exact Resting.done _

/-- **An initialization** ends with the mark of its record as ready or, after a stop, as failed. -/
theorem holds_initialized {F : K → LifecycleState → LifecycleState → Prop} (hB : Resting H k B)
    (hA : ∀ k₀ s₀ s, A k₀ s₀ s → H.own k₀ s₀ k s)
    (profile : ModelProfile) {i : BackendInstance} (hi : i.dryRun = false)
    (hwarming : ∀ k₀ s₀, Marked i.instanceId (· = .warming) (B k₀ s₀))
    (hstop : Holds H B ((adapterFor profile (i.dryRun || settings.dryRun)).stop
      settings.dockerBinary i) fun _ => F)
    {T : Except Exn BackendInstance → K → LifecycleState → LifecycleState → Prop}
    (hready : Holds H B (markState i.instanceId .ready) fun x k₀ s₀ s =>
      (∀ a, x = .ok a → T x k₀ s₀ s) ∧ ∀ e, x = .error e → B k₀ s₀ s)
    (hfailed : ∀ reason, Holds H F (markFailed i.instanceId reason) T)
    (hF : ∀ k₀ s₀ s, F k₀ s₀ s → B k₀ s₀ s)
    (hraise : ∀ e k₀ s₀ s, e.isException = false → B k₀ s₀ s → T (.error e) k₀ s₀ s) :
    Holds H A (initializeInstance settings profile i) T := by
  unfold initializeInstance
  rw [if_neg (by simp [hi])]
  refine holds_exceptException (holds_bringUp hB hA profile i hwarming hready
    fun e k₀ s₀ s hs => ⟨(fun _ h => by cases h), fun _ _ => hs⟩)
    (fun a k₀ s₀ s hs => hs.1 a rfl) (fun e k₀ s₀ s he hs => hraise e k₀ s₀ s he (hs.2 e rfl))
    fun e => ?_
  refine Holds.weaken (B := B) ?_ (fun _ _ _ hs => hs.2 e rfl) fun _ _ _ _ hs => hs
  refine Holds.bind (M := fun x k₀ s₀ s => F k₀ s₀ s ∧ ∀ e, x = .error e → e.isException = false) ?_
    (fun _ => ?_) fun e k₀ s₀ s hs => hraise e k₀ s₀ s (hs.2 e rfl) (hF _ _ _ hs.1)
  · exact holds_exceptException hstop (fun _ _ _ _ hs => ⟨hs, fun _ h => by cases h⟩)
      (fun e _ _ _ he hs => ⟨hs, fun _ h => Except.error.inj h ▸ he⟩)
      fun _ => Holds.of_done fun _ _ _ hs => ⟨hs, fun _ h => by cases h⟩
  · exact (hfailed e.name).weaken (fun _ _ _ hs => hs.1) fun _ _ _ _ hs => hs

/-- An initialization leaves its record ready or failed, and keeps what its marks and its stop
keep. -/
lemma holds_initializeInstance (hB : Resting H k B) (hA : ∀ k₀ s₀ s, A k₀ s₀ s → H.own k₀ s₀ k s)
    (profile : ModelProfile) {i : BackendInstance} (hi : i.dryRun = false)
    (hmark : KeepsMarks B i.instanceId)
    (hstop : Holds H B ((adapterFor profile (i.dryRun || settings.dryRun)).stop
      settings.dockerBinary i) fun _ => B) :
    Holds H A (initializeInstance settings profile i) fun x k₀ s₀ s =>
      B k₀ s₀ s ∧ (Tame x → Concluded s i.instanceId) := by
  refine holds_initialized hB hA profile hi (fun k₀ s₀ => (hmark k₀ s₀).mono fun _ _ =>
    trivial) hstop
    ?_ (fun reason => ?_) (fun _ _ _ hs => hs) fun e k₀ s₀ s he hs => ⟨hs, fun h => ?_⟩
  · exact (holds_markState hB hmark .ready).weaken (fun _ _ _ hs => hs)
      fun _ _ _ _ hs => ⟨fun _ _ => ⟨hs.1, fun _ => hs.2 (Or.inl rfl)⟩, fun _ _ => hs.1⟩
  · exact (holds_markFailed hB hmark reason).weaken (fun _ _ _ hs => hs)
      fun _ _ _ _ hs => ⟨hs.1, fun _ => hs.2⟩
  · simpa [he] using h e rfl

lemma mild_initializeInstance (profile : ModelProfile) (i : BackendInstance) :
    Mild (initializeInstance settings profile i) := by
  unfold initializeInstance
  split
  · exact Mild.markState _ _
  · exact (mild_bringUp profile i).exceptException fun e =>
      ((mild_stop _ _ _).exceptException fun _ => Mild.ok ()).bind fun _ => Mild.markFailed _ _

/-- A dry run is ready at once. -/
lemma holds_initializeDry (hB : Resting H k B) (profile : ModelProfile) {i : BackendInstance}
    (hi : i.dryRun = true) (hmark : KeepsMarks B i.instanceId) :
    Holds H B (initializeInstance settings profile i) fun _ k₀ s₀ s =>
      B k₀ s₀ s ∧ Concluded s i.instanceId := by
  unfold initializeInstance
  rw [if_pos hi]
  exact (holds_markState hB hmark .ready).weaken (fun _ _ _ hs => hs)
    fun _ _ _ _ hs => ⟨hs.1, hs.2 (Or.inl rfl)⟩

end Tokens

/-! ### The start of an instance -/

/-- A new instance is started and entered. -/
def enteredInstance (settings : LifecycleSettings) (profile : ModelProfile)
    (decision : PlacementDecision)
    (gpus : List GpuState) (extra : Mapping) : Service BackendInstance :=
  (startInstance settings profile decision gpus).after <| onOk fun i =>
    upsert { i with metadata := Mapping.merge i.metadata extra }

variable {I J : LifecycleState → Prop} {profile : ModelProfile} {decision : PlacementDecision}
  {gpus : List GpuState} {extra : Mapping}

lemma triple_enteredInstance (hI : Calm Note.AboutProcess I)
    (henter : ∀ s i, I s → Made profile i → I (s.change (s.registry.set i.instanceId
      { i with metadata := Mapping.merge i.metadata extra, updatedAt := nowIso s.clock }))) :
    Triple world J I (enteredInstance settings profile decision gpus extra) fun _ s => I s := by
  refine (ticking_startInstance settings profile decision gpus _ _ hI).bind (fun i => ?_)
    fun _ _ hs => hs.1
  refine triple_nowText (fun s t hs ht => ⟨hI.tick s t hs.1 ht, hs.2⟩) fun t s₀ s hs => ?_
  obtain ⟨⟨hs, hi⟩, rfl⟩ := hs
  exact wpt_putInstance.mpr (henter s i hs (hi i rfl))

lemma resting_single (hI : Calm (fun _ => False) I) : Resting (single world I) () fun _ _ s =>
    I s where
  suspends := rfl
  allowed _ _ _ h := h
  marks _ _ := trivial
  own _ _ _ hs := hs
  resumes _ hs := hs
  calm _ _ := hI

/-- What the entry of an instance keeps, and marks keep, its start and initialization keep. -/
lemma Resting.started {H : Holding LifecycleState LifecycleCall LifecycleCall.Answer Exn K} {k : K}
    {B : K → LifecycleState → LifecycleState → Prop} (hB : Resting H k B)
    (hcalm : ∀ k₀ s₀, Calm Note.AboutProcess (B k₀ s₀)) (hmark : ∀ id, KeepsMarks B id)
    (henter : ∀ k₀ s₀, Triple world (fun _ => False) (B k₀ s₀)
      (enteredInstance settings profile decision gpus extra) fun _ s => B k₀ s₀ s) :
    Within H B (startedInstance settings profile decision gpus extra) fun _ => True := by
  rw [startedInstance, ← after_onOk_assoc]
  refine Within.of_holds ((hB.of_triple henter).bind (fun i => ?_) fun _ _ _ _ hs => hs)
  cases hi : i.dryRun with
  | true =>
    exact (holds_initializeDry hB profile hi (hmark _)).weaken (fun _ _ _ hs => hs)
      fun _ _ _ _ hs => hs.1
  | false =>
    refine (holds_initializeInstance hB hB.own profile hi (hmark _) ?_).weaken (fun _ _ _ hs => hs)
      fun _ _ _ _ hs => hs.1
    exact hB.of_triple fun k₀ s₀ => triple_stop (hcalm k₀ s₀) _ _ _

lemma within_startedInstance (hI : Calm Note.AboutProcess I)
    (hmark : ∀ id, Marked id (fun _ => True) I)
    (henter : Triple world (fun _ => False) I
      (enteredInstance settings profile decision gpus extra) fun _ s => I s) :
    Within (single world I) (fun _ _ s => I s)
      (startedInstance settings profile decision gpus extra) fun _ => True :=
  (resting_single ⟨hI.tick, fun _ _ _ hn => hn.elim⟩).started (fun _ _ => hI)
    (fun id _ _ => hmark id) fun _ _ => henter

/-! ### What every change keeps -/

lemma Closed.still (hI : Closed I) : Calm (fun _ => False) I := ⟨hI.tick, fun _ _ _ hn => hn.elim⟩

lemma closed_blocks (hI : Closed I) (hidle : IdleStopsKeep settings I)
    (hstop : StopKeeps settings I) :
    Blocks settings (fun _ => True) fun _ p M => Within (single world I) (fun _ _ s => I s) p M :=
  (resting_single hI.still).blocks (fun _ _ _ _ => trivial) (fun _ _ => hI.syncKeeps settings)
    (fun _ _ => hI.purgeKeeps) (fun _ _ => hidle) (fun _ _ id => hI.marked id _) (fun _ _ => hstop)
    fun _ _ _ extra _ _ => within_startedInstance hI.calm (fun id => hI.marked id _)
      (triple_enteredInstance hI.calm fun s i hs hi => hI.change s _ hs
        (.enter (i := { i with metadata := Mapping.merge i.metadata extra })
          ⟨hi.fresh.1, hi.fresh.2⟩))

end Orchestrator.Lifecycle
