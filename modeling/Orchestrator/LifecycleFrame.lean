import Orchestrator.Lib.Holding
import Orchestrator.LifecycleSteps

/-!
The operations of lifecycle as compositions of a few parts: what sequencing keeps and all parts
have, the operations have.
-/

namespace Orchestrator.Lifecycle

open Lib Lib.Coro Clock

variable {α β K : Type} {settings : LifecycleSettings} {I : LifecycleState → Prop}

/-! ### Stops of records -/

/-- The instance is one of the registry, perhaps in the shape of its load, and no request uses
it. -/
structure StopOf (s : LifecycleState) (i : BackendInstance) : Prop where
  current : ∃ record, s.registry.get? i.instanceId = some record ∧ Reshaped record i
  unleased : ¬ 0 < i.activeRequests

/-- The profiles that idle instances are stopped with. -/
def StopsWith (settings : LifecycleSettings) (profile : ModelProfile) : Prop :=
  profile ∈ settings.profiles.list ∨ ∃ model, settings.profiles.get? model = none ∧
    settings.dynamicProfile model [] = .ok (some profile)

lemma profiles_get?_eq_none {profiles : Profiles} {model : String} :
    profiles.get? model = none ↔ ∀ p ∈ profiles.list, p.publicName ≠ model := by
  rw [Profiles.get?, List.find?_eq_none]
  exact forall₂_congr fun p _ => by simp

lemma withDynamicProfiles_stopsWith {l : List BackendInstance} {profiles result : List ModelProfile}
    (h : withDynamicProfiles settings l profiles = .ok result)
    (hconfigured : settings.profiles.list ⊆ profiles)
    (hprofiles : ∀ p ∈ profiles, StopsWith settings p) :
    ∀ p ∈ result, StopsWith settings p := by
  induction l generalizing profiles with
  | nil =>
    cases h
    exact hprofiles
  | cons i l ih =>
    rw [withDynamicProfiles] at h
    split at h
    · exact ih h hconfigured hprofiles
    next hnew =>
    obtain ⟨found, hfound, h⟩ := bind_eq_ok.mp h
    cases found with
    | none => exact ih h hconfigured hprofiles
    | some profile =>
      refine ih h (fun p hp => List.mem_append_left _ (hconfigured hp)) fun p hp => ?_
      rcases List.mem_append.mp hp with hp | hp
      · exact hprofiles p hp
      · obtain rfl := List.mem_singleton.mp hp
        refine Or.inr ⟨i.model, profiles_get?_eq_none.mpr fun q hq hname => hnew ?_, hfound⟩
        simp only [Bool.or_eq_true, List.any_eq_true]
        exact Or.inl ⟨q, hconfigured hq, by simpa using hname⟩

/-- The note of the stop of an idle instance keeps `A`. -/
def NotesIdle (A : LifecycleState → Prop) : Prop :=
  ∀ s profile i, A s → A (s.noted (.idleStop profile i))

/-- The stop of a record keeps `A`. -/
def StopKeeps (settings : LifecycleSettings) (A : LifecycleState → Prop) : Prop := ∀ profile i,
  Triple world (fun _ => False) (fun s => A s ∧ StopOf s i) (stopInstance settings profile i)
    fun _ s => A s

/-- The stop of idle instances keeps `A`. -/
def IdleStopsKeep (settings : LifecycleSettings) (A : LifecycleState → Prop) : Prop :=
  ∀ queueLengths profiles, (∀ p ∈ profiles, StopsWith settings p) → Triple world (fun _ => False) A
    (stopIdleInstances settings queueLengths profiles) fun _ s => A s

/-- **Stops of idle instances** keep what the stop of a record keeps. -/
theorem triple_stopIdleInstances {A : LifecycleState → Prop} (hcalm : Calm (fun _ => False) A)
    (hkeyed : ∀ s, A s → Keyed s) (hnote : NotesIdle A) {profiles : List ModelProfile}
    (hstop : ∀ profile ∈ profiles, ∀ i, i.model = profile.publicName → i.state = .ready →
      Triple world I (fun s => A s ∧ StopOf s i) (stopInstance settings profile i) fun _ s => A s)
    (queueLengths : Dict String ℤ) :
    Triple world I A (stopIdleInstances settings queueLengths profiles) fun _ s => A s := by
  have heach : ∀ profile ∈ profiles,
      Triple world I A (stopIdleOf settings queueLengths profile) fun _ s => A s := by
    intro profile hprofile
    unfold stopIdleOf
    split
    · exact Triple.of_done fun _ hs => hs
    refine Triple.of_get fun u => ?_
    dsimp only
    have hfixed : Calm (fun _ => False) fun s => s.registry = u.registry ∧ A s :=
      ⟨fun s t hs ht => ⟨hs.1, hcalm.tick s t hs.2 ht⟩, fun _ _ _ hn => hn.elim⟩
    refine Triple.weaken (B := fun s => s.registry = u.registry ∧ A s) ?_
      (fun s hs => ⟨congrArg LifecycleState.registry hs.1, hs.2⟩) fun _ _ hs => hs
    refine (ticking_idleCandidates profile _ I _ hfixed).bind
      (fun candidates => ?_) fun _ _ hs => hs.1.2
    -- the candidates that are left to stop are as they were
    let left (l : List BackendInstance) (s : LifecycleState) : Prop := A s ∧
      (l.map BackendInstance.instanceId).Nodup ∧ (∀ i ∈ l, s.registry.get? i.instanceId = some i) ∧
        ∀ i ∈ l, (i.model = profile.publicName ∧ i.state = .ready) ∧ i.activeRequests = 0
    refine Triple.weaken (B := left _) (N := Triple.Ends (left []) fun _ => A)
      (Triple.of_mapEach (fun i l => ?_) _) (fun s hs => ?_) fun x s hs => ?_
    · refine Triple.bind (M := fun _ s => left l s) ?_
        (fun stopped s₀ s hs => ?_) fun _ _ hs => hs.1
      · intro s₀ s hs
        obtain ⟨hA, hnodup, hcurrent, hidle⟩ := hs
        rw [List.map_cons, List.nodup_cons] at hnodup
        rw [List.forall_mem_cons] at hcurrent hidle
        have hown := hstop profile hprofile i hidle.1.1.1 hidle.1.1.2
        refine wpt_mono ((hown.and (triple_stopElsewhere settings profile i hnodup.1)) s₀ s ?_)
          fun _ _ t ht => ⟨ht.1, hnodup.2, ht.2, hidle.2⟩
        refine ⟨⟨hA, ⟨i, hcurrent.1, Reshaped.refl i⟩, ?_⟩, hcurrent.2⟩
        rw [hidle.1.2]
        exact lt_irrefl _
      · exact wpt_get.mpr (wpt_set.mpr (wpt_done.mpr ⟨hnote s _ _ hs.1, hs.2⟩))
    · obtain ⟨⟨hr, hA⟩, hsub⟩ := hs
      obtain ⟨hsub, hzero⟩ := hsub candidates rfl
      have hlist := current_list (hkeyed s hA)
      rw [hr] at hlist
      have hready : candidates.Sublist u.registry.list := hsub.trans List.filter_sublist
      have hperm := List.perm_insertionSort (fun a b => idleReference a ≤ idleReference b)
        candidates
      refine ⟨hA, ?_, fun i hi => ?_, fun i hi => ?_⟩
      · refine List.Nodup.sublist ((List.take_sublist _ _).map _) ((hperm.map _).nodup_iff.mpr ?_)
        exact hlist.1.sublist (hready.map _)
      · exact hlist.2 i (hready.subset (hperm.subset (List.mem_of_mem_take hi)))
      · have hi := hperm.subset (List.mem_of_mem_take hi)
        have hmodel := List.of_mem_filter (hsub.subset hi)
        simp only [Bool.and_eq_true, decide_eq_true_eq] at hmodel
        exact ⟨hmodel, hzero i hi⟩
    · cases x with
      | ok _ => exact hs.1
      | error _ => exact hs
  refine Triple.bind (M := Triple.Ends A fun _ => A) ?_
    (fun _ => Triple.of_done fun _ hs => hs) fun _ _ hs => hs
  refine (Triple.of_mapEach (L := fun l s => A s ∧ l ⊆ profiles) (X := fun _ => A)
    (fun profile l s₀ s hs => ?_) profiles).weaken (fun s hs => ⟨hs, List.Subset.refl _⟩)
    fun x s hs => ?_
  · rw [List.cons_subset] at hs
    refine wpt_mono (heach profile hs.2.1 s₀ s hs.1) fun x _ t ht => ?_
    cases x with
    | ok _ => exact ⟨ht, hs.2.2⟩
    | error _ => exact ht
  · cases x with
    | ok _ => exact hs.1
    | error _ => exact hs

lemma StopKeeps.idle {A : LifecycleState → Prop} (h : StopKeeps settings A)
    (hcalm : Calm (fun _ => False) A) (hkeyed : ∀ s, A s → Keyed s) (hnote : NotesIdle A) :
    IdleStopsKeep settings A :=
  fun queueLengths _ _ => triple_stopIdleInstances hcalm hkeyed hnote
    (fun profile _ i _ _ => h profile i)
    queueLengths

/-! ### Frames -/

/-- What sequencing keeps, and have computations that only read the clock, the questions for the
GPUs and the check of a model. It is said of a computation with a set that its normal results are
in. -/
structure Frame (Keep : (α : Type) → Service α → (α → Prop) → Prop) : Prop where
  done : ∀ α x (G : α → Prop), (∀ a, x = .ok a → G a) → Keep α (.done x) G
  seq : ∀ α β (p : Service α) (k : Except Exn α → Service β) (G : α → Prop) (T : β → Prop),
    Keep α p G →
    (∀ x, (∀ a, x = .ok a → G a) → Keep β (k x) T) → Keep β (p.after k) T
  get : ∀ α (f : LifecycleState → Service α) (G : α → Prop), (∀ s, Keep α (f s) G) →
    Keep α (.get f) G
  ticking : ∀ α (p : Service α) (G : α → Prop), Ticking (fun _ => False) p G → Keep α p G
  gpus : Keep _ gpuStates fun _ => True
  models : ∀ profile, Keep _ (verifyModelAvailable profile) fun _ => True

/-- A new instance is started, entered and initialized. -/
def startedInstance (settings : LifecycleSettings) (profile : ModelProfile)
    (decision : PlacementDecision)
    (gpus : List GpuState) (extra : Mapping) : Service BackendInstance :=
  (startInstance settings profile decision gpus).after <| onOk fun i =>
    (upsert { i with metadata := Mapping.merge i.metadata extra }).after <| onOk fun i =>
      initializeInstance settings profile i

lemma started_unit (settings : LifecycleSettings) (profile : ModelProfile)
    (decision : PlacementDecision)
    (gpus : List GpuState) : ((startInstance settings profile decision gpus).after <| onOk fun i =>
      (upsert i).after <| onOk fun i =>
        (initializeInstance settings profile i).after <| onOk fun _ => pure ()) =
      (startedInstance settings profile decision gpus []).after (onOk fun _ => pure ()) := by
  rw [startedInstance, after_onOk_assoc]
  simp only [after_onOk_assoc]
  rfl

lemma started_result {settings : LifecycleSettings} {profile : ModelProfile}
    {decision : PlacementDecision} {gpus : List GpuState} {extra : Mapping}
    {f : BackendInstance → Service α} :
    ((startInstance settings profile decision gpus).after <| onOk fun i =>
      (upsert { i with metadata := Mapping.merge i.metadata extra }).after <| onOk fun i =>
        (initializeInstance settings profile i).after <| onOk f) =
      (startedInstance settings profile decision gpus extra).after (onOk f) := by
  rw [startedInstance, after_onOk_assoc]
  simp only [after_onOk_assoc]

/-- A plan, and the acting on it. -/
def planAct (settings : LifecycleSettings) (queueLengths : Dict String ℤ)
    (contextPlans : Dict String ContextPlan) : Service (List ModelPlan) :=
  (plan settings queueLengths contextPlans).after <| onOk fun plans =>
    (forEach (actOnModel settings contextPlans) plans).after <| onOk fun _ => pure plans

/-- The model that an allocation asks for. -/
def requestedModel (payload : Mapping) : String :=
  PyText.strip ((payload.get "model").or (.str "")).toStr

/-- The variants of the configured profiles are in `G`. -/
def Configures (settings : LifecycleSettings) (G : ModelProfile → Prop) : Prop :=
  ∀ p ∈ settings.profiles.list, ∀ q, Variant p q → G q

/-- The variants of the profile that an allocation finds are in `G`. -/
def Allocates (settings : LifecycleSettings) (G : ModelProfile → Prop) (payload : Mapping) : Prop :=
  requestedModel payload ≠ "" → ∀ found,
    resolveProfile settings (requestedModel payload) (allocationOverrides payload) = .ok found →
      ∀ q, Variant found.1 q → G q

/-- The parts that the operations are made of. -/
structure Blocks (settings : LifecycleSettings) (G : ModelProfile → Prop)
    (Keep : (α : Type) → Service α → (α → Prop) → Prop) : Prop extends Frame Keep where
  sync : Keep _ (syncLiveLmstudioState settings) fun _ => True
  stopIdle : ∀ queueLengths profiles, (∀ p ∈ profiles, StopsWith settings p) →
    Keep _ (stopIdleInstances settings queueLengths profiles) fun _ => True
  purge : ∀ ttlSeconds, Keep _ (purgeStaleInstances ttlSeconds) fun _ => True
  act : ∀ queueLengths contextPlans, Keep _ (planAct settings queueLengths contextPlans)
    fun _ => True
  started : ∀ profile decision gpus extra, G profile → Extra extra →
    Keep _ (startedInstance settings profile decision gpus extra) fun _ => True

variable {Keep : (α : Type) → Service α → (α → Prop) → Prop} {G : ModelProfile → Prop}

namespace Frame

lemma bind (F : Frame Keep) {p : Service α} {k : α → Service β} {M : α → Prop} {T : β → Prop}
    (hp : Keep _ p M) (hk : ∀ a, M a → Keep _ (k a) T) : Keep _ (p.after (onOk k)) T := by
  refine F.seq _ _ _ _ _ _ hp fun x hx => ?_
  cases x with
  | ok a => exact hk a (hx a rfl)
  | error e => exact F.done _ _ _ fun _ h => by cases h

/-- The results are left out. -/
lemma any (F : Frame Keep) {p : Service α} {M : α → Prop} (hp : Keep _ p M) :
    Keep _ p fun _ => True := by
  rw [← after_done_right p]
  exact F.seq _ _ _ _ _ _ hp fun x _ => F.done _ x _ fun _ _ => trivial

lemma result (F : Frame Keep) (x : Except Exn α) : Keep _ (lift x : Service α) fun _ => True :=
  F.done _ x _ fun _ _ => trivial

lemma forEach (F : Frame Keep) {f : α → Service Unit} (h : ∀ a, Keep _ (f a) fun _ => True)
    (l : List α) : Keep _ (Coro.forEach f l) fun _ => True := by
  induction l with
  | nil => exact F.result _
  | cons a l ih => exact F.bind (h a) fun _ _ => ih

lemma plan (F : Frame Keep) (queueLengths : Dict String ℤ)
    (contextPlans : Dict String ContextPlan) :
    Keep _ (plan settings queueLengths contextPlans) fun _ => True :=
  F.bind F.gpus fun gpus _ => F.any
    (F.ticking _ _ _ (Ticking.mapEach (ticking_planModel gpus queueLengths contextPlans) _))

lemma actOnModel (F : Frame Keep) (hG : Configures settings G)
    (hreload : ∀ profile decision gpus, G profile →
      Keep _ (reloadInstance settings profile decision gpus) fun _ => True)
    (hstarted : ∀ profile decision gpus, G profile →
      Keep _ (startedInstance settings profile decision gpus []) fun _ => True)
    (contextPlans : Dict String ContextPlan) (modelPlan : ModelPlan) :
    Keep _ (actOnModel settings contextPlans modelPlan) fun _ => True := by
  unfold Lifecycle.actOnModel
  split
  · exact F.result _
  next configured hfound =>
  have hmem := List.mem_of_find?_eq_some hfound
  refine F.bind (F.ticking _ _ _ (ticking_profileWithLmstudioEstimate _)) fun profile hprofile => ?_
  have hprofile := hG configured hmem profile ((variant_profileWithContextPlan _ _).trans hprofile)
  refine F.bind F.gpus fun gpus _ => F.forEach (fun decision => ?_) _
  unfold actOn
  split
  · exact hreload profile decision gpus hprofile
  · split
    · exact F.result _
    · rw [started_unit]
      exact F.bind (hstarted profile decision gpus hprofile) fun _ _ => F.result _
  · exact F.result _

lemma act (F : Frame Keep) (hG : Configures settings G)
    (hreload : ∀ profile decision gpus, G profile →
      Keep _ (reloadInstance settings profile decision gpus) fun _ => True)
    (hstarted : ∀ profile decision gpus, G profile →
      Keep _ (startedInstance settings profile decision gpus []) fun _ => True)
    (queueLengths : Dict String ℤ) (contextPlans : Dict String ContextPlan) :
    Keep _ (planAct settings queueLengths contextPlans) fun _ => True :=
  F.bind (F.plan queueLengths contextPlans) fun _ _ =>
    F.bind (F.forEach (F.actOnModel hG hreload hstarted contextPlans) _) fun _ _ => F.result _

end Frame

namespace Blocks

lemma reconcile (B : Blocks settings G Keep) (queueLengths : Dict String ℤ)
    (contextPlans : Dict String ContextPlan) :
    Keep _ (reconcile settings queueLengths contextPlans) fun _ => True :=
  B.bind B.sync fun _ _ => B.bind (B.stopIdle _ _ fun _ hp => Or.inl hp) fun _ _ => B.act _ _

lemma cleanup (B : Blocks settings G Keep) (queueLengths : Dict String ℤ) :
    Keep _ (cleanup settings queueLengths) fun _ => True := by
  refine B.get _ _ _ fun s => B.bind (B.done _ _ (fun l => ∀ p ∈ l, StopsWith settings p) ?_)
    fun l hl => ?_
  · exact fun l hl => withDynamicProfiles_stopsWith hl (List.Subset.refl _) fun _ hp => Or.inl hp
  · refine B.bind (B.stopIdle _ _ hl) fun _ _ => B.bind (B.result _) fun ttl _ => ?_
    exact B.bind (B.purge ttl) fun _ _ => B.result _

lemma allocate (B : Blocks settings G Keep) {payload : Mapping}
    (hG : Allocates settings G payload) :
    Keep _ (allocate settings payload) fun _ => True := by
  dsimp only [Lifecycle.allocate]
  split
  · exact B.result _
  next hmodel =>
  refine B.bind (B.done _ _ (fun found => ∀ q, Variant found.1 q → G q) fun found hfound =>
    hG hmodel found hfound) fun found hfound => B.get _ _ _ fun s => ?_
  split
  · exact B.result _
  refine B.bind (B.ticking _ _ _ (ticking_enrichProfileFromLmstudioMetadata _ _ _))
    fun enriched he => ?_
  refine B.bind (M := fun _ => True) ?_ fun _ _ => B.bind B.gpus fun gpus _ =>
    B.get _ _ _ fun s => ?_
  · split
    · exact B.models _
    · exact B.result _
  dsimp only
  split
  · exact B.result _
  · rw [started_result]
    exact B.bind (B.started _ _ _ _ (hfound _ he.1) he.2) fun _ _ => B.result _

end Blocks

/-! ### Tokens -/

section Tokens

variable {H : Holding LifecycleState LifecycleCall LifecycleCall.Answer Exn K} {k : K}
  {A : K → LifecycleState → LifecycleState → Prop}

/-- Anything may wait with the token `k` wherever `A` holds, and then `A` holds again. -/
structure Resting (H : Holding LifecycleState LifecycleCall LifecycleCall.Answer Exn K) (k : K)
    (A : K → LifecycleState → LifecycleState → Prop) : Prop where
  suspends : H.suspends = LifecycleCall.suspends
  allowed : ∀ c r s, H.allowed c r s → allowed c r s
  marks : ∀ α p, H.marks k α p
  own : ∀ k₀ s₀ s, A k₀ s₀ s → H.own k₀ s₀ k s
  resumes : ∀ s, H.resumes k s → A k s s
  calm : ∀ k₀ s₀, Calm (fun _ => False) (A k₀ s₀)

/-- `p` keeps `A`, and its normal results are in `M`. -/
def Within (H : Holding LifecycleState LifecycleCall LifecycleCall.Answer Exn K)
    (A : K → LifecycleState → LifecycleState → Prop) (p : Service α) (M : α → Prop) : Prop :=
  Holds H A p fun x k₀ s₀ s => A k₀ s₀ s ∧ ∀ a, x = .ok a → M a

lemma Within.holds {p : Service α} {M : α → Prop} (h : Within H A p M) : Holds H A p fun _ => A :=
  h.weaken (fun _ _ _ hs => hs) fun _ _ _ _ hs => hs.1

lemma Within.of_holds {p : Service α} (h : Holds H A p fun _ => A) : Within H A p fun _ => True :=
  h.weaken (fun _ _ _ hs => hs) fun _ _ _ _ hs => ⟨hs, fun _ _ => trivial⟩

namespace Resting

lemma of_triple (hA : Resting H k A) {p : Service α}
    {M : Except Exn α → K → LifecycleState → LifecycleState → Prop}
    (h : ∀ k₀ s₀, Triple world (fun _ => False) (A k₀ s₀) p fun x s => M x k₀ s₀ s) :
    Holds H A p M := Holds.of_triple (W := world) hA.suspends.symm hA.allowed h

lemma await (hA : Resting H k A) {c : LifecycleCall} {f : c.Answer → Service α}
    (hc : c.suspends = true)
    (h : ∀ r, Holds H A (f r) fun _ => A) : Holds H A (.call c f) fun _ => A := by
  refine Holds.await (hA.suspends ▸ hc) k (hA.marks _ _) hA.own fun r => ?_
  refine (h r).weaken (fun k₀ s₀ s hs => ?_) fun _ _ _ _ hs => hs
  obtain ⟨rfl, rfl, hs, -⟩ := hs
  exact hA.resumes _ hs

lemma done (x : Except Exn α) : Holds H A (.done x) fun _ => A := Holds.of_done fun _ _ _ hs => hs

lemma frame (hA : Resting H k A) : Frame fun _ p M => Within H A p M where
  done _ x M hM := Holds.of_done fun _ _ _ hs => ⟨hs, hM⟩
  seq _ _ _ _ _ _ hp hk := Holds.seq hp fun x k₀ s₀ s hs => hk x hs.2 k₀ s₀ s hs.1
  get _ f M h := Holds.of_get fun t => (h t).weaken (fun _ _ _ hs => hs.2) fun _ _ _ _ hs => hs
  ticking _ _ _ h := hA.of_triple fun k₀ s₀ => h _ _ (hA.calm k₀ s₀)
  gpus := Within.of_holds (hA.await rfl fun r => done r)
  models profile := by
    refine Within.of_holds ?_
    unfold verifyModelAvailable
    split
    · exact done _
    · split
      · exact done _
      · exact hA.await rfl fun r => done _

/-- A reload stops a record, and starts and initializes another instance. -/
lemma reload (hA : Resting H k A) (hkeyed : ∀ k₀ s₀ s, A k₀ s₀ s → Keyed s)
    (hdrain : ∀ k₀ s₀ id, Marked id (· = .draining) (A k₀ s₀))
    (hstop : ∀ k₀ s₀ profile i, G profile → Triple world (fun _ => False)
      (fun s => A k₀ s₀ s ∧ StopOf s i) (stopInstance settings profile i) fun _ s => A k₀ s₀ s)
    (hstarted : ∀ profile decision gpus, G profile →
      Within H A (startedInstance settings profile decision gpus []) fun _ => True)
    (profile : ModelProfile) (decision : PlacementDecision) (gpus : List GpuState)
    (hG : G profile) :
    Within H A (reloadInstance settings profile decision gpus) fun _ => True := by
  have F := hA.frame
  unfold reloadInstance
  split
  · exact F.result _
  next id _ =>
  -- the record as the reload reads it
  have hread : Holds H A ((getInstance id).after <| onOk fun record =>
      instanceWithLiveLmstudioShape profile record) fun x k₀ s₀ s => A k₀ s₀ s ∧ ∀ i, x = .ok i →
        ∃ record, s.registry.get? i.instanceId = some record ∧ Reshaped record i := by
    refine hA.of_triple fun k₀ s₀ => triple_getInstance (fun record => ?_) fun _ hs _ =>
      ⟨hs, fun _ h => by cases h⟩
    have hcalm : Calm (fun _ => False) fun s => A k₀ s₀ s ∧ s.registry.get? id = some record :=
      ⟨fun s t hs ht => ⟨(hA.calm k₀ s₀).tick s t hs.1 ht, hs.2⟩, fun _ _ _ hn => hn.elim⟩
    refine (ticking_instanceWithLiveLmstudioShape profile record _ _ hcalm).weaken (fun _ hs => hs)
      fun x s hs => ⟨hs.1.1, fun i hi => ⟨record, ?_, hs.2 i hi⟩⟩
    rw [(hs.2 i hi).instanceId, hkeyed k₀ s₀ s hs.1.1 id record hs.1.2, hs.1.2]
  rw [← after_onOk_assoc]
  refine hread.bind (fun i => ?_) fun e k₀ s₀ s hs => ⟨hs.1, fun _ h => by cases h⟩
  have hleave : ∀ {p : Service Unit}, Within H A p (fun _ => True) →
      Holds H (fun k₀ s₀ s => A k₀ s₀ s ∧ ∀ j, Except.ok (ε := Exn) i = .ok j →
        ∃ record, s.registry.get? j.instanceId = some record ∧ Reshaped record j) p
        fun x k₀ s₀ s => A k₀ s₀ s ∧ ∀ a, x = .ok a → True :=
    fun hp => Holds.weaken hp (fun _ _ _ hs => hs.1) fun _ _ _ _ hs => hs
  split
  · refine hleave ?_
    split
    · exact F.result _
    · refine F.bind (Within.of_holds (hA.of_triple fun k₀ s₀ => ?_)) fun _ _ => F.result _
      exact triple_markState (hdrain k₀ s₀ _) rfl
  next hactive =>
  split
  · exact hleave (F.result _)
  · refine Holds.bind (M := fun _ => A) ?_ (fun _ => ?_) fun _ _ _ _ hs =>
      ⟨hs, fun _ h => by cases h⟩
    · exact Holds.of_triple (W := world) hA.suspends.symm hA.allowed fun k₀ s₀ =>
        (hstop k₀ s₀ profile i hG).weaken (fun s hs => ⟨hs.1, hs.2 i rfl, hactive⟩) fun _ _ hs => hs
    · rw [started_unit]
      exact F.bind (hstarted profile decision gpus hG) fun _ _ => F.result _

/-- The operations keep `A`, where their parts keep it. -/
lemma blocks (hA : Resting H k A) (hG : Configures settings G)
    (hsync : ∀ k₀ s₀, SyncKeeps settings (A k₀ s₀)) (hpurge : ∀ k₀ s₀, PurgeKeeps (A k₀ s₀))
    (hidle : ∀ k₀ s₀, IdleStopsKeep settings (A k₀ s₀))
    (hdrain : ∀ k₀ s₀ id, Marked id (· = .draining) (A k₀ s₀))
    (hstop : ∀ k₀ s₀, StopKeeps settings (A k₀ s₀))
    (hstarted : ∀ profile decision gpus extra, G profile → Extra extra →
      Within H A (startedInstance settings profile decision gpus extra) fun _ => True) :
    Blocks settings G fun _ p M => Within H A p M where
  toFrame := hA.frame
  sync := Within.of_holds (hA.of_triple fun k₀ s₀ => triple_syncLiveLmstudioState (hsync k₀ s₀))
  stopIdle queueLengths profiles hprofiles := Within.of_holds (hA.of_triple fun k₀ s₀ =>
    hidle k₀ s₀ queueLengths profiles hprofiles)
  purge ttlSeconds := Within.of_holds (hA.of_triple fun k₀ s₀ =>
    triple_purgeStaleInstances (hpurge k₀ s₀) ttlSeconds)
  act := hA.frame.act hG
    (hA.reload (fun k₀ s₀ => (hsync k₀ s₀).keyed) hdrain
      (fun k₀ s₀ profile i _ => hstop k₀ s₀ profile i)
      fun profile decision gpus hprofile => hstarted profile decision gpus [] hprofile extra_nil)
    fun profile decision gpus hprofile => hstarted profile decision gpus [] hprofile extra_nil
  started := hstarted

end Resting

end Tokens

end Orchestrator.Lifecycle
