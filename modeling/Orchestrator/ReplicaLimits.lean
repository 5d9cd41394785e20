import Orchestrator.ReplicaSlots

/-!
The bound on the active instances of a model, in every interleaving of reconciles and allocations.

A reconcile counts active instances before it starts one; an allocation only looks for a ready one.
Both decide and then wait. The bound holds where no two of them work on one model at a time and an
allocation that finds no ready instance finds fewer active ones than the model may have.
-/

namespace Orchestrator.Lifecycle.Replicas

open Lib Lib.Coro Clock

variable {α : Type} {settings : LifecycleSettings} {owner : String → String} {S : Set String}
  {model : String} {B : Registry → Prop}

/-! ### Reloads and starts -/

lemma holds_of_triple
    {A : Assertion ((models settings owner).within S) → LifecycleState → LifecycleState → Prop}
    {M : Except Exn α → Assertion ((models settings owner).within S) →
      LifecycleState → LifecycleState → Prop} {p : Service α}
    (h : ∀ k₀ s₀, Triple world (fun _ => False) (A k₀ s₀) p fun x s => M x k₀ s₀ s) :
    Holds (holding settings owner S) A p M := Holds.of_triple (W := world) rfl (fun _ _ _ h => h) h

/-- What a decision about the model needs. -/
structure Warranted (settings : LifecycleSettings) (owner : String → String) (model : String)
    (d : PlacementDecision) (r : Registry) : Prop where
  start : d.action = .start → Room settings model r
  reload : d.action = .reload → ∀ id, d.instanceId = some id →
    owner id = model ∧ Slot settings id model r

lemma lasting_warranted (hmodel : model ∈ S) (d : PlacementDecision) :
    Lasting S (Warranted settings owner model d) := fun r r' hr h =>
  ⟨fun hd => lasting_room hmodel r r' hr (h.start hd), fun hd id hid =>
    ⟨(h.reload hd id hid).1, lasting_slot hmodel r r' hr (h.reload hd id hid).2⟩⟩

/-- The record of an instance to be reloaded, in the shape of its load. -/
lemma triple_read {I : LifecycleState → Prop} {id : String} {s₀ : LifecycleState}
    (profile : ModelProfile) :
    Triple world I (Guarded settings owner S B s₀) ((getInstance id).after <| onOk fun record =>
      instanceWithLiveLmstudioShape profile record) fun x s =>
        Guarded settings owner S B s₀ s ∧ ∀ i, x = .ok i → i.instanceId = id := by
  refine triple_getInstance (fun record => ?_) fun _ hs _ => ⟨hs, fun _ h => by cases h⟩
  have hcalm : Calm (fun _ => False) fun s =>
      Guarded settings owner S B s₀ s ∧ s.registry.get? id = some record :=
    ⟨fun s t hs ht => ⟨(guarded_calm s₀).tick s t hs.1 ht, hs.2⟩, fun _ _ _ hn => hn.elim⟩
  refine (ticking_instanceWithLiveLmstudioShape profile record _ _ hcalm).weaken (fun _ hs => hs)
    fun x s hs => ⟨hs.1.1, fun i hi => ?_⟩
  exact (hs.2 i hi).instanceId.trans (hs.1.1.1.keyed id record hs.1.2)

/-- **A reload** stops one instance of the model and starts another. -/
theorem holds_reload {profile : ModelProfile} (hname : profile.publicName = model)
    (hmodel : model ∈ S) (hB : Lasting (S \ {model}) B) (decision : PlacementDecision)
    (gpus : List GpuState) :
    Holds (holding settings owner S)
      (fun _ => Guarded settings owner S fun r => (∀ id, decision.instanceId = some id →
        owner id = model ∧ Slot settings id model r) ∧ B r)
      (reloadInstance settings profile decision gpus) fun _ _ => Guarded settings owner S B := by
  unfold reloadInstance
  split
  · exact Holds.of_done fun _ _ _ hs => ⟨hs.1, fun ho => (hs.2 ho).2⟩
  next id hid =>
  have hid := (Option.filter_eq_some_iff.mp hid).1
  have hforget : ∀ s₀ s, Guarded settings owner S (Seated settings owner id model B) s₀ s →
      Guarded settings owner S B s₀ s := fun _ _ hs => ⟨hs.1, fun ho => (hs.2 ho).2.2⟩
  refine Holds.weaken (B := fun _ => Guarded settings owner S (Seated settings owner id model B)) ?_
    (fun _ _ s hs => ⟨hs.1, fun ho => ?_⟩) fun _ _ _ _ hs => hs
  · rw [← after_onOk_assoc]
    refine (holds_of_triple fun _ _ => triple_read profile).bind (fun i => ?_)
      fun e _ _ _ hs => hforget _ _ hs.1
    intro k₀ s₀ s hs
    obtain ⟨hs, hi⟩ := hs
    obtain rfl := hi i rfl
    refine Holds.weaken (B := fun _ =>
      Guarded settings owner S (Seated settings owner i.instanceId model B)) ?_
      (fun _ _ _ hs => hs) (fun _ _ _ _ hs => hs) k₀ s₀ s hs
    split
    · split
      · exact Holds.of_done fun _ _ _ hs => hforget _ _ hs
      · refine (holds_of_triple fun _ s₀ => triple_markState (guarded_marked hmodel hB
          (fun _ => True) s₀) trivial).bind (fun _ => Holds.of_done fun _ _ _ hs => hforget _ _ hs)
          fun _ _ _ _ hs => hforget _ _ hs
    split
    · exact Holds.of_done fun _ _ _ hs => hforget _ _ hs
    refine (holds_of_triple fun _ _ => triple_stopFrees hmodel hB profile i).bind (fun _ => ?_)
      fun _ _ _ _ hs => hforget _ _ hs.1
    rw [started_unit]
    refine Holds.bind (M := fun _ _ => Guarded settings owner S B) ?_
      (fun _ => Holds.of_done fun _ _ _ hs => hs) fun _ _ _ _ hs => hs
    exact (holds_started hname hmodel hB decision gpus []).weaken
      (fun _ _ s hs => ⟨hs.1.1, fun ho => ⟨hs.2 _ rfl ho, (hs.1.2 ho).2.2⟩⟩) fun _ _ _ _ hs => hs
  · obtain ⟨howner, hslot⟩ := (hs.2 ho).1 id hid
    exact ⟨howner, hslot, (hs.2 ho).2⟩

lemma holds_actOn {profile : ModelProfile} (hname : profile.publicName = model)
    (hmodel : model ∈ S) (hB : Lasting (S \ {model}) B) (d : PlacementDecision)
    (gpus : List GpuState) :
    Holds (holding settings owner S)
      (fun _ => Guarded settings owner S fun r => Warranted settings owner model d r ∧ B r)
      (actOn settings profile gpus d) fun _ _ => Guarded settings owner S B := by
  unfold actOn
  split
  · next hd =>
    exact (holds_reload hname hmodel hB d gpus).weaken
      (fun _ _ s hs => ⟨hs.1, fun ho => ⟨(hs.2 ho).1.reload hd, (hs.2 ho).2⟩⟩) fun _ _ _ _ hs => hs
  · next hd =>
    split
    · exact Holds.of_done fun _ _ _ hs => ⟨hs.1, fun ho => (hs.2 ho).2⟩
    · rw [started_unit]
      refine Holds.bind (M := fun _ _ => Guarded settings owner S B) ?_
        (fun _ => Holds.of_done fun _ _ _ hs => hs) fun _ _ _ _ hs => hs
      exact (holds_started hname hmodel hB d gpus []).weaken
        (fun _ _ s hs => ⟨hs.1, fun ho => ⟨(hs.2 ho).1.start hd, (hs.2 ho).2⟩⟩) fun _ _ _ _ hs => hs
  · exact Holds.of_done fun _ _ _ hs => ⟨hs.1, fun ho => (hs.2 ho).2⟩

/-! ### Plans -/

/-- A decision fits the registry that it was made for. -/
structure Fits (r : Registry) (profile : ModelProfile) (d : PlacementDecision) : Prop where
  start : d.action = .start →
    ((r.activeForModel profile.publicName).length : ℤ) < profile.maxReplicas
  reload : d.action = .reload →
    ∃ i ∈ r.activeForModel profile.publicName, d.instanceId = some i.instanceId

/-- At most one decision about the model, which fits. -/
structure FitPlan (r : Registry) (profile : ModelProfile) (p : ModelPlan) : Prop where
  model : p.model = profile.publicName
  single : p.decisions.length ≤ 1
  fits : ∀ d ∈ p.decisions, Fits r profile d

lemma ticking_reloadDecision_of {N : Note → Prop} (profile : ModelProfile) (plan : ContextPlan)
    (l : List BackendInstance) : Ticking N (reloadDecision profile plan l) fun o =>
      ∀ d, o = some d → d.action ≠ .start ∧ ∃ i ∈ l, d.instanceId = some i.instanceId := by
  induction l with
  | nil => exact Ticking.pure fun _ h => by cases h
  | cons i rest ih =>
    have hrest := ih.mono fun o ho d hd => (ho d hd).imp_right fun ⟨j, hj, hid⟩ =>
      (⟨j, List.mem_cons_of_mem i hj, hid⟩ : ∃ j ∈ i :: rest, d.instanceId = some j.instanceId)
    have hown : ∀ action reason c n, action ≠ .start →
        ∀ d, some (shapeDecision profile i action reason c n plan) = some d →
          d.action ≠ .start ∧ ∃ j ∈ i :: rest, d.instanceId = some j.instanceId := by
      intro action reason c n haction d hd
      cases hd
      exact ⟨haction, i, List.mem_cons_self, rfl⟩
    rw [reloadDecision]
    split
    · exact hrest
    refine (ticking_lift _).bind fun _ _ => (ticking_lift _).bind fun _ _ => ?_
    dsimp only
    split
    · split
      · exact Ticking.pure (hown _ _ _ _ fun h => by cases h)
      · exact hrest
    refine Ticking.bind (G := fun _ => True) ?_ fun satisfied _ => ?_
    · split
      · exact Ticking.pure trivial
      · exact ticking_reloadDwellSatisfied profile i
    · split
      · exact Ticking.pure (hown _ _ _ _ fun h => by cases h)
      · exact Ticking.pure (hown _ _ _ _ fun h => by cases h)

lemma chooseGpu_action (profile : ModelProfile) (gpus : List GpuState) (r : Registry) :
    (chooseGpu profile gpus r).action ≠ .reload := by
  dsimp only [chooseGpu]
  split <;> exact fun h => by cases h

/-- At most one decision; a start is decided below the desired count, a reload for an active
instance. -/
def Justified (activeInstances : List BackendInstance) (desiredCount : ℤ)
    (decisions : List PlacementDecision) : Prop :=
  decisions.length ≤ 1 ∧ ∀ d ∈ decisions,
    (d.action = .start → (activeInstances.length : ℤ) < desiredCount) ∧
    (d.action = .reload → ∃ i ∈ activeInstances, d.instanceId = some i.instanceId)

lemma Justified.single {l : List BackendInstance} {n : ℤ} {d : PlacementDecision}
    (hstart : d.action = .start → (l.length : ℤ) < n)
    (hreload : d.action = .reload → ∃ i ∈ l, d.instanceId = some i.instanceId) :
    Justified l n [d] := by
  refine ⟨le_refl 1, fun d' hd => ?_⟩
  obtain rfl := List.mem_singleton.mp hd
  exact ⟨hstart, hreload⟩

lemma ticking_decide_of {N : Note → Prop} (profile : ModelProfile) (gpus : List GpuState)
    (r : Registry) (activeInstances : List BackendInstance) (desiredCount queueLength : ℤ)
    (contextPlan : Option ContextPlan) :
    Ticking N (decide profile gpus r activeInstances desiredCount queueLength contextPlan)
      (Justified activeInstances desiredCount) := by
  have hsatisfied : Justified activeInstances desiredCount
      (if desiredCount = activeInstances.length then
        [modelDecision profile .noop "desired_replicas_satisfied" contextPlan] else []) := by
    split
    · exact .single (fun h => by cases h) fun h => by cases h
    · exact ⟨Nat.zero_le 1, fun d hd => absurd hd List.not_mem_nil⟩
  dsimp only [decide]
  split
  · exact Ticking.pure (.single (fun h => by cases h) fun h => by cases h)
  split
  · next hbelow =>
    exact Ticking.pure (.single (fun _ => hbelow) fun h => absurd h (chooseGpu_action _ _ _))
  split
  · refine Ticking.bind (G := fun o => ∀ d, o = some d → d.action ≠ .start ∧
      ∃ i ∈ activeInstances, d.instanceId = some i.instanceId) ?_ fun o ho => ?_
    · unfold reloadDecisionForContextPlan
      split
      · exact Ticking.pure fun _ h => by cases h
      · split
        · exact Ticking.pure fun _ h => by cases h
        · exact ticking_reloadDecision_of _ _ _
    · cases o with
      | some d =>
        exact Ticking.pure (.single (fun h => absurd h (ho _ rfl).1) fun _ => (ho _ rfl).2)
      | none => exact Ticking.pure hsatisfied
  · exact Ticking.pure hsatisfied

lemma variant_maxReplicas {p q : ModelProfile} (h : Variant p q) :
    q.maxReplicas = p.maxReplicas := by
  obtain ⟨_, _, _, rfl⟩ := h
  rfl

lemma variant_publicName {p q : ModelProfile} (h : Variant p q) :
    q.publicName = p.publicName := by
  obtain ⟨_, _, _, rfl⟩ := h
  rfl

lemma exists_reshaped {l bs : List BackendInstance} (h : List.Forall₂ Reshaped l bs)
    {j : BackendInstance} (hj : j ∈ bs) : ∃ i ∈ l, Reshaped i j := by
  induction h with
  | nil => exact absurd hj List.not_mem_nil
  | cons hij _ ih =>
    rcases List.mem_cons.mp hj with rfl | hj
    · exact ⟨_, List.mem_cons_self, hij⟩
    · obtain ⟨i, hi, hij⟩ := ih hj
      exact ⟨i, List.mem_cons_of_mem _ hi, hij⟩

/-- The plan of a model fits the registry. -/
lemma triple_planModel {I A : LifecycleState → Prop} {r : Registry}
    (hA : Calm (fun _ => False) A) (hr : ∀ s, A s → s.registry = r) (gpus : List GpuState)
    (queueLengths : Dict String ℤ) (contextPlans : Dict String ContextPlan)
    (profile : ModelProfile) :
    Triple world I A (planModel gpus queueLengths contextPlans profile)
      fun x s => A s ∧ ∀ p, x = .ok p → FitPlan r profile p := by
  have hend : ∀ e : Exn, ∀ p : ModelPlan, Except.error e = .ok p → FitPlan r profile p :=
    fun _ _ h => by cases h
  dsimp only [planModel]
  refine (ticking_profileWithLmstudioEstimate _ I A hA).bind (fun effective => ?_)
    fun e s hs => ⟨hs.1, hend e⟩
  refine Triple.of_get fun u => ?_
  refine Triple.weaken (B := fun s => A s ∧ u.registry = r ∧ Variant profile effective) ?_
    (fun s hs => ?_) fun _ _ hs => hs
  · have hcalm : Calm (fun _ => False) fun s =>
        A s ∧ u.registry = r ∧ Variant profile effective :=
      ⟨fun s t hs ht => ⟨hA.tick s t hs.1 ht, hs.2⟩, fun _ _ _ hn => hn.elim⟩
    refine ((Ticking.mapEach₂ (R := Reshaped)
      (ticking_instanceWithLiveLmstudioShape effective) _) I _ hcalm).bind (fun active => ?_)
      fun e s hs => ⟨hs.1.1, hend e⟩
    intro s₀ s hs
    obtain ⟨⟨hs, rfl, hvariant⟩, hactive⟩ := hs
    have hactive := hactive active rfl
    refine ((ticking_decide_of _ _ _ _ _ _ _ I A hA).bind (fun decisions => Triple.of_done
      fun t ht => ⟨ht.1, fun p hp => ?_⟩) fun e t ht => ⟨ht.1, hend e⟩) s₀ s hs
    cases hp
    obtain ⟨hsingle, hdecisions⟩ := ht.2 decisions rfl
    refine ⟨rfl, hsingle, fun d hd => ⟨fun hstart => ?_, fun hreload => ?_⟩⟩
    · have hlt := (hdecisions d hd).1 hstart
      rw [← hactive.length_eq] at hlt
      exact (lt_of_lt_of_le hlt (min_le_left _ _)).trans_eq (variant_maxReplicas hvariant)
    · obtain ⟨j, hj, hid⟩ := (hdecisions d hd).2 hreload
      obtain ⟨i, hi, hij⟩ := exists_reshaped hactive hj
      exact ⟨i, hi, hid.trans (congrArg some hij.instanceId)⟩
  · obtain ⟨rfl, hs, hvariant⟩ := hs
    exact ⟨hs, hr _ hs, (variant_profileWithContextPlan _ _).trans (hvariant effective rfl)⟩

/-! ### Acting on plans -/

/-- What the plans that are left need. -/
def Todo (settings : LifecycleSettings) (owner : String → String) (plans : List ModelPlan)
    (r : Registry) : Prop :=
  ∀ p ∈ plans, ∀ d ∈ p.decisions, Warranted settings owner p.model d r

lemma lasting_todo {T : Set String} {plans : List ModelPlan} (h : ∀ p ∈ plans, p.model ∈ T) :
    Lasting T (Todo settings owner plans) :=
  fun r r' hr hB p hp d hd => lasting_warranted (h p hp) d r r' hr (hB p hp d hd)

/-- Plans of different models in `S`, with at most one decision each. -/
def Ordered (S : Set String) (plans : List ModelPlan) : Prop :=
  (plans.map ModelPlan.model).Nodup ∧ ∀ p ∈ plans, p.model ∈ S ∧ p.decisions.length ≤ 1

lemma holds_actOnModel {p : ModelPlan} {plans : List ModelPlan} (h : Ordered S (p :: plans))
    (contextPlans : Dict String ContextPlan) :
    Holds (holding settings owner S)
      (fun _ => Guarded settings owner S (Todo settings owner (p :: plans)))
      (actOnModel settings contextPlans p)
      fun _ _ => Guarded settings owner S (Todo settings owner plans) := by
  obtain ⟨hnodup, hplans⟩ := h
  rw [List.map_cons, List.nodup_cons] at hnodup
  have hlast : Lasting S (Todo settings owner (p :: plans)) :=
    lasting_todo fun q hq => (hplans q hq).1
  rw [List.forall_mem_cons] at hplans
  obtain ⟨⟨hmodel, hsingle⟩, hplans⟩ := hplans
  have hrest : Lasting (S \ {p.model}) (Todo settings owner plans) := lasting_todo fun q hq =>
    ⟨(hplans q hq).1, fun h => hnodup.1 (h ▸ List.mem_map_of_mem hq)⟩
  have hforget : ∀ s₀ s, Guarded settings owner S (Todo settings owner (p :: plans)) s₀ s →
      Guarded settings owner S (Todo settings owner plans) s₀ s := fun _ _ hs =>
    ⟨hs.1, fun ho q hq => hs.2 ho q (List.mem_cons_of_mem p hq)⟩
  unfold actOnModel
  split
  · exact Holds.of_done fun _ _ _ hs => hforget _ _ hs
  next configured hfound =>
  have hname : configured.publicName = p.model := by simpa using List.find?_some hfound
  refine (holds_of_triple fun _ s₀ => ticking_profileWithLmstudioEstimate _ _ _
    (guarded_still s₀)).bind (fun profile => ?_) fun _ _ _ _ hs => hforget _ _ hs.1
  intro k₀ s₀ s hs
  obtain ⟨hs, hvariant⟩ := hs
  have hname : profile.publicName = p.model := (variant_publicName
    ((variant_profileWithContextPlan _ _).trans (hvariant profile rfl))).trans hname
  have hgpus : Holds (holding settings owner S)
      (fun _ => Guarded settings owner S (Todo settings owner (p :: plans))) gpuStates
      fun _ _ => Guarded settings owner S (Todo settings owner (p :: plans)) :=
    (resting_claim hlast).frame.gpus.holds
  refine hgpus.bind (fun gpus => ?_) (fun _ _ _ _ hs => hforget _ _ hs) k₀ s₀ s hs
  cases hd : p.decisions with
  | nil => exact Holds.of_done fun _ _ _ hs => hforget _ _ hs
  | cons d l =>
    obtain rfl : l = [] := by
      rw [hd] at hsingle
      simpa using hsingle
    refine Holds.bind (M := fun _ _ => Guarded settings owner S (Todo settings owner plans)) ?_
      (fun _ => Holds.of_done fun _ _ _ hs => hs) fun _ _ _ _ hs => hs
    refine (holds_actOn hname hmodel hrest d gpus).weaken (fun _ _ s hs => ⟨hs.1, fun ho => ?_⟩)
      fun _ _ _ _ hs => hs
    exact ⟨hs.2 ho p List.mem_cons_self d (by simp [hd]),
      fun q hq => hs.2 ho q (List.mem_cons_of_mem p hq)⟩

lemma holds_acting {plans : List ModelPlan} (h : Ordered S plans)
    (contextPlans : Dict String ContextPlan) :
    Holds (holding settings owner S) (fun _ => Guarded settings owner S (Todo settings owner plans))
      (forEach (actOnModel settings contextPlans) plans)
      fun _ _ s₀ s => Guard settings owner S s₀ s := by
  induction plans with
  | nil => exact Holds.of_done fun _ _ _ hs => hs.1
  | cons p plans ih =>
    have hordered : Ordered S plans := by
      refine ⟨?_, fun q hq => h.2 q (List.mem_cons_of_mem p hq)⟩
      have hnodup := h.1
      rw [List.map_cons, List.nodup_cons] at hnodup
      exact hnodup.2
    exact (holds_actOnModel h contextPlans).bind (fun _ => ih hordered) fun _ _ _ _ hs => hs.1

lemma profiles_get?_self {profile : ModelProfile} (h : profile ∈ settings.profiles.list) :
    settings.profiles.get? profile.publicName = some profile := by
  rw [Profiles.get?]
  cases hf : settings.profiles.list.find? fun p => p.publicName = profile.publicName with
  | none => simpa using List.find?_eq_none.mp hf profile h
  | some q =>
    have hq : q.publicName = profile.publicName := by simpa using List.find?_some hf
    rw [List.inj_on_of_nodup_map settings.profiles.distinct (List.mem_of_find?_eq_some hf) h hq]

lemma replicaLimit_configured {profile : ModelProfile} (h : profile ∈ settings.profiles.list) :
    replicaLimit settings profile.publicName = profile.maxReplicas := by
  rw [replicaLimit, profiles_get?_self h]

/-- A plan that fits the registry is warranted. -/
lemma FitPlan.warranted {profile : ModelProfile} (hprofile : profile ∈ settings.profiles.list)
    {s : LifecycleState} {p : ModelPlan} (h : FitPlan s.registry profile p) (hkeyed : Keyed s)
    (howned : Owned owner s.registry)
    (hlimited : ((activeIds s.registry profile.publicName).card : ℤ) ≤
      replicaLimit settings profile.publicName) {d : PlacementDecision} (hd : d ∈ p.decisions) :
    Warranted settings owner p.model d s.registry := by
  rw [h.model]
  refine ⟨fun hstart => ?_, fun hreload id hid => ?_⟩
  · rw [Room, card_activeIds, replicaLimit_configured hprofile]
    exact (h.fits d hd).start hstart
  · obtain ⟨i, hi, hdi⟩ := (h.fits d hd).reload hreload
    obtain rfl := Option.some.inj (hid.symm.trans hdi)
    obtain ⟨hmem, hactive⟩ := List.mem_filter.mp hi
    rw [Bool.and_eq_true, decide_eq_true_eq] at hactive
    obtain ⟨id', hid'⟩ := Dict.mem_values.mp hmem
    have hget : s.registry.get? i.instanceId = some i := by rw [hkeyed id' i hid', hid']
    exact ⟨(howned _ i hget).symm.trans hactive.1,
      Slot.of_active (mem_activeIds.mpr ⟨i, hget, hactive⟩) hlimited⟩

/-! ### The operations -/

lemma triple_plans {I A : LifecycleState → Prop} {r : Registry} (hA : Calm (fun _ => False) A)
    (hr : ∀ s, A s → s.registry = r) (gpus : List GpuState) (queueLengths : Dict String ℤ)
    (contextPlans : Dict String ContextPlan) (profiles : List ModelProfile) :
    Triple world I A (mapEach (planModel gpus queueLengths contextPlans) profiles)
      fun x s => A s ∧ ∀ plans, x = .ok plans → List.Forall₂ (FitPlan r) profiles plans := by
  induction profiles with
  | nil =>
    refine Triple.of_done fun s hs => ⟨hs, fun plans h => ?_⟩
    cases h
    exact .nil
  | cons profile profiles ih =>
    refine (triple_planModel hA hr gpus queueLengths contextPlans profile).bind (fun p => ?_)
      fun e s hs => ⟨hs.1, fun _ h => by cases h⟩
    intro s₀ s hs
    refine (ih.bind (fun plans => Triple.of_done fun t ht => ⟨ht.1, fun _ h => ?_⟩)
      fun e t ht => ⟨ht.1, fun _ h => by cases h⟩) s₀ s hs.1
    cases h
    exact .cons (hs.2 p rfl) (ht.2 plans rfl)

/-- The plans fit the registry, and together they are warranted. -/
lemma ordered_of_fit {r : Registry} {profiles : List ModelProfile} {plans : List ModelPlan}
    (h : List.Forall₂ (FitPlan r) profiles plans)
    (hdistinct : (profiles.map ModelProfile.publicName).Nodup)
    (hS : ∀ p ∈ profiles, p.publicName ∈ S) : Ordered S plans := by
  have hnames : plans.map ModelPlan.model = profiles.map ModelProfile.publicName := by
    clear hdistinct hS
    induction h with
    | nil => rfl
    | cons hp _ ih => rw [List.map_cons, List.map_cons, hp.model, ih]
  refine ⟨hnames ▸ hdistinct, ?_⟩
  clear hnames hdistinct
  induction h with
  | nil => exact fun _ hp => absurd hp List.not_mem_nil
  | cons hp _ ih =>
    rw [List.forall_mem_cons] at hS ⊢
    exact ⟨⟨hp.model ▸ hS.1, hp.single⟩, ih hS.2⟩

lemma exists_fit {r : Registry} {profiles : List ModelProfile} {plans : List ModelPlan}
    (h : List.Forall₂ (FitPlan r) profiles plans) {p : ModelPlan} (hp : p ∈ plans) :
    ∃ profile ∈ profiles, FitPlan r profile p := by
  induction h with
  | nil => exact absurd hp List.not_mem_nil
  | cons hfit _ ih =>
    rcases List.mem_cons.mp hp with rfl | hp
    · exact ⟨_, List.mem_cons_self, hfit⟩
    · obtain ⟨profile, hprofile, hfit⟩ := ih hp
      exact ⟨profile, List.mem_cons_of_mem _ hprofile, hfit⟩

lemma lasting_true : Lasting S fun _ => True := fun _ _ _ _ => trivial

/-- Planning waits for the GPUs, and then plans at one go. -/
lemma holds_planAct (hS : Configured settings S) (queueLengths : Dict String ℤ)
    (contextPlans : Dict String ContextPlan) :
    Holds (holding settings owner S) (fun _ => Guarded settings owner S fun _ => True)
      (planAct settings queueLengths contextPlans) fun _ _ s₀ s => Guard settings owner S s₀ s := by
  rw [planAct, plan, after_onOk_assoc]
  refine ((resting_claim lasting_true).frame.gpus.holds).bind (fun gpus => ?_)
    fun _ _ _ _ hs => hs.1
  intro k₀ s₀ s hs
  refine Holds.bind (A := fun _ t₀ t => t.registry = s.registry ∧
      Guarded settings owner S (fun _ => True) t₀ t)
    (M := fun x _ t₀ t => (t.registry = s.registry ∧
      Guarded settings owner S (fun _ => True) t₀ t) ∧ ∀ plans, x = .ok plans →
        List.Forall₂ (FitPlan s.registry) settings.profiles.list plans) ?_ (fun plans => ?_)
    (fun _ _ _ _ ht => ht.1.2.1) k₀ s₀ s ⟨rfl, hs⟩
  · refine holds_of_triple fun _ t₀ => triple_plans ?_ (fun _ ht => ht.1) gpus
      queueLengths contextPlans settings.profiles.list
    exact ⟨fun t u ht hu => ⟨ht.1, (guarded_still t₀).tick t u ht.2 hu⟩, fun _ _ _ hn => hn.elim⟩
  · rintro k t₀ t ⟨⟨hr, ht⟩, hfit⟩
    have hfit := hfit plans rfl
    rw [← hr] at hfit
    have hacting : Holds (holding settings owner S)
        (fun _ => Guarded settings owner S (Todo settings owner plans)) _ _ :=
      holds_acting (ordered_of_fit hfit settings.profiles.distinct hS) contextPlans
    refine (hacting.bind (fun _ => Holds.of_done fun _ _ _ hu => hu) fun _ _ _ _ hu => hu) k t₀ t
      ⟨ht.1, fun ho p hp d hd => ?_⟩
    obtain ⟨profile, hprofile, hfit⟩ := exists_fit hfit hp
    exact hfit.warranted hprofile ht.1.keyed ho.1 (ht.1.limited ho _ (hS profile hprofile)) hd

/-- **A reconcile** keeps the limits of the configured models. -/
theorem holds_reconcile (hS : Configured settings S) (queueLengths : Dict String ℤ)
    (contextPlans : Dict String ContextPlan) :
    Holds (holding settings owner S) (fun _ s₀ s => Guard settings owner S s₀ s)
      (reconcile settings queueLengths contextPlans)
      fun _ _ s₀ s => Guard settings owner S s₀ s := by
  refine Holds.bind (M := fun _ _ s₀ s => Guard settings owner S s₀ s) ?_ (fun _ => ?_)
    fun _ _ _ _ hs => hs
  · exact holds_of_triple fun _ s₀ => triple_syncLiveLmstudioState (guard_syncKeeps hS s₀)
  refine Holds.bind (M := fun _ _ s₀ s => Guard settings owner S s₀ s) ?_ (fun _ => ?_)
    fun _ _ _ _ hs => hs
  · refine holds_of_triple fun _ s₀ => triple_stopIdleInstances
      ⟨fun _ t hs _ => hs.tick t, fun _ _ _ hn => hn.elim⟩ (fun _ hs => hs.keyed)
      (fun _ _ _ hs => hs.noted rfl)
      (fun profile hprofile i hmodel hready => ?_) _
    refine (triple_stopFrees (B := fun _ => True) (hS profile hprofile) lasting_true profile
      i).weaken (fun s hs => ⟨hs.1, fun ho => ?_⟩) fun _ _ hs => hs.1.1
    obtain ⟨record, hrecord, hshape⟩ := hs.2.current
    have hname : record.model = profile.publicName := hshape.model.symm.trans hmodel
    refine ⟨(ho.1 _ record hrecord).symm.trans hname, Slot.of_active (mem_activeIds.mpr
      ⟨record, hrecord, hname, ?_⟩) (hs.1.limited ho _ (hS profile hprofile)), trivial⟩
    rw [← hshape.state, hready]
    rfl
  · exact (holds_planAct hS queueLengths contextPlans).weaken
      (fun _ _ _ hs => ⟨hs, fun _ => trivial⟩) fun _ _ _ _ hs => hs

/-- An allocation that finds room starts an instance. -/
theorem holds_allocateNew {profile : ModelProfile} (hname : profile.publicName = model)
    (hmodel : model ∈ S) (dynamicConfig payload : Mapping) :
    Holds (holding settings owner S) (fun _ => Guarded settings owner S (Room settings model))
      (allocateNew settings profile dynamicConfig payload)
      fun _ _ s₀ s => Guard settings owner S s₀ s := by
  have hrest : Resting (holding settings owner S) _
      fun _ => Guarded settings owner S (Room settings model) :=
    resting_claim (lasting_room hmodel)
  unfold allocateNew
  refine (holds_of_triple fun _ s₀ => ticking_enrichProfileFromLmstudioMetadata _ _ _ _ _
    (guarded_still s₀)).bind (fun enriched => ?_) fun _ _ _ _ hs => hs.1.1
  rintro k₀ s₀ s ⟨hs, hvariant⟩
  have hname : enriched.1.publicName = model :=
    (variant_publicName (hvariant enriched rfl).1).trans hname
  refine Holds.bind (A := fun _ => Guarded settings owner S (Room settings model))
    (M := fun _ _ => Guarded settings owner S (Room settings model)) ?_ (fun _ => ?_)
    (fun _ _ _ _ hs => hs.1) k₀ s₀ s hs
  · split
    · exact (hrest.frame.models enriched.1).holds
    · exact Holds.of_done fun _ _ _ hs => hs
  refine hrest.frame.gpus.holds.bind (fun gpus => Holds.of_get fun t => ?_) fun _ _ _ _ hs => hs.1
  dsimp only
  split
  · exact Holds.of_done fun _ _ _ hs => hs.2.1
  · rw [started_result]
    refine Holds.bind (M := fun _ _ => Guarded settings owner S fun _ => True) ?_
      (fun _ => Holds.of_done fun _ _ _ hs => hs.1) fun _ _ _ _ hs => hs.1
    exact (holds_started hname hmodel lasting_true _ gpus enriched.2).weaken
      (fun _ _ _ hs => ⟨hs.2.1, fun ho => ⟨hs.2.2 ho, trivial⟩⟩) fun _ _ _ _ hs => hs

/-! ### The system -/

/-- The calls that may start instances. -/
inductive ScalingCall
  | reconcile (queueLengths : Dict String ℤ) (contextPlans : Dict String ContextPlan)
  | allocate (payload : Mapping)

def ScalingCall.operation : ScalingCall → Operation
  | reconcile queueLengths contextPlans => .reconcile queueLengths contextPlans
  | allocate payload => .allocate payload

/-- The model of the profile that an allocation finds. -/
def allocatedModel (settings : LifecycleSettings) (payload : Mapping) : Option String :=
  if requestedModel payload = "" then none
  else match resolveProfile settings (requestedModel payload) (allocationOverrides payload) with
    | .ok found => some found.1.publicName
    | .error _ => none

/-- The models that a call which begins now may start instances of: a reconcile of those of the
configuration, an allocation of its own, unless one is ready. -/
def startsOf (settings : LifecycleSettings) : ScalingCall → LifecycleState → Set String
  | .reconcile _ _, _ => {m | ∃ p ∈ settings.profiles.list, p.publicName = m}
  | .allocate payload, s =>
    {m | allocatedModel settings payload = some m ∧ s.registry.readyForModel m = []}

/-- The registry and the calls under way, each with the models that it may start instances of. -/
abbrev Scaling :=
  DomainPool (Set String) LifecycleState LifecycleCall LifecycleCall.Answer Exn Unit

abbrev ScalingStep := PoolStep ScalingCall LifecycleCall LifecycleCall.Answer

/-- A registry without records, and a history that begins. -/
def Empty (s : LifecycleState) : Prop := s.registry = Dict.empty ∧ s.log = []

def scalingLts (settings : LifecycleSettings) : Lts Scaling ScalingStep :=
  DomainPool.lts world (fun op => body settings op.operation) (startsOf settings) Empty

/-- A call begins only when none is under way that may start instances of the same model, and an
allocation that finds no ready instance finds fewer active ones than the model may have. -/
def Separate (settings : LifecycleSettings) (T : Scaling) : ScalingStep → Prop
  | .begin op _ => (∀ q ∈ T.waiting, ∀ m ∈ startsOf settings op T.state, m ∉ q.1) ∧
      ∀ payload, op = .allocate payload → ∀ m ∈ startsOf settings op T.state,
        ((T.state.registry.activeForModel m).length : ℤ) < replicaLimit settings m
  | .resume _ _ => True

/-- The profile of a model: the configured one, or one that is made for an allocation. -/
def ProfileOf (settings : LifecycleSettings) (model : String) (profile : ModelProfile) : Prop :=
  settings.profiles.get? model = some profile ∨ settings.profiles.get? model = none ∧
    ∃ overrides, settings.dynamicProfile model overrides = .ok (some profile)

lemma one_le_replicaLimit (h : ∀ p ∈ settings.profiles.list, 1 ≤ p.maxReplicas) (model : String) :
    1 ≤ replicaLimit settings model := by
  unfold replicaLimit
  split
  · next profile hprofile => exact h profile (List.mem_of_find?_eq_some hprofile)
  · exact le_refl 1

/-- Within the limits, as far as the ids are owned. -/
def Bounded (settings : LifecycleSettings) (owner : String → String) (s : LifecycleState) : Prop :=
  Keyed s ∧ (EverOwned owner s →
    ∀ m, ((activeIds s.registry m).card : ℤ) ≤ replicaLimit settings m)

lemma Bounded.guard {s : LifecycleState} (h : Bounded settings owner s) (S : Set String) :
    Guard settings owner S s s := Guard.refl h.1 fun ho m _ => h.2 ho m

lemma Guard.bounded {s₀ s : LifecycleState} (h : Guard settings owner S s₀ s)
    (h₀ : Bounded settings owner s₀) : Bounded settings owner s := by
  refine ⟨h.keyed, fun ho m => ?_⟩
  by_cases hm : m ∈ S
  · exact h.limited ho m hm
  · rw [h.spares ho m hm]
    exact h₀.2 (h.since ho) m

lemma holds_discard {p : Service α}
    {A : Assertion ((models settings owner).within S) → LifecycleState → LifecycleState → Prop}
    (h : Holds (holding settings owner S) A p fun _ _ s₀ s => Guard settings owner S s₀ s) :
    Holds (holding settings owner S) A (discard p) fun _ _ s₀ s => Guard settings owner S s₀ s :=
  h.seq fun _ => Holds.of_done fun _ _ _ hs => hs

lemma eq_nil_of_leastActiveInstance {l : List BackendInstance} (h : leastActiveInstance l = none) :
    l = [] := by
  cases l with
  | nil => rfl
  | cons i l =>
    rw [leastActiveInstance] at h
    split at h
    · cases h
    · split at h <;> cases h

/-- An allocation finds a ready instance, or room for a new one. -/
lemma wph_allocate {payload : Mapping} {s : LifecycleState} (hs : Bounded settings owner s)
    (hnew : ∀ m, allocatedModel settings payload = some m → s.registry.readyForModel m = [] →
      m ∈ S ∧ Room settings m s.registry)
    (k : Assertion ((models settings owner).within S)) :
    (allocate settings payload).wph (holding settings owner S)
      (fun _ _ s₀ s => Guard settings owner S s₀ s) k s s := by
  dsimp only [allocate]
  split
  · exact wph_done.mpr (hs.guard S)
  next hrequested =>
  have hrequested : ¬ requestedModel payload = "" := hrequested
  rw [allocatedModel, if_neg hrequested] at hnew
  rw [lift, after_done]
  change (onOk _ (resolveProfile settings (requestedModel payload)
    (allocationOverrides payload))).wph _ _ k s s
  cases hfound : resolveProfile settings (requestedModel payload) (allocationOverrides payload) with
  | error e => exact wph_done.mpr (hs.guard S)
  | ok found =>
    rw [hfound] at hnew
    rw [onOk_ok, wph_get]
    split
    · exact wph_done.mpr (hs.guard S)
    next hnone =>
    obtain ⟨hmodel, hroom⟩ := hnew _ rfl (eq_nil_of_leastActiveInstance hnone)
    exact holds_allocateNew rfl hmodel _ _ k s s ⟨hs.guard S, fun _ => hroom⟩

/-- **A call** keeps to its models, where an allocation finds a ready instance or room. -/
theorem wpt_call (op : ScalingCall) {s : LifecycleState} (hs : Bounded settings owner s)
    (hnew : ∀ payload, op = .allocate payload → ∀ m ∈ startsOf settings op s,
      ((s.registry.activeForModel m).length : ℤ) < replicaLimit settings m) :
    (body settings op.operation).wpt ((models settings owner).within (startsOf settings op s))
      (fun _ => Guard settings owner (startsOf settings op s)) s s := by
  cases op with
  | reconcile queueLengths contextPlans =>
    have hS : Configured settings (startsOf settings (.reconcile queueLengths contextPlans) s) :=
      fun p hp => ⟨p, hp, rfl⟩
    exact wpt_of_asserting (holds_discard (holds_reconcile hS queueLengths contextPlans)
      (claim settings owner lasting_true) s s (hs.guard _))
  | allocate payload =>
    have hallocate := wph_allocate (S := startsOf settings (.allocate payload) s) hs
      (fun m hm hready => ⟨⟨hm, hready⟩, by
        rw [Room, card_activeIds]
        exact hnew payload rfl m ⟨hm, hready⟩⟩)
      (claim settings owner lasting_true)
    exact wpt_of_asserting (wph_after (wph_mono hallocate fun _ _ _ _ ht => wph_done.mpr ht))

lemma configured_max (hmax : ∀ m p, ProfileOf settings m p → 1 ≤ p.maxReplicas) :
    ∀ p ∈ settings.profiles.list, 1 ≤ p.maxReplicas := fun p hp =>
  hmax p.publicName p (Or.inl (profiles_get?_self hp))

/-- **The active instances** of a model are at most as many as its profile's `max_replicas`, in
every interleaving of separate calls in which no id is given to instances of two models. -/
theorem replicas_bounded (hmax : ∀ m p, ProfileOf settings m p → 1 ≤ p.maxReplicas) {T : Scaling}
    (h : (scalingLts settings).Reachable (Separate settings) T) (howner : EverOwned owner T.state)
    {profile : ModelProfile} (hprofile : ProfileOf settings model profile) :
    ((T.state.registry.activeForModel model).length : ℤ) ≤ profile.maxReplicas := by
  have hconfigured := configured_max hmax
  have hbounded := (DomainPool.reachable_settled (S := models settings owner)
    (I := Bounded settings owner) (fun _ s hs => ⟨hs.1, id, fun _ _ _ => rfl⟩)
    (fun s hs => ?_) (fun _ _ _ hst hs => hst.bounded hs)
    (fun P op calls hP hs => ⟨hP.1, wpt_call op hs hP.2⟩) h).1
  · have hle := hbounded.2 howner model
    rw [card_activeIds] at hle
    refine hle.trans ?_
    rw [replicaLimit]
    rcases hprofile with hprofile | ⟨hnone, hdynamic⟩
    · rw [hprofile]
    · rw [hnone]
      exact hmax model profile (Or.inr ⟨hnone, hdynamic⟩)
  · refine ⟨fun id i hi => ?_, fun _ m => ?_⟩
    · rw [hs.1] at hi
      cases hi
    · have hzero : (activeIds s.registry m).card = 0 := by rw [hs.1]; rfl
      rw [hzero]
      exact le_trans (by decide) (one_le_replicaLimit hconfigured m)

/-! ### Runs -/

/-- One model with one replica, and a GPU with room for two. -/
def oneReplica : LifecycleSettings := settingsFor false (vllmProfile "chat" 8192)

lemma chat_ne_code : (["chat", "code"] : List String).Nodup := by decide

/-- Two models with one replica each. -/
def twoModels : LifecycleSettings :=
  { oneReplica with
    profiles := ⟨[vllmProfile "chat" 8192, vllmProfile "code" 8192], chat_ne_code⟩ }

def roomyGpu : GpuState where
  id := "gpu0"
  index := 0
  memoryFreeMb := 24576

def noCalls : Scaling := ⟨⟨Dict.empty, atSecond 0, []⟩, []⟩

def allocateOf (model : String) : ScalingCall := .allocate [("model", .str model)]

variable (settings) in
def begun (second : Fin 1000) (op : ScalingCall) (T : Scaling) : Scaling :=
  T.beginWith world (fun op => body settings op.operation) (startsOf settings)
    (answersAt (atSecond second) [roomyGpu]) op

def resumed (second : Fin 1000) (n : ℕ) (T : Scaling) : Scaling :=
  T.resumeWith world (answersAt (atSecond second) [roomyGpu]) n

lemma run_begun {A : Scaling → ScalingStep → Prop} (second : Fin 1000) {op : ScalingCall}
    {T : Scaling} (hA : ∀ calls, A T (.begin op calls)) :
    (scalingLts settings).Run A T (begun settings second op T) :=
  DomainPool.run_beginWith (allowed_answersAt _ _) T op hA

lemma run_resumed {A : Scaling → ScalingStep → Prop} (second : Fin 1000) (n : ℕ) {T : Scaling}
    (hA : ∀ answer calls, A T (.resume answer calls)) :
    (scalingLts settings).Run A T (resumed second n T) :=
  DomainPool.run_resumeWith (allowed_answersAt _ _) n T hA

lemma reachable_noCalls {A : Scaling → ScalingStep → Prop} :
    (scalingLts settings).Reachable A noCalls :=
  Lts.Reachable.init ⟨⟨rfl, rfl⟩, rfl⟩

/-- The profiles are in order. -/
def InOrder (settings : LifecycleSettings) : Prop := ∀ m p, ProfileOf settings m p →
  0 ≤ p.minReplicas ∧ p.minReplicas ≤ p.maxReplicas ∧ 1 ≤ p.maxReplicas

lemma inOrder_of_list (hdynamic : ∀ m o, settings.dynamicProfile m o = .ok none)
    (hlist : ∀ p ∈ settings.profiles.list,
      0 ≤ p.minReplicas ∧ p.minReplicas ≤ p.maxReplicas ∧ 1 ≤ p.maxReplicas) :
    InOrder settings := by
  rintro m p (h | ⟨-, o, h⟩)
  · exact hlist p (List.mem_of_find?_eq_some h)
  · rw [hdynamic] at h
    cases h

/-- The instance of `chat` is starting, and that of `code` is entered while its allocation waits. -/
def chatStarting : Scaling := resumed 2 0 (begun twoModels 1 (allocateOf "chat") noCalls)
def bothStarting : Scaling := resumed 4 1 (begun twoModels 3 (allocateOf "code") chatStarting)

/-- An allocation of one model begins while one of the other waits. -/
theorem replicas_bounded_starting : bothStarting.waiting.length = 2 ∧
    ∀ p ∈ twoModels.profiles.list,
      ((bothStarting.state.registry.activeForModel p.publicName).length : ℤ) ≤ p.maxReplicas := by
  have horder : InOrder twoModels := inOrder_of_list (fun _ _ => rfl) (by decide)
  have hmax : ∀ m p, ProfileOf twoModels m p → 1 ≤ p.maxReplicas :=
    fun m p hp => (horder m p hp).2.2
  have hchat : ∀ calls, Separate twoModels noCalls (.begin (allocateOf "chat") calls) := fun _ =>
    ⟨fun q hq => absurd hq List.not_mem_nil, fun _ _ m _ => Int.lt_of_add_one_le
      (one_le_replicaLimit (configured_max hmax) m)⟩
  have hcode : ∀ calls, Separate twoModels chatStarting (.begin (allocateOf "code") calls) := by
    refine fun _ => ⟨fun q hq m hm => ?_, fun payload hpayload m hm => ?_⟩
    · obtain ⟨r, hr, hdomain⟩ := DomainPool.domain_resumeWith hq
      rcases DomainPool.domain_beginWith hr with hr | hr
      · exact absurd hr List.not_mem_nil
      · rw [hdomain, hr]
        have hne : allocatedModel twoModels [("model", .str "code")] ≠
            allocatedModel twoModels [("model", .str "chat")] := by decide +kernel
        exact fun hm' => hne (hm.1.trans hm'.1.symm)
    · cases hpayload
      have hnone : chatStarting.state.registry.activeForModel "code" = [] := by
        rw [← List.isEmpty_iff]
        decide +kernel
      have hm : m = "code" := Option.some.inj (hm.1.symm.trans (by decide +kernel))
      rw [hm, hnone]
      exact Int.lt_of_add_one_le (one_le_replicaLimit (configured_max hmax) "code")
  have hreachable : (scalingLts twoModels).Reachable (Separate twoModels) bothStarting :=
    reachable_noCalls.run ((((run_begun 1 hchat).trans (run_resumed 2 0 fun _ _ => trivial)).trans
      (run_begun 3 hcode)).trans (run_resumed 4 1 fun _ _ => trivial))
  have howner : EverOwned (fun id => if id.startsWith "chat" then "chat" else "code")
      bothStarting.state := by decide +kernel
  exact ⟨by decide +kernel, fun p hp =>
    replicas_bounded hmax hreachable howner (Or.inl (profiles_get?_self hp))⟩

/-- Two allocations, of which the second begins while the first waits for its instance. -/
def twoStarting : Scaling :=
  resumed 4 1 (begun oneReplica 3 (allocateOf "chat")
    (resumed 2 0 (begun oneReplica 1 (allocateOf "chat") noCalls)))

/-- **Two active instances** of a model that may have one. -/
theorem replicas_exceeded : (scalingLts oneReplica).Reachable Lts.anyStep twoStarting ∧
    (∀ m p, ProfileOf oneReplica m p →
      0 ≤ p.minReplicas ∧ p.minReplicas ≤ p.maxReplicas ∧ 1 ≤ p.maxReplicas) ∧
    ProfileOf oneReplica "chat" (vllmProfile "chat" 8192) ∧
    (vllmProfile "chat" 8192).maxReplicas = 1 ∧
    (twoStarting.state.registry.activeForModel "chat").length = 2 := by
  refine ⟨?_, inOrder_of_list (fun _ _ => rfl) (by decide), Or.inl rfl, rfl, by decide +kernel⟩
  exact reachable_noCalls.run ((((run_begun 1 fun _ => trivial).trans
    (run_resumed 2 0 fun _ _ => trivial)).trans (run_begun 3 fun _ => trivial)).trans
      (run_resumed 4 1 fun _ _ => trivial))

end Orchestrator.Lifecycle.Replicas
