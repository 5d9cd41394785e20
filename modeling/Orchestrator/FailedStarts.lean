import Orchestrator.IdleReplicas

/-!
A start that raises while a plan is acted on. The exception leaves the loop over the models, so
what is planned for later models is not carried out; what the earlier ones did stands, and the
records of all other models are as they would be without the failing one.
-/

namespace Orchestrator.Lifecycle.FailedStarts

open Lib Lib.Coro

abbrev Events := List (Event LifecycleCall LifecycleCall.Answer)

variable (settings : LifecycleSettings) (contextPlans : Dict String ContextPlan)

/-! ### The parts of a reconcile -/

/-- A reconcile up to its plan. -/
def planning (queueLengths : Dict String ℤ) : Service (List ModelPlan) :=
  (syncLiveLmstudioState settings).after <| onOk fun _ =>
    (stopIdleInstances settings queueLengths settings.profiles.list).after <| onOk fun _ =>
      plan settings queueLengths contextPlans

def acting (plans : List ModelPlan) : Service Unit :=
  forEach (actOnModel settings contextPlans) plans

lemma reconcile_eq (queueLengths : Dict String ℤ) :
    reconcile settings queueLengths contextPlans =
      (planning settings contextPlans queueLengths).after (onOk fun plans =>
        (acting settings contextPlans plans).after (onOk fun _ => pure plans)) := by
  simp only [planning, acting, reconcile, after_onOk_assoc]

/-- The profile and the GPUs with which the decisions about a model are acted on. -/
def preparing (modelPlan : ModelPlan) : Service (ModelProfile × List GpuState) :=
  match settings.profiles.get? modelPlan.model with
  | none => raise (.keyError modelPlan.model)
  | some configured =>
    (profileWithLmstudioEstimate
        (profileWithContextPlan configured (contextPlans.get? modelPlan.model))).after <|
      onOk fun profile => gpuStates.after <| onOk fun gpus => pure (profile, gpus)

lemma actOnModel_eq (modelPlan : ModelPlan) : actOnModel settings contextPlans modelPlan =
    (preparing settings contextPlans modelPlan).after (onOk fun c =>
      forEach (actOn settings c.1 c.2) modelPlan.decisions) := by
  unfold actOnModel preparing
  cases settings.profiles.get? modelPlan.model with
  | none => rfl
  | some configured =>
    simp only [after_onOk_assoc]
    rfl

/-- What is done about a decision before an instance is started, if one is: a reload stops the old
one. -/
def clearing (profile : ModelProfile) (decision : PlacementDecision) : Service Bool :=
  match decision.action with
  | .reload =>
    match decision.instanceId.filter (· ≠ "") with
    | none => pure false
    | some instanceId => (getInstance instanceId).after <| onOk fun record =>
      (instanceWithLiveLmstudioShape profile record).after <| onOk fun i =>
        if 0 < i.activeRequests then
          if i.state = .draining then pure false
          else (markState i.instanceId .draining).after <| onOk fun _ => pure false
        else if i.runtime = "lmstudio" && !i.dryRun &&
            !(i.metadata.get "lmstudio_loaded_with_lms").truthy then pure false
        else (stopInstance settings profile i).after <| onOk fun _ => pure true
  | .start => pure (decision.gpuId.filter (· ≠ "")).isSome
  | _ => pure false

/-- The new instance, entered and made ready. -/
def starting (profile : ModelProfile) (gpus : List GpuState) (decision : PlacementDecision) :
    Service Unit :=
  (startInstance settings profile decision gpus).after <| onOk fun i =>
    (upsert i).after <| onOk fun i =>
      (initializeInstance settings profile i).after <| onOk fun _ => pure ()

lemma actOn_eq (profile : ModelProfile) (gpus : List GpuState) (decision : PlacementDecision) :
    actOn settings profile gpus decision =
      (clearing settings profile decision).after (onOk fun go =>
        if go then starting settings profile gpus decision else pure ()) := by
  unfold actOn clearing
  cases decision.action with
  | reload =>
    unfold reloadInstance
    cases decision.instanceId.filter (· ≠ "") with
    | none => rfl
    | some instanceId =>
      simp only [after_onOk_assoc]
      refine congrArg _ (congrArg _ (funext fun record => ?_))
      refine congrArg _ (congrArg _ (funext fun i => ?_))
      split_ifs
      · rfl
      · rw [after_onOk_assoc]
        rfl
      · rfl
      · rw [after_onOk_assoc]
        rfl
  | start => cases decision.gpuId.filter (· ≠ "") <;> rfl
  | noop => rfl
  | rejectOversized => rfl

/-! ### Failing and other models -/

/-- There is a decision to act on. -/
def Acts (p : ModelPlan) : Prop := ∃ d ∈ p.decisions, d.action = .reload ∨
  d.action = .start ∧ (d.gpuId.filter (· ≠ "")).isSome = true

/-- The decisions about `p` are acted on from `u`, and the start of an instance raises `e`. -/
def StartRaises (p : ModelPlan) (u : LifecycleState) (es : Events) (e : Exn)
    (s' : LifecycleState) : Prop :=
  ∃ c v es₁ done d rest w es₂ y es₃ es₄, es = es₁ ++ (es₂ ++ (es₃ ++ es₄)) ∧
    (preparing settings contextPlans p).Runs world.alone u es₁ (.ok c) v ∧
    p.decisions = done ++ d :: rest ∧
    (forEach (actOn settings c.1 c.2) done).Runs world.alone v es₂ (.ok ()) w ∧
    (clearing settings c.1 d).Runs world.alone w es₃ (.ok true) y ∧
    (startInstance settings c.1 d c.2).Runs world.alone y es₄ (.error e) s'

/-- An instance to be reloaded has a record under its id, which is of its model. -/
def OwnReloads (p : ModelPlan) (u : LifecycleState) : Prop :=
  ∀ d ∈ p.decisions, d.action = .reload → ∀ id, d.instanceId = some id →
    ∀ i, u.registry.get? id = some i → i.instanceId = id ∧ i.model = p.model

/-- The loop gets to the plan of `q`, which follows `earlier`, and carries it out. -/
def CarriedOut (earlier : List ModelPlan) (q : ModelPlan) (s : LifecycleState) (es : Events) :
    Prop :=
  ∃ fs gs rest t t', es = fs ++ (gs ++ rest) ∧
    (acting settings contextPlans earlier).Runs world.alone s fs (.ok ()) t ∧
    (actOnModel settings contextPlans q).Runs world.alone t gs (.ok ()) t'

/-- What is planned for the other models is carried out, and their records are as in every run
with the same answers in which there is nothing to do for `p`. -/
structure Isolated (before : List ModelPlan) (p : ModelPlan) (after : List ModelPlan)
    (s : LifecycleState) (es₁ es₂ : Events) (s' : LifecycleState) : Prop where
  carriedOut : ∀ earlier q later, before ++ p :: after = earlier ++ q :: later →
    earlier.length ≠ before.length → Acts q →
      CarriedOut settings contextPlans earlier q s (es₁ ++ es₂)
  records : ∀ fs s'', (acting settings contextPlans
      (before ++ { p with decisions := [] } :: after)).Runs world.alone s (es₁ ++ fs) (.ok ()) s'' →
    ∀ id i, i.model ≠ p.model →
      (s'.registry.get? id = some i ↔ s''.registry.get? id = some i)

variable {settings contextPlans}

lemma StartRaises.run {p : ModelPlan} {u s' : LifecycleState} {es : Events} {e : Exn}
    (h : StartRaises settings contextPlans p u es e s') :
    (actOnModel settings contextPlans p).Runs world.alone u es (.error e) s' := by
  obtain ⟨c, v, es₁, done, d, rest, w, es₂, y, es₃, es₄, rfl, hc, hd, hdone, hclear, hstart⟩ := h
  rw [actOnModel_eq, hd]
  refine hc.next ?_
  rw [forEach_append]
  refine hdone.next ?_
  rw [forEach, actOn_eq]
  exact Runs.raised (hclear.next (Runs.raised hstart))

lemma alone_unique {c : LifecycleCall} {r : c.Answer} {s t u : LifecycleState}
    (h : world.alone c r s t) (h' : world.alone c r s u) : t = u := h.2.trans h'.2.symm

/-! ### What changes -/

/-- The registry is `r`. -/
abbrev Has (r : Registry) (s : LifecycleState) : Prop := s.registry = r

lemma has_calm (N : Note → Prop) (r : Registry) : Calm N (Has r) :=
  ⟨fun _ _ hs _ => hs, fun _ _ hs _ => hs⟩

lemma Ticking.runs {α : Type} {N : Note → Prop} {p : Service α} {G : α → Prop}
    (h : Ticking N p G) {s s' : LifecycleState} {es : Events} {x : Except Exn α}
    (hr : p.Runs world.alone s es x s') :
    s'.registry = s.registry ∧ ∀ a, x = .ok a → G a :=
  (h (Has s.registry) (Has s.registry) (has_calm N _)).runs hr rfl

lemma preparing_runs {p : ModelPlan} {s s' : LifecycleState} {es : Events}
    {x : Except Exn (ModelProfile × List GpuState)}
    (h : (preparing settings contextPlans p).Runs world.alone s es x s') :
    s'.registry = s.registry := by
  unfold preparing at h
  split at h
  · exact congrArg _ (runs_done.mp h).2.2
  obtain ⟨fs, gs, y, t, -, hestimate, h⟩ := runs_after.mp h
  have ht := (Ticking.runs (ticking_profileWithLmstudioEstimate (N := fun _ => True) _) hestimate).1
  cases y with
  | error e => exact (congrArg _ (runs_done.mp h).2.2).trans ht
  | ok profile =>
    obtain ⟨_, _, z, v, -, hgpus, h⟩ := runs_after.mp h
    obtain ⟨_, _, _, -, ⟨-, rfl⟩, hlift⟩ := runs_call.mp hgpus
    have hv := (runs_done.mp hlift).2.2
    have hs' : s' = v := by
      cases z with
      | error e => exact (runs_done.mp h).2.2
      | ok gpus => exact (runs_done.mp h).2.2
    rw [hs', hv, ht]

/-- What is done before a start leaves the records of other models. -/
lemma clearing_runs {p : ModelPlan} {d : PlacementDecision} {profile : ModelProfile}
    {s s' : LifecycleState} {es : Events} (hd : d ∈ p.decisions) (hown : OwnReloads p s)
    (h : (clearing settings profile d).Runs world.alone s es (.ok true) s') (id : String)
    (i : BackendInstance) (hi : i.model ≠ p.model) :
    s'.registry.get? id = some i ↔ s.registry.get? id = some i := by
  unfold clearing at h
  split at h
  · next haction =>
    split at h
    · cases (runs_done.mp h).2.1
    next instanceId hid =>
    have hid := (Option.filter_eq_some_iff.mp hid).1
    obtain ⟨_, _, record, t, -, hget, hafter⟩ := runs_onOk h
    obtain ⟨rfl, hrecord⟩ : t = s ∧ s.registry.get? instanceId = some record := by
      rw [getInstance, runs_get] at hget
      split at hget
      · next j hj =>
        obtain ⟨-, hx, ht⟩ := runs_done.mp hget
        exact ⟨ht, hj.trans (congrArg some (Except.ok.inj hx).symm)⟩
      · cases (runs_done.mp hget).2.1
    obtain ⟨hkey, hmodel⟩ := hown d hd haction instanceId hid record hrecord
    obtain ⟨_, _, live, v, -, hlive, hlast⟩ := runs_onOk hafter
    obtain ⟨hv, hshape⟩ := Ticking.runs
      (ticking_instanceWithLiveLmstudioShape (N := fun _ => True) profile record) hlive
    have hshape := hshape live rfl
    split at hlast
    · split at hlast
      · cases (runs_done.mp hlast).2.1
      · obtain ⟨_, _, _, _, -, -, hend⟩ := runs_onOk hlast
        cases (runs_done.mp hend).2.1
    split at hlast
    · cases (runs_done.mp hlast).2.1
    obtain ⟨_, _, _, y, -, hstop, hend⟩ := runs_onOk hlast
    obtain rfl := (runs_done.mp hend).2.2
    have hbeside : IdleReplicas.Beside live (fun _ => True) v.registry v.clock v :=
      ⟨fun _ _ => rfl, le_refl _, record, by rw [hv, hshape.instanceId, hkey, hrecord], trivial,
        hshape.model.symm⟩
    obtain ⟨hothers, -, j, hj, -, hjmodel⟩ :=
      ((IdleReplicas.triple_stop (I := fun _ => True)).runs hstop hbeside).1
    by_cases hcase : id = live.instanceId
    · rw [hcase, hj, hshape.instanceId, hkey, hrecord]
      refine iff_of_false (fun h => hi ?_) fun h => hi ?_
      · rw [← Option.some.inj h, hjmodel, hshape.model, hmodel]
      · rw [← Option.some.inj h, hmodel]
    · rw [hothers id hcase, hv]
  · obtain rfl := (runs_done.mp h).2.2
    exact Iff.rfl
  · obtain rfl := (runs_done.mp h).2.2
    exact Iff.rfl

/-- A model with nothing to act on leaves the registry as it is. -/
lemma actOnModel_still {p : ModelPlan} (hp : ¬Acts p) {s s' : LifecycleState} {es : Events}
    (h : (actOnModel settings contextPlans p).Runs world.alone s es (.ok ()) s') :
    s'.registry = s.registry := by
  rw [actOnModel_eq] at h
  obtain ⟨_, _, c, t, -, hc, hacts⟩ := runs_onOk h
  have hnone : ∀ d ∈ p.decisions, actOn settings c.1 c.2 d = pure () := by
    intro d hd
    unfold actOn
    cases haction : d.action with
    | reload => exact absurd ⟨d, hd, .inl haction⟩ hp
    | start =>
      have hgpu : d.gpuId.filter (· ≠ "") = none :=
        Option.not_isSome_iff_eq_none.mp fun hgpu => hp ⟨d, hd, .inr ⟨haction, hgpu⟩⟩
      exact if_pos (Option.isNone_iff_eq_none.mpr hgpu)
    | noop => rfl
    | rejectOversized => rfl
  have hquiet : ∀ l : List PlacementDecision, (∀ d ∈ l, actOn settings c.1 c.2 d = pure ()) →
      forEach (actOn settings c.1 c.2) l = pure () := by
    intro l hl
    induction l with
    | nil => rfl
    | cons d l ih =>
      rw [List.forall_mem_cons] at hl
      rw [forEach, hl.1]
      exact ih hl.2
  rw [hquiet _ hnone] at hacts
  rw [(runs_done.mp hacts).2.2, preparing_runs hc]

lemma acting_still {l : List ModelPlan} (hl : ∀ p ∈ l, ¬Acts p) {s s' : LifecycleState}
    {es : Events} (h : (acting settings contextPlans l).Runs world.alone s es (.ok ()) s') :
    s'.registry = s.registry := by
  induction l generalizing s es with
  | nil => exact congrArg _ (runs_done.mp h).2.2
  | cons p l ih =>
    obtain ⟨_, _, _, t, -, hp, hrest⟩ := runs_onOk h
    rw [List.forall_mem_cons] at hl
    rw [ih hl.2 hrest, actOnModel_still hl.1 hp]

lemma runs_planning {queueLengths : Dict String ℤ} {plans : List ModelPlan}
    {s s' : LifecycleState} {es : Events}
    (h : (planning settings contextPlans queueLengths).Runs world.alone s es (.ok plans) s') :
    ∀ p ∈ plans, p.decisions.length ≤ 1 := by
  obtain ⟨_, _, _, _, -, -, h₁⟩ := runs_onOk h
  obtain ⟨_, _, _, _, -, -, h₂⟩ := runs_onOk h₁
  obtain ⟨_, _, _, _, -, -, h₃⟩ := runs_onOk h₂
  exact (Ticking.runs (Ticking.mapEach (N := fun _ => True)
    (ticking_planModel _ queueLengths contextPlans) _) h₃).2 plans rfl

/-- A failing start leaves the records of other models. -/
lemma StartRaises.others {p : ModelPlan} {u s' : LifecycleState} {es : Events} {e : Exn}
    (h : StartRaises settings contextPlans p u es e s') (hone : p.decisions.length ≤ 1)
    (hown : OwnReloads p u) (id : String) (i : BackendInstance) (hi : i.model ≠ p.model) :
    s'.registry.get? id = some i ↔ u.registry.get? id = some i := by
  obtain ⟨c, v, _, done, d, rest, w, _, y, _, _, -, hc, hd, hdone, hclear, hstart⟩ := h
  obtain rfl : done = [] := by
    rw [hd, List.length_append, List.length_cons] at hone
    exact List.eq_nil_of_length_eq_zero (by omega)
  obtain rfl := (runs_done.mp hdone).2.2
  have hv := preparing_runs hc
  have hs' := (Ticking.runs (ticking_startInstance settings _ _ _) hstart).1
  have hown' : OwnReloads p w := by rwa [OwnReloads, hv]
  rw [hs', clearing_runs (hd ▸ List.mem_cons_self) hown' hclear id i hi, hv]

/-! ### Isolation -/

variable {queueLengths : Dict String ℤ} {before after : List ModelPlan} {p : ModelPlan}
  {s s₁ u s' : LifecycleState} {es₁ es₂ : Events} {e : Exn}

/-- Nothing planned for a later model is carried out. -/
lemma not_carriedOut
    (hbefore : (acting settings contextPlans before).Runs world.alone s₁ es₁ (.ok ()) u)
    (hraises : StartRaises settings contextPlans p u es₂ e s') {later : List ModelPlan}
    {q : ModelPlan} :
    ¬CarriedOut settings contextPlans (before ++ p :: later) q s₁ (es₁ ++ es₂) := by
  rintro ⟨fs, gs, rest, t, t', hes, hearlier, -⟩
  rw [acting, forEach_append] at hearlier
  obtain ⟨fs₁, fs₂, _, u', rfl, hbefore', hfrom⟩ := runs_onOk hearlier
  rw [List.append_assoc] at hes
  obtain ⟨rfl, -, rfl⟩ := Runs.unique (E := world.alone) alone_unique hbefore hbefore' hes
  obtain ⟨hs₁, hs₂, _, v, rfl, hp, -⟩ := runs_onOk hfrom
  have htail : es₂ ++ [] = hs₁ ++ (hs₂ ++ (gs ++ rest)) := by
    rw [List.append_nil, ← List.append_assoc hs₁]
    exact List.append_cancel_left hes
  cases (Runs.unique (E := world.alone) alone_unique hraises.run hp htail).2.1

lemma isolated_later
    (hbefore : (acting settings contextPlans before).Runs world.alone s₁ es₁ (.ok ()) u)
    (hraises : StartRaises settings contextPlans p u es₂ e s')
    (h : Isolated settings contextPlans before p after s₁ es₁ es₂ s') : ∀ q ∈ after, ¬Acts q := by
  intro q hq hacts
  obtain ⟨later, rest, rfl⟩ := List.append_of_mem hq
  refine not_carriedOut hbefore hraises (h.carriedOut (before ++ p :: later) q rest ?_ ?_ hacts)
  · rw [List.append_assoc, List.cons_append]
  · rw [List.length_append, List.length_cons]
    omega

/-- An earlier model is carried out. -/
lemma carriedOut_before {earlier later : List ModelPlan} {q : ModelPlan}
    (hq : before = earlier ++ q :: later)
    (hbefore : (acting settings contextPlans before).Runs world.alone s₁ es₁ (.ok ()) u) :
    CarriedOut settings contextPlans earlier q s₁ (es₁ ++ es₂) := by
  rw [hq, acting, forEach_append] at hbefore
  obtain ⟨fs, rest, _, t, rfl, hearlier, hfrom⟩ := runs_onOk hbefore
  obtain ⟨gs, hs, _, t', rfl, hact, -⟩ := runs_onOk hfrom
  exact ⟨fs, gs, hs ++ es₂, t, t', by simp only [List.append_assoc], hearlier, hact⟩

lemma isolated_of_later (hone : p.decisions.length ≤ 1)
    (hbefore : (acting settings contextPlans before).Runs world.alone s₁ es₁ (.ok ()) u)
    (hraises : StartRaises settings contextPlans p u es₂ e s') (hown : OwnReloads p u)
    (hlater : ∀ q ∈ after, ¬Acts q) :
    Isolated settings contextPlans before p after s₁ es₁ es₂ s' := by
  refine ⟨fun earlier q later heq hne hacts => ?_, fun fs s'' hrun id i hi => ?_⟩
  · rcases List.append_eq_append_iff.mp heq with ⟨mid, rfl, hmid⟩ | ⟨mid, hmid, hrest⟩
    · -- `q` is `p`, or stands after it
      cases mid with
      | nil => exact absurd (congrArg List.length (List.append_nil before)) hne
      | cons p' mid =>
        obtain ⟨-, hafter⟩ := List.cons.inj hmid
        refine absurd hacts (hlater q ?_)
        rw [hafter]
        exact List.mem_append_right _ List.mem_cons_self
    · cases mid with
      | nil => exact absurd (by rw [hmid, List.append_nil]) hne
      | cons q' mid =>
        obtain ⟨rfl, -⟩ := List.cons.inj hrest
        exact carriedOut_before hmid hbefore
  · rw [acting, forEach_append] at hrun
    obtain ⟨fs₁, fs₂, _, u', hes, hbefore', hfrom⟩ := runs_onOk hrun
    obtain ⟨-, -, rfl⟩ := Runs.unique (E := world.alone) alone_unique hbefore hbefore' hes
    have hstill : ∀ q ∈ { p with decisions := [] } :: after, ¬Acts q := by
      refine List.forall_mem_cons.mpr ⟨?_, hlater⟩
      rintro ⟨d, hd, -⟩
      exact absurd hd List.not_mem_nil
    rw [hraises.others hone hown id i hi, acting_still hstill hfrom]

/-- **A start that raises** ends the reconcile. The other models are isolated from it only if no
later one has anything to act on; and then they are, if a reload stops a record of its own model. -/
theorem failed_start_isolated_iff {es₀ : Events}
    (hplan : (planning settings contextPlans queueLengths).Runs world.alone s es₀
      (.ok (before ++ p :: after)) s₁)
    (hbefore : (acting settings contextPlans before).Runs world.alone s₁ es₁ (.ok ()) u)
    (hraises : StartRaises settings contextPlans p u es₂ e s') :
    (reconcile settings queueLengths contextPlans).Runs world.alone s (es₀ ++ (es₁ ++ es₂))
      (.error e) s' ∧
    (Isolated settings contextPlans before p after s₁ es₁ es₂ s' → ∀ q ∈ after, ¬Acts q) ∧
    (OwnReloads p u → (∀ q ∈ after, ¬Acts q) →
      Isolated settings contextPlans before p after s₁ es₁ es₂ s') := by
  refine ⟨?_, isolated_later hbefore hraises, fun hown hlater => ?_⟩
  · rw [reconcile_eq]
    refine hplan.next (Runs.raised ?_)
    rw [acting, forEach_append]
    exact hbefore.next (Runs.raised hraises.run)
  · have hone := runs_planning hplan p (List.mem_append_right _ List.mem_cons_self)
    exact isolated_of_later hone hbefore hraises hown hlater

/-! ### Three models -/

lemma nodup_models : (["draft", "chat", "code"] : List String).Nodup := by decide

def threeModels : LifecycleSettings :=
  { settingsFor false (vllmProfile "chat" 8000) with
    profiles := ⟨[vllmProfile "draft" 8000, vllmProfile "chat" 8000, vllmProfile "code" 8000],
      nodup_models⟩ }

/-- The answers of a world in order but for the `docker run` of one model. -/
def brokenDocker (c : LifecycleCall) (s : LifecycleState) : c.Answer :=
  match c with
  | .run command => if "chat" ∈ command then .error (.calledProcess "" "") else .ok ()
  | c => answersAt (atSecond 60) [⟨"gpu0", 0, 24000⟩] c s

lemma alone_brokenDocker (c : LifecycleCall) (s : LifecycleState) :
    world.alone c (brokenDocker c s) s s := by
  refine ⟨?_, rfl⟩
  cases c with
  | run _ => trivial
  | _ => exact allowed_answersAt (atSecond 60) [⟨"gpu0", 0, 24000⟩] _ s

abbrev played {α : Type} (p : Service α) (s : LifecycleState) :
    Events × Except Exn α × LifecycleState := p.playWith brokenDocker s

lemma runs_played {α : Type} {p : Service α} {s : LifecycleState} {x : Except Exn α}
    (h : (played p s).2.1 = x) : p.Runs world.alone s (played p s).1 x (played p s).2.2 :=
  h ▸ runs_playWith alone_brokenDocker p s

lemma eq_ok_getD {α : Type} {x : Except Exn α} {a : α} (h : x.isOk = true) :
    x = .ok (x.toOption.getD a) := by
  cases x with
  | ok b => rfl
  | error e => cases h

lemma exists_error {α : Type} {x : Except Exn α} (h : x.isOk = false) : ∃ e, x = .error e := by
  cases x with
  | ok b => cases h
  | error e => exact ⟨e, rfl⟩

/-- A task is queued for each model. -/
def queued : Dict String ℤ :=
  (((Dict.empty : Dict String ℤ).set "draft" 1).set "chat" 1).set "code" 1

def nothingRuns : LifecycleState := ⟨Dict.empty, atSecond 60, []⟩

def codeRuns : LifecycleState :=
  { nothingRuns with
    registry := Dict.empty.set "code-1" (dryInstance "code-1" (vllmProfile "code" 8000)) }

variable (s : LifecycleState)

def planned : Events × Except Exn (List ModelPlan) × LifecycleState :=
  played (planning threeModels Dict.empty queued) s

/-- The plan of the first, the second or the third model. -/
def planOf (n : Fin 3) : ModelPlan :=
  ((planned s).2.1.toOption.getD []).getD n ⟨"", 0, 0, 0, []⟩

def acted : Events × Except Exn Unit × LifecycleState :=
  played (acting threeModels Dict.empty [planOf s 0]) (planned s).2.2

def prepared : Events × Except Exn (ModelProfile × List GpuState) × LifecycleState :=
  played (preparing threeModels Dict.empty (planOf s 1)) (acted s).2.2

def equipment : ModelProfile × List GpuState :=
  (prepared s).2.1.toOption.getD (vllmProfile "chat" 8000, [])

def decision : PlacementDecision :=
  (planOf s 1).decisions.headD (modelDecision (vllmProfile "chat" 8000) .noop "" none)

def attempted : Events × Except Exn BackendInstance × LifecycleState :=
  played (startInstance threeModels (equipment s).1 (decision s) (equipment s).2) (prepared s).2.2

/-- There are three plans, the first one is carried out, and the second one is to start an
instance, which raises. -/
def startsInVain : Bool :=
  (planned s).2.1.isOk && ((planned s).2.1.toOption.getD []).length = 3 && (acted s).2.1.isOk &&
    (planOf s 1).decisions.length = 1 && (prepared s).2.1.isOk && (decision s).action = .start &&
    ((decision s).gpuId.filter (· ≠ "")).isSome && !(attempted s).2.1.isOk

variable {s}

lemma planned_three (h : startsInVain s = true) :
    (planning threeModels Dict.empty queued).Runs world.alone s (planned s).1
      (.ok ([planOf s 0] ++ planOf s 1 :: [planOf s 2])) (planned s).2.2 := by
  simp only [startsInVain, Bool.and_eq_true, decide_eq_true_eq] at h
  obtain ⟨⟨⟨⟨⟨⟨⟨hok, hthree⟩, -⟩, -⟩, -⟩, -⟩, -⟩, -⟩ := h
  have hlist : (planned s).2.1.toOption.getD [] = [planOf s 0, planOf s 1, planOf s 2] := by
    obtain ⟨a, b, c, habc⟩ := List.length_eq_three.mp hthree
    simp only [planOf, habc]
    rfl
  exact runs_played ((eq_ok_getD hok).trans (congrArg _ hlist))

lemma first_acted (h : startsInVain s = true) :
    (acting threeModels Dict.empty [planOf s 0]).Runs world.alone (planned s).2.2 (acted s).1
      (.ok ()) (acted s).2.2 := by
  simp only [startsInVain, Bool.and_eq_true, decide_eq_true_eq] at h
  obtain ⟨⟨⟨⟨⟨⟨⟨-, -⟩, hacted⟩, -⟩, -⟩, -⟩, -⟩, -⟩ := h
  exact runs_played (eq_ok_getD (a := ()) hacted)

lemma second_raises (h : startsInVain s = true) : ∃ e,
    StartRaises threeModels Dict.empty (planOf s 1) (acted s).2.2
      ((prepared s).1 ++ ([] ++ ([] ++ (attempted s).1))) e (attempted s).2.2 := by
  simp only [startsInVain, Bool.and_eq_true, decide_eq_true_eq, Bool.not_eq_true'] at h
  obtain ⟨⟨⟨⟨⟨⟨⟨-, -⟩, -⟩, hone⟩, hprepared⟩, haction⟩, hgpu⟩, hraised⟩ := h
  obtain ⟨d, hd⟩ := List.length_eq_one_iff.mp hone
  have hdecision : decision s = d := by rw [decision, hd, List.headD_cons]
  obtain ⟨e, he⟩ := exists_error hraised
  refine ⟨e, equipment s, (prepared s).2.2, (prepared s).1, [], decision s, [], (prepared s).2.2,
    [], (prepared s).2.2, [], (attempted s).1, rfl, runs_played (eq_ok_getD hprepared),
    hdecision ▸ hd, runs_done.mpr ⟨rfl, rfl, rfl⟩, ?_, runs_played he⟩
  rw [clearing, haction]
  exact runs_done.mpr ⟨rfl, congrArg Except.ok hgpu.symm, rfl⟩

lemma acts_of_any {p : ModelPlan} (h : (p.decisions.any fun d =>
    d.action = .start && (d.gpuId.filter (· ≠ "")).isSome) = true) : Acts p := by
  obtain ⟨d, hd, hstart⟩ := List.any_eq_true.mp h
  rw [Bool.and_eq_true, decide_eq_true_eq] at hstart
  exact ⟨d, hd, .inr hstart⟩

lemma codeRuns_in_vain : startsInVain codeRuns = true := by decide +kernel
lemma nothingRuns_in_vain : startsInVain nothingRuns = true := by decide +kernel

/-- The first model is started, and there is nothing to do for the third, which runs. -/
theorem failed_start_isolated_sample : ∃ s₁ es₁ es₂ s', Acts (planOf codeRuns 0) ∧
    (∃ i, s₁.registry.get? "code-1" = some i ∧ i.model ≠ (planOf codeRuns 1).model) ∧
    Isolated threeModels Dict.empty [planOf codeRuns 0] (planOf codeRuns 1) [planOf codeRuns 2] s₁
      es₁ es₂ s' := by
  obtain ⟨e, he⟩ := second_raises codeRuns_in_vain
  have hisolated := (failed_start_isolated_iff (planned_three codeRuns_in_vain)
    (first_acted codeRuns_in_vain) he).2.2
  refine ⟨_, _, _, _, acts_of_any (by decide +kernel), ?_, hisolated (fun d hd haction => ?_) ?_⟩
  · have hcode : ((planned codeRuns).2.2.registry.get? "code-1").any (fun i =>
        i.model ≠ (planOf codeRuns 1).model) = true := by decide +kernel
    obtain ⟨i, hi, hmodel⟩ := Option.any_eq_true _ _ |>.mp hcode
    exact ⟨i, hi, of_decide_eq_true hmodel⟩
  · have hstarts : ∀ d ∈ (planOf codeRuns 1).decisions, d.action = .start := by decide +kernel
    cases (hstarts d hd).symm.trans haction
  · rw [List.forall_mem_singleton]
    have hwaits : ∀ d ∈ (planOf codeRuns 2).decisions, d.action = .noop := by decide +kernel
    rintro ⟨d, hd, hact | ⟨hact, -⟩⟩ <;> cases (hwaits d hd).symm.trans hact

/-- The start that is planned for the third model is not made. -/
theorem failed_start_blocks : ∃ s₁ es₁ u es₂ s' e,
    (planning threeModels Dict.empty queued).Runs world.alone nothingRuns
      (planned nothingRuns).1
      (.ok ([planOf nothingRuns 0] ++ planOf nothingRuns 1 :: [planOf nothingRuns 2])) s₁ ∧
    (acting threeModels Dict.empty [planOf nothingRuns 0]).Runs world.alone s₁ es₁ (.ok ()) u ∧
    StartRaises threeModels Dict.empty (planOf nothingRuns 1) u es₂ e s' ∧
    Acts (planOf nothingRuns 2) ∧ ¬Isolated threeModels Dict.empty [planOf nothingRuns 0]
      (planOf nothingRuns 1) [planOf nothingRuns 2] s₁ es₁ es₂ s' := by
  obtain ⟨e, he⟩ := second_raises nothingRuns_in_vain
  have hacted := first_acted nothingRuns_in_vain
  have hacts : Acts (planOf nothingRuns 2) := acts_of_any (by decide +kernel)
  refine ⟨_, _, _, _, _, e, planned_three nothingRuns_in_vain, hacted, he, hacts, fun h => ?_⟩
  exact isolated_later hacted he h _ List.mem_cons_self hacts

end Orchestrator.Lifecycle.FailedStarts
