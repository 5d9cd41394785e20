import Orchestrator.LoadCounts
import Orchestrator.Records

/-!
One run of `stop_idle_instances`: which instances it stops, and how many of a model stay ready.

The clock goes on during the run. What is eligible at its start is stopped as far as the floor of
the replicas allows, and what is stopped is eligible at its end. If the clock stands, this is exact.
-/

namespace Orchestrator.Lifecycle.IdleReplicas

open Lib Lib.Coro Clock

variable {α : Type} {I A : LifecycleState → Prop} {settings : LifecycleSettings}
  {profile : ModelProfile}

/-! ### Candidates -/

/-- No request uses the instance, and at `t` it has been idle at least its own TTL. -/
def Eligible (profile : ModelProfile) (i : BackendInstance) (t : DateTime) : Prop :=
  i.activeRequests = 0 ∧ ∃ reference ttl, parseIso (idleReference i) = .ok reference ∧
    idleTtlSecondsFor i profile = .ok ttl ∧ (ttl : ℚ) ≤ elapsedSeconds reference t

/-- The record has no time or no TTL that can be read. -/
def Unreadable (profile : ModelProfile) (i : BackendInstance) : Prop :=
  i.activeRequests = 0 ∧ ((∃ e, parseIso (idleReference i) = .error e) ∨
    ∃ e, idleTtlSecondsFor i profile = .error e)

lemma elapsedSeconds_mono (reference : DateTime) {t u : DateTime} (h : t ≤ u) :
    elapsedSeconds reference t ≤ elapsedSeconds reference u := by
  have hle : (t.1 : ℤ) - reference.1 ≤ (u.1 : ℤ) - reference.1 :=
    sub_le_sub_right (Int.ofNat_le.mpr h) _
  exact max_le_max_left 0 (div_le_div_of_nonneg_right (Int.cast_le.mpr hle) (by norm_num))

lemma Eligible.mono {i : BackendInstance} {t u : DateTime} (h : Eligible profile i t)
    (htu : t ≤ u) : Eligible profile i u := by
  obtain ⟨hactive, reference, ttl, hreference, httl, hle⟩ := h
  exact ⟨hactive, reference, ttl, hreference, httl, hle.trans (elapsedSeconds_mono reference htu)⟩

/-- The registry is the same, perhaps later. -/
def Later (u s : LifecycleState) : Prop := s.registry = u.registry ∧ u.clock ≤ s.clock

lemma Later.trans {s t u : LifecycleState} (h : Later s t) (h' : Later t u) : Later s u :=
  ⟨h'.1.trans h.1, h.2.trans h'.2⟩

lemma triple_from {p : Service α} {N : Except Exn α → LifecycleState → Prop}
    (h : ∀ u, A u → Triple world I (fun s => s = u) p N) : Triple world I A p N :=
  fun s₀ s hs => h s hs s₀ s rfl

/-- What an `is_idle` of an instance says, begun in `u`. -/
def Judges (profile : ModelProfile) (i : BackendInstance) (u : LifecycleState) (x : Except Exn Bool)
    (s : LifecycleState) : Prop :=
  Later u s ∧ (∀ idle, x = .ok idle → (idle = true → Eligible profile i s.clock) ∧
    (Eligible profile i u.clock → idle = true)) ∧ ∀ e, x = .error e → Unreadable profile i

lemma triple_isIdle (i : BackendInstance) (u : LifecycleState) :
    Triple world I (fun s => s = u) (isIdle profile i) (Judges profile i u) := by
  unfold isIdle
  split
  · next hactive =>
    refine Triple.of_done fun s hs =>
      ⟨hs ▸ ⟨rfl, le_refl _⟩, fun idle h => ?_, fun e h => by cases h⟩
    obtain rfl := Except.ok.inj h
    exact ⟨(fun h => by cases h), fun h => absurd h.1 hactive⟩
  next hactive =>
  have hzero : i.activeRequests = 0 := not_not.mp hactive
  rw [idleSeconds]
  cases hreference : parseIso (idleReference i) with
  | error e =>
    refine Triple.of_done fun s hs =>
      ⟨hs ▸ ⟨rfl, le_refl _⟩, (fun idle h => by cases h), fun _ _ => ?_⟩
    exact ⟨hzero, Or.inl ⟨e, hreference⟩⟩
  | ok reference =>
    rw [lift, after_done, onOk_ok, after_onOk_assoc]
    refine (triple_now (A := fun s => Later u s) (fun s t hs ht => ⟨hs.1, hs.2.trans ht⟩)
      fun t => ?_).weaken (fun s hs => hs ▸ ⟨rfl, le_refl _⟩) fun _ _ hs => hs
    cases httl : idleTtlSecondsFor i profile with
    | error e =>
      refine Triple.of_done fun s hs => ⟨hs.1, (fun idle h => by cases h), fun _ _ => ?_⟩
      exact ⟨hzero, Or.inr ⟨e, httl⟩⟩
    | ok ttl =>
      refine Triple.of_done fun s hs => ⟨hs.1, fun idle h => ?_, fun e h => by cases h⟩
      obtain ⟨hlater, rfl⟩ := hs
      obtain rfl := Except.ok.inj h
      rw [decide_eq_true_eq]
      refine ⟨fun hle => ⟨hzero, reference, ttl, hreference, httl, hle⟩, fun h => ?_⟩
      obtain ⟨-, reference', ttl', hreference', httl', hle⟩ := h.mono hlater.2
      obtain rfl := Except.ok.inj (hreference'.symm.trans hreference)
      obtain rfl := Except.ok.inj (httl'.symm.trans httl)
      exact hle

/-- What the candidates of a list are, begun in `u`. -/
def Collects (profile : ModelProfile) (l : List BackendInstance) (u : LifecycleState)
    (x : Except Exn (List BackendInstance)) (s : LifecycleState) : Prop :=
  Later u s ∧ (∀ E, x = .ok E → E.Sublist l ∧ (∀ i ∈ E, Eligible profile i s.clock) ∧
    ∀ i ∈ l, Eligible profile i u.clock → i ∈ E) ∧ ∀ e, x = .error e → ∃ i ∈ l, Unreadable profile i

lemma triple_idleCandidates (l : List BackendInstance) (u : LifecycleState) :
    Triple world I (fun s => s = u) (idleCandidates profile l) (Collects profile l u) := by
  induction l generalizing u with
  | nil =>
    refine Triple.of_done fun s hs => ⟨hs ▸ ⟨rfl, le_refl _⟩, fun E h => ?_, fun e h => by cases h⟩
    obtain rfl := Except.ok.inj h
    exact ⟨.slnil, fun i hi => absurd hi List.not_mem_nil, fun i hi => absurd hi List.not_mem_nil⟩
  | cons i l ih =>
    refine (triple_isIdle i u).bind (fun idle => triple_from fun v hv => ?_) fun e s hs =>
      ⟨hs.1, (fun E h => by cases h), fun _ _ => ⟨i, List.mem_cons_self, hs.2.2 e rfl⟩⟩
    obtain ⟨hlater, hidle, -⟩ := hv
    obtain ⟨hsound, hcomplete⟩ := hidle idle rfl
    refine (ih v).bind (fun others => Triple.of_done fun s hs => ?_) fun e s hs => ?_
    · obtain ⟨hlater', hothers, -⟩ := hs
      obtain ⟨hsub, hothers, hall⟩ := hothers others rfl
      refine ⟨hlater.trans hlater', fun E h => ?_, fun e h => by cases h⟩
      obtain rfl := Except.ok.inj h
      have hrest : ∀ j ∈ l, Eligible profile j u.clock → j ∈ others :=
        fun j hj h => hall j hj (h.mono hlater.2)
      cases idle with
      | true =>
        refine ⟨hsub.cons_cons i,
          List.forall_mem_cons.mpr ⟨(hsound rfl).mono hlater'.2, hothers⟩, ?_⟩
        refine List.forall_mem_cons.mpr ⟨fun _ => List.mem_cons_self, fun j hj h => ?_⟩
        exact List.mem_cons_of_mem _ (hrest j hj h)
      | false =>
        refine ⟨hsub.cons i, hothers, List.forall_mem_cons.mpr ⟨fun h => ?_, hrest⟩⟩
        exact absurd (hcomplete h) Bool.false_ne_true
    · obtain ⟨hlater', -, herror⟩ := hs
      obtain ⟨j, hj, h⟩ := herror e rfl
      exact ⟨hlater.trans hlater', (fun E h => by cases h),
        fun _ _ => ⟨j, List.mem_cons_of_mem _ hj, h⟩⟩

/-! ### Stops -/

/-- The registry is `r` but for the record of `i`, which is in a state in `P`. -/
def Beside (i : BackendInstance) (P : BackendState → Prop) (r : Registry) (c : DateTime)
    (s : LifecycleState) : Prop :=
  (∀ id, id ≠ i.instanceId → s.registry.get? id = r.get? id) ∧ c ≤ s.clock ∧
    ∃ j, s.registry.get? i.instanceId = some j ∧ P j.state ∧ j.model = i.model

abbrev Unready (state : BackendState) : Prop := state ≠ .ready

section Stop

variable {i : BackendInstance} {P : BackendState → Prop} {r : Registry} {c : DateTime}

lemma Beside.set {s : LifecycleState} (h : Beside i P r c s) {j : BackendInstance}
    (hstate : Unready j.state) (hmodel : j.model = i.model) :
    Beside i Unready r c (s.change (s.registry.set i.instanceId j)) := by
  refine ⟨fun id hid => ?_, h.2.1, j, Dict.get?_set_self _ _ _, hstate, hmodel⟩
  rw [LifecycleState.change_registry, Dict.get?_set_ne _ _ hid, h.1 id hid]

lemma beside_calm (N : Note → Prop) : Calm N (Beside i P r c) :=
  ⟨fun _ _ hs ht => ⟨hs.1, hs.2.1.trans ht, hs.2.2⟩, fun _ _ hs _ => hs⟩

/-- The record is there, and its change leaves it unready. -/
lemma triple_leave {f : BackendInstance → String → BackendInstance}
    (hf : ∀ j t, Unready (f j t).state ∧ (f j t).model = j.model) :
    Triple world I (Beside i P r c) ((getInstance i.instanceId).after <| onOk fun j =>
      nowText.after (onOk fun t => putInstance i.instanceId (f j t)))
      (Triple.Returns fun _ => Beside i Unready r c) := by
  refine triple_change (beside_calm fun _ => True).tick (fun s j hs hj => ?_) fun s hs hnone => ?_
  · obtain ⟨j', hj', -, hmodel⟩ := hs.2.2
    obtain rfl := Option.some.inj (hj'.symm.trans hj)
    exact hs.set (hf _ _).1 ((hf _ _).2.trans hmodel)
  · obtain ⟨j, hj, -⟩ := hs.2.2
    rw [hnone] at hj
    cases hj

lemma triple_markUnready {state : BackendState} (hstate : Unready state) :
    Triple world I (Beside i P r c) (markState i.instanceId state)
      (Triple.Returns fun _ => Beside i Unready r c) :=
  triple_leave (f := fun j t => { j with state := state, updatedAt := t }) fun _ _ => ⟨hstate, rfl⟩

lemma triple_markFailed (reason : String) :
    Triple world I (Beside i P r c) (markFailed i.instanceId reason)
      (Triple.Returns fun _ => Beside i Unready r c) :=
  triple_leave (f := fun j t =>
    { j with state := .failed, failureReason := some reason, updatedAt := t })
    fun _ _ => ⟨(fun h => by cases h), rfl⟩

/-- The end of a stop: only what is no `Exception` is raised. -/
def StopEnds (i : BackendInstance) (r : Registry) (c : DateTime) (x : Except Exn α)
    (s : LifecycleState) : Prop :=
  Beside i Unready r c s ∧ ∀ e, x = .error e → e.isException = false

lemma StopEnds.of_ok {a : α} {s : LifecycleState} (h : Beside i Unready r c s) :
    StopEnds i r c (.ok a) s := ⟨h, fun _ h => by cases h⟩

lemma triple_stop : Triple world I (Beside i P r c) (stopInstance settings profile i)
    (StopEnds i r c) := by
  refine (triple_markUnready fun h => by cases h).next fun _ => ?_
  have hnote : Triple world I (Beside i Unready r c) (noteNow fun registry => .stopping i registry)
      (Triple.Returns fun _ => Beside i Unready r c) :=
    fun s₀ s hs => wpt_get.mpr (wpt_set.mpr (wpt_done.mpr hs))
  refine hnote.next fun _ => Triple.seq (M := fun _ => Beside i Unready r c) ?_ fun x => ?_
  · refine ((ticking_stop _ _ _ I _ (beside_calm _)).weaken (fun _ hs => hs)
      fun _ _ hs => hs.1).bind (fun _ => ?_) fun _ _ hs => hs
    have hstopped : Unready .stopped := fun h => by cases h
    refine (triple_markUnready (P := Unready) hstopped).weaken
      (fun _ hs => hs) fun x s hs => ?_
    cases x with
    | ok _ => exact hs
    | error _ => exact hs.elim
  cases x with
  | ok a => exact Triple.of_done fun s hs => StopEnds.of_ok hs
  | error e =>
    show Triple world I _ (if e.isException then Lifecycle.markFailed i.instanceId e.name
      else raise e) _
    cases he : e.isException with
    | true =>
      refine (triple_markFailed (P := Unready) e.name).weaken (fun _ hs => hs) fun x s hs => ?_
      cases x with
      | ok _ => exact StopEnds.of_ok hs
      | error _ => exact hs.elim
    | false => exact Triple.of_done fun s hs => ⟨hs, fun _ h => Except.error.inj h ▸ he⟩

end Stop

/-- The records of the instances in `l` are left unready, and no others are changed. -/
structure StoppedIn (l : List BackendInstance) (r r' : Registry) : Prop where
  same : ∀ id, id ∉ l.map BackendInstance.instanceId → r'.get? id = r.get? id
  unready : ∀ i ∈ l, ∃ j, r'.get? i.instanceId = some j ∧ Unready j.state ∧ j.model = i.model

lemma StoppedIn.nil (r : Registry) : StoppedIn [] r r :=
  ⟨fun _ _ => rfl, fun _ hi => absurd hi List.not_mem_nil⟩

lemma StoppedIn.cons {i : BackendInstance} {l : List BackendInstance} {r r' : Registry}
    {c : DateTime} {s : LifecycleState} (hi : i.instanceId ∉ l.map BackendInstance.instanceId)
    (h : Beside i Unready r c s) (hl : StoppedIn l s.registry r') : StoppedIn (i :: l) r r' := by
  obtain ⟨hsame, -, j, hj, hstate, hmodel⟩ := h
  refine ⟨fun id hid => ?_, List.forall_mem_cons.mpr ⟨⟨j, ?_, hstate, hmodel⟩, hl.unready⟩⟩
  · rw [List.map_cons, List.mem_cons, not_or] at hid
    rw [hl.same id hid.2, hsame id hid.1]
  · rw [hl.same _ hi, hj]

/-- The end of the stops of a list, in its order. -/
def StopsEnd (l : List BackendInstance) (r : Registry) (c : DateTime) (x : Except Exn α)
    (s : LifecycleState) : Prop :=
  c ≤ s.clock ∧ (∀ e, x = .error e → e.isException = false) ∧
    ∃ stopped, stopped <+: l ∧ (∀ a, x = .ok a → stopped = l) ∧ StoppedIn stopped r s.registry

lemma triple_stopEach {l : List BackendInstance} {r : Registry} {c : DateTime}
    (hnodup : (l.map BackendInstance.instanceId).Nodup)
    (hl : ∀ i ∈ l, r.get? i.instanceId = some i) :
    Triple world I (fun s => s.registry = r ∧ c ≤ s.clock) (mapEach (stopIdle settings profile) l)
      (StopsEnd l r c) := by
  induction l generalizing r c with
  | nil =>
    refine Triple.of_done fun s hs =>
      ⟨hs.2, (fun _ h => by cases h), [], List.prefix_rfl, fun _ _ => rfl, ?_⟩
    exact hs.1 ▸ StoppedIn.nil _
  | cons i l ih =>
    rw [List.map_cons, List.nodup_cons] at hnodup
    rw [List.forall_mem_cons] at hl
    have hstop : Triple world I (fun s => s.registry = r ∧ c ≤ s.clock)
        (stopIdle settings profile i) (StopEnds i r c) := by
      refine (triple_stop (P := fun _ => True).weaken (fun s hs => ?_) fun _ _ hs => hs).bind
        (fun stopped s₀ s hs => ?_) fun e s hs =>
          ⟨hs.1, fun _ h => hs.2 _ (Except.error.inj h ▸ rfl)⟩
      · exact ⟨fun id _ => by rw [hs.1], hs.2, i, by rw [hs.1, hl.1], trivial, rfl⟩
      · exact wpt_get.mpr (wpt_set.mpr (wpt_done.mpr (StopEnds.of_ok hs.1)))
    refine hstop.bind (fun _ => triple_from fun v hv => ?_) fun e s hs => ?_
    · obtain ⟨hv, -⟩ := hv
      have hrest : ∀ j ∈ l, v.registry.get? j.instanceId = some j := by
        intro j hj
        rw [hv.1 _ fun h => hnodup.1 (h ▸ List.mem_map_of_mem hj)]
        exact hl.2 j hj
      have hown : Triple world I (fun s => s = v) _ _ := (ih (r := v.registry) (c := v.clock)
        hnodup.2 hrest).weaken (fun s hs => hs ▸ ⟨rfl, le_refl _⟩) fun _ _ hs => hs
      refine hown.bind (fun bs => Triple.of_done fun s hs => ?_) fun e s hs => ?_
      · obtain ⟨hclock, -, stopped, hinitial, hall, hstopped⟩ := hs
        obtain rfl := hall bs rfl
        exact ⟨hv.2.1.trans hclock, (fun _ h => by cases h), i :: stopped, List.prefix_rfl,
          fun _ _ => rfl, hstopped.cons hnodup.1 hv⟩
      · obtain ⟨hclock, herror, stopped, hinitial, -, hstopped⟩ := hs
        have hnew : i.instanceId ∉ stopped.map BackendInstance.instanceId :=
          fun h => hnodup.1 (List.map_subset _ hinitial.subset h)
        exact ⟨hv.2.1.trans hclock, fun _ h => herror _ (Except.error.inj h ▸ rfl), i :: stopped,
          List.prefix_cons_inj i |>.mpr hinitial, (fun _ h => by cases h), hstopped.cons hnew hv⟩
    · exact ⟨hs.1.2.1, fun _ h => hs.2 _ (Except.error.inj h ▸ rfl), [i],
        List.prefix_cons_inj i |>.mpr List.nil_prefix, (fun _ h => by cases h),
        (StoppedIn.nil s.registry).cons List.not_mem_nil hs.1⟩

/-! ### The ready instances of a model -/

section Ready

variable {r r' : Registry} {model : String}

/-- The records of the model are under their own ids. -/
def KeyedOf (model : String) (r : Registry) : Prop :=
  ∀ id i, r.get? id = some i → i.model = model → i.instanceId = id

/-- The records of the model are the same. -/
def SameOf (model : String) (r r' : Registry) : Prop :=
  ∀ id i, i.model = model → (r'.get? id = some i ↔ r.get? id = some i)

/-- Whether an entry is that of a ready instance of the model. -/
def isReadyEntry (model : String) (p : String × BackendInstance) : Bool :=
  p.2.model = model && p.2.state = .ready

lemma readyForModel_entries (r : Registry) (model : String) :
    r.readyForModel model = (r.entries.filter (isReadyEntry model)).map Prod.snd := by
  rw [Registry.readyForModel, Registry.list, Dict.values, List.filter_map]
  rfl

lemma mem_readyForModel {i : BackendInstance} : i ∈ r.readyForModel model ↔
    i.model = model ∧ i.state = .ready ∧ ∃ id, r.get? id = some i := by
  rw [Registry.readyForModel, List.mem_filter, Registry.list, Dict.mem_values, Bool.and_eq_true,
    decide_eq_true_eq, decide_eq_true_eq]
  tauto

lemma get?_ready (h : KeyedOf model r) {i : BackendInstance} (hi : i ∈ r.readyForModel model) :
    r.get? i.instanceId = some i := by
  obtain ⟨hmodel, -, id, hid⟩ := mem_readyForModel.mp hi
  rw [h id i hid hmodel, hid]

lemma nodup_ready (h : KeyedOf model r) :
    ((r.readyForModel model).map BackendInstance.instanceId).Nodup := by
  have hids : (r.readyForModel model).map BackendInstance.instanceId =
      (r.entries.filter (isReadyEntry model)).map Prod.fst := by
    rw [readyForModel_entries, List.map_map]
    refine List.map_congr_left fun p hp => ?_
    obtain ⟨hp, hready⟩ := List.mem_filter.mp hp
    rw [isReadyEntry, Bool.and_eq_true, decide_eq_true_eq] at hready
    exact h p.1 p.2 (Dict.get?_eq_some.mpr hp) hready.1
  rw [hids]
  exact r.nodup.sublist (List.filter_sublist.map _)

lemma SameOf.ready (h : SameOf model r r') :
    List.Perm (r'.readyForModel model) (r.readyForModel model) := by
  have hnodup : ∀ r : Registry, (r.entries.filter (isReadyEntry model)).Nodup :=
    fun r => (List.Nodup.of_map _ r.nodup).filter _
  rw [readyForModel_entries, readyForModel_entries]
  refine List.Perm.map _ ((List.perm_ext_iff_of_nodup (hnodup r') (hnodup r)).mpr fun p => ?_)
  rw [List.mem_filter, List.mem_filter, ← Dict.get?_eq_some, ← Dict.get?_eq_some]
  refine and_congr_left fun hp => h p.1 p.2 ?_
  rw [isReadyEntry, Bool.and_eq_true, decide_eq_true_eq] at hp
  exact hp.1

lemma SameOf.keyed (h : SameOf model r r') (hr : KeyedOf model r) : KeyedOf model r' :=
  fun id i hi hmodel => hr id i ((h id i hmodel).mp hi) hmodel

end Ready

/-! ### One model -/

/-- How many ready instances of the profile there are beyond its floor. -/
def removable (profile : ModelProfile) (r : Registry) : ℤ :=
  max 0 (((r.readyForModel profile.publicName).length : ℤ) - profile.minReplicas)

/-- What a run does to the instances of a profile: those in `stopped` are stopped, of those in
`eligible`. -/
structure IdleRun (queueLengths : Dict String ℤ) (profile : ModelProfile) (start finish : DateTime)
    (completed : Prop) (r r' : Registry) (eligible stopped : List BackendInstance) : Prop where
  sound : ∀ i ∈ eligible, i ∈ r.readyForModel profile.publicName ∧ Eligible profile i finish
  all : ∀ i ∈ r.readyForModel profile.publicName, Eligible profile i start → i ∈ eligible
  nodup : eligible.Nodup
  distinct : stopped.Nodup
  subset : stopped ⊆ eligible
  /-- those with the oldest reference come first -/
  oldest : ∀ i ∈ stopped, ∀ j ∈ eligible, j ∉ stopped → idleReference i ≤ idleReference j
  floor : (stopped.length : ℤ) ≤ removable profile r
  queued : 0 < (queueLengths.get? profile.publicName).getD 0 → stopped = []
  /-- as many as the floor allows -/
  full : completed → ¬0 < (queueLengths.get? profile.publicName).getD 0 →
    (stopped.length : ℤ) = min (eligible.length : ℤ) (removable profile r)
  unready : ∀ i ∈ stopped, ∃ j, r'.get? i.instanceId = some j ∧ Unready j.state ∧ j.model = i.model
  same : ∀ id i, r.get? id = some i → i.model = profile.publicName → i ∉ stopped →
    r'.get? id = some i

/-- A prefix of the sorted candidates. -/
lemma oldest_prefix {eligible stopped : List BackendInstance}
    (h : stopped <+: eligible.insertionSort fun a b => idleReference a ≤ idleReference b) :
    ∀ i ∈ stopped, ∀ j ∈ eligible, j ∉ stopped → idleReference i ≤ idleReference j := by
  have htotal : Std.Total fun a b : BackendInstance => idleReference a ≤ idleReference b :=
    ⟨fun a b => le_total _ _⟩
  have htrans : IsTrans BackendInstance fun a b => idleReference a ≤ idleReference b :=
    ⟨fun _ _ _ => le_trans⟩
  intro i hi j hj hnot
  have hsorted := List.pairwise_insertionSort
    (fun a b : BackendInstance => idleReference a ≤ idleReference b) eligible
  obtain ⟨rest, hrest⟩ := h
  rw [← hrest, List.pairwise_append] at hsorted
  have hmem := (List.mem_insertionSort (r := fun a b => idleReference a ≤ idleReference b)).mpr hj
  rw [← hrest, List.mem_append] at hmem
  exact hsorted.2.2 i hi j (hmem.resolve_left hnot)

/-- Nothing is done to the instances of a profile. -/
lemma IdleRun.idle {queueLengths : Dict String ℤ} {start finish : DateTime} {completed : Prop}
    {r : Registry} (hr : KeyedOf profile.publicName r) (htime : start ≤ finish)
    (h : completed → 0 < (queueLengths.get? profile.publicName).getD 0) :
    ∃ eligible, IdleRun queueLengths profile start finish completed r r eligible [] := by
  classical
  refine ⟨(r.readyForModel profile.publicName).filter fun i => Eligible profile i start, ?_⟩
  have hnil : ∀ {P : BackendInstance → Prop}, ∀ i ∈ ([] : List BackendInstance), P i :=
    fun i hi => absurd hi List.not_mem_nil
  exact {
    sound i hi := by
      rw [List.mem_filter, decide_eq_true_eq] at hi
      exact hi.imp_right fun h => h.mono htime
    all i hi hel := List.mem_filter.mpr ⟨hi, decide_eq_true_eq.mpr hel⟩
    nodup := (List.Nodup.of_map _ (nodup_ready hr)).filter _
    distinct := List.nodup_nil
    subset := List.nil_subset _
    oldest := hnil
    floor := le_max_left _ _
    queued _ := rfl
    full hc hq := absurd (h hc) hq
    unready := hnil
    same _ _ hi _ _ := hi }

/-- Only records of the models are changed, and no record changes its model. -/
structure Confined (models : List String) (r r' : Registry) : Prop where
  elsewhere : ∀ id, (∀ i, r.get? id = some i → i.model ∉ models) → r'.get? id = r.get? id
  model : ∀ id i, r.get? id = some i → ∃ j, r'.get? id = some j ∧ j.model = i.model

lemma Confined.refl (models : List String) (r : Registry) : Confined models r r :=
  ⟨fun _ _ => rfl, fun _ i hi => ⟨i, hi, rfl⟩⟩

lemma Confined.sameOf {models : List String} {r r' : Registry} (h : Confined models r r')
    {model : String} (hmodel : model ∉ models) : SameOf model r r' := by
  intro id i hi
  constructor
  · intro h'
    rw [← h.elsewhere id fun k hk => ?_]
    · exact h'
    obtain ⟨j, hj, hmodel'⟩ := h.model id k hk
    obtain rfl := Option.some.inj (hj.symm.trans h')
    rw [← hmodel', hi]
    exact hmodel
  · intro h'
    rw [h.elsewhere id fun k hk => ?_, h']
    obtain rfl := Option.some.inj (hk.symm.trans h')
    exact hi ▸ hmodel

lemma StoppedIn.confined {l : List BackendInstance} {r r' : Registry} (h : StoppedIn l r r')
    {model : String} (hr : KeyedOf model r) (hl : l ⊆ r.readyForModel model) :
    Confined [model] r r' := by
  refine ⟨fun id hid => h.same id fun hmem => ?_, fun id i hi => ?_⟩
  · obtain ⟨i, hi, rfl⟩ := List.mem_map.mp hmem
    exact hid i (get?_ready hr (hl hi)) (List.mem_singleton.mpr (mem_readyForModel.mp (hl hi)).1)
  · by_cases hmem : id ∈ l.map BackendInstance.instanceId
    · obtain ⟨k, hk, rfl⟩ := List.mem_map.mp hmem
      obtain ⟨j, hj, -, hmodel⟩ := h.unready k hk
      rw [get?_ready hr (hl hk), Option.some.injEq] at hi
      exact ⟨j, hj, hi ▸ hmodel⟩
    · exact ⟨i, (h.same id hmem).trans hi, rfl⟩

/-- Why a run does not complete: a candidate cannot be read, or a stop raises what is no
`Exception`. -/
def Fails (queueLengths : Dict String ℤ) (profiles : List ModelProfile) (r : Registry) (e : Exn) :
    Prop :=
  e.isException = false ∨ ∃ p ∈ profiles, ¬0 < (queueLengths.get? p.publicName).getD 0 ∧
    ∃ i ∈ r.readyForModel p.publicName, Unreadable p i

/-- The run for the profiles in the list, begun in `u`. -/
structure RunsFor (queueLengths : Dict String ℤ) (profiles : List ModelProfile) (u : LifecycleState)
    (x : Except Exn α) (s : LifecycleState) : Prop where
  clock : u.clock ≤ s.clock
  each : ∀ p ∈ profiles, ∃ eligible stopped, IdleRun queueLengths p u.clock s.clock
    (∃ a, x = .ok a) u.registry s.registry eligible stopped
  confined : Confined (profiles.map ModelProfile.publicName) u.registry s.registry
  fails : ∀ e, x = .error e → Fails queueLengths profiles u.registry e

variable {queueLengths : Dict String ℤ}

lemma triple_stopIdleOf (u : LifecycleState) (hu : KeyedOf profile.publicName u.registry) :
    Triple world I (fun s => s = u) (stopIdleOf settings queueLengths profile)
      (RunsFor queueLengths [profile] u) := by
  have hquiet : ∀ {α : Type} {x : Except Exn α} {s : LifecycleState}, Later u s →
      ((∃ a, x = .ok a) → 0 < (queueLengths.get? profile.publicName).getD 0) →
      (∀ e, x = .error e → Fails queueLengths [profile] u.registry e) →
        RunsFor queueLengths [profile] u x s := by
    intro α x s hlater hx herror
    have hidle := IdleRun.idle hu hlater.2 hx
    refine ⟨hlater.2, fun p hp => ?_, hlater.1 ▸ Confined.refl _ _, herror⟩
    obtain rfl := List.mem_singleton.mp hp
    rw [hlater.1]
    exact hidle.imp fun _ h => ⟨[], h⟩
  unfold stopIdleOf
  split
  · next hqueue =>
    exact Triple.of_done fun s hs => hquiet (hs ▸ ⟨rfl, le_refl _⟩) (fun _ => hqueue)
      fun e h => by cases h
  next hqueue =>
  refine Triple.of_get fun v => triple_from fun w hw => ?_
  obtain ⟨rfl, rfl⟩ := hw
  dsimp only
  refine (triple_idleCandidates _ w).bind (fun eligible => triple_from fun v hv => ?_)
    fun e s hs => ?_
  · obtain ⟨hlater, heligible, -⟩ := hv
    obtain ⟨hsub, hsound, hall⟩ := heligible eligible rfl
    -- the list of those to stop, in order
    have hperm := List.perm_insertionSort (fun a b => idleReference a ≤ idleReference b) eligible
    have hready : eligible ⊆ w.registry.readyForModel profile.publicName := hsub.subset
    have htake : ∀ {l : List BackendInstance}, l <+: ((eligible.insertionSort fun a b =>
        idleReference a ≤ idleReference b).take (removable profile w.registry).toNat) →
          l ⊆ eligible := fun h i hi => hperm.subset (List.mem_of_mem_take (h.subset hi))
    have hids := hsub.map BackendInstance.instanceId
    have hnodup := (nodup_ready hu).sublist hids
    refine (triple_stopEach (I := I) (r := w.registry) (c := v.clock)
      (((hperm.map BackendInstance.instanceId).nodup_iff.mpr hnodup).sublist
        ((List.take_sublist _ _).map _))
      fun i hi => get?_ready hu (hready (htake List.prefix_rfl hi))).weaken
        (fun s hs => ?_) fun x s hs => ?_
    · obtain rfl : s = v := hs
      exact ⟨hlater.1, le_refl _⟩
    obtain ⟨hclock, herror, stopped, hinitial, hfull, hstopped⟩ := hs
    refine ⟨hlater.2.trans hclock, fun p hp => ?_, hstopped.confined hu fun i hi =>
      hready (htake hinitial hi), fun e he => Or.inl (herror e he)⟩
    obtain rfl := List.mem_singleton.mp hp
    have hlen := hinitial.length_le
    rw [List.length_take, List.length_insertionSort] at hlen
    refine ⟨eligible, stopped, ?_⟩
    exact {
      sound i hi := ⟨hready hi, (hsound i hi).mono hclock⟩
      all := hall
      nodup := List.Nodup.of_map _ hnodup
      distinct := (List.Nodup.of_map _ (((hperm.map BackendInstance.instanceId).nodup_iff.mpr
        hnodup).sublist ((List.take_sublist _ _).map _))).sublist hinitial.sublist
      subset := htake hinitial
      oldest := oldest_prefix (hinitial.trans (List.take_prefix _ _))
      floor := by
        have : 0 ≤ removable p w.registry := le_max_left _ _
        omega
      queued h := absurd h hqueue
      full := by
        rintro ⟨a, rfl⟩ -
        have : 0 ≤ removable p w.registry := le_max_left _ _
        rw [hfull a rfl, List.length_take, List.length_insertionSort]
        omega
      unready := hstopped.unready
      same id i hi hmodel hnot := by
        rw [hstopped.same id fun hmem => ?_, hi]
        obtain ⟨j, hj, rfl⟩ := List.mem_map.mp hmem
        rw [get?_ready hu (hready (htake hinitial hj)), Option.some.injEq] at hi
        exact hnot (hi ▸ hj) }
  · obtain ⟨hlater, -, herror⟩ := hs
    obtain ⟨i, hi, hread⟩ := herror e rfl
    refine hquiet hlater (by rintro ⟨_, h⟩; cases h) fun _ _ => Or.inr ?_
    exact ⟨profile, List.mem_singleton_self _, hqueue, i, hi, hread⟩

/-! ### All models -/

section Compose

variable {start finish start' finish' : DateTime} {completed completed' : Prop}
  {r r' r'' : Registry} {eligible stopped : List BackendInstance}

/-- Others go on with the run, and leave the model alone. -/
lemma IdleRun.later (h : IdleRun queueLengths profile start finish completed r r' eligible stopped)
    (hfinish : finish ≤ finish') (hcompleted : completed' → completed)
    (hsame : SameOf profile.publicName r' r'') :
    IdleRun queueLengths profile start finish' completed' r r'' eligible stopped where
  sound i hi := (h.sound i hi).imp_right fun hel => hel.mono hfinish
  all := h.all
  nodup := h.nodup
  distinct := h.distinct
  subset := h.subset
  oldest := h.oldest
  floor := h.floor
  queued := h.queued
  full hc := h.full (hcompleted hc)
  unready i hi := by
    obtain ⟨j, hj, hstate, hmodel⟩ := h.unready i hi
    have hi := (mem_readyForModel.mp (h.sound i (h.subset hi)).1).1
    exact ⟨j, (hsame _ j (hmodel.trans hi)).mpr hj, hstate, hmodel⟩
  same id i hi hmodel hnot := (hsame id i hmodel).mpr (h.same id i hi hmodel hnot)

/-- The run has gone on before, and left the model alone. -/
lemma IdleRun.earlier
    (h : IdleRun queueLengths profile start' finish completed r' r'' eligible stopped)
    (hstart : start ≤ start') (hcompleted : completed' → completed)
    (hsame : SameOf profile.publicName r r') :
    IdleRun queueLengths profile start finish completed' r r'' eligible stopped := by
  have hready := hsame.ready
  have hremovable : removable profile r' = removable profile r := by
    rw [removable, removable, hready.length_eq]
  exact {
    sound i hi := (h.sound i hi).imp_left fun hi => hready.mem_iff.mp hi
    all i hi hel := h.all i (hready.mem_iff.mpr hi) (hel.mono hstart)
    nodup := h.nodup
    distinct := h.distinct
    subset := h.subset
    oldest := h.oldest
    floor := hremovable ▸ h.floor
    queued := h.queued
    full hc hq := hremovable ▸ h.full (hcompleted hc) hq
    unready := h.unready
    same id i hi hmodel hnot := h.same id i ((hsame id i hmodel).mpr hi) hmodel hnot }

lemma Confined.cons {model : String} {models : List String} (h : Confined [model] r r')
    (h' : Confined models r' r'') : Confined (model :: models) r r'' := by
  refine ⟨fun id hid => ?_, fun id i hi => ?_⟩
  · have hfirst : r'.get? id = r.get? id := h.elsewhere id fun i hi hmem =>
      hid i hi (List.mem_singleton.mp hmem ▸ List.mem_cons_self)
    rw [h'.elsewhere id fun i hi hmem => ?_, hfirst]
    exact hid i (hfirst ▸ hi) (List.mem_cons_of_mem _ hmem)
  · obtain ⟨j, hj, hmodel⟩ := h.model id i hi
    obtain ⟨k, hk, hmodel'⟩ := h'.model id j hj
    exact ⟨k, hk, hmodel'.trans hmodel⟩

end Compose

lemma Fails.cons {profiles : List ModelProfile} {r r' : Registry} {e : Exn}
    (h : Fails queueLengths profiles r' e)
    (hsame : ∀ p ∈ profiles, SameOf p.publicName r r') :
    Fails queueLengths (profile :: profiles) r e := by
  refine h.imp_right ?_
  rintro ⟨p, hp, hqueue, i, hi, hread⟩
  exact ⟨p, List.mem_cons_of_mem _ hp, hqueue, i, (hsame p hp).ready.mem_iff.mp hi, hread⟩

lemma triple_stopIdleOfEach {profiles : List ModelProfile} (u : LifecycleState)
    (hu : ∀ p ∈ profiles, KeyedOf p.publicName u.registry)
    (hdistinct : (profiles.map ModelProfile.publicName).Nodup) :
    Triple world I (fun s => s = u) (mapEach (stopIdleOf settings queueLengths) profiles)
      (RunsFor queueLengths profiles u) := by
  induction profiles generalizing u with
  | nil =>
    refine Triple.of_done fun s hs => ?_
    obtain rfl : s = u := hs
    exact ⟨le_refl _, fun p hp => absurd hp List.not_mem_nil, Confined.refl _ _,
      fun e h => by cases h⟩
  | cons p profiles ih =>
    rw [List.forall_mem_cons] at hu
    rw [List.map_cons, List.nodup_cons] at hdistinct
    have hne : ∀ q ∈ profiles, q.publicName ∉ [p.publicName] := fun q hq h =>
      hdistinct.1 (List.mem_singleton.mp h ▸ List.mem_map_of_mem hq)
    refine (triple_stopIdleOf u hu.1).bind (fun a => triple_from fun v hv => ?_) fun e s hs => ?_
    · -- the model of `p` is done, and the others are as they were
      have hsame : ∀ q ∈ profiles, SameOf q.publicName u.registry v.registry :=
        fun q hq => hv.confined.sameOf (hne q hq)
      have hrest : ∀ {β γ : Type} {y : Except Exn β} {z : Except Exn γ} {s : LifecycleState},
          RunsFor queueLengths profiles v y s → ((∃ c, z = .ok c) → ∃ b, y = .ok b) →
          (∀ e, z = .error e → y = .error e) → RunsFor queueLengths (p :: profiles) u z s := by
        intro β γ y z s hs hok herror
        refine ⟨hv.clock.trans hs.clock, List.forall_mem_cons.mpr ⟨?_, fun q hq => ?_⟩,
          hv.confined.cons hs.confined, fun e he => (hs.fails e (herror e he)).cons hsame⟩
        · obtain ⟨eligible, stopped, h⟩ := hv.each p (List.mem_singleton_self p)
          exact ⟨eligible, stopped, h.later hs.clock (fun _ => ⟨a, rfl⟩)
            (hs.confined.sameOf hdistinct.1)⟩
        · obtain ⟨eligible, stopped, h⟩ := hs.each q hq
          exact ⟨eligible, stopped, h.earlier hv.clock hok (hsame q hq)⟩
      refine (ih v (fun q hq => (hsame q hq).keyed (hu.2 q hq)) hdistinct.2).bind
        (fun b => Triple.of_done fun s hs => ?_) fun e s hs => ?_
      · exact hrest hs (fun _ => ⟨b, rfl⟩) fun e h => by cases h
      · exact hrest hs (by rintro ⟨_, h⟩; cases h) fun e' h => by cases h; rfl
    · refine ⟨hs.clock, List.forall_mem_cons.mpr ⟨?_, fun q hq => ?_⟩,
        hs.confined.cons (Confined.refl _ _), fun e' he => ?_⟩
      · obtain ⟨eligible, stopped, h⟩ := hs.each p (List.mem_singleton_self p)
        exact ⟨eligible, stopped, h.later (le_refl _) (by rintro ⟨_, h⟩; cases h)
          fun _ _ _ => Iff.rfl⟩
      · have hnever : False → 0 < (queueLengths.get? q.publicName).getD 0 := False.elim
        obtain ⟨eligible, h⟩ := IdleRun.idle (hu.2 q hq) (le_refl u.clock) hnever
        exact ⟨eligible, [], h.later hs.clock (by rintro ⟨_, h⟩; cases h)
          (hs.confined.sameOf (hne q hq))⟩
      · cases he
        refine (hs.fails e rfl).imp_right ?_
        rintro ⟨q, hq, h⟩
        exact ⟨q, List.mem_singleton.mp hq ▸ List.mem_cons_self, h⟩

/-- The floor of the replicas. -/
lemma IdleRun.keeps {start finish : DateTime} {completed : Prop} {r r' : Registry}
    {eligible stopped : List BackendInstance} (hr : KeyedOf profile.publicName r)
    (h : IdleRun queueLengths profile start finish completed r r' eligible stopped) :
    min profile.minReplicas ((r.readyForModel profile.publicName).length : ℤ) ≤
      (r'.readyForModel profile.publicName).length := by
  classical
  have hnodup := List.Nodup.of_map _ (nodup_ready hr)
  have hleft : ((r.readyForModel profile.publicName).filter (· ∉ stopped)).length ≤
      (r'.readyForModel profile.publicName).length := by
    refine (List.subperm_of_subset (hnodup.filter _) fun i hi => ?_).length_le
    obtain ⟨hi, hnot⟩ := List.mem_filter.mp hi
    obtain ⟨hmodel, hstate, id, hid⟩ := mem_readyForModel.mp hi
    exact mem_readyForModel.mpr ⟨hmodel, hstate, id, h.same id i hid hmodel (by simpa using hnot)⟩
  have hgone : ((r.readyForModel profile.publicName).filter (· ∈ stopped)).length ≤
      stopped.length := by
    refine (List.subperm_of_subset (hnodup.filter _) fun i hi => ?_).length_le
    simpa using (List.mem_filter.mp hi).2
  have hsum := List.length_eq_countP_add_countP (p := (· ∈ stopped))
    (l := r.readyForModel profile.publicName)
  have hfloor := h.floor
  rw [removable] at hfloor
  rw [← List.countP_eq_length_filter] at hleft hgone
  simp only [decide_not, decide_eq_true_eq] at hsum hleft
  omega

lemma run_stopIdleInstances {profiles : List ModelProfile} {s s' : LifecycleState}
    {p' : Service (List BackendInstance)} {calls : List (Event LifecycleCall LifecycleCall.Answer)}
    (hkeyed : Keyed s) (hdistinct : (profiles.map ModelProfile.publicName).Nodup)
    (hturn : (stopIdleInstances settings queueLengths profiles).Turn world s calls p' s') :
    ∃ x, p' = .done x ∧ RunsFor queueLengths profiles s x s' := by
  have hrun : Triple world (fun _ => False) (fun t => t = s)
      (stopIdleInstances settings queueLengths profiles) (RunsFor queueLengths profiles s) := by
    refine (triple_stopIdleOfEach s (fun _ _ id i hi _ => hkeyed id i hi) hdistinct).bind
      (fun l => Triple.of_done fun t ht => ?_) fun e t ht => ?_
    · refine ⟨ht.clock, fun p hp => ?_, ht.confined, fun e h => by cases h⟩
      obtain ⟨eligible, stopped, h⟩ := ht.each p hp
      exact ⟨eligible, stopped, h.later (le_refl _) (fun _ => ⟨l, rfl⟩) fun _ _ _ => Iff.rfl⟩
    · refine ⟨ht.clock, fun p hp => ?_, ht.confined, fun e' h => ?_⟩
      · obtain ⟨eligible, stopped, h⟩ := ht.each p hp
        exact ⟨eligible, stopped, h.later (le_refl _) (by rintro ⟨_, h⟩; cases h)
          fun _ _ _ => Iff.rfl⟩
      · cases h
        exact ht.fails e rfl
  rcases wpt_turn (hrun s s rfl) hturn with ⟨x, rfl, hx⟩ | ⟨_, _, -, hown, -⟩
  · exact ⟨x, rfl, hx⟩
  · exact hown.elim

/-- **One run of the stop of idle instances.** -/
theorem idle_stops_run (profiles : List ModelProfile) {s s' : LifecycleState}
    {p' : Service (List BackendInstance)} {calls : List (Event LifecycleCall LifecycleCall.Answer)}
    (hkeyed : Keyed s) (hdistinct : (profiles.map ModelProfile.publicName).Nodup)
    (hturn : (stopIdleInstances settings queueLengths profiles).Turn world s calls p' s') :
    s.clock ≤ s'.clock ∧ ∃ x, p' = .done x ∧
      (∀ p ∈ profiles, min p.minReplicas ((s.registry.readyForModel p.publicName).length : ℤ) ≤
        (s'.registry.readyForModel p.publicName).length) ∧
      (∀ id, s'.registry.get? id ≠ s.registry.get? id → ∃ i, s.registry.get? id = some i ∧
        ∃ p ∈ profiles, i.model = p.publicName ∧ i.state = .ready ∧ Eligible p i s'.clock ∧
          ¬0 < (queueLengths.get? p.publicName).getD 0) ∧
      (∀ p ∈ profiles, ∃ eligible stopped, IdleRun queueLengths p s.clock s'.clock
        (∃ a, x = .ok a) s.registry s'.registry eligible stopped) ∧
      ∀ e, x = .error e → Fails queueLengths profiles s.registry e := by
  have hkeyedOf : ∀ p ∈ profiles, KeyedOf p.publicName s.registry :=
    fun _ _ id i hi _ => hkeyed id i hi
  obtain ⟨x, rfl, hx⟩ := run_stopIdleInstances hkeyed hdistinct hturn
  refine ⟨hx.clock, x, rfl, fun p hp => ?_, fun id hid => ?_, hx.each, hx.fails⟩
  · obtain ⟨eligible, stopped, h⟩ := hx.each p hp
    exact h.keeps (hkeyedOf p hp)
  have hmodel : ∃ i, s.registry.get? id = some i ∧
      i.model ∈ profiles.map ModelProfile.publicName := by
    by_contra hnone
    exact hid (hx.confined.elsewhere id fun i hi hmem => hnone ⟨i, hi, hmem⟩)
  obtain ⟨i, hi, hmem⟩ := hmodel
  obtain ⟨p, hp, hmodel⟩ := List.mem_map.mp hmem
  obtain ⟨eligible, stopped, h⟩ := hx.each p hp
  have hstopped : i ∈ stopped := by
    by_contra hnot
    exact hid ((h.same id i hi hmodel.symm hnot).trans hi.symm)
  obtain ⟨hready, heligible⟩ := h.sound i (h.subset hstopped)
  refine ⟨i, hi, p, hp, hmodel.symm, (mem_readyForModel.mp hready).2.1, heligible,
    fun hqueue => ?_⟩
  rw [h.queued hqueue] at hstopped
  exact List.not_mem_nil hstopped

/-! ### Runs that complete -/

/-- The times of the record are those of `now_iso`, and its own TTL, if it has one, is a number. -/
structure Timed (i : BackendInstance) : Prop where
  updatedAt : ∃ t, i.updatedAt = nowIso t
  lastUsedAt : ∀ text, i.lastUsedAt = some text → ∃ t, text = nowIso t
  idleTtl : i.metadata.get "idle_ttl_seconds" = .null ∨
    ∃ n, i.metadata.get "idle_ttl_seconds" = .int n

lemma Timed.readable {i : BackendInstance} (h : Timed i) : ¬ Unreadable profile i := by
  have hreference : ∃ t, idleReference i = nowIso t := by
    obtain ⟨u, hu⟩ := h.updatedAt
    cases hlast : i.lastUsedAt with
    | none => exact ⟨u, idleReference_of_none hlast hu⟩
    | some text =>
      obtain ⟨t, rfl⟩ := h.lastUsedAt text hlast
      exact ⟨t, idleReference_of_some hlast⟩
  rintro ⟨-, ⟨e, he⟩ | ⟨e, he⟩⟩
  · obtain ⟨t, ht⟩ := hreference
    rw [ht, parseIso_nowIso] at he
    cases he
  · rcases h.idleTtl with hnull | ⟨n, hint⟩
    · rw [idleTtlSecondsFor, hnull] at he
      cases he
    · rw [idleTtlSecondsFor, hint] at he
      cases he

lemma timed_keeps (settings : LifecycleSettings) : RecordKeeps settings (fun _ => True) Timed where
  mark _ _ _ t h := { h with updatedAt := ⟨t, rfl⟩ }
  adjust i delta t h := by
    refine { h with updatedAt := ⟨t, rfl⟩, lastUsedAt := fun text htext => ?_ }
    rw [adjusted] at htext
    split at htext
    · exact ⟨t, (Option.some.inj htext).symm⟩
    · exact h.lastUsedAt text htext
  reshape i j h hj := by
    obtain ⟨t, ht⟩ := h.updatedAt
    have hupdated := hj.updatedAt.resolve_right (ht ▸ nowIso_ne_empty t)
    have httl := hj.metadata "idle_ttl_seconds" (by decide)
    exact ⟨⟨t, hupdated.trans ht⟩, hj.lastUsedAt ▸ h.lastUsedAt, httl ▸ h.idleTtl⟩
  external i t h := {
    updatedAt := ⟨t, rfl⟩
    lastUsedAt text htext := by cases h.fresh.2.symm.trans htext
    idleTtl := Or.inl h.idleTtl }
  started profile i extra t _ hextra h := {
    updatedAt := ⟨t, rfl⟩
    lastUsedAt text htext := by cases h.fresh.2.symm.trans htext
    idleTtl := Or.inr ⟨_, (Mapping.get_merge_of_ne i.metadata extra
      (hextra _ List.mem_cons_self)).trans h.idleTtl⟩ }

/-- All records that lifecycle has written can be read. -/
theorem server_timed {A : Server → ServerStep → Prop} {S : Server}
    (hS : serverLts.Reachable A S) : Records Timed S.processes.state := by
  have hacts : ∀ S l, A S l → ActsWith (fun _ => True) S l := by
    intro S l _
    cases l with
    | restart _ _ => exact trivial
    | work l =>
      cases l with
      | resume _ _ => exact trivial
      | begin _ _ => exact ⟨fun _ _ => trivial, fun _ _ _ _ _ => trivial⟩
  obtain ⟨S₀, hinit, hrun⟩ := hS
  exact server_records (fun _ _ _ _ => trivial) (fun settings _ => timed_keeps settings)
    (timed_keeps localSettings).reshape ⟨S₀, hinit, hrun.mono hacts⟩

/-- **A run completes** in every state of the server, unless it is cancelled. -/
theorem idle_stops_complete {A : Server → ServerStep → Prop} {S : Server}
    (hS : serverLts.Reachable A S) {profiles : List ModelProfile} {s' : LifecycleState}
    (hdistinct : (profiles.map ModelProfile.publicName).Nodup)
    {p' : Service (List BackendInstance)} {calls : List (Event LifecycleCall LifecycleCall.Answer)}
    (hturn : (stopIdleInstances settings queueLengths profiles).Turn world S.processes.state calls
      p' s') : ∃ x, p' = .done x ∧ ∀ e, x = .error e → e.isException = false := by
  obtain ⟨hkeyed, htimed⟩ := server_timed hS
  obtain ⟨x, rfl, hx⟩ := run_stopIdleInstances hkeyed hdistinct hturn
  refine ⟨x, rfl, fun e he => (hx.fails e he).resolve_right ?_⟩
  rintro ⟨p, hp, -, i, hi, hunreadable⟩
  obtain ⟨-, -, id, hid⟩ := mem_readyForModel.mp hi
  exact (htimed id i hid).readable hunreadable

/-! ### Two replicas -/

/-- A model of which one replica stays. -/
def pairProfile : ModelProfile := { chatProfile with minReplicas := 1, maxReplicas := 2 }

def usedAt (id : String) (second : Fin 1000) : BackendInstance :=
  { dryInstance id pairProfile with lastUsedAt := some (nowIso (atSecond second)) }

/-- Two ready instances, of which the second has been used first. -/
def twoReady : LifecycleState where
  registry := (Dict.empty.set "chat-1" (usedAt "chat-1" 10)).set "chat-2" (usedAt "chat-2" 5)
  clock := atSecond 10
  log := []

lemma twoReady_keyed : Keyed twoReady := by
  intro id i hi
  simp only [twoReady, Dict.get?_set, Dict.get?_empty] at hi
  split_ifs at hi with h₂ h₁
  · cases hi
    exact h₂.symm
  · cases hi
    exact h₁.symm

/-- The run at second 200. -/
def sampleRun : List (Event LifecycleCall LifecycleCall.Answer) × Service (List BackendInstance) ×
    LifecycleState :=
  (stopIdleInstances (settingsFor true pairProfile) .empty [pairProfile]).turnWith world
    (answersAt (atSecond 200) []) twoReady

/-- Both instances are idle, and the one that was used first is stopped. -/
theorem idle_stops_run_sample : (twoReady.registry.readyForModel "chat").length = 2 ∧
    (sampleRun.2.2.registry.readyForModel "chat").map BackendInstance.instanceId = ["chat-1"] ∧
    ∃ x, sampleRun.2.1 = .done x ∧
      min 1 ((twoReady.registry.readyForModel "chat").length : ℤ) ≤
        (sampleRun.2.2.registry.readyForModel "chat").length := by
  obtain ⟨-, x, hx, hfloor, -⟩ := idle_stops_run [pairProfile] twoReady_keyed
    (List.nodup_singleton _) (turn_turnWith (allowed_answersAt (atSecond 200) []) _ twoReady)
  exact ⟨by decide +kernel, by decide +kernel, x, hx,
    hfloor pairProfile (List.mem_singleton_self _)⟩

end Orchestrator.Lifecycle.IdleReplicas
