import Mathlib.Data.Finset.Card
import Orchestrator.Lib.Domains
import Orchestrator.Initialization

/-!
The active instances of a model, and what an operation that works on some models keeps while others
work on other models.

A new instance takes one more slot of its model; a mark of a record takes the slot of its id, which
it has already. The ids are owned: under one id there are only ever instances of one model.
-/

namespace Orchestrator.Lifecycle.Replicas

open Lib Lib.Coro Clock

variable {α : Type} {settings : LifecycleSettings} {owner : String → String} {r r' : Registry}
  {model id : String}

/-! ### Active instances -/

/-- The ids of the active instances of a model. -/
def activeIds (r : Registry) (model : String) : Finset String :=
  ((r.entries.filter fun p => p.2.model = model && p.2.state.isActive).map Prod.fst).toFinset

lemma mem_activeIds : id ∈ activeIds r model ↔
    ∃ i, r.get? id = some i ∧ i.model = model ∧ i.state.isActive = true := by
  simp only [activeIds, List.mem_toFinset, List.mem_map, List.mem_filter, Bool.and_eq_true,
    decide_eq_true_eq, Dict.get?_eq_some]
  constructor
  · rintro ⟨⟨id, i⟩, ⟨hi, h⟩, rfl⟩
    exact ⟨i, hi, h⟩
  · rintro ⟨i, hi, h⟩
    exact ⟨(id, i), ⟨hi, h⟩, rfl⟩

lemma card_activeIds (r : Registry) (model : String) :
    (activeIds r model).card = (r.activeForModel model).length := by
  rw [activeIds, List.toFinset_card_of_nodup (r.nodup.sublist (List.filter_sublist.map _)),
    List.length_map, Registry.activeForModel, Registry.list, Dict.values, List.filter_map,
    List.length_map]
  rfl

lemma activeIds_congr {model' : String}
    (h : ∀ id, (∃ i, r'.get? id = some i ∧ i.model = model' ∧ i.state.isActive = true) ↔
      ∃ i, r.get? id = some i ∧ i.model = model ∧ i.state.isActive = true) :
    activeIds r' model' = activeIds r model := by
  ext id
  rw [mem_activeIds, mem_activeIds, h]

/-- A record that is set is active, or not, under its own id only. -/
lemma mem_activeIds_set {j : BackendInstance} {x : String} : x ∈ activeIds (r.set id j) model ↔
    if x = id then j.model = model ∧ j.state.isActive = true else x ∈ activeIds r model := by
  rw [mem_activeIds, Dict.get?_set]
  split
  · simp
  · rw [mem_activeIds]

lemma activeIds_set_subset (r : Registry) (id : String) (j : BackendInstance) (model : String) :
    activeIds (r.set id j) model ⊆ insert id (activeIds r model) := by
  intro x hx
  rw [mem_activeIds_set] at hx
  rw [Finset.mem_insert]
  split at hx
  · next h => exact Or.inl h
  · exact Or.inr hx

lemma activeIds_set_idle {j : BackendInstance}
    (hj : ¬ (j.model = model ∧ j.state.isActive = true)) :
    activeIds (r.set id j) model ⊆ activeIds r model := by
  intro x hx
  rw [mem_activeIds_set] at hx
  split at hx
  · exact absurd hx hj
  · exact hx

/-- Records of other models are another matter. -/
lemma activeIds_set_other {j : BackendInstance} (hj : j.model ≠ model)
    (hid : ∀ i, r.get? id = some i → i.model ≠ model) :
    activeIds (r.set id j) model = activeIds r model := by
  ext x
  rw [mem_activeIds_set]
  split
  · next h =>
    subst h
    refine ⟨fun h => absurd h.1 hj, fun h => ?_⟩
    obtain ⟨i, hi, hmodel, -⟩ := mem_activeIds.mp h
    exact absurd hmodel (hid i hi)
  · rfl

lemma activeIds_erase {i : BackendInstance} (hi : r.get? id = some i)
    (hidle : i.state.isActive = false) : activeIds (r.erase id) model = activeIds r model := by
  refine activeIds_congr fun x => exists_congr fun j => and_congr_left fun h => ?_
  rw [Dict.get?_erase]
  split
  · next hx =>
    subst hx
    refine ⟨(fun h => by cases h), fun hj => ?_⟩
    rw [hi] at hj
    obtain rfl := Option.some.inj hj
    simp [hidle] at h
  · rfl

/-! ### Slots -/

/-- What the configuration allows of a model; of a dynamic one, the first instance. -/
def replicaLimit (settings : LifecycleSettings) (model : String) : ℤ :=
  match settings.profiles.get? model with
  | some profile => profile.maxReplicas
  | none => 1

/-- One more instance of the model is within its limit. -/
def Room (settings : LifecycleSettings) (model : String) (r : Registry) : Prop :=
  ((activeIds r model).card : ℤ) < replicaLimit settings model

/-- The instance under the id, active or not, is within the limit. -/
def Slot (settings : LifecycleSettings) (id model : String) (r : Registry) : Prop :=
  ((insert id (activeIds r model)).card : ℤ) ≤ replicaLimit settings model

lemma Slot.of_active (hid : id ∈ activeIds r model)
    (h : ((activeIds r model).card : ℤ) ≤ replicaLimit settings model) :
    Slot settings id model r := by
  rwa [Slot, Finset.insert_eq_of_mem hid]

lemma Slot.limited (h : Slot settings id model r) :
    ((activeIds r model).card : ℤ) ≤ replicaLimit settings model :=
  (Int.ofNat_le.mpr (Finset.card_le_card (Finset.subset_insert _ _))).trans h

/-- What is not active leaves its slot. -/
lemma Slot.room (h : Slot settings id model r) (hid : id ∉ activeIds r model) :
    Room settings model r := by
  rw [Slot, Finset.card_insert_of_notMem hid, Nat.cast_add, Nat.cast_one] at h
  exact Int.lt_of_add_one_le h

lemma Room.slot (h : Room settings model r) (id : String) : Slot settings id model r := by
  have hcard : ((insert id (activeIds r model)).card : ℤ) ≤ (activeIds r model).card + 1 := by
    exact_mod_cast Finset.card_insert_le id (activeIds r model)
  exact hcard.trans (Int.add_one_le_of_lt h)

lemma Slot.set (h : Slot settings id model r) (j : BackendInstance) :
    Slot settings id model (r.set id j) := by
  refine le_trans (Int.ofNat_le.mpr (Finset.card_le_card ?_)) h
  rw [Finset.insert_subset_iff]
  exact ⟨Finset.mem_insert_self _ _, activeIds_set_subset r id j model⟩

/-- `B` holds on with fewer active instances of the models in `S`. -/
def Lasting (S : Set String) (B : Registry → Prop) : Prop :=
  ∀ r r', (∀ m ∈ S, activeIds r' m ⊆ activeIds r m) → B r → B r'

variable {S : Set String} {B B' : Registry → Prop}

lemma Lasting.mono {T : Set String} (h : Lasting S B) (hST : S ⊆ T) : Lasting T B :=
  fun r r' hr => h r r' fun m hm => hr m (hST hm)

lemma Lasting.and (h : Lasting S B) (h' : Lasting S B') : Lasting S fun r => B r ∧ B' r :=
  fun r r' hr hB => ⟨h r r' hr hB.1, h' r r' hr hB.2⟩

lemma lasting_const (p : Prop) : Lasting S fun _ => p := fun _ _ _ hp => hp

lemma lasting_room (h : model ∈ S) : Lasting S (Room settings model) :=
  fun _ _ hr => lt_of_le_of_lt (Int.ofNat_le.mpr (Finset.card_le_card (hr model h)))

lemma lasting_slot (h : model ∈ S) : Lasting S (Slot settings id model) :=
  fun _ _ hr => le_trans
    (Int.ofNat_le.mpr (Finset.card_le_card (Finset.insert_subset_insert id (hr model h))))

/-! ### Owned ids -/

/-- Every record is of the model that owns its id. -/
def Owned (owner : String → String) (r : Registry) : Prop :=
  ∀ id i, r.get? id = some i → i.model = owner id

instance (owner : String → String) (r : Registry) : Decidable (Owned owner r) :=
  decidable_of_iff (∀ p ∈ r.entries, p.2.model = owner p.1)
    (Dict.forall_entries (P := fun id (i : BackendInstance) => i.model = owner id))

/-- The registry that was changed. -/
def Note.before : Note → Option Registry
  | .changed r => some r
  | _ => none

/-- So it is in the registry, and was in all before it. -/
def EverOwned (owner : String → String) (s : LifecycleState) : Prop :=
  Owned owner s.registry ∧ ∀ e ∈ s.log, ∀ r ∈ Note.before e.note, Owned owner r

instance (owner : String → String) (s : LifecycleState) : Decidable (EverOwned owner s) :=
  inferInstanceAs (Decidable (_ ∧ _))

lemma everOwned_change {s : LifecycleState} :
    EverOwned owner (s.change r) ↔ Owned owner r ∧ EverOwned owner s := by
  refine and_congr_right fun _ => ?_
  rw [LifecycleState.change_log, List.forall_mem_cons]
  exact and_congr (by simp [Note.before]) Iff.rfl

lemma everOwned_noted {s : LifecycleState} {note : Note} (h : Note.before note = none) :
    EverOwned owner (s.noted note) ↔ EverOwned owner s := by
  refine and_congr_right fun _ => ?_
  rw [LifecycleState.noted_log, List.forall_mem_cons, h]
  exact and_iff_right fun r hr => by cases hr

lemma before_of_aboutProcess {note : Note} (h : note.AboutProcess) : Note.before note = none := by
  cases note with
  | changed _ => exact h.elim
  | _ => rfl

/-! ### Work on some models -/

/-- Since `s₀`, the active instances of models outside `S` are the same, and those of the models in
`S` are within their limits. -/
structure Guard (settings : LifecycleSettings) (owner : String → String) (S : Set String)
    (s₀ s : LifecycleState) : Prop where
  keyed : Keyed s
  since : EverOwned owner s → EverOwned owner s₀
  spares : EverOwned owner s → ∀ m ∉ S, activeIds s.registry m = activeIds s₀.registry m
  limited : EverOwned owner s →
    ∀ m ∈ S, ((activeIds s.registry m).card : ℤ) ≤ replicaLimit settings m

/-- From `s` to `t`, the active instances of the models in `S` are the same. -/
structure Elsewhere (owner : String → String) (S : Set String) (s t : LifecycleState) : Prop where
  keyed : Keyed t
  since : EverOwned owner t → EverOwned owner s
  same : EverOwned owner t → ∀ m ∈ S, activeIds t.registry m = activeIds s.registry m

/-- Operations work on sets of models; where no model is in two of them, each keeps away from the
others' instances. -/
def models (settings : LifecycleSettings) (owner : String → String) :
    Domains LifecycleState LifecycleCall LifecycleCall.Answer (Set String) where
  toWorld := world
  own := Guard settings owner
  others := Elsewhere owner
  apart S T := ∀ m ∈ S, m ∉ T
  symm _ _ h _ hT hS := h _ hS hT
  own_others _ _ _ _ hST h := ⟨h.keyed, h.since, fun ht m hm =>
    h.spares ht m fun hS => hST m hS hm⟩
  trans _ _ _ _ h h' := ⟨h'.keyed, fun hu => h.since (h'.since hu), fun hu m hm =>
    (h'.same hu m hm).trans (h.same (h'.since hu) m hm)⟩

variable {s₀ s : LifecycleState}

namespace Guard

lemma refl (hs : Keyed s) (h : EverOwned owner s →
    ∀ m ∈ S, ((activeIds s.registry m).card : ℤ) ≤ replicaLimit settings m) :
    Guard settings owner S s s := ⟨hs, id, fun _ _ _ => rfl, h⟩

/-- A change that is none for the active instances. -/
lemma same (h : Guard settings owner S s₀ s) (hkeyed : Keyed (s.change r))
    (hr : ∀ m, activeIds r m = activeIds s.registry m) :
    Guard settings owner S s₀ (s.change r) where
  keyed := hkeyed
  since hs := h.since (everOwned_change.mp hs).2
  spares hs m hm := (hr m).trans (h.spares (everOwned_change.mp hs).2 m hm)
  limited hs m hm := by
    rw [LifecycleState.change_registry, hr m]
    exact h.limited (everOwned_change.mp hs).2 m hm

/-- A record of a model in `S` is set, which has a slot if it is active. -/
lemma set (h : Guard settings owner S s₀ s) {j : BackendInstance} (hid : j.instanceId = id)
    (hS : EverOwned owner (s.change (s.registry.set id j)) → j.model ∈ S)
    (hslot : EverOwned owner s → j.state.isActive = true → Slot settings id j.model s.registry) :
    Guard settings owner S s₀ (s.change (s.registry.set id j)) where
  keyed := keyed_set h.keyed hid
  since hs := h.since (everOwned_change.mp hs).2
  spares hs m hm := by
    have hmodel := hS hs
    obtain ⟨howned, hs⟩ := everOwned_change.mp hs
    have hj : j.model = owner id := howned id j (Dict.get?_set_self _ _ _)
    have hne : j.model ≠ m := fun h => hm (h ▸ hmodel)
    refine (activeIds_set_other hne fun i hi him => hm ?_).trans (h.spares hs m hm)
    rwa [← him, hs.1 id i hi, ← hj]
  limited hs m hm := by
    obtain ⟨-, hs⟩ := everOwned_change.mp hs
    by_cases hj : j.model = m ∧ j.state.isActive = true
    · obtain ⟨rfl, hactive⟩ := hj
      exact le_trans (Int.ofNat_le.mpr (Finset.card_le_card (activeIds_set_subset _ _ _ _)))
        (hslot hs hactive)
    · exact le_trans (Int.ofNat_le.mpr (Finset.card_le_card (activeIds_set_idle hj)))
        (h.limited hs m hm)

lemma tick (h : Guard settings owner S s₀ s) (t : DateTime) :
    Guard settings owner S s₀ (s.tick t) :=
  ⟨h.keyed, h.since, h.spares, h.limited⟩

lemma noted (h : Guard settings owner S s₀ s) {note : Note}
    (hnote : Note.before note = none) : Guard settings owner S s₀ (s.noted note) :=
  ⟨h.keyed, fun hs => h.since ((everOwned_noted hnote).mp hs),
    fun hs => h.spares ((everOwned_noted hnote).mp hs),
    fun hs => h.limited ((everOwned_noted hnote).mp hs)⟩

end Guard

/-- A turn within `S`, after which `B` holds. -/
def Guarded (settings : LifecycleSettings) (owner : String → String) (S : Set String)
    (B : Registry → Prop) (s₀ s : LifecycleState) : Prop :=
  Guard settings owner S s₀ s ∧ (EverOwned owner s → B s.registry)

/-- What an operation on the models in `S` says of the registry while it waits. -/
def claim (settings : LifecycleSettings) (owner : String → String) (hB : Lasting S B) :
    Assertion ((models settings owner).within S) where
  holds s := Guarded settings owner S B s s
  stable s t hst h := by
    have hsame : EverOwned owner t → ∀ m ∈ S, activeIds t.registry m = activeIds s.registry m :=
      hst.same
    refine ⟨Guard.refl hst.keyed fun ht m hm => ?_, fun ht => ?_⟩
    · rw [hsame ht m hm]
      exact h.1.limited (hst.since ht) m hm
    · exact hB _ _ (fun m hm => (hsame ht m hm).le) (h.2 (hst.since ht))

abbrev holding (settings : LifecycleSettings) (owner : String → String) (S : Set String) :
    Holding LifecycleState LifecycleCall LifecycleCall.Answer Exn
      (Assertion ((models settings owner).within S)) :=
  asserting ((models settings owner).within S) Exn

lemma guarded_calm (s₀ : LifecycleState) :
    Calm Note.AboutProcess (Guarded settings owner S B s₀) where
  tick _ _ hs _ := ⟨hs.1.tick _, hs.2⟩
  note _ _ hs h := ⟨hs.1.noted (before_of_aboutProcess h),
    fun ho => hs.2 ((everOwned_noted (before_of_aboutProcess h)).mp ho)⟩

lemma guarded_still (s₀ : LifecycleState) :
    Calm (fun _ => False) (Guarded settings owner S B s₀) :=
  ⟨(guarded_calm s₀).tick, fun _ _ _ h => h.elim⟩

/-- **An operation may wait** with what lasts. -/
theorem resting_claim (hB : Lasting S B) : Resting (holding settings owner S)
    (claim settings owner hB) fun _ s₀ s => Guarded settings owner S B s₀ s where
  suspends := rfl
  allowed _ _ _ h := h
  marks _ _ := trivial
  own _ _ _ hs := ⟨hs.1, Guard.refl hs.1.keyed hs.1.limited, hs.2⟩
  resumes _ hs := hs
  calm _ s₀ := guarded_still s₀

/-! ### Parts of the operations -/

/-- The models of the configuration are in `S`. -/
def Configured (settings : LifecycleSettings) (S : Set String) : Prop :=
  ∀ p ∈ settings.profiles.list, p.publicName ∈ S

lemma guard_syncKeeps (hS : Configured settings S) (s₀ : LifecycleState) :
    SyncKeeps settings (Guard settings owner S s₀) where
  calm := ⟨fun _ t hs _ => hs.tick t, fun _ _ _ h => h.elim⟩
  keyed _ hs := hs.keyed
  change s s' hs h := by
    cases h with
    | @reshape i j hi hj =>
      have hid := hj.instanceId
      refine hs.same (keyed_set hs.keyed rfl) fun m => activeIds_congr fun x => ?_
      rw [Dict.get?_set]
      split
      · next hx =>
        rw [hx, hid, hi]
        simp [hj.model, hj.state]
      · rfl
    | remove hi hext =>
      exact hs.same (keyed_erase hs.keyed _) fun m => activeIds_erase hi (by rw [hext]; rfl)
    | @enter i hi =>
      obtain ⟨p, hp, hmodel, -⟩ := hi.named
      refine hs.set rfl (fun _ => ?_) fun _ hactive => ?_
      · show i.model ∈ S
        exact hmodel ▸ hS p hp
      · have hidle : i.state.isActive = false := by rw [hi.state]; rfl
        exact absurd (hidle.symm.trans hactive) Bool.false_ne_true

/-- The instance under the id has a slot of the model that owns the id, and `B` holds. -/
def Seated (settings : LifecycleSettings) (owner : String → String) (id model : String)
    (B : Registry → Prop) (r : Registry) : Prop := owner id = model ∧ Slot settings id model r ∧ B r

lemma lasting_seated (hmodel : model ∈ S) (hB : Lasting (S \ {model}) B) :
    Lasting S (Seated settings owner id model B) :=
  (lasting_const _).and ((lasting_slot hmodel).and (hB.mono Set.sdiff_subset))

/-- A record of the model is set. -/
lemma Lasting.set (hB : Lasting (S \ {model}) B) {j : BackendInstance} (hj : j.model = model)
    (h : B r) : B (r.set id j) :=
  hB _ _ (fun _ hm => activeIds_set_idle fun hjm => hm.2 (hjm.1.symm.trans hj)) h

/-- Marks leave a record its slot. -/
lemma guarded_marked (hmodel : model ∈ S) (hB : Lasting (S \ {model}) B) (L : BackendState → Prop)
    (s₀ : LifecycleState) :
    Marked id L (Guarded settings owner S (Seated settings owner id model B) s₀) where
  tick := (guarded_calm s₀).tick
  mark s i state reason hs hi _ := by
    have him : EverOwned owner s → i.model = model := fun ho => (ho.1 id i hi).trans (hs.2 ho).1
    refine ⟨hs.1.set (hs.1.keyed id i hi) (fun ho => ?_) fun ho _ => ?_, fun ho => ?_⟩
    · show i.model ∈ S
      exact him (everOwned_change.mp ho).2 ▸ hmodel
    · show Slot settings id i.model s.registry
      exact (him ho).symm ▸ (hs.2 ho).2.1
    · have ho := (everOwned_change.mp ho).2
      obtain ⟨howner, hslot, hrest⟩ := hs.2 ho
      exact ⟨howner, hslot.set _, hB.set (him ho) hrest⟩

/-- An instance that is stopped, where its model has a slot for it, leaves room for another. -/
def Freed (settings : LifecycleSettings) (owner : String → String) (S : Set String)
    (id model : String) (B : Registry → Prop) (s₀ : LifecycleState) (x : Except Exn α)
    (s : LifecycleState) : Prop :=
  Guarded settings owner S (Seated settings owner id model B) s₀ s ∧
    ∀ a, x = .ok a → EverOwned owner s → Room settings model s.registry

lemma Freed.error {s : LifecycleState} (e : Exn)
    (h : Guarded settings owner S (Seated settings owner id model B) s₀ s) :
    Freed settings owner S id model B s₀ (.error e : Except Exn α) s := ⟨h, fun _ he => by cases he⟩

/-- A mark with which the instance is active no longer. -/
lemma triple_leave {I : LifecycleState → Prop} (hmodel : model ∈ S) (hB : Lasting (S \ {model}) B)
    {f : BackendInstance → String → BackendInstance}
    (hf : ∀ j t, ∃ state reason, state.isActive = false ∧
      f j t = { j with state := state, failureReason := reason, updatedAt := t }) :
    Triple world I (Guarded settings owner S (Seated settings owner id model B) s₀)
      ((getInstance id).after <| onOk fun j => nowText.after (onOk fun t => putInstance id (f j t)))
      (Freed settings owner S id model B s₀) := by
  have hmark : Marked id (fun _ => True)
      (Guarded settings owner S (Seated settings owner id model B) s₀) :=
    guarded_marked hmodel hB _ s₀
  refine triple_change hmark.tick (fun s j hs hj => ?_) fun s hs _ => Freed.error _ hs
  obtain ⟨state, reason, hidle, hfj⟩ := hf j (nowIso s.clock)
  rw [hfj]
  have hmarked := hmark.mark s j state reason hs hj trivial
  refine ⟨hmarked, fun _ _ ho => (hmarked.2 ho).2.1.room fun hid => ?_⟩
  rw [LifecycleState.change_registry, mem_activeIds_set, if_pos rfl, hidle] at hid
  exact Bool.false_ne_true hid.2

/-- **A stop** frees the slot of the instance. -/
theorem triple_stopFrees {I : LifecycleState → Prop} (hmodel : model ∈ S)
    (hB : Lasting (S \ {model}) B) (profile : ModelProfile) (i : BackendInstance) :
    Triple world I (Guarded settings owner S (Seated settings owner i.instanceId model B) s₀)
      (stopInstance settings profile i) (Freed settings owner S i.instanceId model B s₀) := by
  have hmark : Marked i.instanceId (fun _ => True)
      (Guarded settings owner S (Seated settings owner i.instanceId model B) s₀) :=
    guarded_marked hmodel hB _ s₀
  refine (triple_markState hmark trivial).bind (fun _ => ?_) fun e s hs => Freed.error e hs
  refine Triple.bind (p := noteNow fun registry => .stopping i registry)
    (M := fun _ => Guarded settings owner S (Seated settings owner i.instanceId model B) s₀)
    (fun t₀ s hs => ?_) (fun _ => ?_) fun e s hs => Freed.error e hs
  · have hnote : Note.before (.stopping i s.registry) = none := rfl
    refine wpt_get.mpr (wpt_set.mpr (wpt_done.mpr ⟨hs.1.noted hnote, fun ho => ?_⟩))
    exact hs.2 ((everOwned_noted hnote).mp ho)
  refine Triple.seq (M := Freed settings owner S i.instanceId model B s₀) ?_ fun x => ?_
  · refine (Lifecycle.triple_stop (guarded_calm s₀) _ _ _).bind (fun _ => ?_)
      fun e s hs => Freed.error e hs
    exact triple_leave hmodel hB (f := fun j t => { j with state := .stopped, updatedAt := t })
      fun j t => ⟨.stopped, j.failureReason, rfl, rfl⟩
  cases x with
  | ok a => exact Triple.of_done fun _ hs => hs
  | error e =>
    show Triple world I _ (if e.isException then Lifecycle.markFailed i.instanceId e.name
      else raise e) _
    split
    · refine (triple_leave hmodel hB (f := fun j t => { j with
        state := .failed, failureReason := some e.name, updatedAt := t })
        fun j t => ⟨.failed, some e.name, rfl, rfl⟩).weaken (fun _ hs => hs.1) fun _ _ hs => hs
    · exact Triple.of_done fun _ hs => hs

/-- An initialization takes the slot that its instance has. -/
lemma holds_initialization (hmodel : model ∈ S) (hB : Lasting (S \ {model}) B)
    (profile : ModelProfile) (i : BackendInstance) :
    Holds (holding settings owner S)
      (fun _ => Guarded settings owner S (Seated settings owner i.instanceId model B))
      (initializeInstance settings profile i) fun _ _ => Guarded settings owner S B := by
  have hrest : Resting (holding settings owner S) _
      fun _ => Guarded settings owner S (Seated settings owner i.instanceId model B) :=
    resting_claim (lasting_seated hmodel hB)
  have hmark : KeepsMarks (fun (_ : Assertion ((models settings owner).within S)) =>
      Guarded settings owner S (Seated settings owner i.instanceId model B)) i.instanceId :=
    fun _ s₀ => guarded_marked hmodel hB _ s₀
  have hforget : ∀ s₀ s,
      Guarded settings owner S (Seated settings owner i.instanceId model B) s₀ s →
        Guarded settings owner S B s₀ s := fun _ _ hs => ⟨hs.1, fun ho => (hs.2 ho).2.2⟩
  cases hi : i.dryRun with
  | true =>
    exact (holds_initializeDry hrest profile hi hmark).weaken (fun _ _ _ hs => hs)
      fun _ _ _ _ hs => hforget _ _ hs.1
  | false =>
    refine (holds_initializeInstance hrest hrest.own profile hi hmark ?_).weaken
      (fun _ _ _ hs => hs) fun _ _ _ _ hs => hforget _ _ hs.1
    exact hrest.of_triple fun _ s₀ => Lifecycle.triple_stop (guarded_calm s₀) _ _ _

/-- **A start** takes up the room of the model. -/
theorem holds_started {profile : ModelProfile} (hname : profile.publicName = model)
    (hmodel : model ∈ S) (hB : Lasting (S \ {model}) B) (decision : PlacementDecision)
    (gpus : List GpuState) (extra : Mapping) :
    Holds (holding settings owner S)
      (fun _ => Guarded settings owner S fun r => Room settings model r ∧ B r)
      (startedInstance settings profile decision gpus extra)
      fun _ _ => Guarded settings owner S B := by
  have hlast : Lasting S fun r => Room settings model r ∧ B r :=
    (lasting_room hmodel).and (hB.mono Set.sdiff_subset)
  have hrest : Resting (holding settings owner S) _
      fun _ => Guarded settings owner S fun r => Room settings model r ∧ B r := resting_claim hlast
  refine Holds.bind (M := fun x _ s₀ s => Guarded settings owner S
    (fun r => Room settings model r ∧ B r) s₀ s ∧ ∀ i, x = .ok i → Made profile i) ?_ (fun i => ?_)
    fun e _ _ s hs => ⟨hs.1.1, fun ho => (hs.1.2 ho).2⟩
  · exact hrest.of_triple fun _ s₀ =>
      ticking_startInstance settings profile decision gpus _ _ (guarded_calm s₀)
  refine Holds.bind (M := fun x _ s₀ s => (∃ a, x = .ok a ∧ a.instanceId = i.instanceId) ∧
    Guarded settings owner S (Seated settings owner i.instanceId model B) s₀ s) ?_ (fun a => ?_) ?_
  · refine Holds.of_triple (W := world) rfl (fun _ _ _ h => h) fun _ s₀ => triple_nowText
      (fun s t hs ht => ⟨(guarded_calm s₀).tick s t hs.1 ht, hs.2⟩) fun t _ s hs => ?_
    obtain ⟨⟨hs, hmade⟩, rfl⟩ := hs
    have him : i.model = model := (hmade i rfl).model.trans hname
    refine wpt_putInstance.mpr
      ⟨⟨_, rfl, rfl⟩, hs.1.set rfl (fun _ => ?_) fun ho _ => ?_, fun ho => ?_⟩
    · show i.model ∈ S
      exact him ▸ hmodel
    · show Slot settings i.instanceId i.model s.registry
      exact him.symm ▸ (hs.2 ho).1.slot _
    · obtain ⟨howned, ho⟩ := everOwned_change.mp ho
      obtain ⟨hroom, hrest⟩ := hs.2 ho
      refine ⟨?_, (hroom.slot _).set _, hB.set him hrest⟩
      exact (howned i.instanceId _ (Dict.get?_set_self _ _ _)).symm.trans him
  · intro k₀ s₀ s hs
    obtain ⟨⟨_, heq, ha⟩, hs⟩ := hs
    cases heq
    exact holds_initialization hmodel hB profile a k₀ s₀ s (ha ▸ hs)
  · rintro e k₀ s₀ s ⟨⟨a, ha, -⟩, -⟩
    cases ha

end Orchestrator.Lifecycle.Replicas
