import Orchestrator.IdleStops

/-!
What the synchronization with LM Studio leaves in the registry: which record stands for a live load
after it, and which loads are counted exactly once.

The pass of a profile goes over its records in every state. A load that one of them takes is not
recorded anew, also where that record is stopped or failed and reserves nothing.
-/

namespace Orchestrator.Lifecycle

open Lib Lib.Coro Clock

/-! ### Counted loads -/

/-- The record names the load as the one it stands for. -/
def StandsFor (i : BackendInstance) (load : LmStudioLoad) : Prop :=
  i.runtime = "lmstudio" ∧ i.metadata.get "lmstudio_identifier" = .str load.identifier

/-- The reservation of the record under an id is part of what is reserved on the GPU. -/
def ReservedOn (r : Registry) (id : String) (i : BackendInstance) (gpuId : String) : Prop :=
  gpuId ∈ i.gpuIds ∧ r.reservedVramByGpu gpuId =
    Registry.reservedVramByGpu (r.erase id) gpuId + i.gpuIds.count gpuId * i.reservedVramMb

/-- Exactly one record in a reserving state stands for the load, and that on some GPU. -/
def CountedOnce (r : Registry) (load : LmStudioLoad) : Prop :=
  ∃ id i, r.get? id = some i ∧ i.state.isReserved = true ∧ StandsFor i load ∧
    (∃ gpuId, ReservedOn r id i gpuId) ∧
    ∀ id' j, r.get? id' = some j → j.state.isReserved = true → StandsFor j load → id' = id

lemma reservedOn_of_mem {r : Registry} {id : String} {i : BackendInstance} {gpuId : String}
    (hi : r.get? id = some i) (hres : i.state.isReserved = true) (hmem : gpuId ∈ i.gpuIds) :
    ReservedOn r id i gpuId := by
  refine ⟨hmem, ?_⟩
  have hperm := (Dict.values_perm hi).map (Registry.reservation gpuId)
  have hreservation : Registry.reservation gpuId i = i.gpuIds.count gpuId * i.reservedVramMb :=
    if_pos hres
  rw [Registry.reservedVramByGpu_eq_sum, Registry.list, hperm.sum_eq, List.map_cons, List.sum_cons,
    hreservation, add_comm, Registry.reservedVramByGpu_eq_sum, Registry.list]

/-! ### The pass of a profile -/

variable (loads : List LmStudioLoad)

def profileLoads (profile : ModelProfile) : List LmStudioLoad :=
  loads.filter fun load => lmstudioLoadMatchesProfile load profile

def isOf (profile : ModelProfile) (i : BackendInstance) : Bool :=
  i.runtime = "lmstudio" && i.model = profile.publicName

/-- The load that a record of the profile takes over. -/
def taken (profile : ModelProfile) (i : BackendInstance) : Option LmStudioLoad :=
  matchingLmstudioLoad i (profileLoads loads profile)

/-- The record `j` is `i` with the load it has taken over. -/
structure Took (i : BackendInstance) (load : LmStudioLoad) (j : BackendInstance) : Prop where
  instanceId : j.instanceId = i.instanceId
  model : j.model = i.model
  state : j.state = i.state
  gpuIds : j.gpuIds = i.gpuIds
  stands : StandsFor j load

/-- What the pass of the profile makes of a record. -/
def Passed (profile : ModelProfile) (i : BackendInstance) (o : Option BackendInstance) : Prop :=
  if isOf profile i then
    match taken loads profile i with
    | some load => ∃ j, o = some j ∧ Took i load j
    | none => o = if i.state = .external then none else some i
  else o = some i

lemma calm_registry (N : Note → Prop) (r : Registry) : Calm N fun s => s.registry = r where
  tick _ _ hs _ := hs
  note _ _ hs _ := hs

lemma loadMetadata_identifier (m : Mapping) (load : LmStudioLoad) (reconciledAt : String) :
    (loadMetadata m load reconciledAt).get "lmstudio_identifier" = .str load.identifier := by
  dsimp only [loadMetadata]
  rw [get_setSome_ne _ _ (by decide), get_setSome_ne _ _ (by decide),
    get_setSome_ne _ _ (by decide),
    get_setSome_ne _ _ (by decide), Mapping.get_set_ne _ _ (by decide), Mapping.get,
      Mapping.lookup_set,
    if_pos rfl, Option.getD_some]

/-- `p` ends in its turn with a result in `G`, and leaves the registry alone. -/
def Yields {α : Type} (p : Service α) (G : α → Prop) : Prop :=
  ∀ N (I A : LifecycleState → Prop), Calm N A →
    Triple world I A p (Triple.Returns fun a s => A s ∧ G a)

namespace Yields

variable {α β : Type} {N : Note → Prop} {G : α → Prop} {H : β → Prop} {I A : LifecycleState → Prop}

lemma pure {a : α} (h : G a) : Yields (pure a) G :=
  fun _ _ _ _ => Triple.of_done fun _ hs => ⟨hs, h⟩

/-- What comes after `p` may rely on its result. -/
lemma before {p : Service α} {k : α → Service β} {T : Except Exn β → LifecycleState → Prop}
    (h : Yields p G) (hA : Calm N A) (hk : ∀ a, G a → Triple world I A (k a) T) :
    Triple world I A (p.after (onOk k)) T :=
  (h N I A hA).next fun a s₀ s hs => hk a hs.2 s₀ s hs.1

lemma bind {p : Service α} {k : α → Service β} (h : Yields p G) (hk : ∀ a, G a → Yields (k a) H) :
    Yields (p.after (onOk k)) H := fun N I A hA => h.before hA fun a ha => hk a ha N I A hA

lemma nowText : Yields nowText fun _ => True := by
  intro N I A hA
  refine Triple.quiet rfl fun t s₀ s hs => ?_
  exact wpt_get.mpr (wpt_set.mpr (wpt_done.mpr ⟨hA.tick s t hs.1 hs.2, trivial⟩))

lemma stampOr (text : String) : Yields (stampOr text) fun _ => True := by
  unfold Lifecycle.stampOr
  split
  · exact nowText
  · exact pure trivial

end Yields

lemma yields_took {i : BackendInstance} (hi : i.runtime = "lmstudio") (load : LmStudioLoad) :
    Yields (instanceWithLmstudioLoad i load) (Took i load) := by
  have hcopied : Yields (copied i) fun j => j.instanceId = i.instanceId ∧ j.model = i.model ∧
      j.state = i.state ∧ j.gpuIds = i.gpuIds ∧ j.runtime = "lmstudio" := by
    refine (Yields.stampOr _).bind fun _ _ => (Yields.stampOr _).bind fun _ _ => Yields.pure ?_
    exact ⟨rfl, rfl, rfl, rfl, by simp [hi]⟩
  refine hcopied.bind fun j hj => Yields.nowText.bind fun t _ => Yields.pure ?_
  obtain ⟨hid, hmodel, hstate, hgpus, hruntime⟩ := hj
  exact ⟨hid, hmodel, hstate, hgpus, hruntime, loadMetadata_identifier _ _ _⟩

variable {I : LifecycleState → Prop}

/-- What the records `l` of the registry `r` have become in `r'`; `matched` are the identifiers of
the loads that they have taken. -/
structure PassedRecords (profile : ModelProfile) (l : List BackendInstance) (r r' : Registry)
    (matched : List String) : Prop where
  passed : ∀ i ∈ l, Passed loads profile i (r'.get? i.instanceId)
  same : ∀ id, (∀ i ∈ l, i.instanceId ≠ id) → r'.get? id = r.get? id
  matched : ∀ identifier, identifier ∈ matched ↔
    ∃ i ∈ l, isOf profile i = true ∧ ∃ load, taken loads profile i = some load ∧
      load.identifier = identifier

variable {loads} {profile : ModelProfile} {l : List BackendInstance} {r r' : Registry}
  {m : List String}

lemma PassedRecords.nil : PassedRecords loads profile [] r r [] where
  passed _ hi := absurd hi List.not_mem_nil
  same _ _ := rfl
  matched identifier := by simp

/-- The first record has been passed, and then the rest. -/
lemma PassedRecords.cons {i : BackendInstance} {r₁ : Registry}
    (hnew : i.instanceId ∉ l.map BackendInstance.instanceId)
    (hi : Passed loads profile i (r₁.get? i.instanceId))
    (hsame : ∀ id, id ≠ i.instanceId → r₁.get? id = r.get? id)
    (h : PassedRecords loads profile l r₁ r' m) {m' : List String}
    (hm : ∀ identifier, identifier ∈ m' ↔ identifier ∈ m ∨ (isOf profile i = true ∧
      ∃ load, taken loads profile i = some load ∧ load.identifier = identifier)) :
    PassedRecords loads profile (i :: l) r r' m' where
  passed := by
    rw [List.forall_mem_cons]
    refine ⟨?_, h.passed⟩
    rwa [h.same i.instanceId fun j hj hc => hnew (List.mem_map.mpr ⟨j, hj, hc⟩)]
  same id hid := by
    rw [List.forall_mem_cons] at hid
    rw [h.same id hid.2, hsame id (Ne.symm hid.1)]
  matched identifier := by
    rw [hm, h.matched]
    simp only [List.mem_cons, exists_eq_or_imp]
    exact or_comm

lemma isOf_iff {i : BackendInstance} :
    isOf profile i = true ↔ i.runtime = "lmstudio" ∧ i.model = profile.publicName := by
  simp [isOf]

lemma isOf_eq_false {i : BackendInstance} :
    isOf profile i = false ↔ (i.runtime ≠ "lmstudio" || i.model ≠ profile.publicName) = true := by
  rw [← Bool.not_eq_true, isOf_iff]
  by_cases h : i.runtime = "lmstudio" <;> simp [h]

/-- A record that the pass leaves alone. -/
lemma PassedRecords.skip {i : BackendInstance} (hi : r.get? i.instanceId = some i)
    (hnew : i.instanceId ∉ l.map BackendInstance.instanceId)
    (hskip : isOf profile i = true → taken loads profile i = none ∧ i.state ≠ .external)
    (h : PassedRecords loads profile l r r' m) : PassedRecords loads profile (i :: l) r r' m := by
  refine h.cons hnew ?_ (fun _ _ => rfl) fun identifier => ?_
  · unfold Passed
    split
    · next hof =>
      rw [(hskip hof).1, hi]
      exact (if_neg (hskip hof).2).symm
    · exact hi
  · refine ⟨Or.inl, fun hid => hid.resolve_right ?_⟩
    rintro ⟨hof, load, htaken, -⟩
    rw [(hskip hof).1] at htaken
    cases htaken

/-- The records of a list are those of the registry, each once. -/
def Listed (l : List BackendInstance) (r : Registry) : Prop :=
  (l.map BackendInstance.instanceId).Nodup ∧ ∀ i ∈ l, r.get? i.instanceId = some i

/-- A change of the first record of the list leaves the rest listed. -/
lemma Listed.rest {i : BackendInstance} (h : Listed (i :: l) r)
    (hr : ∀ id, id ≠ i.instanceId → r'.get? id = r.get? id) :
    i.instanceId ∉ l.map BackendInstance.instanceId ∧ Listed l r' := by
  obtain ⟨hnodup, hl⟩ := h
  rw [List.map_cons, List.nodup_cons] at hnodup
  refine ⟨hnodup.1, hnodup.2, fun j hj => ?_⟩
  rw [hr _ fun hc => hnodup.1 (hc ▸ List.mem_map.mpr ⟨j, hj, rfl⟩)]
  exact hl j (List.mem_cons_of_mem _ hj)

lemma triple_passedRecords (hl : Listed l r) : Triple world I (fun s => s.registry = r)
    (syncRecords profile (profileLoads loads profile) l)
    (Triple.Returns fun m s => PassedRecords loads profile l r s.registry m) := by
  induction l generalizing r with
  | nil => exact Triple.of_done fun s hs => hs ▸ PassedRecords.nil
  | cons i rest ih =>
    have hi := hl.2 i List.mem_cons_self
    have hskip : (isOf profile i = true → taken loads profile i = none ∧ i.state ≠ .external) →
        Triple world I (fun s => s.registry = r)
          (syncRecords profile (profileLoads loads profile) rest)
          (Triple.Returns fun m s => PassedRecords loads profile (i :: rest) r s.registry m) := by
      intro hleft
      obtain ⟨hnew, hrest⟩ : _ ∧ Listed rest r := hl.rest fun _ _ => rfl
      refine (ih hrest).weaken (fun _ hs => hs) fun x s hx => ?_
      cases x with
      | ok m => exact PassedRecords.skip hi hnew hleft hx
      | error _ => exact hx
    unfold syncRecords
    split
    · next hother =>
      refine hskip fun hof => ?_
      rw [isOf_eq_false.mpr hother] at hof
      cases hof
    next hown =>
    have hof : isOf profile i = true := by
      rw [← Bool.not_eq_false, isOf_eq_false]
      exact hown
    split
    · next hnone =>
      split
      · next hexternal =>
        have hsame : ∀ id, id ≠ i.instanceId → (r.erase i.instanceId).get? id = r.get? id :=
          fun id hne => (Dict.get?_erase _ _ _).trans (if_neg hne)
        obtain ⟨hnew, hrest⟩ := hl.rest hsame
        refine Triple.next (N := fun _ s => s.registry = r.erase i.instanceId) ?_ fun _ => ?_
        · exact fun s₀ s hs => wpt_get.mpr (wpt_set.mpr (wpt_done.mpr (hs ▸ rfl)))
        refine (ih hrest).weaken (fun _ hs => hs) fun x s hx => ?_
        cases x with
        | error _ => exact hx
        | ok m =>
          refine PassedRecords.cons hnew ?_ hsame hx fun identifier => ?_
          · rw [Passed, if_pos hof, taken, hnone, if_pos hexternal, Dict.get?_erase, if_pos rfl]
          · simp [taken, hnone]
      · next hexternal => exact hskip fun _ => ⟨hnone, hexternal⟩
    · next load hload =>
      refine (yields_took (isOf_iff.mp hof).1 load).before
        (calm_registry (fun _ => False) r) fun j hj => ?_
      have hsame : ∀ id, id ≠ i.instanceId → (r.set j.instanceId j).get? id = r.get? id :=
        fun id hne => Dict.get?_set_ne _ _ (hj.instanceId ▸ hne)
      obtain ⟨hnew, hrest⟩ := hl.rest hsame
      refine Triple.next (N := fun _ s => s.registry = r.set j.instanceId j) ?_ fun _ => ?_
      · exact fun s₀ s hs => wpt_putInstance.mpr (hs ▸ rfl)
      refine (ih hrest).next fun m => Triple.of_done fun s hm => ?_
      refine PassedRecords.cons hnew ?_ hsame hm fun identifier => ?_
      · rw [Passed, if_pos hof, taken, hload, ← hj.instanceId, Dict.get?_set_self]
        exact ⟨j, rfl, hj⟩
      · simp [taken, hload, hof, or_comm, eq_comm]

/-! ### New records -/

variable (settings : LifecycleSettings)

/-- The id under which a load is recorded. -/
def externalId (load : LmStudioLoad) : String :=
  "external-lmstudio-" ++ stableId (settings.sha256 load.identifier) load.identifier

/-- The record of a load that no record of the profile has taken. -/
structure ExternalOf (profile : ModelProfile) (load : LmStudioLoad)
    (j : BackendInstance) : Prop where
  instanceId : j.instanceId = externalId settings load
  model : j.model = profile.publicName
  state : j.state = .external
  gpuIds : j.gpuIds = gpuIdsFromLmstudioLoad load profile
  stands : StandsFor j load

lemma yields_external (profile : ModelProfile) (load : LmStudioLoad) :
    Yields (externalLmstudioInstance settings profile load) (ExternalOf settings profile load) := by
  refine Yields.bind (G := fun i => i.instanceId = externalId settings load ∧
    i.model = profile.publicName ∧ i.state = .external ∧
    i.gpuIds = gpuIdsFromLmstudioLoad load profile ∧ i.runtime = "lmstudio") ?_ fun i hi => ?_
  · exact Yields.nowText.bind fun _ _ => Yields.nowText.bind fun _ _ =>
      Yields.pure ⟨rfl, rfl, rfl, rfl, rfl⟩
  · obtain ⟨hid, hmodel, hstate, hgpus, hruntime⟩ := hi
    intro N I A hA
    refine (yields_took hruntime load N I A hA).weaken (fun _ hs => hs) fun x s hx => ?_
    cases x with
    | error _ => exact hx
    | ok j =>
      obtain ⟨hs, hj⟩ := hx
      exact ⟨hs, hj.instanceId.trans hid, hj.model.trans hmodel, hj.state.trans hstate,
        hj.gpuIds.trans hgpus, hj.stands⟩

/-- The last of the loads that has the id. -/
def lastUnder (id : String) (fresh : List LmStudioLoad) : Option LmStudioLoad :=
  fresh.reverse.find? fun load => externalId settings load = id

variable {settings}

lemma lastUnder_cons (id : String) (load : LmStudioLoad) (fresh : List LmStudioLoad) :
    lastUnder settings id (load :: fresh) =
      (lastUnder settings id fresh).or (if externalId settings load = id then some load
        else none) := by
  rw [lastUnder, List.reverse_cons, List.find?_append]
  by_cases h : externalId settings load = id <;> simp [lastUnder, h]

lemma lastUnder_eq_none {id : String} {fresh : List LmStudioLoad} :
    lastUnder settings id fresh = none ↔ id ∉ fresh.map (externalId settings) := by
  simp [lastUnder]

lemma lastUnder_eq_some {id : String} {fresh : List LmStudioLoad} {load : LmStudioLoad}
    (h : lastUnder settings id fresh = some load) : load ∈ fresh ∧ externalId settings load = id :=
  ⟨List.mem_reverse.mp (List.mem_of_find?_eq_some h), by simpa using List.find?_some h⟩

/-- What has been recorded for the loads `fresh`. -/
def RecordedLoads (settings : LifecycleSettings) (profile : ModelProfile)
    (fresh : List LmStudioLoad)
    (r r' : Registry) : Prop :=
  ∀ id, match lastUnder settings id fresh with
    | some load => ∃ j, r'.get? id = some j ∧ ExternalOf settings profile load j
    | none => r'.get? id = r.get? id

lemma triple_recordedLoads (matched : List String) (ls : List LmStudioLoad) (r : Registry) :
    Triple world I (fun s => s.registry = r) (recordExternal settings profile matched ls)
      (Triple.Returns fun _ s => RecordedLoads settings profile
        (ls.filter fun load => load.identifier ∉ matched) r s.registry) := by
  induction ls generalizing r with
  | nil => exact Triple.of_done fun s hs id => by rw [hs]; rfl
  | cons load rest ih =>
    unfold recordExternal
    split
    · next hmatched =>
      rw [List.filter_cons_of_neg (by simpa using hmatched)]
      exact ih r
    next hfresh =>
    rw [List.filter_cons_of_pos (by simpa using hfresh)]
    refine (yields_external settings profile load).before
      (calm_registry (fun _ => False) r) fun i hi => ?_
    refine Triple.next (N := fun _ s => ∃ j, s.registry = r.set (externalId settings load) j ∧
      ExternalOf settings profile load j) ?_ fun _ => ?_
    · refine triple_nowText (fun _ _ hs _ => hs) fun t s₀ s hs => wpt_putInstance.mpr ?_
      refine ⟨{ i with updatedAt := nowIso t }, ?_, ⟨hi.instanceId, hi.model, hi.state, hi.gpuIds,
        hi.stands⟩⟩
      rw [LifecycleState.change_registry, hs.1, hi.instanceId]
    · rintro s₀ s ⟨j, hs, hj⟩
      refine wpt_mono (ih _ s₀ s hs) fun x t₀ t hx => ?_
      cases x with
      | error _ => exact hx
      | ok _ =>
        intro id
        have hid := hx id
        rw [lastUnder_cons]
        cases hlast : lastUnder settings id (rest.filter fun load => load.identifier ∉ matched) with
        | some later =>
          simp only [hlast] at hid
          exact hid
        | none =>
          simp only [hlast, Dict.get?_set] at hid
          rw [Option.none_or]
          by_cases he : externalId settings load = id
          · rw [if_pos he]
            rw [if_pos he.symm] at hid
            exact ⟨j, hid, hj⟩
          · rw [if_neg he]
            rwa [if_neg (Ne.symm he)] at hid

/-! ### The pass as a whole -/

variable (loads) in
/-- The loads of the profile that none of the records takes. -/
def unrecorded (profile : ModelProfile) (records : List BackendInstance) : List LmStudioLoad :=
  (profileLoads loads profile).filter fun load => !records.any fun i =>
    isOf profile i && (taken loads profile i).any fun other => other.identifier = load.identifier

variable (loads settings) in
/-- The pass of a profile has made `o'` of `o`, the record under an id, where none is entered. -/
def Left (profile : ModelProfile) (o o' : Option BackendInstance) : Prop :=
  match o with
  | some i => Passed loads profile i o'
  | none => o' = none

/-- Every record is under its own id. -/
def KeyedBy (r : Registry) : Prop := ∀ id i, r.get? id = some i → i.instanceId = id

lemma KeyedBy.listed (h : KeyedBy r) : Listed r.list r :=
  current_list (s := ⟨r, atSecond 0, []⟩) h

/-- What the pass of a profile has made of the registry. -/
def PassOf (settings : LifecycleSettings) (loads : List LmStudioLoad) (profile : ModelProfile)
    (r r' : Registry) : Prop :=
  ∀ id, match lastUnder settings id (unrecorded loads profile r.list) with
    | some load => ∃ j, r'.get? id = some j ∧ ExternalOf settings profile load j
    | none => Left loads profile (r.get? id) (r'.get? id)

lemma PassedRecords.left (hr : KeyedBy r) (h : PassedRecords loads profile r.list r r' m)
    (id : String) :
    Left loads profile (r.get? id) (r'.get? id) := by
  cases hi : r.get? id with
  | some i =>
    have hpassed := h.passed i (Dict.mem_values_of_get? hi)
    rwa [hr id i hi] at hpassed
  | none =>
    rw [Left, h.same id fun i hmem hid => ?_, hi]
    obtain ⟨id', hi'⟩ := Dict.mem_values.mp hmem
    rw [← hr id' i hi', hid, hi] at hi'
    cases hi'

lemma PassedRecords.unrecorded (h : PassedRecords loads profile l r r' m) :
    ((profileLoads loads profile).filter fun load => load.identifier ∉ m) =
      unrecorded loads profile l := by
  refine List.filter_congr fun load _ => ?_
  rw [Bool.eq_iff_iff, Bool.not_eq_true', ← Bool.not_eq_true, decide_eq_true_eq, h.matched,
    List.any_eq_true]
  refine not_congr (exists_congr fun i => and_congr_right fun _ => ?_)
  rw [Bool.and_eq_true, Option.any_eq_true]
  simp

lemma triple_passOf (hr : KeyedBy r) : Triple world I (fun s => s.registry = r)
    (syncProfileLiveLmstudioLoad settings profile loads)
    (Triple.Returns fun _ s => PassOf settings loads profile r s.registry) := by
  refine Triple.of_get fun u => ?_
  refine Triple.next (N := fun m s => PassedRecords loads profile r.list r s.registry m) ?_
    fun m => ?_
  · rintro s₀ s ⟨rfl, rfl⟩
    exact triple_passedRecords hr.listed s₀ s rfl
  · intro s₀ s hs
    refine wpt_mono (triple_recordedLoads m _ s.registry s₀ s rfl) fun x t₀ t hx => ?_
    cases x with
    | error _ => exact hx
    | ok _ =>
      intro id
      have hid := hx id
      rw [← hs.unrecorded]
      dsimp only [profileLoads]
      revert hid
      split
      · exact fun hid => hid
      · intro hid
        rw [hid]
        exact hs.left hr id

lemma Passed.same {i j : BackendInstance} (h : Passed loads profile i (some j)) :
    j.instanceId = i.instanceId ∧ j.model = i.model := by
  unfold Passed at h
  split at h
  · split at h
    · obtain ⟨k, hk, htook⟩ := h
      cases hk
      exact ⟨htook.instanceId, htook.model⟩
    · split at h
      · cases h
      · cases h
        exact ⟨rfl, rfl⟩
  · cases h
    exact ⟨rfl, rfl⟩

/-- A record of another profile is passed by. -/
lemma passed_of_not {i : BackendInstance} {o : Option BackendInstance}
    (hi : isOf profile i = false) :
    Passed loads profile i o ↔ o = some i := by
  rw [Passed, if_neg (by simp [hi])]

lemma PassOf.entered (h : PassOf settings loads profile r r') {id : String} {load : LmStudioLoad}
    (hlast : lastUnder settings id (unrecorded loads profile r.list) = some load) :
    ∃ j, r'.get? id = some j ∧ ExternalOf settings profile load j := by
  have hid := h id
  rwa [hlast] at hid

lemma PassOf.left (h : PassOf settings loads profile r r') {id : String}
    (hlast : lastUnder settings id (unrecorded loads profile r.list) = none) :
    Left loads profile (r.get? id) (r'.get? id) := by
  have hid := h id
  rwa [hlast] at hid

/-- Where a record is after the pass, it has been entered, or it was there before. -/
lemma PassOf.origin (h : PassOf settings loads profile r r') {id : String} {j : BackendInstance}
    (hj : r'.get? id = some j) :
    (∃ load, lastUnder settings id (unrecorded loads profile r.list) = some load ∧
      ExternalOf settings profile load j) ∨
    lastUnder settings id (unrecorded loads profile r.list) = none ∧
      ∃ i, r.get? id = some i ∧ Passed loads profile i (some j) := by
  cases hlast : lastUnder settings id (unrecorded loads profile r.list) with
  | some load =>
    obtain ⟨k, hk, hext⟩ := h.entered hlast
    rw [hj] at hk
    cases hk
    exact Or.inl ⟨load, rfl, hext⟩
  | none =>
    have hleft := h.left hlast
    cases hi : r.get? id with
    | some i =>
      rw [hi, hj] at hleft
      exact Or.inr ⟨rfl, i, rfl, hleft⟩
    | none =>
      rw [hi, hj] at hleft
      cases hleft

lemma PassOf.keyed (hr : KeyedBy r) (h : PassOf settings loads profile r r') : KeyedBy r' := by
  intro id j hj
  rcases h.origin hj with ⟨load, hlast, hext⟩ | ⟨-, i, hi, hpassed⟩
  · rw [hext.instanceId, (lastUnder_eq_some hlast).2]
  · rw [hpassed.same.1, hr id i hi]

/-- The records of another profile are, after the pass, those that no new record has replaced. -/
lemma PassOf.mem_list (hr : KeyedBy r) (h : PassOf settings loads profile r r')
    {i : BackendInstance}
    (hi : i.model ≠ profile.publicName) : i ∈ r'.list ↔
      i ∈ r.list ∧ i.instanceId ∉ (unrecorded loads profile r.list).map (externalId settings) := by
  have hother : isOf profile i = false := by
    rw [← Bool.not_eq_true, isOf_iff]
    exact fun hof => hi hof.2
  rw [Registry.list, Registry.list, Dict.mem_values, Dict.mem_values]
  constructor
  · rintro ⟨id, hid⟩
    rcases h.origin hid with ⟨load, -, hext⟩ | ⟨hlast, k, hk, hpassed⟩
    · exact absurd hext.model hi
    · have hk' : isOf profile k = false := by
        rw [← Bool.not_eq_true, isOf_iff, ← hpassed.same.2]
        exact fun hof => hi hof.2
      rw [passed_of_not hk'] at hpassed
      cases hpassed
      rw [hr id i hk]
      exact ⟨⟨id, hk⟩, lastUnder_eq_none.mp hlast⟩
  · rintro ⟨⟨id, hid⟩, hnew⟩
    rw [hr id i hid] at hnew
    have hleft := h.left (lastUnder_eq_none.mpr hnew)
    rw [hid] at hleft
    exact ⟨id, (passed_of_not hother).mp hleft⟩

/-! ### All passes -/

variable (loads settings) in
/-- The profile and the load of the record that is entered under an id, if one is: those of the last
pass, in the order of the profiles, in which a load has this id and no record of the profile takes
it. A record that an earlier pass has replaced takes nothing. -/
def enteredUnder : List ModelProfile → List BackendInstance → String →
    Option (ModelProfile × LmStudioLoad)
  | [], _, _ => none
  | profile :: rest, records, id =>
    let fresh := unrecorded loads profile records
    (enteredUnder rest (records.filter fun i =>
      i.instanceId ∉ fresh.map (externalId settings)) id).or
      ((lastUnder settings id fresh).map fun load => (profile, load))

/-- What the sync makes of a record under whose id none is entered. -/
def Settled (loads : List LmStudioLoad) (profiles : List ModelProfile)
    (o o' : Option BackendInstance) : Prop :=
  match o with
  | some i => match profiles.find? fun profile => isOf profile i with
    | some profile => Passed loads profile i o'
    | none => o' = some i
  | none => o' = none

def Synced (settings : LifecycleSettings) (loads : List LmStudioLoad) (profiles : List ModelProfile)
    (r r' : Registry) : Prop :=
  ∀ id, match enteredUnder loads settings profiles r.list id with
    | some (profile, load) => ∃ j, r'.get? id = some j ∧ ExternalOf settings profile load j
    | none => Settled loads profiles (r.get? id) (r'.get? id)

lemma unrecorded_congr {l l' : List BackendInstance}
    (h : ∀ i, isOf profile i = true → (i ∈ l ↔ i ∈ l')) :
    unrecorded loads profile l = unrecorded loads profile l' := by
  refine List.filter_congr fun load _ => congrArg _ ?_
  rw [Bool.eq_iff_iff, List.any_eq_true, List.any_eq_true]
  refine exists_congr fun i => and_congr_left fun hi => h i ?_
  rw [Bool.and_eq_true] at hi
  exact hi.1

/-- The records of other models do not matter. -/
lemma enteredUnder_congr {profiles : List ModelProfile} {l l' : List BackendInstance}
    (h : ∀ profile ∈ profiles, ∀ i, isOf profile i = true → (i ∈ l ↔ i ∈ l')) (id : String) :
    enteredUnder loads settings profiles l id = enteredUnder loads settings profiles l' id := by
  induction profiles generalizing l l' with
  | nil => rfl
  | cons profile rest ih =>
    rw [List.forall_mem_cons] at h
    dsimp only [enteredUnder]
    rw [unrecorded_congr h.1]
    refine congrArg (fun o => Option.or o _) (ih fun other hother i hi => ?_)
    rw [List.mem_filter, List.mem_filter, h.2 other hother i hi]

lemma isOf_unique {other : ModelProfile} {i : BackendInstance} (hi : i.model = profile.publicName)
    (hne : other.publicName ≠ profile.publicName) : isOf other i = false := by
  rw [← Bool.not_eq_true, isOf_iff]
  exact fun hof => hne (hof.2.symm.trans hi)

lemma find?_isOf_eq_none {profiles : List ModelProfile} {i : BackendInstance}
    (hi : i.model = profile.publicName)
    (hnew : profile.publicName ∉ profiles.map ModelProfile.publicName) :
    (profiles.find? fun other => isOf other i) = none := by
  rw [List.find?_eq_none]
  intro other hother
  rw [isOf_unique hi fun hname => hnew (hname ▸ List.mem_map_of_mem hother)]
  exact Bool.false_ne_true

/-- One pass, and then the passes of the other profiles. -/
lemma Synced.cons {profiles : List ModelProfile} {r₁ : Registry} (hr : KeyedBy r)
    (hnew : profile.publicName ∉ profiles.map ModelProfile.publicName)
    (hpass : PassOf settings loads profile r r₁) (h : Synced settings loads profiles r₁ r') :
    Synced settings loads (profile :: profiles) r r' := by
  intro id
  have hcongr : enteredUnder loads settings profiles r₁.list id =
      enteredUnder loads settings profiles (r.list.filter fun i =>
        i.instanceId ∉ (unrecorded loads profile r.list).map (externalId settings)) id := by
    refine enteredUnder_congr (fun other hother i hi => ?_) id
    have hmodel : i.model ≠ profile.publicName := by
      rw [(isOf_iff.mp hi).2]
      exact fun hname => hnew (hname ▸ List.mem_map_of_mem hother)
    rw [hpass.mem_list hr hmodel, List.mem_filter]
    simp
  have hid := h id
  dsimp only [enteredUnder]
  rw [← hcongr]
  cases hlater : enteredUnder loads settings profiles r₁.list id with
  | some e =>
    rw [hlater] at hid
    exact hid
  | none =>
    rw [hlater] at hid
    rw [Option.none_or]
    cases hlast : lastUnder settings id (unrecorded loads profile r.list) with
    | some load =>
      obtain ⟨j, hj, hext⟩ := hpass.entered hlast
      rw [hj] at hid
      simp only [Settled, find?_isOf_eq_none hext.model hnew] at hid
      exact ⟨j, hid, hext⟩
    | none =>
      have hleft := hpass.left hlast
      show Settled loads (profile :: profiles) (r.get? id) (r'.get? id)
      cases hi : r.get? id with
      | none =>
        rw [hi] at hleft
        simp only [Left] at hleft
        rw [hleft] at hid
        exact hid
      | some i =>
        rw [hi] at hleft
        simp only [Left] at hleft
        cases hof : isOf profile i with
        | false =>
          rw [(passed_of_not hof).mp hleft] at hid
          simpa only [Settled, List.find?_cons, hof] using hid
        | true =>
          simp only [Settled, List.find?_cons, hof]
          cases hj : r₁.get? id with
          | none =>
            rw [hj] at hid hleft
            simp only [Settled] at hid
            rwa [hid]
          | some j =>
            rw [hj] at hid hleft
            have hmodel : j.model = profile.publicName := hleft.same.2.trans (isOf_iff.mp hof).2
            simp only [Settled, find?_isOf_eq_none hmodel hnew] at hid
            rwa [hid]

lemma triple_passThen {profiles : List ModelProfile} {p : Service Unit}
    (hnew : profile.publicName ∉ profiles.map ModelProfile.publicName)
    (hp : ∀ r₁, KeyedBy r₁ → Triple world I (fun s => s.registry = r₁) p
      (Triple.Returns fun _ s => Synced settings loads profiles r₁ s.registry)) (hr : KeyedBy r) :
    Triple world I (fun s => s.registry = r)
      ((syncProfileLiveLmstudioLoad settings profile loads).after (onOk fun _ => p))
      (Triple.Returns fun _ s => Synced settings loads (profile :: profiles) r s.registry) := by
  refine (triple_passOf hr).next fun _ s₀ s hpass => ?_
  refine wpt_mono (hp s.registry (hpass.keyed hr) s₀ s rfl) fun x t₀ t hx => ?_
  cases x with
  | error _ => exact hx
  | ok _ => exact Synced.cons hr hnew hpass hx

lemma triple_syncFrom {profiles : List ModelProfile} {d : Dict String (List LmStudioLoad)}
    {b : String}
    (hlms : ∀ profile ∈ profiles, profile.runtime = "lmstudio" ∧ profile.lmsBinary = b)
    (hnames : (profiles.map ModelProfile.publicName).Nodup) (hd : d.get? b = some loads)
    (hr : KeyedBy r) : Triple world I (fun s => s.registry = r) (syncProfiles settings profiles d)
      (Triple.Returns fun _ s => Synced settings loads profiles r s.registry) := by
  induction profiles generalizing d r with
  | nil =>
    refine Triple.of_done fun s hs id => ?_
    rw [hs]
    show Settled loads [] (r.get? id) (r.get? id)
    cases r.get? id <;> rfl
  | cons profile rest ih =>
    rw [List.forall_mem_cons] at hlms
    rw [List.map_cons, List.nodup_cons] at hnames
    obtain ⟨⟨hruntime, rfl⟩, hrest⟩ := hlms
    rw [syncProfiles, if_neg (not_not.mpr hruntime)]
    refine Triple.quiet rfl fun answer => ?_
    dsimp only
    rw [hd, Option.getD_some]
    exact (triple_passThen hnames.1 (fun _ hr₁ => ih hrest hnames.2 (Dict.get?_set_self _ _ _) hr₁)
      hr).weaken (fun s hs => hs.1) fun _ _ hx => hx

/-- A turn of a coroutine that returns without waiting. -/
lemma turn_returns {α : Type} {p p' : Service α} {N : α → LifecycleState → Prop}
    {s s' : LifecycleState}
    {calls : List (Event LifecycleCall LifecycleCall.Answer)}
    (h : Triple world (fun _ => False) (fun t => t = s) p (Triple.Returns N))
    (hturn : p.Turn world s calls p' s') : ∃ a, p' = pure a ∧ N a s' := by
  rcases wpt_turn (h s s rfl) hturn with ⟨x, rfl, hx⟩ | ⟨_, _, -, hown, -⟩
  · cases x with
    | ok a => exact ⟨a, rfl, hx⟩
    | error _ => exact hx.elim
  · exact hown.elim

/-- **What the sync makes of the registry**, by the first answer of LM Studio. -/
theorem sync_spec {b : String} {s s' : LifecycleState} {p' : Service Unit}
    {calls : List (Event LifecycleCall LifecycleCall.Answer)}
    (hlms : ∀ profile ∈ settings.profiles.list,
      profile.runtime = "lmstudio" ∧ profile.lmsBinary = b)
    (hs : Keyed s)
    (h : (syncLiveLmstudioState settings).Turn world s (⟨.loadedModels b, loads⟩ :: calls) p' s') :
    p' = pure () ∧ Synced settings loads settings.profiles.list s.registry s'.registry := by
  have hfrom : ∀ profiles : List ModelProfile,
      (∀ profile ∈ profiles, profile.runtime = "lmstudio" ∧ profile.lmsBinary = b) →
      (profiles.map ModelProfile.publicName).Nodup →
      (syncProfiles settings profiles .empty).Turn world s
      (⟨.loadedModels b, loads⟩ :: calls) p' s' →
      p' = pure () ∧ Synced settings loads profiles s.registry s'.registry := by
    intro profiles hlms hnames h
    cases profiles with
    | nil =>
      rw [syncProfiles, pure_eq, Turn] at h
      cases h.1
    | cons profile rest =>
      rw [List.forall_mem_cons] at hlms
      rw [List.map_cons, List.nodup_cons] at hnames
      obtain ⟨⟨hruntime, rfl⟩, hrest⟩ := hlms
      rw [syncProfiles, if_neg (not_not.mpr hruntime), turn_call rfl] at h
      obtain ⟨answer, fs, hcalls, -, h⟩ := h
      cases hcalls
      have hreturns := turn_returns ((triple_passThen hnames.1
        (fun _ hr₁ => triple_syncFrom hrest hnames.2 (Dict.get?_set_self _ _ _) hr₁) hs).weaken
          (fun t ht => by rw [ht]) fun _ _ hx => hx) h
      obtain ⟨_, rfl, hsynced⟩ := hreturns
      exact ⟨rfl, hsynced⟩
  exact hfrom _ hlms settings.profiles.distinct h

/-! ### Counted once -/

/-- The record is in a reserving state, and after the sync it stands for the load, unless it has
been replaced: it takes the load, or names it already and takes none. -/
def Standing (loads : List LmStudioLoad) (profiles : List ModelProfile) (i : BackendInstance)
    (load : LmStudioLoad) : Prop :=
  i.state.isReserved = true ∧
    match (profiles.find? fun profile => isOf profile i).map fun profile =>
      taken loads profile i with
    | some (some other) => other.identifier = load.identifier
    | some none => i.state ≠ .external ∧ StandsFor i load
    | none => StandsFor i load

/-- The record of the registry before the sync is one that stands for the load after it. -/
def Remains (settings : LifecycleSettings) (loads : List LmStudioLoad) (r : Registry)
    (i : BackendInstance) (load : LmStudioLoad) : Prop :=
  i ∈ r.list ∧ enteredUnder loads settings settings.profiles.list r.list i.instanceId = none ∧
    Standing loads settings.profiles.list i load

/-- A record for the load is entered, and stays. -/
def Entered (settings : LifecycleSettings) (loads : List LmStudioLoad) (r : Registry)
    (profile : ModelProfile) (load : LmStudioLoad) : Prop :=
  enteredUnder loads settings settings.profiles.list r.list (externalId settings load) =
    some (profile, load)

/-- Either a record is entered for the load, or one in a reserving state remains, but no two; and it
has a GPU. -/
def OneSource (settings : LifecycleSettings) (loads : List LmStudioLoad) (r : Registry)
    (load : LmStudioLoad) : Prop :=
  (∃ profile, Entered settings loads r profile load ∧ gpuIdsFromLmstudioLoad load profile ≠ [] ∧
    ∀ i, ¬ Remains settings loads r i load) ∨
  ((∀ profile, ¬ Entered settings loads r profile load) ∧
    ∃ i, Remains settings loads r i load ∧ i.gpuIds ≠ [] ∧
      ∀ j, Remains settings loads r j load → j.instanceId = i.instanceId)

lemma standsFor_of_stands {j : BackendInstance} {load other : LmStudioLoad}
    (h : StandsFor j other) :
    StandsFor j load ↔ other.identifier = load.identifier := by
  rw [StandsFor, h.2, Json.str.injEq]
  exact and_iff_right h.1

/-- What is left of a record counts for the load where the record is standing. -/
lemma Settled.counts {profiles : List ModelProfile} {i : BackendInstance}
    {o : Option BackendInstance}
    {load : LmStudioLoad} (h : Settled loads profiles (some i) o) :
    (∀ j, o = some j → j.gpuIds = i.gpuIds) ∧
      ((∃ j, o = some j ∧ j.state.isReserved = true ∧ StandsFor j load) ↔
        Standing loads profiles i load) := by
  simp only [Settled] at h
  unfold Standing
  cases hfind : profiles.find? fun profile => isOf profile i with
  | none =>
    rw [hfind] at h
    cases h
    simp
  | some profile =>
    simp only [hfind, Passed, List.find?_some hfind, if_true] at h
    cases htaken : taken loads profile i with
    | none =>
      rw [htaken] at h
      by_cases hext : i.state = .external
      · rw [if_pos hext] at h
        subst h
        simp [htaken, hext]
      · rw [if_neg hext] at h
        subst h
        simp [htaken, hext]
    | some other =>
      rw [htaken] at h
      obtain ⟨j, rfl, htook⟩ := h
      simp [htaken, standsFor_of_stands htook.stands, htook.state, htook.gpuIds]

lemma enteredUnder_spec {profiles : List ModelProfile} {l : List BackendInstance} {id : String}
    {load : LmStudioLoad} (h : enteredUnder loads settings profiles l id = some (profile, load)) :
    load ∈ loads ∧ externalId settings load = id := by
  induction profiles generalizing l with
  | nil => cases h
  | cons other rest ih =>
    dsimp only [enteredUnder] at h
    rw [Option.or_eq_some_iff, Option.map_eq_some_iff] at h
    rcases h with h | ⟨-, load', hlast, he⟩
    · exact ih h
    · cases he
      obtain ⟨hmem, hid⟩ := lastUnder_eq_some hlast
      exact ⟨List.mem_of_mem_filter (List.mem_of_mem_filter hmem), hid⟩

/-- The record under an id counts for the load after the sync. -/
def CountsUnder (r : Registry) (load : LmStudioLoad) (id : String) (gpuIds : List String) : Prop :=
  ∃ j, r.get? id = some j ∧ j.state.isReserved = true ∧ StandsFor j load ∧ j.gpuIds = gpuIds

lemma countedOnce_iff {r : Registry} {load : LmStudioLoad} : CountedOnce r load ↔
    ∃ id gpuIds, CountsUnder r load id gpuIds ∧ gpuIds ≠ [] ∧
      ∀ id' gpuIds', CountsUnder r load id' gpuIds' → id' = id := by
  constructor
  · rintro ⟨id, i, hi, hres, hstands, ⟨gpuId, hmem, -⟩, hunique⟩
    refine ⟨id, i.gpuIds, ⟨i, hi, hres, hstands, rfl⟩, List.ne_nil_of_mem hmem, ?_⟩
    rintro id' _ ⟨j, hj, hjres, hjstands, -⟩
    exact hunique id' j hj hjres hjstands
  · rintro ⟨id, _, ⟨i, hi, hres, hstands, rfl⟩, hgpus, hunique⟩
    obtain ⟨gpuId, hmem⟩ := List.exists_mem_of_ne_nil _ hgpus
    refine ⟨id, i, hi, hres, hstands, ⟨gpuId, reservedOn_of_mem hi hres hmem⟩, ?_⟩
    exact fun id' j hj hjres hjstands => hunique id' j.gpuIds ⟨j, hj, hjres, hjstands, rfl⟩

lemma Remains.ne_of_entered {i : BackendInstance} {load : LmStudioLoad}
    (hi : Remains settings loads r i load) (h : Entered settings loads r profile load) :
    i.instanceId ≠ externalId settings load := by
  intro hid
  rw [Entered, ← hid, hi.2.1] at h
  cases h

/-- After the sync, a record that counts has been entered, or it has remained. -/
lemma Synced.countsUnder (hr : KeyedBy r) (hdistinct : (loads.map LmStudioLoad.identifier).Nodup)
    (h : Synced settings loads settings.profiles.list r r') {load : LmStudioLoad}
    (hload : load ∈ loads)
    {id : String} {gpuIds : List String} : CountsUnder r' load id gpuIds ↔
      (∃ profile, Entered settings loads r profile load ∧ id = externalId settings load ∧
        gpuIds = gpuIdsFromLmstudioLoad load profile) ∨
      ∃ i, Remains settings loads r i load ∧ i.instanceId = id ∧ i.gpuIds = gpuIds := by
  have hid := h id
  cases hentered : enteredUnder loads settings settings.profiles.list r.list id with
  | some e =>
    obtain ⟨profile, other⟩ := e
    rw [hentered] at hid
    obtain ⟨j, hj, hext⟩ := hid
    obtain ⟨hother, hotherId⟩ := enteredUnder_spec hentered
    constructor
    · rintro ⟨k, hk, hres, hstands, rfl⟩
      rw [hj] at hk
      cases hk
      have hsame : other = load := List.inj_on_of_nodup_map hdistinct hother hload
        ((standsFor_of_stands hext.stands).mp hstands)
      subst hsame
      exact Or.inl ⟨profile, by rw [Entered, hotherId, hentered], hotherId.symm, hext.gpuIds⟩
    · rintro (⟨profile', hent, rfl, rfl⟩ | ⟨i, ⟨-, hnone, -⟩, rfl, -⟩)
      · rw [Entered, hentered] at hent
        cases hent
        refine ⟨j, hj, ?_, hext.stands, hext.gpuIds⟩
        rw [hext.state]
        rfl
      · rw [hentered] at hnone
        cases hnone
  | none =>
    rw [hentered] at hid
    have hnoEntry : ∀ profile, Entered settings loads r profile load →
      id ≠ externalId settings load := by
      rintro profile hent rfl
      rw [Entered, hentered] at hent
      cases hent
    constructor
    · rintro ⟨j, hj, hres, hstands, rfl⟩
      cases hi : r.get? id with
      | none =>
        rw [hi, hj] at hid
        cases hid
      | some i =>
        rw [hi] at hid
        obtain ⟨hgpus, hcounts⟩ := @hid.counts _ _ _ _ load
        refine Or.inr ⟨i, ⟨Dict.mem_values_of_get? hi, ?_, hcounts.mp ⟨j, hj, hres, hstands⟩⟩,
          hr id i hi, (hgpus j hj).symm⟩
        rw [hr id i hi, hentered]
    · rintro (⟨profile, hent, hid', -⟩ | ⟨i, ⟨hmem, -, hstanding⟩, rfl, rfl⟩)
      · exact absurd hid' (hnoEntry profile hent)
      · rw [hr.listed.2 i hmem] at hid
        obtain ⟨hgpus, hcounts⟩ := @hid.counts _ _ _ _ load
        obtain ⟨j, hj, hres, hstands⟩ := hcounts.mpr hstanding
        exact ⟨j, hj, hres, hstands, hgpus j hj⟩

/-- **Counted once**: after a sync over LM Studio profiles that share a binary, a live load is
counted exactly once where either a record is entered for it or one in a reserving state remains
that stands for it, not two, and it is on a GPU. -/
theorem synced_counted_iff {b : String} {s s' : LifecycleState} {p' : Service Unit}
    {calls : List (Event LifecycleCall LifecycleCall.Answer)}
    (hlms : ∀ profile ∈ settings.profiles.list,
      profile.runtime = "lmstudio" ∧ profile.lmsBinary = b)
    (hdistinct : (loads.map LmStudioLoad.identifier).Nodup) (hs : Keyed s)
    (h : (syncLiveLmstudioState settings).Turn world s (⟨.loadedModels b, loads⟩ :: calls) p' s') :
    p' = pure () ∧ ∀ load ∈ loads,
      (CountedOnce s'.registry load ↔ OneSource settings loads s.registry load) := by
  obtain ⟨hp, hsynced⟩ := sync_spec hlms hs h
  refine ⟨hp, fun load hload => ?_⟩
  have hcounts (id : String) (gpuIds : List String) : CountsUnder s'.registry load id gpuIds ↔ _ :=
    hsynced.countsUnder hs hdistinct hload
  simp only [countedOnce_iff, hcounts]
  constructor
  · rintro ⟨id, gpuIds, ⟨profile, hent, rfl, rfl⟩ | ⟨i, hi, rfl, rfl⟩, hgpus, hunique⟩
    · refine Or.inl ⟨profile, hent, hgpus, fun i hi => hi.ne_of_entered hent ?_⟩
      exact hunique i.instanceId i.gpuIds (Or.inr ⟨i, hi, rfl, rfl⟩)
    · refine Or.inr ⟨fun profile hent => hi.ne_of_entered hent ?_, i, hi, hgpus, fun j hj => ?_⟩
      · exact (hunique _ _ (Or.inl ⟨profile, hent, rfl, rfl⟩)).symm
      · exact hunique j.instanceId j.gpuIds (Or.inr ⟨j, hj, rfl, rfl⟩)
  · rintro (⟨profile, hent, hgpus, hnone⟩ | ⟨hnone, i, hi, hgpus, hunique⟩)
    · refine ⟨_, _, Or.inl ⟨profile, hent, rfl, rfl⟩, hgpus, ?_⟩
      rintro id' gpuIds' (⟨_, -, rfl, -⟩ | ⟨i, hi, -⟩)
      · rfl
      · exact absurd hi (hnone i)
    · refine ⟨_, _, Or.inr ⟨i, hi, rfl, rfl⟩, hgpus, ?_⟩
      rintro id' gpuIds' (⟨profile, hent, -⟩ | ⟨j, hj, rfl, -⟩)
      · exact absurd hent (hnone profile)
      · exact hunique j hj

/-! ### A ready record, and an unload that failed -/

def localLoad : LmStudioLoad where
  identifier := "local-main"
  modelKey := "local-main"
  status := some "loaded"
  contextLength := some 32768
  parallel := some 2
  gpu := some "gpu0"
  ttlSeconds := some 3600
  raw := []

def localSettings : LifecycleSettings :=
  settingsFor false (lmstudioProfile "chat" "local-main" 8000)

/-- One record, of an instance with the load. -/
def recordedAs (state : BackendState) : LifecycleState where
  registry := Dict.empty.set "chat-1"
    { dryInstance "chat-1" (lmstudioProfile "chat" "local-main" 8000) with
      state := state, dryRun := false }
  clock := atSecond 0
  log := []

/-- The answers of an outside world in order, in which LM Studio shows the load. -/
def showingLoad (c : LifecycleCall) (s : LifecycleState) : c.Answer :=
  match c with
  | .loadedModels _ => [localLoad]
  | c => answersAt (atSecond 0) [] c s

lemma allowed_showingLoad (c : LifecycleCall) (s : LifecycleState) :
    world.allowed c (showingLoad c s) s := by
  cases c with
  | loadedModels _ => trivial
  | _ => exact allowed_answersAt (atSecond 0) [] _ s

def syncedFrom (state : BackendState) : LifecycleState :=
  ((syncLiveLmstudioState localSettings).turnWith world showingLoad (recordedAs state)).2.2

lemma recordedAs_keyed (state : BackendState) : Keyed (recordedAs state) := by
  intro id i hi
  rw [recordedAs, Dict.get?_set] at hi
  split at hi
  · next hid =>
    cases hi
    exact hid.symm
  · cases hi

lemma localSettings_lms : ∀ profile ∈ localSettings.profiles.list,
    profile.runtime = "lmstudio" ∧ profile.lmsBinary = "lms" := by
  intro profile hprofile
  obtain rfl := List.mem_singleton.mp hprofile
  exact ⟨rfl, rfl⟩

lemma turn_synced (state : BackendState) : ∃ calls p',
    (syncLiveLmstudioState localSettings).Turn world (recordedAs state)
      (⟨.loadedModels "lms", [localLoad]⟩ :: calls) p' (syncedFrom state) :=
  ⟨_, _, turn_turnWith allowed_showingLoad _ _⟩

/-- The record stands for the load, on a GPU. -/
def countsLocal (i : BackendInstance) : Bool :=
  i.state.isReserved && i.runtime = "lmstudio" && !i.gpuIds.isEmpty &&
    match i.metadata.get "lmstudio_identifier" with
    | .str identifier => identifier = localLoad.identifier
    | _ => false

lemma countedOnce_of_single {r : Registry} (id : String) (hkeys : r.entries.map Prod.fst = [id])
    (h : (r.get? id).any countsLocal = true) : CountedOnce r localLoad := by
  obtain ⟨i, hi, hcounts⟩ := (Option.any_eq_true _ _).mp h
  simp only [countsLocal, Bool.and_eq_true, decide_eq_true_eq, Bool.not_eq_true'] at hcounts
  obtain ⟨⟨⟨hres, hruntime⟩, hgpus⟩, hidentifier⟩ := hcounts
  refine countedOnce_iff.mpr ⟨id, i.gpuIds, ⟨i, hi, hres, ⟨hruntime, ?_⟩, rfl⟩, ?_, ?_⟩
  · split at hidentifier
    · next identifier hget => rw [hget, of_decide_eq_true hidentifier]
    · cases hidentifier
  · rintro hnil
    rw [hnil] at hgpus
    cases hgpus
  · rintro id' _ ⟨j, hj, -⟩
    have hmem := List.mem_map_of_mem (f := Prod.fst) (Dict.get?_eq_some.mp hj)
    rw [hkeys] at hmem
    exact List.mem_singleton.mp hmem

/-- A ready record of the load is its one source. -/
theorem synced_counted_iff_sample : CountedOnce (syncedFrom .ready).registry localLoad ∧
    OneSource localSettings [localLoad] (recordedAs .ready).registry localLoad := by
  obtain ⟨calls, p', h⟩ := turn_synced .ready
  have hiff := (synced_counted_iff localSettings_lms (by decide) (recordedAs_keyed .ready) h).2
    localLoad (List.mem_singleton_self _)
  have hcounted : CountedOnce (syncedFrom .ready).registry localLoad :=
    countedOnce_of_single "chat-1" (by decide +kernel) (by decide +kernel)
  exact ⟨hcounted, hiff.mp hcounted⟩

/-- After an unload that failed, the record takes the load that is still there, and nothing reserves
the memory of the load. -/
theorem live_load_uncounted : ∃ (settings : LifecycleSettings) (loads : List LmStudioLoad)
    (s s' : LifecycleState) (calls : List (Event LifecycleCall LifecycleCall.Answer)),
    (∀ profile ∈ settings.profiles.list, profile.runtime = "lmstudio" ∧ profile.lmsBinary = "lms") ∧
    (loads.map LmStudioLoad.identifier).Nodup ∧ Keyed s ∧
    (syncLiveLmstudioState settings).Turn world s (⟨.loadedModels "lms", loads⟩ :: calls)
    (pure ()) s' ∧
    ∃ load ∈ loads, (∃ profile ∈ settings.profiles.list,
      lmstudioLoadMatchesProfile load profile = true) ∧
      ¬ CountedOnce s'.registry load := by
  obtain ⟨calls, p', h⟩ := turn_synced .failed
  obtain ⟨rfl, -⟩ := sync_spec localSettings_lms (recordedAs_keyed .failed) h
  refine ⟨localSettings, [localLoad], recordedAs .failed, syncedFrom .failed, calls,
    localSettings_lms, by decide, recordedAs_keyed .failed, h, localLoad,
    List.mem_singleton_self _, ⟨_, List.mem_singleton_self _, ?_⟩, ?_⟩
  · decide
  · rintro ⟨id, i, hi, hres, -⟩
    have hnone : (syncedFrom .failed).registry.list.all (fun i => !i.state.isReserved) = true := by
      decide +kernel
    rw [List.all_eq_true] at hnone
    simpa [hres] using hnone i (Dict.mem_values_of_get? hi)

end Orchestrator.Lifecycle
