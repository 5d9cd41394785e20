import Orchestrator.Records
import Orchestrator.ModelConfig

/-!
The registry file: what a save and a load of it leave of the records.

The decoder reads an empty runtime as `external`, and an empty backend model as the model. A record
comes back as it was where it has a runtime, and it has one where its profile has one.
-/

namespace Orchestrator.Lifecycle

open Lib Lib.Coro Clock

/-! ### The texts of the states -/

namespace BackendState

/-- The value of the literal. -/
def text : BackendState → String
  | starting => "starting"
  | warming => "warming"
  | ready => "ready"
  | draining => "draining"
  | stopping => "stopping"
  | stopped => "stopped"
  | failed => "failed"
  | external => "external"

def all : List BackendState :=
  [starting, warming, ready, draining, stopping, stopped, failed, external]

/-- The state of a text; the file holds no other texts. -/
def ofText (t : String) : BackendState := (all.find? fun s => s.text = t).getD ready

@[simp] lemma ofText_text (s : BackendState) : ofText s.text = s := by cases s <;> decide

end BackendState

/-! ### Records as JSON objects -/

/-- `asdict(instance)` -/
def BackendInstance.toDict (i : BackendInstance) : Mapping :=
  [("instance_id", .str i.instanceId),
   ("model", .str i.model),
   ("backend_model", .str i.backendModel),
   ("runtime", .str i.runtime),
   ("base_url", .str i.baseUrl),
   ("gpu_ids", .arr (i.gpuIds.map Json.str)),
   ("state", .str i.state.text),
   ("reserved_vram_mb", .int i.reservedVramMb),
   ("host_port", optInt i.hostPort),
   ("container_name", optText i.containerName),
   ("runtime_command", .arr (i.runtimeCommand.map Json.str)),
   ("active_requests", .int i.activeRequests),
   ("failure_reason", optText i.failureReason),
   ("created_at", .str i.createdAt),
   ("updated_at", .str i.updatedAt),
   ("last_used_at", optText i.lastUsedAt),
   ("dry_run", .bool i.dryRun),
   ("metadata", .obj i.metadata)]

/-- `payload[key]` -/
def required (payload : Mapping) (key : String) : Except Exn Json :=
  match payload.lookup key with
  | some value => .ok value
  | none => .error (.keyError key)

/-- A text or `None`; the file holds nothing else there. -/
def textOrNone : Json → Option String
  | .str s => some s
  | _ => none

/-- The fields of `from_dict`, but for the time stamps and the metadata. -/
def dictFields (payload : Mapping) : Except Exn BackendInstance := do
  let instanceId ← required payload "instance_id"
  let model ← required payload "model"
  let gpuIds ← iterTexts (payload.getOr "gpu_ids" (.arr []))
  let reservedVramMb ← (payload.getOr "reserved_vram_mb" (.int 0)).toInt
  let hostPort ← optionalInt (payload.get "host_port")
  let runtimeCommand ← iterTexts (payload.getOr "runtime_command" (.arr []))
  let activeRequests ← (payload.getOr "active_requests" (.int 0)).toInt
  pure {
    instanceId := instanceId.toStr
    model := model.toStr
    backendModel := ((payload.get "backend_model").or model).toStr
    runtime := ((payload.get "runtime").or (.str "external")).toStr
    baseUrl := ((payload.get "base_url").or (.str "")).toStr
    gpuIds := gpuIds
    state := .ofText (payload.getOr "state" (.str "ready")).toStr
    reservedVramMb := reservedVramMb
    hostPort := hostPort
    containerName := textOrNone (payload.get "container_name")
    runtimeCommand := runtimeCommand
    activeRequests := activeRequests
    failureReason := textOrNone (payload.get "failure_reason")
    createdAt := ""
    updatedAt := ""
    lastUsedAt := textOrNone (payload.get "last_used_at")
    dryRun := (payload.getOr "dry_run" (.bool true)).truthy
    metadata := [] }

/-- `str(value or now_iso())` -/
def timeOrNow (value : Json) : Service String :=
  if value.truthy then pure value.toStr else nowText

def BackendInstance.fromDict (payload : Mapping) : Service BackendInstance :=
  (lift (dictFields payload)).after <| onOk fun i =>
    (timeOrNow (payload.get "created_at")).after <| onOk fun created =>
      (timeOrNow (payload.get "updated_at")).after <| onOk fun updated =>
        (lift (itemsOf (.typeError "object is not iterable") (payload.get "metadata"))).after <|
          onOk fun metadata =>
            pure { i with createdAt := created, updatedAt := updated, metadata := metadata }

/-- The payload of `save` -/
def saved (r : Registry) : Mapping := [("instances", .arr (r.list.map fun i => .obj i.toDict))]

/-- `item for item in instances if isinstance(item, dict)` -/
def dictsOf : Json → Except Exn (List Mapping)
  | .arr items => .ok (items.filterMap fun
    | .obj m => some m
    | _ => none)
  | .obj _ | .str _ => .ok []
  | _ => .error (.typeError "object is not iterable")

/-- The registry that `load` makes of a payload. -/
def loaded (payload : Mapping) : Service Registry :=
  (lift (dictsOf (payload.getOr "instances" (.arr [])))).after <| onOk fun items =>
    (mapEach BackendInstance.fromDict items).after <| onOk fun instances =>
      pure (registryOf instances)

/-! ### The decoder after the encoder -/

lemma iterTexts_texts (l : List String) : iterTexts (.arr (l.map Json.str)) = .ok l := by
  rw [iterTexts, List.map_map]
  exact congrArg Except.ok (List.map_id l)

@[simp] lemma optionalInt_optInt (n : Option ℤ) : optionalInt (optInt n) = .ok n := by
  cases n <;> rfl

@[simp] lemma textOrNone_optText (t : Option String) : textOrNone (optText t) = t := by
  cases t <;> rfl

lemma str_or_toStr (t : String) (other : Json) :
    ((Json.str t).or other).toStr = if t = "" then other.toStr else t := by
  by_cases h : t = ""
  · simp [Json.or, Json.truthy, h]
  · simp [Json.or, Json.truthy, h, Json.toStr]

lemma timeOrNow_str (t : String) : timeOrNow (.str t) = stampOr t := by
  by_cases h : t = ""
  · simp [timeOrNow, stampOr, Json.truthy, h]
  · simp [timeOrNow, stampOr, Json.truthy, Json.toStr, h]

lemma dictFields_toDict (i : BackendInstance) : dictFields i.toDict = .ok { i with
    backendModel := if i.backendModel = "" then i.model else i.backendModel
    runtime := if i.runtime = "" then "external" else i.runtime
    createdAt := ""
    updatedAt := ""
    metadata := [] } := by
  have hbase : ((Json.str i.baseUrl).or (.str "")).toStr = i.baseUrl := by
    rw [str_or_toStr]
    split
    · next h => exact h.symm
    · rfl
  have hbackend := str_or_toStr i.backendModel (.str i.model)
  have hruntime := str_or_toStr i.runtime (.str "external")
  have hgpus := iterTexts_texts i.gpuIds
  have hcommand := iterTexts_texts i.runtimeCommand
  have hfields : dictFields i.toDict = (do
      let gpuIds ← iterTexts (.arr (i.gpuIds.map Json.str))
      let hostPort ← optionalInt (optInt i.hostPort)
      let runtimeCommand ← iterTexts (.arr (i.runtimeCommand.map Json.str))
      pure { i with
        backendModel := ((Json.str i.backendModel).or (.str i.model)).toStr
        runtime := ((Json.str i.runtime).or (.str "external")).toStr
        baseUrl := ((Json.str i.baseUrl).or (.str "")).toStr
        gpuIds := gpuIds
        state := .ofText i.state.text
        hostPort := hostPort
        containerName := textOrNone (optText i.containerName)
        runtimeCommand := runtimeCommand
        failureReason := textOrNone (optText i.failureReason)
        createdAt := ""
        updatedAt := ""
        lastUsedAt := textOrNone (optText i.lastUsedAt)
        metadata := [] }) := rfl
  rw [hfields, hgpus, hcommand, hbase, hbackend, hruntime]
  simp only [optionalInt_optInt, textOrNone_optText, BackendState.ofText_text]
  rfl

/-- **The decoder after the encoder** is the copy that LM Studio's loads are written to. -/
theorem fromDict_toDict (i : BackendInstance) : BackendInstance.fromDict i.toDict = copied i := by
  have hmetadata : itemsOf (.typeError "object is not iterable") (.obj i.metadata) =
      .ok i.metadata := by
    cases hm : i.metadata <;> rfl
  have hfields := dictFields_toDict i
  have hdict : BackendInstance.fromDict i.toDict = (lift (dictFields i.toDict)).after (onOk fun j =>
      (timeOrNow (.str i.createdAt)).after <| onOk fun created =>
        (timeOrNow (.str i.updatedAt)).after <| onOk fun updated =>
          (lift (itemsOf (.typeError "object is not iterable") (.obj i.metadata))).after <|
            onOk fun metadata => pure
              { j with createdAt := created, updatedAt := updated, metadata := metadata }) := rfl
  rw [hdict, hfields, hmetadata, timeOrNow_str, timeOrNow_str]
  rfl

/-- The texts that the decoder would replace are there. -/
structure Intact (i : BackendInstance) : Prop where
  runtime : i.runtime ≠ ""
  backendModel : i.backendModel = "" → i.model = ""
  createdAt : i.createdAt ≠ ""
  updatedAt : i.updatedAt ≠ ""

lemma copied_eq_pure {i : BackendInstance} : copied i = pure i ↔ Intact i := by
  constructor
  · intro h
    unfold copied stampOr at h
    split at h
    · cases h
    next hcreated =>
    split at h
    · cases h
    next hupdated =>
    have hcopy := Except.ok.inj (Coro.done.inj h)
    have hbackend := congrArg BackendInstance.backendModel hcopy
    have hruntime := congrArg BackendInstance.runtime hcopy
    refine ⟨fun he => ?_, fun he => ?_, hcreated, hupdated⟩
    · rw [if_pos he, he] at hruntime
      exact (by decide : ("external" : String) ≠ "") hruntime
    · rw [if_pos he, he] at hbackend
      exact hbackend
  · intro h
    have hbackend : (if i.backendModel = "" then i.model else i.backendModel) = i.backendModel := by
      split
      · next he => rw [h.backendModel he, he]
      · rfl
    rw [copied, stampOr, stampOr, if_neg h.createdAt, if_neg h.updatedAt, hbackend,
      if_neg h.runtime]
    rfl

lemma entries_registryOf {l : List BackendInstance} (h : (l.map BackendInstance.instanceId).Nodup) :
    (registryOf l).entries = l.map fun i => (i.instanceId, i) := by
  induction l using List.reverseRecOn with
  | nil => rfl
  | append_singleton l i ih =>
    rw [List.map_append, List.nodup_append] at h
    have hnone : (registryOf l).get? i.instanceId = none := by
      rw [registryOf, get?_foldl_set _ _ fun hmem => h.2.2 _ hmem _ (by simp) rfl]
      rfl
    have hset : registryOf (l ++ [i]) = (registryOf l).set i.instanceId i := by
      rw [registryOf, List.foldl_append]
      rfl
    rw [hset, Dict.set_entries_of_none i hnone, ih h.1, List.map_append]
    rfl

/-- A registry is made of its records. -/
lemma registryOf_list {s : LifecycleState} (h : Keyed s) :
    registryOf s.registry.list = s.registry := by
  refine Dict.ext ?_
  rw [entries_registryOf (current_list h).1, Registry.list, Dict.values, List.map_map]
  refine (List.map_congr_left fun p hp => ?_).trans (List.map_id _)
  exact Prod.ext (h p.1 p.2 (Dict.get?_eq_some.mpr hp)) rfl

lemma loaded_saved (r : Registry) : loaded (saved r) =
    (mapEach copied r.list).after (onOk fun instances => pure (registryOf instances)) := by
  have hdicts : dictsOf (.arr (r.list.map fun i => .obj i.toDict)) =
      .ok (r.list.map BackendInstance.toDict) := by
    rw [dictsOf, List.filterMap_map]
    exact congrArg Except.ok (congrFun List.filterMap_eq_map' _)
  have hloaded : loaded (saved r) =
      (lift (dictsOf (.arr (r.list.map fun i => .obj i.toDict)))).after (onOk fun items =>
        (mapEach BackendInstance.fromDict items).after <| onOk fun instances =>
          pure (registryOf instances)) := rfl
  have heach : ∀ l : List BackendInstance,
      mapEach BackendInstance.fromDict (l.map BackendInstance.toDict) = mapEach copied l := by
    intro l
    induction l with
    | nil => rfl
    | cons i l ih => rw [List.map_cons, mapEach, mapEach, fromDict_toDict, ih]
  rw [hloaded, hdicts, ← heach]
  rfl

lemma mapEach_copied {l : List BackendInstance} (h : ∀ i ∈ l, Intact i) :
    mapEach copied l = pure l := by
  induction l with
  | nil => rfl
  | cons i l ih =>
    rw [List.forall_mem_cons] at h
    rw [mapEach, copied_eq_pure.mpr h.1, ih h.2]
    rfl

/-! ### Profiles -/

/-- A float has a text, which is its `repr`. -/
def HasRepr : Json → Prop
  | .float x => x.text ≠ ""
  | _ => True

lemma toStr_ne_empty {x : Json} (hx : HasRepr x) (h : x.truthy = true) : x.toStr ≠ "" := by
  cases x with
  | null => cases h
  | bool b => cases b <;> decide
  | int n =>
    cases n with
    | ofNat m => exact Nat.repr_ne_empty
    | negSucc m => simp [Json.toStr, toString, Int.repr]
  | float x => exact hx
  | str s => simpa [Json.truthy, Json.toStr] using h
  | arr l => simp [Json.toStr, Json.dumps, Json.sortKeys, Json.dumpsOrdered]
  | obj m => simp [Json.toStr, Json.dumps, Json.sortKeys, Json.dumpsOrdered]

def HasReprs (m : Mapping) : Prop := ∀ p ∈ m, HasRepr p.2

lemma HasReprs.get {m : Mapping} (h : HasReprs m) (key : String) : HasRepr (m.get key) := by
  induction m with
  | nil => exact trivial
  | cons p m ih =>
    obtain ⟨k, v⟩ := p
    rw [HasReprs, List.forall_mem_cons] at h
    rw [Mapping.get_cons]
    split
    · exact h.1
    · exact ih h.2

lemma HasReprs.set {m : Mapping} (h : HasReprs m) (key : String) {value : Json}
    (hv : HasRepr value) : HasReprs (m.set key value) := by
  induction m with
  | nil => exact List.forall_mem_singleton.mpr hv
  | cons p m ih =>
    obtain ⟨k, v⟩ := p
    rw [HasReprs, List.forall_mem_cons] at h
    rw [Mapping.set]
    split
    · exact List.forall_mem_cons.mpr ⟨hv, h.2⟩
    · exact List.forall_mem_cons.mpr ⟨h.1, ih h.2⟩

lemma HasReprs.merge {m n : Mapping} (hm : HasReprs m) (hn : HasReprs n) :
    HasReprs (m.merge n) := by
  induction n generalizing m with
  | nil => exact hm
  | cons p n ih =>
    rw [HasReprs, List.forall_mem_cons] at hn
    exact ih (hm.set p.1 hn.1) hn.2

lemma hasReprs_allocationOverrides (payload : Mapping) :
    HasReprs (allocationOverrides payload) := by
  have hite : ∀ m : Mapping, HasReprs (if m.isEmpty then [] else [("lifecycle", .obj m)]) := by
    intro m
    split
    · exact fun _ hp => absurd hp List.not_mem_nil
    · simp [HasReprs, HasRepr]
  exact hite _

/-- The backend model of a profile that is read from its data. -/
lemma modelProfileFromData_backendModel {key : String} {data defaults : Mapping} {p : ModelProfile}
    (h : modelProfileFromData key data defaults = .ok p) :
    p.backendModel =
      (((defaults.merge data).get "backend_model").or (.str p.publicName)).toStr := by
  dsimp only [modelProfileFromData] at h
  simp only [bind_eq_ok] at h
  obtain ⟨_, -, _, -, _, -, _, -, _, -, _, -, _, -, _, -, h⟩ := h
  obtain ⟨_, -, _, -, _, -, _, -, _, -, _, -, _, -, _, -, h⟩ := h
  cases h
  rfl

/-- A profile without a backend model has no name. -/
def Backed (p : ModelProfile) : Prop := p.backendModel = "" → p.publicName = ""

lemma backed_modelProfileFromData {key : String} {data defaults : Mapping} {p : ModelProfile}
    (hdata : HasReprs data) (hdefaults : HasReprs defaults)
    (h : modelProfileFromData key data defaults = .ok p) : Backed p := by
  intro hempty
  rw [modelProfileFromData_backendModel h, Json.or] at hempty
  split at hempty
  · next htruthy => exact absurd hempty (toStr_ne_empty ((hdefaults.merge hdata).get _) htruthy)
  · exact hempty

/-- The configuration, of which the floats have texts. -/
structure OrchestratorConfig.Proper (config : OrchestratorConfig) : Prop where
  defaults : HasReprs config.defaults
  dynamicModels : HasReprs config.dynamicModels

/-- The profiles are read from the configuration. -/
structure ReadFrom (config : OrchestratorConfig) (settings : LifecycleSettings) : Prop where
  proper : config.Proper
  dynamic : settings.dynamicProfile = loadDynamicModelProfile config
  configured : ∀ p ∈ settings.profiles.list, ∃ key data, HasReprs data ∧
    modelProfileFromData key data config.defaults = .ok p

namespace ReadFrom

variable {config : OrchestratorConfig} {settings : LifecycleSettings}

lemma backed (h : ReadFrom config settings) {p : ModelProfile} (hp : p ∈ settings.profiles.list) :
    Backed p := by
  obtain ⟨key, data, hdata, hread⟩ := h.configured p hp
  exact backed_modelProfileFromData hdata h.proper.defaults hread

lemma backed_found (h : ReadFrom config settings) {payload : Mapping} {model : String}
    {found : ModelProfile × Mapping}
    (hfound : resolveProfile settings model (allocationOverrides payload) = .ok found) :
    Backed found.1 := by
  rw [resolveProfile] at hfound
  split at hfound
  · next p hp =>
    cases hfound
    exact h.backed (List.mem_of_find?_eq_some hp)
  split at hfound
  · cases hfound
  obtain ⟨o, ho, hfound⟩ := bind_eq_ok.mp hfound
  cases o with
  | none => cases hfound
  | some p =>
    cases hfound
    rw [h.dynamic, loadDynamicModelProfile] at ho
    split at ho
    · cases ho
    obtain ⟨lifecycle, -, ho⟩ := bind_eq_ok.mp ho
    have hnames : HasReprs [("public_name", .str model), ("backend_model", .str model)] := by
      simp [HasReprs, HasRepr]
    have hlifecycle : HasReprs [("lifecycle", .obj lifecycle)] := by simp [HasReprs, HasRepr]
    have hdata := ((h.proper.dynamicModels.merge (hasReprs_allocationOverrides payload)).merge
      hnames).merge hlifecycle
    dsimp only at ho
    generalize hread : modelProfileFromData model _ config.defaults = read at ho
    cases read with
    | error e => cases ho
    | ok q =>
      cases ho
      exact backed_modelProfileFromData hdata h.proper.defaults hread

end ReadFrom

/-! ### Runs -/

/-- The profile has a runtime, and a backend model if it has a name. -/
def Usable (p : ModelProfile) : Prop := p.runtime ≠ "" ∧ Backed p

lemma intact_reshaped {i j : BackendInstance} (h : Intact i) (hj : Reshaped i j) : Intact j where
  runtime := hj.runtime h.runtime ▸ h.runtime
  backendModel he := by
    rw [hj.model]
    by_cases hi : i.backendModel = ""
    · exact h.backendModel hi
    · exact absurd ((hj.backendModel hi).symm.trans he) hi
  createdAt := (hj.createdAt.resolve_right h.createdAt) ▸ h.createdAt
  updatedAt := (hj.updatedAt.resolve_right h.updatedAt) ▸ h.updatedAt

lemma intact_keeps {settings : LifecycleSettings} (hG : ∀ p ∈ settings.profiles.list, Usable p) :
    RecordKeeps settings Usable Intact where
  mark i state reason t h := { h with updatedAt := nowIso_ne_empty t }
  adjust i delta t h := { h with updatedAt := nowIso_ne_empty t }
  reshape i j := intact_reshaped
  external i t h := by
    obtain ⟨created, hcreated⟩ := h.createdAt
    refine ⟨h.runtime ▸ by decide, fun he => ?_, hcreated ▸ nowIso_ne_empty created,
      nowIso_ne_empty t⟩
    obtain ⟨p, hp, hmodel, hname | ⟨-, hname⟩⟩ := h.named
    · exact hmodel.trans ((hG p hp).2 (hname.symm.trans he))
    · exact hname.symm.trans he
  started profile i extra t hprofile _ h := by
    obtain ⟨created, hcreated⟩ := h.createdAt
    refine ⟨h.runtime ▸ hprofile.1, fun he => ?_, hcreated ▸ nowIso_ne_empty created,
      nowIso_ne_empty t⟩
    exact h.model.trans (hprofile.2 (h.backendModel.symm.trans he))

/-- The step acts with profiles that are read from a configuration and have a runtime. -/
def RuntimesGiven (S : Server) (l : ServerStep) : Prop :=
  (∃ config, ReadFrom config S.settings) ∧ ActsWith (fun p => p.runtime ≠ "") S l

lemma RuntimesGiven.usable {S : Server} {l : ServerStep} (h : RuntimesGiven S l) :
    ActsWith Usable S l := by
  obtain ⟨⟨config, hconfig⟩, hruntimes⟩ := h
  cases l with
  | restart _ _ => exact trivial
  | work l =>
    cases l with
    | resume _ _ => exact trivial
    | begin op calls =>
      refine ⟨fun p hp => ⟨hruntimes.1 p hp, hconfig.backed hp⟩, ?_⟩
      intro payload hop hmodel found hfound
      exact ⟨hruntimes.2 payload hop hmodel found hfound, hconfig.backed_found hfound⟩

lemma reachable_intact {S : Server} (h : serverLts.Reachable RuntimesGiven S) :
    Records Intact S.processes.state := by
  obtain ⟨S₀, hinit, hrun⟩ := h
  refine server_records (G := Usable) ?_ (fun settings => intact_keeps)
    (fun _ _ => intact_reshaped) ⟨S₀, hinit, hrun.mono fun _ _ => RuntimesGiven.usable⟩
  rintro p q ⟨_, _, _, rfl⟩ hp
  exact hp

/-- **The registry file** gives back every record and the whole registry, in every run in which all
profiles have a runtime. -/
theorem registry_reloads {S : Server} (h : serverLts.Reachable RuntimesGiven S) :
    loaded (saved S.processes.state.registry) = pure S.processes.state.registry ∧
    ∀ id i, S.processes.state.registry.get? id = some i →
      BackendInstance.fromDict i.toDict = pure i := by
  have hrecords := reachable_intact h
  constructor
  · have hlist : ∀ i ∈ S.processes.state.registry.list, Intact i := fun i hi => by
      obtain ⟨id, hid⟩ := Dict.mem_values.mp hi
      exact hrecords.2 id i hid
    rw [loaded_saved, mapEach_copied hlist, pure_eq, after_done, onOk_ok,
      registryOf_list hrecords.1]
  · intro id i hi
    rw [fromDict_toDict]
    exact copied_eq_pure.mpr (hrecords.2 id i hi)

/-! ### Allocations with hints -/

/-- A configuration of dynamic models only. -/
def dynamicConfig : OrchestratorConfig := ⟨[], [("enabled", .bool true)]⟩

def dynamicSettings : LifecycleSettings :=
  { settingsFor true (vllmProfile "qwen" 8000) with
    profiles := ⟨[], List.nodup_nil⟩
    dynamicConfig := dynamicConfig.dynamicModels
    dynamicProfile := loadDynamicModelProfile dynamicConfig
    dynamicAllowed := fun _ => true }

/-- A payload that asks for a runtime. -/
def hinted (runtime : String) : Mapping :=
  [("model", .str "m"), ("orchestration", .obj [("runtime", .str runtime)])]

/-- The server after its first allocation. -/
def hintedServer (runtime : String) : Server :=
  (Server.begin inOrder ⟨dynamicSettings, ⟨⟨.empty, atSecond 0, []⟩, []⟩⟩
    (.allocate (hinted runtime))).resume inOrder 0

lemma reachable_hinted {A : Server → ServerStep → Prop} (runtime : String)
    (hbegin : ∀ S calls, S.settings = dynamicSettings →
      A S (.work (.begin (.allocate (hinted runtime)) calls)))
    (hresume : ∀ S answer calls, S.settings = dynamicSettings →
      A S (.work (.resume answer calls))) :
    serverLts.Reachable A (hintedServer runtime) :=
  Lts.Reachable.run (.init ⟨rfl, rfl, rfl⟩)
    ((Server.run_begin (allowed_answersAt _ _) _ _ fun calls _ => hbegin _ calls rfl).trans
      (Server.run_resume (allowed_answersAt _ _) _ 0 fun _ _ _ => hresume _ _ _ rfl))

lemma readFrom_dynamicSettings : ReadFrom dynamicConfig dynamicSettings where
  proper := ⟨by simp [HasReprs, dynamicConfig], by simp [HasReprs, HasRepr, dynamicConfig]⟩
  dynamic := rfl
  configured _ hp := absurd hp List.not_mem_nil

/-- The profile that the allocation with a hint finds. -/
def hintedProfile (runtime : String) : Option ModelProfile :=
  (resolveProfile dynamicSettings (requestedModel (hinted runtime))
    (allocationOverrides (hinted runtime))).toOption.map Prod.fst

lemma actsWith_hinted {G : ModelProfile → Prop} {runtime : String}
    (hG : ∀ p, hintedProfile runtime = some p → G p) {S : Server}
    (hS : S.settings = dynamicSettings)
    (calls : List (Event LifecycleCall LifecycleCall.Answer)) :
    ActsWith G S (.work (.begin (.allocate (hinted runtime)) calls)) := by
  refine ⟨fun p hp => ?_, ?_⟩
  · rw [hS] at hp
    exact absurd hp List.not_mem_nil
  · rintro payload hpayload - found hfound
    cases hpayload
    rw [hS] at hfound
    exact hG found.1 (by rw [hintedProfile, hfound]; rfl)

lemma reachable_runtimesGiven {runtime : String}
    (h : ∀ p, hintedProfile runtime = some p → p.runtime ≠ "") :
    serverLts.Reachable RuntimesGiven (hintedServer runtime) := by
  refine reachable_hinted runtime (fun S calls hS => ⟨⟨dynamicConfig, ?_⟩, ?_⟩)
    fun S _ _ hS => ⟨⟨dynamicConfig, ?_⟩, trivial⟩
  · exact hS ▸ readFrom_dynamicSettings
  · exact actsWith_hinted h hS calls
  · exact hS ▸ readFrom_dynamicSettings

/-- A dry run of a model with the runtime `vllm` comes back from the file. -/
theorem registry_reloads_sample : (hintedServer "vllm").processes.state.registry.list.length = 1 ∧
    loaded (saved (hintedServer "vllm").processes.state.registry) =
      pure (hintedServer "vllm").processes.state.registry := by
  have hruntime : ((hintedProfile "vllm").map ModelProfile.runtime) = some "vllm" := by
    decide +kernel
  refine ⟨by decide +kernel, (registry_reloads (reachable_runtimesGiven fun p hp => ?_)).1⟩
  rw [hp] at hruntime
  exact Option.some.inj hruntime ▸ by decide

/-- An empty runtime is asked for, recorded, and read back as another one. -/
theorem empty_runtime_lost : ∃ S, serverLts.Reachable Lts.anyStep S ∧
    ∃ id i, S.processes.state.registry.get? id = some i ∧
      BackendInstance.fromDict i.toDict ≠ pure i := by
  refine ⟨hintedServer "", reachable_hinted "" (fun _ _ _ => trivial) fun _ _ _ _ => trivial, ?_⟩
  have hany : (hintedServer "").processes.state.registry.list.any
      (fun i => i.runtime = "") = true := by
    decide +kernel
  obtain ⟨i, hi, hruntime⟩ := List.any_eq_true.mp hany
  obtain ⟨id, hid⟩ := Dict.mem_values.mp hi
  refine ⟨id, i, hid, fun h => ?_⟩
  rw [fromDict_toDict] at h
  exact (copied_eq_pure.mp h).runtime (by simpa using hruntime)

end Orchestrator.Lifecycle
