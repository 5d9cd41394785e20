import Mathlib.Tactic.FinCases
import Orchestrator.StoreSound
import Orchestrator.TokenPolicy

/-!
The two validators of the task protocol. An admitted task passes the checks of the synchronous
validator on its identity, its priority and its objects; the checks on the other hints are not
made at admission, and three of the hints may there be an empty text or a truth value.
-/

namespace Orchestrator.AdmissionContract

open FieldChecks TaskParse TokenPolicy

/-! ### What the synchronous validator accepts -/

/-- A field passes a check: it is null, or the check accepts it. -/
def Passes (valid : Json → Except Exn Bool) (value : Json) : Prop :=
  value = .null ∨ valid value = .ok true

/-- The check of `parse_positive_int`. -/
def positive (value : Json) : Except Exn Bool := (parsePositiveInt value).map Option.isSome

/-- The check of `parse_non_negative_number`. -/
def nonNegative (value : Json) : Except Exn Bool := (parseNonNegativeNumber value).map Option.isSome

def tokensOf (orchestration : Mapping) : Mapping :=
  match orchestration.get "tokens" with
  | .obj tokens => tokens
  | _ => []

lemma eq_null_of_isNull {value : Json} (h : value.isNull = true) : value = .null := by
  cases value with
  | null => rfl
  | _ => cases h

lemma checkFields_ok_iff {parent message : String} {valid : Json → Except Exn Bool} {m : Mapping}
    {fields : List String} :
    checkFields parent message valid m fields = .ok () ↔
      ∀ field ∈ fields, Passes valid (m.get field) := by
  induction fields with
  | nil => simp [checkFields]
  | cons field fields ih =>
    rw [checkFields, List.forall_mem_cons, ← ih, Passes]
    cases hnull : (m.get field).isNull with
    | true =>
      have hvalue := eq_null_of_isNull hnull
      simp only [if_true, bind, Except.bind, hvalue, true_or, true_and]
    | false =>
      have hvalue : m.get field ≠ .null := by
        intro h
        rw [h] at hnull
        cases hnull
      simp only [Bool.false_eq_true, if_false, hvalue, false_or]
      cases hvalid : valid (m.get field) with
      | error e => exact ⟨nofun, nofun⟩
      | ok ok =>
        cases ok with
        | true => simp [bind, Except.bind]
        | false => exact ⟨nofun, nofun⟩

lemma requireFields_ok_iff {m : Mapping} {fields : List String} :
    requireFields m fields = .ok () ↔ ∀ field ∈ fields, nonEmptyString (m.get field) = true := by
  induction fields with
  | nil => simp [requireFields]
  | cons field fields ih =>
    rw [requireFields, List.forall_mem_cons]
    by_cases h : nonEmptyString (m.get field) = true
    · rw [if_pos h, ih]
      exact ⟨fun hrest => ⟨h, hrest⟩, fun hall => hall.2⟩
    · rw [if_neg h]
      exact ⟨nofun, fun hall => absurd hall.1 h⟩

/-- The envelopes that `validate_orchestration_contract` accepts once the schema is named. -/
structure EnvelopeInOrder (o : Mapping) : Prop where
  required : ∀ field ∈ requiredFields, nonEmptyString (o.get field) = true
  priority : (o.get "priority").toStr ∈ TaskParse.priorities
  objects : ∀ field ∈ ["tokens", "artifacts", "labels"],
    Passes (fun value => .ok (isObject value)) (o.get field)
  integers : ∀ field ∈ positiveIntFields, Passes positive (o.get field)
  numbers : ∀ field ∈ nonNegativeNumberFields, Passes nonNegative (o.get field)
  tokens : ∀ field ∈ tokenFields, Passes positive ((tokensOf o).get field)
  gpu : o.get "gpu" = .null ∨ validGpuHint (o.get "gpu") = true

lemma andThen_ok_iff {x : Except Exn Unit} {f : Unit → Except Exn Unit} :
    (x >>= f) = .ok () ↔ x = .ok () ∧ f () = .ok () := by
  rw [bind_eq_ok]
  exact ⟨fun ⟨(), hx, hf⟩ => ⟨hx, hf⟩, fun ⟨hx, hf⟩ => ⟨(), hx, hf⟩⟩

lemma checkTokens_ok_iff {o : Mapping} {f : Unit → Except Exn Unit} :
    (match o.get "tokens" with
      | .obj tokens => checkFields "orchestration.tokens." " must be a positive integer."
          (fun value => (parsePositiveInt value).map Option.isSome) tokens tokenFields >>= f
      | _ => .ok () >>= f) = .ok () ↔
      (∀ field ∈ tokenFields, Passes positive ((tokensOf o).get field)) ∧ f () = .ok () := by
  unfold tokensOf
  split
  · rw [andThen_ok_iff, checkFields_ok_iff]
    rfl
  · exact ⟨fun h => ⟨fun field _ => Or.inl rfl, h⟩, fun h => h.2⟩

lemma checkGpu_ok_iff {gpu : Json} {e : Exn} :
    (if !gpu.isNull && !validGpuHint gpu then .error e else .ok () : Except Exn Unit) = .ok () ↔
      gpu = .null ∨ validGpuHint gpu = true := by
  cases hnull : gpu.isNull with
  | true => simp [eq_null_of_isNull hnull]
  | false =>
    have hvalue : gpu ≠ .null := by
      rintro rfl
      cases hnull
    cases hvalid : validGpuHint gpu <;> simp [hvalue]

/-- **What the synchronous validator accepts.** -/
theorem validateEnvelope_ok_iff {o : Mapping} :
    validateEnvelope o = .ok () ↔ EnvelopeInOrder o := by
  rw [validateEnvelope, andThen_ok_iff, requireFields_ok_iff]
  by_cases hpriority : (o.get "priority").toStr ∈ TaskParse.priorities
  · rw [if_neg (not_not.mpr hpriority), andThen_ok_iff, andThen_ok_iff, andThen_ok_iff,
      checkFields_ok_iff, checkFields_ok_iff, checkFields_ok_iff]
    refine Iff.trans (and_congr_right' (and_congr_right' (and_congr_right' (and_congr_right'
      (checkTokens_ok_iff.trans (and_congr_right' checkGpu_ok_iff)))))) ?_
    constructor
    · rintro ⟨hrequired, hobjects, hintegers, hnumbers, htokens, hgpu⟩
      exact ⟨hrequired, hpriority, hobjects, hintegers, hnumbers, htokens, hgpu⟩
    · intro h
      exact ⟨h.required, h.objects, h.integers, h.numbers, h.tokens, h.gpu⟩
  · rw [if_pos hpriority]
    exact ⟨fun h => (nomatch h.2), fun h => absurd h.priority hpriority⟩

theorem validate_ok_iff {o : Mapping} (hversion : o.get "schema_version" ≠ .null) :
    validateOrchestrationContract (.obj o) = .ok () ↔
      o.get "schema_version" = .str schemaVersion ∧ EnvelopeInOrder o := by
  rw [validateOrchestrationContract]
  split
  · next hnull => exact absurd hnull hversion
  · next version hstr =>
    rw [hstr]
    by_cases h : version = schemaVersion
    · rw [if_pos h, validateEnvelope_ok_iff, h]
      exact (and_iff_right rfl).symm
    · rw [if_neg h]
      exact ⟨nofun, fun hboth => absurd (Json.str.inj hboth.1) h⟩
  · next hnull hstr =>
    exact ⟨nofun, fun hboth => absurd hboth.1 (hstr _)⟩

/-! ### What admission guarantees -/

lemma stringValue_ok {value : Json} {fieldName : String} {s : PyText.NonBlank}
    (h : stringValue value fieldName = .ok s) :
    nonEmptyString value = true ∧ ∃ text, value = .str text ∧ PyText.strip text = s.1 := by
  cases value with
  | str text =>
    rw [stringValue] at h
    split at h
    · next hne =>
      cases h
      exact ⟨by simpa [nonEmptyString] using hne, text, rfl, rfl⟩
    · cases h
  | _ => cases h

lemma optionalMapping_ok {value : Json} {fieldName : String} {m : Mapping}
    (h : optionalMapping value fieldName = .ok m) :
    Passes (fun value => .ok (isObject value)) value := by
  cases value with
  | null => exact Or.inl rfl
  | obj m => exact Or.inr rfl
  | _ => cases h

/-- An admitted number is a number for the synchronous validator, unless it is no number. -/
lemma passes_positive_iff {value : Json} {fieldName : String} {n : Option Positive}
    (h : optionalPositiveInt value fieldName = .ok n) :
    Passes positive value ↔ value ≠ .str "" ∧ ∀ b, value ≠ .bool b := by
  have hnumber : ∀ {m : ℤ}, value.isNoneOrEmpty = false → (∀ b, value ≠ .bool b) →
      value.toInt = .ok m → Passes positive value := by
    intro m hne hbool hm
    right
    have hpos : 0 < m := by
      rw [optionalPositiveInt, optionalInt, hne, hm] at h
      simp only [Bool.false_eq_true, if_false] at h
      split at h
      · next hle =>
        have : (1 : ℤ) ≤ m := hle
        omega
      · cases h
    cases value with
    | bool b => exact absurd rfl (hbool b)
    | _ =>
      rw [positive, parsePositiveInt, hm]
      all_goals simp [orNone, Except.map, Option.filter, hpos]
  have hsome : value.isNoneOrEmpty = false → ∃ m, value.toInt = .ok m := by
    intro hne
    rw [optionalPositiveInt, optionalInt, hne] at h
    simp only [Bool.false_eq_true, if_false] at h
    cases hm : value.toInt with
    | ok m => exact ⟨m, rfl⟩
    | error e =>
      rw [hm] at h
      dsimp only at h
      split at h <;> cases h
  constructor
  · intro hpass
    refine ⟨?_, fun b => ?_⟩
    · rintro rfl
      rcases hpass with hnull | hpositive
      · cases hnull
      · have hempty : positive (.str "") = .ok false := by decide
        rw [hempty] at hpositive
        cases hpositive
    · rintro rfl
      rcases hpass with hnull | hpositive
      · cases hnull
      · cases hpositive
  · rintro ⟨hne, hbool⟩
    by_cases hnull : value = .null
    · exact Or.inl hnull
    · have hvalue : value.isNoneOrEmpty = false := by
        cases value with
        | null => exact absurd rfl hnull
        | str s =>
          have : s ≠ "" := fun hs => hne (congrArg Json.str hs)
          simpa [Json.isNoneOrEmpty] using this
        | _ => rfl
      obtain ⟨m, hm⟩ := hsome hvalue
      exact hnumber hvalue hbool hm

/-- The envelope of an admitted task, as far as admission checks it. -/
structure Admitted (o : Mapping) : Prop where
  version : ∃ text, o.get "schema_version" = .str text
  required : ∀ field ∈ requiredFields, nonEmptyString (o.get field) = true
  priority : (o.get "priority").toStr ∈ TaskParse.priorities
  objects : ∀ field ∈ ["tokens", "artifacts", "labels"],
    Passes (fun value => .ok (isObject value)) (o.get field)
  planned : Plannable o

/-- The fields of a task that replace those of its request. -/
def ownFields : List String := ["job_id", "idempotency_key", "labels", "artifacts"]

/-- The envelope of a task is that of its request, but for the fields of the task's own. -/
def Inherits (o common : Mapping) : Prop := ∀ field ∉ ownFields, o.get field = common.get field

lemma inherits_override (rawTask : Mapping) (names : List String) (hnames : names ⊆ ownFields)
    (common : Mapping) :
    Inherits (names.foldl (fun m key => if rawTask.has key then m.set key (rawTask.get key) else m)
      common) common := by
  induction names generalizing common with
  | nil => exact fun _ _ => rfl
  | cons name names ih =>
    rw [List.cons_subset] at hnames
    intro field hfield
    rw [List.foldl_cons, ih hnames.2 _ field hfield]
    split
    · exact Mapping.get_set_ne common _ fun h => hfield (h ▸ hnames.1)
    · rfl

/-- The checks that admission makes once for a request. -/
structure CommonInOrder (common : Mapping) : Prop where
  version : ∃ text, common.get "schema_version" = .str text
  identity : ∀ field ∈ ["tenant", "project", "service", "task", "priority"],
    nonEmptyString (common.get field) = true
  priority : (common.get "priority").toStr ∈ TaskParse.priorities
  planned : Plannable common

lemma commonInOrder_of_validate {common : Mapping}
    (h : validateCommonOrchestration common = .ok ()) :
    CommonInOrder common := by
  have hplanned := plannable_of_validate h
  unfold validateCommonOrchestration at h
  obtain ⟨version, hversion, h⟩ := bind_eq_ok.mp h
  split at h
  · cases h
  obtain ⟨⟨⟩, hidentity, h⟩ := bind_eq_ok.mp h
  split at h
  · cases h
  · next hpriority =>
    obtain ⟨-, text, htext, -⟩ := stringValue_ok hversion
    refine ⟨⟨text, htext⟩, fun field hfield => ?_, not_not.mp hpriority, hplanned⟩
    obtain ⟨s, hs, -⟩ := bind_eq_ok.mp (checkAll_ok hidentity field hfield)
    exact (stringValue_ok hs).1

lemma parseQueueTask_admitted {rawTask common : Mapping} {model endpoint : PyText.NonBlank}
    {template : Option Mapping} {vars : Mapping} {index : ℕ} {t : QueueTask}
    (hc : CommonInOrder common)
    (h : parseQueueTask rawTask common model endpoint template vars index = .ok t) :
    Admitted t.orchestration ∧ Inherits t.orchestration common := by
  have hplanned := parseQueueTask_plannable hc.planned h
  unfold parseQueueTask at h
  simp only [bind_eq_ok] at h
  obtain ⟨job, hjob, _, -, _, hartifacts, _, hlabels, _, -, _, -, _, -, tokens, htokens, h⟩ := h
  obtain ⟨_, -, _, -, _, -, _, -, _, -, h⟩ := h
  have hinherits := inherits_override rawTask ownFields (List.Subset.refl _) common
  rw [taskTokens] at htokens
  obtain ⟨_, htokens, -⟩ := bind_eq_ok.mp htokens
  cases h
  unfold ownFields at hinherits
  dsimp only at hplanned ⊢
  generalize ["job_id", "idempotency_key", "labels", "artifacts"].foldl (fun (m : Mapping) key =>
    if rawTask.has key then m.set key (rawTask.get key) else m) common = o at *
  refine ⟨⟨?_, ?_, ?_, ?_, hplanned⟩, hinherits⟩
  · obtain ⟨text, htext⟩ := hc.version
    exact ⟨text, (hinherits "schema_version" (by decide)).trans htext⟩
  · intro field hfield
    by_cases hown : field ∈ ownFields
    · -- of the own fields only the job id is required
      have hid : field = "job_id" := by
        simp only [requiredFields, ownFields, List.mem_cons, List.not_mem_nil,
          or_false] at hfield hown
        rcases hown with rfl | rfl | rfl | rfl <;> simp_all
      rw [hid]
      exact (stringValue_ok hjob).1
    · rw [hinherits field hown]
      refine hc.identity field ?_
      simp only [requiredFields, ownFields, List.mem_cons, List.not_mem_nil, or_false,
        not_or] at hfield hown ⊢
      tauto
  · rw [hinherits "priority" (by decide)]
    exact hc.priority
  · intro field hfield
    simp only [List.mem_cons, List.not_mem_nil, or_false] at hfield
    rcases hfield with rfl | rfl | rfl
    · exact optionalMapping_ok htokens
    · exact optionalMapping_ok hartifacts
    · exact optionalMapping_ok hlabels

lemma parseTasks_admitted {common : Mapping} {model endpoint : PyText.NonBlank}
    {template : Option Mapping} {vars : Mapping} {index : ℕ} {raw : List Json}
    {tasks : List QueueTask}
    (hc : CommonInOrder common)
    (h : parseTasks common model endpoint template vars index raw = .ok tasks) :
    tasks.length = raw.length ∧
      ∀ t ∈ tasks, Admitted t.orchestration ∧ Inherits t.orchestration common := by
  induction raw generalizing index tasks with
  | nil => cases h; simp
  | cons x raw ih =>
    cases x with
    | obj m =>
      rw [parseTasks] at h
      simp only [bind_eq_ok] at h
      obtain ⟨t, ht, rest, hrest, h⟩ := h
      cases h
      obtain ⟨hlength, hall⟩ := ih hrest
      rw [List.length_cons, List.length_cons, hlength, List.forall_mem_cons]
      exact ⟨rfl, parseQueueTask_admitted hc ht, hall⟩
    | _ => cases h

/-- `payload["orchestration"]` of a request that is admitted. -/
def commonOrchestration : Json → Mapping
  | .obj payload =>
    match Mapping.get payload "orchestration" with
    | .obj orchestration => orchestration
    | _ => []
  | _ => []

/-- **What admission checks of an envelope.** -/
theorem parse_admitted {payload : Json} {tasks : List QueueTask}
    (h : parseTaskQueuePayload payload = .ok tasks) :
    tasks ≠ [] ∧ ∀ t ∈ tasks, Admitted t.orchestration ∧
      Inherits t.orchestration (commonOrchestration payload) := by
  cases payload with
  | obj m =>
    rw [parseTaskQueuePayload, parseQueueObject] at h
    simp only [bind_eq_ok] at h
    obtain ⟨common, hcommon, ⟨⟩, hvalidate, model, -, endpoint, -, template, -, vars, -, h⟩ := h
    have hobj : commonOrchestration (.obj m) = common := by
      unfold requireMapping at hcommon
      split at hcommon
      · next o ho =>
        cases hcommon
        rw [commonOrchestration, ho]
      · cases hcommon
    rw [hobj]
    split at h
    · next raw rest hraw =>
      obtain ⟨hlength, hall⟩ := parseTasks_admitted (commonInOrder_of_validate hvalidate) h
      refine ⟨?_, hall⟩
      rintro rfl
      cases hlength
    · cases h
  | _ => cases h

/-! ### The agreement of the two -/

/-- The fields of which admission checks nothing. -/
def uncheckedIntFields : List String :=
  ["max_active_requests", "max_queued_requests", "startup_timeout_seconds", "idle_ttl_seconds",
    "ttl_seconds", "lms_ttl_seconds"]

/-- The hints that only the synchronous validator checks, and the three numbers that it checks
more strictly: it knows no empty texts and no truth values. -/
structure HintsInOrder (o : Mapping) : Prop where
  version : o.get "schema_version" = .str schemaVersion
  planned : ∀ field ∈ planFields, o.get field ≠ .str "" ∧ ∀ b, o.get field ≠ .bool b
  integers : ∀ field ∈ uncheckedIntFields, Passes positive (o.get field)
  numbers : ∀ field ∈ nonNegativeNumberFields, Passes nonNegative (o.get field)
  tokens : ∀ field ∈ tokenFields, Passes positive ((tokensOf o).get field)
  gpu : o.get "gpu" = .null ∨ validGpuHint (o.get "gpu") = true

lemma hintsInOrder_congr {o common : Mapping} (h : Inherits o common)
    (hints : HintsInOrder common) : HintsInOrder o := by
  have hfield : ∀ {field}, field ∉ ownFields → common.get field = o.get field :=
    fun hf => (h _ hf).symm
  have htokens : tokensOf common = tokensOf o := by
    rw [tokensOf, tokensOf, hfield (by decide)]
  have hint : ∀ {P : Json → Prop} (fields : List String), (∀ field ∈ fields, field ∉ ownFields) →
      (∀ field ∈ fields, P (common.get field)) → ∀ field ∈ fields, P (o.get field) := by
    intro P fields hfields hP field hmem
    rw [← hfield (hfields field hmem)]
    exact hP field hmem
  refine ⟨?_, hint (P := fun value => value ≠ .str "" ∧ ∀ b, value ≠ .bool b) planFields (by decide)
      hints.planned, hint (P := Passes positive) uncheckedIntFields (by decide) hints.integers,
    hint (P := Passes nonNegative) nonNegativeNumberFields (by decide) hints.numbers, ?_, ?_⟩
  · rw [← hfield (by decide)]
    exact hints.version
  · rw [← htokens]
    exact hints.tokens
  · rw [← hfield (by decide)]
    exact hints.gpu

lemma Inherits.symm {o common : Mapping} (h : Inherits o common) : Inherits common o :=
  fun field hfield => (h field hfield).symm

/-- The fields of `parse_positive_int` are the checked ones and the unchecked ones. -/
lemma mem_positiveIntFields {field : String} :
    field ∈ positiveIntFields ↔ field ∈ planFields ∨ field ∈ uncheckedIntFields := by
  simp only [positiveIntFields, planFields, uncheckedIntFields, List.mem_cons, List.not_mem_nil,
    or_false]
  tauto

lemma Admitted.accepted_iff {o : Mapping} (h : Admitted o) :
    validateOrchestrationContract (.obj o) = .ok () ↔ HintsInOrder o := by
  have hversion : o.get "schema_version" ≠ .null := by
    obtain ⟨text, htext⟩ := h.version
    rw [htext]
    exact nofun
  have hplanned : ∀ field ∈ planFields, Passes positive (o.get field) ↔
      o.get field ≠ .str "" ∧ ∀ b, o.get field ≠ .bool b := by
    intro field hfield
    obtain ⟨n, hn⟩ := h.planned field hfield
    exact passes_positive_iff hn
  rw [validate_ok_iff hversion]
  constructor
  · rintro ⟨hschema, henvelope⟩
    refine ⟨hschema, fun field hfield => ?_, fun field hfield => ?_, henvelope.numbers,
      henvelope.tokens, henvelope.gpu⟩
    · exact (hplanned field hfield).mp (henvelope.integers field
        (mem_positiveIntFields.mpr (.inl hfield)))
    · exact henvelope.integers field (mem_positiveIntFields.mpr (.inr hfield))
  · intro hints
    refine ⟨hints.version, h.required, h.priority, h.objects, fun field hfield => ?_, hints.numbers,
      hints.tokens, hints.gpu⟩
    rcases mem_positiveIntFields.mp hfield with hplan | hunchecked
    · exact (hplanned field hplan).mpr (hints.planned field hplan)
    · exact hints.integers field hunchecked

/-- **The synchronous validator accepts what is stored of an admitted request** exactly when the
hints that admission does not check are in order. -/
theorem admitted_accepted_iff {payload : Json} {tasks : List QueueTask}
    (h : parseTaskQueuePayload payload = .ok tasks) :
    (∀ t ∈ tasks, ∀ stamp, validateOrchestrationContract
      (.obj (TaskStore.newTask t stamp).orchestration) = .ok ()) ↔
        HintsInOrder (commonOrchestration payload) := by
  obtain ⟨hne, hall⟩ := parse_admitted h
  constructor
  · intro haccepted
    obtain ⟨t, ht⟩ := List.exists_mem_of_ne_nil tasks hne
    have hstored := haccepted t ht (sampleStamp ⟨"task_1", nonBlank_task1⟩)
    exact hintsInOrder_congr (hall t ht).2.symm ((hall t ht).1.accepted_iff.mp hstored)
  · intro hints t ht stamp
    exact (hall t ht).1.accepted_iff.mpr (hintsInOrder_congr (hall t ht).2 hints)

/-! ### One request -/

/-- A request with one task, and a hint in its envelope. -/
def requestWith (hint : String × Json) : Json :=
  .obj [("model", .str "local-model"),
    ("orchestration", .obj [("schema_version", .str "llmo.task.v1"), ("tenant", .str "acme"),
      ("project", .str "docs"), ("service", .str "indexer"), ("task", .str "summarize"),
      ("priority", .str "batch"), hint]),
    ("tasks", .arr [.obj [("job_id", .str "job-1"), ("idempotency_key", .str "key-1"),
      ("payload", .obj [("prompt", .str "hello")])]])]

/-- A queue limit below zero is admitted, and the stored envelope is not accepted. -/
theorem admitted_not_accepted :
    ∃ tasks, parseTaskQueuePayload (requestWith ("max_queued_requests", .int (-1))) = .ok tasks ∧
      ∃ t ∈ tasks, ∀ stamp, validateOrchestrationContract
        (.obj (TaskStore.newTask t stamp).orchestration) ≠ .ok () := by
  refine ⟨_, rfl, _, List.mem_singleton_self _, fun stamp h => ?_⟩
  cases h

theorem admitted_accepted_sample :
    ∃ tasks, parseTaskQueuePayload (requestWith ("max_queued_requests", .int 8)) = .ok tasks ∧
      ∀ t ∈ tasks, ∀ stamp, validateOrchestrationContract
        (.obj (TaskStore.newTask t stamp).orchestration) = .ok () := by
  refine ⟨_, rfl, (@admitted_accepted_iff (requestWith ("max_queued_requests", .int 8)) _
    rfl).mpr ?_⟩
  refine ⟨rfl, ?_, ?_, ?_, ?_, Or.inl rfl⟩ <;> intro field hfield
  · fin_cases hfield <;> exact ⟨nofun, nofun⟩
  · fin_cases hfield
    · exact Or.inl rfl
    · exact Or.inr rfl
    all_goals exact Or.inl rfl
  · fin_cases hfield <;> exact Or.inl rfl
  · exact Or.inl rfl

end Orchestrator.AdmissionContract
