import Orchestrator.Endpoints
import Orchestrator.StoreSound

/-!
What the parser of `POST /tasks/queue` raises. Of the conversions it makes, `int` of an infinite
number raises an exception that `optional_positive_int` does not catch; everything else that can
go wrong is a `TaskProtocolError`.
-/

namespace Orchestrator.SubmissionErrors

open FieldChecks TaskParse PyText

def isInfinite : Json → Prop
  | .float ⟨_, .inf _⟩ => True
  | _ => False

/-- An exception that the handler of a protocol error does not catch. -/
def Escapes (e : Exn) : Prop := e.kind ≠ .taskProtocol

@[simp] lemma escapes_taskProtocolError (message : String) :
    ¬Escapes (.taskProtocolError message) := fun h => h rfl

/-! ### The field checks -/

variable {value : Json} {fieldName : String}

@[simp] lemma raises_requireMapping : ¬Raises Escapes (requireMapping value fieldName) := by
  cases value <;> simp [requireMapping]

@[simp] lemma raises_optionalMapping : ¬Raises Escapes (optionalMapping value fieldName) := by
  cases value <;> simp [optionalMapping]

@[simp] lemma raises_optionalMappingOrNone :
    ¬Raises Escapes (optionalMappingOrNone value fieldName) := by
  cases value <;> simp [optionalMappingOrNone]

@[simp] lemma raises_stringValue : ¬Raises Escapes (stringValue value fieldName) := by
  unfold stringValue
  repeat' split
  all_goals simp

/-- The one conversion that raises what is not caught. -/
@[simp] lemma raises_optionalPositiveInt :
    Raises Escapes (optionalPositiveInt value fieldName) ↔ isInfinite value := by
  unfold optionalPositiveInt optionalInt
  cases value with
  | float x =>
    obtain ⟨text, x⟩ := x
    cases x with
    | inf neg => exact iff_of_true ⟨_, rfl, fun h => nomatch h⟩ trivial
    | nan => simp [Json.isNoneOrEmpty, Json.toInt, isInfinite, Exn.valueError]
    | fin q =>
      simp only [Json.isNoneOrEmpty, Json.toInt, isInfinite, Bool.false_eq_true, if_false,
        iff_false]
      split <;> simp
  | str s =>
    simp only [isInfinite, iff_false]
    split
    · simp
    · simp only [Json.toInt]
      cases parseInt s with
      | none => simp [Exn.valueError]
      | some n =>
        simp only
        split <;> simp
  | null => simp [Json.isNoneOrEmpty, isInfinite]
  | bool b =>
    simp only [Json.isNoneOrEmpty, Json.toInt, isInfinite, Bool.false_eq_true, if_false, iff_false]
    split <;> simp
  | int n =>
    simp only [Json.isNoneOrEmpty, Json.toInt, isInfinite, Bool.false_eq_true, if_false, iff_false]
    split <;> simp
  | arr l => simp [Json.isNoneOrEmpty, Json.toInt, isInfinite, Exn.typeError]
  | obj m => simp [Json.isNoneOrEmpty, Json.toInt, isInfinite, Exn.typeError]

lemma raises_checkAll {check : String → Except Exn Unit} {names : List String} :
    Raises Escapes (checkAll check names) ↔
      FirstFails (fun name => check name = .ok ()) (fun name => Raises Escapes (check name))
        names := by
  induction names with
  | nil => exact iff_of_false raises_ok id
  | cons name names ih =>
    rw [checkAll, raises_bind, FirstFails, ← ih]
    refine or_congr_right ⟨?_, fun h => ⟨(), h⟩⟩
    rintro ⟨⟨⟩, h⟩
    exact h

/-- What `string_value` accepts. -/
def IsText (value : Json) : Prop := ∃ s, value = .str s ∧ strip s ≠ ""

/-- What `optional_positive_int` accepts. -/
def IsCount (value : Json) : Prop :=
  value.isNoneOrEmpty = true ∨ ∃ n, value.toInt = .ok n ∧ 1 ≤ n

lemma stringValue_ok_iff {s : NonBlank} :
    stringValue value fieldName = .ok s ↔ ∃ text, value = .str text ∧ strip text = s.1 := by
  cases value with
  | str text =>
    unfold stringValue
    by_cases h : strip text ≠ ""
    · simp only [dif_pos h, Except.ok.injEq, Subtype.ext_iff, Json.str.injEq, exists_eq_left']
    · simp only [dif_neg h]
      refine iff_of_false nofun ?_
      rintro ⟨_, heq, hs⟩
      cases heq
      exact s.ne_empty (hs ▸ not_not.mp h)
  | _ => exact iff_of_false nofun fun ⟨_, h, _⟩ => by cases h

lemma isText_iff : (∃ s, stringValue value fieldName = .ok s) ↔ IsText value := by
  simp only [stringValue_ok_iff]
  constructor
  · rintro ⟨s, text, hvalue, hs⟩
    exact ⟨text, hvalue, hs ▸ s.ne_empty⟩
  · rintro ⟨text, hvalue, hs⟩
    exact ⟨⟨strip text, strip_strip text, hs⟩, text, hvalue, rfl⟩

lemma isCount_iff : (∃ n, optionalPositiveInt value fieldName = .ok n) ↔ IsCount value := by
  unfold optionalPositiveInt optionalInt IsCount
  cases hnone : value.isNoneOrEmpty with
  | true => simp
  | false =>
    cases hint : value.toInt with
    | error e =>
      simp only [Bool.false_eq_true, if_false, false_or]
      refine iff_of_false ?_ fun ⟨_, h, _⟩ => by cases h
      rintro ⟨n, hn⟩
      split at hn <;> cases hn
    | ok n =>
      simp only [Bool.false_eq_true, if_false, false_or, Except.ok.injEq, exists_eq_left']
      split
      · next h => exact iff_of_true ⟨_, rfl⟩ h
      · next h => exact iff_of_false nofun h

/-! ### The common envelope -/

/-- What is checked of the common envelope before its numbers. -/
structure NamesInOrder (o : Mapping) : Prop where
  version : ∃ text, o.get "schema_version" = .str text ∧ strip text = schemaVersion
  names : ∀ field ∈ ["tenant", "project", "service", "task", "priority"], IsText (o.get field)
  priority : (o.get "priority").toStr ∈ priorities

lemma unit_bind_iff {α : Type} {x : Except Exn α} :
    (do let _ ← x; pure () : Except Exn Unit) = .ok () ↔ ∃ a, x = .ok a := by
  cases x with
  | error e => exact iff_of_false nofun nofun
  | ok a => exact iff_of_true rfl ⟨a, rfl⟩

lemma raises_unit_bind {α : Type} {x : Except Exn α} :
    Raises Escapes (do let _ ← x; pure () : Except Exn Unit) ↔ Raises Escapes x := by
  simp only [raises_bind, raises_pure, and_false, exists_false, or_false]

lemma checkAll_iff {check : String → Except Exn Unit} {names : List String} :
    checkAll check names = .ok () ↔ ∀ name ∈ names, check name = .ok () := by
  induction names with
  | nil => simp [checkAll]
  | cons name names ih =>
    rw [checkAll, List.forall_mem_cons, ← ih, bind_eq_ok]
    constructor
    · rintro ⟨⟨⟩, h⟩
      exact h
    · exact fun h => ⟨(), h⟩

lemma raises_validateCommonOrchestration {o : Mapping} :
    Raises Escapes (validateCommonOrchestration o) ↔ NamesInOrder o ∧
      FirstFails (fun field => IsCount (o.get field)) (fun field => isInfinite (o.get field))
        planFields := by
  have hnumbers : ∀ name, Raises Escapes (do
      let _ ← optionalPositiveInt (o.get name) ("orchestration." ++ name)
      pure ()) ↔ isInfinite (o.get name) := by
    intro name
    rw [raises_unit_bind, raises_optionalPositiveInt]
  have hnames : ¬Raises Escapes (checkAll (fun name => do
      let _ ← stringValue (o.get name) ("orchestration." ++ name)
      pure ()) ["tenant", "project", "service", "task", "priority"]) := by
    simp only [raises_checkAll, FirstFails, raises_unit_bind, raises_stringValue, or_false,
      and_false, not_false_eq_true]
  unfold validateCommonOrchestration
  simp only [raises_bind, raises_stringValue, false_or]
  constructor
  · rintro ⟨version, hversion, h⟩
    split at h
    · exact absurd h (by simp)
    next hschema =>
    rw [raises_bind, or_iff_right hnames] at h
    obtain ⟨⟨⟩, hok, h⟩ := h
    split at h
    · exact absurd h (by simp)
    next hpriority =>
    rw [raises_checkAll] at h
    simp only [hnumbers, unit_bind_iff, isCount_iff] at h
    rw [checkAll_iff] at hok
    simp only [unit_bind_iff, isText_iff] at hok
    obtain ⟨text, htext, hstrip⟩ := stringValue_ok_iff.mp hversion
    exact ⟨⟨⟨text, htext, hstrip.trans (not_not.mp hschema)⟩, hok, not_not.mp hpriority⟩, h⟩
  · rintro ⟨⟨⟨text, htext, hstrip⟩, hok, hpriority⟩, h⟩
    refine ⟨⟨schemaVersion, by decide⟩, stringValue_ok_iff.mpr ⟨text, htext, hstrip⟩, ?_⟩
    rw [if_neg (not_not.mpr rfl), raises_bind, or_iff_right hnames]
    refine ⟨(), checkAll_iff.mpr ?_, ?_⟩
    · simp only [unit_bind_iff, isText_iff]
      exact hok
    · rw [if_neg (not_not.mpr hpriority), raises_checkAll]
      simp only [hnumbers, unit_bind_iff, isCount_iff]
      exact h

/-! ### Templates -/

variable {vars : Mapping}

@[simp] lemma raises_templateVariable {name : String} :
    ¬Raises Escapes (templateVariable vars name fieldName) := by
  unfold templateVariable
  split <;> simp

lemma raises_substitute (n : ℕ) (l : List Char) :
    ¬Raises Escapes (substitute vars fieldName n l) := by
  induction n generalizing l with
  | zero => simp [substitute]
  | succ n ih =>
    cases l with
    | nil => simp [substitute]
    | cons c rest =>
      rw [substitute]
      split
      · simp only [raises_bind, raises_templateVariable, ih, raises_pure, and_false, exists_false,
          or_false, not_false_eq_true]
      · simp only [raises_bind, ih, raises_pure, and_false, exists_false, or_false,
          not_false_eq_true]

@[simp] lemma raises_renderTemplateString {text : String} :
    ¬Raises Escapes (renderTemplateString text vars fieldName) := by
  unfold renderTemplateString
  split
  · simp
  · simp only [raises_bind, raises_substitute, raises_pure, and_false, exists_false, or_false,
      not_false_eq_true]

mutual
lemma raises_renderPayloadTemplate (fieldName : String) : ∀ value : Json,
    ¬Raises Escapes (renderPayloadTemplate vars fieldName value)
  | .str s => by simp [renderPayloadTemplate]
  | .arr l => by
    simp only [renderPayloadTemplate, raises_bind, raises_renderItems fieldName 0 l, raises_pure,
      and_false, exists_false, or_false, not_false_eq_true]
  | .obj m => by
    simp only [renderPayloadTemplate, raises_bind, raises_renderFields fieldName m, raises_pure,
      and_false, exists_false, or_false, not_false_eq_true]
  | .null => by simp [renderPayloadTemplate]
  | .bool b => by simp [renderPayloadTemplate]
  | .int n => by simp [renderPayloadTemplate]
  | .float x => by simp [renderPayloadTemplate]
lemma raises_renderItems (fieldName : String) (index : ℕ) : ∀ l : List Json,
    ¬Raises Escapes (renderItems vars fieldName index l)
  | [] => by simp [renderItems]
  | x :: l => by
    simp only [renderItems, raises_bind, raises_renderPayloadTemplate _ x,
      raises_renderItems fieldName (index + 1) l, raises_pure, and_false, exists_false, or_false,
      not_false_eq_true]
lemma raises_renderFields (fieldName : String) : ∀ m : List (String × Json),
    ¬Raises Escapes (renderFields vars fieldName m)
  | [] => by simp [renderFields]
  | (key, x) :: m => by
    simp only [renderFields, raises_bind, raises_renderPayloadTemplate _ x,
      raises_renderFields fieldName m, raises_pure, and_false, exists_false, or_false,
      not_false_eq_true]
end

@[simp] lemma raises_taskPayloadFromRaw {rawTask baseVars commonVars : Mapping}
    {template : Option Mapping} {index : ℕ} :
    ¬Raises Escapes (taskPayloadFromRaw rawTask template baseVars commonVars index) := by
  unfold taskPayloadFromRaw
  split
  · simp
  · simp only [raises_bind, raises_optionalMappingOrNone, false_or]
    rintro ⟨_, -, h⟩
    split at h
    · exact absurd h raises_pure
    · simp only [raises_bind, raises_optionalMapping, raises_renderPayloadTemplate, false_or] at h
      obtain ⟨_, -, _, -, h⟩ := h
      split at h
      · exact absurd h raises_pure
      · exact absurd h (by simp)

/-! ### Entries -/

/-- What the entries of a request have in common. -/
structure Header where
  orchestration : Mapping
  model : NonBlank
  endpoint : NonBlank
  template : Option Mapping
  vars : Mapping

/-- The checks of a request before its tasks. -/
def header (payload : Mapping) : Except Exn Header := do
  let orchestration ← requireMapping (payload.get "orchestration") "orchestration"
  validateCommonOrchestration orchestration
  let model ← requiredString payload "model"
  let endpoint ← stringValue
    ((payload.get "endpoint").or (.str "/v1/chat/completions")) "endpoint"
  let template ← optionalMappingOrNone (payload.get "payload_template") "payload_template"
  let vars ← optionalMapping (payload.get "template_vars") "template_vars"
  pure ⟨orchestration, model, endpoint, template, vars⟩

def parseEntry (h : Header) (index : ℕ) (rawTask : Mapping) : Except Exn QueueTask :=
  parseQueueTask rawTask h.orchestration h.model h.endpoint h.template h.vars index

/-- The two numbers that are read of an entry whose other fields are in order. -/
def tokenHints (h : Header) (index : ℕ) (rawTask : Mapping) : Except Exn (Json × Json) := do
  let orchestration := ["job_id", "idempotency_key", "labels", "artifacts"].foldl
    (fun m key => if rawTask.has key then m.set key (rawTask.get key) else m) h.orchestration
  let jobId ← stringValue (orchestration.get "job_id") (taskField index "job_id")
  let idempotencyKey ← stringValue (orchestration.get "idempotency_key")
    (taskField index "idempotency_key")
  let artifacts ← optionalMapping (orchestration.get "artifacts") (taskField index "artifacts")
  let labels ← optionalMapping (orchestration.get "labels") (taskField index "labels")
  let model ← stringValue ((rawTask.get "model").or (.str h.model.1)) (taskField index "model")
  let endpoint ← stringValue ((rawTask.get "endpoint").or (.str h.endpoint.1))
    (taskField index "endpoint")
  let payload ← taskPayloadFromRaw rawTask h.template
    [("model", .str model.1),
     ("endpoint", .str endpoint.1),
     ("job_id", .str jobId.1),
     ("idempotency_key", .str idempotencyKey.1),
     ("tenant", h.orchestration.get "tenant"),
     ("project", h.orchestration.get "project"),
     ("service", h.orchestration.get "service"),
     ("task", h.orchestration.get "task"),
     ("priority", h.orchestration.get "priority"),
     ("artifacts", .obj artifacts),
     ("labels", .obj labels)]
    h.vars index
  let commonTokens ← optionalMapping (orchestration.get "tokens")
    (taskField index "orchestration.tokens")
  let ownTokens ← optionalMapping (rawTask.get "tokens") (taskField index "tokens")
  let tokens := commonTokens.merge ownTokens
  pure (tokens.get "estimated_input_tokens",
    ((((tokens.get "max_output_tokens").or (payload.get "max_tokens")).or
      (payload.get "max_output_tokens")).or (payload.get "max_completion_tokens")).or
      (orchestration.get "max_output_tokens"))

/-- The first of the two numbers that is not accepted is infinite. -/
def EntryOverflows (h : Header) (index : ℕ) (rawTask : Mapping) : Prop :=
  ∃ estimated output, tokenHints h index rawTask = .ok (estimated, output) ∧
    (isInfinite estimated ∨ IsCount estimated ∧ isInfinite output)

lemma raises_parseEntry {h : Header} {index : ℕ} {rawTask : Mapping} :
    Raises Escapes (parseEntry h index rawTask) ↔ EntryOverflows h index rawTask := by
  unfold parseEntry parseQueueTask EntryOverflows tokenHints taskTokens
  simp only [raises_bind, raises_stringValue, raises_optionalMapping, raises_taskPayloadFromRaw,
    raises_optionalPositiveInt, raises_pure, and_false, exists_false, or_false, false_or,
    bind_eq_ok, exists_and_right, isCount_iff]
  constructor
  · rintro ⟨job, hjob, key, hkey, artifacts, hartifacts, labels, hlabels, model, hmodel, endpoint,
      hendpoint, payload, hpayload, common, hcommon, own, hown, h⟩
    refine ⟨_, _, ⟨job, hjob, key, hkey, artifacts, hartifacts, labels, hlabels, model, hmodel,
      endpoint, hendpoint, payload, hpayload, common, hcommon, own, hown, rfl⟩, h⟩
  · rintro ⟨_, _, ⟨job, hjob, key, hkey, artifacts, hartifacts, labels, hlabels, model, hmodel,
      endpoint, hendpoint, payload, hpayload, common, hcommon, own, hown, h⟩, hhints⟩
    cases h
    exact ⟨job, hjob, key, hkey, artifacts, hartifacts, labels, hlabels, model, hmodel, endpoint,
      hendpoint, payload, hpayload, common, hcommon, own, hown, hhints⟩

/-- An entry, with its index, that is parsed. -/
def EntryParsed (h : Header) (entry : Json × ℕ) (t : QueueTask) : Prop :=
  ∃ rawTask, entry.1 = .obj rawTask ∧ parseEntry h entry.2 rawTask = .ok t

lemma raises_parseTasks {h : Header} {index : ℕ} {raws : List Json} :
    Raises Escapes (parseTasks h.orchestration h.model h.endpoint h.template h.vars index raws) ↔
      FirstFails (fun entry => ∃ t, EntryParsed h entry t)
        (fun entry => ∃ rawTask, entry.1 = .obj rawTask ∧ EntryOverflows h entry.2 rawTask)
        (raws.zipIdx index) := by
  induction raws generalizing index with
  | nil => exact iff_of_false raises_ok id
  | cons raw raws ih =>
    rw [List.zipIdx_cons, FirstFails, ← ih, parseTasks.eq_def]
    cases raw with
    | obj m =>
      have hentry : Raises Escapes (parseEntry h index m) ↔ _ := raises_parseEntry
      unfold parseEntry at hentry
      simp only [raises_bind, hentry, raises_pure, and_false, exists_false, or_false, EntryParsed,
        parseEntry, Json.obj.injEq, exists_eq_left', exists_and_right]
    | _ => exact iff_of_false (by simp) (by simp [EntryParsed])

lemma parseTasks_perEntry {h : Header} {index : ℕ} {raws : List Json} {tasks : List QueueTask}
    (ht : parseTasks h.orchestration h.model h.endpoint h.template h.vars index raws = .ok tasks) :
    List.Forall₂ (EntryParsed h) (raws.zipIdx index) tasks := by
  induction raws generalizing index tasks with
  | nil =>
    cases ht
    exact .nil
  | cons raw raws ih =>
    rw [parseTasks.eq_def] at ht
    cases raw with
    | obj m =>
      simp only [bind_eq_ok] at ht
      obtain ⟨t, hparse, others, hothers, ht⟩ := ht
      cases ht
      exact .cons ⟨m, rfl, hparse⟩ (ih hothers)
    | _ => cases ht

/-! ### Requests -/

/-- The first number that is read and not accepted, in the order in which a request is checked, is
infinite: one of the three of the common envelope, or one of an entry. -/
def Overflows : Json → Prop
  | .obj payload =>
    (∃ o : Mapping, Mapping.get payload "orchestration" = .obj o ∧ NamesInOrder o ∧
      FirstFails (fun field => IsCount (o.get field)) (fun field => isInfinite (o.get field))
        planFields) ∨
    ∃ h raws, header payload = .ok h ∧ Mapping.get payload "tasks" = .arr raws ∧
      FirstFails (fun entry => ∃ t, EntryParsed h entry t)
        (fun entry => ∃ rawTask, entry.1 = .obj rawTask ∧ EntryOverflows h entry.2 rawTask)
        raws.zipIdx
  | _ => False

/-- One task for every entry of the request, in order, and at least one. -/
def PerEntry (payload : Json) (tasks : List QueueTask) : Prop :=
  tasks ≠ [] ∧ ∃ (m : Mapping) (h : Header) (raws : List Json), payload = .obj m ∧
    header m = .ok h ∧
    m.get "tasks" = .arr raws ∧ List.Forall₂ (EntryParsed h) raws.zipIdx tasks

/-- The parser in two parts: the common fields and the entries. -/
lemma parseQueueObject_eq (payload : Mapping) :
    parseQueueObject payload = header payload >>= fun h =>
      match payload.get "tasks" with
      | .arr (rawTask :: rest) =>
        parseTasks h.orchestration h.model h.endpoint h.template h.vars 0 (rawTask :: rest)
      | _ => .error (.taskProtocolError
          "Task queue request requires a non-empty tasks array.") := by
  unfold parseQueueObject header
  simp only [bind_assoc]
  rfl

lemma raises_header {payload : Mapping} : Raises Escapes (header payload) ↔
    ∃ o : Mapping, payload.get "orchestration" = .obj o ∧ NamesInOrder o ∧
      FirstFails (fun field => IsCount (o.get field)) (fun field => isInfinite (o.get field))
        planFields := by
  unfold header
  simp only [raises_bind, raises_requireMapping, requiredString, raises_stringValue,
    raises_optionalMapping, raises_optionalMappingOrNone, raises_validateCommonOrchestration,
    raises_pure, and_false, exists_false, or_false, false_or]
  refine exists_congr fun o => and_congr_left' ?_
  cases payload.get "orchestration" with
  | obj m => exact ⟨fun h => by cases h; rfl, fun h => by cases h; rfl⟩
  | _ => exact ⟨nofun, nofun⟩

theorem raises_parseTaskQueuePayload {payload : Json} :
    Raises Escapes (parseTaskQueuePayload payload) ↔ Overflows payload := by
  cases payload with
  | obj m =>
    rw [parseTaskQueuePayload, parseQueueObject_eq, raises_bind, raises_header, Overflows]
    refine or_congr_right (exists_congr fun h => ?_)
    constructor
    · rintro ⟨hh, hraises⟩
      split at hraises
      · next raw rest htasks =>
        exact ⟨_, hh, htasks, raises_parseTasks.mp hraises⟩
      · exact absurd hraises (by simp)
    · rintro ⟨raws, hh, htasks, hfails⟩
      refine ⟨hh, ?_⟩
      cases raws with
      | nil => exact absurd hfails id
      | cons raw rest =>
        rw [htasks]
        exact raises_parseTasks.mpr hfails
  | _ => exact iff_of_false (by simp [parseTaskQueuePayload]) id

lemma parse_perEntry {payload : Json} {tasks : List QueueTask}
    (h : parseTaskQueuePayload payload = .ok tasks) : PerEntry payload tasks := by
  cases payload with
  | obj m =>
    rw [parseTaskQueuePayload, parseQueueObject_eq, bind_eq_ok] at h
    obtain ⟨hd, hh, h⟩ := h
    split at h
    · next raw rest htasks =>
      have hentries := parseTasks_perEntry h
      refine ⟨?_, m, hd, _, rfl, hh, htasks, hentries⟩
      rintro rfl
      cases hentries
    · cases h
  | _ => cases h

/-- The submission is parsed, or it is answered as a violation of the protocol. -/
def Answered (payload : Json) : Prop :=
  (∃ tasks, parseTaskQueuePayload payload = .ok tasks ∧ PerEntry payload tasks) ∨
    ∃ e, parseTaskQueuePayload payload = .error e ∧ e.kind = .taskProtocol ∧
      ∀ settings stamps (request : Endpoints.Request),
        Endpoints.validateProxyAuth settings request = none → request.json = .ok payload →
          Endpoints.submitTaskQueue settings stamps request =
            pure (Endpoints.errorResponse 400 "invalid_task_protocol" e.message)

lemma submitTaskQueue_refused {payload : Json} {e : Exn}
    (h : parseTaskQueuePayload payload = .error e) (he : e.kind = .taskProtocol)
    (settings : Settings) (stamps : ℕ → Stamp) (request : Endpoints.Request)
    (hauth : Endpoints.validateProxyAuth settings request = none)
    (hjson : request.json = .ok payload) :
    Endpoints.submitTaskQueue settings stamps request =
      pure (Endpoints.errorResponse 400 "invalid_task_protocol" e.message) := by
  have hparse : (request.json >>= parseTaskQueuePayload) = .error e := by
    rw [hjson]
    exact h
  rw [Endpoints.submitTaskQueue, Endpoints.authorized, hauth]
  simp only [hparse, he, if_true]

/-- **Every submission is parsed or answered as a violation of the protocol**, exactly if no
infinite number is the first that is read and not accepted. -/
theorem answered_iff (payload : Json) : Answered payload ↔ ¬Overflows payload := by
  rw [← raises_parseTaskQueuePayload, Answered]
  cases hparse : parseTaskQueuePayload payload with
  | ok tasks => exact iff_of_true (Or.inl ⟨tasks, rfl, parse_perEntry hparse⟩) raises_ok
  | error e =>
    rw [raises_error, Escapes, not_not]
    constructor
    · rintro (⟨_, h, -⟩ | ⟨_, h, hkind, -⟩)
      · cases h
      · cases h
        exact hkind
    · intro hkind
      exact Or.inr ⟨e, rfl, hkind, submitTaskQueue_refused hparse hkind⟩

/-- A request with one task, and an infinite number of output tokens. -/
def overflowing : Json :=
  .obj [("model", .str "local-model"),
    ("orchestration", .obj [("schema_version", .str "llmo.task.v1"), ("tenant", .str "acme"),
      ("project", .str "docs"), ("service", .str "indexer"), ("task", .str "summarize"),
      ("priority", .str "batch")]),
    ("tasks", .arr [.obj [("job_id", .str "job-1"), ("idempotency_key", .str "key-1"),
      ("tokens", .obj [("max_output_tokens", .float ⟨"inf", .inf false⟩)])]])]

/-- The parser raises `OverflowError`. -/
theorem overflow_escapes : ¬Answered overflowing := by
  have hparse : parseTaskQueuePayload overflowing =
      .error (.overflowError "cannot convert float infinity to integer") := rfl
  rintro (⟨_, h, -⟩ | ⟨_, h, hkind, -⟩)
  · cases hparse.symm.trans h
  · cases hparse.symm.trans h
    cases hkind

end Orchestrator.SubmissionErrors
