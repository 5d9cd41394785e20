import Orchestrator.Task

/-!
The parser of `POST /tasks/queue`: common and per-task fields, payload templates and token
estimates.
-/

namespace Orchestrator.TaskParse

open PyText FieldChecks

def schemaVersion : String := "llmo.task.v1"

/-- `sorted(PRIORITIES)` -/
def priorities : List String := ["batch", "foreground", "interactive", "maintenance"]

def checkAll (check : String → Except Exn Unit) : List String → Except Exn Unit
  | [] => .ok ()
  | name :: rest => do
    check name
    checkAll check rest

def validateCommonOrchestration (orchestration : Mapping) : Except Exn Unit := do
  let version ← stringValue (orchestration.get "schema_version") "orchestration.schema_version"
  if version.1 ≠ schemaVersion then
    .error (.taskProtocolError ("orchestration.schema_version must be '" ++ schemaVersion ++ "'."))
  else
    checkAll (fun name => do
      let _ ← stringValue (orchestration.get name) ("orchestration." ++ name)
      pure ()) ["tenant", "project", "service", "task", "priority"]
    if (orchestration.get "priority").toStr ∉ priorities then
      .error (.taskProtocolError
        ("orchestration.priority must be one of: " ++ ", ".intercalate priorities ++ "."))
    else
      checkAll (fun name => do
        let _ ← optionalPositiveInt (orchestration.get name) ("orchestration." ++ name)
        pure ()) ["lms_parallel", "max_parallel", "lms_context_length"]

/-! ### Templates -/

def isNameStart (c : Char) : Bool := c.isAlpha || c = '_'
def isNameChar (c : Char) : Bool := c.isAlphanum || c = '_' || c = '.' || c = '-'

/-- A match of `TEMPLATE_PATTERN` at the head of a text: the name and the text after it. -/
def matchTemplate (l : List Char) : Option (String × List Char) :=
  match l with
  | '\x7b' :: '\x7b' :: rest =>
    match rest.dropWhile isSpace with
    | [] => none
    | c :: more =>
      if isNameStart c then
        match (more.dropWhile isNameChar).dropWhile isSpace with
        | '\x7d' :: '\x7d' :: after => some (String.ofList (c :: more.takeWhile isNameChar), after)
        | _ => none
      else none
  | _ => none

/-- `name.split(".")` -/
def splitDots (l : List Char) : List String :=
  match l with
  | [] => [""]
  | c :: r =>
    if c = '.' then "" :: splitDots r
    else match splitDots r with
      | [] => [String.singleton c]
      | p :: ps => (String.singleton c ++ p) :: ps

/-- The value a dotted path leads to. -/
def follow (value : Json) : List String → Option Json
  | [] => some value
  | part :: parts =>
    match value with
    | .obj m =>
      match m.lookup part with
      | some inner => follow inner parts
      | none => none
    | _ => none

def templateVariable (vars : Mapping) (name fieldName : String) : Except Exn Json :=
  match follow (.obj vars) (splitDots name.toList) with
  | some value => .ok value
  | none => .error (.taskProtocolError
      (fieldName ++ " references unknown template variable '" ++ name ++ "'."))

/-- The text that replaces a placeholder inside a longer string. -/
def variableText : Json → String
  | .arr l => (Json.arr l).dumps
  | .obj m => (Json.obj m).dumps
  | x => x.toStr

/-- `TEMPLATE_PATTERN.sub`; the first argument bounds the characters still to read. -/
def substitute (vars : Mapping) (fieldName : String) : ℕ → List Char →
    Except Exn (List Char)
  | 0, _ => .ok []
  | _ + 1, [] => .ok []
  | n + 1, c :: rest =>
    match matchTemplate (c :: rest) with
    | some (name, after) => do
      let value ← templateVariable vars name fieldName
      let others ← substitute vars fieldName n after
      pure ((variableText value).toList ++ others)
    | none => do
      let others ← substitute vars fieldName n rest
      pure (c :: others)

def renderTemplateString (value : String) (vars : Mapping) (fieldName : String) :
    Except Exn Json :=
  match matchTemplate value.toList with
  | some (name, []) => templateVariable vars name fieldName
  | _ => do
    let text ← substitute vars fieldName (value.toList.length + 1) value.toList
    pure (.str (String.ofList text))

mutual
def renderPayloadTemplate (vars : Mapping) (fieldName : String) : Json → Except Exn Json
  | .str s => renderTemplateString s vars fieldName
  | .arr l => do
    let items ← renderItems vars fieldName 0 l
    pure (.arr items)
  | .obj m => do
    let fields ← renderFields vars fieldName m
    pure (.obj fields)
  | x => .ok x
def renderItems (vars : Mapping) (fieldName : String) (index : ℕ) :
    List Json → Except Exn (List Json)
  | [] => .ok []
  | x :: l => do
    let item ← renderPayloadTemplate vars (fieldName ++ "[" ++ toString index ++ "]") x
    let items ← renderItems vars fieldName (index + 1) l
    pure (item :: items)
def renderFields (vars : Mapping) (fieldName : String) :
    List (String × Json) → Except Exn (List (String × Json))
  | [] => .ok []
  | (key, x) :: m => do
    let item ← renderPayloadTemplate vars (fieldName ++ "." ++ key) x
    let fields ← renderFields vars fieldName m
    pure ((key, item) :: fields)
end

def taskField (index : ℕ) (name : String) : String := "tasks[" ++ toString index ++ "]." ++ name

def taskPayloadFromRaw (rawTask : Mapping) (commonPayloadTemplate : Option Mapping)
    (baseVars commonTemplateVars : Mapping) (index : ℕ) : Except Exn Mapping :=
  if rawTask.has "payload" then optionalMapping (rawTask.get "payload") (taskField index "payload")
  else do
    let ownTemplate ← optionalMappingOrNone (rawTask.get "payload_template")
      (taskField index "payload_template")
    match ownTemplate.or commonPayloadTemplate with
    | none => pure []
    | some template =>
      let rawVars ← optionalMapping (rawTask.get "template_vars") (taskField index "template_vars")
      let rendered ← renderPayloadTemplate ((baseVars.merge commonTemplateVars).merge rawVars)
        (taskField index "payload_template") (.obj template)
      match rendered with
      | .obj m => pure m
      | _ => .error (.taskProtocolError
          (taskField index "payload_template" ++ " must render to a JSON object."))

/-! ### Tokens -/

mutual
def collectInputText : Json → String
  | .null => ""
  | .str s => s
  | .int n => (Json.int n).toStr
  | .float x => (Json.float x).toStr
  | .bool b => (Json.bool b).toStr
  | .arr l => "\n".intercalate (collectItems l)
  | .obj m =>
    let texts := collectFields m
    "\n".intercalate
      (["messages", "input", "prompt", "content", "text"].filterMap fun key => texts.lookup key)
def collectItems : List Json → List String
  | [] => []
  | x :: l => collectInputText x :: collectItems l
def collectFields : List (String × Json) → List (String × String)
  | [] => []
  | (key, x) :: m => (key, collectInputText x) :: collectFields m
end

/-- `round(n / 4)`, halves to the even quotient. -/
def roundQuarter (n : ℕ) : ℕ :=
  let q := n / 4
  if n % 4 < 2 then q else if n % 4 = 2 then q + q % 2 else q + 1

def estimateInputTokens (payload : Mapping) : ℕ :=
  let text := collectInputText (.obj payload)
  if text = "" then 0 else max 1 (roundQuarter text.length)

def defaultMaxOutputTokens : Positive := ⟨1024, one_le_1024⟩

structure Tokens where
  estimatedInputTokens : ℕ
  maxOutputTokens : Positive
  requiredContextTokens : Positive

def taskTokens (rawTask orchestration payload : Mapping) (index : ℕ) : Except Exn Tokens := do
  let commonTokens ← optionalMapping (orchestration.get "tokens")
    (taskField index "orchestration.tokens")
  let taskTokensPayload ← optionalMapping (rawTask.get "tokens") (taskField index "tokens")
  let tokens := commonTokens.merge taskTokensPayload
  let given ← optionalPositiveInt (tokens.get "estimated_input_tokens")
    (taskField index "tokens.estimated_input_tokens")
  let estimated := match given with
    | some n => n.1
    | none => estimateInputTokens payload
  let maxOutput ← optionalPositiveInt
    (((((tokens.get "max_output_tokens").or (payload.get "max_tokens")).or
      (payload.get "max_output_tokens")).or (payload.get "max_completion_tokens")).or
      (orchestration.get "max_output_tokens"))
    (taskField index "tokens.max_output_tokens")
  let maxOutput := maxOutput.getD defaultMaxOutputTokens
  pure ⟨estimated, maxOutput, ⟨max 1 (estimated + maxOutput.1), Nat.le_max_left _ _⟩⟩

/-! ### Tasks and batches -/

def parseQueueTask (rawTask commonOrchestration : Mapping) (commonModel commonEndpoint : NonBlank)
    (commonPayloadTemplate : Option Mapping) (commonTemplateVars : Mapping) (index : ℕ) :
    Except Exn QueueTask := do
  let orchestration := ["job_id", "idempotency_key", "labels", "artifacts"].foldl
    (fun m key => if rawTask.has key then m.set key (rawTask.get key) else m) commonOrchestration
  let jobId ← stringValue (orchestration.get "job_id") (taskField index "job_id")
  let idempotencyKey ← stringValue (orchestration.get "idempotency_key")
    (taskField index "idempotency_key")
  let artifacts ← optionalMapping (orchestration.get "artifacts") (taskField index "artifacts")
  let labels ← optionalMapping (orchestration.get "labels") (taskField index "labels")
  let model ← stringValue ((rawTask.get "model").or (.str commonModel.1)) (taskField index "model")
  let endpoint ← stringValue ((rawTask.get "endpoint").or (.str commonEndpoint.1))
    (taskField index "endpoint")
  let payload ← taskPayloadFromRaw rawTask commonPayloadTemplate
    [("model", .str model.1),
     ("endpoint", .str endpoint.1),
     ("job_id", .str jobId.1),
     ("idempotency_key", .str idempotencyKey.1),
     ("tenant", commonOrchestration.get "tenant"),
     ("project", commonOrchestration.get "project"),
     ("service", commonOrchestration.get "service"),
     ("task", commonOrchestration.get "task"),
     ("priority", commonOrchestration.get "priority"),
     ("artifacts", .obj artifacts),
     ("labels", .obj labels)]
    commonTemplateVars index
  let tokens ← taskTokens rawTask orchestration payload index
  let tenant ← stringValue (commonOrchestration.get "tenant") "orchestration.tenant"
  let project ← stringValue (commonOrchestration.get "project") "orchestration.project"
  let service ← stringValue (commonOrchestration.get "service") "orchestration.service"
  let task ← stringValue (commonOrchestration.get "task") "orchestration.task"
  let priority ← stringValue (commonOrchestration.get "priority") "orchestration.priority"
  pure { tenant, project, service, task, jobId, idempotencyKey, priority, model, endpoint
         estimatedInputTokens := tokens.estimatedInputTokens
         maxOutputTokens := tokens.maxOutputTokens
         requiredContextTokens := tokens.requiredContextTokens
         payload, orchestration, artifacts, labels }

/-- The loop over the raw tasks, from the index of the first. -/
def parseTasks (commonOrchestration : Mapping) (commonModel commonEndpoint : NonBlank)
    (commonPayloadTemplate : Option Mapping) (commonTemplateVars : Mapping) (index : ℕ) :
    List Json → Except Exn (List QueueTask)
  | [] => .ok []
  | rawTask :: rest =>
    match rawTask with
    | .obj m => do
      let task ← parseQueueTask m commonOrchestration commonModel commonEndpoint
        commonPayloadTemplate commonTemplateVars index
      let others ← parseTasks commonOrchestration commonModel commonEndpoint
        commonPayloadTemplate commonTemplateVars (index + 1) rest
      pure (task :: others)
    | _ => .error (.taskProtocolError ("tasks[" ++ toString index ++ "] must be a JSON object."))

def parseQueueObject (payload : Mapping) : Except Exn (List QueueTask) := do
  let commonOrchestration ← requireMapping (payload.get "orchestration") "orchestration"
  validateCommonOrchestration commonOrchestration
  let commonModel ← requiredString payload "model"
  let commonEndpoint ← stringValue
    ((payload.get "endpoint").or (.str "/v1/chat/completions")) "endpoint"
  let commonPayloadTemplate ← optionalMappingOrNone (payload.get "payload_template")
    "payload_template"
  let commonTemplateVars ← optionalMapping (payload.get "template_vars") "template_vars"
  match payload.get "tasks" with
  | .arr (rawTask :: rest) =>
    parseTasks commonOrchestration commonModel commonEndpoint commonPayloadTemplate
      commonTemplateVars 0 (rawTask :: rest)
  | _ => .error (.taskProtocolError "Task queue request requires a non-empty tasks array.")

def parseTaskQueuePayload (payload : Json) : Except Exn (List QueueTask) :=
  match payload with
  | .obj m => parseQueueObject m
  | _ => .error (.taskProtocolError "Task queue request body must be a JSON object.")

end Orchestrator.TaskParse
