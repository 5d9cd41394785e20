import Orchestrator.Policy
import Orchestrator.TaskParse

/-!
The token policy of a generation request, and the preparation that applies it: the input is
estimated, and one output limit of the payload is defaulted and capped.

The payload may hold up to three output limits; the code looks at the first of them only. So the
forwarded payload keeps to the policy exactly if the others happen to, and if the one it looks at
is an integer that needs no cap, is capped, or is missing.
-/

namespace Orchestrator.TokenPolicy

open TaskParse

/-! ### Exceptions -/

def policyError (message errorType : String) : Exn :=
  ⟨.policy 400 errorType, "PolicyError", message⟩

def tokenBudgetExceeded (message : String) : Exn :=
  ⟨.policy 413 "token_budget_exceeded", "TokenBudgetExceeded", message⟩

/-! ### Tokens -/

def estimateInputTokens (payload : Mapping) (policy : ModelPolicy) : Except Exn ℤ :=
  let text := collectInputText (.obj payload)
  if text = "" then .ok 0
  else if policy.tokenEstimateCharsPerToken = 0 then
    .error ⟨.other, "ZeroDivisionError", "float division by zero"⟩
  else
    match Lib.Binary64.quotient text.length policy.tokenEstimateCharsPerToken with
    | some x => .ok (max 1 (Lib.Binary64.roundEven x))
    | none => .error (.overflowError "cannot convert float infinity to integer")

def outputTokenKey (payload : Mapping) : String :=
  if payload.has "max_completion_tokens" then "max_completion_tokens"
  else if payload.has "max_output_tokens" then "max_output_tokens"
  else "max_tokens"

/-- The output limit under way: its value, the payload that holds it, and whether it was capped. -/
structure Output where
  requested : ℤ
  payload : Mapping
  capped : Bool

def requestedOutput (payload : Mapping) (key : String) (policy : ModelPolicy) : Except Exn Output :=
  match payload.get key with
  | .null => .ok ⟨policy.defaultMaxOutputTokens,
      payload.set key (.int policy.defaultMaxOutputTokens), false⟩
  | value => value.toInt.map fun n => ⟨n, payload, false⟩

def capOutput (key : String) (limit : ℤ) (o : Output) : Output :=
  if limit < o.requested then ⟨limit, o.payload.set key (.int limit), true⟩ else o

def applyTokenPolicy (payload : Mapping) (policy : ModelPolicy) : Except Exn Mapping := do
  let inputTokens ← estimateInputTokens payload policy
  let key := outputTokenKey payload
  if policy.maxInputTokens < inputTokens then
    .error (tokenBudgetExceeded ("Estimated input tokens " ++ toString inputTokens ++
      " exceed max_input_tokens " ++ toString policy.maxInputTokens ++ " for model " ++
      policy.publicName ++ "."))
  else do
    let o ← requestedOutput payload key policy
    if policy.maxOutputTokens < o.requested && policy.outputOverLimitBehavior = "reject" then
      .error (tokenBudgetExceeded ("Requested output tokens " ++ toString o.requested ++
        " exceed max_output_tokens " ++ toString policy.maxOutputTokens ++ " for model " ++
        policy.publicName ++ "."))
    else
      let o := capOutput key policy.maxOutputTokens o
      let remaining := policy.maxTotalTokens - inputTokens
      if remaining < 1 then
        .error (tokenBudgetExceeded ("Estimated input tokens " ++ toString inputTokens ++
          " leave no room within max_total_tokens " ++ toString policy.maxTotalTokens ++
          " for model " ++ policy.publicName ++ "."))
      else
        let o := capOutput key remaining o
        pure (o.payload.set "_orchestrator" (.obj
          [("estimated_input_tokens", .int inputTokens),
           ("effective_output_tokens", .int o.requested),
           ("output_tokens_capped", .bool o.capped)]))

/-! ### The contract of the orchestration hints -/

/-- `repr(x)` of a value in a message; unprintable characters are copied, which `repr` escapes. -/
def reprText : Json → String
  | .str s =>
    let mark := if s.contains '\'' && !s.contains '"' then '"' else '\''
    String.ofList (mark :: s.toList.flatMap (fun c =>
      if c = '\\' || c = mark then ['\\', c]
      else if c = '\n' then ['\\', 'n']
      else if c = '\r' then ['\\', 'r']
      else if c = '\t' then ['\\', 't']
      else [c]) ++ [mark])
  | x => x.toStr

def nonEmptyString : Json → Bool
  | .str s => PyText.strip s ≠ ""
  | _ => false

/-- The handlers of `parse_positive_int` and `parse_non_negative_number`. -/
def orNone {α : Type} (r : Except Exn α) : Except Exn (Option α) :=
  match r with
  | .ok a => .ok (some a)
  | .error e => if e.name = "TypeError" ∨ e.name = "ValueError" then .ok none else .error e

def parsePositiveInt : Json → Except Exn (Option ℤ)
  | .bool _ => .ok none
  | value => (orNone value.toInt).map fun n => n.filter (0 < ·)

def isNonNegative : FloatValue → Bool
  | .nan => false
  | .inf neg => !neg
  | .fin q => 0 ≤ q

def parseNonNegativeNumber : Json → Except Exn (Option FloatValue)
  | .bool _ => .ok none
  | value => (orNone value.toFloat).map fun x => x.filter isNonNegative

def validGpuHint : Json → Bool
  | .str s => PyText.strip s ≠ ""
  | .arr items => items.all nonEmptyString
  | _ => false

/-- A check of some fields of an object, where null passes. -/
def checkFields (parent message : String) (valid : Json → Except Exn Bool) (m : Mapping) :
    List String → Except Exn Unit
  | [] => .ok ()
  | field :: rest => do
    let value := m.get field
    let ok ← if value.isNull then .ok true else valid value
    if ok then checkFields parent message valid m rest
    else .error (policyError (parent ++ field ++ message) "invalid_task_protocol")

def requiredFields : List String := ["tenant", "project", "service", "task", "job_id", "priority"]

def positiveIntFields : List String :=
  ["max_parallel", "max_active_requests", "max_queued_requests", "startup_timeout_seconds",
    "idle_ttl_seconds", "ttl_seconds", "lms_context_length", "lms_parallel", "lms_ttl_seconds"]

def nonNegativeNumberFields : List String :=
  ["estimated_vram_gb", "safety_margin_gb", "queue_timeout_seconds"]

def tokenFields : List String :=
  ["default_max_output_tokens", "max_input_tokens", "max_output_tokens", "max_total_tokens"]

def isObject : Json → Bool
  | .obj _ => true
  | _ => false

def requireFields (orchestration : Mapping) : List String → Except Exn Unit
  | [] => .ok ()
  | field :: rest =>
    if nonEmptyString (orchestration.get field) then requireFields orchestration rest
    else .error (policyError
      ("orchestration." ++ field ++ " is required for llmo.task.v1.") "invalid_task_protocol")

/-- The checks of an envelope that names the schema. -/
def validateEnvelope (orchestration : Mapping) : Except Exn Unit := do
  requireFields orchestration requiredFields
  if (orchestration.get "priority").toStr ∉ TaskParse.priorities then
    .error (policyError
      "orchestration.priority must be one of ['batch', 'foreground', 'interactive', 'maintenance']."
      "invalid_task_protocol")
  else do
    checkFields "orchestration." " must be an object." (fun value => .ok (isObject value))
      orchestration ["tokens", "artifacts", "labels"]
    checkFields "orchestration." " must be a positive integer."
      (fun value => (parsePositiveInt value).map Option.isSome) orchestration positiveIntFields
    checkFields "orchestration." " must be a non-negative number."
      (fun value => (parseNonNegativeNumber value).map Option.isSome) orchestration
      nonNegativeNumberFields
    match orchestration.get "tokens" with
    | .obj tokens =>
      checkFields "orchestration.tokens." " must be a positive integer."
        (fun value => (parsePositiveInt value).map Option.isSome) tokens tokenFields
    | _ => .ok ()
    let gpu := orchestration.get "gpu"
    if !gpu.isNull && !validGpuHint gpu then
      .error (policyError "orchestration.gpu must be a string or an array of strings."
        "invalid_task_protocol")
    else .ok ()

def validateOrchestrationContract : Json → Except Exn Unit
  | .obj orchestration =>
    match Mapping.get orchestration "schema_version" with
    | .null => .ok ()
    | .str version =>
      if version = schemaVersion then validateEnvelope orchestration
      else .error (policyError ("Unsupported orchestration.schema_version: " ++
        reprText (.str version) ++ ".") "invalid_task_protocol")
    | version => .error (policyError ("Unsupported orchestration.schema_version: " ++
        reprText version ++ ".") "invalid_task_protocol")
  | _ => .ok ()

/-! ### The preparation of a request -/

/-- `extract_model` of a JSON object; without a model the registry gives its default policy. -/
def extractModel (payload : Mapping) : String :=
  match payload.get "model" with
  | .null => ""
  | model => model.toStr

def isLlmGenerationEndpoint (path : String) : Bool :=
  let normalized := String.ofList ((path.toList.dropWhile (· = '/')).rdropWhile (· = '/'))
  normalized ∈ ["chat/completions", "responses", "completions", "embeddings"]

/-- `part in text` -/
def containsText (part text : String) : Bool :=
  text.toList.tails.any fun l => part.toList.isPrefixOf l

/-- What `json.loads(body.decode("utf-8"))` yields, with the exception of the handler. -/
def decodedBody (body : Except Exn Json) : Except Exn Json :=
  match body with
  | .ok x => .ok x
  | .error e =>
    if e.kind = .jsonDecode then
      .error (policyError ("Invalid JSON request body: " ++ e.message) "invalid_json")
    else .error e

/-- `RequestPreparationService.prepare`: the payload to forward, its metadata and the policy, for a
request that the policy applies to. -/
def prepare (registry : PolicyRegistry) (path method contentType : String)
    (body : Except Exn Json) : Except Exn (Option (Mapping × Mapping × ModelPolicy)) :=
  if method.toUpper ≠ "POST" then .ok none
  else if !containsText "application/json" contentType then .ok none
  else if !isLlmGenerationEndpoint path then .ok none
  else do
    let rawPayload ← decodedBody body
    match rawPayload with
    | .obj raw => do
      let orchestration := Mapping.get raw "orchestration"
      validateOrchestrationContract orchestration
      let policy ← applyOrchestrationOverrides (registry.resolve (extractModel raw)) orchestration
      let payload ← applyTokenPolicy raw policy
      let metadata : Mapping := match (payload.get "_orchestrator").or (.obj []) with
        | .obj m => m
        | _ => []
      pure (some (payload, metadata, policy))
    | _ => .error (policyError "JSON request body must be an object." "invalid_json")

/-! ### The output limits of the forwarded payload -/

def outputLimitFields : List String := ["max_completion_tokens", "max_output_tokens", "max_tokens"]

/-- An output limit that keeps to a policy, for an input of an estimated size. -/
def Respects (policy : ModelPolicy) (inputTokens : ℤ) (value : Json) : Prop :=
  ∃ n, value = .int n ∧ 1 ≤ n ∧ n ≤ policy.maxOutputTokens ∧
    inputTokens + n ≤ policy.maxTotalTokens

/-- The cap of the output: what the policy allows beside the input. -/
def outputCap (policy : ModelPolicy) (inputTokens : ℤ) : ℤ :=
  min policy.maxOutputTokens (policy.maxTotalTokens - inputTokens)

variable {payload : Mapping} {policy : ModelPolicy} {key : String} {o : Output}

lemma outputTokenKey_mem (payload : Mapping) : outputTokenKey payload ∈ outputLimitFields := by
  unfold outputTokenKey
  split
  · simp [outputLimitFields]
  split
  · simp [outputLimitFields]
  · simp [outputLimitFields]

lemma get_eq_null (h : payload.lookup key = none) : payload.get key = .null := by
  rw [Mapping.get, h]
  rfl

lemma get_eq {value : Json} (h : payload.lookup key = some value) : payload.get key = value := by
  rw [Mapping.get, h]
  rfl

lemma capOutput_requested (limit : ℤ) :
    (capOutput key limit o).requested = min o.requested limit := by
  unfold capOutput
  split
  · next h => exact (min_eq_right h.le).symm
  · next h => exact (min_eq_left (not_lt.mp h)).symm

lemma capOutput_lookup (limit : ℤ) (other : String) :
    (capOutput key limit o).payload.lookup other =
      if other = key ∧ limit < o.requested then some (.int limit) else o.payload.lookup other := by
  unfold capOutput
  by_cases h : limit < o.requested
  · rw [if_pos h, Mapping.lookup_set]
    simp only [h, and_true]
  · rw [if_neg h]
    simp only [h, and_false, if_false]

/-- Both caps together. -/
lemma capOutput_twice (first second : ℤ) (other : String) :
    (capOutput key second (capOutput key first o)).payload.lookup other =
      if other = key ∧ min first second < o.requested then some (.int (min first second))
      else o.payload.lookup other := by
  rw [capOutput_lookup, capOutput_lookup, capOutput_requested]
  by_cases hkey : other = key
  · subst hkey
    simp only [true_and]
    by_cases h1 : first < o.requested
    · by_cases h2 : second < first
      · have hmin : min first second = second := min_eq_right h2.le
        rw [min_eq_right h1.le, if_pos h2, hmin, if_pos (h2.trans h1)]
      · have hmin : min first second = first := min_eq_left (not_lt.mp h2)
        rw [min_eq_right h1.le, if_neg h2, if_pos h1, hmin, if_pos h1]
    · rw [min_eq_left (not_lt.mp h1)]
      by_cases h2 : second < o.requested
      · have hmin : min first second = second := min_eq_right (h2.le.trans (not_lt.mp h1))
        rw [if_pos h2, hmin, if_pos h2]
      · rw [if_neg h2, if_neg h1, if_neg (not_lt.mpr (le_min (not_lt.mp h1) (not_lt.mp h2)))]
  · rw [if_neg fun h => hkey h.1, if_neg fun h => hkey h.1, if_neg fun h => hkey h.1]

lemma lookup_stripInternalFields {other : String} (h : other ≠ "_orchestrator")
    (h' : other ≠ "orchestration") :
    (stripInternalFields payload).lookup other = payload.lookup other :=
  @Mapping.lookup_filter payload other (fun k => k ≠ "_orchestrator" && k ≠ "orchestration")
    (by simp [h, h'])

/-- What the token policy accepts, and the payload it makes of it. -/
lemma applyTokenPolicy_ok {updated : Mapping} (h : applyTokenPolicy payload policy = .ok updated) :
    ∃ inputTokens o, estimateInputTokens payload policy = .ok inputTokens ∧
      inputTokens ≤ policy.maxInputTokens ∧ 1 ≤ policy.maxTotalTokens - inputTokens ∧
      requestedOutput payload (outputTokenKey payload) policy = .ok o ∧
      ¬(policy.maxOutputTokens < o.requested ∧ policy.outputOverLimitBehavior = "reject") ∧
      ∀ other, other ≠ "_orchestrator" → updated.lookup other =
        if other = outputTokenKey payload ∧ outputCap policy inputTokens < o.requested then
          some (.int (outputCap policy inputTokens))
        else o.payload.lookup other := by
  rw [applyTokenPolicy, bind_eq_ok] at h
  obtain ⟨inputTokens, hinput, h⟩ := h
  dsimp only at h
  split at h
  · cases h
  next hmax =>
  rw [bind_eq_ok] at h
  obtain ⟨o, ho, h⟩ := h
  split at h
  · cases h
  next hreject =>
  split at h
  · cases h
  next hroom =>
  cases h
  refine ⟨inputTokens, o, hinput, not_lt.mp hmax, not_lt.mp hroom, ho, ?_, fun other hother => ?_⟩
  · simpa using hreject
  · rw [Mapping.lookup_set, if_neg hother, capOutput_twice, outputCap]

/-- The output limit of the payload that the code looks at, before the caps. -/
lemma requestedOutput_ok (h : requestedOutput payload key policy = .ok o) :
    (payload.get key = .null ∧ o.requested = policy.defaultMaxOutputTokens ∧
      ∀ other, o.payload.lookup other =
        if other = key then some (.int policy.defaultMaxOutputTokens) else payload.lookup other) ∨
    (payload.get key ≠ .null ∧ (payload.get key).toInt = .ok o.requested ∧
    o.payload = payload) := by
  rw [requestedOutput] at h
  split at h
  · next hnull =>
    cases h
    exact Or.inl ⟨hnull, rfl, fun other => Mapping.lookup_set payload key other _⟩
  · next hvalue =>
    cases hn : (payload.get key).toInt with
    | error e =>
      rw [hn] at h
      cases h
    | ok n =>
      rw [hn] at h
      cases h
      exact Or.inr ⟨fun hnull => hvalue hnull, rfl, rfl⟩

/-- Only JSON objects are prepared, under the server's policy lowered by their hints. -/
lemma prepare_some {registry : PolicyRegistry} {path method contentType : String}
    {body : Except Exn Json} {metadata : Mapping}
    (h : prepare registry path method contentType body = .ok (some (payload, metadata, policy))) :
    ∃ raw, body = .ok (.obj raw) ∧
      applyOrchestrationOverrides (registry.resolve (extractModel raw))
          (Mapping.get raw "orchestration") =
        .ok policy ∧
      applyTokenPolicy raw policy = .ok payload := by
  unfold prepare at h
  split at h
  · cases h
  split at h
  · cases h
  split at h
  · cases h
  rw [bind_eq_ok] at h
  obtain ⟨rawPayload, hbody, h⟩ := h
  have hbody : body = .ok rawPayload := by
    cases body with
    | ok x => exact hbody
    | error e =>
      rw [decodedBody] at hbody
      split at hbody <;> cases hbody
  cases rawPayload with
  | obj raw =>
    simp only [bind_eq_ok] at h
    obtain ⟨-, -, lowered, hlowered, updated, hupdated, h⟩ := h
    cases h
    exact ⟨raw, hbody, hlowered, hupdated⟩
  | _ => cases h

/-- The output limit that the code looks at ends up within the policy: it is missing, or above the
cap, or a positive integer. -/
def ChosenKept (policy : ModelPolicy) (inputTokens : ℤ) (value : Json) : Prop :=
  value = .null ∨ (∃ n, value.toInt = .ok n ∧ outputCap policy inputTokens < n) ∨
    ∃ n, value = .int n ∧ 1 ≤ n

/-- The output limits that the code does not look at are within the policy as they come. -/
def OthersKept (server : ModelPolicy) (inputTokens : ℤ) (raw : Mapping) : Prop :=
  ∀ key ∈ outputLimitFields, key ≠ outputTokenKey raw →
    ∀ value, raw.lookup key = some value → Respects server inputTokens value

lemma respects_of_le {server : ModelPolicy} {inputTokens n : ℤ} (hlow : server.Lowered policy)
    (h1 : 1 ≤ n) (h : n ≤ outputCap policy inputTokens) : Respects server inputTokens (.int n) := by
  have hout := hlow.maxOutputTokens
  have htotal := hlow.maxTotalTokens
  have hleft := h.trans (min_le_left _ _)
  have hright := h.trans (min_le_right _ _)
  exact ⟨n, rfl, h1, by omega, by omega⟩

lemma estimateInputTokens_congr {server : ModelPolicy} (hlow : server.Lowered policy) :
    estimateInputTokens payload policy = estimateInputTokens payload server := by
  rw [estimateInputTokens, estimateInputTokens, hlow.charsPerToken]

/-- The output limits that are forwarded of a payload that the token policy accepts. -/
lemma forwarded_limits_iff {server : ModelPolicy} {raw : Mapping} {inputTokens : ℤ}
    (hlow : server.Lowered policy) (hupdated : applyTokenPolicy raw policy = .ok payload)
    (hinput : estimateInputTokens raw server = .ok inputTokens)
    (hdefault : 1 ≤ server.defaultMaxOutputTokens) (hmax : 1 ≤ server.maxOutputTokens) :
    (∀ key ∈ outputLimitFields, ∀ value,
        (stripInternalFields payload).lookup key = some value →
          Respects server inputTokens value) ↔
      ChosenKept policy inputTokens (raw.get (outputTokenKey raw)) ∧
        OthersKept server inputTokens raw := by
  obtain ⟨inputTokens', o, hinput', -, hroom, ho, -, hlookup⟩ := applyTokenPolicy_ok hupdated
  rw [estimateInputTokens_congr hlow, hinput] at hinput'
  cases hinput'
  have hcap : 1 ≤ outputCap policy inputTokens := le_min (hlow.maxOutputTokens_pos hmax) hroom
  have hfields : ∀ key ∈ outputLimitFields, (stripInternalFields payload).lookup key =
      if key = outputTokenKey raw ∧ outputCap policy inputTokens < o.requested then
        some (.int (outputCap policy inputTokens))
      else o.payload.lookup key := by
    intro key hkey
    have hne : key ≠ "_orchestrator" ∧ key ≠ "orchestration" := by
      constructor <;> rintro rfl <;> simp [outputLimitFields] at hkey
    rw [lookup_stripInternalFields hne.1 hne.2, hlookup key hne.1]
  have hothers : ∀ key ∈ outputLimitFields, key ≠ outputTokenKey raw →
      (stripInternalFields payload).lookup key = raw.lookup key := by
    intro key hkey hne
    rw [hfields key hkey, if_neg fun hc => hne hc.1]
    rcases requestedOutput_ok ho with ⟨-, -, ho⟩ | ⟨-, -, ho⟩
    · rw [ho, if_neg hne]
    · rw [ho]
  have hchosen := hfields _ (outputTokenKey_mem raw)
  simp only [true_and] at hchosen
  constructor
  · intro hall
    refine ⟨?_, fun key hkey hne value hvalue => hall key hkey value ?_⟩
    · rcases requestedOutput_ok ho with ⟨hnull, -, -⟩ | ⟨hnonnull, hint, hsame⟩
      · exact Or.inl hnull
      · by_cases hover : outputCap policy inputTokens < o.requested
        · exact Or.inr (Or.inl ⟨_, hint, hover⟩)
        · rw [if_neg hover, hsame] at hchosen
          cases hvalue : raw.lookup (outputTokenKey raw) with
          | none => exact absurd (get_eq_null hvalue) hnonnull
          | some value =>
            rw [hvalue] at hchosen
            obtain ⟨n, hn, h1, -, -⟩ := hall _ (outputTokenKey_mem raw) value hchosen
            exact Or.inr (Or.inr ⟨n, (get_eq hvalue).trans hn, h1⟩)
    · rw [hothers key hkey hne]
      exact hvalue
  · rintro ⟨hkept, hrest⟩ key hkey value hvalue
    by_cases hne : key = outputTokenKey raw
    · subst hne
      rw [hchosen] at hvalue
      by_cases hover : outputCap policy inputTokens < o.requested
      · rw [if_pos hover] at hvalue
        cases hvalue
        exact respects_of_le hlow hcap (le_refl _)
      · rw [if_neg hover] at hvalue
        have hle := not_lt.mp hover
        rcases requestedOutput_ok ho with ⟨-, hreq, ho⟩ | ⟨hnonnull, hint, hsame⟩
        · rw [ho, if_pos rfl] at hvalue
          cases hvalue
          rw [hreq] at hle
          exact respects_of_le hlow (hlow.defaultMaxOutputTokens_pos hdefault) hle
        · rw [hsame] at hvalue
          rw [get_eq hvalue] at hkept hint
          rcases hkept with rfl | ⟨n, hn, hgt⟩ | ⟨n, rfl, h1⟩
          · exact absurd (get_eq hvalue) hnonnull
          · rw [hint] at hn
            cases hn
            exact absurd hgt hover
          · cases hint
            exact respects_of_le hlow h1 hle
    · rw [hothers key hkey hne] at hvalue
      exact hrest key hkey hne value hvalue

/-- **The forwarded output limits.** For every request body that is prepared, whatever its hints:
every output limit of the forwarded payload is a positive integer within the server's policy,
exactly if the one limit that the code looks at is missing, above the cap or a positive integer,
and the other limits happen to be within the policy. -/
theorem output_limits_iff {registry : PolicyRegistry} {path method contentType : String}
    {body : Except Exn Json} {metadata : Mapping}
    (h : prepare registry path method contentType body = .ok (some (payload, metadata, policy))) :
    ∃ raw inputTokens lowered, body = .ok (.obj raw) ∧
      estimateInputTokens raw (registry.resolve (extractModel raw)) = .ok inputTokens ∧
      applyOrchestrationOverrides (registry.resolve (extractModel raw))
        (Mapping.get raw "orchestration") = .ok lowered ∧
      (1 ≤ (registry.resolve (extractModel raw)).defaultMaxOutputTokens →
        1 ≤ (registry.resolve (extractModel raw)).maxOutputTokens →
        ((∀ key ∈ outputLimitFields, ∀ value,
            (stripInternalFields payload).lookup key = some value →
              Respects (registry.resolve (extractModel raw)) inputTokens value) ↔
          ChosenKept lowered inputTokens (Mapping.get raw (outputTokenKey raw)) ∧
            OthersKept (registry.resolve (extractModel raw)) inputTokens raw)) := by
  obtain ⟨raw, hbody, hlowered, hupdated⟩ := prepare_some h
  have hlow := applyOrchestrationOverrides_lowers hlowered
  obtain ⟨inputTokens, -, hinput, -⟩ := applyTokenPolicy_ok hupdated
  rw [estimateInputTokens_congr hlow] at hinput
  exact ⟨raw, inputTokens, policy, hbody, hinput, hlowered, fun hdefault hmax =>
    forwarded_limits_iff hlow hupdated hinput hdefault hmax⟩

/-! ### Samples -/

def sampleRegistry : PolicyRegistry where
  policies := []
  defaultPolicy := ⟨"local-main", "local-main", ["main"], 1, 2, 1, 64, 100, 128, 180, 4, "clamp"⟩
  dynamicModelsEnabled := false

/-- A chat request with output limits. -/
def sampleRequest (limits : Mapping) : Mapping :=
  ("messages", .arr [.obj [("role", .str "user"), ("content", .str "hello")]]) :: limits

def samplePrepared (limits : Mapping) : Except Exn (Option (Mapping × Mapping × ModelPolicy)) :=
  prepare sampleRegistry "chat/completions" "POST" "application/json"
    (.ok (.obj (sampleRequest limits)))

/-- An output limit is forwarded. -/
def forwardsLimit (limits : Mapping) (key : String) (n : ℤ) : Bool :=
  match samplePrepared limits with
  | .ok (some (payload, _, _)) =>
    match (stripInternalFields payload).lookup key with
    | some (.int m) => m = n
    | _ => false
  | _ => false

lemma forwardsLimit_spec {limits : Mapping} {key : String} {n : ℤ}
    (h : forwardsLimit limits key n = true) :
    ∃ payload metadata policy, samplePrepared limits = .ok (some (payload, metadata, policy)) ∧
      (stripInternalFields payload).lookup key = some (.int n) := by
  unfold forwardsLimit at h
  split at h
  · next payload metadata policy hprepared =>
    split at h
    · next m hvalue =>
      rw [decide_eq_true_eq] at h
      subst h
      exact ⟨payload, metadata, policy, hprepared, hvalue⟩
    · cases h
  · cases h

/-- A limit above the cap is clamped. -/
theorem output_limits_sample : ∃ payload metadata policy,
    samplePrepared [("max_tokens", .int 999)] = .ok (some (payload, metadata, policy)) ∧
      (stripInternalFields payload).lookup "max_tokens" = some (.int 128) ∧
      ∀ key ∈ outputLimitFields, ∀ value,
        (stripInternalFields payload).lookup key = some value →
          Respects sampleRegistry.defaultPolicy 1 value := by
  have hforwards : forwardsLimit [("max_tokens", .int 999)] "max_tokens" 128 = true := by
    decide +kernel
  obtain ⟨payload, metadata, policy, hprepared, hvalue⟩ := forwardsLimit_spec hforwards
  refine ⟨payload, metadata, policy, hprepared, hvalue, ?_⟩
  obtain ⟨raw, inputTokens, lowered, hbody, hinput, hlowered, hiff⟩ := output_limits_iff hprepared
  cases hbody
  have hone : estimateInputTokens (sampleRequest [("max_tokens", .int 999)])
      sampleRegistry.defaultPolicy = .ok 1 := by decide +kernel
  have hserver : sampleRegistry.resolve (extractModel (sampleRequest [("max_tokens", .int 999)])) =
      sampleRegistry.defaultPolicy := rfl
  rw [hserver] at hinput hlowered hiff
  cases hinput.symm.trans hone
  cases hlowered
  refine (hiff (by decide) (by decide)).2 ⟨?_, ?_⟩
  · exact Or.inr (Or.inl ⟨999, rfl, by decide⟩)
  · intro key hkey hne value hvalue
    simp only [outputLimitFields, List.mem_cons, List.not_mem_nil, or_false] at hkey
    rcases hkey with rfl | rfl | rfl
    · cases hvalue
    · cases hvalue
    · exact absurd rfl hne

/-- Two limits at once: the code looks at `max_completion_tokens`, and `max_tokens` is forwarded as
it comes. -/
theorem output_limit_unchecked : ∃ payload metadata policy,
    samplePrepared [("max_completion_tokens", .int 1), ("max_tokens", .int 999999)] =
        .ok (some (payload, metadata, policy)) ∧
      ∃ value, (stripInternalFields payload).lookup "max_tokens" = some value ∧
        ∀ inputTokens, ¬Respects sampleRegistry.defaultPolicy inputTokens value := by
  have hforwards : forwardsLimit [("max_completion_tokens", .int 1), ("max_tokens", .int 999999)]
      "max_tokens" 999999 = true := by decide +kernel
  obtain ⟨payload, metadata, policy, hprepared, hvalue⟩ := forwardsLimit_spec hforwards
  refine ⟨payload, metadata, policy, hprepared, _, hvalue, ?_⟩
  rintro inputTokens ⟨n, hn, -, hle, -⟩
  cases hn
  exact absurd hle (by decide)

end Orchestrator.TokenPolicy
