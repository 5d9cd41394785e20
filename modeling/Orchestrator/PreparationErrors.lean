import Orchestrator.AdmissionContract
import Orchestrator.SubmissionErrors

/-!
What the preparation of a synchronous request raises. A body that is no UTF-8, a number that
`int` or `float` does not take, and a size that no float holds raise exceptions that nothing
catches; everything else that can go wrong is a `PolicyError`.
-/

namespace Orchestrator.PreparationErrors

open FieldChecks TokenPolicy AdmissionContract
open SubmissionErrors (isInfinite)
open Lib.Binary64 (nearest quotient quotient_eq_none_iff)

/-- The statuses and types that a refused request is answered with. -/
def refusals : List (ℕ × String) :=
  [(400, "invalid_json"), (400, "invalid_task_protocol"), (413, "token_budget_exceeded")]

/-- A `PolicyError`, with one of the stable types. -/
def Refused (e : Exn) : Prop := ∃ p ∈ refusals, e.kind = .policy p.1 p.2

def Escapes (e : Exn) : Prop := ¬Refused e

/-- `json.loads(body.decode("utf-8"))` -/
def readBody (loads : String → Except Exn Json) (body : ByteArray) : Except Exn Json :=
  match String.fromUTF8? body with
  | some text => loads text
  | none => .error ⟨.other, "UnicodeDecodeError", "'utf-8' codec can't decode bytes"⟩

@[simp] lemma escapes_invalidJson (message : String) :
    ¬Escapes (policyError message "invalid_json") :=
  not_not.mpr ⟨(400, "invalid_json"), by decide, rfl⟩

@[simp] lemma escapes_invalidTaskProtocol (message : String) :
    ¬Escapes (policyError message "invalid_task_protocol") :=
  not_not.mpr ⟨(400, "invalid_task_protocol"), by decide, rfl⟩

@[simp] lemma escapes_tokenBudgetExceeded (message : String) :
    ¬Escapes (tokenBudgetExceeded message) :=
  not_not.mpr ⟨(413, "token_budget_exceeded"), by decide, rfl⟩

/-! ### The contract -/

variable {value : Json}

/-- An integer that no float holds. -/
def isHuge : Json → Prop
  | .int n => Json.floatBound ≤ |n|
  | _ => False

lemma raises_orNone {α : Type} {x : Except Exn α} :
    Raises Escapes (orNone x) ↔
      Raises (fun e => ¬(e.name = "TypeError" ∨ e.name = "ValueError") ∧ Escapes e) x := by
  cases x with
  | ok a => exact iff_of_false raises_ok raises_ok
  | error e =>
    rw [orNone, raises_error]
    split
    · next h => exact iff_of_false raises_ok fun hn => hn.1 h
    · next h => exact raises_error.trans (and_iff_right h).symm

lemma raises_positive : Raises Escapes (positive value) ↔ isInfinite value := by
  rw [positive, raises_map]
  cases value with
  | bool b => exact iff_of_false raises_ok id
  | float x =>
    obtain ⟨text, x⟩ := x
    rw [parsePositiveInt, raises_map, raises_orNone]
    · cases x with
      | inf neg =>
        refine iff_of_true ⟨_, rfl, by decide, ?_⟩ trivial
        rintro ⟨_, _, h⟩
        cases h
      | nan => simp [Json.toInt, isInfinite, Exn.valueError]
      | fin q => simp [Json.toInt, isInfinite]
    · exact fun b hb => by cases hb
  | str s =>
    rw [parsePositiveInt, raises_map, raises_orNone, Json.toInt]
    · cases PyText.parseInt s <;> simp [isInfinite, Exn.valueError]
    · exact fun b hb => by cases hb
  | null =>
    simp [parsePositiveInt, raises_map, raises_orNone, Json.toInt, isInfinite, Exn.typeError]
  | int n => simp [parsePositiveInt, raises_map, raises_orNone, Json.toInt, isInfinite]
  | arr l =>
    simp [parsePositiveInt, raises_map, raises_orNone, Json.toInt, isInfinite, Exn.typeError]
  | obj m =>
    simp [parsePositiveInt, raises_map, raises_orNone, Json.toInt, isInfinite, Exn.typeError]

lemma raises_nonNegative : Raises Escapes (nonNegative value) ↔ isHuge value := by
  rw [nonNegative, raises_map]
  cases value with
  | bool b => exact iff_of_false raises_ok id
  | int n =>
    rw [parseNonNegativeNumber, raises_map, raises_orNone, Json.toFloat, isHuge]
    · split
      · next h => exact iff_of_false raises_ok (not_le.mpr h)
      · next h =>
        refine iff_of_true ⟨_, rfl, by decide, ?_⟩ (not_lt.mp h)
        rintro ⟨_, _, h⟩
        cases h
    · exact fun b hb => by cases hb
  | str s =>
    rw [parseNonNegativeNumber, raises_map, raises_orNone, Json.toFloat]
    · cases Json.parseFloat s <;> simp [isHuge, Exn.valueError]
    · exact fun b hb => by cases hb
  | null =>
    simp [parseNonNegativeNumber, raises_map, raises_orNone, Json.toFloat, isHuge, Exn.typeError]
  | float x => simp [parseNonNegativeNumber, raises_map, raises_orNone, Json.toFloat, isHuge]
  | arr l =>
    simp [parseNonNegativeNumber, raises_map, raises_orNone, Json.toFloat, isHuge, Exn.typeError]
  | obj m =>
    simp [parseNonNegativeNumber, raises_map, raises_orNone, Json.toFloat, isHuge, Exn.typeError]

lemma raises_checkFields {parent message : String} {valid : Json → Except Exn Bool} {m : Mapping}
    {fields : List String} {fails : Json → Prop} (hnull : ¬fails .null)
    (hfails : ∀ value, Raises Escapes (valid value) ↔ fails value) :
    Raises Escapes (checkFields parent message valid m fields) ↔
      FirstFails (fun field => Passes valid (m.get field))
        (fun field => fails (m.get field)) fields := by
  induction fields with
  | nil => exact iff_of_false raises_ok id
  | cons field fields ih =>
    rw [checkFields, FirstFails, ← ih]
    dsimp only
    rw [Passes]
    cases hvalue : (m.get field).isNull with
    | true =>
      rw [eq_null_of_isNull hvalue]
      simp [bind, Except.bind, hnull]
    | false =>
      have hne : m.get field ≠ .null := fun h => by
        rw [h] at hvalue
        cases hvalue
      rw [if_neg Bool.false_ne_true, raises_bind, hfails]
      simp only [hne, false_or]
      refine or_congr_right ?_
      constructor
      · rintro ⟨ok, hok, h⟩
        cases ok with
        | true => exact ⟨hok, h⟩
        | false => exact absurd h (by simp)
      · rintro ⟨hok, h⟩
        exact ⟨true, hok, h⟩

lemma raises_requireFields {m : Mapping} {fields : List String} :
    ¬Raises Escapes (requireFields m fields) := by
  induction fields with
  | nil => exact raises_ok
  | cons field fields ih =>
    rw [requireFields]
    split
    · exact ih
    · simp

/-- What is checked of an envelope that names the schema, before its numbers. -/
structure NamesInOrder (o : Mapping) : Prop where
  version : o.get "schema_version" = .str TaskParse.schemaVersion
  required : ∀ field ∈ requiredFields, nonEmptyString (o.get field) = true
  priority : (o.get "priority").toStr ∈ TaskParse.priorities
  objects : ∀ field ∈ ["tokens", "artifacts", "labels"],
    Passes (fun value => .ok (isObject value)) (o.get field)

/-- The first number of an envelope that is not accepted is infinite, or an integer no float holds
where a float is made of it. -/
def NumbersOverflow (o : Mapping) : Prop :=
  FirstFails (fun field => Passes positive (o.get field)) (fun field => isInfinite (o.get field))
      positiveIntFields ∨
  (∀ field ∈ positiveIntFields, Passes positive (o.get field)) ∧
    (FirstFails (fun field => Passes nonNegative (o.get field)) (fun field => isHuge (o.get field))
        nonNegativeNumberFields ∨
      (∀ field ∈ nonNegativeNumberFields, Passes nonNegative (o.get field)) ∧
        FirstFails (fun field => Passes positive ((tokensOf o).get field))
          (fun field => isInfinite ((tokensOf o).get field)) tokenFields)

lemma raises_andThen {β : Type} {x : Except Exn Unit} {f : Unit → Except Exn β} :
    Raises Escapes (x >>= f) ↔ Raises Escapes x ∨ x = .ok () ∧ Raises Escapes (f ()) := by
  rw [raises_bind]
  exact or_congr_right ⟨fun ⟨(), h⟩ => h, fun h => ⟨(), h⟩⟩

lemma raises_positiveFields {parent : String} {m : Mapping} {fields : List String} :
    Raises Escapes (checkFields parent " must be a positive integer."
        (fun value => (parsePositiveInt value).map Option.isSome) m fields) ↔
      FirstFails (fun field => Passes positive (m.get field))
        (fun field => isInfinite (m.get field))
        fields :=
  raises_checkFields id fun _ => raises_positive

lemma raises_nonNegativeFields {parent : String} {m : Mapping} {fields : List String} :
    Raises Escapes (checkFields parent " must be a non-negative number."
        (fun value => (parseNonNegativeNumber value).map Option.isSome) m fields) ↔
      FirstFails (fun field => Passes nonNegative (m.get field)) (fun field => isHuge (m.get field))
        fields :=
  raises_checkFields id fun _ => raises_nonNegative

lemma raises_checkTokens {o : Mapping} {f : Unit → Except Exn Unit} (hf : ¬Raises Escapes (f ())) :
    Raises Escapes (match o.get "tokens" with
      | .obj tokens => checkFields "orchestration.tokens." " must be a positive integer."
          (fun value => (parsePositiveInt value).map Option.isSome) tokens tokenFields >>= f
      | _ => .ok () >>= f) ↔
      FirstFails (fun field => Passes positive ((tokensOf o).get field))
        (fun field => isInfinite ((tokensOf o).get field)) tokenFields := by
  unfold tokensOf
  cases o.get "tokens" with
  | obj tokens =>
    rw [raises_andThen, raises_positiveFields]
    exact or_iff_left (not_and_of_not_right _ hf)
  | _ => exact iff_of_false hf fun h => h.exists_mem.elim fun _ h => h.2

lemma raises_validateEnvelope {o : Mapping} : Raises Escapes (validateEnvelope o) ↔
    (∀ field ∈ requiredFields, nonEmptyString (o.get field) = true) ∧
      (o.get "priority").toStr ∈ TaskParse.priorities ∧
      (∀ field ∈ ["tokens", "artifacts", "labels"],
        Passes (fun value => .ok (isObject value)) (o.get field)) ∧ NumbersOverflow o := by
  rw [validateEnvelope, raises_andThen, or_iff_right raises_requireFields, requireFields_ok_iff]
  refine and_congr_right' ?_
  by_cases hpriority : (o.get "priority").toStr ∈ TaskParse.priorities
  · have hobjects : ¬Raises Escapes (checkFields "orchestration." " must be an object."
        (fun value => .ok (isObject value)) o ["tokens", "artifacts", "labels"]) := by
      have hnever (value : Json) :
          Raises Escapes (.ok (isObject value) : Except Exn Bool) ↔ (fun _ => False) value :=
        iff_of_false raises_ok id
      rw [raises_checkFields id hnever]
      simp [FirstFails]
    have hgpu : ¬Raises Escapes (if !(o.get "gpu").isNull && !validGpuHint (o.get "gpu") then
        .error (policyError "orchestration.gpu must be a string or an array of strings."
          "invalid_task_protocol") else .ok () : Except Exn Unit) := by
      split <;> simp
    rw [if_neg (not_not.mpr hpriority), raises_andThen, or_iff_right hobjects, checkFields_ok_iff,
      and_iff_right hpriority, raises_andThen, raises_positiveFields, checkFields_ok_iff,
      raises_andThen, raises_nonNegativeFields, checkFields_ok_iff, NumbersOverflow]
    exact and_congr_right' (or_congr_right (and_congr_right' (or_congr_right (and_congr_right'
      (raises_checkTokens hgpu)))))
  · rw [if_pos hpriority]
    exact iff_of_false (by simp) fun h => hpriority h.1

/-- What the contract checks passes; then the policy is looked up. -/
def ContractInOrder : Json → Prop
  | .obj o => Mapping.get o "schema_version" = .null ∨
      Mapping.get o "schema_version" = .str TaskParse.schemaVersion ∧ EnvelopeInOrder o
  | _ => True

def ContractOverflows : Json → Prop
  | .obj o => NamesInOrder o ∧ NumbersOverflow o
  | _ => False

lemma contractInOrder_iff {orchestration : Json} :
    validateOrchestrationContract orchestration = .ok () ↔ ContractInOrder orchestration := by
  cases orchestration with
  | obj o =>
    by_cases hversion : Mapping.get o "schema_version" = .null
    · rw [validateOrchestrationContract, hversion, ContractInOrder]
      exact iff_of_true rfl (Or.inl hversion)
    · rw [validate_ok_iff hversion, ContractInOrder, or_iff_right hversion]
  | _ => exact iff_of_true rfl trivial

lemma raises_validateOrchestrationContract {orchestration : Json} :
    Raises Escapes (validateOrchestrationContract orchestration) ↔
      ContractOverflows orchestration := by
  cases orchestration with
  | obj o =>
    rw [validateOrchestrationContract, ContractOverflows]
    split
    · next hnull =>
      refine iff_of_false raises_ok fun h => ?_
      cases hnull.symm.trans h.1.version
    · next version hstr =>
      split
      · next hschema =>
        rw [raises_validateEnvelope]
        constructor
        · rintro ⟨hrequired, hpriority, hobjects, h⟩
          exact ⟨⟨hstr.trans (congrArg _ hschema), hrequired, hpriority, hobjects⟩, h⟩
        · rintro ⟨h, hoverflow⟩
          exact ⟨h.required, h.priority, h.objects, hoverflow⟩
      · next hschema =>
        refine iff_of_false (by simp) fun h => hschema ?_
        exact Json.str.inj (hstr.symm.trans h.1.version)
    · next hnull hstr =>
      exact iff_of_false (by simp) fun h => hstr _ h.1.version
  | _ => exact iff_of_false raises_ok id

/-! ### The hints -/

/-- What `bounded_int_override` takes. -/
def IntHint (value : Json) : Prop := value.isNoneOrEmpty = true ∨ ∃ n, value.toInt = .ok n

/-- What `bounded_float_override` takes. -/
def FloatHint (value : Json) : Prop := value.isNoneOrEmpty = true ∨ ∃ x, value.toFloat = .ok x

/-- The hints of an envelope that lower a limit of the policy by an integer. -/
def intHints (o : Mapping) : List Json :=
  o.getOr "max_parallel" (o.get "max_active_requests") :: o.get "max_queued_requests" ::
    tokenFields.map fun key => (tokensOf o).getOr key (o.get key)

def HintsInOrder : Json → Prop
  | .obj o => (∀ value ∈ intHints o, IntHint value) ∧
      FloatHint (Mapping.get o "queue_timeout_seconds")
  | _ => True

lemma toInt_escapes {e : Exn} (h : value.toInt = .error e) : Escapes e := by
  have hother : ∀ {e : Exn}, e.kind = .other → Escapes e := by
    rintro e he ⟨p, -, hp⟩
    cases he.symm.trans hp
  cases value with
  | float x =>
    obtain ⟨text, x⟩ := x
    cases x <;> cases h <;> exact hother rfl
  | str s =>
    rw [Json.toInt] at h
    split at h <;> cases h
    exact hother rfl
  | bool b => cases h
  | int n => cases h
  | _ =>
    cases h
    exact hother rfl

lemma toFloat_escapes {e : Exn} (h : value.toFloat = .error e) : Escapes e := by
  have hother : ∀ {e : Exn}, e.kind = .other → Escapes e := by
    rintro e he ⟨p, -, hp⟩
    cases he.symm.trans hp
  cases value with
  | str s =>
    rw [Json.toFloat] at h
    split at h <;> cases h
    exact hother rfl
  | int n =>
    rw [Json.toFloat] at h
    split at h <;> cases h
    exact hother rfl
  | float x => cases h
  | bool b => cases h
  | _ =>
    cases h
    exact hother rfl

lemma raises_boundedIntOverride {upperBound : ℤ} :
    Raises Escapes (boundedIntOverride value upperBound) ↔ ¬IntHint value := by
  unfold boundedIntOverride IntHint
  split
  · next h => exact iff_of_false raises_ok (not_not.mpr (Or.inl h))
  · next h =>
    rw [raises_map, or_iff_right h]
    cases hvalue : value.toInt with
    | ok n => exact iff_of_false raises_ok (not_not.mpr ⟨n, rfl⟩)
    | error e => exact iff_of_true ⟨e, rfl, toInt_escapes hvalue⟩ fun ⟨_, h⟩ => by cases h

lemma raises_boundedFloatOverride {upperBound : ℚ} :
    Raises Escapes (boundedFloatOverride value upperBound) ↔ ¬FloatHint value := by
  unfold boundedFloatOverride FloatHint
  split
  · next h => exact iff_of_false raises_ok (not_not.mpr (Or.inl h))
  · next h =>
    rw [raises_map, or_iff_right h]
    cases hvalue : value.toFloat with
    | ok n => exact iff_of_false raises_ok (not_not.mpr ⟨n, rfl⟩)
    | error e => exact iff_of_true ⟨e, rfl, toFloat_escapes hvalue⟩ fun ⟨_, h⟩ => by cases h

/-- A computation whose exceptions all escape, followed by one that does not depend on it. -/
lemma raises_bind_of_total {α β : Type} {x : Except Exn α} {f : α → Except Exn β} {P Q : Prop}
    (hx : Raises Escapes x ↔ ¬P) (hok : P → ∃ a, x = .ok a) (hf : ∀ a, Raises Escapes (f a) ↔ ¬Q) :
    Raises Escapes (x >>= f) ↔ ¬(P ∧ Q) := by
  by_cases hP : P
  · obtain ⟨a, ha⟩ := hok hP
    rw [raises_bind, or_iff_right (fun h => hx.mp h hP), ha, not_and]
    simp only [Except.ok.injEq, exists_eq_left', hf]
    exact ⟨fun h _ => h, fun h => h hP⟩
  · exact iff_of_true (raises_bind.mpr (Or.inl (hx.mpr hP))) fun h => hP h.1

lemma boundedIntOverride_total {upperBound : ℤ} (h : IntHint value) :
    ∃ n, boundedIntOverride value upperBound = .ok n := by
  unfold boundedIntOverride
  split
  · exact ⟨_, rfl⟩
  · next hne =>
    obtain ⟨n, hn⟩ := h.resolve_left hne
    rw [hn]
    exact ⟨_, rfl⟩

lemma boundedFloatOverride_total {upperBound : ℚ} (h : FloatHint value) :
    ∃ x, boundedFloatOverride value upperBound = .ok x := by
  unfold boundedFloatOverride
  split
  · exact ⟨_, rfl⟩
  · next hne =>
    obtain ⟨x, hx⟩ := h.resolve_left hne
    rw [hx]
    exact ⟨_, rfl⟩

lemma raises_applyOrchestrationOverrides {policy : ModelPolicy} {orchestration : Json} :
    Raises Escapes (applyOrchestrationOverrides policy orchestration) ↔
      ¬HintsInOrder orchestration := by
  cases orchestration with
  | obj o =>
    have hint : ∀ {value : Json} {upperBound : ℤ} {β : Type} {f : ℤ → Except Exn β} {Q : Prop},
        (∀ n, Raises Escapes (f n) ↔ ¬Q) →
          (Raises Escapes (boundedIntOverride value upperBound >>= f) ↔ ¬(IntHint value ∧ Q)) :=
      raises_bind_of_total raises_boundedIntOverride boundedIntOverride_total
    have hfloat : ∀ {value : Json} {upperBound : ℚ} {β : Type} {f : ℚ → Except Exn β} {Q : Prop},
        (∀ x, Raises Escapes (f x) ↔ ¬Q) →
          (Raises Escapes (boundedFloatOverride value upperBound >>= f) ↔ ¬(FloatHint value ∧ Q)) :=
      raises_bind_of_total raises_boundedFloatOverride boundedFloatOverride_total
    refine (hint fun _ => hint fun _ => hfloat fun _ => hint fun _ => hint fun _ => hint fun _ =>
      hint (Q := True) fun _ => iff_of_false raises_pure (not_not.mpr trivial)).trans (not_congr ?_)
    simp only [HintsInOrder, intHints, tokenFields, List.map_cons, List.map_nil,
      List.forall_mem_cons]
    constructor
    · rintro ⟨hactive, hqueued, htimeout, hdefault, hinput, houtput, htotal, -⟩
      exact ⟨⟨hactive, hqueued, hdefault, hinput, houtput, htotal,
        fun _ h => absurd h List.not_mem_nil⟩, htimeout⟩
    · rintro ⟨⟨hactive, hqueued, hdefault, hinput, houtput, htotal, -⟩, htimeout⟩
      exact ⟨hactive, hqueued, htimeout, hdefault, hinput, houtput, htotal, trivial⟩
  | _ => exact iff_of_false raises_ok (not_not.mpr trivial)

/-! ### The tokens -/

/-- `len(text) / chars_per_token` is not beyond the floats. -/
def SizeInRange (payload : Mapping) (policy : ModelPolicy) : Prop :=
  let text := TaskParse.collectInputText (.obj payload)
  text = "" ∨ (text.length : ℚ) < 2 ^ 1024 - 2 ^ 970 ∧
    |nearest text.length / policy.tokenEstimateCharsPerToken| < 2 ^ 1024 - 2 ^ 970

lemma sizeInRange_iff {payload : Mapping} {policy : ModelPolicy} :
    SizeInRange payload policy ↔ TaskParse.collectInputText (.obj payload) = "" ∨
      quotient (TaskParse.collectInputText (.obj payload)).length
        policy.tokenEstimateCharsPerToken ≠ none := by
  rw [SizeInRange, ne_eq, quotient_eq_none_iff, not_or, not_le, not_le]

/-- The token policy can estimate the input, and read the output limit if the input is not too
large already. -/
def TokensInOrder (payload : Mapping) (policy : ModelPolicy) : Prop :=
  SizeInRange payload policy ∧
    ((∃ n, estimateInputTokens payload policy = .ok n ∧ policy.maxInputTokens < n) ∨
      payload.get (outputTokenKey payload) = .null ∨
        ∃ n, (payload.get (outputTokenKey payload)).toInt = .ok n)

lemma raises_estimateInputTokens {payload : Mapping} {policy : ModelPolicy}
    (hpos : 0 < policy.tokenEstimateCharsPerToken) :
    Raises Escapes (estimateInputTokens payload policy) ↔ ¬SizeInRange payload policy := by
  rw [sizeInRange_iff, estimateInputTokens]
  split
  · next h => exact iff_of_false raises_ok (not_not.mpr (Or.inl h))
  next hne =>
  rw [if_neg hpos.ne', or_iff_right hne, not_not]
  split
  · next h => exact iff_of_false raises_ok (by simp [h])
  · next h =>
    refine iff_of_true ⟨_, rfl, ?_⟩ h
    rintro ⟨_, _, ⟨⟩⟩

lemma raises_requestedOutput {payload : Mapping} {key : String} {policy : ModelPolicy} :
    Raises Escapes (requestedOutput payload key policy) ↔
      ¬(payload.get key = .null ∨ ∃ n, (payload.get key).toInt = .ok n) := by
  unfold requestedOutput
  split
  · next hnull => exact iff_of_false raises_ok (not_not.mpr (Or.inl hnull))
  · next hne =>
    rw [raises_map, or_iff_right hne]
    cases hvalue : (payload.get key).toInt with
    | ok n => exact iff_of_false raises_ok (not_not.mpr ⟨n, rfl⟩)
    | error e => exact iff_of_true ⟨e, rfl, toInt_escapes hvalue⟩ fun ⟨_, h⟩ => by cases h

lemma estimateInputTokens_total {payload : Mapping} {policy : ModelPolicy}
    (hpos : 0 < policy.tokenEstimateCharsPerToken) (h : SizeInRange payload policy) :
    ∃ n, estimateInputTokens payload policy = .ok n := by
  rw [estimateInputTokens]
  split
  · exact ⟨_, rfl⟩
  next hne =>
  obtain ⟨x, hx⟩ := Option.ne_none_iff_exists'.mp ((sizeInRange_iff.mp h).resolve_left hne)
  rw [if_neg hpos.ne', hx]
  exact ⟨_, rfl⟩

lemma raises_applyTokenPolicy {payload : Mapping} {policy : ModelPolicy}
    (hpos : 0 < policy.tokenEstimateCharsPerToken) :
    Raises Escapes (applyTokenPolicy payload policy) ↔ ¬TokensInOrder payload policy := by
  rw [applyTokenPolicy, raises_bind, raises_estimateInputTokens hpos, TokensInOrder]
  by_cases hsize : SizeInRange payload policy
  · obtain ⟨n, hn⟩ := estimateInputTokens_total hpos hsize
    simp only [hn, hsize, not_true_eq_false, false_or, true_and, Except.ok.injEq, exists_eq_left']
    by_cases hmax : policy.maxInputTokens < n
    · rw [if_pos hmax]
      exact iff_of_false (by simp) (not_not.mpr (Or.inl hmax))
    · rw [if_neg hmax, or_iff_right hmax, ← @raises_requestedOutput _ _ policy, raises_bind]
      refine or_iff_left ?_
      rintro ⟨o, -, h⟩
      -- what follows raises only what it is meant to
      split at h
      · exact absurd h (by simp)
      split at h
      · exact absurd h (by simp)
      · exact absurd h raises_pure
  · exact iff_of_true (Or.inl hsize) fun h => hsize h.1

/-! ### The preparation -/

/-- The requests that a policy applies to. -/
def Applies (path method contentType : String) : Prop :=
  method.toUpper = "POST" ∧ containsText "application/json" contentType = true ∧
    isLlmGenerationEndpoint path = true

/-- An exception of reading a body that no handler is for. -/
def Unread (e : Exn) : Prop := e.kind ≠ .jsonDecode ∧ Escapes e

/-- What goes wrong with a body that is a JSON object, but is not answered. -/
def Unanswered (registry : PolicyRegistry) (raw : Mapping) : Prop :=
  ContractOverflows (raw.get "orchestration") ∨
    ContractInOrder (raw.get "orchestration") ∧
      (¬HintsInOrder (raw.get "orchestration") ∨
        ∃ policy, applyOrchestrationOverrides (registry.resolve (extractModel raw))
          (raw.get "orchestration") = .ok policy ∧ ¬TokensInOrder raw policy)

lemma raises_decodedBody {body : Except Exn Json} :
    Raises Escapes (decodedBody body) ↔ Raises Unread body := by
  cases body with
  | ok x => exact iff_of_false raises_ok raises_ok
  | error e =>
    rw [decodedBody, raises_error, Unread]
    split
    · next h => exact iff_of_false (by simp) fun hn => hn.1 h
    · next h => exact raises_error.trans (and_iff_right h).symm

lemma decodedBody_ok {body : Except Exn Json} {x : Json} :
    decodedBody body = .ok x ↔ body = .ok x := by
  cases body with
  | ok y => exact Iff.rfl
  | error e =>
    rw [decodedBody]
    split <;> exact iff_of_false (fun h => by cases h) fun h => by cases h

/-- The sizes of texts are estimated by positive numbers. -/
def Estimates (registry : PolicyRegistry) : Prop :=
  ∀ p ∈ registry.defaultPolicy :: registry.policies, 0 < p.tokenEstimateCharsPerToken

lemma resolve_estimates {registry : PolicyRegistry} (h : Estimates registry)
    (model : String) : 0 < (registry.resolve model).tokenEstimateCharsPerToken := by
  have hdefault := h _ List.mem_cons_self
  unfold PolicyRegistry.resolve
  split
  · split
    · next p hp => exact h p (List.mem_cons_of_mem _ (List.mem_of_find?_eq_some hp))
    · split
      · exact hdefault
      · exact hdefault
  · exact hdefault

lemma raises_prepareObject {registry : PolicyRegistry} (hpos : Estimates registry) (raw : Mapping) :
    Raises Escapes (do
      validateOrchestrationContract (raw.get "orchestration")
      let policy ← applyOrchestrationOverrides (registry.resolve (extractModel raw))
        (raw.get "orchestration")
      let payload ← applyTokenPolicy raw policy
      let metadata : Mapping := match (payload.get "_orchestrator").or (.obj []) with
        | .obj m => m
        | _ => []
      pure (some (payload, metadata, policy))) ↔ Unanswered registry raw := by
  rw [raises_andThen, raises_validateOrchestrationContract, contractInOrder_iff, raises_bind,
    raises_applyOrchestrationOverrides, Unanswered]
  refine or_congr_right (and_congr_right' (or_congr_right (exists_congr fun policy => ?_)))
  refine and_congr_right fun hpolicy => ?_
  have hchars := (applyOrchestrationOverrides_lowers hpolicy).charsPerToken
  have hpolicypos := hchars ▸ resolve_estimates hpos (extractModel raw)
  rw [raises_bind, raises_applyTokenPolicy hpolicypos]
  exact or_iff_left fun ⟨_, _, h⟩ => raises_pure h

theorem raises_prepare {registry : PolicyRegistry} (hpos : Estimates registry)
    {path method contentType : String} {body : Except Exn Json} :
    Raises Escapes (prepare registry path method contentType body) ↔
      Applies path method contentType ∧
        (Raises Unread body ∨ ∃ raw, body = .ok (.obj raw) ∧ Unanswered registry raw) := by
  unfold prepare Applies
  by_cases hmethod : method.toUpper ≠ "POST"
  · rw [if_pos hmethod]
    exact iff_of_false raises_ok fun h => hmethod h.1.1
  rw [if_neg hmethod]
  by_cases htype : containsText "application/json" contentType = true
  · rw [if_neg (by simp [htype])]
    by_cases hpath : isLlmGenerationEndpoint path = true
    · rw [if_neg (by simp [hpath]), raises_bind, raises_decodedBody,
        and_iff_right ⟨not_not.mp hmethod, htype, hpath⟩]
      refine or_congr_right ?_
      simp only [decodedBody_ok]
      constructor
      · rintro ⟨x, hbody, h⟩
        split at h
        · next raw => exact ⟨raw, hbody, (raises_prepareObject hpos raw).mp h⟩
        · exact absurd h (by simp)
      · rintro ⟨raw, hbody, h⟩
        exact ⟨_, hbody, (raises_prepareObject hpos raw).mpr h⟩
    · rw [if_pos (by simp [hpath])]
      exact iff_of_false raises_ok fun h => hpath h.1.2.2
  · rw [if_pos (by simp [htype])]
    exact iff_of_false raises_ok fun h => htype h.1.2.1

/-- The preparation returns, or refuses the request with one of the stable types. -/
def Handled (r : Except Exn (Option (Mapping × Mapping × ModelPolicy))) : Prop :=
  (∃ prepared, r = .ok prepared) ∨ ∃ e, r = .error e ∧ Refused e

lemma handled_iff_raises {r : Except Exn (Option (Mapping × Mapping × ModelPolicy))} :
    Handled r ↔ ¬Raises Escapes r := by
  cases r with
  | ok prepared => exact iff_of_true (Or.inl ⟨prepared, rfl⟩) raises_ok
  | error e =>
    rw [raises_error, Escapes, not_not]
    constructor
    · rintro (⟨_, h⟩ | ⟨_, h, hrefused⟩)
      · cases h
      · cases h
        exact hrefused
    · intro h
      exact Or.inr ⟨e, rfl, h⟩

lemma readBody_toUTF8 (loads : String → Except Exn Json) (text : String) :
    readBody loads text.toUTF8 = loads text := by
  have hdecode : String.fromUTF8? text.toUTF8 = some text := by
    rw [String.fromUTF8?, String.toUTF8_eq_toByteArray, dif_pos text.isValidUTF8]
    rfl
  rw [readBody, hdecode]

/-- `json.loads`, for the two texts of the samples. -/
def sampleLoads (text : String) : Except Exn Json :=
  if text = "\x7b\"max_tokens\": 8\x7d" then .ok (.obj [("max_tokens", .int 8)])
  else if text = "\x7b\"max_tokens\": \"many\"\x7d" then
    .ok (.obj [("max_tokens", .str "many")])
  else .error ⟨.jsonDecode, "JSONDecodeError", "Expecting value"⟩

lemma sampleRegistry_estimates : Estimates sampleRegistry := by
  intro p hp
  rw [List.mem_singleton.mp hp]
  decide +kernel

end Orchestrator.PreparationErrors
