import Orchestrator.Json

/-!
The field checks of the task protocol: each returns the checked value or raises a
`TaskProtocolError` that names the field.
-/

namespace Orchestrator.FieldChecks

open PyText

def requireMapping (value : Json) (fieldName : String) : Except Exn Mapping :=
  match value with
  | .obj m => .ok m
  | _ => .error (.taskProtocolError (fieldName ++ " must be a JSON object."))

def optionalMapping (value : Json) (fieldName : String) : Except Exn Mapping :=
  match value with
  | .null => .ok []
  | .obj m => .ok m
  | _ => .error (.taskProtocolError (fieldName ++ " must be a JSON object."))

def optionalMappingOrNone (value : Json) (fieldName : String) : Except Exn (Option Mapping) :=
  match value with
  | .null => .ok none
  | .obj m => .ok (some m)
  | _ => .error (.taskProtocolError (fieldName ++ " must be a JSON object."))

def stringValue (value : Json) (fieldName : String) : Except Exn NonBlank :=
  match value with
  | .str s =>
    if h : strip s ≠ "" then .ok ⟨strip s, strip_strip s, h⟩
    else .error (.taskProtocolError (fieldName ++ " must be a non-empty string."))
  | _ => .error (.taskProtocolError (fieldName ++ " must be a non-empty string."))

def requiredString (payload : Mapping) (fieldName : String) : Except Exn NonBlank :=
  stringValue (payload.get fieldName) fieldName

def optionalString (value : Json) : Option String :=
  if value.isNoneOrEmpty then none else some value.toStr

/-- The common part of the two integer checks. -/
def optionalInt (least : ℕ) (kind : String) (value : Json) (fieldName : String) :
    Except Exn (Option {n : ℕ // least ≤ n}) :=
  if value.isNoneOrEmpty then .ok none
  else match value.toInt with
    | .ok parsed =>
      if h : (least : ℤ) ≤ parsed then .ok (some ⟨parsed.toNat, by omega⟩)
      else .error (.taskProtocolError (fieldName ++ " must be a " ++ kind ++ " integer."))
    | .error e =>
      if e.name = "TypeError" ∨ e.name = "ValueError" then
        .error (.taskProtocolError (fieldName ++ " must be a " ++ kind ++ " integer."))
      else .error e

abbrev Positive := {n : ℕ // 1 ≤ n}

lemma one_le_1024 : 1 ≤ 1024 := by decide

def optionalPositiveInt (value : Json) (fieldName : String) : Except Exn (Option Positive) :=
  optionalInt 1 "positive" value fieldName

def optionalNonNegativeInt (value : Json) (fieldName : String) :
    Except Exn (Option ℕ) :=
  (optionalInt 0 "non-negative" value fieldName).map (Option.map Subtype.val)

/-! ### Checked values pass their own check -/

@[simp] lemma stringValue_str (s : NonBlank) (fieldName : String) :
    stringValue (.str s.1) fieldName = .ok s := by
  have h : strip s.1 ≠ "" := by rw [s.strip_eq]; exact s.ne_empty
  rw [stringValue, dif_pos h]
  exact congrArg Except.ok (Subtype.ext s.strip_eq)

@[simp] lemma optionalMapping_obj (m : Mapping) (fieldName : String) :
    optionalMapping (.obj m) fieldName = .ok m := rfl

lemma optionalInt_int {least : ℕ} (kind fieldName : String) (n : {n : ℕ // least ≤ n}) :
    optionalInt least kind (.int n.1) fieldName = .ok (some n) := by
  have h : (least : ℤ) ≤ (n.1 : ℤ) := by exact_mod_cast n.2
  simp only [optionalInt, Json.isNoneOrEmpty, Json.toInt, dif_pos h]
  rfl

@[simp] lemma optionalPositiveInt_int (n : Positive) (fieldName : String) :
    optionalPositiveInt (.int n.1) fieldName = .ok (some n) := optionalInt_int ..

@[simp] lemma optionalNonNegativeInt_int (n : ℕ) (fieldName : String) :
    optionalNonNegativeInt (.int n) fieldName = .ok (some n) := by
  have h := optionalInt_int "non-negative" fieldName (⟨n, Nat.zero_le n⟩ : {n : ℕ // 0 ≤ n})
  rw [optionalNonNegativeInt, h]
  rfl

lemma optionalString_str (s : String) :
    optionalString (.str s) = if s = "" then none else some s := by
  by_cases h : s = "" <;> simp [optionalString, Json.isNoneOrEmpty, Json.toStr, h]

@[simp] lemma optionalString_null : optionalString .null = none := rfl

end Orchestrator.FieldChecks
