import Mathlib.Data.Rat.Floor
import Mathlib.Data.List.Sort
import Mathlib.Data.String.Basic
import Orchestrator.Lib.Binary64
import Orchestrator.Lib.Dict
import Orchestrator.Exn
import Orchestrator.PyText

/-!
JSON values as Python's `json` module yields them, and the built-in operations the services
apply to them: `dict.get`, truth, `int`, `str` and `json.dumps`.

An object is the association list of its items in insertion order. A float carries its `repr`
next to its exact value.
-/

namespace Orchestrator

open PyText

inductive FloatValue
  | nan
  | inf (neg : Bool)
  | fin (q : ℚ)
  deriving DecidableEq

structure PyFloat where
  text : String
  value : FloatValue
  deriving DecidableEq

inductive Json
  | null
  | bool (b : Bool)
  | int (n : ℤ)
  | float (x : PyFloat)
  | str (s : String)
  | arr (l : List Json)
  | obj (m : List (String × Json))

/-- A `dict` with string keys. -/
abbrev Mapping := List (String × Json)

namespace Mapping

def has (m : Mapping) (key : String) : Bool := (m.lookup key).isSome

/-- `m.get(key)` -/
def get (m : Mapping) (key : String) : Json := (m.lookup key).getD .null

/-- `m[key] = value` -/
def set (m : Mapping) (key : String) (value : Json) : Mapping :=
  match m with
  | [] => [(key, value)]
  | (k, v) :: r => if k = key then (k, value) :: r else (k, v) :: Mapping.set r key value

/-- `{**m, **n}` -/
def merge (m n : Mapping) : Mapping := n.foldl (fun acc p => Mapping.set acc p.1 p.2) m

@[simp] lemma get_nil (key : String) : get [] key = .null := rfl
lemma get_cons (k : String) (v : Json) (m : Mapping) (key : String) :
    get ((k, v) :: m) key = if key = k then v else get m key := by
  by_cases h : key = k
  · simp [get, h]
  · rw [get, get, List.lookup_cons, beq_eq_false_iff_ne.mpr h, if_neg h]

lemma lookup_set (m : Mapping) (key other : String) (value : Json) :
    (m.set key value).lookup other = if other = key then some value else m.lookup other := by
  induction m with
  | nil => rw [set, Lib.Dict.lookup_cons_ite, List.lookup_nil]
  | cons p m ih =>
    obtain ⟨k, v⟩ := p
    by_cases hk : k = key
    · subst hk
      rw [set, if_pos rfl, Lib.Dict.lookup_cons_ite, Lib.Dict.lookup_cons_ite]
      split <;> rfl
    · rw [set, if_neg hk, Lib.Dict.lookup_cons_ite, Lib.Dict.lookup_cons_ite, ih]
      by_cases h : other = k
      · subst h
        rw [if_pos rfl, if_neg hk, if_pos rfl]
      · rw [if_neg h, if_neg h]

lemma get_set_ne (m : Mapping) {key other : String} (value : Json) (h : other ≠ key) :
    (m.set key value).get other = m.get other := by
  rw [get, lookup_set, if_neg h, get]

lemma get_merge_of_ne (m n : Mapping) {key : String} (h : ∀ p ∈ n, key ≠ p.1) :
    (m.merge n).get key = m.get key := by
  induction n generalizing m with
  | nil => rfl
  | cons p n ih =>
    rw [List.forall_mem_cons] at h
    rw [← get_set_ne m p.2 h.1]
    exact ih (m.set p.1 p.2) h.2

lemma lookup_filter {m : Mapping} {key : String} {keep : String → Bool} (h : keep key = true) :
    List.lookup key (m.filter fun p => keep p.1) = m.lookup key := by
  induction m with
  | nil => rfl
  | cons p m ih =>
    obtain ⟨k, v⟩ := p
    by_cases hkeep : keep k = true
    · rw [List.filter_cons_of_pos (by simpa using hkeep), Lib.Dict.lookup_cons_ite,
        Lib.Dict.lookup_cons_ite, ih]
    · have hk : key ≠ k := by
        rintro rfl
        exact hkeep h
      rw [List.filter_cons_of_neg (by simpa using hkeep), Lib.Dict.lookup_cons_ite, if_neg hk, ih]

end Mapping

namespace Json

/-- The truth value of `bool(x)`. -/
def truthy : Json → Bool
  | null => false
  | bool b => b
  | int n => n != 0
  | float x => x.value != .fin 0
  | str s => s != ""
  | arr l => !l.isEmpty
  | obj m => !m.isEmpty

/-- `x or y` -/
def or (x y : Json) : Json := if x.truthy then x else y

/-- `x in (None, "")` -/
def isNoneOrEmpty : Json → Bool
  | null => true
  | str s => s == ""
  | _ => false

def isNull : Json → Bool
  | null => true
  | _ => false

/-- `int(x)` -/
def toInt : Json → Except Exn ℤ
  | null => .error (.typeError "int() argument must be a real number")
  | bool b => .ok (if b then 1 else 0)
  | int n => .ok n
  | float ⟨_, .nan⟩ => .error (.valueError "cannot convert float NaN to integer")
  | float ⟨_, .inf _⟩ => .error (.overflowError "cannot convert float infinity to integer")
  | float ⟨_, .fin q⟩ => .ok (q.num.tdiv q.den)
  | str s =>
    match parseInt s with
    | some n => .ok n
    | none => .error (.valueError "invalid literal for int() with base 10")
  | arr _ => .error (.typeError "int() argument must be a real number")
  | obj _ => .error (.typeError "int() argument must be a real number")

/-- The least magnitude that rounds to more than the largest float. -/
def floatBound : ℤ := 2 ^ 1024 - 2 ^ 970

def negated : FloatValue → FloatValue
  | .nan => .nan
  | .inf neg => .inf !neg
  | .fin q => .fin (-q)

/-- The float nearest to a number. -/
def nearestFloat (q : ℚ) : FloatValue :=
  match Lib.Binary64.round q with
  | some x => .fin x
  | none => .inf (q < 0)

/-- `float(s)` without the sign. -/
def parseUnsigned (l : List Char) : Option FloatValue :=
  let lower := (String.ofList l).toLower
  if lower = "inf" || lower = "infinity" then some (.inf false)
  else if lower = "nan" then some .nan
  else (parseDecimal l).map nearestFloat

def parseFloat (s : String) : Option FloatValue :=
  match (strip s).toList with
  | '-' :: r => (parseUnsigned r).map negated
  | '+' :: r => parseUnsigned r
  | r => parseUnsigned r

/-- `float(x)` -/
def toFloat : Json → Except Exn FloatValue
  | bool b => .ok (.fin (if b then 1 else 0))
  | int n =>
    if |n| < floatBound then .ok (nearestFloat n)
    else .error (.overflowError "int too large to convert to float")
  | float x => .ok x.value
  | str s =>
    match parseFloat s with
    | some x => .ok x
    | none => .error (.valueError "could not convert string to float")
  | _ => .error (.typeError "float() argument must be a string or a real number")

/-! ### Text -/

def hexDigit (n : ℕ) : Char := if n < 10 then Char.ofNat (48 + n) else Char.ofNat (87 + n)

/-- A character inside a JSON string, without `ensure_ascii`. -/
def escapeChar (c : Char) : List Char :=
  if c = '"' then ['\\', '"']
  else if c = '\\' then ['\\', '\\']
  else if c = '\n' then ['\\', 'n']
  else if c = '\r' then ['\\', 'r']
  else if c = '\t' then ['\\', 't']
  else if c.toNat = 0x8 then ['\\', 'b']
  else if c.toNat = 0xc then ['\\', 'f']
  else if c.toNat < 0x20 then
    ['\\', 'u', '0', '0', hexDigit (c.toNat / 16), hexDigit (c.toNat % 16)]
  else [c]

def quote (s : String) : String := String.ofList ('"' :: s.toList.flatMap escapeChar ++ ['"'])

def floatText (x : PyFloat) : String :=
  match x.value with
  | .nan => "NaN"
  | .inf false => "Infinity"
  | .inf true => "-Infinity"
  | .fin _ => x.text

/-- The items of an object in key order. -/
def sortItems (m : Mapping) : Mapping := m.insertionSort fun p q => p.1 ≤ q.1

mutual
/-- `json.loads(json.dumps(x, sort_keys=True))`: the value with the keys of every object in
order. -/
def sortKeys : Json → Json
  | arr l => arr (sortKeysList l)
  | obj m => obj (sortItems (sortKeysItems m))
  | x => x
def sortKeysList : List Json → List Json
  | [] => []
  | x :: l => sortKeys x :: sortKeysList l
def sortKeysItems : List (String × Json) → List (String × Json)
  | [] => []
  | (k, x) :: m => (k, sortKeys x) :: sortKeysItems m
end

mutual
/-- The items in the order they have, separated by `", "` and `": "`. -/
def dumpsOrdered : Json → String
  | null => "null"
  | bool b => if b then "true" else "false"
  | int n => toString n
  | float x => floatText x
  | str s => quote s
  | arr l => "[" ++ ", ".intercalate (dumpsList l) ++ "]"
  | obj m => "\x7b" ++ ", ".intercalate (dumpsItems m) ++ "\x7d"
def dumpsList : List Json → List String
  | [] => []
  | x :: l => dumpsOrdered x :: dumpsList l
def dumpsItems : List (String × Json) → List String
  | [] => []
  | (k, x) :: m => (quote k ++ ": " ++ dumpsOrdered x) :: dumpsItems m
end

/-- `json.dumps(x, ensure_ascii=False, sort_keys=True)` -/
def dumps (x : Json) : String := dumpsOrdered (sortKeys x)

/-- `str(x)`; for an array or an object its JSON text, where `str` writes the `repr` of the
items. -/
def toStr : Json → String
  | null => "None"
  | bool b => if b then "True" else "False"
  | int n => toString n
  | float x => x.text
  | str s => s
  | x => dumps x

end Json

end Orchestrator
