import Mathlib.Algebra.Order.Field.Rat
import Mathlib.Data.List.DropRight

/-!
The parts of Python's `str` that the services rely on: `str.strip`, `int` on a text, and the
texts that `strip` leaves alone and that are not empty.
-/

namespace Orchestrator.PyText

/-- `str.isspace` of one character. -/
def isSpace (c : Char) : Bool :=
  let n := c.toNat
  (0x9 ≤ n && n ≤ 0xd) || (0x1c ≤ n && n ≤ 0x20) || n == 0x85 || n == 0xa0 || n == 0x1680 ||
    (0x2000 ≤ n && n ≤ 0x200a) || n == 0x2028 || n == 0x2029 || n == 0x202f || n == 0x205f ||
    n == 0x3000

def strip (s : String) : String := String.ofList ((s.toList.dropWhile isSpace).rdropWhile isSpace)

lemma dropWhile_rdropWhile {α : Type} (p : α → Bool) (l : List α) :
    ((l.dropWhile p).rdropWhile p).dropWhile p = (l.dropWhile p).rdropWhile p := by
  refine List.dropWhile_eq_self_iff.mpr fun h hp => ?_
  obtain ⟨t, ht⟩ := List.rdropWhile_prefix p (l := l.dropWhile p)
  -- the first character that is left is the first one of `l.dropWhile p`
  have h' : 0 < (l.dropWhile p).length := by rw [← ht, List.length_append]; omega
  refine List.dropWhile_get_zero_not p l h' ?_
  have hget : (l.dropWhile p).get ⟨0, h'⟩ = ((l.dropWhile p).rdropWhile p).get ⟨0, h⟩ := by
    simp only [List.get_eq_getElem]
    rw [List.getElem_of_eq ht.symm, List.getElem_append_left h]
  rw [hget]
  exact hp

theorem strip_strip (s : String) : strip (strip s) = strip s := by
  rw [strip, strip, String.toList_ofList, dropWhile_rdropWhile, List.rdropWhile_idempotent]

/-- The texts that `string_value` can return. -/
abbrev NonBlank := {s : String // strip s = s ∧ s ≠ ""}

lemma NonBlank.strip_eq (s : NonBlank) : strip s.1 = s.1 := s.2.1
lemma NonBlank.ne_empty (s : NonBlank) : s.1 ≠ "" := s.2.2

/-! ### Numbers -/

/-- The code points of the digit zero of every decimal numbering system. -/
def zeroCodes : List ℕ :=
  [0x30, 0x660, 0x6f0, 0x7c0, 0x966, 0x9e6, 0xa66, 0xae6, 0xb66, 0xbe6, 0xc66, 0xce6, 0xd66, 0xde6,
    0xe50, 0xed0, 0xf20, 0x1040, 0x1090, 0x17e0, 0x1810, 0x1946, 0x19d0, 0x1a80, 0x1a90, 0x1b50,
    0x1bb0, 0x1c40, 0x1c50, 0xa620, 0xa8d0, 0xa900, 0xa9d0, 0xa9f0, 0xaa50, 0xabf0, 0xff10, 0x104a0,
    0x10d30, 0x11066, 0x110f0, 0x11136, 0x111d0, 0x112f0, 0x11450, 0x114d0, 0x11650, 0x116c0,
    0x11730, 0x118e0, 0x11950, 0x11c50, 0x11d50, 0x11da0, 0x11f50, 0x16a60, 0x16ac0, 0x16b50,
    0x1d7ce, 0x1d7d8, 0x1d7e2, 0x1d7ec, 0x1d7f6, 0x1e140, 0x1e2f0, 0x1e4f0, 0x1e950, 0x1fbf0]

def digitValue (c : Char) : Option ℕ :=
  (zeroCodes.find? fun z => z ≤ c.toNat && c.toNat ≤ z + 9).map fun z => c.toNat - z

/-- The digits after the first, with single underscores between digits. -/
def moreDigits (n : ℕ) : List Char → Option ℕ
  | [] => some n
  | '_' :: c :: r =>
    match digitValue c with
    | some d => moreDigits (10 * n + d) r
    | none => none
  | c :: r =>
    match digitValue c with
    | some d => moreDigits (10 * n + d) r
    | none => none

def digits : List Char → Option ℕ
  | [] => none
  | c :: r => (digitValue c).bind fun d => moreDigits d r

/-- The most digits that `int` reads (`sys.int_info.default_max_str_digits`). -/
def maxStrDigits : ℕ := 4300

/-- The digits of `int(s)`, where underscores are not counted. -/
def intDigits (l : List Char) : Option ℕ :=
  if maxStrDigits < l.countP (· ≠ '_') then none else digits l

/-- `int(s)` in base ten. -/
def parseInt (s : String) : Option ℤ :=
  match (strip s).toList with
  | '-' :: r => (intDigits r).map fun n => -n
  | '+' :: r => (intDigits r).map fun n => n
  | r => (intDigits r).map fun n => n

/-- The digits after a decimal point, as a fraction. -/
def fraction (l : List Char) : Option ℚ :=
  (digits l).map fun n => n / 10 ^ l.countP (· ≠ '_')

/-- The number before the exponent: digits with at most one decimal point. -/
def mantissa (l : List Char) : Option ℚ :=
  match l.takeWhile (· ≠ '.'), l.dropWhile (· ≠ '.') with
  | whole, [] => (digits whole).map fun n => n
  | [], _ :: after => fraction after
  | whole, [_] => (digits whole).map fun n => n
  | whole, _ :: after =>
    match digits whole, fraction after with
    | some n, some q => some (n + q)
    | _, _ => none

def exponent (l : List Char) : Option ℤ :=
  match l with
  | [] => some 0
  | _ :: '-' :: r => (digits r).map fun n => -n
  | _ :: '+' :: r => (digits r).map fun n => n
  | _ :: r => (digits r).map fun n => n

def isExponentSign (c : Char) : Bool := c = 'e' || c = 'E'

/-- The finite numbers that `float(s)` accepts, without their sign. -/
def parseDecimal (l : List Char) : Option ℚ :=
  match mantissa (l.takeWhile fun c => !isExponentSign c),
      exponent (l.dropWhile fun c => !isExponentSign c) with
  | some q, some n => some (q * 10 ^ n)
  | _, _ => none

example : parseInt " -1_024\n" = some (-1024) := by decide
example : parseInt "1__0" = none := by decide

end Orchestrator.PyText
