import Mathlib.Data.List.TakeWhile
import Mathlib.Data.List.Basic
import Mathlib.Data.Nat.Notation

/-!
The text of JSON: a grammar, a reader, and a printer with styles. A tree is what a text says before
anything is made of its numerals and of the names of its members.

The reader accepts the texts of the grammar and no others, and it reads what is printed. A part of
the printed text of an array or an object is refused.
-/

namespace Orchestrator.Lib.JsonText

/-! ### Runs of characters -/

/-- What follows does not go on with such characters. -/
def Stops (p : Char → Bool) (rest : List Char) : Prop := ∀ c ∈ rest.head?, p c = false

section Runs

variable {p : Char → Bool} {l rest : List Char}

lemma stops_nil : Stops p [] := fun _ h => by cases h

lemma stops_cons {c : Char} (h : p c = false) : Stops p (c :: rest) := by
  intro d hd
  cases hd
  exact h

lemma takeWhile_run (hl : ∀ c ∈ l, p c = true) (hrest : Stops p rest) :
    (l ++ rest).takeWhile p = l := by
  have hnil : rest.takeWhile p = [] := by
    cases rest with
    | nil => rfl
    | cons c r => rw [List.takeWhile_cons_of_neg (by simp [hrest c rfl])]
  rw [List.takeWhile_append_of_pos hl, hnil, List.append_nil]

lemma dropWhile_run (hl : ∀ c ∈ l, p c = true) (hrest : Stops p rest) :
    (l ++ rest).dropWhile p = rest := by
  rw [List.dropWhile_append_of_pos hl]
  cases rest with
  | nil => rfl
  | cons c r => rw [List.dropWhile_cons_of_neg (by simp [hrest c rfl])]

end Runs

def isBlank (c : Char) : Bool := c = ' ' || c = '\t' || c = '\n' || c = '\r'

def Blank (w : List Char) : Prop := ∀ c ∈ w, isBlank c = true

-- by the list: the instance for all characters would go through every one of them
instance (w : List Char) : Decidable (Blank w) :=
  List.decidableBAll (fun c => isBlank c = true) w

def skip (s : List Char) : List Char := s.dropWhile isBlank

lemma skip_blank {w rest : List Char} (hw : Blank w) (hrest : Stops isBlank rest) :
    skip (w ++ rest) = rest := dropWhile_run hw hrest

lemma blank_nil : Blank [] := fun _ h => by cases h
lemma blank_space : Blank [' '] := by decide

lemma exists_blank (s : List Char) : ∃ w, Blank w ∧ s = w ++ skip s :=
  ⟨s.takeWhile isBlank, fun _ => List.mem_takeWhile_imp, List.takeWhile_append_dropWhile.symm⟩

/-! ### Numerals -/

/-- Digits without a leading zero. -/
def Whole (l : List Char) : Prop :=
  l = ['0'] ∨ ∃ c r, l = c :: r ∧ c ≠ '0' ∧ ∀ d ∈ l, d.isDigit = true

def Fraction (l : List Char) : Prop :=
  l = [] ∨ ∃ c r, l = '.' :: c :: r ∧ ∀ d ∈ c :: r, d.isDigit = true

def isExponentSign (c : Char) : Bool := c = 'e' || c = 'E'

def Exponent (l : List Char) : Prop :=
  l = [] ∨ ∃ e sign c r, l = e :: (sign ++ c :: r) ∧ isExponentSign e = true ∧
    (sign = [] ∨ sign = ['+'] ∨ sign = ['-']) ∧ ∀ d ∈ c :: r, d.isDigit = true

structure Numeral where
  negative : Bool
  whole : List Char
  fraction : List Char
  exponent : List Char
  whole_valid : Whole whole
  fraction_valid : Fraction fraction
  exponent_valid : Exponent exponent

namespace Numeral

def isFloat (n : Numeral) : Bool := !n.fraction.isEmpty || !n.exponent.isEmpty

def text (n : Numeral) : List Char :=
  (if n.negative then ['-'] else []) ++ (n.whole ++ (n.fraction ++ n.exponent))

end Numeral

def wholeOf : List Char → List Char
  | [] => []
  | c :: r => if c = '0' then ['0'] else (c :: r).takeWhile Char.isDigit

def fractionOf : List Char → List Char
  | [] => []
  | c :: r =>
    if c = '.' ∧ r.takeWhile Char.isDigit ≠ [] then '.' :: r.takeWhile Char.isDigit else []

def signOf : List Char → List Char
  | [] => []
  | c :: _ => if c = '+' ∨ c = '-' then [c] else []

def exponentOf : List Char → List Char
  | [] => []
  | e :: r =>
    let digits := (r.drop (signOf r).length).takeWhile Char.isDigit
    if isExponentSign e = true ∧ digits ≠ [] then e :: (signOf r ++ digits) else []

lemma wholeOf_valid {s : List Char} (h : wholeOf s ≠ []) : Whole (wholeOf s) := by
  cases s with
  | nil => exact absurd rfl h
  | cons c r =>
    rw [wholeOf] at h ⊢
    split
    · exact Or.inl rfl
    · next hc =>
      rw [if_neg hc] at h
      cases hdigit : c.isDigit with
      | false => exact absurd (List.takeWhile_cons_of_neg (by simp [hdigit])) h
      | true =>
        refine Or.inr ⟨c, r.takeWhile Char.isDigit, ?_, hc, fun d hd => List.mem_takeWhile_imp hd⟩
        exact List.takeWhile_cons_of_pos hdigit

lemma fractionOf_valid (s : List Char) : Fraction (fractionOf s) := by
  cases s with
  | nil => exact Or.inl rfl
  | cons c r =>
    rw [fractionOf]
    split
    · next h =>
      obtain ⟨d, ds, hds⟩ := List.exists_cons_of_ne_nil h.2
      rw [hds]
      refine Or.inr ⟨d, ds, rfl, fun x hx => ?_⟩
      rw [← hds] at hx
      exact List.mem_takeWhile_imp hx
    · exact Or.inl rfl

lemma signOf_valid (s : List Char) : signOf s = [] ∨ signOf s = ['+'] ∨ signOf s = ['-'] := by
  cases s with
  | nil => exact Or.inl rfl
  | cons c r =>
    rw [signOf]
    split
    · next h =>
      rcases h with rfl | rfl
      · exact Or.inr (Or.inl rfl)
      · exact Or.inr (Or.inr rfl)
    · exact Or.inl rfl

lemma exponentOf_valid (s : List Char) : Exponent (exponentOf s) := by
  cases s with
  | nil => exact Or.inl rfl
  | cons e r =>
    rw [exponentOf]
    split
    · next h =>
      obtain ⟨d, ds, hds⟩ := List.exists_cons_of_ne_nil h.2
      rw [hds]
      refine Or.inr ⟨e, signOf r, d, ds, rfl, h.1, signOf_valid r, fun x hx => ?_⟩
      rw [← hds] at hx
      exact List.mem_takeWhile_imp hx
    · exact Or.inl rfl

/-- The numeral at the front of a text behind its sign, and what follows it. -/
def unsigned (negative : Bool) (s : List Char) : Option (Numeral × List Char) :=
  if h : wholeOf s ≠ [] then
    let r := s.drop (wholeOf s).length
    let r' := r.drop (fractionOf r).length
    some (⟨negative, wholeOf s, fractionOf r, exponentOf r', wholeOf_valid h, fractionOf_valid r,
      exponentOf_valid r'⟩, r'.drop (exponentOf r').length)
  else none

def numeral (s : List Char) : Option (Numeral × List Char) :=
  if s.head? = some '-' then unsigned true s.tail else unsigned false s

/-- The characters with which a numeral may go on. -/
def goesOn (c : Char) : Bool := c.isDigit || c = '.' || isExponentSign c

variable {l rest : List Char}

lemma stops_append {p : Char → Bool} (hl : l ≠ [] → Stops p l) (hrest : Stops p rest) :
    Stops p (l ++ rest) := by
  cases l with
  | nil => exact hrest
  | cons c r => exact stops_cons (hl (List.cons_ne_nil c r) c rfl)

lemma Stops.mono {p q : Char → Bool} (h : Stops p rest) (hpq : ∀ c, q c = true → p c = true) :
    Stops q rest := by
  intro c hc
  cases hq : q c with
  | false => rfl
  | true => rw [← h c hc, hpq c hq]

lemma Stops.digits (h : Stops goesOn rest) : Stops Char.isDigit rest :=
  h.mono fun c hc => by simp [goesOn, hc]

lemma Fraction.stops (h : Fraction l) (hrest : Stops Char.isDigit rest) :
    Stops Char.isDigit (l ++ rest) := by
  refine stops_append (fun hl => ?_) hrest
  rcases h with rfl | ⟨c, r, rfl, -⟩
  · exact absurd rfl hl
  · exact stops_cons rfl

lemma Exponent.stops (h : Exponent l) {p : Char → Bool} (hp : p 'e' = false) (hp' : p 'E' = false)
    (hrest : Stops p rest) : Stops p (l ++ rest) := by
  refine stops_append (fun hl => ?_) hrest
  rcases h with rfl | ⟨e, sign, c, r, rfl, he, -⟩
  · exact absurd rfl hl
  · refine stops_cons ?_
    simp only [isExponentSign, Bool.or_eq_true, decide_eq_true_eq] at he
    rcases he with rfl | rfl
    · exact hp
    · exact hp'

lemma wholeOf_append (h : Whole l) (hrest : Stops Char.isDigit rest) : wholeOf (l ++ rest) = l := by
  rcases h with rfl | ⟨c, r, rfl, hc, hdigits⟩
  · rfl
  · rw [List.cons_append, wholeOf, if_neg hc, ← List.cons_append]
    exact takeWhile_run hdigits hrest

lemma fractionOf_append (h : Fraction l) (hrest : Stops Char.isDigit rest)
    (hpoint : Stops (· = '.') rest) : fractionOf (l ++ rest) = l := by
  rcases h with rfl | ⟨c, r, rfl, hdigits⟩
  · cases rest with
    | nil => rfl
    | cons d r =>
      have hd : d ≠ '.' := of_decide_eq_false (hpoint d rfl)
      rw [List.nil_append, fractionOf, if_neg fun h => hd h.1]
  · have hrun : ((c :: r) ++ rest).takeWhile Char.isDigit = c :: r := takeWhile_run hdigits hrest
    rw [List.cons_append, fractionOf, hrun, if_pos ⟨rfl, List.cons_ne_nil c r⟩]

lemma signOf_append {sign : List Char} {c : Char}
    (hsign : sign = [] ∨ sign = ['+'] ∨ sign = ['-']) (hc : c.isDigit = true) :
    signOf (sign ++ c :: rest) = sign := by
  rcases hsign with rfl | rfl | rfl
  · have hplus : c ≠ '+' := by rintro rfl; cases hc
    have hminus : c ≠ '-' := by rintro rfl; cases hc
    rw [List.nil_append, signOf, if_neg (by simp [hplus, hminus])]
  · rfl
  · rfl

lemma exponentOf_append (h : Exponent l) (hrest : Stops goesOn rest) :
    exponentOf (l ++ rest) = l := by
  rcases h with rfl | ⟨e, sign, c, r, rfl, he, hsign, hdigits⟩
  · cases rest with
    | nil => rfl
    | cons d r =>
      have hd : isExponentSign d = false := by
        have := hrest d rfl
        simp only [goesOn, Bool.or_eq_false_iff] at this
        exact this.2
      rw [List.nil_append, exponentOf, if_neg (by simp [hd])]
  · have hsignOf : signOf (sign ++ c :: (r ++ rest)) = sign :=
      signOf_append hsign (hdigits c List.mem_cons_self)
    have hrun : (c :: (r ++ rest)).takeWhile Char.isDigit = c :: r :=
      takeWhile_run hdigits hrest.digits
    have htext : e :: (sign ++ c :: r) ++ rest = e :: (sign ++ c :: (r ++ rest)) := by simp
    rw [htext, exponentOf, hsignOf, List.drop_left, hrun,
      if_pos ⟨he, List.cons_ne_nil c r⟩]

lemma Whole.head (h : Whole l) : l.head? ≠ some '-' := by
  rcases h with rfl | ⟨c, r, rfl, -, hdigits⟩
  · exact fun h => by cases h
  · intro h
    cases h
    exact absurd (hdigits '-' List.mem_cons_self) (by decide)

lemma Whole.ne_nil (h : Whole l) : l ≠ [] := by
  rcases h with rfl | ⟨c, r, rfl, -⟩
  · exact List.cons_ne_nil _ _
  · exact List.cons_ne_nil _ _

/-- A numeral is read, where the text does not go on with it. -/
lemma numeral_append (n : Numeral) (hrest : Stops goesOn rest) :
    numeral (n.text ++ rest) = some (n, rest) := by
  obtain ⟨negative, w, f, e, hw, hf, he⟩ := n
  have hafter : Stops Char.isDigit (f ++ (e ++ rest)) :=
    hf.stops (he.stops rfl rfl hrest.digits)
  have hwhole : wholeOf (w ++ (f ++ (e ++ rest))) = w := wholeOf_append hw hafter
  have hfraction : fractionOf (f ++ (e ++ rest)) = f :=
    fractionOf_append hf (he.stops rfl rfl hrest.digits)
      (he.stops rfl rfl (hrest.mono fun c hc => by simp [goesOn, of_decide_eq_true hc]))
  have hexponent : exponentOf (e ++ rest) = e := exponentOf_append he hrest
  have hunsigned : unsigned negative (w ++ (f ++ (e ++ rest))) =
      some (⟨negative, w, f, e, hw, hf, he⟩, rest) := by
    simp [unsigned, hwhole, hfraction, hexponent, hw.ne_nil]
  cases negative with
  | true => simpa [numeral, Numeral.text] using hunsigned
  | false => simpa [numeral, Numeral.text, hw.head, hw.ne_nil] using hunsigned

lemma wholeOf_drop (s : List Char) : wholeOf s ++ s.drop (wholeOf s).length = s := by
  rw [List.prefix_iff_eq_append.mp]
  cases s with
  | nil => exact List.nil_prefix
  | cons c r =>
    rw [wholeOf]
    split
    · next hc => exact hc ▸ List.cons_prefix_cons.mpr ⟨rfl, List.nil_prefix⟩
    · exact List.takeWhile_prefix _

lemma fractionOf_drop (s : List Char) : fractionOf s ++ s.drop (fractionOf s).length = s := by
  rw [List.prefix_iff_eq_append.mp]
  cases s with
  | nil => exact List.nil_prefix
  | cons c r =>
    rw [fractionOf]
    split
    · next h => exact h.1 ▸ List.cons_prefix_cons.mpr ⟨rfl, List.takeWhile_prefix _⟩
    · exact List.nil_prefix

lemma signOf_drop (s : List Char) : signOf s ++ s.drop (signOf s).length = s := by
  cases s with
  | nil => rfl
  | cons c r =>
    rw [signOf]
    split <;> rfl

lemma exponentOf_drop (s : List Char) : exponentOf s ++ s.drop (exponentOf s).length = s := by
  rw [List.prefix_iff_eq_append.mp]
  cases s with
  | nil => exact List.nil_prefix
  | cons c r =>
    rw [exponentOf]
    split
    · refine List.cons_prefix_cons.mpr ⟨rfl, ?_⟩
      have hdigits := List.takeWhile_prefix Char.isDigit (l := r.drop (signOf r).length)
      have hprefix := (List.prefix_append_right_inj (signOf r)).mpr hdigits
      rwa [signOf_drop] at hprefix
    · exact List.nil_prefix

lemma unsigned_sound {negative : Bool} {s r : List Char} {n : Numeral}
    (h : unsigned negative s = some (n, r)) :
    (if negative then ['-'] else []) ++ s = n.text ++ r := by
  rw [unsigned] at h
  split at h
  · obtain ⟨rfl, rfl⟩ := Prod.mk.inj (Option.some.inj h)
    simp only [Numeral.text, List.append_assoc, exponentOf_drop, fractionOf_drop, wholeOf_drop]
  · cases h

/-- A numeral that is read is at the front of the text. -/
lemma numeral_sound {s r : List Char} {n : Numeral} (h : numeral s = some (n, r)) :
    s = n.text ++ r := by
  rw [numeral] at h
  split at h
  · next hs =>
    rw [← unsigned_sound h]
    exact (List.cons_head?_tail hs).symm
  · exact unsigned_sound h

/-! ### Words -/

inductive Word
  | null | true | false | nan | infinity | negativeInfinity

namespace Word

def text : Word → List Char
  | null => ['n', 'u', 'l', 'l']
  | true => ['t', 'r', 'u', 'e']
  | false => ['f', 'a', 'l', 's', 'e']
  | nan => ['N', 'a', 'N']
  | infinity => ['I', 'n', 'f', 'i', 'n', 'i', 't', 'y']
  | negativeInfinity => ['-', 'I', 'n', 'f', 'i', 'n', 'i', 't', 'y']

def all : List Word := [null, true, false, nan, infinity, negativeInfinity]

end Word

def word (s : List Char) : Option (Word × List Char) :=
  (Word.all.find? fun w => w.text.isPrefixOf s).map fun w => (w, s.drop w.text.length)

lemma word_sound {s r : List Char} {w : Word} (h : word s = some (w, r)) : s = w.text ++ r := by
  obtain ⟨v, hv, heq⟩ := Option.map_eq_some_iff.mp h
  obtain ⟨rfl, rfl⟩ := Prod.mk.inj heq
  have hfound : v.text.isPrefixOf s = true := by simpa using List.find?_some hv
  exact (List.prefix_iff_eq_append.mp (List.isPrefixOf_iff_prefix.mp hfound)).symm

/-! ### String literals -/

/-- The escapes of one letter, and what they stand for. -/
def escapes : List (Char × Char) :=
  [('"', '"'), ('\\', '\\'), ('/', '/'), ('b', '\x08'), ('f', '\x0c'), ('n', '\n'), ('r', '\r'),
    ('t', '\t')]

def hexValue (c : Char) : Option ℕ :=
  if c.isDigit then some (c.toNat - 48)
  else if 97 ≤ c.toNat ∧ c.toNat ≤ 102 then some (c.toNat - 87)
  else if 65 ≤ c.toNat ∧ c.toNat ≤ 70 then some (c.toNat - 55)
  else none

/-- The value of four hexadecimal digits, and what follows them. -/
def hexCode : List Char → Option (ℕ × List Char)
  | a :: b :: c :: d :: r =>
    match hexValue a, hexValue b, hexValue c, hexValue d with
    | some k, some l, some m, some n => some (((k * 16 + l) * 16 + m) * 16 + n, r)
    | _, _, _, _ => none
  | _ => none

def isHighSurrogate (n : ℕ) : Bool := 0xd800 ≤ n && n ≤ 0xdbff
def isLowSurrogate (n : ℕ) : Bool := 0xdc00 ≤ n && n ≤ 0xdfff

/-- The character of a surrogate pair. -/
def paired (high low : ℕ) : Char := Char.ofNat (0x10000 + (high - 0xd800) * 0x400 + (low - 0xdc00))

/-- The low surrogate of an escape, and what follows it. -/
def lowSurrogate : List Char → Option (ℕ × List Char)
  | b :: u :: r =>
    if b = '\\' ∧ u = 'u' then (hexCode r).filter fun p => isLowSurrogate p.1 else none
  | _ => none

/-- The character of an escape by code, behind its `u`. A surrogate that is not one of a pair is no
character. -/
def coded (s : List Char) : Option (Char × List Char) :=
  (hexCode s).bind fun p =>
    if isHighSurrogate p.1 then (lowSurrogate p.2).map fun q => (paired p.1 q.1, q.2)
    else if isLowSurrogate p.1 then none
    else some (Char.ofNat p.1, p.2)

/-- The character of an escape, behind its backslash. -/
def escaped : List Char → Option (Char × List Char)
  | [] => none
  | e :: r => if e = 'u' then coded r else (escapes.lookup e).map fun d => (d, r)

/-- The next character of a string literal, or `none` at its closing quote. -/
def character : List Char → Option (Option Char × List Char)
  | [] => none
  | c :: r =>
    if c = '"' then some (none, r)
    else if c = '\\' then (escaped r).map fun p => (some p.1, p.2)
    else if c.toNat < 0x20 then none
    else some (some c, r)

/-- The rest of a string literal. -/
def characters : ℕ → List Char → Option (List Char × List Char)
  | 0, _ => none
  | fuel + 1, s => (character s).bind fun p =>
    match p.1 with
    | none => some ([], p.2)
    | some c => (characters fuel p.2).map fun q => (c :: q.1, q.2)

/-- The text of a character in a string literal. -/
inductive Spelled : Char → List Char → Prop
  | plain {c : Char} (hquote : c ≠ '"') (hslash : c ≠ '\\') (hcontrol : 0x20 ≤ c.toNat) :
    Spelled c [c]
  | letter {e d : Char} (he : e ≠ 'u') (hd : escapes.lookup e = some d) : Spelled d ['\\', e]
  | code {t : List Char} {n : ℕ} (ht : hexCode t = some (n, [])) (hhigh : isHighSurrogate n = false)
      (hlow : isLowSurrogate n = false) : Spelled (Char.ofNat n) ('\\' :: 'u' :: t)
  | pair {t u : List Char} {m n : ℕ} (ht : hexCode t = some (m, []))
      (hm : isHighSurrogate m = true) (hu : hexCode u = some (n, []))
      (hn : isLowSurrogate n = true) :
      Spelled (paired m n) ('\\' :: 'u' :: t ++ '\\' :: 'u' :: u)

/-- The text between the quotes of a string literal. -/
inductive Spells : List Char → List Char → Prop
  | nil : Spells [] []
  | cons {c : Char} {s t u : List Char} (hc : Spelled c t) (hs : Spells s u) :
      Spells (c :: s) (t ++ u)

lemma hexCode_cases {s r : List Char} {n : ℕ} (h : hexCode s = some (n, r)) :
    ∃ t, s = t ++ r ∧ ∀ rest, hexCode (t ++ rest) = some (n, rest) := by
  unfold hexCode at h
  split at h
  · next a b c d r' =>
    split at h
    · next ha hb hc hd =>
      obtain ⟨rfl, rfl⟩ := Prod.mk.inj (Option.some.inj h)
      exact ⟨[a, b, c, d], rfl, fun rest => by simp [hexCode, ha, hb, hc, hd]⟩
    · cases h
  · cases h

lemma hexCode_append {t : List Char} {n : ℕ} (h : hexCode t = some (n, [])) (rest : List Char) :
    hexCode (t ++ rest) = some (n, rest) := by
  obtain ⟨u, rfl, hu⟩ := hexCode_cases h
  rw [List.append_nil]
  exact hu rest

lemma coded_code {t : List Char} {n : ℕ} (ht : hexCode t = some (n, []))
    (hhigh : isHighSurrogate n = false) (hlow : isLowSurrogate n = false) (rest : List Char) :
    coded (t ++ rest) = some (Char.ofNat n, rest) := by
  simp [coded, hexCode_append ht, hhigh, hlow]

lemma coded_pair {t u : List Char} {m n : ℕ} (ht : hexCode t = some (m, []))
    (hm : isHighSurrogate m = true) (hu : hexCode u = some (n, [])) (hn : isLowSurrogate n = true)
    (rest : List Char) :
    coded (t ++ '\\' :: 'u' :: (u ++ rest)) = some (paired m n, rest) := by
  simp [coded, hexCode_append ht, hm, lowSurrogate, hexCode_append hu, hn, Option.filter]

lemma lowSurrogate_sound {s r : List Char} {n : ℕ} (h : lowSurrogate s = some (n, r)) :
    ∃ u, s = '\\' :: 'u' :: (u ++ r) ∧ hexCode u = some (n, []) ∧ isLowSurrogate n = true := by
  unfold lowSurrogate at h
  split at h
  · split at h
    · next hbu =>
      obtain ⟨rfl, rfl⟩ := hbu
      obtain ⟨hcode, hlow⟩ := Option.filter_eq_some_iff.mp h
      obtain ⟨u, rfl, hu⟩ := hexCode_cases hcode
      exact ⟨u, rfl, by simpa using hu [], by simpa using hlow⟩
    · cases h
  · cases h

lemma coded_sound {s r : List Char} {c : Char} (h : coded s = some (c, r)) :
    ∃ t, s = t ++ r ∧ Spelled c ('\\' :: 'u' :: t) := by
  obtain ⟨⟨n, s'⟩, hcode, hrest⟩ := Option.bind_eq_some_iff.mp h
  obtain ⟨t, rfl, ht⟩ := hexCode_cases hcode
  have ht : hexCode t = some (n, []) := by simpa using ht []
  split at hrest
  · next hhigh =>
    obtain ⟨⟨m, r'⟩, hlow, heq⟩ := Option.map_eq_some_iff.mp hrest
    obtain ⟨rfl, rfl⟩ := Prod.mk.inj heq
    obtain ⟨u, rfl, hu, hm⟩ := lowSurrogate_sound hlow
    exact ⟨t ++ '\\' :: 'u' :: u, by simp, .pair ht hhigh hu hm⟩
  · next hhigh =>
    split at hrest
    · cases hrest
    · next hlow =>
      obtain ⟨rfl, rfl⟩ := Prod.mk.inj (Option.some.inj hrest)
      exact ⟨t, rfl, .code ht (by simpa using hhigh) (by simpa using hlow)⟩

lemma character_append {c : Char} {t : List Char} (h : Spelled c t) (rest : List Char) :
    character (t ++ rest) = some (some c, rest) := by
  cases h with
  | plain hquote hslash hcontrol =>
    simp [character, hquote, hslash, Nat.not_lt.mpr hcontrol]
  | letter he hd => simp [character, escaped, he, hd]
  | code ht hhigh hlow => simp [character, escaped, coded_code ht hhigh hlow]
  | pair ht hm hu hn => simp [character, escaped, coded_pair ht hm hu hn]

lemma character_sound {s r : List Char} {c : Char} (h : character s = some (some c, r)) :
    ∃ t, s = t ++ r ∧ Spelled c t := by
  unfold character at h
  split at h
  · cases h
  next d s =>
  split at h
  · cases h
  next hquote =>
  split at h
  · next hslash =>
    obtain ⟨⟨e, r'⟩, he, heq⟩ := Option.map_eq_some_iff.mp h
    obtain ⟨hc, rfl⟩ := Prod.mk.inj heq
    obtain rfl := Option.some.inj hc
    subst hslash
    unfold escaped at he
    split at he
    · cases he
    next x s =>
    split at he
    · next hx =>
      obtain ⟨t, rfl, ht⟩ := coded_sound he
      exact ⟨'\\' :: 'u' :: t, by simp [hx], ht⟩
    · next hx =>
      obtain ⟨y, hy, heq⟩ := Option.map_eq_some_iff.mp he
      obtain ⟨rfl, rfl⟩ := Prod.mk.inj heq
      exact ⟨['\\', x], rfl, .letter hx hy⟩
  next hslash =>
  split at h
  · cases h
  next hcontrol =>
  obtain ⟨hc, rfl⟩ := Prod.mk.inj (Option.some.inj h)
  obtain rfl := Option.some.inj hc
  exact ⟨[d], rfl, .plain hquote hslash (Nat.not_lt.mp hcontrol)⟩

lemma character_end {s r : List Char} (h : character s = some (none, r)) : s = '"' :: r := by
  unfold character at h
  split at h
  · cases h
  split at h
  · next hquote =>
    obtain ⟨-, rfl⟩ := Prod.mk.inj (Option.some.inj h)
    rw [hquote]
  split at h
  · obtain ⟨p, -, hp⟩ := Option.map_eq_some_iff.mp h
    cases hp
  split at h <;> cases h

lemma Spelled.ne_nil {c : Char} {t : List Char} (h : Spelled c t) : t ≠ [] := by
  cases h <;> exact List.cons_ne_nil _ _

/-- A string literal is read, with as much fuel as it is long. -/
lemma characters_append {s t : List Char} (h : Spells s t) (rest : List Char) {fuel : ℕ}
    (hfuel : t.length < fuel) : characters fuel (t ++ '"' :: rest) = some (s, rest) := by
  induction h generalizing fuel with
  | nil =>
    obtain ⟨n, rfl⟩ := Nat.exists_eq_add_of_lt hfuel
    rfl
  | @cons c s t u hc _ ih =>
    have hpos := List.length_pos_iff.mpr hc.ne_nil
    rw [List.length_append] at hfuel
    obtain ⟨n, rfl⟩ : ∃ n, fuel = n + 1 := ⟨fuel - 1, by omega⟩
    have hnext : characters n (u ++ '"' :: rest) = some (s, rest) := ih (by omega)
    rw [List.append_assoc, characters, character_append hc]
    simp [hnext]

lemma characters_sound {fuel : ℕ} {s r t : List Char} (h : characters fuel t = some (s, r)) :
    ∃ u, t = u ++ '"' :: r ∧ Spells s u := by
  induction fuel generalizing s t with
  | zero => cases h
  | succ n ih =>
    obtain ⟨⟨c, t'⟩, hc, h⟩ := Option.bind_eq_some_iff.mp h
    cases c with
    | none =>
      obtain ⟨rfl, rfl⟩ := Prod.mk.inj (Option.some.inj h)
      exact ⟨[], character_end hc, .nil⟩
    | some c =>
      obtain ⟨⟨s', r'⟩, hs, heq⟩ := Option.map_eq_some_iff.mp h
      obtain ⟨rfl, rfl⟩ := Prod.mk.inj heq
      obtain ⟨v, rfl, hv⟩ := character_sound hc
      obtain ⟨u, rfl, hu⟩ := ih hs
      exact ⟨v ++ u, by simp, .cons hv hu⟩

/-! ### Rows -/

section Rows

variable {α : Type}

/-- Items separated by commas, from the first one on. -/
inductive Row (R : α → List Char → Prop) : List α → List Char → Prop
  | last {x : α} {t w : List Char} (hx : R x t) (hw : Blank w) : Row R [x] (t ++ w)
  | more {x : α} {l : List α} {t u v w : List Char} (hx : R x t) (hw : Blank w) (hv : Blank v)
      (hl : Row R l u) : Row R (x :: l) (t ++ (w ++ ',' :: (v ++ u)))

/-- What stands between the brackets of a list. -/
inductive Listed (R : α → List Char → Prop) : List α → List Char → Prop
  | empty {w : List Char} (hw : Blank w) : Listed R [] w
  | row {l : List α} {v t : List Char} (hv : Blank v) (hl : Row R l t) : Listed R l (v ++ t)

/-- Items up to the closing bracket, from the first one on. -/
def row (item : List Char → Option (α × List Char)) (close : Char) :
    ℕ → List Char → Option (List α × List Char)
  | 0, _ => none
  | fuel + 1, s => (item s).bind fun p =>
    match skip p.2 with
    | [] => none
    | c :: r =>
      if c = close then some ([p.1], r)
      else if c = ',' then (row item close fuel (skip r)).map fun q => (p.1 :: q.1, q.2)
      else none

/-- The items of a list, behind its opening bracket. -/
def listed (item : List Char → Option (α × List Char)) (close : Char) (fuel : ℕ) (s : List Char) :
    Option (List α × List Char) :=
  match skip s with
  | [] => none
  | c :: r => if c = close then some ([], r) else row item close fuel (c :: r)

variable {R : α → List Char → Prop} {item : List Char → Option (α × List Char)} {close : Char}

/-- What may follow a value. -/
def Apart (rest : List Char) : Prop := Stops goesOn rest

/-- The reader reads the item at the front of a text, where something else follows. -/
def Reads (item : List Char → Option (α × List Char)) (x : α) (t : List Char) : Prop :=
  ∀ rest, Apart rest → item (t ++ rest) = some (x, rest)

/-- A closing bracket. -/
structure Closes (close : Char) : Prop where
  blank : isBlank close = false
  apart : goesOn close = false
  comma : close ≠ ','

lemma Blank.apart {w rest : List Char} (hw : Blank w) (hrest : Apart rest) : Apart (w ++ rest) := by
  refine stops_append (fun hne => ?_) hrest
  obtain ⟨d, ds, rfl⟩ := List.exists_cons_of_ne_nil hne
  refine stops_cons ?_
  have hd := hw d List.mem_cons_self
  simp only [isBlank, Bool.or_eq_true, decide_eq_true_eq] at hd
  rcases hd with ((rfl | rfl) | rfl) | rfl <;> rfl

/-- The first character of every item is no blank. -/
def Starts (R : α → List Char → Prop) (close : Char) : Prop :=
  ∀ x t, R x t → ∃ c r, t = c :: r ∧ isBlank c = false ∧ c ≠ close

lemma Row.starts (hR : Starts R close) {l : List α} {t : List Char} (h : Row R l t) :
    ∃ c r, t = c :: r ∧ isBlank c = false ∧ c ≠ close := by
  cases h with
  | last hx hw =>
    obtain ⟨c, r, rfl, hc⟩ := hR _ _ hx
    exact ⟨c, _, List.cons_append, hc⟩
  | more hx hw hv hl =>
    obtain ⟨c, r, rfl, hc⟩ := hR _ _ hx
    exact ⟨c, _, List.cons_append, hc⟩

lemma Row.mono {S : α → List Char → Prop} {l : List α} {t : List Char} (h : Row R l t)
    (hS : ∀ x ∈ l, ∀ u, u.length ≤ t.length → R x u → S x u) : Row S l t := by
  induction h with
  | last hx hw =>
    exact .last (hS _ List.mem_cons_self _ (by simp) hx) hw
  | more hx hw hv hl ih =>
    refine .more (hS _ List.mem_cons_self _ (by simp) hx) hw hv (ih fun x hx u hu => ?_)
    refine hS x (List.mem_cons_of_mem _ hx) u (Nat.le_trans hu ?_)
    simp only [List.length_append, List.length_cons]
    omega

lemma row_append (hclose : Closes close) (hR : Starts R close) {l : List α} {t : List Char}
    (h : Row R l t) (hreads : ∀ x ∈ l, ∀ u, u.length ≤ t.length → R x u → Reads item x u)
    {fuel : ℕ} (hfuel : t.length < fuel) (rest : List Char) :
    row item close fuel (t ++ close :: rest) = some (l, rest) := by
  induction h generalizing fuel with
  | @last x t w hx hw =>
    obtain ⟨n, rfl⟩ : ∃ n, fuel = n + 1 := ⟨fuel - 1, by omega⟩
    have hapart : Apart (w ++ close :: rest) := hw.apart (stops_cons hclose.apart)
    have hitem := hreads _ List.mem_cons_self _ (by simp) hx _ hapart
    rw [List.append_assoc, row, hitem]
    simp [skip_blank hw (stops_cons hclose.blank)]
  | @more x l t u v w hx hw hv hl ih =>
    simp only [List.length_append, List.length_cons] at hfuel hreads
    obtain ⟨n, rfl⟩ : ∃ n, fuel = n + 1 := ⟨fuel - 1, by omega⟩
    have hapart : Apart (w ++ ',' :: (v ++ (u ++ close :: rest))) :=
      hw.apart (stops_cons rfl)
    have hitem := hreads _ List.mem_cons_self _ (by omega) hx _ hapart
    have hnext : row item close n (u ++ close :: rest) = some (l, rest) :=
      ih (fun y hy u' hu' => hreads y (List.mem_cons_of_mem _ hy) u' (by omega)) (by omega)
    obtain ⟨c, r, rfl, hc, -⟩ := hl.starts hR
    have hskip : skip (v ++ (c :: r ++ close :: rest)) = c :: r ++ close :: rest :=
      skip_blank hv (stops_cons hc)
    have htext : t ++ (w ++ ',' :: (v ++ c :: r)) ++ close :: rest =
        t ++ (w ++ ',' :: (v ++ (c :: r ++ close :: rest))) := by simp
    have hcomma : skip (w ++ ',' :: (v ++ (c :: r ++ close :: rest))) =
        ',' :: (v ++ (c :: r ++ close :: rest)) := skip_blank hw (stops_cons rfl)
    rw [htext, row, hitem, Option.bind_some, hcomma]
    dsimp only
    rw [if_neg hclose.comma.symm, if_pos rfl, hskip, hnext]
    rfl

/-- A list is read, where its items are. -/
lemma listed_append (hclose : Closes close) (hR : Starts R close) {l : List α} {t : List Char}
    (h : Listed R l t) (hreads : ∀ x ∈ l, ∀ u, u.length ≤ t.length → R x u → Reads item x u)
    {fuel : ℕ} (hfuel : t.length < fuel) (rest : List Char) :
    listed item close fuel (t ++ close :: rest) = some (l, rest) := by
  cases h with
  | empty hw => simp [listed, skip_blank hw (stops_cons hclose.blank)]
  | @row l v t hv hl =>
    rw [List.length_append] at hfuel
    have hrow : row item close fuel (t ++ close :: rest) = some (l, rest) :=
      row_append hclose hR hl (fun x hx u hu => hreads x hx u (by simp; omega)) (by omega) rest
    obtain ⟨c, r, rfl, hc, hne⟩ := hl.starts hR
    have hskip : skip (v ++ (c :: r ++ close :: rest)) = c :: r ++ close :: rest :=
      skip_blank hv (stops_cons hc)
    rw [List.append_assoc, listed, hskip, List.cons_append]
    dsimp only
    rw [if_neg hne]
    exact hrow

/-- What is read is at the front of the text. -/
def Sound (item : List Char → Option (α × List Char)) (R : α → List Char → Prop) : Prop :=
  ∀ s x r, item s = some (x, r) → ∃ t, s = t ++ r ∧ R x t

lemma row_sound (hitem : Sound item R) {fuel : ℕ} {s r : List Char} {l : List α}
    (h : row item close fuel s = some (l, r)) : ∃ t, s = t ++ close :: r ∧ Row R l t := by
  induction fuel generalizing s l with
  | zero => cases h
  | succ n ih =>
    obtain ⟨⟨x, s'⟩, hx, hnext⟩ := Option.bind_eq_some_iff.mp h
    obtain ⟨t, rfl, ht⟩ := hitem _ _ _ hx
    obtain ⟨w, hw, hs'⟩ := exists_blank s'
    split at hnext
    · cases hnext
    next c r' hskip =>
    rw [hs', hskip]
    split at hnext
    · next hc =>
      obtain ⟨rfl, rfl⟩ := Prod.mk.inj (Option.some.inj hnext)
      exact ⟨t ++ w, by simp [hc], .last ht hw⟩
    split at hnext
    · next hc =>
      obtain ⟨⟨l', r''⟩, hl, heq⟩ := Option.map_eq_some_iff.mp hnext
      obtain ⟨rfl, rfl⟩ := Prod.mk.inj heq
      obtain ⟨v, hv, hr'⟩ := exists_blank r'
      obtain ⟨u, hu, hrow⟩ := ih hl
      refine ⟨t ++ (w ++ ',' :: (v ++ u)), ?_, .more ht hw hv hrow⟩
      rw [hr', hu, hc]
      simp
    · cases hnext

lemma listed_sound (hitem : Sound item R) {fuel : ℕ} {s r : List Char} {l : List α}
    (h : listed item close fuel s = some (l, r)) : ∃ t, s = t ++ close :: r ∧ Listed R l t := by
  obtain ⟨v, hv, hs⟩ := exists_blank s
  unfold listed at h
  split at h
  · cases h
  next c r' hskip =>
  split at h
  · next hc =>
    obtain ⟨rfl, rfl⟩ := Prod.mk.inj (Option.some.inj h)
    exact ⟨v, by rw [hs, hskip, hc], .empty hv⟩
  · obtain ⟨t, ht, hrow⟩ := row_sound hitem h
    exact ⟨v ++ t, by rw [hs, hskip, ht, List.append_assoc], .row hv hrow⟩

end Rows

end Orchestrator.Lib.JsonText
