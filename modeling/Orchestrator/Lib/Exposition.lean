import Mathlib

/-!
The text exposition format of metrics: a sample a line, with its label values quoted and escaped.

Blanks may stand between the tokens of a line. They do not count in its weight, and a sample bounds
the weight of the lines that it can be read from. So a text that is lighter than its samples does
not expose them.
-/

namespace Orchestrator.Lib.Exposition

/-- A sample of a metric, whose value is an integer. -/
structure Sample where
  name : String
  labels : List (String × String)
  value : ℤ

/-! ### Label values -/

/-- What a text between quotes stands for. It has no line feed, no quote and no backslash but in the
three escapes. -/
def unescape : List Char → Option (List Char)
  | [] => some []
  | '\\' :: '\\' :: l => (unescape l).map fun r => '\\' :: r
  | '\\' :: '"' :: l => (unescape l).map fun r => '"' :: r
  | '\\' :: 'n' :: l => (unescape l).map fun r => '\n' :: r
  | '\\' :: _ => none
  | '"' :: _ => none
  | '\n' :: _ => none
  | c :: l => (unescape l).map fun r => c :: r

def isSpecial (c : Char) : Bool := c = '\\' || c = '"' || c = '\n'

def escapeChar (c : Char) : List Char :=
  if c = '\\' then ['\\', '\\'] else if c = '"' then ['\\', '"']
  else if c = '\n' then ['\\', 'n'] else [c]

def escape (l : List Char) : List Char := l.flatMap escapeChar

lemma unescape_cons {c : Char} (hc : isSpecial c = false) (l : List Char) :
    unescape (c :: l) = (unescape l).map fun r => c :: r := by
  simp only [isSpecial, Bool.or_eq_false_iff, decide_eq_false_iff_not] at hc
  obtain ⟨⟨h1, h2⟩, h3⟩ := hc
  rw [unescape.eq_def]
  split <;> simp_all

lemma escapeChar_plain {c : Char} (hc : isSpecial c = false) : escapeChar c = [c] := by
  simp only [isSpecial, Bool.or_eq_false_iff, decide_eq_false_iff_not] at hc
  rw [escapeChar, if_neg hc.1.1, if_neg hc.1.2, if_neg hc.2]

lemma escape_cons (c : Char) (l : List Char) : escape (c :: l) = escapeChar c ++ escape l :=
  List.flatMap_cons

lemma escape_plain {l : List Char} (h : ∀ c ∈ l, isSpecial c = false) : escape l = l := by
  induction l with
  | nil => rfl
  | cons c l ih =>
    rw [List.forall_mem_cons] at h
    rw [escape_cons, escapeChar_plain h.1, ih h.2, List.singleton_append]

lemma unescape_escape (l : List Char) : unescape (escape l) = some l := by
  induction l with
  | nil => rfl
  | cons c l ih =>
    rw [escape_cons]
    cases hc : isSpecial c with
    | false =>
      rw [escapeChar_plain hc, List.singleton_append, unescape_cons hc, ih]
      rfl
    | true =>
      simp only [isSpecial, Bool.or_eq_true, decide_eq_true_eq] at hc
      obtain (rfl | rfl) | rfl := hc
      · exact congrArg (Option.map _) ih
      · exact congrArg (Option.map _) ih
      · exact congrArg (Option.map _) ih

/-- A text that stands for a value is the escaped value. -/
lemma eq_escape {raw : List Char} : ∀ {l : List Char}, unescape raw = some l → raw = escape l := by
  induction raw using unescape.induct with
  | case1 =>
    rintro l h
    cases h
    rfl
  | case2 raw ih | case3 raw ih | case4 raw ih =>
    intro l h
    rw [unescape, Option.map_eq_some_iff] at h
    obtain ⟨r, hr, rfl⟩ := h
    rw [ih hr]
    rfl
  | case5 | case6 | case7 =>
    intro l h
    simp [unescape] at h
  | case8 c raw _ _ _ hbackslash hquote hfeed ih =>
    intro l h
    have hc : isSpecial c = false := by
      simp only [isSpecial, Bool.or_eq_false_iff, decide_eq_false_iff_not]
      exact ⟨⟨hbackslash, hquote⟩, hfeed⟩
    rw [unescape_cons hc, Option.map_eq_some_iff] at h
    obtain ⟨r, hr, rfl⟩ := h
    rw [escape_cons, escapeChar_plain hc, ih hr, List.singleton_append]

lemma notMem_escape (l : List Char) : '\n' ∉ escape l := by
  intro h
  obtain ⟨c, -, hc⟩ := List.mem_flatMap.mp h
  unfold escapeChar at hc
  split at hc
  · simp at hc
  split at hc
  · simp at hc
  split at hc
  · simp at hc
  next hfeed => exact hfeed (List.mem_singleton.mp hc).symm

/-! ### Lines -/

def isLabelName (s : String) : Bool :=
  match s.toList with
  | [] => false
  | c :: l => (c.isAlpha || c = '_') && l.all fun c => c.isAlphanum || c = '_'

def isMetricName (s : String) : Bool :=
  match s.toList with
  | [] => false
  | c :: l => (c.isAlpha || c = '_' || c = ':') && l.all fun c => c.isAlphanum || c = '_' || c = ':'

def valueText (n : ℤ) : List Char := (toString n).toList

def isBlank (c : Char) : Bool := c = ' ' || c = '\t'

def Blanks (l : List Char) : Prop := ∀ c ∈ l, isBlank c = true

/-- `name="value"` -/
def LabelText (l : List Char) (x : String × String) : Prop :=
  isLabelName x.1 = true ∧ ∃ b₀ b₁ b₂ raw, Blanks b₀ ∧ Blanks b₁ ∧ Blanks b₂ ∧
    unescape raw = some x.2.toList ∧ l = b₀ ++ x.1.toList ++ b₁ ++ '=' :: b₂ ++ '"' :: raw ++ ['"']

/-- Labels with commas between them, and perhaps one after the last. -/
inductive LabelsText : List Char → List (String × String) → Prop
  | nil {b : List Char} (h : Blanks b) : LabelsText b []
  | last {l b : List Char} {x : String × String} (hx : LabelText l x) (hb : Blanks b) :
      LabelsText (l ++ b) [x]
  | cons {l b l' : List Char} {x : String × String} {xs : List (String × String)}
      (hx : LabelText l x) (hb : Blanks b) (hxs : LabelsText l' xs) :
      LabelsText (l ++ b ++ ',' :: l') (x :: xs)

/-- What stands between the name and the value: the labels in braces, or a blank. -/
inductive Middle : List Char → List (String × String) → Prop
  | braces {l : List Char} {xs : List (String × String)} (h : LabelsText l xs) :
      Middle ('{' :: l ++ ['}']) xs
  | blank {b : Char} (h : isBlank b = true) : Middle [b] []

/-- The line is a well-formed one, and it is read as the sample. -/
def SampleText (line : List Char) (s : Sample) : Prop :=
  isMetricName s.name = true ∧ (s.labels.map Prod.fst).Nodup ∧ ∃ b₀ b₁ m b₂ b₃,
    Blanks b₀ ∧ Blanks b₁ ∧ Middle m s.labels ∧ Blanks b₂ ∧ Blanks b₃ ∧
      line = b₀ ++ s.name.toList ++ b₁ ++ m ++ b₂ ++ valueText s.value ++ b₃

/-- Each line of the text is well-formed, and they are read as the samples. -/
def Exposes (text : List Char) (samples : List Sample) : Prop :=
  ∃ lines : List (List Char), (∀ line ∈ lines, '\n' ∉ line) ∧
    text = lines.flatMap (fun line => line ++ ['\n']) ∧ List.Forall₂ SampleText lines samples

/-! ### Lines without needless blanks -/

def labelText (x : String × String) : List Char :=
  x.1.toList ++ '=' :: '"' :: escape x.2.toList ++ ['"']

def labelsText (xs : List (String × String)) : List Char := [','].intercalate (xs.map labelText)

/-- The line of a sample. -/
def render (s : Sample) : List Char :=
  s.name.toList ++ (if s.labels = [] then [] else '{' :: labelsText s.labels ++ ['}']) ++
    ' ' :: valueText s.value

structure Sample.Valid (s : Sample) : Prop where
  name : isMetricName s.name = true
  labels : ∀ x ∈ s.labels, isLabelName x.1 = true
  distinct : (s.labels.map Prod.fst).Nodup

lemma blanks_nil : Blanks [] := fun _ h => absurd h List.not_mem_nil

lemma labelText_render {x : String × String} (h : isLabelName x.1 = true) :
    LabelText (labelText x) x :=
  ⟨h, [], [], [], escape x.2.toList, blanks_nil, blanks_nil, blanks_nil, unescape_escape _, by
    simp [labelText]⟩

lemma labelsText_cons {x : String × String} {xs : List (String × String)} (h : xs ≠ []) :
    labelsText (x :: xs) = labelText x ++ ',' :: labelsText xs := by
  rw [labelsText, List.map_cons, List.intercalate_cons_of_ne_nil (by simpa using h),
    List.append_assoc, List.singleton_append]
  rfl

lemma labelsText_render {xs : List (String × String)} (h : ∀ x ∈ xs, isLabelName x.1 = true) :
    LabelsText (labelsText xs) xs := by
  induction xs with
  | nil => exact .nil blanks_nil
  | cons x xs ih =>
    rw [List.forall_mem_cons] at h
    have hx := labelText_render h.1
    by_cases hxs : xs = []
    · subst hxs
      have hlast := LabelsText.last hx blanks_nil
      simpa [labelsText] using hlast
    · have hcons := LabelsText.cons hx blanks_nil (ih h.2)
      rwa [labelsText_cons hxs, ← List.append_nil (labelText x)]

lemma sampleText_render {s : Sample} (h : s.Valid) : SampleText (render s) s := by
  refine ⟨h.name, h.distinct, ?_⟩
  by_cases hlabels : s.labels = []
  · refine ⟨[], [], [' '], [], [], blanks_nil, blanks_nil, ?_, blanks_nil, blanks_nil, ?_⟩
    · rw [hlabels]
      exact .blank rfl
    · simp [render, hlabels]
  · refine ⟨[], [], _, [' '], [], blanks_nil, blanks_nil, .braces (labelsText_render h.labels), ?_,
      blanks_nil, ?_⟩
    · exact List.forall_mem_singleton.mpr rfl
    · simp [render, hlabels]

lemma notMem_labelName {s : String} (h : isLabelName s = true) : '\n' ∉ s.toList := by
  rw [isLabelName] at h
  intro hmem
  split at h
  · cases h
  next c l heq =>
    rw [heq, List.mem_cons] at hmem
    rw [Bool.and_eq_true, List.all_eq_true] at h
    rcases hmem with rfl | hmem
    · exact absurd h.1 (by decide)
    · exact absurd (h.2 _ hmem) (by decide)

lemma notMem_metricName {s : String} (h : isMetricName s = true) : '\n' ∉ s.toList := by
  rw [isMetricName] at h
  intro hmem
  split at h
  · cases h
  next c l heq =>
    rw [heq, List.mem_cons] at hmem
    rw [Bool.and_eq_true, List.all_eq_true] at h
    rcases hmem with rfl | hmem
    · exact absurd h.1 (by decide)
    · exact absurd (h.2 _ hmem) (by decide)

lemma notMem_valueText (n : ℤ) : '\n' ∉ valueText n := by
  have hnat : ∀ m : ℕ, '\n' ∉ (toString m).toList := by
    intro m h
    rw [Nat.toString_eq_repr, Nat.toList_repr] at h
    exact absurd (Nat.isDigit_of_mem_toDigits (by decide) (by decide) h) (by decide)
  cases n with
  | ofNat m => exact hnat m
  | negSucc m =>
    have htext : valueText (Int.negSucc m) = '-' :: (toString (m + 1)).toList := by
      simp [valueText, toString, Int.repr]
    rw [htext, List.mem_cons, not_or]
    exact ⟨by decide, hnat (m + 1)⟩

lemma notMem_labelsText {xs : List (String × String)} (h : ∀ x ∈ xs, isLabelName x.1 = true) :
    '\n' ∉ labelsText xs := by
  induction xs with
  | nil => exact List.not_mem_nil
  | cons x xs ih =>
    rw [List.forall_mem_cons] at h
    have hx : '\n' ∉ labelText x := by
      simp [labelText, notMem_labelName h.1, notMem_escape]
    by_cases hxs : xs = []
    · subst hxs
      simpa [labelsText] using hx
    · rw [labelsText_cons hxs]
      simp [hx, ih h.2]

lemma notMem_render {s : Sample} (h : s.Valid) : '\n' ∉ render s := by
  have hname := notMem_metricName h.name
  have hlabels := notMem_labelsText h.labels
  have hvalue := notMem_valueText s.value
  rw [render]
  split <;> simp [hname, hlabels, hvalue]

/-- **The lines of samples** expose them. -/
theorem exposes_render {samples : List Sample} (h : ∀ s ∈ samples, s.Valid) :
    Exposes (samples.flatMap fun s => render s ++ ['\n']) samples := by
  refine ⟨samples.map render, ?_, ?_, ?_⟩
  · rw [List.forall_mem_map]
    exact fun s hs => notMem_render (h s hs)
  · rw [List.flatMap_map]
  · rw [List.forall₂_map_left_iff, List.forall₂_same]
    exact fun s hs => sampleText_render (h s hs)

/-! ### Weights -/

/-- The number of the characters that are not blank. -/
def weight (l : List Char) : ℕ := l.countP fun c => !isBlank c

@[simp] lemma weight_nil : weight [] = 0 := rfl
@[simp] lemma weight_append (l r : List Char) : weight (l ++ r) = weight l + weight r :=
  List.countP_append
@[simp] lemma weight_cons (c : Char) (l : List Char) :
    weight (c :: l) = weight l + if isBlank c then 0 else 1 := by
  rw [weight, List.countP_cons, weight]
  cases isBlank c <;> rfl

lemma weight_blanks {b : List Char} (h : Blanks b) : weight b = 0 :=
  List.countP_eq_zero.mpr fun c hc => by simp [h c hc]

lemma weight_labelText {l : List Char} {x : String × String} (h : LabelText l x) :
    weight l = weight (labelText x) := by
  obtain ⟨-, b₀, b₁, b₂, raw, h₀, h₁, h₂, hraw, rfl⟩ := h
  simp [labelText, weight_blanks h₀, weight_blanks h₁, weight_blanks h₂, eq_escape hraw]

lemma weight_labelsText {l : List Char} {xs : List (String × String)} (h : LabelsText l xs) :
    weight (labelsText xs) ≤ weight l := by
  induction h with
  | nil _ => exact Nat.zero_le _
  | last hx hb => simp [labelsText, weight_labelText hx]
  | @cons l b l' x xs hx hb hxs ih =>
    by_cases hempty : xs = []
    · subst hempty
      simp [labelsText, weight_labelText hx]
    · rw [labelsText_cons hempty]
      simp only [weight_append, weight_cons, weight_labelText hx, weight_blanks hb]
      omega

/-- **The weight of a line** is at least that of its sample. -/
theorem weight_sampleText {line : List Char} {s : Sample} (h : SampleText line s) :
    weight (render s) ≤ weight line := by
  obtain ⟨-, -, b₀, b₁, m, b₂, b₃, h₀, h₁, hm, h₂, h₃, rfl⟩ := h
  have hmiddle : weight (if s.labels = [] then [] else '{' :: labelsText s.labels ++ ['}']) ≤
      weight m := by
    generalize s.labels = xs at hm
    cases hm with
    | blank hb => simp
    | braces hxs =>
      have hlabels := weight_labelsText hxs
      split
      · exact Nat.zero_le _
      · simp only [List.cons_append, weight_cons, weight_append]
        omega
  have hblank : isBlank ' ' = true := rfl
  simp only [render, weight_append, weight_cons, weight_blanks h₀, weight_blanks h₁,
    weight_blanks h₂, weight_blanks h₃, hblank, if_true]
  omega

/-- A text that exposes samples is not lighter than their lines. -/
lemma weight_exposes {text : List Char} {samples : List Sample} (h : Exposes text samples) :
    (samples.map fun s => weight (render s) + 1).sum ≤ weight text := by
  obtain ⟨lines, -, rfl, hlines⟩ := h
  induction hlines with
  | nil => exact Nat.zero_le _
  | cons hline _ ih =>
    have hweight := weight_sampleText hline
    have hfeed : isBlank '\n' = false := rfl
    simp only [List.map_cons, List.sum_cons, List.flatMap_cons, weight_append, weight_cons, hfeed,
      weight_nil]
    simp only [Bool.false_eq_true, if_false]
    omega

/-- The lines end with line feeds. -/
def textOfLines (lines : List (List Char)) : List Char := lines.flatMap fun line => line ++ ['\n']

/-- The line is that of the sample, or lighter. -/
def Lighter (line : List Char) (s : Sample) : Prop :=
  line = render s ∨ weight line < weight (render s)

lemma weight_textOfLines_cons (line : List Char) (lines : List (List Char)) :
    weight (textOfLines (line :: lines)) = weight line + 1 + weight (textOfLines lines) := by
  have hfeed : isBlank '\n' = false := rfl
  rw [textOfLines, List.flatMap_cons, weight_append, weight_append, weight_cons, hfeed]
  rfl

lemma weight_textOfLines_render (samples : List Sample) :
    weight (textOfLines (samples.map render)) =
      (samples.map fun s => weight (render s) + 1).sum := by
  induction samples with
  | nil => rfl
  | cons s samples ih =>
    rw [List.map_cons, weight_textOfLines_cons, ih, List.map_cons, List.sum_cons]

lemma weight_textOfLines {lines : List (List Char)} {samples : List Sample}
    (h : List.Forall₂ Lighter lines samples) : lines = samples.map render ∨
      weight (textOfLines lines) < weight (textOfLines (samples.map render)) := by
  induction h with
  | nil => exact Or.inl rfl
  | @cons line s lines samples hline _ ih =>
    rw [List.map_cons, weight_textOfLines_cons, weight_textOfLines_cons]
    rcases ih with rfl | ih <;> rcases hline with rfl | hlt
    · exact Or.inl rfl
    all_goals exact Or.inr (by omega)

/-- **A text of lines that are no heavier** exposes the samples just if its lines are theirs. -/
theorem exposes_iff {lines : List (List Char)} {samples : List Sample}
    (hvalid : ∀ s ∈ samples, s.Valid) (h : List.Forall₂ Lighter lines samples) :
    Exposes (textOfLines lines) samples ↔ lines = samples.map render := by
  constructor
  · intro hexposes
    refine (weight_textOfLines h).resolve_right fun hlt => ?_
    rw [weight_textOfLines_render] at hlt
    exact absurd (weight_exposes hexposes) (not_le.mpr hlt)
  · rintro rfl
    rw [textOfLines, List.flatMap_map]
    exact exposes_render hvalid

/-! ### A parser of labels -/

def isNameChar (c : Char) : Bool := c.isAlphanum || c = '_'

/-- A label value up to its closing quote, and what comes after the quote. -/
def readValue : List Char → Option (List Char × List Char)
  | [] => none
  | '"' :: l => some ([], l)
  | '\\' :: '\\' :: l => (readValue l).map fun v => ('\\' :: v.1, v.2)
  | '\\' :: '"' :: l => (readValue l).map fun v => ('"' :: v.1, v.2)
  | '\\' :: 'n' :: l => (readValue l).map fun v => ('\n' :: v.1, v.2)
  | '\\' :: _ => none
  | '\n' :: _ => none
  | c :: l => (readValue l).map fun v => (c :: v.1, v.2)

/-- What comes after blanks and the character `c`. -/
def expect (c : Char) (l : List Char) : Option (List Char) :=
  match l.dropWhile isBlank with
  | [] => none
  | d :: l => if d = c then some l else none

/-- A label, and what comes after it. -/
def readLabel (l : List Char) : Option ((String × String) × List Char) :=
  let l := l.dropWhile isBlank
  let name := String.ofList (l.takeWhile isNameChar)
  if isLabelName name then
    (expect '=' (l.dropWhile isNameChar)).bind fun l =>
      (expect '"' l).bind fun l =>
        (readValue l).map fun v => ((name, String.ofList v.1), v.2)
  else none

/-- Labels with commas between them, at most `fuel` of them. -/
def readLabels : ℕ → List Char → Option (List (String × String))
  | 0, l => if l.all isBlank then some [] else none
  | fuel + 1, l =>
    if l.all isBlank then some []
    else (readLabel l).bind fun x =>
      if x.2.all isBlank then some [x.1]
      else (expect ',' x.2).bind fun l => (readLabels fuel l).map fun xs => x.1 :: xs

def parseLabels (l : List Char) : Option (List (String × String)) := readLabels l.length l

lemma dropWhile_blanks {b l : List Char} (hb : Blanks b) (hl : l.dropWhile isBlank = l) :
    (b ++ l).dropWhile isBlank = l := by
  rw [List.dropWhile_append_of_pos hb, hl]

lemma expect_append {b : List Char} (hb : Blanks b) {c : Char} (hc : isBlank c = false)
    (l : List Char) : expect c (b ++ c :: l) = some l := by
  rw [expect, dropWhile_blanks hb (List.dropWhile_cons_of_neg (by simp [hc]))]
  exact if_pos rfl

lemma readValue_escape (v l : List Char) : readValue (escape v ++ '"' :: l) = some (v, l) := by
  induction v with
  | nil => rfl
  | cons c v ih =>
    rw [escape_cons, List.append_assoc]
    cases hc : isSpecial c with
    | false =>
      rw [escapeChar_plain hc, List.singleton_append]
      simp only [isSpecial, Bool.or_eq_false_iff, decide_eq_false_iff_not] at hc
      obtain ⟨⟨h1, h2⟩, h3⟩ := hc
      rw [readValue.eq_def]
      split <;> simp_all
    | true =>
      simp only [isSpecial, Bool.or_eq_true, decide_eq_true_eq] at hc
      obtain (rfl | rfl) | rfl := hc
      · exact congrArg (Option.map _) ih
      · exact congrArg (Option.map _) ih
      · exact congrArg (Option.map _) ih

/-- The characters of a label name, up to one that is none. -/
lemma labelName_span {s : String} (h : isLabelName s = true) {c : Char} (hc : isNameChar c = false)
    (l : List Char) : (s.toList ++ c :: l).takeWhile isNameChar = s.toList ∧
      (s.toList ++ c :: l).dropWhile isNameChar = c :: l := by
  have hall : ∀ d ∈ s.toList, isNameChar d = true := by
    unfold isLabelName at h
    split at h
    · cases h
    next d r hs =>
      rw [hs]
      simp only [Bool.and_eq_true, Bool.or_eq_true, List.all_eq_true] at h
      rw [List.forall_mem_cons]
      refine ⟨?_, fun e he => (Bool.or_eq_true _ _).mpr (h.2 e he)⟩
      rcases h.1 with hd | hd
      · simp [isNameChar, Char.isAlphanum, hd]
      · simp [isNameChar, hd]
  rw [List.takeWhile_append_of_pos hall, List.dropWhile_append_of_pos hall,
    List.takeWhile_cons_of_neg (by simp [hc]), List.dropWhile_cons_of_neg (by simp [hc])]
  exact ⟨List.append_nil _, rfl⟩

lemma labelName_start {s : String} (h : isLabelName s = true) (l : List Char) :
    (s.toList ++ l).dropWhile isBlank = s.toList ++ l := by
  unfold isLabelName at h
  split at h
  · cases h
  next d r hs =>
    simp only [Bool.and_eq_true] at h
    rw [hs, List.cons_append]
    refine List.dropWhile_cons_of_neg fun hblank => ?_
    simp only [isBlank, Bool.or_eq_true, decide_eq_true_eq] at hblank
    obtain rfl | rfl := hblank
    · exact absurd h.1 (by decide)
    · exact absurd h.1 (by decide)

lemma isNameChar_blank {c : Char} (h : isBlank c = true) : isNameChar c = false := by
  simp only [isBlank, Bool.or_eq_true, decide_eq_true_eq] at h
  obtain rfl | rfl := h <;> decide

lemma readLabel_append {t : List Char} {x : String × String} (h : LabelText t x) (l : List Char) :
    readLabel (t ++ l) = some (x, l) := by
  obtain ⟨hname, b₀, b₁, b₂, raw, h0, h1, h2, hraw, rfl⟩ := h
  have hspan : (x.1.toList ++ (b₁ ++ '=' :: (b₂ ++ '"' :: (raw ++ '"' :: l)))).takeWhile
      isNameChar =
      x.1.toList ∧ (x.1.toList ++ (b₁ ++ '=' :: (b₂ ++ '"' :: (raw ++ '"' :: l)))).dropWhile
        isNameChar = b₁ ++ '=' :: (b₂ ++ '"' :: (raw ++ '"' :: l)) := by
    cases b₁ with
    | nil => exact labelName_span hname (by decide) _
    | cons c b₁ => exact labelName_span hname (isNameChar_blank (h1 c List.mem_cons_self)) _
  have htext : b₀ ++ x.1.toList ++ b₁ ++ '=' :: b₂ ++ '"' :: raw ++ ['"'] ++ l =
      b₀ ++ (x.1.toList ++ (b₁ ++ '=' :: (b₂ ++ '"' :: (raw ++ '"' :: l)))) := by simp
  rw [readLabel, htext, dropWhile_blanks h0 (labelName_start hname _), hspan.1, hspan.2,
    String.ofList_toList, if_pos hname, expect_append h1 (by decide), Option.bind_some,
    expect_append h2 (by decide), Option.bind_some, eq_escape hraw, readValue_escape,
    Option.map_some, String.ofList_toList]

lemma labelText_notBlank {t : List Char} {x : String × String} (h : LabelText t x) (l : List Char) :
    (t ++ l).all isBlank = false := by
  obtain ⟨-, b₀, b₁, b₂, raw, -, -, -, -, rfl⟩ := h
  have hequals : isBlank '=' = false := by decide
  simp [hequals]

lemma readLabels_of_labelsText {l : List Char} {xs : List (String × String)} (h : LabelsText l xs) :
    ∀ {fuel : ℕ}, xs.length ≤ fuel → readLabels fuel l = some xs := by
  induction h with
  | nil hb =>
    intro fuel _
    cases fuel with
    | zero => rw [readLabels, if_pos (List.all_eq_true.mpr hb)]
    | succ fuel => rw [readLabels, if_pos (List.all_eq_true.mpr hb)]
  | @last t b x hx hb =>
    intro fuel hfuel
    obtain ⟨fuel, rfl⟩ := Nat.exists_eq_add_of_le' hfuel
    rw [List.length_singleton, readLabels, labelText_notBlank hx, if_neg Bool.false_ne_true,
      readLabel_append hx, Option.bind_some, if_pos (List.all_eq_true.mpr hb)]
  | @cons t b l x xs hx hb hxs ih =>
    intro fuel hfuel
    obtain ⟨fuel, rfl⟩ := Nat.exists_eq_add_of_le' hfuel
    have hcomma : (b ++ ',' :: l).all isBlank = false := by
      have : isBlank ',' = false := by decide
      simp [this]
    rw [List.length_cons, ← Nat.add_assoc, readLabels, List.append_assoc, labelText_notBlank hx,
      if_neg Bool.false_ne_true, readLabel_append hx, Option.bind_some, hcomma,
      if_neg Bool.false_ne_true, expect_append hb (by decide), Option.bind_some,
      ih (Nat.le_add_left _ _), Option.map_some]

lemma labelsText_length {l : List Char} {xs : List (String × String)} (h : LabelsText l xs) :
    xs.length ≤ l.length := by
  have hpos : ∀ {t : List Char} {x : String × String}, LabelText t x → 0 < t.length := by
    rintro t x ⟨-, b₀, b₁, b₂, raw, -, -, -, -, rfl⟩
    simp
  induction h with
  | nil => exact Nat.zero_le _
  | last hx =>
    have := hpos hx
    simp only [List.length_append, List.length_singleton]
    omega
  | cons hx _ _ ih =>
    have := hpos hx
    simp only [List.length_append, List.length_cons]
    omega

/-- **The parser reads what the format allows**, so a text has one reading at most. -/
theorem parseLabels_of_labelsText {l : List Char} {xs : List (String × String)}
    (h : LabelsText l xs) : parseLabels l = some xs :=
  readLabels_of_labelsText h (labelsText_length h)

end Orchestrator.Lib.Exposition
