import Orchestrator.PyText

/-!
`int(str(n))` is `n`, whatever spaces surround the text, for the integers that `int` reads.
-/

namespace Orchestrator.PyText

lemma isDigit_bounds {c : Char} (h : c.isDigit = true) : 48 ≤ c.toNat ∧ c.toNat ≤ 57 := by
  simp only [Char.isDigit, Bool.and_eq_true, decide_eq_true_eq, ge_iff_le,
    UInt32.le_iff_toNat_le] at h
  exact h

lemma digitValue_digit {c : Char} (h : c.isDigit = true) :
    digitValue c = some (c.toNat - '0'.toNat) := by
  obtain ⟨hlow, hhigh⟩ := isDigit_bounds h
  have hzero : '0'.toNat = 48 := rfl
  rw [digitValue, zeroCodes, List.find?_cons_of_pos, Option.map_some, hzero]
  simp only [Bool.and_eq_true, decide_eq_true_eq]
  omega

lemma moreDigits_digits {l : List Char} (h : ∀ c ∈ l, c.isDigit = true) (n : ℕ) :
    moreDigits n l = some (Nat.ofDigitChars 10 l n) := by
  induction l generalizing n with
  | nil => rw [moreDigits, Nat.ofDigitChars_nil]
  | cons c l ih =>
    obtain ⟨hc, hl⟩ := List.forall_mem_cons.mp h
    have hne : c ≠ '_' := by
      rintro rfl
      cases hc
    rw [moreDigits, digitValue_digit hc, Nat.ofDigitChars_cons]
    · exact ih hl _
    · exact fun d r he _ => hne he

lemma digits_digits {l : List Char} (h : ∀ c ∈ l, c.isDigit = true) (hne : l ≠ []) :
    digits l = some (Nat.ofDigitChars 10 l 0) := by
  obtain ⟨c, r, rfl⟩ := List.exists_cons_of_ne_nil hne
  obtain ⟨hc, hr⟩ := List.forall_mem_cons.mp h
  rw [digits, digitValue_digit hc, Option.bind_some, moreDigits_digits hr, Nat.ofDigitChars_cons,
    Nat.mul_zero, Nat.zero_add]

lemma intDigits_digits {l : List Char} (h : ∀ c ∈ l, c.isDigit = true) (hne : l ≠ [])
    (hlength : l.length ≤ maxStrDigits) : intDigits l = some (Nat.ofDigitChars 10 l 0) := by
  have hcount : l.countP (· ≠ '_') ≤ maxStrDigits := List.countP_le_length.trans hlength
  rw [intDigits, if_neg (not_lt.mpr hcount), digits_digits h hne]

lemma isSpace_digit {c : Char} (h : c.isDigit = true) : isSpace c = false := by
  obtain ⟨hlow, hhigh⟩ := isDigit_bounds h
  simp [isSpace]
  omega

/-! ### Texts between spaces -/

lemma rdropWhile_append {α : Type} {p : α → Bool} {l v : List α} (hv : ∀ a ∈ v, p a = true)
    (hl : ∀ a ∈ l.getLast?, p a = false) : (l ++ v).rdropWhile p = l := by
  have hrest : l.reverse.dropWhile p = l.reverse := by
    cases h : l.reverse with
    | nil => rfl
    | cons a r =>
      have ha : p a = false := hl a (by rw [← List.head?_reverse, h]; rfl)
      rw [List.dropWhile_cons_of_neg (Bool.eq_false_iff.mp ha)]
  rw [List.rdropWhile, List.reverse_append,
    List.dropWhile_append_of_pos fun a ha => hv a (List.mem_reverse.mp ha), hrest,
    List.reverse_reverse]

lemma strip_spaced {u l v : List Char} (hu : ∀ c ∈ u, isSpace c = true)
    (hv : ∀ c ∈ v, isSpace c = true) (hhead : ∀ c ∈ l.head?, isSpace c = false)
    (hlast : ∀ c ∈ l.getLast?, isSpace c = false) :
    strip (String.ofList (u ++ (l ++ v))) = String.ofList l := by
  rw [strip, String.toList_ofList, List.dropWhile_append_of_pos hu]
  cases l with
  | nil =>
    have hall : v.dropWhile isSpace = [] := List.dropWhile_eq_nil_iff.mpr hv
    rw [List.nil_append, hall]
    rfl
  | cons c r =>
    have hc : ¬ isSpace c = true := Bool.eq_false_iff.mp (hhead c rfl)
    rw [List.cons_append, List.dropWhile_cons_of_neg hc, ← List.cons_append,
      rdropWhile_append hv hlast]

/-! ### Integers -/

/-- The characters of an integer. -/
def intChars (n : ℤ) : List Char := (if n < 0 then ['-'] else []) ++ Nat.toDigits 10 n.natAbs

lemma toString_int (n : ℤ) : toString n = String.ofList (intChars n) := by
  apply String.toList_inj.mp
  rw [String.toList_ofList]
  cases n with
  | ofNat m =>
    have htext : toString (Int.ofNat m) = m.repr := rfl
    rw [htext, Nat.toList_repr]
    simp [intChars]
  | negSucc m =>
    have htext : toString (Int.negSucc m) = "-" ++ (m + 1).repr := rfl
    rw [htext, String.toList_append, Nat.toList_repr]
    simp [intChars]

lemma isDigit_toDigits {n : ℕ} {c : Char} (h : c ∈ Nat.toDigits 10 n) : c.isDigit = true :=
  Nat.isDigit_of_mem_toDigits (by omega) (by omega) h

lemma isSpace_intChars {n : ℤ} {c : Char} (h : c ∈ intChars n) : isSpace c = false := by
  rcases List.mem_append.mp h with h | h
  · split at h
    · rw [List.mem_singleton.mp h]
      rfl
    · cases h
  · exact isSpace_digit (isDigit_toDigits h)

lemma length_toDigits_le {n : ℕ} (h : n < 2 ^ 64) : (Nat.toDigits 10 n).length ≤ maxStrDigits := by
  have hlength : (Nat.toDigits 10 n).length ≤ 20 :=
    (Nat.length_toDigits_le_iff (by omega) (by omega)).mpr (by omega)
  have hmax : maxStrDigits = 4300 := rfl
  omega

/-- **The text of an integer** is read as the integer, if it is not too long. -/
theorem parseInt_spaced {u v : List Char} {n : ℤ}
    (hn : (Nat.toDigits 10 n.natAbs).length ≤ maxStrDigits) (hu : ∀ c ∈ u, isSpace c = true)
    (hv : ∀ c ∈ v, isSpace c = true) :
    parseInt (String.ofList (u ++ (intChars n ++ v))) = some n := by
  have hstrip : strip (String.ofList (u ++ (intChars n ++ v))) = String.ofList (intChars n) :=
    strip_spaced hu hv (fun c hc => isSpace_intChars (List.mem_of_mem_head? hc))
      fun c hc => isSpace_intChars (List.mem_of_mem_getLast? hc)
  have hdigits : intDigits (Nat.toDigits 10 n.natAbs) = some n.natAbs := by
    rw [intDigits_digits (fun c hc => isDigit_toDigits hc) Nat.toDigits_ne_nil hn,
      Nat.ofDigitChars_ten_toDigits]
  rw [parseInt, hstrip, String.toList_ofList, intChars]
  by_cases hneg : n < 0
  · rw [if_pos hneg]
    have hvalue : -((n.natAbs : ℕ) : ℤ) = n := by omega
    simp only [List.singleton_append, hdigits]
    exact congrArg some hvalue
  · rw [if_neg hneg, List.nil_append]
    obtain ⟨c, r, hc⟩ := List.exists_cons_of_ne_nil (Nat.toDigits_ne_nil (n := n.natAbs) (b := 10))
    have hmem : c ∈ Nat.toDigits 10 n.natAbs := by
      rw [hc]
      exact List.mem_cons_self
    have hdigit := isDigit_toDigits hmem
    rw [hc] at hdigits ⊢
    split
    · next heq =>
      rw [(List.cons.inj heq).1] at hdigit
      cases hdigit
    · next heq =>
      rw [(List.cons.inj heq).1] at hdigit
      cases hdigit
    · have hvalue : ((n.natAbs : ℕ) : ℤ) = n := by omega
      rw [hdigits]
      exact congrArg some hvalue

theorem parseInt_toString {n : ℤ} (hn : (Nat.toDigits 10 n.natAbs).length ≤ maxStrDigits) :
    parseInt (toString n) = some n := by
  have hnil : ∀ c ∈ ([] : List Char), isSpace c = true := fun _ hc => by cases hc
  have h := parseInt_spaced hn hnil hnil
  rwa [List.nil_append, List.append_nil, ← toString_int] at h

end Orchestrator.PyText
