import Orchestrator.IntText
import Orchestrator.Json
import Orchestrator.Lib.JsonTree

/-!
`json.dumps` and `json.loads` as functions of texts. A text that is written is read back as the
value, where every object has distinct keys and `float` reads the `repr` of a float as that float.

A text of the model is a sequence of Unicode scalar values, so an escape of a single surrogate is
refused where Python reads it.
-/

namespace Orchestrator.Json

open Lib Lib.JsonText
open PyText (maxStrDigits)

/-! ### Reading -/

def ofWord : Word → Json
  | .null => .null
  | .true => .bool true
  | .false => .bool false
  | .nan => .float ⟨"nan", .nan⟩
  | .infinity => .float ⟨"inf", .inf false⟩
  | .negativeInfinity => .float ⟨"-inf", .inf true⟩

-- `float(text)` of a numeral
variable (float : String → PyFloat)

def ofNumeral (n : Numeral) : Option Json :=
  if n.isFloat then some (.float (float (String.ofList n.text)))
  else if n.whole.length ≤ maxStrDigits then
    let value : ℤ := Nat.ofDigitChars 10 n.whole 0
    some (.int (if n.negative then -value else value))
  else none

/-- The `dict` of the members of an object: the last of those with one name counts. -/
def dictOf (pairs : List (List Char × Json)) : Mapping :=
  Mapping.merge [] (pairs.map fun p => (String.ofList p.1, p.2))

mutual
def ofTree : Tree → Option Json
  | .word w => some (ofWord w)
  | .numeral n => ofNumeral float n
  | .str s => some (.str (String.ofList s))
  | .arr l => (ofTrees l).map .arr
  | .obj m => (ofMembers m).map fun pairs => .obj (dictOf pairs)
def ofTrees : List Tree → Option (List Json)
  | [] => some []
  | x :: l => (ofTree x).bind fun y => (ofTrees l).map fun ys => y :: ys
def ofMembers : List (List Char × Tree) → Option (List (List Char × Json))
  | [] => some []
  | (s, x) :: m => (ofTree x).bind fun y => (ofMembers m).map fun ys => (s, y) :: ys
end

/-- `json.loads(text)`, or `none` where it raises a `ValueError`. -/
def loads (text : String) : Option Json := (read text.toList).bind (ofTree float)

/-! ### Writing -/

lemma head_toDigits (n : ℕ) (hn : 0 < n) : ∀ c ∈ (Nat.toDigits 10 n).head?, c ≠ '0' := by
  induction n using Nat.strong_induction_on with
  | h n ih =>
    by_cases hlt : n < 10
    · rw [Nat.toDigits_of_lt_base hlt]
      intro c hc
      cases hc
      have hdigits : ∀ d < 10, 0 < d → d.digitChar ≠ '0' := by decide
      exact hdigits n hlt hn
    · rw [Nat.toDigits_of_base_le (by omega) (by omega),
        List.head?_append_of_ne_nil _ Nat.toDigits_ne_nil]
      exact ih (n / 10) (by omega) (by omega)

lemma whole_toDigits (n : ℕ) : Whole (Nat.toDigits 10 n) := by
  rcases Nat.eq_zero_or_pos n with rfl | hn
  · exact Or.inl (Nat.toDigits_zero 10)
  · obtain ⟨c, r, hdigits⟩ := List.exists_cons_of_ne_nil (Nat.toDigits_ne_nil (n := n) (b := 10))
    have hhead := head_toDigits n hn
    rw [hdigits] at hhead
    refine Or.inr ⟨c, r, hdigits, hhead c rfl, fun d hd => ?_⟩
    exact Nat.isDigit_of_mem_toDigits (by omega) (by omega) hd

/-- The digits of an integer. -/
def numeralOf (n : ℤ) : Numeral where
  negative := n < 0
  whole := Nat.toDigits 10 n.natAbs
  fraction := []
  exponent := []
  whole_valid := whole_toDigits n.natAbs
  fraction_valid := Or.inl rfl
  exponent_valid := Or.inl rfl

/-- The text as a numeral with a fraction or an exponent, if it is one. -/
def floatNumeral (text : String) : Option Numeral :=
  (numeral text.toList).bind fun p => if p.2.isEmpty && p.1.isFloat then some p.1 else none

def floatTree (x : PyFloat) : Option Tree :=
  match x.value with
  | .nan => some (.word .nan)
  | .inf false => some (.word .infinity)
  | .inf true => some (.word .negativeInfinity)
  | .fin _ => (floatNumeral x.text).map .numeral

mutual
def toTree : Json → Option Tree
  | .null => some (.word .null)
  | .bool b => some (.word (if b then .true else .false))
  | .int n =>
    if (numeralOf n).whole.length ≤ maxStrDigits then some (.numeral (numeralOf n)) else none
  | .float x => floatTree x
  | .str s => some (.str s.toList)
  | .arr l => (toTrees l).map .arr
  | .obj m => (toMembers m).map .obj
def toTrees : List Json → Option (List Tree)
  | [] => some []
  | x :: l => (toTree x).bind fun y => (toTrees l).map fun ys => y :: ys
def toMembers : List (String × Json) → Option (List (List Char × Tree))
  | [] => some []
  | (k, x) :: m => (toTree x).bind fun y => (toMembers m).map fun ys => (k.toList, y) :: ys
end

/-- `json.dumps(x)` in a style, or `none` where it raises a `ValueError`. -/
def dumpsAs (σ : Style) (x : Json) : Option String :=
  (toTree x).map fun t => String.ofList (print σ 0 t)

/-! ### The round trip -/

mutual
/-- Every object has distinct keys, and the text of every float is that of its value. -/
def Faithful : Json → Prop
  | .float x =>
    match x.value with
    | .nan => x.text = "nan"
    | .inf neg => x.text = if neg then "-inf" else "inf"
    | .fin _ => float x.text = x
  | .arr l => FaithfulEach l
  | .obj m => (m.map Prod.fst).Nodup ∧ FaithfulItems m
  | _ => True
def FaithfulEach : List Json → Prop
  | [] => True
  | x :: l => Faithful x ∧ FaithfulEach l
def FaithfulItems : List (String × Json) → Prop
  | [] => True
  | (_, x) :: m => Faithful x ∧ FaithfulItems m
end

variable {float}

lemma ofNumeral_numeralOf {n : ℤ} (h : (numeralOf n).whole.length ≤ maxStrDigits) :
    ofNumeral float (numeralOf n) = some (.int n) := by
  have hvalue : Nat.ofDigitChars 10 (numeralOf n).whole 0 = n.natAbs :=
    Nat.ofDigitChars_ten_toDigits
  have hfloat : (numeralOf n).isFloat = false := rfl
  have hsign : (if (numeralOf n).negative then -(n.natAbs : ℤ) else n.natAbs) = n := by
    by_cases hn : n < 0
    · rw [if_pos (by simp [numeralOf, hn])]
      omega
    · rw [if_neg (by simp [numeralOf, hn])]
      omega
  rw [ofNumeral, hfloat, if_neg Bool.false_ne_true, if_pos h, hvalue]
  exact congrArg (fun k => some (Json.int k)) hsign

lemma floatNumeral_text {text : String} {n : Numeral} (h : floatNumeral text = some n) :
    n.isFloat = true ∧ String.ofList n.text = text := by
  obtain ⟨⟨k, r⟩, hk, hrest⟩ := Option.bind_eq_some_iff.mp h
  split at hrest
  · next hend =>
    obtain rfl := Option.some.inj hrest
    simp only [Bool.and_eq_true, List.isEmpty_iff] at hend
    have htext := numeral_sound hk
    rw [hend.1, List.append_nil] at htext
    exact ⟨hend.2, by rw [← htext, String.ofList_toList]⟩
  · cases hrest

lemma ofTree_floatTree {x : PyFloat} {t : Tree} (hx : Faithful float (.float x))
    (ht : floatTree x = some t) : ofTree float t = some (.float x) := by
  obtain ⟨text, value⟩ := x
  cases value with
  | nan =>
    obtain rfl := Option.some.inj ht
    obtain rfl : text = "nan" := hx
    rfl
  | inf neg =>
    cases neg <;> obtain rfl := Option.some.inj ht
    · obtain rfl : text = "inf" := hx
      rfl
    · obtain rfl : text = "-inf" := hx
      rfl
  | fin q =>
    obtain ⟨n, hn, rfl⟩ := Option.map_eq_some_iff.mp ht
    obtain ⟨hfloat, htext⟩ := floatNumeral_text hn
    have hx : float text = ⟨text, .fin q⟩ := hx
    rw [ofTree, ofNumeral, if_pos hfloat, htext, hx]

lemma set_fresh (m : Mapping) {key : String} (value : Json) (h : key ∉ m.map Prod.fst) :
    m.set key value = m ++ [(key, value)] := by
  induction m with
  | nil => rfl
  | cons p m ih =>
    obtain ⟨k, v⟩ := p
    rw [List.map_cons, List.mem_cons, not_or] at h
    rw [Mapping.set, if_neg (Ne.symm h.1), ih h.2, List.cons_append]

lemma merge_fresh (m n : Mapping) (h : ((m ++ n).map Prod.fst).Nodup) : m.merge n = m ++ n := by
  induction n generalizing m with
  | nil => rw [List.append_nil]; rfl
  | cons p n ih =>
    obtain ⟨k, v⟩ := p
    have hfresh : k ∉ m.map Prod.fst := by
      rw [List.map_append, List.map_cons, List.nodup_append] at h
      exact fun hk => h.2.2 k hk k List.mem_cons_self rfl
    have hset := set_fresh m v hfresh
    have hmerge := ih (m ++ [(k, v)]) (by simpa using h)
    rw [Mapping.merge, List.foldl_cons, hset]
    simpa [Mapping.merge] using hmerge

mutual
/-- **The tree** of a value is read as the value. -/
theorem ofTree_toTree : ∀ (x : Json) (t : Tree), Faithful float x → toTree x = some t →
    ofTree float t = some x
  | .null, t, _, h => by
    rw [toTree] at h
    obtain rfl := Option.some.inj h
    rfl
  | .bool b, t, _, h => by
    rw [toTree] at h
    obtain rfl := Option.some.inj h
    cases b <;> rfl
  | .int n, t, _, h => by
    rw [toTree] at h
    split at h
    · next hn =>
      obtain rfl := Option.some.inj h
      exact ofNumeral_numeralOf hn
    · cases h
  | .float x, t, hx, h => by
    rw [toTree] at h
    exact ofTree_floatTree hx h
  | .str s, t, _, h => by
    rw [toTree] at h
    obtain rfl := Option.some.inj h
    rw [ofTree, String.ofList_toList]
  | .arr l, t, hx, h => by
    rw [toTree] at h
    obtain ⟨ts, hts, rfl⟩ := Option.map_eq_some_iff.mp h
    rw [Faithful] at hx
    rw [ofTree, ofTrees_toTrees l ts hx hts]
    rfl
  | .obj m, t, hx, h => by
    rw [toTree] at h
    obtain ⟨ts, hts, rfl⟩ := Option.map_eq_some_iff.mp h
    rw [Faithful] at hx
    rw [ofTree, ofMembers_toMembers m ts hx.2 hts, Option.map_some, dictOf, List.map_map]
    have hnames : m.map ((fun p : List Char × Json => (String.ofList p.1, p.2)) ∘
        fun p : String × Json => (p.1.toList, p.2)) = m := by simp [Function.comp_def]
    rw [hnames, merge_fresh [] m hx.1]
    rfl
theorem ofTrees_toTrees : ∀ (l : List Json) (ts : List Tree), FaithfulEach float l →
    toTrees l = some ts → ofTrees float ts = some l
  | [], ts, _, h => by
    rw [toTrees] at h
    obtain rfl := Option.some.inj h
    rfl
  | x :: l, ts, hx, h => by
    rw [toTrees] at h
    rw [FaithfulEach] at hx
    obtain ⟨t, ht, h⟩ := Option.bind_eq_some_iff.mp h
    obtain ⟨ts', hts, rfl⟩ := Option.map_eq_some_iff.mp h
    rw [ofTrees, ofTree_toTree x t hx.1 ht, Option.bind_some, ofTrees_toTrees l ts' hx.2 hts]
    rfl
theorem ofMembers_toMembers : ∀ (m : List (String × Json)) (ts : List (List Char × Tree)),
    FaithfulItems float m → toMembers m = some ts →
    ofMembers float ts = some (m.map fun p => (p.1.toList, p.2))
  | [], ts, _, h => by
    rw [toMembers] at h
    obtain rfl := Option.some.inj h
    rfl
  | (k, x) :: m, ts, hx, h => by
    rw [toMembers] at h
    rw [FaithfulItems] at hx
    obtain ⟨t, ht, h⟩ := Option.bind_eq_some_iff.mp h
    obtain ⟨ts', hts, rfl⟩ := Option.map_eq_some_iff.mp h
    rw [ofMembers, ofTree_toTree x t hx.1 ht, Option.bind_some, ofMembers_toMembers m ts' hx.2 hts]
    rfl
end

/-- **The round trip**: a text that `json.dumps` writes is read back as the value. -/
theorem loads_dumpsAs {σ : Style} {x : Json} {text : String} (hx : Faithful float x)
    (h : dumpsAs σ x = some text) : loads float text = some x := by
  obtain ⟨t, ht, rfl⟩ := Option.map_eq_some_iff.mp h
  rw [loads, String.toList_ofList, read_print, Option.bind_some, ofTree_toTree x t hx ht]

/-- **A part is refused**: no proper beginning of the text of an object is read. -/
theorem loads_cut {σ : Style} {m : Mapping} {text part rest : String}
    (h : dumpsAs σ (.obj m) = some text) (htext : text = part ++ rest) (hrest : rest ≠ "") :
    loads float part = none := by
  obtain ⟨t, ht, rfl⟩ := Option.map_eq_some_iff.mp h
  rw [toTree] at ht
  obtain ⟨ts, -, rfl⟩ := Option.map_eq_some_iff.mp ht
  have hsaid : Says (.obj ts) (part.toList ++ rest.toList) := by
    rw [← String.toList_append, ← htext, String.toList_ofList]
    exact says_print _ 0
  rw [loads, read_cut hsaid trivial (fun h => hrest (String.toList_eq_nil_iff.mp h))]
  rfl

/-! ### What is read is faithful -/

variable (float) in
/-- `float` reads the `repr` of each float that it gives as that float. -/
def ReprReads : Prop := ∀ text, Faithful float (.float (float text))

@[simp] lemma faithful_str (s : String) : Faithful float (.str s) := by simp [Faithful]
@[simp] lemma faithful_int (n : ℤ) : Faithful float (.int n) := by simp [Faithful]

lemma faithfulEach_iff {l : List Json} : FaithfulEach float l ↔ ∀ x ∈ l, Faithful float x := by
  induction l with
  | nil => simp [FaithfulEach]
  | cons x l ih => rw [FaithfulEach, ih, List.forall_mem_cons]

lemma faithfulItems_iff {m : Mapping} : FaithfulItems float m ↔ ∀ p ∈ m, Faithful float p.2 := by
  induction m with
  | nil => simp [FaithfulItems]
  | cons p m ih =>
    obtain ⟨k, x⟩ := p
    rw [FaithfulItems, ih, List.forall_mem_cons]

lemma faithful_obj {m : Mapping} : Faithful float (.obj m) ↔
    (m.map Prod.fst).Nodup ∧ ∀ p ∈ m, Faithful float p.2 := by
  rw [Faithful, faithfulItems_iff]

lemma faithful_arr {l : List Json} : Faithful float (.arr l) ↔ ∀ x ∈ l, Faithful float x := by
  rw [Faithful, faithfulEach_iff]

lemma mem_keys_set {m : Mapping} {key other : String} {value : Json} :
    other ∈ (Mapping.set m key value).map Prod.fst → other = key ∨ other ∈ m.map Prod.fst := by
  induction m with
  | nil => simp [Mapping.set]
  | cons p m ih =>
    obtain ⟨k, v⟩ := p
    rw [Mapping.set]
    split
    · exact Or.inr
    · simp only [List.map_cons, List.mem_cons]
      rintro (rfl | h)
      · exact Or.inr (Or.inl rfl)
      · exact (ih h).imp_right Or.inr

lemma faithful_set {m : Mapping} {key : String} {value : Json} (hm : Faithful float (.obj m))
    (hvalue : Faithful float value) : Faithful float (.obj (Mapping.set m key value)) := by
  induction m with
  | nil => simp [faithful_obj, Mapping.set, hvalue]
  | cons p m ih =>
    obtain ⟨k, v⟩ := p
    rw [faithful_obj, List.map_cons, List.nodup_cons, List.forall_mem_cons] at hm
    obtain ⟨⟨hk, hnodup⟩, hv, hitems⟩ := hm
    rw [Mapping.set]
    split
    · rw [faithful_obj, List.map_cons, List.nodup_cons, List.forall_mem_cons]
      exact ⟨⟨hk, hnodup⟩, hvalue, hitems⟩
    · next hne =>
      obtain ⟨hkeys, hrest⟩ := faithful_obj.mp (ih (faithful_obj.mpr ⟨hnodup, hitems⟩))
      rw [faithful_obj, List.map_cons, List.nodup_cons, List.forall_mem_cons]
      exact ⟨⟨fun hmem => (mem_keys_set hmem).elim hne hk, hkeys⟩, hv, hrest⟩

lemma faithful_merge {m n : Mapping} (hm : Faithful float (.obj m))
    (hn : ∀ p ∈ n, Faithful float p.2) : Faithful float (.obj (m.merge n)) := by
  induction n generalizing m with
  | nil => exact hm
  | cons p n ih =>
    obtain ⟨hp, hn⟩ := List.forall_mem_cons.mp hn
    exact ih (faithful_set hm hp) hn

mutual
lemma faithful_ofTree (hfloat : ReprReads float) : ∀ (t : Tree) (x : Json),
    ofTree float t = some x → Faithful float x
  | .word w, x, h => by
    rw [ofTree] at h
    obtain rfl := Option.some.inj h
    cases w <;> simp [ofWord, Faithful]
  | .numeral n, x, h => by
    rw [ofTree, ofNumeral] at h
    split at h
    · obtain rfl := Option.some.inj h
      exact hfloat _
    · split at h
      · obtain rfl := Option.some.inj h
        simp [Faithful]
      · cases h
  | .str s, x, h => by
    rw [ofTree] at h
    obtain rfl := Option.some.inj h
    simp [Faithful]
  | .arr l, x, h => by
    rw [ofTree] at h
    obtain ⟨ys, hys, rfl⟩ := Option.map_eq_some_iff.mp h
    rw [faithful_arr]
    exact faithful_ofTrees hfloat l ys hys
  | .obj m, x, h => by
    rw [ofTree] at h
    obtain ⟨ys, hys, rfl⟩ := Option.map_eq_some_iff.mp h
    refine faithful_merge (by simp [faithful_obj]) fun p hp => ?_
    obtain ⟨q, hq, rfl⟩ := List.mem_map.mp hp
    exact faithful_ofMembers hfloat m ys hys q hq
lemma faithful_ofTrees (hfloat : ReprReads float) : ∀ (l : List Tree) (ys : List Json),
    ofTrees float l = some ys → ∀ y ∈ ys, Faithful float y
  | [], ys, h => by
    rw [ofTrees] at h
    obtain rfl := Option.some.inj h
    exact fun _ hy => absurd hy List.not_mem_nil
  | t :: l, ys, h => by
    rw [ofTrees] at h
    obtain ⟨y, hy, h⟩ := Option.bind_eq_some_iff.mp h
    obtain ⟨ys', hys, rfl⟩ := Option.map_eq_some_iff.mp h
    exact List.forall_mem_cons.mpr
      ⟨faithful_ofTree hfloat t y hy, faithful_ofTrees hfloat l ys' hys⟩
lemma faithful_ofMembers (hfloat : ReprReads float) : ∀ (m : List (List Char × Tree))
    (ys : List (List Char × Json)), ofMembers float m = some ys → ∀ q ∈ ys, Faithful float q.2
  | [], ys, h => by
    rw [ofMembers] at h
    obtain rfl := Option.some.inj h
    exact fun _ hy => absurd hy List.not_mem_nil
  | (s, t) :: m, ys, h => by
    rw [ofMembers] at h
    obtain ⟨y, hy, h⟩ := Option.bind_eq_some_iff.mp h
    obtain ⟨ys', hys, rfl⟩ := Option.map_eq_some_iff.mp h
    exact List.forall_mem_cons.mpr
      ⟨faithful_ofTree hfloat t y hy, faithful_ofMembers hfloat m ys' hys⟩
end

/-- **What is read** is faithful, so it can be written and read again. -/
theorem loads_faithful (hfloat : ReprReads float) {text : String} {x : Json}
    (h : loads float text = some x) : Faithful float x := by
  obtain ⟨t, -, ht⟩ := Option.bind_eq_some_iff.mp h
  exact faithful_ofTree hfloat t x ht

/-! ### The text that templates insert -/

/-- `json.dumps(x, ensure_ascii=False)` -/
def plain : Style where
  ascii := false
  indent := none
  afterComma := [' ']
  afterColon := [' ']
  afterComma_blank := blank_space
  afterColon_blank := blank_space

lemma codeText_control : ∀ n < 0x20, codeText n =
    ['\\', 'u', '0', '0', hexDigit (n / 16), hexDigit (n % 16)] := by decide

lemma escapeChar_plain (c : Char) : JsonText.escapeChar false c = escapeChar c := by
  by_cases hmem : c ∈ letters.map Prod.fst
  · have hletters : (letters.map Prod.fst).all
        (fun d => JsonText.escapeChar false d = escapeChar d) = true := by decide
    exact of_decide_eq_true (List.all_eq_true.mp hletters c hmem)
  · have hlookup : letters.lookup c = none := by
      refine List.lookup_eq_none_iff.mpr fun p hp => ?_
      rw [bne_iff_ne]
      rintro rfl
      exact hmem (List.mem_map_of_mem hp)
    have hcode : ∀ n : ℕ, Char.ofNat n ∈ letters.map Prod.fst → c.toNat ≠ n := by
      rintro n hn rfl
      exact hmem (by rwa [Char.ofNat_toNat] at hn)
    have hb : c.toNat ≠ 0x8 := hcode 0x8 (by decide)
    have hf : c.toNat ≠ 0xc := hcode 0xc (by decide)
    simp only [letters, List.map_cons, List.map_nil, List.mem_cons, List.not_mem_nil, or_false,
      not_or] at hmem
    obtain ⟨hquote, hslash, -, -, hn, hr, ht⟩ := hmem
    rw [JsonText.escapeChar, hlookup, escapeChar, if_neg hquote, if_neg hslash, if_neg hn,
      if_neg hr, if_neg ht, if_neg hb, if_neg hf]
    by_cases hlt : c.toNat < 0x20
    · simp [hlt, codeText_control c.toNat hlt, show c.toNat < 0x10000 by omega]
    · simp [hlt]

lemma stringText_plain (s : String) : stringText plain s.toList = (quote s).toList := by
  have hescape : JsonText.escapeChar plain.ascii = escapeChar := funext escapeChar_plain
  rw [stringText, hescape, quote, String.toList_ofList, List.cons_append]

lemma numeralOf_text (n : ℤ) : (numeralOf n).text = (toString n).toList := by
  rw [PyText.toString_int, String.toList_ofList]
  simp [Numeral.text, numeralOf, PyText.intChars]

lemma print_floatTree {x : PyFloat} {t : Tree} {level : ℕ} (h : floatTree x = some t) :
    print plain level t = (floatText x).toList := by
  obtain ⟨text, value⟩ := x
  cases value with
  | nan =>
    obtain rfl := Option.some.inj h
    simp [print, floatText, Word.text]
  | inf neg =>
    cases neg <;> obtain rfl := Option.some.inj h <;> simp [print, floatText, Word.text]
  | fin q =>
    obtain ⟨n, hn, rfl⟩ := Option.map_eq_some_iff.mp h
    rw [print, floatText, ← (floatNumeral_text hn).2, String.toList_ofList]

lemma between_plain (level : ℕ) (items : List (List Char)) :
    between plain level items = [',', ' '].intercalate items := by
  cases items with
  | nil => rfl
  | cons x l =>
    have hgap : ∀ k, gap plain k = [] := fun _ => rfl
    rw [between, hgap, hgap]
    simp [plain]

mutual
theorem print_plain : ∀ (x : Json) (t : Tree) (level : ℕ), toTree x = some t →
    print plain level t = (dumpsOrdered x).toList
  | .null, t, _, h => by
    rw [toTree] at h
    obtain rfl := Option.some.inj h
    rw [print, dumpsOrdered]
    rfl
  | .bool b, t, _, h => by
    rw [toTree] at h
    obtain rfl := Option.some.inj h
    rw [print, dumpsOrdered]
    cases b <;> rfl
  | .int n, t, _, h => by
    rw [toTree] at h
    split at h
    · next hn =>
      obtain rfl := Option.some.inj h
      rw [print, dumpsOrdered, numeralOf_text]
    · cases h
  | .float x, t, _, h => by
    rw [toTree] at h
    rw [dumpsOrdered]
    exact print_floatTree h
  | .str s, t, _, h => by
    rw [toTree] at h
    obtain rfl := Option.some.inj h
    rw [print, stringText_plain, dumpsOrdered]
  | .arr l, t, level, h => by
    rw [toTree] at h
    obtain ⟨ts, hts, rfl⟩ := Option.map_eq_some_iff.mp h
    rw [print, between_plain, printEach_plain l ts (level + 1) hts, dumpsOrdered]
    simp [String.toList_intercalate]
  | .obj m, t, level, h => by
    rw [toTree] at h
    obtain ⟨ts, hts, rfl⟩ := Option.map_eq_some_iff.mp h
    rw [print, between_plain, printMembers_plain m ts (level + 1) hts, dumpsOrdered]
    simp [String.toList_intercalate]
theorem printEach_plain : ∀ (l : List Json) (ts : List Tree) (level : ℕ), toTrees l = some ts →
    printEach plain level ts = (dumpsList l).map String.toList
  | [], ts, _, h => by
    rw [toTrees] at h
    obtain rfl := Option.some.inj h
    rfl
  | x :: l, ts, level, h => by
    rw [toTrees] at h
    obtain ⟨t, ht, h⟩ := Option.bind_eq_some_iff.mp h
    obtain ⟨ts', hts, rfl⟩ := Option.map_eq_some_iff.mp h
    rw [printEach, print_plain x t level ht, printEach_plain l ts' level hts, dumpsList,
      List.map_cons]
theorem printMembers_plain : ∀ (m : List (String × Json)) (ts : List (List Char × Tree))
    (level : ℕ), toMembers m = some ts →
    printMembers plain level ts = (dumpsItems m).map String.toList
  | [], ts, _, h => by
    rw [toMembers] at h
    obtain rfl := Option.some.inj h
    rfl
  | (k, x) :: m, ts, level, h => by
    rw [toMembers] at h
    obtain ⟨t, ht, h⟩ := Option.bind_eq_some_iff.mp h
    obtain ⟨ts', hts, rfl⟩ := Option.map_eq_some_iff.mp h
    rw [printMembers, print_plain x t level ht, printMembers_plain m ts' level hts, dumpsItems,
      List.map_cons, stringText_plain]
    simp [plain]
end

/-- **The text** that templates insert is that of `json.dumps` in its plain style. -/
theorem dumpsAs_plain {x : Json} {text : String} (h : dumpsAs plain x = some text) :
    text = dumpsOrdered x := by
  obtain ⟨t, ht, rfl⟩ := Option.map_eq_some_iff.mp h
  rw [print_plain x t 0 ht, String.ofList_toList]

end Orchestrator.Json
