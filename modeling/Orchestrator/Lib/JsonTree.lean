import Orchestrator.Lib.JsonText

/-!
Trees of JSON, which keep the numerals as they are written and every member of an object. The
reader accepts exactly the texts of the grammar, the printer writes texts of the grammar, and no
array or object is read where a part of its text is missing.
-/

namespace Orchestrator.Lib.JsonText

inductive Tree
  | word (w : Word)
  | numeral (n : Numeral)
  | str (s : List Char)
  | arr (l : List Tree)
  | obj (m : List (List Char × Tree))

/-! ### Induction -/

section Induction

variable {P : Tree → Prop}

mutual
lemma Tree.ind_tree (word : ∀ w, P (.word w)) (numeral : ∀ n, P (.numeral n))
    (str : ∀ s, P (.str s)) (arr : ∀ l, (∀ x ∈ l, P x) → P (.arr l))
    (obj : ∀ m, (∀ q ∈ m, P q.2) → P (.obj m)) :
    ∀ x, P x
  | .word w => word w
  | .numeral n => numeral n
  | .str s => str s
  | .arr l => arr l (ind_list word numeral str arr obj l)
  | .obj m => obj m (ind_members word numeral str arr obj m)
lemma Tree.ind_list (word : ∀ w, P (.word w)) (numeral : ∀ n, P (.numeral n))
    (str : ∀ s, P (.str s)) (arr : ∀ l, (∀ x ∈ l, P x) → P (.arr l))
    (obj : ∀ m, (∀ q ∈ m, P q.2) → P (.obj m)) :
    ∀ l : List Tree, ∀ x ∈ l, P x
  | [] => fun _ h => absurd h List.not_mem_nil
  | x :: l => List.forall_mem_cons.mpr
      ⟨ind_tree word numeral str arr obj x, ind_list word numeral str arr obj l⟩
lemma Tree.ind_members (word : ∀ w, P (.word w)) (numeral : ∀ n, P (.numeral n))
    (str : ∀ s, P (.str s)) (arr : ∀ l, (∀ x ∈ l, P x) → P (.arr l))
    (obj : ∀ m, (∀ q ∈ m, P q.2) → P (.obj m)) : ∀ m : List (List Char × Tree), ∀ q ∈ m, P q.2
  | [] => fun _ h => absurd h List.not_mem_nil
  | (_, x) :: m => List.forall_mem_cons.mpr
      ⟨ind_tree word numeral str arr obj x, ind_members word numeral str arr obj m⟩
end

/-- **Induction over trees**, with the hypothesis for all items. -/
theorem Tree.ind (word : ∀ w, P (.word w)) (numeral : ∀ n, P (.numeral n)) (str : ∀ s, P (.str s))
    (arr : ∀ l, (∀ x ∈ l, P x) → P (.arr l)) (obj : ∀ m, (∀ q ∈ m, P q.2) → P (.obj m)) (x : Tree) :
    P x := ind_tree word numeral str arr obj x

end Induction

/-! ### The grammar -/

inductive Member (R : Tree → List Char → Prop) : List Char × Tree → List Char → Prop
  | mk {s t u v w : List Char} {x : Tree} (hs : Spells s t) (hu : Blank u) (hv : Blank v)
      (hx : R x w) : Member R (s, x) ('"' :: (t ++ '"' :: (u ++ ':' :: (v ++ w))))

/-- The texts of a tree. -/
inductive Says : Tree → List Char → Prop
  | word (w : Word) : Says (.word w) w.text
  | numeral (n : Numeral) : Says (.numeral n) n.text
  | str {s t : List Char} (h : Spells s t) : Says (.str s) ('"' :: (t ++ ['"']))
  | arr {l : List Tree} {t : List Char} (h : Listed Says l t) : Says (.arr l) ('[' :: (t ++ [']']))
  | obj {m : List (List Char × Tree)} {t : List Char} (h : Listed (Member Says) m t) :
      Says (.obj m) ('\x7b' :: (t ++ ['\x7d']))

/-- A text with blanks around it. -/
def Document (x : Tree) (s : List Char) : Prop :=
  ∃ v t w, Blank v ∧ Blank w ∧ Says x t ∧ s = v ++ (t ++ w)

/-! ### The reader -/

def member (value : List Char → Option (Tree × List Char)) (fuel : ℕ) :
    List Char → Option ((List Char × Tree) × List Char)
  | [] => none
  | c :: r =>
    if c = '"' then (characters fuel r).bind fun p =>
      match skip p.2 with
      | [] => none
      | d :: r => if d = ':' then (value (skip r)).map fun q => ((p.1, q.1), q.2) else none
    else none

def value : ℕ → List Char → Option (Tree × List Char)
  | 0, _ => none
  | _ + 1, [] => none
  | fuel + 1, c :: r =>
    if c = '"' then (characters fuel r).map fun p => (.str p.1, p.2)
    else if c = '[' then (listed (value fuel) ']' fuel r).map fun p => (.arr p.1, p.2)
    else if c = '\x7b' then
      (listed (member (value fuel) fuel) '\x7d' fuel r).map fun p => (.obj p.1, p.2)
    else
      match word (c :: r) with
      | some p => some (.word p.1, p.2)
      | none => (numeral (c :: r)).map fun p => (.numeral p.1, p.2)

def read (s : List Char) : Option Tree :=
  (value (s.length + 1) (skip s)).bind fun p => if (skip p.2).isEmpty then some p.1 else none

/-! ### What is read is in the grammar -/

variable {R : Tree → List Char → Prop} {s t r rest : List Char} {x y : Tree} {fuel : ℕ}

lemma member_sound {item : List Char → Option (Tree × List Char)} (hitem : Sound item R) :
    Sound (member item fuel) (Member R) := by
  intro s p r h
  unfold member at h
  split at h
  · cases h
  split at h
  · next c s' hc =>
    obtain ⟨⟨name, s₁⟩, hname, hrest⟩ := Option.bind_eq_some_iff.mp h
    obtain ⟨t, rfl, ht⟩ := characters_sound hname
    obtain ⟨u, hu, hs₁⟩ := exists_blank s₁
    split at hrest
    · cases hrest
    next d r' hskip =>
    split at hrest
    · next hd =>
      obtain ⟨⟨y, r''⟩, hy, heq⟩ := Option.map_eq_some_iff.mp hrest
      obtain ⟨rfl, rfl⟩ := Prod.mk.inj heq
      obtain ⟨v, hv, hr'⟩ := exists_blank r'
      obtain ⟨w, hw, hx⟩ := hitem _ _ _ hy
      refine ⟨'"' :: (t ++ '"' :: (u ++ ':' :: (v ++ w))), ?_, .mk ht hu hv hx⟩
      have hs₁ : s₁ = u ++ d :: r' := by rw [← hskip]; exact hs₁
      rw [hs₁, hr', hw, hc, hd]
      simp
    · cases hrest
  · cases h

/-- **Soundness**: what is read as a value is a text of it. -/
theorem value_sound (fuel : ℕ) : Sound (value fuel) Says := by
  induction fuel with
  | zero => exact fun _ _ _ h => by cases h
  | succ n ih =>
    intro s x r h
    cases s with
    | nil => cases h
    | cons c s =>
      rw [value] at h
      split at h
      · next hc =>
        obtain ⟨⟨l, r'⟩, hl, heq⟩ := Option.map_eq_some_iff.mp h
        obtain ⟨rfl, rfl⟩ := Prod.mk.inj heq
        obtain ⟨t, rfl, ht⟩ := characters_sound hl
        exact ⟨'"' :: (t ++ ['"']), by simp [hc], .str ht⟩
      split at h
      · next hc =>
        obtain ⟨⟨l, r'⟩, hl, heq⟩ := Option.map_eq_some_iff.mp h
        obtain ⟨rfl, rfl⟩ := Prod.mk.inj heq
        obtain ⟨t, rfl, ht⟩ := listed_sound ih hl
        exact ⟨'[' :: (t ++ [']']), by simp [hc], .arr ht⟩
      split at h
      · next hc =>
        obtain ⟨⟨m, r'⟩, hm, heq⟩ := Option.map_eq_some_iff.mp h
        obtain ⟨rfl, rfl⟩ := Prod.mk.inj heq
        obtain ⟨t, rfl, ht⟩ := listed_sound (member_sound ih) hm
        exact ⟨'\x7b' :: (t ++ ['\x7d']), by simp [hc], .obj ht⟩
      split at h
      · next p hp =>
        obtain ⟨rfl, rfl⟩ := Prod.mk.inj (Option.some.inj h)
        exact ⟨_, word_sound hp, .word _⟩
      · obtain ⟨⟨k, r'⟩, hk, heq⟩ := Option.map_eq_some_iff.mp h
        obtain ⟨rfl, rfl⟩ := Prod.mk.inj heq
        exact ⟨_, numeral_sound hk, .numeral _⟩

/-! ### The first character -/

lemma Numeral.text_starts (n : Numeral) : ∃ c r, n.text = c :: r ∧
    (c.isDigit = true ∨ c = '-' ∧ ∃ d r', r = d :: r' ∧ d.isDigit = true) := by
  obtain ⟨negative, w, f, e, hw, -, -⟩ := n
  obtain ⟨d, r, rfl, hd⟩ : ∃ d r, w = d :: r ∧ d.isDigit = true := by
    rcases hw with rfl | ⟨c, r, rfl, -, hdigits⟩
    · exact ⟨_, _, rfl, rfl⟩
    · exact ⟨c, r, rfl, hdigits c List.mem_cons_self⟩
  cases negative with
  | true => exact ⟨_, _, rfl, Or.inr ⟨rfl, d, _, rfl, hd⟩⟩
  | false => exact ⟨_, _, rfl, Or.inl hd⟩

/-- The first character of a digit or a sign is no bracket, quote or blank. -/
lemma numeral_start {c : Char} (h : c.isDigit = true ∨ c = '-') : isBlank c = false ∧
    c ≠ '"' ∧ c ≠ '[' ∧ c ≠ '\x7b' ∧ c ≠ ']' ∧ c ≠ '\x7d' := by
  refine ⟨?_, ?_, ?_, ?_, ?_, ?_⟩
  · by_contra hc
    simp only [isBlank, Bool.not_eq_false, Bool.or_eq_true, decide_eq_true_eq] at hc
    rcases hc with ((rfl | rfl) | rfl) | rfl <;> revert h <;> decide
  all_goals
    rintro rfl
    revert h
    decide

lemma word_starts (w : Word) : ∃ c r, w.text = c :: r ∧ c.isDigit = false ∧
    (c = '-' → ∃ r', r = 'I' :: r') ∧ c ≠ '[' ∧ c ≠ '\x7b' := by
  cases w with
  | negativeInfinity => exact ⟨_, _, rfl, by decide, fun _ => ⟨_, rfl⟩, by decide, by decide⟩
  | _ => exact ⟨_, _, rfl, by decide, fun h => absurd h (by decide), by decide, by decide⟩

/-- No numeral is read as a word. -/
lemma word_numeral (n : Numeral) (rest : List Char) : word (n.text ++ rest) = none := by
  have hnone : ∀ w ∈ Word.all, ¬ w.text.isPrefixOf (n.text ++ rest) = true := by
    intro w _ hw
    obtain ⟨u, hu⟩ := List.isPrefixOf_iff_prefix.mp hw
    obtain ⟨c, r, htext, h⟩ := n.text_starts
    obtain ⟨d, r', hword, hd, hminus, -⟩ := word_starts w
    rw [htext, hword] at hu
    obtain ⟨rfl, hr⟩ := List.cons.inj hu
    rcases h with hc | ⟨rfl, e, r'', rfl, he⟩
    · rw [hc] at hd
      cases hd
    · obtain ⟨v, rfl⟩ := hminus rfl
      obtain ⟨rfl, -⟩ := List.cons.inj hr
      cases he
  rw [word, List.find?_eq_none.mpr hnone]
  rfl

/-- A value starts with no blank and no closing bracket. -/
lemma Says.starts (h : Says x t) :
    ∃ c r, t = c :: r ∧ isBlank c = false ∧ c ≠ ']' ∧ c ≠ '\x7d' := by
  cases h with
  | word w => cases w <;> exact ⟨_, _, rfl, by decide, by decide, by decide⟩
  | numeral n =>
    obtain ⟨c, r, htext, hc⟩ := n.text_starts
    obtain ⟨hblank, -, -, -, hbracket, hbrace⟩ := numeral_start (hc.imp_right And.left)
    exact ⟨c, r, htext, hblank, hbracket, hbrace⟩
  | str _ => exact ⟨_, _, rfl, by decide, by decide, by decide⟩
  | arr _ => exact ⟨_, _, rfl, by decide, by decide, by decide⟩
  | obj _ => exact ⟨_, _, rfl, by decide, by decide, by decide⟩

lemma starts_tree : Starts Says ']' := by
  intro x t h
  obtain ⟨c, r, rfl, hblank, hc, -⟩ := h.starts
  exact ⟨c, r, rfl, hblank, hc⟩

lemma starts_member : Starts (Member R) '\x7d' := by
  rintro _ _ ⟨⟩
  exact ⟨_, _, rfl, by decide, by decide⟩

lemma closes_bracket : Closes ']' := ⟨rfl, by decide, by decide⟩
lemma closes_brace : Closes '\x7d' := ⟨rfl, by decide, by decide⟩

/-! ### What is in the grammar is read -/

lemma member_append {item : List Char → Option (Tree × List Char)}
    (hR : ∀ x t, R x t → Stops isBlank t ∧ t ≠ []) {p : List Char × Tree} (h : Member R p t)
    (hreads : ∀ u, u.length ≤ t.length → R p.2 u → Reads item p.2 u) (hfuel : t.length ≤ fuel) :
    Reads (member item fuel) p t := by
  intro rest hrest
  cases h with
  | @mk s t u v w x hs hu hv hx =>
    simp only [List.length_cons, List.length_append] at hfuel hreads
    have hname : characters fuel (t ++ '"' :: (u ++ ':' :: (v ++ (w ++ rest)))) =
        some (s, u ++ ':' :: (v ++ (w ++ rest))) := characters_append hs _ (by omega)
    have hcolon : skip (u ++ ':' :: (v ++ (w ++ rest))) = ':' :: (v ++ (w ++ rest)) :=
      skip_blank hu (stops_cons rfl)
    have hvalue : skip (v ++ (w ++ rest)) = w ++ rest := by
      refine skip_blank hv (fun c hc => (hR x w hx).1 c ?_)
      rwa [List.head?_append_of_ne_nil _ (hR x w hx).2] at hc
    have hitem : item (w ++ rest) = some (x, rest) := hreads w (by omega) hx rest hrest
    have htext : '"' :: (t ++ '"' :: (u ++ ':' :: (v ++ w))) ++ rest =
        '"' :: (t ++ '"' :: (u ++ ':' :: (v ++ (w ++ rest)))) := by simp
    rw [htext, member, if_pos rfl, hname, Option.bind_some, hcolon]
    dsimp only
    rw [if_pos rfl, hvalue, hitem]
    rfl

lemma says_stops (x : Tree) (t : List Char) (h : Says x t) : Stops isBlank t ∧ t ≠ [] := by
  obtain ⟨c, r, rfl, hblank, -⟩ := h.starts
  exact ⟨stops_cons hblank, List.cons_ne_nil c r⟩

/-- A list between brackets is read whatever follows it. -/
lemma value_arr {l : List Tree} (h : Listed Says l t)
    (hreads : ∀ x ∈ l, ∀ u, u.length ≤ t.length → Says x u → Reads (value fuel) x u)
    (hfuel : t.length < fuel) (rest : List Char) :
    value (fuel + 1) ('[' :: (t ++ ']' :: rest)) = some (.arr l, rest) := by
  rw [value, if_neg (by decide), if_pos rfl,
    listed_append closes_bracket starts_tree h hreads hfuel rest]
  rfl

lemma value_obj {m : List (List Char × Tree)} (h : Listed (Member Says) m t)
    (hreads : ∀ q ∈ m, ∀ u, u.length ≤ t.length → Says q.2 u → Reads (value fuel) q.2 u)
    (hfuel : t.length < fuel) (rest : List Char) :
    value (fuel + 1) ('\x7b' :: (t ++ '\x7d' :: rest)) = some (.obj m, rest) := by
  have hmembers : ∀ q ∈ m, ∀ u, u.length ≤ t.length → Member Says q u →
      Reads (member (value fuel) fuel) q u := fun q hq u hu hmember =>
    member_append says_stops hmember (fun v hv => hreads q hq v (Nat.le_trans hv hu))
      (Nat.le_of_lt (Nat.lt_of_le_of_lt hu hfuel))
  rw [value, if_neg (by decide), if_neg (by decide), if_pos rfl,
    listed_append closes_brace starts_member h hmembers hfuel rest]
  rfl

/-- **Completeness**: a text of a value is read, with as much fuel as it is long. -/
theorem value_append (x : Tree) : ∀ t, Says x t → ∀ fuel, t.length ≤ fuel →
    Reads (value fuel) x t := by
  induction x using Tree.ind with
  | word w =>
    intro t h fuel hfuel rest _
    cases h
    obtain ⟨n, rfl⟩ : ∃ n, fuel = n + 1 := by
      obtain ⟨c, r, htext, -⟩ := word_starts w
      rw [htext, List.length_cons] at hfuel
      exact ⟨fuel - 1, by omega⟩
    cases w <;> rfl
  | numeral n =>
    intro t h fuel hfuel rest hrest
    cases h
    have hnumeral := numeral_append n hrest
    have hword := word_numeral n rest
    obtain ⟨c, r, htext, hc⟩ := n.text_starts
    obtain ⟨-, hquote, hbracket, hbrace, -⟩ := numeral_start (hc.imp_right And.left)
    rw [htext] at hnumeral hword hfuel ⊢
    obtain ⟨k, rfl⟩ : ∃ k, fuel = k + 1 := ⟨fuel - 1, by rw [List.length_cons] at hfuel; omega⟩
    rw [List.cons_append] at hnumeral hword ⊢
    rw [value, if_neg hquote, if_neg hbracket, if_neg hbrace, hword, hnumeral]
    rfl
  | str s =>
    intro t h fuel hfuel rest _
    cases h with
    | @str s t hs =>
      simp only [List.length_cons, List.length_append, List.length_nil] at hfuel
      obtain ⟨n, rfl⟩ : ∃ n, fuel = n + 1 := ⟨fuel - 1, by omega⟩
      have hread : characters n (t ++ '"' :: rest) = some (s, rest) :=
        characters_append hs rest (by omega)
      rw [List.cons_append, List.append_assoc, List.singleton_append, value, if_pos rfl, hread]
      rfl
  | arr l ih =>
    intro t h fuel hfuel rest _
    cases h with
    | @arr l t hl =>
      simp only [List.length_cons, List.length_append, List.length_nil] at hfuel
      obtain ⟨n, rfl⟩ : ∃ n, fuel = n + 1 := ⟨fuel - 1, by omega⟩
      rw [List.cons_append, List.append_assoc, List.singleton_append]
      exact value_arr hl (fun x hx u hu hsaid => ih x hx u hsaid n (by omega)) (by omega) rest
  | obj m ih =>
    intro t h fuel hfuel rest _
    cases h with
    | @obj m t hm =>
      simp only [List.length_cons, List.length_append, List.length_nil] at hfuel
      obtain ⟨n, rfl⟩ : ∃ n, fuel = n + 1 := ⟨fuel - 1, by omega⟩
      rw [List.cons_append, List.append_assoc, List.singleton_append]
      exact value_obj hm (fun q hq u hu hsaid => ih q hq u hsaid n (by omega)) (by omega) rest

/-- **Reading** accepts the documents of the grammar, and no other texts. -/
theorem read_eq_some : read s = some x ↔ Document x s := by
  constructor
  · intro h
    obtain ⟨⟨y, r⟩, hy, hend⟩ := Option.bind_eq_some_iff.mp h
    split at hend
    · next hempty =>
      obtain rfl := Option.some.inj hend
      obtain ⟨v, hv, hs⟩ := exists_blank s
      obtain ⟨t, ht, hsaid⟩ := value_sound _ _ _ _ hy
      obtain ⟨w, hw, hr⟩ := exists_blank r
      rw [List.isEmpty_iff.mp hempty, List.append_nil] at hr
      exact ⟨v, t, r, hv, hr ▸ hw, hsaid, by rw [← ht]; exact hs⟩
    · cases hend
  · rintro ⟨v, t, w, hv, hw, hsaid, rfl⟩
    obtain ⟨hstops, hne⟩ := says_stops x t hsaid
    have hskip : skip (v ++ (t ++ w)) = t ++ w := by
      refine skip_blank hv fun c hc => hstops c ?_
      rwa [List.head?_append_of_ne_nil _ hne] at hc
    have hapart : Apart w := by
      have happend : Apart (w ++ []) := hw.apart stops_nil
      rwa [List.append_nil] at happend
    have hvalue : value ((v ++ (t ++ w)).length + 1) (t ++ w) = some (x, w) :=
      value_append x t hsaid _ (by simp; omega) w hapart
    have hend : skip w = [] := by
      have happend : skip (w ++ []) = [] := skip_blank hw stops_nil
      rwa [List.append_nil] at happend
    rw [read, hskip, hvalue, Option.bind_some, hend]
    rfl

/-! ### The printer -/

/-- How a text is written: whether other characters than those of ASCII are escaped, the indentation
of a level, and the blanks behind a comma and a colon. -/
structure Style where
  ascii : Bool
  indent : Option ℕ
  afterComma : List Char
  afterColon : List Char
  afterComma_blank : Blank afterComma
  afterColon_blank : Blank afterColon

def hexDigit (n : ℕ) : Char := if n < 10 then Char.ofNat (48 + n) else Char.ofNat (87 + n)

/-- The escape of a code in four digits. -/
def codeText (n : ℕ) : List Char :=
  ['\\', 'u', hexDigit (n / 4096 % 16), hexDigit (n / 256 % 16), hexDigit (n / 16 % 16),
    hexDigit (n % 16)]

/-- The letters of the escapes that are written. -/
def letters : List (Char × Char) :=
  [('"', '"'), ('\\', '\\'), ('\x08', 'b'), ('\x0c', 'f'), ('\n', 'n'), ('\r', 'r'), ('\t', 't')]

def escapeChar (ascii : Bool) (c : Char) : List Char :=
  match letters.lookup c with
  | some e => ['\\', e]
  | none =>
    if c.toNat < 0x20 ∨ ascii = true ∧ 0x7e < c.toNat then
      if c.toNat < 0x10000 then codeText c.toNat
      else codeText (0xd800 + (c.toNat - 0x10000) / 0x400) ++
        codeText (0xdc00 + (c.toNat - 0x10000) % 0x400)
    else [c]

section Printer

variable (σ : Style)

def stringText (s : List Char) : List Char := '"' :: (s.flatMap (escapeChar σ.ascii) ++ ['"'])

/-- The line break before an item of the level. -/
def gap (level : ℕ) : List Char :=
  match σ.indent with
  | none => []
  | some n => '\n' :: List.replicate (n * level) ' '

/-- What stands between the brackets, where an item is on the level. -/
def between (level : ℕ) (items : List (List Char)) : List Char :=
  if items.isEmpty then []
  else
    gap σ level ++ ((',' :: (σ.afterComma ++ gap σ level)).intercalate items ++ gap σ (level - 1))

mutual
def print (level : ℕ) : Tree → List Char
  | .word w => w.text
  | .numeral n => n.text
  | .str s => stringText σ s
  | .arr l => '[' :: (between σ (level + 1) (printEach (level + 1) l) ++ [']'])
  | .obj m => '\x7b' :: (between σ (level + 1) (printMembers (level + 1) m) ++ ['\x7d'])
def printEach (level : ℕ) : List Tree → List (List Char)
  | [] => []
  | x :: l => print level x :: printEach level l
def printMembers (level : ℕ) : List (List Char × Tree) → List (List Char)
  | [] => []
  | (s, x) :: m =>
    (stringText σ s ++ ':' :: (σ.afterColon ++ print level x)) :: printMembers level m
end

end Printer

/-! ### What is printed is in the grammar -/

lemma hexValue_hexDigit : ∀ d < 16, hexValue (hexDigit d) = some d := by decide

lemma hexCode_codeText {n : ℕ} (hn : n < 0x10000) :
    ∃ t, codeText n = '\\' :: 'u' :: t ∧ hexCode t = some (n, []) := by
  refine ⟨_, rfl, ?_⟩
  have hdigit : ∀ k, hexValue (hexDigit (k % 16)) = some (k % 16) :=
    fun k => hexValue_hexDigit _ (Nat.mod_lt _ (by omega))
  simp only [hexCode, hdigit]
  rw [show ((n / 4096 % 16 * 16 + n / 256 % 16) * 16 + n / 16 % 16) * 16 + n % 16 = n by omega]

lemma spelled_letter {c e : Char} (h : letters.lookup c = some e) : Spelled c ['\\', e] := by
  have hletters : ∀ p ∈ letters, p.2 ≠ 'u' ∧ escapes.lookup p.2 = some p.1 := by decide
  obtain ⟨l, r, hl, -⟩ := List.lookup_eq_some_iff.mp h
  obtain ⟨hu, he⟩ := hletters (c, e) (by rw [hl]; exact List.mem_append_right _ List.mem_cons_self)
  exact .letter hu he

/-- A character beyond the basic plane is that of its pair of surrogates. -/
lemma paired_toNat (c : Char) (h : 0x10000 ≤ c.toNat) :
    paired (0xd800 + (c.toNat - 0x10000) / 0x400) (0xdc00 + (c.toNat - 0x10000) % 0x400) = c := by
  have hcode : 0x10000 + (0xd800 + (c.toNat - 0x10000) / 0x400 - 0xd800) * 0x400 +
      (0xdc00 + (c.toNat - 0x10000) % 0x400 - 0xdc00) = c.toNat := by omega
  rw [paired, hcode, Char.ofNat_toNat]

lemma spelled_escapeChar (ascii : Bool) (c : Char) : Spelled c (escapeChar ascii c) := by
  have hvalid : c.toNat < 0xd800 ∨ 0xdfff < c.toNat ∧ c.toNat < 0x110000 := c.valid
  unfold escapeChar
  split
  · next e he => exact spelled_letter he
  next hnone =>
  split
  · split
    · next hlt =>
      obtain ⟨t, htext, ht⟩ := hexCode_codeText hlt
      have hcode : Spelled (Char.ofNat c.toNat) ('\\' :: 'u' :: t) :=
        .code ht (by simp [isHighSurrogate]; omega) (by simp [isLowSurrogate]; omega)
      rwa [htext, ← Char.ofNat_toNat c]
    · next hge =>
      obtain ⟨t, htext, ht⟩ := hexCode_codeText
        (n := 0xd800 + (c.toNat - 0x10000) / 0x400) (by omega)
      obtain ⟨u, hutext, hu⟩ := hexCode_codeText
        (n := 0xdc00 + (c.toNat - 0x10000) % 0x400) (by omega)
      have hpair := Spelled.pair ht (by simp [isHighSurrogate]; omega) hu
        (by simp [isLowSurrogate]; omega)
      rwa [paired_toNat c (by omega), ← hutext, ← htext] at hpair
  · next hplain =>
    have hne : ∀ p ∈ letters, c ≠ p.1 := by
      intro p hp hc
      have := List.lookup_eq_none_iff.mp hnone p hp
      simp [hc] at this
    refine .plain (hne ('"', '"') (by decide)) (hne ('\\', '\\') (by decide)) ?_
    rw [not_or] at hplain
    exact Nat.not_lt.mp hplain.1

variable {σ : Style}

lemma spells_flatMap (ascii : Bool) (s : List Char) : Spells s (s.flatMap (escapeChar ascii)) := by
  induction s with
  | nil => exact .nil
  | cons c s ih =>
    rw [List.flatMap_cons]
    exact .cons (spelled_escapeChar ascii c) ih

lemma blank_gap (level : ℕ) : Blank (gap σ level) := by
  unfold gap
  split
  · exact blank_nil
  · refine List.forall_mem_cons.mpr ⟨rfl, fun c hc => ?_⟩
    rw [List.eq_of_mem_replicate hc]
    rfl

lemma Blank.append {v w : List Char} (hv : Blank v) (hw : Blank w) : Blank (v ++ w) :=
  List.forall_mem_append.mpr ⟨hv, hw⟩

lemma printEach_eq (level : ℕ) (l : List Tree) : printEach σ level l = l.map (print σ level) := by
  induction l with
  | nil => rw [printEach, List.map_nil]
  | cons x l ih => rw [printEach, ih, List.map_cons]

/-- The text of a member. -/
def memberText (σ : Style) (level : ℕ) (q : List Char × Tree) : List Char :=
  stringText σ q.1 ++ ':' :: (σ.afterColon ++ print σ level q.2)

lemma printMembers_eq (level : ℕ) (m : List (List Char × Tree)) :
    printMembers σ level m = m.map (memberText σ level) := by
  induction m with
  | nil => rw [printMembers, List.map_nil]
  | cons q m ih =>
    obtain ⟨s, x⟩ := q
    rw [printMembers, ih, List.map_cons, memberText]

lemma row_intercalate {α : Type} {R : α → List Char → Prop} {f : α → List Char} {v w : List Char}
    (hv : Blank v) (hw : Blank w) {l : List α} (hl : l ≠ []) (hR : ∀ x ∈ l, R x (f x)) :
    Row R l ((',' :: v).intercalate (l.map f) ++ w) := by
  induction l with
  | nil => exact absurd rfl hl
  | cons x l ih =>
    obtain ⟨hx, htail⟩ := List.forall_mem_cons.mp hR
    cases l with
    | nil => simpa using Row.last hx hw
    | cons y l =>
      have hrow := Row.more hx blank_nil hv (ih (List.cons_ne_nil y l) htail)
      simpa [List.intercalate, List.intersperse] using hrow

lemma listed_between {α : Type} {R : α → List Char → Prop} {f : α → List Char} {l : List α}
    (level : ℕ) (hR : ∀ x ∈ l, R x (f x)) : Listed R l (between σ level (l.map f)) := by
  cases l with
  | nil => exact .empty blank_nil
  | cons x l =>
    exact .row (blank_gap level) (row_intercalate (σ.afterComma_blank.append (blank_gap level))
      (blank_gap (level - 1)) (List.cons_ne_nil x l) hR)

/-- **Printing** writes texts of the grammar. -/
theorem says_print (x : Tree) : ∀ level, Says x (print σ level x) := by
  induction x using Tree.ind with
  | word w => exact fun _ => .word w
  | numeral n => exact fun _ => .numeral n
  | str s => exact fun _ => .str (spells_flatMap σ.ascii s)
  | arr l ih =>
    intro level
    rw [print, printEach_eq]
    exact .arr (listed_between _ fun x hx => ih x hx _)
  | obj m ih =>
    intro level
    rw [print, printMembers_eq]
    refine .obj (listed_between _ fun q hq => ?_)
    have hmember := Member.mk (spells_flatMap σ.ascii q.1) blank_nil σ.afterColon_blank
      (ih q hq (level + 1))
    simpa [memberText, stringText] using hmember

/-- **The round trip**: what is printed is read. -/
theorem read_print (x : Tree) (level : ℕ) : read (print σ level x) = some x :=
  read_eq_some.mpr ⟨[], print σ level x, [], blank_nil, blank_nil, says_print x level,
    (List.append_nil _).symm⟩

/-! ### A text of which a part is missing -/

def Bracketed : Tree → Prop
  | .arr _ | .obj _ => True
  | _ => False

lemma Says.bracketed {c : Char} (h : Says x (c :: r)) (hc : c = '[' ∨ c = '\x7b') :
    Bracketed x := by
  generalize ht : c :: r = t at h
  cases h with
  | word w =>
    obtain ⟨d, r', hword, -, -, hbracket, hbrace⟩ := word_starts w
    rw [hword] at ht
    obtain ⟨rfl, -⟩ := List.cons.inj ht
    exact absurd hc (by simp [hbracket, hbrace])
  | numeral n =>
    obtain ⟨d, r', htext, hd⟩ := n.text_starts
    obtain ⟨-, -, hbracket, hbrace, -⟩ := numeral_start (hd.imp_right And.left)
    rw [htext] at ht
    obtain ⟨rfl, -⟩ := List.cons.inj ht
    exact absurd hc (by simp [hbracket, hbrace])
  | str _ =>
    obtain ⟨rfl, -⟩ := List.cons.inj ht
    exact absurd hc (by decide)
  | arr _ => trivial
  | obj _ => trivial

/-- An array or an object is read whatever follows it. -/
lemma value_bracketed (h : Says x t) (hx : Bracketed x) (hfuel : t.length ≤ fuel)
    (rest : List Char) : value fuel (t ++ rest) = some (x, rest) := by
  cases h with
  | @arr l t hl =>
    simp only [List.length_cons, List.length_append, List.length_nil] at hfuel
    obtain ⟨n, rfl⟩ : ∃ n, fuel = n + 1 := ⟨fuel - 1, by omega⟩
    rw [List.cons_append, List.append_assoc, List.singleton_append]
    exact value_arr hl (fun y _ u hu hsaid => value_append y u hsaid n (by omega)) (by omega) rest
  | @obj m t hm =>
    simp only [List.length_cons, List.length_append, List.length_nil] at hfuel
    obtain ⟨n, rfl⟩ : ∃ n, fuel = n + 1 := ⟨fuel - 1, by omega⟩
    rw [List.cons_append, List.append_assoc, List.singleton_append]
    exact value_obj hm (fun y _ u hu hsaid => value_append _ u hsaid n (by omega)) (by omega) rest
  | _ => exact hx.elim

lemma Bracketed.starts (hx : Bracketed x) (h : Says x t) :
    ∃ c r, t = c :: r ∧ (c = '[' ∨ c = '\x7b') := by
  cases h with
  | arr _ => exact ⟨_, _, rfl, Or.inl rfl⟩
  | obj _ => exact ⟨_, _, rfl, Or.inr rfl⟩
  | _ => exact hx.elim

/-- **A part is refused**: no proper beginning of the text of an array or an object is read. -/
theorem read_cut {p q : List Char} (h : Says x (p ++ q)) (hx : Bracketed x) (hq : q ≠ []) :
    read p = none := by
  by_contra hread
  obtain ⟨y, hy⟩ := Option.ne_none_iff_exists'.mp hread
  obtain ⟨v, u, w, hv, -, hsaid, rfl⟩ := read_eq_some.mp hy
  obtain ⟨c, r, htext, hc⟩ := hx.starts h
  have hblank : isBlank c = false := by rcases hc with rfl | rfl <;> rfl
  -- the beginning starts with the bracket, so it is the text of an array or an object
  obtain rfl : v = [] := by
    cases v with
    | nil => rfl
    | cons d v =>
      obtain ⟨rfl, -⟩ := List.cons.inj htext
      rw [hv d List.mem_cons_self] at hblank
      cases hblank
  obtain ⟨d, u', rfl, -⟩ := hsaid.starts
  obtain ⟨rfl, -⟩ := List.cons.inj htext
  have hlength : (d :: u').length ≤ ([] ++ (d :: u' ++ w) ++ q).length := by simp
  have hpart := value_bracketed hsaid (hsaid.bracketed hc) hlength (w ++ q)
  have hwhole := value_bracketed h hx (Nat.le_refl _) []
  have htext : [] ++ (d :: u' ++ w) ++ q ++ [] = d :: u' ++ (w ++ q) := by simp
  rw [htext, hpart] at hwhole
  obtain ⟨-, hend⟩ := Prod.mk.inj (Option.some.inj hwhole)
  exact hq (List.append_eq_nil_iff.mp hend).2

end Orchestrator.Lib.JsonText
