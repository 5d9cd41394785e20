import Orchestrator.SubmissionErrors

/-!
What a payload template renders to. A text is cut into placeholders and other characters in one
way only, since a placeholder cannot begin inside another, and its rendering is described on the
pieces: a placeholder stands for a value of the variables, and every other character for itself.
-/

namespace Orchestrator.Templates

open TaskParse PyText

/-! ### Placeholders -/

/-- `TEMPLATE_PATTERN`: a name in double braces, with blanks around it. -/
def Placeholder (name w : List Char) : Prop :=
  ∃ c rest before after, name = c :: rest ∧ isNameStart c = true ∧
    (∀ d ∈ rest, isNameChar d = true) ∧ (∀ d ∈ before, isSpace d = true) ∧
      (∀ d ∈ after, isSpace d = true) ∧
        w = '\x7b' :: '\x7b' :: (before ++ (name ++ (after ++ ['\x7d', '\x7d'])))

lemma isNameChar_range {c : Char} (h : isNameChar c = true) : 45 ≤ c.toNat ∧ c.toNat ≤ 122 := by
  change ((decide (c.val ≥ 'A'.val ∧ c.val ≤ 'Z'.val) ||
      decide (c.val ≥ 'a'.val) && decide (c.val ≤ 'z'.val) ||
      decide (c.val ≥ '0'.val) && decide (c.val ≤ '9'.val)) ||
    decide (c = '_') || decide (c = '.') || decide (c = '-')) = true at h
  simp only [Bool.or_eq_true, Bool.and_eq_true, decide_eq_true_eq, ge_iff_le,
    UInt32.le_iff_toNat_le] at h
  rcases h with (((((⟨h, h'⟩ | ⟨h, h'⟩) | ⟨h, h'⟩) | rfl) | rfl) | rfl)
  · exact ⟨Nat.le_trans (by decide) h, Nat.le_trans h' (by decide)⟩
  · exact ⟨Nat.le_trans (by decide) h, h'⟩
  · exact ⟨Nat.le_trans (by decide) h, Nat.le_trans h' (by decide)⟩
  · decide
  · decide
  · decide

lemma isNameChar_space {c : Char} (h : isSpace c = true) : isNameChar c = false := by
  rw [Bool.eq_false_iff]
  intro hname
  have hrange := isNameChar_range hname
  simp only [isSpace, Bool.or_eq_true, Bool.and_eq_true, decide_eq_true_eq, beq_iff_eq] at h
  omega

lemma isSpace_nameStart {c : Char} (h : isNameStart c = true) : isSpace c = false := by
  rw [Bool.eq_false_iff]
  intro hspace
  have hname := isNameChar_space hspace
  simp only [isNameStart, isNameChar, Char.isAlphanum, Bool.or_eq_true, Bool.or_eq_false_iff,
    decide_eq_true_eq, decide_eq_false_iff_not] at h hname
  rcases h with h | h
  · exact absurd h (hname.1.1.1.1 ▸ Bool.false_ne_true)
  · exact hname.1.1.2 h

lemma Placeholder.matched {name w : List Char} (h : Placeholder name w) (rest : List Char) :
    matchTemplate (w ++ rest) = some (String.ofList name, rest) := by
  obtain ⟨c, more, before, after, rfl, hstart, hname, hbefore, hafter, rfl⟩ := h
  have hblank : (after ++ '\x7d' :: '\x7d' :: rest).dropWhile isNameChar =
      after ++ '\x7d' :: '\x7d' :: rest := by
    cases after with
    | nil => rfl
    | cons d after =>
      exact List.dropWhile_cons_of_neg (by
        rw [isNameChar_space (hafter d List.mem_cons_self)]; exact Bool.false_ne_true)
  have hclose : ('\x7d' :: '\x7d' :: rest).dropWhile isSpace = '\x7d' :: '\x7d' :: rest := rfl
  have htake : (after ++ '\x7d' :: '\x7d' :: rest).takeWhile isNameChar = [] := by
    cases after with
    | nil => rfl
    | cons d after =>
      exact List.takeWhile_cons_of_neg (by
        rw [isNameChar_space (hafter d List.mem_cons_self)]; exact Bool.false_ne_true)
  have hopen : (before ++ c :: (more ++ (after ++ '\x7d' :: '\x7d' :: rest))).dropWhile isSpace =
      c :: (more ++ (after ++ '\x7d' :: '\x7d' :: rest)) := by
    rw [List.dropWhile_append_of_pos hbefore, List.dropWhile_cons_of_neg]
    rw [isSpace_nameStart hstart]
    exact Bool.false_ne_true
  simp only [matchTemplate, List.cons_append, List.append_assoc, List.nil_append, hopen, hstart,
    if_true, List.dropWhile_append_of_pos hname, hblank, List.dropWhile_append_of_pos hafter,
    hclose, List.takeWhile_append_of_pos hname, htake, List.append_nil]

lemma matchTemplate_some {l rest : List Char} {name : String}
    (h : matchTemplate l = some (name, rest)) :
    ∃ w, Placeholder name.toList w ∧ l = w ++ rest := by
  unfold matchTemplate at h
  split at h
  · next inner =>
    split at h
    · cases h
    · next c more hopen =>
      split at h
      · next hstart =>
        split at h
        · next after hclose =>
          cases h
          have hblanks := List.takeWhile_append_dropWhile (p := isSpace) (l := inner)
          have hname := List.takeWhile_append_dropWhile (p := isNameChar) (l := more)
          have hspaces := List.takeWhile_append_dropWhile (p := isSpace)
            (l := more.dropWhile isNameChar)
          rw [hopen] at hblanks
          rw [hclose] at hspaces
          refine ⟨_, ⟨c, more.takeWhile isNameChar, inner.takeWhile isSpace,
            (more.dropWhile isNameChar).takeWhile isSpace, String.toList_ofList, hstart,
              fun d hd => (List.mem_takeWhile_imp hd), fun d hd => List.mem_takeWhile_imp hd,
                fun d hd => List.mem_takeWhile_imp hd, rfl⟩, ?_⟩
          simp only [String.toList_ofList, List.cons_append, List.append_assoc, List.nil_append,
            hspaces, hname, hblanks]
        · cases h
      · cases h
  · cases h

lemma matchTemplate_none {l : List Char} :
    matchTemplate l = none ↔ ∀ name w rest, Placeholder name w → l ≠ w ++ rest := by
  constructor
  · rintro h name w rest hw rfl
    rw [hw.matched] at h
    cases h
  · intro h
    cases hm : matchTemplate l with
    | none => rfl
    | some m =>
      obtain ⟨w, hw, hl⟩ := matchTemplate_some hm
      exact absurd hl (h _ w m.2 hw)

/-! ### Cutting a text -/

inductive Segment
  | char (c : Char)
  | hole (name : String)

/-- The pieces of a text: its placeholders, and the characters at which none begins. -/
inductive Cut : List Char → List Segment → Prop
  | nil : Cut [] []
  | hole {name : String} {w rest : List Char} {segments : List Segment}
      (found : Placeholder name.toList w) (others : Cut rest segments) :
      Cut (w ++ rest) (.hole name :: segments)
  | char {c : Char} {rest : List Char} {segments : List Segment}
      (none_here : ∀ name w rest', Placeholder name w → c :: rest ≠ w ++ rest')
      (others : Cut rest segments) : Cut (c :: rest) (.char c :: segments)

lemma Placeholder.length_pos {name w : List Char} (h : Placeholder name w) : 0 < w.length := by
  obtain ⟨_, _, _, _, -, -, -, -, -, rfl⟩ := h
  exact Nat.succ_pos _

/-- The pieces of a text that begins with a placeholder. -/
lemma Cut.of_matched {l rest : List Char} {name : String} {segments : List Segment}
    (hm : matchTemplate l = some (name, rest)) (h : Cut l segments) :
    ∃ others, segments = .hole name :: others ∧ Cut rest others := by
  cases h with
  | nil => cases hm
  | hole found others =>
    rw [found.matched, String.ofList_toList] at hm
    cases hm
    exact ⟨_, rfl, others⟩
  | char none_here others =>
    obtain ⟨w, hw, hl⟩ := matchTemplate_some hm
    exact absurd hl (none_here _ _ _ hw)

/-- The pieces of a text at the first character of which no placeholder begins. -/
lemma Cut.of_unmatched {c : Char} {rest : List Char} {segments : List Segment}
    (hm : matchTemplate (c :: rest) = none) (h : Cut (c :: rest) segments) :
    ∃ others, segments = .char c :: others ∧ Cut rest others := by
  generalize hl : c :: rest = l at h
  cases h with
  | nil => cases hl
  | hole found others => exact absurd hl (matchTemplate_none.mp hm _ _ _ found)
  | char none_here others =>
    cases hl
    exact ⟨_, rfl, others⟩

lemma cut_exists (l : List Char) : ∃ segments, Cut l segments := by
  induction h : l.length using Nat.strong_induction_on generalizing l with
  | _ n ih =>
    cases l with
    | nil => exact ⟨[], .nil⟩
    | cons c rest =>
      cases hm : matchTemplate (c :: rest) with
      | none =>
        obtain ⟨segments, hs⟩ := ih rest.length (h ▸ Nat.lt_succ_self _) rest rfl
        exact ⟨_, .char (matchTemplate_none.mp hm) hs⟩
      | some m =>
        obtain ⟨w, hw, hl⟩ := matchTemplate_some hm
        have hlt : m.2.length < n := by
          rw [← h, hl, List.length_append]
          exact Nat.lt_add_of_pos_left hw.length_pos
        obtain ⟨segments, hs⟩ := ih m.2.length hlt m.2 rfl
        rw [hl]
        exact ⟨_, .hole hw hs⟩

/-- A text is cut in one way only. -/
lemma Cut.unique {l : List Char} {segments segments' : List Segment} (h : Cut l segments)
    (h' : Cut l segments') : segments = segments' := by
  induction h generalizing segments' with
  | nil =>
    generalize hl : ([] : List Char) = l at h'
    cases h' with
    | nil => rfl
    | hole found others =>
      have hlen := congrArg List.length hl
      rw [List.length_append, List.length_nil] at hlen
      have hpos := found.length_pos
      omega
    | char none_here others => cases hl
  | hole found others ih =>
    obtain ⟨_, rfl, hothers⟩ := h'.of_matched (by rw [found.matched, String.ofList_toList])
    rw [ih hothers]
  | char none_here others ih =>
    obtain ⟨_, rfl, hothers⟩ := h'.of_unmatched (matchTemplate_none.mpr none_here)
    rw [ih hothers]

/-! ### Variables -/

/-- A path of keys leads from one value to another. -/
inductive Leads : Json → List String → Json → Prop
  | here (value : Json) : Leads value [] value
  | step {m : Mapping} {part : String} {parts : List String} {inner value : Json}
      (field : m.lookup part = some inner) (rest : Leads inner parts value) :
      Leads (.obj m) (part :: parts) value

/-- A name stands for the value at the end of the path that its dots divide it into. -/
def Resolves (vars : Mapping) (name : String) (value : Json) : Prop :=
  Leads (.obj vars) ((name.toList.splitOn '.').map String.ofList) value

lemma splitDots_eq (l : List Char) : splitDots l = (l.splitOn '.').map String.ofList := by
  induction l with
  | nil => rfl
  | cons c r ih =>
    rw [splitDots, List.splitOn, List.splitOnP_cons_eq_if_modifyHead, ← List.splitOn, ih]
    by_cases hc : c = '.'
    · rw [if_pos hc, if_pos (beq_iff_eq.mpr hc)]
      rfl
    · rw [if_neg hc, if_neg (mt beq_iff_eq.mp hc)]
      cases hr : r.splitOn '.' with
      | nil => exact absurd hr (List.splitOnP_ne_nil _ _)
      | cons part parts =>
        rw [List.map_cons, List.modifyHead_cons, List.map_cons]
        refine congrArg₂ List.cons (String.toList_inj.mp ?_) rfl
        rw [String.toList_append, String.toList_ofList, String.toList_ofList,
          String.toList_singleton, List.singleton_append]

lemma follow_eq_some {value result : Json} {path : List String} :
    follow value path = some result ↔ Leads value path result := by
  induction path generalizing value with
  | nil =>
    constructor
    · intro h
      cases h
      exact .here _
    · intro h
      cases h
      rfl
  | cons part parts ih =>
    constructor
    · intro h
      cases value with
      | obj m =>
        cases hm : m.lookup part with
        | none =>
          simp only [follow, hm] at h
          cases h
        | some inner =>
          simp only [follow, hm] at h
          exact .step hm (ih.mp h)
      | _ => cases h
    · intro h
      cases h with
      | step field rest =>
        simp only [follow, field]
        exact ih.mpr rest

variable {vars : Mapping} {fieldName : String}

lemma templateVariable_eq_ok {name : String} {value : Json} :
    templateVariable vars name fieldName = .ok value ↔ Resolves vars name value := by
  rw [Resolves, ← splitDots_eq, ← follow_eq_some, templateVariable]
  cases h : follow (.obj vars) (splitDots name.toList) with
  | none => exact iff_of_false (fun h => by cases h) (fun h => by cases h)
  | some found =>
    constructor
    · intro h
      cases h
      rfl
    · intro h
      cases h
      rfl

/-! ### Strings -/

/-- The pieces with the text of each variable in its place. -/
inductive Filled (vars : Mapping) : List Segment → List Char → Prop
  | nil : Filled vars [] []
  | hole {name : String} {value : Json} {segments : List Segment} {text : List Char}
      (found : Resolves vars name value) (others : Filled vars segments text) :
      Filled vars (.hole name :: segments) ((variableText value).toList ++ text)
  | char {c : Char} {segments : List Segment} {text : List Char}
      (others : Filled vars segments text) : Filled vars (.char c :: segments) (c :: text)

/-- A string that is one placeholder becomes the value, and any other string a string. -/
def RenderedString (vars : Mapping) (s : String) (value : Json) : Prop :=
  (∃ name, Cut s.toList [.hole name] ∧ Resolves vars name value) ∨
    ∃ segments text, Cut s.toList segments ∧ (∀ name, segments ≠ [.hole name]) ∧
      Filled vars segments text ∧ value = .str (String.ofList text)

lemma substitute_eq_ok {n : ℕ} {l text : List Char} (hn : l.length < n) :
    substitute vars fieldName n l = .ok text ↔
      ∃ segments, Cut l segments ∧ Filled vars segments text := by
  induction n generalizing l text with
  | zero => exact absurd hn (Nat.not_lt_zero _)
  | succ n ih =>
    cases l with
    | nil =>
      constructor
      · intro h
        cases h
        exact ⟨[], .nil, .nil⟩
      · rintro ⟨segments, hcut, hfilled⟩
        obtain rfl := hcut.unique .nil
        cases hfilled
        rfl
    | cons c rest =>
      rw [substitute]
      cases hm : matchTemplate (c :: rest) with
      | none =>
        have hlt : rest.length < n := Nat.lt_of_succ_lt_succ hn
        simp only [bind_eq_ok]
        constructor
        · rintro ⟨others, hothers, h⟩
          cases h
          obtain ⟨segments, hcut, hfilled⟩ := (ih hlt).mp hothers
          exact ⟨_, .char (matchTemplate_none.mp hm) hcut, .char hfilled⟩
        · rintro ⟨segments, hcut, hfilled⟩
          obtain ⟨_, rfl, hothers⟩ := hcut.of_unmatched hm
          cases hfilled with
          | char others => exact ⟨_, (ih hlt).mpr ⟨_, hothers, others⟩, rfl⟩
      | some m =>
        obtain ⟨name, after⟩ := m
        obtain ⟨w, hw, hl⟩ := matchTemplate_some hm
        have hlt : after.length < n := by
          have hlen := congrArg List.length hl
          rw [List.length_append] at hlen
          have hpos := hw.length_pos
          omega
        simp only [bind_eq_ok]
        constructor
        · rintro ⟨value, hvalue, others, hothers, h⟩
          cases h
          obtain ⟨segments, hcut, hfilled⟩ := (ih hlt).mp hothers
          rw [hl]
          exact ⟨_, .hole hw hcut, .hole (templateVariable_eq_ok.mp hvalue) hfilled⟩
        · rintro ⟨segments, hcut, hfilled⟩
          obtain ⟨_, rfl, hothers⟩ := hcut.of_matched hm
          cases hfilled with
          | hole found others =>
            exact ⟨_, templateVariable_eq_ok.mpr found, _, (ih hlt).mpr ⟨_, hothers, others⟩, rfl⟩

/-- A full match is a text of one piece. -/
lemma matchTemplate_full {l : List Char} {name : String} :
    matchTemplate l = some (name, []) ↔ Cut l [.hole name] := by
  constructor
  · intro h
    obtain ⟨w, hw, rfl⟩ := matchTemplate_some h
    exact .hole hw .nil
  · intro h
    generalize hs : [Segment.hole name] = segments at h
    cases h with
    | nil => cases hs
    | hole found others =>
      cases hs
      cases others
      rw [found.matched, String.ofList_toList]
    | char none_here others => cases hs

lemma renderTemplateString_eq_ok {s : String} {value : Json} :
    renderTemplateString s vars fieldName = .ok value ↔ RenderedString vars s value := by
  rw [renderTemplateString]
  split
  · next name hm =>
    have hcut := matchTemplate_full.mp hm
    rw [templateVariable_eq_ok]
    constructor
    · intro h
      exact .inl ⟨name, hcut, h⟩
    · rintro (⟨name', hcut', h⟩ | ⟨segments, -, hcut', hne, -⟩)
      · cases hcut.unique hcut'
        exact h
      · exact absurd (hcut'.unique hcut) (hne name)
  · next hm =>
    have hne : ∀ {segments}, Cut s.toList segments → ∀ name, segments ≠ [.hole name] := by
      rintro segments hcut name rfl
      exact hm name (matchTemplate_full.mpr hcut)
    simp only [bind_eq_ok, substitute_eq_ok (Nat.lt_succ_self _)]
    constructor
    · rintro ⟨text, ⟨segments, hcut, hfilled⟩, h⟩
      cases h
      exact .inr ⟨segments, text, hcut, hne hcut, hfilled, rfl⟩
    · rintro (⟨name, hcut, -⟩ | ⟨segments, text, hcut, -, hfilled, rfl⟩)
      · exact absurd rfl (hne hcut name)
      · exact ⟨text, ⟨segments, hcut, hfilled⟩, rfl⟩

lemma filled_exists {segments : List Segment} :
    (∃ text, Filled vars segments text) ↔
      ∀ name, .hole name ∈ segments → ∃ value, Resolves vars name value := by
  induction segments with
  | nil => exact iff_of_true ⟨[], .nil⟩ fun _ h => absurd h List.not_mem_nil
  | cons segment segments ih =>
    cases segment with
    | char c =>
      constructor
      · rintro ⟨_, ⟨⟩⟩ name hname
        next others =>
        rcases List.mem_cons.mp hname with h | h
        · cases h
        · exact ih.mp ⟨_, others⟩ name h
      · intro h
        obtain ⟨text, htext⟩ := ih.mpr fun name hname => h name (List.mem_cons_of_mem _ hname)
        exact ⟨_, .char htext⟩
    | hole name =>
      constructor
      · rintro ⟨_, ⟨⟩⟩ name' hname
        next found others =>
        rcases List.mem_cons.mp hname with h | h
        · cases h
          exact ⟨_, found⟩
        · exact ih.mp ⟨_, others⟩ name' h
      · intro h
        obtain ⟨value, hvalue⟩ := h name List.mem_cons_self
        obtain ⟨text, htext⟩ := ih.mpr fun name hname => h name (List.mem_cons_of_mem _ hname)
        exact ⟨_, .hole hvalue htext⟩

/-- The name is that of a placeholder of the string. -/
def Mentions (s name : String) : Prop := ∃ segments, Cut s.toList segments ∧ .hole name ∈ segments

lemma renderedString_exists {s : String} : (∃ value, RenderedString vars s value) ↔
    ∀ name, Mentions s name → ∃ value, Resolves vars name value := by
  obtain ⟨segments, hcut⟩ := cut_exists s.toList
  have hmentions : ∀ name, Mentions s name ↔ .hole name ∈ segments := fun name =>
    ⟨fun ⟨_, h, hmem⟩ => hcut.unique h ▸ hmem, fun h => ⟨segments, hcut, h⟩⟩
  simp only [hmentions]
  constructor
  · rintro ⟨value, ⟨name, h, hvalue⟩ | ⟨_, text, h, -, hfilled, -⟩⟩
    · obtain rfl := h.unique hcut
      intro name' hname
      cases List.mem_singleton.mp hname
      exact ⟨value, hvalue⟩
    · obtain rfl := h.unique hcut
      exact filled_exists.mp ⟨text, hfilled⟩
  · intro h
    by_cases hfull : ∃ name, segments = [.hole name]
    · obtain ⟨name, rfl⟩ := hfull
      obtain ⟨value, hvalue⟩ := h name (List.mem_singleton_self _)
      exact ⟨value, .inl ⟨name, hcut, hvalue⟩⟩
    · obtain ⟨text, htext⟩ := filled_exists.mpr h
      exact ⟨_, .inr ⟨segments, text, hcut, fun name hs => hfull ⟨name, hs⟩, htext, rfl⟩⟩

/-! ### Templates -/

mutual
/-- What a template becomes: its strings are rendered, and all else is kept. -/
def Rendered (vars : Mapping) : Json → Json → Prop
  | .str s, value => RenderedString vars s value
  | .arr l, value => ∃ items, value = .arr items ∧ RenderedItems vars l items
  | .obj m, value => ∃ fields, value = .obj fields ∧ RenderedFields vars m fields
  | x, value => value = x
def RenderedItems (vars : Mapping) : List Json → List Json → Prop
  | [], items => items = []
  | x :: l, items => ∃ y rest, items = y :: rest ∧ Rendered vars x y ∧ RenderedItems vars l rest
def RenderedFields (vars : Mapping) : List (String × Json) → List (String × Json) → Prop
  | [], fields => fields = []
  | (key, x) :: m, fields => ∃ y rest, fields = (key, y) :: rest ∧ Rendered vars x y ∧
      RenderedFields vars m rest
end

lemma pure_eq_ok {α : Type} {a b : α} : (pure a : Except Exn α) = .ok b ↔ b = a := by
  constructor
  · intro h
    cases h
    rfl
  · rintro rfl
    rfl

mutual
lemma renderPayloadTemplate_eq_ok (fieldName : String) : ∀ template value : Json,
    renderPayloadTemplate vars fieldName template = .ok value ↔ Rendered vars template value
  | .str s, value => by
    rw [renderPayloadTemplate, Rendered]
    exact renderTemplateString_eq_ok
  | .arr l, value => by
    simp only [renderPayloadTemplate, Rendered, bind_eq_ok, renderItems_eq_ok fieldName 0 l,
      pure_eq_ok, and_comm]
  | .obj m, value => by
    simp only [renderPayloadTemplate, Rendered, bind_eq_ok, renderFields_eq_ok fieldName m,
      pure_eq_ok, and_comm]
  | .null, value => pure_eq_ok
  | .bool b, value => pure_eq_ok
  | .int n, value => pure_eq_ok
  | .float x, value => pure_eq_ok
lemma renderItems_eq_ok (fieldName : String) (index : ℕ) : ∀ l items : List Json,
    renderItems vars fieldName index l = .ok items ↔ RenderedItems vars l items
  | [], items => pure_eq_ok
  | x :: l, items => by
    simp only [renderItems, RenderedItems, bind_eq_ok, renderPayloadTemplate_eq_ok _ x,
      renderItems_eq_ok fieldName (index + 1) l, pure_eq_ok]
    constructor
    · rintro ⟨y, hy, rest, hrest, h⟩
      exact ⟨y, rest, h, hy, hrest⟩
    · rintro ⟨y, rest, h, hy, hrest⟩
      exact ⟨y, hy, rest, hrest, h⟩
lemma renderFields_eq_ok (fieldName : String) : ∀ m fields : List (String × Json),
    renderFields vars fieldName m = .ok fields ↔ RenderedFields vars m fields
  | [], fields => pure_eq_ok
  | (key, x) :: m, fields => by
    simp only [renderFields, RenderedFields, bind_eq_ok, renderPayloadTemplate_eq_ok _ x,
      renderFields_eq_ok fieldName m, pure_eq_ok]
    constructor
    · rintro ⟨y, hy, rest, hrest, h⟩
      exact ⟨y, rest, h, hy, hrest⟩
    · rintro ⟨y, rest, h, hy, hrest⟩
      exact ⟨y, hy, rest, hrest, h⟩
end

/-- A string somewhere in the values of a template; keys are not rendered. -/
inductive Leaf (s : String) : Json → Prop
  | here : Leaf s (.str s)
  | item {x : Json} {l : List Json} (mem : x ∈ l) (inner : Leaf s x) : Leaf s (.arr l)
  | field {key : String} {x : Json} {m : List (String × Json)} (mem : (key, x) ∈ m)
      (inner : Leaf s x) : Leaf s (.obj m)

/-- Every placeholder in the values of a template stands for a value. -/
def AllResolve (vars : Mapping) (template : Json) : Prop :=
  ∀ s, Leaf s template → ∀ name, Mentions s name → ∃ value, Resolves vars name value

lemma allResolve_str {s : String} : AllResolve vars (.str s) ↔
    ∀ name, Mentions s name → ∃ value, Resolves vars name value := by
  constructor
  · exact fun h => h s .here
  · rintro h _ ⟨⟩
    exact h

lemma allResolve_arr {l : List Json} :
    AllResolve vars (.arr l) ↔ ∀ x ∈ l, AllResolve vars x := by
  constructor
  · exact fun h x hx s hs => h s (.item hx hs)
  · intro h s hs
    cases hs with
    | item hx inner => exact h _ hx s inner

lemma allResolve_obj {m : List (String × Json)} :
    AllResolve vars (.obj m) ↔ ∀ p ∈ m, AllResolve vars p.2 := by
  constructor
  · exact fun h p hp s hs => h s (.field hp hs)
  · intro h s hs
    cases hs with
    | field hx inner => exact h _ hx s inner

lemma allResolve_scalar {x : Json} (hx : ∀ s, ¬Leaf s x) : AllResolve vars x :=
  fun s hs => absurd hs (hx s)

mutual
lemma rendered_exists : ∀ template : Json,
    (∃ value, Rendered vars template value) ↔ AllResolve vars template
  | .str s => by
    simp only [Rendered]
    rw [allResolve_str]
    exact renderedString_exists
  | .arr l => by
    simp only [Rendered]
    rw [allResolve_arr, ← renderedItems_exists l]
    constructor
    · rintro ⟨_, items, -, h⟩
      exact ⟨items, h⟩
    · rintro ⟨items, h⟩
      exact ⟨_, items, rfl, h⟩
  | .obj m => by
    simp only [Rendered]
    rw [allResolve_obj, ← renderedFields_exists m]
    constructor
    · rintro ⟨_, fields, -, h⟩
      exact ⟨fields, h⟩
    · rintro ⟨fields, h⟩
      exact ⟨_, fields, rfl, h⟩
  | .null => iff_of_true ⟨_, rfl⟩ (allResolve_scalar fun _ h => by cases h)
  | .bool b => iff_of_true ⟨_, rfl⟩ (allResolve_scalar fun _ h => by cases h)
  | .int n => iff_of_true ⟨_, rfl⟩ (allResolve_scalar fun _ h => by cases h)
  | .float x => iff_of_true ⟨_, rfl⟩ (allResolve_scalar fun _ h => by cases h)
lemma renderedItems_exists : ∀ l : List Json,
    (∃ items, RenderedItems vars l items) ↔ ∀ x ∈ l, AllResolve vars x
  | [] => iff_of_true ⟨_, rfl⟩ fun _ h => absurd h List.not_mem_nil
  | x :: l => by
    rw [List.forall_mem_cons, ← rendered_exists x, ← renderedItems_exists l]
    constructor
    · rintro ⟨_, y, rest, -, hy, hrest⟩
      exact ⟨⟨y, hy⟩, rest, hrest⟩
    · rintro ⟨⟨y, hy⟩, rest, hrest⟩
      exact ⟨_, y, rest, rfl, hy, hrest⟩
lemma renderedFields_exists : ∀ m : List (String × Json),
    (∃ fields, RenderedFields vars m fields) ↔ ∀ p ∈ m, AllResolve vars p.2
  | [] => iff_of_true ⟨_, rfl⟩ fun _ h => absurd h List.not_mem_nil
  | (key, x) :: m => by
    rw [List.forall_mem_cons, ← rendered_exists x, ← renderedFields_exists m]
    constructor
    · rintro ⟨_, y, rest, -, hy, hrest⟩
      exact ⟨⟨y, hy⟩, rest, hrest⟩
    · rintro ⟨⟨y, hy⟩, rest, hrest⟩
      exact ⟨_, y, rest, rfl, hy, hrest⟩
end

/-- **Simultaneous substitution.** A template renders to what it becomes when every placeholder
stands for its value, exactly if all of them do; else a protocol error is raised. -/
theorem renderPayloadTemplate_substitutes (vars : Mapping) (fieldName : String) (template : Json) :
    (∀ value, renderPayloadTemplate vars fieldName template = .ok value ↔
      Rendered vars template value) ∧
    ((∃ value, renderPayloadTemplate vars fieldName template = .ok value) ↔
      AllResolve vars template) ∧
    ∀ e, renderPayloadTemplate vars fieldName template = .error e → e.kind = .taskProtocol := by
  refine ⟨renderPayloadTemplate_eq_ok fieldName template, ?_, fun e he => ?_⟩
  · simp only [renderPayloadTemplate_eq_ok]
    exact rendered_exists template
  · by_contra hkind
    exact SubmissionErrors.raises_renderPayloadTemplate fieldName template ⟨e, he, hkind⟩

/-- A value with a placeholder in it is inserted as it is. -/
example : renderTemplateString "a \x7b\x7b b \x7d\x7d" [("b", .str "\x7b\x7bc\x7d\x7d\\1")] "" =
    .ok (.str "a \x7b\x7bc\x7d\x7d\\1") := by rfl

end Orchestrator.Templates
