import Mathlib.Data.List.Nodup
import Mathlib.Data.List.Perm.Basic
import Mathlib.Data.List.Induction
import Mathlib.Algebra.BigOperators.Group.List.Basic

/-!
Insertion-ordered dictionaries: association lists with distinct keys, where assigning to a
key that is present replaces the value in place and assigning to a new key appends.

The two permutation lemmas `entries_perm` and `set_entries_perm` say that a dictionary is, up
to order, one entry and the rest; every count and every sum over the values follows from them.
-/

namespace Orchestrator.Lib

structure Dict (α β : Type) where
  entries : List (α × β)
  nodup : (entries.map Prod.fst).Nodup

namespace Dict

variable {α β : Type}

def empty : Dict α β := ⟨[], List.nodup_nil⟩

def keys (d : Dict α β) : List α := d.entries.map Prod.fst
def values (d : Dict α β) : List β := d.entries.map Prod.snd

lemma keys_nodup (d : Dict α β) : d.keys.Nodup := d.nodup

@[ext] lemma ext {d e : Dict α β} (h : d.entries = e.entries) : d = e := by
  cases d; cases e; cases h; rfl

@[simp] lemma entries_empty : (empty : Dict α β).entries = [] := rfl
@[simp] lemma values_empty : (empty : Dict α β).values = [] := rfl

variable [DecidableEq α]

def get? (d : Dict α β) (a : α) : Option β := d.entries.lookup a

/-- Assignment on the entries: in place if the key is there, at the end otherwise. -/
def assign (a : α) (b : β) : List (α × β) → List (α × β)
  | [] => [(a, b)]
  | (k, v) :: r => if k = a then (a, b) :: r else (k, v) :: assign a b r

lemma mem_keys_assign {a x : α} {b : β} {l : List (α × β)} :
    x ∈ (assign a b l).map Prod.fst ↔ x = a ∨ x ∈ l.map Prod.fst := by
  induction l with
  | nil => simp [assign]
  | cons p r ih =>
    obtain ⟨k, v⟩ := p
    by_cases h : k = a
    · subst h; simp [assign]
    · simp only [assign, if_neg h, List.map_cons, List.mem_cons, ih]
      tauto

lemma nodup_assign (a : α) (b : β) {l : List (α × β)} (h : (l.map Prod.fst).Nodup) :
    ((assign a b l).map Prod.fst).Nodup := by
  induction l with
  | nil => simp [assign]
  | cons p r ih =>
    obtain ⟨k, v⟩ := p
    rw [List.map_cons, List.nodup_cons] at h
    by_cases hk : k = a
    · subst hk; simpa [assign] using h
    · rw [assign, if_neg hk, List.map_cons, List.nodup_cons, mem_keys_assign]
      exact ⟨fun hc => hc.elim hk h.1, ih h.2⟩

def set (d : Dict α β) (a : α) (b : β) : Dict α β :=
  ⟨assign a b d.entries, nodup_assign a b d.nodup⟩

def erase (d : Dict α β) (a : α) : Dict α β :=
  ⟨d.entries.filter (fun p => p.1 ≠ a), d.nodup.sublist (List.filter_sublist.map Prod.fst)⟩

/-! ### Lookup -/

lemma lookup_cons_ite (k : α) (v : β) (r : List (α × β)) (a : α) :
    ((k, v) :: r).lookup a = if a = k then some v else r.lookup a := by
  by_cases h : a = k
  · simp [h]
  · rw [List.lookup_cons, beq_eq_false_iff_ne.mpr h, if_neg h]

@[simp] lemma get?_empty (a : α) : (empty : Dict α β).get? a = none := rfl

lemma lookup_assign (a x : α) (b : β) (l : List (α × β)) :
    (assign a b l).lookup x = if x = a then some b else l.lookup x := by
  induction l with
  | nil => rw [assign, lookup_cons_ite]
  | cons p r ih =>
    obtain ⟨k, v⟩ := p
    by_cases hk : k = a
    · subst hk
      rw [assign, if_pos rfl, lookup_cons_ite, lookup_cons_ite]
      split <;> rfl
    · rw [assign, if_neg hk, lookup_cons_ite, lookup_cons_ite, ih]
      by_cases h : x = k
      · subst h; simp [hk]
      · simp [h]

lemma get?_set (d : Dict α β) (a x : α) (b : β) :
    (d.set a b).get? x = if x = a then some b else d.get? x := lookup_assign a x b d.entries

@[simp] lemma get?_set_self (d : Dict α β) (a : α) (b : β) : (d.set a b).get? a = some b := by
  rw [get?_set, if_pos rfl]

lemma get?_set_ne (d : Dict α β) {a x : α} (b : β) (h : x ≠ a) :
    (d.set a b).get? x = d.get? x := by rw [get?_set, if_neg h]

lemma lookup_eq_some {l : List (α × β)} (h : (l.map Prod.fst).Nodup) {a : α} {b : β} :
    l.lookup a = some b ↔ (a, b) ∈ l := by
  induction l with
  | nil => simp
  | cons p r ih =>
    obtain ⟨k, v⟩ := p
    rw [List.map_cons, List.nodup_cons] at h
    rw [lookup_cons_ite, List.mem_cons, Prod.mk.injEq]
    by_cases hk : a = k
    · subst hk
      have : (a, b) ∉ r := fun hm => h.1 (List.mem_map.mpr ⟨_, hm, rfl⟩)
      simp [this, eq_comm]
    · simp [hk, ih h.2]

lemma get?_eq_some {d : Dict α β} {a : α} {b : β} : d.get? a = some b ↔ (a, b) ∈ d.entries :=
  lookup_eq_some d.nodup

lemma get?_eq_none {d : Dict α β} {a : α} : d.get? a = none ↔ a ∉ d.keys := by
  rw [Option.eq_none_iff_forall_ne_some]
  simp only [ne_eq, get?_eq_some, keys, List.mem_map, Prod.exists, exists_and_right,
    exists_eq_right, not_exists]

lemma forall_entries {d : Dict α β} {P : α → β → Prop} :
    (∀ p ∈ d.entries, P p.1 p.2) ↔ ∀ a b, d.get? a = some b → P a b :=
  ⟨fun h a b hab => h (a, b) (get?_eq_some.mp hab), fun h p hp => h p.1 p.2 (get?_eq_some.mpr hp)⟩

lemma mem_values {d : Dict α β} {b : β} : b ∈ d.values ↔ ∃ a, d.get? a = some b := by
  simp [values, get?_eq_some]

lemma mem_values_of_get? {d : Dict α β} {a : α} {b : β} (h : d.get? a = some b) : b ∈ d.values :=
  mem_values.mpr ⟨a, h⟩

lemma get?_erase (d : Dict α β) (a x : α) :
    (d.erase a).get? x = if x = a then none else d.get? x := by
  by_cases h : x = a
  · subst h
    rw [if_pos rfl, get?_eq_none]
    simp [keys, erase]
  · rw [if_neg h]
    ext b
    rw [get?_eq_some, get?_eq_some]
    simp [erase, h]

/-! ### One entry and the rest -/

lemma filter_ne_eq_self {a : α} {l : List (α × β)} (h : a ∉ l.map Prod.fst) :
    l.filter (fun p => p.1 ≠ a) = l := by
  refine List.filter_eq_self.mpr fun p hp => ?_
  have : p.1 ≠ a := fun hc => h (hc ▸ List.mem_map.mpr ⟨p, hp, rfl⟩)
  simpa using this

lemma perm_filter_ne {l : List (α × β)} (h : (l.map Prod.fst).Nodup) {a : α} {b : β}
    (hm : (a, b) ∈ l) : List.Perm l ((a, b) :: l.filter (fun p => p.1 ≠ a)) := by
  induction l with
  | nil => simp at hm
  | cons p r ih =>
    rw [List.map_cons, List.nodup_cons] at h
    rcases List.mem_cons.mp hm with rfl | hr
    · rw [List.filter_cons_of_neg (by simp), filter_ne_eq_self h.1]
    · have hne : p.1 ≠ a := fun hc => h.1 (hc ▸ List.mem_map.mpr ⟨_, hr, rfl⟩)
      rw [List.filter_cons_of_pos (by simpa using hne)]
      exact ((ih h.2 hr).cons p).trans (List.Perm.swap _ _ _)

lemma entries_perm {d : Dict α β} {a : α} {b : β} (h : d.get? a = some b) :
    List.Perm d.entries ((a, b) :: (d.erase a).entries) :=
  perm_filter_ne d.nodup (get?_eq_some.mp h)

lemma erase_set (d : Dict α β) (a : α) (b : β) : (d.set a b).erase a = d.erase a := by
  refine ext ?_
  show (assign a b d.entries).filter _ = d.entries.filter _
  induction d.entries with
  | nil => simp [assign]
  | cons p r ih =>
    obtain ⟨k, v⟩ := p
    by_cases hk : k = a
    · subst hk; simp [assign]
    · rw [assign, if_neg hk, List.filter_cons_of_pos (by simpa using hk),
        List.filter_cons_of_pos (by simpa using hk), ih]

lemma set_entries_perm (d : Dict α β) (a : α) (b : β) :
    List.Perm (d.set a b).entries ((a, b) :: (d.erase a).entries) := by
  have h := entries_perm (get?_set_self d a b)
  rwa [erase_set] at h

lemma erase_eq_self {d : Dict α β} {a : α} (h : d.get? a = none) : d.erase a = d :=
  ext (filter_ne_eq_self (get?_eq_none.mp h))

lemma values_perm {d : Dict α β} {a : α} {b : β} (h : d.get? a = some b) :
    List.Perm d.values (b :: (d.erase a).values) := (entries_perm h).map Prod.snd

lemma set_values_perm (d : Dict α β) (a : α) (b : β) :
    List.Perm (d.set a b).values (b :: (d.erase a).values) := (set_entries_perm d a b).map Prod.snd

/-- Assigning to a new key appends. -/
lemma assign_of_notMem {a : α} (b : β) {l : List (α × β)} (h : a ∉ l.map Prod.fst) :
    assign a b l = l ++ [(a, b)] := by
  induction l with
  | nil => rfl
  | cons p r ih =>
    obtain ⟨k, v⟩ := p
    rw [List.map_cons, List.mem_cons, not_or] at h
    rw [assign, if_neg (Ne.symm h.1), ih h.2, List.cons_append]

lemma set_entries_of_none {d : Dict α β} {a : α} (b : β) (h : d.get? a = none) :
    (d.set a b).entries = d.entries ++ [(a, b)] := assign_of_notMem b (get?_eq_none.mp h)

/-! ### Counting the values -/

def mapValues (f : β → β) (d : Dict α β) : Dict α β where
  entries := d.entries.map fun p => (p.1, f p.2)
  nodup := by
    have hkeys : (d.entries.map fun p => (p.1, f p.2)).map Prod.fst = d.entries.map Prod.fst := by
      rw [List.map_map]
      rfl
    rw [hkeys]
    exact d.nodup

lemma get?_mapValues (f : β → β) (d : Dict α β) (a : α) :
    (d.mapValues f).get? a = (d.get? a).map f := by
  show (d.entries.map fun p => (p.1, f p.2)).lookup a = (d.entries.lookup a).map f
  induction d.entries with
  | nil => rfl
  | cons p r ih =>
    rw [List.map_cons, lookup_cons_ite, lookup_cons_ite, ih]
    split <;> rfl

def count (p : β → Bool) (d : Dict α β) : ℕ := d.values.countP p

variable {d : Dict α β} {a : α} {b : β} (p : β → Bool)

omit [DecidableEq α] in
@[simp] lemma count_empty : (empty : Dict α β).count p = 0 := rfl

lemma count_erase (h : d.get? a = some b) :
    (d.erase a).count p + (if p b then 1 else 0) = d.count p := by
  rw [count, count, (values_perm h).countP_eq, List.countP_cons]

lemma count_set (h : d.get? a = some b) (b' : β) :
    (d.set a b').count p + (if p b then 1 else 0) = d.count p + if p b' then 1 else 0 := by
  have herase := count_erase p h
  have hset : (d.set a b').count p = (d.erase a).count p + if p b' then 1 else 0 := by
    rw [count, (set_values_perm d a b').countP_eq, List.countP_cons]
    rfl
  omega

lemma count_insert (h : d.get? a = none) (b' : β) :
    (d.set a b').count p = d.count p + if p b' then 1 else 0 := by
  rw [count, (set_values_perm d a b').countP_eq, List.countP_cons, erase_eq_self h]
  rfl

omit [DecidableEq α] in
lemma count_mapValues (f : β → β) : (d.mapValues f).count p = d.count fun b => p (f b) := by
  have hvalues : (d.mapValues f).values = d.values.map f := by
    rw [values, values, mapValues, List.map_map, List.map_map]
    rfl
  rw [count, hvalues, List.countP_map]
  rfl

lemma count_pos (h : d.get? a = some b) (hp : p b = true) : 0 < d.count p :=
  List.countP_pos_iff.mpr ⟨b, mem_values_of_get? h, hp⟩

/-! ### Collecting the elements of a list under keys -/

/-- Assign to a key what a function makes of its value. -/
def update (d : Dict α β) (a : α) (f : Option β → β) : Dict α β := d.set a (f (d.get? a))

/-- The elements of a list under their keys, keys and elements in order of occurrence. -/
def groupBy {γ : Type} (key : γ → α) (l : List γ) : Dict α (List γ) :=
  l.foldl (fun d c => d.update (key c) fun o => o.getD [] ++ [c]) empty

/-- How many elements of a list have each key. -/
def countBy {γ : Type} (key : γ → α) (l : List γ) : Dict α ℕ :=
  l.foldl (fun d c => d.update (key c) fun o => o.getD 0 + 1) empty

lemma get?_groupBy {γ : Type} (key : γ → α) (l : List γ) (a : α) :
    (groupBy key l).get? a =
      if l.filter (fun c => key c = a) = [] then none else some (l.filter fun c => key c = a) := by
  induction l using List.reverseRecOn with
  | nil => rfl
  | append_singleton l c ih =>
    have hd : groupBy key (l ++ [c]) =
        (groupBy key l).update (key c) fun o => o.getD [] ++ [c] := by
      simp [groupBy, List.foldl_append]
    rw [hd, update, get?_set, List.filter_append]
    by_cases h : a = key c
    · subst h
      rw [ih]
      by_cases hn : l.filter (fun x => key x = key c) = [] <;> simp [hn]
    · have : key c ≠ a := Ne.symm h
      simp [h, ih, this]

lemma get?_countBy {γ : Type} (key : γ → α) (l : List γ) (a : α) :
    (countBy key l).get? a =
      if l.countP (fun c => key c = a) = 0 then none else some (l.countP fun c => key c = a) := by
  induction l using List.reverseRecOn with
  | nil => rfl
  | append_singleton l c ih =>
    have hd : countBy key (l ++ [c]) =
        (countBy key l).update (key c) fun o => o.getD 0 + 1 := by
      simp [countBy, List.foldl_append]
    rw [hd, update, get?_set, List.countP_append]
    by_cases h : a = key c
    · subst h
      rw [ih]
      by_cases hn : l.countP (fun x => key x = key c) = 0
      · simp [hn]
      · simp only [hn, if_false, Option.getD_some, if_true]
        simp
    · have hne : key c ≠ a := Ne.symm h
      simp [h, ih, hne]

/-- The values of a dictionary under a key that is there. -/
lemma values_set_of_some {d : Dict α β} {a : α} {b : β} (b' : β) (h : d.get? a = some b) :
    (d.set a b').values = d.entries.map fun p => if p.1 = a then b' else p.2 := by
  have hassign : ∀ l : List (α × β), (l.map Prod.fst).Nodup → a ∈ l.map Prod.fst →
      (assign a b' l).map Prod.snd = l.map fun p => if p.1 = a then b' else p.2 := by
    intro l hl ha
    induction l with
    | nil => simp at ha
    | cons p l ih =>
      obtain ⟨k, v⟩ := p
      rw [List.map_cons, List.nodup_cons] at hl
      by_cases hk : k = a
      · subst hk
        -- the key does not come again
        have hrest : ∀ q ∈ l, (if q.1 = k then b' else q.2) = q.2 := by
          intro q hq
          exact if_neg fun hc => hl.1 (List.mem_map.mpr ⟨q, hq, hc⟩)
        simp only [assign, if_true, List.map_cons, List.map_congr_left hrest]
      · rw [List.map_cons, List.mem_cons] at ha
        rcases ha with ha | ha
        · exact absurd ha.symm hk
        · simp only [assign, if_neg hk, List.map_cons, ih hl.2 ha]
  refine hassign d.entries d.nodup ?_
  exact List.mem_map.mpr ⟨(a, b), get?_eq_some.mp h, rfl⟩

lemma mem_groupBy {γ : Type} {key : γ → α} {l : List γ} {a : α} {g : List γ}
    (h : (groupBy key l).get? a = some g) : g ≠ [] ∧ ∀ c, c ∈ g ↔ c ∈ l ∧ key c = a := by
  rw [get?_groupBy] at h
  split at h
  · cases h
  · next hn =>
    cases h
    exact ⟨hn, fun c => by simp⟩

end Dict

end Orchestrator.Lib
