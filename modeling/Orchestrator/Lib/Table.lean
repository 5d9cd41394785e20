import Mathlib.Data.List.Dedup
import Mathlib.Data.List.MinMax
import Mathlib.Data.List.Sort

/-!
Tables as lists of rows, and the statements of SQL on one table, executed one at a time: an update
that returns rows, a selection, groups with an aggregate, and the first row of an order.

A statement on rows is the statement on what the rows stand for: the lemmas say so for a map of the
rows.
-/

namespace Orchestrator.Lib.Table

variable {ρ τ κ : Type}

/-- `UPDATE … SET … WHERE p` -/
def update (p : ρ → Bool) (f : ρ → ρ) (table : List ρ) : List ρ :=
  table.map fun r => if p r then f r else r

/-- The rows of `UPDATE … SET … WHERE p RETURNING …`. -/
def returning (p : ρ → Bool) (f : ρ → ρ) (table : List ρ) : List ρ := (table.filter p).map f

/-- The groups of `GROUP BY key`, each with its rows. -/
def groupBy [DecidableEq κ] (key : ρ → κ) (table : List ρ) : List (κ × List ρ) :=
  (table.map key).dedup.map fun k => (k, table.filter fun r => key r = k)

/-- The row of `ORDER BY key LIMIT 1`. -/
def first [LinearOrder κ] (key : ρ → κ) (table : List ρ) : Option ρ := table.argmin key

lemma map_update {p : ρ → Bool} {f : ρ → ρ} {q : τ → Bool} {g : τ → τ} {abs : ρ → τ}
    {table : List ρ} (hp : ∀ r, q (abs r) = p r)
    (hf : ∀ r ∈ table, p r = true → abs (f r) = g (abs r)) :
    (update p f table).map abs = update q g (table.map abs) := by
  rw [update, update, List.map_map, List.map_map]
  refine List.map_congr_left fun r hr => ?_
  simp only [Function.comp_apply, hp]
  by_cases h : p r = true
  · rw [if_pos h, if_pos h, hf r hr h]
  · rw [if_neg h, if_neg h]

/-- The first row that a statement returns. -/
lemma returning_head? (p : ρ → Bool) (f : ρ → ρ) (table : List ρ) :
    (returning p f table).head? = (table.find? p).map f := by
  rw [returning, List.head?_map, List.head?_filter]

lemma update_of_find?_eq_none {p : ρ → Bool} (f : ρ → ρ) {table : List ρ}
    (h : table.find? p = none) : update p f table = table := by
  rw [List.find?_eq_none] at h
  rw [update]
  conv_rhs => rw [← List.map_id table]
  exact List.map_congr_left fun r hr => if_neg (h r hr)

/-- The row that a condition on a primary key finds. -/
lemma find?_key_iff {key : ρ → κ} {table : List ρ} (hn : (table.map key).Nodup) {p : ρ → Bool}
    {k : κ} (hp : ∀ r, p r = true → key r = k) {r : ρ} :
    table.find? p = some r ↔ r ∈ table ∧ p r = true := by
  constructor
  · exact fun h => ⟨List.mem_of_find?_eq_some h, List.find?_some h⟩
  · rintro ⟨hr, hpr⟩
    cases hx : table.find? p with
    | none => exact absurd hpr (List.find?_eq_none.mp hx r hr)
    | some x =>
      have hkey := (hp x (List.find?_some hx)).trans (hp r hpr).symm
      rw [List.inj_on_of_nodup_map hn (List.mem_of_find?_eq_some hx) hr hkey]

/-- The first row of an order, as the head of the sorted rows. -/
lemma head?_insertionSort [LinearOrder κ] (key : ρ → κ) (table : List ρ) :
    (table.insertionSort fun a b => key a ≤ key b).head? = first key table := by
  induction table with
  | nil => rfl
  | cons a table ih =>
    rw [first, List.argmin_cons, List.insertionSort_cons]
    rw [first] at ih
    cases hs : table.insertionSort fun a b => key a ≤ key b with
    | nil =>
      rw [hs] at ih
      rw [← ih]
      rfl
    | cons b rest =>
      rw [hs] at ih
      rw [← ih]
      by_cases h : key a ≤ key b
      · simp [List.orderedInsert_cons, h, not_lt.mpr h]
      · simp [List.orderedInsert_cons, h, not_le.mp h]

variable [DecidableEq κ]

/-- An update of the row that a condition on a primary key finds. -/
lemma update_key {key : ρ → κ} {table : List ρ} (hn : (table.map key).Nodup) {p : ρ → Bool}
    (f : ρ → ρ) {r : ρ} (hr : r ∈ table) (hp : ∀ x, p x = true → key x = key r)
    (hpr : p r = true) : update p f table = update (fun x => key x = key r) f table := by
  refine List.map_congr_left fun x hx => ?_
  by_cases h : key x = key r
  · rw [List.inj_on_of_nodup_map hn hx hr h, if_pos hpr, if_pos (decide_eq_true rfl)]
  · rw [if_neg fun hc => h (hp x hc), if_neg (by simpa using h)]

lemma find?_and {key : ρ → κ} {table : List ρ} (hn : (table.map key).Nodup) (q : ρ → Bool) (k : κ) :
    (table.find? fun r => q r && key r = k) = (table.find? fun r => key r = k).filter q := by
  ext r
  rw [Option.filter_eq_some_iff, find?_key_iff hn (k := k) (by simp),
    find?_key_iff hn (k := k) (by simp)]
  simp only [Bool.and_eq_true, decide_eq_true_eq]
  tauto

lemma mem_groupBy {key : ρ → κ} {table : List ρ} {g : κ × List ρ} :
    g ∈ groupBy key table ↔
      (∃ r ∈ table, key r = g.1) ∧ g.2 = table.filter fun r => key r = g.1 := by
  obtain ⟨k, rows⟩ := g
  simp only [groupBy, List.mem_map, List.mem_dedup, Prod.mk.injEq]
  constructor
  · rintro ⟨k', hk', rfl, rfl⟩
    exact ⟨hk', rfl⟩
  · rintro ⟨hk, hrows⟩
    exact ⟨k, hk, rfl, hrows.symm⟩

lemma lookup_map (f : κ → τ) (l : List κ) (k : κ) :
    (l.map fun x => (x, f x)).lookup k = if k ∈ l then some (f k) else none := by
  induction l with
  | nil => rfl
  | cons x l ih =>
    rw [List.map_cons, List.lookup_cons, ih]
    by_cases h : k = x
    · subst h
      simp
    · rw [beq_eq_false_iff_ne.mpr h]
      simp only [List.mem_cons, h, false_or]

/-- `COUNT(*)` of the groups. -/
def counts (key : ρ → κ) (table : List ρ) : List (κ × ℕ) :=
  (groupBy key table).map fun g => (g.1, g.2.length)

lemma lookup_counts (key : ρ → κ) (table : List ρ) (k : κ) :
    (counts key table).lookup k =
      if table.countP (fun r => key r = k) = 0 then none
      else some (table.countP fun r => key r = k) := by
  have hcounts : counts key table = (table.map key).dedup.map
      fun k => (k, table.countP fun r => key r = k) := by
    rw [counts, groupBy, List.map_map]
    refine List.map_congr_left fun k _ => ?_
    simp only [Function.comp_apply, List.countP_eq_length_filter]
  rw [hcounts, lookup_map fun k => table.countP fun r => key r = k]
  by_cases h : table.countP (fun r => key r = k) = 0
  · rw [if_pos h, if_neg]
    rw [List.mem_dedup, List.mem_map]
    rintro ⟨r, hr, hk⟩
    exact (List.countP_eq_zero.mp h) r hr (by simpa using hk)
  · rw [if_neg h, if_pos]
    rw [List.mem_dedup, List.mem_map]
    by_contra hc
    refine h (List.countP_eq_zero.mpr fun r hr hk => hc ⟨r, hr, by simpa using hk⟩)

end Orchestrator.Lib.Table
