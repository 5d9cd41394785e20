import Orchestrator.StoreInvariant

/-!
The choice of the task to claim: what `choose_fair_task` computes of the stored tasks, and which of
the candidates it takes.
-/

namespace Orchestrator.TaskStore

open Lib

/-- A task that counts as a turn of its group. -/
def Attempted (g : List String) (t : StoredTask) : Prop :=
  1 ≤ t.attemptCount ∧ fairnessGroupKey t = g

/-- One step of the loop over the tasks. -/
def noteClaimed (last : Dict (List String) String) (t : StoredTask) : Dict (List String) String :=
  if t.attemptCount < 1 then last
  else match last.get? (fairnessGroupKey t) with
    | none => last.set (fairnessGroupKey t) t.updatedAt
    | some current =>
      if current < t.updatedAt then last.set (fairnessGroupKey t) t.updatedAt else last

/-- The greatest time stamp of the attempted tasks of a group, if there is one. -/
def LastClaimed (tasks : List StoredTask) (g : List String) (o : Option String) : Prop :=
  match o with
  | none => ∀ t ∈ tasks, ¬Attempted g t
  | some u => (∃ t ∈ tasks, Attempted g t ∧ t.updatedAt = u) ∧
      ∀ t ∈ tasks, Attempted g t → t.updatedAt ≤ u

lemma LastClaimed.unique {tasks : List StoredTask} {g : List String} {o o' : Option String}
    (h : LastClaimed tasks g o) (h' : LastClaimed tasks g o') : o = o' := by
  cases o with
  | none =>
    cases o' with
    | none => rfl
    | some u =>
      obtain ⟨⟨t, ht, hatt, -⟩, -⟩ := h'
      exact absurd hatt (h t ht)
  | some u =>
    obtain ⟨⟨t, ht, hatt, rfl⟩, hmax⟩ := h
    cases o' with
    | none => exact absurd hatt (h' t ht)
    | some v =>
      obtain ⟨⟨t', ht', hatt', rfl⟩, hmax'⟩ := h'
      rw [le_antisymm (hmax' t ht hatt) (hmax t' ht' hatt')]

lemma LastClaimed.skip {tasks : List StoredTask} {g : List String} {o : Option String}
    (h : LastClaimed tasks g o) {t : StoredTask} (ht : ¬Attempted g t) :
    LastClaimed (tasks ++ [t]) g o := by
  cases o with
  | none =>
    intro t' ht'
    rcases List.mem_append.mp ht' with ht' | ht'
    · exact h t' ht'
    · rw [List.mem_singleton.mp ht']
      exact ht
  | some u =>
    obtain ⟨⟨t₀, ht₀, hatt, hu⟩, hmax⟩ := h
    refine ⟨⟨t₀, List.mem_append_left _ ht₀, hatt, hu⟩, fun t' ht' hatt' => ?_⟩
    rcases List.mem_append.mp ht' with ht' | ht'
    · exact hmax t' ht' hatt'
    · rw [List.mem_singleton.mp ht'] at hatt'
      exact absurd hatt' ht

/-- One more task of the group, with the greatest time stamp. -/
lemma lastClaimed_snoc {tasks : List StoredTask} {g : List String} {t : StoredTask}
    (ht : Attempted g t) (hmax : ∀ t' ∈ tasks, Attempted g t' → t'.updatedAt ≤ t.updatedAt) :
    LastClaimed (tasks ++ [t]) g (some t.updatedAt) := by
  refine ⟨⟨t, List.mem_append_right _ (List.mem_singleton.mpr rfl), ht, rfl⟩, fun t' ht' hatt => ?_⟩
  rcases List.mem_append.mp ht' with ht' | ht'
  · exact hmax t' ht' hatt
  · rw [List.mem_singleton.mp ht']

/-- One step of the loop. -/
lemma noteClaimed_spec {tasks : List StoredTask} {last : Dict (List String) String}
    (h : ∀ g, LastClaimed tasks g (last.get? g)) (t : StoredTask) (g : List String) :
    LastClaimed (tasks ++ [t]) g ((noteClaimed last t).get? g) := by
  rw [noteClaimed]
  split
  · next hatt => exact (h g).skip fun hc => absurd hc.1 (not_le.mpr hatt)
  next hatt =>
  have hatt : 1 ≤ t.attemptCount := not_lt.mp hatt
  by_cases hg : g = fairnessGroupKey t
  · subst hg
    have hspec := h (fairnessGroupKey t)
    split
    · next hnone =>
      rw [hnone] at hspec
      rw [Dict.get?_set_self]
      exact lastClaimed_snoc ⟨hatt, rfl⟩ fun t' ht' hc => absurd hc (hspec t' ht')
    · next current hcurrent =>
      rw [hcurrent] at hspec
      split
      · next hlt =>
        rw [Dict.get?_set_self]
        exact lastClaimed_snoc ⟨hatt, rfl⟩ fun t' ht' hc => (hspec.2 t' ht' hc).trans hlt.le
      · next hge =>
        rw [hcurrent]
        obtain ⟨⟨t₀, ht₀, hatt₀, hu⟩, hmax⟩ := hspec
        refine ⟨⟨t₀, List.mem_append_left _ ht₀, hatt₀, hu⟩, fun t' ht' hc => ?_⟩
        rcases List.mem_append.mp ht' with ht' | ht'
        · exact hmax t' ht' hc
        · rw [List.mem_singleton.mp ht']
          exact not_lt.mp hge
  · -- another group's time stamp stays
    have hskip := (h g).skip (t := t) fun hc => hg hc.2.symm
    split
    · rwa [Dict.get?_set_ne _ _ hg]
    · split
      · rwa [Dict.get?_set_ne _ _ hg]
      · exact hskip

/-- **What `last_claimed_by_group` holds.** -/
theorem lastClaimedByGroup_spec (tasks : List StoredTask) (g : List String) :
    LastClaimed tasks g ((lastClaimedByGroup tasks).get? g) := by
  induction tasks using List.reverseRecOn generalizing g with
  | nil => exact fun _ h => absurd h List.not_mem_nil
  | append_singleton tasks t ih =>
    have hsnoc : lastClaimedByGroup (tasks ++ [t]) = noteClaimed (lastClaimedByGroup tasks) t := by
      simp only [lastClaimedByGroup, List.foldl_append, List.foldl_cons, List.foldl_nil]
      rfl
    rw [hsnoc]
    exact noteClaimed_spec ih t g

lemma lastClaimedByGroup_eq {tasks : List StoredTask} {g : List String} {o : Option String}
    (h : LastClaimed tasks g o) : (lastClaimedByGroup tasks).get? g = o :=
  (lastClaimedByGroup_spec tasks g).unique h

lemma minText_mem_le {l : List String} (hl : l ≠ []) : minText l ∈ l ∧ ∀ x ∈ l, minText l ≤ x := by
  induction l with
  | nil => exact absurd rfl hl
  | cons a l ih =>
    cases l with
    | nil => exact ⟨List.mem_cons_self, by simp [minText]⟩
    | cons b l =>
      obtain ⟨hmem, hle⟩ := ih (by simp)
      rw [minText]
      constructor
      · rcases min_choice a (minText (b :: l)) with h | h
        · rw [h]
          exact List.mem_cons_self
        · rw [h]
          exact List.mem_cons_of_mem _ hmem
      · intro x hx
        rcases List.mem_cons.mp hx with rfl | hx
        · exact min_le_left _ _
        · exact (min_le_right _ _).trans (hle x hx)
      · simp

lemma minText_congr {l l' : List String} (hl : l ≠ []) (h : ∀ x, x ∈ l' ↔ x ∈ l) :
    minText l' = minText l := by
  obtain ⟨x, hx⟩ := List.exists_mem_of_ne_nil _ hl
  obtain ⟨hmem, hle⟩ := minText_mem_le hl
  obtain ⟨hmem', hle'⟩ := minText_mem_le (List.ne_nil_of_mem ((h x).mpr hx))
  exact le_antisymm (hle' _ ((h _).mpr hmem)) (hle _ ((h _).mp hmem'))

/-- The key of the group of a candidate. -/
def candidateKey (found all : List StoredTask) (t : StoredTask) :
    Bool ×ₗ String ×ₗ String ×ₗ List String :=
  groupSortKey (lastClaimedByGroup all)
    (fairnessGroupKey t, found.filter fun x => fairnessGroupKey x = fairnessGroupKey t)

lemma groupBy_entry {found : List StoredTask} {g : List String} {group : List StoredTask}
    (h : (g, group) ∈ (Dict.groupBy fairnessGroupKey found).entries) :
    group = found.filter fun x => fairnessGroupKey x = g := by
  have hget := Dict.get?_groupBy fairnessGroupKey found g
  rw [Dict.get?_eq_some.mpr h] at hget
  split at hget
  · cases hget
  · exact Option.some.inj hget

lemma groupBy_mem {found : List StoredTask} {t : StoredTask} (h : t ∈ found) :
    (fairnessGroupKey t, found.filter fun x => fairnessGroupKey x = fairnessGroupKey t) ∈
      (Dict.groupBy fairnessGroupKey found).entries := by
  have hne : found.filter (fun x => fairnessGroupKey x = fairnessGroupKey t) ≠ [] := by
    intro hc
    simpa using List.filter_eq_nil_iff.mp hc t h
  have hget := Dict.get?_groupBy fairnessGroupKey found (fairnessGroupKey t)
  rw [if_neg hne, Dict.get?_eq_some] at hget
  exact hget

/-- **The chosen task** is a candidate of a group with the least key, and the oldest of its
group. -/
theorem chooseFairTask_spec {found all : List StoredTask} {t : StoredTask}
    (h : chooseFairTask found all = some t) :
    t ∈ found ∧ (∀ t' ∈ found, candidateKey found all t ≤ candidateKey found all t') ∧
      ∀ t' ∈ found, fairnessGroupKey t' = fairnessGroupKey t →
        toLex (t.createdAt, t.taskId.1) ≤ toLex (t'.createdAt, t'.taskId.1) := by
  rw [chooseFairTask] at h
  split at h
  · cases h
  next selected hsel =>
  obtain ⟨g, group⟩ := selected
  have hmem := List.argmin_mem hsel
  have hgroup := groupBy_entry hmem
  have ht := List.argmin_mem h
  rw [hgroup, List.mem_filter, decide_eq_true_eq] at ht
  obtain ⟨ht, htg⟩ := ht
  refine ⟨ht, fun t' ht' => ?_, fun t' ht' hsame => ?_⟩
  · rw [candidateKey, htg, ← hgroup]
    exact not_lt.mp (List.not_lt_of_mem_argmin (groupBy_mem ht') hsel)
  · have hin : t' ∈ group := by
      rw [hgroup, List.mem_filter, decide_eq_true_eq]
      exact ⟨ht', hsame.trans htg⟩
    exact not_lt.mp (List.not_lt_of_mem_argmin
      (f := fun x : StoredTask => toLex (x.createdAt, x.taskId.1)) hin h)

end Orchestrator.TaskStore
