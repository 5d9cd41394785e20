import Orchestrator.FairChoice
import Orchestrator.RowTasks

/-!
A claim in SQL: the scores of the groups are the keys of `choose_fair_task`, with instants for their
texts, and the text of an instant keeps the order, so the statement takes the same task.
-/

namespace Orchestrator.RowClaim

open Lib Lib.Table Clock TaskStore PostgresTaskStore Durability RowTasks

variable {table : List Row} {s : TaskStore}

/-! ### The choice of a claim -/

lemma isTaskClaimable_row (now : DateTime) (model : Option String) (r : Row) :
    isTaskClaimable now model (rowTask r) = .ok (runnable now model r) := by
  rw [isTaskClaimable, runnable]
  have hmodel : (model.isSome && model != some (rowTask r).model.1) =
      !(model.isNone || (model = some r.model.1 : Bool)) := by
    cases model with
    | none => rfl
    | some name =>
      show (!(name == r.model.1)) = !(decide (some name = some r.model.1))
      simp only [Option.some.injEq, beq_eq_decide]
  rw [hmodel, show (rowTask r).state = r.state from rfl,
    show (rowTask r).nextAttemptAt = r.nextAttemptAt.map nowIso from rfl]
  cases r.state.isClaimable with
  | false => rfl
  | true =>
    cases (model.isNone || (model = some r.model.1 : Bool)) with
    | false => rfl
    | true =>
      cases r.nextAttemptAt with
      | none => rfl
      | some due =>
        simp only [Option.map_some, parseIso_nowIso]
        rfl

lemma candidates_rows (now : DateTime) (model : Option String) (table : List Row) :
    candidates now model (table.map rowTask) =
      .ok ((table.filter (runnable now model)).map rowTask) := by
  induction table with
  | nil => rfl
  | cons r table ih =>
    rw [List.map_cons, candidates, isTaskClaimable_row, ih, List.filter_cons]
    cases runnable now model r <;> rfl

/-- The text of a time stamp in a key; a missing one is the empty text. -/
def stampText : WithBot DateTime → String
  | none => ""
  | some t => nowIso t

lemma empty_lt_nowIso (t : DateTime) : "" < nowIso t := by
  rw [String.lt_iff_toList_lt]
  cases h : (nowIso t).toList with
  | nil => exact absurd (String.toList_eq_nil_iff.mp h) (nowIso_ne_empty t)
  | cons c l => exact List.nil_lt_cons c l

lemma stampText_strictMono : StrictMono stampText := by
  intro o o' h
  cases o with
  | bot =>
    cases o' with
    | bot => exact absurd h (lt_irrefl _)
    | coe u => exact empty_lt_nowIso u
  | coe t =>
    cases o' with
    | bot => exact absurd h not_lt_bot
    | coe u => exact (nowIso_lt_iff t u).mpr (WithBot.coe_lt_coe.mp h)

/-- The key of a group, with texts for the time stamps. -/
def keyText (k : Bool ×ₗ WithBot DateTime ×ₗ WithBot DateTime ×ₗ List String) :
    Bool ×ₗ String ×ₗ String ×ₗ List String :=
  toLex (k.1, toLex (stampText k.2.1, toLex (stampText k.2.2.1, k.2.2.2)))

lemma keyText_mono : Monotone keyText := by
  rintro ⟨claimed, last, oldest, group⟩ ⟨claimed', last', oldest', group'⟩ h
  have h : toLex (claimed, toLex (last, toLex (oldest, group))) ≤
      toLex (claimed', toLex (last', toLex (oldest', group'))) := h
  show toLex (claimed, toLex (stampText last, toLex (stampText oldest, group))) ≤
      toLex (claimed', toLex (stampText last', toLex (stampText oldest', group')))
  simp only [Prod.Lex.toLex_le_toLex, stampText_strictMono.lt_iff_lt,
    stampText_strictMono.injective.eq_iff] at h ⊢
  exact h

lemma minText_map (l : List DateTime) : minText (l.map nowIso) = stampText l.min? := by
  cases hm : l.min? with
  | none =>
    rw [List.min?_eq_none_iff] at hm
    subst hm
    rfl
  | some m =>
    obtain ⟨hmem, hle⟩ := List.min?_eq_some_iff.mp hm
    obtain ⟨hmem', hle'⟩ := minText_mem_le (l := l.map nowIso) (by
      rintro hc
      rw [List.map_eq_nil_iff] at hc
      subst hc
      cases hmem)
    obtain ⟨t, ht, heq⟩ := List.mem_map.mp hmem'
    refine le_antisymm (hle' _ (List.mem_map_of_mem hmem)) ?_
    rw [← heq]
    exact (nowIso_le_iff m t).mpr (hle t ht)

/-- The claims of a group, as the loop over the tasks finds them. -/
lemma lastClaimed_rows (table : List Row) (g : List String) :
    LastClaimed (table.map rowTask) g
      (((table.filter fun r => groupColumns r = g && 0 < r.attemptCount).map Row.updatedAt).max?.map
        nowIso) := by
  have hattempted : ∀ r : Row, Attempted g (rowTask r) ↔
      (groupColumns r = g && (0 < r.attemptCount : Bool)) = true := by
    intro r
    simp only [Attempted, Bool.and_eq_true, decide_eq_true_eq]
    exact ⟨fun h => ⟨h.2, h.1⟩, fun h => ⟨h.2, h.1⟩⟩
  cases hm : ((table.filter fun r => groupColumns r = g && 0 < r.attemptCount).map
      Row.updatedAt).max? with
  | none =>
    rw [List.max?_eq_none_iff, List.map_eq_nil_iff, List.filter_eq_nil_iff] at hm
    intro t ht hatt
    obtain ⟨r, hr, rfl⟩ := List.mem_map.mp ht
    exact hm r hr ((hattempted r).mp hatt)
  | some u =>
    obtain ⟨hmem, hle⟩ := List.max?_eq_some_iff.mp hm
    obtain ⟨r, hr, rfl⟩ := List.mem_map.mp hmem
    obtain ⟨hr, hatt⟩ := List.mem_filter.mp hr
    refine ⟨⟨rowTask r, List.mem_map_of_mem hr, (hattempted r).mpr hatt, rfl⟩, ?_⟩
    intro t ht hatt'
    obtain ⟨r', hr', rfl⟩ := List.mem_map.mp ht
    refine (nowIso_le_iff r'.updatedAt r.updatedAt).mpr (hle _ (List.mem_map_of_mem ?_))
    exact List.mem_filter.mpr ⟨hr', (hattempted r').mp hatt'⟩

/-- The score of the group of a candidate. -/
def score (now : DateTime) (model : Option String) (table : List Row) (g : List String) :
    GroupScore :=
  ⟨g, (((table.filter (runnable now model)).filter fun r => groupColumns r = g).map
      Row.createdAt).min?,
    ((table.filter fun r => groupColumns r = g && 0 < r.attemptCount).map Row.updatedAt).max?⟩

lemma mem_groupScores {now : DateTime} {model : Option String} {g : GroupScore} :
    g ∈ groupScores now model table ↔
      ∃ r ∈ table.filter (runnable now model), g = score now model table (groupColumns r) := by
  simp only [groupScores, List.mem_map]
  constructor
  · rintro ⟨⟨k, rows⟩, hk, rfl⟩
    obtain ⟨⟨r, hr, hkey⟩, hrows⟩ := mem_groupBy.mp hk
    simp only at hkey hrows
    refine ⟨r, hr, ?_⟩
    rw [hrows, ← hkey]
    rfl
  · rintro ⟨r, hr, rfl⟩
    exact ⟨(groupColumns r, (table.filter (runnable now model)).filter
      fun x => groupColumns x = groupColumns r), mem_groupBy.mpr ⟨⟨r, hr, rfl⟩, rfl⟩, rfl⟩

/-- The key of the group of a candidate, in both. -/
lemma candidateKey_row (now : DateTime) (model : Option String) (table : List Row) (r : Row) :
    candidateKey ((table.filter (runnable now model)).map rowTask) (table.map rowTask) (rowTask r) =
      keyText (scoreKey (score now model table (groupColumns r))) := by
  have hlast := lastClaimedByGroup_eq (lastClaimed_rows table (groupColumns r))
  have hgroup : ((table.filter (runnable now model)).map rowTask).filter
      (fun t => fairnessGroupKey t = fairnessGroupKey (rowTask r)) =
      ((table.filter (runnable now model)).filter fun x => groupColumns x = groupColumns r).map
        rowTask := by
    rw [List.filter_map]
    rfl
  have hmin : ∀ l : List Row, minText ((l.map rowTask).map StoredTask.createdAt) =
      stampText (l.map Row.createdAt).min? := by
    intro l
    rw [← minText_map, List.map_map, List.map_map]
    rfl
  have hkey : fairnessGroupKey (rowTask r) = groupColumns r := rfl
  rw [candidateKey, hgroup, groupSortKey, hmin, hkey, hlast]
  simp only [keyText, scoreKey, score]
  cases ((table.filter fun x => groupColumns x = groupColumns r && 0 < x.attemptCount).map
    Row.updatedAt).max? <;> rfl

/-- **The task that is chosen** is that of the row that is chosen. -/
lemma nextTask_agree (h : Represents table s) (now : DateTime) (model : Option String) :
    chooseFairTask ((table.filter (runnable now model)).map rowTask) s.tasks =
      (nextTask now model table).map rowTask := by
  rw [h.tasks]
  cases hsel : first scoreKey (groupScores now model table) with
  | none =>
    -- no group, so no candidate
    have hnil : table.filter (runnable now model) = [] := by
      rw [first, List.argmin_eq_none] at hsel
      by_contra hne
      obtain ⟨r, hr⟩ := List.exists_mem_of_ne_nil _ hne
      have hmem := mem_groupScores.mpr ⟨r, hr, rfl⟩
      rw [hsel] at hmem
      cases hmem
    rw [nextTask, hsel, hnil]
    rfl
  | some selected =>
    obtain ⟨r₀, hr₀, rfl⟩ := mem_groupScores.mp (List.argmin_mem hsel)
    have hne : (table.filter (runnable now model)).map rowTask ≠ [] :=
      List.ne_nil_of_mem (List.mem_map_of_mem hr₀)
    cases hchoose : chooseFairTask ((table.filter (runnable now model)).map rowTask)
        (table.map rowTask) with
    | none => exact absurd (chooseFairTask_eq_none hchoose) hne
    | some t =>
      obtain ⟨hmem, hkey, holdest⟩ := chooseFairTask_spec hchoose
      obtain ⟨r₁, hr₁, rfl⟩ := List.mem_map.mp hmem
      -- both keys are the least, and the group is a part of the key
      have hle := hkey (rowTask r₀) (List.mem_map_of_mem hr₀)
      have hge := keyText_mono
        (List.le_of_mem_argmin (mem_groupScores.mpr ⟨r₁, hr₁, rfl⟩) hsel)
      rw [candidateKey_row, candidateKey_row] at hle
      have hsame : groupColumns r₁ = groupColumns r₀ :=
        congrArg (fun k => k.2.2.2) (le_antisymm hle hge)
      have hin : r₁ ∈ table.filter fun r =>
          groupColumns r = groupColumns r₀ && runnable now model r := by
        obtain ⟨hr₁, hrunnable⟩ := List.mem_filter.mp hr₁
        refine List.mem_filter.mpr ⟨hr₁, ?_⟩
        rw [hrunnable, Bool.and_true]
        exact decide_eq_true hsame
      have hgroup : (score now model table (groupColumns r₀)).group = groupColumns r₀ := rfl
      rw [nextTask, hsel, Option.bind_some, hgroup]
      cases hr : first (fun r : Row => toLex (r.createdAt, r.taskId.1))
          (table.filter fun r => groupColumns r = groupColumns r₀ && runnable now model r) with
      | none =>
        rw [first, List.argmin_eq_none] at hr
        rw [hr] at hin
        cases hin
      | some r =>
        obtain ⟨hrt, hcond⟩ := List.mem_filter.mp (List.argmin_mem hr)
        simp only [Bool.and_eq_true, decide_eq_true_eq] at hcond
        have hfirst := List.le_of_mem_argmin hin hr
        have hlast := holdest (rowTask r)
          (List.mem_map_of_mem (List.mem_filter.mpr ⟨hrt, hcond.2⟩)) (hcond.1.trans hsame.symm)
        have heq := le_antisymm hfirst ((row_order r₁ r).mpr hlast)
        have hid : r.taskId.1 = r₁.taskId.1 := congrArg Prod.snd (toLex_inj.mp heq)
        rw [h.unique hrt (List.mem_filter.mp hr₁).1 hid, Option.map_some]

lemma rowTask_claimRow (now : DateTime) (r : Row) :
    rowTask (claimRow now r) = claimed now (rowTask r) := by
  cases hs : r.startedAt with
  | none =>
    simp only [rowTask, claimRow, claimed, hs]
    rfl
  | some started =>
    have hne := nowIso_ne_empty started
    simp only [rowTask, claimRow, claimed, hs, Option.map_some, if_neg hne]
    rfl

/-- A claim in both. -/
lemma claimNext_agree (h : Represents table s) (now : DateTime) (model : Option String) :
    (PostgresTaskStore.claimNext now model table).1 = (s.claimNext now model).1 ∧
      Represents (PostgresTaskStore.claimNext now model table).2 (s.claimNext now model).2 := by
  have hchoice := nextTask_agree h now model
  have hfound : candidates now model s.tasks =
      .ok ((table.filter (runnable now model)).map rowTask) := by
    rw [h.tasks, candidates_rows]
  rw [PostgresTaskStore.claimNext, updateReturning, returning_head?, TaskStore.claimNext, hfound]
  simp only [hchoice]
  cases hnext : nextTask now model table with
  | none =>
    have hfind : (table.find? fun _ => false) = none := by simp
    simp only [Option.any_none, hfind, update_of_find?_eq_none _ hfind, Option.map_none]
    exact ⟨rfl, h⟩
  | some r =>
    have hr : r ∈ table := by
      rw [nextTask] at hnext
      obtain ⟨selected, -, hfirst⟩ := Option.bind_eq_some_iff.mp hnext
      exact (List.mem_filter.mp (List.argmin_mem hfirst)).1
    have hfind : (table.find? fun x => r.taskId.1 = x.taskId.1) = some r := by
      rw [find?_key_iff h.ids_nodup (k := r.taskId.1) fun x hx => (of_decide_eq_true hx).symm]
      exact ⟨hr, decide_eq_true rfl⟩
    simp only [Option.any_some, hfind, Option.map_some, storedTaskFromRow?_eq, rowTask_claimRow]
    refine ⟨trivial, ?_⟩
    rw [update_key h.ids_nodup _ hr (fun x hx => (of_decide_eq_true hx).symm) (decide_eq_true rfl)]
    exact h.update hr (rowTask_claimRow now r) (fun _ => rfl) fun _ => rfl

end Orchestrator.RowClaim
