import Orchestrator.Lib.RowLocks
import Orchestrator.PostgresTaskStore

/-!
Workers that share the table of tasks: claims, outcomes, cancellations and submissions, each a
transaction, in any order of their steps.

The group of a claim is chosen in the snapshot, with the locked rows in it; only then are locked
rows skipped.
-/

namespace Orchestrator.ClaimWorkers

open Lib Lib.Table Lib.RowLocks Clock PostgresTaskStore

/-- The updates of the store. -/
inductive TableOp
  | claim (now : DateTime) (model : Option String)
  | result (now : DateTime) (taskId : String) (result : Mapping)
  | error (now : DateTime) (taskId : String) (error : Mapping)
  | retry (now : DateTime) (taskId : String) (error : Mapping) (nextAttemptAt : DateTime)
  | cancel (now : DateTime) (tenant taskId : String)

/-- The group of `selected_group`. -/
def selectedGroup (now : DateTime) (model : Option String) (table : List Row) :
    Option (List String) :=
  (first scoreKey (groupScores now model table)).map GroupScore.group

/-- The conditions of `next_task` on a version of a row. -/
def inSelected (now : DateTime) (model : Option String) (group : Option (List String)) (r : Row) :
    Bool := group = some (groupColumns r) && runnable now model r

/-- `WHERE` of an update of one row -/
def concerns : TableOp → Row → Bool
  | .claim _ _, _ => false
  | .result _ taskId _, r => r.taskId.1 = taskId
  | .error _ taskId _, r => r.taskId.1 = taskId
  | .retry _ taskId _ _, r => r.taskId.1 = taskId
  | .cancel _ tenant taskId, r => r.tenant.1 = tenant && r.taskId.1 = taskId && !r.state.isTerminal

def statement (op : TableOp) (table : List Row) : Statement Row :=
  match op with
  | .claim now model =>
    let holds := inSelected now model (selectedGroup now model table)
    ⟨(table.filter holds).insertionSort fun a b =>
      toLex (a.createdAt, a.taskId.1) ≤ toLex (b.createdAt, b.taskId.1), holds, true⟩
  | op => ⟨table.filter (concerns op), concerns op, false⟩

/-- The first candidate of a claim is the task that a claim takes when it is alone. -/
lemma candidates_head? (now : DateTime) (model : Option String) (table : List Row) :
    (statement (.claim now model) table).candidates.head? = nextTask now model table := by
  rw [statement, head?_insertionSort, nextTask, selectedGroup]
  cases first scoreKey (groupScores now model table) with
  | none =>
    have hnone : table.filter (inSelected now model none) = [] := by simp [inSelected]
    rw [Option.map_none, hnone]
    rfl
  | some g =>
    rw [Option.map_some, Option.bind_some]
    refine congrArg _ (List.filter_congr fun r _ => ?_)
    simp only [inSelected, Option.some.injEq, eq_comm]

/-- `SET` -/
def written : TableOp → Row → Row
  | .claim now _, r => claimRow now r
  | .result now _ result, r => resultRow now result r
  | .error now _ error, r => errorRow now error r
  | .retry now _ error nextAttemptAt, r => retryRow now error nextAttemptAt r
  | .cancel now _ _, r => cancelRow now r

/-- The operations of the store; a submission inserts new rows. -/
def operations : Operations Row String TableOp where
  key r := r.taskId.1
  statement := statement
  set := written
  inserts rows := ∀ r ∈ rows, ∃ now task taskId, r = newRow now task taskId
  key_set op r := by cases op <;> rfl

abbrev Workers := Db Row TableOp

/-- Any number of workers, from any table. -/
def workersLts : Lts Workers (Label Row TableOp) := lts operations fun _ => True

/-- The commit of a claim that returns the task. -/
def Returns (taskId : String) (e : TableOp × Option Row) : Prop :=
  ∃ now model r, e = (.claim now model, some r) ∧ r.taskId.1 = taskId

/-- The commit of a retry of the task. -/
def Retries (taskId : String) (e : TableOp × Option Row) : Prop :=
  ∃ now error nextAttemptAt r, e = (.retry now taskId error nextAttemptAt, some r)

/-- The task was returned by a claim and not queued again since. -/
def Taken (taskId : String) (history : List (TableOp × Option Row)) : Prop :=
  ∃ mid e earlier, history = mid ++ e :: earlier ∧ Returns taskId e ∧ ∀ x ∈ mid, ¬ Retries taskId x

/-- What the condition of a statement says of a row. -/
def Meets : TableOp → Row → Prop
  | .claim _ _, r => r.state.isClaimable = true
  | op, r => concerns op r = true

structure Exclusive (D : Workers) : Prop where
  locking : Locking operations Meets D
  /-- no version of a row that is taken is claimable -/
  taken : ∀ taskId, Taken taskId D.history → ∃ r ∈ D.rows, r.taskId.1 = taskId ∧
    r.state.isClaimable = false
  returned : ∀ later e earlier taskId, D.history = later ++ e :: earlier → Returns taskId e →
    ¬ Taken taskId earlier

variable {D D' : Workers} {taskId : String}

lemma meets_statement (op : TableOp) (table : List Row) (r : Row)
    (h : (statement op table).holds r = true) : Meets op r := by
  cases op with
  | claim now model =>
    have h : (inSelected now model (selectedGroup now model table) r) = true := h
    simp only [inSelected, runnable, Bool.and_eq_true] at h
    exact h.2.1.1
  | _ => exact h

lemma not_taken_nil : ¬ Taken taskId [] := by
  rintro ⟨mid, e, earlier, h, -⟩
  exact absurd h (by simp)

/-- A commit that is not a retry of the task, on top of a history. -/
lemma taken_cons {e : TableOp × Option Row} {history : List (TableOp × Option Row)}
    (h : Taken taskId (e :: history)) :
    Returns taskId e ∨ ¬ Retries taskId e ∧ Taken taskId history := by
  obtain ⟨mid, x, earlier, hsplit, hx, hmid⟩ := h
  cases mid with
  | nil =>
    rw [List.nil_append, List.cons.injEq] at hsplit
    exact Or.inl (hsplit.1 ▸ hx)
  | cons y mid =>
    rw [List.cons_append, List.cons.injEq] at hsplit
    obtain ⟨rfl, rfl⟩ := hsplit
    rw [List.forall_mem_cons] at hmid
    exact Or.inr ⟨hmid.1, mid, x, earlier, rfl, hx, hmid.2⟩

/-- A written row is claimable after a retry only. -/
lemma written_claimable {op : TableOp} {r : Row} (h : Meets op r)
    (hclaimable : (written op r).state.isClaimable = true) :
    Retries r.taskId.1 (op, some (written op r)) := by
  cases op with
  | retry now taskId error nextAttemptAt =>
    have hid : r.taskId.1 = taskId := by simpa [Meets, concerns] using h
    exact ⟨now, error, nextAttemptAt, _, by rw [hid]⟩
  | claim => cases hclaimable
  | result => cases hclaimable
  | error => cases hclaimable
  | cancel => cases hclaimable

/-- The only row under an id. -/
lemma unique_row {rows : List Row} (hkeys : (rows.map operations.key).Nodup) {r x : Row}
    (hr : r ∈ rows) (hx : x ∈ rows) (h : x.taskId.1 = r.taskId.1) : x = r :=
  List.inj_on_of_nodup_map hkeys hx hr h

/-- A commit that writes the row `r`. -/
lemma Exclusive.commit (h : Exclusive D) {op : TableOp} {r : Row} (hr : r ∈ D.rows)
    (hmeets : Meets op r) {D' : Workers}
    (hrows : D'.rows = update (fun x => operations.key x = operations.key r) (written op) D.rows)
    (hhistory : D'.history = (op, some (written op r)) :: D.history)
    (hlocking : Locking operations Meets D') : Exclusive D' := by
  have hid : (written op r).taskId.1 = r.taskId.1 := operations.key_set op r
  have hwritten : written op r ∈ D'.rows := by
    rw [hrows]
    exact List.mem_map.mpr ⟨r, hr, if_pos (by simp)⟩
  refine ⟨hlocking, fun taskId htaken => ?_, fun later e earlier taskId hsplit hreturns => ?_⟩
  · rw [hhistory] at htaken
    by_cases hkey : r.taskId.1 = taskId
    · refine ⟨written op r, hwritten, hid.trans hkey, ?_⟩
      -- the row that is written is not claimable, for the commit is not a retry
      rcases taken_cons htaken with ⟨now, model, x, hx, -⟩ | ⟨hretry, -⟩
      · rw [Prod.mk.injEq] at hx
        obtain ⟨rfl, -⟩ := hx
        rfl
      · by_contra hc
        rw [Bool.not_eq_false] at hc
        exact hretry (hkey ▸ written_claimable hmeets hc)
    · rcases taken_cons htaken with ⟨now, model, x, hx, hxid⟩ | ⟨-, htaken⟩
      · rw [Prod.mk.injEq, Option.some.injEq] at hx
        exact absurd (hid.symm.trans (hx.2 ▸ hxid)) hkey
      · obtain ⟨y, hy, hyid, hclaimable⟩ := h.taken taskId htaken
        refine ⟨y, ?_, hyid, hclaimable⟩
        rw [hrows]
        exact mem_update_of_ne hy fun hc => hkey (hc.symm.trans hyid)
  · rw [hhistory] at hsplit
    cases later with
    | nil =>
      rw [List.nil_append, List.cons.injEq] at hsplit
      obtain ⟨rfl, rfl⟩ := hsplit
      obtain ⟨now, model, x, hx, hxid⟩ := hreturns
      rw [Prod.mk.injEq, Option.some.injEq] at hx
      obtain ⟨rfl, rfl⟩ := hx
      -- the row was claimable when it was locked, and it is the only one of its id
      intro htaken
      obtain ⟨y, hy, hyid, hclaimable⟩ := h.taken taskId htaken
      have hyr := unique_row h.locking.keys hr hy (hyid.trans (hxid.symm.trans hid))
      rw [hyr] at hclaimable
      exact absurd (hmeets.symm.trans hclaimable) (by simp)
    | cons y later =>
      rw [List.cons_append, List.cons.injEq] at hsplit
      exact h.returned later e earlier taskId hsplit.2 hreturns

/-- **One step** of the workers. -/
theorem Exclusive.step (h : Exclusive D) {l : Label Row TableOp} (hstep : step operations D l D') :
    Exclusive D' := by
  have hlocking := h.locking.step meets_statement hstep
  cases l with
  | begin n op =>
    obtain ⟨-, rfl⟩ := hstep
    exact ⟨hlocking, h.taken, h.returned⟩
  | pass n =>
    obtain ⟨op, holds, skip, r, rest, -, -, rfl⟩ := hstep
    exact ⟨hlocking, h.taken, h.returned⟩
  | lock n =>
    obtain ⟨op, holds, skip, r, rest, x, -, -, -, -, -, rfl⟩ := hstep
    exact ⟨hlocking, h.taken, h.returned⟩
  | commit n =>
    rcases hstep with ⟨op, r, hn, rfl⟩ | ⟨op, holds, skip, -, rfl⟩
    · obtain ⟨hr, hmeets⟩ := h.locking.newest n op r hn
      exact h.commit hr hmeets rfl rfl hlocking
    · refine ⟨hlocking, fun taskId htaken => ?_, fun later e earlier taskId hsplit hreturns => ?_⟩
      · rcases taken_cons htaken with ⟨now, model, x, hx, -⟩ | ⟨-, htaken⟩
        · exact absurd hx (by simp)
        · exact h.taken taskId htaken
      · cases later with
        | nil =>
          rw [List.nil_append, List.cons.injEq] at hsplit
          obtain ⟨rfl, rfl⟩ := hsplit
          obtain ⟨now, model, x, hx, -⟩ := hreturns
          exact absurd hx (by simp)
        | cons y later =>
          rw [List.cons_append, List.cons.injEq] at hsplit
          exact h.returned later e earlier taskId hsplit.2 hreturns
  | abort n =>
    obtain rfl := hstep
    exact ⟨hlocking, h.taken, h.returned⟩
  | insert rows =>
    obtain ⟨-, -, rfl⟩ := hstep
    refine ⟨hlocking, fun taskId htaken => ?_, h.returned⟩
    obtain ⟨r, hr, hrest⟩ := h.taken taskId htaken
    exact ⟨r, List.mem_append_left _ hr, hrest⟩

lemma reachable_exclusive {P : Workers → Label Row TableOp → Prop}
    (h : workersLts.Reachable P D) : Exclusive D := by
  refine h.invariant (fun D hD => ?_) fun D l D' hD _ hstep => hD.step hstep
  obtain ⟨-, hkeys, hsessions, hhistory⟩ := hD
  refine ⟨locking_init hkeys hsessions, fun taskId htaken => ?_,
    fun later e earlier _ hsplit _ => ?_⟩
  · rw [hhistory] at htaken
    exact absurd htaken not_taken_nil
  · rw [hhistory] at hsplit
    exact absurd hsplit (by simp)

/-- **No task is claimed twice**: between two claims that return a task, a retry of it was
committed. -/
theorem claims_separated {P : Workers → Label Row TableOp → Prop} (h : workersLts.Reachable P D)
    {later mid earlier : List (TableOp × Option Row)} {e e' : TableOp × Option Row}
    (hhistory : D.history = later ++ e :: mid ++ e' :: earlier) (he : Returns taskId e)
    (he' : Returns taskId e') : ∃ x ∈ mid, Retries taskId x := by
  have hsplit : D.history = later ++ e :: (mid ++ e' :: earlier) := by simpa using hhistory
  have hnot := (reachable_exclusive h).returned later e _ taskId hsplit he
  by_contra hc
  push Not at hc
  exact hnot ⟨mid, e', earlier, rfl, he', hc⟩

/-! ### Sample rows -/

def sampleRow (tenant taskId : PyText.NonBlank) : Row :=
  newRow ⟨0, limit_pos⟩ {
    tenant := tenant
    project := ⟨"p", by decide⟩
    service := ⟨"s", by decide⟩
    task := ⟨"t", by decide⟩
    jobId := taskId
    idempotencyKey := taskId
    priority := ⟨"normal", by decide⟩
    model := ⟨"chat", by decide⟩
    endpoint := ⟨"/v1/chat/completions", nonBlank_endpoint⟩
    estimatedInputTokens := 10
    maxOutputTokens := ⟨10, by decide⟩
    requiredContextTokens := ⟨20, by decide⟩
    payload := []
    orchestration := []
    artifacts := []
    labels := [] } taskId

def sampleSecond (n : Fin 1000) : DateTime := ⟨n.1 * 1000000, second_lt n⟩

def firstRow : Row := sampleRow ⟨"tenant-a", nonBlank_tenantA⟩ ⟨"task-1", by decide⟩
def secondRow : Row := sampleRow ⟨"tenant-b", nonBlank_tenantB⟩ ⟨"task-2", by decide⟩

/-- A table of one row. -/
def oneRow (r : Row) (history : List (TableOp × Option Row)) : Workers := ⟨[r], .empty, history⟩

/-- An operation on the only row. -/
lemma run_oneRow {r : Row} (op : TableOp) (history : List (TableOp × Option Row))
    (hcandidates : (statement op [r]).candidates = [r])
    (hholds : (statement op [r]).holds r = true) :
    workersLts.Run Lts.anyStep (oneRow r history)
      (oneRow (written op r) ((op, some (written op r)) :: history)) := by
  have hrun : workersLts.Run Lts.anyStep (oneRow r history)
      ⟨update (fun x => operations.key x = operations.key r) (operations.set op) [r], .empty,
        (op, some (written op r)) :: history⟩ :=
    run_serial rfl hcandidates List.mem_cons_self hholds
  have hrow : update (fun x => operations.key x = operations.key r) (operations.set op) [r] =
      [written op r] := by simp [update, operations]
  rwa [hrow] at hrun

def claimAt (n : Fin 1000) : TableOp := .claim (sampleSecond n) none

def retryAt (n : Fin 1000) : TableOp := .retry (sampleSecond n) "task-1" [] (sampleSecond (n + 1))

def claimedOnce : Row := written (claimAt 1) firstRow
def retriedOnce : Row := written (retryAt 2) claimedOnce
def claimedTwice : Row := written (claimAt 4) retriedOnce

/-- A task that is claimed, queued again and claimed again. -/
def claimHistory : List (TableOp × Option Row) :=
  [(claimAt 4, some claimedTwice), (retryAt 2, some retriedOnce), (claimAt 1, some claimedOnce)]

lemma reachable_claimHistory : workersLts.Reachable Lts.anyStep
    (oneRow claimedTwice claimHistory) := by
  have hinit : workersLts.init (oneRow firstRow []) := ⟨trivial, List.nodup_singleton _, rfl, rfl⟩
  have hclaim := run_oneRow (claimAt 1) (r := firstRow) [] rfl rfl
  have hretry := run_oneRow (retryAt 2) (r := claimedOnce) [(claimAt 1, some claimedOnce)] rfl rfl
  have hagain := run_oneRow (claimAt 4) (r := retriedOnce)
    [(retryAt 2, some retriedOnce), (claimAt 1, some claimedOnce)] rfl rfl
  exact Lts.Reachable.run (.init hinit) ((hclaim.trans hretry).trans hagain)

theorem claims_separated_sample :
    ∃ x ∈ [(retryAt 2, some retriedOnce)], Retries "task-1" x := by
  have hhistory : (oneRow claimedTwice claimHistory).history = [] ++
    (claimAt 4, some claimedTwice) ::
      [(retryAt 2, some retriedOnce)] ++ (claimAt 1, some claimedOnce) :: [] := rfl
  exact claims_separated reachable_claimHistory hhistory ⟨_, _, _, rfl, rfl⟩ ⟨_, _, _, rfl, rfl⟩

/-! ### Whether a claim returns a task -/

/-- A claim of the worker `n`, while nothing else happens, with its result. -/
def ClaimsAlone (D : Workers) (n : ℕ) (now : DateTime) (model : Option String) (o : Option Row) :
    Prop :=
  ∃ D₀ D₁ D', step operations D (.begin n (.claim now model)) D₀ ∧
    workersLts.Run (alone n) D₀ D₁ ∧ step operations D₁ (.commit n) D' ∧
      D'.history = (.claim now model, o) :: D.history

/-- The row is claimable and due, matches the filter, and is not locked. -/
def Free (D : Workers) (n : ℕ) (now : DateTime) (model : Option String) (r : Row) : Prop :=
  r ∈ D.rows ∧ runnable now model r = true ∧ ¬ Held operations D n r.taskId.1

variable {n : ℕ} {now : DateTime} {model : Option String}

/-- The state in which the statement has begun. -/
structure Begun (D : Workers) (n : ℕ) (now : DateTime) (model : Option String) (rest : List Row)
    (D₀ : Workers) : Prop where
  rows : D₀.rows = D.rows
  history : D₀.history = D.history
  held : ∀ k, Held operations D₀ n k ↔ Held operations D n k
  session : D₀.sessions.get? n = some
    (.scanning (.claim now model) (inSelected now model (selectedGroup now model D.rows)) true rest)
  rest : ∀ r, r ∈ rest ↔
    r ∈ D.rows ∧ inSelected now model (selectedGroup now model D.rows) r = true

lemma begun_claim {D₀ : Workers} (h : step operations D (.begin n (.claim now model)) D₀) :
    ∃ rest, Begun D n now model rest D₀ := by
  obtain ⟨-, rfl⟩ := h
  refine ⟨(statement (.claim now model) D.rows).candidates, rfl, rfl, fun k => ?_,
    Dict.get?_set_self _ _ _, fun r => ?_⟩
  · constructor <;> rintro ⟨m, op, r, hm, hr, hk⟩
    · exact ⟨m, op, r, hm, (Dict.get?_set_ne _ _ hm).symm.trans hr, hk⟩
    · exact ⟨m, op, r, hm, (Dict.get?_set_ne _ _ hm).trans hr, hk⟩
  · rw [statement, List.mem_insertionSort, List.mem_filter]

/-- What a claim returns: a task of the selected group, if one of them is free. -/
lemma claimsAlone_spec (hn : D.sessions.get? n = none) (now : DateTime) (model : Option String) :
    (∃ o, ClaimsAlone D n now model o) ∧ ∀ o, ClaimsAlone D n now model o →
      (o.isSome = true ↔
        ∃ r, Free D n now model r ∧ selectedGroup now model D.rows = some (groupColumns r)) := by
  have hrest : ∀ {rest D₀}, Begun D n now model rest D₀ → ∀ r ∈ rest, r ∈ D₀.rows ∧
      inSelected now model (selectedGroup now model D.rows) r = true :=
    fun h r hr => by rw [h.rows]; exact (h.rest r).mp hr
  constructor
  · obtain ⟨D₀, hbegin⟩ : ∃ D₀, step operations D (.begin n (.claim now model)) D₀ := ⟨_, hn, rfl⟩
    obtain ⟨rest, h⟩ := begun_claim hbegin
    obtain ⟨D₁, D', hrun, hcommit⟩ := scan_ends (A := operations) (hrest h) h.session
    obtain ⟨o, hhistory, -⟩ := scan_result (hrest h) h.session hrun hcommit
    exact ⟨o, D₀, D₁, D', hbegin, hrun, hcommit, by rw [hhistory, h.history]⟩
  · rintro o ⟨D₀, D₁, D', hbegin, hrun, hcommit, hhistory⟩
    obtain ⟨rest, h⟩ := begun_claim hbegin
    obtain ⟨o', hhistory', hsome⟩ := scan_result (hrest h) h.session hrun hcommit
    rw [hhistory, List.cons.injEq, Prod.mk.injEq] at hhistory'
    rw [hhistory'.1.2, hsome]
    constructor
    · rintro ⟨r, hr, hfree⟩
      obtain ⟨hmem, hin⟩ := (h.rest r).mp hr
      rw [inSelected, Bool.and_eq_true, decide_eq_true_eq] at hin
      exact ⟨r, ⟨hmem, hin.2, fun hc => hfree ((h.held _).mpr hc)⟩, hin.1⟩
    · rintro ⟨r, ⟨hmem, hrunnable, hfree⟩, hgroup⟩
      refine ⟨r, (h.rest r).mpr ⟨hmem, ?_⟩, fun hc => hfree ((h.held _).mp hc)⟩
      rw [inSelected, hrunnable, hgroup]
      simp

/-- **Availability.** With a free task a claim returns one, if and only if a task of the first group
is free when any task is. -/
theorem claim_available_iff (hn : D.sessions.get? n = none) :
    (∃ o, ClaimsAlone D n now model o) ∧ ∀ o, ClaimsAlone D n now model o →
      (((∃ r, Free D n now model r) → o.isSome = true) ↔
        ((∃ r, Free D n now model r) →
          ∃ r, Free D n now model r ∧ selectedGroup now model D.rows = some (groupColumns r))) := by
  obtain ⟨hexists, hresult⟩ := claimsAlone_spec hn now model
  exact ⟨hexists, fun o ho => imp_congr_right fun _ => hresult o ho⟩

/-- A worker claims while another group has a row, too. -/
def firstBegun : Workers where
  rows := [firstRow, secondRow]
  sessions := Dict.empty.set 1
    (begun (claimAt 1) (statement (claimAt 1) [firstRow, secondRow]))
  history := []

/-- It has locked one of the rows. -/
def lockedBy (r : Row) : Workers :=
  ⟨[firstRow, secondRow], Dict.empty.set 1 (.locked (claimAt 1) r), []⟩

lemma held_lockedBy (r : Row) (k : String) :
    Held operations (lockedBy r) 0 k ↔ k = r.taskId.1 := by
  constructor
  · rintro ⟨m, op, x, -, hx, rfl⟩
    rw [lockedBy, Dict.get?_set] at hx
    split at hx
    · cases hx
      rfl
    · cases hx
  · rintro rfl
    exact ⟨1, claimAt 1, r, by decide, rfl, rfl⟩

/-- The first group is that of the first row, locked or not. -/
lemma selectedGroup_lockedBy (r : Row) :
    selectedGroup (sampleSecond 2) none (lockedBy r).rows = some (groupColumns firstRow) := by
  show selectedGroup (sampleSecond 2) none [firstRow, secondRow] = _
  decide +kernel

/-- The only row of the first group is free, and is claimed. -/
theorem claim_available_iff_sample :
    ∃ o, ClaimsAlone (lockedBy secondRow) 0 (sampleSecond 2) none o ∧ o.isSome = true := by
  obtain ⟨⟨o, ho⟩, hresult⟩ :
      (∃ o, ClaimsAlone (lockedBy secondRow) 0 (sampleSecond 2) none o) ∧ _ :=
    claim_available_iff rfl
  have hfree : Free (lockedBy secondRow) 0 (sampleSecond 2) none firstRow :=
    ⟨List.mem_cons_self, by decide +kernel, by rw [held_lockedBy]; decide⟩
  exact ⟨o, ho, (hresult o ho).mpr (fun _ => ⟨firstRow, hfree, selectedGroup_lockedBy secondRow⟩)
    ⟨firstRow, hfree⟩⟩

/-- A free task, and a claim that returns none. -/
theorem claim_passes_free : ∃ D n now model, workersLts.Reachable Lts.anyStep D ∧
    (∃ r, Free D n now model r) ∧ ClaimsAlone D n now model none := by
  refine ⟨lockedBy firstRow, 0, sampleSecond 2, none, ?_, ⟨secondRow, ?_, rfl, ?_⟩, ?_⟩
  · have hinit : workersLts.init ⟨[firstRow, secondRow], .empty, []⟩ :=
      ⟨trivial, by decide, rfl, rfl⟩
    have hbegin : workersLts.step ⟨[firstRow, secondRow], .empty, []⟩ (.begin 1 (claimAt 1))
        firstBegun := ⟨rfl, rfl⟩
    have hlock : workersLts.step firstBegun (.lock 1) (lockedBy firstRow) := by
      refine ⟨claimAt 1, _, true, firstRow, [], firstRow, rfl, ?_, List.mem_cons_self, rfl,
        rfl, rfl⟩
      rintro ⟨m, op, r, hm, hr, -⟩
      rw [firstBegun, Dict.get?_set_ne _ _ hm] at hr
      cases hr
    exact Lts.Reachable.run (.init hinit) ((Lts.Run.single trivial hbegin).tail trivial hlock)
  · exact List.mem_cons_of_mem _ List.mem_cons_self
  · rw [held_lockedBy]
    decide
  · have hn : (lockedBy firstRow).sessions.get? 0 = none := rfl
    obtain ⟨⟨o, ho⟩, hresult⟩ := claimsAlone_spec hn (sampleSecond 2) none
    cases o with
    | none => exact ho
    | some r =>
      obtain ⟨x, ⟨hx, -, hfree⟩, hgroup⟩ := (hresult _ ho).mp rfl
      rw [held_lockedBy] at hfree
      rw [selectedGroup_lockedBy] at hgroup
      simp only [lockedBy, List.mem_cons, List.not_mem_nil, or_false] at hx
      rcases hx with rfl | rfl
      · exact absurd rfl hfree
      · exact absurd hgroup (by decide)

end Orchestrator.ClaimWorkers
