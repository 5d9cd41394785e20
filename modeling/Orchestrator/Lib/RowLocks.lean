import Orchestrator.Lib.Dict
import Orchestrator.Lib.Lts
import Orchestrator.Lib.Table

/-!
Transactions of one `UPDATE` each on one table, as READ COMMITTED executes them.

A statement takes its candidates from a snapshot, the rows that are committed when it begins. It
looks at one candidate after the other: a row that another transaction has locked is waited for, or
skipped, and of a row that is free the newest committed version is looked at, which must still meet
the condition to be locked. The locked row is written by the commit.

An invariant of these steps is that a locked row is the newest version, with one holder, and meets
what the condition says of it.
-/

namespace Orchestrator.Lib.RowLocks

open Table

variable {ρ κ O : Type} [DecidableEq κ]

/-- What a statement does: the candidates of a snapshot, the condition on a version, whether locked
rows are skipped, and the new version of a row. -/
structure Statement (ρ : Type) where
  candidates : List ρ
  holds : ρ → Bool
  skipLocked : Bool

/-- A transaction under way. -/
inductive Session (ρ O : Type)
  | scanning (op : O) (holds : ρ → Bool) (skipLocked : Bool) (rest : List ρ)
  | locked (op : O) (row : ρ)

/-- The committed rows, the transactions under way, and the commits so far, the last one first, each
with the row it has written. -/
structure Db (ρ O : Type) where
  rows : List ρ
  sessions : Dict ℕ (Session ρ O)
  history : List (O × Option ρ)

inductive Label (ρ O : Type)
  | begin (n : ℕ) (op : O)
  | pass (n : ℕ)
  | lock (n : ℕ)
  | commit (n : ℕ)
  | abort (n : ℕ)
  /-- the commit of a transaction that inserts -/
  | insert (rows : List ρ)

/-- The operations of an application: their statements, and what they make of a row. -/
structure Operations (ρ κ O : Type) where
  key : ρ → κ
  statement : O → List ρ → Statement ρ
  set : O → ρ → ρ
  /-- what may be inserted -/
  inserts : List ρ → Prop
  key_set : ∀ op r, key (set op r) = key r

variable (A : Operations ρ κ O)

/-- Another transaction than `n` holds the row under a key. -/
def Held (D : Db ρ O) (n : ℕ) (k : κ) : Prop :=
  ∃ m op r, m ≠ n ∧ D.sessions.get? m = some (.locked op r) ∧ A.key r = k

def begun (op : O) (s : Statement ρ) : Session ρ O := .scanning op s.holds s.skipLocked s.candidates

/-- The head of the candidates is passed over: it is locked and skipped, or has no version that
meets the condition any more. -/
def Passes (D : Db ρ O) (n : ℕ) (holds : ρ → Bool) (skipLocked : Bool) (r : ρ) : Prop :=
  (skipLocked = true ∧ Held A D n (A.key r)) ∨
    (¬ Held A D n (A.key r) ∧ ∀ x ∈ D.rows, A.key x = A.key r → holds x = false)

def step (D : Db ρ O) (l : Label ρ O) (D' : Db ρ O) : Prop :=
  match l with
  | .begin n op => D.sessions.get? n = none ∧
      D' = { D with sessions := D.sessions.set n (begun op (A.statement op D.rows)) }
  | .pass n => ∃ op holds skipLocked r rest,
      D.sessions.get? n = some (.scanning op holds skipLocked (r :: rest)) ∧
        Passes A D n holds skipLocked r ∧
          D' = { D with sessions := D.sessions.set n (.scanning op holds skipLocked rest) }
  | .lock n => ∃ op holds skipLocked r rest x,
      D.sessions.get? n = some (.scanning op holds skipLocked (r :: rest)) ∧
        ¬ Held A D n (A.key r) ∧ x ∈ D.rows ∧ A.key x = A.key r ∧ holds x = true ∧
          D' = { D with sessions := D.sessions.set n (.locked op x) }
  | .commit n =>
      (∃ op r, D.sessions.get? n = some (.locked op r) ∧
        D' = ⟨update (fun x => A.key x = A.key r) (A.set op) D.rows, D.sessions.erase n,
          (op, some (A.set op r)) :: D.history⟩) ∨
      ∃ op holds skipLocked, D.sessions.get? n = some (.scanning op holds skipLocked []) ∧
        D' = ⟨D.rows, D.sessions.erase n, (op, none) :: D.history⟩
  | .abort n => D' = { D with sessions := D.sessions.erase n }
  | .insert rows => A.inserts rows ∧ ((D.rows ++ rows).map A.key).Nodup ∧
      D' = { D with rows := D.rows ++ rows }

def lts (init : List ρ → Prop) : Lts (Db ρ O) (Label ρ O) where
  init D := init D.rows ∧ (D.rows.map A.key).Nodup ∧ D.sessions = .empty ∧ D.history = []
  step := step A

/-! ### The invariant of the locks -/

/-- `G` is what the condition of a statement says of a row. -/
structure Locking (G : O → ρ → Prop) (D : Db ρ O) : Prop where
  keys : (D.rows.map A.key).Nodup
  scanned : ∀ n op holds skipLocked rest,
    D.sessions.get? n = some (.scanning op holds skipLocked rest) → ∀ r, holds r = true → G op r
  newest : ∀ n op r, D.sessions.get? n = some (.locked op r) → r ∈ D.rows ∧ G op r
  exclusive : ∀ n m op op' r r', D.sessions.get? n = some (.locked op r) →
    D.sessions.get? m = some (.locked op' r') → A.key r = A.key r' → n = m

variable {A} {G : O → ρ → Prop} {D D' : Db ρ O}

lemma update_keys (op : O) (k : κ) (rows : List ρ) :
    (update (fun x => A.key x = k) (A.set op) rows).map A.key = rows.map A.key := by
  rw [update, List.map_map]
  refine List.map_congr_left fun r _ => ?_
  rw [Function.comp_apply]
  split
  · exact A.key_set op r
  · rfl

lemma mem_update_of_ne {op : O} {k : κ} {rows : List ρ} {r : ρ} (hr : r ∈ rows) (h : A.key r ≠ k) :
    r ∈ update (fun x => A.key x = k) (A.set op) rows := by
  refine List.mem_map.mpr ⟨r, hr, if_neg ?_⟩
  simpa using h

omit [DecidableEq κ] in
/-- Sessions are forgotten, or added while they look for a row. -/
lemma Locking.sessions (h : Locking A G D) {n : ℕ} {op : O} {holds : ρ → Bool} {skipLocked : Bool}
    {rest : List ρ} (hG : ∀ r, holds r = true → G op r) :
    Locking A G { D with sessions := D.sessions.set n (.scanning op holds skipLocked rest) } := by
  have hlocked : ∀ m op' r, (D.sessions.set n (.scanning op holds skipLocked rest)).get? m =
      some (.locked op' r) → D.sessions.get? m = some (.locked op' r) := by
    intro m op' r hm
    rw [Dict.get?_set] at hm
    split at hm
    · cases hm
    · exact hm
  refine ⟨h.keys, ?_, fun m op r hm => h.newest m op r (hlocked m op r hm), ?_⟩
  · intro m op' holds' skip' rest' hm
    rw [Dict.get?_set] at hm
    split at hm
    · cases hm
      exact hG
    · exact h.scanned m op' holds' skip' rest' hm
  · intro m m' op op' r r' hm hm'
    exact h.exclusive m m' op op' r r' (hlocked m op r hm) (hlocked m' op' r' hm')

lemma get?_of_erase {n m : ℕ} {s : Session ρ O} {d : Dict ℕ (Session ρ O)}
    (h : (d.erase n).get? m = some s) : m ≠ n ∧ d.get? m = some s := by
  rw [Dict.get?_erase] at h
  split at h
  · cases h
  · next hne => exact ⟨hne, h⟩

omit [DecidableEq κ] in
lemma Locking.erase (h : Locking A G D) (n : ℕ) :
    Locking A G { D with sessions := D.sessions.erase n } where
  keys := h.keys
  scanned m op holds skip rest hm := h.scanned m op holds skip rest (get?_of_erase hm).2
  newest m op r hm := h.newest m op r (get?_of_erase hm).2
  exclusive m m' op op' r r' hm hm' :=
    h.exclusive m m' op op' r r' (get?_of_erase hm).2 (get?_of_erase hm').2

/-- **The locks.** One step keeps the invariant. -/
theorem Locking.step (hG : ∀ op rows r, (A.statement op rows).holds r = true → G op r)
    (h : Locking A G D) {l : Label ρ O} (hstep : step A D l D') : Locking A G D' := by
  cases l with
  | begin n op =>
    obtain ⟨-, rfl⟩ := hstep
    exact h.sessions (hG op D.rows)
  | pass n =>
    obtain ⟨op, holds, skip, r, rest, hn, -, rfl⟩ := hstep
    exact h.sessions (h.scanned n op holds skip _ hn)
  | lock n =>
    obtain ⟨op, holds, skip, r, rest, x, hn, hfree, hx, hkey, hholds, rfl⟩ := hstep
    have hGx := h.scanned n op holds skip _ hn x hholds
    have hcases : ∀ m op' r', (D.sessions.set n (.locked op x)).get? m = some (.locked op' r') →
        (m = n ∧ op' = op ∧ r' = x) ∨ m ≠ n ∧ D.sessions.get? m = some (.locked op' r') := by
      intro m op' r' hm
      rw [Dict.get?_set] at hm
      split at hm
      · next hmn =>
        cases hm
        exact Or.inl ⟨hmn, rfl, rfl⟩
      · next hmn => exact Or.inr ⟨hmn, hm⟩
    refine ⟨h.keys, ?_, ?_, ?_⟩
    · intro m op' holds' skip' rest' hm
      rw [Dict.get?_set] at hm
      split at hm
      · cases hm
      · exact h.scanned m op' holds' skip' rest' hm
    · intro m op' r' hm
      rcases hcases m op' r' hm with ⟨rfl, rfl, rfl⟩ | ⟨-, hm⟩
      · exact ⟨hx, hGx⟩
      · exact h.newest m op' r' hm
    · intro m m' op₁ op₂ r₁ r₂ hm hm' hk
      rcases hcases m op₁ r₁ hm with ⟨hmn, -, hr₁⟩ | ⟨hne, hm⟩
      · rcases hcases m' op₂ r₂ hm' with ⟨hmn', -, -⟩ | ⟨hne', hm'⟩
        · exact hmn.trans hmn'.symm
        · exact absurd ⟨m', op₂, r₂, hne', hm', hk.symm.trans (hr₁ ▸ hkey)⟩ hfree
      · rcases hcases m' op₂ r₂ hm' with ⟨-, -, hr₂⟩ | ⟨-, hm'⟩
        · exact absurd ⟨m, op₁, r₁, hne, hm, hk.trans (hr₂ ▸ hkey)⟩ hfree
        · exact h.exclusive m m' op₁ op₂ r₁ r₂ hm hm' hk
  | commit n =>
    rcases hstep with ⟨op, r, hn, rfl⟩ | ⟨op, holds, skip, hn, rfl⟩
    · refine ⟨by rw [update_keys]; exact h.keys, (h.erase n).scanned, ?_, (h.erase n).exclusive⟩
      intro m op' r' hm
      obtain ⟨hne, hm⟩ := get?_of_erase hm
      obtain ⟨hr', hGr'⟩ := h.newest m op' r' hm
      refine ⟨mem_update_of_ne hr' fun hk => hne ?_, hGr'⟩
      exact h.exclusive m n op' op r' r hm hn hk
    · exact ⟨h.keys, (h.erase n).scanned, (h.erase n).newest, (h.erase n).exclusive⟩
  | abort n =>
    obtain rfl := hstep
    exact h.erase n
  | insert rows =>
    obtain ⟨-, hkeys, rfl⟩ := hstep
    exact ⟨hkeys, h.scanned, fun m op r hm =>
      ⟨List.mem_append_left _ (h.newest m op r hm).1, (h.newest m op r hm).2⟩, h.exclusive⟩

omit [DecidableEq κ] in
lemma locking_init (hrows : (D.rows.map A.key).Nodup) (hsessions : D.sessions = .empty) :
    Locking A G D := by
  refine ⟨hrows, ?_, ?_, ?_⟩ <;> rw [hsessions]
  · exact fun _ _ _ _ _ hm => by cases hm
  · exact fun _ _ _ hm => by cases hm
  · exact fun _ _ _ _ _ _ hm => by cases hm

/-! ### A statement that skips locked rows, while nothing else happens -/

/-- Only the transaction `n` makes steps, up to its commit. -/
def alone (n : ℕ) (_ : Db ρ O) (l : Label ρ O) : Prop := l = .pass n ∨ l = .lock n

/-- What is left of the scan of `n` in the course of such steps. -/
structure Scan (A : Operations ρ κ O) (n : ℕ) (op : O) (holds : ρ → Bool) (rest : List ρ)
    (D₀ D : Db ρ O) : Prop where
  rows : D.rows = D₀.rows
  history : D.history = D₀.history
  others : ∀ m, m ≠ n → D.sessions.get? m = D₀.sessions.get? m
  session : (∃ passed left, rest = passed ++ left ∧ (∀ r ∈ passed, Held A D₀ n (A.key r)) ∧
      D.sessions.get? n = some (.scanning op holds true left)) ∨
    ∃ r ∈ rest, ¬ Held A D₀ n (A.key r) ∧ ∃ x, D.sessions.get? n = some (.locked op x)

variable {n : ℕ} {op : O} {holds : ρ → Bool} {rest : List ρ} {D₀ : Db ρ O} {init : List ρ → Prop}

omit [DecidableEq κ] in
lemma Scan.held_iff (h : Scan A n op holds rest D₀ D) (k : κ) : Held A D n k ↔ Held A D₀ n k := by
  constructor <;> rintro ⟨m, op', r, hm, hr, hk⟩
  · exact ⟨m, op', r, hm, (h.others m hm).symm.trans hr, hk⟩
  · exact ⟨m, op', r, hm, (h.others m hm).trans hr, hk⟩

lemma Scan.step (hrest : ∀ r ∈ rest, r ∈ D₀.rows ∧ holds r = true)
    (h : Scan A n op holds rest D₀ D) {l : Label ρ O} (hl : alone n D l)
    (hstep : step A D l D') : Scan A n op holds rest D₀ D' := by
  have hset : ∀ s, ∀ m, m ≠ n → (D.sessions.set n s).get? m = D₀.sessions.get? m :=
    fun s m hm => (Dict.get?_set_ne _ s hm).trans (h.others m hm)
  rcases hl with rfl | rfl
  · obtain ⟨op', holds', skip', r, left', hn, hpass, rfl⟩ := hstep
    refine ⟨h.rows, h.history, hset _, ?_⟩
    rcases h.session with ⟨passed, left, hsplit, hpassed, hn'⟩ | ⟨x, -, -, y, hn'⟩
    · rw [hn] at hn'
      cases hn'
      refine Or.inl ⟨passed ++ [r], left', by simp [hsplit], fun x hx => ?_,
        Dict.get?_set_self _ _ _⟩
      rcases List.mem_append.mp hx with hx | hx
      · exact hpassed x hx
      · -- a free row of the snapshot still meets the condition
        obtain rfl := List.mem_singleton.mp hx
        have hx := hrest x (by simp [hsplit])
        rcases hpass with ⟨-, hheld⟩ | ⟨-, hnone⟩
        · exact (h.held_iff _).mp hheld
        · rw [hnone x (h.rows ▸ hx.1) rfl] at hx
          exact absurd hx.2 (by simp)
    · rw [hn] at hn'
      cases hn'
  · obtain ⟨op', holds', skip', r, left', x, hn, hfree, -, -, -, rfl⟩ := hstep
    refine ⟨h.rows, h.history, hset _, ?_⟩
    rcases h.session with ⟨passed, left, hsplit, -, hn'⟩ | ⟨y, -, -, z, hn'⟩
    · rw [hn] at hn'
      cases hn'
      exact Or.inr ⟨r, by simp [hsplit], fun hheld => hfree ((h.held_iff _).mpr hheld), x,
        Dict.get?_set_self _ _ _⟩
    · rw [hn] at hn'
      cases hn'

/-- **The result** of the statement: a row, if and only if one of the candidates is free. -/
theorem scan_result (hrest : ∀ r ∈ rest, r ∈ D₀.rows ∧ holds r = true)
    (hn : D₀.sessions.get? n = some (.scanning op holds true rest))
    (hrun : (lts A init).Run (alone n) D₀ D) (hcommit : step A D (.commit n) D') :
    ∃ o, D'.history = (op, o) :: D₀.history ∧
      (o.isSome ↔ ∃ r ∈ rest, ¬ Held A D₀ n (A.key r)) := by
  have hscan : Scan A n op holds rest D₀ D := by
    refine hrun.invariant (fun D l D' h hl hstep => h.step hrest hl hstep) ?_
    exact ⟨rfl, rfl, fun _ _ => rfl, Or.inl ⟨[], rest, rfl, by simp, hn⟩⟩
  rcases hcommit with ⟨op', x, hn', rfl⟩ | ⟨op', holds', skip', hn', rfl⟩
  · rcases hscan.session with ⟨passed, left, -, -, hs⟩ | ⟨r, hr, hfree, y, hs⟩
    · rw [hs] at hn'
      cases hn'
    · rw [hs] at hn'
      cases hn'
      exact ⟨_, by rw [hscan.history], by simpa using ⟨r, hr, hfree⟩⟩
  · rcases hscan.session with ⟨passed, left, hsplit, hpassed, hs⟩ | ⟨r, hr, hfree, y, hs⟩
    · rw [hs] at hn'
      cases hn'
      refine ⟨none, by rw [hscan.history], ?_⟩
      simp only [Option.isSome_none, Bool.false_eq_true, false_iff, not_exists, not_and, not_not]
      intro r hr
      rw [hsplit, List.append_nil] at hr
      exact hpassed r hr
    · rw [hs] at hn'
      cases hn'

/-- The statement never waits. -/
theorem scan_ends (hrest : ∀ r ∈ rest, r ∈ D₀.rows ∧ holds r = true)
    (hn : D₀.sessions.get? n = some (.scanning op holds true rest)) :
    ∃ D D', (lts A init).Run (alone n) D₀ D ∧ step A D (.commit n) D' := by
  induction rest generalizing D₀ with
  | nil => exact ⟨D₀, _, Lts.Run.refl D₀, Or.inr ⟨op, holds, true, hn, rfl⟩⟩
  | cons r rest ih =>
    by_cases hheld : Held A D₀ n (A.key r)
    · have hpass : step A D₀ (.pass n)
          { D₀ with sessions := D₀.sessions.set n (.scanning op holds true rest) } :=
        ⟨op, holds, true, r, rest, hn, Or.inl ⟨rfl, hheld⟩, rfl⟩
      obtain ⟨D, D', hrun, hcommit⟩ := @ih
        { D₀ with sessions := D₀.sessions.set n (.scanning op holds true rest) }
        (fun x hx => hrest x (List.mem_cons_of_mem _ hx)) (Dict.get?_set_self _ _ _)
      exact ⟨D, D', (Lts.Run.single (T := lts A init) (l := .pass n) (Or.inl rfl) hpass).trans hrun,
        hcommit⟩
    · obtain ⟨hr, hholds⟩ := hrest r List.mem_cons_self
      have hlock : step A D₀ (.lock n)
          { D₀ with sessions := D₀.sessions.set n (.locked op r) } :=
        ⟨op, holds, true, r, rest, r, hn, hheld, hr, rfl, hholds, rfl⟩
      exact ⟨_, _, Lts.Run.single (T := lts A init) (l := .lock n) (Or.inr rfl) hlock,
        Or.inl ⟨op, r, Dict.get?_set_self _ _ _, rfl⟩⟩

omit [DecidableEq κ] in
lemma erase_empty (n : ℕ) : (Dict.empty : Dict ℕ (Session ρ O)).erase n = .empty := Dict.ext rfl

/-- One transaction after the other: a statement of which the first candidate is there. -/
lemma run_serial {r : ρ} (hsessions : D.sessions = .empty)
    (hcandidates : (A.statement op D.rows).candidates = r :: rest) (hr : r ∈ D.rows)
    (hholds : (A.statement op D.rows).holds r = true) :
    (lts A init).Run Lts.anyStep D
      ⟨update (fun x => A.key x = A.key r) (A.set op) D.rows, .empty,
        (op, some (A.set op r)) :: D.history⟩ := by
  have hfree : ∀ s k, ¬ Held A { D with sessions := D.sessions.set 0 s } 0 k := by
    rintro s k ⟨m, op', x, hm, hx, -⟩
    rw [hsessions, Dict.get?_set_ne _ _ hm, Dict.get?_empty] at hx
    cases hx
  have hbegin : (lts A init).step D (.begin 0 op)
      { D with sessions := D.sessions.set 0 (begun op (A.statement op D.rows)) } :=
    ⟨by rw [hsessions]; rfl, rfl⟩
  have hlock : (lts A init).step
      { D with sessions := D.sessions.set 0 (begun op (A.statement op D.rows)) } (.lock 0)
      { D with
        sessions := (D.sessions.set 0 (begun op (A.statement op D.rows))).set 0 (.locked op r) } :=
    by
    refine ⟨op, (A.statement op D.rows).holds, (A.statement op D.rows).skipLocked, r, rest, r, ?_,
      hfree _ _, hr, rfl, hholds, rfl⟩
    rw [← hcandidates]
    exact Dict.get?_set_self _ _ _
  have hcommit : (lts A init).step { D with
        sessions := (D.sessions.set 0 (begun op (A.statement op D.rows))).set 0 (.locked op r) }
      (.commit 0) ⟨update (fun x => A.key x = A.key r) (A.set op) D.rows, .empty,
        (op, some (A.set op r)) :: D.history⟩ := by
    refine Or.inl ⟨op, r, Dict.get?_set_self _ _ _, ?_⟩
    rw [Dict.erase_set, Dict.erase_set, hsessions, erase_empty]
  exact ((Lts.Run.single trivial hbegin).tail trivial hlock).tail trivial hcommit

end Orchestrator.Lib.RowLocks
