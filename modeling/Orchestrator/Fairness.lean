import Orchestrator.ClockOrder
import Orchestrator.FairChoice
import Orchestrator.StoreSound

/-!
Turns of the fairness groups: whether the task store hands out its tasks in rotation.

The rotation is not stored. A claim reads it off the time stamps of the attempted tasks, and these
are changed by outcomes and cancellations as well. So it is the rotation of the claims as long as
an outcome or a cancellation only touches an attempted task of the group that has its turn last.
-/

namespace Orchestrator.Fairness

open Lib Clock TaskStore Idempotency

abbrev Group := List String

/-- A call of `claim_next` without a filter. -/
structure Turn where
  now : DateTime
  before : TaskStore
  claimed : Except Exn (Option StoredTask)

/-- The group whose task is picked. -/
def Turn.group (e : Turn) : Option Group :=
  match e.claimed with
  | .ok (some t) => some (fairnessGroupKey t)
  | _ => none

/-- The group has a claimable task. -/
def Turn.Due (e : Turn) (g : Group) : Prop :=
  ∃ t ∈ e.before.tasks, fairnessGroupKey t = g ∧ isTaskClaimable e.now none t = .ok true

/-- A store with the last clock reading and the turns so far, the latest first. -/
structure Rotation where
  store : TaskStore
  clock : Option DateTime
  turns : List Turn

/-- A later clock reading. -/
def Rotation.Later (r : Rotation) (now : DateTime) : Prop := ∀ c ∈ r.clock, c < now

/-- An operation of the store that is no turn: it changes nothing, or it reads the clock. -/
def otherStep (r : Rotation) (now : DateTime) (op : StoreOp) (r' : Rotation) : Prop :=
  storeStep r.store op r'.store ∧ r'.turns = r.turns ∧
    (r' = r ∨ r.Later now ∧ r'.clock = some now)

/-- The operations, with strictly increasing clock readings. The readings of a submission only date
the new tasks. -/
def rotationStep (r : Rotation) (op : StoreOp) (r' : Rotation) : Prop :=
  match op with
  | .submitMany _ => storeStep r.store op r'.store ∧ r'.turns = r.turns ∧ r'.clock = r.clock
  | .claimNext now model => model = none ∧ r.Later now ∧ r'.clock = some now ∧
      ∃ res, claimNext now none r.store = (res, r'.store) ∧
        r'.turns = ⟨now, r.store, res⟩ :: r.turns
  | .recordResult now _ _ => otherStep r now op r'
  | .recordError now _ _ => otherStep r now op r'
  | .recordRetry now _ _ _ => otherStep r now op r'
  | .cancelTask now _ _ => otherStep r now op r'
  | .reload _ => False

def rotationLts : Lts Rotation StoreOp where
  init r := r = ⟨TaskStore.empty, none, []⟩
  step := rotationStep

/-! ### The condition -/

/-- No group has its turn after the group of `t`, as the store reads it. -/
def ServedLast (s : TaskStore) (t : StoredTask) : Prop :=
  ∀ g text, (lastClaimedByGroup s.tasks).get? g = some text →
    ∃ text', (lastClaimedByGroup s.tasks).get? (fairnessGroupKey t) = some text' ∧ text ≤ text'

/-- An outcome or a cancellation of an attempted task only touches the group that has its turn
last. -/
def Undisturbed (r : Rotation) : StoreOp → Prop
  | .recordResult _ id _ | .recordError _ id _ | .recordRetry _ id _ _ =>
    ∀ t, r.store.tasksById.get? id = some t → 1 ≤ t.attemptCount → ServedLast r.store t
  | .cancelTask _ tenant id =>
    ∀ t, r.store.getTask tenant id = some t → t.state.isTerminal = false → 1 ≤ t.attemptCount →
      ServedLast r.store t
  | _ => True

/-! ### The rotation as the turns have it -/

/-- The last turn of `h` is after all turns of `g`. -/
def ServedAfter (turns : List Turn) (g h : Group) : Prop :=
  ∃ later e earlier, turns = later ++ e :: earlier ∧ e.group = some h ∧
    ∀ x ∈ later, x.group ≠ some g

variable {turns : List Turn} {g h : Group}

lemma ServedAfter.cons (hs : ServedAfter turns g h) {e : Turn} (he : e.group ≠ some g) :
    ServedAfter (e :: turns) g h := by
  obtain ⟨later, e', earlier, rfl, he', hlater⟩ := hs
  refine ⟨e :: later, e', earlier, rfl, he', fun x hx => ?_⟩
  rcases List.mem_cons.mp hx with rfl | hx
  · exact he
  · exact hlater x hx

/-- The last turn of `h` lies after any given turn of `g`. -/
lemma ServedAfter.between {between earlier : List Turn} {a : Turn}
    (hs : ServedAfter (between ++ a :: earlier) g h) (ha : a.group = some g) (hne : h ≠ g) :
    ∃ e ∈ between, e.group = some h := by
  obtain ⟨later, e, early, heq, he, hlater⟩ := hs
  induction between generalizing later with
  | nil =>
    cases later with
    | nil =>
      obtain ⟨rfl, -⟩ := List.cons.inj heq
      rw [ha] at he
      exact absurd (Option.some.inj he).symm hne
    | cons x later =>
      obtain ⟨rfl, -⟩ := List.cons.inj heq
      exact absurd ha (hlater a List.mem_cons_self)
  | cons y between ih =>
    cases later with
    | nil =>
      obtain ⟨rfl, -⟩ := List.cons.inj heq
      exact ⟨y, List.mem_cons_self, he⟩
    | cons x later =>
      obtain ⟨-, heq⟩ := List.cons.inj heq
      obtain ⟨e', he', hg'⟩ := ih later heq fun z hz => hlater z (List.mem_cons_of_mem _ hz)
      exact ⟨e', List.mem_cons_of_mem _ he', hg'⟩

/-- A claim that is fair, given the turns before it. -/
def Fair (e : Turn) (turns : List Turn) : Prop :=
  ∀ g h, e.group = some g → (∃ a ∈ turns, a.group = some g) → h ≠ g → e.Due h →
    ServedAfter turns g h

/-- When a group had its turn last, as the store reads it. -/
def lastTurn (s : TaskStore) (g : Group) : Option String := (lastClaimedByGroup s.tasks).get? g

/-! ### What an operation does to the rotation that the store reads -/

variable {s s' : TaskStore} {id : String} {t t' : StoredTask}

lemma lastTurn_congr (h : ∀ x, Attempted g x → (x ∈ s.tasks ↔ x ∈ s'.tasks)) :
    lastTurn s' g = lastTurn s g := by
  refine lastClaimedByGroup_eq ?_
  have hspec : LastClaimed s.tasks g (lastTurn s g) := lastClaimedByGroup_spec s.tasks g
  cases ho : lastTurn s g with
  | none =>
    rw [ho] at hspec
    exact fun x hx hatt => hspec x ((h x hatt).mpr hx) hatt
  | some u =>
    rw [ho] at hspec
    obtain ⟨⟨x, hx, hatt, hu⟩, hmax⟩ := hspec
    exact ⟨⟨x, (h x hatt).mp hx, hatt, hu⟩, fun y hy hc => hmax y ((h y hc).mpr hy) hc⟩

lemma lastTurn_mem {u : String} (h : lastTurn s g = some u) :
    ∃ x ∈ s.tasks, Attempted g x ∧ x.updatedAt = u := by
  have hspec : LastClaimed s.tasks g (lastTurn s g) := lastClaimedByGroup_spec s.tasks g
  rw [h] at hspec
  exact hspec.1

/-- Tasks that are not attempted do not count. -/
lemma lastTurn_submitted (hs : Inverse s) (hs' : Inverse s')
    (hkeep : ∀ id t, s.tasksById.get? id = some t → s'.tasksById.get? id = some t)
    (hnew : ∀ id t, s'.tasksById.get? id = some t →
      s.tasksById.get? id = some t ∨ t.attemptCount = 0) : lastTurn s' g = lastTurn s g := by
  refine lastTurn_congr fun x hatt => ⟨fun hx => ?_, fun hx => ?_⟩
  · exact mem_tasks (hkeep _ x (hs.get?_of_mem hx))
  · rcases hnew _ x (hs'.get?_of_mem hx) with hx | hx
    · exact mem_tasks hx
    · have hpos := hatt.1
      omega

lemma mem_updated (hs' : Inverse s') (hu : Updated id t t' s s') {x : StoredTask}
    (hx : x ∈ s'.tasks) : x = t' ∨ x ∈ s.tasks := by
  have hget := hs'.get?_of_mem hx
  rw [hu.get?] at hget
  split at hget
  · exact Or.inl (Option.some.inj hget).symm
  · exact Or.inr (mem_tasks hget)

lemma mem_kept (hs : Inverse s) (hu : Updated id t t' s s') {x : StoredTask} (hx : x ∈ s.tasks) :
    x = t ∨ x ∈ s'.tasks := by
  have hget := hs.get?_of_mem hx
  by_cases hid : x.taskId.1 = id
  · rw [hid, hu.before] at hget
    exact Or.inl (Option.some.inj hget).symm
  · rw [← hu.get?_ne hid] at hget
    exact Or.inr (mem_tasks hget)

/-- An update of one task leaves the other groups alone, and its own if it is not attempted. -/
lemma lastTurn_other (hs : Inverse s) (hs' : Inverse s') (hu : Updated id t t' s s')
    (ht : ¬Attempted g t) (ht' : ¬Attempted g t') : lastTurn s' g = lastTurn s g := by
  refine lastTurn_congr fun x hatt => ⟨fun hx => ?_, fun hx => ?_⟩
  · rcases mem_kept hs hu hx with rfl | hx
    · exact absurd hatt ht
    · exact hx
  · rcases mem_updated hs' hu hx with rfl | hx
    · exact absurd hatt ht'
    · exact hx

/-- An update that leaves an attempted task gives its group the last turn. -/
lemma lastTurn_self (hs' : Inverse s') (hu : Updated id t t' s s') (ht' : Attempted g t')
    (hmax : ∀ x ∈ s.tasks, Attempted g x → x.updatedAt ≤ t'.updatedAt) :
    lastTurn s' g = some t'.updatedAt := by
  refine lastClaimedByGroup_eq ⟨⟨t', mem_tasks hu.get?_self, ht', rfl⟩, fun x hx hatt => ?_⟩
  rcases mem_updated hs' hu hx with rfl | hx
  · exact le_refl _
  · exact hmax x hx hatt

/-! ### The invariant -/

structure Inv (r : Rotation) : Prop where
  inverse : Inverse r.store
  /-- the time stamps of attempted tasks are of clock readings -/
  dated : ∀ {x}, x ∈ r.store.tasks → 1 ≤ x.attemptCount →
    ∃ u, x.updatedAt = nowIso u ∧ ∃ c ∈ r.clock, u ≤ c
  served : ∀ {g}, (∃ e ∈ r.turns, e.group = some g) → ∃ u, lastTurn r.store g = some u
  distinct : ∀ {g h u v}, g ≠ h → lastTurn r.store g = some u → lastTurn r.store h = some v → u ≠ v
  order : ∀ {g h u v}, lastTurn r.store g = some u → lastTurn r.store h = some v → u < v →
    ServedAfter r.turns g h
  fair : ∀ {later e earlier}, r.turns = later ++ e :: earlier → Fair e earlier

variable {r r' : Rotation} {now : DateTime}

lemma Inv.init (h : rotationLts.init r) : Inv r := by
  rw [show r = _ from h]
  refine ⟨Inverse.empty, nofun, ?_, fun _ hu => ?_, fun hu => ?_, fun heq => ?_⟩
  · rintro g ⟨e, he, -⟩
    cases he
  · obtain ⟨x, hx, -⟩ := lastTurn_mem hu
    cases hx
  · obtain ⟨x, hx, -⟩ := lastTurn_mem hu
    cases hx
  · simp at heq

/-- The time stamps so far are before a later clock reading. -/
lemma Inv.before (hi : Inv r) (hl : r.Later now) {x : StoredTask} (hx : x ∈ r.store.tasks)
    (hatt : 1 ≤ x.attemptCount) : x.updatedAt < nowIso now := by
  obtain ⟨u, hu, c, hc, hle⟩ := hi.dated hx hatt
  rw [hu, nowIso_lt_iff]
  exact hle.trans_lt (hl c hc)

lemma Inv.lastTurn_before (hi : Inv r) (hl : r.Later now) {u : String}
    (hu : lastTurn r.store g = some u) : u < nowIso now := by
  obtain ⟨x, hx, hatt, rfl⟩ := lastTurn_mem hu
  exact hi.before hl hx hatt.1

/-- A rotation that the store reads as before keeps the invariant. -/
lemma Inv.same (hi : Inv r) (hinv : Inverse r'.store) (hturns : r'.turns = r.turns)
    (hlast : ∀ g, lastTurn r'.store g = lastTurn r.store g)
    (hdated : ∀ x ∈ r'.store.tasks, 1 ≤ x.attemptCount →
      ∃ u, x.updatedAt = nowIso u ∧ ∃ c ∈ r'.clock, u ≤ c) : Inv r' := by
  refine ⟨hinv, fun hx hatt => hdated _ hx hatt, ?_, ?_, ?_, ?_⟩
  · intro g hg
    rw [hturns] at hg
    rw [hlast]
    exact hi.served hg
  · intro g h u v hne hu hv
    rw [hlast] at hu hv
    exact hi.distinct hne hu hv
  · intro g h u v hu hv hlt
    rw [hlast] at hu hv
    rw [hturns]
    exact hi.order hu hv hlt
  · intro later e earlier heq
    rw [hturns] at heq
    exact hi.fair heq

/-- The dates after an update at a later clock reading. -/
lemma Inv.dated_touched (hi : Inv r) (hl : r.Later now) (hclock : r'.clock = some now)
    (hinv : Inverse r'.store) (hu : Updated id t t' r.store r'.store)
    (hstamp : t'.updatedAt = nowIso now) {x : StoredTask} (hx : x ∈ r'.store.tasks)
    (hatt : 1 ≤ x.attemptCount) : ∃ u, x.updatedAt = nowIso u ∧ ∃ c ∈ r'.clock, u ≤ c := by
  rw [hclock]
  rcases mem_updated hinv hu hx with rfl | hx
  · exact ⟨now, hstamp, now, rfl, le_refl _⟩
  · obtain ⟨u, hu, c, hc, hle⟩ := hi.dated hx hatt
    exact ⟨u, hu, now, rfl, hle.trans (hl c hc).le⟩

/-- An update of an attempted task at a later clock reading. -/
lemma Inv.lastTurn_touched (hi : Inv r) (hl : r.Later now) (hinv : Inverse r'.store)
    (hu : Updated id t t' r.store r'.store) (hkey : fairnessGroupKey t' = fairnessGroupKey t)
    (hatt : 1 ≤ t'.attemptCount) (hstamp : t'.updatedAt = nowIso now) (g : Group) :
    lastTurn r'.store g =
      if g = fairnessGroupKey t then some (nowIso now) else lastTurn r.store g := by
  split
  · next hg =>
    subst hg
    rw [← hstamp]
    refine lastTurn_self hinv hu ⟨hatt, hkey⟩ fun x hx hx' => ?_
    rw [hstamp]
    exact (hi.before hl hx hx'.1).le
  · next hg =>
    refine lastTurn_other hi.inverse hinv hu (fun hc => hg hc.2.symm) fun hc => hg ?_
    rw [← hc.2, hkey]

/-- The last turns of two groups differ after the update too. -/
lemma Inv.distinct_touched (hi : Inv r) (hl : r.Later now) {k : Group}
    (hturn : ∀ g, lastTurn s' g = if g = k then some (nowIso now) else lastTurn r.store g)
    {u v : String} (hne : g ≠ h) (hu : lastTurn s' g = some u) (hv : lastTurn s' h = some v) :
    u ≠ v := by
  rw [hturn] at hu hv
  split at hu
  · next hg =>
    have hh : h ≠ k := fun hc => hne (hg.trans hc.symm)
    rw [if_neg hh] at hv
    rw [← Option.some.inj hu]
    exact (hi.lastTurn_before hl hv).ne'
  · split at hv
    · rw [← Option.some.inj hv]
      exact (hi.lastTurn_before hl hu).ne
    · exact hi.distinct hne hu hv

/-- The order after the update, for turns that agree with it. -/
lemma Inv.order_touched (hi : Inv r) (hl : r.Later now) {k : Group}
    (hturn : ∀ g, lastTurn s' g = if g = k then some (nowIso now) else lastTurn r.store g)
    (hself : ∀ {g u}, g ≠ k → lastTurn r.store g = some u → ServedAfter turns g k)
    (hrest : ∀ {g h}, g ≠ k → ServedAfter r.turns g h → ServedAfter turns g h)
    {u v : String} (hu : lastTurn s' g = some u) (hv : lastTurn s' h = some v) (hlt : u < v) :
    ServedAfter turns g h := by
  rw [hturn] at hu hv
  split at hu
  · -- nothing is later than the update
    rw [← Option.some.inj hu] at hlt
    split at hv
    · rw [← Option.some.inj hv] at hlt
      exact absurd hlt (lt_irrefl _)
    · exact absurd (hi.lastTurn_before hl hv) (lt_asymm hlt)
  · next hg =>
    split at hv
    · next hh =>
      rw [hh]
      exact hself hg hu
    · exact hrest hg (hi.order hu hv hlt)

/-- **An outcome or a cancellation** of a task keeps the rotation, if the task was never attempted
or its group has its turn last. -/
lemma Inv.touched (hi : Inv r) (hl : r.Later now) (hclock : r'.clock = some now)
    (hturns : r'.turns = r.turns) (hu : Updated id t t' r.store r'.store)
    (hkey : fairnessGroupKey t' = fairnessGroupKey t) (hcount : t'.attemptCount = t.attemptCount)
    (hstamp : t'.updatedAt = nowIso now) (hlast : 1 ≤ t.attemptCount → ServedLast r.store t) :
    Inv r' := by
  have hinv := hu.inverse hi.inverse
  have hdated : ∀ x ∈ r'.store.tasks, 1 ≤ x.attemptCount →
      ∃ u, x.updatedAt = nowIso u ∧ ∃ c ∈ r'.clock, u ≤ c :=
    fun x hx hatt => hi.dated_touched hl hclock hinv hu hstamp hx hatt
  by_cases hatt : 1 ≤ t.attemptCount
  · have hturn := hi.lastTurn_touched hl hinv hu hkey (hcount ▸ hatt) hstamp
    -- the group of `t` had its turn last, so it has it last after the update
    have hself : ∀ {g u}, g ≠ fairnessGroupKey t → lastTurn r.store g = some u →
        ServedAfter r.turns g (fairnessGroupKey t) := by
      intro g u hg hgu
      obtain ⟨text, htext, hle⟩ := hlast hatt g u hgu
      have htext : lastTurn r.store (fairnessGroupKey t) = some text := htext
      exact hi.order hgu htext (lt_of_le_of_ne hle (hi.distinct hg hgu htext))
    refine ⟨hinv, fun hx hc => hdated _ hx hc, ?_, ?_, ?_, ?_⟩
    · intro g hg
      rw [hturns] at hg
      rw [hturn]
      split
      · exact ⟨_, rfl⟩
      · exact hi.served hg
    · exact fun hne hgu hhv => hi.distinct_touched hl hturn hne hgu hhv
    · intro g h u v hgu hhv hlt
      rw [hturns]
      exact hi.order_touched hl hturn hself (fun _ hs => hs) hgu hhv hlt
    · intro later e earlier heq
      rw [hturns] at heq
      exact hi.fair heq
  · refine hi.same hinv hturns (fun g => ?_) hdated
    exact lastTurn_other hi.inverse hinv hu (fun hc => hatt hc.1) fun hc => hatt (hcount ▸ hc.1)

/-- The picked group is not behind a group that is due. -/
lemma lastTurn_le {found : List StoredTask} {x : StoredTask} {u : String}
    (ht : chooseFairTask found s.tasks = some t) (hx : x ∈ found)
    (hu : lastTurn s (fairnessGroupKey t) = some u) :
    ∃ v, lastTurn s (fairnessGroupKey x) = some v ∧ u ≤ v := by
  have hle := (chooseFairTask_spec ht).2.1 x hx
  unfold lastTurn at hu ⊢
  simp only [candidateKey, groupSortKey, hu] at hle
  cases hv : (lastClaimedByGroup s.tasks).get? (fairnessGroupKey x) with
  | none =>
    -- a group that never had a turn is ahead
    rw [hv, Prod.Lex.toLex_le_toLex] at hle
    rcases hle with hlt | ⟨heq, -⟩
    · have hfalse : true < false := hlt
      exact absurd hfalse (by decide)
    · cases heq
  | some v =>
    rw [hv, Prod.Lex.toLex_le_toLex, Prod.Lex.toLex_le_toLex] at hle
    refine ⟨v, rfl, ?_⟩
    rcases hle with hlt | ⟨-, hlt | ⟨heq, -⟩⟩
    · exact absurd hlt (lt_irrefl _)
    · exact hlt.le
    · exact le_of_eq heq

/-- What a call of `claim_next` does. -/
lemma claimNext_turn (hs : Inverse s) {res : Except Exn (Option StoredTask)}
    (h : claimNext now none s = (res, s')) :
    (s' = s ∧ ∀ g, (⟨now, s, res⟩ : Turn).group ≠ some g) ∨
      ∃ t found, res = .ok (some (claimed now t)) ∧ Updated t.taskId.1 t (claimed now t) s s' ∧
        candidates now none s.tasks = .ok found ∧ chooseFairTask found s.tasks = some t := by
  rw [claimNext] at h
  split at h
  · cases h
    exact Or.inl ⟨rfl, fun g hg => by cases hg⟩
  next found hfound =>
  split at h
  · cases h
    exact Or.inl ⟨rfl, fun g hg => by cases hg⟩
  next t ht =>
  cases h
  have hmem := (mem_candidates hfound).mp (mem_of_chooseFairTask ht)
  exact Or.inr ⟨t, found, rfl, ⟨hs.get?_of_mem hmem.1, rfl, rfl, rfl⟩, hfound, ht⟩

/-- A call of `claim_next` is one more turn. -/
lemma Inv.fair_cons (hi : Inv r) {e : Turn} (he : Fair e r.turns)
    (hturns : r'.turns = e :: r.turns) {later earlier : List Turn} {e' : Turn}
    (heq : r'.turns = later ++ e' :: earlier) : Fair e' earlier := by
  rw [hturns] at heq
  cases later with
  | nil =>
    obtain ⟨rfl, rfl⟩ := List.cons.inj heq
    exact he
  | cons x later => exact hi.fair (List.cons.inj heq).2

/-- A call that picks nothing. -/
lemma Inv.idle (hi : Inv r) (hl : r.Later now) (hclock : r'.clock = some now) {e : Turn}
    (he : ∀ g, e.group ≠ some g) (hsame : r'.store = r.store) (hturns : r'.turns = e :: r.turns) :
    Inv r' := by
  refine ⟨hsame ▸ hi.inverse, fun hx hatt => ?_, ?_, ?_, ?_, ?_⟩
  · rw [hsame] at hx
    obtain ⟨u, hu, c, hc, hle⟩ := hi.dated hx hatt
    exact ⟨u, hu, now, hclock, hle.trans (hl c hc).le⟩
  · rintro g ⟨e', he', hg⟩
    rw [hturns] at he'
    rw [hsame]
    rcases List.mem_cons.mp he' with rfl | he'
    · exact absurd hg (he g)
    · exact hi.served ⟨e', he', hg⟩
  · intro g h u v hne hgu hhv
    rw [hsame] at hgu hhv
    exact hi.distinct hne hgu hhv
  · intro g h u v hgu hhv hlt
    rw [hsame] at hgu hhv
    rw [hturns]
    exact (hi.order hgu hhv hlt).cons (he g)
  · exact fun heq => hi.fair_cons (fun g _ hg => absurd hg (he g)) hturns heq

/-- A claim is fair: the picked group is not behind a due one, and no two have their last turns at
once. -/
lemma Inv.fair_claim (hi : Inv r) {e : Turn} (he : e.before = r.store)
    {found : List StoredTask} (hgroup : e.group = some (fairnessGroupKey t))
    (hfound : candidates e.now none r.store.tasks = .ok found)
    (hchoose : chooseFairTask found r.store.tasks = some t) : Fair e r.turns := by
  intro g h hg hserved hne hdue
  rw [hgroup, Option.some.injEq] at hg
  obtain ⟨x, hx, hxh, hclaimable⟩ := hdue
  rw [he] at hx
  obtain ⟨u, hgu⟩ := hi.served hserved
  rw [← hg] at hgu
  obtain ⟨v, hhv, hle⟩ := lastTurn_le hchoose ((mem_candidates hfound).mpr ⟨hx, hclaimable⟩) hgu
  rw [hxh] at hhv
  rw [← hg] at hne ⊢
  exact hi.order hgu hhv (lt_of_le_of_ne hle (hi.distinct hne.symm hgu hhv))

/-- **A claim** is fair and keeps the rotation. -/
lemma Inv.claim (hi : Inv r) (hl : r.Later now) (hclock : r'.clock = some now)
    {res : Except Exn (Option StoredTask)} (hclaim : claimNext now none r.store = (res, r'.store))
    (hturns : r'.turns = ⟨now, r.store, res⟩ :: r.turns) : Inv r' := by
  rcases claimNext_turn hi.inverse hclaim with
    ⟨hsame, hnone⟩ | ⟨t, found, hres, hu, hfound, hchoose⟩
  · exact hi.idle hl hclock hnone hsame hturns
  have hinv := hu.inverse hi.inverse
  have hcount : 1 ≤ (claimed now t).attemptCount := Nat.le_add_left 1 _
  have hturn := hi.lastTurn_touched hl hinv hu rfl hcount rfl
  have hgroup : (⟨now, r.store, res⟩ : Turn).group = some (fairnessGroupKey t) := by
    rw [hres]
    rfl
  refine ⟨hinv, fun hx hatt => hi.dated_touched hl hclock hinv hu rfl hx hatt, ?_, ?_, ?_, ?_⟩
  · rintro g ⟨e, he, hg⟩
    rw [hturn]
    rw [hturns] at he
    split
    · exact ⟨_, rfl⟩
    · next hne =>
      rcases List.mem_cons.mp he with rfl | he
      · rw [hgroup] at hg
        exact absurd (Option.some.inj hg).symm hne
      · exact hi.served ⟨e, he, hg⟩
  · exact fun hne hgu hhv => hi.distinct_touched hl hturn hne hgu hhv
  · intro g h u v hgu hhv hlt
    rw [hturns]
    refine hi.order_touched hl hturn ?_ ?_ hgu hhv hlt
    · exact fun _ _ => ⟨[], _, _, rfl, hgroup, fun x hx => absurd hx List.not_mem_nil⟩
    · intro g h hg hs
      refine hs.cons ?_
      rw [hgroup]
      exact fun hc => hg (Option.some.inj hc).symm
  · exact fun heq => hi.fair_cons (hi.fair_claim rfl hgroup hfound hchoose) hturns heq

/-! ### Runs -/

/-- What an operation that is no turn may do to the store. -/
inductive Touches (s : TaskStore) (now : DateTime) (s' : TaskStore) : Prop
  | nothing (h : s' = s)
  | task {id : String} {t t' : StoredTask} (updated : Updated id t t' s s')
      (key : fairnessGroupKey t' = fairnessGroupKey t) (count : t'.attemptCount = t.attemptCount)
      (stamp : t'.updatedAt = nowIso now) (last : 1 ≤ t.attemptCount → ServedLast s t)

lemma Inv.other (hi : Inv r) {op : StoreOp} (h : otherStep r now op r')
    (ht : Touches r.store now r'.store) : Inv r' := by
  obtain ⟨-, hturns, rfl | ⟨hl, hclock⟩⟩ := h
  · exact hi
  cases ht with
  | task updated key count stamp last =>
    exact hi.touched hl hclock hturns updated key count stamp last
  | nothing hsame =>
    refine hi.same (hsame ▸ hi.inverse) hturns (fun g => by rw [hsame]) fun x hx hatt => ?_
    rw [hsame] at hx
    obtain ⟨u, hu, c, hc, hle⟩ := hi.dated hx hatt
    exact ⟨u, hu, now, hclock, hle.trans (hl c hc).le⟩

lemma touches_modify {f : StoredTask → StoredTask}
    (hid : ∀ t, (f t).taskId = t.taskId) (hp : ∀ t, (f t).pair = t.pair)
    (hkey : ∀ t, fairnessGroupKey (f t) = fairnessGroupKey t)
    (hcount : ∀ t, (f t).attemptCount = t.attemptCount)
    (hstamp : ∀ t, (f t).updatedAt = nowIso now)
    (hlast : ∀ t, s.tasksById.get? id = some t → 1 ≤ t.attemptCount → ServedLast s t)
    (h : ∃ res, s.modify id f = (res, s')) : Touches s now s' := by
  obtain ⟨res, h⟩ := h
  rcases modify_cases hid hp h with ⟨-, hsame, -⟩ | ⟨t, -, hu⟩
  · exact .nothing hsame
  · exact .task hu (hkey t) (hcount t) (hstamp t) (hlast t hu.before)

/-- **One step** keeps the rotation. -/
lemma inv_step {op : StoreOp} (hi : Inv r) (hop : Undisturbed r op) (h : rotationStep r op r') :
    Inv r' := by
  cases op with
  | submitMany batch =>
    obtain ⟨⟨hfresh, res, hsubmit⟩, hturns, hclock⟩ := h
    obtain ⟨outcomes, s', he, -, hinv, hkeep, -⟩ := submitMany_spec hi.inverse hfresh
    have hs' : r'.store = s' := (Prod.mk.inj (hsubmit.symm.trans he)).2
    rw [← hs'] at hinv hkeep
    have hnew : ∀ id t, r'.store.tasksById.get? id = some t →
        r.store.tasksById.get? id = some t ∨ t.attemptCount = 0 := by
      intro id t ht
      rcases submitMany_new hsubmit ht with ht | ⟨b, -, rfl⟩
      · exact Or.inl ht
      · exact Or.inr rfl
    refine hi.same hinv hturns (fun g => lastTurn_submitted hi.inverse hinv hkeep hnew) ?_
    intro x hx hatt
    rcases hnew _ x (hinv.get?_of_mem hx) with hx | hx
    · rw [hclock]
      exact hi.dated (mem_tasks hx) hatt
    · omega
  | claimNext now model =>
    obtain ⟨-, hl, hclock, res, hclaim, hturns⟩ := h
    exact hi.claim hl hclock hclaim hturns
  | recordResult now taskId result =>
    exact hi.other h (touches_modify (fun _ => by rfl) (fun _ => by rfl) (fun _ => by rfl)
      (fun _ => by rfl) (fun _ => by rfl) hop h.1)
  | recordError now taskId error =>
    exact hi.other h (touches_modify (fun _ => by rfl) (fun _ => by rfl) (fun _ => by rfl)
      (fun _ => by rfl) (fun _ => by rfl) hop h.1)
  | recordRetry now taskId error nextAttemptAt =>
    exact hi.other h (touches_modify (fun _ => by rfl) (fun _ => by rfl) (fun _ => by rfl)
      (fun _ => by rfl) (fun _ => by rfl) hop h.1)
  | cancelTask now tenant taskId =>
    obtain ⟨res, hcancel⟩ := h.1
    refine hi.other h ?_
    rcases cancelTask_cases hi.inverse hcancel with hsame | ⟨t, -, hterm, htenant, hu⟩
    · exact .nothing hsame
    · have hget : r.store.getTask tenant taskId = some t :=
        Option.filter_eq_some_iff.mpr ⟨hu.before, by simpa using htenant⟩
      exact .task hu rfl rfl rfl (hop t hget hterm)
  | reload now => exact absurd h not_false

theorem inv_of_reachable (h : rotationLts.Reachable Undisturbed r) : Inv r :=
  h.invariant (I := Inv) (fun _ h0 => Inv.init h0) fun _ _ _ hs hP hl => inv_step hs hP hl

/-- **No second turn.** In every run whose outcomes and cancellations of attempted tasks only touch
the group that has its turn last: between two turns of a group, every other group that has a
claimable task at each claim after the first has a turn. -/
theorem no_second_turn (h : rotationLts.Reachable Undisturbed r)
    {later between earlier : List Turn} {a b : Turn} {h' : Group}
    (hturns : r.turns = later ++ b :: (between ++ a :: earlier)) (ha : a.group = some g)
    (hb : b.group = some g) (hne : h' ≠ g) (hdue : ∀ e ∈ b :: between, e.Due h') :
    ∃ e ∈ between, e.group = some h' := by
  have hfair := (inv_of_reachable h).fair hturns
  have hmem : ∃ a' ∈ between ++ a :: earlier, a'.group = some g :=
    ⟨a, List.mem_append_right _ List.mem_cons_self, ha⟩
  exact (hfair g h' hb hmem hne (hdue b List.mem_cons_self)).between ha hne

/-! ### Two small runs -/

/-- Two tasks of each of two tenants. -/
def sampleTasks : List (QueueTask × Stamp) :=
  [(sampleTask ⟨"acme", nonBlank_acme⟩ ⟨"k1", nonBlank_k1⟩ [],
    sampleStamp ⟨"task_1", nonBlank_task1⟩),
   (sampleTask ⟨"acme", nonBlank_acme⟩ ⟨"k2", by decide⟩ [],
     sampleStamp ⟨"task_2", nonBlank_task2⟩),
   (sampleTask ⟨"globex", nonBlank_globex⟩ ⟨"k1", nonBlank_k1⟩ [],
     sampleStamp ⟨"task_3", nonBlank_task3⟩),
   (sampleTask ⟨"globex", nonBlank_globex⟩ ⟨"k2", by decide⟩ [], sampleStamp ⟨"task_4", by decide⟩)]

def sampleGroup (tenant : String) : Group :=
  [tenant, "docs", "indexer", "summarize", "batch", "local-model"]

def first : DateTime := ⟨63892886400000001, by decide⟩
def second : DateTime := ⟨63892886400000002, by decide⟩
def third : DateTime := ⟨63892886400000003, by decide⟩
def fourth : DateTime := ⟨63892886400000004, by decide⟩

def sampleSubmitted : Rotation := ⟨(submitMany sampleTasks TaskStore.empty).2, none, []⟩

/-- The turn of a claim, and the rotation after it. -/
def Rotation.turn (r : Rotation) (now : DateTime) : Turn :=
  ⟨now, r.store, (TaskStore.claimNext now none r.store).1⟩

def Rotation.next (r : Rotation) (now : DateTime) : Rotation :=
  ⟨(TaskStore.claimNext now none r.store).2, some now, r.turn now :: r.turns⟩

/-- The rotation after the result of a task. -/
def Rotation.finish (r : Rotation) (now : DateTime) (id : String) : Rotation :=
  ⟨(TaskStore.recordResult now id [] r.store).2, some now, r.turns⟩

lemma next_step {now : DateTime} (hl : r.Later now) :
    rotationLts.step r (.claimNext now none) (r.next now) := ⟨rfl, hl, rfl, _, rfl, rfl⟩

lemma finish_step {now : DateTime} (hl : r.Later now) (id : String) :
    rotationLts.step r (.recordResult now id []) (r.finish now id) :=
  ⟨⟨_, rfl⟩, rfl, Or.inr ⟨hl, rfl⟩⟩

lemma later_next {now : DateTime} (h : now < now') : (r.next now).Later now' := by
  rintro c ⟨⟩
  exact h

lemma sample_submit {P : Rotation → StoreOp → Prop} (hP : ∀ r batch, P r (.submitMany batch)) :
    rotationLts.Reachable P sampleSubmitted := by
  refine (Lts.Reachable.init rfl).run (Lts.Run.single (hP _ sampleTasks) ?_)
  exact ⟨⟨⟨by decide, fun _ _ => rfl⟩, _, rfl⟩, rfl, rfl⟩

lemma run_next {P : Rotation → StoreOp → Prop} (hP : ∀ r now, P r (.claimNext now none))
    {now : DateTime} (hl : r.Later now) : rotationLts.Run P r (r.next now) :=
  Lts.Run.single (hP r now) (next_step hl)

/-- Two claims, the first of the one tenant, the second of the other. -/
def sampleClaimed : Rotation := (sampleSubmitted.next first).next second

lemma sample_claim {P : Rotation → StoreOp → Prop} (hs : ∀ r batch, P r (.submitMany batch))
    (hP : ∀ r now, P r (.claimNext now none)) : rotationLts.Reachable P sampleClaimed :=
  ((sample_submit hs).run (run_next hP nofun)).run (run_next hP (later_next (by decide)))

def Turn.hasDue (e : Turn) (g : Group) : Bool :=
  e.before.tasks.any fun t => fairnessGroupKey t = g &&
    match isTaskClaimable e.now none t with
    | .ok claimable => claimable
    | .error _ => false

lemma due_of_hasDue {e : Turn} (h : e.hasDue g = true) : e.Due g := by
  obtain ⟨t, ht, hc⟩ := List.any_eq_true.mp h
  rw [Bool.and_eq_true, decide_eq_true_eq] at hc
  obtain ⟨hg, hc⟩ := hc
  split at hc
  · next claimable hclaimable =>
    rw [hc] at hclaimable
    exact ⟨t, ht, hg, hclaimable⟩
  · cases hc

/-- The third claim is of the first tenant again; the other had its turn in between. -/
theorem no_second_turn_sample :
    ∃ e ∈ [(sampleSubmitted.next first).turn second], e.group = some (sampleGroup "globex") := by
  have hreach : rotationLts.Reachable Undisturbed (sampleClaimed.next third) :=
    (sample_claim (fun _ _ => trivial) fun _ _ => trivial).run
      (run_next (fun _ _ => trivial) (later_next (by decide)))
  have hturns : (sampleClaimed.next third).turns =
      [] ++ sampleClaimed.turn third :: ([(sampleSubmitted.next first).turn second] ++
        sampleSubmitted.turn first :: []) := rfl
  have hdue : ∀ e ∈ [sampleClaimed.turn third, (sampleSubmitted.next first).turn second],
      e.Due (sampleGroup "globex") := by
    rw [List.forall_mem_cons, List.forall_mem_singleton]
    exact ⟨due_of_hasDue (by decide +kernel), due_of_hasDue (by decide +kernel)⟩
  have ha : (sampleSubmitted.turn first).group = some (sampleGroup "acme") := by decide +kernel
  have hb : (sampleClaimed.turn third).group = some (sampleGroup "acme") := by decide +kernel
  exact no_second_turn hreach hturns ha hb (by decide) hdue

/-- Two claims of the two tenants, then the result of the first task: the next claim is of the
second tenant again, though the first has a task to claim. -/
theorem second_turn :
    ∃ r later b between a earlier g h, rotationLts.Reachable Lts.anyStep r ∧
      r.turns = later ++ b :: (between ++ a :: earlier) ∧ a.group = some g ∧ b.group = some g ∧
      h ≠ g ∧ (∀ e ∈ b :: between, e.Due h) ∧ ¬∃ e ∈ between, e.group = some h := by
  refine ⟨(sampleClaimed.finish third "task_1").next fourth, [],
    (sampleClaimed.finish third "task_1").turn fourth, [],
    (sampleSubmitted.next first).turn second, [sampleSubmitted.turn first],
    sampleGroup "globex", sampleGroup "acme", ?_, rfl, by decide +kernel, by decide +kernel,
    by decide, ?_, ?_⟩
  · refine (sample_claim (fun _ _ => trivial) fun _ _ => trivial).run ?_
    have hfinish : rotationLts.step sampleClaimed (.recordResult third "task_1" [])
        (sampleClaimed.finish third "task_1") := finish_step (later_next (by decide)) "task_1"
    refine Lts.Run.trans (Lts.Run.single trivial hfinish) (run_next (fun _ _ => trivial) ?_)
    rintro c ⟨⟩
    decide
  · rw [List.forall_mem_singleton]
    exact due_of_hasDue (by decide +kernel)
  · rintro ⟨e, he, -⟩
    cases he

end Orchestrator.Fairness
