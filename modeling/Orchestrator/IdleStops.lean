import Orchestrator.LifecycleSystem
import Orchestrator.ClockOrder

/-!
The stop of idle instances, and the requests that an instance has held.

A lease writes `last_used_at`, a release does not, and idleness is counted from `last_used_at`. So
no lease is granted within the TTL before a stop, but one that was granted earlier may reach into
it: an instance is stopped within the TTL of a request exactly where such a lease was released
there.
-/

namespace Orchestrator.Lifecycle

open Lib Lib.Coro Clock

/-- The instance holds an active request. -/
def Held (r : Registry) (id : String) : Prop := ∃ i, r.get? id = some i ∧ 0 < i.activeRequests

/-- How many requests the instance holds. -/
def requests (r : Registry) (id : String) : ℕ :=
  ((r.get? id).map fun i => i.activeRequests.toNat).getD 0

/-- The changes of a log, the last one first: the registry before, the time, and the registry after;
`after` is the one after the last change. -/
def changes : Option Registry → List Entry → List (Registry × DateTime × Registry)
  | _, [] => []
  | after, ⟨.changed before, u⟩ :: log =>
    (after.map fun r => (before, u, r)).toList ++ changes (some before) log
  | after, _ :: log => changes after log

/-- A lease of the instance was granted at `u`: there are more requests than before. -/
def LeasedAt (after : Option Registry) (log : List Entry) (id : String) (u : DateTime) : Prop :=
  ∃ before r, (before, u, r) ∈ changes after log ∧ requests before id < requests r id

/-- No lease was granted within the time before `t`. -/
def UnleasedSince (after : Option Registry) (log : List Entry) (id : String) (ttl : ℤ)
    (t : DateTime) : Prop :=
  ∀ u, LeasedAt after log id u → (u.1 : ℤ) + ttl * 1000000 ≤ t.1

/-- A lease of the instance was released at `u` or later. -/
def ReleasedSince (log : List Entry) (id : String) (u : DateTime) : Prop :=
  ∃ t, ⟨.released id, t⟩ ∈ log ∧ u ≤ t

/-- The requests of the instance are over by `t`, but for those released later. -/
def QuietSince (log : List Entry) (id : String) (ttl : ℤ) (t : DateTime) : Prop :=
  ∀ before u, ⟨.changed before, u⟩ ∈ log → Held before id →
    ReleasedSince log id u ∨ (u.1 : ℤ) + ttl * 1000000 ≤ t.1

/-- What the entries before an entry say of it. -/
def Justified (earlier : List Entry) (e : Entry) : Prop :=
  match e.note with
  | .changed _ | .released _ | .stopping _ _ | .launched _ _ | .halted _ _ _ _ => True
  | .idleStop profile i => ∀ ttl, idleTtlSecondsFor i profile = .ok ttl →
      QuietSince earlier i.instanceId ttl e.time ∧
        UnleasedSince none earlier i.instanceId ttl e.time

def Sound : List Entry → Prop
  | [] => True
  | e :: earlier => Justified earlier e ∧ Sound earlier

lemma Sound.justified {later earlier : List Entry} {e : Entry}
    (h : Sound (later ++ e :: earlier)) : Justified earlier e := by
  induction later with
  | nil => exact h.1
  | cons _ _ ih => exact ih h.2

/-- The requests that the instance has held are under way, released, or before the idle
reference of its record. -/
def Accounted (log : List Entry) (id : String) (i : BackendInstance) : Prop :=
  ∀ before u, ⟨.changed before, u⟩ ∈ log → Held before id →
    0 < i.activeRequests ∨ ReleasedSince log id u ∨ ∃ r, idleReference i = nowIso r ∧ u ≤ r

/-- The leases of the instance were granted by the idle reference of its record. -/
def Referred (registry : Registry) (log : List Entry) (id : String) (i : BackendInstance) : Prop :=
  ∀ u, LeasedAt (some registry) log id u → ∃ r, idleReference i = nowIso r ∧ u ≤ r

/-- The invariant of the runs. -/
structure History (s : LifecycleState) : Prop where
  keyed : Keyed s
  past : ∀ e ∈ s.log, e.time ≤ s.clock
  sorted : s.log.Pairwise fun later earlier => earlier.time ≤ later.time
  stamped : ∀ id i, s.registry.get? id = some i → Stamped s.clock i
  accounted : ∀ id i, s.registry.get? id = some i → Accounted s.log id i
  referred : ∀ id i, s.registry.get? id = some i → Referred s.registry s.log id i
  sound : Sound s.log

/-! ### Leases -/

lemma requests_of_get? {r : Registry} {id : String} {i : BackendInstance}
    (h : r.get? id = some i) : requests r id = i.activeRequests.toNat := by
  rw [requests, h]
  rfl

lemma held_iff {r : Registry} {id : String} : Held r id ↔ 0 < requests r id := by
  rw [Held, requests]
  cases r.get? id with
  | none => exact iff_of_false (fun ⟨_, h, _⟩ => nomatch h) (lt_irrefl 0)
  | some i => simp

lemma changes_note {note : Note} (h : ∀ before, note ≠ .changed before) (after : Option Registry)
    (u : DateTime) (log : List Entry) : changes after (⟨note, u⟩ :: log) = changes after log := by
  cases note with
  | changed before => exact absurd rfl (h before)
  | _ => rfl

lemma mem_of_mem_changes {after : Option Registry} {log : List Entry} {before r : Registry}
    {u : DateTime} (h : (before, u, r) ∈ changes after log) : ⟨.changed before, u⟩ ∈ log := by
  induction log generalizing after with
  | nil => cases h
  | cons e log ih =>
    obtain ⟨note, v⟩ := e
    cases note with
    | changed b =>
      rcases List.mem_append.mp h with h | h
      · cases after with
        | none => cases h
        | some r' =>
          cases List.mem_singleton.mp h
          exact List.mem_cons_self
      · exact List.mem_cons_of_mem _ (ih h)
    | _ => exact List.mem_cons_of_mem _ (ih h)

lemma leasedAt_changed {before r : Registry} {u v : DateTime} {log : List Entry} {id : String} :
    LeasedAt (some r) (⟨.changed before, u⟩ :: log) id v ↔
      (v = u ∧ requests before id < requests r id) ∨ LeasedAt (some before) log id v := by
  have hchanges : changes (some r) (⟨.changed before, u⟩ :: log) =
      (before, u, r) :: changes (some before) log := rfl
  simp only [LeasedAt, hchanges, List.mem_cons, Prod.mk.injEq, or_and_right, exists_or, and_assoc,
    exists_and_left, exists_eq_left]

lemma leasedAt_note {note : Note} (h : ∀ before, note ≠ .changed before) {after : Option Registry}
    {u v : DateTime} {log : List Entry} {id : String} :
    LeasedAt after (⟨note, u⟩ :: log) id v ↔ LeasedAt after log id v := by
  rw [LeasedAt, changes_note h, LeasedAt]

/-- The log alone shows no more leases than it does with the present registry. -/
lemma leasedAt_none {r : Registry} {log : List Entry} {id : String} {u : DateTime}
    (h : LeasedAt none log id u) : LeasedAt (some r) log id u := by
  induction log with
  | nil => exact h
  | cons e log ih =>
    obtain ⟨note, v⟩ := e
    cases note with
    | changed before =>
      exact leasedAt_changed.mpr (Or.inr h)
    | _ => exact ih h

lemma LeasedAt.earlier {after : Option Registry} {later earlier : List Entry} {before : Registry}
    {u v : DateTime} {id : String} (h : LeasedAt (some before) earlier id v) :
    LeasedAt after (later ++ ⟨.changed before, u⟩ :: earlier) id v := by
  induction later generalizing after with
  | nil =>
    obtain ⟨b, r, hmem, hlt⟩ := h
    exact ⟨b, r, List.mem_append_right _ hmem, hlt⟩
  | cons e later ih =>
    obtain ⟨note, w⟩ := e
    cases note with
    | changed b =>
      obtain ⟨b', r, hmem, hlt⟩ := @ih (some b)
      exact ⟨b', r, List.mem_append_right _ hmem, hlt⟩
    | _ => exact ih

/-! ### The beginning of a period -/

/-- The registry in force at `w`, where a later change has replaced it. -/
def inForceAt (w : ℤ) : List Entry → Option Registry
  | [] => none
  | ⟨.changed before, u⟩ :: log => (inForceAt w log).or (if w < u.1 then some before else none)
  | _ :: log => inForceAt w log

/-- The instance held a request at `w`. -/
def HeldAt (log : List Entry) (id : String) (w : ℤ) : Prop :=
  ∃ r, inForceAt w log = some r ∧ Held r id

/-- A lease that was granted by `w` is released after it. -/
def Overhangs (log : List Entry) (id : String) (w : ℤ) : Prop :=
  HeldAt log id w ∧ ∃ u, ⟨.released id, u⟩ ∈ log ∧ w < u.1

lemma inForceAt_eq_some {w : ℤ} {log : List Entry} {r : Registry} (h : inForceAt w log = some r) :
    ∃ u, ⟨.changed r, u⟩ ∈ log ∧ w < u.1 := by
  induction log with
  | nil => cases h
  | cons e log ih =>
    have hlater : inForceAt w log = some r → ∃ u, ⟨.changed r, u⟩ ∈ e :: log ∧ w < u.1 := by
      intro hr
      obtain ⟨u, hmem, hu⟩ := ih hr
      exact ⟨u, List.mem_cons_of_mem _ hmem, hu⟩
    obtain ⟨note, u⟩ := e
    cases note with
    | changed before =>
      rcases Option.or_eq_some_iff.mp h with hr | ⟨-, hr⟩
      · exact hlater hr
      · split at hr
        · next hu =>
          cases hr
          exact ⟨u, List.mem_cons_self, hu⟩
        · cases hr
    | _ => exact hlater h

lemma HeldAt.cons {log : List Entry} {id : String} {w : ℤ} (h : HeldAt log id w) (e : Entry) :
    HeldAt (e :: log) id w := by
  obtain ⟨r, hr, hheld⟩ := h
  refine ⟨r, ?_, hheld⟩
  obtain ⟨note, u⟩ := e
  cases note with
  | changed before => rw [inForceAt, hr, Option.some_or]
  | _ => exact hr

lemma HeldAt.mono {log : List Entry} {id : String} {w : ℤ} (h : HeldAt log id w)
    (later : List Entry) : HeldAt (later ++ log) id w := by
  induction later with
  | nil => exact h
  | cons e later ih => exact ih.cons e

lemma inForceAt_of_le {w : ℤ} {log : List Entry} (h : ∀ e ∈ log, (e.time.1 : ℤ) ≤ w) :
    inForceAt w log = none := by
  cases hr : inForceAt w log with
  | none => rfl
  | some r =>
    obtain ⟨u, hmem, hu⟩ := inForceAt_eq_some hr
    have hle := h _ hmem
    exact absurd hu (not_lt.mpr hle)

/-- An instance that holds a request, and was granted none after `w`, held it at `w`. -/
lemma heldAt_or {w : ℤ} {log : List Entry} {r : Registry} {id : String}
    (hsorted : log.Pairwise fun later earlier => earlier.time ≤ later.time)
    (hleased : ∀ u, LeasedAt (some r) log id u → (u.1 : ℤ) ≤ w) (hheld : Held r id) :
    inForceAt w log = none ∨ HeldAt log id w := by
  induction log generalizing r with
  | nil => exact Or.inl rfl
  | cons e log ih =>
    obtain ⟨hfirst, hrest⟩ := List.pairwise_cons.mp hsorted
    obtain ⟨note, u⟩ := e
    cases note with
    | changed before =>
      by_cases hu : w < (u.1 : ℤ)
      · have hbefore : Held before id := by
          rw [held_iff] at hheld ⊢
          by_contra hnot
          have := hleased u (leasedAt_changed.mpr (Or.inl ⟨rfl, by omega⟩))
          omega
        right
        rcases ih hrest (fun v hv => hleased v (leasedAt_changed.mpr (Or.inr hv))) hbefore with
          hnone | hat
        · exact ⟨before, by rw [inForceAt, hnone, if_pos hu, Option.none_or], hbefore⟩
        · exact hat.cons _
      · left
        refine inForceAt_of_le ?_
        rw [List.forall_mem_cons]
        refine ⟨not_lt.mp hu, fun e he => ?_⟩
        have hle : e.time.1 ≤ u.1 := hfirst e he
        omega
    | _ =>
      exact (ih hrest (fun v hv => hleased v hv) hheld).imp_right fun hat => hat.cons _

lemma heldAt_of_held {w : ℤ} {log : List Entry} {before : Registry} {u : DateTime} {id : String}
    (hsorted : log.Pairwise fun later earlier => earlier.time ≤ later.time)
    (hleased : ∀ v, LeasedAt (some before) log id v → (v.1 : ℤ) ≤ w) (hheld : Held before id)
    (hu : w < u.1) : HeldAt (⟨.changed before, u⟩ :: log) id w := by
  rcases heldAt_or hsorted hleased hheld with hnone | hat
  · exact ⟨before, by rw [inForceAt, hnone, if_pos hu, Option.none_or], hheld⟩
  · exact hat.cons _

/-! ### Idle references -/

lemma idleReference_of_none {i : BackendInstance} {t : DateTime} (hlast : i.lastUsedAt = none)
    (hupdated : i.updatedAt = nowIso t) : idleReference i = nowIso t := by
  simp [idleReference, hlast, hupdated, nowIso_ne_empty]

lemma idleReference_of_some {i : BackendInstance} {t : DateTime}
    (hlast : i.lastUsedAt = some (nowIso t)) : idleReference i = nowIso t := by
  simp [idleReference, hlast, Option.filter, nowIso_ne_empty]

lemma Stamp.mono {clock clock' : DateTime} {text : String} (h : Stamp clock text)
    (hc : clock ≤ clock') : Stamp clock' text := by
  obtain ⟨t, ht, rfl⟩ := h
  exact ⟨t, ht.trans hc, rfl⟩

lemma Stamped.mono {clock clock' : DateTime} {i : BackendInstance} (h : Stamped clock i)
    (hc : clock ≤ clock') : Stamped clock' i :=
  ⟨h.1.mono hc, fun text ht => (h.2 text ht).mono hc⟩

lemma Stamped.idleReference {clock : DateTime} {i : BackendInstance} (h : Stamped clock i) :
    Stamp clock (idleReference i) := by
  cases hlast : i.lastUsedAt with
  | none =>
    obtain ⟨t, ht, hupdated⟩ := h.1
    exact ⟨t, ht, idleReference_of_none hlast hupdated⟩
  | some text =>
    obtain ⟨t, ht, rfl⟩ := h.2 text hlast
    exact ⟨t, ht, idleReference_of_some hlast⟩

/-! ### What a change does to the history -/

/-- The record `j` under an id, after the next change: as before with respect to idleness, but
perhaps used later. -/
def Follows (s : LifecycleState) (id : String) (j : BackendInstance) : Prop :=
  idleReference j = nowIso s.clock ∨ ∃ i, s.registry.get? id = some i ∧
    (0 < i.activeRequests → 0 < j.activeRequests) ∧
      j.activeRequests.toNat ≤ i.activeRequests.toNat ∧
        ∀ r, idleReference i = nowIso r → ∃ r', idleReference j = nowIso r' ∧ r ≤ r'

lemma Follows.refl {s : LifecycleState} {id : String} {i : BackendInstance}
    (h : s.registry.get? id = some i) : Follows s id i :=
  Or.inr ⟨i, h, fun hpos => hpos, le_rfl, fun r hr => ⟨r, hr, le_rfl⟩⟩

lemma mem_change_log {s : LifecycleState} {r before : Registry} {u : DateTime} :
    ⟨.changed before, u⟩ ∈ (s.change r).log ↔
      (before = s.registry ∧ u = s.clock) ∨ ⟨.changed before, u⟩ ∈ s.log := by
  rw [LifecycleState.change_log, List.mem_cons, Entry.mk.injEq, Note.changed.injEq]

lemma ReleasedSince.mono {log log' : List Entry} {id : String} {u : DateTime}
    (h : ReleasedSince log id u) (hl : ∀ e ∈ log, e ∈ log') : ReleasedSince log' id u := by
  obtain ⟨t, ht, hu⟩ := h
  exact ⟨t, hl _ ht, hu⟩

lemma History.follows {s : LifecycleState} (hs : History s) {r : Registry} {id : String}
    {j : BackendInstance} (h : Follows s id j) : Accounted (s.change r).log id j := by
  intro before u hmem hheld
  have hu : u ≤ s.clock := by
    rcases mem_change_log.mp hmem with ⟨-, rfl⟩ | hmem
    · exact le_rfl
    · exact hs.past _ hmem
  rcases h with href | ⟨i, hi, hactive, -, href⟩
  · exact Or.inr (Or.inr ⟨s.clock, href, hu⟩)
  rcases mem_change_log.mp hmem with ⟨rfl, rfl⟩ | hmem
  · -- what the record held until now, it holds now
    obtain ⟨i', hi', hpos⟩ := hheld
    rw [hi] at hi'
    cases hi'
    exact Or.inl (hactive hpos)
  rcases hs.accounted id i hi before u hmem hheld with hpos | hreleased | ⟨r, hr, hur⟩
  · exact Or.inl (hactive hpos)
  · exact Or.inr (Or.inl (hreleased.mono fun e he => List.mem_cons_of_mem _ he))
  · obtain ⟨r', hr', hle⟩ := href r hr
    exact Or.inr (Or.inr ⟨r', hr', hur.trans hle⟩)

lemma History.refers {s : LifecycleState} (hs : History s) {r : Registry} {id : String}
    {j : BackendInstance} (hj : r.get? id = some j) (h : Follows s id j) :
    Referred r (s.change r).log id j := by
  intro u hleased
  rw [LifecycleState.change_log, leasedAt_changed] at hleased
  rcases h with href | ⟨i, hi, -, hfewer, href⟩
  · refine ⟨s.clock, href, ?_⟩
    rcases hleased with ⟨rfl, -⟩ | hleased
    · exact le_rfl
    · obtain ⟨_, _, hmem, -⟩ := hleased
      exact hs.past _ (mem_of_mem_changes hmem)
  rcases hleased with ⟨-, hmore⟩ | hleased
  · rw [requests_of_get? hi, requests_of_get? hj] at hmore
    omega
  · obtain ⟨r₀, hr₀, hle⟩ := hs.referred id i hi u hleased
    obtain ⟨r', hr', hle'⟩ := href r₀ hr₀
    exact ⟨r', hr', hle.trans hle'⟩

lemma History.change {s : LifecycleState} (hs : History s) {r : Registry}
    (hkeyed : Keyed (s.change r)) (hstamped : ∀ id j, r.get? id = some j → Stamped s.clock j)
    (hfollows : ∀ id j, r.get? id = some j → Follows s id j) : History (s.change r) where
  keyed := hkeyed
  past := by
    rw [LifecycleState.change_log, List.forall_mem_cons]
    exact ⟨le_rfl, hs.past⟩
  sorted := List.pairwise_cons.mpr ⟨hs.past, hs.sorted⟩
  stamped := hstamped
  accounted id j hj := hs.follows (hfollows id j hj)
  referred id j hj := hs.refers hj (hfollows id j hj)
  sound := ⟨trivial, hs.sound⟩

/-- A record under its own id. -/
lemma History.set {s : LifecycleState} (hs : History s) {id : String} {j : BackendInstance}
    (hid : j.instanceId = id) (hj : Stamped s.clock j) (hfollows : Follows s id j) :
    History (s.change (s.registry.set id j)) := by
  refine hs.change ?_ ?_ ?_ <;> intro x k hk
  all_goals
    simp only [LifecycleState.change_registry, Dict.get?_set] at hk
    split at hk
  · cases hk
    next h => exact h ▸ hid
  · exact hs.keyed x k hk
  · cases hk
    exact hj
  · exact hs.stamped x k hk
  · cases hk
    next h => exact h ▸ hfollows
  · exact Follows.refl hk

lemma History.erase {s : LifecycleState} (hs : History s) (id : String) :
    History (s.change (s.registry.erase id)) := by
  have hold : ∀ x k, (s.registry.erase id).get? x = some k → s.registry.get? x = some k := by
    intro x k hk
    rw [Dict.get?_erase] at hk
    split at hk
    · cases hk
    · exact hk
  exact hs.change (fun x k hk => hs.keyed x k (hold x k hk))
    (fun x k hk => hs.stamped x k (hold x k hk)) fun x k hk => Follows.refl (hold x k hk)

lemma History.tick {s : LifecycleState} (hs : History s) {t : DateTime} (ht : s.clock ≤ t) :
    History (s.tick t) where
  keyed := hs.keyed
  past e he := (hs.past e he).trans ht
  sorted := hs.sorted
  stamped id i hi := (hs.stamped id i hi).mono ht
  accounted := hs.accounted
  referred := hs.referred
  sound := hs.sound

/-- The note is no matter of requests. -/
def Neutral : Note → Prop
  | .stopping _ _ | .launched _ _ | .halted _ _ _ _ => True
  | .changed _ | .released _ | .idleStop _ _ => False

lemma neutral_of_aboutProcess {note : Note} (h : note.AboutProcess) : Neutral note := by
  cases note with
  | launched _ _ => trivial
  | halted _ _ _ _ => trivial
  | _ => cases h

lemma justified_neutral {note : Note} (h : Neutral note) (earlier : List Entry) (t : DateTime) :
    Justified earlier ⟨note, t⟩ := by
  cases note with
  | changed _ => cases h
  | released _ => cases h
  | idleStop _ _ => cases h
  | _ => trivial

/-- A note that is justified. -/
lemma History.entry {s : LifecycleState} (hs : History s) {note : Note}
    (hnote : ∀ before, note ≠ .changed before) (h : Justified s.log ⟨note, s.clock⟩) :
    History (s.noted note) where
  keyed := hs.keyed
  past := by
    rw [LifecycleState.noted_log, List.forall_mem_cons]
    exact ⟨le_rfl, hs.past⟩
  sorted := List.pairwise_cons.mpr ⟨hs.past, hs.sorted⟩
  stamped := hs.stamped
  accounted id i hi before u hmem hheld := by
    have hmem : ⟨.changed before, u⟩ ∈ s.log := by
      rcases List.mem_cons.mp hmem with hc | hmem
      · cases hc
        exact absurd rfl (hnote before)
      · exact hmem
    refine (hs.accounted id i hi before u hmem hheld).imp_right fun hr => ?_
    exact hr.imp_left fun hr => hr.mono fun e he => List.mem_cons_of_mem _ he
  referred id i hi u hleased := hs.referred id i hi u ((leasedAt_note hnote).mp hleased)
  sound := ⟨h, hs.sound⟩

lemma Neutral.not_changed {note : Note} (h : Neutral note) (before : Registry) :
    note ≠ .changed before := by
  rintro rfl
  cases h

lemma History.noted {s : LifecycleState} (hs : History s) {note : Note} (h : Neutral note) :
    History (s.noted note) := hs.entry h.not_changed (justified_neutral h _ _)

/-- The record with a new `updated_at` is not idle for longer than before. -/
lemma reference_touched {s : LifecycleState} {id : String} {i j : BackendInstance} (hs : History s)
    (hi : s.registry.get? id = some i) (hlast : j.lastUsedAt = i.lastUsedAt)
    (hupdated : j.updatedAt = nowIso s.clock) :
    ∀ r, idleReference i = nowIso r → ∃ r', idleReference j = nowIso r' ∧ r ≤ r' := by
  intro r hr
  cases hused : i.lastUsedAt with
  | none =>
    obtain ⟨t, ht, htext⟩ := (hs.stamped id i hi).idleReference
    rw [hr] at htext
    obtain rfl := nowIso_injective htext
    exact ⟨s.clock, idleReference_of_none (hlast.trans hused) hupdated, ht⟩
  | some text =>
    obtain ⟨t, -, rfl⟩ := (hs.stamped id i hi).2 text hused
    rw [idleReference_of_some hused] at hr
    obtain rfl := nowIso_injective hr
    exact ⟨t, idleReference_of_some (hlast.trans hused), le_rfl⟩

/-- A record that is touched, with the same idle reference or a later one. -/
lemma History.touch {s : LifecycleState} (hs : History s) {id : String} {i j : BackendInstance}
    (hi : s.registry.get? id = some i) (hid : j.instanceId = i.instanceId)
    (hactive : 0 < i.activeRequests → 0 < j.activeRequests)
    (hfewer : j.activeRequests.toNat ≤ i.activeRequests.toNat) (hlast : j.lastUsedAt = i.lastUsedAt)
    (hupdated : j.updatedAt = nowIso s.clock) : History (s.change (s.registry.set id j)) := by
  refine hs.set (hid.trans (hs.keyed id i hi)) ⟨⟨s.clock, le_rfl, hupdated⟩, fun text htext => ?_⟩
    (Or.inr ⟨i, hi, hactive, hfewer, reference_touched hs hi hlast hupdated⟩)
  exact (hs.stamped id i hi).2 text (hlast ▸ htext)

lemma History.adjust {s : LifecycleState} (hs : History s) {id : String} {i : BackendInstance}
    (hi : s.registry.get? id = some i) {delta : ℤ} (h : ¬ (delta < 0 ∧ 0 < i.activeRequests)) :
    History (s.change (s.registry.set id (adjusted i delta s.clock))) := by
  by_cases hdelta : 0 < delta
  · refine hs.set (hs.keyed id i hi) ⟨⟨s.clock, le_rfl, rfl⟩, fun text htext => ?_⟩ ?_
    · rw [adjusted, if_pos hdelta] at htext
      cases htext
      exact ⟨s.clock, le_rfl, rfl⟩
    · exact Or.inl (idleReference_of_some (by rw [adjusted, if_pos hdelta]))
  · refine hs.touch hi rfl (fun hpos => ?_) ?_ (by rw [adjusted, if_neg hdelta]) rfl
    · have : delta = 0 := by omega
      simp only [adjusted]
      omega
    · simp only [adjusted]
      omega

lemma History.release {s : LifecycleState} (hs : History s) {id : String} {i : BackendInstance}
    (hi : s.registry.get? id = some i) {delta : ℤ} (h : delta < 0 ∧ 0 < i.activeRequests) :
    History ((s.change (s.registry.set id (adjusted i delta s.clock))).noted (.released id)) := by
  have hlast : (adjusted i delta s.clock).lastUsedAt = i.lastUsedAt := by
    rw [adjusted, if_neg (by omega)]
  -- all but the account of the record itself is as for an adjustment that releases nothing
  have hstamped : Stamped s.clock (adjusted i delta s.clock) :=
    ⟨⟨s.clock, le_rfl, rfl⟩, fun text htext => (hs.stamped id i hi).2 text (hlast ▸ htext)⟩
  have hget : ∀ x k, (s.registry.set id (adjusted i delta s.clock)).get? x = some k →
      (x = id ∧ k = adjusted i delta s.clock) ∨ s.registry.get? x = some k ∧ x ≠ id := by
    intro x k hk
    rw [Dict.get?_set] at hk
    split at hk
    · next hx => exact Or.inl ⟨hx, (Option.some.inj hk).symm⟩
    · next hx => exact Or.inr ⟨hk, hx⟩
  constructor
  · intro x k hk
    rcases hget x k hk with ⟨rfl, rfl⟩ | ⟨hk, -⟩
    · exact hs.keyed x i hi
    · exact hs.keyed x k hk
  · simp only [LifecycleState.noted_log, LifecycleState.change_log, List.forall_mem_cons]
    exact ⟨le_rfl, le_rfl, hs.past⟩
  · simp only [LifecycleState.noted_log, LifecycleState.change_log, List.pairwise_cons,
      List.forall_mem_cons]
    exact ⟨⟨le_rfl, hs.past⟩, hs.past, hs.sorted⟩
  · intro x k hk
    rcases hget x k hk with ⟨rfl, rfl⟩ | ⟨hk, -⟩
    · exact hstamped
    · exact hs.stamped x k hk
  · intro x k hk before u hmem hheld
    have hmem : ⟨.changed before, u⟩ ∈
        (s.change (s.registry.set id (adjusted i delta s.clock))).log := by
      rcases List.mem_cons.mp hmem with hc | hmem
      · cases hc
      · exact hmem
    rcases hget x k hk with ⟨rfl, rfl⟩ | ⟨hk, -⟩
    · refine Or.inr (Or.inl ⟨s.clock, List.mem_cons_self, ?_⟩)
      rcases mem_change_log.mp hmem with ⟨-, rfl⟩ | hmem
      · exact le_rfl
      · exact hs.past _ hmem
    · refine (hs.follows (Follows.refl hk) before u hmem hheld).imp_right fun hr => ?_
      exact hr.imp_left fun hr => hr.mono fun e he => List.mem_cons_of_mem _ he
  · intro x k hk u hleased
    have hleased : LeasedAt (some (s.registry.set id (adjusted i delta s.clock)))
        (s.change (s.registry.set id (adjusted i delta s.clock))).log x u := hleased
    rcases hget x k hk with ⟨rfl, rfl⟩ | ⟨hk', -⟩
    · rw [LifecycleState.change_log, leasedAt_changed] at hleased
      rcases hleased with ⟨-, hmore⟩ | hleased
      · have hadjusted : requests (s.registry.set x (adjusted i delta s.clock)) x =
            (adjusted i delta s.clock).activeRequests.toNat := requests_of_get? hk
        rw [requests_of_get? hi, hadjusted, adjusted] at hmore
        simp only at hmore
        omega
      · obtain ⟨r, hr, hu⟩ := hs.referred x i hi u hleased
        obtain ⟨r', hr', hle⟩ := reference_touched hs hi hlast rfl r hr
        exact ⟨r', hr', hu.trans hle⟩
    · exact hs.refers hk (Follows.refl hk') u hleased
  · exact ⟨trivial, trivial, hs.sound⟩

lemma History.reshape {s : LifecycleState} (hs : History s) {i j : BackendInstance}
    (hi : s.registry.get? i.instanceId = some i) (hj : Reshaped i j) :
    History (s.change (s.registry.set j.instanceId j)) := by
  have hid := hj.instanceId
  have hactive := hj.activeRequests
  have hlast := hj.lastUsedAt
  have hstamped := hs.stamped _ i hi
  obtain ⟨t, ht, htext⟩ := hstamped.1
  have hupdated : j.updatedAt = i.updatedAt :=
    hj.updatedAt.resolve_right (htext ▸ nowIso_ne_empty t)
  have href : idleReference j = idleReference i := by
    rw [idleReference, idleReference, hlast, hupdated, if_pos (htext ▸ nowIso_ne_empty t),
      if_pos (htext ▸ nowIso_ne_empty t)]
  refine hs.set rfl ⟨hupdated ▸ hstamped.1, fun text h => hstamped.2 text (hlast ▸ h)⟩ ?_
  exact Or.inr ⟨i, hid ▸ hi, fun hpos => hactive ▸ hpos, (congrArg Int.toNat hactive).le,
    fun r hr => ⟨r, href.trans hr, le_rfl⟩⟩

lemma history_closed : Closed History where
  keyed _ hs := hs.keyed
  change s s' hs h := by
    cases h with
    | tick ht => exact hs.tick ht
    | note hn => exact hs.noted (neutral_of_aboutProcess hn)
    | mark state reason hi => exact hs.touch hi rfl (fun hpos => hpos) le_rfl rfl rfl
    | adjust hi hheld => exact hs.adjust hi hheld
    | release hi hheld => exact hs.release hi hheld
    | enter hi =>
      refine hs.set rfl ⟨⟨s.clock, le_rfl, rfl⟩, fun text htext => ?_⟩ ?_
      · exact absurd (hi.2.symm.trans htext) (by simp)
      · exact Or.inl (idleReference_of_none hi.2 rfl)
    | reshape hi hj => exact hs.reshape hi hj
    | remove id => exact hs.erase id

/-! ### Idleness -/

/-- The instance of a candidate may be stopped: nothing of its TTL is left. -/
def Due (profile : ModelProfile) (i : BackendInstance) (s : LifecycleState) : Prop :=
  ¬ Held s.registry i.instanceId ∧ ∀ ttl, idleTtlSecondsFor i profile = .ok ttl →
    QuietSince s.log i.instanceId ttl s.clock ∧
      UnleasedSince (some s.registry) s.log i.instanceId ttl s.clock

variable {profile : ModelProfile} {I B : LifecycleState → Prop}

lemma QuietSince.mono {log : List Entry} {id : String} {ttl : ℤ} {t t' : DateTime}
    (h : QuietSince log id ttl t) (ht : t ≤ t') : QuietSince log id ttl t' := by
  intro before u hmem hheld
  refine (h before u hmem hheld).imp_right fun hu => ?_
  have : t.1 ≤ t'.1 := ht
  omega

lemma UnleasedSince.mono {after : Option Registry} {log : List Entry} {id : String} {ttl : ℤ}
    {t t' : DateTime} (h : UnleasedSince after log id ttl t) (ht : t ≤ t') :
    UnleasedSince after log id ttl t' := by
  intro u hleased
  have hu := h u hleased
  have : t.1 ≤ t'.1 := ht
  omega

lemma Due.tick {i : BackendInstance} {s : LifecycleState} (h : Due profile i s) {t : DateTime}
    (ht : s.clock ≤ t) : Due profile i (s.tick t) :=
  ⟨h.1, fun ttl httl => (h.2 ttl httl).imp (QuietSince.mono · ht) (UnleasedSince.mono · ht)⟩

/-- Entries that neither release nor show a request. -/
lemma QuietSince.cons {log : List Entry} {id : String} {ttl : ℤ} {t : DateTime} {e : Entry}
    (h : QuietSince log id ttl t) (he : ∀ before, e.note = .changed before → ¬ Held before id) :
    QuietSince (e :: log) id ttl t := by
  intro before u hmem hheld
  rcases List.mem_cons.mp hmem with rfl | hmem
  · exact absurd hheld (he before rfl)
  · exact (h before u hmem hheld).imp_left fun hr => hr.mono fun x hx => List.mem_cons_of_mem _ hx

lemma Due.mark {i j : BackendInstance} {s : LifecycleState} (h : Due profile i s) {id : String}
    (hj : s.registry.get? id = some j) (state : BackendState) (reason : Option String) :
    Due profile i (s.change (s.registry.set id
      { j with state := state, failureReason := reason, updatedAt := nowIso s.clock })) := by
  -- the mark changes no counter
  have hsame : ∀ x, requests (s.registry.set id
      { j with state := state, failureReason := reason, updatedAt := nowIso s.clock }) x =
        requests s.registry x := by
    intro x
    rw [requests, requests, Dict.get?_set]
    split
    · next hx =>
      rw [hx, hj]
      rfl
    · rfl
  refine ⟨?_, fun ttl httl => ⟨(h.2 ttl httl).1.cons fun before hb => ?_, fun u hleased => ?_⟩⟩
  · rw [held_iff, LifecycleState.change_registry, hsame, ← held_iff]
    exact h.1
  · cases hb
    exact h.1
  · rw [LifecycleState.change_log, leasedAt_changed] at hleased
    rcases hleased with ⟨-, hmore⟩ | hleased
    · exact absurd hmore (hsame _).not_gt
    · exact (h.2 ttl httl).2 u hleased

lemma Due.noted {i : BackendInstance} {s : LifecycleState} (h : Due profile i s) {note : Note}
    (hnote : ∀ before, note ≠ .changed before) : Due profile i (s.noted note) := by
  refine ⟨h.1, fun ttl httl => ⟨(h.2 ttl httl).1.cons fun before hb => ?_, fun u hleased => ?_⟩⟩
  · exact absurd hb (hnote before)
  · exact (h.2 ttl httl).2 u ((leasedAt_note hnote).mp hleased)

/-- The history is sound and the candidates may be stopped. -/
def Stoppable (profile : ModelProfile) (l : List BackendInstance) (s : LifecycleState) : Prop :=
  History s ∧ ∀ i ∈ l, Due profile i s

lemma Stoppable.neutral {l : List BackendInstance} {s : LifecycleState} (h : Stoppable profile l s)
    {note : Note} (hn : Neutral note) : Stoppable profile l (s.noted note) := by
  refine ⟨h.1.noted hn, fun i hi => (h.2 i hi).noted hn.not_changed⟩

lemma stoppable_calm (l : List BackendInstance) : Calm Note.AboutProcess (Stoppable profile l) where
  tick _ _ hs ht := ⟨hs.1.tick ht, fun i hi => (hs.2 i hi).tick ht⟩
  note _ _ hs hn := hs.neutral (neutral_of_aboutProcess hn)

lemma stoppable_marked (id : String) (L : BackendState → Prop) (l : List BackendInstance) :
    Marked id L (Stoppable profile l) where
  tick := (stoppable_calm l).tick
  mark _ _ state reason hs hj _ :=
    ⟨history_closed.change _ _ hs.1 (.mark state reason hj),
      fun i hi => (hs.2 i hi).mark hj state reason⟩

lemma elapsed_le {reference t : DateTime} {ttl : ℤ} (h : (ttl : ℚ) ≤ elapsedSeconds reference t) :
    ttl ≤ 0 ∨ (reference.1 : ℤ) + ttl * 1000000 ≤ t.1 := by
  rcases le_max_iff.mp h with h0 | hdiff
  · exact Or.inl (by exact_mod_cast h0)
  · rw [le_div_iff₀ (by norm_num)] at hdiff
    have hint : ttl * 1000000 ≤ (t.1 : ℤ) - reference.1 := by exact_mod_cast hdiff
    exact Or.inr (by omega)

/-- An idle record is one that may be stopped. -/
lemma History.due {s : LifecycleState} (hs : History s) {i : BackendInstance} {ttl : ℤ}
    {reference : DateTime} (hi : s.registry.get? i.instanceId = some i)
    (hactive : i.activeRequests = 0) (href : idleReference i = nowIso reference)
    (httl : idleTtlSecondsFor i profile = .ok ttl)
    (helapsed : (ttl : ℚ) ≤ elapsedSeconds reference s.clock) : Due profile i s := by
  constructor
  · rintro ⟨j, hj, hpos⟩
    rw [hi] at hj
    cases hj
    omega
  intro ttl' httl'
  rw [httl] at httl'
  cases httl'
  -- what is before the reference is before the TTL
  have hbefore : ∀ u r : DateTime, u ≤ s.clock → idleReference i = nowIso r → u ≤ r →
      (u.1 : ℤ) + ttl * 1000000 ≤ s.clock.1 := by
    intro u r hpast hr hu
    rw [href] at hr
    obtain rfl := nowIso_injective hr
    have hpast : u.1 ≤ s.clock.1 := hpast
    have hu : u.1 ≤ reference.1 := hu
    rcases elapsed_le helapsed with h0 | hle <;> omega
  constructor
  · intro before u hmem hheld
    rcases hs.accounted _ i hi before u hmem hheld with hpos | hreleased | ⟨r, hr, hu⟩
    · omega
    · exact Or.inl hreleased
    · exact Or.inr (hbefore u r (hs.past _ hmem) hr hu)
  · intro u hleased
    obtain ⟨r, hr, hu⟩ := hs.referred _ i hi u hleased
    obtain ⟨_, _, hmem, -⟩ := hleased
    exact hbefore u r (hs.past _ (mem_of_mem_changes hmem)) hr hu

lemma triple_isIdle (hB : ∀ s t, B s → s.clock ≤ t → B (s.tick t)) (i : BackendInstance) :
    Triple world I (fun s => (History s ∧ B s) ∧ s.registry.get? i.instanceId = some i)
      (isIdle profile i) fun x s => (History s ∧ B s) ∧ (x = .ok true → Due profile i s) := by
  unfold isIdle
  split
  · exact Triple.of_done fun s hs => ⟨hs.1, by simp⟩
  next hactive =>
  rw [idleSeconds, after_assoc]
  refine Triple.seq (M := fun x s => ((History s ∧ B s) ∧ s.registry.get? i.instanceId = some i) ∧
    ∀ reference, x = .ok reference → idleReference i = nowIso reference) ?_ fun x => ?_
  · refine Triple.of_done fun s hs => ⟨hs, fun reference hr => ?_⟩
    obtain ⟨t, -, htext⟩ := (hs.1.1.stamped _ i hs.2).idleReference
    rw [htext, parseIso_nowIso] at hr
    cases hr
    exact htext
  cases x with
  | error e => exact Triple.of_done fun s hs => ⟨hs.1.1, by simp⟩
  | ok reference =>
    rw [onOk_ok, after_assoc]
    refine triple_now (fun s t hs ht => ?_) fun t => ?_
    · exact ⟨⟨⟨hs.1.1.1.tick ht, hB s t hs.1.1.2 ht⟩, hs.1.2⟩, hs.2⟩
    cases httl : idleTtlSecondsFor i profile with
    | error e => exact Triple.of_done fun s hs => ⟨hs.1.1.1, by simp⟩
    | ok ttl =>
      refine Triple.of_done fun s hs => ⟨hs.1.1.1, fun hidle => ?_⟩
      obtain ⟨⟨⟨⟨hhist, -⟩, hi⟩, href⟩, rfl⟩ := hs
      have hle : (ttl : ℚ) ≤ elapsedSeconds reference s.clock := by
        simpa using Except.ok.inj hidle
      exact hhist.due hi (by omega) (href reference rfl) httl hle

lemma triple_idleCandidates (hB : ∀ s t, B s → s.clock ≤ t → B (s.tick t))
    (l : List BackendInstance) :
    Triple world I (fun s => (History s ∧ B s) ∧ ∀ i ∈ l, s.registry.get? i.instanceId = some i)
      (idleCandidates profile l) fun x s =>
        (History s ∧ B s) ∧ ∀ c, x = .ok c → ∀ i ∈ c, Due profile i s := by
  induction l generalizing B with
  | nil => exact Triple.of_done fun s hs => ⟨hs.1, fun c hc => by cases hc; simp⟩
  | cons i rest ih =>
    -- the rest of the list is to stay as it is while the first record is looked at
    have hhead : Triple world I _ (isIdle profile i) _ := triple_isIdle
      (B := fun s => B s ∧ ∀ j ∈ rest, s.registry.get? j.instanceId = some j)
      (fun s t hs ht => ⟨hB s t hs.1 ht, hs.2⟩) i
    refine (hhead.weaken (fun s hs => ?_) fun _ _ hx => hx).bind (fun idle => ?_) fun e s hs => ?_
    · exact ⟨⟨hs.1.1, hs.1.2, fun j hj => hs.2 j (List.mem_cons_of_mem _ hj)⟩,
        hs.2 i List.mem_cons_self⟩
    · have htail := ih (B := fun s => B s ∧ (idle = true → Due profile i s))
        fun s t hs ht => ⟨hB s t hs.1 ht, fun h => (hs.2 h).tick ht⟩
      refine (htail.weaken (fun s hs => ?_) fun _ _ hx => hx).bind
        (fun others => ?_) fun e s hs => ?_
      · exact ⟨⟨hs.1.1, hs.1.2.1, fun h => hs.2 (h ▸ rfl)⟩, hs.1.2.2⟩
      · refine Triple.of_done fun s hs => ⟨⟨hs.1.1, hs.1.2.1⟩, fun c hc => ?_⟩
        cases hc
        cases idle with
        | true =>
          rw [if_pos rfl, List.forall_mem_cons]
          exact ⟨hs.1.2.2 rfl, hs.2 others rfl⟩
        | false => exact hs.2 others rfl
      · exact ⟨⟨hs.1.1, hs.1.2.1⟩, nofun⟩
    · exact ⟨⟨hs.1.1, hs.1.2.1⟩, nofun⟩

/-! ### Stops -/

variable (settings : LifecycleSettings)

lemma Stoppable.noted {i : BackendInstance} {l : List BackendInstance} {s : LifecycleState}
    (h : Stoppable profile (i :: l) s) : Stoppable profile l (s.noted (.idleStop profile i)) := by
  obtain ⟨hs, hdue⟩ := h
  rw [List.forall_mem_cons] at hdue
  refine ⟨hs.entry (fun _ h => nomatch h) fun ttl httl => ?_,
    fun j hj => (hdue.2 j hj).noted fun _ h => nomatch h⟩
  exact (hdue.1.2 ttl httl).imp id fun h u hleased => h u (leasedAt_none hleased)

lemma triple_stopIdle (i : BackendInstance) (l : List BackendInstance) :
    Triple world I (Stoppable profile (i :: l)) (stopIdle settings profile i)
      (Triple.Ends (Stoppable profile l) fun _ => History) := by
  refine (triple_stopInstance settings (stoppable_marked _ Leaving (i :: l)) profile
    (fun s hs => hs.neutral trivial) (triple_stop (stoppable_calm _) _ _ _)).bind
    (fun stopped => ?_)
    fun _ _ hs => hs.1
  exact fun s₀ s hs => wpt_get.mpr (wpt_set.mpr (wpt_done.mpr hs.noted))

lemma history_stops : IdleStopsKeep settings History := by
  intro queueLengths profiles _
  refine Triple.bind (M := Triple.Ends History fun _ => History) ?_
    (fun _ => Triple.of_done fun _ hs => hs)
    fun _ _ hs => hs
  refine Triple.of_mapEach (L := fun _ => History) (X := fun _ => History)
    (fun profile _ => ?_) profiles
  refine Triple.weaken (N := fun _ => History) ?_ (fun _ hs => hs) fun x _ hs => by
    cases x <;> exact hs
  unfold stopIdleOf
  split
  · exact Triple.of_done fun _ hs => hs
  refine Triple.of_get fun u => ?_
  dsimp only
  have hcandidates : Triple world (fun _ => False) _ (idleCandidates profile _) _ :=
    triple_idleCandidates (B := fun _ => True) (fun _ _ _ _ => trivial)
      (u.registry.readyForModel profile.publicName)
  refine (hcandidates.weaken (fun s hs => ?_) fun _ _ hx => hx).bind (fun candidates => ?_)
    fun _ _ hs => hs.1.1
  · obtain ⟨rfl, hs⟩ := hs
    exact ⟨⟨hs, trivial⟩, fun i hi =>
      (current_list hs.keyed).2 i (List.mem_of_mem_filter hi)⟩
  · refine (Triple.of_mapEach (triple_stopIdle settings) _).weaken
      (fun s hs => ⟨hs.1.1, fun i hi => ?_⟩) fun x s hx => ?_
    · exact hs.2 candidates rfl i ((List.mem_insertionSort _).mp (List.mem_of_mem_take hi))
    · cases x with
      | ok _ => exact hx.1
      | error _ => exact hx

lemma history_stop : StopKeeps settings History := fun profile _ =>
  (triple_stopInstance settings (history_closed.marked _ Leaving) profile
    (fun _ hs => hs.noted trivial)
    (triple_stop history_closed.calm _ _ _)).weaken (fun _ hs => hs.1) fun _ _ hs => hs

variable {settings}

lemma Loaded.history {s : LifecycleState} (h : Loaded s) : History s where
  keyed := h.keyed
  past := by
    rw [h.log]
    exact fun e he => absurd he List.not_mem_nil
  sorted := by
    rw [h.log]
    exact List.Pairwise.nil
  stamped := h.stamped
  accounted := by
    rw [h.log]
    exact fun _ _ _ _ _ hmem => absurd hmem List.not_mem_nil
  referred := by
    rw [h.log]
    exact fun _ _ _ _ ⟨_, _, hmem, _⟩ => absurd hmem List.not_mem_nil
  sound := by
    rw [h.log]
    trivial

lemma reachable_history {A : Processes → ProcessStep → Prop} {P : Processes}
    (h : (lifecycleLts settings).Reachable A P) : History P.state :=
  reachable_closed history_closed (history_stops settings) (history_stop settings)
    (fun _ hs => hs.history) h

/-- **No lease within the TTL.** An instance that is stopped for idleness was granted no lease
within the TTL that ends at the stop. -/
theorem idle_stop_unleased {A : Processes → ProcessStep → Prop} {P : Processes}
    (h : (lifecycleLts settings).Reachable A P) {later earlier : List Entry}
    {profile : ModelProfile}
    {i : BackendInstance} {t : DateTime} {ttl : ℤ}
    (hstop : P.state.log = later ++ ⟨.idleStop profile i, t⟩ :: earlier)
    (httl : idleTtlSecondsFor i profile = .ok ttl) :
    UnleasedSince none earlier i.instanceId ttl t := by
  have hsound := (reachable_history h).sound
  rw [hstop] at hsound
  exact (hsound.justified ttl httl).2

/-- **Stops of idle instances.** In every run, an instance that is stopped for idleness has held no
request within its TTL if and only if no lease that was granted before the TTL was released within
it. -/
theorem idle_stop_iff {A : Processes → ProcessStep → Prop} {P : Processes}
    (h : (lifecycleLts settings).Reachable A P) {later earlier : List Entry}
    {profile : ModelProfile}
    {i : BackendInstance} {t : DateTime} {ttl : ℤ}
    (hstop : P.state.log = later ++ ⟨.idleStop profile i, t⟩ :: earlier)
    (httl : idleTtlSecondsFor i profile = .ok ttl) :
    (∀ before u, ⟨.changed before, u⟩ ∈ earlier → Held before i.instanceId →
        (u.1 : ℤ) + ttl * 1000000 ≤ t.1) ↔
      ¬ Overhangs earlier i.instanceId (t.1 - ttl * 1000000) := by
  constructor
  · rintro hquiet ⟨⟨r, hr, hheld⟩, -⟩
    obtain ⟨u, hmem, hu⟩ := inForceAt_eq_some hr
    have := hquiet r u hmem hheld
    omega
  intro hnone before u hmem hheld
  by_contra hu
  refine hnone ⟨?_, ?_⟩
  · -- nothing is granted within the TTL, so what is held there was held when it began
    obtain ⟨after, rest, rfl⟩ := List.append_of_mem hmem
    have hsorted := (reachable_history h).sorted
    rw [hstop] at hsorted
    have hrest : (⟨.changed before, u⟩ :: rest).Pairwise fun e e' => e'.time ≤ e.time :=
      (List.pairwise_append.mp (List.pairwise_cons.mp (List.pairwise_append.mp hsorted).2.1).2).2.1
    refine HeldAt.mono (heldAt_of_held hrest.of_cons (fun v hleased => ?_) hheld (by omega)) after
    have := idle_stop_unleased h hstop httl v hleased.earlier
    omega
  · have hsound := (reachable_history h).sound
    rw [hstop] at hsound
    rcases (hsound.justified ttl httl).1 before u hmem hheld with ⟨v, hv, huv⟩ | hle
    · refine ⟨v, hv, ?_⟩
      have : u.1 ≤ v.1 := huv
      omega
    · exact absurd hle hu

/-! ### A long request -/

/-- A ready instance that lifecycle does not really run. -/
def dryInstance (id : String) (profile : ModelProfile) : BackendInstance where
  instanceId := id
  model := profile.publicName
  backendModel := profile.backendModel
  runtime := profile.runtime
  baseUrl := "dry-run://" ++ profile.publicName ++ "/" ++ id
  gpuIds := ["gpu0"]
  state := .ready
  reservedVramMb := profile.requiredVramMb
  hostPort := some 8101
  containerName := none
  runtimeCommand := []
  activeRequests := 0
  failureReason := none
  createdAt := nowIso ⟨0, limit_pos⟩
  updatedAt := nowIso ⟨0, limit_pos⟩
  lastUsedAt := none
  dryRun := true
  metadata := []

def chatProfile : ModelProfile := vllmProfile "chat" 8000

/-- One ready instance, at the beginning of time. -/
def oneReady : Processes where
  state := {
    registry := Dict.empty.set "chat-1" (dryInstance "chat-1" chatProfile)
    clock := ⟨0, limit_pos⟩
    log := [] }
  waiting := []

lemma oneReady_get {id : String} {i : BackendInstance}
    (h : oneReady.state.registry.get? id = some i) :
    id = "chat-1" ∧ i = dryInstance "chat-1" chatProfile := by
  rw [oneReady, Dict.get?_set] at h
  split at h
  · next hid => exact ⟨hid, (Option.some.inj h).symm⟩
  · cases h

lemma oneReady_loaded : Loaded oneReady.state := by
  refine ⟨fun id i hi => ?_, fun id i hi => ?_, rfl⟩
  · obtain ⟨rfl, rfl⟩ := oneReady_get hi
    rfl
  · obtain ⟨rfl, rfl⟩ := oneReady_get hi
    exact ⟨⟨_, le_rfl, rfl⟩, nofun⟩

def nextAt (second : Fin 1000) (P : Processes) (op : Operation) : Processes :=
  beginAt (settingsFor true chatProfile) second [] P op

/-- The instance serves one request, from second 10 to a later one; a cleanup follows. -/
def oneRequest (released : Fin 1000) : Processes :=
  nextAt 201 (nextAt released (nextAt 10 oneReady (.lease "chat-1")) (.release "chat-1"))
    (.cleanup .empty)

lemma reachable_oneRequest (released : Fin 1000) :
    (lifecycleLts (settingsFor true chatProfile)).Reachable Lts.anyStep (oneRequest released) := by
  have hinit : (lifecycleLts (settingsFor true chatProfile)).init oneReady := ⟨oneReady_loaded, rfl⟩
  exact Lts.Reachable.run (.init hinit) (((run_beginAt _ _ _ _).trans (run_beginAt _ _ _ _)).trans
    (run_beginAt _ _ _ _))

/-- The log ends with a stop under the TTL that passes a test. -/
def endsWithStop (ttl : ℤ) (test : BackendInstance → DateTime → List Entry → Bool) :
    List Entry → Bool
  | ⟨.idleStop profile i, t⟩ :: earlier =>
    idleTtlSecondsFor i profile = .ok ttl && test i t earlier
  | _ => false

lemma endsWithStop_spec {ttl : ℤ} {test : BackendInstance → DateTime → List Entry → Bool}
    {log : List Entry} (h : endsWithStop ttl test log = true) :
    ∃ profile i t earlier, log = ⟨.idleStop profile i, t⟩ :: earlier ∧
      idleTtlSecondsFor i profile = .ok ttl ∧ test i t earlier = true := by
  unfold endsWithStop at h
  split at h
  · next profile i t earlier =>
    rw [Bool.and_eq_true, decide_eq_true_eq] at h
    exact ⟨profile, i, t, earlier, rfl, h⟩
  · cases h

/-- A request was held within the TTL. -/
def showsHeld (ttl : ℤ) (i : BackendInstance) (t : DateTime) (earlier : List Entry) : Bool :=
  earlier.any fun e =>
    match e.note with
    | .changed before => ((before.get? i.instanceId).any fun j => 0 < j.activeRequests) &&
        ((t.1 : ℤ) < e.time.1 + ttl * 1000000)
    | _ => false

lemma showsHeld_spec {ttl : ℤ} {i : BackendInstance} {t : DateTime} {earlier : List Entry}
    (h : showsHeld ttl i t earlier = true) : ∃ before u, ⟨.changed before, u⟩ ∈ earlier ∧
      Held before i.instanceId ∧ ¬ (u.1 : ℤ) + ttl * 1000000 ≤ t.1 := by
  rw [showsHeld, List.any_eq_true] at h
  obtain ⟨⟨note, u⟩, hmem, hnote⟩ := h
  cases note with
  | changed before =>
    rw [Bool.and_eq_true, Option.any_eq_true] at hnote
    obtain ⟨⟨j, hj, hpos⟩, hlt⟩ := hnote
    refine ⟨before, u, hmem, ⟨j, hj, ?_⟩, ?_⟩
    · simpa using hpos
    · simpa using hlt
  | _ => cases hnote

/-- No request was held when the TTL began. -/
def startsFree (ttl : ℤ) (i : BackendInstance) (t : DateTime) (earlier : List Entry) : Bool :=
  (inForceAt (t.1 - ttl * 1000000) earlier).all fun r => requests r i.instanceId = 0

lemma startsFree_spec {ttl : ℤ} {i : BackendInstance} {t : DateTime} {earlier : List Entry}
    (h : startsFree ttl i t earlier = true) :
    ¬ Overhangs earlier i.instanceId (t.1 - ttl * 1000000) := by
  rintro ⟨⟨r, hr, hheld⟩, -⟩
  rw [startsFree, hr, Option.all_some, decide_eq_true_eq] at h
  exact (held_iff.mp hheld).ne' h

/-- A request that is released at second 200 reaches into the two minutes before the stop at second
201; one that is released at second 20 does not. -/
theorem idle_stop_iff_sample :
    (∃ profile i t earlier, (oneRequest 200).state.log = ⟨.idleStop profile i, t⟩ :: earlier ∧
      Overhangs earlier i.instanceId (t.1 - 120 * 1000000)) ∧
    ∃ profile i t earlier, (oneRequest 20).state.log = ⟨.idleStop profile i, t⟩ :: earlier ∧
      ∀ before u, ⟨.changed before, u⟩ ∈ earlier → Held before i.instanceId →
        (u.1 : ℤ) + 120 * 1000000 ≤ t.1 := by
  have hlong : endsWithStop 120 (showsHeld 120) (oneRequest 200).state.log = true := by
    decide +kernel
  have hshort : endsWithStop 120 (startsFree 120) (oneRequest 20).state.log = true := by
    decide +kernel
  constructor
  · obtain ⟨profile, i, t, earlier, hlog, httl, hshows⟩ := endsWithStop_spec hlong
    obtain ⟨before, u, hmem, hheld, hu⟩ := showsHeld_spec hshows
    have hend : (oneRequest 200).state.log = [] ++ ⟨.idleStop profile i, t⟩ :: earlier := hlog
    refine ⟨profile, i, t, earlier, hlog, ?_⟩
    by_contra hnone
    exact hu ((idle_stop_iff (reachable_oneRequest 200) hend httl).mpr hnone before u hmem hheld)
  · obtain ⟨profile, i, t, earlier, hlog, httl, hfree⟩ := endsWithStop_spec hshort
    have hend : (oneRequest 20).state.log = [] ++ ⟨.idleStop profile i, t⟩ :: earlier := hlog
    exact ⟨profile, i, t, earlier, hlog,
      (idle_stop_iff (reachable_oneRequest 20) hend httl).mpr (startsFree_spec hfree)⟩

/-- An instance is stopped within its TTL of a request. -/
theorem idle_stop_early : ∃ P,
    (lifecycleLts (settingsFor true chatProfile)).Reachable Lts.anyStep P ∧
    ∃ later profile i t earlier ttl, P.state.log = later ++ ⟨.idleStop profile i, t⟩ :: earlier ∧
      idleTtlSecondsFor i profile = .ok ttl ∧ ∃ before u, ⟨.changed before, u⟩ ∈ earlier ∧
        Held before i.instanceId ∧ ¬ (u.1 : ℤ) + ttl * 1000000 ≤ t.1 := by
  have hlong : endsWithStop 120 (showsHeld 120) (oneRequest 200).state.log = true := by
    decide +kernel
  obtain ⟨profile, i, t, earlier, hlog, httl, hshows⟩ := endsWithStop_spec hlong
  exact ⟨oneRequest 200, reachable_oneRequest 200, [], profile, i, t, earlier, 120, hlog, httl,
    showsHeld_spec hshows⟩

end Orchestrator.Lifecycle
