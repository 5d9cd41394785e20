import Mathlib.Data.Finset.Basic
import Orchestrator.Lib.Dict

/-!
The gauge of durable tasks by state, which is set from snapshots of the counts.

A snapshot only mentions the keys that have tasks. `record_task_counts` remembers the keys of the
snapshot before, and sets those that have vanished to zero; a key that vanished earlier is not
remembered, but its gauge is zero already. That is the invariant `Held`.
-/

namespace Orchestrator.TaskGauge

open Lib

/-- The labels of a child of `TASKS_BY_STATE`. -/
structure TaskLabels where
  tenant : String
  project : String
  service : String
  task : String
  model : String
  state : String
  deriving DecidableEq

/-- The key of a count: tenant, project, service, task, model and state. -/
def CountKey := String × String × String × String × String × String

instance : DecidableEq CountKey :=
  inferInstanceAs (DecidableEq (String × String × String × String × String × String))

def labels (key : CountKey) : TaskLabels :=
  ⟨key.1, key.2.1, key.2.2.1, key.2.2.2.1, key.2.2.2.2.1, key.2.2.2.2.2⟩

lemma labels_injective : Function.Injective labels := by
  rintro ⟨a, b, c, d, e, f⟩ ⟨a', b', c', d', e', f'⟩ h
  cases h
  rfl

/-- A gauge of the metrics library: it has a child for the labels it was set for, which holds the
value that was set last. -/
structure GaugeClient (Gauge : Type) where
  /-- `gauge.labels(...).set(value)` -/
  set : Gauge → TaskLabels → ℤ → Gauge
  /-- the value that is exported, if there is a child -/
  value : Gauge → TaskLabels → Option ℤ
  value_set : ∀ g l n l', value (set g l n) l' = if l' = l then some n else value g l'

/-- The gauge and the keys that are remembered. -/
structure TaskCounts (Gauge : Type) where
  tasksByState : Gauge
  taskCountKeys : Finset CountKey

variable {Gauge : Type} (client : GaugeClient Gauge)

/-- The gauge is set for one key after the other. -/
def setEach (g : Gauge) (counts : List (CountKey × ℤ)) : Gauge :=
  counts.foldl (fun g p => client.set g (labels p.1) p.2) g

/-- `record_task_counts`, where the stale keys are iterated in the order `stale`. -/
def recordTaskCounts (counts : Dict CountKey ℤ) (stale : List CountKey) (s : TaskCounts Gauge) :
    TaskCounts Gauge where
  tasksByState := setEach client
    (setEach client s.tasksByState (stale.map fun key => (key, 0))) counts.entries
  taskCountKeys := counts.keys.toFinset

/-- The keys of the snapshot before that the snapshot does not have. -/
def staleKeys (counts : Dict CountKey ℤ) (s : TaskCounts Gauge) : Finset CountKey :=
  s.taskCountKeys \ counts.keys.toFinset

/-- An order in which a set is iterated. -/
def Iterates (order : List CountKey) (keys : Finset CountKey) : Prop :=
  order.Nodup ∧ ∀ key, key ∈ order ↔ key ∈ keys

/-- The states after calls with the snapshots, the latest first. -/
inductive Recorded : List (Dict CountKey ℤ) → TaskCounts Gauge → Prop
  | start (g : Gauge) : Recorded [] ⟨g, ∅⟩
  | call {snapshots : List (Dict CountKey ℤ)} {s : TaskCounts Gauge} {counts : Dict CountKey ℤ}
      {stale : List CountKey} (before : Recorded snapshots s)
      (order : Iterates stale (staleKeys counts s)) :
      Recorded (counts :: snapshots) (recordTaskCounts client counts stale s)

variable {client} {s : TaskCounts Gauge} {counts : Dict CountKey ℤ} {stale : List CountKey}
  {snapshots : List (Dict CountKey ℤ)} {key : CountKey}

/-- Any snapshots can be recorded. -/
lemma exists_recorded (g : Gauge) (snapshots : List (Dict CountKey ℤ)) :
    ∃ s, Recorded client snapshots s := by
  induction snapshots with
  | nil => exact ⟨_, .start g⟩
  | cons counts snapshots ih =>
    obtain ⟨s, hs⟩ := ih
    have horder : Iterates (staleKeys counts s).toList (staleKeys counts s) :=
      ⟨Finset.nodup_toList _, fun key => Finset.mem_toList⟩
    exact ⟨_, .call hs horder⟩

/-! ### What a call does to the gauge -/

/-- A key that is set holds its count, any other what it held before. -/
lemma value_setEach (g : Gauge) {l : List (CountKey × ℤ)} (h : (l.map Prod.fst).Nodup) :
    client.value (setEach client g l) (labels key) =
      (l.lookup key).or (client.value g (labels key)) := by
  induction l generalizing g with
  | nil => rfl
  | cons p l ih =>
    obtain ⟨k, n⟩ := p
    rw [List.map_cons, List.nodup_cons] at h
    have hset : setEach client g ((k, n) :: l) = setEach client (client.set g (labels k) n) l := rfl
    rw [hset, ih _ h.2, Dict.lookup_cons_ite, client.value_set]
    by_cases hk : key = k
    · subst hk
      have hnone : l.lookup key = none := by
        rw [List.lookup_eq_none_iff]
        intro p hp
        simp only [bne_iff_ne, ne_eq]
        rintro rfl
        exact h.1 (List.mem_map.mpr ⟨p, hp, rfl⟩)
      rw [if_pos rfl, if_pos rfl, hnone]
      rfl
    · rw [if_neg fun heq => hk (labels_injective heq), if_neg hk]

lemma lookup_zeros (l : List CountKey) :
    (l.map fun key => (key, (0 : ℤ))).lookup key = if key ∈ l then some 0 else none := by
  induction l with
  | nil => rfl
  | cons k l ih =>
    rw [List.map_cons, Dict.lookup_cons_ite, ih]
    by_cases hk : key = k
    · subst hk
      simp
    · simp [hk]

/-- **One call**: the keys of the snapshot hold their counts, the stale ones zero. -/
lemma value_recordTaskCounts (h : Iterates stale (staleKeys counts s)) :
    client.value (recordTaskCounts client counts stale s).tasksByState (labels key) =
      (counts.get? key).or (if key ∈ s.taskCountKeys then some 0
        else client.value s.tasksByState (labels key)) := by
  have hzeros : ((stale.map fun key => (key, (0 : ℤ))).map Prod.fst).Nodup := by
    rw [List.map_map]
    exact (List.map_id stale).symm ▸ h.1
  have hstale : key ∈ stale ↔ key ∈ s.taskCountKeys ∧ key ∉ counts.keys := by
    rw [h.2, staleKeys, Finset.mem_sdiff, List.mem_toFinset]
  rw [recordTaskCounts, value_setEach _ counts.nodup, value_setEach _ hzeros, lookup_zeros]
  cases hget : counts.get? key with
  | some n => rw [show counts.entries.lookup key = some n from hget]; rfl
  | none =>
    rw [show counts.entries.lookup key = none from hget, Option.none_or, Option.none_or]
    have hmem : key ∉ counts.keys := Dict.get?_eq_none.mp hget
    by_cases hkey : key ∈ s.taskCountKeys
    · rw [if_pos (hstale.mpr ⟨hkey, hmem⟩), if_pos hkey]
      rfl
    · rw [if_neg fun hs => hkey (hstale.mp hs).1, if_neg hkey]
      rfl

/-! ### The gauge after any calls -/

/-- The count of a key in the latest snapshot. -/
def latestCount (snapshots : List (Dict CountKey ℤ)) (key : CountKey) : Option ℤ :=
  snapshots.head?.bind fun counts => counts.get? key

/-- The key was in some snapshot. -/
def Occurred (snapshots : List (Dict CountKey ℤ)) (key : CountKey) : Prop :=
  ∃ counts ∈ snapshots, (counts.get? key).isSome = true

/-- The keys of the latest snapshot are remembered, and the gauge of every key that occurred holds
its count in it, or zero. -/
structure Held (client : GaugeClient Gauge) (snapshots : List (Dict CountKey ℤ))
    (s : TaskCounts Gauge) : Prop where
  remembered : ∀ key, key ∈ s.taskCountKeys ↔ (latestCount snapshots key).isSome = true
  held : ∀ key, Occurred snapshots key →
    client.value s.tasksByState (labels key) = some ((latestCount snapshots key).getD 0)

lemma held_call (h : Held client snapshots s) (horder : Iterates stale (staleKeys counts s)) :
    Held client (counts :: snapshots) (recordTaskCounts client counts stale s) := by
  have hlatest : ∀ key, latestCount (counts :: snapshots) key = counts.get? key := fun _ => rfl
  refine ⟨fun key => ?_, fun key hkey => ?_⟩
  · rw [hlatest, recordTaskCounts, List.mem_toFinset, ← not_iff_not, ← Dict.get?_eq_none]
    simp
  · rw [hlatest, value_recordTaskCounts horder]
    cases hget : counts.get? key with
    | some n => rfl
    | none =>
      rw [Option.none_or]
      split
      · rfl
      · next hforgotten =>
        -- the key vanished before the snapshot before, and holds zero since then
        have hbefore : Occurred snapshots key := by
          obtain ⟨c, hc, hsome⟩ := hkey
          rcases List.mem_cons.mp hc with rfl | hc
          · rw [hget] at hsome
            cases hsome
          · exact ⟨c, hc, hsome⟩
        have hnone : latestCount snapshots key = none := by
          rw [← Option.not_isSome_iff_eq_none, ← h.remembered]
          exact hforgotten
        rw [h.held key hbefore, hnone]

lemma held_of_recorded (h : Recorded client snapshots s) : Held client snapshots s := by
  induction h with
  | start g =>
    refine ⟨fun key => ?_, fun key hkey => ?_⟩
    · simp [latestCount]
    · obtain ⟨c, hc, -⟩ := hkey
      cases hc
  | call before order ih => exact held_call ih order

/-- **The gauge holds the latest snapshot**: after any calls, the child of every key that occurred
in a snapshot holds the count in the latest one, and zero if the key is not there. -/
theorem gauge_holds_latest (h : Recorded client snapshots s) (hkey : Occurred snapshots key) :
    client.value s.tasksByState (labels key) = some ((latestCount snapshots key).getD 0) :=
  (held_of_recorded h).held key hkey

/-- A gauge as a function of the labels. -/
def sampleClient : GaugeClient (TaskLabels → Option ℤ) where
  set g l n := fun l' => if l' = l then some n else g l'
  value g l := g l
  value_set _ _ _ _ := rfl

def sampleKey : CountKey := ("acme", "docs", "indexer", "summarize", "local-model", "queued")

/-- Two tasks are counted, then none in two snapshots, then one. -/
def sampleSnapshots : List (Dict CountKey ℤ) :=
  [Dict.empty.set sampleKey 1, Dict.empty, Dict.empty, Dict.empty.set sampleKey 2]

theorem gauge_holds_latest_sample : ∃ s, Recorded sampleClient sampleSnapshots s ∧
    sampleClient.value s.tasksByState (labels sampleKey) = some 1 := by
  obtain ⟨s, hs⟩ : ∃ s, Recorded sampleClient sampleSnapshots s :=
    exists_recorded (fun _ => none) sampleSnapshots
  have hkey : Occurred sampleSnapshots sampleKey :=
    ⟨Dict.empty.set sampleKey 2, by simp [sampleSnapshots], by simp⟩
  have hlatest : latestCount sampleSnapshots sampleKey = some 1 := by decide +kernel
  refine ⟨s, hs, ?_⟩
  rw [gauge_holds_latest hs hkey, hlatest]
  rfl

end Orchestrator.TaskGauge
