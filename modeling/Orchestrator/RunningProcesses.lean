import Orchestrator.SharedLoads

/-!
The processes that run, and the records of the registry. A process that was launched, and that no
stop has ended, is that of an active record, as long as every stop reaches its process and succeeds.
-/

namespace Orchestrator.Lifecycle.Running

open Lib Lib.Coro Clock Lives

variable {r b : Registry} {id : String} {i j : BackendInstance} {p q : Process} {e : Entry}
  {l : List Entry}

/-- The process was launched, and no stop has ended it since. -/
def running (p : Process) : List Entry → Bool
  | [] => false
  | e :: l =>
    match e.note with
    | .launched q _ => q = p || running p l
    | .halted q _ _ ok => !(q = p && ok) && running p l
    | _ => running p l

/-- It was launched for the instance, and no stop of the instance has ended it since. -/
def runningFor (p : Process) (id : String) : List Entry → Bool
  | [] => false
  | e :: l =>
    match e.note with
    | .launched q id' => (q = p && id' = id) || runningFor p id l
    | .halted q id' _ ok => !(q = p && id' = id && ok) && runningFor p id l
    | _ => runningFor p id l

/-- The condition on stops: a command that stops a process succeeds, and a stop that is called for
an instance with a process runs it. -/
def Stops (r : Registry) (e : Entry) (l : List Entry) : Prop :=
  (∀ p id registry, e.note ≠ .halted p id registry false) ∧
    ∀ i registry t m, l = ⟨.stopping i registry, t⟩ :: m →
      (∃ p, Hosted (registryBefore r e) p i.instanceId) →
        ∃ p registry ok, e.note = .halted p i.instanceId registry ok

lemma exists_runningFor (h : running p l = true) : ∃ id, runningFor p id l = true := by
  induction l with
  | nil => cases h
  | cons e l ih =>
    obtain ⟨note, t⟩ := e
    cases note with
    | launched q id =>
      simp only [running, Bool.or_eq_true, decide_eq_true_eq] at h
      rcases h with rfl | h
      · exact ⟨id, by simp [runningFor]⟩
      · obtain ⟨id', hid⟩ := ih h
        exact ⟨id', by simp [runningFor, hid]⟩
    | halted q id registry ok =>
      simp only [running, Bool.and_eq_true] at h
      obtain ⟨id', hid⟩ := ih h.2
      refine ⟨id', ?_⟩
      simp only [runningFor, hid, Bool.and_true]
      revert h
      cases ok <;> by_cases hq : q = p <;> simp [hq]
    | _ => exact ih h

/-- An active record is that of one process at most. -/
def Sole (r : Registry) : Prop :=
  ∀ id i p q, r.get? id = some i → i.state.isActive = true → Hosts i p → Hosts i q → p = q

lemma Sole.step (hb : Sole b) (hstep : Step b r l) : Sole r := by
  intro id j p q hj hactive hp hq
  rcases hstep.active id j hj hactive with ⟨i, hi, hiactive, hij⟩ | ⟨-, -, hlaunched⟩
  · exact hb id i p q hi hiactive (hij.hosts.mp hp) (hij.hosts.mp hq)
  · obtain ⟨t, m, rfl⟩ := hlaunched p hp
    obtain ⟨t', m', heq⟩ := hlaunched q hq
    cases heq
    rfl

/-- What was launched for an instance and not stopped is that of its record, or is yet to be
entered. -/
structure Recorded (r : Registry) (l : List Entry) : Prop where
  sole : Sole r
  ended : ∀ p id registry t, ⟨.halted p id registry false, t⟩ ∉ l
  hosted : ∀ p id, runningFor p id l = true → Hosted r p id ∨ Launched l p id

lemma Recorded.not_runningFor (h : Recorded b l) (hi : b.get? id = some i)
    (hactive : i.state.isActive = true) (hp : Hosts i p) {registry : Registry} {ok : Bool}
    {t : DateTime} {m : List Entry} (hq : Hosts i q) (hl : l = ⟨.halted q id registry ok, t⟩ :: m) :
    runningFor p id l = false := by
  obtain rfl := h.sole id i p q hi hactive hp hq
  subst hl
  cases ok with
  | false => exact absurd List.mem_cons_self (h.ended p id registry t)
  | true => simp [runningFor]

/-- A change leaves an active record what it runs. -/
lemma Recorded.change (h : Recorded b l) (hstep : Step b r l) (hp : runningFor p id l = true)
    (hosted : Hosted b p id)
    (hstops : ∀ i registry t m, l = ⟨.stopping i registry, t⟩ :: m →
      ¬ ∃ p, Hosted b p i.instanceId) : Hosted r p id := by
  obtain ⟨i, hi, hactive, hosts⟩ := hosted
  obtain ⟨j, hj, hij, hstate⟩ := hstep.stays id i hi hactive
  rcases hstate with hstate | ⟨-, hhalting⟩
  · exact ⟨j, hj, hstate, hij.hosts.mpr hosts⟩
  rcases hhalting p hosts with ⟨q, registry, ok, t, m, hq, hl⟩ | ⟨k, registry, t, m, rfl, hl⟩
  · exact absurd hp (by simp [h.not_runningFor hi hactive hosts hq hl])
  · exact absurd ⟨p, i, hi, hactive, hosts⟩ (hstops k registry t m hl)

/-- **An event** keeps what runs recorded. -/
theorem Recorded.step (h : Recorded (registryBefore r e) l) (htold : Told r e l)
    (hstops : Stops r e l) : Recorded r (e :: l) := by
  obtain ⟨note, t⟩ := e
  have hended : ∀ p id registry u,
      ⟨.halted p id registry false, u⟩ ∉ (⟨note, t⟩ :: l : List Entry) := by
    intro p id registry u hmem
    rcases List.mem_cons.mp hmem with heq | hmem
    · exact hstops.1 p id registry (congrArg Entry.note heq).symm
    · exact h.ended p id registry u hmem
  have hlaunched : ∀ p id, Launched l p id → Hosted r p id := fun p id hl =>
    (htold.entered p id hl).2
  cases note with
  | changed before =>
    have hstep := htold.step before rfl
    refine ⟨h.sole.step hstep, hended, fun p id hp => Or.inl ?_⟩
    rcases h.hosted p id hp with hosted | hl
    · refine h.change hstep hp hosted fun i registry u m hl hsome => ?_
      obtain ⟨_, _, _, hn⟩ := hstops.2 i registry u m hl hsome
      cases hn
    · exact hlaunched p id hl
  | launched q id' =>
    refine ⟨h.sole, hended, fun p id hp => ?_⟩
    simp only [runningFor, Bool.or_eq_true, Bool.and_eq_true, decide_eq_true_eq] at hp
    rcases hp with ⟨rfl, rfl⟩ | hp
    · exact Or.inr ⟨t, l, rfl⟩
    · exact Or.inl ((h.hosted p id hp).elim (fun h => h) (hlaunched p id))
  | halted q id' registry ok =>
    refine ⟨h.sole, hended, fun p id hp => Or.inl ?_⟩
    simp only [runningFor, Bool.and_eq_true] at hp
    exact (h.hosted p id hp.2).elim (fun h => h) (hlaunched p id)
  | _ => exact ⟨h.sole, hended, fun p id hp =>
      Or.inl ((h.hosted p id hp).elim (fun h => h) (hlaunched p id))⟩

/-- The instance of which the stop was called. -/
def calledFor : Note → Option String
  | .stopping i _ => some i.instanceId
  | _ => none

/-- The instance of which the process was stopped, and with what success. -/
def endedFor : Note → Option (String × Bool)
  | .halted _ id _ ok => some (id, ok)
  | _ => none

lemma exists_hosts : (∃ p, Hosts i p) ↔
    Hosts i (.load (unloadBinary i) i.backendModel) ∨
      ∃ name ∈ i.containerName, Hosts i (.container name) := by
  constructor
  · rintro ⟨p, hp⟩
    cases p with
    | container name => exact Or.inr ⟨name, hp.2, hp⟩
    | load lmsBinary identifier =>
      obtain ⟨rfl, rfl⟩ := And.intro hp.2.2.2.1 hp.2.2.2.2
      exact Or.inl hp
  · rintro (hp | ⟨name, -, hp⟩)
    · exact ⟨_, hp⟩
    · exact ⟨_, hp⟩

instance (i : BackendInstance) : Decidable (∃ p, Hosts i p) := decidable_of_iff' _ exists_hosts

lemma stops_iff : Stops r e l ↔ (∀ x ∈ endedFor e.note, x.2 = true) ∧
    ∀ e' ∈ l.head?, ∀ id ∈ calledFor e'.note,
      (∃ i ∈ (registryBefore r e).get? id, i.state.isActive = true ∧ ∃ p, Hosts i p) →
        ∃ x ∈ endedFor e.note, x.1 = id := by
  have hended : ∀ id, (∃ p registry ok, e.note = .halted p id registry ok) ↔
      ∃ x ∈ endedFor e.note, x.1 = id := by
    intro id
    cases e.note <;> simp [endedFor]
  refine and_congr ?_ ⟨fun h e' he' id hid hosted => ?_, fun h i registry t m hl hosted => ?_⟩
  · cases e.note <;> simp [endedFor]
  · obtain ⟨note, t⟩ := e'
    cases note with
    | stopping i registry =>
      obtain rfl := Option.some.inj hid
      obtain ⟨m, rfl⟩ := List.head?_eq_some_iff.mp he'
      obtain ⟨j, hj, hactive, p, hp⟩ := hosted
      exact (hended _).mp (h i registry t m rfl ⟨p, j, hj, hactive, hp⟩)
    | _ => cases hid
  · obtain ⟨p, j, hj, hactive, hp⟩ := hosted
    exact (hended _).mpr (h _ (by rw [hl]; rfl) _ rfl ⟨j, hj, hactive, p, hp⟩)

instance (r : Registry) (e : Entry) (l : List Entry) : Decidable (Stops r e l) :=
  decidable_of_iff' _ stops_iff

/-- An instance in a container. -/
def chatStarted : Server :=
  complete (answersOf "chat" (.ok ()) 1 [Shared.gpu])
    ⟨settingsFor false (vllmProfile "chat" 4096), ⟨⟨.empty, atSecond 0, []⟩, []⟩⟩
    (Shared.allocate "chat") 5

def chatContainer : Process := .container "llm-chat-gpu0-chat:gpu0:0001-01-01t00:00:01+00:00"

lemma reachable_chatStarted : serverLts.Reachable Lts.anyStep chatStarted :=
  Lts.Reachable.run (.init ⟨rfl, rfl, rfl⟩) (run_complete (allowed_answersOf _ _ _ _) _ _ _)

/-- The idle instance is stopped, but the command for its container fails. -/
def stopFailed : Server :=
  chatStarted.begin (answersOf "chat" (.error (.calledProcess "" "cannot stop container")) 300
    [Shared.gpu]) (.cleanup .empty)

end Orchestrator.Lifecycle.Running
