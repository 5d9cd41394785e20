import Orchestrator.SharedLoads

/-!
Loads that others make. LM Studio has users of its own, who load and unload what they like, and
loads that expire. An unload that lifecycle issues goes by the identifier, and by the flag that
lifecycle has set when it made a load.
-/

namespace Orchestrator.Lifecycle.UserLoads

open Lib Lib.Coro Clock Lives

/-- A load of an LM Studio. -/
structure Load where
  studio : String
  identifier : String
  deriving DecidableEq

/-- What happens in an LM Studio without lifecycle: a user loads a model, or a load goes, unloaded
by a user or expired. -/
inductive StudioEvent
  | userLoad (load : Load)
  | gone (load : Load)

inductive Owner
  | lifecycle
  | user
  deriving DecidableEq

/-- A run, the last event first: the notes of lifecycle, and what happens in between. -/
abbrev Trace := List (Entry ⊕ StudioEvent)

def Trace.notes (τ : Trace) : List Entry := τ.filterMap Sum.getLeft?

variable (studio : String → String)

/-- The load of a process, in the LM Studio that its binary speaks to. -/
def loadOf : Process → Option Load
  | .load lmsBinary identifier => some ⟨studio lmsBinary, identifier⟩
  | .container _ => none

/-- Whose load is there: that of the last one who has loaded it. -/
def ownerOf (load : Load) : Trace → Option Owner
  | [] => none
  | .inl e :: τ =>
    match e.note with
    | .launched p _ => if loadOf studio p = some load then some .lifecycle else ownerOf load τ
    | .halted p _ _ ok => if loadOf studio p = some load ∧ ok then none else ownerOf load τ
    | _ => ownerOf load τ
  | .inr (.userLoad load') :: τ => if load' = load then some .user else ownerOf load τ
  | .inr (.gone load') :: τ => if load' = load then none else ownerOf load τ

/-- The process that was launched. -/
def Note.launch : Note → Option Process
  | .launched p _ => some p
  | _ => none

/-- Lifecycle takes the load for its own: an active record says so, or it has just made it. -/
def Claims (r : Registry) (l : List Entry) (load : Load) : Prop :=
  (∃ p id, Hosted r p id ∧ loadOf studio p = some load) ∨
    ∃ p id, Launched l p id ∧ loadOf studio p = some load

/-- The last event is an unload that lifecycle issues, and the load is a user's. -/
def UnloadsUser : Trace → Prop
  | .inl ⟨.halted p _ _ _, _⟩ :: τ => ∃ load ∈ loadOf studio p, ownerOf studio load τ = some .user
  | _ => False

instance (τ : Trace) : Decidable (UnloadsUser studio τ) := by
  unfold UnloadsUser
  split <;> infer_instance

/-- The condition on users: they load no load that lifecycle takes for its own. -/
def UsersApart (r : Registry) (τ : Trace) : Prop :=
  Throughout (backOwn registryBefore) (fun _ => True)
    (fun r e (τ : Trace) => ∀ load, e = .inr (.userLoad load) → ¬ Claims studio r τ.notes load) r τ

variable {studio} {r b : Registry} {l : List Entry} {load : Load} {τ : Trace} {p : Process}
  {id : String} {e : Entry}

/-! ### What lifecycle takes for its own -/

lemma claims_of_hosted (h : Hosted r p id) (hp : loadOf studio p = some load) :
    Claims studio r l load := Or.inl ⟨p, id, h, hp⟩

/-- A change gives lifecycle no more loads. -/
lemma Claims.before (h : Claims studio r (e :: l) load) (he : e.note = .changed b)
    (hstep : Step b r l) : Claims studio b l load := by
  rcases h with ⟨p, id, ⟨j, hj, hactive, hosts⟩, hp⟩ | ⟨p, id, ⟨t, m, hl⟩, -⟩
  · rcases hstep.active id j hj hactive with ⟨i, hi, hiactive, hij⟩ | ⟨-, -, hlaunched⟩
    · exact claims_of_hosted ⟨i, hi, hiactive, hij.hosts.mp hosts⟩ hp
    · exact Or.inr ⟨p, id, hlaunched p hosts, hp⟩
  · obtain ⟨rfl, -⟩ := List.cons.inj hl
    cases he

/-- Nor does any other event, but a launch. -/
lemma Claims.of_cons (h : Claims studio r (e :: l) load) (he : ∀ p id, e.note ≠ .launched p id) :
    Claims studio r l load := by
  rcases h with h | ⟨p, id, ⟨t, m, hl⟩, -⟩
  · exact Or.inl h
  · obtain ⟨rfl, -⟩ := List.cons.inj hl
    exact absurd rfl (he p id)

/-- No load of a user is one that lifecycle takes for its own. -/
def Apart (studio : String → String) (r : Registry) (τ : Trace) : Prop :=
  ∀ load, ownerOf studio load τ = some .user → ¬ Claims studio r τ.notes load

/-- **An event of lifecycle** keeps the loads of users apart. -/
theorem Apart.note (h : Apart studio (registryBefore r e) τ) (htold : Told r e τ.notes) :
    Apart studio r (.inl e :: τ) := by
  intro load howner hclaims
  obtain ⟨note, t⟩ := e
  cases note with
  | changed before => exact h load howner (hclaims.before rfl (htold.step before rfl))
  | launched p id =>
    rw [ownerOf] at howner
    dsimp only at howner
    split at howner
    · cases howner
    next hne =>
    refine h load howner ?_
    rcases hclaims with hclaims | ⟨q, id', ⟨t, m, hl⟩, hq⟩
    · exact Or.inl hclaims
    · obtain ⟨heq, -⟩ := List.cons.inj hl
      cases heq
      exact absurd hq hne
  | halted p id registry ok =>
    rw [ownerOf] at howner
    dsimp only at howner
    split at howner
    · cases howner
    · exact h load howner (hclaims.of_cons fun _ _ h => by cases h)
  | _ => exact h load howner (hclaims.of_cons fun _ _ h => by cases h)

/-- So does one of the LM Studio, where a user loads no load that lifecycle takes for its own. -/
lemma Apart.outside {e : StudioEvent} (h : Apart studio r τ)
    (huser : ∀ load, e = .userLoad load → ¬ Claims studio r τ.notes load) :
    Apart studio r (.inr e :: τ) := by
  intro load howner
  cases e with
  | userLoad load' =>
    rw [ownerOf] at howner
    split at howner
    · next heq => exact heq ▸ huser load' rfl
    · exact h load howner
  | gone load' =>
    rw [ownerOf] at howner
    split at howner
    · cases howner
    · exact h load howner

/-- **No load of a user is unloaded**: in every run, and with users who do in LM Studio what they
like, but do not load what lifecycle takes for its own, an unload that lifecycle issues meets a load
that lifecycle has made, or none. -/
theorem unloads_own {S : Server} (h : serverLts.Reachable Lts.anyStep S)
    (horderly : Orderly S.processes.state) (hτ : τ.notes = S.processes.state.log)
    (husers : UsersApart studio S.processes.state.registry τ) :
    ∀ recent, recent <:+ τ → ¬ UnloadsUser studio recent := by
  have hlawful : Throughout registryBefore (· = .empty) Told S.processes.state.registry τ.notes :=
    hτ ▸ (reachable_honest h horderly).1
  have hhistory := (Throughout.and hlawful.merge husers).invariant
    (K := fun r τ => Apart studio r τ) (fun r hr load h => by cases h) fun r e τ hr he => ?_
  · intro recent hrecent hunload
    unfold UnloadsUser at hunload
    split at hunload
    next p id registry ok t before =>
      obtain ⟨load, hp, howner⟩ := hunload
      obtain ⟨r, ⟨htold, -⟩, hapart⟩ := hhistory.2.of_suffix hrecent
      obtain ⟨-, hhosted⟩ := (htold _ rfl).halted p id registry ok rfl
      exact hapart load howner (claims_of_hosted hhosted hp)
    next => exact hunload
  · cases e with
    | inl e => exact Apart.note hr (he.1 e rfl)
    | inr e => exact Apart.outside hr fun load h => he.2 load (congrArg Sum.inr h)

/-! ### Runs -/

lemma claims_iff : Claims studio r l load ↔
    (∃ q ∈ r.entries, q.2.state.isActive = true ∧
      Hosts q.2 (.load (unloadBinary q.2) q.2.backendModel) ∧
        (⟨studio (unloadBinary q.2), q.2.backendModel⟩ : Load) = load) ∨
    ∃ e ∈ l.head?, ∃ p ∈ Note.launch e.note, loadOf studio p = some load := by
  refine or_congr ⟨?_, ?_⟩ ⟨?_, ?_⟩
  · rintro ⟨p, id, ⟨i, hi, hactive, hosts⟩, hp⟩
    cases p with
    | container name => cases hp
    | load lmsBinary identifier =>
      have hsame := hosts.2.2.2
      obtain ⟨rfl, rfl⟩ := hsame
      exact ⟨(_, i), Dict.get?_eq_some.mp hi, hactive, hosts, Option.some.inj hp⟩
  · rintro ⟨⟨id, i⟩, hi, hactive, hosts, rfl⟩
    exact ⟨_, id, ⟨i, Dict.get?_eq_some.mpr hi, hactive, hosts⟩, rfl⟩
  · rintro ⟨p, id, ⟨t, m, rfl⟩, hp⟩
    exact ⟨_, rfl, p, rfl, hp⟩
  · rintro ⟨⟨note, t⟩, he, p, hn, hp⟩
    cases note with
    | launched q id =>
      obtain rfl := Option.some.inj hn
      obtain ⟨m, rfl⟩ := List.head?_eq_some_iff.mp he
      exact ⟨q, id, ⟨t, m, rfl⟩, hp⟩
    | _ => cases hn

instance : Decidable (Claims studio r l load) := decidable_of_iff' _ claims_iff

instance (r : Registry) (τ : Trace) : Decidable (UsersApart studio r τ) :=
  have : ∀ (r : Registry) (e : Entry ⊕ StudioEvent) (τ : Trace),
      Decidable (∀ load, e = .inr (.userLoad load) → ¬ Claims studio r τ.notes load) :=
    fun r e τ => match e with
      | .inr (.userLoad load) => decidable_of_iff (¬ Claims studio r τ.notes load)
        ⟨(fun h _ hl => StudioEvent.userLoad.inj (Sum.inr.inj hl) ▸ h), fun h => h load rfl⟩
      | .inr (.gone _) | .inl _ => isTrue fun _ hl => by cases hl
  inferInstanceAs (Decidable (Throughout _ _ _ _ _))

/-- The events happen before the last notes, of which there are so many. -/
def interleaved (recent : ℕ) (events : List StudioEvent) (l : List Entry) : Trace :=
  (l.take recent).map .inl ++ events.map .inr ++ (l.drop recent).map .inl

lemma notes_interleaved (recent : ℕ) (events : List StudioEvent) (l : List Entry) :
    (interleaved recent events l).notes = l := by
  have hown (l : List Entry) :
      (l.map (Sum.inl (β := StudioEvent))).filterMap Sum.getLeft? = l := by
    rw [List.filterMap_map]
    exact List.filterMap_some
  have hothers : (events.map (Sum.inr (α := Entry))).filterMap Sum.getLeft? = [] := by
    rw [List.filterMap_map]
    exact List.filterMap_eq_nil_iff.mpr fun _ _ => rfl
  rw [Trace.notes, interleaved, List.filterMap_append, List.filterMap_append, hown, hown, hothers,
    List.append_nil, List.take_append_drop]

/-- All binaries speak to one LM Studio. -/
def oneStudio (_ : String) : String := "localhost"

def ownLoad : Load := ⟨"localhost", "m"⟩

def stopped : Server := Shared.cleanedUp Shared.chatReady

lemma reachable_stopped : serverLts.Reachable Lts.anyStep stopped :=
  Lts.Reachable.run Shared.reachable_chatReady (Shared.run_called 300 _ _)

/-- The load of the instance expires, and a user loads the model under the same identifier: after
the cleanup that stops the instance, or some notes before. -/
def userLoaded (recent : ℕ) : Trace :=
  interleaved recent [.userLoad ownLoad, .gone ownLoad] stopped.processes.state.log

/-- A user loads the model after lifecycle has unloaded its own. -/
theorem unloads_own_stopped : (userLoaded 0).notes = stopped.processes.state.log ∧
    ∀ recent, recent <:+ userLoaded 0 → ¬ UnloadsUser oneStudio recent :=
  ⟨notes_interleaved _ _ _, unloads_own reachable_stopped (by decide +kernel)
    (notes_interleaved _ _ _) (by decide +kernel)⟩

/-- **A load of a user is unloaded**: the load of lifecycle has expired, and a user has made another
under the same identifier, before a cleanup stops the instance. -/
theorem unloads_users : serverLts.Reachable Lts.anyStep stopped ∧
    (userLoaded 5).notes = stopped.processes.state.log ∧
    ∃ recent, recent <:+ userLoaded 5 ∧ UnloadsUser oneStudio recent := by
  refine ⟨reachable_stopped, notes_interleaved _ _ _, ?_⟩
  have hunload : ∃ recent ∈ (userLoaded 5).tails, UnloadsUser oneStudio recent := by decide +kernel
  obtain ⟨recent, hrecent, hunload⟩ := hunload
  exact ⟨recent, (List.mem_tails _ _).mp hrecent, hunload⟩

end Orchestrator.Lifecycle.UserLoads
