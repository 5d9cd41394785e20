import Orchestrator.Lib.Coro
import Orchestrator.Lib.Pool
import Orchestrator.Backend

/-!
What lifecycle asks of the outside world, and its registry of backend instances.

Subprocesses and the clock do not suspend; HTTP exchanges do. The registry file is written after
every change and always holds the registry.
-/

namespace Orchestrator.Lifecycle

open Lib Lib.Coro Clock

/-- How `subprocess.run` raises. -/
inductive RunError
  | calledProcess (stdout stderr : String)
  | fileNotFound
  | other (e : Exn)

def RunError.exn : RunError → Exn
  | calledProcess _ _ => ⟨.other, "CalledProcessError", "returned non-zero exit status"⟩
  | fileNotFound => ⟨.other, "FileNotFoundError", "No such file or directory"⟩
  | other e => e

inductive LifecycleCall
  /-- `datetime.now(UTC)` -/
  | now
  /-- `GET /gpus` of the inventory -/
  | getGpus
  /-- `loaded_models`, as far as it returns -/
  | loadedModels (lmsBinary : String)
  /-- `estimate_lmstudio_load_vram_mb` -/
  | estimateVram (profile : ModelProfile)
  /-- `metadata_for_model` -/
  | metadataForModel (model lmsBinary : String)
  /-- `subprocess.run(command, check=True)` -/
  | run (command : List String)
  /-- `wait_for_health`, with its polls -/
  | waitForHealth (baseUrl path : String)
  /-- `GET /v1/models`, as the model ids it shows -/
  | getModels (baseUrl : String)
  /-- the warmup completion -/
  | postWarmup (baseUrl : String) (payload : Mapping)

namespace LifecycleCall

abbrev Answer : LifecycleCall → Type
  | now => DateTime
  | getGpus => Except Exn (List GpuState)
  | loadedModels _ => List LmStudioLoad
  | estimateVram _ => Except Exn (Option ℤ)
  | metadataForModel _ _ => Mapping
  | run _ => Except RunError Unit
  | waitForHealth _ _ => Except Exn Unit
  | getModels _ => Except Exn (List String)
  | postWarmup _ _ => Except Exn Unit

def suspends : LifecycleCall → Bool
  | getGpus | waitForHealth _ _ | getModels _ | postWarmup _ _ => true
  | now | loadedModels _ | estimateVram _ | metadataForModel _ _ | run _ => false

end LifecycleCall

abbrev Registry := Dict String BackendInstance

/-- A backend process: a docker container, or a load of LM Studio under its identifier. -/
inductive Process
  | container (name : String)
  | load (lmsBinary identifier : String)
  deriving DecidableEq

/-- What is noted of a run, for the sake of the results. -/
inductive Note
  /-- the registry was `before` until now -/
  | changed (before : Registry)
  /-- a lease that an instance held was released -/
  | released (instanceId : String)
  /-- `stop_idle_instances` has stopped an instance, of which the record was `i` -/
  | idleStop (profile : ModelProfile) (i : BackendInstance)
  /-- `stop_instance` calls the adapter's stop for `i` -/
  | stopping (i : BackendInstance) (registry : Registry)
  /-- a process was launched for an instance -/
  | launched (process : Process) (instanceId : String)
  /-- the stop of an instance has run its command on a process, with success or not -/
  | halted (process : Process) (instanceId : String) (registry : Registry) (ok : Bool)

structure Entry where
  note : Note
  time : DateTime

/-- The registry, the last reading of the clock, and the notes so far, the last one first. -/
structure LifecycleState where
  registry : Registry
  clock : DateTime
  log : List Entry

abbrev Service (α : Type) := Coro LifecycleState LifecycleCall LifecycleCall.Answer Exn α

/-- The clock only advances; other answers may be any. -/
def allowed (c : LifecycleCall) (r : c.Answer) (s : LifecycleState) : Prop :=
  match c, r with
  | .now, t => s.clock ≤ t
  | _, _ => True

def world : World LifecycleState LifecycleCall LifecycleCall.Answer :=
  ⟨LifecycleCall.suspends, allowed⟩

/-! ### The clock -/

def now : Service DateTime :=
  .call .now fun (t : DateTime) => .get fun s => .set { s with clock := t } (pure t)

/-- `now_iso` -/
def nowText : Service String := now.after (onOk fun t => pure (nowIso t))

/-! ### The registry -/

namespace Registry

def list (r : Registry) : List BackendInstance := r.values

def activeForModel (r : Registry) (model : String) : List BackendInstance :=
  r.list.filter fun i => i.model = model && i.state.isActive

def readyForModel (r : Registry) (model : String) : List BackendInstance :=
  r.list.filter fun i => i.model = model && i.state = .ready

/-- `reserved_vram_by_gpu()`: a GPU that an instance lists twice is added to twice. -/
def reservedVram (r : Registry) : Dict String ℤ :=
  r.list.foldl (fun reserved i =>
    if i.state.isReserved then
      i.gpuIds.foldl (fun reserved gpuId =>
        reserved.update gpuId fun o => o.getD 0 + i.reservedVramMb) reserved
    else reserved) Dict.empty

/-- `reserved_vram_by_gpu().get(gpu_id, 0)` -/
def reservedVramByGpu (r : Registry) (gpuId : String) : ℤ := (r.reservedVram.get? gpuId).getD 0

/-- What a record reserves on a GPU. -/
def reservation (gpuId : String) (i : BackendInstance) : ℤ :=
  if i.state.isReserved then i.gpuIds.count gpuId * i.reservedVramMb else 0

lemma foldl_gpuIds (gpuId : String) (vram : ℤ) (gpuIds : List String) (reserved : Dict String ℤ) :
    ((gpuIds.foldl (fun reserved gpuId => reserved.update gpuId fun o => o.getD 0 + vram)
      reserved).get? gpuId).getD 0 = (reserved.get? gpuId).getD 0 + gpuIds.count gpuId * vram := by
  induction gpuIds generalizing reserved with
  | nil => simp
  | cons g gpuIds ih =>
    rw [List.foldl_cons, ih, Dict.update, Dict.get?_set, List.count_cons]
    by_cases h : gpuId = g
    · subst h
      simp only [if_pos, Option.getD_some, beq_self_eq_true]
      rw [Nat.cast_add, Nat.cast_one, add_mul, one_mul, add_assoc, add_comm vram]
    · have hne : ¬(g == gpuId) = true := by simpa using Ne.symm h
      rw [if_neg h, if_neg hne, add_zero]

/-- **The reserved VRAM** on a GPU is the sum of the reservations. -/
theorem reservedVramByGpu_eq_sum (r : Registry) (gpuId : String) :
    r.reservedVramByGpu gpuId = (r.list.map (reservation gpuId)).sum := by
  have hfold : ∀ (l : List BackendInstance) (reserved : Dict String ℤ),
      ((l.foldl (fun reserved i =>
        if i.state.isReserved then
          i.gpuIds.foldl (fun reserved gpuId =>
            reserved.update gpuId fun o => o.getD 0 + i.reservedVramMb) reserved
        else reserved) reserved).get? gpuId).getD 0 =
      (reserved.get? gpuId).getD 0 + (l.map (reservation gpuId)).sum := by
    intro l
    induction l with
    | nil => simp
    | cons i l ih =>
      intro reserved
      rw [List.foldl_cons, ih, List.map_cons, List.sum_cons, ← add_assoc]
      congr 1
      rw [reservation]
      split
      · exact foldl_gpuIds _ _ _ _
      · exact (add_zero _).symm
  rw [reservedVramByGpu, reservedVram, hfold]
  exact zero_add _

/-- The first free port from `port` on; `fuel` is the number of used ports. -/
def firstFree (used : List ℤ) (port : ℤ) : ℕ → ℤ
  | 0 => port
  | fuel + 1 => if port ∈ used then firstFree used (port + 1) fuel else port

def nextHostPort (r : Registry) (hostPortStart : ℤ) : ℤ :=
  let used := r.list.filterMap BackendInstance.hostPort
  firstFree used hostPortStart used.length

end Registry

def getInstance (instanceId : String) : Service BackendInstance := .get fun s =>
  match s.registry.get? instanceId with
  | some i => pure i
  | none => raise (.keyError instanceId)

/-- The state with another registry. -/
def LifecycleState.change (s : LifecycleState) (registry : Registry) : LifecycleState :=
  { s with registry := registry, log := ⟨.changed s.registry, s.clock⟩ :: s.log }

def LifecycleState.noted (s : LifecycleState) (note : Note) : LifecycleState :=
  { s with log := ⟨note, s.clock⟩ :: s.log }

/-- A note for the sake of the results. -/
def noteNow (note : Registry → Note) : Service Unit := .get fun s =>
  .set (s.noted (note s.registry)) (pure ())

/-- The record under an id is now `i`. -/
def putInstance (instanceId : String) (i : BackendInstance) : Service BackendInstance :=
  .get fun s => .set (s.change (s.registry.set instanceId i)) (pure i)

/-- `upsert(instance)` -/
def upsert (i : BackendInstance) : Service BackendInstance :=
  nowText.after (onOk fun t => putInstance i.instanceId { i with updatedAt := t })

/-- `upsert(instance, touch=False)` -/
def upsertUntouched (i : BackendInstance) : Service BackendInstance :=
  putInstance i.instanceId i

def markState (instanceId : String) (state : BackendState) : Service BackendInstance :=
  (getInstance instanceId).after <| onOk fun i =>
    nowText.after (onOk fun t => putInstance instanceId
      { i with state := state, updatedAt := t })

def markFailed (instanceId reason : String) : Service BackendInstance :=
  (getInstance instanceId).after <| onOk fun i =>
    nowText.after (onOk fun t => putInstance instanceId
      { i with state := .failed, failureReason := some reason, updatedAt := t })

/-- The note of a release of a lease that is held. -/
def noteRelease (instanceId : String) (held delta : ℤ) : Service Unit := .get fun s =>
  if delta < 0 && 0 < held then .set (s.noted (.released instanceId)) (pure ()) else pure ()

def adjustActiveRequests (instanceId : String) (delta : ℤ) : Service BackendInstance :=
  (getInstance instanceId).after <| onOk fun i =>
    nowText.after <| onOk fun t => (putInstance instanceId
      { i with
        activeRequests := max 0 (i.activeRequests + delta)
        updatedAt := t
        lastUsedAt := if 0 < delta then some t else i.lastUsedAt }).after <| onOk fun adjusted =>
      (noteRelease instanceId i.activeRequests delta).after <| onOk fun _ => pure adjusted

def removeInstance (instanceId : String) : Service Unit := .get fun s =>
  .set (s.change (s.registry.erase instanceId)) (pure ())

end Orchestrator.Lifecycle
