import Orchestrator.Runtime

/-!
The stop of idle instances and the purge of stale records.
-/

namespace Orchestrator.Lifecycle

open Lib Lib.Coro Clock

def idleTtlSecondsFor (i : BackendInstance) (profile : ModelProfile) : Except Exn ℤ :=
  let rawValue := i.metadata.get "idle_ttl_seconds"
  if rawValue.isNoneOrEmpty then .ok profile.idleTtlSeconds else rawValue.toInt

/-- `last_used_at or updated_at or created_at` -/
def idleReference (i : BackendInstance) : String :=
  match i.lastUsedAt.filter (· ≠ "") with
  | some text => text
  | none => if i.updatedAt ≠ "" then i.updatedAt else i.createdAt

/-- The seconds from one instant to another, at least zero. -/
def elapsedSeconds (reference now : DateTime) : ℚ :=
  max 0 ((((now.1 : ℤ) - reference.1 : ℤ) : ℚ) / 1000000)

def idleSeconds (i : BackendInstance) : Service ℚ :=
  (lift (parseIso (idleReference i))).after <| onOk fun reference =>
    now.after <| onOk fun t => pure (elapsedSeconds reference t)

/-- The condition on a candidate. -/
def isIdle (profile : ModelProfile) (i : BackendInstance) : Service Bool :=
  if i.activeRequests ≠ 0 then pure false
  else (idleSeconds i).after <| onOk fun seconds =>
    (lift (idleTtlSecondsFor i profile)).after <| onOk fun ttl => pure (ttl ≤ seconds : Bool)

def idleCandidates (profile : ModelProfile) : List BackendInstance → Service (List BackendInstance)
  | [] => pure []
  | i :: rest => (isIdle profile i).after <| onOk fun idle =>
    (idleCandidates profile rest).after <| onOk fun others =>
      pure (if idle then i :: others else others)

variable (settings : LifecycleSettings)

/-- The stop of one candidate. -/
def stopIdle (profile : ModelProfile) (i : BackendInstance) : Service BackendInstance :=
  (stopInstance settings profile i).after <| onOk fun stopped => .get fun s =>
    .set (s.noted (.idleStop profile i)) (pure stopped)

/-- The part of `stop_idle_instances` for one profile. -/
def stopIdleOf (queueLengths : Dict String ℤ) (profile : ModelProfile) :
    Service (List BackendInstance) :=
  if 0 < (queueLengths.get? profile.publicName).getD 0 then pure []
  else .get fun s =>
    let readyInstances := s.registry.readyForModel profile.publicName
    (idleCandidates profile readyInstances).after <| onOk fun candidates =>
      let sorted := candidates.insertionSort fun a b => idleReference a ≤ idleReference b
      let removableCount := max 0 ((readyInstances.length : ℤ) - profile.minReplicas)
      mapEach (stopIdle settings profile) (sorted.take removableCount.toNat)

def stopIdleInstances (queueLengths : Dict String ℤ) (profiles : List ModelProfile) :
    Service (List BackendInstance) :=
  (mapEach (stopIdleOf settings queueLengths) profiles).after <| onOk fun stopped =>
    pure stopped.flatten

/-- Whether `purge_stale_instances` removes the record. -/
def isStale (ttlSeconds : ℤ) (i : BackendInstance) : Service Bool :=
  if i.runtime ≠ "lmstudio" || !(i.state = .stopped || i.state = .failed) then pure false
  else (idleSeconds i).after <| onOk fun seconds => pure (ttlSeconds ≤ seconds : Bool)

def purgeEach (ttlSeconds : ℤ) : List BackendInstance → Service (List BackendInstance)
  | [] => pure []
  | i :: rest => (isStale ttlSeconds i).after <| onOk fun stale =>
    if stale then (removeInstance i.instanceId).after <| onOk fun _ =>
      (purgeEach ttlSeconds rest).after <| onOk fun others => pure (i :: others)
    else purgeEach ttlSeconds rest

def purgeStaleInstances (ttlSeconds : ℤ) : Service (List BackendInstance) :=
  if ttlSeconds < 0 then pure []
  else .get fun s => purgeEach ttlSeconds s.registry.list

def registryCleanupTtlSeconds (config : Mapping) : Except Exn ℤ :=
  ((config.lookup "registry_cleanup_ttl_seconds").getD (.int 3600)).toInt

/-- The profiles of `cleanup`: the configured ones, and dynamic ones for ready instances. -/
def withDynamicProfiles : List BackendInstance → List ModelProfile →
    Except Exn (List ModelProfile)
  | [], profiles => .ok profiles
  | i :: rest, profiles =>
    if (profiles.any fun p => p.publicName = i.model) || i.state ≠ .ready then
      withDynamicProfiles rest profiles
    else do
      match ← settings.dynamicProfile i.model [] with
      | some profile => withDynamicProfiles rest (profiles ++ [profile])
      | none => withDynamicProfiles rest profiles

def cleanup (queueLengths : Dict String ℤ) :
    Service (List BackendInstance × List BackendInstance) :=
  .get fun s =>
    (lift (withDynamicProfiles settings s.registry.list settings.profiles.list)).after <|
      onOk fun profiles => (stopIdleInstances settings queueLengths profiles).after <|
        onOk fun stopped =>
          (lift (registryCleanupTtlSeconds settings.dynamicConfig)).after <| onOk fun ttl =>
            (purgeStaleInstances ttl).after <| onOk fun removed => pure (stopped, removed)

end Orchestrator.Lifecycle
