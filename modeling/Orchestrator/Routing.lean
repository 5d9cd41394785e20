import Orchestrator.Lib.Coro
import Orchestrator.Clock
import Orchestrator.Json

/-!
What the queue proxy asks of the outside world, its client of lifecycle's registry, and the
resolver that picks and leases a backend.

Every HTTP exchange is one call, answered by a response or an exception; only reading the clock
does not suspend.
-/

namespace Orchestrator

open Lib Lib.Coro Clock

structure HttpResponse where
  statusCode : ℕ
  contentType : String
  text : String
  /-- What `response.json()` returns or raises. -/
  json : Except Exn Json

inductive ProxyCall
  /-- `utc_now` of the task store -/
  | utcNow
  /-- `datetime.now(UTC)` where a retry is scheduled -/
  | datetimeNow
  | getRegistry
  | postAllocation (payload : Mapping)
  | postLease (instanceId : String)
  | deleteLease (instanceId : String)
  | postReconcile (payload : Mapping)
  | postExplain (payload : Mapping)
  | postUpstream (url : String) (payload : Mapping)

namespace ProxyCall

abbrev Answer : ProxyCall → Type
  | utcNow => DateTime
  | datetimeNow => DateTime
  | _ => Except Exn HttpResponse

def suspends : ProxyCall → Bool
  | utcNow => false
  | datetimeNow => false
  | _ => true

end ProxyCall

abbrev Proxy (σ α : Type) := Coro σ ProxyCall ProxyCall.Answer Exn α

abbrev ProxyEvent := Event ProxyCall ProxyCall.Answer

structure Settings where
  upstreamBaseUrl : String
  backendRegistryUrl : String
  enableBackendRegistryRouting : Bool
  requireBackendRegistryBackend : Bool
  queueProxyApiKey : String
  taskExecutorMaxAttempts : {n : ℕ // 1 ≤ n}
  taskExecutorRetryBaseSeconds : {q : ℚ // 0 < q}
  taskExecutorRetryMaxSeconds : {q : ℚ // 0 < q}
  /-- Python's `repr` of a float. -/
  floatText : ℚ → String

lemma one_le_three : 1 ≤ 3 := by decide

/-- `backend_registry_client is not None` -/
def Settings.hasRegistryClient (settings : Settings) : Bool := settings.backendRegistryUrl ≠ ""

/-- `response.raise_for_status()` -/
def raiseForStatus (r : HttpResponse) : Except Exn HttpResponse :=
  if 200 ≤ r.statusCode && r.statusCode < 300 then .ok r
  else .error ⟨.httpStatus r.statusCode, "HTTPStatusError", "unexpected status"⟩

/-- The instance as the proxy's client reads it. -/
structure ProxyInstance where
  instanceId : String
  model : String
  baseUrl : String
  state : String
  activeRequests : ℤ

namespace ProxyInstance

def isReady (i : ProxyInstance) : Bool :=
  i.state = "ready" &&
    ("http://".toList.isPrefixOf i.baseUrl.toList || "https://".toList.isPrefixOf i.baseUrl.toList)

def parse (item : Mapping) : Except Exn ProxyInstance := do
  let activeRequests ← ((item.get "active_requests").or (.int 0)).toInt
  pure {
    instanceId := ((item.get "instance_id").or (.str "")).toStr
    model := ((item.get "model").or (.str "")).toStr
    baseUrl := ((item.get "base_url").or (.str "")).toStr
    state := ((item.get "state").or (.str "unknown")).toStr
    activeRequests := activeRequests }

def parseEach : List Json → Except Exn (List ProxyInstance)
  | [] => .ok []
  | .obj item :: rest => do
    let i ← parse item
    let others ← parseEach rest
    pure (i :: others)
  | _ :: rest => parseEach rest

/-- `parse_registry_instances` -/
def parseRegistryInstances (payload : Json) : Except Exn (List ProxyInstance) :=
  match payload with
  | .obj m =>
    match (m.lookup "instances").getD (.arr []) with
    | .arr items => parseEach items
    | _ => .ok []
  | _ => .error ⟨.other, "AttributeError", "object has no attribute 'get'"⟩

end ProxyInstance

/-! ### The registry client -/

namespace RegistryClient

open ProxyInstance

variable {σ : Type}

def listInstances : Proxy σ (List ProxyInstance) :=
  .call .getRegistry fun r => lift do
    let response ← r
    let response ← raiseForStatus response
    let payload ← response.json
    parseRegistryInstances payload

/-- `min(candidates, key=lambda instance: instance.active_requests)` -/
def leastActive : List ProxyInstance → Option ProxyInstance
  | [] => none
  | i :: rest =>
    match leastActive rest with
    | none => some i
    | some j => if j.activeRequests < i.activeRequests then some j else some i

def chooseBackend (model : String) : Proxy σ (Option ProxyInstance) := do
  let instances ← listInstances
  let candidates := instances.filter fun i => i.model = model && i.isReady
  pure (leastActive candidates)

def allocationPayload (model : String) (orchestration : Mapping) : Mapping :=
  if orchestration.isEmpty then [("model", .str model)]
  else [("model", .str model), ("orchestration", .obj orchestration)]

/-- What `ensure_allocation` makes of the answer. -/
def allocationResult (r : Except Exn HttpResponse) : Except Exn (Option ProxyInstance) := do
  let response ← r
  if response.statusCode = 404 then pure none
  else
    let response ← raiseForStatus response
    let data ← response.json
    match data with
    | .obj m =>
      match Mapping.get m "instance" with
      | .obj item => do
        let parsed ← parseRegistryInstances (.obj [("instances", .arr [.obj item])])
        pure parsed.head?
      | _ => pure none
    | _ => .error ⟨.other, "AttributeError", "object has no attribute 'get'"⟩

def ensureAllocation (model : String) (orchestration : Mapping) : Proxy σ (Option ProxyInstance) :=
  .call (.postAllocation (allocationPayload model orchestration)) fun r => lift (allocationResult r)

/-- What `lease_backend` and `release_backend` make of the answer. -/
def statusOnly (r : Except Exn HttpResponse) : Except Exn Unit := do
  let response ← r
  let _ ← raiseForStatus response
  pure ()

def leaseBackend (instanceId : String) : Proxy σ Unit :=
  .call (.postLease instanceId) fun r => lift (statusOnly r)

def releaseBackend (instanceId : String) : Proxy σ Unit :=
  .call (.deleteLease instanceId) fun r => lift (statusOnly r)

/-- What `reconcile` makes of the answer. -/
def reconcileResult (r : Except Exn HttpResponse) : Except Exn Json := do
  let response ← r
  let response ← raiseForStatus response
  response.json

def reconcile (payload : Mapping) : Proxy σ Json :=
  .call (.postReconcile payload) fun r => lift (reconcileResult r)

end RegistryClient

/-! ### The resolver -/

namespace BackendResolver

open RegistryClient

variable {σ : Type}

/-- `try: a = p except httpx.HTTPError: h`, and `k` goes on with `a`. -/
def exceptHTTP {C α β : Type} {R : C → Type} (p : Coro σ C R Exn α) (h : Exn → Coro σ C R Exn β)
    (k : α → Coro σ C R Exn β) : Coro σ C R Exn β :=
  p.after fun
    | .ok a => k a
    | .error e => if e.isHTTPError then h e else raise e

/-- The outcome when the registry offers no backend: a base URL, but no instance. -/
def fallback (settings : Settings) : Option String × Option String :=
  if settings.requireBackendRegistryBackend then (none, none)
  else (some settings.upstreamBaseUrl, none)

/-- The handlers of `ensure_allocation`. -/
def allocationFailed (e : Exn) : Proxy σ (Option ProxyInstance) :=
  match e.kind with
  | .httpStatus code =>
    if code = 403 || code = 404 || code = 409 then
      raise ⟨.allocationUnavailable, "AllocationUnavailable", ""⟩
    else pure none
  | .http => pure none
  | _ => raise e

/-- `BackendResolver.ensure_allocation` -/
def ensureAllocation (model : String) (orchestration : Mapping) : Proxy σ (Option ProxyInstance) :=
  (RegistryClient.ensureAllocation model orchestration).after fun
    | .ok i => pure i
    | .error e => allocationFailed e

/-- The part of `resolve` after a backend is chosen. -/
def leaseChosen (settings : Settings) (backend : ProxyInstance) :
    Proxy σ (Option String × Option String) :=
  exceptHTTP (leaseBackend backend.instanceId)
    (fun _ => pure (fallback settings))
    (fun _ => pure (some backend.baseUrl, some backend.instanceId))

/-- The part of `resolve` for a model without a ready backend. -/
def allocateAndLease (settings : Settings) (model : String) (orchestration : Mapping) :
    Proxy σ (Option String × Option String) :=
  (ensureAllocation model orchestration).after fun
    | .ok (some backend) =>
      if backend.isReady then leaseChosen settings backend else pure (fallback settings)
    | .ok none => pure (fallback settings)
    | .error e => if e.kind = .allocationUnavailable then pure (none, none) else raise e

def resolve (settings : Settings) (model : String) (orchestration : Mapping) :
    Proxy σ (Option String × Option String) :=
  if !settings.enableBackendRegistryRouting || !settings.hasRegistryClient then
    pure (some settings.upstreamBaseUrl, none)
  else
    exceptHTTP (chooseBackend model)
      (fun _ => pure (fallback settings))
      (fun
        | some backend => leaseChosen settings backend
        | none => allocateAndLease settings model orchestration)

def release (settings : Settings) (instanceId : Option String) : Proxy σ Unit :=
  match instanceId with
  | none => pure ()
  | some id =>
    if !settings.hasRegistryClient then pure ()
    else exceptHTTP (releaseBackend id) (fun _ => pure ()) (fun _ => pure ())

end BackendResolver

end Orchestrator
