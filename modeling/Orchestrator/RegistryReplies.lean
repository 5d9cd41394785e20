import Orchestrator.LifecycleSystem
import Orchestrator.RegistryFile
import Orchestrator.ResolveOutcomes

/-!
What the endpoints of lifecycle answer to the proxy, and what the proxy reads in it: an answer that
shows a ready instance shows one that is ready in the registry while it is sent.
-/

namespace Orchestrator.RegistryReplies

open Lib Lib.Coro Lifecycle BackendResolver RegistryClient ProxyInstance ResolveOutcomes

variable {lifecycle : LifecycleSettings}

/-! ### Records under their ids -/

lemma keyed_closed : Closed Keyed where
  keyed _ hs := hs
  change s s' hs h := by
    cases h with
    | tick _ => exact hs
    | note _ => exact hs
    | @mark id i _ _ hi => exact keyed_set hs (hs id i hi)
    | @adjust id i _ hi _ => exact keyed_set hs (hs id i hi)
    | @release id i _ hi _ => exact keyed_set hs (hs id i hi)
    | enter _ => exact keyed_set hs rfl
    | reshape _ _ => exact keyed_set hs rfl
    | remove id => exact keyed_erase hs id

lemma keyed_stop : StopKeeps lifecycle Keyed := fun profile _ =>
  (triple_stopInstance lifecycle (keyed_closed.marked _ Leaving) profile (fun _ hs => hs)
    (triple_stop keyed_closed.calm _ _ _)).weaken (fun _ hs => hs.1) fun _ _ hs => hs

/-- The registry is in order, whatever is under way. -/
abbrev AtKeyed (_ : Unit) (_ s : LifecycleState) : Prop := Keyed s

lemma keyed_resting : Resting (single world Keyed) () AtKeyed := resting_single keyed_closed.still

variable (lifecycle) in
lemma keyed_blocks : Blocks lifecycle (fun _ => True) fun _ p M =>
    Within (single world Keyed) AtKeyed p M :=
  closed_blocks keyed_closed
    (keyed_stop.idle keyed_closed.still (fun _ hs => hs) fun _ _ _ hs => hs) keyed_stop

/-! ### What an allocation shows -/

/-- The instance, if it is shown as ready, is ready in the registry. -/
def ShownReady (s : LifecycleState) (i : BackendInstance) : Prop :=
  i.state = .ready → ∃ j, s.registry.get? i.instanceId = some j ∧ j.state = .ready

lemma shown_set {s : LifecycleState} {i : BackendInstance} :
    ShownReady (s.change (s.registry.set i.instanceId i)) i := by
  intro hi
  rw [LifecycleState.change_registry]
  exact ⟨i, Dict.get?_set_self _ _ _, hi⟩

/-- A record that is marked. -/
lemma holds_marked (id : String) (f : BackendInstance → String → BackendInstance)
    (hf : ∀ i t, (f i t).instanceId = i.instanceId) :
    Holds (single world Keyed) AtKeyed ((getInstance id).after <| onOk fun i =>
      nowText.after (onOk fun t => putInstance id (f i t)))
      fun x _ _ s => Keyed s ∧ ∀ i, x = .ok i → ShownReady s i := by
  refine keyed_resting.of_triple fun _ _ => triple_change keyed_closed.tick
    (fun s i hs hi => ?_) fun s hs _ => ⟨hs, fun _ h => by cases h⟩
  have hid : (f i (Clock.nowIso s.clock)).instanceId = id := (hf _ _).trans (hs id i hi)
  refine ⟨keyed_set hs hid, fun j hj => ?_⟩
  cases hj
  exact hid ▸ shown_set

lemma holds_initializeInstance (profile : ModelProfile) (i : BackendInstance) :
    Holds (single world Keyed) AtKeyed (initializeInstance lifecycle profile i)
      fun x _ _ s => Keyed s ∧ ∀ j, x = .ok j → ShownReady s j := by
  have F := keyed_resting.frame
  have herror : ∀ (e : Exn) {s : LifecycleState}, Keyed s →
      Keyed s ∧ ∀ j : BackendInstance, .error e = Except.ok j → ShownReady s j :=
    fun _ _ hs => ⟨hs, fun _ h => by cases h⟩
  have hmark : ∀ state, Holds (single world Keyed) AtKeyed
      (markState i.instanceId state) fun x _ _ s => Keyed s ∧ ∀ j, x = .ok j → ShownReady s j :=
    fun state => holds_marked _ (fun j t => { j with state := state, updatedAt := t })
      fun _ _ => rfl
  unfold initializeInstance
  split
  · exact hmark .ready
  refine holds_exceptException (M := fun x _ _ s => Keyed s ∧ ∀ j, x = .ok j → ShownReady s j) ?_
    (fun _ _ _ _ hs => hs) (fun _ _ _ _ _ hs => hs) fun e => ?_
  · refine Holds.bind (M := fun _ => AtKeyed) (keyed_resting.await rfl fun r => Resting.done r)
      (fun _ => ?_) fun e _ _ _ hs => herror e hs
    refine Holds.bind (M := fun _ => AtKeyed) ?_ (fun _ => ?_) fun e _ _ _ hs => herror e hs
    · split
      · exact Resting.done _
      · exact (F.models profile).holds
    refine (hmark .warming).bind (fun _ => ?_) fun e _ _ _ hs => herror e hs.1
    refine Holds.weaken (B := AtKeyed) ?_ (fun _ _ _ hs => hs.1) fun _ _ _ _ hs => hs
    refine Holds.bind (M := fun _ => AtKeyed) ?_ (fun _ => hmark .ready)
      fun e _ _ _ hs => herror e hs
    split
    · exact keyed_resting.await rfl fun r => Resting.done r
    · exact Resting.done _
  · refine Holds.weaken (B := AtKeyed) ?_ (fun _ _ _ hs => hs.1) fun _ _ _ _ hs => hs
    refine Holds.bind (M := fun _ => AtKeyed) ?_ (fun _ => ?_) fun e _ _ _ hs => herror e hs
    · refine holds_exceptException (M := fun _ => AtKeyed) ?_ (fun _ _ _ _ hs => hs)
        (fun _ _ _ _ _ hs => hs) fun _ => Resting.done _
      exact keyed_resting.of_triple fun _ _ => triple_stop keyed_closed.calm _ _ _
    · exact holds_marked _ (fun j t => { j with
        state := .failed, failureReason := some e.name, updatedAt := t }) fun _ _ => rfl

lemma leastActiveInstance_mem {l : List BackendInstance} {i : BackendInstance}
    (h : leastActiveInstance l = some i) : i ∈ l := by
  induction l generalizing i with
  | nil => cases h
  | cons a l ih =>
    rw [leastActiveInstance] at h
    split at h
    · cases h
      exact List.mem_cons_self
    · next j hj =>
      split at h
      · cases h
        exact List.mem_cons_of_mem _ (ih hj)
      · cases h
        exact List.mem_cons_self

/-- The instance that an allocation returns. -/
def Returned (x : Except Exn AllocationResult) (s : LifecycleState) : Prop :=
  ∀ r i, x = .ok r → r.backend = some i → ShownReady s i

/-- **An allocation** that returns a ready instance returns it while it is ready in the registry. -/
theorem triple_allocate (payload : Mapping) :
    Triple world Keyed Keyed (allocate lifecycle payload) fun x s => Keyed s ∧ Returned x s := by
  have B := keyed_blocks lifecycle
  have herror : ∀ (e : Exn) {s : LifecycleState}, Keyed s → Keyed s ∧ Returned (.error e) s :=
    fun _ _ hs => ⟨hs, fun _ _ h => by cases h⟩
  refine Holds.triple ?_
  dsimp only [allocate]
  split
  · exact Holds.of_done fun _ _ _ hs => herror _ hs
  refine Holds.bind (M := fun _ => AtKeyed) (Resting.done _) (fun found => ?_)
    fun e _ _ _ hs => herror e hs
  refine Holds.of_get fun u => ?_
  split
  · next i hi =>
    refine Holds.of_done fun _ _ s hs => ⟨hs.2, fun r j hr hj => ?_⟩
    cases hr
    cases hj
    obtain ⟨rfl, hs⟩ := hs
    have hmem := List.mem_of_mem_filter (leastActiveInstance_mem hi)
    exact fun hready => ⟨i, (current_list hs).2 i hmem, hready⟩
  refine Holds.weaken (B := AtKeyed) ?_ (fun _ _ _ hs => hs.2) fun _ _ _ _ hs => hs
  refine Holds.bind (M := fun _ => AtKeyed)
    (B.ticking _ _ _ (ticking_enrichProfileFromLmstudioMetadata _ _ _)).holds (fun enriched => ?_)
      fun e _ _ _ hs => herror e hs
  refine Holds.bind (M := fun _ => AtKeyed) ?_ (fun _ => ?_) fun e _ _ _ hs => herror e hs
  · split
    · exact (B.models _).holds
    · exact Resting.done _
  refine Holds.bind (M := fun _ => AtKeyed) B.gpus.holds (fun gpus => ?_)
    fun e _ _ _ hs => herror e hs
  refine Holds.of_get fun u => ?_
  refine Holds.weaken (B := AtKeyed) ?_ (fun _ _ _ hs => hs.2) fun _ _ _ _ hs => hs
  dsimp only
  split
  · exact Holds.of_done fun _ _ _ hs => ⟨hs, fun r i hr hi => by cases hr; cases hi⟩
  rw [← after_onOk_assoc]
  refine Holds.bind (M := fun _ => AtKeyed) (keyed_resting.of_triple fun _ _ =>
    triple_enteredInstance keyed_closed.calm fun _ _ hs _ => keyed_set hs rfl) (fun i => ?_)
      fun e _ _ _ hs => herror e hs
  refine (holds_initializeInstance _ _).bind (fun i => ?_) fun e _ _ _ hs => herror e hs.1
  refine Holds.of_done fun _ _ _ hs => ⟨hs.1, fun r j hr hj => ?_⟩
  cases hr
  cases hj
  exact hs.2 i rfl

/-! ### The endpoints of lifecycle -/

def jsonResponse (statusCode : ℕ) (payload : Mapping) : HttpResponse :=
  ⟨statusCode, "application/json", "", .ok (.obj payload)⟩

/-- What is sent for an exception that no handler catches. -/
def internalServerError : HttpResponse where
  statusCode := 500
  contentType := "text/plain; charset=utf-8"
  text := "Internal Server Error"
  json := .error ⟨.jsonDecode, "JSONDecodeError", "Expecting value"⟩

/-- `backend_registry` -/
def registryResponse (r : Registry) : HttpResponse := jsonResponse 200 (saved r)

/-- `lease_backend` -/
def leaseResponse : Except Exn BackendInstance → HttpResponse
  | .ok i => jsonResponse 200 i.toDict
  | .error _ => internalServerError

/-- The handlers of `allocate`, by the classes of exceptions. -/
def allocationFailure (e : Exn) : HttpResponse :=
  if e.name = "PermissionError" then jsonResponse 403 [("detail", .str e.message)]
  else if e.name = "LookupError" || e.name = "KeyError" || e.name = "IndexError" then
    jsonResponse 404 [("detail", .str e.message)]
  else if e.name = "ValueError" || e.name = "JSONDecodeError" then
    jsonResponse 400 [("detail", .str e.message)]
  else internalServerError

/-- `allocate`, with what a client reads of its payload -/
def allocationResponse : Except Exn AllocationResult → HttpResponse
  | .ok ⟨created, _, some i⟩ =>
    jsonResponse 200 [("created", .bool created), ("instance", .obj i.toDict)]
  | .ok ⟨created, _, none⟩ => jsonResponse 409 [("created", .bool created), ("instance", .null)]
  | .error e => allocationFailure e

/-! ### What an answer shows -/

/-- The answer shows a ready instance of the id. -/
def Shows : (c : ProxyCall) → c.Answer → String → Prop
  | .getRegistry, r, id => ∃ instances backend, instancesOf r = .ok instances ∧
      backend ∈ instances ∧ backend.isReady = true ∧ backend.instanceId = id
  | .postAllocation _, r, id => ∃ backend, allocationResult r = .ok (some backend) ∧
      backend.isReady = true ∧ backend.instanceId = id
  | _, _, _ => False

lemma text_eq_ready {state : BackendState} (h : state.text = "ready") : state = .ready := by
  rw [← BackendState.ofText_text state, h]
  rfl

/-- A client reads what lifecycle writes. -/
lemma parse_toDict (i : BackendInstance) : ProxyInstance.parse i.toDict =
    .ok ⟨i.instanceId, i.model, i.baseUrl, i.state.text, i.activeRequests⟩ := by
  have hcount : ((Json.int i.activeRequests).or (.int 0)).toInt = .ok i.activeRequests := by
    rw [Json.or]
    split
    · rfl
    · next h =>
      have hzero : i.activeRequests = 0 := by simpa [Json.truthy] using h
      rw [hzero]
      rfl
  have htext : ∀ text, ((Json.str text).or (.str "")).toStr = text := by
    intro text
    rw [str_or_toStr]
    split
    · next h => exact h.symm
    · rfl
  have hstate : ((Json.str i.state.text).or (.str "unknown")).toStr = i.state.text := by
    cases i.state <;> rfl
  show (((Json.int i.activeRequests).or (.int 0)).toInt >>= fun activeRequests => .ok
    (⟨((Json.str i.instanceId).or (.str "")).toStr, ((Json.str i.model).or (.str "")).toStr,
      ((Json.str i.baseUrl).or (.str "")).toStr,
      ((Json.str i.state.text).or (.str "unknown")).toStr, activeRequests⟩ : ProxyInstance)) = _
  rw [hcount, htext, htext, htext, hstate]
  rfl

lemma parseEach_toDict {l : List BackendInstance} {instances : List ProxyInstance}
    (h : parseEach (l.map fun i => .obj i.toDict) = .ok instances) {backend : ProxyInstance}
    (hmem : backend ∈ instances) :
    ∃ i ∈ l, i.instanceId = backend.instanceId ∧ i.state.text = backend.state := by
  induction l generalizing instances with
  | nil =>
    cases h
    cases hmem
  | cons i l ih =>
    rw [List.map_cons, parseEach, parse_toDict] at h
    obtain ⟨_, hfirst, h⟩ := bind_eq_ok.mp h
    cases hfirst
    obtain ⟨others, hothers, h⟩ := bind_eq_ok.mp h
    cases h
    rcases List.mem_cons.mp hmem with rfl | hmem
    · exact ⟨i, List.mem_cons_self, rfl, rfl⟩
    · obtain ⟨j, hj, hjd⟩ := ih hothers hmem
      exact ⟨j, List.mem_cons_of_mem _ hj, hjd⟩

lemma isReady_state {backend : ProxyInstance} (h : backend.isReady = true) :
    backend.state = "ready" := by
  rw [ProxyInstance.isReady, Bool.and_eq_true] at h
  simpa using h.1

/-- The registry is shown as it is. -/
lemma shows_registry {r : Registry} {id : String}
    (h : Shows .getRegistry (.ok (registryResponse r)) id) :
    ∃ i ∈ r.list, i.instanceId = id ∧ i.state = .ready := by
  obtain ⟨instances, backend, hread, hmem, hready, rfl⟩ := h
  have hparse : parseEach (r.list.map fun i => .obj i.toDict) = .ok instances := hread
  obtain ⟨i, hi, hid, hstate⟩ := parseEach_toDict hparse hmem
  exact ⟨i, hi, hid, text_eq_ready (hstate.trans (isReady_state hready))⟩

/-- The ready instance that is shown is the one that the allocation returned. -/
lemma shows_allocation {payload : Mapping} {x : Except Exn AllocationResult} {id : String}
    (h : Shows (.postAllocation payload) (.ok (allocationResponse x)) id) :
    ∃ r i, x = .ok r ∧ r.backend = some i ∧ i.instanceId = id ∧ i.state = .ready := by
  obtain ⟨backend, hread, hready, rfl⟩ := h
  have hfailed : ∀ response : HttpResponse, 300 ≤ response.statusCode →
      allocationResult (.ok response) ≠ .ok (some backend) := by
    intro response hcode hresult
    have hraise : raiseForStatus response = .error
        ⟨.httpStatus response.statusCode, "HTTPStatusError", "unexpected status"⟩ := by
      rw [raiseForStatus, if_neg]
      simp only [Bool.and_eq_true, decide_eq_true_eq]
      omega
    have hread : allocationResult (.ok response) = if response.statusCode = 404 then .ok none else
        .error ⟨.httpStatus response.statusCode, "HTTPStatusError", "unexpected status"⟩ := by
      show (if response.statusCode = 404 then .ok none else raiseForStatus response >>= _) = _
      rw [hraise]
      rfl
    rw [hread] at hresult
    split at hresult <;> cases hresult
  cases x with
  | error e =>
    refine absurd hread (hfailed _ ?_)
    show 300 ≤ (allocationFailure e).statusCode
    unfold allocationFailure
    split_ifs <;> simp [jsonResponse, internalServerError]
  | ok r =>
    obtain ⟨created, decision, o⟩ := r
    cases o with
    | none => exact absurd hread (hfailed _ (show 300 ≤ 409 by decide))
    | some i =>
      have hparse : (parseEach [.obj i.toDict] >>= fun parsed => .ok parsed.head?) =
          .ok (some backend) := hread
      obtain ⟨parsed, hparsed, hhead⟩ := bind_eq_ok.mp hparse
      have hmem : backend ∈ parsed :=
        List.mem_of_mem_head? (Option.mem_def.mpr (Except.ok.inj hhead))
      obtain ⟨j, hj, hid, hstate⟩ := parseEach_toDict (l := [i]) hparsed hmem
      obtain rfl := List.mem_singleton.mp hj
      exact ⟨_, j, rfl, rfl, hid, text_eq_ready (hstate.trans (isReady_state hready))⟩

end Orchestrator.RegistryReplies
