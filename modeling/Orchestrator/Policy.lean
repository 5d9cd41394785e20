import Orchestrator.Json

/-!
Model policies, and the payload a policy's backend gets.
-/

namespace Orchestrator

structure ModelPolicy where
  publicName : String
  backendModel : String
  aliases : List String
  maxActiveRequests : ℤ
  maxQueuedRequests : ℤ
  queueTimeoutSeconds : ℚ
  defaultMaxOutputTokens : ℤ
  maxInputTokens : ℤ
  maxOutputTokens : ℤ
  maxTotalTokens : ℤ
  tokenEstimateCharsPerToken : ℚ
  outputOverLimitBehavior : String

namespace ModelPolicy

def «matches» (p : ModelPolicy) (model : String) : Bool := model = p.publicName || model ∈ p.aliases

def dynamicPolicy (model : String) (defaultPolicy : ModelPolicy) : ModelPolicy :=
  { defaultPolicy with publicName := model, backendModel := model, aliases := [] }

end ModelPolicy

structure PolicyRegistry where
  policies : List ModelPolicy
  defaultPolicy : ModelPolicy
  dynamicModelsEnabled : Bool

/-- `PolicyRegistry.resolve`, which raises nothing. -/
def PolicyRegistry.resolve (r : PolicyRegistry) (model : String) : ModelPolicy :=
  if model ≠ "" then
    match r.policies.find? fun p => p.matches model with
    | some p => p
    | none => if r.dynamicModelsEnabled then ModelPolicy.dynamicPolicy model r.defaultPolicy
      else r.defaultPolicy
  else r.defaultPolicy

/-! ### Overrides -/

/-- `bounded_int_override` of a limit by a request's hint: it lowers the limit, at most to one. -/
def boundedIntOverride (rawValue : Json) (upperBound : ℤ) : Except Exn ℤ :=
  if rawValue.isNoneOrEmpty then .ok upperBound
  else rawValue.toInt.map fun n => min (max 1 n) upperBound

/-- `0.001` -/
def leastTimeout : ℚ := Lib.Binary64.nearest 0.001

/-- `bounded_float_override`, where `max(0.001, x)` is `0.001` for a NaN. -/
def boundedFloatOverride (rawValue : Json) (upperBound : ℚ) : Except Exn ℚ :=
  if rawValue.isNoneOrEmpty then .ok upperBound
  else rawValue.toFloat.map fun
    | .nan => min leastTimeout upperBound
    | .inf true => min leastTimeout upperBound
    | .inf false => upperBound
    | .fin q => min (max leastTimeout q) upperBound

/-- `m.get(key, default)` -/
def Mapping.getOr (m : Mapping) (key : String) (default_ : Json) : Json :=
  (m.lookup key).getD default_

def orchestrationOverrides (policy : ModelPolicy) (orchestration : Mapping) :
    Except Exn ModelPolicy := do
  let tokenOverrides : Mapping := match orchestration.get "tokens" with
    | .obj tokens => tokens
    | _ => []
  let hint (key : String) : Json := tokenOverrides.getOr key (orchestration.get key)
  let maxActiveRequests ← boundedIntOverride
    (orchestration.getOr "max_parallel" (orchestration.get "max_active_requests"))
    policy.maxActiveRequests
  let maxQueuedRequests ← boundedIntOverride (orchestration.get "max_queued_requests")
    policy.maxQueuedRequests
  let queueTimeoutSeconds ← boundedFloatOverride (orchestration.get "queue_timeout_seconds")
    policy.queueTimeoutSeconds
  let defaultMaxOutputTokens ← boundedIntOverride (hint "default_max_output_tokens")
    policy.defaultMaxOutputTokens
  let maxInputTokens ← boundedIntOverride (hint "max_input_tokens") policy.maxInputTokens
  let maxOutputTokens ← boundedIntOverride (hint "max_output_tokens") policy.maxOutputTokens
  let maxTotalTokens ← boundedIntOverride (hint "max_total_tokens") policy.maxTotalTokens
  pure { policy with
    maxActiveRequests, maxQueuedRequests, queueTimeoutSeconds, defaultMaxOutputTokens,
    maxInputTokens, maxOutputTokens, maxTotalTokens }

def applyOrchestrationOverrides (policy : ModelPolicy) : Json → Except Exn ModelPolicy
  | .obj orchestration => orchestrationOverrides policy orchestration
  | _ => .ok policy

lemma boundedIntOverride_le {rawValue : Json} {upperBound n : ℤ}
    (h : boundedIntOverride rawValue upperBound = .ok n) : n ≤ upperBound := by
  rw [boundedIntOverride] at h
  split at h
  · cases h
    exact le_refl _
  · cases hn : rawValue.toInt with
    | error e =>
      rw [hn] at h
      cases h
    | ok m =>
      rw [hn] at h
      cases h
      exact min_le_right _ _

lemma boundedIntOverride_pos {rawValue : Json} {upperBound n : ℤ} (hpos : 1 ≤ upperBound)
    (h : boundedIntOverride rawValue upperBound = .ok n) : 1 ≤ n := by
  rw [boundedIntOverride] at h
  split at h
  · cases h
    exact hpos
  · cases hn : rawValue.toInt with
    | error e =>
      rw [hn] at h
      cases h
    | ok m =>
      rw [hn] at h
      cases h
      exact le_min (le_max_left _ _) hpos

/-- What a request's hints do to a policy: they lower its limits, and none below one. -/
structure ModelPolicy.Lowered (policy lowered : ModelPolicy) : Prop where
  publicName : lowered.publicName = policy.publicName
  charsPerToken : lowered.tokenEstimateCharsPerToken = policy.tokenEstimateCharsPerToken
  maxActiveRequests : lowered.maxActiveRequests ≤ policy.maxActiveRequests
  maxQueuedRequests : lowered.maxQueuedRequests ≤ policy.maxQueuedRequests
  maxOutputTokens : lowered.maxOutputTokens ≤ policy.maxOutputTokens
  maxTotalTokens : lowered.maxTotalTokens ≤ policy.maxTotalTokens
  maxOutputTokens_pos : 1 ≤ policy.maxOutputTokens → 1 ≤ lowered.maxOutputTokens
  defaultMaxOutputTokens_pos :
    1 ≤ policy.defaultMaxOutputTokens → 1 ≤ lowered.defaultMaxOutputTokens

/-- **Hints only lower the limits.** -/
theorem applyOrchestrationOverrides_lowers {policy lowered : ModelPolicy} {orchestration : Json}
    (h : applyOrchestrationOverrides policy orchestration = .ok lowered) :
    policy.Lowered lowered := by
  cases orchestration with
  | obj m =>
    rw [applyOrchestrationOverrides, orchestrationOverrides] at h
    simp only [bind_eq_ok] at h
    obtain ⟨active, hactive, queued, hqueued, timeout, -, default_, hdefault, input, -, output,
      houtput, total, htotal, h⟩ := h
    cases h
    exact {
      publicName := rfl
      charsPerToken := rfl
      maxActiveRequests := boundedIntOverride_le hactive
      maxQueuedRequests := boundedIntOverride_le hqueued
      maxOutputTokens := boundedIntOverride_le houtput
      maxTotalTokens := boundedIntOverride_le htotal
      maxOutputTokens_pos := fun hpos => boundedIntOverride_pos hpos houtput
      defaultMaxOutputTokens_pos := fun hpos => boundedIntOverride_pos hpos hdefault }
  | _ =>
    cases h
    exact ⟨rfl, rfl, le_refl _, le_refl _, le_refl _, le_refl _, id, id⟩

/-! ### Payloads and URLs -/

def stripInternalFields (payload : Mapping) : Mapping :=
  payload.filter fun p => p.1 ≠ "_orchestrator" && p.1 ≠ "orchestration"

def openaiUrl (baseUrl path : String) (ensureV1 : Bool) : String :=
  let base := baseUrl.toList.rdropWhile (· = '/')
  let path := path.toList.dropWhile (· = '/')
  let endsV1 := "/v1".toList.isSuffixOf base
  let path :=
    if endsV1 && "v1/".toList.isPrefixOf path then path.drop 3
    else if ensureV1 && !endsV1 then
      "v1/".toList ++ if "v1/".toList.isPrefixOf path then path.drop 3 else path
    else path
  String.ofList (base ++ '/' :: path)

end Orchestrator
