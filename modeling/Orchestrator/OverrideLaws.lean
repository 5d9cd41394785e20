import Orchestrator.Policy

/-!
The overrides of an orchestration are caps on the limits of a policy. What the caps are does not
depend on the policy, so they commute, and putting them on once more changes nothing.
-/

namespace Orchestrator.OverrideLaws

/-! ### Caps -/

section Capped

variable {α : Type} [LinearOrder α]

/-- A limit under a cap, where there is one. -/
def capped (limit : α) : Option α → α
  | none => limit
  | some cap => min cap limit

lemma capped_le (limit : α) (cap : Option α) : capped limit cap ≤ limit := by
  cases cap with
  | none => exact le_refl _
  | some cap => exact min_le_right _ _

lemma capped_capped (limit : α) (cap : Option α) :
    capped (capped limit cap) cap = capped limit cap := by
  cases cap with
  | none => rfl
  | some cap => exact min_eq_right (min_le_left _ _)

lemma capped_comm (limit : α) (a b : Option α) :
    capped (capped limit a) b = capped (capped limit b) a := by
  cases a with
  | none => rfl
  | some a =>
    cases b with
    | none => rfl
    | some b => exact min_left_comm _ _ _

end Capped

structure Caps where
  maxActiveRequests : Option ℤ
  maxQueuedRequests : Option ℤ
  queueTimeoutSeconds : Option ℚ
  defaultMaxOutputTokens : Option ℤ
  maxInputTokens : Option ℤ
  maxOutputTokens : Option ℤ
  maxTotalTokens : Option ℤ

/-- A policy under caps. -/
def Caps.lower (caps : Caps) (policy : ModelPolicy) : ModelPolicy :=
  { policy with
    maxActiveRequests := capped policy.maxActiveRequests caps.maxActiveRequests
    maxQueuedRequests := capped policy.maxQueuedRequests caps.maxQueuedRequests
    queueTimeoutSeconds := capped policy.queueTimeoutSeconds caps.queueTimeoutSeconds
    defaultMaxOutputTokens := capped policy.defaultMaxOutputTokens caps.defaultMaxOutputTokens
    maxInputTokens := capped policy.maxInputTokens caps.maxInputTokens
    maxOutputTokens := capped policy.maxOutputTokens caps.maxOutputTokens
    maxTotalTokens := capped policy.maxTotalTokens caps.maxTotalTokens }

lemma Caps.lower_lower (caps : Caps) (policy : ModelPolicy) :
    caps.lower (caps.lower policy) = caps.lower policy := by
  simp only [Caps.lower, capped_capped]

lemma Caps.lower_comm (a b : Caps) (policy : ModelPolicy) :
    b.lower (a.lower policy) = a.lower (b.lower policy) := by
  simp only [Caps.lower, capped_comm _ a.maxActiveRequests, capped_comm _ a.maxQueuedRequests,
    capped_comm _ a.queueTimeoutSeconds, capped_comm _ a.defaultMaxOutputTokens,
    capped_comm _ a.maxInputTokens, capped_comm _ a.maxOutputTokens, capped_comm _ a.maxTotalTokens]

/-! ### The caps of an orchestration -/

def intCap (rawValue : Json) : Except Exn (Option ℤ) :=
  if rawValue.isNoneOrEmpty then .ok none else rawValue.toInt.map fun n => some (max 1 n)

def floatCap (rawValue : Json) : Except Exn (Option ℚ) :=
  if rawValue.isNoneOrEmpty then .ok none
  else rawValue.toFloat.map fun
    | .nan => some leastTimeout
    | .inf true => some leastTimeout
    | .inf false => none
    | .fin q => some (max leastTimeout q)

lemma boundedIntOverride_eq (rawValue : Json) (upperBound : ℤ) :
    boundedIntOverride rawValue upperBound = (intCap rawValue).map (capped upperBound) := by
  rw [boundedIntOverride, intCap]
  split
  · rfl
  · cases rawValue.toInt <;> rfl

lemma boundedFloatOverride_eq (rawValue : Json) (upperBound : ℚ) :
    boundedFloatOverride rawValue upperBound = (floatCap rawValue).map (capped upperBound) := by
  rw [boundedFloatOverride, floatCap]
  split
  · rfl
  · cases rawValue.toFloat with
    | error e => rfl
    | ok x =>
      cases x with
      | nan => rfl
      | inf neg => cases neg <;> rfl
      | fin q => rfl

/-- The caps that hints put on a policy, read in the order of the source. -/
def mappingCaps (orchestration : Mapping) : Except Exn Caps := do
  let tokenOverrides : Mapping := match orchestration.get "tokens" with
    | .obj tokens => tokens
    | _ => []
  let hint (key : String) : Json := tokenOverrides.getOr key (orchestration.get key)
  let maxActiveRequests ← intCap
    (orchestration.getOr "max_parallel" (orchestration.get "max_active_requests"))
  let maxQueuedRequests ← intCap (orchestration.get "max_queued_requests")
  let queueTimeoutSeconds ← floatCap (orchestration.get "queue_timeout_seconds")
  let defaultMaxOutputTokens ← intCap (hint "default_max_output_tokens")
  let maxInputTokens ← intCap (hint "max_input_tokens")
  let maxOutputTokens ← intCap (hint "max_output_tokens")
  let maxTotalTokens ← intCap (hint "max_total_tokens")
  pure ⟨maxActiveRequests, maxQueuedRequests, queueTimeoutSeconds, defaultMaxOutputTokens,
    maxInputTokens, maxOutputTokens, maxTotalTokens⟩

def readCaps : Json → Except Exn Caps
  | .obj orchestration => mappingCaps orchestration
  | _ => .ok ⟨none, none, none, none, none, none, none⟩

lemma map_bind {α β γ : Type} (x : Except Exn α) (f : α → β) (g : β → Except Exn γ) :
    (x.map f >>= g) = (x >>= fun a => g (f a)) := by
  cases x <;> rfl

lemma bind_map {α β γ : Type} (x : Except Exn α) (f : α → Except Exn β) (g : β → γ) :
    (x >>= f).map g = x >>= fun a => (f a).map g := by
  cases x <;> rfl

/-- **What the overrides do** is to lower the policy by their caps. -/
theorem applyOrchestrationOverrides_eq (policy : ModelPolicy) (orchestration : Json) :
    applyOrchestrationOverrides policy orchestration =
      (readCaps orchestration).map fun caps => caps.lower policy := by
  cases orchestration with
  | obj m =>
    rw [applyOrchestrationOverrides, readCaps, orchestrationOverrides, mappingCaps]
    simp only [boundedIntOverride_eq, boundedFloatOverride_eq, map_bind, bind_map]
    rfl
  | _ => rfl

/-! ### The laws -/

/-- A policy that is not looser than another, and differs from it in its limits only. -/
structure Tightened (policy tightened : ModelPolicy) : Prop where
  maxActiveRequests : tightened.maxActiveRequests ≤ policy.maxActiveRequests
  maxQueuedRequests : tightened.maxQueuedRequests ≤ policy.maxQueuedRequests
  queueTimeoutSeconds : tightened.queueTimeoutSeconds ≤ policy.queueTimeoutSeconds
  defaultMaxOutputTokens : tightened.defaultMaxOutputTokens ≤ policy.defaultMaxOutputTokens
  maxInputTokens : tightened.maxInputTokens ≤ policy.maxInputTokens
  maxOutputTokens : tightened.maxOutputTokens ≤ policy.maxOutputTokens
  maxTotalTokens : tightened.maxTotalTokens ≤ policy.maxTotalTokens
  publicName : tightened.publicName = policy.publicName
  backendModel : tightened.backendModel = policy.backendModel
  aliases : tightened.aliases = policy.aliases
  tokenEstimateCharsPerToken :
    tightened.tokenEstimateCharsPerToken = policy.tokenEstimateCharsPerToken
  outputOverLimitBehavior : tightened.outputOverLimitBehavior = policy.outputOverLimitBehavior

lemma Caps.tightened (caps : Caps) (policy : ModelPolicy) :
    Tightened policy (caps.lower policy) where
  maxActiveRequests := capped_le _ _
  maxQueuedRequests := capped_le _ _
  queueTimeoutSeconds := capped_le _ _
  defaultMaxOutputTokens := capped_le _ _
  maxInputTokens := capped_le _ _
  maxOutputTokens := capped_le _ _
  maxTotalTokens := capped_le _ _
  publicName := rfl
  backendModel := rfl
  aliases := rfl
  tokenEstimateCharsPerToken := rfl
  outputOverLimitBehavior := rfl

lemma apply_eq_ok {policy lowered : ModelPolicy} {orchestration : Json} :
    applyOrchestrationOverrides policy orchestration = .ok lowered ↔
      ∃ caps, readCaps orchestration = .ok caps ∧ caps.lower policy = lowered := by
  rw [applyOrchestrationOverrides_eq]
  cases readCaps orchestration with
  | error e => exact iff_of_false (fun h => by cases h) fun ⟨_, h, _⟩ => by cases h
  | ok caps =>
    constructor
    · intro h
      exact ⟨caps, rfl, Except.ok.inj h⟩
    · rintro ⟨caps', hcaps, rfl⟩
      cases hcaps
      rfl

/-- **Overrides never loosen a policy.** They do the same when they are applied twice, and two of
them the same in either order. -/
theorem overrides_tighten (policy p₁ p₂ : ModelPolicy) (o₁ o₂ : Json)
    (h₁ : applyOrchestrationOverrides policy o₁ = .ok p₁)
    (h₂ : applyOrchestrationOverrides policy o₂ = .ok p₂) :
    Tightened policy p₁ ∧ applyOrchestrationOverrides p₁ o₁ = .ok p₁ ∧
    ∃ p₃, applyOrchestrationOverrides p₁ o₂ = .ok p₃ ∧
      applyOrchestrationOverrides p₂ o₁ = .ok p₃ := by
  obtain ⟨a, ha, rfl⟩ := apply_eq_ok.mp h₁
  obtain ⟨b, hb, rfl⟩ := apply_eq_ok.mp h₂
  refine ⟨a.tightened policy, apply_eq_ok.mpr ⟨a, ha, a.lower_lower policy⟩,
    b.lower (a.lower policy), apply_eq_ok.mpr ⟨b, hb, rfl⟩, apply_eq_ok.mpr ⟨a, ha, ?_⟩⟩
  exact (a.lower_comm b policy).symm

def samplePolicy : ModelPolicy :=
  ⟨"chat", "chat-q4", [], 4, 0, 30, 512, 8192, 1024, 9216, 4, "clamp"⟩

/-- Hints under the alias and in the tokens, the latter not positive, and one above the limit. -/
def sampleHints : Json := .obj [("max_parallel", .int 2), ("max_queued_requests", .int 8),
  ("tokens", .obj [("max_input_tokens", .int (-5)), ("max_output_tokens", .str "")])]

def otherHints : Json := .obj [("max_active_requests", .int 3), ("max_output_tokens", .int 100)]

theorem overrides_tighten_sample :
    applyOrchestrationOverrides samplePolicy sampleHints =
      .ok { samplePolicy with maxActiveRequests := 2, maxInputTokens := 1 } ∧
    applyOrchestrationOverrides samplePolicy otherHints =
      .ok { samplePolicy with maxActiveRequests := 3, maxOutputTokens := 100 } ∧
    Tightened samplePolicy { samplePolicy with maxActiveRequests := 2, maxInputTokens := 1 } :=
  ⟨rfl, rfl, (overrides_tighten samplePolicy _ _ sampleHints otherHints rfl rfl).1⟩

end Orchestrator.OverrideLaws
