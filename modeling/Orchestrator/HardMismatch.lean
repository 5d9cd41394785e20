import Orchestrator.PlanShapes

/-!
Which instance a reload is decided for. The loop takes the first ready or draining instance about
which there is anything to say, also where that is only that nothing is to be done, and an instance
that is too small for the queued tasks is seen only if it is that one.
-/

namespace Orchestrator.Lifecycle.HardMismatch

open Lib Lib.Coro Clock

/-- The calls are made at the time `t`. -/
def ReadsClock (t : DateTime) :
    (c : LifecycleCall) → c.Answer → LifecycleState → LifecycleState → Prop
  | .now, r, _, _ => r = t
  | _, _, _, _ => True

def noRecords (t : DateTime) : LifecycleState := ⟨Dict.empty, t, []⟩

lemma readsClock_answersAt (t : DateTime) (c : LifecycleCall) (s : LifecycleState) :
    ReadsClock t c (answersAt t [] c (noRecords t)) s s := by
  cases c with
  | now => exact if_pos (le_refl t)
  | _ => trivial

def Live (i : BackendInstance) : Prop := i.state = .ready ∨ i.state = .draining

/-- The context of the instance is known, and too small for some queued task. -/
structure Mismatch (plan : ContextPlan) (i : BackendInstance) (context : ℤ) : Prop where
  live : Live i
  known : lmsContextLengthFromInstance i = .ok (some context)
  small : context < plan.maxRequiredContextTokens

/-- A reload is decided, for an instance that is too small. -/
def Reloads (plan : ContextPlan) (l : List BackendInstance)
    (x : Except Exn (Option PlacementDecision)) : Prop :=
  ∃ d, x = .ok (some d) ∧ d.action = .reload ∧ ∃ i ∈ l, ∃ context, Mismatch plan i context ∧
    d.instanceId = some i.instanceId ∧ d.currentLmsContextLength = some context

variable (profile : ModelProfile) (plan : ContextPlan)

/-- There is nothing to say about the instance: its shape can be read and is as wanted. -/
def Passes (i : BackendInstance) : Prop :=
  Live i → ∃ context slots, lmsContextLengthFromInstance i = .ok context ∧
    lmsParallelFromInstance i = .ok slots ∧
      (assessReloadNeed context slots profile plan).reloadNeeded = false ∧
        (assessReloadNeed context slots profile plan).noopReason = none

/-- The instance has run for the minimum dwell time, or since a time that cannot be read. -/
def OldEnough (t : DateTime) (i : BackendInstance) : Prop :=
  profile.reloadMinDwellSeconds ≤ 0 ∨ ∀ created, parseIso i.createdAt = .ok created →
    (profile.reloadMinDwellSeconds : ℚ) ≤ (((t.1 : ℤ) - created.1 : ℤ) : ℚ) / 1000000

/-- A reload that the assessment asks for, and that need not wait. -/
def Due (t : DateTime) (i : BackendInstance) (assessment : ReloadAssessment) : Prop :=
  assessment.reloadNeeded = true ∧
    (assessment.hardContextMismatch = true ∨ OldEnough profile t i)

/-- The first instance about which there is anything to say is too small, and its reload is due. -/
def FirstMismatch (t : DateTime) (l : List BackendInstance) : Prop :=
  ∃ before i after context slots, l = before ++ i :: after ∧ (∀ j ∈ before, Passes profile plan j) ∧
    Mismatch plan i context ∧ lmsParallelFromInstance i = .ok slots ∧
      Due profile t i (assessReloadNeed (some context) slots profile plan)

variable {profile : ModelProfile} {plan : ContextPlan} {t : DateTime} {i : BackendInstance}
  {rest : List BackendInstance} {s s' : LifecycleState}
  {es : List (Event LifecycleCall LifecycleCall.Answer)}

lemma live_iff : ¬(i.state ≠ .ready && i.state ≠ .draining) = true ↔ Live i := by
  rw [Live, Bool.and_eq_true, decide_eq_true_eq, decide_eq_true_eq]
  tauto

/-! ### One instance -/

/-- `reload_dwell_satisfied` -/
lemma reloadDwellSatisfied_runs {x : Except Exn Bool}
    (h : (reloadDwellSatisfied profile i).Runs (ReadsClock t) s es x s') :
    ∃ b, x = .ok b ∧ (b = true ↔ OldEnough profile t i) := by
  rw [reloadDwellSatisfied] at h
  split at h
  · next hnone => exact ⟨true, (runs_done.mp h).2.1, iff_of_true rfl (.inl hnone)⟩
  · next hsome =>
    split at h
    · next e he =>
      exact ⟨true, (runs_done.mp h).2.1, iff_of_true rfl (.inr fun created hc => by
        rw [he] at hc
        cases hc)⟩
    · next created hc =>
      obtain ⟨_, _, _, _, -, hnow, h⟩ := runs_after.mp h
      obtain ⟨r, _, _, -, rfl, hnow⟩ := runs_call.mp hnow
      rw [runs_get, runs_set] at hnow
      obtain ⟨-, rfl, -⟩ := runs_done.mp hnow
      refine ⟨_, (runs_done.mp h).2.1, ?_⟩
      rw [decide_eq_true_eq, OldEnough, or_iff_right hsome]
      refine ⟨fun hle created' hc' => ?_, fun hall => hall created hc⟩
      rw [hc] at hc'
      cases hc'
      exact hle

/-- An instance about which there is nothing to say is passed over. -/
lemma reloadDecision_pass (h : Passes profile plan i) :
    reloadDecision profile plan (i :: rest) = reloadDecision profile plan rest := by
  rw [reloadDecision]
  split
  · rfl
  · next hlive =>
    obtain ⟨context, slots, hc, hn, hneeded, hnoop⟩ := h (live_iff.mp hlive)
    simp only [hc, hn, lift, after_done, onOk_ok, hneeded, hnoop, Bool.not_false, if_true]

/-- Every other instance ends the loop, with an error or with a decision about itself. -/
lemma reloadDecision_stop (hstop : ¬Passes profile plan i)
    {x : Except Exn (Option PlacementDecision)}
    (h : (reloadDecision profile plan (i :: rest)).Runs (ReadsClock t) s es x s') :
    Live i ∧ ((∃ e, x = .error e ∧ (lmsContextLengthFromInstance i = .error e ∨
        lmsParallelFromInstance i = .error e)) ∨
      ∃ context slots d, lmsContextLengthFromInstance i = .ok context ∧
        lmsParallelFromInstance i = .ok slots ∧ x = .ok (some d) ∧
          d.instanceId = some i.instanceId ∧ d.currentLmsContextLength = context ∧
            (d.action = .reload ↔
              Due profile t i (assessReloadNeed context slots profile plan))) := by
  rw [reloadDecision] at h
  split at h
  · next hdead => exact absurd (fun hlive => absurd hdead (live_iff.mpr hlive)) hstop
  next hlive =>
  refine ⟨live_iff.mp hlive, ?_⟩
  cases hc : lmsContextLengthFromInstance i with
  | error e =>
    rw [hc] at h
    exact .inl ⟨e, (runs_done.mp h).2.1, .inl rfl⟩
  | ok context =>
    cases hn : lmsParallelFromInstance i with
    | error e =>
      rw [hc, hn] at h
      exact .inl ⟨e, (runs_done.mp h).2.1, .inr rfl⟩
    | ok slots =>
      rw [hc, hn] at h
      simp only [lift, after_done, onOk_ok] at h
      refine .inr ⟨context, slots, ?_⟩
      split at h
      · next hneeded =>
        rw [Bool.not_eq_true'] at hneeded
        split at h
        · exact ⟨_, rfl, rfl, (runs_done.mp h).2.1, rfl, rfl, iff_of_false (fun hd => by cases hd)
            fun hd => absurd hd.1 (hneeded ▸ Bool.false_ne_true)⟩
        · next hnoop =>
          exact absurd (fun _ => ⟨context, slots, hc, hn, hneeded, hnoop⟩) hstop
      · next hneeded =>
        rw [Bool.not_eq_true, Bool.not_eq_false'] at hneeded
        obtain ⟨_, _, y, _, -, hdwell, h⟩ := runs_after.mp h
        have hsatisfied : ∃ b, y = .ok b ∧
            (b = true ↔ Due profile t i (assessReloadNeed context slots profile plan)) := by
          split at hdwell
          · next hhard =>
            exact ⟨true, (runs_done.mp hdwell).2.1, iff_of_true rfl ⟨hneeded, .inl hhard⟩⟩
          · next hsoft =>
            obtain ⟨b, rfl, hb⟩ := reloadDwellSatisfied_runs hdwell
            exact ⟨b, rfl, by rw [hb, Due, or_iff_right hsoft, and_iff_right hneeded]⟩
        obtain ⟨b, rfl, hb⟩ := hsatisfied
        rw [onOk_ok] at h
        split at h
        · next htrue =>
          exact ⟨_, rfl, rfl, (runs_done.mp h).2.1, rfl, rfl, iff_of_true rfl (hb.mp htrue)⟩
        · next hfalse =>
          exact ⟨_, rfl, rfl, (runs_done.mp h).2.1, rfl, rfl, iff_of_false (fun hd => by cases hd)
            fun hd => hfalse (hb.mpr hd)⟩

/-! ### The list -/

lemma FirstMismatch.cons (hi : Passes profile plan i) (h : FirstMismatch profile plan t rest) :
    FirstMismatch profile plan t (i :: rest) := by
  obtain ⟨before, j, after, context, slots, rfl, hbefore, hj⟩ := h
  exact ⟨i :: before, j, after, context, slots, rfl, List.forall_mem_cons.mpr ⟨hi, hbefore⟩, hj⟩

/-- A decision to reload for a context that is too small is about the first instance. -/
lemma first_of_reload {l : List BackendInstance} {d : PlacementDecision} {context : ℤ}
    (h : (reloadDecision profile plan l).Runs (ReadsClock t) s es (.ok (some d)) s')
    (haction : d.action = .reload) (hcontext : d.currentLmsContextLength = some context)
    (hsmall : context < plan.maxRequiredContextTokens) : FirstMismatch profile plan t l := by
  induction l with
  | nil => cases (runs_done.mp h).2.1
  | cons i rest ih =>
    by_cases hpass : Passes profile plan i
    · exact (ih (reloadDecision_pass hpass ▸ h)).cons hpass
    · obtain ⟨hlive, ⟨e, he, -⟩ | ⟨_, slots, _, hc, hn, hd, -, hshown, hdue⟩⟩ :=
        reloadDecision_stop hpass h
      · cases he
      · cases hd
        obtain rfl := hshown.symm.trans hcontext
        exact ⟨[], i, rest, context, slots, rfl, fun j hj => absurd hj List.not_mem_nil,
          ⟨hlive, hc, hsmall⟩, hn, hdue.mp haction⟩

lemma reloads_of_first {l : List BackendInstance} {x : Except Exn (Option PlacementDecision)}
    (h : (reloadDecision profile plan l).Runs (ReadsClock t) s es x s')
    (hfirst : FirstMismatch profile plan t l) : Reloads plan l x := by
  obtain ⟨before, i, after, context, slots, rfl, hbefore, hmismatch, hn, hdue⟩ := hfirst
  induction before with
  | nil =>
    have hstop : ¬Passes profile plan i := fun hpass => by
      obtain ⟨_, _, hc, hn', hneeded, -⟩ := hpass hmismatch.live
      rw [hmismatch.known] at hc
      rw [hn] at hn'
      cases hc
      cases hn'
      exact absurd hdue.1 (hneeded ▸ Bool.false_ne_true)
    obtain ⟨-, ⟨e, -, he⟩ | ⟨_, _, d, hc, hn', rfl, hid, hshown, hreload⟩⟩ :=
      reloadDecision_stop hstop h
    · rw [hmismatch.known, hn] at he
      rcases he with he | he <;> cases he
    · rw [hmismatch.known] at hc
      rw [hn] at hn'
      cases hc
      cases hn'
      exact ⟨d, rfl, hreload.mpr hdue, i, List.mem_cons_self, context, hmismatch, hid, hshown⟩
  | cons j before ih =>
    obtain ⟨hj, hbefore⟩ := List.forall_mem_cons.mp hbefore
    rw [List.cons_append, reloadDecision_pass hj] at h
    obtain ⟨d, hx, haction, k, hk, hd⟩ := ih h hbefore
    exact ⟨d, hx, haction, k, List.mem_cons_of_mem _ hk, hd⟩

/-- The reload decision for a context plan, at the time `t`. -/
def ReloadsAt (t : DateTime) (profile : ModelProfile) (plan : ContextPlan)
    (l : List BackendInstance) : Prop :=
  ∀ s es x s', (reloadDecisionForContextPlan profile l (some plan)).Runs (ReadsClock t) s es x s' →
    Reloads plan l x

lemma reloadsAt_iff (hruntime : profile.runtime = "lmstudio") (l : List BackendInstance) :
    ReloadsAt t profile plan l ↔ FirstMismatch profile plan t l := by
  have hdecision : reloadDecisionForContextPlan profile l (some plan) =
      reloadDecision profile plan l := if_neg (not_not.mpr hruntime)
  rw [ReloadsAt, hdecision]
  constructor
  · intro h
    have hrun := runs_play (readsClock_answersAt t) (reloadDecision profile plan l) (noRecords t)
    obtain ⟨d, hd, haction, i, -, context, hi, -, hcontext⟩ := h _ _ _ _ hrun
    exact first_of_reload (hd ▸ hrun) haction hcontext hi.small
  · exact fun h s es x s' hr => reloads_of_first hr h

/-- **Hard mismatches** are reloaded if the first instance that is not passed over is one. -/
theorem hard_mismatch_reloaded_iff (t : DateTime) (profile : ModelProfile) (plan : ContextPlan)
    (l : List BackendInstance) (hruntime : profile.runtime = "lmstudio") :
    ((∃ i ∈ l, ∃ context, Mismatch plan i context) → ReloadsAt t profile plan l) ↔
      ((∃ i ∈ l, ∃ context, Mismatch plan i context) → FirstMismatch profile plan t l) :=
  imp_congr_right fun _ => reloadsAt_iff hruntime l

/-! ### Two instances -/

/-- The profile with the bucket that the plan recommends. -/
def bucketProfile : ModelProfile :=
  { lmstudioProfile "chat" "local-main" 8000 with lmsContextLength := some 16384 }

/-- One task, of 9000 tokens. -/
def longTask : ContextPlan where
  queuedTasks := 1
  maxRequiredContextTokens := 9000
  recommendedLmsContextLength := some 16384
  requestedParallel := 1
  recommendedLmsParallel := some 1
  totalSlotContextTokens := 16384
  contextCapTokens := none
  oversizedTasks := []
  reloadRequired := true
  taskContexts := []

def loadedWith (id : String) (context : ℤ) : BackendInstance :=
  { dryInstance id bucketProfile with metadata := [("lms_context_length", .int context)] }

lemma small_mismatch : Mismatch longTask (loadedWith "chat-2" 4096) 4096 :=
  ⟨.inl rfl, rfl, by decide⟩

/-- Too small an instance is reloaded where it comes first. -/
theorem hard_mismatch_reloaded_first : ReloadsAt (atSecond 60) bucketProfile longTask
    [loadedWith "chat-2" 4096, loadedWith "chat-1" 12288] :=
  (hard_mismatch_reloaded_iff (atSecond 60) bucketProfile longTask _ rfl).mpr
    (fun _ => ⟨[], loadedWith "chat-2" 4096, _, 4096, none, rfl,
      fun _ hj => absurd hj List.not_mem_nil, small_mismatch, rfl, by decide, .inl (by decide)⟩)
    ⟨loadedWith "chat-2" 4096, List.mem_cons_self, 4096, small_mismatch⟩

/-- The action decided with the small instance in the second place. -/
def actionSecond : Option ScaleAction :=
  match ((reloadDecisionForContextPlan bucketProfile
      [loadedWith "chat-1" 12288, loadedWith "chat-2" 4096] (some longTask)).play
        (fun c => answersAt (atSecond 60) [] c (noRecords (atSecond 60)))
        (noRecords (atSecond 60))).2.1 with
  | .ok d => d.map PlacementDecision.action
  | .error _ => none

/-- An instance with room for the task hides the small one behind it. -/
theorem hard_mismatch_hidden : ¬((∃ i ∈ [loadedWith "chat-1" 12288, loadedWith "chat-2" 4096],
    ∃ context, Mismatch longTask i context) → ReloadsAt (atSecond 60) bucketProfile longTask
      [loadedWith "chat-1" 12288, loadedWith "chat-2" 4096]) := by
  intro h
  have hnoop : actionSecond = some .noop := by decide +kernel
  have hreloads := h ⟨_, List.mem_cons_of_mem _ List.mem_cons_self, 4096, small_mismatch⟩
  obtain ⟨d, hd, haction, -⟩ :=
    hreloads _ _ _ _ (runs_play (readsClock_answersAt (atSecond 60)) _ _)
  rw [actionSecond, hd] at hnoop
  cases haction.symm.trans (Option.some.inj hnoop)

end Orchestrator.Lifecycle.HardMismatch
