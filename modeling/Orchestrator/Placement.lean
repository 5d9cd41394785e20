import Orchestrator.Runtime

/-!
Where an instance is placed: the GPU that the scheduler chooses.
-/

namespace Orchestrator.Lifecycle.Placement

open Lib

/-! ### The GPU -/

/-- `preferred_gpus` names the GPU, or any. -/
def Allowed (profile : ModelProfile) (gpu : GpuState) : Prop :=
  "auto" ∈ profile.preferredGpus ∨ gpu.id ∈ profile.preferredGpus ∨
    textOf gpu.index ∈ profile.preferredGpus

/-- The free memory of a GPU without what the records of the registry reserve there: each that is in
a reserving state counts as often as it lists the GPU. -/
def headroom (registry : Registry) (gpu : GpuState) : ℤ :=
  gpu.memoryFreeMb - (registry.list.map fun i =>
    if i.state.isReserved then i.gpuIds.count gpu.id * i.reservedVramMb else 0).sum

lemma headroom_eq (registry : Registry) (gpu : GpuState) :
    gpu.memoryFreeMb - registry.reservedVramByGpu gpu.id = headroom registry gpu := by
  rw [Registry.reservedVramByGpu_eq_sum]
  rfl

lemma mem_gpuCandidates {profile : ModelProfile} {gpus : List GpuState} {registry : Registry}
    {c : GpuState × ℤ} : c ∈ gpuCandidates profile gpus registry ↔
      c.1 ∈ gpus ∧ Allowed profile c.1 ∧ profile.requiredVramMb ≤ c.2 ∧
        c.2 = headroom registry c.1 := by
  obtain ⟨gpu, available⟩ := c
  simp only [gpuCandidates, List.mem_filterMap, List.mem_filter, headroom_eq, Bool.or_eq_true,
    decide_eq_true_eq, or_assoc]
  constructor
  · rintro ⟨g, ⟨hg, hallowed⟩, h⟩
    split at h
    · next hroom =>
      cases h
      exact ⟨hg, hallowed, hroom, rfl⟩
    · cases h
  · rintro ⟨hg, hallowed, hroom, rfl⟩
    exact ⟨gpu, ⟨hg, hallowed⟩, if_pos hroom⟩

lemma roomiest_eq_none {l : List (GpuState × ℤ)} : roomiest l = none ↔ l = [] := by
  cases l with
  | nil => exact iff_of_true rfl rfl
  | cons c l =>
    refine iff_of_false ?_ (List.cons_ne_nil _ _)
    rw [roomiest]
    split
    · simp
    · split <;> simp

lemma roomiest_greatest {l : List (GpuState × ℤ)} {c : GpuState × ℤ} (h : roomiest l = some c) :
    c ∈ l ∧ ∀ d ∈ l, d.2 ≤ c.2 := by
  induction l generalizing c with
  | nil => cases h
  | cons a l ih =>
    rw [roomiest] at h
    rw [List.forall_mem_cons]
    cases hrest : roomiest l with
    | none =>
      rw [hrest] at h
      cases h
      rw [roomiest_eq_none.mp hrest]
      exact ⟨List.mem_singleton_self _, le_refl _, fun d hd => absurd hd List.not_mem_nil⟩
    | some b =>
      rw [hrest] at h
      obtain ⟨hmem, hmax⟩ := ih hrest
      dsimp only at h
      split at h
      · next hlt =>
        cases h
        exact ⟨List.mem_cons_of_mem _ hmem, hlt.le, hmax⟩
      · next hge =>
        cases h
        exact ⟨List.mem_cons_self, le_refl _, fun d hd => (hmax d hd).trans (not_lt.mp hge)⟩

/-- **The scheduler starts an instance** just if an allowed GPU has room for it, and then on one
with the most room. -/
theorem chooseGpu_start_iff (profile : ModelProfile) (gpus : List GpuState) (registry : Registry) :
    ((chooseGpu profile gpus registry).action = .start ↔
      ∃ gpu ∈ gpus, Allowed profile gpu ∧
        profile.estimatedVramMb + profile.safetyMarginMb ≤ headroom registry gpu) ∧
    ((chooseGpu profile gpus registry).action = .start →
      ∃ gpu ∈ gpus, Allowed profile gpu ∧
        (chooseGpu profile gpus registry).gpuId = some gpu.id ∧
        (chooseGpu profile gpus registry).availableVramMb = some (headroom registry gpu) ∧
        ∀ other ∈ gpus, Allowed profile other →
          headroom registry other ≤ headroom registry gpu) := by
  rw [chooseGpu]
  dsimp only
  cases hc : roomiest (gpuCandidates profile gpus registry) with
  | none =>
    have hnil := roomiest_eq_none.mp hc
    refine ⟨iff_of_false (fun h => by cases h) ?_, fun h => by cases h⟩
    rintro ⟨gpu, hgpu, hallowed, hroom⟩
    have hmem : (gpu, headroom registry gpu) ∈ gpuCandidates profile gpus registry :=
      mem_gpuCandidates.mpr ⟨hgpu, hallowed, hroom, rfl⟩
    rw [hnil] at hmem
    exact List.not_mem_nil hmem
  | some c =>
    obtain ⟨gpu, available⟩ := c
    obtain ⟨hmem, hmax⟩ := roomiest_greatest hc
    obtain ⟨hgpu, hallowed, hroom, havailable⟩ := mem_gpuCandidates.mp hmem
    dsimp only at hgpu hallowed hroom havailable hmax
    subst havailable
    refine ⟨iff_of_true rfl ⟨gpu, hgpu, hallowed, hroom⟩, fun _ =>
      ⟨gpu, hgpu, hallowed, rfl, rfl, fun other hother hother' => ?_⟩⟩
    rcases lt_or_ge (headroom registry other) profile.requiredVramMb with hlt | hge
    · exact hlt.le.trans hroom
    · exact hmax (other, headroom registry other)
        (mem_gpuCandidates.mpr ⟨hother, hother', hge, rfl⟩)

end Orchestrator.Lifecycle.Placement
