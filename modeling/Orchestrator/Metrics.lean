import Mathlib.Data.Prod.Lex
import Mathlib.Data.List.Dedup
import Orchestrator.Lib.Exposition
import Orchestrator.RegistryFile

/-!
The metrics of the lifecycle service, as text.

All labels go through `prom_labels`, which escapes their values, but for those of the first block,
which has the runtimes of the instances as they are.
-/

namespace Orchestrator.Lifecycle.Metrics

open Lib Lib.Exposition Clock

/-! ### Labels -/

/-- `text.replace(c, new)` for one character -/
def replace (c : Char) (new : List Char) (text : List Char) : List Char :=
  text.flatMap fun d => if d = c then new else [d]

def promLabelValue (value : String) : String := String.ofList <|
  replace '"' ['\\', '"'] (replace '\n' ['\\', 'n'] (replace '\\' ['\\', '\\'] value.toList))

/-- `escape_label` of the queue proxy -/
def escapeLabel (value : String) : String := String.ofList <|
  replace '\n' ['\\', 'n'] (replace '"' ['\\', '"'] (replace '\\' ['\\', '\\'] value.toList))

def promLabel (x : String × String) : String := x.1 ++ "=\"" ++ promLabelValue x.2 ++ "\""

def promLabels (labels : List (String × String)) : String := ",".intercalate (labels.map promLabel)

/-- `f"{name}{{{labels}}} {value}"` -/
def line (name labels : String) (value : ℤ) : String :=
  name ++ "\x7b" ++ labels ++ "\x7d " ++ toString value

/-! ### The text -/

/-- What the controller has counted. -/
structure Counters where
  allocationResults : Dict (String × String) ℤ
  reloadResults : Dict (String × String × String) ℤ
  liveReconciliationResults : Dict (String × String) ℤ

/-- A GPU with what the inventory says of it besides. -/
structure GpuReport extends GpuState where
  name : String
  memoryTotalMb : ℤ
  memoryUsedMb : ℤ

/-- The states of the first block. -/
def countedStates : List BackendState :=
  [.starting, .warming, .ready, .draining, .failed, .stopped, .external]

/-- `sorted({instance.runtime for instance in instances} or {"none"})` -/
def runtimes (instances : List BackendInstance) : List String :=
  if instances.isEmpty then ["none"]
  else (instances.map BackendInstance.runtime).dedup.insertionSort fun a b => a ≤ b

/-- How many instances have the state and the runtime. -/
def instanceCount (instances : List BackendInstance) (x : BackendState × String) : ℤ :=
  instances.countP fun i => i.state = x.1 ∧ i.runtime = x.2

/-- The states and the runtimes of the first block. -/
def stateRuntimes (instances : List BackendInstance) : List (BackendState × String) :=
  countedStates.flatMap fun state => (runtimes instances).map fun runtime => (state, runtime)

/-- A line of the first block, which does not escape. -/
def stateLine (instances : List BackendInstance) (x : BackendState × String) : String :=
  line "llm_backend_instances" ("state=\"" ++ x.1.text ++ "\",runtime=\"" ++ x.2 ++ "\"")
    (instanceCount instances x)

def instanceLabels (i : BackendInstance) : List (String × String) :=
  [("model", i.model), ("runtime", i.runtime), ("state", i.state.text)]

/-- `sorted(results.items())`; the keys are distinct, so the counts are not compared. -/
def sortedItems {κ γ : Type} [LinearOrder γ] (key : κ → γ) (results : Dict κ ℤ) : List (κ × ℤ) :=
  results.entries.insertionSort fun p q => key p.1 ≤ key q.1

def gpuLabels (gpu : GpuReport) : List (String × String) :=
  [("gpu_id", gpu.id), ("gpu_index", toString gpu.index), ("name", gpu.name)]

/-- What the lines after the first block say, but for the last one. -/
def labelledSamples (instances : List BackendInstance) (counters : Counters)
    (gpus : Except Exn (List GpuReport)) : List Sample :=
  (instances.flatMap fun i =>
    [⟨"llm_backend_active_requests", instanceLabels i, i.activeRequests⟩,
     ⟨"llm_backend_reserved_vram_mb", instanceLabels i, i.reservedVramMb⟩]) ++
  ((sortedItems toLex counters.allocationResults).map fun p =>
    ⟨"llm_allocations_total", [("model", p.1.1), ("result", p.1.2)], p.2⟩) ++
  ((sortedItems (fun k => toLex (k.1, toLex k.2)) counters.reloadResults).map fun p =>
    ⟨"llm_reloads_total", [("model", p.1.1), ("result", p.1.2.1), ("reason", p.1.2.2)], p.2⟩) ++
  ((sortedItems toLex counters.liveReconciliationResults).map fun p =>
    ⟨"llm_lmstudio_reconciliations_total", [("model", p.1.1), ("state", p.1.2)], p.2⟩) ++
  match gpus with
  | .ok gpus => gpus.flatMap fun gpu =>
      [⟨"llm_gpu_memory_total_mb", gpuLabels gpu, gpu.memoryTotalMb⟩,
       ⟨"llm_gpu_memory_used_mb", gpuLabels gpu, gpu.memoryUsedMb⟩,
       ⟨"llm_gpu_memory_free_mb", gpuLabels gpu, gpu.memoryFreeMb⟩]
  | .error _ => []

/-- A line after the first block. -/
def labelledLine (s : Sample) : String := line s.name (promLabels s.labels) s.value

/-- Whether the GPU inventory has answered. -/
def inventoryUp : Except Exn (List GpuReport) → ℤ
  | .ok _ => 1
  | .error _ => 0

def lines (instances : List BackendInstance) (counters : Counters)
    (gpus : Except Exn (List GpuReport)) : List String :=
  (stateRuntimes instances).map (stateLine instances) ++
  (labelledSamples instances counters gpus).map labelledLine ++
  ["llm_gpu_inventory_up " ++ toString (inventoryUp gpus)]

/-- The body of the response to `GET /metrics`; `gpus` is the answer of the inventory, or an
`Exception`. -/
def metrics (registry : Registry) (counters : Counters) (gpus : Except Exn (List GpuReport)) :
    String :=
  "\n".intercalate (lines registry.list counters gpus) ++ "\n"

/-! ### What the text says -/

/-- The sample of a line of the first block. -/
def stateSample (instances : List BackendInstance) (x : BackendState × String) : Sample :=
  ⟨"llm_backend_instances", [("state", x.1.text), ("runtime", x.2)], instanceCount instances x⟩

/-- The samples that the metrics of the registry, of the counters and of the GPUs are. -/
def samples (instances : List BackendInstance) (counters : Counters)
    (gpus : Except Exn (List GpuReport)) : List Sample :=
  (stateRuntimes instances).map (stateSample instances) ++
  labelledSamples instances counters gpus ++
  [⟨"llm_gpu_inventory_up", [], inventoryUp gpus⟩]

/-- A text that is its own escape. -/
def Plain (text : String) : Prop := ∀ c ∈ text.toList, isSpecial c = false

/-- The replacements act as one map of the characters, in both of their orders. -/
lemma replace_char (c : Char) :
    replace '"' ['\\', '"'] (replace '\n' ['\\', 'n'] (if c = '\\' then ['\\', '\\'] else [c])) =
      escapeChar c ∧
    replace '\n' ['\\', 'n'] (replace '"' ['\\', '"'] (if c = '\\' then ['\\', '\\'] else [c])) =
      escapeChar c := by
  by_cases h1 : c = '\\'
  · subst h1
    exact ⟨rfl, rfl⟩
  by_cases h2 : c = '\n'
  · subst h2
    exact ⟨rfl, rfl⟩
  by_cases h3 : c = '"'
  · subst h3
    exact ⟨rfl, rfl⟩
  · simp [replace, escapeChar, h1, h2, h3]

lemma toList_promLabelValue (value : String) :
    (promLabelValue value).toList = escape value.toList := by
  rw [promLabelValue, String.toList_ofList, escape, ← funext fun c => (replace_char c).1]
  simp only [replace, List.flatMap_assoc]

lemma toList_escapeLabel (value : String) : (escapeLabel value).toList = escape value.toList := by
  rw [escapeLabel, String.toList_ofList, escape, ← funext fun c => (replace_char c).2]
  simp only [replace, List.flatMap_assoc]

lemma toList_promLabel (x : String × String) : (promLabel x).toList = labelText x := by
  simp [promLabel, labelText, toList_promLabelValue]

lemma toList_promLabels (labels : List (String × String)) :
    (promLabels labels).toList = labelsText labels := by
  rw [promLabels, labelsText, String.toList_intercalate, List.map_map]
  refine congrArg (List.intercalate _) (List.map_congr_left fun x _ => ?_)
  exact toList_promLabel x

/-- **Labels** are read back as they are, whatever their values, and the two services escape
alike. -/
theorem promLabels_readBack (labels : List (String × String))
    (h : ∀ x ∈ labels, isLabelName x.1 = true) :
    '\n' ∉ (promLabels labels).toList ∧
    parseLabels (promLabels labels).toList = some labels ∧
    (∀ labels', LabelsText (promLabels labels).toList labels' ↔ labels' = labels) ∧
    ∀ value, promLabelValue value = escapeLabel value := by
  have htext : LabelsText (promLabels labels).toList labels := by
    rw [toList_promLabels]
    exact labelsText_render h
  have hparse := parseLabels_of_labelsText htext
  refine ⟨?_, hparse, fun labels' => ⟨fun h' => ?_, ?_⟩, fun value => ?_⟩
  · rw [toList_promLabels]
    exact notMem_labelsText h
  · exact Option.some.inj ((parseLabels_of_labelsText h').symm.trans hparse)
  · rintro rfl
    exact htext
  · rw [← String.toList_inj, toList_promLabelValue, toList_escapeLabel]

/-- A value with each of the characters that are escaped, and one that looks like more labels. -/
theorem promLabels_readBack_escapes :
    (∀ x ∈ [("model", "a\\\"\nn"), ("job", "x\",y=\"\x7d")], isLabelName x.1 = true) ∧
    '\n' ∉ (promLabels [("model", "a\\\"\nn"), ("job", "x\",y=\"\x7d")]).toList ∧
    parseLabels (promLabels [("model", "a\\\"\nn"), ("job", "x\",y=\"\x7d")]).toList =
      some [("model", "a\\\"\nn"), ("job", "x\",y=\"\x7d")] := by
  have hnames : ∀ x ∈ [("model", "a\\\"\nn"), ("job", "x\",y=\"\x7d")], isLabelName x.1 = true := by
    decide
  have h := promLabels_readBack _ hnames
  exact ⟨hnames, h.1, h.2.1⟩

lemma toList_line (name labels : String) (value : ℤ) : (line name labels value).toList =
    name.toList ++ '{' :: labels.toList ++ ['}'] ++ ' ' :: valueText value := by
  simp [line, valueText]

lemma toList_labelledLine {s : Sample} (h : s.labels ≠ []) :
    (labelledLine s).toList = render s := by
  rw [labelledLine, toList_line, toList_promLabels, render, if_neg h]
  simp

lemma weight_escape (l : List Char) : weight (escape l) = weight l + l.countP isSpecial := by
  induction l with
  | nil => rfl
  | cons c l ih =>
    rw [escape_cons, weight_append, ih, weight_cons, List.countP_cons]
    cases hc : isSpecial c with
    | false =>
      rw [escapeChar_plain hc, weight_cons, weight_nil]
      simp only [Bool.false_eq_true, if_false]
      omega
    | true =>
      have hchar : weight (escapeChar c) = 2 ∧ isBlank c = false := by
        simp only [isSpecial, Bool.or_eq_true, decide_eq_true_eq] at hc
        obtain (rfl | rfl) | rfl := hc <;> decide
      simp only [hchar.1, hchar.2, Bool.false_eq_true, if_false, if_true]
      omega

/-- A state has a text that needs no escape. -/
lemma escape_state (s : BackendState) : escape s.text.toList = s.text.toList := by
  cases s <;> decide

/-- A line with two labels. -/
def pairText (name a b x y : List Char) (value : ℤ) : List Char :=
  name ++ '{' :: (a ++ ['=', '"'] ++ x ++ (['"', ','] ++ b ++ ['=', '"']) ++ y ++ ['"']) ++ ['}'] ++
    ' ' :: valueText value

lemma render_pair (name a b x y : String) (value : ℤ) : render ⟨name, [(a, x), (b, y)], value⟩ =
    pairText name.toList a.toList b.toList (escape x.toList) (escape y.toList) value := by
  simp [render, labelsText, labelText, pairText, List.intercalate_cons_cons]

/-- The second value adds its weight. -/
lemma weight_pairText (name a b x y : List Char) (value : ℤ) :
    weight (pairText name a b x y value) = weight (pairText name a b x [] value) + weight y := by
  simp only [pairText, weight_append, weight_cons, weight_nil]
  omega

lemma toList_stateLine (instances : List BackendInstance) (x : BackendState × String) :
    (stateLine instances x).toList = pairText "llm_backend_instances".toList "state".toList
      "runtime".toList x.1.text.toList x.2.toList (instanceCount instances x) := by
  have hfirst : "state=\"".toList = "state".toList ++ ['=', '"'] := by decide
  have hsecond : "\",runtime=\"".toList = ['"', ','] ++ "runtime".toList ++ ['=', '"'] := by decide
  have hlast : "\"".toList = ['"'] := by decide
  rw [stateLine, toList_line, pairText]
  simp only [String.toList_append, hfirst, hsecond, hlast]

lemma render_stateSample (instances : List BackendInstance) (x : BackendState × String) :
    render (stateSample instances x) = pairText "llm_backend_instances".toList "state".toList
      "runtime".toList x.1.text.toList (escape x.2.toList) (instanceCount instances x) := by
  rw [stateSample, render_pair, escape_state]

lemma plain_iff {text : String} : Plain text ↔ text.toList.countP isSpecial = 0 := by
  rw [List.countP_eq_zero]
  exact forall₂_congr fun c _ => (Bool.not_eq_true _).symm.to_iff

lemma lighter_stateLine (instances : List BackendInstance) (x : BackendState × String) :
    Lighter (stateLine instances x).toList (stateSample instances x) := by
  rw [Lighter, toList_stateLine, render_stateSample]
  by_cases h : Plain x.2
  · exact Or.inl (by rw [escape_plain h])
  · have hpos : 0 < x.2.toList.countP isSpecial := Nat.pos_of_ne_zero fun h0 => h (plain_iff.mpr h0)
    refine Or.inr ?_
    rw [weight_pairText, weight_pairText (y := escape _), weight_escape]
    omega

lemma stateLine_eq_render {instances : List BackendInstance} {x : BackendState × String} :
    (stateLine instances x).toList = render (stateSample instances x) ↔ Plain x.2 := by
  rw [toList_stateLine, render_stateSample]
  constructor
  · intro h
    have hweight := congrArg weight h
    rw [weight_pairText, weight_pairText (y := escape _), weight_escape] at hweight
    exact plain_iff.mpr (by omega)
  · intro h
    rw [escape_plain h]

lemma mem_runtimes {instances : List BackendInstance} {runtime : String} :
    runtime ∈ runtimes instances ↔
      (instances = [] ∧ runtime = "none") ∨ ∃ i ∈ instances, i.runtime = runtime := by
  rw [runtimes]
  cases instances with
  | nil => simp
  | cons i l =>
    rw [if_neg (by simp), (List.perm_insertionSort _ _).mem_iff, List.mem_dedup, List.mem_map]
    simp

lemma plain_stateRuntimes {instances : List BackendInstance} :
    (∀ x ∈ stateRuntimes instances, Plain x.2) ↔ ∀ i ∈ instances, Plain i.runtime := by
  constructor
  · intro h i hi
    refine h (.starting, i.runtime) (List.mem_flatMap.mpr ⟨.starting, by decide, ?_⟩)
    exact List.mem_map.mpr ⟨i.runtime, mem_runtimes.mpr (Or.inr ⟨i, hi, rfl⟩), rfl⟩
  · intro h x hx
    obtain ⟨state, -, hx⟩ := List.mem_flatMap.mp hx
    obtain ⟨runtime, hruntime, rfl⟩ := List.mem_map.mp hx
    rcases mem_runtimes.mp hruntime with ⟨-, rfl⟩ | ⟨i, hi, rfl⟩
    · show Plain "none"
      rw [plain_iff]
      decide
    · exact h i hi

/-! ### Lines -/

lemma valid_keys {name : String} {labels : List (String × String)} {value : ℤ}
    (keys : List String) (hkeys : labels.map Prod.fst = keys)
    (h : isMetricName name = true ∧ (∀ key ∈ keys, isLabelName key = true) ∧ keys.Nodup) :
    Sample.Valid ⟨name, labels, value⟩ where
  name := h.1
  labels x hx := h.2.1 x.1 (hkeys ▸ List.mem_map_of_mem hx)
  distinct := hkeys ▸ h.2.2

variable {instances : List BackendInstance} {counters : Counters}
  {gpus : Except Exn (List GpuReport)}

lemma valid_labelledSamples :
    ∀ s ∈ labelledSamples instances counters gpus, s.Valid ∧ s.labels ≠ [] := by
  have hnonempty : ∀ {x : String × String} {l : List (String × String)}, x :: l ≠ [] :=
    List.cons_ne_nil _ _
  intro s hs
  simp only [labelledSamples, List.mem_append, List.mem_flatMap, List.mem_map, List.mem_cons,
    List.not_mem_nil, or_false] at hs
  obtain (((⟨i, -, rfl | rfl⟩ | ⟨p, -, rfl⟩) | ⟨p, -, rfl⟩) | ⟨p, -, rfl⟩) | hs := hs
  · exact ⟨valid_keys ["model", "runtime", "state"] rfl (by decide), hnonempty⟩
  · exact ⟨valid_keys ["model", "runtime", "state"] rfl (by decide), hnonempty⟩
  · exact ⟨valid_keys ["model", "result"] rfl (by decide), hnonempty⟩
  · exact ⟨valid_keys ["model", "result", "reason"] rfl (by decide), hnonempty⟩
  · exact ⟨valid_keys ["model", "state"] rfl (by decide), hnonempty⟩
  · cases gpus with
    | error e => exact absurd hs List.not_mem_nil
    | ok gpus =>
      simp only [List.mem_flatMap, List.mem_cons, List.not_mem_nil, or_false] at hs
      obtain ⟨gpu, -, rfl | rfl | rfl⟩ := hs
      all_goals exact ⟨valid_keys ["gpu_id", "gpu_index", "name"] rfl (by decide), hnonempty⟩

lemma valid_samples : ∀ s ∈ samples instances counters gpus, s.Valid := by
  intro s hs
  rw [samples, List.mem_append, List.mem_append, List.mem_map, List.mem_singleton] at hs
  obtain (⟨x, -, rfl⟩ | hs) | rfl := hs
  · exact valid_keys ["state", "runtime"] rfl (by decide)
  · exact (valid_labelledSamples s hs).1
  · exact valid_keys [] rfl (by decide)

lemma toList_labelledLines :
    ((labelledSamples instances counters gpus).map labelledLine).map String.toList =
      (labelledSamples instances counters gpus).map render := by
  rw [List.map_map]
  exact List.map_congr_left fun s hs => toList_labelledLine (valid_labelledSamples s hs).2

lemma toList_inventoryLine : ("llm_gpu_inventory_up " ++ toString (inventoryUp gpus)).toList =
    render ⟨"llm_gpu_inventory_up", [], inventoryUp gpus⟩ := by
  have hname : "llm_gpu_inventory_up ".toList = "llm_gpu_inventory_up".toList ++ [' '] := by decide
  rw [String.toList_append, hname, render, if_pos rfl, List.append_nil, List.append_assoc]
  rfl

lemma lighter_lines :
    List.Forall₂ Lighter ((lines instances counters gpus).map String.toList)
      (samples instances counters gpus) := by
  rw [lines, List.map_append, List.map_append, toList_labelledLines, samples]
  refine List.rel_append (List.rel_append ?_ ?_) (.cons (Or.inl toList_inventoryLine) .nil)
  · rw [List.map_map, List.forall₂_map_left_iff, List.forall₂_map_right_iff, List.forall₂_same]
    exact fun x _ => lighter_stateLine instances x
  · rw [List.forall₂_map_left_iff, List.forall₂_same]
    exact fun s _ => Or.inl rfl

lemma toList_lines_eq_render : (lines instances counters gpus).map String.toList =
    (samples instances counters gpus).map render ↔ ∀ i ∈ instances, Plain i.runtime := by
  rw [← plain_stateRuntimes, lines, samples, List.map_append, List.map_append,
    toList_labelledLines, List.map_append, List.map_append]
  have hlast : ["llm_gpu_inventory_up " ++ toString (inventoryUp gpus)].map String.toList =
      [(⟨"llm_gpu_inventory_up", [], inventoryUp gpus⟩ : Sample)].map render :=
    congrArg (fun l => [l]) toList_inventoryLine
  rw [hlast, List.append_left_inj, List.append_left_inj, List.map_map, List.map_map,
    List.map_inj_left]
  exact forall₂_congr fun x _ => stateLine_eq_render

/-- The lines are separated by line feeds, and the last one ends with one. -/
lemma toList_joined {l : List String} (h : l ≠ []) :
    ("\n".intercalate l ++ "\n").toList = textOfLines (l.map String.toList) := by
  induction l with
  | nil => exact absurd rfl h
  | cons s l ih =>
    by_cases hl : l = []
    · subst hl
      rw [String.intercalate_singleton, String.toList_append]
      simp [textOfLines]
    · rw [String.intercalate_cons_of_ne_nil hl, String.append_assoc, String.append_assoc,
        String.toList_append, String.toList_append, ih hl]
      simp [textOfLines]

/-- **The metrics** expose their samples just if no runtime of an instance needs an escape. -/
theorem exposes_metrics_iff (r : Registry) :
    Exposes (metrics r counters gpus).toList (samples r.list counters gpus) ↔
      ∀ i ∈ r.list, Plain i.runtime := by
  have hlines : lines r.list counters gpus ≠ [] := by simp [lines]
  rw [metrics, toList_joined hlines, exposes_iff valid_samples lighter_lines,
    toList_lines_eq_render]

/-! ### Runs -/

lemma plain_keeps (settings : LifecycleSettings) :
    RecordKeeps settings (fun p => Plain p.runtime) fun i => Plain i.runtime where
  mark _ _ _ _ h := h
  adjust _ _ _ h := h
  reshape i j h hj := by
    by_cases hi : i.runtime = ""
    · rcases hj.runtime_empty hi with hj | hj
      · rwa [hj, ← hi]
      · show Plain j.runtime
        rw [hj, plain_iff]
        decide
    · rwa [hj.runtime hi]
  external i t h := by
    show Plain i.runtime
    rw [h.runtime, plain_iff]
    decide
  started profile i extra t hprofile _ h := by
    show Plain i.runtime
    rwa [h.runtime]

/-- **The metrics over runs**: each line is a sample, and its labels are the original texts, where
the steps act with profiles whose runtimes need no escape. In a given state this is so just if the
runtimes of the instances need none. -/
theorem metrics_exposed (counters : Counters) (gpus : Except Exn (List GpuReport)) (S : Server) :
    (serverLts.Reachable (ActsWith fun p => Plain p.runtime) S →
      Exposes (metrics S.processes.state.registry counters gpus).toList
        (samples S.processes.state.registry.list counters gpus)) ∧
    (Exposes (metrics S.processes.state.registry counters gpus).toList
        (samples S.processes.state.registry.list counters gpus) ↔
      ∀ i ∈ S.processes.state.registry.list, Plain i.runtime) := by
  refine ⟨fun h => ?_, exposes_metrics_iff _⟩
  have hrecords : Records (fun i => Plain i.runtime) S.processes.state := by
    refine server_records ?_ (fun settings _ => plain_keeps settings)
      (plain_keeps dynamicSettings).reshape h
    rintro p q ⟨_, _, _, rfl⟩ hp
    exact hp
  refine (exposes_metrics_iff _).mpr fun i hi => ?_
  obtain ⟨id, hid⟩ := Dict.mem_values.mp hi
  exact hrecords.2 id i hid

def noCounters : Counters := ⟨.empty, .empty, .empty⟩

theorem metrics_exposed_sample :
    Exposes (metrics (hintedServer "vllm").processes.state.registry noCounters (.ok [])).toList
      (samples (hintedServer "vllm").processes.state.registry.list noCounters (.ok [])) := by
  refine (metrics_exposed noCounters (.ok []) (hintedServer "vllm")).1 ?_
  have hruntime : ((hintedProfile "vllm").map ModelProfile.runtime) = some "vllm" := by
    decide +kernel
  refine reachable_hinted "vllm" (fun S calls hS => actsWith_hinted (fun p hp => ?_) hS calls)
    fun _ _ _ _ => trivial
  rw [hp] at hruntime
  rw [Option.some.inj hruntime, plain_iff]
  decide

/-- A runtime with a quote is asked for, and written between quotes as it is. -/
theorem quoted_runtime_breaks : ∃ S, serverLts.Reachable Lts.anyStep S ∧ ∃ counters gpus,
    ¬ Exposes (metrics S.processes.state.registry counters gpus).toList
      (samples S.processes.state.registry.list counters gpus) := by
  refine ⟨hintedServer "a\"b", reachable_hinted _ (fun _ _ _ => trivial) fun _ _ _ _ => trivial,
    noCounters, .ok [], fun h => ?_⟩
  have hany : (hintedServer "a\"b").processes.state.registry.list.any
      (fun i => i.runtime.toList.any isSpecial) = true := by decide +kernel
  obtain ⟨i, hi, hspecial⟩ := List.any_eq_true.mp hany
  obtain ⟨c, hc, hspecial⟩ := List.any_eq_true.mp hspecial
  rw [(exposes_metrics_iff _).mp h i hi c hc] at hspecial
  cases hspecial

end Orchestrator.Lifecycle.Metrics
