import Orchestrator.Durability
import Orchestrator.JsonText

/-!
The task store in the characters of its file. A save writes the text of `json.dumps`, a crash leaves
any beginning of it in the temporary file, and a store that is opened reads the characters of the
file with `json.loads`.

The values that the operations bring in must be faithful, as those are that `json.loads` gives.
-/

namespace Orchestrator.Json

open Lib.JsonText

variable {float : String → PyFloat}

/-! ### Sorted keys -/

lemma sortItems_perm (m : Mapping) : (sortItems m).Perm m := List.perm_insertionSort _ m

lemma sortKeysItems_keys (m : Mapping) : (sortKeysItems m).map Prod.fst = m.map Prod.fst := by
  induction m with
  | nil => rfl
  | cons p m ih =>
    obtain ⟨k, x⟩ := p
    rw [sortKeysItems, List.map_cons, List.map_cons, ih]

mutual
lemma faithful_sortKeys : ∀ x : Json, Faithful float x → Faithful float (sortKeys x)
  | .arr l, h => by
    rw [sortKeys, faithful_arr]
    exact faithful_sortKeysList l (faithful_arr.mp h)
  | .obj m, h => by
    obtain ⟨hnodup, hitems⟩ := faithful_obj.mp h
    have hperm := sortItems_perm (sortKeysItems m)
    rw [sortKeys, faithful_obj, (hperm.map Prod.fst).nodup_iff, sortKeysItems_keys]
    exact ⟨hnodup, fun p hp => faithful_sortKeysItems m hitems p (hperm.mem_iff.mp hp)⟩
  | .null, h => by simpa only [sortKeys] using h
  | .bool b, h => by simpa only [sortKeys] using h
  | .int n, h => by simpa only [sortKeys] using h
  | .float x, h => by simpa only [sortKeys] using h
  | .str s, h => by simpa only [sortKeys] using h
lemma faithful_sortKeysList : ∀ l : List Json, (∀ x ∈ l, Faithful float x) →
    ∀ x ∈ sortKeysList l, Faithful float x
  | [], _ => by simp [sortKeysList]
  | x :: l, h => by
    obtain ⟨hx, hl⟩ := List.forall_mem_cons.mp h
    rw [sortKeysList]
    exact List.forall_mem_cons.mpr ⟨faithful_sortKeys x hx, faithful_sortKeysList l hl⟩
lemma faithful_sortKeysItems : ∀ m : Mapping, (∀ p ∈ m, Faithful float p.2) →
    ∀ p ∈ sortKeysItems m, Faithful float p.2
  | [], _ => by simp [sortKeysItems]
  | (k, x) :: m, h => by
    obtain ⟨hx, hm⟩ := List.forall_mem_cons.mp h
    rw [sortKeysItems]
    exact List.forall_mem_cons.mpr ⟨faithful_sortKeys x hx, faithful_sortKeysItems m hm⟩
end

end Orchestrator.Json

namespace Orchestrator.StoreText

open Lib Lib.JsonText Clock TaskStore Idempotency Durability Json

variable {float : String → PyFloat} {s s' : TaskStore} {t : StoredTask}

/-! ### The text of a store -/

/-- `json.dumps(payload, ensure_ascii=True, indent=2, sort_keys=True)`, but for the order of keys -/
def fileStyle : Style where
  ascii := true
  indent := some 2
  afterComma := []
  afterColon := [' ']
  afterComma_blank := blank_nil
  afterColon_blank := blank_space

/-- The text that `_save_to_disk` writes, or `none` where `json.dumps` raises. -/
def saveText (s : TaskStore) : Option String := dumpsAs fileStyle s.saveToDisk.sortKeys

/-- What `_load_from_disk` makes of a text. -/
def loadText (float : String → PyFloat) (now : String) (text : String) : Except Exn TaskStore :=
  match loads float text with
  | some raw => loadFromDisk now raw
  | none => .error ⟨.jsonDecode, "JSONDecodeError", ""⟩

/-! ### Faithful tasks -/

/-- The values of a task that come from outside. -/
def valuesOf (t : StoredTask) : List Mapping :=
  [t.payload, t.orchestration, t.artifacts, t.labels] ++ (t.result.toList ++ t.error.toList)

def FaithfulTask (float : String → PyFloat) (t : StoredTask) : Prop :=
  ∀ m ∈ valuesOf t, Faithful float (.obj m)

def FaithfulStore (float : String → PyFloat) (s : TaskStore) : Prop :=
  ∀ id t, s.tasksById.get? id = some t → FaithfulTask float t

/-- The values that an operation brings in are faithful. -/
def FaithfulOp (float : String → PyFloat) : StoreOp → Prop
  | .submitMany batch => ∀ b ∈ batch,
      ∀ m ∈ [b.1.payload, b.1.orchestration, b.1.artifacts, b.1.labels], Faithful float (.obj m)
  | .recordResult _ _ value | .recordError _ _ value | .recordRetry _ _ value _ =>
      Faithful float (.obj value)
  | _ => True

lemma faithfulTask_iff : FaithfulTask float t ↔
    (∀ m ∈ [t.payload, t.orchestration, t.artifacts, t.labels], Faithful float (.obj m)) ∧
      (∀ m ∈ t.result.toList, Faithful float (.obj m)) ∧
      ∀ m ∈ t.error.toList, Faithful float (.obj m) := by
  simp only [FaithfulTask, valuesOf, List.forall_mem_append]

lemma FaithfulTask.newTask {task : QueueTask} (stamp : Stamp)
    (h : ∀ m ∈ [task.payload, task.orchestration, task.artifacts, task.labels],
      Faithful float (.obj m)) : FaithfulTask float (newTask task stamp) :=
  faithfulTask_iff.mpr ⟨h, (fun _ hm => by cases hm), (fun _ hm => by cases hm)⟩

lemma FaithfulTask.reloaded (h : FaithfulTask float t) (now : String) :
    FaithfulTask float (t.reloaded now) := by
  have hreload : ∀ m, Faithful float (.obj m) → Faithful float (.obj (reloadItems m)) := by
    intro m hm
    rw [← sortKeys_obj]
    exact faithful_sortKeys _ hm
  have htoList : ∀ o : Option Mapping,
      (o.map reloadItems).toList = o.toList.map reloadItems := by
    intro o
    cases o <;> rfl
  have hvalues : valuesOf (t.reloaded now) = (valuesOf t).map reloadItems := by
    simp [valuesOf, StoredTask.reloaded, htoList]
  intro m hm
  rw [hvalues] at hm
  obtain ⟨m', hm', rfl⟩ := List.mem_map.mp hm
  exact hreload m' (h m' hm')

/-- A task that keeps its values, but for a result and an error that are faithful. -/
lemma FaithfulTask.replaced {u : StoredTask} (h : FaithfulTask float t)
    (hvalues : [u.payload, u.orchestration, u.artifacts, u.labels] =
      [t.payload, t.orchestration, t.artifacts, t.labels])
    (hresult : ∀ m ∈ u.result.toList, m ∈ t.result.toList ∨ Faithful float (.obj m))
    (herror : ∀ m ∈ u.error.toList, m ∈ t.error.toList ∨ Faithful float (.obj m)) :
    FaithfulTask float u := by
  obtain ⟨hplain, hr, he⟩ := faithfulTask_iff.mp h
  refine faithfulTask_iff.mpr ⟨hvalues ▸ hplain, fun m hm => ?_, fun m hm => ?_⟩
  · exact (hresult m hm).elim (hr m) fun h => h
  · exact (herror m hm).elim (he m) fun h => h

lemma FaithfulTask.moved {u : StoredTask} (h : FaithfulTask float t)
    (hvalues : valuesOf u = valuesOf t) : FaithfulTask float u := by
  rw [FaithfulTask, hvalues]
  exact h

lemma FaithfulStore.updated {id : String} {u : StoredTask} (hs : FaithfulStore float s)
    (hu : Updated id t u s s') (htu : FaithfulTask float t → FaithfulTask float u) :
    FaithfulStore float s' := by
  intro x v hv
  rw [hu.get?] at hv
  split at hv
  · cases hv
    exact htu (hs id t hu.before)
  · exact hs x v hv

lemma modify_faithful (hs : FaithfulStore float s) {id : String} {f : StoredTask → StoredTask}
    (hid : ∀ t, (f t).taskId = t.taskId) (hp : ∀ t, (f t).pair = t.pair)
    (hf : ∀ t, FaithfulTask float t → FaithfulTask float (f t))
    (h : ∃ r, s.modify id f = (r, s')) : FaithfulStore float s' := by
  obtain ⟨r, h⟩ := h
  rcases modify_cases hid hp h with ⟨-, rfl, -⟩ | ⟨t, -, hu⟩
  · exact hs
  · exact hs.updated hu (hf t)

/-- **One operation** keeps the tasks faithful. -/
lemma storeStep_faithful {op : StoreOp} (hinv : Inverse s) (hs : FaithfulStore float s)
    (hop : FaithfulOp float op) (h : storeStep s op s') : FaithfulStore float s' := by
  cases op with
  | submitMany batch =>
    obtain ⟨-, r, h⟩ := h
    intro id t ht
    rcases submitMany_new h ht with ht | ⟨b, hb, rfl⟩
    · exact hs id t ht
    · exact .newTask b.2 (hop b hb)
  | claimNext now model =>
    obtain ⟨r, h⟩ := h
    rcases claimNext_cases hinv h with ⟨_, -, rfl⟩ | ⟨-, rfl, -⟩ | ⟨t, -, -, hu⟩
    · exact hs
    · exact hs
    · exact hs.updated hu fun ht => ht.moved rfl
  | recordResult now taskId result =>
    refine modify_faithful hs (fun _ => by rfl) (fun _ => by rfl) (fun t ht => ?_) h
    exact ht.replaced rfl (fun m hm => Or.inr (List.mem_singleton.mp hm ▸ hop))
      fun _ hm => by cases hm
  | recordError now taskId error | recordRetry now taskId error _ =>
    refine modify_faithful hs (fun _ => by rfl) (fun _ => by rfl) (fun t ht => ?_) h
    exact ht.replaced rfl (fun _ => Or.inl) fun m hm => Or.inr (List.mem_singleton.mp hm ▸ hop)
  | cancelTask now tenant taskId =>
    obtain ⟨r, h⟩ := h
    rcases cancelTask_cases hinv h with rfl | ⟨t, -, -, -, hu⟩
    · exact hs
    · exact hs.updated hu fun ht => ht.moved rfl
  | reload now =>
    obtain ⟨-, hget⟩ := reload_spec hinv h
    intro id t ht
    rw [hget, Option.map_eq_some_iff] at ht
    obtain ⟨u, hu, rfl⟩ := ht
    exact (hs id u hu).reloaded _

/-! ### What is read back -/

lemma faithful_toRecord (h : FaithfulTask float t) : Faithful float (.obj t.toRecord) := by
  obtain ⟨hplain, hresult, herror⟩ := faithfulTask_iff.mp h
  have hstr : ∀ o : Option String, Faithful float (StoredTask.optStr o) := by
    intro o
    cases o <;> simp [StoredTask.optStr, Faithful]
  have hobj : ∀ o : Option Mapping, (∀ m ∈ o.toList, Faithful float (.obj m)) →
      Faithful float (StoredTask.optObj o) := by
    intro o ho
    cases o with
    | none => simp [StoredTask.optObj, Faithful]
    | some m => exact ho m (List.mem_singleton.mpr rfl)
  have hkeys : t.toRecord.map Prod.fst = ["task_id", "tenant", "project", "service", "task",
      "job_id", "idempotency_key", "priority", "model", "endpoint", "estimated_input_tokens",
      "max_output_tokens", "required_context_tokens", "state", "payload", "orchestration",
      "artifacts", "labels", "created_at", "updated_at", "attempt_count", "started_at",
      "finished_at", "next_attempt_at", "result", "error"] := rfl
  simp only [List.forall_mem_cons, List.not_mem_nil, false_implies, implies_true,
    and_true] at hplain
  obtain ⟨hpayload, horchestration, hartifacts, hlabels⟩ := hplain
  refine faithful_obj.mpr ⟨by rw [hkeys]; decide, ?_⟩
  simp only [StoredTask.toRecord, List.forall_mem_cons, List.not_mem_nil, false_implies,
    implies_true, and_true]
  simp only [hpayload, horchestration, hartifacts, hlabels, hstr, hobj _ hresult, hobj _ herror,
    faithful_str, faithful_int, and_self]

lemma faithful_saveToDisk (hinv : Inverse s) (h : FaithfulStore float s) :
    Faithful float s.saveToDisk := by
  rw [saveToDisk, faithful_obj]
  refine ⟨by simp, ?_⟩
  simp only [List.forall_mem_cons, List.not_mem_nil, false_implies, implies_true, and_true,
    faithful_arr, faithful_str, true_and]
  intro x hx
  obtain ⟨t, ht, rfl⟩ := List.mem_map.mp hx
  have hmem : t ∈ s.tasks := (List.perm_insertionSort _ _).mem_iff.mp ht
  exact faithful_toRecord (h _ t (hinv.get?_of_mem hmem))

/-- **The text of a store** is read as the store. -/
theorem loadText_saveText (hinv : Inverse s) (h : FaithfulStore float s) {text : String}
    (htext : saveText s = some text) (now : DateTime) :
    loadText float (nowIso now) text = reload now s := by
  have hloads := loads_dumpsAs (faithful_sortKeys _ (faithful_saveToDisk hinv h)) htext
  rw [loadText, hloads]
  rfl

/-- **A text that is cut** is refused. -/
theorem loadText_cut {text part rest : String} (htext : saveText s = some text)
    (hpart : text = part ++ rest) (hrest : rest ≠ "") (now : String) :
    loadText float now part = .error ⟨.jsonDecode, "JSONDecodeError", ""⟩ := by
  rw [saveText, saveToDisk, sortKeys_obj] at htext
  rw [loadText, loads_cut htext hpart hrest]

/-! ### The store in the characters of its file -/

/-- The file and the temporary file beside it, in characters. -/
structure TextDisk where
  file : Option String
  tmp : Option String

/-- What a crash while `_save_to_disk` writes a text may leave. -/
inductive Torn (text : String) (d : TextDisk) : TextDisk → Prop
  /-- before the temporary file is opened -/
  | untouched : Torn text d d
  /-- before the rename: `write_text` may have come to any character -/
  | partly {part rest : String} (h : text = part ++ rest) : Torn text d { d with tmp := some part }
  /-- after the rename -/
  | renamed : Torn text d ⟨some text, none⟩

/-- A `JsonFileTaskStore`. -/
structure TextStore where
  store : TaskStore
  disk : TextDisk

/-- `JsonFileTaskStore(path)` -/
def openText (float : String → PyFloat) (now : DateTime) (d : TextDisk) : Except Exn TaskStore :=
  match d.file with
  | none => .ok TaskStore.empty
  | some text => loadText float (nowIso now) text

inductive TextStep
  /-- an operation that ends -/
  | complete (op : StoreOp)
  /-- an operation whose save raises in `json.dumps` -/
  | refused (op : StoreOp)
  /-- the process ends, and the store is opened again -/
  | restart (now : DateTime)
  /-- the process crashes inside an operation's write, and the store is opened again -/
  | crash (op : StoreOp) (now : DateTime)

/-- `d` is a disk that an operation, which would lead to `s'`, may leave if the process crashes
inside it. -/
def CrashText (f : TextStore) (op : StoreOp) (s' : TaskStore) (d : TextDisk) : Prop :=
  isOperation op = true ∧ storeStep f.store op s' ∧
    (d = f.disk ∨ saves f.store op = true ∧ ∃ text, saveText s' = some text ∧ Torn text f.disk d)

def textStep (float : String → PyFloat) (f : TextStore) (l : TextStep) (f' : TextStore) : Prop :=
  match l with
  | .complete op => isOperation op = true ∧ storeStep f.store op f'.store ∧
      if saves f.store op then ∃ text, saveText f'.store = some text ∧ f'.disk = ⟨some text, none⟩
      else f'.disk = f.disk
  | .refused op => isOperation op = true ∧ storeStep f.store op f'.store ∧
      saves f.store op = true ∧ saveText f'.store = none ∧ f'.disk = f.disk
  | .restart now => openText float now f.disk = .ok f'.store ∧ f'.disk = f.disk
  | .crash op now =>
    (∃ s', CrashText f op s' f'.disk) ∧ openText float now f'.disk = .ok f'.store

def textLts (float : String → PyFloat) : Lts TextStore TextStep where
  init f := f = ⟨TaskStore.empty, ⟨none, none⟩⟩
  step := textStep float

/-- The values of the run are faithful, its retry times are no empty texts, and no save raises. -/
def TextRun (float : String → PyFloat) (_ : TextStore) : TextStep → Prop
  | .complete op | .crash op _ => Dated op ∧ FaithfulOp float op
  | .refused _ => False
  | .restart _ => True

/-! ### What the characters say -/

/-- The characters of a file that holds a value. -/
def Spelled (float : String → PyFloat) (file : Option FileText) (text : Option String) : Prop :=
  file = none ∧ text = none ∨
    ∃ s₀ t, Kept s₀ ∧ FaithfulStore float s₀ ∧ saveText s₀ = some t ∧
      file = some (.dumped s₀.saveToDisk) ∧ text = some t

structure TextInv (float : String → PyFloat) (f : TextStore) : Prop where
  faithful : FaithfulStore float f.store
  holds : ∃ file, Inv ⟨f.store, ⟨file, none⟩⟩ ∧ Spelled float file f.disk.file

lemma Spelled.openText {file : Option FileText} {d : TextDisk} (h : Spelled float file d.file)
    (now : DateTime) : openText float now d = openStore now ⟨file, none⟩ := by
  rcases h with ⟨rfl, htext⟩ | ⟨s₀, text, hkept, hfaithful, hsave, rfl, htext⟩
  · rw [StoreText.openText, htext, openStore]
  · rw [StoreText.openText, htext, openStore]
    exact loadText_saveText hkept.inverse hfaithful hsave now

/-- The store that is read from the characters is faithful. -/
lemma Spelled.faithful {file : Option FileText} {d : TextDisk} (h : Spelled float file d.file)
    {now : DateTime} (hopen : StoreText.openText float now d = .ok s') :
    FaithfulStore float s' := by
  rcases h with ⟨-, htext⟩ | ⟨s₀, text, hkept, hfaithful, hsave, -, htext⟩
  · rw [StoreText.openText, htext] at hopen
    cases hopen
    intro id t ht
    cases ht
  · rw [StoreText.openText, htext] at hopen
    have hreload : storeStep s₀ (.reload now) s' :=
      (loadText_saveText hkept.inverse hfaithful hsave now).symm.trans hopen
    have hop : FaithfulOp float (.reload now) := trivial
    exact storeStep_faithful hkept.inverse hfaithful hop hreload

/-- **Opening the characters** gives the store they say. -/
lemma TextInv.open_spec {f : TextStore} (h : TextInv float f) (now : DateTime) :
    ∃ t, openText float now f.disk = .ok t ∧ SameStore f.store t ∧ TextInv float ⟨t, f.disk⟩ := by
  obtain ⟨file, hinv, hspelled⟩ := h.holds
  obtain ⟨t, hopen, hsame, ht⟩ := hinv.open_spec now
  have htext : openText float now f.disk = .ok t := (hspelled.openText now).trans hopen
  exact ⟨t, htext, hsame, hspelled.faithful htext, file, ht, hspelled⟩

/-- The disk of an operation that ends, or crashes after its rename. -/
lemma textInv_saved (hkept : Kept s) (hfaithful : FaithfulStore float s) {text : String}
    (htext : saveText s = some text) {tmp : Option String} :
    TextInv float ⟨s, ⟨some text, tmp⟩⟩ := by
  have hinv : Inv ⟨s, ⟨some (.dumped s.saveToDisk), none⟩⟩ :=
    inv_saved (d := ⟨none, none⟩) hkept
  exact ⟨hfaithful, _, hinv, Or.inr ⟨s, text, hkept, hfaithful, htext, rfl, rfl⟩⟩

lemma TextInv.kept {f : TextStore} (h : TextInv float f) : Kept f.store := by
  obtain ⟨file, hinv, -⟩ := h.holds
  exact hinv.kept

lemma TextInv.of_file {f : TextStore} {d : TextDisk} (h : TextInv float f)
    (hd : d.file = f.disk.file) : TextInv float ⟨f.store, d⟩ := by
  obtain ⟨file, hinv, hspelled⟩ := h.holds
  exact ⟨h.faithful, file, hinv, by rwa [hd]⟩

/-- **One crash**, at any character: the store that is opened is the one before the operation, or
the one after. -/
lemma TextInv.crash {f : TextStore} (h : TextInv float f) {op : StoreOp} (hdated : Dated op)
    (hop : FaithfulOp float op) {d : TextDisk} (hd : CrashText f op s' d) (now : DateTime) :
    ∃ t, openText float now d = .ok t ∧ (SameStore f.store t ∨ SameStore s' t) ∧
      TextInv float ⟨t, d⟩ := by
  obtain ⟨-, hstep, hdisk⟩ := hd
  have hfile : d.file = f.disk.file ∨ ∃ text, saveText s' = some text ∧ d = ⟨some text, none⟩ := by
    rcases hdisk with rfl | ⟨-, text, htext, htorn⟩
    · exact Or.inl rfl
    · cases htorn with
      | untouched => exact Or.inl rfl
      | partly _ => exact Or.inl rfl
      | renamed => exact Or.inr ⟨text, htext, rfl⟩
  rcases hfile with hfile | ⟨text, htext, rfl⟩
  · obtain ⟨t, hopen, hsame, hinv⟩ := (h.of_file hfile).open_spec now
    exact ⟨t, hopen, Or.inl hsame, hinv⟩
  · have hkept := storeStep_kept h.kept hdated hstep
    have hfaithful := storeStep_faithful h.kept.inverse h.faithful hop hstep
    have hsaved : TextInv float ⟨s', ⟨some text, none⟩⟩ := textInv_saved hkept hfaithful htext
    obtain ⟨t, hopen, hsame, hinv⟩ := hsaved.open_spec now
    exact ⟨t, hopen, Or.inr hsame, hinv⟩

/-- **One step** keeps the characters in agreement with the store. -/
lemma textInv_step {f f' : TextStore} {l : TextStep} (h : TextInv float f) (hl : TextRun float f l)
    (hs : textStep float f l f') : TextInv float f' := by
  obtain ⟨s', d'⟩ := f'
  cases l with
  | complete op =>
    obtain ⟨hop, hstep, hd⟩ := hs
    obtain ⟨hdated, hfaithful⟩ := hl
    split at hd
    · obtain ⟨text, htext, rfl⟩ := hd
      exact textInv_saved (storeStep_kept h.kept hdated hstep)
        (storeStep_faithful h.kept.inverse h.faithful hfaithful hstep) htext
    · next hsaves =>
      have hsame : s' = f.store :=
        storeStep_unsaved h.kept.inverse hop (Bool.not_eq_true _ ▸ hsaves) hstep
      dsimp only at hd
      subst hd hsame
      exact h
  | refused op => exact absurd hl id
  | restart now =>
    obtain ⟨hopen, hd⟩ := hs
    obtain ⟨t, ht, -, hinv⟩ := h.open_spec now
    rw [ht] at hopen
    cases hopen
    dsimp only at hd
    subst hd
    exact hinv
  | crash op now =>
    obtain ⟨⟨s'', hd⟩, hopen⟩ := hs
    obtain ⟨t, ht, -, hinv⟩ := h.crash hl.1 hl.2 hd now
    rw [ht] at hopen
    cases hopen
    exact hinv

theorem textInv_of_reachable {f : TextStore} (h : (textLts float).Reachable (TextRun float) f) :
    TextInv float f := by
  have hinit : TextInv float ⟨TaskStore.empty, ⟨none, none⟩⟩ :=
    ⟨fun _ _ ht => (by cases ht), none, ⟨Kept.empty, Or.inl ⟨rfl, rfl⟩⟩, Or.inl ⟨rfl, rfl⟩⟩
  exact h.invariant (I := TextInv float)
    (fun f h0 => by rw [show f = _ from h0]; exact hinit)
    fun _ _ _ hs hP hl => textInv_step hs hP hl

/-- **Durability, to the character.** In every run of the store on the characters of its file,
reading them gives the store. A crash may stop the next operation's write at any character: reading
the file does not raise and gives the store before the operation or the store after it, and no
part of the text that is missing a character is read as a store. -/
theorem text_durable {f : TextStore} (h : (textLts float).Reachable (TextRun float) f) :
    (∀ now, ∃ t, openText float now f.disk = .ok t ∧ SameStore f.store t) ∧
    ∀ op s' d, Dated op → FaithfulOp float op → CrashText f op s' d → ∀ now,
      (∃ t, openText float now d = .ok t ∧ (SameStore f.store t ∨ SameStore s' t)) ∧
      ∀ text part rest, saveText s' = some text → text = part ++ rest → rest ≠ "" →
        loadText float (nowIso now) part = .error ⟨.jsonDecode, "JSONDecodeError", ""⟩ := by
  have hinv := textInv_of_reachable h
  refine ⟨fun now => ?_, fun op s' d hdated hop hd now => ⟨?_, ?_⟩⟩
  · obtain ⟨t, hopen, hsame, -⟩ := hinv.open_spec now
    exact ⟨t, hopen, hsame⟩
  · obtain ⟨t, hopen, hsame, -⟩ := hinv.crash hdated hop hd now
    exact ⟨t, hopen, hsame⟩
  · intro text part rest htext hpart hrest
    exact loadText_cut htext hpart hrest _

/-- No numeral of the sample is a float. -/
def sampleFloat (_ : String) : PyFloat := ⟨"nan", .nan⟩

/-- The disk when the process crashes after ten characters of a text. -/
def sampleTorn (text : String) : TextDisk :=
  ⟨none, some (String.ofList (text.toList.take 10))⟩

theorem text_durable_sample :
    ∃ text t, saveText sampleSubmitted = some text ∧
      openText sampleFloat ⟨63892886400000000, sampleTime_lt⟩ (sampleTorn text) = .ok t ∧
      (SameStore TaskStore.empty t ∨ SameStore sampleSubmitted t) := by
  have hsome : (saveText sampleSubmitted).isSome = true := by decide +kernel
  obtain ⟨text, htext⟩ := Option.isSome_iff_exists.mp hsome
  have hstep : storeStep TaskStore.empty (.submitMany sampleSubmission) sampleSubmitted :=
    ⟨⟨by decide, fun _ _ => rfl⟩, _, rfl⟩
  have hpart : text =
      String.ofList (text.toList.take 10) ++ String.ofList (text.toList.drop 10) := by
    rw [← String.ofList_append, List.take_append_drop, String.ofList_toList]
  have hcrash : CrashText ⟨TaskStore.empty, ⟨none, none⟩⟩ (.submitMany sampleSubmission)
      sampleSubmitted (sampleTorn text) :=
    ⟨rfl, hstep, Or.inr ⟨rfl, text, htext, Torn.partly hpart⟩⟩
  have hfaithful : FaithfulOp sampleFloat (.submitMany sampleSubmission) := by
    have hempty : Faithful sampleFloat (.obj []) := by simp [faithful_obj]
    simp only [FaithfulOp, sampleSubmission, sampleBatch, sampleTask, List.forall_mem_cons, hempty,
      List.not_mem_nil, false_implies, implies_true, and_self]
  have hinit : (textLts sampleFloat).Reachable (TextRun sampleFloat)
      ⟨TaskStore.empty, ⟨none, none⟩⟩ := Lts.Reachable.init rfl
  have hdated : Dated (.submitMany sampleSubmission) := trivial
  obtain ⟨⟨t, hopen, hsame⟩, -⟩ := (text_durable hinit).2 _ _ _ hdated hfaithful hcrash
    ⟨63892886400000000, sampleTime_lt⟩
  exact ⟨text, t, htext, hopen, hsame⟩

end Orchestrator.StoreText
