import Orchestrator.StoreSound

/-!
The task store in its file: the writes that an operation makes to the disk, what a crash between
them leaves, and what a store that is opened on the file finds.

The file is replaced as a whole, so a crash leaves the text of the store before the operation or
of the store after it. What is read back are the same tasks: no time stamp of a reachable task is
an empty text, and all other fields pass their own checks.
-/

namespace Orchestrator.Durability

open Lib Clock TaskStore Idempotency FieldChecks

/-! ### Equality of decoded values -/

/-- `x == y` of decoded values: the order of the items of an object does not matter. -/
inductive Equal : Json → Json → Prop
  | refl (x : Json) : Equal x x
  | arr {l l' : List Json} (h : List.Forall₂ Equal l l') : Equal (.arr l) (.arr l')
  | obj {m n : List (String × Json)}
      (h : ∀ key, Option.Rel Equal (m.lookup key) (n.lookup key)) : Equal (.obj m) (.obj n)

lemma rel_refl {α : Type} {r : α → α → Prop} (h : ∀ a, r a a) (o : Option α) :
    Option.Rel r o o := by
  cases o with
  | none => exact .none
  | some a => exact .some (h a)

mutual
/-- `json.dumps` with sorted keys, and `json.loads`, give an equal value. -/
theorem equal_sortKeys : ∀ x : Json, Equal x x.sortKeys
  | .arr l => by
    rw [Json.sortKeys]
    exact .arr (equal_sortKeysList l)
  | .obj m => by
    rw [Json.sortKeys]
    refine .obj fun key => ?_
    rw [Json.lookup_sortItems]
    exact equal_sortKeysItems m key
  | .null | .bool _ | .int _ | .float _ | .str _ => by
    rw [Json.sortKeys]
    · exact .refl _
    all_goals nofun
theorem equal_sortKeysList : ∀ l : List Json, List.Forall₂ Equal l (Json.sortKeysList l)
  | [] => .nil
  | x :: l => .cons (equal_sortKeys x) (equal_sortKeysList l)
theorem equal_sortKeysItems : ∀ (m : List (String × Json)) (key : String),
    Option.Rel Equal (m.lookup key) ((Json.sortKeysItems m).lookup key)
  | [], _ => .none
  | (k, x) :: m, key => by
    rw [Json.sortKeysItems, Dict.lookup_cons_ite, Dict.lookup_cons_ite]
    split
    · exact .some (equal_sortKeys x)
    · exact equal_sortKeysItems m key
end

lemma equal_reloadItems (m : Mapping) : Equal (.obj m) (.obj (Json.reloadItems m)) := by
  rw [← Json.sortKeys_obj]
  exact equal_sortKeys _

/-- Every field of `u` equals that of `t`. -/
structure SameTask (t u : StoredTask) : Prop where
  plain : u = { t with
    payload := u.payload, orchestration := u.orchestration, artifacts := u.artifacts
    labels := u.labels, result := u.result, error := u.error }
  payload : Equal (.obj t.payload) (.obj u.payload)
  orchestration : Equal (.obj t.orchestration) (.obj u.orchestration)
  artifacts : Equal (.obj t.artifacts) (.obj u.artifacts)
  labels : Equal (.obj t.labels) (.obj u.labels)
  result : Option.Rel (fun m n => Equal (.obj m) (.obj n)) t.result u.result
  error : Option.Rel (fun m n => Equal (.obj m) (.obj n)) t.error u.error

lemma SameTask.refl (t : StoredTask) : SameTask t t :=
  ⟨rfl, .refl _, .refl _, .refl _, .refl _, rel_refl (fun _ => .refl _) _,
    rel_refl (fun _ => .refl _) _⟩

/-- The same tasks under the same ids, and the same index. -/
structure SameStore (s s' : TaskStore) : Prop where
  tasks : ∀ id, Option.Rel SameTask (s.tasksById.get? id) (s'.tasksById.get? id)
  index : ∀ pair, s'.idempotencyIndex.get? pair = s.idempotencyIndex.get? pair

lemma SameStore.refl (s : TaskStore) : SameStore s s :=
  ⟨fun _ => rel_refl SameTask.refl _, fun _ => rfl⟩

/-! ### Tasks that come back -/

/-- No time stamp is an empty text. -/
structure Stamped (t : StoredTask) : Prop where
  created : t.createdAt ≠ ""
  updated : t.updatedAt ≠ ""
  started : t.startedAt ≠ some ""
  finished : t.finishedAt ≠ some ""
  next : t.nextAttemptAt ≠ some ""

variable {t : StoredTask} {s s' : TaskStore}

lemma filter_nonempty {o : Option String} (h : o ≠ some "") : o.filter (· ≠ "") = o := by
  cases o with
  | none => rfl
  | some text =>
    have htext : text ≠ "" := fun hc => h (congrArg some hc)
    simp [Option.filter, htext]

namespace Stamped

lemma newTask (task : QueueTask) (stamp : Stamp) : Stamped (newTask task stamp) :=
  ⟨nowIso_ne_empty _, nowIso_ne_empty _, nofun, nofun, nofun⟩

lemma some_nowIso_ne (now : DateTime) : some (nowIso now) ≠ some "" :=
  fun hc => nowIso_ne_empty now (Option.some.inj hc)

lemma claimed (h : Stamped t) (now : DateTime) : Stamped (claimed now t) := by
  refine ⟨h.created, nowIso_ne_empty _, ?_, h.finished, nofun⟩
  unfold TaskStore.claimed
  split
  · next text htext =>
    have hne : text ≠ "" := fun hc => h.started (htext.trans (congrArg some hc))
    rw [if_neg hne]
    exact fun hc => hne (Option.some.inj hc)
  · exact some_nowIso_ne now

lemma succeeded (h : Stamped t) (now : DateTime) (result : Mapping) :
    Stamped (succeeded now result t) :=
  ⟨h.created, nowIso_ne_empty _, h.started, some_nowIso_ne now, nofun⟩

lemma failed (h : Stamped t) (now : DateTime) (error : Mapping) : Stamped (failed now error t) :=
  ⟨h.created, nowIso_ne_empty _, h.started, some_nowIso_ne now, nofun⟩

lemma cancelled (h : Stamped t) (now : DateTime) : Stamped (cancelled now t) :=
  ⟨h.created, nowIso_ne_empty _, h.started, some_nowIso_ne now, nofun⟩

lemma retried (h : Stamped t) (now : DateTime) (error : Mapping) {next : String} (hn : next ≠ "") :
    Stamped (retried now error next t) :=
  ⟨h.created, nowIso_ne_empty _, h.started, h.finished, fun hc => hn (Option.some.inj hc)⟩

/-- A task comes back with its fields, whenever it is read. -/
lemma reloaded_eq (h : Stamped t) (now : String) : t.reloaded now =
    { t with
      payload := Json.reloadItems t.payload
      orchestration := Json.reloadItems t.orchestration
      artifacts := Json.reloadItems t.artifacts
      labels := Json.reloadItems t.labels
      result := t.result.map Json.reloadItems
      error := t.error.map Json.reloadItems } := by
  rw [StoredTask.reloaded, if_neg h.created, if_neg h.updated, filter_nonempty h.started,
    filter_nonempty h.finished, filter_nonempty h.next]

lemma reloaded (h : Stamped t) (now : String) : Stamped (t.reloaded now) := by
  rw [h.reloaded_eq]
  exact ⟨h.created, h.updated, h.started, h.finished, h.next⟩

lemma sameTask (h : Stamped t) (now : String) : SameTask t (t.reloaded now) := by
  have hmap : ∀ o : Option Mapping,
      Option.Rel (fun m n => Equal (.obj m) (.obj n)) o (o.map Json.reloadItems) := by
    intro o
    cases o with
    | none => exact .none
    | some m => exact .some (equal_reloadItems m)
  rw [h.reloaded_eq]
  exact ⟨rfl, equal_reloadItems _, equal_reloadItems _, equal_reloadItems _, equal_reloadItems _,
    hmap _, hmap _⟩

lemma optionalString_optStr {o : Option String} (h : o ≠ some "") :
    optionalString (StoredTask.optStr o) = o := by
  have hsort := StoredTask.optionalString_sortKeys o
  rw [filter_nonempty h] at hsort
  cases o with
  | none => rfl
  | some text => simpa [StoredTask.optStr] using hsort

lemma optionalMappingOrNone_optObj (o : Option Mapping) (fieldName : String) :
    optionalMappingOrNone (StoredTask.optObj o) fieldName = .ok o := by
  cases o <;> rfl

/-- **The record of a task** gives the task back. -/
lemma fromRecord_toRecord (h : Stamped t) (now : String) :
    StoredTask.fromRecord now t.toRecord = .ok t := by
  have hstate : t.state.text.1 ≠ "" := t.state.text.ne_empty
  simp only [StoredTask.fromRecord, StoredTask.toRecord, Mapping.get_cons, String.reduceEq, if_true,
    if_false]
  simp [optionalString_optStr h.started, optionalString_optStr h.finished,
    optionalString_optStr h.next, optionalMappingOrNone_optObj, StoredTask.optionalString_getD,
    h.created, h.updated, Json.or, Json.truthy, hstate, bind, Except.bind, pure, Except.pure]
  rfl

end Stamped

/-! ### Stores that come back -/

/-- A store whose maps are inverse to each other and whose time stamps are no empty texts. -/
structure Kept (s : TaskStore) : Prop where
  inverse : Inverse s
  stamped : ∀ {id t}, s.tasksById.get? id = some t → Stamped t

lemma Kept.empty : Kept TaskStore.empty := ⟨Inverse.empty, nofun⟩

lemma Kept.updated {id : String} {t' : StoredTask} (hs : Kept s) (h : Updated id t t' s s')
    (ht : Stamped t') : Kept s' := by
  refine ⟨h.inverse hs.inverse, fun {x u} hu => ?_⟩
  rw [h.get?] at hu
  split at hu
  · cases hu
    exact ht
  · exact hs.stamped hu

lemma Kept.reloaded (hs : Kept s) {now : DateTime} (h : reload now s = .ok s') : Kept s' := by
  obtain ⟨hinv, hget⟩ := reload_spec hs.inverse h
  refine ⟨hinv, fun {id t} ht => ?_⟩
  rw [hget, Option.map_eq_some_iff] at ht
  obtain ⟨u, hu, rfl⟩ := ht
  exact (hs.stamped hu).reloaded _

/-- The retry times that callers pass are no empty texts. -/
def Dated : StoreOp → Prop
  | .recordRetry _ _ _ nextAttemptAt => nextAttemptAt ≠ ""
  | _ => True

lemma modify_kept (hs : Kept s) {id : String} {f : StoredTask → StoredTask}
    (hid : ∀ t, (f t).taskId = t.taskId) (hp : ∀ t, (f t).pair = t.pair)
    (hf : ∀ t, Stamped t → Stamped (f t)) (h : ∃ r, s.modify id f = (r, s')) : Kept s' := by
  obtain ⟨r, h⟩ := h
  rcases modify_cases hid hp h with ⟨-, rfl, -⟩ | ⟨t, -, hu⟩
  · exact hs
  · exact hs.updated hu (hf t (hs.stamped hu.before))

/-- **One operation** keeps the store in a form that comes back. -/
lemma storeStep_kept {op : StoreOp} (hs : Kept s) (hop : Dated op) (h : storeStep s op s') :
    Kept s' := by
  have hinv := (storeStep_keeps hs.inverse h).1
  cases op with
  | submitMany batch =>
    obtain ⟨-, r, h⟩ := h
    refine ⟨hinv, fun {id t} ht => ?_⟩
    rcases submitMany_new h ht with ht | ⟨b, -, rfl⟩
    · exact hs.stamped ht
    · exact .newTask b.1 b.2
  | claimNext now model =>
    obtain ⟨r, h⟩ := h
    rcases claimNext_cases hs.inverse h with ⟨_, -, rfl⟩ | ⟨-, rfl, -⟩ | ⟨t, -, -, hu⟩
    · exact hs
    · exact hs
    · exact hs.updated hu ((hs.stamped hu.before).claimed now)
  | recordResult now taskId result =>
    exact modify_kept hs (fun _ => by rfl) (fun _ => by rfl) (fun _ ht => ht.succeeded now result) h
  | recordError now taskId error =>
    exact modify_kept hs (fun _ => by rfl) (fun _ => by rfl) (fun _ ht => ht.failed now error) h
  | recordRetry now taskId error nextAttemptAt =>
    exact modify_kept hs (fun _ => by rfl) (fun _ => by rfl)
      (fun _ ht => ht.retried now error hop) h
  | cancelTask now tenant taskId =>
    obtain ⟨r, h⟩ := h
    rcases cancelTask_cases hs.inverse h with rfl | ⟨t, -, -, -, hu⟩
    · exact hs
    · exact hs.updated hu ((hs.stamped hu.before).cancelled now)
  | reload now => exact hs.reloaded h

/-- The index follows from the tasks. -/
lemma index_eq (hs : Inverse s) (hs' : Inverse s') (h : Extends s s')
    (h' : Extends s' s) (pair : String × String) :
    s'.idempotencyIndex.get? pair = s.idempotencyIndex.get? pair := by
  ext id
  exact ⟨hs'.index_extends hs h', hs.index_extends hs' h⟩

lemma Kept.sameStore (hs : Kept s) {now : DateTime} (h : reload now s = .ok s') :
    SameStore s s' := by
  obtain ⟨hinv, hget⟩ := reload_spec hs.inverse h
  have hback : Extends s' s := by
    intro id u hu
    rw [hget, Option.map_eq_some_iff] at hu
    obtain ⟨t, ht, rfl⟩ := hu
    exact ⟨t, ht, rfl⟩
  refine ⟨fun id => ?_, index_eq hs.inverse hinv (reload_extends hs.inverse h) hback⟩
  rw [hget]
  cases ht : s.tasksById.get? id with
  | none => exact .none
  | some t => exact .some ((hs.stamped ht).sameTask _)

/-- The moment at which the file is read does not matter. -/
lemma Kept.reload_congr (hs : Kept s) (now now' : DateTime) : reload now s = reload now' s := by
  rw [reload_eq, reload_eq, fileTasks, fileTasks]
  congr 2
  refine List.map_congr_left fun t ht => ?_
  have hmem : t ∈ s.tasks := (List.perm_insertionSort _ _).mem_iff.mp ht
  have hstamped := hs.stamped (hs.inverse.get?_of_mem hmem)
  rw [hstamped.reloaded_eq, hstamped.reloaded_eq]

/-! ### The disk -/

/-- The text of a file: what `json.dumps` writes of a value, or a part of it. -/
inductive FileText
  | dumped (payload : Json)
  | cut (payload : Json) (length : ℕ)

/-- `json.loads` of the text of a file. -/
def FileText.loads : FileText → Except Exn Json
  | .dumped payload => .ok payload.sortKeys
  | .cut _ _ => .error ⟨.jsonDecode, "JSONDecodeError", ""⟩

/-- The file of the store and the temporary file beside it. -/
structure Disk where
  file : Option FileText
  tmp : Option FileText

namespace Disk

/-- The disk while `_save_to_disk` writes the temporary file, before the rename. -/
def writing (d : Disk) (text : FileText) : Disk := { d with tmp := some text }

/-- The disk after the rename. -/
def renamed (d : Disk) : Disk := ⟨d.tmp, none⟩

/-- What `_save_to_disk` makes of the disk. -/
def save (s : TaskStore) (d : Disk) : Disk := (d.writing (.dumped s.saveToDisk)).renamed

/-- What a crash inside `_save_to_disk` may leave. -/
inductive Torn (s : TaskStore) (d : Disk) : Disk → Prop
  /-- before the temporary file is opened -/
  | untouched : Torn s d d
  /-- within the write -/
  | partly (length : ℕ) : Torn s d (d.writing (.cut s.saveToDisk length))
  /-- between the write and the rename -/
  | written : Torn s d (d.writing (.dumped s.saveToDisk))
  /-- after the rename -/
  | renamed : Torn s d (d.save s)

end Disk

/-- `JsonFileTaskStore(path)` -/
def openStore (now : DateTime) (d : Disk) : Except Exn TaskStore :=
  match d.file with
  | none => .ok TaskStore.empty
  | some text => text.loads >>= loadFromDisk (nowIso now)

/-- Whether an operation comes to `_after_mutation`. -/
def saves (s : TaskStore) : StoreOp → Bool
  | .submitMany batch => (submitMany batch s).1.toBool
  | .claimNext now model =>
    match (claimNext now model s).1 with
    | .ok (some _) => true
    | _ => false
  | .recordResult now taskId result => (recordResult now taskId result s).1.toBool
  | .recordError now taskId error => (recordError now taskId error s).1.toBool
  | .recordRetry now taskId error nextAttemptAt =>
    (recordRetry now taskId error nextAttemptAt s).1.toBool
  | .cancelTask _ tenant taskId =>
    match getTask tenant taskId s with
    | some t => !t.state.isTerminal
    | none => false
  | .reload _ => false

/-! ### The store in its file -/

/-- A `JsonFileTaskStore`. -/
structure FileStore where
  store : TaskStore
  disk : Disk

inductive FileStep
  /-- an operation that ends -/
  | complete (op : StoreOp)
  /-- the process ends, and the store is opened again -/
  | restart (now : DateTime)
  /-- the process crashes inside an operation's write, and the store is opened again -/
  | crash (op : StoreOp) (now : DateTime)

/-- A restart is no operation of the store. -/
def isOperation : StoreOp → Bool
  | .reload _ => false
  | _ => true

/-- `d` is a disk that an operation, which would lead to `s'`, may leave if the process crashes
inside it. -/
def CrashDisk (f : FileStore) (op : StoreOp) (s' : TaskStore) (d : Disk) : Prop :=
  isOperation op = true ∧ storeStep f.store op s' ∧
    if saves f.store op then Disk.Torn s' f.disk d else d = f.disk

def fileStep (f : FileStore) (l : FileStep) (f' : FileStore) : Prop :=
  match l with
  | .complete op => isOperation op = true ∧ storeStep f.store op f'.store ∧
      f'.disk = if saves f.store op then f.disk.save f'.store else f.disk
  | .restart now => openStore now f.disk = .ok f'.store ∧ f'.disk = f.disk
  | .crash op now =>
    (∃ s', CrashDisk f op s' f'.disk) ∧ openStore now f'.disk = .ok f'.store

def fileLts : Lts FileStore FileStep where
  init f := f = ⟨TaskStore.empty, ⟨none, none⟩⟩
  step := fileStep

/-- The retry times of the run are no empty texts. -/
def DatedStep (_ : FileStore) : FileStep → Prop
  | .complete op => Dated op
  | .crash op _ => Dated op
  | .restart _ => True

/-! ### What is found after a crash -/

/-- What the file holds: the store itself, or the store that was read into this one. -/
def OnDisk (f : FileStore) : Prop :=
  f.disk.file = none ∧ f.store = TaskStore.empty ∨
    ∃ s₀, Kept s₀ ∧ f.disk.file = some (.dumped s₀.saveToDisk) ∧
      (f.store = s₀ ∨ ∃ now, reload now s₀ = .ok f.store)

structure Inv (f : FileStore) : Prop where
  kept : Kept f.store
  onDisk : OnDisk f

/-- **Opening the file** gives the store it holds. -/
lemma Inv.open_spec {f : FileStore} (h : Inv f) (now : DateTime) :
    ∃ t, openStore now f.disk = .ok t ∧ SameStore f.store t ∧ Inv ⟨t, f.disk⟩ := by
  rcases h.onDisk with ⟨hfile, hstore⟩ | ⟨s₀, hs₀, hfile, hstore⟩
  · refine ⟨TaskStore.empty, by rw [openStore, hfile], ?_, Kept.empty, Or.inl ⟨hfile, rfl⟩⟩
    rw [hstore]
    exact SameStore.refl _
  · have hopen : openStore now f.disk = reload now s₀ := by
      rw [openStore, hfile]
      rfl
    have hread := reload_eq now s₀
    refine ⟨_, hopen.trans hread, ?_, hs₀.reloaded hread,
      Or.inr ⟨s₀, hs₀, hfile, Or.inr ⟨now, hread⟩⟩⟩
    rcases hstore with hstore | ⟨now', hstore⟩
    · rw [hstore]
      exact hs₀.sameStore hread
    · rw [hs₀.reload_congr now' now, hread, Except.ok.injEq] at hstore
      rw [hstore]
      exact SameStore.refl _

/-- An operation that does not save changes nothing. -/
lemma storeStep_unsaved {op : StoreOp} (hs : Inverse s) (hop : isOperation op = true)
    (hsaves : saves s op = false) (h : storeStep s op s') : s' = s := by
  have hmodify : ∀ {id : String} {f : StoredTask → StoredTask} (_ : ∀ t, (f t).taskId = t.taskId)
      (_ : ∀ t, (f t).pair = t.pair), (s.modify id f).1.toBool = false →
      (∃ r, s.modify id f = (r, s')) → s' = s := by
    rintro id f hid hp hfalse ⟨r, h⟩
    rcases modify_cases hid hp h with ⟨-, hs', -⟩ | ⟨t, rfl, -⟩
    · exact hs'
    · rw [h] at hfalse
      cases hfalse
  cases op with
  | submitMany batch =>
    obtain ⟨hf, r, h⟩ := h
    obtain ⟨outcomes, s'', he, -⟩ := submitMany_spec hs hf
    rw [saves, he] at hsaves
    cases hsaves
  | claimNext now model =>
    obtain ⟨r, h⟩ := h
    rcases claimNext_cases hs h with ⟨_, -, hs'⟩ | ⟨-, hs', -⟩ | ⟨t, rfl, -⟩
    · exact hs'
    · exact hs'
    · rw [saves, h] at hsaves
      cases hsaves
  | recordResult now taskId result => exact hmodify (fun _ => by rfl) (fun _ => by rfl) hsaves h
  | recordError now taskId error => exact hmodify (fun _ => by rfl) (fun _ => by rfl) hsaves h
  | recordRetry now taskId error nextAttemptAt =>
    exact hmodify (fun _ => by rfl) (fun _ => by rfl) hsaves h
  | cancelTask now tenant taskId =>
    obtain ⟨r, h⟩ := h
    rw [cancelTask] at h
    rw [saves] at hsaves
    split at h
    · exact (Prod.mk.inj h).2.symm
    · next t ht =>
      rw [ht] at hsaves
      split at h
      · exact (Prod.mk.inj h).2.symm
      · next hterm => simp [hterm] at hsaves
  | reload now => cases hop

/-- The disk of an operation that ends, or crashes after its rename. -/
lemma inv_saved {d : Disk} (h : Kept s) : Inv ⟨s, d.save s⟩ :=
  ⟨h, Or.inr ⟨s, h, rfl, Or.inl rfl⟩⟩

/-- A crash leaves the file as it was, or the file of the store after the operation. -/
lemma CrashDisk.cases {f : FileStore} {op : StoreOp} {d : Disk} (h : CrashDisk f op s' d) :
    d.file = f.disk.file ∨ d = f.disk.save s' := by
  obtain ⟨-, -, hd⟩ := h
  split at hd
  · cases hd with
    | untouched => exact Or.inl rfl
    | partly length => exact Or.inl rfl
    | written => exact Or.inl rfl
    | renamed => exact Or.inr rfl
  · rw [hd]
    exact Or.inl rfl

lemma Inv.of_file {f : FileStore} {d : Disk} (h : Inv f) (hd : d.file = f.disk.file) :
    Inv ⟨f.store, d⟩ := by
  refine ⟨h.kept, ?_⟩
  rw [OnDisk, hd]
  exact h.onDisk

/-- **One crash**: the store that is opened is the one before the operation, or the one after. -/
lemma Inv.crash {f : FileStore} (h : Inv f) {op : StoreOp} (hop : Dated op) {d : Disk}
    (hd : CrashDisk f op s' d) (now : DateTime) :
    ∃ t, openStore now d = .ok t ∧ (SameStore f.store t ∨ SameStore s' t) ∧ Inv ⟨t, d⟩ := by
  rcases hd.cases with hfile | rfl
  · obtain ⟨t, hopen, hsame, hinv⟩ := (h.of_file hfile).open_spec now
    exact ⟨t, hopen, Or.inl hsame, hinv⟩
  · have hs' := storeStep_kept h.kept hop hd.2.1
    obtain ⟨t, hopen, hsame, hinv⟩ := (inv_saved (d := f.disk) hs').open_spec now
    exact ⟨t, hopen, Or.inr hsame, hinv⟩

/-- **One step** keeps the file in agreement with the store. -/
lemma inv_step {f f' : FileStore} {l : FileStep} (h : Inv f) (hl : DatedStep f l)
    (hs : fileStep f l f') : Inv f' := by
  obtain ⟨s', d'⟩ := f'
  cases l with
  | complete op =>
    obtain ⟨hop, hstep, hd⟩ := hs
    cases hsaves : saves f.store op with
    | true =>
      rw [hsaves, if_pos rfl] at hd
      dsimp only at hd
      subst hd
      exact inv_saved (storeStep_kept h.kept hl hstep)
    | false =>
      have hsame : s' = f.store := storeStep_unsaved h.kept.inverse hop hsaves hstep
      rw [hsaves, if_neg Bool.false_ne_true] at hd
      dsimp only at hd
      subst hd hsame
      exact h
  | restart now =>
    obtain ⟨hopen, hd⟩ := hs
    obtain ⟨t, ht, -, hinv⟩ := h.open_spec now
    rw [ht] at hopen
    cases hopen
    dsimp only at hd
    subst hd
    exact hinv
  | crash op now =>
    obtain ⟨⟨s'', hd⟩, hopen⟩ := hs
    obtain ⟨t, ht, -, hinv⟩ := h.crash hl hd now
    rw [ht] at hopen
    cases hopen
    exact hinv

theorem inv_of_reachable {f : FileStore} (h : fileLts.Reachable DatedStep f) : Inv f :=
  h.invariant (I := Inv)
    (fun f h0 => by rw [show f = _ from h0]; exact ⟨Kept.empty, Or.inl ⟨rfl, rfl⟩⟩)
    fun _ _ _ hs hP hl => inv_step hs hP hl

/-- **Durability.** In every run of the store on its file, with restarts and crashes, every task
is what its record gives back, and opening the file gives the store. If the process crashes
anywhere inside the write of a next operation, opening the file does not raise and gives the store
before the operation or the store after it, every field of every task equal. -/
theorem crash_durable {f : FileStore} (h : fileLts.Reachable DatedStep f) :
    (∀ id t, f.store.tasksById.get? id = some t →
      ∀ now, StoredTask.fromRecord now t.toRecord = .ok t) ∧
    (∀ now, ∃ t, openStore now f.disk = .ok t ∧ SameStore f.store t) ∧
    ∀ op s' d, Dated op → CrashDisk f op s' d →
      ∀ now, ∃ t, openStore now d = .ok t ∧ (SameStore f.store t ∨ SameStore s' t) := by
  have hinv := inv_of_reachable h
  refine ⟨fun id t ht now => (hinv.kept.stamped ht).fromRecord_toRecord _, fun now => ?_,
    fun op s' d hop hd now => ?_⟩
  · obtain ⟨t, hopen, hsame, -⟩ := hinv.open_spec now
    exact ⟨t, hopen, hsame⟩
  · obtain ⟨t, hopen, hsame, -⟩ := hinv.crash hop hd now
    exact ⟨t, hopen, hsame⟩

/-- The first submission to a new store. -/
def sampleSubmission : List (QueueTask × Stamp) :=
  sampleBatch (⟨"task_1", nonBlank_task1⟩, ⟨"task_2", nonBlank_task2⟩, ⟨"task_3", nonBlank_task3⟩)

def sampleSubmitted : TaskStore := (submitMany sampleSubmission TaskStore.empty).2

/-- The disk when the process crashes after ten characters. -/
def sampleTorn : Disk := ⟨none, some (.cut sampleSubmitted.saveToDisk 10)⟩

theorem crash_durable_sample :
    ∃ t, openStore ⟨63892886400000000, sampleTime_lt⟩ sampleTorn = .ok t ∧
      (SameStore TaskStore.empty t ∨ SameStore sampleSubmitted t) := by
  have hstep : storeStep TaskStore.empty (.submitMany sampleSubmission) sampleSubmitted :=
    ⟨⟨by decide, fun _ _ => rfl⟩, _, rfl⟩
  have hcrash : CrashDisk ⟨TaskStore.empty, ⟨none, none⟩⟩ (.submitMany sampleSubmission)
      sampleSubmitted sampleTorn := ⟨rfl, hstep, Disk.Torn.partly 10⟩
  have hdated : Dated (.submitMany sampleSubmission) := trivial
  exact (crash_durable (Lts.Reachable.init rfl)).2.2 _ _ _ hdated hcrash _

end Orchestrator.Durability
