import Orchestrator.TaskParse
import Orchestrator.TaskStore

/-!
The task store kept in a JSON file: what `_save_to_disk` writes, what `_load_from_disk` makes of
a file, and a restart, which loads what the store last wrote.

Every mutation ends with a save, so the file of a running store is the image of its tasks.
-/

namespace Orchestrator

open PyText FieldChecks Clock

namespace Json

lemma lookup_orderedInsert (p : String × Json) (m : Mapping) (key : String) :
    (m.orderedInsert (fun p q => p.1 ≤ q.1) p).lookup key = (p :: m).lookup key := by
  induction m with
  | nil => rfl
  | cons q m ih =>
    rw [List.orderedInsert_cons]
    split
    · rfl
    · next h =>
      -- `p` moves behind `q`, whose key is another one
      have hne : p.1 ≠ q.1 := fun hc => h (le_of_eq hc)
      obtain ⟨k, v⟩ := p
      obtain ⟨k', v'⟩ := q
      rw [Lib.Dict.lookup_cons_ite, ih]
      simp only [Lib.Dict.lookup_cons_ite]
      by_cases hk : key = k
      · subst hk; simp [hne]
      · simp [hk]

lemma lookup_sortItems (m : Mapping) (key : String) : (sortItems m).lookup key = m.lookup key := by
  induction m with
  | nil => rfl
  | cons p m ih =>
    obtain ⟨k, v⟩ := p
    rw [sortItems, List.insertionSort_cons, lookup_orderedInsert, Lib.Dict.lookup_cons_ite,
      Lib.Dict.lookup_cons_ite, ← ih, sortItems]

lemma get_sortItems (m : Mapping) (key : String) : Mapping.get (sortItems m) key = m.get key := by
  rw [Mapping.get, lookup_sortItems, Mapping.get]

@[simp] lemma sortKeys_null : sortKeys .null = .null := by rw [sortKeys]; all_goals nofun
@[simp] lemma sortKeys_str (s : String) :
    sortKeys (.str s) = .str s := by rw [sortKeys]; all_goals nofun
@[simp] lemma sortKeys_int (n : ℤ) : sortKeys (.int n) = .int n := by rw [sortKeys]; all_goals nofun

/-- The items of an object after a round trip through a file. -/
def reloadItems (m : Mapping) : Mapping := sortItems (sortKeysItems m)

@[simp] lemma sortKeys_obj (m : Mapping) : sortKeys (.obj m) = .obj (reloadItems m) := by
  rw [sortKeys, reloadItems]

lemma get_sortKeysItems (m : Mapping) (key : String) :
    Mapping.get (sortKeysItems m) key = sortKeys (m.get key) := by
  induction m with
  | nil => simp [sortKeysItems, Mapping.get_nil]
  | cons p m ih =>
    obtain ⟨k, v⟩ := p
    rw [sortKeysItems, Mapping.get_cons, Mapping.get_cons, ih]
    split <;> rfl

lemma get_reloadItems (m : Mapping) (key : String) :
    Mapping.get (reloadItems m) key = sortKeys (m.get key) := by
  rw [reloadItems, get_sortItems, get_sortKeysItems]

end Json

namespace StoredTask

/-- A task after a round trip through the file. -/
def reloaded (now : String) (t : StoredTask) : StoredTask :=
  { t with
    payload := Json.reloadItems t.payload
    orchestration := Json.reloadItems t.orchestration
    artifacts := Json.reloadItems t.artifacts
    labels := Json.reloadItems t.labels
    createdAt := if t.createdAt = "" then now else t.createdAt
    updatedAt := if t.updatedAt = "" then now else t.updatedAt
    startedAt := t.startedAt.filter (· ≠ "")
    finishedAt := t.finishedAt.filter (· ≠ "")
    nextAttemptAt := t.nextAttemptAt.filter (· ≠ "")
    result := t.result.map Json.reloadItems
    error := t.error.map Json.reloadItems }

lemma optionalString_sortKeys (o : Option String) :
    optionalString (Json.sortKeys (optStr o)) = o.filter (· ≠ "") := by
  cases o with
  | none => simp [optStr]
  | some s =>
    rw [optStr, Json.sortKeys_str, optionalString_str]
    by_cases h : s = "" <;> simp [h, Option.filter]

lemma optionalMappingOrNone_sortKeys (o : Option Mapping) (fieldName : String) :
    optionalMappingOrNone (Json.sortKeys (optObj o)) fieldName = .ok (o.map Json.reloadItems) := by
  cases o with
  | none => simp [optObj, optionalMappingOrNone]
  | some m => simp [optObj, optionalMappingOrNone]

lemma optionalString_getD (s now : String) :
    (optionalString (.str s)).getD now = if s = "" then now else s := by
  rw [optionalString_str]
  split <;> rfl

/-- **A record read back** is the task, up to the order of keys. -/
theorem fromRecord_reloadItems (now : String) (t : StoredTask) :
    fromRecord now (Json.reloadItems t.toRecord) = .ok (t.reloaded now) := by
  have hs : t.state.text.1 ≠ "" := t.state.text.ne_empty
  simp only [fromRecord, Json.get_reloadItems]
  simp only [toRecord, Mapping.get_cons, String.reduceEq, if_true, if_false]
  simp [optionalString_sortKeys, optionalMappingOrNone_sortKeys, optionalString_getD, Json.or,
    Json.truthy, hs, bind, Except.bind, pure, Except.pure, reloaded]
  exact ⟨rfl, rfl⟩

end StoredTask

namespace TaskStore

/-- What `_save_to_disk` writes. -/
def saveToDisk (s : TaskStore) : Json :=
  .obj [("schema_version", .str TaskParse.schemaVersion),
    ("tasks", .arr ((s.tasks.insertionSort fun a b => a.taskId.1 ≤ b.taskId.1).map
      fun t => .obj t.toRecord))]

/-- The loop over the records of a file, from the index of the first. -/
def loadRecords (now : String) (index : ℕ) : List Json → Except Exn (List StoredTask)
  | [] => .ok []
  | raw :: rest =>
    match raw with
    | .obj record => do
      let task ← StoredTask.fromRecord now record
      let others ← loadRecords now (index + 1) rest
      pure (task :: others)
    | _ => .error (.taskProtocolError
        ("Task store tasks[" ++ toString index ++ "] must be an object."))

def loadFromDisk (now : String) (raw : Json) : Except Exn TaskStore :=
  match raw with
  | .obj m =>
    match (m.lookup "tasks").getD (.arr []) with
    | .arr rawTasks => (loadRecords now 0 rawTasks).map loadTasks
    | _ => .error (.taskProtocolError "Task store file field 'tasks' must be an array.")
  | _ => .error (.taskProtocolError "Task store file must contain a JSON object.")

/-- A restart: the store that is read from the file that this one has written. -/
def reload (now : DateTime) (s : TaskStore) : Except Exn TaskStore :=
  loadFromDisk (nowIso now) (Json.sortKeys s.saveToDisk)

/-- The tasks in the order of the file. -/
def fileTasks (now : DateTime) (s : TaskStore) : List StoredTask :=
  (s.tasks.insertionSort fun a b => a.taskId.1 ≤ b.taskId.1).map (StoredTask.reloaded (nowIso now))

lemma sortKeysList_eq (l : List Json) : Json.sortKeysList l = l.map Json.sortKeys := by
  induction l with
  | nil => rfl
  | cons x l ih => rw [Json.sortKeysList, ih, List.map_cons]

lemma loadRecords_reloaded (now : String) (index : ℕ) (l : List StoredTask) :
    loadRecords now index (l.map fun t => .obj (Json.reloadItems t.toRecord)) =
      .ok (l.map (StoredTask.reloaded now)) := by
  induction l generalizing index with
  | nil => rfl
  | cons t l ih =>
    simp only [List.map_cons, loadRecords, StoredTask.fromRecord_reloadItems, ih]
    rfl

/-- **A restart never fails**, and its tasks are those of the file. -/
theorem reload_eq (now : DateTime) (s : TaskStore) :
    reload now s = .ok (loadTasks (s.fileTasks now)) := by
  have htasks : (Json.reloadItems [("schema_version", .str TaskParse.schemaVersion),
      ("tasks", .arr ((s.tasks.insertionSort fun a b => a.taskId.1 ≤ b.taskId.1).map
        fun t => .obj t.toRecord))]).lookup "tasks" =
      some (.arr ((s.tasks.insertionSort fun a b => a.taskId.1 ≤ b.taskId.1).map
        fun t => .obj (Json.reloadItems t.toRecord))) := by
    rw [Json.reloadItems, Json.lookup_sortItems]
    simp [Json.sortKeysItems, Json.sortKeys, sortKeysList_eq, Lib.Dict.lookup_cons_ite,
      Json.reloadItems]
  rw [reload, saveToDisk, Json.sortKeys_obj, loadFromDisk, htasks]
  simp only [Option.getD_some, loadRecords_reloaded]
  rfl

end TaskStore

end Orchestrator
