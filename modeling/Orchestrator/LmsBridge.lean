import Orchestrator.JsonText
import Orchestrator.LifecycleSystem
import Orchestrator.TokenPolicy

/-!
The bridge to the `lms` command of the host: the HTTP handler that runs whitelisted subcommands, and
the shim that stands for `lms` in the container and sends every call there.

Whatever bytes arrive, the bridge runs no other command than a whitelisted one, in the arguments of
a complete JSON text. A call of the shim runs its command at most once, and exits with zero only if
the command has.
-/

namespace Orchestrator.LmsBridge

open Lib Lib.JsonText Json

/-! ### The host -/

/-- The `stdout` of a `TimeoutExpired`. -/
inductive Partial
  | nothing
  | text (s : String)
  | bytes (b : ByteArray)

/-- What `subprocess.run` gives. -/
inductive Outcome
  | completed (returncode : ℤ) (stdout stderr : String)
  | timeoutExpired (stdout : Partial)
  | fileNotFound
  | raised (e : Exn)

/-- What the host makes of a command and a timeout. -/
abbrev Host := List String → ℤ → Outcome

/-! ### The bridge -/

def allowedSubcommands : List String :=
  ["load", "unload", "ps", "ls", "server", "status", "version", "--version"]

def defaultTimeoutSeconds : ℤ := 1800

def runResult (returncode : ℤ) (stdout stderr : String) : Mapping :=
  [("returncode", .int returncode), ("stdout", .str stdout), ("stderr", .str stderr)]

/-- `exc.stdout or ""`; bytes are refused by the `json.dumps` that follows. -/
def Partial.orEmpty : Partial → Except Exn String
  | nothing => .ok ""
  | text s => .ok s
  | bytes b =>
    if b.isEmpty then .ok ""
    else .error (.typeError "Object of type bytes is not JSON serializable")

/-- The answer of the bridge to what the host has made of a command. -/
def Outcome.payload (lmsBinary : String) (timeoutS : ℤ) : Outcome → Except Exn Mapping
  | completed returncode stdout stderr => .ok (runResult returncode stdout stderr)
  | timeoutExpired stdout => stdout.orEmpty.map fun text =>
      runResult 124 text ("lms bridge: timed out after " ++ toString timeoutS ++ "s")
  | fileNotFound => .ok (runResult 127 ""
      ("lms bridge: lms binary not found at " ++ TokenPolicy.reprText (.str lmsBinary)))
  | raised e => .error e

variable (float : String → PyFloat) (lmsBinary : String) (host : Host)

/-- `run_lms`, with the commands that the host has run. -/
def runLms (args : List String) (timeoutS : ℤ) : Except Exn Mapping × List (List String) :=
  match args with
  | [] => (.ok (runResult 2 "" "lms bridge: empty args"), [])
  | subcommand :: rest =>
    if subcommand ∉ allowedSubcommands then
      (.ok (runResult 2 "" ("lms bridge: subcommand " ++ TokenPolicy.reprText (.str subcommand) ++
        " not allowed")), [])
    else
      let command := lmsBinary :: subcommand :: rest
      ((host command timeoutS).payload lmsBinary timeoutS, [command])

inductive Method
  | get
  | post
  deriving DecidableEq

/-- A request; of its body, the bytes that arrive before the peer ends. -/
structure Request where
  method : Method
  path : String
  contentLength : Option String
  body : ByteArray

/-- A response, or a connection that ends without one, where the handler raises. -/
inductive Reply
  | sent (code : ℕ) (body : ByteArray)
  | dropped (e : Exn)

/-- `json.dumps(x)` -/
def standard : Style where
  ascii := true
  indent := none
  afterComma := [' ']
  afterColon := [' ']
  afterComma_blank := blank_space
  afterColon_blank := blank_space

/-- `_send` -/
def send (code : ℕ) (payload : Mapping) : Reply :=
  match dumpsAs standard (.obj payload) with
  | some text => .sent code text.toUTF8
  | none => .dropped (.valueError "Exceeds the limit for integer string conversion")

def doGet (path : String) : Reply :=
  if path = "/health" then send 200 [("status", .str "ok"), ("lms_binary", .str lmsBinary)]
  else send 404 [("error", .str "not found")]

/-- `int(self.headers.get("Content-Length") or 0)` -/
def lengthOf (contentLength : Option String) : Except Exn ℤ :=
  match contentLength with
  | none => .ok 0
  | some text => if text = "" then .ok 0 else Json.toInt (.str text)

/-- `self.rfile.read(length)` -/
def readBody (length : ℤ) (body : ByteArray) : Except Exn ByteArray :=
  if length = -1 then .ok body
  else if length < 0 then .error (.valueError "read length must be non-negative or -1")
  else .ok (body.extract 0 length.toNat)

/-- The items, if all are strings. -/
def strings : List Json → Option (List String)
  | [] => some []
  | .str s :: rest => (strings rest).map fun l => s :: l
  | _ :: _ => none

/-- `args = payload.get("args") or []`, where it is a list of strings. -/
def argsOf (payload : Mapping) : Option (List String) :=
  match (payload.get "args").or (.arr []) with
  | .arr items => strings items
  | _ => none

def unicodeDecodeError : Exn := ⟨.other, "UnicodeDecodeError", "invalid start byte"⟩
def attributeError : Exn := ⟨.other, "AttributeError", "object has no attribute 'get'"⟩

/-- The reply to a command. -/
def reply : Except Exn Mapping × List (List String) → Reply × List (List String)
  | (.ok result, ran) => (send 200 result, ran)
  | (.error e, ran) => (.dropped e, ran)

/-- `do_POST` behind the parsing of the body. -/
def runPayload (payload : Mapping) : Reply × List (List String) :=
  match argsOf payload with
  | none => (send 400 (runResult 2 "" "args must be string[]"), [])
  | some args =>
    match ((payload.get "timeout").or (.int defaultTimeoutSeconds)).toInt with
    | .error e => (.dropped e, [])
    | .ok timeoutS => reply (runLms lmsBinary host args timeoutS)

/-- `do_POST` behind the reading of the body. -/
def runBody (text : String) : Reply × List (List String) :=
  match read (if text = "" then "\x7b\x7d" else text).toList with
  | none => (send 400 (runResult 2 "" "invalid json"), [])
  | some tree =>
    match ofTree float tree with
    | none => (.dropped (.valueError "Exceeds the limit for integer string conversion"), [])
    | some (.obj payload) => runPayload lmsBinary host payload
    | some _ => (.dropped attributeError, [])

def doPost (request : Request) : Reply × List (List String) :=
  if request.path ≠ "/run" then (send 404 [("error", .str "not found")], [])
  else
    match lengthOf request.contentLength >>= fun length => readBody length request.body with
    | .error e => (.dropped e, [])
    | .ok bytes =>
      match String.fromUTF8? bytes with
      | none => (.dropped unicodeDecodeError, [])
      | some text => runBody float lmsBinary host text

/-- The handler, with the commands that the host has run. -/
def handle (request : Request) : Reply × List (List String) :=
  match request.method with
  | .get => (doGet lmsBinary request.path, [])
  | .post => doPost float lmsBinary host request

/-! ### The shim -/

/-- What `main` of the shim has written, and what it returns or raises. -/
structure Exit where
  stdout : String
  stderr : String
  returned : Except Exn ℤ

/-- The exit status of a process that ends with `SystemExit(n)`. -/
def exitStatus (n : ℤ) : ℤ := if -2 ^ 63 ≤ n ∧ n < 2 ^ 63 then n % 256 else 255

def Exit.status (r : Exit) : ℤ :=
  match r.returned with
  | .ok n => exitStatus n
  | .error _ => 1

/-- `sys.maxsize`: no text is longer. -/
def maxSize : ℕ := 2 ^ 63 - 1

/-- The text that the shim sends. -/
def shimBody (args : List String) (timeoutSeconds : ℤ) : Option String :=
  (dumpsAs standard (.obj [("args", .arr (args.map .str)),
    ("timeout", .int timeoutSeconds)])).filter
    fun text => text.toUTF8.size ≤ maxSize

def shimRequest (body : ByteArray) : Request where
  method := .post
  path := "/run"
  contentLength := some (toString body.size)
  body := body

/-- `json.loads(response.read().decode("utf-8"))` -/
def readPayload (bytes : ByteArray) : Except Exn Json :=
  match String.fromUTF8? bytes with
  | none => .error unicodeDecodeError
  | some text =>
    match loads float text with
    | none => .error ⟨.jsonDecode, "JSONDecodeError", ""⟩
    | some payload => .ok payload

/-- `main` of the shim behind the call of the bridge. -/
def finish (response : Except Exn ByteArray) : Exit :=
  match response >>= readPayload float with
  | .error e => ⟨"", "lms shim: bridge call failed: " ++ e.message ++ "\n", .ok 127⟩
  | .ok (.obj payload) =>
    ⟨((Mapping.get payload "stdout").or (.str "")).toStr,
      ((Mapping.get payload "stderr").or (.str "")).toStr,
      ((Mapping.get payload "returncode").or (.int 0)).toInt⟩
  | .ok _ => ⟨"", "", .error attributeError⟩

/-! ### The connection -/

/-- What `urlopen` makes of a reply. -/
def received : Reply → Except Exn ByteArray
  | .sent code body =>
    if code < 400 then .ok body else .error ⟨.other, "HTTPError", "HTTP Error " ++ toString code⟩
  | .dropped _ => .error ⟨.other, "RemoteDisconnected",
      "Remote end closed connection without response"⟩

/-- An exchange of the shim with the bridge: what the shim gets, and what the host has run. -/
inductive Exchange (request : Request) : Except Exn ByteArray → List (List String) → Prop
  /-- the bridge is not reached -/
  | refused (e : Exn) : Exchange request (.error e) []
  /-- the connection breaks within the body -/
  | cut (n : ℕ) (h : n < request.body.size) (e : Exn) : Exchange request (.error e)
      (handle float lmsBinary host { request with body := request.body.extract 0 n }).2
  /-- the body ends early, and the bridge is heard nevertheless -/
  | ended (n : ℕ) (h : n < request.body.size) : Exchange request
      (received (handle float lmsBinary host { request with body := request.body.extract 0 n }).1)
      (handle float lmsBinary host { request with body := request.body.extract 0 n }).2
  /-- the connection breaks, or the shim is ended, before the reply is read -/
  | lost (e : Exn) : Exchange request (.error e) (handle float lmsBinary host request).2
  | answered : Exchange request (received (handle float lmsBinary host request).1)
      (handle float lmsBinary host request).2

/-! ### Bytes -/

lemma fromUTF8?_eq_some {b : ByteArray} {s : String} :
    String.fromUTF8? b = some s ↔ b = s.toUTF8 := by
  unfold String.fromUTF8?
  constructor
  · intro h
    split at h
    · exact congrArg String.toByteArray (Option.some.inj h)
    · cases h
  · rintro rfl
    have hvalid : s.toUTF8.IsValidUTF8 := s.isValidUTF8
    rw [dif_pos hvalid]
    rfl

/-- A part of the bytes of a text is no text, or a part of the text. -/
lemma fromUTF8?_cut {s part : String} {n : ℕ} (hn : n < s.toUTF8.size)
    (h : String.fromUTF8? (s.toUTF8.extract 0 n) = some part) :
    ∃ rest, s = part ++ rest ∧ rest ≠ "" := by
  have hbytes := fromUTF8?_eq_some.mp h
  have hsplit : part.toUTF8 ++ s.toUTF8.extract n s.toUTF8.size = s.toUTF8 := by
    rw [← hbytes, ← ByteArray.extract_eq_extract_append_extract n (by omega) (by omega),
      ByteArray.extract_zero_size]
  have hprefix : part.toList <+: s.toList := by
    apply List.isPrefix_of_utf8Encode_append_eq_utf8Encode (s.toUTF8.extract n s.toUTF8.size)
    simpa using hsplit
  obtain ⟨rest, hrest⟩ := hprefix
  refine ⟨String.ofList rest, ?_, ?_⟩
  · rw [← String.toList_inj, String.toList_append, String.toList_ofList, hrest]
  · rintro hempty
    have hrest : s = part := by
      rw [← String.toList_inj, ← hrest, show rest = [] by simpa using hempty, List.append_nil]
    have hsize := congrArg ByteArray.size hbytes
    rw [ByteArray.size_extract, ← hrest] at hsize
    omega

/-! ### What is run -/

variable {float lmsBinary host} {request : Request} {args : List String}

/-- The first argument is a whitelisted subcommand. -/
def Permitted (args : List String) : Prop := ∃ a ∈ args.head?, a ∈ allowedSubcommands

instance (args : List String) : Decidable (Permitted args) :=
  inferInstanceAs (Decidable (∃ a ∈ args.head?, a ∈ allowedSubcommands))

lemma runLms_permitted {timeoutS : ℤ} (h : Permitted args) :
    runLms lmsBinary host args timeoutS =
      ((host (lmsBinary :: args) timeoutS).payload lmsBinary timeoutS, [lmsBinary :: args]) := by
  obtain ⟨a, ha, hallowed⟩ := h
  cases args with
  | nil => cases ha
  | cons b rest =>
    obtain rfl := Option.some.inj ha
    rw [runLms, if_neg (not_not_intro hallowed)]

lemma runLms_refused {timeoutS : ℤ} (h : ¬ Permitted args) :
    ∃ text, runLms lmsBinary host args timeoutS = (.ok (runResult 2 "" text), []) := by
  cases args with
  | nil => exact ⟨_, rfl⟩
  | cons a rest =>
    have hallowed : a ∉ allowedSubcommands := fun ha => h ⟨a, rfl, ha⟩
    exact ⟨_, by rw [runLms, if_pos hallowed]⟩

/-- **What the host runs** of a call of the bridge. -/
lemma runLms_ran (timeoutS : ℤ) : (runLms lmsBinary host args timeoutS).2 =
    if Permitted args then [lmsBinary :: args] else [] := by
  by_cases hpermitted : Permitted args
  · rw [runLms_permitted hpermitted, if_pos hpermitted]
  · have hrefused : ∃ text, runLms lmsBinary host args timeoutS = (.ok (runResult 2 "" text), []) :=
      runLms_refused hpermitted
    obtain ⟨text, hrefused⟩ := hrefused
    rw [hrefused, if_neg hpermitted]

/-- Only a command that ends is answered with zero. -/
lemma payload_cases {outcome : Outcome} {timeoutS : ℤ} {result : Mapping}
    (h : outcome.payload lmsBinary timeoutS = .ok result) :
    ∃ returncode stdout stderr, result = runResult returncode stdout stderr ∧
      (exitStatus returncode = 0 → outcome = .completed returncode stdout stderr) := by
  have h124 : exitStatus 124 ≠ 0 := by decide
  have h127 : exitStatus 127 ≠ 0 := by decide
  cases outcome with
  | completed returncode stdout stderr =>
    exact ⟨returncode, stdout, stderr, (Except.ok.inj h).symm, fun _ => rfl⟩
  | timeoutExpired stdout =>
    rw [Outcome.payload] at h
    cases hstdout : stdout.orEmpty with
    | ok text =>
      rw [hstdout] at h
      exact ⟨124, _, _, (Except.ok.inj h).symm, fun hzero => absurd hzero h124⟩
    | error e =>
      rw [hstdout] at h
      cases h
  | fileNotFound => exact ⟨127, _, _, (Except.ok.inj h).symm, fun hzero => absurd hzero h127⟩
  | raised e => cases h

lemma runLms_cases {timeoutS : ℤ} {result : Mapping}
    (h : (runLms lmsBinary host args timeoutS).1 = .ok result) :
    ∃ returncode stdout stderr, result = runResult returncode stdout stderr ∧
      (exitStatus returncode = 0 → Permitted args ∧
        host (lmsBinary :: args) timeoutS = .completed returncode stdout stderr) := by
  by_cases hpermitted : Permitted args
  · rw [runLms_permitted hpermitted] at h
    obtain ⟨returncode, stdout, stderr, hresult, hcompleted⟩ := payload_cases h
    exact ⟨returncode, stdout, stderr, hresult, fun hzero => ⟨hpermitted, hcompleted hzero⟩⟩
  · have hrefused : ∃ text, runLms lmsBinary host args timeoutS = (.ok (runResult 2 "" text), []) :=
      runLms_refused hpermitted
    obtain ⟨text, hrefused⟩ := hrefused
    rw [hrefused] at h
    have h2 : exitStatus 2 ≠ 0 := by decide
    exact ⟨2, _, _, (Except.ok.inj h).symm, fun hzero => absurd hzero h2⟩

lemma strings_eq_some {items : List Json} : strings items = some args ↔ items = args.map .str := by
  induction items generalizing args with
  | nil => cases args <;> simp [strings]
  | cons x rest ih =>
    cases x with
    | str a =>
      rw [strings, Option.map_eq_some_iff]
      constructor
      · rintro ⟨l, hl, rfl⟩
        rw [List.map_cons, ih.mp hl]
      · intro h
        cases args with
        | nil => cases h
        | cons b l =>
          obtain ⟨hb, hl⟩ := List.cons.inj h
          exact ⟨l, ih.mpr hl, by rw [Json.str.inj hb]⟩
    | _ => cases args <;> simp [strings]

lemma argsOf_eq_some {payload : Mapping} (h : argsOf payload = some args) (hne : args ≠ []) :
    payload.get "args" = .arr (args.map .str) := by
  unfold argsOf at h
  split at h
  · next items hitems =>
    obtain rfl := strings_eq_some.mp h
    unfold Json.or at hitems
    split at hitems
    · exact hitems
    · rw [Json.arr.injEq, eq_comm, List.map_eq_nil_iff] at hitems
      exact absurd hitems hne
  · cases h

lemma reply_ran (r : Except Exn Mapping × List (List String)) : (reply r).2 = r.2 := by
  obtain ⟨result, ran⟩ := r
  cases result <;> rfl

lemma runPayload_ran {payload : Mapping} (h : (runPayload lmsBinary host payload).2 ≠ []) :
    ∃ args, payload.get "args" = .arr (args.map .str) ∧ Permitted args ∧
      (runPayload lmsBinary host payload).2 = [lmsBinary :: args] := by
  unfold runPayload at h ⊢
  split at h
  · exact absurd rfl h
  next args hargs =>
  split at h
  · exact absurd rfl h
  next timeoutS htimeout =>
  rw [reply_ran, runLms_ran] at h ⊢
  have hpermitted : Permitted args := by
    by_contra hne
    exact h (if_neg hne)
  have hne : args ≠ [] := by
    rintro rfl
    obtain ⟨a, ha, -⟩ := hpermitted
    cases ha
  exact ⟨args, argsOf_eq_some hargs hne, hpermitted, if_pos hpermitted⟩

/-- An empty body stands for no arguments. -/
lemma runBody_empty : runBody float lmsBinary host "" =
    (send 200 (runResult 2 "" "lms bridge: empty args"), []) := by
  have hread : read ['\x7b', '\x7d'] = some (.obj []) := by rfl
  simp only [runBody, if_pos]
  have htext : "\x7b\x7d".toList = ['\x7b', '\x7d'] := by rfl
  rw [htext, hread]
  rfl

/-- **What the bridge runs** on a text. -/
lemma runBody_ran {text : String} (h : (runBody float lmsBinary host text).2 ≠ []) :
    ∃ payload args, loads float text = some (.obj payload) ∧
      Mapping.get payload "args" = .arr (args.map .str) ∧ Permitted args ∧
      (runBody float lmsBinary host text).2 = [lmsBinary :: args] := by
  have htext : text ≠ "" := by
    rintro rfl
    rw [runBody_empty] at h
    exact h rfl
  unfold runBody at h ⊢
  split at h
  · exact absurd rfl h
  next tree htree =>
  split at h
  · exact absurd rfl h
  · next payload hpayload =>
    obtain ⟨args, hargs, hpermitted, hran⟩ := runPayload_ran h
    rw [if_neg htext] at htree
    refine ⟨payload, args, ?_, hargs, hpermitted, ?_⟩
    · rw [loads, htree, Option.bind_some, hpayload]
    · exact hran
  · exact absurd rfl h

/-! ### A call of the shim -/

variable {bytes part : ByteArray} {timeoutSeconds : ℤ}

lemma shimBody_eq_some {args : List String} {text : String} :
    shimBody args timeoutSeconds = some text ↔
      dumpsAs standard (.obj [("args", .arr (args.map .str)), ("timeout", .int timeoutSeconds)]) =
        some text ∧ text.toUTF8.size ≤ maxSize := by
  rw [shimBody, Option.filter_eq_some_iff, decide_eq_true_eq]

lemma lengthOf_size (h : bytes.size ≤ maxSize) :
    lengthOf (some (toString bytes.size)) = .ok bytes.size := by
  have hsize : bytes.size < 2 ^ 64 := h.trans_lt (by decide)
  have hparse : PyText.parseInt (toString bytes.size) = some (bytes.size : ℤ) :=
    PyText.parseInt_toString (n := bytes.size) (PyText.length_toDigits_le hsize)
  have hne : toString bytes.size ≠ "" := by
    intro hempty
    rw [hempty] at hparse
    cases hparse
  rw [lengthOf, if_neg hne, Json.toInt, hparse]

lemma handle_part (hmax : bytes.size ≤ maxSize) (h : part.size ≤ bytes.size) :
    handle float lmsBinary host { shimRequest bytes with body := part } =
      match String.fromUTF8? part with
      | none => (.dropped unicodeDecodeError, [])
      | some text => runBody float lmsBinary host text := by
  have hread : readBody bytes.size part = .ok part := by
    rw [readBody, if_neg (by omega), if_neg (by omega), Int.toNat_natCast]
    have hextract : part.extract 0 bytes.size = part := by
      rw [← max_eq_left h, ByteArray.extract_zero_max_size]
    rw [hextract]
  have hbody : (lengthOf (shimRequest bytes).contentLength >>= fun length => readBody length part) =
      .ok part := by
    rw [shimRequest, lengthOf_size hmax]
    exact hread
  have hpath : ¬ (shimRequest bytes).path ≠ "/run" := not_not_intro rfl
  have hpost : handle float lmsBinary host { shimRequest bytes with body := part } =
      doPost float lmsBinary host { shimRequest bytes with body := part } := rfl
  rw [hpost, doPost, if_neg hpath, hbody]

lemma finish_error (e : Exn) : (finish float (.error e)).status = 127 := rfl

lemma numeralOf_short {n : ℤ} (h : -2 ^ 63 ≤ n ∧ n < 2 ^ 63) :
    (numeralOf n).whole.length ≤ PyText.maxStrDigits :=
  PyText.length_toDigits_le (by omega)

lemma faithful_runResult (returncode : ℤ) (stdout stderr : String) :
    Faithful float (.obj (runResult returncode stdout stderr)) := by
  simp [faithful_obj, runResult]

variable {returncode : ℤ} {stdout stderr text : String}

/-- The shim passes on what the bridge has written. -/
lemma finish_written
    (h : dumpsAs standard (.obj (runResult returncode stdout stderr)) = some text) :
    finish float (received (.sent 200 text.toUTF8)) = ⟨stdout, stderr, .ok returncode⟩ := by
  have hloads : loads float text = some (.obj (runResult returncode stdout stderr)) :=
    loads_dumpsAs (faithful_runResult returncode stdout stderr) h
  have hbytes : String.fromUTF8? text.toUTF8 = some text := fromUTF8?_eq_some.mpr rfl
  have hpayload : (received (.sent 200 text.toUTF8) >>= readPayload float) =
      .ok (.obj (runResult returncode stdout stderr)) := by
    rw [received, if_pos (by omega)]
    simp only [bind, Except.bind, readPayload, hbytes, hloads]
  have hstr : ∀ s : String, ((Json.str s).or (.str "")).toStr = s := by
    intro s
    by_cases hs : s = "" <;> simp [Json.or, Json.truthy, Json.toStr, hs]
  have hint : ((Json.int returncode).or (.int 0)).toInt = .ok returncode := by
    by_cases hn : returncode = 0 <;> simp [Json.or, Json.truthy, Json.toInt, hn]
  have hget : Mapping.get (runResult returncode stdout stderr) "stdout" = .str stdout ∧
      Mapping.get (runResult returncode stdout stderr) "stderr" = .str stderr ∧
      Mapping.get (runResult returncode stdout stderr) "returncode" = .int returncode := by
    simp [runResult, Mapping.get_cons]
  obtain ⟨hout, herr, hcode⟩ := hget
  simp only [finish, hpayload, hout, herr, hcode, hstr, hint]

/-- A return code of a process is passed on. -/
lemma finish_send (h : -2 ^ 63 ≤ returncode ∧ returncode < 2 ^ 63) :
    finish float (received (send 200 (runResult returncode stdout stderr))) =
      ⟨stdout, stderr, .ok returncode⟩ := by
  have htext : ∃ text,
      dumpsAs standard (.obj (runResult returncode stdout stderr)) = some text := by
    simp [dumpsAs, runResult, toTree, toMembers, numeralOf_short h]
  obtain ⟨text, htext⟩ := htext
  rw [send, htext]
  exact finish_written htext

/-- Where the shim ends with zero, it has passed on what was sent. -/
lemma finish_send_zero
    (h : (finish float (received (send 200 (runResult returncode stdout stderr)))).status = 0) :
    exitStatus returncode = 0 ∧
      finish float (received (send 200 (runResult returncode stdout stderr))) =
        ⟨stdout, stderr, .ok returncode⟩ := by
  cases htext : dumpsAs standard (.obj (runResult returncode stdout stderr)) with
  | none =>
    rw [send, htext, received, finish_error] at h
    cases h
  | some text =>
    rw [send, htext] at h ⊢
    dsimp only at h ⊢
    rw [finish_written htext] at h ⊢
    exact ⟨h, rfl⟩

/-- A reply of another kind is a failure. -/
lemma finish_refused {code : ℕ} {payload : Mapping} (h : 400 ≤ code) :
    (finish float (received (send code payload))).status = 127 := by
  cases htext : dumpsAs standard (.obj payload) with
  | none =>
    rw [send, htext]
    exact finish_error _
  | some text =>
    rw [send, htext, received, if_neg (by omega)]
    exact finish_error _

/-- **A request cut short** runs nothing, and the shim does not take its reply for a success. -/
lemma handle_cut {σ : Style} {payload : Mapping} {n : ℕ}
    (htext : dumpsAs σ (.obj payload) = some text) (hmax : text.toUTF8.size ≤ maxSize)
    (hn : n < text.toUTF8.size)
    {r : Reply × List (List String)}
    (hr : r = handle float lmsBinary host
      { shimRequest text.toUTF8 with body := text.toUTF8.extract 0 n }) :
    r.2 = [] ∧ (finish float (received r.1)).status ≠ 0 := by
  have hsize : (text.toUTF8.extract 0 n).size ≤ text.toUTF8.size := by
    rw [ByteArray.size_extract]
    omega
  rw [handle_part hmax hsize] at hr
  cases hpart : String.fromUTF8? (text.toUTF8.extract 0 n) with
  | none =>
    rw [hpart] at hr
    subst hr
    exact ⟨rfl, by rw [received, finish_error]; decide⟩
  | some beginning =>
    rw [hpart] at hr
    dsimp only at hr
    obtain ⟨rest, hrest, hne⟩ := fromUTF8?_cut hn hpart
    have hloads : loads float beginning = none := loads_cut htext hrest hne
    by_cases hempty : beginning = ""
    · rw [hempty, runBody_empty] at hr
      subst hr
      refine ⟨rfl, ?_⟩
      rw [finish_send (by omega)]
      decide
    · rw [runBody, if_neg hempty] at hr
      split at hr
      · subst hr
        exact ⟨rfl, by rw [finish_refused (by omega)]; decide⟩
      · next tree htree =>
        rw [loads, htree, Option.bind_some] at hloads
        rw [hloads] at hr
        subst hr
        exact ⟨rfl, by rw [received, finish_error]; decide⟩

/-- The timeout that the bridge makes of that of the shim. -/
def bridgeTimeout (timeoutSeconds : ℤ) : ℤ :=
  if timeoutSeconds = 0 then defaultTimeoutSeconds else timeoutSeconds

lemma handle_shim (hbody : shimBody args timeoutSeconds = some text) :
    handle float lmsBinary host (shimRequest text.toUTF8) =
      reply (runLms lmsBinary host args (bridgeTimeout timeoutSeconds)) := by
  have hfaithful : Faithful float (.obj [("args", .arr (args.map .str)),
      ("timeout", .int timeoutSeconds)]) := by
    simp [faithful_obj, faithful_arr]
  obtain ⟨hdumps, hmax⟩ := shimBody_eq_some.mp hbody
  have hloads := loads_dumpsAs hfaithful hdumps
  have hne : text ≠ "" := by
    rintro rfl
    cases hloads
  obtain ⟨tree, htree, hvalue⟩ := Option.bind_eq_some_iff.mp hloads
  have hargs : argsOf [("args", .arr (args.map .str)), ("timeout", .int timeoutSeconds)] =
      some args := by
    rw [argsOf, Mapping.get_cons, if_pos rfl]
    cases args with
    | nil => rfl
    | cons a rest => exact strings_eq_some.mpr rfl
  have htimeout : ((Mapping.get [("args", .arr (args.map .str)), ("timeout", .int timeoutSeconds)]
      "timeout").or (.int defaultTimeoutSeconds)).toInt = .ok (bridgeTimeout timeoutSeconds) := by
    rw [Mapping.get_cons, if_neg (by decide), Mapping.get_cons, if_pos rfl, Json.or, bridgeTimeout]
    by_cases hzero : timeoutSeconds = 0 <;> simp [Json.truthy, Json.toInt, hzero]
  have hbytes : String.fromUTF8? text.toUTF8 = some text := fromUTF8?_eq_some.mpr rfl
  have hpart : handle float lmsBinary host (shimRequest text.toUTF8) =
      runBody float lmsBinary host text := by
    have hwhole : handle float lmsBinary host
        { shimRequest text.toUTF8 with body := text.toUTF8 } = _ := handle_part hmax le_rfl
    rw [hbytes] at hwhole
    exact hwhole
  rw [hpart, runBody, if_neg hne, htree]
  dsimp only
  rw [hvalue]
  dsimp only
  rw [runPayload, hargs]
  dsimp only
  rw [htimeout]

/-- What the host has run is nothing, or the command of the shim, once. -/
lemma handle_shim_ran (hbody : shimBody args timeoutSeconds = some text) :
    (handle float lmsBinary host (shimRequest text.toUTF8)).2 = [] ∨
      Permitted args ∧
        (handle float lmsBinary host (shimRequest text.toUTF8)).2 = [lmsBinary :: args] := by
  rw [handle_shim hbody, reply_ran, runLms_ran]
  by_cases hpermitted : Permitted args
  · exact Or.inr ⟨hpermitted, if_pos hpermitted⟩
  · exact Or.inl (if_neg hpermitted)

/-- **A shim that ends with zero** has passed on a command that the host has ended with zero. -/
lemma shim_zero (hbody : shimBody args timeoutSeconds = some text)
    (h : (finish float (received
      (handle float lmsBinary host (shimRequest text.toUTF8)).1)).status = 0) :
    Permitted args ∧ ∃ returncode stdout stderr,
      host (lmsBinary :: args) (bridgeTimeout timeoutSeconds) =
        .completed returncode stdout stderr ∧ exitStatus returncode = 0 ∧
      finish float (received (handle float lmsBinary host (shimRequest text.toUTF8)).1) =
        ⟨stdout, stderr, .ok returncode⟩ := by
  rw [handle_shim hbody] at h ⊢
  obtain ⟨⟨result, ran⟩, hran⟩ :
      ∃ r, runLms lmsBinary host args (bridgeTimeout timeoutSeconds) = r := ⟨_, rfl⟩
  rw [hran] at h ⊢
  cases result with
  | error e =>
    rw [reply, received, finish_error] at h
    cases h
  | ok payload =>
    have hpayload :
        (runLms lmsBinary host args (bridgeTimeout timeoutSeconds)).1 = .ok payload := by
      rw [hran]
    obtain ⟨returncode, stdout, stderr, rfl, hcompleted⟩ := runLms_cases hpayload
    obtain ⟨hzero, hfinish⟩ := finish_send_zero h
    obtain ⟨hpermitted, hhost⟩ := hcompleted hzero
    exact ⟨hpermitted, returncode, stdout, stderr, hhost, hzero, hfinish⟩

/-! ### Results -/

/-- No numeral of the sample is a float. -/
def sampleFloat (_ : String) : PyFloat := ⟨"nan", .nan⟩

def sampleHost : Host := fun _ _ => .completed 0 "Model loaded" ""

def sampleArgs : List String := ["load", "local-model"]

def sampleText : String := "\x7b\"args\": [\"load\", \"local-model\"], \"timeout\": 2000\x7d"

lemma sampleBody : shimBody sampleArgs 2000 = some sampleText := by decide +kernel

lemma sample_permitted : Permitted sampleArgs := by decide

/-- **The bridge runs** nothing but a whitelisted command, in the arguments of a complete JSON text
that was posted to `/run`; and it runs one command at most. -/
theorem bridge_runs (h : (handle float lmsBinary host request).2 ≠ []) :
    request.method = .post ∧ request.path = "/run" ∧ ∃ length bytes text payload args,
      lengthOf request.contentLength = .ok length ∧ readBody length request.body = .ok bytes ∧
      String.fromUTF8? bytes = some text ∧ loads float text = some (.obj payload) ∧
      Mapping.get payload "args" = .arr (args.map .str) ∧ Permitted args ∧
      (handle float lmsBinary host request).2 = [lmsBinary :: args] := by
  cases hmethod : request.method with
  | get =>
    rw [handle, hmethod] at h
    exact absurd rfl h
  | post =>
    rw [handle, hmethod] at h ⊢
    dsimp only at h ⊢
    by_cases hpath : request.path = "/run"
    · rw [doPost, if_neg (not_not_intro hpath)] at h ⊢
      cases hbytes :
        lengthOf request.contentLength >>= fun length => readBody length request.body with
      | error e =>
        rw [hbytes] at h
        exact absurd rfl h
      | ok bytes =>
        rw [hbytes] at h
        dsimp only at h ⊢
        cases htext : String.fromUTF8? bytes with
        | none =>
          rw [htext] at h
          exact absurd rfl h
        | some text =>
          rw [htext] at h
          obtain ⟨payload, args, hloads, hargs, hpermitted, hran⟩ := runBody_ran h
          obtain ⟨length, hlength, hread⟩ := bind_eq_ok.mp hbytes
          exact ⟨rfl, hpath, length, bytes, text, payload, args, hlength, hread, htext, hloads,
            hargs, hpermitted, hran⟩
    · rw [doPost, if_pos hpath] at h
      exact absurd rfl h

theorem bridge_runs_sample : ∃ args, Permitted args ∧
    (handle sampleFloat "lms" sampleHost (shimRequest sampleText.toUTF8)).2 = ["lms" :: args] := by
  have hran : (handle sampleFloat "lms" sampleHost (shimRequest sampleText.toUTF8)).2 ≠ [] := by
    rw [handle_shim sampleBody, reply_ran, runLms_ran, if_pos sample_permitted]
    exact List.cons_ne_nil _ _
  obtain ⟨-, -, _, _, _, _, args, -, -, -, -, -, hpermitted, hargs⟩ := bridge_runs hran
  exact ⟨args, hpermitted, hargs⟩

/-- **A call of the shim.** Whatever becomes of the connection, the host runs the command of the
shim at most once, and only if it is whitelisted. The shim ends with zero only if the host has run
the command and it has ended with zero; then it writes what the command has written. In a complete
exchange a command that ends is passed on as it is. -/
theorem shim_exact {answer : Except Exn ByteArray} {ran : List (List String)}
    (hbody : shimBody args timeoutSeconds = some text)
    (h : Exchange float lmsBinary host (shimRequest text.toUTF8) answer ran) :
    (ran = [] ∨ Permitted args ∧ ran = [lmsBinary :: args]) ∧
    ((finish float answer).status = 0 → ran = [lmsBinary :: args] ∧ ∃ returncode stdout stderr,
      host (lmsBinary :: args) (bridgeTimeout timeoutSeconds) =
        .completed returncode stdout stderr ∧ exitStatus returncode = 0 ∧
      finish float answer = ⟨stdout, stderr, .ok returncode⟩) ∧
    ∀ returncode stdout stderr, Permitted args →
      host (lmsBinary :: args) (bridgeTimeout timeoutSeconds) =
        .completed returncode stdout stderr → -2 ^ 63 ≤ returncode → returncode < 2 ^ 63 →
      finish float (received (handle float lmsBinary host (shimRequest text.toUTF8)).1) =
        ⟨stdout, stderr, .ok returncode⟩ := by
  obtain ⟨hdumps, hmax⟩ := shimBody_eq_some.mp hbody
  refine ⟨?_, fun hzero => ?_, fun returncode stdout stderr hpermitted hhost hlow hhigh => ?_⟩
  · cases h with
    | refused e => exact Or.inl rfl
    | cut n hn e => exact Or.inl (handle_cut hdumps hmax hn rfl).1
    | ended n hn => exact Or.inl (handle_cut hdumps hmax hn rfl).1
    | lost e => exact handle_shim_ran hbody
    | answered => exact handle_shim_ran hbody
  · cases h with
    | refused e | cut _ _ e | lost e =>
      rw [finish_error] at hzero
      cases hzero
    | ended n hn => exact absurd hzero (handle_cut hdumps hmax hn rfl).2
    | answered =>
      obtain ⟨hpermitted, hcompleted⟩ := shim_zero hbody hzero
      refine ⟨?_, hcompleted⟩
      rw [handle_shim hbody, reply_ran, runLms_ran, if_pos hpermitted]
  · rw [handle_shim hbody, runLms_permitted hpermitted, hhost]
    exact finish_send ⟨hlow, hhigh⟩

theorem shim_exact_sample :
    finish sampleFloat (received (handle sampleFloat "lms" sampleHost
      (shimRequest sampleText.toUTF8)).1) = ⟨"Model loaded", "", .ok 0⟩ :=
  (shim_exact sampleBody Exchange.answered).2.2 0 "Model loaded" "" sample_permitted rfl
    (by omega) (by omega)

/-! ### The load of a model -/

/-- `subprocess.run(command, check=True)` of a command that ends so. -/
def answerOf (status : ℤ) (stdout stderr : String) : Except Lifecycle.RunError Unit :=
  if status = 0 then .ok () else .error (.calledProcess stdout stderr)

/-- `subprocess.run(command, check=True)` of the shim. -/
def Exit.answer (r : Exit) : Except Lifecycle.RunError Unit := answerOf r.status r.stdout r.stderr

lemma permitted_load (profile : Lifecycle.ModelProfile) :
    Permitted (Lifecycle.lmstudioLoadCommand profile).tail :=
  ⟨"load", rfl, by decide⟩

open Lifecycle in
/-- A load is made only where its command ends with zero. -/
lemma load_made {profile : ModelProfile} {k : Except RunError Unit → Service (List String × Bool)}
    (hload : maybeLoadLmstudio profile = .call (.run (lmstudioLoadCommand profile)) k)
    {x : Except RunError Unit} (hx : k x = pure (lmstudioLoadCommand profile, true)) :
    x = .ok () := by
  unfold maybeLoadLmstudio at hload
  dsimp only at hload
  split at hload
  · cases hload
  · cases hload
    cases x with
    | ok _ => rfl
    | error e =>
      cases e with
      | calledProcess stdout stderr =>
        dsimp only at hx
        split at hx
        · cases congrArg Prod.snd (Except.ok.inj (Lib.Coro.done.inj hx))
        · cases hx
      | fileNotFound =>
        dsimp only at hx
        split at hx
        · cases congrArg Prod.snd (Except.ok.inj (Lib.Coro.done.inj hx))
        · cases hx
      | other e => cases hx

open Lifecycle in
/-- **A load through the shim.** Lifecycle takes a load for its own only if the host has run that
command, once, and the command has ended with zero. Where the exchange is complete and the command
ends with a code of a byte, lifecycle goes on as it does where it runs the command itself: a load
that exists already is found from the output that the shim passes on. -/
theorem load_through_shim {profile : ModelProfile}
    {k : Except RunError Unit → Service (List String × Bool)}
    (hload : maybeLoadLmstudio profile = .call (.run (lmstudioLoadCommand profile)) k)
    (hbody : shimBody (lmstudioLoadCommand profile).tail timeoutSeconds = some text)
    {answer : Except Exn ByteArray} {ran : List (List String)}
    (h : Exchange float lmsBinary host (shimRequest text.toUTF8) answer ran) :
    (k (finish float answer).answer = pure (lmstudioLoadCommand profile, true) →
      ran = [lmsBinary :: (lmstudioLoadCommand profile).tail] ∧ ∃ returncode stdout stderr,
        host (lmsBinary :: (lmstudioLoadCommand profile).tail) (bridgeTimeout timeoutSeconds) =
          .completed returncode stdout stderr ∧ exitStatus returncode = 0) ∧
    ∀ returncode stdout stderr,
      host (lmsBinary :: (lmstudioLoadCommand profile).tail) (bridgeTimeout timeoutSeconds) =
        .completed returncode stdout stderr → 0 ≤ returncode → returncode < 256 →
      k (finish float (received (handle float lmsBinary host (shimRequest text.toUTF8)).1)).answer =
        k (answerOf returncode stdout stderr) := by
  have hpermitted := permitted_load profile
  obtain ⟨hdumps, hmax⟩ := shimBody_eq_some.mp hbody
  refine ⟨fun hmade => ?_, fun returncode stdout stderr hhost hlow hhigh => ?_⟩
  · have hok := load_made hload hmade
    have hzero : (finish float answer).status = 0 := by
      by_contra hne
      rw [Exit.answer, answerOf, if_neg hne] at hok
      cases hok
    cases h with
    | refused e | cut _ _ e | lost e =>
      rw [finish_error] at hzero
      cases hzero
    | ended n hn => exact absurd hzero (handle_cut hdumps hmax hn rfl).2
    | answered =>
      obtain ⟨-, returncode, stdout, stderr, hhost, hcode, -⟩ := shim_zero hbody hzero
      refine ⟨?_, returncode, stdout, stderr, hhost, hcode⟩
      rw [handle_shim hbody, reply_ran, runLms_ran, if_pos hpermitted]
  · have hfinish : finish float (received (handle float lmsBinary host
        (shimRequest text.toUTF8)).1) = ⟨stdout, stderr, .ok returncode⟩ := by
      rw [handle_shim hbody, runLms_permitted hpermitted, hhost]
      exact finish_send ⟨by omega, by omega⟩
    have hstatus : exitStatus returncode = returncode := by
      rw [exitStatus, if_pos (by omega)]
      omega
    have hanswer : (Exit.mk stdout stderr (.ok returncode)).answer =
        answerOf (exitStatus returncode) stdout stderr := rfl
    rw [hfinish, hanswer, hstatus]

/-- A model of LM Studio that is loaded with its command. -/
def sampleProfile : Lifecycle.ModelProfile := Lifecycle.lmstudioProfile "chat" "local-model" 6000

def sampleLoadText : String :=
  "\x7b\"args\": [\"load\", \"local-model\", \"--identifier\", \"local-model\", \"--yes\"], " ++
    "\"timeout\": 2000\x7d"

open Lifecycle in
theorem load_through_shim_sample : ∃ k,
    maybeLoadLmstudio sampleProfile = .call (.run (lmstudioLoadCommand sampleProfile)) k ∧
      k (finish sampleFloat (received (handle sampleFloat "lms" sampleHost
        (shimRequest sampleLoadText.toUTF8)).1)).answer = k (answerOf 0 "Model loaded" "") := by
  have hbody : shimBody (lmstudioLoadCommand sampleProfile).tail 2000 = some sampleLoadText := by
    decide +kernel
  have hload : ∃ k, maybeLoadLmstudio sampleProfile =
      .call (.run (lmstudioLoadCommand sampleProfile)) k := by
    have hstrategy : sampleProfile.loadStrategy.toLower = "cli" := by decide +kernel
    unfold maybeLoadLmstudio
    simp only [hstrategy]
    exact ⟨_, rfl⟩
  obtain ⟨k, hk⟩ := hload
  exact ⟨k, hk, (load_through_shim hk hbody Exchange.answered).2 0 "Model loaded" "" rfl
    (by omega) (by omega)⟩

end Orchestrator.LmsBridge
