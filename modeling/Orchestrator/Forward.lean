import Orchestrator.Endpoints
import Orchestrator.Limiter

/-!
A generation request on its way through the proxy: it takes a slot of its model's limiter, gets a
backend, is forwarded, buffered or streamed, and gives the slot back.

Every await is a call that returns or raises anything, `CancelledError` included. The upstream
request and the watch for a disconnect are tasks of their own: the calls here are the points at
which the request looks at them.
-/

namespace Orchestrator

open Lib Lib.Coro

/-- Where the limiter's lock is awaited. -/
inductive LockPlace
  | acquire
  | noBackend
  | releaseOnce

/-- Where the HTTP client is closed. -/
inductive ClosePlace
  | request
  | body

/-- The awaits that yield nothing. -/
inductive Await
  | lock (place : LockPlace)
  | waitForSlot (timeout : ℚ)
  | openClient
  /-- `build_request` and the start of the task that sends it -/
  | startSend (url : String) (payload : Mapping) (stream : Bool)
  | sendTask
  | disconnectTask
  | nextChunk
  | yieldChunk
  | closeResponse
  | closeClient (place : ClosePlace)

inductive ForwardCall
  | proxy (c : ProxyCall)
  | await (a : Await)
  /-- `asyncio.wait`: whether the client has disconnected -/
  | waitFirst
  | sendDone
  | sendResult
  /-- how many chunks the server takes from the streaming body; none, if it never iterates it -/
  | iterate

namespace ForwardCall

abbrev Answer : ForwardCall → Type
  | proxy c => c.Answer
  | await _ => Except Exn Unit
  | waitFirst => Except Exn Bool
  | sendDone => Bool
  | sendResult => Except Exn HttpResponse
  | iterate => Option ℕ

end ForwardCall

/-- The limiter, the variables that `release_once` closes over, and for the sake of the results
whether the request has got a slot and how often it has given it back. -/
structure ForwardState where
  limiter : ModelLimiter
  released : Bool
  backendInstanceId : Option String
  admitted : Bool
  freed : ℕ

inductive ForwardBody
  | error (r : Endpoints.Response)
  | buffered (r : HttpResponse)
  | stream (r : HttpResponse)
  /-- status 499, without a body -/
  | disconnected

structure ForwardResponse where
  body : ForwardBody
  /-- the header `x-llm-output-tokens-capped` -/
  capped : Bool

abbrev Forward (α : Type) := Coro ForwardState ForwardCall ForwardCall.Answer Exn α

namespace Forward

open BackendResolver

def awaiting (a : Await) : Forward Unit := .call (.await a) fun (r : Except Exn Unit) => lift r

/-! ### The limiter -/

def queueFull : Exn := ⟨.queueFull, "QueueFull", ""⟩
def queueTimeout : Exn := ⟨.queueTimeout, "QueueTimeout", ""⟩
def clientDisconnected : Exn := ⟨.clientDisconnected, "ClientDisconnectedError", ""⟩

/-- The wait of `acquire`; it ends with the lock held. -/
def waitForSlot : Forward Unit := .get fun s =>
  (awaiting (.waitForSlot s.limiter.queueTimeoutSeconds)).after fun
    | .ok () => .get fun s =>
      .set { s with
        limiter := { s.limiter with
          queuedRequests := s.limiter.queuedRequests - 1
          activeRequests := s.limiter.activeRequests + 1 }
        admitted := true } (pure ())
    | .error e =>
      if e.name = "TimeoutError" then
        .get fun s => .set { s with limiter := s.limiter.expire } (raise queueTimeout)
      else raise e

def acquire : Forward Unit :=
  (awaiting (.lock .acquire)).after <| onOk fun _ => .get fun s =>
    match s.limiter.enter with
    | (.granted, l) => .set { s with limiter := l, admitted := true } (pure ())
    | (.full, l) => .set { s with limiter := l } (raise queueFull)
    | (.queued, l) => .set { s with limiter := l } waitForSlot

/-- `limiter.release` -/
def limiterRelease (place : LockPlace) : Forward Unit :=
  (awaiting (.lock place)).after <| onOk fun _ => .get fun s =>
    .set { s with limiter := s.limiter.release, freed := s.freed + 1 } (pure ())

/-- `release_once`, without the metrics. -/
def releaseOnce (settings : Settings) : Forward Unit := .get fun s =>
  if s.released then pure ()
  else .set { s with released := true } <|
    ((release settings s.backendInstanceId).embed .proxy).after <| onOk fun _ =>
      limiterRelease .releaseOnce

/-! ### The forwarder -/

/-- `send_buffered_with_disconnect_watch` -/
def sendBuffered (url : String) (payload : Mapping) : Forward HttpResponse :=
  (awaiting (.startSend url payload false)).after <| onOk fun _ =>
    ensuring
      (.call .waitFirst fun (first : Except Exn Bool) => (lift first).after <| onOk fun
        | true => (suppress (awaiting .sendTask)).after fun _ => raise clientDisconnected
        | false => .call .sendResult fun (r : Except Exn HttpResponse) => lift r)
      ((suppress (awaiting .disconnectTask)).after fun _ =>
        .call .sendDone fun (sent : Bool) =>
          if sent then pure () else suppress (awaiting .sendTask))

def upstreamFailed : Endpoints.Response :=
  Endpoints.errorResponse 502 "upstream_request_failed" "Upstream LLM gateway request failed."

/-- The client of `forward_buffered_response`, and the exchange in it. -/
def exchangeBuffered (url : String) (payload : Mapping) : Forward HttpResponse :=
  (awaiting .openClient).after <| onOk fun _ =>
    ensuring (sendBuffered url payload) (awaiting (.closeClient .request))

/-- `forward_buffered_response` with `watch_disconnect` -/
def forwardBufferedResponse (url : String) (payload : Mapping) : Forward ForwardResponse :=
  exceptHTTP (exchangeBuffered url payload) (fun _ => pure ⟨.error upstreamFailed, false⟩)
    (fun r => pure ⟨.buffered r, false⟩)

/-- The part of `stream_response` that waits for the upstream response. -/
def sendStreamed (url : String) (payload : Mapping) : Forward HttpResponse :=
  (awaiting (.startSend url payload true)).after <| onOk fun _ =>
    tryWith
      (.call .waitFirst fun (first : Except Exn Bool) => (lift first).after <| onOk fun
        | true => (suppress (awaiting .sendTask)).after fun _ =>
          (awaiting (.closeClient .request)).after <| onOk fun _ => raise clientDisconnected
        | false => (suppress (awaiting .disconnectTask)).after fun _ =>
          .call .sendResult fun (r : Except Exn HttpResponse) => lift r)
      (fun e =>
        if e.isException then
          (suppress (awaiting .disconnectTask)).after fun _ =>
            (suppress (awaiting .sendTask)).after fun _ =>
              (awaiting (.closeClient .request)).after <| onOk fun _ => raise e
        else raise e)

/-- `stream_response` -/
def streamResponse (url : String) (payload : Mapping) : Forward ForwardResponse :=
  (sendStreamed url payload).after <| onOk fun r => pure ⟨.stream r, false⟩

/-- The loop of `response_body` over the chunks that the server takes. -/
def chunks : ℕ → Forward Unit
  | 0 => awaiting .nextChunk
  | n + 1 => (awaiting .nextChunk).after <| onOk fun _ =>
    (awaiting .yieldChunk).after <| onOk fun _ => chunks n

/-- `response_body`, as the server iterates it. -/
def responseBody (settings : Settings) (n : ℕ) : Forward Unit :=
  ensuring (chunks n)
    ((awaiting .closeResponse).after <| onOk fun _ =>
      (awaiting (.closeClient .body)).after <| onOk fun _ => releaseOnce settings)

/-! ### The request -/

/-- `should_stream_response` -/
def shouldStreamResponse (payload : Mapping) : Bool :=
  match payload.get "stream" with
  | .bool b => b
  | _ => false

/-- The payload that is forwarded. -/
def cleanPayload (policy : ModelPolicy) (backendInstanceId : Option String) (payload : Mapping) :
    Mapping :=
  let clean := stripInternalFields payload
  if backendInstanceId.isSome && clean.has "model" then
    clean.set "model" (.str policy.backendModel)
  else clean

/-- The token counts of `policy_metadata` for the metrics, and whether the output was capped. -/
def tokenMetadata (metadata : Mapping) : Except Exn Bool :=
  if metadata.isEmpty then .ok false
  else do
    let _ ← (metadata.getOr "estimated_input_tokens" (.int 0)).toInt
    let _ ← (metadata.getOr "effective_output_tokens" (.int 0)).toInt
    pure (metadata.get "output_tokens_capped").truthy

def noReadyBackend : Endpoints.Response :=
  Endpoints.errorResponse 503 "no_ready_backend"
    "No ready backend instance is available for this model."

/-- What is sent upstream under a prepared payload. -/
def forwardTo (settings : Settings) (policy : ModelPolicy) (path : String) (payload : Mapping)
    (baseUrl : String) (backendInstanceId : Option String) : Forward ForwardResponse :=
  let clean := cleanPayload policy backendInstanceId payload
  let url := openaiUrl baseUrl path true
  if shouldStreamResponse clean then streamResponse url clean
  else (forwardBufferedResponse url clean).after <| onOk fun response =>
    (releaseOnce settings).after <| onOk fun _ => pure response

/-- The `try` statement of `forward_openai_path`, without its handlers. -/
def forwardAdmitted (settings : Settings) (policy : ModelPolicy) (path : String)
    (payload metadata : Mapping) : Forward ForwardResponse :=
  let orchestration : Mapping := match payload.get "orchestration" with
    | .obj m => m
    | _ => []
  ((resolve settings policy.publicName orchestration).embed .proxy).after <| onOk fun resolved =>
    .get fun s => .set { s with backendInstanceId := resolved.2 } <|
      match resolved.1 with
      | none =>
        (limiterRelease .noBackend).after <| onOk fun _ => pure ⟨.error noReadyBackend, false⟩
      | some baseUrl =>
        (forwardTo settings policy path payload baseUrl resolved.2).after <| onOk fun response =>
          (lift (tokenMetadata metadata)).after <| onOk fun capped =>
            pure { response with capped }

/-- The handlers of the `try` statement. -/
def handleFailure (settings : Settings) (e : Exn) : Forward ForwardResponse :=
  if e.isHTTPError then
    (releaseOnce settings).after <| onOk fun _ => pure ⟨.error upstreamFailed, false⟩
  else if e.kind = .clientDisconnected then
    (releaseOnce settings).after <| onOk fun _ => pure ⟨.disconnected, false⟩
  else (releaseOnce settings).after <| onOk fun _ => raise e

/-- `forward_openai_path` for a generation request, from its limiter on. -/
def forwardOpenaiPath (settings : Settings) (policy : ModelPolicy) (path : String)
    (payload metadata : Mapping) : Forward ForwardResponse :=
  acquire.after fun
    | .ok () => tryWith (forwardAdmitted settings policy path payload metadata)
        (handleFailure settings)
    | .error e =>
      if e.kind = .queueFull then
        pure ⟨.error (Endpoints.errorResponse 429 "queue_full"
          "Too many queued requests for this model."), false⟩
      else if e.kind = .queueTimeout then
        pure ⟨.error (Endpoints.errorResponse 429 "queue_timeout"
          "Timed out waiting for an available model request slot."), false⟩
      else raise e

/-- What the server does with the response: it iterates the body of a stream, or does not. -/
def serve (settings : Settings) (response : ForwardResponse) : Forward Unit :=
  match response.body with
  | .stream _ => .call .iterate fun (taken : Option ℕ) =>
    match taken with
    | some n => responseBody settings n
    | none => pure ()
  | _ => pure ()

/-- The whole request. -/
def request (settings : Settings) (policy : ModelPolicy) (path : String)
    (payload metadata : Mapping) : Forward Unit :=
  (forwardOpenaiPath settings policy path payload metadata).after <| onOk (serve settings)

/-- A request comes to a limiter. -/
def start (limiter : ModelLimiter) : ForwardState := ⟨limiter, false, none, false, 0⟩

end Forward

end Orchestrator
