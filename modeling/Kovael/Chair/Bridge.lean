import Kovael.Chair.Security
import Kovael.Js.Number
import Kovael.Js.OrderedMap

/-!
# `ChairBridgeProvider`: pending replies and their settlement

`src/services/ChairBridgeProvider.ts` hands a prompt to an agent's inbox and
suspends until the agent answers. All dispatches share one static map of
pending replies; this file has the records, the state of one suspended
`stream()` call and `submitReplyForRequest`, and `Kovael.Chair.Stream` the body
of `stream()`.

Mirroring notes vs the TS:
- A pending entry's `resolve` and `reject` close over the variables of its
  `stream()` call. Here the call's variables are a `Stream`, filed under the
  same request id, and the two callbacks are `settleReply`.
- `replySettled` is not kept: it is set exactly where the promise is settled.
- `replyTimer` and `abortCleanup` say whether the timer runs and the listener
  is attached.
- `submissions` and `settlements` note every submission with its answer and
  every return or throw of a `stream()` call, in order; no code reads them.
- `redactSensitiveText` is a parameter: nothing below depends on what it
  removes. `submitReply`, the unauthenticated variant without a request id, has
  no caller outside the tests and is not modelled.
-/

namespace Kovael.Chair

open Js (Number OrderedMap Clock)

/-- What the provider calls outside itself. -/
structure Env where
  hmac : Hmac
  /-- `redactSensitiveText(text)`. -/
  redact : String → String
  /-- `Number(process.env.KOVAEL_CHAIR_REPLY_TIMEOUT_MS)`. -/
  replyTimeoutVar : Number

/-- `replyTimeoutMs()`. -/
def Env.replyTimeoutMs (env : Env) : Int :=
  match env.replyTimeoutVar.floor? with
  | none => 30000
  | some parsed => max 5000 (min 600000 parsed)

structure DispatchPolicy where
  dispatchTimeoutMs : Number
  maxAttempts : Number
  baseBackoffMs : Number
  deriving DecidableEq, Repr

/-- `DEFAULT_DISPATCH_POLICY`. -/
def defaultDispatchPolicy : DispatchPolicy where
  dispatchTimeoutMs := .ofNat 10000
  maxAttempts := .ofNat 3
  baseBackoffMs := .ofNat 250

/-- What identifies one dispatch. -/
structure DispatchIds where
  requestId : String
  topicId : String
  agentId : String
  claimSessionId : String
  deriving DecidableEq, Repr

inductive ChairReplyStatus where
  | succeeded
  | failed
  deriving DecidableEq, Repr

structure ChairReplySubmission where
  requestId : String
  agentId : String
  claimSessionId : String
  replyProof : String
  topicId : Option String
  content : Option String
  status : Option ChairReplyStatus
  error : Option String
  deriving DecidableEq, Repr

structure ChairDispatchReceipt extends DispatchIds where
  status : ChairReplyStatus
  receivedAt : Int
  proofVerified : Bool
  dispatchAttempts : Option Nat
  dispatchLatencyMs : Option Int
  error : Option String
  deriving DecidableEq, Repr

inductive ChairReplySubmitResult where
  | ok (receipt : ChairDispatchReceipt)
  | refused (status : Nat) (code : String)
  deriving DecidableEq, Repr

/-- The `details` of a `ChairBridgeDispatchFailure`. -/
structure DispatchDetails extends DispatchIds where
  dispatchAttempts : Nat
  dispatchLatencyMs : Int
  deriving DecidableEq, Repr

/-- What `stream()` can throw: a `ChairBridgeReplyFailure`, a
`ChairBridgeDispatchFailure`, or a plain `Error`. -/
inductive StreamError where
  | replyFailure (message : String) (receipt : ChairDispatchReceipt)
  | dispatchFailure (message : String) (details : DispatchDetails)
  | error (message : String)
  deriving DecidableEq, Repr

structure ResolvedChairReply where
  content : String
  receipt : ChairDispatchReceipt
  deriving DecidableEq, Repr

structure PendingChairReply extends DispatchIds where
  replyProofSecret : String
  createdAt : Int
  dispatchStartedAt : Option Int
  dispatchAttempts : Option Nat
  dispatchLatencyMs : Option Int
  deriving DecidableEq, Repr

/-- The promise `replyReceived`. -/
inductive ReplyPromise where
  | pending
  | resolved (reply : ResolvedChairReply)
  | rejected (err : StreamError)
  deriving DecidableEq, Repr

structure TokenUsage where
  input : Nat
  output : Nat
  total : Nat
  runtimeMs : Int
  source : String
  deriving DecidableEq, Repr

/-- What `stream()` yields. -/
structure Chunk where
  delta : String
  usage : Option TokenUsage
  deriving DecidableEq, Repr

/-- Where a `stream()` call is suspended, or how it ended. Attempts are counted
from 0, as in the loop. -/
inductive Phase where
  /-- Inside the `fetch` of an attempt. -/
  | posting (attempt : Nat)
  /-- In the backoff after an attempt. -/
  | backoff (attempt : Nat)
  /-- `postWithRetry` has returned, and `stream()` not yet gone on. -/
  | postReturned (attempts : Nat)
  /-- `postWithRetry` has thrown, and `stream()` not yet gone on. -/
  | postThrew (message : String) (details : DispatchDetails)
  /-- At `await replyReceived`. -/
  | awaitingReply
  /-- Playing back; `i` is the next word. -/
  | playing (words : List String) (i : Nat)
  /-- The usage chunk is out. -/
  | played
  | returned
  | threw (err : StreamError)
  deriving DecidableEq, Repr

/-- The call has returned or thrown. -/
def Phase.settled : Phase → Bool
  | .returned | .threw _ => true
  | _ => false

/-- The call can still be answered. -/
def Phase.waiting : Phase → Bool
  | .posting _ | .backoff _ | .postReturned _ | .postThrew .. | .awaitingReply => true
  | _ => false

/-- The variables of one `stream()` call. -/
structure Stream extends DispatchIds where
  replyProofSecret : String
  provider : Nat
  policy : DispatchPolicy
  /-- `JSON.stringify(opts.messages).length`. -/
  messagesLength : Nat
  startTime : Int
  dispatchStartedAt : Int
  attemptStartedAt : Int
  /-- `opts.signal?.aborted`. -/
  aborted : Bool
  lastErr : String
  /-- `dispatchResult.attempts`. -/
  dispatchResult : Option Nat
  replyReceived : ReplyPromise
  replyTimer : Bool
  abortListener : Bool
  phase : Phase
  chunks : List Chunk
  deriving DecidableEq, Repr

inductive ChairDispatchTelemetryEvent where
  | started (ids : DispatchIds)
  | attempt (ids : DispatchIds) (attempt : Nat) (dispatchLatencyMs : Int)
      (statusCode : Option Nat)
  | accepted (ids : DispatchIds) (dispatchAttempts : Nat) (dispatchLatencyMs : Int)
  deriving DecidableEq, Repr

/-- Every provider's calls, and the static map they share. -/
structure Bridge where
  pendingReplies : OrderedMap String PendingChairReply
  streams : OrderedMap String Stream
  /-- `lastDispatchReceipt` of each provider. -/
  lastReceipts : OrderedMap Nat ChairDispatchReceipt
  telemetry : List ChairDispatchTelemetryEvent
  /-- Errors thrown before a request id was drawn. -/
  refused : List String
  submissions : List (ChairReplySubmission × ChairReplySubmitResult)
  settlements : List (String × Phase)

namespace Bridge

/-- Nothing dispatched yet. -/
def init : Bridge := ⟨.empty, .empty, .empty, [], [], [], []⟩

/-- `cleanupPending()` of the call of the given request. -/
def cleanupPending (b : Bridge) (requestId : String) : Bridge :=
  { b with
    pendingReplies := b.pendingReplies.delete requestId
    streams := b.streams.modify requestId fun s =>
      { s with replyTimer := false, abortListener := false } }

/-- The `resolve` or `reject` of a pending entry: a promise settles once. -/
def settleReply (b : Bridge) (requestId : String) (p : ReplyPromise) : Bridge :=
  { b.cleanupPending requestId with
    streams := (b.cleanupPending requestId).streams.modify requestId fun s =>
      { s with replyReceived := if s.replyReceived = .pending then p else s.replyReceived } }

/-- A telemetry event, if the provider has an observer that does not throw. -/
def emit (b : Bridge) (e : ChairDispatchTelemetryEvent) : Bridge :=
  { b with telemetry := b.telemetry ++ [e] }

/-- The call of the given request returns or throws. -/
def settle (b : Bridge) (requestId : String) (phase : Phase) : Bridge :=
  { b with
    streams := b.streams.modify requestId fun s => { s with phase := phase }
    settlements := b.settlements ++ [(requestId, phase)] }

end Bridge

/-! ## `submitReplyForRequest` -/

variable (env : Env)

/-- The checks of a submission against the pending entry, in order; `none` when
it passes them all. -/
def refusal (input : ChairReplySubmission) (pending : PendingChairReply) :
    Option (Nat × String) :=
  if pending.agentId ≠ input.agentId ∨ ∃ t ∈ input.topicId, pending.topicId ≠ t then
    some (409, "wrong_chair_dispatch_target")
  else if pending.claimSessionId ≠ input.claimSessionId then some (409, "wrong_claim_session")
  else if verifyChairReplyProof env.hmac
      ⟨input.requestId, input.claimSessionId, pending.replyProofSecret⟩ input.replyProof
    = false then some (401, "invalid_reply_proof")
  else none

/-- `input.status ?? 'succeeded'`. -/
def ChairReplySubmission.effectiveStatus (input : ChairReplySubmission) : ChairReplyStatus :=
  input.status.getD .succeeded

/-- The submission's error text, trimmed and redacted. -/
def submittedError (input : ChairReplySubmission) : Option String :=
  match input.error with
  | none => none
  | some text => if Js.length (Js.trim text) = 0 then none else some (env.redact (Js.trim text))

/-- The receipt of an accepted submission. `clock 0` is the reading for the
latency, `clock 1` the one for `receivedAt`. -/
def receiptOf (clock : Clock) (input : ChairReplySubmission) (pending : PendingChairReply) :
    ChairDispatchReceipt where
  requestId := input.requestId
  topicId := pending.topicId
  agentId := pending.agentId
  claimSessionId := pending.claimSessionId
  status := input.effectiveStatus
  receivedAt := clock 1
  proofVerified := true
  dispatchAttempts := pending.dispatchAttempts
  dispatchLatencyMs :=
    match pending.dispatchLatencyMs with
    | some ms => some ms
    | none => pending.dispatchStartedAt.map fun t => clock 0 - t
  error := submittedError env input

/-- What the promise is settled with: `error ?? input.content ?? text` is the
message of a failure, `input.content ?? ''` the content of a success. -/
def replyOf (input : ChairReplySubmission) (receipt : ChairDispatchReceipt) : ReplyPromise :=
  match receipt.status with
  | .failed =>
    -- a failure's content is its message where it has no error text
    .rejected (.replyFailure
      (match receipt.error, input.content with
        | some e, _ => e
        | none, some c => c
        | none, none => "Chair Bridge runtime failure for agent \"" ++ receipt.agentId ++ "\".")
      receipt)
  | .succeeded => .resolved ⟨input.content.getD "", receipt⟩

/-- `submitReplyForRequest(input)`. -/
def submitReplyForRequest (clock : Clock) (input : ChairReplySubmission) (b : Bridge) :
    Bridge × ChairReplySubmitResult :=
  match b.pendingReplies.get? input.requestId with
  | none => (b, .refused 404 "unknown_chair_dispatch_request")
  | some pending =>
    -- a refused submission leaves the entry for the next one
    match refusal env input pending with
    | some (status, code) => (b, .refused status code)
    | none =>
      let receipt := receiptOf env clock input pending
      let b' := { b with pendingReplies := b.pendingReplies.delete input.requestId }
      (b'.settleReply input.requestId (replyOf input receipt), .ok receipt)

end Kovael.Chair
