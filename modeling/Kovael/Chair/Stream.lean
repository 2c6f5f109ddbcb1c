import Kovael.Chair.Bridge
import Kovael.Lts

/-!
# `ChairBridgeProvider.stream`, from one `await` to the next

A `stream()` call draws a request id, files a pending reply, POSTs the prompt
with retries, waits for the reply and plays it back. `bridge` is the system of
all calls: one step is what runs between two awaits of one call, or a
submission, a timer or an abort that fires in between.

Mirroring notes vs the TS:
- How an awaited `fetch` ends, what the clock reads and when timers fire is in
  the event. An attempt's own timeout is a `fetch` that throws.
- `postWithRetry` returns to `stream()` through a promise, so other events may
  come between the two: `postReturned` and `postThrew` are those moments, and
  `postSettles` is `stream()` going on.
- `crypto.randomUUID()` is fresh: a call that draws a known request id is not a
  step. The claim lookup and the URL check come before the id is drawn and
  their outcomes are in the event.
- The loop of the playback is pulled by the consumer, who takes every chunk.
- The body of the POST and its encryption are not modelled, except that
  building it may throw.
-/

namespace Kovael.Chair

open Js (Number OrderedMap Clock)

inductive ChairStatus where
  | online
  | stale
  | offline
  deriving DecidableEq, Repr

/-- The parts of a chair's claim that `stream()` reads. -/
structure ChairClaim where
  sessionId : String
  status : ChairStatus
  inboxUrl : Option String
  deriving DecidableEq, Repr

/-- What a call reads up to its first `fetch`. -/
structure StartInput where
  provider : Nat
  providerId : String
  policy : DispatchPolicy
  topicId : Option String
  agentId : Option String
  claim : Option ChairClaim
  /-- `resolveSafeChairUrl(claim.inboxUrl)`: its error message, or the URL. -/
  dispatchUrl : Except String String
  requestId : String
  replyProofSecret : String
  /-- The message of the error that `secureChairDispatchBody` throws, if it does. -/
  bodyError : Option String
  aborted : Bool
  messagesLength : Nat
  startTime : Int
  createdAt : Int
  now : Int

/-- How a `fetch` ends. -/
inductive FetchOutcome where
  | response (status : Nat)
  | threw (message : String)
  deriving DecidableEq, Repr

/-- `response.ok`. -/
def responseOk (status : Nat) : Bool := decide (200 ≤ status) && decide (status ≤ 299)

/-- `RETRYABLE_STATUS`. -/
def retryableStatus : List Nat := [429, 502, 503, 504]

inductive Event where
  | start (i : StartInput)
  | fetchDone (now : Int) (requestId : String) (outcome : FetchOutcome)
  | backoffDone (now : Int) (requestId : String)
  | postSettles (now : Int) (requestId : String)
  | submit (clock : Clock) (input : ChairReplySubmission)
  | replyTimeout (now : Int) (requestId : String)
  | abort (now : Int) (requestId : String)
  | wake (now : Int) (requestId : String)
  | play (now : Int) (requestId : String)

/-- `a || b` for an optional string. -/
def orDefault (a : Option String) (b : String) : String :=
  match a with
  | none => b
  | some s => if s = "" then b else s

/-- Thrown before an id is drawn. -/
def Bridge.refuse (b : Bridge) (message : String) : Bridge :=
  { b with refused := b.refused ++ [message] }

/-- The call goes on with other variables. -/
def Bridge.put (b : Bridge) (s : Stream) : Bridge :=
  { b with streams := b.streams.set s.requestId s }

/-- An entry that is still pending learns of the latest attempt. -/
def Bridge.noteAttempts (b : Bridge) (s : Stream) (now : Int) (attempts : Nat) : Bridge :=
  { b with pendingReplies := b.pendingReplies.modify s.requestId fun p =>
      { p with
        dispatchAttempts := some attempts
        dispatchLatencyMs := some (now - s.dispatchStartedAt) } }

/-- What the `catch` around the dispatch makes of an error's message. -/
def dispatchFailedText (agentId message : String) : String :=
  "Chair Bridge dispatch failed for agent \"" ++ agentId ++ "\": " ++ message

/-! ## `postWithRetry` -/

/-- `throw dispatchFailure(new Error(message))`. -/
def Stream.failPost (s : Stream) (now : Int) (attemptsMade : Nat) (message : String) : Stream :=
  { s with
    phase := .postThrew message ⟨s.toDispatchIds, attemptsMade, now - s.dispatchStartedAt⟩ }

/-- The head of the loop, up to the `fetch` of the attempt. -/
def enterAttempt (now : Int) (attempt : Nat) (s : Stream) (b : Bridge) : Bridge :=
  if (Number.ofNat attempt).lt s.policy.maxAttempts then
    if s.aborted then b.put (s.failPost now attempt "chair bridge dispatch: aborted by caller")
    else
      (b.noteAttempts s now (attempt + 1)).put
        { s with attemptStartedAt := now, phase := .posting attempt }
  else b.put (s.failPost now attempt s.lastErr)

/-- The end of the loop body: sleep, or go back to the head. -/
def afterAttempt (now : Int) (attempt : Nat) (s : Stream) (b : Bridge) : Bridge :=
  if (Number.ofNat attempt).lt (s.policy.maxAttempts.add (Number.ofInt (-1))) then
    b.put { s with phase := .backoff attempt }
  else enterAttempt now (attempt + 1) s b

/-- From the end of an attempt's `fetch`. -/
def fetchDone (now : Int) (outcome : FetchOutcome) (attempt : Nat) (s : Stream) (b : Bridge) :
    Bridge :=
  match outcome with
  | .threw message =>
    -- the caller's abort is no transient failure, an attempt's timeout is one
    if s.aborted then b.put (s.failPost now (attempt + 1) message)
    else
      afterAttempt now attempt { s with lastErr := message }
        (b.emit (.attempt s.toDispatchIds (attempt + 1) (now - s.attemptStartedAt) none))
  | .response status =>
    let b' := (b.noteAttempts s now (attempt + 1)).emit
      (.attempt s.toDispatchIds (attempt + 1) (now - s.attemptStartedAt) (some status))
    if responseOk status then b'.put { s with phase := .postReturned (attempt + 1) }
    else if status ∉ retryableStatus then
      b'.put (s.failPost now (attempt + 1) ("upstream returned non-retryable " ++ toString status))
    else
      afterAttempt now attempt
        { s with lastErr := "upstream returned retryable " ++ toString status } b'

/-! ## `stream` -/

/-- `opts.agentId || this.id`. -/
def StartInput.agent (i : StartInput) : String := orDefault i.agentId i.providerId

/-- The ids of the dispatch. -/
def StartInput.ids (i : StartInput) (claim : ChairClaim) : DispatchIds where
  requestId := i.requestId
  topicId := orDefault i.topicId "default-topic"
  agentId := i.agent
  claimSessionId := claim.sessionId

/-- The variables of the call as it enters `postWithRetry`. -/
def StartInput.stream (i : StartInput) (claim : ChairClaim) : Stream where
  toDispatchIds := i.ids claim
  replyProofSecret := i.replyProofSecret
  provider := i.provider
  policy := i.policy
  messagesLength := i.messagesLength
  startTime := i.startTime
  dispatchStartedAt := i.now
  attemptStartedAt := i.now
  aborted := i.aborted
  lastErr := "chair bridge dispatch: no attempts ran"
  dispatchResult := none
  replyReceived := .pending
  replyTimer := false
  abortListener := false
  phase := .posting 0
  chunks := []

/-- The entry filed before the POST. -/
def StartInput.pending (i : StartInput) (claim : ChairClaim) : PendingChairReply where
  toDispatchIds := i.ids claim
  replyProofSecret := i.replyProofSecret
  createdAt := i.createdAt
  dispatchStartedAt := none
  dispatchAttempts := none
  dispatchLatencyMs := none

/-- The call and its entry are there. -/
def Bridge.file (b : Bridge) (s : Stream) (pending : PendingChairReply) : Bridge :=
  { b with pendingReplies := b.pendingReplies.set s.requestId pending }.put s

/-- The `try` around the dispatch, up to the first `fetch`. -/
def dispatch (i : StartInput) (s : Stream) (b : Bridge) : Bridge :=
  match i.bodyError with
  | some message =>
    (b.cleanupPending s.requestId).settle s.requestId
      (.threw (.error (dispatchFailedText s.agentId message)))
  | none =>
    let b' :=
      { b with pendingReplies := b.pendingReplies.modify s.requestId fun p =>
          { p with dispatchStartedAt := some i.now } }
    enterAttempt i.now 0 s (b'.emit (.started s.toDispatchIds))

/-- `stream(opts)` up to its first `fetch`; `none` when the id is not fresh. -/
def start (i : StartInput) (b : Bridge) : Option Bridge :=
  let offline := "Chair Bridge failure: Agent \"" ++ i.agent ++
    "\" is offline or has no inboxUrl registered."
  match i.claim with
  | none => some (b.refuse offline)
  | some claim =>
    if orDefault claim.inboxUrl "" = "" ∨ claim.status = .offline then some (b.refuse offline)
    else
      match i.dispatchUrl with
      | .error message =>
        some (b.refuse ("Chair Bridge failure: Agent \"" ++ i.agent ++
          "\" inboxUrl rejected: " ++ message))
      | .ok _ =>
        -- ids are drawn once
        if b.streams.has i.requestId then none
        else some (dispatch i (i.stream claim) (b.file (i.stream claim) (i.pending claim)))

/-- `pendingDispatchDetails(pending)`. -/
def pendingDispatchDetails (now : Int) (p : PendingChairReply) : DispatchDetails where
  toDispatchIds := p.toDispatchIds
  dispatchAttempts := p.dispatchAttempts.getD 0
  dispatchLatencyMs :=
    match p.dispatchLatencyMs, p.dispatchStartedAt with
    | some ms, _ => ms
    | none, some t => now - t
    | none, none => 0

/-- Reject the reply of a call whose entry is still pending. -/
def rejectPending (now : Int) (requestId message : String) (b : Bridge) : Bridge :=
  match b.pendingReplies.get? requestId with
  | none => b
  | some active =>
    b.settleReply requestId
      (.rejected (.dispatchFailure message (pendingDispatchDetails now active)))

/-- `rejectAfterPostAbort`. -/
def rejectAfterPostAbort (now : Int) (requestId : String) (b : Bridge) : Bridge :=
  rejectPending now requestId "chair bridge dispatch: aborted by caller" b

/-- The message of the reply timeout. -/
def replyTimeoutText (env : Env) (agentId : String) : String :=
  "Chair Bridge timeout: Agent \"" ++ agentId ++ "\" did not reply in " ++
    toString ((env.replyTimeoutMs + 500) / 1000) ++ " seconds."

/-- After `postWithRetry` has returned: listen for an abort and start the reply
timer, unless the reply is there already. -/
def postReturned (now : Int) (attempts : Nat) (s : Stream) (b : Bridge) : Bridge :=
  let b₁ := (b.noteAttempts s now attempts).emit
    (.accepted s.toDispatchIds attempts (now - s.dispatchStartedAt))
  let s₁ := { s with dispatchResult := some attempts, phase := .awaitingReply }
  if s.replyReceived = .pending ∧ b₁.pendingReplies.has s.requestId then
    -- a signal that has aborted already fires no listener
    if s.aborted then rejectAfterPostAbort now s.requestId (b₁.put s₁)
    else b₁.put { s₁ with replyTimer := true, abortListener := true }
  else b₁.put s₁

/-- The `catch` around the dispatch. -/
def postThrew (message : String) (details : DispatchDetails) (s : Stream) (b : Bridge) : Bridge :=
  (b.cleanupPending s.requestId).settle s.requestId
    (.threw (.dispatchFailure (dispatchFailedText s.agentId message) details))

/-- The word's delta. -/
def delta (i : Nat) (word : String) : String := if i = 0 then word else " " ++ word

/-- `Math.ceil(chars / 4)`. -/
def tokens (chars : Nat) : Nat := (chars + 3) / 4

/-- The chunk after the last word. -/
def Stream.finish (s : Stream) (now : Int) : Stream :=
  let yieldedChars := (s.chunks.map fun c => Js.length c.delta).sum
  { s with
    chunks := s.chunks ++
      [⟨"", some
        { input := tokens s.messagesLength
          output := tokens yieldedChars
          total := tokens s.messagesLength + tokens yieldedChars
          runtimeMs := now - s.startTime
          source := "reported" }⟩]
    phase := .played }

/-- The playback loop from word `i` to its next `yield`. -/
def Stream.playFrom (s : Stream) (now : Int) (words : List String) (i : Nat) : Stream :=
  match words[i]? with
  | none => s.finish now
  | some word =>
    -- an abort cuts the words off, and the usage chunk still comes
    if s.aborted then s.finish now
    else
      { s with
        chunks := s.chunks ++ [⟨delta i word, none⟩]
        phase := .playing words (i + 1) }

/-- From `await replyReceived`. -/
def wake (now : Int) (s : Stream) (b : Bridge) : Option Bridge :=
  match s.replyReceived with
  | .pending => none
  | .rejected err => some (b.settle s.requestId (.threw err))
  | .resolved reply =>
    some ({ b with lastReceipts := b.lastReceipts.set s.provider reply.receipt }.put
      (s.playFrom now (Js.splitSpaces reply.content) 0))

/-- From a `yield`, or from the delay after it. -/
def play (now : Int) (s : Stream) (b : Bridge) : Option Bridge :=
  match s.phase with
  | .playing words i => some (b.put (s.playFrom now words i))
  | .played => some (b.settle s.requestId .returned)
  | _ => none

/-- `opts.signal` aborts. -/
def abortSignal (now : Int) (s : Stream) (b : Bridge) : Bridge :=
  let b' := b.put { s with aborted := true }
  if s.abortListener then rejectAfterPostAbort now s.requestId b' else b'

/-! ## The system -/

/-- One event about the call of a request. -/
def Bridge.onStream (b : Bridge) (requestId : String) (f : Stream → Option Bridge) :
    Option Bridge :=
  (b.streams.get? requestId).bind f

/-- One step of the system. -/
def step (env : Env) (b : Bridge) : Event → Option Bridge
  | .start i => start i b
  | .fetchDone now requestId outcome => b.onStream requestId fun s =>
    match s.phase with
    | .posting attempt => some (fetchDone now outcome attempt s b)
    | _ => none
  | .backoffDone now requestId => b.onStream requestId fun s =>
    match s.phase with
    | .backoff attempt => some (enterAttempt now (attempt + 1) s b)
    | _ => none
  | .postSettles now requestId => b.onStream requestId fun s =>
    match s.phase with
    | .postReturned attempts => some (postReturned now attempts s b)
    | .postThrew message details => some (postThrew message details s b)
    | _ => none
  | .submit clock input =>
    let r := submitReplyForRequest env clock input b
    some { r.1 with submissions := r.1.submissions ++ [(input, r.2)] }
  | .replyTimeout now requestId => b.onStream requestId fun s =>
    if s.replyTimer then
      some (rejectPending now requestId (replyTimeoutText env s.agentId) b)
    else none
  | .abort now requestId => b.onStream requestId fun s =>
    if s.aborted then none else some (abortSignal now s b)
  | .wake now requestId => b.onStream requestId fun s =>
    match s.phase with
    | .awaitingReply => wake now s b
    | _ => none
  | .play now requestId => b.onStream requestId fun s => play now s b

/-- All calls of all providers. -/
def bridge (env : Env) : Lts Bridge Event where
  init := .init
  step := step env

end Kovael.Chair
