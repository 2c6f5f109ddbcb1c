import Kovael.Chair.UrlEgressGuard
import Kovael.Hub.InboxHandler

/-!
# The drain of the outbox

One process of `scripts/kovael-agent-inbox.mjs` on its hub file: the requests that it takes, the
runtimes that it starts, the loop of `startOutboxDrain` that posts their replies, the maintenance,
and its end and restart at any point. `Kovael.Hub.Drained` says what holds over its runs.

Mirroring notes:
- A synchronous stretch of the process is one event, and the clock stands still in it. The drain
  waits in `fetch` alone, so that a drain that is active has one row there and others to come.
- The hub may refuse what the drain asks of it: `DrainIO` says when. A request and the end of a
  runtime find it willing, as in `Kovael.Hub.InboxHandler`.
- A row's payload and the texts of the table open as they were filed.
- What is logged is left out.
-/

namespace Kovael.Hub

open Js Crypto
open Js.Base64 (Bytes)

/-! ## The delivery of a reply -/

/-- `PERMANENT_REPLY_STATUS`. -/
def permanentReplyStatus : List Nat := [400, 401, 403, 404, 409]

/-- `RETRYABLE_REPLY_STATUS`. -/
def retryableReplyStatus : List Nat := [429, 502, 503, 504]

/-- `LOOPBACK_REPLY_HOSTS`. -/
def loopbackReplyHosts : List String := ["127.0.0.1", "localhost", "::1"]

/-- What `main` reads for the drain: `readPositiveInt` returns positive numbers. -/
structure DrainConfig where
  toAscii : String → Option String
  gcm : Gcm DerivedKey
  dispatchSecret : Option String
  outboxLeaseMs : Nat
  outboxMaxAttempts : Nat
  replyRetryBaseMs : Nat
  retentionMs : Nat
  leases : 0 < outboxLeaseMs
  attempts : 0 < outboxMaxAttempts

/-- An error of a delivery; `status` is what the webhook answered. -/
structure DeliveryError where
  message : String
  status : Option Nat

/-- `assertLoopbackHttpUrl(urlString)`: the error that it throws. -/
def assertLoopbackHttpUrl (toAscii : String → Option String) (urlString : String) :
    Except DeliveryError Unit :=
  match Url.parse toAscii urlString with
  | none => .error ⟨"reply targetUrl is not a valid URL", none⟩
  | some u =>
    if u.scheme ≠ "http" ∧ u.scheme ≠ "https" then
      .error ⟨"reply targetUrl uses disallowed protocol \"" ++ u.scheme ++ ":\"", none⟩
    else if String.ofList (Chair.stripBrackets (Url.hostname u).toList) ∉ loopbackReplyHosts then
      .error ⟨"reply targetUrl host \"" ++ Url.hostname u ++ "\" is not loopback", none⟩
    else .ok ()

/-- A request of `fetch`. -/
structure Post where
  outboxId : String
  url : String
  secured : Secured
  payload : ReplyPayload

/-- `sendOutboxReply(row, cfg)` up to `fetch`; `none` where it returns without one. -/
def sendOutboxReply (cfg : DrainConfig) (now : Int) (iv : Bytes) (id : String) (row : OutboxRow) :
    Except DeliveryError (Option Post) :=
  if row.kind ≠ .reply then .ok none
  else if row.targetUrl = "" then .error ⟨"outbox reply did not include targetUrl", none⟩
  else
    match assertLoopbackHttpUrl cfg.toAscii row.targetUrl with
    | .error err => .error err
    | .ok () => .ok (some {
        outboxId := id
        url := row.targetUrl
        secured := Kovael.Inbox.encryptPayload cfg.gcm cfg.dispatchSecret now iv row.payload.toJson
          row.payload.requestId
        payload := row.payload })

/-- How a `fetch` ends: with a response and its text, or with an error. -/
inductive FetchOutcome where
  | response (status : Nat) (text : String)
  | failed (message : String)

/-- `sendOutboxReply(row, cfg)` from `fetch` on. -/
def FetchOutcome.delivered : FetchOutcome → Except DeliveryError Unit
  | .response status text =>
    if 200 ≤ status ∧ status ≤ 299 then .ok ()
    else .error ⟨"reply webhook HTTP " ++ toString status ++ ": " ++ text, some status⟩
  | .failed message => .error ⟨message, none⟩

/-- `classifyOutboxDeliveryFailure(row, err, cfg).retryAt`. -/
def retryAt (cfg : DrainConfig) (now : Int) (row : OutboxRow) (err : DeliveryError) : Option Int :=
  if err.status.any (· ∈ permanentReplyStatus) then none
  else if cfg.outboxMaxAttempts ≤ row.attempts then none
  else if err.status.all (· ∈ retryableReplyStatus) then
    some (now + min 5000 (cfg.replyRetryBaseMs * max 1 row.attempts))
  else none

/-! ## The process -/

/-- A drain that is active: the row whose reply is under way, and the rows to come. -/
structure Draining where
  current : String × OutboxRow
  rest : List (String × OutboxRow)

structure InboxProcess where
  inFlight : List String
  runtimes : List (String × Json)
  /-- `active`, with the variables of the loop. -/
  drain : Option Draining

structure AgentInbox where
  now : Int
  hub : AgentHub
  process : Option InboxProcess
  posts : List Post
  /-- How the requests of `fetch` ended, while there was a drain to hear it. -/
  answers : List (String × FetchOutcome)
  /-- The drains that did not come to their end. -/
  abandoned : Nat

/-- What a stretch of the drain meets: the bytes that it draws, and the calls of the hub that
throw. -/
structure DrainIO where
  iv : Bytes
  claimThrows : Bool
  sentThrows : String → Bool
  failedThrows : String → Bool

inductive AgentInboxEvent where
  | clock (ms : Nat)
  | boot
  | crash
  | deliver (opening : Opening) (uuids : Nat → Nat → String) (req : InboxRequest)
  | runtimeEnds (i : Nat) (uuids : Nat → String) (outcome : Outcome) (io : DrainIO)
  | drainTick (io : DrainIO)
  | fetchEnds (outcome : FetchOutcome) (io : DrainIO)
  | maintenance

/-- `markOutboxSent(id)`, which nothing comes between. -/
def markOutboxSent (host : Host) (id : String) (hub : AgentHub) : Except String AgentHub :=
  match readOutboxSent host id hub with
  | .error message => .error message
  | .ok none => .ok hub
  | .ok (some stamp) => writeOutboxSent id stamp hub

/-- `markOutboxDeliveryFailed(id, error, retryAt, maxAttempts)`, which nothing comes between. -/
def markOutboxDeliveryFailed (env : HubEnv) (host : Host) (id error : String)
    (retryAt : Option Number) (maxAttempts : Number) (hub : AgentHub) : Except String AgentHub :=
  match readDeliveryFailed id error retryAt maxAttempts hub with
  | .error message => .error message
  | .ok call => .ok (writeDeliveryFailed env host call hub)

/-- A host whose clock stands still. -/
def standing (now : Int) (uuids : Nat → String) : Host := ⟨fun _ => now, uuids⟩

namespace AgentInbox

variable (env : HubEnv) (cfg : DrainConfig)

/-- The drain of the process, if there is a process. -/
def withDrain (drain : Option Draining) (s : AgentInbox) : AgentInbox :=
  { s with process := s.process.map fun p => { p with drain := drain } }

/-- The drain ends before its rows are done: what was claimed stays so. -/
def abandon (s : AgentInbox) : AgentInbox :=
  { s.withDrain none with abandoned := s.abandoned + 1 }

/-- The `catch` of `drainOutboxOnce`; `none` where the hub throws. -/
def deliveryFails (io : DrainIO) (id : String) (row : OutboxRow) (err : DeliveryError)
    (s : AgentInbox) : Option AgentInbox :=
  if io.failedThrows id then none
  else
    match markOutboxDeliveryFailed env (standing s.now fun _ => "") id
        (env.redactSensitiveText err.message) ((retryAt cfg s.now row err).map .ofInt)
        (.ofNat cfg.outboxMaxAttempts) s.hub with
    | .error _ => none
    | .ok hub => some { s with hub }

/-- What follows a delivery: `markOutboxSent(row.id)`, and the `catch` if that throws. -/
def delivers (io : DrainIO) (id : String) (row : OutboxRow) (s : AgentInbox) :
    Option AgentInbox :=
  match if io.sentThrows id then .error "database is locked"
      else markOutboxSent (standing s.now fun _ => "") id s.hub with
  | .ok hub => some { s with hub }
  | .error message => s.deliveryFails env cfg io id row ⟨message, none⟩

/-- The loop of `drainOutboxOnce`, to the next `fetch` or to its end. -/
def drainRows (io : DrainIO) : List (String × OutboxRow) → AgentInbox → AgentInbox
  | [], s => s.withDrain none
  | (id, row) :: rest, s =>
    match sendOutboxReply cfg s.now io.iv id row with
    | .ok (some post) =>
      { s.withDrain (some ⟨(id, row), rest⟩) with posts := s.posts ++ [post] }
    | .ok none =>
      match s.delivers env cfg io id row with
      | some s => drainRows io rest s
      | none => s.abandon
    | .error err =>
      match s.deliveryFails env cfg io id row err with
      | some s => drainRows io rest s
      | none => s.abandon

/-- `tick()`. -/
def tick (io : DrainIO) (s : AgentInbox) : AgentInbox :=
  if (s.process.bind InboxProcess.drain).isSome ∨ io.claimThrows = true then s
  else
    match claimDueOutbox (standing s.now fun _ => "") (.ofNat 10) (.ofNat cfg.outboxLeaseMs)
        s.hub with
    | .error _ => s
    | .ok (hub, rows) => ({ s with hub } : AgentInbox).drainRows env cfg io rows

/-- What follows the end of a `fetch`. -/
def settles (io : DrainIO) (id : String) (row : OutboxRow) (outcome : FetchOutcome)
    (s : AgentInbox) : Option AgentInbox :=
  match outcome.delivered with
  | .ok () => s.delivers env cfg io id row
  | .error err => s.deliveryFails env cfg io id row err

/-- A `fetch` of the drain ends. -/
def fetchEnds (outcome : FetchOutcome) (io : DrainIO) (d : Draining) (s : AgentInbox) :
    AgentInbox :=
  let s := { s with answers := s.answers ++ [(d.current.1, outcome)] }
  match s.settles env cfg io d.current.1 d.current.2 outcome with
  | some s => s.drainRows env cfg io d.rest
  | none => s.abandon

/-- A request to the process. -/
def deliver (opening : Opening) (uuids : Nat → Nat → String) (req : InboxRequest)
    (p : InboxProcess) (s : AgentInbox) : AgentInbox :=
  let handled :=
    handleInbox env opening (fun i => standing s.now (uuids i)) p.inFlight s.hub req
  { s with
    hub := handled.hub
    process := some { p with
      inFlight := handled.inFlight
      runtimes := p.runtimes ++ handled.started.toList } }

/-- The `i`-th runtime ends. Where `markSucceeded` throws, the failure is recorded later, and
where `markFailed` does, nothing is. -/
def runtimeEnds (i : Nat) (uuids : Nat → String) (outcome : Outcome) (io : DrainIO)
    (p : InboxProcess) (requestId : String) (payload : Json) (s : AgentInbox) : AgentInbox :=
  let proofFields : ProofFields :=
    { claimSessionId := payload.stringField? "claimSessionId"
      replyProofSecret := payload.stringField? "replyProofSecret" }
  let finished : InboxProcess := { p with
    inFlight := p.inFlight.filter fun r => r ≠ requestId
    runtimes := p.runtimes.eraseIdx i }
  match markDispatch env (standing s.now uuids) requestId outcome proofFields s.hub, outcome with
  | .ok (hub, _), _ => ({ s with hub, process := some finished } : AgentInbox).tick env cfg io
  | .error _, .succeeded _ => s
  | .error _, .failed _ => { s with process := some finished }

/-- `maintenance(retentionMs)`; the cache is not of this model. -/
def maintenance (s : AgentInbox) : AgentInbox :=
  let cutoff : Number := .ofInt (s.now - cfg.retentionMs)
  { s with hub := pruneOldReceipts cutoff (pruneTerminalOutbox cutoff s.hub) }

def step (s : AgentInbox) : AgentInboxEvent → Option AgentInbox
  | .clock ms => some { s with now := s.now + ms }
  -- the drain ticks as soon as it is started, and the timer goes on from there
  | .boot => if s.process.isSome then none else some { s with process := some ⟨[], [], none⟩ }
  | .crash =>
    s.process.map fun p =>
      { s with
        process := none
        abandoned := s.abandoned + if p.drain.isSome then 1 else 0 }
  | .deliver opening uuids req => s.process.map fun p => s.deliver env opening uuids req p
  | .runtimeEnds i uuids outcome io =>
    s.process.bind fun p => (p.runtimes[i]?).map fun runtime =>
      s.runtimeEnds env cfg i uuids outcome io p runtime.1 runtime.2
  | .drainTick io => s.process.map fun _ => s.tick env cfg io
  | .fetchEnds outcome io =>
    (s.process.bind InboxProcess.drain).map fun d => s.fetchEnds env cfg outcome io d
  | .maintenance => s.process.map fun _ => s.maintenance cfg

/-- A new hub file, and no process on it. -/
def init (now : Int) : AgentInbox := ⟨now, .init, none, [], [], 0⟩

end AgentInbox

/-- The runs of one adapter process after the other on its hub file. -/
def agentInboxRuns (env : HubEnv) (cfg : DrainConfig) (now : Int) :
    Lts AgentInbox AgentInboxEvent where
  init := .init now
  step := AgentInbox.step env cfg

end Kovael.Hub
