import Kovael.Chair.CircuitBreaker
import Kovael.Chair.Telemetry
import Kovael.Conversation.Convene

/-!
# The turns of all conversations, and what the orchestrator counts of them

`ConversationBus.convene` (`src/services/ConversationBus.ts`) asks the circuit
breaker before it hands a turn to a live chair, and reports on its bus how the
turn went; `MeshOrchestrator` counts the reports (`recordChairDispatchMetric`)
and passes them on to the breaker. `turns` is the system of the two and of all
`stream()` calls: any number of convene runs take turns in any order.

Mirroring notes vs the TS:
- A run of `convene` is taken turn by turn; which speaker comes next, in which
  topic, is in the event. The loop itself is in `Kovael.Conversation.Convene`,
  whose `select` decides about a turn here too.
- A turn has a provider of its own, and its number names both. Between the
  selection of a live chair and the claim lookup of `stream()` there is no
  `await`, so the call sees the claim that was selected.
- Bus events that neither the metrics nor the breaker look at are not modelled,
  nor the fields nobody decides by (`topicId`, `reason`, latencies).
- How `postMessage` or the local stand-in fares is in the event that ends the
  turn.
- `crypto.randomUUID()` is fresh and never empty.
-/

namespace Kovael.Dispatch

open Js (OrderedMap)
open Chair (Bridge StartInput ChairDispatchTelemetryEvent CircuitBreaker CircuitBreakerConfig)
open Conversation (HeadInput select hasInbox)

/-! ## `MeshOrchestrator` -/

/-- The bus events that are counted. -/
inductive BusEvent where
  | telemetry (e : ChairDispatchTelemetryEvent)
  | success (agentId : String) (requestId : Option String)
  | failure (agentId : String) (requestId : Option String)

structure ChairDispatchMetrics where
  attempts : Nat
  retries : Nat
  accepted : Nat
  successes : Nat
  failures : Nat
  inflight : Nat
  deriving DecidableEq, Repr

/-- What `MeshOrchestrator` keeps about dispatches. -/
structure Orchestrator where
  chairDispatchMetrics : ChairDispatchMetrics
  /-- A set, in order of insertion. -/
  activeChairDispatches : OrderedMap String Unit
  circuitBreaker : CircuitBreaker

namespace Orchestrator

/-- The set has changed, and the gauge shows its size. -/
def withActive (o : Orchestrator) (active : OrderedMap String Unit) : Orchestrator :=
  { o with
    activeChairDispatches := active
    chairDispatchMetrics := { o.chairDispatchMetrics with inflight := active.size } }

/-- The open dispatches, oldest first. -/
def activeIds (o : Orchestrator) : List String :=
  o.activeChairDispatches.entries.map Prod.fst

/-- `finishChairDispatchMetric(requestId)`. -/
def finishChairDispatchMetric (requestId : Option String) (o : Orchestrator) : Orchestrator :=
  match requestId.filter (· ≠ "") with
  | some id => o.withActive (o.activeChairDispatches.delete id)
  | none =>
    match o.activeIds.head? with
    | some first => o.withActive (o.activeChairDispatches.delete first)
    | none => o.withActive o.activeChairDispatches

/-- `recordChairDispatchMetric(event)`. -/
def recordChairDispatchMetric (e : BusEvent) (o : Orchestrator) : Orchestrator :=
  let metrics := o.chairDispatchMetrics
  match e with
  | .telemetry (.started ids) =>
    if ids.requestId = "" then o
    else o.withActive (o.activeChairDispatches.set ids.requestId ())
  | .telemetry (.attempt _ attempt _ _) =>
    { o with chairDispatchMetrics :=
        { metrics with
          attempts := metrics.attempts + 1
          retries := if 1 < attempt then metrics.retries + 1 else metrics.retries } }
  | .telemetry (.accepted ..) =>
    { o with chairDispatchMetrics := { metrics with accepted := metrics.accepted + 1 } }
  | .success _ requestId =>
    finishChairDispatchMetric requestId
      { o with chairDispatchMetrics := { metrics with successes := metrics.successes + 1 } }
  | .failure _ requestId =>
    finishChairDispatchMetric requestId
      { o with chairDispatchMetrics := { metrics with failures := metrics.failures + 1 } }

/-- The breaker learns how a dispatch ended. -/
def recordOutcome (now : Int) (e : BusEvent) (cb : CircuitBreaker) : CircuitBreaker :=
  match e with
  | .telemetry _ => cb
  | .success agentId _ => cb.recordSuccess agentId
  | .failure agentId _ => cb.recordFailure agentId now

/-- The `bus_event` listener. -/
def onBusEvent (now : Int) (e : BusEvent) (o : Orchestrator) : Orchestrator :=
  { o.recordChairDispatchMetric e with
    circuitBreaker := recordOutcome now e o.circuitBreaker }

/-- The listener's calls for the telemetry of one step. -/
def onTelemetry (es : List ChairDispatchTelemetryEvent) (o : Orchestrator) : Orchestrator :=
  es.foldl (fun o e => o.onBusEvent 0 (.telemetry e)) o

end Orchestrator

/-! ## Turns -/

inductive Stage where
  /-- The local stand-in speaks. -/
  | standIn
  /-- A live chair is to be called. -/
  | selected (claim : Chair.ChairClaim)
  /-- `stream()` threw before it drew a request id. -/
  | refused
  /-- Inside `stream()`. -/
  | calling (requestId : String)

structure Turn where
  speaker : String
  topicId : String
  stage : Stage

structure State where
  bridge : Bridge
  orchestrator : Orchestrator
  /-- The turns that are not over, by number. -/
  turns : OrderedMap Nat Turn
  nextTurn : Nat

inductive Event where
  /-- A run takes the next speaker off its queue. -/
  | head (now : Int) (speaker topicId : String) (claim : Option Presence.ChairClaim)
      (requireLiveChairs : Bool)
  /-- `stream()` runs up to its first `fetch`. -/
  | dispatch (turn : Nat) (i : StartInput)
  /-- Another step of the calls. -/
  | bridge (e : Chair.Event)
  /-- The stream of a turn has ended; `throws` is whether the turn fails although
  no call of it did. -/
  | ended (now : Int) (turn : Nat) (throws : Bool)
  /-- A chair went stale or expired. -/
  | lapsed (now : Int) (agentId : String)

/-- The dispatch gate is asked: a chair with an inbox that is not offline. -/
def asksGate (claim : Option Presence.ChairClaim) : Bool :=
  claim.any fun c => hasInbox c && c.status ≠ .offline

/-- The parts of a claim that `stream()` reads. -/
def streamClaim (c : Presence.ChairClaim) : Chair.ChairClaim where
  sessionId := c.sessionId
  status :=
    match c.status with
    | .online => .online
    | .stale => .stale
    | .offline => .offline
  inboxUrl := c.inboxUrl

/-- What a turn reads before it is decided upon. -/
def headInput (claim : Option Presence.ChairClaim) (dispatchGate requireLiveChairs : Bool) :
    HeadInput where
  claim := claim
  dispatchGate := dispatchGate
  requireLiveChairs := requireLiveChairs
  historyThrows := false
  postThrows := false

namespace State

/-- A bus event. -/
def put (s : State) (now : Int) (e : BusEvent) : State :=
  { s with orchestrator := s.orchestrator.onBusEvent now e }

/-- A turn begins. -/
def openTurn (s : State) (turn : Turn) : State :=
  { s with turns := s.turns.set s.nextTurn turn, nextTurn := s.nextTurn + 1 }

/-- The gate has been asked. -/
def withBreaker (s : State) (cb : CircuitBreaker) : State :=
  { s with orchestrator := { s.orchestrator with circuitBreaker := cb } }

/-- The calls have gone on, and what they announced is on the bus. -/
def withBridge (s : State) (b : Bridge) : State :=
  { s with
    bridge := b
    orchestrator := s.orchestrator.onTelemetry
      (b.telemetry.drop s.bridge.telemetry.length) }

/-- The dispatch gate and the breaker after it. -/
def gate (s : State) (now : Int) (speaker : String) (claim : Option Presence.ChairClaim) :
    Bool × CircuitBreaker :=
  if asksGate claim then s.orchestrator.circuitBreaker.canDispatch speaker now
  else (false, s.orchestrator.circuitBreaker)

/-- The head of a turn. -/
def head (s : State) (now : Int) (speaker topicId : String) (claim : Option Presence.ChairClaim)
    (requireLiveChairs : Bool) : State :=
  let (allowed, cb) := s.gate now speaker claim
  let s := s.withBreaker cb
  match select (headInput claim allowed requireLiveChairs), claim with
  | .live, some c => s.openTurn ⟨speaker, topicId, .selected (streamClaim c)⟩
  | .unavailable, _ => s.put now (.failure speaker none)
  | .localFallback, _ => s.openTurn ⟨speaker, topicId, .standIn⟩
  | _, _ => s

/-- What `stream()` is called with in a turn. -/
def startInput (turn : Nat) (t : Turn) (claim : Chair.ChairClaim) (i : StartInput) : StartInput :=
  { i with
    provider := turn, providerId := t.speaker
    topicId := some t.topicId, agentId := some t.speaker, claim := some claim }

/-- `stream()` up to its first `fetch`, in a turn of a live chair. -/
def dispatch (s : State) (turn : Nat) (t : Turn) (i : StartInput) : Option State :=
  match t.stage with
  | .selected claim =>
    if i.requestId = "" ∨ s.bridge.streams.has i.requestId then none
    else
      (Chair.start (startInput turn t claim i) s.bridge).map fun b =>
        let stage := if b.streams.has i.requestId then .calling i.requestId else .refused
        { s.withBridge b with turns := s.turns.set turn { t with stage := stage } }
  | _ => none

/-- How a turn ends: the event on the bus, or no event for a stand-in that spoke;
`none` while the turn's stream has not ended. -/
def outcome (s : State) (turn : Nat) (t : Turn) (throws : Bool) : Option (Option BusEvent) :=
  match t.stage with
  | .standIn => some (if throws then some (.failure t.speaker none) else none)
  | .selected _ => none
  | .refused => some (some (.failure t.speaker none))
  | .calling id =>
    match (s.bridge.streams.get? id).map Chair.Stream.phase with
    | some (.threw err) => some (some (.failure t.speaker err.requestId))
    | some .returned =>
      -- an error of `postMessage` names no request
      if throws then some (some (.failure t.speaker none))
      else
        some (some (.success t.speaker ((s.bridge.lastReceipts.get? turn).map fun receipt =>
          receipt.requestId)))
    | _ => none

/-- The turn is over. -/
def close (s : State) (now : Int) (turn : Nat) (e : Option BusEvent) : State :=
  match e with
  | some e => { s.put now e with turns := s.turns.delete turn }
  | none => { s with turns := s.turns.delete turn }

end State

/-- One step of the system. -/
def step (env : Chair.Env) (s : State) : Event → Option State
  | .head now speaker topicId claim requireLiveChairs =>
    some (s.head now speaker topicId claim requireLiveChairs)
  | .dispatch turn i => (s.turns.get? turn).bind fun t => s.dispatch turn t i
  | .bridge e =>
    if e.startsCall then none else (Chair.step env s.bridge e).map s.withBridge
  | .ended now turn throws =>
    (s.turns.get? turn).bind fun t => (s.outcome turn t throws).map (s.close now turn)
  | .lapsed now agentId =>
    some (s.withBreaker (s.orchestrator.circuitBreaker.recordFailure agentId now))

/-- Nothing dispatched yet. -/
def State.init (cfg : CircuitBreakerConfig) : State where
  bridge := .init
  orchestrator := ⟨⟨0, 0, 0, 0, 0, 0⟩, .empty, .new cfg⟩
  turns := .empty
  nextTurn := 0

/-- All turns of all conversations. -/
def turns (env : Chair.Env) (cfg : CircuitBreakerConfig) : Lts State Event where
  init := .init cfg
  step := step env

end Kovael.Dispatch
