import Kovael.Js.Json
import Kovael.Js.Number
import Kovael.Js.OrderedMap
import Kovael.Chair.Security

/-!
# `AgentHubStore`: the edge log of one agent

`src/services/AgentHubStore.ts`: the tables of the hub and the operations on
dispatches and receipts. `Kovael.Hub.Outbox` has the operations on the outbox.

Mirroring notes vs the TS class:
- A table is a map from its primary key to the rest of the row, in rowid order.
  An operation that throws is `.error`; what it leaves behind is the hub it was
  given, since a transaction rolls back and the statements outside one come
  last in their operation.
- A transaction is one step. `recordInboundDispatch`, `markOutboxSent` and
  `markOutboxDeliveryFailed` read in one statement and write in a later one, so
  each of them is two definitions: `read…` is the operation up to and including
  its SELECT, `write…` the rest.
- Texts at rest (`payload_json`, `payload_body`) are kept as the values they
  parse back to, and columns that are sealed at rest as the values that were
  sealed.
- `host` is what an operation reads from outside: `now()` and
  `crypto.randomUUID()`, each a list of successive readings.
- SHA-256, the HMAC and `redactSensitiveText` are parameters. The memory table,
  the getters and the migration are not modelled here, nor are the failures of
  SQLite itself (a lock that times out, a full disk): an operation that ends in
  one does nothing.
-/

namespace Kovael.Hub

open Js (Number OrderedMap Clock Json)
open Chair (Hmac createChairReplyProof)

/-! ## Tables -/

inductive AgentDispatchStatus where
  | accepted
  | running
  | succeeded
  | failed
  deriving DecidableEq, Repr

inductive AgentOutboxKind where
  | reply
  | receipt
  deriving DecidableEq, Repr

inductive AgentOutboxStatus where
  | pending
  | sending
  | sent
  | failed
  | dead
  deriving DecidableEq, Repr

/-- The text of a status. -/
def AgentDispatchStatus.text : AgentDispatchStatus → String
  | .accepted => "accepted"
  | .running => "running"
  | .succeeded => "succeeded"
  | .failed => "failed"

/-- A row of `agent_dispatches`, under its `request_id`. -/
structure DispatchRow where
  topicId : String
  agentId : String
  status : AgentDispatchStatus
  receivedAt : Int
  startedAt : Option Int
  completedAt : Option Int
  payload : Json
  payloadSha256 : Option String
  replyUrl : Option String
  replyContent : Option String
  error : Option String
  duplicateCount : Nat
  lastSeenAt : Option Int
  runtimeAttempts : Nat
  lastRuntimeStartedAt : Option Int
  replayAfter : Option Int

/-- What a reply row posts: the `replyPayload` of `markDispatchSucceeded` and
`markDispatchFailed`. -/
structure ReplyPayload where
  topicId : String
  agentId : String
  content : String
  requestId : String
  claimSessionId : Option String
  replyProof : Option String
  status : AgentDispatchStatus
  error : Option String
  deriving DecidableEq, Repr

/-- A row of `agent_outbox`, under its `id`. -/
structure OutboxRow where
  requestId : String
  kind : AgentOutboxKind
  dedupeKey : String
  targetUrl : String
  payload : ReplyPayload
  payloadSha256 : String
  status : AgentOutboxStatus
  attempts : Nat
  nextAttemptAt : Option Int
  lastError : Option String
  createdAt : Int
  updatedAt : Int
  sentAt : Option Int
  deriving DecidableEq, Repr

/-- A row of `agent_receipts`, under its `id`. -/
structure ReceiptRow where
  requestId : Option String
  kind : String
  payload : Json
  prevHash : Option String
  receiptHash : String
  createdAt : Int

/-- The tables of one hub file. -/
structure AgentHub where
  dispatches : OrderedMap String DispatchRow
  outbox : OrderedMap String OutboxRow
  receipts : OrderedMap String ReceiptRow

/-- A hub file that was just created. -/
def AgentHub.init : AgentHub := ⟨.empty, .empty, .empty⟩

/-- What every process on the hub file agrees on. -/
structure HubEnv where
  agentId : String
  sha256 : String → String
  hmac : Hmac
  redactSensitiveText : String → String

/-- What one operation reads from outside. -/
structure Host where
  now : Clock
  randomUUID : Nat → String

/-! ## Texts and payloads -/

mutual

/-- `stableValue(value)`: keys in sorted order, as far as an object can be
filled in an order. `out["__proto__"] = …` adds no field. -/
def stableValue : Json → Json
  | .array xs => .array (stableItems xs)
  | .object fields =>
    .object (Js.enumerated (((stableFields fields).insertionSort
      (fun a b => Js.units a.1 ≤ Js.units b.1)).filter fun f => f.1 ≠ "__proto__"))
  | value => value

def stableItems : List Json → List Json
  | [] => []
  | x :: xs => stableValue x :: stableItems xs

def stableFields : List (String × Json) → List (String × Json)
  | [] => []
  | (key, v) :: fields => (key, stableValue v) :: stableFields fields

end

/-- `stableStringify(value)`. -/
def stableStringify (value : Json) : String := (stableValue value).stringify

/-- `requiredString(value, field)`. -/
def requiredString (value : Option String) (field : String) : Except String String :=
  match value with
  | none => .error (field ++ " is required")
  | some s => if Js.trim s = "" then .error (field ++ " is required") else .ok (Js.trim s)

/-- `stringOrNull(value)`. -/
def stringOrNull (value : Option String) : Option String :=
  value.bind fun s => if Js.trim s = "" then none else some (Js.trim s)

/-- `persistableDispatchPayload(payload)`. -/
def persistableDispatchPayload (payload : Json) : Json := payload.deleteField "replyProofSecret"

/-- The object that a reply row's payload is. -/
def ReplyPayload.toJson (p : ReplyPayload) : Json :=
  .object ([("topicId", .string p.topicId), ("agentId", .string p.agentId),
      ("content", .string p.content), ("requestId", .string p.requestId)]
    ++ (p.claimSessionId.map fun s => ("claimSessionId", Json.string s)).toList
    ++ (p.replyProof.map fun s => ("replyProof", Json.string s)).toList
    ++ [("status", .string p.status.text)]
    ++ (p.error.map fun s => ("error", Json.string s)).toList)

/-! ## Receipts -/

/-- The receipt of a request that was appended last: `ORDER BY created_at DESC,
rowid DESC LIMIT 1`. -/
def AgentHub.lastReceipt (hub : AgentHub) (requestId : String) : Option ReceiptRow :=
  (hub.receipts.values.filter fun r => r.requestId = some requestId).foldl
    (fun last r => match last with
      | none => some r
      | some l => if l.createdAt ≤ r.createdAt then some r else some l)
    none

/-- `appendReceipt(requestId, kind, payload)`. -/
def appendReceipt (env : HubEnv) (createdAt : Int) (id requestId kind : String) (payload : Json)
    (hub : AgentHub) : Except String AgentHub :=
  let prevHash := (hub.lastReceipt requestId).map ReceiptRow.receiptHash
  let receiptHash := env.sha256 (prevHash.getD "" ++ "\n" ++ kind ++ "\n" ++ toString createdAt
    ++ "\n" ++ stableStringify payload)
  if hub.receipts.has id then .error "UNIQUE constraint failed: agent_receipts.id"
  else .ok { hub with
    receipts := hub.receipts.set id
      { requestId := some requestId, kind, payload, prevHash, receiptHash, createdAt } }

/-! ## Dispatches -/

/-- What `recordInboundDispatch` knows when it has looked for the row. -/
structure InboundCall where
  requestId : String
  topicId : String
  agentId : String
  payload : Json
  payloadHash : String
  stamp : Int
  existing : Bool

/-- `recordInboundDispatch(payload)`, up to the decision what to write. -/
def readInboundDispatch (env : HubEnv) (host : Host) (payload : Json) (hub : AgentHub) :
    Except String InboundCall := do
  let requestId ← requiredString (payload.stringField? "requestId") "requestId"
  let topicId ← requiredString (payload.stringField? "topicId") "topicId"
  let agentId ← requiredString (payload.stringField? "agentId") "agentId"
  if agentId ≠ env.agentId then
    .error ("wrong agent hub: expected " ++ env.agentId ++ ", got " ++ agentId)
  else
    let payloadHash := env.sha256 (stableStringify payload)
    match hub.dispatches.get? requestId with
    | none =>
      .ok { requestId, topicId, agentId, payload, payloadHash, stamp := host.now 0,
            existing := false }
    | some row =>
      -- a row without a hash, or with an empty one, takes any payload
      if row.payloadSha256.any fun h => h ≠ "" && h ≠ payloadHash then
        .error ("dispatch payload hash conflict for requestId " ++ requestId)
      else
        .ok { requestId, topicId, agentId, payload, payloadHash, stamp := host.now 0,
              existing := true }

/-- A redelivery, counted on its row. -/
def InboundCall.duplicate (call : InboundCall) (row : DispatchRow) : DispatchRow :=
  { row with
    duplicateCount := row.duplicateCount + 1
    lastSeenAt := some call.stamp
    payloadSha256 := some (row.payloadSha256.getD call.payloadHash) }

/-- The row of a first delivery. -/
def InboundCall.row (call : InboundCall) : DispatchRow where
  topicId := call.topicId
  agentId := call.agentId
  status := .accepted
  receivedAt := call.stamp
  startedAt := none
  completedAt := none
  payload := stableValue (persistableDispatchPayload call.payload)
  payloadSha256 := some call.payloadHash
  replyUrl := stringOrNull (call.payload.stringField? "replyUrl")
  replyContent := none
  error := none
  duplicateCount := 0
  lastSeenAt := some call.stamp
  runtimeAttempts := 0
  lastRuntimeStartedAt := none
  replayAfter := none

/-- The rest of `recordInboundDispatch`: count a redelivery, or insert the row
with its receipt. -/
def writeInboundDispatch (env : HubEnv) (host : Host) (call : InboundCall) (hub : AgentHub) :
    Except String AgentHub :=
  if call.existing then
    .ok { hub with dispatches := hub.dispatches.modify call.requestId call.duplicate }
  -- another caller may have inserted the row since the SELECT
  else if hub.dispatches.has call.requestId then
    .error "UNIQUE constraint failed: agent_dispatches.request_id"
  else
    appendReceipt env (host.now 0) (host.randomUUID 0) call.requestId "dispatch_received"
      (.object [("requestId", .string call.requestId), ("topicId", .string call.topicId),
        ("agentId", .string call.agentId), ("payloadHash", .string call.payloadHash),
        ("status", .string "accepted")])
      { hub with dispatches := hub.dispatches.set call.requestId call.row }

/-- The text that an unknown request id throws. -/
def unknownDispatch (requestId : String) : String := "unknown dispatch requestId " ++ requestId

/-- A runtime start, on its row. -/
def DispatchRow.started (row : DispatchRow) (stamp : Int) : DispatchRow :=
  { row with
    status := .running
    startedAt := some (row.startedAt.getD stamp)
    runtimeAttempts := row.runtimeAttempts + 1
    lastRuntimeStartedAt := some stamp
    replayAfter := none
    error := none }

/-- `markDispatchRunning(requestId)`. -/
def markDispatchRunning (env : HubEnv) (host : Host) (requestId : String) (hub : AgentHub) :
    Except String AgentHub :=
  match hub.dispatches.get? requestId with
  | none => .error (unknownDispatch requestId)
  | some row =>
    appendReceipt env (host.now 1) (host.randomUUID 0) requestId "runtime_started"
      (.object [("requestId", .string requestId), ("status", .string "running"),
        ("runtimeAttempts", .ofInt (row.started (host.now 0)).runtimeAttempts),
        ("startedAt", .ofInt (host.now 0))])
      { hub with dispatches := hub.dispatches.set requestId (row.started (host.now 0)) }

/-- `scheduleDispatchReplay(requestId, replayAfter)`. -/
def scheduleDispatchReplay (requestId : String) (replayAfter : Number) (hub : AgentHub) :
    Except String AgentHub :=
  if !replayAfter.isFinite || replayAfter.lt (.ofInt 0) then
    .error "replayAfter must be a non-negative timestamp"
  else match hub.dispatches.get? requestId with
    | none => .error (unknownDispatch requestId)
    | some row =>
      .ok { hub with
        dispatches := hub.dispatches.set requestId { row with replayAfter := replayAfter.floor? } }

end Kovael.Hub
