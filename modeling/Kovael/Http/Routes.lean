import Kovael.Chair.Bridge
import Kovael.Chair.Envelope
import Kovael.Http.Support
import Kovael.Presence.Registry
import Kovael.Supervisor.Runtimes

/-!
# The REST handlers

`handleChairRequest`, `handleAgentRuntimeRequest`, `handleConversationRequest`
and `handleTracesRequest` of `src/services/http`, each as a function of the
request, of the services it changes and of what it meets outside.

Mirroring notes:
- `Handled` is how the promise of a handler ends, with the responses that were
  written on the way.
- The chair registry, the runtime supervisor and the chair bridge are the models
  of those classes. The calls of the conversation bus stand inside a `try`, so
  any way in which they end is allowed; `convene` is async, and what it throws
  is caught where it is called.
- The statuses that the supervisor prints, the traces of the ring and the JSON
  of what the bus returns are the host's. `broadcast` is not modelled: it
  neither throws nor answers.
- A field that is `undefined` is left out of a response, as `JSON.stringify`
  leaves it out.
-/

namespace Kovael.Http

open Js Crypto

/-- The options of `conveneCommittee` that come from the request. -/
structure CommitteeOptions where
  quorumThreshold : Number
  failureThreshold : Number
  traceparent : Option String
  tracestate : Option String
  deriving DecidableEq, Repr

/-- The calls of the conversation bus, as they end: the JSON of what is returned, or the
message of what is thrown. `conveneCommittee` throws an error with a code, or one without. -/
structure ConversationBus where
  getHistory : String → Except String Json
  createTopic : String → List String → Except String Json
  postMessage : String → String → String → Except String Json
  conveneCommittee : String → String → CommitteeOptions → Except (Option String) Json
  closeTopic : String → Except String Unit

/-- The ring of traces. -/
structure TraceRing where
  get : String → Option Json
  list : Int → List Json
  stats : Json

/-- What a request meets outside the handlers. -/
structure Host where
  toAscii : String → Option String
  number : String → String
  /-- `String(n)` -/
  print : Number → String
  /-- `Number(s)` of a string -/
  toNumber : String → Number
  clock : Clock
  sessionId : String
  disk : String → Bool
  runtime : Supervisor.RecordHost
  /-- what each runtime meets when all of them are started -/
  runtimes : String → Supervisor.RecordHost
  busy : Supervisor.BusyWork
  /-- `statusFor` of a record, `null` for none -/
  agentStatus : Supervisor.AgentRuntimeSupervisor → String → Json
  runtimeSnapshot : Supervisor.AgentRuntimeSupervisor → Json
  conversationBus : ConversationBus
  ring : Option TraceRing
  gcm : Gcm DerivedKey
  calls : List (Crypto.Call DerivedKey)
  dispatchSecret : Option String

/-- What the services are configured with. -/
structure Config where
  chairs : Presence.ChairRegistryConfig
  supervisor : Supervisor.SupervisorConfig
  bridge : Chair.Env
  boundPort : Nat

/-- The services that the handlers change. -/
structure Context where
  chairs : Presence.Registry
  supervisor : Supervisor.AgentRuntimeSupervisor
  bridge : Chair.Bridge
  /-- `mode === 'idle'` of the resource governor -/
  idle : Bool

/-- How a handler ends: the services after it, what it wrote, and whether its promise
rejects. -/
structure Handled where
  context : Context
  responses : List Response
  rejected : Bool

namespace Handled

/-- `writeJson(res, status, body)`, and return. -/
def answered (ctx : Context) (status : Nat) (body : Json) : Handled := ⟨ctx, [⟨status, body⟩], false⟩

/-- Something throws. -/
def rejects (ctx : Context) : Handled := ⟨ctx, [], true⟩

end Handled

/-- `const body = await readJsonBody(req, res); if (body === null) return;`. -/
def withBody (ctx : Context) (reading : Reading) (k : Json → Handled) : Handled :=
  match reading.resolved with
  | some value :: _ =>
    { k value with responses := reading.responses ++ (k value).responses }
  | _ => ⟨ctx, reading.responses, false⟩

/-! ## Fields and paths -/

/-- `typeof body[key] === 'string' ? body[key].trim() : ''`. -/
def trimmed (body : Json) (key : String) : String := trim ((body.stringField? key).getD "")

/-- A field, unless it is `undefined`. -/
def field (key : String) (value : Option Json) : List (String × Json) :=
  value.toList.map fun v => (key, v)

/-- `{ error: 'missing_required_fields', need }`. -/
def missingFields (need : List String) : Json :=
  .object [("error", .string "missing_required_fields"), ("need", .array (need.map .string))]

/-- `pathname.replace(/^route\/?/, '')`. -/
def dropRoute (route pathname : String) : String :=
  match after? route pathname with
  | none => pathname
  | some rest => (after? "/" rest).getD rest

/-- `pathname.match(/^route\/([^/]+)tail\/?$/)[1]`. -/
def matchSegment (route tail pathname : String) : Option String :=
  (after? (route ++ "/") pathname).bind fun rest =>
    let segment := rest.toList.takeWhile (· ≠ '/')
    let after := String.ofList (rest.toList.dropWhile (· ≠ '/'))
    if segment ≠ [] ∧ (after = tail ∨ after = tail ++ "/") then some (String.ofList segment)
    else none

section

variable (cfg : Config) (host : Host) (ctx : Context)

/-! ## `ChairRoutes.ts` -/

/-- `stringItems(value, maxItems)`. -/
def stringItems (value : Option Json) (maxItems : Nat) : List String :=
  match value with
  | some (.array xs) => (xs.filterMap Json.string?).take maxItems
  | _ => []

/-- A chair as `snapshot()` copies it. -/
def chairJson (c : Presence.ChairClaim) : Json :=
  .object ([
    ("agentId", .string c.agentId),
    ("sessionId", .string c.sessionId),
    ("provider", .string c.provider),
    ("capabilities", .array (c.capabilities.map .string)),
    ("trustTier", .number (host.print c.trustTier)),
    ("claimedAt", .ofInt c.claimedAt),
    ("lastBeaconAt", .ofInt c.lastBeaconAt),
    ("status", .string c.status.text)]
    ++ field "host" (c.host.map .string) ++ field "note" (c.note.map .string)
    ++ field "inboxUrl" (c.inboxUrl.map .string))

/-- `context.chairs.stats()`. -/
def chairStats : Json :=
  let count (status : Presence.ChairStatus) : Nat :=
    ctx.chairs.chairs.values.countP fun c => c.status = status
  .object [
    ("total", .ofInt ctx.chairs.chairs.size),
    ("online", .ofInt (count .online)),
    ("stale", .ofInt (count .stale))]

/-- The input of the claim that a body asks for. -/
def claimInput (body : Json) : Presence.ClaimInput where
  agentId := trimmed body "agentId"
  provider := trimmed body "provider"
  capabilities := some (stringItems (body.field? "capabilities") 32)
  trustTier :=
    match body.field? "trustTier" with
    | some (.number text) => some (Json.numberValue text)
    | _ => none
  host := (body.stringField? "host").map (sliceStart 200)
  note := (body.stringField? "note").map (sliceStart 200)
  inboxUrl := (body.stringField? "inboxUrl").map trim

/-- `Math.floor(healthyMs / 2)`. -/
def halfOf : Number → Number
  | .fin q => .ofInt ⌊q / 2⌋
  | n => n

/-- `action === 'claim'`. -/
def claimChair (body : Json) : Handled :=
  let input := claimInput body
  if input.agentId = "" ∨ input.provider = "" then
    .answered ctx 400 (missingFields ["agentId", "provider"])
  else
    let outcome := Presence.claim ctx.chairs host.disk (host.clock 0) host.sessionId input
    let ctx := { ctx with chairs := outcome.registry }
    match outcome.returned with
    | none => .rejects ctx
    | some claim => .answered ctx 200 (.object [
        ("agentId", .string claim.agentId),
        ("sessionId", .string claim.sessionId),
        ("ttlMs", .number (host.print cfg.chairs.offlineMs)),
        ("heartbeatIntervalMs", .number (host.print (halfOf cfg.chairs.healthyMs)))])

/-- `action === 'heartbeat'`. -/
def heartbeatChair (body : Json) : Handled :=
  let agentId := trimmed body "agentId"
  let sessionId := trimmed body "sessionId"
  if agentId = "" ∨ sessionId = "" then
    .answered ctx 400 (missingFields ["agentId", "sessionId"])
  else
    let outcome := Presence.heartbeat ctx.chairs host.disk (host.clock 0) agentId sessionId
      ((body.stringField? "note").map (sliceStart 200))
    let ctx := { ctx with chairs := outcome.registry }
    match outcome.returned with
    | none => .rejects ctx
    | some none => .answered ctx 409 (errorBody "unknown_or_superseded_session")
    | some (some claim) => .answered ctx 200 (.object [
        ("status", .string claim.status.text), ("lastBeaconAt", .ofInt claim.lastBeaconAt)])

/-- `action === 'release'`. -/
def releaseChair (body : Json) : Handled :=
  let agentId := trimmed body "agentId"
  let sessionId := trimmed body "sessionId"
  if agentId = "" ∨ sessionId = "" then
    .answered ctx 400 (missingFields ["agentId", "sessionId"])
  else
    let outcome := Presence.release ctx.chairs host.disk (host.clock 0) agentId sessionId
      "client_release"
    let ctx := { ctx with chairs := outcome.registry }
    match outcome.returned with
    | none => .rejects ctx
    | some ok => .answered ctx 200 (.object [("released", .bool ok)])

/-- The receipt of a reply. -/
def receiptJson (receipt : Chair.ChairDispatchReceipt) : Json :=
  .object ([
    ("requestId", .string receipt.requestId),
    ("topicId", .string receipt.topicId),
    ("agentId", .string receipt.agentId),
    ("claimSessionId", .string receipt.claimSessionId),
    ("status", .string (if receipt.status = .failed then "failed" else "succeeded")),
    ("receivedAt", .ofInt receipt.receivedAt),
    ("proofVerified", .bool receipt.proofVerified)]
    ++ field "dispatchAttempts" (receipt.dispatchAttempts.map fun n => .ofInt n)
    ++ field "dispatchLatencyMs" (receipt.dispatchLatencyMs.map .ofInt)
    ++ field "error" (receipt.error.map .string))

/-- `action === 'reply'`, once the body is open. -/
def replyOpened (body : Json) : Handled :=
  let topicId := trimmed body "topicId"
  let agentId := trimmed body "agentId"
  let requestId := trimmed body "requestId"
  let claimSessionId := trimmed body "claimSessionId"
  let replyProof := trimmed body "replyProof"
  if requestId = "" ∨ agentId = "" ∨ claimSessionId = "" ∨ replyProof = "" then
    .answered ctx 400 (missingFields ["requestId", "agentId", "claimSessionId", "replyProof"])
  else
    let (bridge, result) := Chair.submitReplyForRequest cfg.bridge host.clock
      { requestId
        agentId
        claimSessionId
        replyProof
        topicId := if topicId = "" then none else some topicId
        content := some ((body.stringField? "content").getD "")
        status := some (if body.stringField? "status" = some "failed" then .failed else .succeeded)
        error := body.stringField? "error" } ctx.bridge
    let ctx := { ctx with bridge }
    match result with
    | .refused status code => .answered ctx status (errorBody code)
    | .ok receipt => .answered ctx 200 (.object [
        ("success", .bool true), ("receipt", receiptJson receipt)])

/-- `action === 'reply'`. -/
def replyChair (body : Json) : Handled :=
  match Chair.openChairDispatchBody host.gcm host.number host.calls host.dispatchSecret
      (host.clock 0) body with
  | .ok body => replyOpened cfg host ctx body
  | .error (.security status code _) => .answered ctx status (errorBody code)
  | .error .typeError => .answered ctx 401 (errorBody "invalid_chair_dispatch_security")

/-- A `POST`, once its body was read. -/
def postChair (action : String) (body : Json) : Handled :=
  if action = "claim" then claimChair cfg host ctx body
  else if action = "heartbeat" then heartbeatChair host ctx body
  else if action = "release" then releaseChair host ctx body
  else if action = "reply" then replyChair cfg host ctx body
  else .answered ctx 404 (.object [
    ("error", .string "unknown_chair_action"), ("action", .string action)])

/-- `action === 'reply' ? 256 * 1024 : undefined`, where `undefined` is the default. -/
def bodyLimit (action : String) : Nat := if action = "reply" then 256 * 1024 else 16 * 1024

/-- `handleChairRequest(context, req, res)`. -/
def handleChairRequest (req : Request) : Handled :=
  match createRequestUrl host.toAscii req with
  | none => .rejects ctx
  | some url =>
    let action := dropRoute "/api/v1/chairs" url.pathname
    if req.method = "GET" ∧ (action = "" ∨ action = "snapshot") then
      .answered ctx 200 (.object [
        ("chairs", .array (ctx.chairs.chairs.values.map (chairJson host))),
        ("stats", chairStats ctx)])
    else if req.method ≠ "POST" then .answered ctx 405 (errorBody "method_not_allowed")
    else
      withBody ctx (readJsonBody host.number (bodyLimit action) req.body)
        (postChair cfg host ctx action)

/-! ## `AgentRuntimeRoutes.ts` -/

/-- The parts of a path, as they stand in it. -/
def rawParts (pathname : String) : List String :=
  (((dropRoute "/api/v1/agent-runtimes" pathname).toList.splitOn '/').filter
    fun part => !part.isEmpty).map String.ofList

/-- `routeParts(pathname)`; `none` if `decodeURIComponent` throws. -/
def routeParts (pathname : String) : Option (List String) :=
  (rawParts pathname).mapM Utf8.decodeURIComponent

/-- `parseControlOptions(body)`; a timeout is checked, and kept by no model. -/
def parseControlOptions (body : Json) : Except Json Supervisor.AgentRuntimeControlOptions :=
  let value : Supervisor.AgentRuntimeControlOptions :=
    { reason := (body.stringField? "reason").map fun reason => sliceStart 160 (trim reason)
      force := isTrue (body.field? "force")
      sticky := none }
  match body.field? "timeoutMs" with
  | none => .ok value
  | some (.number text) =>
    let timeoutMs := Json.numberValue text
    if timeoutMs.isFinite && (Number.ofInt 0).lt timeoutMs then .ok value
    else .error (errorBody "invalid_timeout_ms")
  | some _ => .error (errorBody "invalid_timeout_ms")

/-- `responseBody(result, agentId)`. -/
def responseBody (action agentId : String)
    (answer : Supervisor.AgentRuntimeSupervisor × Supervisor.AgentRuntimeControlResult) : Json :=
  match answer.2.error with
  | some error => .object ([("error", .string error), ("agentId", .string agentId)]
      ++ field "busy" (answer.2.busy.map fun busy => .object [
        ("accepted", .ofInt busy.accepted), ("running", .ofInt busy.running)])
      ++ [("agent", host.agentStatus answer.1 agentId)])
  | none => .object [
      ("action", .string action),
      ("accepted", .bool answer.2.accepted),
      ("changed", .bool answer.2.changed),
      ("statusCode", .ofInt answer.2.statusCode),
      ("agent", host.agentStatus answer.1 agentId)]

/-- `noteActivity`: the first activity after an idle time starts the runtimes. -/
def noteActivity : Context :=
  if ctx.idle then
    { ctx with
      idle := false
      supervisor := Supervisor.start cfg.supervisor host.runtimes cfg.boundPort "resource_active"
        ctx.supervisor }
  else ctx

/-- What a control request answers. -/
def controlled (action agentId : String)
    (answer : Supervisor.AgentRuntimeSupervisor × Supervisor.AgentRuntimeControlResult) : Handled :=
  .answered { ctx with supervisor := answer.1 } answer.2.statusCode
    (responseBody host action agentId answer)

/-- A `POST`, once its body was read. -/
def controlRuntime (agentId action : String) (body : Json) : Handled :=
  match parseControlOptions body with
  | .error error => .answered ctx 400 error
  | .ok options =>
    if action = "start" then
      let ctx := noteActivity cfg host ctx
      controlled host ctx action agentId
        (Supervisor.startAgent cfg.supervisor host.runtime agentId none options.reason ctx.supervisor)
    else if action = "stop" then
      controlled host ctx action agentId
        (Supervisor.stopAgent cfg.supervisor host.runtime agentId options host.busy ctx.supervisor)
    else if action = "restart" then
      let ctx := noteActivity cfg host ctx
      controlled host ctx action agentId
        (Supervisor.restartAgent cfg.supervisor host.runtime agentId none options host.busy
          ctx.supervisor)
    else .answered ctx 404 (.object [
      ("error", .string "unknown_agent_runtime_action"), ("action", .string action)])

/-- `handleAgentRuntimeRequest(context, req, res)`. -/
def handleAgentRuntimeRequest (req : Request) : Handled :=
  match (createRequestUrl host.toAscii req).bind fun url => routeParts url.pathname with
  | none => .rejects ctx
  | some parts =>
    if req.method = "GET" then
      match parts with
      | [] => .answered ctx 200 (host.runtimeSnapshot ctx.supervisor)
      | [agentId] =>
        match ctx.supervisor.records.get? agentId with
        | none => .answered ctx 404 (.object [
            ("error", .string "unknown_agent_runtime"), ("agentId", .string agentId)])
        | some _ => .answered ctx 200 (host.agentStatus ctx.supervisor agentId)
      | _ => .answered ctx 405 (errorBody "method_not_allowed")
    else if req.method ≠ "POST" then .answered ctx 405 (errorBody "method_not_allowed")
    else
      match parts with
      | [agentId, action] =>
        withBody ctx (readJsonBody host.number (16 * 1024) req.body)
          (controlRuntime cfg host ctx agentId action)
      | parts => .answered ctx 404 (.object [
          ("error", .string "unknown_agent_runtime_action"),
          ("action", .string ((parts[1]?).getD ""))])

/-! ## `ConversationRoutes.ts` -/

/-- `sanitizeParticipants(value)`. -/
def sanitizeParticipants (value : Option Json) : List String :=
  match value with
  | some (.array xs) =>
    (((xs.filterMap Json.string?).map trim).filter fun participant => participant ≠ "").eraseDups
  | _ => []

/-- `safeConsensusThreshold(value, fallback, min, max)`; `none` if it throws. -/
def safeConsensusThreshold (value : Option Json) (fallback min max : ℚ) : Option ℚ :=
  (Json.toNumber? host.toNumber value).map fun n =>
    match n with
    | .fin n => Min.min max (Max.max min n)
    | _ => fallback

/-- The fields of a `traceparent`, apart at its hyphens. -/
def isTraceparent (fields : List (List Char)) : Bool :=
  let isHex (n : Nat) (cs : List Char) : Bool :=
    cs.length = n && cs.all fun c => c.isDigit || ('a' ≤ c && c ≤ 'f')
  match fields with
  | [version, traceId, spanId, flags] =>
    version = ['0', '0'] && isHex 32 traceId && isHex 16 spanId && isHex 2 flags
      && !traceId.all (· = '0') && !spanId.all (· = '0')
  | _ => false

/-- `sanitizeTraceparent(value)`. -/
def sanitizeTraceparent (value : Option String) : Option String :=
  (value.map fun value => (trim value).toLower).filter fun value =>
    isTraceparent (value.toList.splitOn '-')

/-- `sanitizeTracestate(value)`. -/
def sanitizeTracestate (value : Option String) : Option String :=
  (value.map trim).filter fun value =>
    value ≠ "" && Js.length value ≤ 512 && !value.toList.any fun c => c = '\r' || c = '\n'

/-- What the `catch` of a call of the bus answers. -/
def busFailed (error message : String) : Handled :=
  .answered ctx 500 (.object [("error", .string error), ("message", .string message)])

/-- A `POST` to the conversations. -/
def createTopic (body : Json) : Handled :=
  let title := trimmed body "title"
  let participants := sanitizeParticipants (body.field? "participants")
  if title = "" ∨ participants = [] then
    .answered ctx 400 (missingFields ["title", "participants"])
  else
    match host.conversationBus.createTopic title participants with
    | .ok topic => .answered ctx 200 topic
    | .error message => busFailed ctx "failed_to_create_topic" message

/-- A `POST` to the messages of a topic. -/
def postMessage (topicId : String) (body : Json) : Handled :=
  let senderId := trimmed body "senderId"
  let content := trimmed body "content"
  if senderId = "" ∨ content = "" then
    .answered ctx 400 (missingFields ["senderId", "content"])
  else
    match host.conversationBus.postMessage topicId senderId content with
    | .ok msg => .answered ctx 200 msg
    | .error message => busFailed ctx "failed_to_post_message" message

/-- The `try` of the committee: its verdict, or the code of what was thrown. -/
def committeeVerdict (req : Request) (topicId goal : String) (body : Json) :
    Except (Option String) Json :=
  match safeConsensusThreshold host (body.field? "quorumThreshold") (85 / 100) (6 / 10) 1 with
  | none => .error none
  | some quorumThreshold =>
    match safeConsensusThreshold host (body.field? "failureThreshold") (5 / 10) (5 / 10)
        quorumThreshold with
    | none => .error none
    | some failureThreshold => host.conversationBus.conveneCommittee topicId goal
        { quorumThreshold := .fin quorumThreshold
          failureThreshold := .fin failureThreshold
          traceparent := sanitizeTraceparent req.traceparent
          tracestate := sanitizeTracestate req.tracestate }

/-- A `POST` to the committee of a topic. -/
def conveneCommittee (req : Request) (topicId : String) (body : Json) : Handled :=
  let goal := trimmed body "goal"
  if goal = "" then .answered ctx 400 (missingFields ["goal"])
  else
    match committeeVerdict host req topicId goal body with
    | .ok verdict => .answered ctx 200 verdict
    | .error code =>
      if code = some "committee_topic_not_active" then
        .answered ctx 404 (errorBody "committee_topic_not_active")
      else .answered ctx 500 (errorBody "failed_to_convene_committee")

/-- A `POST` that closes a topic. -/
def closeTopic (topicId : String) : Handled :=
  match host.conversationBus.closeTopic topicId with
  | .ok () => .answered ctx 200 (.object [("success", .bool true)])
  | .error message => busFailed ctx "failed_to_close_topic" message

/-- A `POST`, once its body was read. -/
def postConversation (req : Request) (pathname : String) (body : Json) : Handled :=
  let route := "/api/v1/conversations"
  if pathname = route ∨ pathname = route ++ "/" then createTopic host ctx body
  else
    match matchSegment route "/message" pathname with
    | some topicId => postMessage host ctx topicId body
    | none =>
      match matchSegment route "/committee" pathname with
      | some topicId => conveneCommittee host ctx req topicId body
      | none =>
        match matchSegment route "/close" pathname with
        | some topicId => closeTopic host ctx topicId
        | none => .answered ctx 404 (errorBody "unknown_conversation_action")

/-- `handleConversationRequest(context, req, res)`. -/
def handleConversationRequest (req : Request) : Handled :=
  match createRequestUrl host.toAscii req with
  | none => .rejects ctx
  | some url =>
    match (if req.method = "GET" then matchSegment "/api/v1/conversations" "/history" url.pathname
      else none) with
    | some topicId =>
      match host.conversationBus.getHistory topicId with
      | .ok history => .answered ctx 200 history
      | .error message => busFailed ctx "failed_to_get_history" message
    | none =>
      if req.method ≠ "POST" then .answered ctx 405 (errorBody "method_not_allowed")
      else
        withBody ctx (readJsonBody host.number (16 * 1024) req.body)
          (postConversation host ctx req url.pathname)

/-! ## `TraceRoutes.ts` -/

/-- `safeNodeId(value)`. -/
def safeNodeId (value : Option Json) : Option String :=
  match value with
  | some (.string s) =>
    let cs := (trim s).toList
    if 1 ≤ cs.length ∧ cs.length ≤ 128 ∧
        cs.all (fun c => c.isAlphanum || "_.:-".toList.contains c) then some (trim s)
    else none
  | _ => none

/-- A `POST` to `reroute`, once its body was read. -/
def rerouteTrace (body : Json) : Handled :=
  match safeNodeId (body.field? "source"), safeNodeId (body.field? "target") with
  | some source, some target =>
    .answered ctx 200 (.object ([
      ("type", .string "trace.rerouted"),
      ("source", .string source),
      ("target", .string target)]
      ++ field "sourceHandle" ((safeNodeId (body.field? "sourceHandle")).map .string)
      ++ field "targetHandle" ((safeNodeId (body.field? "targetHandle")).map .string)
      ++ [("requestedAt", .ofInt (host.clock 0))]))
  | _, _ => .answered ctx 400 (missingFields ["source", "target"])

/-- `limitParam ? Math.max(1, Math.min(1000, Number.parseInt(limitParam, 10) || 20)) : 20`. -/
def traceLimit (limitParam : Option String) : Int :=
  match limitParam with
  | none => 20
  | some text =>
    if text = "" then 20
    else
      let n := (parseInt text).getD 0
      max 1 (min 1000 (if n = 0 then 20 else n))

/-- `handleTracesRequest(context, req, res)`. -/
def handleTracesRequest (req : Request) : Handled :=
  match createRequestUrl host.toAscii req with
  | none => .rejects ctx
  | some url =>
    if req.method = "POST" ∧ url.pathname = "/api/v1/traces/reroute" then
      withBody ctx (readJsonBody host.number (8 * 1024) req.body) (rerouteTrace host ctx)
    else if req.method ≠ "GET" then .answered ctx 405 (errorBody "method_not_allowed")
    else
      match matchSegment "/api/v1/traces" "" url.pathname with
      | some cycleId =>
        match host.ring.bind fun ring => ring.get cycleId with
        | none => .answered ctx 404 (.object [
            ("error", .string "trace_not_found"), ("cycleId", .string cycleId)])
        | some trace => .answered ctx 200 trace
      | none =>
        let limit := traceLimit (url.getParam "limit")
        .answered ctx 200 (.object [
          ("items", .array ((host.ring.map fun ring => ring.list limit).getD [])),
          ("stats", (host.ring.map TraceRing.stats).getD .null)])

end

end Kovael.Http
