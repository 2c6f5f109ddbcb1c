import Kovael.Chair.Envelope
import Kovael.Hub.Dedup
import Kovael.Hub.Inbox

/-!
# The answers of the inbox handler

The request handler of `startInbox` in `scripts/kovael-agent-inbox.mjs`, from the request to
the call of `runRuntime`. Reading and decrypting the body are guarded; what follows is not,
so whatever the hub throws rejects the handler's promise. `Manageable` says which payloads it
answers once and without throwing; `handled_once_iff` says that these are all.

Mirroring notes vs the script:
- `readJson` settles once: its first settlement is what the handler gets. Its timer is an
  event of the body, so a body settles.
- From the payload on, the handler awaits nothing: `hosts 0`, `hosts 1` and `hosts 2` are what
  it, `recordInbound` and `markRunning` read of the clock and of `crypto.randomUUID`.
- The database takes every statement. What `runRuntime` comes to is not awaited.
-/

namespace Kovael.Hub

open Js Crypto
open Js.Base64 (Bytes)

/-! ## The body -/

/-- `MAX_INBOX_BYTES`. -/
def maxInboxBytes : Nat := 512 * 1024

/-- What happens to a request while its body is read. -/
inductive InboxBodyEvent where
  | data (chunk : Bytes)
  | ended
  | failed (message : String)
  | timedOut

/-- The event settles the reading, whatever was read. -/
def InboxBodyEvent.settles : InboxBodyEvent → Bool
  | .data _ => false
  | _ => true

/-- The variables of `readJson`, and how its promise settled. -/
structure JsonReading where
  received : Nat
  chunks : Bytes
  settled : Option (Except String Json)

namespace JsonReading

/-- Before the first event. -/
def init : JsonReading := ⟨0, [], none⟩

/-- `resolve` or `reject`; only the first call counts. -/
def settle (r : JsonReading) (outcome : Except String Json) : JsonReading :=
  { r with settled := r.settled.or (some outcome) }

end JsonReading

section

variable (number : String → String)

/-- `raw ? JSON.parse(raw) : {}`. -/
def parseBody (raw : String) : Except String Json :=
  if raw = "" then .ok (.object [])
  else
    match Json.parse number raw with
    | some value => .ok value
    | none => .error "invalid_json"

/-- The listener of an event. -/
def onInboxBody (r : JsonReading) : InboxBodyEvent → JsonReading
  | .timedOut => r.settle (.error "body_read_timeout")
  | .failed message => r.settle (.error message)
  | .data chunk =>
    let r := { r with received := r.received + chunk.length }
    if maxInboxBytes < r.received then r.settle (.error "payload_too_large")
    else { r with chunks := r.chunks ++ chunk }
  | .ended => r.settle (parseBody number (Utf8.decode r.chunks))

/-- `readJson(req)`; `none` while it is pending. -/
def readJson (events : List InboxBodyEvent) : Option (Except String Json) :=
  (events.foldl (onInboxBody number) .init).settled

end

/-! ## The request -/

/-- A request to the adapter. Its body settles: the timer sees to it. -/
structure InboxRequest where
  remoteAddress : Option String
  method : String
  url : String
  body : List InboxBodyEvent
  settles : ∃ event ∈ body, event.settles = true

/-- The addresses of the machine itself. -/
def loopbackAddresses : List String := ["127.0.0.1", "::1", "::ffff:127.0.0.1"]

/-- What `decryptPayload` needs besides the body; `thrown` is the text of an error of `crypto`
or `JSON.parse`. -/
structure Opening where
  gcm : Gcm DerivedKey
  number : String → String
  calls : List (Crypto.Call DerivedKey)
  secret : Option String
  now : Int
  thrown : String

/-- `err.message`. -/
def Opening.message (opening : Opening) : Kovael.Inbox.DecryptError → String
  | .error message => message
  | .crypto | .notJson => opening.thrown

/-- `decryptPayload(body)`, with the text that it throws. -/
def Opening.decrypt (opening : Opening) (body : Json) : Except String Json :=
  (Kovael.Inbox.decryptPayload opening.gcm opening.number opening.calls opening.secret opening.now
    body).mapError opening.message

/-- `decryptPayload(await readJson(req))`; `none` while it is pending. -/
def Opening.payload (opening : Opening) (body : List InboxBodyEvent) :
    Option (Except String Json) :=
  (readJson opening.number body).map fun outcome =>
    match outcome with
    | .error message => .error message
    | .ok body => opening.decrypt body

/-! ## The handler -/

/-- What the handler leaves behind; an answer is a response or the rejection of its promise. -/
structure Handled where
  answers : List Answer
  hub : AgentHub
  inFlight : List String
  /-- what `runRuntime` was called with -/
  started : Option (String × Json)

section

variable (env : HubEnv) (opening : Opening) (hosts : Nat → Host)

/-- The handler from the payload on. -/
def dispatchPayload (inFlight : List String) (hub : AgentHub) (payload : Json) : Handled :=
  match receive env (hosts 0) payload hub with
  | .error answer => ⟨[answer], hub, inFlight, none⟩
  | .ok (.recording requestId payload call) =>
    match writeInboundDispatch env (hosts 1) call hub with
    | .error msg => ⟨[.rejected msg], hub, inFlight, none⟩
    | .ok hub =>
      if call.existing then
        ⟨[acceptedBody [("duplicate", .bool true), ("requestId", .string requestId)]], hub,
          inFlight, none⟩
      else if requestId ∈ inFlight then
        ⟨[acceptedBody [("duplicate", .bool true)]], hub, inFlight, none⟩
      else
        match markDispatchRunning env (hosts 2) requestId hub with
        | .error msg =>
          ⟨[acceptedBody [("requestId", .string requestId)], .rejected msg], hub,
            inFlight ++ [requestId], none⟩
        | .ok hub =>
          ⟨[acceptedBody [("requestId", .string requestId)]], hub, inFlight ++ [requestId],
            some (requestId, payload)⟩
  -- `receive` leaves the handler recording
  | .ok _ => ⟨[], hub, inFlight, none⟩

/-- A response that has no effect. -/
def respond (status : Nat) (body : Json) (inFlight : List String) (hub : AgentHub) : Handled :=
  ⟨[.response status body], hub, inFlight, none⟩

/-- The request handler of `startInbox`. -/
def handleInbox (inFlight : List String) (hub : AgentHub) (req : InboxRequest) : Handled :=
  if req.remoteAddress.all (· ∉ loopbackAddresses) then
    respond 403 (.object [("error", .string "loopback_only")]) inFlight hub
  else if req.method ≠ "POST" ∨ req.url ≠ "/inbox" then
    respond 404 (.object [("error", .string "not_found")]) inFlight hub
  else
    match opening.payload req.body with
    | none => ⟨[], hub, inFlight, none⟩
    | some (.error message) => respond 400 (.object [("error", .string message)]) inFlight hub
    | some (.ok payload) => dispatchPayload env hosts inFlight hub payload

/-! ## What it can answer -/

/-- The payload that a request comes to, if it is a POST to the inbox. -/
def received (req : InboxRequest) : Option Json :=
  if req.remoteAddress.all (· ∉ loopbackAddresses) ∨ req.method ≠ "POST" ∨
      req.url ≠ "/inbox" then none
  else (opening.payload req.body).bind Except.toOption

/-- The request id that the handler goes on with. -/
def handledId (payload : Json) : String :=
  (payload.stringField? "requestId").getD ((hosts 0).randomUUID 0)

/-- The payload is for this agent and has its fields. -/
def IsDispatch (payload : Json) : Prop :=
  payload.stringField? "agentId" = some env.agentId ∧
    ∀ field ∈ requiredFields, (payload.stringField? field).isSome

/-- A known request comes with the payload it came with; the id of a new one is not blank at
its ends, unless its runtime is in flight or another row has the id as it is. -/
def HubTakes (inFlight : List String) (hub : AgentHub) (payload : Json) (requestId : String) :
    Prop :=
  match hub.dispatches.get? (Js.trim requestId) with
  | some row => ∀ h, row.payloadSha256 = some h → h = "" ∨
      h = env.sha256 (stableStringify (payload.setField "requestId" (.string requestId)))
  | none => requestId ∈ inFlight ∨ Js.trim requestId = requestId ∨
      (hub.dispatches.get? requestId).isSome

/-- The payload is no `null`, and if it is a dispatch, its request id and its topic are not
blank and the hub takes it. -/
def Manageable (inFlight : List String) (hub : AgentHub) (payload : Json) : Prop :=
  payload ≠ .null ∧
    (IsDispatch env payload →
      Js.trim (handledId hosts payload) ≠ "" ∧
      (∀ topicId, payload.stringField? "topicId" = some topicId → Js.trim topicId ≠ "") ∧
      HubTakes env inFlight hub payload (handledId hosts payload))

end

/-- It answers with one response, and does not reject. -/
def Handled.AnsweredOnce (handled : Handled) : Prop :=
  ∃ status body, handled.answers = [.response status body]

/-- The receipts of the two operations have new ids. -/
def FreshReceipts (hosts : Nat → Host) (hub : AgentHub) : Prop :=
  (hosts 1).randomUUID 0 ≠ (hosts 2).randomUUID 0 ∧
    hub.receipts.has ((hosts 1).randomUUID 0) = false ∧
    hub.receipts.has ((hosts 2).randomUUID 0) = false

section
variable {env : HubEnv} {hosts : Nat → Host} {inFlight : List String} {hub : AgentHub}
  {payload : Json}

/-- What the handler does with a payload, up to the SELECT. -/
theorem receive_of_ne_null (hnull : payload ≠ .null) :
    receive env (hosts 0) payload hub =
      if payload.stringField? "agentId" ≠ some env.agentId then
        .error (.response 409 (.object ([("error", .string "wrong_agent"),
          ("expected", .string env.agentId)]
          ++ ((payload.field? "agentId").map fun got => ("got", got)).toList)))
      else if requiredFields.any fun field => (payload.stringField? field).isNone then
        .error (.response 400 (.object [("error", .string "missing_required_fields")]))
      else
        match readInboundDispatch env (hosts 0)
          (payload.setField "requestId" (.string (handledId hosts payload))) hub with
        | .error msg => .error (.rejected msg)
        | .ok call => .ok (.recording (handledId hosts payload)
            (payload.setField "requestId" (.string (handledId hosts payload))) call) := by
  cases payload with
  | null => exact absurd rfl hnull
  | _ => rfl

/-- A payload that is for another agent, or lacks a field, is answered. -/
theorem receive_undispatched (hnull : payload ≠ .null) (h : ¬ IsDispatch env payload) :
    ∃ status body, receive env (hosts 0) payload hub = .error (.response status body) := by
  rw [receive_of_ne_null hnull]
  by_cases hagent : payload.stringField? "agentId" = some env.agentId
  · rw [if_neg (not_not_intro hagent), if_pos]
    · exact ⟨_, _, rfl⟩
    · by_contra hall
      refine h ⟨hagent, fun field hfield => ?_⟩
      rw [Bool.not_eq_true, List.any_eq_false] at hall
      rw [Option.isSome_iff_ne_none]
      intro hnone
      exact hall field hfield (Option.isNone_iff_eq_none.mpr hnone)
  · rw [if_pos hagent]
    exact ⟨_, _, rfl⟩

theorem dispatch_ne_null (h : IsDispatch env payload) : payload ≠ .null := by
  intro heq
  obtain rfl := heq
  exact absurd h.1 (fun h => by cases h)

/-- A dispatch goes to the hub. -/
theorem receive_dispatch (h : IsDispatch env payload) :
    receive env (hosts 0) payload hub =
      match readInboundDispatch env (hosts 0)
        (payload.setField "requestId" (.string (handledId hosts payload))) hub with
      | .error msg => .error (.rejected msg)
      | .ok call => .ok (.recording (handledId hosts payload)
          (payload.setField "requestId" (.string (handledId hosts payload))) call) := by
  have hfields :
      ¬ (requiredFields.any fun field => (payload.stringField? field).isNone) = true := by
    rw [Bool.not_eq_true, List.any_eq_false]
    intro field hfield hnone
    rw [Option.isNone_iff_eq_none] at hnone
    have hsome := h.2 field hfield
    rw [hnone] at hsome
    cases hsome
  rw [receive_of_ne_null (dispatch_ne_null h), if_neg (not_not_intro h.1), if_neg hfields]

/-- Setting a field leaves the others. -/
theorem stringField_setField_ne {key other : String} (hne : other ≠ key) (v payload : Json) :
    (payload.setField key v).stringField? other = payload.stringField? other := by
  have hfind : ∀ fields : List (String × Json),
      (fields.map fun f => if f.1 = key then (key, v) else f).find? (fun f => f.1 = other)
        = fields.find? (fun f => f.1 = other) := by
    intro fields
    induction fields with
    | nil => rfl
    | cons f fields ih =>
      rw [List.map_cons, List.find?_cons, List.find?_cons, ih]
      by_cases hf : f.1 = key
      · have hf' : f.1 ≠ other := fun h => hne (h.symm.trans hf)
        simp only [hf, if_true, decide_eq_false (Ne.symm hne)]
      · rw [if_neg hf]
  cases payload with
  | object fields =>
    unfold Json.stringField? Json.setField
    dsimp only
    split
    next => rw [Json.field?, Json.field?, hfind]
    next =>
      have hother : decide (key = other) = false := decide_eq_false (Ne.symm hne)
      rw [Json.field?, Json.field?, List.find?_append, List.find?_cons, List.find?_nil, hother,
        Option.or_none]
  | _ => rfl

/-- The payload is admitted exactly if its request id and its topic are not blank. -/
theorem admittedId_dispatch (hid : env.agentId ≠ "" ∧ Js.trim env.agentId = env.agentId)
    (h : IsDispatch env payload) (requestId : String) :
    admittedId env (payload.setField "requestId" (.string requestId)) =
      if Js.trim requestId ≠ "" ∧
          ∀ topicId, payload.stringField? "topicId" = some topicId → Js.trim topicId ≠ "" then
        some (Js.trim requestId)
      else none := by
  obtain ⟨fields, rfl⟩ : ∃ fields, payload = .object fields := by
    cases payload with
    | object fields => exact ⟨fields, rfl⟩
    | _ => exact absurd h.1 (fun h => by cases h)
  have htopic := h.2 "topicId" (List.mem_cons_self ..)
  obtain ⟨topicId, htopic⟩ := Option.isSome_iff_exists.mp htopic
  have hagent : requiredString (some env.agentId) "agentId" = .ok env.agentId := by
    rw [requiredString, if_neg (by rw [hid.2]; exact hid.1), hid.2]
  rw [admittedId, Json.stringField?_setField, stringField_setField_ne (by decide),
    stringField_setField_ne (by decide), htopic, h.1, hagent]
  rw [requiredString, requiredString]
  by_cases hrequest : Js.trim requestId = ""
  · have hblank : ¬ (Js.trim requestId ≠ "" ∧
        ∀ topicId', some topicId = some topicId' → Js.trim topicId' ≠ "") :=
      fun hboth => hboth.1 hrequest
    rw [if_pos hrequest, if_neg hblank]
  · rw [if_neg hrequest]
    by_cases htrim : Js.trim topicId = ""
    · have hblank : ¬ (Js.trim requestId ≠ "" ∧
          ∀ topicId', some topicId = some topicId' → Js.trim topicId' ≠ "") :=
        fun hboth => hboth.2 topicId rfl htrim
      rw [if_pos htrim, if_neg hblank]
    · have hall : ∀ topicId', some topicId = some topicId' → Js.trim topicId' ≠ "" := by
        intro topicId' heq
        rw [← Option.some.inj heq]
        exact htrim
      rw [if_neg htrim, if_pos ⟨hrequest, hall⟩]
      exact if_pos rfl

/-- A receipt with a new id is appended. -/
theorem appendReceipt_fresh (env : HubEnv) (hub : AgentHub) {createdAt : Int}
    {id requestId kind : String} {body : Json} (hid : hub.receipts.has id = false) :
    ∃ receipt, appendReceipt env createdAt id requestId kind body hub =
      .ok { hub with receipts := hub.receipts.set id receipt } := by
  rw [appendReceipt, if_neg (Bool.eq_false_iff.mp hid)]
  exact ⟨_, rfl⟩

/-- A new request is inserted. -/
theorem writeInboundDispatch_new {call : InboundCall} (hnew : call.existing = false)
    (hnone : hub.dispatches.get? call.requestId = none) {host : Host}
    (hfresh : hub.receipts.has (host.randomUUID 0) = false) :
    ∃ receipt, writeInboundDispatch env host call hub = .ok { hub with
      dispatches := hub.dispatches.set call.requestId call.row
      receipts := hub.receipts.set (host.randomUUID 0) receipt } := by
  have hfree : hub.dispatches.has call.requestId = false := by
    rw [OrderedMap.has, hnone]
    rfl
  rw [writeInboundDispatch, hnew, if_neg Bool.false_ne_true, hfree, if_neg Bool.false_ne_true]
  exact appendReceipt_fresh env
    { hub with dispatches := hub.dispatches.set call.requestId call.row } hfresh

/-- A known request is marked running. -/
theorem markDispatchRunning_known {host : Host} {requestId : String}
    (hknown : (hub.dispatches.get? requestId).isSome)
    (hfresh : hub.receipts.has (host.randomUUID 0) = false) :
    ∃ hub', markDispatchRunning env host requestId hub = .ok hub' := by
  obtain ⟨row, hrow⟩ := Option.isSome_iff_exists.mp hknown
  rw [markDispatchRunning, hrow]
  obtain ⟨receipt, hreceipt⟩ := appendReceipt_fresh env
    { hub with dispatches := hub.dispatches.set requestId (row.started (host.now 0)) } hfresh
  exact ⟨_, hreceipt⟩

theorem answeredOnce_response (status : Nat) (body : Json) (hub : AgentHub)
    (inFlight : List String) (started : Option (String × Json)) :
    (Handled.mk [.response status body] hub inFlight started).AnsweredOnce :=
  ⟨status, body, rfl⟩

theorem not_answeredOnce_rejected (msg : String) (hub : AgentHub) (inFlight : List String)
    (started : Option (String × Json)) :
    ¬ (Handled.mk [.rejected msg] hub inFlight started).AnsweredOnce := by
  intro hgiven
  obtain ⟨status, body, h⟩ := hgiven
  cases h

/-- The handler from the SELECT on. -/
theorem dispatchPayload_of_call (h : IsDispatch env payload) {call : InboundCall}
    (hread : readInboundDispatch env (hosts 0)
      (payload.setField "requestId" (.string (handledId hosts payload))) hub = .ok call) :
    dispatchPayload env hosts inFlight hub payload =
      match writeInboundDispatch env (hosts 1) call hub with
      | .error msg => ⟨[.rejected msg], hub, inFlight, none⟩
      | .ok hub =>
        if call.existing then
          ⟨[acceptedBody [("duplicate", .bool true),
            ("requestId", .string (handledId hosts payload))]], hub, inFlight, none⟩
        else if handledId hosts payload ∈ inFlight then
          ⟨[acceptedBody [("duplicate", .bool true)]], hub, inFlight, none⟩
        else
          match markDispatchRunning env (hosts 2) (handledId hosts payload) hub with
          | .error msg =>
            ⟨[acceptedBody [("requestId", .string (handledId hosts payload))], .rejected msg],
              hub, inFlight ++ [handledId hosts payload], none⟩
          | .ok hub =>
            ⟨[acceptedBody [("requestId", .string (handledId hosts payload))]], hub,
              inFlight ++ [handledId hosts payload], some (handledId hosts payload,
                payload.setField "requestId" (.string (handledId hosts payload)))⟩ := by
  rw [dispatchPayload, receive_dispatch h, hread]

/-- The row has another hash. -/
theorem conflict_iff {sha256 : Option String} {digest : String} :
    (sha256.any fun h => h ≠ "" && h ≠ digest) = true ↔
      ¬ ∀ h, sha256 = some h → h = "" ∨ h = digest := by
  cases sha256 with
  | none => exact iff_of_false Bool.false_ne_true (not_not_intro fun h heq => by cases heq)
  | some h =>
    rw [Option.any_some, Bool.and_eq_true, decide_eq_true_eq, decide_eq_true_eq]
    constructor
    · intro hboth hall
      exact (hall h rfl).elim hboth.1 hboth.2
    · intro hnot
      by_contra hboth
      refine hnot fun h' heq => ?_
      obtain rfl := Option.some.inj heq
      rwa [not_and_or, not_not, not_not] at hboth

/-- A redelivery is answered once exactly if its payload is the one that the row has. -/
theorem answeredOnce_known_iff (h : IsDispatch env payload)
    (hadmitted : admittedId env (payload.setField "requestId" (.string (handledId hosts payload)))
      = some (Js.trim (handledId hosts payload))) {row : DispatchRow}
    (hrow : hub.dispatches.get? (Js.trim (handledId hosts payload)) = some row) :
    (dispatchPayload env hosts inFlight hub payload).AnsweredOnce ↔
      HubTakes env inFlight hub payload (handledId hosts payload) := by
  obtain ⟨topicId, agentId, hread⟩ := readInboundDispatch_of_some hadmitted hub (hosts 0)
  rw [hrow] at hread
  dsimp only at hread
  rw [HubTakes, hrow]
  dsimp only
  split at hread
  next hconflict =>
    rw [dispatchPayload, receive_dispatch h, hread]
    exact iff_of_false (not_answeredOnce_rejected _ _ _ _) (conflict_iff.mp hconflict)
  next hsame =>
    rw [dispatchPayload_of_call h hread, writeInboundDispatch]
    exact iff_of_true (answeredOnce_response _ _ _ _ _)
      (not_not.mp fun hnot => hsame (conflict_iff.mpr hnot))

/-- What is read of a request that is not known. -/
theorem readInboundDispatch_new {host : Host} {requestId : String}
    (hadmitted : admittedId env payload = some requestId)
    (hnone : hub.dispatches.get? requestId = none) :
    ∃ call, readInboundDispatch env host payload hub = .ok call ∧ call.existing = false ∧
      call.requestId = requestId := by
  obtain ⟨topicId, agentId, hread⟩ := readInboundDispatch_of_some hadmitted hub host
  rw [hnone] at hread
  exact ⟨_, hread, rfl, rfl⟩

/-- `markRunning` finds the request by the id that the handler has: what was inserted, if that
is the id, or another row. -/
theorem get?_inserted (requestId : String) (row : DispatchRow) :
    ((hub.dispatches.set (Js.trim requestId) row).get? requestId).isSome ↔
      Js.trim requestId = requestId ∨ (hub.dispatches.get? requestId).isSome := by
  rw [OrderedMap.get?_set]
  by_cases htrim : requestId = Js.trim requestId
  · rw [if_pos htrim]
    exact iff_of_true rfl (Or.inl htrim.symm)
  · rw [if_neg htrim, or_iff_right (Ne.symm htrim)]

/-- `markRunning` throws for a request that is not known. -/
theorem markDispatchRunning_unknown {host : Host} {requestId : String}
    (hunknown : ¬ (hub.dispatches.get? requestId).isSome) :
    ∃ msg, markDispatchRunning env host requestId hub = .error msg := by
  rw [Option.not_isSome_iff_eq_none] at hunknown
  rw [markDispatchRunning, hunknown]
  exact ⟨_, rfl⟩

/-- A first delivery is answered once exactly if `markRunning` finds what was inserted, or is
not called. -/
theorem answeredOnce_new_iff (hfresh : FreshReceipts hosts hub) (h : IsDispatch env payload)
    (hadmitted : admittedId env (payload.setField "requestId" (.string (handledId hosts payload)))
      = some (Js.trim (handledId hosts payload)))
    (hnone : hub.dispatches.get? (Js.trim (handledId hosts payload)) = none) :
    (dispatchPayload env hosts inFlight hub payload).AnsweredOnce ↔
      HubTakes env inFlight hub payload (handledId hosts payload) := by
  obtain ⟨hne, hfirst, hsecond⟩ := hfresh
  obtain ⟨call, hread, hnew, hcall⟩ :=
    @readInboundDispatch_new env hub _ (hosts 0) _ hadmitted hnone
  rw [← hcall] at hnone
  obtain ⟨receipt, hwrite⟩ := @writeInboundDispatch_new env hub call hnew hnone (hosts 1) hfirst
  rw [hcall] at hnone hwrite
  rw [dispatchPayload_of_call h hread, hwrite, HubTakes, hnone]
  dsimp only
  rw [hnew, if_neg Bool.false_ne_true]
  by_cases hflight : handledId hosts payload ∈ inFlight
  · rw [if_pos hflight]
    exact iff_of_true (answeredOnce_response _ _ _ _ _) (Or.inl hflight)
  · rw [if_neg hflight, or_iff_right hflight, ← get?_inserted _ call.row]
    by_cases hknown :
        ((hub.dispatches.set (Js.trim (handledId hosts payload)) call.row).get?
          (handledId hosts payload)).isSome
    · have hsecond' : (hub.receipts.set ((hosts 1).randomUUID 0) receipt).has
          ((hosts 2).randomUUID 0) = false := by
        rw [OrderedMap.has, OrderedMap.get?_set_ne _ _ (Ne.symm hne)]
        exact hsecond
      obtain ⟨hub', hmark⟩ := @markDispatchRunning_known env { hub with
        dispatches := hub.dispatches.set (Js.trim (handledId hosts payload)) call.row
        receipts := hub.receipts.set ((hosts 1).randomUUID 0) receipt } (hosts 2) _ hknown hsecond'
      rw [hmark]
      exact iff_of_true (answeredOnce_response _ _ _ _ _) hknown
    · obtain ⟨msg, hmark⟩ := @markDispatchRunning_unknown env { hub with
        dispatches := hub.dispatches.set (Js.trim (handledId hosts payload)) call.row
        receipts := hub.receipts.set ((hosts 1).randomUUID 0) receipt } (hosts 2) _ hknown
      rw [hmark]
      refine iff_of_false ?_ hknown
      intro hgiven
      obtain ⟨status, body, htwo⟩ := hgiven
      cases htwo

/-- A dispatch is answered once exactly if the hub takes it. -/
theorem answeredOnce_dispatch_iff (hid : env.agentId ≠ "" ∧ Js.trim env.agentId = env.agentId)
    (hfresh : FreshReceipts hosts hub) (h : IsDispatch env payload) :
    (dispatchPayload env hosts inFlight hub payload).AnsweredOnce ↔
      Js.trim (handledId hosts payload) ≠ "" ∧
      (∀ topicId, payload.stringField? "topicId" = some topicId → Js.trim topicId ≠ "") ∧
      HubTakes env inFlight hub payload (handledId hosts payload) := by
  have hadmitted := admittedId_dispatch hid h (handledId hosts payload)
  rw [← and_assoc]
  by_cases hblank : Js.trim (handledId hosts payload) ≠ "" ∧
      ∀ topicId, payload.stringField? "topicId" = some topicId → Js.trim topicId ≠ ""
  · rw [if_pos hblank] at hadmitted
    rw [and_iff_right hblank]
    cases hrow : hub.dispatches.get? (Js.trim (handledId hosts payload)) with
    | some row => exact answeredOnce_known_iff h hadmitted hrow
    | none => exact answeredOnce_new_iff hfresh h hadmitted hrow
  · rw [if_neg hblank] at hadmitted
    obtain ⟨err, hread⟩ := @readInboundDispatch_of_none env hub (hosts 0) _ hadmitted
    rw [dispatchPayload, receive_dispatch h, hread]
    exact iff_of_false (not_answeredOnce_rejected _ _ _ _) (fun hall => hblank hall.1)

/-! ## Every request -/

/-- What settled the reading stays. -/
theorem onInboxBody_settled {number : String → String} {r : JsonReading}
    {outcome : Except String Json} (h : r.settled = some outcome) (event : InboxBodyEvent) :
    (onInboxBody number r event).settled = some outcome := by
  cases event with
  | data chunk =>
    rw [onInboxBody]
    split
    next => rw [JsonReading.settle, h, Option.some_or]
    next => exact h
  | _ => rw [onInboxBody, JsonReading.settle, h, Option.some_or]

/-- An event that settles leaves the reading settled. -/
theorem onInboxBody_settles {number : String → String} (r : JsonReading) {event : InboxBodyEvent}
    (h : event.settles = true) : (onInboxBody number r event).settled.isSome := by
  cases event with
  | data chunk => cases h
  | _ =>
    rw [onInboxBody, JsonReading.settle, Option.isSome_or]
    exact Bool.or_true _

/-- `readJson` settles. -/
theorem readJson_isSome (number : String → String) {events : List InboxBodyEvent}
    (h : ∃ event ∈ events, event.settles = true) : (readJson number events).isSome := by
  rw [readJson]
  have hrun : ∀ (events : List InboxBodyEvent) (r : JsonReading),
      (r.settled.isSome ∨ ∃ event ∈ events, event.settles = true) →
        (events.foldl (onInboxBody number) r).settled.isSome := by
    intro events
    induction events with
    | nil =>
      intro r hcases
      rcases hcases with hsettled | ⟨event, hmem, -⟩
      · exact hsettled
      · cases hmem
    | cons event events ih =>
      intro r hr
      refine ih _ ?_
      rcases hr with hsettled | ⟨settling, hmem, hsettles⟩
      · obtain ⟨outcome, houtcome⟩ := Option.isSome_iff_exists.mp hsettled
        exact Or.inl (Option.isSome_of_eq_some (onInboxBody_settled houtcome event))
      · rcases List.mem_cons.mp hmem with rfl | hmem
        · exact Or.inl (onInboxBody_settles r hsettles)
        · exact Or.inr ⟨settling, hmem, hsettles⟩
  exact hrun events .init (Or.inr h)

/-- A payload is answered once exactly if it is manageable. -/
theorem answeredOnce_payload_iff (hid : env.agentId ≠ "" ∧ Js.trim env.agentId = env.agentId)
    (hfresh : FreshReceipts hosts hub) :
    (dispatchPayload env hosts inFlight hub payload).AnsweredOnce ↔
      Manageable env hosts inFlight hub payload := by
  by_cases hnull : payload = .null
  · rw [hnull]
    exact iff_of_false (not_answeredOnce_rejected _ _ _ _) (fun hall => hall.1 rfl)
  · rw [Manageable, and_iff_right hnull]
    by_cases hdispatch : IsDispatch env payload
    · rw [answeredOnce_dispatch_iff hid hfresh hdispatch]
      exact ⟨fun hall _ => hall, fun hall => hall hdispatch⟩
    · obtain ⟨status, body, hreceive⟩ :=
        @receive_undispatched env hosts hub payload hnull hdispatch
      rw [dispatchPayload, hreceive]
      exact iff_of_true (answeredOnce_response _ _ _ _ _) (fun h => absurd h hdispatch)

/-- **The inbox handler is total on what it can manage, and on nothing else.** For every
request and every hub, the handler answers with exactly one response and does not reject, if
and only if the payload that the request comes to, if it comes to one, is `Manageable`.

The agent's id is the one that the script checks when it starts. -/
theorem handled_once_iff (env : HubEnv)
    (hid : env.agentId ≠ "" ∧ Js.trim env.agentId = env.agentId) (opening : Opening)
    (hosts : Nat → Host) (inFlight : List String) (hub : AgentHub)
    (hfresh : FreshReceipts hosts hub) (req : InboxRequest) :
    (handleInbox env opening hosts inFlight hub req).AnsweredOnce ↔
      ∀ payload, received opening req = some payload →
        Manageable env hosts inFlight hub payload := by
  rw [handleInbox, received]
  by_cases haddress : req.remoteAddress.all (· ∉ loopbackAddresses) = true
  · rw [if_pos haddress, if_pos (Or.inl haddress)]
    exact iff_of_true (answeredOnce_response _ _ _ _ _) (fun payload h => by cases h)
  · rw [if_neg haddress]
    by_cases hroute : req.method ≠ "POST" ∨ req.url ≠ "/inbox"
    · rw [if_pos hroute, if_pos (Or.inr hroute)]
      exact iff_of_true (answeredOnce_response _ _ _ _ _) (fun payload h => by cases h)
    · rw [if_neg hroute, if_neg (not_or.mpr ⟨haddress, hroute⟩)]
      have hread : (opening.payload req.body).isSome := by
        rw [Opening.payload, Option.isSome_map]
        exact readJson_isSome opening.number req.settles
      cases hpayload : opening.payload req.body with
      | none =>
        rw [hpayload] at hread
        cases hread
      | some outcome =>
        cases outcome with
        | error message =>
          exact iff_of_true (answeredOnce_response _ _ _ _ _) (fun payload h => by cases h)
        | ok payload =>
          show (dispatchPayload env hosts inFlight hub payload).AnsweredOnce ↔ _
          rw [answeredOnce_payload_iff hid hfresh]
          constructor
          · intro hmanageable payload' heq
            obtain rfl := Option.some.inj heq
            exact hmanageable
          · intro hall
            exact hall payload rfl

end

/-- A POST to the inbox from the machine itself. -/
def posted (text : String) : InboxRequest where
  remoteAddress := some "127.0.0.1"
  method := "POST"
  url := "/inbox"
  body := [.data (Utf8.encode text), .ended]
  settles := ⟨.ended, List.mem_cons_of_mem _ (List.mem_singleton_self _), rfl⟩

/-- No dispatch secret is set. -/
def plainOpening : Opening where
  gcm :=
    { ciphertext := fun _ _ plaintext => plaintext
      tag := fun _ _ _ _ => List.replicate 16 1
      length_ciphertext := fun _ _ _ => rfl
      ciphertext_injective := fun _ _ _ _ h => h
      length_tag := fun _ _ _ _ => rfl }
  number := id
  calls := []
  secret := none
  now := 0
  thrown := ""

/-- The hosts of the `n`-th delivery. -/
def hostsOf (n : Nat) (i : Nat) : Host := hostAt n ("d" ++ toString n ++ "-" ++ toString i)

/-- The hub after the first delivery. -/
def deliveredHub : AgentHub :=
  (handleInbox sampleHubEnv plainOpening (hostsOf 0) [] .init (posted sampleDispatch.stringify)).hub

/-- The status of a response, or the text of a rejection. -/
def Answer.outcome : Answer → Nat ⊕ String
  | .response status _ => .inl status
  | .rejected error => .inr error

theorem answeredOnce_iff_outcome {handled : Handled} :
    handled.AnsweredOnce ↔ ∃ status, handled.answers.map Answer.outcome = [.inl status] := by
  constructor
  · intro hgiven
    obtain ⟨status, body, h⟩ := hgiven
    exact ⟨status, congrArg (List.map Answer.outcome) h⟩
  · intro hgiven
    obtain ⟨status, h⟩ := hgiven
    obtain ⟨answer, hanswers, houtcome⟩ := List.map_eq_singleton_iff.mp h
    cases answer with
    | response status' body => exact ⟨status', body, hanswers⟩
    | rejected error => cases houtcome

/-- Without a secret, a posted value is the payload as it is. -/
theorem payload_posted {v : Json} (hheld : Json.Held id v) (hne : v.stringify ≠ "")
    (hsize : (Utf8.encode v.stringify).length ≤ maxInboxBytes)
    (hplain : plainOpening.decrypt v = .ok v) :
    plainOpening.payload (posted v.stringify).body = some (.ok v) := by
  have hfits : ¬ maxInboxBytes < 0 + (Utf8.encode v.stringify).length := by omega
  have hparse : parseBody id v.stringify = .ok v := by
    rw [parseBody, if_neg hne, Json.parse_stringify id hheld]
  have hdata : onInboxBody id .init (.data (Utf8.encode v.stringify))
      = ⟨0 + (Utf8.encode v.stringify).length, Utf8.encode v.stringify, none⟩ := if_neg hfits
  have hread : readJson id [.data (Utf8.encode v.stringify), .ended] = some (.ok v) := by
    rw [readJson, List.foldl_cons, List.foldl_cons, List.foldl_nil, hdata, onInboxBody,
      Utf8.decode_encode, hparse]
    rfl
  show (readJson id [.data (Utf8.encode v.stringify), .ended]).map _ = _
  rw [hread]
  exact congrArg some hplain

/-- The handler goes on with the payload that was posted. -/
theorem handle_posted {v : Json} (env : HubEnv) (hosts : Nat → Host) (inFlight : List String)
    (hub : AgentHub)
    (hpayload : plainOpening.payload (posted v.stringify).body = some (.ok v)) :
    handleInbox env plainOpening hosts inFlight hub (posted v.stringify)
      = dispatchPayload env hosts inFlight hub v := by
  rw [handleInbox, if_neg (by simp [posted, loopbackAddresses]), if_neg (by simp [posted]),
    hpayload]

/-- Fields whose values are strings. -/
theorem held_strings {fields : List (String × Json)}
    (h : ∀ f ∈ fields, ∃ s, f.2 = .string s) : Json.HeldFields id fields := by
  induction fields with
  | nil => trivial
  | cons f fields ih =>
    obtain ⟨s, hs⟩ := h f (List.mem_cons_self ..)
    refine ⟨?_, ih fun f' hf' => h f' (List.mem_cons_of_mem _ hf')⟩
    rw [hs]
    trivial

/-- The texts are read by the general lemmas: to evaluate the reading takes gigabytes. -/
theorem sample_posted :
    plainOpening.payload (posted sampleDispatch.stringify).body = some (.ok sampleDispatch) := by
  refine payload_posted ⟨by decide +kernel, rfl, held_strings ?_⟩ (by decide +kernel)
    (by decide +kernel) rfl
  simp

theorem changed_posted :
    plainOpening.payload
        (posted (sampleDispatch.setField "note" (.string "changed")).stringify).body
      = some (.ok (sampleDispatch.setField "note" (.string "changed"))) := by
  refine payload_posted ⟨by decide +kernel, rfl, held_strings ?_⟩ (by decide +kernel)
    (by decide +kernel) rfl
  simp

/-- The first delivery is answered once; so its payload is manageable. -/
theorem first_delivery_manageable :
    (handleInbox sampleHubEnv plainOpening (hostsOf 0) [] .init
      (posted sampleDispatch.stringify)).AnsweredOnce ∧
    ∀ payload, received plainOpening (posted sampleDispatch.stringify) = some payload →
      Manageable sampleHubEnv (hostsOf 0) [] .init payload := by
  have houtcome : (handleInbox sampleHubEnv plainOpening (hostsOf 0) [] .init
      (posted sampleDispatch.stringify)).answers.map Answer.outcome = [.inl 202] := by
    rw [handle_posted _ _ _ _ sample_posted]
    decide +kernel
  have honce := answeredOnce_iff_outcome.mpr ⟨202, houtcome⟩
  have hfresh : FreshReceipts (hostsOf 0) .init := ⟨by decide +kernel, rfl, rfl⟩
  exact ⟨honce, (handled_once_iff sampleHubEnv (by decide +kernel) plainOpening (hostsOf 0) []
    .init hfresh _).mp honce⟩

/-- A redelivery with another payload rejects the handler's promise; there is no response. -/
theorem changed_redelivery_rejects :
    (handleInbox sampleHubEnv plainOpening (hostsOf 1) [] deliveredHub
      (posted (sampleDispatch.setField "note" (.string "changed")).stringify)).answers.map
        Answer.outcome = [.inr "dispatch payload hash conflict for requestId req-1"] ∧
    ¬ (handleInbox sampleHubEnv plainOpening (hostsOf 1) [] deliveredHub
      (posted (sampleDispatch.setField "note" (.string "changed")).stringify)).AnsweredOnce := by
  have houtcome : (handleInbox sampleHubEnv plainOpening (hostsOf 1) [] deliveredHub
      (posted (sampleDispatch.setField "note" (.string "changed")).stringify)).answers.map
        Answer.outcome = [.inr "dispatch payload hash conflict for requestId req-1"] := by
    rw [handle_posted _ _ _ _ changed_posted, deliveredHub, handle_posted _ _ _ _ sample_posted]
    decide +kernel
  refine ⟨houtcome, fun honce => ?_⟩
  obtain ⟨status, h⟩ := answeredOnce_iff_outcome.mp honce
  rw [houtcome] at h
  cases h

end Kovael.Hub
