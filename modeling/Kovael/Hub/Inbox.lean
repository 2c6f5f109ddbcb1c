import Kovael.Hub.Shared

/-!
# The inbox adapter: at most one runtime per request

`scripts/kovael-agent-inbox.mjs`: the request handler of `startInbox`, in any
number of adapter processes that share one hub file, with the runtimes that it
starts and what becomes of them.

Mirroring notes vs the script:
- An adapter is a process: its `inFlight` set, the runtimes it has started, and
  the handler that is in its synchronous part, if one is. From the payload to
  `runRuntime` a handler awaits nothing, so an adapter has one such handler at a
  time; other processes may come between any two of its statements.
- `payload` is what `decryptPayload` returned. The answers before that (403, 404
  and the 400 of a body that cannot be read) have no effect on the hub.
- `writeJson` is an answer; a handler that throws is an answer of its own, since
  nothing catches it. Whether the process survives it is left to `crash`.
- `runRuntime` is counted where it is called. What it does is not modelled: a
  runtime may end at any time, with any outcome.
- Everything else that may happen on the hub file (the outbox drain, the
  maintenance, another program) is a `hub` event.
-/

namespace Kovael.Hub

open Js (Number OrderedMap Clock Json)

/-! ## The handler -/

/-- What a handler leaves behind. -/
inductive Answer where
  | response (status : Nat) (body : Json)
  | rejected (error : String)

/-- Where a handler is in its synchronous part. -/
inductive Activation where
  /-- `recordInbound` has looked for the row -/
  | recording (requestId : String) (payload : Json) (call : InboundCall)
  /-- the row is inserted and the delivery is answered -/
  | accepted (requestId : String) (payload : Json)
  /-- the dispatch is marked running -/
  | running (requestId : String) (payload : Json)

structure Adapter where
  inFlight : List String
  activation : Option Activation
  runtimes : List (String × Json)

structure Inbox where
  shared : SharedHub
  adapters : OrderedMap Nat Adapter
  /-- the request ids that `runRuntime` was called for, in order -/
  runtimeStarts : List String
  answers : List (Nat × Answer)

inductive InboxEvent where
  | boot (p : Nat)
  | crash (p : Nat)
  | deliver (p : Nat) (host : Host) (payload : Json)
  | record (p : Nat) (host : Host)
  | markRunning (p : Nat) (host : Host)
  | runRuntime (p : Nat)
  /-- the `i`-th of the adapter's runtimes ends -/
  | runtimeEnds (p i : Nat) (host : Host) (outcome : Outcome)
  | hub (e : Event)

/-- The fields that a dispatch must have as strings. -/
def requiredFields : List String := ["topicId", "replyUrl", "claimSessionId", "replyProofSecret"]

/-- The handler from the payload to the SELECT of `recordInbound`. -/
def receive (env : HubEnv) (host : Host) (payload : Json) (hub : AgentHub) :
    Except Answer Activation :=
  match payload with
  | .null => .error (.rejected "Cannot read properties of null (reading 'agentId')")
  | payload =>
    if payload.stringField? "agentId" ≠ some env.agentId then
      .error (.response 409 (.object ([("error", .string "wrong_agent"),
        ("expected", .string env.agentId)]
        ++ ((payload.field? "agentId").map fun got => ("got", got)).toList)))
    else if requiredFields.any fun field => (payload.stringField? field).isNone then
      .error (.response 400 (.object [("error", .string "missing_required_fields")]))
    else
      let requestId := (payload.stringField? "requestId").getD (host.randomUUID 0)
      -- the hub trims the id, the handler goes on with the one it got
      let payload := payload.setField "requestId" (.string requestId)
      match readInboundDispatch env host payload hub with
      | .error msg => .error (.rejected msg)
      | .ok call => .ok (.recording requestId payload call)

/-- The 202 of a delivery. -/
def acceptedBody (extra : List (String × Json)) : Answer :=
  .response 202 (.object (("accepted", .bool true) :: extra))

namespace Inbox

/-- No adapter on a new hub file. -/
def init : Inbox := ⟨.init, .empty, [], []⟩

def put (b : Inbox) (p : Nat) (a : Adapter) : Inbox :=
  { b with adapters := b.adapters.set p a }

/-- The handler of `p` is over, with this answer. -/
def done (b : Inbox) (p : Nat) (a : Adapter) (answer : Answer) : Inbox :=
  { b.put p { a with activation := none } with answers := b.answers ++ [(p, answer)] }

/-- The writes of `recordInbound`, and the answer. -/
def recorded (env : HubEnv) (host : Host) (b : Inbox) (p : Nat) (a : Adapter) (requestId : String)
    (payload : Json) (call : InboundCall) : Inbox :=
  match writeInboundDispatch env host call b.shared.hub with
  | .error msg => b.done p a (.rejected msg)
  | .ok hub =>
    let b := { b with shared := { b.shared with hub } }
    if call.existing then
      b.done p a (acceptedBody [("duplicate", .bool true), ("requestId", .string requestId)])
    else if requestId ∈ a.inFlight then b.done p a (acceptedBody [("duplicate", .bool true)])
    else
      { b.put p { a with
          inFlight := a.inFlight ++ [requestId]
          activation := some (.accepted requestId payload) } with
        answers := b.answers ++ [(p, acceptedBody [("requestId", .string requestId)])] }

/-- `hub.markRunning(requestId)`. -/
def marked (env : HubEnv) (host : Host) (b : Inbox) (p : Nat) (a : Adapter) (requestId : String)
    (payload : Json) : Inbox :=
  match markDispatchRunning env host requestId b.shared.hub with
  | .error msg => b.done p a (.rejected msg)
  | .ok hub =>
    { b.put p { a with activation := some (.running requestId payload) } with
      shared := { b.shared with hub } }

/-- The call of `runRuntime(payload, cfg)`; the handler is over. -/
def started (b : Inbox) (p : Nat) (a : Adapter) (requestId : String) (payload : Json) : Inbox :=
  { b.put p { a with
      activation := none
      runtimes := a.runtimes ++ [(requestId, payload)] } with
    runtimeStarts := b.runtimeStarts ++ [requestId] }

/-- The `i`-th runtime is over and `finally` has run. -/
def finished (b : Inbox) (p : Nat) (a : Adapter) (i : Nat) (requestId : String) : Inbox :=
  b.put p { a with
    inFlight := a.inFlight.filter fun r => r ≠ requestId
    runtimes := a.runtimes.eraseIdx i }

/-- What becomes of a runtime: the outcome is recorded. Where `markSucceeded`
throws, `catch` makes it a failure later; where `markFailed` throws, nothing
catches it. -/
def ended (env : HubEnv) (host : Host) (b : Inbox) (p : Nat) (a : Adapter) (i : Nat)
    (requestId : String) (payload : Json) (outcome : Outcome) : Inbox :=
  let proofFields : ProofFields :=
    { claimSessionId := payload.stringField? "claimSessionId"
      replyProofSecret := payload.stringField? "replyProofSecret" }
  match markDispatch env host requestId outcome proofFields b.shared.hub, outcome with
  | .ok (hub, _), _ =>
    { b with shared := b.shared.commit [.marked requestId] (.ok hub) }.finished p a i requestId
  | .error _, .succeeded _ => b
  | .error msg, .failed _ =>
    { b.finished p a i requestId with answers := b.answers ++ [(p, .rejected msg)] }

/-- One event. -/
def step (env : HubEnv) (b : Inbox) : InboxEvent → Option Inbox
  | .boot p => if b.adapters.has p then none else some (b.put p ⟨[], none, []⟩)
  | .crash p =>
    if b.adapters.has p then some { b with adapters := b.adapters.delete p } else none
  | .deliver p host payload =>
    match b.adapters.get? p with
    | none => none
    | some a =>
      match a.activation with
      | some _ => none
      | none =>
        match receive env host payload b.shared.hub with
        | .error answer => some (b.done p a answer)
        | .ok activation => some (b.put p { a with activation := some activation })
  | .record p host =>
    match b.adapters.get? p with
    | none => none
    | some a =>
      match a.activation with
      | some (.recording requestId payload call) =>
        some (b.recorded env host p a requestId payload call)
      | _ => none
  | .markRunning p host =>
    match b.adapters.get? p with
    | none => none
    | some a =>
      match a.activation with
      | some (.accepted requestId payload) => some (b.marked env host p a requestId payload)
      | _ => none
  | .runRuntime p =>
    match b.adapters.get? p with
    | none => none
    | some a =>
      match a.activation with
      | some (.running requestId payload) => some (b.started p a requestId payload)
      | _ => none
  | .runtimeEnds p i host outcome =>
    match b.adapters.get? p with
    | none => none
    | some a =>
      match a.activation, a.runtimes[i]? with
      | none, some (requestId, payload) => some (b.ended env host p a i requestId payload outcome)
      | _, _ => none
  | .hub e => (Hub.step env b.shared e).map fun shared => { b with shared }

end Inbox

/-- The runs of any number of adapters on one hub file. -/
def inboxRuns (env : HubEnv) : Lts Inbox InboxEvent := ⟨.init, Inbox.step env⟩

/-! ## Who may start a request's runtime -/

variable {env : HubEnv} {b b' : Inbox}

/-- The hub has a row for the request. -/
def AgentHub.Recorded (hub : AgentHub) (requestId : String) : Prop :=
  ∃ row, hub.dispatches.get? requestId = some row

/-- The request that the handler inserted the row of and will start. -/
def Activation.owned? : Activation → Option String
  | .recording .. => none
  | .accepted requestId _ | .running requestId _ => some requestId

def Adapter.owned? (a : Adapter) : Option String := a.activation.bind Activation.owned?

/-- The request that a handler of the adapter will start. -/
def Inbox.owned? (b : Inbox) (p : Nat) : Option String := (b.adapters.get? p).bind Adapter.owned?

/-- A handler that has looked for a row looked for the trimmed request id. -/
def Inbox.Trimmed (b : Inbox) : Prop :=
  ∀ p a requestId payload call, b.adapters.get? p = some a →
    a.activation = some (.recording requestId payload call) →
    call.requestId = Js.trim requestId

/-- Each request is owned or started once, and was recorded before. -/
structure Once (b : Inbox) : Prop where
  owned : ∀ p r, b.owned? p = some r → b.shared.hub.Recorded (Js.trim r)
  alone : ∀ p q r r', b.owned? p = some r → b.owned? q = some r' → Js.trim r = Js.trim r' → p = q
  started : ∀ r ∈ b.runtimeStarts, b.shared.hub.Recorded (Js.trim r)
  unstarted : ∀ p r, b.owned? p = some r → Js.trim r ∉ b.runtimeStarts.map Js.trim
  nodup : (b.runtimeStarts.map Js.trim).Nodup

/-! ## What the hub's operations do to the recorded requests -/

theorem Kept.recorded {hub hub' : AgentHub} (h : Kept hub.dispatches hub'.dispatches)
    {r : String} (hr : hub.Recorded r) : hub'.Recorded r := by
  obtain ⟨row, hrow⟩ := hr
  obtain ⟨row', hrow', -⟩ := h r row hrow
  exact ⟨row', hrow'⟩

theorem recorded_of_set {hub hub' : AgentHub} {requestId : String} {row : DispatchRow}
    (h : hub'.dispatches = hub.dispatches.set requestId row) {r : String} (hr : hub.Recorded r) :
    hub'.Recorded r := by
  obtain ⟨row', hrow'⟩ := hr
  rw [AgentHub.Recorded, h]
  simp only [OrderedMap.get?_set]
  split
  next => exact ⟨row, rfl⟩
  next => exact ⟨row', hrow'⟩

/-- No operation of the store forgets a request. -/
theorem Move.recorded {s s' : SharedHub} {e : Event} (h : Move env s s' e) {r : String}
    (hr : s.hub.Recorded r) : s'.hub.Recorded r := by
  cases h with
  | kept hdispatches _ _ => exact hdispatches.recorded hr
  | started _ hdispatches _ _ => exact recorded_of_set hdispatches hr
  | marked _ hdispatches _ _ => exact recorded_of_set hdispatches hr
  | claimed hclaim _ => exact (Kept.of_eq (claimDueOutbox_ok hclaim).1).recorded hr
  | acknowledged _ _ hdispatches _ _ => exact (Kept.of_eq hdispatches).recorded hr
  | deliveryFailed _ _ hdispatches _ _ => exact (Kept.of_eq hdispatches).recorded hr
  | pruned hhub _ => exact (Kept.of_eq (by rw [hhub, pruneTerminalOutbox])).recorded hr

/-- A row is inserted where there was none. -/
theorem writeInboundDispatch_inserts {host : Host} {call : InboundCall} {hub hub' : AgentHub}
    (h : writeInboundDispatch env host call hub = .ok hub') (hnew : call.existing = false) :
    ¬ hub.Recorded call.requestId ∧ hub'.Recorded call.requestId := by
  rw [writeInboundDispatch, hnew, if_neg Bool.false_ne_true] at h
  split at h
  next => exact absurd h (by simp)
  next hfree =>
    constructor
    · intro hgiven
      obtain ⟨row, hrow⟩ := hgiven
      rw [OrderedMap.has, hrow] at hfree
      exact hfree rfl
    · obtain ⟨hdispatches, -⟩ := appendReceipt_ok h
      exact ⟨call.row, by rw [hdispatches, OrderedMap.get?_set_self]⟩

/-- `recordInbound` looks for the trimmed request id. -/
theorem readInboundDispatch_requestId {host : Host} {payload : Json} {hub : AgentHub}
    {call : InboundCall} {r : String} (hr : payload.stringField? "requestId" = some r)
    (h : readInboundDispatch env host payload hub = .ok call) : call.requestId = Js.trim r := by
  unfold readInboundDispatch at h
  obtain ⟨requestId, hrequest, h⟩ := Js.bind_ok h
  obtain ⟨topicId, -, h⟩ := Js.bind_ok h
  obtain ⟨agentId, -, h⟩ := Js.bind_ok h
  have htrim : requestId = Js.trim r := by
    rw [hr, requiredString] at hrequest
    split at hrequest
    next => exact absurd hrequest (by simp)
    next => exact (Except.ok.inj hrequest).symm
  -- whether the row exists or not, the call names the request that was looked for
  split at h
  next => exact absurd h (by simp)
  next =>
    dsimp only at h
    split at h
    next =>
      rw [← Except.ok.inj h]
      exact htrim
    next =>
      split at h
      next => exact absurd h (by simp)
      next =>
        rw [← Except.ok.inj h]
        exact htrim

/-- The handler goes on with a request id whose trimmed form it looked for. -/
theorem receive_ok {host : Host} {payload : Json} {hub : AgentHub} {activation : Activation}
    (h : receive env host payload hub = .ok activation) :
    ∃ requestId payload' call, activation = .recording requestId payload' call ∧
      call.requestId = Js.trim requestId := by
  cases payload with
  | object fields =>
    rw [receive] at h
    · dsimp only at h
      split at h
      next => exact absurd h (by simp)
      next =>
        split at h
        next => exact absurd h (by simp)
        next =>
          split at h
          next => exact absurd h (by simp)
          next call hread =>
            rw [Except.ok.injEq] at h
            refine ⟨_, _, call, h.symm, ?_⟩
            exact readInboundDispatch_requestId (Json.stringField?_setField ..) hread
    · simp
  | null => exact absurd h (by simp [receive])
  | bool _ | number _ | string _ | array _ =>
    exact absurd h (by simp [receive, Json.stringField?, Json.field?])

/-! ## What a step does to the owners -/

/-- No request gets an owner. -/
theorem Once.of_quiet (h : Once b)
    (hrecorded : ∀ r, b.shared.hub.Recorded r → b'.shared.hub.Recorded r)
    (hstarts : b'.runtimeStarts = b.runtimeStarts)
    (howned : ∀ q r, b'.owned? q = some r → b.owned? q = some r) : Once b' where
  owned p r hp := hrecorded _ (h.owned p r (howned p r hp))
  alone p q r r' hp hq hr := h.alone p q r r' (howned p r hp) (howned q r' hq) hr
  started r hr := hrecorded _ (h.started r (hstarts ▸ hr))
  unstarted p r hp := hstarts ▸ h.unstarted p r (howned p r hp)
  nodup := hstarts ▸ h.nodup

/-- A handler becomes the owner of a request that was not recorded. -/
theorem Once.of_insert (h : Once b) {p : Nat} {r : String}
    (hnew : ¬ b.shared.hub.Recorded (Js.trim r)) (hself : b'.shared.hub.Recorded (Js.trim r))
    (hrecorded : ∀ r, b.shared.hub.Recorded r → b'.shared.hub.Recorded r)
    (hstarts : b'.runtimeStarts = b.runtimeStarts)
    (howned : ∀ q r', b'.owned? q = some r' → b.owned? q = some r' ∨ q = p ∧ r' = r) :
    Once b' := by
  constructor
  case owned =>
    intro q r' hq
    rcases howned q r' hq with hold | ⟨-, rfl⟩
    · exact hrecorded _ (h.owned q r' hold)
    · exact hself
  case alone =>
    intro q₁ q₂ r₁ r₂ hq₁ hq₂ hr
    rcases howned q₁ r₁ hq₁ with hold₁ | ⟨rfl, rfl⟩ <;>
      rcases howned q₂ r₂ hq₂ with hold₂ | ⟨rfl, rfl⟩
    · exact h.alone q₁ q₂ r₁ r₂ hold₁ hold₂ hr
    · -- an owner's request was recorded, and this one was not
      exact absurd (hr ▸ h.owned q₁ r₁ hold₁) hnew
    · exact absurd (hr ▸ h.owned q₂ r₂ hold₂) hnew
    · rfl
  case started =>
    intro r' hr'
    exact hrecorded _ (h.started r' (hstarts ▸ hr'))
  case unstarted =>
    intro q r' hq hmem
    rw [hstarts] at hmem
    rcases howned q r' hq with hold | ⟨-, rfl⟩
    · exact h.unstarted q r' hold hmem
    · obtain ⟨r'', hr'', htrim⟩ := List.mem_map.mp hmem
      exact hnew (htrim ▸ h.started r'' hr'')
  case nodup => exact hstarts ▸ h.nodup

/-- An owner starts the runtime and owns nothing any more. -/
theorem Once.of_start (h : Once b) {p : Nat} {r : String} (hp : b.owned? p = some r)
    (hhub : b'.shared.hub = b.shared.hub) (hstarts : b'.runtimeStarts = b.runtimeStarts ++ [r])
    (howned : ∀ q r', b'.owned? q = some r' → b.owned? q = some r' ∧ q ≠ p) : Once b' := by
  have hmap : b'.runtimeStarts.map Js.trim = b.runtimeStarts.map Js.trim ++ [Js.trim r] := by
    rw [hstarts, List.map_append, List.map_singleton]
  constructor
  case owned =>
    intro q r' hq
    rw [hhub]
    exact h.owned q r' (howned q r' hq).1
  case alone =>
    intro q₁ q₂ r₁ r₂ hq₁ hq₂ hr
    exact h.alone q₁ q₂ r₁ r₂ (howned q₁ r₁ hq₁).1 (howned q₂ r₂ hq₂).1 hr
  case started =>
    intro r' hr'
    rw [hhub]
    rw [hstarts, List.mem_append, List.mem_singleton] at hr'
    rcases hr' with hold | rfl
    · exact h.started r' hold
    · exact h.owned p r' hp
  case unstarted =>
    intro q r' hq hmem
    obtain ⟨hold, hne⟩ := howned q r' hq
    rw [hmap, List.mem_append, List.mem_singleton] at hmem
    rcases hmem with hstarted | htrim
    · exact h.unstarted q r' hold hstarted
    · exact hne (h.alone q p r' r hold hp htrim)
  case nodup =>
    rw [hmap, List.nodup_append]
    refine ⟨h.nodup, List.nodup_singleton _, ?_⟩
    intro k hk k' hk' heq
    rw [List.mem_singleton] at hk'
    rw [heq, hk'] at hk
    exact h.unstarted p r hp hk

/-- The owners after an adapter was written. -/
theorem owned_of_set {p : Nat} {a : Adapter} (h : b'.adapters = b.adapters.set p a) (q : Nat) :
    b'.owned? q = if q = p then a.owned? else b.owned? q := by
  rw [Inbox.owned?, h, OrderedMap.get?_set]
  split
  next => rfl
  next => rfl

theorem Inbox.Trimmed.of_set (h : b.Trimmed) {p : Nat} {a : Adapter}
    (hset : b'.adapters = b.adapters.set p a)
    (ha : ∀ requestId payload call, a.activation = some (.recording requestId payload call) →
      call.requestId = Js.trim requestId) : b'.Trimmed := by
  intro q a' requestId payload call hq hact
  rw [hset] at hq
  rcases OrderedMap.get?_set_some hq with ⟨-, rfl⟩ | ⟨-, hq⟩
  · exact ha requestId payload call hact
  · exact h q a' requestId payload call hq hact

/-- An adapter that owns nothing new is written. -/
theorem Once.of_adapter (h : Once b) {p : Nat} {a : Adapter}
    (hset : b'.adapters = b.adapters.set p a)
    (hrecorded : ∀ r, b.shared.hub.Recorded r → b'.shared.hub.Recorded r)
    (hstarts : b'.runtimeStarts = b.runtimeStarts)
    (ha : ∀ r, a.owned? = some r → b.owned? p = some r) : Once b' := by
  refine h.of_quiet hrecorded hstarts ?_
  intro q r hq
  rw [owned_of_set hset] at hq
  split at hq
  next hqp =>
    rw [hqp]
    exact ha r hq
  next => exact hq

/-! ## Each step -/

/-- What every reachable inbox satisfies. -/
structure Orderly (b : Inbox) : Prop where
  trimmed : b.Trimmed
  once : Once b

/-- An adapter is written that has looked for the trimmed id, if it has, and owns
nothing new. -/
theorem Orderly.of_adapter (h : Orderly b) {p : Nat} {a : Adapter}
    (hset : b'.adapters = b.adapters.set p a)
    (hrecorded : ∀ r, b.shared.hub.Recorded r → b'.shared.hub.Recorded r)
    (hstarts : b'.runtimeStarts = b.runtimeStarts)
    (hact : ∀ requestId payload call, a.activation = some (.recording requestId payload call) →
      call.requestId = Js.trim requestId)
    (howned : ∀ r, a.owned? = some r → b.owned? p = some r) : Orderly b' :=
  ⟨h.trimmed.of_set hset hact, h.once.of_adapter hset hrecorded hstarts howned⟩

/-- An adapter without a handler in its synchronous part is written. -/
theorem Orderly.of_idle (h : Orderly b) {p : Nat} {a : Adapter} (hidle : a.activation = none)
    (hset : b'.adapters = b.adapters.set p a)
    (hrecorded : ∀ r, b.shared.hub.Recorded r → b'.shared.hub.Recorded r)
    (hstarts : b'.runtimeStarts = b.runtimeStarts) : Orderly b' := by
  refine h.of_adapter hset hrecorded hstarts ?_ ?_
  · intro _ _ _ hact
    exact absurd (hidle.symm.trans hact) (by simp)
  · intro r hr
    exact absurd hr (by simp [Adapter.owned?, hidle])

/-- A handler that ends. -/
theorem Orderly.done (h : Orderly b) (p : Nat) (a : Adapter) (answer : Answer) :
    Orderly (b.done p a answer) :=
  h.of_idle (a := { a with activation := none }) rfl rfl (fun _ hr => hr) rfl

/-- An adapter that goes: what it owned nobody will start. -/
theorem Orderly.crashed (h : Orderly b) (p : Nat) :
    Orderly { b with adapters := b.adapters.delete p } := by
  have hget : ∀ q a, (b.adapters.delete p).get? q = some a → b.adapters.get? q = some a :=
    fun q a hq => (OrderedMap.get?_delete_some hq).2
  constructor
  · intro q a requestId payload call hq hact
    exact h.trimmed q a requestId payload call (hget q a hq) hact
  · refine h.once.of_quiet (fun _ hr => hr) rfl ?_
    intro q r hq
    obtain ⟨a, ha, howned⟩ := Option.bind_eq_some_iff.mp hq
    exact Option.bind_eq_some_iff.mpr ⟨a, hget q a ha, howned⟩

/-- A delivery: its handler has looked for the row, or is over. -/
theorem Orderly.received (h : Orderly b) {host : Host} {payload : Json} {activation : Activation}
    (hreceive : receive env host payload b.shared.hub = .ok activation) (p : Nat) (a : Adapter) :
    Orderly (b.put p { a with activation := some activation }) := by
  obtain ⟨requestId, payload', call, rfl, htrim⟩ := receive_ok hreceive
  refine h.of_adapter rfl (fun _ hr => hr) rfl ?_ ?_
  · intro _ _ _ hact
    rw [Option.some.injEq, Activation.recording.injEq] at hact
    rw [← hact.1, ← hact.2.2]
    exact htrim
  · -- a handler that has only looked owns nothing
    intro r hr
    exact absurd hr (by simp [Adapter.owned?, Activation.owned?])

/-- The writes of `recordInbound`: a handler that inserted the row owns it. -/
theorem Orderly.recorded (h : Orderly b) {p : Nat} {a : Adapter} {requestId : String}
    {payload : Json} {call : InboundCall} (ha : b.adapters.get? p = some a)
    (hact : a.activation = some (.recording requestId payload call)) (host : Host) :
    Orderly (b.recorded env host p a requestId payload call) := by
  have htrim := h.trimmed p a requestId payload call ha hact
  unfold Inbox.recorded
  split
  next => exact h.done p a _
  next hub hwrite =>
    have hkept := (writeInboundDispatch_ok hwrite).1
    have hwritten : Orderly { b with shared := { b.shared with hub } } :=
      ⟨h.trimmed, h.once.of_quiet (fun r hr => hkept.recorded hr) rfl (fun _ _ hq => hq)⟩
    dsimp only
    split
    next =>
      -- a redelivery
      exact hwritten.done p a _
    next hnew =>
      split
      next =>
        -- its id is in flight here
        exact hwritten.done p a _
      next =>
        obtain ⟨hfree, hself⟩ := writeInboundDispatch_inserts hwrite (Bool.not_eq_true _ ▸ hnew)
        rw [htrim] at hfree hself
        constructor
        · refine h.trimmed.of_set rfl ?_
          intro _ _ _ hact'
          exact absurd hact' (by simp)
        · refine h.once.of_insert (p := p) (r := requestId) hfree hself
            (fun r hr => hkept.recorded hr) rfl ?_
          intro q r' hq
          rw [owned_of_set (b := b) rfl] at hq
          split at hq
          next hqp => exact Or.inr ⟨hqp, (Option.some.inj hq).symm⟩
          next => exact Or.inl hq

/-- Marking the dispatch running leaves the owner. -/
theorem Orderly.marked (h : Orderly b) {p : Nat} {a : Adapter} {requestId : String}
    {payload : Json} (ha : b.adapters.get? p = some a)
    (hact : a.activation = some (.accepted requestId payload)) (host : Host) :
    Orderly (b.marked env host p a requestId payload) := by
  unfold Inbox.marked
  split
  next => exact h.done p a _
  next hub hmark =>
    obtain ⟨row, -, hdispatches, -⟩ := markDispatchRunning_ok hmark
    refine h.of_adapter rfl (fun r hr => recorded_of_set hdispatches hr) rfl ?_ ?_
    · intro _ _ _ hact'
      exact absurd hact' (by simp)
    · intro r hr
      rw [Inbox.owned?, ha, Option.bind_some, Adapter.owned?, hact]
      exact hr

/-- The owner calls `runRuntime`. -/
theorem Orderly.started (h : Orderly b) {p : Nat} {a : Adapter} {requestId : String}
    {payload : Json} (ha : b.adapters.get? p = some a)
    (hact : a.activation = some (.running requestId payload)) :
    Orderly (b.started p a requestId payload) := by
  constructor
  · refine h.trimmed.of_set rfl ?_
    intro _ _ _ hact'
    exact absurd hact' (by simp)
  · refine h.once.of_start (p := p) (r := requestId) ?_ rfl rfl ?_
    · rw [Inbox.owned?, ha, Option.bind_some, Adapter.owned?, hact]
      rfl
    · intro q r' hq
      rw [owned_of_set (b := b) rfl] at hq
      split at hq
      next => exact absurd hq (by simp [Adapter.owned?])
      next hqp => exact ⟨hq, hqp⟩

/-- A runtime that is over owned nothing. -/
theorem Orderly.finished (h : Orderly b) {p i : Nat} {a : Adapter} {requestId : String}
    (hidle : a.activation = none) (hset : b'.adapters = (b.finished p a i requestId).adapters)
    (hrecorded : ∀ r, b.shared.hub.Recorded r → b'.shared.hub.Recorded r)
    (hstarts : b'.runtimeStarts = b.runtimeStarts) : Orderly b' :=
  h.of_idle (a := { a with
    inFlight := a.inFlight.filter fun r => r ≠ requestId
    runtimes := a.runtimes.eraseIdx i }) hidle hset hrecorded hstarts

/-- A runtime that ends changes no owner. -/
theorem Orderly.ended (h : Orderly b) {p : Nat} {a : Adapter} (hact : a.activation = none)
    (host : Host) (i : Nat) (requestId : String) (payload : Json) (outcome : Outcome) :
    Orderly (b.ended env host p a i requestId payload outcome) := by
  unfold Inbox.ended
  dsimp only
  split
  next hub outboxId _ hmark =>
    obtain ⟨row, -, hdispatches, -⟩ := markDispatch_ok hmark
    exact h.finished hact rfl (fun r hr => recorded_of_set hdispatches hr) rfl
  next =>
    -- the runtime goes on into the handler's `catch`
    exact h
  next => exact h.finished hact rfl (fun _ hr => hr) rfl

/-- Every step keeps the inbox orderly. -/
theorem step_orderly (h : Orderly b) {e : InboxEvent} (hstep : b.step env e = some b') :
    Orderly b' := by
  cases e with
  | boot p =>
    rw [Inbox.step] at hstep
    split at hstep
    next => exact absurd hstep (by simp)
    next =>
      rw [Option.some.injEq] at hstep
      subst hstep
      exact h.of_idle (p := p) (a := ⟨[], none, []⟩) rfl rfl (fun _ hr => hr) rfl
  | crash p =>
    rw [Inbox.step] at hstep
    split at hstep
    next =>
      rw [Option.some.injEq] at hstep
      exact hstep ▸ h.crashed p
    next => exact absurd hstep (by simp)
  | deliver p host payload =>
    rw [Inbox.step] at hstep
    split at hstep
    next => exact absurd hstep (by simp)
    next a ha =>
      split at hstep
      next => exact absurd hstep (by simp)
      next =>
        split at hstep <;> rw [Option.some.injEq] at hstep <;> subst hstep
        next => exact h.done p a _
        next activation hreceive => exact h.received hreceive p a
  | record p host =>
    rw [Inbox.step] at hstep
    split at hstep
    next => exact absurd hstep (by simp)
    next a ha =>
      split at hstep
      next requestId payload call hact =>
        rw [Option.some.injEq] at hstep
        exact hstep ▸ h.recorded ha hact host
      next => exact absurd hstep (by simp)
  | markRunning p host =>
    rw [Inbox.step] at hstep
    split at hstep
    next => exact absurd hstep (by simp)
    next a ha =>
      split at hstep
      next requestId payload hact =>
        rw [Option.some.injEq] at hstep
        exact hstep ▸ h.marked ha hact host
      next => exact absurd hstep (by simp)
  | runRuntime p =>
    rw [Inbox.step] at hstep
    split at hstep
    next => exact absurd hstep (by simp)
    next a ha =>
      split at hstep
      next requestId payload hact =>
        rw [Option.some.injEq] at hstep
        exact hstep ▸ h.started ha hact
      next => exact absurd hstep (by simp)
  | runtimeEnds p i host outcome =>
    rw [Inbox.step] at hstep
    split at hstep
    next => exact absurd hstep (by simp)
    next a ha =>
      split at hstep
      next requestId payload hact _ =>
        rw [Option.some.injEq] at hstep
        exact hstep ▸ h.ended hact host i requestId payload outcome
      next => exact absurd hstep (by simp)
  | hub e =>
    rw [Inbox.step, Option.map_eq_some_iff] at hstep
    obtain ⟨shared, hshared, rfl⟩ := hstep
    exact ⟨h.trimmed, h.once.of_quiet (fun r hr => (step_move hshared).recorded hr) rfl
      (fun _ _ hq => hq)⟩

theorem init_orderly : Orderly Inbox.init where
  trimmed _ _ _ _ _ ha := absurd ha (by simp [Inbox.init])
  once :=
    { owned := fun _ _ hp => absurd hp (by simp [Inbox.init, Inbox.owned?])
      alone := fun _ _ _ _ hp => absurd hp (by simp [Inbox.init, Inbox.owned?])
      started := fun _ hr => absurd hr List.not_mem_nil
      unstarted := fun _ _ hp => absurd hp (by simp [Inbox.init, Inbox.owned?])
      nodup := List.nodup_nil }

/-- **At most one runtime per request.** Whatever is delivered, how often and to
which adapters on the hub file, and wherever adapters crash and start again:
`runRuntime` is called at most once for each request id. -/
theorem at_most_one_runtime (env : HubEnv) (b : Inbox) (hreach : (inboxRuns env).Reachable b)
    (requestId : String) : b.runtimeStarts.count requestId ≤ 1 := by
  have hpres : ∀ b e b', Orderly b → Inbox.step env b e = some b' → Orderly b' :=
    fun _ _ _ hb hstep => step_orderly hb hstep
  have h : Orderly b := Lts.reachable_invariant init_orderly hpres hreach
  exact List.nodup_iff_count_le_one.mp h.once.nodup.of_map requestId

/-- A delivery, a redelivery to the same adapter, a crash, and a redelivery to
the adapter that takes over. -/
def redelivered : List InboxEvent :=
  [.boot 0,
   .deliver 0 (hostAt 0 "a") sampleDispatch, .record 0 (hostAt 1 "b"),
   .markRunning 0 (hostAt 2 "c"), .runRuntime 0,
   .deliver 0 (hostAt 3 "d") sampleDispatch, .record 0 (hostAt 4 "e"),
   .crash 0, .boot 1,
   .deliver 1 (hostAt 5 "f") sampleDispatch, .record 1 (hostAt 6 "g")]

/-- The runtime of the redelivered dispatch is started, and only once. -/
theorem redelivered_starts_once :
    ∃ b, (inboxRuns sampleHubEnv).exec .init redelivered = some b ∧
      b.runtimeStarts = ["req-1"] ∧ b.runtimeStarts.count "req-1" ≤ 1 := by
  have hend : ((inboxRuns sampleHubEnv).exec .init redelivered).map Inbox.runtimeStarts
      = some ["req-1"] := by
    decide +kernel
  obtain ⟨b, hrun, hstarts⟩ := Option.map_eq_some_iff.mp hend
  exact ⟨b, hrun, hstarts, at_most_one_runtime sampleHubEnv b ⟨redelivered, hrun⟩ "req-1"⟩

end Kovael.Hub
