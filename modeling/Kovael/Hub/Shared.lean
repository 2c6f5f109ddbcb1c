import Kovael.Hub.Outbox
import Kovael.Lts

/-!
# One hub file, many callers

The hub file with the operations that any number of workers and processes have
under way on it. An event is a transaction, the reading half of an operation or
the writing half of one that was read; which events come when is up to the run,
so every interleaving is one, and a caller that crashes is one whose operation
is never written.

`log` is what happened to the outbox, in order; no operation reads it. `Move`
says all that a step can do to the tables, and `step_move` that it says so.
-/

namespace Kovael.Hub

open Js (Number OrderedMap Clock Json)

/-- An operation between its SELECT and its writes. -/
inductive Call where
  | recordInboundDispatch (call : InboundCall)
  | markOutboxSent (worker : Nat) (id : String) (stamp : Int)
  | markOutboxDeliveryFailed (call : FailureCall)

/-- What happened to the outbox. -/
inductive Entry where
  /-- a worker was handed the row, at this time and with this payload -/
  | claimed (worker : Nat) (id : String) (stamp : Int) (payload : ReplyPayload)
  /-- a worker's acknowledgement turned the row to 'sent' -/
  | acknowledged (worker : Nat) (id : String)
  /-- a delivery failure was written to the row -/
  | deliveryFailed (id : String)
  /-- an outcome of the request was recorded -/
  | marked (requestId : String)
  deriving DecidableEq, Repr

structure SharedHub where
  hub : AgentHub
  calls : OrderedMap Nat Call
  log : List Entry

/-- How a runtime ended. -/
inductive Outcome where
  | succeeded (replyContent : String)
  | failed (error : String)
  deriving DecidableEq, Repr

inductive Event where
  | recordInboundDispatch (call : Nat) (host : Host) (payload : Json)
  | markDispatchRunning (host : Host) (requestId : String)
  | scheduleDispatchReplay (requestId : String) (replayAfter : Number)
  | markDispatch (host : Host) (requestId : String) (outcome : Outcome) (proofFields : ProofFields)
  | claimDueOutbox (worker : Nat) (host : Host) (limit leaseMs : Number)
  | markOutboxSent (call worker : Nat) (host : Host) (id : String)
  | markOutboxDeliveryFailed (call : Nat) (id error : String) (retryAt : Option Number)
      (maxAttempts : Number)
  /-- the operation goes on after its SELECT -/
  | write (call : Nat) (host : Host)
  | pruneTerminalOutbox (beforeTimestamp : Number)
  | pruneOldReceipts (beforeTimestamp : Number)

/-- A hub file that was just created. -/
def SharedHub.init : SharedHub := ⟨.init, .empty, []⟩

/-- A committed operation and what it logs; one that throws writes nothing. -/
def SharedHub.commit (s : SharedHub) (log : List Entry) : Except String AgentHub → SharedHub
  | .error _ => s
  | .ok hub => { s with hub, log := s.log ++ log }

/-- An operation that got through its SELECT. -/
def SharedHub.await (s : SharedHub) (n : Nat) (call : Call) : SharedHub :=
  { s with calls := s.calls.set n call }

/-- `markDispatchSucceeded` or `markDispatchFailed`. -/
def markDispatch (env : HubEnv) (host : Host) (requestId : String) (outcome : Outcome)
    (proofFields : ProofFields) (hub : AgentHub) : Except String (AgentHub × Option String) :=
  match outcome with
  | .succeeded replyContent => markDispatchSucceeded env host requestId replyContent proofFields hub
  | .failed error => markDispatchFailed env host requestId error proofFields hub

/-- The log entries of a claim. -/
def handed (worker : Nat) (stamp : Int) (rows : List (String × OutboxRow)) : List Entry :=
  rows.map fun r => .claimed worker r.1 stamp r.2.payload

/-- The log entry of an acknowledgement: one of a row that is sent already
changes no status. -/
def acknowledgement (worker : Nat) (id : String) (hub : AgentHub) : List Entry :=
  if (hub.outbox.get? id).any fun row => row.status ≠ .sent then [.acknowledged worker id] else []

/-- The writing half of an operation. -/
def Call.write (env : HubEnv) (host : Host) (s : SharedHub) : Call → SharedHub
  | .recordInboundDispatch call => s.commit [] (writeInboundDispatch env host call s.hub)
  | .markOutboxSent worker id stamp =>
    s.commit (acknowledgement worker id s.hub) (writeOutboxSent id stamp s.hub)
  | .markOutboxDeliveryFailed call =>
    s.commit (if s.hub.outbox.has call.id then [.deliveryFailed call.id] else [])
      (.ok (writeDeliveryFailed env host call s.hub))

/-- One event. -/
def step (env : HubEnv) (s : SharedHub) : Event → Option SharedHub
  | .recordInboundDispatch n host payload =>
    if s.calls.has n then none
    else match readInboundDispatch env host payload s.hub with
      | .error _ => some s
      | .ok call => some (s.await n (.recordInboundDispatch call))
  | .markDispatchRunning host requestId =>
    some (s.commit [] (markDispatchRunning env host requestId s.hub))
  | .scheduleDispatchReplay requestId replayAfter =>
    some (s.commit [] (scheduleDispatchReplay requestId replayAfter s.hub))
  | .markDispatch host requestId outcome proofFields =>
    some (s.commit [.marked requestId]
      ((markDispatch env host requestId outcome proofFields s.hub).map Prod.fst))
  -- the claim is one transaction: its SELECTs and its UPDATEs are one step
  | .claimDueOutbox worker host limit leaseMs =>
    match claimDueOutbox host limit leaseMs s.hub with
    | .error _ => some s
    | .ok (hub, rows) => some { s with hub, log := s.log ++ handed worker (host.now 0) rows }
  | .markOutboxSent n worker host id =>
    if s.calls.has n then none
    else match readOutboxSent host id s.hub with
      | .error _ | .ok none => some s
      | .ok (some stamp) => some (s.await n (.markOutboxSent worker id stamp))
  | .markOutboxDeliveryFailed n id error retryAt maxAttempts =>
    if s.calls.has n then none
    else match readDeliveryFailed id error retryAt maxAttempts s.hub with
      | .error _ => some s
      | .ok call => some (s.await n (.markOutboxDeliveryFailed call))
  -- a call that is never written is one whose process died
  | .write n host =>
    (s.calls.get? n).map fun call => call.write env host { s with calls := s.calls.delete n }
  | .pruneTerminalOutbox beforeTimestamp =>
    some { s with hub := pruneTerminalOutbox beforeTimestamp s.hub }
  | .pruneOldReceipts beforeTimestamp =>
    some { s with hub := pruneOldReceipts beforeTimestamp s.hub }

/-- The runs on one hub file. -/
def hubRuns (env : HubEnv) : Lts SharedHub Event := ⟨.init, step env⟩

/-- Where an element of a log that grew by one entry is. -/
theorem append_singleton_cases {α : Type} {log pre post : List α} {new entry : α}
    (h : log ++ [new] = pre ++ entry :: post) :
    (log = pre ∧ new = entry ∧ post = []) ∨
      ∃ post', log = pre ++ entry :: post' ∧ post = post' ++ [new] := by
  rcases List.eq_nil_or_concat post with rfl | ⟨post', last, rfl⟩
  · obtain ⟨hlog, hnew⟩ := List.append_inj' h rfl
    exact Or.inl ⟨hlog, List.singleton_inj.mp hnew, rfl⟩
  · have hsplit : log ++ [new] = (pre ++ entry :: post') ++ [last] := by
      rw [h, List.concat_eq_append, List.append_assoc, List.cons_append]
    obtain ⟨hlog, hlast⟩ := List.append_inj' hsplit rfl
    rw [List.singleton_inj.mp hlast]
    exact Or.inr ⟨post', hlog, List.concat_eq_append ..⟩

/-! ## What a step can do -/

variable {env : HubEnv} {s s' : SharedHub}

/-- The dispatch has the same outcome and the same reply URL. -/
structure SameOutcome (row row' : DispatchRow) : Prop where
  status : row'.status = row.status
  replyContent : row'.replyContent = row.replyContent
  error : row'.error = row.error
  replyUrl : row'.replyUrl = row.replyUrl

/-- No dispatch is lost or changes its outcome. -/
def Kept (before after : OrderedMap String DispatchRow) : Prop :=
  ∀ requestId row, before.get? requestId = some row →
    ∃ row', after.get? requestId = some row' ∧ SameOutcome row row'

theorem SameOutcome.rfl {row : DispatchRow} : SameOutcome row row :=
  ⟨.refl _, .refl _, .refl _, .refl _⟩

theorem Kept.of_eq {before after : OrderedMap String DispatchRow} (h : after = before) :
    Kept before after := fun _ row hrow => ⟨row, h ▸ hrow, .rfl⟩

/-- The dispatch after an outcome, and the reply that is filed for it. -/
def Outcome.settled (env : HubEnv) (host : Host) (outcome : Outcome) (row : DispatchRow) :
    DispatchRow :=
  match outcome with
  | .succeeded replyContent => row.succeeded (host.now 0) replyContent
  | .failed error => row.failed (host.now 0) (env.redactSensitiveText error)

def Outcome.reply (env : HubEnv) (requestId : String) (outcome : Outcome)
    (proofFields : ProofFields) (row : DispatchRow) : ReplyPayload :=
  match outcome with
  | .succeeded replyContent =>
    replyPayload env requestId proofFields .succeeded replyContent none row
  | .failed error =>
    replyPayload env requestId proofFields .failed (env.redactSensitiveText error)
      (some (env.redactSensitiveText error)) row

/-- All that one step can do to the dispatches, the outbox and the log. -/
inductive Move (env : HubEnv) (s s' : SharedHub) : Event → Prop where
  /-- nothing that concerns a reply changes -/
  | kept {e : Event} (hdispatches : Kept s.hub.dispatches s'.hub.dispatches)
      (houtbox : s'.hub.outbox = s.hub.outbox) (hlog : s'.log = s.log) : Move env s s' e
  | started {host : Host} {requestId : String} {row : DispatchRow}
      (hrow : s.hub.dispatches.get? requestId = some row)
      (hdispatches : s'.hub.dispatches = s.hub.dispatches.set requestId (row.started (host.now 0)))
      (houtbox : s'.hub.outbox = s.hub.outbox) (hlog : s'.log = s.log) :
      Move env s s' (.markDispatchRunning host requestId)
  | marked {host : Host} {requestId : String} {outcome : Outcome} {proofFields : ProofFields}
      {row : DispatchRow} (hrow : s.hub.dispatches.get? requestId = some row)
      (hdispatches : s'.hub.dispatches
        = s.hub.dispatches.set requestId (outcome.settled env host row))
      (houtbox : match row.replyUrl with
        | none => s'.hub.outbox = s.hub.outbox
        | some replyUrl => Filed s.hub.outbox s'.hub.outbox (newReply env requestId replyUrl
            (outcome.reply env requestId proofFields row) (host.now 0)))
      (hlog : s'.log = s.log ++ [.marked requestId]) :
      Move env s s' (.markDispatch host requestId outcome proofFields)
  | claimed {worker : Nat} {host : Host} {limit leaseMs : Number}
      {rows : List (String × OutboxRow)}
      (hclaim : claimDueOutbox host limit leaseMs s.hub = .ok (s'.hub, rows))
      (hlog : s'.log = s.log ++ handed worker (host.now 0) rows) :
      Move env s s' (.claimDueOutbox worker host limit leaseMs)
  | acknowledged {n worker : Nat} {host : Host} {id : String} {stamp : Int} {row : OutboxRow}
      (hcall : s.calls.get? n = some (.markOutboxSent worker id stamp))
      (hrow : s.hub.outbox.get? id = some row)
      (hdispatches : s'.hub.dispatches = s.hub.dispatches)
      (houtbox : s'.hub.outbox = s.hub.outbox.set id (row.acknowledged stamp))
      (hlog : s'.log = s.log ++ acknowledgement worker id s.hub) :
      Move env s s' (.write n host)
  | deliveryFailed {n : Nat} {host : Host} {call : FailureCall} {row : OutboxRow}
      (hcall : s.calls.get? n = some (.markOutboxDeliveryFailed call))
      (hrow : s.hub.outbox.get? call.id = some row)
      (hdispatches : s'.hub.dispatches = s.hub.dispatches)
      (houtbox : s'.hub.outbox = s.hub.outbox.set call.id
        (row.deliveryFailed call (env.redactSensitiveText call.error) (host.now 0)))
      (hlog : s'.log = s.log ++ [.deliveryFailed call.id]) :
      Move env s s' (.write n host)
  | pruned {beforeTimestamp : Number}
      (hhub : s'.hub = pruneTerminalOutbox beforeTimestamp s.hub) (hlog : s'.log = s.log) :
      Move env s s' (.pruneTerminalOutbox beforeTimestamp)

/-- Nothing but the calls differs. -/
theorem Move.of_hub_eq {e : Event} (hhub : s'.hub = s.hub) (hlog : s'.log = s.log) :
    Move env s s' e :=
  .kept (.of_eq (congrArg AgentHub.dispatches hhub)) (congrArg AgentHub.outbox hhub) hlog

theorem markDispatch_ok {host : Host} {requestId : String} {outcome : Outcome}
    {proofFields : ProofFields} {hub hub' : AgentHub} {outboxId : Option String}
    (h : markDispatch env host requestId outcome proofFields hub = .ok (hub', outboxId)) :
    ∃ row, hub.dispatches.get? requestId = some row ∧
      hub'.dispatches = hub.dispatches.set requestId (outcome.settled env host row) ∧
      match row.replyUrl with
      | none => hub'.outbox = hub.outbox
      | some replyUrl => Filed hub.outbox hub'.outbox (newReply env requestId replyUrl
          (outcome.reply env requestId proofFields row) (host.now 0)) := by
  cases outcome with
  | succeeded replyContent =>
    rw [markDispatch, markDispatchSucceeded] at h
    obtain ⟨row, hrow, hdispatches, houtbox, -⟩ := recordOutcome_ok h
    exact ⟨row, hrow, hdispatches, houtbox⟩
  | failed error =>
    rw [markDispatch, markDispatchFailed] at h
    obtain ⟨row, hrow, hdispatches, houtbox, -⟩ := recordOutcome_ok h
    exact ⟨row, hrow, hdispatches, houtbox⟩

theorem writeInboundDispatch_ok {host : Host} {call : InboundCall} {hub hub' : AgentHub}
    (h : writeInboundDispatch env host call hub = .ok hub') :
    Kept hub.dispatches hub'.dispatches ∧ hub'.outbox = hub.outbox := by
  unfold writeInboundDispatch at h
  split at h
  next =>
    rw [Except.ok.injEq] at h
    rw [← h]
    refine ⟨?_, rfl⟩
    intro requestId row hrow
    show ∃ row', (hub.dispatches.modify _ _).get? _ = _ ∧ _
    rw [OrderedMap.get?_modify]
    by_cases hr : requestId = call.requestId
    · rw [if_pos hr, ← hr, hrow]
      exact ⟨_, rfl, ⟨rfl, rfl, rfl, rfl⟩⟩
    · rw [if_neg hr]
      exact ⟨row, hrow, .rfl⟩
  next =>
    split at h
    next => exact absurd h (by simp)
    next hfree =>
      obtain ⟨hd, ho⟩ := appendReceipt_ok h
      refine ⟨?_, ho⟩
      intro requestId row hrow
      have hr : requestId ≠ call.requestId := by
        intro hr
        rw [← hr, OrderedMap.has, hrow] at hfree
        exact hfree rfl
      rw [hd]
      exact ⟨row, (OrderedMap.get?_set_ne _ _ hr).trans hrow, .rfl⟩

theorem markDispatchRunning_ok {host : Host} {requestId : String} {hub hub' : AgentHub}
    (h : markDispatchRunning env host requestId hub = .ok hub') :
    ∃ row, hub.dispatches.get? requestId = some row ∧
      hub'.dispatches = hub.dispatches.set requestId (row.started (host.now 0)) ∧
      hub'.outbox = hub.outbox := by
  unfold markDispatchRunning at h
  split at h
  next => exact absurd h (by simp)
  next row hrow =>
    obtain ⟨hd, ho⟩ := appendReceipt_ok h
    exact ⟨row, hrow, hd, ho⟩

theorem scheduleDispatchReplay_ok {requestId : String} {replayAfter : Number} {hub hub' : AgentHub}
    (h : scheduleDispatchReplay requestId replayAfter hub = .ok hub') :
    ∃ row, hub.dispatches.get? requestId = some row ∧
      hub' = { hub with
        dispatches := hub.dispatches.set requestId
          { row with replayAfter := replayAfter.floor? } } := by
  unfold scheduleDispatchReplay at h
  split at h
  next => exact absurd h (by simp)
  next =>
    split at h
    next => exact absurd h (by simp)
    next row hrow => exact ⟨row, hrow, (Except.ok.inj h).symm⟩

/-- A row written with another replay time alone is kept. -/
theorem kept_replayAfter {m : OrderedMap String DispatchRow} {requestId : String}
    {row : DispatchRow} (hrow : m.get? requestId = some row) (replayAfter : Option Int) :
    Kept m (m.set requestId { row with replayAfter := replayAfter }) := by
  intro requestId' row' hrow'
  rw [OrderedMap.get?_set]
  by_cases hr : requestId' = requestId
  · rw [hr, hrow, Option.some.injEq] at hrow'
    rw [if_pos hr, ← hrow']
    exact ⟨_, rfl, ⟨rfl, rfl, rfl, rfl⟩⟩
  · rw [if_neg hr]
    exact ⟨row', hrow', .rfl⟩

/-- The writing half of an operation is a move. -/
theorem write_move {n : Nat} {host : Host} {call : Call} (hcall : s.calls.get? n = some call)
    (h : call.write env host { s with calls := s.calls.delete n } = s') :
    Move env s s' (.write n host) := by
  cases call with
  | recordInboundDispatch call =>
    simp only [Call.write] at h
    cases hw : writeInboundDispatch env host call s.hub with
    | error msg =>
      rw [hw, SharedHub.commit] at h
      exact .of_hub_eq (h ▸ rfl) (h ▸ rfl)
    | ok hub =>
      rw [hw, SharedHub.commit, List.append_nil] at h
      obtain ⟨hd, ho⟩ := writeInboundDispatch_ok hw
      exact .kept (h ▸ hd) (h ▸ ho) (h ▸ rfl)
  | markOutboxSent worker id stamp =>
    simp only [Call.write, writeOutboxSent] at h
    cases hrow : s.hub.outbox.get? id with
    | none =>
      rw [hrow, SharedHub.commit] at h
      exact .of_hub_eq (h ▸ rfl) (h ▸ rfl)
    | some row =>
      rw [hrow, SharedHub.commit] at h
      exact .acknowledged hcall hrow (h ▸ rfl) (h ▸ rfl) (h ▸ rfl)
  | markOutboxDeliveryFailed call =>
    simp only [Call.write, SharedHub.commit, writeDeliveryFailed, OrderedMap.modify,
      OrderedMap.has] at h
    cases hrow : s.hub.outbox.get? call.id with
    | none =>
      simp only [hrow, Option.isSome_none, Bool.false_eq_true, if_false, List.append_nil] at h
      exact .of_hub_eq (h ▸ rfl) (h ▸ rfl)
    | some row =>
      simp only [hrow, Option.isSome_some, if_true] at h
      exact .deliveryFailed hcall hrow (h ▸ rfl) (h ▸ rfl) (h ▸ rfl)

/-- Every step is a move. -/
theorem step_move {e : Event} (h : step env s e = some s') : Move env s s' e := by
  cases e with
  | recordInboundDispatch n host payload =>
    rw [step] at h
    split at h
    next => exact absurd h (by simp)
    next =>
      split at h <;> rw [Option.some.injEq] at h
      next => exact .of_hub_eq (h ▸ rfl) (h ▸ rfl)
      next => exact .of_hub_eq (h ▸ rfl) (h ▸ rfl)
  | markDispatchRunning host requestId =>
    rw [step, Option.some.injEq] at h
    cases hm : markDispatchRunning env host requestId s.hub with
    | error msg =>
      rw [hm, SharedHub.commit] at h
      exact .of_hub_eq (h ▸ rfl) (h ▸ rfl)
    | ok hub =>
      rw [hm, SharedHub.commit, List.append_nil] at h
      obtain ⟨row, hrow, hd, ho⟩ := markDispatchRunning_ok hm
      exact .started hrow (h ▸ hd) (h ▸ ho) (h ▸ rfl)
  | scheduleDispatchReplay requestId replayAfter =>
    rw [step, Option.some.injEq] at h
    cases hm : scheduleDispatchReplay requestId replayAfter s.hub with
    | error msg =>
      rw [hm, SharedHub.commit] at h
      exact .of_hub_eq (h ▸ rfl) (h ▸ rfl)
    | ok hub =>
      rw [hm, SharedHub.commit, List.append_nil] at h
      obtain ⟨row, hrow, hhub⟩ := scheduleDispatchReplay_ok hm
      have hkept : Kept s.hub.dispatches hub.dispatches := by
        rw [hhub]
        exact kept_replayAfter hrow _
      exact .kept (h ▸ hkept) (h ▸ hhub ▸ rfl) (h ▸ rfl)
  | markDispatch host requestId outcome proofFields =>
    rw [step, Option.some.injEq] at h
    cases hm : markDispatch env host requestId outcome proofFields s.hub with
    | error msg =>
      rw [hm] at h
      exact .of_hub_eq (h ▸ rfl) (h ▸ rfl)
    | ok marked =>
      obtain ⟨hub, outboxId⟩ := marked
      rw [hm] at h
      obtain ⟨row, hrow, hd, ho⟩ := markDispatch_ok hm
      exact .marked hrow (h ▸ hd) (h ▸ ho) (h ▸ rfl)
  | claimDueOutbox worker host limit leaseMs =>
    rw [step] at h
    split at h <;> rw [Option.some.injEq] at h
    next => exact .of_hub_eq (h ▸ rfl) (h ▸ rfl)
    next hub rows hclaim =>
      subst h
      exact .claimed hclaim rfl
  | markOutboxSent n worker host id =>
    rw [step] at h
    split at h
    next => exact absurd h (by simp)
    next =>
      split at h <;> rw [Option.some.injEq] at h <;> exact .of_hub_eq (h ▸ rfl) (h ▸ rfl)
  | markOutboxDeliveryFailed n id error retryAt maxAttempts =>
    rw [step] at h
    split at h
    next => exact absurd h (by simp)
    next =>
      split at h <;> rw [Option.some.injEq] at h <;> exact .of_hub_eq (h ▸ rfl) (h ▸ rfl)
  | write n host =>
    rw [step, Option.map_eq_some_iff] at h
    obtain ⟨call, hcall, h⟩ := h
    exact write_move hcall h
  | pruneTerminalOutbox beforeTimestamp =>
    rw [step, Option.some.injEq] at h
    exact .pruned (h ▸ rfl) (h ▸ rfl)
  | pruneOldReceipts beforeTimestamp =>
    rw [step, Option.some.injEq] at h
    exact .kept (.of_eq (h ▸ rfl)) (h ▸ rfl) (h ▸ rfl)

/-! ## A delivery

One dispatch, its reply, and two workers of which the second claims the reply
when the lease of the first is over. No operation of the run compares hashes or
verifies a proof. -/

def sampleHubEnv : HubEnv where
  agentId := "shaev"
  sha256 := fun text => text
  hmac := fun _ message => message
  redactSensitiveText := fun text => text

/-- A host whose clock stands still. -/
def hostAt (now : Int) (uuid : String) : Host where
  now := fun _ => now
  randomUUID := fun n => uuid ++ toString n

def sampleDispatch : Json :=
  .object [("requestId", .string "req-1"), ("topicId", .string "topic-1"),
    ("agentId", .string "shaev"), ("claimSessionId", .string "session-1"),
    ("replyProofSecret", .string "reply-secret"),
    ("replyUrl", .string "http://127.0.0.1:8080/api/v1/chairs/reply")]

/-- The reply is recorded and leased twice. -/
def leasedTwice : List Event :=
  [.recordInboundDispatch 0 (hostAt 0 "r") sampleDispatch, .write 0 (hostAt 0 "r"),
   .markDispatch (hostAt 100 "m") "req-1" (.succeeded "durable reply") ⟨none, none⟩,
   .claimDueOutbox 1 (hostAt 100 "c") (.ofNat 10) (.ofNat 1000),
   .claimDueOutbox 2 (hostAt 1100 "c") (.ofNat 10) (.ofNat 1000)]

/-- The second worker delivers it. -/
def deliveredOnce : List Event :=
  leasedTwice ++ [.markOutboxSent 1 2 (hostAt 1200 "s") "m0", .write 1 (hostAt 1200 "s")]

/-- The state after a run of the sample, and the reply's row there. -/
def sampleRow (es : List Event) : Option (SharedHub × OutboxRow) :=
  ((hubRuns sampleHubEnv).exec .init es).bind fun s =>
    (s.hub.outbox.get? "m0").map fun row => (s, row)

theorem sampleRow_eq {es : List Event} {row : OutboxRow} (h : sampleRow es = some (s, row)) :
    (hubRuns sampleHubEnv).exec .init es = some s ∧ s.hub.outbox.get? "m0" = some row := by
  obtain ⟨s', hs', hrow⟩ := Option.bind_eq_some_iff.mp h
  obtain ⟨row', hrow', heq⟩ := Option.map_eq_some_iff.mp hrow
  rw [Prod.mk.injEq] at heq
  rw [← heq.1, ← heq.2]
  exact ⟨hs', hrow'⟩

end Kovael.Hub
