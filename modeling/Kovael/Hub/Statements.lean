import Kovael.Hub.Outbox
import Kovael.Sql

/-!
# `AgentHubStore`, statement by statement

The operations of `Kovael.Hub.Store` and `Kovael.Hub.Outbox` as the programs of
SQL statements that `src/services/AgentHubStore.ts` executes, so that a fault
can come between any two of them.

Mirroring notes vs the TS class:
- One `sql` is one `prepare(…).run/get/all`, BEGIN and COMMIT are in
  `withTransaction`. What the class computes between two statements (a hash, a
  sealed text, a parsed row) can throw as well: that is a fault of the statement
  after it.
- The operations on the memory table and the getters write nothing to the tables
  of `AgentHub` and are not modelled.

Each operation has a theorem: under any faults it leaves the hub as it was, or
it is the operation that the other two modules state as one step.
-/

namespace Kovael.Hub.AgentHubStore

open Js (Number OrderedMap Clock Json)
open Sql (Prog sql withTransaction Plain Ends)

/-! ## Statements -/

/-- `INSERT INTO agent_dispatches …`. -/
def insertDispatch (requestId : String) (row : DispatchRow) (hub : AgentHub) :
    Except String (AgentHub × Unit) :=
  if hub.dispatches.has requestId then
    .error "UNIQUE constraint failed: agent_dispatches.request_id"
  else .ok ({ hub with dispatches := hub.dispatches.set requestId row }, ())

/-- `UPDATE agent_dispatches SET … WHERE request_id = ?`, with the number of
changes. -/
def updateDispatch (requestId : String) (f : DispatchRow → DispatchRow) (hub : AgentHub) :
    Except String (AgentHub × Nat) :=
  .ok ({ hub with dispatches := hub.dispatches.modify requestId f },
    if hub.dispatches.has requestId then 1 else 0)

/-- `requireDispatchRow(requestId)`. -/
def requireDispatchRow (requestId : String) (hub : AgentHub) :
    Except String (AgentHub × DispatchRow) :=
  match hub.dispatches.get? requestId with
  | none => .error (unknownDispatch requestId)
  | some row => .ok (hub, row)

/-- `SELECT runtime_attempts FROM agent_dispatches WHERE request_id = ?`. -/
def selectRuntimeAttempts (requestId : String) (hub : AgentHub) : Except String (AgentHub × Nat) :=
  match hub.dispatches.get? requestId with
  | none => .error "Cannot read properties of undefined (reading 'runtime_attempts')"
  | some row => .ok (hub, row.runtimeAttempts)

/-- The SELECT of `appendReceipt`. -/
def selectPrevHash (requestId : String) (hub : AgentHub) :
    Except String (AgentHub × Option String) :=
  .ok (hub, (hub.lastReceipt requestId).map ReceiptRow.receiptHash)

/-- `INSERT INTO agent_receipts …`. -/
def insertReceipt (id : String) (row : ReceiptRow) (hub : AgentHub) :
    Except String (AgentHub × Unit) :=
  if hub.receipts.has id then .error "UNIQUE constraint failed: agent_receipts.id"
  else .ok ({ hub with receipts := hub.receipts.set id row }, ())

/-- `INSERT INTO agent_outbox … ON CONFLICT(dedupe_key) DO UPDATE …`. -/
def insertOutboxReply (id : String) (excluded : OutboxRow) (hub : AgentHub) :
    Except String (AgentHub × Unit) :=
  if hub.outbox.has id then .error "UNIQUE constraint failed: agent_outbox.id"
  else match hub.byDedupeKey excluded.dedupeKey with
    | some (id', row) =>
      .ok ({ hub with outbox := hub.outbox.set id' (row.conflict excluded) }, ())
    | none => .ok ({ hub with outbox := hub.outbox.set id excluded }, ())

/-- `SELECT id FROM agent_outbox WHERE dedupe_key = ?`. -/
def selectOutboxId (key : String) (hub : AgentHub) : Except String (AgentHub × String) :=
  match hub.byDedupeKey key with
  | none => .error "Cannot read properties of undefined (reading 'id')"
  | some (id, _) => .ok (hub, id)

/-- The first SELECT of `claimDueOutbox`: of a row only the id is used. -/
def selectDue (stamp staleBefore : Int) (limit : Nat) (hub : AgentHub) :
    Except String (AgentHub × List String) :=
  .ok (hub, hub.dueIds stamp staleBefore limit)

/-- The UPDATE of `claimDueOutbox`. -/
def updateClaim (stamp : Int) (id : String) (hub : AgentHub) : Except String (AgentHub × Unit) :=
  .ok ({ hub with outbox := hub.outbox.modify id fun row => row.claim stamp }, ())

/-- The second SELECT of `claimDueOutbox`. -/
def selectClaimed (ids : List String) (hub : AgentHub) :
    Except String (AgentHub × List (String × OutboxRow)) :=
  .ok (hub, (hub.outbox.entries.filter fun e => e.1 ∈ ids).insertionSort
    fun a b => a.2.createdAt ≤ b.2.createdAt)

/-- A step of the other modules that is a single statement. -/
def written (f : AgentHub → Except String AgentHub) (hub : AgentHub) :
    Except String (AgentHub × Unit) :=
  (f hub).map fun hub' => (hub', ())

/-- A step of the other modules that only reads. -/
def looked {α : Type} (f : AgentHub → Except String α) (hub : AgentHub) :
    Except String (AgentHub × α) :=
  (f hub).map fun a => (hub, a)

/-! ## Operations -/

/-- `appendReceipt(requestId, kind, payload)`. -/
def appendReceipt (env : HubEnv) (createdAt : Int) (id requestId kind : String) (payload : Json) :
    Prog AgentHub Unit := do
  let prevHash ← sql (selectPrevHash requestId)
  let receiptHash := env.sha256 (prevHash.getD "" ++ "\n" ++ kind ++ "\n" ++ toString createdAt
    ++ "\n" ++ stableStringify payload)
  sql (insertReceipt id
    { requestId := some requestId, kind, payload, prevHash, receiptHash, createdAt })

/-- `recordInboundDispatch(payload)`. -/
def recordInboundDispatch (env : HubEnv) (host : Host) (payload : Json) : Prog AgentHub Unit := do
  let call ← sql (looked (readInboundDispatch env host payload))
  if call.existing then do
    let _ ← sql (updateDispatch call.requestId call.duplicate)
    pure ()
  else withTransaction do
    sql (insertDispatch call.requestId call.row)
    appendReceipt env (host.now 0) (host.randomUUID 0) call.requestId "dispatch_received"
      (.object [("requestId", .string call.requestId), ("topicId", .string call.topicId),
        ("agentId", .string call.agentId), ("payloadHash", .string call.payloadHash),
        ("status", .string "accepted")])

/-- `markDispatchRunning(requestId)`. -/
def markDispatchRunning (env : HubEnv) (host : Host) (requestId : String) :
    Prog AgentHub Unit :=
  withTransaction do
    let changes ← sql (updateDispatch requestId fun row => row.started (host.now 0))
    if changes = 0 then throw (unknownDispatch requestId)
    else do
      let attempts ← sql (selectRuntimeAttempts requestId)
      appendReceipt env (host.now 1) (host.randomUUID 0) requestId "runtime_started"
        (.object [("requestId", .string requestId), ("status", .string "running"),
          ("runtimeAttempts", .ofInt attempts), ("startedAt", .ofInt (host.now 0))])

/-- `scheduleDispatchReplay(requestId, replayAfter)`. -/
def scheduleDispatchReplay (requestId : String) (replayAfter : Number) : Prog AgentHub Unit :=
  sql (written (Hub.scheduleDispatchReplay requestId replayAfter))

/-- `upsertOutboxReply(requestId, targetUrl, payload, stamp)`. -/
def upsertOutboxReply (env : HubEnv) (id requestId targetUrl : String) (payload : ReplyPayload)
    (stamp : Int) : Prog AgentHub String := do
  sql (insertOutboxReply id (newReply env requestId targetUrl payload stamp))
  sql (selectOutboxId (dedupeKey requestId))

/-- The transaction of `markDispatchSucceeded` and `markDispatchFailed`. -/
def recordOutcome (env : HubEnv) (host : Host) (requestId : String)
    (payload : DispatchRow → ReplyPayload) (settled : DispatchRow → DispatchRow)
    (kind : String) (receipt : Option String → Json) : Prog AgentHub (Option String) :=
  withTransaction do
    let row ← sql (requireDispatchRow requestId)
    match row.replyUrl with
    | none => do
      let changes ← sql (updateDispatch requestId settled)
      if changes = 0 then throw (unknownDispatch requestId)
      else do
        appendReceipt env (host.now 1) (host.randomUUID 0) requestId kind (receipt none)
        pure none
    | some replyUrl => do
      let outboxId ← upsertOutboxReply env (host.randomUUID 0) requestId replyUrl (payload row)
        (host.now 0)
      let changes ← sql (updateDispatch requestId settled)
      if changes = 0 then throw (unknownDispatch requestId)
      else do
        appendReceipt env (host.now 1) (host.randomUUID 1) requestId kind (receipt (some outboxId))
        pure (some outboxId)

/-- `markDispatchSucceeded(requestId, replyContent, proofFields)`. -/
def markDispatchSucceeded (env : HubEnv) (host : Host) (requestId replyContent : String)
    (proofFields : ProofFields) : Prog AgentHub (Option String) :=
  recordOutcome env host requestId
    (replyPayload env requestId proofFields .succeeded replyContent none)
    (fun row => row.succeeded (host.now 0) replyContent) "runtime_succeeded"
    (fun outboxId => .object [("requestId", .string requestId), ("status", .string "succeeded"),
      ("completedAt", .ofInt (host.now 0)), ("outboxId", .ofString? outboxId),
      ("replyHash", .string (env.sha256 replyContent))])

/-- `markDispatchFailed(requestId, error, proofFields)`. -/
def markDispatchFailed (env : HubEnv) (host : Host) (requestId error : String)
    (proofFields : ProofFields) : Prog AgentHub (Option String) :=
  let safeError := env.redactSensitiveText error
  recordOutcome env host requestId
    (replyPayload env requestId proofFields .failed safeError (some safeError))
    (fun row => row.failed (host.now 0) safeError) "runtime_failed"
    (fun outboxId => .object [("requestId", .string requestId), ("status", .string "failed"),
      ("completedAt", .ofInt (host.now 0)), ("error", .string safeError),
      ("outboxId", .ofString? outboxId)])

/-- The loop of `claimDueOutbox` over the rows it selected. -/
def claimRows (stamp : Int) : List String → Prog AgentHub Unit
  | [] => pure ()
  | id :: ids => do
    sql (updateClaim stamp id)
    claimRows stamp ids

/-- `claimDueOutbox(limit, leaseMs)`. -/
def claimDueOutbox (host : Host) (limit leaseMs : Number) :
    Prog AgentHub (List (String × OutboxRow)) :=
  if !limit.isFinite || limit.le (.ofInt 0) then throw "limit must be positive"
  else if !leaseMs.isFinite || leaseMs.le (.ofInt 0) then throw "leaseMs must be positive"
  else
    let stamp := host.now 0
    let staleBefore := stamp - leaseMs.floor?.getD 0
    withTransaction do
      let ids ← sql (selectDue stamp staleBefore (limit.floor?.getD 0).toNat)
      claimRows stamp ids
      if ids = [] then pure []
      else sql (selectClaimed ids)

/-- `markOutboxSent(id)`. -/
def markOutboxSent (host : Host) (id : String) : Prog AgentHub Unit := do
  let stamp? ← sql (looked (readOutboxSent host id))
  match stamp? with
  | none => pure ()
  | some stamp => sql (written (writeOutboxSent id stamp))

/-- `markOutboxDeliveryFailed(id, error, retryAt, maxAttempts)`. -/
def markOutboxDeliveryFailed (env : HubEnv) (host : Host) (id error : String)
    (retryAt : Option Number) (maxAttempts : Number) : Prog AgentHub Unit := do
  let call ← sql (looked (readDeliveryFailed id error retryAt maxAttempts))
  sql (written fun hub => .ok (writeDeliveryFailed env host call hub))

/-- `pruneTerminalOutbox(beforeTimestamp)`. -/
def pruneTerminalOutbox (beforeTimestamp : Number) : Prog AgentHub Unit :=
  sql (written fun hub => .ok (Hub.pruneTerminalOutbox beforeTimestamp hub))

/-- `pruneOldReceipts(beforeTimestamp)`. -/
def pruneOldReceipts (beforeTimestamp : Number) : Prog AgentHub Unit :=
  sql (written fun hub => .ok (Hub.pruneOldReceipts beforeTimestamp hub))

/-! ## Under any faults -/

variable {env : HubEnv} {host : Host} {hub : AgentHub}

theorem appendReceipt_plain (env : HubEnv) (createdAt : Int) (id requestId kind : String)
    (payload : Json) : Plain (appendReceipt env createdAt id requestId kind payload) := by
  refine Sql.plain_bind (Sql.plain_sql _) ?_
  intro prevHash
  exact Sql.plain_sql _

theorem appendReceipt_eval (createdAt : Int) (id requestId kind : String) (payload : Json) :
    (appendReceipt env createdAt id requestId kind payload).eval hub
      = (Hub.appendReceipt env createdAt id requestId kind payload hub).map fun hub' =>
          (hub', ()) := by
  rw [appendReceipt, Sql.eval_sql_bind, selectPrevHash]
  show (sql _).eval hub = _
  rw [Sql.eval_sql, insertReceipt, Hub.appendReceipt]
  split
  next => rfl
  next => rfl

/-- An UPDATE by key finds the row that is there. -/
theorem updateDispatch_some {requestId : String} {row : DispatchRow}
    (hrow : hub.dispatches.get? requestId = some row) (f : DispatchRow → DispatchRow) :
    updateDispatch requestId f hub
      = .ok ({ hub with dispatches := hub.dispatches.set requestId (f row) }, 1) := by
  rw [updateDispatch, OrderedMap.modify, OrderedMap.has, hrow]
  rfl

theorem updateDispatch_none {requestId : String}
    (hrow : hub.dispatches.get? requestId = none) (f : DispatchRow → DispatchRow) :
    updateDispatch requestId f hub = .ok (hub, 0) := by
  rw [updateDispatch, OrderedMap.modify, OrderedMap.has, hrow]
  rfl

theorem recordInboundDispatch_ends (env : HubEnv) (host : Host) (payload : Json) (hub : AgentHub) :
    Ends (recordInboundDispatch env host payload) hub
      (Sql.Atomic ((readInboundDispatch env host payload hub >>= fun call =>
        writeInboundDispatch env host call hub).map fun hub' => (hub', ())) hub) := by
  refine Sql.ends_bind (Sql.ends_sql _ hub) .failed ?_
  intro hub₁ call hread
  rw [looked] at hread
  cases hcall : readInboundDispatch env host payload hub with
  | error err =>
    rw [hcall] at hread
    exact absurd hread (by simp [Except.map])
  | ok call' =>
    rw [hcall] at hread
    simp only [Except.map, Except.ok.injEq, Prod.mk.injEq] at hread
    obtain ⟨rfl, rfl⟩ := hread
    show Ends _ hub (Sql.Atomic ((writeInboundDispatch env host call' hub).map _) hub)
    rw [writeInboundDispatch]
    split
    next =>
      -- a redelivery is one UPDATE
      refine Sql.ends_bind (Sql.ends_sql _ hub) .failed ?_
      intro hub' changes hup
      rw [updateDispatch, Except.ok.injEq, Prod.mk.injEq] at hup
      exact Sql.ends_done (Or.inr ⟨(), rfl, by rw [← hup.1]; rfl⟩)
    next =>
      refine (Sql.ends_withTransaction ?_ hub).mono ?_
      · exact Sql.plain_bind (Sql.plain_sql _) fun _ => appendReceipt_plain ..
      · rw [Sql.eval_sql_bind, insertDispatch]
        intro hub' result h
        split
        next hhas =>
          rw [if_pos hhas] at h
          exact h
        next hhas =>
          rw [if_neg hhas] at h
          rw [← appendReceipt_eval]
          exact h

theorem markDispatchRunning_ends (env : HubEnv) (host : Host) (requestId : String)
    (hub : AgentHub) :
    Ends (markDispatchRunning env host requestId) hub
      (Sql.Atomic ((Hub.markDispatchRunning env host requestId hub).map fun hub' => (hub', ()))
        hub) := by
  refine (Sql.ends_withTransaction ?_ hub).mono ?_
  · refine Sql.plain_bind (Sql.plain_sql _) ?_
    intro changes
    split
    next => exact Sql.plain_throw _
    next => exact Sql.plain_bind (Sql.plain_sql _) fun _ => appendReceipt_plain ..
  · intro hub' result h
    rw [Sql.eval_sql_bind] at h
    rw [Hub.markDispatchRunning]
    cases hrow : hub.dispatches.get? requestId with
    | none =>
      rw [updateDispatch_none hrow] at h
      exact h
    | some row =>
      rw [updateDispatch_some hrow] at h
      simp only [Except.bind, Nat.one_ne_zero, if_false] at h
      rw [Sql.eval_sql_bind, selectRuntimeAttempts, OrderedMap.get?_set_self] at h
      simp only [Except.bind] at h
      rw [appendReceipt_eval] at h
      exact h

theorem upsertOutboxReply_plain (env : HubEnv) (id requestId targetUrl : String)
    (payload : ReplyPayload) (stamp : Int) :
    Plain (upsertOutboxReply env id requestId targetUrl payload stamp) := by
  refine Sql.plain_bind (Sql.plain_sql _) ?_
  intro _
  exact Sql.plain_sql _

theorem conflict_dedupeKey (row excluded : OutboxRow) :
    (row.conflict excluded).dedupeKey = row.dedupeKey := by
  unfold OutboxRow.conflict
  split
  next => rfl
  next => rfl

/-- The row that the SELECT finds is the one that was inserted or updated. -/
theorem upsertOutboxReply_eval (id requestId targetUrl : String) (payload : ReplyPayload)
    (stamp : Int) :
    (upsertOutboxReply env id requestId targetUrl payload stamp).eval hub
      = Hub.upsertOutboxReply env id requestId targetUrl payload stamp hub := by
  rw [upsertOutboxReply, Sql.eval_sql_bind, insertOutboxReply, Hub.upsertOutboxReply]
  split
  next => rfl
  next =>
    show Except.bind (match hub.byDedupeKey (dedupeKey requestId) with
      | some (id', row) => _
      | none => _) _ = _
    cases hfound : hub.byDedupeKey (dedupeKey requestId) with
    | none =>
      simp only [Except.bind]
      rw [Sql.eval_sql, selectOutboxId, AgentHub.byDedupeKey, OrderedMap.set]
      dsimp only
      rw [Js.find?_setEntry (by exact decide_eq_true rfl)]
      intro e he
      rw [AgentHub.byDedupeKey] at hfound
      rw [hfound] at he
      exact absurd he (by simp)
    | some found =>
      obtain ⟨id', row⟩ := found
      have hkey := (byDedupeKey_some hfound).2
      simp only [Except.bind]
      rw [Sql.eval_sql, selectOutboxId, AgentHub.byDedupeKey, OrderedMap.set]
      dsimp only
      rw [Js.find?_setEntry (decide_eq_true ((conflict_dedupeKey ..).trans hkey))]
      intro e he
      rw [AgentHub.byDedupeKey] at hfound
      rw [hfound, Option.some.injEq] at he
      rw [← he]

/-- The UPDATE and the receipt that an outcome ends with. -/
theorem settle_plain (env : HubEnv) (createdAt : Int) (id requestId kind : String)
    (settled : DispatchRow → DispatchRow) (receipt : Json) (outboxId : Option String) :
    Plain (do
      let changes ← sql (updateDispatch requestId settled)
      if changes = 0 then throw (unknownDispatch requestId)
      else do
        appendReceipt env createdAt id requestId kind receipt
        pure outboxId : Prog AgentHub (Option String)) := by
  refine Sql.plain_bind (Sql.plain_sql _) ?_
  intro changes
  split
  next => exact Sql.plain_throw _
  next => exact Sql.plain_bind (appendReceipt_plain ..) fun _ => Sql.plain_pure _

theorem settle_eval {row : DispatchRow} {requestId : String}
    (hrow : hub.dispatches.get? requestId = some row) (createdAt : Int) (id kind : String)
    (settled : DispatchRow → DispatchRow) (receipt : Json) (outboxId : Option String) :
    Prog.eval (do
      let changes ← sql (updateDispatch requestId settled)
      if changes = 0 then throw (unknownDispatch requestId)
      else do
        appendReceipt env createdAt id requestId kind receipt
        pure outboxId) hub
      = (Hub.appendReceipt env createdAt id requestId kind receipt
          { hub with dispatches := hub.dispatches.set requestId (settled row) }).map fun hub' =>
            (hub', outboxId) := by
  rw [Sql.eval_sql_bind, updateDispatch_some hrow]
  simp only [Except.bind, Nat.one_ne_zero, if_false]
  rw [Sql.eval_bind (appendReceipt_plain ..), appendReceipt_eval]
  cases Hub.appendReceipt env createdAt id requestId kind receipt
      { hub with dispatches := hub.dispatches.set requestId (settled row) } with
  | error err => rfl
  | ok hub' => rfl

theorem recordOutcome_ends (env : HubEnv) (host : Host) (requestId : String)
    (payload : DispatchRow → ReplyPayload) (settled : DispatchRow → DispatchRow) (kind : String)
    (receipt : Option String → Json) (hub : AgentHub) :
    Ends (recordOutcome env host requestId payload settled kind receipt) hub
      (Sql.Atomic (Hub.recordOutcome env host requestId payload settled kind receipt hub) hub) := by
  refine (Sql.ends_withTransaction ?_ hub).mono ?_
  · refine Sql.plain_bind (Sql.plain_sql _) ?_
    intro row
    split
    next => exact settle_plain ..
    next => exact Sql.plain_bind (upsertOutboxReply_plain ..) fun _ => settle_plain ..
  · intro hub' result h
    rw [Sql.eval_sql_bind, requireDispatchRow] at h
    rw [Hub.recordOutcome]
    cases hrow : hub.dispatches.get? requestId with
    | none =>
      rw [hrow] at h
      exact h
    | some row =>
      rw [hrow] at h
      simp only [Except.bind] at h
      dsimp only
      cases hurl : row.replyUrl with
      | none =>
        rw [hurl] at h
        dsimp only at h ⊢
        rw [settle_eval hrow] at h
        exact h
      | some replyUrl =>
        rw [hurl] at h
        dsimp only at h ⊢
        rw [Sql.eval_bind (upsertOutboxReply_plain ..), upsertOutboxReply_eval] at h
        cases hup : Hub.upsertOutboxReply env (host.randomUUID 0) requestId replyUrl (payload row)
            (host.now 0) hub with
        | error err =>
          rw [hup] at h
          exact h
        | ok filed =>
          obtain ⟨hub₁, outboxId⟩ := filed
          rw [hup] at h
          simp only [Except.bind] at h
          have hsame : hub₁.dispatches = hub.dispatches := (upsertOutboxReply_ok hup).1
          have hrow₁ : hub₁.dispatches.get? requestId = some row := hsame ▸ hrow
          rw [settle_eval hrow₁, hsame] at h
          exact h

theorem markDispatchSucceeded_ends (env : HubEnv) (host : Host) (requestId replyContent : String)
    (proofFields : ProofFields) (hub : AgentHub) :
    Ends (markDispatchSucceeded env host requestId replyContent proofFields) hub
      (Sql.Atomic (Hub.markDispatchSucceeded env host requestId replyContent proofFields hub)
        hub) := by
  unfold markDispatchSucceeded Hub.markDispatchSucceeded
  exact recordOutcome_ends env host requestId _ _ _ _ hub

theorem markDispatchFailed_ends (env : HubEnv) (host : Host) (requestId error : String)
    (proofFields : ProofFields) (hub : AgentHub) :
    Ends (markDispatchFailed env host requestId error proofFields) hub
      (Sql.Atomic (Hub.markDispatchFailed env host requestId error proofFields hub) hub) := by
  unfold markDispatchFailed Hub.markDispatchFailed
  exact recordOutcome_ends env host requestId _ _ _ _ hub

theorem claimRows_plain (stamp : Int) : ∀ ids : List String, Plain (claimRows stamp ids)
  | [] => Sql.plain_pure _
  | _ :: ids => Sql.plain_bind (Sql.plain_sql _) fun _ => claimRows_plain stamp ids

theorem claimRows_eval (stamp : Int) (ids : List String) :
    ∀ hub : AgentHub, (claimRows stamp ids).eval hub
      = .ok ({ hub with
          outbox := ids.foldl (fun outbox id => outbox.modify id fun row => row.claim stamp)
            hub.outbox }, ()) := by
  induction ids with
  | nil =>
    intro hub
    rfl
  | cons id ids ih =>
    intro hub
    rw [claimRows, Sql.eval_sql_bind]
    exact ih _

theorem claimDueOutbox_ends (host : Host) (limit leaseMs : Number) (hub : AgentHub) :
    Ends (claimDueOutbox host limit leaseMs) hub
      (Sql.Atomic (Hub.claimDueOutbox host limit leaseMs hub) hub) := by
  unfold claimDueOutbox
  split
  next => exact Sql.ends_done (.failed _)
  next hlimit =>
    split
    next => exact Sql.ends_done (.failed _)
    next hlease =>
      refine (Sql.ends_withTransaction ?_ hub).mono ?_
      · refine Sql.plain_bind (Sql.plain_sql _) ?_
        intro ids
        refine Sql.plain_bind (claimRows_plain ..) ?_
        intro _
        split
        next => exact Sql.plain_pure _
        next => exact Sql.plain_sql _
      · intro hub' result h
        rw [Sql.eval_sql_bind, selectDue] at h
        simp only [Except.bind] at h
        rw [Sql.eval_bind (claimRows_plain ..), claimRows_eval] at h
        simp only [Except.bind] at h
        rw [Hub.claimDueOutbox, if_neg hlimit, if_neg hlease]
        dsimp only
        split at h
        next hnone =>
          -- no row is due, and none is returned
          rw [Sql.eval_pure, hnone] at h
          rw [hnone]
          simpa using h
        next =>
          rw [Sql.eval_sql, selectClaimed] at h
          exact h

end Kovael.Hub.AgentHubStore
