import Mathlib.Data.List.Sort
import Kovael.Hub.Store

/-!
# The outbox of `AgentHubStore`

`src/services/AgentHubStore.ts`: the operations that file, lease, settle and
prune replies, and what each does to every row of the outbox.

Mirroring notes vs the TS class:
- `markDispatchSucceeded` and `markDispatchFailed` differ in the payload, the
  columns they write and the receipt; `recordOutcome` is what they share.
- A record that `claimDueOutbox` returns is the row's id with the row.
- `Math.floor` is applied to numbers that were checked to be finite.
-/

namespace Kovael.Hub

open Js (Number OrderedMap Clock Json)
open Chair (createChairReplyProof)

/-! ## Filing a reply -/

/-- The key that a request's reply is filed under, once. -/
def dedupeKey (requestId : String) : String := "reply:" ++ requestId

/-- `SELECT … WHERE dedupe_key = ?`. -/
def AgentHub.byDedupeKey (hub : AgentHub) (key : String) : Option (String × OutboxRow) :=
  hub.outbox.entries.find? fun e => e.2.dedupeKey = key

/-- The row that `upsertOutboxReply` inserts. -/
def newReply (env : HubEnv) (requestId targetUrl : String) (payload : ReplyPayload) (stamp : Int) :
    OutboxRow where
  requestId := requestId
  kind := .reply
  dedupeKey := dedupeKey requestId
  targetUrl := targetUrl
  payload := payload
  payloadSha256 := env.sha256 (stableStringify payload.toJson)
  status := .pending
  attempts := 0
  nextAttemptAt := none
  lastError := none
  createdAt := stamp
  updatedAt := stamp
  sentAt := none

/-- `ON CONFLICT(dedupe_key) DO UPDATE`: start over, unless it was sent. -/
def OutboxRow.conflict (row excluded : OutboxRow) : OutboxRow :=
  if row.status = .sent then row
  else
    { row with
      targetUrl := excluded.targetUrl
      payload := excluded.payload
      payloadSha256 := excluded.payloadSha256
      status := .pending
      attempts := 0
      nextAttemptAt := none
      updatedAt := excluded.updatedAt
      lastError := none }

/-- `upsertOutboxReply(requestId, targetUrl, payload, stamp)`. -/
def upsertOutboxReply (env : HubEnv) (id requestId targetUrl : String) (payload : ReplyPayload)
    (stamp : Int) (hub : AgentHub) : Except String (AgentHub × String) :=
  let excluded := newReply env requestId targetUrl payload stamp
  -- the conflict clause names the key, so a clash of ids is an error
  if hub.outbox.has id then .error "UNIQUE constraint failed: agent_outbox.id"
  else match hub.byDedupeKey (dedupeKey requestId) with
    | some (id', row) =>
      .ok ({ hub with outbox := hub.outbox.set id' (row.conflict excluded) }, id')
    | none => .ok ({ hub with outbox := hub.outbox.set id excluded }, id)

/-- The `proofFields` argument; an absent one has no fields. -/
structure ProofFields where
  claimSessionId : Option String
  replyProofSecret : Option String
  deriving DecidableEq, Repr

/-- The `replyPayload` of an outcome. -/
def replyPayload (env : HubEnv) (requestId : String) (proofFields : ProofFields)
    (status : AgentDispatchStatus) (content : String) (error : Option String)
    (row : DispatchRow) : ReplyPayload :=
  let claimSessionId := (stringOrNull proofFields.claimSessionId).or
    (stringOrNull (row.payload.stringField? "claimSessionId"))
  let replyProofSecret := (stringOrNull proofFields.replyProofSecret).or
    (stringOrNull (row.payload.stringField? "replyProofSecret"))
  { topicId := row.topicId
    agentId := row.agentId
    content
    requestId
    claimSessionId
    replyProof := claimSessionId.bind fun claimSessionId =>
      replyProofSecret.map fun replyProofSecret =>
        createChairReplyProof env.hmac { requestId, claimSessionId, replyProofSecret }
    status
    error }

/-- The transaction of `markDispatchSucceeded` and `markDispatchFailed`: file the
reply if there is somewhere to send it, write the outcome, append the receipt. -/
def recordOutcome (env : HubEnv) (host : Host) (requestId : String)
    (payload : DispatchRow → ReplyPayload) (settled : DispatchRow → DispatchRow)
    (kind : String) (receipt : Option String → Json) (hub : AgentHub) :
    Except String (AgentHub × Option String) :=
  match hub.dispatches.get? requestId with
  | none => .error (unknownDispatch requestId)
  | some row =>
    let written := hub.dispatches.set requestId (settled row)
    match row.replyUrl with
    | none => do
      let hub ← appendReceipt env (host.now 1) (host.randomUUID 0) requestId kind (receipt none)
        { hub with dispatches := written }
      .ok (hub, none)
    | some replyUrl => do
      let (hub, outboxId) ← upsertOutboxReply env (host.randomUUID 0) requestId replyUrl
        (payload row) (host.now 0) hub
      let hub ← appendReceipt env (host.now 1) (host.randomUUID 1) requestId kind
        (receipt (some outboxId)) { hub with dispatches := written }
      .ok (hub, some outboxId)

/-- The columns that a success writes. -/
def DispatchRow.succeeded (row : DispatchRow) (stamp : Int) (replyContent : String) :
    DispatchRow :=
  { row with
    status := .succeeded
    completedAt := some stamp
    replyContent := some replyContent
    replayAfter := none
    error := none }

/-- The columns that a failure writes. -/
def DispatchRow.failed (row : DispatchRow) (stamp : Int) (safeError : String) : DispatchRow :=
  { row with
    status := .failed
    completedAt := some stamp
    error := some safeError }

/-- `markDispatchSucceeded(requestId, replyContent, proofFields)`. -/
def markDispatchSucceeded (env : HubEnv) (host : Host) (requestId replyContent : String)
    (proofFields : ProofFields) (hub : AgentHub) : Except String (AgentHub × Option String) :=
  recordOutcome env host requestId
    (replyPayload env requestId proofFields .succeeded replyContent none)
    (fun row => row.succeeded (host.now 0) replyContent) "runtime_succeeded"
    (fun outboxId => .object [("requestId", .string requestId), ("status", .string "succeeded"),
      ("completedAt", .ofInt (host.now 0)), ("outboxId", .ofString? outboxId),
      ("replyHash", .string (env.sha256 replyContent))])
    hub

/-- `markDispatchFailed(requestId, error, proofFields)`. -/
def markDispatchFailed (env : HubEnv) (host : Host) (requestId error : String)
    (proofFields : ProofFields) (hub : AgentHub) : Except String (AgentHub × Option String) :=
  let safeError := env.redactSensitiveText error
  recordOutcome env host requestId
    (replyPayload env requestId proofFields .failed safeError (some safeError))
    (fun row => row.failed (host.now 0) safeError) "runtime_failed"
    (fun outboxId => .object [("requestId", .string requestId), ("status", .string "failed"),
      ("completedAt", .ofInt (host.now 0)), ("error", .string safeError),
      ("outboxId", .ofString? outboxId)])
    hub

/-! ## Leases -/

/-- The WHERE of `claimDueOutbox`. -/
def OutboxRow.due (row : OutboxRow) (stamp staleBefore : Int) : Bool :=
  ((row.status = .pending || row.status = .failed) && row.nextAttemptAt.all fun at' => at' ≤ stamp)
    || (row.status = .sending && row.updatedAt ≤ staleBefore)

/-- The UPDATE of `claimDueOutbox`. -/
def OutboxRow.claim (row : OutboxRow) (stamp : Int) : OutboxRow :=
  { row with
    status := .sending
    attempts := row.attempts + 1
    nextAttemptAt := none
    updatedAt := stamp }

/-- `ORDER BY COALESCE(next_attempt_at, created_at) ASC, created_at ASC, rowid ASC`,
on rows in rowid order. -/
def dueOrder (a b : String × OutboxRow) : Prop :=
  a.2.nextAttemptAt.getD a.2.createdAt < b.2.nextAttemptAt.getD b.2.createdAt ∨
    a.2.nextAttemptAt.getD a.2.createdAt = b.2.nextAttemptAt.getD b.2.createdAt ∧
      a.2.createdAt ≤ b.2.createdAt

instance : DecidableRel dueOrder := fun a b => by unfold dueOrder; infer_instance

/-- The ids that `claimDueOutbox` selects. -/
def AgentHub.dueIds (hub : AgentHub) (stamp staleBefore : Int) (limit : Nat) : List String :=
  (((hub.outbox.entries.filter fun e => e.2.due stamp staleBefore).insertionSort dueOrder).take
    limit).map Prod.fst

/-- `claimDueOutbox(limit, leaseMs)`. -/
def claimDueOutbox (host : Host) (limit leaseMs : Number) (hub : AgentHub) :
    Except String (AgentHub × List (String × OutboxRow)) :=
  if !limit.isFinite || limit.le (.ofInt 0) then .error "limit must be positive"
  else if !leaseMs.isFinite || leaseMs.le (.ofInt 0) then .error "leaseMs must be positive"
  else
    let stamp := host.now 0
    let staleBefore := stamp - leaseMs.floor?.getD 0
    let ids := hub.dueIds stamp staleBefore (limit.floor?.getD 0).toNat
    let outbox :=
      ids.foldl (fun outbox id => outbox.modify id fun row => row.claim stamp) hub.outbox
    .ok ({ hub with outbox },
      (outbox.entries.filter fun e => e.1 ∈ ids).insertionSort
        fun a b => a.2.createdAt ≤ b.2.createdAt)

/-! ## Settling a delivery -/

/-- The UPDATE of `markOutboxSent`. -/
def OutboxRow.acknowledged (row : OutboxRow) (stamp : Int) : OutboxRow :=
  { row with
    status := .sent
    sentAt := some stamp
    updatedAt := stamp
    lastError := none }

/-- The text that an unknown outbox id throws. -/
def unknownOutbox (id : String) : String := "unknown outbox id " ++ id

/-- `markOutboxSent(id)` up to its SELECT: the stamp that it goes on with, or
`none` where it returns. -/
def readOutboxSent (host : Host) (id : String) (hub : AgentHub) : Except String (Option Int) :=
  match hub.outbox.get? id with
  | none => .error (unknownOutbox id)
  | some row => if row.status = .sent then .ok none else .ok (some (host.now 0))

/-- The UPDATE of `markOutboxSent(id)`, whatever the row is by then. -/
def writeOutboxSent (id : String) (stamp : Int) (hub : AgentHub) : Except String AgentHub :=
  match hub.outbox.get? id with
  | none => .error (unknownOutbox id)
  | some row => .ok { hub with outbox := hub.outbox.set id (row.acknowledged stamp) }

/-- What `markOutboxDeliveryFailed` goes on with after its SELECT; no `retryAt`
means that the row is given up. -/
structure FailureCall where
  id : String
  error : String
  retryAt : Option Int
  deriving DecidableEq, Repr

/-- `markOutboxDeliveryFailed(id, error, retryAt, maxAttempts)` up to its SELECT. -/
def readDeliveryFailed (id error : String) (retryAt : Option Number) (maxAttempts : Number)
    (hub : AgentHub) : Except String FailureCall :=
  if !maxAttempts.isFinite || maxAttempts.le (.ofInt 0) then .error "maxAttempts must be positive"
  else if retryAt.any fun r => !r.isFinite || r.lt (.ofInt 0) then
    .error "retryAt must be null or a non-negative timestamp"
  else match hub.outbox.get? id with
    | none => .error (unknownOutbox id)
    | some row =>
      -- of the row only `attempts` is read, not its status
      let exhausted := maxAttempts.floor?.getD 0 ≤ row.attempts
      .ok { id, error, retryAt := if exhausted then none else retryAt.bind Number.floor? }

/-- The UPDATE of `markOutboxDeliveryFailed`. -/
def OutboxRow.deliveryFailed (row : OutboxRow) (call : FailureCall) (lastError : String)
    (stamp : Int) : OutboxRow :=
  { row with
    status := if call.retryAt = none then .dead else .failed
    nextAttemptAt := call.retryAt
    lastError := some lastError
    updatedAt := stamp }

/-- The rest of `markOutboxDeliveryFailed`, whatever the row is by then. -/
def writeDeliveryFailed (env : HubEnv) (host : Host) (call : FailureCall) (hub : AgentHub) :
    AgentHub :=
  { hub with
    outbox := hub.outbox.modify call.id fun row =>
      row.deliveryFailed call (env.redactSensitiveText call.error) (host.now 0) }

/-! ## Pruning -/

/-- `pruneTerminalOutbox(beforeTimestamp)`. -/
def pruneTerminalOutbox (beforeTimestamp : Number) (hub : AgentHub) : AgentHub :=
  { hub with
    outbox := hub.outbox.filter fun _ row =>
      !((row.status = .sent || row.status = .dead)
        && (Number.ofInt row.updatedAt).lt beforeTimestamp) }

/-- `pruneOldReceipts(beforeTimestamp)`. -/
def pruneOldReceipts (beforeTimestamp : Number) (hub : AgentHub) : AgentHub :=
  { hub with
    receipts := hub.receipts.filter fun _ row =>
      !(Number.ofInt row.createdAt).lt beforeTimestamp }

/-! ## What the operations write -/

variable {env : HubEnv} {host : Host} {hub hub' : AgentHub}

/-- Two requests have two keys. -/
theorem dedupeKey_injective {r r' : String} (h : dedupeKey r = dedupeKey r') : r = r' := by
  apply String.toList_injective
  have hlist := congrArg String.toList h
  rw [dedupeKey, dedupeKey, String.toList_append, String.toList_append] at hlist
  exact List.append_cancel_left hlist

theorem appendReceipt_ok {createdAt : Int} {id requestId kind : String} {payload : Json}
    (h : appendReceipt env createdAt id requestId kind payload hub = .ok hub') :
    hub'.dispatches = hub.dispatches ∧ hub'.outbox = hub.outbox := by
  unfold appendReceipt at h
  split at h
  next => exact absurd h (by simp)
  next =>
    rw [Except.ok.injEq] at h
    rw [← h]
    exact ⟨rfl, rfl⟩

theorem byDedupeKey_some {key id : String} {row : OutboxRow}
    (h : hub.byDedupeKey key = some (id, row)) :
    hub.outbox.get? id = some row ∧ row.dedupeKey = key := by
  refine ⟨(hub.outbox.mem_entries_iff id row).mp (List.mem_of_find?_eq_some h), ?_⟩
  have hkey := List.find?_some h
  exact of_decide_eq_true hkey

theorem byDedupeKey_none {key : String} (h : hub.byDedupeKey key = none) {id : String}
    {row : OutboxRow} (hrow : hub.outbox.get? id = some row) : row.dedupeKey ≠ key := by
  have hall := List.find?_eq_none.mp h (id, row) ((hub.outbox.mem_entries_iff id row).mpr hrow)
  simpa using hall

/-- The outbox after a reply was filed: its key's row starts over, or the reply
is a row of its own. -/
def Filed (before after : OrderedMap String OutboxRow) (reply : OutboxRow) : Prop :=
  (∃ id row, before.get? id = some row ∧ row.dedupeKey = reply.dedupeKey ∧
    after = before.set id (row.conflict reply)) ∨
  (∃ id, before.get? id = none ∧
    (∀ id' row, before.get? id' = some row → row.dedupeKey ≠ reply.dedupeKey) ∧
    after = before.set id reply)

theorem upsertOutboxReply_ok {id requestId targetUrl outboxId : String} {payload : ReplyPayload}
    {stamp : Int}
    (h : upsertOutboxReply env id requestId targetUrl payload stamp hub = .ok (hub', outboxId)) :
    hub'.dispatches = hub.dispatches ∧ hub'.receipts = hub.receipts ∧
      Filed hub.outbox hub'.outbox (newReply env requestId targetUrl payload stamp) := by
  unfold upsertOutboxReply at h
  dsimp only at h
  split at h
  next => exact absurd h (by simp)
  next hfree =>
    split at h
    next id' row hfound =>
      rw [Except.ok.injEq, Prod.mk.injEq] at h
      obtain ⟨hrow, hkey⟩ := byDedupeKey_some hfound
      rw [← h.1]
      exact ⟨rfl, rfl, Or.inl ⟨id', row, hrow, hkey, rfl⟩⟩
    next hnone =>
      rw [Except.ok.injEq, Prod.mk.injEq] at h
      rw [← h.1]
      refine ⟨rfl, rfl, Or.inr ⟨id, ?_, fun id' row hrow => byDedupeKey_none hnone hrow, rfl⟩⟩
      simpa [OrderedMap.has] using hfree

/-- What a committed outcome wrote: the dispatch, the reply if the dispatch names
a URL, and last a receipt. -/
theorem recordOutcome_ok {requestId kind : String} {payload : DispatchRow → ReplyPayload}
    {settled : DispatchRow → DispatchRow} {receipt : Option String → Json}
    {outboxId : Option String}
    (h : recordOutcome env host requestId payload settled kind receipt hub
      = .ok (hub', outboxId)) :
    ∃ row, hub.dispatches.get? requestId = some row ∧
      hub'.dispatches = hub.dispatches.set requestId (settled row) ∧
      (match row.replyUrl with
      | none => hub'.outbox = hub.outbox
      | some replyUrl =>
        Filed hub.outbox hub'.outbox
          (newReply env requestId replyUrl (payload row) (host.now 0))) ∧
      ∃ hub₀ id outboxId, hub₀.receipts = hub.receipts ∧
        appendReceipt env (host.now 1) id requestId kind (receipt outboxId) hub₀ = .ok hub' := by
  unfold recordOutcome at h
  split at h
  next => exact absurd h (by simp)
  next row hrow =>
    refine ⟨row, hrow, ?_⟩
    dsimp only at h
    split at h
    next =>
      obtain ⟨hub₁, happ, h⟩ := Js.bind_ok h
      obtain ⟨hd, ho⟩ := appendReceipt_ok happ
      rw [Except.ok.injEq, Prod.mk.injEq] at h
      rw [← h.1]
      refine ⟨hd, ho, _, _, _, ?_, happ⟩
      rfl
    next replyUrl _ =>
      obtain ⟨⟨hub₁, id⟩, hup, h⟩ := Js.bind_ok h
      obtain ⟨hub₂, happ, h⟩ := Js.bind_ok h
      obtain ⟨-, hreceipts, hfiled⟩ := upsertOutboxReply_ok hup
      obtain ⟨hd, ho⟩ := appendReceipt_ok happ
      rw [Except.ok.injEq, Prod.mk.injEq] at h
      rw [← h.1]
      refine ⟨hd, ho ▸ hfiled, _, _, _, ?_, happ⟩
      exact hreceipts

/-- A delivery failure ends the row or lets it wait for its retry. -/
theorem deliveryFailed_status (row : OutboxRow) (call : FailureCall) (lastError : String)
    (stamp : Int) :
    (row.deliveryFailed call lastError stamp).status = .dead ∨
      (row.deliveryFailed call lastError stamp).status = .failed := by
  unfold OutboxRow.deliveryFailed
  dsimp only
  split
  next => exact Or.inl rfl
  next => exact Or.inr rfl

theorem dueIds_nodup (hub : AgentHub) (stamp staleBefore : Int) (limit : Nat) :
    (hub.dueIds stamp staleBefore limit).Nodup := by
  have hfilter :
      ((hub.outbox.entries.filter fun e => e.2.due stamp staleBefore).map Prod.fst).Nodup :=
    hub.outbox.nodup.sublist (List.filter_sublist.map Prod.fst)
  have hsorted := ((List.perm_insertionSort dueOrder _).map Prod.fst).nodup_iff.mpr hfilter
  exact hsorted.sublist ((List.take_sublist _ _).map Prod.fst)

theorem due_of_mem_dueIds {stamp staleBefore : Int} {limit : Nat} {id : String}
    (h : id ∈ hub.dueIds stamp staleBefore limit) :
    ∃ row, hub.outbox.get? id = some row ∧ row.due stamp staleBefore = true := by
  obtain ⟨⟨id', row⟩, hmem, heq⟩ := List.mem_map.mp h
  have hsort := List.mem_of_mem_take hmem
  rw [List.mem_insertionSort, List.mem_filter] at hsort
  exact ⟨row, heq ▸ (hub.outbox.mem_entries_iff id' row).mp hsort.1, hsort.2⟩

/-- A limit that no due row can exceed leaves none of them out. -/
theorem mem_dueIds_of_few {stamp staleBefore : Int} {limit : Nat}
    (hfew : (hub.outbox.entries.filter fun e => e.2.due stamp staleBefore).length ≤ limit)
    {id : String} {row : OutboxRow} (hrow : hub.outbox.get? id = some row)
    (hdue : row.due stamp staleBefore = true) : id ∈ hub.dueIds stamp staleBefore limit := by
  refine List.mem_map.mpr ⟨(id, row), ?_, rfl⟩
  rw [List.take_of_length_le (by rw [List.length_insertionSort]; exact hfew),
    List.mem_insertionSort, List.mem_filter]
  exact ⟨(hub.outbox.mem_entries_iff id row).mpr hrow, hdue⟩

theorem mem_dueIds_of_due {stamp staleBefore : Int} {limit : Nat}
    (hlimit : hub.outbox.entries.length ≤ limit) {id : String} {row : OutboxRow}
    (hrow : hub.outbox.get? id = some row) (hdue : row.due stamp staleBefore = true) :
    id ∈ hub.dueIds stamp staleBefore limit :=
  mem_dueIds_of_few (Nat.le_trans (List.length_filter_le ..) hlimit) hrow hdue

/-- What a claim did: it returned the due ids it selected, each once and
with its row as it left it. -/
theorem claimDueOutbox_ok {limit leaseMs : Number} {rows : List (String × OutboxRow)}
    (h : claimDueOutbox host limit leaseMs hub = .ok (hub', rows)) :
    let ids := hub.dueIds (host.now 0) (host.now 0 - leaseMs.floor?.getD 0)
      (limit.floor?.getD 0).toNat
    hub'.dispatches = hub.dispatches ∧
      (∀ id, hub'.outbox.get? id
        = if id ∈ ids then (hub.outbox.get? id).map fun row => row.claim (host.now 0)
          else hub.outbox.get? id) ∧
      (∀ id row, (id, row) ∈ rows ↔ id ∈ ids ∧ hub'.outbox.get? id = some row) ∧
      (rows.map Prod.fst).Nodup ∧ hub'.receipts = hub.receipts := by
  intro ids
  unfold claimDueOutbox at h
  split at h
  next => exact absurd h (by simp)
  next =>
    split at h
    next => exact absurd h (by simp)
    next =>
      dsimp only at h
      rw [Except.ok.injEq, Prod.mk.injEq] at h
      obtain ⟨hhub, hrows⟩ := h
      rw [← hhub, ← hrows]
      refine ⟨rfl, ?_, ?_, ?_, rfl⟩
      · intro id
        exact OrderedMap.get?_foldl_modify _ id ids _ (dueIds_nodup ..)
      · intro id row
        rw [List.mem_insertionSort, List.mem_filter, OrderedMap.mem_entries_iff, decide_eq_true_iff]
        exact And.comm
      · refine ((List.perm_insertionSort _ _).map Prod.fst).nodup_iff.mpr ?_
        exact (OrderedMap.nodup _).sublist (List.filter_sublist.map Prod.fst)

/-- A claim returns exactly the ids it selected. -/
theorem mem_claimed_iff {limit leaseMs : Number} {rows : List (String × OutboxRow)}
    (h : claimDueOutbox host limit leaseMs hub = .ok (hub', rows)) (id : String) :
    id ∈ rows.map Prod.fst ↔
      id ∈ hub.dueIds (host.now 0) (host.now 0 - leaseMs.floor?.getD 0)
        (limit.floor?.getD 0).toNat := by
  obtain ⟨-, hget, hrows, -⟩ := claimDueOutbox_ok h
  constructor
  · intro hid
    obtain ⟨⟨id', row⟩, hin, rfl⟩ := List.mem_map.mp hid
    exact ((hrows id' row).mp hin).1
  · intro hid
    obtain ⟨row, hrow, -⟩ := due_of_mem_dueIds hid
    refine List.mem_map.mpr ⟨(id, row.claim (host.now 0)), ?_, rfl⟩
    rw [hrows, hget, if_pos hid, hrow]
    exact ⟨hid, rfl⟩

end Kovael.Hub
