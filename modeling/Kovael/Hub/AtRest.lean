import Kovael.Hub.Receipts

/-!
# The hub at rest

The tables of a hub file with their sealed columns as texts: what the operations of
`Kovael.Hub.Shared` accept is sealed as it is written, and the getters open what they find.
In every state of every run a column has at rest what its text was sealed to (`rested_step`),
and a dispatch has the copy of the payload that was accepted (`accepted_step`).

Mirroring notes:
- `shared` has the columns that are not sealed, and the values of those that are, as they were
  accepted; `texts` is what is at rest in these. A getter reads the texts.
- A statement that writes a sealed column seals its text anew. All columns whose text changes
  are written; which others are is up to the run (`rewritten`).
- `markDispatchSucceeded`, `markDispatchFailed` and `claimDueOutbox` open rows in their
  transaction, so they throw where that fails.
- `accepted` has the payloads as they were given to `recordInboundDispatch`; no operation
  reads it.
-/

namespace Kovael.Hub

open Js (Number OrderedMap Json)
open Js.Json (Held Prints Same)

/-! ## Columns -/

/-- A sealed column of a row. A row of the outbox is sealed for its `dedupe_key`. -/
inductive SealedColumn where
  | payloadJson (requestId : String)
  | replyContent (requestId : String)
  | error (requestId : String)
  | outboxBody (id dedupeKey : String)
  | receiptBody (id : String)
  deriving DecidableEq, Repr

/-- The associated data of a column. -/
def SealedColumn.aad : SealedColumn → String
  | .payloadJson requestId => aadFor "agent_dispatches" requestId "payload_json"
  | .replyContent requestId => aadFor "agent_dispatches" requestId "reply_content"
  | .error requestId => aadFor "agent_dispatches" requestId "error"
  | .outboxBody _ dedupeKey => aadFor "agent_outbox" dedupeKey "payload_body"
  | .receiptBody id => aadFor "agent_receipts" id "payload_body"

/-- The text of a column before it is sealed; `none` is `NULL`, or no row. -/
def AgentHub.plain (hub : AgentHub) : SealedColumn → Option String
  | .payloadJson requestId => (hub.dispatches.get? requestId).map fun row => row.payload.stringify
  | .replyContent requestId => (hub.dispatches.get? requestId).bind DispatchRow.replyContent
  | .error requestId => (hub.dispatches.get? requestId).bind DispatchRow.error
  | .outboxBody id dedupeKey =>
    ((hub.outbox.get? id).filter fun row => row.dedupeKey = dedupeKey).map fun row =>
      stableStringify row.payload.toJson
  | .receiptBody id => (hub.receipts.get? id).map fun row => stableStringify row.payload

/-- The sealed columns of all rows. -/
def AgentHub.sealedColumns (hub : AgentHub) : List SealedColumn :=
  hub.dispatches.entries.flatMap (fun e => [.payloadJson e.1, .replyContent e.1, .error e.1])
    ++ hub.outbox.entries.map (fun e => .outboxBody e.1 e.2.dedupeKey)
    ++ hub.receipts.entries.map fun e => .receiptBody e.1

/-- The rows that `listOutbox(status)` selects: `ORDER BY created_at ASC, rowid ASC`. -/
def AgentHub.outboxRows (hub : AgentHub) (status : Option AgentOutboxStatus) :
    List (String × OutboxRow) :=
  (hub.outbox.entries.filter fun e => status.all fun t => e.2.status = t).insertionSort
    fun a b => a.2.createdAt ≤ b.2.createdAt

structure StoredHub (κ : Type) where
  shared : SharedHub
  texts : SealedColumn → Option String
  calls : List (Crypto.Call κ)
  accepted : OrderedMap String Json

section

variable {κ : Type} [DecidableEq κ] (cipher : FieldCipher κ) (env : HubEnv)

/-! ## Getters -/

/-- `decodeSensitive` of a column; `none` is `NULL`. -/
def StoredHub.decode (s : StoredHub κ) (c : SealedColumn) : Except String (Option String) :=
  match s.texts c with
  | none => .ok none
  | some text => (cipher.decodeSensitive s.calls text c.aad).map some

/-- `dispatchFromRow(row)`. -/
def StoredHub.dispatchFromRow (s : StoredHub κ) (requestId : String) (row : DispatchRow) :
    Except String DispatchRow := do
  let payloadJson ← s.decode cipher (.payloadJson requestId)
  let replyContent ← s.decode cipher (.replyContent requestId)
  let payload ← cipher.parseJson (payloadJson.getD "")
  let error ← s.decode cipher (.error requestId)
  .ok { row with
    payload
    payloadSha256 := some (row.payloadSha256.getD (env.sha256 (payloadJson.getD "")))
    replyContent
    error }

/-- `getDispatch(requestId)`. -/
def StoredHub.getDispatch (s : StoredHub κ) (requestId : String) :
    Except String (Option DispatchRow) :=
  match s.shared.hub.dispatches.get? requestId with
  | none => .ok none
  | some row => (s.dispatchFromRow cipher env requestId row).map some

/-- `outboxFromRow(row)`: the row and its payload. -/
def StoredHub.outboxFromRow (s : StoredHub κ) (e : String × OutboxRow) :
    Except String ((String × OutboxRow) × Json) := do
  let payloadBody ← s.decode cipher (.outboxBody e.1 e.2.dedupeKey)
  let payload ← cipher.parseJson (payloadBody.getD "")
  .ok (e, payload)

/-- `listOutbox(status)`. -/
def StoredHub.listOutbox (s : StoredHub κ) (status : Option AgentOutboxStatus) :
    Except String (List ((String × OutboxRow) × Json)) :=
  (s.shared.hub.outboxRows status).mapM (s.outboxFromRow cipher)

/-- `receiptFromRow(row)`. -/
def StoredHub.receiptFromRow (s : StoredHub κ) (e : String × ReceiptRow) :
    Except String (String × ReceiptRow) := do
  let payloadBody ← s.decode cipher (.receiptBody e.1)
  let payload ← cipher.parseJson (payloadBody.getD "")
  .ok (e.1, { e.2 with payload })

/-- `listReceipts(requestId)`: `ORDER BY created_at ASC, rowid ASC`. -/
def StoredHub.listReceipts (s : StoredHub κ) (requestId : Option String) :
    Except String (List (String × ReceiptRow)) :=
  (s.shared.hub.receiptRows requestId).mapM (s.receiptFromRow cipher)

/-! ## Runs -/

/-- An event, the bytes that it seals with, and the columns that it writes as they were. -/
structure StoredEvent where
  event : Event
  ivs : SealedColumn → Iv
  rewritten : SealedColumn → Bool

/-- An operation opens a row in its transaction, and throws. -/
def StoredHub.refuses (s : StoredHub κ) : Event → Bool
  | .markDispatch _ requestId _ _ =>
    match s.getDispatch cipher env requestId with
    | .error _ => true
    | .ok _ => false
  | .claimDueOutbox _ host limit leaseMs =>
    match claimDueOutbox host limit leaseMs s.shared.hub with
    | .error _ => false
    | .ok (_, rows) =>
      match rows.mapM (s.outboxFromRow cipher) with
      | .error _ => true
      | .ok _ => false
  | _ => false

/-- The payload of a dispatch that an event inserted. -/
def acceptedPayload (s s' : SharedHub) : Event → Option (String × Json)
  | .write n _ =>
    match s.calls.get? n with
    | some (.recordInboundDispatch call) =>
      if !s.hub.dispatches.has call.requestId && s'.hub.dispatches.has call.requestId then
        some (call.requestId, call.payload)
      else none
    | _ => none
  | _ => none

/-- The column is written. -/
def StoredEvent.writes (e : StoredEvent) (hub hub' : AgentHub) (c : SealedColumn) : Bool :=
  e.rewritten c || hub'.plain c ≠ hub.plain c

/-- The encryptions that an event makes. -/
def StoredEvent.calls (e : StoredEvent) (hub hub' : AgentHub) : List (Crypto.Call κ) :=
  (hub'.sealedColumns.filter (e.writes hub hub')).flatMap fun c =>
    (hub'.plain c).toList.flatMap fun text => cipher.calls (e.ivs c) text c.aad

/-- One event. -/
def StoredHub.step (s : StoredHub κ) (e : StoredEvent) : Option (StoredHub κ) :=
  if s.refuses cipher env e.event then some s
  else (Hub.step env s.shared e.event).map fun shared =>
    { shared
      texts := fun c =>
        if e.writes s.shared.hub shared.hub c then
          (shared.hub.plain c).map fun text => cipher.encodeSensitive (e.ivs c) text c.aad
        else s.texts c
      calls := s.calls ++ e.calls cipher s.shared.hub shared.hub
      accepted :=
        match acceptedPayload s.shared shared e.event with
        | none => s.accepted
        | some (requestId, payload) => s.accepted.set requestId payload }

/-- The runs on one hub file. -/
def storedRuns : Lts (StoredHub κ) StoredEvent where
  init := ⟨.init, fun _ => none, [], .empty⟩
  step := StoredHub.step cipher env

end

/-! ## What is at rest -/

theorem mem_sealedColumns {hub : AgentHub} {c : SealedColumn} {text : String}
    (h : hub.plain c = some text) : c ∈ hub.sealedColumns := by
  have hdispatch : ∀ {requestId : String} {row : DispatchRow} {c : SealedColumn},
      hub.dispatches.get? requestId = some row →
      c ∈ [SealedColumn.payloadJson requestId, .replyContent requestId, .error requestId] →
      c ∈ hub.sealedColumns := by
    intro requestId row c hrow hc
    refine List.mem_append_left _ (List.mem_append_left _ (List.mem_flatMap.mpr ?_))
    exact ⟨(requestId, row), (OrderedMap.mem_entries_iff ..).mpr hrow, hc⟩
  cases c with
  | payloadJson requestId =>
    obtain ⟨row, hrow, -⟩ := Option.map_eq_some_iff.mp h
    exact hdispatch hrow (by simp)
  | replyContent requestId =>
    obtain ⟨row, hrow, -⟩ := Option.bind_eq_some_iff.mp h
    exact hdispatch hrow (by simp)
  | error requestId =>
    obtain ⟨row, hrow, -⟩ := Option.bind_eq_some_iff.mp h
    exact hdispatch hrow (by simp)
  | outboxBody id dedupeKey =>
    obtain ⟨row, hrow, -⟩ := Option.map_eq_some_iff.mp h
    obtain ⟨hget, hkey⟩ := Option.filter_eq_some_iff.mp hrow
    refine List.mem_append_left _ (List.mem_append_right _ (List.mem_map.mpr ?_))
    refine ⟨(id, row), (OrderedMap.mem_entries_iff ..).mpr hget, ?_⟩
    rw [of_decide_eq_true hkey]
  | receiptBody id =>
    obtain ⟨row, hrow, -⟩ := Option.map_eq_some_iff.mp h
    refine List.mem_append_right _ (List.mem_map.mpr ?_)
    exact ⟨(id, row), (OrderedMap.mem_entries_iff ..).mpr hrow, rfl⟩

section

variable {κ : Type} [DecidableEq κ] {cipher : FieldCipher κ} {env : HubEnv}
  {s s' : StoredHub κ}

/-- Every sealed column has at rest what its text was sealed to. -/
def Rested (cipher : FieldCipher κ) (s : StoredHub κ) : Prop :=
  ∀ c, (s.shared.hub.plain c = none ∧ s.texts c = none) ∨
    ∃ text iv, s.shared.hub.plain c = some text ∧
      s.texts c = some (cipher.encodeSensitive iv text c.aad) ∧
      cipher.calls iv text c.aad ⊆ s.calls

/-- A column opens to its text, or opening throws. -/
theorem decode_eq (hnumber : Prints cipher.number) (hs : Rested cipher s) (c : SealedColumn) :
    s.decode cipher c =
      match s.shared.hub.plain c with
      | none => .ok none
      | some text => if cipher.Opens text then .ok (some text) else .error requiresSecret := by
  unfold StoredHub.decode
  rcases hs c with ⟨hplain, htext⟩ | ⟨text, iv, hplain, htext, hcalls⟩
  · rw [hplain, htext]
  · rw [hplain, htext]
    dsimp only
    rw [FieldCipher.decodeSensitive_encodeSensitive hnumber hcalls]
    split <;> rfl

/-- What a step does that throws nothing. -/
theorem storedStep_cases {e : StoredEvent} (h : s.step cipher env e = some s') :
    s' = s ∨ Hub.step env s.shared e.event = some s'.shared ∧
      (s'.texts = fun c =>
        if e.writes s.shared.hub s'.shared.hub c then
          (s'.shared.hub.plain c).map fun text => cipher.encodeSensitive (e.ivs c) text c.aad
        else s.texts c) ∧
      s'.calls = s.calls ++ e.calls cipher s.shared.hub s'.shared.hub ∧
      s'.accepted =
        match acceptedPayload s.shared s'.shared e.event with
        | none => s.accepted
        | some (requestId, payload) => s.accepted.set requestId payload := by
  unfold StoredHub.step at h
  split at h
  next =>
    rw [Option.some.injEq] at h
    exact Or.inl h.symm
  next =>
    obtain ⟨shared, hshared, rfl⟩ := Option.map_eq_some_iff.mp h
    exact Or.inr ⟨hshared, rfl, rfl, rfl⟩

theorem rested_step (hs : Rested cipher s) {e : StoredEvent}
    (h : s.step cipher env e = some s') : Rested cipher s' := by
  rcases storedStep_cases h with rfl | ⟨-, htexts, hcalls, -⟩
  · exact hs
  · intro c
    rw [htexts, hcalls]
    dsimp only
    by_cases hwrites : e.writes s.shared.hub s'.shared.hub c = true
    · rw [if_pos hwrites]
      cases hplain : s'.shared.hub.plain c with
      | none => exact Or.inl ⟨rfl, rfl⟩
      | some text =>
        refine Or.inr ⟨text, e.ivs c, rfl, rfl, ?_⟩
        refine List.Subset.trans ?_ (List.subset_append_right ..)
        intro call hcall
        refine List.mem_flatMap.mpr ⟨c, ?_, ?_⟩
        · exact List.mem_filter.mpr ⟨mem_sealedColumns hplain, hwrites⟩
        · rw [hplain]
          exact List.mem_flatMap.mpr ⟨text, List.mem_singleton_self _, hcall⟩
    · rw [if_neg hwrites]
      have hsame : s'.shared.hub.plain c = s.shared.hub.plain c := by
        unfold StoredEvent.writes at hwrites
        simp only [Bool.or_eq_true, decide_eq_true_eq, not_or, not_not] at hwrites
        exact hwrites.2
      rw [hsame]
      rcases hs c with hnone | ⟨text, iv, hplain, htext, hmade⟩
      · exact Or.inl hnone
      · exact Or.inr ⟨text, iv, hplain, htext, List.Subset.trans hmade (List.subset_append_left ..)⟩

/-! ## The payloads that were accepted -/

/-- The dispatches of `before` have the payloads of `after`. -/
def SamePayloads (before after : OrderedMap String DispatchRow) : Prop :=
  ∀ requestId row', after.get? requestId = some row' →
    ∃ row, before.get? requestId = some row ∧ row'.payload = row.payload

theorem SamePayloads.of_eq {before after : OrderedMap String DispatchRow} (h : after = before) :
    SamePayloads before after := fun _ row hrow => ⟨row, h ▸ hrow, rfl⟩

/-- A row that is written with its payload. -/
theorem samePayloads_set {m : OrderedMap String DispatchRow} {requestId : String}
    {row new : DispatchRow} (hrow : m.get? requestId = some row)
    (hpayload : new.payload = row.payload) : SamePayloads m (m.set requestId new) := by
  intro requestId' row' hrow'
  rcases OrderedMap.get?_set_some hrow' with ⟨rfl, rfl⟩ | ⟨-, hold⟩
  · exact ⟨row, hrow, hpayload⟩
  · exact ⟨row', hold, rfl⟩

theorem writeInboundDispatch_payloads {host : Host} {call : InboundCall} {hub hub' : AgentHub}
    (h : writeInboundDispatch env host call hub = .ok hub') :
    SamePayloads hub.dispatches hub'.dispatches ∨
      hub.dispatches.has call.requestId = false ∧
        hub'.dispatches = hub.dispatches.set call.requestId call.row := by
  unfold writeInboundDispatch at h
  split at h
  next =>
    rw [Except.ok.injEq] at h
    rw [← h]
    refine Or.inl ?_
    intro requestId row' hrow'
    rw [OrderedMap.get?_modify] at hrow'
    split at hrow'
    next hr =>
      obtain ⟨row, hrow, rfl⟩ := Option.map_eq_some_iff.mp hrow'
      exact ⟨row, hr ▸ hrow, rfl⟩
    next => exact ⟨row', hrow', rfl⟩
  next =>
    split at h
    next => exact absurd h (by simp)
    next hfree =>
      exact Or.inr ⟨by simpa using hfree, (appendReceipt_ok h).1⟩

theorem commit_payloads {s : SharedHub} {log : List Entry} {result : Except String AgentHub}
    (h : ∀ hub, result = .ok hub → SamePayloads s.hub.dispatches hub.dispatches) :
    SamePayloads s.hub.dispatches (s.commit log result).hub.dispatches := by
  cases result with
  | error err => exact .of_eq rfl
  | ok hub => exact h hub rfl

/-- A step keeps the payloads of the dispatches, or inserts one that it accepted. -/
theorem step_payloads {s s' : SharedHub} {e : Event} (h : Hub.step env s e = some s') :
    SamePayloads s.hub.dispatches s'.hub.dispatches ∨
      ∃ requestId payload row, acceptedPayload s s' e = some (requestId, payload) ∧
        s.hub.dispatches.get? requestId = none ∧
        s'.hub.dispatches = s.hub.dispatches.set requestId row ∧
        row.payload = stableValue (persistableDispatchPayload payload) := by
  cases e with
  | recordInboundDispatch n host payload =>
    rw [Hub.step] at h
    split at h
    next => exact absurd h (by simp)
    next => split at h <;> rw [Option.some.injEq] at h <;> exact Or.inl (.of_eq (h ▸ rfl))
  | markDispatchRunning host requestId =>
    rw [Hub.step, Option.some.injEq] at h
    refine Or.inl (h ▸ commit_payloads ?_)
    intro hub hm
    obtain ⟨row, hrow, hset, -⟩ := markDispatchRunning_ok hm
    rw [hset]
    exact samePayloads_set hrow rfl
  | scheduleDispatchReplay requestId replayAfter =>
    rw [Hub.step, Option.some.injEq] at h
    refine Or.inl (h ▸ commit_payloads ?_)
    intro hub hm
    obtain ⟨row, hrow, rfl⟩ := scheduleDispatchReplay_ok hm
    exact samePayloads_set hrow rfl
  | markDispatch host requestId outcome proofFields =>
    rw [Hub.step, Option.some.injEq] at h
    refine Or.inl (h ▸ commit_payloads ?_)
    intro hub hm
    cases hmarked : markDispatch env host requestId outcome proofFields s.hub with
    | error err =>
      rw [hmarked] at hm
      exact absurd hm (by simp [Except.map])
    | ok marked =>
      rw [hmarked] at hm
      obtain ⟨row, hrow, hset, -⟩ := markDispatch_ok hmarked
      rw [← Except.ok.inj hm, hset]
      refine samePayloads_set hrow ?_
      cases outcome <;> rfl
  | claimDueOutbox worker host limit leaseMs =>
    rw [Hub.step] at h
    split at h <;> rw [Option.some.injEq] at h
    next => exact Or.inl (.of_eq (h ▸ rfl))
    next hub rows hclaim =>
      rw [← h]
      exact Or.inl (.of_eq (claimDueOutbox_ok hclaim).1)
  | markOutboxSent n worker host id =>
    rw [Hub.step] at h
    split at h
    next => exact absurd h (by simp)
    next => split at h <;> rw [Option.some.injEq] at h <;> exact Or.inl (.of_eq (h ▸ rfl))
  | markOutboxDeliveryFailed n id error retryAt maxAttempts =>
    rw [Hub.step] at h
    split at h
    next => exact absurd h (by simp)
    next => split at h <;> rw [Option.some.injEq] at h <;> exact Or.inl (.of_eq (h ▸ rfl))
  | write n host =>
    rw [Hub.step, Option.map_eq_some_iff] at h
    obtain ⟨call, hcall, h⟩ := h
    cases call with
    | recordInboundDispatch call =>
      simp only [Call.write] at h
      cases hw : writeInboundDispatch env host call s.hub with
      | error err =>
        rw [hw, SharedHub.commit] at h
        exact Or.inl (.of_eq (h ▸ rfl))
      | ok hub =>
        rw [hw, SharedHub.commit] at h
        subst h
        rcases writeInboundDispatch_payloads hw with hsame | ⟨hfree, hset⟩
        · exact Or.inl hsame
        · refine Or.inr ⟨call.requestId, call.payload, call.row, ?_, ?_, hset, rfl⟩
          · rw [acceptedPayload, hcall]
            refine if_pos ?_
            rw [hfree]
            show hub.dispatches.has call.requestId = true
            rw [hset, OrderedMap.has, OrderedMap.get?_set_self]
            rfl
          · rw [OrderedMap.has] at hfree
            simpa using hfree
    | markOutboxSent worker id stamp =>
      refine Or.inl (h ▸ commit_payloads ?_)
      intro hub hm
      unfold writeOutboxSent at hm
      split at hm
      next => exact absurd hm (by simp)
      next =>
        rw [Except.ok.injEq] at hm
        exact .of_eq (hm ▸ rfl)
    | markOutboxDeliveryFailed call =>
      refine Or.inl (h ▸ commit_payloads ?_)
      intro hub hm
      exact .of_eq (Except.ok.inj hm ▸ rfl)
  | pruneTerminalOutbox beforeTimestamp =>
    rw [Hub.step, Option.some.injEq] at h
    exact Or.inl (.of_eq (h ▸ rfl))
  | pruneOldReceipts beforeTimestamp =>
    rw [Hub.step, Option.some.injEq] at h
    exact Or.inl (.of_eq (h ▸ rfl))

/-- An accepted payload is one of a dispatch that is new. -/
theorem acceptedPayload_some {s s' : SharedHub} {e : Event} {requestId : String} {payload : Json}
    (h : acceptedPayload s s' e = some (requestId, payload)) :
    s.hub.dispatches.get? requestId = none ∧
      ∃ row, s'.hub.dispatches.get? requestId = some row := by
  unfold acceptedPayload at h
  split at h
  next =>
    split at h
    next call _ =>
      split at h
      next hnew =>
        rw [Option.some.injEq, Prod.mk.injEq] at h
        rw [Bool.and_eq_true, Bool.not_eq_true'] at hnew
        rw [← h.1]
        refine ⟨?_, (OrderedMap.has_iff ..).mp hnew.2⟩
        have hfree := hnew.1
        rw [OrderedMap.has] at hfree
        simpa using hfree
      next => exact absurd h (by simp)
    next => exact absurd h (by simp)
  next => exact absurd h (by simp)

/-- Every dispatch has the copy of the payload that was accepted, without its secret. -/
def Accepted (s : StoredHub κ) : Prop :=
  ∀ requestId row, s.shared.hub.dispatches.get? requestId = some row →
    ∃ payload, s.accepted.get? requestId = some payload ∧
      row.payload = stableValue (persistableDispatchPayload payload)

theorem accepted_step (hs : Accepted s) {e : StoredEvent} (h : s.step cipher env e = some s') :
    Accepted s' := by
  rcases storedStep_cases h with rfl | ⟨hstep, -, -, haccepted⟩
  · exact hs
  · intro requestId row' hrow'
    rw [haccepted]
    rcases step_payloads hstep with hsame | ⟨newId, payload, row, hnew, hfree, hset, hcopy⟩
    · obtain ⟨row, hrow, hpayload⟩ := hsame requestId row' hrow'
      obtain ⟨payload, hgiven, hcopy⟩ := hs requestId row hrow
      refine ⟨payload, ?_, hpayload.trans hcopy⟩
      cases hnew : acceptedPayload s.shared s'.shared e.event with
      | none => exact hgiven
      | some accepted =>
        -- no dispatch is new where all payloads were there before
        obtain ⟨newId, newPayload⟩ := accepted
        obtain ⟨hfree, newRow, hnewRow⟩ := acceptedPayload_some hnew
        obtain ⟨old, hold, -⟩ := hsame _ _ hnewRow
        rw [hfree] at hold
        exact absurd hold (by simp)
    · rw [hnew]
      dsimp only
      rw [hset] at hrow'
      rcases OrderedMap.get?_set_some hrow' with ⟨rfl, rfl⟩ | ⟨hne, hold⟩
      · exact ⟨payload, OrderedMap.get?_set_self .., hcopy⟩
      · obtain ⟨old, hgiven, hcopy'⟩ := hs requestId row' hold
        exact ⟨old, (OrderedMap.get?_set_ne _ _ hne).trans hgiven, hcopy'⟩

/-! ## Receipts and replies are flat -/

/-- All receipts have flat payloads. -/
def FlatReceipts (hub : AgentHub) : Prop :=
  ∀ id row, hub.receipts.get? id = some row → Flat row.payload

theorem flatReceipts_step {s s' : SharedHub} (hs : FlatReceipts s.hub) {e : Event}
    (h : Hub.step env s e = some s') : FlatReceipts s'.hub := by
  by_cases hprune : ∃ beforeTimestamp, e = .pruneOldReceipts beforeTimestamp
  · obtain ⟨beforeTimestamp, rfl⟩ := hprune
    rw [Hub.step, Option.some.injEq] at h
    intro id row hrow
    rw [← h] at hrow
    have hget : ((s.hub.receipts.filter fun _ row =>
        !(Number.ofInt row.createdAt).lt beforeTimestamp).get? id) = some row := hrow
    rw [OrderedMap.get?_filter, Option.filter_eq_some_iff] at hget
    exact hs id row hget.1
  · intro id row hrow
    rcases step_receipts h (fun t ht => hprune ⟨t, ht⟩) with
      ⟨-, hsame⟩ | ⟨_, _, _, newRow, -, happended⟩
    · exact hs id row (hsame ▸ hrow)
    · rw [← OrderedMap.mem_entries_iff, happended.entries] at hrow
      rcases List.mem_append.mp hrow with hold | hnew
      · exact hs id row ((OrderedMap.mem_entries_iff ..).mp hold)
      · rw [(Prod.mk.inj (List.mem_singleton.mp hnew)).2]
        exact happended.flat

/-- The keys of a reply. -/
def replyKeys : List String :=
  ["topicId", "agentId", "content", "requestId", "claimSessionId", "replyProof", "status", "error"]

/-- A reply is an object of strings. -/
theorem toJson_strings (p : ReplyPayload) : ∃ fields, p.toJson = .object fields ∧
    (fields.map Prod.fst).Sublist replyKeys ∧ ∀ f ∈ fields, ∃ text, f.2 = .string text := by
  refine ⟨_, rfl, ?_, ?_⟩
  · cases p.claimSessionId <;> cases p.replyProof <;> cases p.error <;>
      (simp only [Option.map_none, Option.map_some, Option.toList_none, Option.toList_some,
        List.append_nil, List.cons_append, List.nil_append, List.map_cons, List.map_nil]
       decide)
  · intro f hf
    simp only [List.mem_append, List.mem_cons, List.not_mem_nil, or_false, Option.mem_toList,
      Option.map_eq_some_iff] at hf
    rcases hf with ((((rfl | rfl | rfl | rfl) | ⟨_, -, rfl⟩) | ⟨_, -, rfl⟩) | rfl) | ⟨_, -, rfl⟩ <;>
      exact ⟨_, rfl⟩

theorem toJson_flat (p : ReplyPayload) : Flat p.toJson := by
  obtain ⟨fields, hfields, hkeys, hstrings⟩ := toJson_strings p
  rw [hfields]
  refine ⟨hkeys.nodup (by decide), ?_, ?_, ?_⟩
  · exact fun hmem => absurd (hkeys.subset hmem) (by decide)
  · exact fun hmem => absurd (hkeys.subset hmem) (by decide)
  · intro f hf
    obtain ⟨text, htext⟩ := hstrings f hf
    rw [htext]
    exact ⟨rfl, rfl⟩

theorem toJson_held (number : String → String) (p : ReplyPayload) : Held number p.toJson := by
  obtain ⟨fields, hfields, hkeys, hstrings⟩ := toJson_strings p
  have hnames : ∀ key ∈ replyKeys, Js.arrayIndex? key = none := by decide
  rw [hfields]
  refine ⟨hkeys.nodup (by decide), Json.enumerated_of_names ?_, Js.Json.heldFields_iff.mpr ?_⟩
  · exact fun key hkey => hnames key (hkeys.subset hkey)
  · intro f hf
    obtain ⟨text, htext⟩ := hstrings f hf
    rw [htext]
    trivial

end

end Kovael.Hub
