import Mathlib.Data.List.Induction
import Kovael.Hub.Canonical
import Kovael.Hub.Statements

/-!
# Redeliveries

Sequences of `recordInboundDispatch` calls. The first payload of a request is inserted with
the hash of its canonical text; a later one is a redelivery if its text has that hash.

SHA-256 is injective here, and a digest is not empty. Then a payload is a redelivery just if
it has the text of the first (`Kovael.Hub.Canonical`): equality up to the order of keys, but
for `__proto__` members, which the text leaves out (`dispatch_dedup_iff`).
-/

namespace Kovael.Hub

open Js (OrderedMap Json)
open Js.Json (Held Same dropProto)

variable {env : HubEnv} {hub hub' : AgentHub}

/-! ## Calls -/

/-- What `recordInboundDispatch` returns. -/
structure AgentDispatchInsertResult where
  requestId : String
  duplicate : Bool
  payloadHash : String

/-- `recordInboundDispatch(payload)`. -/
def recordInboundDispatch (env : HubEnv) (host : Host) (payload : Json) (hub : AgentHub) :
    Except String (AgentHub × AgentDispatchInsertResult) := do
  let call ← readInboundDispatch env host payload hub
  let hub ← writeInboundDispatch env host call hub
  .ok (hub, { requestId := call.requestId, duplicate := call.existing,
              payloadHash := call.payloadHash })

/-- A call, and what it reads from outside. -/
structure Delivery where
  host : Host
  payload : Json

/-- A call that throws leaves the hub as it was. -/
def deliver (env : HubEnv) (hub : AgentHub) (d : Delivery) : AgentHub :=
  match recordInboundDispatch env d.host d.payload hub with
  | .error _ => hub
  | .ok (hub', _) => hub'

/-- The hub after a sequence of calls. -/
def afterDeliveries (env : HubEnv) (calls : List Delivery) : AgentHub :=
  calls.foldl (deliver env) .init

/-- The request of a payload that has its fields, and the hub's agent. -/
def admittedId (env : HubEnv) (payload : Json) : Option String :=
  match requiredString (payload.stringField? "requestId") "requestId",
    requiredString (payload.stringField? "topicId") "topicId",
    requiredString (payload.stringField? "agentId") "agentId" with
  | .ok requestId, .ok _, .ok agentId => if agentId = env.agentId then some requestId else none
  | _, _, _ => none

/-- The first payload of the request. -/
def firstPayload (env : HubEnv) (calls : List Delivery) (requestId : String) : Option Json :=
  (calls.find? fun d => admittedId env d.payload = some requestId).map Delivery.payload

/-- The request was inserted with its payload; nothing was known of it. -/
structure Inserted (hub hub' : AgentHub) (requestId payloadHash : String) (d : Delivery) :
    Prop where
  new : hub.dispatches.get? requestId = none
  row : ∃ row, hub'.dispatches = hub.dispatches.set requestId row ∧
    row.payload = stableValue (persistableDispatchPayload d.payload) ∧
    row.payloadSha256 = some payloadHash ∧ row.status = .accepted ∧ row.duplicateCount = 0
  outbox : hub'.outbox = hub.outbox
  receipts : ∃ receipt, receipt.requestId = some requestId ∧
    receipt.kind = "dispatch_received" ∧
    hub'.receipts = hub.receipts.set (d.host.randomUUID 0) receipt

/-- The redelivery was counted on its row, and nothing else changed. -/
def Redelivered (hub hub' : AgentHub) (requestId : String) (d : Delivery) : Prop :=
  ∃ row, hub.dispatches.get? requestId = some row ∧
    hub' = { hub with
      dispatches := hub.dispatches.set requestId
        { row with
          duplicateCount := row.duplicateCount + 1
          lastSeenAt := some (d.host.now 0) } }

/-! ## One call -/

theorem readInboundDispatch_of_none {host : Host} {payload : Json}
    (h : admittedId env payload = none) :
    ∃ err, readInboundDispatch env host payload hub = .error err := by
  unfold admittedId at h
  unfold readInboundDispatch
  cases hr : requiredString (payload.stringField? "requestId") "requestId" with
  | error err => exact ⟨err, rfl⟩
  | ok requestId =>
    cases ht : requiredString (payload.stringField? "topicId") "topicId" with
    | error err => exact ⟨err, rfl⟩
    | ok topicId =>
      cases ha : requiredString (payload.stringField? "agentId") "agentId" with
      | error err => exact ⟨err, rfl⟩
      | ok agentId =>
        rw [hr, ht, ha] at h
        by_cases hagent : agentId = env.agentId
        · simp [hagent] at h
        · exact ⟨_, if_pos hagent⟩

/-- What is read of a payload that is admitted. -/
theorem readInboundDispatch_of_some {payload : Json} {requestId : String}
    (h : admittedId env payload = some requestId) (hub : AgentHub) (host : Host) :
    ∃ topicId agentId, readInboundDispatch env host payload hub =
      match hub.dispatches.get? requestId with
      | none =>
        .ok { requestId, topicId, agentId, payload,
              payloadHash := env.sha256 (stableStringify payload), stamp := host.now 0,
              existing := false }
      | some row =>
        if row.payloadSha256.any fun h => h ≠ "" && h ≠ env.sha256 (stableStringify payload) then
          .error ("dispatch payload hash conflict for requestId " ++ requestId)
        else
          .ok { requestId, topicId, agentId, payload,
                payloadHash := env.sha256 (stableStringify payload), stamp := host.now 0,
                existing := true } := by
  unfold admittedId at h
  unfold readInboundDispatch
  cases hr : requiredString (payload.stringField? "requestId") "requestId" with
  | error err =>
    rw [hr] at h
    exact absurd h (by simp)
  | ok requestId' =>
    cases ht : requiredString (payload.stringField? "topicId") "topicId" with
    | error err =>
      rw [hr, ht] at h
      exact absurd h (by simp)
    | ok topicId =>
      cases ha : requiredString (payload.stringField? "agentId") "agentId" with
      | error err =>
        rw [hr, ht, ha] at h
        exact absurd h (by simp)
      | ok agentId =>
        rw [hr, ht, ha] at h
        by_cases hagent : agentId = env.agentId
        · simp only [hagent, if_true, Option.some.injEq] at h
          refine ⟨topicId, agentId, ?_⟩
          rw [← h]
          exact if_neg (not_not_intro hagent)
        · simp [hagent] at h

/-- A payload that is not admitted throws. -/
theorem recordInboundDispatch_of_none {payload : Json} (h : admittedId env payload = none)
    (hub : AgentHub) (host : Host) :
    ∃ err, recordInboundDispatch env host payload hub = .error err := by
  obtain ⟨err, hread⟩ : ∃ err, readInboundDispatch env host payload hub = .error err :=
    readInboundDispatch_of_none h
  refine ⟨err, ?_⟩
  rw [recordInboundDispatch, hread]
  rfl

/-- A call that is read and written. -/
theorem recordInboundDispatch_of_write {host : Host} {payload : Json} {call : InboundCall}
    (hread : readInboundDispatch env host payload hub = .ok call)
    (hwrite : writeInboundDispatch env host call hub = .ok hub') :
    recordInboundDispatch env host payload hub =
      .ok (hub', ⟨call.requestId, call.existing, call.payloadHash⟩) := by
  rw [recordInboundDispatch, hread]
  show (writeInboundDispatch env host call hub >>= _) = _
  rw [hwrite]
  rfl

/-- A first delivery writes its row and a receipt. -/
theorem recordInboundDispatch_new {host : Host} {payload : Json} {call : InboundCall}
    (hread : readInboundDispatch env host payload hub = .ok call) (hcall : call.existing = false)
    (hfree : hub.dispatches.has call.requestId = false)
    (hid : hub.receipts.has (host.randomUUID 0) = false) :
    ∃ receipt, recordInboundDispatch env host payload hub =
        .ok ({ hub with
          dispatches := hub.dispatches.set call.requestId call.row
          receipts := hub.receipts.set (host.randomUUID 0) receipt },
          ⟨call.requestId, false, call.payloadHash⟩) ∧
      receipt.requestId = some call.requestId ∧ receipt.kind = "dispatch_received" := by
  have hwrite : ∃ receipt, writeInboundDispatch env host call hub =
        .ok { hub with
          dispatches := hub.dispatches.set call.requestId call.row
          receipts := hub.receipts.set (host.randomUUID 0) receipt } ∧
      receipt.requestId = some call.requestId ∧ receipt.kind = "dispatch_received" := by
    unfold writeInboundDispatch
    simp only [hcall, hfree, appendReceipt, hid, Bool.false_eq_true, if_false]
    exact ⟨_, rfl, rfl, rfl⟩
  obtain ⟨receipt, hwritten, hreceipt⟩ := hwrite
  refine ⟨receipt, ?_, hreceipt⟩
  rw [recordInboundDispatch_of_write hread hwritten, hcall]

/-- The first payload of a request is inserted. -/
theorem recordInboundDispatch_first {d : Delivery} {requestId : String}
    (h : admittedId env d.payload = some requestId) (hnone : hub.dispatches.get? requestId = none)
    (hid : hub.receipts.has (d.host.randomUUID 0) = false) :
    ∃ hub', recordInboundDispatch env d.host d.payload hub =
        .ok (hub', ⟨requestId, false, env.sha256 (stableStringify d.payload)⟩) ∧
      Inserted hub hub' requestId (env.sha256 (stableStringify d.payload)) d := by
  obtain ⟨topicId, agentId, hread⟩ := readInboundDispatch_of_some h hub d.host
  rw [hnone] at hread
  have hfree : hub.dispatches.has requestId = false := by
    rw [OrderedMap.has, hnone]
    rfl
  obtain ⟨receipt, hrecord, hrequest, hkind⟩ := recordInboundDispatch_new hread rfl hfree hid
  refine ⟨_, hrecord, hnone, ?_, rfl, ?_⟩
  · exact ⟨_, rfl, rfl, rfl, rfl, rfl⟩
  · exact ⟨receipt, hrequest, hkind, rfl⟩

/-- A later payload is a redelivery if it has the hash of the row, and throws otherwise. -/
theorem recordInboundDispatch_later {d : Delivery} {requestId hash : String} {row : DispatchRow}
    (h : admittedId env d.payload = some requestId)
    (hrow : hub.dispatches.get? requestId = some row) (hhash : row.payloadSha256 = some hash)
    (hne : hash ≠ "") :
    (hash = env.sha256 (stableStringify d.payload) →
      ∃ hub', recordInboundDispatch env d.host d.payload hub =
          .ok (hub', ⟨requestId, true, env.sha256 (stableStringify d.payload)⟩) ∧
        Redelivered hub hub' requestId d) ∧
      (hash ≠ env.sha256 (stableStringify d.payload) →
        recordInboundDispatch env d.host d.payload hub =
          .error ("dispatch payload hash conflict for requestId " ++ requestId)) := by
  obtain ⟨topicId, agentId, hread⟩ := readInboundDispatch_of_some h hub d.host
  rw [hrow] at hread
  constructor
  · intro heq
    have hany : (row.payloadSha256.any fun h =>
        h ≠ "" && h ≠ env.sha256 (stableStringify d.payload)) = false := by
      rw [hhash, Option.any_some, ← heq]
      simp
    simp only [hany, Bool.false_eq_true, if_false] at hread
    refine ⟨_, recordInboundDispatch_of_write hread (if_pos rfl), row, hrow, ?_⟩
    -- the UPDATE leaves the hash that is there
    have hkept : some (row.payloadSha256.getD (env.sha256 (stableStringify d.payload))) =
        row.payloadSha256 := by
      rw [hhash]
      rfl
    simp only [OrderedMap.modify, hrow, InboundCall.duplicate, hkept]
  · intro hdiffer
    have hany : (row.payloadSha256.any fun h =>
        h ≠ "" && h ≠ env.sha256 (stableStringify d.payload)) = true := by
      rw [hhash, Option.any_some]
      simp [hne, hdiffer]
    simp only [hany, if_true] at hread
    rw [recordInboundDispatch, hread]
    rfl

/-! ## Sequences of calls -/

/-- The hub knows the requests of the calls, each by the hash of its first payload. -/
structure Recorded (env : HubEnv) (calls : List Delivery) (hub : AgentHub) : Prop where
  unknown : ∀ requestId, firstPayload env calls requestId = none →
    hub.dispatches.get? requestId = none
  known : ∀ requestId payload, firstPayload env calls requestId = some payload →
    ∃ row, hub.dispatches.get? requestId = some row ∧
      row.payloadSha256 = some (env.sha256 (stableStringify payload))
  ids : ∀ id, hub.receipts.has id = true → id ∈ calls.map fun d => d.host.randomUUID 0

theorem firstPayload_append (calls : List Delivery) (d : Delivery) (requestId : String) :
    firstPayload env (calls ++ [d]) requestId =
      (firstPayload env calls requestId).or
        (if admittedId env d.payload = some requestId then some d.payload else none) := by
  unfold firstPayload
  rw [List.find?_append]
  cases hfound : calls.find? fun d => admittedId env d.payload = some requestId with
  | some c => rfl
  | none =>
    by_cases hadmitted : admittedId env d.payload = some requestId
    · simp [hadmitted]
    · simp [hadmitted]

theorem firstPayload_append_of_ne {calls : List Delivery} {d : Delivery} {requestId : String}
    (h : admittedId env d.payload ≠ some requestId) :
    firstPayload env (calls ++ [d]) requestId = firstPayload env calls requestId := by
  rw [firstPayload_append, if_neg h, Option.or_none]

/-- A call keeps the record. -/
theorem Recorded.deliver {calls : List Delivery} (h : Recorded env calls hub) {d : Delivery}
    (hne : ∀ text, env.sha256 text ≠ "")
    (hid : d.host.randomUUID 0 ∉ calls.map fun d => d.host.randomUUID 0) :
    Recorded env (calls ++ [d]) (deliver env hub d) := by
  have hids : ∀ id, hub.receipts.has id = true →
      id ∈ (calls ++ [d]).map fun d => d.host.randomUUID 0 := by
    intro id hhas
    rw [List.map_append]
    exact List.mem_append_left _ (h.ids id hhas)
  have hfresh : hub.receipts.has (d.host.randomUUID 0) = false := by
    cases hhas : hub.receipts.has (d.host.randomUUID 0) with
    | false => rfl
    | true => exact absurd (h.ids _ hhas) hid
  unfold Hub.deliver
  cases hadmitted : admittedId env d.payload with
  | none =>
    obtain ⟨err, herror⟩ := recordInboundDispatch_of_none hadmitted hub d.host
    rw [herror]
    have hsame : ∀ requestId, firstPayload env (calls ++ [d]) requestId =
        firstPayload env calls requestId := by
      intro requestId
      refine firstPayload_append_of_ne ?_
      rw [hadmitted]
      simp
    exact ⟨fun r hr => h.unknown r (hsame r ▸ hr), fun r p hp => h.known r p (hsame r ▸ hp), hids⟩
  | some requestId =>
    cases hfirst : firstPayload env calls requestId with
    | none =>
      obtain ⟨hub', hrecord, hinserted⟩ :=
        recordInboundDispatch_first hadmitted (h.unknown requestId hfirst) hfresh
      rw [hrecord]
      obtain ⟨row, hset, -, hhash, -, -⟩ := hinserted.row
      obtain ⟨receipt, -, -, hreceipts⟩ := hinserted.receipts
      refine ⟨?_, ?_, ?_⟩
      · intro r hr
        rw [firstPayload_append, Option.or_eq_none_iff] at hr
        have hne : r ≠ requestId := by
          intro heq
          obtain rfl := heq
          rw [if_pos hadmitted] at hr
          exact absurd hr.2 (by simp)
        show hub'.dispatches.get? r = none
        rw [hset, OrderedMap.get?_set_ne _ _ hne]
        exact h.unknown r hr.1
      · intro r p hp
        show ∃ row, hub'.dispatches.get? r = some row ∧ _
        rw [hset, OrderedMap.get?_set]
        by_cases hr : r = requestId
        · rw [hr, firstPayload_append, hfirst, Option.none_or, if_pos hadmitted,
            Option.some.injEq] at hp
          rw [if_pos hr]
          exact ⟨row, rfl, hp ▸ hhash⟩
        · rw [if_neg hr]
          rw [firstPayload_append_of_ne (by rw [hadmitted]; simpa using Ne.symm hr)] at hp
          exact h.known r p hp
      · intro id hhas
        rw [List.map_append]
        change hub'.receipts.has id = true at hhas
        rw [hreceipts, OrderedMap.has, OrderedMap.get?_set] at hhas
        split at hhas
        next hid' => exact List.mem_append_right _ (by simp [hid'])
        next => exact List.mem_append_left _ (h.ids id hhas)
    | some first =>
      obtain ⟨row, hrow, hhash⟩ := h.known requestId first hfirst
      have hsame : ∀ r, firstPayload env (calls ++ [d]) r = firstPayload env calls r := by
        intro r
        rw [firstPayload_append]
        by_cases hr : admittedId env d.payload = some r
        · obtain rfl : requestId = r := Option.some.inj (hadmitted.symm.trans hr)
          rw [hfirst]
          rfl
        · rw [if_neg hr, Option.or_none]
      obtain ⟨hequal, hconflict⟩ := recordInboundDispatch_later hadmitted hrow hhash (hne _)
      by_cases hequal' : env.sha256 (stableStringify first) = env.sha256 (stableStringify d.payload)
      · obtain ⟨hub', hrecord, row', hrow', hset⟩ := hequal hequal'
        obtain rfl := Option.some.inj (hrow.symm.trans hrow')
        rw [hrecord, hset]
        refine ⟨?_, ?_, hids⟩
        · intro r hr
          have hr' := h.unknown r (hsame r ▸ hr)
          have hne : r ≠ requestId := by
            intro heq
            obtain rfl := heq
            rw [hrow] at hr'
            exact absurd hr' (by simp)
          exact (OrderedMap.get?_set_ne _ _ hne).trans hr'
        · intro r p hp
          obtain ⟨known, hknown, hkhash⟩ := h.known r p (hsame r ▸ hp)
          show ∃ row, (hub.dispatches.set _ _).get? r = some row ∧ _
          rw [OrderedMap.get?_set]
          by_cases hr : r = requestId
          · rw [if_pos hr]
            rw [hr, hrow, Option.some.injEq] at hknown
            exact ⟨_, rfl, hknown ▸ hkhash⟩
          · rw [if_neg hr]
            exact ⟨known, hknown, hkhash⟩
      · rw [hconflict hequal']
        exact ⟨fun r hr => h.unknown r (hsame r ▸ hr), fun r p hp => h.known r p (hsame r ▸ hp),
          hids⟩

theorem afterDeliveries_recorded (hne : ∀ text, env.sha256 text ≠ "") (calls : List Delivery)
    (hids : (calls.map fun d => d.host.randomUUID 0).Nodup) :
    Recorded env calls (afterDeliveries env calls) := by
  induction calls using List.reverseRecOn with
  | nil => exact ⟨fun _ _ => rfl, fun _ _ hp => absurd hp (by simp [firstPayload]),
      fun _ hhas => absurd hhas (by simp [afterDeliveries, AgentHub.init, OrderedMap.has])⟩
  | append_singleton calls d ih =>
    rw [List.map_append, List.map_singleton, List.nodup_append] at hids
    obtain ⟨hcalls, -, hdisjoint⟩ := hids
    have hid : d.host.randomUUID 0 ∉ calls.map fun d => d.host.randomUUID 0 := by
      intro hmem
      exact hdisjoint _ hmem _ (List.mem_singleton_self _) rfl
    have hafter : afterDeliveries env (calls ++ [d]) = deliver env (afterDeliveries env calls) d :=
      List.foldl_append ..
    rw [hafter]
    exact (ih hcalls).deliver hne hid

/-- The payload is accepted as a redelivery. -/
def AcceptedAgain (env : HubEnv) (hub : AgentHub) (requestId : String) (d : Delivery) : Prop :=
  ∃ hub', recordInboundDispatch env d.host d.payload hub =
      .ok (hub', ⟨requestId, true, env.sha256 (stableStringify d.payload)⟩) ∧
    Redelivered hub hub' requestId d

/-- **Deduplication is equality of canonical texts.** After every sequence of calls, of one
more call:

a payload without a field, or for another agent, throws;

the first payload of its request is inserted;

a later one is accepted again or throws, and is accepted again just if it is equal to the
first up to the order of keys, if and only if the two do not differ in `__proto__` members
alone;

and a call that throws leaves all tables as they were, whatever statement fails. -/
theorem dispatch_dedup_iff (env : HubEnv) (number : String → String)
    (hinjective : Function.Injective env.sha256) (hne : ∀ text, env.sha256 text ≠ "")
    (calls : List Delivery) (d : Delivery) (hheld : ∀ c ∈ calls ++ [d], Held number c.payload)
    (hids : ((calls ++ [d]).map fun c => c.host.randomUUID 0).Nodup) (hub : AgentHub)
    (hhub : hub = afterDeliveries env calls) :
    (admittedId env d.payload = none →
      ∃ err, recordInboundDispatch env d.host d.payload hub = .error err) ∧
    (∀ requestId, admittedId env d.payload = some requestId →
      firstPayload env calls requestId = none →
      ∃ hub', recordInboundDispatch env d.host d.payload hub =
          .ok (hub', ⟨requestId, false, env.sha256 (stableStringify d.payload)⟩) ∧
        Inserted hub hub' requestId (env.sha256 (stableStringify d.payload)) d) ∧
    (∀ requestId first, admittedId env d.payload = some requestId →
      firstPayload env calls requestId = some first →
      (AcceptedAgain env hub requestId d ∨
        ∃ err, recordInboundDispatch env d.host d.payload hub = .error err) ∧
      ((AcceptedAgain env hub requestId d ↔ Same first d.payload) ↔
        (Same first.dropProto d.payload.dropProto → Same first d.payload))) ∧
    Sql.Ends (AgentHubStore.recordInboundDispatch env d.host d.payload) hub
      fun hub' result => ∀ err, result = .error err → hub' = hub := by
  rw [List.map_append, List.map_singleton, List.nodup_append] at hids
  obtain ⟨hcalls, -, hdisjoint⟩ := hids
  have hrecorded : Recorded env calls hub := hhub ▸ afterDeliveries_recorded hne calls hcalls
  have hfresh : hub.receipts.has (d.host.randomUUID 0) = false := by
    cases hhas : hub.receipts.has (d.host.randomUUID 0) with
    | false => rfl
    | true => exact absurd rfl (hdisjoint _ (hrecorded.ids _ hhas) _ (List.mem_singleton_self _))
  refine ⟨fun hnone => recordInboundDispatch_of_none hnone hub d.host, ?_, ?_, ?_⟩
  · intro requestId hadmitted hfirst
    exact recordInboundDispatch_first hadmitted (hrecorded.unknown requestId hfirst) hfresh
  · intro requestId first hadmitted hfirst
    obtain ⟨row, hrow, hhash⟩ := hrecorded.known requestId first hfirst
    obtain ⟨hequal, hconflict⟩ := recordInboundDispatch_later hadmitted hrow hhash (hne _)
    have hheldFirst : Held number first := by
      obtain ⟨c, hc, rfl⟩ := Option.map_eq_some_iff.mp hfirst
      exact hheld c (List.mem_append_left _ (List.mem_of_find?_eq_some hc))
    have hheldNew : Held number d.payload :=
      hheld d (List.mem_append_right _ (List.mem_singleton_self d))
    have htext := stableStringify_eq_iff hheldFirst hheldNew
    have haccepted : AcceptedAgain env hub requestId d ↔
        Same first.dropProto d.payload.dropProto := by
      rw [← htext]
      constructor
      · intro hgiven
        obtain ⟨hub', hrecord, -⟩ := hgiven
        by_contra hdiffer
        rw [hconflict fun heq => hdiffer (hinjective heq)] at hrecord
        exact absurd hrecord (by simp)
      · intro heq
        exact hequal (congrArg env.sha256 heq)
    refine ⟨?_, ?_⟩
    · by_cases hsame : Same first.dropProto d.payload.dropProto
      · exact Or.inl (haccepted.mpr hsame)
      · refine Or.inr ⟨_, hconflict fun heq => hsame (htext.mp (hinjective heq))⟩
    · rw [haccepted]
      constructor
      · intro hiff
        exact hiff.mp
      · intro honly
        exact ⟨honly, same_dropProto first hheldFirst d.payload hheldNew⟩
  · refine (AgentHubStore.recordInboundDispatch_ends env d.host d.payload hub).mono ?_
    rintro hub' result (⟨err, -, hsame⟩ | ⟨a, hok, -⟩) err' herror
    · exact hsame
    · rw [hok] at herror
      exact absurd herror (by simp)

/-- Digests that are injective and not empty. -/
def markedEnv : HubEnv where
  agentId := "shaev"
  sha256 := fun text => "#" ++ text
  hmac := fun _ message => message
  redactSensitiveText := fun text => text

theorem markedEnv_injective : Function.Injective markedEnv.sha256 := by
  intro s t h
  apply String.toList_injective
  have hlist := congrArg String.toList h
  rw [markedEnv, String.toList_append, String.toList_append] at hlist
  exact List.append_cancel_left hlist

theorem markedEnv_nonempty (text : String) : markedEnv.sha256 text ≠ "" := by
  intro h
  have hlist := congrArg String.toList h
  rw [markedEnv, String.toList_append] at hlist
  exact absurd hlist (by simp)

/-- A dispatch with a `__proto__` member. -/
def protoDispatch (value : String) : Json :=
  .object [("requestId", .string "req-1"), ("topicId", .string "topic-1"),
    ("agentId", .string "shaev"), ("__proto__", .string value)]

theorem protoDispatch_held (value : String) : Held id (protoDispatch value) := by
  refine ⟨?_, Js.Json.enumerated_of_names ?_, trivial, trivial, trivial, trivial, trivial⟩
  · show ["requestId", "topicId", "agentId", "__proto__"].Nodup
    decide
  · show ∀ key ∈ ["requestId", "topicId", "agentId", "__proto__"], Js.arrayIndex? key = none
    decide

def protoDelivery (uuid value : String) : Delivery where
  host := ⟨fun _ => 7, fun _ => uuid⟩
  payload := protoDispatch value

/-- The same payload again is accepted again. -/
theorem same_payload_accepted :
    AcceptedAgain markedEnv (afterDeliveries markedEnv [protoDelivery "u0" "a"]) "req-1"
      (protoDelivery "u1" "a") := by
  have hheld : ∀ c ∈ [protoDelivery "u0" "a"] ++ [protoDelivery "u1" "a"],
      Held id c.payload := by
    intro c hc
    rcases List.mem_pair.mp hc with rfl | rfl <;> exact protoDispatch_held "a"
  have hlater := (dispatch_dedup_iff markedEnv id markedEnv_injective markedEnv_nonempty
    [protoDelivery "u0" "a"] (protoDelivery "u1" "a") hheld (by decide) _ rfl).2.2.1 "req-1"
    (protoDispatch "a") (by decide) rfl
  exact (hlater.2.mpr fun _ => Js.Json.Same.refl _).mpr (Js.Json.Same.refl _)

/-- A payload that differs in its `__proto__` member is accepted again. -/
theorem proto_payload_accepted :
    ¬ Same (protoDispatch "a") (protoDispatch "b") ∧
      AcceptedAgain markedEnv (afterDeliveries markedEnv [protoDelivery "u0" "a"]) "req-1"
        (protoDelivery "u1" "b") := by
  constructor
  · intro h
    obtain ⟨w, hw, hsame⟩ := (Js.Json.same_object_iff.mp h).2 ("__proto__", .string "a") (by simp)
    obtain rfl : w = .string "b" := by simpa using hw
    exact absurd hsame (by simp [Same])
  · obtain ⟨row, hrow, hhash⟩ := (afterDeliveries_recorded markedEnv_nonempty
      [protoDelivery "u0" "a"] (by decide)).known "req-1" (protoDispatch "a") rfl
    have hadmitted : admittedId markedEnv (protoDelivery "u1" "b").payload = some "req-1" := by
      decide
    have htext : markedEnv.sha256 (stableStringify (protoDispatch "a")) =
        markedEnv.sha256 (stableStringify (protoDelivery "u1" "b").payload) := by
      decide +kernel
    exact (recordInboundDispatch_later hadmitted hrow hhash (markedEnv_nonempty _)).1 htext

end Kovael.Hub
