import Kovael.Hub.Drain
import Kovael.Hub.Leases

/-!
# What the drain delivers

The invariant of `agentInboxRuns`. `DrainHolds` says it of the tables and of the rows that the
drain has claimed, and `delivering_drainRows` that the loop of the drain keeps it, whatever becomes
of the rows on the way.
-/

namespace Kovael.Hub

open Js (Number OrderedMap Clock Json)
open Js.Base64 (Bytes)

/-! ## What the calls of the hub do -/

section Calls

variable {env : HubEnv} {host : Host} {hub hub' : AgentHub} {id : String} {row : OutboxRow}

theorem markOutboxSent_ok (hrow : hub.outbox.get? id = some row) (hstatus : row.status = .sending)
    (h : markOutboxSent host id hub = .ok hub') :
    hub' = { hub with outbox := hub.outbox.set id (row.acknowledged (host.now 0)) } := by
  have hread : readOutboxSent host id hub = .ok (some (host.now 0)) := by
    simp [readOutboxSent, hrow, hstatus]
  rw [markOutboxSent, hread] at h
  simp only [writeOutboxSent, hrow] at h
  exact (Except.ok.inj h).symm

theorem markOutboxDeliveryFailed_ok {error : String} {retryAt : Option Int} {maxAttempts : Nat}
    (hrow : hub.outbox.get? id = some row)
    (h : markOutboxDeliveryFailed env host id error (retryAt.map .ofInt) (.ofNat maxAttempts) hub
      = .ok hub') :
    ∃ call : FailureCall,
      call.retryAt = (if maxAttempts ≤ row.attempts then none else retryAt) ∧
      hub' = { hub with
        outbox := hub.outbox.set id
          (row.deliveryFailed call (env.redactSensitiveText error) (host.now 0)) } := by
  rw [markOutboxDeliveryFailed, readDeliveryFailed] at h
  split at h
  next => exact absurd h (by simp)
  next call hread =>
    split at hread
    next => exact absurd hread (by simp)
    next =>
      split at hread
      next => exact absurd hread (by simp)
      next =>
        rw [hrow] at hread
        obtain rfl := Except.ok.inj hread
        have hfloor : (Number.ofNat maxAttempts).floor?.getD 0 = maxAttempts :=
          congrArg (Option.getD · 0) (floor_ofInt maxAttempts)
        have hbind : (retryAt.map Number.ofInt).bind Number.floor? = retryAt := by
          cases retryAt with
          | none => rfl
          | some at' => exact floor_ofInt at'
        refine ⟨⟨id, error, if maxAttempts ≤ row.attempts then none else retryAt⟩, rfl, ?_⟩
        rw [← Except.ok.inj h, hfloor, hbind]
        simp only [writeDeliveryFailed, OrderedMap.modify, hrow, Int.ofNat_le]

/-- The reply of a request that has none is a row of its own, under a new id. -/
theorem recordOutcome_filed {requestId kind : String} {payload : DispatchRow → ReplyPayload}
    {settled : DispatchRow → DispatchRow} {receipt : Option String → Json}
    {outboxId : Option String}
    (hno : ∀ id row, hub.outbox.get? id = some row → row.dedupeKey ≠ dedupeKey requestId)
    (h : recordOutcome env host requestId payload settled kind receipt hub
      = .ok (hub', outboxId)) :
    hub'.outbox = hub.outbox ∨ ∃ targetUrl payload',
      hub.outbox.get? (host.randomUUID 0) = none ∧
      hub'.outbox = hub.outbox.set (host.randomUUID 0)
        (newReply env requestId targetUrl payload' (host.now 0)) := by
  rw [recordOutcome] at h
  split at h
  next => exact absurd h (by simp)
  next row hrow =>
    dsimp only at h
    split at h
    next =>
      obtain ⟨hub₁, happ, h⟩ := Js.bind_ok h
      rw [← (Prod.mk.inj (Except.ok.inj h)).1]
      exact Or.inl (appendReceipt_ok happ).2
    next replyUrl _ =>
      obtain ⟨⟨hub₁, id⟩, hup, h⟩ := Js.bind_ok h
      obtain ⟨hub₂, happ, h⟩ := Js.bind_ok h
      rw [← (Prod.mk.inj (Except.ok.inj h)).1, (appendReceipt_ok happ).2]
      rw [upsertOutboxReply] at hup
      split at hup
      next => exact absurd hup (by simp)
      next hfree =>
        split at hup
        next id' row' hfound =>
          obtain ⟨hget, hkey⟩ := byDedupeKey_some hfound
          exact absurd hkey (hno id' row' hget)
        next =>
          rw [← (Prod.mk.inj (Except.ok.inj hup)).1]
          exact Or.inr ⟨replyUrl, payload row, by simpa [OrderedMap.has] using hfree, rfl⟩

theorem markDispatch_filed {requestId : String} {outcome : Outcome} {proofFields : ProofFields}
    {outboxId : Option String}
    (hno : ∀ id row, hub.outbox.get? id = some row → row.dedupeKey ≠ dedupeKey requestId)
    (h : markDispatch env host requestId outcome proofFields hub = .ok (hub', outboxId)) :
    hub'.outbox = hub.outbox ∨ ∃ targetUrl payload',
      hub.outbox.get? (host.randomUUID 0) = none ∧
      hub'.outbox = hub.outbox.set (host.randomUUID 0)
        (newReply env requestId targetUrl payload' (host.now 0)) := by
  cases outcome with
  | succeeded replyContent =>
    rw [markDispatch, markDispatchSucceeded] at h
    exact recordOutcome_filed hno h
  | failed error =>
    rw [markDispatch, markDispatchFailed] at h
    exact recordOutcome_filed hno h

/-- The requests that are recorded after a write of `recordInboundDispatch`. -/
theorem writeInboundDispatch_recorded {call : InboundCall}
    (h : writeInboundDispatch env host call hub = .ok hub') (r : String) :
    hub'.Recorded r → r = call.requestId ∧ call.existing = false ∨ hub.Recorded r := by
  intro hr
  rw [writeInboundDispatch] at h
  split at h
  next =>
    refine Or.inr ?_
    obtain ⟨row, hrow⟩ := hr
    rw [← Except.ok.inj h, OrderedMap.get?_modify] at hrow
    split at hrow
    next heq =>
      obtain ⟨row', hrow', -⟩ := Option.map_eq_some_iff.mp hrow
      exact ⟨row', heq ▸ hrow'⟩
    next => exact ⟨row, hrow⟩
  next hnew =>
    split at h
    next => exact absurd h (by simp)
    next =>
      obtain ⟨row, hrow⟩ := hr
      rw [(appendReceipt_ok h).1] at hrow
      rcases OrderedMap.get?_set_some hrow with ⟨heq, -⟩ | ⟨-, hold⟩
      · exact Or.inl ⟨heq, Bool.eq_false_iff.mpr hnew⟩
      · exact Or.inr ⟨row, hold⟩

/-- The request ids of the hub are trimmed. -/
def AgentHub.Trimmed (hub : AgentHub) : Prop := ∀ r, hub.Recorded r → Js.trim r = r

/-- What a request to the process may do to the hub: the outbox stays, and a runtime is started
for a request that was not recorded before, and is now. -/
structure TookRequest (hub : AgentHub) (handled : Handled) : Prop where
  outbox : handled.hub.outbox = hub.outbox
  recorded : ∀ r, hub.Recorded r → handled.hub.Recorded r
  trimmed : hub.Trimmed → handled.hub.Trimmed
  started : ∀ r payload, hub.Trimmed → handled.started = some (r, payload) →
    ¬ hub.Recorded r ∧ handled.hub.Recorded r

/-- A request that leaves the hub as it is. -/
theorem took_nothing (answers : List Answer) (hub : AgentHub) (inFlight : List String) :
    TookRequest hub ⟨answers, hub, inFlight, none⟩ :=
  ⟨rfl, fun _ h => h, fun h => h, fun _ _ _ h => absurd h (by simp)⟩

theorem took_written {call : InboundCall} {requestId : String}
    (htrim : call.requestId = Js.trim requestId)
    (h : writeInboundDispatch env host call hub = .ok hub') (answers : List Answer)
    (inFlight : List String) :
    TookRequest hub ⟨answers, hub', inFlight, none⟩ := by
  obtain ⟨hkept, houtbox⟩ := writeInboundDispatch_ok h
  refine ⟨houtbox, fun r hr => hkept.recorded hr, fun htrimmed r hr => ?_,
    fun _ _ _ h => absurd h (by simp)⟩
  rcases writeInboundDispatch_recorded h r hr with ⟨heq, -⟩ | hold
  · rw [heq, htrim, Js.trim_trim]
  · exact htrimmed r hold

theorem tookRequest_dispatch {hosts : Nat → Host} (inFlight : List String) (payload : Json) :
    TookRequest hub (dispatchPayload env hosts inFlight hub payload) := by
  rw [dispatchPayload]
  cases hreceive : receive env (hosts 0) payload hub with
  | error answer => exact took_nothing _ hub inFlight
  | ok activation =>
    obtain ⟨requestId, payload', call, rfl, htrim⟩ := receive_ok hreceive
    dsimp only
    cases hwrite : writeInboundDispatch env (hosts 1) call hub with
    | error msg => exact took_nothing _ hub inFlight
    | ok hub₁ =>
      dsimp only
      have hwritten := took_written htrim hwrite
      split
      next => exact hwritten _ _
      next hnew =>
        split
        next => exact hwritten _ _
        next =>
          cases hmark : markDispatchRunning env (hosts 2) requestId hub₁ with
          | error msg => exact hwritten _ _
          | ok hub₂ =>
            obtain ⟨row, hrow, hdispatches, houtbox⟩ := markDispatchRunning_ok hmark
            have htook := hwritten [] inFlight
            have hsame : ∀ r, hub₂.Recorded r → hub₁.Recorded r := by
              intro r hr
              obtain ⟨row', hrow'⟩ := hr
              rw [hdispatches] at hrow'
              rcases OrderedMap.get?_set_some hrow' with ⟨heq, -⟩ | ⟨-, hold⟩
              · exact heq ▸ ⟨row, hrow⟩
              · exact ⟨row', hold⟩
            refine ⟨houtbox.trans htook.outbox,
              fun r hr => recorded_of_set hdispatches (htook.recorded r hr),
              fun htrimmed r hr => htook.trimmed htrimmed r (hsame r hr), ?_⟩
            intro r payload'' htrimmed hstarted
            obtain ⟨rfl, -⟩ := Prod.mk.inj (Option.some.inj hstarted)
            -- it is recorded, hence trimmed, and so it is the request that was inserted
            have hrecorded : hub₁.Recorded requestId := ⟨row, hrow⟩
            have hself : call.requestId = requestId :=
              htrim.trans (htook.trimmed htrimmed requestId hrecorded)
            have hinserts := writeInboundDispatch_inserts hwrite (Bool.eq_false_iff.mpr hnew)
            exact ⟨hself ▸ hinserts.1, recorded_of_set hdispatches hrecorded⟩

theorem tookRequest_handle {hosts : Nat → Host} (opening : Opening) (inFlight : List String)
    (req : InboxRequest) : TookRequest hub (handleInbox env opening hosts inFlight hub req) := by
  rw [handleInbox]
  split
  next => exact took_nothing _ hub inFlight
  next =>
    split
    next => exact took_nothing _ hub inFlight
    next =>
      split
      next => exact took_nothing _ hub inFlight
      next => exact took_nothing _ hub inFlight
      next => exact tookRequest_dispatch inFlight _

end Calls

/-! ## The invariant -/

namespace AgentInbox

/-- How often a reply was posted. -/
def posted (s : AgentInbox) (id : String) : Nat := s.posts.countP fun post => post.outboxId = id

/-- The webhook has accepted the reply. -/
def Acknowledged (s : AgentInbox) (id : String) : Prop :=
  ∃ status text, (id, FetchOutcome.response status text) ∈ s.answers ∧ 200 ≤ status ∧ status ≤ 299

/-- The webhook has refused the reply for good. -/
def Refused (s : AgentInbox) (id : String) : Prop :=
  ∃ status text, (id, FetchOutcome.response status text) ∈ s.answers ∧
    status ∉ retryableReplyStatus ∧ ¬ (200 ≤ status ∧ status ≤ 299)

def runtimes (s : AgentInbox) : List (String × Json) :=
  (s.process.map InboxProcess.runtimes).getD []

/-- The rows to come of the drain. -/
def rest (s : AgentInbox) : List (String × OutboxRow) :=
  match s.process.bind InboxProcess.drain with
  | none => []
  | some d => d.rest

/-- The rows that the drain has claimed and not settled. -/
def batch (s : AgentInbox) : List (String × OutboxRow) :=
  match s.process.bind InboxProcess.drain with
  | none => []
  | some d => d.current :: d.rest

end AgentInbox

/-- The URL of a post is one of the machine itself. -/
def Guarded (cfg : DrainConfig) (post : Post) : Prop :=
  ∃ u, Js.Url.parse cfg.toAscii post.url = some u ∧ (u.scheme = "http" ∨ u.scheme = "https") ∧
    String.ofList (Chair.stripBrackets (Js.Url.hostname u).toList) ∈ loopbackReplyHosts

/-- What holds of a row of the outbox; `batched` says that the drain has it. -/
structure RowHolds (cfg : DrainConfig) (s : AgentInbox) (batched : Prop) (id : String)
    (row : OutboxRow) : Prop where
  kind : row.kind = .reply
  attempted : s.posted id ≤ row.attempts
  bounded : row.attempts ≤ cfg.outboxMaxAttempts + s.abandoned
  /-- A lease that nobody has any more was abandoned. -/
  left : row.status = .sending → ¬ batched → row.attempts + 1 ≤ cfg.outboxMaxAttempts + s.abandoned
  waiting : row.status = .pending ∨ row.status = .failed →
    row.attempts + 1 ≤ cfg.outboxMaxAttempts ∧
      ∀ at' ∈ row.nextAttemptAt, at' ≤ row.updatedAt + 5000
  sent : row.status = .sent → s.Acknowledged id
  dead : row.status = .dead → cfg.outboxMaxAttempts ≤ row.attempts ∨ s.Refused id
  stamped : row.updatedAt ≤ s.now

/-- What holds of the process and of the tables, where the drain has the rows of `batch`. -/
structure DrainHolds (cfg : DrainConfig) (s : AgentInbox) (batch : List (String × OutboxRow)) :
    Prop where
  trimmed : s.hub.Trimmed
  filed : ∀ id row, s.hub.outbox.get? id = some row →
    ∃ r, row.dedupeKey = dedupeKey r ∧ s.hub.Recorded r
  /-- A runtime that has not ended has no reply. -/
  running : ∀ x ∈ s.runtimes, s.hub.Recorded x.1 ∧
    ∀ id row, s.hub.outbox.get? id = some row → row.dedupeKey ≠ dedupeKey x.1
  once : (s.runtimes.map Prod.fst).Nodup
  claimed : ∀ e ∈ batch, s.hub.outbox.get? e.1 = some e.2 ∧ e.2.status = .sending
  distinct : (batch.map Prod.fst).Nodup
  rows : ∀ id row, s.hub.outbox.get? id = some row →
    RowHolds cfg s (id ∈ batch.map Prod.fst) id row
  guarded : ∀ post ∈ s.posts, Guarded cfg post

/-- The rows that are not yet posted since they were claimed. -/
def Unposted (s : AgentInbox) (rows : List (String × OutboxRow)) : Prop :=
  ∀ e ∈ rows, s.posted e.1 < e.2.attempts

/-- What holds between the events. -/
structure Delivering (cfg : DrainConfig) (s : AgentInbox) : Prop where
  holds : DrainHolds cfg s s.batch
  unposted : Unposted s s.rest

section Steps

variable {env : HubEnv} {cfg : DrainConfig} {s t : AgentInbox} {io : DrainIO}
  {batch rest : List (String × OutboxRow)} {id : String} {row row' : OutboxRow}

/-- Later: more was answered and abandoned, and the reply was posted as often. -/
structure Later (s t : AgentInbox) : Prop where
  posts : ∀ id, t.posted id = s.posted id
  answers : ∀ a ∈ s.answers, a ∈ t.answers
  abandoned : s.abandoned ≤ t.abandoned
  now : s.now ≤ t.now

/-- What is posted, answered, abandoned and the time are the same. -/
theorem Later.same (s : AgentInbox) (hub : AgentHub) (process : Option InboxProcess) :
    Later s { s with hub, process } :=
  ⟨fun _ => rfl, fun _ h => h, Nat.le_refl _, Int.le_refl _⟩

theorem RowHolds.later {batched batched' : Prop} (h : RowHolds cfg s batched id row)
    (hlater : Later s t) (hbatched : batched → batched' ∨ s.abandoned < t.abandoned) :
    RowHolds cfg t batched' id row := by
  have habandoned := hlater.abandoned
  have hbounded := h.bounded
  refine ⟨h.kind, ?_, by omega, fun hsending hout => ?_, h.waiting, fun hsent => ?_,
    fun hdead => ?_, Int.le_trans h.stamped hlater.now⟩
  · rw [hlater.posts]
    exact h.attempted
  · by_cases hin : batched
    · have hmore := (hbatched hin).resolve_left hout
      omega
    · have hleft := h.left hsending hin
      omega
  · obtain ⟨status, text, hmem, hok⟩ := h.sent hsent
    exact ⟨status, text, hlater.answers _ hmem, hok⟩
  · refine (h.dead hdead).imp_right fun hrefused => ?_
    obtain ⟨status, text, hmem, hok⟩ := hrefused
    exact ⟨status, text, hlater.answers _ hmem, hok⟩

/-- The tables stay, and the rows of the drain too. -/
theorem DrainHolds.later (h : DrainHolds cfg s batch) (hhub : t.hub = s.hub)
    (hruntimes : t.runtimes.Sublist s.runtimes) (hposts : t.posts = s.posts)
    (hlater : Later s t) : DrainHolds cfg t batch := by
  refine ⟨hhub ▸ h.trimmed, hhub ▸ h.filed, fun x hx => ?_,
    h.once.sublist (hruntimes.map Prod.fst), hhub ▸ h.claimed, h.distinct,
    fun id row hrow => ?_, hposts ▸ h.guarded⟩
  · rw [hhub]
    exact h.running x (hruntimes.subset hx)
  · rw [hhub] at hrow
    exact (h.rows id row hrow).later hlater Or.inl

/-- The rows of a drain that is given up stay leased. -/
theorem DrainHolds.left (h : DrainHolds cfg s batch) (hhub : t.hub = s.hub)
    (hruntimes : t.runtimes.Sublist s.runtimes) (hposts : t.posts = s.posts)
    (hlater : Later s t) (habandoned : batch ≠ [] → s.abandoned < t.abandoned) :
    DrainHolds cfg t [] := by
  refine ⟨hhub ▸ h.trimmed, hhub ▸ h.filed, fun x hx => ?_,
    h.once.sublist (hruntimes.map Prod.fst), fun e he => absurd he List.not_mem_nil,
    List.nodup_nil, fun id row hrow => ?_, hposts ▸ h.guarded⟩
  · rw [hhub]
    exact h.running x (hruntimes.subset hx)
  · rw [hhub] at hrow
    refine (h.rows id row hrow).later hlater fun hin => Or.inr (habandoned fun hnil => ?_)
    rw [hnil] at hin
    exact absurd hin List.not_mem_nil

/-- A row of the drain is settled. -/
theorem DrainHolds.settle (h : DrainHolds cfg s ((id, row) :: rest))
    (hkey : row'.dedupeKey = row.dedupeKey)
    (hrow' : RowHolds cfg s False id row') :
    DrainHolds cfg { s with hub := { s.hub with outbox := s.hub.outbox.set id row' } } rest := by
  have hcurrent := (h.claimed (id, row) (List.mem_cons_self ..)).1
  have hdistinct := h.distinct
  rw [List.map_cons, List.nodup_cons] at hdistinct
  have hkeys : ∀ id' row'', (s.hub.outbox.set id row').get? id' = some row'' →
      ∃ old, s.hub.outbox.get? id' = some old ∧ row''.dedupeKey = old.dedupeKey := by
    intro id' row'' hget
    rcases OrderedMap.get?_set_some hget with ⟨rfl, rfl⟩ | ⟨-, hold⟩
    · exact ⟨row, hcurrent, hkey⟩
    · exact ⟨row'', hold, rfl⟩
  refine ⟨h.trimmed, fun id' row'' hget => ?_, fun x hx => ?_, h.once, fun e he => ?_,
    hdistinct.2, fun id' row'' hget => ?_, h.guarded⟩
  · obtain ⟨old, hold, heq⟩ := hkeys id' row'' hget
    rw [heq]
    exact h.filed id' old hold
  · obtain ⟨hrecorded, hnone⟩ := h.running x hx
    refine ⟨hrecorded, fun id' row'' hget => ?_⟩
    obtain ⟨old, hold, heq⟩ := hkeys id' row'' hget
    rw [heq]
    exact hnone id' old hold
  · obtain ⟨hget, hsending⟩ := h.claimed e (List.mem_cons_of_mem _ he)
    refine ⟨?_, hsending⟩
    show (s.hub.outbox.set id row').get? e.1 = some e.2
    have hne : e.1 ≠ id := by
      intro heq
      exact hdistinct.1 (List.mem_map.mpr ⟨e, he, heq⟩)
    rw [OrderedMap.get?_set_ne _ _ hne]
    exact hget
  · have hsame : Later s { s with hub := { s.hub with outbox := s.hub.outbox.set id row' } } :=
      .same ..
    rcases OrderedMap.get?_set_some hget with ⟨rfl, rfl⟩ | ⟨hne, hold⟩
    · exact hrow'.later hsame False.elim
    · refine (h.rows id' row'' hold).later hsame fun hin => Or.inl ?_
      rw [List.map_cons, List.mem_cons] at hin
      exact hin.resolve_left hne

theorem permanent_not_retryable {status : Nat} (h : status ∈ permanentReplyStatus) :
    status ∉ retryableReplyStatus := by
  simp only [permanentReplyStatus, List.mem_cons, List.not_mem_nil, or_false] at h
  rcases h with rfl | rfl | rfl | rfl | rfl <;> simp [retryableReplyStatus]

/-- Where there is a next attempt, there is one left, and it is soon. -/
theorem retryAt_some {now at' : Int} {err : DeliveryError}
    (h : retryAt cfg now row err = some at') :
    row.attempts + 1 ≤ cfg.outboxMaxAttempts ∧ at' ≤ now + 5000 := by
  rw [retryAt] at h
  by_cases hpermanent : err.status.any (· ∈ permanentReplyStatus)
  · rw [if_pos hpermanent] at h
    exact absurd h (by simp)
  rw [if_neg hpermanent] at h
  by_cases hspent : cfg.outboxMaxAttempts ≤ row.attempts
  · rw [if_pos hspent] at h
    exact absurd h (by simp)
  rw [if_neg hspent, Option.ite_none_right_eq_some] at h
  rw [← Option.some.inj h.2]
  omega

/-- Where there is none, the attempts are spent or the webhook has refused the reply. -/
theorem retryAt_none {now : Int} {err : DeliveryError} (h : retryAt cfg now row err = none) :
    cfg.outboxMaxAttempts ≤ row.attempts ∨
      ∃ status, err.status = some status ∧ status ∉ retryableReplyStatus := by
  rw [retryAt] at h
  by_cases hspent : cfg.outboxMaxAttempts ≤ row.attempts
  · exact Or.inl hspent
  refine Or.inr ?_
  cases hstatus : err.status with
  | none => simp [hstatus, hspent] at h
  | some status =>
    refine ⟨status, rfl, fun hretryable => ?_⟩
    have hpermanent : status ∉ permanentReplyStatus := fun hmem =>
      permanent_not_retryable hmem hretryable
    simp [hstatus, hspent, hpermanent, hretryable] at h

/-- What a failure leaves of the row. -/
theorem RowHolds.failed {call : FailureCall} {lastError : String} {err : DeliveryError}
    (h : RowHolds cfg s True id row)
    (herr : ∀ status, err.status = some status → status ∉ retryableReplyStatus → s.Refused id)
    (hcall : call.retryAt
      = if cfg.outboxMaxAttempts ≤ row.attempts then none else retryAt cfg s.now row err) :
    RowHolds cfg s False id (row.deliveryFailed call lastError s.now) := by
  refine ⟨h.kind, h.attempted, h.bounded, fun habsurd => ?_, fun hwaits => ?_,
    fun habsurd => ?_, fun hdead => ?_, Int.le_refl _⟩
  · rcases deliveryFailed_status row call lastError s.now with heq | heq <;>
      exact AgentOutboxStatus.noConfusion (heq.symm.trans habsurd)
  · -- it waits, so that there is a time for the next attempt
    cases hretry : call.retryAt with
    | none => simp [OutboxRow.deliveryFailed, hretry] at hwaits
    | some at' =>
      rw [hretry] at hcall
      split at hcall
      next => exact absurd hcall (by simp)
      next =>
        obtain ⟨hleft, hsoon⟩ := retryAt_some hcall.symm
        refine ⟨hleft, fun at'' hat => ?_⟩
        rw [← Option.some.inj (hretry.symm.trans hat)]
        exact hsoon
  · rcases deliveryFailed_status row call lastError s.now with heq | heq <;>
      exact AgentOutboxStatus.noConfusion (heq.symm.trans habsurd)
  · cases hretry : call.retryAt with
    | some at' => simp [OutboxRow.deliveryFailed, hretry] at hdead
    | none =>
      rw [hretry] at hcall
      split at hcall
      next hspent => exact Or.inl hspent
      next =>
        refine (retryAt_none hcall.symm).imp_right fun hrefused => ?_
        obtain ⟨status, hstatus, hfinal⟩ := hrefused
        exact herr status hstatus hfinal

/-- A delivery that failed: the row waits for its retry, or is dead for a reason. -/
theorem DrainHolds.fails (h : DrainHolds cfg s ((id, row) :: rest)) {err : DeliveryError}
    (herr : ∀ status, err.status = some status → status ∉ retryableReplyStatus → s.Refused id)
    (hfails : s.deliveryFails env cfg io id row err = some t) :
    DrainHolds cfg t rest ∧ t.posts = s.posts ∧ t.process = s.process := by
  have hcurrent : s.hub.outbox.get? id = some row := (h.claimed _ (List.mem_cons_self ..)).1
  have hrow := h.rows id row hcurrent
  rw [AgentInbox.deliveryFails] at hfails
  split at hfails
  next => exact absurd hfails (by simp)
  next =>
    split at hfails
    next => exact absurd hfails (by simp)
    next hub' hmark =>
      obtain ⟨call, hcall, rfl⟩ := markOutboxDeliveryFailed_ok hcurrent hmark
      rw [← Option.some.inj hfails]
      refine ⟨h.settle rfl ?_, rfl, rfl⟩
      rw [List.map_cons, eq_true (List.mem_cons_self ..)] at hrow
      exact hrow.failed herr hcall

/-- A delivery that was acknowledged: the row is sent, or is tried again. -/
theorem DrainHolds.delivers (h : DrainHolds cfg s ((id, row) :: rest)) (hack : s.Acknowledged id)
    (hdelivers : s.delivers env cfg io id row = some t) :
    DrainHolds cfg t rest ∧ t.posts = s.posts ∧ t.process = s.process := by
  obtain ⟨hcurrent, hsending⟩ := h.claimed _ (List.mem_cons_self ..)
  have hrow := h.rows id row hcurrent
  rw [AgentInbox.delivers] at hdelivers
  split at hdelivers
  next hub' hmark =>
    split at hmark
    next => exact absurd hmark (by simp)
    next =>
      obtain rfl := markOutboxSent_ok hcurrent hsending hmark
      rw [← Option.some.inj hdelivers]
      refine ⟨h.settle rfl ?_, rfl, rfl⟩
      refine ⟨hrow.kind, hrow.attempted, hrow.bounded, fun habsurd => ?_, fun hwaits => ?_,
        fun _ => hack, fun hdead => ?_, Int.le_refl _⟩
      · exact AgentOutboxStatus.noConfusion habsurd
      · rcases hwaits with habsurd | habsurd <;> exact AgentOutboxStatus.noConfusion habsurd
      · exact AgentOutboxStatus.noConfusion hdead
  next message _ =>
    exact h.fails (fun status hstatus => absurd hstatus (by simp)) hdelivers

theorem runtimes_of {p : InboxProcess} (hp : s.process = some p) : s.runtimes = p.runtimes := by
  rw [AgentInbox.runtimes, hp]
  rfl

/-- The rows of the drain, while the drain is the same. -/
theorem batch_of_drain
    (h : t.process.bind InboxProcess.drain = s.process.bind InboxProcess.drain) :
    t.batch = s.batch ∧ t.rest = s.rest := by
  unfold AgentInbox.batch AgentInbox.rest
  rw [h]
  exact ⟨rfl, rfl⟩

theorem runtimes_withDrain (drain : Option Draining) (s : AgentInbox) :
    (s.withDrain drain).runtimes = s.runtimes := by
  unfold AgentInbox.runtimes AgentInbox.withDrain
  cases s.process <;> rfl

theorem batch_withDrain {p : InboxProcess} (hp : s.process = some p) (drain : Option Draining) :
    (s.withDrain drain).batch = (drain.map fun d => d.current :: d.rest).getD [] ∧
      (s.withDrain drain).rest = (drain.map Draining.rest).getD [] := by
  unfold AgentInbox.batch AgentInbox.rest AgentInbox.withDrain
  rw [hp]
  cases drain <;> exact ⟨rfl, rfl⟩

/-- A drain that is given up. -/
theorem delivering_abandon {p : InboxProcess} (hp : s.process = some p)
    (h : DrainHolds cfg s batch) :
    Delivering cfg s.abandon := by
  obtain ⟨hbatch, hrest⟩ := batch_withDrain hp none
  have hnil : s.abandon.batch = [] := hbatch
  have hnone : s.abandon.rest = [] := hrest
  refine ⟨?_, ?_⟩
  · rw [hnil]
    exact h.left rfl (runtimes_withDrain none s ▸ List.Sublist.refl _) rfl
      ⟨fun _ => rfl, fun _ h => h, Nat.le_succ _, Int.le_refl _⟩ (fun _ => Nat.lt_succ_self _)
  · rw [hnone]
    exact fun e he => absurd he List.not_mem_nil

/-- Up to `fetch` a reply is refused for its URL alone. -/
theorem sendOutboxReply_cases (now : Int) (iv : Bytes) (id : String) (hkind : row.kind = .reply) :
    (∃ post, sendOutboxReply cfg now iv id row = .ok (some post) ∧ post.outboxId = id ∧
      Guarded cfg post) ∨
    ∃ err, sendOutboxReply cfg now iv id row = .error err ∧ err.status = none := by
  rw [sendOutboxReply, if_neg (not_not_intro hkind)]
  split
  next => exact Or.inr ⟨_, rfl, rfl⟩
  next =>
    cases hassert : assertLoopbackHttpUrl cfg.toAscii row.targetUrl with
    | error err =>
      refine Or.inr ⟨err, rfl, ?_⟩
      rw [assertLoopbackHttpUrl] at hassert
      split at hassert
      next => rw [← Except.error.inj hassert]
      next =>
        split at hassert
        next => rw [← Except.error.inj hassert]
        next =>
          split at hassert
          next => rw [← Except.error.inj hassert]
          next => exact absurd hassert (by simp)
    | ok _ =>
      refine Or.inl ⟨_, rfl, rfl, ?_⟩
      rw [assertLoopbackHttpUrl] at hassert
      split at hassert
      next => exact absurd hassert (by simp)
      next u hparse =>
        split at hassert
        next => exact absurd hassert (by simp)
        next hscheme =>
          split at hassert
          next => exact absurd hassert (by simp)
          next hhost =>
            refine ⟨u, hparse, ?_, not_not.mp hhost⟩
            rcases Classical.em (u.scheme = "http") with hhttp | hhttp
            · exact Or.inl hhttp
            · exact Or.inr (not_not.mp fun hhttps => hscheme ⟨hhttp, hhttps⟩)

theorem posted_append (s : AgentInbox) (post : Post) (id : String) :
    ({ s with posts := s.posts ++ [post] } : AgentInbox).posted id
      = s.posted id + if post.outboxId = id then 1 else 0 := by
  unfold AgentInbox.posted
  rw [List.countP_append, List.countP_singleton]
  simp only [decide_eq_true_iff]

/-- The reply of a claimed row is posted. -/
theorem delivering_post {p : InboxProcess} {post : Post} (hp : s.process = some p)
    (h : DrainHolds cfg s ((id, row) :: rest)) (hunposted : Unposted s ((id, row) :: rest))
    (hid : post.outboxId = id) (hguarded : Guarded cfg post) :
    Delivering cfg { s.withDrain (some ⟨(id, row), rest⟩) with posts := s.posts ++ [post] } := by
  obtain ⟨hbatch, hrest⟩ := batch_withDrain hp (some ⟨(id, row), rest⟩)
  have hposted : ∀ id', ({ s.withDrain (some ⟨(id, row), rest⟩) with
      posts := s.posts ++ [post] } : AgentInbox).posted id'
        = s.posted id' + if id = id' then 1 else 0 := fun id' => hid ▸ posted_append s post id'
  have hdistinct := h.distinct
  rw [List.map_cons, List.nodup_cons] at hdistinct
  refine ⟨?_, ?_⟩
  · show DrainHolds cfg _ (s.withDrain (some ⟨(id, row), rest⟩)).batch
    rw [hbatch]
    have hruntimes := runtimes_withDrain (some ⟨(id, row), rest⟩) s
    refine ⟨h.trimmed, h.filed, ?_, ?_, h.claimed, h.distinct, fun id' row' hget => ?_,
      fun post' hpost' => ?_⟩
    · show ∀ x ∈ (s.withDrain (some ⟨(id, row), rest⟩)).runtimes, _
      rw [hruntimes]
      exact h.running
    · show ((s.withDrain (some ⟨(id, row), rest⟩)).runtimes.map Prod.fst).Nodup
      rw [hruntimes]
      exact h.once
    · have hrow := h.rows id' row' hget
      refine ⟨hrow.kind, ?_, hrow.bounded, hrow.left, hrow.waiting, hrow.sent, hrow.dead,
        hrow.stamped⟩
      rw [hposted]
      split
      next heq =>
        subst heq
        have hcurrent := (h.claimed _ (List.mem_cons_self ..)).1
        have hsame : row = row' := Option.some.inj (hcurrent.symm.trans hget)
        have hlt : s.posted id < row.attempts := hunposted _ (List.mem_cons_self ..)
        rw [← hsame]
        exact hlt
      next => exact hrow.attempted
    · rcases List.mem_append.mp hpost' with hold | hnew
      · exact h.guarded post' hold
      · exact List.mem_singleton.mp hnew ▸ hguarded
  · show Unposted _ (s.withDrain (some ⟨(id, row), rest⟩)).rest
    rw [hrest]
    intro e he
    have hne : id ≠ e.1 := by
      intro heq
      exact hdistinct.1 (List.mem_map.mpr ⟨e, he, heq.symm⟩)
    rw [hposted, if_neg hne]
    exact hunposted e (List.mem_cons_of_mem _ he)

/-- The loop at a reply that is refused before its `fetch`. -/
theorem drainRows_error {err : DeliveryError}
    (hsend : sendOutboxReply cfg s.now io.iv id row = .error err) :
    s.drainRows env cfg io ((id, row) :: rest)
      = (s.deliveryFails env cfg io id row err).elim s.abandon
          fun s => s.drainRows env cfg io rest := by
  rw [AgentInbox.drainRows, hsend]
  dsimp only
  cases s.deliveryFails env cfg io id row err <;> rfl

/-- The loop of the drain, by induction on the rows that it has. -/
theorem delivering_drainRows {p : InboxProcess} : ∀ (rows : List (String × OutboxRow))
    {s : AgentInbox}, s.process = some p → DrainHolds cfg s rows → Unposted s rows →
    Delivering cfg (s.drainRows env cfg io rows)
  | [], s, hp, h, _ => by
    obtain ⟨hbatch, hrest⟩ := batch_withDrain hp none
    rw [AgentInbox.drainRows]
    refine ⟨?_, ?_⟩
    · rw [hbatch]
      exact h.later rfl (runtimes_withDrain none s ▸ List.Sublist.refl _) rfl
        (.same ..)
    · rw [hrest]
      exact fun e he => absurd he List.not_mem_nil
  | (id, row) :: rest, s, hp, h, hunposted => by
    have hrow := h.rows id row (h.claimed _ (List.mem_cons_self ..)).1
    have hunposted' : ∀ {t : AgentInbox}, t.posts = s.posts → Unposted t rest := by
      intro t hposts e he
      show t.posts.countP _ < _
      rw [hposts]
      exact hunposted e (List.mem_cons_of_mem _ he)
    rcases sendOutboxReply_cases s.now io.iv id hrow.kind with
      ⟨post, hsend, hid, hguarded⟩ | ⟨err, hsend, hstatus⟩
    · rw [AgentInbox.drainRows, hsend]
      exact delivering_post hp h hunposted hid hguarded
    · rw [drainRows_error hsend]
      cases hfails : s.deliveryFails env cfg io id row err with
      | none => exact delivering_abandon hp h
      | some t =>
        obtain ⟨hholds, hposts, hprocess⟩ := h.fails
          (fun status hsome => absurd (hstatus.symm.trans hsome) (by simp)) hfails
        exact delivering_drainRows rest (hprocess.trans hp) hholds (hunposted' hposts)

/-- What a claim leaves of a row that was due. -/
theorem RowHolds.claim {staleBefore : Int} (h : RowHolds cfg s False id row)
    (hdue : row.due s.now staleBefore = true) :
    RowHolds cfg s True id (row.claim s.now) := by
  have hattempted := h.attempted
  have hbounded : row.attempts + 1 ≤ cfg.outboxMaxAttempts + s.abandoned := by
    simp only [OutboxRow.due, Bool.or_eq_true, Bool.and_eq_true, decide_eq_true_iff] at hdue
    rcases hdue with ⟨hwaits, -⟩ | ⟨hsending, -⟩
    · have hleft := (h.waiting hwaits).1
      omega
    · exact h.left hsending fun habsurd => habsurd
  refine ⟨h.kind, ?_, hbounded, fun _ hout => absurd trivial hout, fun hwaits => ?_,
    fun hsent => ?_, fun hdead => ?_, Int.le_refl _⟩
  · show s.posted id ≤ row.attempts + 1
    omega
  · rcases hwaits with habsurd | habsurd <;> exact AgentOutboxStatus.noConfusion habsurd
  · exact AgentOutboxStatus.noConfusion hsent
  · exact AgentOutboxStatus.noConfusion hdead

/-- What the drain claims is its own, and not yet posted. -/
theorem claimed_holds {hub : AgentHub} {rows : List (String × OutboxRow)}
    (hholds : DrainHolds cfg s [])
    (hclaim : claimDueOutbox (standing s.now fun _ => "") (.ofNat 10) (.ofNat cfg.outboxLeaseMs)
      s.hub = .ok (hub, rows)) :
    DrainHolds cfg { s with hub } rows ∧ Unposted { s with hub } rows := by
  obtain ⟨hdispatches, hget, hrows, hnodup, -⟩ := claimDueOutbox_ok hclaim
  have hmem := mem_claimed_iff hclaim
  -- what is claimed was there, and is of the same request
  have hkeys : ∀ id row, hub.outbox.get? id = some row →
      ∃ old, s.hub.outbox.get? id = some old ∧ row.dedupeKey = old.dedupeKey := by
    intro id row hrow
    rw [hget] at hrow
    split at hrow
    next =>
      obtain ⟨old, hold, rfl⟩ := Option.map_eq_some_iff.mp hrow
      exact ⟨old, hold, rfl⟩
    next => exact ⟨row, hrow, rfl⟩
  have hrecorded : ∀ r, hub.Recorded r ↔ s.hub.Recorded r := by
    intro r
    rw [AgentHub.Recorded, AgentHub.Recorded, hdispatches]
  have hclaimed : ∀ e ∈ rows, hub.outbox.get? e.1 = some e.2 ∧ ∃ old,
      s.hub.outbox.get? e.1 = some old ∧ e.2 = old.claim s.now := by
    intro e he
    obtain ⟨hin, hrow⟩ := (hrows e.1 e.2).mp he
    rw [hget, if_pos hin] at hrow
    obtain ⟨old, hold, heq⟩ := Option.map_eq_some_iff.mp hrow
    refine ⟨?_, old, hold, heq.symm⟩
    rw [hget, if_pos hin]
    exact hrow
  refine ⟨⟨?_, ?_, ?_, hholds.once, ?_, hnodup, ?_, hholds.guarded⟩, ?_⟩
  · exact fun r hr => hholds.trimmed r ((hrecorded r).mp hr)
  · intro id row hrow
    obtain ⟨old, hold, heq⟩ := hkeys id row hrow
    obtain ⟨r, hr, hrec⟩ := hholds.filed id old hold
    exact ⟨r, heq.trans hr, (hrecorded r).mpr hrec⟩
  · intro x hx
    obtain ⟨hrec, hno⟩ := hholds.running x hx
    refine ⟨(hrecorded x.1).mpr hrec, fun id row hrow => ?_⟩
    obtain ⟨old, hold, heq⟩ := hkeys id row hrow
    rw [heq]
    exact hno id old hold
  · intro e he
    obtain ⟨hrow, old, -, heq⟩ := hclaimed e he
    exact ⟨hrow, heq ▸ rfl⟩
  · intro id row hrow
    have hsame : Later s { s with hub } :=
      .same ..
    change hub.outbox.get? id = some row at hrow
    rw [hget] at hrow
    split at hrow
    next hin =>
      obtain ⟨old, hold, rfl⟩ := Option.map_eq_some_iff.mp hrow
      obtain ⟨old', hold', hdue⟩ := due_of_mem_dueIds hin
      obtain rfl := Option.some.inj (hold.symm.trans hold')
      have hrow := hholds.rows id old hold
      rw [List.map_nil, eq_false List.not_mem_nil] at hrow
      exact (hrow.claim hdue).later hsame fun _ => Or.inl ((hmem id).mpr hin)
    next hout =>
      exact (hholds.rows id row hrow).later hsame fun hin => absurd hin List.not_mem_nil
  · intro e he
    obtain ⟨-, old, hold, heq⟩ := hclaimed e he
    have hattempted := (hholds.rows e.1 old hold).attempted
    rw [heq]
    exact Nat.lt_succ_of_le hattempted

/-- A tick of the drain. -/
theorem delivering_tick {p : InboxProcess} (hp : s.process = some p) (h : Delivering cfg s) :
    Delivering cfg (s.tick env cfg io) := by
  rw [AgentInbox.tick]
  split
  next => exact h
  next hidle =>
    have hnone : p.drain = none := by
      rw [not_or, hp] at hidle
      simpa using hidle.1
    have hbatch : s.batch = [] := by
      rw [AgentInbox.batch, hp, Option.bind_some, hnone]
    have hholds := h.holds
    rw [hbatch] at hholds
    split
    next => exact h
    next hub rows hclaim =>
      obtain ⟨hclaimed, hunposted⟩ := claimed_holds hholds hclaim
      exact delivering_drainRows rows hp hclaimed hunposted

/-- What follows the end of a `fetch`, which was heard. -/
theorem DrainHolds.settles (h : DrainHolds cfg s ((id, row) :: rest)) {outcome : FetchOutcome}
    (hheard : (id, outcome) ∈ s.answers)
    (hsettles : s.settles env cfg io id row outcome = some t) :
    DrainHolds cfg t rest ∧ t.posts = s.posts ∧ t.process = s.process := by
  rw [AgentInbox.settles] at hsettles
  cases outcome with
  | failed message => exact h.fails (fun status hstatus => absurd hstatus (by simp)) hsettles
  | response status text =>
    by_cases hok : 200 ≤ status ∧ status ≤ 299
    · rw [FetchOutcome.delivered, if_pos hok] at hsettles
      exact h.delivers ⟨status, text, hheard, hok⟩ hsettles
    · rw [FetchOutcome.delivered, if_neg hok] at hsettles
      refine h.fails (fun status' hstatus hfinal => ?_) hsettles
      obtain rfl := Option.some.inj hstatus
      exact ⟨status, text, hheard, hfinal, hok⟩

/-- The drain has heard how its `fetch` ended. -/
theorem heard_holds {p : InboxProcess} {d : Draining} (outcome : FetchOutcome)
    (hp : s.process = some p) (hd : p.drain = some d) (h : Delivering cfg s) :
    DrainHolds cfg { s with answers := s.answers ++ [(d.current.1, outcome)] }
      (d.current :: d.rest) := by
  have hbatch : s.batch = d.current :: d.rest := by
    rw [AgentInbox.batch, hp, Option.bind_some, hd]
  have hholds := h.holds
  rw [hbatch] at hholds
  exact hholds.later rfl (List.Sublist.refl _) rfl
    ⟨fun _ => rfl, fun a ha => List.mem_append_left _ ha, Nat.le_refl _, Int.le_refl _⟩

/-- A `fetch` of the drain ends. -/
theorem delivering_fetchEnds {p : InboxProcess} {d : Draining} {outcome : FetchOutcome}
    (hp : s.process = some p) (hd : p.drain = some d) (h : Delivering cfg s) :
    Delivering cfg (s.fetchEnds env cfg outcome io d) := by
  have hrest : s.rest = d.rest := by
    rw [AgentInbox.rest, hp, Option.bind_some, hd]
  have hheard := heard_holds outcome hp hd h
  rw [AgentInbox.fetchEnds]
  split
  next t hsettles =>
    obtain ⟨hholds, hposts, hprocess⟩ :=
      hheard.settles (List.mem_append_right _ (List.mem_singleton_self _)) hsettles
    refine delivering_drainRows d.rest (hprocess.trans hp) hholds fun e he => ?_
    show t.posts.countP _ < _
    rw [hposts]
    exact h.unposted e (hrest ▸ he)
  next => exact delivering_abandon hp hheard

/-- A request to the process. -/
theorem delivering_deliver {p : InboxProcess} {opening : Opening} {uuids : Nat → Nat → String}
    {req : InboxRequest} (hp : s.process = some p) (h : Delivering cfg s) :
    Delivering cfg (s.deliver env opening uuids req p) := by
  have htook : TookRequest s.hub (handleInbox env opening (fun i => standing s.now (uuids i))
      p.inFlight s.hub req) := tookRequest_handle opening p.inFlight req
  rw [AgentInbox.deliver]
  generalize handleInbox env opening (fun i => standing s.now (uuids i)) p.inFlight s.hub req
    = handled at htook
  have hholds := h.holds
  obtain ⟨hbatch, hrest⟩ : AgentInbox.batch { s with
      hub := handled.hub
      process := some { p with
        inFlight := handled.inFlight
        runtimes := p.runtimes ++ handled.started.toList } } = s.batch ∧ _ := by
    refine batch_of_drain ?_
    rw [hp]
    rfl
  have hruntimes := runtimes_of hp
  have hsame : ∀ runtimes inFlight, Later s { s with
      hub := handled.hub
      process := some { p with inFlight := inFlight, runtimes := runtimes } } := fun _ _ =>
    .same ..
  -- no request that was recorded before is started, and no reply is of one that was not
  have hstarted : ∀ x ∈ handled.started.toList, ¬ s.hub.Recorded x.1 ∧ handled.hub.Recorded x.1 :=
    fun x hx => htook.started x.1 x.2 hholds.trimmed (Option.mem_toList.mp hx)
  refine ⟨?_, ?_⟩
  · rw [hbatch]
    refine ⟨htook.trimmed hholds.trimmed, fun id row hrow => ?_, fun x hx => ?_, ?_, ?_,
      hholds.distinct, fun id row hrow => ?_, hholds.guarded⟩
    · obtain ⟨r, hr, hrecorded⟩ := hholds.filed id row (htook.outbox ▸ hrow)
      exact ⟨r, hr, htook.recorded r hrecorded⟩
    · change x ∈ p.runtimes ++ handled.started.toList at hx
      rcases List.mem_append.mp hx with hold | hnew
      · obtain ⟨hrecorded, hno⟩ := hholds.running x (hruntimes ▸ hold)
        exact ⟨htook.recorded x.1 hrecorded, fun id row hrow => hno id row (htook.outbox ▸ hrow)⟩
      · refine ⟨(hstarted x hnew).2, fun id row hrow heq => ?_⟩
        obtain ⟨r, hr, hrecorded⟩ := hholds.filed id row (htook.outbox ▸ hrow)
        exact (hstarted x hnew).1 (dedupeKey_injective (hr.symm.trans heq) ▸ hrecorded)
    · show ((p.runtimes ++ handled.started.toList).map Prod.fst).Nodup
      rw [List.map_append, List.nodup_append]
      refine ⟨hruntimes ▸ hholds.once, ?_, ?_⟩
      · cases handled.started with
        | none => exact List.nodup_nil
        | some x => exact List.nodup_singleton _
      · intro r hr r' hr' heq
        obtain ⟨x, hx, rfl⟩ := List.mem_map.mp hr
        obtain ⟨x', hx', rfl⟩ := List.mem_map.mp hr'
        exact (hstarted x' hx').1 (heq ▸ (hholds.running x (hruntimes ▸ hx)).1)
    · show ∀ e ∈ s.batch, handled.hub.outbox.get? e.1 = some e.2 ∧ _
      rw [htook.outbox]
      exact hholds.claimed
    · exact (hholds.rows id row (htook.outbox ▸ hrow)).later (hsame _ _) Or.inl
  · rw [hrest]
    exact h.unposted

/-- What the end of a runtime files, and what it leaves running. -/
theorem delivering_filed {p p' : InboxProcess} {hub : AgentHub} {host : Host}
    {requestId : String} {outcome : Outcome} {proofFields : ProofFields}
    {outboxId : Option String} (hp : s.process = some p) (h : Delivering cfg s)
    (hrunning : ∃ x ∈ p.runtimes, x.1 = requestId) (hnow : host.now 0 = s.now)
    (hfresh : s.posted (host.randomUUID 0) = 0)
    (hmark : markDispatch env host requestId outcome proofFields s.hub = .ok (hub, outboxId))
    (hdrain : p'.drain = p.drain) (hsub : p'.runtimes.Sublist p.runtimes)
    (hended : ∀ x ∈ p'.runtimes, x.1 ≠ requestId) :
    Delivering cfg { s with hub, process := some p' } := by
  have hholds := h.holds
  have hruntimes := runtimes_of hp
  obtain ⟨x, hx, rfl⟩ := hrunning
  obtain ⟨hrecorded, hno⟩ := hholds.running x (hruntimes ▸ hx)
  obtain ⟨drow, hdrow, hdispatches, -⟩ := markDispatch_ok hmark
  have hkept : ∀ r, s.hub.Recorded r → hub.Recorded r := fun r => recorded_of_set hdispatches
  have hback : ∀ r, hub.Recorded r → s.hub.Recorded r := by
    intro r hr
    obtain ⟨row, hrow⟩ := hr
    rw [hdispatches] at hrow
    rcases OrderedMap.get?_set_some hrow with ⟨rfl, -⟩ | ⟨-, hold⟩
    · exact hrecorded
    · exact ⟨row, hold⟩
  -- a row of the outbox is an old one, or the new reply
  have hrows : ∀ id row, hub.outbox.get? id = some row → s.hub.outbox.get? id = some row ∨
      id = host.randomUUID 0 ∧ s.hub.outbox.get? id = none ∧
        ∃ targetUrl payload, row = newReply env x.1 targetUrl payload s.now := by
    intro id row hrow
    rcases markDispatch_filed hno hmark with hsame | ⟨targetUrl, payload, hnone, hset⟩
    · exact Or.inl (hsame ▸ hrow)
    · rw [hset] at hrow
      rcases OrderedMap.get?_set_some hrow with ⟨rfl, rfl⟩ | ⟨-, hold⟩
      · exact Or.inr ⟨rfl, hnone, targetUrl, payload, hnow ▸ rfl⟩
      · exact Or.inl hold
  have hold : ∀ id row, s.hub.outbox.get? id = some row → hub.outbox.get? id = some row := by
    intro id row hrow
    rcases markDispatch_filed hno hmark with hsame | ⟨targetUrl, payload, hnone, hset⟩
    · rw [hsame]
      exact hrow
    · rw [hset, OrderedMap.get?_set_ne]
      · exact hrow
      · intro heq
        rw [heq, hnone] at hrow
        exact absurd hrow (by simp)
  obtain ⟨hbatch, hrest⟩ : AgentInbox.batch { s with hub, process := some p' } = s.batch ∧ _ := by
    refine batch_of_drain ?_
    rw [hp]
    exact hdrain
  have hsame : Later s { s with hub, process := some p' } := .same ..
  refine ⟨?_, ?_⟩
  · rw [hbatch]
    refine ⟨fun r hr => hholds.trimmed r (hback r hr), fun id row hrow => ?_, fun y hy => ?_, ?_,
      fun e he => ?_, hholds.distinct, fun id row hrow => ?_, hholds.guarded⟩
    · rcases hrows id row hrow with hbefore | ⟨-, -, targetUrl, payload, rfl⟩
      · obtain ⟨r, hr, hrec⟩ := hholds.filed id row hbefore
        exact ⟨r, hr, hkept r hrec⟩
      · exact ⟨x.1, rfl, hkept x.1 hrecorded⟩
    · obtain ⟨hrec, hfree⟩ := hholds.running y (hruntimes ▸ hsub.subset hy)
      refine ⟨hkept y.1 hrec, fun id row hrow => ?_⟩
      rcases hrows id row hrow with hbefore | ⟨-, -, targetUrl, payload, rfl⟩
      · exact hfree id row hbefore
      · exact fun heq => hended y hy (dedupeKey_injective heq).symm
    · exact (hruntimes ▸ hholds.once).sublist (hsub.map Prod.fst)
    · obtain ⟨hget, hsending⟩ := hholds.claimed e he
      exact ⟨hold e.1 e.2 hget, hsending⟩
    · rcases hrows id row hrow with hbefore | ⟨rfl, hnone, targetUrl, payload, rfl⟩
      · exact (hholds.rows id row hbefore).later hsame Or.inl
      · have hpos := cfg.attempts
        refine ⟨rfl, Nat.le_of_eq hfresh, Nat.zero_le _,
          fun habsurd => AgentOutboxStatus.noConfusion habsurd,
          fun _ => ⟨?_, fun at' hat => (Option.some_ne_none _ hat.symm).elim⟩,
          fun habsurd => AgentOutboxStatus.noConfusion habsurd,
          fun habsurd => AgentOutboxStatus.noConfusion habsurd, Int.le_refl _⟩
        show 0 + 1 ≤ cfg.outboxMaxAttempts
        omega
  · rw [hrest]
    exact h.unposted

/-- A runtime has ended, and its end is recorded. -/
theorem delivering_recorded {p : InboxProcess} {i : Nat} {uuids : Nat → String}
    {outcome : Outcome} {proofFields : ProofFields} {requestId : String} {payload : Json}
    {hub : AgentHub} {outboxId : Option String} (inFlight : List String)
    (hp : s.process = some p) (hi : p.runtimes[i]? = some (requestId, payload))
    (hfresh : s.posted (uuids 0) = 0)
    (hmark : markDispatch env (standing s.now uuids) requestId outcome proofFields s.hub
      = .ok (hub, outboxId)) (h : Delivering cfg s) :
    Delivering cfg { s with
      hub
      process := some { p with inFlight := inFlight, runtimes := p.runtimes.eraseIdx i } } := by
  have hruntimes := runtimes_of hp
  have honce : (p.runtimes.map Prod.fst).Nodup := hruntimes ▸ h.holds.once
  -- a request has one runtime, so that none of it is left
  have hended : ∀ x ∈ p.runtimes.eraseIdx i, x.1 ≠ requestId := by
    intro x hx heq
    obtain ⟨j, hne, hj⟩ := List.mem_eraseIdx_iff_getElem?.mp hx
    have hlt : j < (p.runtimes.map Prod.fst).length := by
      rw [List.length_map]
      exact (List.getElem?_eq_some_iff.mp hj).1
    refine hne ((List.getElem?_inj hlt honce).mp ?_)
    rw [List.getElem?_map, List.getElem?_map, hj, hi, Option.map_some, Option.map_some, heq]
  exact delivering_filed hp h ⟨_, List.mem_of_getElem? hi, rfl⟩ rfl hfresh hmark rfl
    (List.eraseIdx_sublist ..) hended

/-- The end of a runtime. -/
theorem delivering_runtimeEnds {p : InboxProcess} {i : Nat} {uuids : Nat → String}
    {outcome : Outcome} {requestId : String} {payload : Json} (hp : s.process = some p)
    (hi : p.runtimes[i]? = some (requestId, payload)) (hfresh : s.posted (uuids 0) = 0)
    (h : Delivering cfg s) :
    Delivering cfg (s.runtimeEnds env cfg i uuids outcome io p requestId payload) := by
  unfold AgentInbox.runtimeEnds
  dsimp only
  cases hmark : markDispatch env (standing s.now uuids) requestId outcome
      { claimSessionId := payload.stringField? "claimSessionId"
        replyProofSecret := payload.stringField? "replyProofSecret" } s.hub with
  | ok recorded =>
    obtain ⟨hub, outboxId⟩ := recorded
    exact delivering_tick rfl (delivering_recorded _ hp hi hfresh hmark h)
  | error message =>
    cases outcome with
    | succeeded replyContent => exact h
    | failed error =>
      -- nothing is recorded, and the runtime is gone
      obtain ⟨hbatch, hrest⟩ : AgentInbox.batch { s with process := some { p with
          inFlight := p.inFlight.filter fun r => r ≠ requestId
          runtimes := p.runtimes.eraseIdx i } } = s.batch ∧ _ := by
        refine batch_of_drain ?_
        rw [hp]
        rfl
      have hruntimes := runtimes_of hp
      refine ⟨?_, hrest ▸ h.unposted⟩
      rw [hbatch]
      exact h.holds.later rfl (hruntimes ▸ List.eraseIdx_sublist ..) rfl
        (.same ..)

/-- The maintenance takes rows that are settled. -/
theorem delivering_maintenance (h : Delivering cfg s) : Delivering cfg (s.maintenance cfg) := by
  have hholds := h.holds
  have hget : ∀ id row, (s.maintenance cfg).hub.outbox.get? id = some row →
      s.hub.outbox.get? id = some row := by
    intro id row hrow
    change (s.hub.outbox.filter _).get? id = some row at hrow
    rw [OrderedMap.get?_filter] at hrow
    exact (Option.filter_eq_some_iff.mp hrow).1
  refine ⟨⟨hholds.trimmed, fun id row hrow => hholds.filed id row (hget id row hrow),
    fun x hx => ?_, hholds.once, fun e he => ?_, hholds.distinct, fun id row hrow => ?_,
    hholds.guarded⟩, h.unposted⟩
  · obtain ⟨hrecorded, hno⟩ := hholds.running x hx
    exact ⟨hrecorded, fun id row hrow => hno id row (hget id row hrow)⟩
  · obtain ⟨hrow, hsending⟩ := hholds.claimed e he
    refine ⟨?_, hsending⟩
    show (s.hub.outbox.filter _).get? e.1 = some e.2
    rw [OrderedMap.get?_filter, hrow, Option.filter_eq_some_iff]
    exact ⟨rfl, by simp [hsending]⟩
  · exact (hholds.rows id row (hget id row hrow)).later
      (.same ..) Or.inl

/-- A process starts. -/
theorem delivering_boot (hp : s.process = none) (h : Delivering cfg s) :
    Delivering cfg { s with process := some ⟨[], [], none⟩ } := by
  have hholds := h.holds
  have hbatch : s.batch = [] := by
    rw [AgentInbox.batch, hp]
    rfl
  rw [hbatch] at hholds
  exact ⟨hholds.later rfl (List.nil_sublist _) rfl
    (.same ..), fun e he =>
      absurd he List.not_mem_nil⟩

/-- The process ends, and with it its runtimes and its drain. -/
theorem delivering_crash {p : InboxProcess} (hp : s.process = some p) (h : Delivering cfg s) :
    Delivering cfg { s with
      process := none
      abandoned := s.abandoned + if p.drain.isSome then 1 else 0 } := by
  refine ⟨h.holds.left rfl (List.nil_sublist _) rfl
    ⟨fun _ => rfl, fun _ h => h, Nat.le_add_right .., Int.le_refl _⟩ fun hne => ?_,
    fun e he => absurd he List.not_mem_nil⟩
  cases hd : p.drain with
  | none =>
    -- there is a batch in a drain that is active alone
    rw [AgentInbox.batch, hp, Option.bind_some, hd] at hne
    exact absurd rfl hne
  | some d => exact Nat.lt_succ_self _

/-! ## The steps -/

/-- The id that an event files a reply under, if it does. -/
def AgentInboxEvent.filesUnder : AgentInboxEvent → Option String
  | .runtimeEnds _ uuids _ _ => some (uuids 0)
  | _ => none

/-- A reply is filed under an id that was not posted before. -/
def FreshIds (s : AgentInbox) (e : AgentInboxEvent) : Prop :=
  ∀ id, e.filesUnder = some id → s.posted id = 0

theorem Delivering.step {e : AgentInboxEvent} (h : Delivering cfg s) (hfresh : FreshIds s e)
    (hstep : s.step env cfg e = some t) : Delivering cfg t := by
  cases e with
  | clock ms =>
    obtain rfl := Option.some.inj hstep
    exact ⟨h.holds.later rfl (List.Sublist.refl _) rfl
      ⟨fun _ => rfl, fun _ h => h, Nat.le_refl _,
        Int.le_add_of_nonneg_right (Int.natCast_nonneg _)⟩, h.unposted⟩
  | boot =>
    rw [AgentInbox.step] at hstep
    split at hstep
    next => exact absurd hstep (by simp)
    next hnone =>
      obtain rfl := Option.some.inj hstep
      exact delivering_boot (Option.not_isSome_iff_eq_none.mp hnone) h
  | crash =>
    obtain ⟨p, hp, rfl⟩ := Option.map_eq_some_iff.mp hstep
    exact delivering_crash hp h
  | deliver opening uuids req =>
    obtain ⟨p, hp, rfl⟩ := Option.map_eq_some_iff.mp hstep
    exact delivering_deliver hp h
  | runtimeEnds i uuids outcome io =>
    obtain ⟨p, hp, hmap⟩ := Option.bind_eq_some_iff.mp hstep
    obtain ⟨runtime, hi, rfl⟩ := Option.map_eq_some_iff.mp hmap
    exact delivering_runtimeEnds hp hi (hfresh _ rfl) h
  | drainTick io =>
    obtain ⟨p, hp, rfl⟩ := Option.map_eq_some_iff.mp hstep
    exact delivering_tick hp h
  | fetchEnds outcome io =>
    obtain ⟨d, hd, rfl⟩ := Option.map_eq_some_iff.mp hstep
    obtain ⟨p, hp, hpd⟩ := Option.bind_eq_some_iff.mp hd
    exact delivering_fetchEnds hp hpd h
  | maintenance =>
    obtain ⟨p, -, rfl⟩ := Option.map_eq_some_iff.mp hstep
    exact delivering_maintenance h

end Steps

theorem delivering_init (cfg : DrainConfig) (now : Int) : Delivering cfg (.init now) := by
  refine ⟨⟨?_, ?_, ?_, List.nodup_nil, ?_, List.nodup_nil, ?_, ?_⟩, ?_⟩
  · intro r hr
    obtain ⟨row, hrow⟩ := hr
    exact absurd hrow (by simp [AgentInbox.init, AgentHub.init])
  · intro id row hrow
    exact absurd hrow (by simp [AgentInbox.init, AgentHub.init])
  · exact fun x hx => absurd hx List.not_mem_nil
  · exact fun e he => absurd he List.not_mem_nil
  · intro id row hrow
    exact absurd hrow (by simp [AgentInbox.init, AgentHub.init])
  · exact fun post hpost => absurd hpost List.not_mem_nil
  · exact fun e he => absurd he List.not_mem_nil

/-- The invariant holds over every run. -/
theorem delivering_run {env : HubEnv} {cfg : DrainConfig} {now : Int}
    {es : List AgentInboxEvent} {s : AgentInbox}
    (hrun : (agentInboxRuns env cfg now).exec (.init now) es = some s)
    (hfresh : (agentInboxRuns env cfg now).Along FreshIds (.init now) es) : Delivering cfg s :=
  Lts.exec_invariant (I := Delivering cfg)
    (fun _ _ _ h hfresh hstep => h.step hfresh hstep) es (delivering_init cfg now)
    hrun hfresh

end Kovael.Hub
