import Kovael.Hub.Leases

/-!
# Attempts

How often the outbox hands out a row. The runs of `Kovael.Hub.Shared` with two things
that no operation reads: how often each row was handed out since it was last enqueued,
and the attempts that a failure under way has read. The column `attempts` is the former
(`Counted.linked`), and `markOutboxDeliveryFailed` compares it with its `maxAttempts`.

Nothing else does. A claim takes a row whose lease is over without looking at its
attempts, so a row whose workers crash is handed out for ever (`handed_out_again`); and of
two workers on one row, the failure of the first may be written after the second was handed
it. `attempts_bounded` is about the runs in which neither happens to a row that has no
attempt left.
-/

namespace Kovael.Hub

open Js (Number OrderedMap Clock Json)

variable {env : HubEnv} {s s' : SharedHub}

/-! ## Hand-outs -/

/-- What is known of the deliveries besides the tables. -/
structure History where
  /-- how often a row was handed out since it was last enqueued -/
  handOuts : String → Nat
  /-- the attempts that the failure under way as this call has read -/
  seen : Nat → Nat

/-- How often the event hands out the row. -/
def handsOut (s : SharedHub) (id : String) : Event → Nat
  | .claimDueOutbox _ host limit leaseMs =>
    match claimDueOutbox host limit leaseMs s.hub with
    | .error _ => 0
    | .ok (_, rows) => (rows.map Prod.fst).count id
  | _ => 0

/-- The event files the row, or lets it start over. -/
def enqueues (s' : SharedHub) (id : String) : Event → Bool
  | .markDispatch _ requestId _ _ =>
    (s'.hub.outbox.get? id).any fun row =>
      row.dedupeKey = dedupeKey requestId && row.status = .pending
  | _ => false

/-- The attempts that the event reads as the first half of a call. -/
def reads (s : SharedHub) (n : Nat) : Event → Option Nat
  | .markOutboxDeliveryFailed n' id _ _ _ =>
    if n' = n then (s.hub.outbox.get? id).map OutboxRow.attempts else none
  | _ => none

def History.next (history : History) (s s' : SharedHub) (e : Event) : History where
  handOuts id := if enqueues s' id e then 0 else history.handOuts id + handsOut s id e
  seen n := (reads s n e).getD (history.seen n)

/-- The runs on one hub file, with their history. -/
def countedRuns (env : HubEnv) : Lts (SharedHub × History) Event where
  init := (.init, ⟨fun _ => 0, fun _ => 0⟩)
  step := fun (s, history) e => (step env s e).map fun s' => (s', history.next s s' e)

/-- All failures are reported with one `maxAttempts`. -/
def Event.ReportsWith (maxAttempts : Number) : Event → Prop
  | .markOutboxDeliveryFailed _ _ _ _ maxAttempts' => maxAttempts' = maxAttempts
  | _ => True

/-- A row that has no attempt left is not claimed when its lease is over, and a failure that
would let it be retried is not written to it if it had one left when that failure read it. -/
def WithinAttempts (M : Nat) (p : SharedHub × History) : Event → Prop
  | .claimDueOutbox _ host limit leaseMs =>
    ∀ id ∈ p.1.hub.dueIds (host.now 0) (host.now 0 - leaseMs.floor?.getD 0)
        (limit.floor?.getD 0).toNat,
      ∀ row ∈ p.1.hub.outbox.get? id, row.status = .sending → row.attempts < M
  | .write n _ =>
    ∀ call ∈ p.1.calls.get? n,
      match call with
      | .markOutboxDeliveryFailed call =>
        call.retryAt ≠ none → ∀ row ∈ p.1.hub.outbox.get? call.id,
          M ≤ row.attempts → row.attempts ≤ p.2.seen n
      | _ => True
  | _ => True

/-! ## The invariant -/

/-- The attempts of a row are its hand-outs, and a row that waits has one left. -/
structure Counted (M : Nat) (s : SharedHub) (history : History) : Prop where
  bounded : ∀ id, history.handOuts id ≤ M
  linked : ∀ id row, s.hub.outbox.get? id = some row → history.handOuts id = row.attempts
  pending : ∀ id row, s.hub.outbox.get? id = some row → row.status = .pending → row.attempts = 0
  failed : ∀ id row, s.hub.outbox.get? id = some row → row.status = .failed → row.attempts < M
  calls : ∀ n call, s.calls.get? n = some (.markOutboxDeliveryFailed call) →
    call.retryAt ≠ none → history.seen n < M

/-- What a claim is to the history: one more of each due row that it selects. -/
theorem handsOut_claim {worker : Nat} {host : Host} {limit leaseMs : Number} {hub : AgentHub}
    {rows : List (String × OutboxRow)}
    (hclaim : claimDueOutbox host limit leaseMs s.hub = .ok (hub, rows)) (id : String) :
    handsOut s id (.claimDueOutbox worker host limit leaseMs)
      = if id ∈ s.hub.dueIds (host.now 0) (host.now 0 - leaseMs.floor?.getD 0)
          (limit.floor?.getD 0).toNat then 1 else 0 := by
  obtain ⟨-, -, -, hnodup, -⟩ := claimDueOutbox_ok hclaim
  have hmem := mem_claimed_iff hclaim id
  simp only [handsOut, hclaim]
  rw [hnodup.count]
  simp only [hmem]

/-- A failure under way was under way before, or is the one that was read. -/
theorem step_failure_call {e : Event} (h : step env s e = some s') {n : Nat} {call : FailureCall}
    (hcall : s'.calls.get? n = some (.markOutboxDeliveryFailed call)) :
    (s.calls.get? n = some (.markOutboxDeliveryFailed call) ∧ reads s n e = none) ∨
      ∃ id error retryAt maxAttempts,
        e = .markOutboxDeliveryFailed n id error retryAt maxAttempts ∧
        readDeliveryFailed id error retryAt maxAttempts s.hub = .ok call := by
  have hold : s'.calls = s.calls → reads s n e = none →
      s.calls.get? n = some (.markOutboxDeliveryFailed call) ∧ reads s n e = none := by
    intro hcalls hreads
    exact ⟨hcalls ▸ hcall, hreads⟩
  have hcommit : ∀ (log : List Entry) (result : Except String AgentHub),
      (s.commit log result).calls = s.calls := by
    intro log result
    cases result <;> rfl
  -- of the other operations only the first half of one changes a call, and to one of its kind
  have hawait : ∀ (n' : Nat) (other : Call), s' = s.await n' other →
      (∀ call', other ≠ .markOutboxDeliveryFailed call') →
      s.calls.get? n = some (.markOutboxDeliveryFailed call) := by
    intro n' other hs' hother
    rw [hs', SharedHub.await, OrderedMap.get?_set] at hcall
    split at hcall
    next =>
      exact absurd (Option.some.inj hcall) (hother call)
    next => exact hcall
  cases e with
  | recordInboundDispatch n' host payload =>
    rw [step] at h
    split at h
    next => exact absurd h (by simp)
    next =>
      split at h <;> rw [Option.some.injEq] at h
      next => exact Or.inl (hold (h ▸ rfl) rfl)
      next => exact Or.inl ⟨hawait n' _ h.symm (by simp), rfl⟩
  | markDispatchRunning host requestId =>
    rw [step, Option.some.injEq] at h
    exact Or.inl (hold (h ▸ hcommit ..) rfl)
  | scheduleDispatchReplay requestId replayAfter =>
    rw [step, Option.some.injEq] at h
    exact Or.inl (hold (h ▸ hcommit ..) rfl)
  | markDispatch host requestId outcome proofFields =>
    rw [step, Option.some.injEq] at h
    exact Or.inl (hold (h ▸ hcommit ..) rfl)
  | claimDueOutbox worker host limit leaseMs =>
    rw [step] at h
    split at h <;> rw [Option.some.injEq] at h <;> exact Or.inl (hold (h ▸ rfl) rfl)
  | markOutboxSent n' worker host id =>
    rw [step] at h
    split at h
    next => exact absurd h (by simp)
    next =>
      split at h <;> rw [Option.some.injEq] at h
      next => exact Or.inl (hold (h ▸ rfl) rfl)
      next => exact Or.inl (hold (h ▸ rfl) rfl)
      next => exact Or.inl ⟨hawait n' _ h.symm (by simp), rfl⟩
  | markOutboxDeliveryFailed n' id error retryAt maxAttempts =>
    rw [step] at h
    split at h
    next => exact absurd h (by simp)
    next hfree =>
      by_cases hn : n' = n
      · rw [hn] at h hfree ⊢
        split at h <;> rw [Option.some.injEq] at h
        next =>
          rw [← h] at hcall
          rw [OrderedMap.has, hcall] at hfree
          exact absurd rfl hfree
        next call' hread =>
          rw [← h, SharedHub.await, OrderedMap.get?_set, if_pos rfl, Option.some.injEq,
            Call.markOutboxDeliveryFailed.injEq] at hcall
          exact Or.inr ⟨id, error, retryAt, maxAttempts, rfl, hcall ▸ hread⟩
      · have hreads : reads s n (.markOutboxDeliveryFailed n' id error retryAt maxAttempts) = none :=
          if_neg hn
        split at h <;> rw [Option.some.injEq] at h
        next => exact Or.inl (hold (h ▸ rfl) hreads)
        next =>
          rw [← h, SharedHub.await, OrderedMap.get?_set, if_neg (Ne.symm hn)] at hcall
          exact Or.inl ⟨hcall, hreads⟩
  | write n' host =>
    rw [step, Option.map_eq_some_iff] at h
    obtain ⟨written, -, h⟩ := h
    have hcalls : s'.calls = s.calls.delete n' := by
      rw [← h]
      cases written with
      | recordInboundDispatch call =>
        cases hw : writeInboundDispatch env host call s.hub <;>
          simp only [Call.write, SharedHub.commit, hw]
      | markOutboxSent worker id stamp =>
        cases hw : writeOutboxSent id stamp s.hub <;>
          simp only [Call.write, SharedHub.commit, hw]
      | markOutboxDeliveryFailed call => rfl
    rw [hcalls] at hcall
    exact Or.inl ⟨(OrderedMap.get?_delete_some hcall).2, rfl⟩
  | pruneTerminalOutbox beforeTimestamp =>
    rw [step, Option.some.injEq] at h
    exact Or.inl (hold (h ▸ rfl) rfl)
  | pruneOldReceipts beforeTimestamp =>
    rw [step, Option.some.injEq] at h
    exact Or.inl (hold (h ▸ rfl) rfl)

variable {M : Nat} {history : History} {e : Event}

/-- A step keeps the invariant if the rows that wait have attempts left, the attempts of
every row grow as it is handed out, and only a row with an attempt left is. -/
theorem Counted.next (h : Counted M s history)
    (hpending : ∀ id row, s'.hub.outbox.get? id = some row → row.status = .pending →
      row.attempts = 0)
    (hfailed : ∀ id row, s'.hub.outbox.get? id = some row → row.status = .failed →
      row.attempts < M)
    (hattempts : ∀ id row', s'.hub.outbox.get? id = some row' → enqueues s' id e = false →
      ∃ row, s.hub.outbox.get? id = some row ∧ row'.attempts = row.attempts + handsOut s id e)
    (hroom : ∀ id, handsOut s id e ≠ 0 →
      handsOut s id e = 1 ∧ ∃ row, s.hub.outbox.get? id = some row ∧ row.attempts < M)
    (hcalls : ∀ n call, s'.calls.get? n = some (.markOutboxDeliveryFailed call) →
      call.retryAt ≠ none → (history.next s s' e).seen n < M) :
    Counted M s' (history.next s s' e) := by
  refine ⟨?_, ?_, hpending, hfailed, hcalls⟩
  · intro id
    show (if enqueues s' id e then 0 else history.handOuts id + handsOut s id e) ≤ M
    split
    next => exact Nat.zero_le M
    next =>
      by_cases hzero : handsOut s id e = 0
      · rw [hzero]
        exact h.bounded id
      · obtain ⟨hone, row, hrow, hlt⟩ := hroom id hzero
        rw [hone, h.linked id row hrow]
        omega
  · intro id row' hrow'
    show (if enqueues s' id e then 0 else history.handOuts id + handsOut s id e) = row'.attempts
    cases henqueues : enqueues s' id e with
    | true =>
      -- what was enqueued is pending, and has no attempts
      cases e with
      | markDispatch host requestId outcome proofFields =>
        simp only [enqueues, hrow', Option.any_some, Bool.and_eq_true,
          decide_eq_true_eq] at henqueues
        exact (hpending id row' hrow' henqueues.2).symm
      | _ => exact absurd henqueues (by simp [enqueues])
    | false =>
      obtain ⟨row, hrow, heq⟩ := hattempts id row' hrow' henqueues
      rw [heq, h.linked id row hrow]
      rfl

/-- A failure reads attempts, and lets the row be retried only if it has one left. -/
theorem seen_of_read {maxAttempts : Number} (hM : maxAttempts.floor? = some (M : Int))
    {n : Nat} {id error : String} {retryAt : Option Number} {call : FailureCall}
    (hread : readDeliveryFailed id error retryAt maxAttempts s.hub = .ok call) :
    ∃ row, s.hub.outbox.get? id = some row ∧
      reads s n (.markOutboxDeliveryFailed n id error retryAt maxAttempts) = some row.attempts ∧
      (call.retryAt ≠ none → row.attempts < M) := by
  unfold readDeliveryFailed at hread
  split at hread
  next => exact absurd hread (by simp)
  next =>
    split at hread
    next => exact absurd hread (by simp)
    next =>
      split at hread
      next => exact absurd hread (by simp)
      next row hrow =>
        rw [Except.ok.injEq, hM, Option.getD_some] at hread
        refine ⟨row, hrow, ?_, ?_⟩
        · rw [reads, if_pos rfl, hrow, Option.map_some]
        · intro hretry
          rw [← hread] at hretry
          by_contra hexhausted
          have hle : (M : Int) ≤ row.attempts := by omega
          exact hretry (if_pos hle)

theorem seen_next (h : Counted M s history) {maxAttempts : Number}
    (hM : maxAttempts.floor? = some (M : Int)) (he : e.ReportsWith maxAttempts)
    (hstep : step env s e = some s') {n : Nat} {call : FailureCall}
    (hcall : s'.calls.get? n = some (.markOutboxDeliveryFailed call))
    (hretry : call.retryAt ≠ none) : (history.next s s' e).seen n < M := by
  show (reads s n e).getD (history.seen n) < M
  rcases step_failure_call hstep hcall with ⟨hold, hreads⟩ | ⟨id, error, retryAt, max', rfl, hread⟩
  · rw [hreads]
    exact h.calls n call hold hretry
  · obtain rfl : max' = maxAttempts := he
    obtain ⟨row, -, hreads, hleft⟩ := seen_of_read hM hread
    rw [hreads]
    exact hleft hretry

/-- A claim hands out rows that have an attempt left. -/
theorem Counted.claimed (h : Counted M s history) (hpos : 1 ≤ M) {worker : Nat} {host : Host}
    {limit leaseMs : Number} {rows : List (String × OutboxRow)}
    (hclaim : claimDueOutbox host limit leaseMs s.hub = .ok (s'.hub, rows))
    (hwithin : WithinAttempts M (s, history) (.claimDueOutbox worker host limit leaseMs))
    (hcalls : ∀ n call, s'.calls.get? n = some (.markOutboxDeliveryFailed call) →
      call.retryAt ≠ none →
      (history.next s s' (.claimDueOutbox worker host limit leaseMs)).seen n < M) :
    Counted M s' (history.next s s' (.claimDueOutbox worker host limit leaseMs)) := by
  obtain ⟨-, hget, -, -, -⟩ := claimDueOutbox_ok hclaim
  -- a row of the outbox after the claim: handed out, or as it was
  have hrow' : ∀ id row', s'.hub.outbox.get? id = some row' → ∃ row,
      s.hub.outbox.get? id = some row ∧
      row'.attempts = row.attempts
        + handsOut s id (.claimDueOutbox worker host limit leaseMs) ∧
      (row'.status = .sending ∨ row' = row) := by
    intro id row' hrow'
    rw [handsOut_claim hclaim]
    rw [hget] at hrow'
    split at hrow'
    next hid =>
      obtain ⟨row, hrow, rfl⟩ := Option.map_eq_some_iff.mp hrow'
      rw [if_pos hid]
      exact ⟨row, hrow, rfl, Or.inl rfl⟩
    next hid =>
      rw [if_neg hid]
      exact ⟨row', hrow', rfl, Or.inr rfl⟩
  refine h.next ?_ ?_ ?_ ?_ hcalls
  · intro id row' hget' hstatus
    obtain ⟨row, hrow, -, hsending | rfl⟩ := hrow' id row' hget'
    · rw [hstatus] at hsending
      exact absurd hsending (by simp)
    · exact h.pending id row' hrow hstatus
  · intro id row' hget' hstatus
    obtain ⟨row, hrow, -, hsending | rfl⟩ := hrow' id row' hget'
    · rw [hstatus] at hsending
      exact absurd hsending (by simp)
    · exact h.failed id row' hrow hstatus
  · intro id row' hget' _
    obtain ⟨row, hrow, hattempts, -⟩ := hrow' id row' hget'
    exact ⟨row, hrow, hattempts⟩
  · intro id hhands
    rw [handsOut_claim hclaim] at hhands ⊢
    by_cases hid : id ∈ s.hub.dueIds (host.now 0) (host.now 0 - leaseMs.floor?.getD 0)
        (limit.floor?.getD 0).toNat
    · rw [if_pos hid]
      obtain ⟨row, hrow, hdue⟩ := due_of_mem_dueIds hid
      refine ⟨rfl, row, hrow, ?_⟩
      cases hstatus : row.status with
      | pending =>
        rw [h.pending id row hrow hstatus]
        exact hpos
      | failed => exact h.failed id row hrow hstatus
      | sending => exact hwithin id hid row hrow hstatus
      | sent => simp [OutboxRow.due, hstatus] at hdue
      | dead => simp [OutboxRow.due, hstatus] at hdue
    · exact absurd (if_neg hid) hhands

/-- A step that hands out nothing keeps the invariant if every row of the outbox was enqueued
by it, or was there before with as many attempts, and waits only if it did or has one left. -/
theorem Counted.settled (h : Counted M s history) (hhands : ∀ id, handsOut s id e = 0)
    (hrows : ∀ id row', s'.hub.outbox.get? id = some row' →
      (enqueues s' id e = true ∧ row'.status = .pending ∧ row'.attempts = 0) ∨
      ∃ row, s.hub.outbox.get? id = some row ∧ row'.attempts = row.attempts ∧
        (row'.status = .pending → row.status = .pending) ∧
        (row'.status = .failed → row.status = .failed ∨ row.attempts < M))
    (hcalls : ∀ n call, s'.calls.get? n = some (.markOutboxDeliveryFailed call) →
      call.retryAt ≠ none → (history.next s s' e).seen n < M) :
    Counted M s' (history.next s s' e) := by
  refine h.next ?_ ?_ ?_ (fun id hne => absurd (hhands id) hne) hcalls
  · intro id row' hrow' hstatus
    rcases hrows id row' hrow' with ⟨-, -, hzero⟩ | ⟨row, hrow, hattempts, hpending, -⟩
    · exact hzero
    · rw [hattempts]
      exact h.pending id row hrow (hpending hstatus)
  · intro id row' hrow' hstatus
    rcases hrows id row' hrow' with ⟨-, hpending, -⟩ | ⟨row, hrow, hattempts, -, hfailed⟩
    · rw [hstatus] at hpending
      exact absurd hpending (by simp)
    · rw [hattempts]
      rcases hfailed hstatus with hstatus' | hlt
      · exact h.failed id row hrow hstatus'
      · exact hlt
  · intro id row' hrow' hold
    rw [hhands id]
    rcases hrows id row' hrow' with ⟨hnew, -, -⟩ | ⟨row, hrow, hattempts, -, -⟩
    · rw [hold] at hnew
      exact absurd hnew (by simp)
    · exact ⟨row, hrow, hattempts⟩

/-- A row of the outbox after a reply was filed. -/
theorem row_of_filed {host : Host} {requestId targetUrl : String} {outcome : Outcome}
    {proofFields : ProofFields} {payload : ReplyPayload} {stamp : Int}
    (hfiled : Filed s.hub.outbox s'.hub.outbox (newReply env requestId targetUrl payload stamp))
    {id : String} {row' : OutboxRow} (hrow' : s'.hub.outbox.get? id = some row') :
    (enqueues s' id (.markDispatch host requestId outcome proofFields) = true ∧
        row'.status = .pending ∧ row'.attempts = 0) ∨
      s.hub.outbox.get? id = some row' := by
  have hnew : row'.dedupeKey = dedupeKey requestId → row'.status = .pending →
      enqueues s' id (.markDispatch host requestId outcome proofFields) = true := by
    intro hkey hstatus
    simp [enqueues, hrow', hkey, hstatus]
  rcases hfiled with ⟨id₀, row, hrow, hkey, hset⟩ | ⟨id₀, -, -, hset⟩
  · rw [hset, OrderedMap.get?_set] at hrow'
    split at hrow'
    next hid =>
      obtain rfl := Option.some.inj hrow'
      by_cases hsent : row.status = .sent
      · -- a reply that was sent stays as it is
        have hsame : row.conflict (newReply env requestId targetUrl payload stamp) = row :=
          if_pos hsent
        rw [hid, hsame]
        exact Or.inr hrow
      · refine Or.inl ⟨hnew ?_ ?_, ?_, ?_⟩ <;> unfold OutboxRow.conflict <;> rw [if_neg hsent]
        exact hkey
    next => exact Or.inr hrow'
  · rw [hset, OrderedMap.get?_set] at hrow'
    split at hrow'
    next =>
      obtain rfl := Option.some.inj hrow'
      exact Or.inl ⟨hnew rfl rfl, rfl, rfl⟩
    next => exact Or.inr hrow'

/-- A step keeps the invariant. -/
theorem step_counted (h : Counted M s history) (hpos : 1 ≤ M) {maxAttempts : Number}
    (hM : maxAttempts.floor? = some (M : Int)) (hstep : step env s e = some s')
    (he : e.ReportsWith maxAttempts) (hwithin : WithinAttempts M (s, history) e) :
    Counted M s' (history.next s s' e) := by
  have hcalls : ∀ n call, s'.calls.get? n = some (.markOutboxDeliveryFailed call) →
      call.retryAt ≠ none → (history.next s s' e).seen n < M :=
    fun n call hcall hretry => seen_next h hM he hstep hcall hretry
  have hkept : (∀ id, handsOut s id e = 0) →
      (∀ id row', s'.hub.outbox.get? id = some row' → s.hub.outbox.get? id = some row') →
      Counted M s' (history.next s s' e) := by
    intro hhands hsub
    refine h.settled hhands ?_ hcalls
    intro id row' hrow'
    exact Or.inr ⟨row', hsub id row' hrow', rfl, fun hs => hs, Or.inl⟩
  cases step_move hstep with
  | kept _ houtbox _ =>
    cases e with
    | claimDueOutbox worker host limit leaseMs =>
      cases hclaim : claimDueOutbox host limit leaseMs s.hub with
      | error msg =>
        refine hkept (fun id => ?_) fun id row' hrow' => houtbox ▸ hrow'
        simp only [handsOut, hclaim]
      | ok result =>
        obtain ⟨hub, rows⟩ := result
        simp only [step, hclaim, Option.some.injEq] at hstep
        have hhub : hub = s'.hub := congrArg SharedHub.hub hstep
        rw [hhub] at hclaim
        exact h.claimed hpos hclaim hwithin hcalls
    | _ => exact hkept (fun id => rfl) fun id row' hrow' => houtbox ▸ hrow'
  | started _ _ houtbox _ => exact hkept (fun id => rfl) fun id row' hrow' => houtbox ▸ hrow'
  | @marked host requestId outcome proofFields dispatch _ _ houtbox _ =>
    cases hurl : dispatch.replyUrl with
    | none =>
      rw [hurl] at houtbox
      exact hkept (fun id => rfl) fun id row' hrow' => houtbox ▸ hrow'
    | some replyUrl =>
      rw [hurl] at houtbox
      refine h.settled (fun id => rfl) ?_ hcalls
      intro id row' hrow'
      rcases row_of_filed houtbox hrow' with hnew | hold
      · exact Or.inl hnew
      · exact Or.inr ⟨row', hold, rfl, fun hs => hs, Or.inl⟩
  | claimed hclaim _ => exact h.claimed hpos hclaim hwithin hcalls
  | @acknowledged _ _ _ id stamp row _ hrow _ houtbox _ =>
    refine h.settled (fun id => rfl) ?_ hcalls
    intro id' row' hrow'
    rw [houtbox, OrderedMap.get?_set] at hrow'
    split at hrow'
    next hid =>
      obtain rfl := Option.some.inj hrow'
      rw [hid]
      exact Or.inr ⟨row, hrow, rfl, fun hs => absurd hs (by simp [OutboxRow.acknowledged]),
        fun hs => absurd hs (by simp [OutboxRow.acknowledged])⟩
    next => exact Or.inr ⟨row', hrow', rfl, fun hs => hs, Or.inl⟩
  | @deliveryFailed n host call row hcall hrow _ houtbox _ =>
    refine h.settled (fun id => rfl) ?_ hcalls
    intro id' row' hrow'
    rw [houtbox, OrderedMap.get?_set] at hrow'
    split at hrow'
    next hid =>
      obtain rfl := Option.some.inj hrow'
      rw [hid]
      refine Or.inr ⟨row, hrow, rfl, ?_, ?_⟩
      · intro hs
        have hstatus := deliveryFailed_status row call (env.redactSensitiveText call.error)
          (host.now 0)
        rw [hs] at hstatus
        exact absurd hstatus (by simp)
      · intro hs
        have hretry : call.retryAt ≠ none := by
          intro hnone
          simp [OutboxRow.deliveryFailed, hnone] at hs
        right
        by_contra hspent
        have hseen : row.attempts ≤ history.seen n := hwithin _ hcall hretry row hrow (by omega)
        have hleft := h.calls n call hcall hretry
        omega
    next => exact Or.inr ⟨row', hrow', rfl, fun hs => hs, Or.inl⟩
  | pruned hhub _ =>
    refine hkept (fun id => rfl) ?_
    intro id row' hrow'
    rw [hhub] at hrow'
    have hfilter : (s.hub.outbox.filter _).get? id = some row' := hrow'
    rw [OrderedMap.get?_filter, Option.filter_eq_some_iff] at hfilter
    exact hfilter.1

theorem init_counted (M : Nat) (env : HubEnv) :
    Counted M (countedRuns env).init.1 (countedRuns env).init.2 where
  bounded id := Nat.zero_le M
  linked id row hrow := absurd hrow (by simp [countedRuns, SharedHub.init, AgentHub.init])
  pending id row hrow := absurd hrow (by simp [countedRuns, SharedHub.init, AgentHub.init])
  failed id row hrow := absurd hrow (by simp [countedRuns, SharedHub.init, AgentHub.init])
  calls n call hcall := absurd hcall (by simp [countedRuns, SharedHub.init])

/-! ## The bound -/

/-- A row of the outbox that waits for nothing is not due. -/
theorem not_due_of_dead {row : OutboxRow} (h : row.status = .dead) (stamp staleBefore : Int) :
    row.due stamp staleBefore = false := by
  simp [OutboxRow.due, h]

/-- **Delivery attempts are bounded** in every run in which no claim takes a row that has no
attempt left when its lease is over, and no failure lets a row be retried that has lost its
last attempt since it was read:

a row is handed out at most `M` times after it was enqueued;

once it was handed out `M` times, it neither waits nor is it let wait by a failure that
is reported from then on: what that writes is 'dead';

and no claim returns a row that is 'dead'. -/
theorem attempts_bounded (env : HubEnv) (maxAttempts : Number) (M : Nat)
    (hM : maxAttempts.floor? = some (M : Int)) (hpos : 1 ≤ M) (es : List Event) (s : SharedHub)
    (history : History)
    (hrun : (countedRuns env).exec (countedRuns env).init es = some (s, history))
    (hreports : ∀ e ∈ es, e.ReportsWith maxAttempts)
    (hwithin : (countedRuns env).Along (WithinAttempts M) (countedRuns env).init es) :
    (∀ id, history.handOuts id ≤ M) ∧
    (∀ id row, s.hub.outbox.get? id = some row → history.handOuts id = M →
      row.status ≠ .pending ∧ row.status ≠ .failed ∧
      ∀ error retryAt call, readDeliveryFailed id error retryAt maxAttempts s.hub = .ok call →
        ∀ lastError stamp, (row.deliveryFailed call lastError stamp).status = .dead) ∧
    ∀ id row, s.hub.outbox.get? id = some row → row.status = .dead →
      ∀ stamp staleBefore limit, id ∉ s.hub.dueIds stamp staleBefore limit := by
  have halong : (countedRuns env).Along
      (fun p e => e.ReportsWith maxAttempts ∧ WithinAttempts M p e) (countedRuns env).init es := by
    rw [Lts.along_iff] at hwithin ⊢
    intro pre e post t heq ht
    exact ⟨hreports e (heq ▸ List.mem_append_right _ (List.mem_cons_self ..)),
      hwithin pre e post t heq ht⟩
  have h : Counted M s history := by
    refine Lts.exec_invariant (I := fun p => Counted M p.1 p.2) ?_ es (init_counted M env) hrun
      halong
    intro hgiven
    obtain ⟨t, past⟩ := hgiven
    intro e t' ht hgiven'
    obtain ⟨he, hwith⟩ := hgiven'
    intro hstep
    obtain ⟨u, hu, rfl⟩ := Option.map_eq_some_iff.mp hstep
    exact step_counted ht hpos hM hu he hwith
  refine ⟨h.bounded, ?_, ?_⟩
  · intro id row hrow hspent
    have hattempts : row.attempts = M := (h.linked id row hrow).symm.trans hspent
    refine ⟨?_, ?_, ?_⟩
    · intro hpending
      have hzero := h.pending id row hrow hpending
      omega
    · intro hfailed
      have hlt := h.failed id row hrow hfailed
      omega
    · intro error retryAt call hread lastError stamp
      obtain ⟨row', hrow', -, hleft⟩ := seen_of_read (n := 0) hM hread
      obtain rfl := Option.some.inj (hrow.symm.trans hrow')
      have hnone : call.retryAt = none := by
        by_contra hretry
        have hlt := hleft hretry
        omega
      exact if_pos hnone
  · intro id row hrow hdead stamp staleBefore limit hid
    obtain ⟨row', hrow', hdue⟩ := due_of_mem_dueIds hid
    obtain rfl := Option.some.inj (hrow.symm.trans hrow')
    rw [not_due_of_dead hdead] at hdue
    exact absurd hdue (by simp)

instance (maxAttempts : Number) : DecidablePred (Event.ReportsWith maxAttempts)
  | .markOutboxDeliveryFailed _ _ _ _ maxAttempts' =>
    inferInstanceAs (Decidable (maxAttempts' = maxAttempts))
  | .recordInboundDispatch .. | .markDispatchRunning .. | .scheduleDispatchReplay ..
  | .markDispatch .. | .claimDueOutbox .. | .markOutboxSent .. | .write ..
  | .pruneTerminalOutbox .. | .pruneOldReceipts .. => inferInstanceAs (Decidable True)

instance (M : Nat) (p : SharedHub × History) : DecidablePred (WithinAttempts M p)
  | .claimDueOutbox _ host limit leaseMs =>
    inferInstanceAs (Decidable (∀ id ∈ p.1.hub.dueIds (host.now 0)
      (host.now 0 - leaseMs.floor?.getD 0) (limit.floor?.getD 0).toNat,
        ∀ row ∈ p.1.hub.outbox.get? id, row.status = .sending → row.attempts < M))
  | .write n _ =>
    have : ∀ call : Call, Decidable (match call with
        | .markOutboxDeliveryFailed call =>
          call.retryAt ≠ none → ∀ row ∈ p.1.hub.outbox.get? call.id,
            M ≤ row.attempts → row.attempts ≤ p.2.seen n
        | _ => True) := fun call =>
      match call with
      | .markOutboxDeliveryFailed call =>
        inferInstanceAs (Decidable (call.retryAt ≠ none →
          ∀ row ∈ p.1.hub.outbox.get? call.id, M ≤ row.attempts → row.attempts ≤ p.2.seen n))
      | .recordInboundDispatch _ | .markOutboxSent .. => inferInstanceAs (Decidable True)
    inferInstanceAs (Decidable (∀ call ∈ p.1.calls.get? n, _))
  | .recordInboundDispatch .. | .markDispatchRunning .. | .scheduleDispatchReplay ..
  | .markDispatch .. | .markOutboxSent .. | .markOutboxDeliveryFailed ..
  | .pruneTerminalOutbox .. | .pruneOldReceipts .. => inferInstanceAs (Decidable True)

/-- The reply is handed out, and its delivery fails. -/
def deliveryFails : List Event :=
  leasedTwice.take 4 ++
    [.markOutboxDeliveryFailed 1 "m0" "refused" (some (.ofNat 500)) (.ofNat 1),
     .write 1 (hostAt 200 "f")]

/-- What became of the reply after a run of the sample: its hand-outs and its status. -/
def sampleHandOuts (es : List Event) : Option (Nat × Option AgentOutboxStatus) :=
  ((countedRuns sampleHubEnv).exec (countedRuns sampleHubEnv).init es).map fun p =>
    (p.2.handOuts "m0", (p.1.hub.outbox.get? "m0").map OutboxRow.status)

theorem delivery_fails_once :
    ∃ s history, (countedRuns sampleHubEnv).exec (countedRuns sampleHubEnv).init deliveryFails =
        some (s, history) ∧
      ∀ id, history.handOuts id ≤ 1 := by
  have hsome : ((countedRuns sampleHubEnv).exec (countedRuns sampleHubEnv).init
      deliveryFails).isSome = true := by decide +kernel
  obtain ⟨⟨s, history⟩, hrun⟩ := Option.isSome_iff_exists.mp hsome
  have hreports : ∀ e ∈ deliveryFails, e.ReportsWith (.ofNat 1) := by decide +kernel
  have hwithin : (countedRuns sampleHubEnv).Along (WithinAttempts 1)
      (countedRuns sampleHubEnv).init deliveryFails := by decide +kernel
  have hfloor : (Number.ofNat 1).floor? = some ((1 : Nat) : Int) := by decide +kernel
  exact ⟨s, history, hrun, (attempts_bounded sampleHubEnv (.ofNat 1) 1 hfloor (by decide)
    deliveryFails s history hrun hreports hwithin).1⟩

/-- The failure of the first worker is read before the reply is handed to the second, and
written after. -/
def overtakenFailure : List Event :=
  leasedTwice.take 4 ++
    [.markOutboxDeliveryFailed 1 "m0" "refused" (some (.ofNat 500)) (.ofNat 2),
     .claimDueOutbox 2 (hostAt 1100 "c") (.ofNat 10) (.ofNat 1000),
     .write 1 (hostAt 1200 "f"),
     .claimDueOutbox 2 (hostAt 1300 "c") (.ofNat 10) (.ofNat 1000)]

/-- Of one attempt, two: the first worker crashed. Of two attempts, three: the failure of the
first worker was overtaken. -/
theorem handed_out_again :
    sampleHandOuts leasedTwice = some (2, some .sending) ∧
      (leasedTwice.all fun e => decide (e.ReportsWith (.ofNat 1))) = true ∧
      sampleHandOuts overtakenFailure = some (3, some .sending) ∧
      (overtakenFailure.all fun e => decide (e.ReportsWith (.ofNat 2))) = true := by
  decide +kernel

end Kovael.Hub
