import Kovael.Hub.Shared

/-!
# Is a delivered reply final?

A row that is 'sent' should stay what it is until it is pruned. The claim skips
it, filing another outcome keeps it and a second acknowledgement only moves its
times, but `markOutboxDeliveryFailed` writes to whatever row it finds. So the
rows stay final exactly in the runs where no delivery failure comes late:
`delivered_rows_final`.
-/

namespace Kovael.Hub

open Js (Number OrderedMap Clock Json)

variable {env : HubEnv} {s s' : SharedHub} {id : String} {row : OutboxRow}

/-- What of a delivered row is final. -/
def OutboxRow.delivery (row : OutboxRow) : AgentOutboxStatus × ReplyPayload × String × Nat :=
  (row.status, row.payload, row.targetUrl, row.attempts)

/-- The row is still there, with the delivery it had. -/
def StillDelivered (s' : SharedHub) (id : String) (row : OutboxRow) : Prop :=
  ∃ row', s'.hub.outbox.get? id = some row' ∧ row'.delivery = row.delivery

/-- Pruning has removed the row. -/
def PrunedRow (s' : SharedHub) (id : String) (e : Event) : Prop :=
  s'.hub.outbox.get? id = none ∧ ∃ beforeTimestamp, e = .pruneTerminalOutbox beforeTimestamp

/-- The step leaves every sent row as it is, or prunes it. -/
def SentFinal (env : HubEnv) (s : SharedHub) (e : Event) : Prop :=
  ∀ s', step env s e = some s' → ∀ id row, s.hub.outbox.get? id = some row → row.status = .sent →
    StillDelivered s' id row ∨ PrunedRow s' id e

/-- No delivery failure is written to a row that is sent. -/
def NotLate (s : SharedHub) : Event → Prop
  | .write n _ =>
    ∀ call, s.calls.get? n = some (.markOutboxDeliveryFailed call) →
      ∀ row, s.hub.outbox.get? call.id = some row → row.status ≠ .sent
  | _ => True

theorem conflict_of_sent (h : row.status = .sent) (excluded : OutboxRow) :
    row.conflict excluded = row := by
  rw [OutboxRow.conflict, if_pos h]

theorem not_due_of_sent (h : row.status = .sent) (stamp staleBefore : Int) :
    row.due stamp staleBefore = false := by
  simp [OutboxRow.due, h]

/-- Filing a reply leaves a sent row as it is. -/
theorem Filed.sent {before after : OrderedMap String OutboxRow} {reply : OutboxRow}
    (h : Filed before after reply) (hrow : before.get? id = some row) (hsent : row.status = .sent) :
    after.get? id = some row := by
  rcases h with ⟨id', row', hrow', -, rfl⟩ | ⟨id', hfree, -, rfl⟩
  · rw [OrderedMap.get?_set]
    by_cases hid : id = id'
    · rw [← hid, hrow, Option.some.injEq] at hrow'
      rw [if_pos hid, ← hrow', conflict_of_sent hsent]
    · rw [if_neg hid]
      exact hrow
  · have hid : id ≠ id' := by
      intro hid
      rw [← hid, hrow] at hfree
      exact absurd hfree (by simp)
    rw [OrderedMap.get?_set_ne _ _ hid]
    exact hrow

/-- Every move but a late delivery failure leaves a sent row as it is, or prunes
it. -/
theorem Move.sent {e : Event} (h : Move env s s' e) (hlate : NotLate s e)
    (hrow : s.hub.outbox.get? id = some row) (hsent : row.status = .sent) :
    StillDelivered s' id row ∨ PrunedRow s' id e := by
  cases h with
  | kept _ houtbox _ => exact Or.inl ⟨row, houtbox ▸ hrow, rfl⟩
  | started _ _ houtbox _ => exact Or.inl ⟨row, houtbox ▸ hrow, rfl⟩
  | @marked _ _ _ _ dispatch _ _ houtbox _ =>
    cases hurl : dispatch.replyUrl with
    | none =>
      rw [hurl] at houtbox
      exact Or.inl ⟨row, houtbox ▸ hrow, rfl⟩
    | some replyUrl =>
      rw [hurl] at houtbox
      exact Or.inl ⟨row, houtbox.sent hrow hsent, rfl⟩
  | claimed hclaim _ =>
    obtain ⟨-, hget, -⟩ := claimDueOutbox_ok hclaim
    refine Or.inl ⟨row, ?_, rfl⟩
    rw [hget, if_neg]
    · exact hrow
    · -- only rows that are due are claimed
      intro hmem
      obtain ⟨row', hrow', hdue⟩ := due_of_mem_dueIds hmem
      rw [hrow, Option.some.injEq] at hrow'
      rw [← hrow', not_due_of_sent hsent] at hdue
      exact absurd hdue (by simp)
  | @acknowledged _ _ _ id' stamp row' _ hrow' _ houtbox _ =>
    refine Or.inl ?_
    rw [StillDelivered, houtbox]
    by_cases hid : id = id'
    · -- a second acknowledgement moves the times, which are not part of the delivery
      rw [hid] at hrow ⊢
      rw [hrow, Option.some.injEq] at hrow'
      refine ⟨row'.acknowledged stamp, OrderedMap.get?_set_self .., ?_⟩
      rw [← hrow', OutboxRow.delivery, OutboxRow.delivery, hsent]
      rfl
    · exact ⟨row, (OrderedMap.get?_set_ne _ _ hid).trans hrow, rfl⟩
  | @deliveryFailed _ _ call row' hcall hrow' _ houtbox _ =>
    have hid : id ≠ call.id := by
      intro hid
      rw [hid] at hrow
      exact hlate call hcall row hrow hsent
    refine Or.inl ⟨row, ?_, rfl⟩
    rw [houtbox, OrderedMap.get?_set_ne _ _ hid]
    exact hrow
  | @pruned beforeTimestamp hhub _ =>
    rw [StillDelivered, PrunedRow, hhub, pruneTerminalOutbox, OrderedMap.get?_filter, hrow,
      Option.filter_some]
    split
    · exact Or.inl ⟨row, rfl, rfl⟩
    · exact Or.inr ⟨rfl, beforeTimestamp, rfl⟩

/-- The writing half of a delivery failure writes to the row that is there,
whatever its status. -/
theorem write_deliveryFailed {n : Nat} {call : FailureCall}
    (hcall : s.calls.get? n = some (.markOutboxDeliveryFailed call))
    (hrow : s.hub.outbox.get? call.id = some row) (env : HubEnv) (host : Host) :
    ∃ s', step env s (.write n host) = some s' ∧
      s'.hub.outbox.get? call.id = some (row.deliveryFailed call
        (env.redactSensitiveText call.error) (host.now 0)) := by
  refine ⟨_, by rw [step, hcall, Option.map_some], ?_⟩
  show (writeDeliveryFailed env host call s.hub).outbox.get? call.id = _
  rw [writeDeliveryFailed, OrderedMap.get?_modify, if_pos rfl, hrow, Option.map_some]

/-- A step keeps the sent rows final exactly when it writes no late failure. -/
theorem sentFinal_iff (env : HubEnv) (s : SharedHub) (e : Event) :
    SentFinal env s e ↔ NotLate s e := by
  constructor
  · intro hfinal
    cases e with
    | write n host =>
      intro call hcall row hrow hsent
      obtain ⟨s', hstep, hwritten⟩ := write_deliveryFailed hcall hrow env host
      rcases hfinal s' hstep call.id row hrow hsent with ⟨row', hrow', hdelivery⟩ | ⟨hnone, _⟩
      · -- the row is there, but its status is what a failure writes
        rw [hwritten, Option.some.injEq] at hrow'
        have hstatus : row'.status = row.status := congrArg Prod.fst hdelivery
        rw [← hrow', hsent] at hstatus
        rcases deliveryFailed_status row call (env.redactSensitiveText call.error) (host.now 0)
          with hdead | hfailed
        · exact absurd (hdead.symm.trans hstatus) (by simp)
        · exact absurd (hfailed.symm.trans hstatus) (by simp)
      · rw [hwritten] at hnone
        exact absurd hnone (by simp)
    | _ => trivial
  · intro hlate s' hstep id row hrow hsent
    exact (step_move hstep).sent hlate hrow hsent

/-! ## Whole runs -/

/-- From `s₁` over `post` to `s₂`, the row stays delivered or is pruned on the
way. -/
def DeliveredUntilPruned (env : HubEnv) (s₁ : SharedHub) (post : List Event) (s₂ : SharedHub)
    (id : String) (row : OutboxRow) : Prop :=
  StillDelivered s₂ id row ∨
    ∃ post₁ e post₂ t, post = post₁ ++ e :: post₂ ∧
      (hubRuns env).exec s₁ (post₁ ++ [e]) = some t ∧ PrunedRow t id e

/-- Wherever a row of the run is sent, it stays delivered until it is pruned. -/
def DeliveriesFinal (env : HubEnv) (es : List Event) : Prop :=
  ∀ pre post rest s₁ s₂, es = pre ++ (post ++ rest) →
    (hubRuns env).exec (hubRuns env).init pre = some s₁ →
    (hubRuns env).exec s₁ post = some s₂ →
    ∀ id row, s₁.hub.outbox.get? id = some row → row.status = .sent →
      DeliveredUntilPruned env s₁ post s₂ id row

/-- Steps that keep the sent rows final keep them so over a run. -/
theorem deliveredUntilPruned_of_steps {s₂ : SharedHub} : ∀ (post : List Event) {s₁ : SharedHub}
    {row : OutboxRow}, (hubRuns env).Along (SentFinal env) s₁ post →
    (hubRuns env).exec s₁ post = some s₂ → s₁.hub.outbox.get? id = some row →
    row.status = .sent → DeliveredUntilPruned env s₁ post s₂ id row := by
  intro post
  induction post with
  | nil =>
    intro s₁ row _ hrun hrow _
    rw [Lts.exec_nil, Option.some.injEq] at hrun
    exact Or.inl ⟨row, hrun ▸ hrow, rfl⟩
  | cons e post ih =>
    intro s₁ row hfinal hrun hrow hsent
    obtain ⟨t, hstep, hrest⟩ := Lts.exec_cons.mp hrun
    obtain ⟨he, hpost⟩ := (Lts.along_cons hstep).mp hfinal
    rcases he t hstep id row hrow hsent with ⟨row', hrow', hdelivery⟩ | hpruned
    · have hsent' : row'.status = .sent := (congrArg Prod.fst hdelivery).trans hsent
      rcases ih hpost hrest hrow' hsent' with ⟨row'', hrow'', hdelivery'⟩
        | ⟨post₁, e', post₂, u, heq, hu, hpruned⟩
      · exact Or.inl ⟨row'', hrow'', hdelivery'.trans hdelivery⟩
      · refine Or.inr ⟨e :: post₁, e', post₂, u, by rw [heq, List.cons_append], ?_, hpruned⟩
        exact Lts.exec_cons.mpr ⟨t, hstep, hu⟩
    · exact Or.inr ⟨[], e, post, t, rfl, Lts.exec_cons.mpr ⟨t, hstep, rfl⟩, hpruned⟩

/-- **Delivered replies are final, unless a delivery failure comes late.** In
every run, each row that is sent keeps its status, payload, target and attempts
until it is pruned, if and only if no delivery failure is written to a row that
is sent at that moment. -/
theorem delivered_rows_final (env : HubEnv) (es : List Event) :
    DeliveriesFinal env es ↔ (hubRuns env).Along NotLate (hubRuns env).init es := by
  rw [Lts.along_iff]
  constructor
  · intro hfinal pre e post s₁ hes hpre
    rw [← sentFinal_iff env]
    intro s₂ hstep id row hrow hsent
    rcases hfinal pre [e] post s₁ s₂ hes hpre (Lts.exec_cons.mpr ⟨s₂, hstep, rfl⟩) id row hrow hsent
      with hstill | ⟨post₁, e', post₂, t, heq, ht, hpruned⟩
    · exact Or.inl hstill
    · -- the row was pruned within the one step
      rw [List.singleton_eq_append_iff] at heq
      rcases heq with ⟨rfl, heq⟩ | ⟨-, heq⟩
      · rw [List.cons.injEq] at heq
        obtain ⟨u, hu, hrest⟩ := Lts.exec_cons.mp ht
        rw [heq.1] at hu hpruned
        obtain rfl : s₂ = u := Option.some.inj (hstep.symm.trans hu)
        rw [Lts.exec_nil, Option.some.injEq] at hrest
        exact Or.inr (hrest ▸ hpruned)
      · exact absurd heq (by simp)
  · -- the condition holds along every stretch of the run
    intro hlate pre post rest s₁ s₂ hes hpre hpost id row hrow hsent
    refine deliveredUntilPruned_of_steps post (Lts.along_iff.mpr ?_) hpost hrow hsent
    intro pre' e post' t hpost' hpre'
    rw [sentFinal_iff]
    refine hlate (pre ++ pre') e (post' ++ rest) t ?_ (Lts.exec_append.mpr ⟨s₁, hpre, hpre'⟩)
    rw [hes, hpost', List.append_assoc, List.append_assoc, List.cons_append]

/-- The first worker's POST fails after the second has delivered the reply. -/
def failedLate : List Event :=
  [.markOutboxDeliveryFailed 2 "m0" "reply webhook HTTP 503: " (some (.ofInt 1400)) (.ofNat 5),
   .write 2 (hostAt 1300 "f")]

/-- The late failure turns the delivered row into one that is due again. -/
theorem late_failure_revives_delivered :
    ¬ DeliveriesFinal sampleHubEnv (deliveredOnce ++ failedLate) := by
  have hsent : (sampleRow deliveredOnce).map (fun x => x.2.status) = some .sent := by
    decide +kernel
  have hfailed : (sampleRow (deliveredOnce ++ failedLate)).map (fun x => x.2.status)
      = some .failed := by
    decide +kernel
  obtain ⟨⟨s₁, row₁⟩, hrun₁, hstatus₁⟩ := Option.map_eq_some_iff.mp hsent
  obtain ⟨⟨s₂, row₂⟩, hrun₂, hstatus₂⟩ := Option.map_eq_some_iff.mp hfailed
  obtain ⟨hexec₁, hrow₁⟩ := sampleRow_eq hrun₁
  obtain ⟨hexec₂, hrow₂⟩ := sampleRow_eq hrun₂
  obtain ⟨t, ht, hpost⟩ := Lts.exec_append.mp hexec₂
  obtain rfl : s₁ = t := Option.some.inj (hexec₁.symm.trans ht)
  intro hfinal
  rcases hfinal deliveredOnce failedLate [] s₁ s₂ (by rw [List.append_nil]) hexec₁ hpost "m0" row₁
    hrow₁ hstatus₁ with ⟨row, hrow, hdelivery⟩ | ⟨post₁, e, post₂, u, heq, -, -, before, rfl⟩
  · obtain rfl : row₂ = row := Option.some.inj (hrow₂.symm.trans hrow)
    have hstatus : row₂.status = row₁.status := congrArg Prod.fst hdelivery
    rw [hstatus₁, hstatus₂] at hstatus
    exact absurd hstatus (by simp)
  · have hmem : Event.pruneTerminalOutbox before ∈ failedLate := by
      rw [heq]
      exact List.mem_append_right _ (List.mem_cons_self ..)
    simp [failedLate] at hmem

end Kovael.Hub
