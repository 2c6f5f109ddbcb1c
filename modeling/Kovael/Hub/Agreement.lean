import Kovael.Hub.Delivered

/-!
# Does a delivered reply say what the hub recorded?

The dispatch row and the reply row tell one outcome twice. They are written in
one transaction, so they agree when the reply is filed; but a reply that is
'sent' is not rewritten while its dispatch is, and an acknowledgement takes the
row as it is by then, not as it was handed out. `sent_replies_agree` says which
steps break the agreement: recording another outcome (or a new start) for a
request whose reply is sent, and acknowledging a reply that was filed anew
since it was handed to the worker.

`Consistent` is the invariant: one row per request, and each row agrees with
its dispatch as far as the dispatch has an outcome.
-/

namespace Kovael.Hub

open Js (Number OrderedMap Clock Json)

variable {env : HubEnv} {s s' : SharedHub} {id : String} {row : OutboxRow} {dispatch : DispatchRow}
  {payload : ReplyPayload}

/-! ## The agreement -/

/-- The runtime of the dispatch has ended. -/
def DispatchRow.Settled (row : DispatchRow) : Prop := row.status = .succeeded ∨ row.status = .failed

/-- The payload has the status of the dispatch, and its reply or error. -/
def DispatchRow.Records (row : DispatchRow) (payload : ReplyPayload) : Prop :=
  payload.status = row.status ∧
    (row.status = .succeeded ∧ row.replyContent = some payload.content ∨
      row.status = .failed ∧ row.error = some payload.content)

/-- The worker was handed the row with this payload, and the last
acknowledgement that turned the row to 'sent' is its. -/
def AckedBy (log : List Entry) (worker : Nat) (id : String) (payload : ReplyPayload) : Prop :=
  ∃ pre post stamp, log = pre ++ .acknowledged worker id :: post ∧
    (∀ worker', .acknowledged worker' id ∉ post) ∧ .claimed worker id stamp payload ∈ pre

/-- What is sent was handed to the worker that acknowledged it, and is what the
dispatch records. -/
def Agreed (s : SharedHub) : Prop :=
  ∀ id row, s.hub.outbox.get? id = some row → row.status = .sent →
    (∃ worker, AckedBy s.log worker id row.payload) ∧
    ∃ dispatch, s.hub.dispatches.get? row.requestId = some dispatch ∧ dispatch.Records row.payload

/-- The status that an outcome records. -/
def Outcome.status : Outcome → AgentDispatchStatus
  | .succeeded _ => .succeeded
  | .failed _ => .failed

/-- The reply or error that an outcome records. -/
def Outcome.content (env : HubEnv) : Outcome → String
  | .succeeded replyContent => replyContent
  | .failed error => env.redactSensitiveText error

/-- The entry hands the row with this payload to the worker. -/
def Entry.hands (worker : Nat) (id : String) (payload : ReplyPayload) : Entry → Bool
  | .claimed worker' id' _ payload' => worker' = worker && id' = id && payload' = payload
  | _ => false

/-- An acknowledgement that turns a row to 'sent' is of the payload that the
worker was handed, and the dispatch has an outcome. -/
def Call.Agreeable (s : SharedHub) : Call → Prop
  | .markOutboxSent worker id _ =>
    ∀ row ∈ s.hub.outbox.get? id, row.status ≠ .sent →
      (∃ entry ∈ s.log, entry.hands worker id row.payload = true) ∧
      ∀ dispatch ∈ s.hub.dispatches.get? row.requestId,
        dispatch.status = .succeeded ∨ dispatch.status = .failed
  | _ => True

/-- The steps that keep the agreement: no start of a request whose reply is
sent, no other outcome for it, and no acknowledgement but of what was handed
out. -/
def Agreeable (env : HubEnv) (s : SharedHub) : Event → Prop
  | .markDispatchRunning _ requestId =>
    ∀ e ∈ s.hub.outbox.entries, e.2.requestId = requestId → e.2.status ≠ .sent
  | .markDispatch _ requestId outcome _ =>
    ∀ e ∈ s.hub.outbox.entries, e.2.requestId = requestId → e.2.status = .sent →
      e.2.payload.status = outcome.status ∧ e.2.payload.content = outcome.content env
  | .write n _ => ∀ call ∈ s.calls.get? n, call.Agreeable s
  | _ => True

instance (s : SharedHub) : DecidablePred (Call.Agreeable s)
  | .markOutboxSent worker id _ =>
    inferInstanceAs (Decidable (∀ row ∈ s.hub.outbox.get? id, row.status ≠ .sent →
      (∃ entry ∈ s.log, entry.hands worker id row.payload = true) ∧
      ∀ dispatch ∈ s.hub.dispatches.get? row.requestId,
        dispatch.status = .succeeded ∨ dispatch.status = .failed))
  | .recordInboundDispatch _ | .markOutboxDeliveryFailed _ => inferInstanceAs (Decidable True)

instance (env : HubEnv) (s : SharedHub) : DecidablePred (Agreeable env s)
  | .markDispatchRunning _ requestId =>
    inferInstanceAs (Decidable (∀ e ∈ s.hub.outbox.entries,
      e.2.requestId = requestId → e.2.status ≠ .sent))
  | .markDispatch _ requestId outcome _ =>
    inferInstanceAs (Decidable (∀ e ∈ s.hub.outbox.entries, e.2.requestId = requestId →
      e.2.status = .sent →
      e.2.payload.status = outcome.status ∧ e.2.payload.content = outcome.content env))
  | .write n _ => inferInstanceAs (Decidable (∀ call ∈ s.calls.get? n, call.Agreeable s))
  | .recordInboundDispatch .. | .scheduleDispatchReplay .. | .claimDueOutbox ..
  | .markOutboxSent .. | .markOutboxDeliveryFailed .. | .pruneTerminalOutbox ..
  | .pruneOldReceipts .. => inferInstanceAs (Decidable True)

/-! ## The invariant -/

/-- The row is of a dispatch with a reply URL, agrees with the outcome that the
dispatch has, and with its last acknowledgement if it is sent. -/
structure RowAgrees (log : List Entry) (id : String) (row : OutboxRow) (dispatch : DispatchRow) :
    Prop where
  replyUrl : dispatch.replyUrl ≠ none
  records : dispatch.Settled → dispatch.Records row.payload
  sent : row.status = .sent →
    dispatch.Settled ∧ ∃ worker, AckedBy log worker id row.payload

structure Consistent (s : SharedHub) : Prop where
  key : ∀ id row, s.hub.outbox.get? id = some row → row.dedupeKey = dedupeKey row.requestId
  once : ∀ id row id' row', s.hub.outbox.get? id = some row → s.hub.outbox.get? id' = some row' →
    row.requestId = row'.requestId → id = id'
  agrees : ∀ id row, s.hub.outbox.get? id = some row →
    ∃ dispatch, s.hub.dispatches.get? row.requestId = some dispatch ∧
      RowAgrees s.log id row dispatch

/-- What the invariant is for. -/
theorem Consistent.agreed (h : Consistent s) : Agreed s := by
  intro id row hrow hsent
  obtain ⟨dispatch, hdispatch, hagrees⟩ := h.agrees id row hrow
  obtain ⟨hsettled, hacked⟩ := hagrees.sent hsent
  exact ⟨hacked, dispatch, hdispatch, hagrees.records hsettled⟩

/-- Later entries do not take an acknowledgement back, unless they acknowledge
the row themselves. -/
theorem AckedBy.append {log log' : List Entry} {worker : Nat} (h : AckedBy log worker id payload)
    (hnone : ∀ worker', .acknowledged worker' id ∉ log') :
    AckedBy (log ++ log') worker id payload := by
  obtain ⟨pre, post, stamp, hlog, hlast, hclaim⟩ := h
  refine ⟨pre, post ++ log', stamp, by rw [hlog, List.append_assoc, List.cons_append], ?_, hclaim⟩
  intro worker' hmem
  rcases List.mem_append.mp hmem with hpost | hlog'
  · exact hlast worker' hpost
  · exact hnone worker' hlog'

/-- An acknowledgement of what was handed out. -/
theorem AckedBy.last {log : List Entry} {worker : Nat} {stamp : Int}
    (h : .claimed worker id stamp payload ∈ log) :
    AckedBy (log ++ [.acknowledged worker id]) worker id payload :=
  ⟨log, [], stamp, rfl, fun _ => List.not_mem_nil, h⟩

/-- The acknowledgement at the end of the log is the last one of its row. -/
theorem AckedBy.of_last {log : List Entry} {worker worker' : Nat}
    (h : AckedBy (log ++ [.acknowledged worker id]) worker' id payload) :
    ∃ stamp, .claimed worker id stamp payload ∈ log := by
  obtain ⟨pre, post, stamp, hlog, hlast, hclaim⟩ := h
  rcases append_singleton_cases hlog with ⟨hpre, hnew, -⟩ | ⟨post', -, hpost⟩
  · rw [Entry.acknowledged.injEq] at hnew
    rw [hpre, hnew.1]
    exact ⟨stamp, hclaim⟩
  · rw [hpost] at hlast
    exact absurd (List.mem_append_right _ (List.mem_singleton_self _)) (hlast worker)

theorem hands_iff {log : List Entry} {worker : Nat} :
    (∃ entry ∈ log, entry.hands worker id payload = true) ↔
      ∃ stamp, .claimed worker id stamp payload ∈ log := by
  constructor
  · intro hgiven
    obtain ⟨entry, hmem, hhands⟩ := hgiven
    cases entry with
    | claimed worker' id' stamp payload' =>
      simp only [Entry.hands, Bool.and_eq_true, decide_eq_true_eq] at hhands
      obtain ⟨⟨rfl, rfl⟩, rfl⟩ := hhands
      exact ⟨stamp, hmem⟩
    | _ => exact absurd hhands (by simp [Entry.hands])
  · intro hgiven
    obtain ⟨stamp, hmem⟩ := hgiven
    exact ⟨_, hmem, by simp [Entry.hands]⟩

/-- A row agrees with a dispatch of the same outcome. -/
theorem RowAgrees.of_sameOutcome {log log' : List Entry} {dispatch' : DispatchRow}
    (h : RowAgrees log id row dispatch) (hsame : SameOutcome dispatch dispatch')
    (hnone : ∀ worker, .acknowledged worker id ∉ log') :
    RowAgrees (log ++ log') id row dispatch' := by
  refine ⟨hsame.replyUrl ▸ h.replyUrl, ?_, ?_⟩
  · intro hsettled
    rw [DispatchRow.Settled, hsame.status] at hsettled
    rw [DispatchRow.Records, hsame.status, hsame.replyContent, hsame.error]
    exact h.records hsettled
  · intro hsent
    obtain ⟨hsettled, worker, hacked⟩ := h.sent hsent
    refine ⟨?_, worker, hacked.append hnone⟩
    rw [DispatchRow.Settled, hsame.status]
    exact hsettled

/-- An outcome settles the dispatch. -/
theorem settled_settled (host : Host) (outcome : Outcome) (dispatch : DispatchRow) :
    (outcome.settled env host dispatch).Settled := by
  cases outcome with
  | succeeded replyContent => exact Or.inl rfl
  | failed error => exact Or.inr rfl

theorem settled_replyUrl (host : Host) (outcome : Outcome) (dispatch : DispatchRow) :
    (outcome.settled env host dispatch).replyUrl = dispatch.replyUrl := by
  cases outcome <;> rfl

/-- What a settled dispatch records is the outcome. -/
theorem settled_records_iff (host : Host) (outcome : Outcome) (dispatch : DispatchRow)
    (payload : ReplyPayload) :
    (outcome.settled env host dispatch).Records payload ↔
      payload.status = outcome.status ∧ payload.content = outcome.content env := by
  cases outcome with
  | succeeded replyContent =>
    simp [DispatchRow.Records, Outcome.settled, DispatchRow.succeeded, Outcome.status,
      Outcome.content, eq_comm]
  | failed error =>
    simp [DispatchRow.Records, Outcome.settled, DispatchRow.failed, Outcome.status,
      Outcome.content, eq_comm]

/-- The reply that is filed with an outcome says the outcome. -/
theorem reply_records (host : Host) (requestId : String) (outcome : Outcome)
    (proofFields : ProofFields) (dispatch dispatch' : DispatchRow) :
    (outcome.settled env host dispatch').Records
      (outcome.reply env requestId proofFields dispatch) := by
  rw [settled_records_iff]
  cases outcome <;> exact ⟨rfl, rfl⟩

/-- A step that files no row. -/
theorem Consistent.of_rows (h : Consistent s)
    (hrows : ∀ id row', s'.hub.outbox.get? id = some row' → ∃ row,
      s.hub.outbox.get? id = some row ∧ row'.requestId = row.requestId ∧
        row'.dedupeKey = row.dedupeKey)
    (hagrees : ∀ id row', s'.hub.outbox.get? id = some row' →
      ∃ dispatch, s'.hub.dispatches.get? row'.requestId = some dispatch ∧
        RowAgrees s'.log id row' dispatch) : Consistent s' := by
  refine ⟨?_, ?_, hagrees⟩
  · intro id row' hrow'
    obtain ⟨row, hrow, hrequest, hkey⟩ := hrows id row' hrow'
    rw [hkey, hrequest]
    exact h.key id row hrow
  · intro id₁ row₁' id₂ row₂' hrow₁' hrow₂' hsame
    obtain ⟨row₁, hrow₁, hrequest₁, -⟩ := hrows id₁ row₁' hrow₁'
    obtain ⟨row₂, hrow₂, hrequest₂, -⟩ := hrows id₂ row₂' hrow₂'
    exact h.once id₁ row₁ id₂ row₂ hrow₁ hrow₂ (by rw [← hrequest₁, hsame, hrequest₂])

/-- A step that keeps the outcomes and the outbox. -/
theorem Consistent.of_kept (h : Consistent s) {log : List Entry}
    (hdispatches : Kept s.hub.dispatches s'.hub.dispatches)
    (houtbox : s'.hub.outbox = s.hub.outbox) (hlog : s'.log = s.log ++ log)
    (hnone : ∀ worker id, .acknowledged worker id ∉ log) : Consistent s' := by
  refine h.of_rows (fun id row' hrow' => ⟨row', houtbox ▸ hrow', rfl, rfl⟩) ?_
  intro id row hrow
  obtain ⟨dispatch, hdispatch, hagrees⟩ := h.agrees id row (houtbox ▸ hrow)
  obtain ⟨dispatch', hdispatch', hsame⟩ := hdispatches _ _ hdispatch
  exact ⟨dispatch', hdispatch', hlog ▸ hagrees.of_sameOutcome hsame (fun w => hnone w id)⟩

/-- A start: the dispatch of no sent row. -/
theorem Consistent.started (h : Consistent s) {requestId : String} {stamp : Int}
    (hrow : s.hub.dispatches.get? requestId = some dispatch)
    (hdispatches : s'.hub.dispatches = s.hub.dispatches.set requestId (dispatch.started stamp))
    (houtbox : s'.hub.outbox = s.hub.outbox) (hlog : s'.log = s.log)
    (hnotsent : ∀ id row, s.hub.outbox.get? id = some row → row.requestId = requestId →
      row.status ≠ .sent) : Consistent s' := by
  refine h.of_rows (fun id row' hrow' => ⟨row', houtbox ▸ hrow', rfl, rfl⟩) ?_
  intro id row hoccurs
  rw [houtbox] at hoccurs
  obtain ⟨dispatch', hdispatch', hagrees⟩ := h.agrees id row hoccurs
  rw [hdispatches, OrderedMap.get?_set, hlog]
  by_cases hr : row.requestId = requestId
  · -- a started dispatch has no outcome that a row could disagree with
    rw [hr, hrow, Option.some.injEq] at hdispatch'
    rw [if_pos hr]
    refine ⟨_, rfl, ?_, ?_, fun hsent => absurd hsent (hnotsent id row hoccurs hr)⟩
    · show dispatch.replyUrl ≠ none
      rw [hdispatch']
      exact hagrees.replyUrl
    · rintro (hstatus | hstatus) <;> exact absurd hstatus (by simp [DispatchRow.started])
  · rw [if_neg hr]
    exact ⟨dispatch', hdispatch', hagrees⟩

/-- The rows of the other requests, after a step that settles one dispatch. -/
theorem Consistent.agrees_other (h : Consistent s) {requestId : String} {log : List Entry}
    (hdispatches : s'.hub.dispatches = s.hub.dispatches.set requestId dispatch)
    (hlog : s'.log = s.log ++ log) (hnone : ∀ worker, .acknowledged worker id ∉ log)
    (hrow : s.hub.outbox.get? id = some row) (hr : row.requestId ≠ requestId) :
    ∃ dispatch, s'.hub.dispatches.get? row.requestId = some dispatch ∧
      RowAgrees s'.log id row dispatch := by
  obtain ⟨dispatch', hdispatch', hagrees⟩ := h.agrees id row hrow
  rw [hdispatches, OrderedMap.get?_set_ne _ _ hr, hlog]
  exact ⟨dispatch', hdispatch', hagrees.of_sameOutcome .rfl hnone⟩

/-- A step that settles a dispatch and writes the one row of its request. -/
theorem Consistent.of_filed (h : Consistent s) {requestId : String} {log : List Entry}
    (hdispatches : s'.hub.dispatches = s.hub.dispatches.set requestId dispatch)
    (houtbox : s'.hub.outbox = s.hub.outbox.set id row) (hlog : s'.log = s.log ++ log)
    (hnone : ∀ worker id, .acknowledged worker id ∉ log)
    (hrequest : row.requestId = requestId) (hkey : row.dedupeKey = dedupeKey requestId)
    (honly : ∀ id' row', s.hub.outbox.get? id' = some row' → row'.requestId = requestId → id' = id)
    (hagrees : RowAgrees s'.log id row dispatch) : Consistent s' := by
  have hcases : ∀ id' row', s'.hub.outbox.get? id' = some row' →
      id' = id ∧ row' = row ∨
        s.hub.outbox.get? id' = some row' ∧ row'.requestId ≠ requestId := by
    intro id' row' hrow'
    rw [houtbox] at hrow'
    rcases OrderedMap.get?_set_some hrow' with hnew | ⟨hid, hold⟩
    · exact Or.inl hnew
    · exact Or.inr ⟨hold, fun hr => hid (honly id' row' hold hr)⟩
  constructor
  case key =>
    intro id' row' hrow'
    rcases hcases id' row' hrow' with ⟨-, rfl⟩ | ⟨hold, -⟩
    · rw [hkey, hrequest]
    · exact h.key id' row' hold
  case once =>
    intro id₁ row₁ id₂ row₂ hrow₁ hrow₂ hsame
    rcases hcases id₁ row₁ hrow₁ with ⟨hid₁, heq₁⟩ | ⟨hold₁, hne₁⟩ <;>
      rcases hcases id₂ row₂ hrow₂ with ⟨hid₂, heq₂⟩ | ⟨hold₂, hne₂⟩
    · rw [hid₁, hid₂]
    · exact absurd (by rw [← hsame, heq₁, hrequest]) hne₂
    · exact absurd (by rw [hsame, heq₂, hrequest]) hne₁
    · exact h.once id₁ row₁ id₂ row₂ hold₁ hold₂ hsame
  case agrees =>
    intro id' row' hrow'
    rcases hcases id' row' hrow' with ⟨rfl, rfl⟩ | ⟨hold, hne⟩
    · refine ⟨dispatch, ?_, hagrees⟩
      rw [hdispatches, hrequest, OrderedMap.get?_set_self]
    · exact h.agrees_other hdispatches hlog (fun w => hnone w id') hold hne

/-- The row of a request after another outcome was filed: it says the new
outcome, or it was sent with the same. -/
theorem conflict_agrees {log log' : List Entry} {host : Host} {requestId targetUrl : String}
    {outcome : Outcome} {proofFields : ProofFields} {stamp : Int} {dispatch' : DispatchRow}
    (hagrees : RowAgrees log id row dispatch') (hurl : dispatch.replyUrl ≠ none)
    (hnone : ∀ worker, .acknowledged worker id ∉ log')
    (hsame : row.status = .sent →
      row.payload.status = outcome.status ∧ row.payload.content = outcome.content env) :
    RowAgrees (log ++ log') id
      (row.conflict (newReply env requestId targetUrl
        (outcome.reply env requestId proofFields dispatch) stamp))
      (outcome.settled env host dispatch) := by
  have hhasUrl : (outcome.settled env host dispatch).replyUrl ≠ none := by
    rw [settled_replyUrl]
    exact hurl
  unfold OutboxRow.conflict
  split
  next hsent =>
    -- a sent row keeps its payload
    refine ⟨hhasUrl, fun _ => (settled_records_iff ..).mpr (hsame hsent), ?_⟩
    intro _
    obtain ⟨-, worker, hacked⟩ := hagrees.sent hsent
    exact ⟨settled_settled host outcome dispatch, worker, hacked.append hnone⟩
  next =>
    -- any other row gets the payload of this outcome
    refine ⟨hhasUrl, fun _ => reply_records .., ?_⟩
    intro hsent
    exact absurd hsent (by simp)

/-- An outcome: the dispatch is settled, and its row starts over with the reply
of the outcome or was sent with it. -/
theorem Consistent.marked (h : Consistent s) {host : Host} {requestId : String}
    {outcome : Outcome} {proofFields : ProofFields}
    (hrow : s.hub.dispatches.get? requestId = some dispatch)
    (hdispatches : s'.hub.dispatches
      = s.hub.dispatches.set requestId (outcome.settled env host dispatch))
    (houtbox : match dispatch.replyUrl with
      | none => s'.hub.outbox = s.hub.outbox
      | some replyUrl => Filed s.hub.outbox s'.hub.outbox (newReply env requestId replyUrl
          (outcome.reply env requestId proofFields dispatch) (host.now 0)))
    (hlog : s'.log = s.log ++ [.marked requestId])
    (hsame : ∀ id row, s.hub.outbox.get? id = some row → row.requestId = requestId →
      row.status = .sent →
      row.payload.status = outcome.status ∧ row.payload.content = outcome.content env) :
    Consistent s' := by
  have hnone : ∀ worker id, (.acknowledged worker id : Entry) ∉ [.marked requestId] := by simp
  cases hurl : dispatch.replyUrl with
  | none =>
    rw [hurl] at houtbox
    refine h.of_rows (fun id row' hrow' => ⟨row', houtbox ▸ hrow', rfl, rfl⟩) ?_
    intro id row hoccurs
    rw [houtbox] at hoccurs
    refine h.agrees_other hdispatches hlog (fun w => hnone w id) hoccurs ?_
    -- a dispatch that has a row has a URL
    intro hr
    obtain ⟨dispatch', hdispatch', hagrees⟩ := h.agrees id row hoccurs
    rw [hr, hrow, Option.some.injEq] at hdispatch'
    exact hagrees.replyUrl (hdispatch' ▸ hurl)
  | some replyUrl =>
    have hsome : dispatch.replyUrl ≠ none := by
      rw [hurl]
      simp
    rw [hurl] at houtbox
    rcases houtbox with ⟨id₀, row₀, hrow₀, hkey₀, hset⟩ | ⟨id₀, -, hkeys, hset⟩
    · -- the request has a row, which starts over or stays
      have hr₀ : row₀.requestId = requestId :=
        dedupeKey_injective ((h.key id₀ row₀ hrow₀).symm.trans hkey₀)
      obtain ⟨dispatch₀, -, hagrees⟩ := h.agrees id₀ row₀ hrow₀
      refine h.of_filed hdispatches hset hlog hnone ?_ ?_ ?_ ?_
      · unfold OutboxRow.conflict
        split <;> exact hr₀
      · unfold OutboxRow.conflict
        split <;> exact hkey₀
      · intro id row hoccurs hr
        exact h.once id row id₀ row₀ hoccurs hrow₀ (hr.trans hr₀.symm)
      · rw [hlog]
        exact conflict_agrees hagrees hsome (fun w => hnone w id₀) (hsame id₀ row₀ hrow₀ hr₀)
    · -- the request has no row yet
      refine h.of_filed hdispatches hset hlog hnone rfl rfl ?_ ?_
      · intro id row hoccurs hr
        refine absurd ?_ (hkeys id row hoccurs)
        rw [h.key id row hoccurs, hr]
        rfl
      · refine ⟨?_, fun _ => reply_records .., fun hsent => absurd hsent (by simp [newReply])⟩
        rw [settled_replyUrl]
        exact hsome

/-- A step that rewrites one row, not its payload. -/
theorem Consistent.of_set (h : Consistent s) {row' : OutboxRow} {log : List Entry}
    (hrow : s.hub.outbox.get? id = some row)
    (hdispatches : s'.hub.dispatches = s.hub.dispatches)
    (houtbox : s'.hub.outbox = s.hub.outbox.set id row') (hlog : s'.log = s.log ++ log)
    (hkeep : row'.requestId = row.requestId ∧ row'.dedupeKey = row.dedupeKey ∧
      row'.payload = row.payload)
    (hnone : ∀ id', id' ≠ id → ∀ worker, .acknowledged worker id' ∉ log)
    (hsent : row'.status = .sent → ∀ dispatch, s.hub.dispatches.get? row.requestId = some dispatch →
      dispatch.Settled ∧ ∃ worker, AckedBy s'.log worker id row.payload) : Consistent s' := by
  obtain ⟨hrequest, hkey, hpayload⟩ := hkeep
  have hget : ∀ id', s'.hub.outbox.get? id' = if id' = id then some row'
      else s.hub.outbox.get? id' := fun id' => by rw [houtbox, OrderedMap.get?_set]
  refine h.of_rows ?_ ?_
  · intro id' row'' hrow''
    rw [hget] at hrow''
    by_cases hid : id' = id
    · rw [if_pos hid, Option.some.injEq] at hrow''
      rw [hid, ← hrow'']
      exact ⟨row, hrow, hrequest, hkey⟩
    · rw [if_neg hid] at hrow''
      exact ⟨row'', hrow'', rfl, rfl⟩
  · intro id' row'' hrow''
    rw [hget] at hrow''
    by_cases hid : id' = id
    · rw [if_pos hid, Option.some.injEq] at hrow''
      obtain ⟨dispatch, hdispatch, hagrees⟩ := h.agrees id row hrow
      rw [hid, ← hrow'', hrequest, hdispatches]
      refine ⟨dispatch, hdispatch, hagrees.replyUrl, hpayload ▸ hagrees.records, ?_⟩
      rw [hpayload]
      exact fun hstatus => hsent hstatus dispatch hdispatch
    · rw [if_neg hid] at hrow''
      obtain ⟨dispatch, hdispatch, hagrees⟩ := h.agrees id' row'' hrow''
      rw [hdispatches, hlog]
      exact ⟨dispatch, hdispatch, hagrees.of_sameOutcome .rfl (hnone id' hid)⟩

/-- A claim keeps the payloads. -/
theorem Consistent.claimed (h : Consistent s) {worker : Nat} {host : Host} {limit leaseMs : Number}
    {rows : List (String × OutboxRow)}
    (hclaim : claimDueOutbox host limit leaseMs s.hub = .ok (s'.hub, rows))
    (hlog : s'.log = s.log ++ handed worker (host.now 0) rows) : Consistent s' := by
  obtain ⟨hdispatches, hget, -, -⟩ := claimDueOutbox_ok hclaim
  have hnone : ∀ worker' id,
      (.acknowledged worker' id : Entry) ∉ handed worker (host.now 0) rows := by
    intro worker' id hmem
    obtain ⟨r, -, hentry⟩ := List.mem_map.mp hmem
    exact absurd hentry (by simp)
  have hback : ∀ id row', s'.hub.outbox.get? id = some row' → ∃ row,
      s.hub.outbox.get? id = some row ∧ (row' = row ∨ row' = row.claim (host.now 0)) := by
    intro id row' hrow'
    rw [hget] at hrow'
    split at hrow'
    next =>
      obtain ⟨row, hrow, hclaimed⟩ := Option.map_eq_some_iff.mp hrow'
      exact ⟨row, hrow, Or.inr hclaimed.symm⟩
    next => exact ⟨row', hrow', Or.inl rfl⟩
  refine h.of_rows ?_ ?_
  · intro id row' hrow'
    obtain ⟨row, hrow, rfl | rfl⟩ := hback id row' hrow'
    · exact ⟨row', hrow, rfl, rfl⟩
    · exact ⟨row, hrow, rfl, rfl⟩
  · intro id row' hrow'
    rw [hdispatches, hlog]
    obtain ⟨row, hrow, hcase⟩ := hback id row' hrow'
    obtain ⟨dispatch, hdispatch, hagrees⟩ := h.agrees id row hrow
    have hsame := hagrees.of_sameOutcome .rfl (fun w => hnone w id)
    rcases hcase with rfl | rfl
    · exact ⟨dispatch, hdispatch, hsame⟩
    · exact ⟨dispatch, hdispatch, hsame.replyUrl, hsame.records,
        fun hsent => absurd hsent (by simp [OutboxRow.claim])⟩

/-- An acknowledgement of what was handed out, or of what is sent already. -/
theorem Consistent.acknowledged (h : Consistent s) {worker : Nat} {stamp : Int}
    (hrow : s.hub.outbox.get? id = some row)
    (hdispatches : s'.hub.dispatches = s.hub.dispatches)
    (houtbox : s'.hub.outbox = s.hub.outbox.set id (row.acknowledged stamp))
    (hlog : s'.log = s.log ++ acknowledgement worker id s.hub)
    (hhanded : row.status ≠ .sent →
      (∃ stamp, .claimed worker id stamp row.payload ∈ s.log) ∧
      ∀ dispatch, s.hub.dispatches.get? row.requestId = some dispatch → dispatch.Settled) :
    Consistent s' := by
  rw [acknowledgement, hrow] at hlog
  by_cases hsent : row.status = .sent
  · -- acknowledged before: only the times move, and nothing is logged
    simp only [Option.any_some, hsent, ne_eq, not_true, decide_false, Bool.false_eq_true,
      if_false] at hlog
    refine h.of_set hrow hdispatches houtbox hlog ⟨rfl, rfl, rfl⟩
      (fun _ _ _ => List.not_mem_nil) ?_
    intro _ dispatch hdispatch
    obtain ⟨dispatch', hdispatch', hagrees⟩ := h.agrees id row hrow
    obtain rfl : dispatch' = dispatch := Option.some.inj (hdispatch'.symm.trans hdispatch)
    rw [hlog, List.append_nil]
    exact hagrees.sent hsent
  · simp only [Option.any_some, hsent, ne_eq, not_false_eq_true, decide_true, if_true] at hlog
    obtain ⟨⟨claimedAt, hclaim⟩, hsettled⟩ := hhanded hsent
    refine h.of_set hrow hdispatches houtbox hlog ⟨rfl, rfl, rfl⟩ ?_ ?_
    · intro id' hid worker' hmem
      rw [List.mem_singleton, Entry.acknowledged.injEq] at hmem
      exact hid hmem.2
    · intro _ dispatch hdispatch
      rw [hlog]
      exact ⟨hsettled dispatch hdispatch, worker, .last hclaim⟩

/-- A step that is agreeable keeps the invariant. -/
theorem step_consistent (h : Consistent s) {e : Event} (hstep : step env s e = some s')
    (he : Agreeable env s e) : Consistent s' := by
  cases step_move hstep with
  | kept hdispatches houtbox hlog =>
    exact h.of_kept hdispatches houtbox (hlog.trans (List.append_nil _).symm)
      (fun _ _ => List.not_mem_nil)
  | started hrow hdispatches houtbox hlog =>
    refine h.started hrow hdispatches houtbox hlog ?_
    intro id row hoccurs hr
    exact he (id, row) ((s.hub.outbox.mem_entries_iff id row).mpr hoccurs) hr
  | marked hrow hdispatches houtbox hlog =>
    refine h.marked hrow hdispatches houtbox hlog ?_
    intro id row hoccurs hr hsent
    exact he (id, row) ((s.hub.outbox.mem_entries_iff id row).mpr hoccurs) hr hsent
  | claimed hclaim hlog => exact h.claimed hclaim hlog
  | acknowledged hcall hrow hdispatches houtbox hlog =>
    refine h.acknowledged hrow hdispatches houtbox hlog ?_
    intro hsent
    obtain ⟨hhanded, hsettled⟩ := he _ hcall _ hrow hsent
    exact ⟨hands_iff.mp hhanded, hsettled⟩
  | @deliveryFailed _ host call row _ hrow hdispatches houtbox hlog =>
    refine h.of_set hrow hdispatches houtbox hlog ⟨rfl, rfl, rfl⟩ (fun _ _ _ => by simp) ?_
    intro hsent
    have hstatus := deliveryFailed_status row call (env.redactSensitiveText call.error) (host.now 0)
    rw [hsent] at hstatus
    exact absurd hstatus (by simp)
  | @pruned beforeTimestamp hhub hlog =>
    have hback : ∀ id row, s'.hub.outbox.get? id = some row → s.hub.outbox.get? id = some row := by
      intro id row hrow
      rw [hhub, pruneTerminalOutbox, OrderedMap.get?_filter, Option.filter_eq_some_iff] at hrow
      exact hrow.1
    refine h.of_rows (fun id row hrow => ⟨row, hback id row hrow, rfl, rfl⟩) ?_
    intro id row hrow
    rw [hlog, hhub]
    exact h.agrees id row (hback id row hrow)

theorem init_consistent : Consistent (hubRuns env).init where
  key id row hrow := absurd hrow (by simp [hubRuns, SharedHub.init, AgentHub.init])
  once id row id' row' hrow := absurd hrow (by simp [hubRuns, SharedHub.init, AgentHub.init])
  agrees id row hrow := absurd hrow (by simp [hubRuns, SharedHub.init, AgentHub.init])

/-! ## The condition is exact -/

/-- A start takes the outcome of a sent reply away. -/
theorem started_disagrees {host : Host} {requestId : String}
    (hstep : step env s (.markDispatchRunning host requestId) = some s') (hhub : s'.hub ≠ s.hub)
    (he : ¬ Agreeable env s (.markDispatchRunning host requestId)) : ¬ Agreed s' := by
  intro hagreed
  refine he ?_
  intro e hmem hr hsent
  have hoccurs := (s.hub.outbox.mem_entries_iff e.1 e.2).mp hmem
  rw [step, Option.some.injEq] at hstep
  cases hm : markDispatchRunning env host requestId s.hub with
  | error msg =>
    rw [hm, SharedHub.commit] at hstep
    exact hhub (hstep ▸ rfl)
  | ok hub =>
    rw [hm, SharedHub.commit] at hstep
    obtain ⟨dispatch, -, hdispatches, houtbox⟩ := markDispatchRunning_ok hm
    subst hstep
    obtain ⟨-, dispatch', hdispatch', -, hrecords⟩ := hagreed e.1 e.2 (houtbox ▸ hoccurs) hsent
    have hself : hub.dispatches.get? requestId = some (dispatch.started (host.now 0)) := by
      rw [hdispatches, OrderedMap.get?_set_self]
    rw [hr] at hdispatch'
    obtain rfl : dispatch.started (host.now 0) = dispatch' :=
      Option.some.inj (hself.symm.trans hdispatch')
    rcases hrecords with ⟨hstatus, -⟩ | ⟨hstatus, -⟩ <;>
      exact absurd hstatus (by simp [DispatchRow.started])

/-- Another outcome leaves the sent reply as it was. -/
theorem marked_disagrees (h : Consistent s) {host : Host} {requestId : String} {outcome : Outcome}
    {proofFields : ProofFields}
    (hstep : step env s (.markDispatch host requestId outcome proofFields) = some s')
    (hhub : s'.hub ≠ s.hub)
    (he : ¬ Agreeable env s (.markDispatch host requestId outcome proofFields)) : ¬ Agreed s' := by
  intro hagreed
  refine he ?_
  intro e hmem hr hsent
  have hoccurs := (s.hub.outbox.mem_entries_iff e.1 e.2).mp hmem
  rw [step, Option.some.injEq] at hstep
  cases hm : markDispatch env host requestId outcome proofFields s.hub with
  | error msg =>
    rw [hm] at hstep
    exact absurd (hstep ▸ rfl) hhub
  | ok marked =>
    obtain ⟨hub, outboxId⟩ := marked
    rw [hm] at hstep
    obtain ⟨dispatch, hdispatch, hdispatches, houtbox⟩ := markDispatch_ok hm
    subst hstep
    -- the row was sent, so filing the new reply left it as it was
    have hkept : hub.outbox.get? e.1 = some e.2 := by
      obtain ⟨dispatch', hdispatch', hagrees⟩ := h.agrees e.1 e.2 hoccurs
      rw [hr] at hdispatch'
      obtain rfl : dispatch = dispatch' := Option.some.inj (hdispatch.symm.trans hdispatch')
      cases hurl : dispatch.replyUrl with
      | none => exact absurd hurl hagrees.replyUrl
      | some replyUrl =>
        rw [hurl] at houtbox
        exact houtbox.sent hoccurs hsent
    obtain ⟨-, dispatch', hdispatch', hrecords⟩ := hagreed e.1 e.2 hkept hsent
    have hself : hub.dispatches.get? requestId = some (outcome.settled env host dispatch) := by
      rw [hdispatches, OrderedMap.get?_set_self]
    rw [hr] at hdispatch'
    obtain rfl : outcome.settled env host dispatch = dispatch' :=
      Option.some.inj (hself.symm.trans hdispatch')
    exact (settled_records_iff host outcome dispatch e.2.payload).mp hrecords

/-- An acknowledgement of what its worker was not handed, or of a dispatch that
is running again. -/
theorem acknowledged_disagrees {n : Nat} {host : Host}
    (hstep : step env s (.write n host) = some s')
    (he : ¬ Agreeable env s (.write n host)) : ¬ Agreed s' := by
  intro hagreed
  refine he ?_
  intro call hcall
  cases call with
  | recordInboundDispatch call => trivial
  | markOutboxDeliveryFailed call => trivial
  | markOutboxSent worker id stamp =>
    intro row hrow hsent
    have hwrite : s' = Call.write env host { s with calls := s.calls.delete n }
        (.markOutboxSent worker id stamp) := by
      rw [step, hcall, Option.map_some, Option.some.injEq] at hstep
      exact hstep.symm
    rw [Option.mem_def] at hrow
    simp only [Call.write, writeOutboxSent, acknowledgement, hrow, Option.any_some, hsent, ne_eq,
      not_false_eq_true, decide_true, if_true, SharedHub.commit] at hwrite
    subst hwrite
    obtain ⟨⟨worker', hacked⟩, dispatch', hdispatch', hrecords⟩ :=
      hagreed id (row.acknowledged stamp) (OrderedMap.get?_set_self ..) rfl
    refine ⟨hands_iff.mpr hacked.of_last, ?_⟩
    intro dispatch hdispatch
    obtain rfl : dispatch' = dispatch := Option.some.inj (hdispatch'.symm.trans hdispatch)
    rcases hrecords.2 with ⟨hstatus, -⟩ | ⟨hstatus, -⟩
    · exact Or.inl hstatus
    · exact Or.inr hstatus

/-- **What is sent is what is recorded, if the steps are agreeable.** After every
run of agreeable steps, each reply that is sent was handed, with the payload it
has, to the worker that acknowledged it, and the payload has the status of the
dispatch and its reply or error. And the first step that is not agreeable (and
that the hub does not refuse) breaks this. -/
theorem sent_replies_agree (env : HubEnv) (es : List Event) (s : SharedHub)
    (hrun : (hubRuns env).exec (hubRuns env).init es = some s)
    (hes : (hubRuns env).Along (Agreeable env) (hubRuns env).init es) :
    Agreed s ∧ ∀ e s', step env s e = some s' → s'.hub ≠ s.hub → ¬ Agreeable env s e →
      ¬ Agreed s' := by
  have h : Consistent s := Lts.exec_invariant (I := Consistent) (C := Agreeable env)
    (fun _ _ _ hI hC hst => step_consistent hI hst hC) es init_consistent hrun hes
  refine ⟨h.agreed, ?_⟩
  intro e s' hstep hhub he
  cases e with
  | markDispatchRunning host requestId => exact started_disagrees hstep hhub he
  | markDispatch host requestId outcome proofFields => exact marked_disagrees h hstep hhub he
  | write n host => exact acknowledged_disagrees hstep he
  | _ => exact absurd trivial he

/-- The reply that the second worker delivers is the recorded one. -/
theorem delivered_once_agrees :
    ∃ s row, sampleRow deliveredOnce = some (s, row) ∧ row.status = .sent ∧
      (∃ worker, AckedBy s.log worker "m0" row.payload) ∧
      ∃ dispatch, s.hub.dispatches.get? row.requestId = some dispatch ∧
        dispatch.Records row.payload := by
  have hsent : (sampleRow deliveredOnce).map (fun x => x.2.status) = some .sent := by
    decide +kernel
  have halong : (hubRuns sampleHubEnv).Along (Agreeable sampleHubEnv) .init deliveredOnce := by
    decide +kernel
  obtain ⟨⟨s, row⟩, hrun, hstatus⟩ := Option.map_eq_some_iff.mp hsent
  obtain ⟨hexec, hrow⟩ := sampleRow_eq hrun
  have hagreed := (sent_replies_agree sampleHubEnv deliveredOnce s hexec halong).1
  exact ⟨s, row, hrun, hstatus, hagreed "m0" row hrow hstatus⟩

/-- The outcome is recorded anew while the first reply is being delivered, and
the delivery is acknowledged. -/
def remarkedWhileSending : List Event :=
  leasedTwice ++
    [.markDispatch (hostAt 1150 "n") "req-1" (.failed "late error") ⟨none, none⟩,
     .markOutboxSent 1 2 (hostAt 1200 "s") "m0", .write 1 (hostAt 1200 "s")]

/-- The contents that were handed to workers. -/
def handedContents (log : List Entry) : List String :=
  log.filterMap fun
    | .claimed _ _ _ payload => some payload.content
    | _ => none

/-- The acknowledgement of the first reply marks the second as sent, which no
worker was ever handed. -/
theorem acknowledgement_of_other_reply :
    ∃ s, (hubRuns sampleHubEnv).exec .init remarkedWhileSending = some s ∧ ¬ Agreed s := by
  have hend : (sampleRow remarkedWhileSending).map
      (fun x => (x.2.status, x.2.payload.content, handedContents x.1.log))
      = some (.sent, "late error", ["durable reply", "durable reply"]) := by
    decide +kernel
  obtain ⟨⟨s, row⟩, hrun, heq⟩ := Option.map_eq_some_iff.mp hend
  simp only [Prod.mk.injEq] at heq
  obtain ⟨hsent, hcontent, hhanded⟩ := heq
  obtain ⟨hexec, hrow⟩ := sampleRow_eq hrun
  refine ⟨s, hexec, ?_⟩
  intro hagreed
  obtain ⟨⟨worker, pre, post, stamp, hlog, -, hclaim⟩, -⟩ := hagreed "m0" row hrow hsent
  have hmem : row.payload.content ∈ handedContents s.log := by
    refine List.mem_filterMap.mpr ⟨.claimed worker "m0" stamp row.payload, ?_, rfl⟩
    rw [hlog]
    exact List.mem_append_left _ hclaim
  rw [hhanded, hcontent] at hmem
  exact absurd hmem (by simp)

end Kovael.Hub
