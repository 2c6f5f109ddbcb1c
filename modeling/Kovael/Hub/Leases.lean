import Mathlib.Data.List.Induction
import Kovael.Hub.Shared

/-!
# Leases

A claim leases the rows it returns. Two facts about every run in which all
workers use one lease and each request is marked once: a row is not returned
again before its lease is over unless a delivery failure was written to it, and
a claim with room for all rows leaves none behind that is free
(`leases_exclusive_and_lossless`).

What a row went through is the list of its `touches`, the claims and failures
of the log that name it. The invariant `Leased` ties the row to the last of
them: a row is 'sending' since the claim that touched it last, and a row that
waits was not touched by a claim last. No clock has to move forward for this: a
claim that comes later in the log has a stamp that is a lease later, whatever
the clocks of the two callers read.
-/

namespace Kovael.Hub

open Js (Number OrderedMap Clock Json)

variable {env : HubEnv} {s s' : SharedHub} {id : String} {row : OutboxRow} {L : Int}

/-! ## What a row went through -/

/-- An entry of the log that leases a row or frees it. -/
inductive Touch where
  | claim (stamp : Int)
  | failure
  deriving DecidableEq, Repr

/-- What the entry is to the row. -/
def Entry.touch? (id : String) : Entry → Option Touch
  | .claimed _ id' stamp _ => if id' = id then some (.claim stamp) else none
  | .deliveryFailed id' => if id' = id then some .failure else none
  | _ => none

/-- The claims and failures of the row, in order. -/
def touches (log : List Entry) (id : String) : List Touch := log.filterMap (Entry.touch? id)

/-- A claim comes a lease after every earlier one that no failure separates
from it. -/
def Spaced (L : Int) (ts : List Touch) : Prop :=
  ∀ pre stamp mid stamp' post, ts = pre ++ .claim stamp :: (mid ++ .claim stamp' :: post) →
    .failure ∉ mid → stamp + L ≤ stamp'

theorem touches_append (log log' : List Entry) (id : String) :
    touches (log ++ log') id = touches log id ++ touches log' id :=
  List.filterMap_append

/-- The last touch after a claim that no failure follows is a claim. -/
theorem last_claim (pre : List Touch) (stamp : Int) {mid : List Touch} (hfree : .failure ∉ mid) :
    ∃ last, (pre ++ .claim stamp :: mid).getLast? = some (.claim last) := by
  rcases List.eq_nil_or_concat mid with rfl | ⟨mid', touch, rfl⟩
  · exact ⟨stamp, List.getLast?_concat ..⟩
  · rw [List.concat_eq_append] at hfree ⊢
    rw [← List.cons_append, ← List.append_assoc, List.getLast?_concat]
    cases touch with
    | claim last => exact ⟨last, rfl⟩
    | failure => exact absurd (List.mem_append_right _ (List.mem_singleton_self _)) hfree

/-- A claim that no failure follows is no later than the last one. -/
theorem Spaced.le_last {ts pre mid : List Touch} (h : Spaced L ts) (hL : 0 ≤ L)
    {stamp last : Int} (heq : ts = pre ++ .claim stamp :: mid) (hfree : .failure ∉ mid)
    (hlast : ts.getLast? = some (.claim last)) : stamp ≤ last := by
  rcases List.eq_nil_or_concat mid with rfl | ⟨mid', touch, rfl⟩
  · rw [heq, List.getLast?_concat, Option.some.injEq, Touch.claim.injEq] at hlast
    omega
  · rw [List.concat_eq_append] at heq hfree
    have htouch : touch = .claim last := by
      rw [heq, ← List.cons_append, ← List.append_assoc, List.getLast?_concat] at hlast
      exact Option.some.inj hlast
    rw [htouch] at heq
    have hspace := h pre stamp mid' last [] heq (fun hmem => hfree (List.mem_append_left _ hmem))
    omega

/-- One more claim, a lease after the last one if no failure came since. -/
theorem Spaced.append_claim {ts : List Touch} (h : Spaced L ts) (hL : 0 ≤ L) {stamp' : Int}
    (hnext : ∀ last, ts.getLast? = some (.claim last) → last + L ≤ stamp') :
    Spaced L (ts ++ [.claim stamp']) := by
  intro pre stamp mid stamp'' post heq hfree
  rw [← List.cons_append, ← List.append_assoc] at heq
  rcases append_singleton_cases heq with ⟨hts, hnew, -⟩ | ⟨post', hts, -⟩
  · -- the later of the two is the new one
    obtain ⟨last, hlast⟩ := last_claim pre stamp hfree
    rw [← hts] at hlast
    have hle := h.le_last hL hts hfree hlast
    have hlease := hnext last hlast
    rw [Touch.claim.injEq] at hnew
    omega
  · rw [List.append_assoc, List.cons_append] at hts
    exact h pre stamp mid stamp'' post' hts hfree

/-- A failure leases nothing. -/
theorem Spaced.append_failure {ts : List Touch} (h : Spaced L ts) :
    Spaced L (ts ++ [.failure]) := by
  intro pre stamp mid stamp' post heq hfree
  rw [← List.cons_append, ← List.append_assoc] at heq
  rcases append_singleton_cases heq with ⟨-, hnew, -⟩ | ⟨post', hts, -⟩
  · exact absurd hnew (by simp)
  · rw [List.append_assoc, List.cons_append] at hts
    exact h pre stamp mid stamp' post' hts hfree

/-! ## The invariant -/

/-- The row agrees with the claims and failures it went through. -/
structure RowLeased (ts : List Touch) (row : OutboxRow) : Prop where
  sending : row.status = .sending → ts.getLast? = some (.claim row.updatedAt)
  waiting : row.status = .pending ∨ row.status = .failed →
    ∀ stamp, ts.getLast? ≠ some (.claim stamp)
  pending : row.status = .pending → row.nextAttemptAt = none

structure Leased (L : Int) (s : SharedHub) : Prop where
  spaced : ∀ id, Spaced L (touches s.log id)
  untouched : ∀ id, s.hub.outbox.get? id = none → touches s.log id = []
  rows : ∀ id row, s.hub.outbox.get? id = some row → RowLeased (touches s.log id) row
  marked : ∀ id row, s.hub.outbox.get? id = some row →
    row.dedupeKey = dedupeKey row.requestId ∧ .marked row.requestId ∈ s.log

/-- What the workers agree on: one lease, one outcome for each request. Pruning
is left out. -/
def LeaseStep (L : Int) (s : SharedHub) : Event → Prop
  | .claimDueOutbox _ _ _ leaseMs => leaseMs = .ofInt L
  | .markDispatch _ requestId _ _ => .marked requestId ∉ s.log
  | .pruneTerminalOutbox _ => False
  | _ => True

/-- A lease of `L` milliseconds is `L`. -/
theorem floor_ofInt (n : Int) : (Number.ofInt n).floor? = some n :=
  congrArg some (Int.floor_intCast n)

/-- What a claim is to a row: a touch if it returned the row. -/
theorem touches_handed (worker : Nat) (stamp : Int) (id : String) :
    ∀ (rows : List (String × OutboxRow)), (rows.map Prod.fst).Nodup →
      touches (handed worker stamp rows) id
        = if id ∈ rows.map Prod.fst then [.claim stamp] else [] := by
  intro rows
  induction rows with
  | nil =>
    intro _
    rfl
  | cons r rows ih =>
    intro hnd
    rw [List.map_cons, List.nodup_cons] at hnd
    have hih := ih hnd.2
    rw [touches, handed] at hih ⊢
    rw [List.map_cons, List.map_cons, List.filterMap_cons, hih]
    by_cases hid : r.1 = id
    · rw [← hid, if_neg hnd.1, if_pos (List.mem_cons_self ..)]
      simp [Entry.touch?]
    · simp only [Entry.touch?, if_neg hid, List.mem_cons, Ne.symm hid, false_or]

/-- A step that touches no row and writes none. -/
theorem Leased.of_eq (h : Leased L s) {log : List Entry} (houtbox : s'.hub.outbox = s.hub.outbox)
    (hlog : s'.log = s.log ++ log) (hnone : ∀ id, touches log id = []) : Leased L s' := by
  have htouches : ∀ id, touches s'.log id = touches s.log id := by
    intro id
    rw [hlog, touches_append, hnone, List.append_nil]
  refine ⟨fun id => htouches id ▸ h.spaced id, ?_, ?_, ?_⟩
  · intro id hnone
    rw [htouches]
    exact h.untouched id (houtbox ▸ hnone)
  · intro id row hrow
    rw [htouches]
    exact h.rows id row (houtbox ▸ hrow)
  · intro id row hrow
    obtain ⟨hkey, hmem⟩ := h.marked id row (houtbox ▸ hrow)
    exact ⟨hkey, hlog ▸ List.mem_append_left _ hmem⟩

/-- A step that rewrites one row, or files it. -/
theorem Leased.of_set (h : Leased L s) {id : String} {row : OutboxRow} {log : List Entry}
    (houtbox : s'.hub.outbox = s.hub.outbox.set id row) (hlog : s'.log = s.log ++ log)
    (hnone : ∀ id', id' ≠ id → touches log id' = [])
    (hspaced : Spaced L (touches s'.log id)) (hrow : RowLeased (touches s'.log id) row)
    (hmarked : row.dedupeKey = dedupeKey row.requestId ∧ .marked row.requestId ∈ s'.log) :
    Leased L s' := by
  have htouches : ∀ id', id' ≠ id → touches s'.log id' = touches s.log id' := by
    intro id' hid
    rw [hlog, touches_append, hnone id' hid, List.append_nil]
  have hget : ∀ id', s'.hub.outbox.get? id'
      = if id' = id then some row else s.hub.outbox.get? id' := by
    intro id'
    rw [houtbox, OrderedMap.get?_set]
  constructor
  case spaced =>
    intro id'
    by_cases hid : id' = id
    · rw [hid]
      exact hspaced
    · rw [htouches id' hid]
      exact h.spaced id'
  case untouched =>
    intro id' hfree
    rw [hget] at hfree
    by_cases hid : id' = id
    · rw [if_pos hid] at hfree
      exact absurd hfree (by simp)
    · rw [if_neg hid] at hfree
      rw [htouches id' hid]
      exact h.untouched id' hfree
  case rows =>
    intro id' row' hrow'
    rw [hget] at hrow'
    by_cases hid : id' = id
    · rw [if_pos hid, Option.some.injEq] at hrow'
      rw [hid, ← hrow']
      exact hrow
    · rw [if_neg hid] at hrow'
      rw [htouches id' hid]
      exact h.rows id' row' hrow'
  case marked =>
    intro id' row' hrow'
    rw [hget] at hrow'
    by_cases hid : id' = id
    · rw [if_pos hid, Option.some.injEq] at hrow'
      rw [← hrow']
      exact hmarked
    · rw [if_neg hid] at hrow'
      obtain ⟨hkey, hmem⟩ := h.marked id' row' hrow'
      exact ⟨hkey, hlog ▸ List.mem_append_left _ hmem⟩

/-- The first outcome of a request files a new row. -/
theorem Leased.filed (h : Leased L s) {requestId targetUrl : String} {payload : ReplyPayload}
    {stamp : Int} (hfirst : .marked requestId ∉ s.log)
    (houtbox : Filed s.hub.outbox s'.hub.outbox (newReply env requestId targetUrl payload stamp))
    (hlog : s'.log = s.log ++ [.marked requestId]) : Leased L s' := by
  have hnone : ∀ id, touches [.marked requestId] id = [] := fun _ => rfl
  rcases houtbox with ⟨id, row, hrow, hkey, -⟩ | ⟨id, hfree, -, hset⟩
  · -- no row has the key of a request that was not marked
    obtain ⟨hrowkey, hmem⟩ := h.marked id row hrow
    have hrequest : row.requestId = requestId := dedupeKey_injective (hrowkey.symm.trans hkey)
    rw [hrequest] at hmem
    exact absurd hmem hfirst
  · have htouches : touches s'.log id = [] := by
      rw [hlog, touches_append, hnone, h.untouched id hfree]
      rfl
    refine h.of_set hset hlog (fun _ _ => rfl) ?_ ?_ ⟨rfl, ?_⟩
    · rw [htouches]
      intro pre stamp mid stamp' post heq
      exact absurd heq (by simp)
    · rw [htouches]
      exact ⟨fun hsending => absurd hsending (by simp [newReply]), fun _ stamp => by simp,
        fun _ => rfl⟩
    · rw [hlog]
      exact List.mem_append_right _ (List.mem_singleton_self _)

/-- A row that is due is not handed out before the lease of its last claim is
over: it is 'sending' since that claim, and stale. -/
theorem RowLeased.lease_over {ts : List Touch} (h : RowLeased ts row) {now last : Int}
    (hdue : row.due now (now - L) = true) (hlast : ts.getLast? = some (.claim last)) :
    last + L ≤ now := by
  simp only [OutboxRow.due, Bool.or_eq_true, Bool.and_eq_true, decide_eq_true_eq] at hdue
  rcases hdue with ⟨hwaiting, -⟩ | ⟨hsending, hstale⟩
  · exact absurd hlast (h.waiting hwaiting last)
  · rw [h.sending hsending, Option.some.injEq, Touch.claim.injEq] at hlast
    omega

/-- A claimed row is 'sending' since the claim. -/
theorem rowLeased_claim (ts : List Touch) (row : OutboxRow) (stamp : Int) :
    RowLeased (ts ++ [.claim stamp]) (row.claim stamp) where
  sending _ := List.getLast?_concat ..
  waiting hwaiting := absurd hwaiting (by simp [OutboxRow.claim])
  pending hpending := absurd hpending (by simp [OutboxRow.claim])

/-- A claim leases rows that are free. -/
theorem Leased.claimed (h : Leased L s) (hL : 0 ≤ L) {worker : Nat} {host : Host} {limit : Number}
    {rows : List (String × OutboxRow)}
    (hclaim : claimDueOutbox host limit (.ofInt L) s.hub = .ok (s'.hub, rows))
    (hlog : s'.log = s.log ++ handed worker (host.now 0) rows) : Leased L s' := by
  obtain ⟨-, hget, -, hnd, -⟩ := claimDueOutbox_ok hclaim
  have hmem := mem_claimed_iff hclaim
  rw [floor_ofInt, Option.getD_some] at hget hmem
  have htouches : ∀ id, touches s'.log id = touches s.log id
      ++ if id ∈ rows.map Prod.fst then [.claim (host.now 0)] else [] := by
    intro id
    rw [hlog, touches_append, touches_handed _ _ _ _ hnd]
  constructor
  case spaced =>
    intro id
    rw [htouches]
    split
    next hid =>
      obtain ⟨row, hrow, hdue⟩ := due_of_mem_dueIds ((hmem id).mp hid)
      exact (h.spaced id).append_claim hL fun last hlast =>
        (h.rows id row hrow).lease_over hdue hlast
    next =>
      rw [List.append_nil]
      exact h.spaced id
  case untouched =>
    intro id hfree
    rw [hget] at hfree
    have hid : id ∉ rows.map Prod.fst := by
      intro hid
      obtain ⟨row, hrow, -⟩ := due_of_mem_dueIds ((hmem id).mp hid)
      rw [if_pos ((hmem id).mp hid), hrow] at hfree
      exact absurd hfree (by simp)
    rw [if_neg (fun hin => hid ((hmem id).mpr hin))] at hfree
    rw [htouches, if_neg hid, List.append_nil]
    exact h.untouched id hfree
  case rows =>
    intro id row hrow
    rw [hget] at hrow
    rw [htouches]
    by_cases hid : id ∈ rows.map Prod.fst
    · rw [if_pos ((hmem id).mp hid)] at hrow
      obtain ⟨row', -, rfl⟩ := Option.map_eq_some_iff.mp hrow
      rw [if_pos hid]
      exact rowLeased_claim _ row' _
    · rw [if_neg (fun hin => hid ((hmem id).mpr hin))] at hrow
      rw [if_neg hid, List.append_nil]
      exact h.rows id row hrow
  case marked =>
    intro id row hrow
    rw [hget] at hrow
    rw [hlog]
    split at hrow
    next =>
      obtain ⟨row', hrow', rfl⟩ := Option.map_eq_some_iff.mp hrow
      obtain ⟨hkey, hin⟩ := h.marked id row' hrow'
      exact ⟨hkey, List.mem_append_left _ hin⟩
    next =>
      obtain ⟨hkey, hin⟩ := h.marked id row hrow
      exact ⟨hkey, List.mem_append_left _ hin⟩

/-- A step keeps the leases. -/
theorem step_leased (h : Leased L s) (hL : 0 ≤ L) {e : Event} (hstep : step env s e = some s')
    (he : LeaseStep L s e) : Leased L s' := by
  cases step_move hstep with
  | kept _ houtbox hlog =>
    exact h.of_eq houtbox (hlog.trans (List.append_nil _).symm) (fun _ => rfl)
  | started _ _ houtbox hlog =>
    exact h.of_eq houtbox (hlog.trans (List.append_nil _).symm) (fun _ => rfl)
  | @marked _ _ _ _ dispatch _ _ houtbox hlog =>
    cases hurl : dispatch.replyUrl with
    | none =>
      rw [hurl] at houtbox
      exact h.of_eq houtbox hlog (fun _ => rfl)
    | some replyUrl =>
      rw [hurl] at houtbox
      exact h.filed he houtbox hlog
  | claimed hclaim hlog =>
    have hlease : _ = Number.ofInt L := he
    rw [hlease] at hclaim
    exact h.claimed hL hclaim hlog
  | @acknowledged _ worker _ id stamp row _ hrow _ houtbox hlog =>
    have hnone : ∀ id', touches (acknowledgement worker id s.hub) id' = [] := by
      intro id'
      unfold acknowledgement
      split <;> rfl
    have htouches : touches s'.log id = touches s.log id := by
      rw [hlog, touches_append, hnone, List.append_nil]
    obtain ⟨hkey, hmem⟩ := h.marked id row hrow
    refine h.of_set houtbox hlog (fun id' _ => hnone id') (htouches ▸ h.spaced id) ?_
      ⟨hkey, hlog ▸ List.mem_append_left _ hmem⟩
    exact ⟨fun hs => absurd hs (by simp [OutboxRow.acknowledged]),
      fun hw => absurd hw (by simp [OutboxRow.acknowledged]),
      fun hp => absurd hp (by simp [OutboxRow.acknowledged])⟩
  | @deliveryFailed _ host call row _ hrow _ houtbox hlog =>
    have hnone : ∀ id', id' ≠ call.id → touches [.deliveryFailed call.id] id' = [] := by
      intro id' hid
      simp [touches, Entry.touch?, Ne.symm hid]
    have htouches : touches s'.log call.id = touches s.log call.id ++ [.failure] := by
      rw [hlog, touches_append]
      simp [touches, Entry.touch?]
    obtain ⟨hkey, hmem⟩ := h.marked call.id row hrow
    refine h.of_set houtbox hlog hnone (htouches ▸ (h.spaced call.id).append_failure) ?_
      ⟨hkey, hlog ▸ List.mem_append_left _ hmem⟩
    rw [htouches]
    have hstatus := deliveryFailed_status row call (env.redactSensitiveText call.error) (host.now 0)
    refine ⟨?_, fun _ stamp => by rw [List.getLast?_concat]; simp, ?_⟩
    · intro hs
      rw [hs] at hstatus
      exact absurd hstatus (by simp)
    · intro hp
      rw [hp] at hstatus
      exact absurd hstatus (by simp)
  | pruned _ _ => exact absurd he id

theorem init_leased : Leased L (hubRuns env).init where
  spaced id pre stamp mid stamp' post heq := absurd heq (by simp [hubRuns, SharedHub.init, touches])
  untouched id _ := rfl
  rows id row hrow := absurd hrow (by simp [hubRuns, SharedHub.init, AgentHub.init])
  marked id row hrow := absurd hrow (by simp [hubRuns, SharedHub.init, AgentHub.init])

/-! ## The two laws -/

/-- The row was handed out less than a lease before `now`, and no failure was
written to it since. -/
def UnderLease (L now : Int) (log : List Entry) (id : String) : Prop :=
  ∃ pre worker stamp payload post, log = pre ++ .claimed worker id stamp payload :: post ∧
    .deliveryFailed id ∉ post ∧ now - L < stamp

/-- The row's last delivery failed, and its retry is not due. -/
def WaitsForRetry (now : Int) (row : OutboxRow) : Prop :=
  row.status = .failed ∧ ∃ retryAt, row.nextAttemptAt = some retryAt ∧ now < retryAt

theorem failure_mem_touches {log : List Entry} {id : String} (h : .failure ∈ touches log id) :
    .deliveryFailed id ∈ log := by
  obtain ⟨e, he, htouch⟩ := List.mem_filterMap.mp h
  cases e with
  | deliveryFailed id' =>
    by_cases hid : id' = id
    · exact hid ▸ he
    · simp [Entry.touch?, hid] at htouch
  | claimed worker id' stamp payload =>
    by_cases hid : id' = id <;> simp [Entry.touch?, hid] at htouch
  | acknowledged worker id' => exact absurd htouch (by simp [Entry.touch?])
  | marked requestId => exact absurd htouch (by simp [Entry.touch?])

theorem touches_claimed (worker : Nat) (id : String) (stamp : Int) (payload : ReplyPayload)
    (log : List Entry) :
    touches (.claimed worker id stamp payload :: log) id = .claim stamp :: touches log id := by
  simp [touches, Entry.touch?]

/-- The claim that a row was last touched by is in the log, with no failure
after it. -/
theorem claimed_of_last {id : String} {stamp : Int} : ∀ (log : List Entry),
    (touches log id).getLast? = some (.claim stamp) →
    ∃ pre worker payload post, log = pre ++ .claimed worker id stamp payload :: post ∧
      .deliveryFailed id ∉ post := by
  intro log
  induction log using List.reverseRecOn with
  | nil =>
    intro h
    exact absurd h (by simp [touches])
  | append_singleton log e ih =>
    intro h
    rw [touches_append] at h
    -- the last touch is the new entry if that is one, and in the old log otherwise
    cases htouch : e.touch? id with
    | none =>
      have hnone : touches [e] id = [] := by simp [touches, htouch]
      rw [hnone, List.append_nil] at h
      obtain ⟨pre, worker, payload, post, hlog, hfree⟩ := ih h
      refine ⟨pre, worker, payload, post ++ [e], by rw [hlog]; simp, ?_⟩
      intro hmem
      rcases List.mem_append.mp hmem with hpost | he
      · exact hfree hpost
      · rw [← List.mem_singleton.mp he] at htouch
        exact absurd htouch (by simp [Entry.touch?])
    | some touch =>
      have hone : touches [e] id = [touch] := by simp [touches, htouch]
      rw [hone, List.getLast?_concat, Option.some.injEq] at h
      rw [h] at htouch
      cases e with
      | claimed worker id' stamp' payload =>
        by_cases hid : id' = id
        · simp only [Entry.touch?, if_pos hid, Option.some.injEq, Touch.claim.injEq] at htouch
          exact ⟨log, worker, payload, [], by rw [hid, htouch], List.not_mem_nil⟩
        · simp [Entry.touch?, hid] at htouch
      | deliveryFailed id' =>
        by_cases hid : id' = id <;> simp [Entry.touch?, hid] at htouch
      | acknowledged worker id' => exact absurd htouch (by simp [Entry.touch?])
      | marked requestId => exact absurd htouch (by simp [Entry.touch?])

/-- Two claims of a row with no failure between them are a lease apart. -/
theorem Leased.apart (h : Leased L s) {pre mid post : List Entry} {worker worker' : Nat}
    {stamp stamp' : Int} {payload payload' : ReplyPayload}
    (hlog : s.log = pre ++ .claimed worker id stamp payload ::
      (mid ++ .claimed worker' id stamp' payload' :: post))
    (hfree : .deliveryFailed id ∉ mid) : stamp + L ≤ stamp' := by
  refine h.spaced id (touches pre id) stamp (touches mid id) stamp' (touches post id) ?_ ?_
  · rw [hlog, touches_append, touches_claimed, touches_append, touches_claimed]
  · intro hmem
    exact hfree (failure_mem_touches hmem)

/-- A row that is free is due. -/
theorem RowLeased.due {log : List Entry} (h : RowLeased (touches log id) row) {now : Int}
    (hsent : row.status ≠ .sent) (hdead : row.status ≠ .dead) (hlease : ¬ UnderLease L now log id)
    (hretry : ¬ WaitsForRetry now row) : row.due now (now - L) = true := by
  cases hstatus : row.status with
  | pending => simp [OutboxRow.due, hstatus, h.pending hstatus]
  | sending =>
    -- it was handed out last, and is stale since no lease runs
    obtain ⟨pre, worker, payload, post, hlog, hfree⟩ := claimed_of_last log (h.sending hstatus)
    have hstale : row.updatedAt ≤ now - L := by
      by_contra hlive
      exact hlease ⟨pre, worker, row.updatedAt, payload, post, hlog, hfree, by omega⟩
    simp [OutboxRow.due, hstatus, hstale]
  | sent => exact absurd hstatus hsent
  | failed =>
    cases hnext : row.nextAttemptAt with
    | none => simp [OutboxRow.due, hstatus, hnext]
    | some retryAt =>
      have hle : retryAt ≤ now := by
        by_contra hlater
        exact hretry ⟨hstatus, retryAt, hnext, by omega⟩
      simp [OutboxRow.due, hstatus, hnext, hle]
  | dead => exact absurd hstatus hdead

/-- A finite limit that is at least `n` has room for `n` rows. -/
theorem room_of_le {n : Nat} {limit : Number} (hfinite : limit.isFinite = true)
    (hle : (Number.ofNat n).le limit = true) : n ≤ (limit.floor?.getD 0).toNat := by
  obtain ⟨q, rfl⟩ := Number.eq_fin_of_isFinite hfinite
  have hq : (n : ℚ) ≤ q := of_decide_eq_true hle
  have hfloor : (n : Int) ≤ ⌊q⌋ := Int.le_floor.mpr (by exact_mod_cast hq)
  show n ≤ (⌊q⌋).toNat
  omega

/-- A claim with a positive finite limit and a positive lease goes through. -/
theorem claimDueOutbox_defined (host : Host) {limit : Number} (hfinite : limit.isFinite = true)
    (hpos : 0 < (limit.floor?.getD 0).toNat) (hL : 1 ≤ L) (hub : AgentHub) :
    ∃ hub' rows, claimDueOutbox host limit (.ofInt L) hub = .ok (hub', rows) := by
  obtain ⟨q, rfl⟩ := Number.eq_fin_of_isFinite hfinite
  have hlimit : (!(Number.fin q).isFinite || (Number.fin q).le (.ofInt 0)) = false := by
    have hq : ¬ q ≤ ((0 : Int) : ℚ) := by
      intro hq
      have hfloor : ⌊q⌋ ≤ 0 := Int.floor_nonpos (by exact_mod_cast hq)
      have hroom : 0 < (⌊q⌋).toNat := hpos
      omega
    show (!true || decide (q ≤ ((0 : Int) : ℚ))) = false
    rw [decide_eq_false hq]
    rfl
  have hlease : (!(Number.ofInt L).isFinite || (Number.ofInt L).le (.ofInt 0)) = false := by
    have hq : ¬ (L : ℚ) ≤ ((0 : Int) : ℚ) := by
      rw [Int.cast_le]
      omega
    show (!true || decide ((L : ℚ) ≤ ((0 : Int) : ℚ))) = false
    rw [decide_eq_false hq]
    rfl
  rw [claimDueOutbox, hlimit, hlease]
  exact ⟨_, _, rfl⟩

/-- **Leases are exclusive and lose no row.** After every run in which all
workers lease for `L` and each request is marked once:

two claims that returned one row, with no delivery failure of it written in
between, have stamps that are a lease apart, in the order in which they were
made, whatever the clocks read;

and a claim whose limit is at least the number of rows returns every row that is
neither sent nor dead, is under no lease and waits for no retry. -/
theorem leases_exclusive_and_lossless (env : HubEnv) (L : Int) (hL : 1 ≤ L) (es : List Event)
    (s : SharedHub) (hrun : (hubRuns env).exec (hubRuns env).init es = some s)
    (hes : (hubRuns env).Along (LeaseStep L) (hubRuns env).init es) :
    (∀ id pre mid post worker worker' stamp stamp' payload payload',
      s.log = pre ++ .claimed worker id stamp payload ::
        (mid ++ .claimed worker' id stamp' payload' :: post) →
      .deliveryFailed id ∉ mid → stamp + L ≤ stamp') ∧
    ∀ (host : Host) (limit : Number), limit.isFinite = true →
      (Number.ofNat s.hub.outbox.entries.length).le limit = true →
      ∀ id row, s.hub.outbox.get? id = some row → row.status ≠ .sent → row.status ≠ .dead →
        ¬ UnderLease L (host.now 0) s.log id → ¬ WaitsForRetry (host.now 0) row →
        ∃ hub' rows row', claimDueOutbox host limit (.ofInt L) s.hub = .ok (hub', rows) ∧
          (id, row') ∈ rows := by
  have hpos : 0 ≤ L := by omega
  have h : Leased L s := Lts.exec_invariant (I := Leased L) (C := LeaseStep L)
    (fun _ _ _ hI hC hst => step_leased hI hpos hst hC) es init_leased hrun hes
  constructor
  · intro id pre mid post worker worker' stamp stamp' payload payload' hlog hfree
    exact h.apart hlog hfree
  · intro host limit hfinite hle id row hrow hsent hdead hlease hretry
    have hroom := room_of_le hfinite hle
    have hdue := (h.rows id row hrow).due hsent hdead hlease hretry
    have hmem := (s.hub.outbox.mem_entries_iff id row).mpr hrow
    have hlength : 0 < s.hub.outbox.entries.length := List.length_pos_of_mem hmem
    obtain ⟨hub', rows, hclaim⟩ := claimDueOutbox_defined host hfinite (by omega) hL s.hub
    obtain ⟨-, hget, hrows, -⟩ := claimDueOutbox_ok hclaim
    rw [floor_ofInt, Option.getD_some] at hget hrows
    have hid := mem_dueIds_of_due hroom hrow hdue
    refine ⟨hub', rows, row.claim (host.now 0), hclaim, ?_⟩
    rw [hrows, hget, if_pos hid, hrow]
    exact ⟨hid, rfl⟩

instance (L : Int) (s : SharedHub) : DecidablePred (LeaseStep L s)
  | .claimDueOutbox _ _ _ leaseMs => inferInstanceAs (Decidable (leaseMs = .ofInt L))
  | .markDispatch _ requestId _ _ => inferInstanceAs (Decidable (.marked requestId ∉ s.log))
  | .pruneTerminalOutbox _ => inferInstanceAs (Decidable False)
  | .recordInboundDispatch .. | .markDispatchRunning .. | .scheduleDispatchReplay ..
  | .markOutboxSent .. | .markOutboxDeliveryFailed .. | .write .. | .pruneOldReceipts .. =>
    inferInstanceAs (Decidable True)

/-- The reply that two workers lease one after the other. -/
theorem leased_twice_apart :
    ∃ s, (hubRuns sampleHubEnv).exec .init leasedTwice = some s ∧
      ∀ pre mid post worker worker' stamp stamp' payload payload',
        s.log = pre ++ .claimed worker "m0" stamp payload ::
          (mid ++ .claimed worker' "m0" stamp' payload' :: post) →
        .deliveryFailed "m0" ∉ mid → stamp + 1000 ≤ stamp' := by
  have hsome : ((hubRuns sampleHubEnv).exec .init leasedTwice).isSome = true := by decide +kernel
  have halong : (hubRuns sampleHubEnv).Along (LeaseStep 1000) .init leasedTwice := by
    decide +kernel
  obtain ⟨s, hrun⟩ := Option.isSome_iff_exists.mp hsome
  exact ⟨s, hrun,
    (leases_exclusive_and_lossless sampleHubEnv 1000 (by decide) leasedTwice s hrun halong).1 "m0"⟩

end Kovael.Hub
