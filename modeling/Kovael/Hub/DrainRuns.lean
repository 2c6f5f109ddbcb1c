import Kovael.Hub.Drained

/-!
# Replies over the runs of an adapter

A step moves the row of a reply in one of four ways (`RowMove`): it leaves the row as it is, it
settles a row that the drain has, it claims one that is due, or it prunes one that is final.
`replies_kept` says what holds of the replies over every run, whatever becomes of the processes,
and `replies_taken_up` how soon and how often the drain takes one up.
-/

namespace Kovael.Hub

open Js (Number OrderedMap Json)

section Frame

variable {env : HubEnv} {cfg : DrainConfig} {s t : AgentInbox} {io : DrainIO} {id : String}
  {row row' : OutboxRow} {rest : List (String × OutboxRow)}

/-! ## What the loop of the drain leaves alone -/

/-- The row is settled, and nothing else is touched. -/
def SettlesRow (s t : AgentInbox) (id : String) (row : OutboxRow) : Prop :=
  ∃ row', row'.attempts = row.attempts ∧
    t = { s with hub := { s.hub with outbox := s.hub.outbox.set id row' } }

theorem deliveryFails_settles {err : DeliveryError} (hcurrent : s.hub.outbox.get? id = some row)
    (h : s.deliveryFails env cfg io id row err = some t) :
    SettlesRow s t id row := by
  rw [AgentInbox.deliveryFails] at h
  split at h
  next => exact absurd h (by simp)
  next =>
    split at h
    next => exact absurd h (by simp)
    next hub' hmark =>
      obtain ⟨call, -, rfl⟩ := markOutboxDeliveryFailed_ok hcurrent hmark
      exact ⟨row.deliveryFailed call (env.redactSensitiveText (env.redactSensitiveText err.message))
        s.now, rfl, (Option.some.inj h).symm⟩

theorem delivers_settles (hcurrent : s.hub.outbox.get? id = some row)
    (hsending : row.status = .sending) (h : s.delivers env cfg io id row = some t) :
    SettlesRow s t id row := by
  rw [AgentInbox.delivers] at h
  split at h
  next hub' hmark =>
    split at hmark
    next => exact absurd hmark (by simp)
    next =>
      obtain rfl := markOutboxSent_ok hcurrent hsending hmark
      exact ⟨row.acknowledged s.now, rfl, (Option.some.inj h).symm⟩
  next message _ => exact deliveryFails_settles hcurrent h

theorem settles_settles {outcome : FetchOutcome} (hcurrent : s.hub.outbox.get? id = some row)
    (hsending : row.status = .sending) (h : s.settles env cfg io id row outcome = some t) :
    SettlesRow s t id row := by
  rw [AgentInbox.settles] at h
  split at h
  next => exact delivers_settles hcurrent hsending h
  next => exact deliveryFails_settles hcurrent h

/-- What the drain may do, with some rows, to these and to the others. -/
structure RowsDrained (s t : AgentInbox) (rows : List (String × OutboxRow)) : Prop where
  others : ∀ id, id ∉ rows.map Prod.fst →
    t.posted id = s.posted id ∧ t.hub.outbox.get? id = s.hub.outbox.get? id
  attempts : ∀ id, (t.hub.outbox.get? id).map OutboxRow.attempts
    = (s.hub.outbox.get? id).map OutboxRow.attempts
  abandoned : s.abandoned ≤ t.abandoned

/-- A row that the drain settles, and then the others that it has. -/
theorem RowsDrained.settled {rows : List (String × OutboxRow)}
    (h : RowsDrained { s with hub := { s.hub with outbox := s.hub.outbox.set id row' } } t rows)
    (hcurrent : s.hub.outbox.get? id = some row) (hattempts : row'.attempts = row.attempts) :
    RowsDrained s t ((id, row) :: rows) := by
  refine ⟨fun id' hout => ?_, fun id' => ?_, h.abandoned⟩
  · rw [List.map_cons, List.mem_cons, not_or] at hout
    obtain ⟨hposted, hget⟩ := h.others id' hout.2
    exact ⟨hposted, hget.trans (OrderedMap.get?_set_ne _ _ hout.1)⟩
  · rw [h.attempts id']
    show ((s.hub.outbox.set id row').get? id').map _ = _
    by_cases heq : id' = id
    · rw [heq, OrderedMap.get?_set_self, hcurrent]
      exact congrArg some hattempts
    · rw [OrderedMap.get?_set_ne _ _ heq]

/-- The loop, by induction on the rows that it has. -/
theorem drainRows_drained (env : HubEnv) (io : DrainIO) : ∀ (rows : List (String × OutboxRow)) {s : AgentInbox},
    DrainHolds cfg s rows → RowsDrained s (s.drainRows env cfg io rows) rows
  | [], s, _ => by
    rw [AgentInbox.drainRows]
    exact ⟨fun _ _ => ⟨rfl, rfl⟩, fun _ => rfl, Nat.le_refl _⟩
  | (id, row) :: rest, s, h => by
    have hcurrent := (h.claimed _ (List.mem_cons_self ..)).1
    rcases sendOutboxReply_cases s.now io.iv id (h.rows id row hcurrent).kind with
      ⟨post, hsend, hid, -⟩ | ⟨err, hsend, hstatus⟩
    · -- the loop stops at `fetch`, and the rest stay as they were claimed
      rw [AgentInbox.drainRows, hsend]
      refine ⟨fun id' hout => ⟨?_, rfl⟩, fun _ => rfl, Nat.le_refl _⟩
      have hne : post.outboxId ≠ id' := by
        intro heq
        rw [List.map_cons, List.mem_cons, not_or] at hout
        exact hout.1 (heq.symm.trans hid)
      show (s.posts ++ [post]).countP _ = _
      rw [List.countP_append, List.countP_singleton, if_neg (by simpa using hne), Nat.add_zero]
      rfl
    · rw [drainRows_error hsend]
      cases hfails : s.deliveryFails env cfg io id row err with
      | none => exact ⟨fun _ _ => ⟨rfl, rfl⟩, fun _ => rfl, Nat.le_succ _⟩
      | some t =>
        obtain ⟨hholds, -, -⟩ := h.fails
          (fun status hsome => absurd (hstatus.symm.trans hsome) (by simp)) hfails
        obtain ⟨row', hattempts, rfl⟩ := deliveryFails_settles hcurrent hfails
        exact (drainRows_drained env io rest hholds).settled hcurrent hattempts

/-! ## What a step does to a row -/

/-- How a step moves the row of a reply. -/
inductive RowMove (cfg : DrainConfig) (s t : AgentInbox) (id : String) : Prop
  | kept (hrow : t.hub.outbox.get? id = s.hub.outbox.get? id) (hposted : t.posted id = s.posted id)
  | settled (hheld : id ∈ s.batch.map Prod.fst)
      (hattempts : (t.hub.outbox.get? id).map OutboxRow.attempts
        = (s.hub.outbox.get? id).map OutboxRow.attempts)
  | claimed (row row' : OutboxRow) (hrow : s.hub.outbox.get? id = some row)
      (hdue : row.due s.now (s.now - cfg.outboxLeaseMs) = true)
      (hrow' : t.hub.outbox.get? id = some row') (hattempts : row'.attempts = row.attempts + 1)
  | pruned (row : OutboxRow) (hrow : s.hub.outbox.get? id = some row)
      (hfinal : row.status = .sent ∨ row.status = .dead) (hgone : t.hub.outbox.get? id = none)
      (hposted : t.posted id = s.posted id)

/-- A move of a state that differs in no row. -/
theorem RowMove.of_same {s' : AgentInbox} (h : RowMove cfg s' t id)
    (hrow : s'.hub.outbox.get? id = s.hub.outbox.get? id) (hposts : s'.posts = s.posts)
    (hbatch : s'.batch = s.batch) (hnow : s'.now = s.now) : RowMove cfg s t id := by
  have hposted : s'.posted id = s.posted id := by
    unfold AgentInbox.posted
    rw [hposts]
  cases h with
  | kept hkept hsame => exact .kept (hkept.trans hrow) (hsame.trans hposted)
  | settled hheld hattempts => exact .settled (hbatch ▸ hheld) (hrow ▸ hattempts)
  | claimed row row' hold hdue hrow' hattempts =>
    exact .claimed row row' (hrow ▸ hold) (hnow ▸ hdue) hrow' hattempts
  | pruned row hold hfinal hgone hsame =>
    exact .pruned row (hrow ▸ hold) hfinal hgone (hsame.trans hposted)

theorem floor_lease (cfg : DrainConfig) :
    (Number.ofNat cfg.outboxLeaseMs).floor?.getD 0 = cfg.outboxLeaseMs :=
  congrArg (Option.getD · 0) (floor_ofInt cfg.outboxLeaseMs)

/-- A row that the drain claims has one attempt more when the loop is done. -/
theorem claimed_row {hub : AgentHub} {rows : List (String × OutboxRow)}
    (hholds : DrainHolds cfg s [])
    (hclaim : claimDueOutbox (standing s.now fun _ => "") (.ofNat 10) (.ofNat cfg.outboxLeaseMs)
      s.hub = .ok (hub, rows)) (hin : id ∈ rows.map Prod.fst) :
    ∃ row row', s.hub.outbox.get? id = some row ∧
      row.due s.now (s.now - cfg.outboxLeaseMs) = true ∧
      (({ s with hub } : AgentInbox).drainRows env cfg io rows).hub.outbox.get? id = some row' ∧
      row'.attempts = row.attempts + 1 := by
  have hdrained := drainRows_drained env io rows (claimed_holds hholds hclaim).1
  obtain ⟨-, hget, -, -, -⟩ := claimDueOutbox_ok hclaim
  have hids := (mem_claimed_iff hclaim id).mp hin
  obtain ⟨row, hrow, hdue⟩ := due_of_mem_dueIds hids
  have hnew : hub.outbox.get? id = some (row.claim s.now) := by
    rw [hget, if_pos hids, hrow]
    rfl
  have hattempts := hdrained.attempts id
  change _ = (hub.outbox.get? id).map OutboxRow.attempts at hattempts
  rw [hnew] at hattempts
  obtain ⟨row', hrow', heq⟩ := Option.map_eq_some_iff.mp hattempts
  rw [floor_lease] at hdue
  exact ⟨row, row', hrow, hdue, hrow', heq⟩

/-- A drain that is not active has no rows. -/
theorem idle_holds (hidle : s.process.bind InboxProcess.drain = none)
    (h : Delivering cfg s) : DrainHolds cfg s [] := by
  have hbatch : s.batch = [] := by
    rw [AgentInbox.batch, hidle]
  exact hbatch ▸ h.holds

/-- A tick claims the rows that are due, and no other row is touched. -/
theorem tick_move (env : HubEnv) (io : DrainIO) (h : Delivering cfg s) (id : String) :
    RowMove cfg s (s.tick env cfg io) id ∧ s.abandoned ≤ (s.tick env cfg io).abandoned := by
  rw [AgentInbox.tick]
  split
  next => exact ⟨.kept rfl rfl, Nat.le_refl _⟩
  next hidle =>
    have hholds : DrainHolds cfg s [] := by
      rw [not_or, Option.not_isSome_iff_eq_none] at hidle
      exact idle_holds hidle.1 h
    split
    next => exact ⟨.kept rfl rfl, Nat.le_refl _⟩
    next hub rows hclaim =>
      have hdrained := drainRows_drained env io rows (claimed_holds hholds hclaim).1
      refine ⟨?_, hdrained.abandoned⟩
      by_cases hin : id ∈ rows.map Prod.fst
      · obtain ⟨row, row', hrow, hdue, hrow', hattempts⟩ := claimed_row hholds hclaim hin
        exact .claimed row row' hrow hdue hrow' hattempts
      · obtain ⟨hposted, hrow⟩ := hdrained.others id hin
        obtain ⟨-, hget, -, -, -⟩ := claimDueOutbox_ok hclaim
        refine .kept (hrow.trans ?_) hposted
        show hub.outbox.get? id = _
        rw [hget, if_neg fun hids => hin ((mem_claimed_iff hclaim id).mpr hids)]

/-- The end of a `fetch` settles its row, and the loop goes on with the rest. -/
theorem fetchEnds_move {p : InboxProcess} {d : Draining} {outcome : FetchOutcome}
    (hp : s.process = some p) (hd : p.drain = some d) (h : Delivering cfg s) (id : String) :
    RowMove cfg s (s.fetchEnds env cfg outcome io d) id ∧
      s.abandoned ≤ (s.fetchEnds env cfg outcome io d).abandoned := by
  have hbatch : s.batch = d.current :: d.rest := by
    rw [AgentInbox.batch, hp, Option.bind_some, hd]
  have hheard := heard_holds outcome hp hd h
  have hdrained : RowsDrained { s with answers := s.answers ++ [(d.current.1, outcome)] }
      (s.fetchEnds env cfg outcome io d) (d.current :: d.rest) := by
    rw [AgentInbox.fetchEnds]
    split
    next t hsettles =>
      obtain ⟨hcurrent, hsending⟩ := hheard.claimed _ (List.mem_cons_self ..)
      obtain ⟨hholds, -, -⟩ :=
        hheard.settles (List.mem_append_right _ (List.mem_singleton_self _)) hsettles
      obtain ⟨row', hattempts, rfl⟩ := settles_settles hcurrent hsending hsettles
      exact (drainRows_drained env io d.rest hholds).settled hcurrent hattempts
    next => exact ⟨fun _ _ => ⟨rfl, rfl⟩, fun _ => rfl, Nat.le_succ _⟩
  refine ⟨?_, hdrained.abandoned⟩
  by_cases hin : id ∈ s.batch.map Prod.fst
  · exact .settled hin (hdrained.attempts id)
  · obtain ⟨hposted, hrow⟩ := hdrained.others id (hbatch ▸ hin)
    exact .kept hrow hposted

/-- The end of a runtime files a reply under a new id, and the drain ticks. -/
theorem runtimeEnds_move {p : InboxProcess} {i : Nat} {uuids : Nat → String} {outcome : Outcome}
    {requestId : String} {payload : Json} (hp : s.process = some p)
    (hi : p.runtimes[i]? = some (requestId, payload)) (hfresh : s.posted (uuids 0) = 0)
    (h : Delivering cfg s) (hne : uuids 0 ≠ id) :
    RowMove cfg s (s.runtimeEnds env cfg i uuids outcome io p requestId payload) id ∧
      s.abandoned ≤
        (s.runtimeEnds env cfg i uuids outcome io p requestId payload).abandoned := by
  have hruntimes : s.runtimes = p.runtimes := by
    rw [AgentInbox.runtimes, hp]
    rfl
  obtain ⟨-, hno⟩ := h.holds.running _ (hruntimes ▸ List.mem_of_getElem? hi)
  unfold AgentInbox.runtimeEnds
  dsimp only
  cases hmark : markDispatch env (standing s.now uuids) requestId outcome
      { claimSessionId := payload.stringField? "claimSessionId"
        replyProofSecret := payload.stringField? "replyProofSecret" } s.hub with
  | ok recorded =>
    obtain ⟨hub, outboxId⟩ := recorded
    have hrow : hub.outbox.get? id = s.hub.outbox.get? id := by
      rcases markDispatch_filed hno hmark with hsame | ⟨targetUrl, payload', -, hset⟩
      · rw [hsame]
      · rw [hset]
        exact OrderedMap.get?_set_ne _ _ hne.symm
    have hrecorded := delivering_recorded (p.inFlight.filter fun r => r ≠ requestId) hp hi hfresh
      hmark h
    obtain ⟨hmove, habandoned⟩ := tick_move env io hrecorded id
    refine ⟨hmove.of_same hrow rfl ?_ rfl, habandoned⟩
    rw [AgentInbox.batch, AgentInbox.batch, hp]
    rfl
  | error message =>
    cases outcome with
    | succeeded replyContent => exact ⟨.kept rfl rfl, Nat.le_refl _⟩
    | failed error => exact ⟨.kept rfl rfl, Nat.le_refl _⟩

theorem maintenance_move (id : String) : RowMove cfg s (s.maintenance cfg) id := by
  have hget : (s.maintenance cfg).hub.outbox.get? id = (s.hub.outbox.get? id).filter fun row =>
      !((row.status = .sent || row.status = .dead)
        && (Number.ofInt row.updatedAt).lt (.ofInt (s.now - cfg.retentionMs))) :=
    OrderedMap.get?_filter ..
  cases hrow : s.hub.outbox.get? id with
  | none =>
    rw [hrow] at hget
    exact .kept (hget.trans hrow.symm) rfl
  | some row =>
    rw [hrow, Option.filter_some] at hget
    split at hget
    next => exact .kept (hget.trans hrow.symm) rfl
    next hpruned =>
      refine .pruned row hrow ?_ hget rfl
      simp only [Bool.not_eq_true, Bool.not_eq_false', Bool.and_eq_true, Bool.or_eq_true,
        decide_eq_true_iff] at hpruned
      exact hpruned.1

/-- A step moves each row, but the one that it files. -/
theorem rowMove_step {e : AgentInboxEvent} (h : Delivering cfg s) (hfresh : FreshIds s e)
    (hne : e.filesUnder ≠ some id) (hstep : s.step env cfg e = some t) :
    RowMove cfg s t id ∧ s.abandoned ≤ t.abandoned := by
  cases e with
  | clock ms =>
    obtain rfl := Option.some.inj hstep
    exact ⟨.kept rfl rfl, Nat.le_refl _⟩
  | boot =>
    rw [AgentInbox.step] at hstep
    split at hstep
    next => exact absurd hstep (by simp)
    next =>
      obtain rfl := Option.some.inj hstep
      exact ⟨.kept rfl rfl, Nat.le_refl _⟩
  | crash =>
    obtain ⟨p, -, rfl⟩ := Option.map_eq_some_iff.mp hstep
    exact ⟨.kept rfl rfl, Nat.le_add_right ..⟩
  | deliver opening uuids req =>
    obtain ⟨p, -, rfl⟩ := Option.map_eq_some_iff.mp hstep
    have htook : TookRequest s.hub (handleInbox env opening (fun i => standing s.now (uuids i))
        p.inFlight s.hub req) := tookRequest_handle opening p.inFlight req
    exact ⟨.kept (congrArg (OrderedMap.get? · id) htook.outbox) rfl, Nat.le_refl _⟩
  | runtimeEnds i uuids outcome io =>
    obtain ⟨p, hp, hmap⟩ := Option.bind_eq_some_iff.mp hstep
    obtain ⟨runtime, hi, rfl⟩ := Option.map_eq_some_iff.mp hmap
    exact runtimeEnds_move hp hi (hfresh _ rfl) h fun heq => hne (congrArg some heq)
  | drainTick io =>
    obtain ⟨p, -, rfl⟩ := Option.map_eq_some_iff.mp hstep
    exact tick_move env io h id
  | fetchEnds outcome io =>
    obtain ⟨d, hd, rfl⟩ := Option.map_eq_some_iff.mp hstep
    obtain ⟨p, hp, hpd⟩ := Option.bind_eq_some_iff.mp hd
    exact fetchEnds_move hp hpd h id
  | maintenance =>
    obtain ⟨p, -, rfl⟩ := Option.map_eq_some_iff.mp hstep
    exact ⟨maintenance_move id, Nat.le_refl _⟩

/-! ## A reply that is sent -/

/-- The reply is sent, or its row is not there. -/
def AgentInbox.Closed (s : AgentInbox) (id : String) : Prop :=
  ∀ row, s.hub.outbox.get? id = some row → row.status = .sent

/-- A closed reply stays so, and is not posted. -/
theorem RowMove.closed (hmove : RowMove cfg s t id) (h : Delivering cfg s) (hclosed : s.Closed id) :
    t.Closed id ∧ t.posted id = s.posted id := by
  cases hmove with
  | kept hrow hposted => exact ⟨fun row hget => hclosed row (hrow ▸ hget), hposted⟩
  | settled hheld _ =>
    obtain ⟨e, he, rfl⟩ := List.mem_map.mp hheld
    obtain ⟨hget, hsending⟩ := h.holds.claimed e he
    exact absurd (hsending.symm.trans (hclosed e.2 hget)) (by simp)
  | claimed row row' hrow hdue _ _ =>
    simp [OutboxRow.due, hclosed row hrow] at hdue
  | pruned row _ _ hgone hposted =>
    exact ⟨fun row' hget => absurd (hgone.symm.trans hget) (by simp), hposted⟩

/-! ## The attempts of a reply -/

/-- The attempts of a reply; a row that is gone has used them up. -/
def AgentInbox.level (cfg : DrainConfig) (id : String) (s : AgentInbox) : Nat :=
  match s.hub.outbox.get? id with
  | none => cfg.outboxMaxAttempts + s.abandoned
  | some row => row.attempts

/-- A tick that claims the reply: it is due, and at most ten rows are. -/
def TakesUp (cfg : DrainConfig) (id : String) (s : AgentInbox) : AgentInboxEvent → Bool
  | .drainTick io =>
    (s.process.bind InboxProcess.drain).isNone && !io.claimThrows &&
      ((s.hub.outbox.get? id).any fun row => row.due s.now (s.now - cfg.outboxLeaseMs)) &&
      (s.hub.outbox.entries.filter fun e => e.2.due s.now (s.now - cfg.outboxLeaseMs)).length ≤ 10
  | _ => false

theorem level_le (h : Delivering cfg s) (id : String) :
    s.level cfg id ≤ cfg.outboxMaxAttempts + s.abandoned := by
  unfold AgentInbox.level
  cases hrow : s.hub.outbox.get? id with
  | none => exact Nat.le_refl _
  | some row => exact (h.holds.rows id row hrow).bounded

theorem level_some (hrow : s.hub.outbox.get? id = some row) : s.level cfg id = row.attempts := by
  rw [AgentInbox.level, hrow]

/-- No move lowers the attempts. -/
theorem RowMove.level_le (hmove : RowMove cfg s t id) (habandoned : s.abandoned ≤ t.abandoned)
    (h : Delivering cfg s) : s.level cfg id ≤ t.level cfg id := by
  cases hmove with
  | kept hrow _ =>
    unfold AgentInbox.level
    rw [hrow]
    cases s.hub.outbox.get? id with
    | none => exact Nat.add_le_add_left habandoned _
    | some row => exact Nat.le_refl _
  | settled hheld hattempts =>
    obtain ⟨e, he, rfl⟩ := List.mem_map.mp hheld
    obtain ⟨hget, -⟩ := h.holds.claimed e he
    rw [hget] at hattempts
    obtain ⟨row', hrow', heq⟩ := Option.map_eq_some_iff.mp hattempts
    rw [level_some hget, level_some hrow', heq]
  | claimed row row' hrow _ hrow' hattempts =>
    rw [level_some hrow, level_some hrow']
    omega
  | pruned row hrow _ hgone _ =>
    have hbounded := (h.holds.rows id row hrow).bounded
    rw [level_some hrow, AgentInbox.level, hgone]
    show row.attempts ≤ cfg.outboxMaxAttempts + t.abandoned
    omega

/-- The hub does not refuse the drain for what it asks. -/
theorem claim_willing (cfg : DrainConfig) (s : AgentInbox) :
    ∃ hub rows, claimDueOutbox (standing s.now fun _ => "") (.ofNat 10)
      (.ofNat cfg.outboxLeaseMs) s.hub = .ok (hub, rows) := by
  have hlease : (Number.ofNat cfg.outboxLeaseMs).le (.ofInt 0) = false := by
    show decide ((cfg.outboxLeaseMs : ℚ) ≤ ((0 : Int) : ℚ)) = false
    rw [decide_eq_false_iff_not, not_le, Int.cast_zero]
    exact Nat.cast_pos.mpr cfg.leases
  have hlimit : (Number.ofNat 10).le (.ofInt 0) = false := by
    show decide (((10 : Nat) : ℚ) ≤ ((0 : Int) : ℚ)) = false
    norm_num
  rw [claimDueOutbox, if_neg (by rw [hlimit]; simp [Number.isFinite, Number.ofNat]),
    if_neg (by rw [hlease]; simp [Number.isFinite, Number.ofNat])]
  exact ⟨_, _, rfl⟩

/-- A tick that takes the reply up makes one attempt more. -/
theorem tick_takesUp (h : Delivering cfg s) (htakes : TakesUp cfg id s (.drainTick io) = true) :
    s.level cfg id + 1 ≤ (s.tick env cfg io).level cfg id := by
  simp only [TakesUp, Bool.and_eq_true, Bool.not_eq_true', decide_eq_true_iff,
    Option.isNone_iff_eq_none] at htakes
  obtain ⟨⟨⟨hidle, hwilling⟩, hdue⟩, hfew⟩ := htakes
  obtain ⟨hub, rows, hclaim⟩ := claim_willing cfg s
  have hin : id ∈ rows.map Prod.fst := by
    cases hrow : s.hub.outbox.get? id with
    | none =>
      rw [hrow] at hdue
      exact absurd hdue (by simp)
    | some row =>
      rw [hrow] at hdue
      refine (mem_claimed_iff hclaim id).mpr (mem_dueIds_of_few ?_ hrow ?_)
      · rw [floor_lease]
        exact hfew
      · rw [floor_lease]
        exact hdue
  have hactive : ¬ ((s.process.bind InboxProcess.drain).isSome ∨ io.claimThrows = true) := by
    rw [not_or, Option.not_isSome_iff_eq_none]
    exact ⟨hidle, by simp [hwilling]⟩
  obtain ⟨row, row', hrow, -, hrow', hattempts⟩ :=
    claimed_row (idle_holds hidle h) hclaim hin
  rw [AgentInbox.tick, if_neg hactive, hclaim]
  rw [level_some hrow]
  refine Nat.le_of_eq (hattempts.symm.trans ?_)
  exact (level_some hrow').symm

/-- A step that takes the reply up makes one attempt more, and no step makes fewer. -/
theorem level_step {e : AgentInboxEvent} (h : Delivering cfg s) (hfresh : FreshIds s e)
    (hne : e.filesUnder ≠ some id) (hstep : s.step env cfg e = some t) :
    s.level cfg id + (if TakesUp cfg id s e then 1 else 0) ≤ t.level cfg id := by
  split
  next htakes =>
    cases e with
    | drainTick io =>
      obtain ⟨p, -, rfl⟩ := Option.map_eq_some_iff.mp hstep
      exact tick_takesUp h htakes
    | _ => exact absurd htakes (by simp [TakesUp])
  next =>
    obtain ⟨hmove, habandoned⟩ := rowMove_step h hfresh hne hstep
    exact hmove.level_le habandoned h

/-- A row that nobody has and that is not settled waits for its time. -/
theorem RowHolds.due (h : RowHolds cfg s False id row) (hsent : row.status ≠ .sent)
    (hdead : row.status ≠ .dead)
    (hlate : row.updatedAt + max 5000 (cfg.outboxLeaseMs : Int) ≤ s.now) :
    row.due s.now (s.now - cfg.outboxLeaseMs) = true := by
  have hwaits : row.status = .pending ∨ row.status = .failed →
      row.due s.now (s.now - cfg.outboxLeaseMs) = true := by
    intro hwaiting
    have hsoon := (h.waiting hwaiting).2
    have htime : row.nextAttemptAt.all (fun at' => at' ≤ s.now) = true := by
      rw [Option.all_eq_true]
      intro at' hat
      have hat' := hsoon at' hat
      rw [decide_eq_true_iff]
      omega
    rcases hwaiting with heq | heq <;> simp [OutboxRow.due, heq, htime]
  cases hstatus : row.status with
  | pending => exact hwaits (Or.inl hstatus)
  | failed => exact hwaits (Or.inr hstatus)
  | sent => exact absurd hstatus hsent
  | dead => exact absurd hstatus hdead
  | sending =>
    -- its lease was left to run out
    have hstale : row.updatedAt ≤ s.now - cfg.outboxLeaseMs := by omega
    simp [OutboxRow.due, hstatus, hstale]

end Frame

/-! ## Whole runs -/

/-- What may be relied on of the replies of a hub, in any state of its processes. -/
structure RepliesKept (cfg : DrainConfig) (s : AgentInbox) : Prop where
  /-- No reply leaves the machine. -/
  guarded : ∀ post ∈ s.posts, Guarded cfg post
  /-- The rows of the drain are leased to it. -/
  leased : ∀ e ∈ s.batch, s.hub.outbox.get? e.1 = some e.2 ∧ e.2.status = .sending
  /-- The drain has each of its rows once. -/
  distinct : (s.batch.map Prod.fst).Nodup
  /-- Every post was an attempt, and they are bounded. -/
  attempts : ∀ id row, s.hub.outbox.get? id = some row →
    s.posted id ≤ row.attempts ∧ row.attempts ≤ cfg.outboxMaxAttempts + s.abandoned
  /-- A reply is sent only if it was accepted. -/
  accepted : ∀ id row, s.hub.outbox.get? id = some row → row.status = .sent → s.Acknowledged id
  /-- A reply is given up only after its last attempt, or if it was refused for good. -/
  given : ∀ id row, s.hub.outbox.get? id = some row → row.status = .dead →
    cfg.outboxMaxAttempts ≤ row.attempts ∨ s.Refused id

theorem Delivering.repliesKept {cfg : DrainConfig} {s : AgentInbox} (h : Delivering cfg s) :
    RepliesKept cfg s where
  guarded := h.holds.guarded
  leased := h.holds.claimed
  distinct := h.holds.distinct
  attempts := fun id row hrow =>
    ⟨(h.holds.rows id row hrow).attempted, (h.holds.rows id row hrow).bounded⟩
  accepted := fun id row hrow => (h.holds.rows id row hrow).sent
  given := fun id row hrow => (h.holds.rows id row hrow).dead

/-- The run goes on, and no reply is filed under `id` any more. -/
theorem moves_run {env : HubEnv} {cfg : DrainConfig} {now : Int} {id : String}
    {es : List AgentInboxEvent} {s : AgentInbox}
    (hfresh : (agentInboxRuns env cfg now).Along FreshIds s es)
    (hid : ∀ e ∈ es, e.filesUnder ≠ some id) :
    (agentInboxRuns env cfg now).Along (fun s e => FreshIds s e ∧ e.filesUnder ≠ some id) s es :=
  Lts.along_iff.mpr fun pre e post t hes hpre =>
    ⟨Lts.along_iff.mp hfresh pre e post t hes hpre,
      hid e (by rw [hes]; exact List.mem_append_right _ (List.mem_cons_self ..))⟩

/-- **Replies are kept.** Over every run of adapter processes on one hub file, with crashes,
restarts and refusals of the hub anywhere, each post goes to the machine itself and is an attempt
of its row, a row is sent only after an acceptance and given up only after its last attempt or a
refusal for good; and from there on a reply that is sent is not posted again. -/
theorem replies_kept (env : HubEnv) (cfg : DrainConfig) (now : Int) {es : List AgentInboxEvent}
    {s : AgentInbox} (hrun : (agentInboxRuns env cfg now).exec (.init now) es = some s)
    (hfresh : (agentInboxRuns env cfg now).Along FreshIds (.init now) es) :
    RepliesKept cfg s ∧
      ∀ (id : String) (row : OutboxRow) (es' : List AgentInboxEvent) (t : AgentInbox),
        s.hub.outbox.get? id = some row → row.status = .sent →
        (agentInboxRuns env cfg now).exec s es' = some t →
        (agentInboxRuns env cfg now).Along FreshIds s es' →
        (∀ e ∈ es', e.filesUnder ≠ some id) →
        t.posted id = s.posted id ∧
          ∀ row', t.hub.outbox.get? id = some row' → row'.status = .sent := by
  have hholds := delivering_run hrun hfresh
  refine ⟨hholds.repliesKept, fun id row es' t hrow hsent hrun' hfresh' hid => ?_⟩
  -- over the steps that follow: the reply is closed, and posted as often as it was
  have hkept : Delivering cfg t ∧ t.Closed id ∧ t.posted id = s.posted id := by
    refine Lts.exec_invariant (I := fun u => Delivering cfg u ∧ u.Closed id ∧
      u.posted id = s.posted id) ?_ es' ⟨hholds, ?_, rfl⟩ hrun' (moves_run hfresh' hid)
    · intro u e v hu he hstep
      obtain ⟨hdelivering, hclosed, hposted⟩ := hu
      obtain ⟨hmove, -⟩ := rowMove_step hdelivering he.1 he.2 hstep
      obtain ⟨hclosed', hposted'⟩ := hmove.closed hdelivering hclosed
      exact ⟨hdelivering.step he.1 hstep, hclosed', hposted'.trans hposted⟩
    · intro row' hrow'
      rw [hrow, Option.some.injEq] at hrow'
      exact hrow' ▸ hsent
  exact ⟨hkept.2.2, hkept.2.1⟩

/-! One dispatch arrives; its reply is posted, refused for now, and posted again after a second. -/

instance decidableFreshIds (s : AgentInbox) (e : AgentInboxEvent) : Decidable (FreshIds s e) :=
  decidable_of_iff (e.filesUnder.all fun id => s.posted id = 0) (by
    rw [FreshIds, Option.all_eq_true]
    simp only [decide_eq_true_iff])

def sampleDrain : DrainConfig where
  toAscii := some
  gcm := plainOpening.gcm
  dispatchSecret := none
  outboxLeaseMs := 1000
  outboxMaxAttempts := 5
  replyRetryBaseMs := 100
  retentionMs := 86400000
  leases := by decide
  attempts := by decide

def sampleIO : DrainIO := ⟨[], false, fun _ => false, fun _ => false⟩

def sampleArrival : List AgentInboxEvent :=
  [.boot, .deliver plainOpening (fun i n => "u" ++ toString i ++ "-" ++ toString n)
    (posted sampleDispatch.stringify)]

/-- The first `fetch` waits for its end. -/
def sampleFirst : List AgentInboxEvent :=
  [.runtimeEnds 0 (fun n => "m" ++ toString n) (.succeeded "durable reply") sampleIO]

def sampleSecond : List AgentInboxEvent :=
  [.fetchEnds (.response 503 "") sampleIO, .clock 1000, .drainTick sampleIO,
    .fetchEnds (.response 200 "ok") sampleIO]

/-- The dispatch has arrived. -/
def arrivedInbox : AgentInbox :=
  let handled := dispatchPayload sampleHubEnv
    (fun i => standing 0 fun n => "u" ++ toString i ++ "-" ++ toString n) [] .init sampleDispatch
  { AgentInbox.init 0 with
    hub := handled.hub
    process := some ⟨handled.inFlight, handled.started.toList, none⟩ }

theorem sample_arrives : (agentInboxRuns sampleHubEnv sampleDrain 0).exec (.init 0) sampleArrival
    = some arrivedInbox := by
  show some (AgentInbox.deliver sampleHubEnv plainOpening _ _ ⟨[], [], none⟩ _) = _
  rw [AgentInbox.deliver, handle_posted _ _ _ _ sample_posted]
  rfl

theorem sample_fresh {es : List AgentInboxEvent}
    (h : (agentInboxRuns sampleHubEnv sampleDrain 0).Along FreshIds arrivedInbox es) :
    (agentInboxRuns sampleHubEnv sampleDrain 0).Along FreshIds (.init 0) (sampleArrival ++ es) := by
  obtain ⟨s₁, hboot, hrest⟩ := Lts.exec_cons.mp sample_arrives
  obtain ⟨s₂, hdeliver, hnil⟩ := Lts.exec_cons.mp hrest
  obtain rfl := Option.some.inj hnil
  -- neither of the two events files a reply
  exact (Lts.along_cons hboot).mpr ⟨fun id hid => absurd hid (by simp [AgentInboxEvent.filesUnder]),
    (Lts.along_cons hdeliver).mpr
      ⟨fun id hid => absurd hid (by simp [AgentInboxEvent.filesUnder]), h⟩⟩

theorem reply_posted_twice :
    ∃ s, (agentInboxRuns sampleHubEnv sampleDrain 0).exec (.init 0)
        (sampleArrival ++ (sampleFirst ++ sampleSecond)) = some s ∧
      (s.hub.outbox.get? "m0").map (fun row => (row.status, row.attempts)) = some (.sent, 2) ∧
      RepliesKept sampleDrain s := by
  have hend : ((agentInboxRuns sampleHubEnv sampleDrain 0).exec arrivedInbox
      (sampleFirst ++ sampleSecond)).bind (fun s =>
        (s.hub.outbox.get? "m0").map fun row => (row.status, row.attempts))
      = some (.sent, 2) := by
    decide +kernel
  obtain ⟨s, hs, hrow⟩ := Option.bind_eq_some_iff.mp hend
  have hrun := Lts.exec_append.mpr ⟨arrivedInbox, sample_arrives, hs⟩
  have hfresh := @sample_fresh (sampleFirst ++ sampleSecond) (by decide +kernel)
  exact ⟨s, hrun, hrow, (replies_kept sampleHubEnv sampleDrain 0 hrun hfresh).1⟩

/-- **Replies are taken up.** In every run, a reply that is neither sent nor given up and that
no drain has is due again as soon as the longest backoff and a lease have passed; and the ticks
that find it due, with at most ten rows to claim, are no more than there are attempts and drains
that did not come to their end. -/
theorem replies_taken_up (env : HubEnv) (cfg : DrainConfig) (now : Int)
    {es : List AgentInboxEvent} {s : AgentInbox}
    (hrun : (agentInboxRuns env cfg now).exec (.init now) es = some s)
    (hfresh : (agentInboxRuns env cfg now).Along FreshIds (.init now) es) :
    ∀ (id : String) (row : OutboxRow), s.hub.outbox.get? id = some row →
      (row.status ≠ .sent → row.status ≠ .dead → id ∉ s.batch.map Prod.fst →
        row.updatedAt + max 5000 (cfg.outboxLeaseMs : Int) ≤ s.now →
        row.due s.now (s.now - cfg.outboxLeaseMs) = true) ∧
      ∀ (es' : List AgentInboxEvent) (t : AgentInbox),
        (agentInboxRuns env cfg now).exec s es' = some t →
        (agentInboxRuns env cfg now).Along FreshIds s es' →
        (∀ e ∈ es', e.filesUnder ≠ some id) →
        row.attempts + (agentInboxRuns env cfg now).tally (TakesUp cfg id) s es'
          ≤ cfg.outboxMaxAttempts + t.abandoned := by
  have hholds := delivering_run hrun hfresh
  intro id row hrow
  refine ⟨fun hsent hdead hout hlate => ?_, fun es' t hrun' hfresh' hid => ?_⟩
  · have hfree := hholds.holds.rows id row hrow
    rw [eq_false hout] at hfree
    exact hfree.due hsent hdead hlate
  · have halong := moves_run hfresh' hid
    have hlevel := Lts.add_tally_le (M := agentInboxRuns env cfg now) (I := Delivering cfg)
      (C := fun s e => FreshIds s e ∧ e.filesUnder ≠ some id) (P := TakesUp cfg id)
      (AgentInbox.level cfg id) (fun u e v hu he hstep => hu.step he.1 hstep)
      (fun u e v hu he hstep => level_step hu he.1 he.2 hstep) es' hholds hrun' halong
    have hend : Delivering cfg t :=
      Lts.exec_invariant (I := Delivering cfg) (fun u e v hu he hstep => hu.step he.1 hstep) es'
        hholds hrun' halong
    rw [level_some hrow] at hlevel
    have hbound := level_le hend id
    omega

/-- The second post of the sample is the one tick that takes its reply up. -/
theorem reply_taken_up_once :
    ∃ s t row, (agentInboxRuns sampleHubEnv sampleDrain 0).exec (.init 0)
        (sampleArrival ++ sampleFirst) = some s ∧
      s.hub.outbox.get? "m0" = some row ∧
      (agentInboxRuns sampleHubEnv sampleDrain 0).exec s sampleSecond = some t ∧
      row.attempts + (agentInboxRuns sampleHubEnv sampleDrain 0).tally
        (TakesUp sampleDrain "m0") s sampleSecond ≤ 5 + t.abandoned := by
  have hfirst : ((agentInboxRuns sampleHubEnv sampleDrain 0).exec arrivedInbox
      sampleFirst).bind (fun s => (s.hub.outbox.get? "m0").bind fun row =>
        ((agentInboxRuns sampleHubEnv sampleDrain 0).exec s sampleSecond).map fun _ =>
          decide ((agentInboxRuns sampleHubEnv sampleDrain 0).Along FreshIds s sampleSecond))
      = some true := by
    decide +kernel
  obtain ⟨s, hs, hrest⟩ := Option.bind_eq_some_iff.mp hfirst
  obtain ⟨row, hrow, hsecond⟩ := Option.bind_eq_some_iff.mp hrest
  obtain ⟨t, ht, hfresh'⟩ := Option.map_eq_some_iff.mp hsecond
  have hrun := Lts.exec_append.mpr ⟨arrivedInbox, sample_arrives, hs⟩
  have hfresh := @sample_fresh sampleFirst (by decide +kernel)
  refine ⟨s, t, row, hrun, hrow, ht, ?_⟩
  exact ((replies_taken_up sampleHubEnv sampleDrain 0 hrun hfresh) "m0" row hrow).2 sampleSecond t
    ht (of_decide_eq_true hfresh') (by simp [sampleSecond, AgentInboxEvent.filesUnder])

end Kovael.Hub
