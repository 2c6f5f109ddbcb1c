import Kovael.Chair.Steps

/-!
# Every reachable state is wired

Every step but a start and a submission evolves one call (`step_cases`); what
those two do is in `start_cases` and `submit_cases`. So every step preserves
`Wired` (`step_wired`), and every reachable state has it (`reachable_wired`).
-/

namespace Kovael.Chair

open Js (Number OrderedMap Clock)

variable {env : Env} {b b' : Bridge} {id : String} {s : Stream}

/-! ## Every step -/

/-- Every step but a start and a submission evolves one call. -/
theorem step_cases (hb : Wired env b) {e : Event} (hstep : step env b e = some b') :
    (∃ i, e = .start i) ∨ (∃ clock input, e = .submit clock input) ∨
    ∃ id s s', Evolves b b' id s s' := by
  cases e with
  | start i => exact Or.inl ⟨i, rfl⟩
  | submit clock input => exact Or.inr (Or.inl ⟨clock, input, rfl⟩)
  | fetchDone now id outcome =>
    obtain ⟨s, hs, hstep⟩ := Option.bind_eq_some_iff.mp hstep
    split at hstep
    next attempt hphase =>
      rw [Option.some.injEq] at hstep
      have hdis : s.phase.dispatching = true := by rw [hphase]; rfl
      have hgo := fetchDone_dispatches now outcome attempt s b
      rw [hstep] at hgo
      exact Or.inr (Or.inr ⟨id, s, hgo.evolves hb hs hdis⟩)
    next => exact absurd hstep (by simp)
  | backoffDone now id =>
    obtain ⟨s, hs, hstep⟩ := Option.bind_eq_some_iff.mp hstep
    split at hstep
    next attempt hphase =>
      rw [Option.some.injEq] at hstep
      have hdis : s.phase.dispatching = true := by rw [hphase]; rfl
      have hgo := enterAttempt_dispatches now (attempt + 1) s b
      rw [hstep] at hgo
      exact Or.inr (Or.inr ⟨id, s, hgo.evolves hb hs hdis⟩)
    next => exact absurd hstep (by simp)
  | postSettles now id =>
    obtain ⟨s, hs, hstep⟩ := Option.bind_eq_some_iff.mp hstep
    split at hstep
    next attempts hphase =>
      rw [Option.some.injEq] at hstep
      rw [← hstep]
      exact Or.inr (Or.inr ⟨id, s, postReturned_evolves hb hs hphase now⟩)
    next message details hphase =>
      rw [Option.some.injEq, postThrew, hb.keyed id s hs] at hstep
      have hdis : s.phase.dispatching = true := by rw [hphase]; rfl
      rw [← hstep]
      exact Or.inr (Or.inr ⟨id, s, evolves_leave hb hs hdis (by simp)⟩)
    next => exact absurd hstep (by simp)
  | replyTimeout now id =>
    obtain ⟨s, hs, hstep⟩ := Option.bind_eq_some_iff.mp hstep
    split at hstep
    next htimer =>
      rw [Option.some.injEq] at hstep
      rw [← hstep]
      exact Or.inr (Or.inr ⟨id, s,
        evolves_rejectPending hb hs ((hb.ok id s hs).armed (Or.inl htimer)).1 now _⟩)
    next => exact absurd hstep (by simp)
  | abort now id =>
    obtain ⟨s, hs, hstep⟩ := Option.bind_eq_some_iff.mp hstep
    split at hstep
    next => exact absurd hstep (by simp)
    next =>
      rw [Option.some.injEq] at hstep
      rw [← hstep]
      exact Or.inr (Or.inr ⟨id, s, abortSignal_evolves hb hs now⟩)
  | wake now id =>
    obtain ⟨s, hs, hstep⟩ := Option.bind_eq_some_iff.mp hstep
    split at hstep
    next hphase => exact Or.inr (Or.inr ⟨id, s, wake_evolves hb hs hphase now hstep⟩)
    next => exact absurd hstep (by simp)
  | play now id =>
    obtain ⟨s, hs, hstep⟩ := Option.bind_eq_some_iff.mp hstep
    exact Or.inr (Or.inr ⟨id, s, play_evolves hb hs now hstep⟩)

/-- What a submission does: it is refused and changes nothing, or it passes the
checks against a pending entry and settles that call's promise. -/
theorem submit_cases (env : Env) (clock : Clock) (input : ChairReplySubmission) (b : Bridge) :
    (∃ status code, submitReplyForRequest env clock input b = (b, .refused status code)) ∨
    ∃ pending, b.pendingReplies.get? input.requestId = some pending ∧
      refusal env input pending = none ∧
      submitReplyForRequest env clock input b
        = ({ b with pendingReplies := b.pendingReplies.delete input.requestId }.settleReply
            input.requestId (replyOf input (receiptOf env clock input pending)),
          .ok (receiptOf env clock input pending)) := by
  unfold submitReplyForRequest
  cases hp : b.pendingReplies.get? input.requestId with
  | none => exact Or.inl ⟨_, _, rfl⟩
  | some pending =>
    dsimp only
    cases hr : refusal env input pending with
    | some r => exact Or.inl ⟨r.1, r.2, rfl⟩
    | none => exact Or.inr ⟨pending, rfl, hr, rfl⟩

/-- A submission that passes the checks is accepted. -/
theorem submit_accepts (clock : Clock) {input : ChairReplySubmission}
    {pending : PendingChairReply} (hp : b.pendingReplies.get? input.requestId = some pending)
    (hpass : refusal env input pending = none) :
    (submitReplyForRequest env clock input b).2 = .ok (receiptOf env clock input pending) := by
  unfold submitReplyForRequest
  rw [hp]
  dsimp only
  rw [hpass]

/-- A submission that passes the checks matches the entry. -/
theorem refusal_eq_none {input : ChairReplySubmission} {pending : PendingChairReply}
    (h : refusal env input pending = none) :
    input.agentId = pending.agentId ∧ (∀ t ∈ input.topicId, t = pending.topicId) ∧
    input.claimSessionId = pending.claimSessionId ∧
    verifyChairReplyProof env.hmac
      ⟨input.requestId, input.claimSessionId, pending.replyProofSecret⟩ input.replyProof
      = true := by
  unfold refusal at h
  split at h
  next => exact absurd h (by simp)
  next htarget =>
    rw [not_or] at htarget
    split at h
    next => exact absurd h (by simp)
    next hsession =>
      split at h
      next => exact absurd h (by simp)
      next hproof =>
        refine ⟨(not_ne_iff.mp htarget.1).symm, ?_, (not_ne_iff.mp hsession).symm,
          by simpa using hproof⟩
        intro t ht
        by_contra hne
        exact htarget.2 ⟨t, ht, fun heq => hne heq.symm⟩

/-- The call after its reply was accepted. -/
def Stream.answer (s : Stream) (p : ReplyPromise) : Stream :=
  { s with replyTimer := false, abortListener := false, replyReceived := p }

/-- The bridge after a submission was accepted and noted. -/
def Bridge.accept (b : Bridge) (input : ChairReplySubmission) (receipt : ChairDispatchReceipt) :
    Bridge :=
  { { b with pendingReplies := b.pendingReplies.delete input.requestId }.settleReply
      input.requestId (replyOf input receipt) with
    submissions := b.submissions ++ [(input, .ok receipt)] }

theorem get_accept {input : ChairReplySubmission}
    (hs : b.streams.get? input.requestId = some s) (hrep : s.replyReceived = .pending)
    (receipt : ChairDispatchReceipt) (k : String) :
    (b.accept input receipt).streams.get? k
      = if k = input.requestId then some (s.answer (replyOf input receipt))
        else b.streams.get? k :=
  get_settleReply (b := { b with pendingReplies := b.pendingReplies.delete input.requestId })
    hs hrep _ k

theorem get_accept_pending (b : Bridge) (input : ChairReplySubmission)
    (receipt : ChairDispatchReceipt) (k : String) :
    (b.accept input receipt).pendingReplies.get? k
      = if k = input.requestId then none else b.pendingReplies.get? k := by
  rw [Bridge.accept, get_settleReply_pending]
  split
  next => rfl
  next hk => exact OrderedMap.get?_delete_ne _ hk

/-- A waiting call whose promise settles is consistent: no other variable says
anything about the promise yet. -/
theorem streamOk_answer (hok : StreamOk s) (hwait : s.phase.waiting = true) (p : ReplyPromise) :
    StreamOk (s.answer p) where
  phased := by
    have hph := hok.phased
    rw [Phased] at hph ⊢
    cases hphase : s.phase <;> simp only [hphase, Stream.answer] at hph hwait ⊢
    case posting | backoff | postReturned | postThrew | awaitingReply => exact hph
    all_goals exact absurd hwait (by simp [Phase.waiting])
  armed harmed := absurd harmed (by simp [Stream.answer])

/-- A submission that passes the checks against the entry of a call answers the
call. -/
theorem answered_of_passes (clock : Clock) {input : ChairReplySubmission}
    {pending : PendingChairReply} (hid : s.requestId = input.requestId)
    (hids : pending.toDispatchIds = s.toDispatchIds)
    (hsecret : pending.replyProofSecret = s.replyProofSecret)
    (hpass : refusal env input pending = none) :
    Answered env (s.answer (replyOf input (receiptOf env clock input pending))) input
      (receiptOf env clock input pending) := by
  obtain ⟨hagent, htopic, hsession, hproof⟩ := refusal_eq_none hpass
  refine ⟨?_, ?_, ?_, ?_, ?_, rfl, rfl⟩
  · rw [hagent, hids]
    rfl
  · rw [hids] at htopic
    exact htopic
  · rw [hsession, hids]
    rfl
  · show verifyChairReplyProof env.hmac ⟨s.requestId, s.claimSessionId, s.replyProofSecret⟩ _
      = true
    rw [hid, ← hsecret, ← congrArg DispatchIds.claimSessionId hids, ← hsession]
    exact hproof
  · show (⟨input.requestId, pending.topicId, pending.agentId, pending.claimSessionId⟩
      : DispatchIds) = s.toDispatchIds
    rw [hids, ← hid]

/-- A refused submission is noted, and that is all. -/
theorem refused_wired (hb : Wired env b) (input : ChairReplySubmission) (status : Nat)
    (code : String) :
    Wired env { b with submissions := b.submissions ++ [(input, .refused status code)] } where
  keyed := hb.keyed
  ok := hb.ok
  pending := hb.pending
  accepted i r hin := by
    rcases List.mem_append.mp hin with hin | hin
    · exact hb.accepted i r hin
    · rw [List.mem_singleton, Prod.mk.injEq] at hin
      exact absurd hin.2 (by simp)
  answered id s hs hreply := by
    obtain ⟨i, r, hin, hrest⟩ := hb.answered id s hs hreply
    exact ⟨i, r, List.mem_append_left _ hin, hrest⟩
  settled := hb.settled
  once := hb.once

/-- An accepted submission settles the promise of one waiting call. -/
theorem accept_wired (hb : Wired env b) {input : ChairReplySubmission}
    {receipt : ChairDispatchReceipt} (hs : b.streams.get? input.requestId = some s)
    (hrep : s.replyReceived = .pending) (hwait : s.phase.waiting = true)
    (hans : Answered env (s.answer (replyOf input receipt)) input receipt) :
    Wired env (b.accept input receipt) where
  keyed k t ht := by
    rw [get_accept hs hrep] at ht
    by_cases hk : k = input.requestId
    · rw [if_pos hk, Option.some.injEq] at ht
      rw [← ht, hk]
      exact hb.keyed _ s hs
    · rw [if_neg hk] at ht
      exact hb.keyed k t ht
  ok k t ht := by
    rw [get_accept hs hrep] at ht
    by_cases hk : k = input.requestId
    · rw [if_pos hk, Option.some.injEq] at ht
      exact ht ▸ streamOk_answer (hb.ok _ _ hs) hwait _
    · rw [if_neg hk] at ht
      exact hb.ok k t ht
  pending k p hp := by
    rw [get_accept_pending] at hp
    by_cases hk : k = input.requestId
    · rw [if_pos hk] at hp
      exact absurd hp (by simp)
    · rw [if_neg hk] at hp
      obtain ⟨t, ht, hrest⟩ := hb.pending k p hp
      exact ⟨t, (get_accept hs hrep receipt k).trans ((if_neg hk).trans ht), hrest⟩
  accepted i r hin := by
    rcases List.mem_append.mp hin with hin | hin
    · obtain ⟨t, ht, hans'⟩ := hb.accepted i r hin
      by_cases hk : i.requestId = input.requestId
      · -- an earlier accepted submission is about another call: this one was pending
        rw [hk, hs, Option.some.injEq] at ht
        exact absurd (ht ▸ hrep) (isReply_ne_pending hans'.isReply)
      · exact ⟨t, (get_accept hs hrep receipt _).trans ((if_neg hk).trans ht), hans'⟩
    · rw [List.mem_singleton, Prod.mk.injEq, ChairReplySubmitResult.ok.injEq] at hin
      rw [hin.1, hin.2]
      exact ⟨_, (get_accept hs hrep receipt _).trans (if_pos rfl), hans⟩
  answered k t ht hreply := by
    rw [get_accept hs hrep] at ht
    by_cases hk : k = input.requestId
    · rw [if_pos hk, Option.some.injEq] at ht
      rw [← ht]
      exact ⟨input, receipt, List.mem_append_right _ (List.mem_singleton_self _), hk.symm, hans⟩
    · rw [if_neg hk] at ht
      obtain ⟨i, r, hin, hrest⟩ := hb.answered k t ht hreply
      exact ⟨i, r, List.mem_append_left _ hin, hrest⟩
  settled k phase hin := by
    obtain ⟨hdone, t, ht, hph⟩ := hb.settled k phase hin
    refine ⟨hdone, ?_⟩
    by_cases hk : k = input.requestId
    · rw [hk, hs, Option.some.injEq] at ht
      exact ⟨_, (get_accept hs hrep receipt k).trans (if_pos hk), by rw [← hph, ← ht]; rfl⟩
    · exact ⟨t, (get_accept hs hrep receipt k).trans ((if_neg hk).trans ht), hph⟩
  once := hb.once

/-- A submission preserves the invariant. -/
theorem submit_wired (hb : Wired env b) (clock : Clock) (input : ChairReplySubmission) :
    Wired env
      { (submitReplyForRequest env clock input b).1 with
        submissions := (submitReplyForRequest env clock input b).1.submissions ++
          [(input, (submitReplyForRequest env clock input b).2)] } := by
  rcases submit_cases env clock input b with ⟨status, code, heq⟩ | ⟨pending, hp, hpass, heq⟩
  · rw [heq]
    exact refused_wired hb input status code
  · obtain ⟨s, hs, hrep, hwait, hids, hsecret⟩ := hb.pending _ _ hp
    have hans := answered_of_passes clock (hb.keyed _ _ hs) hids hsecret hpass
    rw [heq]
    exact accept_wired hb hs hrep hwait hans

/-- Whatever is filed already is filed under another id. -/
theorem get_file_of_some (hfresh : b.streams.get? s.requestId = none)
    (pending : PendingChairReply) {k : String} {t : Stream} (ht : b.streams.get? k = some t) :
    (b.file s pending).streams.get? k = some t := by
  have hk : k ≠ s.requestId := by
    intro hk
    rw [hk, hfresh] at ht
    exact absurd ht (by simp)
  exact (get_put _ s k).trans ((if_neg hk).trans ht)

/-- Filing a new call under a fresh id preserves the invariant. -/
theorem file_wired (hb : Wired env b) (hfresh : b.streams.get? s.requestId = none)
    {pending : PendingChairReply} (hids : pending.toDispatchIds = s.toDispatchIds)
    (hsecret : pending.replyProofSecret = s.replyProofSecret)
    (hreply : s.replyReceived = .pending) (hdis : s.phase.dispatching = true)
    (hok : StreamOk s) :
    Wired env (b.file s pending) where
  keyed k t ht := by
    have ht' := (get_put _ s k).symm.trans ht
    by_cases hk : k = s.requestId
    · rw [if_pos hk, Option.some.injEq] at ht'
      rw [← ht', hk]
    · rw [if_neg hk] at ht'
      exact hb.keyed k t ht'
  ok k t ht := by
    have ht' := (get_put _ s k).symm.trans ht
    by_cases hk : k = s.requestId
    · rw [if_pos hk, Option.some.injEq] at ht'
      exact ht' ▸ hok
    · rw [if_neg hk] at ht'
      exact hb.ok k t ht'
  pending k p hp := by
    by_cases hk : k = s.requestId
    · have hself : (b.file s pending).pendingReplies.get? k = some pending := by
        rw [hk]
        exact OrderedMap.get?_set_self ..
      obtain rfl : pending = p := Option.some.inj (hself.symm.trans hp)
      exact ⟨s, (get_put _ s k).trans (if_pos hk), hreply, (dispatching_open hdis).2.1, hids,
        hsecret⟩
    · obtain ⟨t, ht, hrest⟩ := hb.pending k p ((OrderedMap.get?_set_ne _ _ hk).symm.trans hp)
      exact ⟨t, get_file_of_some hfresh pending ht, hrest⟩
  accepted input receipt hin := by
    obtain ⟨t, ht, hans⟩ := hb.accepted input receipt hin
    exact ⟨t, get_file_of_some hfresh pending ht, hans⟩
  answered k t ht hrep := by
    have ht' := (get_put _ s k).symm.trans ht
    by_cases hk : k = s.requestId
    · -- the new call has no reply
      rw [if_pos hk, Option.some.injEq] at ht'
      rw [← ht', hreply] at hrep
      exact absurd hrep (by simp [ReplyPromise.isReply])
    · rw [if_neg hk] at ht'
      exact hb.answered k t ht' hrep
  settled k phase hin := by
    obtain ⟨hdone, t, ht, hph⟩ := hb.settled k phase hin
    exact ⟨hdone, t, get_file_of_some hfresh pending ht, hph⟩
  once := hb.once

/-- A dispatch up to its first `fetch` evolves the call it is about. -/
theorem dispatch_evolves (hb : Wired env b) (hs : b.streams.get? s.requestId = some s)
    (hdis : s.phase.dispatching = true) (i : StartInput) :
    ∃ s', Evolves b (dispatch i s b) s.requestId s s' := by
  unfold dispatch
  cases i.bodyError with
  | some message => exact evolves_leave hb hs hdis (by simp)
  | none =>
    let b' : Bridge :=
      { b with pendingReplies := b.pendingReplies.modify s.requestId fun p =>
          { p with dispatchStartedAt := some i.now } }
    have hpend : KeepsPending b b' s.requestId := by
      constructor
      · intro k hk
        exact OrderedMap.get?_modify_ne _ _ hk
      · intro p' hp'
        rw [OrderedMap.get?_modify, if_pos rfl, Option.map_eq_some_iff] at hp'
        obtain ⟨p, hp, rfl⟩ := hp'
        exact ⟨p, hp, rfl, rfl⟩
    have hgo : Dispatches (b'.emit (.started s.toDispatchIds)) _
        { s with lastErr := s.lastErr } :=
      enterAttempt_dispatches i.now 0 s (b'.emit (.started s.toDispatchIds))
    exact (hgo.of_note (b := b) rfl hpend rfl rfl).evolves hb hs hdis

/-- What a start does: it is refused before an id is drawn, or it files a call
under a fresh id and evolves it. -/
theorem start_cases {i : StartInput} (hstep : start i b = some b') :
    (∃ message, b' = b.refuse message) ∨
    ∃ claim, b.streams.get? i.requestId = none ∧
      b' = dispatch i (i.stream claim) (b.file (i.stream claim) (i.pending claim)) := by
  unfold start at hstep
  dsimp only at hstep
  split at hstep
  next =>
    rw [Option.some.injEq] at hstep
    exact Or.inl ⟨_, hstep.symm⟩
  next claim hclaim =>
    split at hstep
    next =>
      rw [Option.some.injEq] at hstep
      exact Or.inl ⟨_, hstep.symm⟩
    next =>
      split at hstep
      next message hurl =>
        rw [Option.some.injEq] at hstep
        exact Or.inl ⟨_, hstep.symm⟩
      next url hurl =>
        split at hstep
        next => exact absurd hstep (by simp)
        next hhas =>
          -- online, with a safe URL and a fresh id
          rw [Option.some.injEq] at hstep
          refine Or.inr ⟨claim, ?_, hstep.symm⟩
          cases hg : b.streams.get? i.requestId with
          | none => rfl
          | some t => exact absurd ((OrderedMap.has_iff ..).mpr ⟨t, hg⟩) hhas

/-- A start preserves the invariant. -/
theorem start_wired (hb : Wired env b) {i : StartInput} (hstep : start i b = some b') :
    Wired env b' := by
  rcases start_cases hstep with ⟨message, rfl⟩ | ⟨claim, hfresh, rfl⟩
  · exact ⟨hb.keyed, hb.ok, hb.pending, hb.accepted, hb.answered, hb.settled, hb.once⟩
  · have hfiled : Wired env (b.file (i.stream claim) (i.pending claim)) :=
      file_wired hb hfresh rfl rfl rfl rfl
        ⟨⟨rfl, rfl⟩, fun harmed => absurd harmed (by simp [StartInput.stream])⟩
    obtain ⟨s', hs'⟩ := dispatch_evolves hfiled ((get_put ..).trans (if_pos rfl)) rfl i
    exact hfiled.evolve hs'

/-- Every step preserves the invariant. -/
theorem step_wired (hb : Wired env b) {e : Event} (hstep : step env b e = some b') :
    Wired env b' := by
  rcases step_cases hb hstep with ⟨i, rfl⟩ | ⟨clock, input, rfl⟩ | ⟨id, s, s', hev⟩
  · exact start_wired hb hstep
  · rw [step, Option.some.injEq] at hstep
    exact hstep ▸ submit_wired hb clock input
  · exact hb.evolve hev

theorem init_wired : Wired env .init where
  keyed _ _ hs := absurd hs (by simp [Bridge.init])
  ok _ _ hs := absurd hs (by simp [Bridge.init])
  pending _ _ hp := absurd hp (by simp [Bridge.init])
  accepted _ _ hin := absurd hin (by simp [Bridge.init])
  answered _ _ hs := absurd hs (by simp [Bridge.init])
  settled _ _ hin := absurd hin (by simp [Bridge.init])
  once := List.nodup_nil

/-- Every reachable state is wired. -/
theorem reachable_wired (h : (bridge env).Reachable b) : Wired env b :=
  Lts.reachable_invariant (I := Wired env) init_wired
    (fun _ _ _ hb hst => step_wired hb hst) h

end Kovael.Chair
