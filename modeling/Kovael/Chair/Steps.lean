import Kovael.Chair.Correlation

/-!
# What each step does to its call

One lemma for each operation of `stream()`: it evolves the call it is about.
-/

namespace Kovael.Chair

open Js (Number OrderedMap Clock)

variable {env : Env} {b b' b₁ : Bridge} {id : String} {s : Stream}

/-! ## Views of the operations -/

theorem get_put (b : Bridge) (s : Stream) (k : String) :
    (b.put s).streams.get? k = if k = s.requestId then some s else b.streams.get? k :=
  OrderedMap.get?_set ..

theorem get_cleanupPending (hs : b.streams.get? id = some s) (k : String) :
    (b.cleanupPending id).streams.get? k
      = if k = id then some { s with replyTimer := false, abortListener := false }
        else b.streams.get? k := by
  rw [Bridge.cleanupPending, OrderedMap.get?_modify, hs, Option.map_some]

theorem get_settle (hs : b.streams.get? id = some s) (phase : Phase) (k : String) :
    (b.settle id phase).streams.get? k
      = if k = id then some { s with phase := phase } else b.streams.get? k := by
  rw [Bridge.settle, OrderedMap.get?_modify, hs, Option.map_some]

/-- A call whose promise is pending, after its reply is settled. -/
theorem get_settleReply (hs : b.streams.get? id = some s) (hpend : s.replyReceived = .pending)
    (p : ReplyPromise) (k : String) :
    (b.settleReply id p).streams.get? k
      = if k = id then
          some { s with replyTimer := false, abortListener := false, replyReceived := p }
        else b.streams.get? k := by
  show ((b.cleanupPending id).streams.modify id _).get? k = _
  rw [OrderedMap.get?_modify, get_cleanupPending hs, get_cleanupPending hs, if_pos rfl,
    Option.map_some, hpend, if_pos rfl]
  split
  next => rfl
  next => rfl

theorem get_settleReply_pending (b : Bridge) (id k : String) (p : ReplyPromise) :
    (b.settleReply id p).pendingReplies.get? k
      = if k = id then none else b.pendingReplies.get? k :=
  OrderedMap.get?_delete ..

/-! ## Pending entries -/

/-- The entry of the call keeps its ids and its secret, and no other changes. -/
def KeepsPending (b b' : Bridge) (id : String) : Prop :=
  (∀ k, k ≠ id → b'.pendingReplies.get? k = b.pendingReplies.get? k) ∧
  ∀ p', b'.pendingReplies.get? id = some p' →
    ∃ p, b.pendingReplies.get? id = some p ∧ p'.toDispatchIds = p.toDispatchIds ∧
      p'.replyProofSecret = p.replyProofSecret

theorem keepsPending_refl (h : b'.pendingReplies = b.pendingReplies) :
    KeepsPending b b' id := by
  constructor
  · intro k _
    rw [h]
  · intro p' hp'
    exact ⟨p', h ▸ hp', rfl, rfl⟩

theorem KeepsPending.trans (h : KeepsPending b b₁ id) (h' : KeepsPending b₁ b' id) :
    KeepsPending b b' id := by
  constructor
  · intro k hk
    exact (h'.1 k hk).trans (h.1 k hk)
  · intro p'' hp''
    obtain ⟨p', hp', hids', hsec'⟩ := h'.2 p'' hp''
    obtain ⟨p, hp, hids, hsec⟩ := h.2 p' hp'
    exact ⟨p, hp, hids'.trans hids, hsec'.trans hsec⟩

theorem keepsPending_noteAttempts (b : Bridge) (s : Stream) (now : Int) (attempts : Nat) :
    KeepsPending b (b.noteAttempts s now attempts) s.requestId := by
  constructor
  · intro k hk
    exact OrderedMap.get?_modify_ne _ _ hk
  · intro p' hp'
    rw [Bridge.noteAttempts, OrderedMap.get?_modify, if_pos rfl, Option.map_eq_some_iff] at hp'
    obtain ⟨p, hp, rfl⟩ := hp'
    exact ⟨p, hp, rfl, rfl⟩

/-! ## Evolutions -/

/-- A dispatching call has not settled and still waits. -/
theorem dispatching_open {phase : Phase} (h : phase.dispatching = true) :
    phase.settled = false ∧ phase.waiting = true ∧ phase ≠ .awaitingReply := by
  cases phase with
  | posting attempt => exact ⟨rfl, rfl, by simp⟩
  | backoff attempt => exact ⟨rfl, rfl, by simp⟩
  | postReturned attempts => exact ⟨rfl, rfl, by simp⟩
  | postThrew message details => exact ⟨rfl, rfl, by simp⟩
  | awaitingReply => exact absurd h (by simp [Phase.dispatching])
  | playing words i => exact absurd h (by simp [Phase.dispatching])
  | played => exact absurd h (by simp [Phase.dispatching])
  | returned => exact absurd h (by simp [Phase.dispatching])
  | threw err => exact absurd h (by simp [Phase.dispatching])

/-- A dispatching call has no result and no chunk. -/
theorem phased_of_dispatching {s : Stream} (h : s.phase.dispatching = true) :
    Phased s ↔ s.dispatchResult = none ∧ s.chunks = [] := by
  rw [Phased]
  cases hphase : s.phase with
  | posting attempt => rfl
  | backoff attempt => rfl
  | postReturned attempts => rfl
  | postThrew message details => rfl
  | awaitingReply => exact absurd h (by simp [hphase, Phase.dispatching])
  | playing words i => exact absurd h (by simp [hphase, Phase.dispatching])
  | played => exact absurd h (by simp [hphase, Phase.dispatching])
  | returned => exact absurd h (by simp [hphase, Phase.dispatching])
  | threw err => exact absurd h (by simp [hphase, Phase.dispatching])

/-- A call goes on with its promise as it is. -/
theorem evolves_put (hb : Wired env b) (hs : b.streams.get? id = some s) {s' : Stream}
    (hids : s'.toDispatchIds = s.toDispatchIds)
    (hsecret : s'.replyProofSecret = s.replyProofSecret)
    (hreply : s'.replyReceived = s.replyReceived)
    (hwait : s.replyReceived = .pending → s.phase.waiting = true → s'.phase.waiting = true)
    (hphase : s.phase.settled = true → s'.phase = s.phase) (hok : StreamOk s')
    (hstreams : b'.streams = b.streams.set id s') (hpend : KeepsPending b b' id)
    (hsub : b'.submissions = b.submissions) (hset : b'.settlements = b.settlements) :
    Evolves b b' id s s' where
  before := hs
  after k := by
    rw [hstreams]
    exact OrderedMap.get?_set ..
  ids := hids
  secret := hsecret
  pendingOther := hpend.1
  pendingSelf p' hp' := by
    obtain ⟨p, hp, hrest⟩ := hpend.2 p' hp'
    obtain ⟨s₀, hs₀, hrep, hw, -, -⟩ := hb.pending id p hp
    rw [hs, Option.some.injEq] at hs₀
    rw [← hs₀] at hrep hw
    exact ⟨hreply.trans hrep, hwait hrep hw, p, hp, hrest⟩
  reply := Or.inl hreply
  submissions := hsub
  settlements := Or.inl ⟨hset, hphase⟩
  ok := hok

/-- Nothing happens. -/
theorem evolves_refl (hb : Wired env b) (hs : b.streams.get? id = some s) :
    Evolves b b id s s where
  before := hs
  after k := by
    split
    next hk => rw [hk, hs]
    next => rfl
  ids := rfl
  secret := rfl
  pendingOther _ _ := rfl
  pendingSelf p hp := by
    obtain ⟨s₀, hs₀, hrep, hw, -, -⟩ := hb.pending id p hp
    rw [hs, Option.some.injEq] at hs₀
    rw [← hs₀] at hrep hw
    exact ⟨hrep, hw, p, hp, rfl, rfl⟩
  reply := Or.inl rfl
  submissions := rfl
  settlements := Or.inl ⟨rfl, fun _ => rfl⟩
  ok := hb.ok id s hs

/-- A reply that is not there any more cannot be pending. -/
theorem no_entry_of_settled (hb : Wired env b) (hs : b.streams.get? id = some s)
    (hreply : s.replyReceived ≠ .pending) : b.pendingReplies.get? id = none := by
  cases hp : b.pendingReplies.get? id with
  | none => rfl
  | some p =>
    obtain ⟨s₀, hs₀, hrep, -⟩ := hb.pending id p hp
    rw [hs, Option.some.injEq] at hs₀
    rw [← hs₀] at hrep
    exact absurd hrep hreply

/-- A call that awaits its reply sees it rejected. -/
theorem evolves_rejectPending (hb : Wired env b) (hs : b.streams.get? id = some s)
    (hphase : s.phase = .awaitingReply) (now : Int) (message : String) :
    ∃ s', Evolves b (rejectPending now id message b) id s s' := by
  unfold rejectPending
  cases hp : b.pendingReplies.get? id with
  | none => exact ⟨s, evolves_refl hb hs⟩
  | some p =>
    obtain ⟨s₀, hs₀, hrep, -⟩ := hb.pending id p hp
    rw [hs, Option.some.injEq] at hs₀
    rw [← hs₀] at hrep
    have hph := (hb.ok id s hs).phased
    rw [Phased, hphase] at hph
    refine ⟨_, hs, fun k => get_settleReply hs hrep _ k, rfl, rfl, ?_, ?_,
      Or.inr ⟨hrep, hphase, _, _, rfl⟩, rfl, Or.inl ⟨rfl, fun _ => rfl⟩, ?_⟩
    · intro k hk
      rw [get_settleReply_pending, if_neg hk]
    · intro p' hp'
      rw [get_settleReply_pending, if_pos rfl] at hp'
      exact absurd hp' (by simp)
    · constructor
      · rw [Phased]
        simp only [hphase]
        exact hph
      · intro harmed
        exact absurd harmed (by simp)

/-- A dispatching call throws out of its dispatch. -/
theorem evolves_leave (hb : Wired env b) (hs : b.streams.get? id = some s)
    (hdis : s.phase.dispatching = true) {err : StreamError}
    (herr : ∀ message receipt, err ≠ .replyFailure message receipt) :
    ∃ s', Evolves b ((b.cleanupPending id).settle id (.threw err)) id s s' := by
  have hnone := (phased_of_dispatching hdis).mp (hb.ok id s hs).phased
  have hclean : (b.cleanupPending id).streams.get? id
      = some { s with replyTimer := false, abortListener := false } :=
    (get_cleanupPending hs id).trans (if_pos rfl)
  let s' : Stream := { s with replyTimer := false, abortListener := false, phase := .threw err }
  refine ⟨s', hs, ?_, rfl, rfl, ?_, ?_, Or.inl rfl, rfl,
    Or.inr ⟨rfl, (dispatching_open hdis).1, rfl⟩, ?_⟩
  · intro k
    rw [get_settle hclean, get_cleanupPending hs]
    split
    next => rfl
    next => rfl
  · intro k hk
    exact OrderedMap.get?_delete_ne _ hk
  · intro p' hp'
    rw [Bridge.settle, Bridge.cleanupPending, OrderedMap.get?_delete_self] at hp'
    exact absurd hp' (by simp)
  · exact ⟨Or.inl ⟨hnone.1, herr⟩, fun harmed => absurd harmed (by simp [s'])⟩

/-- A call that is not waiting any more returns or throws. -/
theorem evolves_settle (hb : Wired env b) (hs : b.streams.get? id = some s)
    (hreply : s.replyReceived ≠ .pending) (hopen : s.phase.settled = false) {phase : Phase}
    (hdone : phase.settled = true) (hok : StreamOk { s with phase := phase }) :
    Evolves b (b.settle id phase) id s { s with phase := phase } where
  before := hs
  after k := get_settle hs phase k
  ids := rfl
  secret := rfl
  pendingOther _ _ := rfl
  pendingSelf p hp := by
    have hnone := no_entry_of_settled hb hs hreply
    exact absurd (hnone.symm.trans hp) (by simp)
  reply := Or.inl rfl
  submissions := rfl
  settlements := Or.inr ⟨rfl, hopen, hdone⟩
  ok := hok

/-! ## The dispatch -/

/-- The call goes on dispatching: only the variables of its retry loop change. -/
def Dispatches (b b' : Bridge) (s : Stream) : Prop :=
  ∃ lastErr attemptStartedAt phase, Phase.dispatching phase = true ∧
    b'.streams = b.streams.set s.requestId
      { s with lastErr := lastErr, attemptStartedAt := attemptStartedAt, phase := phase } ∧
    KeepsPending b b' s.requestId ∧ b'.submissions = b.submissions ∧
    b'.settlements = b.settlements

theorem dispatches_put (b : Bridge) (s : Stream) (lastErr : String) (attemptStartedAt : Int)
    {phase : Phase} (hphase : phase.dispatching = true) :
    Dispatches b (b.put
      { s with lastErr := lastErr, attemptStartedAt := attemptStartedAt, phase := phase }) s :=
  ⟨lastErr, attemptStartedAt, phase, hphase, rfl, keepsPending_refl rfl, rfl, rfl⟩

/-- Notes and telemetry before, and another `lastErr`, make no difference. -/
theorem Dispatches.of_note {lastErr : String}
    (h : Dispatches b₁ b' { s with lastErr := lastErr }) (hstreams : b₁.streams = b.streams)
    (hpend : KeepsPending b b₁ s.requestId) (hsub : b₁.submissions = b.submissions)
    (hset : b₁.settlements = b.settlements) : Dispatches b b' s := by
  obtain ⟨e, t, phase, hphase, hst, hp, hs, hl⟩ := h
  exact ⟨e, t, phase, hphase, hst.trans (by rw [hstreams]), hpend.trans hp, hs.trans hsub,
    hl.trans hset⟩

theorem enterAttempt_dispatches (now : Int) (attempt : Nat) (s : Stream) (b : Bridge) :
    Dispatches b (enterAttempt now attempt s b) s := by
  unfold enterAttempt
  split
  next =>
    split
    next => exact dispatches_put b s s.lastErr s.attemptStartedAt rfl
    next =>
      exact (dispatches_put (b.noteAttempts s now (attempt + 1)) s s.lastErr now rfl).of_note rfl
        (keepsPending_noteAttempts b s now (attempt + 1)) rfl rfl
  next => exact dispatches_put b s s.lastErr s.attemptStartedAt rfl

theorem afterAttempt_dispatches (now : Int) (attempt : Nat) (s : Stream) (b : Bridge) :
    Dispatches b (afterAttempt now attempt s b) s := by
  unfold afterAttempt
  split
  next => exact dispatches_put b s s.lastErr s.attemptStartedAt rfl
  next => exact enterAttempt_dispatches now (attempt + 1) s b

theorem fetchDone_dispatches (now : Int) (outcome : FetchOutcome) (attempt : Nat) (s : Stream)
    (b : Bridge) : Dispatches b (fetchDone now outcome attempt s b) s := by
  unfold fetchDone
  cases outcome with
  | threw message =>
    dsimp only
    split
    next => exact dispatches_put b s s.lastErr s.attemptStartedAt rfl
    next =>
      exact (afterAttempt_dispatches now attempt { s with lastErr := message } _).of_note rfl
        (keepsPending_refl rfl) rfl rfl
  | response status =>
    have hnote : ∀ b', Dispatches ((b.noteAttempts s now (attempt + 1)).emit
        (.attempt s.toDispatchIds (attempt + 1) (now - s.attemptStartedAt) (some status))) b' s →
        Dispatches b b' s := fun b' h =>
      Dispatches.of_note (show Dispatches _ b' { s with lastErr := s.lastErr } from h) rfl
        (keepsPending_noteAttempts b s now (attempt + 1)) rfl rfl
    dsimp only
    split
    next => exact hnote _ (dispatches_put _ s s.lastErr s.attemptStartedAt rfl)
    next =>
      split
      next => exact hnote _ (dispatches_put _ s s.lastErr s.attemptStartedAt rfl)
      next =>
        exact (afterAttempt_dispatches now attempt
          { s with lastErr := "upstream returned retryable " ++ toString status } _).of_note rfl
          (keepsPending_noteAttempts b s now (attempt + 1)) rfl rfl

theorem Dispatches.evolves (h : Dispatches b b' s) (hb : Wired env b)
    (hs : b.streams.get? id = some s) (hdis : s.phase.dispatching = true) :
    ∃ s', Evolves b b' id s s' := by
  obtain ⟨e, t, phase, hphase, hst, hp, hsub, hset⟩ := h
  have hid := hb.keyed id s hs
  have hok := hb.ok id s hs
  rw [hid] at hst hp
  let s' : Stream := { s with lastErr := e, attemptStartedAt := t, phase := phase }
  refine ⟨s', evolves_put hb hs rfl rfl rfl (fun _ _ => (dispatching_open hphase).2.1) ?_ ?_ hst
    hp hsub hset⟩
  · intro hsettled
    rw [(dispatching_open hdis).1] at hsettled
    exact absurd hsettled (by simp)
  · refine ⟨(phased_of_dispatching (s := s') hphase).mpr
      ((phased_of_dispatching hdis).mp hok.phased), ?_⟩
    intro harmed
    exact absurd (hok.armed harmed).1 (dispatching_open hdis).2.2

/-- From the POST that came back to the `await` of the reply. -/
theorem postReturned_evolves (hb : Wired env b) (hs : b.streams.get? id = some s) {attempts : Nat}
    (hphase : s.phase = .postReturned attempts) (now : Int) :
    ∃ s', Evolves b (postReturned now attempts s b) id s s' := by
  have hid := hb.keyed id s hs
  have hok := hb.ok id s hs
  have hdis : s.phase.dispatching = true := by rw [hphase]; rfl
  have hchunks := ((phased_of_dispatching hdis).mp hok.phased).2
  let b₁ := (b.noteAttempts s now attempts).emit
    (.accepted s.toDispatchIds attempts (now - s.dispatchStartedAt))
  have hput : ∀ timer : Bool, (timer = true → s.replyReceived = .pending) →
      Evolves b (b₁.put { s with
        dispatchResult := some attempts, phase := .awaitingReply
        replyTimer := timer, abortListener := timer }) id s
        { s with
          dispatchResult := some attempts, phase := .awaitingReply
          replyTimer := timer, abortListener := timer } := by
    intro timer htimer
    refine evolves_put hb hs rfl rfl rfl (fun _ _ => rfl) ?_ ?_ (by rw [← hid]; rfl)
      (by rw [← hid]; exact keepsPending_noteAttempts b s now attempts) rfl rfl
    · intro hsettled
      rw [hphase] at hsettled
      exact absurd hsettled (by simp [Phase.settled])
    · exact ⟨⟨by simp, hchunks⟩, fun harmed => ⟨rfl, htimer (by simpa using harmed)⟩⟩
  -- while dispatching no timer runs and no listener is attached
  have hoff : s.replyTimer = false ∧ s.abortListener = false := by
    have hno : ¬ (s.replyTimer = true ∨ s.abortListener = true) := fun harmed =>
      (dispatching_open hdis).2.2 (hok.armed harmed).1
    simpa using hno
  have hplain : { s with dispatchResult := some attempts, phase := Phase.awaitingReply }
      = { s with
          dispatchResult := some attempts, phase := Phase.awaitingReply
          replyTimer := false, abortListener := false } := by
    rw [hoff.1, hoff.2]
  have hquiet := hput false (by simp)
  rw [← hplain] at hquiet
  unfold postReturned
  dsimp only
  split
  next hcond =>
    split
    next =>
      -- aborted: the call goes to its `await`, where it finds the rejection
      have hget := (hquiet.after id).trans (if_pos rfl)
      obtain ⟨s₂, hs₂⟩ := evolves_rejectPending (hb.evolve hquiet) hget rfl now
        "chair bridge dispatch: aborted by caller"
      rw [hid]
      exact ⟨s₂, hquiet.trans hs₂ rfl⟩
    next => exact ⟨_, hput true fun _ => hcond.1⟩
  next => exact ⟨_, hquiet⟩

/-! ## The playback -/

theorem getElem?_deltas (words : List String) (i : Nat) :
    (deltas words)[i]? = words[i]?.map (delta i) := by
  rw [deltas, List.getElem?_mapIdx]

/-- The loop from word `i` on leaves a consistent call. -/
theorem playFrom_ok (now : Int) {reply : ResolvedChairReply} {i : Nat}
    (hresult : s.dispatchResult ≠ none) (hreply : s.replyReceived = .resolved reply)
    (hchunks : s.chunks.map Chunk.delta = (deltas (Js.splitSpaces reply.content)).take i)
    (hoff : ¬ (s.replyTimer = true ∨ s.abortListener = true)) :
    StreamOk (s.playFrom now (Js.splitSpaces reply.content) i) := by
  unfold Stream.playFrom
  have hword := getElem?_deltas (Js.splitSpaces reply.content) i
  have hfinish : (s.aborted = false → (deltas (Js.splitSpaces reply.content)).length ≤ i) →
      StreamOk (s.finish now) := by
    intro hall
    refine ⟨⟨hresult, reply, i, hreply, ?_, hall⟩, fun harmed => absurd harmed hoff⟩
    rw [Stream.finish, List.map_append, hchunks]
    rfl
  cases hw : (Js.splitSpaces reply.content)[i]? with
  | none =>
    rw [hw, Option.map_none, List.getElem?_eq_none_iff] at hword
    exact hfinish fun _ => hword
  | some word =>
    rw [hw, Option.map_some] at hword
    dsimp only
    split
    next habort =>
      -- cut off, which the invariant only allows an aborted call
      refine hfinish ?_
      intro hno
      rw [hno] at habort
      exact absurd habort (by simp)
    next =>
      refine ⟨⟨hresult, reply, hreply, rfl, ?_⟩, fun harmed => absurd harmed hoff⟩
      rw [List.take_add_one, hword, List.map_append, hchunks]
      rfl

/-- The fields the playback leaves alone. -/
theorem playFrom_same (s : Stream) (now : Int) (words : List String) (i : Nat) :
    (s.playFrom now words i).toDispatchIds = s.toDispatchIds ∧
    (s.playFrom now words i).replyProofSecret = s.replyProofSecret ∧
    (s.playFrom now words i).replyReceived = s.replyReceived := by
  unfold Stream.playFrom
  split
  next => exact ⟨rfl, rfl, rfl⟩
  next =>
    split
    next => exact ⟨rfl, rfl, rfl⟩
    next => exact ⟨rfl, rfl, rfl⟩

/-- The call whose promise holds a reply plays it back from word `i`. -/
theorem evolves_playFrom (hb : Wired env b) (hs : b.streams.get? id = some s) (now : Int)
    {reply : ResolvedChairReply} {i : Nat} (hreply : s.replyReceived = .resolved reply)
    (hopen : s.phase.settled = false)
    (hok : StreamOk (s.playFrom now (Js.splitSpaces reply.content) i))
    (hstreams : b'.streams
      = b.streams.set id (s.playFrom now (Js.splitSpaces reply.content) i))
    (hpend : b'.pendingReplies = b.pendingReplies) (hsub : b'.submissions = b.submissions)
    (hset : b'.settlements = b.settlements) : ∃ s', Evolves b b' id s s' := by
  obtain ⟨hids, hsecret, hrep⟩ := playFrom_same s now (Js.splitSpaces reply.content) i
  refine ⟨_, evolves_put hb hs hids hsecret hrep ?_ ?_ hok hstreams (keepsPending_refl hpend) hsub
    hset⟩
  · intro hp
    rw [hreply] at hp
    exact absurd hp (by simp)
  · intro hsettled
    rw [hopen] at hsettled
    exact absurd hsettled (by simp)

theorem wake_evolves (hb : Wired env b) (hs : b.streams.get? id = some s)
    (hphase : s.phase = .awaitingReply) (now : Int) (hstep : wake now s b = some b') :
    ∃ s', Evolves b b' id s s' := by
  have hid := hb.keyed id s hs
  have hok := hb.ok id s hs
  have hph := hok.phased
  rw [Phased, hphase] at hph
  have hopen : s.phase.settled = false := by rw [hphase]; rfl
  unfold wake at hstep
  cases hreply : s.replyReceived with
  | pending =>
    rw [hreply] at hstep
    exact absurd hstep (by simp)
  | rejected err =>
    rw [hreply, Option.some.injEq, hid] at hstep
    rw [← hstep]
    have hoff : ¬ (s.replyTimer = true ∨ s.abortListener = true) := by
      intro harmed
      rw [(hok.armed harmed).2] at hreply
      exact absurd hreply (by simp)
    exact ⟨_, evolves_settle hb hs (by rw [hreply]; simp) hopen rfl
      ⟨Or.inr ⟨hph.1, hreply⟩, fun harmed => absurd harmed hoff⟩⟩
  | resolved reply =>
    rw [hreply, Option.some.injEq] at hstep
    have hoff : ¬ (s.replyTimer = true ∨ s.abortListener = true) := by
      intro harmed
      rw [(hok.armed harmed).2] at hreply
      exact absurd hreply (by simp)
    have hplay := playFrom_ok (i := 0) now hph.1 hreply (by rw [hph.2]; rfl) hoff
    have hpid := (playFrom_same s now (Js.splitSpaces reply.content) 0).1
    rw [← hstep]
    refine evolves_playFrom hb hs now hreply hopen hplay ?_ rfl rfl rfl
    rw [Bridge.put, congrArg DispatchIds.requestId hpid, hid]

theorem play_evolves (hb : Wired env b) (hs : b.streams.get? id = some s) (now : Int)
    (hstep : play now s b = some b') : ∃ s', Evolves b b' id s s' := by
  have hid := hb.keyed id s hs
  have hok := hb.ok id s hs
  have hph := hok.phased
  have hoff : s.phase ≠ .awaitingReply → ¬ (s.replyTimer = true ∨ s.abortListener = true) :=
    fun hne harmed => hne (hok.armed harmed).1
  rw [Phased] at hph
  unfold play at hstep
  split at hstep
  next words i hphase =>
    simp only [hphase] at hph
    obtain ⟨hresult, reply, hreply, hwords, hchunks⟩ := hph
    rw [Option.some.injEq] at hstep
    rw [hwords] at hstep hchunks
    have hplay := playFrom_ok now hresult hreply hchunks (hoff (by rw [hphase]; simp))
    have hpid := (playFrom_same s now (Js.splitSpaces reply.content) i).1
    rw [← hstep]
    refine evolves_playFrom hb hs now hreply (by rw [hphase]; rfl) hplay ?_ rfl rfl rfl
    rw [Bridge.put, congrArg DispatchIds.requestId hpid, hid]
  next hphase =>
    simp only [hphase] at hph
    rw [Option.some.injEq, hid] at hstep
    rw [← hstep]
    obtain ⟨hresult, reply, i, hreply, hrest⟩ := hph
    refine ⟨_, evolves_settle hb hs (by rw [hreply]; simp) (by rw [hphase]; rfl) rfl
      ⟨⟨hresult, reply, i, hreply, hrest⟩, ?_⟩⟩
    intro harmed
    exact absurd harmed (hoff (by rw [hphase]; simp))
  next => exact absurd hstep (by simp)

/-! ## Aborts -/

theorem abortSignal_evolves (hb : Wired env b) (hs : b.streams.get? id = some s) (now : Int) :
    ∃ s', Evolves b (abortSignal now s b) id s s' := by
  have hid := hb.keyed id s hs
  have hok := hb.ok id s hs
  have hput : Evolves b (b.put { s with aborted := true }) id s { s with aborted := true } := by
    refine evolves_put hb hs rfl rfl rfl (fun _ hw => hw) (fun _ => rfl) ⟨?_, hok.armed⟩
      (by rw [← hid]; rfl) (keepsPending_refl rfl) rfl rfl
    have hph := hok.phased
    rw [Phased] at hph ⊢
    -- only the two phases after a playback look at `aborted`
    cases hphase : s.phase <;> simp only [hphase] at hph ⊢
    case played | returned =>
      obtain ⟨hresult, reply, i, hreply, hchunks, -⟩ := hph
      exact ⟨hresult, reply, i, hreply, hchunks, fun h => absurd h (by simp)⟩
    all_goals exact hph
  unfold abortSignal
  rw [hid]
  dsimp only
  split
  next hlisten =>
    obtain ⟨hawait, -⟩ := hok.armed (Or.inr hlisten)
    obtain ⟨s₂, hs₂⟩ := evolves_rejectPending (hb.evolve hput) ((hput.after id).trans (if_pos rfl))
      hawait now "chair bridge dispatch: aborted by caller"
    exact ⟨s₂, hput.trans hs₂ rfl⟩
  next => exact ⟨_, hput⟩

end Kovael.Chair
