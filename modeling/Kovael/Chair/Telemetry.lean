import Kovael.Chair.Wiring

/-!
# What a call tells about itself

Every error that a call throws after it announced its dispatch names the call's
own request, and a call that plays a reply back has left its receipt with its
provider (`Told`). One lemma (`Told.evolve`) reduces a step to the one call it
rewrites; a start that fails before its announcement is the only call whose
error names nothing.

Providers are told apart by their number. A provider that makes one call only
is what `ConversationBus` uses, so a start here takes a provider of its own.
-/

namespace Kovael.Chair

open Js (Number OrderedMap Clock)

variable {env : Env} {b b' : Bridge} {id : String} {s s' : Stream}

/-! ## Errors and announcements -/

/-- The request that an error names: `dispatchFailureRequestId(err)`. -/
def StreamError.requestId : StreamError → Option String
  | .replyFailure _ receipt => some receipt.requestId
  | .dispatchFailure _ details => some details.requestId
  | .error _ => none

/-- The call plays its reply back, or has done so. -/
def Phase.plays : Phase → Bool
  | .playing .. | .played | .returned => true
  | _ => false

/-- The request that a telemetry event announces. -/
def ChairDispatchTelemetryEvent.announces : ChairDispatchTelemetryEvent → Option String
  | .started ids => some ids.requestId
  | _ => none

/-- The requests announced so far. -/
def Bridge.announced (b : Bridge) : List String :=
  b.telemetry.filterMap ChairDispatchTelemetryEvent.announces

/-- What happens between the two states announces nothing. -/
def Quiet (b b' : Bridge) : Prop :=
  ∃ es, b'.telemetry = b.telemetry ++ es ∧
    ∀ e ∈ es, ChairDispatchTelemetryEvent.announces e = none

theorem Quiet.refl (h : b'.telemetry = b.telemetry) : Quiet b b' :=
  ⟨[], h.trans (List.append_nil _).symm, fun _ he => absurd he List.not_mem_nil⟩

theorem Quiet.trans {b₁ b₂ : Bridge} (h₁ : Quiet b b₁) (h₂ : Quiet b₁ b₂) : Quiet b b₂ := by
  obtain ⟨es₁, heq₁, hes₁⟩ := h₁
  obtain ⟨es₂, heq₂, hes₂⟩ := h₂
  refine ⟨es₁ ++ es₂, by rw [heq₂, heq₁, List.append_assoc], ?_⟩
  intro e he
  exact (List.mem_append.mp he).elim (hes₁ e) (hes₂ e)

/-- What happens between the two states announces the request first, and no other. -/
def Announces (b b' : Bridge) (id : String) : Prop :=
  ∃ ids es, DispatchIds.requestId ids = id ∧ b'.telemetry = b.telemetry ++ .started ids :: es ∧
    ∀ e ∈ es, ChairDispatchTelemetryEvent.announces e = none

theorem Announces.announced (h : Announces b b' id) : b'.announced = b.announced ++ [id] := by
  obtain ⟨ids, es, hid, heq, hes⟩ := h
  rw [Bridge.announced, heq, List.filterMap_append,
    List.filterMap_cons_some (b := id) (by rw [← hid]; rfl), List.filterMap_eq_nil_iff.mpr hes]
  rfl

/-- An attempt and an acceptance announce nothing. -/
theorem quiet_emit {e : ChairDispatchTelemetryEvent} (he : e.announces = none) (b : Bridge) :
    Quiet b (b.emit e) :=
  ⟨[e], rfl, fun _ he' => List.mem_singleton.mp he' ▸ he⟩

theorem Quiet.announced (h : Quiet b b') : b'.announced = b.announced := by
  obtain ⟨es, heq, hes⟩ := h
  rw [Bridge.announced, heq, List.filterMap_append, List.filterMap_eq_nil_iff.mpr hes]
  exact List.append_nil _

/-- What happens between the two states announces nothing and starts no call. -/
structure Silent (b b' : Bridge) : Prop where
  quiet : Quiet b b'
  calls : ∀ k, (b'.streams.get? k).map Stream.provider = (b.streams.get? k).map Stream.provider
  chunks : ∀ k s, b.streams.get? k = some s →
    ∃ s', b'.streams.get? k = some s' ∧ s.chunks <+: s'.chunks

theorem Silent.refl (b : Bridge) : Silent b b :=
  ⟨.refl rfl, fun _ => rfl, fun _ s hs => ⟨s, hs, List.prefix_refl _⟩⟩

theorem Silent.trans {b₁ b₂ : Bridge} (h₁ : Silent b b₁) (h₂ : Silent b₁ b₂) : Silent b b₂ :=
  ⟨h₁.quiet.trans h₂.quiet, fun k => (h₂.calls k).trans (h₁.calls k), fun k s hs => by
    obtain ⟨s₁, hs₁, hp₁⟩ := h₁.chunks k s hs
    obtain ⟨s₂, hs₂, hp₂⟩ := h₂.chunks k s₁ hs₁
    exact ⟨s₂, hs₂, hp₁.trans hp₂⟩⟩

structure Told (b : Bridge) : Prop where
  posted : ∀ id s, b.streams.get? id = some s → ∀ message details,
    s.phase = .postThrew message details → details.requestId = id
  rejected : ∀ id s, b.streams.get? id = some s → ∀ err, s.replyReceived = .rejected err →
    err.requestId = some id
  thrown : ∀ id s, b.streams.get? id = some s → ∀ err, s.phase = .threw err →
    err.requestId = some id ∨ (err.requestId = none ∧ id ∉ b.announced)
  resolved : ∀ id s reply, b.streams.get? id = some s → s.replyReceived = .resolved reply →
    reply.receipt.requestId = id
  receipts : ∀ id s, b.streams.get? id = some s → s.phase.plays = true →
    ∃ receipt, b.lastReceipts.get? s.provider = some receipt ∧ receipt.requestId = id
  solo : ∀ id id' s s', b.streams.get? id = some s → b.streams.get? id' = some s' →
    s.provider = s'.provider → id = id'
  known : ∀ id ∈ b.announced, ∃ s, b.streams.get? id = some s

/-- A step rewrites one call, and announces nothing. -/
structure Rewrites (b b' : Bridge) (id : String) (s s' : Stream) : Prop where
  before : b.streams.get? id = some s
  after : ∀ k, b'.streams.get? k = if k = id then some s' else b.streams.get? k
  quiet : Quiet b b'
  provider : s'.provider = s.provider
  chunks : s.chunks <+: s'.chunks
  posted : ∀ message details, s'.phase = .postThrew message details →
    details.requestId = id ∨ s.phase = s'.phase
  rejected : ∀ err, s'.replyReceived = .rejected err →
    err.requestId = some id ∨ s.replyReceived = .rejected err
  thrown : ∀ err, s'.phase = .threw err → err.requestId = some id ∨ s.phase = s'.phase
  resolved : ∀ reply, s'.replyReceived = .resolved reply →
    reply.receipt.requestId = id ∨ s.replyReceived = .resolved reply
  receipts : (b'.lastReceipts = b.lastReceipts ∧
      (s'.phase.plays = true → s.phase.plays = true)) ∨
    ∃ reply, s.replyReceived = .resolved reply ∧
      b'.lastReceipts = b.lastReceipts.set s.provider reply.receipt

theorem Rewrites.told (h : Rewrites b b' id s s') (hb : Told b) : Told b' where
  posted k t ht message details hphase := by
    rw [h.after] at ht
    split at ht
    next hk =>
      rw [Option.some.injEq] at ht
      rw [← ht] at hphase
      rw [hk]
      rcases h.posted message details hphase with hown | hold
      · exact hown
      · exact hb.posted id s h.before message details (hold.trans hphase)
    next => exact hb.posted k t ht message details hphase
  rejected k t ht err herr := by
    rw [h.after] at ht
    split at ht
    next hk =>
      rw [Option.some.injEq] at ht
      rw [← ht] at herr
      rw [hk]
      rcases h.rejected err herr with hown | hold
      · exact hown
      · exact hb.rejected id s h.before err hold
    next => exact hb.rejected k t ht err herr
  thrown k t ht err hphase := by
    rw [h.quiet.announced]
    rw [h.after] at ht
    split at ht
    next hk =>
      rw [Option.some.injEq] at ht
      rw [← ht] at hphase
      rw [hk]
      rcases h.thrown err hphase with hown | hold
      · exact Or.inl hown
      · exact hb.thrown id s h.before err (hold.trans hphase)
    next => exact hb.thrown k t ht err hphase
  resolved k t reply ht hreply := by
    rw [h.after] at ht
    split at ht
    next hk =>
      rw [Option.some.injEq] at ht
      rw [← ht] at hreply
      rw [hk]
      rcases h.resolved reply hreply with hown | hold
      · exact hown
      · exact hb.resolved id s reply h.before hold
    next => exact hb.resolved k t reply ht hreply
  receipts k t ht hplays := by
    rw [h.after] at ht
    rcases h.receipts with ⟨hsame, hphase⟩ | ⟨reply, hreply, hset⟩
    · rw [hsame]
      split at ht
      next hk =>
        rw [Option.some.injEq] at ht
        rw [← ht] at hplays ⊢
        rw [hk, h.provider]
        exact hb.receipts id s h.before (hphase hplays)
      next => exact hb.receipts k t ht hplays
    · -- no other call writes this provider's receipt
      rw [hset]
      split at ht
      next hk =>
        rw [Option.some.injEq] at ht
        rw [← ht, h.provider, hk, OrderedMap.get?_set_self]
        exact ⟨reply.receipt, rfl, hb.resolved id s reply h.before hreply⟩
      next hk =>
        have hne : t.provider ≠ s.provider := fun he => hk (hb.solo k id t s ht h.before he)
        rw [OrderedMap.get?_set_ne _ _ hne]
        exact hb.receipts k t ht hplays
  solo k k' t t' ht ht' hprovider := by
    have hold : ∀ k t, b'.streams.get? k = some t →
        ∃ t₀, b.streams.get? k = some t₀ ∧ t₀.provider = t.provider := by
      intro k t ht
      rw [h.after] at ht
      split at ht
      next hk =>
        rw [Option.some.injEq] at ht
        rw [← ht, hk]
        exact ⟨s, h.before, h.provider.symm⟩
      next => exact ⟨t, ht, rfl⟩
    obtain ⟨t₀, ht₀, hp⟩ := hold k t ht
    obtain ⟨t₀', ht₀', hp'⟩ := hold k' t' ht'
    exact hb.solo k k' t₀ t₀' ht₀ ht₀' (by rw [hp, hp', hprovider])
  known k hk := by
    rw [h.quiet.announced] at hk
    rw [h.after]
    split
    next => exact ⟨s', rfl⟩
    next => exact hb.known k hk

theorem Rewrites.silent (h : Rewrites b b' id s s') : Silent b b' where
  quiet := h.quiet
  calls k := by
    rw [h.after]
    split
    next hk => rw [hk, h.before, Option.map_some, Option.map_some, h.provider]
    next => rfl
  chunks k t ht := by
    rw [h.after]
    split
    next hk =>
      rw [hk, h.before, Option.some.injEq] at ht
      exact ⟨s', rfl, ht ▸ h.chunks⟩
    next => exact ⟨t, ht, List.prefix_refl _⟩

theorem init_told : Told .init where
  posted _ _ h := nomatch h
  rejected _ _ h := nomatch h
  thrown _ _ h := nomatch h
  resolved _ _ _ h := nomatch h
  receipts _ _ h := nomatch h
  solo _ _ _ _ h := nomatch h
  known _ h := nomatch h

/-- The rewriting keeps `Told`, silently. -/
theorem Told.evolve (hb : Told b) (id : String) (s : Stream) (h : Rewrites b b' id s s') :
    Told b' ∧ Silent b b' :=
  ⟨h.told hb, h.silent⟩

/-- What `Told` does not look at. -/
theorem Told.congr (hb : Told b) (hstreams : b'.streams = b.streams)
    (hannounced : b'.announced = b.announced) (hreceipts : b'.lastReceipts = b.lastReceipts) :
    Told b' where
  posted := by rw [hstreams]; exact hb.posted
  rejected := by rw [hstreams]; exact hb.rejected
  thrown := by rw [hstreams, hannounced]; exact hb.thrown
  resolved := by rw [hstreams]; exact hb.resolved
  receipts := by rw [hstreams, hreceipts]; exact hb.receipts
  solo := by rw [hstreams]; exact hb.solo
  known := by rw [hstreams, hannounced]; exact hb.known

/-! ## The dispatch -/

/-- The call goes on inside its POST, and an error there names the call. -/
def Posts (b b' : Bridge) (s : Stream) : Prop :=
  ∃ lastErr attemptStartedAt phase, Phase.dispatching phase = true ∧
    (∀ message details, phase = .postThrew message details → details.requestId = s.requestId) ∧
    b'.streams = b.streams.set s.requestId
      { s with lastErr := lastErr, attemptStartedAt := attemptStartedAt, phase := phase } ∧
    Quiet b b' ∧ b'.lastReceipts = b.lastReceipts

theorem posts_fail (b : Bridge) (s : Stream) (now : Int) (attemptsMade : Nat) (message : String) :
    Posts b (b.put (s.failPost now attemptsMade message)) s := by
  refine ⟨s.lastErr, s.attemptStartedAt, _, rfl, ?_, rfl, .refl rfl, rfl⟩
  intro m d heq
  rw [Phase.postThrew.injEq] at heq
  rw [← heq.2]

theorem posts_put (b : Bridge) (s : Stream) (lastErr : String) (attemptStartedAt : Int)
    (phase : Phase) (hphase : phase.dispatching = true)
    (hok : ∀ message details, phase ≠ .postThrew message details) :
    Posts b (b.put
      { s with lastErr := lastErr, attemptStartedAt := attemptStartedAt, phase := phase }) s :=
  ⟨lastErr, attemptStartedAt, phase, hphase, fun m d heq => absurd heq (hok m d), rfl,
    .refl rfl, rfl⟩

theorem Posts.of_note {b₁ : Bridge} {lastErr : String}
    (h : Posts b₁ b' { s with lastErr := lastErr }) (hstreams : b₁.streams = b.streams)
    (hquiet : Quiet b b₁) (hreceipts : b₁.lastReceipts = b.lastReceipts) : Posts b b' s := by
  obtain ⟨e, t, phase, hphase, hown, hst, hq, hr⟩ := h
  exact ⟨e, t, phase, hphase, hown, hst.trans (by rw [hstreams]), hquiet.trans hq,
    hr.trans hreceipts⟩

theorem enterAttempt_posts (now : Int) (attempt : Nat) (s : Stream) (b : Bridge) :
    Posts b (enterAttempt now attempt s b) s := by
  unfold enterAttempt
  split
  next =>
    split
    next => exact posts_fail b s now attempt _
    next =>
      exact (posts_put (b.noteAttempts s now (attempt + 1)) s s.lastErr now (.posting attempt) rfl
        (fun _ _ h => nomatch h)).of_note rfl (.refl rfl) rfl
  next => exact posts_fail b s now attempt _

theorem afterAttempt_posts (now : Int) (attempt : Nat) (s : Stream) (b : Bridge) :
    Posts b (afterAttempt now attempt s b) s := by
  unfold afterAttempt
  split
  next =>
    exact posts_put b s s.lastErr s.attemptStartedAt (.backoff attempt) rfl
      fun _ _ h => nomatch h
  next => exact enterAttempt_posts now (attempt + 1) s b

theorem fetchDone_posts (now : Int) (outcome : FetchOutcome) (attempt : Nat) (s : Stream)
    (b : Bridge) : Posts b (fetchDone now outcome attempt s b) s := by
  unfold fetchDone
  cases outcome with
  | threw message =>
    dsimp only
    split
    next => exact posts_fail b s now (attempt + 1) message
    next =>
      exact (afterAttempt_posts now attempt { s with lastErr := message } _).of_note rfl
        (quiet_emit rfl b) rfl
  | response status =>
    have hnote : ∀ b' lastErr, Posts ((b.noteAttempts s now (attempt + 1)).emit
        (.attempt s.toDispatchIds (attempt + 1) (now - s.attemptStartedAt) (some status))) b'
          { s with lastErr := lastErr } → Posts b b' s :=
      fun b' lastErr h => h.of_note rfl (quiet_emit rfl _) rfl
    dsimp only
    split
    next =>
      exact hnote _ s.lastErr (posts_put _ s s.lastErr s.attemptStartedAt
        (.postReturned (attempt + 1)) rfl fun _ _ h => nomatch h)
    next =>
      split
      next => exact hnote _ s.lastErr (posts_fail _ s now (attempt + 1) _)
      next => exact hnote _ _ (afterAttempt_posts now attempt _ _)

/-- A call that goes on inside its POST keeps its promise. -/
theorem Posts.rewrites (h : Posts b b' s) (hb : Wired env b) (hs : b.streams.get? id = some s) :
    ∃ s', Rewrites b b' id s s' := by
  obtain ⟨e, t, phase, hphase, hown, hst, ha, hr⟩ := h
  rw [hb.keyed id s hs] at hst hown
  refine ⟨{ s with lastErr := e, attemptStartedAt := t, phase := phase }, hs, ?_, ha, rfl, List.prefix_refl _,
    fun m d hpost => Or.inl (hown m d hpost), fun err herr => Or.inr herr, ?_,
    fun reply hreply => Or.inr hreply, Or.inl ⟨hr, ?_⟩⟩
  · intro k
    rw [hst]
    exact OrderedMap.get?_set ..
  · intro err heq
    obtain rfl := heq
    exact nomatch hphase
  · intro hplays
    cases phase with
    | posting _ => exact nomatch hplays
    | backoff _ => exact nomatch hplays
    | postReturned _ => exact nomatch hplays
    | postThrew _ _ => exact nomatch hplays
    | awaitingReply => exact nomatch hplays
    | playing _ _ => exact nomatch hphase
    | played => exact nomatch hphase
    | returned => exact nomatch hphase
    | threw _ => exact nomatch hphase

/-! ## The other steps -/

/-- Rejecting a pending reply names the entry's request, which is the call's. -/
theorem rejectPending_told (hb : Told b) (hs : b.streams.get? id = some s)
    (hpend : ∀ p, b.pendingReplies.get? id = some p →
      p.requestId = id ∧ s.replyReceived = .pending) (now : Int) (message : String) :
    Told (rejectPending now id message b) ∧ Silent b (rejectPending now id message b) := by
  unfold rejectPending
  cases hp : b.pendingReplies.get? id with
  | none => exact ⟨hb, .refl b⟩
  | some p =>
    obtain ⟨hid, hreply⟩ := hpend p hp
    refine hb.evolve id s ⟨hs, fun k => get_settleReply hs hreply _ k,
      .refl rfl, rfl, List.prefix_refl _, fun _ _ _ => Or.inr rfl, ?_, fun _ _ => Or.inr rfl,
      (fun reply hr => nomatch hr), Or.inl ⟨rfl, fun h => h⟩⟩
    intro err herr
    rw [ReplyPromise.rejected.injEq] at herr
    exact Or.inl (by rw [← herr, StreamError.requestId, pendingDispatchDetails, hid])

/-- The entries of waiting calls name their calls. -/
theorem pending_of_wired (hb : Wired env b) (hs : b.streams.get? id = some s) :
    ∀ p, b.pendingReplies.get? id = some p → p.requestId = id ∧ s.replyReceived = .pending := by
  intro p hp
  obtain ⟨s₀, hs₀, hreply, -, hids, -⟩ := hb.pending id p hp
  rw [hs, Option.some.injEq] at hs₀
  subst hs₀
  exact ⟨(congrArg DispatchIds.requestId hids).trans (hb.keyed id s hs), hreply⟩

/-- The POST has come back. -/
theorem postReturned_told (hw : Wired env b) (hb : Told b) (hs : b.streams.get? id = some s)
    (now : Int) (attempts : Nat) :
    Told (postReturned now attempts s b) ∧ Silent b (postReturned now attempts s b) := by
  have hid := hw.keyed id s hs
  let b₁ := (b.noteAttempts s now attempts).emit
    (.accepted s.toDispatchIds attempts (now - s.dispatchStartedAt))
  let posted (timer listener : Bool) : Stream :=
    { s with
      dispatchResult := some attempts, phase := .awaitingReply
      replyTimer := timer, abortListener := listener }
  have hput : ∀ timer listener,
      Told (b₁.put (posted timer listener)) ∧ Silent b (b₁.put (posted timer listener)) := by
    intro timer listener
    let s' := posted timer listener
    have hget : ∀ k, (b₁.put s').streams.get? k = if k = id then some s' else b.streams.get? k := by
      intro k
      rw [get_put, ← hid]
      rfl
    exact hb.evolve id s ⟨hs, hget, quiet_emit rfl _, rfl, List.prefix_refl _,
      (fun _ _ h => nomatch h), fun err h => Or.inr h, (fun _ h => nomatch h), fun reply h => Or.inr h,
      Or.inl ⟨rfl, (fun h => nomatch h)⟩⟩
  unfold postReturned
  dsimp only
  split
  next =>
    split
    next =>
      -- aborted: the reply is rejected with the entry that is there
      have hquiet := hput s.replyTimer s.abortListener
      have hreject : ∀ p', b₁.pendingReplies.get? s.requestId = some p' →
          p'.requestId = s.requestId ∧ s.replyReceived = .pending := by
        intro p' hpend
        obtain ⟨p, hp, hids, -⟩ := (keepsPending_noteAttempts b s now attempts).2 p' hpend
        rw [hid] at hp ⊢
        obtain ⟨hown, hreply⟩ := pending_of_wired hw hs p hp
        exact ⟨(congrArg DispatchIds.requestId hids).trans hown, hreply⟩
      have hrejected := rejectPending_told hquiet.1
        ((get_put ..).trans (if_pos rfl)) hreject now "chair bridge dispatch: aborted by caller"
      exact ⟨hrejected.1, hquiet.2.trans hrejected.2⟩
    next => exact hput true true
  next => exact hput s.replyTimer s.abortListener

/-- The POST has thrown. -/
theorem postThrew_told (hw : Wired env b) (hb : Told b) (hs : b.streams.get? id = some s)
    {message : String} {details : DispatchDetails} (hphase : s.phase = .postThrew message details) :
    Told (postThrew message details s b) ∧ Silent b (postThrew message details s b) := by
  have hid := hw.keyed id s hs
  have hown := hb.posted id s hs message details hphase
  have hclean : (b.cleanupPending id).streams.get? id
      = some { s with replyTimer := false, abortListener := false } :=
    (get_cleanupPending hs id).trans (if_pos rfl)
  unfold postThrew
  rw [hid]
  let s' : Stream :=
    { s with
      replyTimer := false, abortListener := false
      phase := .threw (.dispatchFailure (dispatchFailedText s.agentId message) details) }
  have hget : ∀ k, ((b.cleanupPending id).settle id s'.phase).streams.get? k
      = if k = id then some s' else b.streams.get? k := by
    intro k
    rw [get_settle hclean, get_cleanupPending hs]
    split
    next => rfl
    next => rfl
  refine hb.evolve id s ⟨hs, hget, .refl rfl, rfl, List.prefix_refl _,
    (fun _ _ h => nomatch h), fun err h => Or.inr h, ?_, fun reply h => Or.inr h, Or.inl ⟨rfl, (fun h => nomatch h)⟩⟩
  intro err herr
  rw [Phase.threw.injEq] at herr
  exact Or.inl (by rw [← herr, StreamError.requestId, hown])

/-- The playback goes on: its call plays, and held its receipt before. -/
theorem playFrom_told (hw : Wired env b) (hb : Told b) (hs : b.streams.get? id = some s)
    (now : Int) (words : List String) (i : Nat) {receipts : OrderedMap Nat ChairDispatchReceipt}
    (hreceipts : (receipts = b.lastReceipts ∧ s.phase.plays = true) ∨
      ∃ reply, s.replyReceived = .resolved reply ∧
        receipts = b.lastReceipts.set s.provider reply.receipt) :
    Told ({ b with lastReceipts := receipts }.put (s.playFrom now words i)) ∧
      Silent b ({ b with lastReceipts := receipts }.put (s.playFrom now words i)) := by
  obtain ⟨hids, -, hreply⟩ := playFrom_same s now words i
  have hid := (congrArg DispatchIds.requestId hids).trans (hw.keyed id s hs)
  have hplays : (s.playFrom now words i).phase.plays = true ∧
      (s.playFrom now words i).provider = s.provider ∧
        s.chunks <+: (s.playFrom now words i).chunks := by
    unfold Stream.playFrom
    split
    next => exact ⟨rfl, rfl, List.prefix_append ..⟩
    next =>
      split
      next => exact ⟨rfl, rfl, List.prefix_append ..⟩
      next => exact ⟨rfl, rfl, List.prefix_append ..⟩
  refine hb.evolve id s ⟨hs, ?_, .refl rfl, hplays.2.1, hplays.2.2, ?_, ?_, ?_, ?_, ?_⟩
  · intro k
    rw [get_put, hid]
  · intro m d hpost
    rw [hpost] at hplays
    exact nomatch hplays.1
  · intro err herr
    exact Or.inr (hreply ▸ herr)
  · intro err hthrew
    rw [hthrew] at hplays
    exact nomatch hplays.1
  · intro reply hr
    exact Or.inr (hreply ▸ hr)
  · rcases hreceipts with ⟨hsame, hold⟩ | hset
    · exact Or.inl ⟨hsame, fun _ => hold⟩
    · exact Or.inr hset

/-- The promise is there. -/
theorem wake_told (hw : Wired env b) (hb : Told b) (hs : b.streams.get? id = some s) (now : Int)
    (hstep : wake now s b = some b') : Told b' ∧ Silent b b' := by
  have hid := hw.keyed id s hs
  unfold wake at hstep
  cases hreply : s.replyReceived with
  | pending =>
    rw [hreply] at hstep
    exact nomatch hstep
  | rejected err =>
    rw [hreply, Option.some.injEq, hid] at hstep
    rw [← hstep]
    refine hb.evolve id s ⟨hs, fun k => get_settle hs _ k, .refl rfl, rfl,
      List.prefix_refl _, (fun _ _ h => nomatch h), fun err h => Or.inr h, ?_, fun reply h => Or.inr h,
      Or.inl ⟨rfl, (fun h => nomatch h)⟩⟩
    intro err' herr
    rw [Phase.threw.injEq] at herr
    exact Or.inl (herr ▸ hb.rejected id s hs err hreply)
  | resolved reply =>
    rw [hreply, Option.some.injEq] at hstep
    rw [← hstep]
    exact playFrom_told hw hb hs now _ 0 (Or.inr ⟨reply, hreply, rfl⟩)

theorem play_told (hw : Wired env b) (hb : Told b) (hs : b.streams.get? id = some s) (now : Int)
    (hstep : play now s b = some b') : Told b' ∧ Silent b b' := by
  have hid := hw.keyed id s hs
  unfold play at hstep
  split at hstep
  next words i hphase =>
    rw [Option.some.injEq] at hstep
    rw [← hstep]
    exact playFrom_told hw hb hs now words i (Or.inl ⟨rfl, by rw [hphase]; rfl⟩)
  next hphase =>
    rw [Option.some.injEq, hid] at hstep
    rw [← hstep]
    exact hb.evolve id s ⟨hs, fun k => get_settle hs _ k, .refl rfl, rfl,
      List.prefix_refl _, (fun _ _ h => nomatch h), fun err h => Or.inr h, (fun _ h => nomatch h),
      fun reply h => Or.inr h, Or.inl ⟨rfl, fun _ => by rw [hphase]; rfl⟩⟩
  next => exact nomatch hstep

theorem abortSignal_told (hw : Wired env b) (hb : Told b) (hs : b.streams.get? id = some s)
    (now : Int) : Told (abortSignal now s b) ∧ Silent b (abortSignal now s b) := by
  have hid := hw.keyed id s hs
  have hget : ∀ k, (b.put { s with aborted := true }).streams.get? k
      = if k = id then some { s with aborted := true } else b.streams.get? k := by
    intro k
    rw [get_put, hid]
  have hput : Told (b.put { s with aborted := true }) ∧
      Silent b (b.put { s with aborted := true }) :=
    hb.evolve id s ⟨hs, hget, .refl rfl, rfl, List.prefix_refl _,
      fun _ _ _ => Or.inr rfl, fun err h => Or.inr h, fun _ _ => Or.inr rfl, fun reply h => Or.inr h,
      Or.inl ⟨rfl, fun h => h⟩⟩
  unfold abortSignal
  dsimp only
  split
  next =>
    rw [hid]
    have hrejected := rejectPending_told hput.1 ((hget id).trans (if_pos rfl))
      (fun p hp => pending_of_wired hw hs p hp) now "chair bridge dispatch: aborted by caller"
    exact ⟨hrejected.1, hput.2.trans hrejected.2⟩
  next => exact hput

/-- A submission settles the promise with a receipt of its own request. -/
theorem submit_told (hw : Wired env b) (hb : Told b) (clock : Clock)
    (input : ChairReplySubmission) :
    Told (submitReplyForRequest env clock input b).1 ∧
      Silent b (submitReplyForRequest env clock input b).1 := by
  rcases submit_cases env clock input b with ⟨status, code, heq⟩ | ⟨pending, hp, -, heq⟩
  · rw [heq]
    exact ⟨hb, .refl b⟩
  · rw [heq]
    obtain ⟨s, hs, hreply, -⟩ := hw.pending _ _ hp
    refine hb.evolve input.requestId s ⟨hs,
      fun k => get_settleReply (b := { b with
        pendingReplies := b.pendingReplies.delete input.requestId }) hs hreply _ k, .refl rfl,
      rfl, List.prefix_refl _, fun _ _ _ => Or.inr rfl, ?_, fun _ _ => Or.inr rfl, ?_,
      Or.inl ⟨rfl, fun h => h⟩⟩
    · intro err herr
      have hsettled : replyOf input (receiptOf env clock input pending) = .rejected err := herr
      unfold replyOf at hsettled
      split at hsettled
      next =>
        rw [ReplyPromise.rejected.injEq] at hsettled
        exact Or.inl (by rw [← hsettled]; rfl)
      next => exact nomatch hsettled
    · intro reply hr
      have hsettled : replyOf input (receiptOf env clock input pending) = .resolved reply := hr
      unfold replyOf at hsettled
      split at hsettled
      next => exact nomatch hsettled
      next =>
        rw [ReplyPromise.resolved.injEq] at hsettled
        exact Or.inl (by rw [← hsettled]; rfl)

/-! ## Every step -/

/-- A new call, under a fresh id and of a provider that made none before. -/
theorem Told.file (hb : Told b) (hnew : b.streams.get? id = none)
    (hafter : ∀ k, b'.streams.get? k = if k = id then some s else b.streams.get? k)
    (hprovider : ∀ k t, b.streams.get? k = some t → t.provider ≠ s.provider)
    (hreply : s.replyReceived = .pending) (hplays : s.phase.plays = false)
    (hposted : ∀ message details, s.phase = .postThrew message details → details.requestId = id)
    (hthrown : ∀ err, s.phase = .threw err →
      err.requestId = none ∧ b'.announced = b.announced)
    (hannounced : ∀ k ∈ b'.announced, k = id ∨ k ∈ b.announced)
    (hreceipts : b'.lastReceipts = b.lastReceipts) : Told b' := by
  have hunknown : id ∉ b.announced := by
    intro hin
    obtain ⟨t, ht⟩ := hb.known id hin
    rw [hnew] at ht
    exact nomatch ht
  refine ⟨?_, ?_, ?_, ?_, ?_, ?_, ?_⟩
  · intro k t ht message details hphase
    rw [hafter] at ht
    split at ht
    next hk =>
      rw [Option.some.injEq] at ht
      rw [hk]
      exact hposted message details (ht ▸ hphase)
    next => exact hb.posted k t ht message details hphase
  · intro k t ht err herr
    rw [hafter] at ht
    split at ht
    next =>
      rw [Option.some.injEq] at ht
      rw [← ht, hreply] at herr
      exact nomatch herr
    next => exact hb.rejected k t ht err herr
  · intro k t ht err hphase
    rw [hafter] at ht
    split at ht
    next hk =>
      -- the error names nothing, and nothing was announced
      rw [Option.some.injEq] at ht
      obtain ⟨hnone, hsame⟩ := hthrown err (ht ▸ hphase)
      rw [hsame, hk]
      exact Or.inr ⟨hnone, hunknown⟩
    next hk =>
      rcases hb.thrown k t ht err hphase with hown | ⟨hnone, hnot⟩
      · exact Or.inl hown
      · exact Or.inr ⟨hnone, fun hin => (hannounced k hin).elim hk hnot⟩
  · intro k t reply ht hr
    rw [hafter] at ht
    split at ht
    next =>
      rw [Option.some.injEq] at ht
      rw [← ht, hreply] at hr
      exact nomatch hr
    next => exact hb.resolved k t reply ht hr
  · intro k t ht hphase
    rw [hafter] at ht
    rw [hreceipts]
    split at ht
    next =>
      rw [Option.some.injEq] at ht
      rw [← ht, hplays] at hphase
      exact nomatch hphase
    next => exact hb.receipts k t ht hphase
  · intro k k' t t' ht ht' hsame
    rw [hafter] at ht ht'
    split at ht
    next hk =>
      split at ht'
      next hk' => exact hk.trans hk'.symm
      next =>
        rw [Option.some.injEq] at ht
        rw [← ht] at hsame
        exact absurd hsame.symm (hprovider k' t' ht')
    next =>
      split at ht'
      next =>
        rw [Option.some.injEq] at ht'
        rw [← ht'] at hsame
        exact absurd hsame (hprovider k t ht)
      next => exact hb.solo k k' t t' ht ht' hsame
  · intro k hk
    rw [hafter]
    split
    next => exact ⟨s, rfl⟩
    next hne => exact hb.known k ((hannounced k hk).resolve_left hne)

/-- A call of the given provider is filed under the id, which is new, and no other
call is touched. -/
structure Files (b b' : Bridge) (id : String) (provider : Nat) : Prop where
  new : b.streams.get? id = none
  filed : (b'.streams.get? id).map Stream.provider = some provider
  others : ∀ k, k ≠ id → b'.streams.get? k = b.streams.get? k

theorem files_of_get (hnew : b.streams.get? id = none)
    (hafter : ∀ k, b'.streams.get? k = if k = id then some s else b.streams.get? k) :
    Files b b' id s.provider := by
  refine ⟨hnew, ?_, ?_⟩
  · rw [hafter, if_pos rfl]
    rfl
  · intro k hk
    rw [hafter, if_neg hk]

/-- A start is refused before it draws an id; or it files a call, which it announces
unless the body cannot be built. -/
theorem start_told (hb : Told b) {i : StartInput}
    (hfresh : ∀ id s, b.streams.get? id = some s → s.provider ≠ i.provider)
    (hstep : start i b = some b') :
    Told b' ∧ ((Silent b b' ∧ b'.streams = b.streams) ∨
      Files b b' i.requestId i.provider ∧ (Quiet b b' ∨ Announces b b' i.requestId)) := by
  rcases start_cases hstep with ⟨message, rfl⟩ | ⟨claim, hnew, rfl⟩
  · exact ⟨hb.congr rfl rfl rfl, Or.inl
      ⟨⟨.refl rfl, fun _ => rfl, fun _ t ht => ⟨t, ht, List.prefix_refl _⟩⟩, rfl⟩⟩
  · let s := i.stream claim
    have hfile : ∀ k, (b.file s (i.pending claim)).streams.get? k
        = if k = i.requestId then some s else b.streams.get? k := fun k => get_put ..
    have hself := (hfile i.requestId).trans (if_pos rfl)
    unfold dispatch
    cases i.bodyError with
    | some message =>
      let s' : Stream :=
        { s with
          replyTimer := false, abortListener := false
          phase := .threw (.error (dispatchFailedText s.agentId message)) }
      have hclean := (get_cleanupPending hself i.requestId).trans (if_pos rfl)
      have hafter : ∀ k, (((b.file s (i.pending claim)).cleanupPending s.requestId).settle
          s.requestId s'.phase).streams.get? k
          = if k = i.requestId then some s' else b.streams.get? k := by
        intro k
        refine (get_settle hclean _ k).trans ?_
        rw [get_cleanupPending hself, hfile]
        split
        next => rfl
        next => rfl
      refine ⟨hb.file hnew hafter hfresh rfl rfl (fun _ _ h => nomatch h) ?_
        (fun k hk => Or.inr hk) rfl, Or.inr ⟨files_of_get hnew hafter, Or.inl (.refl rfl)⟩⟩
      intro err herr
      rw [Phase.threw.injEq] at herr
      exact ⟨herr ▸ rfl, rfl⟩
    | none =>
      let b₁ : Bridge :=
        { b.file s (i.pending claim) with
          pendingReplies := (b.file s (i.pending claim)).pendingReplies.modify s.requestId fun p =>
            { p with dispatchStartedAt := some i.now } }
      obtain ⟨e, t, phase, hphase, hown, hst, ha, hr⟩ :=
        enterAttempt_posts i.now 0 s (b₁.emit (.started s.toDispatchIds))
      have hstarts : Announces b (enterAttempt i.now 0 s (b₁.emit (.started s.toDispatchIds)))
          i.requestId := by
        obtain ⟨es, heq, hes⟩ := ha
        exact ⟨s.toDispatchIds, es, rfl, heq.trans (List.append_assoc ..), hes⟩
      have hafter : ∀ k,
          (enterAttempt i.now 0 s (b₁.emit (.started s.toDispatchIds))).streams.get? k
          = if k = i.requestId then
              some { s with lastErr := e, attemptStartedAt := t, phase := phase }
            else b.streams.get? k := by
        intro k
        rw [hst]
        refine (OrderedMap.get?_set ..).trans ?_
        split
        next hk => rw [if_pos (show k = i.requestId from hk)]
        next hk =>
          rw [if_neg (show k ≠ i.requestId from hk)]
          exact (hfile k).trans (if_neg hk)
      refine ⟨hb.file hnew hafter hfresh rfl ?_ hown ?_ ?_ hr,
        Or.inr ⟨files_of_get hnew hafter, Or.inr hstarts⟩⟩
      · cases phase with
        | posting _ => rfl
        | backoff _ => rfl
        | postReturned _ => rfl
        | postThrew _ _ => rfl
        | awaitingReply => rfl
        | playing _ _ => exact nomatch hphase
        | played => exact nomatch hphase
        | returned => exact nomatch hphase
        | threw _ => rfl
      · intro err heq
        obtain rfl := heq
        exact nomatch hphase
      · intro k hk
        rw [hstarts.announced, List.mem_append, List.mem_singleton] at hk
        exact hk.symm

/-- Another call than a start. -/
def Event.startsCall : Event → Bool
  | .start _ => true
  | _ => false

/-- Every step but a start is silent. -/
theorem step_told (hw : Wired env b) (hb : Told b) {e : Event} (hother : e.startsCall = false)
    (hstep : step env b e = some b') : Told b' ∧ Silent b b' := by
  cases e with
  | start i => cases hother
  | submit clock input =>
    rw [step, Option.some.injEq] at hstep
    rw [← hstep]
    obtain ⟨htold, hsilent⟩ := submit_told hw hb clock input
    exact ⟨htold.congr rfl rfl rfl, hsilent.quiet, hsilent.calls, hsilent.chunks⟩
  | fetchDone now id outcome =>
    obtain ⟨s, hs, hstep⟩ := Option.bind_eq_some_iff.mp hstep
    split at hstep
    next attempt hphase =>
      rw [Option.some.injEq] at hstep
      obtain ⟨s', hs'⟩ := (fetchDone_posts now outcome attempt s b).rewrites hw hs
      exact hstep ▸ hb.evolve id s hs'
    next => cases hstep
  | backoffDone now id =>
    obtain ⟨s, hs, hstep⟩ := Option.bind_eq_some_iff.mp hstep
    split at hstep
    next attempt hphase =>
      rw [Option.some.injEq] at hstep
      obtain ⟨s', hs'⟩ := (enterAttempt_posts now (attempt + 1) s b).rewrites hw hs
      exact hstep ▸ hb.evolve id s hs'
    next => cases hstep
  | postSettles now id =>
    obtain ⟨s, hs, hstep⟩ := Option.bind_eq_some_iff.mp hstep
    split at hstep
    next attempts hphase =>
      rw [Option.some.injEq] at hstep
      exact hstep ▸ postReturned_told hw hb hs now attempts
    next message details hphase =>
      rw [Option.some.injEq] at hstep
      exact hstep ▸ postThrew_told hw hb hs hphase
    next => cases hstep
  | replyTimeout now id =>
    obtain ⟨s, hs, hstep⟩ := Option.bind_eq_some_iff.mp hstep
    split at hstep
    next =>
      rw [Option.some.injEq] at hstep
      exact hstep ▸ rejectPending_told hb hs (pending_of_wired hw hs) now _
    next => cases hstep
  | abort now id =>
    obtain ⟨s, hs, hstep⟩ := Option.bind_eq_some_iff.mp hstep
    split at hstep
    next => cases hstep
    next =>
      rw [Option.some.injEq] at hstep
      exact hstep ▸ abortSignal_told hw hb hs now
  | wake now id =>
    obtain ⟨s, hs, hstep⟩ := Option.bind_eq_some_iff.mp hstep
    split at hstep
    next => exact wake_told hw hb hs now hstep
    next => cases hstep
  | play now id =>
    obtain ⟨s, hs, hstep⟩ := Option.bind_eq_some_iff.mp hstep
    exact play_told hw hb hs now hstep

end Kovael.Chair
