import Kovael.Chair.Stream

/-!
# Replies reach the call they answer

`Wired` is the invariant of all calls and the map they share: a pending entry
belongs to a call that still waits, with the call's own ids and secret; an
accepted submission matches the call whose promise it settled; and a promise
that holds a reply got it from an accepted submission.

`Evolves` says what a step can do to one call: every step but a start and a
submission evolves exactly one (`step_cases`), and an evolution preserves
`Wired` (`Wired.evolve`).
-/

namespace Kovael.Chair

open Js (Number OrderedMap Clock)

/-! ## One call -/

/-- The call is inside its dispatch: its POST has not come back to it. -/
def Phase.dispatching : Phase → Bool
  | .posting _ | .backoff _ | .postReturned _ | .postThrew .. => true
  | _ => false

/-- The promise was settled by a submission. -/
def ReplyPromise.isReply : ReplyPromise → Bool
  | .resolved _ | .rejected (.replyFailure ..) => true
  | _ => false

/-- The deltas of a playback. -/
def deltas (words : List String) : List String := words.mapIdx delta

/-- What the variables of a call say about each other in each phase. -/
def Phased (s : Stream) : Prop :=
  match s.phase with
  | .posting _ | .backoff _ | .postReturned _ | .postThrew .. =>
    s.dispatchResult = none ∧ s.chunks = []
  | .awaitingReply => s.dispatchResult ≠ none ∧ s.chunks = []
  | .playing words i =>
    s.dispatchResult ≠ none ∧ ∃ reply, s.replyReceived = .resolved reply ∧
      words = Js.splitSpaces reply.content ∧
      s.chunks.map Chunk.delta = (deltas words).take i
  | .played | .returned =>
    s.dispatchResult ≠ none ∧ ∃ reply i, s.replyReceived = .resolved reply ∧
      s.chunks.map Chunk.delta = (deltas (Js.splitSpaces reply.content)).take i ++ [""] ∧
      (s.aborted = false → (deltas (Js.splitSpaces reply.content)).length ≤ i)
  | .threw err =>
    (s.dispatchResult = none ∧ ∀ message receipt, err ≠ .replyFailure message receipt) ∨
      (s.dispatchResult ≠ none ∧ s.replyReceived = .rejected err)

/-- A call is consistent, and only listens while it awaits the reply. -/
structure StreamOk (s : Stream) : Prop where
  phased : Phased s
  armed : s.replyTimer = true ∨ s.abortListener = true →
    s.phase = .awaitingReply ∧ s.replyReceived = .pending

/-- The call's promise holds what the submission said. -/
structure Answered (env : Env) (s : Stream) (input : ChairReplySubmission)
    (receipt : ChairDispatchReceipt) : Prop where
  agent : input.agentId = s.agentId
  topic : ∀ t ∈ input.topicId, t = s.topicId
  session : input.claimSessionId = s.claimSessionId
  proof : verifyChairReplyProof env.hmac ⟨s.requestId, s.claimSessionId, s.replyProofSecret⟩
    input.replyProof = true
  ids : receipt.toDispatchIds = s.toDispatchIds
  status : receipt.status = input.effectiveStatus
  reply : s.replyReceived = replyOf input receipt

theorem replyOf_isReply (input : ChairReplySubmission) (receipt : ChairDispatchReceipt) :
    (replyOf input receipt).isReply = true := by
  unfold replyOf
  split <;> rfl

theorem Answered.isReply {env : Env} {s : Stream} {input : ChairReplySubmission}
    {receipt : ChairDispatchReceipt} (h : Answered env s input receipt) :
    s.replyReceived.isReply = true := by
  rw [h.reply]
  exact replyOf_isReply input receipt

/-- Only the ids, the secret and the promise matter. -/
theorem Answered.congr {env : Env} {s s' : Stream} {input : ChairReplySubmission}
    {receipt : ChairDispatchReceipt} (h : Answered env s input receipt)
    (hids : s'.toDispatchIds = s.toDispatchIds)
    (hsecret : s'.replyProofSecret = s.replyProofSecret)
    (hreply : s'.replyReceived = s.replyReceived) : Answered env s' input receipt where
  agent := by rw [hids]; exact h.agent
  topic := by rw [hids]; exact h.topic
  session := by rw [hids]; exact h.session
  proof := by rw [hids, hsecret]; exact h.proof
  ids := h.ids.trans hids.symm
  status := h.status
  reply := hreply.trans h.reply

/-! ## The invariant -/

structure Wired (env : Env) (b : Bridge) : Prop where
  keyed : ∀ id s, b.streams.get? id = some s → s.requestId = id
  ok : ∀ id s, b.streams.get? id = some s → StreamOk s
  pending : ∀ id p, b.pendingReplies.get? id = some p →
    ∃ s, b.streams.get? id = some s ∧ s.replyReceived = .pending ∧ s.phase.waiting = true ∧
      p.toDispatchIds = s.toDispatchIds ∧ p.replyProofSecret = s.replyProofSecret
  accepted : ∀ input receipt, (input, .ok receipt) ∈ b.submissions →
    ∃ s, b.streams.get? input.requestId = some s ∧ Answered env s input receipt
  answered : ∀ id s, b.streams.get? id = some s → s.replyReceived.isReply = true →
    ∃ input receipt, (input, .ok receipt) ∈ b.submissions ∧ input.requestId = id ∧
      Answered env s input receipt
  settled : ∀ id phase, (id, phase) ∈ b.settlements →
    phase.settled = true ∧ ∃ s, b.streams.get? id = some s ∧ s.phase = phase
  once : (b.settlements.map Prod.fst).Nodup

/-- What a step does to one call, and to nothing else. -/
structure Evolves (b b' : Bridge) (id : String) (s s' : Stream) : Prop where
  before : b.streams.get? id = some s
  after : ∀ k, b'.streams.get? k = if k = id then some s' else b.streams.get? k
  ids : s'.toDispatchIds = s.toDispatchIds
  secret : s'.replyProofSecret = s.replyProofSecret
  pendingOther : ∀ k, k ≠ id → b'.pendingReplies.get? k = b.pendingReplies.get? k
  pendingSelf : ∀ p', b'.pendingReplies.get? id = some p' →
    s'.replyReceived = .pending ∧ s'.phase.waiting = true ∧
      ∃ p, b.pendingReplies.get? id = some p ∧ p'.toDispatchIds = p.toDispatchIds ∧
        p'.replyProofSecret = p.replyProofSecret
  reply : s'.replyReceived = s.replyReceived ∨
    (s.replyReceived = .pending ∧ s'.phase = .awaitingReply ∧
      ∃ message details, s'.replyReceived = .rejected (.dispatchFailure message details))
  submissions : b'.submissions = b.submissions
  settlements : (b'.settlements = b.settlements ∧ (s.phase.settled = true → s'.phase = s.phase)) ∨
    (b'.settlements = b.settlements ++ [(id, s'.phase)] ∧ s.phase.settled = false ∧
      s'.phase.settled = true)
  ok : StreamOk s'

variable {env : Env} {b b₁ b₂ : Bridge} {id : String} {s s₁ s₂ : Stream}

/-- One evolution after another, of which the first settles no promise. -/
theorem Evolves.trans (h₁ : Evolves b b₁ id s s₁) (h₂ : Evolves b₁ b₂ id s₁ s₂)
    (hsame : s₁.replyReceived = s.replyReceived) : Evolves b b₂ id s s₂ where
  before := h₁.before
  after k := by
    rw [h₂.after, h₁.after]
    split
    next => rfl
    next => rfl
  ids := h₂.ids.trans h₁.ids
  secret := h₂.secret.trans h₁.secret
  pendingOther k hk := (h₂.pendingOther k hk).trans (h₁.pendingOther k hk)
  pendingSelf p'' hp'' := by
    obtain ⟨hrep, hwait, p', hp', hids', hsec'⟩ := h₂.pendingSelf p'' hp''
    obtain ⟨-, -, p, hp, hids, hsec⟩ := h₁.pendingSelf p' hp'
    exact ⟨hrep, hwait, p, hp, hids'.trans hids, hsec'.trans hsec⟩
  reply := by
    rcases h₂.reply with heq | ⟨hpend, hrest⟩
    · exact Or.inl (heq.trans hsame)
    · exact Or.inr ⟨hsame ▸ hpend, hrest⟩
  submissions := h₂.submissions.trans h₁.submissions
  settlements := by
    rcases h₁.settlements with ⟨hset₁, hkeep₁⟩ | ⟨hset₁, hopen₁, hdone₁⟩
    · -- the call settles in the second evolution, or in neither
      rcases h₂.settlements with ⟨hset₂, hkeep₂⟩ | ⟨hset₂, hopen₂, hdone₂⟩
      · refine Or.inl ⟨hset₂.trans hset₁, ?_⟩
        intro hs
        have hph := hkeep₁ hs
        exact (hkeep₂ (by rw [hph]; exact hs)).trans hph
      · refine Or.inr ⟨by rw [hset₂, hset₁], ?_, hdone₂⟩
        by_contra hs
        have hs' : s.phase.settled = true := by simpa using hs
        rw [hkeep₁ hs', hs'] at hopen₂
        exact absurd hopen₂ (by simp)
    · -- it settles in the first, so it cannot in the second
      rcases h₂.settlements with ⟨hset₂, hkeep₂⟩ | ⟨-, hopen₂, -⟩
      · have hph := hkeep₂ hdone₁
        refine Or.inr ⟨by rw [hset₂, hset₁, hph], hopen₁, ?_⟩
        rw [hph]
        exact hdone₁
      · rw [hdone₁] at hopen₂
        exact absurd hopen₂ (by simp)
  ok := h₂.ok

/-- A reply that is there stays. -/
theorem Evolves.keeps_reply (h : Evolves b b₁ id s s₁) (hs : s.replyReceived ≠ .pending) :
    s₁.replyReceived = s.replyReceived := by
  rcases h.reply with heq | ⟨hpend, -⟩
  · exact heq
  · exact absurd hpend hs

theorem isReply_ne_pending {p : ReplyPromise} (h : p.isReply = true) : p ≠ .pending := by
  intro hp
  rw [hp] at h
  exact absurd h (by simp [ReplyPromise.isReply])

/-- An evolution preserves the invariant. -/
theorem Wired.evolve (hb : Wired env b) (h : Evolves b b₁ id s s₁) : Wired env b₁ where
  keyed k t ht := by
    rw [h.after] at ht
    by_cases hk : k = id
    · rw [if_pos hk, Option.some.injEq] at ht
      rw [← ht, hk, h.ids]
      exact hb.keyed id s h.before
    · rw [if_neg hk] at ht
      exact hb.keyed k t ht
  ok k t ht := by
    rw [h.after] at ht
    by_cases hk : k = id
    · rw [if_pos hk, Option.some.injEq] at ht
      rw [← ht]
      exact h.ok
    · rw [if_neg hk] at ht
      exact hb.ok k t ht
  pending k p hp := by
    by_cases hk : k = id
    · rw [hk] at hp
      obtain ⟨hrep, hwait, p₀, hp₀, hids, hsec⟩ := h.pendingSelf p hp
      obtain ⟨s₀, hs₀, -, -, hids₀, hsec₀⟩ := hb.pending id p₀ hp₀
      rw [h.before, Option.some.injEq] at hs₀
      refine ⟨s₁, by rw [h.after, if_pos hk], hrep, hwait, ?_, ?_⟩
      · rw [hids, hids₀, ← hs₀, h.ids]
      · rw [hsec, hsec₀, ← hs₀, h.secret]
    · rw [h.pendingOther k hk] at hp
      obtain ⟨t, ht, hrest⟩ := hb.pending k p hp
      exact ⟨t, by rw [h.after, if_neg hk]; exact ht, hrest⟩
  accepted input receipt hin := by
    rw [h.submissions] at hin
    obtain ⟨t, ht, hans⟩ := hb.accepted input receipt hin
    by_cases hk : input.requestId = id
    · rw [hk, h.before, Option.some.injEq] at ht
      rw [← ht] at hans
      exact ⟨s₁, by rw [h.after, if_pos hk],
        hans.congr h.ids h.secret (h.keeps_reply (isReply_ne_pending hans.isReply))⟩
    · exact ⟨t, by rw [h.after, if_neg hk]; exact ht, hans⟩
  answered k t ht hreply := by
    rw [h.after] at ht
    rw [h.submissions]
    by_cases hk : k = id
    · rw [if_pos hk, Option.some.injEq] at ht
      rw [← ht] at hreply ⊢
      -- a promise that an evolution rejects holds no submission
      have hsame : s₁.replyReceived = s.replyReceived := by
        rcases h.reply with heq | ⟨-, -, message, details, hrej⟩
        · exact heq
        · rw [hrej] at hreply
          exact absurd hreply (by simp [ReplyPromise.isReply])
      rw [hsame] at hreply
      obtain ⟨input, receipt, hin, hid, hans⟩ := hb.answered id s h.before hreply
      exact ⟨input, receipt, hin, hid.trans hk.symm, hans.congr h.ids h.secret hsame⟩
    · rw [if_neg hk] at ht
      exact hb.answered k t ht hreply
  settled k phase hin := by
    have hold : (k, phase) ∈ b.settlements → (s.phase.settled = true → s₁.phase = s.phase) →
        phase.settled = true ∧ ∃ t, b₁.streams.get? k = some t ∧ t.phase = phase := by
      intro hin hkeep
      obtain ⟨hphase, t, ht, hph⟩ := hb.settled k phase hin
      refine ⟨hphase, ?_⟩
      by_cases hk : k = id
      · rw [hk, h.before, Option.some.injEq] at ht
        rw [← ht] at hph
        exact ⟨s₁, by rw [h.after, if_pos hk], (hkeep (by rw [hph]; exact hphase)).trans hph⟩
      · exact ⟨t, by rw [h.after, if_neg hk]; exact ht, hph⟩
    rcases h.settlements with ⟨hset, hkeep⟩ | ⟨hset, hopen, hdone⟩
    · exact hold (hset ▸ hin) hkeep
    · rw [hset] at hin
      rcases List.mem_append.mp hin with hin | hin
      · refine hold hin ?_
        intro hs
        rw [hopen] at hs
        exact absurd hs (by simp)
      · rw [List.mem_singleton, Prod.mk.injEq] at hin
        rw [hin.1, hin.2]
        exact ⟨hdone, s₁, by rw [h.after, if_pos rfl], rfl⟩
  once := by
    rcases h.settlements with ⟨hset, -⟩ | ⟨hset, hopen, -⟩
    · rw [hset]
      exact hb.once
    · rw [hset, List.map_append, List.nodup_append]
      refine ⟨hb.once, List.nodup_singleton _, ?_⟩
      intro k hk k' hk' heq
      rw [List.map_singleton, List.mem_singleton] at hk'
      obtain ⟨⟨k₀, phase⟩, hin, hk₀⟩ := List.mem_map.mp hk
      obtain ⟨hphase, t, ht, hph⟩ := hb.settled k₀ phase hin
      -- a call that is among the settlements has settled
      have hid : k₀ = id := hk₀.trans (heq.trans hk')
      rw [hid, h.before, Option.some.injEq] at ht
      rw [ht, hph, hphase] at hopen
      exact absurd hopen (by simp)

end Kovael.Chair
