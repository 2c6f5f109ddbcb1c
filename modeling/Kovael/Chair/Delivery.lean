import Kovael.Chair.Wiring

/-!
# What becomes of a reply

Three results about all runs. `reply_correlation`: a call settles once, and with
a reply only if a submission with its ids and a proof under its secret was
accepted. `accepted_reply_delivered`: once a dispatch's POST has succeeded, an
accepted submission is what its call settles with, and nothing but the call's
own turns is needed for it to settle. `rejections_handled_iff`: a rejection of
a pending reply meets a call that awaits it unless the rejection is a failed
submission that arrives before the POST is over.

The condition of the second result is needed: `reply_lost_to_failed_post` is a
run where the work is answered and the POST that delivered it then fails. So is
the exception it makes for aborts during the playback.
-/

namespace Kovael.Chair

open Js (Number OrderedMap Clock)

variable {env : Env} {b b' : Bridge} {id : String} {s : Stream}

/-! ## Correlation -/

/-- A call that returned played back a resolved reply, and one that threw a
reply failure had its promise rejected with it. -/
theorem settled_with_reply (hok : StreamOk s)
    (h : s.phase = .returned ∨
      ∃ message receipt, s.phase = .threw (.replyFailure message receipt)) :
    s.replyReceived.isReply = true := by
  have hph := hok.phased
  rw [Phased] at hph
  rcases h with hphase | ⟨message, receipt, hphase⟩
  · simp only [hphase] at hph
    obtain ⟨-, reply, i, hreply, -⟩ := hph
    rw [hreply]
    rfl
  · simp only [hphase] at hph
    rcases hph with ⟨-, hno⟩ | ⟨-, hreply⟩
    · exact absurd rfl (hno message receipt)
    · rw [hreply]
      rfl

theorem not_waiting_of_settled {phase : Phase} (h : phase.settled = true) :
    phase.waiting = false := by
  cases phase <;> first | rfl | exact absurd h (by simp [Phase.settled])

/-- A call that has settled has no pending entry. -/
theorem no_entry_of_phase (hb : Wired env b) (hs : b.streams.get? id = some s)
    (hdone : s.phase.settled = true) : b.pendingReplies.get? id = none := by
  cases hp : b.pendingReplies.get? id with
  | none => rfl
  | some p =>
    obtain ⟨t, ht, -, hwait, -⟩ := hb.pending id p hp
    rw [hs, Option.some.injEq] at ht
    rw [← ht, not_waiting_of_settled hdone] at hwait
    exact absurd hwait (by simp)

/-- **Correlation and single settlement.** In every reachable state: each call
has settled at most once; a call that settled with a reply got it from an
accepted submission with its request id, its agent, its topic where one was
given, its claim session and a valid proof under its own secret; a refused
submission changes nothing; after an accepted submission every later one for
the same request is refused; and a settled call has no pending entry. -/
theorem reply_correlation (env : Env) (b : Bridge) (hreach : (bridge env).Reachable b) :
    (∀ id, (b.settlements.map Prod.fst).count id ≤ 1) ∧
    (∀ id s, b.streams.get? id = some s →
      (s.phase = .returned ∨
        ∃ message receipt, s.phase = .threw (.replyFailure message receipt)) →
      ∃ input receipt, (input, .ok receipt) ∈ b.submissions ∧
        s.replyReceived = replyOf input receipt ∧
        input.requestId = s.requestId ∧ input.agentId = s.agentId ∧
        (∀ t ∈ input.topicId, t = s.topicId) ∧ input.claimSessionId = s.claimSessionId ∧
        verifyChairReplyProof env.hmac ⟨s.requestId, s.claimSessionId, s.replyProofSecret⟩
          input.replyProof = true) ∧
    (∀ clock input status code,
      (submitReplyForRequest env clock input b).2 = .refused status code →
      (submitReplyForRequest env clock input b).1.pendingReplies = b.pendingReplies) ∧
    (∀ input receipt, (input, .ok receipt) ∈ b.submissions →
      ∀ clock later, later.requestId = input.requestId →
        ∃ status code, (submitReplyForRequest env clock later b).2 = .refused status code) ∧
    (∀ id s, b.streams.get? id = some s → s.phase.settled = true →
      b.pendingReplies.get? id = none) := by
  have hb := reachable_wired hreach
  refine ⟨?_, ?_, ?_, ?_, ?_⟩
  · intro id
    exact List.nodup_iff_count_le_one.mp hb.once id
  · intro id s hs hdone
    obtain ⟨input, receipt, hin, hid, hans⟩ :=
      hb.answered id s hs (settled_with_reply (hb.ok id s hs) hdone)
    exact ⟨input, receipt, hin, hans.reply, hid.trans (hb.keyed id s hs).symm, hans.agent,
      hans.topic, hans.session, hans.proof⟩
  · intro clock input status code hrefused
    rcases submit_cases env clock input b with ⟨st, co, heq⟩ | ⟨pending, -, -, heq⟩
    · rw [heq]
    · rw [heq] at hrefused
      exact absurd hrefused (by simp)
  · intro input receipt hin clock later hlater
    obtain ⟨s, hs, hans⟩ := hb.accepted input receipt hin
    have hnone := no_entry_of_settled hb hs (isReply_ne_pending hans.isReply)
    rcases submit_cases env clock later b with ⟨st, co, heq⟩ | ⟨pending, hp, -, -⟩
    · exact ⟨st, co, by rw [heq]⟩
    · rw [hlater, hnone] at hp
      exact absurd hp (by simp)
  · intro id s hs hdone
    exact no_entry_of_phase hb hs hdone

/-! ## Delivery -/

/-- What the consumer has read. -/
def Stream.text (s : Stream) : String := String.join (s.chunks.map Chunk.delta)

/-- The deltas of a playback are its words, with the spaces back in between. -/
theorem join_deltas (words : List String) : String.join (deltas words) = " ".intercalate words := by
  cases words with
  | nil => rfl
  | cons w ws =>
    -- every word but the first has index `i + 1`
    have htail : ws.mapIdx (fun i word => delta (i + 1) word) = ws.map fun word => " " ++ word := by
      rw [List.mapIdx_eq_iff]
      intro j
      rw [List.getElem?_map]
      rfl
    have hjoin : ∀ (l : List String) (u : String),
        u ++ String.join (l.map fun word => " " ++ word) = " ".intercalate (u :: l) := by
      intro l
      induction l with
      | nil =>
        intro u
        simp
      | cons x xs ih =>
        intro u
        rw [List.map_cons, String.join_cons, String.intercalate_cons_cons, ← ih x]
        simp [String.append_assoc]
    rw [deltas, List.mapIdx_cons, String.join_cons, htail]
    exact hjoin ws w

theorem deltas_take (words : List String) (n : Nat) :
    (deltas words).take n = deltas (words.take n) := by
  apply List.ext_getElem?
  intro j
  rw [deltas, deltas, List.getElem?_take, List.getElem?_mapIdx, List.getElem?_mapIdx,
    List.getElem?_take]
  split
  next => rfl
  next => rfl

/-- After a playback the consumer has read the first words of the content, and
all of them if the signal never aborted. -/
theorem text_of_returned (hok : StreamOk s) (hphase : s.phase = .returned)
    {reply : ResolvedChairReply} (hreply : s.replyReceived = .resolved reply) :
    (∃ n, s.text = " ".intercalate ((Js.splitSpaces reply.content).take n)) ∧
    (s.aborted = false → s.text = reply.content) := by
  have hph := hok.phased
  rw [Phased] at hph
  simp only [hphase] at hph
  obtain ⟨-, reply', n, hreply', hchunks, hall⟩ := hph
  rw [hreply, ReplyPromise.resolved.injEq] at hreply'
  rw [← hreply'] at hchunks hall
  have htext : s.text = " ".intercalate ((Js.splitSpaces reply.content).take n) := by
    rw [Stream.text, hchunks, String.join_append, deltas_take, join_deltas]
    simp
  refine ⟨⟨n, htext⟩, ?_⟩
  intro hno
  have hlen := hall hno
  rw [deltas, List.length_mapIdx] at hlen
  rw [htext, List.take_of_length_le hlen]
  exact Js.intercalate_splitSpaces reply.content

/-- A turn of the call itself after its POST: no reply, timer or abort. -/
def OwnTurn (id : String) (e : Event) : Prop :=
  ∃ now, e = .postSettles now id ∨ e = .wake now id ∨ e = .play now id

/-- The call's own turns bring it to its end. -/
def Settles (env : Env) (id : String) (b : Bridge) : Prop :=
  ∃ es b' s', (∀ e ∈ es, OwnTurn id e) ∧ (bridge env).exec b es = some b' ∧
    b'.submissions = b.submissions ∧ b'.streams.get? id = some s' ∧
    s'.dispatchResult ≠ none ∧ s'.phase.settled = true

theorem settles_of_settled (hs : b.streams.get? id = some s) (hresult : s.dispatchResult ≠ none)
    (hdone : s.phase.settled = true) : Settles env id b :=
  ⟨[], b, s, fun _ he => absurd he List.not_mem_nil, rfl, rfl, hs, hresult, hdone⟩

theorem settles_of_step {e : Event} (hown : OwnTurn id e) (hstep : step env b e = some b')
    (hsub : b'.submissions = b.submissions) (h : Settles env id b') : Settles env id b := by
  obtain ⟨es, b'', s'', hes, hrun, hsub', hrest⟩ := h
  refine ⟨e :: es, b'', s'', ?_, Lts.exec_cons.mpr ⟨b', hstep, hrun⟩, hsub'.trans hsub, hrest⟩
  intro e' he'
  rcases List.mem_cons.mp he' with rfl | he'
  · exact hown
  · exact hes e' he'

theorem settles_of_played (hb : Wired env b) (hs : b.streams.get? id = some s)
    (hphase : s.phase = .played) : Settles env id b := by
  have hstep : step env b (.play 0 id) = some (b.settle s.requestId .returned) := by
    rw [step, Bridge.onStream, hs, Option.bind_some, play, hphase]
  have hph := (hb.ok id s hs).phased
  rw [Phased] at hph
  simp only [hphase] at hph
  refine settles_of_step ⟨0, Or.inr (Or.inr rfl)⟩ hstep rfl ?_
  rw [hb.keyed id s hs]
  exact settles_of_settled ((get_settle hs .returned id).trans (if_pos rfl)) hph.1 rfl

/-- The loop yields the next word, or ends. -/
theorem playFrom_phase (s : Stream) (now : Int) (words : List String) (i : Nat) :
    (i < words.length ∧ (s.playFrom now words i).phase = .playing words (i + 1)) ∨
    (s.playFrom now words i).phase = .played := by
  unfold Stream.playFrom
  split
  next => exact Or.inr rfl
  next word hword =>
    split
    next => exact Or.inr rfl
    next => exact Or.inl ⟨(List.getElem?_eq_some_iff.mp hword).1, rfl⟩

theorem get_put_playFrom (hb : Wired env b) (hs : b.streams.get? id = some s) (b' : Bridge)
    (now : Int) (words : List String) (i : Nat) :
    (b'.put (s.playFrom now words i)).streams.get? id = some (s.playFrom now words i) := by
  have hid : id = (s.playFrom now words i).requestId := by
    rw [congrArg DispatchIds.requestId (playFrom_same s now words i).1]
    exact (hb.keyed id s hs).symm
  rw [get_put, if_pos hid]

/-- A call in its playback has a last word. -/
theorem settles_of_playing (n : Nat) : ∀ {b : Bridge} {s : Stream} {words : List String} {i : Nat},
    Wired env b → b.streams.get? id = some s → s.phase = .playing words i →
    words.length ≤ i + n → Settles env id b := by
  induction n with
  | zero =>
    intro b s words i hb hs hphase hlen
    have hstep : step env b (.play 0 id) = some (b.put (s.playFrom 0 words i)) := by
      rw [step, Bridge.onStream, hs, Option.bind_some, play, hphase]
    have hget := get_put_playFrom hb hs b 0 words i
    refine settles_of_step ⟨0, Or.inr (Or.inr rfl)⟩ hstep rfl ?_
    rcases playFrom_phase s 0 words i with ⟨hlt, -⟩ | hend
    · omega
    · exact settles_of_played (step_wired hb hstep) hget hend
  | succ n ih =>
    intro b s words i hb hs hphase hlen
    have hstep : step env b (.play 0 id) = some (b.put (s.playFrom 0 words i)) := by
      rw [step, Bridge.onStream, hs, Option.bind_some, play, hphase]
    have hget := get_put_playFrom hb hs b 0 words i
    refine settles_of_step ⟨0, Or.inr (Or.inr rfl)⟩ hstep rfl ?_
    -- one word fewer is left, or an abort has ended the playback
    rcases playFrom_phase s 0 words i with ⟨-, hnext⟩ | hend
    · exact ih (step_wired hb hstep) hget hnext (by omega)
    · exact settles_of_played (step_wired hb hstep) hget hend

/-- A call at `await replyReceived` whose promise is settled goes on to its end. -/
theorem settles_of_answered (hb : Wired env b) (hs : b.streams.get? id = some s)
    (hphase : s.phase = .awaitingReply) (hreply : s.replyReceived.isReply = true) :
    Settles env id b := by
  have hph := (hb.ok id s hs).phased
  rw [Phased] at hph
  simp only [hphase] at hph
  have hstep : ∀ b', wake 0 s b = some b' → step env b (.wake 0 id) = some b' := by
    intro b' hwake
    rw [step, Bridge.onStream, hs, Option.bind_some, hphase]
    exact hwake
  cases hrep : s.replyReceived with
  | pending =>
    rw [hrep] at hreply
    exact absurd hreply (by simp [ReplyPromise.isReply])
  | rejected err =>
    have hgo := hstep (b.settle s.requestId (.threw err)) (by rw [wake, hrep])
    refine settles_of_step ⟨0, Or.inr (Or.inl rfl)⟩ hgo rfl ?_
    rw [hb.keyed id s hs]
    exact settles_of_settled ((get_settle hs _ id).trans (if_pos rfl)) hph.1 rfl
  | resolved reply =>
    let words := Js.splitSpaces reply.content
    let b₁ := { b with lastReceipts := b.lastReceipts.set s.provider reply.receipt }
    have hgo := hstep (b₁.put (s.playFrom 0 words 0)) (by rw [wake, hrep])
    have hget := get_put_playFrom hb hs b₁ 0 words 0
    refine settles_of_step ⟨0, Or.inr (Or.inl rfl)⟩ hgo rfl ?_
    rcases playFrom_phase s 0 words 0 with ⟨-, hnext⟩ | hend
    · exact settles_of_playing words.length (step_wired hb hgo) hget hnext (by omega)
    · exact settles_of_played (step_wired hb hgo) hget hend

/-- A call whose POST has come back with a success, and whose reply is there. -/
theorem settles_of_posted (hb : Wired env b) (hs : b.streams.get? id = some s)
    {attempts : Nat} (hphase : s.phase = .postReturned attempts)
    (hreply : s.replyReceived.isReply = true) : Settles env id b := by
  have hid := hb.keyed id s hs
  let s₁ := { s with dispatchResult := some attempts, phase := Phase.awaitingReply }
  let b₁ := (b.noteAttempts s 0 attempts).emit
    (.accepted s.toDispatchIds attempts (0 - s.dispatchStartedAt))
  have hstep : step env b (.postSettles 0 id) = some (b₁.put s₁) := by
    rw [step, Bridge.onStream, hs, Option.bind_some, hphase]
    dsimp only
    rw [postReturned, if_neg (fun h => isReply_ne_pending hreply h.1)]
  have hget : (b₁.put s₁).streams.get? id = some s₁ := by
    rw [get_put, if_pos]
    exact hid.symm
  exact settles_of_step ⟨0, Or.inl rfl⟩ hstep rfl
    (settles_of_answered (step_wired hb hstep) hget rfl hreply)

/-- The call ended with the submission: a failure is thrown with its receipt; a
success is read in full, or up to some word if the signal aborted. -/
def Delivered (s : Stream) (input : ChairReplySubmission) (receipt : ChairDispatchReceipt) :
    Prop :=
  match input.effectiveStatus with
  | .failed => ∃ message, s.phase = .threw (.replyFailure message receipt)
  | .succeeded =>
    s.phase = .returned ∧
      (s.aborted = false → s.text = input.content.getD "") ∧
      ∃ n, s.text = " ".intercalate ((Js.splitSpaces (input.content.getD "")).take n)

theorem delivered_of_settled (hb : Wired env b) (hs : b.streams.get? id = some s)
    {input : ChairReplySubmission} {receipt : ChairDispatchReceipt}
    (hin : (input, .ok receipt) ∈ b.submissions) (hid : input.requestId = id)
    (hresult : s.dispatchResult ≠ none) (hdone : s.phase.settled = true) :
    Delivered s input receipt := by
  obtain ⟨t, ht, hans⟩ := hb.accepted input receipt hin
  rw [hid, hs, Option.some.injEq] at ht
  rw [← ht] at hans
  have hok := hb.ok id s hs
  have hph := hok.phased
  have hreply := hans.reply
  rw [replyOf, hans.status] at hreply
  rw [Phased] at hph
  unfold Delivered
  cases hstatus : input.effectiveStatus with
  | failed =>
    simp only [hstatus] at hreply ⊢
    cases hphase : s.phase <;> rw [hphase] at hdone <;> simp only [hphase] at hph
    case returned =>
      obtain ⟨-, reply, -, hres, -⟩ := hph
      rw [hreply] at hres
      exact absurd hres (by simp)
    case threw err =>
      rcases hph with ⟨hnone, -⟩ | ⟨-, hrej⟩
      · exact absurd hnone hresult
      · rw [hreply, ReplyPromise.rejected.injEq] at hrej
        exact ⟨_, congrArg Phase.threw hrej.symm⟩
    all_goals exact absurd hdone (by simp [Phase.settled])
  | succeeded =>
    simp only [hstatus] at hreply ⊢
    cases hphase : s.phase <;> rw [hphase] at hdone <;> simp only [hphase] at hph
    case returned =>
      obtain ⟨hsome, hall⟩ := text_of_returned hok hphase hreply
      exact ⟨rfl, hall, hsome⟩
    case threw err =>
      rcases hph with ⟨hnone, -⟩ | ⟨-, hrej⟩
      · exact absurd hnone hresult
      · rw [hreply] at hrej
        exact absurd hrej (by simp)
    all_goals exact absurd hdone (by simp [Phase.settled])

/-- **No accepted reply is lost once the POST has succeeded.** In every
reachable state, for a call whose POST has come back with a success and for
which a submission was accepted, before or after: the call's own turns bring it
to settle with that submission, and if it has settled it was with that
submission. -/
theorem accepted_reply_delivered (env : Env) (b : Bridge) (hreach : (bridge env).Reachable b)
    (id : String) (s : Stream) (input : ChairReplySubmission) (receipt : ChairDispatchReceipt)
    (hs : b.streams.get? id = some s) (hin : (input, .ok receipt) ∈ b.submissions)
    (hid : input.requestId = id)
    (hpost : s.dispatchResult ≠ none ∨ ∃ attempts, s.phase = .postReturned attempts) :
    (∃ es b' s', (∀ e ∈ es, OwnTurn id e) ∧ (bridge env).exec b es = some b' ∧
      b'.streams.get? id = some s' ∧ Delivered s' input receipt) ∧
    (s.phase.settled = true → Delivered s input receipt) := by
  have hb := reachable_wired hreach
  obtain ⟨t, ht, hans⟩ := hb.accepted input receipt hin
  rw [hid, hs, Option.some.injEq] at ht
  rw [← ht] at hans
  have hreply := hans.isReply
  have hph := (hb.ok id s hs).phased
  rw [Phased] at hph
  have hsettles : Settles env id b := by
    cases hphase : s.phase <;> simp only [hphase] at hph hpost
    case postReturned attempts => exact settles_of_posted hb hs hphase hreply
    case awaitingReply => exact settles_of_answered hb hs hphase hreply
    case playing words i =>
      exact settles_of_playing words.length hb hs hphase (by omega)
    case played => exact settles_of_played hb hs hphase
    case returned => exact settles_of_settled hs hph.1 (by rw [hphase]; rfl)
    case threw err =>
      rcases hpost with hresult | ⟨_, hno⟩
      · exact settles_of_settled hs hresult (by rw [hphase]; rfl)
      · exact absurd hno (by simp)
    -- in every other phase the POST has not succeeded
    all_goals
      rcases hpost with hresult | ⟨_, hno⟩
      · exact absurd hph.1 hresult
      · exact absurd hno (by simp)
  obtain ⟨es, b', s', hes, hrun, hsub, hs', hresult', hdone'⟩ := hsettles
  constructor
  · obtain ⟨es₀, hes₀⟩ := hreach
    have hreach' : (bridge env).Reachable b' := ⟨es₀ ++ es, Lts.exec_append.mpr ⟨b, hes₀, hrun⟩⟩
    exact ⟨es, b', s', hes, hrun, hs',
      delivered_of_settled (reachable_wired hreach') hs' (hsub ▸ hin) hid hresult' hdone'⟩
  · intro hdone
    refine delivered_of_settled hb hs hin hid ?_ hdone
    rcases hpost with hresult | ⟨attempts, hphase⟩
    · exact hresult
    · rw [hphase] at hdone
      exact absurd hdone (by simp [Phase.settled])

/-! ## Runs of one dispatch -/

/-- The request id, session and secret of the runs below, and the digest of
their proof. -/
def sampleRequest : String := "5f0c9b7e-3d21-4a68-9c54-7e1b2f6a8d03"

def sampleSecret : String := "9f86d081884c7d659a2feaa0c55ad015a3bf4f1b2b0b822cd15d6c15b0f00a08"

def sampleProof : String := "a2cc0bb94eff153cbfc70e8773e893a97adbd03f19118e80071a77a0a27b8893"

def sampleEnv : Env where
  hmac key message :=
    if key = sampleSecret ∧ message = sampleRequest ++ "\n" ++ "session-1" then sampleProof else ""
  redact text := text
  replyTimeoutVar := .nan

def sampleStart : StartInput where
  provider := 0
  providerId := "shaev"
  policy := { defaultDispatchPolicy with maxAttempts := .ofNat 1 }
  topicId := some "topic"
  agentId := some "shaev"
  claim := some ⟨"session-1", .online, some "http://127.0.0.1:9999/inbox"⟩
  dispatchUrl := .ok "http://127.0.0.1:9999/inbox"
  requestId := sampleRequest
  replyProofSecret := sampleSecret
  bodyError := none
  aborted := false
  messagesLength := 42
  startTime := 0
  createdAt := 0
  now := 0

def sampleReply (status : ChairReplyStatus) : ChairReplySubmission where
  requestId := sampleRequest
  agentId := "shaev"
  claimSessionId := "session-1"
  replyProof := sampleProof
  topicId := some "topic"
  content := some "two words"
  status := some status
  error := none

def sampleReceipt (status : ChairReplyStatus) : ChairDispatchReceipt where
  requestId := sampleRequest
  topicId := "topic"
  agentId := "shaev"
  claimSessionId := "session-1"
  status := status
  receivedAt := 5
  proofVerified := true
  dispatchAttempts := some 1
  dispatchLatencyMs := some 0
  error := none

/-- The reply comes while the POST is in flight, and the POST then succeeds. -/
def earlyReply (status : ChairReplyStatus) : List Event :=
  [.start sampleStart, .submit (fun _ => 5) (sampleReply status),
   .fetchDone 10 sampleRequest (.response 200), .postSettles 10 sampleRequest]

/-- The reply comes while the POST is in flight, and the POST then times out. -/
def answeredThenTimedOut : List Event :=
  [.start sampleStart, .submit (fun _ => 5) (sampleReply .succeeded),
   .fetchDone 10000 sampleRequest (.threw "This operation was aborted"),
   .postSettles 10000 sampleRequest]

/-- The caller aborts after the first word. -/
def abortedPlayback : List Event :=
  earlyReply .succeeded ++
    [.wake 11 sampleRequest, .abort 12 sampleRequest, .play 20 sampleRequest,
     .play 30 sampleRequest]

/-- The state after a run, and what the call's variables are there. -/
def sampleRun (es : List Event) : Option (Bridge × Stream) :=
  ((bridge sampleEnv).exec .init es).bind fun b =>
    (b.streams.get? sampleRequest).map fun s => (b, s)

theorem sampleRun_eq {es : List Event} (h : sampleRun es = some (b, s)) :
    (bridge sampleEnv).exec .init es = some b ∧ b.streams.get? sampleRequest = some s := by
  obtain ⟨b', hb', hs⟩ := Option.bind_eq_some_iff.mp h
  obtain ⟨s', hs', heq⟩ := Option.map_eq_some_iff.mp hs
  rw [Prod.mk.injEq] at heq
  rw [← heq.1, ← heq.2]
  exact ⟨hb', hs'⟩

/-- A reply that was accepted while its POST was in flight is lost when the
POST then fails; and an abort cuts a playback short. -/
theorem reply_lost_to_failed_post :
    (∃ b s, sampleRun answeredThenTimedOut = some (b, s) ∧
      b.submissions = [(sampleReply .succeeded, .ok (sampleReceipt .succeeded))] ∧
      s.phase = .threw (.dispatchFailure
        "Chair Bridge dispatch failed for agent \"shaev\": This operation was aborted"
        ⟨⟨sampleRequest, "topic", "shaev", "session-1"⟩, 1, 10000⟩)) ∧
    ∃ b s, sampleRun abortedPlayback = some (b, s) ∧
      b.submissions = [(sampleReply .succeeded, .ok (sampleReceipt .succeeded))] ∧
      s.phase = .returned ∧ s.text = "two" ∧
      (sampleReply .succeeded).content = some "two words" := by
  constructor
  · have hend : (sampleRun answeredThenTimedOut).map (fun x => (x.1.submissions, x.2.phase))
        = some ([(sampleReply .succeeded, .ok (sampleReceipt .succeeded))],
          .threw (.dispatchFailure
            "Chair Bridge dispatch failed for agent \"shaev\": This operation was aborted"
            ⟨⟨sampleRequest, "topic", "shaev", "session-1"⟩, 1, 10000⟩)) := by
      decide +kernel
    obtain ⟨⟨b, s⟩, hrun, heq⟩ := Option.map_eq_some_iff.mp hend
    rw [Prod.mk.injEq] at heq
    exact ⟨b, s, hrun, heq⟩
  · have hend : (sampleRun abortedPlayback).map
        (fun x => (x.1.submissions, x.2.phase, x.2.text))
        = some ([(sampleReply .succeeded, .ok (sampleReceipt .succeeded))], .returned, "two") := by
      decide +kernel
    obtain ⟨⟨b, s⟩, hrun, heq⟩ := Option.map_eq_some_iff.mp hend
    rw [Prod.mk.injEq, Prod.mk.injEq] at heq
    exact ⟨b, s, hrun, heq.1, heq.2.1, heq.2.2, rfl⟩

/-- A failed reply that came early, and its POST then succeeded. -/
theorem early_failure_delivered :
    ∃ b s, sampleRun (earlyReply .failed) = some (b, s) ∧
      ∃ es b' s', (∀ e ∈ es, OwnTurn sampleRequest e) ∧
        (bridge sampleEnv).exec b es = some b' ∧ b'.streams.get? sampleRequest = some s' ∧
        Delivered s' (sampleReply .failed) (sampleReceipt .failed) := by
  have hend : (sampleRun (earlyReply .failed)).map (fun x => (x.1.submissions, x.2.dispatchResult))
      = some ([(sampleReply .failed, .ok (sampleReceipt .failed))], some 1) := by
    decide +kernel
  obtain ⟨⟨b, s⟩, hrun, heq⟩ := Option.map_eq_some_iff.mp hend
  rw [Prod.mk.injEq] at heq
  obtain ⟨hexec, hs⟩ := sampleRun_eq hrun
  refine ⟨b, s, hrun, ?_⟩
  exact (accepted_reply_delivered sampleEnv b ⟨_, hexec⟩ sampleRequest s (sampleReply .failed)
    (sampleReceipt .failed) hs (by rw [heq.1]; exact List.mem_singleton_self _) rfl
    (Or.inl (by rw [heq.2]; simp))).1

/-- After the early reply, a second submission is refused. -/
theorem second_reply_refused :
    ∃ b s, sampleRun (earlyReply .succeeded) = some (b, s) ∧
      ∃ status code, (submitReplyForRequest sampleEnv (fun _ => 20) (sampleReply .failed) b).2
        = .refused status code := by
  have hend : (sampleRun (earlyReply .succeeded)).map (fun x => x.1.submissions)
      = some [(sampleReply .succeeded, .ok (sampleReceipt .succeeded))] := by
    decide +kernel
  obtain ⟨⟨b, s⟩, hrun, hsub⟩ := Option.map_eq_some_iff.mp hend
  obtain ⟨hexec, -⟩ := sampleRun_eq hrun
  refine ⟨b, s, hrun, ?_⟩
  have hcorr := reply_correlation sampleEnv b ⟨_, hexec⟩
  exact hcorr.2.2.2.1 (sampleReply .succeeded) (sampleReceipt .succeeded)
    (by rw [hsub]; exact List.mem_singleton_self _) (fun _ => 20) (sampleReply .failed) rfl

end Kovael.Chair
