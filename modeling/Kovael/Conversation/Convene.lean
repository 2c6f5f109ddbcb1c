import Mathlib.Data.Finset.Card
import Mathlib.Data.Finset.Insert
import Mathlib.Data.List.Count
import Mathlib.Algebra.Order.Ring.Rat
import Kovael.Presence.Registry

/-!
# The loop of `ConversationBus.convene`

`src/services/ConversationBus.ts`: one iteration takes the next speaker off the
queue, lets it speak (or not), and rewrites the queue by the mentions in its
reply. `head` is the part of an iteration up to its first `await`, `streamEnded`
the part after it, and `round` the two of them.

Mirroring notes vs the TS:
- What is read from outside is in the input of an iteration: the speaker's
  claim, the dispatch gate, the environment variable, how the provider's stream
  ends, `Math.random()`, the abort signal, and whether the database throws.
- Numbers are exact rationals. The confidence is the only one that is not an
  integer, and nothing but the stop criterion reads it.
- The events, the messages and the result that the loop posts are not modelled.
  `turns` is the speaker of every completed turn, in order; the loop itself
  never reads it.
-/

namespace Kovael.Conversation

open Presence (ChairClaim)

/-- The hard cap. -/
def maxTurns : Nat := 6

/-! ## Mentions -/

/-- `[a-zA-Z0-9_-]`. -/
def isMentionChar (c : Char) : Bool :=
  c.isAlphanum || c = '_' || c = '-'

/-- The matches of `/@([a-zA-Z0-9_-]+)/g`, each without its `@`. A match has no
`@` but its first character, so the search may go on right behind that. -/
def mentionsOf : List Char → List String
  | [] => []
  | c :: cs =>
    let name := cs.takeWhile isMentionChar
    if c = '@' ∧ name ≠ [] then String.ofList name :: mentionsOf cs else mentionsOf cs

/-- `parseMentions(content)`. -/
def parseMentions (content : String) : List String := mentionsOf content.toList

/-! ## The state of the loop -/

/-- Why the loop was left in the middle of an iteration. -/
inductive Ending where
  | stopCriterion
  | turnFailed
  | aborted
  /-- The database threw outside the `try`, so `convene` rejects. -/
  | threw
  deriving DecidableEq, Repr

structure LoopState where
  speakerQueue : List String
  turnCount : Nat
  rollingConfidence : List ℚ
  respondedParticipants : Finset String
  liveHandoffParticipants : Finset String
  presenceOnlyParticipants : Finset String
  localFallbackParticipants : Finset String
  failedParticipants : Finset String
  ended : Option Ending
  turns : List String

/-- The state in which the loop starts. -/
def LoopState.start (participants : List String) : LoopState where
  speakerQueue := participants
  turnCount := 0
  rollingConfidence := []
  respondedParticipants := ∅
  liveHandoffParticipants := ∅
  presenceOnlyParticipants := ∅
  localFallbackParticipants := ∅
  failedParticipants := ∅
  ended := none
  turns := []

/-- A turn is completed. -/
def LoopState.completeTurn (s : LoopState) (speaker : String) : LoopState :=
  { s with
    respondedParticipants := insert speaker s.respondedParticipants
    turnCount := s.turnCount + 1
    turns := s.turns ++ [speaker] }

/-- `catch (err)` around a turn. -/
def LoopState.failTurn (s : LoopState) (speaker : String) : LoopState :=
  { s with
    failedParticipants := insert speaker s.failedParticipants
    ended := some .turnFailed }

/-! ## The head of an iteration -/

structure HeadInput where
  claim : Option ChairClaim
  dispatchGate : Bool
  requireLiveChairs : Bool
  /-- `getHistory` throws. -/
  historyThrows : Bool
  /-- `postMessage` throws for a chair that is online for presence only. -/
  postThrows : Bool

inductive Selection where
  | presenceOnly
  | live
  | unavailable
  | localFallback
  deriving DecidableEq, Repr

/-- `claim.inboxUrl`, as a condition. -/
def hasInbox (claim : ChairClaim) : Bool := claim.inboxUrl.any (· ≠ "")

/-- What the speaker's claim, the gate and the environment make of the turn. -/
def select (i : HeadInput) : Selection :=
  if i.claim.any fun c => c.status ≠ .offline && !hasInbox c then .presenceOnly
  else if (i.claim.any fun c => hasInbox c && c.status ≠ .offline) && i.dispatchGate then .live
  else if i.requireLiveChairs then .unavailable
  else .localFallback

/-- Where an iteration gets before its first `await`. -/
inductive Head where
  | finished
  | threw (s : LoopState)
  | next (s : LoopState)
  | awaiting (speaker : String) (live : Bool) (s : LoopState)

/-- The loop condition; `ended` is a loop that was left with `break`. -/
def goesOn (aborted : Bool) (s : LoopState) : Bool :=
  s.ended.isNone && !s.speakerQueue.isEmpty && decide (s.turnCount < maxTurns) && !aborted

/-- The turn of a speaker that was taken off the queue. -/
def startTurn (i : HeadInput) (speaker : String) (s : LoopState) : Head :=
  if i.historyThrows then .threw { s with ended := some .threw }
  else match select i with
    | .presenceOnly =>
      if i.postThrows then .threw { s with ended := some .threw }
      else .next
        { s.completeTurn speaker with
          presenceOnlyParticipants := insert speaker s.presenceOnlyParticipants }
    | .unavailable =>
      .next { s with failedParticipants := insert speaker s.failedParticipants }
    | .live => .awaiting speaker true s
    | .localFallback =>
      .awaiting speaker false
        { s with localFallbackParticipants := insert speaker s.localFallbackParticipants }

/-- The loop condition and, while it holds, the turn of the next speaker. -/
def head (aborted : Bool) (i : HeadInput) (s : LoopState) : Head :=
  if goesOn aborted s then
    match s.speakerQueue with
    | [] => .finished
    | speaker :: queue => startTurn i speaker { s with speakerQueue := queue }
  else .finished

/-! ## The rest of an iteration -/

structure TurnInput where
  /-- The content of the provider's stream, or its error. -/
  stream : Except String String
  /-- `postMessage` throws. -/
  postThrows : Bool
  random : ℚ

/-- `indexOf`, `splice` and `unshift`: the speaker moves to the front. -/
def prioritize (queue : List String) (mentioned : String) : List String :=
  mentioned :: queue.erase mentioned

/-- `validMentions`. -/
def validMentions (participants : List String) (speaker content : String) : List String :=
  (parseMentions content).filter fun m => m ∈ participants ∧ m ≠ speaker

/-- The queue after the mentions of a reply. -/
def prioritized (participants : List String) (speaker content : String) (queue : List String) :
    List String :=
  (validMentions participants speaker content).reverse.foldl prioritize queue

/-- The queue that has run empty before the cap is refilled. -/
def refilled (participants : List String) (speaker : String) (turnCount : Nat)
    (queue : List String) : List String :=
  if queue = [] ∧ turnCount < maxTurns then
    match participants.find? (· ≠ speaker) with
    | some candidate => if candidate = "" then [] else [candidate]
    | none => []
  else queue

/-- `currentConfidence`. -/
def confidence (turnCount : Nat) (random : ℚ) : ℚ :=
  min (98 / 100) (65 / 100 + turnCount * (8 / 100 + random * (5 / 100)))

/-- The hybrid rule and the legacy fallback, on the last two confidences. -/
def stable (previous current : ℚ) : Bool :=
  let delta := |current - previous|
  let verifierMet := decide (85 / 100 ≤ current)
  let stabilityMet := decide (delta < 5 / 100)
  let disagreementLow := decide (delta < 10 / 100)
  verifierMet && (stabilityMet || disagreementLow) || !verifierMet && stabilityMet

/-- The stop criterion, after the `turnCount`-th turn. -/
def stops (participants : List String) (responded : Finset String) (rolling : List ℚ)
    (current : ℚ) : Bool :=
  decide (participants.toFinset.card ≤ responded.card) &&
    (rolling.getLast?.any fun previous => stable previous current)

/-- A turn whose reply is posted: the queue is rewritten and the stop criterion
and the signal decide whether the loop goes on. -/
def replied (participants : List String) (speaker : String) (live aborted : Bool)
    (content : String) (random : ℚ) (s : LoopState) : LoopState :=
  let t := s.completeTurn speaker
  let current := confidence t.turnCount random
  { t with
    liveHandoffParticipants :=
      if live then insert speaker t.liveHandoffParticipants else t.liveHandoffParticipants
    speakerQueue := refilled participants speaker t.turnCount
      (prioritized participants speaker content t.speakerQueue)
    rollingConfidence := t.rollingConfidence ++ [current]
    ended :=
      if stops participants t.respondedParticipants t.rollingConfidence current then
        some .stopCriterion
      else if aborted then some .aborted
      else none }

/-- The provider's stream has ended, with a reply or with an error. -/
def streamEnded (participants : List String) (speaker : String) (live aborted : Bool)
    (t : TurnInput) (s : LoopState) : LoopState :=
  match t.stream with
  | .error _ => s.failTurn speaker
  | .ok content =>
    if t.postThrows then s.failTurn speaker
    else replied participants speaker live aborted content t.random s

/-! ## Iterations -/

structure RoundInput where
  /-- The signal, where the loop condition reads it. -/
  aborted : Bool
  head : HeadInput
  turn : TurnInput
  /-- The signal, after the turn. -/
  abortedAfter : Bool

/-- One iteration; `none` if the loop is over. -/
def round (participants : List String) (s : LoopState) (i : RoundInput) : Option LoopState :=
  match head i.aborted i.head s with
  | .finished => none
  | .threw s => some s
  | .next s => some s
  | .awaiting speaker live s =>
    some (streamEnded participants speaker live i.abortedAfter i.turn s)

/-- The loop of `convene`, iteration by iteration. -/
def conveneLoop (participants : List String) : Lts LoopState RoundInput where
  init := .start participants
  step := round participants

/-! ## What an iteration does -/

/-- How the turn of a speaker comes out: `t` is what it makes of `s`, whose
queue the speaker has left. -/
inductive Turn (participants : List String) (speaker : String) (i : RoundInput) (s : LoopState) :
    LoopState → Prop where
  /-- The database throws outside the `try`. -/
  | threw : Turn participants speaker i s { s with ended := some .threw }
  /-- The speaker is skipped. -/
  | skipped (unavailable : select i.head = .unavailable) :
    Turn participants speaker i s
      { s with failedParticipants := insert speaker s.failedParticipants }
  /-- The chair is online for presence only. -/
  | present :
    Turn participants speaker i s
      { s.completeTurn speaker with
        presenceOnlyParticipants := insert speaker s.presenceOnlyParticipants }
  /-- The turn fails. -/
  | failed (fallback : Finset String) :
    Turn participants speaker i s
      (LoopState.failTurn { s with localFallbackParticipants := fallback } speaker)
  /-- The speaker replies. -/
  | replied (fallback : Finset String) (live : Bool) (content : String)
      (stream : i.turn.stream = .ok content)
      (awaited : select i.head = .live ∨ select i.head = .localFallback) :
    Turn participants speaker i s
      (Conversation.replied participants speaker live i.abortedAfter content i.turn.random
        { s with localFallbackParticipants := fallback })

theorem streamEnded_turn {participants : List String} {speaker : String} {i : RoundInput}
    {s : LoopState} (fallback : Finset String) (live : Bool)
    (awaited : select i.head = .live ∨ select i.head = .localFallback) :
    Turn participants speaker i s
      (streamEnded participants speaker live i.abortedAfter i.turn
        { s with localFallbackParticipants := fallback }) := by
  unfold streamEnded
  cases hstream : i.turn.stream with
  | error e => exact .failed fallback
  | ok content =>
    by_cases hpost : i.turn.postThrows = true
    · simp only [hpost, if_true]
      exact .failed fallback
    · simp only [hpost, Bool.false_eq_true, if_false]
      exact .replied fallback live content hstream awaited

/-- An iteration is the turn of the first speaker of the queue. -/
theorem round_cases {participants : List String} {s s' : LoopState} {i : RoundInput}
    (h : round participants s i = some s') :
    ∃ speaker queue, s.speakerQueue = speaker :: queue ∧ s.turnCount < maxTurns ∧
      s.ended = none ∧ i.aborted = false ∧
      Turn participants speaker i { s with speakerQueue := queue } s' := by
  unfold round head at h
  by_cases hgo : goesOn i.aborted s = true
  · have hcond := hgo
    simp only [goesOn, Bool.and_eq_true, Option.isNone_iff_eq_none, decide_eq_true_eq,
      Bool.not_eq_true'] at hcond
    obtain ⟨⟨⟨hended, _⟩, hturns⟩, haborted⟩ := hcond
    simp only [hgo, if_true] at h
    cases hqueue : s.speakerQueue with
    | nil =>
      rw [hqueue] at h
      exact absurd h (by simp)
    | cons speaker queue =>
      refine ⟨speaker, queue, rfl, hturns, hended, haborted, ?_⟩
      simp only [hqueue, startTurn] at h
      by_cases hhistory : i.head.historyThrows = true
      · simp only [hhistory, if_true, Option.some.injEq] at h
        rw [← h]
        exact .threw
      · simp only [hhistory, Bool.false_eq_true, if_false] at h
        cases hselect : select i.head with
        | presenceOnly =>
          simp only [hselect] at h
          by_cases hpost : i.head.postThrows = true
          · simp only [hpost, if_true, Option.some.injEq] at h
            rw [← h]
            exact .threw
          · simp only [hpost, Bool.false_eq_true, if_false, Option.some.injEq] at h
            rw [← h]
            exact .present
        | unavailable =>
          simp only [hselect, Option.some.injEq] at h
          rw [← h]
          exact .skipped hselect
        | live =>
          simp only [hselect, Option.some.injEq] at h
          rw [← h]
          exact streamEnded_turn (s := { s with speakerQueue := queue })
            s.localFallbackParticipants true (.inl hselect)
        | localFallback =>
          simp only [hselect, Option.some.injEq] at h
          rw [← h]
          exact streamEnded_turn (s := { s with speakerQueue := queue }) _ false (.inr hselect)
  · simp only [hgo, Bool.false_eq_true, if_false] at h
    exact absurd h (by simp)

/-- A speaker that was taken off the queue gets its turn. -/
theorem startTurn_ne_finished (i : HeadInput) (speaker : String) (s : LoopState) :
    startTurn i speaker s ≠ .finished := by
  unfold startTurn
  split
  next => exact fun h => nomatch h
  next =>
    split
    next =>
      split
      next => exact fun h => nomatch h
      next => exact fun h => nomatch h
    all_goals exact fun h => nomatch h

/-- While the loop condition holds there is an iteration, whatever its input. -/
theorem round_of_goesOn {participants : List String} {s : LoopState} {i : RoundInput}
    (h : goesOn i.aborted s = true) : ∃ s', round participants s i = some s' := by
  have hqueue : s.speakerQueue ≠ [] := by
    simp only [goesOn, Bool.and_eq_true, Bool.not_eq_true', List.isEmpty_eq_false_iff] at h
    exact h.1.1.2
  obtain ⟨speaker, queue, hqueue⟩ := List.exists_cons_of_ne_nil hqueue
  have hstart := startTurn_ne_finished i.head speaker { s with speakerQueue := queue }
  unfold round head
  simp only [h, if_true, hqueue]
  cases hturn : startTurn i.head speaker { s with speakerQueue := queue } with
  | finished => exact absurd hturn hstart
  | threw s => exact ⟨_, rfl⟩
  | next s => exact ⟨_, rfl⟩
  | awaiting speaker live s => exact ⟨_, rfl⟩

end Kovael.Conversation
