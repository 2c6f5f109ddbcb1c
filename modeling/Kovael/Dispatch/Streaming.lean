import Kovael.Cockpit.Messages
import Kovael.Dispatch.Inflight

/-!
# What a turn streams, posts and shows

`ConversationBus.convene` emits every chunk of a turn as a
`conversation_message_delta`, then an end event, and posts the accumulated
content as a row of `conversation_messages`; the cockpit puts the deltas together
again. `streaming` adds this to the system of all turns, with the events
delivered to one cockpit in order.

Mirroring notes vs the TS:
- A turn takes the chunks of its `stream()` call one by one; when it takes the
  next is in the event, and it ends when it has taken them all. The stand-in may
  yield anything, and its stream does not throw.
- `messageId` is fresh (`crypto.randomUUID()`). A row has an id of its own;
  `rows` files it under the message that was streamed.
- A chair that is online for presence only, and the convener at the end of a run,
  say one thing at once (`say`). The text of the convener's result is in the
  event.
- Token usage is not modelled.
-/

namespace Kovael.Dispatch

open Js (OrderedMap)
open Chair (Bridge)
open Cockpit (MessageDelta Role contentOf deliver received WithinLimit)

/-! ## The system -/

/-- The variables of a turn that streams. -/
structure OpenMessage where
  messageId : String
  accumulatedContent : String
  /-- The chunks taken so far. -/
  taken : Nat
  deriving DecidableEq, Repr

/-- A row of `conversation_messages`. -/
structure Row where
  topicId : String
  senderId : String
  role : Role
  content : String
  deriving DecidableEq, Repr

structure Floor where
  turns : State
  /-- The messages of the turns that are not over, by turn. -/
  messages : OrderedMap Nat OpenMessage
  emitted : List MessageDelta
  /-- The rows of completed turns, each with the message it was streamed as. -/
  rows : List (String × Row)
  /-- How many events have reached the cockpit. -/
  delivered : Nat

inductive FloorEvent where
  | head (messageId : String) (postThrows : Bool) (now : Int) (speaker topicId : String)
      (claim : Option Presence.ChairClaim) (requireLiveChairs : Bool)
  /-- A step of the calls or of the registry. -/
  | advance (e : Event)
  /-- A turn takes a chunk; `delta` is what a stand-in yields. -/
  | chunk (turn : Nat) (delta : String)
  /-- The stream of a turn has ended; `throws` is whether `postMessage` throws. -/
  | ended (now : Int) (turn : Nat) (throws : Bool)
  | convenerResult (messageId topicId content : String) (postThrows : Bool)
  | deliver

/-- Not the head of a turn nor its end. -/
def Event.advances : Event → Bool
  | .dispatch .. | .bridge _ | .lapsed .. => true
  | .head .. | .ended .. => false

/-- What a chair without an inbox is made to say. -/
def unavailableContent (speaker : String) : String :=
  "Chair " ++ speaker ++ " is online for presence only; no dispatch inbox is registered, " ++
    "so no live agent handoff occurred."

namespace Floor

/-- The message id was drawn before. -/
def known (s : Floor) (messageId : String) : Bool :=
  (s.messages.values.any fun m => m.messageId = messageId) ||
    s.emitted.any fun e => e.messageId = messageId

/-- One thing is said at once, and posted unless that throws. -/
def say (s : Floor) (messageId topicId senderId : String) (role : Role) (content : String)
    (postThrows : Bool) : Floor :=
  { s with
    emitted := s.emitted ++
      [⟨topicId, messageId, senderId, role, content, false⟩,
       ⟨topicId, messageId, senderId, role, "", true⟩]
    rows := s.rows ++ if postThrows then [] else [(messageId, ⟨topicId, senderId, role, content⟩)] }

/-- A turn takes a chunk and emits its delta. -/
def take (s : Floor) (turn : Nat) (t : Turn) (m : OpenMessage) (delta : String) : Floor :=
  { s with
    messages := s.messages.set turn
      { m with accumulatedContent := m.accumulatedContent ++ delta, taken := m.taken + 1 }
    emitted := s.emitted ++ [⟨t.topicId, m.messageId, t.speaker, .assistant, delta, false⟩] }

/-- The stream of the turn has ended without an error, and every chunk is taken;
`none` while it has not ended. -/
def finished (s : Floor) (t : Turn) (m : OpenMessage) : Option Bool :=
  match t.stage with
  | .standIn => some true
  | .selected _ => none
  | .refused => some false
  | .calling id =>
    (s.turns.bridge.streams.get? id).bind fun st =>
      match st.phase with
      | .returned => if m.taken = st.chunks.length then some true else none
      | .threw _ => some false
      | _ => none

/-- The end event, and the row unless `postMessage` throws. -/
def finish (s : Floor) (t : Turn) (m : OpenMessage) (throws : Bool) : Floor :=
  { s with
    emitted := s.emitted ++ [⟨t.topicId, m.messageId, t.speaker, .assistant, "", true⟩]
    rows := s.rows ++ if throws then []
      else [(m.messageId, ⟨t.topicId, t.speaker, .assistant, m.accumulatedContent⟩)] }

/-- What the cockpit has. -/
def cockpit (s : Floor) : Cockpit.MessagesByTopic := deliver (s.emitted.take s.delivered)

end Floor

/-- One step of the system. -/
def floorStep (env : Chair.Env) (s : Floor) : FloorEvent → Option Floor
  | .head messageId postThrows now speaker topicId claim requireLiveChairs =>
    if s.known messageId then none
    else
      let s' := { s with turns := s.turns.head now speaker topicId claim requireLiveChairs }
      match Conversation.select
          (headInput claim (s.turns.gate now speaker claim).1 requireLiveChairs), claim with
      | .presenceOnly, _ =>
        some (s'.say messageId topicId speaker .assistant (unavailableContent speaker) postThrows)
      | .live, some _ | .localFallback, _ =>
        some { s' with messages := s.messages.set s.turns.nextTurn ⟨messageId, "", 0⟩ }
      | _, _ => some s'
  | .advance e =>
    if e.advances then (step env s.turns e).map fun turns => { s with turns := turns } else none
  | .chunk turn delta =>
    (s.turns.turns.get? turn).bind fun t =>
      (s.messages.get? turn).bind fun m =>
        match t.stage with
        | .standIn => some (s.take turn t m delta)
        | .calling id =>
          ((s.turns.bridge.streams.get? id).bind fun st => st.chunks[m.taken]?).map fun c =>
            s.take turn t m c.delta
        | _ => none
  | .ended now turn throws =>
    (s.turns.turns.get? turn).bind fun t =>
      (s.messages.get? turn).bind fun m =>
        (s.finished t m).bind fun spoke =>
          (step env s.turns (.ended now turn throws)).map fun turns =>
            let s' := if spoke then s.finish t m throws else s
            { s' with turns := turns, messages := s.messages.delete turn }
  | .convenerResult messageId topicId content postThrows =>
    if s.known messageId then none
    else some (s.say messageId topicId "convener" .system content postThrows)
  | .deliver =>
    if s.delivered < s.emitted.length then some { s with delivered := s.delivered + 1 } else none

/-- Nothing said yet. -/
def Floor.init (cfg : Chair.CircuitBreakerConfig) : Floor := ⟨.init cfg, .empty, [], [], 0⟩

/-- All turns of all conversations, and one cockpit. -/
def streaming (env : Chair.Env) (cfg : Chair.CircuitBreakerConfig) : Lts Floor FloorEvent where
  init := .init cfg
  step := floorStep env

/-! ## The events of a message -/

/-- The events of a message, whatever their topic. -/
def ofMessage (es : List MessageDelta) (messageId : String) : List MessageDelta :=
  es.filter fun e => e.messageId = messageId

/-- The event belongs to what the row holds. -/
def ofRow (row : Row) (e : MessageDelta) : Prop :=
  e.topicId = row.topicId ∧ e.senderId = row.senderId ∧ e.role = row.role

/-- What the deltas make together. -/
def joined (es : List MessageDelta) : String := String.join (es.map MessageDelta.delta)

/-- The message is not over, and its deltas make the row's content so far. -/
structure Streamed (es : List MessageDelta) (messageId : String) (row : Row) : Prop where
  going : ∀ e ∈ ofMessage es messageId, ofRow row e ∧ e.isEnd = false
  content : joined (ofMessage es messageId) = row.content

/-- The message is over: one end event after all its deltas, which make the row's
content. -/
structure Complete (es : List MessageDelta) (messageId : String) (row : Row) : Prop where
  ends : ∃ deltas last, ofMessage es messageId = deltas ++ [last] ∧ last.isEnd = true ∧
    ∀ d ∈ deltas, d.isEnd = false
  own : ∀ e ∈ ofMessage es messageId, ofRow row e
  content : joined (ofMessage es messageId) = row.content

theorem joined_append (es es' : List MessageDelta) :
    joined (es ++ es') = joined es ++ joined es' := by
  rw [joined, List.map_append, String.join_append]
  rfl

theorem ofMessage_append (es es' : List MessageDelta) (messageId : String) :
    ofMessage (es ++ es') messageId = ofMessage es messageId ++ ofMessage es' messageId :=
  List.filter_append ..

theorem ofMessage_own (e : MessageDelta) : ofMessage [e] e.messageId = [e] :=
  List.filter_cons_of_pos (decide_eq_true rfl)

/-- Events of other messages are not looked at. -/
theorem ofMessage_others {es' : List MessageDelta} {messageId : String}
    (h : ∀ e ∈ es', e.messageId ≠ messageId) (es : List MessageDelta) :
    ofMessage (es ++ es') messageId = ofMessage es messageId := by
  have hnone : ofMessage es' messageId = [] :=
    List.filter_eq_nil_iff.mpr fun e he hid => h e he (of_decide_eq_true hid)
  rw [ofMessage_append, hnone, List.append_nil]

theorem Streamed.congr {es es' : List MessageDelta} {messageId : String} {row : Row}
    (h : Streamed es messageId row) (heq : ofMessage es' messageId = ofMessage es messageId) :
    Streamed es' messageId row :=
  ⟨by rw [heq]; exact h.going, by rw [heq]; exact h.content⟩

theorem Complete.congr {es es' : List MessageDelta} {messageId : String} {row : Row}
    (h : Complete es messageId row) (heq : ofMessage es' messageId = ofMessage es messageId) :
    Complete es' messageId row :=
  ⟨by rw [heq]; exact h.ends, by rw [heq]; exact h.own, by rw [heq]; exact h.content⟩

/-- Nothing was said under the id. -/
theorem streamed_new {es : List MessageDelta} {messageId : String}
    (hnew : ofMessage es messageId = []) (topicId senderId : String) (role : Role) :
    Streamed es messageId ⟨topicId, senderId, role, ""⟩ := by
  refine ⟨?_, ?_⟩
  · rw [hnew]
    exact fun e he => absurd he List.not_mem_nil
  · rw [hnew]
    rfl

/-- One delta more. -/
theorem Streamed.delta {es : List MessageDelta} {row : Row} {e : MessageDelta}
    (h : Streamed es e.messageId row) (hrow : ofRow row e) (hgoing : e.isEnd = false) :
    Streamed (es ++ [e]) e.messageId { row with content := row.content ++ e.delta } := by
  have heq : ofMessage (es ++ [e]) e.messageId = ofMessage es e.messageId ++ [e] := by
    rw [ofMessage_append, ofMessage_own]
  refine ⟨?_, ?_⟩
  · rw [heq]
    intro d hd
    rcases List.mem_append.mp hd with hd | hd
    · exact h.going d hd
    · rw [List.mem_singleton] at hd
      rw [hd]
      exact ⟨hrow, hgoing⟩
  · rw [heq, joined_append, h.content]
    rfl

/-- The end event. -/
theorem Streamed.finish {es : List MessageDelta} {row : Row} {e : MessageDelta}
    (h : Streamed es e.messageId row) (hrow : ofRow row e) (hend : e.isEnd = true)
    (hempty : e.delta = "") : Complete (es ++ [e]) e.messageId row := by
  have heq : ofMessage (es ++ [e]) e.messageId = ofMessage es e.messageId ++ [e] := by
    rw [ofMessage_append, ofMessage_own]
  refine ⟨⟨_, e, heq, hend, fun d hd => (h.going d hd).2⟩, ?_, ?_⟩
  · rw [heq]
    intro d hd
    rcases List.mem_append.mp hd with hd | hd
    · exact (h.going d hd).1
    · rw [List.mem_singleton] at hd
      exact hd ▸ hrow
  · have hlast : joined [e] = "" := by
      rw [joined, List.map_singleton, hempty]
      rfl
    rw [heq, joined_append, h.content, hlast, String.append_empty]

/-- A message that is over is not going on. -/
theorem Complete.not_streamed {es : List MessageDelta} {messageId : String} {row row' : Row}
    (h : Complete es messageId row) : ¬Streamed es messageId row' := by
  intro hgoing
  obtain ⟨deltas, last, heq, hend, -⟩ := h.ends
  have hlast := (hgoing.going last (heq ▸ List.mem_append_right _ (List.mem_singleton_self _))).2
  rw [hend] at hlast
  exact nomatch hlast

/-! ## The turns meanwhile -/

/-- What a turn does between its head and its end: the call of a live chair is made
or refused. -/
def Stage.Leads (b : Bridge) (stage stage' : Stage) : Prop :=
  stage' = stage ∨ (∃ claim, stage = .selected claim) ∧
    (stage' = .refused ∨ ∃ id st, stage' = .calling id ∧ b.streams.get? id = some st)

/-- Every turn is still there, and no call has lost a chunk. -/
structure Advances (s s' : State) : Prop where
  turns : ∀ n t, s.turns.get? n = some t → ∃ t', s'.turns.get? n = some t' ∧
    t'.speaker = t.speaker ∧ t'.topicId = t.topicId ∧ t.stage.Leads s'.bridge t'.stage
  chunks : ∀ id st, s.bridge.streams.get? id = some st →
    ∃ st', s'.bridge.streams.get? id = some st' ∧ st.chunks <+: st'.chunks

theorem Advances.of_turns {s s' : State} (hturns : s'.turns = s.turns)
    (hchunks : ∀ id st, s.bridge.streams.get? id = some st →
      ∃ st', s'.bridge.streams.get? id = some st' ∧ st.chunks <+: st'.chunks) :
    Advances s s' :=
  ⟨fun _ t ht => ⟨t, by rw [hturns]; exact ht, rfl, rfl, Or.inl rfl⟩, hchunks⟩

/-- `stream()` is called in a turn. -/
theorem dispatch_advances {env : Chair.Env} {s s' : State} (hs : Kept env s) {turn : Nat}
    {t : Turn} (ht : s.turns.get? turn = some t) {i : Chair.StartInput}
    (hstep : s.dispatch turn t i = some s') : Advances s s' := by
  unfold State.dispatch at hstep
  split at hstep
  next claim hstage =>
    split at hstep
    next => exact nomatch hstep
    next hid =>
      obtain ⟨-, hhas⟩ := not_or.mp hid
      obtain ⟨b, hstart, rfl⟩ := Option.map_eq_some_iff.mp hstep
      obtain ⟨-, hcases⟩ := Chair.start_told hs.told
        (fun id st hst he =>
          hs.selected turn t claim ht hstage id (by rw [hst]; exact congrArg some he))
        hstart
      refine ⟨?_, ?_⟩
      · intro n t' ht'
        by_cases hn : n = turn
        · rw [hn, ht, Option.some.injEq] at ht'
          rw [← ht']
          refine ⟨_, (OrderedMap.get?_set ..).trans (if_pos hn), rfl, rfl,
            Or.inr ⟨⟨claim, hstage⟩, ?_⟩⟩
          by_cases hfiled : b.streams.has i.requestId = true
          · obtain ⟨st, hst⟩ := (OrderedMap.has_iff ..).mp hfiled
            exact Or.inr ⟨i.requestId, st, if_pos hfiled, hst⟩
          · exact Or.inl (if_neg hfiled)
        · exact ⟨t', (OrderedMap.get?_set_ne _ _ hn).trans ht', rfl, rfl, Or.inl rfl⟩
      · intro id st hst
        rcases hcases with ⟨hsilent, -⟩ | ⟨hfiles, -⟩
        · exact hsilent.chunks id st hst
        · have hother : id ≠ i.requestId := by
            intro heq
            obtain rfl := heq
            exact hhas ((OrderedMap.has_iff ..).mpr ⟨st, hst⟩)
          exact ⟨st, (hfiles.others id hother).trans hst, List.prefix_refl _⟩
  next => exact nomatch hstep

/-- Neither the head of a turn nor its end. -/
theorem step_advances {env : Chair.Env} {s s' : State} (hs : Kept env s) {e : Event}
    (he : e.advances = true) (hstep : step env s e = some s') : Advances s s' := by
  cases e with
  | head => cases he
  | ended => cases he
  | dispatch turn i =>
    obtain ⟨t, ht, hstep⟩ := Option.bind_eq_some_iff.mp hstep
    exact dispatch_advances hs ht hstep
  | bridge e =>
    rw [step] at hstep
    split at hstep
    next => cases hstep
    next hother =>
      obtain ⟨b, hb, rfl⟩ := Option.map_eq_some_iff.mp hstep
      obtain ⟨-, hsilent⟩ :=
        Chair.step_told hs.wired hs.told (Bool.eq_false_iff.mpr hother) hb
      exact .of_turns rfl hsilent.chunks
  | lapsed now agentId =>
    rw [step, Option.some.injEq] at hstep
    rw [← hstep]
    exact .of_turns rfl fun _ st hst => ⟨st, hst, List.prefix_refl _⟩

/-- The turn is over, and nothing else has changed that a message reads. -/
theorem ended_turns {env : Chair.Env} {s s' : State} {now : Int} {turn : Nat} {throws : Bool}
    (hstep : step env s (.ended now turn throws) = some s') :
    s'.turns = s.turns.delete turn ∧ s'.bridge = s.bridge := by
  obtain ⟨t, -, hstep⟩ := Option.bind_eq_some_iff.mp hstep
  obtain ⟨e, -, rfl⟩ := Option.map_eq_some_iff.mp hstep
  cases e with
  | none => exact ⟨rfl, rfl⟩
  | some e => exact ⟨rfl, rfl⟩

/-! ## The invariant -/

/-- What a turn has streamed by now: the chunks taken from its call, or nothing. -/
def Taken (b : Bridge) (stage : Stage) (m : OpenMessage) : Prop :=
  match stage with
  | .standIn => True
  | .calling id => ∃ st, b.streams.get? id = some st ∧ m.taken ≤ st.chunks.length ∧
      m.accumulatedContent = String.join ((st.chunks.take m.taken).map Chair.Chunk.delta)
  | .selected _ | .refused => m.taken = 0 ∧ m.accumulatedContent = ""

/-- An open message is its turn's, and holds what was streamed of it. -/
structure Streaming (s : Floor) (t : Turn) (m : OpenMessage) : Prop where
  streamed : Streamed s.emitted m.messageId
    ⟨t.topicId, t.speaker, .assistant, m.accumulatedContent⟩
  taken : Taken s.turns.bridge t.stage m

theorem Turn.stage_of_call (t : Turn) {id : String} (h : t.call = some id) :
    t.stage = .calling id := by
  unfold Turn.call at h
  split at h
  next hstage => rw [hstage, Option.some.inj h]
  next => exact nomatch h

/-- What the messages, the events and the rows say of each other. -/
structure Faithful (env : Chair.Env) (s : Floor) : Prop where
  kept : Kept env s.turns
  opened : ∀ n m, s.messages.get? n = some m →
    ∃ t, s.turns.turns.get? n = some t ∧ Streaming s t m
  distinct : ∀ n n' m m', s.messages.get? n = some m → s.messages.get? n' = some m' →
    m.messageId = m'.messageId → n = n'
  complete : ∀ messageId row, (messageId, row) ∈ s.rows → Complete s.emitted messageId row

/-- A call that goes on has given its first chunks as before. -/
theorem Taken.leads {b b' : Bridge} {stage stage' : Stage} {m : OpenMessage}
    (h : Taken b stage m) (hleads : stage.Leads b' stage')
    (hchunks : ∀ id st, b.streams.get? id = some st →
      ∃ st', b'.streams.get? id = some st' ∧ st.chunks <+: st'.chunks) : Taken b' stage' m := by
  rcases hleads with rfl | ⟨⟨claim, rfl⟩, rfl | ⟨id, st, rfl, hst⟩⟩
  · unfold Taken at h ⊢
    split
    next => exact h
    next id =>
      obtain ⟨st, hst, htaken, hcontent⟩ := h
      obtain ⟨st', hst', hprefix⟩ := hchunks id st hst
      refine ⟨st', hst', htaken.trans hprefix.length_le, ?_⟩
      obtain ⟨rest, hrest⟩ := hprefix
      rw [hcontent, ← hrest, List.take_append_of_le_length htaken]
    next => exact h
    next => exact h
  · exact h
  · obtain ⟨htaken, hcontent⟩ := h
    refine ⟨st, hst, htaken ▸ Nat.zero_le _, ?_⟩
    rw [htaken, hcontent]
    rfl

/-- The turns and calls go on. -/
theorem Faithful.advance {env : Chair.Env} {s : Floor} (h : Faithful env s) {turns : State}
    (hkept : Kept env turns) (hadvances : Advances s.turns turns) :
    Faithful env { s with turns := turns } where
  kept := hkept
  opened n m hm := by
    obtain ⟨t, ht, hstreaming⟩ := h.opened n m hm
    obtain ⟨t', ht', hspeaker, htopic, hleads⟩ := hadvances.turns n t ht
    refine ⟨t', ht', ?_, hstreaming.taken.leads hleads hadvances.chunks⟩
    rw [hspeaker, htopic]
    exact hstreaming.streamed
  distinct := h.distinct
  complete := h.complete

/-- Something else is said meanwhile. -/
theorem Streaming.others {s s' : Floor} {t : Turn} {m : OpenMessage} (h : Streaming s t m)
    (hbridge : s'.turns.bridge = s.turns.bridge)
    (heq : ofMessage s'.emitted m.messageId = ofMessage s.emitted m.messageId) :
    Streaming s' t m :=
  ⟨h.streamed.congr heq, hbridge ▸ h.taken⟩

/-- Fresh ids are not those of earlier messages. -/
theorem fresh_of_known {s : Floor} {messageId : String} (hnew : s.known messageId = false) :
    ofMessage s.emitted messageId = [] ∧
      ∀ n m, s.messages.get? n = some m → m.messageId ≠ messageId := by
  obtain ⟨hmessages, hemitted⟩ := Bool.or_eq_false_iff.mp hnew
  rw [List.any_eq_false] at hmessages hemitted
  refine ⟨List.filter_eq_nil_iff.mpr hemitted, ?_⟩
  intro n m hm hid
  exact hmessages m ((OrderedMap.mem_values_iff ..).mpr ⟨n, hm⟩) (decide_eq_true hid)

/-- A message that is over has been said. -/
theorem Complete.ne_fresh {es : List MessageDelta} {messageId messageId' : String} {row : Row}
    (h : Complete es messageId row) (hnew : ofMessage es messageId' = []) :
    messageId ≠ messageId' := by
  intro heq
  obtain rfl := heq
  obtain ⟨deltas, last, heq, -⟩ := h.ends
  rw [hnew] at heq
  exact List.append_ne_nil_of_right_ne_nil deltas (List.cons_ne_nil last []) heq.symm

/-- Events of one message leave the others alone. -/
theorem others_of_own {es' : List MessageDelta} {messageId : String}
    (hown : ∀ e ∈ es', e.messageId = messageId) (es : List MessageDelta) {k : String}
    (hk : k ≠ messageId) : ofMessage (es ++ es') k = ofMessage es k := by
  refine ofMessage_others ?_ es
  intro e he
  rw [hown e he]
  exact hk.symm

/-- A message that is no open turn's is brought to its end, and posted or not. -/
theorem Faithful.complete_message {env : Chair.Env} {s : Floor} (h : Faithful env s)
    {messageId : String} {es' : List MessageDelta} {row : Row}
    (hown : ∀ e ∈ es', e.messageId = messageId)
    (hmessages : ∀ n m, s.messages.get? n = some m → m.messageId ≠ messageId)
    (hrows : ∀ row', (messageId, row') ∉ s.rows)
    (hdone : Complete (s.emitted ++ es') messageId row) (postThrows : Bool) :
    Faithful env
      { s with
        emitted := s.emitted ++ es'
        rows := s.rows ++ if postThrows then [] else [(messageId, row)] } := by
  refine ⟨h.kept, ?_, h.distinct, ?_⟩
  · intro n m hm
    obtain ⟨t, ht, hstreaming⟩ := h.opened n m hm
    exact ⟨t, ht, hstreaming.others rfl (others_of_own hown _ (hmessages n m hm))⟩
  · intro k row' hrow
    rcases List.mem_append.mp hrow with hold | hin
    · refine (h.complete k row' hold).congr (others_of_own hown _ ?_)
      intro heq
      obtain rfl := heq
      exact hrows row' hold
    · split at hin
      next => exact absurd hin List.not_mem_nil
      next =>
        rw [List.mem_singleton, Prod.mk.injEq] at hin
        obtain ⟨rfl, rfl⟩ := hin
        exact hdone

/-- One thing is said at once, under a fresh id. -/
theorem Faithful.say {env : Chair.Env} {s : Floor} (h : Faithful env s) {messageId : String}
    (hnew : s.known messageId = false) (topicId senderId : String) (role : Role) (content : String)
    (postThrows : Bool) :
    Faithful env (s.say messageId topicId senderId role content postThrows) := by
  obtain ⟨hempty, hmessages⟩ := fresh_of_known hnew
  let first : MessageDelta := ⟨topicId, messageId, senderId, role, content, false⟩
  let last : MessageDelta := ⟨topicId, messageId, senderId, role, "", true⟩
  have hgoing : Streamed (s.emitted ++ [first]) messageId
      ⟨topicId, senderId, role, "" ++ content⟩ :=
    Streamed.delta (e := first) (streamed_new hempty topicId senderId role) ⟨rfl, rfl, rfl⟩ rfl
  have hdone : Complete (s.emitted ++ [first] ++ [last]) messageId
      ⟨topicId, senderId, role, "" ++ content⟩ :=
    Streamed.finish (e := last) hgoing ⟨rfl, rfl, rfl⟩ rfl rfl
  rw [String.empty_append, List.append_assoc] at hdone
  refine h.complete_message ?_ hmessages ?_ hdone postThrows
  · intro e he
    rcases List.mem_pair.mp he with rfl | rfl
    · rfl
    · rfl
  · intro row hrow
    exact (h.complete _ row hrow).ne_fresh hempty rfl

/-- The stream of a turn that is over has ended. -/
theorem Faithful.finish {env : Chair.Env} {s : Floor} (h : Faithful env s) {t : Turn}
    {m : OpenMessage} (hmessages : ∀ n m', s.messages.get? n = some m' → m'.messageId ≠ m.messageId)
    (hstreamed : Streamed s.emitted m.messageId
      ⟨t.topicId, t.speaker, .assistant, m.accumulatedContent⟩) (throws : Bool) :
    Faithful env (s.finish t m throws) := by
  let last : MessageDelta := ⟨t.topicId, m.messageId, t.speaker, .assistant, "", true⟩
  refine h.complete_message ?_ hmessages ?_
    (Streamed.finish (e := last) hstreamed ⟨rfl, rfl, rfl⟩ rfl rfl) throws
  · intro e he
    rw [List.mem_singleton.mp he]
  · intro row hrow
    exact (h.complete _ row hrow).not_streamed hstreamed

/-- A turn that streams has begun, under a fresh id. -/
theorem Faithful.openMessage {env : Chair.Env} {s : Floor} (h : Faithful env s)
    {messageId : String} (hnew : s.known messageId = false) {turns : State} {t : Turn} {n : Nat}
    (hkept : Kept env turns) (hbridge : turns.bridge = s.turns.bridge)
    (hold : ∀ k t, s.turns.turns.get? k = some t → turns.turns.get? k = some t)
    (ht : turns.turns.get? n = some t) (hcall : t.call = none) :
    Faithful env
      { s with turns := turns, messages := s.messages.set n ⟨messageId, "", 0⟩ } := by
  obtain ⟨hempty, hmessages⟩ := fresh_of_known hnew
  refine ⟨hkept, ?_, ?_, h.complete⟩
  · intro k m hm
    rcases OrderedMap.get?_set_some hm with ⟨rfl, rfl⟩ | ⟨-, hm⟩
    · refine ⟨t, ht, streamed_new hempty _ _ _, ?_⟩
      unfold Taken
      unfold Turn.call at hcall
      split
      next => trivial
      next hstage =>
        rw [hstage] at hcall
        exact nomatch hcall
      next => exact ⟨rfl, rfl⟩
      next => exact ⟨rfl, rfl⟩
    · obtain ⟨t', ht', hstreaming⟩ := h.opened k m hm
      exact ⟨t', hold k t' ht', hstreaming.others hbridge rfl⟩
  · intro k k' m m' hm hm' hid
    rcases OrderedMap.get?_set_some hm with ⟨rfl, rfl⟩ | ⟨-, hm₀⟩
    · rcases OrderedMap.get?_set_some hm' with ⟨rfl, -⟩ | ⟨-, hm₀'⟩
      · rfl
      · exact absurd hid.symm (hmessages k' m' hm₀')
    · rcases OrderedMap.get?_set_some hm' with ⟨rfl, rfl⟩ | ⟨-, hm₀'⟩
      · exact absurd hid (hmessages k m hm₀)
      · exact h.distinct k k' m m' hm₀ hm₀' hid

/-- A turn takes a chunk. -/
theorem Faithful.take {env : Chair.Env} {s : Floor} (h : Faithful env s) {turn : Nat} {t : Turn}
    {m : OpenMessage} (ht : s.turns.turns.get? turn = some t)
    (hm : s.messages.get? turn = some m) {delta : String}
    (htaken : Taken s.turns.bridge t.stage
      { m with accumulatedContent := m.accumulatedContent ++ delta, taken := m.taken + 1 }) :
    Faithful env (s.take turn t m delta) := by
  let e : MessageDelta := ⟨t.topicId, m.messageId, t.speaker, .assistant, delta, false⟩
  obtain ⟨t₀, ht₀, hstreaming⟩ := h.opened turn m hm
  rw [ht, Option.some.injEq] at ht₀
  subst ht₀
  have hothers : ∀ k, k ≠ m.messageId → ofMessage (s.emitted ++ [e]) k = ofMessage s.emitted k :=
    fun k hk => others_of_own (fun d hd => by rw [List.mem_singleton.mp hd]) _ hk
  refine ⟨h.kept, ?_, ?_, ?_⟩
  · intro n m' hm'
    rcases OrderedMap.get?_set_some hm' with ⟨rfl, rfl⟩ | ⟨hne, hm'⟩
    · exact ⟨t, ht, Streamed.delta (e := e) hstreaming.streamed ⟨rfl, rfl, rfl⟩ rfl, htaken⟩
    · obtain ⟨t', ht', hother⟩ := h.opened n m' hm'
      refine ⟨t', ht', hother.others rfl (hothers _ ?_)⟩
      exact fun hid => hne (h.distinct n turn m' m hm' hm hid)
  · have hids : ∀ n m', (s.take turn t m delta).messages.get? n = some m' →
        ∃ m₀, s.messages.get? n = some m₀ ∧ m₀.messageId = m'.messageId := by
      intro n m' hm'
      rcases OrderedMap.get?_set_some hm' with ⟨rfl, rfl⟩ | ⟨-, hm'⟩
      · exact ⟨m, hm, rfl⟩
      · exact ⟨m', hm', rfl⟩
    intro n n' m₁ m₂ hm₁ hm₂ hid
    obtain ⟨m₁', hm₁', hid₁⟩ := hids n m₁ hm₁
    obtain ⟨m₂', hm₂', hid₂⟩ := hids n' m₂ hm₂
    exact h.distinct n n' m₁' m₂' hm₁' hm₂' (by rw [hid₁, hid₂, hid])
  · intro k row hrow
    have hcomplete := h.complete k row hrow
    refine hcomplete.congr (hothers k ?_)
    intro heq
    obtain rfl := heq
    exact hcomplete.not_streamed hstreaming.streamed

/-- The turn and its message are gone. -/
theorem Faithful.close {env : Chair.Env} {s : Floor} (h : Faithful env s) {turn : Nat}
    {turns : State} (hkept : Kept env turns) (hturns : turns.turns = s.turns.turns.delete turn)
    (hbridge : turns.bridge = s.turns.bridge) :
    Faithful env { s with turns := turns, messages := s.messages.delete turn } where
  kept := hkept
  opened n m hm := by
    obtain ⟨hne, hm⟩ := OrderedMap.get?_delete_some hm
    obtain ⟨t, ht, hstreaming⟩ := h.opened n m hm
    refine ⟨t, ?_, hstreaming.others hbridge rfl⟩
    rw [hturns, OrderedMap.get?_delete_ne _ hne]
    exact ht
  distinct n n' m m' hm hm' hid :=
    h.distinct n n' m m' (OrderedMap.get?_delete_some hm).2 (OrderedMap.get?_delete_some hm').2 hid
  complete := h.complete

/-! ## Every step -/

theorem Faithful.init {env : Chair.Env} (cfg : Chair.CircuitBreakerConfig) :
    Faithful env (.init cfg) where
  kept := Kept.init cfg
  opened _ _ h := nomatch h
  distinct _ _ _ _ h := nomatch h
  complete _ _ h := absurd h List.not_mem_nil

/-- A head leaves the turns and the calls that there are. -/
theorem head_keeps {env : Chair.Env} {s : State} (hs : Kept env s) (now : Int)
    (speaker topicId : String) (claim : Option Presence.ChairClaim) (requireLiveChairs : Bool) :
    (s.head now speaker topicId claim requireLiveChairs).bridge = s.bridge ∧
      ∀ n t, s.turns.get? n = some t →
        (s.head now speaker topicId claim requireLiveChairs).turns.get? n = some t := by
  have hopen : ∀ (t' : Turn) n t, s.turns.get? n = some t →
      (s.turns.set s.nextTurn t').get? n = some t := by
    intro t' n t ht
    rw [OrderedMap.get?_set_ne _ _ (Nat.ne_of_lt (hs.known n t ht))]
    exact ht
  unfold State.head
  dsimp only
  split
  next => exact ⟨rfl, hopen _⟩
  next => exact ⟨rfl, fun _ _ ht => ht⟩
  next => exact ⟨rfl, hopen _⟩
  next => exact ⟨rfl, fun _ _ ht => ht⟩

/-- The turn that a head has opened. -/
theorem head_opens (s : State) (now : Int) (speaker topicId : String)
    (claim : Option Presence.ChairClaim) (requireLiveChairs : Bool)
    (h : (Conversation.select (headInput claim (s.gate now speaker claim).1 requireLiveChairs)
        = .live ∧ claim.isSome) ∨
      Conversation.select (headInput claim (s.gate now speaker claim).1 requireLiveChairs)
        = .localFallback) :
    ∃ t, (s.head now speaker topicId claim requireLiveChairs).turns.get? s.nextTurn = some t ∧
      t.call = none := by
  unfold State.head
  dsimp only
  rcases h with ⟨hlive, hclaim⟩ | hlocal
  · obtain ⟨c, rfl⟩ := Option.isSome_iff_exists.mp hclaim
    rw [hlive]
    exact ⟨_, OrderedMap.get?_set_self .., rfl⟩
  · rw [hlocal]
    exact ⟨_, OrderedMap.get?_set_self .., rfl⟩

/-- A turn begins, or is over at once. -/
theorem Faithful.head {env : Chair.Env} {s s' : Floor} (h : Faithful env s) {messageId : String}
    {postThrows : Bool} {now : Int} {speaker topicId : String}
    {claim : Option Presence.ChairClaim} {requireLiveChairs : Bool}
    (hstep : floorStep env s
      (.head messageId postThrows now speaker topicId claim requireLiveChairs) = some s') :
    Faithful env s' := by
  rw [floorStep] at hstep
  split at hstep
  next => exact nomatch hstep
  next hknown =>
    have hnew := Bool.eq_false_iff.mpr hknown
    have hkept := (head_change h.kept now speaker topicId claim requireLiveChairs).1
    obtain ⟨hbridge, hold⟩ := head_keeps h.kept now speaker topicId claim requireLiveChairs
    have hafter : Faithful env
        { s with turns := s.turns.head now speaker topicId claim requireLiveChairs } := by
      refine h.advance hkept ⟨fun n t ht => ⟨t, hold n t ht, rfl, rfl, Or.inl rfl⟩, ?_⟩
      intro id st hst
      exact ⟨st, by rw [hbridge]; exact hst, List.prefix_refl _⟩
    have hopen := head_opens s.turns now speaker topicId claim requireLiveChairs
    dsimp only at hstep
    split at hstep
    next =>
      rw [Option.some.injEq] at hstep
      exact hstep ▸ hafter.say hnew topicId speaker .assistant _ postThrows
    next c hlive =>
      rw [Option.some.injEq] at hstep
      obtain ⟨t, ht, hcall⟩ := hopen (Or.inl ⟨hlive, rfl⟩)
      exact hstep ▸ h.openMessage hnew hkept hbridge hold ht hcall
    next hlocal =>
      rw [Option.some.injEq] at hstep
      obtain ⟨t, ht, hcall⟩ := hopen (Or.inr hlocal)
      exact hstep ▸ h.openMessage hnew hkept hbridge hold ht hcall
    next =>
      rw [Option.some.injEq] at hstep
      exact hstep ▸ hafter

/-- A turn takes the next chunk of its stream. -/
theorem Faithful.chunk {env : Chair.Env} {s s' : Floor} (h : Faithful env s) {turn : Nat}
    {delta : String} (hstep : floorStep env s (.chunk turn delta) = some s') :
    Faithful env s' := by
  obtain ⟨t, ht, hstep⟩ := Option.bind_eq_some_iff.mp hstep
  obtain ⟨m, hm, hstep⟩ := Option.bind_eq_some_iff.mp hstep
  split at hstep
  next hstage =>
    rw [Option.some.injEq] at hstep
    refine hstep ▸ h.take ht hm ?_
    rw [hstage]
    trivial
  next id hstage =>
    obtain ⟨c, hc, rfl⟩ := Option.map_eq_some_iff.mp hstep
    obtain ⟨st, hst, hc⟩ := Option.bind_eq_some_iff.mp hc
    obtain ⟨t₀, ht₀, hstreaming⟩ := h.opened turn m hm
    rw [ht, Option.some.injEq] at ht₀
    have htaken := hstreaming.taken
    rw [← ht₀, hstage] at htaken
    obtain ⟨st₀, hst₀, -, hcontent⟩ := htaken
    rw [hst, Option.some.injEq] at hst₀
    rw [← hst₀] at hcontent
    obtain ⟨hlt, -⟩ := List.getElem?_eq_some_iff.mp hc
    refine h.take ht hm ?_
    rw [hstage]
    refine ⟨st, hst, hlt, ?_⟩
    dsimp only
    rw [List.take_add_one, hc, List.map_append, String.join_append, hcontent]
    exact congrArg _ String.empty_append.symm
  next => exact nomatch hstep

/-- Every step. -/
theorem floorStep_faithful {env : Chair.Env} {s s' : Floor} (h : Faithful env s) {e : FloorEvent}
    (hstep : floorStep env s e = some s') : Faithful env s' := by
  cases e with
  | head messageId postThrows now speaker topicId claim requireLiveChairs => exact h.head hstep
  | advance e =>
    rw [floorStep] at hstep
    split at hstep
    next he =>
      obtain ⟨turns, hturns, rfl⟩ := Option.map_eq_some_iff.mp hstep
      exact h.advance (step_change h.kept hturns).1 (step_advances h.kept he hturns)
    next => exact nomatch hstep
  | chunk turn delta => exact h.chunk hstep
  | ended now turn throws =>
    obtain ⟨t, ht, hstep⟩ := Option.bind_eq_some_iff.mp hstep
    obtain ⟨m, hm, hstep⟩ := Option.bind_eq_some_iff.mp hstep
    obtain ⟨spoke, -, hstep⟩ := Option.bind_eq_some_iff.mp hstep
    obtain ⟨turns, hturns, rfl⟩ := Option.map_eq_some_iff.mp hstep
    obtain ⟨t₀, ht₀, hstreaming⟩ := h.opened turn m hm
    rw [ht, Option.some.injEq] at ht₀
    subst ht₀
    obtain ⟨hdelete, hbridge⟩ := ended_turns hturns
    have hclosed := h.close (step_change h.kept hturns).1 hdelete hbridge
    cases spoke with
    | false => exact hclosed
    | true =>
      refine hclosed.finish (t := t) (m := m) ?_ hstreaming.streamed throws
      intro n m' hm' hid
      obtain ⟨hne, hm'⟩ := OrderedMap.get?_delete_some hm'
      exact hne (h.distinct n turn m' m hm' hm hid)
  | convenerResult messageId topicId content postThrows =>
    rw [floorStep] at hstep
    split at hstep
    next => exact nomatch hstep
    next hknown =>
      rw [Option.some.injEq] at hstep
      exact hstep ▸
        h.say (Bool.eq_false_iff.mpr hknown) topicId "convener" .system content postThrows
  | deliver =>
    rw [floorStep] at hstep
    split at hstep
    next =>
      rw [Option.some.injEq] at hstep
      rw [← hstep]
      refine ⟨h.kept, ?_, h.distinct, h.complete⟩
      intro n m hm
      obtain ⟨t, ht, hstreaming⟩ := h.opened n m hm
      exact ⟨t, ht, hstreaming.others rfl rfl⟩
    next => exact nomatch hstep

theorem reachable_faithful {env : Chair.Env} {cfg : Chair.CircuitBreakerConfig} {s : Floor}
    (hreach : (streaming env cfg).Reachable s) : Faithful env s :=
  Lts.reachable_invariant (I := Faithful env) (Faithful.init cfg)
    (fun _ _ _ hs hstep => floorStep_faithful hs hstep) hreach

/-! ## Transparency -/

/-- The end event has come, so every event of the message has. -/
theorem Complete.all_delivered {es : List MessageDelta} {messageId : String} {row : Row}
    (h : Complete es messageId row) {d : Nat}
    (hend : ∃ e ∈ es.take d, e.messageId = messageId ∧ e.isEnd = true) :
    ofMessage (es.take d) messageId = ofMessage es messageId := by
  obtain ⟨deltas, last, heq, -, hgoing⟩ := h.ends
  obtain ⟨e, he, hid, hend⟩ := hend
  have hsplit : ofMessage (es.take d) messageId ++ ofMessage (es.drop d) messageId
      = deltas ++ [last] := by
    rw [← ofMessage_append, List.take_append_drop, heq]
  have hin : e ∈ ofMessage (es.take d) messageId := List.mem_filter.mpr ⟨he, decide_eq_true hid⟩
  rw [heq]
  rcases List.eq_nil_or_concat (ofMessage (es.drop d) messageId) with hnil | ⟨rest, x, hrest⟩
  · rw [← hsplit, hnil, List.append_nil]
  · -- otherwise the end event would be among the deltas
    rw [hrest, List.concat_eq_append, ← List.append_assoc] at hsplit
    obtain ⟨hdeltas, -⟩ := List.append_inj' hsplit rfl
    have hnot := hgoing e (hdeltas ▸ List.mem_append_left _ hin)
    rw [hend] at hnot
    exact nomatch hnot

/-- A message that has come in full is shown in full. -/
theorem Complete.shown {es : List MessageDelta} {messageId : String} {row : Row}
    (h : Complete es messageId row) {d : Nat} (hlimit : WithinLimit (es.take d))
    (hend : ∃ e ∈ es.take d, e.messageId = messageId ∧ e.isEnd = true) :
    contentOf (deliver (es.take d)) row.topicId messageId = some row.content := by
  have hall := h.all_delivered hend
  have hreceived : received (es.take d) row.topicId messageId = ofMessage es messageId := by
    rw [← hall]
    refine List.filter_congr ?_
    intro e he
    rw [decide_eq_decide, and_iff_right_iff_imp]
    intro hid
    have hin : e ∈ ofMessage es messageId :=
      List.mem_filter.mpr ⟨List.mem_of_mem_take he, decide_eq_true hid⟩
    exact (h.own e hin).1
  obtain ⟨deltas, last, heq, -⟩ := h.ends
  have hsome : ofMessage es messageId ≠ [] := by
    rw [heq]
    exact List.append_ne_nil_of_right_ne_nil _ (List.cons_ne_nil _ _)
  rw [Cockpit.contentOf_deliver hlimit, hreceived, if_neg hsome]
  exact congrArg some h.content

/-- What a turn has streamed of a call that was played back and not aborted. -/
theorem Faithful.accumulated {env : Chair.Env} {s : Floor} (h : Faithful env s) {turn : Nat}
    {t : Turn} {m : OpenMessage} {id : String} {st : Chair.Stream}
    (ht : s.turns.turns.get? turn = some t) (hstage : t.stage = .calling id)
    (hm : s.messages.get? turn = some m) (hst : s.turns.bridge.streams.get? id = some st)
    (hphase : st.phase = .returned) (haborted : st.aborted = false)
    (hall : m.taken = st.chunks.length) :
    ∃ input receipt, (input, .ok receipt) ∈ s.turns.bridge.submissions ∧
      input.requestId = id ∧ m.accumulatedContent = input.content.getD "" := by
  obtain ⟨t₀, ht₀, hstreaming⟩ := h.opened turn m hm
  rw [ht, Option.some.injEq] at ht₀
  have htaken := hstreaming.taken
  rw [← ht₀, hstage] at htaken
  obtain ⟨st₀, hst₀, -, hcontent⟩ := htaken
  rw [hst, Option.some.injEq] at hst₀
  rw [← hst₀, hall, List.take_length] at hcontent
  have hok := h.kept.wired.ok id st hst
  obtain ⟨input, receipt, hin, hid, hans⟩ := h.kept.wired.answered id st hst
    (Chair.settled_with_reply hok (Or.inl hphase))
  refine ⟨input, receipt, hin, hid, ?_⟩
  have hph := hok.phased
  rw [Chair.Phased] at hph
  simp only [hphase] at hph
  obtain ⟨-, reply, -, hreply, -⟩ := hph
  have hreplied := hans.reply
  rw [hreply, Chair.replyOf] at hreplied
  have htext : st.text = reply.content := (Chair.text_of_returned hok hphase hreply).2 haborted
  split at hreplied
  next => cases hreplied
  next =>
    rw [Chair.ReplyPromise.resolved.injEq] at hreplied
    rw [hcontent]
    exact htext.trans (congrArg Chair.ResolvedChairReply.content hreplied)

/-- Streaming is transparent. In every reachable state, whatever messages were streamed
side by side: a row's message has one end event, after all its deltas, and the deltas
make the row's content; once the end event has reached a cockpit within its limit, the
cockpit has the same content. A turn that ends with the reply of a chair that was not
aborted is posted with the reply's own text. -/
theorem streaming_transparent (env : Chair.Env) (cfg : Chair.CircuitBreakerConfig) (s : Floor)
    (hreach : (streaming env cfg).Reachable s) :
    (∀ messageId row, (messageId, row) ∈ s.rows →
      Complete s.emitted messageId row ∧
        (WithinLimit (s.emitted.take s.delivered) →
          (∃ e ∈ s.emitted.take s.delivered, e.messageId = messageId ∧ e.isEnd = true) →
          contentOf s.cockpit row.topicId messageId = some row.content)) ∧
    (∀ now turn t m id st s', s.turns.turns.get? turn = some t → t.stage = .calling id →
      s.messages.get? turn = some m → s.turns.bridge.streams.get? id = some st →
      st.phase = .returned → st.aborted = false →
      floorStep env s (.ended now turn false) = some s' →
      ∃ input receipt, (input, .ok receipt) ∈ s.turns.bridge.submissions ∧
        input.requestId = id ∧
        s'.rows = s.rows ++
          [(m.messageId, ⟨t.topicId, t.speaker, .assistant, input.content.getD ""⟩)]) := by
  have hs := reachable_faithful hreach
  constructor
  · intro messageId row hrow
    have hcomplete := hs.complete messageId row hrow
    exact ⟨hcomplete, hcomplete.shown⟩
  · intro now turn t m id st s' ht hstage hm hst hphase haborted hstep
    rw [floorStep, ht, Option.bind_some, hm, Option.bind_some] at hstep
    obtain ⟨spoke, hspoke, hstep⟩ := Option.bind_eq_some_iff.mp hstep
    obtain ⟨turns, -, rfl⟩ := Option.map_eq_some_iff.mp hstep
    unfold Floor.finished at hspoke
    simp only [hstage, hst, Option.bind_some, hphase] at hspoke
    split at hspoke
    next hall =>
      obtain ⟨input, receipt, hin, hid, hcontent⟩ :=
        hs.accumulated ht hstage hm hst hphase haborted hall
      refine ⟨input, receipt, hin, hid, ?_⟩
      rw [← Option.some.inj hspoke, ← hcontent]
      rfl
    next => exact nomatch hspoke

/-! ## A reply of two words -/

def sampleFloor : Lts Floor FloorEvent :=
  streaming Chair.sampleEnv Chair.defaultCircuitBreakerConfig

/-- The chair's reply has been played back, and the turn has taken all of it. -/
def samplePlayback : List FloorEvent :=
  [.head "message-1" false 0 "shaev" "topic" (some sampleClaim) true] ++
    ([Event.dispatch 0 Chair.sampleStart,
      .bridge (.submit (fun _ => 5) (Chair.sampleReply .succeeded)),
      .bridge (.fetchDone 10 Chair.sampleRequest (.response 200)),
      .bridge (.postSettles 10 Chair.sampleRequest), .bridge (.wake 11 Chair.sampleRequest),
      .bridge (.play 20 Chair.sampleRequest), .bridge (.play 30 Chair.sampleRequest),
      .bridge (.play 40 Chair.sampleRequest)].map FloorEvent.advance) ++
    [.chunk 0 "", .chunk 0 "", .chunk 0 ""]

/-- The turn has ended, and the cockpit has every event. -/
def sampleShown : List FloorEvent :=
  samplePlayback ++ [.ended 50 0 false, .deliver, .deliver, .deliver, .deliver]

/-- The row of the turn. -/
def sampleRow : Row := ⟨"topic", "shaev", .assistant, "two words"⟩

/-- The reply is streamed, posted and shown in its own words. -/
theorem reply_shown :
    (∃ s, sampleFloor.exec sampleFloor.init sampleShown = some s ∧ s.rows = [("message-1", sampleRow)] ∧
      contentOf s.cockpit "topic" "message-1" = some "two words") ∧
    ∃ s s' input receipt, sampleFloor.exec sampleFloor.init samplePlayback = some s ∧
      floorStep Chair.sampleEnv s (.ended 50 0 false) = some s' ∧
      (input, .ok receipt) ∈ s.turns.bridge.submissions ∧ input.requestId = Chair.sampleRequest ∧
      s'.rows = s.rows ++ [("message-1", ⟨"topic", "shaev", .assistant, input.content.getD ""⟩)] := by
  constructor
  · have hend : (sampleFloor.exec sampleFloor.init sampleShown).map
        (fun s => (s.rows, (s.emitted.take s.delivered).length,
          (s.emitted.take s.delivered).any fun e => e.messageId = "message-1" ∧ e.isEnd = true))
        = some ([("message-1", sampleRow)], 4, true) := by
      decide +kernel
    obtain ⟨s, hrun, heq⟩ := Option.map_eq_some_iff.mp hend
    rw [Prod.mk.injEq, Prod.mk.injEq, List.any_eq_true] at heq
    obtain ⟨hrows, hlength, e, he, hlast⟩ := heq
    refine ⟨s, hrun, hrows, ?_⟩
    refine ((streaming_transparent _ _ s ⟨_, hrun⟩).1 "message-1" sampleRow ?_).2 ?_ ?_
    · rw [hrows]
      exact List.mem_singleton_self _
    · exact Cockpit.withinLimit_of_length (by rw [hlength]; decide)
    · exact ⟨e, he, of_decide_eq_true hlast⟩
  · have hend : ((sampleFloor.exec sampleFloor.init samplePlayback).bind fun s =>
        (floorStep Chair.sampleEnv s (.ended 50 0 false)).bind fun s' =>
          (s.turns.turns.get? 0).bind fun t => (s.messages.get? 0).bind fun m =>
            (s.turns.bridge.streams.get? Chair.sampleRequest).bind fun st =>
              if st.phase = .returned ∧ st.aborted = false then
                some (t.call, t.topicId, t.speaker, m.messageId)
              else none)
        = some (some Chair.sampleRequest, "topic", "shaev", "message-1") := by
      decide +kernel
    obtain ⟨s, hrun, hend⟩ := Option.bind_eq_some_iff.mp hend
    obtain ⟨s', hstep, hend⟩ := Option.bind_eq_some_iff.mp hend
    obtain ⟨t, ht, hend⟩ := Option.bind_eq_some_iff.mp hend
    obtain ⟨m, hm, hend⟩ := Option.bind_eq_some_iff.mp hend
    obtain ⟨st, hst, hend⟩ := Option.bind_eq_some_iff.mp hend
    rw [Option.ite_none_right_eq_some, Option.some.injEq, Prod.mk.injEq, Prod.mk.injEq,
      Prod.mk.injEq] at hend
    obtain ⟨⟨hphase, haborted⟩, hcall, htopic, hspeaker, hid⟩ := hend
    obtain ⟨input, receipt, hin, hrequest, hrows⟩ := (streaming_transparent _ _ s ⟨_, hrun⟩).2 50 0
      t m Chair.sampleRequest st s' ht (t.stage_of_call hcall) hm hst hphase haborted hstep
    rw [htopic, hspeaker, hid] at hrows
    exact ⟨s, s', input, receipt, hrun, hstep, hin, hrequest, hrows⟩

end Kovael.Dispatch
