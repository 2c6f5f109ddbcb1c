import Mathlib.Data.Finset.Card
import Mathlib.Data.Finset.Insert
import Kovael.Js.OrderedMap

/-!
# The cockpit's messages

`applyMessageDelta` of `packages/spatial-war-room/src/store/useWarRoomStore.ts`
appends a delta to the message it belongs to and keeps the last 200 messages of
a topic. Below that bound a message's content is what its deltas make together
(`contentOf_deliver`), however the events of several messages come mixed.

Mirroring notes vs the TS:
- `isEnd` and `usage` are not looked at; the message's timestamp is not kept.
-/

namespace Kovael.Cockpit

open Js (OrderedMap)

inductive Role where
  | user
  | assistant
  | system
  deriving DecidableEq, Repr

/-- A `conversation_message_delta` event. -/
structure MessageDelta where
  topicId : String
  messageId : String
  senderId : String
  role : Role
  delta : String
  isEnd : Bool
  deriving DecidableEq, Repr

structure Message where
  id : String
  topicId : String
  senderId : String
  role : Role
  content : String
  deriving DecidableEq, Repr

/-- `messagesByTopic`. -/
abbrev MessagesByTopic := OrderedMap String (List Message)

/-- The message of the first delta. -/
def MessageDelta.message (e : MessageDelta) : Message where
  id := e.messageId
  topicId := e.topicId
  senderId := e.senderId
  role := e.role
  content := e.delta

/-- The first message with the id gets the delta, or a new one is pushed. -/
def upsert (e : MessageDelta) : List Message → List Message
  | [] => [e.message]
  | m :: ms =>
    if m.id = e.messageId then { m with content := m.content ++ e.delta } :: ms
    else m :: upsert e ms

/-- `messages.slice(-200)`. -/
def lastMessages (ms : List Message) : List Message := ms.drop (ms.length - 200)

/-- The messages of a topic. -/
def messagesOf (store : MessagesByTopic) (topicId : String) : List Message :=
  (store.get? topicId).getD []

/-- `applyMessageDelta(..)`. -/
def applyMessageDelta (store : MessagesByTopic) (e : MessageDelta) : MessagesByTopic :=
  store.set e.topicId (lastMessages (upsert e (messagesOf store e.topicId)))

/-- The store after the events, in order. -/
def deliver (es : List MessageDelta) : MessagesByTopic := es.foldl applyMessageDelta .empty

/-- The content of a message, if the store has the message. -/
def contentOf (store : MessagesByTopic) (topicId messageId : String) : Option String :=
  ((messagesOf store topicId).find? fun m => m.id = messageId).map Message.content

/-- The events of one message. -/
def received (es : List MessageDelta) (topicId messageId : String) : List MessageDelta :=
  es.filter fun e => e.topicId = topicId ∧ e.messageId = messageId

/-- The messages that a topic has events of. -/
def messageIds (es : List MessageDelta) (topicId : String) : Finset String :=
  ((es.filter fun e => e.topicId = topicId).map MessageDelta.messageId).toFinset

/-- At most 200 messages a topic. -/
def WithinLimit (es : List MessageDelta) : Prop :=
  ∀ topicId, (messageIds es topicId).card ≤ 200

/-- A topic has no more messages than there are events. -/
theorem withinLimit_of_length {es : List MessageDelta} (h : es.length ≤ 200) : WithinLimit es := by
  intro topicId
  refine (List.toFinset_card_le _).trans ?_
  rw [List.length_map]
  exact (List.length_filter_le _ es).trans h

/-! ## One event -/

/-- The first message with the id, read from a list. -/
def contentIn (messageId : String) (ms : List Message) : Option String :=
  (ms.find? fun m => m.id = messageId).map Message.content

theorem contentIn_cons (messageId : String) (m : Message) (ms : List Message) :
    contentIn messageId (m :: ms) =
      if m.id = messageId then some m.content else contentIn messageId ms := by
  rw [contentIn, List.find?_cons]
  by_cases hm : m.id = messageId
  · rw [if_pos hm, decide_eq_true hm]
    rfl
  · rw [if_neg hm, decide_eq_false hm]
    rfl

/-- The event's message gets its delta, no other changes. -/
theorem contentIn_upsert (e : MessageDelta) (messageId : String) : ∀ ms : List Message,
    contentIn messageId (upsert e ms) =
      if messageId = e.messageId then some ((contentIn messageId ms).getD "" ++ e.delta)
      else contentIn messageId ms
  | [] => by
    rw [upsert, contentIn_cons]
    by_cases hid : messageId = e.messageId
    · have hown : e.message.id = messageId := hid.symm
      rw [if_pos hid, if_pos hown]
      exact congrArg some String.empty_append.symm
    · have hother : e.message.id ≠ messageId := Ne.symm hid
      rw [if_neg hid, if_neg hother]
  | m :: ms => by
    have ih := contentIn_upsert e messageId ms
    unfold upsert
    by_cases hm : m.id = e.messageId
    · rw [if_pos hm, contentIn_cons, contentIn_cons]
      by_cases hid : messageId = e.messageId
      · rw [if_pos hid, if_pos (hm.trans hid.symm), if_pos (hm.trans hid.symm)]
        rfl
      · have hne : m.id ≠ messageId := fun h => hid (h.symm.trans hm)
        rw [if_neg hid, if_neg hne, if_neg hne]
    · rw [if_neg hm, contentIn_cons, contentIn_cons, ih]
      by_cases hid : messageId = e.messageId
      · have hne : m.id ≠ messageId := fun h => hm (h.trans hid)
        rw [if_pos hid, if_pos hid, if_neg hne, if_neg hne]
      · rw [if_neg hid, if_neg hid]

/-- An event adds at most its own message, at the end. -/
theorem ids_upsert (e : MessageDelta) : ∀ ms : List Message,
    (upsert e ms).map Message.id =
      if e.messageId ∈ ms.map Message.id then ms.map Message.id
      else ms.map Message.id ++ [e.messageId]
  | [] => rfl
  | m :: ms => by
    have ih := ids_upsert e ms
    unfold upsert
    by_cases hm : m.id = e.messageId
    · rw [if_pos hm, List.map_cons, List.map_cons, if_pos (hm ▸ List.mem_cons_self)]
    · rw [if_neg hm, List.map_cons, ih, List.map_cons]
      by_cases hin : e.messageId ∈ ms.map Message.id
      · rw [if_pos hin, if_pos (List.mem_cons_of_mem _ hin)]
      · have hnot : e.messageId ∉ m.id :: ms.map Message.id := by
          rw [List.mem_cons, not_or]
          exact ⟨fun h => hm h.symm, hin⟩
        rw [if_neg hin, if_neg hnot, List.cons_append]

/-! ## Every event -/

/-- The store has the messages of the events, once each, with their deltas. -/
structure Assembled (es : List MessageDelta) (topicId : String) (ms : List Message) : Prop where
  nodup : (ms.map Message.id).Nodup
  ids : (ms.map Message.id).toFinset = messageIds es topicId
  content : ∀ messageId, contentIn messageId ms =
    if received es topicId messageId = [] then none
    else some (String.join ((received es topicId messageId).map MessageDelta.delta))

theorem messageIds_append (es : List MessageDelta) (e : MessageDelta) (topicId : String) :
    messageIds (es ++ [e]) topicId =
      if e.topicId = topicId then insert e.messageId (messageIds es topicId)
      else messageIds es topicId := by
  unfold messageIds
  rw [List.filter_append, List.map_append, List.toFinset_append, List.filter_cons]
  by_cases ht : e.topicId = topicId
  · rw [if_pos ht, if_pos (decide_eq_true ht), Finset.union_comm]
    rfl
  · rw [if_neg ht, if_neg fun h => ht (of_decide_eq_true h)]
    exact Finset.union_empty _

theorem received_append (es : List MessageDelta) (e : MessageDelta) (topicId messageId : String) :
    received (es ++ [e]) topicId messageId =
      if e.topicId = topicId ∧ e.messageId = messageId then received es topicId messageId ++ [e]
      else received es topicId messageId := by
  unfold received
  rw [List.filter_append, List.filter_cons]
  by_cases he : e.topicId = topicId ∧ e.messageId = messageId
  · rw [if_pos he, if_pos (decide_eq_true he)]
    rfl
  · rw [if_neg he, if_neg fun h => he (of_decide_eq_true h), List.filter_nil, List.append_nil]

/-- Fewer events are within the limit too. -/
theorem WithinLimit.of_append {es : List MessageDelta} {e : MessageDelta}
    (h : WithinLimit (es ++ [e])) : WithinLimit es := by
  intro topicId
  refine le_trans (Finset.card_le_card ?_) (h topicId)
  rw [messageIds_append]
  split
  next => exact Finset.subset_insert _ _
  next => exact Finset.Subset.refl _

/-- One event more. -/
theorem Assembled.event {es : List MessageDelta} {ms : List Message} {e : MessageDelta}
    (h : Assembled es e.topicId ms) (hlimit : WithinLimit (es ++ [e])) :
    Assembled (es ++ [e]) e.topicId (lastMessages (upsert e ms)) := by
  have hids : ((upsert e ms).map Message.id).toFinset = messageIds (es ++ [e]) e.topicId := by
    rw [messageIds_append, if_pos rfl, ← h.ids, ids_upsert]
    split
    next hin => exact (Finset.insert_eq_of_mem (List.mem_toFinset.mpr hin)).symm
    next =>
      rw [List.toFinset_append, Finset.union_comm]
      rfl
  have hnodup : ((upsert e ms).map Message.id).Nodup := by
    rw [ids_upsert]
    split
    next => exact h.nodup
    next hin =>
      exact List.nodup_append.mpr ⟨h.nodup, List.nodup_singleton _, by
        intro a ha b hb hab
        rw [List.mem_singleton] at hb
        exact hin (hb ▸ hab ▸ ha)⟩
  have hall : lastMessages (upsert e ms) = upsert e ms := by
    have hcard := hlimit e.topicId
    rw [← hids, List.toFinset_card_of_nodup hnodup, List.length_map] at hcard
    rw [lastMessages, Nat.sub_eq_zero_of_le hcard, List.drop_zero]
  rw [hall]
  refine ⟨hnodup, hids, ?_⟩
  intro messageId
  rw [contentIn_upsert, received_append, h.content]
  by_cases hid : messageId = e.messageId
  · rw [if_pos hid, if_pos (⟨rfl, hid.symm⟩ : e.topicId = e.topicId ∧ e.messageId = messageId)]
    have hsome : received es e.topicId messageId ++ [e] ≠ [] := List.append_ne_nil_of_right_ne_nil _
      (List.cons_ne_nil _ _)
    rw [if_neg hsome, List.map_append, String.join_append]
    split
    next hnone => rw [hnone]; rfl
    next => rfl
  · have hother : ¬(e.topicId = e.topicId ∧ e.messageId = messageId) :=
      fun hboth => hid hboth.2.symm
    rw [if_neg hid, if_neg hother]

/-- The store is assembled from the events delivered, topic by topic. -/
theorem assembled_deliver (es : List MessageDelta) (hlimit : WithinLimit es) (topicId : String) :
    Assembled es topicId (messagesOf (deliver es) topicId) := by
  induction es using List.reverseRecOn with
  | nil => exact ⟨List.nodup_nil, rfl, fun _ => rfl⟩
  | append_singleton es e ih =>
    have hbefore := ih hlimit.of_append
    have hdeliver : deliver (es ++ [e]) = applyMessageDelta (deliver es) e := List.foldl_concat ..
    rw [hdeliver]
    by_cases ht : topicId = e.topicId
    · subst ht
      have hself : messagesOf (applyMessageDelta (deliver es) e) e.topicId
          = lastMessages (upsert e (messagesOf (deliver es) e.topicId)) := by
        unfold messagesOf applyMessageDelta
        rw [OrderedMap.get?_set_self, Option.getD_some]
        rfl
      rw [hself]
      exact hbefore.event hlimit
    · -- another topic is as it was
      have hother : messagesOf (applyMessageDelta (deliver es) e) topicId
          = messagesOf (deliver es) topicId := by
        rw [messagesOf, applyMessageDelta, OrderedMap.get?_set_ne _ _ ht]
        rfl
      rw [hother]
      refine ⟨hbefore.nodup, hbefore.ids.trans ?_, ?_⟩
      · rw [messageIds_append, if_neg (Ne.symm ht)]
      · intro messageId
        have hskip : ¬(e.topicId = topicId ∧ e.messageId = messageId) := fun h => ht h.1.symm
        rw [received_append, if_neg hskip]
        exact hbefore.content messageId

/-- Within the limit, a message is what its deltas make together. -/
theorem contentOf_deliver {es : List MessageDelta} (hlimit : WithinLimit es)
    (topicId messageId : String) :
    contentOf (deliver es) topicId messageId =
      if received es topicId messageId = [] then none
      else some (String.join ((received es topicId messageId).map MessageDelta.delta)) :=
  (assembled_deliver es hlimit topicId).content messageId

end Kovael.Cockpit
