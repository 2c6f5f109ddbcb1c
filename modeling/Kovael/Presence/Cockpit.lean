import Kovael.Js.Json
import Kovael.Presence.Persistence

/-!
# The cockpit's roster, fed by chair events

`packages/spatial-war-room/src/store/useWarRoomStore.ts`: `recordChairEvent` and
`applyChairRoster`, and why a roster that was once in step with the registry
stays in step: each move's event carries what the move changed.

Mirroring notes vs the TS store:
- A card is its id, its chair and the rest of its fields, which no chair event
  reads or writes. `undefined` and a missing field are `none`.
- Frames go through JSON, which keeps every field of a chair but `undefined`
  ones.
-/

namespace Kovael.Presence

open Js (Number OrderedMap Json)

variable {cfg : ChairRegistryConfig} {r : Registry}

/-! ## The store -/

inductive CardPresence where
  | live
  | stale
  | absent
  deriving DecidableEq, Repr

/-- `card.chair`. -/
structure CardChair where
  sessionId : String
  claimedAt : Int
  lastBeaconAt : Int
  presence : CardPresence
  host : Option String
  note : Option String
  inboxUrl : Option String
  deriving DecidableEq, Repr

structure AgentRosterCard where
  id : String
  details : Json
  chair : Option CardChair

/-- The presence that an event tells. -/
def ChairEvent.presence (evt : ChairEvent) : CardPresence :=
  if evt.kind = .released ∨ evt.kind = .expired then .absent
  else if evt.status = .stale then .stale
  else .live

/-- The chair that an event leaves on its agent's card. -/
def ChairEvent.cardChair (evt : ChairEvent) (card : AgentRosterCard) : Option CardChair :=
  if evt.presence = .absent then none
  else some
    { sessionId := evt.sessionId
      claimedAt := ((evt.chair.map ChairClaim.claimedAt).or
        (card.chair.map CardChair.claimedAt)).getD evt.timestamp
      lastBeaconAt := (evt.chair.map ChairClaim.lastBeaconAt).getD evt.timestamp
      presence := evt.presence
      host := (evt.chair.bind ChairClaim.host).or (card.chair.bind CardChair.host)
      note := (evt.chair.bind ChairClaim.note).or (card.chair.bind CardChair.note)
      inboxUrl := (evt.chair.bind ChairClaim.inboxUrl).or (card.chair.bind CardChair.inboxUrl) }

/-- `recordChairEvent(evt)`. -/
def recordChairEvent (roster : List AgentRosterCard) (evt : ChairEvent) : List AgentRosterCard :=
  roster.map fun card =>
    if card.id ≠ evt.agentId then card else { card with chair := evt.cardChair card }

/-- The chair of a roster snapshot as a card shows it. -/
def ChairClaim.onCard (c : ChairClaim) : CardChair where
  sessionId := c.sessionId
  claimedAt := c.claimedAt
  lastBeaconAt := c.lastBeaconAt
  presence := if c.status = .stale then .stale else .live
  host := c.host
  note := c.note
  inboxUrl := c.inboxUrl

/-- `applyChairRoster({ chairs })`; the last chair of an agent counts. -/
def applyChairRoster (roster : List AgentRosterCard) (chairs : List ChairClaim) :
    List AgentRosterCard :=
  let byId : OrderedMap String ChairClaim := chairs.foldl (fun m c => m.set c.agentId c) .empty
  roster.map fun card => { card with chair := (byId.get? card.id).map ChairClaim.onCard }

/-- `snapshot()`. -/
def snapshot (r : Registry) : List ChairClaim := r.chairs.values

/-! ## In step -/

/-- Every card shows the registry's entry for its agent, and nothing where
there is none. -/
def Shows (roster : List AgentRosterCard) (r : Registry) : Prop :=
  ∀ card ∈ roster, card.chair = (r.chairs.get? card.id).map ChairClaim.onCard

theorem get?_foldl_set : ∀ (chairs : List ChairClaim) (m : OrderedMap String ChairClaim),
    (chairs.map ChairClaim.agentId).Nodup → ∀ id,
      (chairs.foldl (fun m c => m.set c.agentId c) m).get? id
        = (chairs.find? fun c => c.agentId = id).or (m.get? id)
  | [], _, _, _ => rfl
  | c :: chairs, m, hnd, id => by
    rw [List.map_cons, List.nodup_cons] at hnd
    rw [List.foldl_cons, get?_foldl_set chairs _ hnd.2, OrderedMap.get?_set]
    by_cases hid : id = c.agentId
    · have hnone : chairs.find? (fun c => c.agentId = id) = none := by
        rw [List.find?_eq_none]
        intro c' hc' he
        rw [decide_eq_true_eq] at he
        exact hnd.1 (by rw [← hid, ← he]; exact List.mem_map_of_mem hc')
      rw [if_pos hid, hnone, List.find?_cons_of_pos (by rw [hid]; simp)]
      rfl
    · rw [if_neg hid, List.find?_cons_of_neg (by simpa using Ne.symm hid)]

/-- The snapshot has the registry's entry for every agent. -/
theorem find?_snapshot (r : Registry) (id : String) :
    (snapshot r).find? (fun c => c.agentId = id) = r.chairs.get? id := by
  cases hc : r.chairs.get? id with
  | none =>
    rw [List.find?_eq_none]
    intro c hc' he
    rw [decide_eq_true_eq] at he
    have hget := (r.mem_values c).mp hc'
    rw [he, hc] at hget
    exact absurd hget (by simp)
  | some c =>
    have hid := r.filed id c hc
    have hmem : c ∈ snapshot r := (r.mem_values c).mpr (by rw [hid]; exact hc)
    have hsome : ((snapshot r).find? fun c => c.agentId = id).isSome :=
      List.find?_isSome.mpr ⟨c, hmem, by simpa using hid⟩
    obtain ⟨c', hc'⟩ := Option.isSome_iff_exists.mp hsome
    have he : c'.agentId = id := by simpa using List.find?_some hc'
    have hget := (r.mem_values c').mp (List.mem_of_find?_eq_some hc')
    rw [he, hc] at hget
    rw [hc', hget]

/-- A roster snapshot puts every card in step. -/
theorem shows_applyChairRoster (roster : List AgentRosterCard) (r : Registry) :
    Shows (applyChairRoster roster (snapshot r)) r := by
  intro card hcard
  obtain ⟨card₀, _, rfl⟩ := List.mem_map.mp hcard
  have hnd : ((snapshot r).map ChairClaim.agentId).Nodup :=
    r.chairs.values_key_nodup ChairClaim.agentId r.filed
  simp only [get?_foldl_set _ _ hnd, find?_snapshot, OrderedMap.get?_empty, Option.or_none]

/-- An event that says of each card of its agent what the registry now has, and
comes with no other change of the registry. -/
theorem Shows.record {roster : List AgentRosterCard} {r' : Registry} {evt : ChairEvent}
    (h : Shows roster r)
    (hself : ∀ card, card.id = evt.agentId →
      card.chair = (r.chairs.get? evt.agentId).map ChairClaim.onCard →
      evt.cardChair card = (r'.chairs.get? evt.agentId).map ChairClaim.onCard)
    (hothers : ∀ id, id ≠ evt.agentId → r'.chairs.get? id = r.chairs.get? id) :
    Shows (recordChairEvent roster evt) r' := by
  intro card hcard
  obtain ⟨card₀, hmem, rfl⟩ := List.mem_map.mp hcard
  have hshown := h card₀ hmem
  by_cases hid : card₀.id = evt.agentId
  · simp only [hid, ne_eq, not_true_eq_false, if_false]
    rw [hid] at hshown
    exact hself card₀ hid hshown
  · simp only [hid, ne_eq, not_false_eq_true, if_true]
    rw [hshown, hothers _ hid]

/-- The event of a chair that is held puts the chair on the card, where what
the event leaves out is not on the card already. -/
theorem cardChair_held {kind : ChairEventKind} {c : ChairClaim} {now : Int}
    {reason : Option String} {card : AgentRosterCard}
    (hkind : ¬(kind = .released ∨ kind = .expired))
    (hhost : c.host.or (card.chair.bind CardChair.host) = c.host)
    (hnote : c.note.or (card.chair.bind CardChair.note) = c.note)
    (hinbox : c.inboxUrl.or (card.chair.bind CardChair.inboxUrl) = c.inboxUrl) :
    (heldEvent kind c now reason).cardChair card = some c.onCard := by
  have hpresence : (heldEvent kind c now reason).presence
      = if c.status = .stale then .stale else .live := by
    unfold ChairEvent.presence
    exact if_neg hkind
  have hhere : (heldEvent kind c now reason).presence ≠ .absent := by
    rw [hpresence]
    split <;> simp
  rw [ChairEvent.cardChair, if_neg hhere, hpresence]
  simp only [heldEvent, Option.map_some, Option.bind_some, Option.some_or, Option.getD_some,
    hhost, hnote, hinbox, ChairClaim.onCard]

/-- The card of a chair that beats. -/
theorem cardChair_beat {chair : ChairClaim} {now : Int} {note : Option String}
    {card : AgentRosterCard} (h : card.chair = some chair.onCard) :
    (beatEvent chair.status (chair.beat now note) now).cardChair card
      = some (chair.beat now note).onCard := by
  have hhost : (chair.beat now note).host.or (card.chair.bind CardChair.host)
      = (chair.beat now note).host := by
    rw [h]
    exact Option.or_self
  have hnote : (chair.beat now note).note.or (card.chair.bind CardChair.note)
      = (chair.beat now note).note := by
    rw [h]
    show (note.or chair.note).or chair.note = note.or chair.note
    rw [Option.or_assoc, Option.or_self]
  have hinbox : (chair.beat now note).inboxUrl.or (card.chair.bind CardChair.inboxUrl)
      = (chair.beat now note).inboxUrl := by
    rw [h]
    exact Option.or_self
  unfold beatEvent
  split
  next => exact cardChair_held (by simp) hhost hnote hinbox
  next => exact cardChair_held (by simp) hhost hnote hinbox

/-- The card of a chair that ages. -/
theorem cardChair_age {chair : ChairClaim} {now : Int} {reason : String} {card : AgentRosterCard}
    (h : card.chair = some chair.onCard) :
    (heldEvent .stale { chair with status := .stale } now (some reason)).cardChair card
      = some { chair with status := .stale : ChairClaim }.onCard := by
  apply cardChair_held (by simp)
  all_goals
    rw [h]
    exact Option.or_self

/-- The card of a chair that was vacant until it was claimed. -/
theorem cardChair_claimed {chair : ChairClaim} {now : Int} {card : AgentRosterCard}
    (h : card.chair = none) :
    (heldEvent .claimed chair now none).cardChair card = some chair.onCard := by
  apply cardChair_held (by simp)
  all_goals
    rw [h]
    exact Option.or_none

theorem cardChair_lost {kind : ChairEventKind} (hkind : kind = .released ∨ kind = .expired)
    {agentId sessionId reason : String} {now : Int} {card : AgentRosterCard} :
    (lostEvent kind agentId sessionId now reason).cardChair card = none := by
  rcases hkind with rfl | rfl <;> rfl

/-- A move's event keeps the roster in step. -/
theorem Shows.move {roster : List AgentRosterCard} {events : List ChairEvent} {r' : Registry}
    (h : Shows roster r) (hmove : Move r events r') :
    Shows (events.foldl recordChairEvent roster) r' := by
  cases hmove with
  | beat chair now note held =>
    have hagent := beatEvent_agent chair now note
    refine h.record ?_ fun id => Move.others (.beat chair now note held)
    intro card _ hcard
    rw [hagent, held, Option.map_some] at hcard
    have hself : (r.keep (chair.beat now note)).chairs.get? chair.agentId
        = some (chair.beat now note) := r.get?_keep_self _
    rw [cardChair_beat hcard, hagent, hself, Option.map_some]
  | age chair now reason held fresh =>
    refine h.record ?_ fun id => Move.others (.age chair now reason held fresh)
    intro card _ hcard
    simp only [heldEvent] at hcard
    rw [held, Option.map_some] at hcard
    rw [cardChair_age hcard]
    simp only [heldEvent, Registry.get?_keep, if_true, Option.map_some]
  | leave chair kind now reason held ended =>
    refine h.record ?_ fun id => Move.others (.leave chair kind now reason held ended)
    intro card _ _
    rw [cardChair_lost ended]
    simp only [lostEvent, Registry.get?_strike, if_true, Option.map_none]

/-- A claim's events keep the roster in step: the old session leaves the card
before the new one is put on it, so nothing of it stays. -/
theorem Shows.seat {roster : List AgentRosterCard} {now : Int} {sessionId : String}
    {input : ClaimInput} (h : Shows roster r) :
    Shows ((supersededEvents r input.agentId now
        ++ [heldEvent .claimed (input.chair sessionId now) now none]).foldl recordChairEvent roster)
      (r.keep (input.chair sessionId now)) := by
  have hvacant : Shows ((supersededEvents r input.agentId now).foldl recordChairEvent roster)
      (r.strike input.agentId) := by
    unfold supersededEvents
    cases hc : r.chairs.get? input.agentId with
    | none =>
      intro card hcard
      rw [Registry.get?_strike]
      split
      next hid =>
        have hshown := h card hcard
        rwa [hid, hc] at hshown
      next => exact h card hcard
    | some existing =>
      have hid := r.filed input.agentId existing hc
      rw [← hid]
      refine h.record ?_ ?_
      · intro card _ _
        rw [cardChair_lost (.inl rfl)]
        simp only [lostEvent, Registry.get?_strike, if_true, Option.map_none]
      · intro id hne
        rw [Registry.get?_strike]
        exact if_neg hne
  rw [List.foldl_append]
  refine hvacant.record ?_ ?_
  · intro card _ hcard
    have hnone : card.chair = none := by
      rw [hcard]
      exact congrArg (Option.map ChairClaim.onCard) (r.get?_strike_self input.agentId)
    rw [cardChair_claimed hnone]
    simp only [heldEvent, Registry.get?_keep, if_true, Option.map_some]
  · intro id hid
    have hid' : id ≠ input.agentId := hid
    rw [Registry.get?_keep, Registry.get?_strike, if_neg hid']
    exact if_neg hid'

theorem shows_step {w w' : World} {c : Call} {roster : List AgentRosterCard} (hI : Inv w)
    (h : Shows roster w.registry) (hw : WritesGoThrough w (.call c))
    (hstep : step cfg w (.call c) = some w') :
    ∃ events, w'.log = w.log ++ events ∧
      Shows (events.foldl recordChairEvent roster) w'.registry := by
  obtain ⟨_, hcall⟩ := call_cases hI.mirrored hw hstep
  rcases hcall with ⟨disk, now, sessionId, input, rfl, hr, hlog, _⟩ | ⟨_, events, hmoves, hlog⟩
  · rw [hr]
    exact ⟨_, hlog, h.seat⟩
  · refine ⟨events, hlog, ?_⟩
    have hshown := hmoves.preserve
      (I := fun r log => Shows (log.foldl recordChairEvent roster) r)
      (fun r log events r' hI hmove => by
        rw [List.foldl_append]
        exact Shows.move hI hmove) [] h
    exact hshown

theorem shows_run : ∀ (calls : List Call) {w w' : World} {hasDb : Bool}
    {roster : List AgentRosterCard}, Inv w → Shows roster w.registry →
    (presence cfg hasDb).Along WritesGoThrough w (calls.map .call) →
    (presence cfg hasDb).exec w (calls.map .call) = some w' →
    ∃ events, w'.log = w.log ++ events ∧
      Shows (events.foldl recordChairEvent roster) w'.registry
  | [], w, w', _, roster, _, h, _, hrun => by
    rw [List.map_nil, Lts.exec_nil, Option.some.injEq] at hrun
    rw [← hrun]
    exact ⟨[], (List.append_nil _).symm, h⟩
  | c :: calls, w, w', hasDb, roster, hI, h, hw, hrun => by
    rw [List.map_cons] at hw hrun
    obtain ⟨w₁, hstep, hrest⟩ := Lts.exec_cons.mp hrun
    obtain ⟨hwc, hws⟩ := (Lts.along_cons hstep).mp hw
    obtain ⟨events₁, hlog₁, hshows₁⟩ := shows_step hI h hwc hstep
    obtain ⟨events₂, hlog₂, hshows₂⟩ := shows_run calls (inv_call hI hwc hstep) hshows₁ hws hrest
    refine ⟨events₁ ++ events₂, ?_, ?_⟩
    · rw [hlog₂, hlog₁, List.append_assoc]
    · rw [List.foldl_append]
      exact hshows₂

/-- A cockpit that applies the snapshot of any registry reached, and then the
events of any further calls, shows the registry, if every write goes through. -/
theorem cockpit_mirrors_registry (cfg : ChairRegistryConfig) (hasDb : Bool) (es : List Event)
    (w : World) (calls : List Call) (w' : World) (roster : List AgentRosterCard)
    (events : List ChairEvent)
    (hrun : (presence cfg hasDb).exec (presence cfg hasDb).init es = some w)
    (hw : (presence cfg hasDb).Along WritesGoThrough (presence cfg hasDb).init es)
    (hrun' : (presence cfg hasDb).exec w (calls.map .call) = some w')
    (hw' : (presence cfg hasDb).Along WritesGoThrough w (calls.map .call))
    (hevents : w'.log = w.log ++ events) :
    Shows (events.foldl recordChairEvent (applyChairRoster roster (snapshot w.registry)))
      w'.registry := by
  obtain ⟨events', hlog, hshows⟩ := shows_run calls (inv_run hrun hw)
    (shows_applyChairRoster roster w.registry) hw' hrun'
  rw [hevents, List.append_cancel_left_eq] at hlog
  rw [hlog]
  exact hshows

/-- One chair is claimed, claimed again without a note, and turns stale. -/
def takenOver : List Call :=
  [.claim allWrites 0 "s1" ⟨"nyx", "Codex", none, none, some "ws-1", some "busy", none⟩,
    .claim allWrites 10 "s2" ⟨"nyx", "Codex", none, none, none, none, none⟩,
    .sweep allWrites 15010]

theorem takenOver_shown : ∃ w',
    (presence defaultChairRegistryConfig true).exec
      (presence defaultChairRegistryConfig true).init (takenOver.map .call) = some w' ∧
    Shows (w'.log.foldl recordChairEvent
      (applyChairRoster [⟨"nyx", .null, none⟩] (snapshot (.new true)))) w'.registry :=
  have htier : (storeInteger (.ofInt 3)).isSome = true := by decide +kernel
  ⟨_, rfl, cockpit_mirrors_registry _ true [] _ takenOver _ _ _ rfl trivial rfl
    ⟨.inr ⟨fun _ => rfl, htier⟩, .inr ⟨fun _ => rfl, htier⟩, .inr ⟨fun _ => rfl, trivial⟩, trivial⟩
    rfl⟩

/-- A claim that throws at its write leaves a chair that no event told. -/
def untoldClaim : List Call :=
  [.claim allWrites 0 "s1" ⟨"nyx", "Codex", none, some (.fin (5 / 2)), none, none, none⟩]

theorem untoldClaim_held : ∀ w', (presence defaultChairRegistryConfig true).exec
    (presence defaultChairRegistryConfig true).init (untoldClaim.map .call) = some w' →
    (w'.registry.chairs.get? "nyx").isSome = true ∧ w'.log = [] := by
  intro w' hw'
  cases hw'
  decide +kernel

theorem untoldClaim_not_shown :
    ¬∀ (cfg : ChairRegistryConfig) (hasDb : Bool) (es : List Event) (w : World)
      (calls : List Call) (w' : World) (roster : List AgentRosterCard) (events : List ChairEvent),
      (presence cfg hasDb).exec (presence cfg hasDb).init es = some w →
      (presence cfg hasDb).exec w (calls.map .call) = some w' →
      w'.log = w.log ++ events →
      Shows (events.foldl recordChairEvent (applyChairRoster roster (snapshot w.registry)))
        w'.registry := by
  intro h
  obtain ⟨hheld, hlog⟩ := untoldClaim_held _ rfl
  have hshown := h defaultChairRegistryConfig true [] _ untoldClaim _ [⟨"nyx", .null, none⟩] []
    rfl rfl hlog ⟨"nyx", .null, none⟩ (List.mem_singleton.mpr rfl)
  rw [← Option.isSome_map (f := ChairClaim.onCard), ← hshown] at hheld
  exact absurd hheld (by simp)

end Kovael.Presence
