import Kovael.Presence.Cockpit

/-!
# A cockpit that reconnects

The frames that `src/services/WebSocketBus.ts` sends on a connection, and what
the cockpit's `onmessage` and `applyStateSnapshot` make of them. A chair roster
puts every card in step whatever it showed before, but an empty one is not
sent, and no other frame and no state snapshot touches a card's chair.

Mirroring notes vs the TS:
- The store is its roster, the chat toggle and the three fields that a state
  snapshot patches. Telemetry, tasks and hardware go to fields of their own.
- A card's fields but its id and its chair are its `details`, which
  `upsertAgentNode` overwrites. `StateSnapshot` is what the normalizers make of
  the answer of `/api/v1/state`.
-/

namespace Kovael.Presence

open Js (Json)

/-! ## The frames of a connection -/

structure AgentCard where
  id : String
  details : Json

inductive Frame where
  | agentCard (data : AgentCard)
  | telemetry (nodeData : Json)
  | newTask (taskData : Json)
  | hardwareTelemetry (data : Json)
  | interAgentChatState (enabled : Bool) (mode : String)
  | chairRosterSnapshot (chairs : List ChairClaim)

/-- What the bus reads of its context on a connection. -/
structure BusContext where
  agentCards : List AgentCard
  nodeCache : List Json
  taskCache : List Json
  hardwareCache : Option Json
  interAgentChatEnabled : Bool
  interAgentChatMode : String
  chairs : Registry

/-- The frames up to the chair roster. -/
def cachedFrames (ctx : BusContext) : List Frame :=
  ctx.agentCards.map .agentCard ++ ctx.nodeCache.map .telemetry ++ ctx.taskCache.map .newTask
    ++ ctx.hardwareCache.toList.map .hardwareTelemetry
    ++ [.interAgentChatState ctx.interAgentChatEnabled ctx.interAgentChatMode]

/-- What `wss.on('connection')` sends. -/
def connectionFrames (ctx : BusContext) : List Frame :=
  let chairRoster := snapshot ctx.chairs
  cachedFrames ctx
    ++ if chairRoster.length > 0 then [.chairRosterSnapshot chairRoster] else []

/-! ## The cockpit -/

structure Store where
  agentRoster : List AgentRosterCard
  interAgentChatEnabled : Bool
  interAgentChatMode : String
  agentRuntimes : Json
  resourceMode : Json
  hubHealthByAgent : Json

/-- `upsertAgentNode(card)`, on the roster. -/
def upsertAgentNode (roster : List AgentRosterCard) (card : AgentCard) : List AgentRosterCard :=
  if roster.any fun r => r.id = card.id then
    roster.map fun r => if r.id = card.id then { r with details := card.details } else r
  else roster ++ [⟨card.id, card.details, none⟩]

/-- `ws.onmessage`. -/
def onmessage (store : Store) : Frame → Store
  | .agentCard data => { store with agentRoster := upsertAgentNode store.agentRoster data }
  | .telemetry _ | .newTask _ | .hardwareTelemetry _ => store
  | .interAgentChatState enabled mode =>
    { store with
      interAgentChatEnabled := enabled
      interAgentChatMode := if mode = "" then store.interAgentChatMode else mode }
  | .chairRosterSnapshot chairs =>
    { store with agentRoster := applyChairRoster store.agentRoster chairs }

structure StateSnapshot where
  agentRuntimes : Option Json
  resourceMode : Option Json
  hubHealth : Option Json

/-- `applyStateSnapshot(snapshot)`. -/
def applyStateSnapshot (store : Store) (snapshot : StateSnapshot) : Store :=
  { store with
    agentRuntimes := snapshot.agentRuntimes.getD store.agentRuntimes
    resourceMode := snapshot.resourceMode.getD store.resourceMode
    hubHealthByAgent := snapshot.hubHealth.getD store.hubHealthByAgent }

/-- The store after the frames of a connection and a state snapshot. -/
def reconnected (ctx : BusContext) (store : Store) (snapshot : StateSnapshot) : Store :=
  applyStateSnapshot ((connectionFrames ctx).foldl onmessage store) snapshot

/-! ## What the frames do to the chairs of the cards -/

/-- No card shows a chair. -/
def NoChairs (roster : List AgentRosterCard) : Prop := ∀ card ∈ roster, card.chair = none

theorem noChairs_upsert (roster : List AgentRosterCard) (card : AgentCard) :
    NoChairs (upsertAgentNode roster card) ↔ NoChairs roster := by
  unfold upsertAgentNode NoChairs
  split
  next =>
    constructor
    · intro h r hr
      have hmem := h _ (List.mem_map_of_mem hr)
      split at hmem
      next => exact hmem
      next => exact hmem
    · intro h r hr
      obtain ⟨r₀, hr₀, rfl⟩ := List.mem_map.mp hr
      have hnone := h r₀ hr₀
      split
      next => exact hnone
      next => exact hnone
  next =>
    constructor
    · exact fun h r hr => h r (List.mem_append_left _ hr)
    · intro h r hr
      rcases List.mem_append.mp hr with hr | hr
      · exact h r hr
      · rw [List.mem_singleton.mp hr]

theorem noChairs_foldl (frames : List Frame)
    (hframes : ∀ f ∈ frames, ∀ chairs, f ≠ .chairRosterSnapshot chairs) :
    ∀ store : Store,
      NoChairs (frames.foldl onmessage store).agentRoster ↔ NoChairs store.agentRoster := by
  induction frames with
  | nil =>
    intro store
    exact Iff.rfl
  | cons f frames ih =>
    intro store
    have hf := hframes f (List.mem_cons_self ..)
    rw [List.foldl_cons, ih fun f' hf' => hframes f' (List.mem_cons_of_mem _ hf')]
    cases f with
    | agentCard data => exact noChairs_upsert store.agentRoster data
    | chairRosterSnapshot chairs => exact absurd rfl (hf chairs)
    | _ => exact Iff.rfl

theorem cachedFrames_no_roster (ctx : BusContext) :
    ∀ f ∈ cachedFrames ctx, ∀ chairs, f ≠ .chairRosterSnapshot chairs := by
  intro f hf chairs he
  subst he
  simp [cachedFrames] at hf

theorem snapshot_eq_nil_iff (r : Registry) :
    snapshot r = [] ↔ ∀ id, r.chairs.get? id = none := by
  constructor
  · intro h id
    rw [← find?_snapshot, h]
    rfl
  · intro h
    rw [List.eq_nil_iff_forall_not_mem]
    intro c hc
    have hget := (r.mem_values c).mp hc
    rw [h] at hget
    exact absurd hget (by simp)

/-- Against an empty registry, only a roster without chairs is in step. -/
theorem shows_empty_iff {r : Registry} (h : ∀ id, r.chairs.get? id = none)
    (roster : List AgentRosterCard) : Shows roster r ↔ NoChairs roster := by
  simp only [Shows, NoChairs, h, Option.map_none]

/-- After a reconnection the roster shows the registry if and only if the
registry holds a chair or no card showed one. -/
theorem reconnect_resyncs_iff (ctx : BusContext) (store : Store) (snap : StateSnapshot) :
    Shows (reconnected ctx store snap).agentRoster ctx.chairs ↔
      (∃ id c, ctx.chairs.chairs.get? id = some c) ∨
        ∀ card ∈ store.agentRoster, card.chair = none := by
  have hroster : (reconnected ctx store snap).agentRoster
      = ((connectionFrames ctx).foldl onmessage store).agentRoster := rfl
  rw [hroster]
  by_cases hempty : ∀ id, ctx.chairs.chairs.get? id = none
  · have hframes : connectionFrames ctx = cachedFrames ctx := by
      simp only [connectionFrames, (snapshot_eq_nil_iff ctx.chairs).mpr hempty]
      exact List.append_nil _
    rw [hframes, shows_empty_iff hempty, noChairs_foldl _ (cachedFrames_no_roster ctx)]
    constructor
    · exact .inr
    · intro hcases
      rcases hcases with ⟨id, c, hc⟩ | h
      · rw [hempty] at hc
        exact absurd hc (by simp)
      · exact h
  · have hsnapshot : snapshot ctx.chairs ≠ [] :=
      fun h => hempty ((snapshot_eq_nil_iff ctx.chairs).mp h)
    have hheld : ∃ id c, ctx.chairs.chairs.get? id = some c := by
      obtain ⟨id, hid⟩ := not_forall.mp hempty
      obtain ⟨c, hc⟩ := Option.ne_none_iff_exists'.mp hid
      exact ⟨id, c, hc⟩
    refine iff_of_true ?_ (.inl hheld)
    simp only [connectionFrames, if_pos (List.length_pos_iff.mpr hsnapshot), List.foldl_append,
      List.foldl_cons, List.foldl_nil]
    exact shows_applyChairRoster _ ctx.chairs

/-- The last agent released its chair while the cockpit was away. -/
theorem released_away_stays_live :
    ¬∀ (ctx : BusContext) (store : Store) (snap : StateSnapshot),
      Shows (reconnected ctx store snap).agentRoster ctx.chairs := by
  intro h
  have hshown := h ⟨[], [], [], none, false, "technical", .new false⟩
    ⟨[⟨"nyx", .null, some ⟨"s1", 0, 0, .live, none, none, none⟩⟩], false, "technical", .null,
      .null, .null⟩
    ⟨none, none, none⟩ _ (List.mem_singleton.mpr rfl)
  exact absurd hshown (by decide +kernel)

end Kovael.Presence
