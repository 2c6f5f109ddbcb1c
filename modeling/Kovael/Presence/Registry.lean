import Kovael.Js.JsonStrings
import Kovael.Js.Number
import Kovael.Js.OrderedMap
import Kovael.Lts

/-!
# `ChairRegistry`: who holds which chair

`src/services/ChairRegistry.ts`: the map of chairs, the table `chair_claims`
behind it, and the events that `claim`, `heartbeat`, `release` and `sweep` emit.

Mirroring notes vs the TS class:
- `rows` is the table, or `none` for a registry without a database. It is a
  STRICT table, so a trust tier is stored as a 64-bit integer or refused, and
  one beyond `Number.MAX_SAFE_INTEGER` is not read back. `Date.now()` is far
  inside both bounds.
- `disk` says which writes of one call the database takes, by the agent whose
  row is written. A write that is refused throws out of the call, and what the
  call did before stays done.
- `crypto.randomUUID()` is fresh: a claim that draws a known session id is not
  a step.
- A constructor that throws leaves no registry, so a restart that fails is not
  a step.
- `start`, `stop` and the timer are the run's choice of when to sweep. The
  listeners of an event do not call back into the registry.
-/

namespace Kovael.Presence

open Js (Number OrderedMap Json)

/-! ## Chairs, events and rows -/

inductive ChairStatus where
  | online
  | stale
  | offline
  deriving DecidableEq, Repr

/-- The status as a string. -/
def ChairStatus.text : ChairStatus → String
  | .online => "online"
  | .stale => "stale"
  | .offline => "offline"

structure ChairClaim where
  agentId : String
  sessionId : String
  provider : String
  capabilities : List String
  trustTier : Number
  claimedAt : Int
  lastBeaconAt : Int
  status : ChairStatus
  host : Option String
  note : Option String
  inboxUrl : Option String
  deriving DecidableEq, Repr

inductive ChairEventKind where
  | claimed
  | heartbeat
  | released
  | stale
  | expired
  deriving DecidableEq, Repr

structure ChairEvent where
  kind : ChairEventKind
  agentId : String
  sessionId : String
  status : ChairStatus
  timestamp : Int
  chair : Option ChairClaim
  reason : Option String
  deriving DecidableEq, Repr

structure ChairRegistryConfig where
  healthyMs : Number
  offlineMs : Number
  sweepIntervalMs : Number
  deriving DecidableEq, Repr

/-- `DEFAULT_CHAIR_REGISTRY_CONFIG`. -/
def defaultChairRegistryConfig : ChairRegistryConfig where
  healthyMs := .ofInt 15000
  offlineMs := .ofInt 30000
  sweepIntervalMs := .ofInt 2500

/-- A row of `chair_claims`, filed under its `agent_id`. -/
structure ChairRow where
  sessionId : String
  provider : String
  capabilities : String
  trustTier : Int
  claimedAt : Int
  lastBeaconAt : Int
  status : String
  host : Option String
  note : Option String
  inboxUrl : Option String
  deriving DecidableEq, Repr

/-- A number in an INTEGER column of a STRICT table: only one that an integer
of 64 bits holds without loss is stored. `NaN` is bound as NULL, which
`trust_tier` refuses too. -/
def storeInteger : Number → Option Int
  | .fin q => if q.den = 1 ∧ -(2 ^ 63) < q.num ∧ q.num < 2 ^ 63 - 1 then some q.num else none
  | _ => none

/-- An INTEGER that is read as a `number`; any other one makes the read throw. -/
def safeInteger (z : Int) : Bool := decide (-(2 ^ 53 - 1) ≤ z) && decide (z ≤ 2 ^ 53 - 1)

/-- The row of a chair, if every column takes its value. -/
def toRow (c : ChairClaim) : Option ChairRow :=
  (storeInteger c.trustTier).map fun trustTier =>
    { sessionId := c.sessionId
      provider := c.provider
      capabilities := Json.stringifyStrings c.capabilities
      trustTier := trustTier
      claimedAt := c.claimedAt
      lastBeaconAt := c.lastBeaconAt
      status := c.status.text
      host := c.host
      note := c.note
      inboxUrl := c.inboxUrl }

/-- The chairs, each filed under its own agent, and the table. -/
structure Registry where
  chairs : OrderedMap String ChairClaim
  rows : Option (OrderedMap String ChairRow)
  filed : ∀ id c, chairs.get? id = some c → c.agentId = id

namespace Registry

/-- `new ChairRegistry(...)` over an empty table, or over none. -/
def new (hasDb : Bool) : Registry where
  chairs := .empty
  rows := if hasDb then some .empty else none
  filed := fun _ _ h => absurd h (by simp)

/-- `this.chairs.set(c.agentId, c)`, and what writing to the fields of a chair
of the map comes to. -/
def put (r : Registry) (c : ChairClaim) : Registry where
  chairs := r.chairs.set c.agentId c
  rows := r.rows
  filed := by
    intro id c' h
    rcases OrderedMap.get?_set_some h with ⟨rfl, rfl⟩ | ⟨-, h⟩
    · rfl
    · exact r.filed id c' h

/-- `this.chairs.delete(agentId)`. -/
def drop (r : Registry) (agentId : String) : Registry where
  chairs := r.chairs.delete agentId
  rows := r.rows
  filed := by
    intro id c' h
    exact r.filed id c' (OrderedMap.get?_delete_some h).2

/-- The table after a write. -/
def withRows (r : Registry) (rows : OrderedMap String ChairRow) : Registry :=
  { r with rows := some rows }

/-- `persist(c)`; `none` if it throws. -/
def persist (r : Registry) (disk : String → Bool) (c : ChairClaim) : Option Registry :=
  match r.rows with
  | none => some r
  | some rows =>
    if disk c.agentId then (toRow c).map fun row => r.withRows (rows.set c.agentId row) else none

/-- `erase(agentId)`; `none` if it throws. -/
def erase (r : Registry) (disk : String → Bool) (agentId : String) : Option Registry :=
  match r.rows with
  | none => some r
  | some rows => if disk agentId then some (r.withRows (rows.delete agentId)) else none

end Registry

/-! ## The calls -/

/-- How a call ends: the registry after it, the events it emitted and what it
returned, `none` if it threw. -/
structure Outcome (α : Type) where
  registry : Registry
  events : List ChairEvent
  returned : Option α

structure ClaimInput where
  agentId : String
  provider : String
  capabilities : Option (List String)
  trustTier : Option Number
  host : Option String
  note : Option String
  inboxUrl : Option String
  deriving DecidableEq, Repr

/-- The trust tier that a claim files. -/
def ClaimInput.tier (input : ClaimInput) : Number := input.trustTier.getD (.ofInt 3)

/-- The chair that a claim files. -/
def ClaimInput.chair (input : ClaimInput) (sessionId : String) (now : Int) : ChairClaim where
  agentId := input.agentId
  sessionId := sessionId
  provider := input.provider
  capabilities := input.capabilities.getD []
  trustTier := input.tier
  claimedAt := now
  lastBeaconAt := now
  status := .online
  host := input.host
  note := input.note
  inboxUrl := input.inboxUrl

/-- The event of a chair that its holder lost. -/
def lostEvent (kind : ChairEventKind) (agentId sessionId : String) (timestamp : Int)
    (reason : String) : ChairEvent where
  kind := kind
  agentId := agentId
  sessionId := sessionId
  status := .offline
  timestamp := timestamp
  chair := none
  reason := some reason

/-- The event of a chair that is held, with its snapshot. -/
def heldEvent (kind : ChairEventKind) (chair : ChairClaim) (timestamp : Int)
    (reason : Option String) : ChairEvent where
  kind := kind
  agentId := chair.agentId
  sessionId := chair.sessionId
  status := chair.status
  timestamp := timestamp
  chair := some chair
  reason := reason

def supersededReason : String := "superseded_by_new_claim"

/-- The event of the claim that a new one pushes out. -/
def supersededEvents (r : Registry) (agentId : String) (now : Int) : List ChairEvent :=
  match r.chairs.get? agentId with
  | none => []
  | some existing =>
    [lostEvent .released existing.agentId existing.sessionId now supersededReason]

/-- `claim(input)`; `sessionId` is the id it draws. -/
def claim (r : Registry) (disk : String → Bool) (now : Int) (sessionId : String)
    (input : ClaimInput) : Outcome ChairClaim :=
  let released := supersededEvents r input.agentId now
  let claim := input.chair sessionId now
  let filed := r.put claim
  match filed.persist disk claim with
  | none => ⟨filed, released, none⟩
  | some r => ⟨r, released ++ [heldEvent .claimed claim now none], some claim⟩

/-- A chair after a beacon. -/
def ChairClaim.beat (chair : ChairClaim) (now : Int) (note : Option String) : ChairClaim :=
  { chair with lastBeaconAt := now, note := note.or chair.note, status := .online }

/-- The event of a beacon, from the status that the chair had before it. -/
def beatEvent (previousStatus : ChairStatus) (chair : ChairClaim) (now : Int) : ChairEvent :=
  if previousStatus = .online then heldEvent .heartbeat chair now none
  else heldEvent .claimed chair now (some ("revived_from_" ++ previousStatus.text))

/-- `heartbeat(agentId, sessionId, note)`. -/
def heartbeat (r : Registry) (disk : String → Bool) (now : Int) (agentId sessionId : String)
    (note : Option String) : Outcome (Option ChairClaim) :=
  match r.chairs.get? agentId with
  | none => ⟨r, [], some none⟩
  | some chair =>
    if chair.sessionId ≠ sessionId then ⟨r, [], some none⟩
    else
      let beaten := chair.beat now note
      let filed := r.put beaten
      match filed.persist disk beaten with
      | none => ⟨filed, [], none⟩
      | some r => ⟨r, [beatEvent chair.status beaten now], some (some beaten)⟩

/-- `release(agentId, sessionId, reason)`; `now` is read when the event is made. -/
def release (r : Registry) (disk : String → Bool) (now : Int) (agentId sessionId : String)
    (reason : String) : Outcome Bool :=
  match r.chairs.get? agentId with
  | none => ⟨r, [], some false⟩
  | some chair =>
    if chair.sessionId ≠ sessionId then ⟨r, [], some false⟩
    else
      let dropped := r.drop agentId
      match dropped.erase disk agentId with
      | none => ⟨dropped, [], none⟩
      | some r => ⟨r, [lostEvent .released agentId sessionId now reason], some true⟩

/-- `now - chair.lastBeaconAt`. -/
def ChairClaim.age (chair : ChairClaim) (now : Int) : Int := now - chair.lastBeaconAt

/-- `age >= limit`. -/
def ChairClaim.reached (chair : ChairClaim) (now : Int) (limit : Number) : Bool :=
  limit.le (.ofInt (chair.age now))

section

variable (cfg : ChairRegistryConfig)

/-- One round of the loop of `sweep()`. -/
def sweepChair (r : Registry) (disk : String → Bool) (now : Int) (chair : ChairClaim) :
    Outcome Unit :=
  if chair.reached now cfg.offlineMs then
    let dropped := r.drop chair.agentId
    match dropped.erase disk chair.agentId with
    | none => ⟨dropped, [], none⟩
    | some r =>
      ⟨r, [lostEvent .expired chair.agentId chair.sessionId now
        ("ttl_exceeded:age_ms=" ++ toString (chair.age now))], some ()⟩
  else if chair.reached now cfg.healthyMs ∧ chair.status ≠ .stale then
    let aged := { chair with status := .stale }
    let filed := r.put aged
    match filed.persist disk aged with
    | none => ⟨filed, [], none⟩
    | some r =>
      ⟨r, [heldEvent .stale aged now (some ("beacon_age_ms=" ++ toString (chair.age now)))],
        some ()⟩
  else ⟨r, [], some ()⟩

/-- The loop of `sweep()`; a write that throws ends it. -/
def sweepChairs (disk : String → Bool) (now : Int) : List ChairClaim → Registry → Outcome Unit
  | [], r => ⟨r, [], some ()⟩
  | chair :: chairs, r =>
    let swept := sweepChair cfg r disk now chair
    match swept.returned with
    | none => swept
    | some () =>
      let rest := sweepChairs disk now chairs swept.registry
      ⟨rest.registry, swept.events ++ rest.events, rest.returned⟩

/-- `sweep()`, over the chairs it finds in the map when it starts. -/
def sweep (r : Registry) (disk : String → Bool) (now : Int) : Outcome Unit :=
  sweepChairs cfg disk now r.chairs.values r

/-! ## A new registry on the same database -/

/-- The chair that `hydrate` makes of a row: stale until it beats. -/
def ChairRow.hydrated (row : ChairRow) (agentId : String) : ChairClaim where
  agentId := agentId
  sessionId := row.sessionId
  provider := row.provider
  capabilities := (Json.parseStrings row.capabilities).getD []
  trustTier := .ofInt row.trustTier
  claimedAt := row.claimedAt
  lastBeaconAt := row.lastBeaconAt
  status := .stale
  host := row.host
  note := row.note
  inboxUrl := row.inboxUrl

/-- One round of the loop of `hydrate()`. -/
def hydrateRow (r : Registry) (disk : String → Bool) (cutoff : Number) (agentId : String)
    (row : ChairRow) : Option Registry :=
  if (Number.ofInt row.lastBeaconAt).lt cutoff then r.erase disk agentId
  else (r.put (row.hydrated agentId)).persist disk (row.hydrated agentId)

/-- The loop of `hydrate()`. -/
def hydrateRows (disk : String → Bool) (cutoff : Number) :
    List (String × ChairRow) → Registry → Option Registry
  | [], r => some r
  | row :: rows, r =>
    (hydrateRow r disk cutoff row.1 row.2).bind (hydrateRows disk cutoff rows)

/-- `new ChairRegistry(cfg, db)`: `hydrate()` reads every row before it writes
one. `none` if it throws. -/
def construct (disk : String → Bool) (now : Int) (rows : Option (OrderedMap String ChairRow)) :
    Option Registry :=
  let r : Registry := { Registry.new false with rows := rows }
  match rows with
  | none => some r
  | some table =>
    if table.entries.all fun row => safeInteger row.2.trustTier then
      hydrateRows disk ((Number.ofInt now).add cfg.offlineMs.neg) table.entries r
    else none

end

/-! ## Runs -/

/-- A call of one of the four methods. -/
inductive Call where
  | claim (disk : String → Bool) (now : Int) (sessionId : String) (input : ClaimInput)
  | heartbeat (disk : String → Bool) (now : Int) (agentId sessionId : String)
      (note : Option String)
  | release (disk : String → Bool) (now : Int) (agentId sessionId reason : String)
  | sweep (disk : String → Bool) (now : Int)

/-- The writes that the database takes during the call. -/
def Call.disk : Call → String → Bool
  | .claim disk .. | .heartbeat disk .. | .release disk .. | .sweep disk _ => disk

/-- What outlives the call: the registry, and the events for its listeners. -/
def Call.run (cfg : ChairRegistryConfig) (r : Registry) : Call → Registry × List ChairEvent
  | .claim disk now sessionId input =>
    let o := Presence.claim r disk now sessionId input
    (o.registry, o.events)
  | .heartbeat disk now agentId sessionId note =>
    let o := Presence.heartbeat r disk now agentId sessionId note
    (o.registry, o.events)
  | .release disk now agentId sessionId reason =>
    let o := Presence.release r disk now agentId sessionId reason
    (o.registry, o.events)
  | .sweep disk now =>
    let o := Presence.sweep cfg r disk now
    (o.registry, o.events)

/-- The session id that a claim draws. -/
def Call.draws : Call → Option String
  | .claim _ _ sessionId _ => some sessionId
  | _ => none

inductive Event where
  | call (call : Call)
  | restart (disk : String → Bool) (now : Int)

/-- The registry, every event emitted so far, and every session id drawn. -/
structure World where
  registry : Registry
  log : List ChairEvent
  issued : List String

/-- What runs between two awaits of the server: one call, or the start of a new
process on the same database. -/
def step (cfg : ChairRegistryConfig) (w : World) : Event → Option World
  | .call c =>
    if c.draws.all (· ∉ w.issued) then
      some ⟨(c.run cfg w.registry).1, w.log ++ (c.run cfg w.registry).2,
        c.draws.toList ++ w.issued⟩
    else none
  | .restart disk now =>
    (construct cfg disk now w.registry.rows).map fun r => { w with registry := r }

/-- A registry with or without a database, from its first start. -/
def presence (cfg : ChairRegistryConfig) (hasDb : Bool) : Lts World Event where
  init := ⟨.new hasDb, [], []⟩
  step := step cfg

/-- Every write of the event goes through: there is no table, or the disk takes
the rows and the trust tier fits its column. -/
def WritesGoThrough (w : World) : Event → Prop
  | .call c => w.registry.rows = none ∨
      (∀ id, c.disk id = true) ∧
        match c with
        | .claim _ _ _ input => (storeInteger input.tier).isSome
        | _ => True
  | .restart disk _ => w.registry.rows = none ∨ ∀ id, disk id = true

end Kovael.Presence
