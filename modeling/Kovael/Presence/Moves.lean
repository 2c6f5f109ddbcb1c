import Kovael.Presence.Registry

/-!
# What a call can do to the registry

When the database takes every write, a call is a few *moves*, each of which
changes the entry of one agent, in the map and in the table alike, and emits
the event that says so: a chair is taken, beats, ages, or is left.
`run_claim` and `run_moves` say this of the four calls; everything proved later
about runs is proved of one move. `Mirrored` (the table holds the rows of the
map) is what makes the next write go through, so it is carried along.
-/

namespace Kovael.Presence

open Js (Number OrderedMap Json)

variable {r : Registry} {disk : String → Bool}

namespace Registry

/-- A chair filed in the map and in the table. -/
def keep (r : Registry) (c : ChairClaim) : Registry :=
  { r.put c with
    rows := r.rows.map fun rows =>
      match toRow c with
      | some row => rows.set c.agentId row
      | none => rows }

/-- An agent removed from the map and from the table. -/
def strike (r : Registry) (agentId : String) : Registry :=
  { r.drop agentId with rows := r.rows.map (·.delete agentId) }

theorem get?_keep (r : Registry) (c : ChairClaim) (id : String) :
    (r.keep c).chairs.get? id = if id = c.agentId then some c else r.chairs.get? id :=
  OrderedMap.get?_set ..

theorem get?_strike (r : Registry) (agentId id : String) :
    (r.strike agentId).chairs.get? id = if id = agentId then none else r.chairs.get? id :=
  OrderedMap.get?_delete ..

/-- A chair after one was filed is that one, or an old one of another agent. -/
theorem get?_keep_some {c c' : ChairClaim} {id : String}
    (h : (r.keep c).chairs.get? id = some c') :
    (id = c.agentId ∧ c' = c) ∨ (id ≠ c.agentId ∧ r.chairs.get? id = some c') :=
  OrderedMap.get?_set_some h

theorem get?_strike_some {agentId id : String} {c : ChairClaim}
    (h : (r.strike agentId).chairs.get? id = some c) :
    id ≠ agentId ∧ r.chairs.get? id = some c :=
  OrderedMap.get?_delete_some h

@[simp] theorem get?_keep_self (r : Registry) (c : ChairClaim) :
    (r.keep c).chairs.get? c.agentId = some c := by
  rw [get?_keep, if_pos rfl]

@[simp] theorem get?_strike_self (r : Registry) (agentId : String) :
    (r.strike agentId).chairs.get? agentId = none := by
  rw [get?_strike, if_pos rfl]

/-- The write of a chair that its table can hold. -/
theorem persist_put (c : ChairClaim)
    (h : r.rows = none ∨ disk c.agentId = true ∧ (toRow c).isSome) :
    (r.put c).persist disk c = some (r.keep c) := by
  have hput : (r.put c).rows = r.rows := rfl
  unfold persist keep
  rw [hput]
  cases hrows : r.rows with
  | none =>
    simp only [Option.map_none]
    rw [← hrows]
    rfl
  | some rows =>
    rw [hrows] at h
    obtain ⟨hdisk, hrow⟩ := h.resolve_left (by simp)
    obtain ⟨row, hrow⟩ := Option.isSome_iff_exists.mp hrow
    simp only [if_pos hdisk, hrow, Option.map_some]
    rfl

theorem erase_drop (agentId : String) (h : r.rows = none ∨ disk agentId = true) :
    (r.drop agentId).erase disk agentId = some (r.strike agentId) := by
  have hdrop : (r.drop agentId).rows = r.rows := rfl
  unfold erase strike
  rw [hdrop]
  cases hrows : r.rows with
  | none =>
    simp only [Option.map_none]
    rw [← hrows]
    rfl
  | some rows =>
    rw [hrows] at h
    have hdisk : disk agentId = true := h.resolve_left (by simp)
    simp only [if_pos hdisk, Option.map_some]
    rfl

end Registry

/-- The table, if there is one, holds the row of every chair and no other. -/
def Mirrored (r : Registry) : Prop :=
  ∀ rows, r.rows = some rows → ∀ id, (rows.get? id).map some = (r.chairs.get? id).map toRow

theorem mirrored_new (hasDb : Bool) : Mirrored (.new hasDb) := by
  intro rows hrows id
  cases hasDb with
  | false => exact absurd hrows (by simp [Registry.new])
  | true =>
    have : rows = .empty := by simpa [Registry.new] using hrows.symm
    rw [this]
    rfl

theorem Mirrored.keep {c : ChairClaim} (h : Mirrored r)
    (hrow : r.rows = none ∨ (toRow c).isSome) : Mirrored (r.keep c) := by
  intro rows hrows id
  rw [Registry.get?_keep]
  obtain ⟨rows₀, hrows₀, rfl⟩ := Option.map_eq_some_iff.mp hrows
  rw [hrows₀] at hrow
  obtain ⟨row, hrow⟩ := Option.isSome_iff_exists.mp (hrow.resolve_left (by simp))
  simp only [hrow, OrderedMap.get?_set]
  split
  next => rw [Option.map_some, Option.map_some, hrow]
  next => exact h rows₀ hrows₀ id

theorem Mirrored.strike {agentId : String} (h : Mirrored r) : Mirrored (r.strike agentId) := by
  intro rows hrows id
  rw [Registry.get?_strike]
  obtain ⟨rows₀, hrows₀, rfl⟩ := Option.map_eq_some_iff.mp hrows
  rw [OrderedMap.get?_delete]
  split
  next => rfl
  next => exact h rows₀ hrows₀ id

/-- What is filed can be filed again: no call changes a trust tier. -/
theorem Mirrored.toRow_isSome {id : String} {c c' : ChairClaim} (h : Mirrored r)
    (hc : r.chairs.get? id = some c) (htier : c'.trustTier = c.trustTier) :
    r.rows = none ∨ (toRow c').isSome := by
  have hsame : (toRow c').isSome = (toRow c).isSome := by
    rw [toRow, toRow, Option.isSome_map, Option.isSome_map, htier]
  rw [hsame]
  cases hrows : r.rows with
  | none => exact .inl rfl
  | some rows =>
    right
    have hid := h rows hrows id
    rw [hc, Option.map_some] at hid
    obtain ⟨row, _, hrow⟩ := Option.map_eq_some_iff.mp hid
    rw [← hrow]
    rfl

/-! ## Moves -/

/-- One change of one agent's entry, with its event. -/
inductive Move (r : Registry) : List ChairEvent → Registry → Prop where
  /-- The holder beats. -/
  | beat (chair : ChairClaim) (now : Int) (note : Option String)
      (held : r.chairs.get? chair.agentId = some chair) :
      Move r [beatEvent chair.status (chair.beat now note) now] (r.keep (chair.beat now note))
  /-- A beacon is too old to be online. -/
  | age (chair : ChairClaim) (now : Int) (reason : String)
      (held : r.chairs.get? chair.agentId = some chair) (fresh : chair.status ≠ .stale) :
      Move r [heldEvent .stale { chair with status := .stale } now (some reason)]
        (r.keep { chair with status := .stale })
  /-- The holder leaves, or a beacon is too old to be kept. -/
  | leave (chair : ChairClaim) (kind : ChairEventKind) (now : Int) (reason : String)
      (held : r.chairs.get? chair.agentId = some chair)
      (ended : kind = .released ∨ kind = .expired) :
      Move r [lostEvent kind chair.agentId chair.sessionId now reason] (r.strike chair.agentId)

theorem beatEvent_agent (chair : ChairClaim) (now : Int) (note : Option String) :
    (beatEvent chair.status (chair.beat now note) now).agentId = chair.agentId := by
  unfold beatEvent
  split
  next => rfl
  next => rfl

/-- A move leaves every agent alone but that of its event. -/
theorem Move.others {e : ChairEvent} {r' : Registry} (h : Move r [e] r') {id : String}
    (hid : id ≠ e.agentId) : r'.chairs.get? id = r.chairs.get? id := by
  cases h with
  | beat chair now note held =>
    rw [beatEvent_agent] at hid
    rw [Registry.get?_keep]
    exact if_neg hid
  | age chair now reason held fresh =>
    rw [Registry.get?_keep]
    exact if_neg hid
  | leave chair kind now reason held ended =>
    rw [Registry.get?_strike]
    exact if_neg hid

/-- Moves one after the other. -/
inductive Moves : Registry → List ChairEvent → Registry → Prop where
  | nil (r : Registry) : Moves r [] r
  | cons {r r' r'' : Registry} {events rest : List ChairEvent} (move : Move r events r')
      (moves : Moves r' rest r'') : Moves r (events ++ rest) r''

theorem Moves.single {r' : Registry} {events : List ChairEvent} (h : Move r events r') :
    Moves r events r' := by
  have hcons := Moves.cons h (.nil r')
  rwa [List.append_nil] at hcons

/-- What one move preserves, several do. -/
theorem Moves.preserve {I : Registry → List ChairEvent → Prop}
    (hmove : ∀ r log events r', I r log → Move r events r' → I r' (log ++ events))
    {r' : Registry} {events : List ChairEvent} (h : Moves r events r') :
    ∀ log : List ChairEvent, I r log → I r' (log ++ events) := by
  induction h with
  | nil r =>
    intro log hI
    rwa [List.append_nil]
  | cons move moves ih =>
    intro log hI
    rw [← List.append_assoc]
    exact ih _ (hmove _ _ _ _ hI move)

theorem Mirrored.move {events : List ChairEvent} {r' : Registry} (h : Mirrored r)
    (hmove : Move r events r') : Mirrored r' := by
  cases hmove with
  | beat chair now note held => exact h.keep (h.toRow_isSome held rfl)
  | age chair now reason held fresh => exact h.keep (h.toRow_isSome held rfl)
  | leave chair kind now reason held ended => exact h.strike

theorem Mirrored.moves {events : List ChairEvent} {r' : Registry} (h : Mirrored r)
    (hmoves : Moves r events r') : Mirrored r' :=
  hmoves.preserve (I := fun r _ => Mirrored r) (fun _ _ _ _ hI hmove => hI.move hmove)
    [] h

/-! ## The calls are moves -/

/-- The database takes every write of a call. -/
def Writes (r : Registry) (disk : String → Bool) : Prop :=
  r.rows = none ∨ ∀ id, disk id = true

theorem Writes.one (h : Writes r disk) (id : String) : r.rows = none ∨ disk id = true :=
  h.imp_right fun hall => hall id

theorem Writes.both {c : ChairClaim} (h : Writes r disk)
    (hrow : r.rows = none ∨ (toRow c).isSome) :
    r.rows = none ∨ disk c.agentId = true ∧ (toRow c).isSome := by
  rcases h with h | h
  · exact .inl h
  · exact hrow.imp_right fun hrow => ⟨h _, hrow⟩

/-- Whether there is a table does not change. -/
theorem Writes.move {events : List ChairEvent} {r' : Registry} (h : Writes r disk)
    (hmove : Move r events r') : Writes r' disk := by
  refine h.imp_left fun hrows => ?_
  cases hmove <;> simp [Registry.keep, Registry.strike, hrows]

/-- A claim: the holder of the chair is pushed out and the new one is filed. -/
theorem run_claim {now : Int} {sessionId : String} {input : ClaimInput}
    (hdisk : Writes r disk) (htier : r.rows = none ∨ (storeInteger input.tier).isSome) :
    claim r disk now sessionId input
      = ⟨r.keep (input.chair sessionId now),
          supersededEvents r input.agentId now
            ++ [heldEvent .claimed (input.chair sessionId now) now none],
          some (input.chair sessionId now)⟩ := by
  have hrow : r.rows = none ∨ (toRow (input.chair sessionId now)).isSome := by
    refine htier.imp_right fun htier => ?_
    rw [toRow, Option.isSome_map]
    exact htier
  simp only [claim, Registry.persist_put _ (hdisk.both hrow)]

theorem heartbeat_moves {now : Int} {agentId sessionId : String} {note : Option String}
    (hr : Mirrored r) (hdisk : Writes r disk) :
    Moves r (heartbeat r disk now agentId sessionId note).events
      (heartbeat r disk now agentId sessionId note).registry := by
  unfold heartbeat
  cases hc : r.chairs.get? agentId with
  | none => exact .nil r
  | some chair =>
    by_cases hs : chair.sessionId ≠ sessionId
    · simp only [if_pos hs]
      exact .nil r
    · have hid := r.filed agentId chair hc
      have hrow : r.rows = none ∨ (toRow (chair.beat now note)).isSome := hr.toRow_isSome hc rfl
      simp only [if_neg hs, Registry.persist_put _ (hdisk.both hrow)]
      exact .single (.beat chair now note (by rw [hid]; exact hc))

theorem release_moves {now : Int} {agentId sessionId reason : String} (hdisk : Writes r disk) :
    Moves r (release r disk now agentId sessionId reason).events
      (release r disk now agentId sessionId reason).registry := by
  unfold release
  cases hc : r.chairs.get? agentId with
  | none => exact .nil r
  | some chair =>
    by_cases hs : chair.sessionId = sessionId
    · have hid := r.filed agentId chair hc
      simp only [hs, ne_eq, not_true_eq_false, if_false,
        Registry.erase_drop _ (hdisk.one agentId)]
      have hleave := Move.leave chair .released now reason (by rw [hid]; exact hc) (.inl rfl)
      rw [hid, hs] at hleave
      exact .single hleave
    · simp only [if_pos hs]
      exact .nil r

/-- What a sweep leaves of a chair. -/
def sweptTo (cfg : ChairRegistryConfig) (now : Int) (chair : ChairClaim) : Option ChairClaim :=
  if chair.reached now cfg.offlineMs then none
  else if chair.reached now cfg.healthyMs ∧ chair.status ≠ .stale then
    some { chair with status := .stale }
  else some chair

/-- A chair that outlives a sweep is as it was, or has turned stale. -/
theorem sweptTo_some {cfg : ChairRegistryConfig} {now : Int} {c₀ c : ChairClaim}
    (h : sweptTo cfg now c₀ = some c) :
    c₀.reached now cfg.offlineMs = false ∧
      (c = { c₀ with status := .stale } ∨
        c = c₀ ∧ ¬(c₀.reached now cfg.healthyMs ∧ c₀.status ≠ .stale)) := by
  unfold sweptTo at h
  split at h
  next => exact absurd h (by simp)
  next hoff =>
    refine ⟨by simpa using hoff, ?_⟩
    split at h
    next => exact .inl (Option.some.inj h).symm
    next hage => exact .inr ⟨(Option.some.inj h).symm, hage⟩

/-- One round of a sweep: at most one move, and only of this chair. -/
theorem sweepChair_spec (cfg : ChairRegistryConfig) (now : Int) {chair : ChairClaim} (hr : Mirrored r)
    (hdisk : Writes r disk) (held : r.chairs.get? chair.agentId = some chair) :
    ∃ r' events, sweepChair cfg r disk now chair = ⟨r', events, some ()⟩ ∧
      (r' = r ∧ events = [] ∨ Move r events r') ∧
      ∀ id, r'.chairs.get? id
        = if id = chair.agentId then sweptTo cfg now chair else r.chairs.get? id := by
  unfold sweepChair sweptTo
  by_cases hoff : chair.reached now cfg.offlineMs = true
  · simp only [if_pos hoff, Registry.erase_drop _ (hdisk.one chair.agentId)]
    exact ⟨_, _, rfl, .inr (.leave chair .expired now _ held (.inr rfl)), r.get?_strike _⟩
  · by_cases hage : chair.reached now cfg.healthyMs = true ∧ chair.status ≠ .stale
    · have hrow : r.rows = none ∨ (toRow { chair with status := .stale }).isSome :=
        hr.toRow_isSome held rfl
      simp only [if_neg hoff, if_pos hage, Registry.persist_put _ (hdisk.both hrow)]
      exact ⟨_, _, rfl, .inr (.age chair now _ held hage.2), r.get?_keep _⟩
    · simp only [if_neg hoff, if_neg hage]
      refine ⟨_, _, rfl, .inl ⟨rfl, rfl⟩, ?_⟩
      intro id
      split
      next hid => rw [hid, held]
      next => rfl

/-- The loop of a sweep, over chairs that the map holds. -/
theorem sweepChairs_spec (cfg : ChairRegistryConfig) (now : Int) : ∀ (chairs : List ChairClaim) {r : Registry},
    Mirrored r → Writes r disk → (chairs.map ChairClaim.agentId).Nodup →
    (∀ chair ∈ chairs, r.chairs.get? chair.agentId = some chair) →
    ∃ r' events, sweepChairs cfg disk now chairs r = ⟨r', events, some ()⟩ ∧
      Moves r events r' ∧
      (∀ id, id ∉ chairs.map ChairClaim.agentId → r'.chairs.get? id = r.chairs.get? id) ∧
      ∀ chair ∈ chairs, r'.chairs.get? chair.agentId = sweptTo cfg now chair
  | [], r, _, _, _, _ =>
    ⟨r, [], rfl, .nil r, fun _ _ => rfl, fun _ h => absurd h List.not_mem_nil⟩
  | chair :: chairs, r, hr, hdisk, hnd, hheld => by
    rw [List.map_cons, List.nodup_cons] at hnd
    obtain ⟨r₁, events₁, hrun₁, hmove, hget₁⟩ :=
      sweepChair_spec cfg now hr hdisk (hheld chair (List.mem_cons_self ..))
    have hr₁ : Mirrored r₁ := by
      rcases hmove with ⟨rfl, _⟩ | hmove
      · exact hr
      · exact hr.move hmove
    have hdisk₁ : Writes r₁ disk := by
      rcases hmove with ⟨rfl, _⟩ | hmove
      · exact hdisk
      · exact hdisk.move hmove
    have hheld₁ : ∀ other ∈ chairs, r₁.chairs.get? other.agentId = some other := by
      intro other hother
      have hne : other.agentId ≠ chair.agentId :=
        fun he => hnd.1 (he ▸ List.mem_map_of_mem hother)
      rw [hget₁, if_neg hne]
      exact hheld other (List.mem_cons_of_mem _ hother)
    obtain ⟨r₂, events₂, hrun₂, hmoves₂, hout, hin⟩ :=
      sweepChairs_spec cfg now chairs hr₁ hdisk₁ hnd.2 hheld₁
    refine ⟨r₂, events₁ ++ events₂, ?_, ?_, ?_, ?_⟩
    · simp only [sweepChairs, hrun₁, hrun₂]
    · rcases hmove with ⟨rfl, rfl⟩ | hmove
      · exact hmoves₂
      · exact .cons hmove hmoves₂
    · intro id hid
      rw [List.map_cons, List.mem_cons, not_or] at hid
      rw [hout id hid.2, hget₁, if_neg hid.1]
    · intro other hother
      rcases List.mem_cons.mp hother with rfl | hother
      · rw [hout _ hnd.1, hget₁, if_pos rfl]
      · exact hin other hother

theorem Registry.mem_values (r : Registry) (chair : ChairClaim) :
    chair ∈ r.chairs.values ↔ r.chairs.get? chair.agentId = some chair := by
  rw [OrderedMap.mem_values_iff]
  constructor
  · intro hgiven
    obtain ⟨id, hid⟩ := hgiven
    rw [r.filed id chair hid]
    exact hid
  · exact fun h => ⟨_, h⟩

/-- A sweep with every write taken. -/
theorem sweep_spec (cfg : ChairRegistryConfig) (now : Int) (hr : Mirrored r) (hdisk : Writes r disk) :
    ∃ r' events, sweep cfg r disk now = ⟨r', events, some ()⟩ ∧ Moves r events r' ∧
      ∀ id, r'.chairs.get? id = (r.chairs.get? id).bind (sweptTo cfg now) := by
  obtain ⟨r', events, hrun, hmoves, hout, hin⟩ :=
    sweepChairs_spec cfg now r.chairs.values hr hdisk
      (r.chairs.values_key_nodup ChairClaim.agentId r.filed)
      (fun chair hchair => (r.mem_values chair).mp hchair)
  refine ⟨r', events, hrun, hmoves, ?_⟩
  intro id
  cases hc : r.chairs.get? id with
  | none =>
    rw [hout id ?_, hc, Option.bind_none]
    intro hid
    obtain ⟨chair, hchair, rfl⟩ := List.mem_map.mp hid
    rw [(r.mem_values chair).mp hchair] at hc
    exact absurd hc (by simp)
  | some chair =>
    have hid := r.filed id chair hc
    rw [Option.bind_some, ← hin chair ((r.mem_values chair).mpr (by rw [hid]; exact hc)), hid]

/-- Every call but a claim is a few moves. -/
theorem run_moves (cfg : ChairRegistryConfig) {c : Call} (hr : Mirrored r)
    (hdisk : Writes r c.disk) (hc : c.draws = none) :
    Moves r (c.run cfg r).2 (c.run cfg r).1 := by
  cases c with
  | claim disk now sessionId input => exact absurd hc (by simp [Call.draws])
  | heartbeat disk now agentId sessionId note => exact heartbeat_moves hr hdisk
  | release disk now agentId sessionId reason => exact release_moves hdisk
  | sweep disk now =>
    obtain ⟨r', events, hrun, hmoves, _⟩ := sweep_spec cfg now hr hdisk
    simp only [Call.run]
    rw [show sweep cfg r disk now = ⟨r', events, some ()⟩ from hrun]
    exact hmoves

/-- A chair after a move was there before it, in the same session; a chair that
the move rewrote is not offline. -/
theorem Move.before {events : List ChairEvent} {r' : Registry} (h : Move r events r') {id : String}
    {c' : ChairClaim} (hc' : r'.chairs.get? id = some c') :
    ∃ c, r.chairs.get? id = some c ∧ c.sessionId = c'.sessionId ∧
      (c' = c ∨ c'.status ≠ .offline) := by
  cases h with
  | beat chair now note held =>
    rcases Registry.get?_keep_some hc' with ⟨rfl, rfl⟩ | ⟨-, hold⟩
    · exact ⟨chair, held, rfl, .inr nofun⟩
    · exact ⟨c', hold, rfl, .inl rfl⟩
  | age chair now reason held fresh =>
    rcases Registry.get?_keep_some hc' with ⟨rfl, rfl⟩ | ⟨-, hold⟩
    · exact ⟨chair, held, rfl, .inr nofun⟩
    · exact ⟨c', hold, rfl, .inl rfl⟩
  | leave chair kind now reason held ended =>
    exact ⟨c', (Registry.get?_strike_some hc').2, rfl, .inl rfl⟩

/-- A move leaves every other session where it was. -/
theorem Move.held {events : List ChairEvent} {r' : Registry} (h : Move r events r') {id : String}
    {c' : ChairClaim} (hc' : r'.chairs.get? id = some c') :
    ∃ c, r.chairs.get? id = some c ∧ c.sessionId = c'.sessionId := by
  obtain ⟨c, hc, hsession, -⟩ := h.before hc'
  exact ⟨c, hc, hsession⟩

/-! ## The invariant of a run -/

/-- The rows are the chairs, and every session id in use has been drawn. -/
structure Inv (w : World) : Prop where
  mirrored : Mirrored w.registry
  issued : ∀ id c, w.registry.chairs.get? id = some c → c.sessionId ∈ w.issued

theorem inv_init (cfg : ChairRegistryConfig) (hasDb : Bool) : Inv (presence cfg hasDb).init where
  mirrored := mirrored_new hasDb
  issued := fun _ _ hc => absurd hc (by simp [presence, Registry.new])

/-- What a call does when its writes go through: a claim seats a fresh session,
every other call moves. -/
theorem call_cases {cfg : ChairRegistryConfig} {w w' : World} {c : Call}
    (hr : Mirrored w.registry) (hw : WritesGoThrough w (.call c))
    (hstep : step cfg w (.call c) = some w') :
    (w'.issued = c.draws.toList ++ w.issued) ∧
    ((∃ disk now sessionId input, c = .claim disk now sessionId input ∧
        w'.registry = w.registry.keep (input.chair sessionId now) ∧
        w'.log = w.log ++ (supersededEvents w.registry input.agentId now
          ++ [heldEvent .claimed (input.chair sessionId now) now none]) ∧
        sessionId ∉ w.issued ∧
        (w.registry.rows = none ∨ (storeInteger input.tier).isSome)) ∨
      c.draws = none ∧ ∃ events, Moves w.registry events w'.registry ∧
        w'.log = w.log ++ events) := by
  rw [step] at hstep
  split at hstep
  next hfresh =>
    rw [Option.some.injEq] at hstep
    rw [← hstep]
    refine ⟨rfl, ?_⟩
    have hdisk : Writes w.registry c.disk := hw.imp_right And.left
    cases c with
    | claim disk now sessionId input =>
      have htier : w.registry.rows = none ∨ (storeInteger input.tier).isSome :=
        hw.imp_right And.right
      have hrun : claim w.registry disk now sessionId input = _ := run_claim hdisk htier
      refine .inl ⟨disk, now, sessionId, input, rfl, ?_, ?_, by simpa [Call.draws] using hfresh,
        htier⟩
      all_goals simp only [Call.run, hrun]
    | _ => exact .inr ⟨rfl, _, run_moves cfg hr hdisk rfl, rfl⟩
  next => exact absurd hstep (by simp)

theorem inv_call {cfg : ChairRegistryConfig} {w w' : World} {c : Call} (h : Inv w)
    (hw : WritesGoThrough w (.call c)) (hstep : step cfg w (.call c) = some w') : Inv w' := by
  obtain ⟨hissued, hcall⟩ := call_cases h.mirrored hw hstep
  rcases hcall with ⟨disk, now, sessionId, input, rfl, hr, _, _, htier⟩ | ⟨_, events, hmoves, _⟩
  · constructor
    · rw [hr]
      refine h.mirrored.keep (htier.imp_right fun htier => ?_)
      rw [toRow, Option.isSome_map]
      exact htier
    · intro id c hc
      rw [hr] at hc
      rw [hissued]
      rcases Registry.get?_keep_some hc with ⟨-, rfl⟩ | ⟨-, hc⟩
      · exact List.mem_cons_self ..
      · exact List.mem_cons_of_mem _ (h.issued id c hc)
  · constructor
    · exact h.mirrored.moves hmoves
    · have hkept := hmoves.preserve
        (I := fun r _ => ∀ id c, r.chairs.get? id = some c → c.sessionId ∈ w.issued)
        (fun r _ _ r' hI hmove id c hc => by
          obtain ⟨c₀, hc₀, hsession⟩ := hmove.held hc
          exact hsession ▸ hI id c₀ hc₀) [] h.issued
      intro id c hc
      rw [hissued]
      exact List.mem_append_right _ (hkept id c hc)

end Kovael.Presence
