import Kovael.Presence.Moves

/-!
# The table and the map, across restarts

While the writes go through, the rows are the chairs (`Mirrored`, field by
field in `RowHolds`). A new process hydrates from the rows, and `hydratedTo`
says what it makes of each. That is what a sweep at the same instant would
leave, with one difference: `sweep()` expires a chair whose age is
`offlineMs`, `hydrate()` keeps it.
-/

namespace Kovael.Presence

open Js (Number OrderedMap Json)

variable {cfg : ChairRegistryConfig} {r : Registry} {disk : String → Bool}

/-! ## A row and its chair -/

/-- A row holds a chair, field by field. -/
structure RowHolds (row : ChairRow) (c : ChairClaim) : Prop where
  sessionId : row.sessionId = c.sessionId
  provider : row.provider = c.provider
  capabilities : Json.parseStrings row.capabilities = some c.capabilities
  trustTier : Number.ofInt row.trustTier = c.trustTier
  claimedAt : row.claimedAt = c.claimedAt
  lastBeaconAt : row.lastBeaconAt = c.lastBeaconAt
  status : row.status = c.status.text
  host : row.host = c.host
  note : row.note = c.note
  inboxUrl : row.inboxUrl = c.inboxUrl

/-- The rows of the table are the chairs of the map. -/
def RowsHoldChairs (r : Registry) : Prop :=
  ∃ rows, r.rows = some rows ∧
    ∀ id, match rows.get? id, r.chairs.get? id with
      | none, none => True
      | some row, some c => RowHolds row c
      | _, _ => False

theorem storeInteger_eq_some {n : Number} {z : Int} (h : storeInteger n = some z) :
    Number.ofInt z = n := by
  cases n with
  | fin q =>
    rw [storeInteger] at h
    split at h
    next hq =>
      rw [Option.some.injEq] at h
      rw [Number.ofInt, ← h, Number.fin.injEq]
      exact Rat.coe_int_num_of_den_eq_one hq.1
    next => exact absurd h (by simp)
  | _ => exact absurd h (by simp [storeInteger])

theorem storeInteger_ofInt {z : Int} (h : safeInteger z = true) :
    storeInteger (.ofInt z) = some z := by
  rw [safeInteger, Bool.and_eq_true, decide_eq_true_eq, decide_eq_true_eq] at h
  have hrange : -(2 ^ 63) < (z : ℚ).num ∧ (z : ℚ).num < 2 ^ 63 - 1 := by
    rw [Rat.num_intCast]
    omega
  rw [Number.ofInt, storeInteger, if_pos ⟨Rat.den_intCast z, hrange⟩, Rat.num_intCast]

theorem rowHolds_of_toRow {row : ChairRow} {c : ChairClaim} (h : toRow c = some row) :
    RowHolds row c := by
  obtain ⟨tier, htier, rfl⟩ := Option.map_eq_some_iff.mp h
  exact ⟨rfl, rfl, Json.parseStrings_stringifyStrings c.capabilities, storeInteger_eq_some htier,
    rfl, rfl, rfl, rfl, rfl, rfl⟩

/-- A chair that a row holds comes back as it was, but stale. -/
theorem RowHolds.hydrated {row : ChairRow} {c : ChairClaim} (h : RowHolds row c) :
    row.hydrated c.agentId = { c with status := .stale } := by
  simp only [ChairRow.hydrated, h.sessionId, h.provider, h.capabilities, h.trustTier,
    h.claimedAt, h.lastBeaconAt, h.host, h.note, h.inboxUrl, Option.getD_some]

/-- A row is the row of the agent's chair. -/
theorem Mirrored.chair_of_row {rows : OrderedMap String ChairRow} (h : Mirrored r)
    (hrows : r.rows = some rows) {id : String} {row : ChairRow} (hrow : rows.get? id = some row) :
    ∃ c, r.chairs.get? id = some c ∧ toRow c = some row := by
  have hid := h rows hrows id
  rw [hrow, Option.map_some, eq_comm] at hid
  exact Option.map_eq_some_iff.mp hid

theorem Mirrored.rows_none_iff {rows : OrderedMap String ChairRow} (h : Mirrored r)
    (hrows : r.rows = some rows) (id : String) :
    rows.get? id = none ↔ r.chairs.get? id = none := by
  have hid := h rows hrows id
  rw [← Option.map_eq_none_iff (f := some), hid, Option.map_eq_none_iff]

theorem Mirrored.rowsHoldChairs (h : Mirrored r) (hdb : r.rows.isSome) : RowsHoldChairs r := by
  obtain ⟨rows, hrows⟩ := Option.isSome_iff_exists.mp hdb
  refine ⟨rows, hrows, fun id => ?_⟩
  cases hrow : rows.get? id with
  | none => simp only [(h.rows_none_iff hrows id).mp hrow]
  | some row =>
    obtain ⟨c, hc, hcrow⟩ := h.chair_of_row hrows hrow
    simp only [hc]
    exact rowHolds_of_toRow hcrow

/-! ## Hydrating -/

/-- `hydrate()`'s cutoff. -/
def cutoff (cfg : ChairRegistryConfig) (now : Int) : Number :=
  (Number.ofInt now).add cfg.offlineMs.neg

/-- What `hydrate()` makes of a row. -/
def hydratedTo (cutoff : Number) (agentId : String) (row : ChairRow) : Option ChairClaim :=
  if (Number.ofInt row.lastBeaconAt).lt cutoff then none else some (row.hydrated agentId)

/-- The map and the table agree on every agent but those still to be hydrated. -/
def MirroredOff (ids : List String) (r : Registry) (rows : OrderedMap String ChairRow) : Prop :=
  ∀ id, id ∉ ids → (rows.get? id).map some = (r.chairs.get? id).map toRow

/-- One row is hydrated, or deleted from the table. -/
theorem hydrateRow_spec {rows : OrderedMap String ChairRow} (limit : Number) {agentId : String}
    {row : ChairRow} {ids : List String} (hrows : r.rows = some rows)
    (hdisk : ∀ id, disk id = true) (hsafe : safeInteger row.trustTier = true)
    (hnone : r.chairs.get? agentId = none) (hoff : MirroredOff (agentId :: ids) r rows) :
    ∃ r' rows', hydrateRow r disk limit agentId row = some r' ∧ r'.rows = some rows' ∧
      MirroredOff ids r' rows' ∧
      ∀ id, r'.chairs.get? id
        = if id = agentId then hydratedTo limit agentId row else r.chairs.get? id := by
  unfold hydrateRow hydratedTo
  by_cases hlt : (Number.ofInt row.lastBeaconAt).lt limit = true
  · simp only [if_pos hlt]
    refine ⟨r.withRows (rows.delete agentId), _, ?_, rfl, ?_, ?_⟩
    · rw [Registry.erase, hrows]
      exact if_pos (hdisk agentId)
    · intro id hid
      rw [OrderedMap.get?_delete]
      have hchairs : (r.withRows (rows.delete agentId)).chairs = r.chairs := rfl
      rw [hchairs]
      split
      next he => rw [he, hnone]; rfl
      next hne => exact hoff id (by rw [List.mem_cons, not_or]; exact ⟨hne, hid⟩)
    · intro id
      split
      next he => rw [he]; exact hnone
      next => rfl
  · simp only [if_neg hlt]
    have hrow : (toRow (row.hydrated agentId)).isSome := by
      have htier : (row.hydrated agentId).trustTier = .ofInt row.trustTier := rfl
      rw [toRow, Option.isSome_map, htier, storeInteger_ofInt hsafe]
      rfl
    obtain ⟨row', hrow'⟩ := Option.isSome_iff_exists.mp hrow
    refine ⟨r.keep (row.hydrated agentId), rows.set agentId row', ?_, ?_, ?_, r.get?_keep _⟩
    · exact Registry.persist_put _ (.inr ⟨hdisk _, by rw [hrow']; rfl⟩)
    · simp only [Registry.keep, hrows, hrow', Option.map_some]
      rfl
    · intro id hid
      rw [OrderedMap.get?_set, Registry.get?_keep]
      have hagent : (row.hydrated agentId).agentId = agentId := rfl
      rw [hagent]
      split
      next => rw [Option.map_some, Option.map_some, hrow']
      next hne => exact hoff id (by rw [List.mem_cons, not_or]; exact ⟨hne, hid⟩)

theorem hydrateRows_spec (limit : Number) (hdisk : ∀ id, disk id = true) :
    ∀ (es : List (String × ChairRow)) {r : Registry} {rows : OrderedMap String ChairRow},
      r.rows = some rows → (es.map Prod.fst).Nodup →
      (∀ e ∈ es, safeInteger e.2.trustTier = true) → (∀ e ∈ es, r.chairs.get? e.1 = none) →
      MirroredOff (es.map Prod.fst) r rows →
      ∃ r' rows', hydrateRows disk limit es r = some r' ∧ r'.rows = some rows' ∧
        MirroredOff [] r' rows' ∧
        (∀ id, id ∉ es.map Prod.fst → r'.chairs.get? id = r.chairs.get? id) ∧
        ∀ e ∈ es, r'.chairs.get? e.1 = hydratedTo limit e.1 e.2
  | [], r, rows, hrows, _, _, _, hoff =>
    ⟨r, rows, rfl, hrows, hoff, fun _ _ => rfl, fun _ h => absurd h List.not_mem_nil⟩
  | e :: es, r, rows, hrows, hnd, hsafe, hnone, hoff => by
    rw [List.map_cons, List.nodup_cons] at hnd
    obtain ⟨r₁, rows₁, hrun₁, hrows₁, hoff₁, hget₁⟩ :=
      hydrateRow_spec limit hrows hdisk (hsafe e (List.mem_cons_self ..))
        (hnone e (List.mem_cons_self ..)) hoff
    have hnone₁ : ∀ e' ∈ es, r₁.chairs.get? e'.1 = none := by
      intro e' he'
      have hne : e'.1 ≠ e.1 := fun h => hnd.1 (h ▸ List.mem_map_of_mem he')
      rw [hget₁, if_neg hne]
      exact hnone e' (List.mem_cons_of_mem _ he')
    obtain ⟨r₂, rows₂, hrun₂, hrows₂, hoff₂, hout, hin⟩ :=
      hydrateRows_spec limit hdisk es hrows₁ hnd.2
        (fun e' he' => hsafe e' (List.mem_cons_of_mem _ he')) hnone₁ hoff₁
    refine ⟨r₂, rows₂, ?_, hrows₂, hoff₂, ?_, ?_⟩
    · rw [hydrateRows, hrun₁, Option.bind_some, hrun₂]
    · intro id hid
      rw [List.map_cons, List.mem_cons, not_or] at hid
      rw [hout id hid.2, hget₁, if_neg hid.1]
    · intro e' he'
      rcases List.mem_cons.mp he' with rfl | he'
      · rw [hout _ hnd.1, hget₁, if_pos rfl]
      · exact hin e' he'

/-- A new registry on a table whose rows can all be read. -/
theorem construct_spec {rows : OrderedMap String ChairRow} (cfg : ChairRegistryConfig) (now : Int)
    (hdisk : ∀ id, disk id = true)
    (hsafe : ∀ id row, rows.get? id = some row → safeInteger row.trustTier = true) :
    ∃ r', construct cfg disk now (some rows) = some r' ∧ r'.rows.isSome ∧ Mirrored r' ∧
      ∀ id, r'.chairs.get? id = (rows.get? id).bind (hydratedTo (cutoff cfg now) id) := by
  have hall : ∀ e ∈ rows.entries, safeInteger e.2.trustTier = true :=
    fun e he => hsafe e.1 e.2 ((rows.mem_entries_iff e.1 e.2).mp he)
  have hoff : MirroredOff (rows.entries.map Prod.fst)
      { Registry.new false with rows := some rows } rows := by
    intro id hid
    have hnone : rows.get? id = none := Js.getEntry_eq_none_iff.mpr hid
    rw [hnone]
    rfl
  obtain ⟨r', rows', hrun, hrows', hoff', hout, hin⟩ :=
    hydrateRows_spec (cutoff cfg now) hdisk rows.entries
      (r := { Registry.new false with rows := some rows }) rfl rows.nodup hall (fun _ _ => rfl)
      hoff
  refine ⟨r', ?_, by rw [hrows']; rfl, ?_, ?_⟩
  · rw [construct, if_pos (List.all_eq_true.mpr hall)]
    exact hrun
  · intro rows'' hrows'' id
    rw [hrows', Option.some.injEq] at hrows''
    rw [← hrows'']
    exact hoff' id List.not_mem_nil
  · intro id
    cases hrow : rows.get? id with
    | none =>
      rw [hout id (Js.getEntry_eq_none_iff.mp hrow)]
      rfl
    | some row => exact hin (id, row) ((rows.mem_entries_iff id row).mpr hrow)

/-- A row that cannot be read keeps the registry from starting. -/
theorem safe_of_construct {rows : OrderedMap String ChairRow} {now : Int} {r' : Registry}
    (h : construct cfg disk now (some rows) = some r') {id : String} {row : ChairRow}
    (hrow : rows.get? id = some row) : safeInteger row.trustTier = true := by
  rw [construct] at h
  split at h
  next hall => exact List.all_eq_true.mp hall _ ((rows.mem_entries_iff id row).mpr hrow)
  next => exact absurd h (by simp)

/-! ## Runs with restarts -/

theorem inv_restart {w w' : World} {now : Int} (h : Inv w)
    (hw : WritesGoThrough w (.restart disk now)) (hstep : step cfg w (.restart disk now) = some w') :
    Inv w' ∧ w'.issued = w.issued ∧
      ∀ id c, w'.registry.chairs.get? id = some c → c.status = .stale := by
  obtain ⟨r', hr', rfl⟩ := Option.map_eq_some_iff.mp hstep
  cases hrows : w.registry.rows with
  | none =>
    rw [hrows, construct, Option.some.injEq] at hr'
    rw [← hr']
    refine ⟨⟨?_, ?_⟩, rfl, ?_⟩
    · intro rows hnone
      exact absurd hnone (by simp)
    all_goals
      intro id c hc
      exact absurd hc (by simp [Registry.new])
  | some rows =>
    rw [hrows] at hr'
    have hdisk : ∀ id, disk id = true := hw.resolve_left (by rw [hrows]; simp)
    obtain ⟨r, hr, _, hmirrored, hget⟩ :=
      construct_spec cfg now hdisk fun id row hrow => safe_of_construct hr' hrow
    rw [hr, Option.some.injEq] at hr'
    rw [← hr']
    have hheld : ∀ id c, r.chairs.get? id = some c →
        ∃ row, rows.get? id = some row ∧ row.hydrated id = c := by
      intro id c hc
      rw [hget, Option.bind_eq_some_iff] at hc
      obtain ⟨row, hrow, hto⟩ := hc
      rw [hydratedTo] at hto
      split at hto
      next => exact absurd hto (by simp)
      next => exact ⟨row, hrow, by simpa using hto⟩
    refine ⟨⟨hmirrored, ?_⟩, rfl, ?_⟩
    · intro id c hc
      obtain ⟨row, hrow, rfl⟩ := hheld id c hc
      obtain ⟨c, hc, hcrow⟩ := h.mirrored.chair_of_row hrows hrow
      have hsession : (row.hydrated id).sessionId = c.sessionId :=
        (rowHolds_of_toRow hcrow).sessionId
      rw [hsession]
      exact h.issued id c hc
    · intro id c hc
      obtain ⟨row, _, rfl⟩ := hheld id c hc
      rfl

theorem inv_step {w w' : World} {e : Event} (h : Inv w) (hw : WritesGoThrough w e)
    (hstep : step cfg w e = some w') : Inv w' := by
  cases e with
  | call c => exact inv_call h hw hstep
  | restart disk now => exact (inv_restart h hw hstep).1

/-- A registry that started with a table keeps it. -/
theorem hasRows_step {w w' : World} {e : Event} (h : Inv w) (hdb : w.registry.rows.isSome)
    (hw : WritesGoThrough w e) (hstep : step cfg w e = some w') : w'.registry.rows.isSome := by
  cases e with
  | call c =>
    obtain ⟨_, hcall⟩ := call_cases h.mirrored hw hstep
    rcases hcall with ⟨disk, now, sessionId, input, _, hr, _⟩ | ⟨_, _, hmoves, _⟩
    · rw [hr]
      simpa [Registry.keep] using hdb
    · exact hmoves.preserve (I := fun r _ => r.rows.isSome)
        (fun _ _ _ _ hI hmove => by cases hmove <;> simpa [Registry.keep, Registry.strike] using hI)
        [] hdb
  | restart disk now =>
    obtain ⟨rows, hrows⟩ := Option.isSome_iff_exists.mp hdb
    obtain ⟨r', hr', rfl⟩ := Option.map_eq_some_iff.mp hstep
    rw [hrows] at hr'
    have hdisk : ∀ id, disk id = true := hw.resolve_left (by rw [hrows]; simp)
    obtain ⟨r, hr, hsome, _⟩ :=
      construct_spec cfg now hdisk fun id row hrow => safe_of_construct hr' hrow
    rw [hr, Option.some.injEq] at hr'
    rw [← hr']
    exact hsome

/-! ## Pending until the next beat -/

/-- The call is a heartbeat of this session. -/
def Event.Beats (agentId sessionId : String) : Event → Prop
  | .call (.heartbeat _ _ a s _) => a = agentId ∧ s = sessionId
  | _ => False

/-- While the session holds the chair, the chair is stale. -/
def Pending (agentId sessionId : String) (r : Registry) : Prop :=
  ∀ c, r.chairs.get? agentId = some c → c.sessionId = sessionId → c.status = .stale

theorem pending_heartbeat {agentId sessionId a s : String} {now : Int} {note : Option String}
    (hr : Mirrored r) (hdisk : Writes r disk) (h : Pending agentId sessionId r)
    (hother : ¬(a = agentId ∧ s = sessionId)) :
    Pending agentId sessionId (heartbeat r disk now a s note).registry := by
  unfold heartbeat
  cases hc : r.chairs.get? a with
  | none => exact h
  | some chair =>
    by_cases hs : chair.sessionId = s
    · have hrow : r.rows = none ∨ (toRow (chair.beat now note)).isSome := hr.toRow_isSome hc rfl
      simp only [hs, ne_eq, not_true_eq_false, if_false, Registry.persist_put _ (hdisk.both hrow)]
      intro c hget hsession
      rcases Registry.get?_keep_some hget with ⟨hid, rfl⟩ | ⟨-, hold⟩
      · have hagent : (chair.beat now note).agentId = chair.agentId := rfl
        rw [hagent, r.filed a chair hc] at hid
        exact absurd ⟨hid.symm, hs.symm.trans hsession⟩ hother
      · exact h c hold hsession
    · simp only [ne_eq, hs, not_false_eq_true, if_true]
      exact h

theorem pending_release {agentId sessionId a s reason : String} {now : Int}
    (hdisk : Writes r disk) (h : Pending agentId sessionId r) :
    Pending agentId sessionId (release r disk now a s reason).registry := by
  unfold release
  cases hc : r.chairs.get? a with
  | none => exact h
  | some chair =>
    by_cases hs : chair.sessionId = s
    · simp only [hs, ne_eq, not_true_eq_false, if_false, Registry.erase_drop _ (hdisk.one a)]
      intro c hget hsession
      exact h c (Registry.get?_strike_some hget).2 hsession
    · simp only [ne_eq, hs, not_false_eq_true, if_true]
      exact h

theorem pending_sweep {agentId sessionId : String} {now : Int} (hr : Mirrored r)
    (hdisk : Writes r disk) (h : Pending agentId sessionId r) :
    Pending agentId sessionId (sweep cfg r disk now).registry := by
  obtain ⟨r', events, hrun, _, hget⟩ := sweep_spec cfg now hr hdisk
  rw [hrun]
  intro c hc hsession
  rw [hget, Option.bind_eq_some_iff] at hc
  obtain ⟨c₀, hc₀, hto⟩ := hc
  obtain ⟨-, rfl | ⟨rfl, -⟩⟩ := sweptTo_some hto
  · rfl
  · exact h c hc₀ hsession

theorem pending_step {agentId sessionId : String} {w w' : World} {e : Event} (hI : Inv w)
    (hdrawn : sessionId ∈ w.issued) (h : Pending agentId sessionId w.registry)
    (hw : WritesGoThrough w e) (hother : ¬e.Beats agentId sessionId)
    (hstep : step cfg w e = some w') :
    Pending agentId sessionId w'.registry := by
  cases e with
  | restart disk now => exact fun c hc _ => (inv_restart hI hw hstep).2.2 agentId c hc
  | call c =>
    have hrun := hstep
    rw [step] at hrun
    split at hrun
    next =>
      rw [Option.some.injEq] at hrun
      have hdisk : Writes w.registry c.disk := hw.imp_right And.left
      cases c with
      | claim disk now drawn input =>
        obtain ⟨_, hcall⟩ := call_cases hI.mirrored hw hstep
        rcases hcall with ⟨_, _, _, _, hc, hr, _, hfresh, _⟩ | ⟨hnone, _⟩
        · cases hc
          rw [hr]
          intro c hget hsession
          rcases Registry.get?_keep_some hget with ⟨-, rfl⟩ | ⟨-, hold⟩
          · have hsame : drawn = sessionId := hsession
            exact absurd (hsame ▸ hdrawn) hfresh
          · exact h c hold hsession
        · exact absurd hnone (by simp [Call.draws])
      | heartbeat disk now a s note =>
        rw [← hrun]
        exact pending_heartbeat hI.mirrored hdisk h hother
      | release disk now a s reason =>
        rw [← hrun]
        exact pending_release hdisk h
      | sweep disk now =>
        rw [← hrun]
        exact pending_sweep hI.mirrored hdisk h
    next => exact absurd hrun (by simp)

/-! ## A restart against a sweep -/

/-- The database takes every write. -/
def allWrites : String → Bool := fun _ => true

/-- A new registry on the same table, set against what a sweep at the same
instant would leave. -/
structure RestartAgrees (cfg : ChairRegistryConfig) (now : Int) (w w' : World) : Prop where
  /-- It keeps the chairs that the sweep would keep, all of them stale. -/
  kept : ∀ id, w'.registry.chairs.get? id
    = ((sweep cfg w.registry allWrites now).registry.chairs.get? id).map
        fun c => { c with status := .stale }
  /-- It deletes the rows of the chairs that the sweep would expire. -/
  deleted : ∃ rows, w'.registry.rows = some rows ∧ ∀ id,
    rows.get? id = none ↔ (sweep cfg w.registry allWrites now).registry.chairs.get? id = none
  /-- In every further run a chair it kept is stale until it beats. -/
  pending : ∀ es w'', (presence cfg true).exec w' es = some w'' →
    (presence cfg true).Along WritesGoThrough w' es →
    ∀ id c, w'.registry.chairs.get? id = some c → (∀ e ∈ es, ¬e.Beats id c.sessionId) →
      Pending id c.sessionId w''.registry

theorem pending_run {agentId sessionId : String} : ∀ (es : List Event) {w w' : World}, Inv w →
    sessionId ∈ w.issued → Pending agentId sessionId w.registry →
    (∀ e ∈ es, ¬e.Beats agentId sessionId) → (presence cfg true).Along WritesGoThrough w es →
    (presence cfg true).exec w es = some w' → Pending agentId sessionId w'.registry
  | [], w, w', _, _, h, _, _, hrun => by
    rw [Lts.exec_nil, Option.some.injEq] at hrun
    exact hrun ▸ h
  | e :: es, w, w', hI, hdrawn, h, hother, hw, hrun => by
    obtain ⟨w₁, hstep, hrest⟩ := Lts.exec_cons.mp hrun
    obtain ⟨hwe, hws⟩ := (Lts.along_cons hstep).mp hw
    have hdrawn₁ : sessionId ∈ w₁.issued := by
      cases e with
      | call c =>
        rw [(call_cases hI.mirrored hwe hstep).1]
        exact List.mem_append_right _ hdrawn
      | restart disk now =>
        rw [(inv_restart hI hwe hstep).2.1]
        exact hdrawn
    exact pending_run es (inv_step hI hwe hstep) hdrawn₁
      (pending_step hI hdrawn h hwe (hother e (List.mem_cons_self ..)) hstep)
      (fun e' he' => hother e' (List.mem_cons_of_mem _ he')) hws hrest

/-- The chair's trust tier, as its row stores it, is read back. -/
def tierReadsBack (c : ChairClaim) : Bool := (storeInteger c.trustTier).any safeInteger

/-- `hydrate()` drops a beacon that is older than `offlineMs`, and keeps one of
exactly that age, which `sweep()` expires. -/
theorem lt_cutoff_iff (c : ChairClaim) (now : Int) (hne : Number.ofInt (c.age now) ≠ cfg.offlineMs) :
    (Number.ofInt c.lastBeaconAt).lt (cutoff cfg now) = c.reached now cfg.offlineMs := by
  unfold cutoff ChairClaim.reached
  unfold ChairClaim.age at hne ⊢
  cases hoff : cfg.offlineMs with
  | nan => rfl
  | negInf => rfl
  | posInf => rfl
  | fin q =>
    rw [hoff, Number.ofInt, ne_eq, Number.fin.injEq] at hne
    simp only [Number.ofInt, Number.neg, Number.add, Number.lt, Number.le, decide_eq_decide]
    push_cast at hne ⊢
    constructor
    · intro h
      linarith
    · intro h
      have hlt := lt_of_le_of_ne h (Ne.symm hne)
      linarith

theorem boundary_kept (c : ChairClaim) (now : Int) (heq : Number.ofInt (c.age now) = cfg.offlineMs) :
    (Number.ofInt c.lastBeaconAt).lt (cutoff cfg now) = false ∧
      c.reached now cfg.offlineMs = true := by
  unfold cutoff ChairClaim.reached
  rw [← heq]
  unfold ChairClaim.age
  simp only [Number.ofInt, Number.neg, Number.add, Number.lt, Number.le, decide_eq_false_iff_not,
    decide_eq_true_eq, le_refl, and_true]
  push_cast
  linarith

/-- What a restart keeps of the chairs. -/
theorem construct_get? {rows : OrderedMap String ChairRow} {now : Int} {r' : Registry}
    (hr : Mirrored r) (hrows : r.rows = some rows) (hdisk : ∀ id, disk id = true)
    (hrun : construct cfg disk now (some rows) = some r') (id : String) :
    r'.chairs.get? id = (r.chairs.get? id).bind fun c =>
      if (Number.ofInt c.lastBeaconAt).lt (cutoff cfg now) then none
      else some { c with status := .stale } := by
  obtain ⟨r₁, hr₁, _, _, hget⟩ :=
    construct_spec cfg now hdisk fun id row hrow => safe_of_construct hrun hrow
  rw [hr₁, Option.some.injEq] at hrun
  rw [← hrun, hget]
  cases hrow : rows.get? id with
  | none =>
    rw [(hr.rows_none_iff hrows id).mp hrow]
    rfl
  | some row =>
    obtain ⟨c, hc, hcrow⟩ := hr.chair_of_row hrows hrow
    have hholds := rowHolds_of_toRow hcrow
    have hback : row.hydrated id = { c with status := .stale } := by
      rw [← r.filed id c hc]
      exact hholds.hydrated
    rw [hc, Option.bind_some, Option.bind_some, hydratedTo, hback, hholds.lastBeaconAt]

/-- What a sweep leaves of the chairs, but for the status. -/
theorem sweep_get?_stale {now : Int} (hr : Mirrored r) (hdisk : Writes r disk) (id : String) :
    ((sweep cfg r disk now).registry.chairs.get? id).map (fun c => { c with status := .stale })
      = (r.chairs.get? id).bind fun c =>
        if c.reached now cfg.offlineMs then none else some { c with status := .stale } := by
  obtain ⟨r', events, hrun, _, hget⟩ := sweep_spec cfg now hr hdisk
  rw [hrun, hget]
  cases r.chairs.get? id with
  | none => rfl
  | some c =>
    rw [Option.bind_some, Option.bind_some, sweptTo]
    split
    next => rfl
    next =>
      split
      next => rfl
      next => rfl

/-- A restart and a sweep agree at the instants where no chair is on the
boundary, and if every trust tier can be read back. -/
theorem restart_agrees_iff {w : World} (h : Inv w) (hdb : w.registry.rows.isSome) (now : Int) :
    (∃ w', step cfg w (.restart allWrites now) = some w' ∧ RestartAgrees cfg now w w') ↔
      ∀ id c, w.registry.chairs.get? id = some c →
        Number.ofInt (c.age now) ≠ cfg.offlineMs ∧ tierReadsBack c = true := by
  obtain ⟨rows, hrows⟩ := Option.isSome_iff_exists.mp hdb
  have hall : ∀ id, allWrites id = true := fun _ => rfl
  constructor
  · intro hgiven
    obtain ⟨w', hstep, hagrees⟩ := hgiven
    intro id c hc
    obtain ⟨r', hr', rfl⟩ := Option.map_eq_some_iff.mp hstep
    rw [hrows] at hr'
    constructor
    · intro heq
      obtain ⟨hkept, hswept⟩ := boundary_kept c now heq
      have hid := hagrees.kept id
      rw [construct_get? h.mirrored hrows hall hr', sweep_get?_stale h.mirrored (.inr hall), hc]
        at hid
      simp [hkept, hswept] at hid
    · have hid := h.mirrored rows hrows id
      rw [hc, Option.map_some] at hid
      obtain ⟨row, hrow, hcrow⟩ := Option.map_eq_some_iff.mp hid
      obtain ⟨tier, htier, hsame⟩ := Option.map_eq_some_iff.mp hcrow.symm
      have hsafe := safe_of_construct hr' hrow
      rw [tierReadsBack, htier, Option.any_some]
      rw [← hsame] at hsafe
      exact hsafe
  · intro hcond
    have hsafe : ∀ id row, rows.get? id = some row → safeInteger row.trustTier = true := by
      intro id row hrow
      obtain ⟨c, hc, hcrow⟩ := h.mirrored.chair_of_row hrows hrow
      obtain ⟨tier, htier, rfl⟩ := Option.map_eq_some_iff.mp hcrow
      have hback := (hcond id c hc).2
      rwa [tierReadsBack, htier, Option.any_some] at hback
    obtain ⟨r', hr', hdb', hmirrored', _⟩ := construct_spec cfg now hall hsafe
    have hstep : step cfg w (.restart allWrites now) = some { w with registry := r' } := by
      rw [step, hrows, hr']
      rfl
    obtain ⟨hI', hissued, hstale⟩ := inv_restart h (.inr hall) hstep
    have hkept : ∀ id, r'.chairs.get? id
        = ((sweep cfg w.registry allWrites now).registry.chairs.get? id).map
            fun c => { c with status := .stale } := by
      intro id
      rw [construct_get? h.mirrored hrows hall hr', sweep_get?_stale h.mirrored (.inr hall)]
      cases hc : w.registry.chairs.get? id with
      | none => rfl
      | some c => rw [Option.bind_some, Option.bind_some, lt_cutoff_iff c now (hcond id c hc).1]
    refine ⟨_, hstep, hkept, ?_, ?_⟩
    · obtain ⟨rows', hrows'⟩ := Option.isSome_iff_exists.mp hdb'
      refine ⟨rows', hrows', fun id => ?_⟩
      rw [hmirrored'.rows_none_iff hrows', hkept, Option.map_eq_none_iff]
    · intro es w'' hrun hw id c hc hother
      exact pending_run es hI' (hI'.issued id c hc) (fun c' hc' _ => hstale id c' hc') hother hw hrun

theorem inv_run {hasDb : Bool} {es : List Event} {w : World}
    (hrun : (presence cfg hasDb).exec (presence cfg hasDb).init es = some w)
    (hw : (presence cfg hasDb).Along WritesGoThrough (presence cfg hasDb).init es) : Inv w :=
  Lts.exec_invariant (I := Inv) (fun _ _ _ hI hC hstep => inv_step hI hC hstep) es
    (inv_init cfg hasDb) hrun hw

theorem hasRows_run {es : List Event} {w : World}
    (hrun : (presence cfg true).exec (presence cfg true).init es = some w)
    (hw : (presence cfg true).Along WritesGoThrough (presence cfg true).init es) :
    w.registry.rows.isSome :=
  (Lts.exec_invariant (M := presence cfg true)
    (I := fun w => Inv w ∧ w.registry.rows.isSome)
    (fun _ _ _ hI hC hstep => ⟨inv_step hI.1 hC hstep, hasRows_step hI.1 hI.2 hC hstep⟩) es
    ⟨inv_init cfg true, rfl⟩ hrun hw).2

/-! ## Persistence refines memory -/

/-- In every run on a database that takes every write, over any clock and with
restarts in it, the rows are the chairs; and a restart at any instant does what
a sweep would do then if and only if no beacon is exactly `offlineMs` old and
every trust tier is one that can be read back. -/
theorem persistence_refines_memory (cfg : ChairRegistryConfig) (es : List Event) (w : World)
    (hrun : (presence cfg true).exec (presence cfg true).init es = some w)
    (hw : (presence cfg true).Along WritesGoThrough (presence cfg true).init es) :
    RowsHoldChairs w.registry ∧
    ∀ now, (∃ w', step cfg w (.restart allWrites now) = some w' ∧ RestartAgrees cfg now w w') ↔
      ∀ id c, w.registry.chairs.get? id = some c →
        Number.ofInt (c.age now) ≠ cfg.offlineMs ∧ tierReadsBack c = true := by
  have hI := inv_run hrun hw
  have hdb := hasRows_run hrun hw
  exact ⟨hI.mirrored.rowsHoldChairs hdb, restart_agrees_iff hI hdb⟩

/-- One agent claims its chair at instant 0. -/
def claimedOnce : List Event :=
  [.call (.claim allWrites 0 "s1" ⟨"nyx", "Codex", some ["code"], none, none, none, none⟩)]

theorem claimedOnce_writes :
    (presence defaultChairRegistryConfig true).Along WritesGoThrough
      (presence defaultChairRegistryConfig true).init claimedOnce :=
  ⟨.inr ⟨fun _ => rfl, by decide +kernel⟩, trivial⟩

theorem claimedOnce_persists : ∃ w,
    (presence defaultChairRegistryConfig true).exec
      (presence defaultChairRegistryConfig true).init claimedOnce = some w ∧
    RowsHoldChairs w.registry ∧
    ∀ now, (∃ w', step defaultChairRegistryConfig w (.restart allWrites now) = some w' ∧
        RestartAgrees defaultChairRegistryConfig now w w') ↔
      ∀ id c, w.registry.chairs.get? id = some c →
        Number.ofInt (c.age now) ≠ defaultChairRegistryConfig.offlineMs ∧
          tierReadsBack c = true :=
  ⟨_, rfl, persistence_refines_memory _ claimedOnce _ rfl claimedOnce_writes⟩

/-- 30 s after its last beacon a sweep expires the chair, and a restart keeps
it. -/
theorem boundary_survives_restart :
    ¬∀ (cfg : ChairRegistryConfig) (es : List Event) (w : World),
      (presence cfg true).exec (presence cfg true).init es = some w →
      (presence cfg true).Along WritesGoThrough (presence cfg true).init es →
      ∀ now, ∃ w', step cfg w (.restart allWrites now) = some w' ∧ RestartAgrees cfg now w w' := by
  intro h
  have hrestart := h defaultChairRegistryConfig claimedOnce _ rfl claimedOnce_writes 30000
  have hI := @inv_run defaultChairRegistryConfig true claimedOnce _ rfl claimedOnce_writes
  have hdb := @hasRows_run defaultChairRegistryConfig claimedOnce _ rfl claimedOnce_writes
  have hcond := (restart_agrees_iff hI hdb 30000).mp hrestart "nyx" _ rfl
  exact hcond.1 (by decide +kernel)

end Kovael.Presence
