import Kovael.Presence.Registry

/-!
# What a refused write leaves behind

`claim` tells that the old session was released and files the new chair before it writes
the row, and `heartbeat` has refreshed the chair of the map by then. `all_or_nothing_iff` says when
a call that the database refuses still leaves everything as it was: a claim never does, a
heartbeat does if the beat changed nothing.

`SessionsIn` is what a claim needs of the registry: every session id in it was drawn, so
that a fresh one tells the new chair from the old. It holds of every run, whatever the
database refuses.
-/

namespace Kovael.Presence

open Js (Number OrderedMap Json)

/-- If the call threw, the chairs, the table and the events are as before it. -/
def Outcome.Atomic {α : Type} (before : Registry) (o : Outcome α) : Prop :=
  o.returned = none →
    o.registry.chairs = before.chairs ∧ o.registry.rows = before.rows ∧ o.events = []

/-- There is no table, or the database takes the row of this agent and this trust tier. -/
def Takes (r : Registry) (disk : String → Bool) (agentId : String) (trustTier : Number) : Prop :=
  r.rows = none ∨ disk agentId = true ∧ (storeInteger trustTier).isSome

/-- The beat finds the chair as it leaves it: it is in the millisecond of the last one, on a
chair that is online, and brings no other note. -/
def ChairClaim.Unchanged (chair : ChairClaim) (now : Int) (note : Option String) : Prop :=
  now = chair.lastBeaconAt ∧ (note = none ∨ note = chair.note) ∧ chair.status = .online

/-! ## Session ids -/

/-- Every session id of the chairs and of the table was drawn. -/
structure SessionsIn (issued : List String) (r : Registry) : Prop where
  chairs : ∀ id c, r.chairs.get? id = some c → c.sessionId ∈ issued
  rows : ∀ rows id row, r.rows = some rows → rows.get? id = some row → row.sessionId ∈ issued

namespace SessionsIn

variable {issued : List String} {r r' : Registry} {disk : String → Bool}

theorem mono {more : List String} (h : SessionsIn issued r) (hmore : ∀ s ∈ issued, s ∈ more) :
    SessionsIn more r where
  chairs := fun id c hc => hmore _ (h.chairs id c hc)
  rows := fun rows id row hrows hrow => hmore _ (h.rows rows id row hrows hrow)

theorem put {c : ChairClaim} (h : SessionsIn issued r) (hc : c.sessionId ∈ issued) :
    SessionsIn issued (r.put c) where
  chairs := by
    intro id c' hget
    rcases OrderedMap.get?_set_some hget with ⟨-, rfl⟩ | ⟨-, hold⟩
    · exact hc
    · exact h.chairs id c' hold
  rows := h.rows

theorem drop (h : SessionsIn issued r) (agentId : String) : SessionsIn issued (r.drop agentId) where
  chairs := fun id c hget => h.chairs id c (OrderedMap.get?_delete_some hget).2
  rows := h.rows

theorem persist {c : ChairClaim} (h : SessionsIn issued r) (hc : c.sessionId ∈ issued)
    (hpersist : r.persist disk c = some r') : SessionsIn issued r' := by
  unfold Registry.persist at hpersist
  split at hpersist
  next =>
    obtain rfl := Option.some.inj hpersist
    exact h
  next rows hrows =>
    split at hpersist
    next =>
      obtain ⟨row, hrow, rfl⟩ := Option.map_eq_some_iff.mp hpersist
      obtain ⟨tier, -, rfl⟩ := Option.map_eq_some_iff.mp hrow
      refine ⟨h.chairs, ?_⟩
      intro rows' id row' hrows' hget
      obtain rfl := Option.some.inj hrows'
      rcases OrderedMap.get?_set_some hget with ⟨-, rfl⟩ | ⟨-, hold⟩
      · exact hc
      · exact h.rows rows id row' hrows hold
    next => cases hpersist

theorem erase {agentId : String} (h : SessionsIn issued r)
    (herase : r.erase disk agentId = some r') : SessionsIn issued r' := by
  unfold Registry.erase at herase
  split at herase
  next =>
    obtain rfl := Option.some.inj herase
    exact h
  next rows hrows =>
    split at herase
    next =>
      obtain rfl := Option.some.inj herase
      refine ⟨h.chairs, ?_⟩
      intro rows' id row hrows' hget
      obtain rfl := Option.some.inj hrows'
      exact h.rows rows id row hrows (OrderedMap.get?_delete_some hget).2
    next => cases herase

theorem claim {now : Int} {sessionId : String} {input : ClaimInput} (h : SessionsIn issued r) :
    SessionsIn (sessionId :: issued) (claim r disk now sessionId input).registry := by
  have hput : SessionsIn (sessionId :: issued) (r.put (input.chair sessionId now)) :=
    (h.mono fun s hs => List.mem_cons_of_mem _ hs).put (List.mem_cons_self ..)
  unfold Presence.claim
  dsimp only
  split
  next => exact hput
  next r' hpersist => exact hput.persist (List.mem_cons_self ..) hpersist

theorem heartbeat {now : Int} {agentId sessionId : String} {note : Option String}
    (h : SessionsIn issued r) :
    SessionsIn issued (heartbeat r disk now agentId sessionId note).registry := by
  unfold Presence.heartbeat
  split
  next => exact h
  next chair hchair =>
    have hput : SessionsIn issued (r.put (chair.beat now note)) :=
      h.put (h.chairs agentId chair hchair)
    split
    next => exact h
    next =>
      dsimp only
      split
      next => exact hput
      next r' hpersist =>
        exact hput.persist (c := chair.beat now note) (h.chairs agentId chair hchair) hpersist

theorem release {now : Int} {agentId sessionId reason : String} (h : SessionsIn issued r) :
    SessionsIn issued (release r disk now agentId sessionId reason).registry := by
  unfold Presence.release
  split
  next => exact h
  next chair hchair =>
    split
    next => exact h
    next =>
      dsimp only
      split
      next => exact h.drop agentId
      next r' herase => exact (h.drop agentId).erase herase

theorem sweepChair {cfg : ChairRegistryConfig} {now : Int} {chair : ChairClaim}
    (h : SessionsIn issued r) (hchair : chair.sessionId ∈ issued) :
    SessionsIn issued (sweepChair cfg r disk now chair).registry := by
  unfold Presence.sweepChair
  split
  next =>
    dsimp only
    split
    next => exact h.drop chair.agentId
    next r' herase => exact (h.drop chair.agentId).erase herase
  next =>
    split
    next =>
      have hput : SessionsIn issued (r.put { chair with status := .stale }) := h.put hchair
      dsimp only
      split
      next => exact hput
      next r' hpersist =>
        exact hput.persist (c := { chair with status := .stale }) hchair hpersist
    next => exact h

theorem sweepChairs {cfg : ChairRegistryConfig} {now : Int} : ∀ (chairs : List ChairClaim)
    {r : Registry}, SessionsIn issued r → (∀ c ∈ chairs, c.sessionId ∈ issued) →
      SessionsIn issued (sweepChairs cfg disk now chairs r).registry
  | [], _, h, _ => h
  | chair :: chairs, r, h, hchairs => by
    have hswept : SessionsIn issued (Presence.sweepChair cfg r disk now chair).registry :=
      h.sweepChair (hchairs chair (List.mem_cons_self ..))
    rw [Presence.sweepChairs]
    dsimp only
    split
    next => exact hswept
    next => exact sweepChairs chairs hswept fun c hc => hchairs c (List.mem_cons_of_mem _ hc)

theorem hydrateRow {cutoff : Number} {agentId : String} {row : ChairRow} (h : SessionsIn issued r)
    (hrow : row.sessionId ∈ issued) (hrun : hydrateRow r disk cutoff agentId row = some r') :
    SessionsIn issued r' := by
  unfold Presence.hydrateRow at hrun
  split at hrun
  next => exact h.erase hrun
  next => exact SessionsIn.persist (h.put hrow) hrow hrun

theorem hydrateRows {cutoff : Number} : ∀ (rows : List (String × ChairRow)) {r : Registry},
    SessionsIn issued r → (∀ row ∈ rows, row.2.sessionId ∈ issued) →
      hydrateRows disk cutoff rows r = some r' → SessionsIn issued r'
  | [], _, h, _, hrun => by
    obtain rfl := Option.some.inj hrun
    exact h
  | row :: rows, r, h, hrows, hrun => by
    obtain ⟨r₁, hfirst, hrest⟩ := Option.bind_eq_some_iff.mp hrun
    exact hydrateRows rows (h.hydrateRow (hrows row (List.mem_cons_self ..)) hfirst)
      (fun e he => hrows e (List.mem_cons_of_mem _ he)) hrest

theorem construct {cfg : ChairRegistryConfig} {now : Int} (h : SessionsIn issued r)
    (hrun : construct cfg disk now r.rows = some r') : SessionsIn issued r' := by
  have hnew : SessionsIn issued { Registry.new false with rows := r.rows } :=
    ⟨fun id c hc => (by cases hc), h.rows⟩
  cases hrows : r.rows with
  | none =>
    rw [hrows] at hrun hnew
    obtain rfl := Option.some.inj hrun
    exact hnew
  | some table =>
    rw [hrows] at hrun hnew
    rw [Presence.construct] at hrun
    split at hrun
    next =>
      refine hydrateRows table.entries hnew ?_ hrun
      intro row hrow
      exact h.rows table row.1 row.2 hrows ((table.mem_entries_iff row.1 row.2).mp hrow)
    next => cases hrun

/-- One call, or the start of a new process. -/
theorem step {cfg : ChairRegistryConfig} {w w' : World} {e : Event}
    (h : SessionsIn w.issued w.registry) (hstep : step cfg w e = some w') :
    SessionsIn w'.issued w'.registry := by
  cases e with
  | call c =>
    rw [Presence.step] at hstep
    split at hstep
    next =>
      obtain rfl := Option.some.inj hstep
      cases c with
      | claim disk now sessionId input => exact h.claim
      | heartbeat disk now agentId sessionId note => exact h.heartbeat
      | release disk now agentId sessionId reason => exact h.release
      | sweep disk now =>
        refine sweepChairs w.registry.chairs.values h ?_
        intro c hc
        obtain ⟨id, hid⟩ := (OrderedMap.mem_values_iff _ c).mp hc
        exact h.chairs id c hid
    next => cases hstep
  | restart disk now =>
    obtain ⟨r', hr', rfl⟩ := Option.map_eq_some_iff.mp hstep
    exact h.construct hr'

/-- Every run, whatever the database refuses. -/
theorem of_reachable {cfg : ChairRegistryConfig} {hasDb : Bool} {w : World}
    (hw : (presence cfg hasDb).Reachable w) : SessionsIn w.issued w.registry := by
  refine Lts.reachable_invariant (I := fun w => SessionsIn w.issued w.registry) ?_ ?_ hw
  · refine ⟨fun id c hc => (by cases hc), ?_⟩
    intro rows id row hrows hrow
    cases hasDb with
    | false => cases hrows
    | true =>
      obtain rfl := Option.some.inj hrows
      cases hrow
  · intro w e w' h hstep
    exact h.step hstep

end SessionsIn

/-! ## Refused writes -/

section
variable {r : Registry} {disk : String → Bool}

/-- `persist` throws exactly if the table does not take the row. -/
theorem persist_none_iff (c : ChairClaim) :
    r.persist disk c = none ↔ ¬ Takes r disk c.agentId c.trustTier := by
  unfold Registry.persist Takes
  cases hrows : r.rows with
  | none => exact iff_of_false (fun h => by cases h) (fun h => h (Or.inl rfl))
  | some rows =>
    rw [or_iff_right (fun h => by cases h)]
    dsimp only
    by_cases hdisk : disk c.agentId = true
    · rw [if_pos hdisk, Option.map_eq_none_iff, toRow, Option.map_eq_none_iff, and_iff_right hdisk,
        Option.not_isSome_iff_eq_none]
    · rw [if_neg hdisk]
      exact iff_of_true rfl (fun h => hdisk h.1)

/-- A claim that is refused has filed its chair. -/
theorem claim_atomic_iff {issued : List String} (h : SessionsIn issued r) (now : Int)
    {sessionId : String} (hfresh : sessionId ∉ issued) (input : ClaimInput) :
    (claim r disk now sessionId input).Atomic r ↔ Takes r disk input.agentId input.tier := by
  have hpersist : (r.put (input.chair sessionId now)).persist disk (input.chair sessionId now) = none ↔
      ¬ Takes r disk input.agentId input.tier := persist_none_iff _
  unfold claim Outcome.Atomic
  dsimp only
  split
  next hnone =>
    refine iff_of_false ?_ (hpersist.mp hnone)
    intro hatomic
    -- the chair that was filed is not one that was there
    have hchairs : (r.put (input.chair sessionId now)).chairs = r.chairs := (hatomic rfl).1
    have hget : r.chairs.get? input.agentId = some (input.chair sessionId now) := by
      rw [← hchairs]
      exact OrderedMap.get?_set_self ..
    exact hfresh (h.chairs input.agentId _ hget)
  next r' hsome =>
    refine iff_of_true (fun hthrew => by cases hthrew) ?_
    by_contra hrefused
    rw [hpersist.mpr hrefused] at hsome
    cases hsome

/-- A beat leaves the chairs as they are exactly if it finds the chair as it leaves it. -/
theorem put_beat_iff {agentId : String} {chair : ChairClaim} {now : Int} {note : Option String}
    (hchair : r.chairs.get? agentId = some chair) :
    (r.put (chair.beat now note)).chairs = r.chairs ↔ chair.Unchanged now note := by
  have hagent : chair.agentId = agentId := r.filed agentId chair hchair
  have hbeat : chair.beat now note = chair ↔ chair.Unchanged now note := by
    constructor
    · intro hsame
      refine ⟨congrArg ChairClaim.lastBeaconAt hsame, ?_, (congrArg ChairClaim.status hsame).symm⟩
      have hnote : note.or chair.note = chair.note := congrArg ChairClaim.note hsame
      cases note with
      | none => exact Or.inl rfl
      | some note => exact Or.inr hnote
    · intro hgiven
      obtain ⟨rfl, hnote, honline⟩ := hgiven
      have hkept : note.or chair.note = chair.note := by
        rcases hnote with rfl | rfl
        · rfl
        · exact Option.or_self
      rw [ChairClaim.beat, hkept, ← honline]
  rw [← hbeat]
  constructor
  · intro hchairs
    have hget : (r.put (chair.beat now note)).chairs.get? agentId = some (chair.beat now note) := by
      rw [← hagent]
      exact OrderedMap.get?_set_self ..
    rw [hchairs, hchair] at hget
    exact (Option.some.inj hget).symm
  · intro hsame
    rw [hsame]
    exact OrderedMap.set_self (hagent ▸ hchair)

/-- A heartbeat that is refused has refreshed its chair, unless that changed nothing. -/
theorem heartbeat_atomic_iff (now : Int) (agentId sessionId : String) (note : Option String) :
    (heartbeat r disk now agentId sessionId note).Atomic r ↔
      ∀ chair, r.chairs.get? agentId = some chair → chair.sessionId = sessionId →
        Takes r disk agentId chair.trustTier ∨ chair.Unchanged now note := by
  unfold heartbeat Outcome.Atomic
  cases hchair : r.chairs.get? agentId with
  | none =>
    refine iff_of_true (fun hthrew => by cases hthrew) ?_
    intro chair hget
    cases hget
  | some chair =>
    have hagent : chair.agentId = agentId := r.filed agentId chair hchair
    have hone : (∀ chair', some chair = some chair' → chair'.sessionId = sessionId →
        Takes r disk agentId chair'.trustTier ∨ chair'.Unchanged now note) ↔
          (chair.sessionId = sessionId →
            Takes r disk agentId chair.trustTier ∨ chair.Unchanged now note) := by
      constructor
      · intro hall
        exact hall chair rfl
      · intro h chair' hget
        rw [← Option.some.inj hget]
        exact h
    rw [hone]
    dsimp only
    by_cases hsession : chair.sessionId = sessionId
    · have hpersist : (r.put (chair.beat now note)).persist disk (chair.beat now note) = none ↔
          ¬ Takes r disk agentId chair.trustTier := by
        rw [← hagent]
        exact persist_none_iff _
      rw [if_neg (fun hne => hne hsession)]
      split
      next hnone =>
        have hrefused := hpersist.mp hnone
        have hput : (r.put (chair.beat now note)).chairs = r.chairs ↔ chair.Unchanged now note :=
          put_beat_iff hchair
        constructor
        · intro hatomic _
          exact Or.inr (hput.mp (hatomic rfl).1)
        · intro hor _
          exact ⟨hput.mpr ((hor hsession).resolve_left hrefused), rfl, rfl⟩
      next r' hsome =>
        refine iff_of_true (fun hthrew => by cases hthrew) (fun _ => Or.inl ?_)
        by_contra hrefused
        rw [hpersist.mpr hrefused] at hsome
        cases hsome
    · rw [if_pos hsession]
      exact iff_of_true (fun hthrew => by cases hthrew) (fun h => absurd h hsession)

end

/-- For every registry that a run reaches, whatever the database refused before: a claim that
fails to persist leaves everything as it was exactly if it does not fail, and a heartbeat
exactly if it does not fail or changed nothing. -/
theorem all_or_nothing_iff (cfg : ChairRegistryConfig) (hasDb : Bool) (w : World)
    (hw : (presence cfg hasDb).Reachable w) (disk : String → Bool) (now : Int) :
    (∀ sessionId input, sessionId ∉ w.issued →
      ((claim w.registry disk now sessionId input).Atomic w.registry ↔
        Takes w.registry disk input.agentId input.tier)) ∧
    ∀ agentId sessionId note,
      (heartbeat w.registry disk now agentId sessionId note).Atomic w.registry ↔
        ∀ chair, w.registry.chairs.get? agentId = some chair → chair.sessionId = sessionId →
          Takes w.registry disk agentId chair.trustTier ∨ chair.Unchanged now note :=
  ⟨fun _ input hfresh => claim_atomic_iff (SessionsIn.of_reachable hw) now hfresh input,
    fun agentId sessionId note => heartbeat_atomic_iff now agentId sessionId note⟩

/-! ## A ghost claim -/

/-- A claim with a trust tier that is no integer. -/
def halfTier : ClaimInput where
  agentId := "shaev"
  provider := "anthropic"
  capabilities := some []
  trustTier := some (.fin (3 / 2))
  host := none
  note := none
  inboxUrl := none

/-- A claim of a whole tier is kept by the table. -/
theorem whole_tier_atomic :
    (claim (.new true) (fun _ => true) 0 "session-1" { halfTier with trustTier := none }).Atomic
      (.new true) :=
  ((all_or_nothing_iff defaultChairRegistryConfig true ⟨.new true, [], []⟩ ⟨[], rfl⟩ (fun _ => true) 0).1
    "session-1" { halfTier with trustTier := none } List.not_mem_nil).mpr
      (Or.inr ⟨rfl, by decide +kernel⟩)

/-- The database takes every write but refuses the tier: the claim throws, its chair is in the
map and the table is empty. -/
theorem half_tier_ghost :
    (claim (.new true) (fun _ => true) 0 "session-1" halfTier).returned = none ∧
      ((claim (.new true) (fun _ => true) 0 "session-1" halfTier).registry.chairs.get? "shaev").isSome
        = true ∧
      (claim (.new true) (fun _ => true) 0 "session-1" halfTier).registry.rows = some .empty ∧
      ¬ (claim (.new true) (fun _ => true) 0 "session-1" halfTier).Atomic (.new true) := by
  have hrefused : ¬ Takes (.new true) (fun _ => true) halfTier.agentId halfTier.tier := by
    intro hcases
    rcases hcases with hnone | ⟨-, htier⟩
    · cases hnone
    · exact absurd htier (by decide +kernel)
  have hpersist : (Registry.put (.new true) (halfTier.chair "session-1" 0)).persist (fun _ => true)
      (halfTier.chair "session-1" 0) = none := (persist_none_iff _).mpr hrefused
  have hghost : claim (.new true) (fun _ => true) 0 "session-1" halfTier
      = ⟨Registry.put (.new true) (halfTier.chair "session-1" 0), [], none⟩ := by
    unfold claim
    dsimp only
    rw [hpersist]
    rfl
  refine ⟨?_, ?_, ?_, ?_⟩
  · rw [hghost]
  · rw [hghost]
    rfl
  · rw [hghost]
    rfl
  · have hinit : SessionsIn [] (.new true) :=
      @SessionsIn.of_reachable defaultChairRegistryConfig true ⟨.new true, [], []⟩ ⟨[], rfl⟩
    exact fun hatomic => hrefused ((claim_atomic_iff hinit 0 List.not_mem_nil halfTier).mp hatomic)

end Kovael.Presence
