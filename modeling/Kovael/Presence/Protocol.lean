import Kovael.Presence.Moves

/-!
# One session at a time, and the events that tell it

`Phase` is the protocol of the chair events of one agent: a vacant chair is
claimed by a session; while it is held the session beats, turns stale and is
claimed again, never stale twice without a beat between; and it ends with a
release or an expiry, which is also how the claim that pushes it out ends it.
`Orderly` ties the log to the registry: the protocol has run up to the phase
the registry is in, and a session whose end was told holds no chair.
-/

namespace Kovael.Presence

open Js (Number OrderedMap)

variable {cfg : ChairRegistryConfig} {r : Registry} {disk : String → Bool}

/-! ## The protocol -/

inductive Phase where
  | vacant
  | held (sessionId : String) (stale : Bool)
  deriving DecidableEq, Repr

/-- The event that may come next, and what it leads to. -/
def Phase.next (p : Phase) (e : ChairEvent) : Option Phase :=
  match p, e.kind with
  | .vacant, .claimed => some (.held e.sessionId false)
  | .held s false, .heartbeat => if e.sessionId = s then some (.held s false) else none
  | .held s true, .claimed => if e.sessionId = s then some (.held s false) else none
  | .held s false, .stale => if e.sessionId = s then some (.held s true) else none
  | .held s _, .released => if e.sessionId = s then some .vacant else none
  | .held s _, .expired => if e.sessionId = s then some .vacant else none
  | _, _ => none

/-- The protocol over a list of events; `none` if one of them may not come. -/
def Phase.run (p : Phase) (events : List ChairEvent) : Option Phase := events.foldlM Phase.next p

/-- The events of one agent. -/
def trace (agentId : String) (log : List ChairEvent) : List ChairEvent :=
  log.filter fun e => e.agentId = agentId

/-- The phase that an entry of the map is in. -/
def phaseOf : Option ChairClaim → Phase
  | none => .vacant
  | some c => .held c.sessionId (c.status = .stale)

/-- The event ends a session. -/
def ChairEvent.Ends (e : ChairEvent) : Prop := e.kind = .released ∨ e.kind = .expired

theorem Phase.run_append (p : Phase) (events rest : List ChairEvent) :
    p.run (events ++ rest) = (p.run events).bind fun q => q.run rest :=
  List.foldlM_append ..

theorem Phase.run_single (p : Phase) (e : ChairEvent) : p.run [e] = p.next e := by
  rw [Phase.run, List.foldlM_cons]
  cases p.next e <;> rfl

theorem trace_append (agentId : String) (log events : List ChairEvent) :
    trace agentId (log ++ events) = trace agentId log ++ trace agentId events :=
  List.filter_append ..

theorem trace_self {e : ChairEvent} : trace e.agentId [e] = [e] := by simp [trace]

theorem trace_other {agentId : String} {e : ChairEvent} (h : e.agentId ≠ agentId) :
    trace agentId [e] = [] := by
  simp [trace, h]

/-! ## What the events have told -/

/-- The log and the registry agree, `issued` being the session ids drawn. -/
structure Orderly (issued : List String) (r : Registry) (log : List ChairEvent) : Prop where
  drawn : ∀ id c, r.chairs.get? id = some c → c.sessionId ∈ issued
  live : ∀ id c, r.chairs.get? id = some c → c.status ≠ .offline
  told : ∀ id, Phase.vacant.run (trace id log) = some (phaseOf (r.chairs.get? id))
  apart : ∀ id id' c c', r.chairs.get? id = some c → r.chairs.get? id' = some c' →
    c.sessionId = c'.sessionId → id = id'
  ended : ∀ e ∈ log, e.Ends → e.sessionId ∈ issued ∧
    ∀ id c, r.chairs.get? id = some c → c.sessionId ≠ e.sessionId

/-- A move emits the event that its agent's phase calls for, and leaves the
other agents alone. -/
theorem Move.tells {events : List ChairEvent} {r' : Registry} (h : Move r events r')
    (hlive : ∀ id c, r.chairs.get? id = some c → c.status ≠ .offline) :
    ∃ e, events = [e] ∧
      Phase.next (phaseOf (r.chairs.get? e.agentId)) e
        = some (phaseOf (r'.chairs.get? e.agentId)) ∧
      ∀ id, id ≠ e.agentId → r'.chairs.get? id = r.chairs.get? id := by
  cases h with
  | beat chair now note held =>
    have hbeat : (chair.beat now note).agentId = chair.agentId := rfl
    refine ⟨_, rfl, ?_, fun id => Move.others (.beat chair now note held)⟩
    rw [beatEvent_agent, held, Registry.get?_keep, hbeat, if_pos rfl]
    unfold beatEvent
    have hstatus := hlive _ _ held
    cases hs : chair.status with
    | online => simp [Phase.next, phaseOf, heldEvent, ChairClaim.beat, hs]
    | stale => simp [Phase.next, phaseOf, heldEvent, ChairClaim.beat, hs]
    | offline => exact absurd hs hstatus
  | age chair now reason held fresh =>
    refine ⟨_, rfl, ?_, fun id => Move.others (.age chair now reason held fresh)⟩
    simp only [heldEvent]
    rw [held, Registry.get?_keep, if_pos rfl]
    simp [Phase.next, phaseOf, fresh]
  | leave chair kind now reason held ended =>
    refine ⟨_, rfl, ?_, fun id => Move.others (.leave chair kind now reason held ended)⟩
    simp only [lostEvent]
    rw [held, Registry.get?_strike, if_pos rfl]
    rcases ended with rfl | rfl
    · simp [Phase.next, phaseOf]
    · simp [Phase.next, phaseOf]

/-- A chair after a move is live if it was before. -/
theorem Move.live {events : List ChairEvent} {r' : Registry} (h : Move r events r')
    (hlive : ∀ id c, r.chairs.get? id = some c → c.status ≠ .offline) {id : String}
    {c : ChairClaim} (hc : r'.chairs.get? id = some c) : c.status ≠ .offline := by
  obtain ⟨c₀, hc₀, -, hstatus⟩ := h.before hc
  rcases hstatus with rfl | hstatus
  · exact hlive id c hc₀
  · exact hstatus

/-- The event that a move emits ends a session only when its chair is gone. -/
theorem Move.ends {events : List ChairEvent} {r' : Registry} (h : Move r events r')
    {e : ChairEvent} (he : e ∈ events) (hends : e.Ends) :
    ∃ c, r.chairs.get? c.agentId = some c ∧ c.sessionId = e.sessionId ∧
      r'.chairs.get? c.agentId = none := by
  cases h with
  | beat chair now note held =>
    rw [List.mem_singleton] at he
    rw [he] at hends
    unfold beatEvent at hends
    split at hends
    next => exact absurd hends (by simp [ChairEvent.Ends, heldEvent])
    next => exact absurd hends (by simp [ChairEvent.Ends, heldEvent])
  | age chair now reason held fresh =>
    rw [List.mem_singleton] at he
    rw [he] at hends
    exact absurd hends (by simp [ChairEvent.Ends, heldEvent])
  | leave chair kind now reason held ended =>
    rw [List.mem_singleton] at he
    refine ⟨chair, held, by rw [he]; rfl, ?_⟩
    rw [Registry.get?_strike, if_pos rfl]

theorem Orderly.move {issued : List String} {log events : List ChairEvent} {r' : Registry}
    (h : Orderly issued r log) (hmove : Move r events r') :
    Orderly issued r' (log ++ events) where
  drawn := by
    intro id c hc
    obtain ⟨c₀, hc₀, hsession⟩ := hmove.held hc
    exact hsession ▸ h.drawn id c₀ hc₀
  live := fun id c hc => hmove.live h.live hc
  told := by
    intro id
    obtain ⟨e, rfl, hnext, hothers⟩ := hmove.tells h.live
    rw [trace_append, Phase.run_append, h.told, Option.bind_some]
    by_cases hid : id = e.agentId
    · rw [hid, trace_self, Phase.run_single, hnext]
    · rw [trace_other (Ne.symm hid), hothers id hid]
      rfl
  apart := by
    intro id id' c c' hc hc' hsame
    obtain ⟨c₀, hc₀, hsession⟩ := hmove.held hc
    obtain ⟨c₀', hc₀', hsession'⟩ := hmove.held hc'
    exact h.apart id id' c₀ c₀' hc₀ hc₀' (by rw [hsession, hsession', hsame])
  ended := by
    intro e he hends
    rcases List.mem_append.mp he with he | he
    · refine ⟨(h.ended e he hends).1, fun id c hc => ?_⟩
      obtain ⟨c₀, hc₀, hsession⟩ := hmove.held hc
      rw [← hsession]
      exact (h.ended e he hends).2 id c₀ hc₀
    · obtain ⟨left, hleft, hsession, hgone⟩ := hmove.ends he hends
      refine ⟨hsession ▸ h.drawn _ left hleft, fun id c hc hsame => ?_⟩
      obtain ⟨c₀, hc₀, hsession₀⟩ := hmove.held hc
      have hid := h.apart id left.agentId c₀ left hc₀ hleft
        (by rw [hsession₀, hsession, hsame])
      rw [hid, hgone] at hc
      exact absurd hc (by simp)

/-- A claim tells the end of the session it pushes out, then its own start. -/
theorem told_seat {now : Int} {sessionId : String} {input : ClaimInput} (p : Phase)
    (hp : p = phaseOf (r.chairs.get? input.agentId)) :
    p.run (supersededEvents r input.agentId now
        ++ [heldEvent .claimed (input.chair sessionId now) now none])
      = some (.held sessionId false) := by
  unfold supersededEvents
  rw [hp]
  cases hc : r.chairs.get? input.agentId with
  | none => rfl
  | some existing => simp [Phase.run, Phase.next, phaseOf, lostEvent, heldEvent, ClaimInput.chair]

theorem supersededEvents_agent {agentId : String} {now : Int} {e : ChairEvent}
    (he : e ∈ supersededEvents r agentId now) :
    ∃ c, r.chairs.get? agentId = some c ∧ e.agentId = agentId ∧ e.sessionId = c.sessionId := by
  unfold supersededEvents at he
  cases hc : r.chairs.get? agentId with
  | none =>
    rw [hc] at he
    exact absurd he List.not_mem_nil
  | some existing =>
    rw [hc] at he
    rw [List.mem_singleton] at he
    rw [he]
    exact ⟨existing, rfl, r.filed agentId existing hc, rfl⟩

theorem Orderly.seat {issued : List String} {log : List ChairEvent} {now : Int}
    {sessionId : String} {input : ClaimInput} (h : Orderly issued r log)
    (hfresh : sessionId ∉ issued) :
    Orderly (sessionId :: issued) (r.keep (input.chair sessionId now))
      (log ++ (supersededEvents r input.agentId now
        ++ [heldEvent .claimed (input.chair sessionId now) now none])) := by
  have hget : ∀ id, (r.keep (input.chair sessionId now)).chairs.get? id
      = if id = input.agentId then some (input.chair sessionId now) else r.chairs.get? id :=
    r.get?_keep _
  -- a chair of the new map is the new one, or an old one with a drawn session
  have hcases : ∀ {id c}, (r.keep (input.chair sessionId now)).chairs.get? id = some c →
      id = input.agentId ∧ c = input.chair sessionId now ∨
      id ≠ input.agentId ∧ r.chairs.get? id = some c ∧ c.sessionId ≠ sessionId := by
    intro id c hc
    rcases Registry.get?_keep_some hc with hnew | ⟨hid, hold⟩
    · exact .inl hnew
    · exact .inr ⟨hid, hold, fun hs => hfresh (hs ▸ h.drawn id c hold)⟩
  constructor
  · intro id c hc
    rcases hcases hc with ⟨_, rfl⟩ | ⟨_, hc, _⟩
    · exact List.mem_cons_self ..
    · exact List.mem_cons_of_mem _ (h.drawn id c hc)
  · intro id c hc
    rcases hcases hc with ⟨_, rfl⟩ | ⟨_, hc, _⟩
    · exact fun h => nomatch h
    · exact h.live id c hc
  · intro id
    rw [trace_append, Phase.run_append, h.told, Option.bind_some, hget]
    have hagents : ∀ e ∈ supersededEvents r input.agentId now
        ++ [heldEvent .claimed (input.chair sessionId now) now none], e.agentId = input.agentId := by
      intro e he
      rcases List.mem_append.mp he with he | he
      · obtain ⟨_, _, hagent, _⟩ := supersededEvents_agent he
        exact hagent
      · rw [List.mem_singleton.mp he]
        rfl
    by_cases hid : id = input.agentId
    · have htrace : trace id (supersededEvents r input.agentId now
          ++ [heldEvent .claimed (input.chair sessionId now) now none])
            = supersededEvents r input.agentId now
              ++ [heldEvent .claimed (input.chair sessionId now) now none] :=
        List.filter_eq_self.mpr fun e he => by simpa [hid] using hagents e he
      rw [htrace, if_pos hid, told_seat _ (by rw [hid])]
      rfl
    · have htrace : trace id (supersededEvents r input.agentId now
          ++ [heldEvent .claimed (input.chair sessionId now) now none]) = [] :=
        List.filter_eq_nil_iff.mpr fun e he => by simpa [hagents e he] using Ne.symm hid
      rw [htrace, if_neg hid]
      rfl
  · intro id id' c c' hc hc' hsame
    rcases hcases hc with ⟨hid, rfl⟩ | ⟨hid, hc, hs⟩
    · rcases hcases hc' with ⟨hid', _⟩ | ⟨_, _, hs'⟩
      · rw [hid, hid']
      · exact absurd hsame.symm hs'
    · rcases hcases hc' with ⟨_, rfl⟩ | ⟨_, hc', _⟩
      · exact absurd hsame hs
      · exact h.apart id id' c c' hc hc' hsame
  · intro e he hends
    rcases List.mem_append.mp he with he | he
    · refine ⟨List.mem_cons_of_mem _ (h.ended e he hends).1, fun id c hc => ?_⟩
      rcases hcases hc with ⟨_, rfl⟩ | ⟨_, hc, _⟩
      · intro (hs : sessionId = e.sessionId)
        exact hfresh (hs ▸ (h.ended e he hends).1)
      · exact (h.ended e he hends).2 id c hc
    · rcases List.mem_append.mp he with he | he
      · obtain ⟨old, hold, _, hsession⟩ := supersededEvents_agent he
        have hdrawn : e.sessionId ∈ issued := hsession ▸ h.drawn _ old hold
        refine ⟨List.mem_cons_of_mem _ hdrawn, fun id c hc hsame => ?_⟩
        rcases hcases hc with ⟨_, rfl⟩ | ⟨hid, hc, _⟩
        · have hs : sessionId = e.sessionId := hsame
          exact hfresh (hs ▸ hdrawn)
        · exact hid (h.apart id input.agentId c old hc hold (by rw [hsame, hsession]))
      · rw [List.mem_singleton.mp he] at hends
        exact absurd hends (by simp [ChairEvent.Ends, heldEvent])

/-! ## Runs of calls -/

theorem orderly_init (hasDb : Bool) : Orderly [] (.new hasDb) [] where
  drawn := fun _ _ hc => absurd hc (by simp [Registry.new])
  live := fun _ _ hc => absurd hc (by simp [Registry.new])
  told := fun _ => rfl
  apart := fun _ _ _ _ hc => absurd hc (by simp [Registry.new])
  ended := fun _ he => absurd he List.not_mem_nil

theorem orderly_step {w w' : World} {c : Call} (hI : Inv w)
    (h : Orderly w.issued w.registry w.log) (hw : WritesGoThrough w (.call c))
    (hstep : step cfg w (.call c) = some w') : Orderly w'.issued w'.registry w'.log := by
  obtain ⟨hissued, hcall⟩ := call_cases hI.mirrored hw hstep
  rcases hcall with ⟨disk, now, sessionId, input, rfl, hr, hlog, hfresh, _⟩
    | ⟨hnone, events, hmoves, hlog⟩
  · rw [hr, hlog, hissued]
    exact h.seat hfresh
  · rw [hlog, hissued, hnone]
    exact hmoves.preserve (I := Orderly w.issued)
      (fun _ _ _ _ hI hmove => hI.move hmove) w.log h

theorem orderly_run : ∀ (calls : List Call) {w w' : World} {hasDb : Bool}, Inv w →
    Orderly w.issued w.registry w.log →
    (presence cfg hasDb).Along WritesGoThrough w (calls.map .call) →
    (presence cfg hasDb).exec w (calls.map .call) = some w' →
    Inv w' ∧ Orderly w'.issued w'.registry w'.log
  | [], w, w', _, hI, h, _, hrun => by
    rw [List.map_nil, Lts.exec_nil, Option.some.injEq] at hrun
    exact hrun ▸ ⟨hI, h⟩
  | c :: calls, w, w', hasDb, hI, h, hw, hrun => by
    rw [List.map_cons] at hw hrun
    obtain ⟨w₁, hstep, hrest⟩ := Lts.exec_cons.mp hrun
    obtain ⟨hwc, hws⟩ := (Lts.along_cons hstep).mp hw
    exact orderly_run calls (inv_call hI hwc hstep) (orderly_step hI h hwc hstep) hws hrest

/-- A session that holds no chair gets nothing done. -/
theorem dead_session (r : Registry) {sessionId : String}
    (hdead : ∀ id c, r.chairs.get? id = some c → c.sessionId ≠ sessionId) (disk : String → Bool)
    (now : Int) (agentId : String) (note : Option String) (reason : String) :
    heartbeat r disk now agentId sessionId note = ⟨r, [], some none⟩ ∧
      release r disk now agentId sessionId reason = ⟨r, [], some false⟩ := by
  unfold heartbeat release
  cases hc : r.chairs.get? agentId with
  | none => exact ⟨rfl, rfl⟩
  | some chair =>
    have hne := hdead agentId chair hc
    simp only [ne_eq, hne, not_false_eq_true, if_true, and_self]

theorem lt_of_not_le {a b : Number} (ha : a ≠ .nan) (hb : b ≠ .nan) (h : a.le b = false) :
    b.lt a = true := by
  cases a <;> cases b <;> simp_all [Number.le, Number.lt]

/-- What a sweep leaves is within both limits. -/
theorem sweep_fresh {now : Int} (hr : Mirrored r) (hdisk : Writes r disk) {c : ChairClaim}
    (hc : c ∈ (sweep cfg r disk now).registry.chairs.values) :
    c.reached now cfg.offlineMs = false ∧
      (c.status = .online → c.reached now cfg.healthyMs = false) := by
  obtain ⟨r', events, hrun, _, hget⟩ := sweep_spec cfg now hr hdisk
  rw [hrun] at hc
  have hc' := (r'.mem_values c).mp hc
  rw [hget, Option.bind_eq_some_iff] at hc'
  obtain ⟨c₀, _, hto⟩ := hc'
  obtain ⟨hoff, rfl | ⟨rfl, hage⟩⟩ := sweptTo_some hto
  · exact ⟨hoff, fun h => nomatch h⟩
  · refine ⟨hoff, fun honline => ?_⟩
    by_contra hreached
    exact hage ⟨by simpa using hreached, by rw [honline]; exact fun h => nomatch h⟩

/-! ## The protocol of a run -/

/-- What holds after a run of calls, whatever they were and whatever the clock
read. -/
structure SessionProtocol (cfg : ChairRegistryConfig) (w : World) : Prop where
  /-- The events of each agent follow the protocol, up to the phase that the
  registry is in. -/
  follows : ∀ id, Phase.vacant.run (trace id w.log) = some (phaseOf (w.registry.chairs.get? id))
  /-- An agent has one current session at most. -/
  single : ∀ c ∈ w.registry.chairs.values, ∀ c' ∈ w.registry.chairs.values,
    c.agentId = c'.agentId → c = c'
  /-- A session that was superseded, released or expired changes nothing and
  emits nothing. -/
  dead : ∀ e ∈ w.log, e.Ends → ∀ disk now agentId note reason,
    heartbeat w.registry disk now agentId e.sessionId note = ⟨w.registry, [], some none⟩ ∧
      release w.registry disk now agentId e.sessionId reason = ⟨w.registry, [], some false⟩
  /-- A sweep leaves no beacon of `offlineMs`, and none online of `healthyMs`. -/
  swept : ∀ disk now, Writes w.registry disk →
    ∀ c ∈ (sweep cfg w.registry disk now).registry.chairs.values,
      cfg.offlineMs.le (.ofInt (c.age now)) = false ∧
        (c.status = .online → (Number.ofInt (c.age now)).lt cfg.healthyMs = true)

theorem sessionProtocol_of {w : World} (hI : Inv w) (h : Orderly w.issued w.registry w.log)
    (hcfg : cfg.healthyMs ≠ .nan) : SessionProtocol cfg w where
  follows := h.told
  single := by
    intro c hc c' hc' hid
    have hget := (w.registry.mem_values c).mp hc
    rw [hid, (w.registry.mem_values c').mp hc', Option.some.injEq] at hget
    exact hget.symm
  dead := by
    intro e he hends disk now agentId note reason
    exact dead_session w.registry (h.ended e he hends).2 disk now agentId note reason
  swept := by
    intro disk now hdisk c hc
    obtain ⟨hoff, honline⟩ := sweep_fresh hI.mirrored hdisk hc
    exact ⟨hoff, fun hs => lt_of_not_le hcfg (fun h => nomatch h) (honline hs)⟩

/-- In every run whose writes all go through, sessions hold their chairs one at
a time and the events tell it. -/
theorem sessions_follow_protocol (cfg : ChairRegistryConfig) (hasDb : Bool) (calls : List Call)
    (w : World)
    (hrun : (presence cfg hasDb).exec (presence cfg hasDb).init (calls.map .call) = some w)
    (hcfg : cfg.healthyMs ≠ .nan)
    (hw : (presence cfg hasDb).Along WritesGoThrough (presence cfg hasDb).init
      (calls.map .call)) :
    SessionProtocol cfg w := by
  obtain ⟨hI, horderly⟩ := orderly_run calls (inv_init cfg hasDb) (orderly_init hasDb) hw hrun
  exact sessionProtocol_of hI horderly hcfg

/-- Two claims of one chair, a late beat of the first session, and a sweep. -/
def reclaimed : List Call :=
  [.claim (fun _ => true) 0 "s1" ⟨"nyx", "Codex", none, none, none, none, none⟩,
    .claim (fun _ => true) 10 "s2" ⟨"nyx", "Codex", none, none, none, none, none⟩,
    .heartbeat (fun _ => true) 20 "nyx" "s1" none,
    .sweep (fun _ => true) 15010]

theorem reclaimed_follows : ∃ w,
    (presence defaultChairRegistryConfig true).exec
      (presence defaultChairRegistryConfig true).init (reclaimed.map .call) = some w ∧
    SessionProtocol defaultChairRegistryConfig w :=
  have htier : (storeInteger (.ofInt 3)).isSome = true := by decide +kernel
  ⟨_, rfl, sessions_follow_protocol _ true reclaimed _ rfl (by decide +kernel)
    ⟨.inr ⟨fun _ => rfl, htier⟩, .inr ⟨fun _ => rfl, htier⟩, .inr ⟨fun _ => rfl, trivial⟩,
      .inr ⟨fun _ => rfl, trivial⟩, trivial⟩⟩

/-- A claim whose trust tier the table refuses. -/
def refusedClaim : List Call :=
  [.claim (fun _ => true) 0 "s1" ⟨"nyx", "Codex", none, some (.fin (5 / 2)), none, none, none⟩,
    .sweep (fun _ => true) 30000]

/-- The chair that the refused claim left behind expires without ever having
been told claimed. -/
theorem refusedClaim_untold :
    ¬∀ (cfg : ChairRegistryConfig) (hasDb : Bool) (calls : List Call) (w : World),
      (presence cfg hasDb).exec (presence cfg hasDb).init (calls.map .call) = some w →
      cfg.healthyMs ≠ .nan →
      ∀ id, ∃ p, Phase.vacant.run (trace id w.log) = some p := by
  intro h
  obtain ⟨p, hp⟩ := h defaultChairRegistryConfig true refusedClaim _ rfl (by decide +kernel) "nyx"
  have hnone : ∀ w, (presence defaultChairRegistryConfig true).exec
      (presence defaultChairRegistryConfig true).init (refusedClaim.map .call) = some w →
      Phase.vacant.run (trace "nyx" w.log) = none := by
    intro w hw
    cases hw
    decide +kernel
  rw [hnone _ rfl] at hp
  exact absurd hp (by simp)

end Kovael.Presence
