import Kovael.Triad.Outcome
import Kovael.Lts

/-!
# The dispatch status of the roster

`recordPhaseEvent` keeps one status for each agent: `dispatching` from the dispatch of a
cycle to the terminal phase of a cycle. Cycles on one agent overlap, and the first of them
to end takes the status from the others. `Undisturbed` says which phase events leave the
status right; `exact_iff_undisturbed` says that these are all.

Mirroring notes vs the TS:
- `MevBridge.execute` awaits its roles, so the events of several cycles arrive in any
  order that keeps those of each cycle in theirs. A step delivers the next event of one
  cycle; a cycle begins with its first.
- `routedAgent` is tested for truth, so the agent named by the empty text is none.
-/

namespace Kovael.Cockpit

open Triad

/-! ## The store -/

inductive DispatchStatus where
  | online
  | idle
  | dispatching
  | offline
  deriving DecidableEq, Repr

/-- The fields of a card that phase events read or write. -/
structure AgentRosterCard where
  id : String
  status : DispatchStatus
  lastSeen : Option Int
  deriving DecidableEq, Repr

/-- The part of the store that phase events write. -/
structure RosterSlice where
  phaseEvents : List PhaseEvent
  agentRoster : List AgentRosterCard

/-- What an event that carries `agent` does to a card. -/
def AgentRosterCard.follow (evt : PhaseEvent) (agent : String) (card : AgentRosterCard) :
    AgentRosterCard :=
  if card.id = agent then
    { card with
      status := if evt.phase.isTerminal then .online else .dispatching
      lastSeen := some evt.timestamp }
  else card

/-- `recordPhaseEvent(evt)`. -/
def recordPhaseEvent (store : RosterSlice) (evt : PhaseEvent) : RosterSlice where
  phaseEvents := (evt :: store.phaseEvents).take 80
  agentRoster :=
    match evt.routedAgent with
    | some agent =>
      if agent ≠ "" then store.agentRoster.map (AgentRosterCard.follow evt agent)
      else store.agentRoster
    | none => store.agentRoster

/-! ## The events of a cycle -/

/-- A call of `execute`, once it is routed. -/
structure CycleRun where
  env : CycleEnv
  cycle : CycleTask
  context : List Triad.Message

/-- The agent that the cycle is routed to. -/
def CycleRun.agent (run : CycleRun) : String := run.cycle.routing.agent

/-- The phase events that the cycle emits. -/
def CycleRun.events (run : CycleRun) : List PhaseEvent :=
  (run.env.execute run.cycle run.context).2.emitted

/-- The agent that the event of a phase carries. -/
def carried (agent : String) (phase : TriadPhase) : Option String :=
  if phase = .dispatchToArchitect ∨ phase.isTerminal = true then some agent else none

/-- The events so far are a legal path, and those of the dispatch and of the end carry the
agent. -/
structure Reported (agent : String) (s : CycleState) : Prop where
  path : PathTo s.phases s.machine.phase
  routed : ∀ e ∈ s.emitted, e.routedAgent = carried agent e.phase

/-- The computation keeps to it, whether it returns or throws. -/
def Keeps {α : Type} (agent : String) (x : CycleM α) : Prop :=
  ∀ s, Reported agent s → Reported agent (x s).2

namespace Keeps

variable {α β : Type} {agent : String}

theorem bind {x : CycleM α} {f : α → CycleM β} (hx : Keeps agent x)
    (hf : ∀ a, Keeps agent (f a)) : Keeps agent (x >>= f) := by
  intro s hs
  have hthere := hx s hs
  rw [bind_run]
  rcases hrun : x s with ⟨outcome, there⟩
  rw [hrun] at hthere
  cases outcome with
  | ok a => exact hf a there hthere
  | error thrown => exact hthere

/-- What leaves the machine and its events alone. -/
theorem of_same {x : CycleM α}
    (hsame : ∀ s, (x s).2.machine = s.machine ∧ (x s).2.emitted = s.emitted) :
    Keeps agent x := by
  intro s hs
  obtain ⟨hmachine, hemitted⟩ := hsame s
  constructor
  · rw [hmachine, CycleState.phases, hemitted]
    exact hs.path
  · rw [hemitted]
    exact hs.routed

theorem call (outcome : Except Thrown α) : Keeps agent (call outcome) :=
  of_same fun _ => ⟨rfl, rfl⟩

theorem pure (a : α) : Keeps agent (Pure.pure a : CycleM α) :=
  of_same fun _ => ⟨rfl, rfl⟩

theorem transition (env : CycleEnv) {next : TriadPhase} {routedAgent : Option String}
    (hcarried : routedAgent = carried agent next) (note : Option String) :
    Keeps agent (env.transition next routedAgent note) := by
  intro s hs
  unfold CycleEnv.transition
  split
  next hnext =>
    constructor
    · have hphases : (s.emitted ++ [s.machine.event next (env.clock s.reads) routedAgent note]).map
          PhaseEvent.phase = s.phases ++ [next] := List.map_append
      show PathTo ((s.emitted ++ _).map PhaseEvent.phase) next
      rw [hphases]
      exact hs.path.step hnext
    · intro e he
      rcases List.mem_append.mp he with he | he
      · exact hs.routed e he
      · obtain rfl := List.mem_singleton.mp he
        exact hcarried
  next => exact hs

end Keeps

theorem carried_verdict (agent : String) (success : Bool) :
    carried agent (verdict success) = some agent :=
  if_pos (Or.inr (verdict_terminal success))

theorem keeps_runRoles (env : CycleEnv) (cycle : CycleTask) (span : Option CycleSpan)
    (context : List Triad.Message) :
    Keeps cycle.routing.agent (env.runRoles cycle span context) := by
  unfold CycleEnv.runRoles
  refine (Keeps.transition env rfl _).bind fun _ => ?_
  refine (Keeps.transition env rfl _).bind fun _ => ?_
  refine (Keeps.call _).bind fun blueprint => ?_
  refine (Keeps.transition env rfl _).bind fun _ => ?_
  refine (Keeps.transition env rfl _).bind fun _ => ?_
  refine (Keeps.call _).bind fun executionResult => ?_
  refine (Keeps.transition env rfl _).bind fun _ => ?_
  refine (Keeps.transition env rfl _).bind fun _ => ?_
  refine (Keeps.call _).bind fun verification => ?_
  refine (Keeps.transition env rfl _).bind fun _ => ?_
  exact Keeps.pure _

theorem keeps_issueReceipt (env : CycleEnv) (cycle : CycleTask) (span : Option CycleSpan)
    (context : List Triad.Message) (cycleStart : Int) (done : RolesDone) :
    Keeps cycle.routing.agent (env.issueReceipt cycle span context cycleStart done) := by
  have hnow : Keeps cycle.routing.agent env.now := Keeps.of_same fun _ => ⟨rfl, rfl⟩
  unfold CycleEnv.issueReceipt
  refine Keeps.bind ?_ fun receipt => ?_
  · unfold CycleEnv.buildReceipt
    refine hnow.bind fun tokensNow => hnow.bind fun timestamp => ?_
    exact Keeps.of_same fun _ => ⟨rfl, rfl⟩
  refine (Keeps.transition env (carried_verdict _ _).symm _).bind fun _ => ?_
  refine Keeps.bind (Keeps.of_same fun _ => ⟨rfl, rfl⟩) fun phaseTrail => ?_
  unfold CycleEnv.fileReceipt
  refine Keeps.bind ?_ fun _ => ?_
  · refine Keeps.of_same fun s => ?_
    unfold CycleEnv.storeReceipt
    split
    next => exact ⟨rfl, rfl⟩
    next => exact ⟨rfl, rfl⟩
  refine Keeps.bind (Keeps.of_same fun _ => ⟨rfl, rfl⟩) fun _ => ?_
  exact (Keeps.call _).bind fun _ => Keeps.pure _

theorem reported_failCycle (env : CycleEnv) (cycle : CycleTask) (span : Option CycleSpan)
    (error : Thrown) {s : CycleState} (hs : Reported cycle.routing.agent s) :
    Reported cycle.routing.agent (env.failCycle cycle span error s).2 := by
  unfold CycleEnv.failCycle
  by_cases hover : s.machine.phase.isTerminal = true
  · rw [if_pos hover]
    dsimp only
    split
    next => exact hs
    next => exact hs
  · rw [if_neg hover]
    dsimp only
    cases error.message with
    | error unread =>
      dsimp only
      split
      next => exact hs
      next => exact hs
    | ok note =>
      have hfailed : Reported cycle.routing.agent
          (env.transition .failed (some cycle.routing.agent) note s).2 :=
        Keeps.transition env rfl note s hs
      dsimp only
      split
      next => exact hfailed
      next => exact hfailed

/-- A cycle reports its agent with its dispatch and its end, whatever throws. -/
theorem reported_execute (run : CycleRun) :
    Reported run.agent (run.env.execute run.cycle run.context).2 := by
  have hstart : Reported run.agent (run.env.atStart run.cycle) :=
    ⟨.start, fun e he => absurd he List.not_mem_nil⟩
  unfold CycleEnv.execute
  dsimp only
  split
  next => exact hstart
  next context _ =>
    split
    next => exact hstart
    next span _ =>
      have hdone := (keeps_runRoles run.env run.cycle span context).bind
        (keeps_issueReceipt run.env run.cycle span context (run.env.clock 1)) _ hstart
      split
      next hrun =>
        rw [hrun] at hdone
        exact hdone
      next hrun =>
        rw [hrun] at hdone
        exact reported_failCycle run.env run.cycle span _ hdone

/-- Nothing follows a terminal phase. -/
theorem last_of_terminal {phases before after : List TriadPhase} {p q : TriadPhase}
    (path : PathTo phases p) (hphases : phases = before ++ q :: after)
    (hq : q.isTerminal = true) : after = [] := by
  cases after with
  | nil => rfl
  | cons r after =>
    have hchain := path.isChain
    rw [hphases, ← List.cons_append, List.isChain_append_cons_cons] at hchain
    have hnext := hchain.2.1
    rw [(TriadPhase.isTerminal_iff q).mp hq] at hnext
    exact absurd hnext List.not_mem_nil

/-! ## Cycles that overlap -/

section
variable {ι : Type} [DecidableEq ι] (cycles : ι → CycleRun)

/-- How many of its events each cycle has emitted, and the store they were delivered to. -/
structure Interleaved (ι : Type) where
  sent : ι → Nat
  store : RosterSlice

/-- The cycle emits an event. -/
def Interleaved.next (s : Interleaved ι) (k : ι) (evt : PhaseEvent) : Interleaved ι where
  sent := Function.update s.sent k (s.sent k + 1)
  store := recordPhaseEvent s.store evt

/-- The next event of a cycle is emitted and delivered. -/
def deliverNext (s : Interleaved ι) (k : ι) : Option (Interleaved ι) :=
  ((cycles k).events[s.sent k]?).map (s.next k)

/-- Any number of cycles, before their first events. -/
def interleaved (store : RosterSlice) : Lts (Interleaved ι) ι where
  init := ⟨fun _ => 0, store⟩
  step := deliverNext cycles

/-- The cycle has emitted its dispatch event and no terminal phase. -/
def Open (s : Interleaved ι) (k : ι) : Prop :=
  (∃ e ∈ (cycles k).events.take (s.sent k), e.phase = .dispatchToArchitect) ∧
    ∀ e ∈ (cycles k).events.take (s.sent k), e.phase.isTerminal = false

/-- A card is dispatching exactly if a cycle routed to its agent is open. -/
def Exact (s : Interleaved ι) : Prop :=
  ∀ card ∈ s.store.agentRoster,
    card.status = .dispatching ↔ ∃ k, (cycles k).agent = card.id ∧ Open cycles s k

/-- If the roster shows the agent of the cycle, the next event of the cycle is not the
dispatch of an agent without a name, and not the end of the cycle while another one is open
on the agent. -/
def Undisturbed (s : Interleaved ι) (k : ι) : Prop :=
  ∀ e, (cycles k).events[s.sent k]? = some e →
    (∃ card ∈ s.store.agentRoster, card.id = (cycles k).agent) →
      (e.phase = .dispatchToArchitect → (cycles k).agent ≠ "") ∧
      (e.phase.isTerminal = true →
        ∀ j, j ≠ k → (cycles j).agent = (cycles k).agent → ¬ Open cycles s j)

/-- No card of the agent without a name is dispatching. -/
def NoBlank (s : Interleaved ι) : Prop :=
  ∀ card ∈ s.store.agentRoster, card.id = "" → card.status ≠ .dispatching

variable {cycles} {s t : Interleaved ι} {k : ι}

/-- The step delivers an event that carries its agent if it should, before which there was no
terminal one. -/
theorem deliverNext_cases (hstep : deliverNext cycles s k = some t) :
    ∃ evt, (cycles k).events[s.sent k]? = some evt ∧
      t = s.next k evt ∧
      evt.routedAgent = carried (cycles k).agent evt.phase ∧
      ∀ e ∈ (cycles k).events.take (s.sent k), e.phase.isTerminal = false := by
  obtain ⟨evt, hevt, rfl⟩ := Option.map_eq_some_iff.mp hstep
  have hreported := reported_execute (cycles k)
  refine ⟨evt, hevt, rfl, hreported.routed evt (List.mem_of_getElem? hevt), ?_⟩
  intro e he
  obtain ⟨before, between, hsplit⟩ := List.append_of_mem he
  by_contra hterminal
  have hall : (cycles k).events = before ++ e :: (between ++ (cycles k).events.drop (s.sent k)) := by
    rw [← List.cons_append, ← List.append_assoc, ← hsplit, List.take_append_drop]
  have hlast := last_of_terminal hreported.path
    (show (cycles k).events.map PhaseEvent.phase = _ by rw [hall, List.map_append, List.map_cons])
    (Bool.not_eq_false _ ▸ hterminal)
  have hdrop : (cycles k).events.drop (s.sent k) = [] :=
    (List.append_eq_nil_iff.mp (List.map_eq_nil_iff.mp hlast)).2
  have hshort := List.drop_eq_nil_iff.mp hdrop
  rw [List.getElem?_eq_none hshort] at hevt
  cases hevt

/-- The other cycles stay as they are. -/
theorem open_other {evt : PhaseEvent} {j : ι} (hj : j ≠ k) :
    Open cycles (s.next k evt) j ↔ Open cycles s j := by
  unfold Open Interleaved.next
  dsimp only
  rw [Function.update_of_ne hj]

/-- The cycle itself goes on from its event. -/
theorem open_self {evt : PhaseEvent} (hevt : (cycles k).events[s.sent k]? = some evt) :
    Open cycles (s.next k evt) k ↔
      ((∃ e ∈ (cycles k).events.take (s.sent k), e.phase = .dispatchToArchitect) ∨
          evt.phase = .dispatchToArchitect) ∧
        (∀ e ∈ (cycles k).events.take (s.sent k), e.phase.isTerminal = false) ∧
        evt.phase.isTerminal = false := by
  unfold Open Interleaved.next
  dsimp only
  rw [Function.update_self, List.take_add_one, hevt]
  simp only [Option.toList_some, List.mem_append, List.mem_singleton, or_and_right, exists_or,
    exists_eq_left, or_imp, forall_and, forall_eq]

/-- The card after an event of a cycle on the agent. -/
def AgentRosterCard.after (evt : PhaseEvent) (agent : String) (card : AgentRosterCard) :
    AgentRosterCard :=
  if (evt.phase = .dispatchToArchitect ∨ evt.phase.isTerminal = true) ∧ agent ≠ "" then
    card.follow evt agent
  else card

theorem roster_next {evt : PhaseEvent} {agent : String}
    (hcarried : evt.routedAgent = carried agent evt.phase) :
    (s.next k evt).store.agentRoster = s.store.agentRoster.map (·.after evt agent) := by
  unfold Interleaved.next recordPhaseEvent AgentRosterCard.after
  dsimp only
  rw [hcarried, carried]
  by_cases hcarries : evt.phase = .dispatchToArchitect ∨ evt.phase.isTerminal = true
  · rw [if_pos hcarries]
    by_cases hagent : agent ≠ ""
    · simp only [hcarries, hagent, ne_eq, not_false_eq_true, and_self, if_true]
    · simp only [hagent, and_false, if_false, List.map_id']
  · rw [if_neg hcarries]
    simp only [hcarries, false_and, if_false, List.map_id']

theorem after_id (evt : PhaseEvent) (agent : String) (card : AgentRosterCard) :
    (card.after evt agent).id = card.id := by
  unfold AgentRosterCard.after AgentRosterCard.follow
  split
  next =>
    split
    next => rfl
    next => rfl
  next => rfl

/-- The cards of other agents stay as they are. -/
theorem after_other {evt : PhaseEvent} {agent : String} {card : AgentRosterCard}
    (hid : card.id ≠ agent) : card.after evt agent = card := by
  unfold AgentRosterCard.after AgentRosterCard.follow
  rw [if_neg hid]
  exact ite_self card

/-- `Exact`, said of the cards of the agent, if it held before. -/
theorem exact_next {evt : PhaseEvent} (hs : Exact cycles s)
    (hcarried : evt.routedAgent = carried (cycles k).agent evt.phase) :
    Exact cycles (s.next k evt) ↔
      ∀ card ∈ s.store.agentRoster, card.id = (cycles k).agent →
        ((card.after evt (cycles k).agent).status = .dispatching ↔
          Open cycles (s.next k evt) k ∨
            ∃ j, j ≠ k ∧ (cycles j).agent = (cycles k).agent ∧ Open cycles s j) := by
  unfold Exact
  rw [roster_next hcarried, List.forall_mem_map]
  refine forall₂_congr fun card hcard => ?_
  rw [after_id]
  by_cases hid : card.id = (cycles k).agent
  · have hopens : (∃ j, (cycles j).agent = card.id ∧ Open cycles (s.next k evt) j) ↔
        Open cycles (s.next k evt) k ∨
          ∃ j, j ≠ k ∧ (cycles j).agent = (cycles k).agent ∧ Open cycles s j := by
      constructor
      · intro hgiven
        obtain ⟨j, hj, hopen⟩ := hgiven
        by_cases hjk : j = k
        · exact Or.inl (hjk ▸ hopen)
        · exact Or.inr ⟨j, hjk, hj.trans hid, (open_other hjk).mp hopen⟩
      · intro hcases
        rcases hcases with hopen | ⟨j, hjk, hj, hopen⟩
        · exact ⟨k, hid.symm, hopen⟩
        · exact ⟨j, hj.trans hid.symm, (open_other hjk).mpr hopen⟩
    rw [hopens]
    exact ⟨fun h _ => h, fun h => h hid⟩
  · refine iff_of_true ?_ fun h => absurd h hid
    rw [after_other hid, hs card hcard]
    refine exists_congr fun j => and_congr_right fun hj => ?_
    have hjk : j ≠ k := by
      intro heq
      obtain rfl := heq
      exact hid hj.symm
    exact (open_other hjk).symm

/-- The event of a dispatch. -/
theorem exact_dispatch {evt : PhaseEvent} (hs : Exact cycles s) (hblank : NoBlank s)
    (hevt : (cycles k).events[s.sent k]? = some evt)
    (hcarried : evt.routedAgent = carried (cycles k).agent evt.phase)
    (hgoing : ∀ e ∈ (cycles k).events.take (s.sent k), e.phase.isTerminal = false)
    (hphase : evt.phase = .dispatchToArchitect) :
    Exact cycles (s.next k evt) ↔
      ((∃ card ∈ s.store.agentRoster, card.id = (cycles k).agent) → (cycles k).agent ≠ "") := by
  have hterminal : evt.phase.isTerminal = false := by
    rw [hphase]
    rfl
  have hopen : Open cycles (s.next k evt) k :=
    (open_self hevt).mpr ⟨Or.inr hphase, hgoing, hterminal⟩
  rw [exact_next hs hcarried]
  constructor
  · intro h hgiven
    obtain ⟨card, hcard, hid⟩ := hgiven
    intro hagent
    have hstatus := (h card hcard hid).mpr (Or.inl hopen)
    unfold AgentRosterCard.after at hstatus
    rw [if_neg fun hnamed => hnamed.2 hagent] at hstatus
    exact hblank card hcard (hid.trans hagent) hstatus
  · intro hnamed card hcard hid
    refine iff_of_true ?_ (Or.inl hopen)
    unfold AgentRosterCard.after AgentRosterCard.follow
    rw [if_pos ⟨Or.inl hphase, hnamed ⟨card, hcard, hid⟩⟩, if_pos hid, hterminal]
    rfl

/-- The event of an end. -/
theorem exact_terminal {evt : PhaseEvent} (hs : Exact cycles s) (hblank : NoBlank s)
    (hevt : (cycles k).events[s.sent k]? = some evt)
    (hcarried : evt.routedAgent = carried (cycles k).agent evt.phase)
    (hterminal : evt.phase.isTerminal = true) :
    Exact cycles (s.next k evt) ↔
      ((∃ card ∈ s.store.agentRoster, card.id = (cycles k).agent) →
        ∀ j, j ≠ k → (cycles j).agent = (cycles k).agent → ¬ Open cycles s j) := by
  have hclosed : ¬ Open cycles (s.next k evt) k := by
    rw [open_self hevt, hterminal]
    exact fun h => Bool.noConfusion h.2.2
  have hstatus : ∀ card ∈ s.store.agentRoster, card.id = (cycles k).agent →
      (card.after evt (cycles k).agent).status ≠ .dispatching := by
    intro card hcard hid
    unfold AgentRosterCard.after AgentRosterCard.follow
    rw [if_pos hid, hterminal]
    split
    next => exact DispatchStatus.noConfusion
    next hnot =>
      -- the agent has no name
      refine hblank card hcard ?_
      by_contra hnamed
      exact hnot ⟨Or.inr rfl, hid ▸ hnamed⟩
  rw [exact_next hs hcarried]
  constructor
  · intro h hgiven
    obtain ⟨card, hcard, hid⟩ := hgiven
    intro j hjk hj hopen
    exact hstatus card hcard hid ((h card hcard hid).mpr (Or.inr ⟨j, hjk, hj, hopen⟩))
  · intro halone card hcard hid
    refine iff_of_false (hstatus card hcard hid) ?_
    intro hcases
    rcases hcases with hopen | ⟨j, hjk, hj, hopen⟩
    · exact hclosed hopen
    · exact halone ⟨card, hcard, hid⟩ j hjk hj hopen

/-- Any other event. -/
theorem exact_between {evt : PhaseEvent} (hs : Exact cycles s)
    (hevt : (cycles k).events[s.sent k]? = some evt)
    (hcarried : evt.routedAgent = carried (cycles k).agent evt.phase)
    (hphase : evt.phase ≠ .dispatchToArchitect) (hterminal : evt.phase.isTerminal = false) :
    Exact cycles (s.next k evt) := by
  rw [exact_next hs hcarried]
  intro card hcard hid
  have hsame : card.after evt (cycles k).agent = card := by
    refine if_neg ?_
    intro hcases
    rcases hcases with ⟨hdispatch | hend, -⟩
    · exact hphase hdispatch
    · rw [hterminal] at hend
      cases hend
  have hopen : Open cycles (s.next k evt) k ↔ Open cycles s k := by
    rw [open_self hevt, or_iff_left hphase, hterminal]
    unfold Open
    simp only [and_true]
  rw [hsame, hs card hcard, hopen]
  constructor
  · intro hgiven
    obtain ⟨j, hj, hopen⟩ := hgiven
    by_cases hjk : j = k
    · exact Or.inl (hjk ▸ hopen)
    · exact Or.inr ⟨j, hjk, hj.trans hid, hopen⟩
  · intro hcases
    rcases hcases with hopen | ⟨j, -, hj, hopen⟩
    · exact ⟨k, hid.symm, hopen⟩
    · exact ⟨j, hj.trans hid.symm, hopen⟩

/-- What one event does to an exact roster. -/
theorem exact_step_iff (hs : Exact cycles s) (hblank : NoBlank s)
    (hstep : deliverNext cycles s k = some t) : Exact cycles t ↔ Undisturbed cycles s k := by
  obtain ⟨evt, hevt, rfl, hcarried, hgoing⟩ := deliverNext_cases hstep
  have hnext : ∀ {e}, (cycles k).events[s.sent k]? = some e → e = evt :=
    fun he => Option.some.inj (he.symm.trans hevt)
  by_cases hphase : evt.phase = .dispatchToArchitect
  · rw [exact_dispatch hs hblank hevt hcarried hgoing hphase]
    constructor
    · intro hnamed e he hshown
      obtain rfl := hnext he
      refine ⟨fun _ => hnamed hshown, fun hend => ?_⟩
      rw [hphase] at hend
      cases hend
    · intro h hshown
      exact (h evt hevt hshown).1 hphase
  · cases hterminal : evt.phase.isTerminal with
    | true =>
      rw [exact_terminal hs hblank hevt hcarried hterminal]
      constructor
      · intro halone e he hshown
        obtain rfl := hnext he
        exact ⟨fun hdispatch => absurd hdispatch hphase, fun _ => halone hshown⟩
      · intro h hshown
        exact (h evt hevt hshown).2 hterminal
    | false =>
      refine iff_of_true (exact_between hs hevt hcarried hphase hterminal) ?_
      intro e he _
      obtain rfl := hnext he
      refine ⟨fun hdispatch => absurd hdispatch hphase, fun hend => ?_⟩
      rw [hterminal] at hend
      cases hend

/-- The card of the agent without a name keeps its status. -/
theorem noBlank_step (hblank : NoBlank s) (hstep : deliverNext cycles s k = some t) :
    NoBlank t := by
  obtain ⟨evt, -, rfl, hcarried, -⟩ := deliverNext_cases hstep
  unfold NoBlank
  rw [roster_next hcarried, List.forall_mem_map]
  intro card hcard
  rw [after_id]
  intro hid
  have hsame : card.after evt (cycles k).agent = card := by
    by_cases hagent : card.id = (cycles k).agent
    · exact if_neg fun hnamed => hnamed.2 (hagent.symm.trans hid)
    · exact after_other hagent
  rw [hsame]
  exact hblank card hcard hid

end

/-- For every interleaving of any number of cycles: the roster is exact after each event,
exactly if no event disturbs it. -/
theorem exact_iff_undisturbed {ι : Type} [DecidableEq ι] (cycles : ι → CycleRun)
    (store : RosterSlice) (hidle : ∀ card ∈ store.agentRoster, card.status ≠ .dispatching)
    (events : List ι) {s : Interleaved ι}
    (hrun : (interleaved cycles store).exec (interleaved cycles store).init events = some s) :
    (∀ pre post t, events = pre ++ post →
        (interleaved cycles store).exec (interleaved cycles store).init pre = some t →
          Exact cycles t) ↔
      (interleaved cycles store).Along (Undisturbed cycles) (interleaved cycles store).init
        events := by
  have hstart : Exact cycles (interleaved cycles store).init ∧
      NoBlank (interleaved cycles store).init := by
    refine ⟨fun card hcard => iff_of_false (hidle card hcard) ?_, fun card hcard _ => hidle card hcard⟩
    intro hgiven
    obtain ⟨k, -, ⟨e, he, -⟩, -⟩ := hgiven
    exact absurd he List.not_mem_nil
  have hsteps : ∀ s k t, Exact cycles s ∧ NoBlank s → (interleaved cycles store).step s k = some t →
      (Exact cycles t ∧ NoBlank t ↔ Undisturbed cycles s k) := by
    intro s k t hgiven
    obtain ⟨hs, hblank⟩ := hgiven
    intro hstep
    rw [and_iff_left (noBlank_step hblank hstep)]
    exact exact_step_iff hs hblank hstep
  have hblanks : ∀ s k t, NoBlank s → True → (interleaved cycles store).step s k = some t →
      NoBlank t := by
    intro s k t hblank _ hstep
    exact noBlank_step hblank (show deliverNext cycles s k = some t from hstep)
  rw [← Lts.forall_exec_iff_along hsteps events hstart hrun]
  constructor
  · intro h pre post t heq hpre
    exact ⟨h pre post t heq hpre,
      Lts.exec_invariant hblanks pre hstart.2 hpre (Lts.along_true _ _)⟩
  · intro h pre post t heq hpre
    exact (h pre post t heq hpre).1

/-! ## Two cycles on one agent -/

/-- The roster of the agent that both are routed to. -/
def sampleRoster : RosterSlice := ⟨[], [⟨"nyx-cli", .online, none⟩]⟩

/-- Two cycles in which nothing throws. -/
def twoCycles (second : Bool) : CycleRun where
  env := { quietEnv none with cycleId := if second then "cycle-2" else "cycle-1" }
  cycle := smallCycle
  context := []

/-- The dispatch of a cycle on its own. -/
theorem dispatch_exact :
    ∃ s, (interleaved twoCycles sampleRoster).exec (interleaved twoCycles sampleRoster).init [false]
      = some s ∧ Exact twoCycles s := by
  have hruns : ((interleaved twoCycles sampleRoster).exec
      (interleaved twoCycles sampleRoster).init [false]).isSome = true := by
    decide +kernel
  have hfirst : ((twoCycles false).events[0]?).map PhaseEvent.phase = some .dispatchToArchitect :=
    rfl
  obtain ⟨s, hrun⟩ := Option.isSome_iff_exists.mp hruns
  refine ⟨s, hrun, (exact_iff_undisturbed twoCycles sampleRoster (by decide) [false] hrun).mpr ?_
    [false] [] s rfl hrun⟩
  obtain ⟨t, hstep, -⟩ := Lts.exec_cons.mp hrun
  refine (Lts.along_cons hstep).mpr ⟨?_, trivial⟩
  intro e he _
  refine ⟨fun _ => by decide, fun hend => ?_⟩
  rw [show (twoCycles false).events[0]? = some e from he, Option.map_some, Option.some.injEq]
    at hfirst
  rw [hfirst] at hend
  cases hend

/-- The first to end leaves the other open, with its agent online. -/
theorem overlap_not_exact :
    ∃ s, (interleaved twoCycles sampleRoster).exec (interleaved twoCycles sampleRoster).init
        ([false, true] ++ List.replicate 7 false) = some s ∧ ¬ Exact twoCycles s := by
  have hend : ((interleaved twoCycles sampleRoster).exec (interleaved twoCycles sampleRoster).init
      ([false, true] ++ List.replicate 7 false)).map
        (fun s => (s.store.agentRoster.map fun card => (card.id, card.status), s.sent true))
      = some ([("nyx-cli", .online)], 1) := by
    decide +kernel
  obtain ⟨s, hrun, heq⟩ := Option.map_eq_some_iff.mp hend
  rw [Prod.mk.injEq] at heq
  obtain ⟨hroster, hsent⟩ := heq
  refine ⟨s, hrun, ?_⟩
  intro hexact
  obtain ⟨card, hcard, hshown⟩ := List.mem_map.mp (hroster ▸ List.mem_singleton_self _)
  rw [Prod.mk.injEq] at hshown
  have hfirst : ((twoCycles true).events.take 1).map PhaseEvent.phase = [.dispatchToArchitect] :=
    rfl
  have hopen : Open twoCycles s true := by
    unfold Open
    rw [hsent]
    constructor
    · exact List.mem_map.mp (hfirst ▸ List.mem_singleton_self _)
    · intro e he
      have hphase := List.mem_map_of_mem (f := PhaseEvent.phase) he
      rw [hfirst] at hphase
      rw [List.mem_singleton.mp hphase]
      rfl
  have hstatus := (hexact card hcard).mpr ⟨true, hshown.1.symm, hopen⟩
  rw [hshown.2] at hstatus
  cases hstatus

end Kovael.Cockpit
