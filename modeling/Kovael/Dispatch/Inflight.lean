import Kovael.Chair.Delivery
import Kovael.Dispatch.Turns

/-!
# The in-flight gauge

A dispatch is in flight from its announcement to the end of the turn that made
it. A failure that names no request is taken for the end of the oldest dispatch
in flight, so the gauge and the set behind it are exact as long as that is the
turn's own dispatch, or nothing is in flight (`gauge_exact_iff`).
-/

namespace Kovael.Dispatch

open Js (OrderedMap)
open Chair (Bridge StartInput Wired Told Silent Quiet Announces Files ChairDispatchTelemetryEvent)

variable {env : Chair.Env} {s s' : State} {o : Orchestrator}

/-! ## What is in flight -/

/-- The request of the call that the turn has made. -/
def Turn.call (t : Turn) : Option String :=
  match t.stage with
  | .calling id => some id
  | _ => none

namespace State

/-- The call of a turn that is not over. -/
def callOf (s : State) (turn : Nat) : Option String := (s.turns.get? turn).bind Turn.call

/-- A turn that is not over has made the call. -/
def called (s : State) (id : String) : Bool :=
  s.turns.values.any fun t => decide (t.call = some id)

/-- The dispatches that have started and not finished, oldest first. -/
def inFlight (s : State) : List String := s.bridge.announced.filter s.called

/-- A turn whose stream has ended fails, and its error names no request. -/
def failsNameless (s : State) (t : Turn) (throws : Bool) : Bool :=
  match t.stage with
  | .standIn => throws
  | .selected _ => false
  | .refused => true
  | .calling id =>
    match (s.bridge.streams.get? id).map Chair.Stream.phase with
    | some (.threw (.error _)) => true
    | some .returned => throws
    | _ => false

/-- The call of the turn that an event ends. -/
def ownCall (s : State) : Event → Option String
  | .ended _ turn _ => s.callOf turn
  | _ => none

/-- A failure that names no request is reported. -/
def nameless (s : State) : Event → Bool
  | .head now speaker _ claim requireLiveChairs =>
    Conversation.select (headInput claim (s.gate now speaker claim).1 requireLiveChairs)
      = .unavailable
  | .ended _ turn throws => (s.turns.get? turn).any fun t => s.failsNameless t throws
  | _ => false

/-- A failure that names no request comes from the turn of the oldest dispatch in
flight, if any is. -/
def Attributed (s : State) (e : Event) : Prop :=
  s.nameless e = true → ∀ first, s.inFlight.head? = some first → s.ownCall e = some first

instance (s : State) (e : Event) : Decidable (s.Attributed e) :=
  decidable_of_iff
    (s.nameless e = true → (s.inFlight.head?.all fun first => s.ownCall e = some first) = true)
    (imp_congr_right fun _ => by simp only [Option.all_eq_true, decide_eq_true_eq])

/-- The gauge and the set are those of the dispatches in flight. -/
structure Exact (s : State) : Prop where
  ids : s.orchestrator.activeIds = s.inFlight
  gauge : s.orchestrator.chairDispatchMetrics.inflight = s.inFlight.length

theorem called_iff (s : State) (id : String) :
    s.called id = true ↔ ∃ turn, s.callOf turn = some id := by
  rw [called, List.any_eq_true]
  constructor
  · intro hgiven
    obtain ⟨t, ht, hcall⟩ := hgiven
    obtain ⟨turn, hget⟩ := (OrderedMap.mem_values_iff ..).mp ht
    exact ⟨turn, by rw [callOf, hget]; exact of_decide_eq_true hcall⟩
  · intro hgiven
    obtain ⟨turn, hcall⟩ := hgiven
    obtain ⟨t, hget, hcall⟩ := Option.bind_eq_some_iff.mp hcall
    exact ⟨t, (OrderedMap.mem_values_iff ..).mpr ⟨turn, hget⟩, decide_eq_true hcall⟩

/-- Nothing that is announced has changed hands. -/
theorem inFlight_congr (hannounced : s'.bridge.announced = s.bridge.announced)
    (hcalls : ∀ id ∈ s.bridge.announced,
      (∃ turn, s'.callOf turn = some id) ↔ ∃ turn, s.callOf turn = some id) :
    s'.inFlight = s.inFlight := by
  rw [inFlight, inFlight, hannounced]
  refine List.filter_congr ?_
  intro id hid
  rw [Bool.eq_iff_iff, called_iff, called_iff]
  exact hcalls id hid

end State

/-! ## The set -/

namespace Orchestrator

/-- The dispatch that a report of success or failure ends. -/
def ended (requestId : Option String) (o : Orchestrator) : Option String :=
  (requestId.filter (· ≠ "")).or o.activeIds.head?

/-- The gauge shows the size of the set. -/
def Gauged (o : Orchestrator) : Prop :=
  o.chairDispatchMetrics.inflight = o.activeIds.length

theorem gauged_withActive (active : OrderedMap String Unit) : Gauged (o.withActive active) :=
  (List.length_map _).symm

theorem activeIds_delete (id : String) :
    (o.withActive (o.activeChairDispatches.delete id)).activeIds
      = o.activeIds.filter fun k => some k ≠ some id := by
  have hfilter : ∀ k : String × Unit, decide (k.1 ≠ id) = decide (some k.1 ≠ some id) := by
    intro k
    rw [decide_eq_decide, ne_eq, ne_eq, Option.some.injEq]
  rw [activeIds, activeIds, List.filter_map]
  exact congrArg (List.map Prod.fst) (List.filter_congr fun k _ => hfilter k)

/-- A report takes its dispatch out of the set. -/
theorem finish_spec (requestId : Option String) (o : Orchestrator) :
    Gauged (o.finishChairDispatchMetric requestId) ∧
      (o.finishChairDispatchMetric requestId).activeIds
        = o.activeIds.filter fun k => some k ≠ o.ended requestId := by
  unfold finishChairDispatchMetric ended
  cases requestId.filter (· ≠ "") with
  | some id =>
    exact ⟨gauged_withActive _, activeIds_delete id⟩
  | none =>
    cases hhead : o.activeIds.head? with
    | some first => exact ⟨gauged_withActive _, activeIds_delete first⟩
    | none =>
      rw [List.head?_eq_none_iff] at hhead
      refine ⟨gauged_withActive _, ?_⟩
      rw [hhead]
      exact hhead

/-- A success or a failure is reported. -/
theorem report_spec (now : Int) (agentId : String) (requestId : Option String)
    (o : Orchestrator) (e : BusEvent)
    (he : e = .success agentId requestId ∨ e = .failure agentId requestId) :
    Gauged (o.onBusEvent now e) ∧
      (o.onBusEvent now e).activeIds = o.activeIds.filter fun k => some k ≠ o.ended requestId := by
  rcases he with rfl | rfl
  · exact finish_spec requestId _
  · exact finish_spec requestId _

/-- What announces nothing leaves the set alone. -/
theorem onTelemetry_quiet : ∀ (es : List ChairDispatchTelemetryEvent) (o : Orchestrator),
    (∀ e ∈ es, ChairDispatchTelemetryEvent.announces e = none) → Gauged o →
      Gauged (o.onTelemetry es) ∧ (o.onTelemetry es).activeIds = o.activeIds
  | [], _, _, hgauge => ⟨hgauge, rfl⟩
  | e :: es, o, hes, hgauge => by
    have hhead : Gauged (o.onBusEvent 0 (.telemetry e)) ∧
        (o.onBusEvent 0 (.telemetry e)).activeIds = o.activeIds := by
      cases e with
      | started ids => exact nomatch hes _ List.mem_cons_self
      | attempt _ _ _ _ => exact ⟨hgauge, rfl⟩
      | accepted _ _ _ => exact ⟨hgauge, rfl⟩
    obtain ⟨hg, hids⟩ := onTelemetry_quiet es _
      (fun e' he' => hes e' (List.mem_cons_of_mem e he')) hhead.1
    exact ⟨hg, hids.trans hhead.2⟩

theorem onStarted_eq {ids : Chair.DispatchIds} (hne : ids.requestId ≠ "") :
    o.recordChairDispatchMetric (.telemetry (.started ids))
      = o.withActive (o.activeChairDispatches.set ids.requestId ()) :=
  if_neg hne

theorem onStarted_gauged {ids : Chair.DispatchIds} (hne : ids.requestId ≠ "") :
    Gauged (o.onBusEvent 0 (.telemetry (.started ids))) := by
  unfold onBusEvent
  rw [onStarted_eq hne]
  exact gauged_withActive _

/-- An announced dispatch is the youngest in the set. -/
theorem onStarted_activeIds {ids : Chair.DispatchIds} (hne : ids.requestId ≠ "")
    (hnew : ids.requestId ∉ o.activeIds) :
    (o.onBusEvent 0 (.telemetry (.started ids))).activeIds = o.activeIds ++ [ids.requestId] := by
  unfold onBusEvent
  rw [onStarted_eq hne]
  exact (congrArg (List.map Prod.fst) (Js.setEntry_of_not_mem (v := ()) hnew)).trans List.map_append

end Orchestrator

/-! ## The turns and the calls -/

/-- What the open turns and the calls say of each other. -/
structure Kept (env : Chair.Env) (s : State) : Prop where
  wired : Wired env s.bridge
  told : Told s.bridge
  fresh : ∀ id p, (s.bridge.streams.get? id).map Chair.Stream.provider = some p → p < s.nextTurn
  known : ∀ n t, s.turns.get? n = some t → n < s.nextTurn
  calling : ∀ n id, s.callOf n = some id →
    (s.bridge.streams.get? id).map Chair.Stream.provider = some n
  selected : ∀ n t claim, s.turns.get? n = some t → t.stage = .selected claim →
    ∀ id, (s.bridge.streams.get? id).map Chair.Stream.provider ≠ some n
  named : ∀ id, (s.bridge.streams.get? id).isSome → id ≠ ""
  gauged : s.orchestrator.Gauged

theorem Kept.init (cfg : Chair.CircuitBreakerConfig) : Kept env (.init cfg) where
  wired := Chair.init_wired
  told := Chair.init_told
  fresh _ _ h := nomatch h
  known _ _ h := nomatch h
  calling _ _ h := nomatch h
  selected _ _ _ h := nomatch h
  named _ h := nomatch h
  gauged := rfl

/-- One call belongs to one turn. -/
theorem Kept.unique (hs : Kept env s) {n m : Nat} {id : String} (hn : s.callOf n = some id)
    (hm : s.callOf m = some id) : n = m := by
  have hsame := (hs.calling n id hn).symm.trans (hs.calling m id hm)
  exact Option.some.inj hsame

/-- Turns and calls stay as they are, whatever the breaker and the set do. -/
theorem Kept.congr (hs : Kept env s) (hbridge : s'.bridge = s.bridge) (hturns : s'.turns = s.turns)
    (hnext : s'.nextTurn = s.nextTurn) (hgauged : s'.orchestrator.Gauged) : Kept env s' where
  wired := hbridge ▸ hs.wired
  told := hbridge ▸ hs.told
  fresh := by rw [hbridge, hnext]; exact hs.fresh
  known := by rw [hturns, hnext]; exact hs.known
  calling := by
    unfold State.callOf
    rw [hbridge, hturns]
    exact hs.calling
  selected := by rw [hbridge, hturns]; exact hs.selected
  named := by rw [hbridge]; exact hs.named
  gauged := hgauged

/-- The turn is over. -/
theorem callOf_delete (s : State) (turn n : Nat) (t : State)
    (ht : t.turns = s.turns.delete turn) :
    t.callOf n = if n = turn then none else s.callOf n := by
  rw [State.callOf, ht, OrderedMap.get?_delete]
  split
  next => rfl
  next => rfl

/-- With a turn goes its call. -/
theorem inFlight_delete (hs : Kept env s) (turn : Nat) (hbridge : s'.bridge = s.bridge)
    (hturns : s'.turns = s.turns.delete turn) :
    s'.inFlight = s.inFlight.filter fun k => some k ≠ s.callOf turn := by
  rw [State.inFlight, State.inFlight, hbridge, List.filter_filter]
  refine List.filter_congr ?_
  intro id _
  rw [Bool.eq_iff_iff, Bool.and_eq_true, decide_eq_true_iff, State.called_iff, State.called_iff]
  constructor
  · intro hgiven
    obtain ⟨n, hn⟩ := hgiven
    rw [callOf_delete s turn n s' hturns] at hn
    split at hn
    next => exact nomatch hn
    next hne =>
      refine ⟨?_, n, hn⟩
      intro howned
      exact hne (hs.unique hn howned.symm)
  · intro hgiven
    obtain ⟨hother, n, hn⟩ := hgiven
    refine ⟨n, ?_⟩
    rw [callOf_delete s turn n s' hturns]
    split
    next he => exact absurd hn.symm (he ▸ hother)
    next => exact hn

/-! ## One report -/

/-- What a report takes out of the set is the turn's own dispatch: it is named, or
it is the oldest in flight. -/
theorem filter_head_iff (l : List String) (own : Option String) :
    (l.filter fun k => some k ≠ l.head?) = (l.filter fun k => some k ≠ own) ↔
      ∀ first, l.head? = some first → own = some first := by
  cases l with
  | nil =>
    refine iff_of_true rfl ?_
    intro first hfirst
    exact nomatch hfirst
  | cons x xs =>
    rw [List.head?_cons]
    constructor
    · intro h first hfirst
      rw [← hfirst]
      -- otherwise the oldest would go, and stay in flight
      by_contra hother
      have hin : x ∈ (x :: xs).filter fun k => decide (some k ≠ some x) := by
        rw [h]
        exact List.mem_filter.mpr ⟨List.mem_cons_self, decide_eq_true (Ne.symm hother)⟩
      exact of_decide_eq_true (List.mem_filter.mp hin).2 rfl
    · intro h
      rw [h x rfl]

/-! ## Every step -/

/-- What a step does to the dispatches in flight and to the set behind the gauge; the
index says whether a failure is reported that names no request. -/
inductive Change (s s' : State) (own : Option String) : Bool → Prop where
  | kept (flight : s'.inFlight = s.inFlight)
      (set : s'.orchestrator.activeIds = s.orchestrator.activeIds) : Change s s' own false
  | opened (id : String) (new : id ∉ s.inFlight) (flight : s'.inFlight = s.inFlight ++ [id])
      (set : id ∉ s.orchestrator.activeIds →
        s'.orchestrator.activeIds = s.orchestrator.activeIds ++ [id]) : Change s s' own false
  | closed (flight : s'.inFlight = s.inFlight.filter fun k => some k ≠ own)
      (set : s'.orchestrator.activeIds
        = s.orchestrator.activeIds.filter fun k => some k ≠ own) : Change s s' own false
  | nameless (flight : s'.inFlight = s.inFlight.filter fun k => some k ≠ own)
      (set : s'.orchestrator.activeIds = s.orchestrator.activeIds.filter fun k =>
        some k ≠ s.orchestrator.activeIds.head?) : Change s s' own true

/-- A new turn that has called nobody. -/
theorem openTurn_kept (hs : Kept env s) {t : Turn} (hcall : t.call = none) :
    Kept env (s.openTurn t) ∧ (s.openTurn t).inFlight = s.inFlight := by
  have hnew : s.turns.get? s.nextTurn = none := by
    rw [Option.eq_none_iff_forall_ne_some]
    intro t' ht'
    exact Nat.lt_irrefl _ (hs.known _ t' ht')
  have hcalls : ∀ n, (s.openTurn t).callOf n = s.callOf n := by
    intro n
    rw [State.callOf, State.callOf, State.openTurn, OrderedMap.get?_set]
    split
    next hn => rw [hn, hnew]; exact hcall
    next => rfl
  refine ⟨⟨hs.wired, hs.told, ?_, ?_, ?_, ?_, hs.named, hs.gauged⟩, ?_⟩
  · intro id p hp
    exact Nat.lt_succ_of_lt (hs.fresh id p hp)
  · intro n t' ht'
    rcases OrderedMap.get?_set_some ht' with ⟨hn, -⟩ | ⟨-, hold⟩
    · rw [hn]
      exact Nat.lt_succ_self _
    · exact Nat.lt_succ_of_lt (hs.known n t' hold)
  · intro n id hid
    rw [hcalls] at hid
    exact hs.calling n id hid
  · intro n t' claim ht' hstage id hid
    rcases OrderedMap.get?_set_some ht' with ⟨hn, -⟩ | ⟨-, hold⟩
    · -- no call is of a turn to come
      rw [hn] at hid
      exact Nat.lt_irrefl _ (hs.fresh id _ hid)
    · exact hs.selected n t' claim hold hstage id hid
  · refine State.inFlight_congr rfl ?_
    intro id _
    exact exists_congr fun n => by rw [hcalls]

/-- A head opens a turn or reports a refusal. -/
theorem head_change (hs : Kept env s) (now : Int) (speaker topicId : String)
    (claim : Option Presence.ChairClaim) (requireLiveChairs : Bool) :
    Kept env (s.head now speaker topicId claim requireLiveChairs) ∧
      Change s (s.head now speaker topicId claim requireLiveChairs) none
        (s.nameless (.head now speaker topicId claim requireLiveChairs)) := by
  unfold State.nameless State.head
  dsimp only
  have hs₁ : Kept env (s.withBreaker (s.gate now speaker claim).2) :=
    hs.congr rfl rfl rfl hs.gauged
  cases hselect : Conversation.select
      (headInput claim (s.gate now speaker claim).1 requireLiveChairs) with
  | presenceOnly => exact ⟨hs₁, .kept rfl rfl⟩
  | live =>
    cases claim with
    | none => exact ⟨hs₁, .kept rfl rfl⟩
    | some c =>
      obtain ⟨hkept, hflight⟩ :=
        openTurn_kept hs₁ (t := ⟨speaker, topicId, .selected (streamClaim c)⟩) rfl
      exact ⟨hkept, .kept hflight rfl⟩
  | unavailable =>
    obtain ⟨hgauged, hids⟩ := Orchestrator.report_spec now speaker none
      (s.withBreaker (s.gate now speaker claim).2).orchestrator (.failure speaker none) (Or.inr rfl)
    refine ⟨hs₁.congr rfl rfl rfl hgauged, .nameless ?_ hids⟩
    exact (List.filter_eq_self.mpr fun _ _ => rfl).symm
  | localFallback =>
    obtain ⟨hkept, hflight⟩ := openTurn_kept hs₁ (t := ⟨speaker, topicId, .standIn⟩) rfl
    exact ⟨hkept, .kept hflight rfl⟩

/-- What the listener makes of a silent step of the calls. -/
theorem withBridge_quiet (hs : Kept env s) {b : Bridge} (hquiet : Quiet s.bridge b) :
    (s.withBridge b).orchestrator.Gauged ∧
      (s.withBridge b).orchestrator.activeIds = s.orchestrator.activeIds := by
  obtain ⟨es, heq, hes⟩ := hquiet
  unfold State.withBridge
  rw [heq, List.drop_left]
  exact Orchestrator.onTelemetry_quiet es _ hes hs.gauged

/-- What the listener makes of an announcement. -/
theorem withBridge_announces {b : Bridge} {id : String} (hne : id ≠ "")
    (hannounces : Announces s.bridge b id) :
    (s.withBridge b).orchestrator.Gauged ∧
      (id ∉ s.orchestrator.activeIds →
        (s.withBridge b).orchestrator.activeIds = s.orchestrator.activeIds ++ [id]) := by
  obtain ⟨ids, es, rfl, heq, hes⟩ := hannounces
  unfold State.withBridge
  rw [heq, List.drop_left]
  obtain ⟨hgauged, hset⟩ := Orchestrator.onTelemetry_quiet es _ hes
    (Orchestrator.onStarted_gauged (o := s.orchestrator) hne)
  exact ⟨hgauged, fun hnew => hset.trans (Orchestrator.onStarted_activeIds hne hnew)⟩

/-- The calls go on. -/
theorem bridge_change (hs : Kept env s) {e : Chair.Event} (hother : e.startsCall = false) {b : Bridge}
    (hstep : Chair.step env s.bridge e = some b) :
    Kept env (s.withBridge b) ∧ Change s (s.withBridge b) none false := by
  obtain ⟨htold, hsilent⟩ := Chair.step_told hs.wired hs.told hother hstep
  obtain ⟨hgauged, hids⟩ := withBridge_quiet hs hsilent.quiet
  refine ⟨⟨Chair.step_wired hs.wired hstep, htold, ?_, hs.known, ?_, ?_, ?_, hgauged⟩,
    .kept ?_ hids⟩
  · intro id p hp
    exact hs.fresh id p ((hsilent.calls id).symm.trans hp)
  · intro n id hid
    exact (hsilent.calls id).trans (hs.calling n id hid)
  · intro n t claim ht hstage id hid
    exact hs.selected n t claim ht hstage id ((hsilent.calls id).symm.trans hid)
  · intro id hid
    refine hs.named id ?_
    rw [← Option.isSome_map (f := Chair.Stream.provider), ← hsilent.calls, Option.isSome_map]
    exact hid
  · exact State.inFlight_congr hsilent.quiet.announced fun _ _ => Iff.rfl

/-- A live chair's turn, with `stream()` called. -/
theorem callOf_staged {turn : Nat} {t : Turn} (stage : Stage) (b : Bridge) (n : Nat) :
    State.callOf { s.withBridge b with turns := s.turns.set turn { t with stage := stage } } n
      = if n = turn then Turn.call { t with stage := stage } else s.callOf n := by
  unfold State.callOf
  rw [OrderedMap.get?_set]
  split
  next => rfl
  next => rfl

/-- The turn had called nobody, so every other call is whose it was. -/
theorem staged_called {turn : Nat} {t : Turn} (stage : Stage) (b : Bridge) {id : String}
    (hcall : s.callOf turn = none) (hother : Turn.call { t with stage := stage } ≠ some id) :
    (∃ n, State.callOf
      { s.withBridge b with turns := s.turns.set turn { t with stage := stage } } n = some id) ↔
      ∃ n, s.callOf n = some id := by
  refine exists_congr ?_
  intro n
  rw [callOf_staged]
  split
  next hn =>
    rw [hn, hcall]
    exact iff_of_false hother fun h => nomatch h
  next => exact Iff.rfl

/-- The call that `stream()` files, if it files one, is that turn's and has a new id. -/
theorem staged_kept (hs : Kept env s) {turn : Nat} {t : Turn}
    (ht : s.turns.get? turn = some t) {b : Bridge}
    (hwired : Wired env b) (htold : Told b) {stage : Stage} (hleft : ∀ c, stage ≠ .selected c)
    (hproviders : ∀ id, (b.streams.get? id).map Chair.Stream.provider =
      if Turn.call { t with stage := stage } = some id then some turn
      else (s.bridge.streams.get? id).map Chair.Stream.provider)
    (hnew : ∀ id, Turn.call { t with stage := stage } = some id →
      id ≠ "" ∧ s.bridge.streams.get? id = none)
    (hgauged : (s.withBridge b).orchestrator.Gauged) :
    Kept env { s.withBridge b with turns := s.turns.set turn { t with stage := stage } } := by
  have hother : ∀ n t', (s.turns.set turn { t with stage := stage }).get? n = some t' →
      (n = turn ∧ t' = { t with stage := stage }) ∨ (n ≠ turn ∧ s.turns.get? n = some t') :=
    fun n t' ht' => OrderedMap.get?_set_some ht'
  refine ⟨hwired, htold, ?_, ?_, ?_, ?_, ?_, hgauged⟩
  · intro id p hp
    have hp := (hproviders id).symm.trans hp
    split at hp
    next =>
      rw [Option.some.injEq] at hp
      exact hp ▸ hs.known turn t ht
    next => exact hs.fresh id p hp
  · intro n t' ht'
    rcases hother n t' ht' with ⟨hn, -⟩ | ⟨-, hold⟩
    · exact hn ▸ hs.known turn t ht
    · exact hs.known n t' hold
  · intro n id hid
    refine (hproviders id).trans ?_
    rw [callOf_staged] at hid
    split at hid
    next hn => rw [if_pos hid, hn]
    next =>
      split
      next hcall =>
        -- the id is new, so no other turn calls it
        obtain ⟨-, hnone⟩ := hnew id hcall
        have hsome := hs.calling n id hid
        rw [hnone] at hsome
        exact nomatch hsome
      next => exact hs.calling n id hid
  · intro n t' claim' ht' hstage' id hid
    rcases hother n t' ht' with ⟨-, hval⟩ | ⟨hne, hold⟩
    · rw [hval] at hstage'
      exact hleft claim' hstage'
    · have hid := (hproviders id).symm.trans hid
      split at hid
      next => exact hne (Option.some.inj hid).symm
      next => exact hs.selected n t' claim' hold hstage' id hid
  · intro id hid
    by_cases hcall : Turn.call { t with stage := stage } = some id
    · exact (hnew id hcall).1
    · refine hs.named id ?_
      rw [← Option.isSome_map (f := Chair.Stream.provider), ← (hproviders id).trans (if_neg hcall),
        Option.isSome_map]
      exact hid

/-- `stream()` is called in the turn of a live chair. -/
theorem dispatch_change (hs : Kept env s) {turn : Nat} {t : Turn}
    (ht : s.turns.get? turn = some t) {i : StartInput} (hstep : s.dispatch turn t i = some s') :
    Kept env s' ∧ Change s s' none false := by
  unfold State.dispatch at hstep
  split at hstep
  next claim hstage =>
    split at hstep
    next => cases hstep
    next hid =>
      obtain ⟨hne, hhas⟩ := not_or.mp hid
      obtain ⟨b, hstart, rfl⟩ := Option.map_eq_some_iff.mp hstep
      have hnone : s.bridge.streams.get? i.requestId = none :=
        Option.not_isSome_iff_eq_none.mp hhas
      have hcall : s.callOf turn = none := by
        rw [State.callOf, ht, Option.bind_some, Turn.call, hstage]
      have hunknown : i.requestId ∉ s.bridge.announced := by
        intro hin
        obtain ⟨st, hst⟩ := hs.told.known _ hin
        rw [hnone] at hst
        cases hst
      have hwired := Chair.start_wired hs.wired hstart
      obtain ⟨htold, hcases⟩ := Chair.start_told hs.told
        (fun id st hst he => hs.selected turn t claim ht hstage id (by rw [hst]; exact congrArg some he))
        hstart
      rcases hcases with ⟨hsilent, hstreams⟩ | ⟨hfiles, htelemetry⟩
      · -- no id was drawn
        obtain ⟨hgauged, hids⟩ := withBridge_quiet hs hsilent.quiet
        rw [hstreams, if_neg hhas]
        refine ⟨staged_kept hs ht hwired htold (fun _ h => by cases h) hsilent.calls
          (fun _ h => by cases h) hgauged, .kept ?_ hids⟩
        refine State.inFlight_congr hsilent.quiet.announced ?_
        intro id _
        exact staged_called _ b hcall fun h => by cases h
      · have hfiled : b.streams.has i.requestId = true := by
          have hsome := hfiles.filed
          rw [OrderedMap.has, ← Option.isSome_map (f := Chair.Stream.provider)]
          exact Option.isSome_of_eq_some hsome
        have hproviders : ∀ id, (b.streams.get? id).map Chair.Stream.provider =
            if some i.requestId = some id then some turn
            else (s.bridge.streams.get? id).map Chair.Stream.provider := by
          intro id
          by_cases hid : id = i.requestId
          · rw [if_pos (congrArg some hid.symm), hid]
            exact hfiles.filed
          · rw [if_neg fun h => hid (Option.some.inj h).symm]
            exact congrArg _ (hfiles.others id hid)
        have hnew : ∀ id, some i.requestId = some id →
            id ≠ "" ∧ s.bridge.streams.get? id = none := by
          intro id heq
          rw [← Option.some.inj heq]
          exact ⟨hne, hnone⟩
        have hold : ∀ id ∈ s.bridge.announced, (∃ n, State.callOf
            { s.withBridge b with
              turns := s.turns.set turn { t with stage := .calling i.requestId } } n = some id) ↔
              ∃ n, s.callOf n = some id := by
          intro id hid
          refine staged_called _ b hcall ?_
          intro heq
          exact hunknown (Option.some.inj heq ▸ hid)
        rw [if_pos hfiled]
        rcases htelemetry with hquiet | hannounces
        · -- the body could not be built
          obtain ⟨hgauged, hids⟩ := withBridge_quiet hs hquiet
          exact ⟨staged_kept hs ht hwired htold (fun _ h => by cases h) hproviders hnew hgauged,
            .kept (State.inFlight_congr hquiet.announced hold) hids⟩
        · obtain ⟨hgauged, hids⟩ := withBridge_announces hne hannounces
          refine ⟨staged_kept hs ht hwired htold (fun _ h => by cases h) hproviders hnew hgauged,
            .opened i.requestId (fun hin => hunknown (List.mem_filter.mp hin).1) ?_ hids⟩
          refine (congrArg (List.filter _) hannounces.announced).trans ?_
          rw [List.filter_append]
          refine congrArg₂ _ (List.filter_congr ?_) ?_
          · intro id hid
            rw [Bool.eq_iff_iff, State.called_iff, State.called_iff]
            exact hold id hid
          · refine List.filter_cons_of_pos ?_
            rw [State.called_iff]
            exact ⟨turn, (callOf_staged _ b turn).trans (if_pos rfl)⟩
  next => cases hstep

/-- The turn of a call that has settled, with its error or its receipt. -/
theorem outcome_calling (hs : Kept env s) {turn : Nat} {t : Turn} {id : String}
    (ht : s.turns.get? turn = some t) (hstage : t.stage = .calling id) {throws : Bool}
    {e : Option BusEvent} (houtcome : s.outcome turn t throws = some e) :
    (s.failsNameless t throws = false ∧ ∃ ev, e = some ev ∧
      (ev = .success t.speaker (some id) ∨ ev = .failure t.speaker (some id))) ∨
    (s.failsNameless t throws = true ∧ e = some (.failure t.speaker none)) := by
  have hcall : s.callOf turn = some id := by
    rw [State.callOf, ht, Option.bind_some, Turn.call, hstage]
  obtain ⟨st, hst, hprovider⟩ := Option.map_eq_some_iff.mp (hs.calling turn id hcall)
  unfold State.outcome at houtcome
  unfold State.failsNameless
  simp only [hstage, hst, Option.map_some] at houtcome ⊢
  cases hphase : st.phase with
  | threw err =>
    rw [hphase] at houtcome
    rw [← Option.some.inj houtcome]
    have hown := hs.told.thrown id st hst err hphase
    cases err with
    | error message => exact Or.inr ⟨rfl, rfl⟩
    | replyFailure message receipt =>
      have hid := hown.resolve_right fun h => nomatch h.1
      exact Or.inl ⟨rfl, _, rfl, Or.inr (congrArg _ hid)⟩
    | dispatchFailure message details =>
      have hid := hown.resolve_right fun h => nomatch h.1
      exact Or.inl ⟨rfl, _, rfl, Or.inr (congrArg _ hid)⟩
  | returned =>
    rw [hphase] at houtcome
    obtain ⟨receipt, hreceipt, hid⟩ := hs.told.receipts id st hst (by rw [hphase]; rfl)
    rw [hprovider] at hreceipt
    cases throws with
    | true => exact Or.inr ⟨rfl, (Option.some.inj houtcome).symm⟩
    | false =>
      refine Or.inl ⟨rfl, _, (Option.some.inj houtcome).symm, Or.inl ?_⟩
      rw [hreceipt, Option.map_some, hid]
  | posting _ => rw [hphase] at houtcome; exact nomatch houtcome
  | backoff _ => rw [hphase] at houtcome; exact nomatch houtcome
  | postReturned _ => rw [hphase] at houtcome; exact nomatch houtcome
  | postThrew _ _ => rw [hphase] at houtcome; exact nomatch houtcome
  | awaitingReply => rw [hphase] at houtcome; exact nomatch houtcome
  | playing _ _ => rw [hphase] at houtcome; exact nomatch houtcome
  | played => rw [hphase] at houtcome; exact nomatch houtcome

/-- A turn that is not over, without its dispatch or with it. -/
theorem close_kept (hs : Kept env s) (turn : Nat) (hbridge : s'.bridge = s.bridge)
    (hturns : s'.turns = s.turns.delete turn) (hnext : s'.nextTurn = s.nextTurn)
    (hgauged : s'.orchestrator.Gauged) : Kept env s' := by
  have hold : ∀ n t, s'.turns.get? n = some t → s.turns.get? n = some t := by
    intro n t ht
    rw [hturns] at ht
    exact (OrderedMap.get?_delete_some ht).2
  refine ⟨hbridge ▸ hs.wired, hbridge ▸ hs.told, ?_, ?_, ?_, ?_, ?_, hgauged⟩
  · rw [hbridge, hnext]
    exact hs.fresh
  · intro n t ht
    rw [hnext]
    exact hs.known n t (hold n t ht)
  · intro n id hid
    rw [hbridge]
    obtain ⟨t, ht, hcall⟩ := Option.bind_eq_some_iff.mp hid
    exact hs.calling n id (Option.bind_eq_some_iff.mpr ⟨t, hold n t ht, hcall⟩)
  · intro n t claim ht
    rw [hbridge]
    exact hs.selected n t claim (hold n t ht)
  · rw [hbridge]
    exact hs.named

/-- A turn ends with a report: what leaves the set is what the report names, or the oldest. -/
theorem close_report (hs : Kept env s) (now : Int) (turn : Nat) (agentId : String)
    (requestId : Option String) (ev : BusEvent)
    (hev : ev = .success agentId requestId ∨ ev = .failure agentId requestId) :
    Kept env (s.close now turn (some ev)) ∧
      (s.close now turn (some ev)).inFlight
        = s.inFlight.filter (fun k => some k ≠ s.callOf turn) ∧
      (s.close now turn (some ev)).orchestrator.activeIds
        = s.orchestrator.activeIds.filter fun k => some k ≠ s.orchestrator.ended requestId := by
  obtain ⟨hgauged, hids⟩ :=
    Orchestrator.report_spec now agentId requestId s.orchestrator ev hev
  exact ⟨close_kept hs turn rfl rfl rfl hgauged, inFlight_delete hs turn rfl rfl, hids⟩

/-- A turn ends. -/
theorem ended_change (hs : Kept env s) (now : Int) {turn : Nat} {t : Turn}
    (ht : s.turns.get? turn = some t) {throws : Bool} {e : Option BusEvent}
    (houtcome : s.outcome turn t throws = some e) :
    Kept env (s.close now turn e) ∧
      Change s (s.close now turn e) (s.callOf turn) (s.failsNameless t throws) := by
  have hcall : s.callOf turn = t.call := by rw [State.callOf, ht, Option.bind_some]
  have hnameless : ∀ agentId, Kept env (s.close now turn (some (.failure agentId none))) ∧
      Change s (s.close now turn (some (.failure agentId none))) (s.callOf turn) true := by
    intro agentId
    obtain ⟨hkept, hflight, hids⟩ := close_report hs now turn agentId none _ (Or.inr rfl)
    exact ⟨hkept, .nameless hflight hids⟩
  cases hstage : t.stage with
  | standIn =>
    unfold State.outcome at houtcome
    unfold State.failsNameless
    rw [hstage] at houtcome ⊢
    cases throws with
    | true => exact Option.some.inj houtcome ▸ hnameless t.speaker
    | false =>
      rw [← Option.some.inj houtcome]
      refine ⟨close_kept hs turn rfl rfl rfl hs.gauged, .kept ?_ rfl⟩
      have hflight : (s.close now turn none).inFlight
          = s.inFlight.filter fun k => some k ≠ s.callOf turn := inFlight_delete hs turn rfl rfl
      refine hflight.trans ?_
      rw [hcall, Turn.call, hstage]
      exact List.filter_eq_self.mpr fun _ _ => rfl
  | selected claim =>
    unfold State.outcome at houtcome
    rw [hstage] at houtcome
    exact nomatch houtcome
  | refused =>
    unfold State.outcome at houtcome
    unfold State.failsNameless
    rw [hstage] at houtcome ⊢
    exact Option.some.inj houtcome ▸ hnameless t.speaker
  | calling id =>
    rcases outcome_calling hs ht hstage houtcome with ⟨hnamed, ev, rfl, hev⟩ | ⟨hnone, rfl⟩
    · -- the report names the turn's own dispatch
      have hown : s.callOf turn = some id := by rw [hcall, Turn.call, hstage]
      have hne : id ≠ "" := by
        refine hs.named id ?_
        rw [← Option.isSome_map (f := Chair.Stream.provider), hs.calling turn id hown]
        rfl
      have hended : s.orchestrator.ended (some id) = s.callOf turn := by
        have hkeep : (some id).filter (fun k => decide (k ≠ "")) = some id :=
          Option.filter_eq_some_iff.mpr ⟨rfl, decide_eq_true hne⟩
        rw [hown, Orchestrator.ended, hkeep, Option.some_or]
      obtain ⟨hkept, hflight, hids⟩ := close_report hs now turn t.speaker (some id) ev hev
      rw [hended] at hids
      rw [hnamed]
      exact ⟨hkept, .closed hflight hids⟩
    · rw [hnone]
      exact hnameless t.speaker

/-- Every step. -/
theorem step_change (hs : Kept env s) {e : Event} (hstep : step env s e = some s') :
    Kept env s' ∧ Change s s' (s.ownCall e) (s.nameless e) := by
  cases e with
  | head now speaker topicId claim requireLiveChairs =>
    rw [step, Option.some.injEq] at hstep
    exact hstep ▸ head_change hs now speaker topicId claim requireLiveChairs
  | dispatch turn i =>
    obtain ⟨t, ht, hstep⟩ := Option.bind_eq_some_iff.mp hstep
    exact dispatch_change hs ht hstep
  | bridge e =>
    rw [step] at hstep
    split at hstep
    next => exact nomatch hstep
    next hother =>
      obtain ⟨b, hb, rfl⟩ := Option.map_eq_some_iff.mp hstep
      exact bridge_change hs (Bool.eq_false_iff.mpr hother) hb
  | ended now turn throws =>
    obtain ⟨t, ht, hstep⟩ := Option.bind_eq_some_iff.mp hstep
    obtain ⟨e, houtcome, rfl⟩ := Option.map_eq_some_iff.mp hstep
    have hname : s.nameless (.ended now turn throws) = s.failsNameless t throws := by
      unfold State.nameless
      dsimp only
      rw [ht, Option.any_some]
    rw [hname]
    exact ended_change hs now ht houtcome
  | lapsed now agentId =>
    rw [step, Option.some.injEq] at hstep
    exact hstep ▸ ⟨hs.congr rfl rfl rfl hs.gauged, .kept rfl rfl⟩

/-! ## Exactness -/

/-- A step keeps the gauge exact exactly if a failure without a request id is the
oldest dispatch's. -/
theorem exact_iff_attributed (hs : Kept env s) (hx : s.Exact) {e : Event}
    (hstep : step env s e = some s') : s'.Exact ↔ s.Attributed e := by
  obtain ⟨hs', hchange⟩ := step_change hs hstep
  have hexact : s'.Exact ↔ s'.orchestrator.activeIds = s'.inFlight := by
    refine ⟨State.Exact.ids, ?_⟩
    intro hids
    exact ⟨hids, hs'.gauged.trans (congrArg List.length hids)⟩
  rw [hexact, State.Attributed]
  cases hname : s.nameless e with
  | true =>
    rw [hname] at hchange
    cases hchange with
    | nameless hflight hset =>
      rw [hset, hflight, hx.ids, filter_head_iff]
      exact ⟨fun h _ => h, fun h => h rfl⟩
  | false =>
    rw [hname] at hchange
    refine iff_of_true ?_ fun h => nomatch h
    cases hchange with
    | kept hflight hset => rw [hset, hflight, hx.ids]
    | opened id hnew hflight hset =>
      rw [hflight, hset (hx.ids ▸ hnew), hx.ids]
    | closed hflight hset => rw [hset, hflight, hx.ids]

/-- Only the turn's own dispatch leaves the dispatches in flight. -/
theorem leaves_own (hs : Kept env s) {e : Event} (hstep : step env s e = some s') {id : String}
    (hin : id ∈ s.inFlight) (hout : id ∉ s'.inFlight) : s.ownCall e = some id := by
  have hfilter : s'.inFlight = s.inFlight.filter (fun k => some k ≠ s.ownCall e) →
      s.ownCall e = some id := by
    intro hflight
    by_contra hother
    rw [hflight] at hout
    exact hout (List.mem_filter.mpr ⟨hin, decide_eq_true (Ne.symm hother)⟩)
  have hchange := (step_change hs hstep).2
  revert hchange
  generalize s.nameless e = nameless
  intro hchange
  cases hchange with
  | kept hflight => exact absurd (hflight ▸ hin) hout
  | opened k hnew hflight =>
    rw [hflight] at hout
    exact absurd (List.mem_append_left _ hin) hout
  | closed hflight => exact hfilter hflight
  | nameless hflight => exact hfilter hflight

/-- For every run, the gauge and the set behind it are exact in every state, and only
the dispatch of the turn that ends is removed, exactly if every failure without a request
id is reported while nothing is in flight or by the turn of the oldest dispatch. -/
theorem gauge_exact_iff (env : Chair.Env) (cfg : Chair.CircuitBreakerConfig) (es : List Event)
    (s : State) (hrun : (turns env cfg).exec (turns env cfg).init es = some s) :
    ((∀ pre post t, es = pre ++ post → (turns env cfg).exec (turns env cfg).init pre = some t →
        t.Exact) ∧
      (∀ pre e post t t', es = pre ++ e :: post →
        (turns env cfg).exec (turns env cfg).init pre = some t →
        (turns env cfg).step t e = some t' →
        ∀ id ∈ t.orchestrator.activeIds, id ∉ t'.orchestrator.activeIds →
          t.ownCall e = some id)) ↔
      (turns env cfg).Along State.Attributed (turns env cfg).init es := by
  have hinit : Kept env (turns env cfg).init ∧ (turns env cfg).init.Exact :=
    ⟨Kept.init cfg, rfl, rfl⟩
  have hiff : ∀ s e t, (Kept env s ∧ s.Exact) → (turns env cfg).step s e = some t →
      ((Kept env t ∧ t.Exact) ↔ s.Attributed e) := by
    intro s e t hs hstep
    rw [← exact_iff_attributed hs.1 hs.2 hstep]
    exact and_iff_right (step_change hs.1 hstep).1
  have hthroughout := Lts.forall_exec_iff_along hiff es hinit hrun
  have hkept : ∀ pre t, (turns env cfg).exec (turns env cfg).init pre = some t → Kept env t := by
    intro pre t ht
    exact Lts.reachable_invariant (M := turns env cfg) (Kept.init cfg)
      (fun _ _ _ hs hstep => (step_change hs hstep).1) ⟨pre, ht⟩
  constructor
  · intro hgiven
    obtain ⟨hexact, -⟩ := hgiven
    refine hthroughout.mp ?_
    intro pre post t heq ht
    exact ⟨hkept pre t ht, hexact pre post t heq ht⟩
  · intro halong
    have hexact := hthroughout.mpr halong
    refine ⟨fun pre post t heq ht => (hexact pre post t heq ht).2, ?_⟩
    intro pre e post t t' heq ht hstep id hin hout
    obtain ⟨hs, hx⟩ := hexact pre (e :: post) t heq ht
    obtain ⟨-, hx'⟩ := hexact (pre ++ [e]) post t' (by rw [heq, List.append_assoc]; rfl)
      (Lts.exec_append.mpr ⟨t, ht, Lts.exec_cons.mpr ⟨t', hstep, rfl⟩⟩)
    rw [hx.ids] at hin
    rw [hx'.ids] at hout
    exact leaves_own hs hstep hin hout

/-! ## A refused turn beside a dispatch -/

def sampleSystem : Lts State Event :=
  turns Chair.sampleEnv Chair.defaultCircuitBreakerConfig

/-- A chair that can be called. -/
def sampleClaim : Presence.ChairClaim where
  agentId := "shaev"
  sessionId := "session-1"
  provider := "anthropic"
  capabilities := []
  trustTier := .ofNat 1
  claimedAt := 0
  lastBeaconAt := 0
  status := .online
  host := none
  note := none
  inboxUrl := some "http://127.0.0.1:9999/inbox"

/-- A live chair is called while live chairs are required. -/
def sampleDispatch (turn : Nat) : List Event :=
  [.head 0 "shaev" "topic" (some sampleClaim) true, .dispatch turn Chair.sampleStart]

/-- The turn of a chair that is not there, while live chairs are required. -/
def sampleRefusal (now : Int) : Event := .head now "nyx" "other" none true

/-- A refused turn takes another turn's dispatch out of the set. -/
theorem refused_turn_ends_other_dispatch :
    ∃ s, sampleSystem.exec sampleSystem.init (sampleDispatch 0 ++ [sampleRefusal 1]) = some s ∧
      s.inFlight = [Chair.sampleRequest] ∧ s.orchestrator.activeIds = [] ∧
      s.orchestrator.chairDispatchMetrics.inflight = 0 := by
  have hend : (sampleSystem.exec sampleSystem.init (sampleDispatch 0 ++ [sampleRefusal 1])).map
      (fun s => (s.inFlight, s.orchestrator.activeIds,
        s.orchestrator.chairDispatchMetrics.inflight))
      = some ([Chair.sampleRequest], [], 0) := by
    decide +kernel
  obtain ⟨s, hrun, heq⟩ := Option.map_eq_some_iff.mp hend
  rw [Prod.mk.injEq, Prod.mk.injEq] at heq
  exact ⟨s, hrun, heq⟩

/-- A refusal before the dispatch does no harm. -/
theorem gauge_exact_after_refusal :
    ∃ s, sampleSystem.exec sampleSystem.init (sampleRefusal 0 :: sampleDispatch 0) = some s ∧
      s.Exact := by
  have hend : (sampleSystem.exec sampleSystem.init
      (sampleRefusal 0 :: sampleDispatch 0)).isSome = true := by
    decide +kernel
  obtain ⟨s, hrun⟩ := Option.isSome_iff_exists.mp hend
  have halong : sampleSystem.Along State.Attributed sampleSystem.init
      (sampleRefusal 0 :: sampleDispatch 0) := by
    decide +kernel
  refine ⟨s, hrun, ?_⟩
  exact ((gauge_exact_iff _ _ _ s hrun).mpr halong).1 _ [] s (List.append_nil _).symm hrun

end Kovael.Dispatch
