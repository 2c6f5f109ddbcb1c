import Kovael.Dispatch.Inflight

/-!
# Refused turns and the circuit breaker

A turn that finds its chair's circuit open, or no live chair, is refused: a local
stand-in speaks, or, with `KOVAEL_REQUIRE_LIVE_CHAIRS`, nobody. The breaker hears
of it only through a failure on the bus; without such a report it counts nothing,
and an open circuit recovers in time (`refusals_uncounted_iff`).
-/

namespace Kovael.Dispatch

open Js (OrderedMap)
open Chair (CircuitBreaker CircuitBreakerConfig ChairDispatchTelemetryEvent)

variable {env : Chair.Env} {s s' : State}

/-! ## Refused turns -/

def Stage.isStandIn : Stage → Bool
  | .standIn => true
  | _ => false

theorem Stage.isStandIn_iff {stage : Stage} : stage.isStandIn = true ↔ stage = .standIn := by
  cases stage with
  | standIn => exact iff_of_true rfl rfl
  | selected _ => exact iff_of_false (fun h => nomatch h) fun h => nomatch h
  | refused => exact iff_of_false (fun h => nomatch h) fun h => nomatch h
  | calling _ => exact iff_of_false (fun h => nomatch h) fun h => nomatch h

/-- A failure is reported. -/
def BusEvent.fails : BusEvent → Bool
  | .failure .. => true
  | _ => false

namespace State

/-- `circuitBreaker` of the orchestrator. -/
def breaker (s : State) : CircuitBreaker := s.orchestrator.circuitBreaker

/-- What the head of a turn decides. -/
def selection (s : State) (now : Int) (speaker : String) (claim : Option Presence.ChairClaim)
    (requireLiveChairs : Bool) : Conversation.Selection :=
  Conversation.select (headInput claim (s.gate now speaker claim).1 requireLiveChairs)

/-- A step of a turn that is refused: its circuit is open or no live chair is there. -/
def refuses (s : State) : Event → Bool
  | .head now speaker _ claim requireLiveChairs =>
    s.selection now speaker claim requireLiveChairs ≠ .live
  | .ended _ turn _ => (s.turns.get? turn).any fun t => t.stage.isStandIn
  | _ => false

/-- No refused turn is reported: live chairs are not required where one is refused,
and no stand-in fails. -/
def Spared (s : State) : Event → Prop
  | .head now speaker _ claim requireLiveChairs =>
    s.selection now speaker claim requireLiveChairs ≠ .unavailable
  | .ended _ turn throws =>
    throws = true → ((s.turns.get? turn).any fun t => t.stage.isStandIn) = false
  | _ => True

/-- A dispatch of the chair fails, or its beacon goes stale or expires. -/
def countsAgainst (s : State) (agentId : String) : Event → Bool
  | .ended _ turn throws =>
    (s.turns.get? turn).any fun t =>
      decide (t.speaker = agentId) && !t.stage.isStandIn &&
        ((s.outcome turn t throws).any fun e => e.any BusEvent.fails)
  | .lapsed _ k => decide (k = agentId)
  | _ => false

/-- Every circuit counts what it counted, and was opened when it was. -/
def SameCounts (s s' : State) : Prop :=
  ∀ agentId, (s'.breaker.ensure agentId).failures = (s.breaker.ensure agentId).failures ∧
    (s'.breaker.ensure agentId).openedAt = (s.breaker.ensure agentId).openedAt

end State

/-! ## What a step does to the breaker -/

/-- Telemetry is not about the breaker. -/
theorem onTelemetry_breaker : ∀ (es : List ChairDispatchTelemetryEvent) (o : Orchestrator),
    (o.onTelemetry es).circuitBreaker = o.circuitBreaker
  | [], _ => rfl
  | e :: es, o => onTelemetry_breaker es (o.onBusEvent 0 (.telemetry e))

/-- A step asks the gate, reports how a turn went, or counts a lapse; no other
touches the breaker. -/
def BreakerMoves (s s' : State) : Event → Prop
  | .head now speaker _ claim requireLiveChairs =>
    s'.breaker =
      if s.selection now speaker claim requireLiveChairs = .unavailable then
        (s.gate now speaker claim).2.recordFailure speaker now
      else (s.gate now speaker claim).2
  | .ended now turn throws =>
    ∃ t e, s.turns.get? turn = some t ∧ s.outcome turn t throws = some e ∧
      s'.breaker = (e.elim s.breaker fun e => Orchestrator.recordOutcome now e s.breaker)
  | .lapsed now agentId => s'.breaker = s.breaker.recordFailure agentId now
  | _ => s'.breaker = s.breaker

theorem step_breaker {e : Event} (hstep : step env s e = some s') : BreakerMoves s s' e := by
  cases e with
  | head now speaker topicId claim requireLiveChairs =>
    rw [step, Option.some.injEq] at hstep
    rw [← hstep]
    unfold BreakerMoves State.head State.selection
    dsimp only
    cases Conversation.select (headInput claim (s.gate now speaker claim).1 requireLiveChairs) with
    | presenceOnly => rfl
    | live =>
      cases claim with
      | none => rfl
      | some c => rfl
    | unavailable => rfl
    | localFallback => rfl
  | dispatch turn i =>
    obtain ⟨t, ht, hstep⟩ := Option.bind_eq_some_iff.mp hstep
    unfold State.dispatch at hstep
    split at hstep
    next claim hstage =>
      split at hstep
      next => cases hstep
      next =>
        obtain ⟨b, -, rfl⟩ := Option.map_eq_some_iff.mp hstep
        exact onTelemetry_breaker _ _
    next => cases hstep
  | bridge e =>
    rw [step] at hstep
    split at hstep
    next => cases hstep
    next =>
      obtain ⟨b, -, rfl⟩ := Option.map_eq_some_iff.mp hstep
      exact onTelemetry_breaker _ _
  | ended now turn throws =>
    obtain ⟨t, ht, hstep⟩ := Option.bind_eq_some_iff.mp hstep
    obtain ⟨e, houtcome, rfl⟩ := Option.map_eq_some_iff.mp hstep
    refine ⟨t, e, ht, houtcome, ?_⟩
    cases e with
    | none => rfl
    | some e => rfl
  | lapsed now agentId =>
    rw [step, Option.some.injEq] at hstep
    rw [← hstep]
    rfl

/-- The gate leaves the counts alone, and opens no circuit. -/
theorem gate_keeps (s : State) (now : Int) (speaker : String)
    (claim : Option Presence.ChairClaim) (agentId : String) :
    ((s.gate now speaker claim).2.ensure agentId).failures
        = (s.breaker.ensure agentId).failures ∧
      ((s.gate now speaker claim).2.ensure agentId).openedAt
        = (s.breaker.ensure agentId).openedAt ∧
      (((s.gate now speaker claim).2.ensure agentId).state = .opened →
        (s.breaker.ensure agentId).state = .opened) := by
  unfold State.gate
  split
  next => exact CircuitBreaker.canDispatch_keeps s.breaker speaker agentId now
  next => exact ⟨rfl, rfl, fun h => h⟩

/-- A counted failure shows. -/
theorem failure_shows (cb : CircuitBreaker) (agentId : String) (now : Int) :
    ((cb.recordFailure agentId now).ensure agentId).failures
      = (cb.ensure agentId).failures + 1 := by
  obtain ⟨circuit, heq, hfailures⟩ := CircuitBreaker.recordFailure_eq cb agentId now
  rw [heq, CircuitBreaker.ensure_put, if_pos rfl, hfailures]

/-- A step of a refused turn leaves every count alone exactly if it reports nothing. -/
theorem sameCounts_iff_spared {e : Event} (hrefuses : s.refuses e = true)
    (hstep : step env s e = some s') : s.SameCounts s' ↔ s.Spared e := by
  have hmoves := step_breaker hstep
  cases e with
  | head now speaker topicId claim requireLiveChairs =>
    unfold BreakerMoves at hmoves
    unfold State.Spared
    dsimp only at hmoves ⊢
    by_cases hselect : s.selection now speaker claim requireLiveChairs = .unavailable
    · rw [if_pos hselect] at hmoves
      refine iff_of_false ?_ (not_not_intro hselect)
      intro hsame
      have hcount := (hsame speaker).1
      rw [hmoves, failure_shows, (gate_keeps s now speaker claim speaker).1] at hcount
      exact Nat.succ_ne_self _ hcount
    · rw [if_neg hselect] at hmoves
      refine iff_of_true ?_ hselect
      intro agentId
      rw [hmoves]
      obtain ⟨hfailures, hopened, -⟩ := gate_keeps s now speaker claim agentId
      exact ⟨hfailures, hopened⟩
  | ended now turn throws =>
    obtain ⟨t, e, ht, houtcome, hbreaker⟩ := hmoves
    unfold State.refuses at hrefuses
    unfold State.Spared
    dsimp only at hrefuses ⊢
    rw [ht, Option.any_some] at hrefuses ⊢
    rw [hrefuses]
    unfold State.outcome at houtcome
    rw [Stage.isStandIn_iff.mp hrefuses] at houtcome
    cases throws with
    | true =>
      rw [← Option.some.inj houtcome] at hbreaker
      refine iff_of_false ?_ fun h => nomatch h rfl
      intro hsame
      have hcount := (hsame t.speaker).1
      rw [hbreaker] at hcount
      exact Nat.succ_ne_self _ ((failure_shows s.breaker t.speaker now).symm.trans hcount)
    | false =>
      rw [← Option.some.inj houtcome] at hbreaker
      refine iff_of_true ?_ fun h => nomatch h
      intro agentId
      rw [hbreaker]
      exact ⟨rfl, rfl⟩
  | dispatch turn i => exact nomatch hrefuses
  | bridge e => exact nomatch hrefuses
  | lapsed now agentId => exact nomatch hrefuses

/-- Only refused turns can be reported as such. -/
theorem spared_of_not_refuses {e : Event} (hrefuses : s.refuses e = false) : s.Spared e := by
  cases e with
  | head now speaker topicId claim requireLiveChairs =>
    have hlive := of_decide_eq_false hrefuses
    rw [not_not] at hlive
    unfold State.Spared
    dsimp only
    rw [hlive]
    exact fun h => nomatch h
  | ended now turn throws => exact fun _ => hrefuses
  | dispatch turn i => trivial
  | bridge e => trivial
  | lapsed now agentId => trivial

/-! ## Recovery -/

/-- The chair's circuit is not opened, and keeps the time it was opened at. -/
def Calm (agentId : String) (cb cb' : CircuitBreaker) : Prop :=
  cb'.cfg = cb.cfg ∧ ((cb'.ensure agentId).state = .opened →
    (cb.ensure agentId).state = .opened ∧
      (cb'.ensure agentId).openedAt = (cb.ensure agentId).openedAt)

theorem Calm.refl (agentId : String) (cb : CircuitBreaker) : Calm agentId cb cb :=
  ⟨rfl, fun h => ⟨h, rfl⟩⟩

/-- A question. -/
theorem calm_gate (s : State) (now : Int) (speaker : String) (claim : Option Presence.ChairClaim)
    (agentId : String) : Calm agentId s.breaker (s.gate now speaker claim).2 := by
  obtain ⟨-, hopened, hstate⟩ := gate_keeps s now speaker claim agentId
  refine ⟨?_, fun h => ⟨hstate h, hopened⟩⟩
  unfold State.gate
  split
  next =>
    obtain ⟨circuit, heq, -⟩ := CircuitBreaker.canDispatch_eq s.breaker speaker now
    have hcfg := congrArg CircuitBreaker.cfg heq
    exact hcfg
  next => rfl

/-- Another chair's failure. -/
theorem calm_recordFailure {agentId k : String} (hne : agentId ≠ k) (cb : CircuitBreaker)
    (now : Int) : Calm agentId cb (cb.recordFailure k now) := by
  obtain ⟨circuit, heq, -⟩ := CircuitBreaker.recordFailure_eq cb k now
  rw [heq]
  refine ⟨rfl, ?_⟩
  rw [CircuitBreaker.ensure_put, if_neg hne]
  exact fun h => ⟨h, rfl⟩

/-- A success, be it the chair's own. -/
theorem calm_recordSuccess (agentId k : String) (cb : CircuitBreaker) :
    Calm agentId cb (cb.recordSuccess k) := by
  refine ⟨rfl, ?_⟩
  unfold CircuitBreaker.recordSuccess
  rw [CircuitBreaker.ensure_put]
  split
  next => exact fun h => nomatch h
  next => exact fun h => ⟨h, rfl⟩

/-- A failing turn is reported under its speaker; a stand-in's only if it was made to fail. -/
theorem outcome_failure {turn : Nat} {t : Turn} {throws : Bool} {k : String}
    {requestId : Option String} (h : s.outcome turn t throws = some (some (.failure k requestId))) :
    k = t.speaker ∧ (t.stage.isStandIn = true → throws = true) := by
  have hspeaker : ∀ {requestId'}, some (some (BusEvent.failure t.speaker requestId'))
      = some (some (.failure k requestId)) → k = t.speaker := by
    intro requestId' heq
    rw [Option.some.injEq, Option.some.injEq, BusEvent.failure.injEq] at heq
    exact heq.1.symm
  unfold State.outcome at h
  cases hstage : t.stage with
  | standIn =>
    rw [hstage] at h
    cases throws with
    | true => exact ⟨hspeaker h, fun _ => rfl⟩
    | false => exact nomatch h
  | selected claim =>
    rw [hstage] at h
    exact nomatch h
  | refused =>
    rw [hstage] at h
    exact ⟨hspeaker h, fun h => nomatch h⟩
  | calling id =>
    refine ⟨?_, fun h => nomatch h⟩
    simp only [hstage] at h
    split at h
    next => exact hspeaker h
    next =>
      split at h
      next => exact hspeaker h
      next => exact nomatch h
    next => exact nomatch h

/-- Only a failure or a lapse of the chair, or a refused turn that is reported, opens
its circuit. -/
theorem step_calm {e : Event} {agentId : String} (hspared : s.Spared e)
    (hcounts : s.countsAgainst agentId e = false) (hstep : step env s e = some s') :
    Calm agentId s.breaker s'.breaker := by
  have hmoves := step_breaker hstep
  cases e with
  | head now speaker topicId claim requireLiveChairs =>
    have hbreaker : s'.breaker = (s.gate now speaker claim).2 := hmoves.trans (if_neg hspared)
    rw [hbreaker]
    exact calm_gate s now speaker claim agentId
  | dispatch turn i =>
    have hbreaker : s'.breaker = s.breaker := hmoves
    exact hbreaker ▸ .refl ..
  | bridge e =>
    have hbreaker : s'.breaker = s.breaker := hmoves
    exact hbreaker ▸ .refl ..
  | ended now turn throws =>
    obtain ⟨t, e, ht, houtcome, hbreaker⟩ := hmoves
    rw [hbreaker]
    cases e with
    | none => exact .refl ..
    | some e =>
      cases e with
      | telemetry e => exact .refl ..
      | success k requestId => exact calm_recordSuccess agentId k s.breaker
      | failure k requestId =>
        refine calm_recordFailure ?_ s.breaker now
        -- a failing turn is its speaker's, and neither a stand-in's nor the chair's
        intro heq
        obtain rfl := heq
        obtain ⟨hspeaker, hthrows⟩ := outcome_failure houtcome
        have hlive : t.stage.isStandIn = false := by
          refine Bool.eq_false_iff.mpr ?_
          intro hstandIn
          have hnone := hspared (hthrows hstandIn)
          rw [ht, Option.any_some, hstandIn] at hnone
          exact nomatch hnone
        unfold State.countsAgainst at hcounts
        dsimp only at hcounts
        rw [ht, Option.any_some, decide_eq_true hspeaker.symm, hlive, houtcome] at hcounts
        exact nomatch hcounts
  | lapsed now k =>
    have hbreaker : s'.breaker = s.breaker.recordFailure k now := hmoves
    rw [hbreaker]
    refine calm_recordFailure ?_ s.breaker now
    intro heq
    obtain rfl := heq
    exact of_decide_eq_false hcounts rfl

/-- Along a run in which the chair neither fails nor lapses and no refused turn is
reported, its circuit is not opened again. -/
theorem run_calm {cfg : CircuitBreakerConfig} {agentId : String} :
    ∀ (es : List Event) {s s' : State}, (turns env cfg).exec s es = some s' →
      (turns env cfg).Along (fun t e => t.Spared e ∧ t.countsAgainst agentId e = false) s es →
      Calm agentId s.breaker s'.breaker := by
  intro es s s' hrun halong
  refine Lts.exec_invariant (I := fun t => Calm agentId s.breaker t.breaker) ?_ es (.refl ..) hrun
    halong
  intro t e u hgiven
  obtain ⟨hcfg, hopened⟩ := hgiven
  intro hgiven'
  obtain ⟨hspared, hcounts⟩ := hgiven'
  intro hstep
  obtain ⟨hcfg', hopened'⟩ := step_calm hspared hcounts hstep
  refine ⟨hcfg'.trans hcfg, ?_⟩
  intro hu
  obtain ⟨ht, hsame'⟩ := hopened' hu
  obtain ⟨hs, hsame⟩ := hopened ht
  exact ⟨hs, hsame'.trans hsame⟩

theorem recordFailure_cfg (cb : CircuitBreaker) (agentId : String) (now : Int) :
    (cb.recordFailure agentId now).cfg = cb.cfg := by
  obtain ⟨circuit, heq, -⟩ := CircuitBreaker.recordFailure_eq cb agentId now
  rw [heq]
  rfl

/-- The breaker's configuration is the one it was built with. -/
theorem step_cfg {e : Event} (hstep : step env s e = some s') : s'.breaker.cfg = s.breaker.cfg := by
  have hmoves := step_breaker hstep
  cases e with
  | head now speaker topicId claim requireLiveChairs =>
    have hgate := (calm_gate s now speaker claim speaker).1
    unfold BreakerMoves at hmoves
    dsimp only at hmoves
    rw [hmoves]
    split
    next => exact (recordFailure_cfg ..).trans hgate
    next => exact hgate
  | dispatch turn i =>
    have hbreaker : s'.breaker = s.breaker := hmoves
    rw [hbreaker]
  | bridge e =>
    have hbreaker : s'.breaker = s.breaker := hmoves
    rw [hbreaker]
  | ended now turn throws =>
    obtain ⟨t, e, -, -, hbreaker⟩ := hmoves
    rw [hbreaker]
    cases e with
    | none => rfl
    | some e =>
      cases e with
      | telemetry e => rfl
      | success k requestId => rfl
      | failure k requestId => exact recordFailure_cfg ..
  | lapsed now k =>
    have hbreaker : s'.breaker = s.breaker.recordFailure k now := hmoves
    rw [hbreaker]
    exact recordFailure_cfg ..

/-- For every run: refused turns change no circuit's count or opening time, and a chair
whose circuit opened and which neither failed a dispatch nor lapsed since is admitted
once `recoveryMs` have passed, exactly if no refused turn is reported. -/
theorem refusals_uncounted_iff (env : Chair.Env) (cfg : CircuitBreakerConfig) (es : List Event)
    (s : State) (hrun : (turns env cfg).exec (turns env cfg).init es = some s) :
    ((∀ pre e post t t', es = pre ++ e :: post →
        (turns env cfg).exec (turns env cfg).init pre = some t →
        (turns env cfg).step t e = some t' → t.refuses e = true → t.SameCounts t') ∧
      (∀ pre mid post t u agentId openedAt, es = pre ++ mid ++ post →
        (turns env cfg).exec (turns env cfg).init pre = some t →
        (turns env cfg).exec t mid = some u →
        (t.breaker.ensure agentId).state = .opened →
        (t.breaker.ensure agentId).openedAt = some openedAt →
        (turns env cfg).Along (fun v e => v.countsAgainst agentId e = false) t mid →
        ∀ now, openedAt + cfg.recoveryMs ≤ now →
          (u.breaker.canDispatch agentId now).1 = true)) ↔
      (turns env cfg).Along State.Spared (turns env cfg).init es := by
  constructor
  · intro hgiven
    obtain ⟨hcounts, -⟩ := hgiven
    refine Lts.along_iff.mpr ?_
    intro pre e post t heq ht
    rw [heq] at hrun
    obtain ⟨v, hv, hrest⟩ := Lts.exec_append.mp hrun
    rw [ht, Option.some.injEq] at hv
    subst hv
    obtain ⟨t', hstep, -⟩ := Lts.exec_cons.mp hrest
    cases hrefuses : t.refuses e with
    | true =>
      exact (sameCounts_iff_spared hrefuses hstep).mp (hcounts pre e post t t' heq ht hstep hrefuses)
    | false => exact spared_of_not_refuses hrefuses
  · intro halong
    have hspared := Lts.along_iff.mp halong
    constructor
    · intro pre e post t t' heq ht hstep hrefuses
      exact (sameCounts_iff_spared hrefuses hstep).mpr (hspared pre e post t heq ht)
    · intro pre mid post t u agentId openedAt heq ht hu hstate hopened hnone now hnow
      have hcfg : t.breaker.cfg = cfg :=
        Lts.exec_invariant (I := fun t => t.breaker.cfg = cfg) (C := fun _ _ => True)
          (fun _ _ _ hs _ hstep => (step_cfg hstep).trans hs) pre rfl ht (Lts.along_true ..)
      have hcalm : Calm agentId t.breaker u.breaker := by
        refine run_calm mid hu (Lts.along_iff.mpr ?_)
        intro pre' e post' v hmid hv
        refine ⟨hspared (pre ++ pre') e (post' ++ post) v ?_ ?_,
          Lts.along_iff.mp hnone pre' e post' v hmid hv⟩
        · rw [heq, hmid]
          simp only [List.append_assoc, List.cons_append]
        · exact Lts.exec_append.mpr ⟨t, ht, hv⟩
      obtain ⟨hcfg', hkeeps⟩ := hcalm
      refine CircuitBreaker.canDispatch_fst.mpr ?_
      by_cases hstill : (u.breaker.ensure agentId).state = .opened
      · refine Or.inr ?_
        rw [CircuitBreaker.recovered, (hkeeps hstill).2, hopened, Option.any_some, hcfg', hcfg]
        exact decide_eq_true (by omega)
      · exact Or.inl hstill

/-! ## A refused turn that is reported -/

instance (s : State) : (e : Event) → Decidable (s.Spared e)
  | .head now speaker _ claim requireLiveChairs =>
    inferInstanceAs (Decidable (s.selection now speaker claim requireLiveChairs ≠ .unavailable))
  | .ended _ turn throws =>
    inferInstanceAs (Decidable (throws = true →
      ((s.turns.get? turn).any fun t => t.stage.isStandIn) = false))
  | .dispatch .. | .bridge _ | .lapsed .. => inferInstanceAs (Decidable True)

/-- The chair's beacon lapses three times, which opens its circuit at 0. -/
def sampleLapses : List Event := [.lapsed 0 "shaev", .lapsed 0 "shaev", .lapsed 0 "shaev"]

/-- A turn of the chair, ten seconds later. -/
def sampleTurn (requireLiveChairs : Bool) : Event :=
  .head 10000 "shaev" "topic" (some sampleClaim) requireLiveChairs

/-- The states before and after the turn. -/
def sampleRefused (requireLiveChairs : Bool) : Option (State × State) :=
  (sampleSystem.exec sampleSystem.init sampleLapses).bind fun t =>
    (sampleSystem.step t (sampleTurn requireLiveChairs)).map fun u => (t, u)

theorem sampleRefused_eq {requireLiveChairs : Bool} {t u : State}
    (h : sampleRefused requireLiveChairs = some (t, u)) :
    sampleSystem.exec sampleSystem.init sampleLapses = some t ∧
      sampleSystem.step t (sampleTurn requireLiveChairs) = some u := by
  obtain ⟨t', ht, h⟩ := Option.bind_eq_some_iff.mp h
  obtain ⟨u', hu, heq⟩ := Option.map_eq_some_iff.mp h
  rw [Prod.mk.injEq] at heq
  rw [← heq.1, ← heq.2]
  exact ⟨ht, hu⟩

/-- The refused turn is counted and opens the circuit anew: after `recoveryMs` the chair
is not admitted. -/
theorem refused_turn_counted :
    ∃ t u, sampleSystem.exec sampleSystem.init sampleLapses = some t ∧
      sampleSystem.step t (sampleTurn true) = some u ∧ t.refuses (sampleTurn true) = true ∧
      t.breaker.ensure "shaev" = ⟨"shaev", .opened, 3, some 0⟩ ∧
      u.breaker.ensure "shaev" = ⟨"shaev", .opened, 4, some 10000⟩ ∧
      (u.breaker.canDispatch "shaev" 30000).1 = false := by
  have hend : (sampleRefused true).map (fun x => (x.1.refuses (sampleTurn true),
        x.1.breaker.ensure "shaev", x.2.breaker.ensure "shaev",
        (x.2.breaker.canDispatch "shaev" 30000).1))
      = some (true, ⟨"shaev", .opened, 3, some 0⟩, ⟨"shaev", .opened, 4, some 10000⟩, false) := by
    decide +kernel
  obtain ⟨⟨t, u⟩, hrun, heq⟩ := Option.map_eq_some_iff.mp hend
  obtain ⟨ht, hu⟩ := sampleRefused_eq hrun
  simp only [Prod.mk.injEq] at heq
  exact ⟨t, u, ht, hu, heq⟩

/-- Where a stand-in speaks instead, the chair is admitted after `recoveryMs`. -/
theorem admitted_after_standIn :
    ∃ u, sampleSystem.exec sampleSystem.init (sampleLapses ++ [sampleTurn false]) = some u ∧
      (u.breaker.canDispatch "shaev" 30000).1 = true := by
  have hend : (sampleRefused false).map (fun x => x.1.breaker.ensure "shaev")
      = some ⟨"shaev", .opened, 3, some 0⟩ := by
    decide +kernel
  obtain ⟨⟨t, u⟩, hrun, heq⟩ := Option.map_eq_some_iff.mp hend
  obtain ⟨ht, hu⟩ := sampleRefused_eq hrun
  have hmid : sampleSystem.exec t [sampleTurn false] = some u := Lts.exec_cons.mpr ⟨u, hu, rfl⟩
  have hexec := Lts.exec_append.mpr ⟨t, ht, hmid⟩
  have halong : sampleSystem.Along State.Spared sampleSystem.init
      (sampleLapses ++ [sampleTurn false]) := by
    decide +kernel
  refine ⟨u, hexec, ?_⟩
  exact ((refusals_uncounted_iff _ _ _ u hexec).mpr halong).2 sampleLapses [sampleTurn false] []
    t u "shaev" 0 (List.append_nil _).symm ht hmid (by rw [heq]) (by rw [heq])
    ((Lts.along_cons hu).mpr ⟨rfl, trivial⟩) 30000 (by decide)

end Kovael.Dispatch
