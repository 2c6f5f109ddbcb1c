import Kovael.Lts
import Kovael.Triad.RateLimitTracker

/-!
# `routeArchitect`: who gets the architect phase

`src/MevBridge.ts`, the hardware and rate-limit router: the setters that feed
it, `routeArchitect`, and the start of `execute`, which records the dispatch.

`primary_routing_bounded` says what an authorized dispatch has passed, over
every run of the router with a tracker attached. The cap is compared with a
count, so a fractional one lets one dispatch more through than it says.

Mirroring notes:
- The router compares exact rationals; `render` is how a number reads in a text.
- The rationale is the inductive `Rationale`, and `Rationale.text` its text.
- The rest of `execute` does not look at the router or the tracker again.
-/

namespace Kovael.Triad

/-- Why an agent was selected. -/
inductive Rationale where
  | rateLimited (primary fallback : String)
  | vramUnknown
  | authorized (freeMb floorMb : ℚ) (primary : String)
  | gated (freeMb floorMb : ℚ) (primary : String)

/-- The text of a rationale. -/
def Rationale.text (render : ℚ → String) : Rationale → String
  | .rateLimited primary fallback => primary ++ "_rate_limited:falling_back_to_" ++ fallback
  | .vramUnknown => "vram_unknown:defaulting_to_lightweight"
  | .authorized freeMb floorMb primary =>
    "vram_free_" ++ render freeMb ++ "mb>=" ++ render floorMb ++ "mb:" ++ primary ++ "_authorized"
  | .gated freeMb floorMb primary =>
    "vram_free_" ++ render freeMb ++ "mb<" ++ render floorMb ++ "mb:" ++ primary ++ "_gated"

/-- The primary was selected as such. -/
def Rationale.isAuthorized : Rationale → Bool
  | .authorized .. => true
  | _ => false

structure Routing where
  agent : String
  rationale : Rationale

/-- The fields of `MevBridge` that route. -/
structure MevBridge where
  vramFreeMb : ℚ
  vramKnown : Bool
  vramFloorMb : ℚ
  primaryArchitect : String
  fallbackAgent : String
  rateLimits : RateLimitTracker

/-- The bridge as constructed, with a new tracker attached. -/
def newBridge : MevBridge where
  vramFreeMb := 0
  vramKnown := false
  vramFloorMb := 8192
  primaryArchitect := "shaev"
  fallbackAgent := "nyx-cli"
  rateLimits := newTracker

section

variable (clock : SteadyClock) (cfg : RateLimitConfig)

/-- `routeArchitect()`. -/
def routeArchitect (bridge : MevBridge) : Routing × RateLimitTracker :=
  let asked := canDispatch clock cfg bridge.rateLimits bridge.primaryArchitect
  (if asked.1 = false then
      ⟨bridge.fallbackAgent, .rateLimited bridge.primaryArchitect bridge.fallbackAgent⟩
    else if bridge.vramKnown = false then ⟨bridge.fallbackAgent, .vramUnknown⟩
    else if bridge.vramFloorMb ≤ bridge.vramFreeMb then
      ⟨bridge.primaryArchitect,
        .authorized bridge.vramFreeMb bridge.vramFloorMb bridge.primaryArchitect⟩
    else
      ⟨bridge.fallbackAgent,
        .gated bridge.vramFreeMb bridge.vramFloorMb bridge.primaryArchitect⟩,
    asked.2)

/-- The start of `execute`: the routing, the dispatch that is recorded for it, and
the tracker after that. -/
def dispatchArchitect (bridge : MevBridge) : Routing × Dispatch × RateLimitTracker :=
  let routed := routeArchitect clock cfg bridge
  (routed.1, ⟨routed.1.agent, routed.2.now clock⟩,
    (recordDispatch clock cfg routed.2 routed.1.agent).2)

/-! ## Runs of the router -/

/-- A call of the bridge or of its tracker. -/
inductive RouterCall where
  | execute
  | setVramFree (freeMb : ℚ) (known : Bool)
  | setVramFloor (floorMb : ℚ)
  | setPrimaryArchitect (agent : String)
  | setFallbackAgent (agent : String)
  | updateProviderLimit (agentId : String) (limit : ProviderLimit)
  | snapshot (agentId : String)

/-- The bridge, and every dispatch recorded so far, which the source forgets. -/
structure RouterRun where
  bridge : MevBridge
  dispatches : List Dispatch

/-- What a call does. -/
def RouterRun.after (run : RouterRun) : RouterCall → RouterRun
  | .execute =>
    let dispatched := dispatchArchitect clock cfg run.bridge
    ⟨{ run.bridge with rateLimits := dispatched.2.2 }, run.dispatches ++ [dispatched.2.1]⟩
  | .setVramFree freeMb known =>
    { run with bridge := { run.bridge with vramFreeMb := freeMb, vramKnown := known } }
  | .setVramFloor floorMb => { run with bridge := { run.bridge with vramFloorMb := floorMb } }
  | .setPrimaryArchitect agent =>
    { run with bridge := { run.bridge with primaryArchitect := agent } }
  | .setFallbackAgent agent => { run with bridge := { run.bridge with fallbackAgent := agent } }
  | .updateProviderLimit agentId limit =>
    { run with bridge := { run.bridge with
        rateLimits := (updateProviderLimit clock cfg run.bridge.rateLimits agentId limit).2 } }
  | .snapshot agentId =>
    { run with bridge := { run.bridge with
        rateLimits := (snapshot clock cfg run.bridge.rateLimits agentId).2 } }

/-- The router, call by call. -/
def router : Lts RouterRun RouterCall where
  init := ⟨newBridge, []⟩
  step := fun run call => some (run.after clock cfg call)

variable {clock cfg}

/-- The tracker knows what the window needs, whatever was called. -/
theorem reachable_tracks {run : RouterRun} (h : (router clock cfg).Reachable run) :
    Tracks clock cfg run.bridge.rateLimits run.dispatches := by
  refine Lts.reachable_invariant
    (I := fun run => Tracks clock cfg run.bridge.rateLimits run.dispatches) Tracks.new ?_ h
  intro run call run' htracks hstep
  have hrun : run.after clock cfg call = run' := Option.some.inj hstep
  rw [← hrun]
  cases call with
  | execute => exact (htracks.canDispatch _).recordDispatch _
  | updateProviderLimit agentId limit => exact htracks.updateProviderLimit agentId limit
  | snapshot agentId => exact htracks.snapshot agentId
  | setVramFree freeMb known => exact htracks
  | setVramFloor floorMb => exact htracks
  | setPrimaryArchitect agent => exact htracks
  | setFallbackAgent agent => exact htracks

/-! ## One routing -/

/-- What an authorized routing has passed. -/
theorem routeArchitect_authorized {bridge : MevBridge}
    (h : (routeArchitect clock cfg bridge).1.rationale.isAuthorized = true) :
    (canDispatch clock cfg bridge.rateLimits bridge.primaryArchitect).1 = true ∧
      bridge.vramKnown = true ∧ bridge.vramFloorMb ≤ bridge.vramFreeMb ∧
      (routeArchitect clock cfg bridge).1.agent = bridge.primaryArchitect := by
  unfold routeArchitect at h ⊢
  dsimp only at h ⊢
  split at h
  · exact absurd h Bool.false_ne_true
  · next hcan =>
    split at h
    · exact absurd h Bool.false_ne_true
    · next hknown =>
      split at h
      · next hfloor =>
        rw [if_neg hcan, if_neg hknown, if_pos hfloor]
        exact ⟨Bool.eq_true_of_not_eq_false hcan, Bool.eq_true_of_not_eq_false hknown, hfloor, rfl⟩
      · exact absurd h Bool.false_ne_true

/-- Any other routing selects the fallback. -/
theorem routeArchitect_fallback {bridge : MevBridge}
    (h : (routeArchitect clock cfg bridge).1.rationale.isAuthorized = false) :
    (routeArchitect clock cfg bridge).1.agent = bridge.fallbackAgent := by
  unfold routeArchitect at h ⊢
  dsimp only at h ⊢
  split
  · rfl
  · next hcan =>
    rw [if_neg hcan] at h
    split
    · rfl
    · next hknown =>
      rw [if_neg hknown] at h
      split
      · next hfloor =>
        rw [if_pos hfloor] at h
        exact absurd h.symm Bool.false_ne_true
      · rfl

/-- One dispatch more, and the cap is not passed. -/
theorem dispatchesWithin_snoc {tracker : RateLimitTracker} {dispatches : List Dispatch}
    (h : Tracks clock cfg tracker dispatches) {agentId : String}
    (hcan : (canDispatch clock cfg tracker agentId).1 = true) {now : ℚ}
    (hnow : clock.read ((canDispatch clock cfg tracker agentId).2.reads - 1) ≤ now) :
    dispatchesWithin cfg (dispatches ++ [⟨agentId, now⟩]) agentId now ≤ ⌈cfg.maxPerWindow⌉₊ := by
  have hbefore : (recordedFor dispatches agentId).countP
      (fun time => now - cfg.windowMs ≤ time ∧ time ≤ now) < ⌈cfg.maxPerWindow⌉₊ := by
    refine lt_of_le_of_lt ?_ (Nat.lt_ceil.mpr (canDispatch_count h hcan hnow))
    rw [← List.countP_eq_length_filter]
    refine List.countP_mono_left ?_
    intro time _ hwithin
    exact decide_eq_true (of_decide_eq_true hwithin).1
  have hlast := List.countP_le_length
    (p := fun time => decide (now - cfg.windowMs ≤ time ∧ time ≤ now)) (l := [now])
  rw [List.length_singleton] at hlast
  unfold dispatchesWithin
  rw [recordedFor_snoc, if_pos rfl, List.countP_append]
  omega

/-! ## The bound -/

/-- What is counted for an agent: its dispatches since the window began. -/
def CountsWindow (clock : SteadyClock) (cfg : RateLimitConfig) (dispatches : List Dispatch)
    (tracker : RateLimitTracker) (agentId : String) : Prop :=
  (pruneWindow clock cfg tracker agentId).1
    = (recordedFor dispatches agentId).filter fun time => tracker.now clock - cfg.windowMs ≤ time

/-- What holds of the next `execute`, and of what the tracker counts. -/
structure RoutingBounded (clock : SteadyClock) (cfg : RateLimitConfig) (run : RouterRun) :
    Prop where
  authorized : ∀ routing dispatch tracker,
    dispatchArchitect clock cfg run.bridge = (routing, dispatch, tracker) →
    routing.rationale.isAuthorized = true →
      routing.agent = run.bridge.primaryArchitect ∧ run.bridge.vramKnown = true ∧
      run.bridge.vramFloorMb ≤ run.bridge.vramFreeMb ∧
      (∀ limit, run.bridge.rateLimits.providerLimits.get? routing.agent = some limit →
        ¬limit.Exhausted dispatch.time) ∧
      dispatch.agentId = routing.agent ∧
      dispatchesWithin cfg (run.dispatches ++ [dispatch]) routing.agent dispatch.time
        ≤ ⌈cfg.maxPerWindow⌉₊
  otherwise : ∀ routing dispatch tracker,
    dispatchArchitect clock cfg run.bridge = (routing, dispatch, tracker) →
    routing.rationale.isAuthorized = false → routing.agent = run.bridge.fallbackAgent
  snapshots : ∀ agentId, CountsWindow clock cfg run.dispatches run.bridge.rateLimits agentId ∧
    (snapshot clock cfg run.bridge.rateLimits agentId).1.inWindow
      = (pruneWindow clock cfg run.bridge.rateLimits agentId).1.length
  permissions : ∀ agentId asked tracker,
    askProvider clock run.bridge.rateLimits agentId = (asked, tracker) →
      CountsWindow clock cfg run.dispatches tracker agentId ∧
      (canDispatch clock cfg run.bridge.rateLimits agentId).1
        = (asked && decide (((pruneWindow clock cfg tracker agentId).1.length : ℚ)
            < cfg.maxPerWindow))

/-- An authorized dispatch has the memory it needs and passes neither the limit of
its provider nor the cap, rounded up; any other goes to the fallback; and what is
counted is exactly what was dispatched since the window began. -/
theorem primary_routing_bounded (clock : SteadyClock) (cfg : RateLimitConfig) (run : RouterRun)
    (h : (router clock cfg).Reachable run) : RoutingBounded clock cfg run where
  authorized := by
    intro routing dispatch tracker hdispatched hauthorized
    have htracks := reachable_tracks h
    obtain ⟨rfl, rfl, rfl⟩ : _ ∧ _ ∧ _ := by
      simpa only [dispatchArchitect, Prod.mk.injEq] using hdispatched
    obtain ⟨hcan, hknown, hfloor, hagent⟩ := routeArchitect_authorized hauthorized
    refine ⟨hagent, hknown, hfloor, ?_, rfl, ?_⟩
    · rw [hagent]
      intro limit hlimit hexhausted
      refine canDispatch_notExhausted hcan limit hlimit ⟨hexhausted.1, ?_⟩
      exact (clock.steady _ _ (canDispatch_reads _ _)).trans_lt hexhausted.2
    · rw [hagent]
      exact dispatchesWithin_snoc htracks hcan (clock.steady _ _ (Nat.sub_le _ _))
  otherwise := by
    intro routing dispatch tracker hdispatched hother
    obtain ⟨rfl, rfl, rfl⟩ : _ ∧ _ ∧ _ := by
      simpa only [dispatchArchitect, Prod.mk.injEq] using hdispatched
    exact routeArchitect_fallback hother
  snapshots agentId := ⟨(reachable_tracks h).pruned agentId, rfl⟩
  permissions := by
    intro agentId asked tracker hasked
    have htracks := (reachable_tracks h).askProvider agentId
    rw [hasked] at htracks
    refine ⟨htracks.pruned agentId, ?_⟩
    unfold canDispatch
    rw [hasked]
    cases asked with
    | true => rfl
    | false => rfl

end

/-! ## Two runs -/

/-- A clock that is a millisecond later at each reading. -/
def everyMs : SteadyClock where
  read := fun n => n
  steady := fun _ _ h => Nat.cast_le.mpr h

/-- The cap is one dispatch a minute. -/
def oneAMinute : RateLimitConfig := ⟨60000, 1⟩

/-- The telemetry reports 24 GB. -/
def roomyRun (cfg : RateLimitConfig) : RouterRun :=
  (router everyMs cfg).init.after everyMs cfg (.setVramFree 24576 true)

/-- The first dispatch is authorized within the cap, and after it the cap is reached. -/
theorem first_dispatch_authorized :
    (dispatchArchitect everyMs oneAMinute (roomyRun oneAMinute).bridge).1.rationale.isAuthorized
        = true ∧
      RoutingBounded everyMs oneAMinute (roomyRun oneAMinute) ∧
      RoutingBounded everyMs oneAMinute
        ((roomyRun oneAMinute).after everyMs oneAMinute .execute) :=
  ⟨by decide +kernel,
    primary_routing_bounded everyMs oneAMinute _ ⟨[.setVramFree 24576 true], rfl⟩,
    primary_routing_bounded everyMs oneAMinute _ ⟨[.setVramFree 24576 true, .execute], rfl⟩⟩

/-- The cap is half a dispatch a minute. -/
def halfAMinute : RateLimitConfig := ⟨60000, 1 / 2⟩

/-- The first dispatch is authorized, and is already more than the cap. -/
theorem half_a_dispatch_passed :
    (router everyMs halfAMinute).Reachable (roomyRun halfAMinute) ∧
      ∃ routing dispatch tracker,
        dispatchArchitect everyMs halfAMinute (roomyRun halfAMinute).bridge
          = (routing, dispatch, tracker) ∧
        routing.rationale.isAuthorized = true ∧
        ¬((dispatchesWithin halfAMinute ((roomyRun halfAMinute).dispatches ++ [dispatch])
            routing.agent dispatch.time : Nat) : ℚ) ≤ halfAMinute.maxPerWindow := by
  refine ⟨⟨[.setVramFree 24576 true], rfl⟩, _, _, _, rfl, ?_, ?_⟩
  · decide +kernel
  · decide +kernel

end Kovael.Triad
