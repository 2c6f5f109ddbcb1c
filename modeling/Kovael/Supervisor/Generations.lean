import Kovael.Supervisor.Children

/-!
# Old children stay out of the way

Every method on a record keeps `Safe` for it and does to the children of other
agents nothing that their records could notice (`Keeps`), so every record is safe
in every state of a run (`safe_exec`). An event of a child changes no record that
does not manage it and no other child (`step_stale`), whatever the state.
-/

namespace Kovael.Supervisor

open Js (OrderedMap)

variable {cfg : SupervisorConfig} {host : RecordHost} {a b : String} {r r' : RuntimeRecord}
  {w w' : World}

/-! ## Methods -/

theorem armStopTimer_ages {m : ManagedRuntime} (h : Safe a r w) :
    Ages a w (armStopTimer a m r w) := by
  obtain ⟨hrecord, hchildren, hnext, -⟩ := clearStopTimer_spec r w
  have haged : Aged w (armStopTimer a m r w).2 := .of_children hchildren hnext
  refine ⟨h.aged haged ?_ ?_, haged⟩
  · show (clearStopTimer r w).1.managed = r.managed
    rw [hrecord]
  · show (clearStopTimer r w).1.generation = r.generation
    rw [hrecord]

theorem stopRecord_ages {reason : String} {sticky : Bool} (h : Safe a r w) :
    Ages a w (stopRecord cfg host a reason sticky r w) := by
  unfold stopRecord
  dsimp only
  split
  next => exact ⟨h.aged (.of_children rfl rfl) rfl rfl, .of_children rfl rfl⟩
  next m hm =>
    have hstopping : Safe a ((r.stick sticky).stopping reason (host.now 0)) w :=
      h.aged (.of_children rfl rfl) rfl rfl
    have hkilled := @kill_ages cfg host a _ w m.child .sigterm (host.now 1) hstopping
    split
    next =>
      obtain ⟨hsafe, haged⟩ := armStopTimer_ages hkilled.safe
      exact ⟨hsafe, hkilled.aged.trans haged⟩
    next => exact hkilled

/-- A child that was detached was told to stop. -/
theorem detachAndTerminate_ages (h : Safe a r w) :
    Ages a w (detachAndTerminate cfg host a r w) ∧
      (detachAndTerminate cfg host a r w).1.managed = none := by
  unfold detachAndTerminate
  split
  next hnone => exact ⟨h.ages (.of_children rfl rfl), hnone⟩
  next m hm =>
    obtain ⟨hrecord, hchildren, hnext, -⟩ := clearStopTimer_spec r w
    generalize clearStopTimer r w = cleared at hrecord hchildren hnext ⊢
    obtain ⟨r₁, w₁⟩ := cleared
    dsimp only at hrecord hchildren hnext ⊢
    have hw₁ : Aged w w₁ := .of_children hchildren hnext
    have hsafe : Safe a r₁ w₁ := h.aged hw₁ (by rw [hrecord]) (by rw [hrecord])
    have hm₁ : r₁.managed = some m := by
      rw [hrecord]
      exact hm
    obtain ⟨c, hc, -, hgen⟩ := hsafe.child m hm₁
    -- the record has let go of the child before the signal is sent
    generalize hr₂ : r₁.detached (host.now 0) = r₂
    have hnone : r₂.managed = none := by
      rw [← hr₂]
      rfl
    obtain ⟨hsame, hkilled⟩ := (@kill_called cfg host a r₂ w₁ m.child .sigterm (host.now 1)).stale
      (fun m hm => absurd (hnone.symm.trans hm) (by simp))
    generalize kill cfg host a m.child .sigterm (host.now 1) r₂ w₁ = killed at hsame hkilled ⊢
    obtain ⟨r₃, w₂⟩ := killed
    dsimp only at hsame hkilled ⊢
    rw [hsame]
    have hlistens : Aged w₂ (w₂.onChild m.child fun c =>
        { c with exitTimers := c.exitTimers ++ [w₂.nextTimer] }) :=
      onChild_aged fun _ => ⟨rfl, rfl, id⟩
    have harmed : Aged w₂ ((w₂.onChild m.child fun c =>
        { c with exitTimers := c.exitTimers ++ [w₂.nextTimer] }).setTimeout (.kill a m.child)) :=
      hlistens.trans (.of_children rfl rfl)
    refine ⟨?_, hnone⟩
    have hdone : Ages a w₁ (r₂, (w₂.onChild m.child fun c =>
        { c with exitTimers := c.exitTimers ++ [w₂.nextTimer] }).setTimeout (.kill a m.child)) :=
      released_ages hsafe hc (signalled_later .sigterm)
        (Or.inr (Or.inr (List.mem_append_right _ (List.mem_singleton_self _))))
        (by rw [hm₁, hgen]) hnone (hkilled.trans harmed)
    exact ⟨hdone.safe, hw₁.trans hdone.aged⟩

/-- A child more, the last one and of this agent. -/
theorem spawn_grows (hfresh : Fresh w) (g : Nat) (host' : String) :
    Grows a w (w.spawn a g host') ∧ Fresh (w.spawn a g host') := by
  refine ⟨⟨?_, ?_⟩, ?_⟩
  · intro id c hc
    have hid : id ≠ w.nextChild := Nat.ne_of_lt (hfresh id c hc)
    exact ⟨c, (OrderedMap.get?_set_ne _ _ hid).trans hc, .rfl⟩
  · intro id c hc
    rcases OrderedMap.get?_set_some hc with ⟨-, rfl⟩ | ⟨-, hc⟩
    · exact Or.inr rfl
    · exact Or.inl ⟨c, hc⟩
  · intro id c hc
    rcases OrderedMap.get?_set_some hc with ⟨rfl, -⟩ | ⟨-, hc⟩
    · exact Nat.lt_succ_self _
    · exact Nat.lt_succ_of_lt (hfresh id c hc)

theorem spawnRecord_keeps {now : Int} {orchestratorPort : Nat} {reason : String}
    (h : Safe a r w) (hfresh : Fresh w) :
    Keeps a w (spawnRecord cfg host a now orchestratorPort reason r w) := by
  unfold spawnRecord
  split
  next => exact (h.ages (.of_children rfl rfl)).keeps hfresh
  next hfree =>
    rw [Bool.or_eq_true, not_or, Bool.not_eq_true, Bool.not_eq_true, Option.isSome_eq_false_iff,
      Option.isNone_iff_eq_none] at hfree
    split
    next =>
      have hw : Aged w (w.note (.spawnFailed a)) := .of_children rfl rfl
      exact Ages.keeps ⟨h.aged hw rfl rfl, hw⟩ hfresh
    next =>
      obtain ⟨hrecord, hchildren, hnext, -⟩ := clearStopTimer_spec (r.starting reason) w
      dsimp only
      generalize clearStopTimer (r.starting reason) w = cleared at hrecord hchildren hnext ⊢
      obtain ⟨r₁, w₁⟩ := cleared
      dsimp only at hrecord hchildren hnext ⊢
      have hw₁ : Aged w w₁ := .of_children hchildren hnext
      have hr₁ : r₁.managed = none := by
        rw [hrecord]
        exact hfree.2
      have hsafe : Safe a r₁ w₁ := (h.aged hw₁ rfl rfl).unmanaged hfree.2 hr₁
      split
      next err _ =>
        have hw₂ : Aged w₁ (w₁.note (.spawnFailed a)) := .of_children rfl rfl
        have hsafe₂ := hsafe.aged hw₂ rfl rfl
        exact ⟨hsafe₂.unmanaged hr₁ rfl, (hw₁.trans hw₂).fresh hfresh, (hw₁.trans hw₂).grows a⟩
      next =>
        obtain ⟨hgrows, hfresh₂⟩ := @spawn_grows a w₁ (hw₁.fresh hfresh) r₁.generation
          (cfg.hostOverride.getD ("http://127.0.0.1:" ++ toString orchestratorPort))
        exact ⟨hsafe.spawn hr₁ (hw₁.fresh hfresh) rfl rfl, hfresh₂, (hw₁.grows a).trans hgrows⟩

theorem Keeps.after {out : RuntimeRecord × World} (h : Keeps a w' out) (hw : Aged w w') :
    Keeps a w out :=
  ⟨h.safe, h.fresh, (hw.grows a).trans h.grows⟩

theorem note_aged (w : World) (entry : Entry) : Aged w (w.note entry) := .of_children rfl rfl

theorem startRecord_keeps {orchestratorPort : Nat} {reason : String} (h : Safe a r w)
    (hfresh : Fresh w) : Keeps a w (startRecord cfg host a orchestratorPort reason r w) := by
  unfold startRecord
  split
  next => exact (h.ages (.of_children rfl rfl)).keeps hfresh
  next =>
    have hnoted := note_aged w (.start a)
    exact (spawnRecord_keeps (h.aged hnoted rfl rfl) (hnoted.fresh hfresh)).after hnoted

theorem stopNoted_keeps {reason : String} {sticky : Bool} (h : Safe a r w) (hfresh : Fresh w) :
    Keeps a w (stopRecord cfg host a reason sticky r (w.note (.stop a))) := by
  have hnoted := note_aged w (.stop a)
  exact ((stopRecord_ages (h.aged hnoted rfl rfl)).keeps (hnoted.fresh hfresh)).after hnoted

theorem fire_ages {timer : Timer} (hagent : timer.agentId = a) (h : Safe a r w) :
    Ages a w (fire cfg host timer r w) := by
  subst hagent
  cases timer with
  | stop agentId m =>
    unfold fire
    dsimp only
    split
    next => exact h.ages (.of_children rfl rfl)
    next => exact kill_ages h
  | kill agentId child => exact kill_ages h

/-! ## The supervisor -/

variable {s s' : AgentRuntimeSupervisor}

/-- Every record is in order with the children of its agent. -/
structure SafeAll (s : AgentRuntimeSupervisor) : Prop where
  fresh : Fresh s.world
  records : ∀ a r, s.records.get? a = some r → Safe a r s.world

theorem onRecord_some {f : RuntimeRecord → World → RuntimeRecord × World}
    (hr : s.records.get? a = some r) :
    s.onRecord a f = { s with
      records := s.records.set a (f r s.world).1
      world := (f r s.world).2 } := by
  rw [AgentRuntimeSupervisor.onRecord, hr]

theorem onRecord_none {f : RuntimeRecord → World → RuntimeRecord × World}
    (hr : s.records.get? a = none) : s.onRecord a f = s := by
  rw [AgentRuntimeSupervisor.onRecord, hr]

theorem onRecord_safe {f : RuntimeRecord → World → RuntimeRecord × World} (h : SafeAll s)
    (hf : ∀ r, Safe a r s.world → Keeps a s.world (f r s.world)) : SafeAll (s.onRecord a f) := by
  cases hr : s.records.get? a with
  | none =>
    rw [onRecord_none hr]
    exact h
  | some r =>
    rw [onRecord_some hr]
    obtain ⟨hsafe, hfresh, hgrows⟩ := hf r (h.records a r hr)
    refine ⟨hfresh, ?_⟩
    intro b r' hr'
    rcases OrderedMap.get?_set_some hr' with ⟨rfl, rfl⟩ | ⟨hb, hr'⟩
    · exact hsafe
    · exact (h.records b r' hr').grow hgrows hb

/-- A loop over the records. -/
theorem onRecords_safe {f : String → RuntimeRecord → World → RuntimeRecord × World}
    (hf : ∀ a r w, Safe a r w → Fresh w → Keeps a w (f a r w)) (agentIds : List String) :
    ∀ {s : AgentRuntimeSupervisor}, SafeAll s →
      SafeAll (agentIds.foldl (fun s agentId => s.onRecord agentId (f agentId)) s) := by
  induction agentIds with
  | nil =>
    intro s h
    exact h
  | cons agentId agentIds ih =>
    intro s h
    exact ih (onRecord_safe h fun r hr => hf agentId r s.world hr h.fresh)

theorem SafeAll.withPort (h : SafeAll s) (orchestratorPort : Option Nat) :
    SafeAll (s.withPort orchestratorPort) := ⟨h.fresh, h.records⟩

theorem start_safe (hosts : String → RecordHost) (orchestratorPort : Nat) (reason : String)
    (h : SafeAll s) : SafeAll (start cfg hosts orchestratorPort reason s) := by
  unfold start
  dsimp only
  split
  next => exact ⟨h.fresh, h.records⟩
  next =>
    exact onRecords_safe (fun a r w hsafe hfresh => startRecord_keeps hsafe hfresh) _
      (s := { s with orchestratorPort := some orchestratorPort }) ⟨h.fresh, h.records⟩

theorem stop_safe (hosts : String → RecordHost) (reason : String) (h : SafeAll s) :
    SafeAll (stop cfg hosts reason s) :=
  onRecords_safe
    (f := fun a r w => stopRecord cfg (hosts a) a reason (reason ≠ "resource_idle") r
      (w.note (.stop a)))
    (fun _ _ _ hsafe hfresh => stopNoted_keeps hsafe hfresh) _ h

/-- `startAgent` refuses, or takes the managed child for a running one, or
spawns. -/
theorem startAgent_cases (cfg : SupervisorConfig) (host : RecordHost) (a : String)
    (orchestratorPort : Option Nat) (reason : Option String) (s : AgentRuntimeSupervisor) :
    ((startAgent cfg host a orchestratorPort reason s).1 = s ∧
      (startAgent cfg host a orchestratorPort reason s).2.accepted = false) ∨
    ((startAgent cfg host a orchestratorPort reason s).2.accepted = true ∧
      cfg.enabled = true ∧ cfg.startupBlocker = none ∧ ∃ r, s.records.get? a = some r ∧
      ((r.managed.isSome = true ∧ (startAgent cfg host a orchestratorPort reason s).1
          = (s.withPort orchestratorPort).onRecord a fun record w =>
            ({ record with desiredState := .running }, w.note (.start a))) ∨
        (r.managed.isSome = false ∧ (startAgent cfg host a orchestratorPort reason s).1
          = (s.withPort orchestratorPort).onRecord a fun record w =>
            spawnRecord cfg host a (host.now 0) ((s.withPort orchestratorPort).orchestratorPort.getD 0)
              (reason.getD "manual_start") { record with desiredState := .running }
              (w.note (.start a))))) := by
  unfold startAgent
  split
  next => exact Or.inl ⟨rfl, rfl⟩
  next r hr =>
    split
    next => exact Or.inl ⟨rfl, rfl⟩
    next henabled =>
      rw [Bool.not_eq_true', Bool.not_eq_false] at henabled
      split
      next => exact Or.inl ⟨rfl, rfl⟩
      next hblocker =>
        right
        dsimp only
        split
        next hsome => exact ⟨rfl, henabled, hblocker, r, hr, Or.inl ⟨hsome, rfl⟩⟩
        next hnone =>
          exact ⟨rfl, henabled, hblocker, r, hr, Or.inr ⟨Bool.eq_false_of_not_eq_true hnone, rfl⟩⟩

/-- `stopAgent` refuses, or stops the record. -/
theorem stopAgent_cases (cfg : SupervisorConfig) (host : RecordHost) (a : String)
    (options : AgentRuntimeControlOptions) (busy : BusyWork) (s : AgentRuntimeSupervisor) :
    ((stopAgent cfg host a options busy s).1 = s ∧
      (stopAgent cfg host a options busy s).2.accepted = false) ∨
    ((stopAgent cfg host a options busy s).2.accepted = true ∧
      (stopAgent cfg host a options busy s).1 = s.onRecord a fun record w =>
        stopRecord cfg host a (options.reason.getD "manual_stop") (options.sticky.getD true)
          record (w.note (.stop a))) := by
  unfold stopAgent
  split
  next => exact Or.inl ⟨rfl, rfl⟩
  next =>
    split
    next => exact Or.inl ⟨rfl, rfl⟩
    next =>
      split
      next => exact Or.inl ⟨rfl, rfl⟩
      next => exact Or.inr ⟨rfl, rfl⟩

/-- `restartAgent` refuses, or detaches the child it finds and spawns. -/
theorem restartAgent_cases (cfg : SupervisorConfig) (host : RecordHost) (a : String)
    (orchestratorPort : Option Nat) (options : AgentRuntimeControlOptions) (busy : BusyWork)
    (s : AgentRuntimeSupervisor) :
    ((restartAgent cfg host a orchestratorPort options busy s).1 = s ∧
      (restartAgent cfg host a orchestratorPort options busy s).2.accepted = false) ∨
    ((restartAgent cfg host a orchestratorPort options busy s).2.accepted = true ∧
      cfg.enabled = true ∧ (restartAgent cfg host a orchestratorPort options busy s).1
        = (s.withPort orchestratorPort).onRecord a fun record w =>
          let detached := detachAndTerminate cfg host a { record with desiredState := .running }
            (w.note (.start a))
          spawnRecord cfg host a (host.now 2) ((s.withPort orchestratorPort).orchestratorPort.getD 0)
            (options.reason.getD "manual_restart") detached.1 detached.2) := by
  unfold restartAgent
  split
  next => exact Or.inl ⟨rfl, rfl⟩
  next =>
    split
    next => exact Or.inl ⟨rfl, rfl⟩
    next henabled =>
      rw [Bool.not_eq_true', Bool.not_eq_false] at henabled
      split
      next => exact Or.inl ⟨rfl, rfl⟩
      next =>
        split
        next => exact Or.inl ⟨rfl, rfl⟩
        next => exact Or.inr ⟨rfl, henabled, rfl⟩

/-- The exit of a child that was there, once. -/
theorem step_childExit {child : Nat} {code : Option Int} {signal : Option String} {now : Int}
    (hstep : step cfg s (.childExit child code signal now) = some s') :
    ∃ c, s.world.children.get? child = some c ∧ ¬c.exited = true ∧
      s' = s.onRecord c.agentId (emitExit c.agentId child code signal now) := by
  rw [step, Option.bind_eq_some_iff] at hstep
  obtain ⟨c, hc, hstep⟩ := hstep
  split at hstep
  next => exact absurd hstep (by simp)
  next hlive => exact ⟨c, hc, hlive, (Option.some.inj hstep).symm⟩

theorem step_childError {child : Nat} {err : String} {now : Int}
    (hstep : step cfg s (.childError child err now) = some s') :
    ∃ c, s.world.children.get? child = some c ∧ ¬c.errored = true ∧
      s' = s.onRecord c.agentId (emitError cfg c.agentId child err now) := by
  rw [step, Option.bind_eq_some_iff] at hstep
  obtain ⟨c, hc, hstep⟩ := hstep
  split at hstep
  next => exact absurd hstep (by simp)
  next hlive => exact ⟨c, hc, hlive, (Option.some.inj hstep).symm⟩

theorem startAgent_safe (orchestratorPort : Option Nat) (reason : Option String)
    (h : SafeAll s) : SafeAll (startAgent cfg host a orchestratorPort reason s).1 := by
  have hport := h.withPort orchestratorPort
  have hnoted := note_aged (s.withPort orchestratorPort).world (.start a)
  rcases startAgent_cases cfg host a orchestratorPort reason s with
    ⟨hsame, -⟩ | ⟨-, -, -, _, -, ⟨-, htaken⟩ | ⟨-, hspawned⟩⟩
  · rw [hsame]
    exact h
  · rw [htaken]
    refine onRecord_safe hport ?_
    intro r hr
    exact Ages.keeps ⟨hr.aged hnoted rfl rfl, hnoted⟩ hport.fresh
  · rw [hspawned]
    refine onRecord_safe hport ?_
    intro r hr
    have hdesired : Safe a { r with desiredState := .running }
        ((s.withPort orchestratorPort).world.note (.start a)) := hr.aged hnoted rfl rfl
    exact (spawnRecord_keeps hdesired (hnoted.fresh hport.fresh)).after hnoted

theorem stopAgent_safe (options : AgentRuntimeControlOptions) (busy : BusyWork) (h : SafeAll s) :
    SafeAll (stopAgent cfg host a options busy s).1 := by
  rcases stopAgent_cases cfg host a options busy s with ⟨hsame, -⟩ | ⟨-, hstopped⟩
  · rw [hsame]
    exact h
  · rw [hstopped]
    refine onRecord_safe h ?_
    intro r hr
    exact stopNoted_keeps hr h.fresh

theorem restartAgent_safe (orchestratorPort : Option Nat) (options : AgentRuntimeControlOptions)
    (busy : BusyWork) (h : SafeAll s) :
    SafeAll (restartAgent cfg host a orchestratorPort options busy s).1 := by
  have hport := h.withPort orchestratorPort
  have hnoted := note_aged (s.withPort orchestratorPort).world (.start a)
  rcases restartAgent_cases cfg host a orchestratorPort options busy s with
    ⟨hsame, -⟩ | ⟨-, -, hspawned⟩
  · rw [hsame]
    exact h
  · rw [hspawned]
    refine onRecord_safe hport ?_
    intro r hr
    have hdesired : Safe a { r with desiredState := .running }
        ((s.withPort orchestratorPort).world.note (.start a)) := hr.aged hnoted rfl rfl
    obtain ⟨hdetached, -⟩ := @detachAndTerminate_ages cfg host _ _ _ hdesired
    have hw := hnoted.trans hdetached.aged
    exact (spawnRecord_keeps hdetached.safe (hw.fresh hport.fresh)).after hw

theorem step_safe (s : AgentRuntimeSupervisor) (e : Event) (s' : AgentRuntimeSupervisor)
    (h : SafeAll s) (hstep : step cfg s e = some s') : SafeAll s' := by
  cases e with
  | start hosts orchestratorPort reason =>
    rw [step, Option.some.injEq] at hstep
    exact hstep ▸ start_safe hosts orchestratorPort reason h
  | stop hosts reason =>
    rw [step, Option.some.injEq] at hstep
    exact hstep ▸ stop_safe hosts reason h
  | startAgent host a orchestratorPort reason =>
    rw [step, Option.some.injEq] at hstep
    exact hstep ▸ startAgent_safe orchestratorPort reason h
  | stopAgent host a options busy =>
    rw [step, Option.some.injEq] at hstep
    exact hstep ▸ stopAgent_safe options busy h
  | restartAgent host a orchestratorPort options busy =>
    rw [step, Option.some.injEq] at hstep
    exact hstep ▸ restartAgent_safe orchestratorPort options busy h
  | childExit child code signal now =>
    obtain ⟨c, -, -, rfl⟩ := step_childExit hstep
    exact onRecord_safe h fun r hr => (emitExit_called.ages hr).keeps h.fresh
  | childError child err now =>
    obtain ⟨c, -, -, rfl⟩ := step_childError hstep
    exact onRecord_safe h fun r hr => (emitError_called.ages hr).keeps h.fresh
  | timer id host =>
    rw [step, Option.map_eq_some_iff] at hstep
    obtain ⟨timer, -, hstep⟩ := hstep
    have hcleared : SafeAll { s with world := s.world.clearTimeout id } :=
      ⟨h.fresh, fun b r hr => (h.records b r hr).aged (.of_children rfl rfl) rfl rfl⟩
    exact hstep ▸ onRecord_safe hcleared fun r hr => (fire_ages rfl hr).keeps hcleared.fresh

theorem init_safe (cfg : SupervisorConfig) : SafeAll (.init cfg) := by
  refine ⟨fun id c hc => absurd hc (by simp [AgentRuntimeSupervisor.init]), ?_⟩
  intro a r hr
  have hnew : ∀ (agents : List String) (records : OrderedMap String RuntimeRecord),
      (∀ a r, records.get? a = some r → r = newRecord cfg) →
      ∀ a r, (agents.foldl (fun records agentId => records.set agentId (newRecord cfg))
        records).get? a = some r → r = newRecord cfg := by
    intro agents
    induction agents with
    | nil =>
      intro records h
      exact h
    | cons agent agents ih =>
      intro records h
      apply ih
      intro a r hr
      rcases OrderedMap.get?_set_some hr with ⟨-, hnew⟩ | ⟨-, hr⟩
      · exact hnew
      · exact h a r hr
  have hr' := hnew cfg.agents .empty (fun a r hr => absurd hr (by simp)) a r hr
  subst hr'
  refine ⟨?_, ?_, ?_, ?_⟩
  · exact fun m hm => absurd hm (by simp [newRecord])
  · exact fun m hm => absurd hm (by simp [newRecord])
  · exact fun m hm => absurd hm (by simp [newRecord])
  · exact fun id c hc => absurd hc (by simp [AgentRuntimeSupervisor.init])

/-- Every state of every run. -/
theorem safe_exec {es : List Event}
    (hrun : (supervisorRuns cfg).exec (supervisorRuns cfg).init es = some s) : SafeAll s :=
  Lts.reachable_invariant (init_safe cfg) step_safe ⟨es, hrun⟩

/-! ## Late events, refusals and stopped records -/

/-- The event belongs to the child. -/
def Event.Of (s : AgentRuntimeSupervisor) (child : Nat) : Event → Prop
  | .childExit c _ _ _ => c = child
  | .childError c _ _ => c = child
  | .timer id _ => ∃ timer, s.world.timers.get? id = some timer ∧ timer.child = child
  | _ => False

theorem fire_stale {timer : Timer} (h : ∀ m, r.managed = some m → m.child ≠ timer.child) :
    (fire cfg host timer r w).1 = r := by
  cases timer with
  | stop agentId m =>
    have hm : r.managed ≠ some m := fun hm => h m hm rfl
    unfold fire
    dsimp only
    rw [if_pos hm]
  | kill agentId child => exact (kill_called.stale h).1

/-- A timer signals its own child and no other. -/
theorem fire_children {timer : Timer} {id : Nat} (hid : id ≠ timer.child) :
    (fire cfg host timer r w).2.children.get? id = w.children.get? id := by
  cases timer with
  | stop agentId m =>
    unfold fire
    dsimp only
    split
    next => rfl
    next => exact kill_children hid
  | kill agentId child => exact kill_children hid

/-- Working on one record: those it does not change stay, and so do the children
it does not touch. -/
theorem onRecord_stale {f : RuntimeRecord → World → RuntimeRecord × World} {P : RuntimeRecord → Prop}
    {child : Nat} (hrecord : ∀ r w, P r → (f r w).1 = r)
    (hchildren : ∀ r w id, id ≠ child → (f r w).2.children.get? id = w.children.get? id) :
    (∀ b r, s.records.get? b = some r → P r → (s.onRecord a f).records.get? b = some r) ∧
      ∀ id, id ≠ child →
        (s.onRecord a f).world.children.get? id = s.world.children.get? id := by
  cases hr : s.records.get? a with
  | none =>
    rw [onRecord_none hr]
    exact ⟨fun b r hb _ => hb, fun _ _ => rfl⟩
  | some r₀ =>
    rw [onRecord_some hr]
    refine ⟨?_, fun id hid => hchildren r₀ s.world id hid⟩
    intro b r hb hP
    by_cases hba : b = a
    · rw [hba, hr, Option.some.injEq] at hb
      rw [hba, ← hb]
      show (s.records.set a (f r₀ s.world).1).get? a = some r₀
      rw [OrderedMap.get?_set_self, hrecord r₀ s.world (hb ▸ hP)]
    · exact (OrderedMap.get?_set_ne _ _ hba).trans hb

/-- An event of one child changes no record that manages another child or none,
and no other child. -/
theorem step_stale {e : Event} {child : Nat} (hof : e.Of s child)
    (hstep : step cfg s e = some s') :
    (∀ b r, s.records.get? b = some r → (∀ m, r.managed = some m → m.child ≠ child) →
      s'.records.get? b = some r) ∧
      ∀ id, id ≠ child → s'.world.children.get? id = s.world.children.get? id := by
  cases e with
  | childExit c code signal now =>
    obtain rfl : c = child := hof
    obtain ⟨_, -, -, rfl⟩ := step_childExit hstep
    exact onRecord_stale (fun r w h => (emitExit_called.stale h).1) fun r w id hid =>
      emitExit_called.children hid
  | childError c err now =>
    obtain rfl : c = child := hof
    obtain ⟨_, -, -, rfl⟩ := step_childError hstep
    exact onRecord_stale (fun r w h => (emitError_called.stale h).1) fun r w id hid =>
      emitError_called.children hid
  | timer id host =>
    obtain ⟨timer, htimer, rfl⟩ := hof
    rw [step, htimer, Option.map_some, Option.some.injEq] at hstep
    rw [← hstep]
    exact onRecord_stale (s := { s with world := s.world.clearTimeout id })
      (fun r w h => fire_stale h) fun r w id hid => fire_children hid
  | start _ _ _ => exact absurd hof id
  | stop _ _ => exact absurd hof id
  | startAgent _ _ _ _ => exact absurd hof id
  | stopAgent _ _ _ _ => exact absurd hof id
  | restartAgent _ _ _ _ _ => exact absurd hof id

theorem startAgent_refused {orchestratorPort : Option Nat} {reason : Option String}
    (h : (startAgent cfg host a orchestratorPort reason s).2.accepted = false) :
    (startAgent cfg host a orchestratorPort reason s).1 = s := by
  rcases startAgent_cases cfg host a orchestratorPort reason s with ⟨hsame, -⟩ | ⟨haccepted, -⟩
  · exact hsame
  · exact absurd (h.symm.trans haccepted) Bool.false_ne_true

theorem stopAgent_refused {options : AgentRuntimeControlOptions} {busy : BusyWork}
    (h : (stopAgent cfg host a options busy s).2.accepted = false) :
    (stopAgent cfg host a options busy s).1 = s := by
  rcases stopAgent_cases cfg host a options busy s with ⟨hsame, -⟩ | ⟨haccepted, -⟩
  · exact hsame
  · exact absurd (h.symm.trans haccepted) Bool.false_ne_true

theorem restartAgent_refused {orchestratorPort : Option Nat} {options : AgentRuntimeControlOptions}
    {busy : BusyWork}
    (h : (restartAgent cfg host a orchestratorPort options busy s).2.accepted = false) :
    (restartAgent cfg host a orchestratorPort options busy s).1 = s := by
  rcases restartAgent_cases cfg host a orchestratorPort options busy s with
    ⟨hsame, -⟩ | ⟨haccepted, -⟩
  · exact hsame
  · exact absurd (h.symm.trans haccepted) Bool.false_ne_true

/-- The children of an agent are those it had. -/
def NoneSpawned (a : String) (w w' : World) : Prop :=
  ∀ id c, w'.children.get? id = some c → c.agentId = a → w.children.get? id = some c

/-- A spawn changes no child that is there. -/
theorem spawnRecord_children {now : Int} {orchestratorPort : Nat} {reason : String} (hb : b ≠ a) :
    NoneSpawned b w (spawnRecord cfg host a now orchestratorPort reason r w).2 := by
  unfold spawnRecord
  split
  next => exact fun _ _ hc _ => hc
  next =>
    split
    next => exact fun _ _ hc _ => hc
    next =>
      obtain ⟨-, hchildren, -⟩ := clearStopTimer_spec (r.starting reason) w
      dsimp only
      generalize clearStopTimer (r.starting reason) w = cleared at hchildren ⊢
      split
      next =>
        intro id c hc _
        rw [← hchildren]
        exact hc
      next =>
        intro id c hc hagent
        rcases OrderedMap.get?_set_some hc with ⟨-, rfl⟩ | ⟨-, hc⟩
        · exact absurd hagent.symm hb
        · rw [← hchildren]
          exact hc

/-- `start()` passes by a record that is to be stopped. -/
theorem start_stopped {hosts : String → RecordHost} {orchestratorPort : Nat} {reason : String}
    (hr : s.records.get? b = some r) (hstopped : r.desiredState = .stopped) :
    (start cfg hosts orchestratorPort reason s).records.get? b = some r ∧
      NoneSpawned b s.world (start cfg hosts orchestratorPort reason s).world := by
  have hloop : ∀ (agentIds : List String) (t : AgentRuntimeSupervisor),
      t.records.get? b = some r → NoneSpawned b s.world t.world →
      (agentIds.foldl (fun s agentId => s.onRecord agentId
        (startRecord cfg (hosts agentId) agentId orchestratorPort reason)) t).records.get? b = some r ∧
      NoneSpawned b s.world (agentIds.foldl (fun s agentId => s.onRecord agentId
        (startRecord cfg (hosts agentId) agentId orchestratorPort reason)) t).world := by
    intro agentIds
    induction agentIds with
    | nil =>
      intro t ht hnone
      exact ⟨ht, hnone⟩
    | cons agentId agentIds ih =>
      intro t ht hnone
      rw [List.foldl_cons]
      cases hrec : t.records.get? agentId with
      | none =>
        rw [onRecord_none hrec]
        exact ih t ht hnone
      | some r₀ =>
        rw [onRecord_some hrec]
        by_cases hb : b = agentId
        · -- its own turn: nothing is spawned
          rw [← hb, ht, Option.some.injEq] at hrec
          have hsame : startRecord cfg (hosts agentId) agentId orchestratorPort reason r₀ t.world
              = (r₀, t.world) := by
            rw [startRecord, if_pos]
            rw [← hrec, hstopped]
            decide
          rw [hsame]
          refine ih _ ?_ hnone
          rw [← hb, ← hrec]
          exact OrderedMap.get?_set_self ..
        · refine ih _ ((OrderedMap.get?_set_ne _ _ hb).trans ht) ?_
          intro id c hc hagent
          refine hnone id c ?_ hagent
          unfold startRecord at hc
          dsimp only at hc
          split at hc
          next => exact hc
          next => exact spawnRecord_children (w := t.world.note (.start agentId)) hb id c hc hagent
  unfold start
  dsimp only
  split
  next => exact ⟨hr, fun _ _ hc _ => hc⟩
  next => exact hloop _ _ hr fun _ _ hc _ => hc

/-- Generation safety: in every state of every run each record is safe with its
children, an event of a child that is not managed changes neither the record nor
another child, `start()` spawns nothing for a record that is to be stopped, and
a request that is refused changes nothing. -/
theorem supervisor_generation_safe (cfg : SupervisorConfig) {es : List Event}
    {s : AgentRuntimeSupervisor}
    (hrun : (supervisorRuns cfg).exec (supervisorRuns cfg).init es = some s) :
    (∀ a r, s.records.get? a = some r → Safe a r s.world) ∧
      (∀ e s' child, e.Of s child → step cfg s e = some s' →
        (∀ b r, s.records.get? b = some r → (∀ m, r.managed = some m → m.child ≠ child) →
          s'.records.get? b = some r) ∧
        ∀ id, id ≠ child → s'.world.children.get? id = s.world.children.get? id) ∧
      (∀ hosts orchestratorPort reason b r, s.records.get? b = some r →
        r.desiredState = .stopped →
        (start cfg hosts orchestratorPort reason s).records.get? b = some r ∧
          NoneSpawned b s.world (start cfg hosts orchestratorPort reason s).world) ∧
      ∀ host a,
        (∀ orchestratorPort reason,
          (startAgent cfg host a orchestratorPort reason s).2.accepted = false →
            (startAgent cfg host a orchestratorPort reason s).1 = s) ∧
        (∀ options busy, (stopAgent cfg host a options busy s).2.accepted = false →
          (stopAgent cfg host a options busy s).1 = s) ∧
        ∀ orchestratorPort options busy,
          (restartAgent cfg host a orchestratorPort options busy s).2.accepted = false →
            (restartAgent cfg host a orchestratorPort options busy s).1 = s := by
  refine ⟨(safe_exec hrun).records, ?_, ?_, ?_⟩
  · intro e s' child hof hstep
    exact step_stale hof hstep
  · intro hosts orchestratorPort reason b r hr hstopped
    exact start_stopped hr hstopped
  · intro host a
    refine ⟨?_, ?_, ?_⟩
    · intro orchestratorPort reason
      exact startAgent_refused
    · intro options busy
      exact stopAgent_refused
    · intro orchestratorPort options busy
      exact restartAgent_refused

/-! One agent, restarted while its child runs; the old child exits last. -/

def sampleSupervisor : SupervisorConfig where
  enabled := true
  startupBlocker := none
  hostOverride := none
  agents := ["shaev"]
  redactSensitiveText := fun text => text

/-- A host on which nothing fails and `kill` returns before the child is gone. -/
def quietHost : RecordHost := ⟨fun _ => 0, none, .quiet⟩

def restarted : List Event :=
  [.startAgent quietHost "shaev" (some 18080) none,
   .restartAgent quietHost "shaev" (some 18080) ⟨none, true, none⟩ ⟨0, 0⟩]

/-- The state after a run of the sample, and the agent's record there. -/
def sampleRecord (es : List Event) : Option (AgentRuntimeSupervisor × RuntimeRecord) :=
  ((supervisorRuns sampleSupervisor).exec (.init sampleSupervisor) es).bind fun s =>
    (s.records.get? "shaev").map fun r => (s, r)

theorem sampleRecord_eq {es : List Event} {s : AgentRuntimeSupervisor} {r : RuntimeRecord}
    (h : sampleRecord es = some (s, r)) :
    (supervisorRuns sampleSupervisor).exec (.init sampleSupervisor) es = some s ∧
      s.records.get? "shaev" = some r := by
  obtain ⟨s', hs', hr⟩ := Option.bind_eq_some_iff.mp h
  obtain ⟨r', hr', heq⟩ := Option.map_eq_some_iff.mp hr
  rw [Prod.mk.injEq] at heq
  rw [← heq.1, ← heq.2]
  exact ⟨hs', hr'⟩

theorem restarted_ignores_old_child :
    ∃ s s' r, sampleRecord restarted = some (s, r) ∧ r.managed = some ⟨1, 2⟩ ∧
      Safe "shaev" r s.world ∧
      step sampleSupervisor s (.childExit 0 (some 0) (some "SIGTERM") 0) = some s' ∧
      s'.records.get? "shaev" = some r := by
  have hmanaged : (sampleRecord restarted).map (fun x => x.2.managed) = some (some ⟨1, 2⟩) := by
    decide +kernel
  have hchild : (sampleRecord restarted).map
      (fun x => (x.1.world.children.get? 0).map Child.exited) = some (some false) := by
    decide +kernel
  obtain ⟨⟨s, r⟩, hrecord, hm⟩ := Option.map_eq_some_iff.mp hmanaged
  rw [hrecord, Option.map_some, Option.some.injEq] at hchild
  obtain ⟨c, hc, hexited⟩ := Option.map_eq_some_iff.mp hchild
  obtain ⟨hrun, hr⟩ := sampleRecord_eq hrecord
  have hstep : step sampleSupervisor s (.childExit 0 (some 0) (some "SIGTERM") 0)
      = some (s.onRecord c.agentId (emitExit c.agentId 0 (some 0) (some "SIGTERM") 0)) := by
    rw [step, hc, Option.bind_some, hexited]
    rfl
  have hof : Event.Of s 0 (.childExit 0 (some 0) (some "SIGTERM") 0) := rfl
  obtain ⟨hsafe, hlate, -⟩ := supervisor_generation_safe sampleSupervisor hrun
  refine ⟨s, _, r, hrecord, hm, hsafe "shaev" r hr, hstep, ?_⟩
  refine (hlate _ _ 0 hof hstep).1 "shaev" r hr ?_
  intro m hm'
  rw [hm, Option.some.injEq] at hm'
  rw [← hm']
  decide

end Kovael.Supervisor
