import Kovael.Triad.Cycle

/-!
# When the outcome of a cycle agrees with its phases

The terminal phase is emitted before the receipt is stored and announced, and the
persona and the span are made before the `try`. `outcome_agrees_iff` says which
faults therefore leave a cycle whose promise and whose phases tell two stories.
-/

namespace Kovael.Triad

open Kovael.Mesh (ReceiptStatus)

/-- The phases that a cycle has emitted. -/
def CycleState.phases (s : CycleState) : List TriadPhase := s.emitted.map PhaseEvent.phase

/-- The cycle is at `p`, on a legal path, and has stored nothing yet. -/
structure Underway (s : CycleState) (p : TriadPhase) : Prop where
  phase : s.machine.phase = p
  going : p.isTerminal = false
  path : PathTo s.phases p
  trail : ∃ first, s.machine.history = first :: s.emitted ∧ first.phase = .preparingContext
  stored : s.stored = []

theorem bind_run {α β : Type} (x : CycleM α) (f : α → CycleM β) (s : CycleState) :
    (x >>= f) s = match x s with
      | (.ok a, s) => f a s
      | (.error thrown, s) => (.error thrown, s) := rfl

/-- From the phase `p`, the computation has this outcome, and is at `q` unless it throws. -/
def Takes {α : Type} (p q : TriadPhase) (outcome : Except Thrown α) (x : CycleM α) : Prop :=
  ∀ s, Underway s p → (x s).1 = outcome ∧
    ∃ r, Underway (x s).2 r ∧ ∀ a, outcome = .ok a → r = q

namespace Takes

variable {α β : Type} {p q r : TriadPhase}

theorem bind {outcome : Except Thrown α} {next : α → Except Thrown β} {x : CycleM α}
    {f : α → CycleM β} (hx : Takes p q outcome x) (hf : ∀ a, Takes q r (next a) (f a)) :
    Takes p r (outcome >>= next) (x >>= f) := by
  intro s hs
  obtain ⟨hout, there, hat, hq⟩ := hx s hs
  rw [bind_run]
  cases outcome with
  | error thrown =>
    rw [← Prod.eta (x s), hout]
    exact ⟨rfl, there, hat, fun a h => absurd h (by simp [Bind.bind, Except.bind])⟩
  | ok a =>
    rw [← Prod.eta (x s), hout]
    exact hf a _ (hq a rfl ▸ hat)

theorem call (outcome : Except Thrown α) : Takes p p outcome (call outcome) :=
  fun _ hs => ⟨rfl, p, hs, fun _ _ => rfl⟩

theorem pure (a : α) : Takes p p (.ok a) (Pure.pure a : CycleM α) :=
  fun _ hs => ⟨rfl, p, hs, fun _ _ => rfl⟩

end Takes

/-- The state after a transition that is legal. -/
theorem transition_run (env : CycleEnv) {s : CycleState} {p q : TriadPhase}
    (hs : Underway s p) (hnext : q ∈ p.next) (routedAgent note : Option String) :
    (env.transition q routedAgent note s).1 = raise (env.phaseListener q) ∧
      (env.transition q routedAgent note s).2.machine.phase = q ∧
      (env.transition q routedAgent note s).2.phases = s.phases ++ [q] ∧
      (∃ first, (env.transition q routedAgent note s).2.machine.history
          = first :: (env.transition q routedAgent note s).2.emitted ∧
        first.phase = .preparingContext) ∧
      (env.transition q routedAgent note s).2.stored = [] := by
  obtain ⟨first, htrail, hfirst⟩ := hs.trail
  unfold CycleEnv.transition
  rw [hs.phase, if_pos hnext]
  refine ⟨rfl, rfl, ?_, ⟨first, ?_, hfirst⟩, hs.stored⟩
  · exact List.map_append
  · dsimp only [TriadStateMachine.moved]
    rw [htrail, List.cons_append]

theorem Takes.transition (env : CycleEnv) {p q : TriadPhase} (hnext : q ∈ p.next)
    (hq : q.isTerminal = false) (routedAgent note : Option String) :
    Takes p q (raise (env.phaseListener q)) (env.transition q routedAgent note) := by
  intro s hs
  obtain ⟨hout, hphase, hphases, htrail, hstored⟩ := transition_run env hs hnext routedAgent note
  refine ⟨hout, q, ⟨hphase, hq, ?_, htrail, hstored⟩, fun _ _ => rfl⟩
  rw [hphases]
  exact hs.path.step hnext

/-! ## The roles -/

/-- What the roles return, or what is thrown before they are done. -/
def CycleEnv.rolesOutcome (env : CycleEnv) (cycle : CycleTask) (span : Option CycleSpan)
    (context : List Message) : Except Thrown RolesDone := do
  raise (env.phaseListener .dispatchToArchitect)
  raise (env.phaseListener .architectStreaming)
  let blueprint ← runTriadPhase span .architect
    (env.architect cycle.task context cycle.routing.agent)
  raise (env.phaseListener .dispatchToOperator)
  raise (env.phaseListener .operatorExecuting)
  let executionResult ← runTriadPhase span .operator (env.operator blueprint)
  raise (env.phaseListener .dispatchToVerifier)
  raise (env.phaseListener .verifierAuditing)
  let verification ← runTriadPhase span .verifier (env.verifier blueprint executionResult)
  raise (env.phaseListener .issuingReceipt)
  return ⟨blueprint, executionResult, verification⟩

theorem runRoles_takes (env : CycleEnv) (cycle : CycleTask) (span : Option CycleSpan)
    (context : List Message) :
    Takes .preparingContext .issuingReceipt (env.rolesOutcome cycle span context)
      (env.runRoles cycle span context) := by
  unfold CycleEnv.rolesOutcome CycleEnv.runRoles
  refine (Takes.transition env (by decide) rfl _ _).bind fun _ => ?_
  refine (Takes.transition env (by decide) rfl _ _).bind fun _ => ?_
  refine (Takes.call _).bind fun blueprint => ?_
  refine (Takes.transition env (by decide) rfl _ _).bind fun _ => ?_
  refine (Takes.transition env (by decide) rfl _ _).bind fun _ => ?_
  refine (Takes.call _).bind fun executionResult => ?_
  refine (Takes.transition env (by decide) rfl _ _).bind fun _ => ?_
  refine (Takes.transition env (by decide) rfl _ _).bind fun _ => ?_
  refine (Takes.call _).bind fun verification => ?_
  refine (Takes.transition env (by decide) rfl _ _).bind fun _ => ?_
  exact Takes.pure _

theorem underway_atStart (env : CycleEnv) (cycle : CycleTask) :
    Underway (env.atStart cycle) .preparingContext where
  phase := rfl
  going := rfl
  path := .start
  trail := ⟨_, rfl, rfl⟩
  stored := rfl

/-! ## The receipt -/

theorem verdict_next (success : Bool) : verdict success ∈ TriadPhase.issuingReceipt.next := by
  cases success <;> decide

theorem verdict_terminal (success : Bool) : (verdict success).isTerminal = true := by
  cases success <;> rfl

/-- The terminal phase is heard and the receipt inserted without a throw. -/
def Recorded (env : CycleEnv) (success : Bool) : Prop :=
  env.phaseListener (verdict success) = none ∧ env.insert = none

/-- The receipt is announced and the span ended without a throw. -/
def Announced (env : CycleEnv) (span : Option CycleSpan) : Prop :=
  env.completeListener = none ∧ endSpan span = .ok ()

/-- The receipt tells the phases of the cycle, and its status the last of them. -/
structure Tells (receipt : VerificationReceipt) (s : CycleState) (success : Bool) : Prop where
  status : receipt.status = .verified ↔ success = true
  trail : ∃ first, receipt.phaseTrail = first :: s.emitted ∧ first.phase = .preparingContext

/-- The cycle after its terminal transition, with what it has stored. -/
structure Closed (before after : CycleState) (success : Bool)
    (stored : List VerificationReceipt) : Prop where
  phase : after.machine.phase = verdict success
  phases : after.phases = before.phases ++ [verdict success]
  stored : after.stored = stored

theorem buildReceipt_run (env : CycleEnv) (cycle : CycleTask) (context : List Message)
    (done : RolesDone) (cycleStart : Int) (s : CycleState) :
    ∃ receipt, env.buildReceipt cycle context done cycleStart s
        = (.ok receipt, { s with reads := s.reads + 2 }) ∧
      receipt.status = if done.verification.success then .verified else .failed :=
  ⟨_, rfl, rfl⟩

/-- The receipt is stored unless the insert throws, whatever is thrown after it. -/
theorem fileReceipt_run (env : CycleEnv) (span : Option CycleSpan) (receipt : VerificationReceipt)
    (s : CycleState) :
    env.fileReceipt span receipt s = match env.insert with
      | some thrown => (.error thrown, s)
      | none =>
        ((raise env.completeListener >>= fun _ => endSpan span).map fun _ => receipt,
          { s with
            stored := s.stored ++ [receipt]
            completed := s.completed ++ [receipt] }) := by
  unfold CycleEnv.fileReceipt
  rw [bind_run]
  unfold CycleEnv.storeReceipt
  cases env.insert with
  | some thrown => rfl
  | none =>
    dsimp only
    rw [bind_run]
    unfold CycleEnv.emitComplete
    cases env.completeListener with
    | some thrown => rfl
    | none =>
      dsimp only [raise]
      rw [bind_run]
      unfold call
      cases endSpan span with
      | error thrown => rfl
      | ok => rfl

theorem announced_iff (env : CycleEnv) (span : Option CycleSpan) :
    Announced env span ↔ (raise env.completeListener >>= fun _ => endSpan span) = .ok () := by
  unfold Announced
  cases env.completeListener with
  | none => exact and_iff_right rfl
  | some thrown => exact iff_of_false (by simp) (by simp [raise, Bind.bind, Except.bind])

/-- How the end of the `try` goes. -/
theorem issueReceipt_run (env : CycleEnv) (cycle : CycleTask) (span : Option CycleSpan)
    (context : List Message) (cycleStart : Int) (done : RolesDone) {s : CycleState}
    (hs : Underway s .issuingReceipt) :
    (¬Recorded env done.verification.success → ∃ thrown after,
      env.issueReceipt cycle span context cycleStart done s = (.error thrown, after) ∧
        Closed s after done.verification.success []) ∧
    (Recorded env done.verification.success → ∃ receipt after,
      Tells receipt after done.verification.success ∧
      Closed s after done.verification.success [receipt] ∧
      (Announced env span →
        env.issueReceipt cycle span context cycleStart done s = (.ok receipt, after)) ∧
      (¬Announced env span → ∃ thrown,
        env.issueReceipt cycle span context cycleStart done s = (.error thrown, after))) := by
  obtain ⟨built, hbuilt, hstatus⟩ := buildReceipt_run env cycle context done cycleStart s
  have hread : Underway { s with reads := s.reads + 2 } .issuingReceipt :=
    ⟨hs.phase, hs.going, hs.path, hs.trail, hs.stored⟩
  obtain ⟨hout, hphase, hphases, htrail, hstored⟩ :=
    transition_run env hread (verdict_next done.verification.success)
      (some cycle.routing.agent) none
  unfold CycleEnv.issueReceipt
  rw [bind_run, hbuilt]
  dsimp only
  rw [bind_run]
  -- the terminal transition
  generalize env.transition (verdict done.verification.success) (some cycle.routing.agent) none
    { s with reads := s.reads + 2 } = moved at hout hphase hphases htrail hstored ⊢
  obtain ⟨heard, after⟩ := moved
  dsimp only at hout hphase hphases htrail hstored
  subst hout
  constructor
  · intro hrecorded
    cases hlistener : env.phaseListener (verdict done.verification.success) with
    | some thrown => exact ⟨thrown, after, rfl, hphase, hphases, hstored⟩
    | none =>
      cases hinsert : env.insert with
      | none => exact absurd ⟨hlistener, hinsert⟩ hrecorded
      | some thrown =>
        refine ⟨thrown, after, ?_, hphase, hphases, hstored⟩
        dsimp only [raise]
        rw [bind_run]
        dsimp only [CycleEnv.trail]
        rw [fileReceipt_run, hinsert]
  · intro hgiven
    obtain ⟨hlistener, hinsert⟩ := hgiven
    rw [hlistener]
    dsimp only [raise]
    rw [bind_run]
    dsimp only [CycleEnv.trail]
    rw [fileReceipt_run, hinsert]
    dsimp only
    rw [announced_iff]
    let receipt : VerificationReceipt := { built with phaseTrail := after.machine.history }
    refine ⟨receipt,
      { after with
        stored := after.stored ++ [receipt]
        completed := after.completed ++ [receipt] },
      ⟨?_, htrail⟩, ⟨hphase, hphases, ?_⟩, ?_, ?_⟩
    · show built.status = .verified ↔ done.verification.success = true
      rw [hstatus]
      cases done.verification.success <;> decide
    · show after.stored ++ [receipt] = [receipt]
      rw [hstored, List.nil_append]
    · intro hannounced
      rw [hannounced]
      rfl
    · intro hannounced
      cases hout : (raise env.completeListener >>= fun _ => endSpan span) with
      | ok u => exact absurd hout hannounced
      | error thrown => exact ⟨thrown, rfl⟩

/-! ## The `catch` -/

/-- A cycle that is over stays as it is. -/
theorem failCycle_over (env : CycleEnv) (cycle : CycleTask) (span : Option CycleSpan)
    (error : Thrown) {s : CycleState} (hs : s.machine.phase.isTerminal = true) :
    ∃ thrown, env.failCycle cycle span error s = (.error thrown, s) := by
  unfold CycleEnv.failCycle
  rw [if_pos hs]
  dsimp only
  split
  · exact ⟨_, rfl⟩
  · exact ⟨_, rfl⟩

/-- A cycle that is not over fails, if the note of its failure can be read. -/
theorem failCycle_underway (env : CycleEnv) (cycle : CycleTask) (span : Option CycleSpan)
    (error : Thrown) {s : CycleState} {p : TriadPhase} (hs : Underway s p) :
    ∃ thrown after, env.failCycle cycle span error s = (.error thrown, after) ∧
      after.stored = [] ∧
      after.phases = match error.message with
        | .error _ => s.phases
        | .ok _ => s.phases ++ [.failed] := by
  have hgoing : ¬s.machine.phase.isTerminal = true := by
    rw [hs.phase, hs.going]
    exact Bool.false_ne_true
  have hfails : ∀ note, _ := fun note =>
    transition_run env hs (TriadPhase.failed_mem_next hs.going) (some cycle.routing.agent) note
  unfold CycleEnv.failCycle
  rw [if_neg hgoing]
  dsimp only
  cases error.message with
  | error unread =>
    dsimp only
    split
    · exact ⟨_, s, rfl, hs.stored, rfl⟩
    · exact ⟨_, s, rfl, hs.stored, rfl⟩
  | ok note =>
    obtain ⟨-, -, hphases, -, hstored⟩ := hfails note
    dsimp only
    split
    · exact ⟨_, _, rfl, hstored, hphases⟩
    · exact ⟨_, _, rfl, hstored, hphases⟩

/-! ## The condition -/

/-- The promise and the phases tell the same. -/
def Agrees : Except Thrown VerificationReceipt × CycleState → Prop
  | (.ok receipt, s) =>
    ∃ p, EndsIn s.phases p ∧ (receipt.status = .verified ↔ p = .succeeded) ∧
      (∃ first, receipt.phaseTrail = first :: s.emitted ∧ first.phase = .preparingContext) ∧
      receipt ∈ s.stored
  | (.error _, s) => EndsIn s.phases .failed ∧ s.stored = []

/-- Nothing is thrown before the `try`; what is thrown before the verdict has a
`message` to read; and after it, all goes well, or the cycle fails before its
receipt is stored. -/
def CycleFits (env : CycleEnv) (cycle : CycleTask) (context : List Message) : Prop :=
  ∃ prompted span,
    env.contextFor cycle.routing.agent (shardContext context env.keepRecentTurns) = .ok prompted ∧
    env.startCycle = .ok span ∧
    match env.rolesOutcome cycle span prompted with
    | .error thrown => ∃ note, thrown.message = .ok note
    | .ok done =>
      (Recorded env done.verification.success ∧ Announced env span) ∨
        (done.verification.success = false ∧ ¬Recorded env done.verification.success)

theorem EndsIn.unique {phases : List TriadPhase} {p q : TriadPhase} (hp : EndsIn phases p)
    (hq : EndsIn phases q) : p = q :=
  Option.some.inj (hp.last.symm.trans hq.last)

/-- What a cycle that has been closed ends in. -/
theorem Closed.ends {before after : CycleState} {success : Bool}
    {stored : List VerificationReceipt} (h : Closed before after success stored)
    (hbefore : Underway before .issuingReceipt) : EndsIn after.phases (verdict success) := by
  rw [h.phases]
  exact hbefore.path.ends hbefore.going (verdict_next success) (verdict_terminal success)

/-- For every fault, the outcome of a cycle agrees with its phases exactly if the
fault comes where the order of `execute` can still answer it. -/
theorem outcome_agrees_iff (env : CycleEnv) (cycle : CycleTask) (context : List Message) :
    Agrees (env.execute cycle context) ↔ CycleFits env cycle context := by
  unfold CycleEnv.execute CycleFits
  dsimp only
  cases hprompted : env.contextFor cycle.routing.agent
      (shardContext context env.keepRecentTurns) with
  | error thrown =>
    refine iff_of_false ?_ (by simp)
    intro hgiven
    obtain ⟨hends, -⟩ := hgiven
    exact absurd hends.last (by simp [CycleEnv.atStart, CycleState.phases])
  | ok prompted =>
    cases hspan : env.startCycle with
    | error thrown =>
      refine iff_of_false ?_ (by simp)
      intro hgiven
      obtain ⟨hends, -⟩ := hgiven
      exact absurd hends.last (by simp [CycleEnv.atStart, CycleState.phases])
    | ok span =>
      simp only [Except.ok.injEq, exists_and_left, exists_eq_left']
      obtain ⟨hout, p, hunderway, hp⟩ :=
        runRoles_takes env cycle span prompted (env.atStart cycle) (underway_atStart env cycle)
      rw [bind_run]
      generalize env.runRoles cycle span prompted (env.atStart cycle) = ran at hout hunderway ⊢
      obtain ⟨outcome, s⟩ := ran
      dsimp only at hout hunderway
      rw [hout]
      cases hroles : env.rolesOutcome cycle span prompted with
      | error thrown =>
        dsimp only
        obtain ⟨rethrown, after, hfail, hstored, hphases⟩ :=
          failCycle_underway env cycle span thrown hunderway
        rw [hfail]
        cases hmessage : thrown.message with
        | error unread =>
          -- the cycle stays where it was, in no terminal phase
          rw [hmessage] at hphases
          refine iff_of_false ?_ (by simp)
          intro hgiven
          obtain ⟨hends, -⟩ := hgiven
          have hnone := hunderway.path.countP_of_not_terminal hunderway.going
          rw [← show after.phases = s.phases from hphases, hends.once] at hnone
          exact absurd hnone Nat.one_ne_zero
        | ok note =>
          rw [hmessage] at hphases
          refine iff_of_true ⟨?_, hstored⟩ ⟨note, rfl⟩
          rw [hphases]
          exact hunderway.path.ends hunderway.going
            (TriadPhase.failed_mem_next hunderway.going) rfl
      | ok done =>
        have hready : Underway s .issuingReceipt := hp done hroles ▸ hunderway
        obtain ⟨hunrecorded, hrecorded⟩ :=
          issueReceipt_run env cycle span prompted (env.clock 1) done hready
        dsimp only
        by_cases hrec : Recorded env done.verification.success
        · obtain ⟨receipt, after, htells, hclosed, hresolved, hrejected⟩ := hrecorded hrec
          have hends := hclosed.ends hready
          by_cases hann : Announced env span
          · rw [hresolved hann]
            refine iff_of_true ⟨_, hends, ?_, htells.trail, ?_⟩ (Or.inl ⟨hrec, hann⟩)
            · rw [htells.status]
              cases done.verification.success <;> decide
            · rw [hclosed.stored]
              exact List.mem_singleton_self receipt
          · -- the receipt is stored, and the promise rejects
            obtain ⟨thrown, hthrown⟩ := hrejected hann
            rw [hthrown]
            obtain ⟨rethrown, hfail⟩ := failCycle_over env cycle span thrown
              (hclosed.phase ▸ verdict_terminal done.verification.success)
            dsimp only
            rw [hfail]
            refine iff_of_false ?_ ?_
            · intro hgiven
              obtain ⟨-, hstored⟩ := hgiven
              rw [hclosed.stored] at hstored
              exact absurd hstored (List.cons_ne_nil _ _)
            · intro hcases
              rcases hcases with ⟨-, h⟩ | ⟨-, h⟩
              · exact hann h
              · exact h hrec
        · obtain ⟨thrown, after, hthrown, hclosed⟩ := hunrecorded hrec
          rw [hthrown]
          obtain ⟨rethrown, hfail⟩ := failCycle_over env cycle span thrown
            (hclosed.phase ▸ verdict_terminal done.verification.success)
          dsimp only
          rw [hfail]
          have hends := hclosed.ends hready
          constructor
          · intro hgiven
            obtain ⟨hfailed, -⟩ := hgiven
            refine Or.inr ⟨?_, hrec⟩
            have hverdict := hends.unique hfailed
            cases hsuccess : done.verification.success with
            | false => rfl
            | true =>
              rw [hsuccess] at hverdict
              exact absurd hverdict (by decide)
          · intro hcases
            rcases hcases with ⟨h, -⟩ | ⟨hsuccess, -⟩
            · exact absurd h hrec
            · rw [hsuccess] at hends
              exact ⟨hends, hclosed.stored⟩

/-! ## A receipt that is not stored -/

/-- Nothing throws but, if so, the insert. -/
def quietEnv (insert : Option Thrown) : CycleEnv where
  sha256 := fun _ => "9f86d0"
  cycleId := "cycle-1"
  receiptId := "receipt-1"
  clock := fun n => n
  render := fun _ => "24576"
  keepRecentTurns := 3
  personaLoader := none
  tracing := none
  architect := fun task context agent => .ok (architect "task-1" task context agent)
  operator := fun blueprint => .ok (operator blueprint)
  verifier := fun blueprint result => .ok (verifier "c0ffee" blueprint result)
  phaseListener := fun _ => none
  completeListener := none
  insert := insert

/-- A task routed to the fallback. -/
def smallCycle : CycleTask := ⟨⟨"nyx-cli", .vramUnknown⟩, 0, "index the repository"⟩

/-- The insert throws after `Succeeded` was emitted: the promise rejects. -/
theorem success_not_stored :
    ∃ thrown s, (quietEnv (some (.value (some "database is locked")))).execute smallCycle []
        = (.error thrown, s) ∧
      s.phases.getLast? = some .succeeded ∧ s.stored = [] ∧
      ¬Agrees ((quietEnv (some (.value (some "database is locked")))).execute smallCycle []) := by
  refine ⟨_, _, rfl, rfl, rfl, ?_⟩
  intro hgiven
  obtain ⟨hends, -⟩ := hgiven
  exact absurd hends.last (by decide)

end Kovael.Triad
