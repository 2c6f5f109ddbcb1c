import Kovael.Mesh.Exclusion

/-!
# What a cycle leaves behind

A cycle that ends by itself releases its claim or leaves it to the retry queue,
and gives its workspace back. The run is that of the event loop, with any other
turns in between that leave the record of the cycle's task alone.

`claim_left_iff` says when this holds: `HookRunner.runOne` and the `catch` around
`execute` read `message` from whatever was thrown, so `null` and `undefined` leave
`injectTask` by an exit without clean-up.
-/

namespace Kovael.Mesh

open Js (Number OrderedMap Clock)
open Kovael.Claims
open Kovael.Claims.TaskClaimMachine

variable {env : Env} {w w' : World} {id : String}

/-! ## One id among the others -/

/-- The cycle of the id and its workspace are the same in both states. -/
def SameFor (id : String) (w w' : World) : Prop :=
  w'.cycle? id = w.cycle? id ∧ w'.owner.workspaces.get? id = w.owner.workspaces.get? id

theorem SameFor.rfl : SameFor id w w := ⟨Eq.refl _, Eq.refl _⟩

theorem SameFor.trans {w'' : World} (h : SameFor id w w') (h' : SameFor id w' w'') :
    SameFor id w w'' :=
  ⟨h'.1.trans h.1, h'.2.trans h.2⟩

theorem cycle?_id {c : Cycle} (h : w.cycle? id = some c) : c.cycleId = id := by
  have hfound := List.find?_some h
  exact of_decide_eq_true hfound

theorem cycle?_settle (w : World) (c : Cycle) (o : Outcome) (id : String) :
    (w.settle c o).cycle? id = if id = c.cycleId then none else w.cycle? id := by
  unfold World.cycle? World.settle
  dsimp only
  rw [List.find?_filter]
  by_cases hid : id = c.cycleId
  · rw [if_pos hid, List.find?_eq_none]
    intro d _
    simp [hid]
  · rw [if_neg hid]
    congr 1
    funext d
    by_cases hd : d.cycleId = id
    · simp [hd, hid]
    · simp [hd]

theorem cycle?_suspend (w : World) (c : Cycle) (stage : Stage) (id : String) :
    (w.suspend c stage).cycle? id
      = if id = c.cycleId then (w.cycle? id).map fun d => { d with stage := stage }
        else w.cycle? id := by
  unfold World.cycle? World.suspend
  dsimp only
  rw [List.find?_map]
  have hsame : ((fun d : Cycle => decide (d.cycleId = id)) ∘ fun d : Cycle =>
      if d.cycleId = c.cycleId then { d with stage := stage } else d)
        = fun d => decide (d.cycleId = id) := by
    funext d
    rw [Function.comp_apply]
    split <;> rfl
  rw [hsame]
  cases hfind : w.owner.active.find? fun d => decide (d.cycleId = id) with
  | none =>
    rw [Option.map_none, Option.map_none, ite_self]
  | some d =>
    have hid : d.cycleId = id := cycle?_id hfind
    rw [Option.map_some, Option.map_some, hid]
    split <;> rfl

theorem sameFor_settle {c : Cycle} (hid : id ≠ c.cycleId) (o : Outcome) :
    SameFor id w (w.settle c o) :=
  ⟨(cycle?_settle w c o id).trans (if_neg hid), rfl⟩

theorem sameFor_suspend {c : Cycle} (hid : id ≠ c.cycleId) (stage : Stage) :
    SameFor id w (w.suspend c stage) :=
  ⟨(cycle?_suspend w c stage id).trans (if_neg hid), rfl⟩

@[simp] theorem releaseWorkspace_cycle? (w : World) (c : Cycle) :
    (w.releaseWorkspace c).cycle? id = w.cycle? id := by
  rw [World.cycle?, releaseWorkspace_active, World.cycle?]

theorem sameFor_releaseWorkspace {c : Cycle} (hid : id ≠ c.cycleId) :
    SameFor id w (w.releaseWorkspace c) := by
  refine ⟨releaseWorkspace_cycle? w c, ?_⟩
  unfold World.releaseWorkspace
  split
  next => rfl
  next => exact OrderedMap.get?_delete_ne _ hid

/-! ## What a cycle's turn does -/

/-- The wake tells a cycle at that stage that its execution failed or threw. -/
def Fails : Stage → Wake → Prop
  | .execute, .execThrew _ => True
  | .afterRun receipt, .hooksRan _ => receipt.status = .failed
  | _, _ => False

/-- The ledger after the cycle's last step on it: a release, or a reported failure. -/
def Reports (clock : Clock) (c : Cycle) (wake : Wake) (w : World) (m : TaskClaimMachine) : Prop :=
  (¬Fails c.stage wake ∧ ∃ reason, m = (w.claims.release (clock 0) c.taskHash reason).1) ∨
  (Fails c.stage wake ∧ ∃ reason,
    m = (w.queue.enqueueFailure w.claims clock c.taskHash c.goal reason).1)

/-- Everything a cycle can do in a turn in which nothing is left uncaught: go on with its
claim, report, and leave or go on to the hooks of its workspace, or leave from these. -/
structure Handles (clock : Clock) (c : Cycle) (wake : Wake) (w w' : World) : Prop where
  caught : ∀ message, wake ≠ .uncaught message
  cases :
    (c.stage.holds = true ∧ ¬Fails c.stage wake ∧
      ∃ stage, stage.holds = true ∧ w' = w.suspend c stage) ∨
    (c.stage.holds = true ∧ Reports clock c wake w w'.claims ∧
      ((∃ o, ∀ id, SameFor id ((w.releaseWorkspace c).settle c o) w') ∨
        ∃ receipt, c.workspacePath.isSome = true ∧
          ∀ id, SameFor id (w.suspend c (.beforeRemove receipt)) w')) ∨
    (c.stage.holds = false ∧ ∃ o, w' = (w.releaseWorkspace c).settle c o)

theorem releaseWorkspace_of_none {c : Cycle} (h : c.workspacePath = none) :
    w.releaseWorkspace c = w := by
  rw [World.releaseWorkspace, h]

/-- The last step on the ledger after the `after_run` hooks, and what follows it. -/
theorem handles_afterRun {clock : Clock} {c : Cycle} {receipt : Receipt} {results : List HookResult}
    (hstage : c.stage = .afterRun receipt)
    {v : World} (hv : ∀ id, SameFor id w v)
    (hreports : Reports clock c (.hooksRan results) w v.claims)
    (hstep : (match c.workspacePath with
      | some _ => v.suspend c (.beforeRemove receipt)
      | none => v.settle c (.returned receipt)) = w') :
    Handles clock c (.hooksRan results) w w' where
  caught _ h := nomatch h
  cases := by
    have hholds : c.stage.holds = true := by rw [hstage]; rfl
    refine Or.inr (Or.inl ⟨hholds, ?_⟩)
    cases hpath : c.workspacePath with
    | none =>
      rw [hpath] at hstep
      dsimp only at hstep
      refine ⟨hstep ▸ hreports, Or.inl ⟨.returned receipt, fun id => ?_⟩⟩
      rw [releaseWorkspace_of_none hpath, ← hstep]
      refine ⟨?_, (hv id).2⟩
      rw [cycle?_settle, cycle?_settle, (hv id).1]
    | some path =>
      rw [hpath] at hstep
      dsimp only at hstep
      refine ⟨hstep ▸ hreports, Or.inr ⟨receipt, rfl, fun id => ?_⟩⟩
      rw [← hstep]
      refine ⟨?_, (hv id).2⟩
      rw [cycle?_suspend, cycle?_suspend, (hv id).1]

theorem handles_abort {clock : Clock} {c : Cycle} {results : List HookResult} {reason message : String}
    (hholds : c.stage.holds = true) (hfails : ¬Fails c.stage (.hooksRan results)) :
    Handles clock c (.hooksRan results) w (abortCycle clock c reason message w) where
  caught _ h := nomatch h
  cases := by
    refine Or.inr (Or.inl ⟨hholds, Or.inl ⟨hfails, reason, ?_⟩, Or.inl ⟨.threw message, ?_⟩⟩)
    · rw [← releaseWorkspace_claims w c]
      rfl
    · exact fun id => ⟨rfl, rfl⟩

/-- A cycle's turn issues no id, and it handles what happens unless that is uncaught. -/
theorem resume_cases {clock : Clock} {c : Cycle} {wake : Wake}
    (hstep : resumeCycle clock c wake w = some w') :
    w'.owner.issued = w.owner.issued ∧
      ((∃ message, wake = .uncaught message ∧ w' = w.settle c (.threw message)) ∨
        Handles clock c wake w w') := by
  have hissued : ∀ c, (w.releaseWorkspace c).owner.issued = w.owner.issued := by
    intro c
    unfold World.releaseWorkspace
    split <;> rfl
  unfold resumeCycle at hstep
  split at hstep
  next results hstage =>
    have hholds : c.stage.holds = true := by rw [hstage]; rfl
    have hfails : ¬Fails c.stage (.hooksRan results) := by rw [hstage]; exact id
    rw [Option.some.injEq] at hstep
    rw [← hstep]
    split
    next => exact ⟨hissued c, Or.inr (handles_abort hholds hfails)⟩
    next =>
      exact ⟨rfl, Or.inr ⟨fun _ h => (by cases h), Or.inl ⟨hholds, hfails, _, rfl, rfl⟩⟩⟩
  next results hstage =>
    have hholds : c.stage.holds = true := by rw [hstage]; rfl
    have hfails : ¬Fails c.stage (.hooksRan results) := by rw [hstage]; exact id
    rw [Option.some.injEq] at hstep
    rw [← hstep]
    split
    next => exact ⟨hissued c, Or.inr (handles_abort hholds hfails)⟩
    next =>
      exact ⟨rfl, Or.inr ⟨fun _ h => (by cases h), Or.inl ⟨hholds, hfails, _, rfl, rfl⟩⟩⟩
  next receipt hstage =>
    have hholds : c.stage.holds = true := by rw [hstage]; rfl
    have hfails : ¬Fails c.stage (.execReturned receipt) := by rw [hstage]; exact id
    rw [Option.some.injEq] at hstep
    rw [← hstep]
    exact ⟨rfl, Or.inr ⟨fun _ h => (by cases h), Or.inl ⟨hholds, hfails, _, rfl, rfl⟩⟩⟩
  next message hstage =>
    -- the failure is reported before the workspace is released
    have hholds : c.stage.holds = true := by rw [hstage]; rfl
    have hfails : Fails c.stage (.execThrew message) := by rw [hstage]; trivial
    rw [Option.some.injEq] at hstep
    rw [← hstep]
    refine ⟨?_, Or.inr ⟨fun _ h => (by cases h), Or.inr (Or.inl ⟨hholds, Or.inr ⟨hfails,
      "execute_threw:" ++ message, ?_⟩, Or.inl ⟨.threw message, fun id => ?_⟩⟩)⟩⟩
    · unfold World.releaseWorkspace
      split <;> rfl
    · simp [World.settle, World.claimStep, World.reportFailure]
    · unfold World.releaseWorkspace
      cases c.workspacePath <;> exact ⟨rfl, rfl⟩
  next receipt results hstage =>
    rw [Option.some.injEq] at hstep
    by_cases hv : receipt.status = .verified
    · have hfails : ¬Fails c.stage (.hooksRan results) := by
        rw [hstage]
        intro hfailed
        rw [show receipt.status = .failed from hfailed] at hv
        cases hv
      rw [if_pos hv] at hstep
      refine ⟨?_, Or.inr (handles_afterRun hstage (v := w.releaseClaim clock c "cycle_succeeded")
        (fun id => SameFor.rfl) (Or.inl ⟨hfails, _, rfl⟩) hstep)⟩
      rw [← hstep]
      split <;> rfl
    · have hfails : Fails c.stage (.hooksRan results) := by
        rw [hstage]
        show receipt.status = .failed
        cases hs : receipt.status with
        | verified => exact absurd hs hv
        | failed => rfl
      rw [if_neg hv] at hstep
      refine ⟨?_, Or.inr (handles_afterRun hstage
        (v := w.reportFailure clock c ("cycle_failed:" ++ receipt.id))
        (fun id => SameFor.rfl) (Or.inr ⟨hfails, _, rfl⟩) hstep)⟩
      rw [← hstep]
      split <;> rfl
  next receipt results hstage =>
    rw [Option.some.injEq] at hstep
    rw [← hstep]
    have hholds : c.stage.holds = false := by rw [hstage]; rfl
    exact ⟨hissued c, Or.inr ⟨fun _ h => (by cases h), Or.inr (Or.inr ⟨hholds, _, rfl⟩)⟩⟩
  next message =>
    rw [Option.some.injEq] at hstep
    rw [← hstep]
    exact ⟨rfl, Or.inl ⟨message, rfl, rfl⟩⟩
  next => exact absurd hstep (by simp)

/-- A cycle's turn is nothing to the others. -/
theorem sameFor_resume {clock : Clock} {c : Cycle} {wake : Wake} (hid : id ≠ c.cycleId)
    (hstep : resumeCycle clock c wake w = some w') : SameFor id w w' := by
  have hleave : ∀ o, SameFor id w ((w.releaseWorkspace c).settle c o) :=
    fun o => (sameFor_releaseWorkspace hid).trans (sameFor_settle hid o)
  rcases (resume_cases hstep).2 with ⟨message, -, rfl⟩ | ⟨-, h⟩
  · exact sameFor_settle hid _
  · rcases h with ⟨-, -, stage, -, rfl⟩ | ⟨-, -, ⟨o, h⟩ | ⟨receipt, -, h⟩⟩ | ⟨-, o, rfl⟩
    · exact sameFor_suspend hid stage
    · exact (hleave o).trans (h id)
    · exact (sameFor_suspend hid _).trans (h id)
    · exact hleave o

/-! ## The other turns -/

/-- An injection takes the next id, and is nothing to the others. -/
theorem sameFor_inject (i : InjectInput) (goal : String) (hid : id ≠ env.uuid w.owner.issued) :
    SameFor id w (injectTask env i goal w) := by
  unfold injectTask
  dsimp only
  split
  next =>
    constructor
    · unfold World.cycle? World.claimStep
      dsimp only
      rw [List.find?_append]
      have hnone : List.find? (fun c : Cycle => decide (c.cycleId = id))
          [⟨env.uuid w.owner.issued, env.sha256 goal, goal, i.workspacePath, .afterCreate⟩] = none := by
        rw [List.find?_singleton, if_neg]
        simpa using Ne.symm hid
      rw [hnone, Option.or_none]
    · unfold World.claimStep
      dsimp only
      split
      next => rfl
      next => exact OrderedMap.get?_set_ne _ _ hid
  next => exact SameFor.rfl

theorem issued_inject (i : InjectInput) (goal : String) (w : World) :
    (injectTask env i goal w).owner.issued = w.owner.issued + 1 := by
  unfold injectTask
  dsimp only
  split <;> rfl

/-- A turn that is not the cycle's own is nothing to it. -/
theorem sameFor_step {rcfg : Reconciler.ReconcilerConfig} {qcfg : RetryConfig} {turn : Turn}
    {k : Nat} (hk : k < w.owner.issued)
    (hturn : ∀ clock wake, turn ≠ .resume clock (env.uuid k) wake)
    (hstep : (mesh env rcfg qcfg).step w turn = some w') :
    SameFor (env.uuid k) w w' ∧ w.owner.issued ≤ w'.owner.issued := by
  have hinject : ∀ (v : World) i goal, (SameFor (env.uuid k) w v ∧ w.owner.issued ≤ v.owner.issued) →
      SameFor (env.uuid k) w (injectTask env i goal v) ∧
        w.owner.issued ≤ (injectTask env i goal v).owner.issued := by
    intro v i goal hgiven
    obtain ⟨hsame, hle⟩ := hgiven
    have hid : env.uuid k ≠ env.uuid v.owner.issued := by
      intro heq
      have := env.uuid_injective heq
      omega
    refine ⟨hsame.trans (sameFor_inject i goal hid), ?_⟩
    rw [issued_inject]
    omega
  cases turn with
  | inject i goal =>
    rw [mesh, Option.some.injEq] at hstep
    exact hstep ▸ hinject w i goal ⟨SameFor.rfl, le_rfl⟩
  | resume clock cycleId wake =>
    obtain ⟨c, hc, hresume⟩ := Option.bind_eq_some_iff.mp hstep
    have hcid : c.cycleId = cycleId := cycle?_id hc
    have hid : env.uuid k ≠ c.cycleId := by
      intro heq
      exact hturn clock wake (by rw [heq, hcid])
    exact ⟨sameFor_resume hid hresume, (resume_cases hresume).1.ge⟩
  | retrySweep now clock inputs =>
    rw [mesh, Option.some.injEq] at hstep
    rw [← hstep]
    refine RetryQueue.sweep_invariant
      (I := fun v : World => SameFor (env.uuid k) w v ∧ w.owner.issued ≤ v.owner.issued)
      ?_ ?_ ?_ now clock ⟨SameFor.rfl, le_rfl⟩
    · exact fun v q hv => hv
    · exact fun v t h text hv => hv
    · exact fun v h goal hv => hinject v (inputs h) goal hv
  | reconcile now clock =>
    rw [mesh, Option.some.injEq] at hstep
    exact hstep ▸ ⟨SameFor.rfl, le_rfl⟩
  | updateRetryConfig patch =>
    rw [mesh, Option.some.injEq] at hstep
    exact hstep ▸ ⟨SameFor.rfl, le_rfl⟩

/-! ## Ids that have not been issued -/

/-- Nothing goes by an id that is still to come. -/
def Unused (env : Env) (w : World) : Prop :=
  ∀ n, w.owner.issued ≤ n →
    w.cycle? (env.uuid n) = none ∧ w.owner.workspaces.get? (env.uuid n) = none

theorem Unused.of_same (hw : Unused env w) (hle : w.owner.issued ≤ w'.owner.issued)
    (hsame : ∀ n, w'.owner.issued ≤ n → SameFor (env.uuid n) w w') : Unused env w' := by
  intro n hn
  obtain ⟨hcycle, hworkspace⟩ := hw n (hle.trans hn)
  exact ⟨(hsame n hn).1.trans hcycle, (hsame n hn).2.trans hworkspace⟩

theorem Unused.inject (hw : Unused env w) (i : InjectInput) (goal : String) :
    Unused env (injectTask env i goal w) := by
  have hissued : (injectTask env i goal w).owner.issued = w.owner.issued + 1 :=
    issued_inject i goal w
  refine hw.of_same (by omega) ?_
  intro n hn
  refine sameFor_inject i goal ?_
  intro heq
  have := env.uuid_injective heq
  omega

theorem step_unused {rcfg : Reconciler.ReconcilerConfig} {qcfg : RetryConfig} {turn : Turn}
    (hw : Unused env w) (hstep : (mesh env rcfg qcfg).step w turn = some w') : Unused env w' := by
  cases turn with
  | inject i goal =>
    rw [mesh, Option.some.injEq] at hstep
    exact hstep ▸ hw.inject i goal
  | resume clock cycleId wake =>
    obtain ⟨c, hc, hresume⟩ := Option.bind_eq_some_iff.mp hstep
    have hcid : c.cycleId = cycleId := cycle?_id hc
    have hissued := (resume_cases hresume).1
    refine hw.of_same hissued.ge ?_
    intro n hn
    refine sameFor_resume ?_ hresume
    -- the cycle is active, so its id has been issued
    intro hid
    have hnone := (hw n (hissued ▸ hn)).1
    rw [hid, hcid, hc] at hnone
    cases hnone
  | retrySweep now clock inputs =>
    rw [mesh, Option.some.injEq] at hstep
    rw [← hstep]
    refine RetryQueue.sweep_invariant (I := Unused env) ?_ ?_ ?_ now clock hw
    · exact fun v q hv => hv
    · exact fun v t h text hv => hv
    · exact fun v h goal hv => hv.inject (inputs h) goal
  | reconcile now clock =>
    rw [mesh, Option.some.injEq] at hstep
    exact hstep ▸ hw
  | updateRetryConfig patch =>
    rw [mesh, Option.some.injEq] at hstep
    exact hstep ▸ hw

/-! ## The claim -/

/-- An attempt is left to the task under `maxAttempts`. -/
def AttemptLeft (c : Cycle) (w : World) : Prop :=
  ∃ r, w.claims.get c.taskHash = some r ∧
    w.queue.cfg.maxAttempts.lt (.ofNat (r.attempt + 1)) = false

theorem release_running {m : TaskClaimMachine} {h : String} {r : ClaimRecord}
    (hr : m.get h = some r) (hst : r.state = .running) (now : Int) (reason : String) :
    ∃ r', (m.release now h reason).1.get h = some r' ∧ r'.state = .released := by
  rcases transition_cases m now h .released none (some reason) with ⟨-, hno⟩ | ⟨r', -, -, heq⟩
  · exact absurd (released_mem_legal.mpr (by rw [hst]; decide)) (hno r hr)
  · rw [TaskClaimMachine.release, heq]
    exact ⟨_, (get_move ..).trans (if_pos rfl), rfl⟩

/-- The report of a Running record releases it, or re-queues it if an attempt is left. -/
theorem reports_running {clock : Clock} {c : Cycle} {wake : Wake} {m : TaskClaimMachine}
    {r : ClaimRecord} (hr : w.claims.get c.taskHash = some r) (hst : r.state = .running)
    (h : Reports clock c wake w m) :
    ∃ r', m.get c.taskHash = some r' ∧ (r'.state = .released ∨ r'.state = .retryQueued) ∧
      (r'.state = .retryQueued ↔ Fails c.stage wake ∧ AttemptLeft c w) := by
  rcases h with ⟨hfails, reason, rfl⟩ | ⟨hfails, reason, rfl⟩
  · obtain ⟨r', hr', hst'⟩ := release_running hr hst (clock 0) reason
    refine ⟨r', hr', Or.inl hst', iff_of_false ?_ fun h => hfails h.1⟩
    rw [hst']
    exact ClaimState.noConfusion
  · rcases RetryQueue.enqueueFailure_results w.queue w.claims clock c.taskHash c.goal reason with
      ⟨hnone, -⟩ | ⟨r₁, hr₁, hcases⟩
    · rw [hr] at hnone
      exact nomatch hnone
    · have hsame : r₁ = r := Option.some.inj (hr₁.symm.trans hr)
      have hleft : AttemptLeft c w ↔ w.queue.cfg.maxAttempts.lt (.ofNat (r₁.attempt + 1)) = false := by
        constructor
        · intro hgiven
          obtain ⟨r₂, hr₂, hlt⟩ := hgiven
          rw [hr₁, Option.some.injEq] at hr₂
          exact hr₂ ▸ hlt
        · exact fun hlt => ⟨r₁, hr₁, hlt⟩
      rcases hcases with ⟨hlt, heq⟩ | ⟨-, hnot, -⟩ | ⟨hlt, -, heq⟩
      · -- the attempts are exhausted
        rw [heq]
        obtain ⟨r', hr', hst'⟩ := release_running hr hst (clock 0) ("retry_exhausted:" ++ reason)
        refine ⟨r', hr', Or.inl hst', iff_of_false ?_ ?_⟩
        · rw [hst']
          exact ClaimState.noConfusion
        · intro hgiven
          obtain ⟨-, hattempt⟩ := hgiven
          rw [hleft.mp hattempt] at hlt
          exact Bool.noConfusion hlt
      · exact absurd (hsame ▸ hst) hnot
      · rw [heq]
        dsimp only
        rcases markRetryQueued_cases w.claims clock c.taskHash
          (RetryQueue.backoff w.queue.cfg r₁.attempt)
          (some ("attempt_" ++ toString r₁.attempt ++ "_failed:" ++ reason)) with
          ⟨-, hno⟩ | ⟨r₂, -, -, hmark⟩
        · exact absurd hst (hno r hr)
        · rw [hmark]
          exact ⟨_, OrderedMap.get?_set_self _ _ _, Or.inr rfl,
            iff_of_true rfl ⟨hfails, hleft.mpr hlt⟩⟩

/-! ## The phases of a cycle -/

/-- How a cycle stands: where it waits, the state of its task, its workspace. -/
structure Phase (c : Cycle) (now : Option Cycle) (st : ClaimState) (path : Option String)
    (w : World) : Prop where
  cycle : w.cycle? c.cycleId = now
  claim : ∃ r, w.claims.get c.taskHash = some r ∧ r.state = st
  workspace : w.owner.workspaces.get? c.cycleId = path

/-- The turn is one of the cycle's own. -/
def OwnTurn (c : Cycle) (turn : Turn) : Prop := ∃ clock wake, turn = .resume clock c.cycleId wake

/-- The turn tells the cycle that its execution failed or threw, with an attempt left. -/
def FailsWithAttemptLeft (c : Cycle) (w : World) : Turn → Prop
  | .resume _ cycleId wake =>
    cycleId = c.cycleId ∧ (∃ d, w.cycle? cycleId = some d ∧ Fails d.stage wake) ∧ AttemptLeft c w
  | _ => False

/-- A turn of somebody else leaves the record of the cycle's task alone. -/
def Undisturbed (env : Env) (rcfg : Reconciler.ReconcilerConfig) (qcfg : RetryConfig) (c : Cycle)
    (w : World) (turn : Turn) : Prop :=
  OwnTurn c turn ∨ ∀ w', (mesh env rcfg qcfg).step w turn = some w' →
    w'.claims.get c.taskHash = w.claims.get c.taskHash

section Runs

variable {rcfg : Reconciler.ReconcilerConfig} {qcfg : RetryConfig} {c : Cycle} {k : Nat}

/-- The cycle's id is one that has been issued. -/
def Known (env : Env) (c : Cycle) (k : Nat) (w : World) : Prop :=
  c.cycleId = env.uuid k ∧ k < w.owner.issued

theorem step_known {turn : Turn} (hk : Known env c k w)
    (hstep : (mesh env rcfg qcfg).step w turn = some w') : Known env c k w' := by
  by_cases hturn : OwnTurn c turn
  · obtain ⟨clock, wake, rfl⟩ := hturn
    obtain ⟨d, -, hresume⟩ := Option.bind_eq_some_iff.mp hstep
    exact ⟨hk.1, (resume_cases hresume).1 ▸ hk.2⟩
  · have hother : ∀ clock wake, turn ≠ .resume clock (env.uuid k) wake :=
      fun clock wake heq => hturn ⟨clock, wake, by rw [heq, hk.1]⟩
    exact ⟨hk.1, lt_of_lt_of_le hk.2 (sameFor_step hk.2 hother hstep).2⟩

/-- The others leave a cycle as it stands. -/
theorem Phase.other {now : Option Cycle} {st : ClaimState} {path : Option String} {turn : Turn}
    (h : Phase c now st path w) (hk : Known env c k w) (hturn : ¬OwnTurn c turn)
    (halone : Undisturbed env rcfg qcfg c w turn)
    (hstep : (mesh env rcfg qcfg).step w turn = some w') : Phase c now st path w' := by
  have hother : ∀ clock wake, turn ≠ .resume clock (env.uuid k) wake :=
    fun clock wake heq => hturn ⟨clock, wake, by rw [heq, hk.1]⟩
  obtain ⟨hsame, -⟩ := sameFor_step hk.2 hother hstep
  rw [← hk.1] at hsame
  refine ⟨hsame.1.trans h.cycle, ?_, hsame.2.trans h.workspace⟩
  rw [halone.resolve_left hturn w' hstep]
  exact h.claim

theorem not_fails_of_other {turn : Turn} (hturn : ¬OwnTurn c turn) :
    ¬FailsWithAttemptLeft c w turn := by
  intro h
  cases turn with
  | resume clock cycleId wake => exact hturn ⟨clock, wake, by rw [h.1]⟩
  | inject i goal => exact h
  | retrySweep now clock inputs => exact h
  | reconcile now clock => exact h
  | updateRetryConfig patch => exact h

/-- A cycle that leaves takes its workspace with it. -/
theorem Phase.leave {d : Cycle} {st : ClaimState} (hd : d.cycleId = c.cycleId)
    (hpath : d.workspacePath = c.workspacePath)
    (hworkspace : w.owner.workspaces.get? c.cycleId = c.workspacePath) {o : Outcome}
    (hsame : SameFor c.cycleId ((w.releaseWorkspace d).settle d o) w')
    (hclaim : ∃ r, w'.claims.get c.taskHash = some r ∧ r.state = st) : Phase c none st none w' where
  cycle := by rw [hsame.1, cycle?_settle, if_pos hd.symm]
  claim := hclaim
  workspace := by
    rw [hsame.2]
    show (w.releaseWorkspace d).owner.workspaces.get? c.cycleId = none
    unfold World.releaseWorkspace
    rw [hpath]
    cases hc : c.workspacePath with
    | none => exact hworkspace.trans hc
    | some path =>
      dsimp only
      rw [hd]
      exact OrderedMap.get?_delete_self _ _

/-- What a turn of a cycle that holds its claim does. -/
theorem Phase.holding {stage : Stage} {clock : Clock} {wake : Wake} (hholds : stage.holds = true)
    (h : Phase c (some { c with stage := stage }) .running c.workspacePath w)
    (hstep : (mesh env rcfg qcfg).step w (.resume clock c.cycleId wake) = some w') :
    ((∃ message, wake = .uncaught message) ∧ Phase c none .running c.workspacePath w') ∨
    ((∀ message, wake ≠ .uncaught message) ∧
      ((¬FailsWithAttemptLeft c w (.resume clock c.cycleId wake) ∧
          ∃ stage, stage.holds = true ∧
            Phase c (some { c with stage := stage }) .running c.workspacePath w') ∨
        ∃ st, (st = .released ∨ st = .retryQueued) ∧
          (st = .retryQueued ↔ FailsWithAttemptLeft c w (.resume clock c.cycleId wake)) ∧
          (Phase c none st none w' ∨
            ∃ receipt, c.workspacePath.isSome = true ∧
              Phase c (some { c with stage := .beforeRemove receipt }) st c.workspacePath w'))) := by
  obtain ⟨d, hd, hresume⟩ := Option.bind_eq_some_iff.mp hstep
  rw [h.cycle, Option.some.injEq] at hd
  subst hd
  have hfails : FailsWithAttemptLeft c w (.resume clock c.cycleId wake) ↔
      Fails stage wake ∧ AttemptLeft c w := by
    constructor
    · intro hgiven
      obtain ⟨-, ⟨d, hd, hfails⟩, hleft⟩ := hgiven
      rw [h.cycle, Option.some.injEq] at hd
      subst hd
      exact ⟨hfails, hleft⟩
    · intro hgiven
      obtain ⟨hfails, hleft⟩ := hgiven
      exact ⟨rfl, ⟨_, h.cycle, hfails⟩, hleft⟩
  rcases (resume_cases hresume).2 with ⟨message, hwake, rfl⟩ | ⟨hcaught, hcases⟩
  · exact Or.inl ⟨⟨message, hwake⟩, (cycle?_settle ..).trans (if_pos rfl), h.claim, h.workspace⟩
  · refine Or.inr ⟨hcaught, ?_⟩
    rcases hcases with ⟨-, hnot, stage', hholds', rfl⟩ | ⟨-, hreports, hnext⟩ | ⟨hdone, -⟩
    · refine Or.inl ⟨fun hf => hnot (hfails.mp hf).1, stage', hholds', ?_, h.claim, h.workspace⟩
      rw [cycle?_suspend, if_pos rfl, h.cycle, Option.map_some]
    · obtain ⟨r, hr, hst⟩ := h.claim
      obtain ⟨r', hr', hended, hretry⟩ := reports_running (c := { c with stage := stage }) hr hst hreports
      refine Or.inr ⟨r'.state, hended, hretry.trans hfails.symm, ?_⟩
      rcases hnext with ⟨o, hsame⟩ | ⟨receipt, hpath, hsame⟩
      · exact Or.inl (Phase.leave rfl rfl h.workspace (hsame c.cycleId) ⟨r', hr', rfl⟩)
      · refine Or.inr ⟨receipt, hpath, ?_, ⟨r', hr', rfl⟩, (hsame c.cycleId).2.trans h.workspace⟩
        rw [(hsame c.cycleId).1, cycle?_suspend, if_pos rfl, h.cycle, Option.map_some]
    · rw [show ({ c with stage := stage } : Cycle).stage.holds = true from hholds] at hdone
      exact Bool.noConfusion hdone

/-- What a turn of a cycle in the hooks of its workspace does. -/
theorem Phase.removing {receipt : Receipt} {st : ClaimState} {clock : Clock} {wake : Wake}
    (h : Phase c (some { c with stage := .beforeRemove receipt }) st c.workspacePath w)
    (hstep : (mesh env rcfg qcfg).step w (.resume clock c.cycleId wake) = some w') :
    ¬FailsWithAttemptLeft c w (.resume clock c.cycleId wake) ∧
      (((∃ message, wake = .uncaught message) ∧ Phase c none st c.workspacePath w') ∨
        ((∀ message, wake ≠ .uncaught message) ∧ Phase c none st none w')) := by
  obtain ⟨d, hd, hresume⟩ := Option.bind_eq_some_iff.mp hstep
  rw [h.cycle, Option.some.injEq] at hd
  subst hd
  constructor
  · intro hgiven
    obtain ⟨-, ⟨d, hd, hfails⟩, -⟩ := hgiven
    rw [h.cycle, Option.some.injEq] at hd
    subst hd
    exact hfails
  · rcases (resume_cases hresume).2 with ⟨message, hwake, rfl⟩ | ⟨hcaught, hcases⟩
    · exact Or.inl ⟨⟨message, hwake⟩, (cycle?_settle ..).trans (if_pos rfl), h.claim, h.workspace⟩
    · refine Or.inr ⟨hcaught, ?_⟩
      rcases hcases with ⟨hholds, -⟩ | ⟨hholds, -⟩ | ⟨-, o, rfl⟩
      · exact nomatch hholds
      · exact nomatch hholds
      · refine Phase.leave rfl rfl h.workspace (o := o) SameFor.rfl ?_
        obtain ⟨r, hr, hst⟩ := h.claim
        refine ⟨r, ?_, hst⟩
        rw [← hr, ← releaseWorkspace_claims w { c with stage := .beforeRemove receipt }]
        rfl

/-! ## Runs of a cycle -/

/-- Nothing that the cycle waits for throws past its handlers. -/
def Caught (c : Cycle) (turns : List Turn) : Prop :=
  ∀ clock message, Turn.resume clock c.cycleId (.uncaught message) ∉ turns

theorem caught_cons_of_other {turn : Turn} {turns : List Turn} (hturn : ¬OwnTurn c turn) :
    Caught c (turn :: turns) ↔ Caught c turns := by
  constructor
  · intro h clock message hmem
    exact h clock message (List.mem_cons_of_mem _ hmem)
  · intro h clock message hmem
    rcases List.mem_cons.mp hmem with heq | hmem
    · exact hturn ⟨clock, _, heq.symm⟩
    · exact h clock message hmem

theorem caught_cons_resume {clock : Clock} {wake : Wake} {turns : List Turn} :
    Caught c (.resume clock c.cycleId wake :: turns) ↔
      (∀ message, wake ≠ .uncaught message) ∧ Caught c turns := by
  constructor
  · intro h
    refine ⟨?_, fun clock' message hmem => h clock' message (List.mem_cons_of_mem _ hmem)⟩
    intro message heq
    obtain rfl := heq
    exact h clock message (List.mem_cons_self ..)
  · intro hgiven
    obtain ⟨hwake, h⟩ := hgiven
    intro clock' message hmem
    rcases List.mem_cons.mp hmem with heq | hmem
    · injection heq with _ _ heq
      exact hwake message heq.symm
    · exact h clock' message hmem

/-- A cycle that is gone stays as it is. -/
theorem run_gone {st : ClaimState} {path : Option String} :
    ∀ (turns : List Turn) {w : World}, Known env c k w → Phase c none st path w →
      (mesh env rcfg qcfg).exec w turns = some w' →
      (mesh env rcfg qcfg).Along (Undisturbed env rcfg qcfg c) w turns →
      Phase c none st path w' ∧ Caught c turns ∧
        ¬(mesh env rcfg qcfg).Sometime (FailsWithAttemptLeft c) w turns
  | [], w, _, h, hrun, _ => by
    rw [Lts.exec_nil, Option.some.injEq] at hrun
    exact ⟨hrun ▸ h, fun _ _ hmem => absurd hmem List.not_mem_nil, id⟩
  | turn :: turns, w, hk, h, hrun, halone => by
    obtain ⟨v, hv, hrest⟩ := Lts.exec_cons.mp hrun
    obtain ⟨hfirst, hlater⟩ := (Lts.along_cons hv).mp halone
    have hturn : ¬OwnTurn c turn := by
      intro hgiven
      obtain ⟨clock, wake, rfl⟩ := hgiven
      obtain ⟨d, hd, -⟩ := Option.bind_eq_some_iff.mp hv
      rw [h.cycle] at hd
      exact nomatch hd
    obtain ⟨hphase, hcaught, hnever⟩ :=
      run_gone turns (step_known hk hv) (h.other hk hturn hfirst hv) hrest hlater
    refine ⟨hphase, (caught_cons_of_other hturn).mpr hcaught, ?_⟩
    rw [Lts.sometime_cons hv]
    exact not_or.mpr ⟨not_fails_of_other hturn, hnever⟩

/-- A cycle that has reported gives its workspace back, if its hooks do not throw past the
handlers. -/
theorem run_removing {receipt : Receipt} {st : ClaimState} (hpath : c.workspacePath.isSome = true) :
    ∀ (turns : List Turn) {w : World}, Known env c k w →
      Phase c (some { c with stage := .beforeRemove receipt }) st c.workspacePath w →
      (mesh env rcfg qcfg).exec w turns = some w' →
      (mesh env rcfg qcfg).Along (Undisturbed env rcfg qcfg c) w turns →
      w'.cycle? c.cycleId = none →
      ∃ path, Phase c none st path w' ∧ (path = none ↔ Caught c turns) ∧
        ¬(mesh env rcfg qcfg).Sometime (FailsWithAttemptLeft c) w turns
  | [], w, _, h, hrun, _, hdone => by
    rw [Lts.exec_nil, Option.some.injEq] at hrun
    rw [← hrun, h.cycle] at hdone
    exact nomatch hdone
  | turn :: turns, w, hk, h, hrun, halone, hdone => by
    obtain ⟨v, hv, hrest⟩ := Lts.exec_cons.mp hrun
    obtain ⟨hfirst, hlater⟩ := (Lts.along_cons hv).mp halone
    rw [Lts.sometime_cons hv]
    by_cases hturn : OwnTurn c turn
    · obtain ⟨clock, wake, rfl⟩ := hturn
      rw [caught_cons_resume]
      obtain ⟨hnot, ⟨⟨message, rfl⟩, hgone⟩ | ⟨hwake, hgone⟩⟩ := h.removing hv
      · obtain ⟨hphase, -, hnever⟩ := run_gone turns (step_known hk hv) hgone hrest hlater
        refine ⟨_, hphase, iff_of_false ?_ fun hcaught => hcaught.1 message rfl,
          not_or.mpr ⟨hnot, hnever⟩⟩
        intro hnone
        rw [hnone] at hpath
        exact nomatch hpath
      · obtain ⟨hphase, hcaught, hnever⟩ := run_gone turns (step_known hk hv) hgone hrest hlater
        exact ⟨_, hphase, iff_of_true rfl ⟨hwake, hcaught⟩, not_or.mpr ⟨hnot, hnever⟩⟩
    · obtain ⟨path, hphase, hiff, hnever⟩ :=
        run_removing hpath turns (step_known hk hv) (h.other hk hturn hfirst hv) hrest hlater hdone
      exact ⟨path, hphase, hiff.trans (caught_cons_of_other hturn).symm,
        not_or.mpr ⟨not_fails_of_other hturn, hnever⟩⟩

/-- A cycle that holds its claim ends with its task Released or RetryQueued and without a
workspace, if nothing throws past the handlers, and only then. -/
theorem run_holding :
    ∀ (turns : List Turn) {w : World} {stage : Stage}, stage.holds = true → Known env c k w →
      Phase c (some { c with stage := stage }) .running c.workspacePath w →
      (mesh env rcfg qcfg).exec w turns = some w' →
      (mesh env rcfg qcfg).Along (Undisturbed env rcfg qcfg c) w turns →
      w'.cycle? c.cycleId = none →
      ∃ st path, Phase c none st path w' ∧ (st ≠ .running ∧ path = none ↔ Caught c turns) ∧
        (st ≠ .running → (st = .released ∨ st = .retryQueued) ∧
          (st = .retryQueued ↔ (mesh env rcfg qcfg).Sometime (FailsWithAttemptLeft c) w turns))
  | [], w, stage, _, _, h, hrun, _, hdone => by
    rw [Lts.exec_nil, Option.some.injEq] at hrun
    rw [← hrun, h.cycle] at hdone
    exact nomatch hdone
  | turn :: turns, w, stage, hholds, hk, h, hrun, halone, hdone => by
    obtain ⟨v, hv, hrest⟩ := Lts.exec_cons.mp hrun
    obtain ⟨hfirst, hlater⟩ := (Lts.along_cons hv).mp halone
    rw [Lts.sometime_cons hv]
    have hknown : Known env c k v := step_known hk hv
    by_cases hturn : OwnTurn c turn
    · obtain ⟨clock, wake, rfl⟩ := hturn
      rw [caught_cons_resume]
      rcases h.holding hholds hv with ⟨⟨message, rfl⟩, hgone⟩ | ⟨hwake, hnext⟩
      · obtain ⟨hphase, -, -⟩ := run_gone turns hknown hgone hrest hlater
        exact ⟨_, _, hphase, iff_of_false (fun hst => hst.1 rfl) fun hcaught => hcaught.1 message rfl,
          fun hst => absurd rfl hst⟩
      · rcases hnext with ⟨hnot, stage', hholds', h'⟩ | ⟨st, hended, hretry, hnext⟩
        · obtain ⟨st, path, hphase, hiff, hrest⟩ :=
            run_holding turns hholds' hknown h' hrest hlater hdone
          refine ⟨st, path, hphase, ?_, ?_⟩
          · rw [hiff, and_iff_right hwake]
          · rw [or_iff_right hnot]
            exact hrest
        · have hnotRunning : st ≠ .running := by
            rcases hended with rfl | rfl <;> exact ClaimState.noConfusion
          rcases hnext with hgone | ⟨receipt, hpath, hremoving⟩
          · obtain ⟨hphase, hcaught, hnever⟩ := run_gone turns hknown hgone hrest hlater
            refine ⟨st, none, hphase, iff_of_true ⟨hnotRunning, rfl⟩ ⟨hwake, hcaught⟩, fun _ => ?_⟩
            exact ⟨hended, by rw [or_iff_left hnever, hretry]⟩
          · obtain ⟨path, hphase, hiff, hnever⟩ :=
              run_removing hpath turns hknown hremoving hrest hlater hdone
            refine ⟨st, path, hphase, ?_, fun _ => ?_⟩
            · rw [and_iff_right hnotRunning, and_iff_right hwake, hiff]
            · exact ⟨hended, by rw [or_iff_left hnever, hretry]⟩
    · obtain ⟨st, path, hphase, hiff, hrest⟩ :=
        run_holding turns hholds hknown (h.other hk hturn hfirst hv) hrest hlater hdone
      refine ⟨st, path, hphase, hiff.trans (caught_cons_of_other hturn).symm, ?_⟩
      rw [or_iff_right (not_fails_of_other hturn)]
      exact hrest

end Runs

/-! ## Injections -/

/-- An injection that gets the claim holds it. -/
theorem injectTask_holding (hw : Unused env w) (i : InjectInput) (goal : String) {c : Cycle}
    (hc : (injectTask env i goal w).cycle? (env.uuid w.owner.issued) = some c) :
    c.stage = .afterCreate ∧ Known env c w.owner.issued (injectTask env i goal w) ∧
      Phase c (some { c with stage := .afterCreate }) .running c.workspacePath
        (injectTask env i goal w) := by
  let taskHash := env.sha256 goal
  let cycleId := env.uuid w.owner.issued
  let m₁ := w.claims.register i.registerNow taskHash (some ("inject:" ++ env.preview goal))
  have hne : cycleId ≠ "" := env.uuid_ne_empty _
  have hissued : (injectTask env i goal w).owner.issued = w.owner.issued + 1 :=
    issued_inject i goal w
  obtain ⟨hnone, hnoWorkspace⟩ := hw w.owner.issued le_rfl
  by_cases hok : (m₁.tryClaim i.claimClock taskHash cycleId (some "orchestrator_inject")).2 = true
  · obtain ⟨-, ⟨r, hr, hst, -⟩, -⟩ := tryClaim_succeeds hne hok
    obtain ⟨r', hr', hst', -⟩ := markRunning_of_claimed i.runningNow hne hr hst
    have hcycle : (injectTask env i goal w).cycle? cycleId
        = some ⟨cycleId, taskHash, goal, i.workspacePath, .afterCreate⟩ := by
      unfold injectTask
      dsimp only
      rw [if_pos hok]
      unfold World.cycle? World.claimStep
      dsimp only
      rw [List.find?_append]
      unfold World.cycle? at hnone
      rw [hnone, Option.none_or, List.find?_singleton, if_pos (decide_eq_true rfl)]
    rw [hcycle, Option.some.injEq] at hc
    subst hc
    refine ⟨rfl, ⟨rfl, by omega⟩, hcycle, ⟨r', ?_, hst'⟩, ?_⟩
    · unfold injectTask
      dsimp only
      rw [if_pos hok]
      exact hr'
    · unfold injectTask
      dsimp only
      rw [if_pos hok]
      unfold World.claimStep
      dsimp only
      split
      next hpath => exact hnoWorkspace.trans hpath.symm
      next hpath => exact (OrderedMap.get?_set_self _ _ _).trans hpath.symm
  · have hactive : (injectTask env i goal w).cycle? cycleId = w.cycle? cycleId := by
      unfold injectTask
      dsimp only
      rw [if_neg hok]
      rfl
    rw [hactive, hnone] at hc
    exact nomatch hc

theorem init_unused (qcfg : RetryConfig) : Unused env (World.init qcfg) :=
  fun _ _ => ⟨rfl, rfl⟩

/-- What is left of a cycle that has ended: its task is Released, or RetryQueued exactly if
`retry`, and its workspace is not active. -/
structure LeavesNothing (c : Cycle) (retry : Prop) (w : World) : Prop where
  claim : ∃ r, w.claims.get c.taskHash = some r ∧
    (r.state = .released ∨ r.state = .retryQueued) ∧ (r.state = .retryQueued ↔ retry)
  workspace : w.owner.workspaces.get? c.cycleId = none

/-- An injection that got the claim and has ended, while nobody else touched its task, leaves
nothing behind exactly if nothing that it waited for threw past its handlers: the task is
Released, or RetryQueued if its execution failed or threw with an attempt left. -/
theorem claim_left_iff (env : Env) (rcfg : Reconciler.ReconcilerConfig) (qcfg : RetryConfig)
    {w₀ w : World} (hreach : (mesh env rcfg qcfg).Reachable w₀) (i : InjectInput) (goal : String)
    {c : Cycle} (hclaimed : (injectTask env i goal w₀).cycle? (env.uuid w₀.owner.issued) = some c)
    {turns : List Turn} (hrun : (mesh env rcfg qcfg).exec (injectTask env i goal w₀) turns = some w)
    (halone : (mesh env rcfg qcfg).Along (Undisturbed env rcfg qcfg c) (injectTask env i goal w₀)
      turns)
    (hended : w.cycle? c.cycleId = none) :
    LeavesNothing c ((mesh env rcfg qcfg).Sometime (FailsWithAttemptLeft c)
        (injectTask env i goal w₀) turns) w ↔ Caught c turns := by
  have hunused : Unused env w₀ :=
    Lts.reachable_invariant (init_unused qcfg) (fun _ _ _ hw hst => step_unused hw hst) hreach
  obtain ⟨-, hknown, hphase⟩ := injectTask_holding hunused i goal hclaimed
  have hholds : Stage.afterCreate.holds = true := rfl
  obtain ⟨st, path, hgone, hiff, hend⟩ :=
    run_holding turns hholds hknown hphase hrun halone hended
  rw [← hiff]
  obtain ⟨r, hr, hst⟩ := hgone.claim
  constructor
  · intro hgiven
    obtain ⟨⟨r', hr', hstate, -⟩, hworkspace⟩ := hgiven
    have hsame : r' = r := Option.some.inj (hr'.symm.trans hr)
    rw [hsame, hst] at hstate
    refine ⟨?_, hgone.workspace.symm.trans hworkspace⟩
    rcases hstate with h | h
    · rw [h]
      exact ClaimState.noConfusion
    · rw [h]
      exact ClaimState.noConfusion
  · intro hgiven
    obtain ⟨hnot, hpath⟩ := hgiven
    obtain ⟨hstate, hretry⟩ := hend hnot
    exact ⟨⟨r, hr, hst ▸ hstate, hst ▸ hretry⟩, hgone.workspace.trans hpath⟩

/-- The readings of an injection with a workspace. -/
def workspaceInput : InjectInput := ⟨0, fun _ => 0, 0, some "/kovael/.kovael/workspaces/ws"⟩

/-- The cycle that an injection of the goal starts at boot. -/
def sampleCycle : Cycle where
  cycleId := sampleEnv.uuid 0
  taskHash := sampleEnv.sha256 "ship it"
  goal := "ship it"
  workspacePath := workspaceInput.workspacePath
  stage := .afterCreate

/-- The state after the injection and the turns that follow. -/
def afterInjection (turns : List Turn) : Option World :=
  (mesh sampleEnv Reconciler.defaultConfig defaultRetryConfig).exec
    (injectTask sampleEnv workspaceInput "ship it" (World.init defaultRetryConfig)) turns

/-- The execution fails at the first attempt. -/
def failedAttempt : List Turn :=
  [.resume (fun _ => 0) (sampleEnv.uuid 0) (.hooksRan []),
   .resume (fun _ => 0) (sampleEnv.uuid 0) (.hooksRan []),
   .resume (fun _ => 0) (sampleEnv.uuid 0) (.execReturned ⟨"receipt-1", .failed⟩),
   .resume (fun _ => 0) (sampleEnv.uuid 0) (.hooksRan []),
   .resume (fun _ => 0) (sampleEnv.uuid 0) (.hooksRan [])]

/-- Only the cycle's own turns. -/
theorem undisturbed_of_own {env : Env} {rcfg : Reconciler.ReconcilerConfig} {qcfg : RetryConfig}
    {c : Cycle} {turns : List Turn} (h : ∀ turn ∈ turns, OwnTurn c turn) (w : World) :
    (mesh env rcfg qcfg).Along (Undisturbed env rcfg qcfg c) w turns :=
  Lts.along_of_forall (fun turn hturn _ => Or.inl (h turn hturn)) w

theorem failed_attempt_leaves_nothing :
    ∃ w, afterInjection failedAttempt = some w ∧
      LeavesNothing sampleCycle
        ((mesh sampleEnv Reconciler.defaultConfig defaultRetryConfig).Sometime
          (FailsWithAttemptLeft sampleCycle)
          (injectTask sampleEnv workspaceInput "ship it" (World.init defaultRetryConfig))
          failedAttempt) w := by
  have hend : (afterInjection failedAttempt).map (fun w => w.cycle? (sampleEnv.uuid 0))
      = some none := by
    decide
  obtain ⟨w, hw, hended⟩ := Option.map_eq_some_iff.mp hend
  have hown : ∀ turn ∈ failedAttempt, OwnTurn sampleCycle turn := by
    intro turn hturn
    simp only [failedAttempt, List.mem_cons, List.not_mem_nil, or_false] at hturn
    rcases hturn with rfl | rfl | rfl | rfl | rfl <;> exact ⟨_, _, rfl⟩
  refine ⟨w, hw, (claim_left_iff sampleEnv Reconciler.defaultConfig defaultRetryConfig ⟨[], rfl⟩
    workspaceInput "ship it" (c := sampleCycle) (by decide) hw (undisturbed_of_own hown _)
    hended).mpr ?_⟩
  intro clock message hmem
  simp [failedAttempt] at hmem

/-- A hook that rejects with `undefined` leaves the claim Running and the workspace active. -/
theorem undefined_rejection_leaves_claim :
    ∃ w, afterInjection [.resume (fun _ => 0) (sampleEnv.uuid 0)
        (.uncaught "Cannot read properties of undefined (reading 'message')")] = some w ∧
      w.cycle? sampleCycle.cycleId = none ∧
      w.owner.settled = [(sampleCycle.cycleId,
        .threw "Cannot read properties of undefined (reading 'message')")] ∧
      w.owner.workspaces.get? sampleCycle.cycleId = sampleCycle.workspacePath ∧
      (w.claims.get sampleCycle.taskHash).map ClaimRecord.state = some .running ∧
      ∀ retry, ¬LeavesNothing sampleCycle retry w := by
  have hend : (afterInjection [.resume (fun _ => 0) (sampleEnv.uuid 0)
      (.uncaught "Cannot read properties of undefined (reading 'message')")]).map (fun w =>
        (w.cycle? sampleCycle.cycleId, w.owner.settled,
          w.owner.workspaces.get? sampleCycle.cycleId,
          (w.claims.get sampleCycle.taskHash).map ClaimRecord.state))
      = some (none, [(sampleCycle.cycleId,
          .threw "Cannot read properties of undefined (reading 'message')")],
        sampleCycle.workspacePath, some .running) := by
    decide
  obtain ⟨w, hw, heq⟩ := Option.map_eq_some_iff.mp hend
  obtain ⟨hcycle, heq⟩ := Prod.mk.inj heq
  obtain ⟨hsettled, heq⟩ := Prod.mk.inj heq
  obtain ⟨hworkspace, hstate⟩ := Prod.mk.inj heq
  refine ⟨w, hw, hcycle, hsettled, hworkspace, hstate, ?_⟩
  intro retry hgiven
  obtain ⟨⟨r, hr, hended, -⟩, -⟩ := hgiven
  rw [hr, Option.map_some, Option.some.injEq] at hstate
  rw [hstate] at hended
  rcases hended with h | h <;> exact nomatch h

end Kovael.Mesh
