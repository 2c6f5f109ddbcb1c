import Kovael.Mesh.Ownership

/-!
# One cycle per task, and whose claim a cycle may change

The two guarantees of the claim ledger towards `injectTask`, along every run
whose reconciler sweeps spare held tasks: at most one cycle holds a task
(`one_cycle_per_task`), and a cycle's steps on the ledger only ever change the
record of its own claim (`cycles_change_own_claim`).

Both say in their second half that the condition cannot be dropped at any
point of a run: after a sweep that prunes the record of a held task, injecting
the same goal starts a second cycle beside the first, and the first cycle's
next report then changes the second cycle's claim. `lateReinjection` is such a
run under the default configurations: a cycle sits in `execute` for a minute
and is released by the stall detector, and five more minutes later its record
is pruned.
-/

namespace Kovael.Mesh

open Js (Number OrderedMap Clock)
open Kovael.Claims
open Kovael.Claims.TaskClaimMachine

variable {env : Env} {w : World}

/-- The cycles that are between their `tryClaim` and their terminal claim step
on the task. -/
def holders (w : World) (taskHash : String) : List Cycle :=
  w.owner.active.filter fun c => c.taskHash = taskHash && c.stage.holds

theorem mem_holders {h : String} {c : Cycle} :
    c ∈ holders w h ↔ c ∈ w.owner.active ∧ c.taskHash = h ∧ c.stage.holds = true := by
  rw [holders, List.mem_filter, Bool.and_eq_true, decide_eq_true_iff]

theorem holders_le_one (hw : Owned env w) (h : String) : (holders w h).length ≤ 1 := by
  have hnd : (holders w h).Nodup :=
    (List.Nodup.of_map Cycle.cycleId hw.nodup).filter _
  have hsame : ∀ c ∈ holders w h, ∀ d ∈ holders w h, c = d := by
    intro c hc d hd
    obtain ⟨hc, hch, hcs⟩ := mem_holders.mp hc
    obtain ⟨hd, hdh, hds⟩ := mem_holders.mp hd
    exact sole_holder hw hc hd hcs hds (hch.trans hdh.symm)
  match hl : holders w h with
  | [] => simp
  | [_] => simp
  | c :: d :: rest =>
    rw [hl] at hnd hsame
    have heq := hsame c (by simp) d (by simp)
    rw [heq, List.nodup_cons] at hnd
    exact absurd (List.mem_cons_self ..) hnd.1

/-! ## After a sweep that does not spare -/

/-- A sweep that does not spare prunes the record of a held task. -/
theorem pruned_of_not_spares (hw : Owned env w) {rcfg : Reconciler.ReconcilerConfig} {now : Int}
    {clock : String → Int} (hspare : ¬ Spares rcfg w (.reconcile now clock)) :
    ∃ c ∈ w.owner.active, c.stage.holds = true ∧
      (Reconciler.sweep rcfg now clock w.claims).1.get c.taskHash = none := by
  rw [Spares] at hspare
  push Not at hspare
  obtain ⟨c, hc, hch, r, hr, hne⟩ := hspare
  have hex : Reconciler.expired rcfg now r = true := by simpa using hne
  refine ⟨c, hc, hch, ?_⟩
  have hget := Reconciler.get_sweep rcfg now clock w.claims
    (fun h r hr => (hw.logged.of_some hr).1) c.taskHash
  have hrel : r.state = .released := by
    rw [Reconciler.expired, Bool.and_eq_true, decide_eq_true_iff] at hex
    exact hex.1
  have hstalled : Reconciler.stalled rcfg now r = false := by
    rw [Reconciler.stalled, hrel]
    rfl
  rw [hget, hr, Option.bind_some, Reconciler.swept, if_neg (by rw [hstalled]; simp),
    if_pos hex]

/-- An injection of a task that is not in the ledger starts a cycle, whose
Running record carries the cycle's id. -/
theorem injectTask_of_none (i : InjectInput) {goal : String}
    (hnone : w.claims.get (env.sha256 goal) = none) :
    (injectTask env i goal w).owner.active = w.owner.active ++
      [⟨env.uuid w.owner.issued, env.sha256 goal, goal, i.workspacePath, .afterCreate⟩] ∧
    ∃ r, (injectTask env i goal w).claims.get (env.sha256 goal) = some r ∧
      r.state = .running ∧ r.cycleId = some (env.uuid w.owner.issued) := by
  have hok := tryClaim_of_none i.claimClock (env.uuid w.owner.issued)
    (some "orchestrator_inject") i.registerNow (some ("inject:" ++ env.preview goal)) hnone
  obtain ⟨-, ⟨r, hr, hst, -⟩, -⟩ := tryClaim_succeeds (env.uuid_ne_empty _) hok
  unfold injectTask
  rw [if_pos hok]
  exact ⟨rfl, markRunning_of_claimed i.runningNow (env.uuid_ne_empty _) hr hst⟩

/-- A cycle stays known by its id when another one starts. -/
theorem cycle?_of_append (hw : Owned env w) {c d : Cycle} (hc : c ∈ w.owner.active) {w' : World}
    (hactive : w'.owner.active = w.owner.active ++ [d]) : w'.cycle? c.cycleId = some c := by
  have hfind : w.owner.active.find? (fun e => e.cycleId = c.cycleId) = some c := by
    cases hf : w.owner.active.find? (fun e => e.cycleId = c.cycleId) with
    | none =>
      have hno := List.find?_eq_none.mp hf c hc
      simp at hno
    | some e =>
      have hid : e.cycleId = c.cycleId := by simpa using List.find?_some hf
      rw [hw.eq_of_id (List.mem_of_find?_eq_some hf) hc hid]
  rw [World.cycle?, hactive, List.find?_append, hfind, Option.some_or]

/-- Releasing a Running record changes it. -/
theorem release_changes {m : TaskClaimMachine} {h : String} {r : ClaimRecord}
    (hr : m.get h = some r) (hst : r.state = .running) (now : Int) (reason : String) :
    (m.release now h reason).1.get h ≠ some r := by
  rcases transition_cases m now h .released none (some reason) with ⟨-, hno⟩ | ⟨r', -, -, heq⟩
  · exact absurd (released_mem_legal.mpr (by rw [hst]; decide)) (hno r hr)
  · rw [release, heq, get_move, if_pos rfl]
    intro hsame
    rw [Option.some.injEq] at hsame
    have hrel : r.state = .released := by rw [← hsame]; rfl
    rw [hst] at hrel
    exact absurd hrel (by simp)

/-- Reporting a failure of a Running record changes it. -/
theorem enqueueFailure_changes {m : TaskClaimMachine} {h : String} {r : ClaimRecord}
    (hr : m.get h = some r) (hst : r.state = .running) (q : RetryQueue) (clock : Clock)
    (goal reason : String) : (q.enqueueFailure m clock h goal reason).1.get h ≠ some r := by
  have hqueue : ∀ ms text, (m.markRetryQueued clock h ms text).1.get h ≠ some r := by
    intro ms text
    rcases markRetryQueued_cases m clock h ms text with ⟨-, hno⟩ | ⟨r', -, -, heq⟩
    · exact absurd hst (hno r hr)
    · rw [heq, TaskClaimMachine.get, OrderedMap.get?_set_self]
      intro hsame
      rw [Option.some.injEq] at hsame
      have hq : r.state = .retryQueued := by rw [← hsame]; rfl
      rw [hst] at hq
      exact absurd hq (by simp)
  unfold RetryQueue.enqueueFailure
  rw [hr]
  dsimp only
  split
  next => exact release_changes hr hst _ _
  next =>
    split
    next => exact hqueue _ _
    next => exact hqueue _ _

/-- The cycle took a step that changed the record `r` of its task. -/
def Changed (w : World) (c : Cycle) (r : ClaimRecord) : Prop :=
  ∃ s ∈ w.owner.claimSteps, s.cycleId = c.cycleId ∧ s.before = some r ∧ s.after ≠ s.before

theorem claimStep_changed {c : Cycle} {m : TaskClaimMachine} {r : ClaimRecord}
    (hr : w.claims.get c.taskHash = some r) (hm : m.get c.taskHash ≠ some r) :
    Changed (w.claimStep c m) c r := by
  refine ⟨_, List.mem_append_right _ (List.mem_singleton_self _), rfl, hr, ?_⟩
  rw [hr]
  exact hm

/-- A holder whose task has a Running record still has a report to make, and
making it changes the record, whoever's it is. -/
theorem report_changes (clock : Clock) {c : Cycle} (hch : c.stage.holds = true) {r : ClaimRecord}
    (hr : w.claims.get c.taskHash = some r) (hst : r.state = .running) :
    ∃ wake w', resumeCycle clock c wake w = some w' ∧ Changed w' c r := by
  have hrelease : ∀ reason, Changed (w.releaseClaim clock c reason) c r :=
    fun reason => claimStep_changed hr (release_changes hr hst _ reason)
  have hreport : ∀ reason, Changed (w.reportFailure clock c reason) c r :=
    fun reason => claimStep_changed hr (enqueueFailure_changes hr hst _ clock _ reason)
  have habort : ∀ reason message, Changed (abortCycle clock c reason message w) c r := by
    intro reason message
    have hr' : (w.releaseWorkspace c).claims.get c.taskHash = some r := by
      rw [releaseWorkspace_claims]
      exact hr
    exact claimStep_changed hr' (release_changes hr' hst _ reason)
  -- a hook that fails aborts the cycle in its first two stages
  let failed : List HookResult := [⟨"hook", .afterCreate, false, 0, false, none⟩]
  unfold resumeCycle
  cases hstage : c.stage with
  | afterCreate => exact ⟨.hooksRan failed, _, rfl, habort _ _⟩
  | beforeRun => exact ⟨.hooksRan failed, _, rfl, habort _ _⟩
  | execute =>
    refine ⟨.execThrew "", _, rfl, ?_⟩
    obtain ⟨s, hs, hrest⟩ := hreport ("execute_threw:" ++ "")
    refine ⟨s, ?_, hrest⟩
    show s ∈ ((w.reportFailure clock c ("execute_threw:" ++ "")).releaseWorkspace c).owner.claimSteps
    rw [releaseWorkspace_claimSteps]
    exact hs
  | afterRun receipt =>
    refine ⟨.hooksRan [], _, rfl, ?_⟩
    have hsteps : Changed (if receipt.status = .verified then
        w.releaseClaim clock c "cycle_succeeded"
        else w.reportFailure clock c ("cycle_failed:" ++ receipt.id)) c r := by
      split
      next => exact hrelease _
      next => exact hreport _
    obtain ⟨s, hs, hrest⟩ := hsteps
    refine ⟨s, ?_, hrest⟩
    split
    next => exact hs
    next => exact hs
  | beforeRemove receipt =>
    rw [hstage] at hch
    exact absurd hch (by simp [Stage.holds])

/-! ## The two guarantees -/

/-- **One cycle per task.** After every run whose reconciler sweeps spare held
tasks, each task has at most one cycle between its `tryClaim` and its terminal
claim step; and from there, a sweep that does not spare followed by an
injection of the same goal puts two cycles there. -/
theorem one_cycle_per_task (env : Env) (rcfg : Reconciler.ReconcilerConfig) (qcfg : RetryConfig)
    (turns : List Turn) (w : World)
    (hrun : (mesh env rcfg qcfg).exec (mesh env rcfg qcfg).init turns = some w)
    (hspare : (mesh env rcfg qcfg).Along (Spares rcfg) (mesh env rcfg qcfg).init turns) :
    (∀ taskHash, (holders w taskHash).length ≤ 1) ∧
    ∀ now clock, ¬ Spares rcfg w (.reconcile now clock) →
      ∃ c ∈ w.owner.active, ∀ i, ∃ w',
        (mesh env rcfg qcfg).exec w [.reconcile now clock, .inject i c.goal] = some w' ∧
        1 < (holders w' c.taskHash).length := by
  have hw : Owned env w := run_owned hrun hspare
  refine ⟨fun h => holders_le_one hw h, ?_⟩
  intro now clock hno
  obtain ⟨c, hc, hch, hnone⟩ := pruned_of_not_spares hw hno
  refine ⟨c, hc, ?_⟩
  intro i
  rw [hw.hashed c hc] at hnone
  obtain ⟨hactive, -⟩ := injectTask_of_none
    (w := { w with claims := (Reconciler.sweep rcfg now clock w.claims).1 }) i hnone
  refine ⟨_, rfl, ?_⟩
  have hold : c ∈ holders w c.taskHash := mem_holders.mpr ⟨hc, rfl, hch⟩
  have hpos : 0 < (holders w c.taskHash).length := List.length_pos_of_mem hold
  have hnew : ∀ d : Cycle, d.taskHash = c.taskHash → d.stage = .afterCreate →
      [d].filter (fun d => d.taskHash = c.taskHash && d.stage.holds) = [d] := by
    intro d hd hstage
    exact List.filter_cons_of_pos (by simp [hd, hstage, Stage.holds])
  rw [holders, hactive, List.filter_append, List.length_append,
    hnew _ (hw.hashed c hc).symm rfl, List.length_singleton]
  exact Nat.succ_lt_succ hpos

/-- **A cycle changes no claim but its own.** Along every run whose reconciler
sweeps spare held tasks, a step that a cycle takes on the ledger after its
`tryClaim` changes the record of its task only if the record carries the
cycle's id; and from there, a sweep that does not spare and an injection of
the same goal let the first cycle's next report change the second's claim. -/
theorem cycles_change_own_claim (env : Env) (rcfg : Reconciler.ReconcilerConfig)
    (qcfg : RetryConfig) (turns : List Turn) (w : World)
    (hrun : (mesh env rcfg qcfg).exec (mesh env rcfg qcfg).init turns = some w)
    (hspare : (mesh env rcfg qcfg).Along (Spares rcfg) (mesh env rcfg qcfg).init turns) :
    (∀ s ∈ w.owner.claimSteps, s.after ≠ s.before →
      ∃ r, s.before = some r ∧ r.cycleId = some s.cycleId) ∧
    ∀ now clock, ¬ Spares rcfg w (.reconcile now clock) →
      ∃ c ∈ w.owner.active, ∀ i clock', ∃ wake w',
        (mesh env rcfg qcfg).exec w
          [.reconcile now clock, .inject i c.goal, .resume clock' c.cycleId wake] = some w' ∧
        ∃ s ∈ w'.owner.claimSteps, s.cycleId = c.cycleId ∧ s.after ≠ s.before ∧
          ∃ r, s.before = some r ∧ r.cycleId ≠ some s.cycleId := by
  have hw : Owned env w := run_owned hrun hspare
  refine ⟨fun s hs => hw.own s hs, ?_⟩
  intro now clock hno
  obtain ⟨c, hc, hch, hnone⟩ := pruned_of_not_spares hw hno
  refine ⟨c, hc, ?_⟩
  intro i clock'
  rw [hw.hashed c hc] at hnone
  let w₁ : World := { w with claims := (Reconciler.sweep rcfg now clock w.claims).1 }
  obtain ⟨hactive, r, hr, hst, hid⟩ := injectTask_of_none (w := w₁) i hnone
  rw [← hw.hashed c hc] at hr
  obtain ⟨wake, w', hresume, s, hs, hsid, hsr, hne⟩ := report_changes clock' hch hr hst
  refine ⟨wake, w', ?_, s, hs, hsid, hne, r, hsr, ?_⟩
  · rw [Lts.exec_cons]
    refine ⟨w₁, rfl, ?_⟩
    rw [Lts.exec_cons]
    refine ⟨injectTask env i c.goal w₁, rfl, ?_⟩
    rw [Lts.exec_cons]
    refine ⟨w', ?_, rfl⟩
    show ((injectTask env i c.goal w₁).cycle? c.cycleId).bind _ = some w'
    rw [cycle?_of_append hw hc hactive, Option.bind_some]
    exact hresume
  · -- the id of the second cycle was not issued before
    rw [hid, hsid]
    intro hsame
    rw [Option.some.injEq] at hsame
    obtain ⟨n, hn, hn'⟩ := hw.issued c hc
    have hlast : n = w.owner.issued := env.uuid_injective (hn'.symm.trans hsame.symm)
    omega

/-! ## A run that does not spare -/

/-- An environment for runs: the digest is that of the goal below. -/
def sampleEnv : Env where
  sha256 goal :=
    if goal = "ship it" then "bef4261f394bf71fd2b565cd76396ac9ed7953f9110c69ee49d7a82871238fbf"
    else goal
  preview goal := String.ofList (goal.toList.take 60)
  uuid n := String.ofList (List.replicate n 'f' ++ "7d0c2a8e-1b64-4f3a-9e55-2c9b1f60d3a1".toList)
  uuid_injective := by
    intro a b hab
    have hlen := congrArg List.length (String.ofList_injective hab)
    simpa using hlen
  uuid_ne_empty n := by
    intro hempty
    have hlen := congrArg String.length hempty
    simp at hlen

def sampleInput (now : Int) : InjectInput := ⟨now, fun _ => now, now, none⟩

/-- The first cycle reaches `execute` at once and stays there; it is released
as stalled after one minute and its record is pruned after five more, when the
same goal is injected again. -/
def lateReinjection : List Turn :=
  [.inject (sampleInput 0) "ship it",
   .resume (fun _ => 0) (sampleEnv.uuid 0) (.hooksRan []),
   .resume (fun _ => 0) (sampleEnv.uuid 0) (.hooksRan []),
   .reconcile 60000 (fun _ => 60000),
   .reconcile 360000 (fun _ => 360000),
   .inject (sampleInput 360000) "ship it"]

/-- The state after a run from boot, under the default configurations. -/
def sampleRun (turns : List Turn) : Option World :=
  (mesh sampleEnv Reconciler.defaultConfig defaultRetryConfig).exec
    (World.init defaultRetryConfig) turns

/-- Two cycles hold the task at the end, the first of them inside `execute`. -/
theorem reinjection_overlaps :
    ∃ w, sampleRun lateReinjection = some w ∧
      (holders w (sampleEnv.sha256 "ship it")).map (fun c => (c.cycleId, c.stage))
        = [(sampleEnv.uuid 0, .execute), (sampleEnv.uuid 1, .afterCreate)] ∧
      ¬ (holders w (sampleEnv.sha256 "ship it")).length ≤ 1 := by
  have hend : (sampleRun lateReinjection).map (fun w =>
      (holders w (sampleEnv.sha256 "ship it")).map fun c => (c.cycleId, c.stage))
      = some [(sampleEnv.uuid 0, .execute), (sampleEnv.uuid 1, .afterCreate)] := by
    decide
  obtain ⟨w, hw, hholders⟩ := Option.map_eq_some_iff.mp hend
  refine ⟨w, hw, hholders, ?_⟩
  have hlen := congrArg List.length hholders
  rw [List.length_map, List.length_cons, List.length_singleton] at hlen
  omega

/-- The second cycle's record, as its own `markRunning` left it. -/
def secondClaim : ClaimRecord where
  taskHash := sampleEnv.sha256 "ship it"
  state := .running
  attempt := 1
  firstSeen := 360000
  updatedAt := 360000
  cycleId := some (sampleEnv.uuid 1)
  retryAfter := none

/-- When `execute` then returns in the first cycle, its success releases the
claim of the second. -/
theorem late_success_releases_other :
    ∃ w, sampleRun (lateReinjection ++
        [.resume (fun _ => 360001) (sampleEnv.uuid 0) (.execReturned ⟨"receipt-1", .verified⟩),
         .resume (fun _ => 360002) (sampleEnv.uuid 0) (.hooksRan [])]) = some w ∧
      ∃ s ∈ w.owner.claimSteps, s.cycleId = sampleEnv.uuid 0 ∧ s.before = some secondClaim ∧
        s.after = some { secondClaim with state := .released, updatedAt := 360002 } ∧
        ¬ (s.after ≠ s.before → ∃ r, s.before = some r ∧ r.cycleId = some s.cycleId) := by
  let s : ClaimStep :=
    ⟨sampleEnv.uuid 0, sampleEnv.sha256 "ship it", some secondClaim,
      some { secondClaim with state := .released, updatedAt := 360002 }⟩
  have hend : (sampleRun (lateReinjection ++
      [.resume (fun _ => 360001) (sampleEnv.uuid 0) (.execReturned ⟨"receipt-1", .verified⟩),
       .resume (fun _ => 360002) (sampleEnv.uuid 0) (.hooksRan [])])).map
      (fun w => w.owner.claimSteps.getLast?) = some (some s) := by
    decide
  obtain ⟨w, hw, hlast⟩ := Option.map_eq_some_iff.mp hend
  refine ⟨w, hw, s, List.mem_of_getLast? hlast, rfl, rfl, rfl, ?_⟩
  intro hown
  obtain ⟨r, hr, hid⟩ := hown (by decide)
  rw [Option.some.injEq] at hr
  rw [← hr] at hid
  exact absurd hid (by decide)

instance (rcfg : Reconciler.ReconcilerConfig) (w : World) :
    ∀ turn, Decidable (Spares rcfg w turn)
  | .reconcile now _ =>
    inferInstanceAs (Decidable (∀ c ∈ w.owner.active, c.stage.holds = true →
      ∀ r ∈ w.claims.get c.taskHash, Reconciler.expired rcfg now r = false))
  | .inject .. | .resume .. | .retrySweep .. | .updateRetryConfig .. =>
    inferInstanceAs (Decidable True)

/-- The run up to the stall release spares. -/
theorem one_cycle_until_stall_release :
    ∃ w, sampleRun (lateReinjection.take 4) = some w ∧
      ∀ taskHash, (holders w taskHash).length ≤ 1 := by
  obtain ⟨w, hw⟩ := Option.isSome_iff_exists.mp
    (show (sampleRun (lateReinjection.take 4)).isSome = true by decide)
  exact ⟨w, hw, (one_cycle_per_task sampleEnv Reconciler.defaultConfig defaultRetryConfig
    (lateReinjection.take 4) w hw (by decide)).1⟩

theorem own_claims_until_stall_release :
    ∃ w, sampleRun (lateReinjection.take 4) = some w ∧
      ∀ s ∈ w.owner.claimSteps, s.after ≠ s.before →
        ∃ r, s.before = some r ∧ r.cycleId = some s.cycleId := by
  obtain ⟨w, hw⟩ := Option.isSome_iff_exists.mp
    (show (sampleRun (lateReinjection.take 4)).isSome = true by decide)
  exact ⟨w, hw, (cycles_change_own_claim sampleEnv Reconciler.defaultConfig defaultRetryConfig
    (lateReinjection.take 4) w hw (by decide)).1⟩

end Kovael.Mesh
