import Kovael.Claims.Reconciler
import Kovael.Claims.RetryQueue
import Kovael.Lts

/-!
# `MeshOrchestrator.injectTask` among the two sweepers

`src/MeshOrchestrator.ts`: an injection claims its task, then works through
its hooks and `MevBridge.execute`, giving control back to the event loop at
every `await`. Between two awaits it runs alone, so one turn of the event loop
is one step of the system `mesh`: an injection up to its first `await`, a
cycle from one `await` to the next, a sweep of the retry queue, a sweep of the
reconciler, or a reload of the retry configuration.

Mirroring notes vs the TS:
- Everything the code reads from outside is in the turn: the readings of the
  clock, the path `workspaces.acquire` returns (`none` when it throws), the
  results of the hooks, the receipt or the error of `execute`. What is
  promised of `crypto.randomUUID` (a fresh, non-empty string each time) is in
  `Env`; nothing is assumed of `sha256` and of `goal.slice(0, 60)`.
- The retry queue's dispatcher is `injectTask` (bound in the constructor), so
  `sweep` runs injections up to their first `await` inside its loop.
- A cycle is `active` from its successful `tryClaim` until its promise
  settles; `claimSteps` notes, for every step a cycle takes on the ledger
  after its `tryClaim`, the record of its task before and after. No code reads
  the notes. Broadcasts, logs and metrics are not modelled.
-/

namespace Kovael.Mesh

open Js (Number OrderedMap Clock)
open Kovael.Claims
open Kovael.Claims.TaskClaimMachine (moved)

/-! ## The outside world -/

/-- What the orchestrator calls outside this repository. -/
structure Env where
  /-- The digest of a goal, in hex. -/
  sha256 : String → String
  /-- `goal.slice(0, 60)`. -/
  preview : String → String
  /-- The n-th answer of `crypto.randomUUID()`. -/
  uuid : Nat → String
  uuid_injective : Function.Injective uuid
  uuid_ne_empty : ∀ n, uuid n ≠ ""

inductive HookEvent where
  | afterCreate
  | beforeRun
  | afterRun
  | beforeRemove
  deriving DecidableEq, Repr

structure HookResult where
  name : String
  event : HookEvent
  success : Bool
  durationMs : Int
  timedOut : Bool
  error : Option String
  deriving DecidableEq, Repr

/-- `ABORT_ON_FAILURE`. -/
def abortOnFailure : HookEvent → Bool
  | .afterCreate | .beforeRun => true
  | .afterRun | .beforeRemove => false

/-- `HookRunner.shouldAbort(event, results)`. -/
def shouldAbort (event : HookEvent) (results : List HookResult) : Bool :=
  abortOnFailure event && results.any fun r => !r.success

inductive ReceiptStatus where
  | verified
  | failed
  deriving DecidableEq, Repr

/-- The parts of a `VerificationReceipt` that `injectTask` reads. -/
structure Receipt where
  id : String
  status : ReceiptStatus
  deriving DecidableEq, Repr

/-! ## Cycles -/

/-- The `await` a cycle is suspended at. -/
inductive Stage where
  | afterCreate
  | beforeRun
  | execute
  | afterRun (receipt : Receipt)
  | beforeRemove (receipt : Receipt)
  deriving DecidableEq, Repr

/-- The cycle has not yet taken its terminal claim step. -/
def Stage.holds : Stage → Bool
  | .beforeRemove _ => false
  | _ => true

/-- One `injectTask` call after its successful `tryClaim`. -/
structure Cycle where
  cycleId : String
  taskHash : String
  goal : String
  workspacePath : Option String
  stage : Stage
  deriving DecidableEq, Repr

/-- How the promise of an `injectTask` call settles. -/
inductive Outcome where
  | returned (receipt : Receipt)
  | threw (message : String)
  deriving DecidableEq, Repr

/-- A step a cycle took on the ledger after its `tryClaim`. -/
structure ClaimStep where
  cycleId : String
  taskHash : String
  before : Option ClaimRecord
  after : Option ClaimRecord
  deriving DecidableEq, Repr

/-- The orchestrator's own state. -/
structure Orchestrator where
  issued : Nat
  active : List Cycle
  workspaces : OrderedMap String String
  settled : List (String × Outcome)
  claimSteps : List ClaimStep

/-- The ledger, the retry queue and the orchestrator. -/
abbrev World := Wiring Orchestrator

namespace World

/-- The boot state under a retry configuration. -/
def init (cfg : RetryConfig) : World where
  claims := .init
  queue := .init cfg
  owner := ⟨0, [], .empty, [], []⟩

/-- The cycle of the given id leaves `active`; its promise settles. -/
def settle (w : World) (c : Cycle) (o : Outcome) : World :=
  { w with owner :=
      { w.owner with
        active := w.owner.active.filter fun d => d.cycleId ≠ c.cycleId
        settled := w.owner.settled ++ [(c.cycleId, o)] } }

/-- The cycle of the given id is suspended at its next `await`. -/
def suspend (w : World) (c : Cycle) (stage : Stage) : World :=
  { w with owner :=
      { w.owner with
        active := w.owner.active.map fun d =>
          if d.cycleId = c.cycleId then { d with stage := stage } else d } }

/-- `if (workspacePath) this.workspaces.release(cycleId)`. -/
def releaseWorkspace (w : World) (c : Cycle) : World :=
  match c.workspacePath with
  | none => w
  | some _ =>
    { w with owner := { w.owner with workspaces := w.owner.workspaces.delete c.cycleId } }

/-- The ledger after a claim step of the cycle, and the note of the step. -/
def claimStep (w : World) (c : Cycle) (claims : TaskClaimMachine) : World :=
  { w with
    claims := claims
    owner :=
      { w.owner with
        claimSteps := w.owner.claimSteps ++
          [⟨c.cycleId, c.taskHash, w.claims.get c.taskHash, claims.get c.taskHash⟩] } }

/-- `this.claims.release(taskHash, reason)` by a cycle. -/
def releaseClaim (w : World) (clock : Clock) (c : Cycle) (reason : String) : World :=
  w.claimStep c (w.claims.release (clock 0) c.taskHash reason).1

/-- `this.retryQueue.enqueueFailure(taskHash, goal, reason)` by a cycle. -/
def reportFailure (w : World) (clock : Clock) (c : Cycle) (reason : String) : World :=
  let r := w.queue.enqueueFailure w.claims clock c.taskHash c.goal reason
  { w.claimStep c r.1 with queue := r.2.1 }

end World

/-! ## One turn -/

/-- What an injection reads up to its first `await`. -/
structure InjectInput where
  registerNow : Int
  claimClock : Clock
  runningNow : Int
  workspacePath : Option String

/-- What lets a suspended cycle go on. `uncaught` is a hook, or `execute`, that
throws `null` or `undefined`: reading its `message` then throws in the very
`catch` block that was to handle it. -/
inductive Wake where
  | hooksRan (results : List HookResult)
  | execReturned (receipt : Receipt)
  | execThrew (message : String)
  | uncaught (message : String)
  deriving DecidableEq, Repr

variable (env : Env)

/-- `injectTask(goal)` up to its first `await`, or to its throw. -/
def injectTask (i : InjectInput) (goal : String) (w : World) : World :=
  let taskHash := env.sha256 goal
  let cycleId := env.uuid w.owner.issued
  -- the id is drawn whether or not the claim succeeds
  let w₁ : World :=
    { w with
      claims := w.claims.register i.registerNow taskHash (some ("inject:" ++ env.preview goal))
      owner := { w.owner with issued := w.owner.issued + 1 } }
  let claimed := w₁.claims.tryClaim i.claimClock taskHash cycleId (some "orchestrator_inject")
  if claimed.2 then
    let c : Cycle := ⟨cycleId, taskHash, goal, i.workspacePath, .afterCreate⟩
    let w₂ : World := { w₁ with claims := claimed.1 }
    -- the answer of `markRunning` is not looked at
    let w₃ := w₂.claimStep c (w₂.claims.markRunning i.runningNow taskHash cycleId).1
    { w₃ with owner :=
        { w₃.owner with
          active := w₃.owner.active ++ [c]
          workspaces :=
            match i.workspacePath with
            | none => w₃.owner.workspaces
            | some path => w₃.owner.workspaces.set cycleId path } }
  else
    let state :=
      match claimed.1.get taskHash with
      | none => "undefined"
      | some current => current.state.text
    { w₁ with
      claims := claimed.1
      owner :=
        { w₁.owner with
          settled := w₁.owner.settled ++ [(cycleId, .threw
            ("Task already in flight (state=" ++ state ++ "); refusing duplicate dispatch."))] } }

/-- A hook aborts the cycle. -/
def abortCycle (clock : Clock) (c : Cycle) (reason message : String) (w : World) : World :=
  ((w.releaseWorkspace c).releaseClaim clock c reason).settle c (.threw message)

/-- A suspended cycle, from one `await` to the next. -/
def resumeCycle (clock : Clock) (c : Cycle) (wake : Wake) (w : World) : Option World :=
  match c.stage, wake with
  | .afterCreate, .hooksRan results =>
    some <|
      if shouldAbort .afterCreate results then
        abortCycle clock c "hook_after_create_aborted" "after_create hook aborted cycle" w
      else w.suspend c .beforeRun
  | .beforeRun, .hooksRan results =>
    some <|
      if shouldAbort .beforeRun results then
        abortCycle clock c "hook_before_run_aborted" "before_run hook aborted cycle" w
      else w.suspend c .execute
  | .execute, .execReturned receipt => some (w.suspend c (.afterRun receipt))
  | .execute, .execThrew message =>
    -- no after_run hooks on this path
    some <|
      ((w.reportFailure clock c ("execute_threw:" ++ message)).releaseWorkspace c).settle c
        (.threw message)
  | .afterRun receipt, .hooksRan _ =>
    let w' :=
      if receipt.status = .verified then w.releaseClaim clock c "cycle_succeeded"
      else w.reportFailure clock c ("cycle_failed:" ++ receipt.id)
    some <|
      match c.workspacePath with
      | some _ => w'.suspend c (.beforeRemove receipt)
      | none => w'.settle c (.returned receipt)
  | .beforeRemove receipt, .hooksRan _ =>
    some ((w.releaseWorkspace c).settle c (.returned receipt))
  -- neither the claim nor the workspace is released
  | _, .uncaught message => some (w.settle c (.threw message))
  | _, _ => none

/-- One turn of the event loop. -/
inductive Turn where
  | inject (i : InjectInput) (goal : String)
  | resume (clock : Clock) (cycleId : String) (wake : Wake)
  | retrySweep (now : Int) (clock : String → Int) (inputs : String → InjectInput)
  | reconcile (now : Int) (clock : String → Int)
  | updateRetryConfig (patch : RetryConfigPatch)

/-- The active cycle of the given id. -/
def World.cycle? (w : World) (cycleId : String) : Option Cycle :=
  w.owner.active.find? fun c => c.cycleId = cycleId

/-- The orchestrator under a reconciler and an initial retry configuration. -/
def mesh (rcfg : Reconciler.ReconcilerConfig) (qcfg : RetryConfig) : Lts World Turn where
  init := World.init qcfg
  step w
    | .inject i goal => some (injectTask env i goal w)
    | .resume clock cycleId wake =>
      (w.cycle? cycleId).bind fun c => resumeCycle clock c wake w
    | .retrySweep now clock inputs =>
      some (RetryQueue.sweep now clock (some fun h goal => injectTask env (inputs h) goal) w)
    | .reconcile now clock =>
      some { w with claims := (Reconciler.sweep rcfg now clock w.claims).1 }
    | .updateRetryConfig patch => some { w with queue := w.queue.updateConfig patch }

end Kovael.Mesh
