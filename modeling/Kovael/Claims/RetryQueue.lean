import Kovael.Claims.Machine

/-!
# `RetryQueue`: retries with exponential backoff

`src/services/RetryQueue.ts`. `enqueueFailure` either schedules a failed task
for a later dispatch (and moves its claim to RetryQueued) or gives up (and
releases the claim); `sweep` hands every due task back to the dispatcher.

Mirroring notes vs the TS class:
- `enqueueFailure` reads the clock up to three times: `clock 0` and `clock 1`
  are the readings inside `markRetryQueued` (or `clock 0` the one inside
  `release`), `clock 2` the one in `scheduledFor`.
- The dispatcher is called inside the loop of `sweep` and runs its synchronous
  part there, so the loop works on everything that part can touch: `Wiring`
  holds the ledger, the queue and the state of the dispatcher's owner. What
  the dispatcher does after its first `await` is the owner's business, as is
  the promise it returns: `retry_dispatch_error` is not modelled.
- `{ ...base, ...patch }` is `RetryConfig.patch`; the constructor checks the
  result, `updateConfig` does not. The timer is not modelled.
- Emitted events are the `events`, in order.
-/

namespace Kovael.Claims

open Js (Number OrderedMap Clock)

structure RetryConfig where
  maxAttempts : Number
  baseMs : Number
  factor : Number
  sweepIntervalMs : Number
  deriving DecidableEq, Repr

/-- `DEFAULT_RETRY_CONFIG`. -/
def defaultRetryConfig : RetryConfig where
  maxAttempts := .ofNat 3
  baseMs := .ofNat 2000
  factor := .ofNat 2
  sweepIntervalMs := .ofNat 1000

/-- `Partial<RetryConfig>`. -/
structure RetryConfigPatch where
  maxAttempts : Option Number
  baseMs : Option Number
  factor : Option Number
  sweepIntervalMs : Option Number
  deriving DecidableEq, Repr

/-- `{ ...cfg, ...patch }`. -/
def RetryConfig.patch (cfg : RetryConfig) (p : RetryConfigPatch) : RetryConfig where
  maxAttempts := p.maxAttempts.getD cfg.maxAttempts
  baseMs := p.baseMs.getD cfg.baseMs
  factor := p.factor.getD cfg.factor
  sweepIntervalMs := p.sweepIntervalMs.getD cfg.sweepIntervalMs

structure RetryDispatch where
  taskHash : String
  attempt : Nat
  backoffMs : Number
  scheduledFor : Number
  reason : String
  deriving DecidableEq, Repr

/-- What waits in the queue for one task: its goal and its dispatch. -/
structure Pending where
  goal : String
  dispatch : RetryDispatch
  deriving DecidableEq, Repr

inductive RetryEvent where
  | retryScheduled (d : RetryDispatch)
  | retryExhausted (taskHash : String) (attempts : Nat) (reason : String)
  | retryDispatching (d : RetryDispatch)
  deriving DecidableEq, Repr

/-- The answer of `enqueueFailure`. -/
inductive EnqueueOutcome where
  | retry
  | exhausted
  deriving DecidableEq, Repr

structure RetryQueue where
  cfg : RetryConfig
  pending : OrderedMap String Pending
  events : List RetryEvent

/-- What the loop of `sweep` works on: the ledger, the queue, and the state of
whoever owns the dispatcher. -/
structure Wiring (σ : Type) where
  claims : TaskClaimMachine
  queue : RetryQueue
  owner : σ

namespace RetryQueue

/-- A queue with nothing pending. -/
def init (cfg : RetryConfig) : RetryQueue := ⟨cfg, .empty, []⟩

/-- `new RetryQueue(claims, cfg)`: the error text, or the queue. -/
def construct (p : RetryConfigPatch) : Except String RetryQueue :=
  let cfg := defaultRetryConfig.patch p
  if cfg.maxAttempts.lt (.ofNat 1) then .error "RetryQueue maxAttempts must be >= 1"
  else if cfg.baseMs.le (.ofNat 0) then .error "RetryQueue baseMs must be > 0"
  else if cfg.factor.lt (.ofNat 1) then .error "RetryQueue factor must be >= 1"
  else .ok (init cfg)

/-- `updateConfig(cfg)`. -/
def updateConfig (q : RetryQueue) (p : RetryConfigPatch) : RetryQueue :=
  { q with cfg := q.cfg.patch p }

/-- `emit(...)`. -/
def emit (q : RetryQueue) (e : RetryEvent) : RetryQueue :=
  { q with events := q.events ++ [e] }

/-- `baseMs * factor ** (attempt - 1)`. -/
def backoff (cfg : RetryConfig) (attempt : Nat) : Number :=
  cfg.baseMs.mul (cfg.factor.pow ((attempt : Int) - 1))

/-- `enqueueFailure(taskHash, goal, reason)`. -/
def enqueueFailure (q : RetryQueue) (claims : TaskClaimMachine) (clock : Clock)
    (taskHash goal reason : String) : TaskClaimMachine × RetryQueue × EnqueueOutcome :=
  match claims.get taskHash with
  | none => (claims, q, .exhausted)
  | some record =>
    -- `nextAttempt > maxAttempts`: with a NaN bound the task is retried for ever
    if q.cfg.maxAttempts.lt (.ofNat (record.attempt + 1)) then
      ((claims.release (clock 0) taskHash ("retry_exhausted:" ++ reason)).1,
        q.emit (.retryExhausted taskHash record.attempt reason), .exhausted)
    else
      let backoffMs := backoff q.cfg record.attempt
      let queued := claims.markRetryQueued clock taskHash backoffMs
        (some ("attempt_" ++ toString record.attempt ++ "_failed:" ++ reason))
      if queued.2 then
        let dispatch : RetryDispatch :=
          { taskHash := taskHash
            attempt := record.attempt + 1
            backoffMs := backoffMs
            scheduledFor := (Number.ofInt (clock 2)).add backoffMs
            reason := reason }
        (queued.1, { q with pending := q.pending.set taskHash ⟨goal, dispatch⟩ }.emit
          (.retryScheduled dispatch), .retry)
      else
        (queued.1, q.emit (.retryExhausted taskHash record.attempt "claim_already_released"),
          .exhausted)

/-- Forget every pending task whose claim is no longer RetryQueued. -/
def forgetStale (q : RetryQueue) (claims : TaskClaimMachine) : RetryQueue :=
  { q with pending := q.pending.filter fun taskHash _ =>
      match claims.get taskHash with
      | none => false
      | some record => decide (record.state = .retryQueued) }

variable {σ : Type}

/-- The loop body of `sweep()`. `clock h` is the reading when the loop reaches
`h`, `dispatcher h goal` the synchronous part of the dispatcher's call for it. -/
def sweepRecord (clock : String → Int) (dispatcher : String → String → Wiring σ → Wiring σ)
    (w : Wiring σ) (record : ClaimRecord) : Wiring σ :=
  match w.queue.pending.get? record.taskHash with
  | none =>
    { w with
      claims := (w.claims.release (clock record.taskHash) record.taskHash
        "retry_due_without_payload").1 }
  | some p =>
    dispatcher record.taskHash p.goal
      { w with
        queue := { w.queue with pending := w.queue.pending.delete record.taskHash }.emit
          (.retryDispatching p.dispatch) }

/-- `sweep()`; `none` is a queue whose dispatcher is not bound. -/
def sweep (now : Int) (clock : String → Int)
    (dispatcher : Option (String → String → Wiring σ → Wiring σ)) (w : Wiring σ) : Wiring σ :=
  match dispatcher with
  | none => w
  | some d =>
    -- the due tasks are read once, before the first dispatch
    let w' := { w with queue := w.queue.forgetStale w.claims }
    (w'.claims.dueForRetry now).foldl (sweepRecord clock d) w'

/-- A failure that is reported releases the claim, re-queues it, or leaves the
ledger alone. -/
theorem enqueueFailure_cases (q : RetryQueue) (claims : TaskClaimMachine) (clock : Clock)
    (taskHash goal reason : String) :
    (q.enqueueFailure claims clock taskHash goal reason).1 = claims ∨
    (∃ text, (q.enqueueFailure claims clock taskHash goal reason).1
      = (claims.release (clock 0) taskHash text).1) ∨
    ∃ ms text, (q.enqueueFailure claims clock taskHash goal reason).1
      = (claims.markRetryQueued clock taskHash ms text).1 := by
  unfold enqueueFailure
  split
  next => exact Or.inl rfl
  next record _ =>
    split
    next => exact Or.inr (Or.inl ⟨_, rfl⟩)
    next =>
      refine Or.inr (Or.inr ⟨backoff q.cfg record.attempt,
        some ("attempt_" ++ toString record.attempt ++ "_failed:" ++ reason), ?_⟩)
      dsimp only
      split
      next => rfl
      next => rfl

/-- The dispatch that a failure of a Running record schedules. -/
def nextDispatch (cfg : RetryConfig) (clock : Clock) (taskHash reason : String)
    (record : ClaimRecord) : RetryDispatch where
  taskHash := taskHash
  attempt := record.attempt + 1
  backoffMs := backoff cfg record.attempt
  scheduledFor := (Number.ofInt (clock 2)).add (backoff cfg record.attempt)
  reason := reason

/-- Everything a reported failure can do: nothing for a task without a record,
an exhaustion, or a schedule. -/
theorem enqueueFailure_results (q : RetryQueue) (claims : TaskClaimMachine) (clock : Clock)
    (taskHash goal reason : String) :
    (claims.get taskHash = none ∧
      q.enqueueFailure claims clock taskHash goal reason = (claims, q, .exhausted)) ∨
    ∃ r, claims.get taskHash = some r ∧
      ((q.cfg.maxAttempts.lt (.ofNat (r.attempt + 1)) = true ∧
        q.enqueueFailure claims clock taskHash goal reason
          = ((claims.release (clock 0) taskHash ("retry_exhausted:" ++ reason)).1,
            q.emit (.retryExhausted taskHash r.attempt reason), .exhausted)) ∨
      (q.cfg.maxAttempts.lt (.ofNat (r.attempt + 1)) = false ∧ r.state ≠ .running ∧
        q.enqueueFailure claims clock taskHash goal reason
          = (claims, q.emit (.retryExhausted taskHash r.attempt "claim_already_released"),
            .exhausted)) ∨
      (q.cfg.maxAttempts.lt (.ofNat (r.attempt + 1)) = false ∧ r.state = .running ∧
        q.enqueueFailure claims clock taskHash goal reason
          = ((claims.markRetryQueued clock taskHash (backoff q.cfg r.attempt)
              (some ("attempt_" ++ toString r.attempt ++ "_failed:" ++ reason))).1,
            { q with
              pending := q.pending.set taskHash
                ⟨goal, nextDispatch q.cfg clock taskHash reason r⟩ }.emit
              (.retryScheduled (nextDispatch q.cfg clock taskHash reason r)), .retry))) := by
  unfold enqueueFailure
  cases hg : claims.get taskHash with
  | none => exact Or.inl ⟨rfl, rfl⟩
  | some r =>
    refine Or.inr ⟨r, rfl, ?_⟩
    dsimp only
    by_cases hlt : q.cfg.maxAttempts.lt (.ofNat (r.attempt + 1)) = true
    · exact Or.inl ⟨hlt, if_pos hlt⟩
    · rw [if_neg hlt]
      rw [Bool.not_eq_true] at hlt
      refine Or.inr ?_
      rcases TaskClaimMachine.markRetryQueued_cases claims clock taskHash
        (backoff q.cfg r.attempt)
        (some ("attempt_" ++ toString r.attempt ++ "_failed:" ++ reason)) with
        ⟨heq, hno⟩ | ⟨r', hr', hrun, heq⟩
      · refine Or.inl ⟨hlt, hno r hg, ?_⟩
        rw [heq]
        rfl
      · rw [hg, Option.some.injEq] at hr'
        refine Or.inr ⟨hlt, hr' ▸ hrun, ?_⟩
        rw [heq]
        rfl

/-- Whatever releases and dispatches both preserve, a sweep preserves. -/
theorem sweep_invariant {I : Wiring σ → Prop}
    (hqueue : ∀ w q, I w → I { w with queue := q })
    (hrelease : ∀ w now h text, I w → I { w with claims := (w.claims.release now h text).1 })
    {dispatcher : String → String → Wiring σ → Wiring σ}
    (hdispatch : ∀ w h goal, I w → I (dispatcher h goal w))
    (now : Int) (clock : String → Int) {w : Wiring σ} (hw : I w) :
    I (sweep now clock (some dispatcher) w) := by
  have hrecord : ∀ v r, I v → I (sweepRecord clock dispatcher v r) := by
    intro v r hv
    unfold sweepRecord
    split
    next => exact hrelease v _ _ _ hv
    next => exact hdispatch _ _ _ (hqueue v _ hv)
  exact List.foldlRecOn _ _ (hqueue w _ hw) fun v hv r _ => hrecord v r hv

end RetryQueue

end Kovael.Claims
