import Kovael.Claims.History
import Kovael.Claims.RetryQueue
import Kovael.Lts

/-!
# The cockpit's pending-retry counter

`packages/spatial-war-room/src/store/useWarRoomStore.ts` keeps the depth of the
retry queue as a counter: one more for every retry that is scheduled, one less
for every retry that is dispatched or exhausted. The queue itself forgets stale
tasks without an event, overwrites a task that is scheduled twice, and reports
exhaustion of tasks that were never pending. `Tracked` is the exact condition
under which one operation keeps the two together.

Mirroring notes vs the TS:
- `MeshOrchestrator.wireRetryQueue` publishes every event of the queue, in
  order. `receivedAt` is the cockpit's clock when the event arrives.
- A dispatcher's synchronous part works on the ledger: `injectTask` registers,
  claims and marks its task before its first `await`, and leaves the queue
  alone. Here it may do anything to the ledger.
-/

namespace Kovael.Claims.RetryQueue

/-- `pendingCount()`. -/
def pendingCount (q : RetryQueue) : Nat := q.pending.size

end Kovael.Claims.RetryQueue

namespace Kovael.Cockpit

open Js (Number OrderedMap Clock)
open Claims
open Claims.RetryQueue

/-! ## The store -/

/-- The part of the store that retry events write. -/
structure RetrySlice where
  retryEvents : List (RetryEvent × Int)
  retryPendingCount : Nat

/-- The store before the first event. -/
def RetrySlice.init : RetrySlice := ⟨[], 0⟩

/-- What an event does to the counter. -/
def countRetryEvent (pending : Nat) : RetryEvent → Nat
  | .retryScheduled _ => pending + 1
  | .retryDispatching _ | .retryExhausted .. => pending - 1

/-- `recordRetryEvent(evt)`. -/
def recordRetryEvent (store : RetrySlice) (received : RetryEvent × Int) : RetrySlice where
  retryEvents := (received :: store.retryEvents).take 40
  retryPendingCount := countRetryEvent store.retryPendingCount received.1

/-- A cockpit that has received the given events at the given times. -/
def retryCockpit (received : List (RetryEvent × Int)) : RetrySlice :=
  received.foldl recordRetryEvent .init

/-- The counter after the given events. -/
def retryCount (events : List RetryEvent) : Nat := events.foldl countRetryEvent 0

/-- The counter does not depend on when the events arrive. -/
theorem retryCockpit_count (received : List (RetryEvent × Int)) :
    (retryCockpit received).retryPendingCount = retryCount (received.map Prod.fst) := by
  have hfold : ∀ (received : List (RetryEvent × Int)) (store : RetrySlice),
      (received.foldl recordRetryEvent store).retryPendingCount
        = (received.map Prod.fst).foldl countRetryEvent store.retryPendingCount := by
    intro received
    induction received with
    | nil => exact fun store => rfl
    | cons e es ih => exact fun store => ih (recordRetryEvent store e)
  exact hfold received .init

/-- Events that all arrive at one time. -/
theorem map_fst_receivedAt (now : Int) (events : List RetryEvent) :
    (events.map fun e => (e, now)).map Prod.fst = events := by
  rw [List.map_map]
  exact List.map_id _

theorem retryCount_append (events : List RetryEvent) (e : RetryEvent) :
    retryCount (events ++ [e]) = countRetryEvent (retryCount events) e := by
  rw [retryCount, List.foldl_append]
  rfl

/-! ## Operations -/

/-- An operation on the queue, or on the ledger beside it. -/
inductive RetryOperation where
  | enqueueFailure (clock : Clock) (taskHash goal reason : String)
  /-- A sweep; `dispatcher` is what the dispatch of a task does to the ledger,
  `none` if no dispatcher is bound. -/
  | sweep (now : Int) (clock : String → Int)
      (dispatcher : Option (String → String → TaskClaimMachine → TaskClaimMachine))
  | call (c : Call)
  | updateConfig (patch : RetryConfigPatch)

/-- The queue and the ledger. -/
abbrev Queue := Wiring Unit

/-- One operation. -/
def perform (w : Queue) : RetryOperation → Queue
  | .enqueueFailure clock taskHash goal reason =>
    let r := w.queue.enqueueFailure w.claims clock taskHash goal reason
    { w with claims := r.1, queue := r.2.1 }
  | .sweep now clock dispatcher =>
    RetryQueue.sweep now clock
      (dispatcher.map fun d h goal w => { w with claims := d h goal w.claims }) w
  | .call c => { w with claims := (Claims.perform w.claims c).1 }
  | .updateConfig patch => { w with queue := w.queue.updateConfig patch }

/-- The queue under an initial configuration. -/
def queueRuns (cfg : RetryConfig) : Lts Queue RetryOperation where
  init := ⟨.init, .init cfg, ()⟩
  step w op := some (perform w op)

/-- The counter is the depth of the queue. -/
def InStep (q : RetryQueue) : Prop := retryCount q.events = q.pendingCount

/-- The operation reports a schedule only of a task that is not pending yet, an
exhaustion only when nothing is pending, and forgets nothing. -/
def Tracked (w : Queue) : RetryOperation → Prop
  | .enqueueFailure _ taskHash _ _ =>
    match w.claims.get taskHash with
    | none => True
    | some r =>
      if r.state = .running ∧ w.queue.cfg.maxAttempts.lt (.ofNat (r.attempt + 1)) = false then
        w.queue.pending.has taskHash = false
      else w.queue.pendingCount = 0
  | .sweep _ _ none => True
  | .sweep _ _ (some _) =>
    ∀ taskHash p, w.queue.pending.get? taskHash = some p →
      ∃ r, w.claims.get taskHash = some r ∧ r.state = .retryQueued
  | .call _ | .updateConfig _ => True

/-- An exhaustion keeps the counter in step exactly when nothing is pending. -/
theorem inStep_exhausted {q : RetryQueue} (hq : InStep q) (taskHash : String) (attempts : Nat)
    (reason : String) :
    InStep (q.emit (.retryExhausted taskHash attempts reason)) ↔ q.pendingCount = 0 := by
  have hcount : InStep (q.emit (.retryExhausted taskHash attempts reason)) ↔
      retryCount q.events - 1 = q.pendingCount := by
    rw [InStep, emit, retryCount_append, countRetryEvent]
    rfl
  rw [InStep] at hq
  rw [hcount, hq]
  omega

/-- A schedule keeps the counter in step exactly when its task was not pending. -/
theorem inStep_scheduled {q : RetryQueue} (hq : InStep q) (taskHash : String) (p : Pending)
    (d : RetryDispatch) :
    InStep ({ q with pending := q.pending.set taskHash p }.emit (.retryScheduled d)) ↔
      q.pending.has taskHash = false := by
  have hcount : InStep ({ q with pending := q.pending.set taskHash p }.emit (.retryScheduled d)) ↔
      retryCount q.events + 1 = (q.pending.set taskHash p).size := by
    rw [InStep, emit, retryCount_append, countRetryEvent]
    rfl
  rw [InStep, pendingCount] at hq
  rw [hcount, hq, OrderedMap.size_set]
  cases q.pending.has taskHash with
  | true => simp
  | false => simp

theorem inStep_enqueueFailure {w : Queue} (hw : InStep w.queue) (clock : Clock)
    (taskHash goal reason : String) :
    InStep (perform w (.enqueueFailure clock taskHash goal reason)).queue ↔
      Tracked w (.enqueueFailure clock taskHash goal reason) := by
  rw [perform, Tracked]
  rcases enqueueFailure_results w.queue w.claims clock taskHash goal reason with
    ⟨hnone, heq⟩ | ⟨r, hr, ⟨hlt, heq⟩ | ⟨hlt, hst, heq⟩ | ⟨hlt, hst, heq⟩⟩
  · rw [heq, hnone]
    exact ⟨fun _ => trivial, fun _ => hw⟩
  · simp only [heq, hr, hlt, Bool.true_eq_false, and_false, if_false]
    exact inStep_exhausted hw _ _ _
  · simp only [heq, hr, hst, false_and, if_false]
    exact inStep_exhausted hw _ _ _
  · simp only [heq, hr, hlt, hst, and_self, if_true]
    exact inStep_scheduled hw _ _ _

/-- The loop of a sweep keeps the distance between the counter and the depth:
it takes one off both for every dispatch. -/
theorem sweepRecord_distance {clock : String → Int}
    {d : String → String → TaskClaimMachine → TaskClaimMachine} {k : Nat} {w : Queue}
    (hw : retryCount w.queue.events = w.queue.pendingCount + k) (r : ClaimRecord) :
    let w' := sweepRecord clock (fun h goal w => { w with claims := d h goal w.claims }) w r
    retryCount w'.queue.events = w'.queue.pendingCount + k := by
  unfold sweepRecord
  cases hp : w.queue.pending.get? r.taskHash with
  | none => exact hw
  | some p =>
    have hhas : w.queue.pending.has r.taskHash = true := (OrderedMap.has_iff ..).mpr ⟨p, hp⟩
    have hpos : 0 < w.queue.pending.size := List.length_pos_of_mem
      ((w.queue.pending.mem_entries_iff _ _).mpr hp)
    simp only [emit, pendingCount, retryCount_append, countRetryEvent, OrderedMap.size_delete,
      hhas, if_true]
    rw [pendingCount] at hw
    omega

/-- A sweep forgets nothing exactly when every pending task waits for its retry. -/
theorem pendingCount_forgetStale (q : RetryQueue) (claims : TaskClaimMachine) :
    (q.forgetStale claims).pendingCount = q.pendingCount ↔
      ∀ taskHash p, q.pending.get? taskHash = some p →
        ∃ r, claims.get taskHash = some r ∧ r.state = .retryQueued := by
  rw [pendingCount, pendingCount, forgetStale]
  refine (q.pending.size_filter_eq_iff _).trans ?_
  constructor
  · intro h taskHash p hp
    have hkept := h taskHash p hp
    cases hg : claims.get taskHash with
    | none =>
      rw [hg] at hkept
      exact nomatch hkept
    | some r =>
      rw [hg] at hkept
      exact ⟨r, rfl, of_decide_eq_true hkept⟩
  · intro h taskHash p hp
    obtain ⟨r, hr, hst⟩ := h taskHash p hp
    rw [hr]
    exact decide_eq_true hst

theorem inStep_sweep {w : Queue} (hw : InStep w.queue) (now : Int) (clock : String → Int)
    (d : String → String → TaskClaimMachine → TaskClaimMachine) :
    InStep (perform w (.sweep now clock (some d))).queue ↔
      Tracked w (.sweep now clock (some d)) := by
  rw [Tracked, ← pendingCount_forgetStale]
  have hle : (w.queue.forgetStale w.claims).pendingCount ≤ w.queue.pendingCount :=
    w.queue.pending.size_filter_le _
  -- what the sweep forgets is the distance that its loop keeps
  obtain ⟨k, hk⟩ := Nat.exists_eq_add_of_le hle
  have hstart : retryCount (w.queue.forgetStale w.claims).events
      = (w.queue.forgetStale w.claims).pendingCount + k := hw.trans hk
  have hend : retryCount (perform w (.sweep now clock (some d))).queue.events
      = (perform w (.sweep now clock (some d))).queue.pendingCount + k :=
    List.foldlRecOn (motive := fun v : Queue =>
      retryCount v.queue.events = v.queue.pendingCount + k) (w.claims.dueForRetry now)
      (sweepRecord clock fun h goal w => { w with claims := d h goal w.claims }) hstart
      fun v hv r _ => sweepRecord_distance hv r
  rw [InStep, hend, hk]
  omega

/-- One operation keeps the counter in step exactly when it is tracked. -/
theorem inStep_perform {w : Queue} (hw : InStep w.queue) (op : RetryOperation) :
    InStep (perform w op).queue ↔ Tracked w op := by
  cases op with
  | enqueueFailure clock taskHash goal reason => exact inStep_enqueueFailure hw _ _ _ _
  | call c => exact ⟨fun _ => trivial, fun _ => hw⟩
  | updateConfig patch => exact ⟨fun _ => trivial, fun _ => hw⟩
  | sweep now clock dispatcher =>
    cases dispatcher with
    | none => exact ⟨fun _ => trivial, fun _ => hw⟩
    | some d => exact inStep_sweep hw now clock d

/-- No operation is ever refused. -/
theorem exists_exec (cfg : RetryConfig) :
    ∀ (ops : List RetryOperation) (w : Queue), ∃ w', (queueRuns cfg).exec w ops = some w'
  | [], w => ⟨w, rfl⟩
  | op :: ops, w => exists_exec cfg ops (perform w op)

/-- In every run the counter is the depth of the queue after each operation
exactly when every operation of the run is tracked. -/
theorem retryPendingCount_iff (cfg : RetryConfig) (ops : List RetryOperation) :
    (∀ pre post w received, ops = pre ++ post →
      (queueRuns cfg).exec (queueRuns cfg).init pre = some w →
      received.map Prod.fst = w.queue.events →
      (retryCockpit received).retryPendingCount = w.queue.pendingCount) ↔
    (queueRuns cfg).Along Tracked (queueRuns cfg).init ops := by
  obtain ⟨w', hw'⟩ := exists_exec cfg ops (queueRuns cfg).init
  have hinit : InStep (queueRuns cfg).init.queue := rfl
  rw [← Lts.forall_exec_iff_along (I := fun w => InStep w.queue) ?_ ops hinit hw']
  · constructor
    · intro hall pre post w heq hpre
      have hcount := hall pre post w _ heq hpre (map_fst_receivedAt 0 _)
      rw [retryCockpit_count, map_fst_receivedAt] at hcount
      exact hcount
    · intro hall pre post w received heq hpre hreceived
      rw [retryCockpit_count, hreceived]
      exact hall pre post w heq hpre
  · intro w op v hw hstep
    rw [queueRuns, Option.some.injEq] at hstep
    exact hstep ▸ inStep_perform hw op

/-- One task waits for its retry when the failure of another is reported whose
claim was released meanwhile. -/
def foreignExhaustion : List RetryOperation :=
  [.call (.tryClaim (fun _ => 0) "a" "c1" none),
   .call (.markRunning 0 "a" "c1"),
   .enqueueFailure (fun _ => 0) "a" "goal a" "cycle_failed",
   .call (.tryClaim (fun _ => 0) "b" "c2" none),
   .call (.release 60000 "b" "stall_detected"),
   .enqueueFailure (fun _ => 60001) "b" "goal b" "cycle_failed"]

/-- The first task is still pending, and the counter is back at 0. -/
theorem exhaustion_of_other_task :
    ¬ ∀ (cfg : RetryConfig) (ops : List RetryOperation) (w : Queue)
      (received : List (RetryEvent × Int)),
      (queueRuns cfg).exec (queueRuns cfg).init ops = some w →
      received.map Prod.fst = w.queue.events →
      (retryCockpit received).retryPendingCount = w.queue.pendingCount := by
  intro hall
  have hend : ((queueRuns defaultRetryConfig).exec (queueRuns defaultRetryConfig).init
      foreignExhaustion).map (fun w => (retryCount w.queue.events, w.queue.pendingCount))
        = some (0, 1) := by
    decide
  obtain ⟨w, hw, hcounts⟩ := Option.map_eq_some_iff.mp hend
  have heq := hall defaultRetryConfig foreignExhaustion w _ hw (map_fst_receivedAt 0 _)
  rw [Prod.mk.injEq] at hcounts
  rw [retryCockpit_count, map_fst_receivedAt, hcounts.1, hcounts.2] at heq
  exact absurd heq (by decide)

end Kovael.Cockpit
