import Kovael.Mesh.Exclusion

/-!
# Runs of the retry queue under a fixed configuration

The ledger and the queue's `pending` map are two stores. `Queued` is what keeps
them together: a RetryQueued record has a pending entry for a goal with its
hash, filed by the schedule that is still open (`openSchedule`), and no record
has used up more attempts than the configuration allows. Everything but the
queue itself leaves RetryQueued records alone or takes them out of that state
(`Keeps`), and a sweep claims every task it dispatches before it goes on to the
next (`sweep_queued`).

The system is `mesh` without reloads of the configuration and with failures
that may also be reported at any other time (`Move`): the runs of the code are
among them.
-/

namespace Kovael.Mesh

open Js (Number OrderedMap Clock)
open Kovael.Claims
open Kovael.Claims.TaskClaimMachine
open Kovael.Claims.RetryQueue

/-! ## The system -/

/-- A turn, or a failure of a goal that is reported by somebody else. -/
inductive Move where
  | turn (t : Turn)
  | enqueueFailure (clock : Clock) (goal reason : String)

/-- `retryQueue.enqueueFailure(sha256(goal), goal, reason)`. -/
def reportGoal (env : Env) (clock : Clock) (goal reason : String) (w : World) : World :=
  let r := w.queue.enqueueFailure w.claims clock (env.sha256 goal) goal reason
  { w with claims := r.1, queue := r.2.1 }

/-- The orchestrator under a retry configuration that is never reloaded. -/
def retries (env : Env) (rcfg : Reconciler.ReconcilerConfig) (qcfg : RetryConfig) :
    Lts World Move where
  init := World.init qcfg
  step w
    | .turn (.updateRetryConfig _) => none
    | .turn t => (mesh env rcfg qcfg).step w t
    | .enqueueFailure clock goal reason => some (reportGoal env clock goal reason w)

/-! ## Open schedules -/

/-- The schedule of a task after one more event. -/
def reschedule (taskHash : String) (schedule : Option RetryDispatch) :
    RetryEvent → Option RetryDispatch
  | .retryScheduled d => if d.taskHash = taskHash then some d else schedule
  | .retryDispatching d => if d.taskHash = taskHash then none else schedule
  | .retryExhausted .. => schedule

/-- The last schedule of a task that has not been dispatched yet. -/
def openSchedule (taskHash : String) (events : List RetryEvent) : Option RetryDispatch :=
  events.foldl (reschedule taskHash) none

theorem openSchedule_append (taskHash : String) (events : List RetryEvent) (e : RetryEvent) :
    openSchedule taskHash (events ++ [e]) = reschedule taskHash (openSchedule taskHash events) e :=
  List.foldl_append

/-- A schedule is open for its own task. -/
theorem openSchedule_hash {taskHash : String} {events : List RetryEvent} {d : RetryDispatch}
    (h : openSchedule taskHash events = some d) : d.taskHash = taskHash := by
  have hfold : ∀ d, openSchedule taskHash events = some d → d.taskHash = taskHash := by
    refine List.foldlRecOn (motive := fun s : Option RetryDispatch =>
      ∀ d, s = some d → d.taskHash = taskHash) events (reschedule taskHash) ?_ ?_
    · exact fun d hd => nomatch hd
    · intro s hs e _ d hd
      unfold reschedule at hd
      split at hd
      next d' =>
        split at hd
        next hh => exact Option.some.inj hd ▸ hh
        next => exact hs d hd
      next =>
        split at hd
        next => exact nomatch hd
        next => exact hs d hd
      next => exact hs d hd
  exact hfold d h

/-- Every dispatch is that of its task's open schedule. -/
def OncePerSchedule (events : List RetryEvent) : Prop :=
  ∀ pre d post, events = pre ++ .retryDispatching d :: post →
    openSchedule d.taskHash pre = some d

theorem oncePerSchedule_append {events : List RetryEvent} (h : OncePerSchedule events)
    {e : RetryEvent}
    (he : ∀ d, e = .retryDispatching d → openSchedule d.taskHash events = some d) :
    OncePerSchedule (events ++ [e]) := by
  intro pre d post heq
  rcases List.eq_nil_or_concat post with rfl | ⟨post, last, rfl⟩
  · obtain ⟨hpre, hlast⟩ := List.append_inj' heq rfl
    rw [List.cons.injEq] at hlast
    exact hpre ▸ he d hlast.1
  · rw [List.concat_eq_append, ← List.cons_append, ← List.append_assoc] at heq
    exact h pre d post (List.append_inj' heq rfl).1

/-! ## What the ledger's other users keep -/

/-- The record is within its attempts, and so is its next claim. -/
def Bounded (cfg : RetryConfig) (r : ClaimRecord) : Prop :=
  cfg.maxAttempts.lt (.ofNat r.attempt) = false ∧
    (r.state = .unclaimed ∨ r.state = .retryQueued →
      cfg.maxAttempts.lt (.ofNat (r.attempt + 1)) = false)

/-- The ledger after operations that re-queue nothing. -/
structure Keeps (cfg : RetryConfig) (m m' : TaskClaimMachine) : Prop where
  logged : Logged m → Logged m'
  bounded : (∀ h r, m.get h = some r → Bounded cfg r) → ∀ h r, m'.get h = some r → Bounded cfg r
  retries : ∀ h r, m'.get h = some r → r.state = .retryQueued → m.get h = some r

theorem Keeps.refl (cfg : RetryConfig) (m : TaskClaimMachine) : Keeps cfg m m :=
  ⟨id, id, fun _ _ h _ => h⟩

theorem Keeps.trans {cfg : RetryConfig} {m₁ m₂ m₃ : TaskClaimMachine} (h₁ : Keeps cfg m₁ m₂)
    (h₂ : Keeps cfg m₂ m₃) : Keeps cfg m₁ m₃ where
  logged h := h₂.logged (h₁.logged h)
  bounded h := h₂.bounded (h₁.bounded h)
  retries h r hr hst := h₁.retries h r (h₂.retries h r hr hst) hst

/-- A bound that admits one more attempt admits this one. -/
theorem lt_ofNat_of_succ {a : Number} {n : Nat} (h : a.lt (.ofNat (n + 1)) = false) :
    a.lt (.ofNat n) = false := by
  cases a with
  | nan => rfl
  | negInf => exact nomatch h
  | posInf => rfl
  | fin q =>
    simp only [Number.ofNat, Number.lt, decide_eq_false_iff_not, not_lt] at h ⊢
    refine le_trans ?_ h
    exact_mod_cast Nat.le_succ n

theorem keeps_register {cfg : RetryConfig} (hcfg : cfg.maxAttempts.lt (.ofNat 1) = false)
    (m : TaskClaimMachine) (now : Int) (taskHash : String) (reason : Option String) :
    Keeps cfg m (m.register now taskHash reason) := by
  rcases register_cases m now taskHash reason with ⟨heq, -⟩ | ⟨hnone, -⟩
  · rw [heq]
    exact .refl cfg m
  · refine ⟨fun hm => logged_register hm now taskHash reason, ?_, ?_⟩
    · intro hall h r hr
      rw [get_register] at hr
      split at hr
      next =>
        rw [hnone, Option.getD_none, Option.some.injEq] at hr
        rw [← hr]
        exact ⟨lt_ofNat_of_succ hcfg, fun _ => hcfg⟩
      next => exact hall h r hr
    · intro h r hr hst
      rw [get_register] at hr
      split at hr
      next =>
        rw [hnone, Option.getD_none, Option.some.injEq] at hr
        rw [← hr] at hst
        exact nomatch hst
      next => exact hr

/-- A legal move keeps a record within its attempts, unless it re-queues it. -/
theorem bounded_moved {cfg : RetryConfig} {r : ClaimRecord} (hr : Bounded cfg r) (now : Int)
    {next : ClaimState} (hl : next ∈ legal r.state) (hnext : next ≠ .retryQueued)
    (cycleId : Option String) : Bounded cfg (moved r now next cycleId) := by
  have hun : next ≠ .unclaimed := by
    intro heq
    obtain rfl := heq
    cases hs : r.state with
    | unclaimed | claimed | running | retryQueued | released =>
      rw [hs] at hl
      exact absurd hl (by decide)
  constructor
  · by_cases hc : next = .claimed
    · -- the one move that counts an attempt starts where one more is admitted
      have hattempt : (moved r now next cycleId).attempt = r.attempt + 1 := if_pos hc
      rw [hattempt]
      exact hr.2 (claimed_mem_legal.mp (hc ▸ hl))
    · have hattempt : (moved r now next cycleId).attempt = r.attempt := if_neg hc
      rw [hattempt]
      exact hr.1
  · intro hst
    rw [moved_state] at hst
    exact absurd hst (not_or.mpr ⟨hun, hnext⟩)

theorem keeps_move {cfg : RetryConfig} {m : TaskClaimMachine} {taskHash : String}
    {r : ClaimRecord} (hg : m.get taskHash = some r) (now : Int) {next : ClaimState}
    (hl : next ∈ legal r.state) (hnext : next ≠ .retryQueued) (cycleId reason : Option String) :
    Keeps cfg m (m.move r now taskHash next cycleId reason) := by
  refine ⟨fun hm => logged_move hm now cycleId reason hg hl, ?_, ?_⟩
  · intro hall h r' hr'
    rw [get_move] at hr'
    split at hr'
    next =>
      rw [Option.some.injEq] at hr'
      exact hr' ▸ bounded_moved (hall taskHash r hg) now hl hnext cycleId
    next => exact hall h r' hr'
  · intro h r' hr' hst
    rw [get_move] at hr'
    split at hr'
    next =>
      rw [Option.some.injEq] at hr'
      rw [← hr', moved_state] at hst
      exact absurd hst hnext
    next => exact hr'

theorem keeps_transition {cfg : RetryConfig} (m : TaskClaimMachine) (now : Int)
    (taskHash : String) {next : ClaimState} (hnext : next ≠ .retryQueued)
    (cycleId reason : Option String) :
    Keeps cfg m (m.transition now taskHash next cycleId reason).1 := by
  rcases transition_cases m now taskHash next cycleId reason with ⟨heq, -⟩ | ⟨r, hr, hl, heq⟩
  · rw [heq]
    exact .refl cfg m
  · rw [heq]
    exact keeps_move hr now hl hnext cycleId reason

theorem keeps_release {cfg : RetryConfig} (m : TaskClaimMachine) (now : Int)
    (taskHash reason : String) : Keeps cfg m (m.release now taskHash reason).1 :=
  keeps_transition m now taskHash (by decide) none (some reason)

theorem keeps_tryClaim {cfg : RetryConfig} (hcfg : cfg.maxAttempts.lt (.ofNat 1) = false)
    (m : TaskClaimMachine) (clock : Clock) (taskHash cycleId : String) (reason : Option String) :
    Keeps cfg m (m.tryClaim clock taskHash cycleId reason).1 := by
  rcases tryClaim_cases m clock taskHash cycleId reason with ⟨heq, -⟩ | ⟨r, hr, hst, heq⟩
  · rw [heq]
    exact .refl cfg m
  · rw [heq]
    exact (keeps_register hcfg m _ _ _).trans
      (keeps_move hr _ (claimed_mem_legal.mpr hst) (by decide) _ _)

/-- A sweep of the reconciler releases and prunes. -/
theorem keeps_reconcile {cfg : RetryConfig} (rcfg : Reconciler.ReconcilerConfig) (now : Int)
    (clock : String → Int) {m : TaskClaimMachine} (hm : Logged m) :
    Keeps cfg m (Reconciler.sweep rcfg now clock m).1 := by
  have hget := Reconciler.get_sweep rcfg now clock m fun h r hr => (hm.of_some hr).1
  refine ⟨fun _ => logged_sweep rcfg now clock hm, ?_, ?_⟩
  · intro hall h r' hr'
    rw [hget] at hr'
    obtain ⟨r, hr, hswept⟩ := Option.bind_eq_some_iff.mp hr'
    unfold Reconciler.swept at hswept
    split at hswept
    next =>
      rw [Option.some.injEq] at hswept
      rw [← hswept]
      -- a release counts no attempt
      exact ⟨(hall h r hr).1, fun hst => by rcases hst with hst | hst <;> exact nomatch hst⟩
    next =>
      split at hswept
      next => exact nomatch hswept
      next =>
        rw [Option.some.injEq] at hswept
        exact hswept ▸ hall h r hr
  · intro h r' hr' hst
    rw [hget] at hr'
    obtain ⟨r, hr, hswept⟩ := Option.bind_eq_some_iff.mp hr'
    unfold Reconciler.swept at hswept
    split at hswept
    next =>
      rw [Option.some.injEq] at hswept
      rw [← hswept] at hst
      exact nomatch hst
    next =>
      split at hswept
      next => exact nomatch hswept
      next =>
        rw [Option.some.injEq] at hswept
        exact hswept ▸ hr

/-! ## The invariant -/

/-- The ledger and the queue agree. -/
structure Queued (env : Env) (cfg : RetryConfig) (w : World) : Prop where
  config : w.queue.cfg = cfg
  logged : Logged w.claims
  bounded : ∀ h r, w.claims.get h = some r → Bounded cfg r
  hashed : ∀ c ∈ w.owner.active, c.taskHash = env.sha256 c.goal
  waiting : ∀ h r, w.claims.get h = some r → r.state = .retryQueued →
    (∃ t, r.retryAfter = some t) ∧
      ∃ p, w.queue.pending.get? h = some p ∧ env.sha256 p.goal = h
  scheduled : ∀ h p, w.queue.pending.get? h = some p →
    openSchedule h w.queue.events = some p.dispatch
  once : OncePerSchedule w.queue.events

variable {env : Env} {cfg : RetryConfig} {w : World}

/-- Operations that re-queue nothing, and leave the queue alone. -/
theorem Queued.keeps (hw : Queued env cfg w) {m : TaskClaimMachine} (hm : Keeps cfg w.claims m)
    {owner : Orchestrator} (howner : ∀ c ∈ owner.active, c.taskHash = env.sha256 c.goal) :
    Queued env cfg { claims := m, queue := w.queue, owner := owner } where
  config := hw.config
  logged := hm.logged hw.logged
  bounded := hm.bounded hw.bounded
  hashed := howner
  waiting h r hr hst := hw.waiting h r (hm.retries h r hr hst) hst
  scheduled := hw.scheduled
  once := hw.once

/-- An exhaustion schedules and dispatches nothing. -/
theorem Queued.exhausted (hw : Queued env cfg w) (taskHash : String) (attempts : Nat)
    (reason : String) :
    Queued env cfg { w with queue := w.queue.emit (.retryExhausted taskHash attempts reason) } where
  config := hw.config
  logged := hw.logged
  bounded := hw.bounded
  hashed := hw.hashed
  waiting := hw.waiting
  scheduled h p hp := by
    rw [emit, openSchedule_append]
    exact hw.scheduled h p hp
  once := oncePerSchedule_append hw.once fun d hd => nomatch hd

/-- A schedule: the record is re-queued and the entry filed together. -/
theorem Queued.schedule (hw : Queued env cfg w) (clock : Clock) (goal : String) {r : ClaimRecord}
    (hr : w.claims.get (env.sha256 goal) = some r) (hrun : r.state = .running)
    (hmax : cfg.maxAttempts.lt (.ofNat (r.attempt + 1)) = false) (ms : Number)
    (why : Option String) {d : RetryDispatch} (hd : d.taskHash = env.sha256 goal) :
    Queued env cfg
      { w with
        claims := (w.claims.markRetryQueued clock (env.sha256 goal) ms why).1
        queue := { w.queue with
          pending := w.queue.pending.set (env.sha256 goal) ⟨goal, d⟩ }.emit
            (.retryScheduled d) } := by
  rcases markRetryQueued_cases w.claims clock (env.sha256 goal) ms why with
    ⟨-, hno⟩ | ⟨r', hr', -, heq⟩
  · exact absurd hrun (hno r hr)
  · rw [hr, Option.some.injEq] at hr'
    subst hr'
    have hget : ∀ h, (w.claims.markRetryQueued clock (env.sha256 goal) ms why).1.get h
        = if h = env.sha256 goal then some
            { moved r (clock 0) .retryQueued none with
              retryAfter := some ((Number.ofInt (clock 1)).add ms) }
          else w.claims.get h := by
      intro h
      by_cases hh : h = env.sha256 goal
      · rw [heq, hh, if_pos rfl]
        exact OrderedMap.get?_set_self ..
      · rw [if_neg hh]
        exact get_markRetryQueued_ne _ _ _ _ hh
    refine ⟨hw.config, logged_markRetryQueued hw.logged clock _ ms why, ?_, hw.hashed, ?_, ?_, ?_⟩
    · intro h r' hr'
      rw [hget] at hr'
      split at hr'
      next =>
        rw [Option.some.injEq] at hr'
        rw [← hr']
        exact ⟨lt_ofNat_of_succ hmax, fun _ => hmax⟩
      next => exact hw.bounded h r' hr'
    · intro h r' hr' hst
      rw [hget] at hr'
      split at hr'
      next hh =>
        rw [Option.some.injEq] at hr'
        rw [← hr', hh]
        exact ⟨⟨_, rfl⟩, _, OrderedMap.get?_set_self .., rfl⟩
      next hh =>
        obtain ⟨hstamp, p, hp, hgoal⟩ := hw.waiting h r' hr' hst
        exact ⟨hstamp, p, (OrderedMap.get?_set_ne _ _ hh).trans hp, hgoal⟩
    · intro h p hp
      rw [emit, openSchedule_append, reschedule]
      rcases OrderedMap.get?_set_some hp with ⟨rfl, rfl⟩ | ⟨hh, hp⟩
      · rw [if_pos hd]
      · rw [if_neg (hd ▸ Ne.symm hh)]
        exact hw.scheduled h p hp
    · exact oncePerSchedule_append hw.once fun d hd => nomatch hd

theorem reportGoal_queued (hw : Queued env cfg w) (clock : Clock) (goal reason : String) :
    Queued env cfg (reportGoal env clock goal reason w) := by
  unfold reportGoal
  rcases enqueueFailure_results w.queue w.claims clock (env.sha256 goal) goal reason with
    ⟨-, heq⟩ | ⟨r, hr, ⟨-, heq⟩ | ⟨-, -, heq⟩ | ⟨hmax, hrun, heq⟩⟩
  · simp only [heq]
    exact hw
  · simp only [heq]
    exact (hw.keeps (keeps_release _ _ _ _) hw.hashed).exhausted _ _ _
  · simp only [heq]
    exact hw.exhausted _ _ _
  · simp only [heq]
    exact hw.schedule clock goal hr hrun (hw.config ▸ hmax) _ _ rfl

/-! ## Injections -/

/-- An injection leaves the queue alone. -/
theorem injectTask_queue (env : Env) (i : InjectInput) (goal : String) (w : World) :
    (injectTask env i goal w).queue = w.queue := by
  unfold injectTask
  dsimp only
  split
  next => rfl
  next => rfl

/-- An injection registers, claims and marks. -/
theorem injectTask_keeps (hcfg : cfg.maxAttempts.lt (.ofNat 1) = false) (i : InjectInput)
    (goal : String) (w : World) : Keeps cfg w.claims (injectTask env i goal w).claims := by
  have hclaim := (keeps_register hcfg w.claims i.registerNow (env.sha256 goal)
    (some ("inject:" ++ env.preview goal))).trans
    (keeps_tryClaim hcfg _ i.claimClock (env.sha256 goal) (env.uuid w.owner.issued)
      (some "orchestrator_inject"))
  unfold injectTask
  dsimp only
  split
  next => exact hclaim.trans (keeps_transition _ _ _ (by decide) _ _)
  next => exact hclaim

/-- The cycle that an injection starts is filed under its goal's hash. -/
theorem injectTask_hashed (hw : ∀ c ∈ w.owner.active, c.taskHash = env.sha256 c.goal)
    (i : InjectInput) (goal : String) :
    ∀ c ∈ (injectTask env i goal w).owner.active, c.taskHash = env.sha256 c.goal := by
  unfold injectTask
  dsimp only
  split
  next =>
    intro c hc
    rcases List.mem_append.mp hc with hc | hc
    · exact hw c hc
    · rw [List.mem_singleton.mp hc]
  next => exact hw

theorem injectTask_queued (hcfg : cfg.maxAttempts.lt (.ofNat 1) = false)
    (hw : Queued env cfg w) (i : InjectInput) (goal : String) :
    Queued env cfg (injectTask env i goal w) := by
  have hkeeps : Keeps cfg w.claims (injectTask env i goal w).claims :=
    injectTask_keeps hcfg i goal w
  have hkept := hw.keeps hkeeps (injectTask_hashed hw.hashed i goal)
  rw [← injectTask_queue env i goal w] at hkept
  exact hkept

/-- An injection touches no other task. -/
theorem get_injectTask_ne (env : Env) (i : InjectInput) {goal h : String} (w : World)
    (hh : h ≠ env.sha256 goal) : (injectTask env i goal w).claims.get h = w.claims.get h := by
  have hregister := get_register w.claims i.registerNow (env.sha256 goal) h
    (some ("inject:" ++ env.preview goal))
  rw [if_neg hh] at hregister
  have hclaim : ((w.claims.register i.registerNow (env.sha256 goal)
      (some ("inject:" ++ env.preview goal))).tryClaim i.claimClock (env.sha256 goal)
      (env.uuid w.owner.issued) (some "orchestrator_inject")).1.get h = w.claims.get h := by
    rcases tryClaim_cases (w.claims.register i.registerNow (env.sha256 goal)
      (some ("inject:" ++ env.preview goal))) i.claimClock (env.sha256 goal)
      (env.uuid w.owner.issued) (some "orchestrator_inject") with ⟨heq, -⟩ | ⟨r, -, -, heq⟩
    · rw [heq, hregister]
    · rw [heq, get_move, if_neg hh, get_register, if_neg hh, hregister]
  unfold injectTask
  dsimp only
  split
  next => exact (get_transition_ne _ _ _ _ _ hh).trans hclaim
  next => exact hclaim

/-- An injection of a RetryQueued task takes it to Running. -/
theorem injectTask_retryQueued (env : Env) (i : InjectInput) {goal : String} {w : World}
    {r : ClaimRecord} (hr : w.claims.get (env.sha256 goal) = some r)
    (hst : r.state = .retryQueued) :
    ∃ r', (injectTask env i goal w).claims.get (env.sha256 goal) = some r' ∧
      r'.state = .running := by
  have hregister := get_register w.claims i.registerNow (env.sha256 goal) (env.sha256 goal)
    (some ("inject:" ++ env.preview goal))
  rw [if_pos rfl, hr, Option.getD_some] at hregister
  have hne := env.uuid_ne_empty w.owner.issued
  have hok : ((w.claims.register i.registerNow (env.sha256 goal)
      (some ("inject:" ++ env.preview goal))).tryClaim i.claimClock (env.sha256 goal)
      (env.uuid w.owner.issued) (some "orchestrator_inject")).2 = true := by
    rcases tryClaim_cases (w.claims.register i.registerNow (env.sha256 goal)
      (some ("inject:" ++ env.preview goal))) i.claimClock (env.sha256 goal)
      (env.uuid w.owner.issued) (some "orchestrator_inject") with
      ⟨-, r', hr', -, hno⟩ | ⟨r', -, -, heq⟩
    · rw [hregister, Option.some.injEq] at hr'
      exact absurd (hr' ▸ hst) hno
    · rw [heq]
  obtain ⟨-, ⟨r₁, hr₁, hst₁, -⟩, -⟩ := tryClaim_succeeds hne hok
  obtain ⟨r₂, hr₂, hst₂, -⟩ := markRunning_of_claimed i.runningNow hne hr₁ hst₁
  unfold injectTask
  dsimp only
  rw [if_pos hok]
  exact ⟨r₂, hr₂, hst₂⟩

/-! ## Cycles -/

/-- What neither the ledger nor the queue sees. -/
theorem Queued.own (hw : Queued env cfg w) {owner : Orchestrator}
    (howner : ∀ c ∈ owner.active, c.taskHash = env.sha256 c.goal) :
    Queued env cfg { w with owner := owner } :=
  hw.keeps (.refl cfg w.claims) howner

theorem Queued.releaseWorkspace (hw : Queued env cfg w) (c : Cycle) :
    Queued env cfg (w.releaseWorkspace c) := by
  unfold World.releaseWorkspace
  split
  next => exact hw
  next => exact hw.own hw.hashed

theorem Queued.settle (hw : Queued env cfg w) (c : Cycle) (o : Outcome) :
    Queued env cfg (w.settle c o) :=
  hw.own fun d hd => hw.hashed d (List.mem_of_mem_filter hd)

theorem Queued.suspend (hw : Queued env cfg w) (c : Cycle) (stage : Stage) :
    Queued env cfg (w.suspend c stage) := by
  refine hw.own ?_
  intro d hd
  obtain ⟨e, he, rfl⟩ := List.mem_map.mp hd
  split
  next => exact hw.hashed e he
  next => exact hw.hashed e he

theorem Queued.releaseClaim (hw : Queued env cfg w) (clock : Clock) (c : Cycle)
    (reason : String) : Queued env cfg (w.releaseClaim clock c reason) :=
  hw.keeps (keeps_release w.claims (clock 0) c.taskHash reason) hw.hashed

theorem Queued.reportFailure (hw : Queued env cfg w) (clock : Clock) {c : Cycle}
    (hc : c.taskHash = env.sha256 c.goal) (reason : String) :
    Queued env cfg (w.reportFailure clock c reason) := by
  have hreport := reportGoal_queued hw clock c.goal reason
  rw [reportGoal, ← hc] at hreport
  exact hreport.own hw.hashed

theorem resume_queued (hw : Queued env cfg w) (clock : Clock) {c : Cycle}
    (hc : c.taskHash = env.sha256 c.goal) (wake : Wake) {w' : World}
    (hstep : resumeCycle clock c wake w = some w') : Queued env cfg w' := by
  have habort : ∀ reason message, Queued env cfg (abortCycle clock c reason message w) :=
    fun reason message => ((hw.releaseWorkspace c).releaseClaim clock c reason).settle c _
  unfold resumeCycle at hstep
  split at hstep
  next =>
    rw [Option.some.injEq] at hstep
    rw [← hstep]
    split
    next => exact habort _ _
    next => exact hw.suspend c _
  next =>
    rw [Option.some.injEq] at hstep
    rw [← hstep]
    split
    next => exact habort _ _
    next => exact hw.suspend c _
  next =>
    rw [Option.some.injEq] at hstep
    exact hstep ▸ hw.suspend c _
  next message _ =>
    rw [Option.some.injEq] at hstep
    rw [← hstep]
    exact ((hw.reportFailure clock hc _).releaseWorkspace c).settle c _
  next receipt _ _ =>
    -- the claim is released or its failure reported, and the cycle goes on
    have hclaim : Queued env cfg
        (if receipt.status = .verified then w.releaseClaim clock c "cycle_succeeded"
          else w.reportFailure clock c ("cycle_failed:" ++ receipt.id)) := by
      split
      next => exact hw.releaseClaim clock c _
      next => exact hw.reportFailure clock hc _
    rw [Option.some.injEq] at hstep
    rw [← hstep]
    split
    next => exact hclaim.suspend c _
    next => exact hclaim.settle c _
  next =>
    rw [Option.some.injEq] at hstep
    rw [← hstep]
    exact (hw.releaseWorkspace c).settle c _
  next =>
    rw [Option.some.injEq] at hstep
    exact hstep ▸ hw.settle c _
  next => exact nomatch hstep

/-! ## Sweeps -/

/-- A sweep first forgets the tasks that no longer wait. -/
theorem Queued.forgetStale (hw : Queued env cfg w) :
    Queued env cfg { w with queue := w.queue.forgetStale w.claims } where
  config := hw.config
  logged := hw.logged
  bounded := hw.bounded
  hashed := hw.hashed
  waiting h r hr hst := by
    obtain ⟨hstamp, p, hp, hgoal⟩ := hw.waiting h r hr hst
    refine ⟨hstamp, p, ?_, hgoal⟩
    rw [RetryQueue.forgetStale, OrderedMap.get?_filter, hp, Option.filter_some, hr]
    exact if_pos (decide_eq_true hst)
  scheduled h p hp := by
    rw [RetryQueue.forgetStale, OrderedMap.get?_filter, Option.filter_eq_some_iff] at hp
    exact hw.scheduled h p hp.1
  once := hw.once

/-- The loop body on a task that waits: its open schedule is dispatched, and
the dispatch takes it to Running. -/
theorem sweepRecord_dispatches (hcfg : cfg.maxAttempts.lt (.ofNat 1) = false)
    (hw : Queued env cfg w) (clock : String → Int) (inputs : String → InjectInput)
    {r : ClaimRecord} (hr : w.claims.get r.taskHash = some r) (hst : r.state = .retryQueued) :
    let w' := sweepRecord clock (fun h goal => injectTask env (inputs h) goal) w r
    Queued env cfg w' ∧ (∀ h, h ≠ r.taskHash → w'.claims.get h = w.claims.get h) ∧
      (∃ r', w'.claims.get r.taskHash = some r' ∧ r'.state = .running) ∧
      ∃ d, d.taskHash = r.taskHash ∧ w'.queue.events = w.queue.events ++ [.retryDispatching d] := by
  obtain ⟨-, p, hp, hgoal⟩ := hw.waiting r.taskHash r hr hst
  have hopen := hw.scheduled r.taskHash p hp
  have hd := openSchedule_hash hopen
  let u : World :=
    { w with
      queue := { w.queue with pending := w.queue.pending.delete r.taskHash }.emit
        (.retryDispatching p.dispatch) }
  have hsweep : sweepRecord clock (fun h goal => injectTask env (inputs h) goal) w r
      = injectTask env (inputs r.taskHash) p.goal u := by
    rw [sweepRecord, hp]
  have hqueue := injectTask_queue env (inputs r.taskHash) p.goal u
  have hkeeps : Keeps cfg w.claims (injectTask env (inputs r.taskHash) p.goal u).claims :=
    injectTask_keeps hcfg (inputs r.taskHash) p.goal u
  obtain ⟨r', hr', hrun⟩ := injectTask_retryQueued env (inputs r.taskHash) (w := u)
    (hgoal.symm ▸ hr) hst
  rw [hgoal] at hr'
  have hother : ∀ h, h ≠ r.taskHash →
      (injectTask env (inputs r.taskHash) p.goal u).claims.get h = w.claims.get h :=
    fun h hh => get_injectTask_ne env (inputs r.taskHash) u (hgoal.symm ▸ hh)
  simp only [hsweep]
  refine ⟨?_, hother, ⟨r', hr', hrun⟩, p.dispatch, hd, by rw [hqueue]; rfl⟩
  refine ⟨by rw [hqueue]; exact hw.config, hkeeps.logged hw.logged, hkeeps.bounded hw.bounded,
    injectTask_hashed (w := u) hw.hashed _ _, ?_, ?_, ?_⟩
  · intro h s hs hsst
    have hh : h ≠ r.taskHash := by
      intro heq
      obtain rfl := heq
      rw [hr', Option.some.injEq] at hs
      rw [← hs, hrun] at hsst
      exact nomatch hsst
    obtain ⟨hstamp, q, hq, hqgoal⟩ := hw.waiting h s (hkeeps.retries h s hs hsst) hsst
    rw [hqueue]
    exact ⟨hstamp, q, (OrderedMap.get?_delete_ne _ hh).trans hq, hqgoal⟩
  · intro h q hq
    rw [hqueue] at hq ⊢
    obtain ⟨hh, hq⟩ := OrderedMap.get?_delete_some hq
    have hne : p.dispatch.taskHash ≠ h := fun he => hh (he.symm.trans hd)
    exact (openSchedule_append ..).trans ((if_neg hne).trans (hw.scheduled h q hq))
  · rw [hqueue]
    refine oncePerSchedule_append hw.once ?_
    intro d hdispatch
    rw [RetryEvent.retryDispatching.injEq] at hdispatch
    rw [← hdispatch, hd]
    exact hopen

/-- The loop of a sweep over tasks that wait dispatches each of them. -/
theorem sweepLoop_dispatches (hcfg : cfg.maxAttempts.lt (.ofNat 1) = false)
    (clock : String → Int) (inputs : String → InjectInput) :
    ∀ (rs : List ClaimRecord) {w : World}, Queued env cfg w →
      (rs.map ClaimRecord.taskHash).Nodup →
      (∀ r ∈ rs, w.claims.get r.taskHash = some r ∧ r.state = .retryQueued) →
      let w' := rs.foldl (sweepRecord clock fun h goal => injectTask env (inputs h) goal) w
      Queued env cfg w' ∧
        (∀ h, h ∉ rs.map ClaimRecord.taskHash → w'.claims.get h = w.claims.get h) ∧
        (∀ r ∈ rs, ∃ r', w'.claims.get r.taskHash = some r' ∧ r'.state = .running) ∧
        ∃ ds : List RetryDispatch, ds.map RetryDispatch.taskHash = rs.map ClaimRecord.taskHash ∧
          w'.queue.events = w.queue.events ++ ds.map .retryDispatching := by
  intro rs
  induction rs with
  | nil =>
    intro w hw _ _
    exact ⟨hw, fun _ _ => rfl, fun r hr => absurd hr List.not_mem_nil, [], rfl,
      (List.append_nil _).symm⟩
  | cons r rs ih =>
    intro w hw hnd hrs
    rw [List.map_cons, List.nodup_cons] at hnd
    obtain ⟨hr, hst⟩ := hrs r (List.mem_cons_self ..)
    obtain ⟨hv, hother, ⟨r₁, hr₁, hrun₁⟩, d, hd, hevents⟩ :=
      sweepRecord_dispatches hcfg hw clock inputs hr hst
    have hrest : ∀ u ∈ rs, (sweepRecord clock (fun h goal => injectTask env (inputs h) goal) w
        r).claims.get u.taskHash = some u ∧ u.state = .retryQueued := by
      intro u hu
      have hne : u.taskHash ≠ r.taskHash := fun he => hnd.1 (he ▸ List.mem_map_of_mem hu)
      obtain ⟨hu', hust⟩ := hrs u (List.mem_cons_of_mem _ hu)
      exact ⟨(hother _ hne).trans hu', hust⟩
    obtain ⟨hw', hout, hin, ds, hds, hevents'⟩ := ih hv hnd.2 hrest
    refine ⟨hw', ?_, ?_, d :: ds, ?_, ?_⟩
    · intro h hh
      rw [List.map_cons, List.mem_cons, not_or] at hh
      exact (hout h hh.2).trans (hother h hh.1)
    · intro u hu
      rcases List.mem_cons.mp hu with rfl | hu
      · -- the tasks that follow have other hashes
        exact ⟨r₁, (hout _ hnd.1).trans hr₁, hrun₁⟩
      · exact hin u hu
    · rw [List.map_cons, List.map_cons, hd, hds]
    · rw [List.foldl_cons, hevents', hevents, List.append_assoc, List.map_cons,
        List.singleton_append]

/-- What a sweep at `now` promises: it dispatches the tasks that are due, each
once, and leaves none of them waiting. -/
structure SweepDispatches (now : Int) (w w' : World) : Prop where
  dispatched : ∃ ds : List RetryDispatch,
    w'.queue.events = w.queue.events ++ ds.map .retryDispatching ∧
    (ds.map RetryDispatch.taskHash).Nodup ∧
    (∀ d ∈ ds, ∃ r t, w.claims.get d.taskHash = some r ∧ r.state = .retryQueued ∧
      r.retryAfter = some t ∧ t.le (.ofInt now) = true) ∧
    ∀ r ∈ w.claims.dueForRetry now, r.taskHash ∈ ds.map RetryDispatch.taskHash
  noneLeft : w'.claims.dueForRetry now = []

theorem mem_dueForRetry {m : TaskClaimMachine} {now : Int} {r : ClaimRecord} :
    r ∈ m.dueForRetry now ↔ (∃ h, m.get h = some r) ∧ r.state = .retryQueued ∧
      (r.retryAfter.getD (Number.ofInt 0)).le (.ofInt now) = true := by
  rw [dueForRetry, List.mem_filter, Bool.and_eq_true, decide_eq_true_eq]
  exact and_congr_left fun _ => m.ledger.mem_values_iff r

theorem sweep_queued (hcfg : cfg.maxAttempts.lt (.ofNat 1) = false) (hw : Queued env cfg w)
    (now : Int) (clock : String → Int) (inputs : String → InjectInput) :
    let w' := RetryQueue.sweep now clock (some fun h goal => injectTask env (inputs h) goal) w
    Queued env cfg w' ∧ SweepDispatches now w w' := by
  have hfiled : ∀ h r, w.claims.get h = some r → r.taskHash = h :=
    fun h r hr => (hw.logged.of_some hr).1
  have hdue : ∀ r ∈ w.claims.dueForRetry now,
      w.claims.get r.taskHash = some r ∧ r.state = .retryQueued := by
    intro r hr
    obtain ⟨⟨h, hget⟩, hst, -⟩ := mem_dueForRetry.mp hr
    exact ⟨(hfiled h r hget).symm ▸ hget, hst⟩
  have hnd : ((w.claims.dueForRetry now).map ClaimRecord.taskHash).Nodup :=
    (w.claims.ledger.values_key_nodup ClaimRecord.taskHash hfiled).sublist
      (List.filter_sublist.map ClaimRecord.taskHash)
  obtain ⟨hw', hout, hin, ds, hds, hevents⟩ :=
    sweepLoop_dispatches hcfg clock inputs (w.claims.dueForRetry now) hw.forgetStale hnd hdue
  refine ⟨hw', ⟨⟨ds, hevents, hds ▸ hnd, ?_, ?_⟩, ?_⟩⟩
  · intro d hd
    have hmem := List.mem_map_of_mem (f := RetryDispatch.taskHash) hd
    rw [hds] at hmem
    obtain ⟨r, hr, hhash⟩ := List.mem_map.mp hmem
    obtain ⟨hget, hst⟩ := hdue r hr
    obtain ⟨⟨t, ht⟩, -⟩ := hw.waiting _ r hget hst
    have htime := (mem_dueForRetry.mp hr).2.2
    rw [ht, Option.getD_some] at htime
    exact ⟨r, t, hhash ▸ hget, hst, ht, htime⟩
  · intro r hr
    rw [hds]
    exact List.mem_map_of_mem hr
  · rw [List.eq_nil_iff_forall_not_mem]
    intro r hr
    obtain ⟨⟨h, hget⟩, hst, htime⟩ := mem_dueForRetry.mp hr
    by_cases hh : h ∈ (w.claims.dueForRetry now).map ClaimRecord.taskHash
    · obtain ⟨u, hu, rfl⟩ := List.mem_map.mp hh
      obtain ⟨r', hr', hrun⟩ := hin u hu
      have hsame := Option.some.inj (hr'.symm.trans hget)
      rw [← hsame, hrun] at hst
      exact nomatch hst
    · -- a task that was not due before is as it was
      have hold := (hout h hh).symm.trans hget
      have hmem := mem_dueForRetry.mpr ⟨⟨h, hold⟩, hst, htime⟩
      exact hh ((hfiled h r hold) ▸ List.mem_map_of_mem hmem)

/-! ## Runs -/

theorem init_queued (env : Env) (cfg : RetryConfig) : Queued env cfg (World.init cfg) where
  config := rfl
  logged := logged_init
  bounded _ _ hr := nomatch hr
  hashed _ hc := absurd hc List.not_mem_nil
  waiting _ _ hr := nomatch hr
  scheduled _ _ hp := nomatch hp
  once pre d post heq := absurd heq (by simp [World.init, RetryQueue.init])

/-- One move keeps the ledger and the queue together. -/
theorem move_queued (hcfg : cfg.maxAttempts.lt (.ofNat 1) = false)
    {rcfg : Reconciler.ReconcilerConfig} {move : Move} {w' : World} (hw : Queued env cfg w)
    (hstep : (retries env rcfg cfg).step w move = some w') : Queued env cfg w' := by
  cases move with
  | enqueueFailure clock goal reason =>
    rw [retries, Option.some.injEq] at hstep
    exact hstep ▸ reportGoal_queued hw clock goal reason
  | turn t =>
    cases t with
    | updateRetryConfig patch => exact nomatch hstep
    | inject i goal =>
      rw [retries, mesh, Option.some.injEq] at hstep
      exact hstep ▸ injectTask_queued hcfg hw i goal
    | resume clock cycleId wake =>
      obtain ⟨c, hc, hresume⟩ := Option.bind_eq_some_iff.mp hstep
      exact resume_queued hw clock (hw.hashed c (List.mem_of_find?_eq_some hc)) wake hresume
    | retrySweep now clock inputs =>
      rw [retries, mesh, Option.some.injEq] at hstep
      exact hstep ▸ (sweep_queued hcfg hw now clock inputs).1
    | reconcile now clock =>
      rw [retries, mesh, Option.some.injEq] at hstep
      exact hstep ▸ hw.keeps (keeps_reconcile rcfg now clock hw.logged) hw.hashed

/-- The constructor rejects a bound that no first attempt is within. -/
theorem construct_maxAttempts {patch : RetryConfigPatch} {q : RetryQueue}
    (hq : RetryQueue.construct patch = .ok q) : q.cfg.maxAttempts.lt (.ofNat 1) = false := by
  rw [RetryQueue.construct] at hq
  split at hq
  next => exact nomatch hq
  next hmax =>
    split at hq
    next => exact nomatch hq
    next =>
      split at hq
      next => exact nomatch hq
      next =>
        rw [Except.ok.injEq] at hq
        rw [← hq]
        exact Bool.not_eq_true _ ▸ hmax

/-- In every state that a run reaches under a configuration that the constructor
accepts: a RetryQueued record has a pending entry for a goal with its hash, every
dispatch so far was that of a schedule not dispatched before, a sweep dispatches
what is due, each task once, and no record is beyond the attempts allowed. -/
theorem retry_runs (env : Env) (rcfg : Reconciler.ReconcilerConfig) (patch : RetryConfigPatch)
    (q : RetryQueue) (hq : RetryQueue.construct patch = .ok q) (moves : List Move) (w : World)
    (hrun : (retries env rcfg q.cfg).exec (World.init q.cfg) moves = some w) :
    (∀ h r, w.claims.get h = some r → r.state = .retryQueued →
      ∃ p, w.queue.pending.get? h = some p ∧ env.sha256 p.goal = r.taskHash) ∧
    OncePerSchedule w.queue.events ∧
    (∀ now clock inputs w',
      (retries env rcfg q.cfg).step w (.turn (.retrySweep now clock inputs)) = some w' →
      SweepDispatches now w w') ∧
    ∀ h r, w.claims.get h = some r → q.cfg.maxAttempts.lt (.ofNat r.attempt) = false := by
  have hcfg := construct_maxAttempts hq
  have hw : Queued env q.cfg w := Lts.reachable_invariant (M := retries env rcfg q.cfg)
    (init_queued env q.cfg) (fun _ _ _ => move_queued hcfg) ⟨moves, hrun⟩
  refine ⟨?_, hw.once, ?_, fun h r hr => (hw.bounded h r hr).1⟩
  · intro h r hr hst
    obtain ⟨-, p, hp, hgoal⟩ := hw.waiting h r hr hst
    exact ⟨p, hp, hgoal.trans (hw.logged.of_some hr).1.symm⟩
  · intro now clock inputs w' hstep
    rw [retries, mesh, Option.some.injEq] at hstep
    exact hstep ▸ (sweep_queued hcfg hw now clock inputs).2

/-- A task whose execution throws is retried when its time has come. -/
def retriedOnce : List Move :=
  [.turn (.inject (sampleInput 0) "ship it"),
   .turn (.resume (fun _ => 0) (sampleEnv.uuid 0) (.hooksRan [])),
   .turn (.resume (fun _ => 0) (sampleEnv.uuid 0) (.hooksRan [])),
   .turn (.resume (fun _ => 0) (sampleEnv.uuid 0) (.execThrew "timeout")),
   .turn (.retrySweep 2000 (fun _ => 2000) fun _ => sampleInput 2000)]

/-- The queue that the constructor builds when nothing is set. -/
theorem construct_default :
    RetryQueue.construct ⟨none, none, none, none⟩ = .ok (.init defaultRetryConfig) := by
  have hmax : defaultRetryConfig.maxAttempts.lt (.ofNat 1) = false := by decide +kernel
  have hbase : defaultRetryConfig.baseMs.le (.ofNat 0) = false := by decide +kernel
  have hfactor : defaultRetryConfig.factor.lt (.ofNat 1) = false := by decide +kernel
  have hcfg : defaultRetryConfig.patch ⟨none, none, none, none⟩ = defaultRetryConfig := rfl
  rw [RetryQueue.construct, hcfg]
  simp only [hmax, hbase, hfactor, Bool.false_eq_true, if_false]

theorem retried_once_runs :
    ∃ w, (retries sampleEnv Reconciler.defaultConfig defaultRetryConfig).exec
        (World.init defaultRetryConfig) retriedOnce = some w ∧
      OncePerSchedule w.queue.events ∧
      ∀ h r, w.claims.get h = some r →
        defaultRetryConfig.maxAttempts.lt (.ofNat r.attempt) = false := by
  obtain ⟨w, hw⟩ := Option.isSome_iff_exists.mp
    (show ((retries sampleEnv Reconciler.defaultConfig defaultRetryConfig).exec
      (World.init defaultRetryConfig) retriedOnce).isSome = true by decide +kernel)
  obtain ⟨-, honce, -, hbounded⟩ := retry_runs sampleEnv Reconciler.defaultConfig
    ⟨none, none, none, none⟩ (.init defaultRetryConfig) construct_default retriedOnce w hw
  exact ⟨w, hw, honce, hbounded⟩

end Kovael.Mesh
