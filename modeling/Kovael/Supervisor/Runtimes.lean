import Kovael.Js.Number
import Kovael.Js.OrderedMap
import Kovael.Lts

/-!
# `AgentRuntimeSupervisor`: one child process per agent

`src/services/AgentRuntimeSupervisor.ts`: the records, the children that were
spawned for them, the timers, and every way in which one of them moves.

Mirroring notes vs the TS class:
- A record is only changed under its own agent, and the callbacks of a child
  hold the record it was spawned for. So each method that works on one record is
  a function of that record and of the `World` around it, and the supervisor
  files the result under the agent.
- A child is the number it was spawned as; `exited` and `errored` say that its
  'exit' or 'error' was emitted (both listeners are `once`), `signals` what
  `kill` sent it. `kill` may emit one of the two before it returns.
- A timer is armed while it is in `timers`; whether and when it fires is up to
  the run, so the timeouts themselves are not modelled.
- `RecordHost` is what comes from outside while one record is worked on: the
  readings of `Date.now()`, whether `spawn` throws, how `kill` reacts. What
  `inspectHub` reads is an argument of the request that reads it.
- The arguments and the environment of a child, its stderr, the log and the
  status that a request returns are not modelled. `redactSensitiveText` is a
  parameter.

`log` is what was asked of each agent and what failed, in order; no method
reads it.
-/

namespace Kovael.Supervisor

open Js (OrderedMap Clock)

/-! ## Records, children and timers -/

inductive AgentRuntimeLifecycleState where
  | disabled
  | stopped
  | starting
  | running
  | stopping
  | exited
  | failed
  deriving DecidableEq, Repr

inductive AgentRuntimeDesiredState where
  | running
  | stopped
  deriving DecidableEq, Repr

structure ManagedRuntime where
  child : Nat
  generation : Nat
  deriving DecidableEq, Repr

structure RuntimeRecord where
  desiredState : AgentRuntimeDesiredState
  state : AgentRuntimeLifecycleState
  managed : Option ManagedRuntime
  generation : Nat
  startedAt : Option Int
  stoppingAt : Option Int
  exitedAt : Option Int
  exitCode : Option Int
  exitSignal : Option String
  lastError : Option String
  lastReason : Option String
  stopTimer : Option Nat
  deriving DecidableEq, Repr

inductive Signal where
  | sigterm
  | sigkill
  deriving DecidableEq, Repr

structure Child where
  agentId : String
  generation : Nat
  host : String
  exited : Bool
  errored : Bool
  signals : List Signal
  /-- the timers that its exit clears -/
  exitTimers : List Nat
  deriving DecidableEq, Repr

/-- The callback of a timer. -/
inductive Timer where
  /-- of `armStopTimer` -/
  | stop (agentId : String) (managed : ManagedRuntime)
  /-- of `detachAndTerminate` -/
  | kill (agentId : String) (child : Nat)
  deriving DecidableEq, Repr

def Timer.agentId : Timer → String
  | .stop agentId _ | .kill agentId _ => agentId

def Timer.child : Timer → Nat
  | .stop _ managed => managed.child
  | .kill _ child => child

/-- What was asked of an agent, and what failed. -/
inductive Entry where
  /-- an accepted `start()`, `startAgent` or `restartAgent` -/
  | start (agentId : String)
  /-- an accepted `stop()` or `stopAgent` -/
  | stop (agentId : String)
  /-- a spawn was blocked, threw, or was reported as failed by its child -/
  | spawnFailed (agentId : String)
  /-- a child exited that nothing had told to stop -/
  | exitedAlone (agentId : String)
  deriving DecidableEq, Repr

def Entry.agentId : Entry → String
  | .start agentId | .stop agentId | .spawnFailed agentId | .exitedAlone agentId => agentId

/-- Everything that the records share. -/
structure World where
  children : OrderedMap Nat Child
  nextChild : Nat
  timers : OrderedMap Nat Timer
  nextTimer : Nat
  log : List Entry

/-- What the constructor fixes. -/
structure SupervisorConfig where
  enabled : Bool
  /-- `startupBlocker` with `startupBlockerMessage` -/
  startupBlocker : Option (String × String)
  hostOverride : Option String
  agents : List String
  redactSensitiveText : String → String

structure AgentRuntimeSupervisor where
  orchestratorPort : Option Nat
  records : OrderedMap String RuntimeRecord
  world : World

/-- How a call of `kill` reacts before it returns. -/
inductive KillReaction where
  | quiet
  | exits (code : Option Int) (signal : Option String)
  | errors (err : String)
  deriving DecidableEq, Repr

/-- What comes from outside while one record is worked on. -/
structure RecordHost where
  now : Clock
  /-- the error that `spawn` throws -/
  spawnThrows : Option String
  kill : KillReaction

/-! ## World -/

/-- Log an entry. -/
def World.note (w : World) (entry : Entry) : World := { w with log := w.log ++ [entry] }

/-- Rewrite a child, if there is one. -/
def World.onChild (w : World) (child : Nat) (f : Child → Child) : World :=
  { w with children := w.children.modify child f }

/-- `clearTimeout(timer)`. -/
def World.clearTimeout (w : World) (timer : Nat) : World :=
  { w with timers := w.timers.delete timer }

/-- `setTimeout(callback, …)`. -/
def World.setTimeout (w : World) (callback : Timer) : World :=
  { w with timers := w.timers.set w.nextTimer callback, nextTimer := w.nextTimer + 1 }

/-- A child that `spawn` returned. -/
def World.spawn (w : World) (agentId : String) (generation : Nat) (host : String) : World :=
  { w with
    children := w.children.set w.nextChild
      { agentId, generation, host, exited := false, errored := false, signals := [],
        exitTimers := [] }
    nextChild := w.nextChild + 1 }

/-- The child has been sent SIGTERM. -/
def World.told (w : World) (child : Nat) : Bool :=
  (w.children.get? child).any fun c => c.signals.contains .sigterm

/-! ## Methods on one record -/

variable (cfg : SupervisorConfig) (host : RecordHost) (agentId : String)

/-- `clearStopTimer(record)`. -/
def clearStopTimer (record : RuntimeRecord) (w : World) : RuntimeRecord × World :=
  match record.stopTimer with
  | none => (record, w)
  | some timer => ({ record with stopTimer := none }, w.clearTimeout timer)

/-- `armStopTimer(record, managed, timeoutMs)`. -/
def armStopTimer (managed : ManagedRuntime) (record : RuntimeRecord) (w : World) :
    RuntimeRecord × World :=
  let (record, w) := clearStopTimer record w
  ({ record with stopTimer := some w.nextTimer }, w.setTimeout (.stop agentId managed))

/-- `handleExit(record, child, generation, code, signal)`. -/
def handleExit (managed : ManagedRuntime) (code : Option Int) (signal : Option String) (now : Int)
    (record : RuntimeRecord) (w : World) : RuntimeRecord × World :=
  if record.managed ≠ some managed then (record, w)
  else
    let (record, w) := clearStopTimer record w
    ({ record with
        managed := none
        exitedAt := some now
        exitCode := code
        exitSignal := signal
        state := if record.desiredState = .stopped ∨ record.state = .stopping then .stopped
          else .exited },
      if w.told managed.child then w else w.note (.exitedAlone agentId))

/-- `handleError(record, child, generation, err)`. -/
def handleError (managed : ManagedRuntime) (err : String) (now : Int)
    (record : RuntimeRecord) (w : World) : RuntimeRecord × World :=
  if record.managed ≠ some managed then (record, w)
  else
    let (record, w) := clearStopTimer record w
    ({ record with
        managed := none
        exitedAt := some now
        exitCode := none
        exitSignal := none
        state := .failed
        lastError := some (cfg.redactSensitiveText err) },
      if w.told managed.child then w else w.note (.spawnFailed agentId))

/-- `child` emits 'exit': the listener of `spawnRecord`, then those of
`detachAndTerminate`. -/
def emitExit (child : Nat) (code : Option Int) (signal : Option String) (now : Int)
    (record : RuntimeRecord) (w : World) : RuntimeRecord × World :=
  match w.children.get? child with
  | none => (record, w)
  | some c =>
    if c.exited then (record, w)
    else
      let (record, w) := handleExit agentId ⟨child, c.generation⟩ code signal now record
        (w.onChild child fun c => { c with exited := true })
      (record, c.exitTimers.foldl World.clearTimeout w)

/-- `child` emits 'error'. -/
def emitError (child : Nat) (err : String) (now : Int) (record : RuntimeRecord) (w : World) :
    RuntimeRecord × World :=
  match w.children.get? child with
  | none => (record, w)
  | some c =>
    if c.errored then (record, w)
    else
      handleError cfg agentId ⟨child, c.generation⟩ err now record
        (w.onChild child fun c => { c with errored := true })

/-- `child.kill(signal)`. -/
def kill (child : Nat) (signal : Signal) (now : Int) (record : RuntimeRecord) (w : World) :
    RuntimeRecord × World :=
  let w := w.onChild child fun c => { c with signals := c.signals ++ [signal] }
  match host.kill with
  | .quiet => (record, w)
  | .exits code exitSignal => emitExit agentId child code exitSignal now record w
  | .errors err => emitError cfg agentId child err now record w

/-- What a spawn resets. -/
def RuntimeRecord.starting (record : RuntimeRecord) (reason : String) : RuntimeRecord :=
  { record with
    generation := record.generation + 1
    state := .starting
    startedAt := none
    stoppingAt := none
    exitedAt := none
    exitCode := none
    exitSignal := none
    lastError := none
    lastReason := some reason }

/-- `spawnRecord(record, orchestratorPort, reason)`; `now` is what it reads. -/
def spawnRecord (now : Int) (orchestratorPort : Nat) (reason : String) (record : RuntimeRecord)
    (w : World) : RuntimeRecord × World :=
  if !cfg.enabled || record.managed.isSome then (record, w)
  else match cfg.startupBlocker with
    | some (_, startupBlockerMessage) =>
      ({ record with
          state := .failed
          exitedAt := some now
          lastError := some startupBlockerMessage },
        w.note (.spawnFailed agentId))
    | none =>
      let host' := cfg.hostOverride.getD ("http://127.0.0.1:" ++ toString orchestratorPort)
      let (record, w) := clearStopTimer (record.starting reason) w
      match host.spawnThrows with
      | some err =>
        ({ record with
            managed := none
            state := .failed
            exitedAt := some now
            lastError := some (cfg.redactSensitiveText err) },
          w.note (.spawnFailed agentId))
      | none =>
        ({ record with
            managed := some ⟨w.nextChild, record.generation⟩
            state := .running
            startedAt := some now },
          w.spawn agentId record.generation host')

/-- A sticky stop is remembered. -/
def RuntimeRecord.stick (record : RuntimeRecord) (sticky : Bool) : RuntimeRecord :=
  { record with desiredState := if sticky then .stopped else record.desiredState }

/-- A record whose child is about to be told to stop. -/
def RuntimeRecord.stopping (record : RuntimeRecord) (reason : String) (now : Int) :
    RuntimeRecord :=
  { record with
    state := .stopping
    stoppingAt := some now
    lastReason := some reason }

/-- `stopRecord(record, { reason, sticky })`. -/
def stopRecord (reason : String) (sticky : Bool) (record : RuntimeRecord) (w : World) :
    RuntimeRecord × World :=
  let record := record.stick sticky
  match record.managed with
  | none =>
    ({ record with
        state := if record.state ≠ .disabled ∧ sticky then .stopped else record.state
        lastReason := some reason }, w)
  | some managed =>
    let (record, w) := kill cfg host agentId managed.child .sigterm (host.now 1)
      (record.stopping reason (host.now 0)) w
    -- `kill` may have ended the child, and with it the reason for a timer
    if record.managed.map ManagedRuntime.generation = some managed.generation then
      armStopTimer agentId managed record w
    else (record, w)

/-- A record that let go of its child. -/
def RuntimeRecord.detached (record : RuntimeRecord) (now : Int) : RuntimeRecord :=
  { record with managed := none, stoppingAt := some now }

/-- `detachAndTerminate(record, reason, timeoutMs)`. -/
def detachAndTerminate (record : RuntimeRecord) (w : World) : RuntimeRecord × World :=
  match record.managed with
  | none => (record, w)
  | some managed =>
    let (record, w) := clearStopTimer record w
    let (record, w) := kill cfg host agentId managed.child .sigterm (host.now 1)
      (record.detached (host.now 0)) w
    (record, (w.onChild managed.child fun c =>
      { c with exitTimers := c.exitTimers ++ [w.nextTimer] }).setTimeout
        (.kill agentId managed.child))

/-! ## Requests -/

/-- Work on one record. -/
def AgentRuntimeSupervisor.onRecord (s : AgentRuntimeSupervisor) (agentId : String)
    (f : RuntimeRecord → World → RuntimeRecord × World) : AgentRuntimeSupervisor :=
  match s.records.get? agentId with
  | none => s
  | some record =>
    { s with
      records := s.records.set agentId (f record s.world).1
      world := (f record s.world).2 }

/-- `busyWork(record)`. -/
structure BusyWork where
  accepted : Nat
  running : Nat
  deriving DecidableEq, Repr

/-- What a request answers, its status aside. -/
structure AgentRuntimeControlResult where
  accepted : Bool
  changed : Bool
  statusCode : Nat
  error : Option String
  busy : Option BusyWork
  deriving DecidableEq, Repr

/-- `controlError(action, error, statusCode, record)`. -/
def controlError (error : String) (statusCode : Nat) : AgentRuntimeControlResult :=
  ⟨false, false, statusCode, some error, none⟩

/-- The answer to a request that work in hand refuses. -/
def busyError (busy : BusyWork) : AgentRuntimeControlResult :=
  ⟨false, false, 409, some "agent_runtime_busy", some busy⟩

/-- The options of a request. -/
structure AgentRuntimeControlOptions where
  reason : Option String
  force : Bool
  sticky : Option Bool

/-- The record has a child, and its hub has work that the request may not cut
short. -/
def refusesBusy (options : AgentRuntimeControlOptions) (busy : BusyWork) (record : RuntimeRecord) :
    Bool :=
  record.managed.isSome && !options.force && (0 < busy.accepted || 0 < busy.running)

/-- `start()` on one record. -/
def startRecord (orchestratorPort : Nat) (reason : String) (record : RuntimeRecord) (w : World) :
    RuntimeRecord × World :=
  if record.desiredState ≠ .running then (record, w)
  else spawnRecord cfg host agentId (host.now 0) orchestratorPort reason record
    (w.note (.start agentId))

/-- `start(orchestratorPort, reason)`; `hosts` is what each record meets. -/
def start (hosts : String → RecordHost) (orchestratorPort : Nat) (reason : String)
    (s : AgentRuntimeSupervisor) : AgentRuntimeSupervisor :=
  let s := { s with orchestratorPort := some orchestratorPort }
  if !cfg.enabled then s
  else (s.records.entries.map Prod.fst).foldl
    (fun s agentId =>
      s.onRecord agentId (startRecord cfg (hosts agentId) agentId orchestratorPort reason)) s

/-- `stop(reason)`. -/
def stop (hosts : String → RecordHost) (reason : String) (s : AgentRuntimeSupervisor) :
    AgentRuntimeSupervisor :=
  (s.records.entries.map Prod.fst).foldl
    (fun s agentId =>
      s.onRecord agentId fun record w =>
        stopRecord cfg (hosts agentId) agentId reason (reason ≠ "resource_idle") record
          (w.note (.stop agentId))) s

/-- `const port = orchestratorPort ?? this.orchestratorPort; if (port !== null …)`. -/
def AgentRuntimeSupervisor.withPort (s : AgentRuntimeSupervisor) (orchestratorPort : Option Nat) :
    AgentRuntimeSupervisor :=
  { s with orchestratorPort := orchestratorPort.or s.orchestratorPort }

/-- `startAgent(agentId, orchestratorPort, { reason })`. -/
def startAgent (orchestratorPort : Option Nat) (reason : Option String)
    (s : AgentRuntimeSupervisor) : AgentRuntimeSupervisor × AgentRuntimeControlResult :=
  match s.records.get? agentId with
  | none => (s, controlError "unknown_agent_runtime" 404)
  | some record =>
    if !cfg.enabled then (s, controlError "agent_runtime_disabled" 409)
    else match cfg.startupBlocker with
      | some (startupBlocker, _) => (s, controlError startupBlocker 409)
      | none =>
        let s := s.withPort orchestratorPort
        -- a managed child, whatever it is up to, makes the request a success
        if record.managed.isSome then
          (s.onRecord agentId fun record w =>
            ({ record with desiredState := .running }, w.note (.start agentId)),
            ⟨true, false, 200, none, none⟩)
        else
          (s.onRecord agentId fun record w =>
            spawnRecord cfg host agentId (host.now 0) (s.orchestratorPort.getD 0)
              (reason.getD "manual_start") { record with desiredState := .running }
              (w.note (.start agentId)),
            ⟨true, true, 202, none, none⟩)

/-- `stopAgent(agentId, options)`. -/
def stopAgent (options : AgentRuntimeControlOptions) (busy : BusyWork)
    (s : AgentRuntimeSupervisor) : AgentRuntimeSupervisor × AgentRuntimeControlResult :=
  match s.records.get? agentId with
  | none => (s, controlError "unknown_agent_runtime" 404)
  | some record =>
    if !cfg.enabled then (s, controlError "agent_runtime_disabled" 409)
    else if refusesBusy options busy record then (s, busyError busy)
    else
      let changed := record.managed.isSome
      (s.onRecord agentId fun record w =>
        stopRecord cfg host agentId (options.reason.getD "manual_stop") (options.sticky.getD true)
          record (w.note (.stop agentId)),
        ⟨true, changed, if changed then 202 else 200, none, none⟩)

/-- `restartAgent(agentId, orchestratorPort, options)`. -/
def restartAgent (orchestratorPort : Option Nat) (options : AgentRuntimeControlOptions)
    (busy : BusyWork) (s : AgentRuntimeSupervisor) :
    AgentRuntimeSupervisor × AgentRuntimeControlResult :=
  match s.records.get? agentId with
  | none => (s, controlError "unknown_agent_runtime" 404)
  | some record =>
    if !cfg.enabled then (s, controlError "agent_runtime_disabled" 409)
    else match cfg.startupBlocker with
      | some (startupBlocker, _) => (s, controlError startupBlocker 409)
      | none =>
        if refusesBusy options busy record then (s, busyError busy)
        else
          let s := s.withPort orchestratorPort
          (s.onRecord agentId fun record w =>
            let (record, w) := detachAndTerminate cfg host agentId
              { record with desiredState := .running } (w.note (.start agentId))
            spawnRecord cfg host agentId (host.now 2) (s.orchestratorPort.getD 0)
              (options.reason.getD "manual_restart") record w,
            ⟨true, true, 202, none, none⟩)

/-- The timer fires. -/
def fire (timer : Timer) (record : RuntimeRecord) (w : World) : RuntimeRecord × World :=
  match timer with
  | .stop agentId managed =>
    if record.managed ≠ some managed then (record, w)
    else kill cfg host agentId managed.child .sigkill (host.now 0) record w
  | .kill agentId child => kill cfg host agentId child .sigkill (host.now 0) record w

/-! ## Runs -/

/-- What happens to a supervisor next. -/
inductive Event where
  | start (hosts : String → RecordHost) (orchestratorPort : Nat) (reason : String)
  | stop (hosts : String → RecordHost) (reason : String)
  | startAgent (host : RecordHost) (agentId : String) (orchestratorPort : Option Nat)
      (reason : Option String)
  | stopAgent (host : RecordHost) (agentId : String) (options : AgentRuntimeControlOptions)
      (busy : BusyWork)
  | restartAgent (host : RecordHost) (agentId : String) (orchestratorPort : Option Nat)
      (options : AgentRuntimeControlOptions) (busy : BusyWork)
  | childExit (child : Nat) (code : Option Int) (signal : Option String) (now : Int)
  | childError (child : Nat) (err : String) (now : Int)
  | timer (id : Nat) (host : RecordHost)

/-- `new AgentRuntimeSupervisor(config)`. -/
def newRecord : RuntimeRecord where
  desiredState := if cfg.enabled then .running else .stopped
  state := if cfg.enabled then .stopped else .disabled
  managed := none
  generation := 0
  startedAt := none
  stoppingAt := none
  exitedAt := none
  exitCode := none
  exitSignal := none
  lastError := none
  lastReason := none
  stopTimer := none

def AgentRuntimeSupervisor.init : AgentRuntimeSupervisor where
  orchestratorPort := none
  records := cfg.agents.foldl (fun records agentId => records.set agentId (newRecord cfg)) .empty
  world := ⟨.empty, 0, .empty, 0, []⟩

/-- One event; a child or a timer that is not there has none. -/
def step (s : AgentRuntimeSupervisor) : Event → Option AgentRuntimeSupervisor
  | .start hosts orchestratorPort reason => some (start cfg hosts orchestratorPort reason s)
  | .stop hosts reason => some (stop cfg hosts reason s)
  | .startAgent host agentId orchestratorPort reason =>
    some (startAgent cfg host agentId orchestratorPort reason s).1
  | .stopAgent host agentId options busy => some (stopAgent cfg host agentId options busy s).1
  | .restartAgent host agentId orchestratorPort options busy =>
    some (restartAgent cfg host agentId orchestratorPort options busy s).1
  | .childExit child code signal now =>
    (s.world.children.get? child).bind fun c =>
      if c.exited then none
      else some (s.onRecord c.agentId (emitExit c.agentId child code signal now))
  | .childError child err now =>
    (s.world.children.get? child).bind fun c =>
      if c.errored then none
      else some (s.onRecord c.agentId (emitError cfg c.agentId child err now))
  | .timer id host =>
    (s.world.timers.get? id).map fun timer =>
      { s with world := s.world.clearTimeout id }.onRecord timer.agentId (fire cfg host timer)

def supervisorRuns : Lts AgentRuntimeSupervisor Event := ⟨.init cfg, step cfg⟩

end Kovael.Supervisor
