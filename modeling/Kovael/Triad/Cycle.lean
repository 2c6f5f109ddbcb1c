import Kovael.Js.Json
import Kovael.Mesh.InjectTask
import Kovael.Triad.Machine
import Kovael.Triad.Routing
import Mathlib.Data.List.DropRight

/-!
# `MevBridge.execute`: one cycle

`src/MevBridge.ts`, from the routing to the receipt: the context is sharded and
given its persona, the three roles run one after the other under their phases,
and the receipt is built, stored and announced; whatever is thrown on the way
ends in one `catch`.

Mirroring notes:
- What can throw, and with what, is in `CycleEnv`: the listeners, the persona
  loader, the tracer, the three phase functions and the insert.
- A cycle emits no phase twice, so what a `phase_change` listener throws is a
  function of the phase.
- A message is an object: `ref` says which, and `includes` compares it.
- The attributes of the spans and the log are not modelled, nor is the return
  value of `transition`, which nobody reads.
-/

namespace Kovael.Triad

open Js (Clock Json)
open Kovael.Mesh (ReceiptStatus)

/-- What is thrown: `null` or `undefined`, or a value with what its `message` reads. -/
inductive Thrown where
  | nullish (name : String)
  | value (message : Option String)

/-- `(error as Error).message`, which itself throws if there is nothing to read from. -/
def Thrown.message : Thrown → Except Thrown (Option String)
  | .nullish name =>
    .error (.value (some ("Cannot read properties of " ++ name ++ " (reading 'message')")))
  | .value message => .ok message

/-- A call that returns nothing, and throws what is given. -/
def raise : Option Thrown → Except Thrown Unit
  | none => .ok ()
  | some thrown => .error thrown

/-! ## The context -/

structure Message where
  ref : Nat
  role : Option String
  content : Option String

/-- `xs.slice(start)`. -/
def sliceFrom {α : Type} (xs : List α) (start : Int) : List α :=
  if start < 0 then xs.drop (xs.length + start).toNat else xs.drop start.toNat

theorem length_rtake {α : Type} (n : Nat) (xs : List α) :
    (xs.rtake n).length = min xs.length n := by
  rw [List.rtake, List.length_drop]
  omega

theorem sliceFrom_neg {α : Type} (xs : List α) {n : Nat} (hn : 0 < n) :
    sliceFrom xs (-(n : Int)) = xs.rtake n := by
  have hstart : ((xs.length : Int) + -(n : Int)).toNat = xs.length - n := by omega
  rw [sliceFrom, if_pos (by omega), hstart, List.rtake]

/-- `shardContext(history, { keepRecent })`. -/
def shardContext (history : List Message) (keepRecent : Int) : List Message :=
  let system := history.find? fun m => m.role = some "system"
  let tail := sliceFrom history (-keepRecent)
  match system with
  | none => tail
  | some system => if tail.any (fun m => m.ref = system.ref) then tail else system :: tail

/-! ## What the roles return -/

structure Blueprint where
  taskId : String
  intent : String
  shardsUsed : Nat
  routedAgent : String
  requirements : List String

structure ExecutionResult where
  status : String
  payload : String
  exitCode : Int

structure VerificationDetails where
  intentMatched : Bool
  checksum : String

structure Verification where
  success : Bool
  details : VerificationDetails

/-- `architect(task, context, routedAgent)`, with the id that it draws. -/
def architect (taskId : String) (task : String) (context : List Message) (routedAgent : String) :
    Blueprint :=
  ⟨taskId, task, context.length, routedAgent, ["idempotency", "traceability"]⟩

/-- `operator(blueprint)`. -/
def operator (_blueprint : Blueprint) : ExecutionResult :=
  ⟨"success", "Operation payload generated", 0⟩

/-- `verifier(blueprint, result)`, with the checksum that it draws. -/
def verifier (checksum : String) (_blueprint : Blueprint) (result : ExecutionResult) :
    Verification :=
  ⟨result.exitCode = 0 ∧ result.status = "success", ⟨true, checksum⟩⟩

def Blueprint.json (blueprint : Blueprint) : Json :=
  .object
    [("taskId", .string blueprint.taskId),
      ("intent", .string blueprint.intent),
      ("shardsUsed", .ofInt blueprint.shardsUsed),
      ("routedAgent", .string blueprint.routedAgent),
      ("requirements", .array (blueprint.requirements.map .string))]

def ExecutionResult.json (result : ExecutionResult) : Json :=
  .object
    [("status", .string result.status),
      ("payload", .string result.payload),
      ("exitCode", .ofInt result.exitCode)]

def VerificationDetails.json (details : VerificationDetails) : Json :=
  .object
    [("intentMatched", .bool details.intentMatched), ("checksum", .string details.checksum)]

/-! ## Receipts -/

structure TokenUsage where
  input : Nat
  output : Nat
  total : Nat
  runtimeMs : Int
  source : String

/-- `estimateTokens(text)`: `CHARS_PER_TOKEN` is 4. -/
def estimateTokens (text : String) : Nat := (Js.length text + 3) / 4

structure ReceiptRouting where
  architectAgent : String
  rationale : String
  vramFreeMb : ℚ

structure VerificationReceipt where
  id : String
  cycleId : String
  timestamp : Int
  architectId : String
  operatorId : String
  verifierId : String
  taskHash : String
  status : ReceiptStatus
  evidence : String
  routing : ReceiptRouting
  phaseTrail : List PhaseEvent
  tokens : TokenUsage

/-! ## What a cycle calls -/

/-- The span of a role. -/
inductive RoleSpan where
  | architect
  | operator
  | verifier

/-- What the tracer throws around one role: when the child span is opened, when the
usage is recorded, when an exception is recorded, and when the span ends. -/
structure SpanFaults where
  opens : Option Thrown
  records : Option Thrown
  notes : Option Thrown
  ends : Option Thrown

/-- `CycleSpanHandle`: the one of a tracer that is not ready, or a real one and what
its calls throw. -/
inductive CycleSpan where
  | noop
  | real (faults : RoleSpan → SpanFaults) (endsOk endsError : Option Thrown)

/-- What a cycle reads and calls. -/
structure CycleEnv where
  sha256 : String → String
  /-- The two answers of `crypto.randomUUID()`. -/
  cycleId : String
  receiptId : String
  clock : Clock
  /-- How a number reads in a text. -/
  render : ℚ → String
  keepRecentTurns : Int
  /-- `personaLoader?.compileSystemPrompt`. -/
  personaLoader : Option (String → Except Thrown String)
  /-- `tracing?.startCycle`. -/
  tracing : Option (Except Thrown CycleSpan)
  architect : String → List Message → String → Except Thrown Blueprint
  operator : Blueprint → Except Thrown ExecutionResult
  verifier : Blueprint → ExecutionResult → Except Thrown Verification
  phaseListener : TriadPhase → Option Thrown
  completeListener : Option Thrown
  /-- What the insert of a receipt throws. -/
  insert : Option Thrown

/-- What the cycle has done so far. -/
structure CycleState where
  machine : TriadStateMachine
  /-- The `phase_change` events of the bridge. -/
  emitted : List PhaseEvent
  /-- The receipts inserted. -/
  stored : List VerificationReceipt
  /-- The `cycle_complete` events. -/
  completed : List VerificationReceipt
  /-- How often the clock was read. -/
  reads : Nat

/-- A computation of a cycle: what it has done stays done when it throws. -/
def CycleM (α : Type) : Type := CycleState → Except Thrown α × CycleState

instance : Monad CycleM where
  pure a := fun s => (.ok a, s)
  bind x f := fun s =>
    match x s with
    | (.ok a, s) => f a s
    | (.error thrown, s) => (.error thrown, s)

/-- A call that does nothing to the cycle but return or throw. -/
def call {α : Type} (outcome : Except Thrown α) : CycleM α := fun s => (outcome, s)

namespace CycleEnv

variable (env : CycleEnv)

/-- `Date.now()`. -/
def now : CycleM Int := fun s => (.ok (env.clock s.reads), { s with reads := s.reads + 1 })

/-- `machine.transition(next, { routedAgent, note })`; the event is recorded before the
listeners hear it. -/
def transition (next : TriadPhase) (routedAgent note : Option String) : CycleM Unit := fun s =>
  if next ∈ s.machine.phase.next then
    let now := env.clock s.reads
    (raise (env.phaseListener next),
      { s with
        machine := s.machine.moved next now routedAgent note
        emitted := s.emitted ++ [s.machine.event next now routedAgent note]
        reads := s.reads + 1 })
  else (.error (.value (some (s.machine.illegalTransition next))), s)

/-- The context with the prompt of the routed agent. -/
def contextFor (agent : String) (context : List Message) : Except Thrown (List Message) :=
  match env.personaLoader with
  | none => .ok context
  | some compileSystemPrompt =>
    (compileSystemPrompt agent).map fun compiledPrompt =>
      context.map fun m =>
        if m.role = some "system" then { m with content := some compiledPrompt } else m

/-- The span of the cycle, if there is a tracer. -/
def startCycle : Except Thrown (Option CycleSpan) :=
  match env.tracing with
  | none => .ok none
  | some started => started.map some

end CycleEnv

/-- A role under the span of the cycle. -/
def runTriadPhase {α : Type} (span : Option CycleSpan) (role : RoleSpan) (fn : Except Thrown α) :
    Except Thrown α :=
  match span with
  | none | some .noop => fn
  | some (.real faults _ _) => do
    let faults := faults role
    raise faults.opens
    let outcome :=
      match (fn >>= fun result => (raise faults.records).map fun _ => result) with
      | .ok result => .ok result
      | .error thrown => do
        raise faults.notes
        let _ ← thrown.message
        .error thrown
    raise faults.ends
    outcome

/-- `cycleSpan?.end('ok')`. -/
def endSpan : Option CycleSpan → Except Thrown Unit
  | none | some .noop => .ok ()
  | some (.real _ endsOk _) => raise endsOk

/-- `cycleSpan?.end('error', (error as Error).message)`. -/
def endSpanFailed (span : Option CycleSpan) (error : Thrown) : Except Thrown Unit :=
  match span with
  | none => .ok ()
  | some .noop => error.message.map fun _ => ()
  | some (.real _ _ endsError) => do
    let _ ← error.message
    raise endsError

/-- What a cycle is about. -/
structure CycleTask where
  routing : Routing
  vramFreeMb : ℚ
  task : String

/-- What the three roles returned. -/
structure RolesDone where
  blueprint : Blueprint
  executionResult : ExecutionResult
  verification : Verification

/-- The terminal phase that a verification leads to. -/
def verdict (success : Bool) : TriadPhase := if success then .succeeded else .failed

namespace CycleEnv

variable (env : CycleEnv) (cycle : CycleTask)

/-- The roles under their phases, up to `IssuingReceipt`. -/
def runRoles (span : Option CycleSpan) (context : List Message) : CycleM RolesDone := do
  env.transition .dispatchToArchitect (some cycle.routing.agent)
    (some (cycle.routing.rationale.text env.render))
  env.transition .architectStreaming none none
  let blueprint ← call
    (runTriadPhase span .architect (env.architect cycle.task context cycle.routing.agent))
  env.transition .dispatchToOperator none none
  env.transition .operatorExecuting none none
  let executionResult ← call (runTriadPhase span .operator (env.operator blueprint))
  env.transition .dispatchToVerifier none none
  env.transition .verifierAuditing none none
  let verification ← call
    (runTriadPhase span .verifier (env.verifier blueprint executionResult))
  env.transition .issuingReceipt none none
  return ⟨blueprint, executionResult, verification⟩

/-- The receipt, before the terminal transition. -/
def buildReceipt (context : List Message) (done : RolesDone) (cycleStart : Int) :
    CycleM VerificationReceipt := do
  let promptText := cycle.task ++ "\n".intercalate (context.map fun m => m.content.getD "")
  let responseText := done.blueprint.json.stringify ++ done.executionResult.json.stringify ++
    done.verification.details.json.stringify
  let input := estimateTokens promptText
  let output := estimateTokens responseText
  let tokensNow ← env.now
  let timestamp ← env.now
  fun s => (.ok
    { id := env.receiptId
      cycleId := env.cycleId
      timestamp := timestamp
      architectId := cycle.routing.agent
      operatorId := "operator-v1-nyx"
      verifierId := "verifier-v1-nyx"
      taskHash := env.sha256 cycle.task
      status := if done.verification.success then .verified else .failed
      evidence := Json.stringify (.object
        [("blueprintId", .string done.blueprint.taskId),
          ("verificationDetails", done.verification.details.json),
          ("executionStatus", .string done.executionResult.status)])
      routing :=
        { architectAgent := cycle.routing.agent
          rationale := cycle.routing.rationale.text env.render
          vramFreeMb := cycle.vramFreeMb }
      phaseTrail := s.machine.history
      tokens :=
        { input := input
          output := output
          total := input + output
          runtimeMs := tokensNow - cycleStart
          source := "estimate" } }, s)

/-- `storeReceipt(receipt)`. -/
def storeReceipt (receipt : VerificationReceipt) : CycleM Unit := fun s =>
  match env.insert with
  | none => (.ok (), { s with stored := s.stored ++ [receipt] })
  | some thrown => (.error thrown, s)

/-- `this.emit('cycle_complete', receipt)`. -/
def emitComplete (receipt : VerificationReceipt) : CycleM Unit := fun s =>
  (raise env.completeListener, { s with completed := s.completed ++ [receipt] })

/-- `machine.trail()`. -/
def trail : CycleM (List PhaseEvent) := fun s => (.ok s.machine.history, s)

/-- The receipt is stored and announced, and the span ends. -/
def fileReceipt (span : Option CycleSpan) (receipt : VerificationReceipt) :
    CycleM VerificationReceipt := do
  env.storeReceipt receipt
  env.emitComplete receipt
  call (endSpan span)
  return receipt

/-- From `IssuingReceipt` to the end of the `try`. -/
def issueReceipt (span : Option CycleSpan) (context : List Message) (cycleStart : Int)
    (done : RolesDone) : CycleM VerificationReceipt := do
  let receipt ← env.buildReceipt cycle context done cycleStart
  env.transition (verdict done.verification.success) (some cycle.routing.agent) none
  let phaseTrail ← trail
  env.fileReceipt span { receipt with phaseTrail := phaseTrail }

/-- The `catch` of `execute`. -/
def failCycle (span : Option CycleSpan) (error : Thrown) (s : CycleState) :
    Except Thrown VerificationReceipt × CycleState :=
  let s :=
    if s.machine.phase.isTerminal then s
    else
      match error.message with
      -- the note cannot be read, so there is no transition
      | .error _ => s
      | .ok note => (env.transition .failed (some cycle.routing.agent) note s).2
  match endSpanFailed span error with
  | .ok _ => (.error error, s)
  | .error thrown => (.error thrown, s)

/-- The cycle before its first transition. -/
def atStart : CycleState where
  machine := .new env.cycleId (env.sha256 cycle.task) (env.clock 0)
  emitted := []
  stored := []
  completed := []
  reads := 2

/-- `execute(task, context)`, once it is routed. -/
def execute (context : List Message) : Except Thrown VerificationReceipt × CycleState :=
  let cycleStart := env.clock 1
  let s := env.atStart cycle
  match env.contextFor cycle.routing.agent (shardContext context env.keepRecentTurns) with
  | .error thrown => (.error thrown, s)
  | .ok context =>
    match env.startCycle with
    | .error thrown => (.error thrown, s)
    | .ok span =>
      match (env.runRoles cycle span context >>= env.issueReceipt cycle span context cycleStart) s with
      | (.ok receipt, s) => (.ok receipt, s)
      | (.error error, s) => env.failCycle cycle span error s

end CycleEnv

end Kovael.Triad
