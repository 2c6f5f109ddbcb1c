import Mathlib.Data.List.Chain

/-!
# `TriadStateMachine`: the phases of one cycle

`src/protocols/TriadStateMachine.ts`: the phases, which of them follow which, and
a machine that records every transition.

`PathTo` is a legal path of the machine from its first phase; a path that has
reached a terminal phase has reached just one, at its end (`PathTo.ends`).
-/

namespace Kovael.Triad

inductive TriadPhase where
  | preparingContext
  | dispatchToArchitect
  | architectStreaming
  | dispatchToOperator
  | operatorExecuting
  | dispatchToVerifier
  | verifierAuditing
  | issuingReceipt
  | succeeded
  | failed
  | stalled
  deriving DecidableEq, Repr

namespace TriadPhase

/-- The name of a phase. -/
def text : TriadPhase → String
  | preparingContext => "PreparingContext"
  | dispatchToArchitect => "DispatchToArchitect"
  | architectStreaming => "ArchitectStreaming"
  | dispatchToOperator => "DispatchToOperator"
  | operatorExecuting => "OperatorExecuting"
  | dispatchToVerifier => "DispatchToVerifier"
  | verifierAuditing => "VerifierAuditing"
  | issuingReceipt => "IssuingReceipt"
  | succeeded => "Succeeded"
  | failed => "Failed"
  | stalled => "Stalled"

/-- `TERMINAL`. -/
def isTerminal : TriadPhase → Bool
  | succeeded | failed | stalled => true
  | _ => false

/-- `NEXT`. -/
def next : TriadPhase → List TriadPhase
  | preparingContext => [dispatchToArchitect, failed, stalled]
  | dispatchToArchitect => [architectStreaming, failed, stalled]
  | architectStreaming => [dispatchToOperator, failed, stalled]
  | dispatchToOperator => [operatorExecuting, failed, stalled]
  | operatorExecuting => [dispatchToVerifier, failed, stalled]
  | dispatchToVerifier => [verifierAuditing, failed, stalled]
  | verifierAuditing => [issuingReceipt, failed, stalled]
  | issuingReceipt => [succeeded, failed]
  | succeeded | failed | stalled => []

/-- The terminal phases are those that nothing follows. -/
theorem isTerminal_iff (p : TriadPhase) : p.isTerminal = true ↔ p.next = [] := by
  cases p <;> decide

/-- A cycle can fail in every phase but a terminal one. -/
theorem failed_mem_next {p : TriadPhase} (h : p.isTerminal = false) : failed ∈ p.next := by
  cases p with
  | succeeded => exact absurd h Bool.noConfusion
  | failed => exact absurd h Bool.noConfusion
  | stalled => exact absurd h Bool.noConfusion
  | _ => decide

end TriadPhase

structure PhaseEvent where
  cycleId : String
  taskHash : String
  phase : TriadPhase
  previous : Option TriadPhase
  timestamp : Int
  routedAgent : Option String
  note : Option String

structure TriadStateMachine where
  cycleId : String
  taskHash : String
  phase : TriadPhase
  history : List PhaseEvent

namespace TriadStateMachine

/-- `new TriadStateMachine(cycleId, taskHash)`. -/
def new (cycleId taskHash : String) (now : Int) : TriadStateMachine where
  cycleId := cycleId
  taskHash := taskHash
  phase := .preparingContext
  history := [⟨cycleId, taskHash, .preparingContext, none, now, none, none⟩]

/-- The event of a transition. -/
def event (machine : TriadStateMachine) (next : TriadPhase) (now : Int)
    (routedAgent note : Option String) : PhaseEvent :=
  ⟨machine.cycleId, machine.taskHash, next, some machine.phase, now, routedAgent, note⟩

/-- The machine after a transition, before it emits the event. -/
def moved (machine : TriadStateMachine) (next : TriadPhase) (now : Int)
    (routedAgent note : Option String) : TriadStateMachine :=
  { machine with
    phase := next
    history := machine.history ++ [machine.event next now routedAgent note] }

/-- The message of a transition that is refused. -/
def illegalTransition (machine : TriadStateMachine) (next : TriadPhase) : String :=
  "[TriadStateMachine] Illegal transition " ++ machine.phase.text ++ " → " ++ next.text ++
    " (cycle " ++ machine.cycleId ++ ")"

end TriadStateMachine

/-! ## Paths of the machine -/

open TriadPhase in
/-- The phases of a legal path after the first one, and the phase that it has
reached. -/
inductive PathTo : List TriadPhase → TriadPhase → Prop where
  | start : PathTo [] preparingContext
  | step {phases : List TriadPhase} {p q : TriadPhase} (path : PathTo phases p)
      (hnext : q ∈ p.next) : PathTo (phases ++ [q]) q

/-- The phases are a legal path with one terminal phase, its last, which is `p`. -/
structure EndsIn (phases : List TriadPhase) (p : TriadPhase) : Prop where
  legal : (TriadPhase.preparingContext :: phases).IsChain fun p q => q ∈ p.next
  last : phases.getLast? = some p
  terminal : p.isTerminal = true
  once : phases.countP TriadPhase.isTerminal = 1

namespace PathTo

variable {phases : List TriadPhase} {p : TriadPhase}

/-- A path stands where its last phase says. -/
theorem getLast (h : PathTo phases p) :
    (TriadPhase.preparingContext :: phases).getLast? = some p := by
  cases h with
  | start => rfl
  | step path hnext => rw [← List.cons_append, List.getLast?_append, List.getLast?_singleton]; rfl

theorem isChain (h : PathTo phases p) :
    (TriadPhase.preparingContext :: phases).IsChain fun p q => q ∈ p.next := by
  induction h with
  | start => exact List.isChain_singleton _
  | step path hnext ih =>
    rw [← List.cons_append, List.isChain_append]
    refine ⟨ih, List.isChain_singleton _, ?_⟩
    intro x hx y hy
    rw [path.getLast, Option.mem_some_iff] at hx
    rw [List.head?_cons, Option.mem_some_iff] at hy
    exact hx ▸ hy ▸ hnext

/-- No phase on the way is terminal, since the path went on from it. -/
theorem countP_of_not_terminal (h : PathTo phases p) (hp : p.isTerminal = false) :
    phases.countP TriadPhase.isTerminal = 0 := by
  induction h with
  | start => rfl
  | step path hnext ih =>
    have hprev : ¬(TriadPhase.isTerminal _ = true) := fun hterminal =>
      List.not_mem_nil ((TriadPhase.isTerminal_iff _).mp hterminal ▸ hnext)
    rw [List.countP_append, ih (Bool.not_eq_true _ ▸ hprev), List.countP_singleton, hp]
    rfl

/-- A path that has reached a terminal phase ends there. -/
theorem ends {q : TriadPhase} (h : PathTo phases p) (hp : p.isTerminal = false)
    (hnext : q ∈ p.next) (hq : q.isTerminal = true) : EndsIn (phases ++ [q]) q where
  legal := (h.step hnext).isChain
  last := by rw [List.getLast?_append, List.getLast?_singleton]; rfl
  terminal := hq
  once := by rw [List.countP_append, h.countP_of_not_terminal hp, List.countP_singleton, hq]; rfl

end PathTo

end Kovael.Triad
