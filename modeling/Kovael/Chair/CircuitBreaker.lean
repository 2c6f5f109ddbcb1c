import Kovael.Js.OrderedMap

/-!
# `CircuitBreaker`

`src/services/CircuitBreaker.ts`: one circuit a chair. Failures are counted
until a success; at the threshold the circuit opens, and once it has been open
for `recoveryMs` the next question lets a dispatch through.

Mirroring notes vs the TS:
- The clock is an argument of every method, as in the TS.
- `lastReason` and the `circuit_event`s are not kept: they are shown and logged,
  and nothing is decided by them.
-/

namespace Kovael.Chair

open Js (OrderedMap)

inductive CircuitState where
  | closed
  /-- `'open'`. -/
  | opened
  | halfOpen
  deriving DecidableEq, Repr

structure CircuitBreakerConfig where
  failureThreshold : Nat
  recoveryMs : Int
  deriving DecidableEq, Repr

/-- `DEFAULT_CONFIG`. -/
def defaultCircuitBreakerConfig : CircuitBreakerConfig where
  failureThreshold := 3
  recoveryMs := 30000

structure ChairCircuitSnapshot where
  agentId : String
  state : CircuitState
  failures : Nat
  openedAt : Option Int
  deriving DecidableEq, Repr

structure CircuitBreaker where
  cfg : CircuitBreakerConfig
  circuits : OrderedMap String ChairCircuitSnapshot

namespace CircuitBreaker

variable (cb : CircuitBreaker) (agentId : String) (now : Int)

/-- `new CircuitBreaker(config)`. -/
def new (cfg : CircuitBreakerConfig) : CircuitBreaker := ⟨cfg, .empty⟩

/-- The circuit that `ensure(agentId)` returns. -/
def ensure : ChairCircuitSnapshot :=
  (cb.circuits.get? agentId).getD ⟨agentId, .closed, 0, none⟩

/-- The circuit is in the map, with new values. -/
def put (circuit : ChairCircuitSnapshot) : CircuitBreaker :=
  { cb with circuits := cb.circuits.set agentId circuit }

/-- `now - circuit.openedAt >= recoveryMs`, for a circuit that was opened. -/
def recovered (circuit : ChairCircuitSnapshot) : Bool :=
  circuit.openedAt.any fun openedAt => decide (cb.cfg.recoveryMs ≤ now - openedAt)

/-- `canDispatch(agentId, now)`: the answer, and the circuits after it. -/
def canDispatch : Bool × CircuitBreaker :=
  let circuit := cb.ensure agentId
  if circuit.state ≠ .opened then (true, cb.put agentId circuit)
  else if cb.recovered now circuit then
    (true, cb.put agentId { circuit with state := .halfOpen })
  else (false, cb.put agentId circuit)

/-- `recordFailure(agentId, reason, now)`. -/
def recordFailure : CircuitBreaker :=
  let circuit := cb.ensure agentId
  let failures := circuit.failures + 1
  if cb.cfg.failureThreshold ≤ failures then
    cb.put agentId { circuit with failures := failures, state := .opened, openedAt := some now }
  else cb.put agentId { circuit with failures := failures }

/-- `recordSuccess(agentId, now)`. -/
def recordSuccess : CircuitBreaker :=
  cb.put agentId
    { cb.ensure agentId with state := .closed, failures := 0, openedAt := none }

variable {cb : CircuitBreaker} {agentId : String} {now : Int}

theorem ensure_put (k : String) (circuit : ChairCircuitSnapshot) :
    (cb.put agentId circuit).ensure k = if k = agentId then circuit else cb.ensure k := by
  rw [ensure, put, OrderedMap.get?_set]
  split
  next => rfl
  next => rfl

/-- A question may open the circuit half, and changes nothing else. -/
theorem canDispatch_eq (cb : CircuitBreaker) (agentId : String) (now : Int) :
    ∃ circuit, (cb.canDispatch agentId now).2 = cb.put agentId circuit ∧
      circuit.failures = (cb.ensure agentId).failures ∧
      circuit.openedAt = (cb.ensure agentId).openedAt ∧
      (circuit.state = .opened → (cb.ensure agentId).state = .opened) := by
  unfold canDispatch
  dsimp only
  split
  next => exact ⟨_, rfl, rfl, rfl, fun h => h⟩
  next =>
    split
    next => exact ⟨_, rfl, rfl, rfl, fun h => nomatch h⟩
    next => exact ⟨_, rfl, rfl, rfl, fun h => h⟩

/-- A failure is counted. -/
theorem recordFailure_eq (cb : CircuitBreaker) (agentId : String) (now : Int) :
    ∃ circuit, cb.recordFailure agentId now = cb.put agentId circuit ∧
      circuit.failures = (cb.ensure agentId).failures + 1 := by
  unfold recordFailure
  dsimp only
  split
  next => exact ⟨_, rfl, rfl⟩
  next => exact ⟨_, rfl, rfl⟩

/-- A question about one circuit leaves what every circuit has counted. -/
theorem canDispatch_keeps (cb : CircuitBreaker) (agentId k : String) (now : Int) :
    ((cb.canDispatch agentId now).2.ensure k).failures = (cb.ensure k).failures ∧
      ((cb.canDispatch agentId now).2.ensure k).openedAt = (cb.ensure k).openedAt ∧
      (((cb.canDispatch agentId now).2.ensure k).state = .opened →
        (cb.ensure k).state = .opened) := by
  obtain ⟨circuit, heq, hcircuit⟩ := canDispatch_eq cb agentId now
  rw [heq, ensure_put]
  split
  next hk => rw [hk]; exact hcircuit
  next => exact ⟨rfl, rfl, fun h => h⟩

/-- A dispatch is let through exactly if the circuit is not open or has recovered. -/
theorem canDispatch_fst :
    (cb.canDispatch agentId now).1 = true ↔
      (cb.ensure agentId).state ≠ .opened ∨ cb.recovered now (cb.ensure agentId) = true := by
  unfold canDispatch
  dsimp only
  split
  next h => exact iff_of_true rfl (Or.inl h)
  next h =>
    split
    next hr => exact iff_of_true rfl (Or.inr hr)
    next hr => exact iff_of_false Bool.false_ne_true (not_or.mpr ⟨h, hr⟩)

end CircuitBreaker

end Kovael.Chair
