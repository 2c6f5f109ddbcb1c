import Kovael.Js.Number
import Kovael.Js.OrderedMap

/-!
# `TaskClaimMachine`: the ledger of task claims

`src/protocols/TaskClaimMachine.ts` keeps, for every task hash, one record in
one of five states; every move goes through `transition`, which refuses what
`legal` does not list. Task hashes and cycle ids are the strings of the source.

Mirroring notes vs the TS class:
- `Date.now()` is read up to twice by one call, and nothing says that the two
  readings agree: a call that reads it more than once takes a `Clock`, the
  successive readings, and every theorem is about an arbitrary one.
- The `EventEmitter` is the `log`. Besides every emitted event it records, in
  order, every assignment of a record's `state` and every deletion; no
  operation reads it. The TS class keeps no such history, it is what an
  observer of the class would write down.
- `get` and `snapshot` return copies, which values are anyway.
- `register` also returns the record; its callers read it through `get`.

Each operation has one inversion lemma below (`transition_cases`,
`tryClaim_cases`, ...) that says everything it can do; later files use these
and unfold nothing.
-/

namespace Kovael.Claims

open Js (Number OrderedMap Clock)

/-- The five states of a claim. -/
inductive ClaimState where
  | unclaimed
  | claimed
  | running
  | retryQueued
  | released
  deriving DecidableEq, Repr

/-- The enum's string values, as they appear in reasons. -/
def ClaimState.text : ClaimState → String
  | .unclaimed => "Unclaimed"
  | .claimed => "Claimed"
  | .running => "Running"
  | .retryQueued => "RetryQueued"
  | .released => "Released"

/-- `LEGAL`: the moves `transition` allows. -/
def legal : ClaimState → List ClaimState
  | .unclaimed => [.claimed, .released]
  | .claimed => [.running, .released]
  | .running => [.retryQueued, .released]
  | .retryQueued => [.claimed, .released]
  | .released => []

/-- The payload of a `claim_event`. -/
structure ClaimEvent where
  taskHash : String
  previous : Option ClaimState
  state : ClaimState
  timestamp : Int
  attempt : Nat
  reason : Option String
  cycleId : Option String
  deriving DecidableEq, Repr

/-- One ledger record. -/
structure ClaimRecord where
  taskHash : String
  state : ClaimState
  attempt : Nat
  firstSeen : Int
  updatedAt : Int
  cycleId : Option String
  retryAfter : Option Number
  deriving DecidableEq, Repr

/-- What an observer writes down: state assignments, events and deletions. -/
inductive LogEntry where
  | state (taskHash : String) (s : ClaimState)
  | event (e : ClaimEvent)
  | pruned (taskHash : String)
  deriving DecidableEq, Repr

/-- The machine: its ledger, and the log of what it did so far. -/
structure TaskClaimMachine where
  ledger : OrderedMap String ClaimRecord
  log : List LogEntry

namespace TaskClaimMachine

/-- A fresh machine. -/
def init : TaskClaimMachine := ⟨.empty, []⟩

/-- `get(taskHash)`. -/
def get (m : TaskClaimMachine) (taskHash : String) : Option ClaimRecord :=
  m.ledger.get? taskHash

/-- `snapshot()`: every record, oldest registration first. -/
def snapshot (m : TaskClaimMachine) : List ClaimRecord := m.ledger.values

/-- `eventFrom(record, previous, reason)`. -/
def eventFrom (record : ClaimRecord) (previous : Option ClaimState) (reason : Option String) :
    ClaimEvent where
  taskHash := record.taskHash
  previous := previous
  state := record.state
  timestamp := record.updatedAt
  attempt := record.attempt
  reason := reason
  cycleId := record.cycleId

/-- The record `register` files for a new hash. -/
def freshRecord (now : Int) (taskHash : String) : ClaimRecord where
  taskHash := taskHash
  state := .unclaimed
  attempt := 0
  firstSeen := now
  updatedAt := now
  cycleId := none
  retryAfter := none

/-- `register(taskHash, reason)`. -/
def register (m : TaskClaimMachine) (now : Int) (taskHash : String) (reason : Option String) :
    TaskClaimMachine :=
  match m.ledger.get? taskHash with
  | some _ => m
  | none =>
    let record := freshRecord now taskHash
    { ledger := m.ledger.set taskHash record
      log := m.log ++ [.state taskHash record.state, .event (eventFrom record none reason)] }

/-- The assignments `transition` makes to the record. `if (meta.cycleId)` is a
truthiness test, so the empty string leaves the old id. -/
def moved (record : ClaimRecord) (now : Int) (next : ClaimState) (cycleId : Option String) :
    ClaimRecord :=
  { record with
    state := next
    updatedAt := now
    cycleId :=
      match cycleId with
      | some c => if c = "" then record.cycleId else some c
      | none => record.cycleId
    attempt := if next = .claimed then record.attempt + 1 else record.attempt }

/-- The machine after a move that `legal` allows. -/
def move (m : TaskClaimMachine) (record : ClaimRecord) (now : Int) (taskHash : String)
    (next : ClaimState) (cycleId reason : Option String) : TaskClaimMachine :=
  { ledger := m.ledger.set taskHash (moved record now next cycleId)
    log := m.log ++ [.state taskHash next,
      .event (eventFrom (moved record now next cycleId) (some record.state) reason)] }

/-- `transition(taskHash, next, meta)`. -/
def transition (m : TaskClaimMachine) (now : Int) (taskHash : String) (next : ClaimState)
    (cycleId reason : Option String) : TaskClaimMachine × Bool :=
  match m.ledger.get? taskHash with
  | none => (m, false)
  | some record =>
    if next ∈ legal record.state then
      (m.move record now taskHash next cycleId reason, true)
    else (m, false)

/-- `tryClaim(taskHash, cycleId, reason)`. -/
def tryClaim (m : TaskClaimMachine) (clock : Clock) (taskHash cycleId : String)
    (reason : Option String) : TaskClaimMachine × Bool :=
  let m' := m.register (clock 0) taskHash none
  match m'.ledger.get? taskHash with
  -- after the registration there is a record, so this branch is dead
  | none => (m', false)
  | some fresh =>
    if fresh.state ≠ .unclaimed ∧ fresh.state ≠ .retryQueued then (m', false)
    else m'.transition (clock 1) taskHash .claimed (some cycleId) reason

/-- `markRunning(taskHash, cycleId)`. -/
def markRunning (m : TaskClaimMachine) (now : Int) (taskHash cycleId : String) :
    TaskClaimMachine × Bool :=
  m.transition now taskHash .running (some cycleId) none

/-- `markRetryQueued(taskHash, retryAfterMs, reason)`. -/
def markRetryQueued (m : TaskClaimMachine) (clock : Clock) (taskHash : String)
    (retryAfterMs : Number) (reason : Option String) : TaskClaimMachine × Bool :=
  let r := m.transition (clock 0) taskHash .retryQueued none reason
  if r.2 then
    match r.1.ledger.get? taskHash with
    | none => r
    | some record =>
      let record' := { record with retryAfter := some ((Number.ofInt (clock 1)).add retryAfterMs) }
      ({ r.1 with ledger := r.1.ledger.set taskHash record' }, true)
  else r

/-- `release(taskHash, reason)`. -/
def release (m : TaskClaimMachine) (now : Int) (taskHash : String) (reason : String) :
    TaskClaimMachine × Bool :=
  m.transition now taskHash .released none (some reason)

/-- `prune(taskHash)`. -/
def prune (m : TaskClaimMachine) (taskHash : String) : TaskClaimMachine × Bool :=
  if m.ledger.has taskHash then
    ({ ledger := m.ledger.delete taskHash, log := m.log ++ [.pruned taskHash] }, true)
  else (m, false)

/-- `dueForRetry()`. -/
def dueForRetry (m : TaskClaimMachine) (now : Int) : List ClaimRecord :=
  m.snapshot.filter fun r =>
    decide (r.state = .retryQueued) &&
      (r.retryAfter.getD (Number.ofInt 0)).le (Number.ofInt now)

/-! ## What each operation can do -/

theorem released_mem_legal {s : ClaimState} : ClaimState.released ∈ legal s ↔ s ≠ .released := by
  cases s <;> decide

theorem claimed_mem_legal {s : ClaimState} :
    ClaimState.claimed ∈ legal s ↔ s = .unclaimed ∨ s = .retryQueued := by
  cases s <;> decide

theorem retryQueued_mem_legal {s : ClaimState} :
    ClaimState.retryQueued ∈ legal s ↔ s = .running := by
  cases s <;> decide

theorem running_mem_legal {s : ClaimState} : ClaimState.running ∈ legal s ↔ s = .claimed := by
  cases s <;> decide

@[simp] theorem moved_state (r : ClaimRecord) (now : Int) (next : ClaimState)
    (cycleId : Option String) : (moved r now next cycleId).state = next := rfl

@[simp] theorem moved_taskHash (r : ClaimRecord) (now : Int) (next : ClaimState)
    (cycleId : Option String) : (moved r now next cycleId).taskHash = r.taskHash := rfl

@[simp] theorem moved_none_cycleId (r : ClaimRecord) (now : Int) (next : ClaimState) :
    (moved r now next none).cycleId = r.cycleId := rfl

/-- A non-empty cycle id is written. -/
theorem moved_some_cycleId (r : ClaimRecord) (now : Int) (next : ClaimState) {c : String}
    (hc : c ≠ "") : (moved r now next (some c)).cycleId = some c :=
  if_neg hc

/-- A transition is refused, and then nothing changes, or it is a legal move. -/
theorem transition_cases (m : TaskClaimMachine) (now : Int) (taskHash : String)
    (next : ClaimState) (cycleId reason : Option String) :
    (m.transition now taskHash next cycleId reason = (m, false) ∧
      ∀ r, m.get taskHash = some r → next ∉ legal r.state) ∨
    ∃ r, m.get taskHash = some r ∧ next ∈ legal r.state ∧
      m.transition now taskHash next cycleId reason
        = (m.move r now taskHash next cycleId reason, true) := by
  unfold transition get
  cases hg : m.ledger.get? taskHash with
  | none => exact Or.inl ⟨rfl, by simp⟩
  | some r =>
    by_cases hl : next ∈ legal r.state
    · exact Or.inr ⟨r, rfl, hl, if_pos hl⟩
    · refine Or.inl ⟨if_neg hl, ?_⟩
      intro r' hr'
      rw [Option.some.injEq] at hr'
      exact hr' ▸ hl

/-- Registration files a fresh record exactly when there was none. -/
theorem register_cases (m : TaskClaimMachine) (now : Int) (taskHash : String)
    (reason : Option String) :
    (m.register now taskHash reason = m ∧ ∃ r, m.get taskHash = some r) ∨
    (m.get taskHash = none ∧
      m.register now taskHash reason =
        { ledger := m.ledger.set taskHash (freshRecord now taskHash)
          log := m.log ++ [.state taskHash .unclaimed,
            .event (eventFrom (freshRecord now taskHash) none reason)] }) := by
  unfold register get
  cases hg : m.ledger.get? taskHash with
  | none => exact Or.inr ⟨rfl, rfl⟩
  | some r => exact Or.inl ⟨rfl, r, rfl⟩

/-- After a registration the hash has a record: the old one, or a fresh one. -/
theorem get_register (m : TaskClaimMachine) (now : Int) (taskHash h : String)
    (reason : Option String) :
    (m.register now taskHash reason).get h
      = if h = taskHash then some ((m.get taskHash).getD (freshRecord now taskHash))
        else m.get h := by
  rcases register_cases m now taskHash reason with ⟨heq, r, hr⟩ | ⟨hnone, heq⟩
  · rw [heq]
    split
    next hh => rw [hh, hr]; rfl
    next => rfl
  · rw [heq, hnone, Option.getD_none]
    exact OrderedMap.get?_set ..

/-- What a move does to every record. -/
theorem get_move (m : TaskClaimMachine) (r : ClaimRecord) (now : Int) (taskHash h : String)
    (next : ClaimState) (cycleId reason : Option String) :
    (m.move r now taskHash next cycleId reason).get h
      = if h = taskHash then some (moved r now next cycleId) else m.get h :=
  OrderedMap.get?_set ..

/-- A transition touches no other hash. -/
theorem get_transition_ne (m : TaskClaimMachine) (now : Int) {taskHash h : String}
    (next : ClaimState) (cycleId reason : Option String) (hh : h ≠ taskHash) :
    (m.transition now taskHash next cycleId reason).1.get h = m.get h := by
  rcases transition_cases m now taskHash next cycleId reason with ⟨heq, -⟩ | ⟨r, -, -, heq⟩
  · rw [heq]
  · rw [heq, get_move, if_neg hh]

/-- A claim is refused, and then nothing changes, or it moves an Unclaimed (or
just registered) or RetryQueued record to Claimed. -/
theorem tryClaim_cases (m : TaskClaimMachine) (clock : Clock) (taskHash cycleId : String)
    (reason : Option String) :
    (m.tryClaim clock taskHash cycleId reason = (m, false) ∧
      ∃ r, m.get taskHash = some r ∧ r.state ≠ .unclaimed ∧ r.state ≠ .retryQueued) ∨
    ∃ r, (m.register (clock 0) taskHash none).get taskHash = some r ∧
      (r.state = .unclaimed ∨ r.state = .retryQueued) ∧
      m.tryClaim clock taskHash cycleId reason
        = ((m.register (clock 0) taskHash none).move r (clock 1) taskHash .claimed
            (some cycleId) reason, true) := by
  have hget := get_register m (clock 0) taskHash taskHash none
  rw [if_pos rfl] at hget
  have hledger := hget
  rw [get] at hledger
  unfold tryClaim
  simp only [hledger]
  split
  next hst =>
    -- the record was there before: a fresh one would be Unclaimed
    rcases register_cases m (clock 0) taskHash none with ⟨heq, r, hr⟩ | ⟨hnone, -⟩
    · rw [hr, Option.getD_some] at hst
      exact Or.inl ⟨by rw [heq], r, hr, hst⟩
    · rw [hnone, Option.getD_none] at hst
      exact absurd rfl hst.1
  next hst =>
    rcases transition_cases (m.register (clock 0) taskHash none) (clock 1) taskHash .claimed
      (some cycleId) reason with ⟨-, hno⟩ | ⟨r, hr, hl, heq⟩
    · refine absurd (claimed_mem_legal.mpr ?_) (hno _ hget)
      by_cases hu : ((m.get taskHash).getD (freshRecord (clock 0) taskHash)).state = .unclaimed
      · exact Or.inl hu
      · exact Or.inr (by_contra fun hq => hst ⟨hu, hq⟩)
    · exact Or.inr ⟨r, hr, claimed_mem_legal.mp hl, heq⟩

/-- A re-queueing is refused, and then nothing changes, or it moves a Running
record to RetryQueued and stamps its retry time. -/
theorem markRetryQueued_cases (m : TaskClaimMachine) (clock : Clock) (taskHash : String)
    (retryAfterMs : Number) (reason : Option String) :
    (m.markRetryQueued clock taskHash retryAfterMs reason = (m, false) ∧
      ∀ r, m.get taskHash = some r → r.state ≠ .running) ∨
    ∃ r, m.get taskHash = some r ∧ r.state = .running ∧
      m.markRetryQueued clock taskHash retryAfterMs reason
        = ({ ledger := (m.move r (clock 0) taskHash .retryQueued none reason).ledger.set taskHash
              { moved r (clock 0) .retryQueued none with
                retryAfter := some ((Number.ofInt (clock 1)).add retryAfterMs) }
             log := (m.move r (clock 0) taskHash .retryQueued none reason).log }, true) := by
  unfold markRetryQueued
  rcases transition_cases m (clock 0) taskHash .retryQueued none reason with
    ⟨heq, hno⟩ | ⟨r, hr, hl, heq⟩
  · refine Or.inl ⟨by rw [heq]; rfl, ?_⟩
    intro r hr hrun
    exact hno r hr (retryQueued_mem_legal.mpr hrun)
  · refine Or.inr ⟨r, hr, retryQueued_mem_legal.mp hl, ?_⟩
    rw [heq]
    have hmv := get_move m r (clock 0) taskHash taskHash .retryQueued none reason
    rw [if_pos rfl, get] at hmv
    simp only [if_true, hmv]

/-- A pruning is refused, and then nothing changes, or it deletes a record. -/
theorem prune_cases (m : TaskClaimMachine) (taskHash : String) :
    (m.prune taskHash = (m, false) ∧ m.get taskHash = none) ∨
    ∃ r, m.get taskHash = some r ∧ m.prune taskHash
      = ({ ledger := m.ledger.delete taskHash, log := m.log ++ [.pruned taskHash] }, true) := by
  unfold prune
  by_cases hh : m.ledger.has taskHash = true
  · obtain ⟨r, hr⟩ := (OrderedMap.has_iff m.ledger taskHash).mp hh
    exact Or.inr ⟨r, hr, if_pos hh⟩
  · refine Or.inl ⟨if_neg hh, ?_⟩
    cases hg : m.get taskHash with
    | none => rfl
    | some r => exact absurd ((OrderedMap.has_iff m.ledger taskHash).mpr ⟨r, hg⟩) hh

/-- What pruning does to every record. -/
theorem get_prune (m : TaskClaimMachine) (taskHash h : String) :
    (m.prune taskHash).1.get h = if h = taskHash then none else m.get h := by
  rcases prune_cases m taskHash with ⟨heq, hnone⟩ | ⟨r, -, heq⟩
  · rw [heq]
    split
    next hh => rw [hh]; exact hnone
    next => rfl
  · rw [heq]
    exact OrderedMap.get?_delete ..

/-- A re-queueing touches no other hash. -/
theorem get_markRetryQueued_ne (m : TaskClaimMachine) (clock : Clock) {taskHash h : String}
    (retryAfterMs : Number) (reason : Option String) (hh : h ≠ taskHash) :
    (m.markRetryQueued clock taskHash retryAfterMs reason).1.get h = m.get h := by
  rcases markRetryQueued_cases m clock taskHash retryAfterMs reason with
    ⟨heq, -⟩ | ⟨r, -, -, heq⟩
  · rw [heq]
  · rw [heq, get, OrderedMap.get?_set_ne _ _ hh]
    exact (get_move ..).trans (if_neg hh)

end TaskClaimMachine

end Kovael.Claims
