import Mathlib.Data.List.Dedup
import Mathlib.Data.List.Induction
import Kovael.Lts
import Kovael.Crypto.MerkleTree
import Kovael.Js.JsonNumber
import Kovael.Js.OrderedMap
import Kovael.Js.Utf8

/-!
# The cycle log

Mirrors `src/services/CycleLog.ts` on the table `cycle_events` of
`src/services/Migrator.ts`: `append`, `trail`, `sealCycle` and `replayOpenCycles`, with
the log object built anew on the table at any point.

Mirroring notes vs the TS:
- The table is a list of rows in the order in which they were inserted; an INSERT fails
  on a key `(cycle_id, seq)` that is there, and on any other `fault`.
- `seq + 1` is the addition of doubles: it stops at 2^53 (`increment`).
- A query is the list of its rows. SQLite leaves open in which order the groups of a
  GROUP BY come; here a cycle stands where `dedup` leaves it.
- A payload is an object of JSON that JavaScript can hold, `JSON.parse` reads numbers
  through `number`. `emitted` is what the listeners saw, over all log objects.

`Kept` ties the table and the counters to the list of the events that were appended;
`append_kept` and `rebuild_kept` are its step lemmas, and the queries are computed from it.
-/

namespace Kovael.Ledger

open Js (Json OrderedMap)
open Js.Base64 (Bytes)
open Js.Json (Held Prints)

inductive CycleEventKind where
  | cycleStarted
  | phaseTransition
  | taskClaimed
  | taskRunning
  | dispatchSent
  | dispatchReply
  | retryScheduled
  | retryExhausted
  | verifierScored
  | stopDecision
  | receiptIssued
  | cycleSealed
  | cycleFailed
deriving DecidableEq, Repr

def CycleEventKind.text : CycleEventKind → String
  | cycleStarted => "cycle_started"
  | phaseTransition => "phase_transition"
  | taskClaimed => "task_claimed"
  | taskRunning => "task_running"
  | dispatchSent => "dispatch_sent"
  | dispatchReply => "dispatch_reply"
  | retryScheduled => "retry_scheduled"
  | retryExhausted => "retry_exhausted"
  | verifierScored => "verifier_scored"
  | stopDecision => "stop_decision"
  | receiptIssued => "receipt_issued"
  | cycleSealed => "cycle_sealed"
  | cycleFailed => "cycle_failed"

structure CycleEvent where
  cycleId : String
  seq : Nat
  kind : CycleEventKind
  timestamp : Int
  actor : String
  payload : Json

/-- A row of `cycle_events`. -/
structure EventRow where
  cycleId : String
  seq : Nat
  kind : CycleEventKind
  timestamp : Int
  actor : String
  payload : String
deriving DecidableEq, Repr

structure CycleReceipt where
  cycleId : String
  merkleRoot : String
  eventCount : Nat
  sealedAt : Int
deriving DecidableEq, Repr

structure OpenCycleSummary where
  cycleId : String
  lastPhase : CycleEventKind
  lastActor : String
  eventCount : Nat
  startedAt : Int
  lastEventAt : Int
deriving DecidableEq, Repr

inductive Emitted where
  | event (event : CycleEvent)
  | cycleSealed (receipt : CycleReceipt)

structure CycleLog where
  cycleEvents : List EventRow
  seqCounters : OrderedMap String Nat
  emitted : List Emitted

/-- What is outside the source: `String(Number(text))` and SHA-256. -/
structure Env where
  number : String → String
  sha256 : Bytes → Bytes

/-- `seq + 1`. -/
def increment (seq : Nat) : Nat := if seq < 2 ^ 53 then seq + 1 else seq

/-- `safeParse(raw)`. -/
def safeParse (number : String → String) (raw : String) : Json :=
  (Json.parse number raw).getD (.object [("_raw", .string raw)])

def CycleEvent.row (event : CycleEvent) : EventRow :=
  ⟨event.cycleId, event.seq, event.kind, event.timestamp, event.actor, event.payload.stringify⟩

def EventRow.event (number : String → String) (row : EventRow) : CycleEvent :=
  ⟨row.cycleId, row.seq, row.kind, row.timestamp, row.actor, safeParse number row.payload⟩

/-! ## Queries -/

/-- `SELECT … FROM cycle_events WHERE cycle_id = ?`. -/
def rowsOf (cycleId : String) (rows : List EventRow) : List EventRow :=
  rows.filter fun row => row.cycleId = cycleId

/-- `SELECT MAX(seq) FROM cycle_events WHERE cycle_id = ?`. -/
def maxSeq (cycleId : String) (rows : List EventRow) : Option Nat :=
  ((rowsOf cycleId rows).map EventRow.seq).max?

/-- `SELECT cycle_id, MAX(seq) AS max_seq FROM cycle_events GROUP BY cycle_id`. -/
def maxSeqs (rows : List EventRow) : List (String × Nat) :=
  (rows.map EventRow.cycleId).dedup.filterMap fun cycleId =>
    (maxSeq cycleId rows).map fun seq => (cycleId, seq)

/-- `kind IN ('cycle_sealed', 'cycle_failed')`. -/
def CycleEventKind.isTerminal (kind : CycleEventKind) : Bool :=
  kind = cycleSealed || kind = cycleFailed

/-- `SELECT DISTINCT cycle_id FROM cycle_events WHERE kind IN …`. -/
def closedIds (rows : List EventRow) : List String :=
  ((rows.filter fun row => row.kind.isTerminal).map EventRow.cycleId).dedup

/-- `cycle_events e JOIN cycle_events last_e ON …`. -/
def joined (rows : List EventRow) : List (EventRow × EventRow) :=
  rows.flatMap fun e =>
    (rows.filter fun last => last.cycleId = e.cycleId && some last.seq = maxSeq e.cycleId rows).map
      fun last => (e, last)

/-- `WHERE e.cycle_id NOT IN (…)`. -/
def selected (rows : List EventRow) : List (EventRow × EventRow) :=
  (joined rows).filter fun p => p.1.cycleId ∉ closedIds rows

/-- The columns of one group. -/
def summary (cycleId : String) : List (EventRow × EventRow) → Option OpenCycleSummary
  | [] => none
  | (e, last) :: group =>
    some {
      cycleId
      lastPhase := last.kind
      lastActor := last.actor
      eventCount := group.length + 1
      startedAt := (group.map fun p => p.1.timestamp).foldl min e.timestamp
      lastEventAt := (group.map fun p => p.1.timestamp).foldl max e.timestamp }

namespace CycleLog

/-- `replayOpenCycles()`. -/
def replayOpenCycles (log : CycleLog) : List OpenCycleSummary :=
  ((selected log.cycleEvents).map fun p => p.1.cycleId).dedup.filterMap fun cycleId =>
    summary cycleId ((selected log.cycleEvents).filter fun p => p.1.cycleId = cycleId)

/-- `trail(cycleId)`, with `ORDER BY seq ASC`. -/
def trail (number : String → String) (log : CycleLog) (cycleId : String) : List CycleEvent :=
  ((rowsOf cycleId log.cycleEvents).mergeSort fun a b => a.seq ≤ b.seq).map (EventRow.event number)

/-! ## Operations -/

/-- `new CycleLog(db)` on the database of `log`. -/
def rebuild (log : CycleLog) : CycleLog :=
  let seqCounters :=
    (maxSeqs log.cycleEvents).foldl (fun counters e => counters.set e.1 (increment e.2)) .empty
  { log with seqCounters }

/-- `insertStmt.run(…)`. -/
def insert (rows : List EventRow) (row : EventRow) : Except String (List EventRow) :=
  if rows.any fun r => r.cycleId = row.cycleId && r.seq = row.seq then
    .error "UNIQUE constraint failed: cycle_events.cycle_id, cycle_events.seq"
  else .ok (rows ++ [row])

/-- `append(cycleId, kind, actor, payload)` at the time `now`. -/
def append (log : CycleLog) (cycleId : String) (kind : CycleEventKind) (actor : String)
    (payload : Json) (now : Int) (fault : Option String) : CycleLog × Except String CycleEvent :=
  let seq := (log.seqCounters.get? cycleId).getD 0
  let event : CycleEvent := ⟨cycleId, seq, kind, now, actor, payload⟩
  match fault with
  | some err => (log, .error err)
  | none =>
    match insert log.cycleEvents event.row with
    | .error err => (log, .error err)
    | .ok rows =>
      ({ cycleEvents := rows
         seqCounters := log.seqCounters.set cycleId (increment seq)
         emitted := log.emitted ++ [.event event] }, .ok event)

/-- `buffer.toString('hex')`. -/
def hex (bytes : Bytes) : String :=
  String.ofList (bytes.flatMap fun b => [Json.hexDigit (b.toNat / 16), Json.hexDigit (b.toNat % 16)])

/-- The hash of a pair of nodes. -/
def combine (sha256 : Bytes → Bytes) (left right : Bytes) : Bytes := sha256 (left ++ right)

/-- `computeMerkleRoot(leaves)`. -/
def computeMerkleRoot (sha256 : Bytes → Bytes) (leaves : List Bytes) : String :=
  match Crypto.MerkleTree.root (combine sha256) leaves with
  | none => hex (sha256 (Js.Utf8.encode "empty"))
  | some root => hex root

/-- The text that a leaf is the hash of. -/
def leafText (e : CycleEvent) : String :=
  e.cycleId ++ ":" ++ toString e.seq ++ ":" ++ e.kind.text ++ ":" ++ toString e.timestamp ++ ":"
    ++ e.actor ++ ":" ++ e.payload.stringify

def leaf (sha256 : Bytes → Bytes) (e : CycleEvent) : Bytes := sha256 (Js.Utf8.encode (leafText e))

/-- The receipt that `sealCycle(cycleId)` makes at the time `sealedAt`. -/
def receipt (env : Env) (log : CycleLog) (cycleId : String) (sealedAt : Int) :
    Except String CycleReceipt :=
  let events := log.trail env.number cycleId
  if events.length = 0 then .error ("CycleLog.sealCycle: no events for cycle " ++ cycleId)
  else .ok {
    cycleId
    merkleRoot := computeMerkleRoot env.sha256 (events.map (leaf env.sha256))
    eventCount := events.length
    sealedAt }

/-- The payload of the event that seals a cycle. -/
def sealPayload (receipt : CycleReceipt) : Json :=
  .object [("merkleRoot", .string receipt.merkleRoot), ("eventCount", .ofInt receipt.eventCount)]

/-- `sealCycle(cycleId)`, whose event is appended at the time `now`. -/
def sealCycle (env : Env) (log : CycleLog) (cycleId : String) (sealedAt now : Int)
    (fault : Option String) : CycleLog × Except String CycleReceipt :=
  match log.receipt env cycleId sealedAt with
  | .error err => (log, .error err)
  | .ok receipt =>
    match log.append cycleId .cycleSealed "orchestrator" (sealPayload receipt) now fault with
    | (log, .error err) => (log, .error err)
    | (log, .ok _) => ({ log with emitted := log.emitted ++ [.cycleSealed receipt] }, .ok receipt)

end CycleLog

/-! ## Runs -/

/-- An object of JSON. -/
structure Payload (number : String → String) where
  fields : List (String × Json)
  held : Held number (.object fields)

def Payload.value {number : String → String} (payload : Payload number) : Json :=
  .object payload.fields

inductive Call (number : String → String) where
  | append (cycleId : String) (kind : CycleEventKind) (actor : String) (payload : Payload number)
      (now : Int) (fault : Option String)
  | sealCycle (cycleId : String) (sealedAt now : Int) (fault : Option String)
  | rebuild

namespace CycleLog

/-- A log on a new table. -/
def new : CycleLog := ⟨[], .empty, []⟩

variable (env : Env)

def call (log : CycleLog) : Call env.number → CycleLog
  | .append cycleId kind actor payload now fault =>
    (log.append cycleId kind actor payload.value now fault).1
  | .sealCycle cycleId sealedAt now fault => (log.sealCycle env cycleId sealedAt now fault).1
  | .rebuild => log.rebuild

/-- The event that the call appends, if its `append` returns. -/
def appended (log : CycleLog) : Call env.number → List CycleEvent
  | .append cycleId kind actor payload now fault =>
    (log.append cycleId kind actor payload.value now fault).2.toOption.toList
  | .sealCycle cycleId sealedAt now fault =>
    match log.receipt env cycleId sealedAt with
    | .error _ => []
    | .ok receipt =>
      (log.append cycleId .cycleSealed "orchestrator" (sealPayload receipt) now
        fault).2.toOption.toList
  | .rebuild => []

/-- The log after the calls. -/
def after (log : CycleLog) : List (Call env.number) → CycleLog
  | [] => log
  | c :: calls => after (log.call env c) calls

/-- All events that the calls append. -/
def history (log : CycleLog) : List (Call env.number) → List CycleEvent
  | [] => []
  | c :: calls => log.appended env c ++ history (log.call env c) calls

end CycleLog

/-! ## The table and the counters -/

/-- The events of one cycle. -/
def eventsOf (cycleId : String) (events : List CycleEvent) : List CycleEvent :=
  events.filter fun e => e.cycleId = cycleId

/-- What was emitted as `'event'`. -/
def emittedEvents (emitted : List Emitted) : List CycleEvent :=
  emitted.filterMap fun e =>
    match e with
    | .event event => some event
    | .cycleSealed _ => none

/-- The table holds the events, numbered in each cycle, and the counters are in step. -/
structure Kept (number : String → String) (log : CycleLog) (events : List CycleEvent) :
    Prop where
  rows : log.cycleEvents = events.map CycleEvent.row
  numbered : ∀ c, (eventsOf c events).map CycleEvent.seq = List.range (eventsOf c events).length
  counters : ∀ c, (log.seqCounters.get? c).getD 0 = min (eventsOf c events).length (2 ^ 53)
  bounded : ∀ c, (eventsOf c events).length ≤ 2 ^ 53 + 1
  held : ∀ e ∈ events, Held number e.payload

theorem kept_new (number : String → String) : Kept number .new [] where
  rows := rfl
  numbered := fun _ => rfl
  counters := fun _ => rfl
  bounded := fun _ => Nat.zero_le _
  held := fun _ he => absurd he List.not_mem_nil

theorem eventsOf_append (c : String) (events events' : List CycleEvent) :
    eventsOf c (events ++ events') = eventsOf c events ++ eventsOf c events' := List.filter_append ..

theorem eventsOf_self {e : CycleEvent} : eventsOf e.cycleId [e] = [e] := by
  simp [eventsOf]

theorem eventsOf_ne {e : CycleEvent} {c : String} (h : e.cycleId ≠ c) : eventsOf c [e] = [] := by
  rw [eventsOf, List.filter_cons_of_neg (by simpa using h), List.filter_nil]

variable {number : String → String} {log : CycleLog} {events : List CycleEvent}

theorem rowsOf_map (c : String) (events : List CycleEvent) :
    rowsOf c (events.map CycleEvent.row) = (eventsOf c events).map CycleEvent.row :=
  List.filter_map

/-- The keys that the table holds of a cycle. -/
theorem Kept.any_iff (h : Kept number log events) (c : String) (k : Nat) :
    (log.cycleEvents.any fun r => r.cycleId = c && r.seq = k) = true
      ↔ k < (eventsOf c events).length := by
  rw [← List.mem_range, ← h.numbered c, h.rows, List.any_map, List.any_eq_true, List.mem_map]
  constructor
  · intro hgiven
    obtain ⟨e, he, heq⟩ := hgiven
    obtain ⟨hcycle, hseq⟩ := Bool.and_eq_true_iff.mp heq
    exact ⟨e, List.mem_filter.mpr ⟨he, hcycle⟩, of_decide_eq_true hseq⟩
  · intro hgiven
    obtain ⟨e, he, hseq⟩ := hgiven
    obtain ⟨he, hcycle⟩ := List.mem_filter.mp he
    exact ⟨e, he, Bool.and_eq_true_iff.mpr ⟨hcycle, decide_eq_true hseq⟩⟩

/-- The next number of a cycle is free. -/
theorem Kept.insert_free (h : Kept number log events) {row : EventRow}
    (hseq : row.seq = (eventsOf row.cycleId events).length) :
    CycleLog.insert log.cycleEvents row = .ok (log.cycleEvents ++ [row]) := by
  rw [CycleLog.insert, if_neg]
  rw [h.any_iff, hseq]
  exact Nat.lt_irrefl _

theorem Kept.insert_taken (h : Kept number log events) {row : EventRow}
    (hseq : row.seq < (eventsOf row.cycleId events).length) :
    CycleLog.insert log.cycleEvents row
      = .error "UNIQUE constraint failed: cycle_events.cycle_id, cycle_events.seq" :=
  if_pos ((h.any_iff row.cycleId row.seq).mpr hseq)

/-- An event with the next number of its cycle keeps the numbering. -/
theorem numbered_append {e : CycleEvent}
    (h : ∀ c, (eventsOf c events).map CycleEvent.seq = List.range (eventsOf c events).length)
    (hseq : e.seq = (eventsOf e.cycleId events).length) (c : String) :
    (eventsOf c (events ++ [e])).map CycleEvent.seq
      = List.range (eventsOf c (events ++ [e])).length := by
  rw [eventsOf_append]
  by_cases hc : e.cycleId = c
  · subst hc
    rw [eventsOf_self, List.map_append, h, List.length_append, List.length_singleton,
      List.range_succ, ← hseq]
    rfl
  · rw [eventsOf_ne hc, List.append_nil]
    exact h c

/-- What one `append` does: it fails and changes nothing, or it inserts and emits an
event with the next number of its cycle. -/
theorem append_kept (h : Kept number log events) (cycleId : String) (kind : CycleEventKind)
    (actor : String) {payload : Json}
    (hpayload : (eventsOf cycleId events).length ≤ 2 ^ 53 → Held number payload) (now : Int)
    (fault : Option String) :
    (∃ err, log.append cycleId kind actor payload now fault = (log, .error err)) ∨
    ∃ log' e, log.append cycleId kind actor payload now fault = (log', .ok e) ∧
      e = ⟨cycleId, (eventsOf cycleId events).length, kind, now, actor, payload⟩ ∧
      e.seq ≤ 2 ^ 53 ∧ log'.emitted = log.emitted ++ [.event e] ∧ Kept number log' (events ++ [e]) := by
  have hbounded := h.bounded cycleId
  have hcounter := h.counters cycleId
  unfold CycleLog.append
  cases fault with
  | some err => exact Or.inl ⟨err, rfl⟩
  | none =>
    dsimp only
    rw [hcounter]
    by_cases hfull : (eventsOf cycleId events).length ≤ 2 ^ 53
    · -- the key is free
      rw [Nat.min_eq_left hfull, h.insert_free rfl]
      refine Or.inr ⟨_, _, rfl, rfl, hfull, rfl, ?_, ?_, ?_, ?_, ?_⟩
      · show log.cycleEvents ++ [_] = _
        rw [h.rows, List.map_append]
        rfl
      · exact numbered_append h.numbered rfl
      · intro c
        show ((log.seqCounters.set cycleId _).get? c).getD 0 = _
        rw [OrderedMap.get?_set, eventsOf_append]
        by_cases hc : cycleId = c
        · subst hc
          rw [if_pos rfl, eventsOf_self (e := ⟨cycleId, _, _, _, _, _⟩), List.length_append]
          show increment _ = min (_ + 1) _
          rw [increment]
          split <;> omega
        · rw [if_neg (Ne.symm hc), eventsOf_ne hc, List.append_nil]
          exact h.counters c
      · intro c
        rw [eventsOf_append]
        by_cases hc : cycleId = c
        · subst hc
          rw [eventsOf_self (e := ⟨cycleId, _, _, _, _, _⟩), List.length_append,
            List.length_singleton]
          omega
        · rw [eventsOf_ne hc, List.append_nil]
          exact h.bounded c
      · intro e he
        rcases List.mem_append.mp he with he | he
        · exact h.held e he
        · obtain rfl := List.mem_singleton.mp he
          exact hpayload hfull
    · -- the number is taken
      have hmin : min (eventsOf cycleId events).length (2 ^ 53) = 2 ^ 53 := by omega
      have htaken : 2 ^ 53 < (eventsOf cycleId events).length := by omega
      rw [hmin, h.insert_taken htaken]
      exact Or.inl ⟨_, rfl⟩

/-! ## The queries -/

theorem max?_range (n : Nat) : (List.range (n + 1)).max? = some n := by
  rw [List.max?_eq_some_iff]
  refine ⟨List.mem_range.mpr (Nat.lt_succ_self n), ?_⟩
  intro k hk
  exact Nat.le_of_lt_succ (List.mem_range.mp hk)

theorem Kept.map_seq_rowsOf (h : Kept number log events) (c : String) :
    (rowsOf c log.cycleEvents).map EventRow.seq = List.range (eventsOf c events).length := by
  rw [h.rows, rowsOf_map, List.map_map]
  exact h.numbered c

theorem Kept.maxSeq_eq (h : Kept number log events) (c : String) :
    maxSeq c log.cycleEvents =
      if (eventsOf c events).length = 0 then none else some ((eventsOf c events).length - 1) := by
  rw [maxSeq, h.map_seq_rowsOf]
  cases (eventsOf c events).length with
  | zero => rfl
  | succ n => exact max?_range n

/-- What the constructor makes of the groups. -/
theorem get?_foldl_set (g : String → Option Nat) (c : String) (ids : List String) :
    ∀ counters : OrderedMap String Nat,
      ((ids.filterMap fun id => (g id).map fun seq => (id, seq)).foldl
          (fun counters e => counters.set e.1 (increment e.2)) counters).get? c
        = if c ∈ ids then ((g c).map increment).or (counters.get? c) else counters.get? c := by
  induction ids with
  | nil =>
    intro counters
    rfl
  | cons id ids ih =>
    intro counters
    rw [List.filterMap_cons]
    by_cases hid : c = id
    · subst hid
      rw [if_pos (List.mem_cons_self ..)]
      cases hg : g c with
      | none =>
        simp only [Option.map_none]
        rw [ih, hg]
        simp
      | some seq =>
        simp only [Option.map_some, List.foldl_cons]
        rw [ih, OrderedMap.get?_set, if_pos rfl, hg]
        simp
    · have hmem : c ∈ id :: ids ↔ c ∈ ids := by simp [hid]
      simp only [hmem]
      cases hg : g id with
      | none =>
        simp only [Option.map_none]
        exact ih counters
      | some seq =>
        simp only [Option.map_some, List.foldl_cons]
        rw [ih, OrderedMap.get?_set, if_neg hid]

/-- A log object built on the table counts on where the old one did. -/
theorem rebuild_kept (h : Kept number log events) : Kept number log.rebuild events where
  rows := h.rows
  numbered := h.numbered
  bounded := h.bounded
  held := h.held
  counters := by
    intro c
    have hget : log.rebuild.seqCounters.get? c
        = (maxSeq c log.cycleEvents).map increment := by
      show ((maxSeqs log.cycleEvents).foldl _ OrderedMap.empty).get? c = _
      rw [maxSeqs, get?_foldl_set]
      split
      next => exact Option.or_none
      next hc =>
        -- no row, so no number
        have hnone : rowsOf c log.cycleEvents = [] := by
          rw [rowsOf, List.filter_eq_nil_iff]
          intro row hrow hcycle
          refine hc (List.mem_dedup.mpr (List.mem_map.mpr ⟨row, hrow, ?_⟩))
          exact of_decide_eq_true hcycle
        rw [maxSeq, hnone]
        rfl
    have hbounded := h.bounded c
    rw [hget, h.maxSeq_eq]
    by_cases hempty : (eventsOf c events).length = 0
    · rw [if_pos hempty, hempty]
      rfl
    · rw [if_neg hempty]
      show increment _ = _
      rw [increment]
      split <;> omega

/-- What is read back of a row is the event. -/
theorem event_row {e : CycleEvent} (h : Held number e.payload) : e.row.event number = e := by
  rw [EventRow.event, CycleEvent.row, safeParse, Json.parse_stringify number h, Option.getD_some]

theorem Kept.trail_eq (h : Kept number log events) (c : String) :
    log.trail number c = eventsOf c events := by
  have hsorted : (rowsOf c log.cycleEvents).Pairwise fun a b => a.seq ≤ b.seq := by
    rw [← List.pairwise_map (f := EventRow.seq) (R := (· ≤ ·)), h.map_seq_rowsOf]
    exact List.pairwise_le_range
  rw [CycleLog.trail, List.mergeSort_of_pairwise (hsorted.imp fun hle => decide_eq_true hle),
    h.rows, rowsOf_map, List.map_map]
  refine (List.map_congr_left ?_).trans (List.map_id _)
  intro e he
  exact event_row (h.held e (List.mem_filter.mp he).1)

/-! ## Open cycles -/

/-- The cycle has events, and none of them ends it. -/
def IsOpen (c : String) (events : List CycleEvent) : Prop :=
  eventsOf c events ≠ [] ∧ ∀ e ∈ eventsOf c events, e.kind ≠ .cycleSealed ∧ e.kind ≠ .cycleFailed

/-- What `replayOpenCycles` promises of the events of a cycle. -/
structure Summarizes (es : List CycleEvent) (s : OpenCycleSummary) : Prop where
  count : s.eventCount = es.length
  last : ∃ e, es.getLast? = some e ∧ s.lastPhase = e.kind ∧ s.lastActor = e.actor
  started : s.startedAt ∈ es.map CycleEvent.timestamp ∧ ∀ e ∈ es, s.startedAt ≤ e.timestamp
  lastEventAt : s.lastEventAt ∈ es.map CycleEvent.timestamp ∧ ∀ e ∈ es, e.timestamp ≤ s.lastEventAt

/-- `last_e`, for the rows of one cycle. -/
def lastRows (c : String) (rows : List EventRow) : List EventRow :=
  rows.filter fun last => last.cycleId = c && some last.seq = maxSeq c rows

/-- The join, for the rows of one cycle. -/
theorem filter_joined (c : String) (rows : List EventRow) :
    (joined rows).filter (fun p => p.1.cycleId = c)
      = (rowsOf c rows).flatMap fun e => (lastRows c rows).map fun last => (e, last) := by
  suffices h : ∀ es : List EventRow, (es.flatMap fun e => (lastRows e.cycleId rows).map
      fun last => (e, last)).filter (fun p => p.1.cycleId = c)
        = (rowsOf c es).flatMap fun e => (lastRows c rows).map fun last => (e, last) from h rows
  intro es
  induction es with
  | nil => rfl
  | cons e es ih =>
    rw [List.flatMap_cons, List.filter_append, ih, List.filter_map]
    by_cases hc : e.cycleId = c
    · have hrows : rowsOf c (e :: es) = e :: rowsOf c es := List.filter_cons_of_pos (by simpa using hc)
      rw [hrows, List.flatMap_cons, hc]
      congr 2
      exact List.filter_eq_self.mpr fun _ _ => decide_eq_true hc
    · have hrows : rowsOf c (e :: es) = rowsOf c es := List.filter_cons_of_neg (by simpa using hc)
      have hnone : (lastRows e.cycleId rows).filter
          ((fun p : EventRow × EventRow => decide (p.1.cycleId = c)) ∘ fun last => (e, last)) = [] :=
        List.filter_eq_nil_iff.mpr fun _ _ h => hc (of_decide_eq_true h)
      rw [hrows, hnone]
      rfl

/-- In a numbered list the last event has the largest number. -/
theorem filter_last {es : List CycleEvent} (hne : es ≠ [])
    (hseq : es.map CycleEvent.seq = List.range es.length) :
    ∃ last, es.getLast? = some last ∧ es.filter (fun e => e.seq = es.length - 1) = [last] := by
  obtain ⟨init, last, rfl⟩ := List.eq_nil_or_concat es |>.resolve_left hne
  rw [List.concat_eq_append] at hseq ⊢
  rw [List.map_append, List.length_append, List.length_singleton, List.range_succ] at hseq
  obtain ⟨hinit, hlast⟩ := List.append_inj' hseq rfl
  have hlast : last.seq = init.length := (List.cons.inj hlast).1
  refine ⟨last, List.getLast?_concat .., ?_⟩
  rw [List.length_append, List.length_singleton, Nat.add_sub_cancel, List.filter_append]
  have hnone : init.filter (fun e => e.seq = init.length) = [] := by
    rw [List.filter_eq_nil_iff]
    intro e he hlen
    have hmem : e.seq ∈ List.range init.length := hinit ▸ List.mem_map_of_mem he
    exact absurd (of_decide_eq_true hlen) (Nat.ne_of_lt (List.mem_range.mp hmem))
  rw [hnone, List.nil_append, List.filter_cons_of_pos (by simpa using hlast), List.filter_nil]

/-- The join gives every row of a cycle its last row. -/
theorem Kept.filter_joined (h : Kept number log events) {c : String}
    (hne : eventsOf c events ≠ []) :
    ∃ last, (eventsOf c events).getLast? = some last ∧
      (joined log.cycleEvents).filter (fun p => p.1.cycleId = c)
        = (eventsOf c events).map fun e => (e.row, last.row) := by
  obtain ⟨last, hgetLast, hfilter⟩ := filter_last hne (h.numbered c)
  refine ⟨last, hgetLast, ?_⟩
  have hlen : (eventsOf c events).length ≠ 0 := fun hzero => hne (List.length_eq_zero_iff.mp hzero)
  have hlast : lastRows c log.cycleEvents = [last.row] := by
    have hsplit : lastRows c log.cycleEvents = (rowsOf c log.cycleEvents).filter
        fun row => some row.seq = some ((eventsOf c events).length - 1) := by
      rw [lastRows, h.maxSeq_eq, if_neg hlen, rowsOf, List.filter_filter]
      refine List.filter_congr fun row _ => Bool.and_comm ..
    rw [hsplit, h.rows, rowsOf_map, List.filter_map]
    have hcongr : (eventsOf c events).filter ((fun row : EventRow =>
        decide (some row.seq = some ((eventsOf c events).length - 1))) ∘ CycleEvent.row) = [last] := by
      rw [← hfilter]
      exact List.filter_congr fun e _ => decide_eq_decide.mpr Option.some_inj
    rw [hcongr]
    rfl
  rw [Ledger.filter_joined, hlast, h.rows, rowsOf_map]
  show ((eventsOf c events).map CycleEvent.row).flatMap (fun e => [(e, last.row)]) = _
  rw [← List.map_eq_flatMap, List.map_map]
  rfl

theorem foldl_min_spec (t : Int) (ts : List Int) :
    ts.foldl min t ∈ t :: ts ∧ ∀ u ∈ t :: ts, ts.foldl min t ≤ u :=
  List.min?_eq_some_iff.mp List.min?_cons'

theorem foldl_max_spec (t : Int) (ts : List Int) :
    ts.foldl max t ∈ t :: ts ∧ ∀ u ∈ t :: ts, u ≤ ts.foldl max t :=
  List.max?_eq_some_iff.mp List.max?_cons'

/-- The columns of a group whose rows all have the same last row. -/
theorem summary_map {es : List CycleEvent} {c : String} {last : CycleEvent}
    (hlast : es.getLast? = some last) :
    ∃ s, summary c (es.map fun e => (e.row, last.row)) = some s ∧ s.cycleId = c ∧
      Summarizes es s := by
  cases es with
  | nil => cases hlast
  | cons e es =>
    have htimes : (es.map fun e => (e.row, last.row)).map (fun p => p.1.timestamp)
        = es.map CycleEvent.timestamp := List.map_map ..
    have hmin := foldl_min_spec e.timestamp (es.map CycleEvent.timestamp)
    have hmax := foldl_max_spec e.timestamp (es.map CycleEvent.timestamp)
    refine ⟨_, rfl, rfl, ?_, ⟨last, hlast, rfl, rfl⟩, ?_, ?_⟩
    · show (es.map _).length + 1 = (e :: es).length
      rw [List.length_map, List.length_cons]
    · show ((es.map fun e => (e.row, last.row)).map fun p => p.1.timestamp).foldl min e.timestamp
          ∈ _ ∧ ∀ e' ∈ _, ((es.map fun e => (e.row, last.row)).map
            fun p => p.1.timestamp).foldl min e.timestamp ≤ _
      rw [htimes]
      exact ⟨hmin.1, fun e' he' => hmin.2 _ (List.mem_map_of_mem he')⟩
    · show ((es.map fun e => (e.row, last.row)).map fun p => p.1.timestamp).foldl max e.timestamp
          ∈ _ ∧ ∀ e' ∈ _, _ ≤ ((es.map fun e => (e.row, last.row)).map
            fun p => p.1.timestamp).foldl max e.timestamp
      rw [htimes]
      exact ⟨hmax.1, fun e' he' => hmax.2 _ (List.mem_map_of_mem he')⟩

theorem Kept.mem_closedIds (h : Kept number log events) (c : String) :
    c ∈ closedIds log.cycleEvents ↔
      ∃ e ∈ eventsOf c events, e.kind = .cycleSealed ∨ e.kind = .cycleFailed := by
  rw [closedIds, List.mem_dedup, List.mem_map, h.rows]
  constructor
  · intro hgiven
    obtain ⟨row, hrow, rfl⟩ := hgiven
    obtain ⟨hrow, hkind⟩ := List.mem_filter.mp hrow
    obtain ⟨e, he, rfl⟩ := List.mem_map.mp hrow
    rw [CycleEventKind.isTerminal, Bool.or_eq_true, decide_eq_true_eq, decide_eq_true_eq] at hkind
    exact ⟨e, List.mem_filter.mpr ⟨he, decide_eq_true rfl⟩, hkind⟩
  · intro hgiven
    obtain ⟨e, he, hkind⟩ := hgiven
    obtain ⟨he, hcycle⟩ := List.mem_filter.mp he
    refine ⟨e.row, List.mem_filter.mpr ⟨List.mem_map_of_mem he, ?_⟩, of_decide_eq_true hcycle⟩
    rw [CycleEventKind.isTerminal, Bool.or_eq_true, decide_eq_true_eq, decide_eq_true_eq]
    exact hkind

theorem Kept.filter_selected (h : Kept number log events) {c : String} (hopen : IsOpen c events) :
    ∃ last, (eventsOf c events).getLast? = some last ∧
      (selected log.cycleEvents).filter (fun p => p.1.cycleId = c)
        = (eventsOf c events).map fun e => (e.row, last.row) := by
  obtain ⟨last, hlast, hjoined⟩ := h.filter_joined hopen.1
  refine ⟨last, hlast, ?_⟩
  rw [← hjoined, selected, List.filter_filter]
  refine List.filter_congr ?_
  intro p _
  by_cases hp : p.1.cycleId = c
  · have hnot : c ∉ closedIds log.cycleEvents := by
      rw [h.mem_closedIds]
      intro hgiven
      obtain ⟨e, he, hkind⟩ := hgiven
      rcases hkind with hkind | hkind
      · exact (hopen.2 e he).1 hkind
      · exact (hopen.2 e he).2 hkind
    simp [hp, hnot]
  · simp [hp]

/-- A cycle has rows that the WHERE clause leaves just if it is open. -/
theorem Kept.mem_selected (h : Kept number log events) (c : String) :
    c ∈ (selected log.cycleEvents).map (fun p => p.1.cycleId) ↔ IsOpen c events := by
  constructor
  · intro hc
    obtain ⟨p, hp, rfl⟩ := List.mem_map.mp hc
    obtain ⟨hp, hopen⟩ := List.mem_filter.mp hp
    have hopen := of_decide_eq_true hopen
    rw [h.mem_closedIds] at hopen
    refine ⟨?_, ?_⟩
    · obtain ⟨row, hrow, hpe⟩ := List.mem_flatMap.mp hp
      obtain ⟨last, -, rfl⟩ := List.mem_map.mp hpe
      rw [h.rows] at hrow
      obtain ⟨e, he, rfl⟩ := List.mem_map.mp hrow
      exact List.ne_nil_of_mem (List.mem_filter.mpr ⟨he, decide_eq_true rfl⟩)
    · intro e he
      exact ⟨fun hkind => hopen ⟨e, he, Or.inl hkind⟩, fun hkind => hopen ⟨e, he, Or.inr hkind⟩⟩
  · intro hopen
    obtain ⟨last, -, hfilter⟩ := h.filter_selected hopen
    obtain ⟨e, he⟩ := List.exists_mem_of_ne_nil _ hopen.1
    have hmem := List.mem_map_of_mem (f := fun e : CycleEvent => (e.row, last.row)) he
    rw [← hfilter] at hmem
    obtain ⟨hmem, -⟩ := List.mem_filter.mp hmem
    exact List.mem_map.mpr ⟨_, hmem, of_decide_eq_true (List.mem_filter.mp he).2⟩

/-- Every open cycle has one summary, and no other cycle has one. -/
structure Replayed (events : List CycleEvent) (summaries : List OpenCycleSummary) : Prop where
  once : (summaries.map OpenCycleSummary.cycleId).Nodup
  isOpen : ∀ c, c ∈ summaries.map OpenCycleSummary.cycleId ↔ IsOpen c events
  summarizes : ∀ s ∈ summaries, Summarizes (eventsOf s.cycleId events) s

theorem Kept.replayed (h : Kept number log events) : Replayed events log.replayOpenCycles := by
  have hsummary : ∀ c ∈ ((selected log.cycleEvents).map fun p => p.1.cycleId).dedup, ∃ s,
      summary c ((selected log.cycleEvents).filter fun p => p.1.cycleId = c) = some s ∧
        s.cycleId = c ∧ Summarizes (eventsOf c events) s := by
    intro c hc
    obtain ⟨last, hlast, hfilter⟩ :=
      h.filter_selected ((h.mem_selected c).mp (List.mem_dedup.mp hc))
    rw [hfilter]
    exact summary_map hlast
  have hids : log.replayOpenCycles.map OpenCycleSummary.cycleId
      = ((selected log.cycleEvents).map fun p => p.1.cycleId).dedup := by
    show (List.filterMap _ _).map _ = _
    rw [List.map_filterMap]
    refine (List.filterMap_congr ?_).trans List.filterMap_some
    intro c hc
    obtain ⟨s, hs, hcycle, -⟩ := hsummary c hc
    show Option.map _ (summary c ((selected log.cycleEvents).filter fun p => p.1.cycleId = c)) = _
    rw [hs, Option.map_some, hcycle]
  refine ⟨?_, ?_, ?_⟩
  · rw [hids]
    exact List.nodup_dedup _
  · intro c
    rw [hids, List.mem_dedup]
    exact h.mem_selected c
  · intro s hs
    obtain ⟨c, hc, hcs⟩ := List.mem_filterMap.mp hs
    obtain ⟨s', hs', hcycle, hsummarizes⟩ := hsummary c hc
    have heq : some s' = some s := hs'.symm.trans hcs
    obtain rfl := Option.some.inj heq
    rw [hcycle]
    exact hsummarizes

/-! ## Calls -/

variable {env : Env}

theorem held_sealPayload (hnumber : Prints env.number) {r : CycleReceipt}
    (h : r.eventCount ≤ 2 ^ 53) : Held env.number (CycleLog.sealPayload r) := by
  have hnodup : ["merkleRoot", "eventCount"].Nodup := by decide
  have hnames : ∀ key ∈ ["merkleRoot", "eventCount"], Js.arrayIndex? key = none := by
    decide +kernel
  exact ⟨hnodup, Json.enumerated_of_names hnames, trivial,
    Json.held_ofInt hnumber (by rw [Int.natAbs_natCast]; exact h), trivial⟩

/-- The receipt of a cycle is made of its events. -/
theorem receipt_kept (h : Kept env.number log events) (c : String) (sealedAt : Int) :
    log.receipt env c sealedAt =
      if (eventsOf c events).length = 0 then
        .error ("CycleLog.sealCycle: no events for cycle " ++ c)
      else .ok ⟨c, CycleLog.computeMerkleRoot env.sha256
        ((eventsOf c events).map (CycleLog.leaf env.sha256)), (eventsOf c events).length, sealedAt⟩ := by
  rw [CycleLog.receipt, h.trail_eq]

theorem emittedEvents_append (emitted emitted' : List Emitted) :
    emittedEvents (emitted ++ emitted') = emittedEvents emitted ++ emittedEvents emitted' :=
  List.filterMap_append

/-- `sealCycle` fails and changes nothing, or it appends the event that seals the cycle. -/
theorem seal_kept (hnumber : Prints env.number) (h : Kept env.number log events) (c : String)
    (sealedAt now : Int) (fault : Option String) :
    (∃ err, log.sealCycle env c sealedAt now fault = (log, .error err) ∧
      log.appended env (.sealCycle c sealedAt now fault) = []) ∨
    ∃ log' r e, log.sealCycle env c sealedAt now fault = (log', .ok r) ∧
      log.appended env (.sealCycle c sealedAt now fault) = [e] ∧
      log.receipt env c sealedAt = .ok r ∧ Kept env.number log' (events ++ [e]) ∧
      emittedEvents log'.emitted = emittedEvents log.emitted ++ [e] := by
  rw [CycleLog.sealCycle, CycleLog.appended]
  cases hreceipt : log.receipt env c sealedAt with
  | error err => exact Or.inl ⟨err, rfl, rfl⟩
  | ok r =>
    have hcount : r.eventCount = (eventsOf c events).length := by
      rw [receipt_kept h] at hreceipt
      split at hreceipt
      next => cases hreceipt
      next =>
        rw [← Except.ok.inj hreceipt]
    have hpayload : (eventsOf c events).length ≤ 2 ^ 53 →
        Held env.number (CycleLog.sealPayload r) := by
      intro hlen
      exact held_sealPayload hnumber (hcount.trans_le hlen)
    dsimp only
    rcases append_kept h c .cycleSealed "orchestrator" hpayload now fault with
      ⟨err, hrun⟩ | ⟨log', e, hrun, -, -, hemitted, hkept⟩
    · rw [hrun]
      exact Or.inl ⟨err, rfl, rfl⟩
    · rw [hrun]
      refine Or.inr ⟨_, r, e, rfl, rfl, rfl, ⟨hkept.rows, hkept.numbered, hkept.counters,
        hkept.bounded, hkept.held⟩, ?_⟩
      show emittedEvents (log'.emitted ++ [.cycleSealed r]) = _
      rw [emittedEvents_append, hemitted, emittedEvents_append, List.append_assoc]
      rfl

/-- What one call appends, it inserts and emits; a call that appends nothing changes
nothing, a new log object aside. -/
structure Appends (env : Env) (log : CycleLog) (c : Call env.number) (log' : CycleLog) : Prop where
  emitted : emittedEvents log'.emitted = emittedEvents log.emitted ++ log.appended env c
  failed : log.appended env c = [] → log' = log ∨ c = .rebuild ∧ log' = log.rebuild

/-- A call keeps the table and the counters in step with what was appended. -/
theorem call_kept (hnumber : Prints env.number) (h : Kept env.number log events)
    (c : Call env.number) :
    Kept env.number (log.call env c) (events ++ log.appended env c) ∧
      Appends env log c (log.call env c) := by
  cases c with
  | append cycleId kind actor payload now fault =>
    rcases append_kept h cycleId kind actor (fun _ => payload.held) now fault with
      ⟨err, hrun⟩ | ⟨log', e, hrun, -, -, hemitted, hkept⟩
    · have hcall : log.call env (.append cycleId kind actor payload now fault) = log :=
        congrArg Prod.fst hrun
      have happended : log.appended env (.append cycleId kind actor payload now fault) = [] :=
        congrArg (fun r => r.2.toOption.toList) hrun
      rw [hcall, happended, List.append_nil]
      exact ⟨h, by rw [happended, List.append_nil], fun _ => Or.inl rfl⟩
    · have hcall : log.call env (.append cycleId kind actor payload now fault) = log' :=
        congrArg Prod.fst hrun
      have happended : log.appended env (.append cycleId kind actor payload now fault) = [e] :=
        congrArg (fun r => r.2.toOption.toList) hrun
      rw [hcall, happended]
      refine ⟨hkept, ?_, ?_⟩
      · rw [hemitted, happended, emittedEvents_append]
        rfl
      · rw [happended]
        exact fun hnil => absurd hnil (List.cons_ne_nil _ _)
  | sealCycle cycleId sealedAt now fault =>
    rcases seal_kept hnumber h cycleId sealedAt now fault with
      ⟨err, hrun, happended⟩ | ⟨log', r, e, hrun, happended, -, hkept, hemitted⟩
    · have hcall : log.call env (.sealCycle cycleId sealedAt now fault) = log :=
        congrArg Prod.fst hrun
      rw [hcall, happended, List.append_nil]
      exact ⟨h, by rw [happended, List.append_nil], fun _ => Or.inl rfl⟩
    · have hcall : log.call env (.sealCycle cycleId sealedAt now fault) = log' :=
        congrArg Prod.fst hrun
      rw [hcall, happended]
      refine ⟨hkept, by rw [hemitted, happended], ?_⟩
      rw [happended]
      exact fun hnil => absurd hnil (List.cons_ne_nil _ _)
  | rebuild =>
    have happended : log.appended env .rebuild = [] := rfl
    rw [happended, List.append_nil]
    exact ⟨rebuild_kept h, by rw [happended, List.append_nil]; rfl, fun _ => Or.inr ⟨rfl, rfl⟩⟩

theorem after_kept (hnumber : Prints env.number) (calls : List (Call env.number)) :
    ∀ {log : CycleLog} {events : List CycleEvent}, Kept env.number log events →
      Kept env.number (log.after env calls) (events ++ log.history env calls) ∧
      emittedEvents (log.after env calls).emitted
        = emittedEvents log.emitted ++ log.history env calls := by
  induction calls with
  | nil =>
    intro log events h
    rw [CycleLog.history, List.append_nil, List.append_nil]
    exact ⟨h, rfl⟩
  | cons c calls ih =>
    intro log events h
    obtain ⟨hkept, happends⟩ := call_kept hnumber h c
    obtain ⟨hafter, hemitted⟩ := ih hkept
    rw [CycleLog.history, ← List.append_assoc, ← List.append_assoc, ← happends.emitted]
    exact ⟨hafter, hemitted⟩

/-- What a log promises of the events that were appended to it. -/
structure Exact (env : Env) (log : CycleLog) (events : List CycleEvent) : Prop where
  numbered : ∀ c, (eventsOf c events).map CycleEvent.seq = List.range (eventsOf c events).length
  emitted : emittedEvents log.emitted = events
  trail : ∀ c, log.trail env.number c = eventsOf c events
  replayed : Replayed events log.replayOpenCycles

/-- After any calls, with faults and new log objects anywhere, the log is exact, and so
is the next call. -/
theorem event_log_exact (env : Env) (hnumber : Prints env.number)
    (calls : List (Call env.number)) :
    Exact env (CycleLog.new.after env calls) (CycleLog.new.history env calls) ∧
      ∀ c, Appends env (CycleLog.new.after env calls) c
        ((CycleLog.new.after env calls).call env c) := by
  obtain ⟨hkept, hemitted⟩ := after_kept hnumber calls (kept_new env.number)
  rw [List.nil_append] at hkept
  exact ⟨⟨hkept.numbered, hemitted, hkept.trail_eq, hkept.replayed⟩,
    fun c => (call_kept hnumber hkept c).2⟩

/-- Two cycles, an insert that fails and a new log object. -/
theorem restarted_log_exact :
    let env : Env := ⟨id, fun bytes => bytes⟩
    let payload : Payload id := ⟨[], by decide, rfl, trivial⟩
    let calls : List (Call id) := [.append "c1" .cycleStarted "orchestrator" payload 5 none,
      .append "c1" .taskClaimed "nyx" payload 6 (some "disk I/O error"),
      .append "c2" .cycleStarted "orchestrator" payload 7 none, .rebuild,
      .append "c1" .taskClaimed "nyx" payload 4 none]
    let log := CycleLog.new.after env calls
    log.cycleEvents.map (fun row => (row.cycleId, row.seq)) = [("c1", 0), ("c2", 0), ("c1", 1)] ∧
      Exact env log (CycleLog.new.history env calls) ∧ ∀ c, Appends env log c (log.call env c) := by
  refine ⟨?_, event_log_exact _ Json.prints_id _⟩
  decide

end Kovael.Ledger
