import Mathlib.Data.List.Chain
import Kovael.Claims.Machine

/-!
# The ledger invariant of `TaskClaimMachine`

`sinceRegistration h log` is the part of the log about the current record of
`h`: everything after its last deletion. The invariant `Logged` ties each
record to that part: the states assigned are a path of `legal` from Unclaimed
to the record's state, Claimed occurs in it as often as the record's `attempt`
says, and each event continues the event before it. One call preserves
`Logged` (`perform_logged`), so every sequence of calls does
(`replay_logged`).

The two clauses about a stretch of calls (Released is absorbing, two claims
are separated) are invariants of the stretch: `get_perform_released` and
`held_perform` say what one call does to them, `replay_released` and
`held_or_freed` what a stretch does.
-/

namespace Kovael.Claims

open Js (Number OrderedMap Clock)
open TaskClaimMachine

/-! ## Calls and their replay -/

/-- One call of the machine's interface, with the readings of the clock. -/
inductive Call where
  | register (now : Int) (taskHash : String) (reason : Option String)
  | tryClaim (clock : Clock) (taskHash cycleId : String) (reason : Option String)
  | markRunning (now : Int) (taskHash cycleId : String)
  | markRetryQueued (clock : Clock) (taskHash : String) (retryAfterMs : Number)
      (reason : Option String)
  | release (now : Int) (taskHash reason : String)
  | prune (taskHash : String)

/-- Perform a call. The answer is the method's own, except for `register`,
which answers whether it filed a record. -/
def perform (m : TaskClaimMachine) : Call → TaskClaimMachine × Bool
  | .register now taskHash reason => (m.register now taskHash reason, !m.ledger.has taskHash)
  | .tryClaim clock taskHash cycleId reason => m.tryClaim clock taskHash cycleId reason
  | .markRunning now taskHash cycleId => m.markRunning now taskHash cycleId
  | .markRetryQueued clock taskHash ms reason => m.markRetryQueued clock taskHash ms reason
  | .release now taskHash reason => m.release now taskHash reason
  | .prune taskHash => m.prune taskHash

/-- Perform the calls in order. -/
def replay (m : TaskClaimMachine) (calls : List Call) : TaskClaimMachine :=
  calls.foldl (fun m c => (perform m c).1) m

theorem replay_append (m : TaskClaimMachine) (cs cs' : List Call) :
    replay m (cs ++ cs') = replay (replay m cs) cs' :=
  List.foldl_append

/-- The call is a claim of `h` that succeeds. -/
def ClaimSucceeds (h : String) (m : TaskClaimMachine) (c : Call) : Prop :=
  (∃ clock cycleId reason, c = .tryClaim clock h cycleId reason) ∧ (perform m c).2 = true

/-- The call re-queues `h`, or prunes a record of `h`, and succeeds. -/
def Frees (h : String) (m : TaskClaimMachine) (c : Call) : Prop :=
  ((∃ clock ms reason, c = .markRetryQueued clock h ms reason) ∨ c = .prune h) ∧
    (perform m c).2 = true

/-! ## The log of one record -/

/-- The task hash a log entry is about. -/
def LogEntry.hash : LogEntry → String
  | .state h _ => h
  | .event e => e.taskHash
  | .pruned h => h

/-- Extend the log of the record of `h` by one entry; a deletion empties it. -/
def extend (h : String) (es : List LogEntry) (e : LogEntry) : List LogEntry :=
  if e.hash ≠ h then es
  else match e with
    | .pruned _ => []
    | e => es ++ [e]

/-- Everything logged about `h` since its last deletion. -/
def sinceRegistration (h : String) (log : List LogEntry) : List LogEntry :=
  log.foldl (extend h) []

/-- The states assigned, in order. -/
def statesOf (es : List LogEntry) : List ClaimState :=
  es.filterMap fun
    | .state _ s => some s
    | _ => none

/-- The events emitted, in order. -/
def eventsOf (es : List LogEntry) : List ClaimEvent :=
  es.filterMap fun
    | .event e => some e
    | _ => none

/-- The states the record of `h` has passed through since its registration. -/
def TaskClaimMachine.statesSince (m : TaskClaimMachine) (h : String) : List ClaimState :=
  statesOf (sinceRegistration h m.log)

/-- The events emitted about the record of `h` since its registration. -/
def TaskClaimMachine.eventsSince (m : TaskClaimMachine) (h : String) : List ClaimEvent :=
  eventsOf (sinceRegistration h m.log)

/-- The two entries of a registration or of a move extend the log of their own
hash and no other. -/
theorem sinceRegistration_pair (h : String) (log : List LogEntry) (s : ClaimState)
    (e : ClaimEvent) :
    sinceRegistration h (log ++ [.state e.taskHash s, .event e])
      = if h = e.taskHash then sinceRegistration h log ++ [.state h s, .event e]
        else sinceRegistration h log := by
  rw [sinceRegistration, List.foldl_append]
  by_cases hh : h = e.taskHash
  · rw [if_pos hh]
    simp [extend, LogEntry.hash, sinceRegistration, ← hh]
  · rw [if_neg hh]
    simp [extend, LogEntry.hash, sinceRegistration, Ne.symm hh]

/-- A deletion empties the log of its own hash and no other. -/
theorem sinceRegistration_pruned (h h' : String) (log : List LogEntry) :
    sinceRegistration h (log ++ [.pruned h'])
      = if h = h' then [] else sinceRegistration h log := by
  rw [sinceRegistration, List.foldl_append]
  by_cases hh : h = h'
  · simp [extend, LogEntry.hash, hh]
  · simp [extend, LogEntry.hash, sinceRegistration, hh, Ne.symm hh]

/-! ## The invariant -/

/-- What the log of a record says about the record. -/
structure Recorded (r : ClaimRecord) (es : List LogEntry) : Prop where
  first : (statesOf es).head? = some .unclaimed
  path : (statesOf es).IsChain fun s s' => s' ∈ legal s
  last : (statesOf es).getLast? = some r.state
  attempt : (statesOf es).count .claimed = r.attempt
  firstEvent : ∀ e ∈ (eventsOf es).head?, e.previous = none
  chain : (eventsOf es).IsChain fun e e' => e'.previous = some e.state
  lastEvent : ∀ e ∈ (eventsOf es).getLast?, e.state = r.state
  someEvent : eventsOf es ≠ []

/-- `Recorded` looks at the record's state and attempt only. -/
theorem Recorded.congr {r r' : ClaimRecord} {es : List LogEntry} (h : Recorded r es)
    (hs : r'.state = r.state) (ha : r'.attempt = r.attempt) : Recorded r' es where
  first := h.first
  path := h.path
  last := hs ▸ h.last
  attempt := ha ▸ h.attempt
  firstEvent := h.firstEvent
  chain := h.chain
  lastEvent := hs ▸ h.lastEvent
  someEvent := h.someEvent

/-- A registration starts a record's log. -/
theorem recorded_fresh (now : Int) (h : String) (reason : Option String) :
    Recorded (freshRecord now h)
      [.state h .unclaimed, .event (eventFrom (freshRecord now h) none reason)] where
  first := rfl
  path := List.isChain_singleton _
  last := rfl
  attempt := rfl
  firstEvent := by simp [eventsOf, eventFrom]
  chain := List.isChain_singleton _
  lastEvent := by simp [eventsOf, eventFrom]
  someEvent := by simp [eventsOf]

/-- A move assigns one state. -/
theorem statesOf_append_pair (es : List LogEntry) (h : String) (next : ClaimState)
    (e : ClaimEvent) : statesOf (es ++ [.state h next, .event e]) = statesOf es ++ [next] := by
  rw [statesOf, List.filterMap_append]
  rfl

/-- A move emits one event. -/
theorem eventsOf_append_pair (es : List LogEntry) (h : String) (next : ClaimState)
    (e : ClaimEvent) : eventsOf (es ++ [.state h next, .event e]) = eventsOf es ++ [e] := by
  rw [eventsOf, List.filterMap_append]
  rfl

/-- A legal move extends a record's log. -/
theorem recorded_move {r : ClaimRecord} {es : List LogEntry} (h : Recorded r es) (now : Int)
    {next : ClaimState} (hl : next ∈ legal r.state) (taskHash : String)
    (cycleId reason : Option String) :
    Recorded (moved r now next cycleId)
      (es ++ [.state taskHash next,
        .event (eventFrom (moved r now next cycleId) (some r.state) reason)]) where
  first := by
    rw [statesOf_append_pair, List.head?_append, h.first]
    rfl
  path := by
    rw [statesOf_append_pair, List.isChain_append]
    refine ⟨h.path, List.isChain_singleton _, ?_⟩
    -- the new step of the path starts at the record's state
    intro s hs s' hs'
    rw [h.last, Option.mem_some_iff] at hs
    rw [List.head?_cons, Option.mem_some_iff] at hs'
    rw [← hs, ← hs']
    exact hl
  last := by
    rw [statesOf_append_pair, List.getLast?_append, List.getLast?_singleton]
    rfl
  attempt := by
    rw [statesOf_append_pair, List.count_append, h.attempt]
    by_cases hn : next = .claimed
    · simp [moved, hn]
    · simp [moved, hn]
  firstEvent := by
    rw [eventsOf_append_pair]
    intro e he
    apply h.firstEvent
    rwa [List.head?_append_of_ne_nil _ h.someEvent] at he
  chain := by
    rw [eventsOf_append_pair, List.isChain_append]
    refine ⟨h.chain, List.isChain_singleton _, ?_⟩
    intro e he e' he'
    rw [List.head?_cons, Option.mem_some_iff] at he'
    rw [← he', h.lastEvent e he]
    rfl
  lastEvent := by
    rw [eventsOf_append_pair, List.getLast?_append, List.getLast?_singleton]
    intro e he
    rw [Option.some_or, Option.mem_some_iff] at he
    rw [← he]
    rfl
  someEvent := by
    rw [eventsOf_append_pair]
    simp

/-- The ledger invariant: a record is filed under its own hash and agrees with
its log, and a hash without a record has no log. -/
def Logged (m : TaskClaimMachine) : Prop :=
  ∀ h, match m.get h with
    | none => sinceRegistration h m.log = []
    | some r => r.taskHash = h ∧ Recorded r (sinceRegistration h m.log)

theorem Logged.of_none {m : TaskClaimMachine} (hm : Logged m) {h : String}
    (hg : m.get h = none) : sinceRegistration h m.log = [] := by
  have := hm h
  rwa [hg] at this

theorem Logged.of_some {m : TaskClaimMachine} (hm : Logged m) {h : String} {r : ClaimRecord}
    (hg : m.get h = some r) : r.taskHash = h ∧ Recorded r (sinceRegistration h m.log) := by
  have := hm h
  rwa [hg] at this

theorem logged_init : Logged TaskClaimMachine.init := by
  intro h
  rfl

theorem logged_register {m : TaskClaimMachine} (hm : Logged m) (now : Int) (taskHash : String)
    (reason : Option String) : Logged (m.register now taskHash reason) := by
  rcases register_cases m now taskHash reason with ⟨heq, -⟩ | ⟨hnone, heq⟩
  · rw [heq]
    exact hm
  · intro h
    have hget := get_register m now taskHash h reason
    rw [hget]
    have hlog : sinceRegistration h (m.register now taskHash reason).log
        = if h = taskHash then sinceRegistration h m.log ++
            [.state h .unclaimed, .event (eventFrom (freshRecord now taskHash) none reason)]
          else sinceRegistration h m.log := by
      rw [heq]
      exact sinceRegistration_pair h m.log .unclaimed
        (eventFrom (freshRecord now taskHash) none reason)
    rw [hlog]
    by_cases hh : h = taskHash
    · rw [if_pos hh, if_pos hh, hnone, Option.getD_none, hh, hm.of_none hnone]
      exact ⟨rfl, recorded_fresh now taskHash reason⟩
    · rw [if_neg hh, if_neg hh]
      exact hm h

theorem logged_move {m : TaskClaimMachine} (hm : Logged m) {r : ClaimRecord} (now : Int)
    {taskHash : String} {next : ClaimState} (cycleId reason : Option String)
    (hg : m.get taskHash = some r) (hl : next ∈ legal r.state) :
    Logged (m.move r now taskHash next cycleId reason) := by
  obtain ⟨hkey, hrec⟩ := hm.of_some hg
  intro h
  have hlog : sinceRegistration h (m.move r now taskHash next cycleId reason).log
      = if h = taskHash then sinceRegistration h m.log ++ [.state h next,
          .event (eventFrom (moved r now next cycleId) (some r.state) reason)]
        else sinceRegistration h m.log := by
    have hpair := sinceRegistration_pair h m.log next
      (eventFrom (moved r now next cycleId) (some r.state) reason)
    rw [show (eventFrom (moved r now next cycleId) (some r.state) reason).taskHash = taskHash
      from hkey] at hpair
    exact hpair
  rw [get_move, hlog]
  by_cases hh : h = taskHash
  · rw [if_pos hh, if_pos hh, hh]
    exact ⟨hkey, recorded_move hrec now hl taskHash cycleId reason⟩
  · rw [if_neg hh, if_neg hh]
    exact hm h

theorem logged_transition {m : TaskClaimMachine} (hm : Logged m) (now : Int) (taskHash : String)
    (next : ClaimState) (cycleId reason : Option String) :
    Logged (m.transition now taskHash next cycleId reason).1 := by
  rcases transition_cases m now taskHash next cycleId reason with ⟨heq, -⟩ | ⟨r, hr, hl, heq⟩
  · rw [heq]
    exact hm
  · rw [heq]
    exact logged_move hm now cycleId reason hr hl

theorem logged_markRetryQueued {m : TaskClaimMachine} (hm : Logged m) (clock : Clock)
    (taskHash : String) (ms : Number) (reason : Option String) :
    Logged (m.markRetryQueued clock taskHash ms reason).1 := by
  rcases markRetryQueued_cases m clock taskHash ms reason with ⟨heq, -⟩ | ⟨r, hr, hrun, heq⟩
  · rw [heq]
    exact hm
  · have hmv := logged_move hm (clock 0) none reason hr (retryQueued_mem_legal.mpr hrun)
    rw [heq]
    intro h
    by_cases hh : h = taskHash
    · -- stamping the retry time writes the record once more, and logs nothing
      have hat := hmv.of_some ((get_move ..).trans (if_pos hh))
      rw [TaskClaimMachine.get, hh, OrderedMap.get?_set_self]
      rw [hh] at hat
      exact ⟨hat.1, hat.2.congr rfl rfl⟩
    · rw [TaskClaimMachine.get, OrderedMap.get?_set_ne _ _ hh]
      exact hmv h

theorem logged_prune {m : TaskClaimMachine} (hm : Logged m) (taskHash : String) :
    Logged (m.prune taskHash).1 := by
  intro h
  rw [get_prune]
  rcases prune_cases m taskHash with ⟨heq, hnone⟩ | ⟨r, -, heq⟩
  · rw [heq]
    by_cases hh : h = taskHash
    · rw [if_pos hh, hh]
      exact hm.of_none hnone
    · rw [if_neg hh]
      exact hm h
  · rw [heq]
    simp only [sinceRegistration_pruned]
    by_cases hh : h = taskHash
    · rw [if_pos hh, if_pos hh]
    · rw [if_neg hh, if_neg hh]
      exact hm h

/-- One call preserves the invariant. -/
theorem perform_logged {m : TaskClaimMachine} (hm : Logged m) (c : Call) :
    Logged (perform m c).1 := by
  cases c with
  | register now taskHash reason => exact logged_register hm now taskHash reason
  | tryClaim clock taskHash cycleId reason =>
    show Logged (m.tryClaim clock taskHash cycleId reason).1
    rcases tryClaim_cases m clock taskHash cycleId reason with ⟨heq, -⟩ | ⟨r, hr, hst, heq⟩
    · rw [heq]
      exact hm
    · rw [heq]
      exact logged_move (logged_register hm _ _ _) _ _ _ hr (claimed_mem_legal.mpr hst)
  | markRunning now taskHash cycleId => exact logged_transition hm _ _ _ _ _
  | markRetryQueued clock taskHash ms reason => exact logged_markRetryQueued hm _ _ _ _
  | release now taskHash reason => exact logged_transition hm _ _ _ _ _
  | prune taskHash => exact logged_prune hm taskHash

/-- So does every sequence of calls. -/
theorem replay_logged (calls : List Call) {m : TaskClaimMachine} (hm : Logged m) :
    Logged (replay m calls) := by
  induction calls generalizing m with
  | nil => exact hm
  | cons c cs ih => exact ih (perform_logged hm c)

/-! ## Refusals change nothing -/

theorem transition_refused {m : TaskClaimMachine} {now : Int} {taskHash : String}
    {next : ClaimState} {cycleId reason : Option String}
    (h : (m.transition now taskHash next cycleId reason).2 = false) :
    (m.transition now taskHash next cycleId reason).1 = m := by
  rcases transition_cases m now taskHash next cycleId reason with ⟨heq, -⟩ | ⟨r, -, -, heq⟩
  · rw [heq]
  · rw [heq] at h
    exact absurd h (by simp)

/-- A refused call leaves the ledger and the log as they are. -/
theorem perform_refused {m : TaskClaimMachine} {c : Call} (h : (perform m c).2 = false) :
    (perform m c).1 = m := by
  cases c with
  | register now taskHash reason =>
    rcases register_cases m now taskHash reason with ⟨heq, -⟩ | ⟨hnone, -⟩
    · exact heq
    · have hhas : m.ledger.has taskHash = true := by simpa [perform] using h
      obtain ⟨r, hr⟩ := (OrderedMap.has_iff m.ledger taskHash).mp hhas
      rw [TaskClaimMachine.get, hr] at hnone
      exact absurd hnone (by simp)
  | tryClaim clock taskHash cycleId reason =>
    simp only [perform] at h ⊢
    rcases tryClaim_cases m clock taskHash cycleId reason with ⟨heq, -⟩ | ⟨r, -, -, heq⟩
    · rw [heq]
    · rw [heq] at h
      exact absurd h (by simp)
  | markRunning now taskHash cycleId => exact transition_refused h
  | markRetryQueued clock taskHash ms reason =>
    simp only [perform] at h ⊢
    rcases markRetryQueued_cases m clock taskHash ms reason with ⟨heq, -⟩ | ⟨r, -, -, heq⟩
    · rw [heq]
    · rw [heq] at h
      exact absurd h (by simp)
  | release now taskHash reason => exact transition_refused h
  | prune taskHash =>
    simp only [perform] at h ⊢
    rcases prune_cases m taskHash with ⟨heq, -⟩ | ⟨r, -, heq⟩
    · rw [heq]
    · rw [heq] at h
      exact absurd h (by simp)

/-! ## Stretches of calls -/

/-- A record that no transition can leave, or that a claim does not accept, is
not changed by an attempt to. -/
theorem get_transition_of_refused {m : TaskClaimMachine} {now : Int} {taskHash h : String}
    {next : ClaimState} {cycleId reason : Option String} {r : ClaimRecord}
    (hg : m.get h = some r) (hl : taskHash = h → next ∉ legal r.state) :
    (m.transition now taskHash next cycleId reason).1.get h = some r := by
  rcases transition_cases m now taskHash next cycleId reason with ⟨heq, -⟩ | ⟨r', hr', hl', heq⟩
  · rw [heq]
    exact hg
  · by_cases hh : h = taskHash
    · rw [hh, hr', Option.some.injEq] at hg
      rw [hg] at hl'
      exact absurd hl' (hl hh.symm)
    · rw [heq, get_move, if_neg hh]
      exact hg

/-- A released record changes only by being pruned. -/
theorem get_perform_released {m : TaskClaimMachine} {h : String} {r : ClaimRecord} {c : Call}
    (hg : m.get h = some r) (hrel : r.state = .released) (hc : c ≠ .prune h) :
    (perform m c).1.get h = some r := by
  have hnone : ∀ next, next ∉ legal r.state := by
    rw [hrel]
    intro next
    simp [legal]
  cases c with
  | register now taskHash reason =>
    show (m.register now taskHash reason).get h = some r
    rw [get_register]
    split
    next hh => rw [← hh, hg, Option.getD_some]
    next => exact hg
  | tryClaim clock taskHash cycleId reason =>
    show (m.tryClaim clock taskHash cycleId reason).1.get h = some r
    rcases tryClaim_cases m clock taskHash cycleId reason with ⟨heq, -⟩ | ⟨r', hr', hst, heq⟩
    · rw [heq]
      exact hg
    · rw [heq, get_move]
      by_cases hh : h = taskHash
      · -- a claim of `h` would need it Unclaimed or RetryQueued
        rw [get_register, if_pos rfl, ← hh, hg, Option.getD_some, Option.some.injEq] at hr'
        rw [← hr', hrel] at hst
        exact absurd hst (by simp)
      · rw [if_neg hh, get_register, if_neg hh]
        exact hg
  | markRunning now taskHash cycleId => exact get_transition_of_refused hg fun _ => hnone _
  | markRetryQueued clock taskHash ms reason =>
    show (m.markRetryQueued clock taskHash ms reason).1.get h = some r
    by_cases hh : h = taskHash
    · rcases markRetryQueued_cases m clock taskHash ms reason with ⟨heq, -⟩ | ⟨r', hr', hrun, -⟩
      · rw [heq]
        exact hg
      · rw [← hh, hg, Option.some.injEq] at hr'
        rw [← hr', hrel] at hrun
        exact absurd hrun (by simp)
    · rw [get_markRetryQueued_ne m clock ms reason hh]
      exact hg
  | release now taskHash reason => exact get_transition_of_refused hg fun _ => hnone _
  | prune taskHash =>
    show (m.prune taskHash).1.get h = some r
    have hne : h ≠ taskHash := fun hh => hc (by rw [hh])
    rw [get_prune, if_neg hne]
    exact hg

/-- A stretch of calls without a prune of `h` keeps its released record. -/
theorem replay_released (calls : List Call) {m : TaskClaimMachine} {h : String}
    {r : ClaimRecord} (hg : m.get h = some r) (hrel : r.state = .released)
    (hc : Call.prune h ∉ calls) : (replay m calls).get h = some r := by
  induction calls generalizing m with
  | nil => exact hg
  | cons c cs ih =>
    rw [List.mem_cons, not_or] at hc
    exact ih (get_perform_released hg hrel (Ne.symm hc.1)) hc.2

/-- The record of `h` is in a state that `tryClaim` refuses. -/
def Held (h : String) (m : TaskClaimMachine) : Prop :=
  ∃ r, m.get h = some r ∧ r.state ≠ .unclaimed ∧ r.state ≠ .retryQueued

/-- Moves to any state but RetryQueued keep a hash held. -/
theorem held_transition {h : String} {m : TaskClaimMachine} (hheld : Held h m) (now : Int)
    (taskHash : String) {next : ClaimState} (cycleId reason : Option String)
    (hu : next ≠ .unclaimed) (hq : next ≠ .retryQueued) :
    Held h (m.transition now taskHash next cycleId reason).1 := by
  obtain ⟨r, hr, hst⟩ := hheld
  rcases transition_cases m now taskHash next cycleId reason with ⟨heq, -⟩ | ⟨r', -, -, heq⟩
  · rw [heq]
    exact ⟨r, hr, hst⟩
  · rw [Held, heq, get_move]
    split
    next => exact ⟨_, rfl, hu, hq⟩
    next => exact ⟨r, hr, hst⟩

/-- A call that does not free `h` keeps it held. -/
theorem held_perform {h : String} {m : TaskClaimMachine} {c : Call} (hheld : Held h m)
    (hfree : ¬ Frees h m c) : Held h (perform m c).1 := by
  obtain ⟨r, hr, hst⟩ := hheld
  cases c with
  | register now taskHash reason =>
    refine ⟨r, ?_, hst⟩
    show (m.register now taskHash reason).get h = some r
    rw [get_register]
    split
    next hh => rw [← hh, hr, Option.getD_some]
    next => exact hr
  | tryClaim clock taskHash cycleId reason =>
    show Held h (m.tryClaim clock taskHash cycleId reason).1
    rcases tryClaim_cases m clock taskHash cycleId reason with ⟨heq, -⟩ | ⟨r', -, -, heq⟩
    · rw [heq]
      exact ⟨r, hr, hst⟩
    · rw [Held, heq, get_move]
      by_cases hh : h = taskHash
      · -- claimed by somebody else is held as well
        rw [if_pos hh]
        exact ⟨_, rfl, by simp, by simp⟩
      · rw [if_neg hh, get_register, if_neg hh]
        exact ⟨r, hr, hst⟩
  | markRunning now taskHash cycleId =>
    exact held_transition ⟨r, hr, hst⟩ now taskHash _ _ (by decide) (by decide)
  | markRetryQueued clock taskHash ms reason =>
    refine ⟨r, ?_, hst⟩
    show (m.markRetryQueued clock taskHash ms reason).1.get h = some r
    by_cases hh : h = taskHash
    · rcases markRetryQueued_cases m clock taskHash ms reason with ⟨heq, -⟩ | ⟨r', -, -, heq⟩
      · rw [heq]
        exact hr
      · -- a re-queueing of `h` that succeeds is what `hfree` excludes
        refine absurd ⟨Or.inl ⟨clock, ms, reason, by rw [hh]⟩, ?_⟩ hfree
        rw [perform, heq]
    · rw [get_markRetryQueued_ne m clock ms reason hh]
      exact hr
  | release now taskHash reason =>
    exact held_transition ⟨r, hr, hst⟩ now taskHash _ _ (by decide) (by decide)
  | prune taskHash =>
    refine ⟨r, ?_, hst⟩
    show (m.prune taskHash).1.get h = some r
    rw [get_prune]
    by_cases hh : h = taskHash
    · rcases prune_cases m taskHash with ⟨-, hnone⟩ | ⟨r', -, heq⟩
      · rw [← hh, hr] at hnone
        exact absurd hnone (by simp)
      · refine absurd ⟨Or.inr (by rw [hh]), ?_⟩ hfree
        rw [perform, heq]
    · rw [if_neg hh]
      exact hr

/-- Over a stretch of calls a held hash stays held, or some call frees it. -/
theorem held_or_freed (calls : List Call) {h : String} {m : TaskClaimMachine}
    (hheld : Held h m) :
    Held h (replay m calls) ∨
      ∃ cs c cs', calls = cs ++ c :: cs' ∧ Frees h (replay m cs) c := by
  induction calls generalizing m with
  | nil => exact Or.inl hheld
  | cons c cs ih =>
    by_cases hfree : Frees h m c
    · exact Or.inr ⟨[], c, cs, rfl, hfree⟩
    · rcases ih (held_perform hheld hfree) with hend | ⟨cs₁, c', cs₂, hsplit, hfree'⟩
      · exact Or.inl hend
      · exact Or.inr ⟨c :: cs₁, c', cs₂, by rw [hsplit]; rfl, hfree'⟩

/-- A claim that succeeds leaves its hash held. -/
theorem held_of_claims {h : String} {m : TaskClaimMachine} {c : Call} (hc : ClaimSucceeds h m c) :
    Held h (perform m c).1 := by
  obtain ⟨⟨clock, cycleId, reason, rfl⟩, hok⟩ := hc
  simp only [perform] at hok ⊢
  rcases tryClaim_cases m clock h cycleId reason with ⟨heq, -⟩ | ⟨r, -, -, heq⟩
  · rw [heq] at hok
    exact absurd hok (by simp)
  · rw [Held, heq, get_move, if_pos rfl]
    exact ⟨_, rfl, by simp, by simp⟩

/-- A held hash is not claimed. -/
theorem not_claims_of_held {h : String} {m : TaskClaimMachine} {c : Call} (hheld : Held h m) :
    ¬ ClaimSucceeds h m c := by
  intro hgiven
  obtain ⟨⟨clock, cycleId, reason, rfl⟩, hok⟩ := hgiven
  obtain ⟨r, hr, hu, hq⟩ := hheld
  simp only [perform] at hok
  rcases tryClaim_cases m clock h cycleId reason with ⟨heq, -⟩ | ⟨r', hr', hst, -⟩
  · rw [heq] at hok
    exact absurd hok (by simp)
  · rw [get_register, if_pos rfl, hr, Option.getD_some, Option.some.injEq] at hr'
    rw [← hr'] at hst
    rcases hst with hst | hst
    · exact hu hst
    · exact hq hst

/-- **The ledger invariant.** For every sequence of calls on a fresh machine:
a record's states since its registration are a path of `legal` from Unclaimed
to its state, its `attempt` counts the entries into Claimed, and its events
chain; a released record stays what it is until it is pruned; between two
claims of a hash that succeed the hash was freed; and a refused call changes
neither the ledger nor the log. -/
theorem ledger_invariant (calls : List Call) :
    (∀ h r, (replay .init calls).get h = some r →
      ((replay .init calls).statesSince h).head? = some .unclaimed ∧
      ((replay .init calls).statesSince h).IsChain (fun s s' => s' ∈ legal s) ∧
      ((replay .init calls).statesSince h).getLast? = some r.state ∧
      ((replay .init calls).statesSince h).count .claimed = r.attempt ∧
      (∀ e ∈ ((replay .init calls).eventsSince h).head?, e.previous = none) ∧
      ((replay .init calls).eventsSince h).IsChain (fun e e' => e'.previous = some e.state)) ∧
    (∀ h r later, (replay .init calls).get h = some r → r.state = .released →
      Call.prune h ∉ later → (replay .init (calls ++ later)).get h = some r) ∧
    (∀ h pre first mid second post, calls = pre ++ first :: (mid ++ second :: post) →
      ClaimSucceeds h (replay .init pre) first →
      ClaimSucceeds h (replay .init (pre ++ first :: mid)) second →
      ∃ cs c cs', mid = cs ++ c :: cs' ∧ Frees h (replay .init (pre ++ first :: cs)) c) ∧
    (∀ c, (perform (replay .init calls) c).2 = false →
      (perform (replay .init calls) c).1 = replay .init calls) := by
  refine ⟨?_, ?_, ?_, ?_⟩
  · intro h r hr
    obtain ⟨-, hrec⟩ := (replay_logged calls logged_init).of_some hr
    exact ⟨hrec.first, hrec.path, hrec.last, hrec.attempt, hrec.firstEvent, hrec.chain⟩
  · intro h r later hr hrel hc
    rw [replay_append]
    exact replay_released later hr hrel hc
  · intro h pre first mid second post _ hfirst hsecond
    have hstart : Held h (replay .init (pre ++ [first])) := by
      rw [replay_append]
      exact held_of_claims hfirst
    rcases held_or_freed mid hstart with hend | ⟨cs, c, cs', hsplit, hfree⟩
    · rw [← replay_append, List.append_assoc] at hend
      exact absurd hsecond (not_claims_of_held hend)
    · rw [← replay_append, List.append_assoc] at hfree
      exact ⟨cs, c, cs', hsplit, hfree⟩
  · intro c hc
    exact perform_refused hc

end Kovael.Claims
