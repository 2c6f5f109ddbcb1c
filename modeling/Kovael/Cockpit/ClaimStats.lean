import Mathlib.Logic.Function.Basic
import Kovael.Mesh.Ownership

/-!
# The cockpit's claim statistics

`packages/spatial-war-room/src/store/useWarRoomStore.ts` counts claims per state
by moving one unit with every `claim_event`; `TaskClaimMachine.stats()` counts
the records of the ledger. A move of a record keeps the two counts together.
Pruning emits no event, so every pruned record stays in the cockpit's Released
bucket (`claimStats_eq`).

Mirroring notes vs the TS:
- A cockpit that is connected from the start and misses nothing has recorded
  the events of the machine's log, in order: `cockpit`.
- A state that is no bucket of `claimStats` does not occur, `ClaimState` has
  only the five.
-/

namespace Kovael.Claims

namespace TaskClaimMachine

/-- `Record<ClaimState, number>`. -/
abbrev ClaimStats := ClaimState → Nat

/-- `counts[state] += 1`. -/
def ClaimStats.increment (counts : ClaimStats) (s : ClaimState) : ClaimStats :=
  Function.update counts s (counts s + 1)

/-- `stats()`. -/
def stats (m : TaskClaimMachine) : ClaimStats :=
  m.snapshot.foldl (fun counts r => counts.increment r.state) fun _ => 0

theorem increment_apply (counts : ClaimStats) (s s' : ClaimState) :
    counts.increment s s' = counts s' + if s = s' then 1 else 0 := by
  rw [ClaimStats.increment, Function.update_apply]
  by_cases hs : s = s'
  · rw [if_pos hs.symm, if_pos hs, hs]
  · rw [if_neg (Ne.symm hs), if_neg hs, Nat.add_zero]

/-- The statistics count the records in each state. -/
theorem stats_apply (m : TaskClaimMachine) (s : ClaimState) :
    m.stats s = m.ledger.values.countP fun r => decide (r.state = s) := by
  have hfold : ∀ (rs : List ClaimRecord) (counts : ClaimStats),
      rs.foldl (fun counts r => counts.increment r.state) counts s
        = counts s + rs.countP fun r => decide (r.state = s) := by
    intro rs
    induction rs with
    | nil => exact fun counts => rfl
    | cons r rs ih =>
      intro counts
      rw [List.foldl_cons, ih, increment_apply, List.countP_cons]
      simp only [decide_eq_true_eq]
      omega
  rw [stats, hfold, Nat.zero_add, snapshot]

/-- The statistics count every record of the ledger. -/
theorem stats_pos {m : TaskClaimMachine} {h : String} {r : ClaimRecord} (hg : m.get h = some r) :
    0 < m.stats r.state := by
  rw [stats_apply, List.countP_pos_iff]
  exact ⟨r, (m.ledger.mem_values_iff r).mpr ⟨h, hg⟩, decide_eq_true rfl⟩

/-- A new record is counted. -/
theorem stats_set_of_none {m : TaskClaimMachine} {h : String} (hg : m.get h = none)
    (log : List LogEntry) (r : ClaimRecord) (s : ClaimState) :
    stats ⟨m.ledger.set h r, log⟩ s = m.stats s + if r.state = s then 1 else 0 := by
  have hset := m.ledger.countP_values_set h r fun r => decide (r.state = s)
  rw [get] at hg
  rw [hg, List.countP_singleton] at hset
  simp only [decide_eq_true_eq] at hset
  rw [stats_apply, stats_apply]
  exact hset

/-- A record that is filed over another is counted in its place. -/
theorem stats_set_of_some {m : TaskClaimMachine} {h : String} {old : ClaimRecord}
    (hg : m.get h = some old) (log : List LogEntry) (r : ClaimRecord) (s : ClaimState) :
    stats ⟨m.ledger.set h r, log⟩ s + (if old.state = s then 1 else 0)
      = m.stats s + if r.state = s then 1 else 0 := by
  have hset := m.ledger.countP_values_set h r fun r => decide (r.state = s)
  rw [get] at hg
  rw [hg, Option.toList_some, List.countP_singleton, List.countP_singleton] at hset
  simp only [decide_eq_true_eq] at hset
  rw [stats_apply, stats_apply]
  exact hset

/-- A record that is deleted is no longer counted. -/
theorem stats_delete_of_some {m : TaskClaimMachine} {h : String} {old : ClaimRecord}
    (hg : m.get h = some old) (log : List LogEntry) (s : ClaimState) :
    stats ⟨m.ledger.delete h, log⟩ s + (if old.state = s then 1 else 0) = m.stats s := by
  have hdelete := m.ledger.countP_values_delete h fun r => decide (r.state = s)
  rw [get] at hg
  rw [hg, Option.toList_some, List.countP_singleton] at hdelete
  simp only [decide_eq_true_eq] at hdelete
  rw [stats_apply, stats_apply]
  exact hdelete

end TaskClaimMachine

end Kovael.Claims

namespace Kovael.Cockpit

open Js (Number OrderedMap Clock)
open Claims
open Claims.TaskClaimMachine

/-! ## The store -/

/-- The part of the store that claim events write. -/
structure ClaimSlice where
  claimStats : ClaimStats
  recentClaims : List ClaimEvent

/-- The store before the first event. -/
def ClaimSlice.init : ClaimSlice := ⟨fun _ => 0, []⟩

/-- `recordClaimEvent(evt)`. -/
def recordClaimEvent (store : ClaimSlice) (evt : ClaimEvent) : ClaimSlice :=
  let stats : ClaimStats :=
    match evt.previous with
    | none => store.claimStats
    | some previous => Function.update store.claimStats previous (store.claimStats previous - 1)
  { claimStats := stats.increment evt.state
    recentClaims := (evt :: store.recentClaims).take 40 }

/-- A cockpit that has been told every event of the log. -/
def cockpit (log : List LogEntry) : ClaimSlice :=
  (eventsOf log).foldl recordClaimEvent .init

/-- A registration or a move tells the cockpit one event. -/
theorem cockpit_append_pair (log : List LogEntry) (h : String) (next : ClaimState)
    (e : ClaimEvent) :
    cockpit (log ++ [.state h next, .event e]) = recordClaimEvent (cockpit log) e := by
  rw [cockpit, eventsOf_append_pair, List.foldl_append]
  rfl

/-- The deletions of the log. -/
def prunes (log : List LogEntry) : Nat :=
  log.countP fun
    | .pruned _ => true
    | _ => false

/-- A deletion tells the cockpit nothing. -/
theorem cockpit_append_pruned (log : List LogEntry) (h : String) :
    cockpit (log ++ [.pruned h]) = cockpit log := by
  rw [cockpit, eventsOf, List.filterMap_append]
  exact congrArg _ (List.append_nil _)

theorem prunes_append_pair (log : List LogEntry) (h : String) (next : ClaimState)
    (e : ClaimEvent) : prunes (log ++ [.state h next, .event e]) = prunes log := by
  rw [prunes, List.countP_append]
  rfl

theorem prunes_append_pruned (log : List LogEntry) (h : String) :
    prunes (log ++ [.pruned h]) = prunes log + 1 := by
  rw [prunes, List.countP_append]
  rfl

/-! ## The two counts -/

/-- The cockpit counts the ledger's records, and the pruned ones as Released. -/
def Counted (m : TaskClaimMachine) : Prop :=
  ∀ s, (cockpit m.log).claimStats s
    = m.stats s + if s = .released then prunes m.log else 0

/-- What the cockpit makes of an event that moves a unit. -/
theorem recordClaimEvent_moves {store : ClaimSlice} {evt : ClaimEvent} {previous : ClaimState}
    (hprev : evt.previous = some previous) (s : ClaimState) :
    (recordClaimEvent store evt).claimStats s
      = (store.claimStats s - if previous = s then 1 else 0) + if evt.state = s then 1 else 0 := by
  rw [recordClaimEvent, hprev]
  simp only [increment_apply, Function.update_apply]
  by_cases hs : s = previous
  · rw [if_pos hs, if_pos hs.symm, hs]
  · rw [if_neg hs, if_neg (Ne.symm hs), Nat.sub_zero]

theorem counted_init : Counted .init := by
  intro s
  cases s
  all_goals rfl

theorem counted_register {m : TaskClaimMachine} (hm : Counted m) (now : Int) (taskHash : String)
    (reason : Option String) : Counted (m.register now taskHash reason) := by
  rcases register_cases m now taskHash reason with ⟨heq, -⟩ | ⟨hnone, heq⟩
  · rw [heq]
    exact hm
  · intro s
    rw [heq, stats_set_of_none hnone, cockpit_append_pair, prunes_append_pair]
    -- an event without a previous state only adds
    have hevent : (recordClaimEvent (cockpit m.log)
        (eventFrom (freshRecord now taskHash) none reason)).claimStats s
        = (cockpit m.log).claimStats s + if (freshRecord now taskHash).state = s then 1 else 0 :=
      increment_apply _ _ _
    rw [hevent, hm s]
    omega

/-- A move out of a state other than Released moves the same unit on both sides. -/
theorem counted_move {m : TaskClaimMachine} (hm : Counted m) {r : ClaimRecord} {taskHash : String}
    (hg : m.get taskHash = some r) (now : Int) {next : ClaimState} (hl : next ∈ legal r.state)
    (cycleId reason : Option String) :
    Counted (m.move r now taskHash next cycleId reason) := by
  intro s
  have hpos := stats_pos hg
  have hstats : (m.move r now taskHash next cycleId reason).stats s
      + (if r.state = s then 1 else 0) = m.stats s + if next = s then 1 else 0 :=
    stats_set_of_some hg _ (moved r now next cycleId) s
  have hlog : (m.move r now taskHash next cycleId reason).log
      = m.log ++ [.state taskHash next,
        .event (eventFrom (moved r now next cycleId) (some r.state) reason)] := rfl
  have hprunes : prunes (m.move r now taskHash next cycleId reason).log = prunes m.log := by
    rw [hlog, prunes_append_pair]
  have hnext : (eventFrom (moved r now next cycleId) (some r.state) reason).state = next := rfl
  rw [hprunes, hlog, cockpit_append_pair, recordClaimEvent_moves rfl, hm s, hnext]
  by_cases hs : r.state = s
  · -- the record is counted here, and the bucket is not the pruned ones'
    have hrel : s ≠ .released := by
      intro heq
      obtain rfl := heq
      rw [hs] at hl
      exact absurd hl List.not_mem_nil
    rw [hs] at hpos
    rw [if_pos hs] at hstats
    rw [if_pos hs, if_neg hrel]
    omega
  · rw [if_neg hs] at hstats
    rw [if_neg hs]
    omega

theorem counted_transition {m : TaskClaimMachine} (hm : Counted m) (now : Int)
    (taskHash : String) (next : ClaimState) (cycleId reason : Option String) :
    Counted (m.transition now taskHash next cycleId reason).1 := by
  rcases transition_cases m now taskHash next cycleId reason with ⟨heq, -⟩ | ⟨r, hr, hl, heq⟩
  · rw [heq]
    exact hm
  · rw [heq]
    exact counted_move hm hr now hl cycleId reason

theorem counted_tryClaim {m : TaskClaimMachine} (hm : Counted m) (clock : Clock)
    (taskHash cycleId : String) (reason : Option String) :
    Counted (m.tryClaim clock taskHash cycleId reason).1 := by
  rcases tryClaim_cases m clock taskHash cycleId reason with ⟨heq, -⟩ | ⟨r, hr, hst, heq⟩
  · rw [heq]
    exact hm
  · rw [heq]
    exact counted_move (counted_register hm _ _ _) hr _ (claimed_mem_legal.mpr hst) _ _

/-- The retry time that a re-queueing stamps on the record is not counted. -/
theorem counted_markRetryQueued {m : TaskClaimMachine} (hm : Counted m) (clock : Clock)
    (taskHash : String) (retryAfterMs : Number) (reason : Option String) :
    Counted (m.markRetryQueued clock taskHash retryAfterMs reason).1 := by
  rcases markRetryQueued_cases m clock taskHash retryAfterMs reason with
    ⟨heq, -⟩ | ⟨r, hr, hrun, heq⟩
  · rw [heq]
    exact hm
  · rw [heq]
    have hmove := counted_move hm hr (clock 0) (retryQueued_mem_legal.mpr hrun) none reason
    have hget := get_move m r (clock 0) taskHash taskHash .retryQueued none reason
    rw [if_pos rfl] at hget
    intro s
    have hstats := stats_set_of_some hget
      (m.move r (clock 0) taskHash .retryQueued none reason).log
      { moved r (clock 0) .retryQueued none with
        retryAfter := some ((Number.ofInt (clock 1)).add retryAfterMs) } s
    rw [Nat.add_right_cancel hstats]
    exact hmove s

/-- Pruning a Released record leaves its unit with the cockpit. -/
theorem counted_prune {m : TaskClaimMachine} (hm : Counted m) {taskHash : String}
    {r : ClaimRecord} (hg : m.get taskHash = some r) (hr : r.state = .released) :
    Counted (m.prune taskHash).1 := by
  rcases prune_cases m taskHash with ⟨-, hnone⟩ | ⟨_, -, heq⟩
  · rw [hnone] at hg
    exact nomatch hg
  · intro s
    have hstats := stats_delete_of_some hg (m.log ++ [.pruned taskHash]) s
    rw [hr] at hstats
    rw [heq, cockpit_append_pruned, prunes_append_pruned, hm s]
    dsimp only
    by_cases hs : s = .released
    · rw [hs] at hstats ⊢
      rw [if_pos rfl] at hstats
      rw [if_pos rfl, if_pos rfl]
      omega
    · rw [if_neg (Ne.symm hs)] at hstats
      rw [if_neg hs, if_neg hs]
      omega

theorem counted_sweepRecord (cfg : Reconciler.ReconcilerConfig) (now : Int)
    (clock : String → Int) {acc : TaskClaimMachine × List Reconciler.ReconcileAction}
    {r : ClaimRecord} (hr : acc.1.get r.taskHash = some r) (hacc : Counted acc.1) :
    Counted (Reconciler.sweepRecord cfg now clock acc r).1 := by
  unfold Reconciler.sweepRecord
  split
  next =>
    have hrelease : Counted (acc.1.release (clock r.taskHash) r.taskHash
        (Reconciler.stallReason now r)).1 := counted_transition hacc _ _ _ _ _
    dsimp only
    split
    next => exact hrelease
    next => exact hrelease
  next =>
    split
    next hex =>
      rw [Reconciler.expired, Bool.and_eq_true, decide_eq_true_eq] at hex
      exact counted_prune hacc hr hex.1
    next => exact hacc

/-! ## Runs -/

/-- An operation on the ledger. -/
inductive Operation where
  | call (c : Call)
  | sweep (cfg : Reconciler.ReconcilerConfig) (now : Int) (clock : String → Int)

/-- The ledger under its callers and the reconciler, which alone prunes. -/
def ledgerRuns : Lts TaskClaimMachine Operation where
  init := .init
  step m
    | .call (.prune _) => none
    | .call c => some (Claims.perform m c).1
    | .sweep cfg now clock => some (Reconciler.sweep cfg now clock m).1

/-- One operation keeps the counts together. -/
theorem step_counted {m m' : TaskClaimMachine} {op : Operation} (hm : Logged m ∧ Counted m)
    (hstep : ledgerRuns.step m op = some m') : Logged m' ∧ Counted m' := by
  obtain ⟨hlogged, hcounted⟩ := hm
  cases op with
  | sweep cfg now clock =>
    rw [ledgerRuns, Option.some.injEq] at hstep
    rw [← hstep]
    refine ⟨Mesh.logged_sweep cfg now clock hlogged, ?_⟩
    exact Reconciler.sweep_induction (I := fun acc => Counted acc.1) cfg now clock
      (fun acc r hr hacc => counted_sweepRecord cfg now clock hr hacc)
      (fun h r hr => (hlogged.of_some hr).1) hcounted
  | call c =>
    cases c with
    | prune taskHash => exact nomatch hstep
    | register now taskHash reason =>
      rw [ledgerRuns, Option.some.injEq] at hstep
      exact hstep ▸ ⟨perform_logged hlogged _, counted_register hcounted now taskHash reason⟩
    | tryClaim clock taskHash cycleId reason =>
      rw [ledgerRuns, Option.some.injEq] at hstep
      exact hstep ▸ ⟨perform_logged hlogged _, counted_tryClaim hcounted _ _ _ _⟩
    | markRunning now taskHash cycleId =>
      rw [ledgerRuns, Option.some.injEq] at hstep
      exact hstep ▸ ⟨perform_logged hlogged _, counted_transition hcounted _ _ _ _ _⟩
    | markRetryQueued clock taskHash ms reason =>
      rw [ledgerRuns, Option.some.injEq] at hstep
      exact hstep ▸ ⟨perform_logged hlogged _, counted_markRetryQueued hcounted _ _ _ _⟩
    | release now taskHash reason =>
      rw [ledgerRuns, Option.some.injEq] at hstep
      exact hstep ▸ ⟨perform_logged hlogged _, counted_transition hcounted _ _ _ _ _⟩

/-- After every run the cockpit's buckets are the ledger's, but for the pruned
records, which the cockpit goes on counting as Released. -/
theorem claimStats_eq :
    ∀ (ops : List Operation) (m : TaskClaimMachine), ledgerRuns.exec .init ops = some m →
      ∀ s, (cockpit m.log).claimStats s
        = m.stats s + if s = .released then prunes m.log else 0 := by
  intro ops m hrun
  have hm := Lts.reachable_invariant (M := ledgerRuns) (I := fun m => Logged m ∧ Counted m)
    ⟨logged_init, counted_init⟩ (fun _ _ _ => step_counted) ⟨ops, hrun⟩
  exact hm.2

/-- A claim that is released, and pruned by the next sweep. -/
def prunedClaim : List Operation :=
  [.call (.tryClaim (fun _ => 0) "t" "c" none),
   .call (.release 0 "t" "cycle_succeeded"),
   .sweep Reconciler.defaultConfig 300000 fun _ => 300000]

/-- After the sweep the two counts differ by the one pruned record. -/
theorem claimStats_of_pruned_claim :
    ∃ m, ledgerRuns.exec .init prunedClaim = some m ∧
      (cockpit m.log).claimStats .released = m.stats .released + 1 := by
  have hend : (ledgerRuns.exec .init prunedClaim).map (fun m => prunes m.log) = some 1 := by
    decide
  obtain ⟨m, hm, hprunes⟩ := Option.map_eq_some_iff.mp hend
  refine ⟨m, hm, ?_⟩
  rw [claimStats_eq prunedClaim m hm .released, if_pos rfl, hprunes]

/-- The ledger is empty again, and the cockpit still counts the claim. -/
theorem pruned_claim_counted :
    ¬ ∀ (ops : List Operation) (m : TaskClaimMachine), ledgerRuns.exec .init ops = some m →
      (cockpit m.log).claimStats = m.stats := by
  intro hall
  have hend : (ledgerRuns.exec .init prunedClaim).map (fun m =>
      ((cockpit m.log).claimStats .released, m.stats .released)) = some (1, 0) := by
    decide
  obtain ⟨m, hm, hcounts⟩ := Option.map_eq_some_iff.mp hend
  have heq := congrFun (hall prunedClaim m hm) .released
  rw [Prod.mk.injEq] at hcounts
  rw [hcounts.1, hcounts.2] at heq
  exact absurd heq (by decide)

end Kovael.Cockpit
