import Kovael.Claims.Machine

/-!
# `Reconciler`: stall detection and terminal cleanup

`src/services/Reconciler.ts` sweeps a snapshot of the ledger: a Claimed or
Running record older than `stallTimeoutMs` is released, a Released record older
than `cleanupAfterMs` is pruned. `get_sweep` says what one sweep does to every
record; it is all the later files use.

Mirroring notes vs the TS class:
- The age of a record is taken from one reading `now`; the release of a stalled
  record reads the clock again, so `clock h` is the reading when the sweep
  reaches `h` (a snapshot holds each hash once).
- The emitted `reconcile_action`s are returned in order; the timer and the
  sweep counter are not modelled.
-/

namespace Kovael.Claims

open Js (Number OrderedMap)
open TaskClaimMachine

namespace Reconciler

structure ReconcilerConfig where
  sweepIntervalMs : Number
  stallTimeoutMs : Number
  cleanupAfterMs : Number
  deriving DecidableEq, Repr

/-- `DEFAULT_RECONCILER_CONFIG`. -/
def defaultConfig : ReconcilerConfig where
  sweepIntervalMs := .ofNat 5000
  stallTimeoutMs := .ofNat 60000
  cleanupAfterMs := .ofNat 300000

inductive ActionKind where
  | stallDetected
  | terminalCleanup
  deriving DecidableEq, Repr

structure ReconcileAction where
  kind : ActionKind
  taskHash : String
  previousState : ClaimState
  ageMs : Int
  timestamp : Int
  deriving DecidableEq, Repr

/-- The stall branch is taken. -/
def stalled (cfg : ReconcilerConfig) (now : Int) (r : ClaimRecord) : Bool :=
  (decide (r.state = .claimed) || decide (r.state = .running)) &&
    cfg.stallTimeoutMs.le (.ofInt (now - r.updatedAt))

/-- The cleanup branch is taken. -/
def expired (cfg : ReconcilerConfig) (now : Int) (r : ClaimRecord) : Bool :=
  decide (r.state = .released) && cfg.cleanupAfterMs.le (.ofInt (now - r.updatedAt))

/-- The reason a stalled record is released with. -/
def stallReason (now : Int) (r : ClaimRecord) : String :=
  "stall_detected:" ++ r.state.text ++ "_" ++ toString (now - r.updatedAt) ++ "ms"

/-- The loop body of `sweep()`. -/
def sweepRecord (cfg : ReconcilerConfig) (now : Int) (clock : String → Int)
    (acc : TaskClaimMachine × List ReconcileAction) (r : ClaimRecord) :
    TaskClaimMachine × List ReconcileAction :=
  if stalled cfg now r then
    let released := acc.1.release (clock r.taskHash) r.taskHash (stallReason now r)
    -- a release that is refused reports nothing
    if released.2 then
      (released.1, acc.2 ++ [⟨.stallDetected, r.taskHash, r.state, now - r.updatedAt, now⟩])
    else (released.1, acc.2)
  else if expired cfg now r then
    ((acc.1.prune r.taskHash).1,
      acc.2 ++ [⟨.terminalCleanup, r.taskHash, .released, now - r.updatedAt, now⟩])
  else acc

/-- `sweep()`. -/
def sweep (cfg : ReconcilerConfig) (now : Int) (clock : String → Int) (m : TaskClaimMachine) :
    TaskClaimMachine × List ReconcileAction :=
  m.snapshot.foldl (sweepRecord cfg now clock) (m, [])

/-- What a sweep makes of one record. -/
def swept (cfg : ReconcilerConfig) (now : Int) (clock : String → Int) (r : ClaimRecord) :
    Option ClaimRecord :=
  if stalled cfg now r then some (moved r (clock r.taskHash) .released none)
  else if expired cfg now r then none
  else some r

/-- The loop body rewrites the record it looks at, and no other. -/
theorem get_sweepRecord (cfg : ReconcilerConfig) (now : Int) (clock : String → Int)
    (acc : TaskClaimMachine × List ReconcileAction) (r : ClaimRecord) (h : String)
    (hr : acc.1.get r.taskHash = some r) :
    (sweepRecord cfg now clock acc r).1.get h
      = if h = r.taskHash then swept cfg now clock r else acc.1.get h := by
  unfold sweepRecord swept
  by_cases hst : stalled cfg now r = true
  · -- a Claimed or Running record can be released, so the release succeeds
    have hne : r.state ≠ .released := by
      intro hrel
      rw [stalled, hrel] at hst
      exact absurd hst (by simp)
    have hrel : acc.1.release (clock r.taskHash) r.taskHash (stallReason now r)
        = (acc.1.move r (clock r.taskHash) r.taskHash .released none
            (some (stallReason now r)), true) := by
      rcases transition_cases acc.1 (clock r.taskHash) r.taskHash .released none
        (some (stallReason now r)) with ⟨-, hno⟩ | ⟨r', hr', -, heq⟩
      · exact absurd (released_mem_legal.mpr hne) (hno r hr)
      · rw [hr, Option.some.injEq] at hr'
        rw [release, heq, hr']
    rw [if_pos hst, if_pos hst, hrel]
    exact get_move ..
  · rw [if_neg hst, if_neg hst]
    by_cases hex : expired cfg now r = true
    · rw [if_pos hex, if_pos hex]
      exact get_prune ..
    · rw [if_neg hex, if_neg hex]
      split
      next hh => rw [hh, hr]
      next => rfl

/-- What one sweep does to every record, when records are filed under their own
hash. -/
theorem get_sweep (cfg : ReconcilerConfig) (now : Int) (clock : String → Int)
    (m : TaskClaimMachine) (hfiled : ∀ h r, m.get h = some r → r.taskHash = h) (h : String) :
    (sweep cfg now clock m).1.get h = (m.get h).bind (swept cfg now clock) := by
  obtain ⟨hout, hin⟩ := Js.get_foldl_local
    (fun (acc : TaskClaimMachine × List ReconcileAction) k => acc.1.get k)
    ClaimRecord.taskHash (sweepRecord cfg now clock) (swept cfg now clock)
    (fun acc r k hr => get_sweepRecord cfg now clock acc r k hr) m.snapshot (m, [])
    (m.ledger.values_key_nodup ClaimRecord.taskHash hfiled) (by
      intro r hr
      obtain ⟨k, hk⟩ := (m.ledger.mem_values_iff r).mp hr
      rw [hfiled k r hk]
      exact hk)
  cases hg : m.get h with
  | none =>
    -- a hash that is not in the snapshot is not touched
    have hnot : h ∉ m.snapshot.map ClaimRecord.taskHash := by
      intro hmem
      obtain ⟨r, hr, rfl⟩ := List.mem_map.mp hmem
      obtain ⟨k, hk⟩ := (m.ledger.mem_values_iff r).mp hr
      rw [hfiled k r hk] at hg
      exact absurd (hk.symm.trans hg) (by simp)
    exact (hout h hnot).trans hg
  | some r =>
    have hr := hin r ((m.ledger.mem_values_iff r).mpr ⟨h, hg⟩)
    rw [hfiled h r hg] at hr
    exact hr

/-- A sweep meets every record as the snapshot has it, so what the loop body
keeps at such a record, the sweep keeps. -/
theorem sweep_induction {I : TaskClaimMachine × List ReconcileAction → Prop}
    (cfg : ReconcilerConfig) (now : Int) (clock : String → Int)
    (hrecord : ∀ acc r, acc.1.get r.taskHash = some r → I acc →
      I (sweepRecord cfg now clock acc r))
    {m : TaskClaimMachine} (hfiled : ∀ h r, m.get h = some r → r.taskHash = h) (hm : I (m, [])) :
    I (sweep cfg now clock m) := by
  have hfold : ∀ (rs : List ClaimRecord) (acc : TaskClaimMachine × List ReconcileAction),
      (rs.map ClaimRecord.taskHash).Nodup → (∀ r ∈ rs, acc.1.get r.taskHash = some r) → I acc →
      I (rs.foldl (sweepRecord cfg now clock) acc) := by
    intro rs
    induction rs with
    | nil => exact fun acc _ _ hacc => hacc
    | cons r rs ih =>
      intro acc hnd hrs hacc
      rw [List.map_cons, List.nodup_cons] at hnd
      have hr := hrs r (List.mem_cons_self ..)
      refine ih _ hnd.2 ?_ (hrecord acc r hr hacc)
      -- the loop body leaves the records still to come alone
      intro u hu
      have hne : u.taskHash ≠ r.taskHash := fun he => hnd.1 (he ▸ List.mem_map_of_mem hu)
      rw [get_sweepRecord cfg now clock acc r u.taskHash hr, if_neg hne]
      exact hrs u (List.mem_cons_of_mem _ hu)
  refine hfold m.snapshot (m, []) (m.ledger.values_key_nodup ClaimRecord.taskHash hfiled) ?_ hm
  intro r hr
  obtain ⟨k, hk⟩ := (m.ledger.mem_values_iff r).mp hr
  rw [hfiled k r hk]
  exact hk

end Reconciler

end Kovael.Claims
