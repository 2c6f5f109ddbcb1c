import Mathlib.Data.Rat.Floor
import Mathlib.Tactic.Linarith
import Kovael.Js.OrderedMap

/-!
# `RateLimitTracker`: dispatches in a sliding window

`src/services/RateLimitTracker.ts`: the dispatches of each agent within the
window, pruned whenever somebody looks at them, and the limits that a provider
reported.

`Tracks` says what a tracker still knows of the dispatches that were recorded:
all but some that no later reading of the clock has in its window.

Mirroring notes:
- `Date.now()` is read again by each method, so the tracker carries how often
  the clock was read; `SteadyClock` says what it reads.
- A list is pruned in place in the source, whether or not it is in the map; here
  it is written back if it is.
- `snapshot` reads `oldest` before it asks `canDispatch`, and so does the model.
-/

namespace Kovael.Triad

open Js (OrderedMap)

/-- The readings of `Date.now()`, none before an earlier one. -/
structure SteadyClock where
  read : Nat → ℚ
  steady : ∀ i j, i ≤ j → read i ≤ read j

structure RateLimitConfig where
  windowMs : ℚ
  maxPerWindow : ℚ

/-- `DEFAULT_RATE_LIMIT_CONFIG`. -/
def defaultRateLimitConfig : RateLimitConfig where
  windowMs := 60000
  maxPerWindow := 60

/-- What a provider reported of one agent. -/
structure ProviderLimit where
  remaining : ℚ
  resetAtMs : ℚ

structure AgentRateSnapshot where
  agentId : String
  inWindow : Nat
  capacity : ℚ
  windowMs : ℚ
  blocked : Bool
  resetAtMs : Option ℚ
  providerReported : Option ProviderLimit

structure RateLimitTracker where
  windows : OrderedMap String (List ℚ)
  providerLimits : OrderedMap String ProviderLimit
  reads : Nat

section

variable (clock : SteadyClock) (cfg : RateLimitConfig)

/-- A tracker as the constructor leaves it. -/
def newTracker : RateLimitTracker := ⟨OrderedMap.empty, OrderedMap.empty, 0⟩

/-- `prune(list, now)`. -/
def prune (list : List ℚ) (now : ℚ) : List ℚ :=
  list.dropWhile fun time => time < now - cfg.windowMs

/-- `this.windows.get(agentId) ?? []`. -/
def RateLimitTracker.window (tracker : RateLimitTracker) (agentId : String) : List ℚ :=
  (tracker.windows.get? agentId).getD []

/-- What the next `Date.now()` is. -/
def RateLimitTracker.now (tracker : RateLimitTracker) : ℚ := clock.read tracker.reads

/-- The list of an agent, pruned at the next reading of the clock. -/
def pruneWindow (tracker : RateLimitTracker) (agentId : String) : List ℚ × RateLimitTracker :=
  (prune cfg (tracker.window agentId) (tracker.now clock),
    { tracker with
      windows := tracker.windows.modify agentId fun list => prune cfg list (tracker.now clock)
      reads := tracker.reads + 1 })

/-- The limit is used up and not yet reset. -/
def ProviderLimit.Exhausted (limit : ProviderLimit) (now : ℚ) : Prop :=
  limit.remaining ≤ 0 ∧ now < limit.resetAtMs

/-- The first test of `canDispatch`; the clock is read only if nothing remains. -/
def askProvider (tracker : RateLimitTracker) (agentId : String) : Bool × RateLimitTracker :=
  match tracker.providerLimits.get? agentId with
  | none => (true, tracker)
  | some reported =>
    if reported.remaining ≤ 0 then
      (!decide (tracker.now clock < reported.resetAtMs),
        { tracker with reads := tracker.reads + 1 })
    else (true, tracker)

/-- `canDispatch(agentId)`. -/
def canDispatch (tracker : RateLimitTracker) (agentId : String) : Bool × RateLimitTracker :=
  let asked := askProvider clock tracker agentId
  if asked.1 then
    let pruned := pruneWindow clock cfg asked.2 agentId
    (decide ((pruned.1.length : ℚ) < cfg.maxPerWindow), pruned.2)
  else (false, asked.2)

/-- `snapshot(agentId)`. -/
def snapshot (tracker : RateLimitTracker) (agentId : String) :
    AgentRateSnapshot × RateLimitTracker :=
  let pruned := pruneWindow clock cfg tracker agentId
  let asked := canDispatch clock cfg pruned.2 agentId
  ({ agentId := agentId
     inWindow := pruned.1.length
     capacity := cfg.maxPerWindow
     windowMs := cfg.windowMs
     blocked := !asked.1
     -- the time 0 counts as no time
     resetAtMs := (pruned.1.head?.filter fun oldest => oldest ≠ 0).map fun oldest =>
       oldest + cfg.windowMs
     providerReported := tracker.providerLimits.get? agentId }, asked.2)

/-- `recordDispatch(agentId)` and the snapshot that it emits. -/
def recordDispatch (tracker : RateLimitTracker) (agentId : String) :
    AgentRateSnapshot × RateLimitTracker :=
  let now := tracker.now clock
  let list := prune cfg (tracker.window agentId ++ [now]) now
  snapshot clock cfg
    { tracker with windows := tracker.windows.set agentId list, reads := tracker.reads + 1 } agentId

/-- `updateProviderLimit(agentId, remaining, resetAtMs)` and the snapshot that it emits. -/
def updateProviderLimit (tracker : RateLimitTracker) (agentId : String) (limit : ProviderLimit) :
    AgentRateSnapshot × RateLimitTracker :=
  snapshot clock cfg
    { tracker with providerLimits := tracker.providerLimits.set agentId limit } agentId

/-! ## What was recorded -/

/-- One `recordDispatch`, at the time that it read. -/
structure Dispatch where
  agentId : String
  time : ℚ

/-- The times recorded for an agent, in order. -/
def recordedFor (dispatches : List Dispatch) (agentId : String) : List ℚ :=
  (dispatches.filter fun dispatch => dispatch.agentId = agentId).map Dispatch.time

/-- The dispatches of an agent within the closed window that ends `now`. -/
def dispatchesWithin (dispatches : List Dispatch) (agentId : String) (now : ℚ) : Nat :=
  (recordedFor dispatches agentId).countP fun time => now - cfg.windowMs ≤ time ∧ time ≤ now

/-- The tracker has forgotten only what has left the window for good. -/
structure Tracks (tracker : RateLimitTracker) (dispatches : List Dispatch) : Prop where
  ordered : ∀ agentId, (recordedFor dispatches agentId).Pairwise (· ≤ ·)
  past : ∀ agentId, ∀ time ∈ recordedFor dispatches agentId, ∀ i, tracker.reads ≤ i →
    time ≤ clock.read i
  kept : ∀ agentId, ∃ gone, recordedFor dispatches agentId = gone ++ tracker.window agentId ∧
    ∀ time ∈ gone, ∀ i, tracker.reads ≤ i → time < clock.read i - cfg.windowMs

variable {clock cfg}

/-! ## Pruning -/

theorem dropWhile_eq_filter {cutoff : ℚ} :
    ∀ {list : List ℚ}, list.Pairwise (· ≤ ·) →
      (list.dropWhile fun time => time < cutoff) = list.filter fun time => cutoff ≤ time
  | [], _ => rfl
  | time :: list, h => by
    obtain ⟨hfirst, hrest⟩ := List.pairwise_cons.mp h
    by_cases hlate : time < cutoff
    · rw [List.dropWhile_cons_of_pos (by simpa using hlate),
        List.filter_cons_of_neg (by simpa using hlate), dropWhile_eq_filter hrest]
    · have hall : ∀ x ∈ time :: list, decide (cutoff ≤ x) = true := by
        intro x hx
        refine decide_eq_true ?_
        rcases List.mem_cons.mp hx with rfl | hx
        · exact not_lt.mp hlate
        · exact (not_lt.mp hlate).trans (hfirst x hx)
      rw [List.dropWhile_cons_of_neg (by simpa using hlate), List.filter_eq_self.mpr hall]

/-- A pruned list keeps what is in the window, and loses what has left it. -/
theorem prune_split (list : List ℚ) (now : ℚ) :
    ∃ gone, list = gone ++ prune cfg list now ∧ ∀ time ∈ gone, time < now - cfg.windowMs := by
  refine ⟨list.takeWhile fun time => time < now - cfg.windowMs, ?_, ?_⟩
  · exact (List.takeWhile_append_dropWhile ..).symm
  · intro time htime
    exact of_decide_eq_true (List.all_eq_true.mp List.all_takeWhile time htime)

/-- What `canDispatch` and `snapshot` count is what was recorded since the window began. -/
theorem Tracks.pruned {tracker : RateLimitTracker} {dispatches : List Dispatch}
    (h : Tracks clock cfg tracker dispatches) (agentId : String) :
    (pruneWindow clock cfg tracker agentId).1
      = (recordedFor dispatches agentId).filter
          fun time => tracker.now clock - cfg.windowMs ≤ time := by
  obtain ⟨gone, hsplit, hgone⟩ := h.kept agentId
  have hordered := h.ordered agentId
  rw [hsplit] at hordered
  have hnone : (gone.filter fun time => tracker.now clock - cfg.windowMs ≤ time) = [] := by
    rw [List.filter_eq_nil_iff]
    intro time htime
    have hless := hgone time htime tracker.reads (le_refl _)
    exact fun hin => absurd hless (not_lt.mpr (of_decide_eq_true hin))
  rw [hsplit, List.filter_append, hnone, List.nil_append]
  exact dropWhile_eq_filter (List.pairwise_append.mp hordered).2.1

/-! ## What every method keeps -/

theorem Tracks.new : Tracks clock cfg newTracker [] where
  ordered _ := List.Pairwise.nil
  past _ _ h := absurd h List.not_mem_nil
  kept _ := ⟨[], rfl, fun _ h => absurd h List.not_mem_nil⟩

/-- Only the windows and the readings matter. -/
theorem Tracks.mono {tracker tracker' : RateLimitTracker} {dispatches : List Dispatch}
    (h : Tracks clock cfg tracker dispatches)
    (hreads : tracker.reads ≤ tracker'.reads)
    (hwindows : ∀ agentId, ∃ gone, tracker.window agentId = gone ++ tracker'.window agentId ∧
      ∀ time ∈ gone, time < clock.read tracker'.reads - cfg.windowMs) :
    Tracks clock cfg tracker' dispatches where
  ordered := h.ordered
  past agentId time htime i hi := h.past agentId time htime i (hreads.trans hi)
  kept agentId := by
    obtain ⟨gone, hsplit, hgone⟩ := h.kept agentId
    obtain ⟨more, hwindow, hmore⟩ := hwindows agentId
    refine ⟨gone ++ more, by rw [hsplit, hwindow, List.append_assoc], ?_⟩
    intro time htime i hi
    rcases List.mem_append.mp htime with htime | htime
    · exact hgone time htime i (hreads.trans hi)
    · have hsteady := clock.steady _ _ hi
      have := hmore time htime
      linarith

theorem Tracks.pruneWindow {tracker : RateLimitTracker} {dispatches : List Dispatch}
    (h : Tracks clock cfg tracker dispatches) (agentId : String) :
    Tracks clock cfg (pruneWindow clock cfg tracker agentId).2 dispatches := by
  refine h.mono (Nat.le_succ _) ?_
  intro other
  have hsteady := clock.steady tracker.reads (tracker.reads + 1) (Nat.le_succ _)
  unfold Triad.pruneWindow RateLimitTracker.window
  dsimp only
  rw [OrderedMap.get?_modify]
  split
  · next hsame =>
    rw [hsame]
    cases tracker.windows.get? agentId with
    | none => exact ⟨[], rfl, fun _ h => absurd h List.not_mem_nil⟩
    | some list =>
      obtain ⟨gone, hsplit, hgone⟩ := prune_split list (tracker.now clock)
      refine ⟨gone, hsplit, ?_⟩
      intro time htime
      exact (hgone time htime).trans_le (sub_le_sub_right hsteady _)
  · exact ⟨[], rfl, fun _ h => absurd h List.not_mem_nil⟩

theorem Tracks.askProvider {tracker : RateLimitTracker} {dispatches : List Dispatch}
    (h : Tracks clock cfg tracker dispatches) (agentId : String) :
    Tracks clock cfg (askProvider clock tracker agentId).2 dispatches := by
  unfold Triad.askProvider
  split
  · exact h
  · split
    · exact h.mono (Nat.le_succ _) fun _ => ⟨[], rfl, fun _ h => absurd h List.not_mem_nil⟩
    · exact h

theorem Tracks.canDispatch {tracker : RateLimitTracker} {dispatches : List Dispatch}
    (h : Tracks clock cfg tracker dispatches) (agentId : String) :
    Tracks clock cfg (canDispatch clock cfg tracker agentId).2 dispatches := by
  unfold Triad.canDispatch
  dsimp only
  split
  · exact (h.askProvider agentId).pruneWindow agentId
  · exact h.askProvider agentId

theorem Tracks.snapshot {tracker : RateLimitTracker} {dispatches : List Dispatch}
    (h : Tracks clock cfg tracker dispatches) (agentId : String) :
    Tracks clock cfg (snapshot clock cfg tracker agentId).2 dispatches :=
  (h.pruneWindow agentId).canDispatch agentId

theorem recordedFor_snoc (dispatches : List Dispatch) (agentId other : String) (time : ℚ) :
    recordedFor (dispatches ++ [⟨agentId, time⟩]) other
      = recordedFor dispatches other ++ if agentId = other then [time] else [] := by
  unfold recordedFor
  rw [List.filter_append, List.map_append]
  by_cases h : agentId = other
  · rw [if_pos h, List.filter_cons_of_pos (by simpa using h)]
    rfl
  · rw [if_neg h, List.filter_cons_of_neg (by simpa using h)]
    rfl

theorem window_set (tracker : RateLimitTracker) (agentId other : String) (list : List ℚ)
    (reads : Nat) :
    RateLimitTracker.window
        { tracker with windows := tracker.windows.set agentId list, reads := reads } other
      = if other = agentId then list else tracker.window other := by
  unfold RateLimitTracker.window
  dsimp only
  rw [OrderedMap.get?_set]
  split <;> rfl

/-- A recorded dispatch is the last one recorded. -/
theorem Tracks.recordDispatch {tracker : RateLimitTracker} {dispatches : List Dispatch}
    (h : Tracks clock cfg tracker dispatches) (agentId : String) :
    Tracks clock cfg (recordDispatch clock cfg tracker agentId).2
      (dispatches ++ [⟨agentId, tracker.now clock⟩]) := by
  have hsteady : ∀ i, tracker.reads + 1 ≤ i → tracker.now clock ≤ clock.read i :=
    fun i hi => clock.steady _ _ ((Nat.le_succ _).trans hi)
  refine Tracks.snapshot ⟨?_, ?_, ?_⟩ agentId
  · intro other
    rw [recordedFor_snoc, List.pairwise_append]
    refine ⟨h.ordered other, ?_, ?_⟩
    · split
      · exact List.pairwise_singleton _ _
      · exact List.Pairwise.nil
    · intro time htime last hlast
      split at hlast
      · rw [List.mem_singleton.mp hlast]
        exact h.past other time htime tracker.reads (le_refl _)
      · exact absurd hlast List.not_mem_nil
  · intro other time htime i hi
    rw [recordedFor_snoc, List.mem_append] at htime
    rcases htime with htime | htime
    · exact h.past other time htime i ((Nat.le_succ _).trans hi)
    · split at htime
      · rw [List.mem_singleton.mp htime]
        exact hsteady i hi
      · exact absurd htime List.not_mem_nil
  · intro other
    obtain ⟨gone, hsplit, hgone⟩ := h.kept other
    rw [recordedFor_snoc, window_set, hsplit]
    by_cases hsame : agentId = other
    · subst hsame
      obtain ⟨more, hwindow, hmore⟩ :=
        prune_split (tracker.window agentId ++ [tracker.now clock]) (tracker.now clock)
      rw [if_pos rfl, if_pos rfl]
      refine ⟨gone ++ more, ?_, ?_⟩
      · rw [List.append_assoc, List.append_assoc, ← hwindow]
      · intro time htime i hi
        rcases List.mem_append.mp htime with htime | htime
        · exact hgone time htime i ((Nat.le_succ _).trans hi)
        · exact (hmore time htime).trans_le (sub_le_sub_right (hsteady i hi) _)
    · rw [if_neg hsame, if_neg (Ne.symm hsame), List.append_nil]
      exact ⟨gone, rfl, fun time htime i hi => hgone time htime i ((Nat.le_succ _).trans hi)⟩

theorem Tracks.updateProviderLimit {tracker : RateLimitTracker} {dispatches : List Dispatch}
    (h : Tracks clock cfg tracker dispatches) (agentId : String) (limit : ProviderLimit) :
    Tracks clock cfg (updateProviderLimit clock cfg tracker agentId limit).2 dispatches := by
  refine Tracks.snapshot ?_ agentId
  exact h.mono (le_refl _) fun _ => ⟨[], rfl, fun _ h => absurd h List.not_mem_nil⟩

/-! ## What a permission means -/

theorem askProvider_reads (tracker : RateLimitTracker) (agentId : String) :
    tracker.reads ≤ (askProvider clock tracker agentId).2.reads := by
  unfold askProvider
  split
  · exact le_refl _
  · split
    · exact Nat.le_succ _
    · exact le_refl _

theorem canDispatch_reads (tracker : RateLimitTracker) (agentId : String) :
    tracker.reads ≤ (canDispatch clock cfg tracker agentId).2.reads := by
  unfold canDispatch
  dsimp only
  split
  · exact (askProvider_reads tracker agentId).trans (Nat.le_succ _)
  · exact askProvider_reads tracker agentId

theorem askProvider_limits (tracker : RateLimitTracker) (agentId : String) :
    (askProvider clock tracker agentId).2.providerLimits = tracker.providerLimits := by
  unfold askProvider
  split
  · rfl
  · split <;> rfl

theorem canDispatch_limits (tracker : RateLimitTracker) (agentId : String) :
    (canDispatch clock cfg tracker agentId).2.providerLimits = tracker.providerLimits := by
  unfold canDispatch
  dsimp only
  split
  · exact askProvider_limits tracker agentId
  · exact askProvider_limits tracker agentId

/-- The first test is whether the limit stands in the way. -/
theorem askProvider_iff (tracker : RateLimitTracker) (agentId : String) :
    (askProvider clock tracker agentId).1 = true ↔
      ∀ limit, tracker.providerLimits.get? agentId = some limit →
        ¬limit.Exhausted (tracker.now clock) := by
  unfold askProvider ProviderLimit.Exhausted
  split
  · next hnone => simp [hnone]
  · next reported hsome =>
    rw [hsome]
    by_cases hspent : reported.remaining ≤ 0
    · simp [hspent]
    · simp [hspent]

theorem canDispatch_notExhausted {tracker : RateLimitTracker} {agentId : String}
    (hcan : (canDispatch clock cfg tracker agentId).1 = true) (limit : ProviderLimit)
    (hlimit : tracker.providerLimits.get? agentId = some limit) :
    ¬limit.Exhausted (tracker.now clock) := by
  unfold canDispatch at hcan
  dsimp only at hcan
  split at hcan
  · next hasked => exact (askProvider_iff tracker agentId).mp hasked limit hlimit
  · exact absurd hcan Bool.false_ne_true

/-- What an agent with a permission has dispatched since any later window began. -/
theorem canDispatch_count {tracker : RateLimitTracker} {dispatches : List Dispatch}
    (h : Tracks clock cfg tracker dispatches) {agentId : String}
    (hcan : (canDispatch clock cfg tracker agentId).1 = true) {now : ℚ}
    (hnow : clock.read ((canDispatch clock cfg tracker agentId).2.reads - 1) ≤ now) :
    (((recordedFor dispatches agentId).filter fun time => now - cfg.windowMs ≤ time).length : ℚ)
      < cfg.maxPerWindow := by
  unfold canDispatch at hcan hnow
  dsimp only at hcan hnow
  split at hcan
  · next hasked =>
    rw [if_pos hasked] at hnow
    have hcount := of_decide_eq_true hcan
    rw [(h.askProvider agentId).pruned agentId] at hcount
    refine lt_of_le_of_lt (Nat.cast_le.mpr ?_) hcount
    refine (List.monotone_filter_right _ ?_).length_le
    intro time htime
    have hin := of_decide_eq_true htime
    have hread : (askProvider clock tracker agentId).2.now clock ≤ now := hnow
    exact decide_eq_true ((sub_le_sub_right hread _).trans hin)
  · exact absurd hcan Bool.false_ne_true

end

end Kovael.Triad
