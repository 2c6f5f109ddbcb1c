import Kovael.Js.Geometric
import Kovael.Mesh.Ownership
import Kovael.Workflow.Reload

/-!
# The retry policy under hot reload

The constructor of `RetryQueue` checks its configuration, `updateConfig` does not,
and the `workflow_loaded` listener passes on whatever numbers a document has. So
the policy stays well-formed exactly where the numbers that were set last fit:
`retry_policy_iff`.

A sweep of the queue changes no configuration and schedules nothing, so it is not
among the events of a run; whoever else uses the ledger is one `Call`.
-/

namespace Kovael.Workflow

open Js (Number Clock)
open Claims (RetryConfig RetryConfigPatch RetryQueue TaskClaimMachine Call Logged)

/-! ## Runs -/

/-- The ledger, and the queue with its configuration. -/
structure Policy where
  claims : TaskClaimMachine
  queue : RetryQueue

inductive PolicyEvent where
  | call (c : Call)
  | reload (file : Option String)
  | enqueueFailure (clock : Clock) (taskHash goal reason : String)

/-- The part of the `workflow_loaded` listener that is about retries; a file that is not
accepted calls it not. An empty patch changes nothing. -/
def applyRetry (q : RetryQueue) (file : Option String) : RetryQueue :=
  match decoded file with
  | none => q
  | some d => q.updateConfig d.retry

/-- A queue, the files that are loaded, and the failures that are reported. -/
def policy (q : RetryQueue) : Lts Policy PolicyEvent where
  init := ⟨.init, q⟩
  step w
    | .call c => some { w with claims := (Claims.perform w.claims c).1 }
    | .reload file => some { w with queue := applyRetry w.queue file }
    | .enqueueFailure clock taskHash goal reason =>
      let r := w.queue.enqueueFailure w.claims clock taskHash goal reason
      some ⟨r.1, r.2.1⟩

/-- The file that an event loads. -/
def PolicyEvent.file? : PolicyEvent → Option (Option String)
  | .reload file => some file
  | _ => none

/-- The policy is well-formed: an attempt is allowed, every backoff that was scheduled is
positive, and no later attempt waits less. -/
structure WellFormed (w : Policy) : Prop where
  attempts : (Number.ofNat 1).le w.queue.cfg.maxAttempts = true
  positive : ∀ d, .retryScheduled d ∈ w.queue.events → d.backoffMs.IsPositive
  nondecreasing : ∀ m n, 1 ≤ m → m ≤ n →
    (RetryQueue.backoff w.queue.cfg m).le (RetryQueue.backoff w.queue.cfg n) = true

/-! ## The condition -/

/-- The value that was set last. -/
def lastSet {α : Type} (field : RetryConfigPatch → Option α) (docs : List DecodedWorkflowConfig)
    (default : α) : α :=
  (docs.reverse.findSome? fun d => field d.retry).getD default

/-- The numbers of a policy fit: there is an attempt, the backoffs grow, and where there is
a second attempt the first backoff is positive. -/
structure Fits (maxAttempts baseMs factor : Number) : Prop where
  attempts : (Number.ofNat 1).le maxAttempts = true
  grows : baseMs.Grows factor
  positive : (Number.ofNat 2).le maxAttempts = true → baseMs.IsPositive

/-! ## The configuration of a run -/

/-- The configuration after some documents. -/
def cfgAfter (cfg : RetryConfig) (docs : List DecodedWorkflowConfig) : RetryConfig :=
  docs.foldl (fun cfg d => cfg.patch d.retry) cfg

theorem cfgAfter_eq_settings (docs : List DecodedWorkflowConfig) (s : Settings) :
    cfgAfter s.retry docs = (docs.foldl Settings.apply s).retry := by
  induction docs generalizing s with
  | nil => rfl
  | cons d docs ih => exact ih (s.apply d)

/-- Each number is the one that was set last. -/
theorem cfgAfter_field {α : Type} (get : RetryConfig → α) (field : RetryConfigPatch → Option α)
    (hpatch : ∀ cfg p, get (cfg.patch p) = (field p).getD (get cfg)) (cfg : RetryConfig)
    (docs : List DecodedWorkflowConfig) :
    get (cfgAfter cfg docs) = lastSet field docs (get cfg) := by
  have happly : ∀ (s : Settings) (d : DecodedWorkflowConfig),
      get (s.apply d).retry = (field d.retry).getD (get s.retry) :=
    fun s d => hpatch s.retry d.retry
  rw [show cfg = (Settings.boot cfg).retry from rfl, cfgAfter_eq_settings]
  exact @settings_eq_overlay α (fun s => get s.retry) (fun d => field d.retry) happly docs
    (.boot cfg)

theorem applyRetry_cfg (q : RetryQueue) (file : Option String) :
    (applyRetry q file).cfg = cfgAfter q.cfg (decoded file).toList := by
  unfold applyRetry
  cases decoded file with
  | none => rfl
  | some d => rfl

/-- A failure leaves the configuration alone. -/
theorem enqueueFailure_cfg (q : RetryQueue) (claims : TaskClaimMachine) (clock : Clock)
    (taskHash goal reason : String) :
    (q.enqueueFailure claims clock taskHash goal reason).2.1.cfg = q.cfg := by
  rcases RetryQueue.enqueueFailure_results q claims clock taskHash goal reason with
    ⟨-, heq⟩ | ⟨r, -, ⟨-, heq⟩ | ⟨-, -, heq⟩ | ⟨-, -, heq⟩⟩
  · rw [heq]
  · rw [heq]
    rfl
  · rw [heq]
    rfl
  · rw [heq]
    rfl

/-- The documents that the events load. -/
def docsOf (es : List PolicyEvent) : List DecodedWorkflowConfig :=
  (es.filterMap PolicyEvent.file?).filterMap decoded

theorem docsOf_append (es es' : List PolicyEvent) : docsOf (es ++ es') = docsOf es ++ docsOf es' := by
  rw [docsOf, List.filterMap_append, List.filterMap_append]
  rfl

theorem docsOf_single (e : PolicyEvent) : docsOf [e] = e.file?.toList.filterMap decoded := by
  rw [docsOf, List.filterMap_cons]
  cases e.file? <;> rfl

/-- One event changes the configuration by the document it loads. -/
theorem step_cfg {q : RetryQueue} {w w' : Policy} {e : PolicyEvent}
    (h : (policy q).step w e = some w') : w'.queue.cfg = cfgAfter w.queue.cfg (docsOf [e]) := by
  rw [docsOf_single]
  cases e with
  | call c =>
    obtain rfl := Option.some.inj h
    rfl
  | reload file =>
    obtain rfl := Option.some.inj h
    rw [show (PolicyEvent.reload file).file?.toList.filterMap decoded = (decoded file).toList by
      rw [PolicyEvent.file?, Option.toList_some, List.filterMap_cons]
      cases decoded file <;> rfl]
    exact applyRetry_cfg w.queue file
  | enqueueFailure clock taskHash goal reason =>
    obtain rfl := Option.some.inj h
    exact enqueueFailure_cfg w.queue w.claims clock taskHash goal reason

theorem exec_snoc {q : RetryQueue} {w : Policy} {es : List PolicyEvent} {e : PolicyEvent}
    (h : (policy q).exec (policy q).init (es ++ [e]) = some w) :
    ∃ v, (policy q).exec (policy q).init es = some v ∧ (policy q).step v e = some w := by
  rw [Lts.exec_append] at h
  obtain ⟨v, hv, h⟩ := h
  obtain ⟨w', hw', h⟩ := Lts.exec_cons.mp h
  rw [Lts.exec_nil, Option.some.injEq] at h
  exact ⟨v, hv, h ▸ hw'⟩

/-- The configuration of a run. -/
theorem run_cfg {q : RetryQueue} (es : List PolicyEvent) {w : Policy}
    (h : (policy q).exec (policy q).init es = some w) :
    w.queue.cfg = cfgAfter q.cfg (docsOf es) := by
  induction es using List.reverseRecOn generalizing w with
  | nil =>
    rw [Lts.exec_nil, Option.some.injEq] at h
    rw [← h]
    rfl
  | append_singleton es e ih =>
    obtain ⟨v, hv, hstep⟩ := exec_snoc h
    rw [step_cfg hstep, ih hv, docsOf_append, cfgAfter, cfgAfter, cfgAfter, List.foldl_append]

/-! ## What a failure schedules -/

/-- A record that runs was claimed. -/
theorem attempt_of_running {m : TaskClaimMachine} (hm : Logged m) {h : String}
    {r : Claims.ClaimRecord} (hget : m.get h = some r) (hrun : r.state = .running) :
    1 ≤ r.attempt := by
  obtain ⟨-, hrec⟩ := hm.of_some hget
  have hlast := hrec.last
  have hfirst := hrec.first
  have hpath := hrec.path
  rw [hrun] at hlast
  rw [← hrec.attempt]
  generalize Claims.statesOf _ = states at hlast hfirst hpath
  obtain ⟨states, rfl⟩ := List.getLast?_eq_some_iff.mp hlast
  -- a path of moves into Running comes from Claimed
  rcases List.eq_nil_or_concat states with rfl | ⟨states, state, rfl⟩
  · exact nomatch hfirst
  · rw [List.concat_eq_append, List.append_assoc] at hpath
    have hmove : Claims.ClaimState.running ∈ Claims.legal state :=
      List.isChain_pair.mp (List.isChain_append.mp hpath).2.1
    rw [List.one_le_count_iff, ← TaskClaimMachine.running_mem_legal.mp hmove]
    simp

/-- A bound that a second attempt is within. -/
theorem two_le_of_not_lt {a : Number} {n : Nat} (hone : (Number.ofNat 1).le a = true)
    (hlt : a.lt (.ofNat (n + 1)) = false) (hn : 1 ≤ n) : (Number.ofNat 2).le a = true := by
  cases a with
  | nan => exact nomatch hone
  | negInf => exact nomatch hone
  | posInf => rfl
  | fin q =>
    have hle : ((n + 1 : Nat) : ℚ) ≤ q := not_lt.mp (of_decide_eq_false hlt)
    have hcast : ((2 : Nat) : ℚ) ≤ ((n + 1 : Nat) : ℚ) := Nat.cast_le.mpr (by omega)
    exact decide_eq_true (hcast.trans hle)

theorem backoff_succ (cfg : RetryConfig) (k : Nat) :
    RetryQueue.backoff cfg (k + 1) = cfg.baseMs.geometric cfg.factor k := by
  rw [RetryQueue.backoff, Number.geometric, Nat.cast_add, Nat.cast_one, add_sub_cancel_right]

/-- No later backoff is less, exactly where the sequence grows. -/
theorem backoff_nondecreasing_iff (cfg : RetryConfig) :
    (∀ m n, 1 ≤ m → m ≤ n → (RetryQueue.backoff cfg m).le (RetryQueue.backoff cfg n) = true) ↔
      cfg.baseMs.Grows cfg.factor := by
  rw [Number.grows_iff]
  constructor
  · intro h m n hmn
    have hsucc := h (m + 1) (n + 1) (by omega) (by omega)
    rwa [backoff_succ, backoff_succ] at hsucc
  · intro h m n hm hmn
    obtain ⟨m, rfl⟩ := Nat.exists_eq_succ_of_ne_zero (by omega : m ≠ 0)
    obtain ⟨n, rfl⟩ := Nat.exists_eq_succ_of_ne_zero (by omega : n ≠ 0)
    rw [Nat.succ_eq_add_one, Nat.succ_eq_add_one, backoff_succ, backoff_succ]
    exact h m n (by omega)

/-- The numbers of the configuration fit. -/
def FitsCfg (cfg : RetryConfig) : Prop := Fits cfg.maxAttempts cfg.baseMs cfg.factor

theorem backoff_positive {cfg : RetryConfig} (hcfg : FitsCfg cfg)
    (hmax : (Number.ofNat 2).le cfg.maxAttempts = true) {attempt : Nat} (ha : 1 ≤ attempt) :
    (RetryQueue.backoff cfg attempt).IsPositive := by
  obtain ⟨k, rfl⟩ := Nat.exists_eq_succ_of_ne_zero (by omega : attempt ≠ 0)
  have hle := hcfg.grows.mono (Nat.zero_le k)
  rw [Number.geometric_zero] at hle
  rw [Nat.succ_eq_add_one, backoff_succ]
  exact (hcfg.positive hmax).of_le hle

/-- What an event schedules is positive, where the configuration fits. -/
theorem step_scheduled {q : RetryQueue} {w w' : Policy} {e : PolicyEvent} (hlogged : Logged w.claims)
    (hcfg : FitsCfg w.queue.cfg) (h : (policy q).step w e = some w') :
    Logged w'.claims ∧ ∀ d, .retryScheduled d ∈ w'.queue.events →
      .retryScheduled d ∈ w.queue.events ∨ d.backoffMs.IsPositive := by
  cases e with
  | call c =>
    obtain rfl := Option.some.inj h
    exact ⟨Claims.perform_logged hlogged c, fun d hd => Or.inl hd⟩
  | reload file =>
    obtain rfl := Option.some.inj h
    refine ⟨hlogged, fun d hd => Or.inl ?_⟩
    rw [show (applyRetry w.queue file).events = w.queue.events by
      unfold applyRetry
      cases decoded file <;> rfl] at hd
    exact hd
  | enqueueFailure clock taskHash goal reason =>
    obtain rfl := Option.some.inj h
    refine ⟨Mesh.logged_enqueueFailure hlogged w.queue clock taskHash goal reason, fun d hd => ?_⟩
    dsimp only at hd
    rcases RetryQueue.enqueueFailure_results w.queue w.claims clock taskHash goal reason with
      ⟨-, heq⟩ | ⟨r, hget, ⟨-, heq⟩ | ⟨-, -, heq⟩ | ⟨hlt, hrun, heq⟩⟩
    · rw [heq] at hd
      exact Or.inl hd
    · rw [heq] at hd
      rcases List.mem_append.mp hd with hd | hd
      · exact Or.inl hd
      · exact nomatch List.mem_singleton.mp hd
    · rw [heq] at hd
      rcases List.mem_append.mp hd with hd | hd
      · exact Or.inl hd
      · exact nomatch List.mem_singleton.mp hd
    · rw [heq] at hd
      rcases List.mem_append.mp hd with hd | hd
      · exact Or.inl hd
      · obtain rfl := Claims.RetryEvent.retryScheduled.inj (List.mem_singleton.mp hd)
        have ha := attempt_of_running hlogged hget hrun
        exact Or.inr (backoff_positive hcfg (two_le_of_not_lt hcfg.attempts hlt ha) ha)

/-- In a run whose documents all leave the numbers fitting, every backoff is positive. -/
theorem run_scheduled {q : RetryQueue} (hq : q.events = []) (es : List PolicyEvent) {w : Policy}
    (h : (policy q).exec (policy q).init es = some w)
    (hfits : ∀ docs, docs <+: docsOf es → FitsCfg (cfgAfter q.cfg docs)) :
    Logged w.claims ∧ ∀ d, .retryScheduled d ∈ w.queue.events → d.backoffMs.IsPositive := by
  induction es using List.reverseRecOn generalizing w with
  | nil =>
    rw [Lts.exec_nil, Option.some.injEq] at h
    rw [← h]
    refine ⟨Claims.logged_init, fun d hd => ?_⟩
    rw [show (policy q).init.queue.events = [] from hq] at hd
    exact absurd hd List.not_mem_nil
  | append_singleton es e ih =>
    obtain ⟨v, hv, hstep⟩ := exec_snoc h
    rw [docsOf_append] at hfits
    obtain ⟨hlogged, hpositive⟩ := ih hv fun docs hdocs =>
      hfits docs (hdocs.trans (List.prefix_append _ _))
    have hcfg : FitsCfg v.queue.cfg := run_cfg es hv ▸ hfits _ (List.prefix_append _ _)
    obtain ⟨hlogged', hscheduled⟩ := step_scheduled hlogged hcfg hstep
    exact ⟨hlogged', fun d hd => (hscheduled d hd).elim (hpositive d) id⟩

/-! ## A failure at the first attempt -/

/-- Reloads alone. -/
theorem exec_reloads (q : RetryQueue) (files : List (Option String)) (w : Policy) :
    (policy q).exec w (files.map .reload) = some ⟨w.claims, files.foldl applyRetry w.queue⟩ := by
  induction files generalizing w with
  | nil => rfl
  | cons file files ih =>
    rw [List.map_cons]
    exact Lts.exec_cons.mpr ⟨_, rfl, ih _⟩

/-- A task is claimed, runs and fails. -/
def firstFailure : List PolicyEvent :=
  [.call (.tryClaim (fun _ => 0) "task" "cycle" none), .call (.markRunning 0 "task" "cycle"),
   .enqueueFailure (fun _ => 0) "task" "goal" "failed"]

/-- Where a second attempt is allowed, the first backoff is scheduled. -/
theorem firstFailure_schedules (q q' : RetryQueue)
    (hmax : (Number.ofNat 2).le q.cfg.maxAttempts = true) :
    ∃ w d, (policy q').exec ⟨.init, q⟩ firstFailure = some w ∧
      .retryScheduled d ∈ w.queue.events ∧ d.backoffMs = q.cfg.baseMs := by
  let m := (Claims.perform (Claims.perform .init (.tryClaim (fun _ => 0) "task" "cycle" none)).1
    (.markRunning 0 "task" "cycle")).1
  have hget : ∃ r, m.get "task" = some r ∧ r.state = .running ∧ r.attempt = 1 := ⟨_, rfl, rfl, rfl⟩
  obtain ⟨r, hget, hrun, hattempt⟩ := hget
  have hlt : q.cfg.maxAttempts.lt (.ofNat (r.attempt + 1)) = false := by
    rw [hattempt]
    cases hcfg : q.cfg.maxAttempts with
    | nan => rfl
    | negInf => exact nomatch hcfg ▸ hmax
    | posInf => rfl
    | fin x =>
      rw [hcfg] at hmax
      exact decide_eq_false (not_lt.mpr (of_decide_eq_true hmax))
  refine ⟨_, Claims.RetryQueue.nextDispatch q.cfg (fun _ => 0) "task" "failed" r, rfl, ?_, ?_⟩
  · rcases RetryQueue.enqueueFailure_results q m (fun _ => 0) "task" "goal" "failed" with
      ⟨hnone, -⟩ | ⟨r', hr', h⟩
    · exact nomatch hnone.symm.trans hget
    · obtain rfl := Option.some.inj (hget.symm.trans hr')
      rcases h with ⟨hlt', -⟩ | ⟨-, hnot, -⟩ | ⟨-, -, heq⟩
      · exact nomatch hlt.symm.trans hlt'
      · exact absurd hrun hnot
      · show _ ∈ (q.enqueueFailure m (fun _ => 0) "task" "goal" "failed").2.1.events
        rw [heq]
        exact List.mem_append_right _ (List.mem_singleton_self _)
  · show RetryQueue.backoff q.cfg r.attempt = q.cfg.baseMs
    rw [hattempt, backoff_succ q.cfg 0, Number.geometric_zero]

/-! ## Every run -/

theorem fitsCfg_cfgAfter (cfg : RetryConfig) (docs : List DecodedWorkflowConfig) :
    FitsCfg (cfgAfter cfg docs) ↔
      Fits (lastSet RetryConfigPatch.maxAttempts docs cfg.maxAttempts)
        (lastSet RetryConfigPatch.baseMs docs cfg.baseMs)
        (lastSet RetryConfigPatch.factor docs cfg.factor) := by
  rw [FitsCfg, cfgAfter_field RetryConfig.maxAttempts RetryConfigPatch.maxAttempts fun _ _ => rfl,
    cfgAfter_field RetryConfig.baseMs RetryConfigPatch.baseMs fun _ _ => rfl,
    cfgAfter_field RetryConfig.factor RetryConfigPatch.factor fun _ _ => rfl]

/-- A new queue has emitted nothing. -/
theorem construct_events {patch : RetryConfigPatch} {q : RetryQueue}
    (hq : RetryQueue.construct patch = .ok q) : q.events = [] := by
  rw [RetryQueue.construct] at hq
  split at hq
  · exact nomatch hq
  · split at hq
    · exact nomatch hq
    · split at hq
      · exact nomatch hq
      · rw [← Except.ok.inj hq]
        rfl

/-- The first of some documents are those of the first of the files. -/
theorem exists_files {docs : List DecodedWorkflowConfig} {files : List (Option String)}
    (h : docs <+: files.filterMap decoded) :
    ∃ pre, pre <+: files ∧ pre.filterMap decoded = docs := by
  induction files generalizing docs with
  | nil => exact ⟨[], List.nil_prefix, (List.prefix_nil.mp h).symm⟩
  | cons file files ih =>
    cases hd : decoded file with
    | none =>
      rw [List.filterMap_cons_none hd] at h
      obtain ⟨pre, hpre, heq⟩ := ih h
      exact ⟨file :: pre, List.cons_prefix_cons.mpr ⟨rfl, hpre⟩,
        (List.filterMap_cons_none hd).trans heq⟩
    | some d =>
      rw [List.filterMap_cons_some hd] at h
      cases docs with
      | nil => exact ⟨[], List.nil_prefix, rfl⟩
      | cons d' docs =>
        obtain ⟨rfl, hdocs⟩ := List.cons_prefix_cons.mp h
        obtain ⟨pre, hpre, heq⟩ := ih hdocs
        refine ⟨file :: pre, List.cons_prefix_cons.mpr ⟨rfl, hpre⟩, ?_⟩
        rw [List.filterMap_cons_some hd, heq]

/-- Under whatever files are loaded, in every run of failures between them, the policy is
well-formed exactly if after each document the numbers that were set last fit. -/
theorem retry_policy_iff (patch : RetryConfigPatch) (q : RetryQueue)
    (hq : RetryQueue.construct patch = .ok q) (files : List (Option String)) :
    (∀ es w, es.filterMap PolicyEvent.file? <+: files →
        (policy q).exec (policy q).init es = some w → WellFormed w) ↔
      ∀ docs, docs <+: files.filterMap decoded →
        Fits (lastSet RetryConfigPatch.maxAttempts docs q.cfg.maxAttempts)
          (lastSet RetryConfigPatch.baseMs docs q.cfg.baseMs)
          (lastSet RetryConfigPatch.factor docs q.cfg.factor) := by
  have hevents := construct_events hq
  simp only [← fitsCfg_cfgAfter]
  constructor
  · intro h docs hdocs
    obtain ⟨pre, hpre, rfl⟩ := exists_files hdocs
    have hfiles : (pre.map PolicyEvent.reload).filterMap PolicyEvent.file? = pre := by
      rw [List.filterMap_map]
      exact List.filterMap_some
    have hrun := exec_reloads q pre (policy q).init
    have hcfg := run_cfg _ hrun
    rw [docsOf, hfiles] at hcfg
    have hwell := h _ _ (hfiles.symm ▸ hpre) hrun
    refine ⟨hcfg ▸ hwell.attempts, ?_, fun hmax => ?_⟩
    · have hgrows := (backoff_nondecreasing_iff _).mp hwell.nondecreasing
      rw [hcfg] at hgrows
      exact hgrows
    · -- a task that fails at once has the first backoff scheduled
      rw [← hcfg] at hmax ⊢
      obtain ⟨w, d, hfail, hmem, hbackoff⟩ := firstFailure_schedules (pre.foldl applyRetry q) q hmax
      have hboth : (policy q).exec (policy q).init (pre.map .reload ++ firstFailure) = some w :=
        Lts.exec_append.mpr ⟨_, hrun, hfail⟩
      have hsame : (pre.map PolicyEvent.reload ++ firstFailure).filterMap PolicyEvent.file? = pre := by
        rw [List.filterMap_append, hfiles]
        exact List.append_nil pre
      have hpositive := (h _ _ (hsame.symm ▸ hpre) hboth).positive d hmem
      rwa [hbackoff] at hpositive
  · intro h es w hfiles hrun
    have hdocs : docsOf es <+: files.filterMap decoded := hfiles.filterMap decoded
    have hcfg : FitsCfg w.queue.cfg := run_cfg es hrun ▸ h _ hdocs
    exact ⟨hcfg.attempts,
      (run_scheduled hevents es hrun fun docs hpre => h docs (hpre.trans hdocs)).2,
      (backoff_nondecreasing_iff _).mpr hcfg.grows⟩

/-- A document that allows five attempts is fine after the defaults. -/
theorem five_attempts_fit :
    RetryQueue.construct ⟨none, none, none, none⟩ = .ok (.init Claims.defaultRetryConfig) ∧
    ∀ es w, es.filterMap PolicyEvent.file? <+: [some (sampleDocument "retry:\n  max_attempts: 5\n")] →
      (policy (.init Claims.defaultRetryConfig)).exec
        (policy (.init Claims.defaultRetryConfig)).init es = some w → WellFormed w := by
  have hq : RetryQueue.construct ⟨none, none, none, none⟩ = .ok (.init Claims.defaultRetryConfig) := by
    rfl
  have hdecoded : [some (sampleDocument "retry:\n  max_attempts: 5\n")].filterMap decoded
      = [⟨none, none, none, none, ⟨some (.ofNat 5), none, none, none⟩⟩] := by
    decide +kernel
  have hfits : ∀ maxAttempts : Number, (Number.ofNat 1).le maxAttempts = true →
      Fits maxAttempts (.ofNat 2000) (.ofNat 2) :=
    fun maxAttempts hone => ⟨hone, by constructor <;> norm_num, fun _ => Number.isPositive_fin.mpr (by norm_num)⟩
  refine ⟨hq, (retry_policy_iff _ _ hq _).mpr fun docs hdocs => ?_⟩
  rw [hdecoded] at hdocs
  cases docs with
  | nil => exact hfits (.ofNat 3) (by decide)
  | cons d docs =>
    obtain ⟨rfl, hnil⟩ := List.cons_prefix_cons.mp hdocs
    obtain rfl := List.prefix_nil.mp hnil
    exact hfits (.ofNat 5) (by decide)

/-- A document that allows no attempt is loaded, and passed on. -/
theorem no_attempt_left :
    ∃ w, (policy (.init Claims.defaultRetryConfig)).exec
        (policy (.init Claims.defaultRetryConfig)).init
        [.reload (some (sampleDocument "retry:\n  max_attempts: 0\n"))] = some w ∧
      ¬WellFormed w := by
  refine ⟨_, rfl, fun h => ?_⟩
  exact absurd h.attempts (by decide +kernel)

end Kovael.Workflow
