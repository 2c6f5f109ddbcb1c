import Kovael.Http.TokenBucket

/-!
# When `retryAfterS` keeps its word

A denied call says in how many whole seconds a token is there. A bucket that
holds less than one token when full never has one: `retry_after_iff` says that
this is the only thing that can go wrong.
-/

namespace Kovael.Http

open Js (OrderedMap)

section

variable (cfg : RateLimiterConfig)

/-- The run leaves the key alone: no call is for it, none evicts it. -/
def LeavesAlone (key : String) (buckets : OrderedMap String Bucket) (calls : List Call) : Prop :=
  (∀ call ∈ calls, call.key ≠ key) ∧
    (limiter cfg).Along (fun b c => ¬Evicts cfg key b c) buckets calls

/-- What the denial of `key` at the time `t` tells: not before `retryAfterS - 1`
seconds have passed is a call allowed, and after `retryAfterS` seconds it is. -/
structure RetryAfterFits (buckets : OrderedMap String Bucket) (key : String) (t : ℚ) : Prop where
  positive : 1 ≤ (consume cfg buckets key t).2.retryAfterS
  sound : ∀ calls later, LeavesAlone cfg key (consume cfg buckets key t).1 calls →
    (limiter cfg).exec (consume cfg buckets key t).1 calls = some later →
    ∀ t', t + 1000 * (consume cfg buckets key t).2.retryAfterS ≤ t' →
      (consume cfg later key t').2.allowed = true
  tight : ∀ calls later, LeavesAlone cfg key (consume cfg buckets key t).1 calls →
    (limiter cfg).exec (consume cfg buckets key t).1 calls = some later →
    ∀ t', t ≤ t' → t' < t + 1000 * ((consume cfg buckets key t).2.retryAfterS - 1) →
      (consume cfg later key t').2.allowed = false

variable {cfg}

/-! ## The bucket of the denied call -/

/-- No bucket was refilled after `t`. -/
def RefilledBy (t : ℚ) (buckets : OrderedMap String Bucket) : Prop :=
  ∀ key bucket, buckets.get? key = some bucket → bucket.lastRefillMs ≤ t

theorem bucketAt_refilledBy {t : ℚ} {buckets : OrderedMap String Bucket} (h : RefilledBy t buckets)
    (key : String) {nowMs : ℚ} (hnow : nowMs ≤ t) :
    (bucketAt cfg buckets key nowMs).lastRefillMs ≤ t := by
  have htouched : (touch cfg buckets key nowMs).2.lastRefillMs ≤ t := by
    unfold touch
    split
    · next existing hget => exact h key existing hget
    · exact hnow
  unfold bucketAt refill
  dsimp only
  split
  · exact htouched
  · exact hnow

theorem consume_refilledBy {t : ℚ} {buckets : OrderedMap String Bucket} (h : RefilledBy t buckets)
    (key : String) {nowMs : ℚ} (hnow : nowMs ≤ t) :
    RefilledBy t (consume cfg buckets key nowMs).1 := by
  intro other bucket hget
  by_cases hne : other = key
  · subst hne
    have hbucket : (bucketAt cfg buckets other nowMs).lastRefillMs ≤ t :=
      bucketAt_refilledBy h other hnow
    cases hallowed : (consume cfg buckets other nowMs).2.allowed with
    | true =>
      rw [consume_allowed hallowed, Option.some.injEq] at hget
      exact hget ▸ hbucket
    | false =>
      rw [(consume_denied hallowed).1, Option.some.injEq] at hget
      exact hget ▸ hbucket
  · exact h other bucket (consume_other hne hget)

/-- A run whose readings of the clock are not after `t` refills no bucket after it. -/
theorem exec_refilledBy {t : ℚ} :
    ∀ (calls : List Call) {buckets after : OrderedMap String Bucket}, RefilledBy t buckets →
      (∀ call ∈ calls, call.nowMs ≤ t) → (limiter cfg).exec buckets calls = some after →
      RefilledBy t after
  | [], buckets, after, h, _, hrun => by
    rw [Lts.exec_nil, Option.some.injEq] at hrun
    exact hrun ▸ h
  | call :: calls, buckets, after, h, htimes, hrun => by
    obtain ⟨next, hstep, hrun⟩ := Lts.exec_cons.mp hrun
    rw [limiter_step, Option.some.injEq] at hstep
    have hnext : RefilledBy t next :=
      hstep ▸ consume_refilledBy h call.key (htimes call (List.mem_cons_self ..))
    exact exec_refilledBy calls hnext (fun c hc => htimes c (List.mem_cons_of_mem _ hc)) hrun

/-- A run that leaves the key alone leaves its bucket as it is. -/
theorem exec_leavesAlone {key : String} {bucket : Bucket} :
    ∀ (calls : List Call) {buckets later : OrderedMap String Bucket},
      LeavesAlone cfg key buckets calls → buckets.get? key = some bucket →
      (limiter cfg).exec buckets calls = some later → later.get? key = some bucket
  | [], buckets, later, _, hget, hrun => by
    rw [Lts.exec_nil, Option.some.injEq] at hrun
    exact hrun ▸ hget
  | call :: calls, buckets, later, ⟨hothers, hkept⟩, hget, hrun => by
    obtain ⟨next, hstep, hrun⟩ := Lts.exec_cons.mp hrun
    obtain ⟨hkeep, hkept⟩ := (Lts.along_cons hstep).mp hkept
    rw [limiter_step, Option.some.injEq] at hstep
    subst hstep
    exact exec_leavesAlone calls ⟨fun c hc => hothers c (List.mem_cons_of_mem _ hc), hkept⟩
      (consume_keeps hget (hothers call (List.mem_cons_self ..)) hkeep) hrun

/-! ## Waiting for a token -/

theorem refill_tokens_of_lt {bucket : Bucket} {t' : ℚ} (h : bucket.lastRefillMs < t') :
    (refill cfg bucket t').tokens
      = min cfg.capacity
          (bucket.tokens + (t' - bucket.lastRefillMs) / 1000 * cfg.refillPerSec) := by
  unfold refill
  dsimp only
  rw [if_neg (not_le.mpr (sub_pos.mpr h))]

/-- After the whole seconds of the deficit, all that can be missing is capacity. -/
theorem refill_after {bucket : Bucket} {r : Int} (hone : 1 ≤ r)
    (hr : (1 - bucket.tokens) / cfg.refillPerSec ≤ r) {t' : ℚ}
    (ht' : bucket.lastRefillMs + 1000 * r ≤ t') :
    1 ≤ (refill cfg bucket t').tokens ↔ 1 ≤ cfg.capacity := by
  have hpos : (1 : ℚ) ≤ r := by exact_mod_cast hone
  have hlate : bucket.lastRefillMs < t' := by linarith
  have hdeficit : 1 - bucket.tokens ≤ r * cfg.refillPerSec := (div_le_iff₀ cfg.refillPerSec_pos).mp hr
  have hseconds : (r : ℚ) ≤ (t' - bucket.lastRefillMs) / 1000 := by
    rw [le_div_iff₀ (by norm_num)]
    linarith
  have hgain := mul_le_mul_of_nonneg_right hseconds cfg.refillPerSec_pos.le
  rw [refill_tokens_of_lt hlate, le_min_iff]
  exact and_iff_left (by linarith)

/-- A second earlier the deficit is still there. -/
theorem refill_before {bucket : Bucket} (hempty : bucket.tokens < 1) {r : Int}
    (hr : (r : ℚ) - 1 < (1 - bucket.tokens) / cfg.refillPerSec) {t' : ℚ}
    (ht' : t' < bucket.lastRefillMs + 1000 * (r - 1)) :
    (refill cfg bucket t').tokens < 1 := by
  by_cases hlate : bucket.lastRefillMs < t'
  · have hdeficit := (lt_div_iff₀ cfg.refillPerSec_pos).mp hr
    have hseconds : (t' - bucket.lastRefillMs) / 1000 ≤ r - 1 := by
      rw [div_le_iff₀ (by norm_num)]
      linarith
    have hgain := mul_le_mul_of_nonneg_right hseconds cfg.refillPerSec_pos.le
    rw [refill_tokens_of_lt hlate]
    exact (min_le_right _ _).trans_lt (by linarith)
  · have hsame : refill cfg bucket t' = bucket := by
      unfold refill
      dsimp only
      rw [if_pos (sub_nonpos.mpr (not_lt.mp hlate))]
    rw [hsame]
    exact hempty

/-- The number of seconds that a denied call tells. -/
theorem retryAfterS_bounds {deficit : ℚ} {r : Int} (hr : r = max 1 ⌈deficit⌉) (hpos : 0 < deficit) :
    1 ≤ r ∧ deficit ≤ r ∧ (r : ℚ) - 1 < deficit := by
  refine ⟨hr ▸ le_max_left _ _, ?_, ?_⟩
  · have hle : (⌈deficit⌉ : ℚ) ≤ r := by exact_mod_cast hr ▸ le_max_right 1 ⌈deficit⌉
    exact (Int.le_ceil _).trans hle
  · have hceil : r = ⌈deficit⌉ := by
      rw [hr]
      exact max_eq_right (Int.one_le_ceil_iff.mpr hpos)
    have := Int.ceil_lt_add_one deficit
    rw [hceil]
    linarith

end

/-! ## The condition -/

variable (cfg : RateLimiterConfig)

/-- What a denied call tells its client is right exactly if a full bucket holds a
token at all. -/
theorem retry_after_iff (calls : List Call) (buckets : OrderedMap String Bucket)
    (hrun : (limiter cfg).exec OrderedMap.empty calls = some buckets) (key : String) (t : ℚ)
    (hordered : (calls ++ [Call.mk key t]).Pairwise fun call later => call.nowMs ≤ later.nowMs)
    (hdenied : (consume cfg buckets key t).2.allowed = false) :
    RetryAfterFits cfg buckets key t ↔ 1 ≤ cfg.capacity := by
  have hbefore : ∀ call ∈ calls, call.nowMs ≤ t := by
    intro call hcall
    exact (List.pairwise_append.mp hordered).2.2 call hcall _ (List.mem_singleton_self _)
  have hrefilled : RefilledBy t buckets := by
    refine exec_refilledBy calls ?_ hbefore hrun
    intro key' bucket hget
    exact absurd hget (by simp)
  -- the bucket of the key as the denied call leaves it
  obtain ⟨hget, hretry⟩ := consume_denied hdenied
  have htime : (bucketAt cfg buckets key t).lastRefillMs = t :=
    le_antisymm (bucketAt_refilledBy hrefilled key (le_refl t)) (refill_covers _ _)
  have hempty : (bucketAt cfg buckets key t).tokens < 1 := by
    rw [← not_le, ← consume_allowed_iff, hdenied]
    exact Bool.false_ne_true
  obtain ⟨hone, hceil, htight⟩ :=
    retryAfterS_bounds hretry (div_pos (sub_pos.mpr hempty) cfg.refillPerSec_pos)
  have hwaits : ∀ rest later, LeavesAlone cfg key (consume cfg buckets key t).1 rest →
      (limiter cfg).exec (consume cfg buckets key t).1 rest = some later →
      ∀ t', (consume cfg later key t').2.allowed = true ↔
        1 ≤ (refill cfg (bucketAt cfg buckets key t) t').tokens := by
    intro rest later halone hlater t'
    have hkept := exec_leavesAlone rest halone hget hlater
    rw [consume_allowed_iff, bucketAt_of_get? hkept]
  constructor
  · intro hfits
    have hnext := hfits.sound [] _ ⟨fun _ h => absurd h List.not_mem_nil, trivial⟩ (Lts.exec_nil _)
      _ (le_refl _)
    rw [hwaits [] _ ⟨fun _ h => absurd h List.not_mem_nil, trivial⟩ (Lts.exec_nil _)] at hnext
    refine (refill_after hone hceil ?_).mp hnext
    rw [htime]
  · intro hcapacity
    refine ⟨hone, ?_, ?_⟩
    · intro rest later halone hlater t' ht'
      rw [hwaits rest later halone hlater, refill_after hone hceil (htime.symm ▸ ht')]
      exact hcapacity
    · intro rest later halone hlater t' _ ht'
      rw [← Bool.not_eq_true, hwaits rest later halone hlater, not_le]
      exact refill_before hempty htight (htime.symm ▸ ht')

/-- One token when full, and ten seconds to the next. -/
def slowRefill : RateLimiterConfig where
  capacity := 1
  refillPerSec := 1 / 10
  maxEntries := 10000
  capacity_pos := by norm_num
  refillPerSec_pos := by norm_num
  maxEntries_pos := by norm_num

/-- The second call at once is told to wait for ten seconds, rightly. -/
theorem slow_refill_waits :
    RetryAfterFits slowRefill (consume slowRefill OrderedMap.empty "198.51.100.7" 0).1
      "198.51.100.7" 0 :=
  (retry_after_iff slowRefill [⟨"198.51.100.7", 0⟩] _ rfl "198.51.100.7" 0
    (by simp) (by decide +kernel)).mpr (le_refl _)

/-- A full bucket holds half a token. -/
def halfToken : RateLimiterConfig where
  capacity := 1 / 2
  refillPerSec := 1
  maxEntries := 10000
  capacity_pos := by norm_num
  refillPerSec_pos := by norm_num
  maxEntries_pos := by norm_num

/-- The client is told to wait for one second, after which it is denied again. -/
theorem half_token_waits_forever :
    (consume halfToken OrderedMap.empty "198.51.100.7" 0).2 = ⟨false, 0, 1⟩ ∧
      (consume halfToken (consume halfToken OrderedMap.empty "198.51.100.7" 0).1
        "198.51.100.7" 1000).2 = ⟨false, 0, 1⟩ ∧
      ¬RetryAfterFits halfToken OrderedMap.empty "198.51.100.7" 0 := by
  have hagain : (consume halfToken (consume halfToken OrderedMap.empty "198.51.100.7" 0).1
      "198.51.100.7" 1000).2 = ⟨false, 0, 1⟩ := by decide +kernel
  refine ⟨by decide +kernel, hagain, ?_⟩
  intro hfits
  have hallowed := hfits.sound [] _ ⟨fun _ h => absurd h List.not_mem_nil, trivial⟩
    (Lts.exec_nil _) 1000 (by decide +kernel)
  rw [hagain] at hallowed
  exact absurd hallowed Bool.false_ne_true

end Kovael.Http
