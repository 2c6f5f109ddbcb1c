import Mathlib.Data.List.Induction
import Mathlib.Tactic.Linarith
import Mathlib.Tactic.Ring
import Kovael.Http.RateLimiter
import Kovael.Lts

/-!
# Runs of the rate limiter

A run is a list of `consume` calls, on any keys and with any readings of the
clock. `token_bucket_bound` collects what holds in every state a run reaches:
what a bucket holds, how many there are, which one goes when there are too many,
and how often a key is let through in a stretch of time.
-/

namespace Kovael.Http

open Js (OrderedMap)

/-- One call of `consume`. -/
structure Call where
  key : String
  nowMs : ℚ

section

variable (cfg : RateLimiterConfig)

/-- The limiter, call by call. -/
def limiter : Lts (OrderedMap String Bucket) Call where
  init := OrderedMap.empty
  step := fun buckets call => some (consume cfg buckets call.key call.nowMs).1

/-- The call drops the bucket of `key`. -/
def Evicts (key : String) (buckets : OrderedMap String Bucket) (call : Call) : Prop :=
  buckets.has key = true ∧ (consume cfg buckets call.key call.nowMs).1.has key = false

/-- Some call of `key'` came after the last one of `key`. -/
def TouchedAfter (calls : List Call) (key key' : String) : Prop :=
  ∃ earlier later, calls = earlier ++ later ∧
    (∃ call ∈ later, call.key = key') ∧ ∀ call ∈ later, call.key ≠ key

/-- The clock readings of `key` do not decrease. -/
def OwnTimesOrdered (key : String) (calls : List Call) : Prop :=
  calls.Pairwise fun call later => call.key = key → later.key = key → call.nowMs ≤ later.nowMs

/-- How many calls of `key` within `[s, t]` are allowed. -/
def admitted (key : String) (s t : ℚ) : OrderedMap String Bucket → List Call → Nat
  | _, [] => 0
  | buckets, call :: calls =>
    (if call.key = key ∧ s ≤ call.nowMs ∧ call.nowMs ≤ t ∧
        (consume cfg buckets call.key call.nowMs).2.allowed = true then 1 else 0)
      + admitted key s t (consume cfg buckets call.key call.nowMs).1 calls

variable {cfg}

/-! ## One call -/

/-- The bucket that a call decides on. -/
def bucketAt (cfg : RateLimiterConfig) (buckets : OrderedMap String Bucket) (key : String)
    (nowMs : ℚ) : Bucket :=
  refill cfg (touch cfg buckets key nowMs).2 nowMs

theorem consume_allowed_iff (buckets : OrderedMap String Bucket) (key : String) (nowMs : ℚ) :
    (consume cfg buckets key nowMs).2.allowed = true ↔
      1 ≤ (bucketAt cfg buckets key nowMs).tokens := by
  unfold consume bucketAt
  dsimp only
  split
  · next h => exact iff_of_true rfl h
  · next h => exact iff_of_false (by simp) h

/-- What an allowed call leaves. -/
theorem consume_allowed {buckets : OrderedMap String Bucket} {key : String} {nowMs : ℚ}
    (h : (consume cfg buckets key nowMs).2.allowed = true) :
    (consume cfg buckets key nowMs).1.get? key
      = some { bucketAt cfg buckets key nowMs with
          tokens := (bucketAt cfg buckets key nowMs).tokens - 1 } := by
  have htokens := (consume_allowed_iff buckets key nowMs).mp h
  unfold bucketAt at htokens
  unfold consume bucketAt
  dsimp only
  rw [if_pos htokens, OrderedMap.get?_set_self]

/-- What a denied call leaves and tells. -/
theorem consume_denied {buckets : OrderedMap String Bucket} {key : String} {nowMs : ℚ}
    (h : (consume cfg buckets key nowMs).2.allowed = false) :
    (consume cfg buckets key nowMs).1.get? key = some (bucketAt cfg buckets key nowMs) ∧
      (consume cfg buckets key nowMs).2.retryAfterS
        = max 1 ⌈(1 - (bucketAt cfg buckets key nowMs).tokens) / cfg.refillPerSec⌉ := by
  have htokens : ¬1 ≤ (bucketAt cfg buckets key nowMs).tokens := by
    rw [← consume_allowed_iff, h]
    exact Bool.false_ne_true
  unfold bucketAt at htokens
  unfold consume bucketAt
  dsimp only
  rw [if_neg htokens]
  exact ⟨OrderedMap.get?_set_self .., rfl⟩

/-- A call leaves a bucket of another key as it is, or drops it. -/
theorem consume_other {buckets : OrderedMap String Bucket} {key other : String} {nowMs : ℚ}
    (hne : other ≠ key) {bucket : Bucket}
    (h : (consume cfg buckets key nowMs).1.get? other = some bucket) :
    buckets.get? other = some bucket := by
  have htouched : (touch cfg buckets key nowMs).1.get? other = some bucket := by
    unfold consume at h
    dsimp only at h
    split at h <;> rwa [OrderedMap.get?_set_ne _ _ hne] at h
  unfold touch at htouched
  split at htouched
  · rwa [OrderedMap.get?_set_ne _ _ hne, OrderedMap.get?_delete_ne _ hne] at htouched
  · dsimp only at htouched
    rw [OrderedMap.get?_set_ne _ _ hne] at htouched
    split at htouched
    · split at htouched
      · exact htouched
      · exact (OrderedMap.get?_delete_some htouched).2
    · exact htouched

/-- A call of another key that does not drop a bucket leaves it as it is. -/
theorem consume_keeps {buckets : OrderedMap String Bucket} {call : Call} {key : String}
    {bucket : Bucket} (hget : buckets.get? key = some bucket) (hne : call.key ≠ key)
    (hkept : ¬Evicts cfg key buckets call) :
    (consume cfg buckets call.key call.nowMs).1.get? key = some bucket := by
  have hhas : (consume cfg buckets call.key call.nowMs).1.has key = true := by
    by_contra hgone
    exact hkept ⟨(buckets.has_iff key).mpr ⟨bucket, hget⟩, Bool.not_eq_true _ ▸ hgone⟩
  obtain ⟨bucket', hget'⟩ := (OrderedMap.has_iff _ _).mp hhas
  have hsame := consume_other (Ne.symm hne) hget'
  rw [hget, Option.some.injEq] at hsame
  rw [hget', hsame]

theorem bucketAt_bounds {buckets : OrderedMap String Bucket} (h : Filled cfg buckets)
    (key : String) (nowMs : ℚ) :
    0 ≤ (bucketAt cfg buckets key nowMs).tokens ∧
      (bucketAt cfg buckets key nowMs).tokens ≤ cfg.capacity :=
  refill_bounds nowMs (touch_filled key nowMs h).2

/-- The bucket is refilled up to the time of the call. -/
theorem refill_covers (bucket : Bucket) (nowMs : ℚ) :
    nowMs ≤ (refill cfg bucket nowMs).lastRefillMs := by
  unfold refill
  dsimp only
  split
  · next h => exact sub_nonpos.mp h
  · exact le_refl nowMs

/-- A bucket gains no more than the rate times the time since `u`, which it covers. -/
theorem refill_le {bucket : Bucket} {u nowMs : ℚ} (hcovered : u ≤ bucket.lastRefillMs)
    (hu : u ≤ nowMs) :
    (refill cfg bucket nowMs).tokens
      ≤ bucket.tokens + cfg.refillPerSec * (nowMs - u) / 1000 := by
  have hrate := cfg.refillPerSec_pos.le
  unfold refill
  dsimp only
  split
  · have : 0 ≤ cfg.refillPerSec * (nowMs - u) := mul_nonneg hrate (sub_nonneg.mpr hu)
    linarith
  · have hless : cfg.refillPerSec * (nowMs - bucket.lastRefillMs)
        ≤ cfg.refillPerSec * (nowMs - u) :=
      mul_le_mul_of_nonneg_left (by linarith) hrate
    calc min cfg.capacity
          (bucket.tokens + (nowMs - bucket.lastRefillMs) / 1000 * cfg.refillPerSec)
        ≤ bucket.tokens + (nowMs - bucket.lastRefillMs) / 1000 * cfg.refillPerSec :=
          min_le_right _ _
      _ = bucket.tokens + cfg.refillPerSec * (nowMs - bucket.lastRefillMs) / 1000 := by ring
      _ ≤ bucket.tokens + cfg.refillPerSec * (nowMs - u) / 1000 := by linarith

theorem bucketAt_of_get? {buckets : OrderedMap String Bucket} {key : String} {bucket : Bucket}
    (h : buckets.get? key = some bucket) (nowMs : ℚ) :
    bucketAt cfg buckets key nowMs = refill cfg bucket nowMs := by
  unfold bucketAt touch
  rw [h]

/-! ## Which keys are tracked -/

/-- The tracked keys, the least recently touched one first. -/
def trackedKeys (buckets : OrderedMap String Bucket) : List String :=
  buckets.entries.map Prod.fst

theorem has_iff_mem_trackedKeys (buckets : OrderedMap String Bucket) (key : String) :
    buckets.has key = true ↔ key ∈ trackedKeys buckets := by
  rw [OrderedMap.has_iff, trackedKeys, List.mem_map]
  constructor
  · intro hgiven
    obtain ⟨bucket, h⟩ := hgiven
    exact ⟨(key, bucket), (buckets.mem_entries_iff key bucket).mpr h, rfl⟩
  · intro hgiven
    obtain ⟨⟨key', bucket⟩, hmem, rfl⟩ := hgiven
    exact ⟨bucket, (buckets.mem_entries_iff key' bucket).mp hmem⟩

theorem trackedKeys_length (buckets : OrderedMap String Bucket) :
    (trackedKeys buckets).length = buckets.size := List.length_map ..

/-- The key of the call comes last; of the others, some stay in their order. -/
def keysKept (cfg : RateLimiterConfig) (buckets : OrderedMap String Bucket) (key : String) :
    List String :=
  if buckets.has key = true then (trackedKeys buckets).filter fun other => other ≠ key
  else if cfg.maxEntries ≤ buckets.size then (trackedKeys buckets).tail
  else trackedKeys buckets

theorem trackedKeys_delete (buckets : OrderedMap String Bucket) (key : String) :
    trackedKeys (buckets.delete key) = (trackedKeys buckets).filter fun other => other ≠ key := by
  unfold trackedKeys OrderedMap.delete
  rw [List.filter_map]
  rfl

/-- Deleting the first key leaves the others. -/
theorem trackedKeys_delete_head {buckets : OrderedMap String Bucket} {oldest : String × Bucket}
    {rest : List (String × Bucket)} (h : buckets.entries = oldest :: rest) :
    trackedKeys (buckets.delete oldest.1) = rest.map Prod.fst := by
  have hnodup := buckets.nodup
  rw [h, List.map_cons, List.nodup_cons] at hnodup
  rw [trackedKeys_delete, trackedKeys, h, List.map_cons, List.filter_cons_of_neg (by simp),
    List.filter_eq_self]
  intro other hmem
  exact decide_eq_true fun heq => hnodup.1 (heq ▸ hmem)

theorem trackedKeys_set_new {buckets : OrderedMap String Bucket} {key : String}
    (h : buckets.get? key = none) (bucket : Bucket) :
    trackedKeys (buckets.set key bucket) = trackedKeys buckets ++ [key] := by
  rw [trackedKeys, OrderedMap.entries_set_of_none _ _ h, List.map_append]
  rfl

theorem touch_keys (buckets : OrderedMap String Bucket) (key : String) (nowMs : ℚ) :
    trackedKeys (touch cfg buckets key nowMs).1 = keysKept cfg buckets key ++ [key] := by
  unfold touch keysKept
  split
  · next existing hget =>
    have hhas : buckets.has key = true := (buckets.has_iff key).mpr ⟨existing, hget⟩
    rw [if_pos hhas, trackedKeys_set_new (OrderedMap.get?_delete_self ..), trackedKeys_delete]
  · next hget =>
    have hhas : ¬buckets.has key = true := by
      rw [OrderedMap.has, hget]
      exact Bool.false_ne_true
    rw [if_neg hhas]
    dsimp only
    split
    · split
      · next hempty =>
        rw [trackedKeys_set_new hget, trackedKeys, hempty]
        rfl
      · next oldest rest hentries =>
        have hroom : (buckets.delete oldest.1).get? key = none := by
          rw [OrderedMap.get?_delete, hget, ite_self]
        rw [trackedKeys_set_new hroom, trackedKeys_delete_head hentries, trackedKeys, hentries]
        rfl
    · exact trackedKeys_set_new hget _

theorem consume_keys (buckets : OrderedMap String Bucket) (key : String) (nowMs : ℚ) :
    trackedKeys (consume cfg buckets key nowMs).1 = keysKept cfg buckets key ++ [key] := by
  have hset : ∀ bucket, trackedKeys ((touch cfg buckets key nowMs).1.set key bucket)
      = keysKept cfg buckets key ++ [key] := by
    intro bucket
    have hmem : key ∈ trackedKeys (touch cfg buckets key nowMs).1 := by
      rw [touch_keys]
      exact List.mem_append_right _ (List.mem_singleton_self key)
    rw [← touch_keys buckets key nowMs]
    exact (Js.setEntry_keys key bucket _).trans (if_pos hmem)
  unfold consume
  dsimp only
  split <;> exact hset _

theorem keysKept_sublist (buckets : OrderedMap String Bucket) (key : String) :
    (keysKept cfg buckets key).Sublist (trackedKeys buckets) := by
  unfold keysKept
  split
  · exact List.filter_sublist
  · split
    · exact List.tail_sublist _
    · exact List.Sublist.refl _

theorem keysKept_ne {buckets : OrderedMap String Bucket} {key other : String}
    (h : other ∈ keysKept cfg buckets key) : other ≠ key := by
  unfold keysKept at h
  split at h
  · exact of_decide_eq_true (List.mem_filter.mp h).2
  · next hhas =>
    have hmem : other ∈ trackedKeys buckets := by
      split at h
      · exact List.mem_of_mem_tail h
      · exact h
    exact fun heq => hhas ((has_iff_mem_trackedKeys buckets key).mpr (heq ▸ hmem))

/-- There is room for the key of the call. -/
theorem keysKept_length (buckets : OrderedMap String Bucket) (key : String) (n : Nat)
    (hn : cfg.maxEntries ≤ n) (hsize : buckets.size ≤ n) (hpos : 0 < n) :
    (keysKept cfg buckets key).length + 1 ≤ n := by
  unfold keysKept
  split
  · next hhas =>
    have hmem := (has_iff_mem_trackedKeys buckets key).mp hhas
    have hshort : ((trackedKeys buckets).filter fun other => other ≠ key).length
        < (trackedKeys buckets).length :=
      List.length_filter_lt_length_iff_exists.mpr ⟨key, hmem, by simp⟩
    rw [trackedKeys_length] at hshort
    omega
  · split
    · rw [List.length_tail, trackedKeys_length]
      omega
    · next hroom =>
      have hless : (buckets.size : ℚ) < n := lt_of_lt_of_le (not_le.mp hroom) hn
      have := Nat.cast_lt.mp hless
      rw [trackedKeys_length]
      omega

/-- Only the first key can go. -/
theorem evicts_head {buckets : OrderedMap String Bucket} {call : Call} {key : String}
    (h : Evicts cfg key buckets call) : ∃ rest, trackedKeys buckets = key :: rest := by
  obtain ⟨hbefore, hafter⟩ := h
  have hgone : key ∉ keysKept cfg buckets call.key ++ [call.key] := by
    rw [← consume_keys buckets call.key call.nowMs, ← has_iff_mem_trackedKeys, hafter]
    exact Bool.false_ne_true
  rw [has_iff_mem_trackedKeys] at hbefore
  rw [List.mem_append, List.mem_singleton, not_or] at hgone
  obtain ⟨hdropped, hne⟩ := hgone
  unfold keysKept at hdropped
  split at hdropped
  · exact absurd (List.mem_filter.mpr ⟨hbefore, decide_eq_true hne⟩) hdropped
  · split at hdropped
    · cases hkeys : trackedKeys buckets with
      | nil => rw [hkeys] at hbefore; exact absurd hbefore List.not_mem_nil
      | cons first rest =>
        rw [hkeys] at hbefore hdropped
        rcases List.mem_cons.mp hbefore with rfl | hrest
        · exact ⟨rest, rfl⟩
        · exact absurd hrest hdropped
    · exact absurd hbefore hdropped

/-! ## Runs -/

theorem limiter_step (buckets : OrderedMap String Bucket) (call : Call) :
    (limiter cfg).step buckets call = some (consume cfg buckets call.key call.nowMs).1 := rfl

theorem reachable_filled {buckets : OrderedMap String Bucket}
    (h : (limiter cfg).Reachable buckets) : Filled cfg buckets := by
  refine Lts.reachable_invariant ?_ ?_ h
  · intro key bucket hget
    exact absurd hget (by simp [limiter])
  · intro buckets call after hfilled hstep
    rw [limiter_step, Option.some.injEq] at hstep
    exact hstep ▸ consume_filled call.key call.nowMs hfilled

theorem reachable_size {buckets : OrderedMap String Bucket}
    (h : (limiter cfg).Reachable buckets) : buckets.size ≤ max 1 ⌈cfg.maxEntries⌉₊ := by
  refine Lts.reachable_invariant (I := fun b => b.size ≤ max 1 ⌈cfg.maxEntries⌉₊) ?_ ?_ h
  · exact Nat.zero_le _
  · intro buckets call after hsize hstep
    rw [limiter_step, Option.some.injEq] at hstep
    have hceil : cfg.maxEntries ≤ (max 1 ⌈cfg.maxEntries⌉₊ : Nat) :=
      (Nat.le_ceil _).trans (Nat.cast_le.mpr (le_max_right _ _))
    rw [← hstep, ← trackedKeys_length, consume_keys, List.length_append]
    exact keysKept_length buckets call.key _ hceil hsize (by omega)

theorem TouchedAfter.snoc {calls : List Call} {key key' : String}
    (h : TouchedAfter calls key key') {call : Call} (hne : call.key ≠ key) :
    TouchedAfter (calls ++ [call]) key key' := by
  obtain ⟨earlier, later, rfl, ⟨touch, htouch, hkey⟩, hnot⟩ := h
  refine ⟨earlier, later ++ [call], List.append_assoc .., ?_, ?_⟩
  · exact ⟨touch, List.mem_append_left _ htouch, hkey⟩
  · intro c hc
    rcases List.mem_append.mp hc with hc | hc
    · exact hnot c hc
    · rw [List.mem_singleton.mp hc]
      exact hne

/-- The tracked keys stand in the order of their last calls. -/
theorem keys_by_recency {calls : List Call} {buckets : OrderedMap String Bucket}
    (h : (limiter cfg).exec OrderedMap.empty calls = some buckets) :
    (trackedKeys buckets).Pairwise (TouchedAfter calls) := by
  induction calls using List.reverseRecOn generalizing buckets with
  | nil =>
    rw [Lts.exec_nil, Option.some.injEq] at h
    rw [← h]
    exact List.Pairwise.nil
  | append_singleton calls call ih =>
    obtain ⟨before, hbefore, hlast⟩ := Lts.exec_append.mp h
    obtain ⟨after, hstep, hend⟩ := Lts.exec_cons.mp hlast
    rw [limiter_step, Option.some.injEq] at hstep
    rw [Lts.exec_nil, Option.some.injEq] at hend
    rw [← hend, ← hstep, consume_keys, List.pairwise_append]
    refine ⟨?_, List.pairwise_singleton _ _, ?_⟩
    · have hkept : (keysKept cfg before call.key).Pairwise (TouchedAfter calls) :=
        (ih hbefore).sublist (keysKept_sublist before call.key)
      refine hkept.imp_of_mem ?_
      intro key key' hkey _ htouched
      exact htouched.snoc (Ne.symm (keysKept_ne hkey))
    · intro key hkey key' hkey'
      refine ⟨calls, [call], rfl, ⟨call, List.mem_singleton_self call, ?_⟩, ?_⟩
      · exact (List.mem_singleton.mp hkey').symm
      · intro c hc
        rw [List.mem_singleton.mp hc]
        exact Ne.symm (keysKept_ne hkey)

/-! ## The calls let through -/

theorem admitted_cons (key : String) (s t : ℚ) (buckets : OrderedMap String Bucket) (call : Call)
    (calls : List Call) :
    admitted cfg key s t buckets (call :: calls)
      = (if call.key = key ∧ s ≤ call.nowMs ∧ call.nowMs ≤ t ∧
          (consume cfg buckets call.key call.nowMs).2.allowed = true then 1 else 0)
        + admitted cfg key s t (consume cfg buckets call.key call.nowMs).1 calls := rfl

/-- After `t`, nothing counts any more. -/
theorem admitted_late {key : String} {s t : ℚ} :
    ∀ (calls : List Call) (buckets : OrderedMap String Bucket),
      (∀ call ∈ calls, call.key = key → t < call.nowMs) →
      admitted cfg key s t buckets calls = 0
  | [], _, _ => rfl
  | call :: calls, buckets, hlate => by
    have hrest := admitted_late (s := s) calls (consume cfg buckets call.key call.nowMs).1
      fun c hc => hlate c (List.mem_cons_of_mem _ hc)
    have huncounted : ¬(call.key = key ∧ s ≤ call.nowMs ∧ call.nowMs ≤ t ∧
        (consume cfg buckets call.key call.nowMs).2.allowed = true) := by
      intro hgiven
      obtain ⟨hkey, -, ht, -⟩ := hgiven
      exact absurd ht (not_le.mpr (hlate call (List.mem_cons_self ..) hkey))
    rw [admitted_cons, if_neg huncounted, hrest]

/-- From a bucket that covers the time `u`, no more is let through than it holds
and gains until `t`. -/
theorem admitted_from {key : String} {s t : ℚ} :
    ∀ (calls : List Call) (buckets : OrderedMap String Bucket) (bucket : Bucket) (u : ℚ),
      Filled cfg buckets → buckets.get? key = some bucket → u ≤ bucket.lastRefillMs → u ≤ t →
      OwnTimesOrdered key calls → (∀ call ∈ calls, call.key = key → u ≤ call.nowMs) →
      (limiter cfg).Along (fun b c => ¬Evicts cfg key b c) buckets calls →
      (admitted cfg key s t buckets calls : ℚ)
        ≤ bucket.tokens + cfg.refillPerSec * (t - u) / 1000
  | [], buckets, bucket, u, hfilled, hget, _, hu, _, _, _ => by
    have htokens := (hfilled key bucket hget).1
    have hgain : 0 ≤ cfg.refillPerSec * (t - u) :=
      mul_nonneg cfg.refillPerSec_pos.le (sub_nonneg.mpr hu)
    rw [admitted, Nat.cast_zero]
    linarith
  | call :: calls, buckets, bucket, u, hfilled, hget, hcovered, hu, hordered, hlater, hkept => by
    obtain ⟨hkeep, hrest⟩ := (Lts.along_cons (limiter_step buckets call)).mp hkept
    obtain ⟨hfirst, hordered⟩ := List.pairwise_cons.mp hordered
    have hafter := consume_filled call.key call.nowMs hfilled
    by_cases hkey : call.key = key
    · subst hkey
      have hnow := hlater call (List.mem_cons_self ..) rfl
      have hnext : ∀ c ∈ calls, c.key = call.key → call.nowMs ≤ c.nowMs :=
        fun c hc heq => hfirst c hc rfl heq
      have hgain : (bucketAt cfg buckets call.key call.nowMs).tokens
          ≤ bucket.tokens + cfg.refillPerSec * (call.nowMs - u) / 1000 :=
        bucketAt_of_get? hget call.nowMs ▸ refill_le hcovered hnow
      have hcovers : call.nowMs ≤ (bucketAt cfg buckets call.key call.nowMs).lastRefillMs :=
        refill_covers _ _
      by_cases ht : call.nowMs ≤ t
      · have hsplit : cfg.refillPerSec * (t - u) / 1000
            = cfg.refillPerSec * (call.nowMs - u) / 1000
              + cfg.refillPerSec * (t - call.nowMs) / 1000 := by ring
        rw [admitted_cons, Nat.cast_add]
        cases hallowed : (consume cfg buckets call.key call.nowMs).2.allowed with
        | true =>
          have hbound := admitted_from (s := s) calls _ _ call.nowMs hafter
            (consume_allowed hallowed) hcovers ht hordered hnext hrest
          dsimp only at hbound
          split
          · rw [Nat.cast_one]
            linarith
          · rw [Nat.cast_zero]
            linarith
        | false =>
          have hbound := admitted_from (s := s) calls _ _ call.nowMs hafter
            (consume_denied hallowed).1 hcovers ht hordered hnext hrest
          simp only [Bool.false_eq_true, and_false, if_false, Nat.cast_zero]
          linarith
      · -- the clock has passed the stretch
        have hlate : admitted cfg call.key s t buckets (call :: calls) = 0 := by
          refine admitted_late _ _ ?_
          intro c hc heq
          rcases List.mem_cons.mp hc with rfl | hc
          · exact not_le.mp ht
          · exact (not_le.mp ht).trans_le (hnext c hc heq)
        have htokens := (hfilled _ _ hget).1
        have hmore : 0 ≤ cfg.refillPerSec * (t - u) :=
          mul_nonneg cfg.refillPerSec_pos.le (sub_nonneg.mpr hu)
        rw [hlate, Nat.cast_zero]
        linarith
    · -- a call of another key leaves the bucket as it is
      have hbound := admitted_from (s := s) calls _ bucket u hafter (consume_keeps hget hkey hkeep)
        hcovered hu hordered (fun c hc => hlater c (List.mem_cons_of_mem _ hc)) hrest
      rw [admitted_cons, if_neg fun h => hkey h.1, Nat.zero_add]
      exact hbound

/-- In a stretch of a run that does not evict the key. -/
theorem admitted_le {key : String} {s t : ℚ} (hst : s ≤ t) :
    ∀ (calls : List Call) (buckets : OrderedMap String Bucket), Filled cfg buckets →
      OwnTimesOrdered key calls →
      (limiter cfg).Along (fun b c => ¬Evicts cfg key b c) buckets calls →
      (admitted cfg key s t buckets calls : ℚ)
        ≤ cfg.capacity + cfg.refillPerSec * (t - s) / 1000
  | [], buckets, _, _, _ => by
    have hgain : 0 ≤ cfg.refillPerSec * (t - s) :=
      mul_nonneg cfg.refillPerSec_pos.le (sub_nonneg.mpr hst)
    have := cfg.capacity_pos
    rw [admitted, Nat.cast_zero]
    linarith
  | call :: calls, buckets, hfilled, hordered, hkept => by
    obtain ⟨-, hrest⟩ := (Lts.along_cons (limiter_step buckets call)).mp hkept
    obtain ⟨hfirst, htimes⟩ := List.pairwise_cons.mp hordered
    have hafter := consume_filled call.key call.nowMs hfilled
    have hskipped := admitted_le hst calls _ hafter htimes hrest
    rw [admitted_cons, Nat.cast_add]
    split
    · next hcounted =>
      -- the first call that counts: from here on the bucket covers its time
      obtain ⟨hkey, hs, ht, hallowed⟩ := hcounted
      have hnext : ∀ c ∈ calls, c.key = key → call.nowMs ≤ c.nowMs :=
        fun c hc heq => hfirst c hc hkey heq
      rw [← hkey] at hnext htimes hrest ⊢
      have hbound := admitted_from (s := s) calls _ _ call.nowMs hafter
        (consume_allowed hallowed) (refill_covers _ _) ht htimes hnext hrest
      have hfull := (bucketAt_bounds hfilled call.key call.nowMs).2
      have hless : cfg.refillPerSec * (t - call.nowMs) ≤ cfg.refillPerSec * (t - s) :=
        mul_le_mul_of_nonneg_left (by linarith) cfg.refillPerSec_pos.le
      dsimp only at hbound
      rw [Nat.cast_one]
      linarith
    · rw [Nat.cast_zero, zero_add]
      exact hskipped

/-! ## The bound -/

variable (cfg)

/-- What the limiter promises of its runs. -/
structure TokenBucketBound : Prop where
  filled : ∀ buckets, (limiter cfg).Reachable buckets → ∀ key bucket,
    buckets.get? key = some bucket → 0 ≤ bucket.tokens ∧ bucket.tokens ≤ cfg.capacity
  bounded : ∀ buckets, (limiter cfg).Reachable buckets →
    buckets.size ≤ max 1 ⌈cfg.maxEntries⌉₊
  evictsOldest : ∀ calls buckets, (limiter cfg).exec OrderedMap.empty calls = some buckets →
    ∀ call key, Evicts cfg key buckets call →
      ∀ other, buckets.has other = true → other ≠ key → TouchedAfter calls key other
  window : ∀ buckets, (limiter cfg).Reachable buckets → ∀ key calls,
    OwnTimesOrdered key calls →
    (limiter cfg).Along (fun b c => ¬Evicts cfg key b c) buckets calls →
    ∀ s t, s ≤ t → (admitted cfg key s t buckets calls : ℚ)
      ≤ cfg.capacity + cfg.refillPerSec * (t - s) / 1000

/-- Whatever the keys and the clock readings, buckets stay between empty and
full, there are no more of them than allowed, and the least recently touched one
goes first; a key that is not evicted in a stretch of a run is let through no
more often there than one full bucket and the refill allow. -/
theorem token_bucket_bound : TokenBucketBound cfg where
  filled _ h := reachable_filled h
  bounded _ h := reachable_size h
  evictsOldest := by
    intro calls buckets hrun call key hevicts other hhas hne
    obtain ⟨rest, hkeys⟩ := evicts_head hevicts
    have hordered := keys_by_recency hrun
    rw [hkeys, List.pairwise_cons] at hordered
    have hmem := (has_iff_mem_trackedKeys buckets other).mp hhas
    rw [hkeys] at hmem
    rcases List.mem_cons.mp hmem with rfl | hrest
    · exact absurd rfl hne
    · exact hordered.1 other hrest
  window := by
    intro buckets hreach key calls hordered hkept s t hst
    exact admitted_le hst calls buckets (reachable_filled hreach) hordered hkept

end

end Kovael.Http
