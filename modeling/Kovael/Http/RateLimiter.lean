import Mathlib.Data.Rat.Floor
import Kovael.Js.OrderedMap
import Kovael.Js.Text

/-!
# `RateLimiter`: a token bucket for each client

`src/services/RateLimiter.ts`, over exact rationals: the key of a client, and
`consume` with its `touch` and `refill`.

Mirroring notes:
- The map of buckets keeps the order of insertion, and `touch` inserts a bucket
  again, so the first key is the least recently used one.
- A bucket is changed in place in the source; here it is written back.
- `isIP` of `node:net` is a parameter: 4, 6, or 0 for what is no address.
- `render` is how a number reads in the text of an error.
-/

namespace Kovael.Http

open Js (OrderedMap)

/-- A configuration that the constructor accepts. -/
structure RateLimiterConfig where
  capacity : ℚ
  refillPerSec : ℚ
  maxEntries : ℚ
  capacity_pos : 0 < capacity
  refillPerSec_pos : 0 < refillPerSec
  maxEntries_pos : 0 < maxEntries

/-- `DEFAULT_RATE_LIMITER_CONFIG`. -/
def defaultRateLimiterConfig : RateLimiterConfig where
  capacity := 60
  refillPerSec := 1
  maxEntries := 10000
  capacity_pos := by decide
  refillPerSec_pos := by decide
  maxEntries_pos := by decide

/-- What the constructor is given, a `Partial<RateLimiterConfig>`. -/
structure RateLimiterOptions where
  capacity : Option ℚ := none
  refillPerSec : Option ℚ := none
  maxEntries : Option ℚ := none

section

variable (render : ℚ → String)

/-- One check of the constructor. -/
def checkPositive (field : String) (value : ℚ) : Except String { value : ℚ // 0 < value } :=
  if h : 0 < value then .ok ⟨value, h⟩
  else .error ("RateLimiter: " ++ field ++ " must be > 0 (got " ++ render value ++ ")")

/-- The constructor: the options over the defaults, checked in this order. -/
def newRateLimiter (options : RateLimiterOptions) : Except String RateLimiterConfig := do
  let capacity ← checkPositive render "capacity"
    (options.capacity.getD defaultRateLimiterConfig.capacity)
  let refillPerSec ← checkPositive render "refillPerSec"
    (options.refillPerSec.getD defaultRateLimiterConfig.refillPerSec)
  let maxEntries ← checkPositive render "maxEntries"
    (options.maxEntries.getD defaultRateLimiterConfig.maxEntries)
  return ⟨capacity.1, refillPerSec.1, maxEntries.1, capacity.2, refillPerSec.2, maxEntries.2⟩

theorem checkPositive_of_pos (field : String) {value : ℚ} (h : 0 < value) :
    checkPositive render field value = .ok ⟨value, h⟩ := by
  rw [checkPositive, dif_pos h]

/-- Every configuration with positive values is accepted as it is. -/
theorem newRateLimiter_complete (cfg : RateLimiterConfig) :
    newRateLimiter render ⟨some cfg.capacity, some cfg.refillPerSec, some cfg.maxEntries⟩
      = .ok cfg := by
  simp only [newRateLimiter, Option.getD_some, checkPositive_of_pos render _ cfg.capacity_pos,
    checkPositive_of_pos render _ cfg.refillPerSec_pos,
    checkPositive_of_pos render _ cfg.maxEntries_pos]
  rfl

end

structure RateLimitDecision where
  allowed : Bool
  remaining : Int
  retryAfterS : Int
  deriving DecidableEq, Repr

structure Bucket where
  tokens : ℚ
  lastRefillMs : ℚ
  deriving DecidableEq, Repr

/-! ## `clientKey` -/

section

variable (isIP : String → Nat)

/-- `normalizeIp(addr)`. -/
def normalizeIp (addr : String) : String :=
  match Js.after? "::ffff:" addr with
  | some v4 => if isIP v4 = 4 then v4 else addr
  | none => addr

/-- The first entry of `X-Forwarded-For`, if it is an address. -/
def forwardedFor (header : Option String) : Option String :=
  (header.map fun raw => Js.trim (String.ofList (raw.toList.takeWhile (· ≠ ',')))).filter
    fun first => first ≠ "" && isIP first ≠ 0

/-- `clientKey(req)`. -/
def clientKey (trustProxy : Bool) (xForwardedFor remoteAddress : Option String) : String :=
  match (if trustProxy then forwardedFor isIP xForwardedFor else none) with
  | some first => normalizeIp isIP first
  | none =>
    match remoteAddress with
    | none => "unknown"
    | some remote => if remote ≠ "" ∧ isIP remote ≠ 0 then normalizeIp isIP remote else remote

end

/-! ## `consume` -/

section

variable (cfg : RateLimiterConfig)

/-- `touch(key, nowMs)`: the buckets after it, and the one of the key. -/
def touch (buckets : OrderedMap String Bucket) (key : String) (nowMs : ℚ) :
    OrderedMap String Bucket × Bucket :=
  match buckets.get? key with
  | some existing => ((buckets.delete key).set key existing, existing)
  | none =>
    let room :=
      if cfg.maxEntries ≤ buckets.size then
        match buckets.entries with
        | [] => buckets
        | oldest :: _ => buckets.delete oldest.1
      else buckets
    let fresh : Bucket := ⟨cfg.capacity, nowMs⟩
    (room.set key fresh, fresh)

/-- `refill(bucket, nowMs)`. -/
def refill (bucket : Bucket) (nowMs : ℚ) : Bucket :=
  let elapsedMs := nowMs - bucket.lastRefillMs
  if elapsedMs ≤ 0 then bucket
  else ⟨min cfg.capacity (bucket.tokens + elapsedMs / 1000 * cfg.refillPerSec), nowMs⟩

/-- `consume(key, nowMs)`. -/
def consume (buckets : OrderedMap String Bucket) (key : String) (nowMs : ℚ) :
    OrderedMap String Bucket × RateLimitDecision :=
  let touched := touch cfg buckets key nowMs
  let bucket := refill cfg touched.2 nowMs
  if 1 ≤ bucket.tokens then
    let bucket := { bucket with tokens := bucket.tokens - 1 }
    (touched.1.set key bucket, ⟨true, ⌊bucket.tokens⌋, 0⟩)
  else
    (touched.1.set key bucket, ⟨false, 0, max 1 ⌈(1 - bucket.tokens) / cfg.refillPerSec⌉⟩)

/-! ## What a bucket holds -/

/-- No bucket is overdrawn, and none holds more than its capacity. -/
def Filled (buckets : OrderedMap String Bucket) : Prop :=
  ∀ key bucket, buckets.get? key = some bucket →
    0 ≤ bucket.tokens ∧ bucket.tokens ≤ cfg.capacity

variable {cfg}

theorem Filled.set {buckets : OrderedMap String Bucket} {key : String} {bucket : Bucket}
    (h : Filled cfg buckets) (hb : 0 ≤ bucket.tokens ∧ bucket.tokens ≤ cfg.capacity) :
    Filled cfg (buckets.set key bucket) := by
  intro key' bucket' hget
  rcases OrderedMap.get?_set_some hget with ⟨-, rfl⟩ | ⟨-, hget⟩
  · exact hb
  · exact h key' bucket' hget

theorem Filled.delete {buckets : OrderedMap String Bucket} (key : String)
    (h : Filled cfg buckets) : Filled cfg (buckets.delete key) := by
  intro key' bucket' hget
  exact h key' bucket' (OrderedMap.get?_delete_some hget).2

theorem touch_filled {buckets : OrderedMap String Bucket} (key : String) (nowMs : ℚ)
    (h : Filled cfg buckets) :
    Filled cfg (touch cfg buckets key nowMs).1 ∧
      0 ≤ (touch cfg buckets key nowMs).2.tokens ∧
      (touch cfg buckets key nowMs).2.tokens ≤ cfg.capacity := by
  unfold touch
  split
  · next existing hget =>
    exact ⟨(h.delete key).set (h key existing hget), h key existing hget⟩
  · have hfresh : 0 ≤ cfg.capacity ∧ cfg.capacity ≤ cfg.capacity := ⟨cfg.capacity_pos.le, le_refl _⟩
    refine ⟨Filled.set ?_ hfresh, hfresh⟩
    split
    · split
      · exact h
      · exact h.delete _
    · exact h

theorem refill_bounds {bucket : Bucket} (nowMs : ℚ)
    (h : 0 ≤ bucket.tokens ∧ bucket.tokens ≤ cfg.capacity) :
    0 ≤ (refill cfg bucket nowMs).tokens ∧ (refill cfg bucket nowMs).tokens ≤ cfg.capacity := by
  unfold refill
  dsimp only
  split
  · exact h
  · next helapsed =>
    have hadded : 0 ≤ (nowMs - bucket.lastRefillMs) / 1000 * cfg.refillPerSec := by
      have := cfg.refillPerSec_pos.le
      have := (not_le.mp helapsed).le
      positivity
    exact ⟨le_min cfg.capacity_pos.le (add_nonneg h.1 hadded), min_le_left _ _⟩

/-- A call keeps every bucket between empty and full, whatever the clock says. -/
theorem consume_filled {buckets : OrderedMap String Bucket} (key : String) (nowMs : ℚ)
    (h : Filled cfg buckets) : Filled cfg (consume cfg buckets key nowMs).1 := by
  obtain ⟨htouched, htokens⟩ := touch_filled key nowMs h
  obtain ⟨hlow, hhigh⟩ := refill_bounds nowMs htokens
  unfold consume
  dsimp only
  split
  · next hone =>
    exact htouched.set ⟨sub_nonneg.mpr hone, (sub_le_self _ zero_le_one).trans hhigh⟩
  · exact htouched.set ⟨hlow, hhigh⟩

end

end Kovael.Http
