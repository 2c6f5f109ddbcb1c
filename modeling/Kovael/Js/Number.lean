import Mathlib.Algebra.Order.Floor.Semiring
import Mathlib.Data.Rat.Floor

/-!
# JavaScript numbers, over exact rationals

A `number` is `NaN`, an infinity or a finite value. Finite values are exact
rationals here, so rounding and overflow to `Infinity` are not modelled;
everything else (comparisons with `NaN`, arithmetic of infinities, `Math.pow`
with an integer exponent, `Math.floor`, `Number.isFinite`) follows ECMAScript.
Negative zero is identified with zero: no operation below tells them apart
except a division by it, which is not modelled.
-/

namespace Js

/-- The successive readings of `Date.now()` in one call; nothing says that two
of them agree. -/
abbrev Clock := Nat → Int

/-- A JavaScript `number`. -/
inductive Number where
  | nan
  | negInf
  | fin (q : ℚ)
  | posInf
  deriving DecidableEq, Repr

namespace Number

/-- An integer literal, or an integer read from a clock or a counter. -/
def ofInt (n : Int) : Number := .fin n

/-- A counter. -/
def ofNat (n : Nat) : Number := .fin n

/-- `Number.isFinite`. -/
def isFinite : Number → Bool
  | .fin _ => true
  | _ => false

/-- `a < b`; every comparison with `NaN` is false. -/
def lt : Number → Number → Bool
  | .nan, _ | _, .nan => false
  | .negInf, b => b != .negInf
  | .fin a, .fin b => decide (a < b)
  | .fin _, .posInf => true
  | .fin _, .negInf => false
  | .posInf, _ => false

/-- `a <= b`; every comparison with `NaN` is false. -/
def le : Number → Number → Bool
  | .nan, _ | _, .nan => false
  | .negInf, _ => true
  | .fin a, .fin b => decide (a ≤ b)
  | .fin _, .posInf => true
  | .fin _, .negInf => false
  | .posInf, b => b == .posInf

/-- `a + b`. -/
def add : Number → Number → Number
  | .nan, _ | _, .nan => .nan
  | .fin a, .fin b => .fin (a + b)
  | .posInf, .negInf | .negInf, .posInf => .nan
  | .posInf, _ | _, .posInf => .posInf
  | .negInf, _ | _, .negInf => .negInf

/-- `-a`. -/
def neg : Number → Number
  | .nan => .nan
  | .negInf => .posInf
  | .fin a => .fin (-a)
  | .posInf => .negInf

/-- `a - b`. -/
def sub (a b : Number) : Number := a.add b.neg

/-- `Math.abs(a)`. -/
def abs : Number → Number
  | .nan => .nan
  | .negInf | .posInf => .posInf
  | .fin a => .fin |a|

/-- `Infinity * b`. -/
def mulPosInf : Number → Number
  | .nan => .nan
  | .negInf => .negInf
  | .fin b => if b = 0 then .nan else if 0 < b then .posInf else .negInf
  | .posInf => .posInf

/-- `a * b`. -/
def mul : Number → Number → Number
  | .fin a, .fin b => .fin (a * b)
  | .nan, _ | _, .nan => .nan
  | .posInf, b => mulPosInf b
  | .negInf, b => neg (mulPosInf b)
  | a, .posInf => mulPosInf a
  | a, .negInf => neg (mulPosInf a)

/-- `Math.pow(a, z)` for an integer exponent. -/
def pow (a : Number) (z : Int) : Number :=
  if z = 0 then .fin 1
  else match a with
    | .nan => .nan
    | .fin q => if q = 0 ∧ z < 0 then .posInf else .fin (q ^ z)
    | .posInf => if 0 < z then .posInf else .fin 0
    | .negInf =>
      if z < 0 then .fin 0
      else if z % 2 = 0 then .posInf else .negInf

/-- `Math.floor(a)` where the result is used as an integer; `none` on `NaN` and
the infinities, which every caller rejects first. -/
def floor? : Number → Option Int
  | .fin q => some ⌊q⌋
  | _ => none

/-- How far apart two integers are. -/
theorem abs_sub_ofInt (a b : Int) : ((ofInt a).sub (ofInt b)).abs = ofInt |a - b| := by
  show Number.fin |(a : ℚ) + -(b : ℚ)| = Number.fin ((|a - b| : Int) : ℚ)
  rw [← sub_eq_add_neg, Int.cast_abs, Int.cast_sub]

theorem lt_ofInt (a b : Int) : (ofInt a).lt (ofInt b) = decide (a < b) := by
  show decide ((a : ℚ) < (b : ℚ)) = decide (a < b)
  rw [decide_eq_decide]
  exact Int.cast_lt

/-- A number that `Number.isFinite` accepts. -/
theorem eq_fin_of_isFinite {a : Number} (h : a.isFinite = true) : ∃ q, a = .fin q := by
  cases a with
  | fin q => exact ⟨q, rfl⟩
  | nan => exact absurd h (by simp [isFinite])
  | negInf => exact absurd h (by simp [isFinite])
  | posInf => exact absurd h (by simp [isFinite])

end Number

end Js
