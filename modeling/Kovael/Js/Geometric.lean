import Mathlib.Algebra.Order.Monoid.NatCast
import Mathlib.Tactic.Positivity
import Kovael.Js.Number

/-!
# Geometric sequences of numbers

`base * factor ** k` for `k = 0, 1, …`, over all numbers. `grows_iff` says when the
sequence never falls; three terms decide it.
-/

namespace Js.Number

/-- `base * Math.pow(factor, k)`. -/
def geometric (base factor : Number) (k : Nat) : Number := base.mul (factor.pow k)

/-- The number is above zero. -/
def IsPositive (a : Number) : Prop := (fin 0).lt a = true

/-- What it takes that the sequence never falls. -/
def Grows : Number → Number → Prop
  | .fin b, .fin f => 0 ≤ b * (f - 1) ∧ 0 ≤ b * (f - 1) * f
  | .fin b, .posInf => 0 < b
  | .posInf, f | .negInf, f => f.IsPositive
  | _, _ => False

theorem mul_fin_one (a : Number) : a.mul (.fin 1) = a := by
  cases a with
  | nan => rfl
  | negInf => rfl
  | fin q => exact congrArg fin (MulOneClass.mul_one q)
  | posInf => rfl

theorem geometric_zero (base factor : Number) : geometric base factor 0 = base := by
  rw [geometric, Nat.cast_zero, show factor.pow 0 = .fin 1 from rfl, mul_fin_one]

theorem pow_fin (q : ℚ) (k : Nat) : (fin q).pow k = .fin (q ^ k) := by
  unfold pow
  split
  · next h =>
    rw [Nat.cast_eq_zero.mp h, pow_zero]
  · dsimp only
    rw [if_neg (by omega), zpow_natCast]

theorem pow_posInf {k : Nat} (hk : 0 < k) : posInf.pow k = .posInf := by
  unfold pow
  rw [if_neg (by omega)]
  exact if_pos (by omega)

theorem isPositive_fin {q : ℚ} : (fin q).IsPositive ↔ 0 < q := decide_eq_true_iff

theorem IsPositive.pow {a : Number} (h : a.IsPositive) (k : Nat) : (a.pow k).IsPositive := by
  cases a with
  | nan => exact nomatch h
  | negInf => exact nomatch h
  | fin q =>
    rw [pow_fin]
    exact isPositive_fin.mpr (pow_pos (isPositive_fin.mp h) k)
  | posInf =>
    rcases Nat.eq_zero_or_pos k with rfl | hk
    · rfl
    · rw [pow_posInf hk]
      rfl

theorem mulPosInf_of_neg {q : ℚ} (h : q < 0) : mulPosInf (fin q) = negInf := by
  show (if q = 0 then nan else if 0 < q then posInf else negInf) = negInf
  rw [if_neg h.ne, if_neg h.le.not_gt]

theorem IsPositive.posInf_mul {a : Number} (h : a.IsPositive) : posInf.mul a = .posInf := by
  cases a with
  | nan => exact nomatch h
  | negInf => exact nomatch h
  | fin q =>
    have hq := isPositive_fin.mp h
    show (if q = 0 then nan else if 0 < q then posInf else negInf) = posInf
    rw [if_neg hq.ne', if_pos hq]
  | posInf => rfl

theorem IsPositive.negInf_mul {a : Number} (h : a.IsPositive) : negInf.mul a = .negInf := by
  have hneg : negInf.mul a = neg (posInf.mul a) := by
    cases a <;> rfl
  rw [hneg, h.posInf_mul]
  rfl

theorem le_self {a : Number} (h : a ≠ .nan) : a.le a = true := by
  cases a with
  | nan => exact absurd rfl h
  | negInf => rfl
  | fin q => exact decide_eq_true le_rfl
  | posInf => rfl

theorem IsPositive.of_le {a b : Number} (h : a.IsPositive) (hle : a.le b = true) :
    b.IsPositive := by
  cases a with
  | nan => exact nomatch h
  | negInf => exact nomatch h
  | fin p =>
    cases b with
    | nan => exact nomatch hle
    | negInf => exact nomatch hle
    | fin q => exact isPositive_fin.mpr ((isPositive_fin.mp h).trans_le (of_decide_eq_true hle))
    | posInf => rfl
  | posInf =>
    cases b with
    | posInf => rfl
    | nan => exact nomatch hle
    | negInf => exact nomatch hle
    | fin q => exact nomatch hle

/-- A finite sequence that does not fall at first never does. -/
theorem pow_step {b f : ℚ} (hfirst : 0 ≤ b * (f - 1)) (hsecond : 0 ≤ b * (f - 1) * f) (k : Nat) :
    b * f ^ k ≤ b * f ^ (k + 1) := by
  have hdiff : b * f ^ (k + 1) - b * f ^ k = b * (f - 1) * f ^ k := by ring
  have hnonneg : 0 ≤ b * (f - 1) * f ^ k := by
    rcases hfirst.eq_or_lt with hzero | hpos
    · rw [← hzero, zero_mul]
    · have hf : 0 ≤ f := by
        by_contra hneg
        exact absurd hsecond (not_le.mpr (mul_neg_of_pos_of_neg hpos (not_le.mp hneg)))
      positivity
  linarith

theorem square_pos {f : ℚ} (h : f ≠ 0) : 0 < f ^ 2 := by positivity

theorem geometric_fin (b f : ℚ) (k : Nat) : geometric (.fin b) (.fin f) k = .fin (b * f ^ k) := by
  rw [geometric, pow_fin]
  rfl

theorem geometric_fin_posInf {b : ℚ} (hb : 0 < b) {k : Nat} (hk : 0 < k) :
    geometric (.fin b) .posInf k = .posInf := by
  rw [geometric, pow_posInf hk]
  exact (isPositive_fin.mpr hb).posInf_mul

/-- A growing sequence never falls, by the kinds of its two parameters. -/
theorem Grows.mono {base factor : Number} (h : Grows base factor) {m n : Nat} (hmn : m ≤ n) :
    (geometric base factor m).le (geometric base factor n) = true := by
  cases base with
  | nan => exact absurd h id
  | negInf =>
    rw [geometric, (IsPositive.pow h m).negInf_mul]
    rw [geometric, (IsPositive.pow h n).negInf_mul]
    rfl
  | posInf =>
    rw [geometric, (IsPositive.pow h m).posInf_mul]
    rw [geometric, (IsPositive.pow h n).posInf_mul]
    rfl
  | fin b =>
    cases factor with
    | nan => exact absurd h id
    | negInf => exact absurd h id
    | fin f =>
      rw [geometric_fin, geometric_fin]
      exact decide_eq_true
        (monotone_nat_of_le_succ (f := fun k => b * f ^ k) (pow_step h.1 h.2) hmn)
    | posInf =>
      rcases Nat.eq_zero_or_pos n with rfl | hn
      · rw [Nat.le_zero.mp hmn, geometric_zero]
        exact le_self (fun h => nomatch h)
      · rw [geometric_fin_posInf h hn]
        rcases Nat.eq_zero_or_pos m with rfl | hm
        · rw [geometric_zero]
          rfl
        · rw [geometric_fin_posInf h hm]
          rfl

/-- Three terms that do not fall make a growing sequence. -/
theorem grows_of_le {base factor : Number}
    (hfirst : (geometric base factor 0).le (geometric base factor 1) = true)
    (hsecond : (geometric base factor 1).le (geometric base factor 2) = true) :
    Grows base factor := by
  rw [geometric_zero] at hfirst
  cases base with
  | nan => exact nomatch hfirst
  | negInf =>
    cases factor with
    | nan => exact nomatch hfirst
    | negInf => exact nomatch hsecond
    | fin f =>
      rw [geometric, geometric, pow_fin, pow_fin, pow_one] at hsecond
      refine isPositive_fin.mpr (not_le.mp fun hf => ?_)
      rcases hf.eq_or_lt with rfl | hf
      · exact nomatch hsecond
      · have hneg : negInf.mul (fin f) = posInf := congrArg neg (mulPosInf_of_neg hf)
        rw [hneg, (isPositive_fin.mpr (square_pos hf.ne)).negInf_mul] at hsecond
        exact nomatch hsecond
    | posInf => rfl
  | posInf =>
    cases factor with
    | nan => exact nomatch hfirst
    | negInf => exact nomatch hfirst
    | fin f =>
      rw [geometric, pow_fin, pow_one] at hfirst
      refine isPositive_fin.mpr (not_le.mp fun hf => ?_)
      rcases hf.eq_or_lt with rfl | hf
      · exact nomatch hfirst
      · rw [show posInf.mul (fin f) = negInf from mulPosInf_of_neg hf] at hfirst
        exact nomatch hfirst
    | posInf => rfl
  | fin b =>
    cases factor with
    | nan => exact nomatch hfirst
    | negInf =>
      have hterm : geometric (fin b) .negInf 1 = neg (mulPosInf (fin b)) := rfl
      rw [hterm] at hfirst hsecond
      rcases lt_trichotomy b 0 with hb | rfl | hb
      · rw [mulPosInf_of_neg hb, show geometric (fin b) .negInf 2 = mulPosInf (fin b) from rfl,
          mulPosInf_of_neg hb] at hsecond
        exact nomatch hsecond
      · exact nomatch hfirst
      · rw [show mulPosInf (fin b) = posInf from (isPositive_fin.mpr hb).posInf_mul] at hfirst
        exact nomatch hfirst
    | fin f =>
      rw [geometric_fin, pow_one] at hfirst
      rw [geometric_fin, geometric_fin, pow_one] at hsecond
      have hb : b ≤ b * f := of_decide_eq_true hfirst
      have hbf : b * f ≤ b * f ^ 2 := of_decide_eq_true hsecond
      constructor <;> linarith
    | posInf =>
      have hterm : geometric (fin b) .posInf 1 = mulPosInf (fin b) := rfl
      rw [hterm] at hfirst
      refine not_le.mp fun hb => ?_
      rcases hb.eq_or_lt with rfl | hb
      · exact nomatch hfirst
      · rw [mulPosInf_of_neg hb] at hfirst
        exact nomatch hfirst

/-- When a geometric sequence never falls. -/
theorem grows_iff {base factor : Number} :
    Grows base factor ↔
      ∀ m n, m ≤ n → (geometric base factor m).le (geometric base factor n) = true :=
  ⟨fun h _ _ => h.mono, fun h => grows_of_le (h 0 1 (by omega)) (h 1 2 (by omega))⟩

end Js.Number
