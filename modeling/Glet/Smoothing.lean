import Mathlib.Algebra.Order.Archimedean.Basic
import Mathlib.Tactic.Linarith
import Mathlib.Tactic.Ring

/-!
# Exponential smoothing

An average that moves a fixed share of the way to each new value. Its distance
from a value that comes again and again shrinks by the same factor each time,
so it gets as near as one likes and stays there.
-/

namespace Smoothing

variable {K : Type} [Field K] {α x r ε : K}

/-- The average `r` after the value `x`. -/
def smooth (α x r : K) : K := α * x + (1 - α) * r

theorem smooth_sub (α x r : K) : smooth α x r - x = (1 - α) * (r - x) := by
  unfold smooth
  ring

variable [LinearOrder K] [IsStrictOrderedRing K]

theorem smooth_nonneg (h0 : 0 ≤ α) (h1 : α ≤ 1) (hx : 0 ≤ x) (hr : 0 ≤ r) : 0 ≤ smooth α x r :=
  add_nonneg (mul_nonneg h0 hx) (mul_nonneg (by linarith) hr)

theorem abs_smooth_sub (h1 : α ≤ 1) : |smooth α x r - x| = (1 - α) * |r - x| := by
  rw [smooth_sub, abs_mul, abs_of_nonneg (by linarith)]

/-- What is near stays near. -/
theorem near_smooth (h0 : 0 ≤ α) (h1 : α ≤ 1) (h : |r - x| ≤ ε) : |smooth α x r - x| ≤ ε := by
  rw [abs_smooth_sub h1]
  refine le_trans (mul_le_of_le_one_left (abs_nonneg _) ?_) h
  linarith

theorem abs_iterate_sub (h1 : α ≤ 1) (n : ℕ) :
    |(smooth α x)^[n] r - x| = (1 - α) ^ n * |r - x| := by
  induction n with
  | zero => rw [pow_zero, one_mul, Function.iterate_zero_apply]
  | succ n ih =>
      rw [Function.iterate_succ_apply', abs_smooth_sub h1, ih, pow_succ']
      ring

/-- The same value often enough. -/
theorem eventually_near [Archimedean K] (h0 : 0 < α) (h1 : α ≤ 1) (x r : K) (hε : 0 < ε) :
    ∃ N, ∀ n ≥ N, |(smooth α x)^[n] r - x| ≤ ε := by
  have hpos : 0 < |r - x| + 1 := by positivity
  obtain ⟨N, hN⟩ := exists_pow_lt_of_lt_one (div_pos hε hpos) (show 1 - α < 1 by linarith)
  have hbase : 0 ≤ 1 - α := by linarith
  refine ⟨N, fun n hn => ?_⟩
  rw [abs_iterate_sub h1]
  have hpow : (1 - α) ^ n ≤ ε / (|r - x| + 1) :=
    (pow_le_pow_of_le_one hbase (by linarith) hn).trans hN.le
  calc (1 - α) ^ n * |r - x| ≤ ε / (|r - x| + 1) * (|r - x| + 1) :=
        mul_le_mul hpow (by linarith) (abs_nonneg _) (by positivity)
    _ = ε := div_mul_cancel₀ ε hpos.ne'

end Smoothing
