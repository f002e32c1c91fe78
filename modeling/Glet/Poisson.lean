import Mathlib.Analysis.Complex.ExponentialBounds
import Mathlib.Probability.Distributions.Poisson.Basic
import Glet.Types

/-!
# The 99th percentile of a rate

With ADD_RATE every request rate is raised to the 99th percentile of the Poisson
distribution with that mean. `return99P` sums probabilities until 0.99 is
reached, from one request on: that of no request, `exp(-mean)`, is never added.
Up to a mean of 4 it is more than the 0.01 that may be missing, and the loop does
not end (`mass_lt`); from 5 on it ends (`exists_mass`), and covers the percentile
(`mass_le_poisson`).

`double` is modelled by the real numbers, so nothing here is executable.
-/

namespace Glet

namespace Poisson

open MeasureTheory ProbabilityTheory

variable {mean actual fuel m n : ℕ}

/-! ## `return99P` -/

/-- `calcPoissProb`. -/
noncomputable def calcPoissProb (actual mean : ℕ) : ℝ :=
  (List.range actual).foldl (fun (t1 : ℝ) (i : ℕ) => t1 * mean / (i + 1)) (Real.exp (-mean))

/-- The loop, with at most `fuel` turns. -/
noncomputable def percentileLoop (mean : ℕ) : ℕ → ℕ → ℝ → Option ℕ
  | 0, _, _ => none
  | fuel + 1, newMean, probSum =>
      let prob := calcPoissProb newMean mean
      let probSum := probSum + prob
      let newMean := newMean + 1
      if probSum < 0.99 then percentileLoop mean fuel newMean probSum else some newMean

/-- `return99P`. -/
noncomputable def return99P (mean fuel : ℕ) : Option ℤ :=
  if mean > 550 then some (toInt (mean * (11 / 10)))
  else (percentileLoop mean fuel 1 0).map fun newMean => (newMean : ℤ)

/-- `return99P` returns. -/
def Returns (mean : ℕ) (result : ℤ) : Prop := ∃ fuel, return99P mean fuel = some result

/-! ## Probabilities -/

theorem calcPoissProb_eq :
    calcPoissProb actual mean = Real.exp (-mean) * mean ^ actual / actual.factorial := by
  unfold calcPoissProb
  induction actual with
  | zero => simp
  | succ actual ih =>
      rw [List.range_succ, List.foldl_append, ih, List.foldl_cons, List.foldl_nil, pow_succ,
        Nat.factorial_succ]
      push_cast
      field_simp

theorem calcPoissProb_zero : calcPoissProb 0 mean = Real.exp (-mean) := by
  simp [calcPoissProb]

theorem calcPoissProb_nonneg : 0 ≤ calcPoissProb actual mean := by
  rw [calcPoissProb_eq]
  positivity

/-- It is the mass of the distribution. -/
theorem calcPoissProb_real :
    (poissonMeasure (mean : NNReal)).real {actual} = calcPoissProb actual mean := by
  rw [poissonMeasure_real_singleton, calcPoissProb_eq]
  simp

theorem hasSum_calcPoissProb (mean : ℕ) : HasSum (fun k => calcPoissProb k mean) 1 := by
  have h := hasSum_one_poissonMeasure (mean : NNReal)
  simpa only [calcPoissProb_eq, NNReal.coe_natCast] using h

/-- The sum after `m` turns. -/
noncomputable def mass (mean m : ℕ) : ℝ := ∑ k ∈ Finset.range m, calcPoissProb (k + 1) mean

/-- What is missing is the probability of no request. -/
theorem mass_eq : mass mean m =
    ∑ k ∈ Finset.range (m + 1), calcPoissProb k mean - Real.exp (-mean) := by
  rw [Finset.sum_range_succ', calcPoissProb_zero, mass, add_sub_cancel_right]

theorem mass_le : mass mean m ≤ 1 - Real.exp (-mean) := by
  have h := sum_le_hasSum (Finset.range (m + 1)) (fun _ _ => calcPoissProb_nonneg)
    (hasSum_calcPoissProb mean)
  rw [mass_eq]
  linarith

/-- The sum covers no more than the distribution does. -/
theorem mass_le_poisson (h : m ≤ n) :
    mass mean m ≤ (poissonMeasure (mean : NNReal)).real {k : ℕ | k ≤ n} := by
  have hfinset : ((Finset.range (m + 1) : Finset ℕ) : Set ℕ) ⊆ {k : ℕ | k ≤ n} := by
    intro k hk
    have hlt := Finset.mem_range.mp (Finset.mem_coe.mp hk)
    exact (Nat.lt_succ_iff.mp hlt).trans h
  calc mass mean m ≤ ∑ k ∈ Finset.range (m + 1), calcPoissProb k mean := by
        rw [mass_eq]
        exact sub_le_self _ (Real.exp_pos _).le
    _ = (poissonMeasure (mean : NNReal)).real (Finset.range (m + 1) : Finset ℕ) := by
        rw [← sum_measureReal_singleton]
        exact Finset.sum_congr rfl fun k _ => calcPoissProb_real.symm
    _ ≤ (poissonMeasure (mean : NNReal)).real {k : ℕ | k ≤ n} := measureReal_mono hfinset

/-! ## Means up to 4, and from 5 on -/

/-- Up to 4 the sum stays below 0.99. -/
theorem mass_lt (h : mean ≤ 4) : mass mean m < 0.99 := by
  have hexp : Real.exp (mean : ℝ) < 100 := by
    have hcast : (mean : ℝ) ≤ (4 : ℕ) := by exact_mod_cast h
    calc Real.exp (mean : ℝ) ≤ Real.exp (4 : ℕ) := Real.exp_le_exp.mpr hcast
      _ = Real.exp 1 ^ 4 := by rw [← Real.exp_nat_mul, mul_one]
      _ < 2.7182818286 ^ 4 := by
          have := Real.exp_one_lt_d9
          gcongr
      _ < 100 := by norm_num
  have hinv : (0.01 : ℝ) < Real.exp (-mean) := by
    rw [Real.exp_neg, lt_inv_comm₀ (by norm_num) (Real.exp_pos _)]
    norm_num
    exact hexp
  have hle : mass mean m ≤ 1 - Real.exp (-mean) := mass_le
  linarith

/-- From 5 on it gets there. -/
theorem exists_mass (h : 5 ≤ mean) : ∃ m, 0.99 ≤ mass mean m := by
  have hexp : 100 < Real.exp (mean : ℝ) := by
    have hcast : ((5 : ℕ) : ℝ) ≤ mean := by exact_mod_cast h
    calc (100 : ℝ) < 2.7182818283 ^ 5 := by norm_num
      _ < Real.exp 1 ^ 5 := by
          have := Real.exp_one_gt_d9
          gcongr
      _ = Real.exp (5 : ℕ) := by rw [← Real.exp_nat_mul, mul_one]
      _ ≤ Real.exp (mean : ℝ) := Real.exp_le_exp.mpr hcast
  have hinv : Real.exp (-mean) < (0.01 : ℝ) := by
    rw [Real.exp_neg, inv_lt_comm₀ (Real.exp_pos _) (by norm_num)]
    norm_num
    exact hexp
  have htends := (hasSum_calcPoissProb mean).tendsto_sum_nat
  have hnear : (0.99 + Real.exp (-mean) : ℝ) < 1 := by linarith
  obtain ⟨m, hm⟩ := (htends.eventually (lt_mem_nhds hnear)).exists
  refine ⟨m, ?_⟩
  have hmore : ∑ k ∈ Finset.range m, calcPoissProb k mean ≤
      ∑ k ∈ Finset.range (m + 1), calcPoissProb k mean := by
    rw [Finset.sum_range_succ]
    exact le_add_of_nonneg_right calcPoissProb_nonneg
  rw [mass_eq]
  linarith

/-! ## The loop -/

theorem mass_succ : mass mean (m + 1) = mass mean m + calcPoissProb (m + 1) mean :=
  Finset.sum_range_succ ..

/-- While the sums stay below 0.99 the loop does not end. -/
theorem percentileLoop_none (h : ∀ m, mass mean m < 0.99) :
    percentileLoop mean fuel (m + 1) (mass mean m) = none := by
  induction fuel generalizing m with
  | zero => rfl
  | succ fuel ih =>
      rw [percentileLoop]
      rw [← mass_succ, if_pos (h (m + 1))]
      exact ih

/-- If it ends, the sum is reached one before the result. -/
theorem percentileLoop_some (h : percentileLoop mean fuel (m + 1) (mass mean m) = some n) :
    ∃ k, n = k + 1 ∧ 0.99 ≤ mass mean k := by
  induction fuel generalizing m with
  | zero => cases h
  | succ fuel ih =>
      rw [percentileLoop] at h
      rw [← mass_succ] at h
      split at h
      case isTrue => exact ih h
      case isFalse hge =>
        obtain rfl := Option.some.inj h
        exact ⟨m + 1, rfl, not_lt.mp hge⟩

/-- It ends within as many turns as reach the sum. -/
theorem percentileLoop_ends {k : ℕ} (hk : 0.99 ≤ mass mean (m + k + 1)) :
    ∃ n, percentileLoop mean (k + 1) (m + 1) (mass mean m) = some n := by
  induction k generalizing m with
  | zero =>
      refine ⟨m + 1 + 1, ?_⟩
      rw [percentileLoop]
      rw [← mass_succ, if_neg (not_lt.mpr hk)]
  | succ k ih =>
      rw [percentileLoop]
      rw [← mass_succ]
      split
      · have hshift : m + (k + 1) + 1 = m + 1 + k + 1 := by omega
        exact ih (hshift ▸ hk)
      · exact ⟨_, rfl⟩

/-- Termination, and up to 550 the percentile. -/
def Covers (mean : ℕ) : Prop :=
  ∃ result : ℤ, Returns mean result ∧
    (mean ≤ 550 → 0.99 ≤ (poissonMeasure (mean : NNReal)).real {k : ℕ | (k : ℤ) ≤ result})

theorem mass_zero : mass mean 0 = 0 := Finset.sum_range_zero _

/-- **Percentile.** `return99P` terminates and covers the 99th percentile if and
only if the mean is 5 at least. -/
theorem return99P_covers_iff (mean : ℕ) : Covers mean ↔ 5 ≤ mean := by
  constructor
  · rintro ⟨result, ⟨fuel, hrun⟩, -⟩
    by_contra hlow
    have hsmall : ¬ mean > 550 := by omega
    have hlow' : mean ≤ 4 := by omega
    have hnone : percentileLoop mean fuel (0 + 1) (mass mean 0) = none :=
      percentileLoop_none fun _ => mass_lt hlow'
    rw [mass_zero] at hnone
    rw [return99P, if_neg hsmall, hnone] at hrun
    cases hrun
  · intro hmean
    by_cases hbig : mean > 550
    · exact ⟨_, ⟨0, if_pos hbig⟩, fun hle => by omega⟩
    · obtain ⟨m, hm⟩ := exists_mass hmean
      have hpos : m ≠ 0 := by
        rintro rfl
        rw [mass_zero] at hm
        norm_num at hm
      obtain ⟨k, rfl⟩ := Nat.exists_eq_succ_of_ne_zero hpos
      obtain ⟨n, hn⟩ := percentileLoop_ends (m := 0) (k := k) (by rwa [Nat.zero_add])
      obtain ⟨j, rfl, hj⟩ := percentileLoop_some hn
      rw [mass_zero] at hn
      refine ⟨(j + 1 : ℕ), ⟨k + 1, ?_⟩, fun _ => ?_⟩
      · rw [return99P, if_neg hbig, hn]
        rfl
      · simp only [Nat.cast_le]
        exact hj.trans (mass_le_poisson (Nat.le_succ j))

/-- A model without requests is not waited for: the loop runs forever. -/
theorem return99P_diverges : ¬ ∀ mean, Covers mean := by
  intro h
  obtain ⟨result, ⟨fuel, hrun⟩, -⟩ := h 0
  have hnone : percentileLoop 0 fuel (0 + 1) (mass 0 0) = none :=
    percentileLoop_none fun _ => mass_lt (Nat.zero_le 4)
  rw [mass_zero] at hnone
  rw [return99P, if_neg (by decide), hnone] at hrun
  cases hrun

end Poisson

end Glet
