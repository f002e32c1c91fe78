import Glet.Interpolation
import Glet.LatencyLookup

/-!
# Bracketing a batch size

`findBatchpair` looks for the profiled batch sizes around a batch with two
`while(true)` loops, one counting down and one counting up, and `std::find` on
the unsorted list. Each ends as soon as it meets a listed value, so the distance
to the nearest one on its side bounds it, and it never passes a listed value by
(`lowerLoop_found`, `upperLoop_found`). With sizes on both sides the pair is the
tight one (`findBatchpair_tight`).
-/

namespace Glet

open LatencyTable

variable {list : List Int} {batch lo hi : Int} {fuel : Nat}

/-! ## The loops -/

/-- Down from `lowerbatch`. -/
def lowerLoop (list : List Int) : Nat → Int → Query Int
  | 0, _ => .error .diverges
  | fuel + 1, lowerbatch =>
      if lowerbatch ∈ list then .ok lowerbatch else lowerLoop list fuel (lowerbatch - 1)

/-- Up from the size after `upperbatch`. -/
def upperLoop (list : List Int) : Nat → Int → Query Int
  | 0, _ => .error .diverges
  | fuel + 1, upperbatch =>
      if upperbatch + 1 ∈ list then .ok (upperbatch + 1) else upperLoop list fuel (upperbatch + 1)

/-- `findBatchpair` as it is written, with at most `fuel` turns of each loop. -/
def findBatchpairLoops (list : List Int) (batch : Int) (fuel : Nat) : Query (Int × Int) := do
  assert (1 < batch ∧ batch < maxBatch)
  let first ← lowerLoop list fuel batch
  let second ← upperLoop list fuel batch
  return (first, second)

/-- The greatest listed size up to `batch` ends the first loop. -/
theorem lowerLoop_found (hmem : lo ∈ list) (hle : lo ≤ batch)
    (hmax : ∀ b ∈ list, b ≤ batch → b ≤ lo) (hfuel : (batch - lo).toNat < fuel) :
    lowerLoop list fuel batch = .ok lo := by
  induction fuel generalizing batch with
  | zero => omega
  | succ fuel ih =>
      unfold lowerLoop
      by_cases hbatch : batch ∈ list
      · rw [if_pos hbatch, le_antisymm (hmax batch hbatch le_rfl) hle]
      · have hne : lo ≠ batch := fun heq => hbatch (heq ▸ hmem)
        rw [if_neg hbatch]
        exact ih (by omega) (fun b hb hle => hmax b hb (by omega)) (by omega)

/-- The least listed size after `batch` ends the second. -/
theorem upperLoop_found (hmem : hi ∈ list) (hlt : batch < hi)
    (hmin : ∀ b ∈ list, batch < b → hi ≤ b) (hfuel : (hi - batch).toNat ≤ fuel) :
    upperLoop list fuel batch = .ok hi := by
  induction fuel generalizing batch with
  | zero => omega
  | succ fuel ih =>
      unfold upperLoop
      by_cases hnext : batch + 1 ∈ list
      · have heq : batch + 1 = hi := le_antisymm (by omega) (hmin _ hnext (by omega))
        rw [if_pos hnext, heq]
      · have hne : hi ≠ batch + 1 := fun heq => hnext (heq ▸ hmem)
        rw [if_neg hnext]
        exact ih (by omega) (fun b hb hlt => hmin b hb (by omega)) (by omega)

/-- A loop that ends has ended on a listed size, and passed none by. -/
theorem lowerLoop_ok (h : lowerLoop list fuel batch = .ok lo) :
    lo ∈ list ∧ lo ≤ batch ∧ ∀ b ∈ list, b ≤ batch → b ≤ lo := by
  induction fuel generalizing batch with
  | zero => cases h
  | succ fuel ih =>
      unfold lowerLoop at h
      split at h
      case isTrue hbatch =>
        obtain rfl := Except.ok.inj h
        exact ⟨hbatch, le_rfl, fun b _ hle => hle⟩
      case isFalse hbatch =>
        obtain ⟨hmem, hle, hmax⟩ := ih h
        refine ⟨hmem, by omega, fun b hb hb_le => hmax b hb ?_⟩
        have hne : b ≠ batch := fun heq => hbatch (heq ▸ hb)
        omega

theorem upperLoop_ok (h : upperLoop list fuel batch = .ok hi) :
    hi ∈ list ∧ batch < hi ∧ ∀ b ∈ list, batch < b → hi ≤ b := by
  induction fuel generalizing batch with
  | zero => cases h
  | succ fuel ih =>
      unfold upperLoop at h
      split at h
      case isTrue hnext =>
        obtain rfl := Except.ok.inj h
        exact ⟨hnext, by omega, fun b _ hlt => hlt⟩
      case isFalse hnext =>
        obtain ⟨hmem, hlt, hmin⟩ := ih h
        refine ⟨hmem, by omega, fun b hb hb_lt => hmin b hb ?_⟩
        have hne : b ≠ batch + 1 := fun heq => hnext (heq ▸ hb)
        omega

/-! ## The pair -/

/-- What `findBatchpair` returns are the knots around `batch`. -/
theorem findBatchpair_eq_ok : findBatchpair list batch = .ok (lo, hi) ↔
    (1 < batch ∧ batch < maxBatch) ∧ Interpolation.below list batch = some lo ∧
      Interpolation.above list batch = some hi := by
  have hbelow : (list.filter fun b => decide (b ≤ batch)).max? =
    Interpolation.below list batch := rfl
  have habove : (list.filter fun b => decide (batch < b)).min? =
    Interpolation.above list batch := rfl
  unfold findBatchpair
  rw [hbelow, habove, Query.bind_ok]
  constructor
  · rintro ⟨u, hassert, h⟩
    refine ⟨assert_ok.mp hassert, ?_⟩
    cases hlo : Interpolation.below list batch with
    | none => rw [hlo] at h; cases h
    | some lower =>
        cases hhi : Interpolation.above list batch with
        | none => rw [hlo, hhi] at h; cases h
        | some upper =>
            rw [hlo, hhi] at h
            obtain ⟨rfl, rfl⟩ := Prod.mk.injEq .. |>.mp (Query.pure_ok.mp h)
            exact ⟨rfl, rfl⟩
  · rintro ⟨hrange, hlo, hhi⟩
    refine ⟨(), assert_ok.mpr hrange, ?_⟩
    rw [hlo, hhi]
    rfl

/-- Turns enough for the distance of the two sizes. -/
theorem findBatchpairLoops_found (hrange : 1 < batch ∧ batch < maxBatch) (hlo : lo ∈ list)
    (hhi : hi ∈ list) (hle : lo ≤ batch) (hlt : batch < hi)
    (hmax : ∀ b ∈ list, b ≤ batch → b ≤ lo) (hmin : ∀ b ∈ list, batch < b → hi ≤ b)
    (hfuel : (hi - lo).toNat < fuel) : findBatchpairLoops list batch fuel = .ok (lo, hi) := by
  have hfirst : lowerLoop list fuel batch = .ok lo := lowerLoop_found hlo hle hmax (by omega)
  have hsecond : upperLoop list fuel batch = .ok hi := upperLoop_found hhi hlt hmin (by omega)
  simp only [findBatchpairLoops, Query.bind_ok]
  exact ⟨(), assert_ok.mpr hrange, lo, hfirst, hi, hsecond, rfl⟩

/-- The loops return a pair, given enough turns, if and only if the model of
`findBatchpair` that the latency table uses does. -/
theorem findBatchpairLoops_iff : (∃ fuel, findBatchpairLoops list batch fuel = .ok (lo, hi)) ↔
    findBatchpair list batch = .ok (lo, hi) := by
  rw [findBatchpair_eq_ok, Interpolation.below_eq_some_iff, Interpolation.above_eq_some_iff]
  constructor
  · rintro ⟨fuel, h⟩
    simp only [findBatchpairLoops, Query.bind_ok] at h
    obtain ⟨u, hassert, first, hfirst, second, hsecond, h⟩ := h
    obtain ⟨rfl, rfl⟩ := Prod.mk.injEq .. |>.mp (Query.pure_ok.mp h)
    exact ⟨assert_ok.mp hassert, lowerLoop_ok hfirst, upperLoop_ok hsecond⟩
  · rintro ⟨hrange, ⟨hlo, hle, hmax⟩, hhi, hlt, hmin⟩
    exact ⟨(hi - lo).toNat + 1,
      findBatchpairLoops_found hrange hlo hhi hle hlt hmax hmin (by omega)⟩

/-! ## Between the two latencies -/

/-- The interpolated latency is on the line through the two table entries. -/
theorem getBatchInterpolatedLatency_line {batchVec : Int → List Int} {t : LatencyTable}
    {part : Int} {l1 l2 : ℚ} (hrange : 1 < batch ∧ batch < maxBatch)
    (hpair : findBatchpair (batchVec part) batch = .ok (lo, hi)) (hlohi : lo < hi)
    (h1 : t.lookup (makeKey lo part) = some l1) (h2 : t.lookup (makeKey hi part) = some l2)
    (hpos : l1 ≠ 0 ∧ l2 ≠ 0) :
    getBatchInterpolatedLatency batchVec t batch part =
      .ok (Interpolation.line (lo : ℚ) hi l1 l2 batch, t) := by
  have hends : ¬ (batch = 1 ∨ batch = maxBatch) := by omega
  have hcast : (lo : ℚ) < hi := by exact_mod_cast hlohi
  have hread1 : t.subscript (makeKey lo part) = (l1, t) := by rw [subscript, h1]
  have hread2 : t.subscript (makeKey hi part) = (l2, t) := by rw [subscript, h2]
  have hassert : assert (l1 ≠ 0 ∧ l2 ≠ 0) = .ok () := assert_ok.mpr hpos
  have hslope : fdiv (l2 - l1) (hi - lo : ℚ) = .ok ((l2 - l1) / (hi - lo)) :=
    fdiv_ok.mpr ⟨(sub_pos.mpr hcast).ne', rfl⟩
  rw [getBatchInterpolatedLatency, if_neg hends, hpair, Query.ok_bind]
  dsimp only
  rw [hread1]
  dsimp only
  rw [hread2]
  dsimp only
  rw [hassert, Query.ok_bind, hslope, Query.ok_bind]
  rfl

/-- **Tight bracketing.** With a profiled size from 1 to `batch` and one after
it, the search ends on the nearest ones, and with positive table latencies the
interpolated latency lies between theirs; on a profiled batch it is the table's. -/
theorem findBatchpair_tight (list : List Int) (batch : Int) (hrange : 1 < batch ∧ batch < maxBatch)
    (hbelow : ∃ b ∈ list, 1 ≤ b ∧ b ≤ batch) (habove : ∃ b ∈ list, batch < b) :
    ∃ lo hi bound, (∀ fuel, bound ≤ fuel → findBatchpairLoops list batch fuel = .ok (lo, hi)) ∧
      findBatchpair list batch = .ok (lo, hi) ∧ lo ∈ list ∧ hi ∈ list ∧ lo ≤ batch ∧ batch < hi ∧
      (∀ b ∈ list, ¬ (lo < b ∧ b ≤ batch)) ∧ (∀ b ∈ list, ¬ (batch < b ∧ b < hi)) ∧
      ∀ (batchVec : Int → List Int) (t : LatencyTable) (part : Int), batchVec part = list →
        (∀ b ∈ list, ∃ v, t.lookup (makeKey b part) = some v ∧ 0 < v) →
        ∃ latency, getBatchInterpolatedLatency batchVec t batch part = .ok (latency, t) ∧
          min (t.value (makeKey lo part)) (t.value (makeKey hi part)) ≤ latency ∧
          latency ≤ max (t.value (makeKey lo part)) (t.value (makeKey hi part)) ∧
          (batch ∈ list → t.lookup (makeKey batch part) = some latency) := by
  obtain ⟨b₁, hb₁, -, hle₁⟩ := hbelow
  obtain ⟨b₂, hb₂, hlt₂⟩ := habove
  obtain ⟨lo, hlo⟩ := Interpolation.exists_below hb₁ hle₁
  obtain ⟨hi, hhi⟩ := Interpolation.exists_above hb₂ hlt₂
  have hpair := findBatchpair_eq_ok.mpr ⟨hrange, hlo, hhi⟩
  obtain ⟨hlo_mem, hlo_le, hmax⟩ := Interpolation.below_eq_some_iff.mp hlo
  obtain ⟨hhi_mem, hhi_lt, hmin⟩ := Interpolation.above_eq_some_iff.mp hhi
  have hlohi : lo < hi := by omega
  refine ⟨lo, hi, (hi - lo).toNat + 1, fun fuel hfuel => ?_, hpair, hlo_mem, hhi_mem, hlo_le,
    hhi_lt, fun b hb h => absurd (hmax b hb h.2) (by omega),
    fun b hb h => absurd (hmin b hb h.1) (by omega), ?_⟩
  · exact findBatchpairLoops_found hrange hlo_mem hhi_mem hlo_le hhi_lt hmax hmin (by omega)
  · rintro batchVec t part rfl hpos
    obtain ⟨l1, h1, hl1⟩ := hpos lo hlo_mem
    obtain ⟨l2, h2, hl2⟩ := hpos hi hhi_mem
    have hvalue1 : t.value (makeKey lo part) = l1 := by rw [value, h1, Option.getD_some]
    have hvalue2 : t.value (makeKey hi part) = l2 := by rw [value, h2, Option.getD_some]
    have hcast : (lo : ℚ) < hi := by exact_mod_cast hlohi
    have hlo_cast : (lo : ℚ) ≤ batch := by exact_mod_cast hlo_le
    have hhi_cast : (batch : ℚ) ≤ hi := by exact_mod_cast hhi_lt.le
    have hbetween : min l1 l2 ≤ Interpolation.line (lo : ℚ) hi l1 l2 batch ∧
        Interpolation.line (lo : ℚ) hi l1 l2 batch ≤ max l1 l2 :=
      Interpolation.line_between hcast hlo_cast hhi_cast
    refine ⟨_, getBatchInterpolatedLatency_line hrange hpair hlohi h1 h2 ⟨hl1.ne', hl2.ne'⟩,
      ?_, ?_, fun hprofiled => ?_⟩
    · rw [hvalue1, hvalue2]
      exact hbetween.1
    · rw [hvalue1, hvalue2]
      exact hbetween.2
    · obtain rfl : lo = batch := le_antisymm hlo_le (hmax batch hprofiled le_rfl)
      rw [Interpolation.line_left, h1]

/-- Batches 32, 1, 8 and 4 profiled in this order: 6 lies between 4 and 8. -/
theorem findBatchpair_tight_six :
    ∃ bound, (∀ fuel, bound ≤ fuel → findBatchpairLoops [32, 1, 8, 4] 6 fuel = .ok (4, 8)) ∧
      findBatchpair [32, 1, 8, 4] 6 = .ok (4, 8) := by
  obtain ⟨lo, hi, bound, hloops, hpair, -⟩ := findBatchpair_tight [32, 1, 8, 4] 6 (by decide)
    ⟨4, by decide⟩ ⟨8, by decide⟩
  have heval : findBatchpair [32, 1, 8, 4] 6 = .ok (4, 8) := by decide
  obtain ⟨rfl, rfl⟩ := Prod.mk.injEq .. |>.mp (Except.ok.inj (heval.symm.trans hpair))
  exact ⟨bound, hloops, hpair⟩

end Glet
