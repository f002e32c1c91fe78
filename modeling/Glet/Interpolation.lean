import Mathlib.Algebra.Order.Field.Basic
import Mathlib.Algebra.Order.Ring.Cast
import Mathlib.Data.Int.Cast.Field
import Mathlib.Tactic.Linarith
import Mathlib.Tactic.Positivity
import Mathlib.Tactic.Ring

/-!
# Piecewise linear interpolation

A function that is known at some integers, the knots, is continued between
them by straight lines (`linear`). If it does not fall from knot to knot, it
does not fall anywhere (`linear_mono`). Two such functions are mixed by
`blend`, and a function that takes some of its values from a table and the rest
from another function does not fall iff it does not where it changes over
(`monotone_patch_iff`).
-/

namespace Interpolation

variable {K : Type} [Field K]

/-! ## Lines -/

/-- The line through `(x₁, y₁)` and `(x₂, y₂)`. -/
def line (x₁ x₂ y₁ y₂ x : K) : K := (y₂ - y₁) / (x₂ - x₁) * (x - x₁) + y₁

variable {x₁ x₂ y₁ y₂ x y : K}

@[simp] theorem line_left : line x₁ x₂ y₁ y₂ x₁ = y₁ := by simp [line]

theorem line_neg : line x₁ x₂ (-y₁) (-y₂) x = -line x₁ x₂ y₁ y₂ x := by
  unfold line
  ring

/-! ## Knots -/

/-- The last knot up to `x`. -/
def below (knots : List ℤ) (x : ℤ) : Option ℤ := (knots.filter fun k => k ≤ x).max?

/-- The first knot after `x`. -/
def above (knots : List ℤ) (x : ℤ) : Option ℤ := (knots.filter fun k => x < k).min?

/-- The known values joined by lines; beyond the knots the values themselves. -/
def linear (knots : List ℤ) (f : ℤ → K) (x : ℤ) : K :=
  match below knots x, above knots x with
  | some lo, some hi => line (lo : K) hi (f lo) (f hi) x
  | _, _ => f x

variable {knots : List ℤ} {f : ℤ → K} {b c lo hi : ℤ}

theorem below_eq_some_iff : below knots b = some lo ↔
    lo ∈ knots ∧ lo ≤ b ∧ ∀ k ∈ knots, k ≤ b → k ≤ lo := by
  simp only [below, List.max?_eq_some_iff, List.mem_filter, decide_eq_true_eq, and_imp, and_assoc]

theorem above_eq_some_iff : above knots b = some hi ↔
    hi ∈ knots ∧ b < hi ∧ ∀ k ∈ knots, b < k → hi ≤ k := by
  simp only [above, List.min?_eq_some_iff, List.mem_filter, decide_eq_true_eq, and_imp, and_assoc]

theorem below_of_mem (h : b ∈ knots) : below knots b = some b :=
  below_eq_some_iff.mpr ⟨h, le_rfl, fun _ _ hle => hle⟩

theorem exists_below (h : lo ∈ knots) (hle : lo ≤ b) : ∃ k, below knots b = some k := by
  refine Option.isSome_iff_exists.mp (List.isSome_max?_of_mem (a := lo) ?_)
  exact List.mem_filter.mpr ⟨h, decide_eq_true hle⟩

theorem exists_above (h : hi ∈ knots) (hlt : b < hi) : ∃ k, above knots b = some k := by
  refine Option.isSome_iff_exists.mp (List.isSome_min?_of_mem (a := hi) ?_)
  exact List.mem_filter.mpr ⟨h, decide_eq_true hlt⟩

theorem linear_of_some (hb : below knots b = some lo) (ha : above knots b = some hi) :
    linear knots f b = line (lo : K) hi (f lo) (f hi) b := by
  rw [linear, hb, ha]

theorem linear_of_mem (h : b ∈ knots) : linear knots f b = f b := by
  rw [linear, below_of_mem h]
  split
  case h_1 lo hi hb ha =>
    obtain rfl := Option.some.inj hb
    exact line_left
  case h_2 => rfl

/-! ## Order -/

variable [LinearOrder K] [IsStrictOrderedRing K]

theorem line_right (h : x₁ < x₂) : line x₁ x₂ y₁ y₂ x₂ = y₂ := by
  have hne : x₂ - x₁ ≠ 0 := (sub_pos.mpr h).ne'
  rw [line, div_mul_cancel₀ _ hne, sub_add_cancel]

theorem line_mono (hx : x₁ < x₂) (hy : y₁ ≤ y₂) (h : x ≤ y) :
    line x₁ x₂ y₁ y₂ x ≤ line x₁ x₂ y₁ y₂ y := by
  have hslope : 0 ≤ (y₂ - y₁) / (x₂ - x₁) :=
    div_nonneg (sub_nonneg.mpr hy) (sub_pos.mpr hx).le
  unfold line
  gcongr

/-- Between its two points a line does not leave their values. -/
theorem line_between (hx : x₁ < x₂) (h₁ : x₁ ≤ x) (h₂ : x ≤ x₂) :
    min y₁ y₂ ≤ line x₁ x₂ y₁ y₂ x ∧ line x₁ x₂ y₁ y₂ x ≤ max y₁ y₂ := by
  have hrising : ∀ {z₁ z₂ : K}, z₁ ≤ z₂ →
      z₁ ≤ line x₁ x₂ z₁ z₂ x ∧ line x₁ x₂ z₁ z₂ x ≤ z₂ := by
    intro z₁ z₂ hz
    refine ⟨?_, ?_⟩
    · calc z₁ = line x₁ x₂ z₁ z₂ x₁ := line_left.symm
        _ ≤ line x₁ x₂ z₁ z₂ x := line_mono hx hz h₁
    · calc line x₁ x₂ z₁ z₂ x ≤ line x₁ x₂ z₁ z₂ x₂ := line_mono hx hz h₂
        _ = z₂ := line_right hx
  rcases le_total y₁ y₂ with hy | hy
  · rw [min_eq_left hy, max_eq_right hy]
    exact hrising hy
  · obtain ⟨hlow, hhigh⟩ := hrising (neg_le_neg hy)
    rw [line_neg] at hlow hhigh
    rw [min_eq_right hy, max_eq_left hy]
    exact ⟨neg_le_neg_iff.mp hhigh, neg_le_neg_iff.mp hlow⟩

/-- What is known does not fall. -/
def MonotoneOn (knots : List ℤ) (f : ℤ → K) : Prop :=
  ∀ b ∈ knots, ∀ c ∈ knots, b ≤ c → f b ≤ f c

/-- Up to the next knot. -/
theorem linear_le_above (hf : MonotoneOn knots f) (hb : below knots b = some lo)
    (ha : above knots b = some hi) : linear knots f b ≤ f hi := by
  obtain ⟨hlo, hle, -⟩ := below_eq_some_iff.mp hb
  obtain ⟨hhi, hlt, -⟩ := above_eq_some_iff.mp ha
  have hlohi : (lo : K) < hi := by exact_mod_cast lt_of_le_of_lt hle hlt
  have hbhi : (b : K) ≤ hi := by exact_mod_cast hlt.le
  calc linear knots f b = line (lo : K) hi (f lo) (f hi) b := linear_of_some hb ha
    _ ≤ line (lo : K) hi (f lo) (f hi) hi :=
        line_mono hlohi (hf lo hlo hi hhi (hle.trans hlt.le)) hbhi
    _ = f hi := line_right hlohi

/-- From the last knot on. -/
theorem le_linear_below (hf : MonotoneOn knots f) (hb : below knots b = some lo)
    (ha : above knots b = some hi) : f lo ≤ linear knots f b := by
  obtain ⟨hlo, hle, -⟩ := below_eq_some_iff.mp hb
  obtain ⟨hhi, hlt, -⟩ := above_eq_some_iff.mp ha
  have hlohi : (lo : K) < hi := by exact_mod_cast lt_of_le_of_lt hle hlt
  have hlob : (lo : K) ≤ b := by exact_mod_cast hle
  calc f lo = line (lo : K) hi (f lo) (f hi) lo := line_left.symm
    _ ≤ line (lo : K) hi (f lo) (f hi) b :=
        line_mono hlohi (hf lo hlo hi hhi (hle.trans hlt.le)) hlob
    _ = linear knots f b := (linear_of_some hb ha).symm

/-- **Interpolation keeps the order** between the outermost knots. -/
theorem linear_mono {first last : ℤ} (hf : MonotoneOn knots f) (hfirst : first ∈ knots)
    (hlast : last ∈ knots) (hb : first ≤ b) (hbc : b ≤ c) (hc : c ≤ last) :
    linear knots f b ≤ linear knots f c := by
  rcases eq_or_lt_of_le (hbc.trans hc) with rfl | hblast
  · obtain rfl : b = c := le_antisymm hbc hc
    exact le_rfl
  obtain ⟨lo, hlo⟩ := exists_below hfirst hb
  obtain ⟨hi, hhi⟩ := exists_above hlast hblast
  obtain ⟨hlo_mem, hlo_le, hlo_max⟩ := below_eq_some_iff.mp hlo
  obtain ⟨hhi_mem, hhi_lt, hhi_min⟩ := above_eq_some_iff.mp hhi
  rcases eq_or_lt_of_le hc with rfl | hclast
  · rw [linear_of_mem hlast]
    exact (linear_le_above hf hlo hhi).trans
      (hf hi hhi_mem c hlast (hhi_min c hlast hblast))
  · obtain ⟨lo', hlo'⟩ := exists_below hfirst (hb.trans hbc)
    obtain ⟨hi', hhi'⟩ := exists_above hlast hclast
    rcases le_or_gt hi c with hnext | hsame
    · -- There is a knot between them.
      obtain ⟨hlo'_mem, -, hlo'_max⟩ := below_eq_some_iff.mp hlo'
      calc linear knots f b ≤ f hi := linear_le_above hf hlo hhi
        _ ≤ f lo' := hf hi hhi_mem lo' hlo'_mem (hlo'_max hi hhi_mem hnext)
        _ ≤ linear knots f c := le_linear_below hf hlo' hhi'
    · have hlo_c : below knots c = some lo := by
        refine below_eq_some_iff.mpr ⟨hlo_mem, hlo_le.trans hbc, fun k hk hkc => ?_⟩
        refine hlo_max k hk (not_lt.mp fun hbk => ?_)
        exact absurd (hhi_min k hk hbk) (by omega)
      have hhi_c : above knots c = some hi :=
        above_eq_some_iff.mpr ⟨hhi_mem, hsame, fun k hk hck => hhi_min k hk (by omega)⟩
      have hlohi : (lo : K) < hi := by exact_mod_cast lt_of_le_of_lt hlo_le hhi_lt
      rw [linear_of_some hlo hhi, linear_of_some hlo_c hhi_c]
      exact line_mono hlohi (hf lo hlo_mem hi hhi_mem (by omega)) (by exact_mod_cast hbc)

/-! ## Mixtures -/

/-- `y₁` and `y₂` in the ratio `c`. -/
def blend (y₁ y₂ c : K) : K := (y₁ - y₂) * c + y₂

theorem blend_mono {c z₁ z₂ : K} (hlo : 0 ≤ c) (hhi : c ≤ 1) (h₁ : y₁ ≤ z₁) (h₂ : y₂ ≤ z₂) :
    blend y₁ y₂ c ≤ blend z₁ z₂ c := by
  have hmix : ∀ a b : K, blend a b c = c * a + (1 - c) * b := fun a b => by
    unfold blend
    ring
  rw [hmix, hmix]
  have hrest : 0 ≤ 1 - c := sub_nonneg.mpr hhi
  gcongr

/-- The ratio in which two values mix to one between them. -/
theorem ratio_mem {y : K} (h₁ : y ≤ y₁) (h₂ : y₂ ≤ y) :
    0 ≤ (y - y₂) / (y₁ - y₂) ∧ (y - y₂) / (y₁ - y₂) ≤ 1 :=
  ⟨div_nonneg (by linarith) (by linarith), div_le_one_of_le₀ (by linarith) (by linarith)⟩

/-! ## Values from two sources -/

variable {α : Type} [Preorder α]

/-- Not falling is a matter of neighbours. -/
theorem monotone_iff_succ {g : ℤ → α} :
    (∀ b c, lo ≤ b → b ≤ c → c ≤ hi → g b ≤ g c) ↔ ∀ b, lo ≤ b → b < hi → g b ≤ g (b + 1) := by
  refine ⟨fun h b hlo hhi => h b (b + 1) hlo (by omega) (by omega), fun h b c hlo hbc hc => ?_⟩
  induction c, hbc using Int.leInduction with
  | base => exact le_rfl
  | succ c hbc ih => exact (ih (by omega)).trans (h c (by omega) (by omega))

/-- **The seams decide**: values from a table and values from elsewhere, neither
of which falls. -/
theorem monotone_patch_iff (inTable : ℤ → Prop) [DecidablePred inTable] {table rest : ℤ → α}
    (htable : ∀ b c, lo ≤ b → b ≤ c → c ≤ hi → inTable b → inTable c → table b ≤ table c)
    (hrest : ∀ b c, lo ≤ b → b ≤ c → c ≤ hi → rest b ≤ rest c) :
    (∀ b c, lo ≤ b → b ≤ c → c ≤ hi →
        (if inTable b then table b else rest b) ≤ if inTable c then table c else rest c) ↔
      ∀ b, lo ≤ b → b < hi → (inTable b → ¬ inTable (b + 1) → table b ≤ rest (b + 1)) ∧
        (¬ inTable b → inTable (b + 1) → rest b ≤ table (b + 1)) := by
  rw [monotone_iff_succ (g := fun b => if inTable b then table b else rest b)]
  refine forall_congr' fun b => forall_congr' fun hlo => forall_congr' fun hhi => ?_
  by_cases hb : inTable b
  · by_cases hc : inTable (b + 1)
    · simpa [hb, hc] using htable b (b + 1) hlo (by omega) (by omega) hb hc
    · simp [hb, hc]
  · by_cases hc : inTable (b + 1)
    · simp [hb, hc]
    · simpa [hb, hc] using hrest b (b + 1) hlo (by omega) (by omega)

end Interpolation
