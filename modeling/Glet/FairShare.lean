import Mathlib.Algebra.Order.Ring.Int
import Mathlib.Tactic.Ring

/-!
# Dividing a capacity into rounded shares

A capacity is divided among demands in turn: a demand gets at most the average
of what is left, and the share is rounded up to pieces of given sizes, `whole`
ones first (`rounded`). Once nothing is left nothing more is given
(`spent_of_neg`), so the capacity is kept if and only if no turn takes more than
is left (`spent_le_iff`), and it is exceeded by less than one piece
(`spent_lt`).
-/

namespace FairShare

variable {whole left share demand k : Int} {sizes demands : List Int}

/-! ## One share -/

/-- The smallest size that covers a rest. -/
def leastCover (sizes : List Int) (rest : Int) : Int :=
  ((sizes.filter fun p => decide (rest ≤ p)).min?).getD 0

/-- A share rounded up: whole pieces, and one that covers the rest. -/
def rounded (whole : Int) (sizes : List Int) (share : Int) : Int :=
  if share ≤ 0 then 0
  else (share - 1) / whole * whole + leastCover sizes ((share - 1) % whole + 1)

/-- The sizes of the pieces: `whole` is the greatest. -/
structure Sizes (whole : Int) (sizes : List Int) : Prop where
  whole_mem : whole ∈ sizes
  pos : ∀ p ∈ sizes, 1 ≤ p
  le_whole : ∀ p ∈ sizes, p ≤ whole

theorem Sizes.whole_pos (h : Sizes whole sizes) : 1 ≤ whole := h.pos whole h.whole_mem

theorem leastCover_eq {p rest : Int} (hmem : p ∈ sizes) (hle : rest ≤ p)
    (hmin : ∀ q ∈ sizes, rest ≤ q → p ≤ q) : leastCover sizes rest = p := by
  have hp : (sizes.filter fun q => decide (rest ≤ q)).min? = some p := by
    refine List.min?_eq_some_iff.mpr ⟨List.mem_filter.mpr ⟨hmem, decide_eq_true hle⟩, ?_⟩
    intro q hq
    obtain ⟨hq, hrest⟩ := List.mem_filter.mp hq
    exact hmin q hq (of_decide_eq_true hrest)
  rw [leastCover, hp, Option.getD_some]

/-- There is a size that covers a rest of at most `whole`. -/
theorem Sizes.leastCover_mem {rest : Int} (h : Sizes whole sizes) (hle : rest ≤ whole) :
    leastCover sizes rest ∈ sizes ∧ rest ≤ leastCover sizes rest := by
  have hsome : ((sizes.filter fun p => decide (rest ≤ p)).min?).isSome :=
    List.isSome_min?_of_mem (List.mem_filter.mpr ⟨h.whole_mem, decide_eq_true hle⟩)
  obtain ⟨p, hp⟩ := Option.isSome_iff_exists.mp hsome
  obtain ⟨hmem, hrest⟩ := List.mem_filter.mp (List.min?_mem hp)
  rw [leastCover, hp, Option.getD_some]
  exact ⟨hmem, of_decide_eq_true hrest⟩

theorem rounded_of_nonpos (h : share ≤ 0) : rounded whole sizes share = 0 := if_pos h

/-- Up to `whole` one piece is enough. -/
theorem rounded_of_le (hpos : 0 < share) (hle : share ≤ whole) :
    rounded whole sizes share = leastCover sizes share := by
  have hdiv : (share - 1) / whole = 0 := Int.ediv_eq_zero_of_lt (by omega) (by omega)
  have hmod : (share - 1) % whole = share - 1 := Int.emod_eq_of_lt (by omega) (by omega)
  rw [rounded, if_neg (by omega), hdiv, hmod, Int.zero_mul, Int.zero_add, Int.sub_add_cancel]

/-- Above `whole` the first piece is a whole one. -/
theorem rounded_of_gt (hwhole : 0 < whole) (hgt : whole < share) :
    rounded whole sizes share = whole + rounded whole sizes (share - whole) := by
  have hdiv : (share - 1) / whole = (share - whole - 1) / whole + 1 := by
    have hshift : share - 1 = share - whole - 1 + whole * 1 := by omega
    rw [hshift, Int.add_mul_ediv_left _ _ (by omega)]
  have hmod : (share - 1) % whole = (share - whole - 1) % whole := by
    have hshift : share - 1 = share - whole - 1 + whole := by omega
    rw [hshift, Int.add_emod_right]
  rw [rounded, rounded, if_neg (by omega), if_neg (by omega), hdiv, hmod]
  ring

/-- Rounding up adds less than a whole piece. -/
theorem Sizes.rounded_bounds (h : Sizes whole sizes) (hpos : 0 < share) :
    share ≤ rounded whole sizes share ∧ rounded whole sizes share < share + whole := by
  have hwhole := h.whole_pos
  have hmod := Int.emod_nonneg (share - 1) (b := whole) (by omega)
  have hmod' := Int.emod_lt_of_pos (share - 1) (b := whole) (by omega)
  have hsplit := Int.ediv_mul_add_emod (share - 1) whole
  have hrest : (share - 1) % whole + 1 ≤ whole := by omega
  obtain ⟨hmem, hle⟩ := h.leastCover_mem hrest
  have hcover := h.le_whole _ hmem
  rw [rounded, if_neg (by omega)]
  omega

theorem Sizes.rounded_nonneg (h : Sizes whole sizes) : 0 ≤ rounded whole sizes share := by
  rcases lt_or_ge (0 : Int) share with hpos | hneg
  · have := (h.rounded_bounds hpos).1
    omega
  · rw [rounded_of_nonpos hneg]

/-! ## All demands -/

/-- What a demand gets of `left`, with `k` demands to go; the average is that of
a division which truncates. -/
def given (whole : Int) (sizes : List Int) (left demand k : Int) : Int :=
  rounded whole sizes (min demand (left.tdiv k))

/-- What is given in all. -/
def spent (whole : Int) (sizes : List Int) : Int → List Int → Int
  | _, [] => 0
  | left, demand :: demands =>
      let part := given whole sizes left demand (demands.length + 1 : Nat)
      part + spent whole sizes (left - part) demands

/-- No turn takes more than is left. -/
def Fits (whole : Int) (sizes : List Int) : Int → List Int → Prop
  | _, [] => True
  | left, demand :: demands =>
      given whole sizes left demand (demands.length + 1 : Nat) ≤ left ∧
        Fits whole sizes (left - given whole sizes left demand (demands.length + 1 : Nat)) demands

instance decidableFits (whole : Int) (sizes : List Int) :
    ∀ left demands, Decidable (Fits whole sizes left demands)
  | _, [] => isTrue trivial
  | left, demand :: demands =>
      have := decidableFits whole sizes
        (left - given whole sizes left demand (demands.length + 1 : Nat)) demands
      inferInstanceAs (Decidable (_ ∧ _))

theorem tdiv_le (h : 0 ≤ left) : left.tdiv k ≤ left := by
  rw [Int.tdiv_eq_ediv_of_nonneg h]
  exact Int.ediv_le_self k h

theorem tdiv_nonpos (hk : 0 < k) (h : left ≤ 0) : left.tdiv k ≤ 0 := by
  have hneg : 0 ≤ (-left).tdiv k := Int.tdiv_nonneg (by omega) (by omega)
  rw [Int.neg_tdiv] at hneg
  omega

theorem given_of_nonpos (hk : 0 < k) (h : left ≤ 0) : given whole sizes left demand k = 0 := by
  refine rounded_of_nonpos ?_
  have := tdiv_nonpos hk h
  omega

theorem Sizes.given_nonneg (h : Sizes whole sizes) : 0 ≤ given whole sizes left demand k :=
  h.rounded_nonneg

theorem Sizes.given_lt (h : Sizes whole sizes) (hleft : 0 ≤ left) :
    given whole sizes left demand k < left + whole := by
  have hwhole := h.whole_pos
  have hle := tdiv_le (k := k) hleft
  unfold given
  rcases lt_or_ge (0 : Int) (min demand (left.tdiv k)) with hpos | hneg
  · have := (h.rounded_bounds hpos).2
    omega
  · rw [rounded_of_nonpos hneg]
    omega

/-- Once more is given than there was, nothing more is given. -/
theorem spent_of_neg (h : left ≤ 0) : spent whole sizes left demands = 0 := by
  induction demands with
  | nil => rfl
  | cons demand demands ih =>
      have hgiven : given whole sizes left demand (demands.length + 1 : Nat) = 0 :=
        given_of_nonpos (by omega) h
      rw [spent]
      rw [hgiven, Int.sub_zero, ih, Int.zero_add]

/-- **Shares.** The capacity is kept if and only if no turn takes more than is
left. -/
theorem spent_le_iff (h : 0 ≤ left) :
    spent whole sizes left demands ≤ left ↔ Fits whole sizes left demands := by
  induction demands generalizing left with
  | nil => exact iff_of_true h trivial
  | cons demand demands ih =>
      rw [spent, Fits]
      generalize given whole sizes left demand (demands.length + 1 : Nat) = part
      by_cases hfits : part ≤ left
      · rw [← @ih (left - part) (by omega)]
        constructor
        · intro hsum
          exact ⟨hfits, by omega⟩
        · rintro ⟨-, hsum⟩
          omega
      · have hrest : spent whole sizes (left - part) demands = 0 := spent_of_neg (by omega)
        rw [hrest]
        constructor
        · intro hsum
          omega
        · rintro ⟨hle, -⟩
          exact absurd hle hfits

theorem Sizes.spent_lt (hs : Sizes whole sizes) (h : 0 ≤ left) :
    spent whole sizes left demands < left + whole := by
  induction demands generalizing left with
  | nil =>
      have := hs.whole_pos
      rw [spent]
      omega
  | cons demand demands ih =>
      have hgiven : given whole sizes left demand (demands.length + 1 : Nat) < left + whole :=
        hs.given_lt h
      rw [spent]
      generalize given whole sizes left demand (demands.length + 1 : Nat) = part at hgiven ⊢
      by_cases hfits : part ≤ left
      · have := @ih (left - part) (by omega)
        omega
      · have hrest : spent whole sizes (left - part) demands = 0 := spent_of_neg (by omega)
        omega

end FairShare
