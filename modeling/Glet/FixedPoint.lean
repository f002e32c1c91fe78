import Mathlib.Data.List.TakeWhile
import Mathlib.Data.Rat.Floor
import Mathlib.Tactic.Linarith
import Mathlib.Tactic.Positivity

/-!
# Decimal notation with six digits after the point

A rational is written with its sixth digit rounded to nearest, ties to even
(`fixed`), and a decimal is read as the digits before and after the point
(`decimal`). Reading what was written gives the rounded number
(`decimal_fixed`).
-/

namespace FixedPoint

/-! ## Rounding -/

/-- The nearest integer; of two the even one. -/
def roundHalfEven (x : ℚ) : Int :=
  let down := ⌊x⌋
  let rest := x - down
  if rest < 1 / 2 then down
  else if 1 / 2 < rest then down + 1
  else if down % 2 = 0 then down else down + 1

/-- Rounded to six decimals. -/
def sixDecimals (x : ℚ) : ℚ := roundHalfEven (x * 1000000) / 1000000

theorem roundHalfEven_nonneg {x : ℚ} (h : 0 ≤ x) : 0 ≤ roundHalfEven x := by
  have hfloor : 0 ≤ ⌊x⌋ := Int.floor_nonneg.mpr h
  rw [roundHalfEven]
  split_ifs <;> omega

/-! ## Digits -/

/-- The digits of `n` in front of and after the point, six of them after it. -/
def digits (n : Nat) : List Char :=
  Nat.toDigits 10 (n / 1000000) ++ '.' :: (Nat.toDigits 10 (n % 1000000)).leftpad 6 '0'

/-- `%f`: a sign if there is need for one, and the digits. -/
def fixed (x : ℚ) : List Char :=
  (if x < 0 then ['-'] else []) ++ digits (roundHalfEven (|x| * 1000000)).toNat

/-- An exponent, when there is one. -/
def exponent : List Char → Int
  | e :: cs =>
      let digits := (if cs.head? = some '-' ∨ cs.head? = some '+' then cs.tail else cs).takeWhile
        Char.isDigit
      if e ≠ 'e' ∧ e ≠ 'E' then 0
      else if cs.head? = some '-' then -(Nat.ofDigitChars 10 digits 0 : Int)
      else Nat.ofDigitChars 10 digits 0
  | [] => 0

/-- Digits with or without a point, and an exponent; `none` without a digit. -/
def unsigned (cs : List Char) : Option ℚ :=
  let whole := cs.takeWhile Char.isDigit
  let rest := cs.dropWhile Char.isDigit
  let fraction := if rest.head? = some '.' then rest.tail.takeWhile Char.isDigit else []
  let rest := if rest.head? = some '.' then rest.tail.dropWhile Char.isDigit else rest
  if whole ++ fraction = [] then none
  else some (Nat.ofDigitChars 10 (whole ++ fraction) 0 / 10 ^ fraction.length * 10 ^ exponent rest)

/-- The number at the front of a text, in decimal notation. -/
def decimal (cs : List Char) : Option ℚ :=
  if cs.head? = some '-' then (unsigned cs.tail).map Neg.neg
  else if cs.head? = some '+' then unsigned cs.tail
  else unsigned cs

theorem isDigit_toDigits {n : Nat} {c : Char} (h : c ∈ Nat.toDigits 10 n) : c.isDigit = true :=
  Nat.isDigit_of_mem_toDigits (by decide) (by decide) h

theorem isDigit_leftpad {n : Nat} {c : Char} (h : c ∈ (Nat.toDigits 10 n).leftpad 6 '0') :
    c.isDigit = true := by
  rw [List.leftpad, List.mem_append, List.mem_replicate] at h
  rcases h with ⟨-, rfl⟩ | h
  · rfl
  · exact isDigit_toDigits h

theorem length_leftpad_toDigits {n : Nat} (h : n < 1000000) :
    ((Nat.toDigits 10 n).leftpad 6 '0').length = 6 := by
  have hlen : (Nat.toDigits 10 n).length ≤ 6 :=
    (Nat.length_toDigits_le_iff (by decide) (by decide)).mpr h
  rw [List.length_leftpad]
  omega

theorem ofDigitChars_leftpad (n init : Nat) (h : n < 1000000) :
    Nat.ofDigitChars 10 ((Nat.toDigits 10 n).leftpad 6 '0') init = init * 1000000 + n := by
  have hlen := length_leftpad_toDigits h
  rw [Nat.ofDigitChars_eq_ofDigitChars_zero, hlen, List.leftpad, Nat.ofDigitChars_append,
    Nat.ofDigitChars_replicate_zero, Nat.mul_zero, Nat.ofDigitChars_ten_toDigits]
  ring

/-- The digits of a number, read as one number with six decimals. -/
theorem unsigned_digits (n : Nat) : unsigned (digits n) = some ((n : ℚ) / 1000000) := by
  have hlt : n % 1000000 < 1000000 := Nat.mod_lt _ (by decide)
  have hwhole : ∀ c ∈ Nat.toDigits 10 (n / 1000000), c.isDigit = true := fun _ => isDigit_toDigits
  have hfraction : ∀ c ∈ (Nat.toDigits 10 (n % 1000000)).leftpad 6 '0', c.isDigit = true :=
    fun _ => isDigit_leftpad
  have htake : (digits n).takeWhile Char.isDigit = Nat.toDigits 10 (n / 1000000) := by
    rw [digits, List.takeWhile_append_of_pos hwhole, List.takeWhile_cons_of_neg (by decide),
      List.append_nil]
  have hdrop : (digits n).dropWhile Char.isDigit =
      '.' :: (Nat.toDigits 10 (n % 1000000)).leftpad 6 '0' := by
    rw [digits, List.dropWhile_append_of_pos hwhole, List.dropWhile_cons_of_neg (by decide)]
  have hvalue : Nat.ofDigitChars 10 (Nat.toDigits 10 (n / 1000000) ++
      (Nat.toDigits 10 (n % 1000000)).leftpad 6 '0') 0 = n := by
    rw [Nat.ofDigitChars_append, Nat.ofDigitChars_ten_toDigits, ofDigitChars_leftpad _ _ hlt]
    omega
  have hne : Nat.toDigits 10 (n / 1000000) ++ (Nat.toDigits 10 (n % 1000000)).leftpad 6 '0' ≠ [] :=
    List.append_ne_nil_of_left_ne_nil Nat.toDigits_ne_nil _
  have hend : ((Nat.toDigits 10 (n % 1000000)).leftpad 6 '0').dropWhile Char.isDigit = [] :=
    List.dropWhile_eq_nil_iff.mpr hfraction
  simp only [unsigned, htake, hdrop, List.head?_cons, if_true, List.tail_cons,
    List.takeWhile_eq_self_iff.mpr hfraction, hend, if_neg hne, hvalue,
    length_leftpad_toDigits hlt, exponent]
  norm_num

/-- A digit comes first. -/
theorem head_digits (n : Nat) {c : Char} (hc : c.isDigit = false) : (digits n).head? ≠ some c := by
  intro hhead
  have hmem : c ∈ Nat.toDigits 10 (n / 1000000) := by
    rw [digits, List.head?_append_of_ne_nil _ Nat.toDigits_ne_nil] at hhead
    exact List.mem_of_mem_head? hhead
  rw [isDigit_toDigits hmem] at hc
  cases hc

/-- **Round trip.** What was written is read back rounded. -/
theorem decimal_fixed {x : ℚ} (h : 0 ≤ x) : decimal (fixed x) = some (sixDecimals x) := by
  have hround : 0 ≤ roundHalfEven (x * 1000000) := roundHalfEven_nonneg (by positivity)
  have hcast : ((roundHalfEven (x * 1000000)).toNat : ℚ) = roundHalfEven (x * 1000000) := by
    exact_mod_cast Int.toNat_of_nonneg hround
  rw [fixed, if_neg (not_lt.mpr h), List.nil_append, abs_of_nonneg h, decimal,
    if_neg (head_digits _ rfl), if_neg (head_digits _ rfl), unsigned_digits, hcast]
  rfl

/-- Nothing but digits, points and minus signs is written. -/
theorem fixed_chars {x : ℚ} {c : Char} (h : c ∈ fixed x) : c = '-' ∨ c = '.' ∨ c.isDigit = true := by
  rw [fixed, List.mem_append, digits, List.mem_append, List.mem_cons] at h
  rcases h with h | h | h | h
  · split at h
    · exact Or.inl (List.mem_singleton.mp h)
    · cases h
  · exact Or.inr (Or.inr (isDigit_toDigits h))
  · exact Or.inr (Or.inl h)
  · exact Or.inr (Or.inr (isDigit_leftpad h))

end FixedPoint
