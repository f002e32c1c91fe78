import Mathlib.Data.List.TakeWhile

/-!
# GPU ranges

A backend is told its GPUs as a range of host indices, `a-b`. The string is cut
at every `-`, so an index is never negative, and `stoi` reads a segment.
-/

namespace Glet.Devices

/-- `getline` with `-`: what follows the last one is a segment unless it is
empty. -/
def segments : List Char → List Char → List (List Char)
  | segment, [] => if segment = [] then [] else [segment]
  | segment, c :: cs => if c = '-' then segment :: segments [] cs else segments (segment ++ [c]) cs

def isspace (c : Char) : Bool :=
  c = ' ' || c = '\t' || c = '\n' || c = '\r' || c = '\x0b' || c = '\x0c'

/-- `none` where `stoi` throws. -/
def stoi (s : List Char) : Option Int :=
  let s := s.dropWhile isspace
  let digits := (if s.head? = some '-' ∨ s.head? = some '+' then s.tail else s).takeWhile Char.isDigit
  let value : Int := Nat.ofDigitChars 10 digits 0
  let value := if s.head? = some '-' then -value else value
  if digits ≠ [] ∧ -2147483648 ≤ value ∧ value ≤ 2147483647 then some value else none

def readIdxs (idxsString : String) : Option (List Int) :=
  (segments [] idxsString.toList).mapM stoi

/-! ## Reading a range back -/

theorem segments_of_notMem {cs : List Char} (h : '-' ∉ cs) (segment rest : List Char) :
    segments segment (cs ++ '-' :: rest) = (segment ++ cs) :: segments [] rest := by
  induction cs generalizing segment with
  | nil => simp [segments]
  | cons c cs ih =>
      obtain ⟨hc, hcs⟩ := not_or.mp (mt List.mem_cons.mpr h)
      rw [List.cons_append, segments, if_neg (Ne.symm hc), ih hcs, List.append_assoc]
      rfl

theorem segments_last {cs : List Char} (h : '-' ∉ cs) {segment : List Char}
    (hne : segment ++ cs ≠ []) : segments segment cs = [segment ++ cs] := by
  induction cs generalizing segment with
  | nil =>
      rw [List.append_nil] at hne ⊢
      rw [segments, if_neg hne]
  | cons c cs ih =>
      obtain ⟨hc, hcs⟩ := not_or.mp (mt List.mem_cons.mpr h)
      have hassoc : segment ++ [c] ++ cs = segment ++ c :: cs := by simp
      rw [segments, if_neg (Ne.symm hc), ih hcs (hassoc ▸ hne), hassoc]

theorem notMem_toDigits {c : Char} (hc : c.isDigit = false) (n : Nat) : c ∉ Nat.toDigits 10 n := by
  intro hmem
  have hdigit := Nat.isDigit_of_mem_toDigits (by decide) (by decide) hmem
  rw [hc] at hdigit
  cases hdigit

theorem not_isspace_of_isDigit {c : Char} (h : c.isDigit) : isspace c = false := by
  by_contra hspace
  rw [Bool.not_eq_false] at hspace
  simp only [isspace, Bool.or_eq_true, decide_eq_true_eq] at hspace
  rcases hspace with ((((rfl | rfl) | rfl) | rfl) | rfl) | rfl <;> cases h

theorem stoi_toDigits {n : Nat} (h : n ≤ 2147483647) : stoi (Nat.toDigits 10 n) = some (n : Int) := by
  have hdigits : ∀ c ∈ Nat.toDigits 10 n, c.isDigit :=
    fun c hc => Nat.isDigit_of_mem_toDigits (by decide) (by decide) hc
  have hvalue : Nat.ofDigitChars 10 (Nat.toDigits 10 n) 0 = n := Nat.ofDigitChars_ten_toDigits
  have hminus := notMem_toDigits (c := '-') rfl n
  have hplus := notMem_toDigits (c := '+') rfl n
  cases hds : Nat.toDigits 10 n with
  | nil => exact absurd hds Nat.toDigits_ne_nil
  | cons c cs =>
      rw [hds] at hdigits hvalue hminus hplus
      have hspace := not_isspace_of_isDigit (hdigits c List.mem_cons_self)
      have htake : (c :: cs).takeWhile Char.isDigit = c :: cs := List.takeWhile_eq_self_iff.mpr hdigits
      have hdrop : (c :: cs).dropWhile isspace = c :: cs :=
        List.dropWhile_cons_of_neg (by simp [hspace])
      have hne : ∀ {d : Char}, d ∉ c :: cs → (c :: cs).head? ≠ some d := fun hd heq =>
        hd (Option.some.inj heq ▸ List.mem_cons_self)
      unfold stoi
      simp only [hdrop, if_neg (hne hminus), if_neg (not_or.mpr ⟨hne hminus, hne hplus⟩), htake,
        hvalue]
      exact if_pos ⟨List.cons_ne_nil c cs, by omega, by omega⟩

/-- The numbers of a range are read back. -/
theorem readIdxs_range {a b : Nat} (ha : a ≤ 2147483647) (hb : b ≤ 2147483647) :
    readIdxs (toString a ++ "-" ++ toString b) = some [(a : Int), (b : Int)] := by
  have hchars : (toString a ++ "-" ++ toString b).toList =
      Nat.toDigits 10 a ++ '-' :: Nat.toDigits 10 b := by
    simp
  rw [readIdxs, hchars, segments_of_notMem (notMem_toDigits rfl a),
    segments_last (notMem_toDigits rfl b) (by simp [Nat.toDigits_ne_nil])]
  simp [stoi_toDigits ha, stoi_toDigits hb]

end Glet.Devices
