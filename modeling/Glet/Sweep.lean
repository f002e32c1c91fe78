import Mathlib.Data.List.Basic

/-!
# Erasing while iterating

A loop walks over a list with an iterator and erases, in place, the elements it
does not want: past an element that stays the iterator moves on, an element that
goes is taken out from under it. One `turn` is one pass of the body; `Swept`
says what the list and the iterator have become of a list after some turns, and
at the end the list is what a filter leaves of it.
-/

namespace Sweep

variable {α : Type} {keep : α → Bool} {l0 l l' : List α} {it it' : Nat}

/-- One turn of the loop, `none` when the iterator is at the end. -/
def turn (keep : α → Bool) (l : List α) (it : Nat) : Option (List α × Nat) :=
  (l[it]?).map fun a => if keep a then (l, it + 1) else (l.eraseIdx it, it)

/-- `l0` after some turns: before the iterator stand elements that stay, behind
it those not looked at. -/
def Swept (keep : α → Bool) (l0 l : List α) (it : Nat) : Prop :=
  ∃ kept rest, l = kept ++ rest ∧ it = kept.length ∧ kept ++ rest.filter keep = l0.filter keep

theorem Swept.start (keep : α → Bool) (l : List α) : Swept keep l l 0 :=
  ⟨[], l, rfl, rfl, rfl⟩

/-- A turn looks at one element. -/
theorem Swept.turn (h : Swept keep l0 l it) (hturn : turn keep l it = some (l', it')) :
    Swept keep l0 l' it' := by
  obtain ⟨kept, rest, rfl, rfl, hfilter⟩ := h
  cases rest with
  | nil => simp [Sweep.turn] at hturn
  | cons a rest =>
      have hat : (kept ++ a :: rest)[kept.length]? = some a := by simp
      rw [Sweep.turn, hat, Option.map_some, Option.some.injEq] at hturn
      cases hkeep : keep a with
      | true =>
          rw [hkeep, if_pos rfl, Prod.mk.injEq] at hturn
          obtain ⟨rfl, rfl⟩ := hturn
          refine ⟨kept ++ [a], rest, by simp, by simp, ?_⟩
          rw [← hfilter, List.filter_cons_of_pos hkeep, List.append_assoc, List.singleton_append]
      | false =>
          rw [hkeep, if_neg Bool.false_ne_true, Prod.mk.injEq] at hturn
          obtain ⟨rfl, rfl⟩ := hturn
          refine ⟨kept, rest, ?_, rfl, ?_⟩
          · rw [List.eraseIdx_append_of_length_le (Nat.le_refl _), Nat.sub_self, List.eraseIdx_cons_zero]
          · rw [← hfilter, List.filter_cons_of_neg (by simp [hkeep])]

/-- At the end the list is filtered. -/
theorem Swept.ends (h : Swept keep l0 l it) (hend : Sweep.turn keep l it = none) :
    l = l0.filter keep := by
  obtain ⟨kept, rest, rfl, rfl, hfilter⟩ := h
  cases rest with
  | nil => rwa [List.filter_nil] at hfilter
  | cons a rest => simp [Sweep.turn] at hend

/-- Every turn brings the iterator nearer to the end. -/
theorem turn_nearer (hturn : turn keep l it = some (l', it')) :
    l'.length - it' < l.length - it := by
  obtain ⟨a, ha, heq⟩ := Option.map_eq_some_iff.mp hturn
  obtain ⟨hlt, -⟩ := List.getElem?_eq_some_iff.mp ha
  split at heq
  case isTrue =>
    obtain ⟨rfl, rfl⟩ := Prod.mk.injEq .. |>.mp heq
    omega
  case isFalse =>
    obtain ⟨rfl, rfl⟩ := Prod.mk.injEq .. |>.mp heq
    rw [List.length_eraseIdx_of_lt hlt]
    omega

end Sweep
