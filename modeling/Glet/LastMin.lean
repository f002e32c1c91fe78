import Mathlib.Order.Lattice
import Mathlib.Data.List.Basic

/-!
# The last least element of a list

A search that keeps a running minimum and replaces it on every tie ends with
the last element of least rank. The choice does not depend on the elements
that were not chosen (`lastMin_of_sublist`).
-/

namespace LastMin

variable {α β : Type} [LinearOrder β] {rank : α → β} {l l' : List α} {a c : α}

/-- The last element of least rank. -/
def lastMin (rank : α → β) : List α → Option α
  | [] => none
  | a :: as =>
      match lastMin rank as with
      | none => some a
      | some b => if rank b ≤ rank a then some b else some a

/-- The running minimum: the least rank so far and the element it is of. -/
def scan (rank : α → β) : List α → β × Option α → β × Option α
  | [], acc => acc
  | a :: as, acc => scan rank as (if rank a ≤ acc.1 then (rank a, some a) else acc)

/-- The elements before the chosen one rank no lower, those after it higher. -/
def Chosen (rank : α → β) (l : List α) (c : α) : Prop :=
  ∃ pre post, l = pre ++ c :: post ∧ (∀ x ∈ pre, rank c ≤ rank x) ∧ ∀ x ∈ post, rank c < rank x

@[simp] theorem lastMin_nil : lastMin rank [] = none := rfl

theorem lastMin_eq_none : lastMin rank l = none ↔ l = [] := by
  cases l with
  | nil => simp
  | cons a as =>
      simp only [lastMin, reduceCtorEq, iff_false]
      split
      · simp
      · split <;> simp

theorem Chosen.mem (h : Chosen rank l c) : c ∈ l := by
  obtain ⟨pre, post, rfl, -, -⟩ := h
  simp

theorem Chosen.le (h : Chosen rank l c) (ha : a ∈ l) : rank c ≤ rank a := by
  obtain ⟨pre, post, rfl, hpre, hpost⟩ := h
  rcases List.mem_append.mp ha with ha | ha
  · exact hpre a ha
  · rcases List.mem_cons.mp ha with rfl | ha
    · exact le_rfl
    · exact (hpost a ha).le

theorem chosen_of_lastMin (h : lastMin rank l = some c) : Chosen rank l c := by
  induction l generalizing c with
  | nil => cases h
  | cons a as ih =>
      simp only [lastMin] at h
      split at h
      case h_1 hnone =>
        obtain rfl := Option.some.inj h
        obtain rfl := lastMin_eq_none.mp hnone
        exact ⟨[], [], rfl, by simp, by simp⟩
      case h_2 b hb =>
        split at h
        case isTrue hle =>
          obtain rfl := Option.some.inj h
          obtain ⟨pre, post, rfl, hpre, hpost⟩ := ih hb
          refine ⟨a :: pre, post, rfl, fun x hx => ?_, hpost⟩
          rcases List.mem_cons.mp hx with rfl | hx
          · exact hle
          · exact hpre x hx
        case isFalse hlt =>
          obtain rfl := Option.some.inj h
          refine ⟨[], as, rfl, by simp, fun x hx => ?_⟩
          exact lt_of_lt_of_le (lt_of_not_ge hlt) ((ih hb).le hx)

theorem lastMin_of_chosen (h : Chosen rank l c) : lastMin rank l = some c := by
  obtain ⟨pre, post, rfl, hpre, hpost⟩ := h
  induction pre with
  | nil =>
      simp only [List.nil_append, lastMin]
      split
      case h_1 => rfl
      case h_2 b hb => exact if_neg (not_le.mpr (hpost b (chosen_of_lastMin hb).mem))
  | cons a pre ih =>
      have hrest := ih fun x hx => hpre x (List.mem_cons_of_mem a hx)
      simp only [List.cons_append, lastMin, hrest]
      exact if_pos (hpre a (List.mem_cons_self ..))

theorem lastMin_mem (h : lastMin rank l = some c) : c ∈ l := (chosen_of_lastMin h).mem

theorem lastMin_le (h : lastMin rank l = some c) (ha : a ∈ l) : rank c ≤ rank a :=
  (chosen_of_lastMin h).le ha

theorem lastMin_isSome : (lastMin rank l).isSome = true ↔ l ≠ [] := by
  rw [Option.isSome_iff_ne_none, Ne, lastMin_eq_none]

theorem lastMin_congr {rank' : α → β} (h : ∀ a ∈ l, rank a = rank' a) :
    lastMin rank l = lastMin rank' l := by
  induction l with
  | nil => rfl
  | cons a as ih =>
      have hrest := ih fun b hb => h b (List.mem_cons_of_mem a hb)
      have ha := h a (List.mem_cons_self ..)
      simp only [lastMin, hrest, ha]
      cases hb : lastMin rank' as with
      | none => rfl
      | some b => simp only [h b (List.mem_cons_of_mem a (chosen_of_lastMin hb).mem)]

/-- Dropping elements that were not chosen does not change the choice. -/
theorem lastMin_of_sublist (h : lastMin rank l = some c) (hnodup : l.Nodup)
    (hsub : l'.Sublist l) (hc : c ∈ l') : lastMin rank l' = some c := by
  obtain ⟨pre, post, rfl, hpre, hpost⟩ := chosen_of_lastMin h
  obtain ⟨pre', rest, rfl, hpre', hrest⟩ := List.sublist_append_iff.mp hsub
  obtain ⟨-, hnodup', hdisj⟩ := List.nodup_append.mp hnodup
  have hcpost := (List.nodup_cons.mp hnodup').1
  have hcrest : c ∈ rest := by
    rcases List.mem_append.mp hc with hc | hc
    · exact absurd rfl (hdisj c (hpre'.subset hc) c (List.mem_cons_self ..))
    · exact hc
  rcases List.sublist_cons_iff.mp hrest with hrest | ⟨post', rfl, hpost'⟩
  · exact absurd (hrest.subset hcrest) hcpost
  · exact lastMin_of_chosen ⟨pre', post', rfl, fun x hx => hpre x (hpre'.subset hx),
      fun x hx => hpost x (hpost'.subset hx)⟩

/-- The running minimum finds the last least element, unless all rank above
the bound it starts with. -/
theorem scan_eq (l : List α) (acc : β × Option α) :
    scan rank l acc = (lastMin rank l).elim acc fun c =>
      if rank c ≤ acc.1 then (rank c, some c) else acc := by
  induction l generalizing acc with
  | nil => rfl
  | cons a as ih =>
      simp only [scan, ih, lastMin]
      cases hlast : lastMin rank as with
      | none => rfl
      | some b =>
          simp only [Option.elim_some]
          rcases le_or_gt (rank b) (rank a) with hba | hab
          · rw [if_pos hba]
            by_cases ha : rank a ≤ acc.1
            · rw [if_pos ha, if_pos hba, Option.elim_some, if_pos (hba.trans ha)]
            · rw [if_neg ha, Option.elim_some]
          · rw [if_neg (not_le.mpr hab)]
            by_cases ha : rank a ≤ acc.1
            · rw [if_pos ha, if_neg (not_le.mpr hab), Option.elim_some, if_pos ha]
            · rw [if_neg ha, Option.elim_some, if_neg ha,
                if_neg (not_le.mpr ((not_le.mp ha).trans hab))]

end LastMin
