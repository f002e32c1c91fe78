import Mathlib.Algebra.Order.BigOperators.Group.Finset

/-!
# Room for pieces of descending size

Places hold vacancies; a piece takes a vacancy of at least its size. Only a
whole vacancy can be cut, and what is cut off is a vacancy again (`rest`).
`room t` counts the pieces of size `t` the vacancies are good for, a whole one
for two. While the pieces are at most half of a whole vacancy and do not grow,
every piece costs exactly one, wherever it is put (`weight_take`), so that two
ways of placing the same pieces can be compared by their room.
-/

namespace Room

section Weight

variable {α : Type} [LinearOrder α] {whole t x : α}

/-- How many pieces of size `t` a vacancy is good for. -/
def weight (whole t : α) : Option α → Nat
  | none => 0
  | some x => if x = whole then 2 else if t ≤ x then 1 else 0

@[simp] theorem weight_none : weight whole t none = 0 := rfl

theorem le_of_weight_pos (ht : t ≤ whole) {o : Option α} (h : 0 < weight whole t o) :
    ∃ x, o = some x ∧ t ≤ x := by
  cases o with
  | none => simp at h
  | some x =>
      refine ⟨x, rfl, ?_⟩
      by_cases hwhole : x = whole
      · exact hwhole ▸ ht
      · by_contra hlt
        simp only [weight, if_neg hwhole, if_neg hlt, lt_irrefl] at h

theorem weight_pos (h : t ≤ x) : 0 < weight whole t (some x) := by
  simp only [weight, if_pos h]
  split
  · exact Nat.zero_lt_two
  · exact Nat.zero_lt_one

variable [AddCommGroup α] [IsOrderedAddMonoid α] {cut : Bool} {p : α}

/-- What a vacancy of size `x` leaves when it takes a piece of size `p`. -/
def rest (whole : α) (cut : Bool) (p x : α) : Option α :=
  if cut = true ∧ x = whole ∧ p < whole then some (whole - p) else none

/-- A piece of at most half a whole vacancy costs one piece of any smaller
size. -/
theorem weight_take (hcut : cut = true) (hp : 0 < p) (ht : t ≤ p) (hhalf : p + p ≤ whole)
    (hx : p ≤ x) : weight whole t (some x) = weight whole t (rest whole cut p x) + 1 := by
  have hlt : p < whole := lt_of_lt_of_le (lt_add_of_pos_left p hp) hhalf
  by_cases hwhole : x = whole
  · have hne : whole - p ≠ whole := by simpa using hp.ne'
    have hle : t ≤ whole - p := ht.trans (le_sub_iff_add_le.mpr hhalf)
    rw [rest, if_pos ⟨hcut, hwhole, hlt⟩]
    simp only [weight, if_pos hwhole, if_neg hne, if_pos hle]
  · rw [rest, if_neg fun h => hwhole h.2.1]
    simp only [weight, if_neg hwhole, if_pos (ht.trans hx)]

end Weight

section Places

variable {ι α : Type} [LinearOrder α] {whole t x : α} {places : Finset ι} {v v' : ι → Option α}
  {a b : ι}

/-- How many pieces of size `t` all vacancies are good for. -/
def room (whole t : α) (places : Finset ι) (v : ι → Option α) : Nat :=
  ∑ i ∈ places, weight whole t (v i)

/-- Some vacancy takes a piece when there is room for one. -/
theorem exists_of_room_pos (ht : t ≤ whole) (h : 0 < room whole t places v) :
    ∃ a ∈ places, ∃ x, v a = some x ∧ t ≤ x := by
  obtain ⟨a, ha, hne⟩ := Finset.exists_ne_zero_of_sum_ne_zero h.ne'
  exact ⟨a, ha, le_of_weight_pos ht (Nat.pos_of_ne_zero hne)⟩

theorem room_pos (ha : a ∈ places) (hv : v a = some x) (ht : t ≤ x) :
    0 < room whole t places v := by
  have hle := Finset.single_le_sum (f := fun i => weight whole t (v i))
    (fun i _ => Nat.zero_le _) ha
  have hpos : 0 < weight whole t (v a) := hv ▸ weight_pos ht
  exact lt_of_lt_of_le hpos hle

variable [DecidableEq ι]

/-- Vacancies that shrink everywhere but at `a`. -/
theorem room_le (ha : a ∈ places)
    (h : ∀ i ∈ places, i ≠ a → weight whole t (v' i) ≤ weight whole t (v i)) :
    room whole t places v' + weight whole t (v a) ≤ room whole t places v + weight whole t (v' a) := by
  have hrest : ∑ i ∈ places.erase a, weight whole t (v' i) ≤
      ∑ i ∈ places.erase a, weight whole t (v i) :=
    Finset.sum_le_sum fun i hi => h i (Finset.mem_of_mem_erase hi) (Finset.ne_of_mem_erase hi)
  have hv := Finset.add_sum_erase places (fun i => weight whole t (v i)) ha
  have hv' := Finset.add_sum_erase places (fun i => weight whole t (v' i)) ha
  simp only [room]
  omega

/-- One vacancy is taken at `a`, another one appears at `b`. -/
theorem room_move (ha : a ∈ places) (hb : b ∈ places) (hnone : v b = none)
    (h : ∀ i ∈ places, i ≠ a → i ≠ b → weight whole t (v i) ≤ weight whole t (v' i)) :
    room whole t places v + weight whole t (v' b) ≤ room whole t places v' + weight whole t (v a) := by
  have hfree : room whole t places v + weight whole t (Function.update v a none a) ≤
      room whole t places (Function.update v a none) + weight whole t (v a) := by
    refine room_le ha fun i _ hia => ?_
    rw [Function.update_of_ne hia]
  have hmove : room whole t places (Function.update v a none) + weight whole t (v' b) ≤
      room whole t places v' + weight whole t (Function.update v a none b) := by
    refine room_le hb fun i hi hib => ?_
    by_cases hia : i = a
    · rw [hia, Function.update_self, weight_none]
      exact Nat.zero_le _
    · rw [Function.update_of_ne hia]
      exact h i hi hia hib
  have hub : Function.update v a none b = none := by
    by_cases hba : b = a
    · rw [hba, Function.update_self]
    · rw [Function.update_of_ne hba, hnone]
  rw [Function.update_self, weight_none] at hfree
  rw [hub, weight_none] at hmove
  omega

end Places

end Room
