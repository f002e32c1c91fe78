import Mathlib.Algebra.Order.Ring.Int
import Mathlib.Data.List.Basic

/-!
# Index vectors in lexicographic order

The vectors of `n` indices below `m`, each once and in lexicographic order: what
a nested enumeration of `n` loops over a list of `m` elements goes through
(`flatMap_indices` turns one loop over the elements into one over the indices).
-/

namespace IndexVectors

/-- All vectors of `n` indices below `m`. -/
def vectors (m : Nat) : Nat → List (List Nat)
  | 0 => [[]]
  | n + 1 => (List.range m).flatMap fun i => (vectors m n).map (i :: ·)

variable {α β : Type} {m n : Nat} {v : List Nat}

theorem length_vectors (m n : Nat) : (vectors m n).length = m ^ n := by
  induction n with
  | zero => rfl
  | succ n ih =>
      simp only [vectors, List.length_flatMap, List.length_map, ih, List.map_const',
        List.length_range, List.sum_replicate_nat]
      rw [Nat.pow_succ, Nat.mul_comm]

theorem mem_vectors : v ∈ vectors m n ↔ v.length = n ∧ ∀ i ∈ v, i < m := by
  induction n generalizing v with
  | zero =>
      simp only [vectors, List.mem_singleton]
      constructor
      · rintro rfl
        exact ⟨rfl, nofun⟩
      · rintro ⟨hlen, -⟩
        exact List.length_eq_zero_iff.mp hlen
  | succ n ih =>
      simp only [vectors, List.mem_flatMap, List.mem_range, List.mem_map]
      constructor
      · rintro ⟨i, hi, w, hw, rfl⟩
        obtain ⟨hlen, hall⟩ := ih.mp hw
        refine ⟨by rw [List.length_cons, hlen], fun j hj => ?_⟩
        rcases List.mem_cons.mp hj with rfl | hj
        · exact hi
        · exact hall j hj
      · rintro ⟨hlen, hall⟩
        cases v with
        | nil => cases hlen
        | cons i w =>
            refine ⟨i, hall i (List.mem_cons_self ..), w, ih.mpr ⟨?_, ?_⟩, rfl⟩
            · exact Nat.succ.inj hlen
            · exact fun j hj => hall j (List.mem_cons_of_mem _ hj)

/-- Each once, in lexicographic order. -/
theorem vectors_sorted (m n : Nat) : (vectors m n).Pairwise (· < ·) := by
  induction n with
  | zero => exact List.pairwise_singleton ..
  | succ n ih =>
      refine List.pairwise_flatMap.mpr ⟨fun i _ => ?_, ?_⟩
      · refine List.pairwise_map.mpr (ih.imp fun h => ?_)
        exact List.cons_lt_cons_iff.mpr (Or.inr ⟨rfl, h⟩)
      · refine List.pairwise_lt_range.imp fun hij v hv w hw => ?_
        obtain ⟨v', -, rfl⟩ := List.mem_map.mp hv
        obtain ⟨w', -, rfl⟩ := List.mem_map.mp hw
        exact List.cons_lt_cons_iff.mpr (Or.inl hij)

/-- A loop over the elements is one over the indices. -/
theorem flatMap_indices (xs : List α) (default : α) (f : α → List β) :
    xs.flatMap f = (List.range xs.length).flatMap fun i => f (xs.getD i default) := by
  have hxs : xs = (List.range xs.length).map fun i => xs.getD i default := by
    refine List.ext_getElem (by simp) fun i h₁ h₂ => ?_
    simp [List.getD_eq_getElem?_getD, h₁]
  calc xs.flatMap f = ((List.range xs.length).map fun i => xs.getD i default).flatMap f := by
        rw [← hxs]
    _ = (List.range xs.length).flatMap fun i => f (xs.getD i default) := List.flatMap_map ..

end IndexVectors
