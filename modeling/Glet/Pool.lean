import Mathlib.Algebra.Order.Ring.Int
import Mathlib.Data.List.Basic

/-!
# Pools of threads

Threads that run the same program are a list of the places they are at. A
thread that moves replaces its entry; what the others see of a pool is mostly
how many threads are at certain places.
-/

namespace Pool

variable {τ : Type} {ts : List τ} {i : Nat} {t t' : τ}

/-- The threads at the places of `p`. -/
def count (p : τ → Bool) (ts : List τ) : Nat := ts.countP p

@[simp]
theorem count_nil (p : τ → Bool) : count p [] = 0 := rfl

@[simp]
theorem count_append (p : τ → Bool) (ts us : List τ) :
    count p (ts ++ us) = count p ts + count p us :=
  List.countP_append

@[simp]
theorem count_cons (p : τ → Bool) (t : τ) (ts : List τ) :
    count p (t :: ts) = count p ts + (p t).toNat := by
  rw [count, List.countP_cons]
  cases p t <;> rfl

/-- All threads are at a place outside of `p`. -/
theorem count_replicate (p : τ → Bool) (n : Nat) {t : τ} (h : p t = false) :
    count p (List.replicate n t) = 0 := by
  rw [count, List.countP_replicate, h]
  rfl

/-- A thread leaves the place it was at for the place it goes to. -/
theorem count_set (p : τ → Bool) (h : ts[i]? = some t) (t' : τ) :
    count p (ts.set i t') + (p t).toNat = count p ts + (p t').toNat := by
  induction ts generalizing i with
  | nil => cases h
  | cons u ts ih =>
      cases i with
      | zero =>
          obtain rfl : u = t := by simpa using h
          simp only [List.set_cons_zero, count_cons]
          omega
      | succ i =>
          have hrest := ih (i := i) (by simpa using h)
          simp only [List.set_cons_succ, count_cons]
          omega

theorem count_eq_zero {p : τ → Bool} : count p ts = 0 ↔ ∀ t ∈ ts, p t = false := by
  simp [count, List.countP_eq_zero]

theorem count_pos {p : τ → Bool} (h : t ∈ ts) (hp : p t = true) : 0 < count p ts :=
  List.countP_pos_iff.mpr ⟨t, h, hp⟩

/-- A measure that the move of one thread lowers, and that is the same for the
others. -/
theorem sum_set_lt {F F' : τ → Nat} (h : ts[i]? = some t) (hlt : F' t' < F t)
    (hothers : ∀ j u, ts[j]? = some u → i ≠ j → F' u = F u) :
    ((ts.set i t').map F').sum < (ts.map F).sum := by
  induction ts generalizing i with
  | nil => cases h
  | cons u ts ih =>
      cases i with
      | zero =>
          obtain rfl : u = t := by simpa using h
          have hrest : ts.map F' = ts.map F := by
            refine List.map_congr_left fun v hv => ?_
            obtain ⟨j, hj⟩ := List.mem_iff_getElem?.mp hv
            exact hothers (j + 1) v (by simpa using hj) (Nat.succ_ne_zero j).symm
          rw [List.set_cons_zero, List.map_cons, List.map_cons, List.sum_cons, List.sum_cons, hrest]
          omega
      | succ i =>
          have hfirst : F' u = F u := hothers 0 u rfl (Nat.succ_ne_zero i)
          have hrest := ih (i := i) (by simpa using h)
            fun j v hj hij => hothers (j + 1) v (by simpa using hj) (by omega)
          rw [List.set_cons_succ, List.map_cons, List.map_cons, List.sum_cons, List.sum_cons, hfirst]
          omega

/-- What holds of every thread holds after a move to a place where it holds. -/
theorem forall_set {P : τ → Prop} (h : ∀ u ∈ ts, P u) (ht : P t') : ∀ u ∈ ts.set i t', P u := by
  intro u hu
  rcases List.mem_or_eq_of_mem_set hu with hold | rfl
  · exact h u hold
  · exact ht

end Pool
