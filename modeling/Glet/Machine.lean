import Mathlib.Data.List.Basic

/-!
# Machines

A machine is a partial step function: `step a s` is the state after action
`a`, or `none` where `a` cannot happen. Several threads make one machine whose
actions say which thread moves; an interleaving of the threads is then a list
of actions, and `run` is what it leads to.

Invariants come in two forms. `run_invariant` is for properties that every
step keeps; `run_along` for properties that a step keeps if it meets a side
condition, in runs all of whose steps meet it (`Along`).
-/

namespace Machine

variable {σ α : Type} {step : α → σ → Option σ}

/-- The state a list of actions leads to, if all of them can happen. -/
def run (step : α → σ → Option σ) : List α → σ → Option σ
  | [], s => some s
  | a :: as, s => (step a s).bind (run step as)

/-- Every action of a run meets `C` in the state it happens in. -/
def Along (step : α → σ → Option σ) (C : σ → α → Prop) : List α → σ → Prop
  | [], _ => True
  | a :: as, s => C s a ∧ ∀ s' ∈ step a s, Along step C as s'

instance Along.decidable {C : σ → α → Prop} [∀ s a, Decidable (C s a)] :
    ∀ as s, Decidable (Along step C as s)
  | [], _ => .isTrue trivial
  | a :: as, s =>
      have : Decidable (∀ s' ∈ step a s, Along step C as s') :=
        match h : step a s with
        | none => .isTrue (by simp)
        | some s' => @decidable_of_iff _ (Along step C as s') (by simp) (Along.decidable as s')
      inferInstanceAs (Decidable (_ ∧ _))

theorem run_cons_eq_some {a : α} {as : List α} {s s' : σ} :
    run step (a :: as) s = some s' ↔ ∃ s1, step a s = some s1 ∧ run step as s1 = some s' := by
  rw [run, Option.bind_eq_some_iff]

/-- What every step keeps, every run keeps. -/
theorem run_invariant {I : σ → Prop} (hstep : ∀ a s s', I s → step a s = some s' → I s')
    {as : List α} {s s' : σ} (h : run step as s = some s') (hI : I s) : I s' := by
  induction as generalizing s with
  | nil =>
      obtain rfl := Option.some.inj h
      exact hI
  | cons a as ih =>
      obtain ⟨s1, hs1, hrest⟩ := run_cons_eq_some.mp h
      exact ih hrest (hstep a s s1 hI hs1)

/-- What steps that meet `C` keep, runs all of whose steps meet `C` keep. -/
theorem run_along {C : σ → α → Prop} {I : σ → Prop}
    (hstep : ∀ a s s', I s → C s a → step a s = some s' → I s')
    {as : List α} {s s' : σ} (halong : Along step C as s) (h : run step as s = some s')
    (hI : I s) : I s' := by
  induction as generalizing s with
  | nil =>
      obtain rfl := Option.some.inj h
      exact hI
  | cons a as ih =>
      obtain ⟨s1, hs1, hrest⟩ := run_cons_eq_some.mp h
      exact ih (halong.2 s1 hs1) hrest (hstep a s s1 hI halong.1 hs1)

/-- A condition on the actions alone holds along every run of such actions. -/
theorem along_of_forall {C : α → Prop} {as : List α} (h : ∀ a ∈ as, C a) (s : σ) :
    Along step (fun _ a => C a) as s := by
  induction as generalizing s with
  | nil => trivial
  | cons a as ih =>
      exact ⟨h a (List.mem_cons_self ..), fun s' _ => ih (fun b hb => h b (List.mem_cons_of_mem _ hb)) s'⟩

theorem Along.and {C D : σ → α → Prop} {as : List α} {s : σ} (hC : Along step C as s)
    (hD : Along step D as s) : Along step (fun s a => C s a ∧ D s a) as s := by
  induction as generalizing s with
  | nil => trivial
  | cons a as ih => exact ⟨⟨hC.1, hD.1⟩, fun s' hs' => ih (hC.2 s' hs') (hD.2 s' hs')⟩

theorem along_congr {C D : σ → α → Prop} (h : ∀ s a, C s a ↔ D s a) (as : List α) (s : σ) :
    Along step C as s ↔ Along step D as s := by
  induction as generalizing s with
  | nil => exact Iff.rfl
  | cons a as ih =>
      exact and_congr (h s a) (forall_congr' fun s' => imp_congr_right fun _ => ih s')

/-- Two conditions that agree wherever an invariant holds agree along the runs
that keep it, all of whose steps meet `E`. -/
theorem along_congr_of {C D E : σ → α → Prop} {I : σ → Prop}
    (hstep : ∀ a s s', I s → E s a → step a s = some s' → I s')
    (h : ∀ s a, I s → E s a → (C s a ↔ D s a)) {as : List α} {s : σ} (hE : Along step E as s)
    (hI : I s) : Along step C as s ↔ Along step D as s := by
  induction as generalizing s with
  | nil => exact Iff.rfl
  | cons a as ih =>
      refine and_congr (h s a hI hE.1) (forall_congr' fun s' => ?_)
      exact forall_congr' fun hs' => ih (hE.2 s' hs') (hstep a s s' hI hE.1 hs')

end Machine
