import Glet.Machine

/-!
# Simulations between machines

A machine refines another one if every step of it is matched by some steps of
the other, none or several, along a relation of their states (`Simulates`). What
the runs of the other one keep then holds of it.
-/

namespace Machine

variable {σ τ α β : Type} {step : α → σ → Option σ} {stepA : β → τ → Option τ}

theorem run_append {as bs : List α} {s : σ} :
    run step (as ++ bs) s = (run step as s).bind (run step bs) := by
  induction as generalizing s with
  | nil => rfl
  | cons a as ih =>
      rw [List.cons_append, run, run, Option.bind_assoc]
      exact Option.bind_congr fun s' _ => ih

theorem run_append_eq_some {as bs : List α} {s s' : σ} :
    run step (as ++ bs) s = some s' ↔ ∃ s1, run step as s = some s1 ∧ run step bs s1 = some s' := by
  rw [run_append, Option.bind_eq_some_iff]

theorem run_singleton {a : α} {s : σ} : run step [a] s = step a s := by
  exact Option.bind_fun_some (step a s)

theorem run_concat {as : List α} {a : α} {s s' : σ} :
    run step (as ++ [a]) s = some s' ↔ ∃ s1, run step as s = some s1 ∧ step a s1 = some s' := by
  simp only [run_append_eq_some, run_singleton]

/-- A run can be taken, and its end has a property. -/
theorem run_any {test : σ → Bool} {as : List α} {s : σ} (h : (run step as s).any test = true) :
    ∃ s', run step as s = some s' ∧ test s' = true :=
  (Option.any_eq_true _ _).mp h

/-- There is a run from the one state to the other. -/
def Reaches (step : α → σ → Option σ) (s s' : σ) : Prop := ∃ as, run step as s = some s'

theorem Reaches.refl (s : σ) : Reaches step s s := ⟨[], rfl⟩

theorem Reaches.trans {s s' s'' : σ} (h : Reaches step s s') (h' : Reaches step s' s'') :
    Reaches step s s'' := by
  obtain ⟨as, has⟩ := h
  obtain ⟨bs, hbs⟩ := h'
  exact ⟨as ++ bs, run_append_eq_some.mpr ⟨s', has, hbs⟩⟩

theorem Reaches.next {s s' s'' : σ} {a : α} (h : Reaches step s s') (ha : step a s' = some s'') :
    Reaches step s s'' :=
  h.trans ⟨[a], run_singleton.trans ha⟩

/-- There is such a run, and all its actions meet the condition. -/
def ReachesAlong (step : α → σ → Option σ) (C : σ → α → Prop) (s s' : σ) : Prop :=
  ∃ as, run step as s = some s' ∧ Along step C as s

theorem ReachesAlong.refl {C : σ → α → Prop} (s : σ) : ReachesAlong step C s s := ⟨[], rfl, trivial⟩

theorem ReachesAlong.next {C : σ → α → Prop} {s s1 s' : σ} {a : α} (hC : C s a)
    (ha : step a s = some s1) (h : ReachesAlong step C s1 s') : ReachesAlong step C s s' := by
  obtain ⟨as, hrun, halong⟩ := h
  refine ⟨a :: as, run_cons_eq_some.mpr ⟨s1, ha, hrun⟩, hC, fun s2 hs2 => ?_⟩
  obtain rfl := Option.some.inj (ha.symm.trans hs2)
  exact halong

theorem ReachesAlong.single {C : σ → α → Prop} {s s' : σ} {a : α} (hC : C s a)
    (ha : step a s = some s') : ReachesAlong step C s s' := .next hC ha (.refl s')

theorem ReachesAlong.trans {C : σ → α → Prop} {s s' s'' : σ} (h : ReachesAlong step C s s')
    (h' : ReachesAlong step C s' s'') : ReachesAlong step C s s'' := by
  obtain ⟨as, hrun, halong⟩ := h
  induction as generalizing s with
  | nil =>
      obtain rfl := Option.some.inj hrun
      exact h'
  | cons a as ih =>
      obtain ⟨s1, hs1, hrest⟩ := run_cons_eq_some.mp hrun
      exact .next halong.1 hs1 (ih hrest (halong.2 s1 hs1))

/-- Where every step of a run is matched by a run of another machine, so is the
whole run. -/
theorem ReachesAlong.lift {C : σ → α → Prop} {D : τ → β → Prop} {R : σ → τ → Prop}
    (hstep : ∀ a s s' t, C s a → step a s = some s' → R s t →
      ∃ t', ReachesAlong stepA D t t' ∧ R s' t')
    {s s' : σ} {t : τ} (h : ReachesAlong step C s s') (hR : R s t) :
    ∃ t', ReachesAlong stepA D t t' ∧ R s' t' := by
  obtain ⟨as, hrun, halong⟩ := h
  induction as generalizing s t with
  | nil =>
      obtain rfl := Option.some.inj hrun
      exact ⟨t, .refl t, hR⟩
  | cons a as ih =>
      obtain ⟨s1, hs1, hrest⟩ := run_cons_eq_some.mp hrun
      obtain ⟨t1, hfirst, hR1⟩ := hstep a s s1 t halong.1 hs1 hR
      obtain ⟨t', hlast, hR'⟩ := ih hR1 hrest (halong.2 s1 hs1)
      exact ⟨t', hfirst.trans hlast, hR'⟩

theorem Along.concat {C : σ → α → Prop} {as : List α} {a : α} {s s' : σ}
    (h : Along step C as s) (hrun : run step as s = some s') (ha : C s' a) :
    Along step C (as ++ [a]) s := by
  induction as generalizing s with
  | nil =>
      obtain rfl := Option.some.inj hrun
      exact ⟨ha, fun _ _ => trivial⟩
  | cons b as ih =>
      obtain ⟨s1, hs1, hrest⟩ := run_cons_eq_some.mp hrun
      refine ⟨h.1, fun s2 hs2 => ?_⟩
      obtain rfl := Option.some.inj (hs1.symm.trans hs2)
      exact ih (h.2 _ hs1) hrest

/-- Every step is matched by a run. -/
def Simulates (step : α → σ → Option σ) (stepA : β → τ → Option τ) (R : σ → τ → Prop) : Prop :=
  ∀ a s s' t, R s t → step a s = some s' → ∃ t', Reaches stepA t t' ∧ R s' t'

theorem Simulates.run {R : σ → τ → Prop} (h : Simulates step stepA R) {as : List α} {s s' : σ} {t : τ}
    (hrun : Machine.run step as s = some s') (hR : R s t) : ∃ t', Reaches stepA t t' ∧ R s' t' := by
  induction as generalizing s t with
  | nil =>
      obtain rfl := Option.some.inj hrun
      exact ⟨t, .refl t, hR⟩
  | cons a as ih =>
      obtain ⟨s1, hs1, hrest⟩ := run_cons_eq_some.mp hrun
      obtain ⟨t1, hfirst, hR1⟩ := h a s s1 t hR hs1
      obtain ⟨t', hlast, hR'⟩ := ih hrest hR1
      exact ⟨t', hfirst.trans hlast, hR'⟩

end Machine
