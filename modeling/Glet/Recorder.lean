import Mathlib.Data.List.Basic

/-!
# Recorded programs

A small library for stateful programs that write their state only through
named *actions*. A program runs on a state together with the list of the
actions performed so far, each kept with the state it was performed in
(newest first); it returns a value and the new record, or stops with a
fault.

Because every write goes through `act`, a finished run is a `Path`: a
sequence of actions, each applied to the state the previous one left. What
a program promises about its writes is a guard `G` on (state, action)
pairs; `Moves` says that a run appended only guarded actions. The two
rules that carry results from single actions to whole runs are

- `Moves.trans` / `Moves.act`: runs compose, and one guarded action is a run;
- `Path.invariant`: a property kept by every guarded action that also
  meets a side condition `C` is kept by every run whose actions all do;
- `Moves.keeps`: what no guarded action changes, the run does not change.

Proofs about a program invert its binds (`Prog.bind_ok`, `Prog.bind_error`)
and hand the pieces to these rules.
-/

namespace Recorder

variable {σ α ε β γ δ : Type}

/-- A state and the actions that led to it, newest first, each with the
state it was performed in. -/
structure Rec (σ α : Type) where
  cur : σ
  log : List (σ × α)

/-- Programs over a recorded state that return a `β` or stop with a fault. -/
def Prog (σ α ε β : Type) := Rec σ α → Except ε (β × Rec σ α)

namespace Prog

protected def pure (b : β) : Prog σ α ε β := fun s => .ok (b, s)

protected def bind (x : Prog σ α ε β) (f : β → Prog σ α ε γ) : Prog σ α ε γ :=
  fun s => match x s with
    | .ok (b, s') => f b s'
    | .error e => .error e

instance : Monad (Prog σ α ε) where
  pure := Prog.pure
  bind := Prog.bind

protected theorem id_map (x : Prog σ α ε β) : id <$> x = x := by
  funext s
  change Prog.bind x Prog.pure s = x s
  unfold Prog.bind
  cases x s <;> rfl

protected theorem bind_assoc (x : Prog σ α ε β) (f : β → Prog σ α ε γ) (g : γ → Prog σ α ε δ) :
    x >>= f >>= g = x >>= fun b => f b >>= g := by
  funext s
  change Prog.bind (Prog.bind x f) g s = Prog.bind x (fun b => Prog.bind (f b) g) s
  unfold Prog.bind
  cases x s <;> rfl

instance : LawfulMonad (Prog σ α ε) :=
  LawfulMonad.mk' _ Prog.id_map (fun _ _ => rfl) Prog.bind_assoc

/-- Evaluate a query of the current state; nothing is written. -/
def ask (q : σ → Except ε β) : Prog σ α ε β := fun s =>
  match q s.cur with
  | .ok b => .ok (b, s)
  | .error e => .error e

/-- Perform an action. -/
def act (apply : α → σ → σ) (a : α) : Prog σ α ε Unit := fun s =>
  .ok ((), { cur := apply a s.cur, log := (s.cur, a) :: s.log })

/-! ## Inverting a finished run -/

theorem pure_ok {b : β} {s : Rec σ α} {r : β × Rec σ α}
    (h : (pure b : Prog σ α ε β) s = .ok r) : r = (b, s) :=
  (Except.ok.inj h).symm

theorem bind_ok {x : Prog σ α ε β} {f : β → Prog σ α ε γ} {s : Rec σ α}
    {r : γ × Rec σ α} (h : (x >>= f) s = .ok r) :
    ∃ b s', x s = .ok (b, s') ∧ f b s' = .ok r := by
  change Prog.bind x f s = .ok r at h
  unfold Prog.bind at h
  split at h
  · rename_i b s' hx
    exact ⟨b, s', hx, h⟩
  · cases h

theorem ask_ok {q : σ → Except ε β} {s : Rec σ α} {r : β × Rec σ α}
    (h : (ask q : Prog σ α ε β) s = .ok r) : ∃ b, q s.cur = .ok b ∧ r = (b, s) := by
  unfold ask at h
  split at h
  · rename_i b hq
    exact ⟨b, hq, (Except.ok.inj h).symm⟩
  · cases h

/-- A query followed by a continuation: the query succeeded and the
continuation ran from the same record. -/
theorem ask_bind_ok {q : σ → Except ε β} {f : β → Prog σ α ε γ} {s : Rec σ α}
    {r : γ × Rec σ α} (h : (ask q >>= f) s = .ok r) :
    ∃ b, q s.cur = .ok b ∧ f b s = .ok r := by
  obtain ⟨b, s', hq, hf⟩ := bind_ok h
  obtain ⟨b', hb', heq⟩ := ask_ok hq
  obtain ⟨rfl, rfl⟩ := Prod.mk.injEq .. |>.mp heq
  exact ⟨_, hb', hf⟩

/-- The record after an action. -/
def after (apply : α → σ → σ) (a : α) (s : Rec σ α) : Rec σ α :=
  { cur := apply a s.cur, log := (s.cur, a) :: s.log }

@[simp] theorem after_cur (apply : α → σ → σ) (a : α) (s : Rec σ α) :
    (after apply a s).cur = apply a s.cur := rfl

theorem act_ok {apply : α → σ → σ} {a : α} {s : Rec σ α} {r : Unit × Rec σ α}
    (h : (act apply a : Prog σ α ε Unit) s = .ok r) : r.2 = after apply a s := by
  obtain rfl := Except.ok.inj h
  rfl

theorem act_bind_ok {apply : α → σ → σ} {a : α} {f : Unit → Prog σ α ε γ}
    {s : Rec σ α} {r : γ × Rec σ α} (h : (act apply a >>= f) s = .ok r) :
    f () (after apply a s) = .ok r := by
  obtain ⟨b, s', ha, hf⟩ := bind_ok h
  obtain rfl : s' = after apply a s := act_ok ha
  exact hf

/-! ## Stopped runs -/

/-- A program behind one that finished. -/
theorem bind_of_ok {x : Prog σ α ε β} {f : β → Prog σ α ε γ} {s s' : Rec σ α} {b : β}
    (h : x s = .ok (b, s')) : (x >>= f) s = f b s' := by
  change Prog.bind x f s = f b s'
  unfold Prog.bind
  rw [h]

theorem bind_of_error {x : Prog σ α ε β} {f : β → Prog σ α ε γ} {s : Rec σ α} {e : ε}
    (h : x s = .error e) : (x >>= f) s = .error e := by
  change Prog.bind x f s = .error e
  unfold Prog.bind
  rw [h]

/-- A program that stopped did so in its first part or, after that one
finished, in the rest. -/
theorem bind_error {x : Prog σ α ε β} {f : β → Prog σ α ε γ} {s : Rec σ α} {e : ε}
    (h : (x >>= f) s = .error e) :
    x s = .error e ∨ ∃ b s', x s = .ok (b, s') ∧ f b s' = .error e := by
  change Prog.bind x f s = .error e at h
  unfold Prog.bind at h
  split at h
  · rename_i b s' hx
    exact Or.inr ⟨b, s', hx, h⟩
  · rename_i e' hx
    exact Or.inl (hx.trans (congrArg Except.error (Except.error.inj h)))

theorem ask_of_ok {q : σ → Except ε β} {s : Rec σ α} {b : β} (h : q s.cur = .ok b) :
    (ask q : Prog σ α ε β) s = .ok (b, s) := by
  unfold ask
  rw [h]

theorem ask_of_error {q : σ → Except ε β} {s : Rec σ α} {e : ε} (h : q s.cur = .error e) :
    (ask q : Prog σ α ε β) s = .error e := by
  unfold ask
  rw [h]

/-! ## Runs that agree -/

/-- Two continuations that agree on what the first part returns. -/
theorem bind_congr {x : Prog σ α ε β} {f g : β → Prog σ α ε γ} {s : Rec σ α}
    (h : ∀ b s', x s = .ok (b, s') → f b s' = g b s') : (x >>= f) s = (x >>= g) s := by
  change Prog.bind x f s = Prog.bind x g s
  unfold Prog.bind
  split
  · rename_i b s' hx
    exact h b s' hx
  · rfl

theorem ask_bind_congr {q : σ → Except ε β} {f g : β → Prog σ α ε γ} {s : Rec σ α}
    (h : ∀ b, q s.cur = .ok b → f b s = g b s) : (ask q >>= f) s = (ask q >>= g) s := by
  refine bind_congr fun b s' hq => ?_
  obtain ⟨b', hb', heq⟩ := ask_ok hq
  obtain ⟨rfl, rfl⟩ := Prod.mk.injEq .. |>.mp heq
  exact h b hb'

end Prog

/-! ## Paths of guarded actions -/

/-- `Path apply G c l d`: performing the actions of `l` (newest first) leads
from `c` to `d`, each action is recorded with the state it was performed
in, and each one met the guard `G` there. -/
inductive Path (apply : α → σ → σ) (G : σ → α → Prop) : σ → List (σ × α) → σ → Prop
  | nil (c : σ) : Path apply G c [] c
  | snoc {c d : σ} {l : List (σ × α)} {a : α} :
      Path apply G c l d → G d a → Path apply G c ((d, a) :: l) (apply a d)

namespace Path

variable {apply : α → σ → σ} {G : σ → α → Prop} {c d e : σ} {l l' : List (σ × α)}

theorem append (h : Path apply G c l d) (h' : Path apply G d l' e) :
    Path apply G c (l' ++ l) e := by
  induction h' with
  | nil => exact h
  | snoc _ hg ih => exact .snoc ih hg

theorem mono {G' : σ → α → Prop} (hG : ∀ c a, G c a → G' c a) (h : Path apply G c l d) :
    Path apply G' c l d := by
  induction h with
  | nil => exact .nil _
  | snoc _ hg ih => exact .snoc ih (hG _ _ hg)

/-- An invariant of the guarded actions may be added to the guard. -/
theorem strengthen {I : σ → Prop} (step : ∀ c a, I c → G c a → I (apply a c))
    (h : Path apply G c l d) (hI : I c) : Path apply (fun c a => I c ∧ G c a) c l d ∧ I d := by
  induction h with
  | nil => exact ⟨.nil _, hI⟩
  | snoc _ hg ih =>
      obtain ⟨hp, hd⟩ := ih
      exact ⟨.snoc hp ⟨hd, hg⟩, step _ _ hd hg⟩

/-- Every recorded action met the guard. -/
theorem forall_mem (h : Path apply G c l d) : ∀ p ∈ l, G p.1 p.2 := by
  induction h with
  | nil => exact fun p hp => by cases hp
  | snoc _ hg ih =>
      intro p hp
      rcases List.mem_cons.mp hp with rfl | hp
      · exact hg
      · exact ih p hp

/-- **The invariant rule.** A property that every guarded action meeting the
side condition `C` keeps is kept by every run whose actions all meet `C`. -/
theorem invariant {I : σ → Prop} {C : σ → α → Prop}
    (step : ∀ c a, I c → G c a → C c a → I (apply a c))
    (h : Path apply G c l d) (hC : ∀ p ∈ l, C p.1 p.2) (hI : I c) : I d := by
  induction h with
  | nil => exact hI
  | snoc _ hg ih =>
      have hlast := hC _ (List.mem_cons_self ..)
      exact step _ _ (ih fun p hp => hC p (List.mem_cons_of_mem _ hp)) hg hlast

end Path

/-- The run from `s` to `s'` appended only guarded actions. -/
def Moves (apply : α → σ → σ) (G : σ → α → Prop) (s s' : Rec σ α) : Prop :=
  ∃ l, s'.log = l ++ s.log ∧ Path apply G s.cur l s'.cur

namespace Moves

variable {apply : α → σ → σ} {G : σ → α → Prop} {s s' s'' : Rec σ α}

theorem refl (s : Rec σ α) : Moves apply G s s := ⟨[], rfl, .nil _⟩

theorem trans (h : Moves apply G s s') (h' : Moves apply G s' s'') :
    Moves apply G s s'' := by
  obtain ⟨l, hl, hp⟩ := h
  obtain ⟨l', hl', hp'⟩ := h'
  exact ⟨l' ++ l, by rw [hl', hl, List.append_assoc], hp.append hp'⟩

theorem act {a : α} (hg : G s.cur a) : Moves apply G s (Prog.after apply a s) :=
  ⟨[(s.cur, a)], rfl, .snoc (.nil _) hg⟩

/-- The invariant rule for a recorded run. The side condition may be asked
of the whole final log, which contains the run's own actions. -/
theorem invariant {I : σ → Prop} {C : σ → α → Prop}
    (step : ∀ c a, I c → G c a → C c a → I (apply a c))
    (h : Moves apply G s s') (hC : ∀ p ∈ s'.log, C p.1 p.2) (hI : I s.cur) : I s'.cur := by
  obtain ⟨l, hl, hp⟩ := h
  refine hp.invariant step (fun p hp' => hC p ?_) hI
  rw [hl]
  exact List.mem_append.mpr (Or.inl hp')

theorem mono {G' : σ → α → Prop} (hG : ∀ c a, G c a → G' c a) (h : Moves apply G s s') :
    Moves apply G' s s' := by
  obtain ⟨l, hl, hp⟩ := h
  exact ⟨l, hl, hp.mono hG⟩

theorem strengthen {I : σ → Prop} (step : ∀ c a, I c → G c a → I (apply a c))
    (h : Moves apply G s s') (hI : I s.cur) :
    Moves apply (fun c a => I c ∧ G c a) s s' ∧ I s'.cur := by
  obtain ⟨l, hl, hp⟩ := h
  obtain ⟨hp', hI'⟩ := hp.strengthen step hI
  exact ⟨⟨l, hl, hp'⟩, hI'⟩

/-- A reading of the state that no guarded action changes is the same after
the run. -/
theorem keeps {f : σ → β} (step : ∀ c a, G c a → f (apply a c) = f c)
    (h : Moves apply G s s') : f s'.cur = f s.cur :=
  (h.strengthen (I := fun c => f c = f s.cur)
    (fun c a hI hg => (step c a hg).trans hI) rfl).2

/-- The earlier log is part of the later one. -/
theorem log_subset (h : Moves apply G s s') : ∀ p ∈ s.log, p ∈ s'.log := by
  obtain ⟨l, hl, -⟩ := h
  intro p hp
  rw [hl]
  exact List.mem_append.mpr (Or.inr hp)

end Moves

end Recorder
