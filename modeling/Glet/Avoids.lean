import Glet.Recorder

/-!
# Faults that do not occur

A small library for saying that a computation, or a recorded program, never
stops with a given fault. `Avoids` is a class: its instances follow the
structure of a `do` block, so that a routine needs a proof of its own only
where it branches on a value or calls itself.
-/

namespace Recorder

variable {σ α ε β γ : Type} {e : ε}

/-! ## Computations -/

/-- A computation that does not stop with the fault `e`. -/
class Avoids (e : ε) (x : Except ε β) : Prop where
  ne : x ≠ .error e

namespace Avoids

instance ok (b : β) : Avoids e (.ok b) := ⟨fun h => by cases h⟩

instance pure (b : β) : Avoids e (pure b : Except ε β) := ok b

theorem error {e' : ε} (h : e' ≠ e) : Avoids e (.error e' : Except ε β) :=
  ⟨fun heq => h (Except.error.inj heq)⟩

/-- The rest of a computation runs on what its first part returned. -/
theorem bind_of {x : Except ε β} {f : β → Except ε γ} (hx : Avoids e x)
    (hf : ∀ b, x = .ok b → Avoids e (f b)) : Avoids e (x >>= f) := by
  cases hxb : x with
  | ok b => exact hf b hxb
  | error e' =>
      rw [hxb] at hx
      exact error fun he => hx.ne (congrArg Except.error he)

/-- The rule for a first part whose class is known. -/
theorem bind {x : Except ε β} {f : β → Except ε γ} [hx : Avoids e x] (hf : ∀ b, Avoids e (f b)) :
    Avoids e (x >>= f) :=
  bind_of hx fun b _ => hf b

instance {x : Except ε β} {f : β → Except ε γ} [Avoids e x] [hf : ∀ b, Avoids e (f b)] :
    Avoids e (x >>= f) :=
  bind hf

/-- A computation that stopped did so in its first part or in the rest. -/
theorem cases_bind {x : Except ε β} {f : β → Except ε γ} (h : (x >>= f) = .error e) :
    x = .error e ∨ ∃ b, x = .ok b ∧ f b = .error e := by
  cases x with
  | ok b => exact Or.inr ⟨b, rfl, h⟩
  | error e' => exact Or.inl (congrArg Except.error (Except.error.inj h))

theorem of_bind {x : Except ε β} {f : β → Except ε γ} [hx : Avoids e x]
    (h : (x >>= f) = .error e) : ∃ b, x = .ok b ∧ f b = .error e :=
  (cases_bind h).resolve_left hx.ne

instance ite {p : Prop} [Decidable p] {x y : Except ε β} [hx : Avoids e x] [hy : Avoids e y] :
    Avoids e (if p then x else y) := by
  split
  · exact hx
  · exact hy

end Avoids

/-! ## Recorded programs -/

namespace Prog

/-- A program that stops with the fault `e` from no record. -/
class Avoids (e : ε) (p : Prog σ α ε β) : Prop where
  ne : ∀ r, p r ≠ .error e

namespace Avoids

instance pure (b : β) : Avoids e (pure b : Prog σ α ε β) := ⟨fun _ h => by cases h⟩

instance act (apply : α → σ → σ) (a : α) : Avoids e (act apply a : Prog σ α ε Unit) :=
  ⟨fun _ h => by cases h⟩

instance ask {q : σ → Except ε β} [hq : ∀ c, Recorder.Avoids e (q c)] :
    Avoids e (ask q : Prog σ α ε β) := by
  refine ⟨fun r h => (hq r.cur).ne ?_⟩
  unfold Prog.ask at h
  split at h
  · cases h
  · rename_i e' hqe
    exact hqe.trans (congrArg Except.error (Except.error.inj h))

theorem bind {p : Prog σ α ε β} {f : β → Prog σ α ε γ} [hp : Avoids e p]
    (hf : ∀ b, Avoids e (f b)) : Avoids e (p >>= f) := by
  refine ⟨fun r h => ?_⟩
  rcases bind_error h with h | ⟨b, r', -, h⟩
  · exact hp.ne r h
  · exact (hf b).ne r' h

instance {p : Prog σ α ε β} {f : β → Prog σ α ε γ} [Avoids e p]
    [hf : ∀ b, Avoids e (f b)] : Avoids e (p >>= f) :=
  bind hf

/-- A program whose first part avoids the fault stops with it in the rest. -/
theorem of_bind {p : Prog σ α ε β} {f : β → Prog σ α ε γ} {r : Rec σ α} [hp : Avoids e p]
    (h : (p >>= f) r = .error e) : ∃ b r', p r = .ok (b, r') ∧ f b r' = .error e :=
  (bind_error h).resolve_left (hp.ne r)

instance ite {c : Prop} [Decidable c] {p q : Prog σ α ε β} [hp : Avoids e p] [hq : Avoids e q] :
    Avoids e (if c then p else q) := by
  split
  · exact hp
  · exact hq

end Avoids

end Prog

end Recorder
