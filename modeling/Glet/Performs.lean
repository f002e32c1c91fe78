import Glet.Recorder

/-!
# The actions a program performs

A small library for saying that a recorded program only performs actions of a
certain kind, whatever it runs on. `Performs` is a class: its instances follow
the structure of a `do` block, so that a routine needs a proof of its own only
where it performs an action, branches on a value or calls itself.
-/

namespace Recorder.Prog

variable {σ α ε β γ : Type} {K : α → Prop}

/-- Every action that a finished run adds to the log is of the kind `K`. -/
class Performs (K : α → Prop) (p : Prog σ α ε β) : Prop where
  logged : ∀ r b r', p r = .ok (b, r') → ∃ l, r'.log = l ++ r.log ∧ ∀ q ∈ l, K q.2

namespace Performs

instance pure (b : β) : Performs K (pure b : Prog σ α ε β) := by
  refine ⟨fun r b' r' h => ?_⟩
  obtain ⟨-, rfl⟩ := Prod.mk.injEq .. |>.mp (pure_ok h)
  exact ⟨[], rfl, fun q hq => by cases hq⟩

instance ask {q : σ → Except ε β} : Performs K (ask q : Prog σ α ε β) := by
  refine ⟨fun r b r' h => ?_⟩
  obtain ⟨b', -, heq⟩ := ask_ok h
  obtain ⟨-, rfl⟩ := Prod.mk.injEq .. |>.mp heq
  exact ⟨[], rfl, fun q hq => by cases hq⟩

theorem act (apply : α → σ → σ) {a : α} (h : K a) :
    Performs K (act apply a : Prog σ α ε Unit) := by
  refine ⟨fun r b r' hrun => ?_⟩
  obtain rfl : r' = after apply a r := act_ok hrun
  exact ⟨[(r.cur, a)], rfl, fun q hq => by rwa [List.mem_singleton.mp hq]⟩

theorem bind {p : Prog σ α ε β} {f : β → Prog σ α ε γ} [hp : Performs K p]
    (hf : ∀ b, Performs K (f b)) : Performs K (p >>= f) := by
  refine ⟨fun r c r' h => ?_⟩
  obtain ⟨b, r1, hrun, hrest⟩ := bind_ok h
  obtain ⟨l, hl, hK⟩ := hp.logged r b r1 hrun
  obtain ⟨l', hl', hK'⟩ := (hf b).logged r1 c r' hrest
  refine ⟨l' ++ l, by rw [hl', hl, List.append_assoc], fun q hq => ?_⟩
  rcases List.mem_append.mp hq with hq | hq
  · exact hK' q hq
  · exact hK q hq

instance {p : Prog σ α ε β} {f : β → Prog σ α ε γ} [Performs K p]
    [hf : ∀ b, Performs K (f b)] : Performs K (p >>= f) :=
  bind hf

instance ite {c : Prop} [Decidable c] {p q : Prog σ α ε β} [hp : Performs K p]
    [hq : Performs K q] : Performs K (if c then p else q) := by
  split
  · exact hp
  · exact hq

end Performs

end Recorder.Prog
