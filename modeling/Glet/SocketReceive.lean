import Mathlib.Algebra.Order.Ring.Int

/-!
# Receiving a message from a socket

`socket_receive` calls `recv` until the requested bytes have arrived. It leaves
the loop on -1, but a 0, which `recv` returns once the peer has closed, is added
to `rcvd` like any other count: the loop makes the same call again and gets 0
again. So it returns if and only if the peer does not close early
(`socketReceive_ends_iff`), and no caller ever sees a 0
(`socketReceive_size_or_error`).
-/

namespace Glet

/-- How `recv` answers on a connection, by the number of the call and the bytes
requested. -/
structure Peer where
  recv : Nat → Int → Int
  answers : ∀ k size, 0 < size →
    recv k size = -1 ∨ (0 < recv k size ∧ recv k size ≤ size) ∨ recv k size = 0
  /-- After the close nothing comes. -/
  closed : ∀ k size, 0 < size → recv k size = 0 → ∀ j size', k ≤ j → 0 < size' → recv j size' = 0
  /-- Only finitely many bytes are delivered. -/
  finite : ∃ last, ∀ k size, last ≤ k → 0 < size → recv k size ≤ 0

namespace Peer

variable {p : Peer} {size r : Int} {fuel k j : Nat}

/-! ## `socket_receive` -/

/-- The loop at call `k`, with at most `fuel` turns. -/
def receiveLoop (p : Peer) (size : Int) : Nat → Nat → Int → Option Int
  | 0, _, _ => none
  | fuel + 1, k, rcvd =>
      if rcvd < size then
        let got := p.recv k (size - rcvd)
        if got = -1 then some (-1)
        else receiveLoop p size fuel (k + 1) (rcvd + got)
      else some rcvd

def socketReceive (p : Peer) (size : Int) (fuel : Nat) : Option Int := p.receiveLoop size fuel 0 0

/-- `socket_receive` returns `r`. -/
def Returns (p : Peer) (size r : Int) : Prop := ∃ fuel, p.socketReceive size fuel = some r

/-! ## What arrives -/

/-- Bytes delivered by the first `k` calls, each for what is missing. -/
def received (p : Peer) (size : Int) : Nat → Int
  | 0 => 0
  | k + 1 => received p size k + p.recv k (size - received p size k)

/-- The answer to call `k`. -/
def answer (p : Peer) (size : Int) (k : Nat) : Int := p.recv k (size - p.received size k)

/-- The first `k` calls are made and all deliver. -/
def Flowing (p : Peer) (size : Int) (k : Nat) : Prop :=
  ∀ j < k, p.received size j < size ∧ 0 < p.answer size j

instance : Decidable (p.Flowing size k) :=
  inferInstanceAs (Decidable (∀ j < k, p.received size j < size ∧ 0 < p.answer size j))

/-- All bytes arrive. -/
def Arrives (p : Peer) (size : Int) : Prop :=
  ∃ k, p.Flowing size k ∧ p.received size k = size

/-- An error comes first. -/
def Fails (p : Peer) (size : Int) : Prop :=
  ∃ k, p.Flowing size k ∧ p.received size k < size ∧ p.answer size k = -1

/-- The peer closes first. -/
def ClosesEarly (p : Peer) (size : Int) : Prop :=
  ∃ k, p.Flowing size k ∧ p.received size k < size ∧ p.answer size k = 0

theorem received_succ : p.received size (k + 1) = p.received size k + p.answer size k := rfl

theorem Flowing.succ (h : p.Flowing size k) (hlt : p.received size k < size)
    (hpos : 0 < p.answer size k) : p.Flowing size (k + 1) := by
  intro j hj
  rcases Nat.lt_succ_iff_lt_or_eq.mp hj with hj | rfl
  · exact h j hj
  · exact ⟨hlt, hpos⟩

/-- Each call that delivers brings a byte at least. -/
theorem Flowing.le_received (h : p.Flowing size k) : (k : Int) ≤ p.received size k := by
  induction k with
  | zero => exact Int.le_refl 0
  | succ k ih =>
      have hlow := ih fun j hj => h j (by omega)
      have hpos := (h k (by omega)).2
      rw [received_succ]
      omega

/-- And no more than was asked for. -/
theorem Flowing.received_le (hsize : 0 < size) (h : p.Flowing size k) :
    p.received size k ≤ size := by
  cases k with
  | zero => exact hsize.le
  | succ k =>
      obtain ⟨hlt, hpos⟩ := h k (by omega)
      rw [received_succ]
      rcases p.answers k (size - p.received size k) (by omega) with herr | ⟨-, hle⟩ | hzero
      · exact absurd herr (by unfold answer at hpos; omega)
      · unfold answer
        omega
      · exact absurd hzero (by unfold answer at hpos; omega)

/-- One of the three ends every connection. -/
theorem ends (hsize : 0 < size) : p.Arrives size ∨ p.Fails size ∨ p.ClosesEarly size := by
  by_contra hnone
  rw [not_or, not_or] at hnone
  obtain ⟨harrives, hfails, hcloses⟩ := hnone
  have hflows : ∀ k, p.Flowing size k ∧ p.received size k < size := by
    intro k
    induction k with
    | zero => exact ⟨fun j hj => absurd hj (Nat.not_lt_zero j), hsize⟩
    | succ k ih =>
        obtain ⟨hflow, hlt⟩ := ih
        have hpos : 0 < p.answer size k := by
          rcases p.answers k (size - p.received size k) (by omega) with herr | ⟨hpos, -⟩ | hzero
          · exact absurd ⟨k, hflow, hlt, herr⟩ hfails
          · exact hpos
          · exact absurd ⟨k, hflow, hlt, hzero⟩ hcloses
        have hnext := hflow.succ hlt hpos
        refine ⟨hnext, lt_of_le_of_ne (hnext.received_le hsize) fun heq => ?_⟩
        exact harrives ⟨k + 1, hnext, heq⟩
  obtain ⟨hflow, hlt⟩ := hflows size.toNat
  have hlow := hflow.le_received
  omega

/-! ## Runs of the loop -/

/-- While bytes flow the loop adds them up. -/
theorem Flowing.loop (h : p.Flowing size k) :
    p.socketReceive size (fuel + k) = p.receiveLoop size fuel k (p.received size k) := by
  induction k generalizing fuel with
  | zero => rfl
  | succ k ih =>
      obtain ⟨hlt, hpos⟩ := h k (by omega)
      have hturns : fuel + (k + 1) = fuel + 1 + k := by omega
      rw [hturns, ih fun j hj => h j (by omega), receiveLoop, if_pos hlt]
      have hok : p.recv k (size - p.received size k) ≠ -1 := by
        unfold answer at hpos
        omega
      dsimp only
      rw [if_neg hok]
      rfl

/-- After the close the loop does not move. -/
theorem receiveLoop_closed (hlt : r < size) (hzero : ∀ j, k ≤ j → p.recv j (size - r) = 0) :
    p.receiveLoop size fuel k r = none := by
  induction fuel generalizing k with
  | zero => rfl
  | succ fuel ih =>
      rw [receiveLoop, if_pos hlt]
      dsimp only
      rw [hzero k (Nat.le_refl k), if_neg (by omega), Int.add_zero]
      exact ih fun j hj => hzero j (by omega)

/-- More turns do not change what is returned. -/
theorem receiveLoop_mono {fuel' : Nat} (hle : fuel ≤ fuel') {rcvd : Int}
    (h : p.receiveLoop size fuel k rcvd = some r) : p.receiveLoop size fuel' k rcvd = some r := by
  induction fuel generalizing fuel' k rcvd with
  | zero => cases h
  | succ fuel ih =>
      obtain ⟨fuel'', rfl⟩ : ∃ n, fuel' = n + 1 := ⟨fuel' - 1, by omega⟩
      unfold receiveLoop at h ⊢
      split
      case isTrue hlt =>
        rw [if_pos hlt] at h
        dsimp only at h ⊢
        split
        case isTrue herr => rw [if_pos herr] at h; exact h
        case isFalse hok =>
          rw [if_neg hok] at h
          exact ih (by omega) h
      case isFalse hge => rw [if_neg hge] at h; exact h

theorem Returns.unique {r' : Int} (h : p.Returns size r) (h' : p.Returns size r') : r = r' := by
  obtain ⟨fuel, hrun⟩ := h
  obtain ⟨fuel', hrun'⟩ := h'
  have hlong := receiveLoop_mono (Nat.le_max_left fuel fuel') hrun
  have hlong' := receiveLoop_mono (Nat.le_max_right fuel fuel') hrun'
  exact Option.some.inj (hlong.symm.trans hlong')

theorem Arrives.returns (h : p.Arrives size) : p.Returns size size := by
  obtain ⟨k, hflow, hall⟩ := h
  refine ⟨1 + k, ?_⟩
  rw [hflow.loop, receiveLoop, hall, if_neg (lt_irrefl size)]

theorem Fails.returns (h : p.Fails size) : p.Returns size (-1) := by
  obtain ⟨k, hflow, hlt, herr⟩ := h
  refine ⟨1 + k, ?_⟩
  rw [hflow.loop, receiveLoop, if_pos hlt]
  exact if_pos herr

theorem ClosesEarly.never (h : p.ClosesEarly size) : ¬ p.Returns size r := by
  rintro ⟨fuel, hrun⟩
  obtain ⟨k, hflow, hlt, hzero⟩ := h
  have hstuck : p.receiveLoop size fuel k (p.received size k) = none := by
    refine receiveLoop_closed hlt fun j hj => ?_
    exact p.closed k _ (by omega) hzero j _ hj (by omega)
  have hlong : p.socketReceive size (fuel + k) = some r :=
    receiveLoop_mono (Nat.le_add_right fuel k) hrun
  rw [hflow.loop, hstuck] at hlong
  cases hlong

/-- **Receiving.** `socket_receive` returns, and returns `size` exactly when that
many bytes arrive before any error or close, if and only if the peer does not
close before it has sent them or an error came. -/
theorem socketReceive_ends_iff (p : Peer) (size : Int) (hsize : 0 < size) :
    (∃ r, p.Returns size r ∧ (r = size ↔ p.Arrives size)) ↔ ¬ p.ClosesEarly size := by
  constructor
  · rintro ⟨r, hreturns, -⟩ hcloses
    exact hcloses.never hreturns
  · intro hopen
    rcases p.ends hsize with harrives | hfails | hcloses
    · exact ⟨size, harrives.returns, fun _ => harrives, fun _ => rfl⟩
    · refine ⟨-1, hfails.returns, fun heq => by omega, fun harrives => ?_⟩
      exact hfails.returns.unique harrives.returns
    · exact absurd hcloses hopen

/-- A peer that closes at once. -/
def closing : Peer where
  recv := fun _ _ => 0
  answers := fun _ _ _ => Or.inr (Or.inr rfl)
  closed := fun _ _ _ _ _ _ _ _ => rfl
  finite := ⟨0, fun _ _ _ _ => Int.le_refl 0⟩

/-- A peer that sends one byte per call, four in all, and closes then. -/
def fourBytes : Peer where
  recv := fun k _ => if k < 4 then 1 else 0
  answers := fun k size hsize => by
    split
    · exact Or.inr (Or.inl ⟨by decide, by omega⟩)
    · exact Or.inr (Or.inr rfl)
  closed := fun k size _ hzero j size' hj _ => by
    have hlate : ¬ k < 4 := fun hlt => by rw [if_pos hlt] at hzero; omega
    rw [if_neg (by omega)]
  finite := ⟨4, fun k _ hk _ => by rw [if_neg (by omega)]⟩

/-- The four bytes of an `int`, one at a time. -/
theorem socketReceive_ends_int :
    ∃ r, fourBytes.Returns 4 r ∧ (r = 4 ↔ fourBytes.Arrives 4) := by
  have harrives : fourBytes.Arrives 4 := ⟨4, by decide, by decide⟩
  refine (socketReceive_ends_iff fourBytes 4 (by decide)).mpr fun hcloses => ?_
  exact hcloses.never harrives.returns

/-- A peer that closes before the first byte keeps the call from returning. -/
theorem socketReceive_closed :
    ¬ ∀ (p : Peer) (size : Int), 0 < size →
      ∃ r, p.Returns size r ∧ (r = size ↔ p.Arrives size) := by
  intro h
  obtain ⟨r, hreturns, -⟩ := h closing 4 (by decide)
  have hcloses : closing.ClosesEarly 4 := ⟨0, nofun, by decide, by decide⟩
  exact hcloses.never hreturns

/-! ## What a caller can see -/

/-- The result is the size or -1: a caller that takes 0 for a closed connection
does not see one. -/
theorem socketReceive_size_or_error (hsize : 0 < size) (h : p.Returns size r) :
    r = size ∨ r = -1 := by
  rcases p.ends hsize with harrives | hfails | hcloses
  · exact Or.inl (h.unique harrives.returns)
  · exact Or.inr (h.unique hfails.returns)
  · exact absurd h hcloses.never

end Peer

end Glet
