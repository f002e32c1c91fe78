import Glet.Reach

/-!
# What the bisection of `getMaxBatch` finds

`maxBatchLoop_boundary` says where the bisection ends for any test: at a batch
size that passes (or 0), below one that does not, or below `_MAX_BATCH`, which
no turn ever tries. For a latency that grows with the batch this makes the
result the largest batch size within the SLO except when `_MAX_BATCH` itself is
within it; `maxBatchLoop_zero_iff` says when the search finds nothing for a
latency of any shape, which is when the "corner checking" branch runs.
-/

namespace Glet

namespace Scheduler

variable {s : Scheduler} {id SLO req : Int} {node : Node} {sim : SimState} {interference : Bool}
  {latencyAt : Int → Query ℚ} {fits : ℚ → Int → Bool} {lat : Int → ℚ}

/-- The lookups answer for the batch sizes from 1 to `_MAX_BATCH`. -/
def Answers (latencyAt : Int → Query ℚ) (lat : Int → ℚ) : Prop :=
  ∀ b, 1 ≤ b → b ≤ maxBatch → latencyAt b = .ok (lat b)

/-! ## Where the bisection ends -/

/-- The interval of a turn: its ends are two apart or both are 1, `low` is 1
or passes, and the batch size the interval excludes does not pass. The
interval excludes `high`, or 2 once both ends are 1; `_MAX_BATCH` is taken as
the first `high` without a test. -/
structure Bracket (pass : Int → Bool) (low high : Int) : Prop where
  low_pos : 1 ≤ low
  high_le : high ≤ maxBatch
  gap : low + 2 ≤ high ∨ (low = 1 ∧ high = 1)
  lower : low = 1 ∨ pass low = true
  upper : pass (max high 2) = false ∨ high = maxBatch

/-- A result of the bisection: 0 or a batch size that passes, with the next
batch size either failing or never tried. -/
structure Boundary (pass : Int → Bool) (b : Int) : Prop where
  nonneg : 0 ≤ b
  lt : b < maxBatch
  passes : b = 0 ∨ pass b = true
  next : pass (b + 1) = false ∨ b + 1 = maxBatch

/-- The interval the search starts with. -/
theorem bracket_start (pass : Int → Bool) : Bracket pass 1 maxBatch :=
  ⟨le_rfl, le_rfl, Or.inl (by decide), Or.inl rfl, Or.inr rfl⟩

/-- A turn whose middle passes: it is the batch size below `high`, or `low`
moves up to it. -/
theorem maxBatchLoop_passed (hlat : Answers latencyAt lat) {fuel : Nat} {low high : Int}
    (hin : Bracket (fun b => fits (lat b) b) low high)
    (hpass : fits (lat ((high + low) / 2)) ((high + low) / 2) = true) :
    (maxBatchLoop latencyAt fits (fuel + 1) low high = .ok ((high + low) / 2) ∧
        Boundary (fun b => fits (lat b) b) ((high + low) / 2)) ∨
      (maxBatchLoop latencyAt fits (fuel + 1) low high =
          maxBatchLoop latencyAt fits fuel ((high + low) / 2) high ∧
        low < (high + low) / 2 ∧ Bracket (fun b => fits (lat b) b) ((high + low) / 2) high) := by
  obtain ⟨hlow, hhigh, hgap, hlower, hupper⟩ := hin
  set mid := (high + low) / 2 with hmid
  have hv : latencyAt mid = .ok (lat mid) := hlat mid (by omega) (by omega)
  simp only [maxBatchLoop, ← hmid, hv, bind, Except.bind]
  rw [if_pos hpass]
  rcases hgap with hgap | ⟨rfl, rfl⟩
  · by_cases hnext : high - mid ≤ 1
    · have hup : max high 2 = mid + 1 := by omega
      rw [hup] at hupper
      rw [if_pos hnext, if_pos ⟨rfl, Or.inl (by omega)⟩]
      refine Or.inl ⟨rfl, by omega, by omega, Or.inr hpass, ?_⟩
      rcases hupper with hup | hup
      · exact Or.inl hup
      · exact Or.inr (by omega)
    · rw [if_neg hnext, if_neg (by omega)]
      exact Or.inr ⟨rfl, by omega, by omega, hhigh, Or.inl (by omega), Or.inr hpass, hupper⟩
  · have hone : mid = 1 := by omega
    rw [hone] at hpass ⊢
    refine Or.inl ⟨rfl, by decide, by decide, Or.inr hpass, ?_⟩
    rcases hupper with hup | hup
    · exact Or.inl hup
    · cases hup

/-- A turn whose middle fails: there is nothing below it to try, or `high`
moves down to it, or to 1 where only 1 is left. -/
theorem maxBatchLoop_failed (hlat : Answers latencyAt lat) {fuel : Nat} {low high : Int}
    (hin : Bracket (fun b => fits (lat b) b) low high)
    (hfail : fits (lat ((high + low) / 2)) ((high + low) / 2) = false) :
    (∃ b, maxBatchLoop latencyAt fits (fuel + 1) low high = .ok b ∧
        Boundary (fun b => fits (lat b) b) b ∧ (low ≠ 1 → low ≤ b)) ∨
      ∃ high', maxBatchLoop latencyAt fits (fuel + 1) low high =
          maxBatchLoop latencyAt fits fuel low high' ∧
        high' < high ∧ Bracket (fun b => fits (lat b) b) low high' := by
  obtain ⟨hlow, hhigh, hgap, hlower, hupper⟩ := hin
  set mid := (high + low) / 2 with hmid
  have hv : latencyAt mid = .ok (lat mid) := hlat mid (by omega) (by omega)
  simp only [maxBatchLoop, ← hmid, hv, bind, Except.bind]
  rw [if_neg (by rw [hfail]; exact Bool.false_ne_true)]
  rcases hgap with hgap | ⟨rfl, rfl⟩
  · have hlast : (low == 1 && high == 1) = false := by
      simp only [Bool.and_eq_false_iff, beq_eq_false_iff_ne]
      omega
    rw [hlast, if_neg Bool.false_ne_true]
    by_cases hnext : mid - low ≤ 1
    · have hmid' : mid = low + 1 := by omega
      rw [if_pos hnext]
      rcases eq_or_ne low 1 with rfl | hne
      · -- Only 1 is left: it is tried once more, with `check_last` set.
        rw [if_neg (fun h => h.2 rfl)]
        have hup : fits (lat (max 1 2)) (max 1 2) = false := by
          simpa [hmid'] using hfail
        exact Or.inr ⟨1, rfl, by omega, le_rfl, by decide, Or.inr ⟨rfl, rfl⟩, Or.inl rfl,
          Or.inl hup⟩
      · rw [if_pos ⟨rfl, hne⟩]
        refine Or.inl ⟨low, rfl, ⟨by omega, by omega, Or.inr (hlower.resolve_left hne), Or.inl ?_⟩,
          fun _ => le_rfl⟩
        rw [← hmid']
        exact hfail
    · have hup : max mid 2 = mid := by omega
      rw [if_neg hnext, if_neg (by omega)]
      refine Or.inr ⟨mid, rfl, by omega, hlow, by omega, Or.inl (by omega), hlower, Or.inl ?_⟩
      rw [hup]
      exact hfail
  · have hone : mid = 1 := by omega
    rw [hone] at hfail
    exact Or.inl ⟨0, rfl, ⟨le_rfl, by decide, Or.inl rfl, Or.inl hfail⟩, fun h => absurd rfl h⟩

/-- The search ends, for a latency of any shape. The interval gets shorter
each turn, so as many turns as there are batch sizes are enough. -/
theorem maxBatchLoop_boundary (hlat : Answers latencyAt lat) {fuel : Nat} {low high : Int}
    (hin : Bracket (fun b => fits (lat b) b) low high) (hfuel : high - low < fuel) :
    ∃ b, maxBatchLoop latencyAt fits fuel low high = .ok b ∧
      Boundary (fun b => fits (lat b) b) b ∧ (low ≠ 1 → low ≤ b) := by
  induction fuel generalizing low high with
  | zero =>
      have hgap := hin.gap
      omega
  | succ fuel ih =>
      have hlow := hin.low_pos
      have hgap := hin.gap
      cases hmid : fits (lat ((high + low) / 2)) ((high + low) / 2) with
      | true =>
          rcases maxBatchLoop_passed hlat hin hmid with ⟨heq, hbound⟩ | ⟨heq, hup, hnext⟩
          · exact ⟨_, heq, hbound, fun _ => by omega⟩
          · obtain ⟨b, hb, hbound, hge⟩ := ih hnext (by omega)
            have hmb := hge (by omega)
            exact ⟨b, heq.trans hb, hbound, fun _ => by omega⟩
      | false =>
          rcases maxBatchLoop_failed hlat hin hmid with hend | ⟨high', heq, hdown, hnext⟩
          · exact hend
          · obtain ⟨b, hb, hbound, hge⟩ := ih hnext (by omega)
            exact ⟨b, heq.trans hb, hbound, hge⟩

/-- One halving of the search for a batch size: with `low` at 1, nothing is
found iff the middle fails and nothing is found below it. -/
theorem maxBatchLoop_zero_step (hlat : Answers latencyAt lat) (fuel : Nat) (m : Int)
    (hin : Bracket (fun b => fits (lat b) b) 1 (2 * m)) (hm : 2 ≤ m) (hfuel : m < fuel) :
    maxBatchLoop latencyAt fits (fuel + 1) 1 (2 * m) = .ok 0 ↔
      fits (lat m) m = false ∧
        maxBatchLoop latencyAt fits fuel 1 (if m = 2 then 1 else m) = .ok 0 := by
  have hmid : (2 * m + 1) / 2 = m := by omega
  have hle := hin.high_le
  have hv : latencyAt m = .ok (lat m) := hlat m (by omega) (by omega)
  simp only [maxBatchLoop, hmid, hv, bind, Except.bind]
  cases hpass : fits (lat m) m with
  | true =>
      rw [if_pos rfl, if_neg (by omega), if_neg (by omega)]
      have hupper : Bracket (fun b => fits (lat b) b) m (2 * m) :=
        ⟨by omega, hle, Or.inl (by omega), Or.inr hpass, hin.upper⟩
      have hgap : 2 * m - m < fuel := by omega
      obtain ⟨b, hb, -, hge⟩ := maxBatchLoop_boundary hlat hupper hgap
      have hmb := hge (by omega)
      rw [hb]
      simp only [Except.ok.injEq, Bool.true_eq_false, false_and, iff_false]
      omega
  | false =>
      have hlast : ((1 : Int) == 1 && 2 * m == 1) = false := by
        simp only [Bool.and_eq_false_iff, beq_eq_false_iff_ne]
        omega
      have hhigh : (if m - 1 ≤ 1 then 1 else m) = if m = 2 then 1 else m := by
        split_ifs <;> omega
      rw [if_neg Bool.false_ne_true, hlast, if_neg Bool.false_ne_true, hhigh,
        if_neg (fun h => h.2 rfl)]
      exact (and_iff_right rfl).symm

/-- The search finds nothing iff none of the powers of two below `_MAX_BATCH`
passes: these are what it tries as long as nothing passes. -/
theorem maxBatchLoop_zero_iff (hlat : Answers latencyAt lat) :
    maxBatchLoop latencyAt fits maxBatch.toNat 1 maxBatch = .ok 0 ↔
      ∀ b ∈ ([16, 8, 4, 2, 1] : List Int), fits (lat b) b = false := by
  have hdown : ∀ {m : Int}, 3 ≤ m → m ≤ maxBatch → fits (lat m) m = false →
      Bracket (fun b => fits (lat b) b) 1 m := fun {m} hm hle hfail =>
    ⟨le_rfl, hle, Or.inl (by omega), Or.inl rfl,
      Or.inl (by rw [max_eq_left (by omega)]; exact hfail)⟩
  have h16 := maxBatchLoop_zero_step hlat 31 16
    (bracket_start fun b => fits (lat b) b) (by decide) (by decide)
  have h8 := fun hfail => maxBatchLoop_zero_step hlat 30 8
    (hdown (by decide) (by decide) hfail) (by decide) (by decide)
  have h4 := fun hfail => maxBatchLoop_zero_step hlat 29 4
    (hdown (by decide) (by decide) hfail) (by decide) (by decide)
  have h2 := fun hfail => maxBatchLoop_zero_step hlat 28 2
    (hdown (by decide) (by decide) hfail) (by decide) (by decide)
  have h1 : maxBatchLoop latencyAt fits 28 1 1 = .ok 0 ↔ fits (lat 1) 1 = false := by
    have hv : latencyAt 1 = .ok (lat 1) := hlat 1 le_rfl (by decide)
    cases hpass : fits (lat 1) 1 <;>
      simp [maxBatchLoop, hv, hpass, bind, Except.bind, pure, Except.pure]
  constructor
  · intro h
    obtain ⟨f16, h⟩ := h16.mp h
    obtain ⟨f8, h⟩ := (h8 f16).mp h
    obtain ⟨f4, h⟩ := (h4 f8).mp h
    obtain ⟨f2, h⟩ := (h2 f4).mp h
    simpa [f16, f8, f4, f2] using h1.mp h
  · intro h
    have f16 := h 16 (by simp)
    have f8 := h 8 (by simp)
    have f4 := h 4 (by simp)
    have f2 := h 2 (by simp)
    exact h16.mpr ⟨f16, (h8 f16).mpr ⟨f8, (h4 f8).mpr ⟨f4, (h2 f4).mpr
      ⟨f2, h1.mpr (h 1 (by simp))⟩⟩⟩⟩

/-! ## `getMaxBatch` -/

/-- The search of `getMaxBatch` ends. -/
theorem getMaxBatch_search (SLO req : Int)
    (hlat : Answers (s.latencyFor id node sim interference) lat) (isResidue : Bool) :
    ∃ b, maxBatchLoop (s.latencyFor id node sim interference) (batchFits SLO req isResidue)
        maxBatch.toNat 1 maxBatch = .ok b ∧
      Boundary (fun b => batchFits SLO req isResidue (lat b) b) b := by
  have hfuel : maxBatch - 1 < (maxBatch.toNat : Int) := by decide
  obtain ⟨b, hb, hbound, -⟩ := maxBatchLoop_boundary hlat
    (bracket_start fun b => batchFits SLO req isResidue (lat b) b) hfuel
  exact ⟨b, hb, hbound⟩

/-- The search, with `batchFits` for the test of its turns, and what follows it. -/
theorem getMaxBatch_eq (isResidue : Bool) :
    s.getMaxBatch id SLO node sim req isResidue interference =
      (maxBatchLoop (s.latencyFor id node sim interference) (batchFits SLO req isResidue)
        maxBatch.toNat 1 maxBatch >>= fun batch =>
          if batch = 0 ∧ isResidue then do
            let b1 ← s.getLatencyOn node.type id 1 node sim
            if (req = 0 ∨ b1 < 1000 / req) ∧ b1 < SLO then
              return (1, toInt (1000 / (SLO - b1) * s.latencyRatio))
            else return (0, req)
          else return (batch, req)) := rfl

/-- Without the corner case the result is what the search has found. -/
theorem getMaxBatch_of_search {isResidue : Bool} {b : Int}
    (hb : maxBatchLoop (s.latencyFor id node sim interference) (batchFits SLO req isResidue)
      maxBatch.toNat 1 maxBatch = .ok b) (hplain : ¬ (b = 0 ∧ isResidue = true)) :
    s.getMaxBatch id SLO node sim req isResidue interference = .ok (b, req) := by
  rw [getMaxBatch_eq, hb]
  exact if_neg hplain

/-- The corner case, when the search has found nothing. -/
theorem getMaxBatch_corner {b1 : ℚ}
    (hb : maxBatchLoop (s.latencyFor id node sim interference) (batchFits SLO req true)
      maxBatch.toNat 1 maxBatch = .ok 0)
    (hb1 : s.getLatencyOn node.type id 1 node sim = .ok b1) (hreq : 0 < req) :
    s.getMaxBatch id SLO node sim req true interference =
      .ok (if b1 < 1000 / req ∧ b1 < SLO then
        (1, toInt (1000 / (SLO - b1) * s.latencyRatio)) else (0, req)) := by
  have hzero : req ≠ 0 := ne_of_gt hreq
  rw [getMaxBatch_eq, hb]
  simp only [bind, Except.bind, hb1, hzero, false_or, and_self, if_true]
  split <;> rfl

/-! ### Maximality -/

/-- `b` is the largest batch size that passes, and 0 if none does. -/
def IsLargest (passes : Int → Prop) (b : Int) : Prop :=
  (b = 0 ∧ ∀ c, 1 ≤ c → c ≤ maxBatch → ¬ passes c) ∨
    (1 ≤ b ∧ b ≤ maxBatch ∧ passes b ∧ ∀ c, 1 ≤ c → c ≤ maxBatch → passes c → c ≤ b)

/-- Passing is inherited by smaller batch sizes. -/
def Downward (passes : Int → Prop) : Prop :=
  ∀ b c, 1 ≤ b → b ≤ c → c ≤ maxBatch → passes c → passes b

/-- A boundary is the largest batch size that passes unless `_MAX_BATCH`
passes, which it never is. -/
theorem Boundary.isLargest_iff {pass : Int → Bool} {b : Int} (h : Boundary pass b)
    (hdown : Downward fun c => pass c = true) :
    IsLargest (fun c => pass c = true) b ↔ ¬ pass maxBatch = true := by
  obtain ⟨hnonneg, hlt, hpass, hnext⟩ := h
  constructor
  · rintro (⟨-, hnone⟩ | ⟨-, -, -, hmax⟩) htop
    · exact hnone maxBatch (by decide) le_rfl htop
    · have hle := hmax maxBatch (by decide) le_rfl htop
      omega
  · intro htop
    have hfail : pass (b + 1) = false := by
      rcases hnext with hfail | hlast
      · exact hfail
      · rw [hlast]
        simpa using htop
    have hmax : ∀ c, 1 ≤ c → c ≤ maxBatch → pass c = true → c ≤ b := by
      intro c hc hle hpc
      by_contra hgt
      have hup : pass (b + 1) = true := hdown (b + 1) c (by omega) (by omega) hle hpc
      rw [hfail] at hup
      cases hup
    rcases eq_or_ne b 0 with rfl | hne
    · refine Or.inl ⟨rfl, fun c hc hle hpc => ?_⟩
      have := hmax c hc hle hpc
      omega
    · exact Or.inr ⟨by omega, hlt.le, hpass.resolve_left hne, hmax⟩

/-- A saturated gpu-let waits for one batch while it executes another. -/
theorem batchFits_saturated {latency : ℚ} {batch : Int} :
    batchFits SLO req false latency batch = true ↔ 2 * latency ≤ SLO := by
  simp [batchFits]

theorem batchFits_residue (hreq : 0 < req) {latency : ℚ} {batch : Int} :
    batchFits SLO req true latency batch = true ↔ latency + 1000 * batch / req ≤ SLO := by
  simp only [batchFits, if_true, residueFits_iff]
  exact and_iff_right (ne_of_gt hreq)

/-- A latency that does not fall with the batch size makes both tests
downward closed. -/
theorem batchFits_downward (hmono : ∀ b c, 1 ≤ b → b ≤ c → c ≤ maxBatch → lat b ≤ lat c)
    (hreq : 0 < req) (isResidue : Bool) :
    Downward fun c => batchFits SLO req isResidue (lat c) c = true := by
  intro b c hb hbc hc hfits
  have hle := hmono b c hb hbc hc
  cases isResidue with
  | false =>
      have hslo := batchFits_saturated.mp hfits
      exact batchFits_saturated.mpr (by linarith)
  | true =>
      have hslo := (batchFits_residue hreq).mp hfits
      have hq : (0 : ℚ) < req := by exact_mod_cast hreq
      have hbq : (b : ℚ) ≤ c := by exact_mod_cast hbc
      have hper : 1000 * (b : ℚ) / req ≤ 1000 * c / req := by gcongr
      exact (batchFits_residue hreq).mpr (by linarith)

/-- For a latency that does not fall with the batch size `getMaxBatch` answers
with the largest batch size within the SLO exactly when `_MAX_BATCH` is not
within it. -/
theorem getMaxBatch_largest_iff (hlat : Answers (s.latencyFor id node sim interference) lat)
    (hmono : ∀ b c, 1 ≤ b → b ≤ c → c ≤ maxBatch → lat b ≤ lat c) (hreq : 0 < req) :
    ((∃ b, s.getMaxBatch id SLO node sim req false interference = .ok (b, req) ∧
        IsLargest (fun c => 2 * lat c ≤ SLO) b) ↔ ¬ 2 * lat maxBatch ≤ SLO) ∧
      (((∃ c, 1 ≤ c ∧ c ≤ maxBatch ∧ lat c + 1000 * c / req ≤ SLO) →
        ∃ b, s.getMaxBatch id SLO node sim req true interference = .ok (b, req) ∧
          IsLargest (fun c => lat c + 1000 * c / req ≤ SLO) b) ↔
        ¬ lat maxBatch + 1000 * maxBatch / req ≤ SLO) := by
  constructor
  · obtain ⟨b, hb, hbound⟩ := getMaxBatch_search SLO req hlat false
    have hrun := getMaxBatch_of_search hb (by simp)
    have hiff := hbound.isLargest_iff (batchFits_downward hmono hreq false)
    simp only [batchFits_saturated] at hiff
    rw [← hiff, hrun]
    constructor
    · rintro ⟨b', heq, hlargest⟩
      obtain ⟨rfl, -⟩ := Prod.mk.injEq .. |>.mp (Except.ok.inj heq)
      exact hlargest
    · exact fun hlargest => ⟨b, rfl, hlargest⟩
  · obtain ⟨b, hb, hbound⟩ := getMaxBatch_search SLO req hlat true
    have hiff := hbound.isLargest_iff (batchFits_downward hmono hreq true)
    simp only [batchFits_residue hreq] at hiff
    rw [← hiff]
    rcases eq_or_ne b 0 with rfl | hne
    · -- Batch size 1 fails, so nothing passes.
      have hone : ¬ lat 1 + 1000 * ((1 : Int) : ℚ) / req ≤ SLO := by
        have hnext : batchFits SLO req true (lat 1) 1 = false :=
          hbound.next.resolve_right (by decide)
        rw [← batchFits_residue hreq, hnext]
        exact Bool.false_ne_true
      have hnone : ∀ c, 1 ≤ c → c ≤ maxBatch → ¬ lat c + 1000 * c / req ≤ SLO := by
        intro c hc hle hpass
        refine hone ((batchFits_residue hreq).mp ?_)
        exact batchFits_downward hmono hreq true 1 c le_rfl hc hle ((batchFits_residue hreq).mpr hpass)
      constructor
      · exact fun _ => Or.inl ⟨rfl, hnone⟩
      · rintro - ⟨c, hc, hle, hpass⟩
        exact absurd hpass (hnone c hc hle)
    · have hrun := getMaxBatch_of_search hb fun h => hne h.1
      have hpass := (batchFits_residue hreq).mp (hbound.passes.resolve_left hne)
      have hnonneg := hbound.nonneg
      have hlt := hbound.lt
      rw [hrun]
      constructor
      · intro h
        obtain ⟨b', heq, hlargest⟩ := h ⟨b, by omega, by omega, hpass⟩
        obtain ⟨rfl, -⟩ := Prod.mk.injEq .. |>.mp (Except.ok.inj heq)
        exact hlargest
      · exact fun hlargest _ => ⟨b, rfl, hlargest⟩

/-- Model 0 on an undivided GPU of a scheduler without overhead and
interference. -/
theorem plain_answers (latency : Int → Int → ℚ) (interference : Bool) :
    Answers ((plain (profile [100] latency) [100] 1).latencyFor 0 (makeEmptyNode 0 100 "gpu")
      ⟨[], []⟩ interference) fun b => latency b 100 := by
  intro b hlo hhi
  have hsolo : (plain (profile [100] latency) [100] 1).soloLatency "gpu" 0 b 100 =
      .ok (latency b 100) := by
    simp [soloLatency, getModelName, idToModelName, devLatency, batchOverhead, plain, profile, hlo,
      hhi, bind, Except.bind, pure, Except.pure]
  cases interference with
  | false =>
      rw [latencyFor, if_neg Bool.false_ne_true, getLatency, assert, if_pos (by decide), assert,
        if_pos ⟨hlo, hhi⟩]
      exact hsolo
  | true =>
      rw [latencyFor, if_pos rfl, getLatencyOn, assert, if_pos (by decide), assert, if_pos hlo]
      exact hsolo

/-- With `10 + b` ms and an SLO of 60 ms the largest batch size is 20. -/
theorem getMaxBatch_largest_at :
    ∃ b, (plain (profile [100] fun b _ => 10 + b) [100] 1).getMaxBatch 0 60
        (makeEmptyNode 0 100 "gpu") ⟨[], []⟩ 100 false false = .ok (b, 100) ∧
      IsLargest (fun c => 2 * (10 + (c : ℚ)) ≤ (60 : Int)) b := by
  refine (getMaxBatch_largest_iff (plain_answers (fun b _ => 10 + (b : ℚ)) false) ?_
    (by decide)).1.mpr (by norm_num [maxBatch])
  intro b c _ hbc _
  have hq : (b : ℚ) ≤ c := by exact_mod_cast hbc
  linarith

/-- With 2 ms at every batch size and an SLO of 100 ms all batch sizes are
within the SLO; the search stops at 31. -/
theorem getMaxBatch_misses_maxBatch :
    (plain (profile [100] fun _ _ => 2) [100] 1).getMaxBatch 0 100 (makeEmptyNode 0 100 "gpu")
      ⟨[], []⟩ 40 false false = .ok (31, 40) ∧
      ¬ IsLargest (fun _ => 2 * (2 : ℚ) ≤ (100 : Int)) 31 := by
  refine ⟨by decide +kernel, ?_⟩
  rintro (⟨hzero, -⟩ | ⟨-, -, -, hmax⟩)
  · cases hzero
  · exact absurd (hmax maxBatch (by decide) le_rfl (by norm_num)) (by decide)

/-! ### Soundness -/

/-- What a caller relies on when `getMaxBatch` returns `b` and leaves `req'`. -/
def MeetsSLO (lat : Int → ℚ) (SLO req : Int) (isResidue : Bool) (b req' : Int) : Prop :=
  b ≤ maxBatch ∧
    if isResidue then 0 < req' ∧ lat b + 1000 * b / req' ≤ SLO else 2 * lat b ≤ SLO ∧ req' = req

/-- The corner case is not entered, or leaves a rate that meets the SLO: a
whole number of requests per second fits between the rate whose period is
`SLO - latency(1)` and what `_latencyRatio` makes of it. -/
def CornerSound (lat : Int → ℚ) (b1 ratio : ℚ) (SLO req : Int) : Prop :=
  (∀ b ∈ ([16, 8, 4, 2, 1] : List Int), (SLO : ℚ) < lat b + 1000 * b / req) →
    b1 < 1000 / req → b1 < SLO →
      ∃ n : Int, 0 < n ∧ 1000 ≤ n * (SLO - lat 1) ∧ n * (SLO - b1) ≤ 1000 * ratio

/-- The rewritten rate meets the SLO with the latency `v` iff some whole rate
does that is no larger than the quotient it truncates. -/
theorem corner_rate_iff {v b1 ratio : ℚ} (hratio : 1 ≤ ratio) (hb1 : b1 < SLO) :
    (0 < toInt (1000 / (SLO - b1) * ratio) ∧
        v + 1000 * ((1 : Int) : ℚ) / toInt (1000 / (SLO - b1) * ratio) ≤ SLO) ↔
      ∃ n : Int, 0 < n ∧ 1000 ≤ n * (SLO - v) ∧ n * (SLO - b1) ≤ 1000 * ratio := by
  have hd : (0 : ℚ) < SLO - b1 := by linarith
  have hx : (0 : ℚ) ≤ 1000 / (SLO - b1) * ratio := by positivity
  rw [toInt_of_nonneg hx]
  have hmeets : ∀ n : Int, 0 < n →
      (v + 1000 * ((1 : Int) : ℚ) / n ≤ SLO ↔ 1000 ≤ n * (SLO - v)) := by
    intro n hn
    have hq : (0 : ℚ) < n := by exact_mod_cast hn
    rw [← le_sub_iff_add_le', div_le_iff₀ hq]
    push_cast
    rw [mul_one, mul_comm]
  have hfloor : ∀ n : Int, n ≤ ⌊1000 / (SLO - b1) * ratio⌋ ↔ n * (SLO - b1) ≤ 1000 * ratio := by
    intro n
    rw [Int.le_floor, div_mul_eq_mul_div, le_div_iff₀ hd]
  constructor
  · rintro ⟨hpos, hslo⟩
    exact ⟨_, hpos, (hmeets _ hpos).mp hslo, (hfloor _).mp le_rfl⟩
  · rintro ⟨n, hn, hslo, hle⟩
    have hn' := (hfloor n).mpr hle
    have hpos : 0 < ⌊1000 / (SLO - b1) * ratio⌋ := lt_of_lt_of_le hn hn'
    refine ⟨hpos, (hmeets _ hpos).mpr ?_⟩
    have hq : (0 : ℚ) < n := by exact_mod_cast hn
    have hnq : (n : ℚ) ≤ ⌊1000 / (SLO - b1) * ratio⌋ := by exact_mod_cast hn'
    have hv : (0 : ℚ) ≤ SLO - v := by
      by_contra hneg
      have hmul : (n : ℚ) * (SLO - v) < 0 := mul_neg_of_pos_of_neg hq (by linarith)
      linarith
    calc (1000 : ℚ) ≤ n * (SLO - v) := hslo
      _ ≤ ⌊1000 / (SLO - b1) * ratio⌋ * (SLO - v) := mul_le_mul_of_nonneg_right hnq hv

/-- `getMaxBatch` returns, and a positive batch size comes with a rate that
meets the SLO exactly when the corner case is sound. -/
theorem getMaxBatch_sound_iff {b1 : ℚ} {isResidue : Bool}
    (hlat : Answers (s.latencyFor id node sim interference) lat)
    (hb1 : s.getLatencyOn node.type id 1 node sim = .ok b1) (hreq : 0 < req) :
    (∃ b req', s.getMaxBatch id SLO node sim req isResidue interference = .ok (b, req') ∧
        (1 ≤ b → MeetsSLO lat SLO req isResidue b req')) ↔
      (isResidue = true → CornerSound lat b1 s.latencyRatio SLO req) := by
  obtain ⟨b, hb, hbound⟩ := getMaxBatch_search SLO req hlat isResidue
  have hnonneg := hbound.nonneg
  have hlt := hbound.lt
  cases isResidue with
  | false =>
      refine iff_of_true ⟨b, req, getMaxBatch_of_search hb (by simp), fun hone => ?_⟩ (by simp)
      have hpass := hbound.passes.resolve_left (by omega)
      exact ⟨by omega, batchFits_saturated.mp hpass, rfl⟩
  | true =>
      have hzero : maxBatchLoop (s.latencyFor id node sim interference) (batchFits SLO req true)
          maxBatch.toNat 1 maxBatch = .ok 0 ↔ ∀ c ∈ ([16, 8, 4, 2, 1] : List Int),
            batchFits SLO req true (lat c) c = false := maxBatchLoop_zero_iff hlat
      have hfail : ∀ c, batchFits SLO req true (lat c) c = false ↔
          (SLO : ℚ) < lat c + 1000 * c / req := fun c => by
        rw [← Bool.not_eq_true, batchFits_residue hreq, not_le]
      simp only [hfail] at hzero
      rw [show (true = true → CornerSound lat b1 s.latencyRatio SLO req) ↔
        CornerSound lat b1 s.latencyRatio SLO req from ⟨fun h => h rfl, fun h _ => h⟩]
      by_cases hnone : b = 0
      · subst hnone
        have hcorner := getMaxBatch_corner hb hb1 hreq
        rw [hcorner]
        split
        case isTrue hcond =>
            constructor
            · rintro ⟨b', req', heq, hmeets⟩ - - -
              obtain ⟨rfl, rfl⟩ := Prod.mk.injEq .. |>.mp (Except.ok.inj heq)
              exact (corner_rate_iff s.latencyRatio_ge hcond.2).mp (hmeets le_rfl).2
            · intro hsound
              have hn := hsound (hzero.mp hb) hcond.1 hcond.2
              exact ⟨1, _, rfl, fun _ =>
                ⟨by decide, (corner_rate_iff s.latencyRatio_ge hcond.2).mpr hn⟩⟩
        case isFalse hcond =>
            refine iff_of_true ⟨0, req, rfl, fun h => absurd h (by decide)⟩ ?_
            exact fun _ hper hslo => absurd ⟨hper, hslo⟩ hcond
      · refine iff_of_true ⟨b, req, getMaxBatch_of_search hb fun h => hnone h.1, fun hone => ?_⟩ ?_
        · have hpass := hbound.passes.resolve_left hnone
          exact ⟨by omega, hreq, (batchFits_residue hreq).mp hpass⟩
        · intro hall
          rw [hzero.mpr hall] at hb
          exact absurd (Except.ok.inj hb).symm hnone

/-- With 40 ms at every batch size, an SLO of 65 ms and 16 requests per second
the corner case leaves the rate 1000 / 25. -/
theorem getMaxBatch_sound_at :
    ∃ b req', (plain (profile [100] fun _ _ => 40) [100] 1).getMaxBatch 0 65
        (makeEmptyNode 0 100 "gpu") ⟨[], []⟩ 16 true false = .ok (b, req') ∧
      (1 ≤ b → MeetsSLO (fun _ => 40) 65 16 true b req') := by
  have hlat := plain_answers (fun _ _ => 40) true
  refine (getMaxBatch_sound_iff (plain_answers (fun _ _ => 40) false) (hlat 1 le_rfl (by decide))
    (by decide)).mpr fun _ _ _ _ => ⟨40, by decide, ?_, ?_⟩ <;> norm_num [plain]

/-- With 57 ms at every batch size, an SLO of 100 ms and 16 requests per second
the rate becomes 1000 / 43 cut to 23, whose period is too long. -/
theorem getMaxBatch_corner_misses :
    (plain (profile [100] fun _ _ => 57) [100] 1).getMaxBatch 0 100 (makeEmptyNode 0 100 "gpu")
      ⟨[], []⟩ 16 true false = .ok (1, 23) ∧
      ¬ MeetsSLO (fun _ => 57) 100 16 true 1 23 := by
  refine ⟨by decide +kernel, fun h => ?_⟩
  have hslo : (57 : ℚ) + 1000 * (1 : Int) / (23 : Int) ≤ (100 : Int) := h.2.2
  norm_num at hslo

end Scheduler

end Glet
