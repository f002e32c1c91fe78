import Glet.Base
import Mathlib.Tactic.Positivity
import Mathlib.Tactic.FieldSimp

/-!
# Latency queries and the batch-size search

What a successful query tells. Two properties of a latency model recur:
`PositiveLatency` (nothing runs in no time) and, for the scheduler with
interference off, that both overloads of `getLatency` answer with
`soloLatency`.

`getMaxBatch` is specified by its three ways to end (`MaxBatch`): the
bisection found a batch size that passes the test, the "corner checking"
branch answered 1 and changed the rate, or there is none.
-/

namespace Glet

/-! ## Inverting queries -/

namespace Query

variable {α β : Type}

theorem bind_ok {x : Query α} {f : α → Query β} {b : β} :
    (x >>= f) = .ok b ↔ ∃ a, x = .ok a ∧ f a = .ok b := by
  cases x <;> simp [bind, Except.bind]

theorem pure_ok {a b : α} : (pure a : Query α) = .ok b ↔ a = b := by
  simp [pure, Except.pure]

theorem ok_bind (a : α) (f : α → Query β) : ((Except.ok a : Query α) >>= f) = f a := rfl

end Query

theorem assert_ok {p : Prop} [Decidable p] {u : Unit} : assert p = .ok u ↔ p := by
  unfold assert
  split <;> simp_all

theorem fdiv_ok {a b q : ℚ} : fdiv a b = .ok q ↔ b ≠ 0 ∧ q = a / b := by
  unfold fdiv
  split <;> simp_all [eq_comm]

/-- A positive throughput of `batch` requests per `duty` ms, times `duty`. -/
theorem rate_mul_duty {batch duty : ℚ} (h : duty ≠ 0) : 1000 * batch / duty * duty = 1000 * batch :=
  div_mul_cancel₀ _ h

/-! ## Latencies -/

/-- Every latency of the profile is positive and batching takes no negative
time. -/
structure PositiveLatency (s : Scheduler) : Prop where
  latency : ∀ {type name batch part v},
    (s.nametoDevPerfModelTable type).getLatency name batch part = some v → 0 < v
  overhead_224 : ∀ batch, 0 ≤ s.batchLatency_3_224_224 batch
  overhead_300 : ∀ batch, 0 ≤ s.batchLatency_3_300_300 batch

/-- The profile has an answer at this partition size. -/
def Profiled (s : Scheduler) (part : Int) : Prop :=
  ∃ type name batch v, (s.nametoDevPerfModelTable type).getLatency name batch part = some v

namespace Scheduler

variable {s : Scheduler} {type : DeviceType} {id batch part SLO req : Int} {v : ℚ}
  {node : Node} {sim : SimState}

theorem devLatency_ok {name : Model} (h : s.devLatency type name batch part = .ok v) :
    (s.nametoDevPerfModelTable type).getLatency name batch part = some v := by
  unfold devLatency at h
  split at h <;> simp_all

theorem getLatency_ok (h : s.getLatency type id batch part = .ok v) :
    1 ≤ batch ∧ batch ≤ maxBatch ∧ s.soloLatency type id batch part = .ok v := by
  simp only [getLatency, Query.bind_ok, assert_ok] at h
  obtain ⟨-, -, -, ⟨hlo, hhi⟩, hsolo⟩ := h
  exact ⟨hlo, hhi, hsolo⟩

theorem profiled_of_soloLatency (h : s.soloLatency type id batch part = .ok v) :
    Profiled s part := by
  simp only [soloLatency, Query.bind_ok] at h
  obtain ⟨name, -, l, hl, -⟩ := h
  exact ⟨type, name, batch, l, devLatency_ok hl⟩

theorem getLatencyOn_batch (h : s.getLatencyOn type id batch node sim = .ok v) : 1 ≤ batch := by
  simp only [getLatencyOn, Query.bind_ok, assert_ok] at h
  obtain ⟨-, -, -, hbatch, -⟩ := h
  exact hbatch

theorem getLatencyOn_solo (hs : s.useInterference = false)
    (h : s.getLatencyOn type id batch node sim = .ok v) :
    s.soloLatency type id batch node.resourcePntg = .ok v := by
  simp only [getLatencyOn, Query.bind_ok, assert_ok, hs] at h
  obtain ⟨-, -, -, -, hsolo⟩ := h
  simpa using hsolo

/-- A decision without GPUs has no neighbours. -/
theorem getLatencyOn_nil {parts : List Int}
    (h : s.getLatencyOn type id batch node ⟨[], parts⟩ = .ok v) :
    s.soloLatency type id batch node.resourcePntg = .ok v := by
  cases hs : s.useInterference with
  | false => exact getLatencyOn_solo hs h
  | true =>
      simp only [getLatencyOn, Query.bind_ok, assert_ok, hs] at h
      obtain ⟨-, -, -, -, h⟩ := h
      simpa [soloLatency] using h

theorem latencyRatio_pos (s : Scheduler) : 0 < s.latencyRatio :=
  lt_of_lt_of_le one_pos s.latencyRatio_ge

section Positive

variable (hpos : PositiveLatency s)
include hpos

theorem getBatchLatency_nonneg {name : Model} (h : s.getBatchLatency name batch = .ok v) :
    0 ≤ v := by
  simp only [getBatchLatency, Query.bind_ok, Query.pure_ok] at h
  obtain ⟨-, -, -, -, rfl⟩ := h
  have h224 := hpos.overhead_224 batch
  have h300 := hpos.overhead_300 batch
  cases name <;> simp only <;> positivity

theorem batchOverhead_nonneg {name : Model} (h : s.batchOverhead name batch = .ok v) :
    0 ≤ v := by
  unfold batchOverhead at h
  split at h
  · exact getBatchLatency_nonneg hpos h
  · exact le_of_eq (Except.ok.inj h)

theorem soloLatency_pos (h : s.soloLatency type id batch part = .ok v) : 0 < v := by
  simp only [soloLatency, Query.bind_ok, Query.pure_ok] at h
  obtain ⟨name, -, l, hl, o, ho, rfl⟩ := h
  have hlpos := hpos.latency (devLatency_ok hl)
  have honn := batchOverhead_nonneg hpos ho
  exact mul_pos (by linarith) (latencyRatio_pos s)

end Positive

theorem maxInterference_ge {device : DeviceType} {aPart bPart : Int} {ts : List Task} {acc i : ℚ}
    (h : s.maxInterference device id batch aPart bPart ts acc = .ok i) : acc ≤ i := by
  induction ts generalizing acc with
  | nil => exact le_of_eq (Except.ok.inj h)
  | cons t ts ih =>
      simp only [maxInterference, Query.bind_ok] at h
      obtain ⟨j, -, h⟩ := h
      refine le_trans ?_ (ih h)
      split <;> linarith

theorem getInterference_ge {device : DeviceType} {ns : List Node} {acc i : ℚ}
    (h : s.getInterference device id batch node ns acc = .ok i) : acc ≤ i := by
  induction ns generalizing acc with
  | nil => exact le_of_eq (Except.ok.inj h)
  | cons n ns ih =>
      simp only [getInterference] at h
      split at h
      · exact ih h
      · simp only [Query.bind_ok] at h
        obtain ⟨j, hj, h⟩ := h
        exact le_trans (maxInterference_ge hj) (ih h)

theorem getLatencyOn_pos (hpos : PositiveLatency s)
    (h : s.getLatencyOn type id batch node sim = .ok v) : 0 < v := by
  cases hs : s.useInterference with
  | false => exact soloLatency_pos hpos (getLatencyOn_solo hs h)
  | true =>
      simp only [getLatencyOn, Query.bind_ok, hs, if_true] at h
      obtain ⟨-, -, -, -, name, -, l, hl, o, ho, h⟩ := h
      have hlpos := hpos.latency (devLatency_ok hl)
      have honn := batchOverhead_nonneg hpos ho
      have hratio := latencyRatio_pos s
      split at h
      · simp only [Query.bind_ok, Query.pure_ok] at h
        obtain ⟨i, hi, rfl⟩ := h
        have hone : 1 ≤ i := getInterference_ge hi
        have hextra : 0 ≤ l * (i - 1) := mul_nonneg hlpos.le (by linarith)
        exact mul_pos (by linarith) hratio
      · obtain rfl := Query.pure_ok.mp h
        exact mul_pos (by linarith) hratio

/-! ## The bisection -/

/-- A batch size passes the test at its own latency. -/
def Passes (latencyAt : Int → Query ℚ) (fits : ℚ → Int → Bool) (batch : Int) : Prop :=
  ∃ v, latencyAt batch = .ok v ∧ fits v batch = true

/-- The bisection ends at a batch size between 1 and `high` that passes, or
with 0 when batch size 1 does not. Its invariant: `low` is 1 or passes. -/
theorem maxBatchLoop_ok {latencyAt : Int → Query ℚ} {fits : ℚ → Int → Bool} {fuel : Nat}
    {low high b : Int} (h : maxBatchLoop latencyAt fits fuel low high = .ok b)
    (hlow : 1 ≤ low) (hle : low ≤ high) (hinv : low = 1 ∨ Passes latencyAt fits low) :
    (b = 0 ∧ ∃ v, latencyAt 1 = .ok v ∧ fits v 1 = false) ∨
      (1 ≤ b ∧ b ≤ high ∧ Passes latencyAt fits b) := by
  induction fuel generalizing low high with
  | zero => cases h
  | succ fuel ih =>
      simp only [maxBatchLoop, Query.bind_ok] at h
      obtain ⟨v, hv, h⟩ := h
      set mid := (high + low) / 2 with hmid
      have hlm : low ≤ mid := by omega
      have hmh : mid ≤ high := by omega
      by_cases hfit : fits v mid = true
      · rw [if_pos hfit] at h
        have hpass : Passes latencyAt fits mid := ⟨v, hv, hfit⟩
        generalize hH : (if high - mid ≤ 1 then mid else high) = H at h
        have hHle : mid ≤ H ∧ H ≤ high := by split at hH <;> omega
        split at h
        · obtain rfl := Query.pure_ok.mp h
          exact Or.inr ⟨by omega, hmh, hpass⟩
        · rcases ih h (by omega) hHle.1 (Or.inr hpass) with hzero | ⟨h1, h2, h3⟩
          · exact Or.inl hzero
          · exact Or.inr ⟨h1, by omega, h3⟩
      · rw [if_neg hfit] at h
        split at h
        case isTrue hlast =>
          obtain rfl := Query.pure_ok.mp h
          simp only [Bool.and_eq_true, beq_iff_eq] at hlast
          have hone : mid = 1 := by omega
          rw [hone] at hv hfit
          exact Or.inl ⟨rfl, v, hv, by simpa using hfit⟩
        case isFalse hlast =>
          generalize hH : (if mid - low ≤ 1 then low else mid) = H at h
          have hHle : low ≤ H ∧ H ≤ high := by split at hH <;> omega
          split at h
          case isTrue hret =>
            obtain rfl := Query.pure_ok.mp h
            exact Or.inr ⟨hlow, hle, hinv.resolve_left hret.2⟩
          case isFalse hret =>
            rcases ih h hlow hHle.1 hinv with hzero | ⟨h1, h2, h3⟩
            · exact Or.inl hzero
            · exact Or.inr ⟨h1, by omega, h3⟩

/-- The latency `getMaxBatch` looks up. -/
def latencyFor (s : Scheduler) (id : Int) (node : Node) (sim : SimState) (interference : Bool)
    (batch : Int) : Query ℚ :=
  if interference then s.getLatencyOn node.type id batch node sim
  else s.getLatency node.type id batch node.resourcePntg

/-- The test of `getMaxBatch`. -/
def batchFits (SLO req : Int) (isResidue : Bool) (latency : ℚ) (batch : Int) : Bool :=
  if isResidue then residueFits latency batch req SLO else decide (2 * latency ≤ SLO)

/-- The ways `getMaxBatch` can end. -/
inductive MaxBatch (s : Scheduler) (id SLO : Int) (node : Node) (sim : SimState) (req : Int)
    (isResidue interference : Bool) : Int → Int → Prop
  | found {b : Int} {v : ℚ} : 1 ≤ b → b ≤ maxBatch →
      latencyFor s id node sim interference b = .ok v → batchFits SLO req isResidue v b = true →
      MaxBatch s id SLO node sim req isResidue interference b req
  | corner {v b1 : ℚ} : isResidue = true →
      latencyFor s id node sim interference 1 = .ok v → batchFits SLO req true v 1 = false →
      s.getLatencyOn node.type id 1 node sim = .ok b1 →
      (req = 0 ∨ b1 < 1000 / req) → b1 < SLO →
      MaxBatch s id SLO node sim req isResidue interference 1
        (toInt (1000 / (SLO - b1) * s.latencyRatio))
  | none : MaxBatch s id SLO node sim req isResidue interference 0 req

theorem getMaxBatch_ok {isResidue interference : Bool} {b req' : Int}
    (h : s.getMaxBatch id SLO node sim req isResidue interference = .ok (b, req')) :
    MaxBatch s id SLO node sim req isResidue interference b req' := by
  simp only [getMaxBatch, Query.bind_ok] at h
  obtain ⟨b0, hloop, h⟩ := h
  have hspec := maxBatchLoop_ok hloop le_rfl (by decide) (Or.inl rfl)
  split at h
  case isTrue hcorner =>
    obtain ⟨rfl, hres⟩ := hcorner
    rcases hspec with ⟨-, v, hv, hfit⟩ | ⟨h1, -⟩
    · simp only [Query.bind_ok] at h
      obtain ⟨b1, hb1, h⟩ := h
      split at h
      case isTrue hcond =>
        obtain ⟨rfl, rfl⟩ := Prod.mk.injEq .. |>.mp (Query.pure_ok.mp h)
        rw [hres] at hfit
        exact .corner hres hv hfit hb1 hcond.1 hcond.2
      case isFalse hcond =>
        obtain ⟨rfl, rfl⟩ := Prod.mk.injEq .. |>.mp (Query.pure_ok.mp h)
        exact .none
    · omega
  case isFalse hcorner =>
    obtain ⟨rfl, rfl⟩ := Prod.mk.injEq .. |>.mp (Query.pure_ok.mp h)
    rcases hspec with ⟨rfl, -⟩ | ⟨h1, h2, v, hv, hfit⟩
    · exact .none
    · exact .found h1 h2 hv hfit

theorem MaxBatch.le_maxBatch {isResidue interference : Bool} {b req' : Int}
    (h : MaxBatch s id SLO node sim req isResidue interference b req') :
    0 ≤ b ∧ b ≤ maxBatch := by
  cases h with
  | found h1 h2 => exact ⟨by omega, h2⟩
  | corner => exact ⟨by omega, by decide⟩
  | none => exact ⟨le_rfl, by decide⟩

theorem residueFits_iff {latency : ℚ} :
    residueFits latency batch req SLO = true ↔
      req ≠ 0 ∧ latency + 1000 * batch / req ≤ SLO := by
  simp [residueFits]

/-- The corner case never lowers a rate: batch size 1 failed the test, so
`SLO - latency` is shorter than the period of a positive old rate. -/
theorem MaxBatch.rate_ge {isResidue interference : Bool} {b req' : Int}
    (h : MaxBatch s id SLO node sim req isResidue interference b req')
    (hsame : interference = true ∨ sim.vGPUList = []) : req ≤ req' := by
  cases h with
  | found => exact le_rfl
  | none => exact le_rfl
  | @corner v b1 hres hv hfit hb1 hlt hslo =>
      have hvb : v = b1 := by
        rcases hsame with rfl | hnil
        · simp only [latencyFor, if_true] at hv
          rw [hv] at hb1
          exact Except.ok.inj hb1
        · obtain ⟨gpus, parts⟩ := sim
          obtain rfl : gpus = [] := hnil
          have hsolo := getLatencyOn_nil hb1
          unfold latencyFor at hv
          split at hv
          · rw [hv] at hb1
            exact Except.ok.inj hb1
          · rw [(getLatency_ok hv).2.2] at hsolo
            exact Except.ok.inj hsolo
      subst hvb
      have hd : (0 : ℚ) < SLO - v := by linarith
      have hratio := latencyRatio_pos s
      have hnew : (0 : ℚ) ≤ 1000 / (SLO - v) * s.latencyRatio := by positivity
      rw [toInt_of_nonneg hnew, Int.le_floor]
      rcases le_or_gt req 0 with hreq | hreq
      · have : (req : ℚ) ≤ 0 := by exact_mod_cast hreq
        linarith
      have hq : (0 : ℚ) < req := by exact_mod_cast hreq
      have hnot : ¬ (v + 1000 * ((1 : Int) : ℚ) / req ≤ SLO) := by
        intro hle
        have : residueFits v 1 req SLO = true := residueFits_iff.mpr ⟨by omega, hle⟩
        simp only [batchFits, if_true] at hfit
        rw [this] at hfit
        cases hfit
      have hper : (SLO : ℚ) - v < 1000 / req := by
        push_cast at hnot
        linarith
      have hlt : (req : ℚ) < 1000 / (SLO - v) := by
        rw [lt_div_iff₀ hd]
        have := (lt_div_iff₀ hq).mp hper
        linarith
      have hpos : (0 : ℚ) ≤ 1000 / (SLO - v) := by positivity
      calc (req : ℚ) ≤ 1000 / (SLO - v) * 1 := by linarith
        _ ≤ 1000 / (SLO - v) * s.latencyRatio :=
          mul_le_mul_of_nonneg_left s.latencyRatio_ge hpos

end Scheduler

end Glet
