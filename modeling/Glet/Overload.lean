import Glet.AdjustRes
import Mathlib.Algebra.BigOperators.Intervals

/-!
# Does `adjustResNode` overload the node?

Every time a batch is shrunk by one, the duty cycle is multiplied with the
quotient of the new and the original batch size, on top of what earlier turns
made of it (`scaledDuty`). Latency does not fall that fast: at half the batch
it is rarely half. A node that had room for its latencies need not have room
for the new ones in the shortest of the new duty cycles.
-/

namespace Glet

namespace Scheduler

variable {s : Scheduler} {sim : SimState} {node : Node} {lat : Int → Int → ℚ} {t : Task}
  {other duty : ℚ}

/-- The duty cycle of a task once its batch was shrunk to `b`. -/
def scaledDuty (t : Task) (duty : ℚ) (b : Int) : ℚ :=
  duty * ∏ j ∈ Finset.Ico b.toNat t.batchSize.toNat, (j : ℚ) / t.batchSize

/-- Batch size `b` and its duty cycle keep the SLO of a task beside others that
take `other`. -/
def InTime (lat : Int → Int → ℚ) (t : Task) (other duty : ℚ) (b : Int) : Prop :=
  other + lat t.id b + scaledDuty t duty b ≤ t.SLO

/-- The largest batch size that keeps the SLO. -/
structure LargestInTime (lat : Int → Int → ℚ) (t : Task) (other duty : ℚ) (b : Int) : Prop where
  pos : 1 ≤ b
  le : b ≤ t.batchSize
  inTime : InTime lat t other duty b
  largest : ∀ c, b < c → c ≤ t.batchSize → ¬ InTime lat t other duty c

theorem scaledDuty_self : scaledDuty t duty t.batchSize = duty := by
  simp [scaledDuty]

theorem scaledDuty_pred {k : Nat} (hk : ((k + 1 : Nat) : Int) ≤ t.batchSize) :
    scaledDuty t duty ((k + 1 : Nat) : Int) * ((k : ℚ) / t.batchSize) =
      scaledDuty t duty (k : Int) := by
  have hlt : k < t.batchSize.toNat := by omega
  simp only [scaledDuty, Int.toNat_natCast]
  rw [Finset.prod_eq_prod_Ico_succ_bot hlt]
  ring

/-- The largest batch size is unique. -/
theorem LargestInTime.eq {b c : Int} (hb : LargestInTime lat t other duty b)
    (hc : LargestInTime lat t other duty c) : b = c := by
  rcases lt_trichotomy b c with hlt | heq | hgt
  · exact absurd hc.inTime (hb.largest c hlt hc.le)
  · exact heq
  · exact absurd hb.inTime (hc.largest b hgt hb.le)

/-! ## What the loops find -/

/-- Batch size and duty cycle found for a task. -/
structure Found (lat : Int → Int → ℚ) (t : Task) (other duty : ℚ) (p : Int × ℚ) : Prop where
  largest : LargestInTime lat t other duty p.1
  duty_eq : p.2 = scaledDuty t duty p.1

/-- From batch size `k` down, the inner loop finds the largest batch size that
keeps the SLO, if there is one. -/
theorem shrinkResBatch_eq {ts : List Task} (hl : TaskLatencies s node sim lat ts) (ht : t ∈ ts)
    (other duty : ℚ) (k : Nat) (hk : 1 ≤ k) (hkt : (k : Int) ≤ t.batchSize)
    (habove : ∀ c : Int, k < c → c ≤ t.batchSize → ¬ InTime lat t other duty c) :
    ∃ r, s.shrinkResBatch node sim t other k (lat t.id k) (scaledDuty t duty k) = .ok r ∧
      (∀ p, r = some p → Found lat t other duty p) ∧
      (r = none → ∀ b, ¬ LargestInTime lat t other duty b) := by
  induction k using Nat.strong_induction_on with
  | h k ih =>
      unfold shrinkResBatch
      split
      case isTrue hlate =>
        have hnot : ¬ InTime lat t other duty k := not_le.mpr hlate
        obtain rfl | ⟨k, rfl⟩ := eq_one_or_add_two hk
        · refine ⟨none, rfl, (fun p hp => by cases hp), fun _ b hb => ?_⟩
          rcases eq_or_lt_of_le hb.pos with rfl | hlt
          · exact hnot hb.inTime
          · exact habove b (by omega) hb.le hb.inTime
        · have hkt' : ((k + 1 : Nat) : Int) ≤ t.batchSize := by omega
          have hb0 : (0 : ℚ) < t.batchSize := by
            exact_mod_cast lt_of_lt_of_le one_pos (hl.batch_pos t ht)
          have hfdiv : fdiv ((k + 1 : Nat) : ℚ) t.batchSize = .ok ((k + 1 : Nat) / t.batchSize) :=
            fdiv_ok.mpr ⟨ne_of_gt hb0, rfl⟩
          simp only [hl.lookup t ht _ (by omega : (1 : Int) ≤ (k + 1 : Nat)) hkt', hfdiv, Query.ok_bind]
          rw [show ((k + 2 : Nat) : Int) = ((k + 1 + 1 : Nat) : Int) from rfl, scaledDuty_pred hkt]
          refine ih (k + 1) (by omega) (by omega) hkt' fun c hc hct => ?_
          rcases eq_or_ne c (k + 2 : Nat) with rfl | hne
          · exact hnot
          · exact habove c (by omega) hct
      case isFalse hmeets =>
        refine ⟨_, rfl, fun p hp => ?_, fun h => by cases h⟩
        obtain rfl := Option.some.inj hp
        exact ⟨⟨by simpa using hk, hkt, not_lt.mp hmeets, habove⟩, rfl⟩

/-- All tasks: a batch size and a duty cycle for each, or one of them has no
batch size that keeps its SLO. -/
theorem shrinkResTasks_eq {ts : List Task} (hl : TaskLatencies s node sim lat ts) (sum : ℚ) :
    ∃ r, s.shrinkResTasks node sim sum ts = .ok r ∧
      (∀ rs, r = some rs → List.Forall₂
        (fun t p => Found lat t (sum - lat t.id t.batchSize) (s.dutyOf node) p) ts rs) ∧
      (r = none → ∃ t ∈ ts, ∀ b,
        ¬ LargestInTime lat t (sum - lat t.id t.batchSize) (s.dutyOf node) b) := by
  induction ts with
  | nil =>
      refine ⟨some [], rfl, fun rs hrs => ?_, fun h => by cases h⟩
      obtain rfl := Option.some.inj hrs
      exact .nil
  | cons t ts ih =>
      have hmem := List.mem_cons_self (a := t) (l := ts)
      have hbatch := hl.batch_pos t hmem
      have hnat : ((t.batchSize.toNat : Nat) : Int) = t.batchSize := Int.toNat_of_nonneg (by omega)
      obtain ⟨r, hr, hsome, hnone⟩ := shrinkResBatch_eq hl hmem (sum - lat t.id t.batchSize)
        (s.dutyOf node) t.batchSize.toNat (by omega) (le_of_eq hnat)
        fun c hc hct => absurd hct (by omega)
      rw [hnat, scaledDuty_self] at hr
      obtain ⟨rest, hrest, hall, hstuck⟩ := ih hl.tail
      simp only [shrinkResTasks, hl.lookup t hmem _ hbatch le_rfl, Query.ok_bind, hr, hrest]
      cases r with
      | none => exact ⟨none, rfl, (fun rs hrs => by cases hrs), fun _ => ⟨t, hmem, hnone rfl⟩⟩
      | some p =>
          cases rest with
          | none =>
              refine ⟨none, rfl, (fun rs hrs => by cases hrs), fun _ => ?_⟩
              obtain ⟨u, hu, hno⟩ := hstuck rfl
              exact ⟨u, List.mem_cons_of_mem t hu, hno⟩
          | some ps =>
              refine ⟨some (p :: ps), rfl, fun rs hrs => ?_, fun h => by cases h⟩
              obtain rfl := Option.some.inj hrs
              exact .cons (hsome p rfl) (hall ps rfl)

/-! ## The shortest duty cycle -/

theorem le_foldl_min_iff {l : List ℚ} {x y : ℚ} :
    x ≤ l.foldl min y ↔ x ≤ y ∧ ∀ z ∈ l, x ≤ z := by
  induction l generalizing y with
  | nil => simp
  | cons z l ih =>
      rw [List.foldl_cons, ih, le_min_iff, List.forall_mem_cons, and_assoc]

theorem le_minDuty_iff {rs : List (Int × ℚ)} {x : ℚ} (hne : rs ≠ []) :
    x ≤ minDuty rs ↔ ∀ p ∈ rs, x ≤ p.2 := by
  obtain ⟨p, ps, rfl⟩ := List.exists_cons_of_ne_nil hne
  rw [minDuty, le_foldl_min_iff, ← List.forall_mem_map (f := Prod.snd) (P := fun z => x ≤ z)]
  simp only [List.map_cons, List.headD_cons, List.forall_mem_cons, and_iff_right_iff_imp]
  exact And.left

/-! ## The load afterwards -/

/-- If `adjustResNode` succeeds, the latencies of the node's tasks sum to at
most its duty cycle. -/
def KeepsLoad (s : Scheduler) (lat : Int → Int → ℚ) (node : Node) (sim : SimState) : Prop :=
  ∀ n, s.adjustResNode node sim = .ok (some n) → sumLatency lat n.vTaskList ≤ s.dutyOf n

/-- The tasks of a node with the largest batch sizes that keep their SLOs, each
against the present latencies of the others. -/
def Batches (s : Scheduler) (lat : Int → Int → ℚ) (node : Node) (bs : List Int) : Prop :=
  List.Forall₂ (fun t b => LargestInTime lat t
    (sumLatency lat node.vTaskList - lat t.id t.batchSize) (s.dutyOf node) b) node.vTaskList bs

/-- With these batch sizes the latencies fit in every one of the duty cycles
that come with them. -/
def FitsAll (s : Scheduler) (lat : Int → Int → ℚ) (node : Node) (bs : List Int) : Prop :=
  ∀ t b, (t, b) ∈ node.vTaskList.zip bs →
    (List.zipWith (fun t b => lat t.id b) node.vTaskList bs).sum ≤ scaledDuty t (s.dutyOf node) b

theorem exists_of_forall₂ {α β : Type} {R : α → β → Prop} {l : List α} {m : List β} {a : α}
    (h : List.Forall₂ R l m) (ha : a ∈ l) : ∃ b ∈ m, R a b := by
  induction h with
  | nil => cases ha
  | @cons a' b l m hab _ ih =>
      rcases List.mem_cons.mp ha with rfl | ha
      · exact ⟨b, List.mem_cons_self .., hab⟩
      · obtain ⟨c, hc, hac⟩ := ih ha
        exact ⟨c, List.mem_cons_of_mem b hc, hac⟩

section Found

variable {ts : List Task} {rs : List (Int × ℚ)} {sum : ℚ}
  (hfound : List.Forall₂ (fun t p => Found lat t (sum - lat t.id t.batchSize) duty p) ts rs)
include hfound

theorem forall₂_batches : List.Forall₂ (fun t b => LargestInTime lat t
    (sum - lat t.id t.batchSize) duty b) ts (rs.map Prod.fst) :=
  List.forall₂_map_right_iff.mpr (hfound.imp fun _ _ h => h.largest)

/-- The load after the adjustment in terms of the batch sizes. -/
theorem load_iff (hne : rs ≠ []) :
    sumLatency lat (List.zipWith (retimed (minDuty rs)) ts rs) ≤ minDuty rs ↔
      ∀ t b, (t, b) ∈ ts.zip (rs.map Prod.fst) →
        (List.zipWith (fun t b => lat t.id b) ts (rs.map Prod.fst)).sum ≤ scaledDuty t duty b := by
  have hsum : sumLatency lat (List.zipWith (retimed (minDuty rs)) ts rs) =
      (List.zipWith (fun t b => lat t.id b) ts (rs.map Prod.fst)).sum := by
    rw [sumLatency, List.map_zipWith, List.zipWith_map_right]
    rfl
  obtain ⟨hlen, hzip⟩ := List.forall₂_iff_zip.mp hfound
  have hsnd : (ts.zip rs).map Prod.snd = rs := List.map_snd_zip (le_of_eq hlen.symm)
  rw [le_minDuty_iff hne, hsum]
  constructor
  · intro h t b hmem
    rw [List.zip_map_right] at hmem
    obtain ⟨⟨t', p⟩, hmem', heq⟩ := List.mem_map.mp hmem
    obtain ⟨rfl, rfl⟩ := Prod.mk.injEq .. |>.mp heq
    have hduty := (hzip hmem').duty_eq
    rw [id_eq, ← hduty]
    exact h p (List.of_mem_zip hmem').2
  · intro h p hp
    rw [← hsnd] at hp
    obtain ⟨⟨t, q⟩, hmem, rfl⟩ := List.mem_map.mp hp
    rw [(hzip hmem).duty_eq]
    refine h t q.1 ?_
    rw [List.zip_map_right]
    exact List.mem_map.mpr ⟨(t, q), hmem, rfl⟩

end Found

/-- A node whose latencies fit in its duty cycle keeps that property when
`adjustResNode` succeeds exactly if it meets its SLOs with the slack of 5%, or
the latencies of the largest batch sizes that keep the SLOs fit in all the
duty cycles that come with them. -/
theorem adjustResNode_load_iff (hl : TaskLatencies s node sim lat node.vTaskList)
    (hload : sumLatency lat node.vTaskList ≤ s.dutyOf node) :
    KeepsLoad s lat node sim ↔
      (∀ t ∈ node.vTaskList, sumLatency lat node.vTaskList + s.dutyOf node ≤ 105 / 100 * t.SLO) ∨
        ∀ bs, Batches s lat node bs → FitsAll s lat node bs := by
  have hduty : node.vTaskList ≠ [] → 0 < s.dutyOf node := by
    intro hne
    refine lt_of_lt_of_le (List.sum_pos _ (fun x hx => ?_) (by simpa using hne)) hload
    obtain ⟨t, ht, rfl⟩ := List.mem_map.mp hx
    exact hl.pos t ht t.batchSize (hl.batch_pos t ht) le_rfl
  by_cases hgood : ∀ t ∈ node.vTaskList,
      sumLatency lat node.vTaskList + s.dutyOf node ≤ 105 / 100 * t.SLO
  · refine iff_of_true (fun n hn => ?_) (Or.inl hgood)
    rw [adjustResNode_good hl fun t ht => by linarith [hgood t ht]] at hn
    obtain rfl := Option.some.inj (Except.ok.inj hn)
    exact hload
  · rw [or_iff_right hgood]
    obtain ⟨r, hr, hnone, hsome⟩ := adjustResNode_late hl hduty fun h =>
      hgood fun t ht => by linarith [h t ht]
    obtain ⟨r', hr', hfound, hstuck⟩ := shrinkResTasks_eq hl (sumLatency lat node.vTaskList)
    obtain rfl := Except.ok.inj (hr.symm.trans hr')
    cases r with
    | none =>
        refine iff_of_true (fun n hn => ?_) fun bs hbs => ?_
        · rw [hnone rfl] at hn
          cases Except.ok.inj hn
        · obtain ⟨t, ht, hno⟩ := hstuck rfl
          obtain ⟨b, -, hb⟩ := exists_of_forall₂ hbs ht
          exact absurd hb (hno b)
    | some rs =>
        obtain ⟨hne, -, occupancy, hrun⟩ := hsome rs rfl
        have hiff := load_iff (hfound rs rfl) hne
        have hbs := forall₂_batches (hfound rs rfl)
        have hkeeps : KeepsLoad s lat node sim ↔
            sumLatency lat (List.zipWith (retimed (minDuty rs)) node.vTaskList rs) ≤ minDuty rs := by
          constructor
          · exact fun h => h _ hrun
          · intro h n hn
            rw [hrun] at hn
            obtain rfl := Option.some.inj (Except.ok.inj hn)
            exact h
        rw [hkeeps, hiff]
        constructor
        · intro h bs hbatches
          have heq : bs = rs.map Prod.fst :=
            List.right_unique_forall₂' (fun _ _ _ hb hc => hb.eq hc) hbatches hbs
          rw [heq]
          exact h
        · exact fun h => h _ hbs

/-- A node that runs model 0 at batch size 2 every 60 ms. -/
def pairNode : Node :=
  { makeEmptyNode 0 100 "gpu" with
    vTaskList := [createNewTask 0 30 100 2 (100 / 3)], dutyCycle := some 60, occupancy := 5 / 6 }

/-- 50 ms at every batch size fit in 60 ms. For the SLO of 100 ms the batch is
halved, which makes it 30 ms. -/
theorem adjustResNode_overloads :
    TaskLatencies (plain (profile [100] fun _ _ => 50) [100] 1) pairNode ⟨[], []⟩ (fun _ _ => 50)
        pairNode.vTaskList ∧
      sumLatency (fun _ _ => 50) pairNode.vTaskList ≤
        (plain (profile [100] fun _ _ => 50) [100] 1).dutyOf pairNode ∧
      ¬ KeepsLoad (plain (profile [100] fun _ _ => 50) [100] 1) (fun _ _ => 50) pairNode
        ⟨[], []⟩ := by
  refine ⟨⟨?_, ?_, ?_, ?_⟩, by decide +kernel, fun h => ?_⟩
  · intro t ht
    obtain rfl := List.mem_singleton.mp ht
    decide
  · intro t ht b hlo hhi
    obtain rfl := List.mem_singleton.mp ht
    exact plain_answers (fun _ _ => 50) true b hlo (hhi.trans (by decide))
  · exact fun _ _ _ _ _ => by norm_num
  · exact fun _ _ _ _ _ _ _ => le_rfl
  · have hrun : (plain (profile [100] fun _ _ => 50) [100] 1).adjustResNode pairNode ⟨[], []⟩ =
        .ok (some { pairNode with
          vTaskList := [createNewTask 0 30 100 1 (100 / 3)], dutyCycle := some 30
          occupancy := 5 / 3 }) := by
      decide +kernel
    exact absurd (h _ hrun) (by decide +kernel)

/-- At 10 ms for each request the batch of 4 shrinks to 3, and 30 ms fit in the
60 ms of its duty cycle. -/
theorem adjustResNode_load_at :
    KeepsLoad (plain (profile [100] fun b _ => 10 * b) [100] 1) (fun _ b => 10 * b) slowNode
      ⟨[], []⟩ := by
  refine (adjustResNode_load_iff (loneNode_latencies (by decide) (by decide)) ?_).mpr
    (Or.inr fun bs hbs => ?_)
  · norm_num [sumLatency, slowNode, loneNode, createNewTask, dutyOf]
  · obtain ⟨b, bs', hb, hnil, rfl⟩ := List.forall₂_cons_left_iff.mp hbs
    obtain rfl := List.forall₂_nil_left_iff.mp hnil
    obtain ⟨hpos, hle, hin, hlargest⟩ := hb
    have hico : Finset.Ico (Int.toNat 3) (Int.toNat 4) = {3} := by decide
    have hthree : ¬ b < 3 := fun hlt => hlargest 3 hlt (by decide) (by
      norm_num [InTime, scaledDuty, sumLatency, slowNode, loneNode, createNewTask, dutyOf, hico])
    have hfour : b ≠ 4 := by
      rintro rfl
      norm_num [InTime, scaledDuty, sumLatency, slowNode, loneNode, createNewTask, dutyOf] at hin
    have hle' : b ≤ 4 := hle
    obtain rfl : b = 3 := by omega
    intro t c hmem
    obtain ⟨rfl, rfl⟩ := Prod.mk.injEq .. |>.mp (List.mem_singleton.mp hmem)
    norm_num [scaledDuty, slowNode, loneNode, createNewTask, dutyOf, hico]

end Scheduler

end Glet
