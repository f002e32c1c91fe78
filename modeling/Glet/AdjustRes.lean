import Glet.BestFit
import Glet.MaxBatch

/-!
# `adjustResNode`

Each task of the node is shrunk against the latencies the other tasks had
before, until the node would meet that task's own SLO; the node then gets the
shortest of the duty cycles. Batches only go down, so the sum of all new
latencies is at most the sum each task was tested with, and one duty cycle is
short enough for all of them (`shrunk_sum_le`, `adjustResNode_restores`).
-/

namespace Glet

namespace Scheduler

variable {s : Scheduler} {sim : SimState} {node : Node} {lat : Int → Int → ℚ}

/-- The latencies of a node's tasks, next to the neighbours it has: positive
and not falling with the batch size, for every batch size up to the current
one. -/
structure TaskLatencies (s : Scheduler) (node : Node) (sim : SimState) (lat : Int → Int → ℚ)
    (ts : List Task) : Prop where
  batch_pos : ∀ t ∈ ts, 1 ≤ t.batchSize
  lookup : ∀ t ∈ ts, ∀ b, 1 ≤ b → b ≤ t.batchSize →
    s.getLatencyOn node.type t.id b node sim = .ok (lat t.id b)
  pos : ∀ t ∈ ts, ∀ b, 1 ≤ b → b ≤ t.batchSize → 0 < lat t.id b
  mono : ∀ t ∈ ts, ∀ b c, 1 ≤ b → b ≤ c → c ≤ t.batchSize → lat t.id b ≤ lat t.id c

theorem TaskLatencies.tail {t : Task} {ts : List Task} (h : TaskLatencies s node sim lat (t :: ts)) :
    TaskLatencies s node sim lat ts :=
  ⟨fun u hu => h.batch_pos u (List.mem_cons_of_mem t hu),
    fun u hu => h.lookup u (List.mem_cons_of_mem t hu),
    fun u hu => h.pos u (List.mem_cons_of_mem t hu),
    fun u hu => h.mono u (List.mem_cons_of_mem t hu)⟩

/-- Sum of the latencies of a list of tasks. -/
def sumLatency (lat : Int → Int → ℚ) (ts : List Task) : ℚ :=
  (ts.map fun t => lat t.id t.batchSize).sum

theorem latencySum_eq {ts : List Task}
    (h : ∀ t ∈ ts, s.getLatencyOn node.type t.id t.batchSize node sim = .ok (lat t.id t.batchSize)) :
    s.latencySum node sim ts = .ok (sumLatency lat ts) := by
  induction ts with
  | nil => rfl
  | cons t ts ih =>
      rw [latencySum, h t (List.mem_cons_self ..), ih fun u hu => h u (List.mem_cons_of_mem t hu)]
      simp [sumLatency, Query.ok_bind, pure, Except.pure]

/-! ## Shrinking one task -/

/-- What the inner loop leaves for task `t` when the other tasks take `other`. -/
structure Shrunk (lat : Int → Int → ℚ) (t : Task) (other duty : ℚ) (r : Int × ℚ) : Prop where
  batch_pos : 1 ≤ r.1
  batch_le : r.1 ≤ t.batchSize
  duty_pos : 0 < r.2
  duty_le : r.2 ≤ duty
  slo : other + lat t.id r.1 + r.2 ≤ t.SLO

/-- A batch size is the last one or leaves another one to try. -/
theorem eq_one_or_add_two {k : Nat} (hk : 1 ≤ k) : k = 1 ∨ ∃ j, k = j + 2 := by
  rcases Nat.lt_or_ge k 2 with hlt | hge
  · exact .inl (by omega)
  · exact .inr ⟨k - 2, by omega⟩

/-- The inner loop ends, by giving up or with an SLO that holds. One turn
takes the batch size one down, so the induction is on it. -/
theorem shrinkResBatch_total {ts : List Task} (hl : TaskLatencies s node sim lat ts) {t : Task}
    (ht : t ∈ ts) (other : ℚ) {duty₀ : ℚ} (k : Nat) {duty : ℚ} (hk : 1 ≤ k) (hkt : (k : Int) ≤ t.batchSize)
    (hduty : 0 < duty) (hle : duty ≤ duty₀) :
    ∃ r, s.shrinkResBatch node sim t other k (lat t.id k) duty = .ok r ∧
      ∀ p, r = some p → Shrunk lat t other duty₀ p := by
  induction k using Nat.strong_induction_on generalizing duty with
  | h k ih =>
      unfold shrinkResBatch
      split
      case isTrue hlate =>
        obtain rfl | ⟨k, rfl⟩ := eq_one_or_add_two hk
        · exact ⟨none, rfl, fun p hp => by cases hp⟩
        · have hbatch : (1 : Int) ≤ (k + 1 : Nat) := by omega
          have hkt' : ((k + 1 : Nat) : Int) ≤ t.batchSize := by omega
          have hb0 : (0 : ℚ) < t.batchSize := by
            exact_mod_cast lt_of_lt_of_le one_pos (hl.batch_pos t ht)
          have hk0 : (0 : ℚ) < (k + 1 : Nat) := by positivity
          have hratio : ((k + 1 : Nat) : ℚ) / t.batchSize ≤ 1 := by
            rw [div_le_one hb0]
            exact_mod_cast hkt'
          have hfdiv : fdiv ((k + 1 : Nat) : ℚ) t.batchSize = .ok ((k + 1 : Nat) / t.batchSize) :=
            fdiv_ok.mpr ⟨ne_of_gt hb0, rfl⟩
          simp only [hl.lookup t ht _ hbatch hkt', hfdiv, Query.ok_bind]
          refine ih (k + 1) (by omega) (by omega) hkt' (by positivity) ?_
          calc duty * (((k + 1 : Nat) : ℚ) / t.batchSize) ≤ duty * 1 :=
                mul_le_mul_of_nonneg_left hratio hduty.le
            _ ≤ duty₀ := by rw [mul_one]; exact hle
      case isFalse hmeets =>
        refine ⟨_, rfl, fun p hp => ?_⟩
        obtain rfl := Option.some.inj hp
        exact ⟨by simpa using hk, hkt, hduty, hle, not_lt.mp hmeets⟩

/-- All tasks: the loop over them ends, by giving up or with a batch size and
a duty cycle for each. -/
theorem shrinkResTasks_total {ts : List Task} (hl : TaskLatencies s node sim lat ts)
    (hduty : 0 < s.dutyOf node) (sum : ℚ) :
    ∃ r, s.shrinkResTasks node sim sum ts = .ok r ∧
      ∀ rs, r = some rs → List.Forall₂
        (fun t p => Shrunk lat t (sum - lat t.id t.batchSize) (s.dutyOf node) p) ts rs := by
  induction ts with
  | nil =>
      refine ⟨some [], rfl, fun rs hrs => ?_⟩
      obtain rfl := Option.some.inj hrs
      exact .nil
  | cons t ts ih =>
      have hbatch := hl.batch_pos t (List.mem_cons_self ..)
      have hnat : ((t.batchSize.toNat : Nat) : Int) = t.batchSize := Int.toNat_of_nonneg (by omega)
      obtain ⟨r, hr, hshrunk⟩ := shrinkResBatch_total hl (List.mem_cons_self ..)
        (sum - lat t.id t.batchSize) t.batchSize.toNat (by omega)
        (le_of_eq hnat) hduty le_rfl
      rw [hnat] at hr
      obtain ⟨rest, hrest, hall⟩ := ih hl.tail
      simp only [shrinkResTasks, hl.lookup t (List.mem_cons_self ..) _ hbatch le_rfl, Query.ok_bind, hr,
        hrest]
      cases r with
      | none => exact ⟨none, rfl, fun rs hrs => by cases hrs⟩
      | some p =>
          cases rest with
          | none => exact ⟨none, rfl, fun rs hrs => by cases hrs⟩
          | some ps =>
              refine ⟨some (p :: ps), rfl, fun rs hrs => ?_⟩
              obtain rfl := Option.some.inj hrs
              exact .cons (hshrunk p rfl) (hall ps rfl)

/-! ## Writing the node -/

/-- A task with its new batch size, at the node's new duty cycle. -/
def retimed (minDuty : ℚ) (t : Task) (p : Int × ℚ) : Task :=
  { t with batchSize := p.1, throughput := 1000 * p.1 / minDuty }

theorem rewriteResTasks_eq {minDuty : ℚ} (hne : minDuty ≠ 0) (ts : List Task)
    (rs : List (Int × ℚ)) :
    rewriteResTasks minDuty ts rs = .ok (List.zipWith (retimed minDuty) ts rs) := by
  induction ts generalizing rs with
  | nil => rfl
  | cons t ts ih =>
      cases rs with
      | nil => rfl
      | cons p rs =>
          have hdiv : fdiv (1000 * p.1) minDuty = .ok (1000 * p.1 / minDuty) :=
            fdiv_ok.mpr ⟨hne, rfl⟩
          simp only [rewriteResTasks, hdiv, Query.ok_bind, ih rs]
          rfl

theorem foldl_min_le {l : List ℚ} {x : ℚ} :
    l.foldl min x ≤ x ∧ ∀ y ∈ l, l.foldl min x ≤ y := by
  induction l generalizing x with
  | nil => exact ⟨le_rfl, by simp⟩
  | cons z l ih =>
      obtain ⟨hx, hl⟩ := ih (x := min x z)
      refine ⟨hx.trans (min_le_left _ _), fun y hy => ?_⟩
      rcases List.mem_cons.mp hy with rfl | hy
      · exact hx.trans (min_le_right _ _)
      · exact hl y hy

/-- When every task's latency goes down, the new sum is at most the old one
with only task `t`'s part replaced. -/
theorem shrunk_sum_le (minDuty : ℚ) {ts : List Task} {rs : List (Int × ℚ)}
    (h : List.Forall₂ (fun t p => lat t.id p.1 ≤ lat t.id t.batchSize) ts rs) :
    sumLatency lat (List.zipWith (retimed minDuty) ts rs) ≤ sumLatency lat ts ∧
      ∀ t p, (t, p) ∈ ts.zip rs →
        sumLatency lat (List.zipWith (retimed minDuty) ts rs) ≤
          sumLatency lat ts - lat t.id t.batchSize + lat t.id p.1 := by
  induction h with
  | nil => simp
  | @cons t p ts rs hle _ ih =>
      obtain ⟨hsum, hall⟩ := ih
      have hnew : sumLatency lat (List.zipWith (retimed minDuty) (t :: ts) (p :: rs)) =
          lat t.id p.1 + sumLatency lat (List.zipWith (retimed minDuty) ts rs) := rfl
      have hold : sumLatency lat (t :: ts) = lat t.id t.batchSize + sumLatency lat ts := rfl
      rw [hnew, hold]
      refine ⟨by linarith, fun u q hu => ?_⟩
      rcases List.mem_cons.mp hu with heq | hu
      · obtain ⟨rfl, rfl⟩ := Prod.mk.injEq .. |>.mp heq
        linarith
      · have := hall u q hu
        linarith

/-! ## The whole adjustment -/

/-- What EXIT_SUCCESS promises: the SLO of every task with the slack of 5%,
and nothing larger than before. -/
structure Restored (s : Scheduler) (lat : Int → Int → ℚ) (node n : Node) : Prop where
  tasks : List.Forall₂ (fun t t' => t'.id = t.id ∧ t'.SLO = t.SLO ∧ 1 ≤ t'.batchSize ∧
    t'.batchSize ≤ t.batchSize) node.vTaskList n.vTaskList
  slo : ∀ t ∈ n.vTaskList, sumLatency lat n.vTaskList + s.dutyOf n ≤ 105 / 100 * t.SLO
  duty_le : s.dutyOf n ≤ s.dutyOf node

/-- The node `adjustResNode` leaves behind: it writes nothing before it has
decided to succeed. -/
def leftBehind (node : Node) (r : Option Node) : Node := r.getD node

/-- The shortest of the duty cycles found. -/
def minDuty (rs : List (Int × ℚ)) : ℚ := (rs.map (·.2)).foldl min ((rs.map (·.2)).headD 0)

theorem minDuty_le {rs : List (Int × ℚ)} {p : Int × ℚ} (hp : p ∈ rs) : minDuty rs ≤ p.2 :=
  foldl_min_le.2 p.2 (List.mem_map_of_mem hp)

section Shrunk

variable {ts : List Task} {rs : List (Int × ℚ)} (hshrunk : List.Forall₂
  (fun t p => Shrunk lat t (sumLatency lat ts - lat t.id t.batchSize) (s.dutyOf node) p) ts rs)
include hshrunk

theorem minDuty_pos (hne : rs ≠ []) : 0 < minDuty rs := by
  obtain ⟨hlen, hzip⟩ := List.forall₂_iff_zip.mp hshrunk
  have hsnd : (ts.zip rs).map Prod.snd = rs := List.map_snd_zip (le_of_eq hlen.symm)
  have hpos : ∀ p ∈ rs, 0 < p.2 := by
    intro p hp
    rw [← hsnd] at hp
    obtain ⟨⟨t, q⟩, hmem, rfl⟩ := List.mem_map.mp hp
    exact (hzip hmem).duty_pos
  obtain ⟨r, rs, rfl⟩ := List.exists_cons_of_ne_nil hne
  refine foldl_min_pos (hpos r (List.mem_cons_self ..)) fun y hy => ?_
  obtain ⟨p, hp, rfl⟩ := List.mem_map.mp hy
  exact hpos p hp

/-- A rewritten task comes from a task and what was found for it. -/
theorem mem_retimed {t' : Task} (ht' : t' ∈ List.zipWith (retimed (minDuty rs)) ts rs) :
    ∃ t p, (t, p) ∈ ts.zip rs ∧ t ∈ ts ∧ p ∈ rs ∧ t' = retimed (minDuty rs) t p ∧
      Shrunk lat t (sumLatency lat ts - lat t.id t.batchSize) (s.dutyOf node) p := by
  rw [← List.map_uncurry_zip_eq_zipWith, List.mem_map] at ht'
  obtain ⟨⟨t, p⟩, hmem, rfl⟩ := ht'
  obtain ⟨ht, hp⟩ := List.of_mem_zip hmem
  exact ⟨t, p, hmem, ht, hp, rfl, (List.forall₂_iff_zip.mp hshrunk).2 hmem⟩

theorem latencySum_retimed (hl : TaskLatencies s node sim lat ts) :
    s.latencySum node sim (List.zipWith (retimed (minDuty rs)) ts rs) =
      .ok (sumLatency lat (List.zipWith (retimed (minDuty rs)) ts rs)) := by
  refine latencySum_eq fun t' ht' => ?_
  obtain ⟨t, p, -, ht, -, rfl, hsh⟩ := mem_retimed hshrunk ht'
  exact hl.lookup t ht p.1 hsh.batch_pos hsh.batch_le

theorem restored_of_shrunk (hl : TaskLatencies s node sim lat ts) (hne : rs ≠ []) {n : Node}
    (hts : node.vTaskList = ts)
    (htasks : n.vTaskList = List.zipWith (retimed (minDuty rs)) ts rs)
    (hduty : n.dutyCycle = some (minDuty rs)) : Restored s lat node n := by
  have hd : s.dutyOf n = minDuty rs := by rw [dutyOf, hduty, Option.getD_some]
  obtain ⟨hlen, hzip⟩ := List.forall₂_iff_zip.mp hshrunk
  have hdown : List.Forall₂ (fun t p => lat t.id p.1 ≤ lat t.id t.batchSize) ts rs := by
    refine List.forall₂_iff_zip.mpr ⟨hlen, fun {t p} hmem => ?_⟩
    have hsh := hzip hmem
    exact hl.mono t (List.of_mem_zip hmem).1 _ _ hsh.batch_pos hsh.batch_le le_rfl
  have hsum := (shrunk_sum_le (minDuty rs) hdown).2
  have hpos : 0 ≤ sumLatency lat n.vTaskList := by
    refine List.sum_nonneg fun x hx => ?_
    obtain ⟨t', ht', rfl⟩ := List.mem_map.mp hx
    rw [htasks] at ht'
    obtain ⟨t, p, -, ht, -, rfl, hsh⟩ := mem_retimed hshrunk ht'
    exact (hl.pos t ht p.1 hsh.batch_pos hsh.batch_le).le
  refine ⟨?_, fun t' ht' => ?_, ?_⟩
  · rw [hts, htasks]
    refine List.forall₂_iff_get.mpr ⟨by simp [hlen], fun k hk hk' => ?_⟩
    have hkr : k < rs.length := by omega
    have hmem : (ts[k], rs[k]) ∈ ts.zip rs := by
      rw [← List.getElem_zip (h := by simp [hk, hkr])]
      exact List.getElem_mem _
    have hsh := hzip hmem
    simpa [retimed] using ⟨hsh.batch_pos, hsh.batch_le⟩
  · rw [htasks] at ht'
    obtain ⟨t, p, hmem, ht, hp, rfl, hsh⟩ := mem_retimed hshrunk ht'
    have hle := hsum t p hmem
    have hslo := hsh.slo
    have hmin := minDuty_le hp
    have hmin0 := minDuty_pos hshrunk hne
    rw [hd]
    rw [htasks] at hpos ⊢
    show _ ≤ 105 / 100 * (t.SLO : ℚ)
    linarith
  · rw [hd]
    obtain ⟨p, rest, rfl⟩ := List.exists_cons_of_ne_nil hne
    obtain ⟨t, ts', htp, -, hcons⟩ := List.forall₂_cons_right_iff.mp hshrunk
    exact (minDuty_le (List.mem_cons_self ..)).trans htp.duty_le

end Shrunk

section Run

variable (hl : TaskLatencies s node sim lat node.vTaskList)
include hl

/-- A node that meets every SLO with the slack of 5% is not touched. -/
theorem adjustResNode_good (hgood : ∀ t ∈ node.vTaskList,
    sumLatency lat node.vTaskList + s.dutyOf node ≤ t.SLO * (105 / 100)) :
    s.adjustResNode node sim = .ok (some node) := by
  have hlook : ∀ t ∈ node.vTaskList,
      s.getLatencyOn node.type t.id t.batchSize node sim = .ok (lat t.id t.batchSize) :=
    fun t ht => hl.lookup t ht t.batchSize (hl.batch_pos t ht) le_rfl
  rw [adjustResNode, latencySum_eq hlook, Query.ok_bind]
  dsimp only
  rw [if_pos (List.all_eq_true.mpr fun t ht => decide_eq_true (hgood t ht))]
  rfl

/-- A late node fails with its tasks, or gets what was found for them. -/
theorem adjustResNode_late (hduty : node.vTaskList ≠ [] → 0 < s.dutyOf node)
    (hlate : ¬ ∀ t ∈ node.vTaskList,
      sumLatency lat node.vTaskList + s.dutyOf node ≤ t.SLO * (105 / 100)) :
    ∃ r, s.shrinkResTasks node sim (sumLatency lat node.vTaskList) node.vTaskList = .ok r ∧
      (r = none → s.adjustResNode node sim = .ok none) ∧
      ∀ rs, r = some rs → rs ≠ [] ∧ List.Forall₂ (fun t p => Shrunk lat t
          (sumLatency lat node.vTaskList - lat t.id t.batchSize) (s.dutyOf node) p)
          node.vTaskList rs ∧
        ∃ occupancy, s.adjustResNode node sim = .ok (some { node with
          vTaskList := List.zipWith (retimed (minDuty rs)) node.vTaskList rs
          dutyCycle := some (minDuty rs), occupancy }) := by
  have hlook : ∀ t ∈ node.vTaskList,
      s.getLatencyOn node.type t.id t.batchSize node sim = .ok (lat t.id t.batchSize) :=
    fun t ht => hl.lookup t ht t.batchSize (hl.batch_pos t ht) le_rfl
  have hbad : ¬ (node.vTaskList.all fun t => decide
      (sumLatency lat node.vTaskList + s.dutyOf node ≤ t.SLO * (105 / 100))) = true := by
    rw [List.all_eq_true]
    exact fun hall => hlate fun t ht => of_decide_eq_true (hall t ht)
  have hne : node.vTaskList ≠ [] := by
    rintro hnil
    rw [hnil] at hbad
    exact hbad rfl
  obtain ⟨r, hr, hall⟩ := shrinkResTasks_total hl (hduty hne) (sumLatency lat node.vTaskList)
  have hrun : s.adjustResNode node sim = (s.shrinkResTasks node sim (sumLatency lat node.vTaskList)
      node.vTaskList >>= fun r => r.elim (pure none) fun rs =>
        assert (rs ≠ []) >>= fun _ =>
        rewriteResTasks (minDuty rs) node.vTaskList rs >>= fun tasks =>
        s.latencySum node sim tasks >>= fun sum => fdiv sum (minDuty rs) >>= fun occupancy =>
          pure (some { node with vTaskList := tasks, dutyCycle := some (minDuty rs), occupancy })) := by
    rw [adjustResNode, latencySum_eq hlook, Query.ok_bind]
    dsimp only
    rw [if_neg hbad]
    refine congrArg _ (funext fun r => ?_)
    cases r with
    | none => rfl
    | some rs => rfl
  rw [hr, Query.ok_bind] at hrun
  refine ⟨r, hr, ?_, ?_⟩
  · rintro rfl
    exact hrun
  · rintro rs rfl
    have hshrunk := hall rs rfl
    have hrs : rs ≠ [] := by
      rintro rfl
      exact hne (List.forall₂_nil_right_iff.mp hshrunk)
    have hmin := ne_of_gt (minDuty_pos hshrunk hrs)
    have hdiv := fdiv_ok (a := sumLatency lat (List.zipWith (retimed (minDuty rs)) node.vTaskList rs))
      |>.mpr ⟨hmin, rfl⟩
    rw [Option.elim_some, (assert_ok (u := ())).mpr hrs, Query.ok_bind, rewriteResTasks_eq hmin,
      Query.ok_bind, latencySum_retimed hshrunk hl, Query.ok_bind, hdiv, Query.ok_bind] at hrun
    exact ⟨hrs, hshrunk, _, hrun⟩

end Run

/-- `adjustResNode` restores the SLO of every task of the node, with the slack
of 5%, or changes nothing. That a node with tasks has a positive duty cycle
holds of every decision the routines build (`Sound.duty_pos`). -/
theorem adjustResNode_restores (hl : TaskLatencies s node sim lat node.vTaskList)
    (hduty : node.vTaskList ≠ [] → 0 < s.dutyOf node) :
    ∃ r, s.adjustResNode node sim = .ok r ∧ (r = none → leftBehind node r = node) ∧
      (r ≠ none → Restored s lat node (leftBehind node r)) := by
  by_cases hgood : ∀ t ∈ node.vTaskList,
      sumLatency lat node.vTaskList + s.dutyOf node ≤ t.SLO * (105 / 100)
  · refine ⟨some node, adjustResNode_good hl hgood, (fun h => by cases h),
      fun _ => ⟨?_, fun t ht => ?_, le_rfl⟩⟩
    · exact List.forall₂_same.mpr fun t ht => ⟨rfl, rfl, hl.batch_pos t ht, le_rfl⟩
    · have hok := hgood t ht
      show sumLatency lat node.vTaskList + s.dutyOf node ≤ 105 / 100 * t.SLO
      linarith
  · obtain ⟨r, -, hnone, hsome⟩ := adjustResNode_late hl hduty hgood
    cases r with
    | none => exact ⟨none, hnone rfl, fun _ => rfl, fun h => absurd rfl h⟩
    | some rs =>
        obtain ⟨hrs, hshrunk, occupancy, hrun⟩ := hsome rs rfl
        refine ⟨_, hrun, (fun h => by cases h), fun _ => ?_⟩
        exact restored_of_shrunk hshrunk hl hrs rfl rfl rfl

/-- A node that runs model 0 alone. -/
def loneNode (SLO batch : Int) (duty occupancy : ℚ) : Node :=
  { makeEmptyNode 0 100 "gpu" with
    vTaskList := [createNewTask 0 50 SLO batch 50], dutyCycle := some duty, occupancy }

theorem loneNode_latencies {SLO batch : Int} {duty occupancy : ℚ} (hlo : 1 ≤ batch)
    (hhi : batch ≤ 32) :
    TaskLatencies (plain (profile [100] fun b _ => 10 * b) [100] 1)
      (loneNode SLO batch duty occupancy) ⟨[], []⟩ (fun _ b => 10 * b)
      (loneNode SLO batch duty occupancy).vTaskList := by
  refine ⟨?_, ?_, ?_, ?_⟩
  · intro t ht
    obtain rfl := List.mem_singleton.mp ht
    exact hlo
  · intro t ht b hb hbt
    obtain rfl := List.mem_singleton.mp ht
    exact plain_answers (fun b _ => 10 * (b : ℚ)) true b hb (hbt.trans hhi)
  · intro t _ b hb _
    have hb : (0 : ℚ) < b := by exact_mod_cast (by omega : 0 < b)
    exact mul_pos (by norm_num) hb
  · intro t _ b c _ hbc _
    have hq : (b : ℚ) ≤ c := by exact_mod_cast hbc
    show 10 * (b : ℚ) ≤ 10 * c
    linarith

/-- Model 0 at batch size 4 every 80 ms. -/
def slowNode : Node := loneNode 100 4 80 (1 / 2)

/-- At 10 ms for each request of a batch it is adjusted to batch size 3. -/
theorem adjustResNode_restores_at :
    ∃ r, (plain (profile [100] fun b _ => 10 * b) [100] 1).adjustResNode slowNode ⟨[], []⟩ = .ok r ∧
      (r = none → leftBehind slowNode r = slowNode) ∧
      (r ≠ none → Restored (plain (profile [100] fun b _ => 10 * b) [100] 1) (fun _ b => 10 * b)
        slowNode (leftBehind slowNode r)) :=
  adjustResNode_restores (loneNode_latencies (by decide) (by decide)) fun _ => by decide

/-- A node whose duty cycle is negative. -/
def negativeNode : Node := loneNode 10 8 (-60) (1 / 2)

/-- A duty cycle of -60 ms is multiplied by 7/8, 6/8 and so on, which raises it;
at batch size 1 the SLO of 10 ms is met. -/
theorem adjustResNode_raises :
    TaskLatencies (plain (profile [100] fun b _ => 10 * b) [100] 1) negativeNode ⟨[], []⟩
        (fun _ b => 10 * b) negativeNode.vTaskList ∧
      ∃ n, (plain (profile [100] fun b _ => 10 * b) [100] 1).adjustResNode negativeNode ⟨[], []⟩ =
          .ok (some n) ∧
        ¬ Restored (plain (profile [100] fun b _ => 10 * b) [100] 1) (fun _ b => 10 * b)
          negativeNode n := by
  obtain ⟨r, hrun, hp⟩ := Query.of_returns
    (p := fun r => r.any fun n =>
      decide (-1 < (plain (profile [100] fun b _ => 10 * b) [100] 1).dutyOf n))
    (q := (plain (profile [100] fun b _ => 10 * b) [100] 1).adjustResNode negativeNode ⟨[], []⟩)
    (by decide +kernel)
  cases r with
  | none => cases hp
  | some n =>
      refine ⟨loneNode_latencies (by decide) (by decide), n, hrun, fun hrestored => ?_⟩
      have hduty : (-1 : ℚ) < dutyOf _ n := of_decide_eq_true hp
      have hle : dutyOf _ n ≤ -60 := hrestored.duty_le
      linarith

end Scheduler

end Glet
