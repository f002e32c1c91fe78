import Glet.AdjustRes

/-!
# `adjustSatNode`

A saturated gpu-let runs one batch after the other, so its duty cycle is the
latency of its batch, and twice that latency has to be within the SLO. There
are three ways out of `adjustSatNode`. Only the one that shrinks the batch
sets the duty cycle: while twice the latency is below the SLO the node gets
the throughput of its new latency at its old duty cycle, and where it is equal
to the SLO the duty cycle is believed and the throughput taken from it.
-/

namespace Glet

namespace Scheduler

variable {s : Scheduler} {sim : SimState} {node : Node} {lat : Int → Int → ℚ} {t : Task}

/-- The interference-blind overload answers where the other one does. -/
theorem getLatency_of_getLatencyOn {type : DeviceType} {id b : Int} {v : ℚ}
    (h : s.getLatencyOn type id b node sim = .ok v) (hb : b ≤ maxBatch) :
    ∃ w, s.getLatency type id b node.resourcePntg = .ok w := by
  have hone := getLatencyOn_batch h
  cases hs : s.useInterference with
  | false =>
      have hsolo := getLatencyOn_solo hs h
      simp only [getLatencyOn, Query.bind_ok, assert_ok] at h
      obtain ⟨u, htype, -, -, -⟩ := h
      refine ⟨v, ?_⟩
      rw [getLatency, (assert_ok (u := u)).mpr htype, Query.ok_bind,
        (assert_ok (u := u)).mpr ⟨hone, hb⟩, Query.ok_bind, hsolo]
  | true =>
      simp only [getLatencyOn, Query.bind_ok, assert_ok, hs, if_true] at h
      obtain ⟨u, htype, -, -, name, hname, l, hl, o, ho, -⟩ := h
      refine ⟨(l + o) * s.latencyRatio, ?_⟩
      rw [getLatency, (assert_ok (u := u)).mpr htype, Query.ok_bind,
        (assert_ok (u := u)).mpr ⟨hone, hb⟩, Query.ok_bind, soloLatency, hname, Query.ok_bind, hl,
        Query.ok_bind, ho, Query.ok_bind]
      rfl

/-! ## Shrinking the batch -/

/-- What the loop leaves: the batch and duty cycle it started with, or a
smaller batch and its latency as duty cycle. -/
structure SatShrunk (lat : Int → Int → ℚ) (t : Task) (batch : Int) (duty : ℚ) (r : Int × ℚ) :
    Prop where
  batch_pos : 1 ≤ r.1
  slo : 2 * lat t.id r.1 ≤ t.SLO
  duty_eq : r = (batch, duty) ∨ r.1 < batch ∧ r.2 = lat t.id r.1

/-- The loop ends, by giving up or with a batch size within the SLO. -/
theorem shrinkSatBatch_total (hl : TaskLatencies s node sim lat [t]) (k : Nat) (duty : ℚ)
    (hk : 1 ≤ k) (hkt : (k : Int) ≤ t.batchSize) :
    ∃ r, s.shrinkSatBatch node sim t k (lat t.id k) duty = .ok r ∧
      ∀ p, r = some p → SatShrunk lat t k duty p := by
  induction k using Nat.strong_induction_on generalizing duty with
  | h k ih =>
      unfold shrinkSatBatch
      split
      case isTrue hlate =>
        obtain rfl | ⟨k, rfl⟩ := eq_one_or_add_two hk
        · exact ⟨none, rfl, fun p hp => by cases hp⟩
        · have hkt' : ((k + 1 : Nat) : Int) ≤ t.batchSize := by omega
          have hlook := hl.lookup t (List.mem_cons_self ..) (k + 1 : Nat) (by omega) hkt'
          simp only [hlook, Query.ok_bind]
          obtain ⟨r, hr, hall⟩ := ih (k + 1) (by omega) (lat t.id (k + 1 : Nat)) (by omega) hkt'
          refine ⟨r, hr, fun p hp => ?_⟩
          obtain ⟨hpos, hslo, heq | ⟨hlt, hduty⟩⟩ := hall p hp
          · obtain rfl := heq
            exact ⟨hpos, hslo, Or.inr ⟨by simp, rfl⟩⟩
          · exact ⟨hpos, hslo, Or.inr ⟨by omega, hduty⟩⟩
      case isFalse hmeets =>
        refine ⟨_, rfl, fun p hp => ?_⟩
        obtain rfl := Option.some.inj hp
        exact ⟨by simpa using hk, not_lt.mp hmeets, Or.inl rfl⟩

/-! ## The three outcomes -/

/-- What EXIT_SUCCESS is to leave: a gpu-let that runs back to back at its own
latency within the SLO, and the throughput it lost charged. -/
structure Saturated (lat : Int → Int → ℚ) (t : Task) (n : Node) (lost : Int) : Prop where
  single : ∃ t', n.vTaskList = [t'] ∧ t'.id = t.id ∧ t'.SLO = t.SLO ∧
    2 * lat t.id t'.batchSize ≤ t.SLO ∧ n.dutyCycle = some (lat t.id t'.batchSize) ∧
    t'.throughput = 1000 * t'.batchSize / lat t.id t'.batchSize ∧
    lost = max (toInt (t.throughput - t'.throughput)) 0

/-- The node after an adjustment that writes nothing before it succeeds. -/
def satLeftBehind (node : Node) (r : Option (Node × Int)) : Node := (r.map (·.1)).getD node

/-- `adjustSatNode` returns, and it leaves the node alone or saturated. -/
def LeavesSaturated (s : Scheduler) (lat : Int → Int → ℚ) (node : Node) (sim : SimState) (t : Task) :
    Prop :=
  ∃ r, s.adjustSatNode node sim = .ok r ∧ (r = none → satLeftBehind node r = node) ∧
    ∀ n lost, r = some (n, lost) → Saturated lat t n lost

theorem toInt_nonpos {q : ℚ} (h : q ≤ 0) : toInt q ≤ 0 := by
  rcases lt_or_eq_of_le h with hneg | rfl
  · rw [toInt_of_neg hneg]
    exact Int.ceil_le.mpr (by simpa using h)
  · exact le_rfl

/-- The throughput that is lost, in whole requests per second. -/
theorem lost_eq_max (old new : ℚ) :
    (if old > new then toInt (old - new) else 0) = max (toInt (old - new)) 0 := by
  split
  case isTrue hlost =>
    have hge := toInt_of_nonneg (q := old - new) (by linarith)
    have hfloor : 0 ≤ ⌊old - new⌋ := Int.floor_nonneg.mpr (by linarith)
    omega
  case isFalse hkept =>
    have hle := toInt_nonpos (q := old - new) (by linarith)
    omega

section Outcomes

variable (hl : TaskLatencies s node sim lat [t]) (htask : node.vTaskList = [t])
  (hocc : 1 ≤ node.occupancy)
include hl htask hocc

/-- Below the SLO the throughput is rewritten and the duty cycle is not. -/
theorem adjustSatNode_fine (hfine : 2 * lat t.id t.batchSize < t.SLO) :
    s.adjustSatNode node sim = .ok (some
      ({ node with vTaskList :=
          [{ t with throughput := t.batchSize * 1000 / lat t.id t.batchSize }] },
        max (toInt (t.throughput - t.batchSize * 1000 / lat t.id t.batchSize)) 0)) := by
  have hmem := List.mem_cons_self (a := t) (l := [])
  have hone := hl.batch_pos t hmem
  have hne := ne_of_gt (hl.pos t hmem t.batchSize hone le_rfl)
  have hdiv : fdiv (t.batchSize * 1000) (lat t.id t.batchSize) =
      .ok (t.batchSize * 1000 / lat t.id t.batchSize) := fdiv_ok.mpr ⟨hne, rfl⟩
  rw [adjustSatNode, htask]
  simp only [(assert_ok (u := ())).mpr hocc, hl.lookup t hmem t.batchSize hone le_rfl,
    Query.ok_bind, if_pos hfine, hdiv]
  rfl

/-- From the SLO on the loop decides. -/
theorem adjustSatNode_late (hmax : t.batchSize ≤ maxBatch) (hlate : (t.SLO : ℚ) ≤ 2 * lat t.id t.batchSize) :
    ∃ r, s.shrinkSatBatch node sim t t.batchSize.toNat (lat t.id t.batchSize) (s.dutyOf node) =
        .ok r ∧ (∀ p, r = some p → SatShrunk lat t t.batchSize (s.dutyOf node) p) ∧
      (r = none → s.adjustSatNode node sim = .ok none) ∧
      (∀ b, r = some (b, 0) → s.adjustSatNode node sim = .error .assertion) ∧
      ∀ b d, r = some (b, d) → 1 ≤ b → d ≠ 0 → s.adjustSatNode node sim = .ok (some
        ({ node with
            vTaskList := [{ t with batchSize := b, throughput := b * (1000 / d) }]
            dutyCycle := some d },
          if t.throughput > b * (1000 / d) then toInt (t.throughput - b * (1000 / d)) else 0)) := by
  have hmem := List.mem_cons_self (a := t) (l := [])
  have hone := hl.batch_pos t hmem
  have hlook := hl.lookup t hmem t.batchSize hone le_rfl
  obtain ⟨w, hsolo⟩ := getLatency_of_getLatencyOn hlook hmax
  have hnat : ((t.batchSize.toNat : Nat) : Int) = t.batchSize := Int.toNat_of_nonneg (by omega)
  obtain ⟨r, hr, hall⟩ := shrinkSatBatch_total hl t.batchSize.toNat (s.dutyOf node)
    (by omega) (le_of_eq hnat)
  rw [hnat] at hr hall
  have hrun : s.adjustSatNode node sim = (s.shrinkSatBatch node sim t t.batchSize.toNat
      (lat t.id t.batchSize) (s.dutyOf node) >>= fun r => r.elim (pure none) fun p => do
        assert (p.2 ≠ 0)
        assert (p.1 ≠ 0)
        let period ← fdiv 1000 p.2
        pure (some
          ({ node with
              vTaskList := [{ t with batchSize := p.1, throughput := p.1 * period }]
              dutyCycle := some p.2 },
            if t.throughput > p.1 * period then toInt (t.throughput - p.1 * period) else 0))) := by
    rw [adjustSatNode, htask]
    simp only [(assert_ok (u := ())).mpr hocc, hlook, Query.ok_bind, if_neg (not_lt.mpr hlate), hsolo]
    refine congrArg _ (funext fun r => ?_)
    cases r with
    | none => rfl
    | some p => rfl
  rw [hr, Query.ok_bind] at hrun
  refine ⟨r, hr, hall, ?_, ?_, ?_⟩
  · rintro rfl
    exact hrun
  · rintro b rfl
    rw [hrun]
    rfl
  · rintro b d rfl hb hd
    have hb0 : b ≠ 0 := by omega
    have hdiv : fdiv 1000 d = .ok (1000 / d) := fdiv_ok.mpr ⟨hd, rfl⟩
    rw [hrun]
    simp only [Option.elim_some, (assert_ok (u := ())).mpr hd, (assert_ok (u := ())).mpr hb0,
      Query.ok_bind, hdiv]
    rfl

/-- `adjustSatNode` leaves a saturated node or changes nothing exactly if the
current batch is too slow for the SLO, or the duty cycle of the node already
is its latency. -/
theorem adjustSatNode_saturated_iff {duty : ℚ} (hduty : node.dutyCycle = some duty)
    (hmax : t.batchSize ≤ maxBatch) : LeavesSaturated s lat node sim t ↔
      (t.SLO : ℚ) < 2 * lat t.id t.batchSize ∨ duty = lat t.id t.batchSize := by
  have hdutyOf : s.dutyOf node = duty := by rw [dutyOf, hduty, Option.getD_some]
  have hmem := List.mem_cons_self (a := t) (l := [])
  have hone := hl.batch_pos t hmem
  have hlpos := hl.pos t hmem t.batchSize hone le_rfl
  rcases lt_or_ge (2 * lat t.id t.batchSize) (t.SLO : ℚ) with hfine | hlate
  · have hrun := adjustSatNode_fine hl htask hocc hfine
    rw [or_iff_right (not_lt.mpr hfine.le)]
    constructor
    · rintro ⟨r, hr, -, hall⟩
      rw [hrun] at hr
      obtain rfl := Except.ok.inj hr
      obtain ⟨t', htask', -, -, -, hset, -⟩ := (hall _ _ rfl).single
      obtain rfl := List.singleton_injective htask'
      exact Option.some.inj (hduty.symm.trans hset)
    · rintro rfl
      refine ⟨_, hrun, (fun h => by cases h), fun n lost hr => ⟨?_⟩⟩
      obtain ⟨rfl, rfl⟩ := Prod.mk.injEq .. |>.mp (Option.some.inj hr)
      refine ⟨_, rfl, rfl, rfl, hfine.le, hduty, ?_, rfl⟩
      dsimp only
      rw [mul_comm]
  · obtain ⟨r, hr, hall, hnone, hzero, hsome⟩ := adjustSatNode_late hl htask hocc hmax hlate
    rw [hdutyOf] at hr hall
    cases r with
    | none =>
        have hslo : (t.SLO : ℚ) < 2 * lat t.id t.batchSize := by
          by_contra hnot
          unfold shrinkSatBatch at hr
          rw [if_neg hnot] at hr
          cases Except.ok.inj hr
        refine iff_of_true ⟨none, hnone rfl, fun _ => rfl, fun _ _ h => by cases h⟩ (Or.inl hslo)
    | some p =>
        obtain ⟨b, d⟩ := p
        obtain ⟨hb, hslo, hd⟩ := hall _ rfl
        dsimp only at hb hslo hd
        have hiff : LeavesSaturated s lat node sim t ↔ d = lat t.id b := by
          have hble : b ≤ t.batchSize := by
            rcases hd with heq | ⟨hlt, -⟩
            · exact le_of_eq (Prod.mk.injEq .. |>.mp heq).1
            · exact hlt.le
          have hbpos := hl.pos t hmem b hb hble
          rcases eq_or_ne d 0 with rfl | hd0
          · refine iff_of_false ?_ hbpos.ne
            rintro ⟨r, hr', -⟩
            rw [hzero b rfl] at hr'
            cases hr'
          · have hrun := hsome b d rfl hb hd0
            constructor
            · rintro ⟨r, hr', -, hall'⟩
              rw [hrun] at hr'
              obtain rfl := Except.ok.inj hr'
              obtain ⟨t', htask', -, -, -, hset, -⟩ := (hall' _ _ rfl).single
              obtain rfl := List.singleton_injective htask'
              exact Option.some.inj hset
            · intro heq
              refine ⟨_, hrun, (fun h => by cases h), fun n lost hr' => ⟨?_⟩⟩
              obtain ⟨rfl, rfl⟩ := Prod.mk.injEq .. |>.mp (Option.some.inj hr')
              refine ⟨_, rfl, rfl, rfl, hslo, congrArg some heq, ?_, ?_⟩
              · dsimp only
                rw [heq, mul_div_assoc', mul_comm]
              · dsimp only
                rw [lost_eq_max]
        rw [hiff]
        rcases hd with heq | ⟨hlt, heq⟩
        · -- The loop did not turn: twice the latency is the SLO.
          obtain ⟨rfl, rfl⟩ := Prod.mk.injEq .. |>.mp heq
          rw [or_iff_right (not_lt.mpr hslo)]
        · refine iff_of_true heq (Or.inl ?_)
          by_contra hnot
          unfold shrinkSatBatch at hr
          rw [if_neg hnot] at hr
          obtain ⟨hb', -⟩ := Prod.mk.injEq .. |>.mp (Option.some.inj (Except.ok.inj hr))
          omega

end Outcomes

/-- The second half of a GPU, saturated by model 0 in 20 ms. -/
def saturatedHalf : Node :=
  { makeEmptyNode 0 50 "gpu" with
    dedupNum := 1, vTaskList := [createNewTask 0 50 100 1 50], dutyCycle := some 20, occupancy := 1 }

/-- Model 1 has come to run on the first half. -/
def disturbedHalves : SimState :=
  ⟨[{ GPUID := 0, totalMemory := 11000, usedMemory := 0, TYPE := "gpu", vLoadedParts := [],
      vNodeList := [busyHalf, saturatedHalf] }], []⟩

/-- Beside model 1 the 20 ms of model 0 become 40. Its throughput is halved, but
it still counts as running every 20 ms. -/
theorem adjustSatNode_unsaturated :
    TaskLatencies (disturbing 20 2) saturatedHalf disturbedHalves (fun _ _ => 40)
        saturatedHalf.vTaskList ∧
      ¬ LeavesSaturated (disturbing 20 2) (fun _ _ => 40) saturatedHalf disturbedHalves
        (createNewTask 0 50 100 1 50) := by
  refine ⟨⟨?_, ?_, ?_, ?_⟩, ?_⟩
  · intro t ht
    obtain rfl := List.mem_singleton.mp ht
    decide
  · intro t ht b hlo hhi
    obtain rfl := List.mem_singleton.mp ht
    obtain rfl : b = 1 := le_antisymm hhi hlo
    decide +kernel
  · exact fun _ _ _ _ _ => by norm_num
  · exact fun _ _ _ _ _ _ _ => le_rfl
  · rintro ⟨r, hr, -, hall⟩
    have hrun : (disturbing 20 2).adjustSatNode saturatedHalf disturbedHalves = .ok (some
        ({ saturatedHalf with vTaskList := [createNewTask 0 50 100 1 25] }, 25)) := by
      decide +kernel
    rw [hrun] at hr
    obtain rfl := Except.ok.inj hr
    obtain ⟨t', -, -, -, -, hduty, -⟩ := (hall _ _ rfl).single
    exact absurd (Option.some.inj hduty) (by norm_num)

/-- At 10 ms for each request of a batch, 80 ms twice are too long for 100 ms:
the batch of 8 shrinks to 5, and the duty cycle is its latency. -/
theorem adjustSatNode_saturated_at :
    LeavesSaturated (plain (profile [100] fun b _ => 10 * b) [100] 1) (fun _ b => 10 * b)
        (loneNode 100 8 80 1) ⟨[], []⟩ (createNewTask 0 50 100 8 50) ∧
      (plain (profile [100] fun b _ => 10 * b) [100] 1).adjustSatNode (loneNode 100 8 80 1)
          ⟨[], []⟩ =
        .ok (some ({ loneNode 100 5 50 1 with
          vTaskList := [createNewTask 0 50 100 5 100] }, 0)) := by
  have hlat := @loneNode_latencies 100 8 80 1 (by decide) (by decide)
  exact ⟨(adjustSatNode_saturated_iff hlat rfl le_rfl rfl (by decide)).mpr
    (Or.inl (by norm_num [createNewTask])), by decide +kernel⟩

end Scheduler

end Glet
