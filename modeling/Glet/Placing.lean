import Glet.Gpulets
import Glet.Nodes

/-!
# What the placing routines look up

Facts about the queries behind each write: the node `findBestFit` returns,
the batch size the network limit allows, the way `allocateTimeShare` shares
a node, the interference adjustments and the residues `mergeResidue`
collects.
-/

namespace Glet

namespace Scheduler

variable {s : Scheduler} {sim : SimState}

/-! ## Best fit -/

/-- `a` is an empty node that is large enough for `input` and on which its
task meets the SLO test of `findBestFit`. -/
def FitsAt (s : Scheduler) (sim : SimState) (input : Node) (a : Addr) : Prop :=
  ∃ gpu node task v, sim.vGPUList[a.gpu]? = some gpu ∧ sim.node? a = some node ∧
    gpu.TYPE = input.type ∧ input.resourcePntg ≤ node.resourcePntg ∧ node.vTaskList = [] ∧
    input.vTaskList = [task] ∧ s.getLatencyOn input.type task.id task.batchSize node sim = .ok v ∧
    v + s.dutyOf input ≤ task.SLO

theorem fitsNode_ok {input node : Node} {task : Task} {gpu : GPU}
    (h : s.fitsNode sim input task gpu node = .ok true) :
    ∃ v, s.getLatencyOn input.type task.id task.batchSize node sim = .ok v ∧
      v + s.dutyOf input ≤ task.SLO := by
  have key : ∀ memOK : Bool, (do
      let latency ← s.getLatencyOn input.type task.id task.batchSize node sim
      if memOK && decide (latency + s.dutyOf input ≤ task.SLO) then
        let disturbed ← s.checkForInterference input.type node sim
        return !disturbed
      else return false : Query Bool) = .ok true →
      ∃ v, s.getLatencyOn input.type task.id task.batchSize node sim = .ok v ∧
        v + s.dutyOf input ≤ task.SLO := by
    intro memOK hk
    obtain ⟨v, hv, hk⟩ := Query.bind_ok.mp hk
    split at hk
    case isTrue hcond =>
      simp only [Bool.and_eq_true, decide_eq_true_eq] at hcond
      exact ⟨v, hv, hcond.2⟩
    case isFalse => cases Query.pure_ok.mp hk
  unfold fitsNode at h
  split at h
  · obtain ⟨memOK, -, h⟩ := Query.bind_ok.mp h
    exact key memOK h
  · exact key true h

theorem bestFitLoop_ok {input : Node} {exclude as : List Addr} {acc r : Int × Option Addr}
    (h : s.bestFitLoop sim input exclude as acc = .ok r)
    (hacc : ∀ a, acc.2 = some a → FitsAt s sim input a) :
    ∀ a, r.2 = some a → FitsAt s sim input a := by
  induction as generalizing acc with
  | nil =>
      obtain rfl := Except.ok.inj h
      exact hacc
  | cons a as ih =>
      obtain ⟨minDiff, best⟩ := acc
      simp only [bestFitLoop] at h
      split at h
      case h_2 => cases h
      case h_1 gpu node hgpu hnode =>
        by_cases hskip : gpu.TYPE ≠ input.type ∨ node.resourcePntg < input.resourcePntg ∨
            node.vTaskList ≠ [] ∨ a ∈ exclude
        · rw [if_pos hskip] at h
          exact ih h hacc
        · rw [if_neg hskip] at h
          simp only [not_or, not_not, not_lt] at hskip
          obtain ⟨htype, hpart, hempty, -⟩ := hskip
          split at h
          case h_2 => cases h
          case h_1 task htask =>
            simp only [Query.bind_ok] at h
            obtain ⟨ok, hok, h⟩ := h
            cases ok with
            | false =>
                simp only [Bool.false_eq_true, if_false] at h
                exact ih h hacc
            | true =>
                obtain ⟨v, hv, hslo⟩ := fitsNode_ok hok
                have hfit : FitsAt s sim input a :=
                  ⟨gpu, node, task, v, hgpu, hnode, htype, hpart, hempty, htask, hv, hslo⟩
                rw [if_pos rfl] at h
                generalize (if node.resourcePntg = 100 ∧ s.usePart = true then (0 : Int)
                  else minDiff) = md at h
                generalize hb : (if node.resourcePntg = 100 ∧ s.usePart = true then some a
                  else best) = b at h
                have hbest : ∀ a', b = some a' → FitsAt s sim input a' := by
                  intro a' ha'
                  split at hb
                  · obtain rfl : a = a' := Option.some.inj (hb.trans ha')
                    exact hfit
                  · exact hacc a' (hb.trans ha')
                split at h
                · refine ih h ?_
                  intro a' ha'
                  obtain rfl : a = a' := Option.some.inj ha'
                  exact hfit
                · exact ih h hbest

theorem findBestFit_ok {input : Node} {exclude : List Addr} {a : Addr}
    (h : s.findBestFit sim input exclude = .ok (some a)) : FitsAt s sim input a := by
  simp only [findBestFit, Query.bind_ok, Query.pure_ok, Prod.exists] at h
  obtain ⟨minDiff, best, hloop, h⟩ := h
  split at h
  · cases h
  · exact bestFitLoop_ok hloop (by simp) a h

/-! ## The network limit -/

/-- A task whose batch size and throughput were scaled down together. -/
structure ScaledDown (t t' : Task) : Prop where
  id_eq : t'.id = t.id
  SLO_eq : t'.SLO = t.SLO
  rate_eq : t'.requestRate = t.requestRate
  batch_pos : 1 ≤ t'.batchSize
  batch_le : t'.batchSize ≤ t.batchSize
  throughput_eq : t'.throughput = t'.batchSize / t.batchSize * t.throughput

theorem netBatchLoop_ok {t t' : Task} {remainBW : ℚ} {i : Nat}
    (h : s.netBatchLoop t remainBW i = .ok (some t')) (hi : (i : Int) ≤ t.batchSize) :
    ScaledDown t t' := by
  induction i with
  | zero => cases Except.ok.inj h
  | succ i ih =>
      simp only [netBatchLoop, Query.bind_ok, fdiv_ok] at h
      obtain ⟨ratio, ⟨-, rfl⟩, h⟩ := h
      split at h
      · obtain rfl := Option.some.inj (Query.pure_ok.mp h)
        exact
          { id_eq := rfl, SLO_eq := rfl, rate_eq := rfl, batch_pos := by simp, batch_le := hi
            throughput_eq := by simp }
      · exact ih h (by omega)

theorem limitToNetBW_ok {t t' : Task} {gpu : GPU} (hb : 1 ≤ t.batchSize)
    (h : s.limitToNetBW t gpu = .ok (some t')) : ScaledDown t t' := by
  unfold limitToNetBW at h
  split at h
  · simp only [adjustBatchSizetoNetBW] at h
    split at h
    · cases Query.pure_ok.mp h
    · simp only [Query.bind_ok] at h
      obtain ⟨-, -, h⟩ := h
      exact netBatchLoop_ok h (by omega)
  · obtain rfl := Option.some.inj (Except.ok.inj h)
    have hne : (t.batchSize : ℚ) ≠ 0 := by exact_mod_cast (by omega : t.batchSize ≠ 0)
    exact
      { id_eq := rfl, SLO_eq := rfl, rate_eq := rfl, batch_pos := hb, batch_le := le_rfl
        throughput_eq := by rw [div_self hne, one_mul] }

/-- Scaling down keeps throughput times duty cycle at 1000 per request. -/
theorem ScaledDown.rate_duty {t t' : Task} {d : ℚ} (h : ScaledDown t t')
    (hd : t.throughput * d = 1000 * t.batchSize) : t'.throughput * d = 1000 * t'.batchSize := by
  have hpos := h.batch_pos
  have hle := h.batch_le
  have hne : (t.batchSize : ℚ) ≠ 0 := by exact_mod_cast (by omega : t.batchSize ≠ 0)
  calc t'.throughput * d = t'.batchSize / t.batchSize * (t.throughput * d) := by
        rw [h.throughput_eq]; ring
    _ = 1000 * t'.batchSize := by rw [hd]; field_simp

theorem ScaledDown.throughput_nonneg {t t' : Task} (h : ScaledDown t t')
    (ht : 0 ≤ t.throughput) : 0 ≤ t'.throughput := by
  have hpos := h.batch_pos
  have hle := h.batch_le
  have h1 : (0 : ℚ) ≤ t'.batchSize := by exact_mod_cast (by omega : 0 ≤ t'.batchSize)
  have h2 : (0 : ℚ) ≤ t.batchSize := by exact_mod_cast (by omega : 0 ≤ t.batchSize)
  rw [h.throughput_eq]
  positivity

/-! ## Time sharing -/

theorem latencySum_batch {node : Node} {ts : List Task} {v : ℚ}
    (h : s.latencySum node sim ts = .ok v) : ∀ t ∈ ts, 1 ≤ t.batchSize := by
  induction ts generalizing v with
  | nil => simp
  | cons t ts ih =>
      simp only [latencySum, Query.bind_ok] at h
      obtain ⟨l, hl, rest, hrest, -⟩ := h
      intro t' ht'
      rcases List.mem_cons.mp ht' with rfl | ht'
      · exact getLatencyOn_batch hl
      · exact ih hrest t' ht'

theorem sharedLatency_batch {node : Node} {duty : Int} {ts : List Task} {v : ℚ}
    (h : s.sharedLatency duty node sim ts = .ok v) : ∀ t ∈ ts, 1 ≤ sharedBatch duty t := by
  induction ts generalizing v with
  | nil => simp
  | cons t ts ih =>
      simp only [sharedLatency, Query.bind_ok] at h
      obtain ⟨l, hl, rest, hrest, -⟩ := h
      intro t' ht'
      rcases List.mem_cons.mp ht' with rfl | ht'
      · exact getLatencyOn_batch hl
      · exact ih hrest t' ht'

/-- The search stops at a batch size whose duty cycle and latency fit. -/
theorem shareSearch_ok {task : Task} {node : Node} {k : Nat} {acc : Int × ℚ} {batch duty : Int}
    {latency : ℚ} (h : s.shareSearch task node sim k acc = .ok (batch, duty, latency))
    (hbatch : 1 ≤ batch) :
    batch ≤ k ∧ duty = toInt (batch * 1000 / task.requestRate) ∧
      s.getLatencyOn node.type task.id batch node sim = .ok latency := by
  induction k generalizing acc with
  | zero =>
      obtain ⟨d, l⟩ := acc
      obtain ⟨rfl, -⟩ := Prod.mk.injEq .. |>.mp (Except.ok.inj h)
      omega
  | succ k ih =>
      simp only [shareSearch, Query.bind_ok, fdiv_ok] at h
      obtain ⟨d, ⟨-, rfl⟩, l, hl, h⟩ := h
      split at h
      · simp only [Query.pure_ok, Prod.mk.injEq] at h
        obtain ⟨rfl, rfl, rfl⟩ := h
        exact ⟨le_rfl, by push_cast; rfl, hl⟩
      · obtain ⟨h1, h2, h3⟩ := ih h
        exact ⟨by push_cast; omega, h2, h3⟩

/-- A node a task may share: its batch size and the new duty cycle. `latency`
and `others` are the two parts of the new latency sum. -/
structure Shares (s : Scheduler) (task : Task) (node : Node) (sim : SimState)
    (batch duty : Int) (latency others : ℚ) : Prop where
  absent : checkContain task.id node = false
  batch_le : batch ≤ maxBatch
  duty_eq : duty = toInt (batch * 1000 / task.requestRate)
  latency_ok : s.getLatencyOn node.type task.id batch node sim = .ok latency
  others_ok : s.sharedLatency duty node sim node.vTaskList = .ok others
  slo : latency + others + duty ≤ task.SLO
  slo_others : ∀ t ∈ node.vTaskList, latency + others + duty ≤ t.SLO

/-- What the tests of `allocateTimeShare` have seen when a node is taken. The
bound is the batch size of a whole old duty cycle. -/
theorem shareNode_tested {task : Task} {node : Node} {batch duty : Int}
    (h : s.shareNode task node sim = .ok (some (batch, duty))) (hbatch : 1 ≤ batch) :
    ∃ latency others, Shares s task node sim batch duty latency others ∧ duty ≤ s.dutyOf node ∧
      overloaded (latency + others) duty = false ∧
      0 < toInt (s.dutyOf node * (task.requestRate / 1000)) := by
  have key : ∀ r : Int × Int × ℚ,
      (1 ≤ r.1 → r.1 ≤ maxBatch ∧ r.2.1 = toInt (r.1 * 1000 / task.requestRate) ∧
        s.getLatencyOn node.type task.id r.1 node sim = .ok r.2.2) →
      (if r.2.1 > s.dutyOf node ∨ r.1 = 0 then return none
      else do
        let others ← s.sharedLatency r.2.1 node sim node.vTaskList
        let sum := r.2.2 + others
        if overloaded sum r.2.1 then return none
        else if (task.SLO :: node.vTaskList.map (·.SLO)).any fun slo =>
          decide (sum + r.2.1 > slo) then return none
        else return some (r.1, r.2.1) : Query (Option (Int × Int))) = .ok (some (batch, duty)) →
      checkContain task.id node = false → r.1 = batch ∧
      ∃ latency others, Shares s task node sim batch duty latency others ∧
        duty ≤ s.dutyOf node ∧ overloaded (latency + others) duty = false := by
    rintro ⟨b, d, l⟩ hr hk habsent
    split at hk
    · cases Query.pure_ok.mp hk
    case isFalse hold =>
      obtain ⟨others, hothers, hk⟩ := Query.bind_ok.mp hk
      dsimp only at hk
      split at hk
      · cases Query.pure_ok.mp hk
      case isFalse hload =>
        split at hk
        · cases Query.pure_ok.mp hk
        case isFalse hslo =>
          simp only [Query.pure_ok, Option.some.injEq, Prod.mk.injEq] at hk
          obtain ⟨rfl, rfl⟩ := hk
          obtain ⟨hle, hd, hl⟩ := hr hbatch
          simp only [List.any_cons, List.any_map, Bool.or_eq_true, decide_eq_true_eq,
            List.any_eq_true, Function.comp_apply, not_or, not_lt, gt_iff_lt, not_exists,
            not_and] at hslo
          simp only [not_or, not_lt, gt_iff_lt] at hold
          exact ⟨rfl, l, others,
            { absent := habsent, batch_le := hle, duty_eq := hd, latency_ok := hl
              others_ok := hothers, slo := hslo.1, slo_others := hslo.2 },
            hold.1, by simpa using hload⟩
  unfold shareNode at h
  split at h
  case isTrue => cases Query.pure_ok.mp h
  case isFalse hcond =>
    have habsent : checkContain task.id node = false := by
      cases hc : checkContain task.id node
      · rfl
      · simp [hc] at hcond
    dsimp only at h
    split at h
    case isTrue => cases Query.pure_ok.mp h
    case isFalse hzero =>
      generalize toInt (s.dutyOf node * (task.requestRate / 1000)) = bound at h hzero
      generalize hbd : (if bound > maxBatch then maxBatch else bound) = bd at h
      have hbdle : bd ≤ maxBatch := by split at hbd <;> omega
      split at h
      case isTrue hneg =>
        obtain ⟨rfl, -⟩ := key (bd, s.uninit.shareDuty, s.uninit.shareLatency)
          (fun hpos => absurd hneg (by simp only at hpos; omega)) h habsent
        omega
      case isFalse hnonneg =>
        obtain ⟨⟨b, d, l⟩, hsearch, h⟩ := Query.bind_ok.mp h
        obtain ⟨-, latency, others, hshares, hduty, hload⟩ := key (b, d, l) (fun hb => by
          obtain ⟨h1, h2, h3⟩ := shareSearch_ok hsearch hb
          exact ⟨by simp only at h1 ⊢; omega, h2, h3⟩) h habsent
        have hmax : (0 : Int) < maxBatch := by decide
        exact ⟨latency, others, hshares, hduty, hload, by split at hbd <;> omega⟩

theorem shareNode_ok {task : Task} {node : Node} {batch duty : Int}
    (h : s.shareNode task node sim = .ok (some (batch, duty))) (hbatch : 1 ≤ batch) :
    ∃ latency others, Shares s task node sim batch duty latency others := by
  obtain ⟨latency, others, hshares, -⟩ := shareNode_tested h hbatch
  exact ⟨latency, others, hshares⟩

/-! ## Interference adjustments -/

/-- A node that hosts tasks runs them in a positive duty cycle. -/
def Sound (n : Node) : Prop :=
  n.vTaskList = [] ∨ ∃ d, n.dutyCycle = some d ∧ 0 < d ∧ ∀ t ∈ n.vTaskList, 0 ≤ t.throughput

/-- What an interference adjustment may change: batch sizes, throughputs, the
duty cycle and the occupancy. -/
structure Adjusted (s : Scheduler) (n n' : Node) : Prop where
  id_eq : n'.id = n.id
  part_eq : n'.resourcePntg = n.resourcePntg
  dedup_eq : n'.dedupNum = n.dedupNum
  type_eq : n'.type = n.type
  ids_eq : n'.vTaskList.map (·.id) = n.vTaskList.map (·.id)
  duty_set : n.dutyCycle ≠ none → n'.dutyCycle ≠ none
  sound : PositiveLatency s → Sound n → Sound n'

theorem Adjusted.refl (s : Scheduler) (n : Node) : Adjusted s n n :=
  ⟨rfl, rfl, rfl, rfl, rfl, id, fun _ h => h⟩

theorem Sound.duty_pos {n : Node} {t : Task} (h : Sound n) (ht : t ∈ n.vTaskList) :
    0 < s.dutyOf n := by
  rcases h with hnil | ⟨d, hd, hpos, -⟩
  · rw [hnil] at ht
    cases ht
  · simpa [dutyOf, hd] using hpos

theorem shrinkResBatch_ok {node : Node} {t : Task} {other latency duty d : ℚ} {k : Nat} {b : Int}
    (h : s.shrinkResBatch node sim t other k latency duty = .ok (some (b, d)))
    (hb : 1 ≤ t.batchSize) (hd : 0 < duty) : 0 ≤ b ∧ 0 < d := by
  induction k using Nat.strong_induction_on generalizing latency duty with
  | h k ih =>
      unfold shrinkResBatch at h
      split at h
      · match k, ih, h with
        | 0, _, h => cases h
        | 1, _, h => cases Except.ok.inj h
        | k + 2, ih, h =>
            simp only [Query.bind_ok, fdiv_ok] at h
            obtain ⟨l, -, ratio, ⟨-, rfl⟩, h⟩ := h
            have hbq : (0 : ℚ) < t.batchSize := by exact_mod_cast (by omega : 0 < t.batchSize)
            have hk : (0 : ℚ) < ((k + 1 : Nat) : ℚ) := by exact_mod_cast Nat.succ_pos k
            exact ih (k + 1) (by omega) h (by positivity)
      · obtain ⟨rfl, rfl⟩ := by simpa using Except.ok.inj h
        exact ⟨by positivity, hd⟩

theorem shrinkResTasks_ok {node : Node} {sum : ℚ} {ts : List Task} {rs : List (Int × ℚ)}
    (h : s.shrinkResTasks node sim sum ts = .ok (some rs)) :
    rs.length = ts.length ∧ (0 < s.dutyOf node → ∀ r ∈ rs, 0 ≤ r.1 ∧ 0 < r.2) := by
  induction ts generalizing rs with
  | nil =>
      obtain rfl := Option.some.inj (Except.ok.inj h)
      simp
  | cons t ts ih =>
      simp only [shrinkResTasks, Query.bind_ok] at h
      obtain ⟨l, hl, r, hr, h⟩ := h
      cases r with
      | none => cases Query.pure_ok.mp h
      | some r =>
          simp only [Query.bind_ok] at h
          obtain ⟨rest, hrest, h⟩ := h
          cases rest with
          | none => cases Query.pure_ok.mp h
          | some rest =>
              obtain rfl := Option.some.inj (Query.pure_ok.mp h)
              obtain ⟨hlen, hpos⟩ := ih hrest
              refine ⟨by simp [hlen], ?_⟩
              intro hduty r' hr'
              rcases List.mem_cons.mp hr' with rfl | hr'
              · exact shrinkResBatch_ok hr (getLatencyOn_batch hl) hduty
              · exact hpos hduty r' hr'

theorem rewriteResTasks_ok {minDuty : ℚ} {ts ts' : List Task} {rs : List (Int × ℚ)}
    (h : rewriteResTasks minDuty ts rs = .ok ts') (hlen : rs.length = ts.length) :
    ts'.map (·.id) = ts.map (·.id) ∧
      (0 < minDuty → (∀ r ∈ rs, 0 ≤ r.1) → ∀ t ∈ ts', 0 ≤ t.throughput) := by
  induction ts generalizing rs ts' with
  | nil =>
      obtain rfl := Except.ok.inj h
      simp
  | cons t ts ih =>
      cases rs with
      | nil => simp at hlen
      | cons r rs =>
          simp only [rewriteResTasks, Query.bind_ok, fdiv_ok, Query.pure_ok] at h
          obtain ⟨trp, ⟨-, rfl⟩, rest, hrest, rfl⟩ := h
          obtain ⟨hids, hpos⟩ := ih hrest (by simpa using hlen)
          refine ⟨by simp [hids], ?_⟩
          intro hd hrs t' ht'
          rcases List.mem_cons.mp ht' with rfl | ht'
          · have hr : (0 : ℚ) ≤ r.1 := by exact_mod_cast hrs r (List.mem_cons_self ..)
            positivity
          · exact hpos hd (fun r' hr' => hrs r' (List.mem_cons_of_mem _ hr')) t' ht'

theorem foldl_min_pos {l : List ℚ} {x : ℚ} (hx : 0 < x) (hl : ∀ y ∈ l, 0 < y) :
    0 < l.foldl min x := by
  induction l generalizing x with
  | nil => exact hx
  | cons y l ih =>
      exact ih (lt_min hx (hl y (List.mem_cons_self ..)))
        fun z hz => hl z (List.mem_cons_of_mem _ hz)

theorem adjustResNode_ok {n n' : Node} (h : s.adjustResNode n sim = .ok (some n')) :
    Adjusted s n n' := by
  simp only [adjustResNode, Query.bind_ok] at h
  obtain ⟨sum, -, h⟩ := h
  split at h
  · obtain rfl := Option.some.inj (Query.pure_ok.mp h)
    exact Adjusted.refl s n
  · simp only [Query.bind_ok] at h
    obtain ⟨r, hr, h⟩ := h
    cases r with
    | none => cases Query.pure_ok.mp h
    | some rs =>
        simp only [Query.bind_ok, assert_ok, fdiv_ok, Query.pure_ok, Option.some.injEq] at h
        obtain ⟨-, hne, tasks, htasks, sum', -, occ, -, rfl⟩ := h
        obtain ⟨hlen, hpos⟩ := shrinkResTasks_ok hr
        obtain ⟨hids, hthr⟩ := rewriteResTasks_ok htasks hlen
        refine ⟨rfl, rfl, rfl, rfl, hids, fun _ => Option.some_ne_none _, ?_⟩
        intro _ hsound
        obtain ⟨r, rs, rfl⟩ := List.exists_cons_of_ne_nil hne
        cases hts : n.vTaskList with
        | nil => simp [hts] at hlen
        | cons t ts =>
            have hduty : 0 < s.dutyOf n := hsound.duty_pos (t := t) (by simp [hts])
            have hall := hpos hduty
            have hmin : 0 < (((r :: rs).map (·.2)).foldl min (((r :: rs).map (·.2)).headD 0)) := by
              refine foldl_min_pos (hall r (List.mem_cons_self ..)).2 ?_
              intro y hy
              obtain ⟨r', hr', rfl⟩ := List.mem_map.mp hy
              exact (hall r' hr').2
            exact Or.inr ⟨_, rfl, hmin, hthr hmin fun r' hr' => (hall r' hr').1⟩

theorem shrinkSatBatch_ok {node : Node} {t : Task} {latency duty d : ℚ} {k : Nat} {b : Int}
    (hpos : PositiveLatency s) (h : s.shrinkSatBatch node sim t k latency duty = .ok (some (b, d)))
    (hd : 0 < duty) : 0 ≤ b ∧ 0 < d := by
  induction k using Nat.strong_induction_on generalizing latency duty with
  | h k ih =>
      unfold shrinkSatBatch at h
      split at h
      · match k, ih, h with
        | 0, _, h => cases h
        | 1, _, h => cases Except.ok.inj h
        | k + 2, ih, h =>
            simp only [Query.bind_ok] at h
            obtain ⟨l, hl, h⟩ := h
            exact ih (k + 1) (by omega) h (getLatencyOn_pos hpos hl)
      · obtain ⟨rfl, rfl⟩ := by simpa using Except.ok.inj h
        exact ⟨by positivity, hd⟩

theorem adjustSatNode_ok {n n' : Node} {lost : Int}
    (h : s.adjustSatNode n sim = .ok (some (n', lost))) : Adjusted s n n' := by
  unfold adjustSatNode at h
  split at h
  case h_2 => cases h
  case h_1 t hts =>
    simp only [Query.bind_ok] at h
    obtain ⟨-, -, l, hl, h⟩ := h
    split at h
    · simp only [Query.bind_ok, fdiv_ok, Query.pure_ok, Option.some.injEq, Prod.mk.injEq] at h
      obtain ⟨trp, ⟨-, rfl⟩, rfl, rfl⟩ := h
      refine ⟨rfl, rfl, rfl, rfl, by simp [hts], id, ?_⟩
      intro hpos hsound
      rcases hsound with hnil | ⟨d, hd, hd0, -⟩
      · simp [hts] at hnil
      · refine Or.inr ⟨d, hd, hd0, ?_⟩
        intro t' ht'
        obtain rfl := List.mem_singleton.mp ht'
        have hlpos := getLatencyOn_pos hpos hl
        have hb : (0 : ℚ) ≤ t.batchSize := by
          exact_mod_cast le_trans zero_le_one (getLatencyOn_batch hl)
        positivity
    · simp only [Query.bind_ok] at h
      obtain ⟨-, -, r, hr, h⟩ := h
      cases r with
      | none => cases Query.pure_ok.mp h
      | some r =>
          obtain ⟨minBatch, minDuty⟩ := r
          simp only [Query.bind_ok, fdiv_ok, Query.pure_ok, Option.some.injEq, Prod.mk.injEq] at h
          obtain ⟨-, -, -, -, period, ⟨-, rfl⟩, rfl, rfl⟩ := h
          refine ⟨rfl, rfl, rfl, rfl, by simp [hts], fun _ => Option.some_ne_none _, ?_⟩
          intro hpos hsound
          have hduty : 0 < s.dutyOf n := hsound.duty_pos (t := t) (by simp [hts])
          obtain ⟨hb, hd⟩ := shrinkSatBatch_ok hpos hr hduty
          refine Or.inr ⟨minDuty, rfl, hd, ?_⟩
          intro t' ht'
          obtain rfl := List.mem_singleton.mp ht'
          have hbq : (0 : ℚ) ≤ minBatch := by exact_mod_cast hb
          positivity

/-! ## Residues -/

/-- What a residue gpu-let of the model contributes to the collected rate. -/
def residueRate (id : Int) (n : Node) : Int :=
  if isResidueOf id n then ⌊(n.vTaskList.map (·.throughput)).sum⌋ else 0

/-- 1 for a residue gpu-let of the model. -/
def residueCount (id : Int) (n : Node) : Int := if isResidueOf id n then 1 else 0

theorem gatherResidues_ok {table : SatTable} {id : Int} {ns : List Node} {acc found : Residues}
    (h : gatherResidues table id ns acc = .ok found) :
    acc.rate + (ns.map (residueRate id)).sum ≤ found.rate ∧
      (found.count : Int) = acc.count + (ns.map (residueCount id)).sum := by
  induction ns generalizing acc with
  | nil =>
      obtain rfl := Except.ok.inj h
      simp
  | cons n ns ih =>
      simp only [gatherResidues] at h
      split at h
      case isTrue hres =>
        simp only [Query.bind_ok, Prod.exists] at h
        obtain ⟨sat, b, -, h⟩ := h
        obtain ⟨hrate, hcount⟩ := ih h
        have hfloor := floor_le_toInt ((acc.rate : ℚ) + (n.vTaskList.map (·.throughput)).sum)
        rw [Int.floor_intCast_add] at hfloor
        simp only [List.map_cons, List.sum_cons, residueRate, residueCount, hres, if_true]
        refine ⟨?_, ?_⟩
        · dsimp only at hrate
          omega
        · push_cast at hcount
          omega
      case isFalse hres =>
        obtain ⟨hrate, hcount⟩ := ih h
        simp only [List.map_cons, List.sum_cons, residueRate, residueCount, if_neg hres, zero_add]
        exact ⟨hrate, hcount⟩

/-! ## Memory -/

theorem addedGPUMemUsage_ok {gpu : GPU} {id : Int} {node : Node} {used : Int} {m : MemNode}
    (h : s.addedGPUMemUsage gpu id node = .ok (some (used, m))) :
    isModelLoaded gpu node id = false ∧ used = gpu.usedMemory + s.requiredMemory gpu id node ∧
      m = ⟨node.resourcePntg, node.dedupNum⟩ ∧ (used : ℚ) < gpu.totalMemory * memRoom := by
  unfold addedGPUMemUsage at h
  split at h
  · cases Query.pure_ok.mp h
  case isFalse hload =>
    simp only [Query.bind_ok] at h
    obtain ⟨fits, hfits, h⟩ := h
    split at h
    case isFalse => cases Query.pure_ok.mp h
    case isTrue hf =>
      obtain ⟨rfl, rfl⟩ := by simpa using Query.pure_ok.mp h
      subst hf
      simp only [doesFitMemLimit, Query.bind_ok, Query.pure_ok] at hfits
      obtain ⟨-, -, -, -, hfits⟩ := hfits
      have hfits := of_decide_eq_true ((Bool.or_eq_true_iff.mp hfits).resolve_left hload)
      refine ⟨by simpa using hload, rfl, rfl, ?_⟩
      push_cast
      linarith

end Scheduler

end Glet
